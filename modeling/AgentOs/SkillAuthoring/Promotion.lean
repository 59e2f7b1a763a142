import AgentOs.Lib.FileTree
import AgentOs.Lib.Lines
import AgentOs.SkillAuthoring.Drafts
import AgentOs.SkillAuthoring.Registration
import Mathlib.Data.List.Infix

/-!
`promote_and_register`, with operations that may raise (`skill_authoring.py`).

The package is copied beside its destination and loaded, `workspace.toml` is edited and
written to a temporary file, the copy is renamed to its destination, the new
configuration is loaded and renamed over the old one, and the workspace is reloaded.
`Faults` says which of these operations raise. What an import writes into a package and
temporary configuration files are left out.

`allOrNothing_iff` says for which faults nothing remains of a registration that raises.
-/

namespace AgentOs

open AgentOs.Lib

/-! ### Operations -/

/-- The operations that may raise. -/
inductive PromoteOp where
  | makeRoot
  | copy
  | loadPackage
  | readConfig
  | writeConfig
  | movePackage
  | loadConfig
  | moveConfig
  | importRuntime
  | reload
  | writeRollback
  | moveRollback
  | unlinkConfig
  | removeDestination
  | removeTemp
deriving DecidableEq, Repr

/-- A path of an absolute directory: its names. -/
abbrev Location := List (List NameChar)

/-- Names of text. -/
def location (names : List String) : Location := names.map fun name => name.toList.map .char

/-- What raises, and how far an operation that raises gets. -/
structure Faults where
  raises : PromoteOp → Bool := fun _ => false
  /-- what a copy has made -/
  made : Location → Bool := fun _ => true
  /-- what a removal leaves below its directory -/
  kept : Location → Bool := fun _ => true

/-- A draft that `package_digest` accepts has no links. -/
structure Draft extends Package where
  linkless : ∀ entry ∈ entries, entry.2 ≠ .symlink

/-- The file system and the text of `workspace.toml`. -/
structure Disk where
  tree : FileTree (List NameChar) PackageEntry
  config : String

/-- Nothing is in what is not there. -/
structure ClosedDisk extends Disk where
  closed : FileTree.Closed tree

section

variable (setup : AuthoringSetup) (faults : Faults)

/-- `shutil.rmtree`; that there is nothing to remove is suppressed. -/
def removeTree (op : PromoteOp) (dir : Location) (disk : Disk) : Except String Unit × Disk :=
  if faults.raises op then
    (.error "OSError", { disk with tree := disk.tree.removePart dir faults.kept })
  else (.ok (), { disk with tree := disk.tree.removeAll [dir] })

/-- Something other than a directory is on the way. -/
def blocked (tree : FileTree (List NameChar) PackageEntry) (way : List Location) : Bool :=
  way.any fun dir => (tree dir).any (· ≠ .directory)

/-- The directories that are missing. -/
def missing (tree : FileTree (List NameChar) PackageEntry) (way : List Location) :
    List (Location × PackageEntry) :=
  (way.filter fun dir => tree dir = none).map fun dir => (dir, .directory)

/-- What a copy of a package to `temp` makes: the directory and the entries, and the
directories that are missing on the way there. -/
def creations (tree : FileTree (List NameChar) PackageEntry) (way : List Location) (temp : Location)
    (draft : Draft) : List (Location × PackageEntry) :=
  ((temp, .directory) :: draft.entries.map fun entry => (temp ++ entry.1.map (·.chars), entry.2)) ++
    missing tree way

/-- `os.replace` of a directory: to a place in a directory, where nothing is or an empty
directory. Where the target was not there before the copy, what is in it was made. -/
def CanMove (tree : FileTree (List NameChar) PackageEntry) (made : List (Location × PackageEntry))
    (source target : Location) : Prop :=
  tree target.dropLast = some .directory ∧ ¬source <+: target ∧ ¬target <+: source ∧
    (tree target = none ∨
      tree target = some .directory ∧ ∀ item ∈ made, item.1.dropLast ≠ target)

instance (tree : FileTree (List NameChar) PackageEntry) (made : List (Location × PackageEntry))
    (source target : Location) : Decidable (CanMove tree made source target) :=
  inferInstanceAs (Decidable (_ ∧ _ ∧ _))

/-- `_reload_workspace_or_rollback`. -/
def reloadWorkspaceOrRollback (original : String) (disk : Disk) : Except String Unit × Disk :=
  if faults.raises .importRuntime then (.error "ImportError", disk)
  else if faults.raises .reload then
    if faults.raises .writeRollback ∨ faults.raises .moveRollback then (.error "OSError", disk)
    else
      (.error "Workspace reload failed; configuration was rolled back",
        { disk with config := original })
  else (.ok (), disk)

/-- The directories on the way to a path, each where its names lead. -/
def wayTo (names : List String) : List Location :=
  (names.inits.map fun way => location (Path.resolve way)).dropLast

/-- The name of the copy before it is moved. -/
def tempName (skillName hex : String) : String := "." ++ skillName ++ "." ++ hex ++ ".tmp"

/-- Where the package is copied, moved and listed. -/
structure Places where
  way : List Location
  temp : Location
  destination : Location
  listed : String

/-- The destination of a name, where it is in the directory of approved packages. -/
def places? (skillName hex : String) : Except String Places :=
  let destination := Path.resolve (Path.join setup.approvedRoot skillName)
  let temp := setup.approvedRoot ++ Path.parts (tempName skillName hex)
  if '\x00' ∈ skillName.toList then .error "embedded null byte"
  else if setup.approvedRoot.isPrefixOf destination then
    .ok
      { way := wayTo temp
        temp := location (Path.resolve temp)
        destination := location destination
        listed := pathText destination }
  else .error "Approved package destination is unavailable"

/-- The renames and what comes between and after them: what the inner `try` does, and
whether the package was moved. -/
def install (places : Places) (made : List (Location × PackageEntry)) (original updated : String)
    (disk : Disk) : (Except String Unit × Disk) × Bool :=
  if faults.raises .movePackage ∨ ¬CanMove disk.tree made places.temp places.destination then
    ((.error "OSError", disk), false)
  else
    let moved := { disk with tree := disk.tree.move places.temp places.destination }
    if faults.raises .loadConfig then ((.error "WorkspaceLoadError", moved), true)
    else if faults.raises .moveConfig then ((.error "OSError", moved), true)
    else (reloadWorkspaceOrRollback faults original { moved with config := updated }, true)

/-- The inner handler. -/
def undoInstall (places : Places) (moved : Bool) (disk : Disk) : Except String Unit × Disk :=
  if faults.raises .unlinkConfig then (.error "OSError", disk)
  else if moved then removeTree faults .removeDestination places.destination disk
  else (.ok (), disk)

/-- A handler raises again what it handles, unless it raises something else. -/
def reraise {α : Type} (error : String) : Except String Unit × Disk → Except String α × Disk
  | (.error e, disk) => (.error e, disk)
  | (.ok (), disk) => (.error error, disk)

/-- What the inner `try` and its handler do together. -/
def handleInstall (places : Places) :
    (Except String Unit × Disk) × Bool → Except String Unit × Disk
  | ((.ok (), disk), _) => (.ok (), disk)
  | ((.error e, disk), moved) => reraise e (undoInstall faults places moved disk)

/-- What the outer `try` does. -/
def register (places : Places) (made : List (Location × PackageEntry)) (disk : Disk) :
    Except String Unit × Disk :=
  if faults.raises .loadPackage then (.error "ValueError", disk)
  else if faults.raises .readConfig then (.error "OSError", disk)
  else
    match addSkillPathToWorkspaceToml setup.loads (readText disk.config) places.listed with
    | .error e => (.error e, disk)
    | .ok updated =>
        if faults.raises .writeConfig then (.error "OSError", disk)
        else
          handleInstall faults places
            (install faults places made (readText disk.config) updated disk)

/-- `destination_root.mkdir(parents=True, exist_ok=True)`. -/
def makeRoot (tree : FileTree (List NameChar) PackageEntry) : FileTree (List NameChar) PackageEntry :=
  tree.make (missing tree (location setup.approvedRoot).inits)

/-- `copytree` raises. -/
def CopyFails (tree : FileTree (List NameChar) PackageEntry) (places : Places) : Prop :=
  faults.raises .copy ∨ tree places.temp ≠ none ∨ places.temp ∈ places.way ∨
    blocked tree places.way

instance (tree : FileTree (List NameChar) PackageEntry) (places : Places) :
    Decidable (CopyFails faults tree places) := inferInstanceAs (Decidable (_ ∨ _))

/-- `promote_and_register`, with what `uuid4` draws. -/
def promoteAndRegister (draft : Draft) (skillName hex : String) (disk : Disk) :
    Except String RegistrationResult × Disk :=
  if faults.raises .makeRoot ∨ blocked disk.tree (location setup.approvedRoot).inits then
    (.error "OSError", disk)
  else
    let tree := makeRoot setup disk.tree
    match places? setup skillName hex with
    | .error e => (.error e, { disk with tree })
    | .ok places =>
        if tree places.destination ≠ none then
          (.error "Approved package destination is unavailable", { disk with tree })
        else
          let made := creations tree places.way places.temp draft
          if CopyFails faults tree places then
            let some := made.filter fun item => tree item.1 = none ∧ faults.made item.1
            (.error "shutil.Error", { disk with tree := tree.make some })
          else
            match register setup faults places made { disk with tree := tree.make made } with
            | (.ok (), disk) => (.ok ⟨places.listed, skillName⟩, disk)
            | (.error e, disk) => reraise e (removeTree faults .removeTemp places.temp disk)

/-! ### Where a registration stops -/

/-- The places a registration stops at, with what was made by then. -/
inductive Stop where
  | unavailable
  | copying (made : List (Location × PackageEntry))
  /-- the copy is beside its destination -/
  | copied (places : Places) (made : List (Location × PackageEntry))
  /-- the package is at its destination -/
  | moved (places : Places) (made : List (Location × PackageEntry))
  /-- and `workspace.toml` has its new text -/
  | replaced (places : Places) (made : List (Location × PackageEntry)) (updated : String)
  | reloading (places : Places) (made : List (Location × PackageEntry)) (updated : String)
  | returned (places : Places) (updated : String)

/-- The first operation that raises once the package is copied, or the return. -/
def registerStop (places : Places) (made : List (Location × PackageEntry)) (disk : Disk) : Stop :=
  if faults.raises .loadPackage ∨ faults.raises .readConfig then .copied places made
  else
    match addSkillPathToWorkspaceToml setup.loads (readText disk.config) places.listed with
    | .error _ => .copied places made
    | .ok updated =>
        if faults.raises .writeConfig ∨ faults.raises .movePackage ∨
            ¬CanMove disk.tree made places.temp places.destination then
          .copied places made
        else if faults.raises .loadConfig ∨ faults.raises .moveConfig then .moved places made
        else if faults.raises .importRuntime then .replaced places made updated
        else if faults.raises .reload then .reloading places made updated
        else .returned places updated

/-- The first operation that raises, or the return. -/
def stop (draft : Draft) (skillName hex : String) (disk : Disk) : Stop :=
  if faults.raises .makeRoot ∨ blocked disk.tree (location setup.approvedRoot).inits then
    .unavailable
  else
    let tree := makeRoot setup disk.tree
    match places? setup skillName hex with
    | .error _ => .unavailable
    | .ok places =>
        let made := creations tree places.way places.temp draft
        if tree places.destination ≠ none then .unavailable
        else if CopyFails faults tree places then
          .copying (made.filter fun item => tree item.1 = none ∧ faults.made item.1)
        else registerStop setup faults places made { disk with tree := tree.make made }

/-- The package is taken away again, and all that was made for it. -/
def TakenAway (places : Places) (made : List (Location × PackageEntry)) : Prop :=
  faults.raises .unlinkConfig = false ∧ faults.raises .removeDestination = false ∧
    ∀ item ∈ made, Below (location setup.approvedRoot) item.1 →
      places.destination <+: item.1 ∨ places.temp <+: item.1

/-- What has to be so where a registration stops: nothing that was made is left among the
approved packages, the text of `workspace.toml` is as before, and what is returned is
listed. -/
def Clean (disk : Disk) : Stop → Prop
  | .unavailable => True
  | .copying made => ∀ item ∈ made, ¬Below (location setup.approvedRoot) item.1
  | .copied places made =>
      (∀ item ∈ made, Below (location setup.approvedRoot) item.1 → places.temp <+: item.1) ∧
        (faults.raises .removeTemp → ¬Below (location setup.approvedRoot) places.temp)
  | .moved places made => TakenAway setup faults places made
  | .replaced places made updated => TakenAway setup faults places made ∧ updated = disk.config
  | .reloading places made updated =>
      TakenAway setup faults places made ∧
        if faults.raises .writeRollback ∨ faults.raises .moveRollback then updated = disk.config
        else readText disk.config = disk.config
  | .returned places updated => Listed setup.loads updated places.listed

/-- A package is at a place, entry by entry. -/
def InstalledAt (tree : FileTree (List NameChar) PackageEntry) (destination : Location)
    (draft : Draft) : Prop :=
  tree destination = some .directory ∧ ∀ entry ∈ draft.entries,
    tree (destination ++ entry.1.map (·.chars)) = some entry.2

/-- A registration that raises leaves `workspace.toml` and the approved packages as they
were; one that returns has installed the package and listed it. -/
def AllOrNothingOutcome (draft : Draft) (skillName hex : String) (disk : Disk) :
    Except String RegistrationResult × Disk → Prop
  | (.error _, after) =>
      after.config = disk.config ∧
        FileTree.SameBelow (location setup.approvedRoot) after.tree disk.tree
  | (.ok result, after) =>
      Listed setup.loads after.config result.packagePath ∧
        ∃ p, places? setup skillName hex = .ok p ∧ InstalledAt after.tree p.destination draft

/-- **All or nothing.** -/
def AllOrNothing (draft : Draft) (skillName hex : String) (disk : Disk) : Prop :=
  AllOrNothingOutcome setup draft skillName hex disk
    (promoteAndRegister setup faults draft skillName hex disk)

/-- What the handlers leave of a copy. -/
def dropTemp (places : Places) (tree : FileTree (List NameChar) PackageEntry) :
    FileTree (List NameChar) PackageEntry :=
  if faults.raises .removeTemp then tree.removePart places.temp faults.kept
  else tree.removeAll [places.temp]

/-- What the inner handler leaves of a package at its destination. -/
def dropDestination (places : Places) (tree : FileTree (List NameChar) PackageEntry) :
    FileTree (List NameChar) PackageEntry :=
  if faults.raises .unlinkConfig then tree
  else if faults.raises .removeDestination then tree.removePart places.destination faults.kept
  else tree.removeAll [places.destination]

end

section

variable {setup : AuthoringSetup} {faults : Faults}

/-- How `register` ends at a stop. -/
inductive Ends (faults : Faults) (places : Places) (made : List (Location × PackageEntry))
    (disk : Disk) : Stop → Except String Unit × Disk → Prop where
  | copied (error : String) : Ends faults places made disk (.copied places made) (.error error, disk)
  | moved (error : String) (can : CanMove disk.tree made places.temp places.destination) :
      Ends faults places made disk (.moved places made)
        (.error error, ⟨dropDestination faults places
          (disk.tree.move places.temp places.destination), disk.config⟩)
  | replaced (error updated : String)
      (can : CanMove disk.tree made places.temp places.destination) :
      Ends faults places made disk (.replaced places made updated)
        (.error error, ⟨dropDestination faults places
          (disk.tree.move places.temp places.destination), updated⟩)
  | reloading (error updated : String)
      (can : CanMove disk.tree made places.temp places.destination) :
      Ends faults places made disk (.reloading places made updated)
        (.error error, ⟨dropDestination faults places
          (disk.tree.move places.temp places.destination),
          if faults.raises .writeRollback ∨ faults.raises .moveRollback then updated
          else readText disk.config⟩)
  | returned (updated : String) (can : CanMove disk.tree made places.temp places.destination) :
      Ends faults places made disk (.returned places updated)
        (.ok (), ⟨disk.tree.move places.temp places.destination, updated⟩)

theorem removeTree_snd (op : PromoteOp) (dir : Location) (disk : Disk) :
    (removeTree faults op dir disk).2 = ⟨if faults.raises op then
      disk.tree.removePart dir faults.kept else disk.tree.removeAll [dir], disk.config⟩ := by
  unfold removeTree
  split <;> rfl

theorem reraise_eq {α : Type} (error : String) (result : Except String Unit × Disk) :
    ∃ e, (reraise error result : Except String α × Disk) = (.error e, result.2) := by
  obtain ⟨outcome, disk⟩ := result
  cases outcome with
  | error e => exact ⟨e, rfl⟩
  | ok done => exact ⟨error, rfl⟩

/-- The inner handler, after the package was moved. -/
theorem undo_moved (faults : Faults) (error : String) (places : Places) (disk : Disk) :
    ∃ e, reraise error (undoInstall faults places true disk) =
      ((.error e, ⟨dropDestination faults places disk.tree, disk.config⟩) :
        Except String Unit × Disk) := by
  have dropped : (undoInstall faults places true disk).2 =
      ⟨dropDestination faults places disk.tree, disk.config⟩ := by
    unfold undoInstall dropDestination
    split
    · rfl
    · rw [if_pos rfl, removeTree_snd]
  obtain ⟨e, h⟩ := reraise_eq error (undoInstall faults places true disk)
  exact ⟨e, by rw [h, dropped]⟩

/-- The inner handler, before. -/
theorem undo_not_moved (faults : Faults) (error : String) (places : Places) (disk : Disk) :
    ∃ e, reraise error (undoInstall faults places false disk) =
      ((.error e, disk) : Except String Unit × Disk) := by
  have kept : (undoInstall faults places false disk).2 = disk := by
    unfold undoInstall
    split <;> rfl
  obtain ⟨e, h⟩ := reraise_eq error (undoInstall faults places false disk)
  exact ⟨e, by rw [h, kept]⟩

/-- How the reload ends. -/
theorem reload_ends (places : Places) (made : List (Location × PackageEntry)) (disk : Disk)
    (updated : String) (can : CanMove disk.tree made places.temp places.destination) :
    Ends faults places made disk
      (if faults.raises .importRuntime then .replaced places made updated
        else if faults.raises .reload then .reloading places made updated
        else .returned places updated)
      (handleInstall faults places (reloadWorkspaceOrRollback faults (readText disk.config)
        ⟨disk.tree.move places.temp places.destination, updated⟩, true)) := by
  unfold reloadWorkspaceOrRollback
  by_cases imports : faults.raises .importRuntime = true
  · rw [if_pos imports, if_pos imports]
    obtain ⟨e, h⟩ := undo_moved faults "ImportError" places
      ⟨disk.tree.move places.temp places.destination, updated⟩
    dsimp only [handleInstall]
    rw [h]
    exact .replaced _ _ can
  rw [if_neg imports, if_neg imports]
  by_cases reloads : faults.raises .reload = true
  · rw [if_pos reloads, if_pos reloads]
    by_cases back : faults.raises .writeRollback = true ∨ faults.raises .moveRollback = true
    · rw [if_pos back]
      obtain ⟨e, h⟩ := undo_moved faults "OSError" places
        ⟨disk.tree.move places.temp places.destination, updated⟩
      dsimp only [handleInstall]
      rw [h]
      have ends := @Ends.reloading faults _ _ _ e updated can
      rwa [if_pos back] at ends
    · rw [if_neg back]
      obtain ⟨e, h⟩ := undo_moved faults
        "Workspace reload failed; configuration was rolled back" places
        ⟨disk.tree.move places.temp places.destination, readText disk.config⟩
      dsimp only [handleInstall]
      rw [h]
      have ends := @Ends.reloading faults _ _ _ e updated can
      rwa [if_neg back] at ends
  · rw [if_neg reloads, if_neg reloads]
    exact .returned _ can

/-- The outcome of the inner `try` and its handler. -/
theorem register_ends (setup : AuthoringSetup) (faults : Faults) (places : Places)
    (made : List (Location × PackageEntry)) (disk : Disk) :
    Ends faults places made disk (registerStop setup faults places made disk)
      (register setup faults places made disk) := by
  unfold registerStop register
  by_cases load : faults.raises .loadPackage = true
  · rw [if_pos (.inl load), if_pos load]
    exact .copied _
  by_cases read : faults.raises .readConfig = true
  · rw [if_pos (.inr read), if_neg load, if_pos read]
    exact .copied _
  rw [if_neg (by simp [load, read]), if_neg load, if_neg read]
  cases addSkillPathToWorkspaceToml setup.loads (readText disk.config) places.listed with
  | error e => exact .copied _
  | ok updated =>
      dsimp only
      by_cases write : faults.raises .writeConfig = true
      · rw [if_pos (.inl write), if_pos write]
        exact .copied _
      rw [if_neg write]
      unfold install
      by_cases stays : faults.raises .movePackage = true ∨
          ¬CanMove disk.tree made places.temp places.destination
      · rw [if_pos (.inr stays), if_pos stays]
        obtain ⟨e, h⟩ := undo_not_moved faults "OSError" places disk
        dsimp only [handleInstall]
        rw [h]
        exact .copied _
      have can : CanMove disk.tree made places.temp places.destination := by
        by_contra no
        exact stays (.inr no)
      rw [if_neg (by simp [write, stays]), if_neg stays]
      dsimp only
      by_cases loads : faults.raises .loadConfig = true
      · rw [if_pos (.inl loads), if_pos loads]
        obtain ⟨e, h⟩ := undo_moved faults "WorkspaceLoadError" places
          { disk with tree := disk.tree.move places.temp places.destination }
        dsimp only [handleInstall]
        rw [h]
        exact .moved _ can
      by_cases replace : faults.raises .moveConfig = true
      · rw [if_pos (.inr replace), if_neg loads, if_pos replace]
        obtain ⟨e, h⟩ := undo_moved faults "OSError" places
          { disk with tree := disk.tree.move places.temp places.destination }
        dsimp only [handleInstall]
        rw [h]
        exact .moved _ can
      rw [if_neg (by simp [loads, replace]), if_neg loads, if_neg replace]
      exact reload_ends places made disk updated can

/-! ### What is left -/

theorem mem_missing {tree : FileTree (List NameChar) PackageEntry} {way : List Location}
    {item : Location × PackageEntry} :
    item ∈ missing tree way ↔ item.1 ∈ way ∧ tree item.1 = none ∧ item.2 = .directory := by
  obtain ⟨dir, entry⟩ := item
  simp only [missing, List.mem_map, List.mem_filter, decide_eq_true_eq, Prod.mk.injEq]
  constructor
  · rintro ⟨_, ⟨onWay, absent⟩, rfl, rfl⟩
    exact ⟨onWay, absent, rfl⟩
  · rintro ⟨onWay, absent, rfl⟩
    exact ⟨dir, ⟨onWay, absent⟩, rfl, rfl⟩

/-- What is missing is made. -/
theorem make_missing_ne_none {tree : FileTree (List NameChar) PackageEntry} {way : List Location}
    {dir : Location} (onWay : dir ∈ way) : tree.make (missing tree way) dir ≠ none := by
  by_cases absent : tree dir = none
  · exact FileTree.make_ne_none (mem_missing.mpr ⟨onWay, absent, rfl⟩ : (dir, _) ∈ _)
  · rw [FileTree.make_of_absent]
    · exact absent
    · rintro item mem rfl
      exact absent (mem_missing.mp mem).2.1

theorem makeRoot_root (tree : FileTree (List NameChar) PackageEntry) :
    makeRoot setup tree (location setup.approvedRoot) ≠ none :=
  make_missing_ne_none ((List.mem_inits _ _).mpr List.prefix_rfl)

/-- The root and what it is in are not below it. -/
theorem sameBelow_makeRoot (setup : AuthoringSetup) (tree : FileTree (List NameChar) PackageEntry) :
    FileTree.SameBelow (location setup.approvedRoot) (makeRoot setup tree) tree := by
  rintro path ⟨below, ne⟩
  refine FileTree.make_of_absent ?_
  rintro item mem rfl
  have above : item.1 <+: location setup.approvedRoot := (List.mem_inits _ _).mp (mem_missing.mp mem).1
  exact ne (above.eq_of_length_le below.length_le)

theorem closed_makeRoot {tree : FileTree (List NameChar) PackageEntry} (closed : FileTree.Closed tree) :
    FileTree.Closed (makeRoot setup tree) := by
  intro path name absent
  have before : tree path = none := by
    by_contra present
    rw [makeRoot, FileTree.make_of_absent] at absent
    · exact present absent
    · rintro item mem rfl
      exact present (mem_missing.mp mem).2.1
  rw [makeRoot, FileTree.make_of_absent]
  · exact closed path name before
  · rintro item mem same
    have above : path ++ [name] <+: location setup.approvedRoot :=
      same ▸ (List.mem_inits _ _).mp (mem_missing.mp mem).1
    refine make_missing_ne_none ?_ absent
    exact (List.mem_inits _ _).mpr ((List.prefix_append path [name]).trans above)

variable {tree : FileTree (List NameChar) PackageEntry} {places : Places} {draft : Draft}

/-- All that is made is made where nothing was. -/
theorem creations_fresh (closed : FileTree.Closed tree) (absent : tree places.temp = none) :
    ∀ item ∈ creations tree places.way places.temp draft, tree item.1 = none := by
  intro item mem
  rcases List.mem_append.mp mem with mem | mem
  · refine closed.none_below absent ?_
    rcases List.mem_cons.mp mem with rfl | mem
    · exact List.prefix_rfl
    · obtain ⟨entry, -, rfl⟩ := List.mem_map.mp mem
      exact List.prefix_append ..
  · exact (mem_missing.mp mem).2.1

theorem make_creations_temp :
    tree.make (creations tree places.way places.temp draft) places.temp = some .directory := by
  simp [FileTree.make, creations]

theorem places_destination {skillName hex : String} (h : places? setup skillName hex = .ok places) :
    location setup.approvedRoot <+: places.destination := by
  unfold places? at h
  dsimp only at h
  split at h
  · cases h
  · split at h
    · rename_i inside
      cases h
      exact (List.isPrefixOf_iff_prefix.mp inside).map _
    · cases h

/-- The tree a copy is made in: the root is there, and the package is not. -/
structure Ready (setup : AuthoringSetup) (places : Places)
    (tree : FileTree (List NameChar) PackageEntry) : Prop where
  closed : FileTree.Closed tree
  root : tree (location setup.approvedRoot) ≠ none
  inside : location setup.approvedRoot <+: places.destination
  temp : tree places.temp = none
  destination : tree places.destination = none

variable {made : List (Location × PackageEntry)}

/-- A copy that is not moved is left where it is not removed, and the way to it is. -/
theorem sameBelow_copied_iff (ready : Ready setup places tree)
    (creation : made = creations tree places.way places.temp draft) :
    FileTree.SameBelow (location setup.approvedRoot) (dropTemp faults places (tree.make made)) tree ↔
      (∀ item ∈ made, Below (location setup.approvedRoot) item.1 → places.temp <+: item.1) ∧
        (faults.raises .removeTemp → ¬Below (location setup.approvedRoot) places.temp) := by
  have fresh : ∀ item ∈ made, tree item.1 = none :=
    creation ▸ creations_fresh ready.closed ready.temp
  have empty : ∀ path, places.temp <+: path → tree path = none := fun path under =>
    ready.closed.none_below ready.temp under
  unfold dropTemp
  by_cases raises : faults.raises .removeTemp = true
  · rw [if_pos raises]
    constructor
    · intro same
      refine ⟨fun item mem below => ?_, fun _ below => ?_⟩
      · by_contra outside
        have stays : FileTree.removePart places.temp faults.kept (tree.make made) item.1 =
            tree.make made item.1 := FileTree.removePart_of_outside _ outside
        have there : tree.make made item.1 ≠ none := FileTree.make_ne_none mem
        exact there (by rw [← stays, same _ below, fresh item mem])
      · have stays := same _ below
        rw [FileTree.removePart_self, creation, make_creations_temp, ready.temp] at stays
        cases stays
    · rintro ⟨covered, outside⟩ path below
      -- the copy and the root are in different places, so nothing of the copy is below the root
      have apart : ¬places.temp <+: path := by
        intro under
        rcases List.prefix_or_prefix_of_prefix below.1 under with inside | above
        · refine outside raises ⟨inside, fun same => ready.root ?_⟩
          rw [← same]
          exact ready.temp
        · exact ready.root (empty _ above)
      have stays : FileTree.removePart places.temp faults.kept (tree.make made) path =
          tree.make made path := FileTree.removePart_of_outside _ apart
      rw [stays]
      refine FileTree.make_of_absent ?_
      rintro item mem rfl
      exact apart (covered item mem below)
  · rw [if_neg raises, FileTree.sameBelow_removeAll_iff fresh (by simpa using empty)]
    simp [raises]

/-- A package that is moved is left where it is not removed, and the way to it is. -/
theorem sameBelow_moved_iff (ready : Ready setup places tree)
    (creation : made = creations tree places.way places.temp draft)
    (can : CanMove (tree.make made) made places.temp places.destination) :
    FileTree.SameBelow (location setup.approvedRoot) (dropTemp faults places
        (dropDestination faults places
          ((tree.make made).move places.temp places.destination))) tree ↔
      TakenAway setup faults places made := by
  have fresh : ∀ item ∈ made, tree item.1 = none :=
    creation ▸ creations_fresh ready.closed ready.temp
  have gone : dropTemp faults places (dropDestination faults places
      ((tree.make made).move places.temp places.destination)) =
      dropDestination faults places ((tree.make made).move places.temp places.destination) := by
    have empty : ∀ path, places.temp <+: path → dropDestination faults places
        ((tree.make made).move places.temp places.destination) path = none := by
      intro path under
      have left : (tree.make made).move places.temp places.destination path = none :=
        FileTree.move_source can.2.1 can.2.2.1 under
      unfold dropDestination
      split
      · exact left
      · split
        · unfold FileTree.removePart
          split
          · rfl
          · exact left
        · unfold FileTree.removeAll
          split
          · rfl
          · exact left
    unfold dropTemp
    split
    · exact FileTree.removePart_of_empty _ empty
    · exact FileTree.removeAll_of_empty empty
  have below : Below (location setup.approvedRoot) places.destination := by
    refine ⟨ready.inside, fun same => ready.root ?_⟩
    rw [← same]
    exact ready.destination
  have stays : (tree.make made).move places.temp places.destination places.destination =
      some .directory := by
    have target := FileTree.move_target (t := tree.make made) places.temp places.destination []
    rw [List.append_nil, List.append_nil] at target
    rw [target, creation, make_creations_temp]
  rw [gone]
  unfold dropDestination TakenAway
  by_cases unlink : faults.raises .unlinkConfig = true
  · rw [if_pos unlink]
    constructor
    · intro same
      have left := same _ below
      rw [stays, ready.destination] at left
      cases left
    · rintro ⟨fine, -⟩
      rw [unlink] at fine
      cases fine
  rw [if_neg unlink]
  by_cases remove : faults.raises .removeDestination = true
  · rw [if_pos remove]
    constructor
    · intro same
      have left := same _ below
      rw [FileTree.removePart_self, stays, ready.destination] at left
      cases left
    · rintro ⟨-, fine, -⟩
      rw [remove] at fine
      cases fine
  · rw [if_neg remove, FileTree.removeAll_move, FileTree.sameBelow_removeAll_iff fresh]
    · simp [unlink, remove]
    · intro dir mem path under
      simp only [List.mem_cons, List.not_mem_nil, or_false] at mem
      rcases mem with rfl | rfl
      · exact ready.closed.none_below ready.destination under
      · exact ready.closed.none_below ready.temp under

/-- Each entry is copied. -/
theorem make_creations_entry {entry : RelPath × PackageEntry} (mem : entry ∈ draft.entries) :
    tree.make (creations tree places.way places.temp draft)
      (places.temp ++ entry.1.map (·.chars)) = some entry.2 := by
  have once : (((places.temp, PackageEntry.directory) :: draft.entries.map fun entry =>
      (places.temp ++ entry.1.map (·.chars), entry.2)).map Prod.fst).Nodup := by
    rw [List.map_cons, List.map_map, List.nodup_cons]
    constructor
    · intro there
      obtain ⟨entry, mem, same⟩ := List.mem_map.mp there
      exact draft.named entry mem (by simpa using same)
    · have names : Function.Injective fun path : RelPath =>
          places.temp ++ path.map (·.chars) := fun a b same =>
        List.map_injective_iff.mpr (fun _ _ => FileName.ext) (List.append_cancel_left same)
      have paths := draft.nodup.map names
      rwa [List.map_map] at paths
  exact FileTree.make_append_of_mem once
    (List.mem_cons_of_mem _ (List.mem_map.mpr ⟨entry, mem, rfl⟩))

/-- A package that is moved is installed. -/
theorem installedAt_move (creation : made = creations tree places.way places.temp draft) :
    InstalledAt ((tree.make made).move places.temp places.destination) places.destination draft := by
  have placed : ∀ rest : Location, (tree.make made).move places.temp places.destination
      (places.destination ++ rest) = tree.make made (places.temp ++ rest) :=
    FileTree.move_target _ _
  constructor
  · have target := placed []
    rw [List.append_nil, List.append_nil] at target
    rw [target, creation, make_creations_temp]
  · intro entry mem
    rw [placed, creation]
    exact make_creations_entry mem

/-- A registration that raises has removed its copy. -/
theorem outcome_dropTemp (error skillName hex : String) (disk after : Disk) :
    AllOrNothingOutcome setup draft skillName hex disk
        (reraise error (removeTree faults .removeTemp places.temp after)) ↔
      after.config = disk.config ∧ FileTree.SameBelow (location setup.approvedRoot)
        (dropTemp faults places after.tree) disk.tree := by
  obtain ⟨e, h⟩ := reraise_eq (α := RegistrationResult) error
    (removeTree faults .removeTemp places.temp after)
  rw [h, removeTree_snd]
  rfl

end

/-! ### A copy that stops -/

section PartialCopy

/-- `/agents/skill-packages`, and a reader that finds no skills. -/
def agentsSetup : AuthoringSetup where
  workspaceId := "/agents"
  approvedRoot := ["agents", "skill-packages"]
  loads _ := some (some [])

/-- `/agents`, without packages. -/
def agentsDisk : ClosedDisk where
  tree path := if path = [] ∨ path = location ["agents"] then some .directory else none
  config := "skills = []\n"
  closed := by
    intro path name absent
    have short : ¬(path = [] ∨ path = location ["agents"]) := fun h => by simp [h] at absent
    refine if_neg ?_
    rintro (same | same)
    · simp at same
    · have first : path = [] := by
        have length := congrArg List.length same
        simp [location] at length
        exact length
      exact short (.inl first)

def handlerOnly : Draft where
  entries := [([handlerName], .file (utf8 "run()".toList))]
  nodup := by simp
  named := by simp
  rooted := by simp
  linkless := by simp

/-- The copy raises when it has made its directory. -/
def stoppedCopy : Faults where
  raises op := op = .copy
  made path := path.length = 3

end PartialCopy

end AgentOs
