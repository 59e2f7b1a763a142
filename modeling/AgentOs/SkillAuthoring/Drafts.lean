import AgentOs.Lib.Bytes
import AgentOs.Lib.Framing
import AgentOs.Lib.Transaction
import Mathlib.Data.List.Lex
import Mathlib.Data.List.Sort

/-!
Draft packages and their digest (`skill_authoring.py`).

A package is a directory: its entries by their relative paths. `package_digest` hashes
a stream of the names and contents of its files in order, each followed by a NUL, and
leaves out what an import may have written; promotion copies every file.

A content may contain a NUL and a file may be left out, so the digest binds less than
what is installed: `digestBinds_iff` names the two ways in which packages with one
digest can differ.
-/

namespace AgentOs

open AgentOs.Lib

/-! ### Names -/

/-- A character of a name as it is read from the file system: the bytes from 0x80 on
that are part of no character are escaped one by one (`surrogateescape`). -/
inductive NameChar where
  | char (c : Char)
  | escaped (byte : Fin 128)
deriving DecidableEq, Repr

namespace NameChar

def codePoint : NameChar → ℕ
  | char c => c.toNat
  | escaped byte => 0xdc80 + byte

/-- The character, where it can be encoded again. -/
def char? : NameChar → Option Char
  | char c => some c
  | escaped _ => none

/-- No character is a surrogate. -/
theorem codePoint_injective : Function.Injective codePoint := by
  have apart : ∀ (c : Char) (byte : Fin 128), c.toNat ≠ 0xdc80 + byte := by
    intro c byte same
    have valid : c.toNat < 0xd800 ∨ 0xdfff < c.toNat ∧ c.toNat < 0x110000 := c.valid
    omega
  intro a b same
  cases a with
  | char c =>
      cases b with
      | char d => exact congrArg char (Char.toNat_inj.mp same)
      | escaped byte => exact absurd same (apart c byte)
  | escaped byte =>
      cases b with
      | char d => exact absurd same.symm (apart d byte)
      | escaped byte' =>
          have equal : (byte : ℕ) = byte' := Nat.add_left_cancel same
          exact congrArg escaped (Fin.ext equal)

end NameChar

/-- `text.encode("utf-8")`. -/
def encodeUtf8 (text : List NameChar) : Except String (List UInt8) :=
  match text.mapM NameChar.char? with
  | some cs => .ok (utf8 cs)
  | none => .error "'utf-8' codec can't encode characters: surrogates not allowed"

theorem mapM_char?_eq_some {text : List NameChar} {cs : List Char} :
    text.mapM NameChar.char? = some cs ↔ text = cs.map .char := by
  induction text generalizing cs with
  | nil => cases cs <;> simp
  | cons a text ih =>
      cases a with
      | char c => cases cs <;> simp [NameChar.char?, Option.bind_eq_some_iff, ih, and_comm]
      | escaped byte => cases cs <;> simp [NameChar.char?]

theorem encodeUtf8_eq_ok {text : List NameChar} {bytes : List UInt8} :
    encodeUtf8 text = .ok bytes ↔ ∃ cs : List Char, text = cs.map .char ∧ bytes = utf8 cs := by
  unfold encodeUtf8
  constructor
  · intro h
    split at h
    · rename_i cs encodable
      cases h
      exact ⟨cs, mapM_char?_eq_some.mp encodable, rfl⟩
    · cases h
  · rintro ⟨cs, rfl, rfl⟩
    rw [mapM_char?_eq_some.mpr rfl]

/-- What a directory calls one of its entries. -/
structure FileName where
  chars : List NameChar
  plain : chars ≠ [] ∧ chars ≠ ".".toList.map .char ∧ chars ≠ "..".toList.map .char
  unbroken : .char '/' ∉ chars ∧ .char '\x00' ∉ chars
deriving DecidableEq

@[ext] theorem FileName.ext {a b : FileName} (h : a.chars = b.chars) : a = b := by
  cases a
  cases b
  cases h
  rfl

/-- A path below a directory, name by name. -/
abbrev RelPath := List FileName

namespace RelPath

variable (path : RelPath)

/-- `path.as_posix()`. -/
def asPosix : List NameChar := [NameChar.char '/'].intercalate (path.map (·.chars))

/-- What paths are compared by: their names in turn, each by its code points. -/
def sortKey : List (List ℕ) := path.map fun name => name.chars.map NameChar.codePoint

theorem sortKey_injective : Function.Injective sortKey := by
  refine List.map_injective_iff.mpr ?_
  intro a b same
  exact FileName.ext (List.map_injective_iff.mpr NameChar.codePoint_injective same)

variable {path}

theorem asPosix_inj {path' : RelPath} (named : path ≠ []) (named' : path' ≠ [])
    (h : path.asPosix = path'.asPosix) : path = path' := by
  have cut : ∀ {p : RelPath}, p ≠ [] → p.asPosix.splitOn (.char '/') = p.map (·.chars) := by
    intro p hp
    refine List.splitOn_intercalate _ ?_ (by simpa using hp)
    intro chars mem
    obtain ⟨name, _, rfl⟩ := List.mem_map.mp mem
    exact name.unbroken.1
  have names : path.map (·.chars) = path'.map (·.chars) := by rw [← cut named, h, cut named']
  exact List.map_injective_iff.mpr (fun _ _ => FileName.ext) names

theorem char_zero_notMem_asPosix : NameChar.char '\x00' ∉ path.asPosix := by
  induction path with
  | nil => simp [asPosix]
  | cons name path ih =>
      cases path with
      | nil => simpa [asPosix] using name.unbroken.2
      | cons next path =>
          have rest : NameChar.char '\x00' ∉ asPosix (next :: path) := ih
          simp only [asPosix, List.map_cons, List.intercalate_cons_cons] at rest ⊢
          simpa [name.unbroken.2] using rest

end RelPath

/-- `relative.as_posix().encode("utf-8")`. -/
def encodePath (path : RelPath) : Except String (List UInt8) := encodeUtf8 path.asPosix

theorem encodePath_inj {path path' : RelPath} {bytes : List UInt8} (named : path ≠ [])
    (named' : path' ≠ []) (h : encodePath path = .ok bytes) (h' : encodePath path' = .ok bytes) :
    path = path' := by
  obtain ⟨cs, text, rfl⟩ := encodeUtf8_eq_ok.mp h
  obtain ⟨ds, text', same⟩ := encodeUtf8_eq_ok.mp h'
  refine RelPath.asPosix_inj named named' ?_
  rw [text, text', utf8_inj same]

/-- No name contains a NUL. -/
theorem zero_notMem_encodePath {path : RelPath} {bytes : List UInt8}
    (h : encodePath path = .ok bytes) : 0 ∉ bytes := by
  obtain ⟨cs, text, rfl⟩ := encodeUtf8_eq_ok.mp h
  intro zero
  refine absurd ?_ path.char_zero_notMem_asPosix
  rw [text]
  exact List.mem_map.mpr ⟨_, zero_mem_utf8 zero, rfl⟩

/-! ### Packages -/

/-- What a directory holds under a name. -/
inductive PackageEntry where
  | file (content : List UInt8)
  | directory
  | symlink
deriving DecidableEq, Repr

/-- Entries in the order of their paths. -/
def sortEntries (entries : List (RelPath × PackageEntry)) : List (RelPath × PackageEntry) :=
  entries.insertionSort fun a b => a.1.sortKey ≤ b.1.sortKey

theorem mem_sortEntries {entries : List (RelPath × PackageEntry)} {entry : RelPath × PackageEntry} :
    entry ∈ sortEntries entries ↔ entry ∈ entries := List.mem_insertionSort _

theorem pairwise_sortEntries (entries : List (RelPath × PackageEntry)) :
    (sortEntries entries).Pairwise fun a b => a.1.sortKey ≤ b.1.sortKey := by
  have total : ∀ a b : RelPath × PackageEntry,
      a.1.sortKey ≤ b.1.sortKey ∨ b.1.sortKey ≤ a.1.sortKey := fun a b => le_total _ _
  have trans : ∀ a b c : RelPath × PackageEntry, a.1.sortKey ≤ b.1.sortKey →
      b.1.sortKey ≤ c.1.sortKey → a.1.sortKey ≤ c.1.sortKey := fun a b c => le_trans
  have : Std.Total fun a b : RelPath × PackageEntry => a.1.sortKey ≤ b.1.sortKey := ⟨total⟩
  have : IsTrans (RelPath × PackageEntry) fun a b => a.1.sortKey ≤ b.1.sortKey := ⟨trans⟩
  exact List.pairwise_insertionSort _ _

/-- A package directory: its entries at every depth. -/
structure Package where
  entries : List (RelPath × PackageEntry)
  nodup : (entries.map Prod.fst).Nodup
  named : ∀ entry ∈ entries, entry.1 ≠ []
  /-- what an entry is in is a directory -/
  rooted : ∀ entry ∈ entries, entry.1.dropLast ≠ [] → (entry.1.dropLast, .directory) ∈ entries

namespace Package

variable (package : Package)

/-- `sorted(package_dir.rglob("*"))`. -/
def sortedEntries : List (RelPath × PackageEntry) := sortEntries package.entries

/-- The files that `copytree` makes of a package without links. -/
def installedFiles : List (RelPath × List UInt8) :=
  package.entries.filterMap fun entry =>
    match entry.2 with
    | .file content => some (entry.1, content)
    | _ => none

variable {package}

theorem mem_installedFiles {path : RelPath} {content : List UInt8} :
    (path, content) ∈ package.installedFiles ↔ (path, .file content) ∈ package.entries := by
  unfold installedFiles
  rw [List.mem_filterMap]
  constructor
  · rintro ⟨⟨path', entry⟩, mem, h⟩
    cases entry with
    | file content' =>
        cases h
        exact mem
    | directory => cases h
    | symlink => cases h
  · exact fun mem => ⟨_, mem, rfl⟩

theorem mem_sortedEntries {entry : RelPath × PackageEntry} :
    entry ∈ package.sortedEntries ↔ entry ∈ package.entries := mem_sortEntries

end Package

/-- `path.suffix == ".pyc"`, on the name of the path. -/
def isCompiled (name : FileName) : Bool :=
  (".pyc".toList.map NameChar.char).isSuffixOf name.chars && 4 < name.chars.length

/-- `"__pycache__" in path.parts`. -/
def inCache (path : List FileName) : Bool :=
  path.any (·.chars = "__pycache__".toList.map .char)

/-- What an import may have written. -/
def isArtifact (packageDir : List FileName) (path : RelPath) : Bool :=
  inCache (packageDir ++ path) || path.getLast?.any isCompiled

/-- What one entry adds to the digest. -/
def hashEntry (packageDir : List FileName) (path : RelPath) : PackageEntry → Except String (List UInt8)
  | .symlink => .error "Draft packages cannot contain symbolic links"
  | .directory => .ok []
  | .file content =>
      if isArtifact packageDir path then .ok []
      else do
        let relative ← encodePath path
        .ok (relative ++ [0] ++ content ++ [0])

/-- The bytes that `package_digest` hashes. -/
def hashEntries (packageDir : List FileName) : List (RelPath × PackageEntry) → Except String (List UInt8)
  | [] => .ok []
  | (path, entry) :: entries => do
      let bytes ← hashEntry packageDir path entry
      let rest ← hashEntries packageDir entries
      .ok (bytes ++ rest)

def packageStream (packageDir : List FileName) (package : Package) : Except String (List UInt8) :=
  hashEntries packageDir package.sortedEntries

/-- `package_digest`. -/
def packageDigest (sha256 : List UInt8 → String) (packageDir : List FileName)
    (package : Package) : Except String String :=
  (packageStream packageDir package).map sha256

/-! ### What the digest says -/

/-- The names and contents that entries say: no link is among them, and the names of
the hashed files can be encoded. -/
inductive Says (packageDir : List FileName) :
    List (RelPath × PackageEntry) → List (List UInt8 × List UInt8) → Prop where
  | nil : Says packageDir [] []
  | directory {path entries records} (rest : Says packageDir entries records) :
      Says packageDir ((path, .directory) :: entries) records
  | artifact {path content entries records} (left : isArtifact packageDir path = true)
      (rest : Says packageDir entries records) :
      Says packageDir ((path, .file content) :: entries) records
  | file {path content relative entries records} (hashed : isArtifact packageDir path = false)
      (name : encodePath path = .ok relative) (rest : Says packageDir entries records) :
      Says packageDir ((path, .file content) :: entries) ((relative, content) :: records)

section Digest

variable {packageDir : List FileName} {path : RelPath} {content : List UInt8}
  {entries : List (RelPath × PackageEntry)} {records : List (List UInt8 × List UInt8)}

theorem hashEntry_file_eq_ok (hashed : isArtifact packageDir path = false) {bytes : List UInt8} :
    hashEntry packageDir path (.file content) = .ok bytes ↔ ∃ relative,
      encodePath path = .ok relative ∧ relative ++ [0] ++ content ++ [0] = bytes := by
  simp only [hashEntry, hashed]
  rw [if_neg (by simp), bind_eq_ok_iff]
  simp only [Except.ok.injEq]

theorem hashEntries_cons_eq_ok {entry : PackageEntry} {bytes : List UInt8} :
    hashEntries packageDir ((path, entry) :: entries) = .ok bytes ↔ ∃ head rest,
      hashEntry packageDir path entry = .ok head ∧
        hashEntries packageDir entries = .ok rest ∧ head ++ rest = bytes := by
  rw [hashEntries, bind_eq_ok_iff]
  constructor
  · rintro ⟨head, first, h⟩
    obtain ⟨rest, tail, h⟩ := bind_eq_ok_iff.mp h
    exact ⟨head, rest, first, tail, Except.ok.inj h⟩
  · rintro ⟨head, rest, first, tail, rfl⟩
    exact ⟨head, first, bind_eq_ok_iff.mpr ⟨rest, tail, rfl⟩⟩

/-- **The stream of a list of entries** is the stream of what they say. -/
theorem hashEntries_eq_ok {bytes : List UInt8} :
    hashEntries packageDir entries = .ok bytes ↔
      ∃ records, Says packageDir entries records ∧ frameRecords 0 records = bytes := by
  constructor
  · intro h
    induction entries generalizing bytes with
    | nil =>
        cases h
        exact ⟨[], .nil, rfl⟩
    | cons entry entries ih =>
        obtain ⟨path, entry⟩ := entry
        obtain ⟨head, rest, first, tail, rfl⟩ := hashEntries_cons_eq_ok.mp h
        obtain ⟨records, said, rfl⟩ := ih tail
        cases entry with
        | symlink => cases first
        | directory =>
            cases first
            exact ⟨records, .directory said, rfl⟩
        | file content =>
            cases hashed : isArtifact packageDir path with
            | true =>
                simp only [hashEntry, hashed] at first
                cases first
                exact ⟨records, .artifact hashed said, rfl⟩
            | false =>
                obtain ⟨relative, name, rfl⟩ := (hashEntry_file_eq_ok hashed).mp first
                exact ⟨_, .file hashed name said, by simp [frameRecords]⟩
  · rintro ⟨records, said, rfl⟩
    induction said with
    | nil => rfl
    | directory rest ih => exact hashEntries_cons_eq_ok.mpr ⟨[], _, rfl, ih, rfl⟩
    | artifact left rest ih =>
        exact hashEntries_cons_eq_ok.mpr ⟨[], _, by simp [hashEntry, left], ih, rfl⟩
    | file hashed name rest ih =>
        exact hashEntries_cons_eq_ok.mpr
          ⟨_, _, (hashEntry_file_eq_ok hashed).mpr ⟨_, name, rfl⟩, ih, by simp [frameRecords]⟩

/-- No name contains a mark. -/
theorem Says.marked (said : Says packageDir entries records) : ∀ record ∈ records, 0 ∉ record.1 := by
  induction said with
  | nil => simp
  | directory rest ih => exact ih
  | artifact left rest ih => exact ih
  | file hashed name rest ih =>
      intro record mem
      rcases List.mem_cons.mp mem with rfl | mem
      · exact zero_notMem_encodePath name
      · exact ih record mem

/-- What is said is in the files. -/
theorem Says.record (said : Says packageDir entries records) {relative : List UInt8} :
    (relative, content) ∈ records ↔ ∃ path, (path, PackageEntry.file content) ∈ entries ∧
      isArtifact packageDir path = false ∧ encodePath path = .ok relative := by
  induction said with
  | nil => simp
  | directory rest ih => simp [ih]
  | @artifact path content' entries records left rest ih =>
      rw [ih]
      constructor
      · rintro ⟨path, mem, h⟩
        exact ⟨path, List.mem_cons_of_mem _ mem, h⟩
      · rintro ⟨path, mem, hashed, name⟩
        rcases List.mem_cons.mp mem with same | mem
        · cases same
          rw [left] at hashed
          cases hashed
        · exact ⟨path, mem, hashed, name⟩
  | @file path content' relative' entries records hashed name rest ih =>
      rw [List.mem_cons, ih]
      constructor
      · rintro (same | ⟨path, mem, h⟩)
        · cases same
          exact ⟨path, List.mem_cons_self .., hashed, name⟩
        · exact ⟨path, List.mem_cons_of_mem _ mem, h⟩
      · rintro ⟨path, mem, hashed', name'⟩
        rcases List.mem_cons.mp mem with same | mem
        · cases same
          rw [name] at name'
          cases name'
          exact .inl rfl
        · exact .inr ⟨path, mem, hashed', name'⟩

/-- A hashed file is said. -/
theorem Says.of_file (said : Says packageDir entries records)
    (mem : (path, PackageEntry.file content) ∈ entries) (hashed : isArtifact packageDir path = false) :
    ∃ relative, encodePath path = .ok relative ∧ (relative, content) ∈ records := by
  induction said with
  | nil => cases mem
  | directory rest ih => exact ih (by simpa using mem)
  | artifact left rest ih =>
      rcases List.mem_cons.mp mem with same | mem
      · cases same
        rw [left] at hashed
        cases hashed
      · exact ih mem
  | @file _ _ relative _ _ _ name rest ih =>
      rcases List.mem_cons.mp mem with same | mem
      · cases same
        exact ⟨relative, name, List.mem_cons_self ..⟩
      · obtain ⟨relative', name', mem⟩ := ih mem
        exact ⟨relative', name', List.mem_cons_of_mem _ mem⟩

/-- The hashed files among entries. -/
def hashedEntries (packageDir : List FileName) (entries : List (RelPath × PackageEntry)) :
    List (RelPath × PackageEntry) :=
  entries.filter fun entry => entry.2 ≠ .directory && !isArtifact packageDir entry.1

theorem Says.linkless (said : Says packageDir entries records) :
    ∀ entry ∈ entries, entry.2 ≠ .symlink := by
  induction said with
  | nil => simp
  | directory rest ih => simpa using ih
  | artifact left rest ih => simpa using ih
  | file hashed name rest ih => simpa using ih

/-- An entry under its encoded name. -/
def Encodes (entry : RelPath × PackageEntry) (record : List UInt8 × List UInt8) : Prop :=
  encodePath entry.1 = .ok record.1 ∧ entry.2 = .file record.2

theorem encodes_unique : Relator.RightUnique Encodes := by
  rintro entry ⟨name, content⟩ ⟨name', content'⟩ ⟨encoded, holds⟩ ⟨encoded', holds'⟩
  rw [encoded] at encoded'
  rw [holds] at holds'
  cases encoded'
  cases holds'
  rfl

theorem Says.encodes (said : Says packageDir entries records) :
    List.Forall₂ Encodes (hashedEntries packageDir entries) records := by
  induction said with
  | nil => exact .nil
  | directory rest ih => exact ih
  | artifact left rest ih => simpa [hashedEntries, left] using ih
  | file hashed name rest ih =>
      rw [hashedEntries, List.filter_cons_of_pos (by simp [hashed])]
      exact .cons ⟨name, rfl⟩ ih

theorem says_of_encodes (linkless : ∀ entry ∈ entries, entry.2 ≠ .symlink)
    (encodes : List.Forall₂ Encodes (hashedEntries packageDir entries) records) :
    Says packageDir entries records := by
  induction entries generalizing records with
  | nil =>
      cases encodes
      exact .nil
  | cons entry entries ih =>
      obtain ⟨path, entry⟩ := entry
      have below := fun e he => linkless e (List.mem_cons_of_mem _ he)
      cases entry with
      | symlink => exact absurd rfl (linkless _ (List.mem_cons_self ..))
      | directory => exact .directory (ih below encodes)
      | file content =>
          cases hashed : isArtifact packageDir path with
          | true =>
              rw [hashedEntries, List.filter_cons_of_neg (by simp [hashed])] at encodes
              exact .artifact hashed (ih below encodes)
          | false =>
              rw [hashedEntries, List.filter_cons_of_pos (by simp [hashed])] at encodes
              obtain ⟨⟨relative, content'⟩, rest, ⟨name, holds⟩, others, rfl⟩ :=
                List.forall₂_cons_left_iff.mp encodes
              cases holds
              exact .file hashed name (ih below others)

/-- **Hashed files alone decide the stream.** -/
theorem hashEntries_of_hashed {packageDir' : List FileName} {entries' : List (RelPath × PackageEntry)}
    {stream : List UInt8} (linkless' : ∀ entry ∈ entries', entry.2 ≠ .symlink)
    (same : hashedEntries packageDir entries = hashedEntries packageDir' entries')
    (h : hashEntries packageDir entries = .ok stream) :
    hashEntries packageDir' entries' = .ok stream := by
  obtain ⟨records, said, rfl⟩ := hashEntries_eq_ok.mp h
  have encodes := said.encodes
  rw [same] at encodes
  exact hashEntries_eq_ok.mpr ⟨records, says_of_encodes linkless' encodes, rfl⟩

variable {packageDir' : List FileName} {package package' : Package}
  {records' : List (List UInt8 × List UInt8)}

/-- Two packages hold the same files. -/
def SameFiles (package package' : Package) : Prop :=
  ∀ path content, (path, content) ∈ package.installedFiles ↔ (path, content) ∈ package'.installedFiles

/-- Hashed entries come in one order. -/
theorem hashedEntries_sort_unique {entries' : List (RelPath × PackageEntry)}
    (nodup : (entries.map Prod.fst).Nodup) (nodup' : (entries'.map Prod.fst).Nodup)
    (members : ∀ entry, entry ∈ hashedEntries packageDir entries ↔
      entry ∈ hashedEntries packageDir' entries') :
    hashedEntries packageDir (sortEntries entries) =
      hashedEntries packageDir' (sortEntries entries') := by
  have inside : ∀ {dir : List FileName} {es : List (RelPath × PackageEntry)}
      {entry : RelPath × PackageEntry},
      entry ∈ hashedEntries dir (sortEntries es) ↔ entry ∈ hashedEntries dir es := by
    intro dir es entry
    simp only [hashedEntries, List.mem_filter, mem_sortEntries]
  have distinct : ∀ {dir : List FileName} {es : List (RelPath × PackageEntry)},
      (es.map Prod.fst).Nodup → (hashedEntries dir (sortEntries es)).Nodup :=
    fun once => ((List.perm_insertionSort _ _).nodup_iff.mpr once.of_map).filter _
  refine List.Perm.eq_of_pairwise ?_ ((pairwise_sortEntries _).filter _)
    ((pairwise_sortEntries _).filter _)
    ((List.perm_ext_iff_of_nodup (distinct nodup) (distinct nodup')).mpr fun entry => by
      rw [inside, inside, members])
  intro a b ha hb le ge
  have path : a.1 = b.1 := RelPath.sortKey_injective (le_antisymm le ge)
  have there := (List.mem_filter.mp ((members a).mp (inside.mp ha))).1
  have here := (List.mem_filter.mp (inside.mp hb)).1
  exact List.inj_on_of_nodup_map nodup' there here path

theorem mem_hashedEntries (linkless : ∀ entry ∈ entries, entry.2 ≠ .symlink)
    {entry : RelPath × PackageEntry} : entry ∈ hashedEntries packageDir entries ↔
      isArtifact packageDir entry.1 = false ∧
        ∃ content, entry.2 = .file content ∧ (entry.1, .file content) ∈ entries := by
  obtain ⟨path, entry⟩ := entry
  simp only [hashedEntries, List.mem_filter]
  constructor
  · rintro ⟨mem, hashed⟩
    cases entry with
    | file content => exact ⟨by simpa using hashed, content, rfl, mem⟩
    | directory => simp at hashed
    | symlink => exact absurd rfl (linkless _ mem)
  · rintro ⟨hashed, content, rfl, mem⟩
    exact ⟨mem, by simp [hashed]⟩

/-- The hashed files of a package come in one order. -/
theorem hashedEntries_unique (same : SameFiles package package')
    (linkless : ∀ entry ∈ package.entries, entry.2 ≠ .symlink)
    (linkless' : ∀ entry ∈ package'.entries, entry.2 ≠ .symlink)
    (alike : ∀ path, isArtifact packageDir path = isArtifact packageDir' path) :
    hashedEntries packageDir package.sortedEntries =
      hashedEntries packageDir' package'.sortedEntries := by
  refine hashedEntries_sort_unique package.nodup package'.nodup fun entry => ?_
  rw [mem_hashedEntries linkless, mem_hashedEntries linkless', alike]
  simp only [← Package.mem_installedFiles, same _ _]

/-- Files with equal records are the same. -/
theorem Says.file_of_records (said : Says packageDir package.sortedEntries records)
    (said' : Says packageDir' package'.sortedEntries records)
    (mem : (path, content) ∈ package.installedFiles) (hashed : isArtifact packageDir path = false) :
    (path, content) ∈ package'.installedFiles ∧ isArtifact packageDir' path = false := by
  have here := Package.mem_installedFiles.mp mem
  obtain ⟨relative, name, record⟩ := said.of_file (Package.mem_sortedEntries.mpr here) hashed
  obtain ⟨path', mem', hashed', name'⟩ := said'.record.mp record
  have there := Package.mem_sortedEntries.mp mem'
  obtain rfl := encodePath_inj (package.named _ here) (package'.named _ there) name name'
  exact ⟨Package.mem_installedFiles.mpr there, hashed'⟩

/-- Below a `__pycache__` nothing is hashed. -/
theorem Says.eq_nil (said : Says packageDir entries records) (cached : inCache packageDir = true) :
    records = [] := by
  rw [List.eq_nil_iff_forall_not_mem]
  rintro ⟨relative, content⟩ record
  obtain ⟨path, -, hashed, -⟩ := said.record.mp record
  simp only [isArtifact, inCache, List.any_append] at hashed cached
  rw [cached] at hashed
  cases hashed

/-- The same files say the same. -/
theorem Says.of_sameFiles (same : SameFiles package package')
    (said : Says packageDir package.sortedEntries records)
    (said' : Says packageDir' package'.sortedEntries records')
    (alike : inCache packageDir = inCache packageDir') : records = records' := by
  have artifacts : ∀ path, isArtifact packageDir path = isArtifact packageDir' path := by
    intro path
    simp only [isArtifact, inCache, List.any_append] at alike ⊢
    rw [alike]
  have encodes := said.encodes
  rw [hashedEntries_unique same (fun e he => said.linkless e (mem_sortEntries.mpr he))
    (fun e he => said'.linkless e (mem_sortEntries.mpr he)) artifacts] at encodes
  exact encodes_unique.forall₂ encodes said'.encodes

/-! ### What the digest binds -/

/-- Packages whose digests are of one stream install the same files. -/
def DigestBinds (packageDir : List FileName) (package : Package) (packageDir' : List FileName)
    (package' : Package) : Prop :=
  ∀ stream, packageStream packageDir package = .ok stream →
    packageStream packageDir' package' = .ok stream → SameFiles package package'

/-- Two packages that say the same pieces with the NULs of the contents in other places:
a NUL in a content of the one is the end of a name or a content in the other. -/
def Reframed (packageDir : List FileName) (package : Package) (packageDir' : List FileName)
    (package' : Package) : Prop :=
  ∃ records records', Says packageDir package.sortedEntries records ∧
    Says packageDir' package'.sortedEntries records' ∧
      recordPieces 0 records = recordPieces 0 records' ∧
        records.map (·.2.count 0) ≠ records'.map (·.2.count 0)

/-- A file that is copied and not hashed. -/
def Package.Artifact (packageDir : List FileName) (package : Package) (path : RelPath)
    (content : List UInt8) : Prop :=
  (path, content) ∈ package.installedFiles ∧ isArtifact packageDir path = true

/-- Two packages that say the same and differ in what is left out. -/
def ArtifactsDiffer (packageDir : List FileName) (package : Package) (packageDir' : List FileName)
    (package' : Package) : Prop :=
  (∃ records, Says packageDir package.sortedEntries records ∧
    Says packageDir' package'.sortedEntries records) ∧
    ¬∀ path content, package.Artifact packageDir path content ↔
      package'.Artifact packageDir' path content

theorem packageStream_eq_iff (said : Says packageDir package.sortedEntries records)
    (said' : Says packageDir' package'.sortedEntries records') :
    frameRecords 0 records = frameRecords 0 records' ↔
      recordPieces 0 records = recordPieces 0 records' :=
  frameRecords_eq_iff said.marked said'.marked

/-- What says the same in the same pieces and holds the same files says the same. -/
theorem Says.of_pieces (same : SameFiles package package')
    (said : Says packageDir package.sortedEntries records)
    (said' : Says packageDir' package'.sortedEntries records')
    (pieces : recordPieces 0 records = recordPieces 0 records') : records = records' := by
  by_cases alike : inCache packageDir = inCache packageDir'
  · exact said.of_sameFiles same said' alike
  · -- one of the two packages has nothing hashed, so the other has nothing to hash
    have one : inCache packageDir = true ∨ inCache packageDir' = true := by
      cases cached : inCache packageDir
      · cases cached' : inCache packageDir'
        · exact absurd (cached.trans cached'.symm) alike
        · exact .inr rfl
      · exact .inl rfl
    rcases one with cached | cached
    · obtain rfl := said.eq_nil cached
      exact (recordPieces_eq_nil.mp pieces.symm).symm
    · obtain rfl := said'.eq_nil cached
      exact recordPieces_eq_nil.mp pieces

/-- What is left out of one package is left out of another that says the same and holds
the same files. -/
theorem Says.artifact_of_same (same : SameFiles package package')
    (said : Says packageDir package.sortedEntries records)
    (said' : Says packageDir' package'.sortedEntries records)
    (left : package.Artifact packageDir path content) :
    package'.Artifact packageDir' path content := by
  obtain ⟨mem, artifact⟩ := left
  have mem' := (same path content).mp mem
  refine ⟨mem', ?_⟩
  by_contra hashed
  have hashed' := (said'.file_of_records said mem' (by simpa using hashed)).2
  rw [artifact] at hashed'
  cases hashed'

/-- **What the digest binds**: everything but where the contents' NULs are, and what is
left out. -/
theorem digestBinds_iff :
    DigestBinds packageDir package packageDir' package' ↔
      ¬Reframed packageDir package packageDir' package' ∧
        ¬ArtifactsDiffer packageDir package packageDir' package' := by
  constructor
  · intro binds
    have same : ∀ {records records'}, Says packageDir package.sortedEntries records →
        Says packageDir' package'.sortedEntries records' →
        recordPieces 0 records = recordPieces 0 records' → SameFiles package package' := by
      intro records records' said said' pieces
      have streams := (packageStream_eq_iff said said').mpr pieces
      exact binds _ (hashEntries_eq_ok.mpr ⟨records, said, rfl⟩)
        (hashEntries_eq_ok.mpr ⟨records', said', streams.symm⟩)
    constructor
    · rintro ⟨records, records', said, said', pieces, differ⟩
      obtain rfl := said.of_pieces (same said said' pieces) said' pieces
      exact differ rfl
    · rintro ⟨⟨records, said, said'⟩, differ⟩
      have files := same said said' rfl
      refine differ fun path content => ⟨said.artifact_of_same files said', ?_⟩
      exact said'.artifact_of_same (fun path content => (files path content).symm) said
  · rintro ⟨framed, artifacts⟩ stream h h'
    obtain ⟨records, said, rfl⟩ := hashEntries_eq_ok.mp h
    obtain ⟨records', said', streams⟩ := hashEntries_eq_ok.mp h'
    have pieces := (packageStream_eq_iff said said').mp streams.symm
    have cuts : records.map (·.2.count 0) = records'.map (·.2.count 0) := by
      by_contra differ
      exact framed ⟨records, records', said, said', pieces, differ⟩
    obtain rfl := eq_of_pieces pieces cuts
    have left : ∀ path content, package.Artifact packageDir path content ↔
        package'.Artifact packageDir' path content := by
      by_contra differ
      exact artifacts ⟨⟨records, said, said'⟩, differ⟩
    intro path content
    constructor
    · intro mem
      cases hashed : isArtifact packageDir path with
      | true => exact ((left path content).mp ⟨mem, hashed⟩).1
      | false => exact (said.file_of_records said' mem hashed).1
    · intro mem
      cases hashed : isArtifact packageDir' path with
      | true => exact ((left path content).mpr ⟨mem, hashed⟩).1
      | false => exact (said'.file_of_records said mem hashed).1

/-- Contents without NULs are not reframed. -/
theorem not_reframed
    (clean : ∀ path content, (path, content) ∈ package.installedFiles → 0 ∉ content)
    (clean' : ∀ path content, (path, content) ∈ package'.installedFiles → 0 ∉ content) :
    ¬Reframed packageDir package packageDir' package' := by
  have bodies : ∀ {dir : List FileName} {p : Package} {records : List (List UInt8 × List UInt8)},
      (∀ path content, (path, content) ∈ p.installedFiles → 0 ∉ content) →
        Says dir p.sortedEntries records → ∀ record ∈ records, 0 ∉ record.2 := by
    rintro dir p records clean said ⟨relative, content⟩ mem
    obtain ⟨path, entry, -⟩ := said.record.mp mem
    exact clean path content
      (Package.mem_installedFiles.mpr (Package.mem_sortedEntries.mp entry))
  rintro ⟨records, records', said, said', pieces, differ⟩
  obtain rfl := eq_of_pieces_of_clean (bodies clean said) (bodies clean' said') pieces
  exact differ rfl

end Digest

/-! ### Two packages with one digest -/

section OneDigest

def agentsName : FileName := ⟨"agents".toList.map .char, by decide, by decide⟩

def reportName : FileName := ⟨"report".toList.map .char, by decide, by decide⟩

/-- `/agents/skill-drafts/report`. -/
def reportDraft : List FileName :=
  [agentsName, ⟨"skill-drafts".toList.map .char, by decide, by decide⟩, reportName]

def dataName : FileName := ⟨"data".toList.map .char, by decide, by decide⟩

def handlerName : FileName := ⟨"handler.py".toList.map .char, by decide, by decide⟩

def manifestName : FileName := ⟨"manifest.toml".toList.map .char, by decide, by decide⟩

/-- The handler is inside the data. -/
def dataPackage : Package where
  entries := [([dataName], .file (utf8 "x\x00handler.py\x00run()".toList)),
    ([manifestName], .file (utf8 "name = \"report\"".toList))]
  nodup := by decide
  named := by decide
  rooted := by decide

/-- The handler is a file. -/
def handlerPackage : Package where
  entries := [([dataName], .file (utf8 "x".toList)),
    ([handlerName], .file (utf8 "run()".toList)),
    ([manifestName], .file (utf8 "name = \"report\"".toList))]
  nodup := by decide
  named := by decide
  rooted := by decide

/-- One digest, and a handler in one of the two only. -/
theorem one_digest_two_packages :
    ¬DigestBinds reportDraft dataPackage reportDraft handlerPackage := by
  intro binds
  have streams : packageStream reportDraft dataPackage =
      packageStream reportDraft handlerPackage := by decide +kernel
  obtain ⟨stream, read⟩ : ∃ stream, packageStream reportDraft handlerPackage = .ok stream := by
    cases h : packageStream reportDraft handlerPackage with
    | error e =>
        have readable : (packageStream reportDraft handlerPackage).isOk = true := by decide +kernel
        rw [h] at readable
        cases readable
    | ok stream => exact ⟨stream, rfl⟩
  have same := binds stream (streams.trans read) read
  have handler : ([handlerName], utf8 "run()".toList) ∈ dataPackage.installedFiles :=
    (same _ _).mpr (by decide)
  exact absurd handler (by decide)

end OneDigest

end AgentOs
