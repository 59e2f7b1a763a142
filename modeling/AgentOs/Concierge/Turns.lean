import AgentOs.Concierge.Sessions
import AgentOs.Lib.History
import AgentOs.Lib.Machine
import AgentOs.Lib.Slots
import Mathlib.Data.List.Nodup

/-!
Turns of the public concierge, one beside another (`public_concierge.py`,
`public_concierge_ai.py`).

A turn deletes the expired sessions, looks its own session up, inserts a new one where it
found none, waits for Hermes, and binds the Hermes session it was told. Each of these is a
statement of its own, and other turns may take any of theirs between two of them.

The log keeps what happened in order: which visitor a session was issued to, what each
resolution returned, what was bound, which sessions were deleted. `visitors_separated`
reads every resolution against what stands before it there.
-/

namespace AgentOs

open AgentOs.Lib

/-- A tenant's visitor; a request may come without one. -/
structure VisitorKey where
  tenantId : String
  visitorId : Option String
deriving DecidableEq, Repr

/-- A chat request to a tenant. -/
structure PublicChat where
  tenantId : String
  identity : PublicChatIdentity
deriving DecidableEq, Repr

def PublicSession.visitor (row : PublicSession) : VisitorKey := ⟨row.tenantId, row.visitorId⟩

namespace PublicChat

/-- The session it asks for. -/
def requested (chat : PublicChat) : String := given chat.identity.sessionId

def visitorId (chat : PublicChat) : String := given chat.identity.visitorId

/-- The visitor it comes from, as the table has it. -/
def visitor (chat : PublicChat) : VisitorKey :=
  ⟨chat.tenantId, if chat.visitorId = "" then none else some chat.visitorId⟩

theorem visitorId_visitor (chat : PublicChat) : chat.visitor.visitorId =
    if given chat.identity.visitorId = "" then none else some (given chat.identity.visitorId) := by
  unfold visitor PublicChat.visitorId
  rfl

end PublicChat

/-- Where a turn is. -/
inductive TurnStage where
  | arrived
  /-- the expired sessions are deleted -/
  | swept (now : UtcDateTime)
  /-- no session was found; `stale` where there was one too old -/
  | inserting (now : UtcDateTime) (stale : Bool)
  /-- Hermes is running -/
  | waiting (sessionId : String) (hermesSessionId : Option String)
  | over
deriving DecidableEq, Repr

structure PublicTurn where
  chat : PublicChat
  stage : TurnStage
deriving DecidableEq, Repr

inductive ConciergeEvent where
  | issued (visitor : VisitorKey) (sessionId : String)
  /-- `resolve_public_session` returned -/
  | resolved (chat : PublicChat) (stale : Bool) (sessionId : String)
      (hermesSessionId : Option String)
  | bound (visitor : VisitorKey) (sessionId hermesSessionId : String)
  | deleted (sessionId : String)
deriving DecidableEq, Repr

/-- The table, the turns, and the log. -/
structure ConciergeWorld where
  sessions : List PublicSession := []
  turns : List PublicTurn := []
  log : List ConciergeEvent := []
deriving DecidableEq, Repr

inductive ConciergeStep where
  | chat (chat : PublicChat)
  /-- the turn at place `i` deletes; the environment's lifetime is read -/
  | sweep (i : ℕ) (now : UtcDateTime) (configuredTtl : Option ℤ)
  | look (i : ℕ) (configuredTtl : Option ℤ)
  /-- `uuid4` draws an id -/
  | insert (i : ℕ) (sessionId : String)
  /-- Hermes answered, and printed a session id or none -/
  | answer (i : ℕ) (printed : Option String) (now : UtcDateTime)
  /-- a statement or Hermes raises, or the answer is not used -/
  | fail (i : ℕ)
deriving DecidableEq, Repr

/-- The row of a session of a tenant. -/
def sessionRow (tenantId sessionId : String) (sessions : List PublicSession) :
    Option PublicSession :=
  sessions.find? fun row => row.sessionId = sessionId ∧ row.tenantId = tenantId

/-- `UPDATE … WHERE session_id = ? AND tenant_id = ?`. -/
def bindPublicHermesSession (tenantId sessionId hermesSessionId : String) (now : UtcDateTime)
    (sessions : List PublicSession) : List PublicSession :=
  sessions.map fun row =>
    if row.sessionId = sessionId ∧ row.tenantId = tenantId then
      { row with hermesSessionId := some hermesSessionId, updatedAt := now }
    else row

namespace ConciergeWorld

variable (w : ConciergeWorld)

def setStage (i : ℕ) (turn : PublicTurn) (stage : TurnStage) : ConciergeWorld :=
  { w with turns := w.turns.set i { turn with stage } }

/-- The deletion of a resolution. -/
def sweep (i : ℕ) (turn : PublicTurn) (now : UtcDateTime) (configuredTtl : Option ℤ) :
    ConciergeWorld :=
  match now.add (-(sessionTtlSeconds configuredTtl * 1000000)) with
  | .error _ => w.setStage i turn .over
  | .ok cutoff =>
      let kept := deleteExpired cutoff.isoformat w.sessions
      { w.setStage i turn (.swept now) with
        sessions := kept
        log := w.log ++ (w.sessions.filter fun row =>
          TextLt row.updatedAt.isoformat cutoff.isoformat).map fun row => .deleted row.sessionId }

/-- Its `SELECT`, and what is made of the row. -/
def look (i : ℕ) (turn : PublicTurn) (now : UtcDateTime) (configuredTtl : Option ℤ) :
    ConciergeWorld :=
  let ttl := sessionTtlSeconds configuredTtl
  let chat := turn.chat
  let stale := (sessionRow chat.tenantId chat.requested w.sessions).any fun row =>
    ttl * 1000000 < now.sub row.updatedAt
  let found := if chat.requested ≠ "" ∧ chat.visitorId ≠ "" then
    liveSession chat.tenantId chat.requested chat.visitorId now ttl w.sessions else none
  match found with
  | some row =>
      { w.setStage i turn (.waiting row.sessionId row.hermesSessionId) with
        log := w.log ++ [.resolved chat stale row.sessionId row.hermesSessionId] }
  | none => w.setStage i turn (.inserting now stale)

/-- Its `INSERT`. -/
def insert (i : ℕ) (turn : PublicTurn) (now : UtcDateTime) (stale : Bool) (sessionId : String) :
    ConciergeWorld :=
  if sessionId ∈ w.sessions.map (·.sessionId) then w.setStage i turn .over
  else
    { w.setStage i turn (.waiting sessionId none) with
      sessions := w.sessions ++
        [{ sessionId, tenantId := turn.chat.tenantId, visitorId := turn.chat.visitor.visitorId,
           createdAt := now, updatedAt := now }]
      log := w.log ++
        [.issued turn.chat.visitor sessionId, .resolved turn.chat stale sessionId none] }

/-- `bind_public_hermes_session` of the id that Hermes printed, or else of the one it was
given. -/
def answer (i : ℕ) (turn : PublicTurn) (sessionId : String) (hermesSessionId printed : Option String)
    (now : UtcDateTime) : ConciergeWorld :=
  let hermes := given (printed.or hermesSessionId)
  let ended := w.setStage i turn .over
  if hermes = "" then ended
  else
    { ended with
      sessions := bindPublicHermesSession turn.chat.tenantId sessionId hermes now w.sessions
      log := w.log ++ if (sessionRow turn.chat.tenantId sessionId w.sessions).isSome then
        [.bound turn.chat.visitor sessionId hermes] else [] }

end ConciergeWorld

/-- The machine of any number of turns. -/
def concierge : Machine ConciergeWorld ConciergeStep where
  step w
    | .chat chat => some { w with turns := w.turns ++ [⟨chat, .arrived⟩] }
    | .sweep i now configuredTtl =>
        match w.turns[i]? with
        | some ⟨chat, .arrived⟩ => some (w.sweep i ⟨chat, .arrived⟩ now configuredTtl)
        | _ => none
    | .look i configuredTtl =>
        match w.turns[i]? with
        | some ⟨chat, .swept now⟩ => some (w.look i ⟨chat, .swept now⟩ now configuredTtl)
        | _ => none
    | .insert i sessionId =>
        match w.turns[i]? with
        | some ⟨chat, .inserting now stale⟩ =>
            some (w.insert i ⟨chat, .inserting now stale⟩ now stale sessionId)
        | _ => none
    | .answer i printed now =>
        match w.turns[i]? with
        | some ⟨chat, .waiting sessionId hermesSessionId⟩ =>
            some (w.answer i ⟨chat, .waiting sessionId hermesSessionId⟩ sessionId hermesSessionId
              printed now)
        | _ => none
    | .fail i =>
        match w.turns[i]? with
        | some turn => some (w.setStage i turn .over)
        | none => none

/-- The sessions that were issued. -/
def issuedIds (log : List ConciergeEvent) : List String :=
  log.filterMap fun event => match event with
    | .issued _ sessionId => some sessionId
    | _ => none

theorem mem_issuedIds {log : List ConciergeEvent} {sessionId : String} :
    sessionId ∈ issuedIds log ↔ ∃ visitor, .issued visitor sessionId ∈ log := by
  constructor
  · intro mem
    obtain ⟨event, there, same⟩ := List.mem_filterMap.mp mem
    cases event <;> cases same
    exact ⟨_, there⟩
  · rintro ⟨visitor, mem⟩
    exact List.mem_filterMap.mpr ⟨_, mem, rfl⟩

/-- `uuid4` draws no id that was issued. -/
def UniqueIds (w : ConciergeWorld) : ConciergeStep → Prop
  | .insert _ sessionId => sessionId ∉ issuedIds w.log
  | _ => True

instance (w : ConciergeWorld) : (l : ConciergeStep) → Decidable (UniqueIds w l)
  | .insert .. => inferInstanceAs (Decidable (_ ∉ _))
  | .chat _ | .sweep .. | .look .. | .answer .. | .fail _ => isTrue trivial

/-! ### What a resolution may return -/

/-- A session that nobody had before, without a Hermes session. -/
def Fresh (before : List ConciergeEvent) (chat : PublicChat) (sessionId : String)
    (hermesSessionId : Option String) : Prop :=
  hermesSessionId = none ∧ ∃ earlier, before = earlier ++ [.issued chat.visitor sessionId] ∧
    ∀ visitor, .issued visitor sessionId ∉ earlier

/-- A resolution, given what happened before it. -/
structure Separated (before : List ConciergeEvent) (chat : PublicChat) (stale : Bool)
    (sessionId : String) (hermesSessionId : Option String) : Prop where
  /-- a Hermes session was bound to the same session by the same visitor, who has a name -/
  bound : ∀ hermes, hermesSessionId = some hermes → chat.visitorId ≠ "" ∧
    sessionId = chat.requested ∧ .bound chat.visitor sessionId hermes ∈ before
  /-- who has no name, or asks for another's session or for an expired one, gets a new one -/
  fresh : (chat.visitorId = "" ∨
      (∃ visitor ≠ chat.visitor, .issued visitor chat.requested ∈ before) ∨
      .deleted chat.requested ∈ before ∨ stale = true) →
    Fresh before chat sessionId hermesSessionId

/-- The resolutions of a log are separated. -/
def Resolved (before : List ConciergeEvent) : ConciergeEvent → Prop
  | .resolved chat stale sessionId hermesSessionId =>
      Separated before chat stale sessionId hermesSessionId
  | _ => True

section

variable {w w' : ConciergeWorld} {i : ℕ} {turn : PublicTurn}

/-- What holds of every reachable state. -/
structure ConciergeInv (w : ConciergeWorld) : Prop where
  keys : (w.sessions.map (·.sessionId)).Nodup
  rows : ∀ row ∈ w.sessions, .issued row.visitor row.sessionId ∈ w.log
  once : ∀ visitor visitor' sessionId, .issued visitor sessionId ∈ w.log →
    .issued visitor' sessionId ∈ w.log → visitor = visitor'
  gone : ∀ sessionId, .deleted sessionId ∈ w.log →
    (∃ visitor, .issued visitor sessionId ∈ w.log) ∧ sessionId ∉ w.sessions.map (·.sessionId)
  bound : ∀ row ∈ w.sessions, ∀ hermes, row.hermesSessionId = some hermes →
    .bound row.visitor row.sessionId hermes ∈ w.log
  waiting : ∀ turn ∈ w.turns, ∀ sessionId hermes, turn.stage = .waiting sessionId hermes →
    .issued turn.chat.visitor sessionId ∈ w.log
  resolved : EachVisit Resolved w.log

theorem conciergeInv_nil : ConciergeInv {} where
  keys := .nil
  rows _ mem := by cases mem
  once _ _ _ mem := by cases mem
  gone _ mem := by cases mem
  bound _ mem := by cases mem
  waiting _ mem := by cases mem
  resolved := eachVisit_nil

/-- A turn goes on, and no session is issued: the rows that are left are earlier ones, with
the Hermes sessions that were bound to them. -/
theorem ConciergeInv.advance (inv : ConciergeInv w) {sessions : List PublicSession}
    {more : List ConciergeEvent} {stage : TurnStage}
    (quiet : ∀ visitor sessionId, .issued visitor sessionId ∉ more)
    (keys : (sessions.map (·.sessionId)).Nodup)
    (rows : ∀ row ∈ sessions, ∃ old ∈ w.sessions,
      row.visitor = old.visitor ∧ row.sessionId = old.sessionId)
    (gone : ∀ sessionId, .deleted sessionId ∈ more →
      sessionId ∈ w.sessions.map (·.sessionId) ∧ sessionId ∉ sessions.map (·.sessionId))
    (bound : ∀ row ∈ sessions, ∀ hermes, row.hermesSessionId = some hermes →
      .bound row.visitor row.sessionId hermes ∈ w.log ++ more)
    (waiting : ∀ sessionId hermes, stage = .waiting sessionId hermes →
      .issued turn.chat.visitor sessionId ∈ w.log)
    (resolved : EachVisit Resolved (w.log ++ more)) :
    ConciergeInv { w.setStage i turn stage with sessions, log := w.log ++ more } := by
  have grows : ∀ event ∈ w.log, event ∈ w.log ++ more := fun _ mem => List.mem_append_left _ mem
  have earlier : ∀ {visitor sessionId}, .issued visitor sessionId ∈ w.log ++ more →
      .issued visitor sessionId ∈ w.log :=
    fun mem => (List.mem_append.mp mem).resolve_right (quiet _ _)
  exact
    { keys
      rows := by
        intro row mem
        obtain ⟨old, there, visitor, sessionId⟩ := rows row mem
        rw [visitor, sessionId]
        exact grows _ (inv.rows old there)
      once := fun visitor visitor' sessionId mem mem' =>
        inv.once visitor visitor' sessionId (earlier mem) (earlier mem')
      gone := by
        intro sessionId mem
        rcases List.mem_append.mp mem with old | new
        · obtain ⟨⟨visitor, issued⟩, absent⟩ := inv.gone sessionId old
          refine ⟨⟨visitor, grows _ issued⟩, ?_⟩
          intro there
          obtain ⟨row, kept, same⟩ := List.mem_map.mp there
          obtain ⟨before, there', -, sessionId'⟩ := rows row kept
          exact absent (List.mem_map.mpr ⟨before, there', sessionId'.symm.trans same⟩)
        · obtain ⟨there, absent⟩ := gone sessionId new
          obtain ⟨row, row_mem, rfl⟩ := List.mem_map.mp there
          exact ⟨⟨row.visitor, grows _ (inv.rows row row_mem)⟩, absent⟩
      bound
      waiting := by
        intro other mem sessionId hermes waits
        rcases List.mem_or_eq_of_mem_set mem with there | rfl
        · exact grows _ (inv.waiting other there sessionId hermes waits)
        · exact grows _ (waiting sessionId hermes waits)
      resolved }

/-- A turn goes on and nothing else happens. -/
theorem ConciergeInv.setStage (inv : ConciergeInv w) {stage : TurnStage}
    (next : ∀ sessionId hermes, stage ≠ .waiting sessionId hermes) :
    ConciergeInv (w.setStage i turn stage) :=
  { inv with
    waiting := by
      intro other mem sessionId hermes waits
      rcases List.mem_or_eq_of_mem_set mem with there | rfl
      · exact inv.waiting other there sessionId hermes waits
      · exact absurd waits (next sessionId hermes) }

theorem mem_deleteExpired {cutoff : String} {sessions : List PublicSession} {row : PublicSession} :
    row ∈ deleteExpired cutoff sessions ↔
      row ∈ sessions ∧ ¬TextLt row.updatedAt.isoformat cutoff := by
  simp [deleteExpired]

theorem conciergeInv_sweep (inv : ConciergeInv w) (now : UtcDateTime)
    (configuredTtl : Option ℤ) : ConciergeInv (w.sweep i turn now configuredTtl) := by
  unfold ConciergeWorld.sweep
  split
  · exact inv.setStage fun _ _ same => by cases same
  rename_i cutoff _
  refine inv.advance ?quiet ?keys ?rows ?gone ?bound ?waiting ?resolved
  case quiet =>
    intro visitor sessionId mem
    obtain ⟨row, -, same⟩ := List.mem_map.mp mem
    cases same
  case keys => exact inv.keys.sublist (List.filter_sublist.map _)
  case rows => exact fun row mem => ⟨row, (mem_deleteExpired.mp mem).1, rfl, rfl⟩
  case gone =>
    intro sessionId mem
    obtain ⟨row, removed, same⟩ := List.mem_map.mp mem
    obtain ⟨there, early⟩ := List.mem_filter.mp removed
    cases same
    refine ⟨List.mem_map_of_mem there, ?_⟩
    intro kept
    obtain ⟨other, other_kept, same⟩ := List.mem_map.mp kept
    obtain ⟨there', late⟩ := mem_deleteExpired.mp other_kept
    -- the ids are keys, so the row that is kept would be the one that is deleted
    obtain rfl := List.inj_on_of_nodup_map inv.keys there' there same
    exact late (of_decide_eq_true early)
  case bound =>
    intro row mem hermes same
    exact List.mem_append_left _ (inv.bound row (mem_deleteExpired.mp mem).1 hermes same)
  case waiting =>
    intro _ _ same
    cases same
  case resolved =>
    refine inv.resolved.append ?_
    intro before event mem
    obtain ⟨row, -, rfl⟩ := List.mem_map.mp mem
    exact trivial

theorem liveSession_eq_some {tenantId requested visitorId : String} {now : UtcDateTime} {ttl : ℤ}
    {sessions : List PublicSession} {row : PublicSession}
    (h : liveSession tenantId requested visitorId now ttl sessions = some row) :
    sessionRow tenantId requested sessions = some row ∧ row.visitorId = some visitorId ∧
      now.sub row.updatedAt ≤ ttl * 1000000 := by
  obtain ⟨found, first, live⟩ := Option.bind_eq_some_iff.mp h
  obtain ⟨own, same⟩ := Option.ite_none_right_eq_some.mp live
  obtain rfl := Option.some.inj same
  exact ⟨first, own⟩

theorem sessionRow_eq_some {tenantId sessionId : String} {sessions : List PublicSession}
    {row : PublicSession} (h : sessionRow tenantId sessionId sessions = some row) :
    row ∈ sessions ∧ row.sessionId = sessionId ∧ row.tenantId = tenantId := by
  have matched := List.find?_some h
  exact ⟨List.mem_of_find?_eq_some h, of_decide_eq_true matched⟩

theorem conciergeInv_look (inv : ConciergeInv w) (now : UtcDateTime)
    (configuredTtl : Option ℤ) : ConciergeInv (w.look i turn now configuredTtl) := by
  unfold ConciergeWorld.look
  dsimp only
  split
  · rename_i row found
    obtain ⟨⟨-, named⟩, live⟩ := Option.ite_none_right_eq_some.mp found
    obtain ⟨first, visitor, recent⟩ := liveSession_eq_some live
    obtain ⟨there, requested, tenant⟩ := sessionRow_eq_some first
    rw [first, Option.any_some, decide_eq_false (not_lt.mpr recent)]
    have own : row.visitor = turn.chat.visitor := by
      simp [PublicSession.visitor, PublicChat.visitor, tenant, visitor, named]
    have issued := inv.rows row there
    have bound := inv.bound row there
    rw [own] at issued bound
    have separated : Separated w.log turn.chat false row.sessionId row.hermesSessionId :=
      { bound := fun hermes same => ⟨named, requested, bound hermes same⟩
        fresh := by
          rintro (anonymous | ⟨other, ne, theirs⟩ | deleted | stale)
          · exact absurd anonymous named
          · rw [← requested] at theirs
            exact absurd (inv.once _ _ _ theirs issued) ne
          · rw [← requested] at deleted
            exact absurd (List.mem_map_of_mem there) (inv.gone _ deleted).2
          · cases stale }
    refine inv.advance ?quiet inv.keys ?rows ?gone ?bound ?waiting ?resolved
    case quiet =>
      intro visitor sessionId mem
      cases List.mem_singleton.mp mem
    case rows => exact fun row mem => ⟨row, mem, rfl, rfl⟩
    case gone =>
      intro sessionId mem
      cases List.mem_singleton.mp mem
    case bound =>
      exact fun row mem hermes same => List.mem_append_left _ (inv.bound row mem hermes same)
    case waiting =>
      intro sessionId hermes same
      cases same
      exact issued
    case resolved => exact eachVisit_concat.mpr ⟨inv.resolved, separated⟩
  · exact inv.setStage fun _ _ same => by cases same

theorem conciergeInv_insert (inv : ConciergeInv w) (now : UtcDateTime) (stale : Bool)
    {sessionId : String} (unique : ∀ visitor, .issued visitor sessionId ∉ w.log) :
    ConciergeInv (w.insert i turn now stale sessionId) := by
  unfold ConciergeWorld.insert
  split
  · exact inv.setStage fun _ _ same => by cases same
  rename_i absent
  have grows : ∀ event ∈ w.log, event ∈ w.log ++
      [.issued turn.chat.visitor sessionId, .resolved turn.chat stale sessionId none] :=
    fun _ mem => List.mem_append_left _ mem
  have issued : .issued turn.chat.visitor sessionId ∈ w.log ++
      [.issued turn.chat.visitor sessionId, .resolved turn.chat stale sessionId none] := by simp
  have cases_issued : ∀ visitor id, .issued visitor id ∈ w.log ++
      [.issued turn.chat.visitor sessionId, .resolved turn.chat stale sessionId none] →
        .issued visitor id ∈ w.log ∨ visitor = turn.chat.visitor ∧ id = sessionId := by
    intro visitor id mem
    simpa using mem
  have fresh : Separated (w.log ++ [.issued turn.chat.visitor sessionId]) turn.chat stale
      sessionId none :=
    { bound := fun _ same => by cases same
      fresh := fun _ => ⟨rfl, w.log, rfl, unique⟩ }
  exact
    { keys := by
        rw [List.map_append, List.nodup_append]
        refine ⟨inv.keys, List.nodup_singleton _, ?_⟩
        rintro id mem id' mem' rfl
        rw [List.mem_singleton.mp mem'] at mem
        exact absent mem
      rows := by
        intro row mem
        rcases List.mem_append.mp mem with old | new
        · exact grows _ (inv.rows row old)
        · rw [List.mem_singleton.mp new]
          simp [PublicSession.visitor, PublicChat.visitor]
      once := by
        intro visitor visitor' id mem mem'
        rcases cases_issued _ _ mem with old | ⟨rfl, rfl⟩
        · rcases cases_issued _ _ mem' with old' | ⟨rfl, rfl⟩
          · exact inv.once visitor visitor' id old old'
          · exact absurd old (unique visitor)
        · rcases cases_issued _ _ mem' with old' | ⟨rfl, -⟩
          · exact absurd old' (unique visitor')
          · rfl
      gone := by
        intro id mem
        have old : .deleted id ∈ w.log := by simpa using mem
        obtain ⟨⟨visitor, theirs⟩, missing⟩ := inv.gone id old
        refine ⟨⟨visitor, grows _ theirs⟩, ?_⟩
        intro there
        rw [List.map_append] at there
        rcases List.mem_append.mp there with there | new
        · exact missing there
        · rw [List.mem_singleton.mp new] at theirs
          exact unique visitor theirs
      bound := by
        intro row mem hermes same
        rcases List.mem_append.mp mem with old | new
        · exact grows _ (inv.bound row old hermes same)
        · cases List.mem_singleton.mp new
          cases same
      waiting := by
        intro other mem id hermes waits
        rcases List.mem_or_eq_of_mem_set mem with there | rfl
        · exact grows _ (inv.waiting other there id hermes waits)
        · cases waits
          exact issued
      resolved := by
        show EachVisit Resolved (w.log ++ [_, _])
        rw [List.append_cons]
        exact eachVisit_concat.mpr ⟨eachVisit_concat.mpr ⟨inv.resolved, trivial⟩, fresh⟩ }

theorem conciergeInv_answer (inv : ConciergeInv w) {sessionId : String}
    (issued : .issued turn.chat.visitor sessionId ∈ w.log)
    (hermesSessionId printed : Option String) (now : UtcDateTime) :
    ConciergeInv (w.answer i turn sessionId hermesSessionId printed now) := by
  unfold ConciergeWorld.answer
  dsimp only
  split
  · exact inv.setStage fun _ _ same => by cases same
  generalize given (printed.or hermesSessionId) = hermes
  -- of what was appended, nothing is known but that it is a bind where there is a row
  generalize appended : (if (sessionRow turn.chat.tenantId sessionId w.sessions).isSome then
    [ConciergeEvent.bound turn.chat.visitor sessionId hermes] else []) = more
  have only : ∀ event ∈ more, event = .bound turn.chat.visitor sessionId hermes := by
    intro event mem
    rw [← appended] at mem
    split at mem
    · exact List.mem_singleton.mp mem
    · cases mem
  have updated : ∀ row ∈ bindPublicHermesSession turn.chat.tenantId sessionId hermes now
      w.sessions, ∃ old ∈ w.sessions, row.visitor = old.visitor ∧ row.sessionId = old.sessionId ∧
        (row.hermesSessionId = old.hermesSessionId ∨ row.hermesSessionId = some hermes ∧
          old.sessionId = sessionId ∧ old.tenantId = turn.chat.tenantId) := by
    intro row mem
    obtain ⟨old, there, rfl⟩ := List.mem_map.mp mem
    refine ⟨old, there, ?_⟩
    split
    · rename_i own
      exact ⟨rfl, rfl, .inr ⟨rfl, own⟩⟩
    · exact ⟨rfl, rfl, .inl rfl⟩
  refine inv.advance ?quiet ?keys ?rows ?gone ?bound ?waiting ?resolved
  case quiet =>
    intro visitor id mem
    cases only _ mem
  case keys =>
    have same : (bindPublicHermesSession turn.chat.tenantId sessionId hermes now w.sessions).map
        (·.sessionId) = w.sessions.map (·.sessionId) := by
      simp only [bindPublicHermesSession, List.map_map]
      refine List.map_congr_left fun row _ => ?_
      simp only [Function.comp]
      split <;> rfl
    rw [same]
    exact inv.keys
  case rows =>
    intro row mem
    obtain ⟨old, there, visitor, id, -⟩ := updated row mem
    exact ⟨old, there, visitor, id⟩
  case gone =>
    intro id mem
    cases only _ mem
  case bound =>
    intro row mem bound same
    obtain ⟨old, there, visitor, id, kept | ⟨here, rfl, tenant⟩⟩ := updated row mem
    · rw [visitor, id]
      exact List.mem_append_left _ (inv.bound old there bound (kept.symm.trans same))
    · have owner := inv.once _ _ _ (inv.rows old there) issued
      have found : (sessionRow turn.chat.tenantId old.sessionId w.sessions).isSome := by
        unfold sessionRow
        rw [List.find?_isSome]
        exact ⟨old, there, by simp [tenant]⟩
      rw [here] at same
      cases same
      rw [visitor, id, owner, ← appended, if_pos found]
      simp
  case waiting =>
    intro _ _ same
    cases same
  case resolved =>
    refine inv.resolved.append ?_
    intro before event mem
    rw [only _ mem]
    exact trivial

theorem conciergeInv_step {l : ConciergeStep} (inv : ConciergeInv w) (unique : UniqueIds w l)
    (h : concierge.step w l = some w') : ConciergeInv w' := by
  cases l with
  | chat chat =>
      cases h
      refine { inv with waiting := ?_ }
      intro other mem sessionId hermes waits
      rcases List.mem_append.mp mem with there | new
      · exact inv.waiting other there sessionId hermes waits
      · cases List.mem_singleton.mp new
        cases waits
  | sweep i now configuredTtl =>
      simp only [concierge] at h
      split at h
      · rw [← Option.some.inj h]
        exact conciergeInv_sweep inv now configuredTtl
      · cases h
  | look i configuredTtl =>
      simp only [concierge] at h
      split at h
      · rw [← Option.some.inj h]
        exact conciergeInv_look inv _ configuredTtl
      · cases h
  | insert i sessionId =>
      simp only [concierge] at h
      split at h
      · rw [← Option.some.inj h]
        exact conciergeInv_insert inv _ _ fun visitor mem => unique (mem_issuedIds.mpr ⟨visitor, mem⟩)
      · cases h
  | answer i printed now =>
      simp only [concierge] at h
      split at h
      · rename_i chat sessionId hermesSessionId here
        rw [← Option.some.inj h]
        have issued := inv.waiting _ (List.mem_of_getElem? here) sessionId hermesSessionId rfl
        exact conciergeInv_answer inv issued hermesSessionId printed now
      · cases h
  | fail i =>
      simp only [concierge] at h
      split at h
      · rw [← Option.some.inj h]
        exact inv.setStage fun _ _ same => by cases same
      · cases h

/-- **Visitors are kept apart**: in every run from an empty table, each resolution returns
what its own visitor had bound to its own session, or a new session. -/
theorem visitors_separated {ls : List ConciergeStep}
    (path : Machine.Path concierge UniqueIds {} ls w) :
    ∀ before chat stale sessionId hermesSessionId after,
      w.log = before ++ .resolved chat stale sessionId hermesSessionId :: after →
        Separated before chat stale sessionId hermesSessionId := by
  have inv : ConciergeInv w :=
    path.invariant (fun _ _ _ unique inv h => conciergeInv_step inv unique h) conciergeInv_nil
  intro before chat stale sessionId hermesSessionId after split
  exact inv.resolved before _ after split

theorem sweep_step {chat : PublicChat} (here : w.turns[i]? = some ⟨chat, .arrived⟩)
    {now cutoff : UtcDateTime} {configuredTtl : Option ℤ}
    (cut : now.add (-(sessionTtlSeconds configuredTtl * 1000000)) = .ok cutoff) :
    ∃ v, concierge.step w (.sweep i now configuredTtl) = some v ∧
      v.sessions = deleteExpired cutoff.isoformat w.sessions ∧
      v.turns[i]? = some ⟨chat, .swept now⟩ := by
  refine ⟨_, by simp only [concierge, here]; rfl, ?_, ?_⟩
  · simp only [ConciergeWorld.sweep, cut]
  · simp only [ConciergeWorld.sweep, cut]
    exact getElem?_set_self_of_getElem? here

theorem look_step {chat : PublicChat} {now : UtcDateTime}
    (here : w.turns[i]? = some ⟨chat, .swept now⟩) (configuredTtl : Option ℤ) :
    ∃ v, concierge.step w (.look i configuredTtl) = some v ∧ v.sessions = w.sessions ∧
      match (if chat.requested ≠ "" ∧ chat.visitorId ≠ "" then
        liveSession chat.tenantId chat.requested chat.visitorId now
          (sessionTtlSeconds configuredTtl) w.sessions else none) with
      | some row => v.turns[i]? = some ⟨chat, .waiting row.sessionId row.hermesSessionId⟩
      | none => ∃ stale, v.turns[i]? = some ⟨chat, .inserting now stale⟩ := by
  refine ⟨_, by simp only [concierge, here]; rfl, ?_⟩
  simp only [ConciergeWorld.look]
  split
  · exact ⟨rfl, getElem?_set_self_of_getElem? here⟩
  · exact ⟨rfl, _, getElem?_set_self_of_getElem? here⟩

theorem insert_step {chat : PublicChat} {now : UtcDateTime} {stale : Bool}
    (here : w.turns[i]? = some ⟨chat, .inserting now stale⟩) (sessionId : String) :
    ∃ v, concierge.step w (.insert i sessionId) = some v ∧
      if sessionId ∈ w.sessions.map (·.sessionId) then v.sessions = w.sessions
      else v.turns[i]? = some ⟨chat, .waiting sessionId none⟩ ∧
        v.sessions = w.sessions ++
          [{ sessionId, tenantId := chat.tenantId, visitorId := chat.visitor.visitorId,
             createdAt := now, updatedAt := now }] := by
  refine ⟨_, by simp only [concierge, here]; rfl, ?_⟩
  unfold ConciergeWorld.insert
  split
  · rfl
  · exact ⟨getElem?_set_self_of_getElem? here, rfl⟩

/-- A resolution that no other turn disturbs is `resolvePublicSession`. -/
theorem resolvePublicSession_path {chat : PublicChat} (here : w.turns[i]? = some ⟨chat, .arrived⟩)
    {now cutoff : UtcDateTime} {configuredTtl : Option ℤ}
    (cut : now.add (-(sessionTtlSeconds configuredTtl * 1000000)) = .ok cutoff)
    (sessionId : String) :
    ∃ ls t, Machine.Path concierge Machine.Free w ls t ∧
      t.sessions = (resolvePublicSession chat.tenantId chat.identity now configuredTtl sessionId
        w.sessions).2 ∧
      ∀ id hermes, (resolvePublicSession chat.tenantId chat.identity now configuredTtl sessionId
          w.sessions).1 = .ok (id, hermes) → t.turns[i]? = some ⟨chat, .waiting id hermes⟩ := by
  obtain ⟨v, sweeps, kept, swept⟩ := sweep_step here cut
  obtain ⟨u, looks, same, ended⟩ := look_step swept configuredTtl
  unfold resolvePublicSession
  rw [kept] at ended same
  unfold PublicChat.requested PublicChat.visitorId at ended
  simp only [cut]
  generalize (if given chat.identity.sessionId ≠ "" ∧ given chat.identity.visitorId ≠ "" then
      liveSession chat.tenantId (given chat.identity.sessionId) (given chat.identity.visitorId) now
        (sessionTtlSeconds configuredTtl) (deleteExpired cutoff.isoformat w.sessions)
    else none) = found at ended ⊢
  cases found with
  | some row =>
      refine ⟨_, u, .cons trivial sweeps (.single trivial looks), same, ?_⟩
      rintro id hermes ⟨⟩
      exact ended
  | none =>
      obtain ⟨stale, inserting⟩ := ended
      obtain ⟨t, inserts, ended⟩ := insert_step inserting sessionId
      refine ⟨_, t, .cons trivial sweeps (.cons trivial looks (.single trivial inserts)), ?_⟩
      rw [same, PublicChat.visitorId_visitor] at ended
      dsimp only
      split at ended
      · rename_i taken
        rw [if_pos taken]
        exact ⟨ended, fun _ _ same => by cases same⟩
      · rename_i free
        rw [if_neg free]
        refine ⟨ended.2, ?_⟩
        rintro id hermes ⟨⟩
        exact ended.1

end

/-! ### A forged request -/

/-- On the first of May 2026. -/
def mayDay (hour minute : ℕ) (valid : hour < 24 ∧ minute < 60 := by decide) : UtcDateTime where
  year := 2026
  month := 5
  day := 1
  hour
  minute
  second := 0
  microsecond := 0
  validDate := by decide
  validTime := ⟨valid.1, valid.2, by decide, by decide⟩

def annChat : PublicChat := ⟨"studio", ⟨some "s1", some " ann"⟩⟩

def bobChat : PublicChat := ⟨"studio", ⟨some "s1", some "bob"⟩⟩

/-- Ann's session is bound while Bob, who asks for it, is between his deletion and his
lookup; Ann comes back twice, the second time after the lifetime of five minutes. -/
def forgedTurns : List ConciergeStep :=
  [.chat annChat, .sweep 0 (mayDay 9 0) (some 300), .look 0 (some 300), .insert 0 "s1",
    .chat bobChat, .sweep 1 (mayDay 9 1) (some 300), .answer 0 (some "h1") (mayDay 9 1),
    .look 1 (some 300), .insert 1 "s2", .answer 1 (some "h2") (mayDay 9 2),
    .chat annChat, .sweep 2 (mayDay 9 3) (some 300), .look 2 (some 300), .fail 2,
    .chat annChat, .sweep 3 (mayDay 9 8) (some 300), .look 3 (some 300), .insert 3 "s3"]

theorem forged_separated : ∃ w : ConciergeWorld,
    Machine.Path concierge UniqueIds {} forgedTurns w ∧
    w.log =
      [.issued ⟨"studio", some "ann"⟩ "s1", .resolved annChat false "s1" none,
        .bound ⟨"studio", some "ann"⟩ "s1" "h1",
        .issued ⟨"studio", some "bob"⟩ "s2", .resolved bobChat false "s2" none,
        .bound ⟨"studio", some "bob"⟩ "s2" "h2",
        .resolved annChat false "s1" (some "h1"), .deleted "s1", .deleted "s2",
        .issued ⟨"studio", some "ann"⟩ "s3", .resolved annChat false "s3" none] ∧
    ∀ before chat stale sessionId hermesSessionId after,
      w.log = before ++ .resolved chat stale sessionId hermesSessionId :: after →
        Separated before chat stale sessionId hermesSessionId := by
  have ends : ((concierge.restrict UniqueIds).run {} forgedTurns).map (·.log) = some
      [.issued ⟨"studio", some "ann"⟩ "s1", .resolved annChat false "s1" none,
        .bound ⟨"studio", some "ann"⟩ "s1" "h1",
        .issued ⟨"studio", some "bob"⟩ "s2", .resolved bobChat false "s2" none,
        .bound ⟨"studio", some "bob"⟩ "s2" "h2",
        .resolved annChat false "s1" (some "h1"), .deleted "s1", .deleted "s2",
        .issued ⟨"studio", some "ann"⟩ "s3", .resolved annChat false "s3" none] := by
    decide +kernel
  obtain ⟨w, runs, log⟩ := Option.map_eq_some_iff.mp ends
  have path := Machine.run_restrict_iff.mp runs
  exact ⟨w, path, log, visitors_separated path⟩

end AgentOs
