import AgentOs.Lib.Text
import AgentOs.Lib.Timestamps

/-!
Sessions of the public concierge (`public_concierge.py`).

A request resolves its browser token: sessions last used before the cutoff are
deleted, then the token finds a session of the same tenant and visitor, or a new
session is made. `updated_at` is compared as text by the deletion and as a time by
the second check.
-/

namespace AgentOs

open AgentOs.Lib

/-- A row of `public_concierge_sessions`. -/
structure PublicSession where
  sessionId : String
  tenantId : String
  visitorId : Option String
  hermesSessionId : Option String := none
  createdAt : UtcDateTime
  updatedAt : UtcDateTime
deriving DecidableEq, Repr

/-- What a chat request says about itself. -/
structure PublicChatIdentity where
  sessionId : Option String
  visitorId : Option String
deriving DecidableEq, Repr

/-- `_session_ttl_seconds`, of the environment's number where it is one. -/
def sessionTtlSeconds (configured : Option ℤ) : ℤ :=
  match configured with
  | none => 86400
  | some value => min 604800 (max 300 value)

/-- `DELETE … WHERE updated_at < ?`. -/
def deleteExpired (cutoff : String) (sessions : List PublicSession) : List PublicSession :=
  sessions.filter fun session => ¬TextLt session.updatedAt.isoformat cutoff

/-- The session a token of a visitor finds, while it is alive. -/
def liveSession (tenantId requested visitorId : String) (now : UtcDateTime) (ttl : ℤ)
    (sessions : List PublicSession) : Option PublicSession :=
  (sessions.find? fun row => row.sessionId = requested ∧ row.tenantId = tenantId).bind fun row =>
    if row.visitorId = some visitorId ∧ now.sub row.updatedAt ≤ ttl * 1000000 then some row
    else none

/-- `str(value or "").strip()`. -/
def given (value : Option String) : String := Text.strip (value.getD "")

/-- `resolve_public_session`, with the id `uuid4` draws. -/
def resolvePublicSession (tenantId : String) (request : PublicChatIdentity) (now : UtcDateTime)
    (configuredTtl : Option ℤ) (sessionId : String) (sessions : List PublicSession) :
    Except String (String × Option String) × List PublicSession :=
  let ttl := sessionTtlSeconds configuredTtl
  match now.add (-(ttl * 1000000)) with
  | .error e => (.error e, sessions)
  | .ok cutoff =>
      let sessions := deleteExpired cutoff.isoformat sessions
      let requested := given request.sessionId
      let visitorId := given request.visitorId
      let found := if requested ≠ "" ∧ visitorId ≠ "" then
        liveSession tenantId requested visitorId now ttl sessions else none
      match found with
      | some row => (.ok (row.sessionId, row.hermesSessionId), sessions)
      | none =>
          if sessionId ∈ sessions.map (·.sessionId) then
            (.error "UNIQUE constraint failed: public_concierge_sessions.session_id", sessions)
          else
            (.ok (sessionId, none), sessions ++
              [{ sessionId, tenantId, visitorId := if visitorId = "" then none else some visitorId,
                 createdAt := now, updatedAt := now }])

/-- **The deletion by text deletes what is older than the cutoff.** -/
theorem deleteExpired_isoformat (cutoff : UtcDateTime) (sessions : List PublicSession) :
    deleteExpired cutoff.isoformat sessions =
      sessions.filter fun session => cutoff ≤ session.updatedAt := by
  unfold deleteExpired
  apply List.filter_congr
  intro session _
  simp [UtcDateTime.isoformat_lt_iff]

/-- What the deletion keeps passes the second check of the same request. -/
theorem alive_of_kept {now cutoff : UtcDateTime} {ttl : ℤ} {sessions : List PublicSession}
    {row : PublicSession} (cut : now.add (-(ttl * 1000000)) = .ok cutoff)
    (kept : row ∈ deleteExpired cutoff.isoformat sessions) :
    now.sub row.updatedAt ≤ ttl * 1000000 := by
  rw [deleteExpired_isoformat] at kept
  have recent : cutoff ≤ row.updatedAt := by simpa using (List.mem_filter.mp kept).2
  have offset := UtcDateTime.add_eq_ok_iff.mp cut
  rw [UtcDateTime.le_iff_instant] at recent
  unfold UtcDateTime.sub
  omega

end AgentOs
