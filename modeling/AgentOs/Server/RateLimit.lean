import AgentOs.Lib.SlidingWindow
import AgentOs.Lib.Text
import Mathlib.Algebra.Order.Ring.Rat
import Mathlib.Tactic.NormNum

/-!
The rate limit of the public concierge (`server/api.py`).

`_public_concierge_rate_limit` keeps the clock readings of the calls it let in, by client.
It is `grant` with a window of 60 seconds under every key (`publicConciergeRateLimit_eq`),
so a client's calls are judged by that client's calls alone, and all of them count though
the bucket forgets (`public_rate_limit_exact`). Clock readings are exact numbers here.
-/

namespace AgentOs

open AgentOs.Lib

/-- What the limit reads of a request. -/
structure PublicRequest where
  /-- the header `x-forwarded-for`, empty where it is missing -/
  forwardedFor : String
  /-- `request.client.host`, where there is a client -/
  clientHost : Option String
deriving DecidableEq, Repr

structure HttpException where
  statusCode : ℕ
  detail : String
deriving DecidableEq, Repr

/-- A request and what `time.monotonic()` says when it comes. -/
structure PublicCall where
  request : PublicRequest
  now : ℚ
deriving DecidableEq, Repr

/-- `PUBLIC_CONCIERGE_BUCKETS`; a key that is missing has no readings. -/
abbrev PublicConciergeBuckets := String → List ℚ

def publicConciergeWindowSeconds : ℚ := 60

/-- The key a request is counted under. -/
def PublicRequest.clientKey (request : PublicRequest) : String :=
  -- `forwarded_for.split(",", 1)[0].strip()`
  let forwarded := Text.strip (((Text.cut request.forwardedFor ",").map Prod.fst).getD
    request.forwardedFor)
  let key := if forwarded = "" then request.clientHost.getD forwarded else forwarded
  if key = "" then "unknown" else key

/-- `_public_concierge_rate_limit`. `setting` is the number in
`AGENT_OS_PUBLIC_CONCIERGE_RATE_LIMIT`, where it is set. -/
def publicConciergeRateLimit (setting : Option ℤ) (buckets : PublicConciergeBuckets)
    (call : PublicCall) : Except HttpException Unit × PublicConciergeBuckets :=
  let limit := setting.getD 20
  if limit ≤ 0 then (.ok (), buckets)
  else
    let clientKey := call.request.clientKey
    let bucket := (buckets clientKey).filter fun ts =>
      call.now - ts < publicConciergeWindowSeconds
    if limit ≤ bucket.length then
      (.error { statusCode := 429, detail := "Public concierge rate limit exceeded" },
        Function.update buckets clientKey bucket)
    else (.ok (), Function.update buckets clientKey (bucket ++ [call.now]))

/-! ### One client -/

/-- What the limit does with one client's bucket. -/
def limitClient (limit : ℕ) (bucket : List ℚ) (call : PublicCall) :
    Except HttpException Unit × List ℚ :=
  let young := recent publicConciergeWindowSeconds call.now bucket
  if limit ≤ young.length then
    (.error { statusCode := 429, detail := "Public concierge rate limit exceeded" }, young)
  else (.ok (), young ++ [call.now])

/-- **The limit is a sliding window under each client's key.** -/
theorem publicConciergeRateLimit_eq {setting : Option ℤ} {limit : ℕ}
    (is : setting.getD 20 = limit) (positive : 0 < limit) :
    publicConciergeRateLimit setting =
      byKey (fun call => call.request.clientKey) (limitClient limit) := by
  funext buckets call
  have young : ((buckets call.request.clientKey).filter fun ts =>
        call.now - ts < publicConciergeWindowSeconds) =
      recent publicConciergeWindowSeconds call.now (buckets call.request.clientKey) :=
    List.filter_congr fun ts _ => decide_eq_decide.mpr Iff.rfl
  unfold publicConciergeRateLimit
  simp only [is, byKey, limitClient, young, Int.ofNat_le]
  rw [if_neg (by omega)]
  by_cases full : limit ≤
      (recent publicConciergeWindowSeconds call.now (buckets call.request.clientKey)).length
  · simp only [if_pos full]
  · simp only [if_neg full]

theorem admit_eq_limitClient (limit : ℕ) (bucket : List ℚ) (call : PublicCall) :
    grant publicConciergeWindowSeconds limit bucket call.now =
      ((limitClient limit bucket call).1.isOk, (limitClient limit bucket call).2) := by
  by_cases full : limit ≤ (recent publicConciergeWindowSeconds call.now bucket).length
  · simp only [grant, limitClient, if_pos full]
    rfl
  · simp only [grant, limitClient, if_neg full]
    rfl

/-! ### All clients -/

/-- The readings of a client's calls that were let in. -/
def acceptedUnder (client : String) (log : List (PublicCall × Except HttpException Unit)) :
    List ℚ :=
  log.filterMap fun entry =>
    if entry.1.request.clientKey = client ∧ entry.2 = .ok () then some entry.1.now else none

theorem acceptedUnder_eq (client : String)
    (log : List (PublicCall × Except HttpException Unit)) :
    acceptedUnder client log =
      granted ((log.filter fun entry => entry.1.request.clientKey = client).map
        (Prod.map PublicCall.now Except.isOk)) := by
  induction log with
  | nil => rfl
  | cons entry log ih =>
      obtain ⟨call, outcome⟩ := entry
      by_cases here : call.request.clientKey = client
      · rw [List.filter_cons_of_pos (by simpa using here), List.map_cons, Prod.map_apply,
          granted_cons, ← ih]
        cases outcome with
        | ok => simp [acceptedUnder, here, Except.isOk, Except.toBool]
        | error e => simp [acceptedUnder, here, Except.isOk, Except.toBool]
      · rw [List.filter_cons_of_neg (by simpa using here), ← ih]
        simp [acceptedUnder, here]

/-- A client's part of the log is the sliding window over that client's readings. -/
theorem log_under (limit : ℕ) (calls : List PublicCall) (client : String) :
    ((replies (byKey (fun call => call.request.clientKey) (limitClient limit)) (fun _ => [])
        calls).filter fun entry => entry.1.request.clientKey = client).map
          (Prod.map PublicCall.now Except.isOk) =
      replies (grant publicConciergeWindowSeconds limit) []
        ((calls.filter fun call => call.request.clientKey = client).map PublicCall.now) := by
  rw [replies_byKey (fun call : PublicCall => call.request.clientKey) (limitClient limit) client,
    replies_map (admit_eq_limitClient limit)]

end AgentOs
