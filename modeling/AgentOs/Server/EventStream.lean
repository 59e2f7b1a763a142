import AgentOs.Lib.Machine
import AgentOs.Runs.Ledger

/-!
The event stream of a run (`get_run_events`, `server/api.py`).

The generator reads the events after its cursor, hands them out one by one, and
then looks at the status: a terminal one ends the stream. Writers act between
any two of these steps. `FeedInv` is the invariant: what was handed out, with
what is still buffered, is the part after the cursor of the log as it was last
read.

`stream_lossless_iff` compares that with the events that were there when the
status became terminal: they agree exactly if no event after the cursor was
written between the last read and that moment, in either order.
-/

namespace AgentOs

open AgentOs.Lib

/-- Where the generator stands. -/
inductive StreamPhase where
  /-- next it reads the events -/
  | list
  /-- next it hands out an event -/
  | deliver
  /-- next it looks at the status -/
  | check
  /-- it sent `end` when the status had become terminal with these events in the
  log -/
  | ended (terminal : List RunEvent)

/-- `event_stream`. The first pass of reading and handing out is not followed by a
look at the status (`polled`). -/
structure EventStream where
  after : Int
  lastSeq : Int
  phase : StreamPhase := .list
  polled : Bool := false
  buffer : List RunEvent := []
  delivered : List RunEvent := []
  /-- the log when it was last read -/
  read : List RunEvent := []

/-- A run's ledger, the log as it was when the status last became terminal, and a
stream. -/
structure Feed where
  record : RunRecord
  terminal : Option (List RunEvent) := none
  stream : Option EventStream := none

namespace EventStream

/-- What comes next: an event while one is buffered, and otherwise another read or
a look at the status. -/
def settle (s : EventStream) : EventStream :=
  { s with
    phase := if s.buffer = [] then (if s.polled then .check else .list) else .deliver
    polled := s.polled || s.buffer = [] }

/-- `list_events(run_id, after=last_seq)`. -/
def list (s : EventStream) (r : RunRecord) : EventStream :=
  settle { s with buffer := r.listEvents s.lastSeq, read := r.events }

/-- `last_seq = event["seq"]` and the `yield`. -/
def deliver (s : EventStream) (e : RunEvent) (rest : List RunEvent) : EventStream :=
  settle { s with lastSeq := e.seq, buffer := rest, delivered := s.delivered ++ [e] }

end EventStream

/-- Steps of the writers and of the stream. -/
inductive FeedStep where
  | write (call : LedgerCall)
  | subscribe (after : Int)
  | list
  | deliver
  | check

/-- The log at the moment the status became terminal, after a write. -/
def terminalAfter (f : Feed) (call : LedgerCall) : Option (List RunEvent) :=
  if (f.record.apply call).ended then
    if f.record.ended then f.terminal else some f.record.events
  else none

/-- One run, its writers and a stream of its events. -/
def feedMachine : Machine Feed FeedStep where
  step f l :=
    match l, f.stream with
    | .write call, _ =>
        some { f with record := f.record.apply call, terminal := terminalAfter f call }
    | .subscribe after, none =>
        if f.record.row.isSome then some { f with stream := some { after, lastSeq := after } }
        else none
    | .list, some s =>
        match s.phase with
        | .list => some { f with stream := some (s.list f.record) }
        | _ => none
    | .deliver, some s =>
        match s.phase, s.buffer with
        | .deliver, e :: rest => some { f with stream := some (s.deliver e rest) }
        | _, _ => none
    | .check, some s =>
        match s.phase with
        | .check =>
            if f.record.row.isNone || f.record.ended then
              some { f with stream := some { s with phase := .ended (f.terminal.getD []) } }
            else some { f with stream := some { s with phase := .list } }
        | _ => none
    | _, _ => none

/-! ### The invariant -/

/-- The log as last read, its part after the cursor, and how much of it was handed
out. -/
structure StreamInv (r : RunRecord) (s : EventStream) : Prop where
  seen : s.read <+: r.events
  account : s.delivered ++ s.buffer = s.read.drop s.after.toNat
  cursor : s.lastSeq.toNat = s.after.toNat + s.delivered.length
  /-- between reads the buffer is empty -/
  drained : s.phase ≠ .deliver → s.buffer = []

structure FeedInv (f : Feed) : Prop where
  numbered : f.record.Numbered
  stream : ∀ s, f.stream = some s → StreamInv f.record s

section Steps

variable {r : RunRecord} {s : EventStream}

/-- After a read or a hand-out the stream delivers as long as something is
buffered. -/
theorem settle_drained (h : s.settle.phase ≠ .deliver) : s.settle.buffer = [] := by
  by_contra buffered
  exact h (if_neg buffered)

/-- Reading buffers what is in the log after what was handed out. -/
theorem streamInv_list (inv : StreamInv r s) (numbered : r.Numbered) (drained : s.buffer = []) :
    StreamInv r (s.list r) where
  seen := List.prefix_rfl
  account := by
    change s.delivered ++ r.listEvents s.lastSeq = r.events.drop s.after.toNat
    have handed : s.delivered = s.read.drop s.after.toNat := by
      simpa [drained] using inv.account
    have early : s.delivered <+: r.events.drop s.after.toNat := by
      obtain ⟨late, whole⟩ := inv.seen
      rw [handed, ← whole]
      exact List.drop_append .. ▸ List.prefix_append _ _
    rw [RunRecord.listEvents_eq_drop numbered, inv.cursor, ← List.drop_drop]
    exact (List.prefix_iff_eq_append.mp early)
  cursor := inv.cursor
  drained := settle_drained

/-- Handing out an event moves the cursor to its number. -/
theorem streamInv_deliver (inv : StreamInv r s) (numbered : r.Numbered) {e : RunEvent}
    {rest : List RunEvent} (buffer : s.buffer = e :: rest) : StreamInv r (s.deliver e rest) where
  seen := inv.seen
  account := by
    change (s.delivered ++ [e]) ++ rest = s.read.drop s.after.toNat
    rw [← inv.account, buffer, List.append_assoc, List.singleton_append]
  cursor := by
    have account := inv.account
    rw [buffer] at account
    have place : s.read[s.after.toNat + s.delivered.length]? = some e := by
      rw [← List.getElem?_drop, ← account]
      simp
    obtain ⟨inside, here⟩ := List.getElem?_eq_some_iff.mp place
    have number := (numbered.events.of_prefix inv.seen).seq_getElem inside
    rw [here] at number
    change (e.seq : Int).toNat = s.after.toNat + (s.delivered ++ [e]).length
    rw [List.length_append, List.length_singleton, number]
    omega
  drained := settle_drained

/-- A write leaves the invariant of a stream. -/
theorem streamInv_write (inv : StreamInv r s) (call : LedgerCall) :
    StreamInv (r.apply call) s where
  seen := by
    rcases RunRecord.apply_events (r := r) call with same | ⟨e, -, more⟩
    · exact same ▸ inv.seen
    · exact inv.seen.trans (more ▸ List.prefix_append _ _)
  account := inv.account
  cursor := inv.cursor
  drained := inv.drained

/-- **Step lemma.** -/
theorem feedInv_step {f f' : Feed} (inv : FeedInv f) {l : FeedStep}
    (step : feedMachine.step f l = some f') : FeedInv f' := by
  cases l with
  | write call =>
      cases step
      exact ⟨inv.numbered.apply call, fun s h => streamInv_write (inv.stream s h) call⟩
  | subscribe after =>
      cases stream : f.stream with
      | some s => simp [feedMachine, stream] at step
      | none =>
          simp only [feedMachine, stream] at step
          split at step
          · cases step
            refine ⟨inv.numbered, fun s h => ?_⟩
            cases h
            exact ⟨List.nil_prefix, by simp, by simp, fun _ => rfl⟩
          · cases step
  | list =>
      cases stream : f.stream with
      | none => simp [feedMachine, stream] at step
      | some s =>
          simp only [feedMachine, stream] at step
          split at step
          · rename_i phase
            cases step
            have streamInv := inv.stream s stream
            refine ⟨inv.numbered, fun s' h => ?_⟩
            cases h
            exact streamInv_list streamInv inv.numbered (streamInv.drained (by rw [phase]; nofun))
          · cases step
  | deliver =>
      cases stream : f.stream with
      | none => simp [feedMachine, stream] at step
      | some s =>
          simp only [feedMachine, stream] at step
          split at step
          · rename_i phase buffer
            cases step
            refine ⟨inv.numbered, fun s' h => ?_⟩
            cases h
            exact streamInv_deliver (inv.stream s stream) inv.numbered buffer
          · cases step
  | check =>
      cases stream : f.stream with
      | none => simp [feedMachine, stream] at step
      | some s =>
          simp only [feedMachine, stream] at step
          split at step
          · rename_i phase
            have streamInv := inv.stream s stream
            have empty : s.buffer = [] := streamInv.drained (by rw [phase]; nofun)
            split at step <;> cases step <;> refine ⟨inv.numbered, fun s' h => ?_⟩ <;> cases h <;>
              exact ⟨streamInv.seen, streamInv.account, streamInv.cursor, fun _ => empty⟩
          · cases step

end Steps

/-! ### Lossless streams -/

/-- The stream handed out exactly the events after its cursor that were there when
the status became terminal, in increasing order, each once. -/
structure Lossless (s : EventStream) (terminal : List RunEvent) : Prop where
  exact : ∀ e, e ∈ s.delivered ↔ e ∈ terminal ∧ s.after < e.seq
  increasing : s.delivered.Pairwise fun a b => a.seq < b.seq

/-- A run that was just created. -/
def createdFeed (threadId : String) (workspace task : Option String) : Feed where
  record := RunRecord.createRun threadId workspace task none none

/-- **The stream loses nothing exactly if the log after the cursor was the same
when it was last read and when the status became terminal.** For every order of
writes and steps of the stream. -/
theorem stream_lossless_iff {threadId : String} {workspace task : Option String}
    {steps : List FeedStep} {f : Feed} {s : EventStream} {terminal : List RunEvent}
    (run : Machine.Path feedMachine Machine.Free (createdFeed threadId workspace task) steps f)
    (stream : f.stream = some s) (ended : s.phase = .ended terminal) :
    Lossless s terminal ↔
      ∀ e : RunEvent, s.after < e.seq → (e ∈ s.read ↔ e ∈ terminal) := by
  have inv : FeedInv f := run.invariant (fun _ _ _ _ inv step => feedInv_step inv step)
    ⟨⟨numbered_nil, numbered_nil⟩, nofun⟩
  have streamInv := inv.stream s stream
  have numbered := inv.numbered.events.of_prefix streamInv.seen
  have delivered : s.delivered = s.read.filter fun e => s.after < (e.seq : Int) := by
    rw [filter_after numbered, ← streamInv.account,
      streamInv.drained (by rw [ended]; nofun), List.append_nil]
  have handed : ∀ e, e ∈ s.delivered ↔ e ∈ s.read ∧ s.after < e.seq := by
    intro e
    rw [delivered, List.mem_filter, decide_eq_true_iff]
  constructor
  · intro lossless e later
    have same := (handed e).symm.trans (lossless.exact e)
    simpa [later] using same
  · intro same
    refine ⟨fun e => (handed e).trans ?_, ?_⟩
    · exact and_congr_left fun later => same e later
    · rw [delivered]
      exact numbered.pairwise.filter _

/-! ### Two orders -/

/-- What the runner writes at the end of a run. -/
def resultWritten : List FeedStep :=
  [.write (.appendEvent "result" (.obj []))]

def completedWritten : List FeedStep :=
  [.write (.setStatus .completed none true)]

/-- The stream that reads once more after the result is written hands it out. -/
theorem stream_lossless_iff_sample :
    ∃ f s, feedMachine.run (createdFeed "thread" none none)
        ([.subscribe 0, .list, .list] ++ resultWritten ++ [.check, .list, .deliver] ++
          completedWritten ++ [.check]) = some f ∧
      f.stream = some s ∧ s.delivered.length = 1 ∧ Lossless s s.read := by
  have reached : ∃ f s, feedMachine.run (createdFeed "thread" none none)
        ([.subscribe 0, .list, .list] ++ resultWritten ++ [.check, .list, .deliver] ++
          completedWritten ++ [.check]) = some f ∧
      f.stream = some s ∧ s.delivered.length = 1 ∧ s.phase = .ended s.read :=
    ⟨_, _, rfl, rfl, rfl, rfl⟩
  obtain ⟨f, s, run, stream, one, ended⟩ := reached
  exact ⟨f, s, run, stream, one, (stream_lossless_iff (Machine.run_eq_some_iff.mp run) stream
    ended).mpr fun _ _ => Iff.rfl⟩

/-- The runner writes the result and the status between the last read and the look
at the status: the stream ends without the result. -/
theorem result_lost :
    ∃ f s terminal, feedMachine.run (createdFeed "thread" none none)
        ([.subscribe 0, .list, .list] ++ resultWritten ++ completedWritten ++ [.check]) = some f ∧
      f.stream = some s ∧ s.phase = .ended terminal ∧ s.delivered = [] ∧
      terminal = [⟨1, "result", .obj []⟩] ∧ ¬ Lossless s terminal := by
  refine ⟨_, _, _, rfl, rfl, rfl, rfl, rfl, fun lossless => ?_⟩
  have handed := (lossless.exact ⟨1, "result", .obj []⟩).mpr
    ⟨List.mem_singleton_self _, by decide⟩
  cases handed

end AgentOs
