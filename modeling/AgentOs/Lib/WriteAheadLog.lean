import Mathlib.Logic.Function.Basic
import Mathlib.Data.List.Basic

/-!
Pages with a write-ahead log.

A reader sees the pages of the main file under the frames of the log. A checkpoint moves frames
to the main file, which a reader does not notice (`replay_moved`, `replay_some_pages`).
-/

namespace AgentOs.Lib.WriteAheadLog

/-- A page as a transaction leaves it; none where the file ends before it. -/
structure Frame (P : Type) where
  page : ℕ
  content : Option P
deriving DecidableEq, Repr

/-- The transactions that are committed, in turn. -/
abbrev Log (P : Type) := List (List (Frame P))

section

variable {P : Type}

def write (pages : ℕ → Option P) (f : Frame P) : ℕ → Option P :=
  Function.update pages f.page f.content

def replayFrames (frames : List (Frame P)) (pages : ℕ → Option P) : ℕ → Option P :=
  frames.foldl write pages

/-- What a reader sees. -/
def replay (log : Log P) (pages : ℕ → Option P) : ℕ → Option P := replayFrames log.flatten pages

variable {frames : List (Frame P)} {log : Log P} {pages pages' : ℕ → Option P} {n : ℕ}

@[simp]
theorem replay_nil : replay [] pages = pages := rfl

/-- A page without a frame stays. -/
theorem replayFrames_of_not_mem (unwritten : n ∉ frames.map Frame.page) :
    replayFrames frames pages n = pages n := by
  induction frames generalizing pages with
  | nil => rfl
  | cons f frames ih =>
      rw [List.map_cons, List.mem_cons, not_or] at unwritten
      obtain ⟨other, unwritten⟩ := unwritten
      have further : replayFrames (f :: frames) pages n = replayFrames frames (write pages f) n :=
        rfl
      rw [further, ih unwritten, write, Function.update_of_ne other]

/-- A page with a frame does not depend on what was there. -/
theorem replayFrames_congr (same : n ∉ frames.map Frame.page → pages n = pages' n) :
    replayFrames frames pages n = replayFrames frames pages' n := by
  induction frames generalizing pages pages' with
  | nil => exact same List.not_mem_nil
  | cons f frames ih =>
      have further : n ∉ frames.map Frame.page → write pages f n = write pages' f n := ?_
      · exact ih further
      intro unwritten
      by_cases hit : n = f.page
      · subst hit
        rw [write, write, Function.update_self, Function.update_self]
      · rw [write, write, Function.update_of_ne hit, Function.update_of_ne hit]
        exact same fun mem => (List.mem_cons.mp mem).elim hit unwritten

/-- **A reader does not notice pages that the main file has from the log already**, whichever
these are. -/
theorem replay_some_pages (moved : ℕ → Bool) :
    replay log (fun n => if moved n then replay log pages n else pages n) = replay log pages := by
  funext n
  refine replayFrames_congr fun unwritten => ?_
  rw [replay, replayFrames_of_not_mem unwritten, ite_self]

/-- **A reader does not notice that the first transactions were moved.** -/
theorem replay_moved (k : ℕ) : replay log (replay (log.take k) pages) = replay log pages := by
  funext n
  refine replayFrames_congr fun unwritten => ?_
  refine replayFrames_of_not_mem fun mem => unwritten ?_
  obtain ⟨f, inFirst, rfl⟩ := List.mem_map.mp mem
  obtain ⟨txn, taken, inTxn⟩ := List.mem_flatten.mp inFirst
  exact List.mem_map_of_mem (List.mem_flatten.mpr ⟨txn, List.mem_of_mem_take taken, inTxn⟩)

end

end AgentOs.Lib.WriteAheadLog
