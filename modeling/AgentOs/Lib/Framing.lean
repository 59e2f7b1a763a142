import Mathlib.Data.List.Basic

/-!
Pieces written one after another, each followed by a mark.

Such a stream gives its pieces back where no piece contains the mark
(`frame_inj`). A record is a name and a body: its body may contain the mark, so the
stream of records gives back the pieces between marks and no more
(`frameRecords_eq_iff`), and the records only where the bodies are known to contain
equally many marks (`eq_of_pieces`).
-/

namespace AgentOs.Lib

variable {α : Type*} (mark : α)

/-- Each piece, and the mark after it. -/
def frame (pieces : List (List α)) : List α := pieces.flatMap (· ++ [mark])

/-- Each record's name and body, and the mark after each. -/
def frameRecords (records : List (List α × List α)) : List α :=
  records.flatMap fun record => record.1 ++ [mark] ++ (record.2 ++ [mark])

/-- The names, and the stretches of the bodies between marks. -/
def recordPieces [DecidableEq α] (records : List (List α × List α)) : List (List α) :=
  records.flatMap fun record => record.1 :: record.2.splitOn mark

variable {mark}

@[simp] theorem frame_nil : frame mark [] = [] := rfl

@[simp] theorem frame_cons (piece : List α) (pieces : List (List α)) :
    frame mark (piece :: pieces) = piece ++ mark :: frame mark pieces := by
  simp [frame]

theorem frame_append (pieces pieces' : List (List α)) :
    frame mark (pieces ++ pieces') = frame mark pieces ++ frame mark pieces' :=
  List.flatMap_append

variable [DecidableEq α]

/-- A piece ends at the first mark. -/
theorem append_mark_inj {a b rest rest' : List α} (ha : mark ∉ a) (hb : mark ∉ b)
    (h : a ++ mark :: rest = b ++ mark :: rest') : a = b ∧ rest = rest' := by
  have first : (a ++ mark :: rest).splitOn mark = a :: rest.splitOn mark :=
    List.splitOn_append_cons_self_of_not_mem ha rest
  have second : (b ++ mark :: rest').splitOn mark = b :: rest'.splitOn mark :=
    List.splitOn_append_cons_self_of_not_mem hb rest'
  rw [h, second] at first
  have same : a = b := (List.cons.inj first).1.symm
  subst same
  exact ⟨rfl, (List.cons.inj (List.append_cancel_left h)).2⟩

/-- **Marked pieces are recovered.** -/
theorem frame_inj {pieces pieces' : List (List α)} (free : ∀ p ∈ pieces, mark ∉ p)
    (free' : ∀ p ∈ pieces', mark ∉ p) :
    frame mark pieces = frame mark pieces' ↔ pieces = pieces' := by
  refine ⟨?_, congrArg _⟩
  intro h
  induction pieces generalizing pieces' with
  | nil =>
      cases pieces' with
      | nil => rfl
      | cons piece' pieces' => simp at h
  | cons piece pieces ih =>
      cases pieces' with
      | nil => simp at h
      | cons piece' pieces' =>
          rw [frame_cons, frame_cons] at h
          obtain ⟨rfl, rest⟩ := append_mark_inj (free _ (List.mem_cons_self ..))
            (free' _ (List.mem_cons_self ..)) h
          rw [ih (fun p hp => free p (List.mem_cons_of_mem _ hp))
            (fun p hp => free' p (List.mem_cons_of_mem _ hp)) rest]

/-- Between marks there is no mark. -/
theorem mark_notMem_of_splitOn (body : List α) : ∀ piece ∈ body.splitOn mark, mark ∉ piece := by
  induction body with
  | nil => simp
  | cons a body ih =>
      rw [List.splitOn_cons_eq_if_modifyHead]
      obtain ⟨first, rest, cut⟩ := List.exists_cons_of_ne_nil (List.splitOn_ne_nil mark body)
      rw [cut] at ih ⊢
      split
      · rename_i isMark
        simpa using ih
      · rename_i other
        have ne : mark ≠ a := fun same => other (by simp [same])
        simpa [ne] using ih

/-- A body is its stretches. -/
theorem frame_splitOn (body : List α) : frame mark (body.splitOn mark) = body ++ [mark] := by
  induction body with
  | nil => simp
  | cons a body ih =>
      rw [List.splitOn_cons_eq_if_modifyHead]
      obtain ⟨first, rest, cut⟩ := List.exists_cons_of_ne_nil (List.splitOn_ne_nil mark body)
      rw [cut] at ih ⊢
      split
      · rename_i isMark
        simp only [frame_cons] at ih ⊢
        rw [ih, eq_of_beq isMark]
        rfl
      · simp only [List.modifyHead_cons, frame_cons, List.cons_append] at ih ⊢
        rw [ih]

theorem length_splitOn (body : List α) : (body.splitOn mark).length = body.count mark + 1 := by
  induction body with
  | nil => simp
  | cons a body ih =>
      rw [List.splitOn_cons_eq_if_modifyHead, List.count_cons]
      split <;> simp [ih]

theorem splitOn_inj {body body' : List α} (h : body.splitOn mark = body'.splitOn mark) :
    body = body' := by
  have pieces := congrArg ([mark].intercalate ·) h
  simpa only [List.intercalate_splitOn] using pieces

theorem frameRecords_eq_frame (records : List (List α × List α)) :
    frameRecords mark records = frame mark (recordPieces mark records) := by
  induction records with
  | nil => rfl
  | cons record records ih =>
      have body : frame mark (record.2.splitOn mark) = record.2 ++ [mark] := frame_splitOn _
      simp only [frameRecords, recordPieces, List.flatMap_cons] at ih ⊢
      rw [ih, frame_append, frame_cons, body]
      simp

theorem recordPieces_eq_nil {records : List (List α × List α)} :
    recordPieces mark records = [] ↔ records = [] := by
  cases records <;> simp [recordPieces]

/-- **What a stream of records says**: the pieces between its marks. -/
theorem frameRecords_eq_iff {records records' : List (List α × List α)}
    (named : ∀ r ∈ records, mark ∉ r.1) (named' : ∀ r ∈ records', mark ∉ r.1) :
    frameRecords mark records = frameRecords mark records' ↔
      recordPieces mark records = recordPieces mark records' := by
  have free : ∀ {rs : List (List α × List α)}, (∀ r ∈ rs, mark ∉ r.1) →
      ∀ p ∈ recordPieces mark rs, mark ∉ p := by
    intro rs named p mem
    obtain ⟨r, hr, hp⟩ := List.mem_flatMap.mp mem
    rcases List.mem_cons.mp hp with rfl | hp
    · exact named r hr
    · exact mark_notMem_of_splitOn _ p hp
  rw [frameRecords_eq_frame, frameRecords_eq_frame, frame_inj (free named) (free named')]

/-- Pieces are cut into records in one way where each body's marks are counted. -/
theorem eq_of_pieces {records records' : List (List α × List α)}
    (pieces : recordPieces mark records = recordPieces mark records')
    (cuts : records.map (·.2.count mark) = records'.map (·.2.count mark)) :
    records = records' := by
  induction records generalizing records' with
  | nil =>
      cases records' with
      | nil => rfl
      | cons record' records' => cases cuts
  | cons record records ih =>
      cases records' with
      | nil => cases cuts
      | cons record' records' =>
          obtain ⟨count, cuts⟩ := List.cons.inj cuts
          dsimp only at count
          simp only [recordPieces, List.flatMap_cons, List.cons_append] at pieces
          obtain ⟨name, pieces⟩ := List.cons.inj pieces
          obtain ⟨body, rest⟩ := List.append_inj pieces (by
            rw [length_splitOn, length_splitOn, count])
          rw [ih rest cuts, Prod.ext name (splitOn_inj body)]

/-- Bodies without marks are pieces. -/
theorem eq_of_pieces_of_clean {records records' : List (List α × List α)}
    (clean : ∀ r ∈ records, mark ∉ r.2) (clean' : ∀ r ∈ records', mark ∉ r.2)
    (pieces : recordPieces mark records = recordPieces mark records') : records = records' := by
  have cut : ∀ {rs : List (List α × List α)}, (∀ r ∈ rs, mark ∉ r.2) →
      recordPieces mark rs = rs.flatMap fun r => [r.1, r.2] := by
    intro rs clean
    refine List.flatMap_congr fun r hr => ?_
    rw [List.splitOn_eq_singleton (clean r hr)]
  rw [cut clean, cut clean'] at pieces
  clear cut clean clean'
  induction records generalizing records' with
  | nil =>
      cases records' with
      | nil => rfl
      | cons record' records' => cases pieces
  | cons record records ih =>
      cases records' with
      | nil => cases pieces
      | cons record' records' =>
          obtain ⟨name, pieces⟩ := List.cons.inj pieces
          obtain ⟨body, rest⟩ := List.cons.inj pieces
          rw [ih rest, Prod.ext name body]

end AgentOs.Lib
