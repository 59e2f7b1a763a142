import AgentOs.Lib.SlidingWindow

/-!
Services of which an observer sees a part.

A call is of one observer's, or it may matter to that observer, or it does not. Where states are
related that look the same to the observer, and what does not matter leaves the relation,
`replies_purge` says that the observer gets the replies that it gets without the calls that do
not matter. Of a table with distinct keys the observer may see some rows: `find?_seen` is what it
finds, and `map_unseen` is a change that it does not see.
-/

namespace AgentOs.Lib

universe u v w

variable {σ : Type u} {κ ρ : Type w}

/-- What a state looks like to an observer. -/
structure Viewed (answer : σ → κ → ρ × σ) (ok : σ → κ → Prop) (keep seen : κ → Bool)
    (R : σ → σ → Prop) : Prop where
  seen_keep : ∀ call, seen call = true → keep call = true
  /-- a call that may matter is answered alike -/
  kept : ∀ {s t call}, R s t → ok s call → keep call = true →
    (seen call = true → (answer s call).1 = (answer t call).1) ∧
      R (answer s call).2 (answer t call).2
  /-- another call changes nothing that is seen -/
  dropped : ∀ {s t call}, R s t → ok s call → keep call = false → R (answer s call).2 t

/-- **What does not matter can be left out.** -/
theorem replies_purge {answer : σ → κ → ρ × σ} {ok : σ → κ → Prop} {keep seen : κ → Bool}
    {R : σ → σ → Prop} (view : Viewed answer ok keep seen R) {s t : σ} {calls : List κ}
    (related : R s t) (meets : Throughout answer ok s calls) :
    (replies answer s calls).filter (fun entry => seen entry.1) =
      (replies answer t (calls.filter keep)).filter fun entry => seen entry.1 := by
  induction calls generalizing s t with
  | nil => rfl
  | cons call calls ih =>
      rw [replies_cons]
      cases kept : keep call with
      | true =>
          obtain ⟨same, after⟩ := view.kept related meets.1 kept
          rw [List.filter_cons_of_pos kept, replies_cons]
          cases looks : seen call with
          | true =>
              rw [List.filter_cons_of_pos (by simpa using looks),
                List.filter_cons_of_pos (by simpa using looks), same looks, ih after meets.2]
          | false =>
              rw [List.filter_cons_of_neg (by simp [looks]),
                List.filter_cons_of_neg (by simp [looks]), ih after meets.2]
      | false =>
          have unseen : ¬ seen call = true := fun looks => by
            rw [view.seen_keep call looks] at kept
            cases kept
          rw [List.filter_cons_of_neg (by simpa using unseen), List.filter_cons_of_neg (by simp [kept]),
            ih (view.dropped related meets.1 kept) meets.2]

/-! ### Tables -/

section Tables

variable {α : Type u} {K : Type v} [DecidableEq K] {key : α → K} {p : α → Bool} {rows : List α}
  {k : K}

/-- The row of a key is found where it is seen. -/
theorem find?_seen (distinct : (rows.map key).Nodup) :
    (rows.filter p).find? (key · = k) = (rows.find? (key · = k)).filter p := by
  induction rows with
  | nil => rfl
  | cons row rows ih =>
      rw [List.map_cons, List.nodup_cons] at distinct
      have rest := ih distinct.2
      by_cases here : key row = k
      · rw [List.find?_cons_of_pos (by simpa using here), Option.filter_some]
        cases looks : p row with
        | true =>
            rw [List.filter_cons_of_pos looks, List.find?_cons_of_pos (by simpa using here),
              if_pos rfl]
        | false =>
            have other : rows.find? (key · = k) = none := by
              rw [List.find?_eq_none]
              intro other mem same
              refine distinct.1 (List.mem_map.mpr ⟨other, mem, ?_⟩)
              rw [here, of_decide_eq_true same]
            rw [List.filter_cons_of_neg (Bool.eq_false_iff.mp looks), rest, other,
              if_neg Bool.false_ne_true]
            rfl
      · rw [List.find?_cons_of_neg (by simpa using here), ← rest]
        cases looks : p row with
        | true =>
            rw [List.filter_cons_of_pos looks, List.find?_cons_of_neg (by simpa using here)]
        | false => rw [List.filter_cons_of_neg (Bool.eq_false_iff.mp looks)]

omit [DecidableEq K] in
/-- A change of a row that is not seen is not seen. -/
theorem map_unseen {f : α → α} (unseen : ∀ row ∈ rows, key row = k → p row = false)
    (others : ∀ row, key row ≠ k → f row = row) (same : ∀ row, p (f row) = p row) :
    (rows.map f).filter p = rows.filter p := by
  have seen : p ∘ f = p := funext same
  rw [List.filter_map, seen]
  refine (List.map_congr_left fun row mem => ?_).trans (List.map_id _)
  obtain ⟨mem, looks⟩ := List.mem_filter.mp mem
  refine others row fun here => ?_
  rw [unseen row mem here] at looks
  cases looks

end Tables

end AgentOs.Lib
