import AgentOs.Lib.Machine

/-!
Approval of proposals, abstractly.

A desk holds at most one proposal. It can be replaced while it is not granted,
granted, refused, and performed once granted. `performed_of_run` is what such a
desk is for: whatever is performed was granted, and the grant was for the very
proposal on the table.
-/

namespace AgentOs.Lib

/-- The proposal on the table, whether it is granted, and what has been granted
and performed so far. -/
structure Desk (α : Type) where
  table : Option α := none
  granted : Bool := false
  grants : List α := []
  performed : List α := []

namespace Desk

variable {α : Type}

inductive Act (α : Type) where
  | lay (a : α)
  | grant
  | refuse
  | perform

def machine (α : Type) : Machine (Desk α) (Act α) where
  step d act :=
    match act, d.table, d.granted with
    | .lay a, _, false => some { d with table := some a }
    | .grant, some a, _ => some { d with granted := true, grants := d.grants ++ [a] }
    | .refuse, _, _ => some { d with granted := false }
    | .perform, some a, true => some { d with performed := d.performed ++ [a] }
    | _, _, _ => none

/-- What is granted is on the table and was granted last; what was performed was
granted. -/
structure Sound (d : Desk α) : Prop where
  current : d.granted = true → d.table.isSome ∧ d.grants.getLast? = d.table
  past : ∀ a ∈ d.performed, a ∈ d.grants

theorem sound_step {d d' : Desk α} {act : Act α} (inv : Sound d)
    (h : (machine α).step d act = some d') : Sound d' := by
  dsimp only [machine] at h
  split at h <;> cases h
  · rename_i notGranted
    exact ⟨fun granted => by simp [notGranted] at granted, inv.past⟩
  · rename_i a onTable
    exact ⟨fun _ => by simp [onTable], fun b hb => List.mem_append_left _ (inv.past b hb)⟩
  · exact ⟨fun granted => by simp at granted, inv.past⟩
  · rename_i a onTable granted
    refine ⟨inv.current, fun b hb => ?_⟩
    rcases List.mem_append.mp hb with earlier | last
    · exact inv.past b earlier
    · rw [List.mem_singleton.mp last]
      exact List.mem_of_getLast? ((inv.current granted).2.trans onTable)

/-- **Nothing is performed that was not granted**, in any run from an empty
desk. -/
theorem performed_of_run {acts : List (Act α)} {d : Desk α}
    (h : Machine.Path (machine α) Machine.Free {} acts d) : ∀ a ∈ d.performed, a ∈ d.grants := by
  have start : Sound ({} : Desk α) :=
    { current := fun granted => (Bool.false_ne_true granted).elim
      past := fun _ mem => absurd mem List.not_mem_nil }
  exact (h.invariant (fun _ _ _ _ inv step => sound_step inv step) start).past

end Desk

end AgentOs.Lib
