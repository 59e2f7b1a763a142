import AgentOs.Lib.Json
import Mathlib.Data.List.Forall2

/-!
The members of an object, and setting one of them.

`AgreeBut` compares two lists of members with the same keys but at some keys. Setting a member is
what takes a key out of the comparison (`agreeBut_of_setField`, `AgreeBut.setField`).
-/

namespace AgentOs.Lib.Json

/-- Two lists of members have the same keys, and the same values but at some keys. -/
def AgreeBut (keys : List String) (fields others : List (String × Json)) : Prop :=
  List.Forall₂ (fun p q => p.1 = q.1 ∧ (p.1 ∈ keys ∨ p.2 = q.2)) fields others

/-- A member is there, with one value. -/
def HasMember (fields : List (String × Json)) (key : String) (value : Json) : Prop :=
  key ∈ fields.map Prod.fst ∧ ∀ p ∈ fields, p.1 = key → p.2 = value

variable {fields others : List (String × Json)} {keys : List String} {key key' : String}
  {value value' : Json}

theorem any_key_iff : fields.any (·.1 == key) = true ↔ key ∈ fields.map Prod.fst := by
  rw [List.any_eq_true, List.mem_map]
  exact exists_congr fun p => and_congr_right fun _ => beq_iff_eq

/-- A member that is there is replaced. -/
theorem setField_mem (mem : key ∈ fields.map Prod.fst) : setField fields key value =
    fields.map fun p => if p.1 == key then (key, value) else p := by
  rw [setField, if_pos (any_key_iff.mpr mem)]

/-- A new member stands behind the others. -/
theorem setField_not_mem (new : key ∉ fields.map Prod.fst) :
    setField fields key value = fields ++ [(key, value)] := by
  rw [setField, if_neg fun there => new (any_key_iff.mp there)]

theorem AgreeBut.keys_eq (agree : AgreeBut keys fields others) :
    fields.map Prod.fst = others.map Prod.fst := by
  induction agree with
  | nil => rfl
  | cons same _ ih => rw [List.map_cons, List.map_cons, same.1, ih]

theorem agreeBut_refl : AgreeBut keys fields fields := by
  induction fields with
  | nil => exact .nil
  | cons p fields ih => exact .cons ⟨rfl, .inr rfl⟩ ih

theorem agreeBut_nil : AgreeBut [] fields others ↔ fields = others := by
  constructor
  · intro agree
    induction agree with
    | nil => rfl
    | @cons p q _ _ same _ ih =>
        rw [Prod.ext same.1 (same.2.resolve_left List.not_mem_nil), ih]
  · rintro rfl
    exact agreeBut_refl

/-- Members that are made of the same ones. -/
theorem agreeBut_map {f g : String × Json → Json} :
    AgreeBut keys (fields.map fun p => (p.1, f p)) (fields.map fun p => (p.1, g p)) ↔
      ∀ p ∈ fields, p.1 ∉ keys → f p = g p := by
  induction fields with
  | nil => exact ⟨fun _ _ mem => (by cases mem), fun _ => .nil⟩
  | cons p fields ih =>
      rw [List.forall_mem_cons, ← ih]
      constructor
      · rintro (_ | ⟨same, rest⟩)
        exact ⟨fun other => same.2.resolve_left other, rest⟩
      · rintro ⟨same, rest⟩
        by_cases mem : p.1 ∈ keys
        · exact .cons ⟨rfl, .inl mem⟩ rest
        · exact .cons ⟨rfl, .inr (same mem)⟩ rest

/-- What agrees where a member is set agrees before, but at this member. -/
theorem agreeBut_of_setField (same : fields.map Prod.fst = others.map Prod.fst)
    (agree : AgreeBut keys (setField fields key value) (setField others key value')) :
    AgreeBut (key :: keys) fields others := by
  by_cases mem : key ∈ fields.map Prod.fst
  · rw [setField_mem mem, setField_mem (same ▸ mem), AgreeBut, List.forall₂_map_left_iff,
      List.forall₂_map_right_iff] at agree
    clear mem
    induction agree with
    | nil => exact .nil
    | @cons p q fields others here _ ih =>
        obtain ⟨first, rest⟩ := List.cons.inj same
        refine .cons ⟨first, ?_⟩ (ih rest)
        by_cases this : p.1 = key
        · exact .inl (this ▸ List.mem_cons_self)
        · rw [if_neg (by rwa [beq_iff_eq]), if_neg (by rwa [beq_iff_eq, ← first])] at here
          exact here.2.imp_left (List.mem_cons_of_mem key)
  · rw [setField_not_mem mem, setField_not_mem (same ▸ mem)] at agree
    have shorter := List.forall₂_take fields.length agree
    have long : fields.length = others.length := by
      simpa only [List.length_map] using congrArg List.length same
    rw [List.take_left, long, List.take_left] at shorter
    exact shorter.imp fun _ _ here => ⟨here.1, here.2.imp_left (List.mem_cons_of_mem key)⟩

theorem keys_setField (fields : List (String × Json)) (key : String) (value : Json) :
    (setField fields key value).map Prod.fst =
      if key ∈ fields.map Prod.fst then fields.map Prod.fst else fields.map Prod.fst ++ [key] := by
  split
  · rename_i mem
    rw [setField_mem mem, List.map_map]
    refine List.map_congr_left fun p _ => ?_
    by_cases here : p.1 = key
    · rw [Function.comp_apply, if_pos (beq_iff_eq.mpr here), here]
    · rw [Function.comp_apply, if_neg (by rwa [beq_iff_eq])]
  · rename_i new
    rw [setField_not_mem new, List.map_append]
    rfl

/-- A key that is not there makes no difference. -/
theorem AgreeBut.of_not_mem (agree : AgreeBut (key :: keys) fields others)
    (new : key ∉ fields.map Prod.fst) : AgreeBut keys fields others := by
  induction agree with
  | nil => exact .nil
  | @cons p q fields others here _ ih =>
      rw [List.map_cons, List.mem_cons, not_or] at new
      refine .cons ⟨here.1, here.2.imp_left fun listed => ?_⟩ (ih new.2)
      exact List.mem_of_ne_of_mem (fun this => new.1 this.symm) listed

/-- Where a member is set, it agrees. -/
theorem AgreeBut.setField (agree : AgreeBut (key :: keys) fields others) :
    AgreeBut keys (Json.setField fields key value) (Json.setField others key value) := by
  have same := agree.keys_eq
  by_cases mem : key ∈ fields.map Prod.fst
  · rw [setField_mem mem, setField_mem (same ▸ mem), AgreeBut, List.forall₂_map_left_iff,
      List.forall₂_map_right_iff]
    refine agree.imp fun p q here => ?_
    by_cases this : p.1 = key
    · rw [if_pos (beq_iff_eq.mpr this), if_pos (beq_iff_eq.mpr (here.1 ▸ this))]
      exact ⟨rfl, .inr rfl⟩
    · rw [if_neg (by rwa [beq_iff_eq]), if_neg (by rwa [beq_iff_eq, ← here.1])]
      exact ⟨here.1, here.2.imp_left fun listed => List.mem_of_ne_of_mem this listed⟩
  · rw [setField_not_mem mem, setField_not_mem (same ▸ mem)]
    exact List.rel_append (agree.of_not_mem mem) (.cons ⟨rfl, .inr rfl⟩ .nil)

/-- A member that is compared. -/
theorem AgreeBut.lookup_eq (agree : AgreeBut keys fields others) (compared : key ∉ keys) :
    fields.lookup key = others.lookup key := by
  induction agree with
  | nil => rfl
  | @cons p q fields others here _ ih =>
      rw [List.lookup_cons, List.lookup_cons, ih, ← here.1]
      by_cases this : key = p.1
      · rw [here.2.resolve_left (this ▸ compared)]
      · rw [beq_eq_false_iff_ne.mpr this]

/-! ### One member -/

theorem mem_setField {p : String × Json} (mem : p ∈ setField fields key value) :
    p ∈ fields ∨ p = (key, value) := by
  by_cases there : key ∈ fields.map Prod.fst
  · rw [setField_mem there] at mem
    obtain ⟨q, listed, same⟩ := List.mem_map.mp mem
    split at same
    · exact .inr same.symm
    · exact .inl (same ▸ listed)
  · rw [setField_not_mem there] at mem
    rcases List.mem_append.mp mem with before | here
    · exact .inl before
    · exact .inr (List.mem_singleton.mp here)

theorem hasMember_setField : HasMember (setField fields key value) key value := by
  by_cases mem : key ∈ fields.map Prod.fst
  · rw [setField_mem mem]
    constructor
    · obtain ⟨p, listed, this⟩ := List.mem_map.mp mem
      exact List.mem_map.mpr ⟨(key, value), List.mem_map.mpr
        ⟨p, listed, if_pos (beq_iff_eq.mpr this)⟩, rfl⟩
    · intro p listed this
      obtain ⟨q, _, same⟩ := List.mem_map.mp listed
      by_cases here : q.1 = key
      · rw [if_pos (beq_iff_eq.mpr here)] at same
        rw [← same]
      · rw [if_neg (by rwa [beq_iff_eq])] at same
        exact absurd (same ▸ this) here
  · rw [setField_not_mem mem]
    constructor
    · rw [List.map_append, List.mem_append]
      exact .inr List.mem_cons_self
    · intro p listed this
      rcases List.mem_append.mp listed with before | here
      · exact absurd (this ▸ List.mem_map_of_mem before) mem
      · rw [List.mem_singleton.mp here]

/-- Setting a member to what it is changes nothing. -/
theorem HasMember.setField_eq (has : HasMember fields key value) :
    Json.setField fields key value = fields := by
  rw [setField_mem has.1]
  refine (List.map_congr_left fun p mem => ?_).trans (List.map_id _)
  by_cases here : p.1 = key
  · rw [if_pos (beq_iff_eq.mpr here), ← has.2 p mem here, ← here]
    rfl
  · rw [if_neg (by rwa [beq_iff_eq])]
    rfl

theorem HasMember.of_setField (other : key ≠ key') (has : HasMember fields key value) :
    HasMember (Json.setField fields key' value') key value := by
  by_cases mem : key' ∈ fields.map Prod.fst
  · rw [setField_mem mem]
    constructor
    · obtain ⟨p, listed, this⟩ := List.mem_map.mp has.1
      refine List.mem_map.mpr ⟨p, List.mem_map.mpr ⟨p, listed, if_neg ?_⟩, this⟩
      rw [beq_iff_eq, this]
      exact other
    · intro p listed this
      obtain ⟨q, member, same⟩ := List.mem_map.mp listed
      by_cases here : q.1 = key'
      · rw [if_pos (beq_iff_eq.mpr here)] at same
        exact absurd (this.symm.trans (congrArg Prod.fst same).symm) other
      · rw [if_neg (by rwa [beq_iff_eq])] at same
        subst same
        exact has.2 q member this
  · rw [setField_not_mem mem]
    refine ⟨by rw [List.map_append]; exact List.mem_append_left _ has.1, fun p listed this => ?_⟩
    rcases List.mem_append.mp listed with before | here
    · exact has.2 p before this
    · rw [List.mem_singleton.mp here] at this
      exact absurd this.symm other

theorem lookup_setField_of_ne (other : key ≠ key') :
    (setField fields key' value).lookup key = fields.lookup key := by
  have apart : (key == key') = false := beq_eq_false_iff_ne.mpr other
  by_cases mem : key' ∈ fields.map Prod.fst
  · rw [setField_mem mem]
    clear mem
    induction fields with
    | nil => rfl
    | cons p fields ih =>
        rw [List.map_cons, List.lookup_cons, List.lookup_cons, ih]
        by_cases here : p.1 = key'
        · rw [if_pos (beq_iff_eq.mpr here), here, apart]
        · rw [if_neg (by rwa [beq_iff_eq])]
  · rw [setField_not_mem mem, List.lookup_append, List.lookup_cons, apart]
    exact Option.or_none

/-- A member of members that are made of others. -/
theorem lookup_map {f : String × Json → Json} {g : Json → Json}
    (made : ∀ p ∈ fields, p.1 = key → f p = g p.2) :
    (fields.map fun p => (p.1, f p)).lookup key = (fields.lookup key).map g := by
  induction fields with
  | nil => rfl
  | cons p fields ih =>
      rw [List.map_cons, List.lookup_cons, List.lookup_cons,
        ih fun q mem => made q (List.mem_cons_of_mem _ mem)]
      by_cases here : key = p.1
      · rw [beq_iff_eq.mpr here]
        exact congrArg some (made p List.mem_cons_self here.symm)
      · rw [beq_eq_false_iff_ne.mpr here]

end AgentOs.Lib.Json
