import AgentOs.Lib.JsonMembers

/-!
Strict JSON schemas (`strict_json_schema`).

`visit` is the traversal of the code: it closes every mapping that looks like an object node.
`tighten` is what it is for: it goes down the same value by the roles that the keywords give to its
parts, and closes the mappings that are schemas; maps of properties and data stay as they are
(`tighten_data`). `visit_eq_iff` says where the two agree: where no mapping that is no schema looks
like an open object node. Visiting twice is visiting once (`visit_visit`).
-/

namespace AgentOs

open AgentOs.Lib

/-! ### The traversal -/

/-- `isinstance(properties, dict)` -/
def isMapping : Json → Bool
  | .obj _ => true
  | _ => false

/-- `node.get("type") == "object" or isinstance(properties, dict)` -/
def isObjectNode (node : List (String × Json)) : Bool :=
  (match node.lookup "type" with
    | some (.str "object") => true
    | _ => false) || (node.lookup "properties").any isMapping

/-- `list(properties) if isinstance(properties, dict) else []` -/
def propertyNames (node : List (String × Json)) : List Json :=
  match node.lookup "properties" with
  | some (.obj properties) => properties.map fun p => .str p.1
  | _ => []

/-- An object node is closed. -/
def closeNode (node : List (String × Json)) : List (String × Json) :=
  if isObjectNode node then
    Json.setField (Json.setField node "additionalProperties" (.bool false)) "required"
      (.arr (propertyNames node))
  else node

mutual
/-- `visit`: the value that a node is after it. -/
def visit : Json → Json
  | .arr items => .arr (visitItems items)
  | .obj node => .obj (closeNode (visitValues node))
  | j => j

def visitItems : List Json → List Json
  | [] => []
  | item :: items => visit item :: visitItems items

def visitValues : List (String × Json) → List (String × Json)
  | [] => []
  | (key, value) :: node => (key, visit value) :: visitValues node
end

/-- `strict_json_schema`, of the schema of a model. -/
def strictJsonSchema (modelJsonSchema : Json) : Json := visit modelJsonSchema

/-! ### What is a schema -/

/-- What a part of a schema is. -/
inductive Role where
  | schema
  /-- a list of schemas -/
  | schemas
  /-- a map from names to schemas -/
  | schemaMap
  /-- anything else, as defaults and the values of an enumeration -/
  | data
deriving DecidableEq, Repr

/-- What stands under a keyword of a schema. -/
def roleOf (keyword : String) : Role :=
  if ["properties", "$defs", "definitions", "patternProperties", "dependentSchemas"].contains keyword
  then .schemaMap
  else if ["anyOf", "oneOf", "allOf", "prefixItems"].contains keyword then .schemas
  else if ["items", "additionalProperties", "not", "contains", "propertyNames", "if", "then", "else",
    "unevaluatedItems", "unevaluatedProperties"].contains keyword then .schema
  else .data

/-- What stands under a key of a mapping. -/
def Role.member : Role → String → Role
  | .schema, key => roleOf key
  | .schemaMap, _ => .schema
  | _, _ => .data

/-- What the items of a list are. -/
def Role.item : Role → Role
  | .schemas => .schema
  | _ => .data

mutual
/-- Every schema in a value is closed if it is an object node, and nothing else changes. -/
def tighten (role : Role) : Json → Json
  | .arr items => .arr (tightenItems role.item items)
  | .obj node =>
      if role = .schema then .obj (closeNode (tightenValues role node))
      else .obj (tightenValues role node)
  | j => j

def tightenItems (role : Role) : List Json → List Json
  | [] => []
  | item :: items => tighten role item :: tightenItems role items

def tightenValues (role : Role) : List (String × Json) → List (String × Json)
  | [] => []
  | (key, value) :: node => (key, tighten (role.member key) value) :: tightenValues role node
end

/-- A node is closed already. -/
def Closed (node : List (String × Json)) : Prop :=
  Json.HasMember node "additionalProperties" (.bool false) ∧
    Json.HasMember node "required" (.arr (propertyNames node))

/-- Is a member one that closing a node sets? -/
def isSet (key : String) : Bool := key = "additionalProperties" || key = "required"

mutual
/-- No mapping that is no schema looks like an open object node. The members that closing an object
node sets do not matter. -/
def KeepsApart (role : Role) : Json → Prop
  | .arr items => ItemsApart role.item items
  | .obj node =>
      (role ≠ .schema → isObjectNode node = true → Closed (tightenValues role node)) ∧
        ValuesApart role (role = .schema && isObjectNode node) node
  | _ => True

def ItemsApart (role : Role) : List Json → Prop
  | [] => True
  | item :: items => KeepsApart role item ∧ ItemsApart role items

/-- The same of the values of a mapping, perhaps of a node that is closed. -/
def ValuesApart (role : Role) (closes : Bool) : List (String × Json) → Prop
  | [] => True
  | (key, value) :: node =>
      ((closes && isSet key) = false → KeepsApart (role.member key) value) ∧
        ValuesApart role closes node
end

section

variable {role : Role} {node : List (String × Json)} {items : List Json} {j : Json} {key : String}

theorem visitValues_eq : visitValues node = node.map fun p => (p.1, visit p.2) := by
  induction node with
  | nil => rfl
  | cons p node ih => rw [visitValues, ih, List.map_cons]

theorem tightenValues_eq : tightenValues role node =
    node.map fun p => (p.1, tighten (role.member p.1) p.2) := by
  induction node with
  | nil => rfl
  | cons p node ih => rw [tightenValues, ih, List.map_cons]

theorem valuesApart_iff {closes : Bool} : ValuesApart role closes node ↔
    ∀ p ∈ node, (closes && isSet p.1) = false → KeepsApart (role.member p.1) p.2 := by
  induction node with
  | nil => exact ⟨fun _ _ mem => (by cases mem), fun _ => trivial⟩
  | cons p node ih => rw [ValuesApart, ih, List.forall_mem_cons]

/-! ### Closing a node -/

theorem isMapping_visit (j : Json) : isMapping (visit j) = isMapping j := by
  cases j <;> rfl

theorem isMapping_tighten (j : Json) : isMapping (tighten role j) = isMapping j := by
  cases j with
  | obj node =>
      rw [tighten]
      split <;> rfl
  | _ => rfl

theorem keys_visitValues : (visitValues node).map Prod.fst = node.map Prod.fst := by
  rw [visitValues_eq, List.map_map]
  rfl

theorem keys_tightenValues : (tightenValues role node).map Prod.fst = node.map Prod.fst := by
  rw [tightenValues_eq, List.map_map]
  rfl

/-- Whether a node is an object node depends on two of its members. -/
theorem isObjectNode_map {f : String × Json → Json} {g : String → Json → Json}
    (made : ∀ p, f p = g p.1 p.2) (mappings : ∀ key j, isMapping (g key j) = isMapping j)
    (texts : ∀ key j s, g key j = .str s ↔ j = .str s) :
    isObjectNode (node.map fun p => (p.1, f p)) = isObjectNode node := by
  have at_ : ∀ key, (node.map fun p => (p.1, f p)).lookup key = (node.lookup key).map (g key) :=
    fun key => Json.lookup_map fun p _ this => by rw [made, this]
  rw [isObjectNode, isObjectNode, at_, at_]
  congr 1
  · cases node.lookup "type" with
    | none => rfl
    | some j =>
        rw [Option.map_some]
        by_cases this : j = .str "object"
        · rw [(texts _ _ _).mpr this, this]
        · have other : g "type" j ≠ .str "object" := fun same => this ((texts _ _ _).mp same)
          split
          · rename_i same
            exact absurd (Option.some.inj same) other
          · split
            · rename_i same
              exact absurd (Option.some.inj same) this
            · rfl
  · cases node.lookup "properties" with
    | none => rfl
    | some j => exact mappings "properties" j

theorem visit_eq_str {s : String} : visit j = .str s ↔ j = .str s := by
  cases j <;> simp [visit]

theorem tighten_eq_str {s : String} : tighten role j = .str s ↔ j = .str s := by
  cases j with
  | obj node =>
      rw [tighten]
      split <;> simp
  | _ => simp [tighten]

theorem isObjectNode_visit : isObjectNode (visitValues node) = isObjectNode node := by
  rw [visitValues_eq]
  exact isObjectNode_map (g := fun _ j => visit j) (fun _ => rfl) (fun _ j => isMapping_visit j)
    fun _ _ _ => visit_eq_str

theorem isObjectNode_tighten : isObjectNode (tightenValues role node) = isObjectNode node := by
  rw [tightenValues_eq]
  exact isObjectNode_map (g := fun key j => tighten (role.member key) j) (fun _ => rfl)
    (fun _ j => isMapping_tighten j) fun _ _ _ => tighten_eq_str

/-- The members that closing a node sets. -/
theorem closeNode_open (object : isObjectNode node = true) : closeNode node =
    Json.setField (Json.setField node "additionalProperties" (.bool false)) "required"
      (.arr (propertyNames node)) := if_pos object

theorem closeNode_other (other : isObjectNode node ≠ true) : closeNode node = node := if_neg other

theorem lookup_closeNode {key : String} (kept : isSet key = false) :
    (closeNode node).lookup key = node.lookup key := by
  rw [isSet, Bool.or_eq_false_iff, decide_eq_false_iff_not, decide_eq_false_iff_not] at kept
  unfold closeNode
  split
  · rw [Json.lookup_setField_of_ne kept.2, Json.lookup_setField_of_ne kept.1]
  · rfl

theorem propertyNames_congr {other : List (String × Json)}
    (same : node.lookup "properties" = other.lookup "properties") :
    propertyNames node = propertyNames other := by
  rw [propertyNames, propertyNames, same]

/-- A node that was closed is closed. -/
theorem closed_closeNode (object : isObjectNode node = true) : Closed (closeNode node) := by
  have names : propertyNames (closeNode node) = propertyNames node :=
    propertyNames_congr (lookup_closeNode (by decide))
  rw [Closed, names, closeNode_open object]
  exact ⟨Json.hasMember_setField.of_setField (by decide), Json.hasMember_setField⟩

/-- Closing a closed node changes nothing. -/
theorem closeNode_closed (closed : Closed node) : closeNode node = node := by
  unfold closeNode
  split
  · rw [closed.1.setField_eq, closed.2.setField_eq]
  · rfl

/-- Two nodes close to the same one if they agree but in the members that are set. -/
theorem closeNode_eq_iff {other : List (String × Json)}
    (same : node.map Prod.fst = other.map Prod.fst) (object : isObjectNode node = true)
    (object' : isObjectNode other = true) :
    closeNode node = closeNode other ↔
      Json.AgreeBut ["additionalProperties", "required"] node other := by
  rw [closeNode_open object, closeNode_open object']
  constructor
  · intro closes
    refine Json.agreeBut_of_setField same (Json.agreeBut_of_setField ?_ (Json.agreeBut_nil.mpr closes))
    rw [Json.keys_setField, Json.keys_setField, same]
  · intro agree
    have names := propertyNames_congr (agree.lookup_eq (by decide))
    rw [names]
    exact Json.agreeBut_nil.mp agree.setField.setField

/-- A node closes to one that agrees with it but in the members that are set, and is closed. -/
theorem closeNode_eq_target_iff {target : List (String × Json)}
    (same : node.map Prod.fst = target.map Prod.fst) (object : isObjectNode node = true)
    (object' : isObjectNode target = true) : closeNode node = target ↔
      Json.AgreeBut ["additionalProperties", "required"] node target ∧ Closed target := by
  rw [← closeNode_eq_iff same object object']
  constructor
  · intro closes
    have closed : Closed target := closes ▸ closed_closeNode object
    exact ⟨closes.trans (closeNode_closed closed).symm, closed⟩
  · rintro ⟨closes, closed⟩
    exact closes.trans (closeNode_closed closed)

/-! ### Where the traversal keeps to the schemas -/

theorem visit_of_tighten_bool {b : Bool} (same : tighten role j = .bool b) : visit j = .bool b := by
  cases j with
  | obj node =>
      rw [tighten] at same
      split at same <;> cases same
  | bool b' => exact same
  | _ => cases same

theorem visitItems_names (names : List String) :
    visitItems (names.map .str) = names.map .str := by
  induction names with
  | nil => rfl
  | cons name names ih =>
      rw [List.map_cons, visitItems, ih]
      rfl

/-- A list of texts is left as it is. -/
theorem visitItems_of_tighten_names {names : List String}
    (same : tightenItems role items = names.map .str) : visitItems items = names.map .str := by
  induction items generalizing names with
  | nil => exact same
  | cons item items ih =>
      cases names with
      | nil => cases same
      | cons name names =>
          obtain ⟨first, rest⟩ := List.cons.inj same
          rw [visitItems, ih rest, tighten_eq_str.mp first]
          rfl

theorem visit_of_tighten_names {names : List String}
    (same : tighten role j = .arr (names.map .str)) : visit j = .arr (names.map .str) := by
  cases j with
  | obj node =>
      rw [tighten] at same
      split at same <;> cases same
  | arr items => rw [visit, visitItems_of_tighten_names (Json.arr.inj same)]
  | _ => cases same

theorem propertyNames_texts : ∃ names : List String, propertyNames node = names.map .str := by
  unfold propertyNames
  split
  · rename_i properties _
    exact ⟨properties.map Prod.fst, by rw [List.map_map]; rfl⟩
  · exact ⟨[], rfl⟩

/-- The values of the members that are compared. -/
theorem agree_visit_tighten {keys : List String} :
    Json.AgreeBut keys (visitValues node) (tightenValues role node) ↔
      ∀ p ∈ node, p.1 ∉ keys → visit p.2 = tighten (role.member p.1) p.2 := by
  rw [visitValues_eq, tightenValues_eq, Json.agreeBut_map]

theorem isSet_iff : isSet key = true ↔ key ∈ ["additionalProperties", "required"] := by
  rw [isSet, Bool.or_eq_true, decide_eq_true_eq, decide_eq_true_eq, List.mem_pair]

theorem isSet_false_iff : isSet key = false ↔ key ∉ ["additionalProperties", "required"] := by
  rw [← isSet_iff, Bool.not_eq_true]

/-- A mapping, from its values. -/
theorem visit_obj_iff
    (each : ∀ p ∈ node, visit p.2 = tighten (role.member p.1) p.2 ↔ KeepsApart (role.member p.1) p.2) :
    visit (.obj node) = tighten role (.obj node) ↔ KeepsApart role (.obj node) := by
  have keys : (visitValues node).map Prod.fst = (tightenValues role node).map Prod.fst := by
    rw [keys_visitValues, keys_tightenValues]
  have all : visitValues node = tightenValues role node ↔
      ∀ p ∈ node, KeepsApart (role.member p.1) p.2 := by
    rw [← Json.agreeBut_nil, agree_visit_tighten]
    refine forall₂_congr fun p mem => ?_
    rw [← each p mem]
    exact ⟨fun h => h List.not_mem_nil, fun h _ => h⟩
  have kept : Json.AgreeBut ["additionalProperties", "required"] (visitValues node)
      (tightenValues role node) ↔ ∀ p ∈ node, isSet p.1 = false → KeepsApart (role.member p.1) p.2 := by
    rw [agree_visit_tighten]
    exact forall₂_congr fun p mem => by rw [← each p mem, isSet_false_iff]
  rw [visit, tighten, KeepsApart, valuesApart_iff]
  by_cases object : isObjectNode node = true
  · have object' := isObjectNode_visit.trans object
    have object'' := (@isObjectNode_tighten role node).trans object
    by_cases schema : role = .schema
    · -- both close the node, and what that sets is not compared
      rw [if_pos schema, Json.obj.injEq, closeNode_eq_iff keys object' object'', kept,
        decide_eq_true schema, object]
      exact ⟨fun apart => ⟨fun other => absurd schema other, apart⟩, fun apart => apart.2⟩
    · -- only the traversal closes the mapping
      rw [if_neg schema, Json.obj.injEq, closeNode_eq_target_iff keys object' object'', kept,
        decide_eq_false schema]
      constructor
      · rintro ⟨apart, closed⟩
        refine ⟨fun _ _ => closed, fun p mem _ => ?_⟩
        cases set : isSet p.1 with
        | false => exact apart p mem set
        | true =>
            have member : (p.1, tighten (role.member p.1) p.2) ∈ tightenValues role node := by
              rw [tightenValues_eq]
              exact List.mem_map_of_mem mem
            refine (each p mem).mp ?_
            rw [isSet, Bool.or_eq_true, decide_eq_true_eq, decide_eq_true_eq] at set
            rcases set with this | this
            · have value := closed.1.2 _ member this
              exact (visit_of_tighten_bool value).trans value.symm
            · have value := closed.2.2 _ member this
              obtain ⟨names, texts⟩ := @propertyNames_texts (tightenValues role node)
              rw [texts] at value
              exact (visit_of_tighten_names value).trans value.symm
      · rintro ⟨closed, apart⟩
        exact ⟨fun p mem _ => apart p mem rfl, closed schema object⟩
  · have other : isObjectNode (visitValues node) ≠ true := by rwa [isObjectNode_visit]
    have other' : isObjectNode (tightenValues role node) ≠ true := by rwa [isObjectNode_tighten]
    have whole : (if role = .schema then Json.obj (closeNode (tightenValues role node))
        else .obj (tightenValues role node)) = .obj (tightenValues role node) := by
      rw [closeNode_other other', ite_self]
    rw [whole, closeNode_other other, Json.obj.injEq, all, Bool.eq_false_iff.mpr object,
      Bool.and_false]
    exact ⟨fun apart => ⟨fun _ absent => absurd absent (by simp), fun p mem _ => apart p mem⟩,
      fun apart p mem => apart.2 p mem rfl⟩

mutual
/-- The traversal does what it is for exactly where no mapping that is no schema looks like an open
object node. -/
theorem visit_eq_iff (role : Role) : ∀ j : Json, visit j = tighten role j ↔ KeepsApart role j
  | .arr items => by
      rw [visit, tighten, KeepsApart, Json.arr.injEq]
      exact visitItems_eq_iff role.item items
  | .obj node => visit_obj_iff (visitValues_each role node)
  | .null => ⟨fun _ => trivial, fun _ => rfl⟩
  | .bool _ => ⟨fun _ => trivial, fun _ => rfl⟩
  | .num _ => ⟨fun _ => trivial, fun _ => rfl⟩
  | .str _ => ⟨fun _ => trivial, fun _ => rfl⟩

theorem visitItems_eq_iff (role : Role) :
    ∀ items : List Json, visitItems items = tightenItems role items ↔ ItemsApart role items
  | [] => ⟨fun _ => trivial, fun _ => rfl⟩
  | item :: items => by
      rw [visitItems, tightenItems, ItemsApart, List.cons.injEq, visit_eq_iff role item,
        visitItems_eq_iff role items]

theorem visitValues_each (role : Role) : ∀ node : List (String × Json), ∀ p ∈ node,
    visit p.2 = tighten (role.member p.1) p.2 ↔ KeepsApart (role.member p.1) p.2
  | [], _, mem => by cases mem
  | (key, value) :: node, p, mem => by
      rcases List.mem_cons.mp mem with rfl | mem
      · exact visit_eq_iff (role.member key) value
      · exact visitValues_each role node p mem
end

theorem visitValues_eq_self (visited : ∀ p ∈ node, visit p.2 = p.2) : visitValues node = node := by
  rw [visitValues_eq]
  exact (List.map_congr_left fun p mem => by rw [visited p mem]; rfl).trans (List.map_id node)

/-- The values of a closed node are visited if those of the node are. -/
theorem visited_closeNode (visited : ∀ p ∈ node, visit p.2 = p.2) :
    ∀ p ∈ closeNode node, visit p.2 = p.2 := by
  obtain ⟨names, texts⟩ := @propertyNames_texts node
  unfold closeNode
  split
  · intro p mem
    rcases Json.mem_setField mem with mem | rfl
    · rcases Json.mem_setField mem with mem | rfl
      · exact visited p mem
      · rfl
    · rw [texts, visit, visitItems_names]
  · exact visited

mutual
/-- Visiting again changes nothing. -/
theorem visit_visit : ∀ j : Json, visit (visit j) = visit j
  | .arr items => by rw [visit, visit, visitItems_visitItems items]
  | .obj node => by
      have visited := visited_closeNode (visitValues_visited node)
      have closes : closeNode (closeNode (visitValues node)) = closeNode (visitValues node) := by
        by_cases object : isObjectNode (visitValues node) = true
        · exact closeNode_closed (closed_closeNode object)
        · rw [closeNode_other object, closeNode_other object]
      rw [visit, visit, visitValues_eq_self visited, closes]
  | .null => rfl
  | .bool _ => rfl
  | .num _ => rfl
  | .str _ => rfl

theorem visitItems_visitItems : ∀ items : List Json,
    visitItems (visitItems items) = visitItems items
  | [] => rfl
  | item :: items => by
      rw [visitItems, visitItems, visit_visit item, visitItems_visitItems items]

theorem visitValues_visited : ∀ node : List (String × Json),
    ∀ p ∈ visitValues node, visit p.2 = p.2
  | [], _, mem => by cases mem
  | (key, value) :: node, p, mem => by
      rcases List.mem_cons.mp mem with rfl | mem
      · exact visit_visit value
      · exact visitValues_visited node p mem
end

/-! ### What tightening leaves -/

theorem Role.item_data : Role.data.item = .data := rfl

theorem Role.member_data : Role.data.member key = .data := rfl

mutual
/-- Data stays as it is. -/
theorem tighten_data : ∀ j : Json, tighten .data j = j
  | .arr items => by rw [tighten, Role.item_data, tightenItems_data items]
  | .obj node => by rw [tighten, if_neg (by decide), tightenValues_data node]
  | .null => rfl
  | .bool _ => rfl
  | .num _ => rfl
  | .str _ => rfl

theorem tightenItems_data : ∀ items : List Json, tightenItems .data items = items
  | [] => rfl
  | item :: items => by rw [tightenItems, tighten_data item, tightenItems_data items]

theorem tightenValues_data : ∀ node : List (String × Json), tightenValues .data node = node
  | [] => rfl
  | (key, value) :: node => by
      rw [tightenValues, Role.member_data, tighten_data value, tightenValues_data node]
end

/-- An object node is closed, and its other members are tightened by their roles. -/
theorem tighten_objectNode (object : isObjectNode node = true) : ∃ tightened,
    tighten .schema (.obj node) = .obj tightened ∧ Closed tightened ∧
      ∀ key, isSet key = false →
        tightened.lookup key = (node.lookup key).map (tighten (roleOf key)) := by
  refine ⟨closeNode (tightenValues .schema node), by rw [tighten, if_pos rfl], ?_, ?_⟩
  · exact closed_closeNode ((@isObjectNode_tighten .schema node).trans object)
  · intro key kept
    rw [lookup_closeNode kept, tightenValues_eq]
    exact Json.lookup_map fun p _ this => by rw [this]; rfl

/-- **The schema is tightened and no more exactly where no mapping in it that is no schema looks
like an open object node**; doing it again never changes anything. -/
theorem strict_schema_iff (modelJsonSchema : Json) :
    (strictJsonSchema modelJsonSchema = tighten .schema modelJsonSchema ∧
      strictJsonSchema (strictJsonSchema modelJsonSchema) = strictJsonSchema modelJsonSchema) ↔
    KeepsApart .schema modelJsonSchema := by
  rw [← visit_eq_iff]
  exact and_iff_left (visit_visit modelJsonSchema)

/-- The schema of a model with a field named `properties`. -/
def propertiesField : Json :=
  .obj [("properties", .obj [("properties", .obj [("title", .str "Properties"),
      ("type", .str "string")])]),
    ("required", .arr [.str "properties"]), ("title", .str "Listing"), ("type", .str "object")]

/-- How many names a schema requires. -/
def requiredCount (j : Json) : ℕ := (((j.field? "required").bind Json.items?).getD []).length

/-- **A field named `properties` makes the map of properties an object node**, and its two new
members are required as fields. -/
theorem properties_field_grows : ¬ ∀ modelJsonSchema : Json,
    strictJsonSchema modelJsonSchema = tighten .schema modelJsonSchema ∧
      strictJsonSchema (strictJsonSchema modelJsonSchema) = strictJsonSchema modelJsonSchema := by
  intro tightens
  have same := congrArg requiredCount (tightens propertiesField).1
  have grown : requiredCount (strictJsonSchema propertiesField) = 3 := by decide +kernel
  have kept : requiredCount (tighten .schema propertiesField) = 1 := by decide +kernel
  rw [grown, kept] at same
  exact absurd same (by decide)

end

end AgentOs
