import Rulebook.Json.Description
import Rulebook.Proofs.Json.Structures

/-!
# Descriptions that are read back

The text of a description is read back as the description exactly when its arrays and objects are
nested no deeper than the reader keeps them. Each level of rule sets takes two of them, and the
rules of a rule set take up to three more.
-/

namespace Rulebook

open Json (Written ReadsBack IsFlat ofFields isFlat_text isFlat_id isFlat_version
  isFlat_bool isFlat_choice)

theorem Selector.isFlat (site : Json.Site) :
    IsFlat (Selector.ofJson? site) fun selector => Json.ofString selector.text :=
  isFlat_choice site fun selector => by cases selector <;> rfl

theorem ClauseKind.isFlat : IsFlat ClauseKind.ofJson? fun kind => Json.ofString kind.text :=
  isFlat_choice .plain fun kind => by cases kind <;> rfl

theorem NodeKind.isFlat : IsFlat NodeKind.ofJson? fun kind => Json.ofString kind.text :=
  isFlat_choice .plain fun kind => by cases kind <;> rfl

theorem Severity.isFlat : IsFlat Severity.ofJson? fun severity => Json.ofString severity.text :=
  isFlat_choice .plain fun severity => by cases severity <;> rfl

theorem Combinator.isFlat :
    IsFlat Combinator.ofJson? fun combinator => Json.ofString combinator.text :=
  isFlat_choice .plain fun combinator => by cases combinator <;> rfl

namespace OperandDescription

theorem toJson_literal (value : String) : toJson (.literal value) =
    ofFields ["type", "value"] [Json.ofString "literal", Json.ofString value] := rfl

/-- An attribute in a rule is a structure. -/
theorem toJson_linked (name : String) (attributeId : UInt32) (record : Selector) :
    toJson (.linked name attributeId record) =
      ofFields ["type", "name", "attribute_id", "record"]
        [Json.ofString "attribute", Json.ofString name, Json.ofId attributeId,
          Json.ofString record.text] := rfl

/-- Operands are read back. -/
theorem readsBack : ReadsBack OperandDescription.ofJson? OperandDescription.toJson := by
  intro operand room
  cases operand with
  | literal value =>
    have htagged : (ofFields ["type", "value"]
        [Json.ofString "literal", Json.ofString value]).tagged? .plain "type"
          ["literal", "attribute"] =
          some ("literal", ofFields ["value"] [Json.ofString value]) := by
      refine Json.tagged?_ofFields .plain (by decide) rfl (by decide) ?_
      simp [Json.isSound_ofString]
    rw [toJson_literal, Json.height_ofFields rfl]
    cases room with
    | zero => rfl
    | succ room =>
      rw [Json.kept_ofFields]
      simp only [Json.keptItems, isFlat_text.kept]
      rw [ofJson?, htagged]
      simp only [Option.bind_eq_bind, Option.bind_some, if_true]
      rw [Json.fields?_ofFields (by decide) rfl]
      simp [Json.required, isFlat_text.read, Json.heightAll, isFlat_text.height]
  | linked name attributeId record =>
    have htagged : (ofFields ["type", "name", "attribute_id", "record"]
        [Json.ofString "attribute", Json.ofString name, Json.ofId attributeId,
          Json.ofString record.text]).tagged? .plain "type" ["literal", "attribute"] =
          some ("attribute", ofFields ["name", "attribute_id", "record"]
            [Json.ofString name, Json.ofId attributeId, Json.ofString record.text]) := by
      refine Json.tagged?_ofFields .plain (by decide) rfl (by decide) ?_
      simp [Json.isSound_ofString, Json.isSound_ofId]
    have hname : ¬ "attribute" = "literal" := by decide
    rw [toJson_linked, Json.height_ofFields rfl]
    cases room with
    | zero => rfl
    | succ room =>
      rw [Json.kept_ofFields]
      simp only [Json.keptItems, isFlat_text.kept, isFlat_id.kept]
      rw [ofJson?, htagged]
      simp only [Option.bind_eq_bind, Option.bind_some, hname, if_false]
      rw [Json.fields?_ofFields (by decide) rfl]
      simp [Json.required, isFlat_text.read, isFlat_id.read, (Selector.isFlat .tagged).read,
        Json.heightAll, isFlat_text.height, isFlat_id.height]

end OperandDescription

namespace RuleDescription

/-- The names of the fields of the description of a rule. -/
def fieldNames : List String :=
  ["rule_id", "desc_id", "expression", "operator", "kind", "target_name", "target_id", "record",
    "not_operator", "passive", "operands"]

/-- The values of the fields of the description of a rule. -/
def values (rule : RuleDescription) : List Json :=
  [Json.ofId rule.id, Json.ofOption Json.ofString rule.label, Json.ofString rule.expression,
    Json.ofString rule.operator, Json.ofString rule.kind.text, Json.ofString rule.targetName,
    Json.ofId rule.targetId, Json.ofString rule.record.text, .bool rule.negated,
    .bool rule.passive, .array (rule.operands.map OperandDescription.toJson)]

theorem toJson_eq (rule : RuleDescription) : rule.toJson = ofFields fieldNames rule.values := rfl

/-- Operands are nested deepest in a rule. -/
theorem height_toJson (rule : RuleDescription) : rule.toJson.height =
    (Json.array (rule.operands.map OperandDescription.toJson)).height + 1 := by
  rw [toJson_eq, Json.height_ofFields rfl, values]
  simp [Json.heightAll, isFlat_text.height, isFlat_id.height, isFlat_bool.height,
    (isFlat_text.option rule.label).1]

/-- Rules are read back. -/
theorem readsBack : ReadsBack RuleDescription.ofJson? RuleDescription.toJson := by
  intro rule room
  have hoperands := OperandDescription.readsBack.list rule.operands
  cases room with
  | zero =>
    rw [height_toJson, toJson_eq, Json.kept_ofFields_zero, if_neg (by omega)]
    rfl
  | succ room =>
    rw [height_toJson, toJson_eq, Json.kept_ofFields, ofJson?, ← fieldNames,
      Json.fields?_ofFields (by decide) rfl, values]
    simp only [Json.keptItems, isFlat_text.kept, isFlat_id.kept, isFlat_bool.kept,
      (isFlat_text.option rule.label).2.1, List.map_cons, List.map_nil, Option.bind_eq_bind,
      Option.bind_some, Json.required, (isFlat_text.option rule.label).2.2, isFlat_text.read,
      isFlat_id.read, isFlat_bool.read, ClauseKind.isFlat.read, (Selector.isFlat .plain).read,
      hoperands, Json.bind_ite, Nat.add_le_add_iff_right]
    rfl

end RuleDescription

namespace Json

variable {α : Type} {names : List String} {branch : String}
  {build : List (Option Json) → List α → Option α}

/-- The structures below are not in a member with another name. -/
theorem branchIn?_of_ne {name : String} (h : name ≠ branch) (value : Json)
    (more : List (String × Json)) :
    branchIn? names branch build (member name value :: more) =
      branchIn? names branch build more := by
  have hname : ¬ (decode (member name value).1.toList).map String.ofList = some branch := by
    rw [member, String.toList_ofList, decode_encode, Option.map_some, String.ofList_toList]
    exact fun he => h (Option.some.inj he)
  cases value <;> exact if_neg hname

/-- The structures below are in the member with the name. -/
theorem branchIn?_self (items : List Json) (room : Nat) (more : List (String × Json)) :
    branchIn? names branch build (member branch ((Json.array items).kept (room + 1)) :: more) =
      trees? names branch build (keptItems items room) := by
  have hname : (decode (member branch (.array items)).1.toList).map String.ofList =
      some branch := by
    rw [member, String.toList_ofList, decode_encode, Option.map_some, String.ofList_toList]
  exact if_pos hname

/-- There are no structures below where there is no room for a list of them. -/
theorem branchIn?_deep (more : List (String × Json)) :
    branchIn? names branch build (member branch .deep :: more) = none := by
  have hname : (decode (member branch .deep).1.toList).map String.ofList = some branch := by
    rw [member, String.toList_ofList, decode_encode, Option.map_some, String.ofList_toList]
  exact if_pos hname

end Json

namespace RuleSetDescription

/-- The values of the fields of the description of a rule set. -/
def values (set : RuleSetDescription) : List Json :=
  [Json.ofId set.head.id, Json.ofOption Json.ofId set.head.parent,
    Json.ofString set.head.kind.text, Json.ofString set.head.description,
    Json.ofOption Json.ofString set.head.customId,
    Json.ofOption Json.ofString set.head.failureMessage,
    Json.ofOption (fun severity => Json.ofString severity.text) set.head.severity,
    Json.ofString set.head.combinator.text,
    .array (set.head.evaluative.map RuleDescription.toJson),
    .array (set.head.assertive.map RuleDescription.toJson), .array (toJsonAll set.children)]

theorem toJson_eq (set : RuleSetDescription) : set.toJson = ofFields fieldNames set.values := by
  obtain ⟨head, children⟩ := set
  rw [toJson]
  rfl

/-- Rules and rule sets are nested deepest in a rule set. -/
theorem height_toJson (set : RuleSetDescription) : set.toJson.height =
    max (Json.array (set.head.evaluative.map RuleDescription.toJson)).height
      (max (Json.array (set.head.assertive.map RuleDescription.toJson)).height
        (Json.array (toJsonAll set.children)).height) + 1 := by
  rw [toJson_eq, Json.height_ofFields rfl, values]
  simp [Json.heightAll, isFlat_text.height, isFlat_id.height,
    (isFlat_id.option set.head.parent).1, (isFlat_text.option set.head.customId).1,
    (isFlat_text.option set.head.failureMessage).1, (Severity.isFlat.option set.head.severity).1]

/-- A rule set is made again from what is read back of its fields, when all rules in it are. -/
theorem ofFields?_kept (head : Head) (children below : List RuleSetDescription) (room : Nat) :
    ofFields? ((Json.keptItems (values ⟨head, children⟩) room).map some) below =
      if (Json.array (head.evaluative.map RuleDescription.toJson)).height ≤ room ∧
        (Json.array (head.assertive.map RuleDescription.toJson)).height ≤ room
      then some ⟨head, below⟩ else none := by
  have hevaluative := RuleDescription.readsBack.list head.evaluative room
  have hassertive := RuleDescription.readsBack.list head.assertive room
  rw [values]
  simp only [Json.keptItems, List.map_cons, List.map_nil, ofFields?, Json.required,
    Option.bind_eq_bind, Option.bind_some, isFlat_text.kept, isFlat_id.kept,
    (isFlat_id.option head.parent).2.1, (isFlat_text.option head.customId).2.1,
    (isFlat_text.option head.failureMessage).2.1, (Severity.isFlat.option head.severity).2.1,
    isFlat_text.read, isFlat_id.read, NodeKind.isFlat.read, Combinator.isFlat.read,
    (isFlat_id.option head.parent).2.2, (isFlat_text.option head.customId).2.2,
    (isFlat_text.option head.failureMessage).2.2, (Severity.isFlat.option head.severity).2.2,
    hevaluative, hassertive, Json.bind_ite, ← ite_and]
  rfl

/-- The rule sets below are read back, when a list of them is. -/
theorem branchIn?_kept (head : Head) {children : List RuleSetDescription}
    (h : ∀ room, Json.trees? fieldNames "children" ofFields?
      (Json.keptItems (toJsonAll children) room) =
        if Json.heightAll (toJsonAll children) ≤ room then some children else none) (room : Nat) :
    Json.branchIn? fieldNames "children" ofFields?
        (List.zipWith Json.member fieldNames (Json.keptItems (values ⟨head, children⟩) room)) =
      if (Json.array (toJsonAll children)).height ≤ room then some children else none := by
  simp only [values, Json.keptItems, Json.height]
  unfold fieldNames
  simp only [List.zipWith_cons_cons]
  iterate 10 rw [Json.branchIn?_of_ne (by decide)]
  cases room with
  | zero => exact Json.branchIn?_deep _
  | succ room =>
    have hsame := h room
    unfold fieldNames at hsame
    rw [Json.branchIn?_self, hsame]
    simp only [Nat.add_le_add_iff_right]

mutual
/-- Rule sets are read back. -/
theorem ofJson?_kept : (set : RuleSetDescription) → (room : Nat) →
    ofJson? (set.toJson.kept room) = if set.toJson.height ≤ room then some set else none
  | ⟨head, children⟩, 0 => by
    rw [height_toJson, toJson_eq, Json.kept_ofFields_zero, if_neg (by omega)]
    rfl
  | ⟨head, children⟩, room + 1 => by
    have hfields : (ofFields fieldNames
        (Json.keptItems (values ⟨head, children⟩) room)).fields? fieldNames =
          some ((Json.keptItems (values ⟨head, children⟩) room).map some) :=
      Json.fields?_ofFields (by decide) (by rw [Json.length_keptItems]; rfl)
    have hbranch := branchIn?_kept head (trees?_kept children) room
    rw [ofFields] at hfields
    rw [height_toJson, toJson_eq, Json.kept_ofFields, ofJson?, ofFields, Json.tree?, hfields,
      hbranch]
    simp only [Option.bind_eq_bind, Option.bind_some, Json.bind_ite, ofFields?_kept, ← ite_and,
      Nat.add_le_add_iff_right, Nat.max_le]
    exact if_congr (by tauto) rfl rfl

/-- Lists of rule sets are read back. -/
theorem trees?_kept : (sets : List RuleSetDescription) → (room : Nat) →
    Json.trees? fieldNames "children" ofFields? (Json.keptItems (toJsonAll sets) room) =
      if Json.heightAll (toJsonAll sets) ≤ room then some sets else none
  | [], room => rfl
  | set :: more, room => by
    rw [toJsonAll, Json.keptItems, Json.trees?, ← ofJson?, ofJson?_kept set, trees?_kept more,
      Json.heightAll]
    simp only [Option.bind_eq_bind, Json.bind_ite, Option.pure_def, ← ite_and, Nat.max_le]
end

end RuleSetDescription

namespace TreeDescription

theorem toJson_eq (tree : TreeDescription) : tree.toJson =
    ofFields ["compile_version", "custom_operators", "root"]
      [Json.ofNat tree.version.toNat, .array (tree.customOperators.map Json.ofString),
        tree.root.toJson] := rfl

/-- The names of the custom operators and the rule sets are nested deepest in a tree. -/
theorem height_toJson (tree : TreeDescription) : tree.toJson.height =
    max (Json.array (tree.customOperators.map Json.ofString)).height tree.root.toJson.height +
      1 := by
  rw [toJson_eq, Json.height_ofFields rfl]
  simp [Json.heightAll, isFlat_version.height]

/-- Trees are read back. -/
theorem readsBack : ReadsBack TreeDescription.ofJson? TreeDescription.toJson := by
  intro tree room
  have hoperators := isFlat_text.readsBack.list tree.customOperators
  cases room with
  | zero =>
    rw [height_toJson, toJson_eq, Json.kept_ofFields_zero, if_neg (by omega)]
    rfl
  | succ room =>
    rw [height_toJson, toJson_eq, Json.kept_ofFields, ofJson?,
      Json.fields?_ofFields (by decide) rfl]
    simp only [Json.keptItems, isFlat_version.kept, List.map_cons, List.map_nil,
      Option.bind_eq_bind, Option.bind_some, Json.required, isFlat_version.read, hoperators,
      RuleSetDescription.ofJson?_kept, Json.bind_ite, ← ite_and, Nat.add_le_add_iff_right,
      Nat.max_le]
    rfl

end TreeDescription

/-- Items of an array are written when what they stand for is. -/
theorem Json.Written.map {α : Type} {write : α → Json} (h : ∀ value, (write value).Written)
    (values : List α) : (Json.array (values.map write)).Written := by
  refine .array fun json hjson => ?_
  obtain ⟨value, -, rfl⟩ := List.mem_map.mp hjson
  exact h value

/-- The description of an operand is written. -/
theorem OperandDescription.written (operand : OperandDescription) : operand.toJson.Written := by
  cases operand with
  | literal value =>
    rw [toJson_literal]
    exact .ofFields (by simp [Written.ofString])
  | linked name attributeId record =>
    rw [toJson_linked]
    exact .ofFields (by simp [Written.ofString, Written.ofId])

/-- The description of a rule is written. -/
theorem RuleDescription.written (rule : RuleDescription) : rule.toJson.Written := by
  rw [RuleDescription.toJson_eq]
  refine .ofFields ?_
  simp [RuleDescription.values, Written.ofString, Written.ofId, Written.ofOption Written.ofString,
    Written.bool, Written.map OperandDescription.written]

mutual
/-- The description of a rule set is written. -/
theorem RuleSetDescription.written : (set : RuleSetDescription) → set.toJson.Written
  | ⟨head, children⟩ => by
    have hchildren := RuleSetDescription.writtenAll children
    have hseverity : ∀ severity : Severity, (Json.ofString severity.text).Written := fun _ =>
      .ofString _
    rw [RuleSetDescription.toJson_eq]
    refine .ofFields ?_
    simp [RuleSetDescription.values, Written.ofString, Written.ofId,
      Written.ofOption Written.ofString, Written.ofOption Written.ofId,
      Written.ofOption hseverity, Written.map RuleDescription.written, Written.array hchildren]

/-- The descriptions of rule sets are written. -/
theorem RuleSetDescription.writtenAll : (sets : List RuleSetDescription) →
    ∀ json ∈ RuleSetDescription.toJsonAll sets, json.Written
  | [] => by simp [RuleSetDescription.toJsonAll]
  | set :: more => by
    rw [RuleSetDescription.toJsonAll]
    exact List.forall_mem_cons.mpr
      ⟨RuleSetDescription.written set, RuleSetDescription.writtenAll more⟩
end

/-- The description of a tree is written. -/
theorem TreeDescription.written (tree : TreeDescription) : tree.toJson.Written := by
  have hversion : (Json.ofNat tree.version.toNat).Written := .count tree.version.toNat_lt
  rw [toJson_eq]
  refine .ofFields ?_
  simp [hversion, Written.map Written.ofString, RuleSetDescription.written]

/-- The text of a description is read back as the description when no more arrays and objects lie
inside each other than the reader keeps. Otherwise it is refused. -/
theorem TreeDescription.ofText?_jsonText (tree : TreeDescription) :
    TreeDescription.ofText? tree.jsonText =
      if tree.toJson.height ≤ Json.maxOpen then some tree else none := by
  rw [ofText?, jsonText, Json.read?_indented tree.written, Option.bind_some, readsBack]

end Rulebook
