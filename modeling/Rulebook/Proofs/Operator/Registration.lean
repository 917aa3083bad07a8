import Mathlib
import Rulebook.Operator.Registry

/-!
# Names of custom operators

Registering keeps a name in capitals, so looking it up, which writes it in capitals again, finds it
as it stands. `Made` says of a registry that all of its names came about in this way; registering
keeps it, and every name of such a registry has a function.
-/

namespace Rulebook

theorem Text.capitals_capitals (text : String) :
    Text.capitals (Text.capitals text) = Text.capitals text := by
  simp [Text.capitals, Text.upper, Function.comp_def, Char.toUpper_toUpper_eq_toUpper]

theorem Text.upper_of_capitals {text : String} (h : Text.capitals text = text) :
    Text.upper text.toList = text.toList := by
  rw [← String.toList_ofList (l := Text.upper text.toList)]
  exact congrArg String.toList h

namespace Registry

variable {registry next : Registry} {name other : String} {operation : Operation}

/-- Every name is the kept form of a name that may be registered. -/
def Made (registry : Registry) : Prop :=
  ∀ name ∈ registry.names, ∃ given, admits given = true ∧ normalName given = name

/-- No operators were registered in the empty registry. -/
theorem made_empty : Made .empty := fun _ hm => absurd hm List.not_mem_nil

theorem capitals_normalName (name : String) : Text.capitals (normalName name) = normalName name :=
  Text.capitals_capitals _

/-- Putting a function under a name keeps the names, and a new one comes last. -/
theorem map_fst_bind (name : String) (operation : Operation) (entries : List (String × Operation)) :
    (bind name operation entries).map Prod.fst =
      if name ∈ entries.map Prod.fst then entries.map Prod.fst
      else entries.map Prod.fst ++ [name] := by
  induction entries with
  | nil => rfl
  | cons entry more ih =>
    rw [bind]
    by_cases hsame : entry.1 = name
    · simp [hsame]
    · rw [if_neg hsame, List.map_cons, ih, List.map_cons]
      have hmem : name ∈ entry.1 :: more.map Prod.fst ↔ name ∈ more.map Prod.fst := by
        rw [List.mem_cons, or_iff_right (Ne.symm hsame)]
      simp only [hmem]
      split <;> rfl

/-- The names after putting a function under a name are that name and those before. -/
theorem mem_map_fst_bind (name other : String) (operation : Operation)
    (entries : List (String × Operation)) :
    other ∈ (bind name operation entries).map Prod.fst ↔
      other = name ∨ other ∈ entries.map Prod.fst := by
  rw [map_fst_bind]
  split
  · next hm => exact ⟨.inr, fun h => h.elim (fun heq => heq ▸ hm) id⟩
  · rw [List.mem_append, List.mem_singleton]
    exact or_comm

/-- Registering binds the kept form of a name that may be registered. -/
theorem register_eq_ok_iff : registry.register name operation = .ok next ↔
    admits name = true ∧ next = ⟨bind (normalName name) operation registry.entries⟩ := by
  unfold register
  by_cases hadmits : admits name = true
  · rw [if_pos hadmits, Except.ok.injEq, and_iff_right hadmits, eq_comm]
  · rw [if_neg hadmits]
    exact ⟨nofun, fun h => absurd h.1 hadmits⟩

/-- Registering is refused for a name that may not be registered. -/
theorem register_eq_error_iff {refusal : Refusal} :
    registry.register name operation = .error refusal ↔
      admits name = false ∧ refusal = .reservedName name := by
  unfold register
  by_cases hadmits : admits name = true
  · rw [if_pos hadmits, hadmits]
    exact ⟨nofun, nofun⟩
  · rw [if_neg hadmits, Except.error.injEq, and_iff_right (Bool.eq_false_iff.mpr hadmits), eq_comm]

/-- A name that is new comes last, and one that was there keeps its place. -/
theorem names_register (h : registry.register name operation = .ok next) :
    next.names =
      if normalName name ∈ registry.names then registry.names
      else registry.names ++ [normalName name] := by
  obtain ⟨-, rfl⟩ := register_eq_ok_iff.mp h
  exact map_fst_bind _ _ _

/-- Registering adds the kept form of the name, which may be registered. -/
theorem register_cases (h : registry.register name operation = .ok next) :
    admits name = true ∧
      ∀ other, other ∈ next.names ↔ other = normalName name ∨ other ∈ registry.names := by
  obtain ⟨hadmits, rfl⟩ := register_eq_ok_iff.mp h
  exact ⟨hadmits, fun other => mem_map_fst_bind _ other operation registry.entries⟩

/-- Registering keeps it that all names were registered. -/
theorem Made.register (hm : registry.Made) (h : registry.register name operation = .ok next) :
    next.Made := by
  obtain ⟨hadmits, hnames⟩ := register_cases h
  intro other ho
  rcases (hnames other).mp ho with rfl | ho
  · exact ⟨name, hadmits, rfl⟩
  · exact hm other ho

/-- A function is found under a name when the name in capitals is one of the names. -/
theorem contains_iff : registry.contains name = true ↔ Text.capitals name ∈ registry.names := by
  have hnone : registry.find? name = none ↔ Text.capitals name ∉ registry.names := by
    rw [find?, List.lookup_eq_none_iff, names, List.mem_map, not_exists]
    exact forall_congr' fun entry => by rw [not_and, bne_iff_ne, ne_comm, ne_eq]
  rw [contains, Option.isSome_iff_ne_none, ne_eq, hnone, not_not]

/-- Every name of a registry that registrations made is found. -/
theorem Made.contains (hm : registry.Made) (hn : name ∈ registry.names) :
    registry.contains name = true := by
  obtain ⟨given, -, rfl⟩ := hm name hn
  rw [contains_iff, capitals_normalName]
  exact hn

end Registry

end Rulebook
