import Rulebook.Operator.Phrase
import Rulebook.Refusal
import Rulebook.Text.Quoted

/-!
# Custom operators

A registry binds names to functions of four texts. Names are kept in capitals and in the order in
which they were first registered; registering a name again replaces the function and keeps the
place. A name must not be empty, must not contain blanks and must not be reserved, so that it is
always one word that no other phrase contains.
-/

namespace Rulebook

/-- What a custom operator computes from its four arguments. -/
abbrev Operation := String → String → String → String → String

/-- The custom operators. -/
structure Registry where
  /-- The names and their functions, in order of first registration. -/
  entries : List (String × Operation) := []

namespace Registry

/-- The registry without operators. -/
def empty : Registry := {}

instance : Inhabited Registry := ⟨empty⟩

/-- The names in order of first registration. -/
def names (registry : Registry) : List String := registry.entries.map Prod.fst

/-- The number of operators. -/
def size (registry : Registry) : Nat := registry.entries.length

/-- Puts a function under a name, at the place of the name if it is there and at the end
otherwise. -/
def bind (name : String) (operation : Operation) :
    List (String × Operation) → List (String × Operation)
  | [] => [(name, operation)]
  | entry :: more =>
    if entry.1 = name then (name, operation) :: more else entry :: bind name operation more

/-- The form in which a name is kept. -/
def normalName (name : String) : String := Text.capitals (Text.trimmed name)

/-- A name may be registered. -/
def admits (name : String) : Bool :=
  let name := normalName name
  !(name.toList.isEmpty || name.toList.any Text.isBlank || isReserved name)

/-- Registers a function under a name. -/
def register (registry : Registry) (name : String) (operation : Operation) :
    Except Refusal Registry :=
  if admits name then .ok ⟨bind (normalName name) operation registry.entries⟩
  else .error (.reservedName name)

/-- The function under a name, without regard to case. -/
def find? (registry : Registry) (name : String) : Option Operation :=
  registry.entries.lookup (Text.capitals name)

/-- A function is registered under the name. -/
def contains (registry : Registry) (name : String) : Bool := (registry.find? name).isSome

/-- The value of an operator for a list of arguments; arguments that are not given are empty. -/
def invoke (registry : Registry) (name : String) (arguments : List String) :
    Except Refusal String :=
  match registry.find? name with
  | some operation =>
    .ok (operation (arguments[0]?.getD "") (arguments[1]?.getD "") (arguments[2]?.getD "")
      (arguments[3]?.getD ""))
  | none => .error (.unboundOperator name)

/-- A registry as it is shown to developers: the names, not the functions. -/
def listing (registry : Registry) : String :=
  "CustomOperatorRegistry \x7b operators: [" ++
    ", ".intercalate (registry.names.map Text.quote) ++ "] \x7d"

/-- After putting a function under a name the name is bound to it, and others as before. -/
theorem lookup_bind (name other : String) (operation : Operation)
    (entries : List (String × Operation)) :
    (bind name operation entries).lookup other =
      if other = name then some operation else entries.lookup other := by
  induction entries with
  | nil =>
    rw [bind, List.lookup_cons]
    by_cases h : other = name
    · simp [h]
    · rw [beq_false_of_ne h, if_neg h]
  | cons entry more ih =>
    obtain ⟨first, function⟩ := entry
    simp only [bind]
    split
    · next same =>
      subst same
      rw [List.lookup_cons, List.lookup_cons]
      by_cases h : other = first
      · simp [h]
      · rw [beq_false_of_ne h, if_neg h]
    · next unlike =>
      rw [List.lookup_cons, List.lookup_cons, ih]
      by_cases h : other = first
      · subst h
        simp [unlike]
      · rw [beq_false_of_ne h]

end Registry

end Rulebook
