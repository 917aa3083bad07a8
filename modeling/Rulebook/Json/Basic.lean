/-!
# JSON values as they are written

A value keeps the spelling of its strings, member names and numbers. What a spelling means is
decided where it is used: a member that nobody asks for is never decoded, and a number becomes a
count or a binary64 value only where one is wanted.
-/

namespace Rulebook

/-- A JSON value. -/
inductive Json where
  /-- The literal `null`. -/
  | null
  /-- One of the literals `true` and `false`. -/
  | bool (value : Bool)
  /-- A number as it is spelled. -/
  | number (spelling : String)
  /-- A string as it is spelled between its quotes. -/
  | string (spelling : String)
  /-- The items of an array. -/
  | array (items : List Json)
  /-- The members of an object, each name as it is spelled between its quotes. -/
  | object (members : List (String × Json))
  /-- An array or object that is nested too deeply to be read; it may only be passed over. -/
  | deep
  deriving Repr, Inhabited

mutual
/-- Decides whether two values are written with the same parts. -/
def Json.decEq : (left right : Json) → Decidable (left = right)
  | .null, .null => .isTrue rfl
  | .deep, .deep => .isTrue rfl
  | .bool a, .bool b =>
    if h : a = b then .isTrue (by rw [h]) else .isFalse (by intro e; cases e; exact h rfl)
  | .number a, .number b =>
    if h : a = b then .isTrue (by rw [h]) else .isFalse (by intro e; cases e; exact h rfl)
  | .string a, .string b =>
    if h : a = b then .isTrue (by rw [h]) else .isFalse (by intro e; cases e; exact h rfl)
  | .array a, .array b =>
    match Json.decEqItems a b with
    | .isTrue h => .isTrue (by rw [h])
    | .isFalse h => .isFalse (by intro e; cases e; exact h rfl)
  | .object a, .object b =>
    match Json.decEqMembers a b with
    | .isTrue h => .isTrue (by rw [h])
    | .isFalse h => .isFalse (by intro e; cases e; exact h rfl)
  | .null, .bool _ | .null, .number _ | .null, .string _ | .null, .array _ | .null, .object _
  | .bool _, .null | .bool _, .number _ | .bool _, .string _ | .bool _, .array _
  | .bool _, .object _ | .number _, .null | .number _, .bool _ | .number _, .string _
  | .number _, .array _ | .number _, .object _ | .string _, .null | .string _, .bool _
  | .string _, .number _ | .string _, .array _ | .string _, .object _ | .array _, .null
  | .array _, .bool _ | .array _, .number _ | .array _, .string _ | .array _, .object _
  | .object _, .null | .object _, .bool _ | .object _, .number _ | .object _, .string _
  | .object _, .array _ | .null, .deep | .bool _, .deep | .number _, .deep | .string _, .deep
  | .array _, .deep | .object _, .deep | .deep, .null | .deep, .bool _ | .deep, .number _
  | .deep, .string _ | .deep, .array _ | .deep, .object _ => .isFalse (by intro e; cases e)

/-- Decides whether two lists of items are the same. -/
def Json.decEqItems : (left right : List Json) → Decidable (left = right)
  | [], [] => .isTrue rfl
  | a :: as, b :: bs =>
    match Json.decEq a b, Json.decEqItems as bs with
    | .isTrue h, .isTrue k => .isTrue (by rw [h, k])
    | .isFalse h, _ => .isFalse (by intro e; cases e; exact h rfl)
    | _, .isFalse k => .isFalse (by intro e; cases e; exact k rfl)
  | [], _ :: _ => .isFalse (by intro e; cases e)
  | _ :: _, [] => .isFalse (by intro e; cases e)

/-- Decides whether two lists of members are the same. -/
def Json.decEqMembers : (left right : List (String × Json)) → Decidable (left = right)
  | [], [] => .isTrue rfl
  | (n, a) :: as, (m, b) :: bs =>
    if h : n = m then
      match Json.decEq a b, Json.decEqMembers as bs with
      | .isTrue k, .isTrue l => .isTrue (by rw [h, k, l])
      | .isFalse k, _ => .isFalse (by intro e; cases e; exact k rfl)
      | _, .isFalse l => .isFalse (by intro e; cases e; exact l rfl)
    else .isFalse (by intro e; cases e; exact h rfl)
  | [], _ :: _ => .isFalse (by intro e; cases e)
  | _ :: _, [] => .isFalse (by intro e; cases e)
end

instance : DecidableEq Json := Json.decEq

end Rulebook
