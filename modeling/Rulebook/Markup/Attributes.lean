import Rulebook.Markup.Token

/-!
# Attributes of tags

The content of a tag is a name and attributes. An attribute is a key, an equals sign and a value in
quotes of either kind; blanks may stand around the equals sign, and the next attribute may follow
without one. Keys are not repeated. Places are counted in bytes from the start of the content.
-/

namespace Rulebook.Markup

open Rulebook.Text (byteSize)

/-- The name at the front of the content of a tag: everything up to the first blank. -/
def tagName (content : List Char) : List Char := content.takeWhile fun c => !isSpace c

/-- A character that may stand in a key behind its first. -/
def isKeyChar (c : Char) : Bool := c != '=' && !isSpace c

/-- The number of bytes in front of the first character that is no blank. -/
def leadingSpaces (text : List Char) : Nat := (text.takeWhile isSpace).length

/-- A key with the place where it starts, the place behind the equals sign, and what follows. -/
structure KeyReading where
  /-- The key. -/
  key : List Char
  /-- The place where the key starts. -/
  start : Nat
  /-- The place behind the equals sign. -/
  stop : Nat
  /-- What follows the equals sign. -/
  rest : List Char

/-- Reads a key that starts with a character and the equals sign behind it. `size` is the length of
the content. -/
def readKey (size start : Nat) (first : Char) (more : List Char) :
    Except AttributeFault KeyReading :=
  let key := first :: more.takeWhile isKeyChar
  let behind := more.dropWhile isKeyChar
  let place := start + byteSize key + leadingSpaces behind
  match behind.dropWhile isSpace with
  | [] => .error (.missingEquals size)
  | c :: rest =>
    if c = '=' then .ok ⟨key, start, place + 1, rest⟩ else .error (.missingEquals place)

/-- A value as it is written, the place behind its closing quote, and what follows. -/
structure ValueReading where
  /-- The value as it is written. -/
  raw : List Char
  /-- The place behind the closing quote. -/
  stop : Nat
  /-- What follows the closing quote. -/
  rest : List Char

/-- Reads a value in quotes. -/
def readValue (size place : Nat) (text : List Char) : Except AttributeFault ValueReading :=
  let start := place + leadingSpaces text
  match text.dropWhile isSpace with
  | [] => .error (.missingValue size)
  | quote :: body =>
    if quote = '"' ∨ quote = '\'' then
      let raw := body.takeWhile (· != quote)
      match body.dropWhile (· != quote) with
      | [] => .error (.openValue size quote)
      | _ :: rest => .ok ⟨raw, start + 1 + byteSize raw + 1, rest⟩
    else .error (.unquotedValue start)

/-- What follows a key is no longer than what followed its first character. -/
theorem length_le_of_readKey {size start : Nat} {first : Char} {more : List Char}
    {reading : KeyReading} (h : readKey size start first more = .ok reading) :
    reading.rest.length ≤ more.length := by
  have behind := (List.dropWhile_sublist (l := more) isKeyChar).length_le
  have after := (List.dropWhile_sublist (l := more.dropWhile isKeyChar) isSpace).length_le
  simp only [readKey] at h
  split at h
  · cases h
  · next c rest found =>
    split at h
    · cases h
      rw [found] at after
      simp only [List.length_cons] at after
      simp only
      omega
    · cases h

/-- What follows a value is no longer than the text it stands in. -/
theorem length_le_of_readValue {size place : Nat} {text : List Char} {reading : ValueReading}
    (h : readValue size place text = .ok reading) : reading.rest.length ≤ text.length := by
  have blanks := (List.dropWhile_sublist (l := text) isSpace).length_le
  simp only [readValue] at h
  split at h
  · cases h
  · next quote body found =>
    split at h
    · have value := (List.dropWhile_sublist (l := body) fun c => c != quote).length_le
      split at h
      · cases h
      · next rest ends =>
        cases h
        rw [found] at blanks
        rw [ends] at value
        simp only [List.length_cons] at blanks value
        simp only
        omega
    · cases h

/-- Reads attributes from a place on. `element` is the name of the element for faults, `size` the
length of the content, and `seen` holds the keys so far with their places. -/
def readAttributes (element : String) (size : Nat) (seen : List (List Char × Nat)) (place : Nat)
    (text : List Char) : Except MarkupFault (List (String × String)) :=
  match _found : text.dropWhile isSpace with
  | [] => .ok []
  | first :: more =>
    match _key : readKey size (place + leadingSpaces text) first more with
    | .error fault => .error (.attributes element fault)
    | .ok key =>
      match seen.lookup key.key with
      | some earlier => .error (.attributes element (.duplicateKey key.start earlier))
      | none =>
        match _value : readValue size key.stop key.rest with
        | .error fault => .error (.attributes element fault)
        | .ok value =>
          match Text.unescape value.raw with
          | .error fault => .error (.attributeValue element (String.ofList key.key) fault)
          | .ok resolved => do
            let others ←
              readAttributes element size ((key.key, key.start) :: seen) value.stop value.rest
            return (String.ofList key.key, String.ofList resolved) :: others
termination_by text.length
decreasing_by
  have keyLength := length_le_of_readKey _key
  have valueLength := length_le_of_readValue _value
  have blanks := (List.dropWhile_sublist (l := text) isSpace).length_le
  rw [_found] at blanks
  simp only [List.length_cons] at blanks
  omega

/-- The attributes in the content of a tag. -/
def attributesOf (content : List Char) : Except MarkupFault (List (String × String)) :=
  let name := tagName content
  readAttributes (String.ofList name) (byteSize content) [] (byteSize name)
    (content.drop name.length)

end Rulebook.Markup
