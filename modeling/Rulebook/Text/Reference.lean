import Rulebook.Text.Blank

/-!
# References in markup text

A reference stands for one character: five characters have names, and every character has a
decimal and a hexadecimal number. Writing replaces the five named characters, reading resolves
all references. Offsets count the bytes of the UTF-8 form, which is how faults are reported.

The main law is `unescape_escape`: reading undoes writing.
-/

namespace Rulebook.Text

/-- The number of bytes of a text in UTF-8. -/
def byteSize (text : List Char) : Nat := text.foldl (fun size c => size + c.utf8Size) 0

/-- Why a reference cannot be resolved. -/
inductive ReferenceFault where
  /-- No semicolon comes before the next ampersand or the end of the text. -/
  | unterminated (start stop : Nat)
  /-- The name between ampersand and semicolon is none of the five. -/
  | unknownName (start stop : Nat) (name : String)
  /-- A character number starts with a sign. -/
  | signedNumber
  /-- A character number has a character that is no digit of its base. -/
  | invalidDigit
  /-- A character number has no digits. -/
  | missingDigits
  /-- A character number does not fit into 32 bits. -/
  | numberTooLarge
  /-- The character number is zero. -/
  | zeroCharacter
  /-- The number belongs to no character. -/
  | noCharacter (number : Nat)
  deriving DecidableEq, Repr

/-- The wording of a fault. -/
def ReferenceFault.message : ReferenceFault → String
  | .unterminated start stop =>
    s!"Error while escaping character at range {start}..{stop}: Cannot find ';' after '&'"
  | .unknownName start stop name => s!"at {start}..{stop}: unrecognized entity `{name}`"
  | .signedNumber => "invalid character reference: unexpected number sign"
  | .invalidDigit => "invalid character reference: invalid digit found in string"
  | .missingDigits => "invalid character reference: cannot parse integer from empty string"
  | .numberTooLarge => "invalid character reference: number too large to fit in target type"
  | .zeroCharacter => "invalid character reference: 0x0 character is not permitted in XML"
  | .noCharacter number => s!"invalid character reference: `{number}` is not a valid codepoint"

/-- The value of a digit, where digits after nine are letters of either case. -/
def digitValue? (c : Char) : Option Nat :=
  if '0' ≤ c ∧ c ≤ '9' then some (c.toNat - '0'.toNat)
  else if 'a' ≤ c ∧ c ≤ 'z' then some (c.toNat - 'a'.toNat + 10)
  else if 'A' ≤ c ∧ c ≤ 'Z' then some (c.toNat - 'A'.toNat + 10)
  else none

/-- Continues a character number digit by digit; the first digit that is wrong or too much
decides which fault is reported. -/
def numberFrom (base : Nat) (value : Nat) : List Char → Except ReferenceFault Nat
  | [] => .ok value
  | c :: rest =>
    match digitValue? c with
    | none => .error .invalidDigit
    | some digit =>
      if digit < base then
        if value * base + digit < UInt32.size then numberFrom base (value * base + digit) rest
        else .error .numberTooLarge
      else .error .invalidDigit

/-- The number written by the digits of a character reference. -/
def characterNumber (base : Nat) : List Char → Except ReferenceFault Nat
  | [] => .error .missingDigits
  | '+' :: _ => .error .signedNumber
  | '-' :: _ => .error .signedNumber
  | digits => numberFrom base 0 digits

/-- The character with a number. -/
def characterOf (number : Nat) : Except ReferenceFault Char :=
  if number = 0 then .error .zeroCharacter
  else if number.isValidChar then .ok (Char.ofNat number)
  else .error (.noCharacter number)

/-- The character with a name. -/
def namedCharacter? : List Char → Option Char
  | ['l', 't'] => some '<'
  | ['g', 't'] => some '>'
  | ['a', 'm', 'p'] => some '&'
  | ['a', 'p', 'o', 's'] => some '\''
  | ['q', 'u', 'o', 't'] => some '"'
  | _ => none

/-- The character that the text between ampersand and semicolon stands for; `start` is the offset
of that text. -/
def resolve (start : Nat) (body : List Char) : Except ReferenceFault Char :=
  match body with
  | '#' :: 'x' :: digits => characterNumber 16 digits >>= characterOf
  | '#' :: digits => characterNumber 10 digits >>= characterOf
  | _ =>
    match namedCharacter? body with
    | some c => .ok c
    | none => .error (.unknownName start (start + byteSize body) (String.ofList body))

/-- Resolves the references of a text that ends at offset `stop`. The reader is at offset
`position`; `opened` holds the offset of an ampersand that has not found its semicolon, with the
characters since then in reverse. -/
def unescapeFrom (stop : Nat) :
    (position : Nat) → (opened : Option (Nat × List Char)) → List Char →
      Except ReferenceFault (List Char)
  | _, none, [] => .ok []
  | _, some (start, _), [] => .error (.unterminated start stop)
  | position, none, c :: rest =>
    if c = '&' then unescapeFrom stop (position + 1) (some (position, [])) rest
    else do return c :: (← unescapeFrom stop (position + c.utf8Size) none rest)
  | position, some (start, body), c :: rest =>
    if c = '&' then .error (.unterminated start stop)
    else if c = ';' then do
      let resolved ← resolve (start + 1) body.reverse
      return resolved :: (← unescapeFrom stop (position + 1) none rest)
    else unescapeFrom stop (position + c.utf8Size) (some (start, c :: body)) rest

/-- The text with its references replaced by the characters they stand for. -/
def unescape (text : List Char) : Except ReferenceFault (List Char) :=
  unescapeFrom (byteSize text) 0 none text

/-- The written form of one character: the five named characters become references. -/
def escapeChar (c : Char) : List Char :=
  if c = '<' then ['&', 'l', 't', ';']
  else if c = '>' then ['&', 'g', 't', ';']
  else if c = '&' then ['&', 'a', 'm', 'p', ';']
  else if c = '\'' then ['&', 'a', 'p', 'o', 's', ';']
  else if c = '"' then ['&', 'q', 'u', 'o', 't', ';']
  else [c]

/-- The written form of a text in which every named character is a reference. -/
def escape (text : List Char) : List Char := text.flatMap escapeChar

/-- The written form of a text in which quotes stay as they are: only the characters that begin
tags and references, and the end of tags, become references. -/
def escapeMarkup (text : List Char) : List Char :=
  text.flatMap fun c => if c = '\'' ∨ c = '"' then [c] else escapeChar c

/-- Reading one written character gives the character and goes on behind it. -/
theorem unescapeFrom_escapeChar (stop position : Nat) (c : Char) (rest : List Char) :
    unescapeFrom stop position none (escapeChar c ++ rest) =
      (c :: ·) <$> unescapeFrom stop (position + byteSize (escapeChar c)) none rest := by
  unfold escapeChar
  split
  · next h => subst h; simp [unescapeFrom, resolve, namedCharacter?, byteSize]; rfl
  · split
    · next h => subst h; simp [unescapeFrom, resolve, namedCharacter?, byteSize]; rfl
    · split
      · next h => subst h; simp [unescapeFrom, resolve, namedCharacter?, byteSize]; rfl
      · split
        · next h => subst h; simp [unescapeFrom, resolve, namedCharacter?, byteSize]; rfl
        · split
          · next h => subst h; simp [unescapeFrom, resolve, namedCharacter?, byteSize]; rfl
          · next amp _ _ => simp [unescapeFrom, amp, byteSize]

/-- Reading undoes writing, wherever the written text starts and ends. -/
theorem unescapeFrom_escape (stop position : Nat) (text : List Char) :
    unescapeFrom stop position none (escape text) = .ok text := by
  induction text generalizing position with
  | nil => rfl
  | cons c rest ih =>
    rw [escape, List.flatMap_cons, unescapeFrom_escapeChar, ← escape, ih]
    rfl

/-- Reading undoes writing. -/
theorem unescape_escape (text : List Char) : unescape (escape text) = .ok text :=
  unescapeFrom_escape _ _ text

end Rulebook.Text
