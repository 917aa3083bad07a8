import Rulebook.Json.Quoted

/-!
# The parts of a TOML text

A TOML text is cut into marks, line breaks, blanks, quoted texts and words. A word is a run of other
characters: a bare key with its points, a number, a truth value or a date. Comments are passed over.
Control characters are refused everywhere, and a carriage return has to stand in front of a line
feed.
-/

namespace Rulebook.Toml

/-- The parts that a text is cut into. -/
inductive Token where
  /-- The end of a line. -/
  | lineBreak
  /-- Blanks and tabs. -/
  | blank
  /-- One of the marks `=`, `,` and the brackets. -/
  | mark (char : Char)
  /-- A quoted text; `block` tells that it may hold line breaks. -/
  | quoted (text : List Char) (block : Bool)
  /-- A run of other characters. -/
  | word (chars : List Char)
  deriving DecidableEq, Repr

/-- The marks. -/
def isMark (c : Char) : Bool := ['=', ',', '[', ']', '\x7b', '\x7d'].contains c

/-- A blank or a tab. -/
def isSpace (c : Char) : Bool := c == ' ' || c == '\t'

/-- A character that may stand in texts and comments. -/
def isPlain (c : Char) : Bool := c == '\t' || (decide (0x20 ≤ c.toNat) && c.toNat != 0x7F)

/-- A character that ends a word. -/
def endsWord (c : Char) : Bool :=
  isMark c || isSpace c || c == '\n' || c == '\r' || c == '#' || c == '"' || c == '\''

/-- The escapes of one letter. -/
def shortEscapes : List (Char × Char) :=
  [('b', '\x08'), ('t', '\t'), ('n', '\n'), ('f', '\x0c'), ('r', '\r'), ('e', '\x1b'), ('"', '"'),
   ('\\', '\\')]

/-- The character with a number that is written in hexadecimal digits. -/
def numbered? (digits : List Char) : Option Char := do
  let values ← digits.mapM Json.hexValue?
  let code := values.foldl (fun sum value => sum * 16 + value) 0
  if code.isValidChar then some (Char.ofNat code) else none

/-- The escape behind a backslash: the character, and how many characters the escape takes. -/
def escape? : List Char → Option (Char × Nat)
  | [] => none
  | c :: rest =>
    let size := if c = 'x' then 2 else if c = 'u' then 4 else if c = 'U' then 8 else 0
    if size = 0 then (shortEscapes.lookup c).map fun meant => (meant, 1)
    else if rest.length < size then none
    else (numbered? (rest.take size)).map fun meant => (meant, size + 1)

/-- The text up to a closing quotation mark on the same line, and what follows it. -/
def takeBasic? : List Char → Option (List Char × List Char)
  | [] => none
  | c :: rest =>
    if c = '"' then some ([], rest)
    else if c = '\\' then
      match escape? rest with
      | none => none
      | some (meant, size) =>
        (takeBasic? (rest.drop size)).map fun found => (meant :: found.1, found.2)
    else if isPlain c then (takeBasic? rest).map fun found => (c :: found.1, found.2)
    else none
termination_by text => text.length
decreasing_by
  · simp only [List.length_drop, List.length_cons]
    omega
  · simp

/-- The text up to a closing apostrophe on the same line, and what follows it. -/
def takeLiteral? : List Char → Option (List Char × List Char)
  | [] => none
  | c :: rest =>
    if c = '\'' then some ([], rest)
    else if isPlain c then (takeLiteral? rest).map fun found => (c :: found.1, found.2)
    else none

/-- What follows blanks and line breaks, and how many characters they take. -/
def gapLength : List Char → Nat
  | '\r' :: '\n' :: rest => gapLength rest + 2
  | c :: rest => if isSpace c || c == '\n' then gapLength rest + 1 else 0
  | [] => 0

/-- A line break comes next, at most blanks and tabs before it. -/
def endsLine (text : List Char) : Bool :=
  match text.dropWhile isSpace with
  | '\n' :: _ => true
  | '\r' :: '\n' :: _ => true
  | _ => false

/-- What follows a line break right at the start. -/
def skipBreak : List Char → List Char
  | '\n' :: rest => rest
  | '\r' :: '\n' :: rest => rest
  | text => text

/-- The end of a block: up to two marks more than the three that close it belong to the text. -/
def closeBlock (quote : Char) : List Char → List Char × List Char
  | c :: d :: rest =>
    if c = quote ∧ d = quote then ([quote, quote], rest)
    else if c = quote then ([quote], d :: rest)
    else ([], c :: d :: rest)
  | [c] => if c = quote then ([quote], []) else ([], [c])
  | [] => ([], [])

/-- The text up to three closing marks, and what follows them. In a block of quotation marks a
backslash escapes, and at the end of a line it joins the line with the next text. -/
def takeBlock? (quote : Char) : List Char → Option (List Char × List Char)
  | [] => none
  | c :: rest =>
    if c = quote ∧ [quote, quote].isPrefixOf rest then some (closeBlock quote (rest.drop 2))
    else if c = '\\' ∧ quote = '"' then
      if endsLine rest then takeBlock? quote (rest.drop (gapLength rest))
      else
        match escape? rest with
        | none => none
        | some (meant, size) =>
          (takeBlock? quote (rest.drop size)).map fun found => (meant :: found.1, found.2)
    else if isPlain c ∨ c = '\n' ∨ (c = '\r' ∧ rest.head? = some '\n') then
      (takeBlock? quote rest).map fun found => (c :: found.1, found.2)
    else none
termination_by text => text.length
decreasing_by
  · simp only [List.length_drop, List.length_cons]
    omega
  · simp only [List.length_drop, List.length_cons]
    omega
  · simp

/-- A quoted text, if the text starts with one: the text, whether it is a block, and what follows
it. -/
def takeQuoted? : List Char → Option (List Char × Bool × List Char)
  | '"' :: '"' :: '"' :: rest =>
    (takeBlock? '"' (skipBreak rest)).map fun found => (found.1, true, found.2)
  | '"' :: rest => (takeBasic? rest).map fun found => (found.1, false, found.2)
  | '\'' :: '\'' :: '\'' :: rest =>
    (takeBlock? '\'' (skipBreak rest)).map fun found => (found.1, true, found.2)
  | '\'' :: rest => (takeLiteral? rest).map fun found => (found.1, false, found.2)
  | _ => none

/-- The word at the start of a text. A date may be followed by one blank and a time, which then
belong to the word. -/
def takeWord (text : List Char) : List Char × List Char :=
  let word := text.takeWhile fun c => !endsWord c
  let rest := text.dropWhile fun c => !endsWord c
  let isDate := word.length == 10 && word[4]? == some '-' && word[7]? == some '-'
  match rest with
  | ' ' :: c :: more =>
    if isDate && c.isDigit then
      (word ++ ' ' :: (c :: more).takeWhile fun c => !endsWord c,
        (c :: more).dropWhile fun c => !endsWord c)
    else (word, rest)
  | _ => (word, rest)

/-- Cuts a text into at most `bound` parts. -/
def tokensUpTo? : (bound : Nat) → List Char → Option (List Token)
  | _, [] => some []
  | 0, _ :: _ => none
  | bound + 1, c :: rest =>
    if c = '\n' then (tokensUpTo? bound rest).map (.lineBreak :: ·)
    else if c = '\r' then
      match rest with
      | '\n' :: rest => (tokensUpTo? bound rest).map (.lineBreak :: ·)
      | _ => none
    else if isSpace c then (tokensUpTo? bound (rest.dropWhile isSpace)).map (.blank :: ·)
    else if isMark c then (tokensUpTo? bound rest).map (.mark c :: ·)
    else if c = '#' then
      let after := rest.dropWhile isPlain
      match after with
      | [] => some []
      | d :: _ => if d = '\n' ∨ d = '\r' then tokensUpTo? bound after else none
    else if c = '"' ∨ c = '\'' then
      match takeQuoted? (c :: rest) with
      | none => none
      | some (text, block, after) => (tokensUpTo? bound after).map (.quoted text block :: ·)
    else
      let (word, after) := takeWord (c :: rest)
      (tokensUpTo? bound after).map (.word word :: ·)

/-- Cuts a text into its parts. A mark of byte order in front is passed over. -/
def tokens? (text : List Char) : Option (List Token) :=
  match text with
  | '\ufeff' :: rest => tokensUpTo? rest.length rest
  | _ => tokensUpTo? text.length text

end Rulebook.Toml
