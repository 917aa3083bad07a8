import Rulebook.Refusal
import Rulebook.Text.Letter

/-!
# Tokens of markup

A document is cut into tags, text and character data; comments, document types and processing
instructions mean nothing. Each token knows how many bytes of the document were read when it ended,
because faults are reported with that number. A document that cannot be cut ends with a token that
holds the fault, so what stands before it is still read first.
-/

namespace Rulebook.Markup

open Rulebook.Text (byteSize)

/-- The blanks of markup: space, tab and the two line breaks. -/
def isSpace (c : Char) : Bool := c == ' ' || c == '\t' || c == '\r' || c == '\n'

/-- The parts that a document is cut into. -/
inductive Token where
  /-- Text as it is written. -/
  | text (raw : List Char)
  /-- The content of a section of character data. -/
  | characterData (content : List Char)
  /-- A comment, document type or processing instruction. -/
  | silent
  /-- The content of a start tag. -/
  | start (content : List Char)
  /-- The content of the tag of an element without content. -/
  | empty (content : List Char)
  /-- The name in an end tag. -/
  | stop (name : List Char)
  /-- The document cannot be cut any further. -/
  | broken (fault : SyntaxFault)
  deriving DecidableEq, Repr

/-- A token with the number of bytes read when it ended. -/
structure PlacedToken where
  /-- The token. -/
  token : Token
  /-- The number of bytes up to the end of the token. -/
  place : Nat
  deriving DecidableEq, Repr

/-- Splits a text at the first closing bracket that the test admits: what stands before it and what
follows it. The test looks at the text before the bracket in reverse, which `before` begins. -/
def splitClose (test : List Char → Bool) (before : List Char) :
    List Char → Option (List Char × List Char)
  | [] => none
  | c :: rest =>
    if c = '>' ∧ test before then some (before.reverse, rest)
    else splitClose test (c :: before) rest

/-- Splits a text at the first closing bracket outside quotes. -/
def splitTag (quote : Option Char) (before : List Char) :
    List Char → Option (List Char × List Char)
  | [] => none
  | c :: rest =>
    match quote with
    | some q => splitTag (if c = q then none else some q) (c :: before) rest
    | none =>
      if c = '>' then some (before.reverse, rest)
      else splitTag (if c = '\'' ∨ c = '"' then some c else none) (c :: before) rest

/-- Splits a text at the closing bracket that belongs to no opening one; `depth` opening brackets
wait for theirs. -/
def splitNested (depth : Nat) (before : List Char) : List Char → Option (List Char × List Char)
  | [] => none
  | c :: rest =>
    if c = '<' then splitNested (depth + 1) (c :: before) rest
    else if c = '>' then
      if depth = 0 then some (before.reverse, rest)
      else splitNested (depth - 1) (c :: before) rest
    else splitNested depth (c :: before) rest

/-- What follows the closing bracket is shorter. -/
theorem length_lt_of_splitClose {test : List Char → Bool} {before text body rest : List Char}
    (h : splitClose test before text = some (body, rest)) : rest.length < text.length := by
  induction text generalizing before with
  | nil => cases h
  | cons c more ih =>
    simp only [splitClose] at h
    split at h
    · cases h; simp
    · have := ih h
      simp only [List.length_cons]
      omega

/-- What follows the closing bracket is shorter. -/
theorem length_lt_of_splitTag {quote : Option Char} {before text body rest : List Char}
    (h : splitTag quote before text = some (body, rest)) : rest.length < text.length := by
  induction text generalizing quote before with
  | nil => cases h
  | cons c more ih =>
    simp only [splitTag] at h
    split at h
    · have := ih h
      simp only [List.length_cons]
      omega
    · split at h
      · cases h; simp
      · have := ih h
        simp only [List.length_cons]
        omega

/-- What follows the closing bracket is shorter. -/
theorem length_lt_of_splitNested {depth : Nat} {before text body rest : List Char}
    (h : splitNested depth before text = some (body, rest)) : rest.length < text.length := by
  induction text generalizing depth before with
  | nil => cases h
  | cons c more ih =>
    simp only [splitNested] at h
    split at h
    · have := ih h
      simp only [List.length_cons]
      omega
    · split at h
      · split at h
        · cases h; simp
        · have := ih h
          simp only [List.length_cons]
          omega
      · have := ih h
        simp only [List.length_cons]
        omega

/-- Where a construct behind an opening bracket ends, and which token it makes. -/
structure Construct where
  /-- What stands between the brackets and what follows, if there is an end. -/
  split : Option (List Char × List Char)
  /-- The fault if there is no end. -/
  unended : SyntaxFault
  /-- The token of what stands between the brackets. -/
  token : List Char → Token

/-- Comments: the body begins with `!--` and ends with two hyphens of its own. -/
def commentToken (body : List Char) : Token :=
  if ['!', '-', '-'].isPrefixOf body then .silent else .broken .openComment

/-- Sections of character data: the body begins with `![CDATA[` and ends with `]]`. -/
def characterDataToken (body : List Char) : Token :=
  if "![CDATA[".toList.isPrefixOf body then .characterData ((body.drop 8).dropLast.dropLast)
  else .broken .openCharacterData

/-- Document types: the body begins with `!DOCTYPE` in any case, and a name follows. -/
def documentTypeToken (body : List Char) : Token :=
  if Text.upper (body.take 8) = "!DOCTYPE".toList then
    if (body.drop 8).all isSpace then .broken .unnamedDocumentType else .silent
  else .broken .openDocumentType

/-- Processing instructions: the body begins and ends with question marks of its own. -/
def instructionToken (body : List Char) : Token :=
  if body.length ≤ 1 then .broken .openInstruction else .silent

/-- The name in an end tag, without the blanks behind it; blanks alone are a name. -/
def endName (content : List Char) : List Char :=
  if content.all isSpace then content else (content.reverse.dropWhile isSpace).reverse

/-- Tags: an end tag begins and the tag of an empty element ends with a slash. -/
def tagToken (body : List Char) : Token :=
  match body with
  | '/' :: content => .stop (endName content)
  | _ => if body.getLast? = some '/' then .empty body.dropLast else .start body

/-- The construct behind an opening bracket; an exclamation mark has to be followed by a known
character. -/
def construct? (text : List Char) : Option Construct :=
  match text with
  | '!' :: '-' :: _ =>
    some ⟨splitClose (fun before => decide (4 < before.length) && ['-', '-'].isPrefixOf before) []
      text, .openComment, commentToken⟩
  | '!' :: '[' :: _ =>
    some ⟨splitClose (fun before => [']', ']'].isPrefixOf before) [] text, .openCharacterData,
      characterDataToken⟩
  | '!' :: 'D' :: _ => some ⟨splitNested 0 [] text, .openDocumentType, documentTypeToken⟩
  | '!' :: 'd' :: _ => some ⟨splitNested 0 [] text, .openDocumentType, documentTypeToken⟩
  | '!' :: _ => none
  | '?' :: _ =>
    some ⟨splitClose (fun before => ['?'].isPrefixOf before) [] text, .openInstruction,
      instructionToken⟩
  | _ => some ⟨splitTag none [] text, .openTag, tagToken⟩

/-- What follows a construct is shorter than the text that begins with it. -/
theorem length_lt_of_construct {text body rest : List Char} {construct : Construct}
    (h : construct? text = some construct) (ends : construct.split = some (body, rest)) :
    rest.length < text.length := by
  unfold construct? at h
  split at h <;> first
    | (cases h; exact length_lt_of_splitClose ends)
    | (cases h; exact length_lt_of_splitNested ends)
    | (cases h; exact length_lt_of_splitTag ends)
    | cases h

/-- Cuts a text into tokens; `place` bytes were read before. -/
def scan (place : Nat) : List Char → List PlacedToken
  | [] => []
  | c :: rest =>
    if c = '<' then
      match _found : construct? rest with
      | none => [⟨.broken .unknownMark, place + 1⟩]
      | some construct =>
        match _ends : construct.split with
        | none => [⟨.broken construct.unended, place + 1 + byteSize rest⟩]
        | some (body, more) =>
          let after := place + 1 + byteSize body + 1
          ⟨construct.token body, after⟩ :: scan after more
    else
      let raw := c :: rest.takeWhile (· != '<')
      let after := place + byteSize raw
      ⟨.text raw, after⟩ :: scan after (rest.dropWhile (· != '<'))
termination_by text => text.length
decreasing_by
  · have := length_lt_of_construct _found _ends
    simp only [List.length_cons]
    omega
  · have := (List.dropWhile_sublist (l := rest) fun d => d != '<').length_le
    simp only [List.length_cons]
    omega

/-- The tokens of a document. A byte order mark in front is no part of the document. -/
def tokens : List Char → List PlacedToken
  | [] => []
  | c :: rest => if c = '\uFEFF' then scan 0 rest else scan 0 (c :: rest)

end Rulebook.Markup
