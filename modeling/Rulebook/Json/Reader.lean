import Rulebook.Json.Quoted
import Rulebook.Json.Number

/-!
# Reading JSON

A text is cut into tokens, and the tokens are read from the left with a list of the arrays and
objects that are still open. Nothing may follow the value, and no comma may stand before a closing
bracket. Arrays and objects may be nested without limit, but one that lies inside 127 others is only
checked and not kept.
-/

namespace Rulebook.Json

/-- The parts that a JSON text is cut into. -/
inductive Token where
  /-- An opening square bracket. -/
  | openArray
  /-- A closing square bracket. -/
  | closeArray
  /-- An opening brace. -/
  | openObject
  /-- A closing brace. -/
  | closeObject
  /-- A comma. -/
  | comma
  /-- A colon. -/
  | colon
  /-- A string with its spelling, which may be a value or the name of a member. -/
  | quoted (spelling : String)
  /-- A literal or a number. -/
  | scalar (value : Json)
  deriving Repr, DecidableEq

/-- Blank, tab and the two line breaks separate tokens. -/
def isSpace (c : Char) : Bool := c == ' ' || c == '\t' || c == '\n' || c == '\r'

/-- The token that one character makes. -/
def mark? : Char → Option Token
  | '[' => some .openArray
  | ']' => some .closeArray
  | '{' => some .openObject
  | '}' => some .closeObject
  | ',' => some .comma
  | ':' => some .colon
  | _ => none

/-- The token that a run of letters or number characters makes. -/
def wordToken? (word : List Char) : Option Token :=
  if word = "null".toList then some (.scalar .null)
  else if word = "true".toList then some (.scalar (.bool true))
  else if word = "false".toList then some (.scalar (.bool false))
  else if (numberParts? word).isSome then some (.scalar (.number (String.ofList word)))
  else none

/-- A character that ends a literal or a number. -/
def isBoundary (c : Char) : Bool := isSpace c || (mark? c).isSome || c == '"'

/-- Cuts a text into tokens. -/
def tokens? : List Char → Option (List Token)
  | [] => some []
  | c :: rest =>
    if isSpace c then tokens? rest
    else
      match mark? c with
      | some token => (tokens? rest).map (token :: ·)
      | none =>
        if c = '"' then
          match _h : takeQuoted? rest with
          | none => none
          | some (spelling, after) =>
            (tokens? after).map (.quoted (String.ofList spelling) :: ·)
        else
          match wordToken? (c :: rest.takeWhile fun d => !isBoundary d) with
          | none => none
          | some token =>
            (tokens? (rest.dropWhile fun d => !isBoundary d)).map (token :: ·)
termination_by text => text.length
decreasing_by
  · simp
  · simp
  · have := length_lt_of_takeQuoted _h
    simp only [List.length_cons]
    omega
  · have := (List.dropWhile_sublist (l := rest) fun d => !isBoundary d).length_le
    simp only [List.length_cons]
    omega

/-- An array or object whose closing bracket has not come yet. Items and members are kept in
reverse. -/
inductive Frame where
  /-- An array with the items read so far. -/
  | array (items : List Json)
  /-- An object with the members read so far and the name of the member that is being read. -/
  | object (members : List (String × Json)) (name : String)

/-- What may come next. -/
inductive State where
  /-- A value. -/
  | value (frames : List Frame)
  /-- The first item of an array or the end of the array. -/
  | firstItem (frames : List Frame)
  /-- The first name of an object or the end of the object. -/
  | firstName (frames : List Frame)
  /-- The name of a further member. -/
  | name (members : List (String × Json)) (frames : List Frame)
  /-- The colon behind a name. -/
  | colon (members : List (String × Json)) (name : String) (frames : List Frame)
  /-- A comma, the end of what is open, or the end of the text. -/
  | done (value : Json) (frames : List Frame)

/-- The largest number of arrays and objects inside each other that are kept. -/
def maxOpen : Nat := 127

/-- An array or object is complete, and `frames` are still open around it. -/
def State.close (value : Json) (frames : List Frame) : State :=
  .done (if (frames.drop (maxOpen - 1)).isEmpty then value else .deep) frames

/-- What lies inside fewer arrays and objects than the limit is kept. -/
theorem State.close_of_length_lt {value : Json} {frames : List Frame}
    (shallow : frames.length < maxOpen) : State.close value frames = .done value frames := by
  have : frames.length ≤ maxOpen - 1 := by omega
  simp [State.close, List.drop_eq_nil_of_le this]

/-- What lies inside as many arrays and objects as the limit is not kept. -/
theorem State.close_of_le_length {value : Json} {frames : List Frame}
    (deep : maxOpen ≤ frames.length) : State.close value frames = .done .deep frames := by
  have : (frames.drop (maxOpen - 1)).isEmpty = false := by
    rw [List.isEmpty_eq_false_iff, ne_eq, List.drop_eq_nil_iff]
    simp only [maxOpen] at deep ⊢
    omega
  simp [State.close, this]

/-- Takes the first token of a value. -/
def State.begin (frames : List Frame) : Token → Option State
  | .scalar item => some (.done item frames)
  | .quoted spelling => some (.done (.string spelling) frames)
  | .openArray => some (.firstItem frames)
  | .openObject => some (.firstName frames)
  | _ => none

/-- Takes one token. -/
def State.step : State → Token → Option State
  | .value frames, token => State.begin frames token
  | .firstItem frames, .closeArray => some (.close (.array []) frames)
  | .firstItem frames, token => State.begin (.array [] :: frames) token
  | .firstName frames, .closeObject => some (.close (.object []) frames)
  | .firstName frames, .quoted spelling => some (.colon [] spelling frames)
  | .name members frames, .quoted spelling => some (.colon members spelling frames)
  | .colon members label frames, .colon => some (.value (.object members label :: frames))
  | .done item (.array items :: frames), .comma => some (.value (.array (item :: items) :: frames))
  | .done item (.array items :: frames), .closeArray =>
    some (.close (.array (item :: items).reverse) frames)
  | .done item (.object members label :: frames), .comma =>
    some (.name ((label, item) :: members) frames)
  | .done item (.object members label :: frames), .closeObject =>
    some (.close (.object ((label, item) :: members).reverse) frames)
  | _, _ => none

/-- The value that a list of tokens makes. -/
def ofTokens? (tokens : List Token) : Option Json :=
  match tokens.foldlM State.step (.value []) with
  | some (.done value []) => some value
  | _ => none

/-- Reads a text that holds one value. -/
def read? (text : String) : Option Json := (tokens? text.toList).bind ofTokens?

end Rulebook.Json
