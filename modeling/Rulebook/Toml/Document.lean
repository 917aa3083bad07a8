import Rulebook.Toml.Token
import Rulebook.Toml.Scalar
import Rulebook.Toml.Table

/-!
# Reading TOML

The parts of a text are read from the left. A line holds a header, an entry or nothing. Arrays and
tables in braces may go over several lines, in braces also around an equals sign, and a comma may
stand in front of the closing bracket. At most 80 of them may be open at a time, and a key has at
most 80 names.
-/

namespace Rulebook.Toml

/-- What a line says. -/
inductive Statement where
  /-- A table is opened. -/
  | header (key : List String)
  /-- A further table of an array is opened. -/
  | further (key : List String)
  /-- An entry is added to the table that is open. -/
  | entry (key : List String) (value : Setting)

/-- The characters of keys without quotes. -/
def isBare (c : Char) : Bool := c.isAlphanum || c == '_' || c == '-'

/-- The names and points of a key; points are `none`. -/
def keyParts : List Token → List (Option (List Char))
  | [] => []
  | .quoted text _ :: more => some text :: keyParts more
  | .word chars :: more =>
    let runs := (Text.pieces (· == '.') chars).map fun run =>
      if run.isEmpty then [] else [some run]
    (runs.intersperse [none]).flatten ++ keyParts more
  | _ :: more => keyParts more

/-- Names with single points between them. -/
def namesBetweenPoints? : List (Option (List Char)) → Option (List String)
  | [some name] => some [String.ofList name]
  | some name :: none :: more => (namesBetweenPoints? more).map (String.ofList name :: ·)
  | _ => none

/-- The largest number of names in a key, and of arrays and tables in braces that may be open at a
time. -/
def maxNested : Nat := 80

/-- The names of a key. Quoted names stand on one line, and names without quotes hold letters,
digits, underscores and hyphens. -/
def key? (tokens : List Token) : Option (List String) :=
  let sound := tokens.all fun token =>
    match token with
    | .quoted _ block => !block
    | .word chars => chars.all fun c => isBare c || c == '.'
    | _ => false
  if sound then
    (namesBetweenPoints? (keyParts tokens)).bind fun names =>
      if names.length ≤ maxNested then some names else none
  else none

/-- An array or a table in braces that is not closed yet. -/
inductive Frame where
  /-- An array with its items in reverse. -/
  | array (items : List Setting)
  /-- A table with the key of the entry that is being read. -/
  | table (entries : Entries) (key : List String)

/-- What is being read. Tokens of keys are kept in reverse. -/
inductive Phase where
  /-- The start of a line. -/
  | lineStart
  /-- The end of a line. -/
  | lineEnd
  /-- A header behind its first bracket. -/
  | bracket
  /-- A header. -/
  | header (further : Bool) (tokens : List Token)
  /-- The second closing bracket of a header. -/
  | headerEnd (tokens : List Token)
  /-- The key of an entry in a line. -/
  | key (tokens : List Token)
  /-- A value; the key is that of the entry in the line. -/
  | value (key : List String) (frames : List Frame)
  /-- An item of an array or the end of the array. -/
  | item (key : List String) (items : List Setting) (frames : List Frame)
  /-- What follows an item. -/
  | afterItem (key : List String) (items : List Setting) (frames : List Frame)
  /-- A key in braces or the closing brace. -/
  | name (key : List String) (entries : Entries) (frames : List Frame)
  /-- A key in braces that has begun. -/
  | innerKey (key : List String) (entries : Entries) (tokens : List Token) (frames : List Frame)
  /-- The equals sign behind a key in braces whose line has ended. -/
  | equals (key : List String) (entries : Entries) (inner : List String) (frames : List Frame)
  /-- What follows an entry in braces. -/
  | afterEntry (key : List String) (entries : Entries) (frames : List Frame)

/-- What was read: the lines in reverse, and what is being read. -/
structure State where
  /-- What the lines say, the last one first. -/
  statements : List Statement
  /-- What is being read. -/
  phase : Phase

/-- A value is complete. -/
def State.complete? (state : State) (key : List String) (value : Setting) :
    List Frame → Option State
  | [] => some ⟨.entry key value :: state.statements, .lineEnd⟩
  | .array items :: frames => some { state with phase := .afterItem key (value :: items) frames }
  | .table entries inner :: frames =>
    (assign? value inner entries).map fun entries =>
      { state with phase := .afterEntry key entries frames }

/-- Takes the first token of a value. -/
def State.begin? (state : State) (key : List String) (frames : List Frame) : Token → Option State
  | .word chars => (scalar? chars).bind fun value => state.complete? key value frames
  | .quoted text _ => state.complete? key (.text (String.ofList text)) frames
  | .mark '[' =>
    if frames.length < maxNested then some { state with phase := .item key [] frames } else none
  | .mark '\x7b' =>
    if frames.length < maxNested then some { state with phase := .name key [] frames } else none
  | _ => none

/-- The token may be part of a key. -/
def Token.isName : Token → Bool
  | .word _ => true
  | .quoted _ _ => true
  | _ => false

/-- Takes one token. -/
def State.step? (state : State) (token : Token) : Option State :=
  let stay := some state
  let go (phase : Phase) : Option State := some { state with phase }
  let say (statement : Statement) : Option State :=
    some ⟨statement :: state.statements, .lineEnd⟩
  match state.phase, token with
  | .lineStart, .blank => stay
  | .lineStart, .lineBreak => stay
  | .lineStart, .mark '[' => go .bracket
  | .lineStart, token => if token.isName then go (.key [token]) else none
  | .lineEnd, .blank => stay
  | .lineEnd, .lineBreak => go .lineStart
  | .lineEnd, _ => none
  | .bracket, .mark '[' => go (.header true [])
  | .bracket, .blank => go (.header false [])
  | .bracket, token => if token.isName then go (.header false [token]) else none
  | .header _ _, .blank => stay
  | .header true tokens, .mark ']' => go (.headerEnd tokens)
  | .header false tokens, .mark ']' => (key? tokens.reverse).bind fun key => say (.header key)
  | .header further tokens, token =>
    if token.isName then go (.header further (token :: tokens)) else none
  | .headerEnd tokens, .mark ']' => (key? tokens.reverse).bind fun key => say (.further key)
  | .headerEnd _, _ => none
  | .key _, .blank => stay
  | .key tokens, .mark '=' => (key? tokens.reverse).bind fun key => go (.value key [])
  | .key tokens, token => if token.isName then go (.key (token :: tokens)) else none
  | .value _ _, .blank => stay
  | .value _ (_ :: _), .lineBreak => stay
  | .value key frames, token => state.begin? key frames token
  | .item _ _ _, .blank => stay
  | .item _ _ _, .lineBreak => stay
  | .item key items frames, .mark ']' => state.complete? key (.list items.reverse) frames
  | .item key items frames, token => state.begin? key (.array items :: frames) token
  | .afterItem _ _ _, .blank => stay
  | .afterItem _ _ _, .lineBreak => stay
  | .afterItem key items frames, .mark ',' => go (.item key items frames)
  | .afterItem key items frames, .mark ']' => state.complete? key (.list items.reverse) frames
  | .afterItem _ _ _, _ => none
  | .name _ _ _, .blank => stay
  | .name _ _ _, .lineBreak => stay
  | .name key entries frames, .mark '\x7d' =>
    state.complete? key (.table (Node.entriesToSettings entries)) frames
  | .name key entries frames, token =>
    if token.isName then go (.innerKey key entries [token] frames) else none
  | .innerKey _ _ _ _, .blank => stay
  | .innerKey key entries tokens frames, .lineBreak =>
    (key? tokens.reverse).bind fun inner => go (.equals key entries inner frames)
  | .innerKey key entries tokens frames, .mark '=' =>
    (key? tokens.reverse).bind fun inner => go (.value key (.table entries inner :: frames))
  | .innerKey key entries tokens frames, token =>
    if token.isName then go (.innerKey key entries (token :: tokens) frames) else none
  | .equals _ _ _ _, .blank => stay
  | .equals _ _ _ _, .lineBreak => stay
  | .equals key entries inner frames, .mark '=' =>
    go (.value key (.table entries inner :: frames))
  | .equals _ _ _ _, _ => none
  | .afterEntry _ _ _, .blank => stay
  | .afterEntry _ _ _, .lineBreak => stay
  | .afterEntry key entries frames, .mark ',' => go (.name key entries frames)
  | .afterEntry key entries frames, .mark '\x7d' =>
    state.complete? key (.table (Node.entriesToSettings entries)) frames
  | .afterEntry _ _ _, _ => none

/-- What the lines of a text say, in order. -/
def statements? (tokens : List Token) : Option (List Statement) :=
  match tokens.foldlM State.step? ⟨[], .lineStart⟩ with
  | some ⟨statements, .lineStart⟩ => some statements.reverse
  | some ⟨statements, .lineEnd⟩ => some statements.reverse
  | _ => none

/-- Carries out lines one after the other; `header` leads to the table that is open. -/
def build? (header : List String) (entries : Entries) : List Statement → Option Entries
  | [] => some entries
  | .entry key value :: more =>
    (within? (assign? value key) header entries).bind fun entries => build? header entries more
  | .header key :: more =>
    (key.getLast?.bind fun name => within? (openTable? name) key.dropLast entries).bind
      fun entries => build? key entries more
  | .further key :: more =>
    (key.getLast?.bind fun name => within? (openFurther? name) key.dropLast entries).bind
      fun entries => build? key entries more

/-- The table that a text holds. -/
def read? (text : String) : Option (List (String × Setting)) := do
  let entries ← build? [] [] (← statements? (← tokens? text.toList))
  return Node.entriesToSettings entries

end Rulebook.Toml
