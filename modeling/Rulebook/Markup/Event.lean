import Rulebook.Text.Reference

/-!
# Writing markup

Markup is written as a list of events: tags and texts in the order in which they appear. In the
written form each tag stands on a line of its own, two blanks deeper than the tag it stands in; the
tag behind a text follows it at once, so that texts stay as they are.
-/

namespace Rulebook.Markup

/-- A part of a written document. -/
inductive Event where
  /-- The start tag of an element. -/
  | start (name : String) (attributes : List (String × String))
  /-- The tag of an element without content. -/
  | empty (name : String) (attributes : List (String × String))
  /-- The end tag of an element. -/
  | stop (name : String)
  /-- Text that is already in its written form. -/
  | text (raw : String)
  deriving DecidableEq, Repr

namespace Event

/-- An attribute in its written form, with the blank in front. -/
def attributeChars (entry : String × String) : List Char :=
  ' ' :: (entry.1.toList ++ '=' :: '"' :: (Text.escape entry.2.toList ++ ['"']))

/-- The content of a start tag. -/
def contentChars (name : String) (attributes : List (String × String)) : List Char :=
  name.toList ++ attributes.flatMap attributeChars

/-- The written form of one part without the line break in front. -/
def chars : Event → List Char
  | .start name attributes => '<' :: (contentChars name attributes ++ ['>'])
  | .empty name attributes => '<' :: (contentChars name attributes ++ ['/', '>'])
  | .stop name => '<' :: '/' :: (name.toList ++ ['>'])
  | .text raw => raw.toList

/-- The part is a text. -/
def isText : Event → Bool
  | .text _ => true
  | _ => false

/-- The depth of the line on which a part stands when `depth` elements are open in front of it. -/
def lineDepth (depth : Nat) : Event → Nat
  | .stop _ => depth - 1
  | _ => depth

/-- The number of elements that are open behind a part. -/
def depthBehind (depth : Nat) : Event → Nat
  | .start _ _ => depth + 1
  | .stop _ => depth - 1
  | _ => depth

/-- The written form of the parts of a document. `depth` elements are open, and `breaks` tells that
the next tag begins a line. -/
def render (depth : Nat) (breaks : Bool) : List Event → List Char
  | [] => []
  | event :: more =>
    let lineBreak :=
      if breaks ∧ !event.isText then '\n' :: List.replicate (2 * event.lineDepth depth) ' ' else []
    lineBreak ++ (event.chars ++ render (event.depthBehind depth) (!event.isText) more)

/-- The written form of a document. -/
def document (events : List Event) : String := String.ofList (render 0 false events)

end Event

end Rulebook.Markup
