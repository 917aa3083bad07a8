import Rulebook.Proofs.Markup.Reading

/-!
# Parts of whole elements

Parts that open and close their own elements add elements to the innermost open one and leave the
others alone. `Adds` says which elements these are and how deep they are nested. It says at once
that they are added when the limit allows their depth and that nothing but the limit can stop the
reader, and it follows the nesting of elements: parts in a row, and parts in a pair of tags.

The layout of a document is text between its tags. It goes to the texts of the elements around,
which `Adds` leaves open.
-/

namespace Rulebook.Markup

open OpenElements (readFrom)

/-- Parts that add elements of some kind, which are nested to some height. `breaks` tells that a tag
in front begins a line. -/
def Event.Adds (maxDepth : Nat) (breaks : Bool) (events : List Event) (height : Nat)
    (made : List Element → Prop) : Prop :=
  ∀ (inner : OpenElement) (outer : List OpenElement) (place depth : Nat) (more : List Event),
    outer.length ≤ maxDepth →
    (outer.length + height ≤ maxDepth → ∃ text elements after, made elements ∧
      readFrom maxDepth ⟨inner, outer⟩ place (Event.render depth breaks (events ++ more)) =
        readFrom maxDepth
          ⟨{ inner with
              text := inner.text ++ text
              children := elements.reverse ++ inner.children }, outer⟩ after
            (Event.render depth true more)) ∧
    (maxDepth < outer.length + height →
      readFrom maxDepth ⟨inner, outer⟩ place (Event.render depth breaks (events ++ more)) =
        .error (.tooDeep maxDepth))

namespace Event.Adds

variable {maxDepth : Nat} {breaks : Bool}

/-- What is said of the elements may be weakened. -/
theorem weaken {events : List Event} {height : Nat} {made made' : List Element → Prop}
    (h : Adds maxDepth breaks events height made)
    (hm : ∀ elements, made elements → made' elements) :
    Adds maxDepth breaks events height made' := by
  intro inner outer place depth more hopen
  obtain ⟨hfit, hdeep⟩ := h inner outer place depth more hopen
  refine ⟨fun hle => ?_, hdeep⟩
  obtain ⟨text, elements, after, hmade, hread⟩ := hfit hle
  exact ⟨text, elements, after, hm elements hmade, hread⟩

/-- No parts add no elements. -/
theorem nil : Adds maxDepth true [] 0 (fun elements => elements = []) := by
  intro inner outer place depth more hopen
  refine ⟨fun _ => ⟨[], [], place, rfl, ?_⟩, fun hlt => ?_⟩
  · simp
  · omega

/-- Parts in a row add their elements in a row, and the higher ones decide about the limit. -/
theorem append {first second : List Event} {height height' : Nat}
    {made made' : List Element → Prop} (h : Adds maxDepth breaks first height made)
    (h' : Adds maxDepth true second height' made') (both : List Element → Prop)
    (hb : ∀ elements elements', made elements → made' elements' → both (elements ++ elements')) :
    Adds maxDepth breaks (first ++ second) (max height height') both := by
  intro inner outer place depth more hopen
  rw [List.append_assoc]
  obtain ⟨hfit, hdeep⟩ := h inner outer place depth (second ++ more) hopen
  by_cases hle : outer.length + height ≤ maxDepth
  · obtain ⟨text, elements, after, hmade, hread⟩ := hfit hle
    obtain ⟨hfit', hdeep'⟩ := h'
      { inner with text := inner.text ++ text, children := elements.reverse ++ inner.children }
      outer after depth more hopen
    constructor
    · intro hle'
      obtain ⟨text', elements', after', hmade', hread'⟩ := hfit' (by omega)
      refine ⟨text ++ text', elements ++ elements', after', hb _ _ hmade hmade', ?_⟩
      rw [hread, hread', List.reverse_append, List.append_assoc, List.append_assoc]
    · intro hlt
      rw [hread]
      exact hdeep' (by omega)
  · exact ⟨fun _ => by omega, fun _ => hdeep (by omega)⟩

/-- The tag of an empty element adds the element, whatever the limit. -/
theorem empty {name : String} (hn : IsName name) {attributes : List (String × String)}
    (ha : ∀ entry ∈ attributes, IsName entry.1)
    (hd : (attributes.map fun entry => entry.1.toList).Nodup) :
    Adds maxDepth breaks [.empty name attributes] 0
      (fun elements => elements = [{ name, attributes }]) := by
  intro inner outer place depth more hopen
  refine ⟨fun _ => ?_, fun hlt => by omega⟩
  obtain ⟨line, after, hline⟩ := OpenElements.readFrom_line (.empty name attributes) rfl rfl
    maxDepth ⟨inner, outer⟩ place depth breaks more
  obtain ⟨after', hread⟩ := OpenElements.readFrom_empty hn ha hd maxDepth
    (OpenElements.addText ⟨inner, outer⟩ line) after (Event.render depth true more)
  exact ⟨line, [{ name, attributes }], after', rfl, hline.trans hread⟩

/-- A start tag behind the layout of a line opens its element or is too deep. -/
theorem readFrom_open {name : String} (hn : IsName name) {attributes : List (String × String)}
    (ha : ∀ entry ∈ attributes, IsName entry.1)
    (hd : (attributes.map fun entry => entry.1.toList).Nodup) (maxDepth : Nat)
    (inner : OpenElement) (outer : List OpenElement) (place depth : Nat) (breaks : Bool)
    (more : List Event) :
    ∃ line after, readFrom maxDepth ⟨inner, outer⟩ place
        (Event.render depth breaks (.start name attributes :: more)) =
      if maxDepth < outer.length + 1 then .error (.tooDeep maxDepth)
      else readFrom maxDepth ⟨{ name := name.toList, attributes },
        { inner with text := inner.text ++ line } :: outer⟩ after
          (Event.render (depth + 1) true more) := by
  obtain ⟨line, after, hline⟩ := OpenElements.readFrom_line (.start name attributes) rfl rfl
    maxDepth ⟨inner, outer⟩ place depth breaks more
  obtain ⟨after', hread⟩ := OpenElements.readFrom_start hn ha hd maxDepth
    (OpenElements.addText ⟨inner, outer⟩ line) after (Event.render (depth + 1) true more)
  exact ⟨line, after', hline.trans hread⟩

/-- A pair of tags around parts adds one element with what they add as its children. -/
theorem element {name : String} (hn : IsName name) {attributes : List (String × String)}
    (ha : ∀ entry ∈ attributes, IsName entry.1)
    (hd : (attributes.map fun entry => entry.1.toList).Nodup) {events : List Event} {height : Nat}
    {made : List Element → Prop} (h : Adds maxDepth true events height made) :
    Adds maxDepth breaks (.start name attributes :: (events ++ [.stop name])) (height + 1)
      (fun elements => ∃ text children, made children ∧
        elements = [{ name, attributes, text, children }]) := by
  intro inner outer place depth more hopen
  obtain ⟨line, after, hstart⟩ := readFrom_open hn ha hd maxDepth inner outer place depth breaks
    (events ++ (.stop name :: more))
  rw [List.cons_append, List.append_assoc, List.singleton_append]
  by_cases hle : outer.length + 1 ≤ maxDepth
  · rw [if_neg (by omega)] at hstart
    obtain ⟨hfit, hdeep⟩ := h { name := name.toList, attributes }
      ({ inner with text := inner.text ++ line } :: outer) after (depth + 1) (.stop name :: more)
      hle
    rw [List.length_cons] at hfit hdeep
    constructor
    · intro hle'
      obtain ⟨text, children, after', hmade, hbody⟩ := hfit (by omega)
      obtain ⟨line', after'', hline'⟩ := OpenElements.readFrom_line (.stop name) rfl rfl
        maxDepth ⟨⟨name.toList, attributes, [] ++ text, children.reverse ++ []⟩,
          { inner with text := inner.text ++ line } :: outer⟩ after' (depth + 1) true more
      obtain ⟨last, hstop⟩ := OpenElements.readFrom_stop hn maxDepth
        ⟨name.toList, attributes, [] ++ text ++ line', children.reverse ++ []⟩ rfl
        { inner with text := inner.text ++ line } outer after'' (Event.render depth true more)
      refine ⟨line, [{ name, attributes, text := String.ofList (text ++ line'), children }], last,
        ⟨_, _, hmade, rfl⟩, ?_⟩
      refine hstart.trans (hbody.trans (hline'.trans (hstop.trans ?_)))
      simp [OpenElements.addChild, OpenElement.close]
    · intro hlt
      rw [hstart]
      exact hdeep (by omega)
  · rw [if_pos (by omega)] at hstart
    exact ⟨fun _ => by omega, fun _ => hstart⟩

/-- A pair of tags around a text adds one element with exactly this text. -/
theorem text {name : String} (hn : IsName name) {attributes : List (String × String)}
    (ha : ∀ entry ∈ attributes, IsName entry.1)
    (hd : (attributes.map fun entry => entry.1.toList).Nodup) {raw : String}
    (hraw : '<' ∉ raw.toList) :
    Adds maxDepth breaks [.start name attributes, .text raw, .stop name] 1
      (fun elements => elements = [{ name, attributes, text := raw }]) := by
  intro inner outer place depth more hopen
  obtain ⟨line, after, hstart⟩ := readFrom_open hn ha hd maxDepth inner outer place depth breaks
    (.text raw :: .stop name :: more)
  constructor
  · intro hle
    rw [if_neg (by omega)] at hstart
    obtain ⟨after', htext⟩ := OpenElements.readFrom_text hraw
      ((Event.stop name).chars ++ Event.render depth true more) rfl maxDepth
      ⟨{ name := name.toList, attributes }, { inner with text := inner.text ++ line } :: outer⟩
      after
    obtain ⟨last, hstop⟩ := OpenElements.readFrom_stop hn maxDepth
      { name := name.toList, attributes, text := [] ++ raw.toList } rfl
      { inner with text := inner.text ++ line } outer after' (Event.render depth true more)
    refine ⟨line, [{ name, attributes, text := raw }], last, rfl, ?_⟩
    refine hstart.trans (htext.trans (hstop.trans ?_))
    simp [OpenElements.addChild, OpenElement.close]
  · intro hlt
    rw [if_pos (by omega)] at hstart
    exact hstart

end Event.Adds

end Rulebook.Markup
