import Rulebook.Proofs.Expression.Calling
import Rulebook.Proofs.Operator.Reserved

/-!
# Functions under their names

Registering keeps a name in capitals and without the blanks around it; looking a name up writes it
in capitals and leaves the blanks. So a function is always found under the name without blanks
around it, and under the name as it was given just if there are none. Whatever else was registered
keeps its function and its place. Of the requests in a row the last one that asks for a name and is
not refused decides what is found under it.
-/

namespace Rulebook

/-- A text that begins or ends with a blank holds one. -/
theorem Text.exists_blank_of_hasOuterBlank {text : String} (h : hasOuterBlank text = true) :
    ∃ c ∈ text.toList, isBlank c = true := by
  by_contra hnone
  have hfree : ∀ c ∈ text.toList, isBlank c = false := fun c hc =>
    Bool.eq_false_iff.mpr fun hblank => hnone ⟨c, hc, hblank⟩
  rw [hasOuterBlank_of_free hfree] at h
  cases h

namespace Registry

variable {registry next : Registry} {name : String} {operation : Operation}

/-- No function is found under a name with blanks around it: kept names have none, and capitals do
not take them away. -/
theorem Made.find?_eq_none (hm : registry.Made) (hblank : Text.hasOuterBlank name = true) :
    registry.find? name = none := by
  cases hfound : registry.find? name with
  | none => rfl
  | some operation =>
    have hkept := hm.isKept (contains_iff.mp (Option.isSome_of_eq_some hfound))
    obtain ⟨c, hc, hb⟩ := Text.exists_blank_of_hasOuterBlank hblank
    have hupper : c.toUpper ∈ (Text.capitals name).toList := by
      rw [Text.capitals, String.toList_ofList]
      exact List.mem_map_of_mem hc
    have hfree := hkept.word.2 _ hupper
    rw [Text.isBlank_toUpper, hb] at hfree
    cases hfree

/-- A name that has a function is there, and a call of it gives what the function makes of the
arguments. -/
theorem calls_of_find? (h : registry.find? name = some operation) :
    registry.contains name = true ∧
      ∀ arguments, registry.invoke name arguments = .ok (operation.applied arguments) := by
  refine ⟨?_, fun arguments => ?_⟩
  · rw [contains, h]
    rfl
  · rw [invoke, h]
    rfl

/-- A name that has no function is not there, and a call of it is refused. -/
theorem refuses_of_find? (h : registry.find? name = none) :
    registry.contains name = false ∧
      ∀ arguments, registry.invoke name arguments = .error (.unboundOperator name) := by
  refine ⟨?_, fun arguments => ?_⟩
  · rw [contains, h]
    rfl
  · rw [invoke, h]

/-- What it means that a function was registered under a name. -/
structure TakesEffect (before after : Registry) (name : String) (operation : Operation) :
    Prop where
  /-- A name that is new comes last. -/
  names : after.names =
    if normalName name ∈ before.names then before.names else before.names ++ [normalName name]
  /-- Every name that was there keeps its place. -/
  places : before.names <+: after.names
  /-- Under every other name there is what was there. -/
  others : ∀ other, Text.capitals other ≠ normalName name →
    after.contains other = before.contains other ∧
      ∀ arguments, after.invoke other arguments = before.invoke other arguments
  /-- The name without the blanks around it calls the function, in any case. -/
  bare : ∀ spelling, Text.capitals spelling = normalName name → after.contains spelling = true ∧
    ∀ arguments, after.invoke spelling arguments = .ok (operation.applied arguments)
  /-- The name as it was given calls the function if there are no blanks around it. -/
  given : Text.hasOuterBlank name = false → after.contains name = true ∧
    ∀ arguments, after.invoke name arguments = .ok (operation.applied arguments)
  /-- The name as it was given has no function if there are blanks around it. -/
  padded : Text.hasOuterBlank name = true → after.contains name = false ∧
    ∀ arguments, after.invoke name arguments = .error (.unboundOperator name)

/-- A function that is registered takes effect. -/
theorem takesEffect_of_register (hbuilt : registry.Built)
    (h : registry.register name operation = .ok next) :
    registry.TakesEffect next name operation := by
  have hfind := find?_register h
  have hbare : ∀ spelling, Text.capitals spelling = normalName name →
      next.find? spelling = some operation := fun spelling hs => by rw [hfind, if_pos hs]
  refine ⟨names_register h, ?_, fun other hother => ?_,
    fun spelling hs => calls_of_find? (hbare spelling hs), fun hfree => ?_, fun hblank => ?_⟩
  · rw [names_register h]
    split
    · exact List.prefix_refl _
    · exact List.prefix_append _ _
  · have hsame : next.find? other = registry.find? other := by rw [hfind, if_neg hother]
    exact ⟨by rw [contains, contains, hsame], fun arguments => by rw [invoke, invoke, hsame]⟩
  · refine calls_of_find? (hbare name ?_)
    rw [normalName, Text.trimmed_eq_self hfree]
  · exact refuses_of_find? ((hbuilt.register h).made.find?_eq_none hblank)

/-- A request to register a function takes effect, or it is refused for its name and leaves the
registry as it was. -/
theorem effect_of_attempt (hbuilt : registry.Built) (name : String) (operation : Operation) :
    match registry.register name operation with
    | .ok next =>
      registry.attempt name operation = next ∧ registry.TakesEffect next name operation
    | .error refusal =>
      registry.attempt name operation = registry ∧ refusal = .reservedName name := by
  unfold attempt
  cases h : registry.register name operation with
  | ok next => exact ⟨rfl, takesEffect_of_register hbuilt h⟩
  | error refusal => exact ⟨rfl, (register_eq_error_iff.mp h).2⟩

/-- A function that takes the place of another one, and one with blanks around its name, which is
found without them only. -/
theorem effect_of_attempt_mask :
    let registry : Registry := ⟨[("MASK", fun _ _ _ _ => ""), ("JOIN", joined)]⟩
    let next : Registry := ⟨[("MASK", joined), ("JOIN", joined)]⟩
    registry.Built ∧ registry.attempt "Mask" joined = next ∧
      registry.TakesEffect next "Mask" joined ∧ next.invoke "Mask" ["a", "b"] = .ok "ab" ∧
      next.TakesEffect (next.attempt " cut\t" joined) " cut\t" joined ∧
      (next.attempt " cut\t" joined).names = ["MASK", "JOIN", "CUT"] ∧
      (next.attempt " cut\t" joined).contains "Cut" = true ∧
      (next.attempt " cut\t" joined).contains " cut\t" = false ∧
      next.attempt "is" joined = next := by
  intro registry next
  have hmask : Registry.empty.register "mask" (fun _ _ _ _ => "") =
      .ok ⟨[("MASK", fun _ _ _ _ => "")]⟩ := rfl
  have hjoin : Registry.register ⟨[("MASK", fun _ _ _ _ => "")]⟩ "join" joined = .ok registry := rfl
  have hagain : registry.register "Mask" joined = .ok next := rfl
  have hbuilt : registry.Built := .register (.register .empty hmask) hjoin
  obtain ⟨hnext, heffect⟩ := effect_of_attempt hbuilt "Mask" joined
  have hlater : next.Built := .register hbuilt hagain
  obtain ⟨-, hpadded⟩ := effect_of_attempt hlater " cut\t" joined
  refine ⟨hbuilt, hnext, heffect, (heffect.given (by decide +kernel)).2 ["a", "b"], hpadded, ?_,
    (hpadded.bare "Cut" (by decide +kernel)).1, (hpadded.padded (by decide +kernel)).1,
    (effect_of_attempt hlater "is" joined).1⟩
  decide +kernel

/-- A function is not always found under the name as it was given: blanks around the name are not
kept, and they are not dropped when it is looked up. -/
theorem not_takesEffect_always : ¬ ∀ (registry next : Registry) (name : String)
    (operation : Operation), registry.Built → registry.register name operation = .ok next →
    next.contains name = true ∧
      ∀ arguments, next.invoke name arguments = .ok (operation.applied arguments) := by
  intro h
  have hfound := (h .empty ⟨[("MASK", joined)]⟩ " mask" joined .empty rfl).1
  exact absurd hfound (by decide +kernel)

/-- A request binds its name if it may be registered, and leaves what is found under others. -/
theorem find?_attempt (registry : Registry) (name spelling : String) (operation : Operation) :
    (registry.attempt name operation).find? spelling =
      if admits name = true ∧ normalName name = Text.capitals spelling then some operation
      else registry.find? spelling := by
  unfold attempt
  cases h : registry.register name operation with
  | ok next =>
    have hadmits := (register_eq_ok_iff.mp h).1
    rw [find?_register h]
    simp only [hadmits, true_and, eq_comm]
  | error refusal =>
    have hadmits := (register_eq_error_iff.mp h).1
    rw [hadmits, if_neg fun h => Bool.false_ne_true h.1]

/-- The last of the requests that ask for a name decides what is found under it; requests that are
refused do not count. -/
theorem find?_ofRequests (requests : List (String × Operation)) (spelling : String) :
    (ofRequests requests).find? spelling =
      ((requests.filter fun request =>
        admits request.1 && normalName request.1 == Text.capitals spelling).getLast?).map
          Prod.snd := by
  induction requests using List.reverseRecOn with
  | nil => rfl
  | append_singleton before last ih =>
    rw [ofRequests_concat, find?_attempt, ih, List.filter_append, List.getLast?_append]
    by_cases hlast : admits last.1 = true ∧ normalName last.1 = Text.capitals spelling
    · simp [hlast]
    · have hdropped : (admits last.1 && normalName last.1 == Text.capitals spelling) = false := by
        simpa using hlast
      simp [hlast, hdropped]

end Registry

end Rulebook
