import Mathlib.Data.List.TakeWhile
import Rulebook.Markup.Attributes
import Rulebook.Markup.Event
import Rulebook.Proofs.Text.Escape

/-!
# Written tags are read back

A tag that is written from a name and attributes is cut at its own closing bracket, whatever the
values of the attributes hold, and its content gives the name and the attributes again. Names are
made of letters and underscores here; keys are different from each other.
-/

namespace Rulebook.Markup

open Rulebook.Text (byteSize escape)

/-- A character that names of tags and keys of attributes are made of. -/
def isNameChar (c : Char) : Bool := c.isAlpha || c == '_'

/-- A name of a tag or a key of an attribute as documents are written with. -/
def IsName (name : String) : Prop := name.toList ≠ [] ∧ ∀ c ∈ name.toList, isNameChar c = true

instance (name : String) : Decidable (IsName name) :=
  decidable_of_iff (name.toList ≠ [] ∧ name.toList.all isNameChar = true)
    (by rw [IsName, List.all_eq_true])

/-- A character of a name is no character with a meaning of its own in a tag. -/
theorem isNameChar_ne {c d : Char} (h : isNameChar c = true) (hd : isNameChar d = false) :
    c ≠ d := by
  intro he
  rw [he, hd] at h
  cases h

/-- A character of a name is no blank. -/
theorem isSpace_of_isNameChar {c : Char} (h : isNameChar c = true) : isSpace c = false := by
  have h0 := isNameChar_ne h (d := ' ') (by decide)
  have h1 := isNameChar_ne h (d := '\t') (by decide)
  have h2 := isNameChar_ne h (d := '\r') (by decide)
  have h3 := isNameChar_ne h (d := '\n') (by decide)
  simp [isSpace, h0, h1, h2, h3]

theorem isKeyChar_of_isNameChar {c : Char} (h : isNameChar c = true) : isKeyChar c = true := by
  have h0 := isNameChar_ne h (d := '=') (by decide)
  simp [isKeyChar, isSpace_of_isNameChar h, h0]

/-- Characters that are neither brackets nor quotes do not end a tag. -/
theorem splitTag_plain (part : List Char) (h : ∀ c ∈ part, c ≠ '>' ∧ c ≠ '\'' ∧ c ≠ '"')
    (before rest : List Char) :
    splitTag none before (part ++ rest) = splitTag none (part.reverse ++ before) rest := by
  induction part generalizing before with
  | nil => rfl
  | cons c more ih =>
    obtain ⟨h0, h1, h2⟩ := h c List.mem_cons_self
    have hm := ih (fun d hd => h d (List.mem_cons_of_mem _ hd)) (c :: before)
    rw [List.cons_append, splitTag]
    simp only [h0, h1, h2, if_false, or_self]
    rw [hm, List.reverse_cons, List.append_assoc]
    rfl

/-- A value in quotes does not end a tag. -/
theorem splitTag_quoted {value : List Char} (h : '"' ∉ value) (before rest : List Char) :
    splitTag (some '"') before (value ++ '"' :: rest) =
      splitTag none ('"' :: (value.reverse ++ before)) rest := by
  induction value generalizing before with
  | nil => rw [List.nil_append, splitTag]; rfl
  | cons c more ih =>
    have hc : c ≠ '"' := fun he => h (he ▸ List.mem_cons_self)
    have hm := ih (fun hd => h (List.mem_cons_of_mem _ hd)) (c :: before)
    rw [List.cons_append, splitTag]
    simp only [hc, if_false]
    rw [hm, List.reverse_cons, List.append_assoc]
    rfl

/-- A name does not end a tag. -/
theorem splitTag_name {name : String} (h : IsName name) (before rest : List Char) :
    splitTag none before (name.toList ++ rest) =
      splitTag none (name.toList.reverse ++ before) rest := by
  refine splitTag_plain _ (fun c hc => ?_) before rest
  have hn := h.2 c hc
  exact ⟨isNameChar_ne hn (by decide), isNameChar_ne hn (by decide), isNameChar_ne hn (by decide)⟩

/-- Attributes do not end a tag. -/
theorem splitTag_attributes {attributes : List (String × String)}
    (h : ∀ entry ∈ attributes, IsName entry.1) (before rest : List Char) :
    splitTag none before (attributes.flatMap Event.attributeChars ++ rest) =
      splitTag none ((attributes.flatMap Event.attributeChars).reverse ++ before) rest := by
  induction attributes generalizing before with
  | nil => rfl
  | cons entry more ih =>
    have hn := h entry List.mem_cons_self
    have hm := ih (fun e he => h e (List.mem_cons_of_mem _ he))
    have hv : '"' ∉ escape entry.2.toList := Text.not_mem_escape (by decide)
    have hblank : splitTag none before
        (' ' :: (entry.1.toList ++ '=' :: '"' :: (escape entry.2.toList ++ '"' ::
          (more.flatMap Event.attributeChars ++ rest)))) =
        splitTag none ('"' :: ((escape entry.2.toList).reverse ++
          '"' :: '=' :: (entry.1.toList.reverse ++ ' ' :: before)))
          (more.flatMap Event.attributeChars ++ rest) := by
      have hs := splitTag_plain [' '] (by simp) before
        (entry.1.toList ++ '=' :: '"' :: (escape entry.2.toList ++ '"' ::
          (more.flatMap Event.attributeChars ++ rest)))
      have he := splitTag_plain ['='] (by simp)
        (entry.1.toList.reverse ++ ' ' :: before)
        ('"' :: (escape entry.2.toList ++ '"' :: (more.flatMap Event.attributeChars ++ rest)))
      simp only [List.cons_append, List.nil_append, List.reverse_cons, List.reverse_nil] at hs he
      rw [hs, splitTag_name hn, he, splitTag]
      exact splitTag_quoted hv _ _
    simp only [List.flatMap_cons, Event.attributeChars, List.cons_append, List.append_assoc,
      List.nil_append] at hblank ⊢
    rw [hblank, hm]
    simp only [List.reverse_append, List.reverse_cons, List.append_assoc, List.cons_append,
      List.nil_append]

/-- The content of a tag ends at the closing bracket behind it. -/
theorem splitTag_content {name : String} {attributes : List (String × String)} (hn : IsName name)
    (ha : ∀ entry ∈ attributes, IsName entry.1) (before rest : List Char) :
    splitTag none before (Event.contentChars name attributes ++ rest) =
      splitTag none ((Event.contentChars name attributes).reverse ++ before) rest := by
  rw [Event.contentChars, List.append_assoc, splitTag_name hn, splitTag_attributes ha,
    List.reverse_append, List.append_assoc]

theorem splitTag_end (before rest : List Char) :
    splitTag none before ('>' :: rest) = some (before.reverse, rest) := by
  rw [splitTag]
  rfl

/-- What stands between a name and the first character that is no name character is the name. -/
theorem takeWhile_name {name : List Char} {test : Char → Bool} (h : ∀ c ∈ name, test c = true)
    (rest : List Char) (hr : rest.head?.any test = false) :
    (name ++ rest).takeWhile test = name ∧ (name ++ rest).dropWhile test = rest := by
  rw [List.takeWhile_append_of_pos h, List.dropWhile_append_of_pos h]
  cases rest with
  | nil => simp
  | cons c more =>
    have hc : test c = false := by simpa using hr
    simp [hc]

/-- The part behind a name in the content of a tag is empty or begins with a blank. -/
theorem head?_attributes (attributes : List (String × String)) :
    (attributes.flatMap Event.attributeChars).head?.any (fun c => !isSpace c) = false := by
  cases attributes with
  | nil => rfl
  | cons entry more => rfl

/-- The name of a written tag is read back. -/
theorem tagName_content {name : String} (hn : IsName name) (attributes : List (String × String)) :
    tagName (Event.contentChars name attributes) = name.toList := by
  refine (takeWhile_name (fun c hc => ?_) _ (head?_attributes attributes)).1
  rw [isSpace_of_isNameChar (hn.2 c hc)]
  rfl

/-- A written key is read back, with what follows the equals sign. -/
theorem readKey_written {key : String} {first : Char} {more : List Char}
    (hk : IsName key) (hf : key.toList = first :: more) (size start : Nat) (rest : List Char) :
    ∃ stop,
      readKey size start first (more ++ '=' :: rest) = .ok ⟨key.toList, start, stop, rest⟩ := by
  have hm : ∀ c ∈ more, isKeyChar c = true := fun c hc =>
    isKeyChar_of_isNameChar (hk.2 c (hf ▸ List.mem_cons_of_mem _ hc))
  obtain ⟨ht, hd⟩ := takeWhile_name hm ('=' :: rest) rfl
  unfold readKey
  rw [ht, hd, hf]
  exact ⟨_, rfl⟩

/-- A written value is read back in its written form. -/
theorem readValue_written {value : List Char} (hv : '"' ∉ value) (size place : Nat)
    (rest : List Char) :
    ∃ stop, readValue size place ('"' :: (value ++ '"' :: rest)) = .ok ⟨value, stop, rest⟩ := by
  have hm : ∀ c ∈ value, (c != '"') = true := fun c hc => by
    have : c ≠ '"' := fun he => hv (he ▸ hc)
    simpa using this
  obtain ⟨ht, hd⟩ := takeWhile_name hm ('"' :: rest) rfl
  have hs : ('"' :: (value ++ '"' :: rest)).dropWhile isSpace = '"' :: (value ++ '"' :: rest) := rfl
  unfold readValue
  rw [hs]
  simp only [true_or, if_true]
  rw [ht, hd]
  exact ⟨_, rfl⟩

/-- A key is not among others that differ from it. -/
theorem lookup_eq_none_of_not_mem {seen : List (List Char × Nat)} {key : List Char}
    (h : key ∉ seen.map Prod.fst) : seen.lookup key = none := by
  induction seen with
  | nil => rfl
  | cons entry more ih =>
    rw [List.map_cons, List.mem_cons, not_or] at h
    rw [List.lookup_cons, beq_false_of_ne h.1]
    exact ih h.2

/-- What follows the blank in front of a written attribute begins with its key. -/
theorem dropWhile_attributes {entry : String × String} {first : Char} {tail : List Char}
    (hn : IsName entry.1) (hf : entry.1.toList = first :: tail) (more : List (String × String)) :
    ((entry :: more).flatMap Event.attributeChars).dropWhile isSpace =
      first :: (tail ++ '=' :: '"' :: (escape entry.2.toList ++ '"' ::
        more.flatMap Event.attributeChars)) := by
  have hb : isSpace first = false := isSpace_of_isNameChar (hn.2 first (by simp [hf]))
  have hw : (entry :: more).flatMap Event.attributeChars =
      ' ' :: first :: (tail ++ '=' :: '"' :: (escape entry.2.toList ++ '"' ::
        more.flatMap Event.attributeChars)) := by
    simp [Event.attributeChars, hf]
  rw [hw, List.dropWhile_cons_of_pos (by decide),
    List.dropWhile_cons_of_neg (by rw [hb]; decide)]

/-- Attributes that are written with different names as keys are read back, behind others with
different keys. -/
theorem readAttributes_written (element : String) (size place : Nat)
    {seen : List (List Char × Nat)} {attributes : List (String × String)}
    (hn : ∀ entry ∈ attributes, IsName entry.1)
    (hd : (attributes.map fun entry => entry.1.toList).Nodup)
    (hs : ∀ entry ∈ attributes, entry.1.toList ∉ seen.map Prod.fst) :
    readAttributes element size seen place (attributes.flatMap Event.attributeChars) =
      .ok attributes := by
  induction attributes generalizing seen place with
  | nil => rw [readAttributes]; rfl
  | cons entry more ih =>
    have hk := hn entry List.mem_cons_self
    obtain ⟨first, tail, hf⟩ := List.exists_cons_of_ne_nil hk.1
    have hv : '"' ∉ escape entry.2.toList := Text.not_mem_escape (by decide)
    have ht := dropWhile_attributes hk hf more
    obtain ⟨behindKey, hkey⟩ := readKey_written hk hf size (place + leadingSpaces
      ((entry :: more).flatMap Event.attributeChars)) ('"' :: (escape entry.2.toList ++ '"' ::
        more.flatMap Event.attributeChars))
    obtain ⟨behindValue, hvalue⟩ := readValue_written hv size behindKey
      (more.flatMap Event.attributeChars)
    have hseen := lookup_eq_none_of_not_mem (hs entry List.mem_cons_self)
    have hd' := List.nodup_cons.mp hd
    have hmore : readAttributes element size ((entry.1.toList, place + leadingSpaces
        ((entry :: more).flatMap Event.attributeChars)) :: seen) behindValue
        (more.flatMap Event.attributeChars) = .ok more := by
      refine ih behindValue (fun e he => hn e (List.mem_cons_of_mem _ he)) hd'.2 fun e he => ?_
      rw [List.map_cons, List.mem_cons, not_or]
      refine ⟨fun heq => hd'.1 ?_, hs e (List.mem_cons_of_mem _ he)⟩
      exact List.mem_map.mpr ⟨e, he, heq⟩
    rw [readAttributes]
    split
    · next hnil =>
      rw [ht] at hnil
      cases hnil
    · next head rest hcons =>
      rw [ht] at hcons
      cases hcons
      rw [hkey]
      simp only [hseen]
      rw [hvalue]
      simp only [Text.unescape_escape, hmore, String.ofList_toList]
      rfl

/-- The attributes of a written tag are read back. -/
theorem attributesOf_content {name : String} (hn : IsName name)
    {attributes : List (String × String)} (ha : ∀ entry ∈ attributes, IsName entry.1)
    (hd : (attributes.map fun entry => entry.1.toList).Nodup) :
    attributesOf (Event.contentChars name attributes) = .ok attributes := by
  unfold attributesOf
  rw [tagName_content hn]
  dsimp only
  rw [Event.contentChars, List.drop_left]
  exact readAttributes_written _ _ _ ha hd (fun _ _ => by simp)

end Rulebook.Markup
