import Mathlib.Data.List.Nodup
import Mathlib.Tactic.SplitIfs
import Rulebook.Json.Rule
import Rulebook.Proofs.Json.Reading

/-!
# Reading structures and choices back

What was written as a structure is found again field by field, and so is a tag with the fields
behind it. A value that is nested no deeper than there is room is read back as it was; where a part
that is asked for was too deep to be kept, nothing is read.
-/

namespace Rulebook.Json

mutual
/-- The number of arrays and objects inside each other. -/
def height : Json → Nat
  | .null | .deep | .bool _ | .number _ | .string _ => 0
  | .array items => heightAll items + 1
  | .object members => heightMembers members + 1

/-- The number of arrays and objects inside each other in some item. -/
def heightAll : List Json → Nat
  | [] => 0
  | item :: more => max item.height (heightAll more)

/-- The number of arrays and objects inside each other in some member. -/
def heightMembers : List (String × Json) → Nat
  | [] => 0
  | (_, value) :: more => max value.height (heightMembers more)
end

/-- Items are as deep as the deepest of them. -/
theorem heightAll_le_iff {items : List Json} {depth : Nat} :
    heightAll items ≤ depth ↔ ∀ item ∈ items, item.height ≤ depth := by
  induction items with
  | nil => simp [heightAll]
  | cons item more ih => rw [heightAll, Nat.max_le, ih, List.forall_mem_cons]

/-- The object whose members have names and values. -/
def ofFields (names : List String) (values : List Json) : Json :=
  .object (List.zipWith member names values)

variable {names : List String} {values : List Json}

/-- The members of a structure are nested as deep as its values. -/
theorem heightMembers_zipWith (hl : names.length = values.length) :
    heightMembers (List.zipWith member names values) = heightAll values := by
  induction names generalizing values with
  | nil =>
    rw [List.length_nil, eq_comm, List.length_eq_zero_iff] at hl
    rw [hl]
    rfl
  | cons name more ih =>
    cases values with
    | nil => cases hl
    | cons value rest =>
      rw [List.zipWith_cons_cons, member, heightMembers, heightAll, ih (Nat.succ.inj hl)]

/-- What is read back of a structure is what is read back of its values. -/
theorem keptMembers_zipWith (names : List String) (values : List Json) (room : Nat) :
    keptMembers (List.zipWith member names values) room =
      List.zipWith member names (keptItems values room) := by
  induction names generalizing values with
  | nil => rfl
  | cons name more ih =>
    cases values with
    | nil => rfl
    | cons value rest =>
      rw [List.zipWith_cons_cons, member, keptMembers, ih, keptItems, List.zipWith_cons_cons,
        member]

/-- What is read back of items is as many items. -/
theorem length_keptItems (items : List Json) (room : Nat) :
    (keptItems items room).length = items.length := by
  induction items with
  | nil => rfl
  | cons item more ih => rw [keptItems, List.length_cons, List.length_cons, ih]

/-- The names of members are read back. -/
theorem namedMembers?_zipWith (names : List String) (values : List Json) :
    namedMembers? (List.zipWith member names values) = some (names.zip values) := by
  induction names generalizing values with
  | nil => rfl
  | cons name more ih =>
    cases values with
    | nil => rfl
    | cons value rest =>
      have hmore := ih rest
      rw [namedMembers?] at hmore ⊢
      rw [List.zipWith_cons_cons, List.mapM_cons, hmore, member]
      simp only [String.toList_ofList, decode_encode, Option.map_some, String.ofList_toList,
        Option.bind_eq_bind, Option.bind_some, Option.pure_def, List.zip_cons_cons]

/-- A member whose name no other has is the field with its name. -/
theorem field?_of_mem {entries : List (String × Json)} (hn : (entries.map Prod.fst).Nodup)
    {entry : String × Json} (h : entry ∈ entries) :
    field? entries entry.1 = some (some entry.2) := by
  have hfilter : entries.filter (fun other => other.1 == entry.1) = [entry] := by
    induction entries with
    | nil => cases h
    | cons first more ih =>
      rw [List.map_cons, List.nodup_cons] at hn
      obtain ⟨hfirst, hmore⟩ := hn
      rcases List.mem_cons.mp h with rfl | hlater
      · have hnone : more.filter (fun other => other.1 == entry.1) = [] := by
          rw [List.filter_eq_nil_iff]
          intro other ho he
          rw [beq_iff_eq] at he
          exact hfirst (he ▸ List.mem_map_of_mem ho)
        rw [List.filter_cons, if_pos (beq_self_eq_true _), hnone]
      · have hother : ¬ (first.1 == entry.1) = true := by
          rw [beq_iff_eq]
          intro he
          exact hfirst (he ▸ List.mem_map_of_mem hlater)
        rw [List.filter_cons, if_neg hother, ih hmore hlater]
  rw [field?, hfilter]

/-- Each field of a structure is found. -/
theorem fields?_ofFields (hn : names.Nodup) (hl : names.length = values.length) :
    fields? names (ofFields names values) = some (values.map some) := by
  have hfst : (names.zip values).map Prod.fst = names := List.map_fst_zip (Nat.le_of_eq hl)
  have hsnd : (names.zip values).map Prod.snd = values := List.map_snd_zip (Nat.le_of_eq hl.symm)
  have hfound : ∀ entries ⊆ names.zip values,
      (entries.map Prod.fst).mapM (field? (names.zip values)) =
        some ((entries.map Prod.snd).map some) := by
    intro entries hsub
    induction entries with
    | nil => rfl
    | cons entry more ih =>
      obtain ⟨hentry, hmore⟩ := List.cons_subset.mp hsub
      have hfield := field?_of_mem (by rwa [hfst]) hentry
      rw [List.map_cons, List.mapM_cons, hfield, ih hmore]
      rfl
  have hall := hfound (names.zip values) (List.Subset.refl _)
  rw [hfst, hsnd] at hall
  rw [ofFields, fields?, namedMembers?_zipWith]
  exact hall

theorem height_ofFields (hl : names.length = values.length) :
    (ofFields names values).height = heightAll values + 1 := by
  rw [ofFields, height, heightMembers_zipWith hl]

theorem kept_ofFields_zero (names : List String) (values : List Json) :
    (ofFields names values).kept 0 = .deep := rfl

theorem kept_ofFields (names : List String) (values : List Json) (room : Nat) :
    (ofFields names values).kept (room + 1) = ofFields names (keptItems values room) := by
  rw [ofFields, kept, keptMembers_zipWith]
  rfl

/-- A structure is written when its values are. -/
theorem Written.ofFields {names : List String} {values : List Json}
    (h : ∀ value ∈ values, value.Written) : (ofFields names values).Written := by
  have hmembers : ∀ entry ∈ List.zipWith member names values,
      (∃ name, entry.1 = String.ofList (encode name)) ∧ entry.2.Written := by
    induction names generalizing values with
    | nil => exact fun entry he => absurd he List.not_mem_nil
    | cons name more ih =>
      cases values with
      | nil => exact fun entry he => absurd he List.not_mem_nil
      | cons value rest =>
        obtain ⟨hvalue, hrest⟩ := List.forall_mem_cons.mp h
        rw [List.zipWith_cons_cons]
        exact List.forall_mem_cons.mpr ⟨⟨⟨_, rfl⟩, hvalue⟩, ih hrest⟩
  exact .object (fun entry he => (hmembers entry he).1) fun entry he => (hmembers entry he).2

/-- What may be absent is written when it is written where it is there. -/
theorem Written.ofOption {α : Type} {write : α → Json} (h : ∀ value, (write value).Written)
    (value : Option α) : (ofOption write value).Written := by
  cases value with
  | none => exact .null
  | some value => exact h value

theorem Written.ofString (text : String) : (ofString text).Written := .text text.toList

/-- A count of 32 bits is written. -/
theorem Written.ofId (id : UInt32) : (ofId id).Written := by
  have hsize := id.toNat_lt
  refine .count ?_
  simp only [UInt64.size]
  omega

/-- Texts are sound. -/
theorem isSound_ofString (text : String) : (ofString text).isSound = true := by
  rw [ofString, isSound, String.toList_ofList, decode_encode]
  rfl

/-- Counts of 32 bits are sound. -/
theorem isSound_ofId (id : UInt32) : (ofId id).isSound = true := by
  have hsize := id.toNat_lt
  have hlt : id.toNat < UInt64.size := by
    simp only [UInt64.size]
    omega
  exact isSome_float?_ofNat hlt

/-- Members with sound values are sound. -/
theorem membersSound_zipWith (h : ∀ value ∈ values, value.isSound) :
    membersSound (List.zipWith member names values) = true := by
  induction names generalizing values with
  | nil => rfl
  | cons name more ih =>
    cases values with
    | nil => rfl
    | cons value rest =>
      obtain ⟨hvalue, hrest⟩ := List.forall_mem_cons.mp h
      rw [List.zipWith_cons_cons, member, membersSound, String.toList_ofList, decode_encode, hvalue,
        ih hrest]
      rfl

/-- No member with another name is left out as a tag. -/
theorem filter_zipWith {tag : String} (h : tag ∉ names) :
    (List.zipWith member names values).filter (fun entry =>
      (decode entry.1.toList).map String.ofList ≠ some tag) = List.zipWith member names values := by
  induction names generalizing values with
  | nil => rfl
  | cons name more ih =>
    cases values with
    | nil => rfl
    | cons value rest =>
      rw [List.mem_cons, not_or] at h
      obtain ⟨hname, hmore⟩ := h
      have hkeep : decide ((decode (member name value).1.toList).map String.ofList ≠
          some tag) = true := by
        rw [member, String.toList_ofList, decode_encode, Option.map_some, String.ofList_toList]
        exact decide_eq_true fun he => hname (Option.some.inj he).symm
      rw [List.zipWith_cons_cons, List.filter_cons, if_pos hkeep, ih hmore]

/-- A structure in a choice is found by its tag, with its fields. -/
theorem tagged?_ofFields (site : Site) {tag name : String} {choices : List String}
    (hn : (tag :: names).Nodup) (hl : names.length = values.length) (hname : name ∈ choices)
    (hsound : ∀ value ∈ values, value.isSound) :
    tagged? site tag choices (ofFields (tag :: names) (ofString name :: values)) =
      some (name, ofFields names values) := by
  have hfst : (((tag, ofString name) :: names.zip values).map Prod.fst).Nodup := by
    rwa [List.map_cons, List.map_fst_zip (Nat.le_of_eq hl)]
  have hfield := field?_of_mem hfst List.mem_cons_self
  have htag : tagName? site choices (ofString name) = some name := by
    have hread : tagName? site choices (ofString name) = (ofString name).text?.bind fun name =>
        if choices.contains name then some name else none := rfl
    rw [hread, text?_ofString, Option.bind_some, if_pos (List.contains_iff_mem.mpr hname)]
  have hdrop : (List.zipWith member (tag :: names) (ofString name :: values)).filter (fun entry =>
      (decode entry.1.toList).map String.ofList ≠ some tag) = List.zipWith member names values := by
    have hself : ¬ decide ((decode (member tag (ofString name)).1.toList).map String.ofList ≠
        some tag) = true := by
      rw [member, String.toList_ofList, decode_encode, Option.map_some, String.ofList_toList]
      simp
    rw [List.zipWith_cons_cons, List.filter_cons, if_neg hself,
      filter_zipWith (List.nodup_cons.mp hn).1]
  rw [ofFields, tagged?, hdrop, namedMembers?_zipWith, List.zip_cons_cons]
  simp only [Option.bind_eq_bind, Option.bind_some, hfield, htag, membersSound_zipWith hsound]
  rfl

variable {α : Type} {read : Json → Option α} {write : α → Json}

theorem bind_ite {β : Type} {p : Prop} [Decidable p] (value : α) (next : α → Option β) :
    ((if p then some value else none).bind next) = if p then next value else none := by
  split_ifs <;> rfl

/-- What is written is read back where there is room for it; otherwise nothing is read. -/
def ReadsBack (read : Json → Option α) (write : α → Json) : Prop :=
  ∀ (value : α) (room : Nat), read ((write value).kept room) =
    if (write value).height ≤ room then some value else none

/-- What is written has no arrays and no objects, and is read back. -/
structure IsFlat (read : Json → Option α) (write : α → Json) : Prop where
  /-- There are no arrays and no objects in it. -/
  height (value : α) : (write value).height = 0
  /-- All of it is kept. -/
  kept (value : α) (room : Nat) : (write value).kept room = write value
  /-- It is read back. -/
  read (value : α) : read (write value) = some value
  /-- It is not what is written where there is nothing. -/
  ne_null (value : α) : write value ≠ .null

theorem isFlat_text : IsFlat text? ofString :=
  ⟨fun _ => rfl, fun _ _ => rfl, text?_ofString, fun _ => Json.noConfusion⟩

theorem isFlat_id : IsFlat uint32? ofId :=
  ⟨fun _ => rfl, fun _ _ => rfl, uint32?_ofNat, fun _ => Json.noConfusion⟩

theorem isFlat_version : IsFlat uint64? fun version => ofNat version.toNat :=
  ⟨fun _ => rfl, fun _ _ => rfl, uint64?_ofNat, fun _ => Json.noConfusion⟩

theorem isFlat_bool : IsFlat bool? .bool :=
  ⟨fun _ => rfl, fun _ _ => rfl, fun _ => rfl, fun _ => Json.noConfusion⟩

/-- Words that have different spellings are flat. -/
theorem isFlat_choice (site : Site) {text : α → String} {words : List α}
    (h : ∀ word, (namesOf text words).lookup (text word) = some word) :
    IsFlat (choice? site (namesOf text words)) fun word => ofString (text word) := by
  refine ⟨fun _ => rfl, fun _ _ => rfl, fun word => ?_, fun _ => Json.noConfusion⟩
  have hread : choice? site (namesOf text words) (ofString (text word)) =
      (ofString (text word)).text?.bind fun name => (namesOf text words).lookup name := rfl
  rw [hread, text?_ofString, Option.bind_some, h]

/-- What may be absent is flat when it is flat where it is there. -/
theorem IsFlat.option (h : IsFlat read write) (value : Option α) :
    (ofOption write value).height = 0 ∧
      (∀ room, (ofOption write value).kept room = ofOption write value) ∧
      optional read (some (ofOption write value)) = some value := by
  cases value with
  | none => exact ⟨rfl, fun _ => rfl, rfl⟩
  | some value =>
    refine ⟨h.height value, h.kept value, ?_⟩
    have hnull := h.ne_null value
    rw [ofOption]
    unfold optional
    split
    · next he => cases he
    · next he => exact absurd (Option.some.inj he) hnull
    · next he =>
      cases he
      rw [h.read]
      rfl

/-- What is flat is read back. -/
theorem IsFlat.readsBack (h : IsFlat read write) : ReadsBack read write := by
  intro value room
  rw [h.kept, h.read, h.height, if_pos (Nat.zero_le room)]

/-- Lists of what is read back are read back. -/
theorem ReadsBack.list (h : ReadsBack read write) :
    ReadsBack (list? read) fun values => .array (values.map write) := by
  intro values room
  cases room with
  | zero => rfl
  | succ room =>
    simp only [kept, list?, height, Nat.add_le_add_iff_right]
    induction values with
    | nil => rfl
    | cons value more ih =>
      rw [List.map_cons, keptItems, List.mapM_cons, h, ih, heightAll]
      simp only [Option.bind_eq_bind, bind_ite, Option.pure_def, ← ite_and, Nat.max_le]

end Rulebook.Json
