import Mathlib.Data.List.Nodup
import Rulebook.Proofs.Record.Cells

/-!
# Texts written one after the other

A text that is written to a cell replaces what was written there before, and texts for two cells may
be written in either order. So a list of texts that is written a second time changes nothing more,
also where it writes a cell several times: the last text for a cell is the one that stays.
-/

namespace Rulebook

namespace Table

variable {α : Type}

/-- Tables in which the same is found are equal. -/
theorem eq_of_find?_eq {left right : Table α} (h : ∀ key, left.find? key = right.find? key) :
    left = right := by
  obtain ⟨entries, ascending⟩ := left
  obtain ⟨others, ascending'⟩ := right
  have hmem : ∀ entry, entry ∈ entries ↔ entry ∈ others := fun ⟨key, value⟩ => by
    rw [← lookup_eq_some_iff ascending, ← lookup_eq_some_iff ascending']
    exact iff_of_eq (congrArg (· = some value) (h key))
  have hnodup : ∀ {list : List (UInt32 × α)}, list.Pairwise (fun a b => a.1 < b.1) →
      list.Nodup := fun hlist => hlist.imp fun {a b} hlt he => by
        subst he
        exact UInt32.lt_irrefl _ hlt
  have hperm : entries.Perm others :=
    (List.perm_ext_iff_of_nodup (hnodup ascending) (hnodup ascending')).mpr hmem
  have heq : entries = others := hperm.eq_of_pairwise
    (fun a b _ _ hab hba => absurd (UInt32.lt_trans hab hba) (UInt32.lt_irrefl _))
    ascending ascending'
  subst heq
  rfl

/-- A value that is put in replaces the one before. -/
theorem insert_insert (table : Table α) (key : UInt32) (value value' : α) :
    (table.insert key value).insert key value' = table.insert key value' := by
  refine eq_of_find?_eq fun other => ?_
  rw [find?_insert, find?_insert, find?_insert]
  split <;> rfl

/-- Values under different numbers are put in in either order. -/
theorem insert_comm (table : Table α) {key key' : UInt32} (h : key ≠ key') (value value' : α) :
    (table.insert key value).insert key' value' =
      (table.insert key' value').insert key value := by
  refine eq_of_find?_eq fun other => ?_
  rw [find?_insert, find?_insert, find?_insert, find?_insert]
  by_cases hk : other = key
  · rw [if_pos hk, if_pos hk, if_neg fun hk' => h (hk.symm.trans hk')]
  · rw [if_neg hk, if_neg hk]

end Table

namespace Record

/-- A text that is written replaces the one before. -/
theorem setFirst_setFirst (rows : Group) (attributeId : UInt32) (text text' : String) :
    setFirst (setFirst rows attributeId text) attributeId text' =
      setFirst rows attributeId text' := by
  cases rows with
  | nil => rw [setFirst, setFirst, setFirst, Table.insert_insert]
  | cons first more => rw [setFirst, setFirst, setFirst, Table.insert_insert]

/-- Texts of two attributes are written in either order. -/
theorem setFirst_comm (rows : Group) {attributeId attributeId' : UInt32}
    (h : attributeId ≠ attributeId') (text text' : String) :
    setFirst (setFirst rows attributeId text) attributeId' text' =
      setFirst (setFirst rows attributeId' text') attributeId text := by
  cases rows with
  | nil => rw [setFirst, setFirst, setFirst, setFirst, Table.insert_comm _ h]
  | cons first more => rw [setFirst, setFirst, setFirst, setFirst, Table.insert_comm _ h]

variable {attr attr' : Attribute}

/-- A text that is written to an attribute replaces the one before. -/
theorem setValue_setValue (record : Record) (hg : attr.groupId = attr'.groupId)
    (ha : attr.attributeId = attr'.attributeId) (text text' : String) :
    (record.setValue attr text).setValue attr' text' = record.setValue attr' text' := by
  rw [setValue, rows_setValue, if_pos hg.symm, ← hg, ← ha, setFirst_setFirst, setValue,
    Table.insert_insert, setValue, ← hg, ← ha]

/-- Texts of two attributes are written in either order. -/
theorem setValue_comm (record : Record)
    (h : ¬(attr.groupId = attr'.groupId ∧ attr.attributeId = attr'.attributeId))
    (text text' : String) :
    (record.setValue attr text).setValue attr' text' =
      (record.setValue attr' text').setValue attr text := by
  have htwice : ∀ (a b : Attribute) (text text' : String),
      (record.setValue a text).setValue b text' =
        ⟨(record.groups.insert a.groupId
            (setFirst (record.rows a.groupId) a.attributeId text)).insert b.groupId
          (setFirst (if b.groupId = a.groupId then
            setFirst (record.rows b.groupId) a.attributeId text else record.rows b.groupId)
            b.attributeId text')⟩ := fun a b text text' => by
    rw [← rows_setValue]
    rfl
  rw [htwice, htwice]
  by_cases hg : attr.groupId = attr'.groupId
  · have ha : attr.attributeId ≠ attr'.attributeId := fun ha => h ⟨hg, ha⟩
    rw [if_pos hg.symm, if_pos hg, hg, Table.insert_insert, Table.insert_insert,
      setFirst_comm _ ha]
  · rw [if_neg (Ne.symm hg), if_neg hg, Table.insert_comm _ hg]

end Record

namespace Link

/-- The two mean the same cell of the same record. -/
def SameCell (link other : Link) : Prop :=
  link.record = other.record ∧ link.attr.groupId = other.attr.groupId ∧
    link.attr.attributeId = other.attr.attributeId

instance (link other : Link) : Decidable (link.SameCell other) :=
  inferInstanceAs (Decidable (_ ∧ _))

end Link

namespace Records

/-- The records with a text written to an attribute; nothing is written where no record is meant. -/
def put (records : Records) (writing : Link × String) : Records :=
  (records.write? writing.1 writing.2).getD records

/-- The records with texts written one after the other. -/
def putAll (records : Records) (writings : List (Link × String)) : Records :=
  writings.foldl put records

/-- A text that is written to a cell replaces the one before. -/
theorem put_put (records : Records) {link link' : Link} (h : link.SameCell link')
    (text text' : String) :
    (records.put (link, text)).put (link', text') = records.put (link', text') := by
  obtain ⟨hr, hg, ha⟩ := h
  rw [put, put, put, write?, write?, write?, hr]
  cases link'.record with
  | new => simp only [Option.getD_some, Record.setValue_setValue _ hg ha]
  | old => simp only [Option.getD_some, Record.setValue_setValue _ hg ha]
  | none => rfl

/-- Texts for two cells are written in either order. -/
theorem put_comm (records : Records) {link link' : Link} (h : ¬link.SameCell link')
    (text text' : String) :
    (records.put (link, text)).put (link', text') =
      (records.put (link', text')).put (link, text) := by
  have hne : link.record = link'.record →
      ¬(link.attr.groupId = link'.attr.groupId ∧
        link.attr.attributeId = link'.attr.attributeId) := fun hr ha => h ⟨hr, ha⟩
  simp only [put, write?]
  cases hr : link.record <;> cases hr' : link'.record <;>
    simp only [Option.getD_some, Option.getD_none]
  all_goals rw [Record.setValue_comm _ (hne (hr.trans hr'.symm))]

/-- A text written in front of others is replaced by one of them, or may as well be written behind
them. -/
theorem putAll_put (writings : List (Link × String)) (writing : Link × String) :
    (∀ records : Records, (records.put writing).putAll writings = records.putAll writings) ∨
      ∀ records : Records, (records.put writing).putAll writings =
        (records.putAll writings).put writing := by
  obtain ⟨link, text⟩ := writing
  induction writings with
  | nil => exact .inr fun _ => rfl
  | cons first more ih =>
    obtain ⟨link', text'⟩ := first
    by_cases hs : link.SameCell link'
    · refine .inl fun records => ?_
      rw [putAll, List.foldl_cons, put_put records hs, putAll, List.foldl_cons]
    · have hswap : ∀ records : Records, (records.put (link, text)).putAll ((link', text') :: more) =
          ((records.put (link', text')).put (link, text)).putAll more := fun records => by
        rw [putAll, List.foldl_cons, put_comm records hs]
        rfl
      refine ih.imp (fun hlost records => ?_) fun hbehind records => ?_
      · exact (hswap records).trans (hlost _)
      · exact (hswap records).trans (hbehind _)

/-- Texts that are written a second time change nothing more. -/
theorem putAll_putAll (records : Records) (writings : List (Link × String)) :
    (records.putAll writings).putAll writings = records.putAll writings := by
  induction writings generalizing records with
  | nil => rfl
  | cons writing more ih =>
    have hcons : ∀ records : Records,
        records.putAll (writing :: more) = (records.put writing).putAll more := fun _ => rfl
    rcases putAll_put more writing with hlost | hbehind
    · rw [hcons, hcons, hlost, hlost, ih]
    · rw [hcons, hcons, hbehind, hbehind, hbehind, ih, ← hbehind, ← hbehind,
        put_put _ ⟨rfl, rfl, rfl⟩]

end Records

end Rulebook
