import Sheetwright.Proofs.Record.Rendering
/-!
# One record written and read again

A record that can be written, if only it has a base type, is read again as one record of the same
base type with the same attributes, whether it was read from a text or made in some other way. The
deletion mark is the exception: it is found wherever it stands, so a value that holds it marks the
record as well. The record is therefore read as it was exactly if it is marked or none of its values
holds the mark: `readAll_render_self`.
-/

namespace Sheetwright.Record

open Text

variable {r : Record}

/-- One of the values holds the deletion mark. -/
def HoldsMark (r : Record) : Prop :=
  ∃ name value, r.attributes.get? (AttributeName.text name) = some (.text (String.ofList value)) ∧
    marksDeletion value = true

/-! ## The mark -/

/-- A writable record has the mark as its value of deletion, or none at all. -/
theorem Writable.get?_delete (h : r.Writable) :
    r.attributes.get? deleteKey = if r.isDeleted then some (.bool true) else none := by
  cases hdatum : r.attributes.get? deleteKey with
  | none => rw [isDeleted, hdatum]; rfl
  | some datum =>
    have hmark := (h.entries _ (Entries.mem_of_get? hdatum)).eq_mark
    rw [isDeleted, hdatum, hmark]
    rfl

/-- The mark is somewhere in what is written of a record if it is an entry or part of a value. -/
theorem Writable.any_marks_iff (h : r.Writable) :
    r.attributes.any (marksDeletion ∘ written) = true ↔ r.isDeleted = true ∨ r.HoldsMark := by
  rw [List.any_eq_true]
  constructor
  · rintro ⟨entry, hentry, hmarks⟩
    have hkept := (Entries.mem_iff_get? h.nodup).mp hentry
    -- a fragment marks the record by its key, or by what stands in its value
    cases h.entries entry hentry with
    | mark =>
      refine Or.inl ?_
      rw [isDeleted, hkept]
      rfl
    | @value name value known plain =>
      rw [Function.comp_apply, marksDeletion_written_value] at hmarks
      exact Or.inr ⟨name, value, hkept, hmarks⟩
  · rintro (hdeleted | ⟨name, value, hkept, hmarks⟩)
    · have hmark := h.get?_delete
      rw [if_pos hdeleted] at hmark
      refine ⟨_, Entries.mem_of_get? hmark, ?_⟩
      rw [Function.comp_apply, written_mark]
      decide
    · refine ⟨_, Entries.mem_of_get? hkept, ?_⟩
      rwa [Function.comp_apply, marksDeletion_written_value]

/-! ## One record -/

theorem readAll_render_eq {again : Record} (h : r.Writable) (hbase : r.baseType ≠ "")
    (hread : read r.render.toList = .ok again) : readAll r.render.toList = .ok [again] := by
  have htexts : texts r.render.toList = [r.render.toList] := by
    have happend := texts_render_append h []
    rwa [List.append_nil, texts_of_not_mem List.not_mem_nil] at happend
  refine readAll_eq_ok.mpr ⟨[again], ?_, ?_⟩
  · rw [htexts]
    exact List.Forall₂.cons hread List.Forall₂.nil
  · refine (List.filter_eq_self.mpr fun s hs => ?_).symm
    obtain rfl := List.mem_singleton.mp hs
    rw [hasBaseType_iff, baseType_render h hread]
    exact hbase

/-- A record with a base type is read again as one record. Its base type and all its attributes are
the same, it is marked if it was marked or if a value holds the mark, and so it means the same
exactly if it does not come to a mark through a value. -/
theorem readAll_render_self (h : r.Writable) (hbase : r.baseType ≠ "") :
    ∃ again, readAll r.render.toList = .ok [again] ∧ again.Writable ∧
      again.baseType = r.baseType ∧
      (∀ key ≠ deleteKey, again.attributes.get? key = r.attributes.get? key) ∧
      (again.isDeleted = true ↔ r.isDeleted = true ∨ r.HoldsMark) ∧
      (SameMeaning r again ↔ (r.HoldsMark → r.isDeleted = true)) := by
  rcases exists_read_render h with ⟨again, hread⟩
  have hrecord : r.render.toList ∈ texts (r.render.toList ++ []) := by
    rw [texts_render_append h]
    exact List.mem_cons_self
  have hagain : again.Writable := writable_of_read hrecord hread
  have hdeleted : again.isDeleted = true ↔ r.isDeleted = true ∨ r.HoldsMark := by
    rw [isDeleted_of_get? (get?_delete_render h hread), h.any_marks_iff]
  have hother : ∀ key ≠ deleteKey, again.attributes.get? key = r.attributes.get? key :=
    fun key hkey => get?_render_of_ne h hread hagain hkey
  refine ⟨again, readAll_render_eq h hbase hread, hagain, baseType_render h hread, hother,
    hdeleted, fun hsame hholds => ?_, fun hmarked => ⟨baseType_render h hread, fun key => ?_⟩⟩
  · -- the same attributes include the same mark
    have hmark : again.isDeleted = r.isDeleted := by
      rw [isDeleted, isDeleted, hsame.attributes]
    rw [← hmark]
    exact hdeleted.mpr (Or.inr hholds)
  · by_cases hkey : key = deleteKey
    · have hiff : again.isDeleted = r.isDeleted := by
        rw [Bool.eq_iff_iff, hdeleted]
        exact ⟨fun hor => hor.elim id hmarked, Or.inl⟩
      rw [hkey, hagain.get?_delete, h.get?_delete, hiff]
    · exact hother key hkey

/-- A value that is plain goes under a name of the vocabulary. -/
theorem Entry.of_text {name : AttributeName} {value : String} (known : name.Known)
    (plain : Plain value.toList) : Entry (name.text, .text value) := by
  have hentry := Entry.value known plain
  rwa [String.ofList_toList] at hentry

/-- A record with values that read like names and like the mark. -/
def misleading : Record where
  baseType := "<A\" =B"
  attributes := [((AttributeName.slot .row 200).text, .text "label1= |Delete"),
    (deleteKey, .bool true), ((AttributeName.scalar .driver).text, .text " <row2 =\n")]
  rawText := ""

theorem writable_misleading : misleading.Writable where
  trimmed := by decide
  semicolon := by decide
  bracket := by decide
  nodup := by decide +kernel
  entries := by
    refine List.forall_mem_cons.mpr ⟨Entry.of_text ?_ ⟨?_, ?_, ?_⟩, List.forall_mem_cons.mpr
      ⟨Entry.mark, List.forall_mem_singleton.mpr (Entry.of_text trivial ⟨?_, ?_, ?_⟩)⟩⟩
    · exact ⟨by decide, by decide⟩
    all_goals decide

theorem readAll_render_self_misleading :
    misleading.Writable ∧ misleading.baseType ≠ "" ∧
      ∃ again, readAll misleading.render.toList = .ok [again] ∧ SameMeaning misleading again := by
  have hbase : misleading.baseType ≠ "" := by decide
  rcases readAll_render_self writable_misleading hbase with ⟨again, hread, -, -, -, -, hsame⟩
  exact ⟨writable_misleading, hbase, again, hread, hsame.mpr fun _ => rfl⟩

/-- The record is read again as it was. -/
def RoundTrips (r : Record) : Prop :=
  ∃ again, readAll r.render.toList = .ok [again] ∧ SameMeaning r again

/-- A label that is not a mark, but reads like one. -/
def mislabelled : Record := ⟨"A", [((AttributeName.slot .label 1).text, .text "Delete")], ""⟩

/-- A label that reads like the mark marks its record. -/
theorem not_roundTrips : ¬∀ r : Record, r.Writable → r.baseType ≠ "" → r.RoundTrips := by
  intro hall
  have hwritable : mislabelled.Writable :=
    { trimmed := by decide
      semicolon := by decide
      bracket := by decide
      nodup := by decide
      entries := List.forall_mem_singleton.mpr
        (Entry.of_text ⟨by decide, by decide⟩ ⟨by decide, by decide, by decide⟩) }
  have hread : (readAll mislabelled.render.toList).map (List.map isDeleted) = .ok [true] := by
    decide +kernel
  rcases hall mislabelled hwritable (by decide) with ⟨again, hagain, hsame⟩
  rw [hagain] at hread
  have hmarked : again.isDeleted = true := by simpa [Except.map] using hread
  rw [isDeleted, hsame.attributes] at hmarked
  revert hmarked
  decide

end Sheetwright.Record
