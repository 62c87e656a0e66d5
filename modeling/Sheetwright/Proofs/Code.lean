import Sheetwright.Code
import Sheetwright.Proofs.Record.Kept
/-!
# Codes of records

Nothing of a record that was read can be refused but an empty key, so the code of such a record is
there as soon as the key is not empty, and its slots hold what the record keeps under their names.
-/

namespace Sheetwright

/-! ## Slots -/

section

variable {size : Nat} {s : Slots size} {i : Nat} {value : String}

/-- Slots are counted from one. -/
theorem Slots.get?_eq_some_iff :
    s.get? i = some value ↔ 1 ≤ i ∧ s.values[i - 1]? = some value := by
  rw [Slots.get?, Int.toNat_natCast]
  by_cases hi : 1 ≤ i
  · have hpos : (1 : Int) ≤ i := by omega
    rw [if_pos hpos]
    exact (and_iff_right hi).symm
  · have hpos : ¬(1 : Int) ≤ i := by omega
    rw [if_neg hpos]
    exact iff_of_false (by simp) fun h => hi h.1

/-- A filled slot is one that holds a value. -/
theorem Slots.mem_filled : (i, value) ∈ s.filled ↔ value ≠ "" ∧ s.get? i = some value := by
  rw [filled, List.mem_filterMap, get?_eq_some_iff]
  constructor
  · rintro ⟨⟨found, index⟩, hmem, hsome⟩
    rw [List.mk_mem_zipIdx_iff_le_and_getElem?_sub] at hmem
    by_cases hempty : found.isEmpty = true
    · simp [hempty] at hsome
    · simp only [hempty] at hsome
      cases hsome
      exact ⟨by simpa [String.isEmpty_iff] using hempty, hmem⟩
  · rintro ⟨hne, hvalue⟩
    refine ⟨(value, i), List.mk_mem_zipIdx_iff_le_and_getElem?_sub.mpr hvalue, ?_⟩
    simp [String.isEmpty_iff, hne]

end

namespace Code

open Record

variable {key : String} {r : Record} {c : Code} {g : Group}

theorem get?_slotsOf (r : Record) {i : Nat} (hi : 1 ≤ i ∧ i ≤ g.size) :
    (slotsOf r g).get? i = some (match r.attributes.get? (AttributeName.slot g i).text with
      | some value => if value.isGiven then value.plain else ""
      | none => "") := by
  have hlast : i - 1 < g.size := by omega
  have hback : i - 1 + 1 = i := by omega
  refine Slots.get?_eq_some_iff.mpr ⟨hi.1, ?_⟩
  rewrite [slotsOf, Slots.ofFunction, List.getElem?_map, List.getElem?_range hlast,
    Option.map_some, hback]
  cases r.attributes.get? (AttributeName.slot g i).text <;> rfl

/-! ## From records -/

theorem eq_of_result {α : Type} {check : Field.Check α} {value : α}
    (h : check.result = .ok value) : (check.run []).1 = value := by
  rw [Field.Check.result] at h
  split at h
  next found hrun =>
    cases h
    exact congrArg Prod.fst hrun
  next => cases h

theorem fields_of_ofRecord (h : ofRecord key r = .ok c) :
    c.baseType = r.baseType ∧ ∀ g, c.slots g = slotsOf r g := by
  obtain rfl := eq_of_result h
  refine ⟨rfl, fun g => ?_⟩
  cases g <;> rfl

/-- A code has the text and the deletion mark of its record. -/
theorem rawText_of_ofRecord (h : ofRecord key r = .ok c) :
    c.rawText = r.rawText ∧ c.isDeleted = r.isDeleted := by
  obtain rfl := eq_of_result h
  exact ⟨rfl, rfl⟩

theorem filledText_of_ne {text : String} (h : text ≠ "") :
    Field.filledText (.text text) = .ok text := by
  have hempty : text.isEmpty = false := by
    simpa [String.isEmpty_iff] using h
  simp [Field.filledText, Field.text, hempty, bind, Except.bind, pure, Except.pure]

/-- A code has the key it was made under. -/
theorem key_of_ofRecord (h : ofRecord key r = .ok c) : c.key = key := by
  have hkey : ((Field.note ["key"] "" (Field.filledText (.text key))).run []).1 = key := by
    by_cases hempty : key = ""
    · rw [hempty]
      rfl
    · rw [filledText_of_ne hempty]
      rfl
  obtain rfl := eq_of_result h
  exact hkey

/-- A text that the record keeps under an indexed name is the value of the slot. -/
theorem get?_slots_of_text (h : ofRecord key r = .ok c) {i : Nat} (hi : 1 ≤ i ∧ i ≤ g.size)
    {value : String}
    (hkept : r.attributes.get? (AttributeName.slot g i).text = some (.text value)) :
    (c.slots g).get? i = some value := by
  have hslot := get?_slotsOf r hi
  rw [hkept, ← (fields_of_ofRecord h).2 g] at hslot
  by_cases hempty : value.isEmpty = true
  · simpa [Datum.isGiven, Datum.plain, hempty, String.isEmpty_iff.mp hempty] using hslot
  · simpa [Datum.isGiven, Datum.plain, hempty] using hslot

/-- A slot that is not empty holds what the record keeps under its name. -/
theorem exists_of_get?_slots (h : ofRecord key r = .ok c) {i : Nat} (hi : 1 ≤ i ∧ i ≤ g.size)
    {value : String} (hget : (c.slots g).get? i = some value) (hne : value ≠ "") :
    ∃ datum, r.attributes.get? (AttributeName.slot g i).text = some datum ∧
      datum.plain = value := by
  rw [(fields_of_ofRecord h).2 g, get?_slotsOf r hi, Option.some.injEq] at hget
  cases hdatum : r.attributes.get? (AttributeName.slot g i).text with
  | none =>
    rw [hdatum] at hget
    exact absurd hget.symm hne
  | some datum =>
    rw [hdatum] at hget
    by_cases hgiven : datum.isGiven = true
    · simp only [hgiven, if_pos] at hget
      exact ⟨datum, rfl, hget⟩
    · simp only [hgiven, if_neg, Bool.not_eq_true] at hget
      exact absurd hget.symm hne

theorem exists_of_mem_slots (h : ofRecord key r = .ok c) {value : String}
    (hmem : value ∈ (c.slots g).values) (hne : value ≠ "") :
    ∃ i datum, (1 ≤ i ∧ i ≤ g.size) ∧
      r.attributes.get? (AttributeName.slot g i).text = some datum ∧ datum.plain = value := by
  have hlength := (c.slots g).length_values
  rcases List.mem_iff_getElem?.mp hmem with ⟨i, hi⟩
  have hlt := (List.getElem?_eq_some_iff.mp hi).1
  have hindex : 1 ≤ i + 1 ∧ i + 1 ≤ g.size := by omega
  have hslot : (c.slots g).get? (i + 1 : Nat) = some value :=
    Slots.get?_eq_some_iff.mpr ⟨hindex.1, hi⟩
  rcases exists_of_get?_slots h hindex hslot hne with ⟨datum, hdatum, hplain⟩
  exact ⟨i + 1, datum, hindex, hdatum, hplain⟩

/-- A scalar attribute of a record that was read is never refused. -/
theorem scalarOf_of_read {record : List Char} (h : Record.read record = .ok r) (s : Scalar)
    (place : String) :
    scalarOf r s place = pure (((r.attributes.get? s.name).map Datum.plain).getD "") := by
  rw [scalarOf]
  cases hdatum : r.attributes.get? s.name with
  | none => rfl
  | some datum =>
    have hname : r.attributes.get? (AttributeName.scalar s).text = some datum := hdatum
    rcases exists_of_kept h hname with ⟨_, _, _, _, value, -, -, rfl⟩
    by_cases hempty : String.ofList value = ""
    · simp only [hempty]
      rfl
    · have hgiven : (Datum.text (String.ofList value)).isGiven = true := by
        simpa [Datum.isGiven] using hempty
      simp only [hgiven, if_pos]
      rfl

/-- A record that was read is a code under every key that is not empty. -/
theorem exists_ofRecord {record : List Char} (h : Record.read record = .ok r) (hkey : key ≠ "") :
    ∃ c, ofRecord key r = .ok c := by
  rw [ofRecord, filledText_of_ne hkey]
  simp only [scalarOf_of_read h]
  exact ⟨_, rfl⟩

/-- The eight texts of a code are what its record keeps under their names. -/
theorem scalar_of_ofRecord {record : List Char} (hread : Record.read record = .ok r)
    (h : ofRecord key r = .ok c) (s : Scalar) :
    c.scalar s = ((r.attributes.get? s.name).map Datum.plain).getD "" := by
  obtain rfl := eq_of_result h
  simp only [scalarOf_of_read hread]
  cases s <;> rfl

end Code

end Sheetwright
