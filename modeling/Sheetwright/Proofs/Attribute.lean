import Sheetwright.Attribute
import Sheetwright.Proofs.Text.Word
import Mathlib.Data.List.Basic
/-!
# Names and their spellings

No two attributes have the same canonical spelling, and none is spelled like the deletion mark. An
indexed name is recognised by its letters in any case and digits that give an index of the group.
-/

namespace Sheetwright

open Text

/-! ## Decimal digits -/

theorem Text.decimal_injective : Function.Injective decimal := by
  intro m n h
  have hm := Nat.ofDigitChars_ten_toDigits (n := m)
  have hn := Nat.ofDigitChars_ten_toDigits (n := n)
  rw [decimal, decimal] at h
  rw [← hm, ← hn, h]

theorem Text.isDigit_of_mem_decimal {n : Nat} {c : Char} (h : c ∈ decimal n) :
    c.isDigit = true :=
  Nat.isDigit_of_mem_toDigits (by decide) (by decide) h

theorem Text.exists_mem_decimal (n : Nat) : ∃ c, c ∈ decimal n :=
  List.exists_mem_of_ne_nil _ (by simp [decimal, Nat.toDigits_ne_nil])

/-! ## Spellings -/

namespace AttributeName

theorem scalar_name_no_digit (s : Scalar) : ∀ c ∈ s.name.toList, c.isDigit = false := by
  have hall : s.name.toList.all (!·.isDigit) = true := by
    cases s <;> decide
  simpa using hall

theorem group_name_no_digit (g : Group) : ∀ c ∈ g.name.toList, c.isDigit = false := by
  have hall : g.name.toList.all (!·.isDigit) = true := by
    cases g <;> decide
  simpa using hall

theorem scalar_name_injective {s t : Scalar} (h : s.name = t.name) : s = t := by
  cases s <;> cases t <;> first | rfl | exact absurd h (by decide)

theorem group_name_injective {g g' : Group} (h : g.name.toList = g'.name.toList) : g = g' := by
  cases g <;> cases g' <;> first | rfl | exact absurd h (by decide)

/-- The letters of an indexed name end where its digits begin. -/
theorem takeWhile_slot_text (g : Group) (i : Nat) :
    (slot g i).text.toList.takeWhile (!·.isDigit) = g.name.toList ∧
      (slot g i).text.toList.dropWhile (!·.isDigit) = decimal i := by
  have hletters : ∀ c ∈ g.name.toList, (!c.isDigit) = true := by
    intro c hc
    simp [group_name_no_digit g c hc]
  have hdigits : (decimal i).takeWhile (!·.isDigit) = [] ∧
      (decimal i).dropWhile (!·.isDigit) = decimal i := by
    cases hdecimal : decimal i with
    | nil =>
      rcases exists_mem_decimal i with ⟨c, hc⟩
      simp [hdecimal] at hc
    | cons d digits =>
      have hmem : d ∈ decimal i := by rw [hdecimal]; exact List.mem_cons_self
      have hd : d.isDigit = true := isDigit_of_mem_decimal hmem
      simp [hd]
  rw [text, String.toList_append, String.toList_ofList, List.takeWhile_append_of_pos hletters,
    List.dropWhile_append_of_pos hletters, hdigits.1, hdigits.2, List.append_nil]
  exact ⟨rfl, rfl⟩

theorem scalar_text_ne_slot_text (s : Scalar) (g : Group) (i : Nat) :
    (scalar s).text ≠ (slot g i).text := by
  intro h
  rcases exists_mem_decimal i with ⟨c, hc⟩
  have hmem : c ∈ s.name.toList := by
    have htext : c ∈ (slot g i).text.toList := by
      rw [text, String.toList_append, String.toList_ofList]
      exact List.mem_append_right _ hc
    rwa [← h] at htext
  have hdigit := scalar_name_no_digit s c hmem
  rw [isDigit_of_mem_decimal hc] at hdigit
  cases hdigit

theorem text_injective : Function.Injective AttributeName.text := by
  intro a b h
  cases a with
  | scalar s =>
    cases b with
    | scalar t => exact congrArg scalar (scalar_name_injective h)
    | slot g i => exact absurd h (scalar_text_ne_slot_text s g i)
  | slot g i =>
    cases b with
    | scalar t => exact absurd h.symm (scalar_text_ne_slot_text t g i)
    | slot g' j =>
      -- the letters give the group, the digits behind them the index
      have hg := takeWhile_slot_text g i
      have hg' := takeWhile_slot_text g' j
      rw [h] at hg
      obtain rfl := group_name_injective (hg.1.symm.trans hg'.1)
      obtain rfl := decimal_injective (hg.2.symm.trans hg'.2)
      rfl

/-- No attribute is spelled like the key of the deletion mark. -/
theorem text_ne_delete (name : AttributeName) : name.text ≠ "delete" := by
  intro h
  cases name with
  | scalar s => cases s <;> exact absurd h (by decide)
  | slot g i =>
    have hg := (takeWhile_slot_text g i).1
    rw [h] at hg
    cases g <;> exact absurd hg (by decide)

/-- The letters at the beginning of a spelling. -/
def letters : AttributeName → List Char
  | scalar s => s.name.toList
  | slot g _ => g.name.toList

/-- The digits at the end of a spelling. -/
def digits : AttributeName → List Char
  | scalar _ => []
  | slot _ i => decimal i

theorem toList_text (name : AttributeName) : name.text.toList = name.letters ++ name.digits := by
  cases name with
  | scalar s => exact (List.append_nil _).symm
  | slot g i => rw [text, String.toList_append, String.toList_ofList]; rfl

theorem letters_ne_nil (name : AttributeName) : name.letters ≠ [] := by
  rcases name with s | ⟨g, i⟩
  · cases s <;> decide
  · change g.name.toList ≠ []
    cases g <;> decide

theorem isLower_of_mem_letters {name : AttributeName} {c : Char} (h : c ∈ name.letters) :
    c.isLower = true := by
  have hall : name.letters.all Char.isLower = true := by
    rcases name with s | ⟨g, i⟩
    · cases s <;> decide
    · change g.name.toList.all Char.isLower = true
      cases g <;> decide
  exact List.all_eq_true.mp hall c h

theorem isDigit_of_mem_digits {name : AttributeName} {c : Char} (h : c ∈ name.digits) :
    c.isDigit = true := by
  cases name with
  | scalar s => cases h
  | slot g i => exact isDigit_of_mem_decimal h

/-- A spelling holds only lower case letters and digits. -/
theorem not_mem_text {c : Char} (hlower : c.isLower = false) (hdigit : c.isDigit = false)
    (name : AttributeName) : c ∉ name.text.toList := by
  intro h
  rw [toList_text, List.mem_append] at h
  rcases h with h | h
  · rw [isLower_of_mem_letters h] at hlower
    cases hlower
  · rw [isDigit_of_mem_digits h] at hdigit
    cases hdigit

/-! ## Recognition -/

/-- A name is in the vocabulary: its index, if it has one, is an index of its group. -/
def Known : AttributeName → Prop
  | scalar _ => True
  | slot g i => 1 ≤ i ∧ i ≤ g.size

/-- What is recognised as an indexed name has the letters of its group and an index of it. -/
theorem read_eq_slot {letters digits : List Char} {g : Group} {i : Nat}
    (h : read letters digits = .ok (some (slot g i))) :
    letters.map Char.toLower = g.name.toList ∧ digits ≠ [] ∧ numeral digits = i ∧
      1 ≤ i ∧ i ≤ g.size := by
  rw [read] at h
  split at h
  next =>
    cases hfind : Scalar.all.find? (·.name == String.ofList (letters.map Char.toLower)) <;>
      simp [hfind] at h
  next hdigits =>
    split at h
    next => cases h
    -- only digits, a known group and an index within its size are read as a slot
    next group hfind =>
      rw [readDigits] at h
      split at h
      next => cases h
      next =>
        rw [Except.map, Except.ok.injEq] at h
        split at h
        next hrange =>
          cases h
          have hname : g.name = String.ofList (letters.map Char.toLower) := by
            simpa using List.find?_some hfind
          refine ⟨?_, by simpa using hdigits, rfl, by simpa using hrange⟩
          rw [hname, String.toList_ofList]
        next => cases h

theorem known_of_read {letters digits : List Char} {name : AttributeName}
    (h : read letters digits = .ok (some name)) : name.Known := by
  cases name with
  | scalar s => trivial
  | slot g i => exact (read_eq_slot h).2.2.2

/-- A name of the vocabulary is recognised by its spelling. -/
theorem read_spelling {name : AttributeName} (h : name.Known) :
    read name.letters name.digits = .ok (some name) := by
  cases name with
  | scalar s => cases s <;> rfl
  | slot g i =>
    -- no group has more than two hundred slots, so no index is too long to be read
    have hsmall : ∀ i ≤ 200, (decimal i).length ≤ digitLimit := by
      decide +kernel
    have hsize : g.size ≤ 200 := by
      cases g <;> decide
    have hshort : ¬digitLimit < (decimal i).length := Nat.not_lt.mpr (hsmall i (h.2.trans hsize))
    have hgroup : Group.all.find?
        (·.name == String.ofList (g.name.toList.map Char.toLower)) = some g := by
      cases g <;> decide
    have hdigits : (decimal i).isEmpty = false :=
      List.isEmpty_eq_false_iff_exists_mem.mpr (exists_mem_decimal i)
    have hvalue : readDigits (decimal i) = .ok i := by
      rw [readDigits, if_neg hshort, decimal, numeral_toDigits]
    have hindex : (1 ≤ i && i ≤ g.size) = true := by simpa [Known] using h
    simp only [read, letters, digits, hdigits, hgroup, hvalue, hindex, Bool.false_eq_true,
      if_false, if_true, Except.map]

end AttributeName

end Sheetwright
