import Sheetwright.Proofs.Grid.Cells
import Sheetwright.Proofs.Text.Word
import Sheetwright.Workbook.Title
/-!
# Numbered titles

What numbering a title comes to: `numbered` is the title that results, `numberFault?` is what
prevents it, and `unused_eq` puts them together. Numbering fails exactly if the numbers behind the
title are exhausted (`numberFault?_eq_none_iff`), which takes a title with thousands of digits in it
(`not_exhausted_of_short`).
-/

namespace Sheetwright

open Grid

/-! ## The limit of digits -/

namespace Text

/-- A greater number has no fewer digits. -/
theorem length_decimal_mono {n m : Nat} (h : n ≤ m) : (decimal n).length ≤ (decimal m).length := by
  have hpos : 0 < (decimal m).length := List.length_pos_iff.mpr Nat.toDigits_ne_nil
  have hlt := (Nat.length_toDigits_le_iff (by decide) hpos).mp (Nat.le_refl (decimal m).length)
  exact (Nat.length_toDigits_le_iff (by decide) hpos).mpr (Nat.lt_of_le_of_lt h hlt)

theorem digitValue?_lt {c : Char} {value : Nat} (h : digitValue? c = some value) : value < 10 := by
  rw [digitValue?, Option.map_eq_some_iff] at h
  rcases h with ⟨start, hstart, rfl⟩
  have hrange := List.find?_some hstart
  simp only [Bool.and_eq_true, decide_eq_true_eq] at hrange
  omega

/-- The number that follows one with some digits has one digit more at most. -/
theorem length_decimal_succ_le (digits : List Char) :
    (decimal (numeral digits + 1)).length ≤ digits.length + 1 := by
  -- the value of the digits that are read already makes up the front of the whole one
  have hfold (digits : List Char) (start : Nat) :
      digits.foldl (fun value c => 10 * value + (digitValue? c).getD 0) start <
        (start + 1) * 10 ^ digits.length := by
    induction digits generalizing start with
    | nil =>
      rw [List.foldl_nil, List.length_nil, Nat.pow_zero, Nat.mul_one]
      exact Nat.lt_succ_self start
    | cons c digits ih =>
      have hdigit : (digitValue? c).getD 0 < 10 := by
        cases hvalue : digitValue? c with
        | none => decide
        | some value => exact digitValue?_lt hvalue
      calc digits.foldl _ (10 * start + (digitValue? c).getD 0)
          < (10 * start + (digitValue? c).getD 0 + 1) * 10 ^ digits.length := ih _
        _ ≤ ((start + 1) * 10) * 10 ^ digits.length := Nat.mul_le_mul_right _ (by omega)
        _ = (start + 1) * 10 ^ (c :: digits).length := by
          rw [List.length_cons, Nat.pow_succ', Nat.mul_assoc]
  have hnumeral : numeral digits < 10 ^ digits.length := by
    have h := hfold digits 0
    rwa [Nat.zero_add, Nat.one_mul] at h
  refine (Nat.length_toDigits_le_iff (by decide) (Nat.succ_pos _)).mpr ?_
  exact Nat.lt_of_le_of_lt hnumeral (Nat.pow_lt_pow_succ (by decide))

end Text

namespace Title

variable {first : Char} {word digits : List Char} {found : List (List Char)}
  {titles : List String} {wanted : String}

/-! ## What numbering comes to -/

/-- The greatest of the numbers found. -/
def greatest (found : List (List Char)) : Nat :=
  ((found.filter fun digits => !digits.isEmpty).map Text.numeral).foldl max 0

/-- The title with its number. It is the wanted one as it is if no other one is found. -/
def numbered (titles : List String) (wanted : String) : String :=
  let found := digitsBehind titles wanted
  if found.isEmpty then wanted
  else wanted ++ String.ofList (Text.decimal (greatest found + 1))

/-- Why the title cannot be numbered, if so. -/
def numberFault? (titles : List String) (wanted : String) : Option Fault :=
  let found := digitsBehind titles wanted
  match found.find? fun digits => Text.digitLimit < digits.length with
  | some digits => some (.unreadableNumber (.tooLong digits.length))
  | none =>
    if Text.digitLimit < (Text.decimal (greatest found + 1)).length then some .unwritableNumber
    else none

/-- The numbers are read from left to right, and the first one that is too long is reported. -/
theorem mapM_readNumber (found : List (List Char)) :
    found.mapM readNumber =
      match found.find? fun digits => Text.digitLimit < digits.length with
      | some digits => .error (.unreadableNumber (.tooLong digits.length))
      | none => .ok (found.map Text.numeral) := by
  induction found with
  | nil => rfl
  | cons digits found ih =>
    rw [List.mapM_cons, ih, readNumber, Text.readDigits, List.find?_cons]
    by_cases h : Text.digitLimit < digits.length
    · rw [if_pos h, decide_eq_true h]
      rfl
    · rw [if_neg h, decide_eq_false h]
      dsimp only
      cases found.find? fun digits => Text.digitLimit < digits.length <;> rfl

/-- Digits that are too many are some digits, so they are found among those that count. -/
theorem find?_filter_isEmpty (found : List (List Char)) :
    (found.filter fun digits => !digits.isEmpty).find?
        (fun digits => Text.digitLimit < digits.length) =
      found.find? fun digits => Text.digitLimit < digits.length := by
  rw [List.find?_filter]
  congr 1
  funext digits
  cases digits <;> simp

theorem unused_eq (titles : List String) (wanted : String) :
    unused titles wanted = match numberFault? titles wanted with
      | some fault => .error fault
      | none => .ok (numbered titles wanted) := by
  rw [unused, numberFault?, numbered]
  generalize digitsBehind titles wanted = found
  by_cases hempty : found.isEmpty = true
  · rw [List.isEmpty_iff.mp hempty]
    rfl
  · rw [if_neg hempty, if_neg hempty, nextNumber, mapM_readNumber, find?_filter_isEmpty]
    cases hlong : found.find? fun digits => Text.digitLimit < digits.length with
    | some digits => rfl
    | none =>
      -- all numbers can be read, so it is the next one that counts
      change withNumber wanted (greatest found + 1) = _
      rw [withNumber, Text.writeDigits?]
      by_cases hover : Text.digitLimit < (Text.decimal (greatest found + 1)).length
      · rw [if_pos hover, if_pos hover]
      · rw [if_neg hover, if_neg hover]

/-- A numbered title is the wanted one with something behind it. -/
theorem exists_numbered_eq (titles : List String) (wanted : String) :
    ∃ number, numbered titles wanted = wanted ++ number := by
  rw [numbered]
  split
  · exact ⟨"", String.append_empty.symm⟩
  · exact ⟨_, rfl⟩

/-- A title is left as it is exactly if nothing is found. -/
theorem numbered_eq_self_iff :
    numbered titles wanted = wanted ↔ digitsBehind titles wanted = [] := by
  rw [numbered]
  split
  next hempty => exact iff_of_true rfl (List.isEmpty_iff.mp hempty)
  next hfound =>
    refine iff_of_false (fun heq => ?_) fun hnone => hfound (List.isEmpty_iff.mpr hnone)
    -- the number that is added has a digit at least
    have hlength := congrArg (fun s : String => s.toList.length) heq
    simp only [String.toList_append, String.toList_ofList, List.length_append] at hlength
    have hdigits := List.length_pos_iff.mpr (Nat.toDigits_ne_nil (b := 10)
      (n := greatest (digitsBehind titles wanted) + 1))
    rw [Text.decimal] at hlength
    omega

/-- A title that no title of a workbook equals, upper and lower case not being told apart, has no
numbers behind it. -/
theorem digitsBehind_of_forall_not_same (h : ∀ title ∈ titles, same wanted title = false) :
    digitsBehind titles wanted = [] := by
  rw [digitsBehind, if_neg]
  rw [Bool.not_eq_true, List.any_eq_false]
  exact fun title htitle => by rw [h title htitle]; exact Bool.false_ne_true

/-! ## When numbering fails -/

/-- The numbers behind a title are exhausted: one of them has too many digits to be read, or the one
that follows it has too many to be written. -/
def Exhausted (titles : List String) (wanted : String) : Prop :=
  ∃ digits ∈ digitsBehind titles wanted, Text.digitLimit < digits.length ∨
    Text.digitLimit < (Text.decimal (Text.numeral digits + 1)).length

instance (titles : List String) (wanted : String) : Decidable (Exhausted titles wanted) :=
  inferInstanceAs (Decidable (∃ digits ∈ digitsBehind titles wanted, _))

theorem not_exhausted_of_nil (h : digitsBehind titles wanted = []) :
    ¬Exhausted titles wanted := by
  rintro ⟨digits, hmem, -⟩
  rw [h] at hmem
  cases hmem

theorem greatest_le_iff {n : Nat} :
    greatest found ≤ n ↔ ∀ digits ∈ found, Text.numeral digits ≤ n := by
  rw [greatest, List.foldl_map, Sheet.foldl_max_le_iff (f := Text.numeral)]
  constructor
  · rintro ⟨-, h⟩ digits hmem
    -- no digits at all count as zero, so leaving them out changes nothing
    by_cases hempty : digits = []
    · subst hempty
      exact Nat.zero_le n
    · refine h digits (List.mem_filter.mpr ⟨hmem, ?_⟩)
      simpa using hempty
  · intro h
    exact ⟨Nat.zero_le n, fun digits hmem => h digits (List.mem_filter.mp hmem).1⟩

theorem greatest_eq_or (found : List (List Char)) :
    greatest found = 0 ∨ ∃ digits ∈ found, Text.numeral digits = greatest found := by
  cases hgreatest : greatest found with
  | zero => exact Or.inl rfl
  | succ n =>
    refine Or.inr (by_contra fun hnone => ?_)
    -- if no number found were the greatest, all of them would be less
    have hle : greatest found ≤ n := by
      refine greatest_le_iff.mpr fun digits hmem => ?_
      have hbound := greatest_le_iff.mp (Nat.le_of_eq hgreatest) digits hmem
      exact Nat.le_of_lt_succ (Nat.lt_of_le_of_ne hbound fun heq => hnone ⟨digits, hmem, heq⟩)
    omega

/-- The next number is too long exactly if the one after a number that was found is. -/
theorem digitLimit_lt_greatest_succ_iff :
    Text.digitLimit < (Text.decimal (greatest found + 1)).length ↔
      ∃ digits ∈ found, Text.digitLimit < (Text.decimal (Text.numeral digits + 1)).length := by
  constructor
  · intro h
    rcases greatest_eq_or found with hzero | ⟨digits, hmem, heq⟩
    · rw [hzero] at h
      exact absurd h (by decide)
    · exact ⟨digits, hmem, heq ▸ h⟩
  · rintro ⟨digits, hmem, h⟩
    have hle := greatest_le_iff.mp (Nat.le_refl (greatest found)) digits hmem
    exact Nat.lt_of_lt_of_le h (Text.length_decimal_mono (Nat.succ_le_succ hle))

theorem numberFault?_eq_none_iff :
    numberFault? titles wanted = none ↔ ¬Exhausted titles wanted := by
  rw [numberFault?, Exhausted]
  generalize digitsBehind titles wanted = found
  split
  next digits hlong =>
    refine iff_of_false nofun fun h => h ⟨digits, List.mem_of_find?_eq_some hlong, Or.inl ?_⟩
    simpa using List.find?_some hlong
  next hnone =>
    have hread : ∀ digits ∈ found, ¬Text.digitLimit < digits.length := by
      simpa using hnone
    rw [ite_eq_right_iff]
    constructor
    · rintro h ⟨digits, hmem, hlong | hover⟩
      · exact hread digits hmem hlong
      · cases h (digitLimit_lt_greatest_succ_iff.mpr ⟨digits, hmem, hover⟩)
    · intro h hlong
      rcases digitLimit_lt_greatest_succ_iff.mp hlong with ⟨digits, hmem, hover⟩
      exact absurd ⟨digits, hmem, Or.inr hover⟩ h

/-! ## Short titles -/

/-- The digits that are found stand together somewhere in the text. -/
theorem infix_of_mem_digitsAfter {text : List Char} (h : digits ∈ digitsAfter first word text) :
    digits <:+: text ∧ ∀ c ∈ digits, Text.isDigit c = true := by
  fun_induction digitsAfter first word text with
  | case1 => cases h
  | case2 c text hc rest hrest ih =>
    have hsuffix : rest <:+ c :: text :=
      (Text.afterWord?_suffix hrest).trans (List.suffix_cons c text)
    rcases List.mem_cons.mp h with rfl | h
    · refine ⟨(List.takeWhile_prefix _).isInfix.trans hsuffix.isInfix, fun d hd => ?_⟩
      exact List.mem_takeWhile_imp hd
    · have hbehind : skipComma (rest.dropWhile Text.isDigit) <:+ c :: text :=
        ((skipComma_suffix _).trans (List.dropWhile_suffix _)).trans hsuffix
      exact ⟨(ih h).1.trans hbehind.isInfix, (ih h).2⟩
  | case3 c text hc hnone ih =>
    exact ⟨(ih h).1.trans (List.suffix_cons c text).isInfix, (ih h).2⟩
  | case4 c text hc ih =>
    exact ⟨(ih h).1.trans (List.suffix_cons c text).isInfix, (ih h).2⟩

/-- What stands together in a joined text and holds no separator stands in one of the pieces. -/
theorem exists_infix_of_intercalate {sep : Char} {pieces : List (List Char)} (hsep : sep ∉ digits)
    (hne : digits ≠ []) (h : digits <:+: [sep].intercalate pieces) :
    ∃ piece ∈ pieces, digits <:+: piece := by
  -- a part that reaches beyond a separator from the left would begin with it there
  have hstop {behind rest : List Char} (hbehind : behind <+: sep :: rest) (hmem : sep ∉ behind) :
      behind = [] := by
    rcases List.prefix_cons_iff.mp hbehind with rfl | ⟨more, rfl, -⟩
    · rfl
    · exact absurd List.mem_cons_self hmem
  induction pieces with
  | nil => exact absurd (List.infix_nil.mp h) hne
  | cons piece pieces ih =>
    cases pieces with
    | nil => exact ⟨piece, List.mem_singleton_self piece, by simpa using h⟩
    | cons next pieces =>
      rw [List.intercalate_cons_cons, List.append_assoc, List.singleton_append,
        List.infix_append_iff, List.infix_cons_iff] at h
      rcases h with hfront | (hbegin | hbehind) | ⟨front, behind, rfl, hfront, hbehind⟩
      · exact ⟨piece, List.mem_cons_self, hfront⟩
      · exact absurd (hstop hbegin hsep) hne
      · rcases ih hbehind with ⟨found, hmem, hwithin⟩
        exact ⟨found, List.mem_cons_of_mem piece hmem, hwithin⟩
      · obtain rfl := hstop hbehind fun hmem => hsep (List.mem_append_right front hmem)
        rw [List.append_nil]
        exact ⟨piece, List.mem_cons_self, hfront.isInfix⟩

/-- The digits behind a title stand together in one of the titles. -/
theorem exists_infix_of_mem_digitsBehind (h : digits ∈ digitsBehind titles wanted)
    (hne : digits ≠ []) : ∃ title ∈ titles, digits <:+: title.toList := by
  rw [digitsBehind] at h
  split at h
  · split at h
    · cases h
    · rcases infix_of_mem_digitsAfter h with ⟨hwithin, hdigits⟩
      have hcomma : ',' ∉ digits := fun hmem =>
        Bool.false_ne_true (Text.isDigit_comma.symm.trans (hdigits ',' hmem))
      rw [String.toList_intercalate] at hwithin
      rcases exists_infix_of_intercalate hcomma hne hwithin with ⟨piece, hpiece, hin⟩
      rcases List.mem_map.mp hpiece with ⟨title, htitle, rfl⟩
      exact ⟨title, htitle, hin⟩
  · cases h

/-- Titles of fewer characters than a number may have digits leave a number for every title. -/
theorem not_exhausted_of_short (h : ∀ title ∈ titles, title.length < Text.digitLimit)
    (wanted : String) : ¬Exhausted titles wanted := by
  rintro ⟨digits, hmem, hover⟩
  have hlength : Text.digitLimit ≤ digits.length := by
    rcases hover with hlong | hbound
    · exact Nat.le_of_lt hlong
    · exact Nat.le_of_lt_succ (Nat.lt_of_lt_of_le hbound (Text.length_decimal_succ_le digits))
  have hne : digits ≠ [] := by
    rintro rfl
    exact absurd hlength (by decide)
  rcases exists_infix_of_mem_digitsBehind hmem hne with ⟨title, htitle, hwithin⟩
  have hshort := h title htitle
  rw [← String.length_toList] at hshort
  exact Nat.not_lt_of_le (Nat.le_trans hlength hwithin.length_le) hshort

end Title

end Sheetwright
