import Mathlib.Data.List.Forall2
import Sheetwright.Proofs.Text.Cut
import Sheetwright.Text.Blank
import Sheetwright.Text.Digit
/-!
# Words and their characters

The letters of the alphabet and the digits of all scripts are told apart, and neither is a blank.
A word that begins a text is passed over whatever the case of its letters; it is known from the text
before the first character that the word does not hold.
-/

namespace Sheetwright.Text

/-! ## Letters -/

theorem toNat_lt_of_isAlphanum {c : Char} (h : c.isAlphanum = true) : c.toNat < 128 := by
  delta Char.isAlphanum Char.isAlpha Char.isUpper Char.isLower Char.isDigit at h
  simp only [Bool.or_eq_true, Bool.and_eq_true, decide_eq_true_eq, ge_iff_le,
    UInt32.le_iff_toNat_le] at h
  have hupper : 'Z'.val.toNat = 90 := rfl
  have hlower : 'z'.val.toNat = 122 := rfl
  have hdigit : '9'.val.toNat = 57 := rfl
  change c.val.toNat < 128
  omega

theorem isAlpha_of_isLower {c : Char} (h : c.isLower = true) : c.isAlpha = true := by
  change (c.isUpper || c.isLower) = true
  rw [h, Bool.or_true]

theorem isAlphanum_of_isAlpha {c : Char} (h : c.isAlpha = true) : c.isAlphanum = true := by
  simp [Char.isAlphanum, h]

/-- What is checked of the first characters one by one holds of every letter and digit. -/
theorem forall_isAlphanum {P : Char → Prop} (h : ∀ n < 128, P (Char.ofNat n)) {c : Char}
    (hc : c.isAlphanum = true) : P c := by
  have hcode := h c.toNat (toNat_lt_of_isAlphanum hc)
  rwa [Char.ofNat_toNat] at hcode

theorem isBlank_eq_false_of_isAlphanum {c : Char} (h : c.isAlphanum = true) :
    isBlank c = false := by
  have hall : ∀ n < 128, (Char.ofNat n).isAlphanum = true → isBlank (Char.ofNat n) = false := by
    decide +kernel
  exact forall_isAlphanum (P := fun c => c.isAlphanum = true → isBlank c = false) hall h h

theorem isBlank_eq_false_of_isAlpha {c : Char} (h : c.isAlpha = true) : isBlank c = false :=
  isBlank_eq_false_of_isAlphanum (isAlphanum_of_isAlpha h)

theorem isAlphanum_of_isBlank {c : Char} (h : isBlank c = true) : c.isAlphanum = false := by
  by_contra halpha
  simp [isBlank_eq_false_of_isAlphanum (by simpa using halpha)] at h

theorem isDigit_of_isAlpha {c : Char} (h : c.isAlpha = true) : isDigit c = false := by
  have hrange : 58 ≤ c.toNat ∧ c.toNat < 128 := by
    refine ⟨?_, toNat_lt_of_isAlphanum (isAlphanum_of_isAlpha h)⟩
    delta Char.isAlpha Char.isUpper Char.isLower at h
    simp only [Bool.or_eq_true, Bool.and_eq_true, decide_eq_true_eq, ge_iff_le,
      UInt32.le_iff_toNat_le] at h
    have hupper : 'A'.val.toNat = 65 := rfl
    have hlower : 'a'.val.toNat = 97 := rfl
    change 58 ≤ c.val.toNat
    omega
  -- the digits of a script lie below the letters of the alphabet or above them
  have hzeros : ∀ start ∈ digitZeros, start + 10 ≤ 58 ∨ 128 ≤ start := by
    decide
  by_contra hdigit
  simp only [isDigit, digitValue?, Option.isSome_map, Bool.not_eq_false, List.find?_isSome,
    Bool.and_eq_true, decide_eq_true_eq] at hdigit
  rcases hdigit with ⟨start, hmem, hle, hlt⟩
  have hstart := hzeros start hmem
  omega

theorem caseless_toLower {c : Char} (h : c.isAlpha = true) : caseless c.toLower = caseless c := by
  have hall : ∀ n < 128, (Char.ofNat n).isAlpha = true →
      caseless (Char.ofNat n).toLower = caseless (Char.ofNat n) := by
    decide +kernel
  exact forall_isAlphanum (P := fun c => c.isAlpha = true → caseless c.toLower = caseless c) hall
    (isAlphanum_of_isAlpha h) h

/-- Every run moves its characters beyond the comma. -/
theorem moveByRuns_lowerRuns_ne_comma {c : Char} (h : 44 < c.toNat) :
    (moveByRuns lowerRuns c).toNat ≠ 44 := by
  have hruns : ∀ run ∈ lowerRuns, 44 < (run.first : Int) + run.shift := by
    decide +kernel
  rw [moveByRuns]
  split
  next run hfound =>
    have hmem := hruns run (List.mem_of_find?_eq_some hfound)
    have hcovers := List.find?_some hfound
    rw [CaseRun.covers, Bool.and_eq_true, Bool.and_eq_true, decide_eq_true_eq] at hcovers
    have hfirst := hcovers.1.1
    by_cases hvalid : ((c.toNat : Int) + run.shift).toNat.isValidChar
    · rw [Char.ofNat, dif_pos hvalid]
      change ((c.toNat : Int) + run.shift).toNat ≠ 44
      omega
    · rw [Char.ofNat, dif_neg hvalid]
      decide
  next => omega

/-- No other character counts as a comma when case is ignored. -/
theorem eq_comma_of_caseless {c : Char} (h : caseless c = caseless ',') : c = ',' := by
  have hcomma : caseless ',' = 44 := by
    decide
  -- no letter folds to the comma, neither by the table nor by a run of capitals
  have htwins : ∀ twin ∈ caselessTwins, twin.2 ≠ 44 := by
    decide +kernel
  rw [hcomma, caseless] at h
  split at h
  next twin hfound =>
    exact absurd h (htwins _ (List.mem_of_find?_eq_some hfound))
  next =>
    rw [lowerChar] at h
    split at h
    next hascii =>
      have hall : ∀ n < 128, (Char.ofNat n).toLower.toNat = 44 → n = 44 := by
        decide
      have hn : c.toNat = 44 := by
        refine hall c.toNat hascii ?_
        rwa [Char.ofNat_toNat]
      rw [← Char.ofNat_toNat c, hn]
    next hascii =>
      split at h
      · exact absurd h (by decide)
      · exact absurd h (moveByRuns_lowerRuns_ne_comma (by omega))

theorem caseless_of_lowerChar {c d : Char} (h : lowerChar c = lowerChar d) :
    caseless c = caseless d := by
  rw [caseless, caseless, h]

/-- Where the lower case of a text is plain, it is made character by character. -/
theorem lowerAfter_eq_map {text : List Char} (before : List Char)
    (h : ∀ c ∈ lowerAfter before text, c.toNat < 128) :
    lowerAfter before text = text.map lowerChar := by
  induction text generalizing before with
  | nil => rfl
  | cons c text ih =>
    rw [lowerAfter, List.forall_mem_append] at h
    rw [lowerAfter, ih _ h.2, List.map_cons]
    -- the two characters that are not lowered by themselves leave something that is not plain
    obtain ⟨himage, -⟩ := h
    split at himage
    next =>
      have hdot := himage (Char.ofNat 0x307) (by simp)
      exact absurd hdot (by decide)
    next hcapital =>
      split at himage
      next =>
        have hfinal := himage (Char.ofNat 0x3C2) (by simp)
        exact absurd hfinal (by decide)
      next hsigma =>
        rw [if_neg hcapital, if_neg hsigma]
        rfl

/-- Texts with the same plain lower case are the same when case is ignored. -/
theorem map_caseless_of_lower {a b : List Char} (hplain : ∀ c ∈ lower b, c.toNat < 128)
    (h : lower a = lower b) : a.map caseless = b.map caseless := by
  have hmap : a.map lowerChar = b.map lowerChar := by
    rw [lower, lower] at h
    rw [lower] at hplain
    rw [← lowerAfter_eq_map [] hplain, ← h, lowerAfter_eq_map [] (h ▸ hplain)]
  rw [← List.forall₂_eq_eq_eq, List.forall₂_map_left_iff, List.forall₂_map_right_iff] at hmap ⊢
  exact hmap.imp fun _ _ => caseless_of_lowerChar

/-! ## Digits -/

/-- The digits of every script lie between the blanks. -/
theorem isBlank_eq_false_of_isDigit {c : Char} (h : isDigit c = true) : isBlank c = false := by
  have hzeros : ∀ start ∈ digitZeros, (32 < start ∧ start + 9 < 0x85) ∨
      (0xA0 < start ∧ start + 9 < 0x1680) ∨ (0x1680 < start ∧ start + 9 < 0x2000) ∨
      0x3000 < start := by
    decide
  simp only [isDigit, digitValue?, Option.isSome_map, List.find?_isSome, Bool.and_eq_true,
    decide_eq_true_eq] at h
  rcases h with ⟨start, hmem, hle, hlt⟩
  have hstart := hzeros start hmem
  simp only [isBlank, Bool.or_eq_false_iff, Bool.and_eq_false_iff, decide_eq_false_iff_not,
    beq_eq_false_iff_ne]
  omega

theorem isDigit_comma : isDigit ',' = false := by
  decide

/-- The digits of a number in base ten are digits, and their values are the usual ones. -/
theorem digitValue?_of_isDigit {c : Char} (h : c.isDigit = true) :
    digitValue? c = some (c.toNat - 48) := by
  have hrange : 48 ≤ c.toNat ∧ c.toNat ≤ 57 := by
    simpa [Char.isDigit, UInt32.le_iff_toNat_le] using h
  have hzeros : digitZeros = 48 :: digitZeros.tail := rfl
  rw [digitValue?, hzeros, List.find?_cons_of_pos]
  · rfl
  · simp only [Bool.and_eq_true, decide_eq_true_eq]
    omega

theorem isDigit_of_ascii {c : Char} (h : c.isDigit = true) : isDigit c = true := by
  rw [isDigit, digitValue?_of_isDigit h]
  rfl

theorem isDigit_of_mem_toDigits {n : Nat} {c : Char} (h : c ∈ Nat.toDigits 10 n) :
    isDigit c = true :=
  isDigit_of_ascii (Nat.isDigit_of_mem_toDigits (by decide) (by decide) h)

theorem numeral_toDigits (n : Nat) : numeral (Nat.toDigits 10 n) = n := by
  -- both read the digits from the left, and each digit has the value one expects
  have hfold (digits : List Char) (start : Nat) (h : ∀ c ∈ digits, c.isDigit = true) :
      digits.foldl (fun value c => 10 * value + (digitValue? c).getD 0) start =
        Nat.ofDigitChars 10 digits start := by
    induction digits generalizing start with
    | nil => rfl
    | cons c digits ih =>
      have hvalue := digitValue?_of_isDigit (h c List.mem_cons_self)
      rw [List.foldl_cons, Nat.ofDigitChars_cons, hvalue]
      exact ih _ fun d hd => h d (List.mem_cons_of_mem c hd)
  rw [numeral, hfold]
  · exact Nat.ofDigitChars_ten_toDigits
  · intro c hc
    exact Nat.isDigit_of_mem_toDigits (by decide) (by decide) hc

/-! ## Words -/

/-- A word is passed over in whatever case it is written. -/
theorem afterWord?_of_map_caseless {word lead : List Char}
    (h : word.map caseless = lead.map caseless) (text : List Char) :
    afterWord? word (lead ++ text) = some text := by
  induction word generalizing lead with
  | nil =>
    rw [List.map_nil, eq_comm, List.map_eq_nil_iff] at h
    rw [h, List.nil_append, afterWord?]
  | cons w word ih =>
    cases lead with
    | nil => cases h
    | cons c lead =>
      rw [List.map_cons, List.map_cons, List.cons.injEq] at h
      rw [List.cons_append, afterWord?, if_pos h.1.symm, ih h.2]

/-- A word begins a text that it is written in front of. -/
theorem afterWord?_append (word text : List Char) : afterWord? word (word ++ text) = some text :=
  afterWord?_of_map_caseless rfl text

/-- A word is found where its letters stand in any case. -/
theorem afterWord?_of_toLower {word letters : List Char} (h : letters.map Char.toLower = word)
    (halpha : ∀ c ∈ letters, c.isAlpha = true) (rest : List Char) :
    afterWord? word (letters ++ rest) = some rest := by
  refine afterWord?_of_map_caseless ?_ rest
  rw [← h, List.map_map]
  exact List.map_congr_left fun c hc => caseless_toLower (halpha c hc)

/-- A word that begins a text ends before the first character that it does not hold. -/
theorem afterWord?_append_cons {word : List Char} {x : Char}
    (hx : ∀ w ∈ word, caseless x ≠ caseless w) (lead rest : List Char) :
    afterWord? word (lead ++ x :: rest) = (afterWord? word lead).map (· ++ x :: rest) := by
  induction word generalizing lead with
  | nil => rfl
  | cons w word ih =>
    have ih' := ih fun v hv => hx v (List.mem_cons_of_mem w hv)
    cases lead with
    | nil => simp [afterWord?, hx w List.mem_cons_self]
    | cons c lead =>
      by_cases hc : caseless c = caseless w <;> simp [afterWord?, hc, ih']

theorem afterWord?_suffix {word text rest : List Char} (h : afterWord? word text = some rest) :
    rest <:+ text := by
  induction word generalizing text with
  | nil =>
    rw [afterWord?, Option.some.injEq] at h
    exact h ▸ List.suffix_refl _
  | cons w word ih =>
    cases text with
    | nil => cases h
    | cons c text =>
      rw [afterWord?] at h
      split at h
      · exact (ih h).trans (List.suffix_cons c text)
      · cases h

theorem mem_of_afterWord? {word text rest : List Char} (h : afterWord? word text = some rest)
    {c : Char} (hc : c ∈ text) : (∃ w ∈ word, caseless c = caseless w) ∨ c ∈ rest := by
  induction word generalizing text with
  | nil =>
    rw [afterWord?, Option.some.injEq] at h
    exact Or.inr (h ▸ hc)
  | cons w word ih =>
    cases text with
    | nil => cases h
    | cons d text =>
      rw [afterWord?] at h
      split at h
      next hd =>
        rcases List.mem_cons.mp hc with rfl | hc
        · exact Or.inl ⟨w, List.mem_cons_self, hd⟩
        · refine (ih h hc).imp_left fun hw => ?_
          rcases hw with ⟨v, hv, hsame⟩
          exact ⟨v, List.mem_cons_of_mem w hv, hsame⟩
      next => cases h

end Sheetwright.Text
