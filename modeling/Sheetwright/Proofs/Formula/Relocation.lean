import Mathlib.Data.List.Basic
import Sheetwright.Formula.Relocation
import Sheetwright.Proofs.Text.Cut
import Sheetwright.Proofs.Text.Word
/-!
# Formulas that refer to their own row

A formula that is one reference, to a fixed column and to the row in which the formula stands, is
read as one token. Relocated, it refers to the same column and to the row it has come to, further up
or further down: `relocate_ownRow`. A text that is no formula is left as it is.
-/

namespace Sheetwright.Formula

open Grid

variable {formula : String} {position : Nat} {c : Char} {text letters : List Char}

/-! ## Reading one reference -/

/-- A letter, a digit or a dollar sign: nothing but a part of a reference. -/
def isPlain (c : Char) : Bool := c.isAlphanum || c == '$'

theorem ne_of_isPlain (h : isPlain c = true) {d : Char} (hd : isPlain d = false) : c ≠ d := by
  rintro rfl
  rw [h] at hd
  cases hd

theorem step_of_isPlain (h : isPlain c = true) (rest : List Char) (s : Scan) :
    s.step formula position c rest = .ok (0, s.extend [c]) := by
  have hall : ("+-*/^&=><%,;\x7d) \"'[#\n\x7b(".toList.all fun d => !isPlain d) = true := by
    decide
  have hne : ∀ d ∈ "+-*/^&=><%,;\x7d) \"'[#\n\x7b(".toList, c ≠ d := fun d hd =>
    ne_of_isPlain h ((Bool.not_eq_true' _).mp (List.all_eq_true.mp hall d hd))
  simp only [String.reduceToList, List.forall_mem_cons] at hne
  simp [Scan.step, hne, endsOperand, isGap]

/-- Plain characters are added to the operand under way. -/
theorem scanFrom_of_isPlain (h : ∀ c ∈ text, isPlain c = true) (s : Scan) :
    scanFrom formula position text s = .ok (s.extend text).close := by
  induction text generalizing position s with
  | nil => rw [scanFrom]; rfl
  | cons c text ih =>
    rw [List.forall_mem_cons] at h
    have hextend : (s.extend [c]).extend text = s.extend (c :: text) := by
      simp [Scan.extend]
    rw [scanFrom, step_of_isPlain h.1]
    change scanFrom formula (position + 0 + 1) (text.drop 0) (s.extend [c]) = _
    rw [List.drop_zero, ih h.2, hextend]

theorem tokens_of_isPlain (h : ∀ c ∈ text, isPlain c = true) :
    tokens ('$' :: text) = .ok [.reference ('$' :: text)] := by
  have hplain : ∀ c ∈ '$' :: text, isPlain c = true := List.forall_mem_cons.mpr ⟨rfl, h⟩
  rw [tokens, scanFrom_of_isPlain hplain]
  simp [Scan.close, Scan.extend, Token.ofOperand, bind, Except.bind, pure, Except.pure]

/-! ## Rows -/

/-- Only zero is written with a leading zero. -/
theorem head?_decimal {n : Nat} (hn : 0 < n) : (Text.decimal n).head? ≠ some '0' := by
  induction n using Nat.strongRecOn with
  | ind n ih =>
    have hsmall : ∀ n < 10, 0 < n → [n.digitChar].head? ≠ some '0' := by
      decide
    rw [Text.decimal, Nat.toDigits_eq_if (by decide)]
    split
    next hlt => exact hsmall n hlt hn
    next hlarge =>
      rw [List.head?_append_of_ne_nil _ (by exact Nat.toDigits_ne_nil)]
      exact ih (n / 10) (by omega) (by omega)

/-- The row of a position on a sheet is written with one to seven digits. -/
theorem isRowText_decimal {row : Nat} (hrow : 0 < row) (hlast : row ≤ lastRow) :
    isRowText (Text.decimal row) = true := by
  have hlength : (Text.decimal row).length ≤ 7 := by
    refine (Nat.length_toDigits_le_iff (by decide) (by decide)).mpr ?_
    exact Nat.lt_of_le_of_lt hlast (by decide)
  have hdigits : (Text.decimal row).all Char.isDigit = true :=
    List.all_eq_true.mpr fun c hc => Nat.isDigit_of_mem_toDigits (by decide) (by decide) hc
  have hhead : ((Text.decimal row).head? != some '0') = true := bne_iff_ne.mpr (head?_decimal hrow)
  have hne : (Text.decimal row).isEmpty = false := List.isEmpty_eq_false_iff.mpr Nat.toDigits_ne_nil
  rw [isRowText, hdigits, hhead, hne]
  simpa using hlength

theorem row?_decimal {row : Nat} (hrow : 0 < row) (hlast : row ≤ lastRow) :
    row? (Text.decimal row) = some ⟨false, Text.decimal row⟩ := by
  have hanchor : Anchor.ofText (Text.decimal row) = ⟨false, Text.decimal row⟩ := by
    cases hdigits : Text.decimal row with
    | nil => rfl
    | cons d digits =>
      have hd : d.isDigit = true :=
        Nat.isDigit_of_mem_toDigits (by decide) (by decide) (hdigits ▸ List.mem_cons_self)
      have hdollar : d ≠ '$' := by
        rintro rfl
        cases hd
      rw [Anchor.ofText]
      rintro rest heq
      exact hdollar (List.cons.inj heq).1
  rw [row?, hanchor, if_pos (isRowText_decimal hrow hlast)]

/-! ## Moving -/

/-- A reference to a fixed column of a row. -/
def fixedColumn (letters : List Char) (row : Nat) : List Char :=
  '$' :: (letters ++ Text.decimal row)

theorem forall_isColumnLetter (h : isColumnText letters = true) :
    ∀ c ∈ letters, isColumnLetter c = true := by
  rw [isColumnText, Bool.and_eq_true, List.all_eq_true] at h
  exact h.2

theorem isColumnLetter_of_mem_decimal {row : Nat} (hc : c ∈ Text.decimal row) :
    isColumnLetter c = false := by
  by_contra hletter
  have hdigit := Text.isDigit_of_isAlpha (Bool.not_eq_false _ ▸ hletter : c.isAlpha = true)
  rw [Text.isDigit_of_mem_toDigits hc] at hdigit
  cases hdigit

theorem cell?_fixedColumn (hletters : isColumnText letters = true) {row : Nat} (hrow : 0 < row)
    (hlast : row ≤ lastRow) : cell? (fixedColumn letters row) =
      some (⟨true, letters⟩, ⟨false, Text.decimal row⟩) := by
  have hall := forall_isColumnLetter hletters
  have hdigits : ∀ c, (Text.decimal row).head? = some c → isColumnLetter c = false :=
    fun c hc => isColumnLetter_of_mem_decimal (List.mem_of_mem_head? hc)
  have htake := Text.takeWhile_append_head hall hdigits
  have hdrop := Text.dropWhile_append_head hall hdigits
  rw [fixedColumn, cell?]
  simp only [Anchor.ofText, htake, hdrop, hletters, row?_decimal hrow hlast]

theorem isPlain_of_mem_fixedColumn (hletters : isColumnText letters = true) {row : Nat}
    (hc : c ∈ letters ++ Text.decimal row) : isPlain c = true := by
  rw [isPlain, Char.isAlphanum]
  rcases List.mem_append.mp hc with hc | hc
  · have halpha : c.isAlpha = true := forall_isColumnLetter hletters c hc
    rw [halpha]
    rfl
  · have hdigit : c.isDigit = true := Nat.isDigit_of_mem_toDigits (by decide) (by decide) hc
    rw [hdigit, Bool.or_true]
    rfl

/-! ## Moving a reference -/

theorem splitSheet_of_not_mem (h : '!' ∉ text) : splitSheet text = ([], text) := by
  have hwhole := List.takeWhile_eq_self_iff.mpr (Text.all_ne (mt List.mem_reverse.mp h))
  rw [splitSheet, hwhole, List.reverse_reverse, if_pos rfl]

/-- A reference that names no sheet and is no range has one end to move. -/
theorem moveReference_eq_moveEnd (hmark : '!' ∉ text) (hcolon : ':' ∉ text) (shift : Shift) :
    moveReference shift text = moveEnd shift text := by
  rw [moveReference, splitSheet_of_not_mem hmark]
  dsimp only
  rw [List.splitOn_eq_singleton hcolon]
  dsimp only
  cases hcell : cell? text with
  | none =>
    rw [moveEnd, hcell]
    rfl
  | some found =>
    rw [if_neg (by simp)]
    cases moveEnd shift text <;> rfl

/-- A reference to a fixed column names no sheet and is no range. -/
theorem moveReference_fixedColumn (hletters : isColumnText letters = true) {shift : Shift}
    {row : Nat} (hrow : 0 < row) (hlast : row ≤ lastRow) (hmoved : 0 < (row : Int) + shift.rows) :
    moveReference shift (fixedColumn letters row) =
      .ok (fixedColumn letters ((row : Int) + shift.rows).toNat) := by
  have hplain : ∀ c ∈ fixedColumn letters row, isPlain c = true :=
    List.forall_mem_cons.mpr ⟨rfl, fun c hc => isPlain_of_mem_fixedColumn hletters hc⟩
  have hmark : '!' ∉ fixedColumn letters row := fun h => by
    cases hplain '!' h
  have hcolon : ':' ∉ fixedColumn letters row := fun h => by
    cases hplain ':' h
  have hcell := cell?_fixedColumn hletters hrow hlast
  have hnumeral : Text.numeral (Text.decimal row) = row := Text.numeral_toDigits row
  have hpositive : ¬(row : Int) + shift.rows ≤ 0 := by
    omega
  rw [moveReference_eq_moveEnd hmark hcolon, moveEnd, hcell]
  simp only [moveColumn, moveRow, Anchor.render, if_true, hnumeral, hpositive, if_false]
  rfl

/-- A formula that is read moves part by part. -/
theorem relocate_of_tokens {origin dest : Position} {parts : List Token}
    (hparts : tokens text = .ok parts) (hne : parts ≠ []) :
    relocate origin dest ('=' :: text) =
      (parts.mapM (Token.move (Shift.between origin dest))).map fun moved =>
        '=' :: moved.flatten := by
  rw [relocate, hparts]
  change (if parts.isEmpty then pure [] else _ : Except Error (List Char)) = _
  rw [if_neg (mt List.isEmpty_iff.mp hne)]
  cases parts.mapM (Token.move (Shift.between origin dest)) <;> rfl

/-- A formula that refers to a fixed column of its own row does so wherever it is copied. -/
theorem relocate_ownRow (hletters : isColumnText letters = true) {origin dest : Position}
    (horigin : 0 < origin.row) (hlast : origin.row ≤ lastRow) (hdest : 0 < dest.row) :
    relocate origin dest ('=' :: fixedColumn letters origin.row) =
      .ok ('=' :: fixedColumn letters dest.row) := by
  have htokens : tokens (fixedColumn letters origin.row) =
      .ok [.reference (fixedColumn letters origin.row)] :=
    tokens_of_isPlain fun c hc => isPlain_of_mem_fixedColumn hletters hc
  have hrow : (origin.row : Int) + (Shift.between origin dest).rows = dest.row := by
    change (origin.row : Int) + ((dest.row : Int) - origin.row) = dest.row
    omega
  have hmove : moveReference (.between origin dest) (fixedColumn letters origin.row) =
      .ok (fixedColumn letters dest.row) := by
    rw [moveReference_fixedColumn hletters horigin hlast (by rw [hrow]; omega), hrow,
      Int.toNat_natCast]
  rw [relocate_of_tokens htokens (List.cons_ne_nil _ _), List.mapM_cons, Token.move, hmove]
  simp [pure, Except.pure, bind, Except.bind, Except.map]

/-- A text that is no formula stays as it is. -/
theorem relocate_of_ne {origin dest : Position} (h : text.head? ≠ some '=') :
    relocate origin dest text = .ok text := by
  cases text with
  | nil => rfl
  | cons c text =>
    rw [relocate]
    rintro body heq
    exact h (congrArg List.head? heq)

end Sheetwright.Formula
