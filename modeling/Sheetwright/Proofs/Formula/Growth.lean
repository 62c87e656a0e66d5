import Sheetwright.Proofs.Formula.Relocation
/-!
# Formulas that grow when they are moved

A reference takes more characters in a row of more digits, so a formula may be longer where it is
copied to. `relocate_sum` moves a formula with one reference that moves and one word that does not,
however long that word is.
-/

namespace Sheetwright.Formula

open Grid

variable {formula : String} {position : Nat} {text word : List Char} {shift : Shift}

/-- Plain characters in front are added to the operand under way. -/
theorem scanFrom_append (h : ∀ c ∈ text, isPlain c = true) (rest : List Char) (s : Scan) :
    scanFrom formula position (text ++ rest) s =
      scanFrom formula (position + text.length) rest (s.extend text) := by
  induction text generalizing position s with
  | nil => rfl
  | cons c text ih =>
    rw [List.forall_mem_cons] at h
    have hextend : (s.extend [c]).extend text = s.extend (c :: text) := by
      simp [Scan.extend]
    rw [List.cons_append, scanFrom, step_of_isPlain h.1]
    change scanFrom formula (position + 0 + 1) ((text ++ rest).drop 0) (s.extend [c]) = _
    rw [List.drop_zero, ih h.2, hextend, List.length_cons]
    congr 1
    omega

/-- A plus sign behind an operand that is no number ends it. -/
theorem step_plus (s : Scan) (h : isScientificHead s.pending.reverse = false) (rest : List Char) :
    s.step formula position '+' rest = .ok (0, s.close.emit (.verbatim ['+'])) := by
  cases rest <;> simp [Scan.step, h, endsOperand, isGap]

theorem ofOperand_of_isPlain (h : ∀ c ∈ text, isPlain c = true) :
    Token.ofOperand text = .reference text := by
  rw [Token.ofOperand]
  · rintro rest rfl
    cases h _ List.mem_cons_self
  · rintro rest rfl
    cases h _ List.mem_cons_self

/-- The sum of a reference to the first row and a word is read as three tokens. -/
theorem tokens_sum (hword : ∀ c ∈ word, isPlain c = true) (hne : word ≠ []) :
    tokens (['B', '1'] ++ '+' :: word) =
      .ok [.reference ['B', '1'], .verbatim ['+'], .reference word] := by
  have hreference : ∀ c ∈ ['B', '1'], isPlain c = true := List.all_eq_true.mp (by decide)
  have hclose (s : Scan) (hs : s.pending = []) :
      ((s.extend word).close).tokens = .reference word :: s.tokens := by
    have hpending : (s.extend word).pending.reverse = word := by
      simp [Scan.extend, hs]
    rw [Scan.close, if_neg (by simpa [Scan.extend, hs] using hne), hpending,
      ofOperand_of_isPlain hword]
    rfl
  rw [tokens, scanFrom_append hreference, scanFrom, step_plus _ rfl]
  change (do
    let s ← scanFrom _ _ word _
    return s.tokens.reverse) = _
  rw [scanFrom_of_isPlain hword]
  change Except.ok _ = _
  rw [hclose _ rfl]
  rfl

/-- A word of letters that is too long for a column names no cell, so it does not move. -/
theorem moveReference_word (hword : ∀ c ∈ word, isColumnLetter c = true)
    (hlength : 3 < word.length) : moveReference shift word = .ok word := by
  have hmark : '!' ∉ word := fun h => by
    cases hword '!' h
  have hcolon : ':' ∉ word := fun h => by
    cases hword ':' h
  have hanchor : Anchor.ofText word = ⟨false, word⟩ := by
    rw [Anchor.ofText]
    rintro rest rfl
    cases hword _ List.mem_cons_self
  have hcolumn : isColumnText word = false := by
    have hlong : decide (word.length ≤ 3) = false := decide_eq_false (by omega)
    rw [isColumnText, hlong, Bool.and_false, Bool.false_and]
  have hcell : cell? word = none := by
    rw [cell?, hanchor]
    dsimp only
    rw [List.takeWhile_eq_self_iff.mpr hword, hcolumn]
  rw [moveReference_eq_moveEnd hmark hcolon, moveEnd, hcell]

/-- Copied from the first to the tenth row, such a sum is longer by one character. -/
theorem relocate_sum (hword : ∀ c ∈ word, isColumnLetter c = true) (hlength : 3 < word.length) :
    relocate ⟨1, 1⟩ ⟨10, 1⟩ ('=' :: (['B', '1'] ++ '+' :: word)) =
      .ok ('=' :: (['B', '1', '0'] ++ '+' :: word)) := by
  have hplain : ∀ c ∈ word, isPlain c = true := by
    intro c hc
    have hletter : c.isAlpha = true := hword c hc
    rw [isPlain, Char.isAlphanum, hletter]
    rfl
  have hne : word ≠ [] := by
    rintro rfl
    cases hlength
  have hreference : moveReference (.between ⟨1, 1⟩ ⟨10, 1⟩) ['B', '1'] = .ok ['B', '1', '0'] := by
    decide +kernel
  rw [relocate_of_tokens (tokens_sum hplain hne) (List.cons_ne_nil _ _)]
  simp only [List.mapM_cons, List.mapM_nil, Token.move, hreference,
    moveReference_word hword hlength]
  simp [pure, Except.pure, bind, Except.bind, Except.map]

end Sheetwright.Formula
