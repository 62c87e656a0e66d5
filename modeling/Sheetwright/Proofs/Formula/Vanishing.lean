import Mathlib.Data.List.Basic
import Sheetwright.Proofs.Formula.Relocation
/-!
# What is left of a text that is moved

A formula has at least one token, unless it is the equals sign alone, and a formula with tokens is
moved to a formula. So the only texts of which nothing is left where they are copied to are the
empty one and this sign: `relocate_eq_nil_iff`.
-/

namespace Sheetwright.Formula

open Grid

variable {formula : String} {position extra : Nat} {c : Char} {text rest body : List Char}
  {s s' : Scan}

/-! ## Reading -/

namespace Scan

/-- Something was read. -/
def Begun (s : Scan) : Prop := s.pending ≠ [] ∨ s.tokens ≠ []

theorem begun_emit (s : Scan) (token : Token) : (s.emit token).Begun := .inr (List.cons_ne_nil _ _)

theorem begun_extend (s : Scan) (h : text ≠ []) : (s.extend text).Begun := by
  refine .inl fun hpending => h ?_
  exact List.reverse_eq_nil_iff.mp (List.append_eq_nil_iff.mp hpending).1

theorem Begun.tokens_close (h : s.Begun) : s.close.tokens ≠ [] := by
  rw [close]
  split
  next hpending => exact h.resolve_left (not_not_intro (List.isEmpty_iff.mp hpending))
  next => exact List.cons_ne_nil _ _

theorem ne_nil_of_mem_errorCodes : ∀ code ∈ errorCodes, code ≠ [] := by
  decide

/-- Whatever the character is, it is added to an operand or becomes a token. -/
theorem begun_step (h : s.step formula position c rest = .ok (extra, s')) : s'.Begun := by
  revert h
  fun_cases step formula position c rest s
  case case2 s₀ _ _ body _ =>
    rintro ⟨⟩
    split
    · exact begun_emit _ _
    · exact begun_extend _ (List.cons_ne_nil _ _)
  case case7 code hcode =>
    rintro ⟨⟩
    have hne := ne_nil_of_mem_errorCodes code (List.mem_of_find?_eq_some hcode)
    exact .inr (begun_extend _ hne).tokens_close
  -- a character that is refused leaves no state behind
  all_goals rintro ⟨⟩
  all_goals
    first
      | exact begun_extend _ (List.cons_ne_nil _ _)
      | exact .inr (List.cons_ne_nil _ _)

end Scan

theorem tokens_of_scanFrom (hs : s.Begun ∨ text ≠ [])
    (h : scanFrom formula position text s = .ok s') : s'.tokens ≠ [] := by
  fun_induction scanFrom formula position text s with
  | case1 position s =>
    cases h
    exact (hs.resolve_right (not_not_intro rfl)).tokens_close
  | case2 position s c rest ih =>
    cases hstep : s.step formula position c rest with
    | error e =>
      rw [hstep] at h
      cases h
    | ok read =>
      rw [hstep] at h
      exact ih read.1 read.2 (.inl (Scan.begun_step hstep)) h

/-- Whatever follows the equals sign has tokens. -/
theorem tokens_ne_nil {parts : List Token} (hbody : body ≠ []) (h : tokens body = .ok parts) :
    parts ≠ [] := by
  rw [tokens] at h
  cases hscan : scanFrom (String.ofList ('=' :: body)) 1 body ⟨[], [], []⟩ with
  | error e =>
    rw [hscan] at h
    cases h
  | ok s =>
    rw [hscan] at h
    cases h
    exact mt List.reverse_eq_nil_iff.mp (tokens_of_scanFrom (.inr hbody) hscan)

/-! ## Moving -/

/-- Nothing is left of a text only if there was nothing, or nothing behind the equals sign. -/
theorem relocate_eq_nil_iff {origin dest : Position} :
    relocate origin dest text = .ok [] ↔ text = [] ∨ text = ['='] := by
  constructor
  · intro h
    by_cases hsign : text.head? = some '='
    · obtain ⟨body, rfl⟩ := List.head?_eq_some_iff.mp hsign
      by_cases hbody : body = []
      · exact .inr (hbody ▸ rfl)
      -- a formula that is read and moved keeps its equals sign
      cases hparts : tokens body with
      | error e =>
        rw [relocate, hparts] at h
        cases h
      | ok parts =>
        rw [relocate_of_tokens hparts (tokens_ne_nil hbody hparts)] at h
        cases hmoved : parts.mapM (Token.move (Shift.between origin dest)) with
        | error e =>
          rw [hmoved] at h
          cases h
        | ok moved =>
          rw [hmoved] at h
          cases h
    · rw [relocate_of_ne hsign] at h
      exact .inl (Except.ok.inj h)
  · rintro (rfl | rfl)
    · rfl
    · rw [relocate, tokens, scanFrom]
      rfl

end Sheetwright.Formula
