import Sheetwright.Proofs.Validation.Verbatim
/-!
# Leftmost matches

Validation looks for records as one looks for a pattern: from left to right, a match taken where the
first one begins, and on behind it. The pattern is an opening bracket, at least one character that
closes none, and the closing bracket. This search starts again right behind a bracket where no match
begins, whereas the reader of records goes from each opening bracket to the next closing one; the
two differ in nothing but empty pairs of brackets (`bracketed_eq_filledTexts`).
-/

namespace Sheetwright.Validation

open Record Text

/-! ## Searching for a pattern -/

/-- Every match of a pattern in a text begins at a place or behind it. -/
def NoneBefore (isMatch : List Char → Prop) (place : Nat) (text : List Char) : Prop :=
  ∀ before found after, text = before ++ (found ++ after) → isMatch found → place ≤ before.length

/-- What is found when a text is searched for a pattern from left to right: the match that begins
first, and then what is found behind it. -/
inductive Leftmost (isMatch : List Char → Prop) : List Char → List (List Char) → Prop
  /-- The text has no match. -/
  | none {text : List Char}
    (h : ∀ before found after, text = before ++ (found ++ after) → ¬isMatch found) :
    Leftmost isMatch text []
  /-- No match begins before the first one that is taken. -/
  | found {gap first rest : List Char} {more : List (List Char)} (hfirst : isMatch first)
    (hgap : NoneBefore isMatch gap.length (gap ++ (first ++ rest)))
    (hmore : Leftmost isMatch rest more) :
    Leftmost isMatch (gap ++ (first ++ rest)) (first :: more)

/-- No two matches begin at the same place of a text. -/
def Determined (isMatch : List Char → Prop) : Prop :=
  ∀ a b x y : List Char, isMatch a → isMatch b → a ++ x = b ++ y → a = b

variable {isMatch : List Char → Prop} {gap body text rest : List Char}
  {found other : List (List Char)}

/-- If only one match can begin at a place, a search has only one result. -/
theorem Leftmost.unique (h : Leftmost isMatch text found) (hother : Leftmost isMatch text other)
    (hdetermined : Determined isMatch) : found = other := by
  induction h generalizing other with
  | none hnone =>
    -- a text without matches leaves the other search nothing to take
    cases hother with
    | none => rfl
    | found hfirst => exact absurd hfirst (hnone _ _ _ rfl)
  | @found gap first rest more hfirst hgap hmore ih =>
    generalize htext : gap ++ (first ++ rest) = text at hother
    cases hother with
    | none hnone => exact absurd hfirst (hnone _ _ _ htext.symm)
    | @found gap' first' rest' more' hfirst' hgap' hmore' =>
      -- each search has no match before its own first one, so both begin at the same place
      have hlength : gap.length = gap'.length :=
        Nat.le_antisymm (hgap _ _ _ htext hfirst') (hgap' _ _ _ htext.symm hfirst)
      obtain ⟨rfl, htail⟩ := List.append_inj htext hlength
      obtain rfl := hdetermined _ _ _ _ hfirst hfirst' htail
      obtain rfl := List.append_cancel_left htail
      rw [ih hmore']

/-- What begins behind the front of a text begins in the rest of it. -/
theorem exists_behind {before tail : List Char} (h : gap ++ text = before ++ tail)
    (hle : gap.length ≤ before.length) : ∃ more, before = gap ++ more ∧ text = more ++ tail := by
  obtain ⟨more, rfl⟩ : gap <+: before :=
    List.prefix_of_prefix_length_le ⟨text, h⟩ (List.prefix_append before tail) hle
  rw [List.append_assoc] at h
  exact ⟨more, rfl, List.append_cancel_left h⟩

/-- Text in front in which no match begins changes nothing. -/
theorem Leftmost.skip (h : Leftmost isMatch text found)
    (hgap : NoneBefore isMatch gap.length (gap ++ text)) :
    Leftmost isMatch (gap ++ text) found := by
  cases h with
  | none hnone =>
    refine .none fun before found after htext hfound => ?_
    obtain ⟨more, -, hbehind⟩ := exists_behind htext (hgap before found after htext hfound)
    exact hnone more found after hbehind hfound
  | @found gap' first rest more hfirst hnone hmore =>
    have hbehind : NoneBefore isMatch (gap ++ gap').length (gap ++ gap' ++ (first ++ rest)) := by
      intro before other after htext hother
      rw [List.append_assoc] at htext
      obtain ⟨back, rfl, hback⟩ := exists_behind htext (hgap before other after htext hother)
      rw [List.length_append, List.length_append]
      exact Nat.add_le_add_left (hnone back other after hback hother) _
    rw [← List.append_assoc]
    exact .found hfirst hbehind hmore

/-! ## Brackets -/

/-- A pair of brackets with something between them that closes no bracket. -/
def IsFilled (found : List Char) : Prop :=
  ∃ body, body ≠ [] ∧ '>' ∉ body ∧ found = '<' :: (body ++ ['>'])

theorem isFilled_append (hbody : '>' ∉ body) (hne : body ≠ []) :
    IsFilled ('<' :: body ++ ['>']) :=
  ⟨body, hne, hbody, rfl⟩

theorem determined_isFilled : Determined IsFilled := by
  rintro _ _ x y ⟨body, -, hbody, rfl⟩ ⟨body', -, hbody', rfl⟩ heq
  rw [List.cons_append, List.cons_append, List.append_assoc, List.append_assoc] at heq
  obtain ⟨rfl, -⟩ := append_cons_inj hbody hbody' (List.cons.inj heq).2
  rfl

/-- An opening bracket stands behind a text that holds none. -/
theorem length_le_of_opening {before after : List Char} (hgap : '<' ∉ gap)
    (h : gap ++ text = before ++ '<' :: after) : gap.length ≤ before.length := by
  rcases List.append_eq_append_iff.mp h with ⟨more, rfl, -⟩ | ⟨more, rfl, hback⟩
  · simp
  · cases more with
    | nil => simp
    | cons c more =>
      obtain ⟨rfl, -⟩ := List.cons.inj hback
      simp at hgap

theorem noneBefore_of_not_mem (hgap : '<' ∉ gap) (text : List Char) :
    NoneBefore IsFilled gap.length (gap ++ text) := by
  rintro before _ after htext ⟨body, -, -, rfl⟩
  exact length_le_of_opening hgap htext

/-- No record begins up to an empty pair of brackets. -/
theorem noneBefore_empty (hgap : '<' ∉ gap) (text : List Char) :
    NoneBefore IsFilled (gap ++ ['<', '>']).length (gap ++ ['<', '>'] ++ text) := by
  rintro before _ after htext ⟨body, hne, hbody, rfl⟩
  rw [List.append_assoc] at htext
  have hle := length_le_of_opening hgap htext
  obtain ⟨more, rfl, hback⟩ := exists_behind htext hle
  -- neither the opening bracket of the pair nor its closing one opens a record
  rcases more with _ | ⟨c, _ | ⟨d, more⟩⟩
  · cases body with
    | nil => exact absurd rfl hne
    | cons c body =>
      obtain ⟨rfl, -⟩ := List.cons.inj (List.cons.inj hback).2
      simp at hbody
  · have hclose := (List.cons.inj (List.cons.inj hback).2).1
    cases hclose
  · simp

/-! ## Both searches -/

theorem bracketed_eq_filled (text : List Char) : bracketed text = filledTexts text := by
  rw [filledTexts]
  induction text using span_induction with
  | none text hopen => rw [bracketed_of_not_mem hopen, texts_of_not_mem hopen, List.filter_nil]
  | unterminated gap body hgap hbody =>
    rw [bracketed_skip hgap, bracketed_unterminated hbody, texts_unterminated hgap hbody,
      List.filter_nil]
  | span gap body rest hgap hbody _ ih =>
    rw [bracketed_skip hgap, texts_append hgap hbody]
    by_cases hne : body = []
    · subst hne
      rw [List.filter_cons_of_neg (by simp), List.nil_append, bracketed_empty, ih]
    · rw [List.filter_cons_of_pos (by simpa using hne), bracketed_append hbody hne, ih]

theorem leftmost_bracketed (text : List Char) : Leftmost IsFilled text (bracketed text) := by
  induction text using span_induction with
  | none text hopen =>
    rw [bracketed_of_not_mem hopen]
    refine .none ?_
    rintro before _ after rfl ⟨body, -, -, rfl⟩
    simp at hopen
  | unterminated gap body hgap hbody =>
    rw [bracketed_skip hgap, bracketed_unterminated hbody]
    refine Leftmost.skip (.none ?_) (noneBefore_of_not_mem hgap _)
    rintro before _ after htext ⟨more, -, -, rfl⟩
    -- a record would close the bracket
    have hclose : '>' ∈ '<' :: body := by simp [htext]
    simp [hbody] at hclose
  | span gap body rest hgap hbody _ ih =>
    rw [bracketed_skip hgap]
    by_cases hne : body = []
    · subst hne
      rw [List.nil_append, bracketed_empty]
      have hskip := ih.skip (noneBefore_empty hgap rest)
      rwa [List.append_assoc] at hskip
    · rw [bracketed_append hbody hne]
      have hfound := Leftmost.found (isFilled_append hbody hne) (noneBefore_of_not_mem hgap _) ih
      simpa using hfound

/-- Searching for filled brackets from left to right finds the records of a text that hold something
between their brackets, and nothing else can be found so. -/
theorem bracketed_eq_filledTexts (text : List Char) :
    bracketed text = (texts text).filter (· != "<>".toList) ∧
      ∀ found, Leftmost IsFilled text found ↔ found = bracketed text := by
  refine ⟨bracketed_eq_filled text, fun found => ⟨fun h => ?_, ?_⟩⟩
  · exact h.unique (leftmost_bracketed text) determined_isFilled
  · rintro rfl
    exact leftmost_bracketed text

/-- Brackets inside of brackets, empty ones and one that is never closed. -/
example : bracketed "a>b<<><x<y>><>>< ><z".toList =
    ["<<>".toList, "<x<y>".toList, "< >".toList] := by
  decide +kernel

end Sheetwright.Validation
