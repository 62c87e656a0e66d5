import Mathlib.Data.List.TakeWhile
import Sheetwright.Text.Search
/-!
# Cutting at a mark

The first character of a kind cuts a text in two. Reading up to it, reading on from it and searching
for it all come down to writing the text as `before ++ mark :: after`, with no such character in
front.
-/

namespace Sheetwright.Text

variable {x mark : Char} {before text : List Char}

/-! ## A kind of character -/

theorem takeWhile_append_cons {p : Char → Bool}
    (hbefore : ∀ c ∈ before, p c = true) (hx : p x = false) (after : List Char) :
    (before ++ x :: after).takeWhile p = before := by
  rw [List.takeWhile_append_of_pos hbefore, List.takeWhile_cons_of_neg (by simp [hx]),
    List.append_nil]

theorem dropWhile_append_cons {p : Char → Bool}
    (hbefore : ∀ c ∈ before, p c = true) (hx : p x = false) (after : List Char) :
    (before ++ x :: after).dropWhile p = x :: after := by
  rw [List.dropWhile_append_of_pos hbefore, List.dropWhile_cons_of_neg (by simp [hx])]

/-- Reading on is stopped by a character of another kind, if not before. -/
theorem takeWhile_append_stop {p : Char → Bool} (hx : p x = false) (before after : List Char) :
    (before ++ x :: after).takeWhile p = before.takeWhile p := by
  induction before with
  | nil => simp [hx]
  | cons c before ih => by_cases hc : p c = true <;> simp [hc, ih]

theorem dropWhile_append_stop {p : Char → Bool} (hx : p x = false) (before after : List Char) :
    (before ++ x :: after).dropWhile p = before.dropWhile p ++ x :: after := by
  induction before with
  | nil => simp [hx]
  | cons c before ih => by_cases hc : p c = true <;> simp [hc, ih]

theorem takeWhile_append_head {p : Char → Bool} {after : List Char}
    (hbefore : ∀ c ∈ before, p c = true) (hafter : ∀ c, after.head? = some c → p c = false) :
    (before ++ after).takeWhile p = before := by
  cases after with
  | nil => rw [List.append_nil, List.takeWhile_eq_self_iff.mpr hbefore]
  | cons c after => exact takeWhile_append_cons hbefore (hafter c rfl) after

theorem dropWhile_append_head {p : Char → Bool} {after : List Char}
    (hbefore : ∀ c ∈ before, p c = true) (hafter : ∀ c, after.head? = some c → p c = false) :
    (before ++ after).dropWhile p = after := by
  rw [List.dropWhile_append_of_pos hbefore]
  cases after with
  | nil => rfl
  | cons c after => rw [List.dropWhile_cons_of_neg (by simp [hafter c rfl])]

/-- A text consists of characters of a kind, or the first one of another kind stands behind them. -/
theorem all_or_exists (p : Char → Bool) (text : List Char) :
    (∀ c ∈ text, p c = true) ∨
      ∃ before x after, (∀ c ∈ before, p c = true) ∧ p x = false ∧ text = before ++ x :: after := by
  induction text with
  | nil => exact Or.inl nofun
  | cons c text ih =>
    by_cases hc : p c = true
    · rcases ih with hall | ⟨before, x, after, hbefore, hx, rfl⟩
      · exact Or.inl (by simpa [hc] using hall)
      · exact Or.inr ⟨c :: before, x, after, by simpa [hc] using hbefore, hx, rfl⟩
    · exact Or.inr ⟨[], c, text, nofun, by simpa using hc, rfl⟩

theorem all_ne (h : mark ∉ text) : ∀ c ∈ text, (c != mark) = true := by
  intro c hc
  simp only [bne_iff_ne]
  rintro rfl
  exact h hc

theorem takeWhile_ne (h : mark ∉ before) (after : List Char) :
    (before ++ mark :: after).takeWhile (· != mark) = before :=
  takeWhile_append_cons (all_ne h) (bne_self_eq_false mark) after

theorem dropWhile_ne (h : mark ∉ before) (after : List Char) :
    (before ++ mark :: after).dropWhile (· != mark) = mark :: after :=
  dropWhile_append_cons (all_ne h) (bne_self_eq_false mark) after

theorem dropWhile_ne_of_not_mem (h : mark ∉ text) : text.dropWhile (· != mark) = [] :=
  List.dropWhile_eq_nil_iff.mpr (all_ne h)

/-- A word that does not hold a character does not reach over it. -/
theorem isPrefixOf_append_cons {word : List Char} (h : mark ∉ word) (before after : List Char) :
    word.isPrefixOf (before ++ mark :: after) = word.isPrefixOf before := by
  induction word generalizing before with
  | nil => simp
  | cons w word ih =>
    simp only [List.mem_cons, not_or] at h
    cases before with
    | nil => simp [List.isPrefixOf, Ne.symm h.1]
    | cons c before => simp [List.isPrefixOf, ih h.2]

/-! ## A mark -/

theorem cut?_eq_none : cut? mark text = none ↔ mark ∉ text := by
  induction text with
  | nil => simp [cut?]
  | cons c text ih =>
    by_cases hc : c = mark
    · simp [cut?, hc]
    · simp [cut?, hc, ih, Ne.symm hc]

theorem cut?_append (h : mark ∉ before) (after : List Char) :
    cut? mark (before ++ mark :: after) = some (before, after) := by
  induction before with
  | nil => simp [cut?]
  | cons c before ih =>
    simp only [List.mem_cons, not_or] at h
    simp [cut?, Ne.symm h.1, ih h.2]

theorem cut?_eq_some {after : List Char} :
    cut? mark text = some (before, after) ↔ text = before ++ mark :: after ∧ mark ∉ before := by
  constructor
  · intro h
    by_cases hmem : mark ∈ text
    · rcases List.eq_append_cons_of_mem hmem with ⟨a, b, rfl, ha⟩
      rw [cut?_append ha] at h
      cases h
      exact ⟨rfl, ha⟩
    · simp [cut?_eq_none.mpr hmem] at h
  · rintro ⟨rfl, hbefore⟩
    exact cut?_append hbefore after

/-- The first mark of a text stands in one place. -/
theorem append_cons_inj {before' after after' : List Char} (h : mark ∉ before)
    (h' : mark ∉ before') (heq : before ++ mark :: after = before' ++ mark :: after') :
    before = before' ∧ after = after' := by
  have hcut := cut?_append h after
  rw [heq, cut?_append h' after'] at hcut
  cases hcut
  exact ⟨rfl, rfl⟩

theorem after?_eq_cut? (mark : Char) (text : List Char) :
    after? mark text = (cut? mark text).map (·.2) := by
  induction text with
  | nil => rfl
  | cons c text ih =>
    by_cases hc : c = mark
    · simp [after?, cut?, hc]
    · simp [after?, cut?, hc, ih, Function.comp_def]

/-- A beginning that does not hold a mark ends before the mark. -/
theorem exists_append_of_not_mem {front after rest : List Char} (h : mark ∉ front)
    (hsplit : text ++ mark :: rest = front ++ after) :
    ∃ more, text = front ++ more ∧ after = more ++ mark :: rest := by
  rcases List.append_eq_append_iff.mp hsplit with ⟨more, hfront, hrest⟩ | ⟨more, htext, hafter⟩
  · cases more with
    | nil => exact ⟨[], by simp [hfront], by simpa using hrest.symm⟩
    | cons c more =>
      obtain rfl : mark = c := (List.cons.inj hrest).1
      exact absurd (by simp [hfront]) h
  · exact ⟨more, htext, hafter⟩

/-! ## Fields -/

/-- The first field of a text reaches up to the first mark. -/
theorem headD_splitOn (mark : Char) (text : List Char) :
    (text.splitOn mark).headD [] = text.takeWhile (· != mark) := by
  by_cases h : mark ∈ text
  · rcases List.eq_append_cons_of_mem h with ⟨before, after, rfl, hbefore⟩
    rw [List.splitOn_append_cons_self_of_not_mem hbefore, takeWhile_ne hbefore, List.headD_cons]
  · rw [List.splitOn_eq_singleton h, List.takeWhile_eq_self_iff.mpr (all_ne h), List.headD_cons]

/-- No field of a text holds the mark, and the text holds its fields. -/
theorem mem_splitOn {piece : List Char} (h : piece ∈ text.splitOn mark) :
    mark ∉ piece ∧ ∀ c ∈ piece, c ∈ text := by
  induction hn : text.length using Nat.strongRecOn generalizing text with
  | ind n ih =>
    by_cases hmark : mark ∈ text
    · rcases List.eq_append_cons_of_mem hmark with ⟨before, after, rfl, hbefore⟩
      rw [List.splitOn_append_cons_self_of_not_mem hbefore, List.mem_cons] at h
      rcases h with rfl | h
      · exact ⟨hbefore, fun c hc => List.mem_append_left _ hc⟩
      · rw [List.length_append, List.length_cons] at hn
        rcases ih after.length (by omega) h rfl with ⟨hpiece, hmem⟩
        exact ⟨hpiece, fun c hc => List.mem_append_right _ (List.mem_cons_of_mem _ (hmem c hc))⟩
    · rw [List.splitOn_eq_singleton hmark, List.mem_singleton] at h
      subst h
      exact ⟨hmark, fun c hc => hc⟩

/-! ## Words that are held -/

theorem holds_iff_infix {word text : List Char} : holds word text = true ↔ word <:+: text := by
  induction text with
  | nil => simp [holds]
  | cons c text ih =>
    rw [holds, Bool.or_eq_true, ih, List.isPrefixOf_iff_prefix, List.infix_cons_iff]

/-- Text in front of a word's first character does not matter. -/
theorem holds_skip {w : Char} {word lead : List Char} (h : w ∉ lead) (text : List Char) :
    holds (w :: word) (lead ++ text) = holds (w :: word) text := by
  induction lead with
  | nil => rfl
  | cons c lead ih =>
    rw [List.mem_cons, not_or] at h
    simp [holds, List.isPrefixOf, h.1, ih h.2]

/-- A character that a word does not hold can be taken off the end. -/
theorem holds_concat {w : Char} {word : List Char} (h : mark ∉ w :: word) (text : List Char) :
    holds (w :: word) (text ++ [mark]) = holds (w :: word) text := by
  induction text with
  | nil =>
    rw [List.mem_cons, not_or] at h
    simp [holds, List.isPrefixOf, Ne.symm h.1]
  | cons c text ih =>
    have hprefix := isPrefixOf_append_cons h (c :: text) []
    rw [List.cons_append] at hprefix
    rw [List.cons_append, holds, holds, ih, hprefix]

/-- So can a text that holds none of the characters of the word. -/
theorem holds_append {w : Char} {word run : List Char} (h : ∀ c ∈ w :: word, c ∉ run)
    (text : List Char) : holds (w :: word) (text ++ run) = holds (w :: word) text := by
  induction run generalizing text with
  | nil => rw [List.append_nil]
  | cons c run ih =>
    have hc : c ∉ w :: word := fun hmem => h c hmem List.mem_cons_self
    have hrun : ∀ d ∈ w :: word, d ∉ run := fun d hd hmem => h d hd (List.mem_cons_of_mem _ hmem)
    rw [List.append_cons, ih hrun, holds_concat hc]

/-! ## Pieces put together -/

/-- Pieces with a separator between them, seen from one of the pieces. -/
theorem intercalate_append_cons (sep : Char) (before after : List (List Char)) (piece : List Char) :
    [sep].intercalate (before ++ piece :: after) =
      before.flatMap (· ++ [sep]) ++ (piece ++ after.flatMap (sep :: ·)) := by
  have hafter : ∀ (piece : List Char) (after : List (List Char)),
      [sep].intercalate (piece :: after) = piece ++ after.flatMap (sep :: ·) := by
    intro piece after
    induction after generalizing piece with
    | nil => simp
    | cons next after ih => simp [List.intercalate_cons_cons, ih next]
  induction before with
  | nil => simpa using hafter piece after
  | cons first before ih =>
    have hne : before ++ piece :: after ≠ [] := by simp
    rw [List.cons_append, List.intercalate_cons_of_ne_nil hne, ih]
    simp

/-- What is in no piece and is not the separator is not in the whole. -/
theorem not_mem_intercalate {sep : Char} (hsep : mark ≠ sep) {pieces : List (List Char)}
    (h : ∀ piece ∈ pieces, mark ∉ piece) : mark ∉ [sep].intercalate pieces := by
  cases pieces with
  | nil => exact List.not_mem_nil
  | cons piece pieces =>
    have hwhole := intercalate_append_cons sep [] pieces piece
    rw [List.nil_append, List.flatMap_nil, List.nil_append] at hwhole
    rw [List.forall_mem_cons] at h
    rw [hwhole, List.mem_append, List.mem_flatMap]
    rintro (hmem | ⟨next, hnext, hmem⟩)
    · exact h.1 hmem
    · exact h.2 next hnext ((List.mem_cons.mp hmem).resolve_left hsep)

end Sheetwright.Text
