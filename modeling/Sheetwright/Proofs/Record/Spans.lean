import Sheetwright.Proofs.Text.Anchor
import Sheetwright.Proofs.Text.Cut
import Sheetwright.Record.Span
/-!
# Spans of a text

A text has no opening bracket, or one that is never closed, or its first span and a rest in which
the next spans are found: `span_induction`. What is found are the spans themselves
(`texts_eq_spans`): to run them together and to cut them again after every closing bracket changes
nothing, for a span holds no closing bracket but its last character and is never blank.
-/

namespace Sheetwright.Record

open Text

variable {gap body text : List Char}

/-! ## The first span -/

theorem segments_of_not_mem (h : '<' ∉ text) : segments text = [.stray text] := by
  have htake : text.takeWhile (· != '<') = text := List.takeWhile_eq_self_iff.mpr (all_ne h)
  rw [segments]
  simp [htake, dropWhile_ne_of_not_mem h]

theorem segments_unterminated (hgap : '<' ∉ gap) (hbody : '>' ∉ body) :
    segments (gap ++ '<' :: body) = [.stray gap, .unterminated ('<' :: body)] := by
  have hopen : '>' ∉ '<' :: body := by simpa using hbody
  rw [segments]
  simp [takeWhile_ne hgap, dropWhile_ne hgap, dropWhile_ne_of_not_mem hopen]

theorem segments_append (hgap : '<' ∉ gap) (hbody : '>' ∉ body) (rest : List Char) :
    segments (gap ++ '<' :: (body ++ '>' :: rest)) =
      .stray gap :: .span ('<' :: body ++ ['>']) :: segments rest := by
  have hopen : '>' ∉ '<' :: body := by simpa using hbody
  have htake := takeWhile_ne hopen rest
  have hdrop := dropWhile_ne hopen rest
  rw [List.cons_append] at htake hdrop
  rw [segments]
  simp [takeWhile_ne hgap, dropWhile_ne hgap, htake, hdrop]

theorem spans_of_not_mem (h : '<' ∉ text) : spans text = [] := by
  rw [spans, segments_of_not_mem h]
  rfl

theorem spans_unterminated (hgap : '<' ∉ gap) (hbody : '>' ∉ body) :
    spans (gap ++ '<' :: body) = [] := by
  rw [spans, segments_unterminated hgap hbody]
  rfl

theorem spans_append (hgap : '<' ∉ gap) (hbody : '>' ∉ body) (rest : List Char) :
    spans (gap ++ '<' :: (body ++ '>' :: rest)) = ('<' :: body ++ ['>']) :: spans rest := by
  rw [spans, segments_append hgap hbody]
  rfl

/-- Induction over the spans of a text. -/
theorem span_induction {motive : List Char → Prop}
    (none : ∀ text, '<' ∉ text → motive text)
    (unterminated : ∀ gap body, '<' ∉ gap → '>' ∉ body → motive (gap ++ '<' :: body))
    (span : ∀ gap body rest, '<' ∉ gap → '>' ∉ body → motive ('>' :: rest) → motive rest →
      motive (gap ++ '<' :: (body ++ '>' :: rest)))
    (text : List Char) : motive text := by
  induction hn : text.length using Nat.strongRecOn generalizing text with
  | ind n ih =>
    by_cases hopen : '<' ∈ text
    · rcases List.eq_append_cons_of_mem hopen with ⟨gap, start, rfl, hgap⟩
      by_cases hclose : '>' ∈ start
      · rcases List.eq_append_cons_of_mem hclose with ⟨body, rest, rfl, hbody⟩
        simp only [List.length_append, List.length_cons] at hn
        refine span gap body rest hgap hbody (ih _ ?_ _ rfl) (ih _ ?_ _ rfl)
        · rw [List.length_cons]
          omega
        · omega
      · exact unterminated gap start hgap hclose
    · exact none text hopen

/-- Text in front that opens no bracket changes nothing. -/
theorem spans_skip (h : '<' ∉ gap) (text : List Char) : spans (gap ++ text) = spans text := by
  have happend : ∀ {more : List Char}, '<' ∉ more → '<' ∉ gap ++ more := by
    intro more hmore
    simp [h, hmore]
  induction text using span_induction with
  | none text hopen => rw [spans_of_not_mem hopen, spans_of_not_mem (happend hopen)]
  | unterminated more body hmore hbody =>
    rw [← List.append_assoc, spans_unterminated hmore hbody,
      spans_unterminated (happend hmore) hbody]
  | span more body rest hmore hbody =>
    rw [← List.append_assoc, spans_append hmore hbody, spans_append (happend hmore) hbody]

/-! ## Cutting again -/

theorem mem_spans {span : List Char} (h : span ∈ spans text) :
    ∃ body, '>' ∉ body ∧ span = '<' :: body ++ ['>'] := by
  induction text using span_induction with
  | none text hopen => simp [spans_of_not_mem hopen] at h
  | unterminated gap body hgap hbody => simp [spans_unterminated hgap hbody] at h
  | span gap body rest hgap hbody _ ih =>
    rw [spans_append hgap hbody, List.mem_cons] at h
    rcases h with rfl | h
    · exact ⟨body, hbody, rfl⟩
    · exact ih h

theorem recut_cons (hbody : '>' ∉ body) (spans : List (List Char)) :
    recut (('<' :: body ++ ['>']) :: spans) = ('<' :: body ++ ['>']) :: recut spans := by
  have hopen : '>' ∉ '<' :: body := by simpa using hbody
  have hopening : isBlank '<' = false := rfl
  have hsplit := List.splitOn_append_cons_self_of_not_mem hopen spans.flatten
  rw [recut, List.flatten_cons, List.append_assoc, List.singleton_append, hsplit,
    List.filter_cons_of_pos, List.map_cons, recut]
  simp [hopening]

theorem texts_eq_spans (text : List Char) : texts text = spans text := by
  have hrecut : ∀ spans : List (List Char),
      (∀ span ∈ spans, ∃ body, '>' ∉ body ∧ span = '<' :: body ++ ['>']) → recut spans = spans := by
    intro spans hspans
    induction spans with
    | nil => rfl
    | cons span spans ih =>
      obtain ⟨body, hbody, rfl⟩ := hspans span List.mem_cons_self
      rw [recut_cons hbody, ih fun s hs => hspans s (List.mem_cons_of_mem _ hs)]
  exact hrecut _ fun _ => mem_spans

theorem texts_of_not_mem (h : '<' ∉ text) : texts text = [] := by
  rw [texts_eq_spans, spans_of_not_mem h]

theorem texts_unterminated (hgap : '<' ∉ gap) (hbody : '>' ∉ body) :
    texts (gap ++ '<' :: body) = [] := by
  rw [texts_eq_spans, spans_unterminated hgap hbody]

theorem texts_append (hgap : '<' ∉ gap) (hbody : '>' ∉ body) (rest : List Char) :
    texts (gap ++ '<' :: (body ++ '>' :: rest)) = ('<' :: body ++ ['>']) :: texts rest := by
  rw [texts_eq_spans, texts_eq_spans, spans_append hgap hbody]

theorem texts_skip (h : '<' ∉ gap) (text : List Char) : texts (gap ++ text) = texts text := by
  rw [texts_eq_spans, texts_eq_spans, spans_skip h]

/-- A record text is a pair of brackets with no closing bracket between them. -/
theorem mem_texts {record : List Char} (h : record ∈ texts text) :
    ∃ body, '>' ∉ body ∧ record = '<' :: body ++ ['>'] := by
  rw [texts_eq_spans] at h
  exact mem_spans h

end Sheetwright.Record
