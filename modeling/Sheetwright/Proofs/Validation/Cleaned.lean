import Sheetwright.Proofs.Record.Spans
import Sheetwright.Proofs.Text.Joined
import Sheetwright.Validation.Input
/-!
# Pasted records

Validation takes its records out of pasted lines that were freed of quotes and commas at their ends.
The brackets of a record are no such noise and no blanks, so they are anchors for this work: the
records that validation sees are the records of the text, each with its own lines cleaned, whatever
stands around them (`recordsOfText_eq`).

A record whose lines carry no noise (`Seamless`) is seen as it is, but for the blanks at its line
ends: it is reflowed.
-/

namespace Sheetwright.Validation

open Record Text

variable {x : Char} {text record : List Char}

/-! ## Noise -/

/-- A quote or a comma. -/
def isNoise (c : Char) : Bool := c == '\'' || c == '"' || c == ','

/-- A line without a quote at its beginning. -/
def withoutOpening (line : List Char) : List Char :=
  match line with
  | '\'' :: rest => rest
  | '"' :: rest => rest
  | _ => line

/-- A line read backwards without what counts as noise at the end. -/
def withoutClosing : List Char → List Char
  | ',' :: '\'' :: rest => rest
  | ',' :: rest => rest
  | '"' :: rest => rest
  | line => line

theorem withoutNoise_eq (line : List Char) :
    withoutNoise line = (withoutClosing (withoutOpening line).reverse).reverse := by
  have hclosing : ∀ opened : List Char, (match opened.reverse with
      | ',' :: '\'' :: rest => rest.reverse
      | ',' :: rest => rest.reverse
      | '"' :: rest => rest.reverse
      | _ => opened) = (withoutClosing opened.reverse).reverse := by
    intro opened
    unfold withoutClosing
    split <;> simp
  exact hclosing (withoutOpening line)

theorem withoutOpening_cons (hx : isNoise x = false) (after : List Char) :
    withoutOpening (x :: after) = x :: after := by
  simp only [isNoise, Bool.or_eq_false_iff, beq_eq_false_iff_ne] at hx
  simp [withoutOpening, hx]

/-- What is dropped at the beginning of a line stands before every character that is no noise. -/
theorem withoutOpening_append (hx : isNoise x = false) (before : List Char) :
    ∃ before', ∀ after, withoutOpening (before ++ x :: after) = before' ++ x :: after := by
  cases before with
  | nil => exact ⟨[], withoutOpening_cons hx⟩
  | cons c before =>
    by_cases hc : c = '\'' ∨ c = '"'
    · refine ⟨before, fun after => ?_⟩
      rcases hc with rfl | rfl <;> rfl
    · refine ⟨c :: before, fun after => ?_⟩
      simp [withoutOpening, not_or.mp hc]

theorem withoutClosing_cons (hx : isNoise x = false) (before : List Char) :
    withoutClosing (x :: before) = x :: before := by
  simp only [isNoise, Bool.or_eq_false_iff, beq_eq_false_iff_ne] at hx
  simp [withoutClosing, hx]

/-- What is dropped at the end of a line stands behind every character that is no noise. -/
theorem withoutClosing_append (hx : isNoise x = false) (after : List Char) :
    ∃ after', ∀ before, withoutClosing (after ++ x :: before) = after' ++ x :: before := by
  simp only [isNoise, Bool.or_eq_false_iff, beq_eq_false_iff_ne] at hx
  cases after with
  | nil => exact ⟨[], withoutClosing_cons (by simp [isNoise, hx])⟩
  | cons c after =>
    by_cases hcomma : c = ','
    · subst hcomma
      cases after with
      | nil => exact ⟨[], fun before => by simp [withoutClosing, hx]⟩
      | cons d after =>
        by_cases hd : d = '\''
        · exact ⟨after, fun before => by simp [withoutClosing, hd]⟩
        · exact ⟨d :: after, fun before => by simp [withoutClosing, hd]⟩
    · by_cases hquote : c = '"'
      · exact ⟨after, fun before => by simp [withoutClosing, hquote]⟩
      · exact ⟨c :: after, fun before => by simp [withoutClosing, hcomma, hquote]⟩

theorem anchored_withoutNoise (hx : isNoise x = false) : Anchored withoutNoise x := by
  intro before after
  rcases withoutOpening_append hx before with ⟨b, hb⟩
  rcases withoutClosing_append hx after.reverse with ⟨a, ha⟩
  refine ⟨b, a.reverse, ?_, ?_, ?_⟩
  · simp [withoutNoise_eq, hb, withoutClosing_cons hx]
  · simp [withoutNoise_eq, withoutOpening_cons hx, ha]
  · simp [withoutNoise_eq, hb, ha]

theorem withoutNoise_sublist (line : List Char) : (withoutNoise line).Sublist line := by
  have hopening : (withoutOpening line).Sublist line := by
    unfold withoutOpening
    split <;> simp
  have hclosing : ∀ line : List Char, (withoutClosing line).Sublist line := by
    intro line
    unfold withoutClosing
    split <;> simp
  rw [withoutNoise_eq]
  have hback := (hclosing (withoutOpening line).reverse).reverse
  rw [List.reverse_reverse] at hback
  exact hback.trans hopening

/-! ## Cleaned texts -/

/-- A text with its lines trimmed, freed of noise and joined, blank lines left out. -/
def cleaned (text : List Char) : List Char := joinLines (lines text)

theorem cleaned_eq (text : List Char) :
    cleaned text = joinedBy (fun line => withoutNoise (trim line)) text := rfl

theorem anchored_cleaned (hx : isBlank x = false) (hnoise : isNoise x = false) :
    Anchored cleaned x :=
  anchored_joinedBy hx ((anchored_withoutNoise hnoise).comp (anchored_trim hx))

theorem count_cleaned_le {c : Char} (hc : c ≠ ' ') (text : List Char) :
    (cleaned text).count c ≤ text.count c :=
  count_joinedBy_le (fun line => (withoutNoise_sublist _).trans (trim_sublist line)) hc text

theorem not_mem_cleaned {c : Char} (hc : c ≠ ' ') (h : c ∉ text) : c ∉ cleaned text := by
  have hcount := count_cleaned_le hc text
  rw [List.count_eq_zero.mpr h] at hcount
  exact List.count_eq_zero.mp (Nat.le_zero.mp hcount)

/-! ## Records in cleaned texts -/

theorem bracketed_skip {gap : List Char} (h : '<' ∉ gap) (text : List Char) :
    bracketed (gap ++ text) = bracketed text := by
  induction gap with
  | nil => rfl
  | cons c gap ih =>
    simp only [List.mem_cons, not_or] at h
    rw [List.cons_append, bracketed]
    · exact ih h.2
    · exact fun hc => h.1 hc.symm

theorem bracketed_of_not_mem (h : '<' ∉ text) : bracketed text = [] := by
  have hskip := bracketed_skip h []
  rw [List.append_nil] at hskip
  rw [hskip, bracketed]

theorem bracketed_unterminated {body : List Char} (h : '>' ∉ body) :
    bracketed ('<' :: body) = [] := by
  rw [bracketed]
  simp [dropWhile_ne_of_not_mem h]

theorem bracketed_empty (rest : List Char) : bracketed ('<' :: '>' :: rest) = bracketed rest := by
  have hclose : '<' ∉ ['>'] := by decide
  rw [bracketed]
  simpa using bracketed_skip hclose rest

theorem bracketed_append {body : List Char} (h : '>' ∉ body) (hne : body ≠ []) (rest : List Char) :
    bracketed ('<' :: (body ++ '>' :: rest)) = ('<' :: body ++ ['>']) :: bracketed rest := by
  rw [bracketed]
  simp [takeWhile_ne h, dropWhile_ne h, hne]

/-- Between its brackets a text has a part that is cleaned with them and with nothing else. -/
theorem cleaned_append {gap body : List Char} (hgap : '<' ∉ gap) (hbody : '>' ∉ body)
    (rest : List Char) :
    ∃ gap' body' rest', '<' ∉ gap' ∧ '>' ∉ body' ∧
      cleaned ('<' :: body ++ ['>']) = '<' :: body' ++ ['>'] ∧
      cleaned ('>' :: rest) = '>' :: rest' ∧
      cleaned (gap ++ '<' :: (body ++ '>' :: rest)) = gap' ++ '<' :: (body' ++ '>' :: rest') := by
  have hopening : Anchored cleaned '<' := anchored_cleaned rfl rfl
  have hclosing : Anchored cleaned '>' := anchored_cleaned rfl rfl
  rcases hopening gap (body ++ '>' :: rest) with ⟨a, b, ha, hb, hab⟩
  rcases hclosing ('<' :: body) rest with ⟨c, d, hc, hd, hcd⟩
  rcases hopening.exists_between hclosing (by decide) body with ⟨e, he⟩
  obtain rfl : c = '<' :: e := by
    rw [hc] at he
    exact List.append_cancel_right he
  obtain rfl : b = e ++ '>' :: d := by simpa [hb] using hcd
  -- cleaning puts no brackets in, so each part has none but those that bound it
  have hgap' := count_cleaned_le (c := '<') (by decide) (gap ++ ['<'])
  have hbody' := count_cleaned_le (c := '>') (by decide) ('<' :: body ++ ['>'])
  refine ⟨a, e, d, ?_, ?_, he, hd, hab⟩
  · rw [ha, List.count_append, List.count_append, List.count_eq_zero.mpr hgap] at hgap'
    exact List.count_eq_zero.mp (by omega)
  · have hopen : '>' ∉ '<' :: body := by simpa using hbody
    rw [he, List.count_append, List.count_append, List.count_eq_zero.mpr hopen] at hbody'
    have hzero : ('<' :: e).count '>' = 0 := by omega
    simpa using List.count_eq_zero.mp hzero

/-- A record that validation sees is a pair of brackets with no closing bracket between them. -/
theorem exists_cleaned (h : record ∈ texts text) :
    ∃ body, '>' ∉ body ∧ cleaned record = '<' :: body ++ ['>'] := by
  obtain ⟨body, hbody, rfl⟩ := mem_texts h
  have hnil : '<' ∉ ([] : List Char) := List.not_mem_nil
  rcases cleaned_append hnil hbody [] with ⟨_, body', _, -, hbody', hone, -, -⟩
  exact ⟨body', hbody', hone⟩

theorem trim_record (body : List Char) : trim ('<' :: body ++ ['>']) = '<' :: body ++ ['>'] :=
  trim_bounded rfl rfl body

/-- A record that stands on one line is cleaned to itself: its brackets are no noise. -/
theorem cleaned_of_unbroken {body : List Char}
    (h : ∀ c ∈ '<' :: body ++ ['>'], isLineBreak c = false) :
    cleaned ('<' :: body ++ ['>']) = '<' :: body ++ ['>'] := by
  have hclean : withoutNoise ('<' :: (body ++ ['>'])) = '<' :: (body ++ ['>']) := by
    have hend : withoutClosing ('>' :: (body.reverse ++ ['<'])) = _ := withoutClosing_cons rfl _
    rw [withoutNoise_eq, withoutOpening_cons rfl]
    simp [hend]
  have htrim := trim_record body
  have hblank : isBlank '<' = false := rfl
  rw [List.cons_append] at h htrim
  rw [cleaned_eq, joinedBy, List.cons_append, lines_of_unbroken h]
  simp [hblank, htrim, hclean]

/-- Brackets that hold something still hold something when they are cleaned: either they stand on
one line, which is kept, or the lines are joined by a space. -/
theorem cleaned_ne_empty {body : List Char} (h : body ≠ []) :
    cleaned ('<' :: body ++ ['>']) ≠ ['<', '>'] := by
  rcases all_or_exists (fun c => !isLineBreak c) body with hall | ⟨r, c, r', hr, hc, rfl⟩
  · have hunbroken : ∀ d ∈ '<' :: (body ++ ['>']), isLineBreak d = false := by
      have hinner : ∀ d ∈ body, isLineBreak d = false := by simpa using hall
      have hlast : ∀ d ∈ ['>'], isLineBreak d = false := List.forall_mem_singleton.mpr rfl
      exact List.forall_mem_cons.mpr ⟨rfl, List.forall_mem_append.mpr ⟨hinner, hlast⟩⟩
    rw [cleaned_of_unbroken hunbroken]
    simpa using h
  · have hbreak : isLineBreak c = true := by simpa using hc
    have hbefore : ∀ d ∈ '<' :: r, isLineBreak d = false := by
      have hinner : ∀ d ∈ r, isLineBreak d = false := by simpa using hr
      exact List.forall_mem_cons.mpr ⟨rfl, hinner⟩
    rcases lines_append_break (x := '>') hbefore hbreak rfl r' with ⟨rest, -, hlines⟩
    -- the last line holds the closing bracket, so it is kept as well
    rcases lines_append_cons (x := '>') rfl rest [] with ⟨first, part, hlast, -⟩
    have hspace : ' ' ∈ cleaned ('<' :: (r ++ c :: r') ++ ['>']) := by
      have hsplit : '<' :: (r ++ c :: r') ++ ['>'] = ('<' :: r) ++ c :: (r' ++ ['>']) := by simp
      have hone : isBlank '<' = false := rfl
      have htwo : isBlank '>' = false := rfl
      rw [cleaned_eq, joinedBy, hsplit, hlines, hlast, List.filter_cons_of_pos (by simp [hone]),
        List.filter_append, List.map_cons, List.map_append, List.intercalate_cons_of_ne_nil]
      · simp
      · simp [htwo]
    intro hempty
    rw [hempty] at hspace
    exact absurd hspace (by decide)

/-- Brackets that are not closed are not closed by cleaning either. -/
theorem bracketed_cleaned_unterminated {gap body : List Char} (hgap : '<' ∉ gap)
    (hbody : '>' ∉ body) : bracketed (cleaned (gap ++ '<' :: body)) = [] := by
  have hcount := count_cleaned_le (c := '<') (by decide) (gap ++ ['<'])
  have hopening : Anchored cleaned '<' := anchored_cleaned rfl rfl
  rcases hopening gap body with ⟨a, b, ha, hb, hab⟩
  have hclose : '>' ∉ cleaned ('<' :: body) := not_mem_cleaned (by decide) (by simpa using hbody)
  rw [hb] at hclose
  rw [ha, List.count_append, List.count_append, List.count_eq_zero.mpr hgap] at hcount
  have hfront : '<' ∉ a := List.count_eq_zero.mp (by omega)
  rw [hab, bracketed_skip hfront, bracketed_unterminated (by simpa using hclose)]

/-- Validation sees the records of the text, each with its own lines cleaned. Only an empty pair of
brackets is left out. -/
theorem recordsOfText_eq (text : List Char) :
    recordsOfText text = ((texts text).filter (· != ['<', '>'])).map cleaned := by
  change bracketed (cleaned text) = _
  induction text using span_induction with
  | none text hopen =>
    rw [bracketed_of_not_mem (not_mem_cleaned (by decide) hopen), texts_of_not_mem hopen]
    rfl
  | unterminated gap body hgap hbody =>
    rw [bracketed_cleaned_unterminated hgap hbody, texts_unterminated hgap hbody]
    rfl
  | span gap body rest hgap hbody ih _ =>
    rcases cleaned_append hgap hbody rest with
      ⟨gap', body', rest', hgap', hbody', hone, hrest, hall⟩
    -- a closing bracket that is left over is skipped on both sides
    have hclose : '<' ∉ ['>'] := by decide
    have hskip : bracketed rest' = ((texts rest).filter (· != ['<', '>'])).map cleaned :=
      calc bracketed rest' = bracketed (cleaned ('>' :: rest)) := by
            rw [hrest]
            exact (bracketed_skip hclose rest').symm
        _ = ((texts ('>' :: rest)).filter (· != ['<', '>'])).map cleaned := ih
        _ = ((texts rest).filter (· != ['<', '>'])).map cleaned := by
            rw [← texts_skip hclose rest, List.singleton_append]
    rw [hall, bracketed_skip hgap', texts_append hgap hbody]
    by_cases hne : body = []
    · subst hne
      obtain rfl : body' = [] := by
        have hempty : cleaned ['<', '>'] = ['<', '>'] := by decide
        simpa [hempty] using hone
      rw [List.filter_cons_of_neg (by simp), List.nil_append, bracketed_empty, hskip]
    · have hne' : body' ≠ [] := by
        rintro rfl
        exact cleaned_ne_empty hne hone
      rw [List.filter_cons_of_pos (by simpa using hne), List.map_cons, hone,
        bracketed_append hbody' hne', hskip]

/-! ## Seamless records -/

/-- No line of a record begins with a quote or ends with a quote or a comma, so that nothing is
taken for noise. -/
def Seamless (record : List Char) : Prop :=
  ∀ line ∈ lines record, withoutNoise (trim line) = trim line

instance (record : List Char) : Decidable (Seamless record) :=
  inferInstanceAs (Decidable (∀ line ∈ lines record, _))

theorem Seamless.cleaned_eq {body : List Char} (h : Seamless ('<' :: body ++ ['>'])) :
    cleaned ('<' :: body ++ ['>']) = reflow ('<' :: body ++ ['>']) := by
  have hlines : cleaned ('<' :: body ++ ['>']) = joinedBy trim ('<' :: body ++ ['>']) := by
    rw [Validation.cleaned_eq, joinedBy, joinedBy]
    congr 1
    exact List.map_congr_left fun line hline => h line (List.mem_filter.mp hline).1
  rw [hlines, joinedBy_trim, trim_reflow, trim_record]

end Sheetwright.Validation
