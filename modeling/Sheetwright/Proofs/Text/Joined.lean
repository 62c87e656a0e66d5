import Sheetwright.Proofs.Text.Reflow
/-!
# Lines put together

A text is cut into lines, blank lines are left out, each of the others is worked on by itself and
the results are joined by spaces (`joinedBy`). Nothing of this looks across a character that is no
blank, so putting lines together is anchored there if the work on a line is. When the lines are only
trimmed the result is the reflowed text without the blanks around it: `joinedBy_trim`.
-/

namespace Sheetwright.Text

variable {x : Char} {run text : List Char}

/-! ## Lines -/

theorem lines_crlf (text : List Char) : lines ('\r' :: '\n' :: text) = [] :: lines text := rfl

theorem lines_break {c : Char} (hc : isLineBreak c = true)
    (hcrlf : c = '\r' → text.head? ≠ some '\n') : lines (c :: text) = [] :: lines text := by
  cases text with
  | nil => simp [lines, hc]
  | cons d text =>
    rw [lines]
    · simp [hc]
    · rintro rest rfl hrest
      cases hrest
      exact hcrlf rfl rfl

theorem lines_cons (hx : isLineBreak x = false) (text : List Char) :
    lines (x :: text) = (x :: (lines text).headD []) :: (lines text).drop 1 := by
  rw [lines]
  · cases lines text <;> simp [hx]
  · rintro rest rfl
    cases hx

/-- A text has the same lines when every carriage return is read as a line feed. -/
theorem lines_unifyNewlines (text : List Char) : lines (unifyNewlines text) = lines text := by
  have hfeed (rest : List Char) : lines ('\n' :: rest) = [] :: lines rest :=
    lines_break (by decide) nofun
  fun_induction unifyNewlines text with
  | case1 => rfl
  | case2 rest ih => rw [hfeed, ih, lines_crlf]
  | case3 rest halone ih =>
    rw [hfeed, ih, lines_break (by decide)]
    rintro - hhead
    obtain ⟨rest', rfl⟩ := List.head?_eq_some_iff.mp hhead
    exact halone rest' rfl
  | case4 c rest _ hne ih =>
    have hcr : c ≠ '\r' := hne
    cases hc : isLineBreak c with
    | true => rw [lines_break hc (absurd · hcr), lines_break hc (absurd · hcr), ih]
    | false => rw [lines_cons hc, lines_cons hc, ih]

/-- A character that ends no line joins the line before it to the line after it. -/
theorem lines_append_cons (hx : isLineBreak x = false) (before after : List Char) :
    ∃ first part, lines (before ++ [x]) = first ++ [part ++ [x]] ∧
      lines (before ++ x :: after) =
        first ++ (part ++ x :: (lines after).headD []) :: (lines after).drop 1 := by
  -- a character before it that ends no line goes into the first line, which may be this one
  have hstep : ∀ c before, isLineBreak c = false →
      (∃ first part, lines (before ++ [x]) = first ++ [part ++ [x]] ∧ lines (before ++ x :: after) =
        first ++ (part ++ x :: (lines after).headD []) :: (lines after).drop 1) →
      ∃ first part, lines (c :: before ++ [x]) = first ++ [part ++ [x]] ∧
        lines (c :: before ++ x :: after) =
          first ++ (part ++ x :: (lines after).headD []) :: (lines after).drop 1 := by
    rintro c before hc ⟨first, part, hone, hall⟩
    cases first with
    | nil => exact ⟨[], c :: part, by simp [lines_cons hc, hone], by simp [lines_cons hc, hall]⟩
    | cons line first =>
      exact ⟨(c :: line) :: first, part, by simp [lines_cons hc, hone],
        by simp [lines_cons hc, hall]⟩
  induction before using lines.induct with
  | case1 => exact ⟨[], [], lines_cons hx [], lines_cons hx after⟩
  | case2 before ih =>
    rcases ih with ⟨first, part, hone, hall⟩
    exact ⟨[] :: first, part, by simp [lines_crlf, hone], by simp [lines_crlf, hall]⟩
  | case3 c before hcrlf hc ih =>
    rcases ih with ⟨first, part, hone, hall⟩
    have hnot : ∀ rest, c = '\r' → (before ++ x :: rest).head? ≠ some '\n' := by
      intro rest hcr hhead
      cases before with
      | nil =>
        obtain rfl : x = '\n' := by simpa using hhead
        cases hx
      | cons d before =>
        obtain rfl : d = '\n' := by simpa using hhead
        exact hcrlf before hcr rfl
    refine ⟨[] :: first, part, ?_, ?_⟩
    · rw [List.cons_append, lines_break hc (hnot []), hone, List.cons_append]
    · rw [List.cons_append, lines_break hc (hnot after), hall, List.cons_append]
  | case4 c before hcrlf hc hnil ih => exact hstep c before (by simpa using hc) ih
  | case5 c before hcrlf hc line more hmore ih => exact hstep c before (by simpa using hc) ih

/-- Line ends are left out and nothing is put in. -/
theorem flatten_lines_sublist (text : List Char) : (lines text).flatten.Sublist text := by
  induction text using lines.induct with
  | case1 => simp [lines]
  | case2 text ih => simpa [lines_crlf] using (ih.cons '\n').cons '\r'
  | case3 c text hcrlf hc ih =>
    rw [lines]
    · simpa [hc] using ih.cons c
    · exact hcrlf
  | case4 c text hcrlf hc hnil ih =>
    rw [lines_cons (by simpa using hc), hnil]
    simp
  | case5 c text hcrlf hc line more hmore ih =>
    rw [lines_cons (by simpa using hc), hmore]
    rw [hmore] at ih
    simpa using ih

/-! ## Joining -/

/-- The lines of a text that are not blank, each worked on by itself, joined by spaces. -/
def joinedBy (f : List Char → List Char) (text : List Char) : List Char :=
  [' '].intercalate (((lines text).filter fun line => !allBlank line).map f)

theorem anchored_joinedBy {f : List Char → List Char} (hx : isBlank x = false)
    (hf : Anchored f x) : Anchored (joinedBy f) x := by
  intro before after
  have hafter := lines_cons (not_isLineBreak hx) after
  rcases lines_append_cons (not_isLineBreak hx) before after with ⟨first, part, hone, hall⟩
  generalize (lines after).headD [] = line, (lines after).drop 1 = more at hafter hall
  rcases hf part line with ⟨b, a, hb, ha, hboth⟩
  let kept : List (List Char) → List (List Char) := fun lines =>
    (lines.filter fun line => !allBlank line).map f
  refine ⟨(kept first).flatMap (· ++ [' ']) ++ b, a ++ (kept more).flatMap (' ' :: ·), ?_, ?_, ?_⟩
  · simp [joinedBy, kept, hone, hx, hb, intercalate_append_cons]
  · have hfront := intercalate_append_cons ' ' [] (kept more) (x :: a)
    simpa [joinedBy, kept, hafter, hx, ha] using hfront
  · simp [joinedBy, kept, hall, hx, hboth, intercalate_append_cons]

/-- Only spaces come in when lines are put together, unless the work on a line brings more. -/
theorem count_joinedBy_le {f : List Char → List Char} (hf : ∀ line, (f line).Sublist line)
    {c : Char} (hc : c ≠ ' ') (text : List Char) : (joinedBy f text).count c ≤ text.count c := by
  have hspace : [' '].count c = 0 := by
    simp [Ne.symm hc]
  -- joining adds spaces only, and lines are dropped or made shorter
  have hjoin : ∀ pieces : List (List Char),
      ([' '].intercalate pieces).count c = (pieces.map (·.count c)).sum := by
    intro pieces
    induction pieces with
    | nil => rfl
    | cons piece pieces ih =>
      cases pieces with
      | nil => simp
      | cons next pieces =>
        rw [List.intercalate_cons_cons, List.count_append, List.count_append, ih, hspace]
        simp
  have hlines : ∀ pieces : List (List Char),
      (((pieces.filter fun line => !allBlank line).map f).map (·.count c)).sum ≤
        pieces.flatten.count c := by
    intro pieces
    induction pieces with
    | nil => simp
    | cons piece pieces ih =>
      have hpiece := (hf piece).count_le c
      by_cases hblank : allBlank piece = true
      · simp [hblank] at ih ⊢
        omega
      · simp [hblank] at ih ⊢
        omega
  calc (joinedBy f text).count c
      = (((lines text).filter fun line => !allBlank line).map f |>.map (·.count c)).sum := hjoin _
    _ ≤ (lines text).flatten.count c := hlines _
    _ ≤ text.count c := (flatten_lines_sublist text).count_le c

/-! ## Trimmed lines -/

theorem filter_eq_nil_of_allBlank {pieces : List (List Char)} (h : allBlank pieces.flatten = true) :
    pieces.filter (fun line => !allBlank line) = [] := by
  rw [List.filter_eq_nil_iff]
  intro line hline
  simp only [Bool.not_eq_true, Bool.not_eq_false']
  exact allBlank_iff.mpr fun c hc => allBlank_iff.mp h c (List.mem_flatten_of_mem hline hc)

theorem allBlank_of_sublist {part : List Char} (hsub : part.Sublist text)
    (h : allBlank text = true) : allBlank part = true :=
  allBlank_iff.mpr fun c hc => allBlank_iff.mp h c (hsub.subset hc)

/-- Of the lines of a run of blanks with an anchor behind it only the one with the anchor stays. -/
theorem filter_lines_run (hrun : allBlank run = true) (hx : isBlank x = false) :
    ∃ part, allBlank part = true ∧
      (lines (run ++ [x])).filter (fun line => !allBlank line) = [part ++ [x]] := by
  rcases lines_append_cons (not_isLineBreak hx) run [] with ⟨first, part, hone, -⟩
  have hsub := flatten_lines_sublist (run ++ [x])
  simp only [hone, List.flatten_append, List.flatten_cons, List.flatten_nil, List.append_nil,
    ← List.append_assoc, List.append_sublist_append_right] at hsub
  have hblank := allBlank_of_sublist hsub hrun
  simp only [allBlank_append, Bool.and_eq_true] at hblank
  refine ⟨part, hblank.2, ?_⟩
  simp [hone, filter_eq_nil_of_allBlank hblank.1, hx]

theorem lines_of_unbroken {c : Char} (h : ∀ d ∈ c :: text, isLineBreak d = false) :
    lines (c :: text) = [c :: text] := by
  induction text generalizing c with
  | nil => simp [lines_cons (h c (by simp)), lines]
  | cons d text ih =>
    rw [lines_cons (h c List.mem_cons_self), ih fun e he => h e (List.mem_cons_of_mem c he)]
    rfl

/-- The first line end of a text ends its first line; what is left ends as the text does. -/
theorem lines_append_break {before : List Char} (hbefore : ∀ d ∈ before, isLineBreak d = false)
    {c : Char} (hc : isLineBreak c = true) (hx : isLineBreak x = false) (rest : List Char) :
    ∃ rest', rest'.Sublist rest ∧
      lines (before ++ c :: (rest ++ [x])) = before :: lines (rest' ++ [x]) := by
  induction before with
  | nil =>
    by_cases hcrlf : c = '\r' ∧ (rest ++ [x]).head? = some '\n'
    · obtain ⟨rfl, hhead⟩ := hcrlf
      cases rest with
      | nil =>
        obtain rfl : x = '\n' := by simpa using hhead
        cases hx
      | cons d rest =>
        obtain rfl : d = '\n' := by simpa using hhead
        exact ⟨rest, List.sublist_cons_self _ _, rfl⟩
    · exact ⟨rest, List.Sublist.refl _, lines_break hc fun hcr hhead => hcrlf ⟨hcr, hhead⟩⟩
  | cons d before ih =>
    rcases ih fun e he => hbefore e (List.mem_cons_of_mem d he) with ⟨rest', hrest', hlines⟩
    refine ⟨rest', hrest', ?_⟩
    rw [List.cons_append, lines_cons (hbefore d List.mem_cons_self), hlines]
    rfl

/-- Between two anchors a run of blanks is settled: it stays on its line or ends it. -/
theorem joinedBy_trim_between {y : Char} (hx : isBlank x = false) (hrun : allBlank run = true)
    (hy : isBlank y = false) : joinedBy trim (x :: run ++ [y]) = x :: settle run ++ [y] := by
  rcases all_or_exists (fun c => !isLineBreak c) run with hall | ⟨r, c, r', hr, hc, rfl⟩
  · have hunbroken : ∀ d ∈ x :: (run ++ [y]), isLineBreak d = false := by
      have hinner : ∀ d ∈ run, isLineBreak d = false := by simpa using hall
      have hlast : ∀ d ∈ [y], isLineBreak d = false :=
        List.forall_mem_singleton.mpr (not_isLineBreak hy)
      exact List.forall_mem_cons.mpr
        ⟨not_isLineBreak hx, List.forall_mem_append.mpr ⟨hinner, hlast⟩⟩
    have hsettle : settle run = run := by
      have hany : run.any isLineBreak = false := by simpa using hall
      simp [settle, hany]
    have hboth := trim_bounded hx hy run
    rw [List.cons_append] at hboth ⊢
    simp [joinedBy, lines_of_unbroken hunbroken, hx, hboth, hsettle]
  · -- the first line ends at the first line end, and only blank lines come before the last one
    have hbreak : isLineBreak c = true := by simpa using hc
    simp only [allBlank_append, allBlank_cons, Bool.and_eq_true] at hrun
    have hbefore : ∀ d ∈ x :: r, isLineBreak d = false := by
      have hinner : ∀ d ∈ r, isLineBreak d = false := by simpa using hr
      exact List.forall_mem_cons.mpr ⟨not_isLineBreak hx, hinner⟩
    rcases lines_append_break hbefore hbreak (not_isLineBreak hy) r' with ⟨run', hrun', hlines⟩
    rcases filter_lines_run (allBlank_of_sublist hrun' hrun.2.2) hy with ⟨part, hpart, hlast⟩
    have hsettle : settle (r ++ c :: r') = [' '] := by
      simp [settle, hbreak]
    have hsplit : x :: (r ++ c :: r') ++ [y] = (x :: r) ++ c :: (r' ++ [y]) := by simp
    rw [hsplit, joinedBy, hlines, List.filter_cons_of_pos (by simp [hx]), hlast, hsettle]
    simp [trim_cons_run hx hrun.1, trim_run_concat hpart hy]

/-- Trimmed lines joined by spaces are the reflowed text without the blanks around it. -/
theorem joinedBy_trim (text : List Char) : joinedBy trim text = trim (reflow text) := by
  refine Anchored.ext (f := joinedBy trim) (g := fun text => trim (reflow text))
    (fun x hx => anchored_joinedBy hx (anchored_trim hx))
    (fun x hx => (anchored_trim hx).comp (anchored_reflow hx)) ?_ ?_ ?_ ?_ text
  -- blanks alone: nothing is left on either side
  · intro run hrun
    have hlines := allBlank_of_sublist (flatten_lines_sublist run) hrun
    simp [joinedBy, filter_eq_nil_of_allBlank hlines, reflow_of_allBlank hrun,
      trim_of_allBlank (allBlank_settle hrun)]
  -- blanks in front: they are cut off together with the lines they fill
  · intro run x hrun hx
    rcases filter_lines_run hrun hx with ⟨part, hpart, hlines⟩
    simp only [joinedBy, hlines, reflow_run hrun hx]
    simp [trim_run_concat hpart hx, trim_run_concat (allBlank_settle hrun) hx]
  -- blanks at the end: only the rest of the first line is left, and it is trimmed
  · intro x run hx hrun
    have hlines := allBlank_of_sublist (flatten_lines_sublist run) hrun
    simp only [joinedBy, lines_cons (not_isLineBreak hx), reflow_cons hx, reflow_of_allBlank hrun,
      trim_cons_run hx (allBlank_settle hrun)]
    cases hpieces : lines run with
    | nil => simpa [hx] using trim_cons_run hx allBlank_nil
    | cons line more =>
      simp only [hpieces, List.flatten_cons, allBlank_append, Bool.and_eq_true] at hlines
      simp [hx, filter_eq_nil_of_allBlank hlines.2, trim_cons_run hx hlines.1]
  -- blanks between two letters: a break among them counts as one blank on either side
  · intro x run y hx hrun hy
    have hreflow : reflow (x :: run ++ [y]) = x :: settle run ++ [y] := by
      rw [List.cons_append, reflow_cons hx, reflow_run hrun hy, reflow_nil, List.cons_append]
    simp only [joinedBy_trim_between hx hrun hy, hreflow, trim_bounded hx hy (settle run)]

end Sheetwright.Text
