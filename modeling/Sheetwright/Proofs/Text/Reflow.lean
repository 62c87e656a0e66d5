import Sheetwright.Proofs.Text.Anchor
import Sheetwright.Proofs.Text.Cut
/-!
# Reflowed texts

A text that is spread over several lines reads the same when it is written on one: a run of blanks
that holds a line end counts as one space. Reading a text so (`reflow`) changes only runs of blanks,
never to or from the empty run. Everything that tells texts apart by other characters therefore
commutes with it: trimming, splitting, searching for a mark or a word.
-/

namespace Sheetwright.Text

variable {x : Char} {run text : List Char}

/-- A run of blanks as it reads on one line. -/
def settle (run : List Char) : List Char := if run.any isLineBreak then [' '] else run

/-- A text on one line, after blanks that are still to be settled. -/
def reflowFrom (pending : List Char) : List Char → List Char
  | [] => settle pending
  | c :: rest =>
    if isBlank c then reflowFrom (pending ++ [c]) rest
    else settle pending ++ c :: reflowFrom [] rest

/-- A text as it reads on one line: every run of blanks with a line end in it becomes a space. -/
def reflow (text : List Char) : List Char := reflowFrom [] text

def reflowed (text : String) : String := String.ofList (reflow text.toList)

/-! ## Runs and anchors -/

@[simp] theorem settle_nil : settle [] = [] := rfl

theorem settle_eq_nil : settle run = [] ↔ run = [] := by
  unfold settle
  split
  next hany =>
    constructor
    · intro h
      cases h
    · rintro rfl
      cases hany
  next => rfl

theorem isEmpty_settle (run : List Char) : (settle run).isEmpty = run.isEmpty := by
  rw [Bool.eq_iff_iff, List.isEmpty_iff, List.isEmpty_iff, settle_eq_nil]

theorem allBlank_settle (h : allBlank run = true) : allBlank (settle run) = true := by
  unfold settle
  split
  next => rfl
  next => exact h

theorem reflowFrom_append (h : allBlank run = true) (pending text : List Char) :
    reflowFrom pending (run ++ text) = reflowFrom (pending ++ run) text := by
  induction run generalizing pending with
  | nil => simp
  | cons c run ih =>
    simp only [allBlank_cons, Bool.and_eq_true] at h
    simp [reflowFrom, h.1, ih h.2]

@[simp] theorem reflow_nil : reflow [] = [] := rfl

theorem reflow_of_allBlank (h : allBlank run = true) : reflow run = settle run := by
  have happend := reflowFrom_append h [] []
  simpa [reflow, reflowFrom] using happend

@[simp] theorem reflow_cons (h : isBlank x = false) (text : List Char) :
    reflow (x :: text) = x :: reflow text := by
  simp [reflow, reflowFrom, h]

/-- Blanks in front of an anchor are settled, and what stands behind it is reflowed by itself. -/
theorem reflow_run (hrun : allBlank run = true) (hx : isBlank x = false) (rest : List Char) :
    reflow (run ++ x :: rest) = settle run ++ x :: reflow rest := by
  rw [reflow, reflowFrom_append hrun, reflowFrom]
  simp [hx, reflow]

theorem reflow_append_cons (h : isBlank x = false) (before after : List Char) :
    reflow (before ++ x :: after) = reflow before ++ x :: reflow after := by
  induction before using blank_induction with
  | blank run hrun => rw [reflow_run hrun h, reflow_of_allBlank hrun]
  | anchor run y rest hrun hy ih =>
    rw [List.append_assoc, List.cons_append, reflow_run hrun hy, ih, reflow_run hrun hy]
    simp

theorem anchored_reflow (h : isBlank x = false) : Anchored reflow x := by
  intro before after
  refine ⟨reflow before, reflow after, ?_, reflow_cons h after, reflow_append_cons h before after⟩
  simpa using reflow_append_cons h before []

/-! ## What stays -/

@[simp] theorem reflow_eq_nil : reflow text = [] ↔ text = [] := by
  rcases allBlank_or_exists text with hrun | ⟨run, x, rest, hrun, hx, rfl⟩
  · rw [reflow_of_allBlank hrun, settle_eq_nil]
  · simp [reflow_run hrun hx]

@[simp] theorem allBlank_reflow (text : List Char) : allBlank (reflow text) = allBlank text := by
  rcases allBlank_or_exists text with hrun | ⟨run, x, rest, hrun, hx, rfl⟩
  · rw [reflow_of_allBlank hrun, allBlank_settle hrun, hrun]
  · simp [reflow_run hrun hx, hx]

/-- A character of a reflowed text is a space or stood in the text. -/
theorem mem_of_mem_reflow {c : Char} (h : c ∈ reflow text) : c ∈ text ∨ c = ' ' := by
  have hsettle : ∀ {run : List Char}, c ∈ settle run → c ∈ run ∨ c = ' ' := by
    intro run hmem
    unfold settle at hmem
    split at hmem
    · exact Or.inr (by simpa using hmem)
    · exact Or.inl hmem
  induction text using blank_induction with
  | blank run hrun => exact hsettle (by rwa [reflow_of_allBlank hrun] at h)
  | anchor run y rest hrun hy ih =>
    rw [reflow_run hrun hy, List.mem_append, List.mem_cons] at h
    rcases h with hmem | rfl | hmem
    · have := hsettle hmem
      grind
    · simp
    · have := ih hmem
      grind

theorem mem_reflow (h : isBlank x = false) : x ∈ reflow text ↔ x ∈ text := by
  constructor
  · intro hmem
    rcases mem_of_mem_reflow hmem with hmem | rfl
    · exact hmem
    · cases h
  · intro hmem
    rcases List.mem_iff_append.mp hmem with ⟨before, after, rfl⟩
    simp [reflow_append_cons h]

/-- A reflowed text begins with a blank if the text does. -/
theorem exists_reflow_cons_of_isBlank {c : Char} (h : isBlank c = true) (text : List Char) :
    ∃ d rest, reflow (c :: text) = d :: rest ∧ isBlank d = true := by
  -- the run at the beginning becomes a space or keeps its first blank
  have hhead : ∀ run rest : List Char, allBlank run = true →
      ∃ d rest', settle (c :: run) ++ rest = d :: rest' ∧ isBlank d = true := by
    intro run rest _
    unfold settle
    split
    next => exact ⟨' ', rest, rfl, rfl⟩
    next => exact ⟨c, run ++ rest, rfl, h⟩
  rcases allBlank_or_exists text with hrun | ⟨run, x, rest, hrun, hx, rfl⟩
  · rw [reflow_of_allBlank (by simp [h, hrun])]
    simpa using hhead text [] hrun
  · have hfront : allBlank (c :: run) = true := by simp [h, hrun]
    have hcons := reflow_run hfront hx rest
    rw [List.cons_append] at hcons
    rw [hcons]
    exact hhead run _ hrun

theorem reflow_eq_cons (h : isBlank x = false) {rest : List Char} :
    reflow text = x :: rest ↔ ∃ rest', text = x :: rest' ∧ reflow rest' = rest := by
  cases text with
  | nil => simp
  | cons c text =>
    by_cases hc : isBlank c = true
    · rcases exists_reflow_cons_of_isBlank hc text with ⟨d, more, hd, hdblank⟩
      have hne : ∀ {e : Char}, isBlank e = true → e ≠ x := by
        rintro e he rfl
        simp [he] at h
      simp [hd, hne hc, hne hdblank]
    · rw [reflow_cons (by simpa using hc)]
      constructor
      · intro heq
        obtain ⟨rfl, rfl⟩ := List.cons.inj heq
        exact ⟨text, rfl, rfl⟩
      · rintro ⟨rest', heq, rfl⟩
        obtain ⟨rfl, rfl⟩ := List.cons.inj heq
        rfl

/-! ## Trimming -/

@[simp] theorem trimStart_reflow (text : List Char) :
    trimStart (reflow text) = reflow (trimStart text) := by
  rcases allBlank_or_exists text with hrun | ⟨run, x, rest, hrun, hx, rfl⟩
  · rw [trimStart_of_allBlank hrun, trimStart_of_allBlank (by simpa using hrun), reflow_nil]
  · rw [reflow_run hrun hx, trimStart_append (allBlank_settle hrun), trimStart_append hrun]
    simp [hx]

@[simp] theorem trimEnd_reflow (text : List Char) :
    trimEnd (reflow text) = reflow (trimEnd text) := by
  induction text using blank_induction with
  | blank run hrun =>
    rw [trimEnd_of_allBlank hrun, trimEnd_of_allBlank (by simpa using hrun), reflow_nil]
  | anchor run x rest hrun hx ih =>
    rw [reflow_run hrun hx, trimEnd_append_cons hx, trimEnd_append_cons hx, reflow_run hrun hx, ih]

@[simp] theorem trim_reflow (text : List Char) : trim (reflow text) = reflow (trim text) := by
  simp [trim]

/-! ## Cutting -/

/-- A text that begins with a character of another kind still does when it is reflowed. -/
theorem exists_reflow_cons_of_not {p : Char → Bool} (hp : ∀ c, p c = true → isBlank c = false)
    {c : Char} (hc : ¬p c = true) (text : List Char) :
    ∃ d rest, reflow (c :: text) = d :: rest ∧ ¬p d = true := by
  by_cases hblank : isBlank c = true
  · rcases exists_reflow_cons_of_isBlank hblank text with ⟨d, rest, hd, hdblank⟩
    exact ⟨d, rest, hd, fun hpd => by simp [hp d hpd] at hdblank⟩
  · exact ⟨c, reflow text, reflow_cons (by simpa using hblank) text, hc⟩

/-- Reading characters none of which is a blank. -/
theorem takeWhile_reflow_of_not_blank {p : Char → Bool} (hp : ∀ c, p c = true → isBlank c = false)
    (text : List Char) : (reflow text).takeWhile p = text.takeWhile p := by
  induction text with
  | nil => rfl
  | cons c text ih =>
    by_cases hc : p c = true
    · simp [hp c hc, hc, ih]
    · rcases exists_reflow_cons_of_not hp hc text with ⟨d, rest, hd, hdp⟩
      rw [hd, List.takeWhile_cons_of_neg hdp, List.takeWhile_cons_of_neg hc]

theorem dropWhile_reflow_of_not_blank {p : Char → Bool} (hp : ∀ c, p c = true → isBlank c = false)
    (text : List Char) : (reflow text).dropWhile p = reflow (text.dropWhile p) := by
  induction text with
  | nil => rfl
  | cons c text ih =>
    by_cases hc : p c = true
    · simp [hp c hc, hc, ih]
    · rcases exists_reflow_cons_of_not hp hc text with ⟨d, rest, hd, hdp⟩
      rw [List.dropWhile_cons_of_neg hc, hd, List.dropWhile_cons_of_neg hdp]

theorem splitOn_reflow (h : isBlank x = false) (text : List Char) :
    (reflow text).splitOn x = (text.splitOn x).map reflow := by
  induction hn : text.length using Nat.strongRecOn generalizing text with
  | ind n ih =>
    by_cases hmem : x ∈ text
    · rcases List.append_of_mem hmem with ⟨before, after, rfl⟩
      have hlength : before.length < n ∧ after.length < n := by
        simp only [List.length_append, List.length_cons] at hn
        omega
      rw [reflow_append_cons h, List.splitOn_append_cons_self, List.splitOn_append_cons_self,
        ih _ hlength.1 before rfl, ih _ hlength.2 after rfl, List.map_append]
    · rw [List.splitOn_eq_singleton hmem, List.splitOn_eq_singleton (by rwa [mem_reflow h])]
      rfl

/-! ## Searching -/

theorem cut?_reflow {mark : Char} (h : isBlank mark = false) (text : List Char) :
    cut? mark (reflow text) =
      (cut? mark text).map fun (before, after) => (reflow before, reflow after) := by
  by_cases hmem : mark ∈ text
  · rcases List.eq_append_cons_of_mem hmem with ⟨before, after, rfl, hbefore⟩
    rw [reflow_append_cons h, cut?_append (by rwa [mem_reflow h]), cut?_append hbefore]
    rfl
  · rw [cut?_eq_none.mpr hmem, cut?_eq_none.mpr (by rwa [mem_reflow h])]
    rfl

theorem after?_reflow {mark : Char} (h : isBlank mark = false) (text : List Char) :
    after? mark (reflow text) = (after? mark text).map reflow := by
  simp only [after?_eq_cut?, cut?_reflow h, Option.map_map]
  rfl

/-- A word without blanks begins a text or does not, however the text is spread over lines. -/
theorem isPrefixOf_reflow {word : List Char} (h : ∀ c ∈ word, isBlank c = false)
    (text : List Char) : word.isPrefixOf (reflow text) = word.isPrefixOf text := by
  induction word generalizing text with
  | nil => simp
  | cons w word ih =>
    simp only [List.mem_cons, forall_eq_or_imp] at h
    cases text with
    | nil => rfl
    | cons c text =>
      by_cases hc : isBlank c = true
      · rcases exists_reflow_cons_of_isBlank hc text with ⟨d, rest, hd, hdblank⟩
        have hne : ∀ {e : Char}, isBlank e = true → (w == e) = false := by
          intro e he
          refine beq_eq_false_iff_ne.mpr ?_
          rintro rfl
          simp [he] at h
        rw [hd]
        simp [List.isPrefixOf, hne hc, hne hdblank]
      · simp [hc, List.isPrefixOf, ih h.2]

theorem holds_reflow {w : Char} {word : List Char} (h : ∀ c ∈ w :: word, isBlank c = false)
    (text : List Char) : holds (w :: word) (reflow text) = holds (w :: word) text := by
  -- a word without blanks does not begin inside a run of blanks
  have hskip : ∀ {run : List Char}, allBlank run = true → ∀ rest,
      holds (w :: word) (run ++ rest) = holds (w :: word) rest := by
    intro run hrun rest
    induction run with
    | nil => rfl
    | cons c run ih =>
      simp only [allBlank_cons, Bool.and_eq_true] at hrun
      have hw : (w == c) = false := by
        refine beq_eq_false_iff_ne.mpr ?_
        rintro rfl
        simp [h w List.mem_cons_self] at hrun
      simp [holds, List.isPrefixOf, hw, ih hrun.2]
  induction text using blank_induction with
  | blank run hrun =>
    have hsettle := hskip (allBlank_settle hrun) []
    have hrun' := hskip hrun []
    rw [List.append_nil] at hsettle hrun'
    rw [reflow_of_allBlank hrun, hsettle, hrun']
  | anchor run x rest hrun hx ih =>
    have hprefix := isPrefixOf_reflow h (x :: rest)
    rw [reflow_cons hx] at hprefix
    rw [reflow_run hrun hx, hskip (allBlank_settle hrun), hskip hrun, holds, holds, hprefix, ih]

end Sheetwright.Text
