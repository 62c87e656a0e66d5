import Mathlib.Data.List.DropRight
import Sheetwright.Proofs.Text.Cut
import Sheetwright.Text.Line
import Sheetwright.Text.Blank
/-!
# Anchors

Trimming, line splitting and the functions made from them look at blanks and at what stands next to
a line end. They never look across a character that is neither. Such a character is an *anchor*: the
part of a text up to it and the part from it on are worked on as if they stood alone, and the
results are put together at the anchor (`Anchored`). A function that is anchored at every character
that is no blank is known from what it does with a run of blanks between two of them
(`Anchored.ext`).
-/

namespace Sheetwright.Text

variable {x : Char} {run text : List Char}

/-! ## Runs of blanks -/

theorem isBlank_of_isLineBreak {c : Char} (h : isLineBreak c = true) : isBlank c = true := by
  simp only [isLineBreak, isBlank, Bool.or_eq_true, Bool.and_eq_true, decide_eq_true_eq,
    beq_iff_eq] at h ⊢
  omega

theorem not_isLineBreak (h : isBlank x = false) : isLineBreak x = false := by
  by_contra hbreak
  simp [isBlank_of_isLineBreak (by simpa using hbreak)] at h

@[simp] theorem allBlank_nil : allBlank [] = true := rfl

@[simp] theorem allBlank_append (a b : List Char) :
    allBlank (a ++ b) = (allBlank a && allBlank b) := by
  simp [allBlank]

@[simp] theorem allBlank_cons (c : Char) (text : List Char) :
    allBlank (c :: text) = (isBlank c && allBlank text) := by
  simp [allBlank]

theorem allBlank_iff : allBlank text = true ↔ ∀ c ∈ text, isBlank c = true := by
  simp [allBlank]

/-- A text is blank, or a first character that is no blank stands behind a run of blanks. -/
theorem allBlank_or_exists (text : List Char) :
    allBlank text = true ∨
      ∃ run x rest, allBlank run = true ∧ isBlank x = false ∧ text = run ++ x :: rest := by
  rcases all_or_exists isBlank text with hall | ⟨run, x, rest, hrun, hx, rfl⟩
  · exact Or.inl (allBlank_iff.mpr hall)
  · exact Or.inr ⟨run, x, rest, allBlank_iff.mpr hrun, hx, rfl⟩

/-- Induction over the characters of a text that are no blanks. -/
theorem blank_induction {motive : List Char → Prop}
    (blank : ∀ run, allBlank run = true → motive run)
    (anchor : ∀ run x rest, allBlank run = true → isBlank x = false → motive rest →
      motive (run ++ x :: rest)) (text : List Char) : motive text := by
  induction hn : text.length using Nat.strongRecOn generalizing text with
  | ind n ih =>
    rcases allBlank_or_exists text with hblank | ⟨run, x, rest, hrun, hx, rfl⟩
    · exact blank text hblank
    · refine anchor run x rest hrun hx (ih rest.length ?_ rest rfl)
      simp only [List.length_append, List.length_cons] at hn
      omega

/-! ## Trimming -/

theorem trimStart_of_allBlank (h : allBlank run = true) : trimStart run = [] := by
  simpa [trimStart, allBlank] using h

@[simp] theorem trimStart_cons (h : isBlank x = false) : trimStart (x :: text) = x :: text := by
  simp [trimStart, h]

/-- Blanks in front of a text are dropped with those at its beginning. -/
theorem trimStart_append (h : allBlank run = true) (text : List Char) :
    trimStart (run ++ text) = trimStart text := by
  simp only [trimStart]
  rw [List.dropWhile_append, if_pos]
  simpa [allBlank] using h

theorem trimEnd_of_allBlank (h : allBlank run = true) : trimEnd run = [] := by
  simpa [trimEnd, allBlank] using h

/-- Only what stands behind the last character that is no blank is dropped at the end. -/
theorem trimEnd_append_cons (h : isBlank x = false) (before after : List Char) :
    trimEnd (before ++ x :: after) = before ++ x :: trimEnd after := by
  have hback : (after.reverse ++ x :: before.reverse).dropWhile isBlank =
      after.reverse.dropWhile isBlank ++ x :: before.reverse := by
    rw [List.dropWhile_append]
    split
    next hempty => simp [List.isEmpty_iff.mp hempty, h]
    next => rfl
  simp [trimEnd, hback]

theorem trimEnd_concat (h : isBlank x = false) (before : List Char) :
    trimEnd (before ++ [x]) = before ++ [x] :=
  trimEnd_append_cons h before []

/-- Blanks behind a text are dropped with those at its end. -/
theorem trimEnd_append (h : allBlank run = true) (text : List Char) :
    trimEnd (text ++ run) = trimEnd text := by
  rw [trimEnd, List.reverse_append, List.dropWhile_append, if_pos, trimEnd]
  simpa [allBlank] using h

theorem trim_of_allBlank (h : allBlank run = true) : trim run = [] := by
  simp [trim, trimStart_of_allBlank h, trimEnd]

/-- A text that begins and ends with characters that are no blanks is trimmed already. -/
theorem trim_bounded {y : Char} (hx : isBlank x = false) (hy : isBlank y = false)
    (between : List Char) : trim (x :: between ++ [y]) = x :: between ++ [y] := by
  have hstart : trimStart (x :: (between ++ [y])) = x :: (between ++ [y]) := trimStart_cons hx
  have hend := trimEnd_concat hy (x :: between)
  simpa [trim, hstart] using hend

/-- A text without blanks is trimmed already. -/
theorem trim_of_filled (h : ∀ c ∈ text, isBlank c = false) : trim text = text := by
  have hself : ∀ text : List Char, (∀ c ∈ text, isBlank c = false) →
      text.dropWhile isBlank = text := by
    intro text htext
    cases text with
    | nil => rfl
    | cons c text => exact List.dropWhile_cons_of_neg (by simp [htext c List.mem_cons_self])
  rw [trim, trimStart, hself text h, trimEnd, hself, List.reverse_reverse]
  exact fun c hc => h c (List.mem_reverse.mp hc)

theorem trim_cons_run (hx : isBlank x = false) (hrun : allBlank run = true) :
    trim (x :: run) = [x] := by
  have hend := trimEnd_append_cons hx [] run
  simpa [trim, hx, trimEnd_of_allBlank hrun] using hend

theorem trim_run_concat (hrun : allBlank run = true) (hx : isBlank x = false) :
    trim (run ++ [x]) = [x] := by
  simpa [trim, trimStart_append hrun, hx] using trimEnd_concat hx []

theorem trimEnd_trimEnd (text : List Char) : trimEnd (trimEnd text) = trimEnd text := by
  rw [trimEnd, trimEnd, List.reverse_reverse, List.dropWhile_idempotent isBlank]

/-- A text that is trimmed stays as it is when it is trimmed again. -/
theorem trim_trim (text : List Char) : trim (trim text) = trim text := by
  rcases allBlank_or_exists text with hblank | ⟨run, x, rest, hrun, hx, rfl⟩
  · rw [trim_of_allBlank hblank, trim_of_allBlank allBlank_nil]
  · have hcons : ∀ more, trimEnd (x :: more) = x :: trimEnd more := trimEnd_append_cons hx []
    have htrim : trim (run ++ x :: rest) = x :: trimEnd rest := by
      rw [trim, trimStart_append hrun, trimStart_cons hx, hcons]
    rw [htrim, trim, trimStart_cons hx, hcons, trimEnd_trimEnd]

/-- A text is its trimmed text between blanks. -/
theorem exists_trim_eq (text : List Char) :
    ∃ lead tail, allBlank lead = true ∧ allBlank tail = true ∧
      text = lead ++ (trim text ++ tail) := by
  have hrun : ∀ text : List Char, allBlank (text.takeWhile isBlank) = true := fun text =>
    allBlank_iff.mpr fun c hc => List.mem_takeWhile_imp hc
  refine ⟨text.takeWhile isBlank, ((trimStart text).reverse.takeWhile isBlank).reverse,
    hrun text, allBlank_iff.mpr fun c hc => ?_, ?_⟩
  · exact allBlank_iff.mp (hrun _) c (List.mem_reverse.mp hc)
  · rw [trim, trimEnd, ← List.reverse_append, List.takeWhile_append_dropWhile,
      List.reverse_reverse, trimStart, List.takeWhile_append_dropWhile]

/-- Blanks that are put around a text are trimmed with its own. -/
theorem trim_append {lead tail : List Char} (hlead : allBlank lead = true)
    (htail : allBlank tail = true) (text : List Char) :
    trim (lead ++ (text ++ tail)) = trim text := by
  rw [trim, trimStart_append hlead, trim]
  rcases allBlank_or_exists text with hblank | ⟨run, x, rest, hrun, hx, rfl⟩
  · rw [trimStart_append hblank, trimStart_of_allBlank htail, trimStart_of_allBlank hblank]
  · rw [List.append_assoc, List.cons_append, trimStart_append hrun, trimStart_append hrun,
      trimStart_cons hx, trimStart_cons hx, ← List.cons_append, trimEnd_append htail]

theorem trim_sublist (text : List Char) : (trim text).Sublist text := by
  rcases exists_trim_eq text with ⟨lead, tail, -, -, htext⟩
  conv => rhs; rw [htext]
  exact (List.sublist_append_left _ _).trans (List.sublist_append_right _ _)

theorem trim_eq_nil_iff : trim text = [] ↔ allBlank text = true := by
  refine ⟨fun h => ?_, trim_of_allBlank⟩
  rcases exists_trim_eq text with ⟨lead, tail, hlead, htail, htext⟩
  rw [htext, h, List.nil_append, allBlank_append, hlead, htail, Bool.and_self]

/-- The blanks around a text do not matter for a word without blanks. -/
theorem holds_trim {w : Char} {word : List Char} (h : ∀ c ∈ w :: word, isBlank c = false)
    (text : List Char) : holds (w :: word) (trim text) = holds (w :: word) text := by
  have hapart : ∀ {run}, allBlank run = true → ∀ c ∈ w :: word, c ∉ run := by
    intro run hrun c hc hmem
    have hblank := allBlank_iff.mp hrun c hmem
    rw [h c hc] at hblank
    cases hblank
  rcases exists_trim_eq text with ⟨lead, tail, hlead, htail, htext⟩
  calc holds (w :: word) (trim text)
      = holds (w :: word) (trim text ++ tail) := (holds_append (hapart htail) _).symm
    _ = holds (w :: word) (lead ++ (trim text ++ tail)) :=
        (holds_skip (hapart hlead w List.mem_cons_self) _).symm
    _ = holds (w :: word) text := by rw [← htext]

/-! ## Anchored functions -/

/-- A function works on the two sides of a character as if each stood alone with it. -/
def Anchored (f : List Char → List Char) (x : Char) : Prop :=
  ∀ before after, ∃ before' after', f (before ++ [x]) = before' ++ [x] ∧
    f (x :: after) = x :: after' ∧ f (before ++ x :: after) = before' ++ x :: after'

namespace Anchored

variable {f g : List Char → List Char}

theorem comp (hg : Anchored g x) (hf : Anchored f x) : Anchored (fun text => g (f text)) x := by
  intro before after
  rcases hf before after with ⟨b, a, hb, ha, hboth⟩
  rcases hg b a with ⟨b', a', hb', ha', hboth'⟩
  refine ⟨b', a', ?_, ?_, ?_⟩
  · simp only [hb, hb']
  · simp only [ha, ha']
  · simp only [hboth, hboth']

/-- An anchored function keeps two different anchors at the ends of a text. -/
theorem exists_between {y : Char} (hx : Anchored f x) (hy : Anchored f y) (hne : x ≠ y)
    (between : List Char) : ∃ between', f (x :: between ++ [y]) = x :: between' ++ [y] := by
  rcases hx [] (between ++ [y]) with ⟨-, rest, -, hfirst, -⟩
  rcases hy (x :: between) [] with ⟨front, -, hlast, -, -⟩
  have hends : x :: rest = front ++ [y] := by
    rw [← hlast, ← hfirst, List.cons_append]
  cases front with
  | nil => exact absurd (List.cons.inj hends).1 hne
  | cons c front =>
    obtain ⟨rfl, -⟩ := List.cons.inj hends
    exact ⟨front, hlast⟩

/-- Two functions that are anchored at the same characters agree at a text as soon as they agree up
to an anchor of it and from there on. -/
theorem eq_append (hf : Anchored f x) (hg : Anchored g x) {before after : List Char}
    (hbefore : f (before ++ [x]) = g (before ++ [x])) (hafter : f (x :: after) = g (x :: after)) :
    f (before ++ x :: after) = g (before ++ x :: after) := by
  rcases hf before after with ⟨b, a, hb, ha, hboth⟩
  rcases hg before after with ⟨b', a', hb', ha', hboth'⟩
  have hfront : b = b' := by
    simpa [hb, hb'] using hbefore
  have hback : a = a' := by
    simpa [ha, ha'] using hafter
  rw [hboth, hboth', hfront, hback]

/-- Two functions that are anchored at every character that is no blank are the same if they agree
on runs of blanks with at most one such character on either side. -/
theorem ext (hf : ∀ x, isBlank x = false → Anchored f x)
    (hg : ∀ x, isBlank x = false → Anchored g x)
    (hblank : ∀ run, allBlank run = true → f run = g run)
    (hfirst : ∀ run x, allBlank run = true → isBlank x = false → f (run ++ [x]) = g (run ++ [x]))
    (hlast : ∀ x run, isBlank x = false → allBlank run = true → f (x :: run) = g (x :: run))
    (hinner : ∀ x run y, isBlank x = false → allBlank run = true → isBlank y = false →
      f (x :: run ++ [y]) = g (x :: run ++ [y])) (text : List Char) : f text = g text := by
  have hanchored : ∀ text x, isBlank x = false → f (x :: text) = g (x :: text) := by
    intro text
    induction text using blank_induction with
    | blank run hrun => exact fun x hx => hlast x run hx hrun
    | anchor run y rest hrun hy ih =>
      exact fun x hx => eq_append (hf y hy) (hg y hy) (hinner x run y hx hrun hy) (ih y hy)
  rcases allBlank_or_exists text with hrun | ⟨run, x, rest, hrun, hx, rfl⟩
  · exact hblank text hrun
  · exact eq_append (hf x hx) (hg x hx) (hfirst run x hrun hx) (hanchored rest x hx)

end Anchored

theorem anchored_trimStart (h : isBlank x = false) : Anchored trimStart x := by
  intro before after
  rcases allBlank_or_exists before with hblank | ⟨run, y, rest, hrun, hy, rfl⟩
  · refine ⟨[], after, ?_, trimStart_cons h, ?_⟩
    · simp [trimStart_append hblank, h]
    · simp [trimStart_append hblank, h]
  · refine ⟨y :: rest, after, ?_, trimStart_cons h, ?_⟩
    · simp [trimStart_append hrun, hy]
    · simp [trimStart_append hrun, hy]

theorem anchored_trimEnd (h : isBlank x = false) : Anchored trimEnd x := by
  intro before after
  refine ⟨before, trimEnd after, trimEnd_concat h before, ?_, ?_⟩
  · exact trimEnd_append_cons h [] after
  · exact trimEnd_append_cons h before after

theorem anchored_trim (h : isBlank x = false) : Anchored trim x :=
  (anchored_trimEnd h).comp (anchored_trimStart h)

end Sheetwright.Text
