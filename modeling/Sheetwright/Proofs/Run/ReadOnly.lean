import Sheetwright.Proofs.Run.Tab
import Sheetwright.Proofs.Run.Template
/-!
# What a run may do to its template

A run never removes the template, gives it another title or changes what its cells hold. All that
may happen to it is that the anchors of its merged ranges take over lines of the last cells of these
ranges. `template_kept_iff` says when even this does not happen: the lines are there already, or the
run copies no template.
-/

namespace Sheetwright.Run

open Grid Operation Workbook

variable {ρ : Type} {layout : Layout} {commit : Session.Action ρ Unit} {name : String}

/-- Committing leaves the sheet of a title as it is, apart from empty cells that it may allocate. -/
def Spares (commit : Session.Action ρ Unit) (title : String) : Prop :=
  ∀ s t, s.workbook.titled? title = some t →
    ∃ t', (after commit s).workbook.titled? title = some t' ∧ t.Alike t'

theorem Spares.kept {title : String} {P : Sheet → Prop} (h : Spares commit title)
    (hP : ∀ s t, P s → s.Alike t → P t) (s : Session ρ) (hs : s.workbook.Kept P title) :
    (after commit s).workbook.Kept P title := by
  rcases kept_iff.mp hs with ⟨t, ht, hPt⟩
  rcases h s t ht with ⟨t', ht', hlike⟩
  exact kept_iff.mpr ⟨t', ht', hP t t' hPt hlike⟩

theorem robust_of_alike (h : Spares commit layout.templateSheet) {P : Sheet → Prop}
    (hP : ∀ s t, P s → s.Alike t → P t) : Robust layout commit P where
  widened s t hs hst := hP s t hs hst.toAlike
  commit := h.kept hP

/-! ## A copy is made -/

theorem stands_copied {b : Workbook} {title : String} {place : Nat} {t : Sheet}
    (h : b.Stands title place t) (copy : Sheet) :
    (b.copied place copy).Stands title place t.frame :=
  h.framed.append _

/-- A tab that copies the template frames it, also when it fails afterwards. -/
theorem TabRun.titled?_template {b b' : Workbook} {r : Except Failure Unit} {t : Sheet}
    (h : TabRun layout name b r b') (hne : name ≠ layout.templateSheet)
    (hcopy : (b.without name).copyFault? layout.templateSheet = none)
    (ht : b.titled? layout.templateSheet = some t) :
    b'.titled? layout.templateSheet = some t.frame := by
  have hbefore : (b.without name).titled? layout.templateSheet = some t := by
    rw [titled?_without_of_ne hne, ht]
  -- whatever becomes of the copy, it stands behind the template
  have hcopied {place : Nat} {u : Sheet} (hu : (b.without name).Stands layout.templateSheet place u)
      (copy : Sheet) :
      ((b.without name).copied place copy).titled? layout.templateSheet = some t.frame := by
    have htu : u = t := Option.some.inj (hu.titled?_eq.symm.trans hbefore)
    rw [(stands_copied hu copy).titled?_eq, htu]
  cases h with
  | overwrites h => exact absurd h hne
  | missing _ h =>
    rw [titled?_eq_none_iff.mpr h] at hbefore
    cases hbefore
  | uncopied _ _ h => cases hcopy.symm.trans h
  | refused _ hs =>
    rw [titled?_without_of_ne (copyTitle_ne _ _)]
    exact hcopied hs _
  | uncleared _ hs => exact hcopied hs _
  | made _ hs => exact hcopied hs _

theorem titled?_step (hcommit : Spares commit layout.templateSheet) {p : Progress} {index : Nat}
    {c : Code} {s : Session ρ} {t : Sheet} (hc : Copies layout s.workbook index c)
    (ht : s.workbook.titled? layout.templateSheet = some t) :
    ∃ t', (step (Session.document commit) layout p index c s).2.workbook.titled?
      layout.templateSheet = some t' ∧ t.frame.Alike t' := by
  rcases hc with ⟨htab, hne, hcopy⟩
  have hrun := (tabRun_makeTab layout commit (tabName layout index c) s).1
  have hframe := hrun.titled?_template hne hcopy ht
  rw [step_snd_tab _ _ htab]
  dsimp only
  -- a tab that fails is not committed, and the template is framed all the same
  cases outcome (makeTab (Session.document commit) layout (tabName layout index c)) s with
  | ok _ => exact hcommit _ _ hframe
  | error _ => exact ⟨t.frame, hframe, .refl _⟩

/-! ## Runs -/

/-- Lines are only ever added: if the template shows the same after a copy was made of it, it had
the lines of its merged ranges before. -/
theorem framed_of_copies (hcommit : Spares commit layout.templateSheet) {codes : List Code}
    {i : Nat} {c : Code} {s : Session ρ} (hi : codes[i]? = some c)
    (hc : Copies layout (upTo (Session.document commit) layout codes s i).2.workbook i c)
    {t t' : Sheet} (ht : s.workbook.titled? layout.templateSheet = some t)
    (ht' : (execute (Session.document commit) layout codes s).2.workbook.titled?
      layout.templateSheet = some t') (hlike : t.Alike t') : t.Framed := by
  have hrobust (u : Sheet) : Robust layout commit u.Reframed :=
    robust_of_alike hcommit fun _ _ h h' => h.trans h'.reframed
  have hframe (u v : Sheet) (hv : u.Reframed v) : u.Reframed v.frame := hv.trans v.reframed_frame
  rcases List.getElem?_eq_some_iff.mp hi with ⟨hlt, hget⟩
  have hsplit : codes = codes.take i ++ c :: codes.drop (i + 1) := by
    rw [← hget, ← List.drop_eq_getElem_cons hlt, List.take_append_drop]
  have hlength : 0 + (codes.take i).length = i := by
    rw [List.length_take, Nat.zero_add, Nat.min_eq_left (Nat.le_of_lt hlt)]
  -- the run up to the copy, the copy itself, and the rest of the run
  have hfirst := (hrobust t).kept_stepAll {} 0 (codes.take i) (fun _ _ _ _ => hframe t) nofun
    (kept_iff.mpr ⟨t, ht, (Sheet.Alike.refl t).reframed⟩)
  rcases hfirst with ⟨htarget, hkept⟩
  rw [execute_snd, hsplit, stepAll_append, hlength, stepAll_cons] at ht'
  rw [upTo] at hc
  generalize stepAll (Session.document commit) layout {} 0 (codes.take i) s = reached
    at hc htarget hkept ht'
  rcases kept_iff.mp hkept with ⟨u, hu, htu⟩
  rcases titled?_step hcommit (p := reached.1) hc hu with ⟨v, hv, huv⟩
  have hstep := (hrobust t).kept_stepAll reached.1 i [c] (fun _ _ _ _ => hframe t) htarget hkept
  have hrest := (hrobust u.frame).kept_stepAll _ (i + 1) (codes.drop (i + 1))
    (fun _ _ _ _ => hframe u.frame) hstep.1 (kept_iff.mpr ⟨v, hv, huv.reframed⟩)
  rcases kept_iff.mp hrest.2 with ⟨w, hw, huw⟩
  -- the template is the same in the end, so no line can have come with the copy
  have hend : t' = w := Option.some.inj (ht'.symm.trans hw)
  have hback (p : Position) : (u.frame.cell p).style.border.Within (t.cell p).style.border := by
    rw [← hlike.cell_eq p, hend]
    exact huw.lines p
  have hlines := u.reframed_frame.lines
  have htu' : t.Alike u := htu.alike_of_within fun p => (hlines p).trans (hback p)
  have huu' : u.Alike u.frame := by
    refine u.reframed_frame.alike_of_within fun p => ?_
    exact (hback p).trans (htu.lines p)
  exact htu'.framed_iff.mp (Sheet.alike_frame_iff.mp huu')

/-- At every point of a run the template has only lines of its merged ranges added. It shows exactly
what it showed in the beginning if it has these lines already or the run copies no template, and
only then. -/
theorem template_kept_iff (layout : Layout) {commit : Session.Action ρ Unit}
    (hcommit : Spares commit layout.templateSheet) (codes : List Code)
    {s : Session ρ} {t : Sheet} (ht : s.workbook.titled? layout.templateSheet = some t) :
    (∀ u ∈ points (Session.document commit) layout codes s,
        ∃ t', u.workbook.titled? layout.templateSheet = some t' ∧ t.Reframed t') ∧
      ((∀ u ∈ points (Session.document commit) layout codes s,
          ∃ t', u.workbook.titled? layout.templateSheet = some t' ∧ t.Alike t') ↔
        t.Framed ∨ ∀ i c, codes[i]? = some c →
          ¬Copies layout (upTo (Session.document commit) layout codes s i).2.workbook i c) := by
  have hreframed : Robust layout commit t.Reframed :=
    robust_of_alike hcommit fun _ _ h h' => h.trans h'.reframed
  have halike : Robust layout commit t.Alike := robust_of_alike hcommit fun _ _ => Sheet.Alike.trans
  refine ⟨?_, ?_, ?_⟩
  · intro u hu
    refine kept_iff.mp (hreframed.kept_at_points ?_ ?_ u hu)
    · exact fun _ _ _ _ v hv => hv.trans v.reframed_frame
    · exact kept_iff.mpr ⟨t, ht, (Sheet.Alike.refl t).reframed⟩
  · intro h
    -- the end of the run is a point of it, and there the lines would show
    by_cases hcopies : ∃ i c, codes[i]? = some c ∧
        Copies layout (upTo (Session.document commit) layout codes s i).2.workbook i c
    · rcases hcopies with ⟨i, c, hi, hc⟩
      rcases h _ (mem_points_end _ layout codes s) with ⟨t', ht', hlike⟩
      exact Or.inl (framed_of_copies hcommit hi hc ht ht' hlike)
    · exact Or.inr fun i c hi hc => hcopies ⟨i, c, hi, hc⟩
  · intro h u hu
    refine kept_iff.mp (halike.kept_at_points ?_ ?_ u hu)
    · intro i c hi hc v hv
      rcases h with h | h
      · exact hv.trans (hv.framed_iff.mpr h).alike_frame
      · exact absurd hc (h i c hi)
    · exact kept_iff.mpr ⟨t, ht, .refl t⟩

/-- A merged banner over two columns. -/
def banner : Range := ⟨1, 1, 1, 2, by decide, by decide⟩

/-- A template with a line at the right end of its merged banner, on the covered cell. -/
def lined : Sheet :=
  ({ title := "Codes", merged := [banner] } : Sheet).putCell ⟨1, 2⟩
    { content := .covered, style := { border := { right := "thin" } } }

/-- The line moves to the anchor of the banner as soon as a tab is made. -/
theorem template_kept_iff_lined :
    Spares (pure () : Session.Action Unit Unit) "Codes" ∧
      (⟨[lined]⟩ : Workbook).titled? "Codes" = some lined ∧
      ¬∀ u ∈ points (Session.document (pure ())) {} [{ key := "1", baseType := tabType }]
          ⟨⟨[lined]⟩, ()⟩,
        ∃ t', u.workbook.titled? "Codes" = some t' ∧ lined.Alike t' := by
  have hcommit : Spares (pure () : Session.Action Unit Unit) "Codes" :=
    fun s t ht => ⟨t, ht, .refl t⟩
  have htitled : (⟨[lined]⟩ : Workbook).titled? "Codes" = some lined :=
    List.find?_cons_of_pos (by decide +kernel)
  have hkept := template_kept_iff {} hcommit [{ key := "1", baseType := tabType }]
    (s := ⟨⟨[lined]⟩, ()⟩) htitled
  refine ⟨hcommit, htitled, fun h => ?_⟩
  rcases hkept.2.mp h with hframed | hcopies
  · have hbanner := hframed banner (List.mem_singleton_self banner)
    revert hbanner
    decide +kernel
  · refine hcopies 0 _ rfl ⟨rfl, ?_, ?_⟩
    · decide +kernel
    · decide +kernel

end Sheetwright.Run
