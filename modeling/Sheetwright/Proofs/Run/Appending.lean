import Sheetwright.Command
import Sheetwright.Proofs.Grid.Content
import Sheetwright.Proofs.Run.Placing
import Sheetwright.Proofs.Workbook.Filling
/-!
# Blocks append

A block goes below what its target holds. However far its placing comes, the target is the same as
before down to its last used row, the template shows the same, and all other sheets are untouched:
`appends_placeBlock`. A run appends as long as it meets no `TAB` code, so what a target holds at
some point of a section it holds until the end of the section: `blocks_append`.
-/

namespace Sheetwright.Run

open Grid Operation Workbook

variable {ρ : Type} {layout : Layout} {commit : Session.Action ρ Unit} {target : String}
  {s : Session ρ}

/-! ## One block -/

theorem run_ask_lastUsedRow (sheet : Nat) (s : Session ρ) :
    (ask ((Session.document commit).lastUsedRow sheet)).run s =
      let u := s.workbook.sheet sheet
      .ok u.lastUsed
        { s with workbook := s.workbook.putSheet sheet (u.allocateBlock u.rows u.columns) } :=
  run_ask_onSheet (Sheet.run_lastUsedRow _)

theorem keeps_filledBelow_pasteFound {place sheet : Nat} (hne : place ≠ sheet) (c : Code)
    (found : Option (Nat × Nat)) :
    Keeps (OnWorkbooks (FilledBelow place sheet))
      (pasteFound (Session.document commit) layout place sheet c found) := by
  cases found with
  | none => exact Keeps.stop _
  | some rows =>
    intro s
    -- the first row to be filled is the one behind those that are in use at the start
    let start := (s.workbook.sheet sheet).lastUsed + 1
    have hlookup : Keeps (OnWorkbooks (FilledFrom start place sheet))
        (ask ((Session.document commit).lastUsedRow sheet)) :=
      keeps_ask (keeps_filledFrom_dest hne
        (Sheet.keeps_lastUsedRow.mono fun _ _ h => h.toAlike.sameAbove start))
    have hfill : Keeps (OnWorkbooks (FilledFrom start place sheet))
        (ask ((Session.document commit).copyBlock place rows sheet start layout.lastColumn) >>=
          fun _ => fillIn (Session.document commit) layout sheet start c) :=
      Keeps.bind (keeps_ask (keeps_filledFrom_copyBlock hne _ _ _)) fun _ =>
        keeps_fillIn (keeps_filledFrom_dest hne) c
    have hlast : outcome (ask ((Session.document commit).lastUsedRow sheet)) s =
        .ok (s.workbook.sheet sheet).lastUsed :=
      outcome_of_run (run_ask_lastUsedRow sheet s)
    rw [pasteFound, pasteRows, after_bind, hlast]
    exact trans_of (FilledFrom start place sheet) (hlookup s) (hfill _)

/-- Placing a block works on the template and on the target: the target is filled below what it
held, and all other sheets stay. -/
theorem filledBelow_placeBlock (commit : Session.Action ρ Unit) {place sheet : Nat}
    (hne : place ≠ sheet) (hplace : s.workbook.find? layout.templateSheet = some place)
    (hsheet : s.workbook.find? target = some sheet) (c : Code) :
    FilledBelow place sheet s.workbook
      (after (placeBlock (Session.document commit) layout target c) s).workbook := by
  refine after_placeBlock_of ?_
  intro place' sheet' hplace' hsheet'
  obtain rfl : place = place' := Option.some.inj (hplace.symm.trans hplace')
  obtain rfl : sheet = sheet' := Option.some.inj (hsheet.symm.trans hsheet')
  refine ⟨?_, keeps_filledBelow_pasteFound hne c⟩
  intro b
  refine keeps_filledFrom_source hne ?_ b
  exact (Sheet.keeps_findTagged layout.tagColumn_pos c.baseType).mono fun _ _ h => h.toAlike

/-- A block is appended to its target, even if its placing stops on the way. -/
theorem appends_placeBlock (commit : Session.Action ρ Unit) (hne : target ≠ layout.templateSheet)
    (c : Code) (s : Session ρ) :
    s.workbook.Appends layout.templateSheet target
      (after (placeBlock (Session.document commit) layout target c) s).workbook := by
  by_cases hfound : ∃ place sheet, s.workbook.find? layout.templateSheet = some place ∧
      s.workbook.find? target = some sheet
  · rcases hfound with ⟨place, sheet, hplace, hsheet⟩
    have hplaces : place ≠ sheet := by
      rcases find?_eq_some_iff.mp hplace with ⟨t, ht⟩
      rcases find?_eq_some_iff.mp hsheet with ⟨u, hu⟩
      exact ht.place_ne hu hne.symm
    have hfilled := filledBelow_placeBlock commit hplaces hplace hsheet c
    exact hfilled.appends (titles_placeBlock layout commit target c s) hplace hsheet
  · -- without the two sheets nothing is worked on
    have hsame : s.workbook =
        (after (placeBlock (Session.document commit) layout target c) s).workbook :=
      after_placeBlock_of (R := (· = ·)) fun place sheet hplace hsheet =>
        absurd ⟨place, sheet, hplace, hsheet⟩ hfound
    rw [← hsame]
    exact .refl _ _ _

/-! ## A run -/

/-- Committing leaves the workbook as it is. -/
def Harmless (commit : Session.Action ρ Unit) : Prop :=
  ∀ s, (after commit s).workbook = s.workbook

/-- Storing the workbook does not change it. -/
theorem harmless_commit (output : String) : Harmless (Command.commit output) := by
  intro s
  rw [after, EStateM.run, Command.commit]
  by_cases h : output.isEmpty = true
  · rw [if_pos h]
  · rw [if_neg h]
    cases (s.workbook.store (.ofText output)).run s.store <;> rfl

/-- A tab is never made under the title of the template. -/
theorem target_ne_template {codes : List Code} {i : Nat}
    (htarget : (upTo (Session.document commit) layout codes s i).1.target = some target) :
    target ≠ layout.templateSheet := by
  have hall : ∀ name, (upTo (Session.document commit) layout codes s i).1.target = some name →
      name ≠ layout.templateSheet := by
    refine stepAll_induction (I := fun p _ => ∀ name, p.target = some name →
      name ≠ layout.templateSheet) _ _ ?_ nofun
    intro i c _ p state hp name hname
    rw [step_target] at hname
    split at hname
    next made hmade =>
      cases hname
      rcases (verdict_eq_tab_iff _ _).mp hmade with ⟨-, -, hmake, -⟩
      have hrun := (tabRun_makeTab layout commit name state).1
      rw [hmake] at hrun
      exact hrun.of_made.1
    next => exact hp name hname
  exact hall target htarget

theorem Harmless.appends_step (hcommit : Harmless commit) {p : Progress} {index : Nat} {c : Code}
    (hc : ¬IsTab c) (htarget : p.target = some target) (hne : target ≠ layout.templateSheet) :
    (step (Session.document commit) layout p index c s).1.target = some target ∧
      s.workbook.Appends layout.templateSheet target
        (step (Session.document commit) layout p index c s).2.workbook := by
  rcases isTab_or_isBlock c with hmodel | htab | hblock
  · rw [step_target, step_snd, verdict, carryOut_model _ hmodel]
    exact ⟨htarget, .refl _ _ _⟩
  · exact absurd htab hc
  · have happends := appends_placeBlock commit hne c s
    constructor
    · rw [step_target]
      split
      next hmade => exact absurd ((verdict_eq_tab_iff _ _).mp hmade).1 hc
      next => exact htarget
    · rw [step_snd_block _ _ hblock htarget]
      dsimp only
      split
      · have hsame := hcommit (after (placeBlock (Session.document commit) layout target c) s)
        exact hsame ▸ happends
      · exact happends

theorem Harmless.appends_upTo (hcommit : Harmless commit) {codes : List Code} {i d : Nat}
    (hcodes : ∀ k c, i ≤ k → k < i + d → codes[k]? = some c → ¬IsTab c)
    (htarget : (upTo (Session.document commit) layout codes s i).1.target = some target) :
    (upTo (Session.document commit) layout codes s (i + d)).1.target = some target ∧
      (upTo (Session.document commit) layout codes s i).2.workbook.Appends layout.templateSheet
        target (upTo (Session.document commit) layout codes s (i + d)).2.workbook := by
  -- up to the next code the target is still the same one, so the next block is appended to it
  induction d with
  | zero => exact ⟨htarget, .refl _ _ _⟩
  | succ d ih =>
    rcases ih fun k c hik hk => hcodes k c hik (by omega) with ⟨hreached, happends⟩
    rw [← Nat.add_assoc]
    cases hc : codes[i + d]? with
    | none =>
      have hlength := List.getElem?_eq_none_iff.mp hc
      rw [upTo_of_le _ _ (by omega), ← upTo_of_le _ _ hlength]
      exact ⟨hreached, happends⟩
    | some c =>
      rw [upTo_succ _ _ hc]
      have hother := hcodes (i + d) c (by omega) (by omega) hc
      rcases hcommit.appends_step hother hreached (target_ne_template htarget) with
        ⟨hreached', happends'⟩
      exact ⟨hreached', happends.trans happends'⟩

/-- From any point of a run up to the next `TAB` code, whatever the codes come to, the target only
grows at its end, the template shows the same and all other sheets are untouched. Hence a cell of
the target that is in use at some point of a section stays as it is. -/
theorem blocks_append (hcommit : Harmless commit) (layout : Layout) (codes : List Code)
    (s : Session ρ) {i j : Nat} (hij : i ≤ j)
    (hcodes : ∀ k c, i ≤ k → k < j → codes[k]? = some c → ¬IsTab c) {target : String}
    (htarget : (upTo (Session.document commit) layout codes s i).1.target = some target) :
    let before := (upTo (Session.document commit) layout codes s i).2.workbook
    let behind := (upTo (Session.document commit) layout codes s j).2.workbook
    before.Appends layout.templateSheet target behind ∧
      ∀ u, before.titled? target = some u → ∃ v, behind.titled? target = some v ∧
        ∀ p, (u.value p).isUsed = true → v.cell p = u.cell p := by
  intro before behind
  obtain ⟨d, rfl⟩ := Nat.exists_eq_add_of_le hij
  have happends : before.Appends layout.templateSheet target behind :=
    (hcommit.appends_upTo hcodes htarget).2
  refine ⟨happends, fun u hu => ?_⟩
  rcases titled?_eq_some_iff.mp hu with ⟨place, hplace⟩
  rcases happends.grown place u hplace with ⟨v, hv, habove⟩
  refine ⟨v, hv.titled?_eq, fun p hp => habove.cell_eq p ?_⟩
  have hrow := Sheet.lastUsed_le_iff.mp (Nat.le_refl u.lastUsed) p hp
  omega

/-- A second break goes below the first one, which stays as it is. -/
theorem blocks_append_breaks :
    let codes := [tabCode "A", breakCode, breakCode]
    let s : Session Files.Tree := ⟨⟨[breaks "Codes"]⟩, {}⟩
    let reached := upTo (Session.document (Command.commit "")) {} codes s
    Harmless (Command.commit "") ∧ (reached 2).1.target = some "A" ∧
      ((reached 2).2.workbook.titled? "A").map (·.lastUsed) = some 1 ∧
      ((reached 3).2.workbook.titled? "A").map (·.lastUsed) = some 2 ∧
      (reached 2).2.workbook.Appends "Codes" "A" (reached 3).2.workbook := by
  intro codes s reached
  have hcommit := harmless_commit ""
  have hcodes : ∀ k c, 2 ≤ k → k < 3 → codes[k]? = some c → ¬IsTab c := by
    intro k c hk hk' hc
    obtain rfl : k = 2 := by omega
    obtain rfl : breakCode = c := Option.some.inj hc
    decide +kernel
  have htarget : (reached 2).1.target = some "A" := by
    decide +kernel
  refine ⟨hcommit, htarget, by decide +kernel, by decide +kernel, ?_⟩
  exact (blocks_append hcommit {} codes s (by omega) hcodes htarget).1

end Sheetwright.Run
