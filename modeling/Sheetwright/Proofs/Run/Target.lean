import Sheetwright.Proofs.Run.Placing
/-!
# The target of a run

The title that a run notes for a tab is the wanted one, while the sheet may have been given a number
besides. `created_target_iff` says when the sheet that was made is the one found under the noted
title, that it is then found for as long as its section lasts, and that otherwise the first block of
the section has no destination.
-/

namespace Sheetwright.Run

open Grid Operation Workbook

variable {ρ : Type} {layout : Layout} {commit : Session.Action ρ Unit} {name title : String}

/-! ## One tab -/

/-- A tab of a title leads to a sheet of exactly this title: there is another one, or the copy of
the template gets the title as it is. -/
def Attains (layout : Layout) (name : String) (b : Workbook) : Prop :=
  name ∈ (b.without name).titles ∨
    (b.without name).copyFault? layout.templateSheet = none ∧
      (b.without name).tabTitle layout.templateSheet name = name

/-- A title that is given as it is has no numbers behind it that could be exhausted. -/
theorem not_exhausted_of_tabTitle {b : Workbook} {template : String}
    (h : b.tabTitle template name = name) (hne : name ≠ b.copyTitle template) :
    ¬Title.Exhausted (b.titles ++ [b.copyTitle template]) name := by
  rw [tabTitle, givenTitle, if_neg hne, Title.numbered_eq_self_iff] at h
  exact Title.not_exhausted_of_nil h

theorem mem_titles_copied {b : Workbook} {place : Nat} {copy : Sheet} (h : title ∈ b.titles) :
    title ∈ (b.copied place copy).titles := by
  rw [titles_copied]
  exact List.mem_append_left _ h

theorem mem_titles_takenBack {b : Workbook} {place : Nat} {copy : Sheet} (h : title ∈ b.titles) :
    title ∈ ((b.copied place copy).without copy.title).titles := by
  rw [← titles_framed b place] at h
  exact mem_titles_without_append h copy

/-- A tab removes no sheet of another title, even if it fails. -/
theorem TabRun.mem_titles {b b' : Workbook} {r : Except Failure Unit}
    (h : TabRun layout name b r b') (hne : name ≠ title) (hmem : title ∈ b.titles) :
    title ∈ b'.titles := by
  have hbefore : title ∈ (b.without name).titles := (mem_titles_without hne).mpr hmem
  cases h with
  | overwrites => exact hmem
  | missing => exact hbefore
  | uncopied => exact hbefore
  | refused => exact mem_titles_takenBack hbefore
  | uncleared => exact mem_titles_copied hbefore
  | made => exact mem_titles_copied hbefore

/-- A tab never removes the template. -/
theorem TabRun.mem_template {b b' : Workbook} {r : Except Failure Unit}
    (h : TabRun layout name b r b') (hmem : layout.templateSheet ∈ b.titles) :
    layout.templateSheet ∈ b'.titles := by
  by_cases hne : name = layout.templateSheet
  · cases h with
    | overwrites => exact hmem
    | missing h => exact absurd hne h
    | uncopied h => exact absurd hne h
    | refused h => exact absurd hne h
    | uncleared h => exact absurd hne h
    | made h => exact absurd hne h
  · exact h.mem_titles hne hmem

/-- A tab that attains its title does so even if it fails. -/
theorem TabRun.mem_titles_of_attains {b b' : Workbook} {r : Except Failure Unit}
    (h : TabRun layout name b r b') (hne : name ≠ layout.templateSheet)
    (htemplate : layout.templateSheet ∈ b.titles) (hname : Title.fault? name = none)
    (hattains : Attains layout name b) : name ∈ b'.titles := by
  -- with its rows cleared or not, the copy has the title that it was given
  have hcopied {place : Nat} {t u : Sheet} {r : Except Fault Unit}
      (hrun : (Sheet.clearFrom layout.dataStartRow).run
        ((b.without name).tabSheet layout.templateSheet name t) = ending r u) :
      name ∈ ((b.without name).copied place u).titles := by
    rw [titles_copied, List.mem_append, List.mem_singleton, title_of_clearFrom hrun]
    exact hattains.imp id fun h => h.2.symm
  cases h with
  | overwrites h => exact absurd h hne
  | missing _ h => exact absurd ((mem_titles_without hne).mpr htemplate) h
  | uncopied _ _ h =>
    rcases hattains with hmem | ⟨hcopy, -⟩
    · exact hmem
    · cases hcopy.symm.trans h
  | refused _ _ _ h =>
    refine mem_titles_takenBack (by_contra fun hfree => ?_)
    have htitle := (hattains.resolve_left hfree).2
    rw [tabFault?_eq_none_iff.mpr
      ⟨fun hmem => absurd hmem hfree, hname, not_exhausted_of_tabTitle htitle⟩] at h
    cases h
  | uncleared _ _ _ _ h => exact hcopied (r := .error _) h
  | made _ _ _ _ h => exact hcopied (r := .ok ()) h

/-- When the sheet that a tab made is the one found under the title of the tab, and when there is
a sheet of this title at all. -/
theorem TabRun.find?_iff {b b' : Workbook} (h : TabRun layout name b (.ok ()) b') :
    (b'.find? name = some (b.without name).sheets.length ↔ name ∉ (b.without name).titles ∧
        (b.without name).tabTitle layout.templateSheet name = name) ∧
      (name ∈ b'.titles ↔ Attains layout name b) := by
  cases h with
  | @made place t u _ _ hcopy _ h =>
    have htitle : u.title = (b.without name).tabTitle layout.templateSheet name :=
      title_of_clearFrom (r := .ok ()) h
    refine ⟨?_, ?_⟩
    · rw [← length_framed _ place, copied, find?_append_eq_length_iff, titles_framed, htitle]
    · rw [titles_copied, List.mem_append, List.mem_singleton, htitle, eq_comm, Attains,
        and_iff_right hcopy]

/-! ## One block -/

/-- The operation does not fail for want of a destination. -/
def Arrives {α : Type} (x : EStateM Failure (Session ρ) α) : Prop :=
  Meets (fun _ => True) x (fun _ _ => True) fun failure _ => ∀ title, failure ≠ .noDestination title

theorem arrives_ask {α : Type} (x : Session.Action ρ α) : Arrives (ask x) :=
  failsAs_ask (fun _ _ => nofun) x

theorem arrives_pasteFound (place sheet : Nat) (c : Code) (found : Option (Nat × Nat)) :
    Arrives (pasteFound (Session.document commit) layout place sheet c found) :=
  failsAs_pasteFound _ _ (fun _ _ => nofun) place sheet (fun _ => nofun) found

theorem outcome_placeBlock_iff (commit : Session.Action ρ Unit) {target : String} (c : Code)
    {s : Session ρ} :
    outcome (placeBlock (Session.document commit) layout target c) s =
        .error (.noDestination target) ↔
      layout.templateSheet ∈ s.workbook.titles ∧ target ∉ s.workbook.titles := by
  rw [placeBlock_eq, outcome_bind, outcome_require, after_require]
  by_cases htemplate : layout.templateSheet ∈ s.workbook.titles
  · rcases exists_stands_iff.mpr htemplate with ⟨place, t, ht⟩
    rw [ht.find?_eq]
    dsimp only
    rw [outcome_bind, outcome_require, after_require]
    by_cases htarget : target ∈ s.workbook.titles
    · rcases exists_stands_iff.mpr htarget with ⟨sheet, u, hu⟩
      rw [hu.find?_eq]
      refine iff_of_false ?_ fun h => h.2 htarget
      -- once both sheets are there, no later part asks for one
      have harrives : Arrives (ask ((Session.document commit).findTagged place layout.tagColumn
          c.baseType) >>= pasteFound (Session.document commit) layout place sheet c) :=
        Meets.bind (arrives_ask _) fun found => arrives_pasteFound place sheet c found
      have h := harrives.outcome (s := s) trivial
      intro hfailed
      dsimp only at hfailed
      rw [hfailed] at h
      exact h target rfl
    · rw [find?_eq_none_iff.mpr htarget]
      exact iff_of_true rfl ⟨htemplate, htarget⟩
  · rw [find?_eq_none_iff.mpr htemplate]
    exact iff_of_false nofun fun h => htemplate h.1

/-! ## Sections -/

theorem verdict_eq_noDestination_iff {p : Progress} {target : String} (hp : p.target = some target)
    {c : Code} (hc : IsBlock c) {index : Nat} {s : Session ρ} :
    verdict (Session.document commit) layout p index c s = .error (.noDestination target) ↔
      layout.templateSheet ∈ s.workbook.titles ∧ target ∉ s.workbook.titles := by
  rw [← outcome_placeBlock_iff commit c, verdict_block _ _ hc hp]
  dsimp only
  cases outcome (placeBlock (Session.document commit) layout target c) s with
  | ok _ =>
    -- a commit fails with a fault of the document only
    refine iff_of_false (fun h => ?_) nofun
    rcases document_of_committed _ h with ⟨fault, hfault⟩
    cases hfault
  | error failure =>
    rw [Except.error.injEq, Except.error.injEq]

/-- The template and the target are there. -/
structure Present (layout : Layout) (name : String) (s : Session ρ) : Prop where
  template : layout.templateSheet ∈ s.workbook.titles
  target : name ∈ s.workbook.titles

/-- Committing removes no title. -/
def KeepsTitles (commit : Session.Action ρ Unit) : Prop :=
  ∀ s title, title ∈ s.workbook.titles → title ∈ (after commit s).workbook.titles

theorem Present.after_commit {s : Session ρ} (h : Present layout name s)
    (hcommit : KeepsTitles commit) : Present layout name (after commit s) :=
  ⟨hcommit s _ h.template, hcommit s _ h.target⟩

theorem Present.after_makeTab (commit : Session.Action ρ Unit) {s : Session ρ}
    (h : Present layout name s) (hne : name ≠ layout.templateSheet)
    (hname : Title.fault? name = none) (other : String)
    (hattempt : other = name → Attains layout name s.workbook) :
    Present layout name (after (makeTab (Session.document commit) layout other) s) := by
  have hrun := (tabRun_makeTab layout commit other s).1
  refine ⟨hrun.mem_template h.template, ?_⟩
  by_cases htarget : other = name
  · subst htarget
    exact hrun.mem_titles_of_attains hne h.template hname (hattempt rfl)
  · exact hrun.mem_titles htarget h.target

theorem Present.after_placeBlock (commit : Session.Action ρ Unit) {s : Session ρ}
    (h : Present layout name s) (target : String) (c : Code) :
    Present layout name (after (placeBlock (Session.document commit) layout target c) s) := by
  have hstay := titles_placeBlock layout commit target c s
  refine ⟨?_, ?_⟩
  · rw [hstay]
    exact h.template
  · rw [hstay]
    exact h.target

/-- A code leaves template and target there, unless it tries to make the target anew and the new
sheet gets another title. -/
theorem Present.after_step (hcommit : KeepsTitles commit) (hne : name ≠ layout.templateSheet)
    (hname : Title.fault? name = none) {p : Progress} {index : Nat} {c : Code} {s : Session ρ}
    (h : Present layout name s)
    (hattempt : IsTab c → tabName layout index c = name → Attains layout name s.workbook) :
    Present layout name (step (Session.document commit) layout p index c s).2 :=
  step_snd_of _ _ h
    (fun htab => Present.after_makeTab commit h hne hname _ (hattempt htab))
    (fun target _ _ => Present.after_placeBlock commit h target c)
    fun _ hs => hs.after_commit hcommit

/-- The codes make no tab, and any of them that tries to make the tab of a title attains it. -/
def Undisturbed (commit : Session.Action ρ Unit) (layout : Layout) (name : String) :
    Progress → Nat → List Code → Session ρ → Prop
  | _, _, [], _ => True
  | p, index, c :: rest, s =>
    (∀ other, verdict (Session.document commit) layout p index c s ≠ .ok (.tab other)) ∧
      (IsTab c → tabName layout index c = name → Attains layout name s.workbook) ∧
      Undisturbed commit layout name (step (Session.document commit) layout p index c s).1
        (index + 1) rest (step (Session.document commit) layout p index c s).2

theorem Present.after_stepAll (hcommit : KeepsTitles commit) (hne : name ≠ layout.templateSheet)
    (hname : Title.fault? name = none) {p : Progress} {index : Nat} {codes : List Code}
    {s : Session ρ} (h : Present layout name s) (hp : p.target = some name)
    (hcodes : Undisturbed commit layout name p index codes s) :
    Present layout name (stepAll (Session.document commit) layout p index codes s).2 ∧
      (stepAll (Session.document commit) layout p index codes s).1.target = some name := by
  induction codes generalizing p index s with
  | nil => exact ⟨h, hp⟩
  | cons c codes ih =>
    rcases hcodes with ⟨hnone, hattempt, hrest⟩
    have htarget : (step (Session.document commit) layout p index c s).1.target = some name := by
      rw [step_target]
      split
      next other hother => exact absurd hother (hnone other)
      next => exact hp
    exact ih (h.after_step hcommit hne hname hattempt) htarget hrest

/-- A code that makes a tab notes its title as target. The sheet that was made is the one found
under this title exactly if no other sheet has the title and the sheet got it without a number. If
there is a sheet of the title, it stays for the whole section and no block of it fails for want of a
destination; if there is none, the first block fails. -/
theorem created_target_iff (hcommit : KeepsTitles commit) {p : Progress} {index : Nat} {c : Code}
    {s : Session ρ}
    (h : verdict (Session.document commit) layout p index c s = .ok (.tab name)) :
    let made := (after (makeTab (Session.document commit) layout name) s).workbook
    let next := step (Session.document commit) layout p index c s
    next.1.result.createdTargets = p.result.createdTargets ++ [name] ∧
      (made.find? name = some (s.workbook.without name).sheets.length ↔
        name ∉ (s.workbook.without name).titles ∧
          (s.workbook.without name).tabTitle layout.templateSheet name = name) ∧
      (name ∈ made.titles ↔ Attains layout name s.workbook) ∧
      (name ∈ made.titles → ∀ inside,
        Undisturbed commit layout name next.1 (index + 1) inside next.2 →
        let reached := stepAll (Session.document commit) layout next.1 (index + 1) inside next.2
        name ∈ reached.2.workbook.titles ∧ ∀ d, IsBlock d →
          verdict (Session.document commit) layout reached.1 (index + 1 + inside.length) d
            reached.2 ≠ .error (.noDestination name)) ∧
      (name ∉ next.2.workbook.titles → ∀ d, IsBlock d →
        verdict (Session.document commit) layout next.1 (index + 1) d next.2 =
          .error (.noDestination name)) := by
  intro made next
  rcases (verdict_eq_tab_iff _ _).mp h with ⟨-, -, hmake, -⟩
  have hrun := (tabRun_makeTab layout commit name s).1
  rw [hmake] at hrun
  rcases hrun.of_made with ⟨hne, htemplate, -, hfault⟩
  rcases hrun.find?_iff with ⟨hfind, hattains⟩
  obtain ⟨htarget, hstate⟩ : next.1.target = some name ∧
      next.2 = after commit (after (makeTab (Session.document commit) layout name) s) :=
    step_of_verdict_tab _ _ h
  have hremains : layout.templateSheet ∈ next.2.workbook.titles := by
    rw [hstate]
    exact hcommit _ _ (hrun.mem_template htemplate)
  refine ⟨?_, hfind, hattains, ?_, ?_⟩
  · rw [step_fst, h]
    rfl
  · intro hmem inside hinside
    have hpresent : Present layout name next.2 := by
      refine ⟨hremains, ?_⟩
      rw [hstate]
      exact hcommit _ _ hmem
    rcases hpresent.after_stepAll hcommit hne hfault htarget hinside with ⟨hreached, hp⟩
    refine ⟨hreached.target, fun d hd hfailed => ?_⟩
    exact ((verdict_eq_noDestination_iff hp hd).mp hfailed).2 hreached.target
  · intro hnot d hd
    exact (verdict_eq_noDestination_iff htarget hd).mpr ⟨hremains, hnot⟩

/-- A workbook with an empty template. -/
def sole : Session Unit := ⟨⟨[{ title := "Codes" }]⟩, ()⟩

/-- The sheet gets another title, and the first block looks for `codes` in vain. -/
theorem created_target_iff_lower :
    KeepsTitles (pure () : Session.Action Unit Unit) ∧
      verdict (Session.document (pure ())) {} {} 0 (tabCode "codes") sole = .ok (.tab "codes") ∧
      ∀ d, IsBlock d → verdict (Session.document (pure ())) {}
        (step (Session.document (pure ())) {} {} 0 (tabCode "codes") sole).1 1 d
        (step (Session.document (pure ())) {} {} 0 (tabCode "codes") sole).2 =
          .error (.noDestination "codes") := by
  have hcommit : KeepsTitles (pure () : Session.Action Unit Unit) := fun _ _ h => h
  have hverdict : verdict (Session.document (pure ())) {} {} 0 (tabCode "codes") sole =
      .ok (.tab "codes") := by
    decide +kernel
  rcases created_target_iff hcommit hverdict with ⟨-, -, -, -, hfails⟩
  exact ⟨hcommit, hverdict, hfails (by decide +kernel)⟩

end Sheetwright.Run
