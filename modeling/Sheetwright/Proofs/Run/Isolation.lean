import Sheetwright.Proofs.Run.Apart
import Sheetwright.Proofs.Run.Sections
/-!
# Sections apart from each other

`section_isolated` takes a section out of each of two runs and says that nothing but the template
and the blocks of the section matter to it. Whatever the runs do before and after, and whatever
sheets they start from, the blocks come to the same and fill the same sheet. The templates must have
their merged ranges among their cells and a title that the search for numbers can tell from others;
`not_isolating` shows what happens otherwise.
-/

namespace Sheetwright.Run

open Grid Operation Workbook

variable {ρ ρ' : Type} {layout : Layout} {commit : Session.Action ρ Unit}
  {commit' : Session.Action ρ' Unit} {name : String} {s : Session ρ} {s' : Session ρ'}
  {t u u' : Sheet}

/-! ## Opening a section -/

/-- The tab of a section is made of the template as it has grown so far. -/
theorem IsSection.opened {x : Split} (h : IsSection commit layout name x s)
    (hcommit : Faithful commit) (ht : t.Anchored layout.dataStartRow)
    (hdistinct : Distinct layout.templateSheet name)
    (hs : s.workbook.Kept (t.Grown layout.dataStartRow layout.tagColumn) layout.templateSheet) :
    layout.templateSheet ≠ name ∧
      (x.opened (Session.document commit) layout s).1.target = some name ∧
      ∃ b v u, t.Grown layout.dataStartRow layout.tagColumn v ∧
        (Sheet.clearFrom layout.dataStartRow).run
          (tabSheet b layout.templateSheet name v) = .ok () u ∧
        Ready layout t name u (x.opened (Session.document commit) layout s).2.workbook := by
  -- up to the tab the template has only grown
  have hreached := (robust_grown hcommit t).kept_stepAll {} 0 x.before
    (fun _ _ _ _ _ hv => hv.frame ht) nofun hs
  rcases (verdict_eq_tab_iff _ _).mp h.makes with ⟨-, -, hmake, -⟩
  rcases step_of_verdict_tab _ _ h.makes with ⟨htarget, hstate⟩
  have hrun := (tabRun_makeTab layout commit name
    (x.reached (Session.document commit) layout s).2).1
  rw [hmake] at hrun
  rcases hrun.of_made with ⟨hne, -, hcopy, -⟩
  rcases hrun.titled?_self hdistinct h.attains with ⟨v, u, hv, hclear, hu⟩
  have hgrown : t.Grown layout.dataStartRow layout.tagColumn v := by
    rcases kept_iff.mp hreached.2 with ⟨w, hw, hgrown⟩
    obtain rfl : w = v := Option.some.inj (hw.symm.trans hv)
    exact hgrown
  -- making the tab has framed the template, so that it counts as copied from here on
  have htemplate := hrun.titled?_template hne hcopy hv
  refine ⟨hne.symm, htarget, _, v, u, hgrown, hclear, ?_, ?_⟩
  · rw [Split.opened, hstate]
    refine hcommit.kept (kept_iff.mpr ⟨v.frame, htemplate, ?_, v.seated_frame⟩)
    exact hgrown.frame ht
  · rw [Split.opened, hstate]
    exact (hcommit _).2 name u hu

/-! ## Inside a section -/

/-- A run is inside a section: blocks go to the sheet of its title, which has some content. -/
structure Within (layout : Layout) (t : Sheet) (name : String) (u : Sheet)
    (x : Progress × Session ρ) : Prop where
  target : x.1.target = some name
  ready : Ready layout t name u x.2.workbook

/-- Two runs are inside sections of one title, and the sheets of the title have the same content. -/
def Level (layout : Layout) (t : Sheet) (name : String) (x : Progress × Session ρ)
    (y : Progress × Session ρ') : Prop :=
  ∃ u u', Within layout t name u x ∧ Within layout t name u' y ∧ u.SameContent u'

/-- What the sections of two runs assume of the runs and of the template. -/
structure Setting (commit : Session.Action ρ Unit) (layout : Layout) (name : String) (t : Sheet) :
    Prop where
  faithful : Faithful commit
  anchored : t.Anchored layout.dataStartRow
  distinct : Distinct layout.templateSheet name
  apart : layout.templateSheet ≠ name

/-- A code that places no block changes nothing inside a section. -/
theorem Within.step_other (hsetting : Setting commit layout name t) {p : Progress} {index : Nat}
    {c : Code} (hc : ¬IsBlock c)
    (hquiet : ∀ other, verdict (Session.document commit) layout p index c s ≠ .ok (.tab other))
    (hname : IsTab c → tabName layout index c ≠ name) (h : Within layout t name u (p, s)) :
    Within layout t name u (step (Session.document commit) layout p index c s) where
  target := by
    rw [step_target]
    split
    next other hother => exact absurd hother (hquiet other)
    next => exact h.target
  ready := by
    -- the sheet that is filled is not the template
    have htarget : p.target ≠ some layout.templateSheet := by
      intro hp
      exact hsetting.apart (Option.some.inj (hp.symm.trans h.target))
    refine h.ready.step hsetting.faithful hsetting.anchored hsetting.apart hsetting.distinct ?_
      htarget
    exact ⟨hname, fun hblock => absurd hblock hc⟩

theorem placeBlock_congr {σ κ : Type} (doc : Document σ κ) (target : String) {c c' : Code}
    (h : (c.baseType, c.driver, c.assumptions) = (c'.baseType, c'.driver, c'.assumptions)) :
    placeBlock doc layout target c = placeBlock doc layout target c' := by
  rw [Prod.mk.injEq, Prod.mk.injEq] at h
  rcases h with ⟨htype, hdriver, hassumptions⟩
  rw [placeBlock, placeBlock, htype, hdriver, Code.assumptionValues, Code.assumptionValues,
    hassumptions]

/-- A block inside a section comes to what placing it comes to, and leaves what that leaves. -/
theorem Within.step_block (hcommit : Faithful commit) {p : Progress} (index : Nat) {c : Code}
    (hc : IsBlock c) (h : Within layout t name u (p, s)) {w : Sheet}
    (hw : Ready layout t name w
      (after (placeBlock (Session.document commit) layout name c) s).workbook) :
    verdict (Session.document commit) layout p index c s =
        (outcome (placeBlock (Session.document commit) layout name c) s).map (fun _ => .block) ∧
      Within layout t name w (step (Session.document commit) layout p index c s) := by
  have hverdict := verdict_block (Session.document commit) layout hc h.target index s
  have hstate := step_snd_block (Session.document commit) layout hc h.target index s
  dsimp only at hverdict hstate
  -- a block that was placed is committed, which takes no sheet away
  cases hplace : outcome (placeBlock (Session.document commit) layout name c) s with
  | ok _ =>
    rw [hplace] at hverdict hstate
    dsimp only at hverdict hstate
    rw [hcommit.committed_eq] at hverdict
    refine ⟨hverdict, ?_, ?_⟩
    · rw [step_target, hverdict]
      exact h.target
    · rw [hstate]
      exact ⟨hcommit.kept hw.template, (hcommit _).2 name w hw.target⟩
  | error failure =>
    rw [hplace] at hverdict hstate
    refine ⟨hverdict, ?_, ?_⟩
    · rw [step_target, hverdict]
      exact h.target
    · rw [hstate]
      exact hw

/-- Codes that place no blocks change nothing inside a section. -/
theorem Within.stepAll_idle (hsetting : Setting commit layout name t) {p : Progress} {index : Nat}
    {codes : List Code} (hidle : ∀ c ∈ codes, blockOf? c = none)
    (hquiet : Quiet (Session.document commit) layout p index codes s)
    (hname : Unclaimed layout name index codes) (h : Within layout t name u (p, s)) :
    Within layout t name u (stepAll (Session.document commit) layout p index codes s) := by
  induction codes generalizing p index s with
  | nil => exact h
  | cons c codes ih =>
    rw [List.forall_mem_cons] at hidle
    rcases hquiet with ⟨hc, hrest⟩
    exact ih hidle.2 hrest hname.2
      (h.step_other hsetting (blockOf?_eq_none_iff.mp hidle.1) hc hname.1)

theorem Level.stepAll_idle (hsetting : Setting commit layout name t)
    (hsetting' : Setting commit' layout name t) {p p' : Progress} {index index' : Nat}
    {codes codes' : List Code} (hidle : ∀ c ∈ codes, blockOf? c = none)
    (hidle' : ∀ c ∈ codes', blockOf? c = none)
    (hquiet : Quiet (Session.document commit) layout p index codes s)
    (hquiet' : Quiet (Session.document commit') layout p' index' codes' s')
    (hname : Unclaimed layout name index codes) (hname' : Unclaimed layout name index' codes')
    (h : Level layout t name (p, s) (p', s')) :
    Level layout t name (stepAll (Session.document commit) layout p index codes s)
      (stepAll (Session.document commit') layout p' index' codes' s') := by
  rcases h with ⟨u, u', hu, hu', hsame⟩
  refine ⟨u, u', ?_, ?_, hsame⟩
  · exact hu.stepAll_idle hsetting hidle hquiet hname
  · exact hu'.stepAll_idle hsetting' hidle' hquiet' hname'

/-- The same block in both sections. -/
theorem Level.step_block (hsetting : Setting commit layout name t)
    (hcommit' : Faithful commit') {p p' : Progress} (index index' : Nat) {c c' : Code}
    {b : String × String × String} (hc : blockOf? c = some b) (hc' : blockOf? c' = some b)
    (h : Level layout t name (p, s) (p', s')) :
    verdict (Session.document commit) layout p index c s =
        verdict (Session.document commit') layout p' index' c' s' ∧
      Level layout t name (step (Session.document commit) layout p index c s)
        (step (Session.document commit') layout p' index' c' s') := by
  rcases h with ⟨u, u', hu, hu', hsame⟩
  rcases blockOf?_eq_some_iff.mp hc with ⟨hblock, rfl⟩
  rcases blockOf?_eq_some_iff.mp hc' with ⟨hblock', horder⟩
  rcases placeBlock_abreast commit commit' hsetting.apart c hu.ready hu'.ready hsame with
    ⟨houtcome, w, w', hw, hw', hsame'⟩
  rw [← placeBlock_congr (Session.document commit') name horder] at houtcome hw'
  rcases hu.step_block hsetting.faithful index hblock hw with ⟨hverdict, hwithin⟩
  rcases hu'.step_block hcommit' index' hblock' hw' with ⟨hverdict', hwithin'⟩
  refine ⟨?_, w, w', hwithin, hwithin', hsame'⟩
  rw [hverdict, hverdict', houtcome]

/-- The same blocks in both sections, with whatever other codes between them. -/
theorem Level.stepAll (hsetting : Setting commit layout name t) (hcommit' : Faithful commit')
    {p p' : Progress} {index index' : Nat} {codes codes' : List Code}
    (hblocks : blocks codes = blocks codes')
    (hquiet : Quiet (Session.document commit) layout p index codes s)
    (hquiet' : Quiet (Session.document commit') layout p' index' codes' s')
    (hname : Unclaimed layout name index codes) (hname' : Unclaimed layout name index' codes')
    (h : Level layout t name (p, s) (p', s')) :
    verdicts (Session.document commit) layout p index codes s =
        verdicts (Session.document commit') layout p' index' codes' s' ∧
      Level layout t name (stepAll (Session.document commit) layout p index codes s)
        (stepAll (Session.document commit') layout p' index' codes' s') := by
  have hsetting' : Setting commit' layout name t := { hsetting with faithful := hcommit' }
  -- the other codes may lie anywhere, so the induction is on the blocks that both runs share
  generalize hbs : blocks codes = bs at hblocks
  induction bs generalizing p p' index index' codes codes' s s' with
  | nil =>
    -- no block is left, so both runs leave their sheets as they are
    have hidle := List.filterMap_eq_nil_iff.mp hbs
    have hidle' := List.filterMap_eq_nil_iff.mp hblocks.symm
    refine ⟨?_, h.stepAll_idle hsetting hsetting' hidle hidle' hquiet hquiet' hname hname'⟩
    rw [verdicts_idle hidle, verdicts_idle hidle']
  | cons b bs ih =>
    rcases List.filterMap_eq_cons_iff.mp hbs with ⟨idle, c, more, rfl, hidle, hc, hmore⟩
    rcases List.filterMap_eq_cons_iff.mp hblocks.symm with
      ⟨idle', c', more', rfl, hidle', hc', hmore'⟩
    rcases quiet_append.mp hquiet with ⟨hbefore, -, hbehind⟩
    rcases quiet_append.mp hquiet' with ⟨hbefore', -, hbehind'⟩
    rcases unclaimed_append.mp hname with ⟨hnames, hmany⟩
    rcases unclaimed_append.mp hname' with ⟨hnames', hmany'⟩
    -- up to the next block both runs stay as they are
    have hreached := h.stepAll_idle hsetting hsetting' hidle hidle' hbefore hbefore' hnames hnames'
    have hblock := hreached.step_block hsetting hcommit' (index + idle.length)
      (index' + idle'.length) hc hc'
    rcases hblock with ⟨hverdict, hnext⟩
    rcases ih hbehind hbehind' hmany.2 hmany'.2 hnext hmore hmore'.symm with ⟨hverdicts, hlast⟩
    rw [verdicts_append, verdicts_append, verdicts_idle hidle, verdicts_idle hidle', stepAll_append,
      stepAll_append, stepAll_cons, stepAll_cons, verdicts, verdicts, hc, hc', hverdict, hverdicts]
    exact ⟨rfl, hlast⟩

/-! ## After a section -/

/-- Once blocks go elsewhere, a sheet whose title no code claims stays as it is. -/
theorem titled?_stepAll_apart (hsetting : Setting commit layout name t) {p : Progress} {index : Nat}
    {codes : List Code} (hname : Unclaimed layout name index codes) (hp : p.target ≠ some name)
    (h : s.workbook.titled? name = some u) :
    (Run.stepAll (Session.document commit) layout p index codes s).2.workbook.titled? name =
      some u := by
  induction codes generalizing p index s with
  | nil => exact h
  | cons c codes ih =>
    -- a tab that is made here has another title
    have htarget : (step (Session.document commit) layout p index c s).1.target ≠ some name := by
      rw [step_target]
      split
      next other hother =>
        rcases (verdict_eq_tab_iff _ _).mp hother with ⟨htab, rfl, -⟩
        exact fun heq => hname.1 htab (Option.some.inj heq)
      next => exact hp
    have hc : Aside layout name p.target index c := ⟨hname.1, fun _ => hp⟩
    exact ih hname.2 htarget
      (titled?_step_apart hsetting.faithful hsetting.apart hsetting.distinct hc h)

/-- The sheet that a section has filled is the one at the end of the run. -/
theorem IsSection.titled?_execute {x : Split} (h : IsSection commit layout name x s)
    (hsetting : Setting commit layout name t)
    (hclosed : Within layout t name u (x.closed (Session.document commit) layout s)) :
    (execute (Session.document commit) layout x.codes s).2.workbook.titled? name = some u := by
  rw [Split.execute_codes]
  have hrest := (unclaimed_append.mp h.lasts).2
  rcases h.ends with hnil | ⟨d, more, other, hcons, hother⟩
  · rw [hnil]
    exact hclosed.ready.target
  · rw [hcons] at hrest ⊢
    -- the tab that ends the section turns the blocks away from the sheet
    rcases (verdict_eq_tab_iff _ _).mp hother with ⟨htab, rfl, -⟩
    have hd : tabName layout (x.before.length + 1 + x.inside.length) d ≠ name := hrest.1 htab
    rw [stepAll_cons]
    refine titled?_stepAll_apart hsetting hrest.2 ?_ ?_
    · rw [(step_of_verdict_tab _ _ hother).1]
      exact fun heq => hd (Option.some.inj heq)
    · refine titled?_step_apart hsetting.faithful hsetting.apart hsetting.distinct ?_
        hclosed.ready.target
      exact ⟨fun _ => hd, fun hblock => absurd htab hblock.2⟩

/-! ## Two runs -/

/-- The tabs of two sections lead to sheets of the same content. -/
theorem IsSection.level {x x' : Split} (h : IsSection commit layout name x s)
    (h' : IsSection commit' layout name x' s') (hcommit : Faithful commit)
    (hcommit' : Faithful commit') (ht : t.Anchored layout.dataStartRow)
    (hdistinct : Distinct layout.templateSheet name)
    (hs : s.workbook.Kept (t.Grown layout.dataStartRow layout.tagColumn) layout.templateSheet)
    (hs' : s'.workbook.Kept (t.Grown layout.dataStartRow layout.tagColumn)
      layout.templateSheet) :
    Setting commit layout name t ∧
      Level layout t name (x.opened (Session.document commit) layout s)
        (x'.opened (Session.document commit') layout s') := by
  rcases h.opened hcommit ht hdistinct hs with ⟨hne, htarget, b, v, u, hv, hclear, hu⟩
  rcases h'.opened hcommit' ht hdistinct hs' with ⟨-, htarget', b', v', u', hv', hclear', hu'⟩
  refine ⟨⟨hcommit, ht, hdistinct, hne⟩, u, u', ⟨htarget, hu⟩, ⟨htarget', hu'⟩, ?_⟩
  -- the two templates have grown from one sheet, so their copies hold the same
  have hcopies := sameContent_tabSheet b b' layout.templateSheet name
    (hv.content.symm.trans hv'.content)
  refine hcopies.clearFrom ?_ hclear hclear'
  -- the rows that are cleared begin at the same place and end at the same or are none at all
  have hrow (b : Workbook) (v : Sheet) :
      (b.tabSheet layout.templateSheet name v).maxRow = v.maxRow :=
    maxRow_copyOf v
  rw [hrow, hrow]
  rcases hv.maxRow_eq_or with hsame | ⟨hlow, hlow'⟩
  · rcases hv'.maxRow_eq_or with hsame' | ⟨hlow, hlow'⟩
    · exact Or.inl (hsame'.trans hsame.symm)
    · exact Or.inr ⟨hsame ▸ hlow, hlow'⟩
  · rcases hv'.maxRow_eq_or with hsame' | ⟨-, hhigh⟩
    · exact Or.inr ⟨hlow', hsame' ▸ hlow⟩
    · exact Or.inr ⟨hlow', hhigh⟩

/-- Where a second run may start: with a template of the same content and extent, or with what the
first run leaves. -/
def Restarts (commit : Session.Action ρ Unit) (layout : Layout) (t : Sheet) (codes : List Code)
    (s : Session ρ) (s' : Session ρ') : Prop :=
  (∃ t', s'.workbook.titled? layout.templateSheet = some t' ∧ t.SameContent t' ∧
    t'.maxRow = t.maxRow ∧ t'.maxColumn = t.maxColumn) ∨
  s'.workbook = (execute (Session.document commit) layout codes s).2.workbook

/-- The sheets under a title in two workbooks have the same content. -/
def SameUnder (name : String) (b b' : Workbook) : Prop :=
  ∃ u u', b.titled? name = some u ∧ b'.titled? name = some u' ∧ u.SameContent u'

theorem SameUnder.map_eq {α : Type} {f : Sheet → α} {b b' : Workbook} (h : SameUnder name b b')
    (hf : ∀ u u', u.SameContent u' → f u = f u') :
    (b.titled? name).map f = (b'.titled? name).map f := by
  rcases h with ⟨u, u', hu, hu', hsame⟩
  rw [hu, hu', Option.map_some, Option.map_some, hf u u' hsame]

theorem Restarts.kept {codes : List Code} (h : Restarts commit layout t codes s s')
    (hcommit : Faithful commit) (ht : t.Anchored layout.dataStartRow)
    (hs : s.workbook.Kept (t.Grown layout.dataStartRow layout.tagColumn) layout.templateSheet) :
    s'.workbook.Kept (t.Grown layout.dataStartRow layout.tagColumn) layout.templateSheet := by
  rcases h with ⟨t', ht', hsame, hrow, hcolumn⟩ | heq
  · exact kept_iff.mpr ⟨t', ht', .of_sameContent hsame hrow hcolumn⟩
  · have hend := (robust_grown hcommit t).kept_stepAll {} 0 codes
      (fun _ _ _ _ _ hv => hv.frame ht) nofun hs
    rw [heq, execute_snd]
    exact hend.2

/-- The section of a tab in one run and a section of a tab of the same title in another run, with
the same blocks in the same order: the blocks come to the same, and the sheets of the title have the
same content at the end of the runs. Nothing is assumed of the other codes of the runs, of their
places or of the other sheets that the runs start from. -/
theorem section_isolated {x x' : Split} (hcommit : Faithful commit) (hcommit' : Faithful commit')
    (h : IsSection commit layout name x s) (h' : IsSection commit' layout name x' s')
    (hblocks : blocks x.inside = blocks x'.inside)
    (ht : s.workbook.titled? layout.templateSheet = some t)
    (hstart : Restarts commit layout t x.codes s s')
    (hanchored : t.Anchored layout.dataStartRow)
    (hdistinct : Distinct layout.templateSheet name) :
    x.verdicts (Session.document commit) layout s =
        x'.verdicts (Session.document commit') layout s' ∧
      SameUnder name (execute (Session.document commit) layout x.codes s).2.workbook
        (execute (Session.document commit') layout x'.codes s').2.workbook := by
  -- both runs begin with a template that has grown, in the first one by nothing
  have hs : s.workbook.Kept (t.Grown layout.dataStartRow layout.tagColumn) layout.templateSheet :=
    kept_iff.mpr ⟨t, ht, .refl _ _ t⟩
  have hs' := hstart.kept hcommit hanchored hs
  rcases h.level h' hcommit hcommit' hanchored hdistinct hs hs' with ⟨hsetting, hopened⟩
  have hsetting' : Setting commit' layout name t := { hsetting with faithful := hcommit' }
  have hclosed := hopened.stepAll hsetting hcommit' hblocks h.quiet h'.quiet
    (unclaimed_append.mp h.lasts).1 (unclaimed_append.mp h'.lasts).1
  rcases hclosed with ⟨hverdicts, u, u', hu, hu', hsame⟩
  exact ⟨hverdicts, u, u', h.titled?_execute hsetting hu, h'.titled?_execute hsetting' hu', hsame⟩

/-- A section on its own. -/
def alone : Split := ⟨[], tabCode "n", [breakCode], []⟩

/-- The same section between others, with a code in it that does nothing. -/
def amid : Split where
  before := [tabCode "n", tabCode "m", breakCode]
  tab := tabCode "n"
  inside := [{ key := "1", baseType := modelType }, breakCode]
  rest := [tabCode "m", breakCode]

/-- The section comes to the same on its own and between others, where its title was in use. -/
theorem section_isolated_amid :
    let s : Session Unit := ⟨⟨[breaks "Codes"]⟩, ()⟩
    let s' : Session Unit := ⟨⟨[{ title := "n" }, breaks "Codes"]⟩, ()⟩
    IsSection (pure ()) {} "n" alone s ∧ IsSection (pure ()) {} "n" amid s' ∧
      alone.verdicts (Session.document (pure ())) {} s =
        amid.verdicts (Session.document (pure ())) {} s' ∧
      SameUnder "n" (execute (Session.document (pure ())) {} alone.codes s).2.workbook
        (execute (Session.document (pure ())) {} amid.codes s').2.workbook := by
  intro s s'
  have hcommit : Faithful (pure () : Session.Action Unit Unit) := fun _ => ⟨rfl, fun _ _ h => h⟩
  have halone : IsSection (pure ()) {} "n" alone s :=
    { makes := by decide +kernel
      attains := by decide +kernel
      quiet := quiet_of_not_isTab (by decide +kernel)
      ends := Or.inl rfl
      lasts := by decide +kernel }
  have hamid : IsSection (pure ()) {} "n" amid s' :=
    { makes := by decide +kernel
      attains := by decide +kernel
      quiet := quiet_of_not_isTab (by decide +kernel)
      ends := Or.inr ⟨_, _, "m", rfl, by decide +kernel⟩
      lasts := by decide +kernel }
  have ht : s.workbook.titled? "Codes" = some (breaks "Codes") :=
    List.find?_cons_of_pos (by decide +kernel)
  have ht' : s'.workbook.titled? "Codes" = some (breaks "Codes") := by
    rw [titled?, List.find?_cons_of_neg (by decide +kernel),
      List.find?_cons_of_pos (by decide +kernel)]
  refine ⟨halone, hamid, section_isolated hcommit hcommit halone hamid rfl ht ?_ ?_ ?_⟩
  · exact Or.inl ⟨_, ht', .refl _, rfl, rfl⟩
  · decide +kernel
  · exact Or.inl (by decide +kernel)

/-! ## Templates for which sections are not apart -/

/-- The law of isolation, for all templates and titles that meet a condition. -/
def Isolating (layout : Layout) (P : Sheet → String → Prop) : Prop :=
  ∀ (x x' : Split) (s s' : Session Unit) (t : Sheet) (name : String), P t name →
    IsSection (pure ()) layout name x s → IsSection (pure ()) layout name x' s' →
    blocks x.inside = blocks x'.inside →
    s.workbook.titled? layout.templateSheet = some t → Restarts (pure ()) layout t x.codes s s' →
    SameUnder name (execute (Session.document (pure ())) layout x.codes s).2.workbook
      (execute (Session.document (pure ())) layout x'.codes s').2.workbook

/-- A template with a merged range below all its cells. -/
def loose : Sheet :=
  { breaks "Codes" with merged := [⟨20, 4, 20, 4, by decide, by decide⟩] }

/-- The first copy of the template opens the anchor of the range, so that the range is cleared from
the second copy but not from the first one. -/
theorem not_isolating_loose : ¬Isolating {} fun _ name => Distinct "Codes" name := by
  intro h
  let s : Session Unit := ⟨⟨[loose]⟩, ()⟩
  have hfirst : IsSection (pure ()) {} "n" ⟨[], tabCode "n", [], []⟩ s :=
    { makes := by decide +kernel
      attains := by decide +kernel
      quiet := trivial
      ends := Or.inl rfl
      lasts := trivial }
  have hsecond : IsSection (pure ()) {} "n" ⟨[tabCode "m"], tabCode "n", [], []⟩ s :=
    { makes := by decide +kernel
      attains := by decide +kernel
      quiet := trivial
      ends := Or.inl rfl
      lasts := trivial }
  have ht : s.workbook.titled? "Codes" = some loose := List.find?_cons_of_pos (by decide +kernel)
  have hsame := h _ _ s s loose "n" (Or.inl (by decide +kernel)) hfirst hsecond rfl ht
    (Or.inl ⟨_, ht, .refl _, rfl, rfl⟩)
  have hmerged := hsame.map_eq fun _ _ hsame => hsame.merged_eq.symm
  revert hmerged
  decide +kernel

/-- A layout whose template has a comma in its title. -/
def commaLayout : Layout :=
  { (default : Layout) with
    templateSheet := "A Copy,A"
    templateSheet_ne := by decide }

/-- The template among sheets whose titles hide each other from the search for numbers. -/
def confused : Session Unit :=
  ⟨⟨[breaks "A Copy,A", { title := "A Copy,A Copy" }, { title := "A Copy" }]⟩, ()⟩

/-- A section with a tab that is refused. -/
def refusing : Split := ⟨[], tabCode "A Copy,A Copy1", [tabCode "a/b"], []⟩

/-- The copy for the refused tab gets the title of the sheet that was made before, and that sheet is
removed in place of the copy. -/
theorem not_isolating_comma :
    ¬Isolating commaLayout fun t _ => t.Anchored commaLayout.dataStartRow := by
  intro h
  have hplain : IsSection (pure ()) commaLayout "A Copy,A Copy1" { refusing with inside := [] }
      confused :=
    { makes := by decide +kernel
      attains := by decide +kernel
      quiet := trivial
      ends := Or.inl rfl
      lasts := trivial }
  have hrefusing : IsSection (pure ()) commaLayout "A Copy,A Copy1" refusing confused :=
    { makes := by decide +kernel
      attains := by decide +kernel
      quiet := by
        refine ⟨fun other hother => ?_, trivial⟩
        rcases (verdict_eq_tab_iff _ _).mp hother with ⟨-, rfl, hmake, -⟩
        revert hmake
        decide +kernel
      ends := Or.inl rfl
      lasts := by decide +kernel }
  have ht : confused.workbook.titled? "A Copy,A" = some (breaks "A Copy,A") :=
    List.find?_cons_of_pos (by decide +kernel)
  have hsame := h _ _ confused confused _ _ (by decide +kernel) hplain hrefusing rfl ht
    (Or.inl ⟨_, ht, .refl _, rfl, rfl⟩)
  have hvalue := hsame.map_eq fun _ _ hsame => (hsame.value_eq ⟨9, 4⟩).symm
  revert hvalue
  decide +kernel

/-- Neither of the two conditions on the template can be left out. -/
theorem not_isolating :
    (¬Isolating {} fun _ name => Distinct "Codes" name) ∧
      ¬Isolating commaLayout fun t _ => t.Anchored commaLayout.dataStartRow :=
  ⟨not_isolating_loose, not_isolating_comma⟩

end Sheetwright.Run
