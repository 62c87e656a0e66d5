import Sheetwright.Proofs.Run.Sealed
/-!
# Targets that stay intact

Between two codes all targets are sealed if the head of the template is. While a code is carried
out they need not be, but they stay consistent: a tab shows the values of the template from the
moment it is copied, and ranges are merged in a block when all of its cells are filled. The states
on the way are those that a watched document notes. So at any point of a run (`mem_points`) no
target loses a value when the workbook is stored (`intact_targets`).

A block goes below the last row that holds a value, whatever ranges reach below that row. So if a
range of the head does, values of the block come to lie on cells that it covers, and are lost when
the workbook is stored (`not_intact_targets`).
-/

namespace Sheetwright

open Grid Operation

/-- A consistent sheet, which gets all its values back when it is stored and opened again. -/
def Grid.Sheet.Intact (u : Sheet) : Prop :=
  u.Consistent ∧ ∀ p, u.stored.value p = (u.value p).stored

theorem Grid.Sheet.Consistent.intact {u : Sheet} (h : u.Consistent) : u.Intact :=
  ⟨h, h.value_stored⟩

namespace Run

open Workbook

variable {ρ α : Type} {layout : Layout} {commit : Session.Action ρ Unit} {name target : String}
  {c : Code} {codes : List Code} {s : Session ρ} {b : Workbook} {names : List String}
  {p q : Nat} {t u v : Sheet}

/-- The targets of these titles are consistent in every noted workbook. -/
abbrev Passing (names : List String) (A : Workbook → Prop) :
    Session ρ × List (Session ρ) → Prop :=
  Noting (Among Sheet.Consistent names) A

/-- They are, and nothing else is known. -/
abbrev Passed (names : List String) : Session ρ × List (Session ρ) → Prop :=
  Passing names fun _ => True

theorem consistent_of_sealed (h : b.Among Sheet.Sealed names) : b.Among Sheet.Consistent names :=
  h.mono fun _ hu => hu.toConsistent

/-- Whatever an operation does, it is noted where it starts. -/
theorem passing_last {x : Workbook.Action α} {A : Workbook → Prop}
    (hA : ∀ b, A b → b.Among Sheet.Consistent names) :
    Meets (Passing names A) (ask (watch (Session.onWorkbook (ρ := ρ) x))) (fun _ => Passed names)
      fun _ => Passed names :=
  meets_ask (Meets.trivially x) hA

/-! ## Making a tab -/

/-- The copy of the template is consistent before its rows are cleared, too. -/
theorem consistent_copied (hb : b.Among Sheet.Sealed names) (ht : t.WellMerged) (title : String)
    (place : Nat) :
    (b.copied place { copyOf t with title }).Among Sheet.Consistent names := by
  refine hb.copied place (fun _ hw => hw.toConsistent) ?_
  exact ht.toConsistent.of_value_eq (value_copyOf t) rfl

theorem meets_duplicate_copied (ht : b.Stands layout.templateSheet p t) :
    Meets (· = b) (Workbook.duplicate layout.templateSheet)
      (fun copy b' => copy = b.sheets.length ∧
        b' = b.copied p (b.copySheet layout.templateSheet t)) fun _ _ => True := by
  refine ⟨fun b' hb' => ?_⟩
  rw [hb', run_duplicate ht]
  cases b.copyFault? layout.templateSheet with
  | some fault => trivial
  | none => exact ⟨rfl, rfl⟩

theorem meets_rename_copied (layout : Layout) (name : String) (p : Nat) (b : Workbook) (t : Sheet) :
    Meets (· = b.copied p (b.copySheet layout.templateSheet t))
      (Workbook.rename b.sheets.length name)
      (fun _ b' => b' = b.copied p (b.tabSheet layout.templateSheet name t))
      fun _ b' => b' = b.copied p (b.copySheet layout.templateSheet t) := by
  refine ⟨?_⟩
  rintro _ rfl
  rw [run_rename_copied]
  cases b.tabFault? layout.templateSheet name <;> rfl

section

variable (hb : b.Among Sheet.Sealed names) (ht : t.WellMerged)

include hb ht

/-- Whether the copy gets its title or is taken back, its title is all that has changed. -/
theorem passing_titleCopy :
    Meets (Passing names (· = b.copied p (b.copySheet layout.templateSheet t)))
      (titleCopy (Session.document commit).watched b.sheets.length name)
      (fun _ => Passing names (· = b.copied p (b.tabSheet layout.templateSheet name t)))
      fun _ => Passed names := by
  have hG (b' : Workbook) (hb' : b' = b.copied p (b.copySheet layout.templateSheet t)) :
      b'.Among Sheet.Consistent names :=
    hb' ▸ consistent_copied hb ht _ p
  rw [titleCopy_eq]
  refine Meets.catching (meets_ask (meets_rename_copied layout name p b t) hG) fun failure => ?_
  refine Meets.ite (fun _ => ?_) fun _ => Meets.stop fun _ h => h.imp fun _ _ => trivial
  refine Meets.bind (meets_read (fun b' => (b'.sheet b.sheets.length).title) hG) fun found => ?_
  refine Meets.bind (passing_last fun b' hb' => hG b' hb'.1) fun _ => ?_
  exact Meets.stop fun _ h => h

theorem passing_trim :
    Meets (Passing names (· = b.copied p (b.tabSheet layout.templateSheet name t)))
      (trim (Session.document commit).watched layout b.sheets.length)
      (fun _ => Passed names) fun _ => Passed names := by
  have hG (b' : Workbook) (hb' : b' = b.copied p (b.tabSheet layout.templateSheet name t)) :
      b'.Among Sheet.Consistent names :=
    hb' ▸ consistent_copied hb ht _ p
  refine Meets.bind (meets_read (fun b' => (b'.sheet b.sheets.length).maxRow) hG) fun bottom => ?_
  refine Meets.ite (fun _ => passing_last fun b' hb' => hG b' hb'.1) fun _ => ?_
  exact Meets.done fun _ h => h.imp fun _ _ => trivial

theorem passing_copyTemplate (hs : b.Stands layout.templateSheet p t) :
    Meets (Passing names (· = b)) (copyTemplate (Session.document commit).watched layout name)
      (fun _ => Passed names) fun _ => Passed names := by
  have hduplicate := meets_ask (ρ := ρ) (G := Among Sheet.Consistent names)
    (meets_duplicate_copied hs) fun b' hb' => hb' ▸ consistent_of_sealed hb
  refine Meets.bind hduplicate fun copy => ?_
  refine Meets.assuming (fun _ h => h.now.1) fun hcopy => ?_
  subst hcopy
  refine Meets.bind ((passing_titleCopy (p := p) hb ht).conseq_pre ?_) fun _ => passing_trim hb ht
  exact fun _ h => h.imp fun _ h => h.2

end

theorem passing_makeTab (commit : Session.Action ρ Unit) (name : String)
    (htemplate : b.Kept Sheet.WellMerged layout.templateSheet)
    (hb : b.Among Sheet.Sealed names) :
    Meets (Passing names (· = b)) (makeTab (Session.document commit).watched layout name)
      (fun _ => Passed names) fun _ => Passed names := by
  rw [makeTab_eq]
  refine Meets.ite (fun _ => Meets.stop fun _ h => h.imp fun _ _ => trivial) fun hne => ?_
  have hvacate := meets_vacate (G := Among Sheet.Consistent names) commit
    (consistent_of_sealed hb) name
  refine Meets.bind (hvacate.conseq_stop fun _ _ h => h.imp fun _ _ => trivial) fun _ => ?_
  rcases kept_iff.mp htemplate with ⟨t, ht, hmerged⟩
  rw [← titled?_without_of_ne hne] at ht
  rcases titled?_eq_some_iff.mp ht with ⟨place, hplace⟩
  exact passing_copyTemplate (hb.without name) hmerged hplace

/-! ## Placing a block -/

/-- Between two operations of a block the template shows what it showed, and the target is as one of
the operations left it. -/
abbrev Filling (p q : Nat) (b : Workbook) (u : Sheet) (P R : Sheet → Prop) (b' : Workbook) : Prop :=
  Between p q P R b' ∧ FilledFrom (u.lastUsed + 1 : Nat) p q b b'

theorem passing_fill {x : Workbook.Action α} {P R P' R' : Sheet → Prop} {Q : α → Sheet → Prop}
    {Q' : α → Sheet → Prop} (hb : b.Among Sheet.Sealed names) (hu : b.sheet q = u)
    (hR : ∀ v, R v → u.SameAbove (u.lastUsed + 1 : Nat) v → v.Sealed)
    (hx : Meets (Between p q P R) x (fun a => Between p q (Q a) (Q' a)) fun _ => Between p q P' R')
    (hfilled : Keeps (FilledFrom (u.lastUsed + 1 : Nat) p q) x) :
    Meets (Passing names (Filling p q b u P R)) (ask (watch (Session.onWorkbook (ρ := ρ) x)))
      (fun a => Passing names (Filling p q b u (Q a) (Q' a))) fun _ => Passed names := by
  refine (meets_ask (hx.keeping hfilled b) ?_).conseq_stop fun _ _ h =>
    h.imp fun _ _ => trivial
  rintro b' ⟨hbetween, hkept⟩
  have habove := hkept.dest
  rw [hu] at habove
  exact consistent_of_sealed (hkept.among hb (hR _ hbetween.dest habove))

/-- What a search of the template has found, and how it leaves the template behind. -/
abbrev Searched (layout : Layout) (c : Code) (t : Sheet) (found : Option (Nat × Nat))
    (t' : Sheet) : Prop :=
  found = t.tagged? layout.tagColumn c.baseType ∧ t.Alike t' ∧
    (found.isSome → t'.maxColumn = t.maxColumn)

/-- Searching the template for the rows of a code. -/
theorem passing_search (commit : Session.Action ρ Unit) (hne : p ≠ q)
    (hb : b.Among Sheet.Sealed names) (hu : b.sheet q = u) (husealed : u.Sealed) :
    Meets (Passing names (Filling p q b u (· = t) (· = u)))
      (ask ((Session.document commit).watched.findTagged p layout.tagColumn c.baseType))
      (fun found => Passing names (Filling p q b u (Searched layout c t found) (· = u)))
      fun _ => Passed names := by
  have hsearch : Meets (· = t) (Sheet.findTagged layout.tagColumn c.baseType)
      (Searched layout c t) fun _ _ => False := by
    refine ⟨fun t' ht' => ?_⟩
    rw [ht', Sheet.run_findTagged_eq layout.tagColumn_pos]
    refine ⟨rfl, t.alike_allocateBlock _ _, fun hsome => ?_⟩
    rcases Option.isSome_iff_exists.mp hsome with ⟨rows, hrows⟩
    exact Sheet.maxColumn_of_tagged? hrows
  refine passing_fill hb hu ?_ (meets_source hne hsearch) ?_
  · rintro _ rfl _
    exact husealed
  · refine keeps_filledFrom_source hne ?_
    exact (Sheet.keeps_findTagged layout.tagColumn_pos c.baseType).mono fun _ _ h => h.toAlike

section

variable {first last : Nat} (commit : Session.Action ρ Unit) (hne : p ≠ q)
  (hb : b.Among Sheet.Sealed names) (hu : b.sheet q = u) (husealed : u.Sealed) (ht : t.Consistent)
  (hlasting : Lasting c.baseType) (hcolumn : layout.tagColumn ≠ layout.assumptionsColumn)
  (hfound : t.tagged? layout.tagColumn c.baseType = some (first, last))

include hne hb hu husealed ht hlasting hcolumn hfound

/-- Writing the driver and the assumptions into the copied rows. -/
theorem passing_fillIn :
    Meets (Passing names (Filling p q b u t.Alike
      (CopiedOver layout t u first last (pastedRanges layout t u first last))))
      (fillIn (Session.document commit).watched layout q (u.lastUsed + 1) c)
      (fun _ => Passed names) fun _ => Passed names := by
  -- what has been written is described with the copied rows it was written into
  let R : Sheet → Prop := fun v => ∃ w,
    CopiedOver layout t u first last (pastedRanges layout t u first last) w ∧
      w.Annotated (u.lastUsed + 1 : Nat) layout.assumptionsColumn v
  have hR (v : Sheet) (hv : R v) (habove : u.SameAbove (u.lastUsed + 1 : Nat) v) : v.Sealed := by
    rcases hv with ⟨w, hw, hwv⟩
    exact sealed_of_copied husealed ht hfound hlasting hcolumn (List.append_nil _).symm hw hwv
      habove
  have hstart (v : Sheet)
      (hv : CopiedOver layout t u first last (pastedRanges layout t u first last) v) : R v :=
    ⟨v, hv, refl_of (Sheet.Annotated _ _) v⟩
  refine Meets.conseq_pre (P := Passing names (Filling p q b u t.Alike R)) ?_
    fun _ h => h.imp fun _ h => ⟨h.1.mono_dest hstart, h.2⟩
  have hgoes (action : Sheet.Action Unit)
      (hkept : Keeps (Sheet.Annotated (u.lastUsed + 1 : Nat) layout.assumptionsColumn) action)
      (habove : Keeps (Sheet.SameAbove (u.lastUsed + 1 : Nat)) action) :
      Meets (Passing names (Filling p q b u t.Alike R))
        (ask (watch (Session.onWorkbook (ρ := ρ) (onSheet q action))))
        (fun _ => Passing names (Filling p q b u t.Alike R)) fun _ => Passed names := by
    refine passing_fill hb hu hR (meets_dest hne (hkept.meets ?_))
      (keeps_filledFrom_dest hne habove)
    rintro v v' ⟨w, hw, hwv⟩ hvv'
    exact ⟨w, hw, hwv.trans hvv'⟩
  refine Meets.bind (Q := fun _ => Passing names (Filling p q b u t.Alike R)) ?_ fun _ => ?_
  · refine Meets.ite (fun hdriver => ?_) fun _ => Meets.done fun _ h => h
    rw [Bool.not_eq_true'] at hdriver
    exact hgoes _ (Sheet.keeps_annotated_write (Int.le_refl _) (Or.inr (fills_text hdriver)))
      (Sheet.keeps_sameAbove_write (Int.le_refl _) _ _)
  · refine Meets.ite (fun _ => ?_) fun _ => Meets.done fun _ h => h.imp fun _ _ => trivial
    refine (hgoes _ (Sheet.keeps_annotated_writeColumn (Int.le_refl _) _)
      (Sheet.keeps_sameAbove_writeColumn (Int.le_refl _) _ _)).conseq_post fun _ _ h =>
        h.imp fun _ _ => trivial

/-- Copying the rows that were found for a code. -/
theorem passing_pasteRows :
    Meets (Passing names (Filling p q b u (fun t' => t.Alike t' ∧ t'.maxColumn = t.maxColumn)
      (· = u)))
      (pasteRows (Session.document commit).watched layout p q c (first, last))
      (fun _ => Passed names) fun _ => Passed names := by
  refine Meets.bind (passing_fill hb hu ?_ (meets_dest hne (meets_lastUsedRow u)) ?_)
    fun used => ?_
  · rintro _ rfl _
    exact husealed
  · refine keeps_filledFrom_dest hne (Sheet.keeps_lastUsedRow.mono fun _ _ h => ?_)
    exact h.toAlike.sameAbove _
  refine Meets.assuming (fun _ h => h.now.1.dest.1) fun hused => ?_
  subst hused
  refine Meets.bind ?_ fun _ =>
    passing_fillIn commit hne hb hu husealed ht hlasting hcolumn hfound
  refine (passing_fill hb hu ?_ (meets_copyFound hne hfound) ?_).conseq_pre ?_
  · exact fun v hv _ => husealed.of_sameContent hv.sameContent
  · exact keeps_filledFrom_copyBlock hne _ _ _
  · exact fun _ h => h.imp fun _ h => ⟨h.1.mono_dest fun _ h => h.2, h.2⟩

end

theorem passing_require (commit : Session.Action ρ Unit) (hb : b.Among Sheet.Consistent names)
    (failure : Failure) (wanted : String) :
    Meets (Passing names (· = b)) (require (Session.document commit).watched wanted failure)
      (fun sheet u => b.find? wanted = some sheet ∧ Passing names (· = b) u)
      fun _ => Passed names := by
  refine (meets_require wanted ?_).conseq (fun _ h => h) (fun sheet u h => ?_)
    fun _ _ h => h.imp fun _ _ => trivial
  · rintro _ rfl
    exact hb
  · have hfind := h.now.2
    rw [h.now.1] at hfind
    exact ⟨hfind, h.imp fun _ h => h.1⟩

/-- All targets are consistent in all workbooks that are noted while a block is placed. -/
theorem passing_placeBlock (commit : Session.Action ρ Unit) (hne : target ≠ layout.templateSheet)
    (hb : b.Among Sheet.Sealed names) (ht : b.Stands layout.templateSheet p t)
    (hconsistent : t.Consistent) (htarget : target ∈ names) (hlasting : Lasting c.baseType)
    (hcolumn : layout.tagColumn ≠ layout.assumptionsColumn) :
    Meets (Passing names (· = b)) (placeBlock (Session.document commit).watched layout target c)
      (fun _ => Passed names) fun _ => Passed names := by
  have hrequire := passing_require commit (consistent_of_sealed hb)
  rw [placeBlock_eq]
  refine Meets.bind_fact (hrequire _ layout.templateSheet) fun place hplace => ?_
  obtain rfl : place = p := Option.some.inj (hplace.symm.trans ht.find?_eq)
  refine Meets.bind_fact (hrequire _ target) fun sheet hsheet => ?_
  rcases find?_eq_some_iff.mp hsheet with ⟨u, hu⟩
  -- template and target are two sheets, so the copy reads one and writes the other
  have hplaces := ht.place_ne hu hne.symm
  have husealed : u.Sealed := hb u (List.mem_of_getElem? hu.sheet_eq) (hu.title_eq ▸ htarget)
  have hstart : Filling place sheet b u (· = t) (· = u) b :=
    ⟨⟨lt_length_of_getElem? ht.sheet_eq, lt_length_of_getElem? hu.sheet_eq, ht.sheet, hu.sheet⟩,
      refl_of (FilledFrom _ _ _) b⟩
  refine Meets.conseq_pre (P := Passing names (Filling place sheet b u (· = t) (· = u))) ?_
    fun _ h => h.imp fun _ hb' => by rw [hb']; exact hstart
  refine Meets.bind (passing_search commit hplaces hb hu.sheet husealed) fun found => ?_
  refine Meets.assuming (fun _ h => h.now.1.source.1) fun hfound => ?_
  cases found with
  | none => exact Meets.stop fun _ h => h.imp fun _ _ => trivial
  | some rows =>
    have hpaste := passing_pasteRows commit hplaces hb hu.sheet husealed hconsistent hlasting
      hcolumn hfound.symm
    refine hpaste.conseq_pre fun _ h => h.imp fun _ h => ⟨h.1.mono_source fun _ h => ?_, h.2⟩
    exact ⟨h.2.1, h.2.2 rfl⟩

/-! ## Codes -/

/-- What is noted while a code is carried out, before its edit is committed. -/
theorem passing_edit (commit : Session.Action ρ Unit)
    (hcolumn : layout.tagColumn ≠ layout.assumptionsColumn)
    (hlasting : IsBlock c → Lasting c.baseType) {x : Progress} (h : Sound layout x b)
    (index : Nat) :
    Meets (Passing x.result.createdTargets (· = b))
      (edit (Session.document commit).watched layout x.target index c)
      (fun _ => Passed x.result.createdTargets) fun _ => Passed x.result.createdTargets := by
  have hpassed (u : Session ρ × List (Session ρ))
      (hu : Passing x.result.createdTargets (· = b) u) : Passed x.result.createdTargets u :=
    hu.imp fun _ _ => trivial
  rcases isTab_or_isBlock c with hmodel | htab | hblock
  · rw [edit_model _ hmodel]
    exact Meets.done hpassed
  · rw [edit_tab _ htab]
    have htemplate : b.Kept Sheet.WellMerged layout.templateSheet :=
      h.template.imp fun _ ht => ht.imp fun _ ht => ht.toWellMerged
    exact Meets.bind (passing_makeTab commit _ htemplate h.targets) fun _ => Meets.done fun _ h => h
  · cases htarget : x.target with
    | none =>
      rw [edit_noTarget _ hblock]
      exact Meets.stop hpassed
    | some target =>
      rw [edit_block _ hblock]
      rcases kept_iff.mp h.template with ⟨t, ht, hhead⟩
      rcases titled?_eq_some_iff.mp ht with ⟨place, hplace⟩
      refine Meets.bind (passing_placeBlock commit ?_ h.targets hplace hhead.toConsistent
        (h.target_mem target htarget) (hlasting hblock) hcolumn) fun _ => Meets.done fun _ h => h
      exact fun heq => h.target_ne (heq ▸ htarget)

theorem created_subset {σ κ : Type} (doc : Document σ κ) (layout : Layout) (x : Progress)
    (index : Nat) (c : Code) (state : σ) :
    x.result.createdTargets ⊆ (step doc layout x index c state).1.result.createdTargets := by
  rcases made_or_same doc layout x index c state with ⟨name, -, -, -, -, hcreated⟩ | ⟨-, hcreated⟩
  · rw [hcreated]
    exact List.subset_append_left _ _
  · rw [hcreated]
    exact List.Subset.refl _

/-- The targets that were created before a code are consistent in all states of carrying it out. -/
theorem consistent_stepPoints (hcommit : Harmless commit)
    (hcolumn : layout.tagColumn ≠ layout.assumptionsColumn)
    (hcomma : ',' ∉ layout.templateSheet.toList) (hlasting : IsBlock c → Lasting c.baseType)
    {x : Progress} (h : Sound layout x s.workbook) (index : Nat) :
    ∀ u ∈ stepPoints (Session.document commit) layout x index c s,
      u.workbook.Among Sheet.Consistent x.result.createdTargets := by
  let doc := Session.document commit
  -- committing leaves the workbook as the edit left it
  have hend : (after (edit doc layout x.target index c) s).workbook.Among Sheet.Consistent
      x.result.createdTargets := by
    have hnext := (h.step hcommit hcolumn hcomma hlasting index).targets
    rw [hcommit.workbook_step] at hnext
    intro v hv hname
    exact (hnext v hv (created_subset doc layout x index c s hname)).toConsistent
  have hedit : Passed x.result.createdTargets
      (after (edit doc.watched layout x.target index c) (s, [])) := by
    have hends := (passing_edit commit hcolumn hlasting h index).outcome
      (s := (s, [])) ⟨rfl, nofun⟩
    split at hends <;> exact hends
  have hmirrors : doc.bare.Mirrors (fun s u => u.1 = s) doc.watched.bare :=
    { doc.mirrors_watched with commit := Agree.done rfl }
  have hsame : (after (edit doc.watched layout x.target index c) (s, [])).1 =
      after (edit doc layout x.target index c) s :=
    (agree_edit layout hmirrors x.target index c).after rfl
  intro u hu
  rcases (mem_stepPoints layout).mp hu with hu | rfl
  · rw [step_snd_eq] at hu
    dsimp only at hu
    split at hu
    · have hcommitted : doc.watched.commit = watch commit := rfl
      rw [hcommitted, after_watch] at hu
      rcases List.mem_append.mp hu with hu | hu
      · exact hedit.seen u hu
      · rw [List.mem_singleton.mp hu, hsame]
        exact hend
    · exact hedit.seen u hu
  · rw [hcommit.workbook_step]
    exact hend

/-! ## Runs -/

/-- If the head of the template is sealed, all targets that were created are intact between two
codes and in all states of carrying out the next one, which are all points of a run (`mem_points`).
-/
theorem intact_targets (hcommit : Harmless commit) (layout : Layout) (codes : List Code)
    (s : Session ρ) (hcolumn : layout.tagColumn ≠ layout.assumptionsColumn)
    (hcomma : ',' ∉ layout.templateSheet.toList)
    (hlasting : ∀ c ∈ codes, IsBlock c → Lasting c.baseType) {t : Sheet}
    (ht : s.workbook.titled? layout.templateSheet = some t) (hmerged : t.WellMerged)
    (hhead : (t.head layout.dataStartRow).Sealed) (i : Nat) :
    let doc := Session.document commit
    let reached := upTo doc layout codes s i
    let created := reached.1.result.createdTargets
    reached.2.workbook.Among Sheet.Intact created ∧
      ∀ c, codes[i]? = some c → ∀ u ∈ stepPoints doc layout reached.1 i c reached.2,
        u.workbook.Among Sheet.Intact created := by
  intro doc reached created
  have hsound : Sound layout reached.1 reached.2.workbook :=
    sound_upTo hcommit hcolumn hcomma hlasting (kept_iff.mpr ⟨t, ht, hmerged, hhead⟩) i
  refine ⟨hsound.targets.mono fun _ hu => hu.toConsistent.intact, fun c hc u hu => ?_⟩
  have hconsistent := consistent_stepPoints hcommit hcolumn hcomma
    (hlasting c (List.mem_of_getElem? hc)) hsound i u hu
  exact hconsistent.mono fun _ hu => hu.intact

/-- A template with a range in its head and one in its block. -/
def banded : Sheet :=
  let text (word : String) : Cell := ⟨.entry .text (.text word), {}⟩
  let s : Sheet := { title := "Codes" }
  let s := ((s.putCell ⟨1, 1⟩ (text "Title")).putCell ⟨9, 1⟩ (text "Item")).putCell ⟨9, 4⟩
    (text "BR")
  (s.merge (.reaching 1 1 0 1)).merge (.reaching 9 1 0 2)

/-- The target is intact in all seven states of placing the first break, and the two breaks bring
two more ranges. -/
theorem intact_targets_banded :
    let doc := Session.document (Command.commit "")
    let codes := [tabCode "A", breakCode, breakCode]
    let s : Session Files.Tree := ⟨⟨[banded]⟩, {}⟩
    let made := upTo doc {} codes s 1
    let placing := stepPoints doc {} made.1 1 breakCode made.2
    let reached := upTo doc {} codes s 3
    Harmless (Command.commit "") ∧ (∀ c ∈ codes, IsBlock c → Lasting c.baseType) ∧
      s.workbook.titled? "Codes" = some banded ∧ banded.WellMerged ∧ (banded.head 9).Sealed ∧
      placing.length = 7 ∧ (∀ u ∈ placing, u.workbook.Among Sheet.Intact ["A"]) ∧
      ∃ u, reached.2.workbook.titled? "A" = some u ∧ u.merged.length = 3 ∧ u.Intact ∧
        u.value ⟨3, 1⟩ = .text "Item" := by
  intro doc codes s made placing reached
  have hcommit := harmless_commit ""
  have hlasting : ∀ c ∈ codes, IsBlock c → Lasting c.baseType := by
    decide +kernel
  have hmerged : banded.WellMerged := by
    decide +kernel
  have hhead : (banded.head 9).Sealed := by
    decide +kernel
  have hintact := intact_targets hcommit {} codes s (by decide) (by decide) hlasting rfl hmerged
    hhead
  have hmade : made.1.result.createdTargets = ["A"] := by
    decide +kernel
  have hreached : reached.1.result.createdTargets = ["A"] := by
    decide +kernel
  have hfacts : (reached.2.workbook.titled? "A").map (fun u => (u.merged.length, u.value ⟨3, 1⟩)) =
      some (3, .text "Item") := by
    decide +kernel
  rcases Option.map_eq_some_iff.mp hfacts with ⟨u, hu, hfacts⟩
  obtain ⟨hlength, hvalue⟩ := Prod.mk.inj hfacts
  have hplacing : ∀ u ∈ placing, u.workbook.Among Sheet.Intact made.1.result.createdTargets :=
    (hintact 1).2 breakCode rfl
  have hend : reached.2.workbook.Among Sheet.Intact reached.1.result.createdTargets :=
    (hintact 3).1
  rw [hmade] at hplacing
  rw [hreached] at hend
  refine ⟨hcommit, hlasting, rfl, hmerged, hhead, by decide +kernel, hplacing, u, hu, hlength, ?_,
    hvalue⟩
  exact hend.titled (List.mem_singleton_self _) hu

/-- A template with a range that reaches from the last used row of its head into the next one. -/
def hollow : Sheet :=
  let text (word : String) : Cell := ⟨.entry .text (.text word), {}⟩
  let s : Sheet := { title := "Codes" }
  let s := ((s.putCell ⟨1, 1⟩ (text "Title")).putCell ⟨9, 1⟩ (text "Item")).putCell ⟨9, 4⟩
    (text "BR")
  s.merge (.reaching 1 1 1 0)

/-- The item is pasted to a cell that this range covers, and is lost when the target is stored. -/
theorem not_intact_targets :
    let codes := [tabCode "A", breakCode]
    let s : Session Files.Tree := ⟨⟨[hollow]⟩, {}⟩
    let reached := upTo (Session.document (Command.commit "")) {} codes s 2
    hollow.WellMerged ∧ reached.1.result.createdTargets = ["A"] ∧
      ∃ u, reached.2.workbook.titled? "A" = some u ∧ ¬u.Consistent ∧
        u.value ⟨2, 1⟩ = .text "Item" ∧ u.stored.value ⟨2, 1⟩ = .blank := by
  intro codes s reached
  have hfacts : (reached.2.workbook.titled? "A").map (fun u => (decide u.Consistent,
      u.value ⟨2, 1⟩, u.stored.value ⟨2, 1⟩)) = some (false, .text "Item", .blank) := by
    decide +kernel
  rcases Option.map_eq_some_iff.mp hfacts with ⟨u, hu, hfacts⟩
  simp only [Prod.mk.injEq, decide_eq_false_iff_not] at hfacts
  exact ⟨by decide +kernel, by decide +kernel, u, hu, hfacts⟩

end Run

end Sheetwright
