import Sheetwright.Proofs.Run.Block
import Sheetwright.Proofs.Run.Failure
import Sheetwright.Proofs.Run.Fresh
import Sheetwright.Proofs.Run.Refused
import Sheetwright.Proofs.Text.Anchor
/-!
# Sealed sheets

A sheet is called sealed here if it is consistent and its merged ranges all end within the rows in
use, so that whatever goes below these rows lies on none of the ranges. A tab is sealed if the head
of the template is, and placing a block keeps a sheet sealed, since the last row of a block holds
its type. So all targets are sealed after any number of codes (`sound_upTo`).
-/

namespace Sheetwright

open Grid Operation

/-! ## Sheets -/

namespace Grid.Sheet

variable {s t u v : Sheet} {p : Position} {first : Nat}

/-- A consistent sheet whose merged ranges all end within the rows in use. -/
structure Sealed (s : Sheet) : Prop extends Consistent s where
  used : ∀ r ∈ s.merged, r.maxRow ≤ s.lastUsed

instance (s : Sheet) : Decidable s.Sealed :=
  decidable_of_iff (s.Consistent ∧ ∀ r ∈ s.merged, r.maxRow ≤ s.lastUsed)
    ⟨fun h => ⟨h.1, h.2⟩, fun h => ⟨h.toConsistent, h.used⟩⟩

theorem Sealed.of_value_eq (h : s.Sealed) (hvalue : ∀ p, t.value p = s.value p)
    (hmerged : t.merged = s.merged) : t.Sealed where
  toConsistent := h.toConsistent.of_value_eq hvalue hmerged
  used r hr := by
    rw [lastUsed_eq_of_value_eq hvalue]
    exact h.used r (hmerged ▸ hr)

theorem Sealed.of_sameContent (h : s.Sealed) (hst : s.SameContent t) : t.Sealed :=
  h.of_value_eq hst.value_eq hst.merged_eq

theorem Heads.sealed (h : Heads first s u) (hs : (s.head first).Sealed) : u.Sealed :=
  hs.of_value_eq h.value_head h.merged_eq

/-- A sheet stays sealed if ranges are merged below the rows in use, and rows are filled down to
their ends. -/
theorem Sealed.grow (h : u.Sealed) (habove : u.SameAbove (u.lastUsed + 1) v) {more : List Range}
    (hmerged : v.merged = u.merged ++ more) (hdisjoint : more.Pairwise Range.Disjoint)
    (hmin : ∀ r ∈ more, u.lastUsed < r.minRow) (hmax : ∀ r ∈ more, r.maxRow ≤ v.lastUsed)
    (hblank : ∀ r ∈ more, ∀ p ∈ r.rest, v.value p = .blank) : v.Sealed := by
  refine ⟨⟨?_, fun r hr p hp => ?_⟩, fun r hr => ?_⟩
  · rw [hmerged, List.pairwise_append]
    refine ⟨h.disjoint, hdisjoint, fun r hr r' hr' => Range.disjoint_of_maxRow_lt ?_⟩
    exact Nat.lt_of_le_of_lt (h.used r hr) (hmin r' hr')
  · rw [hmerged, List.mem_append] at hr
    rcases hr with hold | hnew
    · have hrow := (Range.mem_positions.mp (Range.mem_positions_of_rest hp)).1.2
      have hend := h.used r hold
      rw [value, habove.cell_eq p (by omega)]
      exact h.blank r hold p hp
    · exact hblank r hnew p hp
  · rw [hmerged, List.mem_append] at hr
    rcases hr with hold | hnew
    · exact Nat.le_trans (h.used r hold) habove.lastUsed_le
    · exact hmax r hnew

/-- The merged ranges are as merging leaves them, and those of the head end within its rows in
use. -/
structure SealedHead (first : Nat) (s : Sheet) : Prop extends WellMerged s where
  head_sealed : (s.head first).Sealed

theorem SealedHead.of_sameContent (h : SealedHead first s) (hst : s.SameContent t)
    (hmem : ∀ p ∈ s.cells, p ∈ t.cells) : SealedHead first t where
  toWellMerged := h.toWellMerged.of_mem hst.value_eq hst.merged_eq hmem
  head_sealed := by
    refine h.head_sealed.of_value_eq (fun p => ?_) (congrArg (·.filter (·.maxRow < first))
      hst.merged_eq)
    rw [value, value, cell_head, cell_head]
    split
    · exact hst.value_eq p
    · rfl

end Grid.Sheet

/-! ## The sheets of some titles -/

namespace Workbook

variable {R R' : Sheet → Prop} {b b' : Workbook} {names : List String} {u : Sheet}
  {source dest : Nat} {start : Int}

/-- Every sheet that has one of the titles satisfies a condition. -/
def Among (R : Sheet → Prop) (names : List String) (b : Workbook) : Prop :=
  ∀ u ∈ b.sheets, u.title ∈ names → R u

theorem Among.mono (h : b.Among R names) (hR : ∀ u, R u → R' u) : b.Among R' names :=
  fun u hu hname => hR u (h u hu hname)

theorem Among.titled (h : b.Among R names) {name : String} (hname : name ∈ names)
    (hu : b.titled? name = some u) : R u := by
  rcases titled?_eq_some_iff.mp hu with ⟨place, hplace⟩
  exact h u (List.mem_of_getElem? hplace.sheet_eq) (hplace.title_eq ▸ hname)

theorem Among.append {more : List String} (h : b.Among R names) (hmore : b.Among R more) :
    b.Among R (names ++ more) :=
  fun u hu hname => (List.mem_append.mp hname).elim (h u hu) (hmore u hu)

theorem among_of_not_mem {name : String} (h : name ∉ b.titles) : b.Among R [name] := by
  intro u hu hname
  rw [List.mem_singleton] at hname
  exact absurd (mem_titles.mpr ⟨u, hu, hname⟩) h

theorem Among.without (h : b.Among R names) (name : String) : (b.without name).Among R names :=
  fun u hu => h u (List.mem_of_mem_eraseP hu)

theorem Among.framed (h : b.Among Sheet.Sealed names) (place : Nat) :
    (b.framed place).Among Sheet.Sealed names := by
  by_cases hplace : place < b.sheets.length
  · intro u hu hname
    rw [Workbook.framed, sheets_putSheet] at hu
    rcases List.mem_or_eq_of_mem_set hu with hmem | rfl
    · exact h u hmem hname
    · have hframe := (b.sheet place).reframed_frame
      rw [hframe.title_eq] at hname
      exact (h _ (List.mem_of_getElem? (getElem?_sheet hplace)) hname).of_sameContent
        hframe.sameContent
  · rwa [Workbook.framed, putSheet_of_le (Nat.le_of_not_lt hplace)]

/-- One more sheet is added, and another one is framed. -/
theorem Among.copied (h : b.Among Sheet.Sealed names) (place : Nat)
    (hR : ∀ w : Sheet, w.Sealed → R w) (hu : R u) : (b.copied place u).Among R names := by
  intro w hw hname
  rcases List.mem_append.mp hw with hold | hnew
  · exact hR w (h.framed place w hold hname)
  · obtain rfl := List.mem_singleton.mp hnew
    exact hu

/-- Filling one of the sheets concerns no other one that was sealed. -/
theorem FilledFrom.among (h : FilledFrom start source dest b b')
    (hb : b.Among Sheet.Sealed names) (hdest : (b'.sheet dest).Sealed) :
    b'.Among Sheet.Sealed names := by
  intro v hv hname
  rcases List.mem_iff_getElem?.mp hv with ⟨i, hi⟩
  have hlt := lt_length_of_getElem? hi
  rw [h.length_eq] at hlt
  by_cases hd : i = dest
  · subst hd
    exact sheet_of_getElem? hi ▸ hdest
  · by_cases hs : i = source
    · subst hs
      have halike := h.source
      rw [sheet_of_getElem? hi] at halike
      rw [halike.title_eq] at hname
      exact (hb _ (List.mem_of_getElem? (getElem?_sheet hlt)) hname).of_sameContent
        halike.sameContent
    · rw [h.other i hs hd] at hi
      exact hb v (List.mem_of_getElem? hi) hname

end Workbook

/-! ## One block -/

/-- A type that its cell keeps wherever it is copied: there is something in it, and it is no
formula. -/
def Lasting (type : String) : Prop := type ≠ "" ∧ type.toList.head? ≠ some '='

instance (type : String) : Decidable (Lasting type) := inferInstanceAs (Decidable (_ ∧ _))

namespace Workbook

variable {first last start lastColumn : Nat} {t u v w : Sheet} {p : Position}
  {area : Position → Prop} {rows : Nat → Prop} {ranges : List Range}

theorem relocate_of_lasting {text : String} (h : Lasting (Text.trimmed text))
    (origin dest : Position) : Formula.relocate origin dest text.toList = .ok text.toList := by
  refine Formula.relocate_of_ne fun hhead => h.2 ?_
  -- an equals sign is no blank, so trimming would leave it in front
  rcases List.head?_eq_some_iff.mp hhead with ⟨rest, htext⟩
  have htrim : Text.trim ('=' :: rest) = '=' :: Text.trimEnd rest := by
    rw [Text.trim, Text.trimStart_cons (by decide)]
    exact Text.trimEnd_append_cons (by decide) [] rest
  rw [Text.trimmed, htext, htrim, String.toList_ofList]
  rfl

/-- A cell that carries a type is in use in the copy. -/
theorem Stamped.isUsed (h : Stamped first start area t u w) (hp : area p) {tag : String}
    (htag : t.isTagged p tag = true) (hlasting : Lasting tag) :
    (w.value (shifted first start p)).isUsed = true := by
  obtain ⟨text, hvalue, rfl⟩ := Sheet.exists_of_isTagged htag
  have hfree : (t.cell p).isCovered = false := by
    refine decide_eq_false fun hcovered => ?_
    rw [Sheet.value_of_covered hcovered] at hvalue
    cases hvalue
  obtain ⟨d, hd, hcontent⟩ := h.content p hp hfree
  obtain rfl : .text text = d := by
    rw [hvalue, carried] at hd
    split at hd
    · cases hd
    · rw [relocate_of_lasting hlasting] at hd
      dsimp only at hd
      rw [String.ofList_toList] at hd
      exact Except.ok.inj hd
  have hfilled : text.isEmpty = false := by
    rw [← Bool.not_eq_true, String.isEmpty_iff]
    rintro rfl
    exact hlasting.1 (by decide)
  rw [Sheet.value, Cell.value_of_content hcontent]
  exact Run.fills_text hfilled

/-- Of the ranges that were merged those are noted that do not lie inside another one. -/
theorem Overlaid.exists_merged (h : Overlaid first start area rows t u ranges w) :
    ∃ more, more.Sublist ranges ∧ w.merged = u.merged ++ more := by
  rcases Sheet.exists_foldl_noted u.merged ranges with ⟨more, hsub, hmerged, -⟩
  exact ⟨more, hsub, h.merged_eq.trans hmerged⟩

end Workbook

namespace Run

open Workbook

variable {ρ : Type} {layout : Layout} {commit : Session.Action ρ Unit} {name target : String}
  {c : Code} {codes : List Code} {s : Session ρ} {b b' : Workbook} {names : List String}
  {t u v w : Sheet} {first last : Nat} {done rest : List Range}

/-- The type in the last row of a block is still in use when ranges of the block are merged. -/
theorem isUsed_tag (ht : t.Consistent)
    (hfound : t.tagged? layout.tagColumn c.baseType = some (first, last))
    (hlasting : Lasting c.baseType)
    (hranges : ∀ r ∈ done, r ∈ pastedRanges layout t u first last)
    (hw : CopiedOver layout t u first last done w) :
    (w.value ⟨u.lastUsed + 1 + (last - first), layout.tagColumn⟩).isUsed = true := by
  obtain ⟨hfirst, hrows, htag⟩ := Sheet.of_tagged?_eq_some hfound
  rcases hw with ⟨w, hw, rfl⟩
  have hblock : block first last (min layout.lastColumn t.maxColumn) ⟨last, layout.tagColumn⟩ := by
    refine ⟨⟨hrows, Nat.le_refl _⟩, layout.tagColumn_pos, ?_⟩
    exact Nat.le_min.mpr ⟨layout.tagColumn_le, Sheet.column_le_of_tagged? hfound⟩
  have hused := hw.toStamped.isUsed hblock htag hlasting
  -- a range that covered the place would cover the type in the template
  have hfree : ¬∃ r ∈ done, shifted first (u.lastUsed + 1) ⟨last, layout.tagColumn⟩ ∈ r.rest := by
    rintro ⟨r', hr', hp⟩
    rcases mem_copiedRanges.mp (hranges r' hr') with ⟨r, hr, hinside, rfl⟩
    rw [mem_rest_shifted hinside.1.1 hrows] at hp
    rw [Sheet.isTagged, ht.blank r hr _ hp] at htag
    cases htag
  have hcontent := Sheet.content_foldl_merge w done
    (shifted first (u.lastUsed + 1) ⟨last, layout.tagColumn⟩)
  rw [if_neg hfree] at hcontent
  rw [← Sheet.value_of_content_eq hcontent] at hused
  exact hused

/-- Some rows were copied below a sealed sheet, some of their ranges merged and some data written:
the sheet is sealed again. -/
theorem sealed_of_copied (hu : u.Sealed) (ht : t.Consistent)
    (hfound : t.tagged? layout.tagColumn c.baseType = some (first, last))
    (hlasting : Lasting c.baseType) (hcolumn : layout.tagColumn ≠ layout.assumptionsColumn)
    (hsplit : pastedRanges layout t u first last = done ++ rest)
    (hw : CopiedOver layout t u first last done w)
    (hv : w.Annotated (u.lastUsed + 1 : Nat) layout.assumptionsColumn v)
    (habove : u.SameAbove (u.lastUsed + 1 : Nat) v) : v.Sealed := by
  have hranges : ∀ r ∈ done, r ∈ pastedRanges layout t u first last := fun r hr => by
    rw [hsplit]
    exact List.mem_append_left _ hr
  have hdisjoint : done.Pairwise Range.Disjoint := by
    have hall : (pastedRanges layout t u first last).Pairwise Range.Disjoint :=
      pairwise_disjoint_copiedRanges ht.disjoint
    rw [hsplit] at hall
    exact (List.pairwise_append.mp hall).1
  have hrow (r : Range) (hr : r ∈ done) := rows_of_mem_copiedRanges (hranges r hr)
  -- the last row of the block holds a tag, so no pasted range reaches below the last used row
  have hlast : u.lastUsed + 1 + (last - first) ≤ v.lastUsed :=
    Sheet.lastUsed_le_iff.mp (Nat.le_refl _) _
      (hv.used _ hcolumn (isUsed_tag ht hfound hlasting hranges hw))
  rcases Overlaid.exists_merged hw with ⟨more, hsub, hmerged⟩
  refine hu.grow habove (hv.merged_eq.trans hmerged) (hdisjoint.sublist hsub) (fun r hr => ?_)
    (fun r hr => ?_) fun r hr p hp => ?_
  · exact (hrow r (hsub.subset hr)).1
  · exact Nat.le_trans (hrow r (hsub.subset hr)).2 hlast
  · have hcovered := Overlaid.cell_covered hw (hsub.subset hr) hp
    refine Sheet.value_of_covered ?_
    rw [hv.covered p (decide_eq_true hcovered), hcovered]

/-- Placing a block keeps a target sealed, however far it comes. -/
theorem BlockRun.sealed {r : Except Failure Unit} (h : BlockRun layout c t u r v) (hu : u.Sealed)
    (ht : t.Consistent) (hlasting : Lasting c.baseType)
    (hcolumn : layout.tagColumn ≠ layout.assumptionsColumn)
    (habove : u.SameAbove (u.lastUsed + 1 : Nat) v) : v.Sealed := by
  cases h with
  | unfound => exact hu
  | stopped hfound hv =>
    cases hv with
    | cells hbegun =>
      exact hu.grow habove (hbegun.merged_eq.trans (List.append_nil _).symm) .nil nofun nofun nofun
    | ranges done rest hsplit hw =>
      exact sealed_of_copied hu ht hfound hlasting hcolumn hsplit hw
        ((Sheet.Alike.refl v).annotated _ _) habove
  | copied hfound hw hv =>
    exact sealed_of_copied hu ht hfound hlasting hcolumn (List.append_nil _).symm hw hv habove

/-! ## What the codes do -/

/-- A tab that is made is sealed; no other sheet comes under a title that was given before. -/
theorem TabRun.sealed {r : Except Failure Unit} (h : TabRun layout name b r b')
    (hcomma : ',' ∉ layout.templateSheet.toList)
    (htemplate : b.Kept (Sheet.SealedHead layout.dataStartRow) layout.templateSheet)
    (hb : b.Among Sheet.Sealed names) :
    b'.Among Sheet.Sealed names ∧ (r = .ok () → b'.Among Sheet.Sealed [name]) := by
  have hcopyTitle := copyTitle_not_mem hcomma (b.without name)
  rcases kept_iff.mp htemplate with ⟨t, ht, hhead⟩
  cases h with
  | overwrites => exact ⟨hb, nofun⟩
  | missing => exact ⟨hb.without name, nofun⟩
  | uncopied => exact ⟨hb.without name, nofun⟩
  | @refused place t' =>
    refine ⟨?_, nofun⟩
    have hback : ((b.without name).copied place
        ((b.without name).copySheet layout.templateSheet t')).without
          ((b.without name).copyTitle layout.templateSheet) = (b.without name).framed place :=
      without_copied hcopyTitle
    exact hback ▸ (hb.without name).framed place
  -- the copy's merged cells are separable, so clearing it cannot fail
  | @uncleared place t' u fault hne hs _ _ hrun =>
    obtain rfl : t' = t := by
      rw [← titled?_without_of_ne hne] at ht
      exact Option.some.inj (hs.titled?_eq.symm.trans ht)
    have hmerged := wellMerged_tabSheet (b.without name) layout.templateSheet name
      hhead.toWellMerged
    rcases hmerged.separable.clearFrom layout.dataStartRow with ⟨u, hu⟩
    rw [hu] at hrun
    cases hrun
  | @made place t' u hne hs hcopy htitle hrun =>
    rcases (TabRun.made hne hs hcopy htitle hrun).heads ht hhead.toWellMerged with
      ⟨place', u', hbook, hheads⟩
    rw [hbook]
    have hsealed := hheads.sealed hhead.head_sealed
    have hnew : name ∉ (b.without name).titles := fun hmem =>
      hcopyTitle ((tabFault?_eq_none_iff.mp htitle).1 hmem ▸ hmem)
    exact ⟨(hb.without name).copied place' (fun _ hw => hw) hsealed,
      fun _ => (among_of_not_mem hnew).copied place' (fun _ hw => hw) hsealed⟩

/-- Placing a block in one of the sheets keeps all of them sealed. -/
theorem sealed_placeBlock (commit : Session.Action ρ Unit)
    (hcolumn : layout.tagColumn ≠ layout.assumptionsColumn) (hlasting : Lasting c.baseType)
    (hne : target ≠ layout.templateSheet)
    (htemplate : s.workbook.Kept (Sheet.SealedHead layout.dataStartRow) layout.templateSheet)
    (hs : s.workbook.Among Sheet.Sealed names) (htarget : target ∈ names) :
    (after (placeBlock (Session.document commit) layout target c) s).workbook.Among Sheet.Sealed
      names := by
  rcases htemplate with ⟨place, t, ht, hhead⟩
  cases hfind : s.workbook.find? target with
  | none =>
    -- without the target nothing is done
    have hsame : s.workbook =
        (after (placeBlock (Session.document commit) layout target c) s).workbook :=
      after_placeBlock_of (R := (· = ·)) fun _ sheet _ hsheet => by
        rw [hfind] at hsheet
        cases hsheet
    exact hsame ▸ hs
  | some sheet =>
    rcases find?_eq_some_iff.mp hfind with ⟨u, hu⟩
    have hplaces := ht.place_ne hu hne.symm
    have hfilled := filledBelow_placeBlock commit hplaces ht.find?_eq hfind c
    have hrun := blockRun_placeBlock commit hne.symm ht hu c
    have habove := hfilled.dest
    rw [hu.sheet] at habove
    have husealed : u.Sealed := hs u (List.mem_of_getElem? hu.sheet_eq) (hu.title_eq ▸ htarget)
    exact FilledFrom.among hfilled hs
      (hrun.sealed husealed hhead.toConsistent hlasting hcolumn habove)

/-! ## Runs -/

/-- What holds at any point of a run: the template is as it has to be, all targets are sealed, and
blocks go to one of them. -/
structure Sound (layout : Layout) (p : Progress) (b : Workbook) : Prop where
  template : b.Kept (Sheet.SealedHead layout.dataStartRow) layout.templateSheet
  targets : b.Among Sheet.Sealed p.result.createdTargets
  target_mem : ∀ name, p.target = some name → name ∈ p.result.createdTargets
  target_ne : p.target ≠ some layout.templateSheet

/-- A code changes the progress of the tabs only if it makes one. -/
theorem made_or_same {σ κ : Type} (doc : Document σ κ) (layout : Layout) (p : Progress)
    (index : Nat) (c : Code) (state : σ) :
    let next := (step doc layout p index c state).1
    (∃ name, IsTab c ∧ tabName layout index c = name ∧
      outcome (makeTab doc layout name) state = .ok () ∧ next.target = some name ∧
        next.result.createdTargets = p.result.createdTargets ++ [name]) ∨
      (next.target = p.target ∧ next.result.createdTargets = p.result.createdTargets) := by
  intro next
  have hnext : next = _ := step_fst doc layout p index c state
  rcases hverdict : verdict doc layout p index c state with failure | _ | name | _
  all_goals rw [hverdict] at hnext
  · exact Or.inr ⟨by rw [hnext]; rfl, by rw [hnext]; rfl⟩
  · exact Or.inr ⟨by rw [hnext]; rfl, by rw [hnext]; rfl⟩
  · obtain ⟨htab, hname, hmade, -⟩ := (verdict_eq_tab_iff doc layout).mp hverdict
    exact Or.inl ⟨name, htab, hname, hmade, by rw [hnext]; rfl, by rw [hnext]; rfl⟩
  · exact Or.inr ⟨by rw [hnext]; rfl, by rw [hnext]; rfl⟩

/-- Searching and framing the template does not touch its values and its merged ranges. -/
theorem robust_sealedHead (hcommit : Harmless commit) :
    Robust layout commit (Sheet.SealedHead layout.dataStartRow) where
  widened _ _ hs hw := hs.of_sameContent hw.toAlike.sameContent hw.mem
  commit u hu := by rwa [hcommit u]

/-- Whatever a code does, the targets that there were before it stay sealed. -/
theorem Sound.sealed_edit (hcolumn : layout.tagColumn ≠ layout.assumptionsColumn)
    (hcomma : ',' ∉ layout.templateSheet.toList) (hlasting : IsBlock c → Lasting c.baseType)
    {p : Progress} (h : Sound layout p s.workbook) (index : Nat) :
    (after (edit (Session.document commit) layout p.target index c) s).workbook.Among Sheet.Sealed
      p.result.createdTargets := by
  refine after_edit_of (P := fun s : Session ρ =>
    s.workbook.Among Sheet.Sealed p.result.createdTargets) _ h.targets (fun _ => ?_)
    fun target hblock hp => ?_
  · exact ((tabRun_makeTab layout commit _ s).1.sealed hcomma h.template h.targets).1
  · exact sealed_placeBlock commit hcolumn (hlasting hblock)
      (fun heq => h.target_ne (heq ▸ hp)) h.template h.targets (h.target_mem target hp)

theorem Sound.step (hcommit : Harmless commit)
    (hcolumn : layout.tagColumn ≠ layout.assumptionsColumn)
    (hcomma : ',' ∉ layout.templateSheet.toList) (hlasting : IsBlock c → Lasting c.baseType)
    {p : Progress} (h : Sound layout p s.workbook) (index : Nat) :
    let next := step (Session.document commit) layout p index c s
    Sound layout next.1 next.2.workbook := by
  intro next
  have hnext := (robust_sealedHead hcommit).kept_stepAll p index [c]
    (fun _ _ _ _ _ hu => hu.of_sameContent (Sheet.reframed_frame _).sameContent
      fun _ hp => Sheet.mem_frame.mpr (Or.inr hp)) h.target_ne h.template
  have hbook : next.2.workbook = _ := hcommit.workbook_step p index c s
  rcases made_or_same (Session.document commit) layout p index c s with
    ⟨name, htab, hname, hmade, htarget, hcreated⟩ | ⟨htarget, hcreated⟩
  · -- a tab was made
    have hrun := (tabRun_makeTab layout commit name s).1.sealed hcomma h.template h.targets
    rw [edit_tab _ htab, after_bind_pure, hname] at hbook
    refine ⟨hnext.2, ?_, fun other hother => ?_, hnext.1⟩
    · rw [hcreated, hbook]
      exact hrun.1.append (hrun.2 hmade)
    · rw [htarget] at hother
      rw [hcreated, ← Option.some.inj hother]
      exact List.mem_append_right _ (List.mem_singleton_self _)
  · refine ⟨hnext.2, ?_, fun name hname => ?_, hnext.1⟩
    · rw [hcreated, hbook]
      exact h.sealed_edit hcolumn hcomma hlasting index
    · rw [hcreated]
      exact h.target_mem name (htarget ▸ hname)

theorem sound_upTo (hcommit : Harmless commit)
    (hcolumn : layout.tagColumn ≠ layout.assumptionsColumn)
    (hcomma : ',' ∉ layout.templateSheet.toList)
    (hlasting : ∀ c ∈ codes, IsBlock c → Lasting c.baseType)
    (htemplate : s.workbook.Kept (Sheet.SealedHead layout.dataStartRow) layout.templateSheet)
    (i : Nat) :
    let reached := upTo (Session.document commit) layout codes s i
    Sound layout reached.1 reached.2.workbook := by
  refine stepAll_induction (I := fun p (u : Session ρ) => Sound layout p u.workbook) _ _ ?_
    ⟨htemplate, nofun, nofun, nofun⟩
  intro j c hc p u hu
  exact hu.step hcommit hcolumn hcomma
    (hlasting c (List.mem_of_mem_take (List.mem_of_getElem? hc))) (0 + j)

end Run

end Sheetwright
