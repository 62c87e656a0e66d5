import Sheetwright.Proofs.Run.Apart
import Sheetwright.Proofs.Run.Scope
import Sheetwright.Proofs.Template.Placed
/-!
# Blocks stacked in a tab

A run that makes one tab from a template of the default layout and then places blocks of it stacks
their rows below the head of the tab, in the order of the codes and without a gap: after each code
the tab holds the rows that it held before and those of the block, and nothing below
(`Stacked`). So no code fails, the column of the types lists the type of each code as often as its
block has rows, and every row of formulas refers to its own row: `blocks_stack`.
-/

namespace Sheetwright.Run

open Grid Operation Workbook Template

variable {ρ α : Type} {commit : Session.Action ρ Unit} {blocks : Blocks} {d : Nat} {hd : 1 ≤ d}
  {name : String} {placed : List (String × List Datum)} {s : Session ρ} {c : Code}

/-- The template is as it was built, and the target of a title holds these rows. -/
def Stacked (blocks : Blocks) (d : Nat) (name : String) (placed : List (String × List Datum))
    (b : Workbook) : Prop :=
  ∃ source dest, source ≠ dest ∧ b.find? "Codes" = some source ∧ b.find? name = some dest ∧
    Between source dest (Prepared d (taggedRows blocks)) (Placed (headRow d) placed) b

/-! ## One block -/

theorem succeeds_ask {P : Workbook → Prop} {Q : α → Workbook → Prop} {x : Workbook.Action α}
    (h : Succeeds P x Q) : Succeeds (fun s : Session ρ => P s.workbook)
      (ask (Session.onWorkbook x)) fun a s => Q a s.workbook := by
  refine (meets_ask_onWorkbook h).conseq_stop ?_
  rintro _ _ ⟨_, _, hs⟩
  exact hs

/-- The type of a code is that of a block, and the code has no driver and no assumptions. -/
structure Plain (blocks : Blocks) (c : Code) : Prop where
  type_mem : c.baseType ∈ blocks.keys
  driver_eq : c.driver = ""
  assumptions_eq : c.assumptions = ""

/-- Such a code fills nothing in. -/
theorem Plain.fillIn_eq {σ κ : Type} (h : Plain blocks c) (doc : Document σ κ) (layout : Layout)
    (sheet : κ) (start : Nat) : fillIn doc layout sheet start c = pure () := by
  rw [fillIn, writeDriver, writeAssumptions, h.driver_eq, Code.assumptionValues, h.assumptions_eq]
  rfl

theorem blockRows_ne_nil (hlegible : Legible blocks) {type : String} (h : type ∈ blocks.keys) :
    blockRows blocks type ≠ [] := by
  cases hrows : blocks.get? type with
  | none => exact absurd h (Entries.get?_eq_none_iff.mp hrows)
  | some rows =>
    rw [blockRows, hrows, Option.getD_some, ne_eq, List.map_eq_nil_iff]
    exact hlegible.rows_ne _ (Entries.mem_of_get? hrows)

/-- The target holds the rows of a block behind the others once they were found and pasted. -/
theorem succeeds_paste (commit : Session.Action ρ Unit) (hd : 1 ≤ d) {source dest : Nat}
    (hne : source ≠ dest) (hd2 : 2 ≤ d) (hlegible : Legible blocks) (hc : Plain blocks c)
    (hplaced : ∀ item ∈ placed, item.1 ≠ "")
    (hfits : headRow d + placed.length + (blockRows blocks c.baseType).length ≤ lastRow) :
    Succeeds (fun s : Session ρ =>
        Between source dest (Prepared d (taggedRows blocks)) (Placed (headRow d) placed) s.workbook)
      (ask ((Session.document commit).findTagged source 4 c.baseType) >>= fun found =>
        pasteFound (Session.document commit) (.startingAt d hd) source dest c found)
      fun _ s => Between source dest (Prepared d (taggedRows blocks))
        (Placed (headRow d) (placed ++ blockRows blocks c.baseType)) s.workbook := by
  rcases exists_taggedRows_eq hlegible.nodup c.baseType with ⟨before, after', hsplit, hother⟩
  have hrows := blockRows_ne_nil hlegible hc.type_mem
  have hcode : c.baseType ≠ "Code" := by
    rcases List.mem_map.mp hc.type_mem with ⟨block, hblock, heq⟩
    exact heq ▸ (hlegible.type_ne block hblock).2
  have hfind := succeeds_ask (ρ := ρ) (succeeds_source hne (R := Placed (headRow d) placed)
    (succeeds_findTagged hd2 hlegible hcode hsplit hother hrows))
  -- neither looking the block up nor looking for the last row in use changes what is stacked
  refine Meets.bind hfind fun found => Meets.assuming (fun _ hs => hs.source.1) fun hfound => ?_
  subst hfound
  have hused : Succeeds (Placed (headRow d) placed) Sheet.lastUsedRow _ :=
    succeeds_lastUsedRow hplaced
  have hlast := succeeds_ask (ρ := ρ)
    (succeeds_dest hne (P := Prepared d (taggedRows blocks)) hused)
  refine Meets.bind (hlast.conseq_pre fun s hs => hs.mono_source fun _ h => h.2)
    fun last => Meets.assuming (fun _ hs => hs.dest.1) fun hend => ?_
  have hstart : last + 1 = headRow d + 1 + placed.length := by
    omega
  have hcopy := succeeds_ask (ρ := ρ)
    (succeeds_copyBlock hne hd2 hlegible hsplit hrows hstart hfits)
  rw [hc.fillIn_eq]
  exact Meets.bind (hcopy.conseq_pre fun s hs => hs.mono_dest fun _ h => h.2) fun _ =>
    Meets.done fun _ hs => hs

/-- Placing a block stacks its rows upon those that the target holds. -/
theorem exists_placeBlock (commit : Session.Action ρ Unit) (hd : 1 ≤ d) (hd2 : 2 ≤ d)
    (hlegible : Legible blocks) (hc : Plain blocks c) (hplaced : ∀ item ∈ placed, item.1 ≠ "")
    (hfits : headRow d + placed.length + (blockRows blocks c.baseType).length ≤ lastRow)
    (h : Stacked blocks d name placed s.workbook) :
    ∃ s', (placeBlock (Session.document commit) (.startingAt d hd) name c).run s = .ok () s' ∧
      Stacked blocks d name (placed ++ blockRows blocks c.baseType) s'.workbook := by
  rcases h with ⟨source, dest, hne, hsource, hdest, hb⟩
  have hpaste := succeeds_paste commit hd hne hd2 hlegible hc hplaced hfits
  rcases hpaste.exists_run hb with ⟨_, s', hrun, hs'⟩
  have hfound : s.workbook.find? (Layout.startingAt d hd).templateSheet = some source := hsource
  have hwhole : (placeBlock (Session.document commit) (.startingAt d hd) name c).run s =
      .ok () s' := by
    rw [placeBlock_eq, EStateM.run_bind, run_require hfound]
    dsimp only
    rw [EStateM.run_bind, run_require hdest]
    exact hrun
  have htitles := titles_placeBlock (.startingAt d hd) commit name c s
  rw [after_of_ok hwhole] at htitles
  refine ⟨s', hwhole, source, dest, hne, ?_, ?_, hs'⟩
  · rw [find?_eq_of_titles_eq htitles, hsource]
  · rw [find?_eq_of_titles_eq htitles, hdest]

/-! ## The codes of a run -/

theorem step_of_stacked (hcommit : Harmless commit) (hok : Unfailing commit) (hd : 1 ≤ d)
    (hd2 : 2 ≤ d) (hlegible : Legible blocks) (hc : Plain blocks c) (hblock : IsBlock c)
    (hplaced : ∀ item ∈ placed, item.1 ≠ "")
    (hfits : headRow d + placed.length + (blockRows blocks c.baseType).length ≤ lastRow)
    (h : Stacked blocks d name placed s.workbook) {p : Progress} (hp : p.target = some name)
    (index : Nat) :
    (step (Session.document commit) (.startingAt d hd) p index c s).1 = p.advance .block ∧
      Stacked blocks d name (placed ++ blockRows blocks c.baseType)
        (step (Session.document commit) (.startingAt d hd) p index c s).2.workbook := by
  rcases exists_placeBlock commit hd hd2 hlegible hc hplaced hfits h with ⟨s', hrun, hs'⟩
  have hplace := outcome_of_run (r := .ok ()) hrun
  have hverdict : verdict (Session.document commit) (.startingAt d hd) p index c s =
      .ok .block := by
    rw [verdict_block _ _ hblock hp]
    dsimp only
    rw [hplace]
    exact (committed_eq_ok_iff _).mpr ⟨hok _, rfl⟩
  refine ⟨by rw [step_fst, hverdict], ?_⟩
  rw [step_snd_block _ _ hblock hp]
  dsimp only
  rw [hplace, after_of_ok hrun]
  -- the commit leaves the workbook alone
  have hsame : (after (Session.document commit).commit s').workbook = s'.workbook := hcommit s'
  dsimp only
  rw [hsame]
  exact hs'

theorem stepAll_of_stacked (hcommit : Harmless commit) (hok : Unfailing commit) (hd : 1 ≤ d)
    (hd2 : 2 ≤ d) (hlegible : Legible blocks) {codes : List Code}
    (hcodes : ∀ c ∈ codes, Plain blocks c) (hblocks : ∀ c ∈ codes, IsBlock c)
    (hplaced : ∀ item ∈ placed, item.1 ≠ "")
    (hfits : headRow d + placed.length +
      (codes.flatMap fun c => blockRows blocks c.baseType).length ≤ lastRow)
    (h : Stacked blocks d name placed s.workbook) {p : Progress} (hp : p.target = some name)
    (index : Nat) :
    let run := stepAll (Session.document commit) (.startingAt d hd) p index codes s
    run.1.result = { p.result with
        processedCount := p.result.processedCount + codes.length } ∧
      Stacked blocks d name (placed ++ codes.flatMap fun c => blockRows blocks c.baseType)
        run.2.workbook := by
  -- each code begins with what the codes before it have stacked
  induction codes generalizing placed p index s with
  | nil =>
    rw [List.flatMap_nil, List.append_nil]
    exact ⟨by simp [stepAll], h⟩
  | cons c codes ih =>
    rw [List.forall_mem_cons] at hcodes hblocks
    rw [List.flatMap_cons, List.length_append] at hfits
    have htype : ∀ item ∈ blockRows blocks c.baseType, item.1 ≠ "" := by
      intro item hitem
      rcases List.mem_map.mp hitem with ⟨data, -, rfl⟩
      rcases List.mem_map.mp hcodes.1.type_mem with ⟨block, hblock, heq⟩
      exact heq ▸ (hlegible.type_ne block hblock).1
    rcases step_of_stacked hcommit hok hd hd2 hlegible hcodes.1 hblocks.1 hplaced (by omega) h hp
      index with ⟨hprogress, hstep⟩
    have hnext : (p.advance .block).target = some name := hp
    have hrest := ih hcodes.2 hblocks.2 (List.forall_mem_append.mpr ⟨hplaced, htype⟩)
      (by rw [List.length_append]; omega) hstep hnext (index + 1)
    rw [stepAll_cons, hprogress, List.flatMap_cons, ← List.append_assoc]
    refine ⟨hrest.1.trans ?_, hrest.2⟩
    have hcount : p.result.processedCount + 1 + (codes.length : Int) =
        p.result.processedCount + ((c :: codes).length : Int) := by
      rw [List.length_cons]
      omega
    rw [Progress.advance, ← hcount]

/-! ## The tab -/

section

variable {t : Sheet}

theorem ne_of_not_same {title : String} (h : Title.same name title = false) : name ≠ title := by
  rintro rfl
  rw [Title.same, beq_self_eq_true] at h
  cases h

theorem cell_tabSheet (ht : Prepared d (taggedRows blocks) t) (b : Workbook) (template : String)
    (p : Position) : (b.tabSheet template name t).cell p = t.cell p := by
  change (copyOf t).cell p = t.cell p
  rcases ht.enterable p with ⟨v, hcontent, -⟩
  rw [cell_copyOf, Cell.uncovered, hcontent]
  cases v <;> rfl

theorem eq_of_stands {title : String} {place : Nat} {u : Sheet}
    (h : (⟨[t]⟩ : Workbook).Stands title place u) : place = 0 ∧ t = u := by
  obtain ⟨hlt, heq⟩ := List.getElem?_eq_some_iff.mp h.sheet_eq
  obtain rfl : place = 0 := Nat.lt_one_iff.mp hlt
  exact ⟨rfl, heq⟩

section

variable (ht : Prepared d (taggedRows blocks) t) (htitle : t.title = "Codes")

include ht htitle

/-- A workbook with the template and a tab that holds nothing yet. -/
theorem stacked_copied {v : Sheet} (hv : Placed (headRow d) [] v) (hname : v.title = name)
    (hne : name ≠ "Codes") : Stacked blocks d name [] ((⟨[t]⟩ : Workbook).copied 0 v) := by
  have hframe : t.frame = t := by
    rw [Sheet.frame, ht.merged_eq]
    rfl
  have hsheets : ((⟨[t]⟩ : Workbook).copied 0 v).sheets = [t, v] := by
    rw [copied, framed, sheet_of_getElem? (s := t) rfl, hframe]
    rfl
  have hother : ¬t.title = name := fun heq => hne (heq.symm.trans htitle)
  refine ⟨0, 1, by decide, ?_, ?_, ?_, ?_, ?_, ?_⟩
  · simp [find?, hsheets, List.findIdx?_cons, htitle]
  · simp [find?, hsheets, List.findIdx?_cons, hother, hname]
  · rw [hsheets]
    exact Nat.zero_lt_two
  · rw [hsheets]
    exact Nat.one_lt_two
  · rw [sheet, hsheets]
    exact ht
  · rw [sheet, hsheets]
    exact hv

/-- The tab of a title of its own is made from the template, and holds nothing yet. -/
theorem TabRun.stacked {b' : Workbook} {r : Except Failure Unit} (hd2 : 2 ≤ d)
    (hfit : Title.fault? name = none) (hcodes : Title.same name "Codes" = false)
    (hcopy : Title.same name "Codes Copy" = false)
    (h : TabRun (.startingAt d hd) name ⟨[t]⟩ r b') : r = .ok () ∧ Stacked blocks d name [] b' := by
  have hne : name ≠ "Codes" := ne_of_not_same hcodes
  have htitles : (⟨[t]⟩ : Workbook).titles = ["Codes"] := congrArg (fun title => [title]) htitle
  have hfree : name ∉ (⟨[t]⟩ : Workbook).titles := by
    rw [htitles, List.mem_singleton]
    exact hne
  have hwithout := without_of_not_mem hfree
  have hprovisional : (⟨[t]⟩ : Workbook).copyTitle "Codes" = "Codes Copy" := by
    rw [copyTitle, htitles]
    decide +kernel
  -- neither the template nor the copy under its provisional title stands in the way
  have hnone : Title.digitsBehind
      ((⟨[t]⟩ : Workbook).titles ++ [(⟨[t]⟩ : Workbook).copyTitle "Codes"]) name = [] := by
    rw [hprovisional, htitles]
    exact Title.digitsBehind_of_forall_not_same (by simp [hcodes, hcopy])
  have hgiven : (⟨[t]⟩ : Workbook).tabTitle "Codes" name = name := by
    rw [tabTitle, givenTitle]
    split
    · rfl
    · exact Title.numbered_eq_self_iff.mpr hnone
  have hcell (p : Position) : ((⟨[t]⟩ : Workbook).tabSheet "Codes" name t).cell p = t.cell p :=
    cell_tabSheet ht _ _ p
  rcases ht.exists_clearFrom hd2 hcell ht.merged_eq with ⟨v, hclear, hv⟩
  cases h with
  | overwrites heq => exact absurd heq hne
  | missing _ hmissing =>
    rw [hwithout, htitles] at hmissing
    exact absurd (List.mem_singleton.mpr rfl) hmissing
  | uncopied _ _ hfault =>
    have hgood : (⟨[t]⟩ : Workbook).copyFault? "Codes" = none := by
      rw [copyFault?, htitles]
      decide +kernel
    rw [hwithout] at hfault
    cases hgood.symm.trans hfault
  | refused _ _ _ hrefused =>
    have hgood : (⟨[t]⟩ : Workbook).tabFault? "Codes" name = none :=
      tabFault?_eq_none_iff.mpr
        ⟨fun hmem => absurd hmem hfree, hfit, fun _ => Title.not_exhausted_of_nil hnone⟩
    rw [hwithout] at hrefused
    cases hgood.symm.trans hrefused
  | uncleared _ hs _ _ hrun =>
    rw [hwithout] at hs hrun
    obtain ⟨rfl, rfl⟩ := eq_of_stands hs
    cases hclear.symm.trans hrun
  | made _ hs _ _ hrun =>
    rw [hwithout] at hs hrun
    obtain ⟨rfl, rfl⟩ := eq_of_stands hs
    obtain rfl := (EStateM.Result.ok.inj (hclear.symm.trans hrun)).2
    have hname := title_of_clearFrom (r := .ok ()) hrun
    rw [hwithout]
    exact ⟨rfl, stacked_copied ht htitle hv (hname.trans hgiven) hne⟩

end

end

/-! ## The whole run -/

/-- The types of the rows are those of the codes, each as often as its block has rows. -/
theorem map_fst_blockRows (blocks : Blocks) (codes : List Code) :
    (codes.flatMap fun c => blockRows blocks c.baseType).map (·.1) =
      codes.flatMap fun c =>
        List.replicate ((blocks.get? c.baseType).getD []).length c.baseType := by
  have hblock (c : Code) : (blockRows blocks c.baseType).map (·.1) =
      List.replicate ((blocks.get? c.baseType).getD []).length c.baseType := by
    rw [blockRows, List.map_map]
    exact List.map_const'
  rw [List.map_flatMap]
  exact congrArg codes.flatMap (funext hblock)

theorem execute_cons {σ κ : Type} (doc : Document σ κ) (layout : Layout) (c : Code)
    (codes : List Code) (state : σ) :
    execute doc layout (c :: codes) state =
      let first := step doc layout {} 0 c state
      let rest := stepAll doc layout first.1 1 codes first.2
      (rest.1.result, rest.2) := rfl

section

variable (hcommit : Harmless commit) (hok : Unfailing commit) (hd2 : 2 ≤ d)

include hcommit hok hd2

/-- The tab is made first, and every block goes to it. -/
theorem stacked_execute (hlegible : Legible blocks)
    (hwords : ∀ type ∈ blocks.keys, type ≠ tabType ∧ type ≠ modelType) {t : Sheet}
    (ht : Prepared d (taggedRows blocks) t) (htitle : t.title = "Codes") {tab : Code}
    (htab : IsTab tab) (hname : tabName (.startingAt d hd) 0 tab = name)
    (hfit : Title.fault? name = none) (hother : Title.same name "Codes" = false)
    (hcopy : Title.same name "Codes Copy" = false) {codes : List Code}
    (hcodes : ∀ c ∈ codes, Plain blocks c)
    (hfits : headRow d + (codes.flatMap fun c => blockRows blocks c.baseType).length ≤ lastRow)
    (store : ρ) :
    let run := execute (Session.document commit) (.startingAt d hd) (tab :: codes) ⟨⟨[t]⟩, store⟩
    run.1 = { processedCount := codes.length, createdTargets := [name] } ∧
      Stacked blocks d name (codes.flatMap fun c => blockRows blocks c.baseType)
        run.2.workbook := by
  have hrun := (tabRun_makeTab (.startingAt d hd) commit name ⟨⟨[t]⟩, store⟩).1
  rcases hrun.stacked ht htitle hd2 hfit hother hcopy with ⟨hmade, hstacked⟩
  -- the first code makes the tab, all others are blocks on it
  have hverdict : verdict (Session.document commit) (.startingAt d hd) {} 0 tab ⟨⟨[t]⟩, store⟩ =
      .ok (.tab name) :=
    (verdict_eq_tab_iff _ _).mpr ⟨htab, hname, hmade, hok _⟩
  have hbegun : Stacked blocks d name [] (step (Session.document commit) (.startingAt d hd) {} 0 tab
      ⟨⟨[t]⟩, store⟩).2.workbook := by
    rw [(step_of_verdict_tab _ _ hverdict).2]
    have hsame := hcommit (after (makeTab (Session.document commit) (.startingAt d hd) name)
      ⟨⟨[t]⟩, store⟩)
    exact hsame ▸ hstacked
  have hblocks : ∀ c ∈ codes, IsBlock c := fun c hc =>
    (hwords c.baseType (hcodes c hc).type_mem).symm
  have htarget : (({} : Progress).advance (.tab name)).target = some name := rfl
  have hnone : ∀ item ∈ ([] : List (String × List Datum)), item.1 ≠ "" := nofun
  have hrest := stepAll_of_stacked hcommit hok hd hd2 hlegible hcodes hblocks hnone hfits hbegun
    htarget 1
  rw [execute_cons]
  dsimp only
  rw [step_fst, hverdict]
  refine ⟨hrest.1.trans ?_, hrest.2⟩
  exact congrArg (fun count => ({ processedCount := count, createdTargets := [name] } : RunResult))
    (Int.zero_add _)

/-- A tab and any codes of blocks without drivers and assumptions, carried out on a template of the
default layout that begins its blocks in any row from the second one on: none fails, and the tab
holds the rows of the blocks in the order of the codes, from the row below the header on and nothing
below them. The column of the types holds the type of each row, and a row of formulas refers in
each period to its own row. -/
theorem blocks_stack (hlegible : Legible blocks)
    (hwords : ∀ type ∈ blocks.keys, type ≠ tabType ∧ type ≠ modelType) {b : Workbook}
    (hbuild : build (.startingAt d hd) blocks = .ok b) {tab : Code} (htab : IsTab tab)
    (hlabel : Text.trimmed ((tab.labels.get? 1).getD "") = name) (hfit : Title.fault? name = none)
    (hother : Title.same name "Codes" = false) (hcopy : Title.same name "Codes Copy" = false)
    {codes : List Code} (hcodes : ∀ c ∈ codes, Plain blocks c)
    (hfits : headRow d + (codes.flatMap fun c => blockRows blocks c.baseType).length ≤ lastRow)
    (store : ρ) :
    let run := execute (Session.document commit) (.startingAt d hd) (tab :: codes) ⟨b, store⟩
    let rows := codes.flatMap fun c => blockRows blocks c.baseType
    let types := codes.flatMap fun c =>
      List.replicate ((blocks.get? c.baseType).getD []).length c.baseType
    run.1.errors = [] ∧ run.1.processedCount = codes.length ∧ run.1.createdTargets = [name] ∧
      ∃ u, run.2.workbook.titled? name = some u ∧
        (∀ i, u.value ⟨headRow d + 1 + i, 4⟩ = (types[i]?.map Value.text).getD .blank) ∧
        (∀ p, headRow d + types.length < p.row → u.cell p = {}) ∧
        ∀ i type id label kind, rows[i]? = some (type, [id, label, kind]) →
          RowKind.ofDatum kind = .formula → ∀ column, 6 ≤ column → column ≤ 11 →
            (u.cell ⟨headRow d + 1 + i, column⟩).content =
              .entry .formula (.text ("=$E" ++ toString (headRow d + 1 + i))) := by
  intro run rows types
  rcases exists_prepared hd2 hlegible hbuild with ⟨t, rfl, htitle, ht, -⟩
  have hname : tabName (.startingAt d hd) 0 tab = name := by
    have hempty : name.isEmpty = false := by
      rw [Title.fault?] at hfit
      split at hfit
      next => cases hfit
      next hfilled => exact Bool.not_eq_true _ ▸ hfilled
    rw [tabName, hlabel, hempty]
    rfl
  rcases stacked_execute hcommit hok hd2 hlegible hwords ht htitle htab hname hfit hother hcopy
    hcodes hfits store with ⟨hresult, source, dest, -, -, hdest, hb⟩
  rcases find?_eq_some_iff.mp hdest with ⟨u, hu⟩
  have hplaced : Placed (headRow d) rows u := hu.sheet ▸ hb.dest
  have hlist : types = rows.map (·.1) := (map_fst_blockRows blocks codes).symm
  have hcounts : run.1 = _ := hresult
  refine ⟨by rw [hcounts], by rw [hcounts], by rw [hcounts], u, hu.titled?_eq, ?_, ?_, ?_⟩
  · intro i
    rw [hlist, List.getElem?_map]
    cases hi : rows[i]? with
    | some item => exact hplaced.tag i item.1 item.2 hi
    | none =>
      have hlow := List.getElem?_eq_none_iff.mp hi
      exact congrArg Cell.value (hplaced.below _ (by dsimp only; omega))
  · rw [hlist, List.length_map]
    exact hplaced.below
  · intro i type id label kind hi hkind column hleft hright
    exact hplaced.period i type [id, label, kind] ⟨id, label, .ofDatum kind⟩ hi rfl hkind column
      (List.mem_range'_1.mpr ⟨hleft, Nat.lt_succ_of_le hright⟩)

end

/-- A code that places the block of revenue. -/
def revenueCode : Code where
  key := "1"
  baseType := "UNITREV-VR"

/-- Revenue, a break and revenue twice more: each row of formulas refers to the row it is in, above
the row of the template that it comes from and below it. -/
theorem blocks_stack_revenue :
    ∃ b, build (.startingAt 9 (by decide)) defaultBlocks = .ok b ∧
      let codes := [revenueCode, breakCode, revenueCode, revenueCode]
      let run := execute (Session.document (pure () : Session.Action Unit Unit))
        (.startingAt 9 (by decide)) (tabCode "A" :: codes) ⟨b, ()⟩
      run.1.errors = [] ∧ run.1.processedCount = 4 ∧ ∃ u, run.2.workbook.titled? "A" = some u ∧
        u.value ⟨10, 4⟩ = .text "BR" ∧ u.value ⟨15, 4⟩ = .blank ∧
        (u.cell ⟨9, 6⟩).content = .entry .formula (.text "=$E9") ∧
        (u.cell ⟨14, 6⟩).content = .entry .formula (.text "=$E14") := by
  have hbuilt : (build (.startingAt 9 (by decide)) defaultBlocks).isOk = true := by
    decide +kernel
  cases hbuild : build (.startingAt 9 (by decide)) defaultBlocks with
  | error fault =>
    rw [hbuild] at hbuilt
    cases hbuilt
  | ok b =>
    have hrevenue : Plain defaultBlocks revenueCode := ⟨by decide +kernel, rfl, rfl⟩
    have hbreak : Plain defaultBlocks breakCode := ⟨by decide +kernel, rfl, rfl⟩
    have hcodes : ∀ c ∈ [revenueCode, breakCode, revenueCode, revenueCode],
        Plain defaultBlocks c := by
      simp [hrevenue, hbreak]
    have hharmless : Harmless (pure () : Session.Action Unit Unit) := fun _ => rfl
    have htab : IsTab (tabCode "A") := rfl
    rcases blocks_stack hharmless (fun _ => rfl) (by decide) legible_defaultBlocks
      (by decide +kernel) hbuild htab rfl (by decide +kernel) (by decide +kernel)
      (by decide +kernel) hcodes (by decide +kernel) () with
      ⟨herrors, hcount, -, u, hu, htypes, -, hperiods⟩
    refine ⟨b, rfl, herrors, hcount, u, hu, htypes 2, htypes 7, ?_, ?_⟩
    · exact hperiods 1 _ _ _ _ rfl rfl 6 (by decide) (by decide)
    · exact hperiods 6 _ _ _ _ rfl rfl 6 (by decide) (by decide)

end Sheetwright.Run
