import Sheetwright.Document.Session
import Sheetwright.Proofs.Run.Tab
import Sheetwright.Proofs.Run.Watched
import Sheetwright.Proofs.Workbook.Standing
/-!
# The template of a run

A run finds the template by its title, copies it and searches it, and writes to other sheets only.
`kept_at_points` says so for any condition on the template that framing and searching keep: it holds
at every point of a run, whatever the codes are and wherever they fail.
-/

namespace Sheetwright.Run

open Grid Operation Workbook

variable {ρ α : Type} {P : Sheet → Prop} {title : String} {place copy : Nat}
  {G : Workbook → Prop}

/-! ## One operation -/

/-- The workbook satisfies a condition at present and satisfied another one in every noted state. -/
def Noting (G A : Workbook → Prop) : Session ρ × List (Session ρ) → Prop :=
  Noted (fun s => G s.workbook) fun s => A s.workbook

/-- The workbook satisfies a condition at present and kept the template in every noted state. -/
abbrev Watching (P : Sheet → Prop) (title : String) (A : Workbook → Prop) :
    Session ρ × List (Session ρ) → Prop :=
  Noting (Kept P title) A

theorem meets_ask {x : Workbook.Action α} {A C : Workbook → Prop} {B : α → Workbook → Prop}
    (h : Meets A x B fun _ => C) (hA : ∀ b, A b → G b) :
    Meets (Noting G A) (ask (watch (Session.onWorkbook (ρ := ρ) x)))
      (fun a => Noting G (B a)) fun _ => Noting G C := by
  exact Meets.adapt (meets_watch (meets_onWorkbook h) fun s => hA s.workbook)

theorem meets_read {A : Workbook → Prop} {E : Failure → Session ρ × List (Session ρ) → Prop}
    (f : Workbook → α) (hA : ∀ b, A b → G b) :
    Meets (Noting G A) (ask (watch (do return f (← get).workbook : Session.Action ρ α)))
      (fun a => Noting G fun b => A b ∧ a = f b) E := by
  refine Meets.adapt (Meets.conseq_stop (meets_watch (E := fun _ _ => False) ?_
    fun s => hA s.workbook) fun _ _ h => h.now.elim)
  exact ⟨fun s hs => ⟨hs, rfl⟩⟩

theorem Noting.imp {A B : Workbook → Prop} {u : Session ρ × List (Session ρ)}
    (h : Noting G A u) (himp : ∀ b, A b → B b) : Noting G B u :=
  ⟨himp _ h.now, h.seen⟩

/-- An operation that keeps the template wherever it ends. -/
theorem meets_call {x : Workbook.Action α} {A C : Workbook → Prop} {B : α → Workbook → Prop}
    (h : Meets A x B fun _ => C) (hA : ∀ b, A b → b.Kept P title)
    (hC : ∀ b, C b → b.Kept P title) :
    Meets (Watching P title A) (ask (watch (Session.onWorkbook (ρ := ρ) x)))
      (fun a => Watching P title (B a)) fun _ => Watching P title (Kept P title) :=
  (meets_ask h hA).conseq_stop fun _ _ h => h.imp hC

/-! ## Making a tab -/

section

variable {layout : Layout} {commit : Session.Action ρ Unit} {name : String}

theorem meets_find? {A : Workbook → Prop} {E : Failure → Session ρ × List (Session ρ) → Prop}
    (name : String) (hA : ∀ b, A b → G b) :
    Meets (Noting G A) (ask ((Session.document commit).watched.find? name))
      (fun found => Noting G fun b => A b ∧ found = b.find? name) E :=
  meets_read (fun b => b.find? name) hA

/-- After the sheet of a title was removed the workbook is the one without it. -/
theorem meets_vacate (commit : Session.Action ρ Unit) {b : Workbook} (hb : G b) (name : String) :
    Meets (Noting G (· = b)) (vacate (Session.document commit).watched name)
      (fun _ => Noting G (· = b.without name)) fun _ => Noting G (· = b) := by
  have hG : ∀ b', b' = b → G b' := by
    rintro _ rfl
    exact hb
  refine Meets.bind (meets_find? name hG) fun found => Meets.ite (fun _ => ?_) fun hnone => ?_
  · have hdelete : Meets (fun b' => b' = b ∧ found = b'.find? name) (Workbook.delete name)
        (fun _ b' => b' = b.without name) fun _ b' => b' = b := by
      refine ⟨fun b' hb' => ?_⟩
      rw [run_delete]
      by_cases hname : name ∈ b'.titles
      · rw [if_pos hname, hb'.1]
      · rw [if_neg hname]
        exact hb'.1
    exact meets_ask hdelete fun b' hb' => hG b' hb'.1
  · refine Meets.done fun _ h => h.imp ?_
    rintro _ ⟨rfl, rfl⟩
    rw [Option.not_isSome_iff_eq_none, find?_eq_none_iff] at hnone
    exact (without_of_not_mem hnone).symm

theorem meets_titleCopy (name : String) :
    Meets
      (Watching P title fun b => b.KeptBefore P title copy ∧ (b.sheet copy).title ≠ title)
      (titleCopy (Session.document commit).watched copy name)
      (fun _ => Watching P title (KeptBefore P title copy))
      fun _ => Watching P title (Kept P title) := by
  rw [titleCopy_eq]
  refine Meets.catching (meets_ask (meets_rename name) fun _ h => h.1.kept) fun failure => ?_
  refine Meets.ite (fun _ => ?_) fun _ => Meets.stop fun u h => h.imp fun _ h => h.1.kept
  refine Meets.bind (meets_read (fun b => (b.sheet copy).title) fun _ h => h.1.kept) fun found => ?_
  -- the copy is taken back by its title, which is not that of the template
  refine Meets.assuming (p := found ≠ title) ?_ fun hne => ?_
  · rintro u ⟨⟨⟨-, hne⟩, rfl⟩, -⟩
    exact hne
  · have hdelete := meets_call (ρ := ρ) (meets_delete (P := P) hne) (fun _ h => h) fun _ h => h
    refine Meets.bind (hdelete.conseq_pre ?_) fun _ => ?_
    · exact fun u h => h.imp fun _ h => h.1.1.kept
    · exact Meets.stop fun _ h => h

theorem meets_trim (layout : Layout) :
    Meets (Watching P title (KeptBefore P title copy))
      (trim (Session.document commit).watched layout copy)
      (fun _ => Watching P title (Kept P title)) fun _ => Watching P title (Kept P title) := by
  refine Meets.bind (meets_read (fun b => (b.sheet copy).maxRow) fun _ h => h.kept) fun bottom => ?_
  refine Meets.ite (fun _ => ?_) fun _ => Meets.done fun u h => h.imp fun _ h => h.1.kept
  have hclear := meets_call (ρ := ρ)
    (meets_onSheet_behind P title copy (Sheet.clearRows layout.dataStartRow bottom))
    (fun _ h => h.kept) fun _ h => h.kept
  exact hclear.conseq (fun _ h => h.imp fun _ h => h.1) (fun _ _ h => h.imp fun _ h => h.kept)
    fun _ _ h => h

theorem meets_makeTab {b : Workbook} (hb : b.Kept P layout.templateSheet)
    (hframe : name ≠ layout.templateSheet →
      (b.without name).copyFault? layout.templateSheet = none → ∀ s, P s → P s.frame) :
    Meets (Watching P layout.templateSheet (· = b))
      (makeTab (Session.document commit).watched layout name)
      (fun _ u => Watching P layout.templateSheet (Kept P layout.templateSheet) u ∧
        name ≠ layout.templateSheet)
      fun _ => Watching P layout.templateSheet (Kept P layout.templateSheet) := by
  have hkept {b' : Workbook} (hb' : b' = b) : b'.Kept P layout.templateSheet := hb' ▸ hb
  rw [makeTab_eq]
  -- a tab of the title of the template stops before anything is done
  refine Meets.ite (fun _ => Meets.stop fun _ h => h.imp fun _ => hkept) fun hne => ?_
  have hvacate := (meets_vacate commit hb name).conseq_stop fun _ _ h => h.imp fun _ => hkept
  refine Meets.bind hvacate fun _ => ?_
  have hvacated := hb.without hne
  have hduplicate := meets_call (ρ := ρ) (meets_duplicate hvacated (hframe hne))
    (fun _ h => h ▸ hvacated) fun _ h => h
  refine Meets.bind hduplicate fun copy => ?_
  refine Meets.bind (meets_titleCopy name) fun _ => ?_
  exact (meets_trim layout).conseq_post fun _ _ h => ⟨h, hne⟩

/-! ## Placing a block -/

theorem meets_require {A : Workbook → Prop} {failure : Failure} (wanted : String)
    (hA : ∀ b, A b → G b) :
    Meets (Noting G A) (require (Session.document commit).watched wanted failure)
      (fun sheet => Noting G fun b => A b ∧ b.find? wanted = some sheet)
      fun _ => Noting G G := by
  refine Meets.bind (meets_find? wanted hA) fun found => ?_
  cases found with
  | some sheet => exact Meets.done fun _ h => h.imp fun _ h => ⟨h.1, h.2.symm⟩
  | none => exact Meets.stop fun _ h => h.imp fun b h => hA b h.1

theorem standing_of_find? {b : Workbook} (h : b.Kept P title ∧ b.find? title = some place) :
    b.Standing P title place := by
  rcases h with ⟨⟨place', s, hs, hP⟩, hfind⟩
  -- the place is that of the first sheet with the title in both
  obtain rfl : place' = place := Option.some.inj (hs.find?_eq.symm.trans hfind)
  exact ⟨s, hs, hP⟩

theorem ne_of_find? {b : Workbook} {target : String} (hne : target ≠ title)
    (h : b.Standing P title place ∧ b.find? target = some copy) : copy ≠ place := by
  rcases h with ⟨⟨s, hs, -⟩, hfind⟩
  rcases find?_eq_some_iff.mp hfind with ⟨t, ht⟩
  exact ht.place_ne hs hne

/-- Operations on another sheet that keep its title. -/
theorem meets_elsewhere {P' : Sheet → Prop} {action : Sheet.Action α} (title : String)
    (hne : copy ≠ place)
    (hP : ∀ s, P' s → P s) (htitle : Keeps Sheet.SameTitle action) :
    Meets (Watching P title (Standing P' title place))
      (ask (watch (Session.onSheet (ρ := ρ) copy action)))
      (fun _ => Watching P title (Standing P' title place))
      fun _ => Watching P title (Kept P title) :=
  meets_call (meets_onSheet_other hne htitle) (fun _ h => ⟨place, h.imp hP⟩)
    fun _ h => ⟨place, h.imp hP⟩

theorem meets_fillIn (hne : copy ≠ place) (start : Nat) (c : Code) :
    Meets (Watching P title (Standing P title place))
      (fillIn (Session.document commit).watched layout copy start c)
      (fun _ => Watching P title (Standing P title place))
      fun _ => Watching P title (Kept P title) := by
  have hdriver : Meets (Watching P title (Standing P title place))
      (writeDriver (Session.document commit).watched layout copy start c)
      (fun _ => Watching P title (Standing P title place))
      fun _ => Watching P title (Kept P title) := by
    refine Meets.ite (fun _ => ?_) fun _ => Meets.done fun _ h => h
    exact meets_elsewhere title hne (fun _ h => h) (Sheet.keeps_title_write _ _ _)
  refine Meets.bind hdriver fun _ => ?_
  refine Meets.ite (fun _ => ?_) fun _ => Meets.done fun _ h => h
  exact meets_elsewhere title hne (fun _ h => h) (Sheet.keeps_title_writeColumn _ _ _)

theorem meets_placeBlock {target : String} (hne : target ≠ layout.templateSheet)
    (hwiden : ∀ s t, P s → Sheet.Widened (s.searchArea layout.tagColumn) s t → P t) (c : Code) :
    Meets (Watching P layout.templateSheet (Kept P layout.templateSheet))
      (placeBlock (Session.document commit).watched layout target c)
      (fun _ => Watching P layout.templateSheet (Kept P layout.templateSheet))
      fun _ => Watching P layout.templateSheet (Kept P layout.templateSheet) := by
  rw [placeBlock_eq]
  refine Meets.bind (meets_require layout.templateSheet fun _ h => h) fun place => ?_
  refine Meets.conseq_pre ?_ fun _ h => h.imp fun _ => standing_of_find?
  refine Meets.bind (meets_require target fun _ h => ⟨place, h⟩) fun copy => ?_
  -- template and target have different titles, hence different places
  refine Meets.assuming (fun u h => ne_of_find? hne h.now) fun hplace => ?_
  have hfind := meets_call (ρ := ρ)
    (meets_findTagged layout.templateSheet place layout.tagColumn_pos hwiden c.baseType)
    (fun _ h => ⟨place, h⟩) fun _ h => ⟨place, h⟩
  refine Meets.bind (hfind.conseq_pre fun _ h => h.imp fun _ h => h.1) fun found => ?_
  -- the search may have allocated cells of the template, which the condition allows for
  cases found with
  | none => exact Meets.stop fun _ h => h.imp fun _ h => ⟨place, h.imp fun _ h => h.1⟩
  | some rows =>
    have hlast := meets_elsewhere (ρ := ρ) (P := P) layout.templateSheet hplace
      (fun s (h : WithRows P rows s) => h.1) Sheet.keeps_title_lastUsedRow
    refine Meets.bind (hlast.conseq_pre ?_) fun last => ?_
    · exact fun _ h => h.imp fun _ h => h.imp fun _ h => h.2 rows rfl
    · have hcopy := meets_call (ρ := ρ)
        (meets_copyBlock layout.templateSheet rows hplace hwiden (last + 1) layout.lastColumn)
        (fun _ h => ⟨place, h.imp fun _ h => h.1⟩) fun _ h => ⟨place, h⟩
      refine Meets.bind hcopy fun _ => ?_
      exact (meets_fillIn hplace _ c).conseq_post fun _ _ h => h.imp fun _ h => ⟨place, h⟩

/-! ## Runs -/

/-- The code makes a copy of the template of a workbook, if there is one. -/
def Copies (layout : Layout) (b : Workbook) (index : Nat) (c : Code) : Prop :=
  IsTab c ∧ tabName layout index c ≠ layout.templateSheet ∧
    (b.without (tabName layout index c)).copyFault? layout.templateSheet = none

/-- Searching the template and committing keep a condition on the template. -/
structure Robust (layout : Layout) (commit : Session.Action ρ Unit) (P : Sheet → Prop) : Prop where
  widened : ∀ s t, P s → Sheet.Widened (s.searchArea layout.tagColumn) s t → P t
  commit : ∀ s, s.workbook.Kept P layout.templateSheet →
    (after commit s).workbook.Kept P layout.templateSheet

theorem Robust.meets_commit (h : Robust layout commit P) :
    Meets (Watching P layout.templateSheet (Kept P layout.templateSheet))
      (ask (Session.document commit).watched.commit)
      (fun _ => Watching P layout.templateSheet (Kept P layout.templateSheet))
      fun _ => Watching P layout.templateSheet (Kept P layout.templateSheet) := by
  refine Meets.adapt (meets_watch ?_ fun _ h => h)
  refine ⟨fun s hs => ?_⟩
  have hcommit := h.commit s hs
  have hdoc : (Session.document commit).commit = commit := rfl
  rw [hdoc]
  cases hrun : commit.run s with
  | ok a t => rwa [after_of_ok hrun] at hcommit
  | error fault t => rwa [after_of_error hrun] at hcommit

theorem Robust.meets_carryOut (h : Robust layout commit P) {target : Option String}
    (htarget : target ≠ some layout.templateSheet) {index : Nat} {c : Code} {b : Workbook}
    (hb : b.Kept P layout.templateSheet)
    (hframe : Copies layout b index c → ∀ s, P s → P s.frame) :
    Meets (Watching P layout.templateSheet (· = b))
      (carryOut (Session.document commit).watched layout target index c)
      (fun outcome u => Watching P layout.templateSheet (Kept P layout.templateSheet) u ∧
        outcome ≠ .tab layout.templateSheet)
      fun _ => Watching P layout.templateSheet (Kept P layout.templateSheet) := by
  have hkept (u : Session ρ × List (Session ρ)) (hu : Watching P layout.templateSheet (· = b) u) :
      Watching P layout.templateSheet (Kept P layout.templateSheet) u :=
    hu.imp fun _ hb' => hb' ▸ hb
  rcases isTab_or_isBlock c with hmodel | htab | hblock
  · rw [carryOut_model _ hmodel]
    exact Meets.done fun u hu => ⟨hkept u hu, nofun⟩
  · rw [carryOut_tab _ htab]
    refine Meets.bind (meets_makeTab hb fun hne hfault => hframe ⟨htab, hne, hfault⟩) fun _ => ?_
    refine Meets.assuming (fun _ h => h.2) fun hne => ?_
    refine Meets.bind (h.meets_commit.conseq_pre fun _ h => h.1) fun _ => ?_
    exact Meets.done fun _ h => ⟨h, fun h => hne (Outcome.tab.inj h)⟩
  · cases target with
    | none =>
      rw [carryOut_noTarget _ hblock]
      exact Meets.stop hkept
    | some target =>
      rw [carryOut_block _ hblock]
      -- the target was made by a tab, and no tab has the title of the template
      have hne : target ≠ layout.templateSheet := fun h => htarget (congrArg some h)
      refine Meets.bind ((meets_placeBlock hne h.widened c).conseq_pre hkept) fun _ => ?_
      refine Meets.bind h.meets_commit fun _ => ?_
      exact Meets.done fun _ h => ⟨h, nofun⟩

/-- Carrying out a code keeps the template at every point, and never makes the template the
target. -/
theorem Robust.kept_step (h : Robust layout commit P) {p : Progress}
    (hp : p.target ≠ some layout.templateSheet) {index : Nat} {c : Code} {s : Session ρ}
    (hframe : Copies layout s.workbook index c → ∀ v, P v → P v.frame)
    (hs : s.workbook.Kept P layout.templateSheet) :
    (step (Session.document commit) layout p index c s).1.target ≠ some layout.templateSheet ∧
      ∀ u ∈ stepPoints (Session.document commit) layout p index c s,
        u.workbook.Kept P layout.templateSheet := by
  have hcarry := (h.meets_carryOut hp hs hframe).ends (s, []) ⟨rfl, nofun⟩
  have hwatched : (step (Session.document commit).watched layout p index c (s, [])).1.target ≠
        some layout.templateSheet ∧
      Watching P layout.templateSheet (Kept P layout.templateSheet)
        (step (Session.document commit).watched layout p index c (s, [])).2 := by
    rw [step]
    cases hrun : (carryOut (Session.document commit).watched layout p.target index c).run
        (s, []) with
    | ok outcome t =>
      rw [hrun] at hcarry
      refine ⟨?_, hcarry.1⟩
      -- only a tab changes the target
      cases outcome with
      | nothing => exact hp
      | tab name => exact fun h => hcarry.2 (congrArg Outcome.tab (Option.some.inj h))
      | block => exact hp
    | error failure t =>
      rw [hrun] at hcarry
      exact ⟨hp, hcarry⟩
  -- the watched document carries out the code as the document itself does
  have hsame := step_watched layout (Session.document commit) p index c s
  refine ⟨hsame.1 ▸ hwatched.1, fun u hu => ?_⟩
  rcases (mem_stepPoints layout).mp hu with hu | rfl
  · exact hwatched.2.seen u hu
  · exact hsame.2 ▸ hwatched.2.now

/-- A condition on the template that searching and committing keep is kept by a run, if framing
keeps it too or the run makes no copy of the template. -/
theorem Robust.kept_stepAll (h : Robust layout commit P) (p : Progress) (index : Nat)
    (codes : List Code) {s : Session ρ}
    (hframe : ∀ i c, codes[i]? = some c →
      Copies layout (stepAll (Session.document commit) layout p index (codes.take i) s).2.workbook
        (index + i) c → ∀ v, P v → P v.frame)
    (hp : p.target ≠ some layout.templateSheet) (hs : s.workbook.Kept P layout.templateSheet) :
    (stepAll (Session.document commit) layout p index codes s).1.target ≠
        some layout.templateSheet ∧
      (stepAll (Session.document commit) layout p index codes s).2.workbook.Kept P
        layout.templateSheet := by
  induction codes generalizing p index s with
  | nil => exact ⟨hp, hs⟩
  | cons c codes ih =>
    have hstep := h.kept_step hp (hframe 0 c rfl) hs
    refine ih _ _ (fun i d hd hcopies => hframe (i + 1) d hd ?_) hstep.1
      (hstep.2 _ ((mem_stepPoints layout).mpr (Or.inr rfl)))
    rwa [Nat.add_right_comm] at hcopies

/-- It holds at every point of the run. -/
theorem Robust.kept_at_points (h : Robust layout commit P) {codes : List Code} {s : Session ρ}
    (hframe : ∀ i c, codes[i]? = some c →
      Copies layout (upTo (Session.document commit) layout codes s i).2.workbook i c →
        ∀ v, P v → P v.frame)
    (hs : s.workbook.Kept P layout.templateSheet) :
    ∀ u ∈ points (Session.document commit) layout codes s,
      u.workbook.Kept P layout.templateSheet := by
  -- the codes up to a point are a run of their own
  have hreached (n : Nat) :
      (upTo (Session.document commit) layout codes s n).1.target ≠ some layout.templateSheet ∧
        (upTo (Session.document commit) layout codes s n).2.workbook.Kept P
          layout.templateSheet := by
    refine h.kept_stepAll {} 0 (codes.take n) (fun i c hc hcopies => ?_) nofun hs
    rw [List.getElem?_take] at hc
    split at hc
    next hlt =>
      rw [List.take_take, Nat.min_eq_left (Nat.le_of_lt hlt), Nat.zero_add] at hcopies
      exact hframe i c hc hcopies
    next => cases hc
  intro u hu
  rcases mem_points layout hu with rfl | ⟨i, c, hc, hu⟩
  · have hend := (hreached codes.length).2
    rwa [upTo_of_le _ _ (Nat.le_refl _)] at hend
  · exact (h.kept_step (hreached i).1 (hframe i c hc) (hreached i).2).2 u hu

end

end Sheetwright.Run
