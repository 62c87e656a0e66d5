import Mathlib.Data.List.Basic
import Sheetwright.Proofs.Run.Appending
import Sheetwright.Proofs.Run.Abreast
import Sheetwright.Proofs.Run.Accounts
/-!
# How far a failed commit reaches

Two runs start from the same workbook, and only in the first one commits may fail. As long as the
blocks of both runs go to the same targets, the first run differs from the second one in nothing but
the codes whose commits fail: `failed_commits_scoped`, which also says from the first run alone when
this is so. A tab whose commit fails is there but does not become the target, so that in general the
failure reaches the codes behind it: `not_failed_commits_scoped`.
-/

namespace Sheetwright.Run

open Operation Workbook

variable {ρ ρ' : Type} {commit : Session.Action ρ Unit} {commit' : Session.Action ρ' Unit}
  {layout : Layout}

/-! ## Had the commit not failed -/

/-- What would have become of the code, had its commit not failed. -/
def Account.forgiven : Account → Account
  | uncommitted done _ => .ofCommit done (.ok ())
  | a => a

def Entry.forgiven (e : Entry) : Entry := { e with account := e.account.forgiven }

theorem Account.tab?_forgiven (a : Account) : a.forgiven.tab? = a.made? := by
  rcases a with _ | name | _ | failure | ⟨_ | name | _, fault⟩ <;> rfl

theorem Account.forgiven_ofCommit (done : Outcome) (r : Except Document.Fault Unit) :
    (ofCommit done r).forgiven = ofCommit done (.ok ()) := by
  rcases done with _ | name | _ <;> rcases r with fault | _ <;> rfl

/-! ## Two documents over the same workbook -/

/-- The two sessions have the same workbook. -/
def SameBook (s : Session ρ) (s' : Session ρ') : Prop := s.workbook = s'.workbook

/-- Committing never fails. -/
def Unfailing (commit : Session.Action ρ Unit) : Prop := ∀ s, outcome commit s = .ok ()

theorem mirrors_sameBook (commit : Session.Action ρ Unit) (commit' : Session.Action ρ' Unit) :
    (Session.document commit).bare.Mirrors SameBook (Session.document commit').bare :=
  -- without a commit both are documents that commit nothing
  Document.mirrors_session (fun _ _ h => h) (fun _ _ _ _ => rfl)
    (⟨fun _ _ h => ⟨rfl, h⟩⟩ : Agree SameBook (· = ·) (pure ()) (pure ()))

/-! ## One code -/

theorem edit_eq_of_not_isBlock {σ κ : Type} (doc : Document σ κ) {c : Code} (hc : ¬IsBlock c)
    (target target' : Option String) (index : Nat) :
    edit doc layout target index c = edit doc layout target' index c := by
  rcases isTab_or_isBlock c with hmodel | htab | hblock
  · rw [edit_model doc hmodel, edit_model doc hmodel]
  · rw [edit_tab doc htab, edit_tab doc htab]
  · exact absurd hblock hc

theorem Harmless.workbook_step (hcommit : Harmless commit) (p : Progress) (index : Nat) (c : Code)
    (s : Session ρ) :
    (step (Session.document commit) layout p index c s).2.workbook =
      (after (edit (Session.document commit) layout p.target index c) s).workbook := by
  rw [step_snd_eq]
  dsimp only
  split
  · exact hcommit _
  · rfl

/-- A code that goes to the same target comes to the same, apart from its commit. -/
theorem step_sameBook (hcommit : Harmless commit) (hcommit' : Harmless commit')
    (hok : Unfailing commit') (layout : Layout) {p p' : Progress} (index : Nat) {c : Code}
    {s : Session ρ} {s' : Session ρ'} (hs : SameBook s s')
    (htarget : IsBlock c → p.target = p'.target) :
    account (Session.document commit') layout p' index c s' =
        (account (Session.document commit) layout p index c s).forgiven ∧
      SameBook (step (Session.document commit) layout p index c s).2
        (step (Session.document commit') layout p' index c s').2 := by
  -- only blocks read the target, and for them both runs have the same one
  have hedit : edit (Session.document commit') layout p'.target index c =
      edit (Session.document commit') layout p.target index c := by
    by_cases hc : IsBlock c
    · rw [htarget hc]
    · exact edit_eq_of_not_isBlock _ hc _ _ _
  have hagree := agree_edit layout (mirrors_sameBook commit commit') p.target index c
  rw [SameBook, hcommit.workbook_step, hcommit'.workbook_step, account, account, hedit]
  rcases hagree.cases hs with ⟨done, _, t, t', hx, hy, rfl, ht⟩ | ⟨failure, t, t', hx, hy, ht⟩
  · have hr : outcome (Session.document commit').commit t' = .ok () := hok t'
    rw [outcome_of_run (r := .ok done) hx, outcome_of_run (r := .ok done) hy,
      after_of_run (r := .ok done) hx, after_of_run (r := .ok done) hy]
    dsimp only
    rw [hr, Account.forgiven_ofCommit]
    exact ⟨rfl, ht⟩
  · rw [outcome_of_run (r := .error failure) hx, outcome_of_run (r := .error failure) hy,
      after_of_run (r := .error failure) hx, after_of_run (r := .error failure) hy]
    exact ⟨rfl, ht⟩

/-! ## All codes -/

section

variable {codes : List Code} {s : Session ρ} {s' : Session ρ'}

/-- The two runs have come to the same with their first codes, apart from commits. -/
structure Abiding (commit : Session.Action ρ Unit) (commit' : Session.Action ρ' Unit)
    (layout : Layout) (codes : List Code) (s : Session ρ) (s' : Session ρ') (i : Nat) : Prop where
  entries : (ledger (Session.document commit') layout codes s').take i =
    ((ledger (Session.document commit) layout codes s).take i).map Entry.forgiven
  book : SameBook (upTo (Session.document commit) layout codes s i).2
    (upTo (Session.document commit') layout codes s' i).2

/-- Before a point of the two runs, blocks have gone to the same targets. -/
def SameTargets (commit : Session.Action ρ Unit) (commit' : Session.Action ρ' Unit)
    (layout : Layout) (codes : List Code) (s : Session ρ) (s' : Session ρ') (i : Nat) : Prop :=
  ∀ j c, j < i → codes[j]? = some c → IsBlock c →
    (upTo (Session.document commit) layout codes s j).1.target =
      (upTo (Session.document commit') layout codes s' j).1.target

theorem SameTargets.abiding (hcommit : Harmless commit) (hcommit' : Harmless commit')
    (hok : Unfailing commit') (hs : SameBook s s') {i : Nat}
    (h : SameTargets commit commit' layout codes s s' i) :
    Abiding commit commit' layout codes s s' i := by
  induction i with
  | zero => exact ⟨rfl, hs⟩
  | succ i ih =>
    rcases ih fun j c hj => h j c (Nat.lt_succ_of_lt hj) with ⟨hentries, hbook⟩
    cases hc : codes[i]? with
    | none =>
      -- behind the last code nothing is added on either side
      have hlength := List.getElem?_eq_none_iff.mp hc
      refine ⟨?_, ?_⟩
      · rw [List.take_add_one, List.take_add_one, getElem?_ledger, getElem?_ledger, hc, hentries,
          List.map_append]
        rfl
      · rw [upTo_of_le _ _ hlength, upTo_of_le _ _ hlength] at hbook
        rwa [upTo_of_le _ _ (by omega), upTo_of_le _ _ (by omega)]
    | some c =>
      rcases step_sameBook hcommit hcommit' hok layout i hbook (h i c (Nat.lt_succ_self i) hc) with
        ⟨haccount, hstep⟩
      refine ⟨?_, ?_⟩
      · rw [List.take_add_one, List.take_add_one, getElem?_ledger, getElem?_ledger, hc, hentries,
          List.map_append]
        dsimp only [Option.map_some]
        rw [haccount]
        rfl
      · rwa [upTo_succ _ _ hc, upTo_succ _ _ hc]

/-- Where commits never fail, the target is the last tab that was made. -/
theorem Abiding.target_eq {i : Nat} (h : Abiding commit commit' layout codes s s' i) :
    (upTo (Session.document commit') layout codes s' i).1.target =
      (((ledger (Session.document commit) layout codes s).take i).filterMap
        (·.account.made?)).getLast? := by
  rw [target_upTo, h.entries, List.filterMap_map]
  congr 2
  funext e
  exact e.account.tab?_forgiven

end

/-- Every block goes to the last tab that was made, committed or not. -/
def OnCourse (commit : Session.Action ρ Unit) (layout : Layout) (codes : List Code)
    (s : Session ρ) : Prop :=
  ∀ i c, codes[i]? = some c → IsBlock c →
    (upTo (Session.document commit) layout codes s i).1.target =
      (((ledger (Session.document commit) layout codes s).take i).filterMap
        (·.account.made?)).getLast?

/-- A run is on course if the commits of its tabs do not fail. -/
theorem onCourse_of_tabs {codes : List Code} {s : Session ρ}
    (h : ∀ e ∈ ledger (Session.document commit) layout codes s,
      e.account.made? = e.account.tab?) : OnCourse commit layout codes s := by
  intro i c _ _
  rw [target_upTo]
  congr 1
  refine List.filterMap_congr fun e he => ?_
  exact (h e (List.mem_of_mem_take he)).symm

/-- Failed commits add their errors to those that are reported anyway. -/
theorem Entry.error?_eq_some_iff {e : Entry} {x : RunError} :
    e.error? = some x ↔ e.forgiven.error? = some x ∨ ∃ done fault,
      e.account = .uncommitted done fault ∧
        x = ⟨e.index, e.code.baseType, fault.message, "DocumentOperationError"⟩ := by
  rcases e with ⟨index, c, a⟩
  cases a with
  | uncommitted done fault =>
    have hforgiven : (Entry.mk index c (.uncommitted done fault)).forgiven.error? = none := by
      rcases done with _ | name | _ <;> rfl
    rw [hforgiven]
    constructor
    · intro h
      cases h
      exact Or.inr ⟨done, fault, rfl, rfl⟩
    · rintro (h | ⟨done', fault', h, rfl⟩)
      · cases h
      · cases h
        rfl
  | _ =>
    refine ⟨Or.inl, fun h => h.resolve_right ?_⟩
    rintro ⟨done, fault, h, -⟩
    cases h

/-- The second run comes to what the first one would have come to with all failed commits forgiven:
each code ends alike, apart from those whose commits failed, and so do the workbooks. -/
structure Scoped (commit : Session.Action ρ Unit) (commit' : Session.Action ρ' Unit)
    (layout : Layout) (codes : List Code) (s : Session ρ) (s' : Session ρ') : Prop where
  entries : ledger (Session.document commit') layout codes s' =
    (ledger (Session.document commit) layout codes s).map Entry.forgiven
  book : (execute (Session.document commit) layout codes s).2.workbook =
    (execute (Session.document commit') layout codes s').2.workbook

section

variable {codes : List Code} {s : Session ρ} {s' : Session ρ'}

theorem OnCourse.sameTargets (h : OnCourse commit layout codes s) (hcommit : Harmless commit)
    (hcommit' : Harmless commit') (hok : Unfailing commit') (hs : SameBook s s') (i : Nat) :
    SameTargets commit commit' layout codes s s' i := by
  -- where the runs have come to the same, the second one has the target that is asked for
  induction i with
  | zero => exact fun j c hj => absurd hj (Nat.not_lt_zero j)
  | succ i ih =>
    intro j c hj hc hblock
    rcases Nat.lt_or_eq_of_le (Nat.le_of_lt_succ hj) with hlt | rfl
    · exact ih j c hlt hc hblock
    · rw [h j c hc hblock, (ih.abiding hcommit hcommit' hok hs).target_eq]

theorem onCourse_of_sameTargets (hcommit : Harmless commit) (hcommit' : Harmless commit')
    (hok : Unfailing commit') (hs : SameBook s s')
    (h : ∀ i, SameTargets commit commit' layout codes s s' i) :
    OnCourse commit layout codes s := by
  intro i c hc hblock
  rw [h (i + 1) i c (Nat.lt_succ_self i) hc hblock]
  exact ((h i).abiding hcommit hcommit' hok hs).target_eq

theorem Abiding.scoped (h : Abiding commit commit' layout codes s s' codes.length) :
    Scoped commit commit' layout codes s s' := by
  rcases h with ⟨hentries, hbook⟩
  rw [take_ledger, take_ledger, List.take_length] at hentries
  rw [SameBook, upTo_of_le _ _ (Nat.le_refl _), upTo_of_le _ _ (Nat.le_refl _)] at hbook
  exact ⟨hentries, hbook⟩

theorem Scoped.mem_errors_iff (h : Scoped commit commit' layout codes s s') (x : RunError) :
    x ∈ (execute (Session.document commit) layout codes s).1.errors ↔
      x ∈ (execute (Session.document commit') layout codes s').1.errors ∨
        ∃ e ∈ ledger (Session.document commit) layout codes s, ∃ done fault,
          e.account = .uncommitted done fault ∧
            x = ⟨e.index, e.code.baseType, fault.message, "DocumentOperationError"⟩ := by
  rw [errors_execute, errors_execute, h.entries, List.filterMap_map, List.mem_filterMap,
    List.mem_filterMap]
  constructor
  · rintro ⟨e, he, hx⟩
    rcases Entry.error?_eq_some_iff.mp hx with hx | ⟨done, fault, haccount, hx⟩
    · exact Or.inl ⟨e, he, hx⟩
    · exact Or.inr ⟨e, he, done, fault, haccount, hx⟩
  · rintro (⟨e, he, hx⟩ | ⟨e, he, done, fault, haccount, hx⟩)
    · exact ⟨e, he, Entry.error?_eq_some_iff.mpr (Or.inl hx)⟩
    · exact ⟨e, he, Entry.error?_eq_some_iff.mpr (Or.inr ⟨done, fault, haccount, hx⟩)⟩

end

/-- A run in which commits fail, beside one from the same workbook in which none fails. The blocks
of both go to the same targets exactly if the first run is on course, every block of it going to the
last tab that was made, committed or not. Then the failures are scoped: they reach no other code and
no sheet, and besides the errors of the second run the first one reports those of the codes whose
commits failed after they were done. -/
theorem failed_commits_scoped (hcommit : Harmless commit) (hcommit' : Harmless commit')
    (hok : Unfailing commit') (layout : Layout) (codes : List Code) {s : Session ρ}
    {s' : Session ρ'} (hs : s.workbook = s'.workbook) :
    let doc := Session.document commit
    let doc' := Session.document commit'
    ((∀ i, SameTargets commit commit' layout codes s s' i) ↔ OnCourse commit layout codes s) ∧
      (OnCourse commit layout codes s → Scoped commit commit' layout codes s s' ∧
        ∀ x, x ∈ (execute doc layout codes s).1.errors ↔
          x ∈ (execute doc' layout codes s').1.errors ∨
            ∃ e ∈ ledger doc layout codes s, ∃ done fault, e.account = .uncommitted done fault ∧
              x = ⟨e.index, e.code.baseType, fault.message, "DocumentOperationError"⟩) := by
  intro doc doc'
  constructor
  · constructor
    · exact onCourse_of_sameTargets hcommit hcommit' hok hs
    · exact fun h i => h.sameTargets hcommit hcommit' hok hs i
  · intro h
    have htargets := h.sameTargets hcommit hcommit' hok hs codes.length
    have hscoped := (htargets.abiding hcommit hcommit' hok hs).scoped
    exact ⟨hscoped, hscoped.mem_errors_iff⟩

/-- A way to commit that fails at one of its calls, which the store counts. -/
def failingAt (call : Nat) : Session.Action Nat Unit := fun s =>
  let counted := { s with store := s.store + 1 }
  if s.store = call then .error (.other "disk full") counted else .ok () counted

theorem harmless_failingAt (call : Nat) : Harmless (failingAt call) := by
  intro s
  rw [after, EStateM.run, failingAt]
  by_cases h : s.store = call
  · rw [if_pos h]
  · rw [if_neg h]

/-- The second of three commits fails, which is that of a block. -/
theorem failed_commits_scoped_block :
    let codes := [tabCode "A", breakCode, breakCode]
    let s : Session Nat := ⟨⟨[breaks "Codes"]⟩, 0⟩
    let s' : Session Unit := ⟨⟨[breaks "Codes"]⟩, ()⟩
    (execute (Session.document (failingAt 1)) {} codes s).1.errors =
        [⟨1, "BR", "disk full", "DocumentOperationError"⟩] ∧
      OnCourse (failingAt 1) {} codes s ∧ Scoped (failingAt 1) (pure ()) {} codes s s' := by
  intro codes s s'
  have hcommit' : Harmless (pure () : Session.Action Unit Unit) := fun _ => rfl
  have hok : Unfailing (pure () : Session.Action Unit Unit) := fun _ => rfl
  have hcourse : OnCourse (failingAt 1) {} codes s := by
    refine onCourse_of_tabs fun e he => ?_
    have hall : (ledger (Session.document (failingAt 1)) {} codes s).all
        (fun e => e.account.made? = e.account.tab?) = true := by
      decide +kernel
    exact of_decide_eq_true (List.all_eq_true.mp hall e he)
  have hbook : s.workbook = s'.workbook := rfl
  have hscoped := failed_commits_scoped (harmless_failingAt 1) hcommit' hok {} codes hbook
  exact ⟨by decide +kernel, hcourse, (hscoped.2 hcourse).1⟩

/-- The commit of the only tab fails. The block behind it has no target then, though the tab is
there. -/
theorem not_failed_commits_scoped :
    let codes := [tabCode "A", breakCode]
    let s : Session Nat := ⟨⟨[breaks "Codes"]⟩, 0⟩
    let s' : Session Unit := ⟨⟨[breaks "Codes"]⟩, ()⟩
    Harmless (failingAt 0) ∧ ¬Scoped (failingAt 0) (pure ()) {} codes s s' := by
  intro codes s s'
  refine ⟨harmless_failingAt 0, fun h => ?_⟩
  have hblocks := congrArg (List.map (·.account.isBlock)) h.entries
  revert hblocks
  decide +kernel

end Sheetwright.Run
