import Sheetwright.Proofs.Grid.Separable
import Sheetwright.Proofs.Run.Scope
import Sheetwright.Proofs.Run.Template
import Sheetwright.Proofs.Workbook.Titles
/-!
# Tabs that are refused

A run refuses a tab whose title is that of the template or holds a character that no title may hold,
and one for which the numbers behind a title are exhausted. It refuses no other tab, as long as no
commit fails, the template can be copied and cleared, and no title is given twice:
`exists_tab_error_iff`. Both conditions on the workbook are kept by every step of a run, whatever
the codes come to.
-/

namespace Sheetwright.Run

open Grid Operation Workbook

variable {ρ : Type} {layout : Layout} {commit : Session.Action ρ Unit} {name : String}
  {codes : List Code} {s : Session ρ}

/-! ## One tab -/

/-- A title that a tab cannot have. -/
def Unfit (layout : Layout) (name : String) : Prop :=
  name = layout.templateSheet ∨ ∃ c ∈ name.toList, c ∈ Title.invalidCharacters

instance (layout : Layout) (name : String) : Decidable (Unfit layout name) :=
  decidable_of_iff (name = layout.templateSheet ∨
      name.toList.any Title.invalidCharacters.contains = true) <| by
    simp [Unfit]

/-- A tab of a title finds the numbers exhausted: those behind the provisional title of the copy, or
those behind its own. -/
def Numberless (layout : Layout) (name : String) (b : Workbook) : Prop :=
  let rest := b.without name
  Title.Exhausted rest.titles (layout.templateSheet ++ " Copy") ∨
    name ≠ rest.copyTitle layout.templateSheet ∧
      Title.Exhausted (rest.titles ++ [rest.copyTitle layout.templateSheet]) name

instance (layout : Layout) (name : String) (b : Workbook) : Decidable (Numberless layout name b) :=
  inferInstanceAs (Decidable (_ ∨ _ ∧ _))

theorem fault?_eq_none_of_not_unfit (hne : name ≠ "") (h : ¬Unfit layout name) :
    Title.fault? name = none :=
  Title.fault?_eq_none_iff.mpr ⟨hne, fun c hc hinvalid => h (Or.inr ⟨c, hc, hinvalid⟩)⟩

/-- A title that is taken in other cases gets no number if there are too many digits behind it. -/
theorem numberless_of_long {b : Workbook} (hname : name ≠ "") (hcomma : ',' ∉ name.toList)
    (hfree : name ∉ b.titles) (hcopy : name ≠ b.copyTitle layout.templateSheet)
    (htaken : b.titles.any (Title.same name) = true) {digits : List Char}
    (hdigits : ∀ c ∈ digits, Text.isDigit c = true) (hlong : Text.digitLimit < digits.length)
    (hmem : name ++ String.ofList digits ∈ b.titles) : Numberless layout name b := by
  rw [Numberless, without_of_not_mem hfree]
  refine Or.inr ⟨hcopy, digits, ?_, Or.inl hlong⟩
  refine Title.mem_digitsBehind hname hcomma ?_ hdigits (List.mem_append_left _ hmem)
  rw [List.any_append, htaken, Bool.true_or]

theorem TabRun.unrepeated {b b' : Workbook} {r : Except Failure Unit}
    (h : TabRun layout name b r b') (hb : b.Unrepeated) : b'.Unrepeated := by
  have hbefore : (b.without name).Unrepeated := hb.without name
  -- with its rows cleared or not, the copy has a title of its own
  have hcopied {place : Nat} {t u : Sheet} {r : Except Fault Unit}
      (htitle : (b.without name).tabFault? layout.templateSheet name = none)
      (hrun : (Sheet.clearFrom layout.dataStartRow).run
        ((b.without name).tabSheet layout.templateSheet name t) = ending r u) :
      ((b.without name).copied place u).Unrepeated := by
    refine hbefore.copied place ?_
    rw [title_of_clearFrom hrun]
    exact tabTitle_not_mem (Title.fault?_eq_none_iff.mp (tabFault?_eq_none_iff.mp htitle).2.1).1
  cases h with
  | overwrites => exact hb
  | missing => exact hbefore
  | uncopied => exact hbefore
  | refused => exact hbefore.takenBack _ _
  | uncleared _ _ _ htitle h => exact hcopied (r := .error _) htitle h
  | made _ _ _ htitle h => exact hcopied (r := .ok ()) htitle h

/-- A tab is made unless its title is unfit or numbers are exhausted. -/
theorem TabRun.eq_ok_iff {b b' : Workbook} {r : Except Failure Unit}
    (h : TabRun layout name b r b') (hname : name ≠ "") (hcomma : ',' ∉ name.toList)
    (hb : b.Unrepeated) (hfit : Title.fault? layout.templateSheet = none)
    (htemplate : b.Kept Sheet.Separable layout.templateSheet) :
    r = .ok () ↔ ¬Unfit layout name ∧ ¬Numberless layout name b := by
  constructor
  · rintro rfl
    cases h with
    | made hne hs hcopy htitle =>
      rcases tabFault?_eq_none_iff.mp htitle with ⟨-, hfault, hnumbers⟩
      refine ⟨fun hunfit => ?_, fun hnumberless => ?_⟩
      · rcases hunfit with heq | ⟨c, hc, hinvalid⟩
        · exact hne heq
        · exact (Title.fault?_eq_none_iff.mp hfault).2 c hc hinvalid
      · rcases hnumberless with hexhausted | ⟨hother, hexhausted⟩
        · exact (copyFault?_eq_none_iff.mp hcopy).2 hexhausted
        · exact hnumbers hother hexhausted
  · rintro ⟨hgood, hnumbers⟩
    cases h with
    | overwrites heq => exact absurd (Or.inl heq) hgood
    | missing hne hmissing =>
      rcases htemplate.without hne with ⟨place, t, ht, -⟩
      exact absurd ht.mem_titles hmissing
    | uncopied _ _ hcopy =>
      rw [copyFault?_eq_none_iff.mpr
        ⟨Title.fault?_copy hfit, fun hexhausted => hnumbers (Or.inl hexhausted)⟩] at hcopy
      cases hcopy
    | refused _ _ _ hrefused =>
      -- no other sheet has the title, so it is the title itself that is at fault
      have hfree : name ∉ (b.without name).titles := hb.not_mem_without hcomma
      rw [tabFault?_eq_none_iff.mpr ⟨fun hmem => absurd hmem hfree,
        fault?_eq_none_of_not_unfit hname hgood,
        fun hother hexhausted => hnumbers (Or.inr ⟨hother, hexhausted⟩)⟩] at hrefused
      cases hrefused
    | uncleared hne ht _ _ hclear =>
      rcases kept_iff.mp (htemplate.without hne) with ⟨t, hfound, hseparable⟩
      obtain rfl := Option.some.inj (hfound.symm.trans ht.titled?_eq)
      have hcopy : ((b.without name).tabSheet layout.templateSheet name t).Separable :=
        hseparable.copyOf.of_mem (fun _ hp => hp) rfl
      rcases hcopy.clearFrom layout.dataStartRow with ⟨u, hu⟩
      rw [hu] at hclear
      cases hclear
    | made => rfl

/-! ## What a run keeps -/

theorem unrepeated_placeBlock (commit : Session.Action ρ Unit) (target : String) (c : Code)
    (h : s.workbook.Unrepeated) :
    (after (placeBlock (Session.document commit) layout target c) s).workbook.Unrepeated := by
  have htitles : (after (placeBlock (Session.document commit) layout target c) s).workbook.titles =
      s.workbook.titles :=
    titles_placeBlock layout commit target c s
  rw [Unrepeated, htitles]
  exact h

theorem unrepeated_step (hcommit : Harmless commit) (p : Progress) (index : Nat) (c : Code)
    (h : s.workbook.Unrepeated) :
    (step (Session.document commit) layout p index c s).2.workbook.Unrepeated := by
  rw [hcommit.workbook_step]
  exact after_edit_of (P := fun s : Session ρ => s.workbook.Unrepeated) _ h
    (fun _ => (tabRun_makeTab layout commit _ s).1.unrepeated h)
    fun target _ _ => unrepeated_placeBlock commit target c h

theorem unrepeated_upTo (hcommit : Harmless commit) (h : s.workbook.Unrepeated) (i : Nat) :
    (upTo (Session.document commit) layout codes s i).2.workbook.Unrepeated :=
  stepAll_induction (I := fun _ (u : Session ρ) => u.workbook.Unrepeated) _ _
    (fun j c _ p _ hu => unrepeated_step hcommit p (0 + j) c hu) h

/-- A separable template stays so: it is searched and framed, and nothing else is done to it. -/
theorem robust_separable (hcommit : Harmless commit) : Robust layout commit Sheet.Separable where
  widened _ _ hs hw := hs.widened hw
  commit u hu := by rwa [hcommit u]

theorem separable_upTo (hcommit : Harmless commit)
    (h : s.workbook.Kept Sheet.Separable layout.templateSheet) (i : Nat) :
    (upTo (Session.document commit) layout codes s i).2.workbook.Kept Sheet.Separable
      layout.templateSheet :=
  ((robust_separable hcommit).kept_stepAll {} 0 (codes.take i)
    (fun _ _ _ _ _ hu => hu.frame) nofun h).2

/-! ## Errors -/

/-- No commit of a run fails. -/
def CommitsSucceed {σ κ : Type} (doc : Document σ κ) (layout : Layout) (codes : List Code)
    (state : σ) : Prop :=
  ∀ e ∈ ledger doc layout codes state, ∀ fault, e.account.commit? ≠ some (.error fault)

theorem Unfailing.commitsSucceed (h : Unfailing commit) (layout : Layout) (codes : List Code)
    (s : Session ρ) : CommitsSucceed (Session.document commit) layout codes s := by
  intro e he fault hfault
  rcases List.mem_iff_getElem?.mp he with ⟨i, hi⟩
  rw [getElem?_ledger] at hi
  rcases Option.map_eq_some_iff.mp hi with ⟨c, -, rfl⟩
  have hcommit := eq_of_commit? _ _ hfault
  rw [show (Session.document commit).commit = commit from rfl, h] at hcommit
  cases hcommit

/-- The account of a tab, by what making it and committing it come to. -/
theorem account_tab {σ κ : Type} (doc : Document σ κ) {p : Progress} {i : Nat} {c : Code}
    (htab : IsTab c) (state : σ) :
    account doc layout p i c state =
      let made := makeTab doc layout (tabName layout i c)
      match outcome made state with
      | .error failure => .failed failure
      | .ok _ => .ofCommit (.tab (tabName layout i c)) (outcome doc.commit (after made state)) := by
  rw [account, edit_tab doc htab, outcome_bind, after_bind_pure]
  dsimp only
  cases outcome (makeTab doc layout (tabName layout i c)) state <;> rfl

/-- A tab fails if it cannot be made or not be committed. -/
theorem exists_failure_tab_iff {σ κ : Type} (doc : Document σ κ) {p : Progress} {i : Nat} {c : Code}
    (htab : IsTab c) {state : σ}
    (hcommit : ∀ fault, (account doc layout p i c state).commit? ≠ some (.error fault)) :
    (∃ failure, (account doc layout p i c state).failure? = some failure) ↔
      outcome (makeTab doc layout (tabName layout i c)) state ≠ .ok () := by
  rw [account_tab doc htab] at hcommit ⊢
  dsimp only at hcommit ⊢
  generalize outcome (makeTab doc layout (tabName layout i c)) state = made at hcommit ⊢
  cases made with
  | error failure => exact iff_of_true ⟨failure, rfl⟩ nofun
  | ok _ =>
    refine iff_of_false ?_ fun h => h rfl
    generalize outcome doc.commit _ = committed at hcommit ⊢
    cases committed with
    | ok _ => exact nofun
    | error fault => exact absurd rfl (hcommit fault)

/-- A run reports an error for a tab exactly if the title of the tab is unfit or numbers are
exhausted when it is to be made. -/
theorem exists_tab_error_iff (hcommit : Harmless commit)
    (hsucceed : CommitsSucceed (Session.document commit) layout codes s)
    (hfit : Title.fault? layout.templateSheet = none)
    (htemplate : s.workbook.Kept Sheet.Separable layout.templateSheet)
    (hunrepeated : s.workbook.Unrepeated) {i : Nat} {c : Code} (hc : codes[i]? = some c)
    (htab : IsTab c) (hname : tabName layout i c ≠ "")
    (hcomma : ',' ∉ (tabName layout i c).toList) :
    (∃ x ∈ (execute (Session.document commit) layout codes s).1.errors, x.index = i) ↔
      Unfit layout (tabName layout i c) ∨ Numberless layout (tabName layout i c)
        (upTo (Session.document commit) layout codes s i).2.workbook := by
  have hentry := getElem?_ledger (Session.document commit) layout codes s i
  rw [hc, Option.map_some] at hentry
  have hmade := (tabRun_makeTab layout commit (tabName layout i c)
    (upTo (Session.document commit) layout codes s i).2).1.eq_ok_iff hname hcomma
      (unrepeated_upTo hcommit hunrepeated i) hfit (separable_upTo hcommit htemplate i)
  have herror := exists_error_iff (Session.document commit) layout codes s hc (P := fun _ => True)
  have hfailure := exists_failure_tab_iff (Session.document commit) htab
    (hsucceed _ (List.mem_of_getElem? hentry))
  simp only [and_true] at herror
  rw [errors_execute, herror, hfailure, ne_eq, hmade, not_and_or, not_not, not_not]

end Sheetwright.Run
