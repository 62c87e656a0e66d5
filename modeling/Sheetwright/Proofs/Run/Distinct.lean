import Sheetwright.Proofs.Run.Accounts
import Sheetwright.Proofs.Run.Apart
/-!
# Tabs with titles of their own

A tab is made in place of any sheet that has its title, so it also replaces a tab that the same run
has made before. Where no two tabs of the codes have the same title (`TabsApart`) a run reports no
title twice, and the sheet that is found under the title of a tab is left as it is by every other
tab.
-/

namespace Sheetwright.Run

open Operation Workbook

variable {σ κ ρ : Type} {layout : Layout} {codes : List Code}

/-- No two tabs of the codes have the same title. -/
def TabsApart (layout : Layout) (codes : List Code) : Prop :=
  ∀ i j c d, codes[i]? = some c → codes[j]? = some d → IsTab c → IsTab d →
    tabName layout i c = tabName layout j d → i = j

/-- The tabs that are reported are tabs of the codes, at their own positions. -/
theorem tab?_of_getElem?_ledger {doc : Document σ κ} {state : σ} {i : Nat} {e : Entry}
    (he : (ledger doc layout codes state)[i]? = some e) {name : String}
    (htab : e.account.tab? = some name) :
    ∃ c, codes[i]? = some c ∧ IsTab c ∧ name = tabName layout i c := by
  have hsuits := suits_of_mem_entries doc layout {} 0 codes state (List.mem_of_getElem? he)
  rw [getElem?_ledger] at he
  rcases Option.map_eq_some_iff.mp he with ⟨c, hc, rfl⟩
  refine ⟨c, hc, ?_⟩
  dsimp only at hsuits htab
  cases haccount : account doc layout (upTo doc layout codes state i).1 i c
      (upTo doc layout codes state i).2 with
  | tab other =>
    rw [haccount] at hsuits htab
    cases htab
    exact hsuits
  | _ =>
    rw [haccount] at htab
    cases htab

theorem TabsApart.nodup_createdTargets (h : TabsApart layout codes) (doc : Document σ κ)
    (state : σ) : (execute doc layout codes state).1.createdTargets.Nodup := by
  have hledger : (ledger doc layout codes state).Pairwise fun e e' =>
      ∀ name, e.account.tab? = some name → e'.account.tab? ≠ some name := by
    rw [List.pairwise_iff_getElem]
    intro i j hi hj hlt name htab htab'
    rcases tab?_of_getElem?_ledger (List.getElem?_eq_getElem hi) htab with ⟨c, hc, hct, hname⟩
    rcases tab?_of_getElem?_ledger (List.getElem?_eq_getElem hj) htab' with ⟨d, hd, hdt, hname'⟩
    exact absurd (h i j c d hc hd hct hdt (hname.symm.trans hname')) (Nat.ne_of_lt hlt)
  -- what is reported are the titles in the ledger, in its order
  rw [createdTargets_execute]
  refine hledger.filterMap _ fun e e' hdiffer name hname name' hname' hsame => ?_
  exact hdiffer name hname (hsame ▸ hname')

/-- A tab leaves the sheet under the title of another tab as it is. -/
theorem TabsApart.titled?_upTo_succ (h : TabsApart layout codes)
    {commit : Session.Action ρ Unit} (hcommit : Faithful commit) {i j : Nat} (hij : i ≠ j)
    {c d : Code} (hc : codes[i]? = some c) (hd : codes[j]? = some d) (hct : IsTab c) (hdt : IsTab d)
    (htemplate : layout.templateSheet ≠ tabName layout i c)
    (hdistinct : Distinct layout.templateSheet (tabName layout i c)) {s : Session ρ}
    {t : Grid.Sheet}
    (ht : (upTo (Session.document commit) layout codes s j).2.workbook.titled?
      (tabName layout i c) = some t) :
    (upTo (Session.document commit) layout codes s (j + 1)).2.workbook.titled?
      (tabName layout i c) = some t := by
  have haside : Aside layout (tabName layout i c)
      (upTo (Session.document commit) layout codes s j).1.target j d := by
    refine ⟨fun _ hname => ?_, fun hblock => absurd hdt hblock.2⟩
    exact hij (h i j c d hc hd hct hdt hname.symm)
  rw [upTo_succ _ _ hd]
  exact titled?_step_apart hcommit htemplate hdistinct haside ht

end Sheetwright.Run
