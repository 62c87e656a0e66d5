import Sheetwright.Proofs.Run.Accounts
import Sheetwright.Proofs.Run.Appending
/-!
# Where blocks are filed

A block is placed in the sheet that has the title of the latest tab: the last one before it that was
made and committed. A `TAB` code that fails, or whose commit fails, makes no difference to the codes
behind it: `blocks_filed`. So the nearest `TAB` code before a block need not name the sheet that the
block is placed in: `not_filesUnderNearest`.
-/

namespace Sheetwright.Run

open Grid Operation Workbook

variable {σ κ ρ : Type}

/-! ## The latest tab -/

/-- The entry made a tab, and no entry behind it did. -/
def LatestTab (l : List Entry) (e : Entry) : Prop :=
  ∃ before behind, l = before ++ e :: behind ∧ e.account.tab?.isSome = true ∧
    ∀ later ∈ behind, later.account.tab? = none

theorem Account.eq_of_tab? {a : Account} {name : String} (h : a.tab? = some name) :
    a = .tab name := by
  cases a with
  | tab name' =>
    cases h
    rfl
  | _ => cases h

theorem Account.eq_of_isBlock {a : Account} (h : a.isBlock = true) : a = .block := by
  cases a with
  | block => rfl
  | _ => cases h

/-- The last title of a tab belongs to the latest tab. -/
theorem getLast?_tabs_eq_some_iff {l : List Entry} {name : String} :
    (l.filterMap (·.account.tab?)).getLast? = some name ↔
      ∃ e, LatestTab l e ∧ e.account = .tab name := by
  rw [List.getLast?_filterMap, List.findSome?_eq_some_iff]
  constructor
  · rintro ⟨behind, e, before, hsplit, hname, hnone⟩
    refine ⟨e, ⟨before.reverse, behind.reverse, ?_, ?_, ?_⟩, Account.eq_of_tab? hname⟩
    · have hreverse := congrArg List.reverse hsplit
      simpa using hreverse
    · rw [hname]
      rfl
    · intro later hlater
      exact hnone later (List.mem_reverse.mp hlater)
  · rintro ⟨e, ⟨before, behind, rfl, -, hnone⟩, hname⟩
    refine ⟨behind.reverse, e, before.reverse, by simp, by rw [hname]; rfl, ?_⟩
    intro later hlater
    exact hnone later (List.mem_reverse.mp hlater)

variable {doc : Document σ κ} {layout : Layout} {codes : List Code} {state : σ} {i : Nat}

/-- The target of a run is the tab that its latest tab code names. -/
theorem target_eq_of_latestTab {e : Entry}
    (h : LatestTab ((ledger doc layout codes state).take i) e) :
    IsTab e.code ∧ e.account = .tab (tabName layout e.index e.code) ∧
      (upTo doc layout codes state i).1.target = some (tabName layout e.index e.code) := by
  have hlatest := h
  rcases h with ⟨before, behind, hsplit, hsome, -⟩
  rcases Option.isSome_iff_exists.mp hsome with ⟨name, hname⟩
  have hentry := Account.eq_of_tab? hname
  have hmem : e ∈ ledger doc layout codes state := by
    refine List.mem_of_mem_take (i := i) ?_
    rw [hsplit]
    exact List.mem_append_cons_self
  have hsuits := suits_of_mem_entries doc layout {} 0 codes state hmem
  rw [hentry] at hsuits
  rw [target_upTo, ← hsuits.2]
  exact ⟨hsuits.1, hentry, getLast?_tabs_eq_some_iff.mpr ⟨e, hlatest, hentry⟩⟩

theorem exists_latestTab {name : String}
    (h : (upTo doc layout codes state i).1.target = some name) :
    ∃ e, LatestTab ((ledger doc layout codes state).take i) e ∧ e.account = .tab name := by
  rw [target_upTo] at h
  exact getLast?_tabs_eq_some_iff.mp h

/-! ## One block -/

/-- A block that was placed was placed in the target. -/
theorem placed_of_account {p : Progress} {index : Nat} {c : Code}
    (h : account doc layout p index c state = .block) :
    ∃ target, p.target = some target ∧ outcome (placeBlock doc layout target c) state = .ok () := by
  have hblock : IsBlock c := by
    have hsuits := account_suits doc layout p index c state
    rwa [h] at hsuits
  rw [account] at h
  cases hp : p.target with
  | none =>
    rw [hp, edit_noTarget doc hblock] at h
    cases h
  | some target =>
    refine ⟨target, rfl, ?_⟩
    rw [hp, edit_block doc hblock, outcome_bind] at h
    cases hplace : outcome (placeBlock doc layout target c) state with
    | ok _ => rfl
    | error failure =>
      rw [hplace] at h
      cases h

/-- A block is placed in a sheet that is found under the title of the target. -/
theorem exists_stands_of_placed {commit : Session.Action ρ Unit} {target : String} {c : Code}
    {s : Session ρ}
    (h : outcome (placeBlock (Session.document commit) layout target c) s = .ok ()) :
    ∃ place u, s.workbook.Stands target place u := by
  rw [placeBlock_eq, outcome_bind, outcome_require, after_require] at h
  cases hplace : s.workbook.find? layout.templateSheet with
  | none =>
    rw [hplace] at h
    cases h
  | some place =>
    rw [hplace] at h
    dsimp only at h
    rw [outcome_bind, outcome_require] at h
    cases hsheet : s.workbook.find? target with
    | none =>
      rw [hsheet] at h
      cases h
    | some sheet => exact ⟨sheet, find?_eq_some_iff.mp hsheet⟩

/-- A block goes to the sheet that has the title of the latest tab, the one that the last `TAB` code
before it which did not fail names, whatever `TAB` codes failed in between. Without such a code it
fails for want of a target. -/
theorem blocks_filed (commit : Session.Action ρ Unit) (layout : Layout) (codes : List Code)
    (s : Session ρ) {i : Nat} {c : Code} (hc : codes[i]? = some c) (hblock : IsBlock c) :
    let doc := Session.document commit
    let all := ledger doc layout codes s
    let reached := upTo doc layout codes s i
    let own := account doc layout reached.1 i c reached.2
    all[i]? = some ⟨i, c, own⟩ ∧
      (∀ e, LatestTab (all.take i) e → IsTab e.code ∧
        e.account = .tab (tabName layout e.index e.code) ∧
        reached.1.target = some (tabName layout e.index e.code)) ∧
      (own = .block → ∃ e, LatestTab (all.take i) e ∧
        let name := tabName layout e.index e.code
        let placed := placeBlock doc layout name c
        outcome placed reached.2 = .ok () ∧
          (∃ place u, reached.2.workbook.Stands name place u) ∧
          reached.2.workbook.Appends layout.templateSheet name (after placed reached.2).workbook) ∧
      ((¬∃ e, LatestTab (all.take i) e) → own = .failed (.noTarget c.baseType)) := by
  intro doc all reached own
  refine ⟨?_, fun e he => target_eq_of_latestTab he, fun hown => ?_, fun hnone => ?_⟩
  · have hentry := getElem?_ledger doc layout codes s i
    rwa [hc] at hentry
  · rcases placed_of_account hown with ⟨target, htarget, hplaced⟩
    rcases exists_latestTab htarget with ⟨e, he, hentry⟩
    have hname : target = tabName layout e.index e.code :=
      Account.tab.inj (hentry.symm.trans (target_eq_of_latestTab he).2.1)
    have happends := appends_placeBlock commit (target_ne_template htarget) c reached.2
    rw [hname] at hplaced happends
    exact ⟨e, he, hplaced, exists_stands_of_placed hplaced, happends⟩
  · have htarget : reached.1.target = none := by
      rw [Option.eq_none_iff_forall_ne_some]
      intro name hname
      rcases exists_latestTab hname with ⟨e, he, -⟩
      exact hnone ⟨e, he⟩
    have hown : own = account doc layout reached.1 i c reached.2 := rfl
    rw [hown, account, htarget, edit_noTarget doc hblock]
    rfl

/-- A tab, a tab whose title is refused, and a block. -/
def refusedBetween : List Code := [tabCode "A", tabCode "A/B", breakCode]

/-- A workbook that is stored nowhere. -/
def quietly : Document (Session Unit) Nat := Session.document (pure ())

/-- The block goes to the first tab, which is the latest one. -/
theorem blocks_filed_refused :
    let s : Session Unit := ⟨⟨[breaks "Codes"]⟩, ()⟩
    let reached := upTo quietly {} refusedBetween s 2
    refusedBetween[2]? = some breakCode ∧ IsBlock breakCode ∧ reached.1.target = some "A" ∧
      (account quietly {} reached.1 2 breakCode reached.2).isBlock = true ∧
      ∃ e, LatestTab ((ledger quietly {} refusedBetween s).take 2) e ∧
        outcome (placeBlock quietly {} (tabName {} e.index e.code) breakCode) reached.2 =
          .ok () := by
  intro s reached
  have hblock : IsBlock breakCode := by
    decide +kernel
  have hfirst : reached.1.target = some "A" := by
    decide +kernel
  have hplaced : (account quietly {} reached.1 2 breakCode reached.2).isBlock = true := by
    decide +kernel
  rcases blocks_filed (pure ()) {} refusedBetween s (i := 2) rfl hblock with ⟨-, -, hfiled, -⟩
  rcases hfiled (Account.eq_of_isBlock hplaced) with ⟨e, he, hdone, -⟩
  exact ⟨rfl, hblock, hfirst, hplaced, e, he, hdone⟩

/-- Every block that is placed goes to the tab that the nearest `TAB` code before it names. -/
def FilesUnderNearest (commit : Session.Action ρ Unit) (layout : Layout) (codes : List Code)
    (s : Session ρ) : Prop :=
  ∀ i j c d, codes[i]? = some c → codes[j]? = some d → j < i → IsTab d →
    (∀ k e, j < k → k < i → codes[k]? = some e → ¬IsTab e) →
    let reached := upTo (Session.document commit) layout codes s i
    (account (Session.document commit) layout reached.1 i c reached.2).isBlock = true →
      reached.1.target = some (tabName layout j d)

/-- The nearest `TAB` code names `A/B`, which is refused, and the block goes to `A`. -/
theorem not_filesUnderNearest :
    let s : Session Unit := ⟨⟨[breaks "Codes"]⟩, ()⟩
    ¬FilesUnderNearest (pure ()) {} refusedBetween s ∧
      ((execute (Session.document (pure ())) {} refusedBetween s).2.workbook.titled? "A").map
        (·.value ⟨1, 4⟩) = some (.text "BR") := by
  intro s
  refine ⟨fun h => ?_, by decide +kernel⟩
  have hnone : ∀ k e, 1 < k → k < 2 → refusedBetween[k]? = some e → ¬IsTab e := by
    intro k e hk hk'
    omega
  have htarget := h 2 1 breakCode (tabCode "A/B") rfl rfl (by omega) rfl hnone (by decide +kernel)
  revert htarget
  decide +kernel

end Sheetwright.Run
