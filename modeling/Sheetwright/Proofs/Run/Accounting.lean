import Sheetwright.Proofs.Run.Accounts
/-!
# Every code is accounted for

A run over any document, whichever of its operations fail and wherever, reports each code in exactly
one way: `codes_accounted`. How often it commits is read off a document that notes what each commit
comes to and is otherwise the document it was made from: `execute_noting`.
-/

namespace Sheetwright

open Operation

variable {ε σ τ κ α : Type}

/-! ## Noting commits -/

/-- The operation on states that carry something along. -/
def beside (x : EStateM ε σ α) : EStateM ε (σ × τ) α := fun u =>
  match x.run u.1 with
  | .ok a s => .ok a (s, u.2)
  | .error e s => .error e (s, u.2)

/-- The operation, with what it comes to added to a list. -/
def noteOutcome (x : EStateM ε σ α) : EStateM ε (σ × List (Except ε α)) α := fun u =>
  match x.run u.1 with
  | .ok a s => .ok a (s, u.2 ++ [.ok a])
  | .error e s => .error e (s, u.2 ++ [.error e])

theorem agree_beside (t : τ) (x : EStateM ε σ α) :
    Agree (fun s u => u = (s, t)) (· = ·) x (beside x) := by
  refine ⟨?_⟩
  rintro s _ rfl
  have hrun : (beside x).run (s, t) = match x.run s with
      | .ok a s => .ok a (s, t)
      | .error e s => .error e (s, t) := rfl
  rw [hrun]
  cases x.run s with
  | ok a s' => exact ⟨rfl, rfl⟩
  | error e s' => exact ⟨rfl, rfl⟩

theorem run_noteOutcome (x : EStateM ε σ α) (s : σ) (l : List (Except ε α)) :
    (noteOutcome x).run (s, l) = ending (outcome x s) (after x s, l ++ [outcome x s]) := by
  have hrun : (noteOutcome x).run (s, l) = match x.run s with
      | .ok a s => .ok a (s, l ++ [.ok a])
      | .error e s => .error e (s, l ++ [.error e]) := rfl
  rw [hrun, outcome, after]
  cases x.run s <;> rfl

namespace Document

/-- The document that notes what each of its commits comes to. -/
def noting (doc : Document σ κ) : Document (σ × List (Except Fault Unit)) κ where
  find? title := beside (doc.find? title)
  delete title := beside (doc.delete title)
  duplicate title := beside (doc.duplicate title)
  title sheet := beside (doc.title sheet)
  rename sheet title := beside (doc.rename sheet title)
  lastUsedRow sheet := beside (doc.lastUsedRow sheet)
  lastRow sheet := beside (doc.lastRow sheet)
  clearRows sheet first last := beside (doc.clearRows sheet first last)
  copyBlock source rows dest start lastColumn :=
    beside (doc.copyBlock source rows dest start lastColumn)
  write sheet row column datum := beside (doc.write sheet row column datum)
  writeColumn sheet row column data := beside (doc.writeColumn sheet row column data)
  findTagged sheet column tag := beside (doc.findTagged sheet column tag)
  commit := noteOutcome doc.commit

theorem mirrors_noting (doc : Document σ κ) (l : List (Except Fault Unit)) :
    doc.bare.Mirrors (fun s u => u = (s, l)) doc.noting.bare where
  find? _ := agree_beside l _
  delete _ := agree_beside l _
  duplicate _ := agree_beside l _
  title _ := agree_beside l _
  rename _ _ := agree_beside l _
  lastUsedRow _ := agree_beside l _
  lastRow _ := agree_beside l _
  clearRows _ _ _ := agree_beside l _
  copyBlock _ _ _ _ _ := agree_beside l _
  write _ _ _ _ := agree_beside l _
  writeColumn _ _ _ _ := agree_beside l _
  findTagged _ _ _ := agree_beside l _
  commit := ⟨fun _ _ h => ⟨rfl, h⟩⟩

end Document

namespace Run

variable (doc : Document σ κ) (layout : Layout)

theorem run_edit_noting (target : Option String) (index : Nat) (c : Code) (state : σ)
    (l : List (Except Document.Fault Unit)) :
    (edit doc.noting layout target index c).run (state, l) =
      ending (outcome (edit doc layout target index c) state)
        (after (edit doc layout target index c) state, l) := by
  have hedit := agree_edit layout (doc.mirrors_noting l) target index c
  rw [outcome, after]
  rcases hedit.cases (s := state) rfl with ⟨a, _, s, _, hx, hy, rfl, rfl⟩ | ⟨e, s, _, hx, hy, rfl⟩
  · rw [hx, hy]
    rfl
  · rw [hx, hy]
    rfl

theorem account_noting (p : Progress) (index : Nat) (c : Code) (state : σ)
    (l : List (Except Document.Fault Unit)) :
    account doc.noting layout p index c (state, l) = account doc layout p index c state := by
  have hedit := run_edit_noting doc layout p.target index c state l
  have hcommit : ∀ t, outcome doc.noting.commit (t, l) = outcome doc.commit t :=
    fun t => outcome_of_run (run_noteOutcome doc.commit t l)
  rw [account, account, outcome_of_run hedit, after_of_run hedit, hcommit]

/-- A step notes what the commit of the code comes to, if there is one. -/
theorem step_noting (p : Progress) (index : Nat) (c : Code) (state : σ)
    (l : List (Except Document.Fault Unit)) :
    step doc.noting layout p index c (state, l) =
      ((step doc layout p index c state).1, (step doc layout p index c state).2,
        l ++ (account doc layout p index c state).commit?.toList) := by
  have hcommit : ∀ t, after doc.noting.commit (t, l) =
      (after doc.commit t, l ++ [outcome doc.commit t]) :=
    fun t => after_of_run (run_noteOutcome doc.commit t l)
  refine Prod.ext ?_ ?_
  · rw [step_fst, step_fst, verdict_eq_account, verdict_eq_account, account_noting]
  · rw [step_snd_eq, step_snd_eq, account_noting,
      after_of_run (run_edit_noting doc layout p.target index c state l)]
    dsimp only
    cases h : (account doc layout p index c state).commit? with
    | none => simp
    | some r =>
      have hr : r = outcome doc.commit (after (edit doc layout p.target index c) state) :=
        eq_of_commit? doc layout h
      simp [hcommit, hr]

theorem stepAll_noting (p : Progress) (index : Nat) (codes : List Code) (state : σ)
    (l : List (Except Document.Fault Unit)) :
    stepAll doc.noting layout p index codes (state, l) =
      ((stepAll doc layout p index codes state).1, (stepAll doc layout p index codes state).2,
        l ++ (entries doc layout p index codes state).filterMap (·.account.commit?)) := by
  induction codes generalizing p index state l with
  | nil => simp [stepAll, entries]
  | cons c codes ih =>
    rw [stepAll_cons, step_noting, ih, stepAll_cons, entries, filterMap_cons_eq_append,
      List.append_assoc]

/-- Noting changes neither what a run reports nor where it ends, and the commits that are noted are
those of the ledger. -/
theorem execute_noting (codes : List Code) (state : σ) :
    execute doc.noting layout codes (state, []) =
      ((execute doc layout codes state).1, (execute doc layout codes state).2,
        (ledger doc layout codes state).filterMap (·.account.commit?)) := by
  have h := stepAll_noting doc layout {} 0 codes state []
  rw [execute, h]
  rfl

/-! ## Blocks without a target -/

theorem Failure.kind_eq_iff {failure : Failure} :
    failure.kind = "MissingTargetContext" ↔ ∃ codeType, failure = .noTarget codeType := by
  constructor
  · intro h
    cases failure with
    | noTarget codeType => exact ⟨codeType, rfl⟩
    | _ => exact absurd (show "DocumentOperationError" = _ from h) (by decide)
  · rintro ⟨codeType, rfl⟩
    rfl

/-- Placing a block never fails for want of a target. -/
theorem failsAs_placeBlock (target : String) (c : Code) :
    FailsAs (fun failure => ∀ codeType, failure ≠ .noTarget codeType)
      (placeBlock doc layout target c) := by
  have hask (fault : Document.Fault) (codeType : String) :
      Failure.document fault ≠ .noTarget codeType := nofun
  rw [placeBlock_eq]
  refine Meets.bind (failsAs_require doc hask _ fun _ => nofun) fun template => ?_
  refine Meets.bind (failsAs_require doc hask _ fun _ => nofun) fun sheet => ?_
  refine Meets.bind (failsAs_ask hask _) fun found => ?_
  exact failsAs_pasteFound doc layout hask template sheet (fun _ => nofun) found

/-- A block fails for want of a target if there is none, and for no other reason. -/
theorem missingTarget_iff {p : Progress} {index : Nat} {c : Code} (hc : IsBlock c) (state : σ) :
    (∃ failure, (account doc layout p index c state).failure? = some failure ∧
      failure.kind = "MissingTargetContext") ↔ p.target = none := by
  cases hp : p.target with
  | none =>
    refine iff_of_true ⟨.noTarget c.baseType, ?_, rfl⟩ rfl
    rw [account, hp, edit_noTarget doc hc]
    rfl
  | some target =>
    refine iff_of_false ?_ (Option.some_ne_none target)
    rintro ⟨failure, hfailure, hkind⟩
    rcases Failure.kind_eq_iff.mp hkind with ⟨codeType, rfl⟩
    have hplace := (failsAs_placeBlock doc layout target c).outcome (s := state) trivial
    rw [account, hp, edit_block doc hc, outcome_bind] at hfailure
    cases hplaced : outcome (placeBlock doc layout target c) state with
    | error failure' =>
      rw [hplaced] at hplace hfailure
      cases hfailure
      exact hplace codeType rfl
    | ok _ =>
      rw [hplaced] at hfailure
      dsimp only at hfailure
      -- what is left is a commit, which fails as an operation of the document
      generalize outcome doc.commit _ = r at hfailure
      cases r with
      | ok _ => cases hfailure
      | error fault => cases hfailure

theorem exists_missingTarget_iff {codes : List Code} {i : Nat} {c : Code}
    (hc : codes[i]? = some c) (hblock : IsBlock c) (state : σ) :
    (∃ x ∈ (ledger doc layout codes state).filterMap Entry.error?,
      x.index = i ∧ x.kind = "MissingTargetContext") ↔
        (upTo doc layout codes state i).1.target = none := by
  have hmissing : (∃ failure, (account doc layout (upTo doc layout codes state i).1 i c
      (upTo doc layout codes state i).2).failure? = some failure ∧
        failure.kind = "MissingTargetContext") ↔ (upTo doc layout codes state i).1.target = none :=
    missingTarget_iff doc layout hblock _
  rw [← hmissing]
  exact exists_error_iff doc layout codes state hc

/-! ## The law -/

theorem pairwise_errors (codes : List Code) (state : σ) :
    (((ledger doc layout codes state).filterMap Entry.error?).map (·.index)).Pairwise (· < ·) := by
  have hindex : ((ledger doc layout codes state).map (·.index)).Pairwise (· < ·) := by
    rw [ledger, index_entries]
    exact List.pairwise_lt_range'
  rw [List.pairwise_map] at hindex ⊢
  refine hindex.filterMap _ ?_
  -- an error has the index of its entry
  intro e e' hlt x hx x' hx'
  rcases Option.map_eq_some_iff.mp hx with ⟨failure, -, rfl⟩
  rcases Option.map_eq_some_iff.mp hx' with ⟨failure', -, rfl⟩
  exact hlt

/-- Codes are passed over if they are of the type for it, and no others. -/
theorem Account.Suits.passed_iff {a : Account} {index : Nat} {c : Code}
    (h : a.Suits layout index c) : a = .passed ↔ c.baseType = modelType := by
  cases a with
  | passed => exact iff_of_true rfl h
  | tab name =>
    have htab : c.baseType = tabType := h.1
    rw [htab]
    exact iff_of_false nofun (by decide)
  | block => exact iff_of_false nofun h.1
  | failed failure => exact iff_of_false nofun h
  | uncommitted done fault => exact iff_of_false nofun h.1

/-- An account is of exactly one of four kinds. -/
theorem Account.Suits.count_eq {a : Account} {index : Nat} {c : Code}
    (h : a.Suits layout index c) :
    (if c.baseType = modelType then 1 else 0) + a.tab?.toList.length +
      (if a.isBlock then 1 else 0) + a.failure?.toList.length = 1 := by
  by_cases hc : c.baseType = modelType
  · rw [if_pos hc, h.passed_iff.mpr hc]
    rfl
  · have hpassed := mt h.passed_iff.mp hc
    rw [if_neg hc]
    cases a with
    | passed => exact absurd rfl hpassed
    | _ => rfl

/-- A commit is one of a tab or of a block, unless it fails. -/
theorem Account.length_commit? (a : Account) :
    a.commit?.toList.length = a.tab?.toList.length + (if a.isBlock then 1 else 0) +
      a.commit?.toList.countP (fun r => !r.isOk) := by
  cases a <;> rfl

theorem length_eq_of_suits {l : List Entry} (h : ∀ e ∈ l, e.account.Suits layout e.index e.code) :
    (l.map (·.code)).countP (fun c => c.baseType = modelType) +
      (l.filterMap (·.account.tab?)).length + l.countP (·.account.isBlock) +
        (l.filterMap Entry.error?).length = l.length := by
  induction l with
  | nil => rfl
  | cons e l ih =>
    rw [List.forall_mem_cons] at h
    have hrest := ih h.2
    have hcount := h.1.count_eq
    have herror : e.error?.toList.length = e.account.failure?.toList.length := by
      rw [Entry.error?]
      cases e.account.failure? <;> rfl
    rw [List.map_cons, List.countP_cons, List.countP_cons, filterMap_cons_eq_append,
      filterMap_cons_eq_append, List.length_append, List.length_append, List.length_cons, herror]
    simp only [decide_eq_true_eq]
    omega

theorem length_commits (l : List Entry) :
    (l.filterMap (·.account.commit?)).length =
      (l.filterMap (·.account.tab?)).length + l.countP (·.account.isBlock) +
        (l.filterMap (·.account.commit?)).countP (fun r => !r.isOk) := by
  induction l with
  | nil => rfl
  | cons e l ih =>
    have hentry := e.account.length_commit?
    rw [filterMap_cons_eq_append, filterMap_cons_eq_append, List.countP_cons, List.length_append,
      List.length_append, List.countP_append]
    omega

/-- Every code of a run is accounted for exactly once, on any document: the ledger has one entry for
each code in order, of a kind that suits the code; the tabs, the number of blocks and the errors
that are reported are those of the ledger; a block fails for want of a target exactly if no tab was
made before it; and there is one commit for each tab that was made, for each block that was placed,
and for each code that failed by its commit. -/
theorem codes_accounted (doc : Document σ κ) (layout : Layout) (codes : List Code) (state : σ) :
    let result := (execute doc layout codes state).1
    let all := ledger doc layout codes state
    let noted := execute doc.noting layout codes (state, [])
    (all.map (·.index) = List.range codes.length ∧ all.map (·.code) = codes ∧
        ∀ e ∈ all, e.account.Suits layout e.index e.code ∧
          (e.account = .passed ↔ e.code.baseType = modelType)) ∧
      (result.createdTargets = all.filterMap (·.account.tab?) ∧
        result.processedCount = all.countP (·.account.isBlock) ∧
        result.errors = all.filterMap Entry.error? ∧
        (result.errors.map (·.index)).Pairwise (· < ·) ∧
        codes.countP (fun c => c.baseType = modelType) + result.createdTargets.length +
          result.processedCount + result.errors.length = codes.length) ∧
      (∀ i c, codes[i]? = some c → IsBlock c →
        ((∃ x ∈ result.errors, x.index = i ∧ x.kind = "MissingTargetContext") ↔
          (all.take i).filterMap (·.account.tab?) = [])) ∧
      noted.1 = result ∧ noted.2.1 = (execute doc layout codes state).2 ∧
      noted.2.2 = all.filterMap (·.account.commit?) ∧
      noted.2.2.length = result.createdTargets.length + result.processedCount +
        noted.2.2.countP (fun r => !r.isOk) := by
  intro result all noted
  have hsuits : ∀ e ∈ all, e.account.Suits layout e.index e.code := fun e he =>
    suits_of_mem_entries doc layout {} 0 codes state he
  have hcodes : all.map (·.code) = codes := code_entries doc layout {} 0 codes state
  have hindex : all.map (·.index) = List.range codes.length := by
    rw [List.range_eq_range']
    exact index_entries doc layout {} 0 codes state
  have hcreated : result.createdTargets = all.filterMap (·.account.tab?) :=
    createdTargets_execute doc layout codes state
  have hprocessed : result.processedCount = all.countP (·.account.isBlock) :=
    processedCount_execute doc layout codes state
  have herrors : result.errors = all.filterMap Entry.error? :=
    errors_execute doc layout codes state
  have hnoted := execute_noting doc layout codes state
  refine ⟨⟨hindex, hcodes, fun e he => ⟨hsuits e he, (hsuits e he).passed_iff⟩⟩,
    ⟨hcreated, hprocessed, herrors, ?_, ?_⟩, ?_, ?_, ?_, ?_, ?_⟩
  · rw [herrors]
    exact pairwise_errors doc layout codes state
  · have hlength := length_eq_of_suits layout hsuits
    rw [hcodes] at hlength
    rw [hcreated, hprocessed, herrors]
    have htotal : all.length = codes.length := length_entries doc layout {} 0 codes state
    omega
  · intro i c hc hblock
    rw [herrors, ← List.getLast?_eq_none_iff, ← target_upTo]
    exact exists_missingTarget_iff doc layout hc hblock state
  · exact congrArg Prod.fst hnoted
  · exact congrArg (·.2.1) hnoted
  · exact congrArg (·.2.2) hnoted
  · have hcommits : noted.2.2 = all.filterMap (·.account.commit?) := congrArg (·.2.2) hnoted
    have hlength := length_commits all
    rw [hcommits, hcreated, hprocessed]
    omega

end Run

end Sheetwright
