import Sheetwright.Proofs.Run.Watched
/-!
# The accounts of a run

A code is carried out in two parts: it edits the document, and then the edit is committed. What
became of it is its account, which says in which of the two it failed, if it did. The ledger of a
run lists the codes with their positions and accounts, and everything a run reports can be read off
it: the target (`target_upTo`), the tabs that were made (`createdTargets_execute`), the number of
blocks (`processedCount_execute`) and the errors (`errors_execute`).
-/

namespace Sheetwright

open Operation

variable {σ κ : Type}

/-- The document without its way to commit. -/
def Document.bare (doc : Document σ κ) : Document σ κ := { doc with commit := pure () }

namespace Run

variable (doc : Document σ κ) (layout : Layout)

/-! ## Editing and committing -/

/-- What a code does before it is committed. -/
def edit (target : Option String) (index : Nat) (c : Code) : EStateM Failure σ Outcome :=
  if c.baseType = modelType then pure .nothing
  else if IsTab c then do
    makeTab doc layout (tabName layout index c)
    return .tab (tabName layout index c)
  else match target with
    | none => throw (.noTarget c.baseType)
    | some target => do
      placeBlock doc layout target c
      return .block

/-- Commits an edit, unless nothing was edited. -/
def committing : Outcome → EStateM Failure σ Outcome
  | .nothing => pure .nothing
  | done => do
    ask doc.commit
    return done

section

variable {layout} {target : Option String} {index : Nat} {c : Code}

theorem edit_model (h : c.baseType = modelType) :
    edit doc layout target index c = pure .nothing := by
  unfold edit
  rw [if_pos h]

theorem edit_tab (h : IsTab c) :
    edit doc layout target index c = makeTab doc layout (tabName layout index c) >>=
      fun _ => pure (.tab (tabName layout index c)) := by
  have hmodel : c.baseType ≠ modelType := by
    have htab : c.baseType = tabType := h
    rw [htab]
    decide
  unfold edit
  rw [if_neg hmodel, if_pos h]

theorem edit_noTarget (h : IsBlock c) :
    edit doc layout none index c = throw (.noTarget c.baseType) := by
  have htab : ¬IsTab c := h.2
  unfold edit
  rw [if_neg h.1, if_neg htab]

theorem edit_block {target : String} (h : IsBlock c) :
    edit doc layout (some target) index c =
      placeBlock doc layout target c >>= fun _ => pure .block := by
  have htab : ¬IsTab c := h.2
  unfold edit
  rw [if_neg h.1, if_neg htab]

/-- An edit keeps what making a tab and placing a block keep. -/
theorem after_edit_of {P : σ → Prop} {state : σ} (h : P state)
    (hmake : IsTab c → P (after (makeTab doc layout (tabName layout index c)) state))
    (hplace : ∀ name, IsBlock c → target = some name →
      P (after (placeBlock doc layout name c) state)) :
    P (after (edit doc layout target index c) state) := by
  rcases isTab_or_isBlock c with hmodel | htab | hblock
  · rw [edit_model doc hmodel]
    exact h
  · rw [edit_tab doc htab, after_bind_pure]
    exact hmake htab
  · cases target with
    | none =>
      rw [edit_noTarget doc hblock]
      exact h
    | some name =>
      rw [edit_block doc hblock, after_bind_pure]
      exact hplace name hblock rfl

theorem carryOut_eq :
    carryOut doc layout target index c =
      edit doc layout target index c >>= committing doc := by
  rcases isTab_or_isBlock c with hmodel | htab | hblock
  · rw [carryOut_model doc hmodel, edit_model doc hmodel]
    rfl
  · rw [carryOut_tab doc htab, edit_tab doc htab, bind_assoc]
    rfl
  · cases target with
    | none =>
      rw [carryOut_noTarget doc hblock, edit_noTarget doc hblock]
      rfl
    | some target =>
      rw [carryOut_block doc hblock, edit_block doc hblock, bind_assoc]
      rfl

end

/-- Edits are the same on documents that differ only in how they commit. -/
theorem agree_edit {τ : Type} {R : σ → τ → Prop} {doc : Document σ κ} {doc' : Document τ κ}
    (h : doc.bare.Mirrors R doc'.bare) (target : Option String) (index : Nat) (c : Code) :
    Agree R (· = ·) (edit doc layout target index c) (edit doc' layout target index c) := by
  rcases isTab_or_isBlock c with hmodel | htab | hblock
  · rw [edit_model doc hmodel, edit_model doc' hmodel]
    exact Agree.done rfl
  · rw [edit_tab doc htab, edit_tab doc' htab]
    have hmake := agree_makeTab layout h (tabName layout index c)
    exact Agree.bind hmake fun _ _ _ => Agree.done rfl
  · cases target with
    | none =>
      rw [edit_noTarget doc hblock, edit_noTarget doc' hblock]
      exact Agree.stop _
    | some target =>
      rw [edit_block doc hblock, edit_block doc' hblock]
      have hplace := agree_placeBlock layout h target c
      exact Agree.bind hplace fun _ _ _ => Agree.done rfl

/-! ## Accounts -/

/-- What became of a code. -/
inductive Account where
  /-- It was passed over. -/
  | passed
  /-- It made a tab, and the tab was committed. -/
  | tab (name : String)
  /-- It placed a block, and the block was committed. -/
  | block
  /-- It failed before anything could be committed. -/
  | failed (failure : Failure)
  /-- It was done, but committing it failed. -/
  | uncommitted (done : Outcome) (fault : Document.Fault)

namespace Account

/-- The account of an edit that succeeded, by what its commit comes to. -/
def ofCommit : Outcome → Except Document.Fault Unit → Account
  | .nothing, _ => passed
  | .tab name, .ok _ => tab name
  | .block, .ok _ => block
  | done, .error fault => uncommitted done fault

/-- The title of the tab that was made and committed. -/
def tab? : Account → Option String
  | tab name => some name
  | _ => none

/-- The title of the tab that was made, committed or not. -/
def made? : Account → Option String
  | tab name => some name
  | uncommitted (.tab name) _ => some name
  | _ => none

def isBlock : Account → Bool
  | block => true
  | _ => false

def failure? : Account → Option Failure
  | failed failure => some failure
  | uncommitted _ fault => some (.document fault)
  | _ => none

/-- What the commit came to, if it was reached. -/
def commit? : Account → Option (Except Document.Fault Unit)
  | tab _ | block => some (.ok ())
  | uncommitted _ fault => some (.error fault)
  | _ => none

def verdict : Account → Except Failure Outcome
  | passed => .ok .nothing
  | tab name => .ok (.tab name)
  | block => .ok .block
  | failed failure => .error failure
  | uncommitted _ fault => .error (.document fault)

end Account

/-- The account of a code at a point of a run. -/
def account (p : Progress) (index : Nat) (c : Code) (state : σ) : Account :=
  match outcome (edit doc layout p.target index c) state with
  | .error failure => .failed failure
  | .ok done => .ofCommit done (outcome doc.commit (after (edit doc layout p.target index c) state))

theorem verdict_eq_account (p : Progress) (index : Nat) (c : Code) (state : σ) :
    verdict doc layout p index c state = (account doc layout p index c state).verdict := by
  rw [Run.verdict, carryOut_eq, outcome_bind, account]
  cases outcome (edit doc layout p.target index c) state with
  | error failure => rfl
  | ok done =>
    dsimp only
    cases done with
    | nothing => rfl
    | tab name =>
      refine (outcome_commit doc _ _).trans ?_
      rw [committed]
      cases outcome doc.commit (after (edit doc layout p.target index c) state) <;> rfl
    | block =>
      refine (outcome_commit doc _ _).trans ?_
      rw [committed]
      cases outcome doc.commit (after (edit doc layout p.target index c) state) <;> rfl

theorem commit?_ofCommit (done : Outcome) (r : Except Document.Fault Unit) :
    (Account.ofCommit done r).commit? = if done = .nothing then none else some r := by
  rcases done with _ | name | _ <;> rcases r with fault | _ <;> rfl

/-- A commit of a code starts from what its edit has left behind. -/
theorem eq_of_commit? {p : Progress} {index : Nat} {c : Code} {state : σ}
    {r : Except Document.Fault Unit}
    (h : (account doc layout p index c state).commit? = some r) :
    r = outcome doc.commit (after (edit doc layout p.target index c) state) := by
  rw [account] at h
  cases hdone : outcome (edit doc layout p.target index c) state with
  | error failure =>
    rw [hdone] at h
    cases h
  | ok done =>
    rw [hdone] at h
    dsimp only at h
    rw [commit?_ofCommit] at h
    split at h
    · cases h
    · exact (Option.some.inj h).symm

/-- The state after a code is committed if its account says so. -/
theorem step_snd_eq (p : Progress) (index : Nat) (c : Code) (state : σ) :
    (step doc layout p index c state).2 =
      let edited := after (edit doc layout p.target index c) state
      if (account doc layout p index c state).commit?.isSome then after doc.commit edited
      else edited := by
  rw [step_snd, carryOut_eq, after_bind, account]
  cases outcome (edit doc layout p.target index c) state with
  | error failure => rfl
  | ok done =>
    dsimp only
    rw [commit?_ofCommit]
    rcases done with _ | name | _
    · rfl
    · exact (after_bind_pure _ _ _).trans (after_ask _ _)
    · exact (after_bind_pure _ _ _).trans (after_ask _ _)

/-- The code is of the kind that can do this. -/
def Outcome.Suits (layout : Layout) (index : Nat) (c : Code) : Outcome → Prop
  | .nothing => c.baseType = modelType
  | .tab name => IsTab c ∧ name = tabName layout index c
  | .block => IsBlock c

/-- The code is of the kind that this can become of. -/
def Account.Suits (layout : Layout) (index : Nat) (c : Code) : Account → Prop
  | passed => c.baseType = modelType
  | tab name => IsTab c ∧ name = tabName layout index c
  | block => IsBlock c
  | failed _ => c.baseType ≠ modelType
  | uncommitted done _ => c.baseType ≠ modelType ∧ done.Suits layout index c

theorem returns_edit (target : Option String) (index : Nat) (c : Code) :
    Returns (Outcome.Suits layout index c) (edit doc layout target index c) := by
  rcases isTab_or_isBlock c with hmodel | htab | hblock
  · rw [edit_model doc hmodel]
    exact Returns.done hmodel
  · rw [edit_tab doc htab]
    exact Returns.bind fun _ => Returns.done ⟨htab, rfl⟩
  · cases target with
    | none =>
      rw [edit_noTarget doc hblock]
      exact Returns.stop _
    | some target =>
      rw [edit_block doc hblock]
      exact Returns.bind fun _ => Returns.done hblock

theorem account_suits (p : Progress) (index : Nat) (c : Code) (state : σ) :
    (account doc layout p index c state).Suits layout index c := by
  by_cases hmodel : c.baseType = modelType
  · rw [account, edit_model doc hmodel]
    exact hmodel
  · rw [account]
    cases hdone : outcome (edit doc layout p.target index c) state with
    | error failure => exact hmodel
    | ok done =>
      have hsuits := returns_edit doc layout p.target index c state done hdone
      -- a commit that fails leaves the edit what it is
      cases done with
      | nothing => exact hsuits
      | tab name =>
        cases outcome doc.commit (after (edit doc layout p.target index c) state) with
        | ok _ => exact hsuits
        | error fault => exact ⟨hmodel, hsuits⟩
      | block =>
        cases outcome doc.commit (after (edit doc layout p.target index c) state) with
        | ok _ => exact hsuits
        | error fault => exact ⟨hmodel, hsuits⟩

/-! ## The ledger -/

/-- A code with its position and its account. -/
structure Entry where
  index : Nat
  code : Code
  account : Account

/-- The error that is reported for a code. -/
def Entry.error? (e : Entry) : Option RunError :=
  e.account.failure?.map fun failure => ⟨e.index, e.code.baseType, failure.message, failure.kind⟩

/-- The entries of codes that are carried out from some point of a run on. -/
def entries : Progress → Nat → List Code → σ → List Entry
  | _, _, [], _ => []
  | p, index, c :: rest, state =>
    let next := step doc layout p index c state
    ⟨index, c, account doc layout p index c state⟩ :: entries next.1 (index + 1) rest next.2

/-- All codes of a run with their positions and accounts. -/
def ledger (codes : List Code) (state : σ) : List Entry := entries doc layout {} 0 codes state

variable (p : Progress) (index : Nat) (codes : List Code) (state : σ)

theorem index_entries :
    (entries doc layout p index codes state).map (·.index) = List.range' index codes.length := by
  induction codes generalizing p index state with
  | nil => rfl
  | cons c codes ih =>
    rw [entries, List.map_cons, ih, List.length_cons, List.range'_succ]

theorem code_entries : (entries doc layout p index codes state).map (·.code) = codes := by
  induction codes generalizing p index state with
  | nil => rfl
  | cons c codes ih => rw [entries, List.map_cons, ih]

theorem suits_of_mem_entries {e : Entry} (h : e ∈ entries doc layout p index codes state) :
    e.account.Suits layout e.index e.code := by
  induction codes generalizing p index state with
  | nil => cases h
  | cons c codes ih =>
    rcases List.mem_cons.mp h with rfl | h
    · exact account_suits doc layout p index c state
    · exact ih _ _ _ h

theorem entries_append (xs ys : List Code) :
    entries doc layout p index (xs ++ ys) state =
      entries doc layout p index xs state ++
        entries doc layout (stepAll doc layout p index xs state).1 (index + xs.length) ys
          (stepAll doc layout p index xs state).2 := by
  induction xs generalizing p index state with
  | nil => rfl
  | cons c xs ih =>
    rw [List.cons_append, entries, entries, ih, List.cons_append, stepAll_cons, List.length_cons,
      Nat.add_assoc, Nat.add_comm 1 xs.length]

/-! ## What a run reports -/

section

variable (c : Code)

theorem target_step :
    (step doc layout p index c state).1.target =
      (account doc layout p index c state).tab?.or p.target := by
  rw [step_fst, verdict_eq_account]
  rcases account doc layout p index c state with _ | name | _ | failure | ⟨done, fault⟩ <;> rfl

theorem createdTargets_step :
    (step doc layout p index c state).1.result.createdTargets =
      p.result.createdTargets ++ (account doc layout p index c state).tab?.toList := by
  rw [step_fst, verdict_eq_account]
  rcases account doc layout p index c state with _ | name | _ | failure | ⟨done, fault⟩
  all_goals first | rfl | exact (List.append_nil _).symm

theorem processedCount_step :
    (step doc layout p index c state).1.result.processedCount =
      p.result.processedCount + (account doc layout p index c state).isBlock.toNat := by
  rw [step_fst, verdict_eq_account]
  rcases account doc layout p index c state with _ | name | _ | failure | ⟨done, fault⟩
  all_goals first | rfl | exact (Int.add_zero _).symm

theorem errors_step :
    (step doc layout p index c state).1.result.errors =
      p.result.errors ++
        (Entry.error? ⟨index, c, account doc layout p index c state⟩).toList := by
  rw [step_fst, verdict_eq_account, Entry.error?]
  rcases account doc layout p index c state with _ | name | _ | failure | ⟨done, fault⟩
  all_goals first | rfl | exact (List.append_nil _).symm

end

theorem filterMap_cons_eq_append {β γ : Type} (f : β → Option γ) (b : β) (l : List β) :
    (b :: l).filterMap f = (f b).toList ++ l.filterMap f := by
  rw [List.filterMap_cons]
  cases f b <;> rfl

/-- The target is the tab that was made last. -/
theorem target_stepAll :
    (stepAll doc layout p index codes state).1.target =
      ((entries doc layout p index codes state).filterMap (·.account.tab?)).getLast?.or
        p.target := by
  induction codes generalizing p index state with
  | nil => rfl
  | cons c codes ih =>
    rw [stepAll_cons, ih, target_step, entries, List.filterMap_cons]
    -- a tab that this code makes counts if no other one is made behind it
    cases (account doc layout p index c state).tab? with
    | none => rfl
    | some name =>
      dsimp only
      rw [List.getLast?_cons]
      cases (List.filterMap _ _ : List String).getLast? <;> rfl

theorem createdTargets_stepAll :
    (stepAll doc layout p index codes state).1.result.createdTargets =
      p.result.createdTargets ++
        (entries doc layout p index codes state).filterMap (·.account.tab?) := by
  induction codes generalizing p index state with
  | nil => exact (List.append_nil _).symm
  | cons c codes ih =>
    rw [stepAll_cons, ih, createdTargets_step, List.append_assoc, entries, filterMap_cons_eq_append]

theorem processedCount_stepAll :
    (stepAll doc layout p index codes state).1.result.processedCount =
      p.result.processedCount +
        (entries doc layout p index codes state).countP (·.account.isBlock) := by
  induction codes generalizing p index state with
  | nil => exact (Int.add_zero _).symm
  | cons c codes ih =>
    rw [stepAll_cons, ih, processedCount_step, entries, List.countP_cons]
    cases (account doc layout p index c state).isBlock with
    | false => simp
    | true => simp [Int.add_assoc, Int.add_comm]

theorem errors_stepAll :
    (stepAll doc layout p index codes state).1.result.errors =
      p.result.errors ++ (entries doc layout p index codes state).filterMap Entry.error? := by
  induction codes generalizing p index state with
  | nil => exact (List.append_nil _).symm
  | cons c codes ih =>
    rw [stepAll_cons, ih, errors_step, List.append_assoc, entries, filterMap_cons_eq_append]

theorem createdTargets_execute :
    (execute doc layout codes state).1.createdTargets =
      (ledger doc layout codes state).filterMap (·.account.tab?) :=
  createdTargets_stepAll doc layout {} 0 codes state

theorem processedCount_execute :
    (execute doc layout codes state).1.processedCount =
      (ledger doc layout codes state).countP (·.account.isBlock) :=
  (processedCount_stepAll doc layout {} 0 codes state).trans (Int.zero_add _)

theorem errors_execute :
    (execute doc layout codes state).1.errors =
      (ledger doc layout codes state).filterMap Entry.error? :=
  errors_stepAll doc layout {} 0 codes state

/-! ## The ledger up to some code -/

theorem length_entries : (entries doc layout p index codes state).length = codes.length := by
  rw [← List.length_map (·.code), code_entries]

/-- The ledger begins with the ledger of the first codes and goes on from where they end. -/
theorem ledger_eq_append (i : Nat) :
    ledger doc layout codes state = ledger doc layout (codes.take i) state ++
      entries doc layout (upTo doc layout codes state i).1 (codes.take i).length (codes.drop i)
        (upTo doc layout codes state i).2 := by
  have hsplit := entries_append doc layout {} 0 state (codes.take i) (codes.drop i)
  rwa [List.take_append_drop, Nat.zero_add] at hsplit

theorem take_ledger (i : Nat) :
    (ledger doc layout codes state).take i = ledger doc layout (codes.take i) state := by
  rw [ledger_eq_append doc layout codes state i]
  rcases Nat.le_total i codes.length with hle | hge
  · rw [List.take_left']
    rw [ledger, length_entries, List.length_take, Nat.min_eq_left hle]
  · rw [List.drop_of_length_le hge, entries, List.append_nil]
    refine List.take_of_length_le ?_
    rw [ledger, length_entries, List.length_take]
    omega

/-- The codes behind some code have no influence on its target. -/
theorem target_upTo (i : Nat) :
    (upTo doc layout codes state i).1.target =
      (((ledger doc layout codes state).take i).filterMap (·.account.tab?)).getLast? := by
  rw [take_ledger, upTo, target_stepAll]
  exact Option.or_none

theorem getElem?_ledger (i : Nat) :
    (ledger doc layout codes state)[i]? = codes[i]?.map fun c =>
      let reached := upTo doc layout codes state i
      ⟨i, c, account doc layout reached.1 i c reached.2⟩ := by
  rw [ledger_eq_append doc layout codes state i]
  rcases Nat.lt_or_ge i codes.length with hlt | hge
  · have hlength : (ledger doc layout (codes.take i) state).length = i := by
      rw [ledger, length_entries, List.length_take, Nat.min_eq_left (Nat.le_of_lt hlt)]
    rw [List.getElem?_append_right (Nat.le_of_eq hlength), hlength, Nat.sub_self,
      List.getElem?_eq_getElem hlt, List.drop_eq_getElem_cons hlt, entries, List.length_take,
      Nat.min_eq_left (Nat.le_of_lt hlt)]
    rfl
  · rw [List.getElem?_eq_none hge, List.getElem?_eq_none]
    · rfl
    · rw [List.length_append, ledger, length_entries, length_entries, List.length_take,
        List.length_drop]
      omega

/-- An error is reported for the codes that fail, each with its position and its type. -/
theorem mem_errors_iff {x : RunError} :
    x ∈ (ledger doc layout codes state).filterMap Entry.error? ↔
      ∃ i c failure, codes[i]? = some c ∧
        (account doc layout (upTo doc layout codes state i).1 i c
          (upTo doc layout codes state i).2).failure? = some failure ∧
        x = ⟨i, c.baseType, failure.message, failure.kind⟩ := by
  rw [List.mem_filterMap]
  constructor
  · rintro ⟨e, he, hx⟩
    rcases List.mem_iff_getElem?.mp he with ⟨i, hi⟩
    rw [getElem?_ledger] at hi
    rcases Option.map_eq_some_iff.mp hi with ⟨c, hc, rfl⟩
    rcases Option.map_eq_some_iff.mp hx with ⟨failure, hfailure, rfl⟩
    exact ⟨i, c, failure, hc, hfailure, rfl⟩
  · rintro ⟨i, c, failure, hc, hfailure, rfl⟩
    have hi := getElem?_ledger doc layout codes state i
    rw [hc, Option.map_some] at hi
    refine ⟨_, List.mem_iff_getElem?.mpr ⟨i, hi⟩, ?_⟩
    rw [Entry.error?, hfailure]
    rfl

/-- The errors with the position of a code are those of the code itself. -/
theorem exists_error_iff {i : Nat} {c : Code} (hc : codes[i]? = some c) {P : RunError → Prop} :
    (∃ x ∈ (ledger doc layout codes state).filterMap Entry.error?, x.index = i ∧ P x) ↔
      ∃ failure, (account doc layout (upTo doc layout codes state i).1 i c
          (upTo doc layout codes state i).2).failure? = some failure ∧
        P ⟨i, c.baseType, failure.message, failure.kind⟩ := by
  constructor
  · rintro ⟨x, hx, hindex, hP⟩
    rcases (mem_errors_iff doc layout codes state).mp hx with ⟨j, d, failure, hd, hfailure, rfl⟩
    -- the error stands for the code at its own position, which is this one
    obtain rfl : j = i := hindex
    obtain rfl : d = c := Option.some.inj (hd.symm.trans hc)
    exact ⟨failure, hfailure, hP⟩
  · rintro ⟨failure, hfailure, hP⟩
    refine ⟨⟨i, c.baseType, failure.message, failure.kind⟩, ?_, rfl, hP⟩
    exact (mem_errors_iff doc layout codes state).mpr ⟨i, c, failure, hc, hfailure, rfl⟩

end Run

end Sheetwright
