import Sheetwright.Proofs.Operation
import Sheetwright.Run
/-!
# The parts of a run

Making a tab and placing a block each fall into a few parts that come one after another; a run is a
run over the first codes followed by a run over the others. What a code comes to at some point of a
run is its verdict.
-/

namespace Sheetwright.Run

open Operation

variable {σ κ : Type} (doc : Document σ κ) (layout : Layout)

/-! ## One code -/

/-- Removes the sheet that has a title, if there is one. -/
def vacate (name : String) : EStateM Failure σ Unit := do
  let found ← ask (doc.find? name)
  if found.isSome then ask (doc.delete name) else pure ()

/-- Removes the blocks that a copy of the template begins with. -/
def trim (copy : κ) : EStateM Failure σ Unit := do
  let bottom ← ask (doc.lastRow copy)
  if layout.dataStartRow ≤ bottom then ask (doc.clearRows copy layout.dataStartRow bottom)
  else pure ()

/-- Makes a sheet of a title out of the template. -/
def copyTemplate (name : String) : EStateM Failure σ Unit := do
  let copy ← ask (doc.duplicate layout.templateSheet)
  titleCopy doc copy name
  trim doc layout copy

theorem makeTab_eq (name : String) :
    makeTab doc layout name =
      if name = layout.templateSheet then throw (.overwritesTemplate name)
      else vacate doc name >>= fun _ => copyTemplate doc layout name := by
  rw [makeTab]
  -- the first part comes to the same on both sides and is set aside
  by_cases h : name = layout.templateSheet
  · simp only [if_pos h]
    rfl
  · simp only [if_neg h, vacate, copyTemplate, trim, bind_assoc]
    congr 1
    funext found
    split
    · rfl
    · rfl

/-- Takes back a copy that cannot have its title. -/
def takeBack (copy : κ) (failure : Failure) : EStateM Failure σ Unit := do
  let title ← ask (doc.title copy)
  ask (doc.delete title)
  throw failure

theorem titleCopy_eq (copy : κ) (name : String) :
    titleCopy doc copy name = tryCatch (ask (doc.rename copy name)) fun failure =>
      if failure.isRefusal then takeBack doc copy failure else throw failure := rfl

/-- Writes the driver of a code, if it has one, into a row. -/
def writeDriver (sheet : κ) (start : Nat) (c : Code) : EStateM Failure σ Unit :=
  if !c.driver.isEmpty then ask (doc.write sheet start layout.driverColumn (.text c.driver))
  else pure ()

/-- Writes the assumptions of a code, if it has any, from a row on. -/
def writeAssumptions (sheet : κ) (start : Nat) (c : Code) : EStateM Failure σ Unit :=
  if !c.assumptionValues.isEmpty then
    ask (doc.writeColumn sheet start layout.assumptionsColumn (c.assumptionValues.map .text))
  else pure ()

/-- Writes the driver and the assumptions of a code from a row on. -/
def fillIn (sheet : κ) (start : Nat) (c : Code) : EStateM Failure σ Unit := do
  writeDriver doc layout sheet start c
  writeAssumptions doc layout sheet start c

/-- Copies template rows below what a sheet holds and fills them in. -/
def pasteRows (template sheet : κ) (c : Code) (rows : Nat × Nat) : EStateM Failure σ Unit := do
  let last ← ask (doc.lastUsedRow sheet)
  ask (doc.copyBlock template rows sheet (last + 1) layout.lastColumn)
  fillIn doc layout sheet (last + 1) c

/-- Pastes the template rows that were found for a code. -/
def pasteFound (template sheet : κ) (c : Code) :
    Option (Nat × Nat) → EStateM Failure σ Unit
  | none => throw (.noBlock c.baseType layout.templateSheet)
  | some rows => pasteRows doc layout template sheet c rows

theorem placeBlock_eq (target : String) (c : Code) :
    placeBlock doc layout target c =
      require doc layout.templateSheet (.noTemplate layout.templateSheet) >>= fun template =>
      require doc target (.noDestination target) >>= fun sheet =>
      ask (doc.findTagged template layout.tagColumn c.baseType) >>= fun found =>
      pasteFound doc layout template sheet c found := by
  rw [placeBlock]
  congr 1
  funext template
  congr 1
  funext sheet
  congr 1
  funext found
  cases found with
  | none => rfl
  | some rows =>
    simp only [pasteFound, pasteRows, fillIn, writeDriver, writeAssumptions]
    split
    · rfl
    · rfl

/-- The operation fails, if it does, in a way that meets a condition. -/
def FailsAs {α : Type} (E : Failure → Prop) (x : EStateM Failure σ α) : Prop :=
  Meets (fun _ => True) x (fun _ _ => True) fun failure _ => E failure

section

variable {E : Failure → Prop}

theorem failsAs_ask {α : Type} (h : ∀ fault, E (.document fault))
    (x : EStateM Document.Fault σ α) : FailsAs E (ask x) := by
  refine Meets.adapt ⟨fun s _ => ?_⟩
  cases x.run s with
  | ok a t => trivial
  | error fault t => exact h fault

theorem failsAs_require (h : ∀ fault, E (.document fault)) (title : String) {failure : Failure}
    (hfailure : E failure) : FailsAs E (require doc title failure) := by
  refine Meets.bind (failsAs_ask h _) fun found => ?_
  cases found with
  | some sheet => exact Meets.done fun _ h => h
  | none => exact Meets.stop fun _ _ => hfailure

theorem failsAs_pasteFound (h : ∀ fault, E (.document fault)) (template sheet : κ) {c : Code}
    (hblock : E (.noBlock c.baseType layout.templateSheet)) (found : Option (Nat × Nat)) :
    FailsAs E (pasteFound doc layout template sheet c found) := by
  cases found with
  | none => exact Meets.stop fun _ _ => hblock
  | some rows =>
    refine Meets.bind (failsAs_ask h _) fun last => Meets.bind (failsAs_ask h _) fun _ => ?_
    have hdriver : FailsAs E (writeDriver doc layout sheet (last + 1) c) :=
      Meets.ite (fun _ => failsAs_ask h _) fun _ => Meets.done fun _ h => h
    refine Meets.bind hdriver fun _ => ?_
    exact Meets.ite (fun _ => failsAs_ask h _) fun _ => Meets.done fun _ h => h

end

/-- The code makes a tab. -/
def IsTab (c : Code) : Prop := c.baseType = tabType

instance (c : Code) : Decidable (IsTab c) := inferInstanceAs (Decidable (c.baseType = tabType))

/-- A code that makes a tab of a title. -/
def tabCode (title : String) : Code where
  key := "1"
  baseType := tabType
  labels := .ofFunction fun i => if i = 1 then title else ""

/-- The code places a block. -/
def IsBlock (c : Code) : Prop := c.baseType ≠ modelType ∧ c.baseType ≠ tabType

instance (c : Code) : Decidable (IsBlock c) :=
  inferInstanceAs (Decidable (c.baseType ≠ modelType ∧ c.baseType ≠ tabType))

/-- A code that places a break. -/
def breakCode : Code where
  key := "1"
  baseType := "BR"

variable {layout} {target : Option String} {index : Nat} {c : Code}

theorem carryOut_model (h : c.baseType = modelType) :
    carryOut doc layout target index c = pure .nothing := by
  unfold carryOut
  rw [if_pos h]

theorem carryOut_tab (h : IsTab c) :
    carryOut doc layout target index c =
      makeTab doc layout (tabName layout index c) >>= fun _ =>
      ask doc.commit >>= fun _ => pure (.tab (tabName layout index c)) := by
  have htab : c.baseType = tabType := h
  have hmodel : ¬c.baseType = modelType := by
    rw [htab]
    decide
  unfold carryOut
  rw [if_neg hmodel, if_pos htab]

theorem carryOut_noTarget (h : IsBlock c) :
    carryOut doc layout none index c = throw (.noTarget c.baseType) := by
  unfold carryOut
  rw [if_neg h.1, if_neg h.2]

theorem carryOut_block {target : String} (h : IsBlock c) :
    carryOut doc layout (some target) index c =
      placeBlock doc layout target c >>= fun _ => ask doc.commit >>= fun _ => pure .block := by
  unfold carryOut
  rw [if_neg h.1, if_neg h.2]

theorem isTab_or_isBlock (c : Code) : c.baseType = modelType ∨ IsTab c ∨ IsBlock c := by
  by_cases hmodel : c.baseType = modelType
  · exact Or.inl hmodel
  · by_cases htab : c.baseType = tabType
    · exact Or.inr (Or.inl htab)
    · exact Or.inr (Or.inr ⟨hmodel, htab⟩)

variable (layout)

/-! ## Several codes -/

/-- What a code comes to at a point of a run. -/
def verdict (p : Progress) (index : Nat) (c : Code) (state : σ) : Except Failure Outcome :=
  outcome (carryOut doc layout p.target index c) state

theorem step_fst (p : Progress) (index : Nat) (c : Code) (state : σ) :
    (step doc layout p index c state).1 = match verdict doc layout p index c state with
      | .ok outcome => p.advance outcome
      | .error failure => p.fail index c failure := by
  rw [step, verdict, outcome]
  cases (carryOut doc layout p.target index c).run state <;> rfl

/-- The target changes when a tab is made. -/
theorem step_target (p : Progress) (index : Nat) (c : Code) (state : σ) :
    (step doc layout p index c state).1.target = match verdict doc layout p index c state with
      | .ok (.tab name) => some name
      | _ => p.target := by
  rw [step_fst]
  rcases verdict doc layout p index c state with failure | (_ | name | _) <;> rfl

theorem step_snd (p : Progress) (index : Nat) (c : Code) (state : σ) :
    (step doc layout p index c state).2 =
      after (carryOut doc layout p.target index c) state := by
  rw [step, after]
  cases (carryOut doc layout p.target index c).run state <;> rfl

theorem after_ask {α : Type} (x : EStateM Document.Fault σ α) (state : σ) :
    after (ask x) state = after x state :=
  after_adaptExcept _ x state

/-- A tab that was made is committed. -/
theorem step_snd_tab {c : Code} (h : IsTab c) (p : Progress) (index : Nat) (state : σ) :
    (step doc layout p index c state).2 =
      let made := makeTab doc layout (tabName layout index c)
      match outcome made state with
      | .ok _ => after doc.commit (after made state)
      | .error _ => after made state := by
  rw [step_snd, carryOut_tab doc h, after_bind]
  dsimp only
  cases outcome (makeTab doc layout (tabName layout index c)) state with
  | ok _ =>
    dsimp only
    rw [after_bind_pure, after_ask]
  | error _ => rfl

/-- A block that was placed is committed. -/
theorem step_snd_block {c : Code} (h : IsBlock c) {p : Progress} {target : String}
    (hp : p.target = some target) (index : Nat) (state : σ) :
    (step doc layout p index c state).2 =
      let placed := placeBlock doc layout target c
      match outcome placed state with
      | .ok _ => after doc.commit (after placed state)
      | .error _ => after placed state := by
  rw [step_snd, hp, carryOut_block doc h, after_bind]
  dsimp only
  cases outcome (placeBlock doc layout target c) state with
  | ok _ =>
    dsimp only
    rw [after_bind_pure, after_ask]
  | error _ => rfl

/-- A step keeps what making a tab, placing a block and committing keep. -/
theorem step_snd_of {P : σ → Prop} {p : Progress} {index : Nat} {c : Code} {state : σ}
    (h : P state) (hmake : IsTab c → P (after (makeTab doc layout (tabName layout index c)) state))
    (hplace : ∀ target, IsBlock c → p.target = some target →
      P (after (placeBlock doc layout target c) state))
    (hcommit : ∀ s, P s → P (after doc.commit s)) : P (step doc layout p index c state).2 := by
  rcases isTab_or_isBlock c with hmodel | htab | hblock
  · rw [step_snd, carryOut_model doc hmodel]
    exact h
  -- what has failed is not committed
  · rw [step_snd_tab doc layout htab]
    dsimp only
    split
    · exact hcommit _ (hmake htab)
    · exact hmake htab
  · cases hp : p.target with
    | none =>
      rw [step_snd, hp, carryOut_noTarget doc hblock]
      exact h
    | some target =>
      rw [step_snd_block doc layout hblock hp]
      dsimp only
      split
      · exact hcommit _ (hplace target hblock hp)
      · exact hplace target hblock hp

/-- What a code comes to that has done its part and is committed. -/
def committed (result : Outcome) (state : σ) : Except Failure Outcome :=
  match outcome doc.commit state with
  | .ok _ => .ok result
  | .error fault => .error (.document fault)

theorem outcome_commit (result : Outcome) (state : σ) :
    outcome (ask doc.commit >>= fun _ => pure result) state = committed doc result state := by
  rw [outcome_bind, ask, outcome_adaptExcept, committed]
  cases outcome doc.commit state <;> rfl

theorem verdict_tab {c : Code} (h : IsTab c) (p : Progress) (index : Nat) (state : σ) :
    verdict doc layout p index c state =
      let made := makeTab doc layout (tabName layout index c)
      match outcome made state with
      | .ok _ => committed doc (.tab (tabName layout index c)) (after made state)
      | .error failure => .error failure := by
  rw [verdict, carryOut_tab doc h, outcome_bind]
  dsimp only
  cases outcome (makeTab doc layout (tabName layout index c)) state with
  | ok _ => exact outcome_commit doc _ _
  | error _ => rfl

theorem verdict_block {c : Code} (h : IsBlock c) {p : Progress} {target : String}
    (hp : p.target = some target) (index : Nat) (state : σ) :
    verdict doc layout p index c state =
      let placed := placeBlock doc layout target c
      match outcome placed state with
      | .ok _ => committed doc .block (after placed state)
      | .error failure => .error failure := by
  rw [verdict, hp, carryOut_block doc h, outcome_bind]
  dsimp only
  cases outcome (placeBlock doc layout target c) state with
  | ok _ => exact outcome_commit doc _ _
  | error _ => rfl

theorem committed_eq_ok_iff {result other : Outcome} {state : σ} :
    committed doc result state = .ok other ↔
      outcome doc.commit state = .ok () ∧ result = other := by
  rw [committed]
  cases outcome doc.commit state with
  | ok _ =>
    rw [Except.ok.injEq]
    exact ⟨fun h => ⟨rfl, h⟩, fun h => h.2⟩
  | error _ => exact ⟨nofun, nofun⟩

theorem document_of_committed {result : Outcome} {state : σ} {failure : Failure}
    (h : committed doc result state = .error failure) : ∃ fault, failure = .document fault := by
  rw [committed] at h
  split at h
  · cases h
  next fault _ => exact ⟨fault, (Except.error.inj h).symm⟩

/-- A block comes to a block or to a failure. -/
theorem verdict_ne_tab_of_isBlock {p : Progress} {index : Nat} {c : Code} {state : σ}
    (h : IsBlock c) (name : String) : verdict doc layout p index c state ≠ .ok (.tab name) := by
  intro htab
  cases hp : p.target with
  | none =>
    rw [verdict, hp, carryOut_noTarget doc h] at htab
    cases htab
  | some target =>
    rw [verdict_block doc layout h hp] at htab
    dsimp only at htab
    cases hplace : outcome (placeBlock doc layout target c) state with
    | error _ =>
      rw [hplace] at htab
      cases htab
    | ok _ =>
      rw [hplace] at htab
      cases ((committed_eq_ok_iff doc).mp htab).2

/-- The codes that make a tab are the `TAB` codes whose tab is made and committed. -/
theorem verdict_eq_tab_iff {p : Progress} {index : Nat} {c : Code} {state : σ} {name : String} :
    verdict doc layout p index c state = .ok (.tab name) ↔
      IsTab c ∧ tabName layout index c = name ∧
        outcome (makeTab doc layout name) state = .ok () ∧
        outcome doc.commit (after (makeTab doc layout name) state) = .ok () := by
  -- of the three kinds of codes only one can come to a tab
  rcases isTab_or_isBlock c with hmodel | htab | hblock
  · rw [verdict, carryOut_model doc hmodel]
    refine ⟨nofun, fun h => ?_⟩
    have htab : c.baseType = tabType := h.1
    rw [htab] at hmodel
    exact absurd hmodel (by decide)
  · rw [verdict_tab doc layout htab]
    dsimp only
    constructor
    · intro h
      cases hmake : outcome (makeTab doc layout (tabName layout index c)) state with
      | error _ =>
        rw [hmake] at h
        cases h
      | ok _ =>
        rw [hmake] at h
        rcases (committed_eq_ok_iff doc).mp h with ⟨hcommit, hname⟩
        obtain rfl : tabName layout index c = name := Outcome.tab.inj hname
        exact ⟨htab, rfl, hmake, hcommit⟩
    · rintro ⟨-, rfl, hmake, hcommit⟩
      rw [hmake]
      exact (committed_eq_ok_iff doc).mpr ⟨hcommit, rfl⟩
  · exact iff_of_false (verdict_ne_tab_of_isBlock doc layout hblock name)
      fun h => absurd h.1 hblock.2

/-- A code that makes a tab has made it, committed it, and set the target. -/
theorem step_of_verdict_tab {p : Progress} {index : Nat} {c : Code} {state : σ} {name : String}
    (h : verdict doc layout p index c state = .ok (.tab name)) :
    (step doc layout p index c state).1.target = some name ∧
      (step doc layout p index c state).2 =
        after doc.commit (after (makeTab doc layout name) state) := by
  rcases (verdict_eq_tab_iff doc layout).mp h with ⟨htab, rfl, hmake, -⟩
  refine ⟨by rw [step_target, h], ?_⟩
  rw [step_snd_tab doc layout htab]
  dsimp only
  rw [hmake]

theorem stepAll_cons (p : Progress) (index : Nat) (c : Code) (rest : List Code) (state : σ) :
    stepAll doc layout p index (c :: rest) state =
      stepAll doc layout (step doc layout p index c state).1 (index + 1) rest
        (step doc layout p index c state).2 := rfl

theorem stepAll_append (p : Progress) (index : Nat) (xs ys : List Code) (state : σ) :
    stepAll doc layout p index (xs ++ ys) state =
      stepAll doc layout (stepAll doc layout p index xs state).1 (index + xs.length) ys
        (stepAll doc layout p index xs state).2 := by
  -- the index goes on where the first codes end
  induction xs generalizing p index state with
  | nil => rfl
  | cons c xs ih =>
    rw [List.cons_append, stepAll_cons, stepAll_cons, ih, List.length_cons, Nat.add_assoc,
      Nat.add_comm 1 xs.length]

/-- How far a run has come with its first codes. -/
def upTo (codes : List Code) (state : σ) (i : Nat) : Progress × σ :=
  stepAll doc layout {} 0 (codes.take i) state

theorem upTo_succ {codes : List Code} {i : Nat} {c : Code} (hc : codes[i]? = some c) (state : σ) :
    upTo doc layout codes state (i + 1) =
      step doc layout (upTo doc layout codes state i).1 i c (upTo doc layout codes state i).2 := by
  have hlt : i < codes.length := (List.getElem?_eq_some_iff.mp hc).1
  rw [upTo, List.take_add_one, hc, Option.toList_some, stepAll_append, List.length_take,
    Nat.min_eq_left (Nat.le_of_lt hlt), Nat.zero_add]
  rfl

/-- Behind the last code a run has come to its end. -/
theorem upTo_of_le {codes : List Code} {i : Nat} (hi : codes.length ≤ i) (state : σ) :
    upTo doc layout codes state i = stepAll doc layout {} 0 codes state := by
  rw [upTo, List.take_of_length_le hi]

theorem execute_snd (codes : List Code) (state : σ) :
    (execute doc layout codes state).2 = (stepAll doc layout {} 0 codes state).2 := rfl

/-- What every step keeps, a whole run keeps. -/
theorem stepAll_induction {I : Progress → σ → Prop} {codes : List Code} {index : Nat}
    (hstep : ∀ i c, codes[i]? = some c → ∀ p state, I p state →
      I (step doc layout p (index + i) c state).1 (step doc layout p (index + i) c state).2)
    {p : Progress} {state : σ} (h : I p state) :
    I (stepAll doc layout p index codes state).1 (stepAll doc layout p index codes state).2 := by
  induction codes generalizing p index state with
  | nil => exact h
  | cons c codes ih =>
    rw [stepAll_cons]
    refine ih ?_ (hstep 0 c rfl p state h)
    intro i c' hc'
    have hi : index + 1 + i = index + (i + 1) := by omega
    rw [hi]
    exact hstep (i + 1) c' hc'

end Sheetwright.Run
