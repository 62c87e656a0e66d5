import Sheetwright.Document.Session
import Sheetwright.Proofs.Run.Parts
/-!
# Sections of a run

The codes from one tab to the next are a section of a run: they fill the sheet that the tab has
made. `Split` splits the codes of a run at a section, and `IsSection` says that they are split at
one which makes the sheet that is found under its title at the end.
-/

namespace Sheetwright.Run

open Operation

variable {σ κ : Type} (doc : Document σ κ) (layout : Layout)

/-! ## Codes of a section -/

/-- What a code places: the type of the block, its driver and its assumptions. -/
def blockOf? (c : Code) : Option (String × String × String) :=
  if c.baseType = modelType ∨ c.baseType = tabType then none
  else some (c.baseType, c.driver, c.assumptions)

/-- The blocks that codes place, in order. -/
def blocks (codes : List Code) : List (String × String × String) := codes.filterMap blockOf?

/-- What the codes that place blocks come to, in order. -/
def verdicts : Progress → Nat → List Code → σ → List (Except Failure Outcome)
  | _, _, [], _ => []
  | p, index, c :: rest, state =>
    let next := step doc layout p index c state
    let others := verdicts next.1 (index + 1) rest next.2
    if (blockOf? c).isSome then verdict doc layout p index c state :: others else others

/-- None of the codes makes a tab. -/
def Quiet : Progress → Nat → List Code → σ → Prop
  | _, _, [], _ => True
  | p, index, c :: rest, state =>
    let next := step doc layout p index c state
    (∀ name, verdict doc layout p index c state ≠ .ok (.tab name)) ∧
      Quiet next.1 (index + 1) rest next.2

/-- None of the codes, of which the first has an index, tries to make a tab of a title. -/
def Unclaimed (layout : Layout) (name : String) : Nat → List Code → Prop
  | _, [] => True
  | index, c :: rest =>
    (IsTab c → tabName layout index c ≠ name) ∧ Unclaimed layout name (index + 1) rest

instance decidableUnclaimed (layout : Layout) (name : String) :
    ∀ index codes, Decidable (Unclaimed layout name index codes)
  | _, [] => isTrue trivial
  | index, c :: rest =>
    have := decidableUnclaimed layout name (index + 1) rest
    inferInstanceAs (Decidable ((IsTab c → tabName layout index c ≠ name) ∧
      Unclaimed layout name (index + 1) rest))

section

variable {doc layout} {name : String} {p : Progress} {index : Nat} {codes xs ys : List Code}
  {state : σ}

theorem blockOf?_eq_some_iff {c : Code} {b : String × String × String} :
    blockOf? c = some b ↔ IsBlock c ∧ (c.baseType, c.driver, c.assumptions) = b := by
  rw [blockOf?, IsBlock]
  split
  next h => exact ⟨nofun, fun hb => absurd h (not_or.mpr hb.1)⟩
  next h =>
    rw [Option.some.injEq]
    exact ⟨fun hb => ⟨not_or.mp h, hb⟩, fun hb => hb.2⟩

theorem blockOf?_eq_none_iff {c : Code} : blockOf? c = none ↔ ¬IsBlock c := by
  rw [Option.eq_none_iff_forall_ne_some]
  constructor
  · exact fun h hc => h _ (blockOf?_eq_some_iff.mpr ⟨hc, rfl⟩)
  · exact fun h b hb => h (blockOf?_eq_some_iff.mp hb).1

/-- Codes that are no `TAB` codes make no tab. -/
theorem quiet_of_not_isTab (h : ∀ c ∈ codes, ¬IsTab c) :
    Quiet doc layout p index codes state := by
  induction codes generalizing p index state with
  | nil => exact trivial
  | cons c codes ih =>
    rw [List.forall_mem_cons] at h
    exact ⟨fun _ hname => h.1 ((verdict_eq_tab_iff _ _).mp hname).1, ih h.2⟩

theorem unclaimed_append :
    Unclaimed layout name index (xs ++ ys) ↔
      Unclaimed layout name index xs ∧ Unclaimed layout name (index + xs.length) ys := by
  induction xs generalizing index with
  | nil => exact ⟨fun h => ⟨trivial, h⟩, fun h => h.2⟩
  | cons c xs ih =>
    rw [List.length_cons, Nat.add_comm xs.length, ← Nat.add_assoc, List.cons_append, Unclaimed,
      Unclaimed, ih, and_assoc]

theorem quiet_append :
    Quiet doc layout p index (xs ++ ys) state ↔ Quiet doc layout p index xs state ∧
      Quiet doc layout (stepAll doc layout p index xs state).1 (index + xs.length) ys
        (stepAll doc layout p index xs state).2 := by
  -- the second part starts where the run over the first one ends
  induction xs generalizing p index state with
  | nil => exact ⟨fun h => ⟨trivial, h⟩, fun h => h.2⟩
  | cons c xs ih =>
    rw [List.length_cons, Nat.add_comm xs.length, ← Nat.add_assoc, stepAll_cons, List.cons_append,
      Quiet, Quiet, ih, and_assoc]

theorem verdicts_append :
    verdicts doc layout p index (xs ++ ys) state = verdicts doc layout p index xs state ++
      verdicts doc layout (stepAll doc layout p index xs state).1 (index + xs.length) ys
        (stepAll doc layout p index xs state).2 := by
  induction xs generalizing p index state with
  | nil => rfl
  | cons c xs ih =>
    rw [List.length_cons, Nat.add_comm xs.length, ← Nat.add_assoc, stepAll_cons, List.cons_append,
      verdicts, verdicts, ih]
    split
    · rfl
    · rfl

theorem verdicts_idle (h : ∀ c ∈ codes, blockOf? c = none) :
    verdicts doc layout p index codes state = [] := by
  induction codes generalizing p index state with
  | nil => rfl
  | cons c codes ih =>
    rw [List.forall_mem_cons] at h
    rw [verdicts, h.1]
    exact ih h.2

end

/-! ## Splitting a run -/

/-- The codes of a run, split at a tab and at the end of its section. -/
structure Split where
  before : List Code
  tab : Code
  inside : List Code
  rest : List Code

namespace Split

variable (x : Split) (state : σ)

/-- All codes of the run. -/
def codes : List Code := x.before ++ x.tab :: (x.inside ++ x.rest)

/-- How far the run has come before the tab. -/
def reached : Progress × σ := stepAll doc layout {} 0 x.before state

/-- How far the run has come after the tab. -/
def opened : Progress × σ :=
  step doc layout (x.reached doc layout state).1 x.before.length x.tab
    (x.reached doc layout state).2

/-- How far the run has come after the section. -/
def closed : Progress × σ :=
  stepAll doc layout (x.opened doc layout state).1 (x.before.length + 1) x.inside
    (x.opened doc layout state).2

/-- What the blocks of the section come to. -/
def verdicts : List (Except Failure Outcome) :=
  Run.verdicts doc layout (x.opened doc layout state).1 (x.before.length + 1) x.inside
    (x.opened doc layout state).2

theorem execute_codes :
    (execute doc layout x.codes state).2 =
      (stepAll doc layout (x.closed doc layout state).1
        (x.before.length + 1 + x.inside.length) x.rest (x.closed doc layout state).2).2 := by
  rw [execute_snd, codes, stepAll_append, Nat.zero_add, stepAll_cons, stepAll_append]
  rfl

end Split

variable {ρ : Type}

/-- The codes are split at a section: the tab is made and leads to a sheet of its title, the section
ends where another tab is made, and no later code tries to make a tab of the title. -/
structure IsSection (commit : Session.Action ρ Unit) (layout : Layout) (name : String) (x : Split)
    (s : Session ρ) : Prop where
  makes : verdict (Session.document commit) layout (x.reached (Session.document commit) layout s).1
    x.before.length x.tab (x.reached (Session.document commit) layout s).2 = .ok (.tab name)
  attains : name ∈ (after (makeTab (Session.document commit) layout name)
    (x.reached (Session.document commit) layout s).2).workbook.titles
  quiet : Quiet (Session.document commit) layout (x.opened (Session.document commit) layout s).1
    (x.before.length + 1) x.inside (x.opened (Session.document commit) layout s).2
  ends : x.rest = [] ∨ ∃ d more other, x.rest = d :: more ∧
    verdict (Session.document commit) layout (x.closed (Session.document commit) layout s).1
      (x.before.length + 1 + x.inside.length) d
      (x.closed (Session.document commit) layout s).2 = .ok (.tab other)
  lasts : Unclaimed layout name (x.before.length + 1) (x.inside ++ x.rest)

end Sheetwright.Run
