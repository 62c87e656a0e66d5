import Sheetwright.Document.Session
import Sheetwright.Proofs.Run.Parts
/-!
# Watching a run

A watched document notes the state before each of its operations and is otherwise the document it
was made from: `execute_watched` says that a run over it ends the same way. The states it notes,
together with the last one, are the points of the run. Documents that
mirror each other are run alike (`stepAll_mirrors`); it follows as well that nothing but committing
touches the store of a session (`store_execute`).
-/

namespace Sheetwright

open Operation

variable {ε σ τ κ α : Type}

/-! ## Noting states -/

/-- The operation, with the state it starts from added to a list. -/
def watch (x : EStateM ε σ α) : EStateM ε (σ × List σ) α := fun u =>
  match x.run u.1 with
  | .ok a s => .ok a (s, u.2 ++ [u.1])
  | .error e s => .error e (s, u.2 ++ [u.1])

/-- The present state satisfies one condition and all noted states another one. -/
structure Noted (G P : σ → Prop) (u : σ × List σ) : Prop where
  now : P u.1
  seen : ∀ s ∈ u.2, G s

theorem meets_watch {G P : σ → Prop} {Q : α → σ → Prop} {E : ε → σ → Prop} {x : EStateM ε σ α}
    (h : Meets P x Q E) (hG : ∀ s, P s → G s) :
    Meets (Noted G P) (watch x) (fun a => Noted G (Q a)) fun e => Noted G (E e) := by
  refine ⟨?_⟩
  rintro ⟨s, seen⟩ ⟨hnow, hseen⟩
  have hx := h.ends s hnow
  -- the state that is noted now is the one that the precondition speaks of
  have hnoted : ∀ t ∈ seen ++ [s], G t := by
    intro t ht
    rcases List.mem_append.mp ht with ht | ht
    · exact hseen t ht
    · rw [List.mem_singleton.mp ht]
      exact hG s hnow
  rw [EStateM.run, watch]
  cases hrun : x.run s with
  | ok a t =>
    rw [hrun] at hx
    exact ⟨hx, hnoted⟩
  | error e t =>
    rw [hrun] at hx
    exact ⟨hx, hnoted⟩

theorem run_watch (x : EStateM ε σ α) (u : σ × List σ) :
    (watch x).run u = match x.run u.1 with
      | .ok a s => .ok a (s, u.2 ++ [u.1])
      | .error e s => .error e (s, u.2 ++ [u.1]) := rfl

theorem after_watch (x : EStateM ε σ α) (u : σ × List σ) :
    after (watch x) u = (after x u.1, u.2 ++ [u.1]) := by
  rw [after, after, run_watch]
  cases x.run u.1 <;> rfl

theorem agree_watch (x : EStateM ε σ α) : Agree (fun s u => u.1 = s) (· = ·) x (watch x) := by
  refine ⟨?_⟩
  rintro s u rfl
  rw [run_watch]
  cases x.run u.1 with
  | ok a t => exact ⟨rfl, rfl⟩
  | error e t => exact ⟨rfl, rfl⟩

namespace Document

/-- The document that notes the state before each of its operations. -/
def watched (doc : Document σ κ) : Document (σ × List σ) κ where
  find? title := watch (doc.find? title)
  delete title := watch (doc.delete title)
  duplicate title := watch (doc.duplicate title)
  title sheet := watch (doc.title sheet)
  rename sheet title := watch (doc.rename sheet title)
  lastUsedRow sheet := watch (doc.lastUsedRow sheet)
  lastRow sheet := watch (doc.lastRow sheet)
  clearRows sheet first last := watch (doc.clearRows sheet first last)
  copyBlock source rows dest start lastColumn :=
    watch (doc.copyBlock source rows dest start lastColumn)
  write sheet row column datum := watch (doc.write sheet row column datum)
  writeColumn sheet row column data := watch (doc.writeColumn sheet row column data)
  findTagged sheet column tag := watch (doc.findTagged sheet column tag)
  commit := watch doc.commit

/-- Every operation of the one document agrees with that of the other. -/
structure Mirrors (R : σ → τ → Prop) (doc : Document σ κ) (doc' : Document τ κ) : Prop where
  find? : ∀ title, Agree R (· = ·) (doc.find? title) (doc'.find? title)
  delete : ∀ title, Agree R (· = ·) (doc.delete title) (doc'.delete title)
  duplicate : ∀ title, Agree R (· = ·) (doc.duplicate title) (doc'.duplicate title)
  title : ∀ sheet, Agree R (· = ·) (doc.title sheet) (doc'.title sheet)
  rename : ∀ sheet title, Agree R (· = ·) (doc.rename sheet title) (doc'.rename sheet title)
  lastUsedRow : ∀ sheet, Agree R (· = ·) (doc.lastUsedRow sheet) (doc'.lastUsedRow sheet)
  lastRow : ∀ sheet, Agree R (· = ·) (doc.lastRow sheet) (doc'.lastRow sheet)
  clearRows : ∀ sheet first last,
    Agree R (· = ·) (doc.clearRows sheet first last) (doc'.clearRows sheet first last)
  copyBlock : ∀ source rows dest start lastColumn,
    Agree R (· = ·) (doc.copyBlock source rows dest start lastColumn)
      (doc'.copyBlock source rows dest start lastColumn)
  write : ∀ sheet row column datum,
    Agree R (· = ·) (doc.write sheet row column datum) (doc'.write sheet row column datum)
  writeColumn : ∀ sheet row column data,
    Agree R (· = ·) (doc.writeColumn sheet row column data)
      (doc'.writeColumn sheet row column data)
  findTagged : ∀ sheet column tag,
    Agree R (· = ·) (doc.findTagged sheet column tag) (doc'.findTagged sheet column tag)
  commit : Agree R (· = ·) doc.commit doc'.commit

theorem mirrors_watched (doc : Document σ κ) :
    doc.Mirrors (fun s u => u.1 = s) doc.watched where
  find? _ := agree_watch _
  delete _ := agree_watch _
  duplicate _ := agree_watch _
  title _ := agree_watch _
  rename _ _ := agree_watch _
  lastUsedRow _ := agree_watch _
  lastRow _ := agree_watch _
  clearRows _ _ _ := agree_watch _
  copyBlock _ _ _ _ _ := agree_watch _
  write _ _ _ _ := agree_watch _
  writeColumn _ _ _ _ := agree_watch _
  findTagged _ _ _ := agree_watch _
  commit := agree_watch _

/-- Documents over two sessions mirror each other if the sessions have the same workbook and are
committed alike. -/
theorem mirrors_session {ρ ρ' : Type} {R : Session ρ → Session ρ' → Prop}
    (hbook : ∀ s s', R s s' → s.workbook = s'.workbook)
    (hput : ∀ s s' b, R s s' → R { s with workbook := b } { s' with workbook := b })
    {commit : Session.Action ρ Unit} {commit' : Session.Action ρ' Unit}
    (hcommit : Agree R (· = ·) commit commit') :
    (Session.document commit).Mirrors R (Session.document commit') := by
  -- besides the commit, a question either reads the workbook or works on it
  have hreading {β : Type} (f : Workbook → β) :
      Agree R (· = ·) (do return f (← get).workbook : Session.Action ρ β)
        (do return f (← get).workbook : Session.Action ρ' β) :=
    Agree.bind Agree.read fun s s' h => Agree.done (congrArg f (hbook s s' h))
  have hworking {β : Type} (action : Workbook.Action β) :
      Agree R (· = ·) (Session.onWorkbook (ρ := ρ) action)
        (Session.onWorkbook (ρ := ρ') action) := by
    refine ⟨fun s s' h => ?_⟩
    rw [EStateM.run, EStateM.run, Session.onWorkbook, Session.onWorkbook, hbook s s' h]
    cases action.run s'.workbook with
    | ok a b => exact ⟨rfl, hput s s' b h⟩
    | error fault b => exact ⟨rfl, hput s s' b h⟩
  exact
    { find? := fun title => hreading fun b => b.find? title
      delete := fun _ => hworking _
      duplicate := fun _ => hworking _
      title := fun place => hreading fun b => (b.sheet place).title
      rename := fun _ _ => hworking _
      lastUsedRow := fun place => hworking (Workbook.onSheet place Grid.Sheet.lastUsedRow)
      lastRow := fun place => hreading fun b => (b.sheet place).maxRow
      clearRows := fun _ _ _ => hworking _
      copyBlock := fun _ _ _ _ _ => hworking _
      write := fun _ _ _ _ => hworking _
      writeColumn := fun _ _ _ _ => hworking _
      findTagged := fun _ _ _ => hworking _
      commit := hcommit }

end Document

/-! ## Runs over documents that agree -/

namespace Run

variable {doc : Document σ κ} {doc' : Document τ κ} {R : σ → τ → Prop} (layout : Layout)

theorem agree_ask {x : EStateM Document.Fault σ α} {y : EStateM Document.Fault τ α}
    (h : Agree R (· = ·) x y) : Agree R (· = ·) (ask x) (ask y) := h.adapt

theorem agree_vacate (h : doc.Mirrors R doc') (name : String) :
    Agree R (· = ·) (vacate doc name) (vacate doc' name) := by
  refine Agree.bind (agree_ask (h.find? name)) ?_
  rintro found _ rfl
  exact Agree.ite (agree_ask (h.delete name)) (Agree.done rfl)

theorem agree_titleCopy (h : doc.Mirrors R doc') (copy : κ) (name : String) :
    Agree R (· = ·) (titleCopy doc copy name) (titleCopy doc' copy name) := by
  rw [titleCopy_eq, titleCopy_eq]
  refine Agree.catching (agree_ask (h.rename copy name)) fun failure => ?_
  -- both take the copy back, or both pass the failure on
  refine Agree.ite ?_ (Agree.stop _)
  refine Agree.bind (agree_ask (h.title copy)) ?_
  rintro title _ rfl
  exact Agree.bind (agree_ask (h.delete title)) fun _ _ _ => Agree.stop _

theorem agree_trim (h : doc.Mirrors R doc') (copy : κ) :
    Agree R (· = ·) (trim doc layout copy) (trim doc' layout copy) := by
  refine Agree.bind (agree_ask (h.lastRow copy)) ?_
  rintro bottom _ rfl
  exact Agree.ite (agree_ask (h.clearRows copy _ bottom)) (Agree.done rfl)

theorem agree_copyTemplate (h : doc.Mirrors R doc') (name : String) :
    Agree R (· = ·) (copyTemplate doc layout name) (copyTemplate doc' layout name) := by
  refine Agree.bind (agree_ask (h.duplicate _)) ?_
  rintro copy _ rfl
  exact Agree.bind (agree_titleCopy h copy name) fun _ _ _ => agree_trim layout h copy

theorem agree_makeTab (h : doc.Mirrors R doc') (name : String) :
    Agree R (· = ·) (makeTab doc layout name) (makeTab doc' layout name) := by
  rw [makeTab_eq, makeTab_eq]
  refine Agree.ite (Agree.stop _) ?_
  exact Agree.bind (agree_vacate h name) fun _ _ _ => agree_copyTemplate layout h name

theorem agree_require (h : doc.Mirrors R doc') (title : String) (failure : Failure) :
    Agree R (· = ·) (require doc title failure) (require doc' title failure) := by
  refine Agree.bind (agree_ask (h.find? title)) ?_
  rintro found _ rfl
  cases found with
  | some sheet => exact Agree.done rfl
  | none => exact Agree.stop failure

theorem agree_fillIn (h : doc.Mirrors R doc') (sheet : κ) (start : Nat) (c : Code) :
    Agree R (· = ·) (fillIn doc layout sheet start c) (fillIn doc' layout sheet start c) := by
  have hdriver : Agree R (· = ·) (writeDriver doc layout sheet start c)
      (writeDriver doc' layout sheet start c) :=
    Agree.ite (agree_ask (h.write _ _ _ _)) (Agree.done rfl)
  exact Agree.bind hdriver fun _ _ _ =>
    Agree.ite (agree_ask (h.writeColumn _ _ _ _)) (Agree.done rfl)

theorem agree_placeBlock (h : doc.Mirrors R doc') (target : String) (c : Code) :
    Agree R (· = ·) (placeBlock doc layout target c) (placeBlock doc' layout target c) := by
  rw [placeBlock_eq, placeBlock_eq]
  refine Agree.bind (agree_require h _ _) ?_
  rintro template _ rfl
  refine Agree.bind (agree_require h _ _) ?_
  rintro sheet _ rfl
  refine Agree.bind (agree_ask (h.findTagged _ _ _)) ?_
  rintro found _ rfl
  cases found with
  | none => exact Agree.stop _
  | some rows =>
    refine Agree.bind (agree_ask (h.lastUsedRow sheet)) ?_
    rintro last _ rfl
    exact Agree.bind (agree_ask (h.copyBlock _ _ _ _ _)) fun _ _ _ =>
      agree_fillIn layout h sheet _ c

theorem agree_carryOut (h : doc.Mirrors R doc') (target : Option String) (index : Nat) (c : Code) :
    Agree R (· = ·) (carryOut doc layout target index c) (carryOut doc' layout target index c) := by
  rcases isTab_or_isBlock c with hmodel | htab | hblock
  · rw [carryOut_model doc hmodel, carryOut_model doc' hmodel]
    exact Agree.done rfl
  · rw [carryOut_tab doc htab, carryOut_tab doc' htab]
    have hmake := agree_makeTab layout h (tabName layout index c)
    refine Agree.bind hmake fun _ _ _ => ?_
    exact Agree.bind (agree_ask h.commit) fun _ _ _ => Agree.done rfl
  · cases target with
    | none =>
      rw [carryOut_noTarget doc hblock, carryOut_noTarget doc' hblock]
      exact Agree.stop _
    | some target =>
      rw [carryOut_block doc hblock, carryOut_block doc' hblock]
      have hplace := agree_placeBlock layout h target c
      refine Agree.bind hplace fun _ _ _ => ?_
      exact Agree.bind (agree_ask h.commit) fun _ _ _ => Agree.done rfl

theorem stepAll_mirrors (h : doc.Mirrors R doc') (p : Progress) (index : Nat) (codes : List Code)
    {s : σ} {t : τ} (hst : R s t) :
    (stepAll doc layout p index codes s).1 = (stepAll doc' layout p index codes t).1 ∧
      R (stepAll doc layout p index codes s).2 (stepAll doc' layout p index codes t).2 := by
  induction codes generalizing p index s t with
  | nil => exact ⟨rfl, hst⟩
  | cons c codes ih =>
    -- both go on with the same progress, so the induction carries the relation of states only
    have hstep : (step doc layout p index c s).1 = (step doc' layout p index c t).1 ∧
        R (step doc layout p index c s).2 (step doc' layout p index c t).2 := by
      rw [step, step]
      rcases (agree_carryOut layout h p.target index c).cases hst with
        ⟨a, b, s', t', hx, hy, rfl, hR⟩ | ⟨e, s', t', hx, hy, hR⟩
      · rw [hx, hy]
        exact ⟨rfl, hR⟩
      · rw [hx, hy]
        exact ⟨rfl, hR⟩
    rw [stepAll_cons, stepAll_cons, hstep.1]
    exact ih _ _ hstep.2

/-- Only committing touches the store of a session. -/
theorem store_execute {ρ : Type} {commit : Session.Action ρ Unit}
    (hcommit : Keeps (fun s t => t.store = s.store) commit) (layout : Layout) (codes : List Code)
    (s : Session ρ) :
    (execute (Session.document commit) layout codes s).2.store = s.store := by
  -- the document mirrors itself while the store is this one
  have hmirrors : (Session.document commit).Mirrors (fun t u => t = u ∧ u.store = s.store)
      (Session.document commit) := by
    refine Document.mirrors_session (fun _ _ h => congrArg Session.workbook h.1) ?_ ?_
    · rintro t _ b ⟨rfl, hstore⟩
      exact ⟨rfl, hstore⟩
    · refine ⟨?_⟩
      rintro t _ ⟨rfl, hstore⟩
      cases hrun : commit.run t with
      | ok a u => exact ⟨rfl, rfl, (hcommit.of_ok hrun).trans hstore⟩
      | error fault u => exact ⟨rfl, rfl, (hcommit.of_error hrun).trans hstore⟩
  exact (stepAll_mirrors layout hmirrors {} 0 codes ⟨rfl, rfl⟩).2.2

/-! ## The points of a run -/

/-- The states of a run: before every operation on the document, and the last one. -/
def points (doc : Document σ κ) (layout : Layout) (codes : List Code) (state : σ) : List σ :=
  let ended := (execute doc.watched layout codes (state, [])).2
  ended.2 ++ [ended.1]

/-- Watching a run changes neither what it reports nor where it ends. -/
theorem execute_watched (doc : Document σ κ) (layout : Layout) (codes : List Code) (state : σ) :
    (execute doc.watched layout codes (state, [])).1 = (execute doc layout codes state).1 ∧
      (execute doc.watched layout codes (state, [])).2.1 = (execute doc layout codes state).2 := by
  have h := stepAll_mirrors layout doc.mirrors_watched {} 0 codes
    (t := (state, [])) rfl
  exact ⟨(congrArg Progress.result h.1).symm, h.2⟩

theorem mem_points_end (doc : Document σ κ) (layout : Layout) (codes : List Code) (state : σ) :
    (execute doc layout codes state).2 ∈ points doc layout codes state := by
  -- the last state is noted on its own, behind all those before an operation
  rw [← (execute_watched doc layout codes state).2]
  exact List.mem_append_right _ (List.mem_singleton_self _)

/-- The states of carrying out one code: before every operation on the document, and the last
one. -/
def stepPoints (doc : Document σ κ) (layout : Layout) (p : Progress) (index : Nat) (c : Code)
    (state : σ) : List σ :=
  let ended := (step doc.watched layout p index c (state, [])).2
  ended.2 ++ [ended.1]

/-- Watching a code changes neither what it comes to nor where it ends. -/
theorem step_watched (doc : Document σ κ) (p : Progress) (index : Nat) (c : Code) (state : σ) :
    let ended := step doc.watched layout p index c (state, [])
    ended.1 = (step doc layout p index c state).1 ∧
      ended.2.1 = (step doc layout p index c state).2 := by
  have h := stepAll_mirrors layout doc.mirrors_watched p index [c] (t := (state, [])) rfl
  exact ⟨h.1.symm, h.2⟩

theorem mem_stepPoints {doc : Document σ κ} {p : Progress} {index : Nat} {c : Code} {state u : σ} :
    u ∈ stepPoints doc layout p index c state ↔
      u ∈ (step doc.watched layout p index c (state, [])).2.2 ∨
        u = (step doc layout p index c state).2 := by
  rw [stepPoints, List.mem_append, List.mem_singleton, (step_watched layout doc p index c state).2]

/-- What was noted before is carried along. -/
theorem agree_watch_after (before : List σ) (x : EStateM ε σ α) :
    Agree (fun u v : σ × List σ => v = (u.1, before ++ u.2)) (· = ·) (watch x) (watch x) := by
  refine ⟨?_⟩
  rintro u _ rfl
  rw [run_watch, run_watch]
  dsimp only
  cases x.run u.1 with
  | ok a t => exact ⟨rfl, by rw [List.append_assoc]⟩
  | error e t => exact ⟨rfl, by rw [List.append_assoc]⟩

theorem step_watched_after (doc : Document σ κ) (p : Progress) (index : Nat) (c : Code)
    (state : σ) (before : List σ) :
    step doc.watched layout p index c (state, before) =
      let next := step doc.watched layout p index c (state, [])
      (next.1, next.2.1, before ++ next.2.2) := by
  have hmirrors : doc.watched.Mirrors (fun u v => v = (u.1, before ++ u.2)) doc.watched :=
    { find? := fun _ => agree_watch_after before _
      delete := fun _ => agree_watch_after before _
      duplicate := fun _ => agree_watch_after before _
      title := fun _ => agree_watch_after before _
      rename := fun _ _ => agree_watch_after before _
      lastUsedRow := fun _ => agree_watch_after before _
      lastRow := fun _ => agree_watch_after before _
      clearRows := fun _ _ _ => agree_watch_after before _
      copyBlock := fun _ _ _ _ _ => agree_watch_after before _
      write := fun _ _ _ _ => agree_watch_after before _
      writeColumn := fun _ _ _ _ => agree_watch_after before _
      findTagged := fun _ _ _ => agree_watch_after before _
      commit := agree_watch_after before _ }
  have h := stepAll_mirrors layout hmirrors p index [c] (s := (state, [])) (t := (state, before))
    (by rw [List.append_nil])
  exact Prod.ext h.1.symm h.2

/-- The points of a run are those of its codes, and its end. -/
theorem mem_points {doc : Document σ κ} {codes : List Code} {state u : σ}
    (hu : u ∈ points doc layout codes state) :
    u = (execute doc layout codes state).2 ∨ ∃ i c, codes[i]? = some c ∧
      let reached := upTo doc layout codes state i
      u ∈ stepPoints doc layout reached.1 i c reached.2 := by
  -- by induction on the number of codes that are done
  have hnoted (n : Nat) (hn : n ≤ codes.length) : ∃ seen,
      upTo doc.watched layout codes (state, []) n =
        ((upTo doc layout codes state n).1, (upTo doc layout codes state n).2, seen) ∧
      ∀ v ∈ seen, ∃ i c, codes[i]? = some c ∧
        let reached := upTo doc layout codes state i
        v ∈ stepPoints doc layout reached.1 i c reached.2 := by
    induction n with
    | zero => exact ⟨[], rfl, nofun⟩
    | succ n ih =>
      rcases ih (by omega) with ⟨seen, heq, hseen⟩
      have hc : codes[n]? = some codes[n] := List.getElem?_eq_getElem hn
      let reached := upTo doc layout codes state n
      have hnext := step_watched layout doc reached.1 n codes[n] reached.2
      let more := (step doc.watched layout reached.1 n codes[n] (reached.2, [])).2.2
      refine ⟨seen ++ more, ?_, ?_⟩
      · rw [upTo_succ _ _ hc, upTo_succ _ _ hc, heq, step_watched_after]
        exact Prod.ext hnext.1 (Prod.ext hnext.2 rfl)
      · intro v hv
        rcases List.mem_append.mp hv with hv | hv
        · exact hseen v hv
        · exact ⟨n, _, hc, (mem_stepPoints layout).mpr (Or.inl hv)⟩
  rcases hnoted codes.length (Nat.le_refl _) with ⟨seen, heq, hseen⟩
  rw [upTo_of_le _ _ (Nat.le_refl _)] at heq
  rcases List.mem_append.mp hu with hu | hu
  · refine Or.inr (hseen u ?_)
    have hlist : (execute doc.watched layout codes (state, [])).2.2 = seen := by
      rw [execute_snd, heq]
    exact hlist ▸ hu
  · rw [List.mem_singleton.mp hu, (execute_watched doc layout codes state).2]
    exact Or.inl rfl

end Run

end Sheetwright
