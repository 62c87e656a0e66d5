import Mathlib.Order.Defs.Unbundled
/-!
# Reasoning about operations that may stop

An operation on a state either returns a value or stops with a failure, and leaves a state behind in
both cases. Four judgments are used throughout:

* `Keeps R x` — wherever `x` starts, the state it leaves behind is related to the first one by `R`;
* `Meets P x Q E` — from a state in `P` the operation returns into `Q` or stops in `E`;
  `Succeeds P x Q` — it returns into `Q` and does not stop;
* `Returns V x` — whatever `x` returns satisfies `V`, wherever it starts;
* `Agree R V x y` — from related states `x` and `y` both return, with values related by `V`, or both
  stop with the same failure, and their states stay related.

Each judgment has one rule for every way operations are put together.
-/

namespace Sheetwright.Operation

variable {ε ε' σ τ α β γ δ : Type}

/-- The state in which an operation leaves off, whether it returns or stops. -/
def after (x : EStateM ε σ α) (s : σ) : σ :=
  match x.run s with
  | .ok _ t => t
  | .error _ t => t

/-- What an operation comes to: a value or a failure. -/
def outcome (x : EStateM ε σ α) (s : σ) : Except ε α :=
  match x.run s with
  | .ok a _ => .ok a
  | .error e _ => .error e

instance decidableEqOk [DecidableEq α] (r : Except ε α) (a : α) : Decidable (r = .ok a) :=
  match r with
  | .ok b => decidable_of_iff (b = a) (Except.ok.injEq b a).to_iff.symm
  | .error _ => isFalse nofun

theorem after_of_ok {x : EStateM ε σ α} {s t : σ} {a : α} (h : x.run s = .ok a t) :
    after x s = t := by
  simp only [after, h]

theorem after_of_error {x : EStateM ε σ α} {s t : σ} {e : ε} (h : x.run s = .error e t) :
    after x s = t := by
  simp only [after, h]

/-- An operation that comes to a value or a failure in a state. -/
def ending (r : Except ε α) (s : σ) : EStateM.Result ε σ α :=
  match r with
  | .ok a => .ok a s
  | .error e => .error e s

theorem run_eq_ending (x : EStateM ε σ α) (s : σ) : x.run s = ending (outcome x s) (after x s) := by
  rw [outcome, after]
  cases x.run s <;> rfl

theorem outcome_of_run {x : EStateM ε σ α} {s t : σ} {r : Except ε α} (h : x.run s = ending r t) :
    outcome x s = r := by
  rw [outcome, h]
  cases r <;> rfl

theorem after_of_run {x : EStateM ε σ α} {s t : σ} {r : Except ε α} (h : x.run s = ending r t) :
    after x s = t := by
  rw [after, h]
  cases r <;> rfl

theorem run_tryCatch (x : EStateM ε σ α) (f : ε → EStateM ε σ α) (s : σ) :
    (tryCatch x f).run s = match x.run s with
      | .ok a t => .ok a t
      | .error e t => (f e).run t := by
  -- the state is not restored on a failure, which only opening the instance shows
  have h : (tryCatch x f).run s = EStateM.tryCatch x f s := rfl
  rw [h, EStateM.run]
  delta EStateM.tryCatch
  dsimp only
  cases x s <;> rfl

theorem after_bind (x : EStateM ε σ α) (f : α → EStateM ε σ β) (s : σ) :
    after (x >>= f) s = match outcome x s with
      | .ok a => after (f a) (after x s)
      | .error _ => after x s := by
  rw [after, outcome, after, EStateM.run_bind]
  cases x.run s <;> rfl

theorem outcome_bind (x : EStateM ε σ α) (f : α → EStateM ε σ β) (s : σ) :
    outcome (x >>= f) s = match outcome x s with
      | .ok a => outcome (f a) (after x s)
      | .error e => .error e := by
  rw [outcome, outcome, after, EStateM.run_bind]
  cases x.run s <;> rfl

/-- Returning something afterwards does not change the state. -/
theorem after_bind_pure (x : EStateM ε σ α) (f : α → β) (s : σ) :
    after (x >>= fun a => pure (f a)) s = after x s := by
  rw [after_bind]
  cases outcome x s <;> rfl

theorem after_adaptExcept (f : ε → ε') (x : EStateM ε σ α) (s : σ) :
    after (x.adaptExcept f) s = after x s := by
  rw [after, after, EStateM.run_adaptExcept]
  cases x.run s <;> rfl

theorem outcome_adaptExcept (f : ε → ε') (x : EStateM ε σ α) (s : σ) :
    outcome (x.adaptExcept f) s = match outcome x s with
      | .ok a => .ok a
      | .error e => .error (f e) := by
  rw [outcome, outcome, EStateM.run_adaptExcept]
  cases x.run s <;> rfl

/-! ## What every start leads to -/

/-- Wherever the operation starts, the state it leaves behind is related to the first one. -/
def Keeps (R : σ → σ → Prop) (x : EStateM ε σ α) : Prop := ∀ s, R s (after x s)

namespace Keeps

variable {R : σ → σ → Prop}

theorem of_ok {x : EStateM ε σ α} {s t : σ} {a : α} (h : Keeps R x) (hx : x.run s = .ok a t) :
    R s t := by
  have hs := h s
  rwa [after_of_ok hx] at hs

theorem of_error {x : EStateM ε σ α} {s t : σ} {e : ε} (h : Keeps R x)
    (hx : x.run s = .error e t) : R s t := by
  have hs := h s
  rwa [after_of_error hx] at hs

theorem mono {R' : σ → σ → Prop} {x : EStateM ε σ α} (h : Keeps R x)
    (himp : ∀ s t, R s t → R' s t) : Keeps R' x :=
  fun s => himp s _ (h s)

theorem modify {f : σ → σ} (h : ∀ s, R s (f s)) :
    Keeps R (modifyGet fun s => ((), f s) : EStateM ε σ Unit) := h

variable [IsPreorder σ R]

theorem done (a : α) : Keeps R (pure a : EStateM ε σ α) := fun s => refl_of R s

theorem read : Keeps R (get : EStateM ε σ σ) := fun s => refl_of R s

theorem stop (e : ε) : Keeps R (throw e : EStateM ε σ α) := fun s => refl_of R s

theorem bind {x : EStateM ε σ α} {f : α → EStateM ε σ β} (hx : Keeps R x)
    (hf : ∀ a, Keeps R (f a)) : Keeps R (x >>= f) := by
  intro s
  rw [after_bind]
  -- the second part is reached only if the first one returns
  cases outcome x s with
  | ok a => exact trans_of R (hx s) (hf a _)
  | error e => exact hx s

theorem forM {l : List α} {f : α → EStateM ε σ Unit} (h : ∀ a ∈ l, Keeps R (f a)) :
    Keeps R (l.forM f) := by
  -- each element starts where the one before it left off
  induction l with
  | nil => exact done ()
  | cons a l ih =>
    rw [List.forM_eq_forM, List.forM_cons]
    exact bind (h a List.mem_cons_self) fun _ => ih fun b hb => h b (List.mem_cons_of_mem a hb)

theorem mapM {l : List α} {f : α → EStateM ε σ β} (h : ∀ a ∈ l, Keeps R (f a)) :
    Keeps R (l.mapM f) := by
  induction l with
  | nil => exact done []
  | cons a l ih =>
    rw [List.mapM_cons]
    refine bind (h a List.mem_cons_self) fun _ => bind (ih fun b hb => ?_) fun _ => done _
    exact h b (List.mem_cons_of_mem a hb)

end Keeps

/-! ## Conditions before and after -/

/-- From a state in `P` the operation returns into `Q` or stops in `E`. -/
structure Meets (P : σ → Prop) (x : EStateM ε σ α) (Q : α → σ → Prop) (E : ε → σ → Prop) :
    Prop where
  ends : ∀ s, P s → match x.run s with
    | .ok a t => Q a t
    | .error e t => E e t

namespace Meets

variable {P : σ → Prop} {Q : α → σ → Prop} {E : ε → σ → Prop}

theorem done {a : α} (h : ∀ s, P s → Q a s) : Meets P (pure a : EStateM ε σ α) Q E := ⟨h⟩

theorem stop {e : ε} (h : ∀ s, P s → E e s) : Meets P (throw e : EStateM ε σ α) Q E := ⟨h⟩

theorem read : Meets P (get : EStateM ε σ σ) (fun a s => a = s ∧ P s) E := ⟨fun _ hs => ⟨rfl, hs⟩⟩

theorem modify {Q : σ → Prop} {f : σ → σ} (h : ∀ s, P s → Q (f s)) :
    Meets P (modify f : EStateM ε σ Unit) (fun _ => Q) E := ⟨h⟩

theorem trivially (x : EStateM ε σ α) : Meets P x (fun _ _ => True) fun _ _ => True :=
  ⟨fun s _ => by cases x.run s <;> trivial⟩

theorem outcome {x : EStateM ε σ α} (h : Meets P x Q E) {s : σ} (hs : P s) :
    match Operation.outcome x s with
    | .ok a => Q a (after x s)
    | .error e => E e (after x s) := by
  have hx := h.ends s hs
  rw [Operation.outcome, after]
  cases hrun : x.run s with
  | ok a t =>
    rw [hrun] at hx
    exact hx
  | error e t =>
    rw [hrun] at hx
    exact hx

/-- A condition on outcome and state together, whether the operation returns or stops. -/
theorem outcome_after {F : Except ε α → σ → Prop} {x : EStateM ε σ α}
    (h : Meets P x (fun a => F (.ok a)) fun e => F (.error e)) {s : σ} (hs : P s) :
    F (Operation.outcome x s) (after x s) := by
  have hx := h.outcome hs
  cases hcome : Operation.outcome x s with
  | ok a =>
    rw [hcome] at hx
    exact hx
  | error e =>
    rw [hcome] at hx
    exact hx

theorem of_ok {x : EStateM ε σ α} (h : Meets P x Q E) {s t : σ} {a : α} (hs : P s)
    (hrun : x.run s = .ok a t) : Q a t := by
  have hx := h.ends s hs
  rwa [hrun] at hx

theorem conseq {P' : σ → Prop} {Q' : α → σ → Prop} {E' : ε → σ → Prop} {x : EStateM ε σ α}
    (h : Meets P x Q E) (hP : ∀ s, P' s → P s) (hQ : ∀ a s, Q a s → Q' a s)
    (hE : ∀ e s, E e s → E' e s) : Meets P' x Q' E' := by
  refine ⟨fun s hs => ?_⟩
  have hx := h.ends s (hP s hs)
  cases hrun : x.run s with
  | ok a t =>
    rw [hrun] at hx
    exact hQ a t hx
  | error e t =>
    rw [hrun] at hx
    exact hE e t hx

theorem conseq_pre {P' : σ → Prop} {x : EStateM ε σ α} (h : Meets P x Q E)
    (hP : ∀ s, P' s → P s) : Meets P' x Q E :=
  h.conseq hP (fun _ _ hs => hs) fun _ _ he => he

theorem conseq_post {Q' : α → σ → Prop} {x : EStateM ε σ α} (h : Meets P x Q E)
    (hQ : ∀ a s, Q a s → Q' a s) : Meets P x Q' E :=
  h.conseq (fun _ hs => hs) hQ fun _ _ he => he

theorem conseq_stop {E' : ε → σ → Prop} {x : EStateM ε σ α} (h : Meets P x Q E)
    (hE : ∀ e s, E e s → E' e s) : Meets P x Q E' :=
  h.conseq (fun _ hs => hs) (fun _ _ hs => hs) hE

/-- What every start leads to holds besides. -/
theorem keeping {R : σ → σ → Prop} [IsTrans σ R] {x : EStateM ε σ α} (h : Meets P x Q E)
    (hx : Keeps R x) (s₀ : σ) :
    Meets (fun s => P s ∧ R s₀ s) x (fun a s => Q a s ∧ R s₀ s) fun e s => E e s ∧ R s₀ s := by
  refine ⟨fun s hs => ?_⟩
  have hends := h.ends s hs.1
  have hrelated := hx s
  cases hrun : x.run s with
  | ok a t =>
    rw [hrun] at hends
    rw [after_of_ok hrun] at hrelated
    exact ⟨hends, trans_of R hs.2 hrelated⟩
  | error e t =>
    rw [hrun] at hends
    rw [after_of_error hrun] at hrelated
    exact ⟨hends, trans_of R hs.2 hrelated⟩

/-- What the first state is known to satisfy may be used. -/
theorem assuming {p : Prop} {x : EStateM ε σ α} (hp : ∀ s, P s → p) (h : p → Meets P x Q E) :
    Meets P x Q E :=
  -- the fact does not depend on the state, so it may be taken out of the precondition
  ⟨fun s hs => (h (hp s hs)).ends s hs⟩

theorem bind {Q' : β → σ → Prop} {x : EStateM ε σ α} {f : α → EStateM ε σ β}
    (hx : Meets P x Q E) (hf : ∀ a, Meets (Q a) (f a) Q' E) : Meets P (x >>= f) Q' E := by
  refine ⟨fun s hs => ?_⟩
  have h := hx.ends s hs
  rw [EStateM.run_bind]
  cases hrun : x.run s with
  | ok a t =>
    rw [hrun] at h
    exact (hf a).ends t h
  | error e t =>
    rw [hrun] at h
    exact h

/-- What follows an operation may rely on a fact about the value. -/
theorem bind_fact {V : α → Prop} {P' : σ → Prop} {Q : β → σ → Prop} {x : EStateM ε σ α}
    {f : α → EStateM ε σ β} (hx : Meets P x (fun a s => V a ∧ P' s) E)
    (hf : ∀ a, V a → Meets P' (f a) Q E) : Meets P (x >>= f) Q E :=
  hx.bind fun a => assuming (fun _ hs => hs.1) fun ha =>
    (hf a ha).conseq_pre fun _ hs => hs.2

/-- What is read is a state that satisfies the condition. -/
theorem get_bind {f : σ → EStateM ε σ α} (h : ∀ s, P s → Meets P (f s) Q E) :
    Meets P (get >>= f) Q E := by
  refine bind read fun s => assuming (p := P s) ?_ fun hs => ?_
  · rintro _ ⟨rfl, hs⟩
    exact hs
  · exact (h s hs).conseq_pre fun _ ht => ht.2

theorem catching {E' : ε → σ → Prop} {x : EStateM ε σ α} {f : ε → EStateM ε σ α}
    (hx : Meets P x Q E) (hf : ∀ e, Meets (E e) (f e) Q E') :
    Meets P (tryCatch x f) Q E' := by
  refine ⟨fun s hs => ?_⟩
  have h := hx.ends s hs
  rw [run_tryCatch]
  -- the handler starts in the state that the failure left behind
  cases hrun : x.run s with
  | ok a t =>
    rw [hrun] at h
    exact h
  | error e t =>
    rw [hrun] at h
    exact (hf e).ends t h

theorem adapt {E' : ε' → σ → Prop} {f : ε → ε'} {x : EStateM ε σ α}
    (hx : Meets P x Q fun e s => E' (f e) s) : Meets P (x.adaptExcept f) Q E' := by
  refine ⟨fun s hs => ?_⟩
  have h := hx.ends s hs
  rw [EStateM.run_adaptExcept]
  cases hrun : x.run s with
  | ok a t =>
    rw [hrun] at h
    exact h
  | error e t =>
    rw [hrun] at h
    exact h

theorem ite {c : Prop} [Decidable c] {x y : EStateM ε σ α} (hx : c → Meets P x Q E)
    (hy : ¬c → Meets P y Q E) : Meets P (if c then x else y) Q E := by
  by_cases h : c
  · rw [if_pos h]
    exact hx h
  · rw [if_neg h]
    exact hy h

/-- Going over a list keeps a condition on the elements that are done. -/
theorem forM {I : List α → σ → Prop} {l : List α} {f : α → EStateM ε σ Unit}
    (h : ∀ before a after, l = before ++ a :: after →
      Meets (I before) (f a) (fun _ => I (before ++ [a])) E) :
    Meets (I []) (l.forM f) (fun _ => I l) E := by
  -- the elements that are done are moved from the list to the condition one by one
  have hrest : ∀ rest done, l = done ++ rest → Meets (I done) (rest.forM f) (fun _ => I l) E := by
    intro rest
    induction rest with
    | nil =>
      rintro done rfl
      rw [List.append_nil]
      exact Meets.done fun _ hs => hs
    | cons a rest ih =>
      intro done hl
      rw [List.forM_eq_forM, List.forM_cons]
      refine bind (h done a rest hl) fun _ => ih (done ++ [a]) ?_
      rw [hl, List.append_assoc, List.singleton_append]
  exact hrest l [] rfl

/-- Going over a list for values that are known beforehand. -/
theorem mapM {l : List α} {f : α → EStateM ε σ β} {g : α → β}
    (h : ∀ a ∈ l, Meets P (f a) (fun b s => b = g a ∧ P s) E) :
    Meets P (l.mapM f) (fun bs s => bs = l.map g ∧ P s) E := by
  induction l with
  | nil => exact done fun _ hs => ⟨rfl, hs⟩
  | cons a l ih =>
    rw [List.mapM_cons]
    refine bind (h a List.mem_cons_self) fun b => assuming (fun _ hs => hs.1) fun hb => ?_
    have hl : Meets (fun s => b = g a ∧ P s) (l.mapM f) (fun bs s => bs = l.map g ∧ P s) E :=
      (ih fun c hc => h c (List.mem_cons_of_mem a hc)).conseq_pre fun _ hs => hs.2
    exact bind hl fun bs => done fun s hs => ⟨by rw [hb, hs.1, List.map_cons], hs.2⟩

end Meets

/-- A condition on whatever is related to the first state. -/
theorem Keeps.meets {R : σ → σ → Prop} {P Q : σ → Prop} {x : EStateM ε σ α} (h : Keeps R x)
    (hQ : ∀ s t, P s → R s t → Q t) : Meets P x (fun _ => Q) fun _ => Q := by
  refine ⟨fun s hs => ?_⟩
  have hkept := hQ s _ hs (h s)
  cases hrun : x.run s with
  | ok a t => rwa [after_of_ok hrun] at hkept
  | error e t => rwa [after_of_error hrun] at hkept

/-- From a state in `P` the operation returns into `Q`. -/
def Succeeds (P : σ → Prop) (x : EStateM ε σ α) (Q : α → σ → Prop) : Prop :=
  Meets P x Q fun _ _ => False

theorem Succeeds.exists_run {P : σ → Prop} {Q : α → σ → Prop} {x : EStateM ε σ α}
    (h : Succeeds P x Q) {s : σ} (hs : P s) : ∃ a t, x.run s = .ok a t ∧ Q a t := by
  have hx := h.ends s hs
  cases hrun : x.run s with
  | ok a t =>
    rw [hrun] at hx
    exact ⟨a, t, rfl, hx⟩
  | error e t =>
    rw [hrun] at hx
    exact hx.elim

/-! ## Returned values -/

/-- Whatever the operation returns satisfies a condition. -/
def Returns (V : α → Prop) (x : EStateM ε σ α) : Prop :=
  ∀ s a, outcome x s = .ok a → V a

namespace Returns

variable {V : α → Prop} {W : β → Prop}

theorem done {a : α} (h : V a) : Returns V (pure a : EStateM ε σ α) := by
  intro _ _ hx
  cases hx
  exact h

theorem stop (e : ε) : Returns V (throw e : EStateM ε σ α) := by
  intro _ _ hx
  cases hx

theorem bind_of {x : EStateM ε σ α} {f : α → EStateM ε σ β} (hx : Returns V x)
    (hf : ∀ a, V a → Returns W (f a)) : Returns W (x >>= f) := by
  intro s b hb
  rw [outcome_bind] at hb
  cases hrun : outcome x s with
  | ok a =>
    rw [hrun] at hb
    exact hf a (hx s a hrun) _ b hb
  | error e =>
    rw [hrun] at hb
    cases hb

theorem bind {x : EStateM ε σ α} {f : α → EStateM ε σ β} (hf : ∀ a, Returns W (f a)) :
    Returns W (x >>= f) :=
  bind_of (V := fun _ => True) (fun _ _ _ => trivial) fun a _ => hf a

theorem mapM {l : List α} {f : α → EStateM ε σ β} (h : ∀ a ∈ l, Returns W (f a)) :
    Returns (fun bs => ∀ b ∈ bs, W b) (l.mapM f) := by
  induction l with
  | nil => exact done nofun
  | cons a l ih =>
    rw [List.mapM_cons]
    have hrest := ih fun b hb => h b (List.mem_cons_of_mem a hb)
    refine bind_of (h a List.mem_cons_self) fun b hb => bind_of hrest fun bs hbs => done ?_
    exact List.forall_mem_cons.mpr ⟨hb, hbs⟩

end Returns

/-- What follows an operation may rely on the value that was returned. -/
theorem Keeps.bind_returning {R : σ → σ → Prop} [IsPreorder σ R] {V : α → Prop}
    {x : EStateM ε σ α} {f : α → EStateM ε σ β} (hx : Keeps R x) (hV : Returns V x)
    (hf : ∀ a, V a → Keeps R (f a)) : Keeps R (x >>= f) := by
  intro s
  rw [after_bind]
  cases hrun : outcome x s with
  | ok a => exact trans_of R (hx s) (hf a (hV s a hrun) _)
  | error e => exact hx s

/-! ## Two operations side by side -/

/-- From related states both operations return, with related values, or both stop with the same
failure, and their states stay related. -/
structure Agree (R : σ → τ → Prop) (V : α → β → Prop) (x : EStateM ε σ α) (y : EStateM ε τ β) :
    Prop where
  ends : ∀ s t, R s t → match x.run s, y.run t with
    | .ok a s', .ok b t' => V a b ∧ R s' t'
    | .error e s', .error e' t' => e = e' ∧ R s' t'
    | _, _ => False

namespace Agree

variable {R : σ → τ → Prop} {V : α → β → Prop} {W : γ → δ → Prop}

/-- Two operations that agree come to related values or to the same failure. -/
theorem cases {x : EStateM ε σ α} {y : EStateM ε τ β} (h : Agree R V x y) {s : σ} {t : τ}
    (hst : R s t) :
    (∃ a b s' t', x.run s = .ok a s' ∧ y.run t = .ok b t' ∧ V a b ∧ R s' t') ∨
      ∃ e s' t', x.run s = .error e s' ∧ y.run t = .error e t' ∧ R s' t' := by
  have hxy := h.ends s t hst
  -- of the four ways the two may end, agreement leaves the two equal ones
  cases hx : x.run s with
  | ok a s' =>
    cases hy : y.run t with
    | ok b t' =>
      rw [hx, hy] at hxy
      exact Or.inl ⟨a, b, s', t', rfl, rfl, hxy.1, hxy.2⟩
    | error e t' =>
      rw [hx, hy] at hxy
      exact hxy.elim
  | error e s' =>
    cases hy : y.run t with
    | ok b t' =>
      rw [hx, hy] at hxy
      exact hxy.elim
    | error e' t' =>
      rw [hx, hy] at hxy
      rcases hxy with ⟨rfl, hR⟩
      exact Or.inr ⟨e, s', t', rfl, rfl, hR⟩

theorem after {x : EStateM ε σ α} {y : EStateM ε τ β} (h : Agree R V x y) {s : σ} {t : τ}
    (hst : R s t) : R (Operation.after x s) (Operation.after y t) := by
  rcases h.cases hst with ⟨a, b, s', t', hx, hy, -, hR⟩ | ⟨e, s', t', hx, hy, hR⟩
  · rwa [after_of_ok hx, after_of_ok hy]
  · rwa [after_of_error hx, after_of_error hy]

theorem congr {R' : σ → τ → Prop} {x : EStateM ε σ α} {y : EStateM ε τ β} (h : Agree R V x y)
    (hiff : ∀ s t, R s t ↔ R' s t) : Agree R' V x y := by
  obtain rfl : R = R' := by
    funext s t
    exact propext (hiff s t)
  exact h

theorem of_ok {x : EStateM ε σ α} {y : EStateM ε τ β}
    (h : ∀ s t, R s t → ∃ a b s' t', x.run s = .ok a s' ∧ y.run t = .ok b t' ∧ V a b ∧ R s' t') :
    Agree R V x y := by
  refine ⟨fun s t hst => ?_⟩
  rcases h s t hst with ⟨a, b, s', t', hx, hy, hV, hR⟩
  rw [hx, hy]
  exact ⟨hV, hR⟩

theorem done {a : α} {b : β} (h : V a b) :
    Agree R V (pure a : EStateM ε σ α) (pure b : EStateM ε τ β) :=
  ⟨fun _ _ hst => ⟨h, hst⟩⟩

theorem stop (e : ε) : Agree R V (throw e : EStateM ε σ α) (throw e : EStateM ε τ β) :=
  ⟨fun _ _ hst => ⟨rfl, hst⟩⟩

theorem read : Agree R R (get : EStateM ε σ σ) (get : EStateM ε τ τ) :=
  ⟨fun _ _ hst => ⟨hst, hst⟩⟩

theorem modify {f : σ → σ} {g : τ → τ} (h : ∀ s t, R s t → R (f s) (g t)) :
    Agree R (· = ·) (modifyGet fun s => ((), f s) : EStateM ε σ Unit)
      (modifyGet fun t => ((), g t) : EStateM ε τ Unit) :=
  ⟨fun s t hst => ⟨rfl, h s t hst⟩⟩

theorem bind {x : EStateM ε σ α} {y : EStateM ε τ β} {f : α → EStateM ε σ γ}
    {g : β → EStateM ε τ δ} (hxy : Agree R V x y) (hfg : ∀ a b, V a b → Agree R W (f a) (g b)) :
    Agree R W (x >>= f) (y >>= g) := by
  refine ⟨fun s t hst => ?_⟩
  -- both go on from related states, or neither goes on
  rcases hxy.cases hst with ⟨a, b, s', t', hx, hy, hV, hR⟩ | ⟨e, s', t', hx, hy, hR⟩
  · rw [EStateM.run_bind, EStateM.run_bind, hx, hy]
    exact (hfg a b hV).ends s' t' hR
  · rw [EStateM.run_bind, EStateM.run_bind, hx, hy]
    exact ⟨rfl, hR⟩

theorem forM {l : List α} {f : α → EStateM ε σ Unit} {g : α → EStateM ε τ Unit}
    (h : ∀ a ∈ l, Agree R (· = ·) (f a) (g a)) : Agree R (· = ·) (l.forM f) (l.forM g) := by
  induction l with
  | nil => exact done rfl
  | cons a l ih =>
    rw [List.forM_eq_forM, List.forM_eq_forM, List.forM_cons, List.forM_cons]
    refine bind (h a List.mem_cons_self) fun _ _ _ => ih ?_
    exact fun b hb => h b (List.mem_cons_of_mem a hb)

theorem mapM {l : List α} {f : α → EStateM ε σ β} {g : α → EStateM ε τ β}
    (h : ∀ a ∈ l, Agree R (· = ·) (f a) (g a)) : Agree R (· = ·) (l.mapM f) (l.mapM g) := by
  induction l with
  | nil => exact done rfl
  | cons a l ih =>
    rw [List.mapM_cons, List.mapM_cons]
    have hrest := ih fun b hb => h b (List.mem_cons_of_mem a hb)
    refine bind (h a List.mem_cons_self) fun b b' hb => bind hrest fun bs bs' hbs => done ?_
    -- the values agree one by one, hence as lists
    rw [hb, hbs]

theorem adapt {f : ε → ε'} {x : EStateM ε σ α} {y : EStateM ε τ β} (h : Agree R V x y) :
    Agree R V (x.adaptExcept f) (y.adaptExcept f) := by
  refine ⟨fun s t hst => ?_⟩
  rcases h.cases hst with ⟨a, b, s', t', hx, hy, hV, hR⟩ | ⟨e, s', t', hx, hy, hR⟩
  · rw [EStateM.run_adaptExcept, EStateM.run_adaptExcept, hx, hy]
    exact ⟨hV, hR⟩
  · rw [EStateM.run_adaptExcept, EStateM.run_adaptExcept, hx, hy]
    exact ⟨rfl, hR⟩

theorem catching {x : EStateM ε σ α} {y : EStateM ε τ β} {f : ε → EStateM ε σ α}
    {g : ε → EStateM ε τ β} (hxy : Agree R V x y) (hfg : ∀ e, Agree R V (f e) (g e)) :
    Agree R V (tryCatch x f) (tryCatch y g) := by
  refine ⟨fun s t hst => ?_⟩
  rcases hxy.cases hst with ⟨a, b, s', t', hx, hy, hV, hR⟩ | ⟨e, s', t', hx, hy, hR⟩
  · rw [run_tryCatch, run_tryCatch, hx, hy]
    exact ⟨hV, hR⟩
  · rw [run_tryCatch, run_tryCatch, hx, hy]
    exact (hfg e).ends s' t' hR

theorem ite {c : Prop} [Decidable c] {x x' : EStateM ε σ α} {y y' : EStateM ε τ β}
    (h : Agree R V x y) (h' : Agree R V x' y') :
    Agree R V (if c then x else x') (if c then y else y') := by
  by_cases hc : c
  · rw [if_pos hc, if_pos hc]
    exact h
  · rw [if_neg hc, if_neg hc]
    exact h'

end Agree

end Sheetwright.Operation
