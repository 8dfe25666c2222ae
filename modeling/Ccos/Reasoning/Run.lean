import Mathlib.Tactic

/-!
# Runs of a transition system

A `System` is a set of start states with a fallible step function and a guard that says which
events may happen in which states.  `Run` lists the steps newest first, each with the state it
started from, so that facts about histories are folds over the list.  Conditions on the steps of a
run are imposed by `System.restrict`.
-/

namespace Ccos.Reasoning

/-! ## Inversion of `Except` computations -/

theorem bind_eq_ok {ε α β : Type} {x : Except ε α} {f : α → Except ε β} {c : β} :
    (x >>= f) = .ok c ↔ ∃ a, x = .ok a ∧ f a = .ok c := by
  cases x <;> simp [Bind.bind, Except.bind]

@[simp] theorem ok_bind {ε α β : Type} (a : α) (f : α → Except ε β) :
    ((Except.ok a : Except ε α) >>= f) = f a := rfl

@[simp] theorem pure_eq_ok {ε α : Type} {a c : α} :
    (pure a : Except ε α) = .ok c ↔ a = c := by
  simp [pure, Except.pure]

/-- A monadic fold keeps what each of its steps keeps. -/
theorem foldlM_keeps {ε σ α : Type} {f : σ → α → Except ε σ} (P : σ → Prop) {xs : List α}
    (hstep : ∀ a ∈ xs, ∀ s s', P s → f s a = .ok s' → P s') {s s' : σ} (hs : P s)
    (h : xs.foldlM f s = .ok s') : P s' := by
  induction xs generalizing s with
  | nil =>
    rw [List.foldlM_nil, pure_eq_ok] at h
    exact h ▸ hs
  | cons a xs ih =>
    rw [List.foldlM_cons, bind_eq_ok] at h
    obtain ⟨s₁, h₁, h₂⟩ := h
    exact ih (fun b hb => hstep b (List.mem_cons_of_mem a hb))
      (hstep a List.mem_cons_self s s₁ hs h₁) h₂

/-- A monadic fold gets done at the element `a`: before it every step keeps `Pre` or is done, and
what is done stays done. -/
theorem foldlM_reaches {ε σ α : Type} {f : σ → α → Except ε σ} (Pre Done : σ → Prop) {xs : List α}
    {a : α} (ha : a ∈ xs)
    (hpre : ∀ b ∈ xs, ∀ s s', Pre s → f s b = .ok s' → Pre s' ∨ Done s')
    (hdone : ∀ b ∈ xs, ∀ s s', Done s → f s b = .ok s' → Done s')
    (hhit : ∀ s s', Pre s → f s a = .ok s' → Done s') {s s' : σ} (hs : Pre s ∨ Done s)
    (h : xs.foldlM f s = .ok s') : Done s' := by
  induction xs generalizing s with
  | nil => cases ha
  | cons b xs ih =>
    rw [List.foldlM_cons, bind_eq_ok] at h
    obtain ⟨s₁, h₁, h₂⟩ := h
    have hstay : ∀ c ∈ xs, ∀ s s', Done s → f s c = .ok s' → Done s' :=
      fun c hc => hdone c (List.mem_cons_of_mem b hc)
    rcases hs with hs | hs
    · rcases List.mem_cons.mp ha with rfl | hmem
      · exact foldlM_keeps Done hstay (hhit s s₁ hs h₁) h₂
      · exact ih hmem (fun c hc => hpre c (List.mem_cons_of_mem b hc)) hstay
          (hpre b List.mem_cons_self s s₁ hs h₁) h₂
    · exact foldlM_keeps Done hstay (hdone b List.mem_cons_self s s₁ hs h₁) h₂

/-! ## Systems and runs -/

structure System (ε σ ev : Type) where
  init : σ → Prop
  guard : σ → ev → Prop
  step : σ → ev → Except ε σ

variable {ε σ ev : Type}

/-- The runs whose steps all meet `cond` in the state they start from. -/
def System.restrict (sys : System ε σ ev) (cond : σ → ev → Prop) : System ε σ ev :=
  { sys with guard := fun s e => sys.guard s e ∧ cond s e }

@[simp] theorem System.restrict_init (sys : System ε σ ev) (cond : σ → ev → Prop) :
    (sys.restrict cond).init = sys.init := rfl

@[simp] theorem System.restrict_step (sys : System ε σ ev) (cond : σ → ev → Prop) :
    (sys.restrict cond).step = sys.step := rfl

@[simp] theorem System.restrict_guard (sys : System ε σ ev) (cond : σ → ev → Prop) (s : σ)
    (e : ev) : (sys.restrict cond).guard s e ↔ sys.guard s e ∧ cond s e := Iff.rfl

/-- `Run sys tr s`: the steps of `tr`, newest first, lead from a start state to `s`. -/
inductive Run (sys : System ε σ ev) : List (σ × ev) → σ → Prop
  | start {s : σ} : sys.init s → Run sys [] s
  | step {tr : List (σ × ev)} {s s' : σ} {e : ev} :
      Run sys tr s → sys.guard s e → sys.step s e = .ok s' → Run sys ((s, e) :: tr) s'

def Reachable (sys : System ε σ ev) (s : σ) : Prop :=
  ∃ tr, Run sys tr s

theorem Reachable.start {sys : System ε σ ev} {s : σ} (h : sys.init s) : Reachable sys s :=
  ⟨[], .start h⟩

theorem Reachable.next {sys : System ε σ ev} {s s' : σ} {e : ev} (hr : Reachable sys s)
    (hg : sys.guard s e) (hs : sys.step s e = .ok s') : Reachable sys s' := by
  obtain ⟨tr, hrun⟩ := hr
  exact ⟨(s, e) :: tr, hrun.step hg hs⟩

/-- The invariant rule: what the start states have and every step keeps, every run has. -/
theorem Run.invariant {sys : System ε σ ev} (P : σ → Prop) (hinit : ∀ s, sys.init s → P s)
    (hstep : ∀ s e s', P s → sys.guard s e → sys.step s e = .ok s' → P s')
    {tr : List (σ × ev)} {s : σ} (h : Run sys tr s) : P s := by
  induction h with
  | start h => exact hinit _ h
  | step _ hg hs ih => exact hstep _ _ _ ih hg hs

theorem Reachable.invariant {sys : System ε σ ev} (P : σ → Prop) (hinit : ∀ s, sys.init s → P s)
    (hstep : ∀ s e s', P s → sys.guard s e → sys.step s e = .ok s' → P s')
    {s : σ} (h : Reachable sys s) : P s := by
  obtain ⟨tr, hrun⟩ := h
  exact hrun.invariant P hinit hstep

/-- Dropping conditions keeps a run a run. -/
theorem Run.weaken {sys : System ε σ ev} {c d : σ → ev → Prop}
    (hcd : ∀ s e, c s e → d s e) {tr : List (σ × ev)} {s : σ} (h : Run (sys.restrict c) tr s) :
    Run (sys.restrict d) tr s := by
  induction h with
  | start h => exact .start h
  | step _ hg hs ih => exact ih.step ⟨hg.1, hcd _ _ hg.2⟩ hs

theorem Run.unrestrict {sys : System ε σ ev} {c : σ → ev → Prop} {tr : List (σ × ev)} {s : σ}
    (h : Run (sys.restrict c) tr s) : Run sys tr s := by
  induction h with
  | start h => exact .start h
  | step _ hg hs ih => exact ih.step hg.1 hs

/-- The steps of a run with the states on both sides, newest first. -/
def steps : List (σ × ev) → σ → List (σ × ev × σ)
  | [], _ => []
  | (s, e) :: tr, s' => (s, e, s') :: steps tr s

/-- The rule for the history of a run: what holds of the empty history and is kept when a step is
added holds of every part of the run that ends with one of its steps. -/
theorem Run.history {sys : System ε σ ev} (P : List (σ × ev × σ) → σ → Prop)
    (hinit : ∀ s, sys.init s → P [] s)
    (hstep : ∀ tr s e s', Run sys tr s → P (steps tr s) s → sys.guard s e → sys.step s e = .ok s' →
      P ((s, e, s') :: steps tr s) s')
    {tr : List (σ × ev)} {s : σ} (h : Run sys tr s) : P (steps tr s) s := by
  induction h with
  | start h => exact hinit _ h
  | step hrun hg hs ih => exact hstep _ _ _ _ hrun ih hg hs

/-- The older part of a run is a run. -/
theorem Run.suffix {sys : System ε σ ev} {tr : List (σ × ev)} {s : σ} (h : Run sys tr s)
    {s₁ s₂ : σ} {e : ev} {past : List (σ × ev × σ)} (hpast : (s₁, e, s₂) :: past <:+ steps tr s) :
    ∃ tr', past = steps tr' s₁ ∧ Run sys tr' s₁ ∧ sys.guard s₁ e ∧ sys.step s₁ e = .ok s₂ := by
  induction h with
  | start => cases List.suffix_nil.mp hpast
  | step hrun hg hs ih =>
    rcases List.suffix_cons_iff.mp hpast with heq | hold
    · cases heq
      exact ⟨_, rfl, hrun, hg, hs⟩
    · exact ih hold

/-! ## Continuing a run -/

/-- `Path sys s vs s'`: steps lead from `s` to `s'`.  `vs` lists them newest first, each with the
state it led to. -/
inductive Path (sys : System ε σ ev) (s : σ) : List (ev × σ) → σ → Prop
  | refl : Path sys s [] s
  | step {vs : List (ev × σ)} {s₁ s₂ : σ} {e : ev} :
      Path sys s vs s₁ → sys.guard s₁ e → sys.step s₁ e = .ok s₂ → Path sys s ((e, s₂) :: vs) s₂

theorem Reachable.path {sys : System ε σ ev} {s s' : σ} {vs : List (ev × σ)}
    (hr : Reachable sys s) (h : Path sys s vs s') : Reachable sys s' := by
  induction h with
  | refl => exact hr
  | step _ hg hs ih => exact ih.next hg hs

theorem Path.reachable {sys : System ε σ ev} {s s' : σ} {vs : List (ev × σ)}
    (h : Path sys s vs s') (hr : Reachable sys s) {v : ev × σ} (hv : v ∈ vs) :
    Reachable sys v.2 := by
  induction h with
  | refl => cases hv
  | step hp hg hs ih =>
    rcases List.mem_cons.mp hv with rfl | hold
    · exact (hr.path hp).next hg hs
    · exact ih hold

theorem Path.weaken {sys : System ε σ ev} {c d : σ → ev → Prop} (hcd : ∀ s e, c s e → d s e)
    {s s' : σ} {vs : List (ev × σ)} (h : Path (sys.restrict c) s vs s') :
    Path (sys.restrict d) s vs s' := by
  induction h with
  | refl => exact .refl
  | step _ hg hs ih => exact ih.step ⟨hg.1, hcd _ _ hg.2⟩ hs

/-- A path with one more step before it. -/
theorem Path.cons {sys : System ε σ ev} {s s₁ s' : σ} {e : ev} {vs : List (ev × σ)}
    (hg : sys.guard s e) (hs : sys.step s e = .ok s₁) (h : Path sys s₁ vs s') :
    Path sys s (vs ++ [(e, s₁)]) s' := by
  induction h with
  | refl => exact Path.refl.step hg hs
  | step _ hg' hs' ih => exact ih.step hg' hs'

theorem Reachable.unrestrict {sys : System ε σ ev} {c : σ → ev → Prop} {s : σ}
    (h : Reachable (sys.restrict c) s) : Reachable sys s := by
  obtain ⟨tr, hrun⟩ := h
  exact ⟨tr, hrun.unrestrict⟩

end Ccos.Reasoning
