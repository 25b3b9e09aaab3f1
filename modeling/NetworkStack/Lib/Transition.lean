import Mathlib.Data.List.Basic

/-!
# Guarded executions of a partial step function

A system is given by a step function that refuses the actions that are not
enabled. An execution is a list of actions, `exec` its final state, and
`Guarded` says that every action was taken from a state that meets a guard.
The rules below turn facts about one step into facts about executions.
-/

namespace NetworkStack.Transition

variable {σ α : Type*}

/-- The state after all the actions, if every one of them is enabled in turn. -/
def exec (step : σ → α → Option σ) : σ → List α → Option σ
  | s, [] => some s
  | s, a :: rest => (step s a).bind fun t => exec step t rest

/-- Every action of the execution is taken from a state that meets the guard. -/
def Guarded (step : σ → α → Option σ) (guard : σ → α → Prop) : σ → List α → Prop
  | _, [] => True
  | s, a :: rest => guard s a ∧ ∀ t, step s a = some t → Guarded step guard t rest

/-- Every state the execution visits, the first and the last included, meets `P`. -/
def Always (step : σ → α → Option σ) (P : σ → Prop) : σ → List α → Prop
  | s, [] => P s
  | s, a :: rest => P s ∧ ∀ t, step s a = some t → Always step P t rest

variable {step : σ → α → Option σ} {guard : σ → α → Prop} {P : σ → Prop}

instance decidableGuarded [∀ s a, Decidable (guard s a)] (s : σ) (acts : List α) :
    Decidable (Guarded step guard s acts) :=
  match acts with
  | [] => .isTrue trivial
  | a :: rest =>
      match h : step s a with
      | none => decidable_of_iff (guard s a) (by simp [Guarded, h])
      | some t =>
          let _ := decidableGuarded t rest
          decidable_of_iff (guard s a ∧ Guarded step guard t rest) (by simp [Guarded, h])

theorem exec_cons {s t : σ} {a : α} {rest : List α} :
    exec step s (a :: rest) = some t ↔
      ∃ u, step s a = some u ∧ exec step u rest = some t := by
  simp only [exec, Option.bind_eq_some_iff]

theorem exec_append (s : σ) (as bs : List α) :
    exec step s (as ++ bs) = (exec step s as).bind fun t => exec step t bs := by
  induction as generalizing s with
  | nil => rfl
  | cons a rest ih =>
      rw [List.cons_append, exec, exec]
      simp only [ih]
      rw [Option.bind_assoc]

theorem Always.head {s : σ} {acts : List α} (h : Always step P s acts) : P s := by
  cases acts with
  | nil => exact h
  | cons a rest => exact h.1

theorem Always.last {s t : σ} {acts : List α} (h : Always step P s acts)
    (he : exec step s acts = some t) : P t := by
  induction acts generalizing s with
  | nil =>
      obtain rfl := Option.some.inj he
      exact h
  | cons a rest ih =>
      obtain ⟨u, hu, hrest⟩ := exec_cons.mp he
      exact ih (h.2 u hu) hrest

/-- A system that refuses nothing runs through. -/
theorem exists_exec (hstep : ∀ s a, ∃ t, step s a = some t) (s : σ) (acts : List α) :
    ∃ t, exec step s acts = some t := by
  induction acts generalizing s with
  | nil => exact ⟨s, rfl⟩
  | cons a rest ih =>
      obtain ⟨u, hu⟩ := hstep s a
      obtain ⟨t, ht⟩ := ih u
      exact ⟨t, exec_cons.mpr ⟨u, hu, ht⟩⟩

/-- What every guarded step keeps, a guarded execution keeps. -/
theorem exec_invariant
    (hstep : ∀ s a t, P s → guard s a → step s a = some t → P t)
    {acts : List α} {s t : σ} (hs : P s) (hg : Guarded step guard s acts)
    (he : exec step s acts = some t) : P t := by
  induction acts generalizing s with
  | nil =>
      obtain rfl := Option.some.inj he
      exact hs
  | cons a rest ih =>
      obtain ⟨u, hu, hrest⟩ := exec_cons.mp he
      exact ih (hstep s a u hs hg.1 hu) (hg.2 u hu) hrest

/-- Every state of a guarded execution has what the guarded steps keep. -/
theorem always_of_guarded
    (hstep : ∀ s a t, P s → guard s a → step s a = some t → P t)
    {acts : List α} {s : σ} (hs : P s) (hg : Guarded step guard s acts) :
    Always step P s acts := by
  induction acts generalizing s with
  | nil => exact hs
  | cons a rest ih => exact ⟨hs, fun t ht => ih (hstep s a t hs hg.1 ht) (hg.2 t ht)⟩

theorem Always.mono {Q : σ → Prop} (hPQ : ∀ s, P s → Q s) {s : σ} {acts : List α}
    (h : Always step P s acts) : Always step Q s acts := by
  induction acts generalizing s with
  | nil => exact hPQ s h
  | cons a rest ih => exact ⟨hPQ s h.1, fun t ht => ih (h.2 t ht)⟩

/-- A guard that looks at the actions only, in a system that refuses nothing. -/
theorem guarded_iff_forall {G : α → Prop} (hstep : ∀ s a, ∃ t, step s a = some t) (s : σ)
    (acts : List α) : Guarded step (fun _ a => G a) s acts ↔ ∀ a ∈ acts, G a := by
  induction acts generalizing s with
  | nil => simp [Guarded]
  | cons a rest ih =>
      obtain ⟨t, ht⟩ := hstep s a
      rw [Guarded, List.forall_mem_cons]
      constructor
      · rintro ⟨ha, hrest⟩
        exact ⟨ha, (ih t).mp (hrest t ht)⟩
      · rintro ⟨ha, hrest⟩
        exact ⟨ha, fun u _ => (ih u).mpr hrest⟩

/-- A guard that looks at the actions only, on an execution that was not refused. -/
theorem guarded_iff_of_exec {G : α → Prop} {acts : List α} {s t : σ}
    (he : exec step s acts = some t) : Guarded step (fun _ a => G a) s acts ↔ ∀ a ∈ acts, G a := by
  induction acts generalizing s with
  | nil => simp [Guarded]
  | cons a rest ih =>
      obtain ⟨u, hu, hrest⟩ := exec_cons.mp he
      rw [Guarded, List.forall_mem_cons]
      constructor
      · rintro ⟨ha, hall⟩
        exact ⟨ha, (ih hrest).mp (hall u hu)⟩
      · rintro ⟨ha, hall⟩
        refine ⟨ha, fun v hv => ?_⟩
        obtain rfl := Option.some.inj (hu.symm.trans hv)
        exact (ih hrest).mpr hall

/-- An unguarded execution is the case of the trivial guard. -/
theorem guarded_trivial (s : σ) (acts : List α) :
    Guarded step (fun _ _ => True) s acts := by
  induction acts generalizing s with
  | nil => trivial
  | cons a rest ih => exact ⟨trivial, fun t _ => ih t⟩

/-- What every step keeps, every execution keeps. -/
theorem exec_keeps (hstep : ∀ s a t, P s → step s a = some t → P t) {acts : List α} {s t : σ}
    (hs : P s) (he : exec step s acts = some t) : P t :=
  exec_invariant (fun s a t hs _ ht => hstep s a t hs ht) hs (guarded_trivial s acts) he

/-- When a step from a good state leads to a good state exactly if the step meets
the guard, an execution stays good exactly if it is guarded. The equivalence may rest
on an invariant that every step keeps. -/
theorem always_iff_guarded {I : σ → Prop}
    (hI : ∀ s a t, I s → step s a = some t → I t)
    (hstep : ∀ s a t, I s → P s → step s a = some t → (P t ↔ guard s a))
    {acts : List α} {s t : σ} (hIs : I s) (hs : P s) (he : exec step s acts = some t) :
    Always step P s acts ↔ Guarded step guard s acts := by
  induction acts generalizing s with
  | nil => exact ⟨fun _ => trivial, fun _ => hs⟩
  | cons a rest ih =>
      obtain ⟨u, hu, hrest⟩ := exec_cons.mp he
      have hiff := hstep s a u hIs hs hu
      have hIu := hI s a u hIs hu
      constructor
      · rintro ⟨-, hall⟩
        have hPu : P u := (hall u hu).head
        refine ⟨hiff.mp hPu, fun v hv => ?_⟩
        obtain rfl := Option.some.inj (hu.symm.trans hv)
        exact (ih hIu hPu hrest).mp (hall u hu)
      · rintro ⟨hga, hall⟩
        have hPu : P u := hiff.mpr hga
        refine ⟨hs, fun v hv => ?_⟩
        obtain rfl := Option.some.inj (hu.symm.trans hv)
        exact (ih hIu hPu hrest).mpr (hall u hu)

/-! ## Simulation -/

section Simulation

variable {τ β : Type*} {step' : τ → β → Option τ} {R : σ → τ → Prop}

/-- When each step is answered by steps of another system that restore a relation, so is each
execution. -/
theorem exec_simulates
    (hstep : ∀ s c a t, R s c → step s a = some t → ∃ bs c', exec step' c bs = some c' ∧ R t c')
    {acts : List α} {s t : σ} {c : τ} (h : R s c) (he : exec step s acts = some t) :
    ∃ bs c', exec step' c bs = some c' ∧ R t c' := by
  induction acts generalizing s c with
  | nil =>
      obtain rfl := Option.some.inj he
      exact ⟨[], c, rfl, h⟩
  | cons a rest ih =>
      obtain ⟨u, hu, hrest⟩ := exec_cons.mp he
      obtain ⟨bs, c₁, hbs, h₁⟩ := hstep s c a u h hu
      obtain ⟨bs', c₂, hbs', h₂⟩ := ih h₁ hrest
      exact ⟨bs ++ bs', c₂, by rw [exec_append, hbs]; exact hbs', h₂⟩

end Simulation

end NetworkStack.Transition
