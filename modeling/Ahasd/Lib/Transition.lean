/-
  File:      Ahasd/Lib/Transition.lean
  Subject:   EXECUTABLE TRANSITION SYSTEMS WITH OBSERVATIONS. A library file: it names nothing of
             the program.

  * `Machine`: a partial step function on states, labelled by actions, and what a step shows;
  * `Exec M s₀ s h`: the machine goes from `s₀` to `s` showing the observations `h`. The start is
    a parameter, so an `Exec` is also a SEGMENT of a run, and segments compose (`Exec.trans`);
  * `Exec.invariant`, `Exec.invariantOn`: the induction over a run, done once;
  * `Exec.ordered`: the runs of a machine with one action, which are prefixes of one another;
  * `Chain R s s' h`: a finite sequence of rules, each showing some observations;
    `Chain.preserves`: what every rule keeps, a chain keeps;
  * `Machine.run`, `exec_of_run`, `run_of_exec`: the function that runs a list of actions, for closed runs and for
    statements about the states a list of actions passes through (`run_snoc`, `run_prefix`,
    `run_history`);
  * `run_along`, `run_shows`, `run_iff`: what a condition on the steps of a run gives for its
    states, for what it shows, and for both ways at once.
-/
import Mathlib.Data.List.Induction

namespace Transition

/-- A machine: one step per action (`none` = the action is not possible there), and the
    observations of a step, read from the state before and the state after. -/
structure Machine (σ α ε : Type) where
  step : σ → α → Option σ
  obs : σ → α → σ → List ε

variable {σ α ε : Type}

/-- The runs of a machine from `s₀`, with the observations in order. -/
inductive Exec (M : Machine σ α ε) (s₀ : σ) : σ → List ε → Prop where
  | start : Exec M s₀ s₀ []
  | step (s s' : σ) (h : List ε) (a : α) (hr : Exec M s₀ s h) (hs : M.step s a = some s') :
      Exec M s₀ s' (h ++ M.obs s a s')

section Runs

variable {M : Machine σ α ε} {s₀ : σ}

/-- **The invariant rule**: what holds at the start and is kept by every step holds at the end
    of every run. -/
theorem Exec.invariant {P : σ → List ε → Prop} (h0 : P s₀ [])
    (hstep : ∀ s h a s', P s h → M.step s a = some s' → P s' (h ++ M.obs s a s'))
    {s : σ} {h : List ε} (hr : Exec M s₀ s h) : P s h := by
  induction hr with
  | start => exact h0
  | step s s' h a _ hs ih => exact hstep s h a s' ih hs

/-- The invariant rule over a property of states alone. -/
theorem Exec.invariantOn {P : σ → Prop} (h0 : P s₀)
    (hstep : ∀ s a s', P s → M.step s a = some s' → P s')
    {s : σ} {h : List ε} (hr : Exec M s₀ s h) : P s :=
  hr.invariant (P := fun s _ => P s) h0 fun s _ a s' hp hs => hstep s a s' hp hs

/-- One step is a run. -/
theorem Exec.one {s s' : σ} {a : α} (hs : M.step s a = some s') :
    Exec M s s' (M.obs s a s') :=
  .step s s' [] a .start hs

/-- Segments compose. -/
theorem Exec.trans {s₁ s₂ : σ} {h₁ h₂ : List ε} (hr : Exec M s₀ s₁ h₁) (hr' : Exec M s₁ s₂ h₂) :
    Exec M s₀ s₂ (h₁ ++ h₂) := by
  induction hr' with
  | start => rwa [List.append_nil]
  | step s s' h a _ hs ih =>
      rw [← List.append_assoc]
      exact .step s s' (h₁ ++ h) a ih hs

/-- A run is empty, or a first step and a run from there. -/
theorem Exec.head {s s' : σ} {h : List ε} (hr : Exec M s s' h) :
    (s = s' ∧ h = []) ∨
      ∃ a t k, M.step s a = some t ∧ Exec M t s' k ∧ h = M.obs s a t ++ k := by
  induction hr with
  | start => exact .inl ⟨rfl, rfl⟩
  | step s₁ s₂ h a hr hs ih =>
      refine .inr ?_
      rcases ih with ⟨rfl, rfl⟩ | ⟨b, t, k, hb, hk, rfl⟩
      · exact ⟨a, s₂, [], hs, .start, (List.append_nil _).symm⟩
      · exact ⟨b, t, k ++ M.obs s₁ a s₂, hb, .step s₁ s₂ k a hk hs, List.append_assoc _ _ _⟩

/-- **Of two runs of a machine with one action, one goes on where the other ends.** -/
theorem Exec.ordered [Subsingleton α] {s s' : σ} {h h' : List ε} (hr : Exec M s₀ s h)
    (hr' : Exec M s₀ s' h') :
    (∃ k, Exec M s s' k ∧ h' = h ++ k) ∨ ∃ k, Exec M s' s k ∧ h = h' ++ k := by
  induction hr' with
  | start => exact .inr ⟨h, hr, rfl⟩
  | step s₁ s₂ h₁ a _ hs ih =>
      rcases ih with ⟨k, hk, rfl⟩ | ⟨k, hk, rfl⟩
      · exact .inl ⟨k ++ M.obs s₁ a s₂, .step s₁ s₂ k a hk hs, List.append_assoc _ _ _⟩
      · rcases hk.head with ⟨rfl, rfl⟩ | ⟨b, t, l, hb, hl, rfl⟩
        · exact .inl ⟨M.obs s₁ a s₂, .one hs, by rw [List.append_nil]⟩
        · obtain rfl := Subsingleton.elim a b
          obtain rfl := Option.some.inj (hb.symm.trans hs)
          exact .inr ⟨l, hl, (List.append_assoc _ _ _).symm⟩

end Runs

/-! ## Steps made of rules -/

/-- A sequence of rules from `s` to `s'`, with what they show in order. -/
inductive Chain (R : σ → σ → List ε → Prop) : σ → σ → List ε → Prop where
  | nil (s : σ) : Chain R s s []
  | cons {s s' s'' : σ} {e h : List ε} (hs : R s s' e) (hr : Chain R s' s'' h) :
      Chain R s s'' (e ++ h)

section Chains

variable {R : σ → σ → List ε → Prop}

theorem Chain.one {s s' : σ} {e : List ε} (hs : R s s' e) : Chain R s s' e := by
  have h := Chain.cons hs (.nil s')
  rwa [List.append_nil] at h

theorem Chain.trans {s s' s'' : σ} {e h : List ε} (h₁ : Chain R s s' e) (h₂ : Chain R s' s'' h) :
    Chain R s s'' (e ++ h) := by
  induction h₁ with
  | nil => exact h₂
  | cons hs _ ih =>
      rw [List.append_assoc]
      exact .cons hs (ih h₂)

/-- What every rule keeps, a chain of rules keeps. -/
theorem Chain.preserves {P : σ → List ε → Prop}
    (hrule : ∀ s h s' e, P s h → R s s' e → P s' (h ++ e)) {s s' : σ} {e h : List ε}
    (hc : Chain R s s' e) (hP : P s h) : P s' (h ++ e) := by
  induction hc generalizing h with
  | nil => rwa [List.append_nil]
  | cons hs _ ih =>
      rw [← List.append_assoc]
      exact ih (hrule _ _ _ _ hP hs)

end Chains

/-! ## Relations that compose -/

/-- It holds of the step that does nothing, and of two steps one after the other. -/
structure Composes (R : σ → σ × List ε → Prop) : Prop where
  nothing (s : σ) : R s (s, [])
  trans {s s' s'' : σ} {e e' : List ε} (h : R s (s', e)) (h' : R s' (s'', e')) :
    R s (s'', e ++ e')

/-- Runs a list of actions, collecting the observations. -/
def Machine.run (M : Machine σ α ε) : List α → σ → Option (σ × List ε)
  | [], s => some (s, [])
  | a :: as, s =>
      match M.step s a with
      | none => none
      | some s' =>
          match M.run as s' with
          | none => none
          | some (t, h) => some (t, M.obs s a s' ++ h)

/-- What `run` computes is a run. -/
theorem exec_of_run {M : Machine σ α ε} :
    ∀ {as : List α} {s t : σ} {h : List ε}, M.run as s = some (t, h) → Exec M s t h
  | [], s, t, h, hr => by
      simp only [Machine.run, Option.some.injEq, Prod.mk.injEq] at hr
      obtain ⟨rfl, rfl⟩ := hr
      exact .start
  | a :: as, s, t, h, hr => by
      unfold Machine.run at hr
      cases hs : M.step s a with
      | none => rw [hs] at hr; cases hr
      | some s' =>
          rw [hs] at hr
          cases hr' : M.run as s' with
          | none => simp only [hr'] at hr; cases hr
          | some th =>
              obtain ⟨t', h'⟩ := th
              simp only [hr', Option.some.injEq, Prod.mk.injEq] at hr
              obtain ⟨rfl, rfl⟩ := hr
              exact (Exec.one hs).trans (exec_of_run hr')

/-- Machines with the same steps pass through the same states, whatever they show. -/
theorem Machine.run_states {ε' : Type} (M : Machine σ α ε) (M' : Machine σ α ε')
    (hstep : M'.step = M.step) : ∀ (as : List α) (s : σ),
    (M'.run as s).map Prod.fst = (M.run as s).map Prod.fst
  | [], _ => rfl
  | a :: as, s => by
      simp only [Machine.run, hstep]
      cases M.step s a with
      | none => rfl
      | some s' =>
          have ih := M.run_states M' hstep as s'
          dsimp only
          cases hr : M.run as s' with
          | none =>
              rw [hr] at ih
              rw [Option.map_eq_none_iff.mp ih]
              rfl
          | some r =>
              rw [hr] at ih
              obtain ⟨r', hr', heq⟩ := Option.map_eq_some_iff.mp ih
              rw [hr']
              exact congrArg some heq

/-- A run and one action more. -/
theorem Machine.run_snoc (M : Machine σ α ε) (a : α) : ∀ (as : List α) (s : σ),
    M.run (as ++ [a]) s = (M.run as s).bind fun r =>
      (M.step r.1 a).map fun t => (t, r.2 ++ M.obs r.1 a t)
  | [], s => by
      simp only [List.nil_append, Machine.run, Option.bind_some]
      cases M.step s a with
      | none => rfl
      | some t => simp
  | b :: as, s => by
      simp only [List.cons_append, Machine.run]
      cases M.step s b with
      | none => rfl
      | some s' =>
          simp only [M.run_snoc a as s']
          cases M.run as s' with
          | none => rfl
          | some r =>
              obtain ⟨t, h⟩ := r
              simp only [Option.bind_some]
              cases M.step t a with
              | none => rfl
              | some t' => simp

/-- A run has a list of actions. -/
theorem run_of_exec {M : Machine σ α ε} {s₀ s : σ} {h : List ε} (hr : Exec M s₀ s h) :
    ∃ as, M.run as s₀ = some (s, h) := by
  induction hr with
  | start => exact ⟨[], rfl⟩
  | step s s' h a _ hs ih =>
      obtain ⟨as, hrun⟩ := ih
      exact ⟨as ++ [a], by rw [M.run_snoc, hrun, Option.bind_some, hs, Option.map_some]⟩

/-- A list of actions that runs, runs up to every point before its end. -/
theorem Machine.run_prefix (M : Machine σ α ε) {s : σ} : ∀ {bs as : List α}, bs <+: as →
    (M.run as s).isSome = true → (M.run bs s).isSome = true := by
  rintro bs as ⟨cs, rfl⟩ h
  induction cs using List.reverseRecOn with
  | nil => rwa [List.append_nil] at h
  | append_singleton cs c ih =>
      refine ih ?_
      rw [← List.append_assoc, M.run_snoc] at h
      cases hr : M.run (bs ++ cs) s with
      | none => rw [hr] at h; cases h
      | some r => rfl

/-- What a run has shown up to a point, it goes on from. -/
theorem Machine.run_history (M : Machine σ α ε) {s₀ : σ} : ∀ {bs as : List α}, bs <+: as →
    ∀ {s t : σ} {h e : List ε}, M.run bs s₀ = some (t, e) → M.run as s₀ = some (s, h) →
      e <+: h := by
  rintro bs as ⟨cs, rfl⟩
  induction cs using List.reverseRecOn with
  | nil =>
      intro s t h e hb ha
      rw [List.append_nil, hb] at ha
      cases ha
      exact List.prefix_refl _
  | append_singleton cs c ih =>
      intro s t h e hb ha
      rw [← List.append_assoc, M.run_snoc] at ha
      obtain ⟨⟨s', h'⟩, hs, ha⟩ := Option.bind_eq_some_iff.mp ha
      obtain ⟨t', _, heq⟩ := Option.map_eq_some_iff.mp ha
      cases heq
      exact (ih hb hs).trans (List.prefix_append h' _)

/-- **Induction along a run** whose steps all meet a condition on the state before them. -/
theorem Machine.run_along (M : Machine σ α ε) {s₀ : σ} {C : σ → α → Prop} {P : σ → List ε → Prop}
    (h0 : P s₀ [])
    (hstep : ∀ s h a s', P s h → C s a → M.step s a = some s' → P s' (h ++ M.obs s a s')) :
    ∀ {as : List α} {t : σ} {h : List ε}, M.run as s₀ = some (t, h) →
      (∀ bs a, bs ++ [a] <+: as → ∀ s h, M.run bs s₀ = some (s, h) → C s a) → P t h := by
  intro as
  induction as using List.reverseRecOn with
  | nil =>
      intro t h hr _
      simp only [Machine.run, Option.some.injEq, Prod.mk.injEq] at hr
      obtain ⟨rfl, rfl⟩ := hr
      exact h0
  | append_singleton as a ih =>
      intro t h hr hC
      rw [M.run_snoc] at hr
      obtain ⟨⟨s, h'⟩, hs, hr⟩ := Option.bind_eq_some_iff.mp hr
      obtain ⟨t', ht, heq⟩ := Option.map_eq_some_iff.mp hr
      cases heq
      have hP : P s h' := ih hs fun bs b hb => hC bs b (hb.trans (List.prefix_append as [a]))
      exact hstep s h' a t hP (hC as a (List.prefix_refl _) s h' hs) ht

/-- What a run shows, its steps show: where a condition on a step says what it shows, that condition
    along the run says what the run shows. -/
theorem Machine.run_shows (M : Machine σ α ε) {s₀ : σ} {K : ε → Prop} {C : σ → α → Prop}
    (hC : ∀ s h a s', Exec M s₀ s h → M.step s a = some s' →
      ((∀ v ∈ M.obs s a s', K v) ↔ C s a)) :
    ∀ {as : List α} {t : σ} {h : List ε}, M.run as s₀ = some (t, h) →
      ((∀ v ∈ h, K v) ↔
        ∀ bs a, bs ++ [a] <+: as → ∀ s h', M.run bs s₀ = some (s, h') → C s a) := by
  intro as
  induction as using List.reverseRecOn with
  | nil =>
      intro t h hr
      simp only [Machine.run, Option.some.injEq, Prod.mk.injEq] at hr
      obtain ⟨rfl, rfl⟩ := hr
      refine ⟨fun _ bs a hb => ?_, fun _ v hv => nomatch hv⟩
      exact absurd (List.prefix_nil.mp hb) (by simp)
  | append_singleton as a ih =>
      intro t h hr
      rw [M.run_snoc] at hr
      obtain ⟨⟨s, h'⟩, hs, hr⟩ := Option.bind_eq_some_iff.mp hr
      obtain ⟨t', ht, heq⟩ := Option.map_eq_some_iff.mp hr
      cases heq
      constructor
      · intro hall bs b hb s₁ h₁ hs₁
        rcases List.prefix_concat_iff.mp hb with heq | hb
        · obtain ⟨rfl, hab⟩ := List.append_inj' heq rfl
          cases hab
          rw [hs] at hs₁
          cases hs₁
          exact (hC s h' a t (exec_of_run hs) ht).mp fun v hv => hall v (List.mem_append_right _ hv)
        · exact (ih hs).mp (fun w hw => hall w (List.mem_append_left _ hw)) bs b hb s₁ h₁ hs₁
      · intro hall v hv
        rcases List.mem_append.mp hv with hv | hv
        · exact (ih hs).mpr (fun bs b hb =>
            hall bs b (hb.trans (List.prefix_append as [a]))) v hv
        · exact (hC s h' a t (exec_of_run hs) ht).mpr
            (hall as a (List.prefix_refl _) s h' hs) v hv

/-- **Exactly when a property holds all along a run**: where an invariant `I` gives the property
    `Q`, a step that meets `C` keeps `I` and one that does not breaks `Q`, the property holds up to
    every point of the run if and only if every step meets `C`. -/
theorem Machine.run_iff (M : Machine σ α ε) {s₀ : σ} {C : σ → α → Prop}
    {I Q : List α → σ → List ε → Prop} {as : List α} (hrun : (M.run as s₀).isSome = true)
    (h0 : I [] s₀ []) (hQ : ∀ bs s h, I bs s h → Q bs s h)
    (hstep : ∀ bs a s h s', bs ++ [a] <+: as → M.run bs s₀ = some (s, h) → I bs s h →
      M.step s a = some s' → (C s a → I (bs ++ [a]) s' (h ++ M.obs s a s')) ∧
        (Q (bs ++ [a]) s' (h ++ M.obs s a s') → C s a)) :
    (∀ bs, bs <+: as → ∀ s h, M.run bs s₀ = some (s, h) → Q bs s h) ↔
      ∀ bs a, bs ++ [a] <+: as → ∀ s h, M.run bs s₀ = some (s, h) → C s a := by
  -- the step that a longer prefix makes
  have hnext : ∀ bs a, bs ++ [a] <+: as → ∀ s h, M.run bs s₀ = some (s, h) →
      ∃ s', M.step s a = some s' ∧ M.run (bs ++ [a]) s₀ = some (s', h ++ M.obs s a s') := by
    intro bs a hb s h hs
    have hsome := M.run_prefix hb hrun
    rw [M.run_snoc, hs, Option.bind_some] at hsome ⊢
    cases hstep : M.step s a with
    | none =>
        rw [hstep] at hsome
        cases hsome
    | some s' => exact ⟨s', rfl, rfl⟩
  have hinv : (∀ bs a, bs ++ [a] <+: as → ∀ s h s', M.run bs s₀ = some (s, h) → I bs s h →
      M.step s a = some s' → C s a) → ∀ bs, bs <+: as → ∀ s h, M.run bs s₀ = some (s, h) →
      I bs s h := by
    intro hC bs
    induction bs using List.reverseRecOn with
    | nil =>
        intro _ s h hs
        simp only [Machine.run, Option.some.injEq, Prod.mk.injEq] at hs
        obtain ⟨rfl, rfl⟩ := hs
        exact h0
    | append_singleton bs a ih =>
        intro hb s h hs
        rw [M.run_snoc] at hs
        obtain ⟨⟨s₁, h₁⟩, hs₁, hs⟩ := Option.bind_eq_some_iff.mp hs
        obtain ⟨s', hs', heq⟩ := Option.map_eq_some_iff.mp hs
        cases heq
        have hI := ih ((List.prefix_append bs [a]).trans hb) s₁ h₁ hs₁
        exact (hstep bs a s₁ h₁ s hb hs₁ hI hs').1 (hC bs a hb s₁ h₁ s hs₁ hI hs')
  constructor
  · intro hall
    have hC : ∀ bs a, bs ++ [a] <+: as → ∀ s h s', M.run bs s₀ = some (s, h) → I bs s h →
        M.step s a = some s' → C s a := by
      intro bs a hb s h s' hs hI hs'
      obtain ⟨s'', hs'', hrun'⟩ := hnext bs a hb s h hs
      rw [hs'] at hs''
      cases hs''
      exact (hstep bs a s h s' hb hs hI hs').2 (hall _ hb s' _ hrun')
    intro bs a hb s h hs
    obtain ⟨s', hs', _⟩ := hnext bs a hb s h hs
    exact hC bs a hb s h s' hs (hinv hC bs ((List.prefix_append bs [a]).trans hb) s h hs) hs'
  · intro hall bs hb s h hs
    exact hQ bs s h (hinv (fun bs a hb s h _ hs _ _ => hall bs a hb s h hs) bs hb s h hs)

end Transition
