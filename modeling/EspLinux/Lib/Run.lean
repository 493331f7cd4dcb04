import Mathlib

/-!
# Runs of a guarded step function

A component is a step function `step : σ → ε → Option σ`: `step s e` is the state
after the event `e`, or `none` when the event never comes to an end.  A run is a
list of events.  Several results hold only of the runs whose steps all meet a
condition `ok s e` on the state before the step and the event, so reachability
carries that condition as a parameter; `fun _ _ => True` gives every run.
-/

namespace EspLinux.Lib

variable {σ ε τ : Type*}

/-- The states reached from `s₀` by runs all of whose steps meet `ok`. -/
inductive Reach (step : σ → ε → Option σ) (ok : σ → ε → Prop) (s₀ : σ) : σ → Prop
  | init : Reach step ok s₀ s₀
  | step {s s' : σ} {e : ε} :
      Reach step ok s₀ s → ok s e → step s e = some s' → Reach step ok s₀ s'

/-- Replay a list of events. -/
def replay (step : σ → ε → Option σ) (s : σ) (es : List ε) : Option σ :=
  es.foldlM step s

/-- The last event of a run. -/
theorem replay_concat {step : σ → ε → Option σ} {s s' : σ} {es : List ε}
    (hr : replay step s es = some s') (e : ε) : replay step s (es ++ [e]) = step s' e := by
  rw [replay, List.foldlM_append, ← replay, hr]
  show ([e].foldlM step s') = step s' e
  rw [List.foldlM_cons]
  cases step s' e <;> rfl

namespace Reach

variable {step : σ → ε → Option σ} {ok : σ → ε → Prop} {s₀ : σ}

/-- What holds at the start and is kept by every admitted step holds in every state
reached. -/
theorem induction_on {P : σ → Prop} (hinit : P s₀)
    (hstep : ∀ s e s', P s → ok s e → step s e = some s' → P s')
    {s : σ} (h : Reach step ok s₀ s) : P s := by
  induction h with
  | init => exact hinit
  | step _ hok hs ih => exact hstep _ _ _ ih hok hs

/-- Admitting more steps reaches more states. -/
theorem mono {ok' : σ → ε → Prop} (hok : ∀ s e, ok s e → ok' s e)
    {s : σ} (h : Reach step ok s₀ s) : Reach step ok' s₀ s := by
  induction h with
  | init => exact .init
  | step _ he hs ih => exact ih.step (hok _ _ he) hs

/-- A replay whose steps need no condition stays among the reached states. -/
theorem of_replay {es : List ε} {s s' : σ} (h : Reach step (fun _ _ => True) s₀ s)
    (hr : replay step s es = some s') : Reach step (fun _ _ => True) s₀ s' := by
  induction es generalizing s with
  | nil =>
    simp only [replay, List.foldlM_nil, Option.pure_def, Option.some.injEq] at hr
    exact hr ▸ h
  | cons e es ih =>
    simp only [replay, List.foldlM_cons, Option.bind_eq_bind, Option.bind_eq_some_iff] at hr
    obtain ⟨s₁, hs₁, hr⟩ := hr
    exact ih (h.step trivial hs₁) hr

/-- A replay that checks a sufficient condition at each step. -/
theorem of_checked {check : σ → ε → Bool} (hcheck : ∀ s e, check s e = true → ok s e)
    {es : List ε} {s s' : σ} (h : Reach step ok s₀ s)
    (hr : replay (fun s e => if check s e then step s e else none) s es = some s') :
    Reach step ok s₀ s' := by
  induction es generalizing s with
  | nil =>
    simp only [replay, List.foldlM_nil, Option.pure_def, Option.some.injEq] at hr
    exact hr ▸ h
  | cons e es ih =>
    simp only [replay, List.foldlM_cons, Option.bind_eq_bind, Option.bind_eq_some_iff] at hr
    obtain ⟨s₁, hs₁, hr⟩ := hr
    split at hs₁
    · rename_i hc
      exact ih (h.step (hcheck _ _ hc) hs₁) hr
    · cases hs₁

end Reach

/-! ## Runs as far as they come -/

/-- Every step of a run meets `ok`, as far as the run comes. -/
def Throughout (step : σ → ε → Option σ) (ok : σ → ε → Prop) : σ → List ε → Prop
  | _, [] => True
  | s, e :: es => ok s e ∧ ∀ s', step s e = some s' → Throughout step ok s' es

section Throughout

variable {step : σ → ε → Option σ} {ok ok' : σ → ε → Prop}

/-- Whether the condition is met can be computed along the run. -/
instance decidableThroughout [∀ s e, Decidable (ok s e)] :
    ∀ (s : σ) (es : List ε), Decidable (Throughout step ok s es)
  | _, [] => .isTrue trivial
  | s, e :: es =>
    letI : Decidable (∀ s', step s e = some s' → Throughout step ok s' es) :=
      match step s e with
      | none => .isTrue nofun
      | some s' =>
        letI := decidableThroughout s' es
        decidable_of_iff (Throughout step ok s' es) (by simp)
    inferInstanceAs (Decidable (ok s e ∧ ∀ s', step s e = some s' → Throughout step ok s' es))

lemma replay_cons (s : σ) (e : ε) (es : List ε) :
    replay step s (e :: es) = (step s e).bind fun s' => replay step s' es := rfl

/-- Where an invariant is kept by the steps that meet `ok`, each of them meets what the invariant
implies. -/
theorem throughout_keeps {I : σ → Prop}
    (hstep : ∀ s e, I s → ok s e → ok' s e ∧ ∀ s', step s e = some s' → I s')
    {s : σ} {es : List ε} (hs : I s) (h : Throughout step ok s es) : Throughout step ok' s es := by
  induction es generalizing s with
  | nil => trivial
  | cons e es ih =>
    obtain ⟨hok, hI⟩ := hstep s e hs h.1
    exact ⟨hok, fun s' he => ih (hI s' he) (h.2 s' he)⟩

/-- Two conditions that agree where an invariant holds agree along every run from there, if the steps
that meet them keep it. -/
theorem throughout_congr {I : σ → Prop} (hiff : ∀ s e, I s → (ok s e ↔ ok' s e))
    (hkeep : ∀ s e s', I s → ok s e → step s e = some s' → I s') {s : σ} {es : List ε} (hs : I s) :
    Throughout step ok s es ↔ Throughout step ok' s es := by
  induction es generalizing s with
  | nil => exact Iff.rfl
  | cons e es ih =>
    constructor
    · intro h
      exact ⟨(hiff s e hs).mp h.1, fun s' he => (ih (hkeep s e s' hs h.1 he)).mp (h.2 s' he)⟩
    · intro h
      have hok := (hiff s e hs).mpr h.1
      exact ⟨hok, fun s' he => (ih (hkeep s e s' hs hok he)).mpr (h.2 s' he)⟩

/-- A relation that every step respects is respected by every run. -/
theorem replay_related {step' : τ → ε → Option τ} {ok' : τ → ε → Prop} {R : σ → τ → Prop}
    (hstep : ∀ s t e, R s t → ok s e → ok' t e → Option.Rel R (step s e) (step' t e))
    {s : σ} {t : τ} {es : List ε} (hR : R s t) (hs : Throughout step ok s es)
    (ht : Throughout step' ok' t es) : Option.Rel R (replay step s es) (replay step' t es) := by
  induction es generalizing s t with
  | nil => exact .some hR
  | cons e es ih =>
    have he := hstep s t e hR hs.1 ht.1
    rw [replay_cons, replay_cons]
    cases hse : step s e with
    | none =>
      rw [hse] at he
      cases hte : step' t e with
      | none => exact .none
      | some t' =>
        rw [hte] at he
        cases he
    | some s' =>
      rw [hse] at he
      cases hte : step' t e with
      | none =>
        rw [hte] at he
        cases he
      | some t' =>
        rw [hte] at he
        cases he with
        | some hR' => exact ih hR' (hs.2 s' hse) (ht.2 t' hte)

end Throughout

end EspLinux.Lib
