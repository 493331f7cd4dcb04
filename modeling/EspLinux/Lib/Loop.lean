import Mathlib

/-!
# Loops

A loop of the source is a body `f : σ → σ ⊕ ρ`: one iteration either goes on with a new
loop state (`inl`) or leaves the loop with a result (`inr`).  `loop f n s` runs at most
`n` iterations; a loop that does not end gives `none` for every `n`.  The two rules
proved here are the ones used for the loops of the programs: a measure that goes down
makes the loop end, and an iteration that reproduces its own state never does.
-/

namespace EspLinux.Lib

variable {σ ρ : Type*}

/-- At most `n` iterations of a loop with body `f`. -/
def loop (f : σ → σ ⊕ ρ) : ℕ → σ → Option ρ
  | 0, _ => none
  | n + 1, s =>
    match f s with
    | .inl s' => loop f n s'
    | .inr r => some r

/-- The loop started in `s` ends, with the result `r`. -/
def Ends (f : σ → σ ⊕ ρ) (s : σ) (r : ρ) : Prop := ∃ n, loop f n s = some r

/-- The state in which iteration number `n` starts, if there is one. -/
def iterate (f : σ → σ ⊕ ρ) : ℕ → σ → Option σ
  | 0, s => some s
  | n + 1, s =>
    match f s with
    | .inl s' => iterate f n s'
    | .inr _ => none

variable {f : σ → σ ⊕ ρ} {s s' : σ} {r : ρ} {n : ℕ}

lemma loop_inl (h : f s = .inl s') : loop f (n + 1) s = loop f n s' := by
  simp only [loop, h]

lemma loop_inr (h : f s = .inr r) : loop f (n + 1) s = some r := by
  simp only [loop, h]

/-- A loop that is left at once ends with one result. -/
lemma ends_inr {r' : ρ} (h : f s = .inr r) : Ends f s r' ↔ r' = r := by
  constructor
  · rintro ⟨_ | n, hn⟩
    · cases hn
    · rw [loop_inr h] at hn
      exact (Option.some.inj hn).symm
  · rintro rfl
    exact ⟨1, loop_inr h⟩

/-- A loop that goes on ends as it does from there. -/
lemma ends_inl (h : f s = .inl s') : Ends f s r ↔ Ends f s' r := by
  constructor
  · rintro ⟨_ | n, hn⟩
    · cases hn
    · rw [loop_inl h] at hn
      exact ⟨n, hn⟩
  · rintro ⟨n, hn⟩
    exact ⟨n + 1, by rw [loop_inl h, hn]⟩

/-- A loop seen through maps of its states and its results. -/
lemma loop_map {σ' ρ' : Type*} {f' : σ' → σ' ⊕ ρ'} {π : σ → σ'} {φ : ρ → ρ'}
    (h : ∀ s, f' (π s) = (f s).map π φ) (n : ℕ) (s : σ) :
    loop f' n (π s) = (loop f n s).map φ := by
  induction n generalizing s with
  | zero => rfl
  | succ n ih =>
    cases hf : f s with
    | inl s' =>
      rw [loop_inl hf, ← ih, loop_inl]
      rw [h, hf]
      rfl
    | inr r =>
      rw [loop_inr hf, loop_inr (r := φ r)]
      · rfl
      · rw [h, hf]
        rfl

/-- More fuel does not change a result. -/
lemma loop_mono (h : loop f n s = some r) {m : ℕ} (hm : n ≤ m) : loop f m s = some r := by
  induction n generalizing s m with
  | zero => simp [loop] at h
  | succ n ih =>
    obtain ⟨m, rfl⟩ : ∃ k, m = k + 1 := ⟨m - 1, by omega⟩
    cases hf : f s with
    | inl s' =>
      rw [loop_inl hf] at h ⊢
      exact ih h (by omega)
    | inr r' =>
      rw [loop_inr hf] at h ⊢
      exact h

/-- What every iteration keeps holds when the loop is left. -/
lemma loop_invariant {P : σ → Prop} {Q : ρ → Prop} (hinl : ∀ s s', P s → f s = .inl s' → P s')
    (hinr : ∀ s r, P s → f s = .inr r → Q r) (hs : P s) (h : loop f n s = some r) : Q r := by
  induction n generalizing s with
  | zero => simp [loop] at h
  | succ n ih =>
    cases hf : f s with
    | inl s' =>
      rw [loop_inl hf] at h
      exact ih (hinl s s' hs hf) h
    | inr r' =>
      rw [loop_inr hf] at h
      cases h
      exact hinr s _ hs hf

lemma iterate_inl (h : f s = .inl s') : iterate f (n + 1) s = iterate f n s' := by
  simp only [iterate, h]

/-- The last iteration, when there is one more. -/
lemma iterate_succ :
    iterate f (n + 1) s = (iterate f n s).bind fun t => (f t).elim some fun _ => none := by
  induction n generalizing s with
  | zero =>
    show _ = (f s).elim some fun _ => none
    cases hf : f s <;> simp [iterate, hf]
  | succ n ih =>
    cases hf : f s with
    | inl t => rw [iterate_inl hf, iterate_inl hf, ih]
    | inr r => simp [iterate, hf]

/-- What every iteration keeps holds in every iteration. -/
lemma iterate_invariant {P : σ → Prop} (hinl : ∀ s s', P s → f s = .inl s' → P s') (hs : P s)
    (h : iterate f n s = some s') : P s' := by
  induction n generalizing s with
  | zero =>
    cases h
    exact hs
  | succ n ih =>
    cases hf : f s with
    | inl t =>
      rw [iterate_inl hf] at h
      exact ih (hinl s t hs hf) h
    | inr r => simp [iterate, hf] at h

/-- If every iteration decreases a measure, the loop ends. -/
lemma ends_of_measure (μ : σ → ℕ)
    (h : ∀ n t t', iterate f n s = some t → f t = .inl t' → μ t' < μ t) : ∃ r, Ends f s r := by
  induction hm : μ s using Nat.strong_induction_on generalizing s with
  | _ m ih =>
    cases hf : f s with
    | inr r => exact ⟨r, 1, loop_inr hf⟩
    | inl t =>
      obtain ⟨r, n, hn⟩ := ih (μ t) (hm ▸ h 0 s t rfl hf)
        (fun n t₁ t₂ h₁ h₂ => h (n + 1) t₁ t₂ (by rw [iterate_inl hf, h₁]) h₂) rfl
      exact ⟨r, n + 1, by rw [loop_inl hf, hn]⟩

/-- If every iteration that starts in `P` goes on in `P`, the loop never ends. -/
lemma loop_eq_none {P : σ → Prop} (h : ∀ s, P s → ∃ s', f s = .inl s' ∧ P s') (hs : P s) (n : ℕ) :
    loop f n s = none := by
  induction n generalizing s with
  | zero => rfl
  | succ n ih =>
    obtain ⟨s', hf, hs'⟩ := h s hs
    rw [loop_inl hf]
    exact ih hs'

/-- A loop that comes to a state from which it does not end does not end. -/
lemma loop_eq_none_of_iterate {t : σ} (h : iterate f n s = some t) (ht : ∀ m, loop f m t = none)
    (m : ℕ) : loop f m s = none := by
  induction n generalizing s m with
  | zero =>
    cases h
    exact ht m
  | succ n ih =>
    cases hf : f s with
    | inr r => simp [iterate, hf] at h
    | inl s' =>
      rw [iterate_inl hf] at h
      cases m with
      | zero => rfl
      | succ m =>
        rw [loop_inl hf]
        exact ih h m

end EspLinux.Lib
