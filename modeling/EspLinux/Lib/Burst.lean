import Mathlib

/-!
# Check values of a word

A check value is computed letter by letter: `word.foldl step init`.  If a step can be undone for
every letter, and two steps in a row tell their two letters, then the check value tells a word from
every other one that differs from it in two neighbouring letters at most.
-/

namespace EspLinux.Lib

variable {σ α : Type*} {step : σ → α → σ} {P : σ → Prop}

/-- What all check values satisfy. -/
lemma foldl_keeps (hkeep : ∀ s a, P s → P (step s a)) {s : σ} (hs : P s) (word : List α) :
    P (word.foldl step s) := by
  induction word generalizing s with
  | nil => exact hs
  | cons a word ih => exact ih (hkeep s a hs)

/-- Steps that can be undone keep different values apart. -/
lemma foldl_injective (hkeep : ∀ s a, P s → P (step s a))
    (hinj : ∀ s t a, P s → P t → step s a = step t a → s = t) {s t : σ} (hs : P s) (ht : P t)
    {word : List α} (h : word.foldl step s = word.foldl step t) : s = t := by
  induction word generalizing s t with
  | nil => exact h
  | cons a word ih =>
    have hstep : step s a = step t a := ih (hkeep s a hs) (hkeep t a ht) h
    exact hinj s t a hs ht hstep

/-- Two neighbouring letters are told by the check value of the word. -/
theorem foldl_tells (hkeep : ∀ s a, P s → P (step s a))
    (hinj : ∀ s t a, P s → P t → step s a = step t a → s = t)
    (htwo : ∀ s a b a' b', P s → step (step s a) b = step (step s a') b' → a = a' ∧ b = b')
    {s : σ} (hs : P s) {front back : List α} {a b a' b' : α}
    (h : (front ++ a :: b :: back).foldl step s = (front ++ a' :: b' :: back).foldl step s) :
    a = a' ∧ b = b' := by
  have hfront : P (front.foldl step s) := foldl_keeps hkeep hs front
  rw [List.foldl_append, List.foldl_append] at h
  refine htwo _ a b a' b' hfront (foldl_injective hkeep hinj ?_ ?_ h)
  · exact hkeep _ b (hkeep _ a hfront)
  · exact hkeep _ b' (hkeep _ a' hfront)

end EspLinux.Lib
