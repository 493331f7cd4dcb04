import Mathlib

/-!
# Singly linked chains

A pointer structure is a map `next : α → Option α`, where `none` is the null pointer.
`Chain next p l` says that following `next` from `p` passes through exactly the cells
`l`, in this order, and then arrives at the null pointer.  A chain is therefore finite
and acyclic by definition, and `Chain.nodup` turns that into a duplicate-free list.

The lemmas below are the effect of the pointer assignments that list code performs:
unlinking the cell behind a given cell, and hanging a fresh cell behind the last one.
-/

namespace EspLinux.Lib

variable {α : Type*}

/-- Following `next` from `p` visits the cells `l` and then the null pointer. -/
def Chain (next : α → Option α) : Option α → List α → Prop
  | p, [] => p = none
  | p, a :: l => p = some a ∧ Chain next (next a) l

namespace Chain

variable {next next' : α → Option α} {p q : Option α} {a b : α} {l l₁ l₂ : List α}

@[simp] lemma nil_iff : Chain next p [] ↔ p = none := Iff.rfl

@[simp] lemma cons_iff : Chain next p (a :: l) ↔ p = some a ∧ Chain next (next a) l := Iff.rfl

/-- Only the cells on the chain matter. -/
lemma congr (h : Chain next p l) (heq : ∀ a ∈ l, next' a = next a) : Chain next' p l := by
  induction l generalizing p with
  | nil => exact h
  | cons a l ih =>
    refine ⟨h.1, ?_⟩
    rw [heq a List.mem_cons_self]
    exact ih h.2 fun b hb => heq b (List.mem_cons_of_mem a hb)

/-- The cells of a chain are determined by its first pointer. -/
lemma unique (h : Chain next p l₁) (h' : Chain next p l₂) : l₁ = l₂ := by
  induction l₁ generalizing p l₂ with
  | nil =>
    cases l₂ with
    | nil => rfl
    | cons b l₂ =>
      have : none = some b := h.symm.trans h'.1
      simp at this
  | cons a l₁ ih =>
    cases l₂ with
    | nil =>
      have : some a = none := h.1.symm.trans h'
      simp at this
    | cons b l₂ =>
      have hab : a = b := by simpa using h.1.symm.trans h'.1
      subst hab
      rw [ih h.2 h'.2]

/-- The part of a chain behind one of its cells. -/
lemma tail_of_append (h : Chain next p (l₁ ++ a :: l₂)) : Chain next (next a) l₂ := by
  induction l₁ generalizing p with
  | nil => exact h.2
  | cons b l₁ ih => exact ih h.2

/-- A finite chain visits no cell twice: the parts behind the two visits would be the
same list, although one is a proper part of the other. -/
lemma nodup (h : Chain next p l) : l.Nodup := by
  induction l generalizing p with
  | nil => exact List.nodup_nil
  | cons a l ih =>
    refine List.nodup_cons.mpr ⟨fun hmem => ?_, ih h.2⟩
    obtain ⟨u, v, rfl⟩ := List.append_of_mem hmem
    have hv : Chain next (next a) v := tail_of_append h.2
    have hlen := congrArg List.length (unique h.2 hv)
    simp only [List.length_append, List.length_cons] at hlen
    omega

variable [DecidableEq α]

/-- Changing the pointer of a cell that is not on the chain. -/
lemma update_of_notMem (h : Chain next p l) (ha : a ∉ l) :
    Chain (Function.update next a q) p l :=
  h.congr fun _ hb => Function.update_of_ne (ne_of_mem_of_not_mem hb ha) _ _

/-- Making a cell point past the cell behind it takes that cell out of the chain. -/
lemma unlink (h : Chain next p (l₁ ++ b :: a :: l₂)) :
    Chain (Function.update next b (next a)) p (l₁ ++ b :: l₂) := by
  have hnd := h.nodup
  induction l₁ generalizing p with
  | nil =>
    obtain ⟨hp, -, htail⟩ := h
    refine ⟨hp, ?_⟩
    rw [Function.update_self]
    refine htail.update_of_notMem ?_
    simp only [List.nil_append, List.nodup_cons, List.mem_cons, not_or] at hnd
    exact hnd.1.2
  | cons c l₁ ih =>
    have hcb : c ≠ b := by
      simp only [List.cons_append, List.nodup_cons, List.mem_append, List.mem_cons,
        not_or] at hnd
      exact hnd.1.2.1
    refine ⟨h.1, ?_⟩
    rw [Function.update_of_ne hcb]
    exact ih h.2 (List.nodup_cons.mp hnd).2

/-- Hanging a new cell behind the last one. -/
lemma snoc (h : Chain next p (l ++ [b])) (ha : a ∉ l ++ [b]) :
    Chain (Function.update (Function.update next a none) b (some a)) p (l ++ [b, a]) := by
  have hnd := h.nodup
  induction l generalizing p with
  | nil =>
    have hab : a ≠ b := by simpa using ha
    refine ⟨h.1, ?_, ?_⟩
    · rw [Function.update_self]
    · rw [Function.update_of_ne hab, Function.update_self]
      rfl
  | cons c l ih =>
    simp only [List.cons_append, List.mem_cons, not_or] at ha
    have hcb : c ≠ b := by
      simp only [List.cons_append, List.nodup_cons, List.mem_append, List.mem_cons,
        not_or] at hnd
      exact hnd.1.2.1
    refine ⟨h.1, ?_⟩
    rw [Function.update_of_ne hcb, Function.update_of_ne (Ne.symm ha.1)]
    exact ih h.2 ha.2 (List.nodup_cons.mp hnd).2

/-- Putting a new cell in front of a chain. -/
lemma push (h : Chain next p l) (ha : a ∉ l) :
    Chain (Function.update next a p) (some a) (a :: l) := by
  refine ⟨rfl, ?_⟩
  rw [Function.update_self]
  exact h.update_of_notMem ha

end Chain

end EspLinux.Lib
