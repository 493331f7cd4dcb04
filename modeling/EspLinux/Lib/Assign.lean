import Mathlib

/-!
# Sequences of assignments

Assignments act on a state, and each has a tag that says what it assigns to.  Of two with the same
tag the later wins, and two with different tags do not disturb each other.  So a sequence of
assignments does what the last of each tag do, and it leaves a state alone if and only if each of
these does.
-/

namespace EspLinux.Lib

variable {σ α τ : Type*}

/-- The assignments of `l`, one after another. -/
def assign (apply : α → σ → σ) (l : List α) (s : σ) : σ := l.foldl (fun s a => apply a s) s

/-- The assignments of a list that no later one has the tag of. -/
def lasts [DecidableEq τ] (tag : α → τ) : List α → List α
  | [] => []
  | a :: l => if tag a ∈ l.map tag then lasts tag l else a :: lasts tag l

/-- Assignments with tags. -/
structure Assignments (apply : α → σ → σ) (tag : α → τ) : Prop where
  wins : ∀ a b s, tag a = tag b → apply b (apply a s) = apply b s
  apart : ∀ a b s, tag a ≠ tag b → apply b (apply a s) = apply a (apply b s)

variable {apply : α → σ → σ} {tag : α → τ} {a : α} {l l' : List α} {s : σ}

@[simp] lemma assign_nil : assign apply [] s = s := rfl

@[simp] lemma assign_cons : assign apply (a :: l) s = assign apply l (apply a s) := rfl

@[simp] lemma assign_append : assign apply (l ++ l') s = assign apply l' (assign apply l s) :=
  List.foldl_append

lemma assign_of_forall (h : ∀ a ∈ l, apply a s = s) : assign apply l s = s := by
  induction l with
  | nil => rfl
  | cons a l ih =>
    rw [assign_cons, h a List.mem_cons_self]
    exact ih fun b hb => h b (List.mem_cons_of_mem a hb)

namespace Assignments

/-- An assignment may as well come after those with other tags. -/
lemma assign_apart (h : Assignments apply tag) (ha : tag a ∉ l.map tag) :
    assign apply l (apply a s) = apply a (assign apply l s) := by
  induction l generalizing s with
  | nil => rfl
  | cons b l ih =>
    rw [List.map_cons, List.mem_cons, not_or] at ha
    rw [assign_cons, assign_cons, h.apart a b s ha.1, ih ha.2]

/-- An assignment does nothing if a later one has its tag. -/
lemma assign_wins (h : Assignments apply tag) (ha : tag a ∈ l.map tag) :
    assign apply l (apply a s) = assign apply l s := by
  induction l generalizing s with
  | nil => cases ha
  | cons b l ih =>
    rw [assign_cons, assign_cons]
    by_cases hab : tag a = tag b
    · rw [h.wins a b s hab]
    · rw [List.map_cons, List.mem_cons] at ha
      rw [h.apart a b s hab, ih (ha.resolve_left hab)]

variable [DecidableEq τ]

lemma assign_lasts (h : Assignments apply tag) : assign apply (lasts tag l) s = assign apply l s := by
  induction l generalizing s with
  | nil => rfl
  | cons a l ih =>
    rw [lasts]
    split
    · rename_i ha
      rw [ih, assign_cons, h.assign_wins ha]
    · rw [assign_cons, assign_cons, ih]

/-- The last assignment of a tag has no effect behind the sequence. -/
lemma apply_assign (h : Assignments apply tag) (ha : a ∈ lasts tag l) :
    apply a (assign apply l s) = assign apply l s := by
  induction l generalizing s with
  | nil => cases ha
  | cons b l ih =>
    rw [lasts] at ha
    rw [assign_cons]
    split at ha
    · exact ih ha
    · rename_i hb
      rcases List.mem_cons.mp ha with rfl | ha
      · rw [h.assign_apart hb]
        exact h.wins a a _ rfl
      · exact ih ha

/-- A sequence of assignments leaves a state alone if and only if the last of each tag do. -/
theorem assign_eq_self_iff (h : Assignments apply tag) :
    assign apply l s = s ↔ ∀ a ∈ lasts tag l, apply a s = s := by
  constructor
  · intro heq a ha
    have := h.apply_assign (s := s) ha
    rwa [heq] at this
  · intro hlasts
    rw [← h.assign_lasts]
    exact assign_of_forall hlasts

end Assignments

end EspLinux.Lib
