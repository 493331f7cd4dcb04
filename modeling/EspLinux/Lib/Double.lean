import Mathlib

/-!
# Escaping by doubling

A protocol that gives one symbol a special meaning sends it twice where it stands for itself.
`double e l` is the list `l` with every `e` doubled.  Escaping goes symbol by symbol, so a stream
can be escaped piece by piece (`double_append`).
-/

namespace EspLinux.Lib

variable {α : Type*} [DecidableEq α]

/-- Every `e` twice. -/
def double (e : α) (l : List α) : List α := l.flatMap fun b => if b = e then [e, e] else [b]

variable {e b : α} {l l' : List α}

@[simp] lemma double_nil : double e [] = [] := rfl

lemma double_cons : double e (b :: l) = (if b = e then [e, e] else [b]) ++ double e l := rfl

@[simp] lemma double_cons_self : double e (e :: l) = e :: e :: double e l := by
  rw [double_cons, if_pos rfl]
  rfl

lemma double_cons_of_ne (h : b ≠ e) : double e (b :: l) = b :: double e l := by
  rw [double_cons, if_neg h]
  rfl

lemma double_append : double e (l ++ l') = double e l ++ double e l' := List.flatMap_append

/-- Each symbol can be escaped on its own. -/
lemma double_eq_flatten : double e l = (l.map fun b => double e [b]).flatten := by
  induction l with
  | nil => rfl
  | cons b l ih =>
    rw [List.map_cons, List.flatten_cons, ← ih, ← double_append]
    rfl

/-- Nothing is to be done without the symbol. -/
lemma double_of_notMem (h : e ∉ l) : double e l = l := by
  induction l with
  | nil => rfl
  | cons b l ih =>
    obtain ⟨hb, hl⟩ := not_or.mp (fun hmem => h (List.mem_cons.mpr hmem))
    rw [double_cons_of_ne (Ne.symm hb), ih hl]

/-- Every `e` makes the list longer by one. -/
lemma length_double : (double e l).length = l.length + l.count e := by
  induction l with
  | nil => rfl
  | cons b l ih =>
    rw [double_cons, List.length_append, ih, List.length_cons, List.count_cons]
    by_cases hb : b = e
    · simp only [hb, if_true, List.length_cons, List.length_nil, BEq.rfl]
      omega
    · simp only [hb, if_false, List.length_cons, List.length_nil, beq_iff_eq]
      omega

lemma length_le_double : l.length ≤ (double e l).length := by
  rw [length_double]
  exact Nat.le_add_right _ _

lemma length_double_le : (double e l).length ≤ 2 * l.length := by
  have := List.count_le_length (a := e) (l := l)
  rw [length_double]
  omega

/-- The list gets twice as long only if there is nothing else in it. -/
lemma length_double_lt (h : l ≠ List.replicate l.length e) :
    (double e l).length < 2 * l.length := by
  have hne : l.count e ≠ l.length := fun hcount =>
    h (List.eq_replicate_of_mem fun b hb => (List.count_eq_length.mp hcount b hb).symm)
  have := List.count_le_length (a := e) (l := l)
  rw [length_double]
  omega

end EspLinux.Lib
