import EspLinux.Lib.LinkedTree

/-!
# The order of a heap

The nodes of a complete binary tree, level by level, are a heap if no node comes before its parent
(`HeapOrdered`).  A node that is out of place is moved up as long as it comes before its parent, or
down as long as it comes after the smaller one of its children.  `UpTo l k` and `DownFrom l k` say
what is known of the order in the meantime, with the node number `k` out of place: an exchange moves
the place (`UpTo.swap`, `DownFrom.swap`), and when there is nothing left to exchange the tree is a
heap (`UpTo.done`, `DownFrom.done`).
-/

namespace EspLinux.Lib

variable {α κ : Type*} [DecidableEq α] [Preorder κ] {key : α → κ} {l : List α} {k c : ℕ}
  {a b : α}

/-- No node comes before its parent. -/
def HeapOrdered (key : α → κ) (l : List α) : Prop :=
  ∀ ⦃i a b⦄, nth l i = some a → nth l (i / 2) = some b → key b ≤ key a

/-- In order, but for the node `k` and its parent. -/
structure UpTo (key : α → κ) (l : List α) (k : ℕ) : Prop where
  except : ∀ ⦃i a b⦄, i ≠ k → nth l i = some a → nth l (i / 2) = some b → key b ≤ key a
  grand : ∀ ⦃i a b⦄, i / 2 = k → nth l i = some a → nth l (k / 2) = some b → key b ≤ key a

/-- In order, but for the node `k` and its children. -/
structure DownFrom (key : α → κ) (l : List α) (k : ℕ) : Prop where
  except : ∀ ⦃i a b⦄, i / 2 ≠ k → nth l i = some a → nth l (i / 2) = some b → key b ≤ key a
  grand : ∀ ⦃i a b⦄, i / 2 = k → nth l i = some a → nth l (k / 2) = some b → key b ≤ key a

namespace HeapOrdered

omit [DecidableEq α] in
/-- The root comes first. -/
theorem root_le (h : HeapOrdered key l) (hroot : nth l 1 = some b) (ha : a ∈ l) :
    key b ≤ key a := by
  obtain ⟨i, hi⟩ := exists_nth_of_mem ha
  induction i using Nat.strongRecOn generalizing a with
  | ind i ih =>
    have hrange := nth_range hi
    by_cases hone : i = 1
    · subst hone
      rw [Option.some.inj (hroot.symm.trans hi)]
    · obtain ⟨p, hp⟩ := exists_nth (l := l) (k := i / 2) (by omega) (by omega)
      exact (ih (i / 2) (by omega) (mem_of_nth hp) hp).trans (h hi hp)

omit [DecidableEq α] in
/-- A node added behind the last one is the only one that may be out of place. -/
lemma append (h : HeapOrdered key l) : UpTo key (l ++ [a]) (l.length + 1) := by
  constructor
  · intro i x y hne hi hp
    have hrange := nth_range hi
    rw [List.length_append, List.length_singleton] at hrange
    rw [nth_append_of_le (by omega)] at hi hp
    exact h hi hp
  · intro i x y hhalf hi _
    have hrange := nth_range hi
    rw [List.length_append, List.length_singleton] at hrange
    omega

omit [DecidableEq α] in
lemma of_append (h : HeapOrdered key (l ++ [a])) : HeapOrdered key l := by
  intro i x y hi hp
  have hrange := nth_range hi
  rw [← nth_append_of_le (a := a) (by omega)] at hi hp
  exact h hi hp

/-- A new node in the place of another one, before the parent: it is to be moved up. -/
lemma replace_up (h : HeapOrdered key l) (hnodup : l.Nodup) (hk : nth l k = some a) (hb : b ∉ l)
    {p : α} (hp : nth l (k / 2) = some p) (hlt : key b < key p) :
    UpTo key (l.map (Equiv.swap a b)) k := by
  have hpos := (nth_range hp).1
  constructor
  · intro i x y hne hi hy
    rw [nth_map_swap_new hnodup hk hb, if_neg hne] at hi
    rw [nth_map_swap_new hnodup hk hb] at hy
    split at hy
    · rename_i hhalf
      cases hy
      exact hlt.le.trans ((h hk hp).trans (h hi (by rw [hhalf, hk])))
    · exact h hi hy
  · intro i x y hhalf hi hy
    rw [nth_map_swap_new hnodup hk hb, if_neg (by omega)] at hi hy
    exact (h hk hy).trans (h hi (by rw [hhalf, hk]))

/-- A new node in the place of another one, not before the parent: it is to be moved down. -/
lemma replace_down (h : HeapOrdered key l) (hnodup : l.Nodup) (hk : nth l k = some a) (hb : b ∉ l)
    (hle : ∀ p, nth l (k / 2) = some p → key p ≤ key b) :
    DownFrom key (l.map (Equiv.swap a b)) k := by
  have hpos := (nth_range hk).1
  constructor
  · intro i x y hne hi hy
    rw [nth_map_swap_new hnodup hk hb, if_neg hne] at hy
    rw [nth_map_swap_new hnodup hk hb] at hi
    split at hi
    · rename_i heq
      cases hi
      rw [heq] at hy
      exact hle y hy
    · exact h hi hy
  · intro i x y hhalf hi hy
    rw [nth_map_swap_new hnodup hk hb, if_neg (by omega)] at hi hy
    exact (h hk hy).trans (h hi (by rw [hhalf, hk]))

end HeapOrdered

namespace UpTo

omit [DecidableEq α] in
/-- The node is not before its parent any more. -/
lemma done (h : UpTo key l k) (hk : nth l k = some a)
    (hle : ∀ p, nth l (k / 2) = some p → key p ≤ key a) : HeapOrdered key l := by
  intro i x y hi hy
  by_cases heq : i = k
  · subst heq
    cases hk.symm.trans hi
    exact hle y hy
  · exact h.except heq hi hy

/-- The node is exchanged with its parent. -/
lemma swap (h : UpTo key l k) (hnodup : l.Nodup) (hk : nth l k = some a)
    (hp : nth l (k / 2) = some b) (hlt : key a < key b) :
    UpTo key (l.map (Equiv.swap a b)) (k / 2) := by
  have hpos := (nth_range hp).1
  constructor
  · intro i x y hne hi hy
    rw [nth_map_swap hnodup hk hp] at hi hy
    rw [if_neg hne] at hi
    split at hi
    · rename_i heq
      cases hi
      rw [if_neg (by omega), if_pos (by omega)] at hy
      cases hy
      exact hlt.le
    · rename_i hik
      split at hy
      · rename_i hhalf
        cases hy
        exact h.grand hhalf hi hp
      · split at hy
        · rename_i hhalf
          cases hy
          exact hlt.le.trans (h.except hik hi (by rw [hhalf, hp]))
        · exact h.except hik hi hy
  · intro i x y hhalf hi hy
    rw [nth_map_swap hnodup hk hp] at hi hy
    rw [if_neg (by omega), if_neg (by omega)] at hy
    have hupper : key y ≤ key b := h.except (by omega) hp hy
    split at hi
    · cases hi
      exact hupper
    · rename_i hik
      rw [if_neg (by omega)] at hi
      exact hupper.trans (h.except hik hi (by rw [hhalf, hp]))

end UpTo

namespace DownFrom

omit [DecidableEq α] in
/-- The node is not after a child any more. -/
lemma done (h : DownFrom key l k) (hk : nth l k = some a)
    (hle : ∀ i x, i / 2 = k → nth l i = some x → key a ≤ key x) : HeapOrdered key l := by
  intro i x y hi hy
  by_cases heq : i / 2 = k
  · rw [heq] at hy
    cases hk.symm.trans hy
    exact hle i x heq hi
  · exact h.except heq hi hy

/-- The node is exchanged with the smaller one of its children. -/
lemma swap (h : DownFrom key l k) (hnodup : l.Nodup) (hk : nth l k = some a)
    (hc : nth l c = some b) (hhalf : c / 2 = k)
    (hleast : ∀ i x, i / 2 = k → nth l i = some x → key b ≤ key x) (hle : key b ≤ key a) :
    DownFrom key (l.map (Equiv.swap a b)) c := by
  have hpos := (nth_range hk).1
  constructor
  · intro i x y hne hi hy
    rw [nth_map_swap hnodup hk hc] at hi hy
    rw [if_neg hne] at hy
    split at hi
    · rename_i heq
      cases hi
      rw [if_neg (by omega)] at hy
      exact h.grand hhalf hc (by rw [← heq, hy])
    · rename_i hik
      split at hi
      · rename_i heq
        cases hi
        rw [if_pos (by omega)] at hy
        cases hy
        exact hle
      · split at hy
        · rename_i hik'
          cases hy
          exact hleast i x hik' hi
        · rename_i hik'
          exact h.except hik' hi hy
  · intro i x y hic hi hy
    rw [nth_map_swap hnodup hk hc] at hi hy
    rw [if_neg (by omega), if_neg (by omega)] at hi
    rw [if_pos hhalf] at hy
    cases hy
    exact h.except (by omega) hi (by rw [hic, hc])

end DownFrom

end EspLinux.Lib
