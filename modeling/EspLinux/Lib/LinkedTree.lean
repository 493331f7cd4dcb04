import Mathlib

/-!
# Complete binary trees of linked nodes

The nodes of a tree are linked by three pointers each: to the two children and to the parent.  A
list says which nodes the tree has, level by level.  `Complete t l` says that the links are those of
the complete binary tree with the nodes `l` in level order: the children of the node with the number
`k` are the ones with the numbers `2 * k` and `2 * k + 1`, counted from one (`nth`).

Two facts make it easy to work with such a tree.  A permutation of the nodes acts on the links and
on the list alike (`Complete.map`), so that whoever exchanges two nodes only has to show that the
links have become those of the permuted tree.  And going up as long as one is a child on one side,
over to the sibling, and down again on the other side, leads from the last node to the place behind
it and to the node before it (`climb_spec`, `descend_spec`).
-/

namespace EspLinux.Lib

variable {α β : Type*}

/-! ## Numbered elements -/

/-- The element of a list with the number `k`, counted from one. -/
def nth (l : List α) : ℕ → Option α
  | 0 => none
  | k + 1 => l[k]?

section Nth

variable {l : List α} {k i j : ℕ} {a b : α}

@[simp] lemma nth_zero : nth l 0 = none := rfl

@[simp] lemma nth_succ : nth l (k + 1) = l[k]? := rfl

lemma nth_range (h : nth l k = some a) : 1 ≤ k ∧ k ≤ l.length := by
  cases k with
  | zero => cases h
  | succ k =>
    obtain ⟨hk, -⟩ := List.getElem?_eq_some_iff.mp h
    omega

lemma nth_eq_none (h : k = 0 ∨ l.length < k) : nth l k = none := by
  cases k with
  | zero => rfl
  | succ k => exact List.getElem?_eq_none (by omega)

lemma exists_nth (hpos : 1 ≤ k) (hle : k ≤ l.length) : ∃ a, nth l k = some a := by
  obtain ⟨k, rfl⟩ := Nat.exists_eq_add_of_le' hpos
  exact ⟨_, List.getElem?_eq_getElem (by omega)⟩

lemma mem_of_nth (h : nth l k = some a) : a ∈ l := by
  cases k with
  | zero => cases h
  | succ k => exact List.mem_of_getElem? h

lemma exists_nth_of_mem (h : a ∈ l) : ∃ k, nth l k = some a := by
  obtain ⟨k, hk, rfl⟩ := List.getElem_of_mem h
  exact ⟨k + 1, List.getElem?_eq_getElem hk⟩

/-- Without repetitions an element has one number. -/
lemma nth_inj (hnodup : l.Nodup) (hi : nth l i = some a) (hj : nth l j = some a) : i = j := by
  obtain ⟨i, rfl⟩ := Nat.exists_eq_add_of_le' (nth_range hi).1
  obtain ⟨j, rfl⟩ := Nat.exists_eq_add_of_le' (nth_range hj).1
  rw [nth_succ] at hi hj
  obtain ⟨hlt, -⟩ := List.getElem?_eq_some_iff.mp hi
  rw [(List.getElem?_inj hlt hnodup).mp (hi.trans hj.symm)]

lemma nth_map (f : α → β) : nth (l.map f) k = (nth l k).map f := by
  cases k with
  | zero => rfl
  | succ k => exact List.getElem?_map

lemma nth_append_of_le (hle : k ≤ l.length) : nth (l ++ [a]) k = nth l k := by
  cases k with
  | zero => rfl
  | succ k => exact List.getElem?_append_left hle

lemma nth_append_length : nth (l ++ [a]) (l.length + 1) = some a := List.getElem?_concat_length

lemma nth_length : nth l l.length = l.getLast? := by
  rw [List.getLast?_eq_getElem?]
  cases l with
  | nil => rfl
  | cons a l => rfl

lemma nth_one : nth l 1 = l.head? := List.head?_eq_getElem?.symm

variable [DecidableEq α]

/-- Two elements exchanged. -/
lemma nth_map_swap (hnodup : l.Nodup) (hi : nth l i = some a) (hj : nth l j = some b) :
    nth (l.map (Equiv.swap a b)) k =
      if k = i then some b else if k = j then some a else nth l k := by
  rw [nth_map]
  split
  · rename_i heq
    rw [heq, hi, Option.map_some, Equiv.swap_apply_left]
  · rename_i hne
    split
    · rename_i heq
      rw [heq, hj, Option.map_some, Equiv.swap_apply_right]
    · rename_i hne'
      cases hk : nth l k with
      | none => rfl
      | some c =>
        have hca : c ≠ a := by
          rintro rfl
          exact hne (nth_inj hnodup hk hi)
        have hcb : c ≠ b := by
          rintro rfl
          exact hne' (nth_inj hnodup hk hj)
        rw [Option.map_some, Equiv.swap_apply_of_ne_of_ne hca hcb]

/-- An element replaced by a new one. -/
lemma nth_map_swap_new (hnodup : l.Nodup) (hi : nth l i = some a) (hb : b ∉ l) :
    nth (l.map (Equiv.swap a b)) k = if k = i then some b else nth l k := by
  rw [nth_map]
  split
  · rename_i heq
    rw [heq, hi, Option.map_some, Equiv.swap_apply_left]
  · rename_i hne
    cases hk : nth l k with
    | none => rfl
    | some c =>
      have hca : c ≠ a := by
        rintro rfl
        exact hne (nth_inj hnodup hk hi)
      have hcb : c ≠ b := by
        rintro rfl
        exact hb (mem_of_nth hk)
      rw [Option.map_some, Equiv.swap_apply_of_ne_of_ne hca hcb]

lemma swap_involutive (a b : α) : Function.Involutive (Equiv.swap a b) := fun c => by
  rw [← Equiv.trans_apply, Equiv.swap_swap, Equiv.refl_apply]

/-- Exchanging two elements, or one for a new one, makes no difference to the others. -/
lemma perm_map_swap (hnodup : l.Nodup) (ha : a ∈ l) (hb : b ∈ l) :
    (l.map (Equiv.swap a b)).Perm l := by
  refine (List.perm_ext_iff_of_nodup (hnodup.map (Equiv.injective _)) hnodup).mpr fun c => ?_
  rw [List.mem_map_of_involutive (swap_involutive a b), Equiv.swap_apply_def]
  split
  · rename_i heq
    exact iff_of_true hb (heq ▸ ha)
  · split
    · rename_i heq
      exact iff_of_true ha (heq ▸ hb)
    · rfl

lemma perm_map_swap_new (hnodup : l.Nodup) (ha : a ∈ l) (hb : b ∉ l) :
    (l.map (Equiv.swap a b)).Perm ((l ++ [b]).erase a) := by
  have hne : b ≠ a := fun heq => hb (heq ▸ ha)
  have hnodup' : (l ++ [b]).Nodup := by
    refine List.nodup_append.mpr ⟨hnodup, List.nodup_singleton b, ?_⟩
    rintro c hc d hd rfl
    exact hb (List.mem_singleton.mp hd ▸ hc)
  refine (List.perm_ext_iff_of_nodup (hnodup.map (Equiv.injective _)) (hnodup'.erase a)).mpr
    fun c => ?_
  rw [List.mem_map_of_involutive (swap_involutive a b), hnodup'.mem_erase_iff,
    List.mem_append, List.mem_singleton, Equiv.swap_apply_def]
  split
  · rename_i heq
    exact iff_of_false hb fun h => h.1 heq
  · rename_i hca
    split
    · rename_i heq
      exact iff_of_true ha ⟨hca, .inr heq⟩
    · rename_i hcb
      exact ⟨fun hc => ⟨hca, .inl hc⟩, fun h => h.2.resolve_right hcb⟩

end Nth

/-! ## Links -/

/-- The links of the nodes. -/
structure Links (α : Type*) where
  left : α → Option α
  right : α → Option α
  up : α → Option α

/-- A side of a node. -/
inductive Side
  | left | right
  deriving DecidableEq

namespace Side

/-- What the number of a child on this side is more than twice that of its parent. -/
def bit : Side → ℕ
  | left => 0
  | right => 1

def other : Side → Side
  | left => right
  | right => left

lemma bit_le (d : Side) : d.bit ≤ 1 := by cases d <;> simp [bit]

end Side

namespace Links

/-- The child on a side. -/
def child (t : Links α) : Side → α → Option α
  | .left => t.left
  | .right => t.right

end Links

/-- The links are those of the complete binary tree with the nodes `l`, level by level. -/
structure Complete (t : Links α) (l : List α) : Prop where
  nodup : l.Nodup
  left : ∀ {k a}, nth l k = some a → t.left a = nth l (2 * k)
  right : ∀ {k a}, nth l k = some a → t.right a = nth l (2 * k + 1)
  up : ∀ {k a}, nth l k = some a → t.up a = nth l (k / 2)

namespace Complete

variable {t t' : Links α} {l : List α} {k i j : ℕ} {a b c : α}

lemma child (h : Complete t l) (d : Side) (hk : nth l k = some a) :
    t.child d a = nth l (2 * k + d.bit) := by
  cases d with
  | left => exact h.left hk
  | right => exact h.right hk

lemma inj (h : Complete t l) (hi : nth l i = some a) (hj : nth l j = some a) : i = j :=
  nth_inj h.nodup hi hj

/-- The parent of a child. -/
lemma up_of_left (h : Complete t l) (ha : a ∈ l) (hb : t.left a = some b) : t.up b = some a := by
  obtain ⟨k, hk⟩ := exists_nth_of_mem ha
  rw [h.left hk] at hb
  rw [h.up hb, Nat.mul_div_cancel_left k (by omega), hk]

lemma up_of_right (h : Complete t l) (ha : a ∈ l) (hb : t.right a = some b) :
    t.up b = some a := by
  obtain ⟨k, hk⟩ := exists_nth_of_mem ha
  rw [h.right hk] at hb
  rw [h.up hb, show (2 * k + 1) / 2 = k by omega, hk]

/-- A child of the parent. -/
lemma child_of_up (h : Complete t l) (ha : a ∈ l) (hb : t.up a = some b) :
    t.left b = some a ∨ t.right b = some a := by
  obtain ⟨k, hk⟩ := exists_nth_of_mem ha
  rw [h.up hk] at hb
  rw [h.left hb, h.right hb]
  rcases Nat.mod_two_eq_zero_or_one k with heven | hodd
  · left
    rw [show 2 * (k / 2) = k by omega, hk]
  · right
    rw [show 2 * (k / 2) + 1 = k by omega, hk]

/-- The two children differ. -/
lemma left_ne_right (h : Complete t l) (ha : a ∈ l) (hb : t.left a = some b) :
    t.right a ≠ some b := by
  obtain ⟨k, hk⟩ := exists_nth_of_mem ha
  rw [h.left hk] at hb
  rw [h.right hk]
  intro hr
  have := h.inj hb hr
  omega

/-- The links stay among the nodes. -/
lemma mem_of_left (h : Complete t l) (ha : a ∈ l) (hb : t.left a = some b) : b ∈ l := by
  obtain ⟨k, hk⟩ := exists_nth_of_mem ha
  rw [h.left hk] at hb
  exact mem_of_nth hb

lemma mem_of_right (h : Complete t l) (ha : a ∈ l) (hb : t.right a = some b) : b ∈ l := by
  obtain ⟨k, hk⟩ := exists_nth_of_mem ha
  rw [h.right hk] at hb
  exact mem_of_nth hb

lemma mem_of_up (h : Complete t l) (ha : a ∈ l) (hb : t.up a = some b) : b ∈ l := by
  obtain ⟨k, hk⟩ := exists_nth_of_mem ha
  rw [h.up hk] at hb
  exact mem_of_nth hb

/-- A node is neither its own parent nor the parent of its parent. -/
lemma up_ne_self (h : Complete t l) (ha : a ∈ l) : t.up a ≠ some a := by
  obtain ⟨k, hk⟩ := exists_nth_of_mem ha
  rw [h.up hk]
  intro hu
  have := h.inj hk hu
  have := (nth_range hk).1
  omega

lemma up_up_ne_self (h : Complete t l) (ha : a ∈ l) (hb : t.up a = some b) :
    t.up b ≠ some a := by
  obtain ⟨k, hk⟩ := exists_nth_of_mem ha
  rw [h.up hk] at hb
  rw [h.up hb]
  intro hu
  have := h.inj hk hu
  have := (nth_range hk).1
  omega

/-- A permutation of the nodes acts on the links and on the list alike. -/
theorem map (h : Complete t l) (σ : Equiv.Perm α)
    (hleft : ∀ a ∈ l, t'.left (σ a) = (t.left a).map σ)
    (hright : ∀ a ∈ l, t'.right (σ a) = (t.right a).map σ)
    (hup : ∀ a ∈ l, t'.up (σ a) = (t.up a).map σ) : Complete t' (l.map σ) := by
  have hback : ∀ {k b}, nth (l.map σ) k = some b → ∃ a, nth l k = some a ∧ σ a = b := by
    intro k b hk
    rw [nth_map] at hk
    exact Option.map_eq_some_iff.mp hk
  refine ⟨h.nodup.map σ.injective, ?_, ?_, ?_⟩
  · intro k b hk
    obtain ⟨a, ha, rfl⟩ := hback hk
    rw [hleft a (mem_of_nth ha), h.left ha, nth_map]
  · intro k b hk
    obtain ⟨a, ha, rfl⟩ := hback hk
    rw [hright a (mem_of_nth ha), h.right ha, nth_map]
  · intro k b hk
    obtain ⟨a, ha, rfl⟩ := hback hk
    rw [hup a (mem_of_nth ha), h.up ha, nth_map]

/-- Only the links of the nodes matter. -/
lemma congr (h : Complete t l) (hleft : ∀ a ∈ l, t'.left a = t.left a)
    (hright : ∀ a ∈ l, t'.right a = t.right a) (hup : ∀ a ∈ l, t'.up a = t.up a) :
    Complete t' l where
  nodup := h.nodup
  left hk := by rw [hleft _ (mem_of_nth hk), h.left hk]
  right hk := by rw [hright _ (mem_of_nth hk), h.right hk]
  up hk := by rw [hup _ (mem_of_nth hk), h.up hk]

/-- A node is added behind the last one. -/
lemma append (h : Complete t l) (ha : a ∉ l)
    (hleft : ∀ k b, nth l k = some b →
      t'.left b = if 2 * k = l.length + 1 then some a else t.left b)
    (hright : ∀ k b, nth l k = some b →
      t'.right b = if 2 * k + 1 = l.length + 1 then some a else t.right b)
    (hup : ∀ b ∈ l, t'.up b = t.up b) (hleft' : t'.left a = none) (hright' : t'.right a = none)
    (hup' : t'.up a = nth l ((l.length + 1) / 2)) : Complete t' (l ++ [a]) := by
  have hcases : ∀ {k b}, nth (l ++ [a]) k = some b →
      (k ≤ l.length ∧ nth l k = some b) ∨ k = l.length + 1 ∧ b = a := by
    intro k b hk
    have hrange := nth_range hk
    rw [List.length_append, List.length_singleton] at hrange
    by_cases hle : k ≤ l.length
    · rw [nth_append_of_le hle] at hk
      exact .inl ⟨hle, hk⟩
    · obtain rfl : k = l.length + 1 := by omega
      rw [nth_append_length] at hk
      exact .inr ⟨rfl, (Option.some.inj hk).symm⟩
  have hlink : ∀ {m o}, (o = if m = l.length + 1 then some a else nth l m) →
      o = nth (l ++ [a]) m := by
    rintro m _ rfl
    by_cases heq : m = l.length + 1
    · rw [if_pos heq, heq, nth_append_length]
    · rw [if_neg heq]
      by_cases hle : m ≤ l.length
      · rw [nth_append_of_le hle]
      · rw [nth_eq_none (.inr (by omega)),
          nth_eq_none (.inr (by rw [List.length_append, List.length_singleton]; omega))]
  refine ⟨List.nodup_append.mpr ⟨h.nodup, List.nodup_singleton a, ?_⟩, ?_, ?_, ?_⟩
  · rintro b hb c hc rfl
    exact ha (List.mem_singleton.mp hc ▸ hb)
  · intro k b hk
    rcases hcases hk with ⟨-, hk⟩ | ⟨rfl, rfl⟩
    · exact hlink (by rw [hleft k b hk, h.left hk])
    · rw [hleft', nth_eq_none (.inr (by rw [List.length_append, List.length_singleton]; omega))]
  · intro k b hk
    rcases hcases hk with ⟨-, hk⟩ | ⟨rfl, rfl⟩
    · exact hlink (by rw [hright k b hk, h.right hk])
    · rw [hright', nth_eq_none (.inr (by rw [List.length_append, List.length_singleton]; omega))]
  · intro k b hk
    rcases hcases hk with ⟨hle, hk⟩ | ⟨rfl, rfl⟩
    · rw [hup b (mem_of_nth hk), h.up hk, nth_append_of_le (by omega)]
    · rw [hup']
      cases l with
      | nil => simp
      | cons b l => rw [nth_append_of_le (by rw [List.length_cons]; omega)]

/-- The last node is taken away. -/
lemma of_append (h : Complete t (l ++ [a]))
    (hleft : ∀ k b, nth l k = some b →
      t'.left b = if 2 * k = l.length + 1 then none else t.left b)
    (hright : ∀ k b, nth l k = some b →
      t'.right b = if 2 * k + 1 = l.length + 1 then none else t.right b)
    (hup : ∀ b ∈ l, t'.up b = t.up b) : Complete t' l := by
  have hold : ∀ {k b}, nth l k = some b → nth (l ++ [a]) k = some b := by
    intro k b hk
    rw [nth_append_of_le (nth_range hk).2, hk]
  have hlink : ∀ {m o}, (o = if m = l.length + 1 then none else nth (l ++ [a]) m) →
      o = nth l m := by
    rintro m _ rfl
    by_cases heq : m = l.length + 1
    · rw [if_pos heq, nth_eq_none (.inr (by omega))]
    · rw [if_neg heq]
      by_cases hle : m ≤ l.length
      · rw [nth_append_of_le hle]
      · rw [nth_eq_none (l := l) (.inr (by omega)),
          nth_eq_none (.inr (by rw [List.length_append, List.length_singleton]; omega))]
  refine ⟨(List.nodup_append.mp h.nodup).1, ?_, ?_, ?_⟩
  · intro k b hk
    exact hlink (by rw [hleft k b hk, h.left (hold hk)])
  · intro k b hk
    exact hlink (by rw [hright k b hk, h.right (hold hk)])
  · intro k b hk
    have := (nth_range hk).2
    rw [hup b (mem_of_nth hk), h.up (hold hk), nth_append_of_le (by omega)]

end Complete

/-- What the links of a tree have to do with each other, seen from one node. -/
structure Linked (t : Links α) (l : List α) : Prop where
  left : ∀ a ∈ l, ∀ b, t.left a = some b → b ∈ l ∧ t.up b = some a ∧ t.right a ≠ some b
  right : ∀ a ∈ l, ∀ b, t.right a = some b → b ∈ l ∧ t.up b = some a ∧ t.left a ≠ some b
  up : ∀ a ∈ l, ∀ b, t.up a = some b →
    b ∈ l ∧ a ≠ b ∧ t.up b ≠ some a ∧ (t.left b = some a ∨ t.right b = some a)

lemma Complete.linked {t : Links α} {l : List α} (h : Complete t l) : Linked t l where
  left _ ha _ hb := ⟨h.mem_of_left ha hb, h.up_of_left ha hb, h.left_ne_right ha hb⟩
  right _ ha _ hb :=
    ⟨h.mem_of_right ha hb, h.up_of_right ha hb, fun hl => h.left_ne_right ha hl hb⟩
  up _ ha _ hb :=
    ⟨h.mem_of_up ha hb, fun heq => h.up_ne_self ha (heq ▸ hb), h.up_up_ne_self ha hb,
      h.child_of_up ha hb⟩

/-! ## Walks -/

/-- Go up as long as the node is a child on the side `d`, and count the levels; at most `n` steps.
-/
def climb [DecidableEq α] (t : Links α) (d : Side) : ℕ → α → ℕ → Option (α × ℕ)
  | 0, _, _ => none
  | n + 1, curr, upcount =>
    match t.up curr with
    | some u =>
      if t.child d u = some curr then climb t d n u (upcount + 1) else some (curr, upcount)
    | none => some (curr, upcount)

/-- Go down on the side `d`, so many levels. -/
def descend (t : Links α) (d : Side) : ℕ → α → Option α
  | 0, curr => some curr
  | upcount + 1, curr => (t.child d curr).bind (descend t d upcount)

section Walks

variable [DecidableEq α] {t : Links α} {l : List α} {d : Side} {k n u v : ℕ} {a : α}

/-- Where a climb ends, and what number it has started from. -/
lemma climb_spec (h : Complete t l) (hk : nth l k = some a) (hn : k ≤ n) :
    ∃ c j v, climb t d n a u = some (c, u + v) ∧ nth l j = some c ∧
      k + d.bit = (j + d.bit) * 2 ^ v ∧ (j = 1 ∨ 2 ≤ j ∧ j % 2 ≠ d.bit) := by
  induction n generalizing k a u with
  | zero => exact absurd (nth_range hk).1 (by omega)
  | succ n ih =>
    have hpos := (nth_range hk).1
    by_cases hone : k = 1
    · subst hone
      refine ⟨a, 1, 0, ?_, hk, by ring, .inl rfl⟩
      rw [climb, h.up hk]
      rfl
    · obtain ⟨b, hb⟩ := @exists_nth _ l (k / 2) (by omega) (by have := (nth_range hk).2; omega)
      rw [climb, h.up hk, hb]
      by_cases hside : k % 2 = d.bit
      · have hchild : t.child d b = some a := by
          rw [h.child d hb, ← hside, Nat.div_add_mod, hk]
        obtain ⟨c, j, v, hrun, hj, heq, hend⟩ := ih (u := u + 1) hb (by omega)
        refine ⟨c, j, v + 1, ?_, hj, ?_, hend⟩
        · simp only [hchild, if_true]
          rw [hrun, Nat.add_assoc, Nat.add_comm 1 v]
        · have hhalf : k + d.bit = 2 * (k / 2 + d.bit) := by omega
          rw [hhalf, heq]
          ring
      · have hchild : t.child d b ≠ some a := by
          rw [h.child d hb]
          intro heq
          have := h.inj hk heq
          have := d.bit_le
          omega
        refine ⟨a, k, 0, ?_, hk, by ring, .inr ⟨by omega, hside⟩⟩
        simp only [hchild, if_false, Nat.add_zero]

omit [DecidableEq α] in
/-- Where a descent ends. -/
lemma descend_spec (h : Complete t l) (hk : nth l k = some a) {m : ℕ}
    (hm : m + d.bit = (k + d.bit) * 2 ^ v) (hle : m ≤ l.length) :
    descend t d v a = nth l m := by
  induction v generalizing k a with
  | zero =>
    rw [descend, ← hk]
    congr 1
    omega
  | succ v ih =>
    have hpow : 1 ≤ 2 ^ v := Nat.one_le_two_pow
    have hdouble : m + d.bit = (2 * k + d.bit + d.bit) * 2 ^ v := by
      rw [hm]
      ring
    have hchild : 2 * k + d.bit ≤ l.length := by
      have : 2 * k + d.bit + d.bit ≤ (2 * k + d.bit + d.bit) * 2 ^ v :=
        Nat.le_mul_of_pos_right _ hpow
      omega
    obtain ⟨b, hb⟩ := exists_nth (l := l) (k := 2 * k + d.bit)
      (by have := (nth_range hk).1; omega) hchild
    rw [descend, h.child d hk, hb, Option.bind_some]
    exact ih hb hdouble

end Walks

end EspLinux.Lib
