import Mathlib

/-!
# Buffers

A buffer is a map from positions to values, so that a program's stores and copies can be
written down without saying where the buffer ends.  `put` stores a list from a position on,
`slice` reads a number of values back.  Copies between overlapping parts of a buffer are
`put` of a `slice`: the values are read before any is stored.
-/

namespace EspLinux.Lib

variable {α : Type*}

/-- Store `l` from position `p` on. -/
def put (m : ℕ → α) (p : ℕ) (l : List α) : ℕ → α := fun n =>
  if p ≤ n then l.getD (n - p) (m n) else m n

/-- The `n` values from position `p` on. -/
def slice (m : ℕ → α) (p n : ℕ) : List α := (List.range n).map fun j => m (p + j)

variable {m m' : ℕ → α} {p q n k : ℕ} {l : List α}

@[simp] lemma length_slice : (slice m p n).length = n := by
  simp [slice]

@[simp] lemma slice_zero : slice m p 0 = [] := rfl

lemma getElem_slice {j : ℕ} (hj : j < (slice m p n).length) : (slice m p n)[j] = m (p + j) := by
  simp [slice]

lemma slice_add : slice m p (n + k) = slice m p n ++ slice m (p + n) k := by
  simp only [slice, List.range_add, List.map_append, List.map_map]
  congr 1
  refine List.map_congr_left fun j _ => ?_
  simp [Nat.add_assoc]

/-- Buffers that agree on the positions read give the same values. -/
lemma slice_congr (h : ∀ j, p ≤ j → j < p + n → m' j = m j) : slice m' p n = slice m p n := by
  refine List.map_congr_left fun j hj => ?_
  have hlt := List.mem_range.mp hj
  exact h (p + j) (by omega) (by omega)

lemma put_of_lt {j : ℕ} (hj : j < p) : put m p l j = m j :=
  if_neg (Nat.not_le.mpr hj)

lemma put_of_ge {j : ℕ} (hj : p + l.length ≤ j) : put m p l j = m j := by
  rw [put]
  split
  · rw [List.getD_eq_default]
    omega
  · rfl

lemma put_of_mem {j : ℕ} (hj : j < l.length) : put m p l (p + j) = l[j] := by
  rw [put, if_pos (by omega), Nat.add_sub_cancel_left, List.getD_eq_getElem _ _ hj]

@[simp] lemma put_nil : put m p [] = m := by
  funext j
  simp [put]

/-- What has been stored is read back. -/
@[simp] lemma slice_put_self : slice (put m p l) p l.length = l := by
  refine List.ext_getElem (by simp) fun j h₁ h₂ => ?_
  rw [getElem_slice, put_of_mem h₂]

lemma slice_put_before (h : p + n ≤ q) : slice (put m q l) p n = slice m p n :=
  slice_congr fun _ _ hj => put_of_lt (by omega)

/-- Storing behind the values that are read appends. -/
lemma slice_put_append :
    slice (put m (p + n) l) p (n + l.length) = slice m p n ++ l := by
  rw [slice_add, slice_put_before (le_refl _), slice_put_self]

lemma take_slice (h : n ≤ k) : (slice m p k).take n = slice m p n := by
  obtain ⟨d, rfl⟩ := Nat.exists_eq_add_of_le h
  rw [slice_add, List.take_append_of_le_length (by simp), List.take_of_length_le (by simp)]

lemma drop_slice (h : n ≤ k) : (slice m p k).drop n = slice m (p + n) (k - n) := by
  obtain ⟨d, rfl⟩ := Nat.exists_eq_add_of_le h
  rw [slice_add, List.drop_left' (by simp), Nat.add_sub_cancel_left]

end EspLinux.Lib
