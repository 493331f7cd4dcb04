import Mathlib

/-!
# Replacing parts of a list

The first occurrence of a list in another one is replaced, or every one from left to right, going on
behind what has been replaced.
-/

namespace EspLinux.Lib

variable {α : Type*} {find by_ pre rest l : List α}

/-- There is no occurrence that begins in the first `n` positions. -/
def Absent (find l : List α) (n : ℕ) : Prop := ∀ i < n, ¬ find <+: l.drop i

lemma Absent.tail {c : α} {n : ℕ} (h : Absent find (c :: l) (n + 1)) : Absent find l n :=
  fun i hi => h (i + 1) (by omega)

lemma Absent.head {c : α} {n : ℕ} (h : Absent find (c :: l) (n + 1)) : ¬ find <+: c :: l :=
  h 0 (by omega)

/-- A list in which `find` occurs, cut at its first occurrence. -/
lemma exists_first {n : ℕ} (hn : find <+: l.drop n) (h : Absent find l n) (hle : n ≤ l.length) :
    ∃ pre rest, l = pre ++ find ++ rest ∧ pre.length = n ∧ Absent find (pre ++ find ++ rest) pre.length := by
  obtain ⟨rest, hrest⟩ := hn
  have hl : l = l.take n ++ find ++ rest := by
    rw [List.append_assoc, hrest, List.take_append_drop]
  have hlen : (l.take n).length = n := by
    rw [List.length_take]
    omega
  exact ⟨l.take n, rest, hl, hlen, by rw [← hl, hlen]; exact h⟩

variable [DecidableEq α]

/-- Replace the first occurrence. -/
def replaceFirst (find by_ : List α) : List α → List α
  | [] => []
  | c :: l =>
    if find <+: c :: l then by_ ++ (c :: l).drop find.length else c :: replaceFirst find by_ l

/-- Replace every occurrence behind the first `k` characters, which are left out. -/
def replaceFrom (find by_ : List α) : ℕ → List α → List α
  | _, [] => []
  | k + 1, _ :: l => replaceFrom find by_ k l
  | 0, c :: l =>
    if find <+: c :: l then by_ ++ replaceFrom find by_ (find.length - 1) l
    else c :: replaceFrom find by_ 0 l

/-- Replace every occurrence. -/
def replaceAll (find by_ l : List α) : List α := replaceFrom find by_ 0 l

lemma replaceFrom_drop (k : ℕ) : replaceFrom find by_ k l = replaceAll find by_ (l.drop k) := by
  induction k generalizing l with
  | zero => rfl
  | succ k ih =>
    cases l with
    | nil => rfl
    | cons c l => exact ih

/-- Nothing is replaced where nothing is found. -/
lemma replaceFirst_of_absent (h : Absent find l l.length) : replaceFirst find by_ l = l := by
  induction l with
  | nil => rfl
  | cons c l ih =>
    rw [replaceFirst, if_neg h.head, ih h.tail]

lemma replaceAll_of_absent (h : Absent find l l.length) : replaceAll find by_ l = l := by
  induction l with
  | nil => rfl
  | cons c l ih =>
    have hrest := ih h.tail
    rw [replaceAll] at hrest ⊢
    rw [replaceFrom, if_neg h.head, hrest]

/-- The first occurrence is replaced. -/
lemma replaceFirst_append (hfind : find ≠ []) (h : Absent find (pre ++ find ++ rest) pre.length) :
    replaceFirst find by_ (pre ++ find ++ rest) = pre ++ by_ ++ rest := by
  induction pre with
  | nil =>
    obtain ⟨c, l, rfl⟩ := List.exists_cons_of_ne_nil hfind
    have hhere : c :: l <+: c :: (l ++ rest) := List.prefix_append (c :: l) rest
    have hdrop : (c :: (l ++ rest)).drop (c :: l).length = rest := List.drop_left' rfl
    show replaceFirst (c :: l) by_ (c :: (l ++ rest)) = by_ ++ rest
    rw [replaceFirst, if_pos hhere, hdrop]
  | cons c pre ih =>
    have hhere : ¬ find <+: c :: (pre ++ find ++ rest) := h.head
    show replaceFirst find by_ (c :: (pre ++ find ++ rest)) = c :: (pre ++ by_ ++ rest)
    rw [replaceFirst, if_neg hhere, ih h.tail]

/-- The first occurrence is replaced, and then those behind it. -/
lemma replaceAll_append (hfind : find ≠ []) (h : Absent find (pre ++ find ++ rest) pre.length) :
    replaceAll find by_ (pre ++ find ++ rest) = pre ++ by_ ++ replaceAll find by_ rest := by
  induction pre with
  | nil =>
    obtain ⟨c, l, rfl⟩ := List.exists_cons_of_ne_nil hfind
    have hhere : c :: l <+: c :: (l ++ rest) := List.prefix_append (c :: l) rest
    have hdrop : (l ++ rest).drop l.length = rest := List.drop_left' rfl
    show replaceFrom (c :: l) by_ 0 (c :: (l ++ rest)) = by_ ++ replaceAll (c :: l) by_ rest
    rw [replaceFrom, if_pos hhere, replaceFrom_drop, List.length_cons, Nat.add_sub_cancel, hdrop]
  | cons c pre ih =>
    have hhere : ¬ find <+: c :: (pre ++ find ++ rest) := h.head
    have hrest := ih h.tail
    rw [replaceAll] at hrest
    show replaceFrom find by_ 0 (c :: (pre ++ find ++ rest)) = c :: (pre ++ by_ ++ _)
    rw [replaceFrom, if_neg hhere, hrest]


end EspLinux.Lib
