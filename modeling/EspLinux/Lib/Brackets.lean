import Mathlib

/-!
# Matching brackets

In a list the element `o` opens a bracket and `c` closes one; every other element is neither.  A
list is `Balanced` if its brackets, read as steps up and down, are a Dyck word, and `Matched` if it
is a bracket, something balanced, and the bracket that closes it.

A scan that counts `o` up and `c` down and ends where the count is zero finds just the end of the
matched list (`closes_eq_some_iff`).  Read backwards, with `c` for the opening bracket, a matched
list is matched again, so that the scan backwards from its end finds its beginning.
-/

namespace EspLinux.Lib.Brackets

variable {α : Type*} [DecidableEq α] {o c : α} {s t m : List α}

/-! ## Levels -/

/-- How many brackets are open at the end. -/
def level (o c : α) (s : List α) : ℤ := s.count o - s.count c

@[simp] lemma level_nil : level o c [] = 0 := rfl

@[simp] lemma level_append (s t : List α) : level o c (s ++ t) = level o c s + level o c t := by
  simp only [level, List.count_append]
  push_cast
  ring

lemma level_cons (x : α) (s : List α) : level o c (x :: s) = level o c [x] + level o c s := by
  rw [← level_append, List.singleton_append]

lemma level_swap (s : List α) : level c o s = -level o c s := by
  simp only [level]
  ring

@[simp] lemma level_reverse (s : List α) : level o c s.reverse = level o c s := by
  simp only [level, List.count_reverse]

lemma level_open (h : o ≠ c) : level o c [o] = 1 := by
  simp [level, h]

lemma level_close (h : o ≠ c) : level o c [c] = -1 := by
  simp [level, h.symm]

lemma level_other {x : α} (ho : x ≠ o) (hc : x ≠ c) : level o c [x] = 0 := by
  simp [level, ho, hc]

/-- One element closes one bracket at most, and only `c` does. -/
lemma eq_close_of_level_neg {x : α} (h : level o c [x] < 0) : x = c := by
  by_contra hx
  have hcount : [x].count c = 0 := by rw [List.count_singleton, beq_false_of_ne hx]; rfl
  rw [level, hcount] at h
  omega

/-! ## Balanced lists -/

/-- The brackets of a list as steps up and down. -/
def steps (o c : α) (s : List α) : List DyckStep :=
  s.filterMap fun x => if x = o then some .U else if x = c then some .D else none

/-- Every bracket that is opened is closed, and none is closed that is not open. -/
def Balanced (o c : α) (s : List α) : Prop := ∃ w : DyckWord, w.toList = steps o c s

lemma count_steps_U (s : List α) : (steps o c s).count .U = s.count o := by
  induction s with
  | nil => rfl
  | cons x s ih =>
    rw [steps] at ih ⊢
    rw [List.filterMap_cons]
    by_cases ho : x = o
    · subst ho
      simp [ih]
    · by_cases hc : x = c
      · simp [hc, ih, hc ▸ ho]
      · simp [ho, hc, ih]

lemma count_steps_D (hne : o ≠ c) (s : List α) : (steps o c s).count .D = s.count c := by
  induction s with
  | nil => rfl
  | cons x s ih =>
    rw [steps] at ih ⊢
    rw [List.filterMap_cons]
    by_cases ho : x = o
    · subst ho
      simp [ih, hne]
    · by_cases hc : x = c
      · subst hc
        simp [ho, ih]
      · simp [ho, hc, ih]

/-- A list is balanced if nothing is open at its end, and never less than nothing. -/
theorem balanced_iff (hne : o ≠ c) :
    Balanced o c s ↔ level o c s = 0 ∧ ∀ t, t <+: s → 0 ≤ level o c t := by
  constructor
  · rintro ⟨w, hw⟩
    refine ⟨?_, fun t ht => ?_⟩
    · have hsame := w.count_U_eq_count_D
      rw [hw, count_steps_U, count_steps_D hne] at hsame
      rw [level, hsame, sub_self]
    · have htake : steps o c t = w.toList.take (steps o c t).length := by
        rw [hw]
        exact List.prefix_iff_eq_take.mp (ht.filterMap _)
      have hle := w.count_D_le_count_U (steps o c t).length
      rw [← htake, count_steps_U, count_steps_D hne] at hle
      rw [level]
      omega
  · rintro ⟨hzero, hpre⟩
    refine ⟨⟨steps o c s, ?_, fun i => ?_⟩, rfl⟩
    · rw [count_steps_U, count_steps_D hne]
      rw [level] at hzero
      omega
    · obtain ⟨t, ht, htake⟩ := List.prefix_filterMap_iff.mp (List.take_prefix i (steps o c s))
      have hcounts : (steps o c s).take i = steps o c t := htake
      have hle := hpre t ht
      rw [level] at hle
      rw [hcounts, count_steps_U, count_steps_D hne]
      omega

/-- Read backwards, with the brackets exchanged, a balanced list is balanced. -/
lemma Balanced.reverse (hne : o ≠ c) (h : Balanced o c s) : Balanced c o s.reverse := by
  rw [balanced_iff hne] at h
  rw [balanced_iff hne.symm]
  refine ⟨by rw [level_reverse, level_swap, h.1, neg_zero], fun t ht => ?_⟩
  obtain ⟨u, hu⟩ := ht
  have hs : s = u.reverse ++ t.reverse := by
    rw [← List.reverse_append, hu, List.reverse_reverse]
  have hrest := h.2 u.reverse ⟨t.reverse, hs.symm⟩
  have hall := h.1
  rw [hs, level_append, level_reverse, level_reverse] at hall
  rw [level_reverse] at hrest
  rw [level_swap]
  omega

/-! ## Matched lists -/

/-- A bracket, something balanced, and the bracket that closes it. -/
def Matched (o c : α) (s : List α) : Prop := ∃ m, Balanced o c m ∧ s = o :: m ++ [c]

lemma Matched.reverse (hne : o ≠ c) (h : Matched o c s) : Matched c o s.reverse := by
  obtain ⟨m, hm, rfl⟩ := h
  refine ⟨m.reverse, hm.reverse hne, ?_⟩
  simp

lemma matched_reverse (hne : o ≠ c) : Matched c o s.reverse ↔ Matched o c s := by
  refine ⟨fun h => ?_, fun h => h.reverse hne⟩
  have hback := h.reverse hne.symm
  rwa [List.reverse_reverse] at hback

/-- A list that begins with an opening bracket is matched if that bracket is open all the way to the
end, and not longer. -/
lemma matched_cons_iff (hne : o ≠ c) : Matched o c (o :: s) ↔
    1 + level o c s = 0 ∧ ∀ t, t <+: s → t ≠ s → 0 < 1 + level o c t := by
  constructor
  · rintro ⟨m, hm, hs⟩
    rw [List.cons_append, List.cons_inj_right] at hs
    subst hs
    rw [balanced_iff hne] at hm
    refine ⟨by rw [level_append, hm.1, level_close hne]; rfl, fun t ht hproper => ?_⟩
    have hle := hm.2 t ((List.prefix_concat_iff.mp ht).resolve_left hproper)
    omega
  · rintro ⟨hzero, hopen⟩
    have hnil : s ≠ [] := by
      rintro rfl
      rw [level_nil] at hzero
      omega
    obtain ⟨m, x, rfl⟩ : ∃ m x, s = m ++ [x] := ⟨_, _, (List.dropLast_append_getLast hnil).symm⟩
    have hmid := hopen m (List.prefix_append m [x]) (by simp)
    rw [level_append] at hzero
    obtain rfl := eq_close_of_level_neg (o := o) (c := c) (x := x) (by omega)
    rw [level_close hne] at hzero
    refine ⟨m, (balanced_iff hne).mpr ⟨by omega, fun t ht => ?_⟩, rfl⟩
    have hlt := hopen t (ht.trans (List.prefix_append m [x])) (by
      rintro rfl
      have hlen := ht.length_le
      rw [List.length_append, List.length_singleton] at hlen
      omega)
    omega

lemma Matched.balanced (hne : o ≠ c) (h : Matched o c s) : Balanced o c s := by
  obtain ⟨m, hm, rfl⟩ := h
  have hmatched : Matched o c (o :: (m ++ [c])) := ⟨m, hm, rfl⟩
  obtain ⟨hzero, hopen⟩ := (matched_cons_iff hne).mp hmatched
  refine (balanced_iff hne).mpr ⟨?_, fun t ht => ?_⟩
  · rw [List.cons_append, level_cons, level_open hne, hzero]
  · rw [List.cons_append] at ht
    rcases List.prefix_cons_iff.mp ht with rfl | ⟨u, rfl, hu⟩
    · exact le_refl _
    · rw [level_cons, level_open hne]
      by_cases hall : u = m ++ [c]
      · rw [hall, hzero]
      · exact (hopen u hu hall).le

/-- What a matched list begins with is not balanced. -/
lemma Matched.prefix_not_balanced (hne : o ≠ c) (h : Matched o c s) (ht : t <+: s) (hnil : t ≠ [])
    (hproper : t ≠ s) : ¬ Balanced o c t := by
  obtain ⟨m, hm, rfl⟩ := h
  have hmatched : Matched o c (o :: (m ++ [c])) := ⟨m, hm, rfl⟩
  rw [List.cons_append] at ht hproper
  rcases List.prefix_cons_iff.mp ht with rfl | ⟨u, rfl, hu⟩
  · exact absurd rfl hnil
  · have hopen := ((matched_cons_iff hne).mp hmatched).2 u hu fun h => hproper (h ▸ rfl)
    intro hb
    have hzero := ((balanced_iff hne).mp hb).1
    rw [level_cons, level_open hne] at hzero
    omega

/-- Nothing is balanced that ends with an opening bracket. -/
lemma not_balanced_concat (hne : o ≠ c) (s : List α) : ¬ Balanced o c (s ++ [o]) := by
  intro hb
  obtain ⟨hzero, hpre⟩ := (balanced_iff hne).mp hb
  have hle := hpre s (List.prefix_append s [o])
  rw [level_append, level_open hne] at hzero
  omega

/-! ## The scan -/

/-- The first place where the count, `n` before, comes to zero. -/
def closes (o c : α) : ℤ → List α → Option ℕ
  | _, [] => none
  | n, x :: s =>
    let n := if x = o then n + 1 else n
    let n := if x = c then n - 1 else n
    if n = 0 then some 0 else (closes o c n s).map (· + 1)

lemma closes_cons (hne : o ≠ c) (n : ℤ) (x : α) (s : List α) :
    closes o c n (x :: s) = if n + level o c [x] = 0 then some 0
      else (closes o c (n + level o c [x]) s).map (· + 1) := by
  have hcount : (if x = c then (if x = o then n + 1 else n) - 1 else if x = o then n + 1 else n) =
      n + level o c [x] := by
    by_cases ho : x = o
    · subst ho
      rw [if_neg hne, if_pos rfl, level_open hne]
    · by_cases hc : x = c
      · subst hc
        rw [if_pos rfl, if_neg ho, level_close hne]
        rfl
      · rw [if_neg hc, if_neg ho, level_other ho hc, add_zero]
  rw [closes, hcount]

lemma closes_eq_some {n : ℤ} {i : ℕ} (hne : o ≠ c) : closes o c n s = some i ↔
    i < s.length ∧ n + level o c (s.take (i + 1)) = 0 ∧
      ∀ j < i, n + level o c (s.take (j + 1)) ≠ 0 := by
  induction s generalizing n i with
  | nil => simp [closes]
  | cons x s ih =>
    rw [closes_cons hne]
    by_cases hz : n + level o c [x] = 0
    · rw [if_pos hz, Option.some_inj]
      constructor
      · rintro rfl
        exact ⟨by simp, by simpa using hz, fun j hj => absurd hj (Nat.not_lt_zero j)⟩
      · rintro ⟨-, -, hfirst⟩
        by_contra hi
        exact hfirst 0 (by omega) (by simpa using hz)
    · rw [if_neg hz]
      constructor
      · intro h
        obtain ⟨i', hi', rfl⟩ := Option.map_eq_some_iff.mp h
        obtain ⟨hlt, hzero, hfirst⟩ := ih.mp hi'
        refine ⟨by simpa using hlt, ?_, fun j hj => ?_⟩
        · rw [List.take_succ_cons, level_cons]
          omega
        · rw [List.take_succ_cons, level_cons]
          cases j with
          | zero => simpa using hz
          | succ j =>
            have hj' := hfirst j (by omega)
            omega
      · rintro ⟨hlt, hzero, hfirst⟩
        cases i with
        | zero =>
          rw [List.take_succ_cons, level_cons, List.take_zero, level_nil] at hzero
          omega
        | succ i =>
          refine Option.map_eq_some_iff.mpr
            ⟨i, ih.mpr ⟨by simpa using hlt, ?_, fun j hj => ?_⟩, rfl⟩
          · rw [List.take_succ_cons, level_cons] at hzero
            omega
          · have hj' := hfirst (j + 1) (by omega)
            rw [List.take_succ_cons, level_cons] at hj'
            omega

/-- A count that steps by one and does not come to zero stays positive. -/
lemma level_pos_of_ne {n : ℤ} {k : ℕ} (hn : 0 < n)
    (hne : ∀ j < k, n + level o c (s.take (j + 1)) ≠ 0) (hk : k ≤ s.length) :
    0 < n + level o c (s.take k) := by
  induction k with
  | zero => simpa using hn
  | succ k ih =>
    have hbefore := ih (fun j hj => hne j (by omega)) (by omega)
    have hat := hne k (by omega)
    have hlt : k < s.length := by omega
    have hstep : -1 ≤ level o c [s[k]] := by
      have hcount : [s[k]].count c ≤ 1 := List.count_le_length
      rw [level]
      omega
    rw [List.take_add_one, List.getElem?_eq_getElem hlt, Option.toList_some, level_append] at hat ⊢
    omega

/-- The scan behind an opening bracket finds where it is closed. -/
theorem closes_eq_some_iff {i : ℕ} (hne : o ≠ c) : closes o c 1 s = some i ↔
    i < s.length ∧ Matched o c (o :: s.take (i + 1)) := by
  rw [closes_eq_some hne]
  refine and_congr_right fun hlt => ?_
  rw [matched_cons_iff hne]
  refine and_congr_right fun hzero => ⟨fun hfirst t ht hproper => ?_, fun hopen j hj => ?_⟩
  · -- a proper prefix ends before the count comes to zero
    have hlen : t.length ≤ i := by
      have hle := ht.length_le
      have hlt' : t.length ≠ (s.take (i + 1)).length := fun h => hproper (ht.eq_of_length h)
      rw [List.length_take, min_eq_left (by omega)] at hle hlt'
      omega
    have htake : t = s.take t.length := by
      have h := List.prefix_iff_eq_take.mp ht
      rwa [List.take_take, min_eq_left (by omega)] at h
    rw [htake]
    exact level_pos_of_ne one_pos (fun j hj => hfirst j (by omega)) (by omega)
  · have hpos := hopen (s.take (j + 1)) (List.take_prefix_take_left (by omega)) (by
      intro h
      have hlen := congrArg List.length h
      rw [List.length_take, List.length_take] at hlen
      omega)
    exact hpos.ne'

end EspLinux.Lib.Brackets
