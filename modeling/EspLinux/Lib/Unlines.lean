import Mathlib

/-!
# Lines of a list

A list of lines, one after another, each ended by a separator.  `before` is how much of the list lies
before a line; the list is what is before a line, the line, and what is behind it.
-/

namespace EspLinux.Lib

variable {α : Type*} {sep : α} {ls : List (List α)} {l : List α} {k : ℕ}

/-- The lines, each ended by `sep`. -/
def unlines (sep : α) (ls : List (List α)) : List α := ls.flatMap (· ++ [sep])

/-- How much lies before line `k`. -/
def before (sep : α) (ls : List (List α)) (k : ℕ) : ℕ := (unlines sep (ls.take k)).length

@[simp] lemma unlines_nil : unlines sep [] = [] := rfl

@[simp] lemma unlines_cons : unlines sep (l :: ls) = l ++ sep :: unlines sep ls := by
  simp [unlines]

@[simp] lemma unlines_append (ls ls' : List (List α)) :
    unlines sep (ls ++ ls') = unlines sep ls ++ unlines sep ls' := by
  simp [unlines]

@[simp] lemma before_zero : before sep ls 0 = 0 := by simp [before]

lemma before_all (h : ls.length ≤ k) : before sep ls k = (unlines sep ls).length := by
  rw [before, List.take_of_length_le h]

/-- The next line begins behind this line and its separator. -/
lemma before_succ (h : k < ls.length) : before sep ls (k + 1) = before sep ls k + ls[k].length + 1 := by
  rw [before, before, List.take_succ_eq_append_getElem h, unlines_append]
  simp [Nat.add_assoc]

lemma before_mono {j : ℕ} (h : j ≤ k) : before sep ls j ≤ before sep ls k := by
  induction k with
  | zero =>
    rw [Nat.le_zero.mp h]
  | succ k ih =>
    obtain rfl | hlt := h.eq_or_lt
    · exact le_refl _
    · refine (ih (by omega)).trans ?_
      by_cases hk : k < ls.length
      · rw [before_succ hk]
        omega
      · rw [before_all (by omega), before_all (by omega)]

lemma before_le (k : ℕ) : before sep ls k ≤ (unlines sep ls).length := by
  obtain h | h := Nat.le_total ls.length k
  · exact (before_all h).le
  · rw [← before_all (le_refl ls.length)]
    exact before_mono h

/-- What lies before line `k` are the lines before it. -/
lemma take_unlines (k : ℕ) : (unlines sep ls).take (before sep ls k) = unlines sep (ls.take k) := by
  have hsplit : unlines sep ls = unlines sep (ls.take k) ++ unlines sep (ls.drop k) := by
    rw [← unlines_append, List.take_append_drop]
  rw [hsplit, before]
  exact List.take_left' rfl

/-- What begins with line `k` are this line and the ones behind it. -/
lemma drop_unlines (k : ℕ) : (unlines sep ls).drop (before sep ls k) = unlines sep (ls.drop k) := by
  have hsplit : unlines sep ls = unlines sep (ls.take k) ++ unlines sep (ls.drop k) := by
    rw [← unlines_append, List.take_append_drop]
  rw [hsplit, before]
  exact List.drop_left' rfl

/-- The characters of a line, and the separator behind them. -/
lemma getElem?_unlines (h : k < ls.length) {i : ℕ} (hi : i ≤ ls[k].length) :
    (unlines sep ls)[before sep ls k + i]? = (ls[k] ++ [sep])[i]? := by
  rw [← List.getElem?_drop, drop_unlines, List.drop_eq_getElem_cons h, unlines_cons,
    ← List.singleton_append, ← List.append_assoc, List.getElem?_append_left]
  rw [List.length_append, List.length_singleton]
  omega

end EspLinux.Lib
