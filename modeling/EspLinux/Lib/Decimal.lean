import Mathlib

/-!
# Decimal numbers in a text

`numbers` reads the numbers of a text of bytes: each longest run of digits is one number.
-/

namespace EspLinux.Lib

/-- The digit of a number below ten. -/
def digit (d : ℕ) : UInt8 := UInt8.ofNat (d + 48)

/-- The byte is a digit. -/
def isDigit (b : UInt8) : Bool := decide (48 ≤ b.toNat ∧ b.toNat ≤ 57)

/-- Read on, with the value of the run of digits that has been read last, if any. -/
def scan : Option ℕ → List UInt8 → List ℕ
  | none, [] => []
  | some v, [] => [v]
  | none, b :: l => if isDigit b then scan (some (b.toNat - 48)) l else scan none l
  | some v, b :: l =>
    if isDigit b then scan (some (10 * v + (b.toNat - 48))) l else v :: scan none l

/-- The numbers of a text. -/
def numbers (l : List UInt8) : List ℕ := scan none l

variable {d v : ℕ} {b : UInt8} {l pre : List UInt8}

lemma digit_toNat (h : d < 10) : (digit d).toNat = d + 48 :=
  UInt8.toNat_ofNat_of_lt' (show d + 48 < 256 by omega)

lemma isDigit_digit (h : d < 10) : isDigit (digit d) = true := by
  rw [isDigit, digit_toNat h]
  simp
  omega

lemma scan_none_digit (h : d < 10) : scan none (digit d :: l) = scan (some d) l := by
  rw [scan, if_pos (isDigit_digit h), digit_toNat h, Nat.add_sub_cancel]

lemma scan_some_digit (h : d < 10) :
    scan (some v) (digit d :: l) = scan (some (10 * v + d)) l := by
  rw [scan, if_pos (isDigit_digit h), digit_toNat h, Nat.add_sub_cancel]

/-- A byte that is no digit ends a number. -/
lemma scan_some_stop (h : isDigit b = false) : scan (some v) (b :: l) = v :: numbers (b :: l) := by
  simp [scan, numbers, h]

/-- Text without digits holds no numbers. -/
lemma numbers_append (h : ∀ b ∈ pre, isDigit b = false) : numbers (pre ++ l) = numbers l := by
  induction pre with
  | nil => rfl
  | cons b pre ih =>
    have hb : isDigit b = false := h b List.mem_cons_self
    rw [List.cons_append, numbers, scan]
    simp only [hb, Bool.false_eq_true, if_false]
    exact ih fun b' hb' => h b' (List.mem_cons_of_mem b hb')

end EspLinux.Lib
