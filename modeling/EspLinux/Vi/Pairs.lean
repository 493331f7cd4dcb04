import EspLinux.Lib.Brackets
import EspLinux.Vi.MainLoop
import EspLinux.Vi.Text

/-!
# vi: pairs of brackets

`find_pair` counts the brackets of one kind, forward from one that opens and backwards from one that
closes, until the count comes to zero.  In both directions it looks for a matched stretch of the
text, so that it finds its way back.
-/

namespace EspLinux.Vi

open Lib Lib.Brackets

/-- The kinds of brackets: how one opens and how it closes. -/
def Kind (o c : Char) : Prop := (o, c) ∈ [('(', ')'), ('[', ']'), ('{', '}')]

instance (o c : Char) : Decidable (Kind o c) := inferInstanceAs (Decidable (_ ∈ _))

namespace Kind

variable {o c : Char}

lemma cases (h : Kind o c) :
    (o = '(' ∧ c = ')') ∨ (o = '[' ∧ c = ']') ∨ (o = '{' ∧ c = '}') := by
  simpa [Kind] using h

lemma ne (h : Kind o c) : o ≠ c := by
  rcases h.cases with ⟨rfl, rfl⟩ | ⟨rfl, rfl⟩ | ⟨rfl, rfl⟩ <;> decide

lemma match_of_open (h : Kind o c) : Buffer.match_of o = (c, .forward) := by
  rcases h.cases with ⟨rfl, rfl⟩ | ⟨rfl, rfl⟩ | ⟨rfl, rfl⟩ <;> rfl

lemma match_of_close (h : Kind o c) : Buffer.match_of c = (o, .back) := by
  rcases h.cases with ⟨rfl, rfl⟩ | ⟨rfl, rfl⟩ | ⟨rfl, rfl⟩ <;> rfl

end Kind

namespace Buffer

variable {b : Buffer} {p q : ℤ} {o c : Char}

/-! ## The characters the scan reads -/

/-- The `n` characters from `q` on, in a direction. -/
def word (b : Buffer) (dir : Dir) (n : ℕ) (q : ℤ) : List Char :=
  (List.range n).map fun i : ℕ => b.mem (q + i * dir.inc)

lemma word_succ (dir : Dir) (n : ℕ) (q : ℤ) :
    b.word dir (n + 1) q = b.mem q :: b.word dir n (q + dir.inc) := by
  rw [word, word, List.range_succ_eq_map, List.map_cons, List.map_map]
  congr 1
  · simp
  · refine List.map_congr_left fun i _ => ?_
    show b.mem (q + (i.succ : ℕ) * dir.inc) = b.mem (q + dir.inc + i * dir.inc)
    congr 1
    push_cast
    ring

lemma length_word (dir : Dir) (n : ℕ) (q : ℤ) : (b.word dir n q).length = n := by
  rw [word, List.length_map, List.length_range]

lemma take_word (dir : Dir) {k n : ℕ} (h : k ≤ n) (q : ℤ) :
    (b.word dir n q).take k = b.word dir k q := by
  rw [word, word, ← List.map_take, List.take_range, min_eq_left h]

lemma word_forward (n : ℕ) (q : ℤ) : b.word .forward n q = b.range q (q + n - 1) := by
  have hlen : (q + n - 1 - q + 1).toNat = n := by omega
  rw [word, range_def, hlen]
  refine List.map_congr_left fun i _ => ?_
  show b.mem (q + i * 1) = b.mem (q + i)
  rw [mul_one]

lemma word_back (n : ℕ) (q : ℤ) : b.word .back n q = (b.range (q - n + 1) q).reverse := by
  induction n with
  | zero =>
    rw [range_of_lt (by push_cast; omega)]
    rfl
  | succ n ih =>
    have hlast : b.word .back (n + 1) q = b.word .back n q ++ [b.mem (q - n)] := by
      rw [word, List.range_succ, List.map_append, word]
      congr 1
      show [b.mem (q + n * -1)] = [b.mem (q - n)]
      rw [mul_neg_one, ← sub_eq_add_neg]
    have hfrom : q - ((n + 1 : ℕ) : ℤ) + 1 = q - n := by
      push_cast
      ring
    have hnext : q - (n : ℤ) + 1 = q - n + 1 := rfl
    rw [hlast, ih, hfrom, range_cons (p := q - n) (by omega), List.reverse_cons, hnext]

/-- The loop of `find_pair` is a scan of these characters. -/
lemma pair_from_eq (dir : Dir) (n : ℕ) (q level : ℤ) : b.pair_from o c dir n q level =
    (closes o c level (b.word dir n q)).map fun i : ℕ => q + i * dir.inc := by
  induction n generalizing q level with
  | zero => rfl
  | succ n ih =>
    rw [word_succ, pair_from, closes]
    by_cases hz : (if b.mem q = c then (if b.mem q = o then level + 1 else level) - 1
        else if b.mem q = o then level + 1 else level) = 0
    · rw [if_pos hz, if_pos hz]
      simp
    · rw [if_neg hz, if_neg hz, ih, Option.map_map]
      congr 1
      funext i
      show q + dir.inc + i * dir.inc = q + (i + 1 : ℕ) * dir.inc
      push_cast
      ring

/-! ## What is found -/

/-- From a bracket that opens, the end of the matched stretch is found. -/
lemma find_pair_open (hk : Kind o c) (h0 : 0 ≤ p) (hp : b.mem p = o) :
    b.find_pair p o = some q ↔ p < q ∧ q < b.end_ ∧ Matched o c (b.range p q) := by
  have hat : 0 ≤ p + Dir.forward.inc := by
    show 0 ≤ p + 1
    omega
  have hstretch (i : ℕ) : o :: b.word .forward (i + 1) (p + 1) = b.range p (p + 1 + i) := by
    have hto : p + 1 + ((i + 1 : ℕ) : ℤ) - 1 = p + 1 + i := by
      push_cast
      ring
    rw [word_forward, hto, range_cons (p := p) (by omega), hp]
  rw [find_pair, hk.match_of_open]
  dsimp only
  rw [if_pos hat, pair_from_eq, Option.map_eq_some_iff]
  show (∃ i : ℕ, closes o c 1 (b.word .forward (b.end_ - (p + 1)).toNat (p + 1)) = some i ∧
    p + 1 + i * 1 = q) ↔ _
  constructor
  · rintro ⟨i, hi, rfl⟩
    obtain ⟨hlt, hmatched⟩ := (closes_eq_some_iff hk.ne).mp hi
    rw [length_word] at hlt
    rw [take_word _ (by omega), hstretch] at hmatched
    rw [mul_one]
    exact ⟨by omega, by omega, hmatched⟩
  · rintro ⟨hpq, hq, hmatched⟩
    obtain ⟨i, rfl⟩ : ∃ i : ℕ, q = p + 1 + i := ⟨(q - (p + 1)).toNat, by omega⟩
    refine ⟨i, (closes_eq_some_iff hk.ne).mpr ⟨?_, ?_⟩, by rw [mul_one]⟩
    · rw [length_word]
      omega
    · rw [take_word _ (by omega), hstretch]
      exact hmatched

/-- From a bracket that closes, the beginning of the matched stretch is found. -/
lemma find_pair_close (hk : Kind o c) (hend : p < b.end_) (hp : b.mem p = c) :
    b.find_pair p c = some q ↔ 0 ≤ q ∧ q < p ∧ Matched o c (b.range q p) := by
  have hat : p + Dir.back.inc < b.end_ := by
    show p - 1 < b.end_
    omega
  have hstretch (i : ℕ) : c :: b.word .back (i + 1) (p - 1) = (b.range (p - 1 - i) p).reverse := by
    have hword := b.word_succ .back (i + 1) p
    have hfrom : p - ((i + 1 + 1 : ℕ) : ℤ) + 1 = p - 1 - i := by
      push_cast
      ring
    rw [word_back, hfrom, hp] at hword
    exact hword.symm
  rw [find_pair, hk.match_of_close]
  dsimp only
  rw [if_pos hat, pair_from_eq, Option.map_eq_some_iff]
  show (∃ i : ℕ, closes c o 1 (b.word .back (p - 1 + 1).toNat (p - 1)) = some i ∧
    p - 1 + i * -1 = q) ↔ _
  constructor
  · rintro ⟨i, hi, rfl⟩
    obtain ⟨hlt, hmatched⟩ := (closes_eq_some_iff hk.ne.symm).mp hi
    rw [length_word] at hlt
    rw [take_word _ (by omega), hstretch, matched_reverse hk.ne] at hmatched
    rw [mul_neg_one, ← sub_eq_add_neg]
    exact ⟨by omega, by omega, hmatched⟩
  · rintro ⟨hq, hqp, hmatched⟩
    obtain ⟨i, rfl⟩ : ∃ i : ℕ, q = p - 1 - i := ⟨(p - 1 - q).toNat, by omega⟩
    refine ⟨i, (closes_eq_some_iff hk.ne.symm).mpr ⟨?_, ?_⟩, by rw [mul_neg_one, ← sub_eq_add_neg]⟩
    · rw [length_word]
      omega
    · rw [take_word _ (by omega), hstretch, matched_reverse hk.ne]
      exact hmatched

/-! ## The way back -/

lemma range_concat (h : p ≤ q) : b.range p q = b.range p (q - 1) ++ [b.mem q] := by
  have hsplit := b.range_append (p := p) (q := q) (e := q + 1) h (by omega)
  have hone : b.range q q = [b.mem q] := by rw [range_cons (le_refl q), range_of_lt (by omega)]
  rw [add_sub_cancel_right, hone] at hsplit
  exact hsplit.symm

lemma mem_of_matched_range (hpq : p ≤ q) (h : Matched o c (b.range p q)) :
    b.mem p = o ∧ b.mem q = c := by
  obtain ⟨m, -, hm⟩ := h
  constructor
  · rw [range_cons hpq] at hm
    exact (List.cons_eq_cons.mp hm).1
  · rw [range_concat hpq] at hm
    exact List.singleton_inj.mp (List.append_inj' hm rfl).2

/-- Nothing nearer than the end of a matched stretch ends a balanced one. -/
lemma not_balanced_nearer {q' : ℤ} (hne : o ≠ c) (h : Matched o c (b.range p q)) (hpq : p < q)
    (hnear : (q' - p).natAbs < (q - p).natAbs) :
    ¬ Balanced o c (b.range (min p q') (max p q')) := by
  obtain ⟨hp, -⟩ := mem_of_matched_range hpq.le h
  by_cases hside : p < q'
  · rw [min_eq_left hside.le, max_eq_right hside.le]
    have hsplit := b.range_append (p := p) (q := q' + 1) (e := q + 1) (by omega) (by omega)
    rw [add_sub_cancel_right, add_sub_cancel_right] at hsplit
    refine h.prefix_not_balanced hne ⟨_, hsplit⟩ ?_ fun hall => ?_
    · rw [range_cons hside.le]
      exact List.cons_ne_nil _ _
    · rw [hall, List.append_right_eq_self, range_cons (by omega)] at hsplit
      exact List.cons_ne_nil _ _ hsplit
  · have hle : q' ≤ p := by omega
    rw [min_eq_right hle, max_eq_left hle, range_concat hle, hp]
    exact not_balanced_concat hne _

/-- Nor does anything nearer than its beginning begin one. -/
lemma not_balanced_nearer_back {q' : ℤ} (hne : o ≠ c) (h : Matched o c (b.range q p)) (hqp : q < p)
    (hnear : (q' - p).natAbs < (q - p).natAbs) :
    ¬ Balanced o c (b.range (min p q') (max p q')) := by
  obtain ⟨-, hp⟩ := mem_of_matched_range hqp.le h
  intro hb
  have hback := hb.reverse hne
  by_cases hside : q' < p
  · rw [min_eq_right hside.le, max_eq_left hside.le] at hback
    have hsplit := b.range_append (p := q) (q := q') (e := p + 1) (by omega) (by omega)
    rw [add_sub_cancel_right] at hsplit
    have hrev : (b.range q' p).reverse ++ (b.range q (q' - 1)).reverse = (b.range q p).reverse := by
      rw [← List.reverse_append, hsplit]
    refine (h.reverse hne).prefix_not_balanced hne.symm ⟨_, hrev⟩ ?_ (fun hall => ?_) hback
    · rw [range_cons hside.le, List.reverse_cons]
      exact List.append_ne_nil_of_right_ne_nil _ (List.cons_ne_nil _ _)
    · rw [hall, List.append_right_eq_self, List.reverse_eq_nil_iff, range_cons (by omega)] at hrev
      exact List.cons_ne_nil _ _ hrev
  · have hle : p ≤ q' := by omega
    rw [min_eq_left hle, max_eq_right hle, range_cons hle, hp, List.reverse_cons] at hback
    exact not_balanced_concat hne.symm _ hback

/-- What `find_pair` finds ends a balanced stretch, nothing nearer does, and the way back leads to
where it was looked for. -/
theorem find_pair_involution (hk : Kind o c) (h0 : 0 ≤ p) (hend : p < b.end_)
    (hp : b.mem p = o ∨ b.mem p = c) (hq : b.find_pair p (b.mem p) = some q) :
    Balanced o c (b.range (min p q) (max p q)) ∧
      (∀ q' : ℤ, (q' - p).natAbs < (q - p).natAbs →
        ¬ Balanced o c (b.range (min p q') (max p q'))) ∧
      b.find_pair q (b.mem q) = some p := by
  rcases hp with hp | hp
  · rw [hp, find_pair_open hk h0 hp] at hq
    obtain ⟨hpq, hqend, hmatched⟩ := hq
    refine ⟨?_, fun q' hnear => not_balanced_nearer hk.ne hmatched hpq hnear, ?_⟩
    · rw [min_eq_left hpq.le, max_eq_right hpq.le]
      exact hmatched.balanced hk.ne
    · have hmem := (mem_of_matched_range hpq.le hmatched).2
      rw [hmem, find_pair_close hk hqend hmem]
      exact ⟨h0, hpq, hmatched⟩
  · rw [hp, find_pair_close hk hend hp] at hq
    obtain ⟨hq0, hqp, hmatched⟩ := hq
    refine ⟨?_, fun q' hnear => not_balanced_nearer_back hk.ne hmatched hqp hnear, ?_⟩
    · rw [min_eq_right hqp.le, max_eq_left hqp.le]
      exact hmatched.balanced hk.ne
    · have hmem := (mem_of_matched_range hqp.le hmatched).1
      rw [hmem, find_pair_open hk hq0 hmem]
      exact ⟨hqp, hend, hmatched⟩

/-- In `a(b(c))` the outer brackets find each other. -/
theorem find_pair_involution_nested :
    let b := (opened "a(b(c))\n".toList []).toBuffer
    b.find_pair 1 (b.mem 1) = some 6 ∧ b.find_pair 6 (b.mem 6) = some 1 := by
  have hfound : (opened "a(b(c))\n".toList []).find_pair 1
      ((opened "a(b(c))\n".toList []).mem 1) = some 6 := by decide +kernel
  exact ⟨hfound, (find_pair_involution (o := '(') (c := ')') (by decide) (by decide)
    (by decide +kernel) (by decide +kernel) hfound).2.2⟩

end Buffer

end EspLinux.Vi
