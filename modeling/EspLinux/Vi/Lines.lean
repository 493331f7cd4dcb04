import EspLinux.Lib.Unlines
import EspLinux.Vi.Text

/-!
# vi: lines

Where the lines of the text begin and end, and their numbers.  A line begins at the beginning of the
text and behind every newline; `begin_line` and `end_line` find the ends of the line a position is
in, and as many lines lie before a position as there are newlines.  `count_lines` counts newlines,
so that it counts a line at the end of the text only if a newline ends it.
-/

namespace EspLinux.Vi

open Lib

namespace Buffer

variable {b : Buffer} {p q s e i : ℤ} {n : ℕ}

/-! ## Ends of lines -/

/-- A line begins at `p`. -/
def Starts (b : Buffer) (p : ℤ) : Prop := p = 0 ∨ b.mem (p - 1) = '\n'

/-- There is no newline from `p` on before `q`. -/
def Plain (b : Buffer) (p q : ℤ) : Prop := ∀ i, p ≤ i → i < q → b.mem i ≠ '\n'

lemma Plain.mono (h : b.Plain p q) (hs : p ≤ s) (he : e ≤ q) : b.Plain s e :=
  fun i hi hi' => h i (hs.trans hi) (by omega)

lemma after_newline_eq (h0 : 0 ≤ s) (hs : b.Starts s) (hsn : s ≤ n) (hno : b.Plain s n) :
    b.after_newline n = s := by
  induction n with
  | zero => exact le_antisymm h0 hsn
  | succ n ih =>
    rw [after_newline]
    obtain rfl | hlt := hsn.eq_or_lt
    · have hnl : b.mem n = '\n' := by
        obtain h | h := hs
        · push_cast at h
          omega
        · simpa using h
      rw [if_pos hnl]
      push_cast
      rfl
    · have hn : s ≤ n := by
        push_cast at hlt
        omega
      rw [if_neg (hno n hn (by push_cast; omega))]
      exact ih hn (hno.mono (le_refl _) (by push_cast; omega))

lemma starts_after_newline : b.Starts (b.after_newline n) := by
  induction n with
  | zero => exact .inl rfl
  | succ n ih =>
    rw [after_newline]
    split
    · refine .inr ?_
      rw [add_sub_cancel_right]
      assumption
    · exact ih

lemma plain_after_newline : b.Plain (b.after_newline n) n := by
  induction n with
  | zero =>
    intro i hi hi'
    simp only [after_newline, Nat.cast_zero] at hi hi'
    omega
  | succ n ih =>
    intro i hi hi'
    rw [after_newline] at hi
    push_cast at hi'
    split at hi
    · omega
    · by_cases hlast : i = n
      · rw [hlast]
        assumption
      · exact ih i hi (by omega)

/-- `begin_line` finds the beginning of the line. -/
lemma begin_line_eq (h0 : 0 ≤ s) (hs : b.Starts s) (hsp : s ≤ p) (hno : b.Plain s p) :
    b.begin_line p = s := by
  rw [begin_line]
  split
  · have hp : (p.toNat : ℤ) = p := by omega
    exact after_newline_eq h0 hs (by omega) (hp.symm ▸ hno)
  · omega

lemma starts_begin_line (h : 0 ≤ p) : b.Starts (b.begin_line p) := by
  rw [begin_line]
  split
  · exact starts_after_newline
  · exact .inl (by omega)

lemma plain_begin_line : b.Plain (b.begin_line p) p := by
  rw [begin_line]
  split
  · have hp : (p.toNat : ℤ) = p := by omega
    have h := b.plain_after_newline (n := p.toNat)
    rwa [hp] at h
  · intro i hi hi'
    omega

lemma to_newline_eq (hpe : p ≤ e) (hen : e ≤ p + n) (hno : b.Plain p e)
    (hstop : b.mem e = '\n' ∨ e = p + n) : b.to_newline p n = e := by
  induction n generalizing p with
  | zero =>
    rw [to_newline]
    push_cast at hen
    omega
  | succ n ih =>
    rw [to_newline]
    push_cast at hen hstop
    obtain rfl | hlt := hpe.eq_or_lt
    · have hnl : b.mem p = '\n' := hstop.resolve_right (by omega)
      rw [if_pos hnl]
    · rw [if_neg (hno p (le_refl p) hlt)]
      exact ih (by omega) (by omega) (hno.mono (by omega) (le_refl _))
        (hstop.imp_right fun h => by omega)

lemma plain_to_newline : b.Plain p (b.to_newline p n) := by
  induction n generalizing p with
  | zero =>
    intro i hi hi'
    rw [to_newline] at hi'
    omega
  | succ n ih =>
    intro i hi hi'
    rw [to_newline] at hi'
    split at hi'
    · omega
    · by_cases hfirst : i = p
      · rw [hfirst]
        assumption
      · exact ih i (by omega) hi'

lemma to_newline_stop : b.mem (b.to_newline p n) = '\n' ∨ b.to_newline p n = p + n := by
  induction n generalizing p with
  | zero => exact .inr (by simp [to_newline])
  | succ n ih =>
    rw [to_newline]
    split
    · exact .inl (by assumption)
    · refine (ih (p := p + 1)).imp_right fun h => ?_
      rw [h]
      push_cast
      ring

/-- `end_line` finds the newline that ends the line, or the end of the text. -/
lemma end_line_eq (hpe : p ≤ e) (he : e < b.end_) (hno : b.Plain p e)
    (hstop : b.mem e = '\n' ∨ e = b.end_ - 1) : b.end_line p = e := by
  rw [end_line]
  split
  · exact to_newline_eq hpe (by omega) hno (hstop.imp_right fun h => by omega)
  · omega

lemma plain_end_line : b.Plain p (b.end_line p) := by
  rw [end_line]
  split
  · exact plain_to_newline
  · intro i hi hi'
    omega

lemma end_line_stop (h : p < b.end_) :
    b.mem (b.end_line p) = '\n' ∨ b.end_line p = b.end_ - 1 := by
  rw [end_line]
  split
  · refine to_newline_stop.imp_right fun h => ?_
    rw [h]
    omega
  · exact .inr (by omega)

/-- All positions of a line have the same end. -/
lemma end_line_of_plain (hpq : p ≤ q) (hq : q < b.end_) (hno : b.Plain p q) :
    b.end_line p = b.end_line q := by
  refine end_line_eq (hpq.trans le_end_line) (end_line_lt hq) ?_ (end_line_stop hq)
  intro i hi hi'
  by_cases h : i < q
  · exact hno i hi h
  · exact plain_end_line i (by omega) hi'

lemma end_line_begin_line (h : p < b.end_) : b.end_line (b.begin_line p) = b.end_line p :=
  end_line_of_plain begin_line_le h plain_begin_line

/-! ## Numbers of lines -/

/-- The number of newlines from `p` on before `q`. -/
noncomputable def newlines (b : Buffer) (p q : ℤ) : ℕ := {i ∈ Finset.Ico p q | b.mem i = '\n'}.card

lemma newlines_eq_zero : b.newlines p q = 0 ↔ b.Plain p q := by
  rw [newlines, Finset.card_eq_zero, Finset.filter_eq_empty_iff]
  constructor
  · intro h i hi hi'
    exact h (Finset.mem_Ico.mpr ⟨hi, hi'⟩)
  · intro h i hi
    obtain ⟨hi, hi'⟩ := Finset.mem_Ico.mp hi
    exact h i hi hi'

lemma newlines_add (h : p ≤ q) (h' : q ≤ e) : b.newlines p q + b.newlines q e = b.newlines p e := by
  rw [newlines, newlines, newlines, ← Finset.card_union_of_disjoint, ← Finset.filter_union,
    Finset.Ico_union_Ico_eq_Ico h h']
  exact Finset.disjoint_filter_filter (Finset.Ico_disjoint_Ico_consecutive p q e)

lemma newlines_one (p : ℤ) : b.newlines p (p + 1) = if b.mem p = '\n' then 1 else 0 := by
  have hIco : Finset.Ico p (p + 1) = {p} := by
    ext i
    rw [Finset.mem_Ico, Finset.mem_singleton]
    omega
  rw [newlines, hIco, Finset.filter_singleton]
  split <;> rfl

/-- A line without newlines before it is the first one. -/
lemma Starts.eq_zero (hs : b.Starts s) (h0 : 0 ≤ s) (h : b.newlines 0 s = 0) : s = 0 := by
  obtain h' | h' := hs
  · exact h'
  · by_contra hne
    exact newlines_eq_zero.mp h (s - 1) (by omega) (by omega) h'

/-- The line before the one that begins at `s`. -/
lemma Starts.previous (hs : b.Starts s) (hpos : 0 < s) (hend : s < b.end_) :
    0 ≤ b.begin_line (s - 1) ∧ b.begin_line (s - 1) < s ∧ b.Starts (b.begin_line (s - 1)) ∧
      b.newlines 0 (b.begin_line (s - 1)) + 1 = b.newlines 0 s ∧
      b.end_line (b.begin_line (s - 1)) = s - 1 ∧ b.next_line (b.begin_line (s - 1)) = s := by
  have hnl : b.mem (s - 1) = '\n' := hs.resolve_left (by omega)
  have hle := b.begin_line_le (p := s - 1)
  have h0 := begin_line_nonneg (b := b) (p := s - 1) (by omega)
  have hend' : b.end_line (b.begin_line (s - 1)) = s - 1 :=
    end_line_eq hle (by omega) plain_begin_line (.inl hnl)
  refine ⟨h0, by omega, starts_begin_line (by omega), ?_, hend', ?_⟩
  · have hplain := newlines_eq_zero.mpr (b.plain_begin_line (p := s - 1))
    have hadd := newlines_add (b := b) h0 hle
    have hadd' := newlines_add (b := b) (p := 0) (q := s - 1) (e := s) (by omega) (by omega)
    have hone := b.newlines_one (s - 1)
    rw [sub_add_cancel, if_pos hnl] at hone
    omega
  · rw [next_line, hend', if_pos ⟨by omega, hnl⟩, sub_add_cancel]

/-- The line with `n` newlines before it is reached from the first one in `n` steps. -/
lemma iterate_next_line_eq (h0 : 0 ≤ s) (hs : b.Starts s) (hend : s < b.end_) :
    b.next_line^[b.newlines 0 s] 0 = s := by
  obtain ⟨n, hn⟩ : ∃ n, b.newlines 0 s = n := ⟨_, rfl⟩
  induction n generalizing s with
  | zero =>
    rw [hn, hs.eq_zero h0 hn]
    rfl
  | succ n ih =>
    have hpos : 0 < s := by
      obtain hpos | rfl := h0.lt_or_eq
      · exact hpos
      · rw [newlines, Finset.Ico_self] at hn
        cases hn
    obtain ⟨h0', hlt, hs', hcount, -, hnext⟩ := hs.previous hpos hend
    have hn' : b.newlines 0 (b.begin_line (s - 1)) = n := by omega
    have hrun := ih h0' hs' (by omega) hn'
    rw [hn, Function.iterate_succ_apply', ← hn', hrun, hnext]

/-- The first character of a line that is counted from one. -/
lemma find_line_succ (n : ℕ) : b.find_line (n + 1) = b.next_line^[n] 0 := by
  rw [find_line]
  congr 1
  omega

lemma count_from_eq (hstop : b.mem e = '\n' ∨ e = b.end_ - 1) (he : e < b.end_)
    (hn : b.end_ - p ≤ n) : b.count_from e n p = b.newlines p (e + 1) := by
  induction n generalizing p with
  | zero =>
    rw [count_from, eq_comm, newlines_eq_zero]
    intro i hi hi'
    push_cast at hn
    omega
  | succ n ih =>
    rw [count_from]
    split
    · rename_i hle
      have hp := b.le_end_line (p := p)
      have hlast : b.end_line p ≤ e := by
        by_contra hlt
        obtain h | h := hstop
        · exact plain_end_line e hle.1 (by omega) h
        · have := end_line_lt (b := b) (p := p) (by omega)
          omega
      have hadd := newlines_add (b := b) hp (Int.le_add_one (le_refl (b.end_line p)))
      have hadd' := newlines_add (b := b) (p := p) (q := b.end_line p + 1) (e := e + 1) (by omega)
        (by omega)
      have hplain := newlines_eq_zero.mpr (b.plain_end_line (p := p))
      have hone := b.newlines_one (b.end_line p)
      push_cast at hn
      have hrest := ih (p := b.end_line p + 1) (by omega)
      dsimp only
      rw [hrest]
      omega
    · rename_i hle
      rw [eq_comm, newlines_eq_zero]
      intro i hi hi'
      omega

/-- `count_lines` counts the newlines. -/
theorem count_lines_eq (hpq : p ≤ q) (hq : q < b.end_) :
    b.count_lines p q = b.newlines p (b.end_line q + 1) := by
  rw [count_lines, min_eq_left hpq, max_eq_right hpq]
  exact count_from_eq (end_line_stop hq) (end_line_lt hq) (by omega)

/-- As many lines as newlines before the line, and one for the line itself if a newline ends it. -/
lemma count_lines_zero (h0 : 0 ≤ p) (hend : p < b.end_) :
    b.count_lines 0 p =
      b.newlines 0 (b.begin_line p) + if b.mem (b.end_line p) = '\n' then 1 else 0 := by
  have hbegin := begin_line_nonneg (b := b) h0
  have hle := b.begin_line_le_end_line (p := p)
  have hplain : b.newlines (b.begin_line p) (b.end_line p) = 0 := by
    rw [newlines_eq_zero, ← end_line_begin_line hend]
    exact plain_end_line
  have hadd := newlines_add (b := b) hbegin hle
  have hadd' := newlines_add (b := b) (p := 0) (q := b.end_line p) (e := b.end_line p + 1) (by omega)
    (by omega)
  rw [count_lines_eq h0 hend, ← b.newlines_one]
  omega

/-- The newlines of the whole text. -/
lemma newlines_end (h : 0 ≤ b.end_) : b.newlines 0 b.end_ = b.content.count '\n' := by
  have hcount : ∀ n : ℕ, b.newlines 0 n = ((List.range n).map fun i : ℕ => b.mem i).count '\n' := by
    intro n
    induction n with
    | zero => simp [newlines]
    | succ n ih =>
      have hadd := newlines_add (b := b) (p := 0) (q := n) (e := n + 1) (by omega) (by omega)
      push_cast
      rw [← hadd, ih, newlines_one, List.range_succ, List.map_append, List.count_append,
        List.map_singleton, List.count_singleton]
      simp only [beq_iff_eq]
  have hn : ((b.end_.toNat : ℕ) : ℤ) = b.end_ := by omega
  rw [content_def, ← hcount, hn]

/-- As many steps down as there are newlines before the last character lead to a line each. -/
lemma newlines_iterate {n : ℕ} (hpos : 0 < b.end_) (h : n ≤ b.newlines 0 (b.end_ - 1)) :
    b.newlines 0 (b.next_line^[n] 0) = n ∧ 0 ≤ b.next_line^[n] 0 ∧ b.next_line^[n] 0 < b.end_ := by
  induction n with
  | zero => exact ⟨by simp [newlines], le_refl _, hpos⟩
  | succ n ih =>
    obtain ⟨hcount, h0, hlt⟩ := ih (by omega)
    rw [Function.iterate_succ_apply']
    generalize b.next_line^[n] 0 = s at hcount h0 hlt
    have hle := b.le_end_line (p := s)
    have hend := end_line_lt hlt
    have hplain := newlines_eq_zero.mpr (b.plain_end_line (p := s))
    have hadd := newlines_add (b := b) h0 hle
    -- there is a newline left, so that this line is not the last one
    have hlast : b.end_line s < b.end_ - 1 := by
      by_contra hge
      have heq : b.end_line s = b.end_ - 1 := by omega
      rw [heq] at hadd hplain
      omega
    have hnl := (end_line_stop hlt).resolve_right (by omega)
    have hadd' := newlines_add (b := b) (p := 0) (q := b.end_line s) (e := b.end_line s + 1)
      (by omega) (by omega)
    have hone := b.newlines_one (b.end_line s)
    rw [if_pos hnl] at hone
    rw [next_line, if_pos ⟨hlast, hnl⟩]
    exact ⟨by omega, by omega, by omega⟩

lemma plain_skip_ws {n : ℕ} : b.Plain p (b.skip_ws n p) := by
  induction n generalizing p with
  | zero =>
    intro i hi hi'
    rw [skip_ws] at hi'
    omega
  | succ n ih =>
    intro i hi hi'
    rw [skip_ws] at hi'
    split at hi'
    · rename_i hspace
      by_cases hfirst : i = p
      · rw [hfirst]
        exact hspace.2
      · exact ih i (by omega) hi'
    · omega

lemma le_skip_ws {n : ℕ} : p ≤ b.skip_ws n p := by
  induction n generalizing p with
  | zero => exact le_refl p
  | succ n ih =>
    rw [skip_ws]
    split
    · exact le_trans (by omega) ih
    · exact le_refl p

/-- Skipping white space stays in the line. -/
lemma newlines_skip_over_ws (h : 0 ≤ p) : b.newlines 0 (b.skip_over_ws p) = b.newlines 0 p := by
  have hadd := newlines_add (b := b) h (b.le_skip_ws (p := p) (n := (b.end_ - 1 - p).toNat))
  have hplain := newlines_eq_zero.mpr (b.plain_skip_ws (p := p) (n := (b.end_ - 1 - p).toNat))
  rw [skip_over_ws]
  omega

/-- All positions of a line have the same number of newlines before them. -/
lemma newlines_begin_line (h : 0 ≤ p) : b.newlines 0 (b.begin_line p) = b.newlines 0 p := by
  have hadd := newlines_add (b := b) (begin_line_nonneg h) (b.begin_line_le (p := p))
  have hplain := newlines_eq_zero.mpr (b.plain_begin_line (p := p))
  omega

/-! ## Counting and finding -/

/-- The line of `p` is ended by a newline, or it is the first one. -/
def Counted (b : Buffer) (p : ℤ) : Prop := b.mem (b.end_line p) = '\n' ∨ b.begin_line p = 0

instance (b : Buffer) (p : ℤ) : Decidable (b.Counted p) := inferInstanceAs (Decidable (_ ∨ _))

/-- The number that `count_lines` gives to the line of `p` finds this line if it is counted. -/
lemma find_line_of_counted (h0 : 0 ≤ p) (hend : p < b.end_) (hc : b.Counted p) :
    b.find_line (b.count_lines 0 p) = b.begin_line p := by
  have hbegin := begin_line_nonneg (b := b) h0
  have hlt : b.begin_line p < b.end_ := lt_of_le_of_lt begin_line_le hend
  rw [count_lines_zero h0 hend]
  by_cases hnl : b.mem (b.end_line p) = '\n'
  · rw [if_pos hnl]
    push_cast
    rw [find_line_succ]
    exact iterate_next_line_eq hbegin (starts_begin_line h0) hlt
  · have hzero := hc.resolve_left hnl
    have hcount : b.newlines 0 0 = 0 := by simp [newlines]
    rw [if_neg hnl, hzero, hcount]
    rfl

/-- Otherwise it finds the line before it. -/
lemma find_line_of_not_counted (h0 : 0 ≤ p) (hend : p < b.end_) (hc : ¬ b.Counted p) :
    b.find_line (b.count_lines 0 p) = b.begin_line (b.begin_line p - 1) ∧ 0 < b.begin_line p := by
  obtain ⟨hnl, hne⟩ := not_or.mp hc
  have hbegin := begin_line_nonneg (b := b) h0
  have hlt : b.begin_line p < b.end_ := lt_of_le_of_lt begin_line_le hend
  have hpos : 0 < b.begin_line p := by omega
  obtain ⟨h0', hlt', hs', hcount, -, -⟩ := (starts_begin_line (b := b) h0).previous hpos hlt
  refine ⟨?_, hpos⟩
  have hfind := iterate_next_line_eq h0' hs' (by omega)
  rw [count_lines_zero h0 hend, if_neg hnl, ← hcount]
  push_cast
  rw [add_zero, find_line_succ]
  exact hfind

/-- Counting and finding agree just for the lines that are counted. -/
theorem find_line_count_lines (h0 : 0 ≤ p) (hend : p < b.end_) :
    b.find_line (b.count_lines 0 p) = b.begin_line p ↔ b.Counted p := by
  refine ⟨fun h => ?_, find_line_of_counted h0 hend⟩
  by_contra hc
  obtain ⟨hfind, hpos⟩ := find_line_of_not_counted h0 hend hc
  have hle := b.begin_line_le (p := b.begin_line p - 1)
  omega

/-! ## A text made of lines -/

/-- The text consists of the lines `ls`, each of them ended by a newline. -/
structure Lined (b : Buffer) (ls : List (List Char)) : Prop where
  end_nonneg : 0 ≤ b.end_
  content : b.content = unlines '\n' ls
  plain : ∀ l ∈ ls, '\n' ∉ l

namespace Lined

variable {ls : List (List Char)} {k j : ℕ}

lemma end_eq (h : b.Lined ls) : b.end_ = (unlines '\n' ls).length := by
  have hlen := b.length_content
  rw [h.content] at hlen
  have := h.end_nonneg
  omega

lemma getElem?_eq (h : b.Lined ls) {i : ℕ} (hi : (i : ℤ) < b.end_) :
    some (b.mem i) = (unlines '\n' ls)[i]? := by
  rw [← h.content, getElem?_content (by omega)]

lemma before_lt_end (h : b.Lined ls) (hk : k < ls.length) :
    (before '\n' ls k : ℤ) + ls[k].length < b.end_ := by
  have hle : before '\n' ls (k + 1) ≤ (unlines '\n' ls).length := before_le (k + 1)
  rw [before_succ hk] at hle
  rw [h.end_eq]
  omega

/-- The characters of line `k`. -/
lemma mem_line (h : b.Lined ls) (hk : k < ls.length) {i : ℕ} (hi : i < ls[k].length) :
    b.mem (before '\n' ls k + i) = ls[k][i] := by
  have hlt := h.before_lt_end hk
  have hget := h.getElem?_eq (i := before '\n' ls k + i) (by push_cast; omega)
  rw [getElem?_unlines hk hi.le, List.getElem?_append_left hi, List.getElem?_eq_getElem hi] at hget
  push_cast at hget
  exact Option.some.inj hget

/-- The newline at the end of line `k`. -/
lemma mem_newline (h : b.Lined ls) (hk : k < ls.length) :
    b.mem (before '\n' ls k + ls[k].length) = '\n' := by
  have hlt := h.before_lt_end hk
  have hget := h.getElem?_eq (i := before '\n' ls k + ls[k].length) (by push_cast; omega)
  rw [getElem?_unlines hk (le_refl _), List.getElem?_append_right (le_refl _), Nat.sub_self] at hget
  push_cast at hget
  exact Option.some.inj hget

lemma starts (h : b.Lined ls) (hk : k ≤ ls.length) : b.Starts (before '\n' ls k) := by
  cases k with
  | zero =>
    refine .inl ?_
    rw [before_zero]
    rfl
  | succ k =>
    refine .inr ?_
    have hnl := h.mem_newline (k := k) (by omega)
    have hprev : ((before '\n' ls (k + 1) : ℕ) : ℤ) - 1 = before '\n' ls k + ls[k].length := by
      rw [before_succ (by omega)]
      push_cast
      ring
    rwa [hprev]

lemma plain_line (h : b.Lined ls) (hk : k < ls.length) :
    b.Plain (before '\n' ls k) (before '\n' ls k + ls[k].length) := by
  intro i hi hi' hnl
  obtain ⟨n, rfl⟩ : ∃ n : ℕ, i = before '\n' ls k + n := ⟨(i - before '\n' ls k).toNat, by omega⟩
  have hn : n < ls[k].length := by omega
  rw [h.mem_line hk hn] at hnl
  exact h.plain _ (List.getElem_mem hk) (hnl ▸ List.getElem_mem hn)

/-- The newline that ends line `k` is found from every position in it. -/
lemma end_line_eq (h : b.Lined ls) (hk : k < ls.length) (hp : before '\n' ls k ≤ p)
    (hp' : p ≤ before '\n' ls k + ls[k].length) :
    b.end_line p = before '\n' ls k + ls[k].length :=
  Buffer.end_line_eq hp' (h.before_lt_end hk) ((h.plain_line hk).mono hp (le_refl _))
    (.inl (h.mem_newline hk))

/-- The beginning of line `k` is found from every position in it. -/
lemma begin_line_eq (h : b.Lined ls) (hk : k < ls.length) (hp : before '\n' ls k ≤ p)
    (hp' : p ≤ before '\n' ls k + ls[k].length) : b.begin_line p = before '\n' ls k :=
  Buffer.begin_line_eq (Int.natCast_nonneg _) (h.starts hk.le) hp
    ((h.plain_line hk).mono (le_refl _) hp')

/-- The next line, if there is one. -/
lemma next_line_eq (h : b.Lined ls) (hk : k + 1 < ls.length) (hp : before '\n' ls k ≤ p)
    (hp' : p ≤ before '\n' ls k + ls[k].length) : b.next_line p = before '\n' ls (k + 1) := by
  have hnext := h.before_lt_end hk
  have hsucc : before '\n' ls (k + 1) = before '\n' ls k + ls[k].length + 1 := before_succ (by omega)
  rw [next_line, h.end_line_eq (by omega) hp hp',
    if_pos ⟨by omega, h.mem_newline (by omega)⟩, hsucc]
  push_cast
  rfl

/-- From the last line on it is the last newline that is found. -/
lemma next_line_last (h : b.Lined ls) (hk : k + 1 = ls.length) (hp : before '\n' ls k ≤ p)
    (hp' : p ≤ before '\n' ls k + ls[k].length) : b.next_line p = b.end_ - 1 := by
  have hsucc : before '\n' ls (k + 1) = before '\n' ls k + ls[k].length + 1 := before_succ (by omega)
  have hend := h.end_eq
  rw [← before_all hk.ge, hsucc] at hend
  rw [next_line, h.end_line_eq (by omega) hp hp', if_neg (by omega)]
  omega

lemma iterate_next_line (h : b.Lined ls) (hk : k < ls.length) :
    b.next_line^[k] 0 = before '\n' ls k := by
  induction k with
  | zero =>
    rw [before_zero]
    rfl
  | succ k ih =>
    rw [Function.iterate_succ_apply', ih (by omega), h.next_line_eq hk (le_refl _) (by omega)]

/-- Line numbers count from one. -/
lemma find_line_eq (h : b.Lined ls) (hk : k < ls.length) : b.find_line (k + 1) = before '\n' ls k := by
  rw [find_line_succ, h.iterate_next_line hk]

/-! ### One line between others -/

variable {pre post : List (List Char)} {l : List Char}

lemma before_middle : before '\n' (pre ++ l :: post) pre.length = (unlines '\n' pre).length := by
  rw [before, List.take_left' rfl]

lemma getElem_middle (h : pre.length < (pre ++ l :: post).length) :
    (pre ++ l :: post)[pre.length] = l := by
  simp

variable (h : b.Lined (pre ++ l :: post))

include h

lemma middle_lt_end : ((unlines '\n' pre).length : ℤ) + l.length < b.end_ := by
  have hk : pre.length < (pre ++ l :: post).length := by simp
  have hlt := h.before_lt_end hk
  rwa [before_middle, getElem_middle hk] at hlt

/-- The characters of the line. -/
lemma mem_middle {i : ℕ} (hi : i < l.length) : b.mem ((unlines '\n' pre).length + i) = l[i] := by
  have hk : pre.length < (pre ++ l :: post).length := by simp
  have hmem := h.mem_line hk (i := i) (by rwa [getElem_middle hk])
  rw [before_middle] at hmem
  simpa using hmem

lemma newline_middle : b.mem ((unlines '\n' pre).length + l.length) = '\n' := by
  have hk : pre.length < (pre ++ l :: post).length := by simp
  have hmem := h.mem_newline hk
  rwa [before_middle, getElem_middle hk] at hmem

lemma plain_middle : '\n' ∉ l := h.plain l (by simp)

lemma end_line_middle (hp : (unlines '\n' pre).length ≤ p)
    (hp' : p ≤ (unlines '\n' pre).length + l.length) :
    b.end_line p = (unlines '\n' pre).length + l.length := by
  have hk : pre.length < (pre ++ l :: post).length := by simp
  have hend := h.end_line_eq hk (p := p)
  rw [before_middle, getElem_middle hk] at hend
  exact hend hp hp'

lemma begin_line_middle (hp : (unlines '\n' pre).length ≤ p)
    (hp' : p ≤ (unlines '\n' pre).length + l.length) : b.begin_line p = (unlines '\n' pre).length := by
  have hk : pre.length < (pre ++ l :: post).length := by simp
  have hbegin := h.begin_line_eq hk (p := p)
  rw [before_middle, getElem_middle hk] at hbegin
  exact hbegin hp hp'

/-- The next line begins behind the newline, or it is this newline that is found. -/
lemma next_line_middle (hp : (unlines '\n' pre).length ≤ p)
    (hp' : p ≤ (unlines '\n' pre).length + l.length) :
    b.next_line p = (unlines '\n' pre).length + l.length + if post = [] then 0 else 1 := by
  have hlt := h.middle_lt_end
  have hend := h.end_eq
  rw [unlines_append, unlines_cons, List.length_append, List.length_append, List.length_cons] at hend
  rw [next_line, h.end_line_middle hp hp']
  by_cases hpost : post = []
  · subst hpost
    simp only [unlines_nil, List.length_nil] at hend
    rw [if_neg (by omega), if_pos rfl, add_zero]
  · obtain ⟨m, ms, rfl⟩ := List.exists_cons_of_ne_nil hpost
    rw [unlines_cons, List.length_append, List.length_cons] at hend
    rw [if_pos ⟨by omega, h.newline_middle⟩, if_neg (List.cons_ne_nil _ _)]

omit h

end Lined

end Buffer

/-! ## Changes in a line -/

section Changes

variable {g : Globals} {pre post : List (List Char)} {u v w : List Char}

/-- Deleting a part of a line. -/
lemma lined_deleted (h : g.Lined (pre ++ (u ++ v ++ w) :: post)) (hv : v ≠ []) :
    (g.deleted ((unlines '\n' pre).length + u.length)
      ((unlines '\n' pre).length + u.length + v.length - 1)).Lined (pre ++ (u ++ w) :: post) := by
  have hlen := List.length_pos_of_ne_nil hv
  have hlt := h.middle_lt_end
  rw [List.length_append, List.length_append] at hlt
  push_cast at hlt
  have hplain := h.plain_middle
  refine ⟨?_, ?_, ?_⟩
  · have hend := Buffer.le_end_text_hole_delete (b := g.toBuffer)
      (p := (unlines '\n' pre).length + u.length)
      (q := (unlines '\n' pre).length + u.length + v.length - 1) (by omega) h.end_nonneg
    exact (le_max_right _ _).trans hend
  · have hfrom : (((unlines '\n' pre).length : ℤ) + u.length).toNat = (unlines '\n' pre ++ u).length := by
      rw [List.length_append]
      omega
    have hto : (((unlines '\n' pre).length : ℤ) + u.length + v.length - 1 + 1).toNat =
        (unlines '\n' pre ++ u ++ v).length := by
      rw [List.length_append, List.length_append]
      omega
    have hcontent : g.content =
        unlines '\n' pre ++ u ++ v ++ (w ++ '\n' :: unlines '\n' post) := by
      rw [h.content]
      simp
    rw [Globals.content_deleted (by omega) (by omega) (by omega), hfrom, hto, hcontent,
      List.drop_left' rfl, List.append_assoc (unlines '\n' pre ++ u), List.take_left' rfl]
    simp
  · intro l hl
    obtain hl | rfl | hl : l ∈ pre ∨ l = u ++ w ∨ l ∈ post := by simpa using hl
    · exact h.plain l (by simp [hl])
    · simp only [List.mem_append, not_or] at hplain ⊢
      exact ⟨hplain.1.1, hplain.2⟩
    · exact h.plain l (by simp [hl])

/-- Inserting into a line. -/
lemma lined_insert (h : g.Lined (pre ++ (u ++ w) :: post)) (hv : '\n' ∉ v) :
    (g.insert ((unlines '\n' pre).length + u.length) v).Lined (pre ++ (u ++ v ++ w) :: post) := by
  have hlt := h.middle_lt_end
  rw [List.length_append] at hlt
  push_cast at hlt
  have hplain := h.plain_middle
  refine ⟨?_, ?_, ?_⟩
  · rw [Globals.end_insert]
    have := h.end_nonneg
    omega
  · have hat : (((unlines '\n' pre).length : ℤ) + u.length).toNat = (unlines '\n' pre ++ u).length := by
      rw [List.length_append]
      omega
    have hcontent : g.content = unlines '\n' pre ++ u ++ (w ++ '\n' :: unlines '\n' post) := by
      rw [h.content]
      simp
    rw [Globals.content_insert (by omega) (by omega), hat, hcontent, List.take_left' rfl,
      List.drop_left' rfl]
    simp
  · intro l hl
    obtain hl | rfl | hl : l ∈ pre ∨ l = u ++ v ++ w ∨ l ∈ post := by simpa using hl
    · exact h.plain l (by simp [hl])
    · simp only [List.mem_append, not_or] at hplain ⊢
      exact ⟨⟨hplain.1, hv⟩, hplain.2⟩
    · exact h.plain l (by simp [hl])

end Changes

end EspLinux.Vi
