import EspLinux.Vi.Editor

/-!
# vi: the text under its operations

What opening, filling and closing a hole does to the extent of the text and to the text as a list
of characters.  A hole that is filled with `s` puts `s` between what was before it and what was
behind it; closing one takes the characters out.
-/

namespace EspLinux.Vi

open Lib

/-! ## The extent of the text -/

namespace Buffer

variable {b : Buffer} {p q size : ℤ}

lemma end_hole : (b.hole p size).end_ = b.end_ + max size 0 := by
  rw [hole]
  split
  · omega
  · show b.end_ + size = b.end_ + max size 0
    omega

/-- A deletion leaves at least what is outside it. -/
lemma le_end_text_hole_delete (h : p - 1 ≤ q) (hend : 0 ≤ b.end_) :
    max (b.end_ - (q - p + 1)) 0 ≤ (b.text_hole_delete p q).2.end_ := by
  simp only [text_hole_delete]
  split_ifs <;> dsimp only <;> omega

lemma end_text_hole_delete_le (h : p - 1 ≤ q) (hend : 0 ≤ b.end_) :
    (b.text_hole_delete p q).2.end_ ≤ b.end_ := by
  simp only [text_hole_delete]
  split_ifs <;> dsimp only <;> omega

/-- Outside the text nothing is deleted. -/
lemma text_hole_delete_outside (h : p ≤ q) (hout : p < 0 ∨ b.end_ ≤ q) :
    b.text_hole_delete p q = (p, b) := by
  simp only [text_hole_delete, if_neg (not_lt.mpr h)]
  rw [if_pos (by omega)]

/-- After a deletion at a position in the text the result is one, too. -/
lemma text_hole_delete_inside (h : p ≤ q) (hp : 0 ≤ p) (hend : p ≤ b.end_) :
    0 ≤ (b.text_hole_delete p q).1 ∧
      (b.text_hole_delete p q).1 ≤ (b.text_hole_delete p q).2.end_ := by
  simp only [text_hole_delete]
  split_ifs <;> dsimp only <;> omega

lemma prev_line_lt (h : 0 < p) : b.prev_line p < p := by
  have hle := b.begin_line_le (p := p)
  simp only [prev_line]
  obtain heq | hlt := hle.eq_or_lt
  · -- the line begins at `p`, so that there is a newline before it
    have hnl : b.mem (p - 1) = '\n' := by
      obtain ⟨n, rfl⟩ : ∃ n : ℕ, p = n + 1 := ⟨(p - 1).toNat, by omega⟩
      by_contra hne
      have hb := b.after_newline_le (n := n)
      rw [begin_line, if_pos h] at heq
      have hn : ((n : ℤ) + 1).toNat = n + 1 := by omega
      rw [hn, after_newline, if_neg (by simpa using hne)] at heq
      omega
    rw [heq, if_pos ⟨h, hnl⟩]
    have := b.begin_line_le (p := p - 1)
    omega
  · split
    · have := b.begin_line_le (p := b.begin_line p - 1)
      omega
    · have := b.begin_line_le (p := b.begin_line p)
      omega

lemma iterate_prev_line_le (n : ℕ) : b.prev_line^[n] p ≤ p := by
  induction n generalizing p with
  | zero => exact le_refl p
  | succ n ih => exact ih.trans prev_line_le

lemma iterate_prev_line_nonneg (n : ℕ) (h : 0 ≤ p) : 0 ≤ b.prev_line^[n] p := by
  induction n generalizing p with
  | zero => exact h
  | succ n ih => exact ih (prev_line_nonneg h)

lemma le_iterate_next_line (n : ℕ) : p ≤ b.next_line^[n] p := by
  induction n generalizing p with
  | zero => exact le_refl p
  | succ n ih => exact le_next_line.trans ih

/-- The next line begins in the text, if this one does. -/
lemma next_line_le (h : p ≤ max (b.end_ - 1) 0) : b.next_line p ≤ max (b.end_ - 1) 0 := by
  by_cases hp : p < b.end_
  · have := next_line_lt hp
    omega
  · have hend : b.end_line p = p := by rw [end_line, if_neg (by omega)]
    rw [next_line, hend]
    rw [if_neg (by omega)]
    exact h

lemma iterate_next_line_le (n : ℕ) (h : p ≤ max (b.end_ - 1) 0) :
    b.next_line^[n] p ≤ max (b.end_ - 1) 0 := by
  induction n generalizing p with
  | zero => exact h
  | succ n ih => exact ih (next_line_le h)

end Buffer

namespace Globals

variable (g : Globals) (p size : ℤ)

lemma end_text_hole_make : (g.text_hole_make p size).end_ = g.end_ + max size 0 := by
  rw [text_hole_make]
  split <;> exact Buffer.end_hole

lemma text_hole_make_fits (h : g.end_ ≤ g.text_size) :
    (g.text_hole_make p size).end_ ≤ (g.text_hole_make p size).text_size := by
  have hend := @Buffer.end_hole g.toBuffer p size
  simp only [text_hole_make]
  split
  · show (g.hole p size).end_ ≤ (g.hole p size).end_ + 10240
    omega
  · show (g.hole p size).end_ ≤ g.text_size
    omega

lemma screenbegin_text_hole_make : (g.text_hole_make p size).screenbegin = g.screenbegin := by
  rw [text_hole_make]
  split <;> rfl

lemma erase_char_text_hole_make : (g.text_hole_make p size).erase_char = g.erase_char := by
  rw [text_hole_make]
  split <;> rfl

lemma dot_text_hole_make : (g.text_hole_make p size).dot = g.dot := by
  rw [text_hole_make]
  split <;> rfl

end Globals

/-! ## The text as a list -/

namespace Buffer

variable {b : Buffer} {p q : ℤ} {s : List Char}

lemma content_def : b.content = (List.range b.end_.toNat).map fun i : ℕ => b.mem i := by
  simp only [content, List.bind_eq_flatMap, List.pure_def, List.map_flatMap, List.map_cons,
    List.map_nil]
  exact List.map_eq_flatMap.symm

lemma range_def : b.range p q = (List.range (q - p + 1).toNat).map fun i : ℕ => b.mem (p + i) := by
  simp only [range, List.bind_eq_flatMap, List.pure_def, List.map_flatMap, List.map_cons,
    List.map_nil]
  exact List.map_eq_flatMap.symm

lemma range_of_lt (h : q < p) : b.range p q = [] := by
  rw [range_def, Int.toNat_of_nonpos (by omega)]
  rfl

lemma range_cons (h : p ≤ q) : b.range p q = b.mem p :: b.range (p + 1) q := by
  have hlen : (q - p + 1).toNat = (q - (p + 1) + 1).toNat + 1 := by omega
  rw [range_def, range_def, hlen, List.range_succ_eq_map, List.map_cons, List.map_map]
  congr 1
  · simp
  · refine List.map_congr_left fun i _ => ?_
    show b.mem (p + (i.succ : ℕ)) = b.mem (p + 1 + i)
    congr 1
    push_cast
    ring

lemma range_append {e : ℤ} (hpq : p ≤ q) (hqe : q ≤ e) :
    b.range p (q - 1) ++ b.range q (e - 1) = b.range p (e - 1) := by
  obtain ⟨n, hn⟩ : ∃ n : ℕ, (n : ℤ) = q - p := ⟨(q - p).toNat, by omega⟩
  induction n generalizing p with
  | zero =>
    have heq : p = q := by
      push_cast at hn
      omega
    rw [heq, range_of_lt (by omega), List.nil_append]
  | succ n ih =>
    push_cast at hn
    rw [range_cons (p := p) (q := q - 1) (by omega), range_cons (p := p) (q := e - 1) (by omega),
      List.cons_append, ih (by omega) (by omega)]

@[simp] lemma length_content : b.content.length = b.end_.toNat := by simp [content_def]

lemma getElem?_content {i : ℕ} (h : i < b.end_.toNat) : b.content[i]? = some (b.mem i) := by
  simp [content_def, h]

/-- The text is the list of what the memory holds up to the end. -/
lemma content_eq {l : List Char} (hlen : b.end_ = l.length)
    (hmem : ∀ i : ℕ, i < l.length → l[i]? = some (b.mem i)) : b.content = l := by
  refine List.ext_getElem? fun i => ?_
  by_cases hi : i < l.length
  · rw [getElem?_content (by omega), hmem i hi]
  · rw [List.getElem?_eq_none (by rw [length_content]; omega), List.getElem?_eq_none (by omega)]

/-- A hole of the length of `s`, filled with `s`. -/
def filled (b : Buffer) (p : ℤ) (s : List Char) : Buffer :=
  { b.hole p s.length with mem := store (b.hole p s.length).mem p s }

lemma end_filled : (b.filled p s).end_ = b.end_ + s.length := by
  show (b.hole p s.length).end_ = _
  rw [end_hole]
  omega

lemma mem_hole {size i : ℤ} (hsize : 0 ≤ size) : (b.hole p size).mem i =
    if p ≤ i ∧ i < p + size then ' '
    else if p + size ≤ i ∧ i < b.end_ + size then b.mem (i - size) else b.mem i := by
  rw [hole]
  by_cases h0 : size ≤ 0
  · have hzero : size = 0 := by omega
    rw [if_pos h0, if_neg (by omega), hzero, sub_zero, ite_self]
  · rw [if_neg h0]
    dsimp only [memmove]
    split
    · rfl
    · have hiff : p + size ≤ i ∧ i < p + size + (b.end_ - p) ↔ p + size ≤ i ∧ i < b.end_ + size := by
        omega
      have hback : i - (p + size) + p = i - size := by omega
      rw [if_congr hiff rfl rfl, hback]

lemma mem_filled {i : ℤ} : (b.filled p s).mem i =
    if p ≤ i then s.getD (i - p).toNat (if i < b.end_ + s.length then b.mem (i - s.length) else b.mem i)
    else b.mem i := by
  show store (b.hole p s.length).mem p s i = _
  rw [store, mem_hole (by omega)]
  by_cases hp : p ≤ i
  · rw [if_pos hp, if_pos hp]
    by_cases hin : i < p + s.length
    · have hlt : (i - p).toNat < s.length := by omega
      rw [List.getD_eq_getElem _ _ hlt, List.getD_eq_getElem _ _ hlt]
    · have hle : s.length ≤ (i - p).toNat := by omega
      rw [List.getD_eq_default _ _ hle, List.getD_eq_default _ _ hle, if_neg (by omega)]
      have hiff : p + s.length ≤ i ∧ i < b.end_ + s.length ↔ i < b.end_ + s.length := by omega
      rw [if_congr hiff rfl rfl]
  · rw [if_neg hp, if_neg hp, if_neg (by omega), if_neg (by omega)]

/-- Opening a hole and filling it inserts. -/
theorem content_filled (hp : 0 ≤ p) (hend : p ≤ b.end_) :
    (b.filled p s).content = b.content.take p.toNat ++ s ++ b.content.drop p.toNat := by
  have hlen : b.content.length = b.end_.toNat := length_content
  refine content_eq ?_ fun i hi => ?_
  · rw [end_filled]
    simp only [List.length_append, List.length_take, List.length_drop]
    omega
  simp only [List.length_append, List.length_take, List.length_drop] at hi
  have htake : (b.content.take p.toNat).length = p.toNat := by
    rw [List.length_take]
    omega
  have hat : (b.content.take p.toNat ++ s ++ b.content.drop p.toNat)[i]? =
      if i < p.toNat then b.content[i]?
      else if i < p.toNat + s.length then s[i - p.toNat]? else b.content[i - s.length]? := by
    rw [List.append_assoc, List.getElem?_append, htake]
    by_cases hbefore : i < p.toNat
    · rw [if_pos hbefore, if_pos hbefore, List.getElem?_take_of_lt hbefore]
    · rw [if_neg hbefore, if_neg hbefore, List.getElem?_append]
      by_cases hin : i < p.toNat + s.length
      · rw [if_pos hin, if_pos (by omega)]
      · have hback : p.toNat + (i - p.toNat - s.length) = i - s.length := by omega
        rw [if_neg hin, if_neg (by omega), List.getElem?_drop, hback]
  rw [hat, mem_filled]
  by_cases hbefore : i < p.toNat
  · rw [if_pos hbefore, if_neg (by omega), getElem?_content (by omega)]
  have hle : p ≤ i := by omega
  rw [if_neg hbefore, if_pos hle]
  have hoff : ((i : ℤ) - p).toNat = i - p.toNat := by omega
  rw [hoff]
  by_cases hin : i < p.toNat + s.length
  · have hlt : i - p.toNat < s.length := by omega
    rw [if_pos hin, List.getD_eq_getElem _ _ hlt, List.getElem?_eq_getElem hlt]
  · have hback : ((i - s.length : ℕ) : ℤ) = (i : ℤ) - s.length := by omega
    rw [if_neg hin, List.getD_eq_default _ _ (by omega), if_pos (by omega),
      getElem?_content (by omega), hback]

/-- What is left when `p` through `q` have been deleted. -/
lemma text_hole_delete_eq (hp : 0 ≤ p) (hpq : p ≤ q) (hq : q < b.end_) :
    (b.text_hole_delete p q).2.end_ = b.end_ - (q - p + 1) ∧
      ∀ i, i < b.end_ - (q - p + 1) → (b.text_hole_delete p q).2.mem i =
        if i < p then b.mem i else b.mem (i + (q - p + 1)) := by
  have hmem : ∀ i, i < b.end_ - (q - p + 1) →
      (if b.end_ ≤ q + 1 then b.mem else memmove b.mem p (q + 1) (b.end_ - (q + 1))) i =
        if i < p then b.mem i else b.mem (i + (q - p + 1)) := by
    intro i hi
    by_cases hlast : b.end_ ≤ q + 1
    · rw [if_pos hlast, if_pos (by omega)]
    · rw [if_neg hlast, memmove]
      by_cases hbefore : i < p
      · rw [if_neg (by omega), if_pos hbefore]
      · have hback : i - p + (q + 1) = i + (q - p + 1) := by omega
        rw [if_pos (by omega), if_neg hbefore, hback]
  simp only [text_hole_delete, if_neg (not_lt.mpr hpq)]
  rw [if_neg (by omega)]
  split
  · exact ⟨by dsimp only; omega, hmem⟩
  · exact ⟨rfl, hmem⟩

/-- Closing a hole deletes. -/
theorem content_text_hole_delete (hp : 0 ≤ p) (hpq : p ≤ q) (hq : q < b.end_) :
    (b.text_hole_delete p q).2.content =
      b.content.take p.toNat ++ b.content.drop (q + 1).toNat := by
  have hlen : b.content.length = b.end_.toNat := length_content
  obtain ⟨hend, hmem⟩ := text_hole_delete_eq hp hpq hq
  refine content_eq ?_ fun i hi => ?_
  · rw [hend]
    simp only [List.length_append, List.length_take, List.length_drop]
    omega
  simp only [List.length_append, List.length_take, List.length_drop] at hi
  have htake : (b.content.take p.toNat).length = p.toNat := by
    rw [List.length_take]
    omega
  rw [hmem i (by omega), List.getElem?_append, htake]
  by_cases hbefore : i < p.toNat
  · have hlt : (i : ℤ) < p := by omega
    rw [if_pos hbefore, if_pos hlt, List.getElem?_take_of_lt hbefore, getElem?_content (by omega)]
  · have hlt : ¬ (i : ℤ) < p := by omega
    have hback : (((q + 1).toNat + (i - p.toNat) : ℕ) : ℤ) = i + (q - p + 1) := by omega
    rw [if_neg hbefore, if_neg hlt, List.getElem?_drop, getElem?_content (by omega), hback]

/-- The text depends on the memory and its end only. -/
lemma content_congr {b b' : Buffer} (hmem : b'.mem = b.mem) (hend : b'.end_ = b.end_) :
    b'.content = b.content := by
  rw [content_def, content_def, hmem, hend]

lemma content_eq_iff {b b' : Buffer} (hend : b'.end_ = b.end_) :
    b'.content = b.content ↔ ∀ i, 0 ≤ i → i < b.end_ → b'.mem i = b.mem i := by
  constructor
  · intro h i h0 hi
    have hi' : ((i.toNat : ℕ) : ℤ) = i := by omega
    have hget := b'.getElem?_content (i := i.toNat) (by omega)
    rw [h, getElem?_content (by omega), hi'] at hget
    exact (Option.some.inj hget).symm
  · intro h
    refine List.ext_getElem? fun i => ?_
    by_cases hi : i < b.end_.toNat
    · rw [getElem?_content (by omega), getElem?_content hi, h i (by omega) (by omega)]
    · rw [List.getElem?_eq_none (by rw [length_content]; omega),
        List.getElem?_eq_none (by rw [length_content]; omega)]

/-- A hole is filled with blanks. -/
lemma hole_eq_filled (b : Buffer) (p : ℤ) (n : ℕ) :
    (b.hole p n).mem = (b.filled p (List.replicate n ' ')).mem ∧
      (b.hole p n).end_ = (b.filled p (List.replicate n ' ')).end_ := by
  refine ⟨?_, ?_⟩
  · ext1 i
    show _ = store (b.hole p (List.replicate n ' ').length).mem p _ i
    rw [List.length_replicate, store]
    split
    · by_cases hi : (i - p).toNat < n
      · rw [List.getD_eq_getElem _ _ (by rwa [List.length_replicate]), List.getElem_replicate,
          mem_hole (by omega), if_pos (by omega)]
      · rw [List.getD_eq_default _ _ (by rw [List.length_replicate]; omega)]
    · rfl
  · rw [end_filled, end_hole, List.length_replicate]
    omega

lemma content_hole {n : ℕ} (hp : 0 ≤ p) (hend : p ≤ b.end_) : (b.hole p n).content =
    b.content.take p.toNat ++ List.replicate n ' ' ++ b.content.drop p.toNat := by
  obtain ⟨hmem, hsize⟩ := b.hole_eq_filled p n
  rw [content_congr hmem hsize, content_filled hp hend]

end Buffer

namespace Globals

variable {g : Globals} {p q : ℤ} {s : List Char}

lemma content_text_hole_make {n : ℕ} (hp : 0 ≤ p) (hend : p ≤ g.end_) :
    (g.text_hole_make p n).content =
      g.content.take p.toNat ++ List.replicate n ' ' ++ g.content.drop p.toNat := by
  rw [← Buffer.content_hole hp hend]
  refine Buffer.content_congr ?_ ?_
  · rw [text_hole_make]
    split <;> rfl
  · rw [text_hole_make]
    split <;> rfl

lemma mem_text_hole_make (g : Globals) (p size : ℤ) :
    (g.text_hole_make p size).mem = (g.hole p size).mem := by
  rw [text_hole_make]
  split <;> rfl

lemma mem_insert : (g.insert p s).mem = (g.filled p s).mem := by
  show Buffer.store (g.text_hole_make p s.length).mem p s = _
  rw [mem_text_hole_make]
  rfl

lemma end_insert : (g.insert p s).end_ = g.end_ + s.length := by
  show (g.text_hole_make p s.length).end_ = _
  rw [end_text_hole_make]
  omega

/-- An insertion puts `s` into the text, whether the text moves or not. -/
theorem content_insert (hp : 0 ≤ p) (hend : p ≤ g.end_) :
    (g.insert p s).content = g.content.take p.toNat ++ s ++ g.content.drop p.toNat := by
  rw [← Buffer.content_filled hp hend]
  exact Buffer.content_congr mem_insert (end_insert.trans Buffer.end_filled.symm)

/-- A deletion takes `p` through `q` out of the text. -/
theorem content_deleted (hp : 0 ≤ p) (hpq : p ≤ q) (hq : q < g.end_) :
    (g.deleted p q).content = g.content.take p.toNat ++ g.content.drop (q + 1).toNat :=
  Buffer.content_text_hole_delete hp hpq hq

end Globals

end EspLinux.Vi
