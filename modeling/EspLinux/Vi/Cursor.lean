import EspLinux.Lib.Layout
import EspLinux.Vi.LineNumbers

/-!
# vi: where the cursor is shown

`sync_cursor` chooses where the screen begins and how far it is shifted to the left, and says in
which row and column dot is then shown; `format_line` lays out a line for the screen.  The two count
lines and columns on their own.  They agree, but for a line at the end of the text that no newline
ends, which `count_lines` does not count, and for tabulators of one column, where `format_line`
throws away too little in front of the screen.
-/

namespace EspLinux.Vi

open Lib

/-! ## The renderer -/

/-- What is shown for the character `c` in column `co`. -/
def cells (isprint : Char → Bool) (tabstop co : ℕ) (c : Char) : List Char :=
  let c := if 0x80 ≤ c.toNat ∧ ¬ isprint c then '.' else c
  if c < ' ' ∨ c = '\x7f' then
    if c = '\t' then List.replicate (tabstop - 1 - co % tabstop) ' ' ++ [' ']
    else if c = '\x7f' then ['^', '?']
    else ['^', Char.ofNat (c.toNat + '@'.toNat)]
  else [c]

namespace Ed

/-- The loop of `format_line`, for at most `n` turns. -/
def format_from (s : Ed) (isprint : Char → Bool) :
    ℕ → ℤ → List Char → ℕ → List Char × ℕ
  | 0, _, dest, ofs => (dest, ofs)
  | n + 1, src, dest, ofs =>
    if dest.length < s.columns + s.tabstop then
      if src < s.end_ ∧ s.mem src = '\n' then (dest, ofs)
      else
        let dest := dest ++
          if src < s.end_ then cells isprint s.tabstop dest.length (s.mem src) else ['~']
        let src := if src < s.end_ then src + 1 else src
        -- what is scrolled off to the left is discarded in pieces
        let (dest, ofs) :=
          if s.tabstop ≤ ofs ∧ s.tabstop ≤ dest.length then
            (dest.drop s.tabstop, ofs - s.tabstop)
          else (dest, ofs)
        if s.end_ ≤ src then (dest, ofs) else s.format_from isprint n src dest ofs
    else (dest, ofs)

/-- The line at `src` as it is shown on the screen. -/
def format_line (s : Ed) (isprint : Char → Bool) (src : ℤ) : List Char :=
  let (dest, ofs) := s.format_from isprint ((s.end_ - src).toNat + 1) src [] s.offset.toNat
  let ofs := if dest.length < ofs then dest.length else ofs
  let dest := dest.drop ofs
  dest ++ List.replicate (s.columns - dest.length) ' '

end Ed

/-! ## Lines by their number -/

namespace Buffer

variable {b : Buffer} {s : ℤ} {j k m : ℕ}

/-- The beginning of the line with `k` lines before it. -/
def line (b : Buffer) (k : ℕ) : ℤ := b.next_line^[k] 0

lemma line_succ (k : ℕ) : b.line (k + 1) = b.next_line (b.line k) :=
  Function.iterate_succ_apply' _ _ _

lemma iterate_line (j k : ℕ) : b.next_line^[j] (b.line k) = b.line (k + j) := by
  rw [line, line, Nat.add_comm, Function.iterate_add_apply]

/-- Every line is reached by its number. -/
lemma line_newlines (h0 : 0 ≤ s) (hs : b.Starts s) (hend : s < b.end_) :
    b.line (b.newlines 0 s) = s :=
  iterate_next_line_eq h0 hs hend

lemma newlines_mono {p q : ℤ} (h0 : 0 ≤ p) (hpq : p ≤ q) : b.newlines 0 p ≤ b.newlines 0 q :=
  Nat.le.intro (newlines_add h0 hpq)

variable (hpos : 0 < b.end_) (hk : k ≤ b.newlines 0 (b.end_ - 1))

include hpos hk

lemma line_nonneg : 0 ≤ b.line k := (newlines_iterate hpos hk).2.1

lemma line_lt_end : b.line k < b.end_ := (newlines_iterate hpos hk).2.2

lemma newlines_line : b.newlines 0 (b.line k) = k := (newlines_iterate hpos hk).1

lemma starts_line : b.Starts (b.line k) := by
  cases k with
  | zero => exact .inl rfl
  | succ k =>
    have hcount := newlines_line hpos hk
    have hbefore := newlines_line hpos (k := k) (by omega)
    have h0 := line_nonneg hpos (k := k) (by omega)
    have hend := line_lt_end hpos (k := k) (by omega)
    rw [line_succ, next_line] at hcount ⊢
    split
    · rename_i hnl
      refine .inr ?_
      rw [add_sub_cancel_right]
      exact hnl.2
    · rename_i hno
      -- otherwise no newline would lie between the two lines
      rw [if_neg hno] at hcount
      have hadd := newlines_add (b := b) h0 (b.le_end_line (p := b.line k))
      have hplain := newlines_eq_zero.mpr (b.plain_end_line (p := b.line k))
      omega

lemma newlines_end_line : b.newlines 0 (b.end_line (b.line k)) = k := by
  have hadd := newlines_add (b := b) (line_nonneg hpos hk) (b.le_end_line (p := b.line k))
  have hplain := newlines_eq_zero.mpr (b.plain_end_line (p := b.line k))
  rw [newlines_line hpos hk] at hadd
  omega

/-- A line lies behind all of those with smaller numbers. -/
lemma end_line_lt_line (hjk : j < k) : b.end_line (b.line j) < b.line k := by
  by_contra hge
  have hmono := newlines_mono (b := b) (line_nonneg hpos hk)
    (by omega : b.line k ≤ b.end_line (b.line j))
  rw [newlines_line hpos hk, newlines_end_line hpos (by omega)] at hmono
  omega

lemma line_le_line (hjk : j ≤ k) : b.line j ≤ b.line k := by
  obtain rfl | hlt := hjk.eq_or_lt
  · exact le_refl _
  · exact (b.le_end_line.trans_lt (end_line_lt_line hpos hk hlt)).le

lemma prev_line_line : b.prev_line (b.line k) = b.line (k - 1) := by
  have hbegin : b.begin_line (b.line k) = b.line k :=
    begin_line_eq (line_nonneg hpos hk) (starts_line hpos hk) (le_refl _) fun i hi hi' => by omega
  cases k with
  | zero =>
    rw [prev_line, hbegin]
    show b.begin_line (if 0 < (0 : ℤ) ∧ b.mem (0 - 1) = '\n' then 0 - 1 else 0) = 0
    rw [if_neg (by omega)]
    exact begin_line_eq (le_refl 0) (.inl rfl) (le_refl 0) fun i hi hi' => by omega
  | succ k =>
    have hlt := end_line_lt_line hpos hk (Nat.lt_succ_self k)
    have h0 := line_nonneg hpos (k := k) (by omega)
    have hle := b.le_end_line (p := b.line k)
    have hs := (starts_line hpos hk).resolve_left (by omega)
    obtain ⟨h0', hlt', hs', hcount, -, -⟩ :=
      (starts_line hpos hk).previous (by omega) (line_lt_end hpos hk)
    rw [prev_line, hbegin, if_pos ⟨by omega, hs⟩]
    rw [newlines_line hpos hk] at hcount
    have hline := line_newlines h0' hs' (hlt'.trans (line_lt_end hpos hk))
    rw [← hline, Nat.succ.inj hcount]
    rfl

lemma iterate_prev_line_line (j : ℕ) : b.prev_line^[j] (b.line k) = b.line (k - j) := by
  induction j with
  | zero => rfl
  | succ j ih =>
    rw [Function.iterate_succ_apply', ih, prev_line_line hpos (by omega), Nat.sub_sub]

omit hk

/-- Behind the last line there is only the last character. -/
lemma line_behind (hk : b.newlines 0 (b.end_ - 1) < k) : b.line k = b.end_ - 1 := by
  induction k with
  | zero => omega
  | succ k ih =>
    rw [line_succ]
    by_cases hlast : b.newlines 0 (b.end_ - 1) < k
    · rw [ih hlast, next_line, end_line, if_neg (by omega), if_neg (by omega)]
    · have hk' : k = b.newlines 0 (b.end_ - 1) := by omega
      have h0 := line_nonneg hpos hk'.le
      have hend := line_lt_end hpos hk'.le
      have heq : b.end_line (b.line k) = b.end_ - 1 := by
        refine end_line_eq (by omega) (by omega) (newlines_eq_zero.mp ?_) (.inr rfl)
        have hadd := newlines_add (b := b) h0 (by omega : b.line k ≤ b.end_ - 1)
        rw [newlines_line hpos hk'.le] at hadd
        omega
      rw [next_line, heq, if_neg (by omega)]

end Buffer

/-! ## The row -/

namespace Ed

variable {s : Ed} {k m n : ℕ}

/-- The row of a line that is at most `n` rows down. -/
lemma row_of_line (hpos : 0 < s.end_) (hk : k ≤ s.newlines 0 (s.end_ - 1)) (hmk : m ≤ k)
    (hn : k ≤ m + n) : s.row_of (s.line k) n (s.line m) = (k - m, s.line k) := by
  induction n generalizing m with
  | zero =>
    have heq : m = k := by omega
    rw [row_of, heq, Nat.sub_self]
  | succ n ih =>
    rw [row_of]
    split
    · rename_i heq
      have hm := Buffer.newlines_line hpos (hmk.trans hk)
      rw [heq, Buffer.newlines_line hpos hk] at hm
      rw [heq, hm, Nat.sub_self]
    · rename_i hne
      have hlt : m < k := lt_of_le_of_ne hmk fun h => hne (by rw [h])
      rw [← Buffer.line_succ, ih hlt (by omega)]
      dsimp only
      congr 1
      omega

/-- A line is below the screen if it is more than a screen behind the first one. -/
lemma end_screen_lt (hpos : 0 < s.end_) (hk : k ≤ s.newlines 0 (s.end_ - 1))
    (hm : s.screenbegin = s.line m) : s.end_screen < s.line k ↔ m + (s.rows - 2) < k := by
  rw [end_screen, hm, Buffer.iterate_line]
  constructor
  · intro h
    by_contra hge
    have hle := s.le_end_line (p := s.line (m + (s.rows - 2)))
    by_cases hlast : m + (s.rows - 2) ≤ s.newlines 0 (s.end_ - 1)
    · have := Buffer.line_le_line hpos hlast (Nat.le_of_not_lt hge)
      omega
    · have := Buffer.line_lt_end hpos hk
      rw [Buffer.line_behind hpos (by omega)] at h hle
      omega
  · exact Buffer.end_line_lt_line hpos hk

/-- The lines between the end of the screen and a line below it. -/
lemma count_below (hpos : 0 < s.end_) (hk : k ≤ s.newlines 0 (s.end_ - 1))
    (hm : s.screenbegin = s.line m) (hlt : m + (s.rows - 2) < k) :
    s.count_lines s.end_screen (s.line k) =
      k - (m + (s.rows - 2)) + if s.mem (s.end_line (s.line k)) = '\n' then 1 else 0 := by
  have hbelow := (end_screen_lt hpos hk hm).mpr hlt
  have h0 := Buffer.line_nonneg hpos (k := m + (s.rows - 2)) (by omega)
  have hle := s.le_end_line (p := s.line (m + (s.rows - 2)))
  have hle' := s.le_end_line (p := s.line k)
  rw [Buffer.count_lines_eq hbelow.le (Buffer.line_lt_end hpos hk)]
  rw [end_screen, hm, Buffer.iterate_line] at hbelow ⊢
  have hstart := Buffer.newlines_end_line hpos (k := m + (s.rows - 2)) (by omega)
  have hstop := Buffer.newlines_end_line hpos hk
  have hadd := Buffer.newlines_add (b := s.toBuffer) (p := 0)
    (q := s.end_line (s.line (m + (s.rows - 2)))) (e := s.end_line (s.line k) + 1)
    (by omega) (by omega)
  have hadd' := Buffer.newlines_add (b := s.toBuffer) (p := 0) (q := s.end_line (s.line k))
    (e := s.end_line (s.line k) + 1) (by omega) (by omega)
  have hone := s.newlines_one (s.end_line (s.line k))
  omega

/-- The line with `k` lines before it is not ended by a newline, and it is so little below the
screen, which begins `m` lines into the text, that the screen is moved line by line. -/
def Uncounted (s : Ed) (m k : ℕ) : Prop :=
  s.mem (s.end_line (s.line k)) ≠ '\n' ∧ m + (s.rows - 1) ≤ k ∧
    k < m + (s.rows - 1) + (s.rows - 1) / 2

instance (m k : ℕ) : Decidable (s.Uncounted m k) := inferInstanceAs (Decidable (_ ∧ _ ∧ _))

/-- Where the screen begins. -/
lemma scrolled_line (hpos : 0 < s.end_) (hk : k ≤ s.newlines 0 (s.end_ - 1))
    (hrows : 2 ≤ s.rows) (hm : s.screenbegin = s.line m) (hmlast : m ≤ s.newlines 0 (s.end_ - 1)) :
    ∃ m' ≤ k, s.scrolled (s.line k) = s.line m' ∧
      k ≤ m' + (s.rows - 1) ∧ (k = m' + (s.rows - 1) ↔ s.Uncounted m k) := by
  have hbefore : s.line k < s.screenbegin ↔ k < m := by
    rw [hm]
    constructor
    · intro h
      by_contra hge
      have := Buffer.line_le_line hpos hk (Nat.le_of_not_lt hge)
      omega
    · intro h
      exact s.le_end_line.trans_lt (Buffer.end_line_lt_line hpos hmlast h)
  have hhalf : (s.rows - 1) / 2 < s.rows - 1 := Nat.div_lt_self (by omega) (by omega)
  rw [scrolled]
  dsimp only
  split
  · rename_i h
    have hkm := hbefore.mp h
    have hno : ¬ s.Uncounted m k := fun hu => by
      have := hu.2.1
      omega
    split
    · exact ⟨k - (s.rows - 1) / 2, Nat.sub_le _ _, Buffer.iterate_prev_line_line hpos hk _,
        by omega, iff_of_false (by omega) hno⟩
    · exact ⟨k, le_refl k, rfl, by omega, iff_of_false (by omega) hno⟩
  · rename_i h
    have hkm : m ≤ k := Nat.le_of_not_lt fun hlt => h (hbefore.mpr hlt)
    split
    · rename_i hbelow
      have hlt := (end_screen_lt hpos hk hm).mp hbelow
      have hcount := count_below hpos hk hm hlt
      generalize s.count_lines s.end_screen (s.line k) = cnt at hcount ⊢
      split
      · rename_i hfar
        have hno : ¬ s.Uncounted m k := fun hu => by
          have := hu.2.2
          rw [if_neg hu.1] at hcount
          omega
        exact ⟨k - (s.rows - 1) / 2, Nat.sub_le _ _, Buffer.iterate_prev_line_line hpos hk _,
          by omega, iff_of_false (by omega) hno⟩
      · rename_i hnear
        rw [hm, Buffer.iterate_line]
        by_cases hnl : s.mem (s.end_line (s.line k)) = '\n'
        · have hno : ¬ s.Uncounted m k := fun hu => hu.1 hnl
          rw [if_pos hnl] at hcount
          exact ⟨_, by omega, rfl, by omega, iff_of_false (by omega) hno⟩
        · rw [if_neg hnl] at hcount
          have hu : s.Uncounted m k := ⟨hnl, by omega, by omega⟩
          exact ⟨_, by omega, rfl, by omega, iff_of_true (by omega) hu⟩
    · rename_i hbelow
      have hge : ¬ m + (s.rows - 2) < k := fun hlt => hbelow ((end_screen_lt hpos hk hm).mpr hlt)
      have hno : ¬ s.Uncounted m k := fun hu => by
        have := hu.2.1
        omega
      exact ⟨m, hkm, hm, by omega, iff_of_false (by omega) hno⟩

end Ed

/-! ## The column -/

section Cells

variable {isprint : Char → Bool} {tabstop co : ℕ} {c : Char}

/-- A character that is shown as a caret and a letter. -/
def caret (c : Char) : Bool := (c < ' ' || c = '\x7f') && c ≠ '\t'

/-- The first of the cells that are shown for `c`.  A newline has none; where it is, the line is
filled with blanks. -/
def first_cell (isprint : Char → Bool) (c : Char) : Char :=
  if c = '\n' ∨ c = '\t' then ' '
  else if caret c then '^'
  else if 0x80 ≤ c.toNat ∧ ¬ isprint c then '.'
  else c

/-- What is shown, character by character; those from 128 on are neither control characters nor
tabulators. -/
lemma cells_eq : cells isprint tabstop co c =
    if c = '\t' then List.replicate (tabstop - 1 - co % tabstop) ' ' ++ [' ']
    else if caret c then ['^', if c = '\x7f' then '?' else Char.ofNat (c.toNat + '@'.toNat)]
    else [if 0x80 ≤ c.toNat ∧ ¬ isprint c then '.' else c] := by
  rw [cells]
  by_cases hhigh : 0x80 ≤ c.toNat ∧ ¬ isprint c
  · have htab : c ≠ '\t' := fun h => absurd hhigh.1 (by rw [h]; decide)
    have hdel : c ≠ '\x7f' := fun h => absurd hhigh.1 (by rw [h]; decide)
    have hlow : ¬ c < ' ' := fun h => by
      have hnat : c.toNat < 32 := h
      omega
    have hcaret : ¬ caret c := by simp [caret, hdel, hlow]
    rw [if_pos hhigh, if_neg htab, if_neg hcaret, if_neg (by decide)]
  · rw [if_neg hhigh]
    by_cases htab : c = '\t'
    · rw [if_pos htab, if_pos htab, if_pos (.inl (by rw [htab]; decide))]
    · rw [if_neg htab, if_neg htab]
      by_cases hctl : c < ' ' ∨ c = '\x7f'
      · have hcaret : caret c := by simpa [caret, htab] using hctl
        rw [if_pos hctl, if_pos hcaret]
        split <;> rfl
      · have hcaret : ¬ caret c := by simpa [caret, htab] using hctl
        rw [if_neg hctl, if_neg hcaret]

lemma headD_cells (hc : c ≠ '\n') :
    (cells isprint tabstop co c).headD ' ' = first_cell isprint c := by
  rw [cells_eq, first_cell]
  by_cases htab : c = '\t'
  · rw [if_pos htab, if_pos (.inr htab)]
    cases tabstop - 1 - co % tabstop <;> rfl
  · rw [if_neg htab, if_neg (not_or.mpr ⟨hc, htab⟩)]
    split <;> rfl

/-- The number of columns that a character fills. -/
lemma length_cells (htab : 0 < tabstop) : (cells isprint tabstop co c).length =
    if c = '\t' then tabstop - co % tabstop else if caret c then 2 else 1 := by
  have hmod := Nat.mod_lt co htab
  rw [cells_eq]
  split
  · rw [List.length_append, List.length_replicate, List.length_singleton]
    omega
  · split <;> rfl

lemma cells_ne_nil : cells isprint tabstop co c ≠ [] := by
  rw [cells_eq]
  split
  · exact List.append_ne_nil_of_right_ne_nil _ (List.cons_ne_nil _ _)
  · split <;> exact List.cons_ne_nil _ _

lemma cells_add : cells isprint tabstop (co + tabstop) c = cells isprint tabstop co c := by
  rw [cells, cells, Nat.add_mod_right]

end Cells

namespace Ed

variable {s : Ed} {isprint : Char → Bool} {d tp src e : ℤ} {n co j : ℕ} {dest : List Char} {ofs : ℕ}

/-- The column that `sync_cursor` finds is that in which the character is laid out. -/
lemma col_of_eq (htab : 0 < s.tabstop) (hplain : s.Plain tp d) (hn : tp + n = d) :
    s.col_of d n tp co =
      (co + (layout (cells isprint s.tabstop) co (s.range tp (d - 1))).length : ℕ) := by
  induction n generalizing tp co with
  | zero =>
    rw [Buffer.range_of_lt (by push_cast at hn; omega)]
    rfl
  | succ n ih =>
    push_cast at hn
    have hlen := @length_cells isprint s.tabstop co (s.mem tp) htab
    have hmod := Nat.mod_lt co htab
    rw [col_of, if_neg (hplain tp (le_refl tp) (by omega)), Buffer.range_cons (by omega),
      layout_cons, List.length_append, ← Nat.add_assoc,
      ← ih (hplain.mono (by omega) (le_refl d)) (by omega)]
    dsimp only
    congr 1
    rw [hlen]
    by_cases htabulator : s.mem tp = '\t'
    · rw [if_pos htabulator, if_pos htabulator]
      push_cast [hmod.le]
      ring
    · rw [if_neg htabulator, if_neg htabulator]
      by_cases hctl : s.mem tp < ' ' ∨ s.mem tp = '\x7f'
      · have hcaret : caret (s.mem tp) := by simpa [caret, htabulator] using hctl
        rw [if_pos hctl, if_pos hcaret]
        push_cast
        ring
      · have hcaret : ¬ caret (s.mem tp) := by simpa [caret, htabulator] using hctl
        rw [if_neg hctl, if_neg hcaret]
        push_cast
        ring

/-- `format_line` lays out the characters up to the end of the line. -/
lemma format_from_eq (hlt : src < s.end_) (hse : src ≤ e) (he : e ≤ s.end_) (hplain : s.Plain src e)
    (hstop : e = s.end_ ∨ s.mem e = '\n') (hn : e < src + n) :
    s.format_from isprint n src dest ofs =
      fill (cells isprint s.tabstop) (s.columns + s.tabstop) s.tabstop (s.range src (e - 1)) dest
        ofs := by
  induction n generalizing src dest ofs with
  | zero =>
    push_cast at hn
    omega
  | succ n ih =>
    push_cast at hn
    rw [format_from]
    obtain rfl | hmore := hse.eq_or_lt
    · have hnl : s.mem src = '\n' := hstop.resolve_left (by omega)
      have hhere : src < s.end_ ∧ s.mem src = '\n' := ⟨hlt, hnl⟩
      rw [Buffer.range_of_lt (by omega), fill, if_pos hhere, ite_self]
    · have hno : ¬ (src < s.end_ ∧ s.mem src = '\n') := fun h =>
        hplain src (le_refl src) hmore h.2
      have hrest : ∀ (dest : List Char) (ofs : ℕ),
          (if s.end_ ≤ src + 1 then (dest, ofs) else s.format_from isprint n (src + 1) dest ofs) =
            fill (cells isprint s.tabstop) (s.columns + s.tabstop) s.tabstop
              (s.range (src + 1) (e - 1)) dest ofs := by
        intro dest ofs
        split
        · rw [Buffer.range_of_lt (by omega), fill]
        · exact ih (by omega) (by omega) (hplain.mono (by omega) (le_refl e)) (by omega)
      rw [Buffer.range_cons (by omega), fill]
      by_cases hroom : dest.length < s.columns + s.tabstop
      · rw [if_pos hroom, if_pos hroom, if_neg hno, if_pos hlt, if_pos hlt]
        by_cases hpiece : s.tabstop ≤ ofs ∧
            s.tabstop ≤ (dest ++ cells isprint s.tabstop dest.length (s.mem src)).length
        · simp only [if_pos hpiece]
          exact hrest _ _
        · simp only [if_neg hpiece]
          exact hrest _ _
      · rw [if_neg hroom, if_neg hroom]

/-- What a column of the screen shows. -/
lemma getElem?_format_line (hj : j < s.columns) :
    (s.format_line isprint src)[j]? = some (shows ' '
      (s.format_from isprint ((s.end_ - src).toNat + 1) src [] s.offset.toNat) j) := by
  rw [format_line, shows]
  generalize s.format_from isprint ((s.end_ - src).toNat + 1) src [] s.offset.toNat = r
  obtain ⟨dest, ofs⟩ := r
  dsimp only
  split
  · rename_i hgigantic
    rw [List.drop_length, List.nil_append, List.getElem?_replicate, List.length_nil,
      if_pos (by omega), List.getD_eq_default _ _ (by omega)]
  · rename_i hshort
    by_cases hin : ofs + j < dest.length
    · rw [List.getElem?_append_left (by rw [List.length_drop]; omega), List.getElem?_drop,
        List.getD_eq_getElem?_getD, List.getElem?_eq_getElem hin]
      rfl
    · rw [List.getElem?_append_right (by rw [List.length_drop]; omega), List.getElem?_replicate,
        List.length_drop, if_pos (by omega), List.getD_eq_default _ _ (by omega)]

end Ed

/-! ## The cursor -/

/-- The cursor is shown on `d`: in a row above the status line and in a column of the screen, and
what that column shows of the line of `d` is the character at `d`. -/
structure CursorOn (isprint : Char → Bool) (s : Ed) (d : ℤ) : Prop where
  row_nonneg : 0 ≤ s.crow
  row_lt : s.crow < s.rows - 1
  /-- The screen begins `crow` lines before the line of `d`. -/
  starts : s.Starts s.screenbegin
  begin_nonneg : 0 ≤ s.screenbegin
  begin_le : s.screenbegin ≤ s.begin_line d
  row_eq : s.newlines s.screenbegin (s.begin_line d) = s.crow
  col_nonneg : 0 ≤ s.ccol
  col_lt : s.ccol < s.columns
  /-- Column `ccol` is where the character at `d` begins. -/
  col_eq : s.ccol + s.offset =
    (layout (cells isprint s.tabstop) 0 (s.range (s.begin_line d) (d - 1))).length
  shown : (s.format_line isprint (s.begin_line d))[s.ccol.toNat]? =
    some (first_cell isprint (s.mem d))

lemma headD_append {α : Type} {xs ys : List α} {a : α} (h : xs ≠ []) :
    (xs ++ ys).headD a = xs.headD a := by
  obtain ⟨x, xs, rfl⟩ := List.exists_cons_of_ne_nil h
  rfl

namespace Ed

/-- The line of `d` is ended by no newline and lies so little below the screen that the screen is
moved line by line. -/
def JustBelow (s : Ed) (d : ℤ) : Prop :=
  s.mem (s.end_line d) ≠ '\n' ∧ s.rows - 1 ≤ s.newlines s.screenbegin d ∧
    s.newlines s.screenbegin d < s.rows - 1 + (s.rows - 1) / 2

/-- Tabulators are one column wide, and so many characters before `d` in its line are shown with a
caret that the line is cut off before `d`, at which there is something to be seen. -/
def CutOff (isprint : Char → Bool) (s : Ed) (d : ℤ) : Prop :=
  s.tabstop = 1 ∧ s.columns < (s.range (s.begin_line d) (d - 1)).countP caret ∧
    first_cell isprint (s.mem d) ≠ ' '

variable {s : Ed} {isprint : Char → Bool} {d : ℤ} {k m : ℕ}

/-- The number of columns that the characters before `d` fill in its line. -/
def width (isprint : Char → Bool) (s : Ed) (d : ℤ) : ℕ :=
  (layout (cells isprint s.tabstop) 0 (s.range (s.begin_line d) (d - 1))).length

/-- Where tabulators are one column wide, only carets fill a second one. -/
lemma length_layout_one {xs : List Char} {co : ℕ} :
    (layout (cells isprint 1) co xs).length = xs.length + xs.countP caret := by
  induction xs generalizing co with
  | nil => rfl
  | cons x xs ih =>
    have hmod : co % 1 = 0 := Nat.mod_one co
    rw [layout_cons, List.length_append, ih, List.length_cons, List.countP_cons,
      length_cells Nat.one_pos, hmod]
    by_cases htab : x = '\t'
    · have hcaret : ¬ caret x := by simp [caret, htab]
      rw [if_pos htab, if_neg hcaret]
      omega
    · rw [if_neg htab]
      split <;> omega

/-- A line ends before its newline, or where the text ends. -/
lemma exists_line_end (hend : d < s.end_) : ∃ e, d ≤ e ∧ e ≤ s.end_ ∧ s.Plain d e ∧
    (e = s.end_ ∨ s.mem e = '\n') := by
  have hlt := Buffer.end_line_lt (b := s.toBuffer) hend
  have hle := s.le_end_line (p := d)
  by_cases hnl : s.mem (s.end_line d) = '\n'
  · exact ⟨s.end_line d, hle, hlt.le, Buffer.plain_end_line, .inr hnl⟩
  · have hlast := (Buffer.end_line_stop hend).resolve_left hnl
    refine ⟨s.end_, hend.le, le_refl _, fun i hi hi' => ?_, .inl rfl⟩
    by_cases hi'' : i < s.end_line d
    · exact Buffer.plain_end_line i hi hi''
    · have heq : i = s.end_line d := by omega
      rwa [heq]

/-- The window shows the character at `d` where it begins, unless the line has been cut off. -/
lemma shown_iff (hend : d < s.end_) (htab : 0 < s.tabstop) (hoff : 0 ≤ s.offset)
    (hle : s.offset ≤ s.width isprint d) (hcol : s.width isprint d - s.offset < s.columns) :
    (s.format_line isprint (s.begin_line d))[(s.width isprint d - s.offset).toNat]? =
        some (first_cell isprint (s.mem d)) ↔ ¬ s.CutOff isprint d := by
  have hbegin := s.begin_line_le (p := d)
  obtain ⟨e, hde, he, hplain, hstop⟩ := exists_line_end hend
  have hwhole : s.Plain (s.begin_line d) e := fun i hi hi' => by
    by_cases hid : i < d
    · exact Buffer.plain_begin_line i hi hid
    · exact hplain i (by omega) hi'
  have hat : s.offset.toNat + (s.width isprint d - s.offset).toNat = ([] : List Char).length +
      (layout (cells isprint s.tabstop) ([] : List Char).length
        (s.range (s.begin_line d) (d - 1))).length := by
    rw [width] at hle ⊢
    rw [List.length_nil]
    omega
  rw [getElem?_format_line (by omega), Option.some_inj,
    format_from_eq (by omega) (by omega) he hwhole hstop (by omega),
    ← Buffer.range_append hbegin hde]
  by_cases hcut : s.tabstop = 1 ∧ s.columns < (s.range (s.begin_line d) (d - 1)).countP caret
  · rw [shows_fill_of_full (fun _ _ => cells_ne_nil) (fun _ _ => cells_add) hcut.1 (by omega) ?_
      hat]
    · constructor
      · intro hblank hc
        exact hc.2.2 hblank.symm
      · intro hno
        by_contra hne
        exact hno ⟨hcut.1, hcut.2, Ne.symm hne⟩
    · rw [List.length_nil, hcut.1, length_layout_one]
      omega
  · have harrives : Arrives (cells isprint s.tabstop) s.columns s.tabstop
        (s.range (s.begin_line d) (d - 1)) [] s.offset.toNat := by
      by_cases hone : s.tabstop = 1
      · have hfew := not_lt.mp fun h => hcut ⟨hone, h⟩
        refine .inr (.inr ⟨hone, ?_⟩)
        rw [List.length_nil, hone, length_layout_one]
        omega
      · refine .inr (.inl ⟨htab, fun co x => ?_⟩)
        rw [length_cells htab]
        split
        · exact Nat.sub_le _ _
        · split <;> omega
    have hno : ¬ s.CutOff isprint d := fun hc => hcut ⟨hc.1, hc.2.1⟩
    rw [shows_fill_of_arrives (f := cells isprint s.tabstop) (fun _ _ => cells_ne_nil)
      (fun _ _ => cells_add) (by omega) harrives hat]
    refine iff_of_true ?_ hno
    obtain rfl | hmore := hde.eq_or_lt
    · have hnl := hstop.resolve_left (by omega)
      rw [Buffer.range_of_lt (p := d) (by omega), layout_nil, hnl]
      rfl
    · rw [Buffer.range_cons (p := d) (q := e - 1) (by omega), layout_cons,
        headD_append cells_ne_nil, headD_cells (hplain d (le_refl d) hmore)]

/-- What `sync_cursor` finds. -/
lemma sync_cursor_spec (h0 : 0 ≤ d) (hend : d < s.end_) (hstarts : s.Starts s.screenbegin)
    (hbegin : 0 ≤ s.screenbegin) (hbegin' : s.screenbegin < s.end_) (hrows : 2 ≤ s.rows)
    (hcols : 2 ≤ s.columns) (htab : 0 < s.tabstop) (hoff : 0 ≤ s.offset) :
    ∃ m' ≤ s.newlines 0 (s.begin_line d), ∃ o : ℤ,
      s.sync_cursor d = { s.toScreen with
        screenbegin := s.line m'
        offset := o
        crow := (s.newlines 0 (s.begin_line d) - m' : ℕ)
        ccol := s.width isprint d - o } ∧
      0 ≤ o ∧ o ≤ s.width isprint d ∧ s.width isprint d - o < s.columns ∧
      s.newlines 0 (s.begin_line d) ≤ m' + (s.rows - 1) ∧
      (s.newlines 0 (s.begin_line d) = m' + (s.rows - 1) ↔
        s.Uncounted (s.newlines 0 s.screenbegin) (s.newlines 0 (s.begin_line d))) := by
  have hpos : 0 < s.end_ := by omega
  have hle := s.begin_line_le (p := d)
  have hb0 := Buffer.begin_line_nonneg (b := s.toBuffer) h0
  have hk := Buffer.newlines_mono (b := s.toBuffer) hb0 (by omega : s.begin_line d ≤ s.end_ - 1)
  have hm := Buffer.newlines_mono (b := s.toBuffer) hbegin (by omega : s.screenbegin ≤ s.end_ - 1)
  have hline := Buffer.line_newlines hb0 (Buffer.starts_begin_line (b := s.toBuffer) h0) (by omega)
  have hscreen := Buffer.line_newlines hbegin hstarts hbegin'
  obtain ⟨m', hmk, hscr, hrow, hiff⟩ := scrolled_line hpos hk hrows hscreen.symm hm
  have hrowof := row_of_line hpos hk hmk hrow
  rw [hline] at hscr hrowof
  have hcol : s.col_of d (d - s.begin_line d).toNat (s.begin_line d) ((0 : ℕ) : ℤ) =
      ((0 + s.width isprint d : ℕ) : ℤ) :=
    col_of_eq htab Buffer.plain_begin_line (by omega)
  rw [Nat.zero_add, Nat.cast_zero] at hcol
  obtain ⟨w, hw⟩ : ∃ w : ℤ, (s.width isprint d : ℤ) = w := ⟨_, rfl⟩
  have hw0 : 0 ≤ w := by omega
  have hfirst : d = s.begin_line d → w = 0 := by
    intro h
    rw [← hw, width, ← h, Buffer.range_of_lt (p := d) (by omega)]
    rfl
  have hshift : ∃ o : ℤ, (if d = s.begin_line d ∧ s.mem d = '\t' then 0
      else if s.columns + (if w < s.offset then w else s.offset) ≤ w then w - s.columns + 1
      else if w < s.offset then w else s.offset) = o ∧ 0 ≤ o ∧ o ≤ w ∧ w - o < s.columns := by
    refine ⟨_, rfl, ?_⟩
    split
    · rename_i h
      have := hfirst h.1
      omega
    · split_ifs <;> omega
  obtain ⟨o, hshift, ho⟩ := hshift
  rw [hw]
  refine ⟨m', hmk, o, ?_, ho.1, ho.2.1, ho.2.2, hrow, hiff⟩
  rw [sync_cursor]
  dsimp only
  rw [hscr, hrowof]
  dsimp only
  rw [hcol, hw, hshift]

/-- What it means to be just below the screen, in numbers of lines. -/
lemma justBelow_iff (h0 : 0 ≤ d) (hend : d < s.end_) (hbegin : 0 ≤ s.screenbegin)
    (hrows : 2 ≤ s.rows) :
    s.JustBelow d ↔ s.Uncounted (s.newlines 0 s.screenbegin) (s.newlines 0 (s.begin_line d)) := by
  have hle := s.begin_line_le (p := d)
  have hb0 := Buffer.begin_line_nonneg (b := s.toBuffer) h0
  have hline := Buffer.line_newlines hb0 (Buffer.starts_begin_line (b := s.toBuffer) h0) (by omega)
  have hsame := Buffer.newlines_begin_line (b := s.toBuffer) h0
  rw [JustBelow, Uncounted, hline, Buffer.end_line_begin_line hend]
  by_cases hbehind : s.screenbegin ≤ d
  · have hadd := Buffer.newlines_add (b := s.toBuffer) hbegin hbehind
    constructor
    · rintro ⟨hnl, hlow, hhigh⟩
      exact ⟨hnl, by omega, by omega⟩
    · rintro ⟨hnl, hlow, hhigh⟩
      exact ⟨hnl, by omega, by omega⟩
  · have hnone : s.newlines s.screenbegin d = 0 :=
      Buffer.newlines_eq_zero.mpr fun i hi hi' => by omega
    have hmono := Buffer.newlines_mono (b := s.toBuffer) h0 (by omega : d ≤ s.screenbegin)
    constructor
    · rintro ⟨-, hlow, -⟩
      omega
    · rintro ⟨-, hlow, -⟩
      omega

end Ed

/-- **The cursor is shown on dot**, unless dot is in a line at the end of the text that no newline
ends and that comes up from below the screen line by line, or there are many control characters
before it in its line and tabulators are one column wide. -/
theorem cursor_on_dot {s : Ed} {d : ℤ} (isprint : Char → Bool) (h0 : 0 ≤ d) (hend : d < s.end_)
    (hstarts : s.Starts s.screenbegin) (hbegin : 0 ≤ s.screenbegin)
    (hbegin' : s.screenbegin < s.end_) (hrows : 2 ≤ s.rows) (hcols : 2 ≤ s.columns)
    (htab : 0 < s.tabstop) (hoff : 0 ≤ s.offset) :
    CursorOn isprint { s with toScreen := s.sync_cursor d } d ↔
      ¬ s.JustBelow d ∧ ¬ s.CutOff isprint d := by
  obtain ⟨m', hmk, o, hsync, ho0, how, hcol, hrow, hiff⟩ :=
    @Ed.sync_cursor_spec s isprint d h0 hend hstarts hbegin hbegin' hrows hcols htab hoff
  have hpos : 0 < s.end_ := by omega
  have hle := s.begin_line_le (p := d)
  have hb0 := Buffer.begin_line_nonneg (b := s.toBuffer) h0
  have hk := Buffer.newlines_mono (b := s.toBuffer) hb0 (by omega : s.begin_line d ≤ s.end_ - 1)
  have hline := Buffer.line_newlines hb0 (Buffer.starts_begin_line (b := s.toBuffer) h0) (by omega)
  have hmlast := hmk.trans hk
  have hup := Buffer.line_le_line hpos hk hmk
  have hm0 := Buffer.line_nonneg hpos hmlast
  have hadd := Buffer.newlines_add (b := s.toBuffer) hm0 hup
  rw [Buffer.newlines_line hpos hmlast, Buffer.newlines_line hpos hk, hline] at hadd
  rw [Ed.justBelow_iff h0 hend hbegin hrows, ← hiff, hsync]
  have hshown := @Ed.shown_iff { s with toScreen := { s.toScreen with
    screenbegin := s.line m'
    offset := o
    crow := (s.newlines 0 (s.begin_line d) - m' : ℕ)
    ccol := s.width isprint d - o } } isprint d hend htab ho0 how hcol
  constructor
  · intro h
    have hrows' : ((s.newlines 0 (s.begin_line d) - m' : ℕ) : ℤ) < s.rows - 1 := h.row_lt
    exact ⟨by omega, hshown.mp h.shown⟩
  · rintro ⟨hrow', hcut⟩
    exact {
      row_nonneg := Int.natCast_nonneg _
      row_lt := by
        show ((s.newlines 0 (s.begin_line d) - m' : ℕ) : ℤ) < s.rows - 1
        omega
      starts := Buffer.starts_line hpos hmlast
      begin_nonneg := hm0
      begin_le := hline ▸ hup
      row_eq := by
        show ((s.newlines (s.line m') (s.begin_line d) : ℕ) : ℤ) =
          ((s.newlines 0 (s.begin_line d) - m' : ℕ) : ℤ)
        omega
      col_nonneg := sub_nonneg.mpr how
      col_lt := hcol
      col_eq := sub_add_cancel _ _
      shown := hshown.mpr hcut }

/-- The editor that has read the text `text`, on a screen of the given size. -/
def on_screen_of (text : List Char) (rows columns tabstop : ℕ) : Ed :=
  { (opened text []).toEd with rows := rows, columns := columns, tabstop := tabstop }

/-- A tabulator before dot. -/
theorem cursor_on_dot_tab : CursorOn (fun _ => true)
    { on_screen_of ['a', '\t', 'b', '\n'] 24 80 8 with
      toScreen := (on_screen_of ['a', '\t', 'b', '\n'] 24 80 8).sync_cursor 2 } 2 := by
  have h : ∀ s d, s = on_screen_of ['a', '\t', 'b', '\n'] 24 80 8 → d = 2 →
      CursorOn (fun _ => true) { s with toScreen := s.sync_cursor d } d := by
    rintro s d rfl rfl
    have hiff := cursor_on_dot (s := on_screen_of ['a', '\t', 'b', '\n'] 24 80 8) (d := 2)
      (fun _ => true) (by decide) (by decide +kernel) (.inl (by decide +kernel)) (by decide +kernel)
      (by decide +kernel) (by decide) (by decide) (by decide) (by decide +kernel)
    refine hiff.mpr ⟨fun h => h.1 (by decide +kernel), fun h => ?_⟩
    exact absurd h.1 (by decide)
  exact h _ _ rfl rfl

/-- Dot in the last line, which no newline ends, one line below a screen of three rows, is shown on
the status line.  Behind three control characters it is not shown at all on a screen of two columns,
when tabulators are one column wide. -/
theorem cursor_off_dot :
    ¬ CursorOn (fun _ => true)
      { on_screen_of ['a', '\n', 'b', '\n', 'c', '\n', 'd'] 4 80 8 with
        toScreen := (on_screen_of ['a', '\n', 'b', '\n', 'c', '\n', 'd'] 4 80 8).sync_cursor 6 } 6 ∧
    ¬ CursorOn (fun _ => true)
      { on_screen_of ['\x01', '\x01', '\x01', 'x', '\n'] 24 2 1 with
        toScreen := (on_screen_of ['\x01', '\x01', '\x01', 'x', '\n'] 24 2 1).sync_cursor 3 } 3 := by
  constructor
  · intro h
    exact absurd h.row_lt (by decide +kernel)
  · intro h
    exact absurd h.shown (by decide +kernel)

end EspLinux.Vi
