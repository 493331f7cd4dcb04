import EspLinux.Vi.Cursor

/-!
# vi: rendering a line

`format_line` lays out a line into `scr_out_buf` and gives a pointer into it, from which on the
screen takes `columns` cells.  Here it works on the buffer itself, so that an access outside of it
shows.  The cells are those of the line from column `offset` on.  Where tabulators are one column
wide this may fail: each turn of the loop then throws away a single cell, while a control character
fills two, so that the buffer may be full before the loop has come to `offset`, and the blanks that
are put behind the cells that are left may run over its end.
-/

namespace EspLinux.Vi

open Lib

/-! ## The buffer -/

def MAX_TABSTOP : ℕ := 32

def MAX_SCR_COLS : ℕ := 4096

/-- The size of `scr_out_buf`. -/
def scr_out_len : ℕ := MAX_SCR_COLS + MAX_TABSTOP * 2

/-- Store cells from `i` on, if they are all in the buffer. -/
def store_cells (buf : List Char) (i : ℕ) (cs : List Char) : Option (List Char) :=
  if i + cs.length ≤ buf.length then some (buf.take i ++ cs ++ buf.drop (i + cs.length)) else none

/-- `memmove(dest, dest + k, n)`, if it stays in the buffer. -/
def move_cells (buf : List Char) (k n : ℕ) : Option (List Char) :=
  if k + n ≤ buf.length then some ((buf.drop k).take n ++ buf.drop n) else none

/-- Read `n` cells from `i` on, if they are all in the buffer. -/
def read_cells (buf : List Char) (i n : ℕ) : Option (List Char) :=
  if i + n ≤ buf.length then some ((buf.drop i).take n) else none

namespace Ed

/-- The loop of `format_line`, for at most `n` turns: `none` if it leaves the buffer `dest`. -/
def format_in (s : Ed) (isprint : Char → Bool) :
    ℕ → ℤ → List Char → ℕ → ℕ → Option (List Char × ℕ × ℕ)
  | 0, _, dest, co, ofs => some (dest, co, ofs)
  | n + 1, src, dest, co, ofs =>
    if co < s.columns + s.tabstop then
      if src < s.end_ ∧ s.mem src = '\n' then some (dest, co, ofs)
      else
        let cs := if src < s.end_ then cells isprint s.tabstop co (s.mem src) else ['~']
        let src := if src < s.end_ then src + 1 else src
        (store_cells dest co cs).bind fun dest =>
          let co := co + cs.length
          -- what is scrolled off to the left is discarded in pieces
          (if s.tabstop ≤ ofs ∧ s.tabstop ≤ co then
            (move_cells dest s.tabstop co).map fun dest => (dest, co - s.tabstop, ofs - s.tabstop)
          else some (dest, co, ofs)).bind fun (dest, co, ofs) =>
            if s.end_ ≤ src then some (dest, co, ofs) else s.format_in isprint n src dest co ofs
    else some (dest, co, ofs)

/-- The line at `src` in the buffer `scr_out_buf`: the cells that are taken from it, or `none` if
anything but the buffer is accessed. -/
def format_line_in (s : Ed) (isprint : Char → Bool) (src : ℤ) (scr_out_buf : List Char) :
    Option (List Char) :=
  (s.format_in isprint ((s.end_ - src).toNat + 1) src scr_out_buf 0 s.offset.toNat).bind
    fun (dest, co, ofs) =>
      let ofs := if co < ofs then co else ofs
      let co := co - ofs
      (if co < s.columns then store_cells dest (ofs + co) (List.replicate (s.columns - co) ' ')
      else some dest).bind fun dest => read_cells dest ofs s.columns

/-! ## What is to be shown -/

/-- The characters from `src` to the end of the line. -/
def line_from (s : Ed) (src : ℤ) : List Char :=
  (s.range src (s.end_ - 1)).takeWhile fun c => c ≠ '\n'

/-- All the cells of the line at `src`; a line behind the text is shown as `~`. -/
def expansion (isprint : Char → Bool) (s : Ed) (src : ℤ) : List Char :=
  if s.end_ ≤ src then ['~'] else layout (cells isprint s.tabstop) 0 (s.line_from src)

/-- The columns of the screen, filled with blanks. -/
def window (isprint : Char → Bool) (s : Ed) (src : ℤ) : List Char :=
  (List.range s.columns).map fun j => (s.expansion isprint src).getD (s.offset.toNat + j) ' '

/-- How many cells a character fills, if tabulators are one column wide. -/
def width_one (c : Char) : ℕ := if caret c then 2 else 1

/-- The characters of the line at `src` with which the buffer is full, if tabulators are one column
wide. -/
def laid (s : Ed) (src : ℤ) : List Char := before_full width_one (s.columns + 1) (s.line_from src)

/-- Tabulators are one column wide, and the buffer is full, or the line at its end, before the loop
comes to `offset`; and the blanks behind what is left of the cells run over the end of
`scr_out_buf`, or stand in place of something that is not blank. -/
def Overrun (isprint : Char → Bool) (s : Ed) (src : ℤ) : Prop :=
  src < s.end_ ∧ s.tabstop = 1 ∧ (s.laid src).length ≤ s.offset.toNat ∧
    (scr_out_len <
        min (s.offset.toNat - (s.laid src).length) ((s.laid src).countP caret) + s.columns ∨
      ∃ j < s.columns, (s.laid src).length + (s.laid src).countP caret ≤ s.offset.toNat + j ∧
        (s.expansion isprint src).getD (s.offset.toNat + j) ' ' ≠ ' ')

end Ed

/-! ## Working on the buffer -/

section Buffers

variable {buf buf' dest cs : List Char} {i k n : ℕ}

lemma store_cells_eq (h : i + cs.length ≤ buf.length) (hdest : buf.take i = dest) :
    ∃ buf', store_cells buf i cs = some buf' ∧ buf'.length = buf.length ∧
      buf'.take (i + cs.length) = dest ++ cs := by
  have hlen : (buf.take i).length = i := by
    rw [List.length_take]
    omega
  refine ⟨_, if_pos h, ?_, ?_⟩
  · simp only [List.length_append, List.length_drop]
    omega
  · rw [hdest] at hlen ⊢
    rw [← hlen, ← List.length_append, List.take_left]

lemma move_cells_eq (h : k + n ≤ buf.length) (hk : k ≤ n) (hdest : buf.take n = dest) :
    ∃ buf', move_cells buf k n = some buf' ∧ buf'.length = buf.length ∧
      buf'.take (n - k) = dest.drop k := by
  refine ⟨_, if_pos h, ?_, ?_⟩
  · simp only [List.length_append, List.length_take, List.length_drop]
    omega
  · have hlen : ((buf.drop k).take n).length = n := by
      rw [List.length_take, List.length_drop]
      omega
    rw [List.take_append_of_le_length (by omega), List.take_take, min_eq_left (by omega), ← hdest,
      List.drop_take]

/-- What is read from the part of the buffer that is known. -/
lemma read_cells_eq (hdest : buf.take dest.length = dest) (h : i + n ≤ dest.length) :
    read_cells buf i n = some ((List.range n).map fun j => dest.getD (i + j) ' ') := by
  have hlen : dest.length ≤ buf.length := by
    have hle := congrArg List.length hdest
    rw [List.length_take] at hle
    omega
  rw [read_cells, if_pos (by omega)]
  refine congrArg some (List.ext_getElem? fun j => ?_)
  rw [List.getElem?_map, List.getElem?_take, List.getElem?_drop]
  by_cases hj : j < n
  · rw [if_pos hj, List.getElem?_range hj, Option.map_some, ← hdest, List.getD_eq_getElem?_getD,
      List.getElem?_take_of_lt (by omega), List.getElem?_eq_getElem (by omega)]
    rfl
  · rw [if_neg hj, List.getElem?_eq_none (by rw [List.length_range]; omega), Option.map_none]

/-- Blanks behind the cells make no difference. -/
lemma getD_append_blanks (dest : List Char) (n i : ℕ) :
    (dest ++ List.replicate n ' ').getD i ' ' = dest.getD i ' ' := by
  by_cases hi : i < dest.length
  · exact List.getD_append _ _ _ _ hi
  · rw [List.getD_append_right _ _ _ _ (by omega), List.getD_eq_default dest _ (by omega)]
    simp [List.getD_eq_getElem?_getD, List.getElem?_replicate]
    split <;> rfl

end Buffers

namespace Ed

variable {s : Ed} {isprint : Char → Bool} {src : ℤ} {n ofs : ℕ} {buf dest : List Char}

/-- The loop stays in the buffer, and does to its first cells what it does without one. -/
lemma format_in_eq (htab : 0 < s.tabstop) (hcols : s.columns + 2 * s.tabstop ≤ buf.length)
    (htabs : 3 * s.tabstop ≤ buf.length) (hone : s.columns + 3 ≤ buf.length)
    (hdest : buf.take dest.length = dest)
    (hinv : ofs < s.tabstop ∨ dest.length < s.tabstop ∨ s.tabstop = 1) : ∃ buf',
    s.format_in isprint n src buf dest.length ofs =
      some (buf', (s.format_from isprint n src dest ofs).1.length,
        (s.format_from isprint n src dest ofs).2) ∧ buf'.length = buf.length ∧
      buf'.take (s.format_from isprint n src dest ofs).1.length =
        (s.format_from isprint n src dest ofs).1 := by
  induction n generalizing src buf dest ofs with
  | zero => exact ⟨buf, rfl, rfl, hdest⟩
  | succ n ih =>
    rw [format_in, format_from]
    by_cases hlt : dest.length < s.columns + s.tabstop
    · rw [if_pos hlt, if_pos hlt]
      by_cases hnl : src < s.end_ ∧ s.mem src = '\n'
      · rw [if_pos hnl, if_pos hnl]
        exact ⟨buf, rfl, rfl, hdest⟩
      · rw [if_neg hnl, if_neg hnl]
        dsimp only
        -- the cells of one character
        obtain ⟨cs, hcs⟩ : ∃ cs, (if src < s.end_ then
            cells isprint s.tabstop dest.length (s.mem src) else ['~']) = cs := ⟨_, rfl⟩
        have hwidth : cs.length ≤ s.tabstop ∨ s.tabstop = 1 ∧ cs.length ≤ 2 := by
          rw [← hcs]
          split
          · rw [length_cells htab]
            split_ifs <;> omega
          · rw [List.length_singleton]
            omega
        rw [hcs]
        obtain ⟨buf₁, hstore, hlen₁, hdest₁⟩ := @store_cells_eq _ _ cs _ (by omega) hdest
        have hlast : ∀ (src : ℤ) (buf₂ dest₂ : List Char) (ofs₂ : ℕ), buf₂.length = buf.length →
            buf₂.take dest₂.length = dest₂ →
            (ofs₂ < s.tabstop ∨ dest₂.length < s.tabstop ∨ s.tabstop = 1) → ∃ buf',
            (if s.end_ ≤ src then some (buf₂, dest₂.length, ofs₂)
              else s.format_in isprint n src buf₂ dest₂.length ofs₂) =
              some (buf', (if s.end_ ≤ src then (dest₂, ofs₂)
                else s.format_from isprint n src dest₂ ofs₂).1.length,
                (if s.end_ ≤ src then (dest₂, ofs₂)
                  else s.format_from isprint n src dest₂ ofs₂).2) ∧
              buf'.length = buf.length ∧
              buf'.take (if s.end_ ≤ src then (dest₂, ofs₂)
                else s.format_from isprint n src dest₂ ofs₂).1.length =
                (if s.end_ ≤ src then (dest₂, ofs₂)
                  else s.format_from isprint n src dest₂ ofs₂).1 := by
          intro src buf₂ dest₂ ofs₂ hlen₂ hdest₂ hinv₂
          by_cases hend : s.end_ ≤ src
          · simp only [if_pos hend]
            exact ⟨buf₂, rfl, hlen₂, hdest₂⟩
          · simp only [if_neg hend]
            obtain ⟨buf', hrun, hlen', hdest'⟩ :=
              @ih src ofs₂ buf₂ dest₂ (by omega) (by omega) (by omega) hdest₂ hinv₂
            exact ⟨buf', hrun, hlen'.trans hlen₂, hdest'⟩
        rw [hstore, Option.bind_some]
        have hlen : dest.length + cs.length = (dest ++ cs).length := List.length_append.symm
        rw [hlen] at hdest₁ ⊢
        by_cases hpiece : s.tabstop ≤ ofs ∧ s.tabstop ≤ (dest ++ cs).length
        · have hroom : s.tabstop + (dest ++ cs).length ≤ buf₁.length := by
            rw [← hlen]
            omega
          obtain ⟨buf₂, hmove, hlen₂, hdest₂⟩ := move_cells_eq hroom hpiece.2 hdest₁
          rw [if_pos hpiece, if_pos hpiece, hmove, Option.map_some, Option.bind_some]
          rw [← List.length_drop] at hdest₂ ⊢
          refine hlast _ buf₂ _ _ (hlen₂.trans hlen₁) hdest₂ ?_
          rw [List.length_drop, ← hlen]
          omega
        · rw [if_neg hpiece, if_neg hpiece, Option.bind_some]
          refine hlast _ buf₁ (dest ++ cs) ofs hlen₁ hdest₁ ?_
          rw [← hlen]
          omega
    · rw [if_neg hlt, if_neg hlt]
      exact ⟨buf, rfl, rfl, hdest⟩

/-- What is shown, if the blanks do not run over the end of the buffer. -/
lemma format_line_in_eq (htab : 0 < s.tabstop) (hcols : s.columns + 2 * s.tabstop ≤ buf.length)
    (htabs : 3 * s.tabstop ≤ buf.length) (hone : s.columns + 3 ≤ buf.length) {r : List Char × ℕ}
    (hr : s.format_from isprint ((s.end_ - src).toNat + 1) src [] s.offset.toNat = r) :
    s.format_line_in isprint src buf =
      if min r.2 r.1.length + s.columns ≤ buf.length then
        some ((List.range s.columns).map (shows ' ' r)) else none := by
  obtain ⟨buf', hrun, hlen', hdest'⟩ := @format_in_eq s isprint src
    ((s.end_ - src).toNat + 1) s.offset.toNat buf [] htab hcols htabs hone rfl (.inr (.inl htab))
  rw [hr] at hrun hdest'
  obtain ⟨dest, ofs⟩ := r
  rw [List.length_nil] at hrun
  dsimp only at hrun hdest' ⊢
  have hle : dest.length ≤ buf'.length := by
    have hle := congrArg List.length hdest'
    rw [List.length_take] at hle
    omega
  obtain ⟨ofs', hofs⟩ : ∃ ofs', (if dest.length < ofs then dest.length else ofs) = ofs' := ⟨_, rfl⟩
  have hmin : ofs' = min ofs dest.length := by
    rw [← hofs]
    split <;> omega
  have hshows : ∀ n, (List.range s.columns).map (fun j =>
      (dest ++ List.replicate n ' ').getD (ofs' + j) ' ') =
        (List.range s.columns).map (shows ' ' (dest, ofs)) := by
    intro n
    refine List.map_congr_left fun j _ => ?_
    rw [getD_append_blanks, shows]
    by_cases hgigantic : dest.length < ofs
    · have hbehind : dest.length ≤ ofs + j := by omega
      rw [List.getD_eq_default _ _ (by omega), List.getD_eq_default _ _ hbehind]
    · have heq : ofs' = ofs := by omega
      rw [heq]
  rw [format_line_in, hrun, Option.bind_some]
  dsimp only
  rw [hofs, ← hmin]
  by_cases hfew : dest.length - ofs' < s.columns
  · have hat : ofs' + (dest.length - ofs') = dest.length := by omega
    rw [if_pos hfew, hat]
    by_cases hroom : ofs' + s.columns ≤ buf.length
    · obtain ⟨buf₂, hstore, -, hdest₂⟩ := @store_cells_eq _ _
        (List.replicate (s.columns - (dest.length - ofs')) ' ') _
        (by rw [List.length_replicate]; omega) hdest'
      rw [← List.length_append] at hdest₂
      rw [if_pos hroom, hstore, Option.bind_some, read_cells_eq hdest₂ ?_, hshows]
      rw [List.length_append, List.length_replicate]
      omega
    · rw [if_neg hroom, store_cells, if_neg (by rw [List.length_replicate]; omega)]
      rfl
  · have hnone := hshows 0
    rw [List.replicate_zero, List.append_nil] at hnone
    rw [if_neg hfew, Option.bind_some, if_pos (by omega), read_cells_eq hdest' (by omega), hnone]

/-! ## The cells -/

lemma line_from_eq {e : ℤ} (hse : src ≤ e) (he : e ≤ s.end_) (hplain : s.Plain src e)
    (hstop : e = s.end_ ∨ s.mem e = '\n') : s.line_from src = s.range src (e - 1) := by
  have hsplit := s.range_append (p := src) (q := e) (e := s.end_) hse he
  have hno : ∀ c ∈ s.range src (e - 1), decide (c ≠ '\n') = true := by
    intro c hc
    rw [Buffer.range_def, List.mem_map] at hc
    obtain ⟨i, hi, rfl⟩ := hc
    rw [List.mem_range] at hi
    exact decide_eq_true (hplain _ (by omega) (by omega))
  have hrest : (s.range e (s.end_ - 1)).takeWhile (fun c => c ≠ '\n') = [] := by
    rcases hstop with rfl | hnl
    · rw [Buffer.range_of_lt (by omega), List.takeWhile_nil]
    · obtain rfl | hlt := he.eq_or_lt
      · rw [Buffer.range_of_lt (by omega), List.takeWhile_nil]
      · rw [Buffer.range_cons (by omega), List.takeWhile_cons_of_neg (by simp [hnl])]
  rw [line_from, ← hsplit, List.takeWhile_append_of_pos hno, hrest, List.append_nil]

/-- The loop lays out the line. -/
lemma format_from_line (hlt : src < s.end_) :
    s.format_from isprint ((s.end_ - src).toNat + 1) src dest ofs =
      fill (cells isprint s.tabstop) (s.columns + s.tabstop) s.tabstop (s.line_from src) dest ofs := by
  obtain ⟨e, hse, he, hplain, hstop⟩ := exists_line_end hlt
  rw [format_from_eq hlt hse he hplain hstop (by push_cast; omega),
    line_from_eq hse he hplain hstop]

/-- Behind the text there is a single cell. -/
lemma format_from_behind (hge : s.end_ ≤ src) (hpos : 0 < s.columns + s.tabstop) :
    s.format_from isprint ((s.end_ - src).toNat + 1) src [] ofs =
      if s.tabstop ≤ ofs ∧ s.tabstop ≤ 1 then (['~'].drop s.tabstop, ofs - s.tabstop)
      else (['~'], ofs) := by
  have hbehind : ¬ src < s.end_ := by omega
  have hno : ¬ (src < s.end_ ∧ s.mem src = '\n') := fun h => hbehind h.1
  rw [format_from, List.length_nil, if_pos hpos, if_neg hno]
  simp only [if_neg hbehind, if_pos hge, List.nil_append, List.length_singleton]

lemma map_eq_window {r : List Char × ℕ} :
    (List.range s.columns).map (shows ' ' r) = s.window isprint src ↔
      ∀ j < s.columns, shows ' ' r j = (s.expansion isprint src).getD (s.offset.toNat + j) ' ' := by
  rw [window, List.map_inj_left]
  exact ⟨fun h j hj => h j (List.mem_range.mpr hj), fun h j hj => h j (List.mem_range.mp hj)⟩

lemma scr_out_len_eq : scr_out_len = 4160 := rfl

/-- Where tabulators are wider than one column, the window shows the line, and what the loop leaves
to be thrown away, or has laid out, is less than a tabulator. -/
lemma format_from_wide (hlt : src < s.end_) (htab : 2 ≤ s.tabstop) :
    (∀ j < s.columns, shows ' ' (s.format_from isprint ((s.end_ - src).toNat + 1) src []
      s.offset.toNat) j = (s.expansion isprint src).getD (s.offset.toNat + j) ' ') ∧
    min (s.format_from isprint ((s.end_ - src).toNat + 1) src [] s.offset.toNat).2
      (s.format_from isprint ((s.end_ - src).toNat + 1) src [] s.offset.toNat).1.length <
        s.tabstop := by
  have hw : ∀ co x, (cells isprint s.tabstop co x).length ≤ s.tabstop := by
    intro co x
    rw [length_cells (by omega)]
    split_ifs <;> omega
  have hnil : s.offset.toNat < s.tabstop ∨ ([] : List Char).length < s.tabstop := by
    right
    rw [List.length_nil]
    omega
  rw [format_from_line hlt]
  constructor
  · intro j hj
    rw [shows_fill_eq (fun _ _ => cells_add) hj (hnil.imp id fun h => ⟨h, hw⟩), expansion,
      if_neg (by omega)]
    rfl
  · exact min_lt_iff.mpr (fill_small hw hnil)

lemma length_cells_one (co : ℕ) (c : Char) : (cells isprint 1 co c).length = width_one c := by
  rw [length_cells one_pos, Nat.mod_one, width_one]
  by_cases htab : c = '\t'
  · have hcaret : ¬ caret c := by simp [caret, htab]
    rw [if_pos htab, if_neg hcaret, Nat.sub_zero]
  · rw [if_neg htab]

lemma width_one_pos (c : Char) : 0 < width_one c := by
  rw [width_one]
  split <;> omega

/-- Where tabulators are one column wide, and the buffer is full or the line at its end before the
loop comes to `offset`, the window shows blanks for what has not been laid out. -/
lemma format_from_full (hlt : src < s.end_) (htab : s.tabstop = 1)
    (hle : (s.laid src).length ≤ s.offset.toNat) {r : List Char × ℕ}
    (hr : s.format_from isprint ((s.end_ - src).toNat + 1) src [] s.offset.toNat = r) :
    (∀ j < s.columns, shows ' ' r j =
      if (s.laid src).length + (s.laid src).countP caret ≤ s.offset.toNat + j then ' '
      else (s.expansion isprint src).getD (s.offset.toNat + j) ' ') ∧
    min r.2 r.1.length =
      min (s.offset.toNat - (s.laid src).length) ((s.laid src).countP caret) := by
  have hfill : fill (cells isprint 1) (s.columns + 1) 1 (s.line_from src) [] s.offset.toNat =
      ((layout (cells isprint 1) 0 (s.laid src)).drop (s.laid src).length,
        s.offset.toNat - (s.laid src).length) :=
    fill_one length_cells_one width_one_pos (fun _ _ => cells_add) hle
  have hlen := @length_layout_one isprint (s.laid src) 0
  obtain ⟨rest, hline⟩ : s.laid src <+: s.line_from src := before_full_prefix
  have hexp : s.expansion isprint src = layout (cells isprint 1) 0 (s.laid src) ++
      layout (cells isprint 1) (0 + (layout (cells isprint 1) 0 (s.laid src)).length) rest := by
    rw [expansion, if_neg (by omega), htab, ← hline, layout_append]
  have hresult : r = ((layout (cells isprint 1) 0 (s.laid src)).drop (s.laid src).length,
      s.offset.toNat - (s.laid src).length) := by
    rw [← hr, format_from_line hlt, htab]
    exact hfill
  rw [hresult]
  constructor
  · intro j _
    have hat : (s.laid src).length + (s.offset.toNat - (s.laid src).length + j) =
        s.offset.toNat + j := by omega
    rw [shows, List.getD_eq_getElem?_getD, List.getElem?_drop, hat, ← List.getD_eq_getElem?_getD,
      hexp]
    split
    · exact List.getD_eq_default _ _ (by omega)
    · rw [List.getD_append _ _ _ _ (by omega)]
  · rw [List.length_drop, hlen]
    omega

/-- Otherwise it shows the line. -/
lemma format_from_narrow (hlt : src < s.end_) (htab : s.tabstop = 1)
    (hgt : s.offset.toNat < (s.laid src).length) {r : List Char × ℕ}
    (hr : s.format_from isprint ((s.end_ - src).toNat + 1) src [] s.offset.toNat = r)
    (hcols : 0 < s.columns) :
    (∀ j < s.columns, shows ' ' r j = (s.expansion isprint src).getD (s.offset.toNat + j) ' ') ∧
      r.2 = 0 := by
  have hfill : ∀ j < s.columns,
      (fill (cells isprint 1) (s.columns + 1) 1 (s.line_from src) [] s.offset.toNat).2 = 0 ∧
        shows ' ' (fill (cells isprint 1) (s.columns + 1) 1 (s.line_from src) []
          s.offset.toNat) j =
            (layout (cells isprint 1) 0 (s.line_from src)).getD (s.offset.toNat + j) ' ' :=
    fun j hj => shows_fill_one length_cells_one width_one_pos (fun _ _ => cells_add) hj hgt
  have hresult : fill (cells isprint 1) (s.columns + 1) 1 (s.line_from src) [] s.offset.toNat = r := by
    rw [← hr, format_from_line hlt, htab]
  rw [hresult] at hfill
  refine ⟨fun j hj => ?_, (hfill 0 hcols).1⟩
  rw [(hfill j hj).2, expansion, if_neg (by omega), htab]

/-- Behind the text there is a single cell. -/
lemma format_from_missing (hge : s.end_ ≤ src) (htab : 0 < s.tabstop) :
    (∀ j < s.columns, shows ' ' (s.format_from isprint ((s.end_ - src).toNat + 1) src []
      s.offset.toNat) j = (s.expansion isprint src).getD (s.offset.toNat + j) ' ') ∧
    (s.format_from isprint ((s.end_ - src).toNat + 1) src [] s.offset.toNat).1.length ≤ 1 := by
  rw [format_from_behind hge (by omega), expansion, if_pos hge]
  split
  · rename_i hpiece
    refine ⟨fun j _ => ?_, ?_⟩
    · rw [shows_drop hpiece.1, shows]
    · rw [List.length_drop]
      exact Nat.sub_le _ _
  · exact ⟨fun j _ => rfl, le_refl _⟩

/-- **A line is rendered** as the cells of its expansion from `offset` on, and nothing but the
buffer is accessed, unless tabulators are one column wide and the loop ends before it comes to
`offset`. -/
theorem format_line_window (hbuf : buf.length = scr_out_len) (hcols : 2 ≤ s.columns)
    (hmax : s.columns ≤ MAX_SCR_COLS) (htab : 1 ≤ s.tabstop) (htmax : s.tabstop ≤ MAX_TABSTOP) :
    s.format_line_in isprint src buf = some (s.window isprint src) ↔ ¬ s.Overrun isprint src := by
  rw [scr_out_len_eq] at hbuf
  rw [MAX_SCR_COLS] at hmax
  rw [MAX_TABSTOP] at htmax
  obtain ⟨r, hr⟩ : ∃ r, s.format_from isprint ((s.end_ - src).toNat + 1) src [] s.offset.toNat = r :=
    ⟨_, rfl⟩
  have hrun := @format_line_in_eq s isprint src buf htab (by omega) (by omega) (by omega) r hr
  -- where everything fits and is shown
  have hgood : (∀ j < s.columns,
      shows ' ' r j = (s.expansion isprint src).getD (s.offset.toNat + j) ' ') →
      min r.2 r.1.length + s.columns ≤ buf.length → ¬ s.Overrun isprint src →
      (s.format_line_in isprint src buf = some (s.window isprint src) ↔
        ¬ s.Overrun isprint src) := by
    intro hshows hroom hno
    rw [hrun, if_pos hroom]
    exact iff_of_true (congrArg some (map_eq_window.mpr hshows)) hno
  by_cases hlt : src < s.end_
  · by_cases hone : s.tabstop = 1
    · by_cases hle : (s.laid src).length ≤ s.offset.toNat
      · obtain ⟨hshows, hmin⟩ := format_from_full hlt hone hle hr
        rw [hrun, hmin]
        by_cases hroom : min (s.offset.toNat - (s.laid src).length) ((s.laid src).countP caret) +
            s.columns ≤ buf.length
        · rw [if_pos hroom, Option.some_inj, map_eq_window]
          constructor
          · rintro hall ⟨-, -, -, hspill | ⟨j, hj, hbehind, hlost⟩⟩
            · rw [scr_out_len_eq] at hspill
              omega
            · refine hlost ?_
              rw [← hall j hj, hshows j hj, if_pos hbehind]
          · intro hno j hj
            rw [hshows j hj]
            split
            · rename_i hbehind
              by_contra hlost
              exact hno ⟨hlt, hone, hle, .inr ⟨j, hj, hbehind, Ne.symm hlost⟩⟩
            · rfl
        · rw [if_neg hroom]
          refine iff_of_false nofun (not_not.mpr ⟨hlt, hone, hle, .inl ?_⟩)
          rw [scr_out_len_eq]
          omega
      · obtain ⟨hshows, hzero⟩ := format_from_narrow hlt hone (by omega) hr (by omega)
        exact hgood hshows (by omega) fun hover => hle hover.2.2.1
    · obtain ⟨hshows, hmin⟩ := @format_from_wide s isprint src hlt (by omega)
      rw [hr] at hshows hmin
      exact hgood hshows (by omega) fun hover => hone hover.2.1
  · obtain ⟨hshows, hlen⟩ := @format_from_missing s isprint src (not_lt.mp hlt) htab
    rw [hr] at hshows hlen
    exact hgood hshows (by omega) fun hover => hlt hover.1

end Ed

/-- A tabulator across the left edge of the screen. -/
theorem format_line_window_tab :
    ({ on_screen_of ['a', '\t', 'b', '\n'] 24 4 8 with offset := 6 } : Ed).format_line_in
      (fun _ => true) 0 (List.replicate scr_out_len NUL) = some [' ', ' ', 'b', ' '] := by
  have hwindow : ({ on_screen_of ['a', '\t', 'b', '\n'] 24 4 8 with offset := 6 } : Ed).window
      (fun _ => true) 0 = [' ', ' ', 'b', ' '] := by decide +kernel
  rw [← hwindow]
  refine (Ed.format_line_window List.length_replicate ?_ ?_ ?_ ?_).mpr fun h => ?_
  · decide
  · decide
  · decide
  · decide
  · exact absurd h.2.1 (by decide)

/-- Three control characters, and then one that is not shown.  Seventy, and with a wide screen the
blanks run over the end of the buffer. -/
theorem format_line_overrun :
    ({ on_screen_of ['\x01', '\x01', '\x01', 'x', '\n'] 24 2 1 with offset := 5 } : Ed).format_line_in
      (fun _ => true) 0 (List.replicate scr_out_len NUL) = some ['A', ' '] ∧
    ({ on_screen_of ['\x01', '\x01', '\x01', 'x', '\n'] 24 2 1 with offset := 5 } : Ed).window
      (fun _ => true) 0 = ['A', 'x'] ∧
    ({ on_screen_of (List.replicate 70 '\x01' ++ ['\n']) 24 4096 1 with offset := 200 } : Ed).format_line_in
      (fun _ => true) 0 (List.replicate scr_out_len NUL) = none := by
  refine ⟨?_, ?_, ?_⟩
  · decide +kernel
  · decide +kernel
  · decide +kernel

end EspLinux.Vi
