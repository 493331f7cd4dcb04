import Mathlib

/-!
# A character terminal

The screen of a terminal of the VT100 kind, and what it makes of the bytes it is fed: characters
fill the cell under the cursor, a few control characters move the cursor, and escape sequences place
it (`H`), erase (`J`, `K`) and switch reverse video on and off (`m`).  A character in the last
column leaves the cursor there; only the next one begins a new line, so the column may be as large
as the number of columns.

`feed_run` says what a run of visible characters does to the screen that does not come to the end
of the row, and the lemmas after it what each escape sequence does.
-/

namespace EspLinux.Lib

/-- A cell of the screen. -/
structure Cell where
  glyph : Char
  standout : Bool
  deriving DecidableEq

/-- An erased cell. -/
def Cell.blank : Cell := ⟨' ', false⟩

/-- How much of an escape sequence has been read. -/
inductive Escape
  /-- None. -/
  | text
  /-- The escape character. -/
  | begun
  /-- The bracket, and parameters: the complete ones, and the one that is being read. -/
  | bracket (params : List ℕ) (last : ℕ)
  deriving DecidableEq

structure Term where
  rows : ℕ
  columns : ℕ
  /-- The cell in a row and a column. -/
  cells : ℕ → ℕ → Cell
  row : ℕ
  /-- As large as `columns` if the last column has just been written. -/
  col : ℕ
  standout : Bool
  escape : Escape

/-- A character that fills a cell. -/
def Visible (c : Char) : Prop := 32 ≤ c.toNat ∧ c.toNat ≠ 127

instance (c : Char) : Decidable (Visible c) := inferInstanceAs (Decidable (_ ∧ _))

namespace Term

/-- Go to the next row; from the last one, scroll. -/
def newline (t : Term) : Term :=
  if t.row + 1 < t.rows then { t with row := t.row + 1 }
  else
    { t with
      cells := fun r c =>
        if r + 1 < t.rows then t.cells (r + 1) c
        else if r + 1 = t.rows then Cell.blank else t.cells r c }

/-- Show a character. -/
def put (t : Term) (ch : Char) : Term :=
  let t := if t.columns ≤ t.col then { t with col := 0 }.newline else t
  { t with
    cells := fun r c => if r = t.row ∧ c = t.col then ⟨ch, t.standout⟩ else t.cells r c
    col := t.col + 1 }

/-- A control character. -/
def control (t : Term) (c : Char) : Term :=
  if c = '\x1b' then { t with escape := .begun }
  else if c = '\n' then t.newline
  else if c = '\r' then { t with col := 0 }
  else if c = '\x08' then { t with col := min t.col (t.columns - 1) - 1 }
  else t

/-- Place the cursor, as far as there is such a place. -/
def goto (t : Term) (row col : ℕ) : Term :=
  { t with row := min row (t.rows - 1), col := min col (t.columns - 1) }

/-- Erase from the cursor to the end of the row. -/
def erase_line (t : Term) : Term :=
  { t with
    cells := fun r c =>
      if r = t.row ∧ min t.col (t.columns - 1) ≤ c then Cell.blank else t.cells r c }

/-- Erase from the cursor to the end of the screen. -/
def erase_screen (t : Term) : Term :=
  { t.erase_line with
    cells := fun r c => if t.row < r then Cell.blank else t.erase_line.cells r c }

/-- One of the attributes that are set by `m`. -/
def rendition (t : Term) (param : ℕ) : Term :=
  if param = 0 then { t with standout := false }
  else if param = 7 then { t with standout := true }
  else t

/-- The end of an escape sequence. -/
def execute (t : Term) (params : List ℕ) (final : Char) : Term :=
  if final = 'H' then t.goto (params.headD 0 - 1) (params.tail.headD 0 - 1)
  else if final = 'K' then if params.headD 0 = 0 then t.erase_line else t
  else if final = 'J' then if params.headD 0 = 0 then t.erase_screen else t
  else if final = 'm' then params.foldl rendition t
  else t

/-- One byte. -/
def step (t : Term) (c : Char) : Term :=
  match t.escape with
  | .text => if 32 ≤ c.toNat ∧ c.toNat ≠ 127 then t.put c else t.control c
  | .begun => { t with escape := if c = '[' then .bracket [] 0 else .text }
  | .bracket params last =>
    if c.isDigit then { t with escape := .bracket params (10 * last + (c.toNat - '0'.toNat)) }
    else if c = ';' then { t with escape := .bracket (params ++ [last]) 0 }
    else { t with escape := .text }.execute (params ++ [last]) c

/-- Byte after byte. -/
def feed (t : Term) (s : List Char) : Term := s.foldl step t

variable {t : Term} {s s' : List Char} {c : Char}

@[simp] lemma feed_nil : t.feed [] = t := rfl

lemma feed_cons : t.feed (c :: s) = (t.step c).feed s := rfl

lemma feed_append : t.feed (s ++ s') = (t.feed s).feed s' := List.foldl_append

/-! ## Text -/

lemma step_visible (ht : t.escape = .text) (hc : Visible c) : t.step c = t.put c := by
  rw [step, ht]
  exact if_pos hc

lemma put_inside (hcol : t.col < t.columns) : t.put c =
    { t with
      cells := fun r k => if r = t.row ∧ k = t.col then ⟨c, t.standout⟩ else t.cells r k
      col := t.col + 1 } := by
  rw [put, if_neg (not_le.mpr hcol)]

/-- A run of visible characters in one row. -/
theorem feed_run (ht : t.escape = .text) (hs : ∀ c ∈ s, Visible c)
    (hcol : t.col + s.length ≤ t.columns) : t.feed s =
      { t with
        cells := fun r k =>
          if r = t.row ∧ t.col ≤ k ∧ k < t.col + s.length then
            ⟨s.getD (k - t.col) ' ', t.standout⟩
          else t.cells r k
        col := t.col + s.length } := by
  induction s generalizing t with
  | nil =>
    have hcells : ∀ r k, (if r = t.row ∧ t.col ≤ k ∧ k < t.col + ([] : List Char).length then
        (⟨([] : List Char).getD (k - t.col) ' ', t.standout⟩ : Cell) else t.cells r k) =
          t.cells r k := fun r k => if_neg (by rw [List.length_nil]; omega)
    simp only [hcells]
    rfl
  | cons c s ih =>
    rw [List.length_cons] at hcol
    have hrest := @ih (t.put c)
    rw [put_inside (by omega)] at hrest
    rw [feed_cons, step_visible ht (hs c List.mem_cons_self), put_inside (by omega),
      hrest ht (fun d hd => hs d (List.mem_cons_of_mem c hd)) (by dsimp only; omega)]
    congr 1
    · funext r k
      dsimp only
      rw [List.length_cons]
      by_cases hk : k = t.col
      · subst hk
        by_cases hr : r = t.row
        · rw [if_neg (by omega), if_pos ⟨hr, rfl⟩, if_pos (by omega), Nat.sub_self,
            List.getD_cons_zero]
        · rw [if_neg (by omega), if_neg (by omega), if_neg (by omega)]
      · by_cases hin : r = t.row ∧ t.col ≤ k ∧ k < t.col + (s.length + 1)
        · rw [if_pos (by omega), if_pos hin, show k - t.col = k - (t.col + 1) + 1 by omega,
            List.getD_cons_succ]
        · rw [if_neg (by omega), if_neg (by omega), if_neg hin]
    · rw [List.length_cons, Nat.add_assoc, Nat.add_comm 1]

/-! ## Escape sequences -/

lemma feed_digits {params : List ℕ} {last : ℕ} (ht : t.escape = .bracket params last)
    (hs : ∀ c ∈ s, c.isDigit) :
    t.feed s = { t with escape := .bracket params (Nat.ofDigitChars 10 s last) } := by
  induction s generalizing t last with
  | nil =>
    rw [Nat.ofDigitChars_nil, ← ht]
    rfl
  | cons c s ih =>
    have hstep : t.step c =
        { t with escape := .bracket params (10 * last + (c.toNat - '0'.toNat)) } := by
      rw [step, ht]
      exact if_pos (hs c List.mem_cons_self)
    rw [feed_cons, hstep, ih rfl fun d hd => hs d (List.mem_cons_of_mem c hd),
      Nat.ofDigitChars_cons]

/-- A number that is printed is read again. -/
lemma feed_number {params : List ℕ} (ht : t.escape = .bracket params 0) (n : ℕ) :
    t.feed (Nat.toDigits 10 n) = { t with escape := .bracket params n } := by
  rw [feed_digits ht fun c hc => Nat.isDigit_of_mem_toDigits (by decide) (by decide) hc,
    Nat.ofDigitChars_ten_toDigits]

/-- The cursor is placed. -/
theorem feed_goto (ht : t.escape = .text) (row col : ℕ) :
    t.feed (['\x1b', '['] ++ Nat.toDigits 10 (row + 1) ++ [';'] ++ Nat.toDigits 10 (col + 1) ++
      ['H']) = t.goto row col := by
  have hbegin : t.feed ['\x1b', '['] = { t with escape := .bracket [] 0 } := by
    rw [feed_cons, step, ht]
    rfl
  have hrow := @feed_number { t with escape := .bracket [] 0 } [] rfl (row + 1)
  have hnext : feed { t with escape := .bracket [] (row + 1) } [';'] =
      { t with escape := .bracket [row + 1] 0 } := rfl
  have hcol := @feed_number { t with escape := .bracket [row + 1] 0 } [row + 1] rfl (col + 1)
  have hend : feed { t with escape := .bracket [row + 1] (col + 1) } ['H'] =
      { t with row := min row (t.rows - 1), col := min col (t.columns - 1), escape := .text } := rfl
  rw [feed_append, feed_append, feed_append, feed_append, hbegin, hrow, hnext, hcol, hend, goto,
    ← ht]

/-- The rest of the row is erased. -/
lemma feed_erase_line (ht : t.escape = .text) : t.feed ['\x1b', '[', '0', 'K'] = t.erase_line := by
  obtain ⟨rows, columns, cells, row, col, standout, escape⟩ := t
  obtain rfl : escape = .text := ht
  rfl

/-- Reverse video is switched on. -/
lemma feed_standout (ht : t.escape = .text) :
    t.feed ['\x1b', '[', '7', 'm'] = { t with standout := true } := by
  obtain ⟨rows, columns, cells, row, col, standout, escape⟩ := t
  obtain rfl : escape = .text := ht
  rfl

/-- Reverse video is switched off. -/
lemma feed_normal (ht : t.escape = .text) :
    t.feed ['\x1b', '[', '0', 'm'] = { t with standout := false } := by
  obtain ⟨rows, columns, cells, row, col, standout, escape⟩ := t
  obtain rfl : escape = .text := ht
  rfl

end Term

end EspLinux.Lib
