import EspLinux.Vi.Command

/-!
# vi: commands that change the text

The commands that delete, insert and replace, up to the ones that are done in insert and replace
mode.
-/

namespace EspLinux.Vi

open Lib

/-! ## Registers -/

/-- `p` and `P`: put a register after or before the cursor. -/
def put (c : Char) : Cmd Unit := do
  let s ← look
  match s.reg s.YDreg with
  | none =>
    let r := what_reg s.YDreg
    status_line_bold s!"Nothing in register {r}"
  | some p =>
    if '\n' ∈ p then
      if c = 'P' then move fun s => s.begin_line s.dot
      else if s.end_line s.dot = s.end_ - 1 then move fun s => s.end_
      else move fun s => s.next_line s.dot
    else if c = 'p' then move Ed.dot_right
    let s ← look
    let dot ← string_insert s.dot p
    move fun _ => dot
    end_cmd_q

/-- `U`: the line as it was when the cursor came to it. -/
def undo_line : Cmd Unit := do
  let s ← look
  match s.reg Ureg with
  | none => return ()
  | some line =>
    let p ← text_hole_delete (s.begin_line s.dot) (s.end_line s.dot) Buffer.begin_line_le_end_line
    let p ← string_insert p line
    move fun _ => p
    skip_blanks

/-! ## Characters -/

/-- `x`, `X` and `s`: delete the character under or before the cursor, but no newline. -/
def delete_char (c : Char) : Cmd Unit := do
  let s ← look
  let p := if c = 'X' then s.dot - 1 else s.dot
  if s.mem p ≠ '\n' then
    move fun _ => p
    let dot ← yank_delete p p false true
    move fun _ => dot

/-- `r` -/
def replace_char : Cmd Unit := do
  let c1 ← get_one_char
  let s ← look
  if s.mem s.dot ≠ '\n' then poke s.dot c1
  end_cmd_q

/-- `~`, once. -/
def flip_case : Cmd Unit := do
  let s ← look
  if islower (s.mem s.dot) then poke s.dot (toupper (s.mem s.dot))
  else if isupper (s.mem s.dot) then poke s.dot (tolower (s.mem s.dot))
  move Ed.dot_right
  end_cmd_q

/-- `C` and `D`: delete to the end of the line. -/
def delete_rest : Cmd Unit := do
  let s ← look
  let dot ← yank_delete s.dot (s.dollar_line s.dot) false true
  move fun _ => dot

/-! ## Lines -/

/-- `while (isblank(*dot)) dot_delete()`.  At the end of the text nothing is left to delete, and the
loop does not end if the byte behind the text is a blank. -/
def delete_blanks : ℕ → Cmd Unit
  | 0 => .perform (.stop .spinning)
  | n + 1 => do
    let s ← look
    if isblank (s.mem s.dot) then
      let _ ← text_hole_delete s.dot s.dot le_rfl
      delete_blanks n

/-- `J`, for one pair of lines. -/
def join_lines : Cmd Unit := do
  move fun s => s.end_line s.dot
  let s ← look
  if s.dot < s.end_ - 1 then
    poke s.dot ' '
    move fun s => s.dot + 1
    let s ← look
    delete_blanks ((s.end_ - s.dot).toNat + 1)
  end_cmd_q

/-- `J`, with its own way to count. -/
def join : ℕ → Cmd Unit
  | 0 => return ()
  | n + 1 => do
    join_lines
    let s ← look
    count fun s => s.cmdcnt - 1
    if 2 < s.cmdcnt then join n

/-- `o`: open an empty line below. -/
def open_below : Cmd Unit := do
  move fun s => s.end_line s.dot
  let s ← look
  let dot ← plain_insert s.dot '\n'
  move fun _ => dot

/-- `O`: open an empty line above. -/
def open_above : Cmd Unit := do
  let s ← look
  if s.mem (s.begin_line s.dot - 1) = '\n' then
    move fun s => s.prev_line s.dot
    open_below
  else
    move fun s => s.begin_line s.dot
    let s ← look
    let dot ← plain_insert s.dot '\n'
    move fun _ => dot
    move fun s => s.prev_line s.dot

/-! ## Operators -/

/-- The last character from `q` back that is not a blank, in its line and within `n` characters. -/
def Ed.back_blanks (s : Ed) : ℕ → ℤ → ℤ
  | 0, q => q
  | n + 1, q =>
    if isblank (s.mem q) ∧ s.mem (q - 1) ≠ '\n' then s.back_blanks n (q - 1) else q

/-- Characters that name part of a line. -/
def partial_line : String := "^0bBeEft%$ lh\x08\x7f"

/-- Characters that name whole lines. -/
def whole_lines : String := "cdykjHL+-\x7b\x7d\r\n"

/-- What `c`, `d` and `y` do when whole lines have been deleted or copied. -/
def after_lines (c : Char) : Cmd Unit := do
  if c = 'c' then
    let s ← look
    let dot ← plain_insert s.dot '\n'
    move fun _ => dot
    -- on the last line of the file stay there
    let s ← look
    if s.dot ≠ s.end_ - 1 then move fun s => s.prev_line s.dot
  else if c = 'd' then to_line_start

/-- Say what `d` or `y` has done, and end the record. -/
def report (c : Char) : Cmd Unit := do
  let s ← look
  let done := if c = 'd' then "Delete" else "Yank"
  let r := what_reg s.YDreg
  match s.reg s.YDreg with
  | none => .perform (.stop .null)
  | some p =>
    let cnt := p.count '\n'
    let len := p.length
    status_line s!"{done} {cnt} lines ({len} chars) using [{r}]"
    end_cmd_q

/-- `c`, `d`, `y` and `Y`: the key `do_cmd` takes the command for afterwards, and whether it goes on
to insert mode. -/
def operator (c : Char) : Cmd (Char × Bool) := do
  let c1 ← if c = 'Y' then pure 'y' else get_one_char
  let (p, q, ml) ← find_range c1
  let del := c = 'c' || c = 'd'
  if c1 = '\x1b' then return ('\x1b', false)
  else
    let s ← look
    if strchr "wW" c1 ∨ strchr partial_line c1 ∨ strchr whole_lines c1 then
      let q := if strchr "wW" c1 ∧ c = 'c' then s.back_blanks q.toNat q else q
      let dot ← yank_delete p q ml del
      move fun _ => dot
      if ml ∧ ¬ strchr "wW" c1 ∧ ¬ strchr partial_line c1 then after_lines c
      if c = 'c' then return (c, true)
      else
        report c
        return (c, false)
    else
      -- could not recognize object
      indicate_error
      return ('\x1b', false)

/-- Remove a tab or up to `tabstop` spaces at `p`. -/
def shift_left (p : ℤ) : Cmd Unit := do
  let s ← look
  if s.mem p = '\t' then
    let _ ← text_hole_delete p p le_rfl
  else if s.mem p = ' ' then spaces s.tabstop
where
  /-- Delete a space at `p`, at most `n` times. -/
  spaces : ℕ → Cmd Unit
    | 0 => return ()
    | n + 1 => do
      let s ← look
      if s.mem p = ' ' then
        let _ ← text_hole_delete p p le_rfl
        spaces n

/-- Shift the `n` lines from `p` on.  The pointer is not repaired when the text moves. -/
def shift_lines (c : Char) : ℕ → Ptr → Proc Unit
  | 0, _ => return ()
  | n + 1, p => do
    sys (.check p)
    if c = '<' then edit (shift_left p.off)
    else
      let _ ← edit (plain_insert p.off '\t')
    let p ← sys (.next_line p)
    shift_lines c n p

/-- `<` and `>` -/
def shift (c : Char) : Proc Unit := do
  let s ← edit look
  let cnt := s.count_lines 0 s.dot
  let c1 ← edit get_one_char
  let (p, q, _) ← edit (find_range c1)
  let _ ← edit (yank_delete p q true false)
  let s ← edit look
  let p := s.begin_line p
  let q := s.end_line q
  shift_lines c (s.count_lines p q) ⟨s.block, p⟩
  edit (move fun s => s.skip_over_ws (s.find_line cnt))
  edit end_cmd_q

/-! ## Insert mode -/

/-- `refresh` -/
def refresh : Proc Unit := sys .refresh

/-- Show the bracket that matches the one at `p`. -/
def showmatching (p : ℤ) : Proc Unit := do
  let s ← edit look
  match s.find_pair p (s.mem p) with
  | none => edit indicate_error
  | some q =>
    let save_dot := s.dot
    edit (move fun _ => q)
    refresh
    edit (move fun _ => save_dot)
    refresh

/-- Insert the character `c` at `p`. -/
def char_insert (p : ℤ) (c : Char) : Proc ℤ := do
  if c = '\x16' then
    let p ← edit (stupid_insert p '^' false)
    refresh
    let c ← edit get_one_char
    edit (poke (p - 1) c)
    return p
  else if c = '\x1b' then
    sys (.set_mode .command)
    edit (count fun _ => 0)
    edit end_cmd_q
    let s ← edit look
    return if s.mem (p - 1) ≠ '\n' ∧ 0 < s.dot then p - 1 else p
  else
    let s ← edit look
    let p' ← edit (plain_insert p c)
    if ¬ s.erases c ∧ s.showmatch ∧ strchr ")]\x7d" c then showmatching p
    return p'

end EspLinux.Vi
