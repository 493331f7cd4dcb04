import EspLinux.Vi.Editor

/-!
# vi: editing commands

The commands that move the cursor and the ones that change the text, as far as they are made of the
operations of `Edit`.  `Key` is what a key means; the commands that only move the cursor are
`Move`, and these are the ones that `d`, `c`, `y`, `<` and `>` execute to find their range.
-/

namespace EspLinux.Vi

open Lib

/-! ## Operations -/

def look : Cmd Ed := .perform .look

@[simp] lemma run_look_bind {α : Type} (f : Ed → Cmd α) (g : Globals) :
    (look.bind f).run Edit.exec g = (f g.toEd).run Edit.exec g := rfl

def view (f : Ed → View) : Cmd Unit := .perform (.view f)

/-- Set `dot`. -/
def move (f : Ed → ℤ) : Cmd Unit := view fun s => { s.toView with dot := f s }

/-- Set `cmdcnt`. -/
def count (f : Ed → ℤ) : Cmd Unit := view fun s => { s.toView with cmdcnt := f s }

def status_line (msg : String) : Cmd Unit := .perform (.status_line msg)

def status_line_bold (msg : String) : Cmd Unit := status_line ("\x1b[7m" ++ msg ++ "\x1b[0m")

def indicate_error : Cmd Unit := .perform .indicate_error

def get_one_char : Cmd Char := .perform .get_one_char

def end_cmd_q : Cmd Unit := .perform .end_cmd_q

def stupid_insert (p : ℤ) (c : Char) (held : Bool) : Cmd ℤ := .perform (.stupid_insert p c held)

def text_hole_delete (p q : ℤ) (h : p ≤ q) : Cmd ℤ := .perform (.text_hole_delete p q h)

def poke (p : ℤ) (c : Char) : Cmd Unit := .perform (.poke p c)

/-- One character of `print_literal`. -/
def literal (c : Char) : List Char :=
  (if 128 ≤ c.toNat then "\x1b[0m.\x1b[7m".toList
    else if c = '\x7f' then ['^', '?']
    else if c < ' ' then ['^', Char.ofNat (c.toNat + 64)]
    else [c]) ++ if c = '\n' then ['$'] else []

/-- The loop of `print_literal`. -/
def print_literal : List Char → List Char → List Char
  | buf, [] => buf
  | buf, c :: s =>
    let buf := buf ++ literal c
    if MAX_INPUT_LEN - 10 < buf.length then buf else print_literal buf s

def not_implemented (s : List Char) : Cmd Unit :=
  let shown := String.ofList (print_literal [] (if s = [] then "(NULL)".toList else s))
  status_line_bold s!"'{shown}' is not implemented"

/-- The letter of the current register. -/
def what_reg (YDreg : ℕ) : Char :=
  if YDreg ≤ 25 then Char.ofNat ('a'.toNat + YDreg) else if YDreg = 27 then 'U' else 'D'

/-! ## Changes -/

/-- Copy `p` through `q` to a register. -/
def Ed.text_yank (s : Ed) (p q : ℤ) (dest : ℕ) : View :=
  { s.toView with
    reg := fun i => if i = dest then some (cstring (s.range (min p q) (max p q))) else s.reg i }

/-- Where a change ends that may not go past a newline. -/
def Ed.within_line (s : Ed) (start stop : ℤ) : ℤ :=
  s.to_newline (start + 1) (stop - start).toNat - 1

lemma Ed.le_within_line {s : Ed} {start stop : ℤ} : start ≤ s.within_line start stop := by
  have := s.le_to_newline (p := start + 1) (n := (stop - start).toNat)
  rw [Ed.within_line]
  omega

/-- Copy to a register and, with `del`, delete; without `lines` not past a newline. -/
def yank_delete (start stop : ℤ) (lines del : Bool) : Cmd ℤ := do
  let s ← look
  let lo := min start stop
  let hi := max start stop
  if lines then
    view fun s => s.text_yank lo hi s.YDreg
    if del then text_hole_delete lo hi min_le_max else return lo
  else if s.mem lo = '\n' then return lo
  else
    view fun s => s.text_yank lo (s.within_line lo hi) s.YDreg
    if del then text_hole_delete lo (s.within_line lo hi) Ed.le_within_line else return lo

/-- Insert a string, and say so. -/
def string_insert (p : ℤ) (str : List Char) : Cmd ℤ := do
  let p ← Program.perform (.string_insert p str)
  let s ← look
  let cnt := str.count '\n'
  let i := str.length
  let r := what_reg s.YDreg
  status_line s!"Put {cnt} lines ({i} chars) from [{r}]"
  return p

/-- The blanks from `q` on, copied to `p`: the auto-indent. -/
def indent : ℕ → ℤ → ℤ → Cmd ℤ
  | 0, _, p => return p
  | n + 1, q, p => do
    let s ← look
    if isblank (s.mem q) then
      let p ← stupid_insert p (s.mem q) true
      indent n (q + 1) p
    else return p

/-- The character takes back the one before it. -/
def Ed.erases (s : Ed) (c : Char) : Bool := c = s.erase_char || c = '\x08' || c = '\x7f'

/-- `char_insert` of a character that is neither control-V nor Escape, up to showing the bracket
that matches it. -/
def plain_insert (p : ℤ) (c : Char) : Cmd ℤ := do
  let s ← look
  if s.erases c then
    if s.mem (p - 1) ≠ '\n' ∧ 0 < s.dot then text_hole_delete (p - 1) (p - 1) le_rfl
    else return p
  else
    let c := if c = '\r' then '\n' else c
    let p ← stupid_insert p c s.showmatch
    let s ← look
    if s.autoindent ∧ c = '\n' then indent (p - s.prev_line p).toNat (s.prev_line p) p
    else return p

/-- Make `dot` a position in the text. -/
def bound_dot : Cmd Unit := do
  let s ← look
  if s.end_ ≤ s.dot ∧ 0 < s.end_ then indicate_error
  if s.dot < 0 then indicate_error
  move fun s => s.bound_dot s.dot

/-- In command mode stay off the newline. -/
def off_newline : Cmd Unit := do
  let s ← look
  if s.mem s.dot = '\n' ∧ 0 < s.dot - s.begin_line s.dot ∧ s.cmd_mode = .command then
    move fun s => s.dot - 1

/-- The end of `do_cmd` where there is a text. -/
def settle (c : Char) : Cmd Unit := do
  let s ← look
  if s.dot ≠ s.end_ then bound_dot
  Program.perform (.check_context c)
  if ¬ isdigit c then count fun _ => 0
  off_newline

/-- The end of `do_cmd`. -/
def dc1 (c : Char) : Cmd Unit := do
  let s ← look
  if s.end_ = 0 then
    -- start an empty buffer with a dummy line
    let _ ← plain_insert 0 '\n'
    move fun _ => 0
  settle c

/-! ## Repetition -/

/-- `goto repeat`, as long as the count lasts and the command has not left its loop. -/
def repeated (body : Cmd Bool) : ℕ → Cmd Unit
  | 0 => return ()
  | n + 1 => do
    if ← body then
      let s ← look
      count fun s => s.cmdcnt - 1
      if 1 < s.cmdcnt then repeated body n

/-- A command that may go on for the count. -/
def again (body : Cmd Bool) : Cmd Unit := do
  let s ← look
  repeated body (max s.cmdcnt 1).toNat

/-- A command that is done as often as the count says. -/
def each (body : Cmd Unit) : Cmd Unit := again do
  body
  return true

/-! ## Commands that move the cursor -/

inductive Move
  | page_up | page_down | half_up | half_down | line_up | line_down | status
  | left | right | up | down | plus | minus
  | register | goto_mark | mark
  | dollar | pair | find | find_next | find_prev | till
  | search | search_opposite | search_again | para_back | para_forward
  | digit | Word | word_back | word_end | word
  | gg | goto | top | bottom | middle | caret | bar | home
  deriving DecidableEq

namespace Ed

def dot_left (s : Ed) : ℤ := if 0 < s.dot ∧ s.mem (s.dot - 1) ≠ '\n' then s.dot - 1 else s.dot

def dot_right (s : Ed) : ℤ :=
  if s.dot < s.end_ - 1 ∧ s.mem s.dot ≠ '\n' then s.dot + 1 else s.dot

/-- `dot` after a scroll: on the screen, and not on white space. -/
def on_screen (s : Ed) : ℤ :=
  let dot := max s.dot s.screenbegin
  let q := s.end_screen
  s.skip_over_ws (if q < dot then s.begin_line q else dot)

/-- The first bracket from `q` on in its line, within `n` characters. -/
def bracket (s : Ed) : ℕ → ℤ → Option ℤ
  | 0, _ => none
  | n + 1, q =>
    if s.mem q = '\n' then none
    else if strchr "()[]\x7b\x7d" (s.mem q) then some q
    else s.bracket n (q + 1)

/-- The next `last_forward_char` or newline from `q` on, within `n` characters. -/
def find_fwd (s : Ed) : ℕ → ℤ → ℤ
  | 0, q => q
  | n + 1, q =>
    if s.mem q ≠ '\n' ∧ s.mem q ≠ s.last_forward_char then s.find_fwd n (q + 1) else q

/-- The last `last_forward_char` or newline from `q` back, within `n` characters. -/
def find_bwd (s : Ed) : ℕ → ℤ → ℤ
  | 0, q => q
  | n + 1, q =>
    if s.mem q ≠ '\n' ∧ s.mem q ≠ s.last_forward_char then s.find_bwd n (q - 1) else q

/-- `;`: the next `last_forward_char` in the line. -/
def semicolon (s : Ed) : ℤ :=
  let q := s.find_fwd (s.end_ - 1 - (s.dot + 1)).toNat (s.dot + 1)
  if s.mem q = s.last_forward_char then q else s.dot

/-- `,`: the previous `last_forward_char` in the line. -/
def comma (s : Ed) : ℤ :=
  let q := s.find_bwd s.dot.toNat (s.dot - 1)
  if 0 ≤ q ∧ s.mem q = s.last_forward_char then q else s.dot

/-- `B`, `E` and `W`. -/
def Word (s : Ed) (c : Char) : ℤ :=
  let dir : Dir := if c = 'B' then .back else .forward
  let p :=
    if c = 'W' ∨ isspace (s.mem (s.dot + dir.inc)) then
      s.skip_thing (s.skip_thing s.dot 1 dir .to_ws) 2 dir .over_ws
    else s.dot
  if c ≠ 'W' then s.skip_thing p 1 dir .before_ws else p

/-- The other end of the word at `p`. -/
def word_from (s : Ed) (p : ℤ) (dir : Dir) : ℤ :=
  if isalnum (s.mem p) ∨ s.mem p = '_' then s.skip_thing p 1 dir .end_alnum
  else if ispunct (s.mem p) then s.skip_thing p 1 dir .end_punct
  else p

/-- `b` and `e`. -/
def word_to (s : Ed) (dir : Dir) : ℤ :=
  let p := s.dot + dir.inc
  let lines := if dir = .forward then 2 else 1
  s.word_from (if isspace (s.mem p) then s.skip_thing p lines dir .over_ws else p) dir

/-- `w` -/
def next_word (s : Ed) : ℤ :=
  let p := s.word_from s.dot .forward
  let p := if p < s.end_ - 1 then p + 1 else p
  if isspace (s.mem p) then s.skip_thing p 2 .forward .over_ws else p

/-- The direction of a search, given relative to that of the pattern. -/
def search_dir (pat : List Char) (dir : Dir) : Dir :=
  if pat.headD NUL = '?' then dir.opposite else dir

end Ed

def dot_scroll (cnt : ℕ) (dir : Dir) : Cmd Unit := do
  Program.perform (.scroll cnt dir)
  move Ed.on_screen

/-- `n` and `N`: one search for the last pattern. -/
def find_pattern (rel : Dir) : Cmd Bool := do
  let s ← look
  match s.last_search_pattern with
  | none =>
    status_line_bold "No previous regular expression"
    return false
  | some pat =>
    let dir := Ed.search_dir pat rel
    match s.char_search s.ignorecase (s.dot + dir.inc) pat.tail dir false with
    | some q =>
      move fun _ => q
      return true
    | none =>
      let p := if dir = .back then s.end_ - 1 else 0
      match s.char_search s.ignorecase p pat.tail dir false with
      | some q =>
        move fun _ => q
        status_line_bold (if dir = .back then "search hit TOP, continuing at BOTTOM"
          else "search hit BOTTOM, continuing at TOP")
      | none => status_line_bold "Pattern not found"
      return false

/-- `/` and `?` -/
def search (c : Char) : Cmd Unit := do
  let q ← Program.perform (.get_input_line c)
  match q with
  | [] => return ()
  | [_] => again (find_pattern (if c = '/' then .forward else .back))
  | _ =>
    view fun s => { s.toView with last_search_pattern := some q }
    again (find_pattern .forward)

/-- `0` to `9`.  A count that is too large ends the command at once. -/
def digit (c : Char) : Cmd Bool := do
  let s ← look
  if c = '0' ∧ s.cmdcnt < 1 then
    move fun s => s.begin_line s.dot
    return true
  else if 2147483647 / 10 ≤ s.cmdcnt then
    count fun _ => 0
    status_line_bold "Repeat Count OVERFLOW"
    return false
  else
    count fun s => s.cmdcnt * 10 + (c.toNat - '0'.toNat)
    return true

/-- `"`: name a register. -/
def name_register : Cmd Unit := do
  let c1 ← get_one_char
  let c1 := tolower c1
  if islower c1 then view fun s => { s.toView with YDreg := c1.toNat - 'a'.toNat }
  else indicate_error

/-- To the first character of the line of `dot` that is not a blank. -/
def to_line_start : Cmd Unit := move fun s => s.skip_over_ws (s.begin_line s.dot)

/-- `'`: go to the line of a mark, or to the other context. -/
def goto_mark : Cmd Unit := do
  let c1 ← get_one_char
  let c1 := tolower c1
  if islower c1 then
    let q ← Program.perform (.goto_mark (c1.toNat - 'a'.toNat))
    if let some q := q then
      move fun _ => q
      to_line_start
  else if c1 = '\'' then
    let q ← Program.perform .swap_context
    if let some q := q then move fun _ => q
    to_line_start
  else indicate_error

/-- `m` -/
def set_mark : Cmd Unit := do
  let c1 ← get_one_char
  let c1 := tolower c1
  if islower c1 then Program.perform (.set_mark (c1.toNat - 'a'.toNat)) else indicate_error

/-- `%` -/
def pair : Cmd Unit := do
  let s ← look
  match s.bracket (s.end_ - s.dot).toNat s.dot with
  | some q =>
    match s.find_pair q (s.mem q) with
    | some p => move fun _ => p
    | none => indicate_error
  | none =>
    if s.mem (s.to_newline s.dot (s.end_ - s.dot).toNat) = '\n' then indicate_error

/-- `;` and `,` -/
def find_again (f : Ed → ℤ) : Cmd Unit := again do
  let s ← look
  if s.last_forward_char = NUL then return false
  else
    move f
    return true

def set_forward_char (c : Char) : Cmd Unit := view fun s => { s.toView with last_forward_char := c }

/-- `+` and Return -/
def plus : Cmd Unit := each (move fun s => s.skip_over_ws (s.next_line s.dot))

/-- `-` -/
def minus : Cmd Unit := each (move fun s => s.skip_over_ws (s.prev_line s.dot))

/-- `t` -/
def till : Cmd Unit := do
  let c1 ← get_one_char
  set_forward_char c1
  find_again Ed.semicolon
  dc1 ';'
  let s ← look
  if s.mem s.dot = s.last_forward_char then move Ed.dot_left
  set_forward_char NUL

/-- The count, but no more than there are lines on the screen. -/
def count_rows : Cmd Unit := count fun s => min s.cmdcnt (s.rows - 1)

/-- `H` and `L`: a line of the screen, and from there down or up for the count. -/
def screen_line (from_ : Ed → ℤ) (step : Cmd Unit) (c : Char) (finish : Cmd Unit) : Cmd Unit := do
  move from_
  count_rows
  let s ← look
  count fun s => s.cmdcnt - 1
  if 1 < s.cmdcnt then
    step
    dc1 c
  finish

def skip_blanks : Cmd Unit := move fun s => s.skip_over_ws s.dot

/-- `G` -/
def goto_line : Cmd Unit :=
  move fun s => s.skip_over_ws (if 0 < s.cmdcnt then s.find_line s.cmdcnt else s.end_ - 1)

/-- `gg` -/
def gg : Cmd Unit := do
  let c1 ← get_one_char
  if c1 ≠ 'g' then not_implemented ['g', c1]
  else
    let s ← look
    if s.cmdcnt = 0 then count fun _ => 1
    goto_line

/-- `b` and `e` -/
def by_word (dir : Dir) : Cmd Unit := again do
  let s ← look
  if s.dot + dir.inc < 0 ∨ s.end_ - 1 < s.dot + dir.inc then return false
  else
    move fun s => s.word_to dir
    return true

/-- To another line, in the column of the cursor. -/
def same_column (line : Ed → ℤ) : Cmd Unit :=
  each (move fun s => s.move_to_col s.tabstop (line s) (s.ccol + s.offset))

/-- `{` and `}` -/
def paragraph (dir : Dir) : Cmd Unit := do
  let s ← look
  match s.char_search s.ignorecase s.dot ['\n', '\n'] dir false with
  | some q => move fun s => s.next_line q
  | none => return ()

/-- A branch of `do_cmd` that only moves the cursor; whether `do_cmd` goes on to its end. -/
def Move.exec (m : Move) (c : Char) : Cmd Bool := do
  let s ← look
  match m with
  | digit => Vi.digit c
  | page_up => dot_scroll (s.rows - 2) .back; return true
  | page_down => dot_scroll (s.rows - 2) .forward; return true
  | half_up => dot_scroll ((s.rows - 2) / 2) .back; return true
  | half_down => dot_scroll ((s.rows - 2) / 2) .forward; return true
  | line_up => dot_scroll 1 .back; return true
  | line_down => dot_scroll 1 .forward; return true
  | status => return true
  | left => each (Vi.move Ed.dot_left); return true
  | right => each (Vi.move Ed.dot_right); return true
  | up => same_column fun s => s.prev_line s.dot; return true
  | down => same_column fun s => s.next_line s.dot; return true
  | plus => Vi.plus; return true
  | minus => Vi.minus; return true
  | register => name_register; return true
  | goto_mark => Vi.goto_mark; return true
  | mark => Vi.set_mark; return true
  | dollar => each (Vi.move fun s => s.end_line s.dot); return true
  | pair => Vi.pair; return true
  | find =>
    let c1 ← get_one_char
    set_forward_char c1
    find_again Ed.semicolon
    return true
  | find_next => find_again Ed.semicolon; return true
  | find_prev => find_again Ed.comma; return true
  | till => Vi.till; return true
  | search => Vi.search c; return true
  | search_opposite => again (find_pattern .back); return true
  | search_again => again (find_pattern .forward); return true
  | para_back => paragraph .back; return true
  | para_forward => paragraph .forward; return true
  | Word => each (Vi.move fun s => s.Word c); return true
  | word_back => by_word .back; return true
  | word_end => by_word .forward; return true
  | word => each (Vi.move Ed.next_word); return true
  | gg => Vi.gg; return true
  | goto => goto_line; return true
  | top => screen_line (fun s => s.screenbegin) Vi.plus '+' skip_blanks; return true
  | bottom => screen_line Ed.end_screen Vi.minus '-' to_line_start; return true
  | middle => Vi.move fun s => s.next_line^[(s.rows - 1) / 2] s.screenbegin; return true
  | caret => to_line_start; return true
  | bar => Vi.move fun s => s.move_to_col s.tabstop s.dot (s.cmdcnt - 1); return true
  | home => Vi.move fun s => s.begin_line s.dot; return true

/-! ## Keys -/

/-- What a key means in command mode. -/
inductive Key
  | move (m : Move)
  | unknown | nul | function_key | redraw | esc | dot | colon | put | undo_line | shift
  | append_end | append | insert_begin | insert | replace_mode
  | rest_of_line | join | open_above | open_below | delete_char | change_char
  | exit | operator | replace | tilde | z
  deriving DecidableEq

/-- The cursor keys and their like, from `VI_K_UP` on. -/
def VI_K (n : ℕ) : Char := Char.ofNat (128 + n)

def VI_K_INSERT : Char := VI_K 6

def VI_K_DELETE : Char := VI_K 7

/-- The keys that move the cursor in every mode. -/
def cursor_key (c : Char) : Bool :=
  c.toNat = 128 || c.toNat = 129 || c.toNat = 130 || c.toNat = 131 || c.toNat = 132 ||
    c.toNat = 133 || c.toNat = 136 || c.toNat = 137

/-- The cases of the `switch` of `do_cmd` that are not letters. -/
def special_key (n : ℕ) : Key :=
  match n with
  | 0 => .nul
  | 2 | 136 => .move .page_up
  | 4 => .move .half_down
  | 5 => .move .line_down
  | 6 | 137 => .move .page_down
  | 7 => .move .status
  | 8 | 127 | 131 => .move .left
  | 10 | 129 => .move .down
  | 12 | 18 => .redraw
  | 13 => .move .plus
  | 21 => .move .half_up
  | 25 => .move .line_up
  | 27 => .esc
  | 128 => .move .up
  | 130 => .move .right
  | 132 => .move .home
  | 133 => .move .dollar
  | 134 => .insert
  | 135 => .delete_char
  | n => if 138 ≤ n ∧ n ≤ 149 then .function_key else .unknown

/-- The cases of the `switch` of `do_cmd`. -/
def key_of (c : Char) : Key :=
  match c with
  | 'h' => .move .left
  | 'j' => .move .down
  | 'k' => .move .up
  | 'l' | ' ' => .move .right
  | '+' => .move .plus
  | '-' => .move .minus
  | '"' => .move .register
  | '\'' => .move .goto_mark
  | 'm' => .move .mark
  | 'p' | 'P' => .put
  | 'U' => .undo_line
  | '$' => .move .dollar
  | '%' => .move .pair
  | 'f' => .move .find
  | ';' => .move .find_next
  | ',' => .move .find_prev
  | '.' => .dot
  | '/' | '?' => .move .search
  | 'N' => .move .search_opposite
  | 'n' => .move .search_again
  | '{' => .move .para_back
  | '}' => .move .para_forward
  | '0' | '1' | '2' | '3' | '4' | '5' | '6' | '7' | '8' | '9' => .move .digit
  | ':' => .colon
  | '<' | '>' => .shift
  | 'A' => .append_end
  | 'a' => .append
  | 'B' | 'E' | 'W' => .move .Word
  | 'C' | 'D' => .rest_of_line
  | 'g' => .move .gg
  | 'G' => .move .goto
  | 'H' => .move .top
  | 'I' => .insert_begin
  | 'i' => .insert
  | 'J' => .join
  | 'L' => .move .bottom
  | 'M' => .move .middle
  | 'O' => .open_above
  | 'o' => .open_below
  | 'R' => .replace_mode
  | 'X' | 'x' => .delete_char
  | 's' => .change_char
  | 'Z' => .exit
  | '^' => .move .caret
  | 'b' => .move .word_back
  | 'e' => .move .word_end
  | 'c' | 'd' | 'y' | 'Y' => .operator
  | 'r' => .replace
  | 't' => .move .till
  | 'w' => .move .word
  | 'z' => .z
  | '|' => .move .bar
  | '~' => .tilde
  | c => special_key c.toNat

/-- `do_cmd` of a key that moves the cursor, as other commands call it. -/
def do_move (c : Char) : Cmd Unit := do
  if let .move m := key_of c then
    if ← m.exec c then dc1 c

/-! ## Ranges -/

/-- The word that `w` and `W` go over, without the first character of the next one. -/
def Ed.back_off (s : Ed) : ℤ :=
  let p := s.dot
  let p :=
    if 0 < p ∧ ((isspace (s.mem (p - 1)) ∧ ¬ isspace (s.mem p)) ∨
        (ispunct (s.mem (p - 1)) ∧ ¬ ispunct (s.mem p)) ∨
        (isalnum (s.mem (p - 1)) ∧ ¬ isalnum (s.mem p))) then p - 1
    else p
  if 0 < p ∧ s.mem p = '\n' then p - 1 else p

/-- The ends of the object `c` names, in either order. -/
def find_ends (c : Char) : Cmd (ℤ × ℤ) := do
  let s ← look
  if strchr "cdy><" c then
    let p := s.begin_line s.dot
    return (p, s.end_line (s.next_line^[(s.cmdcnt - 1).toNat] p))
  else if strchr "^%$0bBeEfth\x08\x7f" c then
    do_move c
    let t ← look
    return (s.dot, t.dot)
  else if strchr "wW" c then
    do_move c
    move Ed.back_off
    let t ← look
    return (s.dot, t.dot)
  else if strchr "H-k\x7b" c then
    do_move c
    move fun t => t.begin_line t.dot
    let t ← look
    return (t.dot, s.end_line s.dot)
  else if strchr "L+j\x7d\r\n" c then
    do_move c
    move fun t => t.end_line t.dot
    let t ← look
    return (s.begin_line s.dot, t.dot)
  else
    -- every other key stands for the character under the cursor
    return (s.dot, s.dot)

/-- The range of the object `c` names, and whether there is a newline in it. -/
def find_range (c : Char) : Cmd (ℤ × ℤ × Bool) := do
  let s ← look
  let (p, q) ← find_ends c
  let start := min p q
  let stop := if start < max p q ∧ strchr "^0bBh\x08\x7f" c then max p q - 1 else max p q
  let t ← look
  move fun _ => s.dot
  return (start, stop, '\n' ∈ t.range start stop)

end EspLinux.Vi
