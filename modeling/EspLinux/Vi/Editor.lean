import EspLinux.Lib.Program
import EspLinux.Vi.Buffer

/-!
# vi: the editor and its operations

The globals of the editor, in groups: the text buffer, the screen, the marks and what the commands
change at will (`View`), which together are what a command can look at (`Ed`); the size of the
allocation; the keys that are read and the record made for `.`; and what the rest of the world will
answer.  A command is a program over the operations of this module.  The operations of `Edit` are
the ones nearly every command is made of.  Those of `Sys` redraw the screen, change the mode, start
a record or its replay, use a pointer that may have become invalid, or read and write files.

What is drawn on the terminal is not part of the state, nor is the ruler that the status line shows
when there is no message.
-/

namespace EspLinux.Vi

open Lib

inductive Mode
  | command | insert | replace
  deriving DecidableEq

/-- Where the text is shown. -/
structure Screen where
  rows : ℕ
  columns : ℕ
  screenbegin : ℤ
  offset : ℤ
  crow : ℤ
  ccol : ℤ
  /-- The user's erase character, from the terminal's settings. -/
  erase_char : Char
  cmd_mode : Mode

/-- The marks `a` to `z`, the two contexts 26 and 27, and the extent of the current context. -/
structure Marks where
  mark : ℕ → Option Ptr
  context_start : Option Ptr
  context_end : Option Ptr

/-- What a command changes at will. -/
structure View where
  dot : ℤ
  cmdcnt : ℤ
  autoindent : Bool
  showmatch : Bool
  ignorecase : Bool
  err_method : Bool
  tabstop : ℕ
  last_forward_char : Char
  last_search_pattern : Option (List Char)
  YDreg : ℕ
  reg : ℕ → Option (List Char)
  /-- `edit_file__cur_line`, the line that is kept for `U`. -/
  cur_line : Option Ptr
  readonly_mode : Bool
  current_filename : Option (List Char)
  optind : ℤ
  save_argc : ℤ
  fn_start : ℤ
  /-- The array a line is copied to that was read behind a prompt. -/
  get_input_line__buf : List Char
  /-- The memory from the line on that `colon` executes. -/
  line_memory : List Char
  /-- Where the string ends in it that `colon` reads. -/
  line_end : ℕ

/-- What a command can look at. -/
structure Ed extends Buffer, Screen, Marks, View

/-- The register that keeps the line for `U`. -/
def Ureg : ℕ := 27

/-- The longest line that is read from the keyboard, and the longest command that is kept. -/
def MAX_INPUT_LEN : ℕ := 128

/-- Bytes that are written over those of an array, or behind them. -/
def written (array : List Char) (first : ℕ) (bytes : List Char) : List Char :=
  array.take first ++ bytes ++ array.drop (first + bytes.length)

/-- The message that a key is not recorded. -/
def overrun_message : List Char := "\x1b[7mlast_modifying_cmd overrun\x1b[0m".toList

/-! ## Keys -/

/-- The keys to come, the command that is being recorded, and the record that is being replayed. -/
structure Queue where
  /-- What `readit` will give. -/
  keys : List Char
  adding2q : Bool
  /-- The first `lmc_len` bytes of the array of this name. -/
  last_modifying_cmd : List Char
  /-- What is left to replay; `none` for a NULL pointer. -/
  ioq : Option (List Char)

namespace Queue

/-- A key from the keyboard. -/
def readit (q : Queue) : Option (Char × Queue) :=
  match q.keys with
  | [] => none
  | c :: keys => some (c, { q with keys := keys })

/-- The next key: recorded, or from the replay, or from the keyboard. -/
def get_one_char (q : Queue) : Option (Char × Queue) :=
  if q.adding2q then
    q.readit.map fun (c, q) =>
      (c, if MAX_INPUT_LEN - 1 ≤ q.last_modifying_cmd.length then q
        else { q with last_modifying_cmd := q.last_modifying_cmd ++ [c] })
  else
    match q.ioq with
    | none => q.readit
    | some (c :: rest) => some (c, { q with ioq := some rest })
    | some [] => { q with ioq := none }.readit

/-- The record is full: the next key is not recorded, and there is a message in `status_buffer`. -/
def overrun (q : Queue) : Bool :=
  q.adding2q && decide (MAX_INPUT_LEN - 1 ≤ q.last_modifying_cmd.length)

/-- No more than this many keys can be read. -/
def size (q : Queue) : ℕ := q.keys.length + (q.ioq.getD []).length

/-- The loop of `get_input_line`, `i` characters of the line being in `status_buffer`: what the
buffer holds in the end.  The message that the record is full is put into the same buffer. -/
def line (erase_char : Char) : ℕ → ℕ → List Char → Queue → Option (List Char × Queue)
  | 0, _, _, _ => none
  | n + 1, i, buf, q =>
    if MAX_INPUT_LEN ≤ i then some (buf, q)
    else
      match q.get_one_char with
      | none => none
      | some (c, q') =>
        let buf := if q.overrun then written buf 0 (overrun_message ++ [NUL]) else buf
        if c = '\n' ∨ c = '\r' ∨ c = '\x1b' then some (buf, q')
        else if c = erase_char ∨ c = '\x08' ∨ c = '\x7f' then
          let buf := written buf (i - 1) [NUL]
          if i ≤ 1 then some (buf, q') else line erase_char n (i - 1) buf q'
        else line erase_char n (i + 1) (written (written buf i [c]) (i + 1) [NUL]) q'

/-- Read a line behind a prompt. -/
def get_input_line (q : Queue) (erase_char prompt : Char) : Option (List Char × Queue) :=
  (q.line erase_char (q.size + 1) 1 [prompt, NUL]).map fun (buf, q) => (cstring buf, q)

/-- Wait for Return or Escape; whether there was the message that the record is full. -/
def hit_return : ℕ → Queue → Option (Bool × Queue)
  | 0, _ => none
  | n + 1, q =>
    match q.get_one_char with
    | none => none
    | some (c, q') =>
      if c = '\n' ∨ c = '\r' ∨ c = '\x1b' then some (q.overrun, q')
      else (hit_return n q').map fun (overrun, q'') => (q.overrun || overrun, q'')

/-- Start to record the command `c` and its count. -/
def start_new_cmd_q (q : Queue) (cmdcnt : ℤ) (c : Char) : Queue :=
  { q with
    last_modifying_cmd := if 0 < cmdcnt then (toString cmdcnt).toList ++ [c] else [c]
    adding2q := true }

end Queue

/-! ## The world -/

/-- What `file_insert` meets. -/
structure Found where
  /-- The size of the file, if it is there. -/
  st_size : Option ℕ
  regular : Bool
  opens : Bool
  /-- What is read, or an error. -/
  data : Option (List Char)
  /-- It may not be written. -/
  readonly : Bool
  /-- The text of the error, if there is one. -/
  strerror : String

/-- What opening and writing a file gives: the results of the calls of `write`. -/
structure Sink where
  opens : Bool
  wrote : List ℤ
  /-- The text of the error, if there is one. -/
  strerror : String

/-- What the rest of the world will answer. -/
structure World where
  /-- Whether input is waiting when the screen is to be redrawn. -/
  busy : List Bool
  /-- The sizes of the screen. -/
  sizes : List (ℕ × ℕ)
  /-- The erase characters the terminal is found to have. -/
  erase : List Char
  /-- What `stat` gives to `file_size`. -/
  file_sizes : List (Option ℕ)
  files : List Found
  sinks : List Sink
  /-- What lies in memory behind `get_input_line__buf` when a line has been read. -/
  behind : List (List Char)
  /-- No more replacements than this are made in one line. -/
  fuel : ℕ

/-! ## The whole state -/

/-- A text that is given up, the text as last loaded or completely written at that time, and
whether a command ending in `!` gave it up. -/
structure Drop where
  text : List Char
  saved : List Char
  forced : Bool

/-- The state of the program. -/
structure Globals extends Ed where
  /-- The size of the allocation. -/
  text_size : ℤ
  queue : Queue
  world : World
  editing : Bool
  /-- The message on the status line. -/
  status_buffer : List Char
  /-- The text as it was last loaded or completely written; not a variable of the program. -/
  saved : List Char
  /-- The texts given up so far; not a variable of the program. -/
  dropped : List Drop

/-- Why a run stops. -/
inductive Stop
  /-- It waits for a key. -/
  | waiting
  /-- It never ends. -/
  | spinning
  /-- A pointer is used that `xrealloc` or `free` has invalidated. -/
  | dangling
  /-- A NULL pointer is used. -/
  | null
  deriving DecidableEq

abbrev Result (α : Type) := Outcome Stop Globals α

/-! ## The screen and the cursor -/

namespace Ed

/-- The last character on the screen. -/
def end_screen (s : Ed) : ℤ := s.end_line (s.next_line^[s.rows - 2] s.screenbegin)

/-- Where the screen begins when the line `beg_cur` is to be on it. -/
def scrolled (s : Ed) (beg_cur : ℤ) : ℤ :=
  let half := (s.rows - 1) / 2
  let moved_to (cnt : ℕ) : ℤ := if half < cnt then s.prev_line^[half] beg_cur else beg_cur
  if beg_cur < s.screenbegin then moved_to (s.count_lines beg_cur s.screenbegin)
  else if s.end_screen < beg_cur then
    let cnt := s.count_lines s.end_screen beg_cur
    if half < cnt then moved_to cnt else s.next_line^[cnt - 1] s.screenbegin
  else s.screenbegin

/-- The first row from `tp` on, at most `n` rows further, that shows the line `beg_cur`. -/
def row_of (s : Ed) (beg_cur : ℤ) : ℕ → ℤ → ℕ × ℤ
  | 0, tp => (0, tp)
  | n + 1, tp =>
    if tp = beg_cur then (0, tp)
    else
      let (ro, tp) := s.row_of beg_cur n (s.next_line tp)
      (ro + 1, tp)

/-- The column of `d` when `n` characters of its line are left. -/
def col_of (s : Ed) (d : ℤ) : ℕ → ℤ → ℤ → ℤ
  | 0, _, co => co
  | n + 1, tp, co =>
    if s.mem tp = '\n' then co
    else
      let co :=
        if s.mem tp = '\t' then co + ((s.tabstop - 1) - co % s.tabstop)
        else if s.mem tp < ' ' ∨ s.mem tp = '\x7f' then co + 1
        else co
      s.col_of d n (tp + 1) (co + 1)

/-- Show the position `d`: `sync_cursor`. -/
def sync_cursor (s : Ed) (d : ℤ) : Screen :=
  let beg_cur := s.begin_line d
  let screenbegin := s.scrolled beg_cur
  let (ro, tp) := s.row_of beg_cur (s.rows - 1) screenbegin
  let co := s.col_of d (d - tp).toNat tp 0
  let offset := if co < s.offset then co else s.offset
  let offset := if s.columns + offset ≤ co then co - s.columns + 1 else offset
  let offset := if d = beg_cur ∧ s.mem d = '\t' then 0 else offset
  { s.toScreen with
    screenbegin := screenbegin
    offset := offset
    crow := ro
    ccol := co - offset }

/-- The beginning of the screen after `cnt` lines in a direction. -/
def scroll (s : Ed) (cnt : ℕ) (dir : Dir) : ℤ :=
  match dir with
  | .forward => s.next_line^[cnt] s.screenbegin
  | .back => s.prev_line^[cnt] s.screenbegin

/-- The commands that change the text, and so establish a context. -/
def modifying_cmds : String := "aAcCdDiIJoOpPrRsxX<>~"

/-- A new context, if `dot` is outside the current one and the text is to be changed. -/
def check_context (s : Ed) (cmd : Char) : Marks :=
  let here := s.at_ s.dot
  if (here < s.addr s.context_start ∨ s.addr s.context_end < here) ∧
      strchr modifying_cmds cmd then
    { mark := fun i =>
        if i = 27 then s.mark 26 else if i = 26 then some ⟨s.block, s.dot⟩ else s.mark i
      context_start := some ⟨s.block, s.prev_line (s.prev_line s.dot)⟩
      context_end := some ⟨s.block, s.next_line (s.next_line s.dot)⟩ }
  else s.toMarks

/-- The mark lies in the text, by its address. -/
def mark_in (s : Ed) (i : ℕ) (stop : ℤ) : Prop :=
  s.at_ 0 ≤ s.addr (s.mark i) ∧ s.addr (s.mark i) ≤ s.at_ stop

instance (s : Ed) (i : ℕ) (stop : ℤ) : Decidable (s.mark_in i stop) :=
  inferInstanceAs (Decidable (_ ∧ _))

/-- A pointer that is not into the current allocation. -/
def stale (s : Ed) (p : Option Ptr) : Prop := ∃ q, p = some q ∧ q.block ≠ s.block

instance (s : Ed) (p : Option Ptr) : Decidable (s.stale p) :=
  match p with
  | none => .isFalse fun ⟨_, h, _⟩ => nomatch h
  | some q =>
    if h : q.block ≠ s.block then .isTrue ⟨q, rfl, h⟩
    else .isFalse fun ⟨_, he, hq⟩ => h (by cases he; exact hq)

end Ed

/-! ## Operations of the editing commands -/

namespace Globals

/-- Redraw the screen, unless input is waiting. -/
def refresh (g : Globals) : Globals :=
  let busy := g.world.busy.headD false
  let g := { g with world := { g.world with busy := g.world.busy.tail } }
  if busy then g else { g with toScreen := g.sync_cursor g.dot }

/-- Open a hole in the text, in a larger allocation if this one is too small. -/
def text_hole_make (g : Globals) (p size : ℤ) : Globals :=
  let b := g.hole p size
  if 0 < size ∧ g.text_size ≤ b.end_ then
    { g with toBuffer := { b with block := b.block + 1 }, text_size := b.end_ + 10240 }
  else { g with toBuffer := b }

/-- Delete `p` through `q`. -/
def deleted (g : Globals) (p q : ℤ) : Globals :=
  { g with toBuffer := (g.toBuffer.text_hole_delete p q).2 }

/-- Insert the characters `s` at `p`. -/
def insert (g : Globals) (p : ℤ) (s : List Char) : Globals :=
  let g := g.text_hole_make p s.length
  { g with mem := Buffer.store g.mem p s }

/-- The message that the record is full, if it is. -/
def noticed (g : Globals) (overrun : Bool) : Globals :=
  { g with status_buffer := if overrun then overrun_message else g.status_buffer }

@[simp] lemma noticed_toEd (g : Globals) (overrun : Bool) :
    (g.noticed overrun).toEd = g.toEd := rfl

/-- A line has been read behind a prompt, into `status_buffer`, and is copied.  It may be one
character too long for the array it is copied to. -/
def line_typed (g : Globals) (line : List Char) : Globals :=
  let memory := written (g.get_input_line__buf ++ g.world.behind.headD []) 0 (line ++ [NUL])
  { g with
    status_buffer := line
    get_input_line__buf := memory.take MAX_INPUT_LEN
    line_memory := memory
    line_end := line.length
    world := { g.world with behind := g.world.behind.tail } }

end Globals

/-- The operations the editing commands are made of. -/
inductive Edit : Type → Type
  /-- Look at the editor. -/
  | look : Edit Ed
  /-- Move the cursor, set a register, an option or a count. -/
  | view (f : Ed → View) : Edit Unit
  | status_line (msg : String) : Edit Unit
  /-- A bound for the loops that have none of their own. -/
  | fuel : Edit ℕ
  /-- The bell, or with `flash` the screen drawn twice. -/
  | indicate_error : Edit Unit
  | get_one_char : Edit Char
  | get_input_line (prompt : Char) : Edit (List Char)
  | end_cmd_q : Edit Unit
  /-- Insert a character; `held` says that a pointer from before is read afterwards. -/
  | stupid_insert (p : ℤ) (c : Char) (held : Bool) : Edit ℤ
  | string_insert (p : ℤ) (s : List Char) : Edit ℤ
  /-- Delete `p` through `q`; nobody passes them in the wrong order. -/
  | text_hole_delete (p q : ℤ) (h : p ≤ q) : Edit ℤ
  /-- `*p = c` and `file_modified++`. -/
  | poke (p : ℤ) (c : Char) : Edit Unit
  /-- Move the beginning of the screen: the loop of `dot_scroll`. -/
  | scroll (cnt : ℕ) (dir : Dir) : Edit Unit
  | set_mark (i : ℕ) : Edit Unit
  /-- The position of a mark, if it is in the text. -/
  | goto_mark (i : ℕ) : Edit (Option ℤ)
  | check_context (cmd : Char) : Edit Unit
  /-- The position of the other context, if it is in the text. -/
  | swap_context : Edit (Option ℤ)
  | stop (e : Stop) : Edit Unit

namespace Edit

/-- The key or line a queue gives, and what it leaves, or a run that waits. -/
def typed {α : Type} (g : α → Globals) : Option (α × Queue) → Result α
  | some (a, q) => .done a { g a with queue := q }
  | none => .stopped .waiting

/-- What an operation does. -/
def exec : ∀ β : Type, Edit β → Globals → Result β
  | _, look, g => .done g.toEd g
  | _, view f, g => .done () { g with toView := f g.toEd }
  | _, status_line msg, g => .done () { g with status_buffer := msg.toList }
  | _, fuel, g => .done g.world.fuel g
  | _, indicate_error, g => .done () (if g.err_method then g.refresh.refresh else g)
  | _, get_one_char, g => typed (fun _ => g.noticed g.queue.overrun) g.queue.get_one_char
  | _, get_input_line prompt, g =>
    typed g.line_typed (g.queue.get_input_line g.erase_char prompt)
  | _, end_cmd_q, g => .done () { g with YDreg := 26, queue := { g.queue with adding2q := false } }
  | _, stupid_insert p c held, g =>
    let g' := g.insert p [c]
    if held ∧ g'.block ≠ g.block then .stopped .dangling else .done (p + 1) g'
  | _, string_insert p s, g =>
    -- the string is stored at the old `p`
    let g' := g.insert p s
    if g'.block ≠ g.block then .stopped .dangling else .done p g'
  | _, text_hole_delete p q _, g => .done (g.toBuffer.text_hole_delete p q).1 (g.deleted p q)
  | _, poke p c, g =>
    .done () { g with mem := Buffer.store g.mem p [c], file_modified := g.file_modified + 1 }
  | _, scroll cnt dir, g => .done () { g with screenbegin := g.toEd.scroll cnt dir }
  | _, set_mark i, g =>
    .done () { g with mark := fun j => if j = i then some ⟨g.block, g.dot⟩ else g.mark j }
  | _, goto_mark i, g =>
    if g.mark_in i (g.end_ - 1) then
      if g.stale (g.mark i) then .stopped .dangling
      else .done ((g.mark i).map Ptr.off) g
    else .done none g
  | _, check_context cmd, g => .done () { g with toMarks := g.toEd.check_context cmd }
  | _, swap_context, g =>
    if g.mark_in 27 (g.end_ - 1) then
      if g.stale (g.mark 27) then .stopped .dangling
      else
        let p := (g.mark 27).map Ptr.off
        .done p
          { g with
            mark := fun i => if i = 27 then g.mark 26 else if i = 26 then g.mark 27 else g.mark i
            context_start := p.map fun p => ⟨g.block, g.prev_line (g.prev_line (g.prev_line p))⟩
            context_end := p.map fun p => ⟨g.block, g.next_line (g.next_line (g.next_line p))⟩ }
    else .done none g
  | _, stop e, _ => .stopped e

end Edit

/-- An editing command. -/
abbrev Cmd := Program Edit

/-! ## Files -/

/-- Write `len` bytes, given the results of the calls of `write`. -/
def full_write : List ℤ → ℤ → ℤ → ℤ
  | [], len, total => if len = 0 then total else if total ≠ 0 then total else -1
  | cc :: ccs, len, total =>
    if len = 0 then total
    else if cc < 0 then (if total ≠ 0 then total else cc)
    else full_write ccs (len - min cc len) (total + min cc len)

namespace Globals

/-- Allocate a new, empty buffer.  The old text is given up; `lost` says by which command. -/
def fresh_buffer (g : Globals) (size : ℤ) (lost : Option Bool) : Globals :=
  let text_size := size + 10240
  { g with
    mem := fun i => if 0 ≤ i ∧ i < text_size then NUL else g.mem i
    end_ := 0
    block := g.block + 1
    screenbegin := 0
    dot := 0
    text_size := text_size
    saved := []
    dropped := (lost.toList.map fun forced => ⟨g.content, g.saved, forced⟩) ++ g.dropped }

/-- The end of `init_text_buffer`: the text counts as unmodified, and there are no marks. -/
def loaded (g : Globals) : Globals :=
  { g with file_modified := 0, mark := fun _ => none, saved := g.content }

/-- A message on the status line in reverse video. -/
def say (g : Globals) (msg : String) : Globals :=
  { g with status_buffer := ("\x1b[7m" ++ msg ++ "\x1b[0m").toList }

/-- Read a file of the size `size` into a hole at `p`. -/
def read_in (g : Globals) (fn : List Char) (p : ℤ) (size : ℕ) (found : Found) : ℤ × Globals :=
  let shown := String.ofList fn
  let reason := found.strerror
  let g := g.text_hole_make p size
  match found.data with
  | none => (-1, (g.deleted p (p + size - 1)).say s!"\"{shown}\" {reason}")
  | some data =>
    let data := data.take size
    let cnt : ℤ := data.length
    let g := { g with mem := Buffer.store g.mem p data }
    if cnt < size then
      (cnt, (g.deleted (p + cnt) (p + (size - cnt) - 1)).say s!"cannot read all of file \"{shown}\"")
    else (cnt, { g with file_modified := g.file_modified + 1 })

/-- `file_insert`, given what it meets. -/
def insert_found (g : Globals) (fn : List Char) (p : ℤ) (found : Found) : ℤ × Globals :=
  let shown := String.ofList fn
  let reason := found.strerror
  match found.st_size with
  | none => (-1, g.say s!"\"{shown}\" {reason}")
  | some size =>
    if ¬ found.regular then (-1, g.say s!"\"{shown}\" Not a regular file")
    else if p < 0 ∨ g.end_ < p then (-1, g.say "Trying to insert file outside of memory")
    else if ¬ found.opens then (-1, g.say s!"\"{shown}\" {reason}")
    else g.read_in fn p size found

/-- Insert what is read from the file `fn` at `p`.  Gives the number of bytes, or -1. -/
def file_insert (g : Globals) (fn : List Char) (p : ℤ) (update_ro_status : Bool) : ℤ × Globals :=
  let found := g.world.files.headD ⟨none, false, false, none, false, ""⟩
  let g := { g with world := { g.world with files := g.world.files.tail } }
  let (cnt, g) := g.insert_found fn p found
  (cnt, if update_ro_status ∧ found.readonly then { g with readonly_mode := true } else g)

/-- Write `first` through `last` to a file.  Gives the number of bytes, 0 if not all could be
written, -1 if the file cannot be opened and -2 if there is no file name. -/
def file_write (g : Globals) (fn : Option (List Char)) (first last : ℤ) : ℤ × Globals :=
  if fn = none then (-2, g.say "No current filename")
  else
    let sink := g.world.sinks.headD ⟨false, [], ""⟩
    let g := { g with world := { g.world with sinks := g.world.sinks.tail } }
    if ¬ sink.opens then (-1, g)
    else
      let cnt := last - first + 1
      let charcnt := full_write sink.wrote (cnt % 2 ^ 32) 0
      if charcnt = cnt then
        (charcnt, if first = 0 ∧ last = g.end_ - 1 then { g with saved := g.content } else g)
      else (0, g)

/-- The end of editing: the text is given up. -/
def leave (g : Globals) (forced : Bool) : Globals :=
  { g with editing := false, dropped := ⟨g.content, g.saved, forced⟩ :: g.dropped }

/-- A screen of the size that is found. -/
def createScreen (g : Globals) : Globals :=
  let (rows, columns) := g.world.sizes.headD (g.rows, g.columns)
  { g with
    world := { g.world with sizes := g.world.sizes.tail }
    rows := max 2 (min rows 4096)
    columns := max 2 (min columns 4096) }

/-- What `edit_file` sets before the first key is read. -/
def start (g : Globals) : Globals :=
  { g with
    editing := true
    YDreg := 26
    mark := fun i => if i = 26 ∨ i = 27 then some ⟨g.block, 0⟩ else g.mark i
    last_forward_char := NUL
    crow := 0
    ccol := 0
    tabstop := 8
    offset := 0
    cmd_mode := .command
    cmdcnt := 0
    queue := { g.queue with adding2q := false, last_modifying_cmd := [], ioq := none } }

end Globals

/-! ## Operations of the main loop and of the colon commands -/

/-- The operations that only some commands need. -/
inductive Sys : Type → Type
  | refresh : Sys Unit
  | set_mode (m : Mode) : Sys Unit
  /-- `screenbegin = begin_line(dot)` -/
  | top : Sys Unit
  | createScreen : Sys Unit
  | rawmode : Sys Unit
  /-- The loop of `Hit_Return`. -/
  | hit_return : Sys Unit
  /-- Start to record the command `c`, if it is to be recorded. -/
  | remember (c : Char) : Sys Unit
  /-- Replay the recorded command. -/
  | repeat_cmd : Sys Unit
  /-- The memory at `p` is used. -/
  | check (p : Ptr) : Sys Unit
  /-- `next_line` of a pointer that may be invalid. -/
  | next_line (p : Ptr) : Sys Ptr
  /-- `count_lines(q, q + ch - 1)` of a pointer that may be invalid. -/
  | count_lines (q : Ptr) (ch : ℤ) : Sys ℕ
  /-- The number of the line of a mark. -/
  | mark_line (i : ℕ) : Sys (Option ℤ)
  | file_size (fn : Option (List Char)) : Sys ℤ
  | fresh_buffer (size : ℤ) (lost : Option Bool) : Sys Unit
  | loaded : Sys Unit
  | file_insert (fn : List Char) (p : ℤ) (update_ro_status : Bool) : Sys ℤ
  /-- The text of the error the next file to be written gives. -/
  | strerror : Sys String
  /-- `file_write` for ZZ, or for a colon command (`colon`), which then counts the text as unmodified
  if all of it was written, and which may be meant to end editing without `!` (`leaving`). -/
  | file_write (colon leaving : Bool) (fn : Option (List Char)) (first last : ℤ) : Sys ℤ
  /-- `file_modified++` -/
  | touch : Sys Unit
  | leave (forced : Bool) : Sys Unit
  | start : Sys Unit

namespace Sys

/-- What an operation does. -/
def exec : ∀ β : Type, Sys β → Globals → Result β
  | _, refresh, g => .done () g.refresh
  | _, set_mode m, g => .done () { g with cmd_mode := m }
  | _, top, g => .done () { g with screenbegin := g.begin_line g.dot }
  | _, createScreen, g => .done () g.createScreen
  | _, rawmode, g =>
    .done () { g with
      erase_char := g.world.erase.headD g.erase_char
      world := { g.world with erase := g.world.erase.tail } }
  | _, hit_return, g =>
    match g.queue.hit_return (g.queue.size + 1) with
    | some (overrun, q) => .done () { g.noticed overrun with queue := q }
    | none => .stopped .waiting
  | _, remember c, g =>
    .done () (if ¬ g.queue.adding2q ∧ g.queue.ioq = none ∧ strchr Ed.modifying_cmds c then
      { g with queue := g.queue.start_new_cmd_q g.cmdcnt c } else g)
  | _, repeat_cmd, g =>
    .done () (if g.queue.last_modifying_cmd = [] then g else
      { g with queue := { g.queue with ioq := some (cstring g.queue.last_modifying_cmd) } })
  | _, check p, g => if p.block = g.block then .done () g else .stopped .dangling
  | _, next_line p, g =>
    if p.block = g.block then .done ⟨g.block, g.next_line p.off⟩ g
    else if g.addr (some p) < g.at_ (g.end_ - 1) then .stopped .dangling
    else .done p g
  | _, count_lines q ch, g =>
    if q.block = g.block then .done (g.count_lines q.off (q.off + ch - 1)) g
    else if g.addr (some q) + min 0 (ch - 1) ≤ g.at_ (g.end_ - 1) then .stopped .dangling
    else .done 0 g
  | _, mark_line i, g =>
    match g.mark i with
    | none => .done none g
    | some q =>
      if q.block ≠ g.block ∧ g.addr (some q) < g.at_ (g.end_ - 1) then .stopped .dangling
      else .done (some (g.count_lines 0 (g.addr (some q) - g.at_ 0))) g
  | _, file_size fn, g =>
    match fn with
    | none | some [] => .done (-1) g
    | some (_ :: _) =>
      .done (((g.world.file_sizes.headD none).map fun n : ℕ => (n : ℤ)).getD (-1))
        { g with world := { g.world with file_sizes := g.world.file_sizes.tail } }
  | _, fresh_buffer size lost, g => .done () (g.fresh_buffer size lost)
  | _, loaded, g => .done () g.loaded
  | _, file_insert fn p ro, g => .done (g.file_insert fn p ro).1 (g.file_insert fn p ro).2
  | _, strerror, g => .done ((g.world.sinks.head?.map Sink.strerror).getD "") g
  | _, file_write colon _ fn first last, g =>
    let (l, g') := g.file_write fn first last
    .done l (if colon ∧ 0 ≤ l ∧ first = 0 ∧ last = g.end_ - 1 ∧ l = last - first + 1 then
      { g' with file_modified := 0 } else g')
  | _, touch, g => .done () { g with file_modified := g.file_modified + 1 }
  | _, leave forced, g => .done () (g.leave forced)
  | _, start, g => .done () g.start

end Sys

/-! ## What reading keys leaves -/

section Keys

variable {α : Type} {g g' : Globals}

lemma typed_done {f : α → Globals} {x : Option (α × Queue)} {a : α}
    (h : Edit.typed f x = .done a g') : ∃ q, g' = { f a with queue := q } := by
  rcases x with _ | ⟨a', q⟩
  · cases h
  · cases h
    exact ⟨q, rfl⟩

lemma hit_return_done {u : Unit} (h : Sys.exec Unit .hit_return g = .done u g') :
    ∃ overrun q, g' = { g.noticed overrun with queue := q } := by
  rw [Sys.exec] at h
  split at h <;> cases h
  exact ⟨_, _, rfl⟩

end Keys

/-! ## Procedures -/

/-- All operations. -/
abbrev Op (β : Type) := Edit β ⊕ Sys β

/-- What an operation does. -/
def exec (β : Type) : Op β → Globals → Result β
  | .inl o, g => Edit.exec β o g
  | .inr o, g => Sys.exec β o g

/-- A procedure of the editor. -/
abbrev Proc := Program Op

/-- An editing command as part of a procedure. -/
def edit {α : Type} (p : Cmd α) : Proc α := p.lift fun _ o => .inl o

/-- One of the other operations as a procedure. -/
def sys {α : Type} (o : Sys α) : Proc α := Program.perform (.inr o)

section Runs

variable {α β : Type} {G : ∀ β : Type, Op β → Globals → Prop} {g : Globals}

@[simp] lemma exec_inl (o : Edit β) : exec β (.inl o) g = Edit.exec β o g := rfl

@[simp] lemma exec_inr (o : Sys β) : exec β (.inr o) g = Sys.exec β o g := rfl

@[simp] lemma run_edit (p : Cmd α) : (edit p).run exec g = p.run Edit.exec g :=
  Program.run_lift _ (fun _ _ => rfl) p g

/-- What an editing command meets is what it meets as part of a procedure. -/
lemma along_edit_iff (p : Cmd α) :
    (edit p).Along exec G g ↔ p.Along Edit.exec (fun β o => G β (.inl o)) g :=
  Program.along_lift (fun _ _ => rfl) p g

@[simp] lemma run_sys (o : Sys α) : (sys o).run exec g = Sys.exec α o g :=
  Program.run_perform exec (.inr o) g

@[simp] lemma along_sys (o : Sys α) : (sys o).Along exec G g ↔ G α (.inr o) g := by
  simp [sys, Program.perform, Program.along_call]

/-- A condition that no editing command fails. -/
lemma along_edit (h : ∀ (β : Type) (o : Edit β) (g : Globals), G β (.inl o) g) (p : Cmd α) :
    (edit p).Along exec G g := by
  refine Program.All.along (P := fun β o => ∀ g, G β o g) ?_ (fun _ _ g h => h g) g
  exact Program.All.lift (fun β o => h β o) p

end Runs

end EspLinux.Vi
