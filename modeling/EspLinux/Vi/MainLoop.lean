import EspLinux.Lib.Run
import EspLinux.Vi.Colon

/-!
# vi: the main loop

`do_cmd` for all keys, the loop that reads them, and the runs of the editor.
-/

namespace EspLinux.Vi

open Lib

/-! ## Commands -/

/-- Go to insert mode. -/
def dc_i : Proc Unit := sys (.set_mode .insert)

/-- `Z`, the first of two. -/
def exit_cmd : Proc Unit := do
  let c1 ← edit get_one_char
  if c1 ≠ 'Z' then edit indicate_error
  else
    let s ← edit look
    if s.file_modified ≠ 0 then
      if s.readonly_mode then
        let shown := String.ofList (s.current_filename.getD [])
        edit (status_line_bold s!"\"{shown}\" File is read only")
      else
        let reason ← sys .strerror
        let cnt ← sys (.file_write false true s.current_filename 0 (s.end_ - 1))
        if cnt < 0 then
          if cnt = -1 then edit (status_line_bold s!"Write error: {reason}")
        else if cnt = s.end_ then sys (.leave false)
    else sys (.leave false)

/-- `z`: the line of the cursor to the top, the middle or the bottom of the screen. -/
def place_line : Proc Unit := do
  let c1 ← edit get_one_char
  let s ← edit look
  sys .top
  edit (dot_scroll (if c1 = '.' then (s.rows - 2) / 2 else if c1 = '-' then s.rows - 2 else 0) .back)

/-- What a colon command has changed of the line stays in the array. -/
def keep_line : Cmd Unit :=
  view fun s => { s.toView with get_input_line__buf := s.line_memory.take MAX_INPUT_LEN }

/-- The `switch` of `do_cmd`: the key it takes the command for at its end, if it goes there. -/
def switch (c : Char) : Proc (Option Char) := do
  match key_of c with
  | .move m =>
    let on ← edit (m.exec c)
    return if on then some c else none
  | .unknown =>
    edit (not_implemented (if c < ' ' then ['^', Char.ofNat (c.toNat + 64)] else [c]))
    edit end_cmd_q
    return some c
  | .nul => return some c
  | .function_key => return some c
  | .redraw =>
    redraw_screen
    return some c
  | .esc =>
    let s ← edit look
    if s.cmd_mode = .command then edit indicate_error
    sys (.set_mode .command)
    edit end_cmd_q
    return some c
  | .dot =>
    sys .repeat_cmd
    return some c
  | .colon =>
    let p ← edit (.perform (.get_input_line ':'))
    colon p
    edit keep_line
    return some c
  | .put =>
    edit (put c)
    return some c
  | .undo_line =>
    edit undo_line
    return some c
  | .shift =>
    shift c
    return some c
  | .append_end =>
    edit (move fun s => s.end_line s.dot)
    edit (move fun s => if s.mem s.dot ≠ '\n' then s.dot + 1 else s.dot)
    dc_i
    return some c
  | .append =>
    edit (move fun s => if s.mem s.dot ≠ '\n' then s.dot + 1 else s.dot)
    dc_i
    return some c
  | .insert_begin =>
    edit to_line_start
    dc_i
    return some c
  | .insert =>
    dc_i
    return some c
  | .replace_mode =>
    sys (.set_mode .replace)
    return some c
  | .rest_of_line =>
    edit delete_rest
    if c = 'C' then dc_i else edit end_cmd_q
    return some c
  | .join =>
    let s ← edit look
    edit (join (max s.cmdcnt 1).toNat)
    return some c
  | .open_above =>
    edit open_above
    dc_i
    return some c
  | .open_below =>
    edit open_below
    dc_i
    return some c
  | .delete_char =>
    let c := if c = VI_K_DELETE then 'x' else c
    edit (each do
      delete_char c
      end_cmd_q)
    return some c
  | .change_char =>
    edit (delete_char c)
    dc_i
    return some c
  | .exit =>
    exit_cmd
    return some c
  | .operator =>
    let (c, insert) ← edit (operator c)
    if insert then dc_i
    return some c
  | .replace =>
    edit replace_char
    return some c
  | .tilde =>
    edit (each flip_case)
    return some c
  | .z =>
    place_line
    return some c

/-- A key in insert mode. -/
def insert_key (c : Char) : Proc Unit := do
  if c = VI_K_INSERT then sys (.set_mode .replace)
  else if c ≠ NUL then
    let s ← edit look
    let dot ← char_insert s.dot c
    edit (move fun _ => dot)

/-- A key in replace mode. -/
def replace_key (c : Char) : Proc Unit := do
  let s ← edit look
  if c = VI_K_INSERT then dc_i
  else if s.mem s.dot = '\n' then
    -- not past the end of the line: insert instead
    sys (.set_mode .insert)
    insert_key c
  else if c ≠ NUL then
    if c ≠ '\x1b' then
      let dot ← edit (yank_delete s.dot s.dot false true)
      edit (move fun _ => dot)
    let s ← edit look
    let dot ← char_insert s.dot c
    edit (move fun _ => dot)

/-- Execute the command a key stands for. -/
def do_cmd (c : Char) : Proc Unit := do
  let s ← edit look
  if cursor_key c ∨ s.cmd_mode = .command then
    if let some c ← switch c then edit (dc1 c)
  else
    if s.cmd_mode = .replace then replace_key c else insert_key c
    edit (dc1 c)

/-! ## The loop -/

/-- Keep the line of the cursor for `U`, if it does not begin at the same address as before. -/
def save_line : Cmd Unit := view fun s =>
  let here := some ⟨s.block, s.begin_line s.dot⟩
  if s.addr here ≠ s.addr s.cur_line then
    { s.text_yank (s.begin_line s.dot) (s.end_line s.dot) Ureg with cur_line := here }
  else s.toView

/-- One turn of the main loop: read a key and execute its command. -/
def turn : Proc Unit := do
  refresh
  let c ← edit get_one_char
  edit (status_line "")
  edit save_line
  sys (.remember c)
  do_cmd c

/-- What `edit_file` does before its main loop. -/
def edit_file (fn : Option (List Char)) : Proc Unit := do
  sys .rawmode
  sys .createScreen
  let _ ← init_text_buffer fn none
  sys .start

/-- Execute a command line that was given at the start, with what lies behind it in memory. -/
def initial_cmd (memory : List Char) : Proc Unit := do
  let line := cstring memory
  edit (view fun s => { s.toView with line_memory := memory, line_end := line.length })
  colon line

/-- What happens to the editor: a file is edited, a command line that was given at the start is
executed, a turn of the main loop is made. -/
inductive Event
  | file (fn : Option (List Char))
  | command (memory : List Char)
  | key

/-- The procedure of an event. -/
def Event.proc : Event → Proc Unit
  | file fn => edit_file fn
  | command memory => initial_cmd memory
  | key => turn

/-- The state when the program starts: what the memory holds, where allocations will be placed, the
keys and answers to come, whether files are read only, and the place of the file names among the
arguments. -/
def vi_main (mem : ℤ → Char) (base : ℕ → ℤ) (keys : List Char) (world : World) (readonly : Bool)
    (optind argc : ℤ) : Globals where
  mem := mem
  end_ := 0
  file_modified := 0
  block := 0
  base := base
  rows := 24
  columns := 80
  screenbegin := 0
  offset := 0
  crow := 0
  ccol := 0
  erase_char := NUL
  cmd_mode := .command
  mark := fun _ => none
  context_start := none
  context_end := none
  dot := 0
  cmdcnt := 0
  autoindent := true
  showmatch := true
  ignorecase := true
  err_method := false
  tabstop := 0
  last_forward_char := NUL
  last_search_pattern := none
  YDreg := 0
  reg := fun _ => none
  cur_line := none
  readonly_mode := readonly
  current_filename := none
  optind := optind
  save_argc := argc
  fn_start := optind
  get_input_line__buf := List.replicate MAX_INPUT_LEN NUL
  line_memory := []
  line_end := 0
  text_size := 0
  queue := { keys := keys, adding2q := false, last_modifying_cmd := [], ioq := none }
  world := world
  editing := false
  status_buffer := []
  saved := []
  dropped := []

/-- The editor that has read a file with the given text, and the keys to come. -/
def opened (text keys : List Char) : Globals :=
  let g := vi_main (fun _ => NUL) (fun n => 100000 * n) keys
    { busy := []
      sizes := []
      erase := []
      file_sizes := [some text.length]
      files := [⟨some text.length, true, true, some text, false, ""⟩]
      sinks := []
      behind := []
      fuel := 10 }
    false 0 1
  ((edit_file (some ['f'])).run exec g).state.getD g

/-- The next file is edited when editing has ended; everything else is part of editing. -/
def Event.admitted (g : Globals) : Event → Prop
  | file _ => g.editing = false
  | _ => g.editing = true

instance (g : Globals) (e : Event) : Decidable (e.admitted g) := by
  cases e <;> exact inferInstanceAs (Decidable (_ = _))

/-- The state after an event, if it comes to an end. -/
def step (g : Globals) (e : Event) : Option Globals :=
  if e.admitted g then (e.proc.run exec g).state else none

end EspLinux.Vi
