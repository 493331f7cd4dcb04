import EspLinux.Vi.Change

/-!
# vi: colon commands

The addresses, and the commands that are typed as a line behind a colon.
-/

namespace EspLinux.Vi

open Lib

/-! ## The line -/

/-- The number at the beginning of a line, as `sscanf` reads it, and what follows it. -/
def scan_number (p : List Char) : ℤ × List Char :=
  let digits := p.takeWhile isdigit
  (min (digits.foldl (fun n c => 10 * n + (c.toNat - '0'.toNat)) 0) 2147483647,
    p.dropWhile isdigit)

/-- The first `n` characters of `a` are those of `name`, in either case. -/
def strncasecmp (a name : List Char) (n : ℕ) : Bool :=
  (a.take n).map tolower = (name.take n).map tolower

/-- A prefix of the name of a command, in either case. -/
def abbreviates (cmd : List Char) (name : String) : Bool :=
  strncasecmp cmd name.toList cmd.length

/-- The string that lies in memory behind the one that is read. -/
def next_string : Cmd (List Char) := do
  let s ← look
  let p := cstring (s.line_memory.drop (s.line_end + 1))
  view fun s => { s.toView with line_end := s.line_end + 1 + p.length }
  return p

/-- One address, or -1. -/
def get_one_address (p : List Char) : Proc (ℤ × List Char) := do
  let s ← edit look
  match p with
  | '.' :: p => return (s.count_lines 0 (s.begin_line s.dot), p)
  | ['\''] =>
    -- the letter of the mark is passed even where the line ends in front of it
    let p ← edit next_string
    return (-1, p)
  | '\'' :: c :: p =>
    let c := tolower c
    if islower c then
      let addr ← sys (.mark_line (c.toNat - 'a'.toNat))
      return (addr.getD (-1), p)
    else return (-1, p)
  | '/' :: p =>
    let pat := p.takeWhile (· ≠ '/')
    let rest := (p.dropWhile (· ≠ '/')).tail
    match s.char_search s.ignorecase s.dot pat .forward false with
    | some q => return (s.count_lines 0 q, rest)
    | none => return (-1, rest)
  | '$' :: p => return (s.count_lines 0 (s.begin_line (s.end_ - 1)), p)
  | c :: _ => if isdigit c then return scan_number p else return (-1, p)
  | [] => return (-1, p)

/-- One or two addresses; -1 where there is none. -/
def get_address (p : List Char) : Proc (ℤ × ℤ × List Char) := do
  let s ← edit look
  match p.dropWhile isblank with
  | '%' :: p => return (1, s.count_lines 0 (s.end_ - 1), p.dropWhile isblank)
  | p =>
    let (b, p) ← get_one_address p
    match p.dropWhile isblank with
    | ',' :: p =>
      let (e, p) ← get_one_address (p.dropWhile isblank)
      return (b, e, p.dropWhile isblank)
    | p => return (b, -1, p)

/-- A colon command: its addresses, and the command as it was typed, as a word without the `!`, and
with its arguments. -/
structure Line where
  b : ℤ
  e : ℤ
  orig_buf : List Char
  cmd : List Char
  args : List Char
  useforce : Bool

namespace Line

/-- Take a command apart behind its addresses. -/
def of (b e : ℤ) (buf : List Char) : Line :=
  let word := buf.takeWhile fun c => ¬ isspace c
  let useforce := word.getLast? = some '!'
  { b := b
    e := e
    orig_buf := buf
    cmd := if useforce then word.dropLast else word
    args := (buf.dropWhile fun c => ¬ isspace c).dropWhile isblank
    useforce := useforce }

/-- The lines from which the command starts, without addresses all lines. -/
def first (l : Line) (s : Ed) : ℤ := if 0 ≤ l.b then s.find_line l.b else 0

/-- The end of the lines of the command. -/
def last (l : Line) (s : Ed) : ℤ :=
  if 0 ≤ l.e then s.end_line (s.find_line l.e)
  else if 0 ≤ l.b then s.end_line (s.find_line l.b)
  else s.end_ - 1

/-- The same, where the line of `dot` is meant without an address. -/
def range (l : Line) (s : Ed) : ℤ × ℤ :=
  if l.b < 0 then (s.begin_line s.dot, s.end_line s.dot) else (l.first s, l.last s)

/-- The file a command is about: its argument, or the current file. -/
def file (l : Line) (s : Ed) : Option (List Char) :=
  if l.args ≠ [] then some l.args else s.current_filename

end Line

/-! ## Screen -/

/-- `createScreen` and `redraw`, for control-L. -/
def redraw_screen : Proc Unit := do
  sys .createScreen
  refresh

/-- Wait for Return, then redraw. -/
def Hit_Return : Proc Unit := do
  sys .hit_return
  refresh

/-! ## Files -/

/-- Read a file into a new buffer.  `lost` says which command gives the old text up. -/
def init_text_buffer (fn : Option (List Char)) (lost : Option Bool) : Proc ℤ := do
  let size ← sys (.file_size fn)
  sys (.fresh_buffer size lost)
  edit (view fun s => { s.toView with current_filename := fn })
  let rc ←
    if size < 0 then do
      -- start an empty buffer with a dummy line
      let _ ← edit (plain_insert 0 '\n')
      pure 0
    else sys (.file_insert (fn.getD []) 0 true)
  sys .loaded
  return rc

/-- `:edit` -/
def colon_edit (l : Line) : Proc Unit := do
  let s ← edit look
  if s.file_modified ≠ 0 ∧ ¬ l.useforce then
    edit (status_line_bold "No write since last change (:edit! overrides)")
  else if l.args = [] ∧ (s.current_filename.getD []) = [] then
    edit (status_line_bold "No current filename")
  else
    let rc ← init_text_buffer (l.file s) (some l.useforce)
    if 0 ≤ rc then
      edit (view fun s => { s.toView with
        reg := fun i => if i = Ureg ∨ i = s.YDreg then none else s.reg i })
      let s ← edit look
      let fn := String.ofList (s.current_filename.getD [])
      let size ← sys (.file_size s.current_filename)
      let new := if size < 0 then " [New file]" else ""
      let ro := if s.readonly_mode then " [Readonly]" else ""
      let li := s.count_lines 0 (s.end_ - 1)
      edit (status_line s!"\"{fn}\"{new}{ro} {li}L, 0C")

/-- `:read` -/
def colon_read (l : Line) : Proc Unit := do
  if l.args = [] then edit (status_line_bold "No filename given")
  else
    let s ← edit look
    let q := if l.b < 0 then s.begin_line s.dot else l.first s
    let q := if l.b ≠ 0 then s.next_line q else q
    let ch ← sys (.file_insert l.args q false)
    if 0 ≤ ch then
      let p : Ptr := ⟨s.block, q⟩
      let li ← sys (.count_lines p ch)
      let fn := String.ofList l.args
      let ro := if s.readonly_mode then " [Readonly]" else ""
      edit (status_line s!"\"{fn}\"{ro} {li}L, {ch}C")
      if 0 < ch then
        edit (view fun s => { s.toView with
          dot := if s.addr (some p) ≤ s.at_ s.dot then s.dot + ch else s.dot })
        sys .touch

/-! ## Leaving -/

/-- `:quit` and `:next` -/
def colon_quit (l : Line) : Proc Unit := do
  let s ← edit look
  let q := l.cmd.headD NUL = 'q'
  let n := l.cmd.headD NUL = 'n'
  if l.useforce then
    -- force the end of the list of files
    if q then edit (view fun s => { s.toView with optind := s.save_argc })
    sys (.leave true)
  else if s.file_modified ≠ 0 then
    let name := if q then "quit" else "next"
    edit (status_line_bold s!"No write since last change (:{name}! overrides)")
  else if q ∧ s.optind < s.save_argc - 1 then
    let more := s.save_argc - s.optind - 1
    edit (status_line_bold s!"{more} more file to edit")
  else if n ∧ s.save_argc - 1 ≤ s.optind then
    edit (status_line_bold "No more files to edit")
  else sys (.leave false)

/-- `:rewind` -/
def colon_rewind (l : Line) : Proc Unit := do
  let s ← edit look
  if s.file_modified ≠ 0 ∧ ¬ l.useforce then
    edit (status_line_bold "No write since last change (:rewind! overrides)")
  else
    edit (view fun s => { s.toView with optind := s.fn_start - 1 })
    sys (.leave l.useforce)

/-- The command also ends editing: `:wq`, `:wn`, `:x`. -/
def Line.leaves (l : Line) : Bool :=
  l.cmd.headD NUL = 'x' || l.cmd.headD NUL = 'X' ||
    l.cmd[1]?.any fun c => c = 'q' || c = 'Q' || c = 'n' || c = 'N'

/-- `:write`, `:wq`, `:wn` and `:x` -/
def colon_write (l : Line) : Proc Unit := do
  let s ← edit look
  let fn := l.file s
  let shown := String.ofList (fn.getD [])
  if s.readonly_mode ∧ ¬ l.useforce then
    edit (status_line_bold s!"\"{shown}\" File is read only")
  else
    let q := l.first s
    let r := l.last s
    let li := s.count_lines q r
    let reason ← sys .strerror
    let n ← sys (.file_write true (l.leaves && !l.useforce) fn q r)
    if n < 0 then
      if n = -1 then edit (status_line_bold s!"\"{shown}\" {reason}")
    else
      edit (status_line s!"\"{shown}\" {li}L, {n}C")
      if l.leaves ∧ n = r - q + 1 then sys (.leave l.useforce)

/-! ## Substitution -/

/-- A string that is found has a last character. -/
lemma le_last_found {find : List Char} (hfind : find ≠ []) (p : ℤ) : p ≤ p + find.length - 1 := by
  have hpos : 0 < find.length := List.length_pos_of_ne_nil hfind
  omega

/-- Replace `find` by `by_` in the line from `ls` on, looking from `q`, at most `n` times. -/
def substitute_line (find by_ : List Char) (gflag : Bool) (hfind : find ≠ []) (ls : ℤ) :
    ℕ → ℤ → Cmd Unit
  | 0, _ => .perform (.stop .spinning)
  | n + 1, q => do
    let s ← look
    match s.char_search s.ignorecase q find .forward true with
    | none => return ()
    | some p =>
      have h : p ≤ p + find.length - 1 := le_last_found hfind p
      let _ ← text_hole_delete p (p + find.length - 1) h
      let _ ← string_insert p by_
      let s ← look
      if gflag ∧ p + by_.length < s.end_line ls then
        substitute_line find by_ gflag hfind ls n (p + by_.length)

/-- Replace in `k` lines, from `q` on. -/
def substitute_lines (find by_ : List Char) (gflag : Bool) (hfind : find ≠ []) (fuel : ℕ) :
    ℕ → ℤ → Cmd Unit
  | 0, _ => return ()
  | k + 1, q => do
    substitute_line find by_ gflag hfind q fuel q
    let s ← look
    substitute_lines find by_ gflag hfind fuel k (s.next_line q)

/-- The parts of `s/find/replace/g`: `none` if a delimiter is missing.  There is a first delimiter,
since `s` alone is `set`. -/
def split_substitution (buf : List Char) : Option (List Char × List Char × Bool) :=
  let c := (buf.tail).headD NUL
  let rest := buf.drop 2
  if c ∈ rest then
    let by_ := (rest.dropWhile (· ≠ c)).tail
    some (rest.takeWhile (· ≠ c), by_.takeWhile (· ≠ c),
      ((by_.dropWhile (· ≠ c)).tail).headD NUL = 'g')
  else none

/-- The delimiters behind the first one are replaced by NUL, in memory where the string that is read
ends at `stop`. -/
def cut_delimiters (buf memory : List Char) (stop : ℕ) : List Char :=
  let c := (buf.tail).headD NUL
  let F := stop + 2 - buf.length
  let R := F + ((memory.drop F).takeWhile (· ≠ c)).length + 1
  let buf1 := R + ((memory.drop R).takeWhile fun d => d ≠ c ∧ d ≠ NUL).length
  written (written memory (R - 1) [NUL]) buf1 [NUL]

/-- The same in the line that is executed. -/
def cut_line (buf : List Char) : Cmd Unit := view fun s =>
  { s.toView with line_memory := cut_delimiters buf s.line_memory s.line_end }

/-- `:s`.  Gives whether the command is complete. -/
def colon_substitute (l : Line) : Proc Bool := do
  let s ← edit look
  match split_substitution l.orig_buf with
  | none =>
    edit (status_line_bold ":s expression missing delimiters")
    return false
  | some (find, by_, gflag) =>
    let find := if find = [] then (s.last_search_pattern.getD []).tail else find
    if h : find = [] then
      edit (status_line_bold "No previous regular expression")
      return false
    else
      edit (cut_line l.orig_buf)
      let q := s.begin_line (if l.b < 0 then s.dot else l.first s)
      let b := if l.b < 0 then (s.count_lines 0 q : ℤ) else l.b
      let e := if l.e < 0 then b else l.e
      let fuel ← edit (.perform .fuel)
      edit (substitute_lines find by_ gflag h fuel (e - b + 1).toNat q)
      return true

/-! ## Options -/

/-- Set or clear an option that is named at the beginning of `a`. -/
def setops (a : List Char) (opname short_opname : String) (old off : Bool) : Bool :=
  if strncasecmp a opname.toList opname.length ∨ strncasecmp a short_opname.toList 2 then !off
  else old

/-- One argument of `:set`.  A `tabstop` without a value makes `sscanf` read at NULL. -/
def set_option_ (argp : List Char) : Cmd Unit := do
  let off := strncasecmp argp ['n', 'o'] 2
  let a := if off then argp.drop 2 else argp
  view fun s => { s.toView with
    autoindent := setops a "autoindent" "ai" s.autoindent off
    err_method := setops a "flash" "fl" s.err_method off
    ignorecase := setops a "ignorecase" "ic" s.ignorecase off
    showmatch := setops a "showmatch" "sm" s.showmatch off }
  if strncasecmp a "tabstop".toList 7 then
    if '=' ∈ a then
      let value := (a.dropWhile (· ≠ '=')).tail.dropWhile isspace
      let ch := (scan_number (if value.headD NUL = '+' then value.tail else value)).1
      if 0 < ch ∧ ch ≤ 32 then view fun s => { s.toView with tabstop := ch.toNat }
    else .perform (.stop .null)

/-- The arguments of `:set`, `n` characters at most. -/
def set_options : ℕ → List Char → Cmd Unit
  | 0, _ => return ()
  | n + 1, argp =>
    if argp = [] then return ()
    else do
      set_option_ argp
      set_options n ((argp.dropWhile (· ≠ ' ')).dropWhile (· = ' '))

/-- `:set` -/
def colon_set (l : Line) : Cmd Unit := do
  set_options l.args.length l.args
  let s ← look
  let no := fun (on : Bool) (name : String) => if on then name else "no" ++ name
  status_line (no s.autoindent "autoindent " ++ no s.err_method "flash " ++
    no s.ignorecase "ignorecase " ++ no s.showmatch "showmatch ")

/-! ## The commands -/

/-- What the word of a colon command means. -/
inductive ColonCmd
  | goto | run | line_number | delete | edit | file | features | list | quit | read | rewind | set
  | substitute | version | write | yank | unknown
  deriving DecidableEq

/-- The command a word abbreviates; of several the first. -/
def ColonCmd.of (cmd : List Char) : ColonCmd :=
  if cmd = [] then goto
  else if cmd.headD NUL = '!' then run
  else if cmd = ['='] then line_number
  else if abbreviates cmd "delete" then delete
  else if abbreviates cmd "edit" then edit
  else if abbreviates cmd "file" then file
  else if abbreviates cmd "features" then features
  else if abbreviates cmd "list" then list
  else if abbreviates cmd "quit" ∨ abbreviates cmd "next" then quit
  else if abbreviates cmd "read" then read
  else if abbreviates cmd "rewind" then rewind
  else if abbreviates cmd "set" then set
  else if strncasecmp cmd ['s'] 1 then substitute
  else if abbreviates cmd "version" then version
  else if abbreviates cmd "write" ∨ abbreviates cmd "wq" ∨ abbreviates cmd "wn" ∨
    abbreviates cmd "x" then write
  else if abbreviates cmd "yank" then yank
  else unknown

/-- Execute a colon command; whether `dot` is to be made valid afterwards. -/
def Line.exec (l : Line) : Proc Bool := do
  match ColonCmd.of l.cmd with
  | .goto =>
    if 0 ≤ l.b then Vi.edit (move fun s => s.skip_over_ws (s.find_line l.b))
    return true
  | .run =>
    sys .rawmode
    Hit_Return
    return true
  | .line_number =>
    let s ← Vi.edit look
    let b := if l.b < 0 then (s.count_lines 0 s.dot : ℤ) else l.b
    Vi.edit (status_line s!"{b}")
    return true
  | .delete =>
    let s ← Vi.edit look
    let dot ← Vi.edit (yank_delete (l.range s).1 (l.range s).2 true true)
    Vi.edit (move fun s => s.skip_over_ws dot)
    return true
  | .edit => colon_edit l; return true
  | .file =>
    if l.b ≠ -1 ∨ l.e ≠ -1 then
      Vi.edit (not_implemented "No address allowed on this command".toList)
    else if l.args ≠ [] then
      Vi.edit (view fun s => { s.toView with current_filename := some l.args })
    return true
  | .features =>
    sys .rawmode
    Hit_Return
    return true
  | .list =>
    Hit_Return
    return true
  | .quit => colon_quit l; return true
  | .read => colon_read l; return true
  | .rewind => colon_rewind l; return true
  | .set => Vi.edit (colon_set l); return true
  | .substitute => colon_substitute l
  | .version =>
    Vi.edit (status_line "version 2.62 brent@mbari.org")
    return true
  | .write => colon_write l; return true
  | .yank =>
    let s ← Vi.edit look
    Vi.edit (view fun s => s.text_yank (l.range s).1 (l.range s).2 s.YDreg)
    let li := s.count_lines (l.range s).1 (l.range s).2
    let t ← Vi.edit look
    let len := ((t.reg t.YDreg).getD []).length
    let r := what_reg t.YDreg
    Vi.edit (status_line s!"Yank {li} lines ({len} chars) into [{r}]")
    return true
  | .unknown =>
    Vi.edit (not_implemented l.cmd)
    return true

/-- Execute a line that was typed behind a colon. -/
def colon (buf : List Char) : Proc Unit := do
  if buf = [] then edit bound_dot
  else
    let buf := if buf.headD NUL = ':' then buf.tail else buf
    let (b, e, buf) ← get_address buf
    if ← (Line.of b e buf).exec then edit bound_dot

end EspLinux.Vi
