import EspLinux.Vi.Colon
import EspLinux.Vi.Messages
import EspLinux.Vi.Prompt

/-!
# vi: the buffers of fixed size

The messages, the line that is typed behind a prompt, the command that is kept for `.`, and the word
and the arguments of a colon command are all put into arrays whose size is fixed.  The functions
that write to them are programs over the memory of these arrays, and each of their stores is at an
index with a length, so that it is inside its array or not.  A run is any sequence of calls of these
functions.

Nearly all of the stores are inside.  The others are those of a message with a name that is too
long, since nobody looks at the length of the names, those of a line that fills the buffer, of which
`get_input_line` reads one character too many for the array the line is copied to, and those of a
colon command that begins behind the line, because a mark address at the very end leads there.
-/

namespace EspLinux.Vi

open Lib

/-! ## Memory -/

/-- The arrays of fixed size. -/
inductive FixedArray
  | status_buffer | displayed_buffer | get_input_line__buf | last_modifying_cmd | cmd | args
  deriving DecidableEq

/-- The declared size. -/
def FixedArray.size : FixedArray → ℕ
  | status_buffer | displayed_buffer => STATUS_BUFFER_LEN
  | get_input_line__buf | last_modifying_cmd | cmd | args => MAX_INPUT_LEN

/-- Bytes written over those of an array; behind its end they are lost. -/
def overwrite (array : List Char) (first : ℕ) (bytes : List Char) : List Char :=
  (array.take first ++ bytes ++ array.drop (first + bytes.length)).take array.length

/-- What `get_one_char` keeps: whether keys are recorded, how many there are in
`last_modifying_cmd`, and what is left to replay. -/
structure Recorder where
  adding2q : Bool
  lmc_len : ℕ
  ioq : Option (List Char)

/-- The arrays, the recorder and the keys to come. -/
structure Fixed where
  mem : FixedArray → List Char
  recorder : Recorder
  keys : List Char

/-- The operations of the functions below. -/
inductive Act : Type → Type
  | store (array : FixedArray) (first : ℕ) (bytes : List Char) : Act Unit
  | load (array : FixedArray) : Act (List Char)
  | recorder : Act Recorder
  | set_recorder (r : Recorder) : Act Unit
  | readit : Act Char
  /-- No more than this many keys can be read. -/
  | pending : Act ℕ
  | wait : Act Unit

namespace Fixed

def store (s : Fixed) (array : FixedArray) (first : ℕ) (bytes : List Char) : Fixed :=
  { s with mem := Function.update s.mem array (overwrite (s.mem array) first bytes) }

/-- The keys as the other modules see them. -/
def queue (s : Fixed) : Queue where
  keys := s.keys
  adding2q := s.recorder.adding2q
  last_modifying_cmd := (s.mem .last_modifying_cmd).take s.recorder.lmc_len
  ioq := s.recorder.ioq

end Fixed

/-- One operation.  A run stops where it waits for a key. -/
def Act.exec : ∀ β : Type, Act β → Fixed → Outcome Unit Fixed β
  | _, store array first bytes, s => .done () (s.store array first bytes)
  | _, load array, s => .done (s.mem array) s
  | _, recorder, s => .done s.recorder s
  | _, set_recorder r, s => .done () { s with recorder := r }
  | _, readit, s =>
    match s.keys with
    | [] => .stopped ()
    | c :: keys => .done c { s with keys := keys }
  | _, pending, s => .done s.queue.size s
  | _, wait, _ => .stopped ()

/-- A store is inside its array. -/
def Act.Inside : ∀ β : Type, Act β → Fixed → Prop
  | _, store array first bytes, _ => first + bytes.length ≤ array.size
  | _, _, _ => True

instance : ∀ (β : Type) (o : Act β) (s : Fixed), Decidable (o.Inside _ s)
  | _, .store _ _ _, _ => inferInstanceAs (Decidable (_ ≤ _))
  | _, .load _, _ | _, .recorder, _ | _, .set_recorder _, _ | _, .readit, _ | _, .pending, _
  | _, .wait, _ => .isTrue trivial

abbrev Fix (α : Type) : Type 1 := Program Act α

namespace Fix

def store (array : FixedArray) (first : ℕ) (bytes : List Char) : Fix Unit :=
  .perform (.store array first bytes)

def load (array : FixedArray) : Fix (List Char) := .perform (.load array)

/-- `strcpy`, and what `sprintf` does to an array. -/
def strcpy (array : FixedArray) (first : ℕ) (str : List Char) : Fix Unit :=
  store array first (str ++ [NUL])

/-! ## Messages -/

def status_line_bold (text : List Char) : Fix Unit := do
  strcpy .status_buffer 0 SOs
  strcpy .status_buffer SOlen text
  let buffer ← load .status_buffer
  -- `strcat`
  strcpy .status_buffer (cstring buffer).length SOn

def status_line (text : List Char) : Fix Unit := strcpy .status_buffer 0 text

def message (m : Msg) : Fix Unit := if m.bold then status_line_bold m.text else status_line m.text

/-- The status of the file, cut off at the width of the screen and at the size of the buffer. -/
def format_edit_status (status : List Char) (columns : ℕ) : Fix Unit :=
  let trunc_at := if columns < STATUS_BUFFER_LEN - 1 then columns else STATUS_BUFFER_LEN - 1
  strcpy .status_buffer 0 (status.take trunc_at)

/-- What differs from the status that is displayed is copied. -/
def copy_changed : Fix Unit := do
  let buffer ← load .status_buffer
  let displayed ← load .displayed_buffer
  match scompare (cstring buffer) (cstring displayed) with
  | some changed => strcpy .displayed_buffer ((cstring buffer).length - changed.length) changed
  | none => return ()

def show_status_line (status : List Char) (columns : ℕ) : Fix Unit := do
  let buffer ← load .status_buffer
  if cstring buffer = [] then format_edit_status status columns
  copy_changed

/-! ## Keys -/

def readit : Fix Char := .perform .readit

def get_one_char : Fix Char := do
  let r ← .perform .recorder
  if r.adding2q then
    let c ← readit
    if MAX_INPUT_LEN - 1 ≤ r.lmc_len then message (.notice .cmd_overrun)
    else
      store .last_modifying_cmd r.lmc_len [c]
      .perform (.set_recorder { r with lmc_len := r.lmc_len + 1 })
    return c
  else
    match r.ioq with
    | none => readit
    | some (c :: rest) =>
      .perform (.set_recorder { r with ioq := some rest })
      return c
    | some [] =>
      .perform (.set_recorder { r with ioq := none })
      readit

/-- The loop of `get_input_line`, `i` characters being in the buffer. -/
def type_line (erase_char : Char) : ℕ → ℕ → Fix Unit
  | 0, _ => .perform .wait
  | n + 1, i =>
    if MAX_INPUT_LEN ≤ i then return ()
    else do
      let c ← get_one_char
      if c = '\n' ∨ c = '\r' ∨ c = '\x1b' then return ()
      else if c = erase_char ∨ c = '\x08' ∨ c = '\x7f' then
        store .status_buffer (i - 1) [NUL]
        if i ≤ 1 then return () else type_line erase_char n (i - 1)
      else
        store .status_buffer i [c]
        store .status_buffer (i + 1) [NUL]
        type_line erase_char n (i + 1)

/-- `get_input_line` up to the copy at its end. -/
def type_in (erase_char prompt : Char) : Fix Unit := do
  store .displayed_buffer 0 [NUL]
  strcpy .status_buffer 0 [prompt]
  let n ← .perform .pending
  type_line erase_char (n + 1) 1

def get_input_line (erase_char prompt : Char) : Fix Unit := do
  type_in erase_char prompt
  let buffer ← load .status_buffer
  strcpy .get_input_line__buf 0 (cstring buffer)

/-- Start to record the command `c` and its count. -/
def start_new_cmd_q (cmdcnt : CInt) (c : Char) : Fix Unit := do
  let r ← .perform .recorder
  if 0 < cmdcnt.val then
    strcpy .last_modifying_cmd 0 (cmdcnt.printed ++ [c])
    .perform (.set_recorder { r with adding2q := true, lmc_len := cmdcnt.printed.length + 1 })
  else
    store .last_modifying_cmd 0 [c]
    .perform (.set_recorder { r with adding2q := true, lmc_len := 1 })

def end_cmd_q : Fix Unit := do
  let r ← .perform .recorder
  .perform (.set_recorder { r with adding2q := false })

/-- The command `.` -/
def replay : Fix Unit := do
  let r ← .perform .recorder
  if 0 < r.lmc_len then
    store .last_modifying_cmd r.lmc_len [NUL]
    let q ← load .last_modifying_cmd
    .perform (.set_recorder { r with ioq := some (cstring q) })

end Fix

/-! ## Colon commands -/

/-- Where an address ends that begins at `p`, the bytes from there on being given. -/
def one_address : List Char → List Char
  | '.' :: p => p
  -- the letter of the mark is passed even where the line ends in front of it
  | '\'' :: p => p.drop 1
  | '/' :: p =>
    let rest := p.dropWhile fun c => c ≠ '/' ∧ c ≠ NUL
    if rest.head? = some '/' then rest.tail else rest
  | '$' :: p => p
  | p => p.dropWhile isdigit

/-- Where the addresses end. -/
def addresses (p : List Char) : List Char :=
  match p.dropWhile isblank with
  | '%' :: p => p.dropWhile isblank
  | p =>
    match (one_address p).dropWhile isblank with
    | ',' :: p => (one_address (p.dropWhile isblank)).dropWhile isblank
    | p => p

/-- The command of a line, behind its addresses. -/
def orig_buf (memory : List Char) : List Char :=
  addresses (if memory.head? = some ':' then memory.tail else memory)

namespace Fix

/-- Where a character is found in a string. -/
def strchr (s : List Char) (c : Char) : Option ℕ :=
  if c ∈ cstring s then some ((cstring s).idxOf c)
  else if c = NUL then some (cstring s).length else none

/-- What `:s` does to the line: the delimiters, of which `c` is the first, are replaced by NUL.  The
command begins at the index `p`, and `has_pattern` tells whether there is a last pattern. -/
def split_line (memory : List Char) (p : ℕ) (has_pattern : Bool) : Fix Unit :=
  let c := memory.getD (p + 1) NUL
  match strchr (memory.drop (p + 2)) c with
  | none => return ()
  | some R =>
    if R = 0 ∧ ¬ has_pattern then return ()
    else do
      store .get_input_line__buf (p + 2 + R) [NUL]
      match strchr (memory.drop (p + 2 + R + 1)) c with
      | none => return ()
      | some buf1 => store .get_input_line__buf (p + 2 + R + 1 + buf1) [NUL]

/-- Copy the word of a command and its arguments, and take the `!` away. -/
def copy_command (command : List Char) : Fix Unit := do
  let l := Line.of (-1) (-1) command
  strcpy .cmd 0 (command.takeWhile fun c => ¬ isspace c)
  strcpy .args 0 l.args
  if l.useforce then store .cmd l.cmd.length [NUL]

/-- The part of `colon` that writes to arrays.  What lies in memory behind the line is `behind`. -/
def colon (behind : List Char) (has_pattern : Bool) : Fix Unit := do
  let buf ← load .get_input_line__buf
  let memory := buf ++ behind
  if cstring memory = [] then return ()
  else
    let command := cstring (orig_buf memory)
    copy_command command
    if ColonCmd.of (Line.of (-1) (-1) command).cmd = .substitute then
      split_line memory (memory.length - (orig_buf memory).length) has_pattern

end Fix

/-! ## Runs -/

/-- The prompts. -/
def Prompt : Type := { c : Char // c = ':' ∨ c = '/' ∨ c = '?' }

/-- The calls that write to the arrays. -/
inductive Call
  | show_status_line (status : CString) (columns : ℕ)
  | format_edit_status (status : CString) (columns : ℕ)
  /-- `*status_buffer = 0` -/
  | no_status
  /-- `*displayed_buffer = 0` -/
  | not_displayed
  | get_one_char
  | start_new_cmd_q (cmdcnt : CInt) (c : Char)
  | end_cmd_q
  | replay
  | get_input_line (erase_char : Char) (prompt : Prompt)
  | colon (behind : List Char) (has_pattern : Bool)
  | message (m : Msg)

namespace Call

def body : Call → Fix Unit
  | show_status_line status columns => Fix.show_status_line status.val columns
  | format_edit_status status columns => Fix.format_edit_status status.val columns
  | no_status => Fix.store .status_buffer 0 [NUL]
  | not_displayed => Fix.store .displayed_buffer 0 [NUL]
  | get_one_char => Fix.get_one_char.bind fun _ => .ret ()
  | start_new_cmd_q cmdcnt c => Fix.start_new_cmd_q cmdcnt c
  | end_cmd_q => Fix.end_cmd_q
  | replay => Fix.replay
  | get_input_line erase_char prompt => Fix.get_input_line erase_char prompt.val
  | colon behind has_pattern => Fix.colon behind has_pattern
  | message m => Fix.message m

/-- One call after the other. -/
def all : List Call → Fix Unit
  | [] => return ()
  | call :: calls => do
    call.body
    all calls

end Call

/-- The arrays when the program starts. -/
def Fixed.start (keys : List Char) : Fixed where
  mem array := List.replicate array.size NUL
  recorder := ⟨false, 0, none⟩
  keys := keys

/-! ## Arrays -/

section Arrays

variable {array str bytes : List Char} {first : ℕ}

/-- A string ends where the first NUL is. -/
lemma length_cstring_le {k : ℕ} (h : array[k]? = some NUL) : (cstring array).length ≤ k := by
  induction array generalizing k with
  | nil => exact absurd h (by simp)
  | cons c array ih =>
    rw [cstring, List.takeWhile_cons]
    split
    · next hc =>
      cases k with
      | zero => exact absurd (Option.some.inj h) (of_decide_eq_true hc)
      | succ k => exact Nat.succ_le_succ (ih h)
    · exact Nat.zero_le k

lemma length_cstring_lt (h : NUL ∈ array) : (cstring array).length < array.length := by
  obtain ⟨k, hk⟩ := List.mem_iff_getElem?.mp h
  exact (length_cstring_le hk).trans_lt (List.getElem?_eq_some_iff.mp hk).1

lemma nul_notin_cstring : NUL ∉ cstring array := by
  intro h
  have hne := List.mem_takeWhile_imp h
  simp at hne

lemma Holds.getElem? (h : Holds array str) : array[str.length]? = some NUL := by
  obtain ⟨rest, rfl⟩ := h
  simp

lemma Holds.mem (h : Holds array str) : NUL ∈ array := List.mem_of_getElem? h.getElem?

@[simp] lemma length_overwrite : (overwrite array first bytes).length = array.length := by
  simp only [overwrite, List.length_take, List.length_append, List.length_drop]
  omega

/-- Bytes that are written behind the beginning of an array. -/
lemma prefix_overwrite (h : str <+: array) (hlen : str.length + bytes.length ≤ array.length) :
    str ++ bytes <+: overwrite array str.length bytes := by
  have htake : array.take str.length = str := (List.prefix_iff_eq_take.mp h).symm
  rw [overwrite, htake, List.prefix_take_iff]
  exact ⟨List.prefix_append _ _, by rwa [List.length_append]⟩

/-- What is written behind the beginning of a string replaces the rest of it. -/
lemma holds_overwrite (h : str <+: array) (hlen : str.length + bytes.length < array.length) :
    Holds (overwrite array str.length (bytes ++ [NUL])) (str ++ bytes) := by
  have := @prefix_overwrite array str (bytes ++ [NUL]) h (by
    rw [List.length_append, List.length_singleton]
    omega)
  rwa [← List.append_assoc] at this

/-- What `strcpy` leaves. -/
lemma holds_strcpy (hlen : str.length < array.length) :
    Holds (overwrite array 0 (str ++ [NUL])) str :=
  @holds_overwrite array [] str List.nil_prefix (by rwa [List.length_nil, zero_add])

lemma getElem?_overwrite {i j : ℕ} {c : Char} (hi : i < array.length) :
    (overwrite array i [c])[j]? = if j = i then some c else array[j]? := by
  have hset : overwrite array i [c] = array.set i c := by
    rw [List.set_eq_take_append_cons_drop, if_pos hi, overwrite, List.take_of_length_le]
    · simp
    · simp only [List.length_append, List.length_take, List.length_drop, List.length_singleton]
      omega
  rw [hset, List.getElem?_set]
  split
  · next he => rw [if_pos he.symm]
  · next he => rw [if_neg (Ne.symm he)]

lemma getElem?_overwrite_behind {k : ℕ} (h : first + bytes.length ≤ k) :
    (overwrite array first bytes)[k]? = array[k]? := by
  rw [overwrite, List.getElem?_take]
  split
  · next hk =>
    have htake : (array.take first).length = first := by
      rw [List.length_take]
      omega
    rw [List.getElem?_append_right, List.getElem?_drop, List.length_append, htake]
    · congr 1
      omega
    · rw [List.length_append, htake]
      exact h
  · next hk => rw [List.getElem?_eq_none (not_lt.mp hk)]

end Arrays

/-! ## What the calls keep -/

/-- What holds between any two stores to the status line. -/
structure Fixed.Sound (s : Fixed) : Prop where
  length : ∀ array, (s.mem array).length = array.size
  /-- The line that is copied behind a prompt never needs the last byte for anything but its end. -/
  line : (s.mem .get_input_line__buf)[MAX_INPUT_LEN - 1]? = some NUL
  lmc_len : s.recorder.lmc_len ≤ MAX_INPUT_LEN - 1
  adding2q : s.recorder.adding2q = true → 0 < s.recorder.lmc_len

/-- What holds between any two calls. -/
structure Fixed.Good (s : Fixed) : Prop extends s.Sound where
  status : NUL ∈ s.mem .status_buffer

namespace Fixed

variable {s : Fixed} {array : FixedArray} {first : ℕ} {bytes : List Char}

@[simp] lemma store_mem : (s.store array first bytes).mem array =
    overwrite (s.mem array) first bytes := Function.update_self ..

lemma store_mem_ne {other : FixedArray} (h : other ≠ array) :
    (s.store array first bytes).mem other = s.mem other := Function.update_of_ne h ..

@[simp] lemma store_recorder : (s.store array first bytes).recorder = s.recorder := rfl

@[simp] lemma store_keys : (s.store array first bytes).keys = s.keys := rfl

@[simp] lemma length_store (other : FixedArray) :
    ((s.store array first bytes).mem other).length = (s.mem other).length := by
  rcases eq_or_ne other array with rfl | hne
  · rw [store_mem, length_overwrite]
  · rw [store_mem_ne hne]

/-- Stores to other arrays than that of the line. -/
lemma Sound.store (h : s.Sound) (hne : array ≠ .get_input_line__buf) :
    (s.store array first bytes).Sound where
  length other := by rw [length_store, h.length]
  line := by rw [store_mem_ne hne.symm, h.line]
  lmc_len := h.lmc_len
  adding2q := h.adding2q

lemma Good.store (h : s.Good) (hline : array ≠ .get_input_line__buf)
    (hstatus : array ≠ .status_buffer) : (s.store array first bytes).Good :=
  ⟨h.toSound.store hline, by rw [store_mem_ne hstatus.symm]; exact h.status⟩

end Fixed

namespace Fix

variable {s : Fixed} {array : FixedArray} {first : ℕ} {bytes : List Char} {α : Type}
variable {E : Unit → Prop}

/-- The stores are all inside, and the run ends in `Q`, or waits where `E` holds. -/
abbrev Safe (Q : α → Fixed → Prop) (E : Unit → Prop) (p : Fix α) (s : Fixed) : Prop :=
  Program.Safe Act.exec Act.Inside Q E p s

abbrev Inside (p : Fix α) (s : Fixed) : Prop := Program.Along Act.exec Act.Inside p s

@[simp] lemma safe_ret {Q : α → Fixed → Prop} {a : α} :
    Safe Q E (Program.ret a : Fix α) s ↔ Q a s := Program.safe_ret

@[simp] lemma safe_bind {β : Type} {Q : α → Fixed → Prop} {p : Fix β} {f : β → Fix α} :
    Safe Q E (p.bind f) s ↔ Safe (fun b s' => Safe Q E (f b) s') E p s := Program.safe_bind

section Operations

variable {Q : Unit → Fixed → Prop}

@[simp] lemma safe_store : Safe Q E (store array first bytes) s ↔
    first + bytes.length ≤ array.size ∧ Q () (s.store array first bytes) := by
  rw [store, Program.perform, Safe, Program.safe_call]
  exact and_congr Iff.rfl Program.safe_ret

@[simp] lemma safe_strcpy {str : List Char} : Safe Q E (strcpy array first str) s ↔
    first + str.length < array.size ∧ Q () (s.store array first (str ++ [NUL])) := by
  rw [strcpy, safe_store, List.length_append, List.length_singleton]
  rfl

@[simp] lemma safe_load {Q : List Char → Fixed → Prop} :
    Safe Q E (load array) s ↔ Q (s.mem array) s := by
  rw [load, Program.perform, Safe, Program.safe_call]
  exact (and_iff_right trivial).trans Program.safe_ret

end Operations

/-! ## The status line -/

/-- A message has been put into the buffer. -/
structure Shown (s : Fixed) (text : List Char) (s' : Fixed) : Prop extends s'.Sound where
  holds : Holds (s'.mem .status_buffer) text
  recorder_eq : s'.recorder = s.recorder
  keys_eq : s'.keys = s.keys

lemma Shown.good {s' : Fixed} {text : List Char} (h : Shown s text s') : s'.Good :=
  ⟨h.toSound, h.holds.mem⟩

lemma safe_status_line {text : List Char} (h : s.Sound) (hlen : text.length < STATUS_BUFFER_LEN) :
    Safe (fun _ => Shown s text) E (status_line text) s := by
  rw [status_line, safe_strcpy, zero_add]
  refine ⟨hlen, h.store (by decide), ?_, rfl, rfl⟩
  rw [Fixed.store_mem]
  exact holds_strcpy (by rwa [h.length])

/-- The first two stores of a message in reverse video. -/
def bolded (array text : List Char) : List Char :=
  overwrite (overwrite array 0 (SOs ++ [NUL])) SOlen (text ++ [NUL])

lemma holds_bolded {array text : List Char} (hlen : SOlen + text.length < array.length) :
    Holds (bolded array text) (SOs ++ text) := by
  have hfirst : Holds (overwrite array 0 (SOs ++ [NUL])) SOs :=
    holds_strcpy (Nat.lt_of_le_of_lt (Nat.le_add_right ..) hlen)
  refine holds_overwrite ((List.prefix_append _ _).trans hfirst) ?_
  rw [length_overwrite]
  exact hlen

lemma length_cstring_bolded {array text : List Char} (htext : NUL ∉ text)
    (hlen : SOlen + text.length < array.length) :
    (cstring (bolded array text)).length = SOlen + text.length := by
  rw [(holds_bolded hlen).cstring_eq, cstring_eq_iff.mpr, List.length_append]
  · rfl
  · rw [List.mem_append, not_or]
    exact ⟨by decide, htext⟩

/-- What the stores of a message in reverse video need. -/
lemma safe_status_line_bold_iff {text : List Char} {Q : Unit → Fixed → Prop} (h : s.Sound)
    (htext : NUL ∉ text) :
    Safe Q E (status_line_bold text) s ↔ text.length + 2 * SOlen < STATUS_BUFFER_LEN ∧
      Q () (((s.store .status_buffer 0 (SOs ++ [NUL])).store .status_buffer SOlen
        (text ++ [NUL])).store .status_buffer (SOlen + text.length) (SOn ++ [NUL])) := by
  have hsize : (s.mem .status_buffer).length = STATUS_BUFFER_LEN := h.length _
  have hSOs : SOs.length = SOlen := rfl
  have hSOn : SOn.length = SOlen := rfl
  have hstatus : FixedArray.size .status_buffer = STATUS_BUFFER_LEN := rfl
  have hmem : ((s.store .status_buffer 0 (SOs ++ [NUL])).store .status_buffer SOlen
      (text ++ [NUL])).mem .status_buffer = bolded (s.mem .status_buffer) text := by
    rw [Fixed.store_mem, Fixed.store_mem, bolded]
  simp only [status_line_bold, Program.bind_eq, safe_bind, safe_strcpy, safe_load]
  rw [hmem, hSOs, hSOn, hstatus, zero_add]
  constructor
  · rintro ⟨-, hsecond, hthird, hQ⟩
    rw [length_cstring_bolded htext (hsecond.trans_eq hsize.symm)] at hthird hQ
    exact ⟨by omega, hQ⟩
  · rintro ⟨hlen, hQ⟩
    have hsecond : SOlen + text.length < STATUS_BUFFER_LEN := by omega
    rw [length_cstring_bolded htext (hsecond.trans_eq hsize.symm)]
    exact ⟨by decide, hsecond, by omega, hQ⟩

lemma safe_status_line_bold {text : List Char} (h : s.Sound) (htext : NUL ∉ text)
    (hlen : text.length + 2 * SOlen < STATUS_BUFFER_LEN) :
    Safe (fun _ => Shown s (SOs ++ text ++ SOn)) E (status_line_bold text) s := by
  have hsize : (s.mem .status_buffer).length = STATUS_BUFFER_LEN := h.length _
  have hSOn : SOn.length = SOlen := rfl
  rw [safe_status_line_bold_iff h htext]
  refine ⟨hlen, ((h.store (by decide)).store (by decide)).store (by decide), ?_, rfl, rfl⟩
  rw [Fixed.store_mem, Fixed.store_mem, Fixed.store_mem, ← bolded]
  have hbolded := @holds_bolded (s.mem .status_buffer) text (by omega)
  have hfull := @holds_overwrite _ (SOs ++ text) SOn ((List.prefix_append _ _).trans hbolded) (by
    rw [bolded, length_overwrite, length_overwrite, List.length_append, hsize, hSOn]
    have hSOs : SOs.length = SOlen := rfl
    omega)
  rwa [List.length_append] at hfull

/-- A message that fits into the buffer. -/
lemma safe_message {m : Msg} (h : s.Sound) (hlen : m.length < STATUS_BUFFER_LEN) :
    Safe (fun _ => Shown s (if m.bold then SOs ++ m.text ++ SOn else m.text)) E (message m) s := by
  rw [Msg.length] at hlen
  rw [message]
  cases hbold : m.bold with
  | true =>
    rw [hbold, if_pos rfl] at hlen
    exact safe_status_line_bold h m.nul_notin_text hlen
  | false =>
    rw [hbold, if_neg Bool.false_ne_true] at hlen
    exact safe_status_line h hlen

/-- A message that is printed without leaving the buffer fits into it. -/
lemma length_lt_of_inside_message {m : Msg} (h : s.Sound) (hm : Inside (message m) s) :
    m.length < STATUS_BUFFER_LEN := by
  rw [Msg.length]
  rw [Inside, Program.along_iff_safe, message] at hm
  cases hbold : m.bold with
  | true =>
    rw [if_pos rfl]
    rw [hbold, if_pos rfl] at hm
    exact ((safe_status_line_bold_iff h m.nul_notin_text).mp hm).1
  | false =>
    rw [if_neg Bool.false_ne_true]
    rw [hbold, if_neg Bool.false_ne_true, status_line] at hm
    have hlen := (safe_strcpy.mp hm).1
    rwa [zero_add] at hlen

/-! ## Keys -/

section Perform

variable {β : Type} {Q : β → Fixed → Prop} {o : Act β}

lemma safe_perform : Safe Q E (.perform o) s ↔ o.Inside _ s ∧ (o.exec _ s).Ends Q E := by
  rw [Program.perform, Safe, Program.safe_call]
  simp only [Program.safe_ret]

end Perform

@[simp] lemma safe_recorder {Q : Recorder → Fixed → Prop} :
    Safe Q E (.perform .recorder) s ↔ Q s.recorder s :=
  safe_perform.trans (and_iff_right trivial)

@[simp] lemma safe_set_recorder {Q : Unit → Fixed → Prop} {r : Recorder} :
    Safe Q E (.perform (.set_recorder r)) s ↔ Q () { s with recorder := r } :=
  safe_perform.trans (and_iff_right trivial)

@[simp] lemma safe_pending {Q : ℕ → Fixed → Prop} :
    Safe Q E (.perform .pending) s ↔ Q s.queue.size s :=
  safe_perform.trans (and_iff_right trivial)

@[simp] lemma safe_readit {Q : Char → Fixed → Prop} :
    Safe Q E readit s ↔
      match s.keys with
      | [] => E ()
      | c :: keys => Q c { s with keys := keys } := by
  rw [readit, safe_perform]
  refine (and_iff_right trivial).trans ?_
  rw [Act.exec]
  split
  · rfl
  · rfl

/-- A key while nothing is recorded. -/
lemma safe_get_one_char_idle {Q : Char → Fixed → Prop} (h : s.recorder.adding2q = false) :
    Safe Q E get_one_char s ↔
      match s.queue.get_one_char with
      | none => E ()
      | some (c, q) =>
        Q c { s with recorder := { s.recorder with ioq := q.ioq }, keys := q.keys } := by
  obtain ⟨mem, ⟨adding2q, lmc_len, ioq⟩, keys⟩ := s
  obtain rfl : adding2q = false := h
  simp only [get_one_char, Program.bind_eq, safe_bind, safe_recorder]
  rw [if_neg Bool.false_ne_true]
  rcases ioq with _ | (_ | ⟨c, rest⟩)
  · cases keys <;> simp [Fixed.queue, Queue.get_one_char, Queue.readit]
  · simp only [safe_bind, safe_set_recorder]
    cases keys <;> simp [Fixed.queue, Queue.get_one_char, Queue.readit]
  · simp only [safe_bind, safe_set_recorder, Program.pure_eq, safe_ret]
    simp [Fixed.queue, Queue.get_one_char]

/-- What a key that is recorded leaves: it is appended to the record, or there is a message that the
record is full. -/
structure Recorded (s s' : Fixed) : Prop extends s'.Sound where
  recording : s'.recorder.adding2q = true
  full : s.recorder.lmc_len < MAX_INPUT_LEN - 1 ∧
      s'.recorder.lmc_len = s.recorder.lmc_len + 1 ∧
      s'.mem .status_buffer = s.mem .status_buffer ∨
    s.recorder.lmc_len = MAX_INPUT_LEN - 1 ∧ s'.recorder.lmc_len = MAX_INPUT_LEN - 1 ∧
      (s'.mem .status_buffer)[34]? = some NUL

lemma safe_get_one_char_recording (h : s.Sound) (hadding : s.recorder.adding2q = true) :
    Safe (fun _ => Recorded s) (fun _ => True) get_one_char s := by
  have hlen := h.lmc_len
  simp only [get_one_char, Program.bind_eq, safe_bind, safe_recorder, hadding, if_true, safe_readit]
  split
  · trivial
  · next c keys _ =>
    have hkeys : Fixed.Sound { s with keys := keys } := ⟨h.length, h.line, h.lmc_len, h.adding2q⟩
    split
    · next hfull =>
      rw [safe_bind]
      refine (safe_message hkeys (by decide)).mono fun _ s' hs' => ?_
      have hat := hs'.holds.getElem?
      refine safe_ret.mpr ⟨hs'.toSound, ?_, .inr ⟨by omega, ?_, hat⟩⟩
      · rw [hs'.recorder_eq]
        exact hadding
      · rw [hs'.recorder_eq]
        exact Nat.le_antisymm hlen hfull
    · next hroom =>
      rw [not_le] at hroom
      simp only [safe_bind, safe_store, safe_set_recorder, Program.pure_eq, safe_ret]
      have hstore := @Fixed.Sound.store _ .last_modifying_cmd s.recorder.lmc_len [c] hkeys
        (by decide)
      have hother := @Fixed.store_mem_ne { s with keys := keys } .last_modifying_cmd
        s.recorder.lmc_len [c] .status_buffer (by decide)
      refine ⟨?_, ⟨hstore.length, hstore.line, ?_, fun _ => Nat.succ_pos _⟩, rfl,
        .inl ⟨hroom, rfl, ?_⟩⟩
      · rw [List.length_singleton]
        exact Nat.succ_le_of_lt (hroom.trans_le (Nat.sub_le _ _))
      · exact hroom
      · exact hother

end Fix

end EspLinux.Vi
