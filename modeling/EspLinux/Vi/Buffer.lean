import Mathlib

/-!
# vi: the text buffer

The text that is edited lies in one allocation, from `text` to `end`.  A position is an offset from
`text`, so that `text` itself is `0`; it is an integer because the code also looks at the byte
before the text and at bytes behind its end.  Bytes are characters, and those outside the allocation
are whatever the memory holds there.  This module has the buffer and the routines that find lines,
words and brackets in it.
-/

namespace EspLinux.Vi

/-! ## Characters -/

/-- The byte that ends a string. -/
abbrev NUL : Char := '\x00'

def isblank (c : Char) : Bool := c = ' ' || c = '\t'

def isspace (c : Char) : Bool := c = ' ' || (9 ≤ c.toNat && c.toNat ≤ 13)

def islower (c : Char) : Bool := 'a' ≤ c && c ≤ 'z'

def isupper (c : Char) : Bool := 'A' ≤ c && c ≤ 'Z'

def isdigit (c : Char) : Bool := '0' ≤ c && c ≤ '9'

def isalnum (c : Char) : Bool := islower c || isupper c || isdigit c

def ispunct (c : Char) : Bool := '!' ≤ c && c ≤ '~' && !isalnum c

def tolower (c : Char) : Char := if isupper c then Char.ofNat (c.toNat + 32) else c

def toupper (c : Char) : Char := if islower c then Char.ofNat (c.toNat - 32) else c

/-- `strchr(set, c)` is not NULL; the byte that ends `set` is found as well. -/
def strchr (set : String) (c : Char) : Bool := c ∈ set.toList || c = NUL

/-- What `strlen` and `strcpy` take of an array. -/
def cstring (s : List Char) : List Char := s.takeWhile (· ≠ NUL)

lemma cstring_eq_iff {s : List Char} : cstring s = s ↔ NUL ∉ s := by
  rw [cstring, List.takeWhile_eq_self_iff]
  simp only [ne_eq, decide_not, Bool.not_eq_true', decide_eq_false_iff_not]
  exact ⟨fun h hs => h NUL hs rfl, fun h c hc he => h (he ▸ hc)⟩

/-! ## The buffer -/

/-- A pointer into one of the allocations the text has been in. -/
structure Ptr where
  block : ℕ
  off : ℤ
  deriving DecidableEq

/-- The text, the allocation it lies in, and how often it has been changed. -/
structure Buffer where
  /-- The memory, by offset from `text`. -/
  mem : ℤ → Char
  /-- The offset of `end`. -/
  end_ : ℤ
  /-- The number of changes since the counter was last set to zero. -/
  file_modified : ℕ
  /-- The allocation `text` points to. -/
  block : ℕ
  /-- The address of each allocation. -/
  base : ℕ → ℤ

namespace Buffer

/-- The text, as a list. -/
def content (b : Buffer) : List Char := (List.range b.end_.toNat).map fun i => b.mem i

/-- The address of a pointer; a NULL pointer has address zero. -/
def addr (b : Buffer) : Option Ptr → ℤ
  | none => 0
  | some p => b.base p.block + p.off

/-- The address of a position in the text. -/
def at_ (b : Buffer) (p : ℤ) : ℤ := b.base b.block + p

/-! ## Lines -/

/-- `memrchr(text, '\n', n)`, and the character after it. -/
def after_newline (b : Buffer) : ℕ → ℤ
  | 0 => 0
  | n + 1 => if b.mem n = '\n' then n + 1 else b.after_newline n

/-- `memchr(p, '\n', n)`; the position `n` further on if there is none. -/
def to_newline (b : Buffer) : ℤ → ℕ → ℤ
  | p, 0 => p
  | p, n + 1 => if b.mem p = '\n' then p else b.to_newline (p + 1) n

/-- The first character of the line of `p`. -/
def begin_line (b : Buffer) (p : ℤ) : ℤ := if 0 < p then b.after_newline p.toNat else p

/-- The newline of the line of `p`. -/
def end_line (b : Buffer) (p : ℤ) : ℤ :=
  if p < b.end_ - 1 then b.to_newline p (b.end_ - p - 1).toNat else p

/-- Just before the newline of the line of `p`. -/
def dollar_line (b : Buffer) (p : ℤ) : ℤ :=
  let p := b.end_line p
  if b.mem p = '\n' ∧ 0 < p - b.begin_line p then p - 1 else p

/-- The first character of the line before that of `p`. -/
def prev_line (b : Buffer) (p : ℤ) : ℤ :=
  let p := b.begin_line p
  b.begin_line (if 0 < p ∧ b.mem (p - 1) = '\n' then p - 1 else p)

/-- The first character of the line after that of `p`. -/
def next_line (b : Buffer) (p : ℤ) : ℤ :=
  let p := b.end_line p
  if p < b.end_ - 1 ∧ b.mem p = '\n' then p + 1 else p

/-- The loop of `count_lines`; each turn goes at least one character further. -/
def count_from (b : Buffer) (stop : ℤ) : ℕ → ℤ → ℕ
  | 0, _ => 0
  | n + 1, start =>
    if start ≤ stop ∧ start ≤ b.end_ - 1 then
      let e := b.end_line start
      (if b.mem e = '\n' then 1 else 0) + b.count_from stop n (e + 1)
    else 0

/-- The number of lines from `start` to `stop`. -/
def count_lines (b : Buffer) (start stop : ℤ) : ℕ :=
  let from_ := min start stop
  let to_ := b.end_line (max start stop)
  b.count_from to_ (b.end_ - from_).toNat from_

/-- The first character of line number `li`. -/
def find_line (b : Buffer) (li : ℤ) : ℤ := b.next_line^[(li - 1).toNat] 0

/-- The loop of `move_to_col`, for the `n` characters that are left. -/
def to_column (b : Buffer) (tabstop : ℕ) (l : ℤ) : ℕ → ℤ → ℤ → ℤ
  | 0, p, _ => p
  | n + 1, p, co =>
    if co < l ∧ b.mem p ≠ '\n' then
      let co :=
        if b.mem p = '\t' then co + ((tabstop - 1) - co % tabstop)
        else if b.mem p < ' ' ∨ b.mem p = '\x7f' then co + 1
        else co
      b.to_column tabstop l n (p + 1) (co + 1)
    else p

/-- Column `l` of the line of `p`. -/
def move_to_col (b : Buffer) (tabstop : ℕ) (p l : ℤ) : ℤ :=
  let p := b.begin_line p
  b.to_column tabstop l (b.end_ - p).toNat p 0

/-- The loop of `dot_skip_over_ws`. -/
def skip_ws (b : Buffer) : ℕ → ℤ → ℤ
  | 0, p => p
  | n + 1, p =>
    if isspace (b.mem p) ∧ b.mem p ≠ '\n' then b.skip_ws n (p + 1) else p

/-- The next position that is not white space, in the same line. -/
def skip_over_ws (b : Buffer) (p : ℤ) : ℤ := b.skip_ws (b.end_ - 1 - p).toNat p

/-- A position inside the text. -/
def bound_dot (b : Buffer) (p : ℤ) : ℤ :=
  let p := if b.end_ ≤ p ∧ 0 < b.end_ then b.end_ - 1 else p
  if p < 0 then 0 else p

variable {b : Buffer} {p : ℤ} {n : ℕ}

lemma le_to_newline : p ≤ b.to_newline p n := by
  induction n generalizing p with
  | zero => exact le_refl p
  | succ n ih =>
    rw [to_newline]
    split
    · exact le_refl p
    · exact le_trans (by omega) ih

lemma to_newline_le : b.to_newline p n ≤ p + n := by
  induction n generalizing p with
  | zero => simp [to_newline]
  | succ n ih =>
    rw [to_newline]
    split
    · omega
    · have := ih (p := p + 1)
      push_cast
      omega

lemma after_newline_nonneg : 0 ≤ b.after_newline n := by
  induction n with
  | zero => exact le_refl 0
  | succ n ih =>
    rw [after_newline]
    split
    · omega
    · exact ih

lemma after_newline_le : b.after_newline n ≤ n := by
  induction n with
  | zero => exact le_refl _
  | succ n ih =>
    rw [after_newline]
    split
    · push_cast
      omega
    · push_cast
      omega

lemma begin_line_le : b.begin_line p ≤ p := by
  rw [begin_line]
  split
  · have := b.after_newline_le (n := p.toNat)
    omega
  · exact le_refl p

lemma le_end_line : p ≤ b.end_line p := by
  rw [end_line]
  split
  · exact le_to_newline
  · exact le_refl p

lemma begin_line_le_end_line : b.begin_line p ≤ b.end_line p := le_trans begin_line_le le_end_line

lemma begin_line_nonneg (h : 0 ≤ p) : 0 ≤ b.begin_line p := by
  rw [begin_line]
  split
  · exact after_newline_nonneg
  · exact h

lemma end_line_lt (h : p < b.end_) : b.end_line p < b.end_ := by
  rw [end_line]
  split
  · have := to_newline_le (b := b) (p := p) (n := (b.end_ - p - 1).toNat)
    omega
  · exact h

lemma le_next_line : p ≤ b.next_line p := by
  have := b.le_end_line (p := p)
  simp only [next_line]
  split <;> omega

lemma next_line_lt (h : p < b.end_) : b.next_line p < b.end_ := by
  have := end_line_lt h
  simp only [next_line]
  split <;> omega

lemma prev_line_le : b.prev_line p ≤ p := by
  have h := b.begin_line_le (p := p)
  simp only [prev_line]
  split
  · exact le_trans begin_line_le (by omega)
  · exact le_trans begin_line_le h

lemma prev_line_nonneg (h : 0 ≤ p) : 0 ≤ b.prev_line p := by
  have := begin_line_nonneg (b := b) h
  simp only [prev_line]
  split
  · exact begin_line_nonneg (by omega)
  · exact begin_line_nonneg this

end Buffer

/-! ## Words, brackets and patterns -/

/-- What `skip_thing` skips. -/
inductive Thing
  | before_ws | to_ws | over_ws | end_punct | end_alnum
  deriving DecidableEq

/-- A direction; `FORWARD` is 1 and `BACK` is -1. -/
inductive Dir
  | forward | back
  deriving DecidableEq

namespace Dir

def inc : Dir → ℤ
  | forward => 1
  | back => -1

def opposite : Dir → Dir
  | forward => back
  | back => forward

end Dir

namespace Buffer

/-- Whether to skip the character at `p`, and the character that was looked at. -/
def st_test (b : Buffer) (p : ℤ) (type : Thing) (dir : Dir) : Bool × Char :=
  let c0 := b.mem p
  let ci := b.mem (p + dir.inc)
  match type with
  | .before_ws => (!isspace ci || ci = '\n', ci)
  | .to_ws => (!isspace c0 || c0 = '\n', c0)
  | .over_ws => (isspace c0, c0)
  | .end_punct => (ispunct ci, ci)
  | .end_alnum => (isalnum ci || ci = '_', ci)

/-- The loop of `skip_thing`, for the `n` characters that are left in its direction. -/
def skip (b : Buffer) (dir : Dir) (type : Thing) : ℕ → ℤ → ℤ → ℤ
  | 0, p, _ => p
  | n + 1, p, linecnt =>
    let (test, c) := b.st_test p type dir
    if test then
      if c = '\n' then
        if linecnt - 1 < 1 then p else b.skip dir type n (p + dir.inc) (linecnt - 1)
      else b.skip dir type n (p + dir.inc) linecnt
    else p

/-- The end of the thing at `p`, at most `linecnt` lines away. -/
def skip_thing (b : Buffer) (p linecnt : ℤ) (dir : Dir) (type : Thing) : ℤ :=
  let left := match dir with
    | .forward => b.end_ - 1 - p
    | .back => p
  b.skip dir type left.toNat p linecnt

/-- The bracket that matches `c`, and where to look for it. -/
def match_of (c : Char) : Char × Dir :=
  match c with
  | '(' => (')', .forward)
  | '[' => (']', .forward)
  | '{' => ('}', .forward)
  | ')' => ('(', .back)
  | ']' => ('[', .back)
  | '}' => ('{', .back)
  | _ => (')', .forward)

/-- The loop of `find_pair`, for the `n` characters that are left. -/
def pair_from (b : Buffer) (c mate : Char) (dir : Dir) : ℕ → ℤ → ℤ → Option ℤ
  | 0, _, _ => none
  | n + 1, q, level =>
    let level := if b.mem q = c then level + 1 else level
    let level := if b.mem q = mate then level - 1 else level
    if level = 0 then some q else b.pair_from c mate dir n (q + dir.inc) level

/-- The bracket that matches the bracket `c` at `p`. -/
def find_pair (b : Buffer) (p : ℤ) (c : Char) : Option ℤ :=
  let (mate, dir) := match_of c
  let q := p + dir.inc
  let left := match dir with
    | .forward => if 0 ≤ q then b.end_ - q else 0
    | .back => if q < b.end_ then q + 1 else 0
  b.pair_from c mate dir left.toNat q 1

/-- The characters at `p` are those of `pat`. -/
def mycmp (b : Buffer) (ignorecase : Bool) : ℤ → List Char → Bool
  | _, [] => true
  | p, c :: pat =>
    (if ignorecase then tolower (b.mem p) = tolower c else b.mem p = c) &&
      b.mycmp ignorecase (p + 1) pat

/-- The first of the `n` positions `start`, `start + inc`, … at which `pat` is found. -/
def search_from (b : Buffer) (ignorecase : Bool) (pat : List Char) (inc : ℤ) : ℕ → ℤ → Option ℤ
  | 0, _ => none
  | n + 1, start =>
    if b.mycmp ignorecase start pat then some start
    else b.search_from ignorecase pat inc n (start + inc)

/-- Search for `pat` from `p` on, or back from `p`; `limited` to the line of `p`. -/
def char_search (b : Buffer) (ignorecase : Bool) (p : ℤ) (pat : List Char) (dir : Dir)
    (limited : Bool) : Option ℤ :=
  match dir with
  | .forward =>
    let stop := if limited then b.next_line p else b.end_ - 1
    b.search_from ignorecase pat 1 (stop - p).toNat p
  | .back =>
    let stop := if limited then b.prev_line p else 0
    let start := p - pat.length
    b.search_from ignorecase pat (-1) (start - stop + 1).toNat start

/-! ## Changes -/

/-- The memory after `memmove(dest, src, n)`. -/
def memmove (mem : ℤ → Char) (dest src n : ℤ) : ℤ → Char :=
  fun i => if dest ≤ i ∧ i < dest + n then mem (i - dest + src) else mem i

/-- The memory after the characters of `s` are stored from `p` on. -/
def store (mem : ℤ → Char) (p : ℤ) (s : List Char) : ℤ → Char :=
  fun i => if p ≤ i then s.getD (i - p).toNat (mem i) else mem i

/-- Close a hole: delete `p` through `q`.  Gives a position near `p` that is in the text. -/
def text_hole_delete (b : Buffer) (p q : ℤ) : ℤ × Buffer :=
  let src := if q < p then p + 1 else q + 1
  let dest := if q < p then q else p
  let hole_size := q - p + 1
  if src < 0 ∨ b.end_ < src ∨ dest < 0 ∨ b.end_ ≤ dest then (dest, b)
  else
    let mem := if b.end_ ≤ src then b.mem else memmove b.mem dest src (b.end_ - src)
    let e := b.end_ - hole_size
    if e ≤ 0 then (0, { b with mem := mem, end_ := 0, file_modified := b.file_modified + 1 })
    else
      (if e ≤ dest then e - 1 else dest,
        { b with mem := mem, end_ := e, file_modified := b.file_modified + 1 })

/-- Open a hole of `size` bytes at `p`, in a buffer that has room for it. -/
def hole (b : Buffer) (p size : ℤ) : Buffer :=
  if size ≤ 0 then b
  else
    { b with
      mem := fun i => if p ≤ i ∧ i < p + size then ' ' else
        memmove b.mem (p + size) p (b.end_ - p) i
      end_ := b.end_ + size
      file_modified := b.file_modified + 1 }

/-- The characters from `p` through `q`. -/
def range (b : Buffer) (p q : ℤ) : List Char :=
  (List.range (q - p + 1).toNat).map fun i => b.mem (p + i)

end Buffer

end EspLinux.Vi
