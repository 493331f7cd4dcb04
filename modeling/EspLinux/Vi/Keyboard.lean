import EspLinux.Lib.Run
import EspLinux.Vi.Command

/-!
# vi: the keyboard

`readit` gives one key at a time.  It reads as many bytes as there are, and after an ESC it goes on
reading while more come, since a cursor or function key sends several bytes; what it does not use it
leaves in `readbuffer`, from which the next calls take their keys.  `queueAnyInput` adds to the
buffer what has been typed in the meantime.

The results of `read` and the answers of `awaitInput` are lists, of which every call takes what it
needs.  What has been read, which keys have been given and from which bytes is kept beside the
variables of the program.  `readResponse`, which takes the terminal's answer to the question for the
size of its screen from the same input, is left out.
-/

namespace EspLinux.Vi

open Lib

/-! ## Reading -/

/-- The errors of `read` that are told apart. -/
inductive Errno
  | EINTR | EBADF | EFAULT | EINVAL | EIO
  | other (n : ℕ)
  deriving DecidableEq

/-- What a call of `read` gives; no bytes at all are the end of the file. -/
inductive Read
  | data (bytes : List Char)
  | failed (e : Errno)
  deriving DecidableEq

/-- The number `read` returns. -/
def Read.value : Read → ℤ
  | data bytes => bytes.length
  | failed _ => -1

/-- The state of the keyboard. -/
structure Keyboard where
  /-- The memory, by offset from `readbuffer`. -/
  readbuffer : ℤ → Char
  chars_to_parse : ℤ
  editing : Bool
  /-- The results of `read` to come. -/
  reads : List Read
  /-- The answers of `awaitInput` to come. -/
  polls : List Bool
  /-- What has been read so far; not a variable of the program. -/
  read : List Char
  /-- The keys given so far, each with the bytes it was made of; not a variable of the program. -/
  keys : List (List Char × Char)
  /-- The errors with which reads of `readit` have failed; not a variable of the program. -/
  failures : List Errno

/-- `sizeof(readbuffer)` -/
def sizeof_readbuffer : ℕ := 128

/-- A number as a `size_t`. -/
def size_t (x : ℤ) : ℕ := (x % 2 ^ 64).toNat

/-- A number as an `int`. -/
def to_int (x : ℤ) : ℤ := x.bmod (2 ^ 32)

/-- How far a pointer goes to which a `size_t` is added. -/
def displacement (n : ℕ) : ℤ := if n < 2 ^ 63 then n else n - 2 ^ 64

/-- The `n` bytes from `p` on. -/
def bytes_at (mem : ℤ → Char) (p : ℤ) (n : ℕ) : List Char := (List.range n).map fun i : ℕ => mem (p + i)

/-- The next result that is not an interrupted call. -/
def next_read : List Read → Option (Read × List Read)
  | [] => none
  | .failed .EINTR :: rs => next_read rs
  | r :: rs => some (r, rs)

namespace Keyboard

/-- Read at most `count` bytes to the offset `p`; `none` if nothing comes. -/
def safe_read (k : Keyboard) (p : ℤ) (count : ℕ) : Option (Read × Keyboard) :=
  (next_read k.reads).map fun (r, rs) =>
    match r with
    | .data bytes =>
      let bytes := bytes.take count
      (.data bytes, { k with
        readbuffer := Buffer.store k.readbuffer p bytes
        reads := rs
        read := k.read ++ bytes })
    | .failed e => (.failed e, { k with reads := rs })

/-- A read of `readit`: its failures are noted. -/
def read_key (k : Keyboard) (p : ℤ) (count : ℕ) : Option (Read × Keyboard) :=
  (k.safe_read p count).map fun (r, k) =>
    match r with
    | .data bytes => (.data bytes, k)
    | .failed e => (.failed e, { k with failures := k.failures ++ [e] })

/-! ## Keys -/

/-- What the cursor and function keys send after an ESC. -/
def esccmds : List (List Char × Char) :=
  [("OA".toList, VI_K 0), ("OB".toList, VI_K 1), ("OC".toList, VI_K 2), ("OD".toList, VI_K 3),
    ("OH".toList, VI_K 4), ("OF".toList, VI_K 5), ("[A".toList, VI_K 0), ("[B".toList, VI_K 1),
    ("[C".toList, VI_K 2), ("[D".toList, VI_K 3), ("[H".toList, VI_K 4), ("[F".toList, VI_K 5),
    ("[1~".toList, VI_K 4), ("[2~".toList, VI_K 6), ("[3~".toList, VI_K 7), ("[4~".toList, VI_K 5),
    ("[5~".toList, VI_K 8), ("[6~".toList, VI_K 9), ("OP".toList, VI_K 10), ("OQ".toList, VI_K 11),
    ("OR".toList, VI_K 12), ("OS".toList, VI_K 13), ("[11~".toList, VI_K 10), ("[12~".toList, VI_K 11),
    ("[13~".toList, VI_K 12), ("[14~".toList, VI_K 13), ("[15~".toList, VI_K 14), ("[17~".toList, VI_K 15),
    ("[18~".toList, VI_K 16), ("[19~".toList, VI_K 17), ("[20~".toList, VI_K 18), ("[21~".toList, VI_K 19),
    ("[23~".toList, VI_K 20), ("[24~".toList, VI_K 21)]

/-- The loop of `readit` that reads the rest of an escape sequence, for the answers of `awaitInput`.
-/
def rest_of_escape : List Bool → ℕ → Keyboard → Option (ℕ × Keyboard)
  | [], n, k => some (n, { k with polls := [] })
  | false :: polls, n, k => some (n, { k with polls := polls })
  | true :: polls, n, k =>
    match k.read_key (displacement n) (size_t (sizeof_readbuffer - n)) with
    | none => none
    | some (r, k) =>
      if r.value ≤ 0 then some (n, { k with polls := polls })
      else
        let n := size_t (n + r.value)
        if sizeof_readbuffer - 8 < n then some (n, { k with polls := polls })
        else rest_of_escape polls n k

/-- The key at the beginning of the buffer, if there are `n` bytes in it, and how many it takes. -/
def first_key (mem : ℤ → Char) (n : ℕ) : Char × ℕ :=
  if mem 0 = '\x1b' ∧ 1 < n then
    match esccmds.find? fun e => e.1.length < n ∧ bytes_at mem 1 e.1.length = e.1 with
    | some (seq, val) => (val, seq.length + 1)
    | none => (mem 0, 1)
  else (mem 0, 1)

/-- The end of `readit`: take a key from the buffer. -/
def take_key (k : Keyboard) (n : ℕ) : Char × Keyboard :=
  let (c, n) := first_key k.readbuffer n
  (c, { k with
    chars_to_parse := to_int (size_t (k.chars_to_parse - n))
    readbuffer := Buffer.memmove k.readbuffer 0 n (sizeof_readbuffer - n)
    keys := k.keys ++ [(bytes_at k.readbuffer 0 n, c)] })

/-- The errors after which `readit` wants to end editing. -/
def fatal : List Errno := [.EBADF, .EFAULT, .EINVAL, Errno.EIO]

/-- Read a key; `none` if nothing comes. -/
def readit (k : Keyboard) : Option (Char × Keyboard) :=
  let n := size_t k.chars_to_parse
  if n ≤ 0 then
    match k.read_key 0 sizeof_readbuffer with
    | none => none
    | some (r, k) =>
      -- `n` is a `size_t`, so that it is never less than zero
      let n := size_t r.value
      let k := if n < 0 ∧ ∃ e ∈ fatal, r = .failed e then { k with editing := false } else k
      if n ≤ 0 then some (NUL, k)
      else
        let full := if k.readbuffer 0 = '\x1b' then rest_of_escape k.polls n k else some (n, k)
        full.map fun (n, k) => { k with chars_to_parse := to_int n }.take_key n
  else some (k.take_key n)

/-- Add to the buffer what has been typed. -/
def queueAnyInput (k : Keyboard) : Option Keyboard :=
  let pending := k.polls.headD false
  let k := { k with polls := k.polls.tail }
  if pending then
    (k.safe_read k.chars_to_parse (size_t (sizeof_readbuffer - k.chars_to_parse))).map fun (r, k) =>
      if 0 < r.value then { k with chars_to_parse := to_int (k.chars_to_parse + r.value) } else k
  else some k

end Keyboard

/-- A call of one of the functions that read the keyboard. -/
inductive KeyCall
  | readit | queueAnyInput
  deriving DecidableEq

namespace Keyboard

/-- The state after a call, if it comes to an end. -/
def call (k : Keyboard) : KeyCall → Option Keyboard
  | .readit => k.readit.map Prod.snd
  | .queueAnyInput => k.queueAnyInput

/-- Nothing has been read yet. -/
def start (mem : ℤ → Char) (reads : List Read) (polls : List Bool) : Keyboard where
  readbuffer := mem
  chars_to_parse := 0
  editing := true
  reads := reads
  polls := polls
  read := []
  keys := []
  failures := []

end Keyboard

/-! ## Numbers -/

lemma size_t_cast {x : ℤ} (h0 : 0 ≤ x) (h : x < 2 ^ 64) : (size_t x : ℤ) = x := by
  rw [size_t, Int.emod_eq_of_lt h0 h]
  omega

lemma displacement_size_t {x : ℤ} (h0 : -2 ^ 63 ≤ x) (h : x < 2 ^ 63) : displacement (size_t x) = x := by
  have hmod : (size_t x : ℤ) = x % 2 ^ 64 := by
    rw [size_t]
    omega
  rw [displacement, hmod]
  split_ifs <;> omega

lemma to_int_size_t {x : ℤ} (h0 : -2 ^ 31 ≤ x) (h : x < 2 ^ 31) : to_int (size_t x) = x := by
  have hmod : (size_t x : ℤ) = x % 2 ^ 64 := by
    rw [size_t]
    omega
  rw [to_int, hmod, Int.bmod_def]
  split_ifs <;> omega

lemma size_t_add (x y : ℤ) : size_t (size_t x + y) = size_t (x + y) := by
  rw [size_t, size_t, size_t]
  omega

/-- The room that is left behind the first `x` bytes. -/
lemma size_t_room {x : ℤ} (h0 : -1 ≤ x) (h : x ≤ 128) :
    (size_t (sizeof_readbuffer - size_t x) : ℤ) = 128 - x := by
  have h128 : (sizeof_readbuffer : ℤ) = 128 := rfl
  rw [h128, size_t, size_t]
  omega

/-! ## Bytes -/

section Bytes

variable {mem : ℤ → Char} {p q : ℤ} {m n : ℕ} {l : List Char}

@[simp] lemma length_bytes_at : (bytes_at mem p n).length = n := by
  rw [bytes_at]
  simp

lemma getElem?_bytes_at {i : ℕ} (h : i < n) : (bytes_at mem p n)[i]? = some (mem (p + i)) := by
  rw [bytes_at]
  simp [h]

lemma bytes_at_congr {mem' : ℤ → Char} (h : ∀ i : ℕ, i < n → mem' (q + i) = mem (p + i)) :
    bytes_at mem' q n = bytes_at mem p n := by
  refine List.ext_getElem? fun i => ?_
  by_cases hi : i < n
  · rw [getElem?_bytes_at hi, getElem?_bytes_at hi, h i hi]
  · rw [List.getElem?_eq_none (by simpa using hi), List.getElem?_eq_none (by simpa using hi)]

lemma bytes_at_add : bytes_at mem p (m + n) = bytes_at mem p m ++ bytes_at mem (p + m) n := by
  refine List.ext_getElem? fun i => ?_
  rw [List.getElem?_append, length_bytes_at]
  by_cases hi : i < m + n
  · rw [getElem?_bytes_at hi]
    by_cases hm : i < m
    · rw [if_pos hm, getElem?_bytes_at hm]
    · have hat : p + m + ((i - m : ℕ) : ℤ) = p + i := by omega
      rw [if_neg hm, getElem?_bytes_at (by omega), hat]
  · rw [List.getElem?_eq_none (by simpa using hi), if_neg (by omega),
      List.getElem?_eq_none (by rw [length_bytes_at]; omega)]

lemma bytes_at_store : bytes_at (Buffer.store mem p l) p l.length = l := by
  refine List.ext_getElem? fun i => ?_
  by_cases hi : i < l.length
  · have hat : (p + (i : ℤ) - p).toNat = i := by omega
    rw [getElem?_bytes_at hi, Buffer.store, if_pos (by omega), hat, List.getD_eq_getElem _ _ hi,
      List.getElem?_eq_getElem hi]
  · rw [List.getElem?_eq_none (by simpa using hi), List.getElem?_eq_none (by omega)]

lemma bytes_at_store_before (h : q + n ≤ p) : bytes_at (Buffer.store mem p l) q n = bytes_at mem q n := by
  refine bytes_at_congr fun i hi => ?_
  rw [Buffer.store, if_neg (by omega)]

lemma bytes_at_memmove (h : m + n ≤ 128) :
    bytes_at (Buffer.memmove mem 0 m (sizeof_readbuffer - m)) 0 n = bytes_at mem m n := by
  refine bytes_at_congr fun i hi => ?_
  have h128 : (sizeof_readbuffer : ℤ) = 128 := rfl
  have hat : (0 : ℤ) + i - 0 + m = m + i := by omega
  rw [Buffer.memmove, if_pos (by rw [h128]; omega), hat]

end Bytes

namespace Keyboard

variable {k k' : Keyboard}

/-! ## Bytes that wait -/

/-- The bytes stand for the key: they are its only byte, or what a cursor or function key sends. -/
def Spells (bytes : List Char) (c : Char) : Prop :=
  bytes = [c] ∨ ∃ seq, (seq, c) ∈ esccmds ∧ bytes = '\x1b' :: seq

/-- The bytes of the keys given so far, and those that wait in the buffer, are what has been read.
-/
structure Queued (k : Keyboard) : Prop where
  nonneg : 0 ≤ k.chars_to_parse
  le : k.chars_to_parse ≤ sizeof_readbuffer
  keys : ∀ e ∈ k.keys, Spells e.1 e.2
  bytes : k.keys.flatMap Prod.fst ++ bytes_at k.readbuffer 0 k.chars_to_parse.toNat = k.read

lemma queued_start (mem : ℤ → Char) (reads : List Read) (polls : List Bool) :
    (start mem reads polls).Queued :=
  ⟨le_refl 0, Int.natCast_nonneg _, nofun, rfl⟩

/-- A read stores what it reads, or fails. -/
lemma safe_read_cases {p : ℤ} {count : ℕ} {r : Read} (h : k.safe_read p count = some (r, k')) :
    (∃ bytes : List Char, r = .data bytes ∧ bytes.length ≤ count ∧ k' = { k with
      readbuffer := Buffer.store k.readbuffer p bytes
      reads := k'.reads
      read := k.read ++ bytes }) ∨ ∃ e, r = .failed e ∧ k' = { k with reads := k'.reads } := by
  rw [safe_read, Option.map_eq_some_iff] at h
  obtain ⟨⟨_ | _, rs⟩, -, h⟩ := h
  · cases h
    exact .inl ⟨_, rfl, by rw [List.length_take]; exact min_le_left _ _, rfl⟩
  · cases h
    exact .inr ⟨_, rfl, rfl⟩

lemma read_key_cases {p : ℤ} {count : ℕ} {r : Read} (h : k.read_key p count = some (r, k')) :
    (∃ bytes : List Char, r = .data bytes ∧ bytes.length ≤ count ∧ k' = { k with
      readbuffer := Buffer.store k.readbuffer p bytes
      reads := k'.reads
      read := k.read ++ bytes }) ∨
    ∃ e, r = .failed e ∧ k' = { k with reads := k'.reads, failures := k.failures ++ [e] } := by
  rw [read_key, Option.map_eq_some_iff] at h
  obtain ⟨⟨r', k₁⟩, hr, h⟩ := h
  obtain ⟨bytes, rfl, hlen, hk⟩ | ⟨e, rfl, hk⟩ := safe_read_cases hr
  · cases h
    exact .inl ⟨bytes, rfl, hlen, hk⟩
  · cases h
    refine .inr ⟨e, rfl, ?_⟩
    rw [hk]

/-- More has been read: the bytes `added` are behind the first `x` bytes of the buffer, and with
them there are `y`. -/
structure Extends (k k' : Keyboard) (x y : ℤ) (added : List Char) : Prop where
  count : y = x + added.length
  le : y ≤ sizeof_readbuffer
  read : k'.read = k.read ++ added
  bytes : 0 ≤ x → bytes_at k'.readbuffer 0 y.toNat = bytes_at k.readbuffer 0 x.toNat ++ added
  keys : k'.keys = k.keys
  editing : k'.editing = k.editing
  failures : k.failures <+: k'.failures

namespace Extends

variable {k'' : Keyboard} {x y z : ℤ} {added more : List Char}

lemma refl (k : Keyboard) (h : x ≤ sizeof_readbuffer) : Extends k k x x [] :=
  ⟨by simp, h, by simp, fun _ => by simp, rfl, rfl, List.prefix_refl _⟩

lemma trans (h : Extends k k' x y added) (h' : Extends k' k'' y z more) :
    Extends k k'' x z (added ++ more) := by
  have hcount := h.count
  refine ⟨?_, h'.le, ?_, fun hx => ?_, h'.keys.trans h.keys, h'.editing.trans h.editing,
    h.failures.trans h'.failures⟩
  · rw [h'.count, h.count, List.length_append]
    push_cast
    ring
  · rw [h'.read, h.read, List.append_assoc]
  · rw [h'.bytes (by omega), h.bytes hx, List.append_assoc]

/-- Asking whether there is input changes nothing. -/
lemma polls (h : Extends k k' x y added) (polls : List Bool) :
    Extends k { k' with polls := polls } x y added :=
  ⟨h.count, h.le, h.read, h.bytes, h.keys, h.editing, h.failures⟩

/-- A read to the end of what is there. -/
lemma of_data {reads : List Read} (hlen : (added.length : ℤ) ≤ 128 - x) :
    Extends k { k with
      readbuffer := Buffer.store k.readbuffer x added
      reads := reads
      read := k.read ++ added } x (x + added.length) added := by
  have h128 : (sizeof_readbuffer : ℤ) = 128 := rfl
  refine ⟨rfl, by omega, rfl, fun hx => ?_, rfl, rfl, List.prefix_refl _⟩
  have hsum : (x + added.length).toNat = x.toNat + added.length := by omega
  have hat : (0 : ℤ) + x.toNat = x := by omega
  rw [hsum, bytes_at_add, hat, bytes_at_store, bytes_at_store_before (by omega)]

end Extends

/-- The loop that reads on. -/
lemma rest_of_escape_extends {polls : List Bool} {x : ℤ} {n : ℕ} (h0 : -1 ≤ x)
    (hle : x ≤ sizeof_readbuffer) (h : rest_of_escape polls (size_t x) k = some (n, k')) :
    ∃ y added, n = size_t y ∧ Extends k k' x y added := by
  induction polls generalizing x k with
  | nil =>
    cases h
    exact ⟨x, [], rfl, (Extends.refl k hle).polls _⟩
  | cons more polls ih =>
    cases more with
    | false =>
      cases h
      exact ⟨x, [], rfl, (Extends.refl k hle).polls _⟩
    | true =>
      rw [rest_of_escape, displacement_size_t (by omega) (lt_of_le_of_lt hle (by decide))] at h
      cases hread : k.read_key x (size_t (sizeof_readbuffer - size_t x)) with
      | none =>
        rw [hread] at h
        cases h
      | some r =>
        obtain ⟨r, k₁⟩ := r
        rw [hread] at h
        dsimp only at h
        have hroom := size_t_room h0 hle
        obtain ⟨bytes, rfl, hlen, hk₁⟩ | ⟨e, rfl, hk₁⟩ := read_key_cases hread
        · have hext : Extends k k₁ x (x + bytes.length) bytes := by
            rw [hk₁]
            exact .of_data (by omega)
          have hvalue : (Read.data bytes).value = bytes.length := rfl
          rw [hvalue, size_t_add] at h
          split_ifs at h with hnone hfull
          · have hnil : bytes = [] := List.eq_nil_of_length_eq_zero (by omega)
            subst hnil
            cases h
            exact ⟨_, [], by simp, hext.polls _⟩
          · cases h
            exact ⟨_, bytes, rfl, hext.polls _⟩
          · obtain ⟨y, added, hn, hmore⟩ := ih (by omega) hext.le h
            exact ⟨y, bytes ++ added, hn, hext.trans hmore⟩
        · -- a read that fails ends the loop
          have hvalue : (Read.failed e).value ≤ 0 := show (-1 : ℤ) ≤ 0 by decide
          rw [if_pos hvalue] at h
          cases h
          refine ⟨x, [], rfl, by simp, hle, ?_, fun _ => ?_, ?_, ?_, ?_⟩
          · rw [hk₁, List.append_nil]
          · rw [hk₁, List.append_nil]
          · rw [hk₁]
          · rw [hk₁]
          · rw [hk₁]
            exact List.prefix_append _ _

/-! ## Taking a key -/

/-- No key takes more bytes than there are, or than five. -/
lemma first_key_count (mem : ℤ → Char) (n : ℕ) : 1 ≤ (first_key mem n).2 ∧ (first_key mem n).2 ≤ 5 ∧
    (1 ≤ n → (first_key mem n).2 ≤ n) := by
  have hshort : ∀ e ∈ esccmds, e.1.length ≤ 4 := by decide
  rw [first_key]
  split_ifs
  · cases hfind : esccmds.find? fun e => e.1.length < n ∧ bytes_at mem 1 e.1.length = e.1 with
    | none => exact ⟨le_refl 1, show 1 ≤ 5 by decide, id⟩
    | some e =>
      have hlen := hshort e (List.mem_of_find?_eq_some hfind)
      have hfits := List.find?_some hfind
      simp only [decide_eq_true_eq] at hfits
      exact ⟨by dsimp only; omega, by dsimp only; omega, fun _ => by dsimp only; omega⟩
  · exact ⟨le_refl 1, show 1 ≤ 5 by decide, id⟩

lemma first_key_spells (mem : ℤ → Char) (n : ℕ) :
    Spells (bytes_at mem 0 (first_key mem n).2) (first_key mem n).1 := by
  have hone : bytes_at mem 0 1 = [mem 0] := rfl
  rw [first_key]
  split_ifs with hesc
  · cases hfind : esccmds.find? fun e => e.1.length < n ∧ bytes_at mem 1 e.1.length = e.1 with
    | none => exact .inl hone
    | some e =>
      have hmatch := List.find?_some hfind
      simp only [decide_eq_true_eq] at hmatch
      refine .inr ⟨e.1, List.mem_of_find?_eq_some hfind, ?_⟩
      show bytes_at mem 0 (e.1.length + 1) = _
      rw [Nat.add_comm, bytes_at_add, hone, hesc.1]
      exact congrArg _ hmatch.2
  · exact .inl hone

/-- Taking a key from the first `y` bytes of the buffer. -/
lemma take_key_eq {y : ℤ} (h0 : -1 ≤ y) (hle : y ≤ sizeof_readbuffer)
    (hchars : k.chars_to_parse = y) : ∃ (m : ℕ) (c : Char), 1 ≤ m ∧ (1 ≤ y → m ≤ y) ∧
      Spells (bytes_at k.readbuffer 0 m) c ∧
      (k.take_key (size_t y)).2 = { k with
        chars_to_parse := y - m
        readbuffer := Buffer.memmove k.readbuffer 0 m (sizeof_readbuffer - m)
        keys := k.keys ++ [(bytes_at k.readbuffer 0 m, c)] } := by
  have h128 : (sizeof_readbuffer : ℤ) = 128 := rfl
  obtain ⟨hpos, hfive, hfits⟩ := first_key_count k.readbuffer (size_t y)
  have hspells := first_key_spells k.readbuffer (size_t y)
  rw [take_key]
  generalize first_key k.readbuffer (size_t y) = r at hpos hfive hfits hspells
  refine ⟨r.2, r.1, hpos, fun hy => ?_, hspells, ?_⟩
  · have hcast := size_t_cast (x := y) (by omega) (by omega)
    have := hfits (by omega)
    omega
  · dsimp only
    rw [hchars, to_int_size_t (by omega) (by omega)]

lemma queued_take_key {y : ℤ} (h1 : 1 ≤ y) (hle : y ≤ sizeof_readbuffer) (hchars : k.chars_to_parse = y)
    (hkeys : ∀ e ∈ k.keys, Spells e.1 e.2)
    (hbytes : k.keys.flatMap Prod.fst ++ bytes_at k.readbuffer 0 y.toNat = k.read) :
    (k.take_key (size_t y)).2.Queued := by
  obtain ⟨m, c, hpos, hm, hspells, heq⟩ := take_key_eq (by omega) hle hchars
  have hmy := hm h1
  rw [heq]
  refine ⟨by dsimp only; omega, by dsimp only; omega, fun e he => ?_, ?_⟩
  · obtain he | he := List.mem_append.mp he
    · exact hkeys e he
    · rw [List.mem_singleton.mp he]
      exact hspells
  have h128 : (sizeof_readbuffer : ℤ) = 128 := rfl
  have hsplit : y.toNat = m + (y - m).toNat := by omega
  have hzero : (0 : ℤ) + m = m := by omega
  dsimp only
  rw [bytes_at_memmove (by omega), ← hbytes, hsplit, bytes_at_add, hzero, List.flatMap_append,
    List.flatMap_singleton, List.append_assoc]

/-! ## Calls -/

/-- The errors with which reads of a call from `k` to `k'` failed. -/
def failed_since (k k' : Keyboard) : List Errno := k'.failures.drop k.failures.length

/-- After the call the bytes are in order, and a read that failed has ended editing instead of
giving a key. -/
structure Sound (k k' : Keyboard) : Prop where
  queued : k'.Queued
  ends : ∀ e ∈ fatal, e ∈ failed_since k k' → k'.editing = false ∧ k'.keys = k.keys

/-- The read for an empty buffer does not fail, and no other one with an error that is fatal. -/
structure Undisturbed (k k' : Keyboard) : Prop where
  first : k.chars_to_parse = 0 → ∀ e, (next_read k.reads).map Prod.fst ≠ some (.failed e)
  others : ∀ e ∈ fatal, e ∉ failed_since k k'

lemma failed_since_same (h : k'.failures = k.failures) : failed_since k k' = [] := by
  rw [failed_since, h, List.drop_length]

lemma read_key_first {p : ℤ} {count : ℕ} {r : Read} {e : Errno} (h : k.read_key p count = some (r, k')) :
    (next_read k.reads).map Prod.fst = some (.failed e) ↔ r = .failed e := by
  rw [read_key, safe_read, Option.map_map, Option.map_eq_some_iff] at h
  obtain ⟨⟨_ | _, rs⟩, hnext, h⟩ := h
  · cases h
    rw [hnext]
    simp
  · cases h
    rw [hnext]
    simp

/-- Once the buffer is filled a key is given, and editing goes on. -/
lemma full_cases {k₁ : Keyboard} {x : ℤ} {c : Char} (h0 : -1 ≤ x) (hle : x ≤ sizeof_readbuffer)
    (h : (if k₁.readbuffer 0 = '\x1b' then rest_of_escape k₁.polls (size_t x) k₁
      else some (size_t x, k₁)).map (fun r => { r.2 with chars_to_parse := to_int r.1 }.take_key r.1) =
        some (c, k')) : ∃ (k₂ : Keyboard) (y : ℤ) (added : List Char), Extends k₁ k₂ x y added ∧
      k' = ({ k₂ with chars_to_parse := y }.take_key (size_t y)).2 := by
  obtain ⟨⟨n, k₂⟩, hfull, htake⟩ := Option.map_eq_some_iff.mp h
  have hext : ∃ y added, n = size_t y ∧ Extends k₁ k₂ x y added := by
    split_ifs at hfull
    · exact rest_of_escape_extends h0 hle hfull
    · cases hfull
      exact ⟨x, [], rfl, Extends.refl _ hle⟩
  obtain ⟨y, added, rfl, hext⟩ := hext
  have h128 : (sizeof_readbuffer : ℤ) = 128 := rfl
  have hcount := hext.count
  have hle' := hext.le
  refine ⟨k₂, y, added, hext, ?_⟩
  dsimp only at htake
  rw [to_int_size_t (by omega) (by omega)] at htake
  rw [htake]

/-- A call of `readit` in good order leaves good order just if it is not disturbed. -/
lemma readit_sound_iff {c : Char} (hk : k.Queued) (h : k.readit = some (c, k')) :
    Sound k k' ↔ Undisturbed k k' := by
  have h128 : (sizeof_readbuffer : ℤ) = 128 := rfl
  have hnonneg := hk.nonneg
  have hle := hk.le
  rw [readit] at h
  dsimp only at h
  by_cases hempty : k.chars_to_parse = 0
  · have hzero : size_t k.chars_to_parse ≤ 0 := by rw [hempty]; decide
    rw [if_pos hzero] at h
    have hread : k.keys.flatMap Prod.fst = k.read := by
      have hbytes := hk.bytes
      rw [hempty] at hbytes
      simpa [bytes_at] using hbytes
    cases hfirst : k.read_key 0 sizeof_readbuffer with
    | none =>
      rw [hfirst] at h
      cases h
    | some r =>
      obtain ⟨r, k₁⟩ := r
      rw [hfirst] at h
      dsimp only at h
      -- the branch for errors is never taken
      have hediting : (if size_t r.value < 0 ∧ ∃ e ∈ fatal, r = .failed e then
          { k₁ with editing := false } else k₁) = k₁ := if_neg fun hneg => Nat.not_lt_zero _ hneg.1
      rw [hediting] at h
      have hno : ∀ e, (next_read k.reads).map Prod.fst = some (.failed e) ↔ r = .failed e :=
        fun e => read_key_first hfirst
      obtain ⟨bytes, rfl, hlen, hk₁⟩ | ⟨e, rfl, hk₁⟩ := read_key_cases hfirst
      · have hvalue : (Read.data bytes).value = bytes.length := rfl
        have hok : k.chars_to_parse = 0 → ∀ e, (next_read k.reads).map Prod.fst ≠ some (.failed e) :=
          fun _ e he => Read.noConfusion ((hno e).mp he)
        have hlen' : (bytes.length : ℤ) ≤ 128 := by omega
        have hcast := size_t_cast (x := bytes.length) (by omega) (by omega)
        rw [hvalue] at h
        by_cases hnone : size_t (bytes.length : ℤ) ≤ 0
        · -- the end of the file
          rw [if_pos hnone] at h
          have hnil : bytes = [] := List.eq_nil_of_length_eq_zero (by omega)
          subst hnil
          cases h
          have hsame : k'.failures = k.failures := by rw [hk₁]
          have hclean : ∀ e, e ∉ failed_since k k' := by
            rw [failed_since_same hsame]
            exact fun e => List.not_mem_nil
          refine iff_of_true ⟨⟨?_, ?_, ?_, ?_⟩, fun e _ he => absurd he (hclean e)⟩
            ⟨hok, fun e _ => hclean e⟩
          · rw [hk₁]
            exact hnonneg
          · rw [hk₁]
            exact hle
          · rw [hk₁]
            exact hk.keys
          · rw [hk₁, List.append_nil]
            dsimp only
            rw [hempty]
            simpa [bytes_at] using hread
        · rw [if_neg hnone] at h
          obtain ⟨k₂, y, added, hext, hk'⟩ := full_cases (by omega) (by omega) h
          have hcount := hext.count
          obtain ⟨m, c', -, -, -, heq⟩ := take_key_eq (k := { k₂ with chars_to_parse := y })
            (by omega) hext.le rfl
          have hfailures : k'.failures = k₂.failures := by rw [hk', heq]
          have hkeys : k'.keys ≠ k.keys := by
            rw [hk', heq]
            dsimp only
            rw [hext.keys, hk₁]
            exact fun h => List.cons_ne_nil _ _ (List.append_right_eq_self.mp h)
          have hqueued : k'.Queued := by
            rw [hk']
            refine queued_take_key (by omega) hext.le rfl ?_ ?_
            · dsimp only
              rw [hext.keys, hk₁]
              exact hk.keys
            dsimp only
            have hbytes : bytes_at k₁.readbuffer 0 (bytes.length : ℤ).toNat = bytes := by
              rw [hk₁]
              exact bytes_at_store
            rw [hext.keys, hext.bytes (by omega), hbytes, hext.read, hk₁, ← hread, List.append_assoc]
          exact ⟨fun hs => ⟨hok, fun e he hf => hkeys (hs.ends e he hf).2⟩,
            fun hu => ⟨hqueued, fun e he hf => absurd hf (hu.others e he)⟩⟩
      · have hvalue : (Read.failed e).value = -1 := rfl
        rw [hvalue, if_neg (by decide)] at h
        obtain ⟨k₂, y, added, hext, hk'⟩ := full_cases (by decide) (by omega) h
        have hcount := hext.count
        obtain ⟨m, c', -, -, -, heq⟩ := take_key_eq (k := { k₂ with chars_to_parse := y })
          (by omega) hext.le rfl
        refine iff_of_false (fun hs => ?_) fun hu => hu.first hempty e ((hno e).mpr rfl)
        -- one byte that was read is neither in a key nor in the buffer
        have hnonneg' := hs.queued.nonneg
        have hlength := congrArg List.length hs.queued.bytes
        have hread' := congrArg List.length hread
        rw [hk', heq] at hlength hnonneg'
        dsimp only at hlength hnonneg'
        rw [hext.keys, hext.read, hk₁] at hlength
        dsimp only at hlength
        rw [List.flatMap_append, List.flatMap_singleton, List.length_append, List.length_append,
          List.length_append, length_bytes_at, length_bytes_at] at hlength
        omega
  · have hpos : ¬ size_t k.chars_to_parse ≤ 0 := by
      have hcast := size_t_cast (x := k.chars_to_parse) hnonneg (by omega)
      omega
    rw [if_neg hpos] at h
    have hk' : k' = (k.take_key (size_t k.chars_to_parse)).2 := by
      rw [Option.some.inj h]
    have hsame : k'.failures = k.failures := by
      rw [hk', take_key]
    have hno : ∀ e, e ∉ failed_since k k' := by
      rw [failed_since_same hsame]
      exact fun e => List.not_mem_nil
    refine iff_of_true ⟨?_, fun e _ he => absurd he (hno e)⟩ ⟨fun h0 => absurd h0 hempty, fun e _ => hno e⟩
    rw [hk']
    exact queued_take_key (by omega) hle rfl hk.keys hk.bytes

/-- What has been typed in the meantime is added behind what waits. -/
lemma queued_queueAnyInput (hk : k.Queued) (h : k.queueAnyInput = some k') :
    k'.Queued ∧ k'.failures = k.failures := by
  have h128 : (sizeof_readbuffer : ℤ) = 128 := rfl
  have hnonneg := hk.nonneg
  have hle := hk.le
  rw [queueAnyInput] at h
  dsimp only at h
  split_ifs at h
  · obtain ⟨⟨r, k₁⟩, hread, h⟩ := Option.map_eq_some_iff.mp h
    have hroom : (size_t (sizeof_readbuffer - k.chars_to_parse) : ℤ) = 128 - k.chars_to_parse :=
      size_t_cast (by omega) (by omega)
    obtain ⟨bytes, rfl, hlen, hk₁⟩ | ⟨e, rfl, hk₁⟩ := safe_read_cases hread
    · have hadd : bytes_at k₁.readbuffer 0 (k.chars_to_parse + bytes.length).toNat =
          bytes_at k.readbuffer 0 k.chars_to_parse.toNat ++ bytes := by
        have hsum : (k.chars_to_parse + bytes.length).toNat = k.chars_to_parse.toNat + bytes.length := by
          omega
        have hat : (0 : ℤ) + k.chars_to_parse.toNat = k.chars_to_parse := by omega
        rw [hsum, bytes_at_add, hat, hk₁]
        dsimp only
        rw [bytes_at_store, bytes_at_store_before (by omega)]
      have hvalue : (Read.data bytes).value = bytes.length := rfl
      have hint : to_int (k.chars_to_parse + bytes.length) = k.chars_to_parse + bytes.length := by
        have hcast := size_t_cast (x := k.chars_to_parse + bytes.length) (by omega) (by omega)
        rw [← hcast]
        exact to_int_size_t (by omega) (by omega) |>.trans hcast.symm
      dsimp only at h
      rw [hvalue] at h
      by_cases hsome : (0 : ℤ) < bytes.length
      · rw [if_pos hsome, hk₁] at h
        dsimp only at h
        rw [hint] at h
        subst h
        refine ⟨⟨by dsimp only; omega, by dsimp only; omega, hk.keys, ?_⟩, rfl⟩
        rw [hk₁] at hadd
        dsimp only at hadd ⊢
        rw [hadd, ← hk.bytes, List.append_assoc]
      · rw [if_neg hsome] at h
        subst h
        have hnil : bytes = [] := List.eq_nil_of_length_eq_zero (by omega)
        subst hnil
        rw [List.length_nil, Nat.cast_zero, add_zero, List.append_nil] at hadd
        refine ⟨⟨?_, ?_, ?_, ?_⟩, ?_⟩
        · rw [hk₁]
          exact hnonneg
        · rw [hk₁]
          exact hle
        · rw [hk₁]
          exact hk.keys
        · have hread : k₁.read = k.read := by rw [hk₁, List.append_nil]
          have hchars : k₁.chars_to_parse = k.chars_to_parse := by rw [hk₁]
          have hkeys : k₁.keys = k.keys := by rw [hk₁]
          rw [hread, hchars, hkeys, hadd, hk.bytes]
        · rw [hk₁]
    · have hvalue : ¬ 0 < (Read.failed e).value := show ¬ (0 : ℤ) < -1 by decide
      dsimp only at h
      rw [if_neg hvalue, hk₁] at h
      subst h
      exact ⟨⟨hnonneg, hle, hk.keys, hk.bytes⟩, rfl⟩
  · cases h
    exact ⟨⟨hnonneg, hle, hk.keys, hk.bytes⟩, rfl⟩

/-- In good order a call leaves good order just if it is not disturbed. -/
lemma call_sound_iff {c : KeyCall} (hk : k.Queued) (h : k.call c = some k') :
    Sound k k' ↔ c = .readit → Undisturbed k k' := by
  cases c with
  | readit =>
    obtain ⟨⟨c, k₁⟩, hr, rfl⟩ := Option.map_eq_some_iff.mp h
    exact (readit_sound_iff hk hr).trans ⟨fun hu _ => hu, fun hu => hu rfl⟩
  | queueAnyInput =>
    obtain ⟨hqueued, hsame⟩ := queued_queueAnyInput hk h
    refine iff_of_true ⟨hqueued, fun e _ he => ?_⟩ nofun
    rw [failed_since_same hsame] at he
    cases he

/-- Over every run of calls the bytes are used once and in order, and a read that fails ends
editing, just if no call of `readit` is disturbed: neither its first read fails nor another one with
an error that is fatal. -/
theorem readit_in_order (mem : ℤ → Char) (reads : List Read) (polls : List Bool) (calls : List KeyCall) :
    Throughout call (fun k c => ∀ k', k.call c = some k' → Sound k k') (start mem reads polls) calls ↔
      Throughout call (fun k c => ∀ k', k.call c = some k' → c = .readit → Undisturbed k k')
        (start mem reads polls) calls := by
  refine throughout_congr (I := Queued) (fun k c hk => ?_) (fun k c k' hk hs h => ?_)
    (queued_start mem reads polls)
  · exact forall_congr' fun k' => forall_congr' fun h => call_sound_iff hk h
  · exact (hs k' h).queued

/-- A cursor key that comes in two parts, followed by a letter. -/
example : ((start (fun _ => NUL) [.data ['\x1b'], .data ['[', 'A', 'x']] [true]).call .readit).map
    (fun k => (k.keys, k.chars_to_parse)) = some ([(['\x1b', '[', 'A'], VI_K 0)], 1) := by
  decide +kernel

/-- When the terminal is gone, the keys go on: what is left in the buffer is taken for typed, and
nothing is read any more. -/
theorem keys_after_error : ∃ k₁ k₂ k₃ : Keyboard,
    (start (fun _ => NUL) [.data ['i'], .failed Errno.EIO] []).call .readit = some k₁ ∧
      k₁.call .readit = some k₂ ∧ k₂.call .readit = some k₃ ∧ ¬ Sound k₁ k₂ ∧
      k₂.editing = true ∧ k₂.keys = [(['i'], 'i'), ([NUL], NUL)] ∧ k₂.chars_to_parse = -2 ∧
      k₃.keys = [(['i'], 'i'), ([NUL], NUL), ([NUL], NUL)] ∧ k₃.chars_to_parse = -3 := by
  refine ⟨_, _, _, rfl, rfl, rfl, fun hs => ?_, rfl, by decide, by decide, by decide, by decide⟩
  exact absurd hs.queued.nonneg (by decide)

end Keyboard

end EspLinux.Vi
