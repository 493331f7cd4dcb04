import EspLinux.Vi.StatusLine

/-!
# vi: the messages

Every message that `status_line` and `status_line_bold` are called with, as data.  The name of a
file and the text of an error come from outside; everything else in a message has a bounded length,
which is what `length_bare_le` says.
-/

namespace EspLinux.Vi

open Lib

/-- A string of the language C. -/
def CString : Type := { s : List Char // NUL ∉ s }

/-- A value of the type `int`. -/
def CInt : Type := { n : ℤ // -2 ^ 31 ≤ n ∧ n < 2 ^ 31 }

/-- `%d` -/
def CInt.printed (n : CInt) : List Char := (toString n.val).toList

/-- The messages that are always the same. -/
inductive Notice
  | no_write_edit | no_write_quit | no_write_next | no_write_rewind | no_current_filename
  | no_more_files | no_filename_given | outside_of_memory | no_delimiters | no_regex
  | hit_bottom | hit_top | not_found | count_overflow | cmd_overrun | version
  deriving DecidableEq

def Notice.text : Notice → String
  | no_write_edit => "No write since last change (:edit! overrides)"
  | no_write_quit => "No write since last change (:quit! overrides)"
  | no_write_next => "No write since last change (:next! overrides)"
  | no_write_rewind => "No write since last change (:rewind! overrides)"
  | no_current_filename => "No current filename"
  | no_more_files => "No more files to edit"
  | no_filename_given => "No filename given"
  | outside_of_memory => "Trying to insert file outside of memory"
  | no_delimiters => ":s expression missing delimiters"
  | no_regex => "No previous regular expression"
  | hit_bottom => "search hit BOTTOM, continuing at TOP"
  | hit_top => "search hit TOP, continuing at BOTTOM"
  | not_found => "Pattern not found"
  | count_overflow => "Repeat Count OVERFLOW"
  | cmd_overrun => "last_modifying_cmd overrun"
  | version => "version 2.62 brent@mbari.org"

/-- The messages, with their arguments.  Here `fn` is the name of a file, and `reason` the text of
an error. -/
inductive Msg
  | notice (n : Notice)
  | line_number (b : CInt)
  | more_files (n : CInt)
  | options (autoindent flash ignorecase showmatch : Bool)
  | yanked (li len : CInt) (YDreg : ℕ)
  | put (cnt i : CInt) (YDreg : ℕ)
  | operated (delete : Bool) (cnt len : CInt) (YDreg : ℕ)
  | nothing_in (YDreg : ℕ)
  | not_implemented (s : CString)
  | edited (fn : CString) (new ro : Bool) (li ch : CInt)
  | read (fn : CString) (ro : Bool) (li ch : CInt)
  | written (fn : CString) (li l : CInt)
  | read_only (fn : CString)
  | failed (fn reason : CString)
  | not_regular (fn : CString)
  | not_all (fn : CString)
  | write_error (reason : CString)

namespace Msg

/-- `" [Readonly]"`, or nothing. -/
def readonly (ro : Bool) : List Char := if ro then " [Readonly]".toList else []

/-- What is printed, piece by piece. -/
def pieces : Msg → List (List Char)
  | notice n => [n.text.toList]
  | line_number b => [b.printed]
  | more_files n => [n.printed, " more file to edit".toList]
  | options autoindent flash ignorecase showmatch =>
    let no := fun on : Bool => if on then [] else ['n', 'o']
    [no autoindent, "autoindent ".toList, no flash, "flash ".toList, no ignorecase,
      "ignorecase ".toList, no showmatch, "showmatch ".toList]
  | yanked li len YDreg =>
    ["Yank ".toList, li.printed, " lines (".toList, len.printed, " chars) into [".toList,
      [what_reg YDreg, ']']]
  | put cnt i YDreg =>
    ["Put ".toList, cnt.printed, " lines (".toList, i.printed, " chars) from [".toList,
      [what_reg YDreg, ']']]
  | operated delete cnt len YDreg =>
    [if delete then "Delete ".toList else "Yank ".toList, cnt.printed, " lines (".toList,
      len.printed, " chars) using [".toList, [what_reg YDreg, ']']]
  | nothing_in YDreg => ["Nothing in register ".toList, [what_reg YDreg]]
  | not_implemented s =>
    [['\''], print_literal [] (if s.val = [] then "(NULL)".toList else s.val),
      "' is not implemented".toList]
  | edited fn new ro li ch =>
    [['"'], fn.val, ['"'], if new then " [New file]".toList else [], readonly ro, [' '], li.printed,
      "L, ".toList, ch.printed, ['C']]
  | read fn ro li ch =>
    [['"'], fn.val, ['"'], readonly ro, [' '], li.printed, "L, ".toList, ch.printed, ['C']]
  | written fn li l => [['"'], fn.val, ['"', ' '], li.printed, "L, ".toList, l.printed, ['C']]
  | read_only fn => [['"'], fn.val, "\" File is read only".toList]
  | failed fn reason => [['"'], fn.val, ['"', ' '], reason.val]
  | not_regular fn => [['"'], fn.val, "\" Not a regular file".toList]
  | not_all fn => ["cannot read all of file \"".toList, fn.val, ['"']]
  | write_error reason => ["Write error: ".toList, reason.val]

/-- What is printed. -/
def text (m : Msg) : List Char := m.pieces.flatten

/-- Printed by `status_line_bold`, not by `status_line`. -/
def bold : Msg → Bool
  | notice .version | line_number _ | options .. | yanked .. | put .. | operated .. | edited ..
  | read .. | written .. => false
  | _ => true

/-- The name and the error text in a message. -/
def names : Msg → List Char
  | edited fn .. | read fn .. | written fn .. | read_only fn | not_regular fn | not_all fn => fn.val
  | failed fn reason => fn.val ++ reason.val
  | write_error reason => reason.val
  | _ => []

/-- The message without them. -/
def bare : Msg → Msg
  | edited _ new ro li ch => edited ⟨[], nofun⟩ new ro li ch
  | read _ ro li ch => read ⟨[], nofun⟩ ro li ch
  | written _ li l => written ⟨[], nofun⟩ li l
  | read_only _ => read_only ⟨[], nofun⟩
  | failed _ _ => failed ⟨[], nofun⟩ ⟨[], nofun⟩
  | not_regular _ => not_regular ⟨[], nofun⟩
  | not_all _ => not_all ⟨[], nofun⟩
  | write_error _ => write_error ⟨[], nofun⟩
  | m => m

/-- How many characters a message has, with the escape sequences around it. -/
def length (m : Msg) : ℕ := m.text.length + if m.bold then 2 * SOlen else 0

end Msg

/-! ## What a message is made of -/

lemma CInt.printed_eq (n : CInt) :
    n.printed = if n.val < 0 then '-' :: Nat.toDigits 10 n.val.natAbs
      else Nat.toDigits 10 n.val.natAbs := by
  obtain ⟨n, hn⟩ := n
  cases n with
  | ofNat n =>
    show (Int.repr (Int.ofNat n)).toList = _
    simp [Int.repr, Nat.toList_repr]
  | negSucc n =>
    show (Int.repr (Int.negSucc n)).toList = _
    simp [Int.repr, Nat.toList_repr, Int.negSucc_lt_zero]

lemma CInt.length_printed_le (n : CInt) : n.printed.length ≤ 11 := by
  have hlen := Nat.toDigits_length 10 n.val.natAbs 10 (by omega) (by have := n.property; omega)
  rw [CInt.printed_eq]
  split
  · rw [List.length_cons]
    omega
  · omega

lemma CInt.nul_notin_printed (n : CInt) : NUL ∉ n.printed := by
  have hdigits : NUL ∉ Nat.toDigits 10 n.val.natAbs := fun h =>
    absurd (Nat.isDigit_of_mem_toDigits (by omega) (by omega) h) (by decide)
  rw [CInt.printed_eq]
  split
  · simp [hdigits, NUL]
  · exact hdigits

/-- A character is shown by nine at most. -/
lemma length_literal_le (c : Char) : (literal c).length ≤ 9 := by
  rw [literal, List.length_append]
  split
  · next hc =>
    -- a newline is not one of these
    rw [if_neg (by rintro rfl; exact absurd hc (by decide))]
    decide
  · have hdollar : (if c = '\n' then ['$'] else []).length ≤ 1 := by split <;> decide
    split_ifs at hdollar ⊢ <;> simp

lemma nul_notin_literal {c : Char} (hc : c ≠ NUL) : NUL ∉ literal c := by
  rw [literal, List.mem_append, not_or]
  refine ⟨?_, by split <;> decide⟩
  split_ifs with hhigh hdel hctrl
  · decide
  · decide
  · have hletters : ∀ n < 32, NUL ∉ ['^', Char.ofNat (n + 64)] := by decide
    exact hletters c.toNat hctrl
  · exact fun h => hc (List.mem_singleton.mp h).symm

lemma length_print_literal_le {buf s : List Char} (hbuf : buf.length ≤ MAX_INPUT_LEN - 10) :
    (print_literal buf s).length ≤ MAX_INPUT_LEN - 1 := by
  induction s generalizing buf with
  | nil =>
    rw [print_literal]
    unfold MAX_INPUT_LEN at *
    omega
  | cons c s ih =>
    have hlit := length_literal_le c
    have hlen := @List.length_append _ buf (literal c)
    simp only [print_literal]
    split
    · rw [hlen]
      unfold MAX_INPUT_LEN at *
      omega
    · exact ih (by omega)

lemma nul_notin_print_literal {buf s : List Char} (hbuf : NUL ∉ buf) (hs : NUL ∉ s) :
    NUL ∉ print_literal buf s := by
  induction s generalizing buf with
  | nil => exact hbuf
  | cons c s ih =>
    have happ : NUL ∉ buf ++ literal c := by
      rw [List.mem_append, not_or]
      exact ⟨hbuf, nul_notin_literal fun he => hs (he ▸ List.mem_cons_self)⟩
    simp only [print_literal]
    split
    · exact happ
    · exact ih happ fun h => hs (List.mem_cons_of_mem c h)

lemma what_reg_ne (YDreg : ℕ) : NUL ≠ what_reg YDreg := by
  rw [what_reg]
  split_ifs with hletter
  · have hletters : ∀ n ≤ 25, NUL ≠ Char.ofNat ('a'.toNat + n) := by decide +kernel
    exact hletters YDreg hletter
  · decide
  · decide

namespace Msg

lemma length_readonly_le (ro : Bool) : (readonly ro).length ≤ 11 := by
  cases ro <;> decide

variable (m : Msg)

/-- The names are not shortened. -/
theorem length_eq : m.length = m.bare.length + m.names.length := by
  cases m with
  | edited fn new => cases new <;> simp [length, text, pieces, bare, names, bold] <;> omega
  | read | written | read_only | failed | not_regular | not_all | write_error =>
    simp [length, text, pieces, bare, names, bold, SOlen]
    omega
  | _ => exact (Nat.add_zero _).symm

/-- There is room for everything else. -/
theorem length_bare_le : m.bare.length ≤ 156 := by
  cases m with
  | notice n => cases n <;> decide
  | options autoindent flash ignorecase showmatch =>
    revert autoindent flash ignorecase showmatch
    decide +kernel
  | line_number b =>
    have hb := b.length_printed_le
    simp [length, text, pieces, bare, bold]
    omega
  | more_files n =>
    have hn := n.length_printed_le
    simp [length, text, pieces, bare, bold, SOlen]
    omega
  | yanked a b r | put a b r =>
    have ha := a.length_printed_le
    have hb := b.length_printed_le
    simp [length, text, pieces, bare, bold]
    omega
  | operated delete a b r =>
    have ha := a.length_printed_le
    have hb := b.length_printed_le
    cases delete <;> simp [length, text, pieces, bare, bold] <;> omega
  | not_implemented s =>
    have hs := @length_print_literal_le [] (if s.val = [] then "(NULL)".toList else s.val)
      (by decide)
    simp [length, text, pieces, bare, bold, SOlen, MAX_INPUT_LEN] at hs ⊢
    omega
  | edited fn new ro a b =>
    have ha := a.length_printed_le
    have hb := b.length_printed_le
    have hro := length_readonly_le ro
    cases new <;> simp [length, text, pieces, bare, bold] <;> omega
  | read fn ro a b =>
    have ha := a.length_printed_le
    have hb := b.length_printed_le
    have hro := length_readonly_le ro
    simp [length, text, pieces, bare, bold]
    omega
  | written fn a b =>
    have ha := a.length_printed_le
    have hb := b.length_printed_le
    simp [length, text, pieces, bare, bold]
    omega
  | nothing_in | read_only | failed | not_regular | not_all | write_error =>
    simp [length, text, pieces, bare, bold, SOlen]

lemma nul_notin_pieces : ∀ l ∈ m.pieces, NUL ∉ l := by
  have hint := CInt.nul_notin_printed
  have hreg := what_reg_ne
  have hstr : ∀ s : CString, NUL ∉ s.val := fun s => s.property
  have hro : ∀ ro, NUL ∉ readonly ro := fun ro => by cases ro <;> decide
  have hnul : ∀ c : Char, NUL = c ↔ c = '\x00' := fun c => eq_comm
  cases m with
  | notice n => cases n <;> decide
  | options autoindent flash ignorecase showmatch =>
    revert autoindent flash ignorecase showmatch
    decide +kernel
  | not_implemented s =>
    have hlit : NUL ∉ print_literal [] (if s.val = [] then "(NULL)".toList else s.val) := by
      refine nul_notin_print_literal List.not_mem_nil ?_
      split
      · decide
      · exact s.property
    simp only [pieces, List.forall_mem_cons]
    exact ⟨by decide, hlit, by decide, nofun⟩
  | operated delete | edited _ delete =>
    cases delete <;> simp [pieces, hint, hreg, hstr, hro, hnul]
  | _ => simp [pieces, hint, hreg, hstr, hro, hnul]

/-- A message is a string. -/
theorem nul_notin_text : NUL ∉ m.text := by
  rw [text, List.mem_flatten]
  rintro ⟨l, hl, h⟩
  exact m.nul_notin_pieces l hl h

end Msg

end EspLinux.Vi
