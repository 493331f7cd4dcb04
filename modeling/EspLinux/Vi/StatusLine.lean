import EspLinux.Lib.Terminal
import EspLinux.Vi.Cursor

/-!
# vi: the status line

`show_status_line` keeps a copy of the message that the bottom row of the terminal shows, and writes
only what follows the first difference to the new message.  A message may be in reverse video as a
whole; the escape sequences around it are characters of the string but fill no cells, and what is
wider than the screen is cut off.

The update is right as long as the difference is on the screen.  Behind it, `place_cursor` stops at
the last column, whose cell is then erased, and the number of characters to be written is negative.
-/

namespace EspLinux.Vi

open Lib

/-! ## The functions -/

/-- The size of `status_buffer`, and of `displayed_buffer`. -/
def STATUS_BUFFER_LEN : ℕ := 200

def SOs : List Char := ['\x1b', '[', '7', 'm']

def SOn : List Char := ['\x1b', '[', '0', 'm']

def SOlen : ℕ := 4

def Ceol : List Char := ['\x1b', '[', '0', 'K']

/-- The globals behind the status line. -/
structure StatusLine where
  status_buffer : List Char
  displayed_buffer : List Char
  /-- `CMODE_LINE_INPUT`, in `cmd_mode`. -/
  line_input : Bool
  last_file_modified : ℤ
  format_edit_status__tot : ℤ

/-- The formats `format_edit_status` is called with. -/
inductive StatusFormat
  /-- `EDIT_STATUS` -/
  | edit
  /-- `EDIT_STATUS " col %d"` -/
  | col
  /-- `EDIT_STATUS " col %d {%d times}"` -/
  | times

def cmd_mode_indicator : Mode → String
  | .command => "COMMAND"
  | .insert => "INSERT"
  | .replace => "REPLACE"

namespace Ed

/-- The sequence that moves the cursor. -/
def place_cursor (s : Ed) (row col : ℤ) : List Char :=
  let row : ℤ := if row < 0 then 0 else row
  let row : ℤ := if s.rows ≤ row then s.rows - 1 else row
  let col : ℤ := if col < 0 then 0 else col
  let col : ℤ := if s.columns ≤ col then s.columns - 1 else col
  ['\x1b', '['] ++ Nat.toDigits 10 (row.toNat + 1) ++ [';'] ++ Nat.toDigits 10 (col.toNat + 1) ++
    ['H']

/-- What `format_edit_status` prints, the counts being given. -/
def edit_status (s : Ed) (cur tot percent : ℤ) (fmt : StatusFormat) : String :=
  let mode := cmd_mode_indicator s.cmd_mode
  let name := match s.current_filename with
    | some fn => String.ofList fn
    | none => "No file"
  let readonly := if s.readonly_mode then " [Readonly]" else ""
  let modified := if s.file_modified ≠ 0 then " [Modified]" else ""
  let col := s.offset + s.ccol + 1
  let cnt := s.cmdcnt
  s!"{mode}: {name}{readonly}{modified} line {cur}/{tot} {percent}%" ++
    match fmt with
    | .edit => ""
    | .col => s!" col {col}"
    | .times => s!" col {col} \x7b{cnt} times\x7d"

/-- The message that is shown when there is no other one.  It is cut off at the width of the screen
and at the size of the buffer. -/
def format_edit_status (s : Ed) (m : StatusLine) (fmt : StatusFormat) : StatusLine :=
  let cur : ℤ := s.count_lines 0 s.dot
  let changed := (s.file_modified : ℤ) ≠ m.last_file_modified
  let tot := if changed then cur + s.count_lines s.dot (s.end_ - 1) - 1
    else m.format_edit_status__tot
  let (cur, tot, percent) := if 0 < tot then (cur, tot, 100 * cur / tot) else (0, 0, 100)
  let trunc_at := if s.columns < STATUS_BUFFER_LEN - 1 then s.columns else STATUS_BUFFER_LEN - 1
  { m with
    status_buffer := (s.edit_status cur tot percent fmt).toList.take trunc_at
    last_file_modified := if changed then s.file_modified else m.last_file_modified
    format_edit_status__tot := tot }

end Ed

/-- The rest of `s` from the first difference to `ref` on; `none` if there is none. -/
def scompare : List Char → List Char → Option (List Char)
  | [], [] => none
  | [], _ :: _ => some []
  | c :: s, [] => some (c :: s)
  | c :: s, d :: ref => if c = d then scompare s ref else some (c :: s)

/-- `fwrite` of so many characters of a string.  A negative number is converted to a huge one, and
what lies behind the buffer is written: no answer. -/
def fwrite (buffer : List Char) (size : ℤ) : Option (List Char) :=
  if 0 ≤ size ∧ size ≤ buffer.length then some (buffer.take size.toNat) else none

namespace Ed

/-- What is on the status line: the message, or else the status of the file. -/
def with_status (s : Ed) (m : StatusLine) : StatusLine :=
  if m.status_buffer = [] then s.format_edit_status m .edit else m

/-- The changed part of the message, which is cut off at the width of the screen. -/
def cut_off (s : Ed) (buffer changed : List Char) (bold : Bool) : Option (List Char) :=
  let unchanged := buffer.length - changed.length
  let escapes := if bold then 2 * SOlen else 0
  let len := buffer.length
  -- `len - escapes` is unsigned
  if len < escapes ∨ s.columns < len - escapes then
    let limit := if bold then s.columns + SOlen else s.columns
    (fwrite changed (limit - unchanged)).map fun cut =>
      cut ++ if bold ∧ 2 * SOlen < len then buffer.drop (len - SOlen) else []
  else some changed

/-- What `show_status_line` writes, and the globals afterwards. -/
def show_status_line (s : Ed) (m : StatusLine) : Option (List Char × StatusLine) :=
  let m := s.with_status m
  let buffer := m.status_buffer
  match scompare buffer m.displayed_buffer with
  | some changed =>
    let unchanged := buffer.length - changed.length
    let m := { m with displayed_buffer := m.displayed_buffer.take unchanged ++ changed }
    -- the cursor is placed on the right column if the message begins with an escape sequence
    let bold : Bool := buffer.head? = SOs.head?
    let out := s.place_cursor (s.rows - 1) (if bold then unchanged - SOlen else unchanged) ++ Ceol
    let out := if unchanged ≠ 0 ∧ bold then out ++ buffer.take SOlen else out
    (s.cut_off buffer changed bold).map fun rest =>
      (out ++ rest ++ if m.line_input then [] else s.place_cursor s.crow s.ccol, m)
  | none =>
    some (if m.line_input then s.place_cursor (s.rows - 1) buffer.length
      else s.place_cursor s.crow s.ccol, m)

end Ed

/-! ## Messages -/

/-- A message: visible characters, plain or entirely in reverse video. -/
structure Message where
  text : List Char
  bold : Bool
  visible : ∀ c ∈ text, Visible c

namespace Message

/-- The message as a string. -/
def bytes (msg : Message) : List Char :=
  if msg.bold then SOs ++ msg.text ++ SOn else msg.text

/-- The cell that shows the message in a column. -/
def cell (msg : Message) (col : ℕ) : Cell :=
  if col < msg.text.length then ⟨msg.text.getD col ' ', msg.bold⟩ else Cell.blank

/-- The row of the terminal shows the message, as far as it is wide. -/
def ShownBy (msg : Message) (t : Term) (row : ℕ) : Prop :=
  ∀ col < t.columns, t.cells row col = msg.cell col

end Message

/-- How many characters two texts have in common at their beginnings. -/
def common : List Char → List Char → ℕ
  | c :: s, d :: ref => if c = d then common s ref + 1 else 0
  | _, _ => 0

section Common

variable {s ref : List Char} {c : Char}

@[simp] lemma common_nil : common s [] = 0 := by cases s <;> rfl

@[simp] lemma nil_common : common [] ref = 0 := rfl

@[simp] lemma common_cons : common (c :: s) (c :: ref) = common s ref + 1 := if_pos rfl

lemma common_le : common s ref ≤ s.length ∧ common s ref ≤ ref.length := by
  induction s generalizing ref with
  | nil => exact ⟨Nat.zero_le _, Nat.zero_le _⟩
  | cons c s ih =>
    cases ref with
    | nil => exact ⟨Nat.zero_le _, Nat.zero_le _⟩
    | cons d ref =>
      rw [common]
      split
      · have := @ih ref
        rw [List.length_cons, List.length_cons]
        omega
      · exact ⟨Nat.zero_le _, Nat.zero_le _⟩

lemma getD_common {i : ℕ} (hi : i < common s ref) : s.getD i ' ' = ref.getD i ' ' := by
  induction s generalizing ref i with
  | nil => exact absurd hi (Nat.not_lt_zero i)
  | cons c s ih =>
    cases ref with
    | nil => exact absurd hi (Nat.not_lt_zero i)
    | cons d ref =>
      rw [common] at hi
      split at hi
      · rename_i heq
        subst heq
        cases i with
        | zero => rfl
        | succ i => exact ih (Nat.lt_of_succ_lt_succ hi)
      · exact absurd hi (Nat.not_lt_zero i)

lemma take_common : s.take (common s ref) = ref.take (common s ref) := by
  induction s generalizing ref with
  | nil => rw [nil_common, List.take_zero, List.take_zero]
  | cons c s ih =>
    cases ref with
    | nil => rw [common_nil, List.take_zero, List.take_zero]
    | cons d ref =>
      rw [common]
      split
      · rename_i heq
        rw [List.take_succ_cons, List.take_succ_cons, ih, heq]
      · rfl

/-- What is compared is the part that is in common. -/
lemma scompare_eq : scompare s ref = if s = ref then none else some (s.drop (common s ref)) := by
  induction s generalizing ref with
  | nil =>
    cases ref with
    | nil => rfl
    | cons d ref => rfl
  | cons c s ih =>
    cases ref with
    | nil => rfl
    | cons d ref =>
      rw [scompare, common]
      by_cases heq : c = d
      · subst heq
        rw [if_pos rfl, if_pos rfl, ih, List.drop_succ_cons]
        exact if_congr (by rw [List.cons.injEq]; tauto) rfl rfl
      · rw [if_neg heq, if_neg heq, if_neg fun h => heq (List.cons.inj h).1, List.drop_zero]

lemma common_append {pre : List Char} :
    common (pre ++ s) (pre ++ ref) = pre.length + common s ref := by
  induction pre with
  | nil => rw [List.nil_append, List.nil_append, List.length_nil, Nat.zero_add]
  | cons c pre ih =>
    rw [List.cons_append, List.cons_append, common_cons, ih, List.length_cons]
    omega

/-- A character that is in neither text ends what they have in common, unless they are the same. -/
lemma common_stop {rest : List Char} (hs : c ∉ s) (hr : c ∉ ref) (hne : s ≠ ref) :
    common (s ++ c :: rest) (ref ++ c :: rest) = common s ref := by
  induction s generalizing ref with
  | nil =>
    cases ref with
    | nil => exact absurd rfl hne
    | cons d ref =>
      rw [nil_common, List.nil_append, List.cons_append, common]
      exact if_neg fun heq : c = d => hr (heq ▸ List.mem_cons_self)
  | cons e s ih =>
    cases ref with
    | nil =>
      rw [common_nil, List.nil_append, List.cons_append, common]
      exact if_neg fun heq : e = c => hs (heq ▸ List.mem_cons_self)
    | cons d ref =>
      rw [List.cons_append, List.cons_append, common, common]
      split
      · rename_i heq
        subst heq
        rw [ih (fun h => hs (List.mem_cons_of_mem e h)) (fun h => hr (List.mem_cons_of_mem e h))
          fun h => hne (h ▸ rfl)]
      · rfl

end Common

/-! ## What is written -/

namespace Message

variable {old new : Message}

/-- How much of the old message is left on the row. -/
def kept (new old : Message) : ℕ := if new.bold = old.bold then common new.text old.text else 0

lemma escape_not_mem (msg : Message) : '\x1b' ∉ msg.text := fun h =>
  absurd (msg.visible _ h) (by decide)

lemma kept_le (new old : Message) : new.kept old ≤ new.text.length := by
  rw [kept]
  split
  · exact common_le.1
  · exact Nat.zero_le _

lemma ext (htext : new.text = old.text) (hbold : new.bold = old.bold) : new = old := by
  obtain ⟨text, bold, hvisible⟩ := new
  obtain ⟨text', bold', hvisible'⟩ := old
  cases htext
  cases hbold
  rfl

lemma bytes_plain (h : new.bold = false) : new.bytes = new.text := by
  rw [bytes, h]
  rfl

lemma bytes_bold (h : new.bold = true) : new.bytes = SOs ++ new.text ++ SOn := by
  rw [bytes, h]
  rfl

/-- A message in reverse video begins with an escape sequence, any other one does not. -/
lemma head_bytes : (new.bytes.head? = SOs.head?) ↔ new.bold = true := by
  cases hbold : new.bold with
  | true => exact iff_of_true (by rw [bytes_bold hbold]; rfl) rfl
  | false =>
    rw [bytes_plain hbold]
    refine iff_of_false (fun h => new.escape_not_mem ?_) Bool.false_ne_true
    exact List.mem_of_mem_head? h

lemma length_bytes (h : new.bold = true) : new.bytes.length = new.text.length + 2 * SOlen := by
  rw [bytes_bold h, List.length_append, List.length_append, SOs, SOn, SOlen]
  simp only [List.length_cons, List.length_nil]
  omega

lemma bytes_inj (h : new.bytes = old.bytes) : new = old := by
  have hbold : new.bold = old.bold := by
    rw [Bool.eq_iff_iff, ← head_bytes, ← head_bytes, h]
  refine ext ?_ hbold
  cases hnew : new.bold with
  | false =>
    rwa [bytes_plain hnew, bytes_plain (hbold ▸ hnew)] at h
  | true =>
    rw [bytes_bold hnew, bytes_bold (hbold ▸ hnew)] at h
    exact List.append_cancel_left (List.append_cancel_right h)

/-- The first difference is one of the texts, if both are in reverse video. -/
lemma common_bytes (hne : new ≠ old) : common new.bytes old.bytes =
    if new.bold = true ∧ old.bold = true then SOlen + new.kept old else new.kept old := by
  cases hnew : new.bold with
  | false =>
    rw [if_neg (fun h => Bool.false_ne_true h.1), kept, hnew, bytes_plain hnew]
    cases hold : old.bold with
    | false => rw [if_pos rfl, bytes_plain hold]
    | true =>
      rw [if_neg Bool.false_ne_true, bytes_bold hold]
      cases htext : new.text with
      | nil => rfl
      | cons c text =>
        refine if_neg fun heq : c = '\x1b' => ?_
        exact new.escape_not_mem (by rw [htext, heq]; exact List.mem_cons_self)
  | true =>
    rw [kept, hnew, bytes_bold hnew]
    cases hold : old.bold with
    | false =>
      rw [if_neg (fun h => Bool.false_ne_true h.2), if_neg (fun h => Bool.false_ne_true h.symm),
        bytes_plain hold]
      cases htext : old.text with
      | nil => exact common_nil
      | cons c text =>
        refine if_neg fun heq : '\x1b' = c => ?_
        exact old.escape_not_mem (by rw [htext, heq]; exact List.mem_cons_self)
    | true =>
      rw [if_pos ⟨rfl, rfl⟩, if_pos rfl, bytes_bold hold, List.append_assoc, List.append_assoc,
        common_append]
      refine congrArg (SOlen + ·)
        (common_stop new.escape_not_mem old.escape_not_mem fun htext => ?_)
      exact hne (ext htext (hnew.trans hold.symm))

end Message

namespace Ed

variable {s : Ed} {m : StatusLine} {old new : Message}

@[simp] lemma with_status_displayed : (s.with_status m).displayed_buffer = m.displayed_buffer := by
  rw [with_status]
  split <;> rfl

@[simp] lemma with_status_line_input : (s.with_status m).line_input = m.line_input := by
  rw [with_status]
  split <;> rfl

/-- Where the cursor is left. -/
def leave_cursor (s : Ed) (m : StatusLine) : List Char :=
  if m.line_input then [] else s.place_cursor s.crow s.ccol

lemma place_cursor_neg {row col : ℤ} (h : col ≤ 0) :
    s.place_cursor row col = s.place_cursor row 0 := by
  rcases h.lt_or_eq with hlt | rfl
  · rw [place_cursor, place_cursor, if_pos hlt, if_neg (lt_irrefl 0)]
  · rfl

/-- A plain message is cut off. -/
lemma cut_off_plain {text : List Char} {k : ℕ} (hk : k ≤ text.length) :
    s.cut_off text (text.drop k) false =
      if k ≤ s.columns then some ((text.drop k).take (s.columns - k)) else none := by
  have hlength : (text.drop k).length = text.length - k := List.length_drop
  rw [cut_off, hlength, show text.length - (text.length - k) = k by omega]
  simp only [Bool.false_eq_true, if_false, false_and, Nat.not_lt_zero, Nat.sub_zero, false_or,
    List.append_nil, Option.map_id']
  by_cases hwide : s.columns < text.length
  · rw [if_pos hwide, fwrite, hlength]
    by_cases hcut : k ≤ s.columns
    · rw [if_pos hcut, if_pos (by omega), show ((s.columns : ℤ) - k).toNat = s.columns - k by omega]
    · rw [if_neg hcut, if_neg (by omega)]
  · rw [if_neg hwide, if_pos (by omega), List.take_of_length_le (by omega)]

section Bold

variable {text : List Char}

lemma length_bold : (SOs ++ text ++ SOn).length = text.length + 2 * SOlen := by
  rw [List.length_append, List.length_append, SOs, SOn, SOlen]
  simp only [List.length_cons, List.length_nil]
  omega

lemma drop_bold {k : ℕ} (hk : k ≤ text.length) :
    (SOs ++ text ++ SOn).drop (SOlen + k) = text.drop k ++ SOn := by
  rw [List.append_assoc, List.drop_append, List.drop_eq_nil_of_le (by rw [SOs, SOlen]; simp),
    List.nil_append, show SOlen + k - SOs.length = k by rw [SOlen, SOs]; simp,
    List.drop_append_of_le_length hk]

lemma drop_bold_text : (SOs ++ text ++ SOn).drop (text.length + SOlen) = SOn := by
  rw [Nat.add_comm, drop_bold le_rfl, List.drop_length, List.nil_append]

/-- So is the text of one in reverse video. -/
lemma cut_off_bold {k : ℕ} (hk : k ≤ text.length) :
    s.cut_off (SOs ++ text ++ SOn) (text.drop k ++ SOn) true =
      if k ≤ s.columns then some ((text.drop k).take (s.columns - k) ++ SOn) else none := by
  have hlength : (text.drop k ++ SOn).length = text.length - k + SOlen := by
    rw [List.length_append, List.length_drop]
    rfl
  rw [cut_off, hlength, length_bold]
  dsimp only
  rw [if_pos rfl, if_pos rfl]
  by_cases hwide : s.columns < text.length
  · rw [if_pos (by omega), if_pos ⟨rfl, by omega⟩, fwrite, hlength,
      show text.length + 2 * SOlen - SOlen = text.length + SOlen by omega, drop_bold_text]
    by_cases hcut : k ≤ s.columns
    · rw [if_pos hcut, if_pos (by push_cast; omega), Option.map_some,
        show ((s.columns + SOlen : ℕ) - (text.length + 2 * SOlen - (text.length - k + SOlen) : ℕ) :
          ℤ).toNat = s.columns - k by omega,
        List.take_append_of_le_length (by rw [List.length_drop]; omega)]
    · rw [if_neg hcut, if_neg (by push_cast; omega)]
      rfl
  · rw [if_neg (by omega), if_pos (by omega),
      List.take_of_length_le (l := text.drop k) (by rw [List.length_drop]; omega)]

lemma cut_off_whole : s.cut_off (SOs ++ text ++ SOn) (SOs ++ text ++ SOn) true =
    some (SOs ++ text.take s.columns ++ SOn) := by
  rw [cut_off, length_bold, Nat.sub_self]
  dsimp only
  rw [if_pos rfl, if_pos rfl]
  by_cases hwide : s.columns < text.length
  · rw [if_pos (by omega), if_pos ⟨rfl, by omega⟩, fwrite, length_bold,
      show text.length + 2 * SOlen - SOlen = text.length + SOlen by omega, drop_bold_text,
      if_pos (by push_cast; omega), Option.map_some,
      show ((s.columns + SOlen : ℕ) - (0 : ℕ) : ℤ).toNat = SOs.length + s.columns by
        rw [SOs, SOlen]; simp only [List.length_cons, List.length_nil]; omega,
      List.append_assoc, List.take_length_add_append, List.take_append_of_le_length hwide.le]
  · rw [if_neg (by omega), List.take_of_length_le (by omega)]

end Bold

/-- A new message is written from the first difference on, up to the last column; or, if the
difference lies behind it, from the memory behind the buffer. -/
theorem show_status_line_eq (hstatus : (s.with_status m).status_buffer = new.bytes)
    (hdisplayed : m.displayed_buffer = old.bytes) (hne : new ≠ old) :
    s.show_status_line m =
      if new.kept old ≤ s.columns then
        some (s.place_cursor (s.rows - 1) (new.kept old) ++ Ceol ++ (if new.bold then SOs else []) ++
          (new.text.drop (new.kept old)).take (s.columns - new.kept old) ++
          (if new.bold then SOn else []) ++ s.leave_cursor m,
          { s.with_status m with displayed_buffer := new.bytes })
      else none := by
  obtain ⟨c, hc⟩ : ∃ c, common new.bytes old.bytes = c := ⟨_, rfl⟩
  have hle : c ≤ new.bytes.length := hc ▸ common_le.1
  have hunchanged : new.bytes.length - (new.bytes.drop c).length = c := by
    rw [List.length_drop]
    omega
  have hcopied : old.bytes.take c ++ new.bytes.drop c = new.bytes := by
    rw [← hc, ← take_common, List.take_append_drop]
  have hbold : decide (new.bytes.head? = SOs.head?) = new.bold := by
    rw [Bool.eq_iff_iff, decide_eq_true_iff, Message.head_bytes]
  have hkept := new.kept_le old
  have hcommon := hc ▸ Message.common_bytes hne
  have hrun : s.show_status_line m =
      (s.cut_off new.bytes (new.bytes.drop c) new.bold).map fun rest =>
        ((if c ≠ 0 ∧ new.bold = true then
            s.place_cursor (s.rows - 1) (if new.bold = true then (c : ℤ) - SOlen else c) ++ Ceol ++
              new.bytes.take SOlen
          else s.place_cursor (s.rows - 1) (if new.bold = true then (c : ℤ) - SOlen else c) ++ Ceol) ++
            rest ++ s.leave_cursor m, { s.with_status m with displayed_buffer := new.bytes }) := by
    rw [show_status_line]
    dsimp only
    rw [hstatus, with_status_displayed, hdisplayed, with_status_line_input, scompare_eq,
      if_neg (mt Message.bytes_inj hne), hc]
    dsimp only
    rw [hunchanged, hcopied, hbold]
    rfl
  rw [hrun]
  cases hnew : new.bold with
  | false =>
    rw [hnew, if_neg (fun h => Bool.false_ne_true h.1)] at hcommon
    simp only [Bool.false_eq_true, if_false, and_false, List.append_nil]
    rw [new.bytes_plain hnew, hcommon, cut_off_plain hkept]
    split
    · rfl
    · rfl
  | true =>
    simp only [if_true, and_true]
    rw [hnew] at hcommon
    cases hold : old.bold with
    | false =>
      rw [hold, if_neg (fun h => Bool.false_ne_true h.2)] at hcommon
      have hzero : new.kept old = 0 := by
        rw [Message.kept, hnew, hold]
        exact if_neg fun h => Bool.false_ne_true h.symm
      rw [hzero] at hcommon ⊢
      rw [hcommon, List.drop_zero, List.drop_zero, new.bytes_bold hnew, cut_off_whole,
        if_pos (Nat.zero_le _), if_neg (not_not.mpr rfl), place_cursor_neg (by rw [SOlen]; omega)]
      simp only [Option.map_some, List.append_assoc, Nat.sub_zero, Nat.cast_zero]
    | true =>
      rw [hold, if_pos ⟨rfl, rfl⟩] at hcommon
      rw [hcommon, new.bytes_bold hnew, drop_bold hkept, cut_off_bold hkept,
        if_pos (by rw [SOlen]; omega), show ((SOlen + new.kept old : ℕ) : ℤ) - SOlen = new.kept old by
          push_cast; ring]
      split
      · simp only [Option.map_some, List.append_assoc]
        rfl
      · rfl

/-- Nothing but the cursor is changed for the same message. -/
lemma show_status_line_same (hstatus : (s.with_status m).status_buffer = new.bytes)
    (hdisplayed : m.displayed_buffer = new.bytes) :
    ∃ row col, s.show_status_line m = some (s.place_cursor row col, s.with_status m) := by
  rw [show_status_line]
  dsimp only
  rw [hstatus, with_status_displayed, hdisplayed, scompare_eq, if_pos rfl]
  dsimp only
  split
  · exact ⟨_, _, rfl⟩
  · exact ⟨_, _, rfl⟩

/-! ## What the terminal shows -/

section Shown

variable {t : Term}

lemma feed_place_cursor (ht : t.escape = .text) (hrows : t.rows = s.rows)
    (hcols : t.columns = s.columns) (hr : 0 < s.rows) (hc : 0 < s.columns) (row col : ℤ) :
    t.feed (s.place_cursor row col) = t.goto row.toNat col.toNat := by
  rw [place_cursor, Term.feed_goto ht, Term.goto, Term.goto, hrows, hcols]
  congr 1
  · split <;> split <;> omega
  · split <;> split <;> omega

/-- The bottom row after a message has been written from column `k` on. -/
lemma cells_written (ht : t.escape = .text) (hrows : t.rows = s.rows)
    (hcols : t.columns = s.columns) (hr : 0 < s.rows) (hc : 0 < s.columns) {k : ℕ}
    (hk : k ≤ s.columns) {w : List Char} (hw : ∀ c ∈ w, Visible c)
    (hlength : k + w.length ≤ s.columns)
    (bold : Bool) :
    ∃ t' : Term, t.feed (s.place_cursor (s.rows - 1) k ++ Ceol ++ (if bold then SOs else []) ++ w ++
        (if bold then SOn else []) ++ s.leave_cursor m) = t' ∧ t'.columns = t.columns ∧
      ∀ j < s.columns, t'.cells (s.rows - 1) j =
        if k ≤ j ∧ j < k + w.length then ⟨w.getD (j - k) ' ', bold || t.standout⟩
        else if min k (s.columns - 1) ≤ j then Cell.blank
        else t.cells (s.rows - 1) j := by
  obtain ⟨t₁, ht₁⟩ : ∃ t₁, (t.goto (s.rows - 1) k).erase_line = t₁ := ⟨_, rfl⟩
  have hplaced : t.feed (s.place_cursor (s.rows - 1) k ++ Ceol) = t₁ := by
    rw [Term.feed_append, feed_place_cursor ht hrows hcols hr hc, ← ht₁, Ceol,
      Term.feed_erase_line (by exact ht)]
    congr 2
    omega
  have hrow₁ : t₁.row = s.rows - 1 := by
    rw [← ht₁]
    change min (s.rows - 1) (t.rows - 1) = _
    omega
  have hcol₁ : t₁.col = min k (s.columns - 1) := by
    rw [← ht₁, ← hcols]
    rfl
  have hcells₁ : ∀ j, t₁.cells (s.rows - 1) j =
      if min k (s.columns - 1) ≤ j then Cell.blank else t.cells (s.rows - 1) j := by
    intro j
    rw [← ht₁]
    refine if_congr ?_ rfl rfl
    change s.rows - 1 = min (s.rows - 1) (t.rows - 1) ∧
      min (min k (t.columns - 1)) (t.columns - 1) ≤ j ↔ _
    omega
  have htext₁ : t₁.escape = .text := by rw [← ht₁]; exact ht
  have hstandout₁ : t₁.standout = t.standout := by rw [← ht₁]; rfl
  have hcols₁ : t₁.columns = s.columns := by rw [← ht₁, ← hcols]; rfl
  have hrows₁ : t₁.rows = s.rows := by rw [← ht₁, ← hrows]; rfl
  have hswitched : t₁.feed (if bold then SOs else []) =
      { t₁ with standout := bold || t₁.standout } := by
    cases bold with
    | false => rfl
    | true => exact Term.feed_standout htext₁
  have hrun : ∃ t₂ : Term, Term.feed { t₁ with standout := bold || t₁.standout } w = t₂ ∧
      t₂.escape = .text ∧ t₂.rows = s.rows ∧ t₂.columns = s.columns ∧
      ∀ j, t₂.cells (s.rows - 1) j =
        if k ≤ j ∧ j < k + w.length then ⟨w.getD (j - k) ' ', bold || t.standout⟩
        else t₁.cells (s.rows - 1) j := by
    rcases hk.lt_or_eq with hlt | rfl
    · refine ⟨_, Term.feed_run htext₁ hw ?_, htext₁, hrows₁, hcols₁, fun j => ?_⟩
      · change t₁.col + w.length ≤ t₁.columns
        omega
      · dsimp only
        rw [hstandout₁, hrow₁, hcol₁, min_eq_left (by omega)]
        exact if_congr (and_iff_right rfl) rfl rfl
    · obtain rfl : w = [] := List.eq_nil_of_length_eq_zero (by omega)
      refine ⟨_, rfl, htext₁, hrows₁, hcols₁, fun j => ?_⟩
      rw [if_neg (by rw [List.length_nil]; omega)]
      rfl
  obtain ⟨t₂, hrun, htext₂, hrows₂, hcols₂, hcells₂⟩ := hrun
  have hend : ∃ t₃ : Term, t₂.feed (if bold then SOn else []) = t₃ ∧ t₃.cells = t₂.cells ∧
      t₃.escape = .text ∧ t₃.rows = s.rows ∧ t₃.columns = s.columns := by
    cases bold with
    | false => exact ⟨t₂, rfl, rfl, htext₂, hrows₂, hcols₂⟩
    | true => exact ⟨_, Term.feed_normal htext₂, rfl, htext₂, hrows₂, hcols₂⟩
  obtain ⟨t₃, hend, hcells₃, htext₃, hrows₃, hcols₃⟩ := hend
  have hleave : ∃ t₄ : Term, t₃.feed (s.leave_cursor m) = t₄ ∧ t₄.cells = t₃.cells ∧
      t₄.columns = s.columns := by
    rw [leave_cursor]
    split
    · exact ⟨t₃, rfl, rfl, hcols₃⟩
    · exact ⟨_, feed_place_cursor htext₃ hrows₃ hcols₃ hr hc _ _, rfl, hcols₃⟩
  obtain ⟨t₄, hleave, hcells₄, hcols₄⟩ := hleave
  refine ⟨t₄, ?_, hcols₄.trans hcols.symm, fun j _ => ?_⟩
  · rw [Term.feed_append, Term.feed_append, Term.feed_append, Term.feed_append, hplaced, hswitched,
      hrun, hend, hleave]
  · rw [hcells₄, hcells₃, hcells₂, hcells₁]

end Shown

end Ed

/-- The first difference is on the screen, and nothing plain is written while the terminal is in
reverse video; or it is just behind the last column, which shows a blank.  Or else there is none. -/
def Seen (new old : Message) (columns : ℕ) (standout : Bool) : Prop :=
  new = old ∨
  (new.kept old < columns ∧
    (new.bold = true ∨ standout = false ∨ new.text.length ≤ new.kept old)) ∨
  (new.bold = false ∧ new.kept old = columns ∧ new.text.getD (columns - 1) ' ' = ' ')

/-- What is left on the row shows both messages. -/
lemma Message.cell_kept {old new : Message} {j : ℕ} (hj : j < new.kept old) :
    old.cell j = new.cell j := by
  rw [Message.kept] at hj
  split at hj
  · rename_i hbold
    have hle := @common_le new.text old.text
    rw [Message.cell, Message.cell, if_pos (by omega), if_pos (by omega), getD_common hj, hbold]
  · exact absurd hj (Nat.not_lt_zero j)

namespace Ed

variable {s : Ed} {m : StatusLine} {old new : Message} {t : Term}

/-- A row on which a message has been written from the first difference on shows it, if that is on
the screen. -/
lemma shown_iff_seen {row columns : ℕ} {standout : Bool} {shown : ℕ → Cell} (hcolumns : 2 ≤ columns)
    (heq : new ≠ old) {k : ℕ} (hk : new.kept old = k) (hle : k ≤ columns)
    (hold : ∀ j < columns, t.cells row j = old.cell j)
    (hcells : ∀ j < columns, shown j =
      if k ≤ j ∧ j < k + ((new.text.drop k).take (columns - k)).length then
        ⟨((new.text.drop k).take (columns - k)).getD (j - k) ' ', new.bold || standout⟩
      else if min k (columns - 1) ≤ j then Cell.blank
      else t.cells row j) :
    (∀ j < columns, shown j = new.cell j) ↔ Seen new old columns standout := by
  have hkept := new.kept_le old
  have hwritten : ∀ j, k ≤ j → j < columns → j < new.text.length →
      shown j = ⟨new.text.getD j ' ', new.bold || standout⟩ := by
    intro j hkj hj hlength
    rw [hcells j hj, if_pos ⟨hkj, by rw [List.length_take, List.length_drop]; omega⟩]
    congr 1
    rw [List.getD_eq_getElem?_getD, List.getElem?_take_of_lt (by omega), List.getElem?_drop,
      Nat.add_sub_cancel' hkj, List.getD_eq_getElem?_getD]
  have hlast : k = columns → shown (columns - 1) = Cell.blank := by
    intro hend
    rw [hcells _ (by omega), if_neg (by omega), if_pos (by omega)]
  have hrest : ∀ j < columns, j < min k (columns - 1) ∨ k ≤ j ∧ new.text.length ≤ j →
      shown j = new.cell j := by
    intro j hj hcase
    rw [hcells j hj, if_neg (by rw [List.length_take, List.length_drop]; omega)]
    rcases hcase with hbefore | ⟨hkj, hbehind⟩
    · rw [if_neg (by omega), hold j (by omega), @Message.cell_kept old new j (by omega)]
    · rw [if_pos (by omega), Message.cell, if_neg (by omega)]
  constructor
  · intro hall
    rcases hle.lt_or_eq with hlt | hend
    · refine .inr (.inl ⟨by omega, ?_⟩)
      by_contra hno
      push Not at hno
      obtain ⟨hplain, hso, hmore⟩ := hno
      have hcell := hall k hlt
      rw [hwritten k le_rfl hlt (by omega), Message.cell, if_pos (by omega)] at hcell
      have hbold := congrArg Cell.standout hcell
      dsimp only at hbold
      rw [Bool.eq_false_of_not_eq_true hplain, Bool.false_or] at hbold
      exact hso hbold
    · have hcell := hall (columns - 1) (by omega)
      rw [hlast hend, Message.cell, if_pos (by omega), Cell.blank, Cell.mk.injEq] at hcell
      exact .inr (.inr ⟨hcell.2.symm, by omega, hcell.1.symm⟩)
  · rintro (hsame | ⟨hlt, hwhy⟩ | ⟨hplain, hend, hblank⟩) j hj
    · exact absurd hsame heq
    · by_cases hin : k ≤ j ∧ j < new.text.length
      · rw [hwritten j hin.1 hj hin.2, Message.cell, if_pos hin.2]
        congr 1
        rcases hwhy with hbold | hnormal | hless
        · rw [hbold, Bool.true_or]
        · rw [hnormal, Bool.or_false]
        · omega
      · exact hrest j hj (by omega)
    · by_cases hj' : j = columns - 1
      · rw [hj', hlast (by omega), Message.cell, if_pos (by omega), hblank, hplain]
        rfl
      · exact hrest j hj (by omega)

/-- **The status line is brought up to date** if the first difference is on the screen. -/
theorem show_status_line_shows (hrows : 2 ≤ s.rows) (hcolumns : 2 ≤ s.columns)
    (htrows : t.rows = s.rows) (htcolumns : t.columns = s.columns) (htext : t.escape = .text)
    (hstatus : (s.with_status m).status_buffer = new.bytes)
    (hdisplayed : m.displayed_buffer = old.bytes) (hshown : old.ShownBy t (s.rows - 1)) :
    (∃ out m', s.show_status_line m = some (out, m') ∧ new.ShownBy (t.feed out) (s.rows - 1) ∧
      m'.status_buffer = new.bytes ∧ m'.displayed_buffer = m'.status_buffer) ↔
    Seen new old s.columns t.standout := by
  by_cases heq : new = old
  · subst heq
    obtain ⟨row, col, hrun⟩ := show_status_line_same hstatus hdisplayed
    refine iff_of_true ⟨_, _, hrun, ?_, hstatus, ?_⟩ (.inl rfl)
    · rw [feed_place_cursor htext htrows htcolumns (by omega) (by omega)]
      exact hshown
    · rw [with_status_displayed, hdisplayed, hstatus]
  · have hkept := new.kept_le old
    obtain ⟨k, hk⟩ : ∃ k, new.kept old = k := ⟨_, rfl⟩
    have hrun := show_status_line_eq hstatus hdisplayed heq
    rw [hk] at hkept hrun
    by_cases hle : k ≤ s.columns
    · rw [if_pos hle] at hrun
      obtain ⟨t', hfeed, hcols', hcells⟩ := cells_written (m := m) htext htrows htcolumns (by omega)
        (by omega) hle (w := (new.text.drop k).take (s.columns - k))
        (fun c hc => new.visible c (List.mem_of_mem_drop (List.mem_of_mem_take hc)))
        (by rw [List.length_take]; omega) new.bold
      have hshows : (∃ out m', s.show_status_line m = some (out, m') ∧
          new.ShownBy (t.feed out) (s.rows - 1) ∧ m'.status_buffer = new.bytes ∧
          m'.displayed_buffer = m'.status_buffer) ↔
          ∀ j < s.columns, t'.cells (s.rows - 1) j = new.cell j := by
        constructor
        · rintro ⟨out, m', hsome, hnew, -⟩ j hj
          rw [hrun] at hsome
          cases hsome
          rw [hfeed] at hnew
          exact hnew j (by omega)
        · intro hall
          refine ⟨_, _, hrun, ?_, hstatus, hstatus.symm⟩
          rw [hfeed]
          exact fun j hj => hall j (by omega)
      exact hshows.trans (shown_iff_seen hcolumns heq hk hle
        (fun j hj => hshown j (by omega)) hcells)
    · rw [if_neg hle] at hrun
      refine iff_of_false ?_ ?_
      · rintro ⟨out, m', hsome, -⟩
        rw [hrun] at hsome
        cases hsome
      · rintro (hsame | ⟨hlt, -⟩ | ⟨-, hend, -⟩)
        · exact heq hsame
        · omega
        · omega

end Ed

/-- A terminal whose bottom row shows a message. -/
def Message.on_terminal (msg : Message) (rows columns : ℕ) : Term :=
  { rows := rows
    columns := columns
    cells := fun r c => if r = rows - 1 then msg.cell c else Cell.blank
    row := 0
    col := 0
    standout := false
    escape := .text }

lemma Message.shown_on_terminal (msg : Message) (rows columns : ℕ) :
    msg.ShownBy (msg.on_terminal rows columns) (rows - 1) := by
  intro j _
  rw [on_terminal]
  exact if_pos rfl

/-- The globals when `old` is shown and `new` is to be. -/
def Message.after (new old : Message) : StatusLine :=
  { status_buffer := new.bytes
    displayed_buffer := old.bytes
    line_input := false
    last_file_modified := -1
    format_edit_status__tot := 0 }

/-- The visible characters of a text as a message. -/
def Message.of (text : List Char) (bold : Bool) : Message :=
  ⟨text.filter fun c => Visible c, bold, fun _ hc => of_decide_eq_true (List.mem_filter.mp hc).2⟩

/-- An error message that is wider than the screen, after a plain one. -/
theorem show_status_line_shows_error :
    ∃ out m', (on_screen_of ['a', '\n'] 24 4 8).show_status_line
        (Message.after (.of ['e', 'r', 'r', 'o', 'r'] true) (.of ['a', '1'] false)) =
          some (out, m') ∧
      (Message.of ['e', 'r', 'r', 'o', 'r'] true).ShownBy
        ((Message.on_terminal (.of ['a', '1'] false) 24 4).feed out) 23 ∧
      m'.status_buffer = (Message.of ['e', 'r', 'r', 'o', 'r'] true).bytes ∧
      m'.displayed_buffer = m'.status_buffer := by
  refine (Ed.show_status_line_shows (s := on_screen_of ['a', '\n'] 24 4 8) (by decide) (by decide)
    rfl rfl rfl rfl rfl (Message.shown_on_terminal _ 24 4)).mpr (.inr (.inl ⟨by decide, .inl rfl⟩))

/-- Two messages that differ behind the last column: the last column is erased.  A column further
on, and the memory behind the buffer is written. -/
theorem show_status_line_erases :
    (((on_screen_of ['a', '\n'] 24 4 8).show_status_line
      (Message.after (.of ['a', 'b', 'c', 'd', 'Y'] false) (.of ['a', 'b', 'c', 'd', 'X'] false))).map
        fun r => ((Message.on_terminal (.of ['a', 'b', 'c', 'd', 'X'] false) 24 4).feed r.1).cells 23 3) =
      some Cell.blank ∧
    (Message.of ['a', 'b', 'c', 'd', 'Y'] false).cell 3 = ⟨'d', false⟩ ∧
    ((on_screen_of ['a', '\n'] 24 4 8).show_status_line
      (Message.after (.of ['a', 'b', 'c', 'd', 'e', 'Y'] false)
        (.of ['a', 'b', 'c', 'd', 'e', 'X'] false))).isNone := by
  refine ⟨?_, ?_, ?_⟩
  · decide +kernel
  · decide
  · decide +kernel

end EspLinux.Vi
