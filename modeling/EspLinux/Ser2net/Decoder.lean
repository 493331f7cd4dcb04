import EspLinux.Lib.Sift
import EspLinux.Ser2net.Telnet

/-!
# The telnet decoder and its arrays

`process_telnet_data` works in place: what belongs to a command is taken out of the data by moving
up what follows it, and is stored in the array `telnet_cmd`, whose last byte always holds the last
byte received when a sub-option is too long for it.  The decoder sifts the stream byte by byte and
keeps all it needs in `telnet_data_s`, so that the cuts between the calls make no difference.
-/

namespace EspLinux.Ser2net

open EspLinux.Lib

/-! ## The arrays -/

/-- `telnet_data_s`, as far as decoding goes.  `handled` are the commands passed to
`handle_telnet_cmd`, and `stored` the indices at which `telnet_cmd` has been written. -/
structure Decoder where
  telnet_cmd : ℕ → UInt8
  telnet_cmd_pos : ℕ
  suboption_iac : Bool
  handled : List (List UInt8)
  stored : List ℕ

namespace Decoder

/-- After `telnet_init`, whatever is in the array. -/
def init (telnet_cmd : ℕ → UInt8) : Decoder :=
  { telnet_cmd := telnet_cmd, telnet_cmd_pos := 0, suboption_iac := false, handled := [],
    stored := [] }

/-- The first `telnet_cmd_pos` bytes of the array. -/
def cmd (td : Decoder) : List UInt8 := (List.range td.telnet_cmd_pos).map td.telnet_cmd

/-- `td->telnet_cmd[td->telnet_cmd_pos] = b` and `td->telnet_cmd_pos++`. -/
def push (td : Decoder) (b : UInt8) : Decoder :=
  { td with
    telnet_cmd := Function.update td.telnet_cmd td.telnet_cmd_pos b
    telnet_cmd_pos := td.telnet_cmd_pos + 1
    stored := td.stored ++ [td.telnet_cmd_pos] }

/-- `handle_telnet_cmd(td)` and `td->telnet_cmd_pos = 0`. -/
def handle (td : Decoder) : Decoder :=
  { td with handled := td.handled ++ [td.cmd], telnet_cmd_pos := 0 }

/-- `td->telnet_cmd_pos--` -/
def pop (td : Decoder) : Decoder := { td with telnet_cmd_pos := td.telnet_cmd_pos - 1 }

/-- A byte in a sub-option. -/
def suboption (td : Decoder) (tn_byte : UInt8) : Decoder :=
  if td.suboption_iac then
    let td :=
      if tn_byte = 240 then td.pop.handle
      else if tn_byte = 255 then td
      else td.pop
    { td with suboption_iac := false }
  else
    let td :=
      if MAX_TELNET_CMD_SIZE < td.telnet_cmd_pos then { td with telnet_cmd_pos := MAX_TELNET_CMD_SIZE }
      else td
    let td := td.push tn_byte
    if tn_byte = 255 then { td with suboption_iac := true } else td

/-- One turn of the loop of `process_telnet_data`: the state afterwards, and whether the byte is
left where it is. -/
def byte (td : Decoder) (tn_byte : UInt8) : Decoder × Bool :=
  if td.telnet_cmd_pos ≠ 0 then
    if td.telnet_cmd_pos = 1 ∧ tn_byte = 255 then ({ td with telnet_cmd_pos := 0 }, true)
    else if td.telnet_cmd_pos = 1 then
      let td := td.push tn_byte
      (if tn_byte < 250 then td.handle else td, false)
    else if td.telnet_cmd_pos = 2 then
      let td := td.push tn_byte
      (if td.telnet_cmd 1 ≠ 250 then td.handle else td, false)
    else (td.suboption tn_byte, false)
  else if tn_byte = 255 then ({ td.push 255 with suboption_iac := false }, false)
  else (td, true)

end Decoder

/-- `delete_char`: the data and its length afterwards. -/
def delete_char (data : List UInt8) (pos len : ℕ) : List UInt8 × ℕ :=
  (moveUp (len - 1 - pos) pos data, len - 1)

namespace Decoder

/-- The loop of `process_telnet_data` from `i` on, with `n` bytes to go: the data, its length and
the state afterwards. -/
def loop : ℕ → ℕ → List UInt8 → Decoder → List UInt8 × ℕ × Decoder
  | 0, i, data, td => (data, i, td)
  | n + 1, i, data, td =>
    let r := td.byte (data.getD i 0)
    if r.2 then loop n (i + 1) data r.1
    else loop n i (delete_char data i (i + n + 1)).1 r.1

/-- `process_telnet_data(data, len, td)` -/
def process_telnet_data (data : List UInt8) (len : ℕ) (td : Decoder) : List UInt8 × ℕ × Decoder :=
  loop len 0 data td

/-- What a call leaves of the bytes that were read, and the state afterwards. -/
def decode (td : Decoder) (read : List UInt8) : List UInt8 × Decoder :=
  let r := process_telnet_data read read.length td
  (r.1.take r.2.1, r.2.2)

/-- What successive calls leave, and the state after the last one. -/
def decode_all (td : Decoder) : List (List UInt8) → List UInt8 × Decoder
  | [] => ([], td)
  | read :: reads =>
    let r := td.decode read
    let rest := r.2.decode_all reads
    (r.1 ++ rest.1, rest.2)

/-! ## In place -/

variable {td : Decoder} {b : UInt8}

/-- The loop keeps what it has passed and sifts what is to come; what is behind the data does not
matter. -/
lemma loop_eq (front back rest : List UInt8) (td : Decoder) :
    ∃ rest', loop back.length front.length (front ++ back ++ rest) td =
      (front ++ (sift byte td back).1 ++ rest',
        front.length + (sift byte td back).1.length, (sift byte td back).2) := by
  induction back generalizing front rest td with
  | nil => exact ⟨rest, by simp [loop, sift]⟩
  | cons b back ih =>
    have hget : (front ++ b :: back ++ rest).getD front.length 0 = b := by
      simp [List.getD_eq_getElem?_getD]
    rw [List.length_cons, loop, hget]
    cases hpass : (td.byte b).2 with
    | true =>
      obtain ⟨rest', hloop⟩ := ih (front ++ [b]) rest (td.byte b).1
      refine ⟨rest', ?_⟩
      have hlen : (front ++ [b]).length = front.length + 1 := by simp
      rw [hlen] at hloop
      rw [sift_cons_of_passes hpass, if_pos rfl]
      simpa [Nat.add_assoc, Nat.add_comm 1] using hloop
    | false =>
      obtain ⟨c, hmove⟩ := moveUp_eq front back b rest
      obtain ⟨rest', hloop⟩ := ih front (c :: rest) (td.byte b).1
      refine ⟨rest', ?_⟩
      have hn : front.length + back.length + 1 - 1 - front.length = back.length := by omega
      rw [sift_cons_of_not_passes hpass, if_neg (by simp), delete_char, hn, hmove]
      exact hloop

/-- A call sifts the bytes that were read. -/
lemma decode_eq (td : Decoder) (read : List UInt8) : td.decode read = sift byte td read := by
  obtain ⟨rest', hloop⟩ := loop_eq [] read [] td
  simp only [List.nil_append, List.append_nil, List.length_nil, Nat.zero_add] at hloop
  rw [decode, process_telnet_data, hloop]
  simp

lemma decode_all_eq (td : Decoder) (reads : List (List UInt8)) :
    td.decode_all reads = siftPieces byte td reads := by
  induction reads generalizing td with
  | nil => rfl
  | cons read reads ih => rw [decode_all, siftPieces, decode_eq, ih]

/-! ## The commands as lists -/

/-- The command so far as a list. -/
def view (td : Decoder) : TelnetData :=
  { telnet_cmd := td.cmd, suboption_iac := td.suboption_iac, handled := td.handled }

lemma cmd_update {f : ℕ → UInt8} {p n : ℕ} (h : n ≤ p) :
    (List.range n).map (Function.update f p b) = (List.range n).map f := by
  refine List.map_congr_left fun i hi => ?_
  have hlt := List.mem_range.mp hi
  exact Function.update_of_ne (by omega) _ _

lemma cmd_push : (td.push b).cmd = td.cmd ++ [b] := by
  rw [cmd, push, List.range_succ, List.map_append, cmd_update (le_refl _)]
  simp [cmd]

lemma view_push : (td.push b).view = td.view.store b := by
  rw [view, cmd_push]
  rfl

lemma view_handle : td.handle.view = td.view.handle := rfl

lemma view_pop (h : td.telnet_cmd_pos ≠ 0) :
    td.pop.view = { td.view with telnet_cmd := td.view.telnet_cmd.dropLast } := by
  obtain ⟨n, hn⟩ := Nat.exists_eq_succ_of_ne_zero h
  have hcmd : td.pop.cmd = td.cmd.dropLast := by
    rw [cmd, cmd, pop, hn, List.range_succ]
    simp
  rw [view, hcmd]
  rfl

/-- The first bytes of the array, in the order in which they were stored. -/
lemma cmd_eq_cons {n : ℕ} (h : td.telnet_cmd_pos = n + 1) :
    td.cmd = td.telnet_cmd 0 :: (List.range n).map fun i => td.telnet_cmd (i + 1) := by
  rw [cmd, h, List.range_succ_eq_map, List.map_cons, List.map_map]
  rfl

lemma length_cmd : td.cmd.length = td.telnet_cmd_pos := by simp [cmd]

/-- The last place of the array is used again when the command is too long. -/
lemma view_cut (td : Decoder) :
    (if MAX_TELNET_CMD_SIZE < td.telnet_cmd_pos then
        { td with telnet_cmd_pos := MAX_TELNET_CMD_SIZE } else td : Decoder).view =
      if MAX_TELNET_CMD_SIZE < td.view.telnet_cmd.length then
        { td.view with telnet_cmd := td.view.telnet_cmd.take MAX_TELNET_CMD_SIZE } else td.view := by
  have hlen : td.view.telnet_cmd.length = td.telnet_cmd_pos := length_cmd
  rw [hlen]
  by_cases h : MAX_TELNET_CMD_SIZE < td.telnet_cmd_pos
  · rw [if_pos h, if_pos h]
    have htake : (List.range MAX_TELNET_CMD_SIZE).map td.telnet_cmd =
        td.view.telnet_cmd.take MAX_TELNET_CMD_SIZE := by
      show _ = td.cmd.take MAX_TELNET_CMD_SIZE
      rw [cmd, ← List.map_take, List.take_range, Nat.min_eq_left h.le]
    rw [← htake]
    rfl
  · rw [if_neg h, if_neg h]

lemma view_suboption (h : 3 ≤ td.telnet_cmd_pos) :
    td.view.byte b = ((td.suboption b).view, false) := by
  obtain ⟨n, hn⟩ := Nat.exists_eq_add_of_le' h
  have hcmd : td.view.telnet_cmd = td.telnet_cmd 0 :: td.telnet_cmd 1 :: td.telnet_cmd 2 ::
      (List.range n).map fun i => td.telnet_cmd (i + 3) := by
    show td.cmd = _
    rw [cmd_eq_cons hn, List.range_succ_eq_map, List.map_cons, List.map_map, List.range_succ_eq_map,
      List.map_cons, List.map_map]
    rfl
  have hbyte : td.view.byte b =
      if td.view.suboption_iac then
        ({ (if b = 240 then { td.view with telnet_cmd := td.view.telnet_cmd.dropLast }.handle
            else if b = TN_IAC then td.view
            else { td.view with telnet_cmd := td.view.telnet_cmd.dropLast } : TelnetData) with
          suboption_iac := false }, false)
      else
        ({ (if MAX_TELNET_CMD_SIZE < td.view.telnet_cmd.length then
            { td.view with telnet_cmd := td.view.telnet_cmd.take MAX_TELNET_CMD_SIZE }
            else td.view : TelnetData).store b with suboption_iac := decide (b = TN_IAC) }, false) := by
    rw [TelnetData.byte]
    split
    all_goals rename_i heq
    all_goals rw [hcmd] at heq
    all_goals cases heq
  rw [hbyte, suboption, ← view_cut, ← view_pop (by omega), ← view_handle]
  have hview : td.view.suboption_iac = td.suboption_iac := rfl
  rw [hview]
  cases hiac : td.suboption_iac with
  | true =>
    rw [if_pos rfl, if_pos rfl]
    by_cases h240 : b = 240
    · simp only [if_pos h240]
      rfl
    · by_cases h255 : b = 255
      · simp only [if_neg h240, if_pos h255, if_pos (show b = TN_IAC from h255)]
        rfl
      · simp only [if_neg h240, if_neg h255, if_neg (show ¬ b = TN_IAC from h255)]
        rfl
  | false =>
    simp only [Bool.false_eq_true, if_false, ← view_push]
    by_cases h255 : b = 255
    · rw [if_pos h255, decide_eq_true (show b = TN_IAC from h255)]
      rfl
    · rw [if_neg h255, decide_eq_false (show ¬ b = TN_IAC from h255), ← hiac]
      split <;> rfl

/-- A turn of the loop works on the command as on a list. -/
lemma view_byte (td : Decoder) (b : UInt8) :
    td.view.byte b = ((td.byte b).1.view, (td.byte b).2) := by
  rcases hpos : td.telnet_cmd_pos with _ | _ | _ | n
  · have hcmd : td.cmd = [] := by
      rw [cmd, hpos]
      rfl
    have hview : td.view.telnet_cmd = [] := hcmd
    have hpush : (td.push 255).cmd = [TN_IAC] := by
      rw [cmd_push, hcmd]
      rfl
    have hbyte : td.view.byte b = if b = 255 then
        ({ td.view with telnet_cmd := [TN_IAC], suboption_iac := false }, false)
        else (td.view, true) := by
      rw [TelnetData.byte, hview]
      rfl
    rw [hbyte, byte, if_neg (not_not.mpr hpos), ← hpush]
    split <;> rfl
  · have hview : td.view.telnet_cmd = [td.telnet_cmd 0] := cmd_eq_cons hpos
    have hbyte : td.view.byte b = if b = 255 then ({ td.view with telnet_cmd := [] }, true)
        else if b < 250 then ((td.view.store b).handle, false) else (td.view.store b, false) := by
      rw [TelnetData.byte, hview]
      rfl
    have h0 : td.telnet_cmd_pos ≠ 0 := by omega
    have h1 : td.telnet_cmd_pos = 1 := hpos
    rw [hbyte, byte, if_pos h0]
    by_cases h255 : b = 255
    · rw [if_pos h255, if_pos ⟨h1, h255⟩]
      rfl
    · have hone : ¬ (td.telnet_cmd_pos = 1 ∧ b = 255) := fun h => h255 h.2
      rw [if_neg h255, if_neg hone, if_pos h1, ← view_push]
      dsimp only
      split <;> rfl
  · have hview : td.view.telnet_cmd = [td.telnet_cmd 0, td.telnet_cmd 1] := cmd_eq_cons hpos
    have hone : (td.push b).telnet_cmd 1 = td.telnet_cmd 1 :=
      Function.update_of_ne (by omega) _ _
    have hbyte : td.view.byte b = if td.telnet_cmd 1 ≠ 250 then ((td.view.store b).handle, false)
        else (td.view.store b, false) := by
      rw [TelnetData.byte, hview]
    have h0 : td.telnet_cmd_pos ≠ 0 := by omega
    have h1 : td.telnet_cmd_pos ≠ 1 := by omega
    have h2 : td.telnet_cmd_pos = 2 := hpos
    have hne : ¬ (td.telnet_cmd_pos = 1 ∧ b = 255) := fun h => h1 h.1
    rw [hbyte, byte, if_pos h0, if_neg hne, if_neg h1, if_pos h2, ← view_push]
    dsimp only
    rw [hone]
    split <;> rfl
  · rw [view_suboption (by omega), byte, if_pos (by omega), if_neg (by omega), if_neg (by omega),
      if_neg (by omega)]

/-- A call sifts the bytes as the decoder on lists does. -/
lemma decode_view (td : Decoder) (read : List UInt8) :
    Ser2net.process_telnet_data read td.view = ((td.decode read).1, (td.decode read).2.view) := by
  have hsift : ∀ td' : TelnetData, Ser2net.process_telnet_data read td' =
      sift (fun td b => td.byte b) td' read := by
    intro td'
    induction read generalizing td' with
    | nil => rfl
    | cons b read ih => rw [Ser2net.process_telnet_data, sift, ih]
  rw [hsift, decode_eq]
  exact sift_map view_byte

/-! ## The bounds -/

/-- The next byte is stored inside the array, but for the one of a sub-option that is too long, and
so was every byte before it. -/
structure Bounded (td : Decoder) : Prop where
  pos : td.telnet_cmd_pos ≤ MAX_TELNET_CMD_SIZE + 1
  stored : ∀ i ∈ td.stored, i < MAX_TELNET_CMD_SIZE + 1

namespace Bounded

lemma push (h : td.Bounded) (hpos : td.telnet_cmd_pos ≤ MAX_TELNET_CMD_SIZE) (b : UInt8) :
    (td.push b).Bounded := by
  refine ⟨Nat.succ_le_succ hpos, fun i hi => ?_⟩
  obtain hi | hi := List.mem_append.mp hi
  · exact h.stored i hi
  · rw [List.mem_singleton.mp hi]
    exact Nat.lt_succ_of_le hpos

lemma handle (h : td.Bounded) : td.handle.Bounded := ⟨Nat.zero_le _, h.stored⟩

lemma pop (h : td.Bounded) : td.pop.Bounded := ⟨(Nat.sub_le _ _).trans h.pos, h.stored⟩

lemma suboption (h : td.Bounded) (b : UInt8) : (td.suboption b).Bounded := by
  have hmax : MAX_TELNET_CMD_SIZE = 31 := rfl
  rw [Decoder.suboption]
  by_cases hiac : td.suboption_iac
  · rw [if_pos hiac]
    dsimp only
    split_ifs
    · exact ⟨h.pop.handle.pos, h.stored⟩
    · exact ⟨h.pos, h.stored⟩
    · exact ⟨h.pop.pos, h.stored⟩
  · rw [if_neg hiac]
    have hpush : ((if MAX_TELNET_CMD_SIZE < td.telnet_cmd_pos then
        { td with telnet_cmd_pos := MAX_TELNET_CMD_SIZE } else td : Decoder).push b).Bounded := by
      split
      · have hcut : ({ td with telnet_cmd_pos := MAX_TELNET_CMD_SIZE } : Decoder).Bounded :=
          ⟨Nat.le_succ _, h.stored⟩
        exact hcut.push (le_refl _) b
      · exact h.push (by omega) b
    dsimp only
    split
    · exact ⟨hpush.pos, hpush.stored⟩
    · exact hpush

lemma byte (h : td.Bounded) (b : UInt8) : (td.byte b).1.Bounded := by
  rw [Decoder.byte]
  have hmax : MAX_TELNET_CMD_SIZE = 31 := rfl
  by_cases h0 : td.telnet_cmd_pos ≠ 0
  · rw [if_pos h0]
    split_ifs with hiac h1 h250 h2
    · exact ⟨Nat.zero_le _, h.stored⟩
    · exact (h.push (by omega) b).handle
    · exact h.push (by omega) b
    · dsimp only
      split
      · exact (h.push (by omega) b).handle
      · exact h.push (by omega) b
    · exact h.suboption b
  · rw [if_neg h0]
    split_ifs
    · have hpush := h.push (by omega) 255
      exact ⟨hpush.pos, hpush.stored⟩
    · exact h

end Bounded

/-! ## The stream -/

/-- The cuts between the reads make no difference to what is left and what is handled, every byte of
a command is stored inside the array, and decoding undoes the doubling of 255 without handling a
command. -/
theorem decoding_ignores_cuts (telnet_cmd : ℕ → UInt8) (reads : List (List UInt8)) (d : List UInt8) :
    ((init telnet_cmd).decode_all reads).1 = ((init telnet_cmd).decode reads.flatten).1 ∧
      ((init telnet_cmd).decode_all reads).2.handled =
        ((init telnet_cmd).decode reads.flatten).2.handled ∧
      (∀ i ∈ ((init telnet_cmd).decode_all reads).2.stored, i < MAX_TELNET_CMD_SIZE + 1) ∧
      ((init telnet_cmd).decode (double TN_IAC d)).1 = d ∧
      ((init telnet_cmd).decode (double TN_IAC d)).2.handled = [] := by
  have hall : (init telnet_cmd).decode_all reads = (init telnet_cmd).decode reads.flatten := by
    rw [decode_all_eq, decode_eq, siftPieces_eq]
  have hbounded : ((init telnet_cmd).decode reads.flatten).2.Bounded := by
    rw [decode_eq]
    exact sift_keeps (fun td b h => h.byte b) ⟨Nat.zero_le _, nofun⟩
  refine ⟨congrArg Prod.fst hall, by rw [hall], by rw [hall]; exact hbounded.stored, ?_⟩
  obtain ⟨td', hdouble, -, hhandled⟩ :=
    @process_telnet_data_double (init telnet_cmd).view d rfl
  rw [decode_view] at hdouble
  obtain ⟨hleft, hview⟩ := Prod.mk.inj hdouble
  exact ⟨hleft, (congrArg TelnetData.handled hview).trans hhandled⟩

/-- A sub-option that is cut in two. -/
example : ((init fun _ => 0).decode_all [[65, 255, 250, 44], [1, 255, 255, 255, 240, 66]]).1 =
    [65, 66] := by decide

end Decoder

end EspLinux.Ser2net
