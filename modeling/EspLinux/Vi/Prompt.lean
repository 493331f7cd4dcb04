import EspLinux.Vi.Editor

/-!
# vi: the line behind a prompt

`get_input_line` reads a line into `status_buffer`, and `get_one_char` puts the message that the
record is full into the same buffer.  A line of plain keys is what is typed as long as there is room
in the record for all of its keys, and otherwise it is that message.
-/

namespace EspLinux.Vi

open Lib

/-! ## Arrays -/

section Arrays

variable {array str bytes : List Char}

/-- A string of the C language is at the beginning of an array. -/
def Holds (array str : List Char) : Prop := str ++ [NUL] <+: array

lemma Holds.cstring_eq (h : Holds array str) : cstring array = cstring str := by
  obtain ⟨rest, rfl⟩ := h
  rw [List.append_assoc, List.singleton_append]
  induction str with
  | nil => rfl
  | cons c str ih =>
    rw [cstring, cstring, List.cons_append, List.takeWhile_cons, List.takeWhile_cons]
    exact if_congr Iff.rfl (congrArg _ ih) rfl

lemma holds_cstring (h : NUL ∈ array) : Holds array (cstring array) := by
  induction array with
  | nil => simp at h
  | cons c array ih =>
    rw [Holds, cstring, List.takeWhile_cons]
    split
    · next hc =>
      have hne : NUL ≠ c := Ne.symm (of_decide_eq_true hc)
      exact List.cons_prefix_cons.mpr ⟨rfl, ih (List.mem_of_ne_of_mem hne h)⟩
    · next hc =>
      obtain rfl : c = NUL := by simpa using hc
      exact List.cons_prefix_cons.mpr ⟨rfl, List.nil_prefix⟩

lemma Holds.begins (h : Holds array str) : str <+: array := (List.prefix_append _ _).trans h

/-- Bytes that are written behind the beginning of an array. -/
lemma prefix_written (h : str <+: array) : str ++ bytes <+: written array str.length bytes := by
  rw [written, ← List.prefix_iff_eq_take.mp h]
  exact List.prefix_append _ _

/-- A string that ends behind the beginning of an array. -/
lemma holds_written (h : str <+: array) : Holds (written array str.length [NUL]) str :=
  prefix_written h

/-- A character is written behind a string. -/
lemma holds_push {c : Char} (h : str <+: array) :
    Holds (written (written array str.length [c]) (str.length + 1) [NUL]) (str ++ [c]) := by
  have hpush : str ++ [c] <+: written array str.length [c] := prefix_written h
  have hends := holds_written hpush
  rwa [List.length_append] at hends

/-- The last character of a string is taken away. -/
lemma holds_pop (h : str <+: array) : Holds (written array (str.length - 1) [NUL]) str.dropLast := by
  have hpop := holds_written ((List.dropLast_prefix str).trans h)
  rwa [List.length_dropLast] at hpop

end Arrays

/-! ## Keys -/

/-- A key that is kept as it is when a line is typed. -/
def PlainKey (erase_char c : Char) : Prop :=
  c ≠ NUL ∧ ¬ (c = '\n' ∨ c = '\r' ∨ c = '\x1b') ∧ ¬ (c = erase_char ∨ c = '\x08' ∨ c = '\x7f')

instance (erase_char c : Char) : Decidable (PlainKey erase_char c) :=
  inferInstanceAs (Decidable (_ ∧ _))

namespace Queue

variable {q : Queue} {erase_char c r : Char} {pat rest : List Char}

/-- The keys that are read next. -/
def upcoming (q : Queue) : List Char := if q.adding2q then q.keys else q.ioq.getD [] ++ q.keys

lemma length_upcoming_le : q.upcoming.length ≤ q.size := by
  rw [upcoming, size]
  split
  · exact Nat.le_add_right _ _
  · rw [List.length_append, Nat.add_comm]

lemma overrun_eq_false :
    q.overrun = false ↔ (q.adding2q = true → q.last_modifying_cmd.length < MAX_INPUT_LEN - 1) := by
  rw [overrun, Bool.and_eq_false_imp]
  simp only [decide_eq_false_iff_not, not_le]

/-- A key is taken, and recorded if there is room. -/
lemma get_one_char_upcoming (h : q.upcoming = c :: rest) :
    ∃ q', q.get_one_char = some (c, q') ∧ q'.upcoming = rest ∧ q'.adding2q = q.adding2q ∧
      q'.last_modifying_cmd = q.last_modifying_cmd ++
        if q.adding2q = true ∧ q.overrun = false then [c] else [] := by
  obtain ⟨keys, adding2q, lmc, ioq⟩ := q
  cases adding2q with
  | true =>
    obtain rfl : keys = c :: rest := h
    simp only [overrun_eq_false]
    by_cases hfull : MAX_INPUT_LEN - 1 ≤ lmc.length
    · refine ⟨⟨rest, true, lmc, ioq⟩, ?_, rfl, rfl, ?_⟩
      · simp only [get_one_char, readit, if_true, Option.map_some, if_pos hfull]
      · rw [if_neg fun h => absurd (h.2 trivial) (not_lt.mpr hfull), List.append_nil]
    · refine ⟨⟨rest, true, lmc ++ [c], ioq⟩, ?_, rfl, rfl, ?_⟩
      · simp only [get_one_char, readit, if_true, Option.map_some, if_neg hfull]
      · rw [if_pos ⟨trivial, fun _ => not_le.mp hfull⟩]
  | false =>
    rcases ioq with _ | (_ | ⟨d, ioq⟩)
    · obtain rfl : keys = c :: rest := h
      exact ⟨_, rfl, rfl, rfl, (List.append_nil _).symm⟩
    · obtain rfl : keys = c :: rest := h
      exact ⟨_, rfl, rfl, rfl, (List.append_nil _).symm⟩
    · obtain ⟨rfl, rfl⟩ := List.cons.inj h
      exact ⟨_, rfl, rfl, rfl, (List.append_nil _).symm⟩

/-- Plain keys, for all of which there is room in the record, are what the buffer holds. -/
lemma line_room {n : ℕ} {str buf : List Char} (hnext : q.upcoming = pat ++ r :: rest)
    (hpat : ∀ c ∈ pat, PlainKey erase_char c) (hr : r = '\n' ∨ r = '\r' ∨ r = '\x1b')
    (hn : pat.length < n) (hlen : str.length + pat.length < MAX_INPUT_LEN) (hbuf : Holds buf str)
    (hroom : q.adding2q = true → q.last_modifying_cmd.length + pat.length < MAX_INPUT_LEN - 1) :
    ∃ buf' q', q.line erase_char n str.length buf = some (buf', q') ∧ Holds buf' (str ++ pat) := by
  induction pat generalizing q n str buf with
  | nil =>
    obtain ⟨n, rfl⟩ := Nat.exists_eq_succ_of_ne_zero (Nat.ne_of_gt hn)
    obtain ⟨q', hkey, -⟩ := get_one_char_upcoming hnext
    have hnot : q.overrun = false := overrun_eq_false.mpr hroom
    rw [line, if_neg (by exact not_le.mpr hlen), hkey]
    dsimp only
    rw [hnot, if_neg Bool.false_ne_true, if_pos hr, List.append_nil]
    exact ⟨buf, q', rfl, hbuf⟩
  | cons c pat ih =>
    obtain ⟨n, rfl⟩ := Nat.exists_eq_succ_of_ne_zero (Nat.ne_of_gt (Nat.zero_lt_of_lt hn))
    rw [List.length_cons] at hn hlen hroom
    obtain ⟨q', hkey, hnext', hadd, hlmc⟩ := get_one_char_upcoming hnext
    obtain ⟨-, hends, herases⟩ := hpat c List.mem_cons_self
    have hnot : q.overrun = false := overrun_eq_false.mpr fun h => by
      have := hroom h
      omega
    have hpush := @holds_push _ _ c hbuf.begins
    have hrec := @ih q' n (str ++ [c]) _ hnext' (fun d hd => hpat d (List.mem_cons_of_mem _ hd))
      (by omega) (by rw [List.length_append, List.length_singleton]; omega) hpush ?_
    · rw [line, if_neg (by omega), hkey]
      dsimp only
      rw [hnot, if_neg Bool.false_ne_true, if_neg hends, if_neg herases]
      rwa [List.length_append, List.append_assoc] at hrec
    · intro h
      rw [hadd] at h
      have := hroom h
      rw [hlmc, if_pos ⟨h, hnot⟩, List.length_append, List.length_singleton]
      omega

/-- If there is no room in the record for all of the plain keys and the one that ends the line, the
buffer holds the message. -/
lemma line_full {n i : ℕ} {buf : List Char} (hnext : q.upcoming = pat ++ r :: rest)
    (hpat : ∀ c ∈ pat, PlainKey erase_char c) (hr : r = '\n' ∨ r = '\r' ∨ r = '\x1b')
    (hn : pat.length < n) (hlen : i + pat.length < MAX_INPUT_LEN) (hadd : q.adding2q = true)
    (hfull : MAX_INPUT_LEN - 1 ≤ q.last_modifying_cmd.length + pat.length) :
    ∃ buf' q', q.line erase_char n i buf = some (buf', q') ∧ Holds buf' overrun_message := by
  induction pat generalizing q n i buf with
  | nil =>
    obtain ⟨n, rfl⟩ := Nat.exists_eq_succ_of_ne_zero (Nat.ne_of_gt hn)
    obtain ⟨q', hkey, -⟩ := get_one_char_upcoming hnext
    have hover : q.overrun = true := by
      rw [overrun, hadd, Bool.true_and, decide_eq_true_iff]
      exact hfull
    rw [line, if_neg (by exact not_le.mpr hlen), hkey]
    dsimp only
    rw [if_pos hover, if_pos hr]
    exact ⟨_, q', rfl, @prefix_written buf [] _ List.nil_prefix⟩
  | cons c pat ih =>
    obtain ⟨n, rfl⟩ := Nat.exists_eq_succ_of_ne_zero (Nat.ne_of_gt (Nat.zero_lt_of_lt hn))
    rw [List.length_cons] at hn hlen hfull
    obtain ⟨q', hkey, hnext', hadd', hlmc⟩ := get_one_char_upcoming hnext
    obtain ⟨-, hends, herases⟩ := hpat c List.mem_cons_self
    rw [line, if_neg (by omega), hkey]
    dsimp only
    rw [if_neg hends, if_neg herases]
    refine ih hnext' (fun d hd => hpat d (List.mem_cons_of_mem _ hd)) (by omega) (by omega)
      (hadd'.trans hadd) ?_
    simp only [hlmc, overrun_eq_false]
    split
    · rw [List.length_append, List.length_singleton]
      omega
    · next hnot =>
      have hlong : ¬ q.last_modifying_cmd.length < MAX_INPUT_LEN - 1 :=
        fun hlt => hnot ⟨hadd, fun _ => hlt⟩
      rw [List.append_nil]
      omega

/-- What `get_input_line` gives for plain keys. -/
lemma get_input_line_plain {prompt : Char} (hnext : q.upcoming = pat ++ r :: rest)
    (hpat : ∀ c ∈ pat, PlainKey erase_char c) (hr : r = '\n' ∨ r = '\r' ∨ r = '\x1b')
    (hlen : pat.length < MAX_INPUT_LEN - 1) (hprompt : NUL ≠ prompt) :
    (q.get_input_line erase_char prompt).map Prod.fst =
      some (if q.adding2q = true ∧ MAX_INPUT_LEN - 1 ≤ q.last_modifying_cmd.length + pat.length then
        overrun_message else prompt :: pat) := by
  have hsize : pat.length < q.size + 1 := by
    have hle := @length_upcoming_le q
    rw [hnext, List.length_append, List.length_cons] at hle
    omega
  have hline : 1 + pat.length < MAX_INPUT_LEN := by omega
  rw [get_input_line]
  split
  · next hfull =>
    obtain ⟨buf, q', hrun, hholds⟩ :=
      @line_full _ _ _ _ _ _ 1 [prompt, NUL] hnext hpat hr hsize hline hfull.1 hfull.2
    rw [hrun]
    refine congrArg some (hholds.cstring_eq.trans ?_)
    rw [cstring_eq_iff]
    decide
  · next hroom =>
    obtain ⟨buf, q', hrun, hholds⟩ := @line_room _ _ _ _ _ _ [prompt] [prompt, NUL] hnext hpat hr
      hsize hline (List.prefix_refl _) fun hadd => not_le.mp fun hle => hroom ⟨hadd, hle⟩
    rw [List.length_singleton] at hrun
    rw [hrun]
    refine congrArg some (hholds.cstring_eq.trans ?_)
    rw [List.singleton_append, cstring_eq_iff, List.mem_cons, not_or]
    exact ⟨hprompt, fun hmem => (hpat NUL hmem).1 rfl⟩

end Queue

end EspLinux.Vi
