import EspLinux.Vi.FixedBuffers

/-!
# vi: a line that is typed

`get_input_line` reads a line into `status_buffer` and copies it to an array that is shorter.  Where
nothing is recorded, the line is the one that the queue of keys gives, and it has one character too
many for the array exactly if the keys begin with a line that fills the buffer.  Where a command is
recorded, the record is full before the line is, and the message about it ends the line.
-/

namespace EspLinux.Vi

open Lib

/-- One key more on the line that is typed behind a prompt; `none` where the line ends. -/
def keep (erase_char : Char) (line : List Char) (c : Char) : Option (List Char) :=
  if line.length = MAX_INPUT_LEN - 1 ∨ c = '\n' ∨ c = '\r' ∨ c = '\x1b' then none
  else if c = erase_char ∨ c = '\x08' ∨ c = '\x7f' then
    if line = [] then none else some line.dropLast
  else some (line ++ [c])

/-- The keys begin with a line that fills the buffer. -/
def Fills (erase_char : Char) (line keys : List Char) : Prop :=
  ∃ typed, typed <+: keys ∧ ∃ full, typed.foldlM (keep erase_char) line = some full ∧
    full.length = MAX_INPUT_LEN - 1 ∧ NUL ∉ full

section Fills

variable {erase_char c : Char} {line keys : List Char}

lemma fills_full (h : line.length = MAX_INPUT_LEN - 1) :
    Fills erase_char line keys ↔ NUL ∉ line := by
  constructor
  · rintro ⟨typed, -, full, hfull, -, hnul⟩
    cases typed with
    | nil =>
      cases hfull
      exact hnul
    | cons d typed =>
      rw [List.foldlM_cons, keep, if_pos (.inl h)] at hfull
      cases hfull
  · exact fun hnul => ⟨[], List.nil_prefix, line, rfl, h, hnul⟩

lemma not_fills_nil (h : line.length < MAX_INPUT_LEN - 1) : ¬ Fills erase_char line [] := by
  rintro ⟨typed, hpre, full, hfull, hlen, -⟩
  obtain rfl := List.prefix_nil.mp hpre
  cases hfull
  exact h.ne hlen

lemma fills_cons (h : line.length < MAX_INPUT_LEN - 1) :
    Fills erase_char line (c :: keys) ↔ ∃ line', keep erase_char line c = some line' ∧
      Fills erase_char line' keys := by
  constructor
  · rintro ⟨typed, hpre, full, hfull, hlen, hnul⟩
    rcases List.prefix_cons_iff.mp hpre with rfl | ⟨typed, rfl, hpre'⟩
    · cases hfull
      exact absurd hlen h.ne
    · rw [List.foldlM_cons] at hfull
      obtain ⟨line', hkeep, hfold⟩ := Option.bind_eq_some_iff.mp hfull
      exact ⟨line', hkeep, typed, hpre', full, hfold, hlen, hnul⟩
  · rintro ⟨line', hkeep, typed, hpre, full, hfold, hlen, hnul⟩
    refine ⟨c :: typed, List.cons_prefix_cons.mpr ⟨rfl, hpre⟩, full, ?_, hlen, hnul⟩
    rw [List.foldlM_cons, hkeep]
    exact hfold

end Fills

namespace Queue

/-- The keys to come while nothing is recorded. -/
def to_come (q : Queue) : List Char := q.ioq.getD [] ++ q.keys

lemma size_eq (q : Queue) : q.size = q.to_come.length := by
  rw [size, to_come, List.length_append, Nat.add_comm]

lemma get_one_char_none {q : Queue} (h : q.adding2q = false) :
    q.get_one_char = none ↔ q.to_come = [] := by
  obtain ⟨keys, adding2q, lmc, ioq⟩ := q
  obtain rfl : adding2q = false := h
  rcases ioq with _ | (_ | ⟨c, rest⟩) <;> cases keys <;> simp [get_one_char, readit, to_come]

lemma get_one_char_some {q q' : Queue} {c : Char} (h : q.adding2q = false)
    (hq : q.get_one_char = some (c, q')) :
    q.to_come = c :: q'.to_come ∧ q'.adding2q = false ∧
      q'.last_modifying_cmd = q.last_modifying_cmd := by
  obtain ⟨keys, adding2q, lmc, ioq⟩ := q
  obtain rfl : adding2q = false := h
  rcases ioq with _ | (_ | ⟨d, rest⟩) <;> cases keys <;>
    simp [get_one_char, readit, to_come] at hq ⊢ <;> obtain ⟨rfl, rfl⟩ := hq <;> simp

/-- How a line ends that is typed while nothing is recorded: it never has more characters than the
array has places, and has as many, all of them visible to `strlen`, exactly if the keys fill it. -/
lemma line_fills {erase_char p : Char} {n : ℕ} {q : Queue} {line buf : List Char}
    (h : q.adding2q = false) (hp : NUL ≠ p) (hlen : line.length ≤ MAX_INPUT_LEN - 1)
    (hbuf : Holds buf (p :: line)) (hn : q.to_come.length < n) :
    match Queue.line erase_char n (line.length + 1) buf q with
    | none => ¬ Fills erase_char line q.to_come
    | some (buf', q') => q'.adding2q = false ∧ (cstring buf').length ≤ MAX_INPUT_LEN ∧
        ((cstring buf').length = MAX_INPUT_LEN ↔ Fills erase_char line q.to_come) := by
  induction n generalizing q line buf with
  | zero => exact absurd hn (Nat.not_lt_zero _)
  | succ n ih =>
    have hmax : MAX_INPUT_LEN = 128 := rfl
    have hvisible : (cstring buf).length ≤ line.length + 1 ∧
        ((cstring buf).length = line.length + 1 ↔ NUL ∉ line) := by
      have hpre : cstring (p :: line) <+: p :: line := List.takeWhile_prefix _
      have hnul : NUL ∉ p :: line ↔ NUL ∉ line := by
        rw [List.mem_cons, not_or]
        exact and_iff_right hp
      rw [hbuf.cstring_eq]
      refine ⟨hpre.length_le, Iff.trans ?_ (cstring_eq_iff.trans hnul)⟩
      exact ⟨fun h => hpre.eq_of_length h, fun h => congrArg _ h⟩
    rw [Queue.line]
    by_cases hfull : MAX_INPUT_LEN ≤ line.length + 1
    · rw [if_pos hfull]
      have hline : line.length = MAX_INPUT_LEN - 1 := by omega
      have hsize : line.length + 1 = MAX_INPUT_LEN := by omega
      rw [hsize] at hvisible
      exact ⟨h, hvisible.1, hvisible.2.trans (fills_full hline).symm⟩
    rw [if_neg hfull]
    have hroom : line.length < MAX_INPUT_LEN - 1 := by omega
    cases hkey : q.get_one_char with
    | none =>
      rw [(get_one_char_none h).mp hkey]
      exact not_fills_nil hroom
    | some r =>
      obtain ⟨c, q'⟩ := r
      obtain ⟨hcome, hadd, -⟩ := get_one_char_some h hkey
      have hnot : q.overrun = false := overrun_eq_false.mpr fun hadd => absurd (h.symm.trans hadd) (by simp)
      rw [hcome, fills_cons hroom, keep]
      simp only [hroom.ne, false_or, hnot, Bool.false_eq_true, if_false]
      have hn' : q'.to_come.length < n := by
        rw [hcome, List.length_cons] at hn
        omega
      by_cases hend : c = '\n' ∨ c = '\r' ∨ c = '\x1b'
      · simp only [if_pos hend]
        refine ⟨hadd, by omega, ⟨fun h' => by omega, ?_⟩⟩
        rintro ⟨_, hnone, -⟩
        cases hnone
      simp only [if_neg hend]
      by_cases herase : c = erase_char ∨ c = '\x08' ∨ c = '\x7f'
      · simp only [if_pos herase]
        have hpop := @holds_pop _ (p :: line) hbuf.begins
        rw [List.length_cons] at hpop
        by_cases hnil : line = []
        · subst hnil
          have hcut : cstring (written buf 0 [NUL]) = [] := hpop.cstring_eq
          simp [hadd, hcut, hmax]
        · have hlong : ¬ line.length + 1 ≤ 1 := by
            have := List.length_pos_iff.mpr hnil
            omega
          have hdrop : (p :: line).dropLast = p :: line.dropLast :=
            List.dropLast_cons_of_ne_nil hnil
          rw [hdrop] at hpop
          rw [if_neg hlong, if_neg hnil]
          have hrec := @ih q' line.dropLast _ hadd (by rw [List.length_dropLast]; omega) hpop hn'
          rw [List.length_dropLast, Nat.sub_add_cancel (List.length_pos_iff.mpr hnil)] at hrec
          simpa using hrec
      · simp only [if_neg herase]
        have hpush := @holds_push _ (p :: line) c hbuf.begins
        have hrec := @ih q' (line ++ [c]) _ hadd (by
          rw [List.length_append, List.length_singleton]
          omega) hpush hn'
        simpa using hrec

end Queue

lemma Fixed.queue_store {s : Fixed} {array : FixedArray} {first : ℕ} {bytes : List Char}
    (h : array ≠ .last_modifying_cmd) : (s.store array first bytes).queue = s.queue := by
  rw [queue, queue, store_mem_ne h.symm, store_recorder, store_keys]

/-- A key has been taken while nothing is recorded. -/
def Fixed.took (s : Fixed) (q : Queue) : Fixed :=
  { s with recorder := { s.recorder with ioq := q.ioq }, keys := q.keys }

lemma Fixed.queue_took {s : Fixed} {c : Char} {q : Queue} (hidle : s.recorder.adding2q = false)
    (hkey : s.queue.get_one_char = some (c, q)) : (s.took q).queue = q := by
  obtain ⟨-, hadd, hlmc⟩ := Queue.get_one_char_some hidle hkey
  obtain ⟨keys, adding2q, lmc, ioq⟩ := q
  obtain rfl : adding2q = false := hadd
  obtain rfl : lmc = _ := hlmc
  rw [took, queue, hidle, queue]

lemma Fixed.Sound.took {s : Fixed} {q : Queue} (h : s.Sound) : (s.took q).Sound :=
  ⟨h.length, h.line, h.lmc_len, h.adding2q⟩

namespace Fix

variable {s : Fixed} {erase_char : Char}

/-- What is written into the beginning of an array is written into the array. -/
lemma written_prefix_overwrite {array buf bytes : List Char} {i : ℕ} (hbuf : buf <+: array)
    (hi : i ≤ buf.length) (hlen : i + bytes.length ≤ array.length) :
    written buf i bytes <+: overwrite array i bytes := by
  obtain ⟨rest, rfl⟩ := hbuf
  rw [written, overwrite, List.take_append_of_le_length hi, List.prefix_take_iff]
  constructor
  · rw [List.drop_append, ← List.append_assoc]
    exact List.prefix_append _ _
  · simp only [List.length_append, List.length_take, List.length_drop] at hlen ⊢
    omega

lemma length_written {buf bytes : List Char} {i : ℕ} (hi : i ≤ buf.length) :
    (written buf i bytes).length = max buf.length (i + bytes.length) := by
  simp only [written, List.length_append, List.length_take, List.length_drop]
  omega

/-- What is behind the first NUL of an array is not part of the string. -/
lemma cstring_prefix {array buf : List Char} (hbuf : buf <+: array) (hnul : NUL ∈ buf) :
    cstring array = cstring buf := by
  have hholds : Holds array (cstring buf) := (holds_cstring hnul).trans hbuf
  rw [hholds.cstring_eq, cstring_eq_iff]
  exact nul_notin_cstring

lemma nul_mem_written {buf : List Char} {i : ℕ} : NUL ∈ written buf i [NUL] := by
  simp [written]

/-- While nothing is recorded, the loop is that on the beginning of the buffer. -/
lemma safe_type_line_idle {n i : ℕ} {buf : List Char} (h : s.Sound)
    (hidle : s.recorder.adding2q = false) (hbuf : buf <+: s.mem .status_buffer) (hnul : NUL ∈ buf)
    (hi : i < buf.length) :
    Safe (fun _ s' => s'.Sound ∧ ∃ buf', Queue.line erase_char n i buf s.queue = some (buf', s'.queue) ∧
        buf' <+: s'.mem .status_buffer ∧ NUL ∈ buf')
      (fun _ => Queue.line erase_char n i buf s.queue = none) (type_line erase_char n i) s := by
  induction n generalizing s buf i with
  | zero => exact safe_perform.mpr ⟨trivial, rfl⟩
  | succ n ih =>
    rw [type_line, Queue.line]
    by_cases hfull : MAX_INPUT_LEN ≤ i
    · rw [if_pos hfull, if_pos hfull]
      exact safe_ret.mpr ⟨h, buf, rfl, hbuf, hnul⟩
    rw [if_neg hfull, if_neg hfull]
    simp only [Program.bind_eq, safe_bind]
    rw [safe_get_one_char_idle hidle]
    cases hkey : s.queue.get_one_char with
    | none => rfl
    | some r =>
      obtain ⟨c, q⟩ := r
      show Safe _ _ _ (s.took q)
      have hqueue := Fixed.queue_took hidle hkey
      have hsize : (s.mem .status_buffer).length = STATUS_BUFFER_LEN := h.length _
      have hnot : s.queue.overrun = false :=
        Queue.overrun_eq_false.mpr fun hadd => absurd (hidle.symm.trans hadd) (by simp)
      have hlen : i + 1 < (s.mem .status_buffer).length := by
        rw [hsize]
        unfold MAX_INPUT_LEN at hfull
        unfold STATUS_BUFFER_LEN
        omega
      simp only [hnot, Bool.false_eq_true, if_false]
      by_cases hend : c = '\n' ∨ c = '\r' ∨ c = '\x1b'
      · rw [if_pos hend, if_pos hend]
        exact safe_ret.mpr ⟨h.took, buf, by rw [hqueue], hbuf, hnul⟩
      rw [if_neg hend, if_neg hend]
      by_cases herase : c = erase_char ∨ c = '\x08' ∨ c = '\x7f'
      · rw [if_pos herase, if_pos herase]
        simp only [safe_bind, safe_store]
        have hpop := @written_prefix_overwrite _ _ [NUL] (i - 1) hbuf (by omega)
          (by rw [List.length_singleton]; omega)
        refine ⟨by rw [List.length_singleton]; exact (by omega : _ ≤ _).trans_eq hsize, ?_⟩
        split
        · refine safe_ret.mpr ⟨h.took.store (by decide), _, ?_, ?_, @nul_mem_written buf (i - 1)⟩
          · rw [Fixed.queue_store (by decide), hqueue]
          · rw [Fixed.store_mem]
            exact hpop
        · have hrec := @ih ((s.took q).store .status_buffer (i - 1) [NUL]) (i - 1) _
            (h.took.store (by decide)) hidle (by rw [Fixed.store_mem]; exact hpop) nul_mem_written
            (by rw [length_written (by omega), List.length_singleton]; omega)
          rwa [Fixed.queue_store (by decide), hqueue] at hrec
      · rw [if_neg herase, if_neg herase]
        simp only [safe_bind, safe_store]
        have hkept := @written_prefix_overwrite _ _ [c] i hbuf hi.le
          (by rw [List.length_singleton]; omega)
        have hgrown := @length_written buf [c] i hi.le
        rw [List.length_singleton] at hgrown
        have hpush := @written_prefix_overwrite _ _ [NUL] (i + 1) hkept (by omega)
          (by rw [List.length_singleton, length_overwrite]; omega)
        refine ⟨hlen.le.trans_eq hsize, (Nat.succ_le_of_lt hlen).trans_eq hsize, ?_⟩
        have hrec := @ih (((s.took q).store .status_buffer i [c]).store .status_buffer (i + 1) [NUL])
          (i + 1) _ ((h.took.store (by decide)).store (by decide)) hidle
          (by rw [Fixed.store_mem, Fixed.store_mem]; exact hpush) nul_mem_written
          (by rw [length_written (by omega), List.length_singleton]; omega)
        rwa [Fixed.queue_store (by decide), Fixed.queue_store (by decide), hqueue] at hrec

/-- What holds while a line is typed that is also recorded: the buffer has a NUL among its first
bytes, because the record is full before the line is. -/
structure Recording (s : Fixed) (i : ℕ) : Prop extends s.Sound where
  recording : s.recorder.adding2q = true
  ends : ∃ k < MAX_INPUT_LEN, (s.mem .status_buffer)[k]? = some NUL
  /-- While there is room in the record, the line is not longer than it. -/
  room : s.recorder.lmc_len < MAX_INPUT_LEN - 1 →
    i ≤ s.recorder.lmc_len ∧ (s.mem .status_buffer)[i]? = some NUL

/-- A character is taken back. -/
lemma Recording.pop {i : ℕ} (h : Recording s i) (hi : i ≤ MAX_INPUT_LEN) (hpos : 1 ≤ i) :
    Recording (s.store .status_buffer (i - 1) [NUL]) (i - 1) := by
  have hsize : (s.mem .status_buffer).length = STATUS_BUFFER_LEN := h.length _
  have hMAX : MAX_INPUT_LEN < STATUS_BUFFER_LEN := by decide
  have hat : ((s.store .status_buffer (i - 1) [NUL]).mem .status_buffer)[i - 1]? = some NUL := by
    rw [Fixed.store_mem, getElem?_overwrite (by omega), if_pos rfl]
  refine ⟨h.toSound.store (by decide), h.recording, ⟨i - 1, by omega, hat⟩, fun hroom => ⟨?_, hat⟩⟩
  have := (h.room hroom).1
  rw [Fixed.store_recorder]
  omega

/-- A key is recorded, or there is the message that the record is full. -/
lemma Recording.key {i : ℕ} {s' : Fixed} (h : Recording s i) (hkey : Recorded s s') :
    Recording s' i := by
  have hMAX : MAX_INPUT_LEN = 128 := rfl
  refine ⟨hkey.toSound, hkey.recording, ?_, fun hroom => ?_⟩
  · rcases hkey.full with ⟨-, -, hsame⟩ | ⟨-, -, hmsg⟩
    · rw [hsame]
      exact h.ends
    · exact ⟨34, by omega, hmsg⟩
  · rcases hkey.full with ⟨hroom', hlen, hsame⟩ | ⟨-, hlen, -⟩
    · rw [hsame, hlen]
      exact ⟨Nat.le_succ_of_le (h.room hroom').1, (h.room hroom').2⟩
    · omega

/-- A character is appended after it has been recorded, or after the message that the record is
full. -/
lemma Recording.push {i : ℕ} {c : Char} {s' : Fixed} (h : Recording s i) (hi : i < MAX_INPUT_LEN)
    (hkey : Recorded s s') :
    Recording ((s'.store .status_buffer i [c]).store .status_buffer (i + 1) [NUL]) (i + 1) := by
  have hsize : (s'.mem .status_buffer).length = STATUS_BUFFER_LEN := hkey.length _
  have hMAX : MAX_INPUT_LEN = 128 ∧ STATUS_BUFFER_LEN = 200 := ⟨rfl, rfl⟩
  have hmem : ∀ j, (((s'.store .status_buffer i [c]).store .status_buffer (i + 1) [NUL]).mem
      .status_buffer)[j]? = if j = i + 1 then some NUL else if j = i then some c else
        (s'.mem .status_buffer)[j]? := by
    intro j
    rw [Fixed.store_mem, getElem?_overwrite, Fixed.store_mem, getElem?_overwrite]
    · omega
    · rw [Fixed.store_mem, length_overwrite]
      omega
  refine ⟨(hkey.toSound.store (by decide)).store (by decide), hkey.recording, ?_, fun hroom => ?_⟩
  · rcases hkey.full with ⟨hroom, hlen, hsame⟩ | ⟨-, -, hmsg⟩
    · have := (h.room hroom).1
      exact ⟨i + 1, by omega, by rw [hmem, if_pos rfl]⟩
    · -- the message ends with the 35th byte, which the character may have replaced
      rcases eq_or_ne i 34 with rfl | hne
      · exact ⟨35, by omega, by rw [hmem, if_pos rfl]⟩
      · refine ⟨34, by omega, ?_⟩
        rw [hmem]
        split
        · rfl
        · rw [if_neg hne.symm]
          exact hmsg
  · rw [Fixed.store_recorder, Fixed.store_recorder] at hroom ⊢
    rcases hkey.full with ⟨hroom', hlen, -⟩ | ⟨-, hlen, -⟩
    · have := (h.room hroom').1
      exact ⟨by omega, by rw [hmem, if_pos rfl]⟩
    · omega

lemma safe_type_line_recording {n i : ℕ} (h : Recording s i) (hi : i ≤ MAX_INPUT_LEN)
    (hpos : 1 ≤ i) :
    Safe (fun _ s' => s'.Sound ∧ ∃ k < MAX_INPUT_LEN, (s'.mem .status_buffer)[k]? = some NUL)
      (fun _ => True) (type_line erase_char n i) s := by
  have hMAX : MAX_INPUT_LEN = 128 ∧ STATUS_BUFFER_LEN = 200 := ⟨rfl, rfl⟩
  have hstatus : FixedArray.size .status_buffer = STATUS_BUFFER_LEN := rfl
  induction n generalizing s i with
  | zero => exact safe_perform.mpr ⟨trivial, trivial⟩
  | succ n ih =>
    rw [type_line]
    split
    · exact safe_ret.mpr ⟨h.toSound, h.ends⟩
    next hroom =>
    simp only [Program.bind_eq, safe_bind]
    refine (safe_get_one_char_recording h.toSound h.recording).mono fun c s' hkey => ?_
    have hsame : Recording s' i := h.key hkey
    have hpush := @Recording.push _ i c s' h (not_le.mp hroom) hkey
    split
    · exact safe_ret.mpr ⟨hkey.toSound, hsame.ends⟩
    split
    · simp only [safe_bind, safe_store, hstatus, List.length_singleton]
      refine ⟨by omega, ?_⟩
      have hpop := hsame.pop hi hpos
      split
      · exact safe_ret.mpr ⟨hpop.toSound, hpop.ends⟩
      · exact ih hpop (by omega) (by omega)
    · simp only [safe_bind, safe_store, hstatus, List.length_singleton]
      exact ⟨by omega, by omega, ih hpush (by omega) (by omega)⟩

/-- The state in which the first key of a line is read. -/
def prompted (s : Fixed) (prompt : Char) : Fixed :=
  (s.store .displayed_buffer 0 [NUL]).store .status_buffer 0 ([prompt] ++ [NUL])

lemma safe_type_in_iff {Q : Unit → Fixed → Prop} {E : Unit → Prop} {prompt : Char} :
    Safe Q E (type_in erase_char prompt) s ↔
      Safe Q E (type_line erase_char (s.queue.size + 1) 1) (prompted s prompt) := by
  simp only [type_in, Program.bind_eq, safe_bind, safe_store, safe_strcpy, safe_pending]
  rw [Fixed.queue_store (by decide), Fixed.queue_store (by decide)]
  exact (and_iff_right (by decide)).trans (and_iff_right (show 0 + 1 < 200 by decide))

lemma holds_prompted {prompt : Char} (h : s.Sound) :
    Holds ((prompted s prompt).mem .status_buffer) [prompt] := by
  rw [prompted, Fixed.store_mem]
  refine holds_strcpy ?_
  rw [Fixed.length_store, h.length]
  exact (by decide : 1 < STATUS_BUFFER_LEN)

lemma sound_prompted {prompt : Char} (h : s.Sound) : (prompted s prompt).Sound :=
  (h.store (by decide)).store (by decide)

/-- A line that is not recorded is the one that the queue gives. -/
theorem safe_type_in_idle {prompt : Char} (h : s.Sound) (hidle : s.recorder.adding2q = false)
    (hprompt : NUL ≠ prompt) :
    Safe (fun _ s' => s'.Sound ∧ NUL ∈ s'.mem .status_buffer ∧
        s.queue.get_input_line erase_char prompt =
          some (cstring (s'.mem .status_buffer), s'.queue) ∧
        ((cstring (s'.mem .status_buffer)).length < MAX_INPUT_LEN ↔
          ¬ Fills erase_char [] s.queue.to_come))
      (fun _ => s.queue.get_input_line erase_char prompt = none ∧
        ¬ Fills erase_char [] s.queue.to_come) (type_in erase_char prompt) s := by
  have hqueue : (prompted s prompt).queue = s.queue := by
    rw [prompted, Fixed.queue_store (by decide), Fixed.queue_store (by decide)]
  have hline := @Queue.line_fills erase_char prompt (s.queue.size + 1) s.queue [] [prompt, NUL] hidle
    hprompt (Nat.zero_le _) (List.prefix_refl _) (by rw [Queue.size_eq]; exact Nat.lt_succ_self _)
  have hloop := @safe_type_line_idle _ erase_char (s.queue.size + 1) 1 [prompt, NUL]
    (@sound_prompted s prompt h) hidle (holds_prompted h) (by simp) (by simp)
  rw [hqueue] at hloop
  rw [safe_type_in_iff, Queue.get_input_line]
  refine ⟨hloop.1, hloop.2.mono ?_ ?_⟩
  · rintro _ s' ⟨hsound, buf, hbuf, hpre, hnul⟩
    have hsame := cstring_prefix hpre hnul
    rw [List.length_nil, zero_add, hbuf] at hline
    rw [hbuf, hsame]
    obtain ⟨-, hle, hfills⟩ := hline
    refine ⟨hsound, hpre.subset hnul, rfl, ?_⟩
    rw [← hfills]
    omega
  · intro _ hnone
    rw [List.length_nil, zero_add, hnone] at hline
    rw [hnone]
    exact ⟨rfl, hline⟩

/-- A line that is recorded is shorter than the array. -/
lemma safe_type_in_recording {prompt : Char} (h : s.Sound) (hadding : s.recorder.adding2q = true) :
    Safe (fun _ s' => s'.Sound ∧ ∃ k < MAX_INPUT_LEN, (s'.mem .status_buffer)[k]? = some NUL)
      (fun _ => True) (type_in erase_char prompt) s := by
  have hat : ((prompted s prompt).mem .status_buffer)[1]? = some NUL :=
    (@holds_prompted s prompt h).getElem?
  rw [safe_type_in_iff]
  refine safe_type_line_recording ⟨sound_prompted h, hadding, ⟨1, by decide, hat⟩, fun _ => ?_⟩
    (by decide) le_rfl
  exact ⟨h.adding2q hadding, hat⟩

/-- Copying a line that is short enough. -/
lemma good_copy {line : List Char} (h : s.Sound) (hstatus : NUL ∈ s.mem .status_buffer)
    (hlen : line.length < MAX_INPUT_LEN) :
    (s.store .get_input_line__buf 0 (line ++ [NUL])).Good := by
  have hsize : (s.mem .get_input_line__buf).length = MAX_INPUT_LEN := h.length _
  refine ⟨⟨fun array => by rw [Fixed.length_store, h.length], ?_, h.lmc_len, h.adding2q⟩, ?_⟩
  · rw [Fixed.store_mem]
    rcases eq_or_ne line.length (MAX_INPUT_LEN - 1) with hfull | hshort
    · rw [← hfull]
      exact (holds_strcpy (by rwa [hsize])).getElem?
    · rw [getElem?_overwrite_behind, h.line]
      rw [zero_add, List.length_append, List.length_singleton]
      omega
  · rw [Fixed.store_mem_ne (by decide)]
    exact hstatus

lemma safe_get_input_line {prompt : Char} (h : s.Sound) (hprompt : NUL ≠ prompt)
    (hroom : s.recorder.adding2q = false → ¬ Fills erase_char [] s.queue.to_come) :
    Safe (fun _ s' => s'.Good) (fun _ => True) (get_input_line erase_char prompt) s := by
  have htyped : Safe (fun _ s' => s'.Sound ∧ NUL ∈ s'.mem .status_buffer ∧
      (cstring (s'.mem .status_buffer)).length < MAX_INPUT_LEN) (fun _ => True)
      (type_in erase_char prompt) s := by
    cases hadding : s.recorder.adding2q with
    | false =>
      obtain ⟨hin, hends⟩ := @safe_type_in_idle s erase_char prompt h hadding hprompt
      exact ⟨hin, hends.mono (fun _ s' hs' => ⟨hs'.1, hs'.2.1, hs'.2.2.2.mpr (hroom hadding)⟩)
        fun _ _ => trivial⟩
    | true =>
      refine (safe_type_in_recording h hadding).mono fun _ s' hs' => ?_
      obtain ⟨hsound, k, hk, hat⟩ := hs'
      exact ⟨hsound, List.mem_of_getElem? hat, (length_cstring_le hat).trans_lt hk⟩
  simp only [get_input_line, Program.bind_eq, safe_bind, safe_load, safe_strcpy]
  refine htyped.mono fun _ s' hs' => ⟨?_, good_copy hs'.1 hs'.2.1 hs'.2.2⟩
  rw [zero_add]
  exact hs'.2.2

/-- Where the line is copied without leaving the array, the keys did not fill the buffer. -/
lemma not_fills_of_inside {prompt : Char} (h : s.Sound) (hprompt : NUL ≠ prompt)
    (hidle : s.recorder.adding2q = false)
    (hin : Inside (get_input_line erase_char prompt) s) :
    ¬ Fills erase_char [] s.queue.to_come := by
  rw [Inside, Program.along_iff_safe] at hin
  simp only [get_input_line, Program.bind_eq, safe_bind, safe_load, safe_strcpy] at hin
  have htyped := (@safe_type_in_idle s erase_char prompt h hidle hprompt).2
  have hcopy := hin.2
  cases hrun : (type_in erase_char prompt).run Act.exec s with
  | done u s' =>
    rw [hrun] at htyped hcopy
    have hlen : 0 + (cstring (s'.mem .status_buffer)).length < MAX_INPUT_LEN := hcopy.1
    rw [zero_add] at hlen
    exact htyped.2.2.2.mp hlen
  | stopped e =>
    rw [hrun] at htyped
    exact htyped.2

/-- A line that is read without leaving the arrays is the one that the queue gives. -/
theorem run_get_input_line {prompt : Char} {s' : Fixed} {u : Unit} (h : s.Sound)
    (hprompt : NUL ≠ prompt) (hidle : s.recorder.adding2q = false)
    (hin : Inside (get_input_line erase_char prompt) s)
    (hrun : (get_input_line erase_char prompt).run Act.exec s = .done u s') :
    s.queue.get_input_line erase_char prompt =
      some (cstring (s'.mem .get_input_line__buf), s'.queue) := by
  have hfills := not_fills_of_inside h hprompt hidle hin
  have hsafe : Safe (fun _ s' => s.queue.get_input_line erase_char prompt =
      some (cstring (s'.mem .get_input_line__buf), s'.queue)) (fun _ => True)
      (get_input_line erase_char prompt) s := by
    simp only [get_input_line, Program.bind_eq, safe_bind, safe_load, safe_strcpy]
    obtain ⟨htyped, hends⟩ := @safe_type_in_idle s erase_char prompt h hidle hprompt
    refine ⟨htyped, hends.mono (fun _ t ht => ?_) fun _ _ => trivial⟩
    obtain ⟨hsound, -, hline, hlen⟩ := ht
    have hlt := hlen.mpr hfills
    have hholds := @holds_strcpy (t.mem .get_input_line__buf) (cstring (t.mem .status_buffer))
      (by rw [hsound.length]; exact hlt)
    rw [Fixed.queue_store (by decide), Fixed.store_mem, hline]
    refine ⟨by rwa [zero_add], ?_⟩
    rw [hholds.cstring_eq, cstring_eq_iff.mpr nul_notin_cstring]
  exact hsafe.done hrun

end Fix

end EspLinux.Vi
