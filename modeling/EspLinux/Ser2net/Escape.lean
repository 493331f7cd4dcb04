import EspLinux.Ser2net.Stream

/-!
# Escaping on a telnet port

On a telnet port `handle_dev_fd_read` doubles every IAC that it has read.  The loop goes over the
buffer from position 0 on, as many bytes as have been read, although what has been read is stored
behind what already waits there.  So it is right when nothing waits (`double_iac_spec`), and
when there is no IAC among the bytes that it looks at and those that have been read
(`double_iac_id`).  Since it moves one byte more than it looks at, it is also right when a single
byte waits, which is no IAC, and the last byte that has been read is none.
-/

namespace EspLinux.Ser2net

open EspLinux.Lib

variable {buf : ℕ → UInt8} {i n : ℕ}

/-! ## The loop -/

/-- What is left of the loop from position `i` on escapes the `n` bytes that it looks at, and the
byte behind them follows.  The memory behind that byte is left alone. -/
lemma double_iac_spec : ∃ buf',
    loop double_iac (n + 1) (i, i + n, buf) =
      some (i + (double TN_IAC (slice buf i n)).length, buf') ∧
    slice buf' 0 (i + (double TN_IAC (slice buf i n)).length + 1) =
      slice buf 0 i ++ double TN_IAC (slice buf i n) ++ [buf (i + n)] ∧
    ∀ j, i + (double TN_IAC (slice buf i n)).length < j → buf' j = buf j := by
  induction n generalizing i buf with
  | zero =>
    refine ⟨buf, loop_inr (if_neg (Nat.lt_irrefl i)), ?_, fun _ _ => rfl⟩
    rw [slice_zero, double_nil, List.append_nil, List.length_nil, Nat.add_zero, slice_add,
      Nat.zero_add]
    rfl
  | succ n ih =>
    have hcons : slice buf i (n + 1) = buf i :: slice buf (i + 1) n := by
      rw [Nat.add_comm n 1, slice_add]
      rfl
    have hsucc : slice buf 0 (i + 1) = slice buf 0 i ++ [buf i] := by
      rw [slice_add, Nat.zero_add]
      rfl
    by_cases hbyte : buf i = TN_IAC
    · obtain ⟨buf₁, hbuf₁⟩ : ∃ m, m = Function.update
          (put buf (i + 2) (slice buf (i + 1) (i + (n + 1) - i))) (i + 1) TN_IAC := ⟨_, rfl⟩
      have hstep : double_iac (i, i + (n + 1), buf) = .inl (i + 2, i + 2 + n, buf₁) := by
        have hcount : i + (n + 1) + 1 = i + 2 + n := by omega
        rw [double_iac, if_pos (by omega), if_pos hbyte, hcount, hbuf₁]
      -- what the loop has still to look at has moved by one
      have hmoved : ∀ j, j ≤ n → buf₁ (i + 2 + j) = buf (i + 1 + j) := by
        intro j hj
        have hlt : j < (slice buf (i + 1) (i + (n + 1) - i)).length := by
          rw [length_slice]
          omega
        rw [hbuf₁, Function.update_of_ne (by omega), put_of_mem hlt, getElem_slice]
      have hfront : slice buf₁ 0 (i + 2) = slice buf 0 i ++ [TN_IAC, TN_IAC] := by
        have hbefore : slice buf₁ 0 (i + 1) = slice buf 0 (i + 1) := by
          refine slice_congr fun j _ hj => ?_
          rw [hbuf₁, Function.update_of_ne (by omega), put_of_lt (by omega)]
        have hnext : slice buf₁ (i + 1) 1 = [TN_IAC] := by
          rw [hbuf₁]
          exact congrArg (fun b => [b]) (Function.update_self ..)
        rw [show i + 2 = i + 1 + 1 from rfl, slice_add, hbefore, hsucc, hbyte, Nat.zero_add, hnext,
          List.append_assoc]
        rfl
      have hrest : slice buf₁ (i + 2) n = slice buf (i + 1) n :=
        List.map_congr_left fun j hj => hmoved j (List.mem_range.mp hj).le
      have hbehind : ∀ j, i + n + 3 ≤ j → buf₁ j = buf j := by
        intro j hj
        rw [hbuf₁, Function.update_of_ne (by omega), put_of_ge (by rw [length_slice]; omega)]
      obtain ⟨buf', hloop, hbuf', hframe⟩ := ih (i := i + 2)
      have hlen : i + 2 + (double TN_IAC (slice buf₁ (i + 2) n)).length =
          i + (double TN_IAC (slice buf i (n + 1))).length := by
        rw [hcons, hbyte, double_cons_self, hrest]
        simp only [List.length_cons]
        omega
      have hshort : n ≤ (double TN_IAC (slice buf₁ (i + 2) n)).length :=
        (length_slice (m := buf₁) (p := i + 2)).symm.le.trans length_le_double
      rw [hlen] at hloop hbuf' hframe
      refine ⟨buf', (loop_inl hstep).trans hloop, ?_, fun j hj => ?_⟩
      swap
      · exact (hframe j hj).trans (hbehind j (by omega))
      rw [hbuf', hfront, hrest, hmoved n (Nat.le_refl n), hcons, hbyte, double_cons_self,
        show i + 1 + n = i + (n + 1) from by omega]
      simp only [List.append_assoc, List.cons_append, List.nil_append]
    · have hstep : double_iac (i, i + (n + 1), buf) = .inl (i + 1, i + 1 + n, buf) := by
        rw [double_iac, if_pos (by omega), if_neg hbyte]
        congr 2
        rw [Nat.add_assoc, Nat.add_comm 1 n]
      obtain ⟨buf', hloop, hbuf', hframe⟩ := ih (i := i + 1)
      have hlen : i + 1 + (double TN_IAC (slice buf (i + 1) n)).length =
          i + (double TN_IAC (slice buf i (n + 1))).length := by
        rw [hcons, double_cons_of_ne hbyte, List.length_cons]
        omega
      rw [hlen] at hloop hbuf' hframe
      refine ⟨buf', (loop_inl hstep).trans hloop, ?_, hframe⟩
      rw [hbuf', hsucc, hcons, double_cons_of_ne hbyte, show i + 1 + n = i + (n + 1) from by omega]
      simp only [List.append_assoc, List.cons_append, List.nil_append]

/-- The loop does nothing if it finds no IAC. -/
lemma double_iac_id (h : TN_IAC ∉ slice buf i n) :
    loop double_iac (n + 1) (i, i + n, buf) = some (i + n, buf) := by
  induction n generalizing i with
  | zero => exact loop_inr (if_neg (Nat.lt_irrefl i))
  | succ n ih =>
    have hcons : slice buf i (n + 1) = buf i :: slice buf (i + 1) n := by
      rw [Nat.add_comm n 1, slice_add]
      rfl
    rw [hcons, List.mem_cons, not_or] at h
    have hstep : double_iac (i, i + (n + 1), buf) = .inl (i + 1, i + (n + 1), buf) := by
      rw [double_iac, if_pos (by omega), if_neg (Ne.symm h.1)]
    rw [loop_inl hstep, show i + (n + 1) = i + 1 + n from by omega]
    exact ih h.2

namespace Xfer

/-- What has been read can be escaped: nothing waits in the buffer and there is room for it, or
there is no IAC in what is looked at and what has been read, or a single byte waits. -/
def Clean (s : Xfer) (got : List UInt8) : Prop :=
  (s.dev_to_tcp_buf_count = 0 ∧ got ≠ List.replicate (PORT_BUFSIZE / 2) TN_IAC) ∨
  (TN_IAC ∉ got ∧
    TN_IAC ∉ slice (put s.dev_to_tcp_buf s.dev_to_tcp_buf_count got) 0 got.length) ∨
  (s.dev_to_tcp_buf_count = 1 ∧ s.dev_to_tcp_buf 0 ≠ TN_IAC ∧ got.getLast? ≠ some TN_IAC)

variable {p : Settings} {banner got : List UInt8} {front : ℕ → UInt8} {age : Bool} {s s' : Xfer}
  {ws : List Wrote} {e : Event} {out_telnet_cmd : List UInt8}

/-- What lies in the buffer. -/
lemma slice_memory (h : n ≤ PORT_BUFSIZE) : slice s.memory 0 n = slice s.dev_to_tcp_buf 0 n :=
  slice_congr fun j _ hj => Function.update_of_ne (by omega) _ _

/-- The buffer starts where it did when the byte behind it stays. -/
lemma set_memory_of_behind (h : buf PORT_BUFSIZE = s.memory PORT_BUFSIZE) :
    s.set_memory buf = { s with dev_to_tcp_buf := buf } := by
  have hlow : (s.memory PORT_BUFSIZE).toNat = s.dev_to_tcp_buf_start % 2 ^ 8 := by
    rw [memory, Function.update_self, UInt8.toNat_ofNat']
    omega
  rw [set_memory, h, hlow, Int.sub_add_cancel]

/-- No more is read than there is room for. -/
lemma dev_read_length {avail : List UInt8} (h : s.dev_read p avail = some got) :
    s.dev_to_tcp_buf_count + got.length ≤ p.room := by
  rw [dev_read] at h
  split at h
  · cases h
    have := List.length_take_le (p.room - s.dev_to_tcp_buf_count) avail
    omega
  · cases h

/-- What is read in these cases is escaped and appended to what waits. -/
lemma store_clean (hp : p.enabled = .telnet) (hgot : got ≠ [])
    (hroom : s.dev_to_tcp_buf_count + got.length ≤ p.room) (h : s.Clean got) :
    ∃ buf count, s.store p got = some { s with
        dev_to_tcp_buf := buf
        dev_to_tcp_buf_count := count
        received := s.received ++ got } ∧
      slice buf 0 count =
        slice s.dev_to_tcp_buf 0 s.dev_to_tcp_buf_count ++ double TN_IAC got := by
  rw [Settings.room, if_pos hp] at hroom
  have hhalf : PORT_BUFSIZE / 2 = 700 ∧ PORT_BUFSIZE = 1400 := ⟨rfl, rfl⟩
  obtain ⟨m, hm⟩ : ∃ m, m = put s.dev_to_tcp_buf s.dev_to_tcp_buf_count got := ⟨_, rfl⟩
  obtain ⟨s₁, hs₁⟩ : ∃ s₁ : Xfer, s₁ = { s with
    dev_to_tcp_buf := m, received := s.received ++ got } := ⟨_, rfl⟩
  have hmemory : slice s₁.memory 0 got.length = slice m 0 got.length := by
    rw [slice_memory (by omega), hs₁]
  -- the byte behind the buffer stays
  have hstore : ∀ read_count buf,
      loop double_iac (got.length + 1) (0, got.length, s₁.memory) = some (read_count, buf) →
      buf PORT_BUFSIZE = s₁.memory PORT_BUFSIZE →
      s.store p got = some { s with
        dev_to_tcp_buf := buf
        dev_to_tcp_buf_count := s.dev_to_tcp_buf_count + read_count
        received := s.received ++ got } := by
    intro read_count buf hloop hbehind
    rw [store, ← hm, ← hs₁]
    simp only [if_pos hp, hloop, Option.bind_eq_bind, Option.bind_some]
    rw [set_memory_of_behind hbehind, hs₁]
  obtain ⟨hzero, hall⟩ | ⟨hnone, hlooked⟩ | ⟨hone, hbyte, hlast⟩ := h
  · have hslice : slice s₁.memory 0 got.length = got := by rw [hmemory, hm, hzero, slice_put_self]
    obtain ⟨buf, hloop, hbuf, hframe⟩ := @double_iac_spec s₁.memory 0 got.length
    rw [Nat.zero_add, Nat.zero_add, hslice] at hloop hbuf
    rw [Nat.zero_add, hslice] at hframe
    have hshort : (double TN_IAC got).length < PORT_BUFSIZE := by
      rcases Nat.lt_or_eq_of_le (Nat.le_of_add_left_le hroom) with hlt | heq
      · have := length_double_le (e := TN_IAC) (l := got)
        omega
      · have := length_double_lt (e := TN_IAC) (l := got) (heq ▸ hall)
        omega
    refine ⟨buf, _, hstore _ _ hloop (hframe _ hshort), ?_⟩
    rw [hzero, Nat.zero_add, slice_zero, List.nil_append]
    rw [slice_add, slice_zero, List.nil_append] at hbuf
    exact (List.append_inj hbuf (by rw [length_slice])).1
  · have hloop := @double_iac_id s₁.memory 0 got.length
      (hmemory ▸ hm ▸ hlooked)
    rw [Nat.zero_add] at hloop
    refine ⟨_, _, hstore _ _ hloop rfl, ?_⟩
    rw [slice_memory (by omega), hs₁]
    rw [double_of_notMem hnone, hm, ← slice_put_append, Nat.zero_add]
  · obtain ⟨l, b, rfl⟩ := List.eq_nil_or_concat' got |>.resolve_left hgot
    have hb : b ≠ TN_IAC := fun hb => hlast (by rw [List.getLast?_concat, hb])
    have hslice : slice s₁.memory 0 (1 + (l ++ [b]).length) = s.dev_to_tcp_buf 0 :: (l ++ [b]) := by
      have happend := slice_put_append (m := s.dev_to_tcp_buf) (p := 0) (n := 1) (l := l ++ [b])
      rw [Nat.zero_add] at happend
      rw [slice_memory (by omega), hs₁]
      rw [hm, hone, happend]
      rfl
    -- the loop looks at all but the last byte
    have hlooked : slice s₁.memory 0 (l ++ [b]).length = s.dev_to_tcp_buf 0 :: l ∧
        s₁.memory (l ++ [b]).length = b := by
      rw [Nat.add_comm, slice_add, Nat.zero_add] at hslice
      have happend : slice s₁.memory 0 (l ++ [b]).length ++ slice s₁.memory (l ++ [b]).length 1 =
          (s.dev_to_tcp_buf 0 :: l) ++ [b] := hslice
      have hinj := List.append_inj happend (by simp)
      exact ⟨hinj.1, List.head_eq_of_cons_eq hinj.2⟩
    obtain ⟨buf, hloop, hbuf, hframe⟩ :=
      @double_iac_spec s₁.memory 0 (l ++ [b]).length
    rw [Nat.zero_add, Nat.zero_add, hlooked.1] at hloop hbuf
    rw [Nat.zero_add, hlooked.1] at hframe
    have hshort : (double TN_IAC (s.dev_to_tcp_buf 0 :: l)).length < PORT_BUFSIZE := by
      have := length_double_le (e := TN_IAC) (l := s.dev_to_tcp_buf 0 :: l)
      rw [List.length_append, List.length_singleton] at hroom
      rw [List.length_cons] at this
      omega
    refine ⟨buf, _, hstore _ _ hloop (hframe _ hshort), ?_⟩
    rw [hone, Nat.add_comm 1, hbuf, hlooked.2, slice_zero, List.nil_append,
      double_cons_of_ne hbyte, double_append, double_cons_of_ne hb, double_nil]
    rfl

/-- When half of the buffer has been read at once and all of it is IACs, the byte behind them ends
up in `dev_to_tcp_buf_start`. -/
theorem store_overruns (hp : p.enabled = .telnet) (hzero : s.dev_to_tcp_buf_count = 0) :
    ∃ s', s.store p (List.replicate (PORT_BUFSIZE / 2) TN_IAC) = some s' ∧
      s'.dev_to_tcp_buf_start = s.dev_to_tcp_buf_start - s.dev_to_tcp_buf_start % 2 ^ 8 +
        (s.dev_to_tcp_buf (PORT_BUFSIZE / 2)).toNat := by
  obtain ⟨got, hgot⟩ : ∃ got, got = List.replicate (PORT_BUFSIZE / 2) TN_IAC := ⟨_, rfl⟩
  have hlen : got.length = PORT_BUFSIZE / 2 := hgot ▸ List.length_replicate
  have hhalf : PORT_BUFSIZE / 2 = 700 ∧ PORT_BUFSIZE = 1400 := ⟨rfl, rfl⟩
  obtain ⟨s₁, hs₁⟩ : ∃ s₁ : Xfer, s₁ = { s with
    dev_to_tcp_buf := put s.dev_to_tcp_buf s.dev_to_tcp_buf_count got
    received := s.received ++ got } := ⟨_, rfl⟩
  have hslice : slice s₁.memory 0 got.length = got := by
    rw [slice_memory (by omega), hs₁, hzero, slice_put_self]
  have hnext : s₁.memory got.length = s.dev_to_tcp_buf (PORT_BUFSIZE / 2) := by
    rw [memory, Function.update_of_ne (by omega), hs₁, hzero, ← hlen]
    exact put_of_ge (Nat.zero_add _).le
  have hdouble : (double TN_IAC got).length = PORT_BUFSIZE := by
    rw [length_double, hgot, List.count_replicate_self, List.length_replicate]
    rfl
  obtain ⟨buf, hloop, hbuf, -⟩ := @double_iac_spec s₁.memory 0 got.length
  rw [Nat.zero_add, Nat.zero_add, hslice, hdouble] at hloop hbuf
  have hlast : buf PORT_BUFSIZE = s.dev_to_tcp_buf (PORT_BUFSIZE / 2) := by
    rw [hnext, slice_add] at hbuf
    have hinj := List.append_inj_right' hbuf rfl
    rw [Nat.zero_add] at hinj
    exact List.head_eq_of_cons_eq hinj
  rw [← hgot, store, ← hs₁]
  simp only [if_pos hp, hloop, Option.bind_eq_bind, Option.bind_some]
  refine ⟨_, rfl, ?_⟩
  show s₁.dev_to_tcp_buf_start - s₁.dev_to_tcp_buf_start % 2 ^ 8 + (buf PORT_BUFSIZE).toNat = _
  rw [hlast, hs₁]

/-! ## A step and a run -/

/-- The write takes all of the `n` bytes that it is given. -/
def TakesAll (n : ℕ) (ws : List Wrote) : Prop := ∃ k ws', ws = .accepted k :: ws' ∧ n ≤ k

/-- Each write of the step takes all that it is given. -/
def Taken (p : Settings) (s : Xfer) : Event → Prop
  | .dev_read avail ws => ∀ got t, avail.bind (s.dev_read p) = some got → s.store p got = some t →
      TakesAll t.dev_to_tcp_buf_count ws
  | .aged ws => TakesAll s.dev_to_tcp_buf_count ws
  | .tcp_write w₁ w₂ =>
      TakesAll s.out_telnet_cmd.length [w₁] ∧ TakesAll s.dev_to_tcp_buf_count [w₂]
  | .telnet_output _ => True

/-- What the step reads can be escaped. -/
def Escapes (p : Settings) (s : Xfer) : Event → Prop
  | .dev_read avail _ => ∀ got, s.reader = true → avail.bind (s.dev_read p) = some got → got ≠ [] →
      s.Clean got
  | .aged _ => True
  | .tcp_write _ _ => True
  | .telnet_output _ => True

/-- What holds of a telnet port that is connected. -/
structure Doubled (banner : List UInt8) (s : Xfer) : Prop where
  start : s.dev_to_tcp_buf_start = 0
  stream : s.sent ++ slice s.dev_to_tcp_buf 0 s.dev_to_tcp_buf_count =
    banner ++ double TN_IAC s.received

lemma TakesAll.settles {start : ℤ} (h : TakesAll n ws) : Xfer.settles start n ws := by
  obtain ⟨k, ws', rfl, hk⟩ := h
  exact .inl hk

lemma take_count {data : List UInt8} :
    (s.take s.dev_to_tcp_buf_count data).dev_to_tcp_buf_count = 0 := Nat.sub_self _

/-- A write that takes all empties the buffer. -/
lemma tryNetWrite_doubled (hs : s.Doubled banner) (hall : TakesAll s.dev_to_tcp_buf_count ws)
    (h : tryNetWrite ws s = some s') : s'.Doubled banner := by
  obtain ⟨k, ws', rfl, hk⟩ := hall
  simp only [tryNetWrite, Nat.min_eq_right hk] at h
  rw [if_neg (not_not.mpr take_count)] at h
  cases h
  refine ⟨hs.start, ?_⟩
  rw [take_count, slice_zero, List.append_nil]
  show s.sent ++ List.take _ _ = banner ++ double TN_IAC s.received
  rw [List.take_of_length_le (by rw [length_slice])]
  exact hs.stream

lemma write_data_doubled {w : Wrote} (hs : s.Doubled banner)
    (hall : TakesAll s.dev_to_tcp_buf_count [w]) : (s.write_data w).Doubled banner := by
  obtain ⟨k, ws', hw, hk⟩ := hall
  cases hw
  simp only [write_data, Nat.min_eq_right hk]
  rw [if_neg (not_not.mpr take_count)]
  refine ⟨hs.start, ?_⟩
  rw [take_count, slice_zero, List.append_nil]
  show s.sent ++ List.take _ s.window = banner ++ double TN_IAC s.received
  rw [window_zero hs.start, List.take_of_length_le (by rw [length_slice])]
  exact hs.stream

lemma doubled_dev_read {avail : Option (List UInt8)} (hp : p.enabled = .telnet)
    (hs : s.Doubled banner) (hreader : s.reader = true) (htaken : s.Taken p (.dev_read avail ws))
    (hescapes : s.Escapes p (.dev_read avail ws))
    (h : s.handle_dev_fd_read p avail ws = some s') : s'.Closed ∨ s'.Doubled banner := by
  rw [handle_dev_fd_read] at h
  split at h
  · cases h
    exact .inl shutdown_closed
  · cases h
    exact .inl shutdown_closed
  · rename_i b l hgot
    have hne := List.cons_ne_nil b l
    obtain ⟨avail, -, hread⟩ := Option.bind_eq_some_iff.mp hgot
    obtain ⟨buf, count, hstore, hslice⟩ :=
      store_clean hp hne (dev_read_length hread) (hescapes _ hreader hgot hne)
    have hall := htaken _ _ hgot hstore
    have hstream : s.sent ++ slice buf 0 count =
        banner ++ double TN_IAC (s.received ++ b :: l) := by
      rw [hslice, double_append, ← List.append_assoc, hs.stream, List.append_assoc]
    rw [hstore] at h
    simp only [Option.bind_eq_bind, Option.bind_some] at h
    split at h
    · cases h
      exact .inr ⟨hs.start, hstream⟩
    · refine .inr (tryNetWrite_doubled ⟨?_, ?_⟩ ?_ h)
      · exact hs.start
      · exact hstream
      · exact hall

/-- A step of a telnet port that is connected. -/
lemma doubled_step (hp : p.enabled = .telnet) (hs : s.Doubled banner) (htaken : s.Taken p e)
    (hescapes : s.Escapes p e) (h : s.step p e = some s') : s'.Closed ∨ s'.Doubled banner := by
  cases e with
  | dev_read avail ws =>
    simp only [step] at h
    split at h
    case isTrue hreader => exact doubled_dev_read hp hs hreader htaken hescapes h
    case isFalse =>
      cases h
      exact .inr hs
  | aged ws =>
    simp only [step] at h
    split at h
    case isTrue hage =>
      exact .inr (tryNetWrite_doubled (s := { s with age := false }) ⟨hs.start, hs.stream⟩ htaken h)
    case isFalse =>
      cases h
      exact .inr hs
  | tcp_write w₁ w₂ =>
    simp only [step] at h
    split at h
    case isTrue =>
      cases h
      refine .inr ?_
      obtain ⟨hcmd, hdata⟩ := htaken
      simp only [handle_tcp_fd_write]
      split
      · exact write_data_doubled hs hdata
      · obtain ⟨k, ws', hw, hk⟩ := hcmd
        cases hw
        simp only [List.drop_eq_nil_of_le hk, if_true]
        exact write_data_doubled ⟨hs.start, hs.stream⟩ hdata
    case isFalse =>
      cases h
      exact .inr hs
  | telnet_output cmd =>
    simp only [step] at h
    split at h
    · cases h
      exact .inr ⟨hs.start, hs.stream⟩
    · cases h
      exact .inr hs

lemma closed_step_taken (hs : s.Closed) (htaken : s.Taken p e) (h : s.step p e = some s') :
    s'.Closed := by
  refine closed_step hs ?_ h
  cases e with
  | dev_read avail ws =>
    intro got hreader
    exact absurd (hs.reader.symm.trans hreader) (by decide)
  | aged ws => exact fun _ => TakesAll.settles htaken
  | tcp_write w₁ w₂ => trivial
  | telnet_output cmd => trivial

lemma doubled_opened : (opened p banner buf front age out_telnet_cmd).Doubled banner := by
  refine ⟨rfl, ?_⟩
  show [] ++ slice (put buf 0 banner) 0 banner.length = banner ++ []
  rw [slice_put_self, List.nil_append, List.append_nil]

/-- In every run of a telnet port in which each write takes all that it is given and what is read
can be escaped, what has been sent and what waits in the buffer is the banner and what has been
read from the device with every IAC doubled, and `process_telnet_data` makes of it what has been
read. -/
theorem device_stream_escaped (hp : p.enabled = .telnet)
    (h : Reach (step p) (fun s e => Taken p s e ∧ Escapes p s e)
      (opened p banner buf front age out_telnet_cmd) s) :
    s.dev_to_tcp_state = .unconnected ∨
    ∃ out td, s.sent ++ s.window = banner ++ out ∧ out = double TN_IAC s.received ∧
      process_telnet_data out .init = (s.received, td) ∧ td.handled = [] := by
  have hinv : s.Closed ∨ s.Doubled banner := by
    refine h.induction_on (P := fun s => s.Closed ∨ s.Doubled banner) (.inr doubled_opened)
      fun s e s' hs hok h => ?_
    obtain hs | hs := hs
    · exact .inl (closed_step_taken hs hok.1 h)
    · exact doubled_step hp hs hok.1 hok.2 h
  refine hinv.imp Closed.state fun hs => ?_
  obtain ⟨td, hdecode, -, hhandled⟩ :=
    @process_telnet_data_double .init s.received rfl
  exact ⟨_, td, (sent_window_zero hs.start).trans hs.stream, rfl, hdecode, hhandled⟩

/-- The telnet options are written, one byte is read and waits, and with three more, the first of
them an IAC, it is written. -/
theorem device_stream_escaped_single :
    ∃ (p : Settings) (s : Xfer), p.shortest = 4 ∧ s.received = [65, 255, 66] ∧
      s.sent = [65, 255, 255, 66] ∧ (s.dev_to_tcp_state = .unconnected ∨
      ∃ out td, s.sent ++ s.window = [] ++ out ∧ out = double TN_IAC s.received ∧
        process_telnet_data out .init = (s.received, td) ∧ td.handled = []) := by
  obtain ⟨p, hp⟩ : ∃ p : Settings, p = { enabled := .telnet, shortest := 4, maxAge := true } :=
    ⟨_, rfl⟩
  have hrun : ∃ s, Reach (step p) (fun s e => Taken p s e ∧ Escapes p s e)
      (opened p [] (fun _ => 0) (fun _ => 0) false [255, 251, 0]) s ∧
      s.received = [65, 255, 66] ∧ s.sent = [65, 255, 255, 66] := by
    subst hp
    refine ⟨_, ((Reach.init.step (e := .tcp_write (.accepted 3) (.accepted 0)) ?_ rfl).step
      (e := .dev_read (some [65]) [.accepted 1]) ?_ rfl).step
      (e := .dev_read (some [255, 66]) [.accepted 4]) ?_ rfl, rfl, rfl⟩
    · exact ⟨⟨⟨3, [], rfl, Nat.le_refl 3⟩, 0, [], rfl, Nat.le_refl 0⟩, trivial⟩
    · refine ⟨?_, fun got _ h _ => .inl ⟨rfl, ?_⟩⟩
      swap
      · cases h
        decide
      rintro got t h ht
      cases h
      cases ht
      exact ⟨1, [], rfl, Nat.le_refl 1⟩
    · refine ⟨?_, ?_⟩
      · rintro got t h ht
        cases h
        cases ht
        exact ⟨4, [], rfl, Nat.le_refl 4⟩
      · rintro got - h -
        cases h
        exact .inr (.inr ⟨rfl, by decide, by decide⟩)
  obtain ⟨s, hreach, hreceived, hsent⟩ := hrun
  exact ⟨p, s, by rw [hp], hreceived, hsent, device_stream_escaped (by rw [hp]) hreach⟩

/-- An IAC that is read while two bytes wait is not doubled, and the decoder takes it and the byte
after it for a command. -/
theorem device_stream_unescaped :
    ∃ (p : Settings) (s : Xfer) (td : TelnetData), p.enabled = .telnet ∧
      replay (step p) (opened p [] (fun _ => 0) (fun _ => 0) false [])
        [.tcp_write (.accepted 0) (.accepted 0), .dev_read (some [65, 66]) [.accepted 9],
          .dev_read (some [255, 67]) [.accepted 9]] = some s ∧
      s.dev_to_tcp_state ≠ .unconnected ∧ s.received = [65, 66, 255, 67] ∧
      s.sent = [65, 66, 255, 67] ∧ s.window = [] ∧
      process_telnet_data s.sent .init = ([65, 66], td) := by
  refine ⟨{ enabled := .telnet, shortest := 3, maxAge := false }, _, _, rfl, rfl, ?_, rfl, rfl, rfl,
    rfl⟩
  exact fun h => PortState.noConfusion h

end Xfer

end EspLinux.Ser2net
