import EspLinux.Lib.Run
import EspLinux.Ser2net.Port

/-!
# The stream to the device

What a port reads from the network waits in `tcp_to_dev_buf` until the device has taken it:
`tcp_to_dev_buf_count` bytes from `tcp_to_dev_buf_start` on.  `handle_tcp_fd_read` reads to the
beginning of the buffer, whatever is in it, and relies on not being called while there is something:
after a short write the read handler of the connection is off until `handle_dev_fd_write` has
written the rest.

The handlers are called from a loop over the descriptors for which `select` has returned, with a
copy of the sets that is not looked at again when a handler changes them, and a session may begin
or end during the loop.  On a port that does not do telnet nothing is lost or overwritten, whatever
the order (`inbound_stream`).
-/

namespace EspLinux.Ser2net

open EspLinux.Lib

/-! ## The model -/

/-- The part of a port that moves data to the device. -/
structure Inbound where
  tcp_to_dev_state : PortState
  tcp_to_dev_buf : ℕ → UInt8
  tcp_to_dev_buf_start : ℕ
  tcp_to_dev_buf_count : ℕ
  /-- The read handler of the connection is enabled. -/
  tcp_reader : Bool
  /-- The write handler of the device is enabled. -/
  dev_writer : Bool
  /-- The descriptor of the connection is in the copy of the read set and its turn is to come. -/
  tmp_read : Bool
  /-- The descriptor of the device is in the copy of the write set and its turn is to come. -/
  tmp_write : Bool
  /-- What this session, or the last one, has read from the network. -/
  received : List UInt8
  /-- What the device has taken of it. -/
  accepted : List UInt8
  /-- The session has not ended with what it read. -/
  cut_off : Bool

namespace Inbound

/-- `init_port_data` -/
def init (buf : ℕ → UInt8) : Inbound :=
  { tcp_to_dev_state := .unconnected
    tcp_to_dev_buf := buf
    tcp_to_dev_buf_start := 0
    tcp_to_dev_buf_count := 0
    tcp_reader := false
    dev_writer := false
    tmp_read := false
    tmp_write := false
    received := []
    accepted := []
    cut_off := false }

/-- `tcp_to_dev_buf[start .. start + count)` -/
def window (s : Inbound) : List UInt8 :=
  slice s.tcp_to_dev_buf s.tcp_to_dev_buf_start s.tcp_to_dev_buf_count

/-- The part of `shutdown_port` that concerns this direction. -/
def shutdown (s : Inbound) : Inbound :=
  { s with
    tcp_to_dev_state := .unconnected
    tcp_to_dev_buf_start := 0
    tcp_to_dev_buf_count := 0
    tcp_reader := false
    dev_writer := false }

/-- `setup_net_port2`, when it succeeds.  The new descriptors may have the numbers of old ones that
are still in the copies. -/
def setup_net_port2 (tmp_read tmp_write : Bool) (s : Inbound) : Inbound :=
  { s with
    tcp_to_dev_state := .waiting_input
    tcp_reader := true
    tmp_read := tmp_read
    tmp_write := tmp_write
    received := []
    accepted := []
    cut_off := false }

/-- The device has taken the first `n` bytes of `data`. -/
def take (n : ℕ) (data : List UInt8) (s : Inbound) : Inbound :=
  { s with
    tcp_to_dev_buf_count := s.tcp_to_dev_buf_count - n
    accepted := s.accepted ++ data.take n }

/-- Wait until the device is ready for more. -/
def clearOutput (s : Inbound) : Inbound :=
  { s with tcp_reader := false, dev_writer := true, tcp_to_dev_state := .waiting_output_clear }

/-- What `handle_tcp_fd_read` does when `write` has returned. -/
def first_write (w : Wrote) (s : Inbound) : Inbound :=
  match w with
  | .EINTR => s
  | .EAGAIN => s.clearOutput
  | .EPIPE => { s.shutdown with cut_off := true }
  | .error => { s.shutdown with cut_off := true }
  | .accepted n =>
    let write_count := min n s.tcp_to_dev_buf_count
    let s := s.take write_count (slice s.tcp_to_dev_buf 0 s.tcp_to_dev_buf_count)
    if s.tcp_to_dev_buf_count ≠ 0 then
      { s with tcp_to_dev_buf_start := s.tcp_to_dev_buf_start + write_count }.clearOutput
    else s

/-- What `read` returns is at the beginning of the buffer. -/
def fill (data : List UInt8) (s : Inbound) : Inbound :=
  { s with
    tcp_to_dev_buf := put s.tcp_to_dev_buf 0 data
    tcp_to_dev_buf_start := 0
    tcp_to_dev_buf_count := data.length
    received := s.received ++ data }

/-- `handle_tcp_fd_read` on a port that does not do telnet, when the network has `avail` to give,
where `none` is an error. -/
def handle_tcp_fd_read (enabled : Mode) (avail : Option (List UInt8)) (ws : List Wrote)
    (s : Inbound) : Option Inbound :=
  match avail.map (List.take PORT_BUFSIZE) with
  | none => some s.shutdown
  | some [] => some (if enabled ≠ .udp then s.shutdown else s.fill [])
  | some (b :: l) => (PortInfo.answer ws).map fun w => (s.fill (b :: l)).first_write w

/-- `handle_dev_fd_write` -/
def handle_dev_fd_write (w : Wrote) (s : Inbound) : Inbound :=
  match w with
  | .EINTR => s
  | .EAGAIN => s
  | .EPIPE => { s.shutdown with cut_off := true }
  | .error => { s.shutdown with cut_off := true }
  | .accepted n =>
    let write_count := min n s.tcp_to_dev_buf_count
    let s := s.take write_count s.window
    if s.tcp_to_dev_buf_count ≠ 0 then
      { s with tcp_to_dev_buf_start := s.tcp_to_dev_buf_start + write_count }
    else
      { s with tcp_reader := true, dev_writer := false, tcp_to_dev_state := .waiting_input }

end Inbound

/-- What happens to this direction of a port. -/
inductive InboundEvent
  /-- `select` returns, for the connection if it may be read and for the device if it may be
  written and the handlers are enabled. -/
  | select (readable writable : Bool)
  /-- The turn of the connection in the loop over what `select` has returned. -/
  | tcp_read (avail : Option (List UInt8)) (ws : List Wrote)
  /-- The turn of the device. -/
  | dev_write (w : Wrote)
  /-- A client connects. -/
  | accept (tmp_read tmp_write : Bool)
  /-- `handle_initial_UDP_port_read`: the turn of the socket has come. -/
  | initial_UDP_read (tmp_write : Bool) (avail : Option (List UInt8)) (ws : List Wrote)
  /-- The session is ended for another reason. -/
  | shutdown

/-- The answer of a `write` that is repeated is none to repeat it at. -/
lemma PortInfo.answer_ne_EINTR {ws : List Wrote} {w : Wrote} (h : answer ws = some w) :
    w ≠ .EINTR := by
  induction ws with
  | nil => cases h
  | cons v ws ih =>
    cases v with
    | EINTR => exact ih h
    | _ =>
      cases h
      exact fun h => Wrote.noConfusion h

namespace Inbound

/-- One event.  The handlers of a connection are there while it is open. -/
def step (enabled : Mode) (s : Inbound) : InboundEvent → Option Inbound
  | .select readable writable =>
    some { s with
      tmp_read := readable && s.tcp_reader
      tmp_write := writable && s.dev_writer }
  | .tcp_read avail ws =>
    if s.tmp_read ∧ s.tcp_to_dev_state ≠ .unconnected then
      { s with tmp_read := false }.handle_tcp_fd_read enabled avail ws
    else some { s with tmp_read := false }
  | .dev_write w =>
    if s.tmp_write ∧ s.tcp_to_dev_state ≠ .unconnected then
      some ({ s with tmp_write := false }.handle_dev_fd_write w)
    else some { s with tmp_write := false }
  | .accept tmp_read tmp_write =>
    if s.tcp_to_dev_state = .unconnected then some (s.setup_net_port2 tmp_read tmp_write)
    else some s
  | .initial_UDP_read tmp_write avail ws =>
    if enabled = .udp ∧ s.tcp_to_dev_state = .unconnected then
      (s.setup_net_port2 false tmp_write).handle_tcp_fd_read enabled avail ws
    else some s
  | .shutdown =>
    some (if s.tcp_to_dev_state = .unconnected then s else { s.shutdown with cut_off := true })

/-- The event makes a `read` from the network. -/
def Reads (enabled : Mode) (s : Inbound) : InboundEvent → Prop
  | .tcp_read _ _ => s.tmp_read = true ∧ s.tcp_to_dev_state ≠ .unconnected
  | .initial_UDP_read _ _ _ => enabled = .udp ∧ s.tcp_to_dev_state = .unconnected
  | _ => False

/-- What holds at any time. -/
structure Flows (s : Inbound) : Prop where
  stream : s.cut_off = false → s.accepted ++ s.window = s.received
  inside : s.tcp_to_dev_buf_start + s.tcp_to_dev_buf_count ≤ PORT_BUFSIZE
  /-- While something is in the buffer nobody reads. -/
  reader : s.tcp_reader = true → s.tcp_to_dev_buf_count = 0
  turn : s.tmp_read = true → s.tcp_to_dev_buf_count = 0
  closed : s.tcp_to_dev_state = .unconnected → s.tcp_to_dev_buf_count = 0
  /-- Somebody takes care of what is in the buffer, and reads more when there is nothing. -/
  writer : s.tcp_to_dev_buf_count ≠ 0 → s.dev_writer = true
  idle : s.tcp_to_dev_state ≠ .unconnected → s.tcp_to_dev_buf_count = 0 → s.tcp_reader = true

/-! ## The steps -/

variable {enabled : Mode} {buf : ℕ → UInt8} {s s' : Inbound} {avail : Option (List UInt8)}
  {data : List UInt8} {ws : List Wrote} {w : Wrote} {e : InboundEvent} {n : ℕ}

lemma window_nil (h : s.tcp_to_dev_buf_count = 0) : s.window = [] := by
  rw [window, h, slice_zero]

lemma init_flows : (init buf).Flows where
  stream _ := rfl
  inside := Nat.zero_le _
  reader _ := rfl
  turn _ := rfl
  closed _ := rfl
  writer h := absurd rfl h
  idle h := absurd rfl h

/-- The end of a session that has passed on all it read. -/
lemma shutdown_flows (hstream : s.cut_off = false → s.accepted = s.received) :
    s.shutdown.Flows where
  stream h := by
    rw [window_nil rfl, List.append_nil]
    exact hstream h
  inside := Nat.zero_le _
  reader _ := rfl
  turn _ := rfl
  closed _ := rfl
  writer h := absurd rfl h
  idle h := absurd rfl h

lemma cut_off_flows : Flows { s.shutdown with cut_off := true } where
  stream h := Bool.noConfusion h
  inside := Nat.zero_le _
  reader _ := rfl
  turn _ := rfl
  closed _ := rfl
  writer h := absurd rfl h
  idle h := absurd rfl h

/-- A session begins with an empty buffer. -/
lemma setup_flows {tmp_read tmp_write : Bool} (h : s.Flows) (hcount : s.tcp_to_dev_buf_count = 0) :
    (s.setup_net_port2 tmp_read tmp_write).Flows where
  stream _ := window_nil hcount
  inside := h.inside
  reader _ := hcount
  turn _ := hcount
  closed h := PortState.noConfusion h
  writer h := absurd hcount h
  idle _ _ := rfl

/-- Taking bytes from the front of the window moves it. -/
lemma take_window (hn : n ≤ s.tcp_to_dev_buf_count) :
    s.window.take n ++ slice s.tcp_to_dev_buf (s.tcp_to_dev_buf_start + n)
      (s.tcp_to_dev_buf_count - n) = s.window := by
  rw [window, ← drop_slice hn, List.take_append_drop]

/-- When the window is empty everything has been taken. -/
lemma take_all (hn : s.tcp_to_dev_buf_count - n = 0) :
    s.window.take n ++ slice s.tcp_to_dev_buf s.tcp_to_dev_buf_start
      (s.tcp_to_dev_buf_count - n) = s.window := by
  rw [hn, slice_zero, List.append_nil, List.take_of_length_le]
  rw [window, length_slice]
  omega

/-- What `read` has put into the buffer goes to the device, or waits for it. -/
lemma first_write_flows (hstream : s.cut_off = false → s.accepted ++ s.window = s.received)
    (hstart : s.tcp_to_dev_buf_start = 0) (hcount : s.tcp_to_dev_buf_count ≠ 0)
    (hinside : s.tcp_to_dev_buf_count ≤ PORT_BUFSIZE) (hturn : s.tmp_read = false)
    (hreader : s.tcp_reader = true) (hw : w ≠ .EINTR) : (s.first_write w).Flows := by
  have hlate : ∀ {P : Prop}, s.tmp_read = true → P := fun h =>
    absurd (hturn.symm.trans h) Bool.false_ne_true
  cases w with
  | EINTR => exact absurd rfl hw
  | EPIPE => exact cut_off_flows
  | error => exact cut_off_flows
  | EAGAIN =>
    exact
      { stream := hstream
        inside := by
          show s.tcp_to_dev_buf_start + s.tcp_to_dev_buf_count ≤ PORT_BUFSIZE
          omega
        reader := fun h => Bool.noConfusion h
        turn := hlate
        closed := fun h => PortState.noConfusion h
        writer := fun _ => rfl
        idle := fun _ h => absurd h hcount }
  | accepted n =>
    obtain ⟨k, hk⟩ : ∃ k, k = min n s.tcp_to_dev_buf_count := ⟨_, rfl⟩
    have hkle : k ≤ s.tcp_to_dev_buf_count := by omega
    have hdata : slice s.tcp_to_dev_buf 0 s.tcp_to_dev_buf_count = s.window := by
      rw [window, hstart]
    simp only [first_write]
    rw [← hk, hdata]
    by_cases hrest : (s.take k s.window).tcp_to_dev_buf_count = 0
    · rw [if_neg (not_not.mpr hrest)]
      exact
        { stream := fun h => by
            show (s.accepted ++ s.window.take k) ++ slice s.tcp_to_dev_buf
              s.tcp_to_dev_buf_start (s.tcp_to_dev_buf_count - k) = _
            rw [List.append_assoc, take_all hrest]
            exact hstream h
          inside := by
            show s.tcp_to_dev_buf_start + (s.tcp_to_dev_buf_count - k) ≤ PORT_BUFSIZE
            omega
          reader := fun _ => hrest
          turn := fun _ => hrest
          closed := fun _ => hrest
          writer := fun h => absurd hrest h
          idle := fun _ _ => hreader }
    · rw [if_pos hrest]
      exact
        { stream := fun h => by
            show (s.accepted ++ s.window.take k) ++ slice s.tcp_to_dev_buf
              (s.tcp_to_dev_buf_start + k) (s.tcp_to_dev_buf_count - k) = _
            rw [List.append_assoc, take_window hkle]
            exact hstream h
          inside := by
            show s.tcp_to_dev_buf_start + k + (s.tcp_to_dev_buf_count - k) ≤ PORT_BUFSIZE
            omega
          reader := fun h => Bool.noConfusion h
          turn := hlate
          closed := fun h => PortState.noConfusion h
          writer := fun _ => rfl
          idle := fun _ h => absurd h hrest }

/-- `handle_tcp_fd_read` is called with an empty buffer, and everything that comes before is on
the device. -/
lemma handle_tcp_fd_read_flows (h : s.Flows) (hcount : s.tcp_to_dev_buf_count = 0)
    (hturn : s.tmp_read = false) (hopen : s.tcp_to_dev_state ≠ .unconnected)
    (hs : s.handle_tcp_fd_read enabled avail ws = some s') : s'.Flows := by
  have haccepted : s.cut_off = false → s.accepted = s.received := by
    intro hcut
    rw [← h.stream hcut, window_nil hcount, List.append_nil]
  simp only [handle_tcp_fd_read] at hs
  split at hs
  · cases hs
    exact shutdown_flows haccepted
  · cases hs
    split
    · exact shutdown_flows haccepted
    · -- an empty datagram
      exact
        { stream := fun hcut => by
            show s.accepted ++ [] = s.received ++ []
            rw [haccepted hcut]
          inside := Nat.zero_le _
          reader := fun _ => rfl
          turn := fun _ => rfl
          closed := fun _ => rfl
          writer := fun h => absurd rfl h
          idle := fun _ _ => h.idle hopen hcount }
  · rename_i b l havail
    obtain ⟨w, hw, hs⟩ := Option.map_eq_some_iff.mp hs
    rw [← hs]
    refine first_write_flows (fun hcut => ?_) rfl (Nat.succ_ne_zero _) ?_ hturn
      (h.idle hopen hcount) (PortInfo.answer_ne_EINTR hw)
    · show s.accepted ++ slice (put s.tcp_to_dev_buf 0 (b :: l)) 0 (b :: l).length =
        s.received ++ (b :: l)
      rw [slice_put_self, haccepted hcut]
    · obtain ⟨data, -, hdata⟩ := Option.map_eq_some_iff.mp havail
      show (b :: l).length ≤ PORT_BUFSIZE
      rw [← hdata]
      exact List.length_take_le _ _

lemma handle_dev_fd_write_flows (h : s.Flows) (hopen : s.tcp_to_dev_state ≠ .unconnected) :
    (s.handle_dev_fd_write w).Flows := by
  cases w with
  | EINTR => exact h
  | EAGAIN => exact h
  | EPIPE => exact cut_off_flows
  | error => exact cut_off_flows
  | accepted n =>
    obtain ⟨k, hk⟩ : ∃ k, k = min n s.tcp_to_dev_buf_count := ⟨_, rfl⟩
    have hkle : k ≤ s.tcp_to_dev_buf_count := by omega
    have hinside := h.inside
    simp only [handle_dev_fd_write]
    rw [← hk]
    by_cases hrest : (s.take k s.window).tcp_to_dev_buf_count = 0
    · rw [if_neg (not_not.mpr hrest)]
      exact
        { stream := fun hcut => by
            show (s.accepted ++ s.window.take k) ++ slice s.tcp_to_dev_buf
              s.tcp_to_dev_buf_start (s.tcp_to_dev_buf_count - k) = _
            rw [List.append_assoc, take_all hrest]
            exact h.stream hcut
          inside := by
            show s.tcp_to_dev_buf_start + (s.tcp_to_dev_buf_count - k) ≤ PORT_BUFSIZE
            omega
          reader := fun _ => hrest
          turn := fun _ => hrest
          closed := fun _ => hrest
          writer := fun h => absurd hrest h
          idle := fun _ _ => rfl }
    · have hne : s.tcp_to_dev_buf_count ≠ 0 := fun hzero =>
        hrest ((congrArg (· - k) hzero).trans (Nat.zero_sub k))
      rw [if_pos hrest]
      exact
        { stream := fun hcut => by
            show (s.accepted ++ s.window.take k) ++ slice s.tcp_to_dev_buf
              (s.tcp_to_dev_buf_start + k) (s.tcp_to_dev_buf_count - k) = _
            rw [List.append_assoc, take_window hkle]
            exact h.stream hcut
          inside := by
            show s.tcp_to_dev_buf_start + k + (s.tcp_to_dev_buf_count - k) ≤ PORT_BUFSIZE
            omega
          reader := fun hr => absurd (h.reader hr) hne
          turn := fun ht => absurd (h.turn ht) hne
          closed := fun hc => absurd hc hopen
          writer := fun _ => h.writer hne
          idle := fun _ h => absurd h hrest }

/-- Changing the copies keeps everything, if the connection is not called with something in the
buffer. -/
lemma Flows.turns (h : s.Flows) {tmp_read tmp_write : Bool}
    (hturn : tmp_read = true → s.tcp_to_dev_buf_count = 0) :
    Flows { s with tmp_read := tmp_read, tmp_write := tmp_write } :=
  { h with turn := hturn }

lemma step_flows (h : s.Flows) (hs : s.step enabled e = some s') : s'.Flows := by
  cases e with
  | select readable writable =>
    cases hs
    exact h.turns fun ht => h.reader (Bool.and_eq_true_iff.mp ht).2
  | tcp_read avail ws =>
    have hdone : Flows { s with tmp_read := false } := h.turns fun ht => Bool.noConfusion ht
    simp only [step] at hs
    split at hs
    · rename_i hcall
      exact handle_tcp_fd_read_flows hdone (h.turn hcall.1) rfl hcall.2 hs
    · cases hs
      exact hdone
  | dev_write w =>
    have hdone : Flows { s with tmp_write := false } := h.turns h.turn
    simp only [step] at hs
    split at hs
    · rename_i hcall
      cases hs
      exact handle_dev_fd_write_flows hdone hcall.2
    · cases hs
      exact hdone
  | accept tmp_read tmp_write =>
    simp only [step] at hs
    split at hs
    · rename_i hclosed
      cases hs
      exact setup_flows h (h.closed hclosed)
    · cases hs
      exact h
  | initial_UDP_read tmp_write avail ws =>
    simp only [step] at hs
    split at hs
    · rename_i hclosed
      have hcount := h.closed hclosed.2
      exact handle_tcp_fd_read_flows (setup_flows h hcount) hcount rfl
        (fun h => PortState.noConfusion h) hs
    · cases hs
      exact h
  | shutdown =>
    cases hs
    split
    · exact h
    · exact cut_off_flows

/-! ## Runs -/

/-- On a port that does not do telnet, what the device has taken and what waits in the buffer is
what has been read from the network, unless the session has been ended by something else; and there
is no read while something waits. -/
theorem inbound_stream (h : Reach (step enabled) (fun _ _ => True) (init buf) s) :
    (s.cut_off = false →
      s.accepted ++ slice s.tcp_to_dev_buf s.tcp_to_dev_buf_start s.tcp_to_dev_buf_count =
        s.received) ∧
      ∀ e, s.Reads enabled e → s.tcp_to_dev_buf_count = 0 := by
  have hflows : s.Flows := h.induction_on init_flows fun _ _ _ h _ hs => step_flows h hs
  refine ⟨hflows.stream, fun e he => ?_⟩
  cases e with
  | tcp_read avail ws => exact hflows.turn he.1
  | initial_UDP_read tmp_write avail ws => exact hflows.closed he.2
  | select => cases he
  | dev_write => cases he
  | accept => cases he
  | shutdown => cases he

/-- The device takes one byte of three, then another. -/
def shortWrites : List InboundEvent :=
  [.accept false false, .select true true, .tcp_read (some [1, 2, 3]) [.EINTR, .accepted 1],
    .select true true, .dev_write (.accepted 1)]

theorem inbound_stream_short :
    ∃ s, replay (step .raw) (init fun _ => 0) shortWrites = some s ∧
      s.received = [1, 2, 3] ∧ s.window = [3] ∧
      ((s.cut_off = false →
        s.accepted ++ slice s.tcp_to_dev_buf s.tcp_to_dev_buf_start s.tcp_to_dev_buf_count =
          s.received) ∧
        ∀ e, s.Reads .raw e → s.tcp_to_dev_buf_count = 0) := by
  obtain ⟨s, hs, hreceived, hwindow⟩ :
      ∃ s, replay (step .raw) (init fun _ => 0) shortWrites = some s ∧
        s.received = [1, 2, 3] ∧ s.window = [3] := ⟨_, rfl, rfl, rfl⟩
  exact ⟨s, hs, hreceived, hwindow, inbound_stream (Reach.init.of_replay hs)⟩

/-! ## The record of the port -/

variable {p p' : PortInfo} {k k' : Kernel} {shut : Bool}

/-- The record holds what waits in the buffer as a list. -/
structure Holds (p : PortInfo) (s : Inbound) : Prop where
  state : p.tcp_to_dev_state = s.tcp_to_dev_state
  buf : p.tcp_to_dev_buf = s.window

/-- What is left of the window when the device has taken something. -/
lemma drop_window : s.window.drop n = slice s.tcp_to_dev_buf
    (s.tcp_to_dev_buf_start + min n s.tcp_to_dev_buf_count)
    (s.tcp_to_dev_buf_count - min n s.tcp_to_dev_buf_count) := by
  rw [window, ← drop_slice (Nat.min_le_right _ _)]
  rcases Nat.le_total n s.tcp_to_dev_buf_count with hn | hn
  · rw [Nat.min_eq_left hn]
  · rw [Nat.min_eq_right hn, List.drop_of_length_le (by rwa [length_slice]),
      List.drop_of_length_le (by rw [length_slice])]

lemma drop_window_eq_nil : s.window.drop n = [] ↔
    (s.take (min n s.tcp_to_dev_buf_count) s.window).tcp_to_dev_buf_count = 0 := by
  rw [drop_window, ← List.length_eq_zero_iff, length_slice]
  rfl

/-- What the record of a port says of `handle_dev_fd_write` is what happens to the buffer. -/
theorem handle_dev_fd_write_holds (h : Holds p s)
    (hr : p.handle_dev_fd_write w k = (k', p', shut)) :
    if shut then (s.handle_dev_fd_write w).tcp_to_dev_state = .unconnected
    else Holds p' (s.handle_dev_fd_write w) := by
  cases w with
  | EINTR =>
    cases hr
    exact h
  | EAGAIN =>
    cases hr
    exact ⟨h.state, h.buf⟩
  | EPIPE =>
    cases hr
    rfl
  | error =>
    cases hr
    rfl
  | accepted n =>
    simp only [PortInfo.handle_dev_fd_write, h.buf] at hr
    simp only [handle_dev_fd_write]
    by_cases hrest : s.window.drop n = []
    · rw [if_neg (not_not.mpr hrest)] at hr
      rw [if_neg (not_not.mpr (drop_window_eq_nil.mp hrest))]
      cases hr
      exact ⟨rfl, hrest.trans (window_nil (drop_window_eq_nil.mp hrest)).symm⟩
    · rw [if_pos hrest] at hr
      rw [if_pos (mt drop_window_eq_nil.mpr hrest)]
      cases hr
      exact ⟨h.state, drop_window⟩

/-- What the record of a port says of `handle_tcp_fd_read` is what happens to the buffer. -/
theorem handle_tcp_fd_read_holds (hp : p.enabled ≠ .telnet) (h : Holds p s) {replies : List UInt8}
    {error : Bool}
    (hr : p.handle_tcp_fd_read ⟨avail.map (List.take PORT_BUFSIZE), replies, error, ws⟩ k =
      some (k', p', shut)) :
    ∃ s', s.handle_tcp_fd_read p.enabled avail ws = some s' ∧
      if shut then s'.tcp_to_dev_state = .unconnected else Holds p' s' := by
  simp only [PortInfo.handle_tcp_fd_read] at hr
  simp only [handle_tcp_fd_read]
  generalize avail.map (List.take PORT_BUFSIZE) = data at hr ⊢
  rcases data with _ | _ | ⟨b, l⟩
  · cases hr
    exact ⟨_, rfl, rfl⟩
  · cases hr
    refine ⟨_, rfl, ?_⟩
    by_cases hudp : p.enabled = .udp
    · rw [if_neg (not_not.mpr hudp)]
      simp only [hudp, ne_eq, not_true_eq_false, decide_false, Bool.false_eq_true, if_false]
      exact ⟨h.state, rfl⟩
    · rw [if_pos hudp, decide_eq_true hudp]
      rfl
  · have hread : p.telnet_read ⟨some (b :: l), replies, error, ws⟩ (b :: l) =
        { p with tcp_to_dev_buf := b :: l } := by
      rw [PortInfo.telnet_read, if_neg hp]
    have hfill : (s.fill (b :: l)).window = b :: l := by
      show slice (put s.tcp_to_dev_buf 0 (b :: l)) 0 (b :: l).length = b :: l
      exact slice_put_self
    simp only [hread, hp, false_and, if_false, List.cons_ne_nil] at hr
    obtain ⟨w, hw, hr⟩ := Option.bind_eq_some_iff.mp hr
    refine ⟨(s.fill (b :: l)).first_write w, by rw [hw]; rfl, ?_⟩
    cases w with
    | EINTR => exact absurd rfl (PortInfo.answer_ne_EINTR hw)
    | EPIPE =>
      cases hr
      rfl
    | error =>
      cases hr
      rfl
    | EAGAIN =>
      cases hr
      exact ⟨rfl, hfill.symm⟩
    | accepted n =>
      simp only [first_write]
      rw [show slice (s.fill (b :: l)).tcp_to_dev_buf 0 (s.fill (b :: l)).tcp_to_dev_buf_count =
        (s.fill (b :: l)).window from rfl]
      simp only [reduceCtorEq, or_self, if_false] at hr
      rw [← hfill] at hr
      by_cases hrest : (s.fill (b :: l)).window.drop n = []
      · rw [if_neg (not_not.mpr hrest)] at hr
        rw [if_neg (not_not.mpr (drop_window_eq_nil.mp hrest))]
        cases hr
        exact ⟨h.state, hrest.trans (window_nil (drop_window_eq_nil.mp hrest)).symm⟩
      · rw [if_pos hrest] at hr
        rw [if_pos (mt drop_window_eq_nil.mpr hrest)]
        cases hr
        exact ⟨rfl, drop_window⟩

end Inbound

end EspLinux.Ser2net
