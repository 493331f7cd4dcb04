import EspLinux.Lib.Run
import EspLinux.Ser2net.Transfer

/-!
# The stream from the device

On a raw or a UDP port what the network has taken, followed by what waits in the buffer, should
be what has been read from the device.  Two things spoil this.  `tryNetWrite` adds the result of
`write` to `dev_to_tcp_buf_start` also when it is the -1 of a refused write, and nobody sets
`dev_to_tcp_buf_start` back to 0 when the buffer has been written out, although
`handle_dev_fd_read` and `tryNetWrite` work from position 0.

A run keeps the stream if its steps stay away from both (`Keeps`): the three handlers then agree
on where the buffer starts whenever there is something in it (`Flows`).
-/

namespace EspLinux.Ser2net

open EspLinux.Lib

namespace Xfer

/-- The write of the first `n` bytes of the buffer gives nothing that loses the place, when
`dev_to_tcp_buf_start` is `start` before. -/
def settles (start : ℤ) (n : ℕ) : List Wrote → Prop
  | [] => True
  | .EINTR :: ws => settles start n ws
  | .EAGAIN :: _ => start = 1
  | .accepted k :: _ => n ≤ k ∨ start = 0
  | .EPIPE :: _ => True
  | .error :: _ => True

/-- The condition on a step: what is read and not yet written is stored where the buffer starts,
and the writes from the start of the buffer settle. -/
def Keeps (p : Settings) (s : Xfer) : Event → Prop
  | .dev_read avail ws => ∀ got, s.reader = true → avail.bind (s.dev_read p) = some got → got ≠ [] →
      if s.dev_to_tcp_buf_count + got.length < p.shortest then s.dev_to_tcp_buf_start = 0
      else settles s.dev_to_tcp_buf_start (s.dev_to_tcp_buf_count + got.length) ws
  | .aged ws => s.age = true → settles s.dev_to_tcp_buf_start s.dev_to_tcp_buf_count ws
  | .tcp_write _ _ => True
  | .telnet_output _ => True

/-- What holds of a port that is connected. -/
structure Flows (banner : List UInt8) (s : Xfer) : Prop where
  stream : s.sent ++ s.window = banner ++ s.received
  no_cmd : s.out_telnet_cmd = []
  /-- While the network is waited for nobody writes from the start of the buffer. -/
  waits : s.writer = true → s.reader = false ∧ s.age = false
  start : s.dev_to_tcp_buf_start = 0 ∨ s.dev_to_tcp_buf_count = 0 ∨ s.writer = true

/-- What holds of a port that is not: nothing is in the buffer, and only the timer may go on. -/
structure Closed (s : Xfer) : Prop where
  state : s.dev_to_tcp_state = .unconnected
  start : s.dev_to_tcp_buf_start = 0
  count : s.dev_to_tcp_buf_count = 0
  reader : s.reader = false
  writer : s.writer = false

variable {p : Settings} {banner got : List UInt8} {buf front : ℕ → UInt8} {age : Bool} {s s' : Xfer}
  {ws : List Wrote} {e : Event}

/-! ## The window -/

lemma byte_natCast (j : ℕ) : s.byte j = s.dev_to_tcp_buf j := by
  rw [byte, if_pos (Int.natCast_nonneg j), Int.toNat_natCast]

lemma window_natCast {k : ℕ} (h : s.dev_to_tcp_buf_start = k) :
    s.window = slice s.dev_to_tcp_buf k s.dev_to_tcp_buf_count := by
  rw [window, h]
  refine List.map_congr_left fun j _ => ?_
  show s.byte (k + (0 + j : ℕ)) = _
  rw [Nat.zero_add, ← Nat.cast_add, byte_natCast]

lemma window_zero (h : s.dev_to_tcp_buf_start = 0) :
    s.window = slice s.dev_to_tcp_buf 0 s.dev_to_tcp_buf_count := window_natCast h

lemma window_nil (h : s.dev_to_tcp_buf_count = 0) : s.window = [] := by
  rw [window, h, slice_zero]

lemma sent_window_zero (h : s.dev_to_tcp_buf_start = 0) :
    s.sent ++ s.window = s.sent ++ slice s.dev_to_tcp_buf 0 s.dev_to_tcp_buf_count := by
  rw [window_zero h]

/-- When the window is empty everything has been sent. -/
lemma sent_window (h : s.dev_to_tcp_buf_count = 0) : s.sent ++ s.window = s.sent := by
  rw [window_nil h, List.append_nil]

/-- Where the window starts does not matter while it is empty. -/
lemma window_of_start (h : s.dev_to_tcp_buf_start = 0 ∨ s.dev_to_tcp_buf_count = 0) :
    s.window = slice s.dev_to_tcp_buf 0 s.dev_to_tcp_buf_count := by
  obtain h | h := h
  · exact window_zero h
  · rw [window_nil h, h, slice_zero]

/-- Taking bytes from the front of the window moves it. -/
lemma window_drop {s' : Xfer} {n : ℕ} (hn : n ≤ s.dev_to_tcp_buf_count)
    (hbuf : s'.dev_to_tcp_buf = s.dev_to_tcp_buf) (hfront : s'.front = s.front)
    (hstart : s'.dev_to_tcp_buf_start = s.dev_to_tcp_buf_start + n)
    (hcount : s'.dev_to_tcp_buf_count = s.dev_to_tcp_buf_count - n) :
    s'.window = s.window.drop n := by
  rw [window, window, drop_slice hn, hcount, hstart]
  refine List.map_congr_left fun j _ => ?_
  show s'.byte (s.dev_to_tcp_buf_start + n + (0 + j : ℕ)) =
    s.byte (s.dev_to_tcp_buf_start + (0 + n + j : ℕ))
  rw [byte, byte, hbuf, hfront, Nat.zero_add, Nat.zero_add, Nat.cast_add, Int.add_assoc]

/-! ## The writes -/

lemma shutdown_closed : s.shutdown.Closed := ⟨rfl, rfl, rfl, rfl, rfl⟩

/-- The write from the start of the buffer keeps the stream, if it settles. -/
lemma tryNetWrite_flows (hstream : s.sent ++ slice s.dev_to_tcp_buf 0 s.dev_to_tcp_buf_count =
      banner ++ s.received) (hcmd : s.out_telnet_cmd = []) (hage : s.age = false)
    (hwriter : s.writer = false)
    (hset : settles s.dev_to_tcp_buf_start s.dev_to_tcp_buf_count ws)
    (h : tryNetWrite ws s = some s') : s'.Closed ∨ s'.Flows banner := by
  induction ws with
  | nil => exact absurd h (by simp [tryNetWrite])
  | cons w ws ih =>
    cases w with
    | EINTR => exact ih hset h
    | EPIPE =>
      cases h
      exact .inl shutdown_closed
    | error =>
      cases h
      exact .inl shutdown_closed
    | EAGAIN =>
      cases h
      have hstart : (s.clearOutput (-1)).dev_to_tcp_buf_start = 0 := by
        show s.dev_to_tcp_buf_start + -1 = 0
        rw [show s.dev_to_tcp_buf_start = 1 from hset]
        rfl
      refine .inr ⟨?_, hcmd, fun _ => ⟨rfl, hage⟩, .inl hstart⟩
      exact (sent_window_zero hstart).trans hstream
    | accepted n =>
      simp only [tryNetWrite] at h
      obtain ⟨k, hk⟩ : ∃ k, k = min n s.dev_to_tcp_buf_count := ⟨_, rfl⟩
      rw [← hk] at h
      split at h
      case isTrue hrest =>
        -- a short write is one from the start of the buffer
        have hrest : s.dev_to_tcp_buf_count - k ≠ 0 := hrest
        have hzero : s.dev_to_tcp_buf_start = 0 := hset.resolve_left (by omega)
        cases h
        refine .inr ⟨?_, hcmd, fun _ => ⟨rfl, hage⟩, .inr (.inr rfl)⟩
        have hwindow : (clearOutput k (s.take k (slice s.dev_to_tcp_buf 0 s.dev_to_tcp_buf_count))).window =
            s.window.drop k := window_drop (by omega) rfl rfl rfl rfl
        rw [hwindow, window_zero hzero]
        show (s.sent ++ List.take k _) ++ _ = banner ++ s.received
        rw [List.append_assoc, List.take_append_drop]
        exact hstream
      case isFalse hrest =>
        have hrest : s.dev_to_tcp_buf_count - k = 0 := not_not.mp hrest
        cases h
        refine .inr ⟨?_, hcmd, fun hw => ?_, .inr (.inl hrest)⟩
        · refine (sent_window hrest).trans ?_
          show s.sent ++ List.take k _ = banner ++ s.received
          rw [List.take_of_length_le (by rw [length_slice]; omega)]
          exact hstream
        · exact absurd (hwriter.symm.trans hw) (by decide)

/-- On a port without a session `tryNetWrite` has nothing to write. -/
lemma tryNetWrite_closed (hs : s.Closed)
    (hset : settles s.dev_to_tcp_buf_start s.dev_to_tcp_buf_count ws)
    (h : tryNetWrite ws s = some s') : s'.Closed := by
  induction ws with
  | nil => exact absurd h (by simp [tryNetWrite])
  | cons w ws ih =>
    cases w with
    | EINTR => exact ih hset h
    | EPIPE =>
      cases h
      exact shutdown_closed
    | error =>
      cases h
      exact shutdown_closed
    | EAGAIN => exact absurd (hs.start.symm.trans hset) (by decide)
    | accepted n =>
      simp only [tryNetWrite] at h
      rw [if_neg (not_not.mpr (by simp [take, hs.count]))] at h
      cases h
      exact ⟨hs.state, hs.start, by simp [take, hs.count], hs.reader, hs.writer⟩

/-- The write handler goes on where the buffer starts. -/
lemma write_data_flows {w : Wrote} (hs : s.Flows banner) (hw : s.writer = true) :
    (s.write_data w).Closed ∨ (s.write_data w).Flows banner := by
  obtain ⟨hreader, hage⟩ := hs.waits hw
  cases w with
  | EINTR => exact .inr hs
  | EAGAIN => exact .inr hs
  | EPIPE => exact .inl shutdown_closed
  | error => exact .inl shutdown_closed
  | accepted n =>
    refine .inr ?_
    simp only [write_data]
    obtain ⟨k, hk⟩ : ∃ k, k = min n s.dev_to_tcp_buf_count := ⟨_, rfl⟩
    rw [← hk]
    split
    case isTrue hrest =>
      refine ⟨?_, hs.no_cmd, fun _ => ⟨hreader, hage⟩, .inr (.inr hw)⟩
      have hwindow : Xfer.window { s.take k s.window with
          dev_to_tcp_buf_start := (s.take k s.window).dev_to_tcp_buf_start + k } =
          s.window.drop k := window_drop (by omega) rfl rfl rfl rfl
      show (s.sent ++ List.take k s.window) ++ _ = banner ++ s.received
      rw [hwindow, List.append_assoc, List.take_append_drop]
      exact hs.stream
    case isFalse hrest =>
      have hrest : s.dev_to_tcp_buf_count - k = 0 := not_not.mp hrest
      refine ⟨?_, hs.no_cmd, nofun, .inr (.inl hrest)⟩
      refine (sent_window hrest).trans ?_
      show s.sent ++ List.take k s.window = banner ++ s.received
      rw [List.take_of_length_le (by rw [window, length_slice]; omega)]
      exact hs.stream

/-! ## A step and a run -/

lemma flows_dev_read {avail : Option (List UInt8)} (hp : p.enabled ≠ .telnet) (hs : s.Flows banner)
    (hreader : s.reader = true) (hkeeps : s.Keeps p (.dev_read avail ws))
    (h : s.handle_dev_fd_read p avail ws = some s') : s'.Closed ∨ s'.Flows banner := by
  have hwriter : s.writer = false := by
    cases hw : s.writer with
    | false => rfl
    | true => exact absurd ((hs.waits hw).1.symm.trans hreader) (by decide)
  have hwindow := window_of_start (hs.start.imp_right (Or.resolve_right · (by simp [hwriter])))
  rw [handle_dev_fd_read] at h
  split at h
  · cases h
    exact .inl shutdown_closed
  · cases h
    exact .inl shutdown_closed
  · rename_i b l hgot
    have hkeeps := hkeeps (b :: l) hreader hgot (List.cons_ne_nil b l)
    obtain ⟨got, hgot'⟩ : ∃ got, got = b :: l := ⟨_, rfl⟩
    rw [← hgot'] at h hkeeps
    rw [store, if_neg hp] at h
    simp only [Option.bind_eq_bind, Option.bind_some] at h
    -- what is read is appended to what waits
    have hstream : s.sent ++ slice (put s.dev_to_tcp_buf s.dev_to_tcp_buf_count got) 0
        (s.dev_to_tcp_buf_count + got.length) = banner ++ (s.received ++ got) := by
      have happend := slice_put_append (m := s.dev_to_tcp_buf) (p := 0) (n := s.dev_to_tcp_buf_count)
        (l := got)
      rw [Nat.zero_add] at happend
      rw [happend, ← hwindow, ← List.append_assoc, hs.stream, List.append_assoc]
    split at h
    case isTrue hlt =>
      cases h
      rw [if_pos hlt] at hkeeps
      refine .inr ⟨?_, hs.no_cmd, fun hw => absurd (hwriter.symm.trans hw) (by decide), .inl hkeeps⟩
      refine (sent_window_zero ?_).trans hstream
      exact hkeeps
    case isFalse hge =>
      rw [if_neg hge] at hkeeps
      refine tryNetWrite_flows ?_ ?_ ?_ ?_ ?_ h
      · exact hstream
      · exact hs.no_cmd
      · rfl
      · exact hwriter
      · exact hkeeps

lemma flows_aged (hs : s.Flows banner) (hage : s.age = true) (hkeeps : s.Keeps p (.aged ws))
    (h : s.aged ws = some s') : s'.Closed ∨ s'.Flows banner := by
  have hwriter : s.writer = false := by
    cases hw : s.writer with
    | false => rfl
    | true => exact absurd ((hs.waits hw).2.symm.trans hage) (by decide)
  have hwindow := window_of_start (hs.start.imp_right (Or.resolve_right · (by simp [hwriter])))
  have hstream := hs.stream
  rw [hwindow] at hstream
  exact tryNetWrite_flows (s := { s with age := false }) hstream hs.no_cmd rfl hwriter
    (hkeeps hage) h

/-- A step of a port that is connected. -/
lemma flows_step (hp : p.enabled ≠ .telnet) (hs : s.Flows banner) (hkeeps : s.Keeps p e)
    (h : s.step p e = some s') : s'.Closed ∨ s'.Flows banner := by
  cases e with
  | dev_read avail ws =>
    simp only [step] at h
    split at h
    case isTrue hreader => exact flows_dev_read hp hs hreader hkeeps h
    case isFalse =>
      cases h
      exact .inr hs
  | aged ws =>
    simp only [step] at h
    split at h
    case isTrue hage => exact flows_aged hs hage hkeeps h
    case isFalse =>
      cases h
      exact .inr hs
  | tcp_write w₁ w₂ =>
    simp only [step] at h
    split at h
    case isTrue hwriter =>
      cases h
      have hdata : s.handle_tcp_fd_write w₁ w₂ = s.write_data w₂ := if_pos hs.no_cmd
      rw [hdata]
      exact write_data_flows hs hwriter
    case isFalse =>
      cases h
      exact .inr hs
  | telnet_output cmd =>
    rw [step, if_neg (fun h => hp h.1)] at h
    cases h
    exact .inr hs

/-- A step of a port that is not. -/
lemma closed_step (hs : s.Closed) (hkeeps : s.Keeps p e) (h : s.step p e = some s') :
    s'.Closed := by
  cases e with
  | dev_read avail ws =>
    rw [step, if_neg (by simp [hs.reader])] at h
    cases h
    exact hs
  | aged ws =>
    simp only [step] at h
    split at h
    case isTrue hage =>
      exact tryNetWrite_closed (s := { s with age := false })
        ⟨hs.state, hs.start, hs.count, hs.reader, hs.writer⟩ (hkeeps hage) h
    case isFalse =>
      cases h
      exact hs
  | tcp_write w₁ w₂ =>
    rw [step, if_neg (by simp [hs.writer])] at h
    cases h
    exact hs
  | telnet_output cmd =>
    rw [step, if_neg (fun h => h.2 hs.state)] at h
    cases h
    exact hs

lemma flows_opened (hp : p.enabled ≠ .telnet) : (opened p banner buf front age []).Flows banner := by
  refine ⟨?_, rfl, fun hw => ?_, .inl rfl⟩
  · rw [window_zero rfl]
    show [] ++ slice (put buf 0 banner) 0 banner.length = banner ++ []
    rw [slice_put_self, List.nil_append, List.append_nil]
  · exact absurd hw (by simp [opened, hp])

/-- In every run of a raw or a UDP port whose steps keep the place in the buffer, what has been
sent and what waits in the buffer is the banner and what has been read from the device. -/
theorem device_stream (hp : p.enabled = .raw ∨ p.enabled = .udp)
    (h : Reach (step p) (Keeps p) (opened p banner buf front age []) s) :
    s.dev_to_tcp_state = .unconnected ∨ s.sent ++ s.window = banner ++ s.received := by
  have hp : p.enabled ≠ .telnet := by
    obtain hp | hp := hp <;> simp [hp]
  have hinv : s.Closed ∨ s.Flows banner := by
    refine h.induction_on (P := fun s => s.Closed ∨ s.Flows banner) (.inr (flows_opened hp))
      fun s e s' hs hkeeps h => ?_
    obtain hs | hs := hs
    · exact .inl (closed_step hs hkeeps h)
    · exact flows_step hp hs hkeeps h
  exact hinv.imp Closed.state Flows.stream

/-- The timer writes the first of two bytes, the write handler the other one, and three bytes more
are read. -/
theorem device_stream_short_write :
    ∃ (p : Settings) (s : Xfer),
      Reach (step p) (Keeps p) (opened p [] (fun _ => 0) (fun _ => 0) false []) s ∧
      s.received = [1, 2, 3, 4, 5] ∧
      (s.dev_to_tcp_state = .unconnected ∨ s.sent ++ s.window = [] ++ s.received) := by
  obtain ⟨p, hp⟩ : ∃ p : Settings, p = { enabled := .raw, shortest := 3, maxAge := true } :=
    ⟨_, rfl⟩
  have hrun : ∃ s, Reach (step p) (Keeps p) (opened p [] (fun _ => 0) (fun _ => 0) false []) s ∧
      s.received = [1, 2, 3, 4, 5] := by
    subst hp
    refine ⟨_, (((Reach.init.step (e := .dev_read (some [1, 2]) []) ?_ rfl).step
      (e := .aged [.EINTR, .accepted 1]) ?_ rfl).step (e := .tcp_write .error (.accepted 9)) ?_
      rfl).step (e := .dev_read (some [3, 4, 5]) [.accepted 3]) ?_ rfl, rfl⟩
    · rintro got - h -
      cases h
      exact rfl
    · exact fun _ => .inr rfl
    · trivial
    · rintro got - h -
      cases h
      exact .inl (Nat.le_refl 3)
  obtain ⟨s, hreach, hreceived⟩ := hrun
  exact ⟨p, s, hreach, hreceived, device_stream (.inl (by rw [hp])) hreach⟩

/-- After a write that is refused, and after one that is short once what was left has been
written, the window is not where the bytes are. -/
theorem device_stream_lost :
    (∃ (p : Settings) (s : Xfer), p.enabled = .raw ∧
      replay (step p) (opened p [] (fun _ => 0) (fun _ => 0) false [])
        [.dev_read (some [65]) [.EAGAIN]] = some s ∧
      s.dev_to_tcp_state ≠ .unconnected ∧ s.received = [65] ∧ s.sent ++ s.window = [0]) ∧
    ∃ (p : Settings) (s : Xfer), p.enabled = .raw ∧
      replay (step p) (opened p [] (fun _ => 0) (fun _ => 0) false [])
        [.dev_read (some [65, 66, 67]) [.accepted 1], .tcp_write .error (.accepted 2),
          .dev_read (some [68, 69]) [.accepted 1]] = some s ∧
      s.dev_to_tcp_state ≠ .unconnected ∧ s.received = [65, 66, 67, 68, 69] ∧
      s.sent ++ s.window = [65, 66, 67, 68, 67] := by
  refine ⟨⟨{ enabled := .raw, shortest := 0, maxAge := false }, _, rfl, rfl, ?_, rfl, rfl⟩,
    { enabled := .raw, shortest := 0, maxAge := false }, _, rfl, rfl, ?_, rfl, rfl⟩
  · exact fun h => PortState.noConfusion h
  · exact fun h => PortState.noConfusion h

end Xfer

end EspLinux.Ser2net
