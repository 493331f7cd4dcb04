import EspLinux.Lib.Weave
import EspLinux.Ser2net.Escape
import EspLinux.Ser2net.Options

/-!
# Commands and data on one connection

The telnet commands of a port wait in `out_telnet_cmd` and its data in `dev_to_tcp_buf`.
`handle_tcp_fd_write` writes the commands first, but `tryNetWrite` does not look at them, and
`handle_tcp_fd_write` itself goes on with the data when the network refuses the commands.  So a
command that the network has taken in part can be cut by data, and a doubled IAC by a command.  As
long as the data waits for a command that is cut, and the commands for an IAC that is, and nothing
spoils the stream of the data itself, the connection carries whole commands and whole escaped bytes
(`Wire.whole_commands`).
-/

namespace EspLinux.Ser2net

open EspLinux.Lib

/-! ## The model -/

/-- Where a byte on the connection comes from. -/
inductive Source
  | cmd
  | data
deriving DecidableEq

/-- A telnet session, with its banner, the commands that it has been given to send and the bytes
that the network has taken. -/
structure Wire where
  xfer : Xfer
  banner : List UInt8
  queued : List (List UInt8)
  net : List (Source × UInt8)

/-- The commands of `telnet_init_seq`. -/
def init_cmds : List (List UInt8) :=
  [[TN_IAC, TN_WILL, TN_OPT_BINARY_TRANSMISSION], [TN_IAC, TN_WILL, TN_OPT_ECHO],
    [TN_IAC, TN_WILL, TN_OPT_SUPPRESS_GO_AHEAD], [TN_IAC, TN_WILL, TN_OPT_COM_PORT]]

/-- What waits to be sent, commands and data. -/
def waiting (cmd data : List UInt8) : Source → List UInt8
  | .cmd => cmd
  | .data => data

namespace Wire

/-- What is to be sent in one piece: each command, and each byte of data, escaped. -/
def frames (queued : List (List UInt8)) (data : List UInt8) : Source → List (List UInt8)
  | .cmd => queued
  | .data => data.map fun b => double TN_IAC [b]

/-- What is to be sent by the session. -/
def toSend (x : Wire) : Source → List (List UInt8) := frames x.queued (x.banner ++ x.xfer.received)

/-- Note what the network has taken of the commands and of the data. -/
def after (e : Event) (s' : Xfer) (x : Wire) : Wire :=
  { x with
    xfer := s'
    queued :=
      match e with
      | .telnet_output cmd => x.queued ++ [cmd]
      | _ => x.queued
    net := x.net ++
      tagged (.cmd, x.xfer.out_telnet_cmd.take
        (x.xfer.out_telnet_cmd.length - s'.out_telnet_cmd.length)) ++
      tagged (.data, s'.sent.drop x.xfer.sent.length) }

/-- One event of a session. -/
def step (p : Settings) (x : Wire) (e : Event) : Option Wire :=
  if x.xfer.dev_to_tcp_state = .unconnected then none
  else (x.xfer.step p e).map fun s' => x.after e s'

/-- A session that has just been set up. -/
def opened (p : Settings) (banner : List UInt8) (buf front : ℕ → UInt8) (age : Bool) : Wire :=
  { xfer := .opened p banner buf front age telnet_init_seq
    banner := banner
    queued := init_cmds
    net := [] }

/-- The first write of `n` bytes that is not interrupted takes some. -/
def takes (n : ℕ) : List Wrote → Prop
  | .EINTR :: ws => takes n ws
  | .accepted k :: _ => 0 < min k n
  | _ => False

/-- The condition on a step: what is read can be escaped and stored where the buffer starts, the
writes from the start of the buffer settle, data is not taken while a command is cut, and no command
while an escaped IAC is. -/
def Unsplit (p : Settings) (x : Wire) : Event → Prop
  | .dev_read avail ws =>
    ∀ got, x.xfer.reader = true → avail.bind (x.xfer.dev_read p) = some got → got ≠ [] →
      x.xfer.Clean got ∧
      if x.xfer.dev_to_tcp_buf_count + (double TN_IAC got).length < p.shortest then
        x.xfer.dev_to_tcp_buf_start = 0
      else
        Xfer.settles x.xfer.dev_to_tcp_buf_start
          (x.xfer.dev_to_tcp_buf_count + (double TN_IAC got).length) ws ∧
        (takes (x.xfer.dev_to_tcp_buf_count + (double TN_IAC got).length) ws →
          Whole x.queued x.xfer.out_telnet_cmd)
  | .aged ws =>
    x.xfer.age = true →
      (x.xfer.dev_to_tcp_buf_start = 0 ∨ x.xfer.dev_to_tcp_buf_count = 0) ∧
      Xfer.settles x.xfer.dev_to_tcp_buf_start x.xfer.dev_to_tcp_buf_count ws ∧
      (takes x.xfer.dev_to_tcp_buf_count ws → Whole x.queued x.xfer.out_telnet_cmd)
  | .tcp_write w₁ w₂ =>
    x.xfer.writer = true → x.xfer.out_telnet_cmd ≠ [] →
      (takes x.xfer.out_telnet_cmd.length [w₁] → Whole (x.toSend .data) x.xfer.window) ∧
      (w₁ = .EAGAIN → takes x.xfer.dev_to_tcp_buf_count [w₂] → Whole x.queued x.xfer.out_telnet_cmd)
  | .telnet_output _ => True

end Wire

namespace Xfer

variable {p : Settings} {s s' : Xfer} {ws : List Wrote} {w w₁ w₂ : Wrote}

/-! ## The writes -/

/-- A write has taken `l` from the front of what waits, and the rest is the window. -/
structure Takes (s s' : Xfer) (data l : List UInt8) : Prop where
  sent : s'.sent = s.sent ++ l
  data : data = l ++ s'.window
  out_telnet_cmd : s'.out_telnet_cmd = s.out_telnet_cmd
  received : s'.received = s.received
  start : s'.dev_to_tcp_buf_start = 0 ∨ s'.dev_to_tcp_buf_count = 0 ∨ s'.writer = true
  reader : s'.reader = true → s'.writer = false

/-- The write from the start of the buffer. -/
lemma tryNetWrite_takes (hset : settles s.dev_to_tcp_buf_start s.dev_to_tcp_buf_count ws)
    (hreader : s.reader = true → s.writer = false) (h : tryNetWrite ws s = some s') :
    s' = s.shutdown ∨ ∃ l,
      Takes s s' (slice s.dev_to_tcp_buf 0 s.dev_to_tcp_buf_count) l ∧
      (l ≠ [] → Wire.takes s.dev_to_tcp_buf_count ws) := by
  induction ws with
  | nil => exact absurd h (by simp [tryNetWrite])
  | cons w ws ih =>
    cases w with
    | EINTR => exact ih hset h
    | EPIPE =>
      cases h
      exact .inl rfl
    | error =>
      cases h
      exact .inl rfl
    | EAGAIN =>
      cases h
      have hstart : (s.clearOutput (-1)).dev_to_tcp_buf_start = 0 := by
        show s.dev_to_tcp_buf_start + -1 = 0
        rw [show s.dev_to_tcp_buf_start = 1 from hset]
        rfl
      refine .inr ⟨[], ⟨(List.append_nil _).symm, ?_, rfl, rfl, .inl hstart, fun hr => by cases hr⟩,
        fun hne => absurd rfl hne⟩
      rw [List.nil_append, window_zero hstart]
      rfl
    | accepted n =>
      simp only [tryNetWrite] at h
      obtain ⟨k, hk⟩ : ∃ k, k = min n s.dev_to_tcp_buf_count := ⟨_, rfl⟩
      rw [← hk] at h
      have htakes : (slice s.dev_to_tcp_buf 0 s.dev_to_tcp_buf_count).take k ≠ [] →
          Wire.takes s.dev_to_tcp_buf_count (.accepted n :: ws) := by
        intro hne
        show 0 < min n s.dev_to_tcp_buf_count
        rw [← hk]
        refine Nat.pos_of_ne_zero fun hzero => hne ?_
        rw [hzero]
        rfl
      split at h
      case isTrue hrest =>
        have hrest : s.dev_to_tcp_buf_count - k ≠ 0 := hrest
        have hzero : s.dev_to_tcp_buf_start = 0 := hset.resolve_left (by omega)
        cases h
        refine .inr ⟨_, ⟨rfl, ?_, rfl, rfl, .inr (.inr rfl), fun hr => by cases hr⟩, htakes⟩
        have hwindow : (clearOutput k (s.take k
            (slice s.dev_to_tcp_buf 0 s.dev_to_tcp_buf_count))).window = s.window.drop k :=
          window_drop (by omega) rfl rfl rfl rfl
        rw [hwindow, window_zero hzero, List.take_append_drop]
      case isFalse hrest =>
        have hrest : s.dev_to_tcp_buf_count - k = 0 := not_not.mp hrest
        cases h
        refine .inr ⟨_, ⟨rfl, ?_, rfl, rfl, .inr (.inl hrest), hreader⟩, htakes⟩
        rw [window_nil hrest, List.append_nil, List.take_of_length_le]
        rw [length_slice]
        omega

/-- The write from where the buffer starts. -/
lemma write_data_takes
    (hstart : s.dev_to_tcp_buf_start = 0 ∨ s.dev_to_tcp_buf_count = 0 ∨ s.writer = true)
    (hreader : s.reader = true → s.writer = false) (hwriter : s.writer = true) :
    s.write_data w = s.shutdown ∨ ∃ l, Takes s (s.write_data w) s.window l ∧
      (l ≠ [] → Wire.takes s.dev_to_tcp_buf_count [w]) := by
  have hsame : Takes s s s.window [] :=
    ⟨(List.append_nil _).symm, rfl, rfl, rfl, hstart, hreader⟩
  cases w with
  | EINTR => exact .inr ⟨[], hsame, nofun⟩
  | EAGAIN => exact .inr ⟨[], hsame, nofun⟩
  | EPIPE => exact .inl rfl
  | error => exact .inl rfl
  | accepted n =>
    refine .inr ?_
    simp only [write_data]
    obtain ⟨k, hk⟩ : ∃ k, k = min n s.dev_to_tcp_buf_count := ⟨_, rfl⟩
    rw [← hk]
    have htakes : s.window.take k ≠ [] → Wire.takes s.dev_to_tcp_buf_count [.accepted n] := by
      intro hne
      show 0 < min n s.dev_to_tcp_buf_count
      rw [← hk]
      refine Nat.pos_of_ne_zero fun hzero => hne ?_
      rw [hzero]
      rfl
    split
    case isTrue hrest =>
      refine ⟨_, ⟨rfl, ?_, rfl, rfl, .inr (.inr hwriter), hreader⟩, htakes⟩
      have hwindow : Xfer.window { s.take k s.window with
          dev_to_tcp_buf_start := (s.take k s.window).dev_to_tcp_buf_start + k } =
          s.window.drop k := window_drop (by omega) rfl rfl rfl rfl
      rw [hwindow, List.take_append_drop]
    case isFalse hrest =>
      have hrest : s.dev_to_tcp_buf_count - k = 0 := not_not.mp hrest
      refine ⟨_, ⟨rfl, ?_, rfl, rfl, .inr (.inl hrest), fun _ => rfl⟩, htakes⟩
      have hnil : Xfer.window { s.take k s.window with
          reader := true, writer := false, dev_to_tcp_state := .waiting_input } = [] :=
        window_nil hrest
      rw [hnil, List.append_nil, List.take_of_length_le]
      rw [window, length_slice]
      omega

end Xfer

namespace Wire

variable {p : Settings} {x x' : Wire} {e : Event} {s s₁ s' : Xfer} {ws : List Wrote} {w w₁ w₂ : Wrote}
  {toSend : Source → List (List UInt8)} {net : List (Source × UInt8)} {data got l : List UInt8}
  {banner : List UInt8}

/-! ## A step -/

/-- What holds of a session that goes on. -/
structure Sound (x : Wire) : Prop where
  start : x.xfer.dev_to_tcp_buf_start = 0 ∨ x.xfer.dev_to_tcp_buf_count = 0 ∨ x.xfer.writer = true
  reader : x.xfer.reader = true → x.xfer.writer = false
  weaves : Weaves x.toSend x.net (waiting x.xfer.out_telnet_cmd x.xfer.window)

/-- What holds of a session, also when it is at its end. -/
def Kept (x : Wire) : Prop :=
  Woven x.toSend x.net ∧ (x.xfer.dev_to_tcp_state = .unconnected ∨ x.Sound)

lemma Sound.kept (h : x.Sound) : x.Kept := ⟨h.weaves.woven, .inr h⟩

/-- A write of data, which may end the session. -/
def Sends (toSend : Source → List (List UInt8)) (net : List (Source × UInt8)) (s s' : Xfer) : Prop :=
  ∃ l, s'.sent = s.sent ++ l ∧ s'.out_telnet_cmd = s.out_telnet_cmd ∧ s'.received = s.received ∧
    Woven toSend (net ++ tagged (.data, l)) ∧
    (s'.dev_to_tcp_state = .unconnected ∨
      (s'.dev_to_tcp_buf_start = 0 ∨ s'.dev_to_tcp_buf_count = 0 ∨ s'.writer = true) ∧
      (s'.reader = true → s'.writer = false) ∧
      Weaves toSend (net ++ tagged (.data, l)) (waiting s'.out_telnet_cmd s'.window))

lemma sends_shutdown (h : Woven toSend net) : Sends toSend net s s.shutdown := by
  refine ⟨[], (List.append_nil _).symm, rfl, rfl, ?_, .inl rfl⟩
  rw [tagged_nil, List.append_nil]
  exact h

lemma sends_of_takes (h : s.Takes s' data l)
    (hweaves : Weaves toSend net (waiting s.out_telnet_cmd data))
    (hwhole : l ≠ [] → Whole (toSend .cmd) s.out_telnet_cmd) : Sends toSend net s s' := by
  have hsend : Weaves toSend (net ++ tagged (.data, l)) (waiting s'.out_telnet_cmd s'.window) := by
    refine hweaves.send (fun hl j hj => ?_) h.data fun j hj => ?_
    · cases j with
      | cmd => exact hwhole hl
      | data => exact absurd rfl hj
    · cases j with
      | cmd => exact h.out_telnet_cmd
      | data => exact absurd rfl hj
  exact ⟨l, h.sent, h.out_telnet_cmd, h.received, hsend.woven, .inr ⟨h.start, h.reader, hsend⟩⟩

/-- The whole event, when `s₁` is the transfer after the write of commands. -/
lemma Sends.kept (h : Sends toSend net s₁ s') (hsent : s₁.sent = x.xfer.sent)
    (htoSend : (x.after e s').toSend = toSend)
    (hnet : net = x.net ++ tagged (.cmd, x.xfer.out_telnet_cmd.take
      (x.xfer.out_telnet_cmd.length - s₁.out_telnet_cmd.length))) : (x.after e s').Kept := by
  obtain ⟨l, hsent', hcmd, hreceived, hwoven, hstate⟩ := h
  have hl : (x.after e s').net = net ++ tagged (.data, l) := by
    show x.net ++ tagged (.cmd, List.take (x.xfer.out_telnet_cmd.length - s'.out_telnet_cmd.length) _) ++
      tagged (.data, s'.sent.drop x.xfer.sent.length) = _
    rw [hnet, hsent', hsent, List.drop_left, hcmd]
  rw [← htoSend, ← hl] at hwoven
  refine ⟨hwoven, hstate.imp_right fun hsound => ⟨hsound.1, hsound.2.1, ?_⟩⟩
  rw [htoSend, hl]
  exact hsound.2.2

/-- No command is cut when none waits. -/
lemma whole_nil (frames : List (List UInt8)) : Whole frames [] :=
  ⟨frames.length, by rw [List.drop_length]; rfl⟩

lemma Sound.aged (h : x.Sound) (hok : x.Unsplit p (.aged ws)) (hage : x.xfer.age = true)
    (hs : x.xfer.aged ws = some s') : (x.after (.aged ws) s').Kept := by
  obtain ⟨hstart, hset, hwhole⟩ := hok hage
  have hweaves := h.weaves
  rw [Xfer.window_of_start hstart] at hweaves
  have hsends : Sends x.toSend x.net { x.xfer with age := false } s' := by
    rcases Xfer.tryNetWrite_takes (s := { x.xfer with age := false }) hset h.reader hs with
      rfl | ⟨l, htakes, hl⟩
    · exact sends_shutdown h.weaves.woven
    · exact sends_of_takes htakes hweaves fun hne => hwhole (hl hne)
  obtain ⟨l, -, -, hreceived, -⟩ := id hsends
  refine hsends.kept rfl ?_ ?_
  · show frames x.queued (x.banner ++ s'.received) = x.toSend
    rw [hreceived]
    rfl
  · rw [Nat.sub_self, List.take_zero, tagged_nil, List.append_nil]

lemma Sound.shutdown (h : x.Sound) (hqueued : (x.after e x.xfer.shutdown).queued = x.queued) :
    (x.after e x.xfer.shutdown).Kept := by
  refine (sends_shutdown (s := x.xfer) h.weaves.woven).kept rfl ?_ ?_
  · rw [toSend, hqueued]
    rfl
  · rw [Nat.sub_self, List.take_zero, tagged_nil, List.append_nil]

lemma after_net (hcmd : s'.out_telnet_cmd = x.xfer.out_telnet_cmd) (hsent : s'.sent = x.xfer.sent) :
    (x.after e s').net = x.net := by
  show x.net ++ tagged (.cmd, List.take (_ - s'.out_telnet_cmd.length) _) ++
    tagged (.data, s'.sent.drop x.xfer.sent.length) = _
  rw [hcmd, hsent, Nat.sub_self, List.take_zero, List.drop_length]
  simp only [tagged_nil, List.append_nil]

/-- A step in which nothing is written. -/
lemma kept_of_weaves
    (hstart : s'.dev_to_tcp_buf_start = 0 ∨ s'.dev_to_tcp_buf_count = 0 ∨ s'.writer = true)
    (hreader : s'.reader = true → s'.writer = false)
    (hcmd : s'.out_telnet_cmd = x.xfer.out_telnet_cmd) (hsent : s'.sent = x.xfer.sent)
    (hweaves : Weaves (x.after e s').toSend x.net (waiting s'.out_telnet_cmd s'.window)) :
    (x.after e s').Kept := by
  refine Sound.kept ⟨hstart, hreader, ?_⟩
  rw [after_net hcmd hsent]
  exact hweaves

lemma Sound.dev_read {avail : Option (List UInt8)} (h : x.Sound) (hp : p.enabled = .telnet)
    (hok : x.Unsplit p (.dev_read avail ws)) (hreader : x.xfer.reader = true)
    (hs : x.xfer.handle_dev_fd_read p avail ws = some s') :
    (x.after (.dev_read avail ws) s').Kept := by
  rw [Xfer.handle_dev_fd_read] at hs
  split at hs
  · cases hs
    exact h.shutdown rfl
  · cases hs
    exact h.shutdown rfl
  rename_i b l hgot
  have hne := List.cons_ne_nil b l
  obtain ⟨hclean, hplace⟩ := hok _ hreader hgot hne
  obtain ⟨avail, -, hread⟩ := Option.bind_eq_some_iff.mp hgot
  obtain ⟨got, hgot'⟩ : ∃ got, got = b :: l := ⟨_, rfl⟩
  rw [← hgot'] at hs hclean hplace hne hread
  obtain ⟨buf, count, hstore, hslice⟩ :=
    Xfer.store_clean hp hne (Xfer.dev_read_length hread) hclean
  have hcount : count = x.xfer.dev_to_tcp_buf_count + (double TN_IAC got).length := by
    have := congrArg List.length hslice
    rwa [List.length_append, length_slice, length_slice] at this
  rw [← hcount] at hplace
  have hstart : x.xfer.dev_to_tcp_buf_start = 0 ∨ x.xfer.dev_to_tcp_buf_count = 0 := by
    refine h.start.imp_right (Or.resolve_right · ?_)
    rw [h.reader hreader]
    decide
  -- what has been read waits behind the rest
  have hweaves : Weaves (frames x.queued (x.banner ++ (x.xfer.received ++ got))) x.net
      (waiting x.xfer.out_telnet_cmd (slice buf 0 count)) := by
    refine h.weaves.append (i := .data) (got.map fun b => double TN_IAC [b]) ?_ ?_ ?_ ?_
    · show List.map _ _ = List.map _ _ ++ _
      rw [← List.append_assoc, List.map_append]
    · show slice buf 0 count = x.xfer.window ++ _
      rw [hslice, Xfer.window_of_start hstart, double_eq_flatten]
    · rintro (_ | _) hj
      · rfl
      · exact absurd rfl hj
    · rintro (_ | _) hj
      · rfl
      · exact absurd rfl hj
  rw [hstore] at hs
  simp only [Option.bind_eq_bind, Option.bind_some] at hs
  split at hs
  · rename_i hlt
    rw [if_pos hlt] at hplace
    cases hs
    have hwindow : Xfer.window { x.xfer with
        dev_to_tcp_buf := buf, dev_to_tcp_buf_count := count, received := x.xfer.received ++ got,
        age := x.xfer.age || p.maxAge } = slice buf 0 count := Xfer.window_zero hplace
    refine kept_of_weaves (.inl hplace) h.reader rfl rfl ?_
    rw [hwindow]
    exact hweaves
  · rename_i hge
    rw [if_neg hge] at hplace
    obtain ⟨hset, hwhole⟩ := hplace
    have hsends : Sends (frames x.queued (x.banner ++ (x.xfer.received ++ got))) x.net
        { x.xfer with
          dev_to_tcp_buf := buf, dev_to_tcp_buf_count := count, received := x.xfer.received ++ got,
          age := false } s' := by
      rcases Xfer.tryNetWrite_takes (s := { x.xfer with
          dev_to_tcp_buf := buf, dev_to_tcp_buf_count := count, received := x.xfer.received ++ got,
          age := false }) hset h.reader hs with rfl | ⟨l, htakes, hl⟩
      · exact sends_shutdown hweaves.woven
      · exact sends_of_takes htakes hweaves fun hne => hwhole (hl hne)
    obtain ⟨l, -, -, hreceived, -⟩ := id hsends
    refine hsends.kept rfl ?_ ?_
    · show frames x.queued (x.banner ++ s'.received) = _
      rw [hreceived]
    · rw [Nat.sub_self, List.take_zero, tagged_nil, List.append_nil]

/-- The write of data in `handle_tcp_fd_write`, after commands have been written. -/
lemma sends_write_data (hweaves : Weaves toSend net (waiting s.out_telnet_cmd s.window))
    (hstart : s.dev_to_tcp_buf_start = 0 ∨ s.dev_to_tcp_buf_count = 0 ∨ s.writer = true)
    (hreader : s.reader = true → s.writer = false) (hwriter : s.writer = true)
    (hwhole : takes s.dev_to_tcp_buf_count [w] → Whole (toSend .cmd) s.out_telnet_cmd) :
    Sends toSend net s (s.write_data w) := by
  rcases Xfer.write_data_takes hstart hreader hwriter (w := w) with hshut | ⟨l, htakes, hl⟩
  · rw [hshut]
    exact sends_shutdown hweaves.woven
  · exact sends_of_takes htakes hweaves fun hne => hwhole (hl hne)

lemma Sound.tcp_write (h : x.Sound) (hok : x.Unsplit p (.tcp_write w₁ w₂))
    (hwriter : x.xfer.writer = true) :
    (x.after (.tcp_write w₁ w₂) (x.xfer.handle_tcp_fd_write w₁ w₂)).Kept := by
  -- what is left after the commands
  have hdata {s : Xfer} {net : List (Source × UInt8)}
      (hsends : Sends x.toSend net s (s.write_data w₂)) (hsent : s.sent = x.xfer.sent)
      (hreceived : s.received = x.xfer.received)
      (hnet : net = x.net ++ tagged (.cmd, x.xfer.out_telnet_cmd.take
        (x.xfer.out_telnet_cmd.length - s.out_telnet_cmd.length))) :
      (x.after (.tcp_write w₁ w₂) (s.write_data w₂)).Kept := by
    obtain ⟨l, -, -, hreceived', -⟩ := id hsends
    refine hsends.kept hsent ?_ hnet
    show frames x.queued (x.banner ++ (s.write_data w₂).received) = x.toSend
    rw [hreceived', hreceived]
    rfl
  have hsame : x.net = x.net ++ tagged (.cmd, x.xfer.out_telnet_cmd.take
      (x.xfer.out_telnet_cmd.length - x.xfer.out_telnet_cmd.length)) := by
    rw [Nat.sub_self, List.take_zero, tagged_nil, List.append_nil]
  simp only [Xfer.handle_tcp_fd_write]
  split
  · rename_i hnil
    refine hdata (sends_write_data h.weaves h.start h.reader hwriter fun _ => ?_) rfl rfl hsame
    rw [hnil]
    exact whole_nil _
  rename_i hcmd
  obtain ⟨hiac, hagain⟩ := hok hwriter hcmd
  cases w₁ with
  | EINTR => exact kept_of_weaves h.start h.reader rfl rfl h.weaves
  | EAGAIN =>
    exact hdata (sends_write_data h.weaves h.start h.reader hwriter (hagain rfl)) rfl rfl hsame
  | EPIPE => exact h.shutdown rfl
  | error => exact h.shutdown rfl
  | accepted n =>
    have hnet : x.xfer.out_telnet_cmd.take (x.xfer.out_telnet_cmd.length -
        (x.xfer.out_telnet_cmd.drop n).length) = x.xfer.out_telnet_cmd.take n := by
      rw [List.length_drop, List.take_eq_take_iff]
      omega
    have hweaves : Weaves x.toSend (x.net ++ tagged (.cmd, x.xfer.out_telnet_cmd.take n))
        (waiting (x.xfer.out_telnet_cmd.drop n) x.xfer.window) := by
      refine h.weaves.send (fun hne j hj => ?_) (List.take_append_drop _ _).symm fun j hj => ?_
      · cases j with
        | cmd => exact absurd rfl hj
        | data =>
          refine hiac ?_
          show 0 < min n x.xfer.out_telnet_cmd.length
          refine Nat.pos_of_ne_zero fun hzero => hne ?_
          rw [← List.length_eq_zero_iff, List.length_take]
          exact hzero
      · cases j with
        | cmd => exact absurd rfl hj
        | data => rfl
    dsimp only
    split
    · rename_i hdone
      refine hdata (s := { x.xfer with out_telnet_cmd := x.xfer.out_telnet_cmd.drop n })
        (sends_write_data hweaves h.start h.reader hwriter fun _ => ?_) rfl rfl (by rw [hnet])
      show Whole _ (x.xfer.out_telnet_cmd.drop n)
      rw [hdone]
      exact whole_nil _
    · refine Sound.kept ⟨h.start, h.reader, ?_⟩
      have hafter : (x.after (.tcp_write (.accepted n) w₂)
          { x.xfer with out_telnet_cmd := x.xfer.out_telnet_cmd.drop n }).net =
          x.net ++ tagged (.cmd, x.xfer.out_telnet_cmd.take n) := by
        show x.net ++ tagged (.cmd, List.take (_ - (x.xfer.out_telnet_cmd.drop n).length) _) ++
          tagged (.data, x.xfer.sent.drop x.xfer.sent.length) = _
        rw [hnet, List.drop_length, tagged_nil, List.append_nil]
      rw [hafter]
      exact hweaves

lemma Sound.telnet_output {cmd : List UInt8} (h : x.Sound) :
    (x.after (.telnet_output cmd) (x.xfer.telnet_output_ready cmd)).Kept := by
  have hnet : (x.after (.telnet_output cmd) (x.xfer.telnet_output_ready cmd)).net = x.net := by
    show x.net ++ tagged (.cmd, List.take (_ - (x.xfer.out_telnet_cmd ++ cmd).length) _) ++
      tagged (.data, x.xfer.sent.drop x.xfer.sent.length) = _
    rw [List.length_append, Nat.sub_eq_zero_of_le (Nat.le_add_right _ _), List.take_zero,
      List.drop_length]
    simp only [tagged_nil, List.append_nil]
  refine Sound.kept ⟨.inr (.inr rfl), nofun, ?_⟩
  rw [hnet]
  refine h.weaves.append (i := .cmd) [cmd] rfl ?_ ?_ ?_
  · show x.xfer.out_telnet_cmd ++ cmd = x.xfer.out_telnet_cmd ++ [cmd].flatten
    rw [List.flatten_singleton]
  · rintro (_ | _) hj
    · exact absurd rfl hj
    · rfl
  · rintro (_ | _) hj
    · exact absurd rfl hj
    · rfl

lemma Sound.step (hp : p.enabled = .telnet) (h : x.Sound) (hok : x.Unsplit p e)
    (hs : x.step p e = some x') : x'.Kept := by
  simp only [Wire.step] at hs
  split at hs
  · cases hs
  rename_i hstate
  obtain ⟨s', hs', rfl⟩ := Option.map_eq_some_iff.mp hs
  have hidle (hqueued : (x.after e x.xfer).queued = x.queued) : (x.after e x.xfer).Kept := by
    refine kept_of_weaves h.start h.reader rfl rfl ?_
    rw [Wire.toSend, hqueued]
    exact h.weaves
  cases e with
  | dev_read avail ws =>
    simp only [Xfer.step] at hs'
    split at hs'
    · rename_i hreader
      exact h.dev_read hp hok hreader hs'
    · cases hs'
      exact hidle rfl
  | aged ws =>
    simp only [Xfer.step] at hs'
    split at hs'
    · rename_i hage
      exact h.aged hok hage hs'
    · cases hs'
      exact hidle rfl
  | tcp_write w₁ w₂ =>
    simp only [Xfer.step] at hs'
    split at hs'
    · rename_i hwriter
      cases hs'
      exact h.tcp_write hok hwriter
    · cases hs'
      exact hidle rfl
  | telnet_output cmd =>
    rw [Xfer.step, if_pos ⟨hp, hstate⟩] at hs'
    cases hs'
    exact h.telnet_output

/-! ## A run -/

lemma sound_opened {buf front : ℕ → UInt8} {age : Bool} (hp : p.enabled = .telnet)
    (hbanner : TN_IAC ∉ banner) : (opened p banner buf front age).Sound := by
  refine ⟨.inl rfl, fun hreader => ?_, .start ?_ .cmd⟩
  · simp [opened, Xfer.opened, hp] at hreader
  · rintro (_ | _)
    · rfl
    · show Xfer.window _ = List.flatten (List.map _ (banner ++ []))
      rw [Xfer.window_zero rfl, ← double_eq_flatten, List.append_nil, double_of_notMem hbanner]
      exact slice_put_self (m := buf) (p := 0) (l := banner)

/-- In every run of a telnet session, whose banner has no IAC, in which no step takes data while a
command is cut or commands while an IAC is, and none spoils the stream of the data, the network has
taken whole commands and whole escaped bytes, but for the end of the last one. -/
theorem whole_commands {buf front : ℕ → UInt8} {age : Bool} (hp : p.enabled = .telnet)
    (hbanner : TN_IAC ∉ banner)
    (hx : Reach (step p) (Unsplit p) (opened p banner buf front age) x) : Woven x.toSend x.net := by
  have hkept : x.Kept := by
    refine hx.induction_on (P := Kept) (sound_opened hp hbanner).kept fun x e x' hk hok hs => ?_
    rcases hk.2 with hend | hsound
    · rw [step, if_pos hend] at hs
      cases hs
    · exact hsound.step hp hok hs
  exact hkept.1

/-- The network takes the commands in two parts and so an escaped IAC. -/
theorem whole_commands_two_parts :
    ∃ (p : Settings) (x : Wire),
      replay (step p) (opened p [] (fun _ => 0) (fun _ => 0) false)
        [.tcp_write (.accepted 5) .EAGAIN, .tcp_write (.accepted 20) (.accepted 0),
          .dev_read (some [65, 255]) [.accepted 2], .tcp_write .EINTR (.accepted 9)] = some x ∧
      x.net.map Prod.snd = telnet_init_seq ++ [65, 255, 255] ∧ Woven x.toSend x.net := by
  obtain ⟨p, hp⟩ : ∃ p : Settings, p = { enabled := .telnet, shortest := 0, maxAge := false } :=
    ⟨_, rfl⟩
  have hrun : ∃ x, Reach (step p) (Unsplit p) (opened p [] (fun _ => 0) (fun _ => 0) false) x ∧
      replay (step p) (opened p [] (fun _ => 0) (fun _ => 0) false)
        [.tcp_write (.accepted 5) .EAGAIN, .tcp_write (.accepted 20) (.accepted 0),
          .dev_read (some [65, 255]) [.accepted 2], .tcp_write .EINTR (.accepted 9)] = some x ∧
      x.net.map Prod.snd = telnet_init_seq ++ [65, 255, 255] := by
    subst hp
    refine ⟨_, (((Reach.init.step (e := .tcp_write (.accepted 5) .EAGAIN) ?_ rfl).step
      (e := .tcp_write (.accepted 20) (.accepted 0)) ?_ rfl).step
      (e := .dev_read (some [65, 255]) [.accepted 2]) ?_ rfl).step
      (e := .tcp_write .EINTR (.accepted 9)) ?_ rfl, rfl, rfl⟩
    · exact fun _ _ => ⟨fun _ => ⟨0, rfl⟩, nofun⟩
    · exact fun _ _ => ⟨fun _ => ⟨0, rfl⟩, nofun⟩
    · rintro got - h -
      cases h
      refine ⟨.inl ⟨rfl, by decide⟩, ?_⟩
      rw [if_neg (by decide)]
      exact ⟨.inr rfl, fun _ => ⟨4, rfl⟩⟩
    · exact fun _ h => absurd rfl h
  obtain ⟨x, hreach, hreplay, hnet⟩ := hrun
  exact ⟨p, x, hreplay, hnet, whole_commands (by rw [hp]) (by decide) hreach⟩

/-- A `DO` of which the network has taken the first byte is cut by a byte of data, which the timer
sends. -/
theorem command_cut_by_data :
    ∃ (p : Settings) (x : Wire), p.enabled = .telnet ∧
      replay (step p) (opened p [] (fun _ => 0) (fun _ => 0) false)
        [.tcp_write (.accepted 12) (.accepted 0), .dev_read (some [65]) [],
          .telnet_output [TN_IAC, TN_DO, TN_OPT_ECHO], .tcp_write (.accepted 1) .EAGAIN,
          .aged [.accepted 1]] = some x ∧
      x.net.map Prod.snd = telnet_init_seq ++ [TN_IAC, 65] ∧ ¬ Woven x.toSend x.net := by
  refine ⟨{ enabled := .telnet, shortest := 2, maxAge := true }, _, rfl, rfl, rfl, ?_⟩
  show ¬ Woven (frames (init_cmds ++ [[TN_IAC, TN_DO, TN_OPT_ECHO]]) [65])
    (tagged (Source.cmd, telnet_init_seq) ++ (Source.cmd, TN_IAC) :: (Source.data, 65) :: [])
  refine not_woven (by decide) fun k => ?_
  match k with
  | 0 => decide
  | 1 => decide
  | 2 => decide
  | 3 => decide
  | 4 => decide
  | k + 5 =>
    rw [List.take_of_length_le (by simp [frames, init_cmds])]
    decide

end Wire

end EspLinux.Ser2net
