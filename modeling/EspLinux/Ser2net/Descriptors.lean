import EspLinux.Lib.Ledger
import EspLinux.Ser2net.Listen

/-!
# Calls on descriptors

What the handlers and commands of a port do with descriptors: the numbers that `socket`, `accept`
and `open` return to them, the ones that they give to the selector, and the ones that they close,
each in the order of the source (`EspLinux.Lib.Use`).  A port also opens trace files when a session
starts and closes them when a write to them fails or the session ends.

A port should only give numbers to the selector and to `close` that it has opened and not closed.
Several paths leave a number behind that has been closed: `startup_port` does when a call after
`socket` fails, a set-up that fails closes the socket of a UDP port, and on a UDP port the
descriptor of the session is the socket itself, so that a command that disables it during a session
or the end of a session with another mode closes what the other field still has.  Others do not look
whether there is a socket at all: `portconfig` and `shutdown_port` give the selector -1 for a port
that is disabled.

In every run that keeps away from these, all calls are on descriptors that the port holds
(`descriptors_held`).
-/

namespace EspLinux.Ser2net

open EspLinux.Lib

/-! ## Trace files -/

/-- The descriptors of the trace files, where `none` is -1. -/
structure Traces where
  wt_file : Option ℕ
  rt_file : Option ℕ
  bt_file : Option ℕ
deriving DecidableEq, Repr

/-- The names of the trace files, and what `open_trace_file` returns for them. -/
structure TraceFiles where
  trace_write : Option (List Char)
  trace_read : Option (List Char)
  trace_both : Option (List Char)
  opened_write : Option ℕ
  opened_read : Option ℕ
  opened_both : Option ℕ
deriving DecidableEq, Repr

/-- What happens to the trace files at an event: what `setup_trace` finds, and whether the write to
the file of one direction and to the one of both fails. -/
structure TraceInput where
  files : TraceFiles
  fails : Bool
  both_fails : Bool
deriving DecidableEq, Repr

/-- What a call has opened. -/
def opened : Option ℕ → List (Use ℕ)
  | none => []
  | some n => [.opens n]

namespace Traces

/-- No trace file is open. -/
def init : Traces := { wt_file := none, rt_file := none, bt_file := none }

/-- `setup_trace` -/
def setup_trace (f : TraceFiles) : Traces × List (Use ℕ) :=
  let (wt_file, l₁) :=
    match f.trace_write with
    | none => (none, [])
    | some _ => (f.opened_write, opened f.opened_write)
  let (rt_file, l₂) :=
    match f.trace_read with
    | none => (none, [])
    | some name =>
      if f.trace_write = some name then (wt_file, []) else (f.opened_read, opened f.opened_read)
  let (bt_file, l₃) :=
    match f.trace_both with
    | none => (none, [])
    | some name =>
      if f.trace_write = some name then (wt_file, [])
      else if f.trace_read = some name then (rt_file, [])
      else (f.opened_both, opened f.opened_both)
  ({ wt_file := wt_file, rt_file := rt_file, bt_file := bt_file }, l₁ ++ l₂ ++ l₃)

/-- A descriptor is closed, and every field that has it is set to -1. -/
def forget (file : Option ℕ) (t : Traces) : Traces :=
  { wt_file := if t.wt_file = file then none else t.wt_file
    rt_file := if t.rt_file = file then none else t.rt_file
    bt_file := if t.bt_file = file then none else t.bt_file }

/-- `do_trace`, for a file that may be -1: a write that fails closes the file. -/
def do_trace (file : Option ℕ) (fails : Bool) (t : Traces) : Traces × List (Use ℕ) :=
  if file ≠ none ∧ fails then (t.forget file, [.closes file]) else (t, [])

/-- The traces of what is read from the device. -/
def trace_dev (r : TraceInput) (t : Traces) : Traces × List (Use ℕ) :=
  let (t, l₁) := t.do_trace t.rt_file r.fails
  let (t, l₂) := t.do_trace t.bt_file r.both_fails
  (t, l₁ ++ l₂)

/-- The traces of what is read from the network. -/
def trace_tcp (r : TraceInput) (t : Traces) : Traces × List (Use ℕ) :=
  let (t, l₁) := t.do_trace t.wt_file r.fails
  let (t, l₂) := t.do_trace t.bt_file r.both_fails
  (t, l₁ ++ l₂)

/-- What `shutdown_port` does with the trace files. -/
def close_all (t : Traces) : List (Use ℕ) :=
  let (t, l₁) := t.do_trace t.wt_file true
  let (t, l₂) := t.do_trace t.rt_file true
  let (_, l₃) := t.do_trace t.bt_file true
  l₁ ++ l₂ ++ l₃

end Traces

/-! ## The calls -/

namespace PortInfo

/-- `setAcceptReadHandler` -/
def setAcceptReadHandler_uses (p : PortInfo) : List (Use ℕ) := [.uses p.acceptfd]

/-- `startup_port` -/
def startup_port_uses (c : SocketCalls) (p : PortInfo) : List (Use ℕ) :=
  match c.socket with
  | none => []
  | some fd =>
    if !c.fcntl then [.opens fd, .closes (some fd)]
    else if !c.setsockopt then [.opens fd, .closes (some fd)]
    else if !c.bind then [.opens fd, .closes (some fd)]
    else if p.enabled ≠ .udp ∧ !c.listen then [.opens fd, .closes (some fd)]
    else [.opens fd, .uses (some fd), .uses (some fd)]

/-- What `change_port_state` does for `PORT_DISABLED`. -/
def disable_uses (p : PortInfo) : List (Use ℕ) :=
  if p.acceptfd ≠ none then [.uses p.acceptfd, .uses p.acceptfd, .closes p.acceptfd] else []

/-- `change_port_state` -/
def change_port_state_uses (state : Mode) (c : SocketCalls) (p : PortInfo) : List (Use ℕ) :=
  if p.enabled = state then []
  else if state = .off then p.disable_uses
  else if p.enabled = .off then p.startup_port_uses c
  else []

/-- `free_port` -/
def free_port_uses (p : PortInfo) : List (Use ℕ) := if p.enabled = .off then [] else p.disable_uses

/-- `shutdown_port` -/
def shutdown_port_uses (p : PortInfo) (t : Traces) : List (Use ℕ) :=
  t.close_all ++ [.uses p.devfd, .uses p.tcpfd] ++
    (if p.enabled = .udp then [.uses p.acceptfd, .uses p.acceptfd] else [.closes p.tcpfd]) ++
    [.closes p.devfd] ++
    match p.config_num with
    | none => p.free_port_uses
    | some _ =>
      match p.new_config with
      | none => []
      | some c =>
        { c.port with acceptfd := p.acceptfd, started := p.started }.setAcceptReadHandler_uses ++
          { p with enabled := .off, acceptfd := none }.free_port_uses

/-- `telnet_output_ready`, and `clearOutput` in `tryNetWrite`: the device is not read any more, and
the selector waits for the network. -/
def telnet_output_ready_uses (p : PortInfo) : List (Use ℕ) := [.uses p.devfd, .uses p.tcpfd]

/-- `setup_net_port2` -/
def setup_net_port2_uses (c : SetupCalls) (r : TraceInput) (p : PortInfo) (t : Traces)
    (k : Kernel) : Traces × List (Use ℕ) :=
  if !c.fcntl then (t, [.closes p.tcpfd])
  else if (uucp_mk_lock p.devname c.lock k).1 ≠ 0 then (t, [.closes p.tcpfd])
  else
    match c.devfd with
    | none => (t, [.closes p.tcpfd])
    | some fd =>
      if p.enabled ≠ .rawlp ∧ !p.dinfo.disablebreak ∧ !c.tcsetattr then
        (t, [.opens fd, .closes p.tcpfd, .closes (some fd)])
      else
        let (t, l) := Traces.setup_trace r.files
        (t, [.opens fd, .uses (some fd), .uses (some fd), .uses (some fd), .uses p.tcpfd,
          .uses p.tcpfd, .uses p.tcpfd] ++
          (if p.enabled = .telnet then { p with devfd := some fd }.telnet_output_ready_uses
            else [.uses (some fd)]) ++ l)

/-- `setup_tcp_port` -/
def setup_tcp_port_uses (c : SetupCalls) (r : TraceInput) (p : PortInfo) (t : Traces)
    (k : Kernel) : Traces × List (Use ℕ) :=
  if !c.setsockopt then (t, [.closes p.tcpfd])
  else if !c.hosts_access then (t, [.closes p.tcpfd])
  else p.setup_net_port2_uses c r t k

/-- `handle_accept_port_read` -/
def handle_accept_port_read_uses (inuse : Bool) (accept : Option ℕ) (c : SetupCalls)
    (r : TraceInput) (p : PortInfo) (t : Traces) (k : Kernel) : Traces × List (Use ℕ) :=
  match accept with
  | none => (t, [])
  | some fd =>
    if p.tcp_to_dev_state ≠ .unconnected ∨ inuse then (t, [.opens fd, .closes (some fd)])
    else
      match k.open_fd fd .connection with
      | none => (t, [])
      | some k =>
        let (t, l) := { p with tcpfd := some fd }.setup_tcp_port_uses c r t k
        (t, .opens fd :: l)

/-- `handle_tcp_fd_read` -/
def handle_tcp_fd_read_uses (rd : TcpRead) (r : TraceInput) (p : PortInfo) (t : Traces) :
    Traces × List (Use ℕ) :=
  match rd.data with
  | none => (t, [])
  | some [] => (t, [])
  | some (b :: l) =>
    let q := p.telnet_read rd (b :: l)
    let l₁ := if p.enabled = .telnet ∧ rd.replies ≠ [] then p.telnet_output_ready_uses else []
    if p.enabled = .telnet ∧ rd.error then (t, l₁)
    else if q.tcp_to_dev_buf = [] then (t, l₁)
    else
      let (t, l₂) := t.trace_tcp r
      let l₃ :=
        match answer rd.writes with
        | some .EAGAIN => [.uses p.tcpfd, .uses p.devfd]
        | some (.accepted n) =>
          if q.tcp_to_dev_buf.drop n ≠ [] then [.uses p.tcpfd, .uses p.devfd] else []
        | _ => []
      (t, l₁ ++ l₂ ++ l₃)

/-- `handle_dev_fd_write` -/
def handle_dev_fd_write_uses (w : Wrote) (p : PortInfo) : List (Use ℕ) :=
  match w with
  | .accepted n => if p.tcp_to_dev_buf.drop n ≠ [] then [] else [.uses p.tcpfd, .uses p.devfd]
  | _ => []

/-- `handle_initial_UDP_port_read` -/
def handle_initial_UDP_port_read_uses (inuse peek : Bool) (c : SetupCalls) (rd : TcpRead)
    (r : TraceInput) (p : PortInfo) (t : Traces) (k : Kernel) : Traces × List (Use ℕ) :=
  if inuse then (t, [])
  else if !peek then (t, [])
  else
    let (t₁, l₁) := { p with tcpfd := p.acceptfd }.setup_net_port2_uses c r t k
    match setup_net_port2 c { p with tcpfd := p.acceptfd } k with
    | some (_, q, true) =>
      let (t₂, l₂) := q.handle_tcp_fd_read_uses rd r t₁
      (t₂, l₁ ++ l₂)
    | _ => (t₁, l₁)

/-- `tryNetWrite` -/
def tryNetWrite_uses (ws : List Wrote) (x : Xfer) (p : PortInfo) : List (Use ℕ) :=
  match answer ws with
  | some .EAGAIN => p.telnet_output_ready_uses
  | some (.accepted n) =>
    if x.dev_to_tcp_buf_count - min n x.dev_to_tcp_buf_count ≠ 0 then p.telnet_output_ready_uses
    else []
  | _ => []

/-- The second half of `handle_tcp_fd_write`. -/
def write_data_uses (w : Wrote) (p : PortInfo) : List (Use ℕ) :=
  match w with
  | .accepted n =>
    if p.xfer.dev_to_tcp_buf_count - min n p.xfer.dev_to_tcp_buf_count ≠ 0 then []
    else [.uses p.devfd, .uses p.tcpfd]
  | _ => []

/-- An event of the transfer. -/
def transfer_uses (r : TraceInput) (p : PortInfo) (t : Traces) : Event → Traces × List (Use ℕ)
  | .dev_read avail ws =>
    if p.xfer.reader then
      match avail.bind fun avail => p.xfer.dev_read p.settings avail with
      | none => (t, [])
      | some [] => (t, [])
      | some (b :: l) =>
        let (t, l₁) := t.trace_dev r
        match p.xfer.store p.settings (b :: l) with
        | none => (t, l₁)
        | some x =>
          if x.dev_to_tcp_buf_count < p.dinfo.shortest then (t, l₁)
          else (t, l₁ ++ p.tryNetWrite_uses ws x)
    else (t, [])
  | .aged ws => (t, if p.xfer.age then p.tryNetWrite_uses ws p.xfer else [])
  | .tcp_write w₁ w₂ =>
    (t, if p.xfer.writer then
      if p.xfer.out_telnet_cmd = [] then p.write_data_uses w₂
      else
        match w₁ with
        | .EAGAIN => p.write_data_uses w₂
        | .accepted n => if p.xfer.out_telnet_cmd.drop n = [] then p.write_data_uses w₂ else []
        | _ => []
      else [])
  | .telnet_output _ =>
    (t, if p.enabled = .telnet ∧ p.xfer.dev_to_tcp_state ≠ .unconnected then
      p.telnet_output_ready_uses else [])

/-- `got_timeout` -/
def got_timeout_uses (replies : List UInt8) (p : PortInfo) : List (Use ℕ) :=
  if p.timeout ≠ 0 ∧ p.timeout_left - 1 < 0 then []
  else if replies = [] then []
  else p.telnet_output_ready_uses

/-- `portconfig`, when there is a port of the name.  The new record has no trace files. -/
def portconfig_uses (c : Config) (calls : SocketCalls) (p : PortInfo) (t : Traces) :
    Traces × List (Use ℕ) :=
  if p.xfer.dev_to_tcp_state = .unconnected then
    let new_port := { c.port with
      enabled := p.enabled
      acceptfd := p.acceptfd
      started := p.started }
    (.init, new_port.setAcceptReadHandler_uses ++
      { p with enabled := .off, acceptfd := none }.free_port_uses ++
      new_port.change_port_state_uses c.enabled calls)
  else (t, [])

/-- An event, up to the `shutdown_port` that it may end with. -/
def handle_uses (inuse : Bool) (r : TraceInput) (p : PortInfo) (t : Traces) (k : Kernel) :
    PortEvent → Traces × List (Use ℕ)
  | .accept_read accept c =>
    if p.listens .handle_accept_port_read k then p.handle_accept_port_read_uses inuse accept c r t k
    else (t, [])
  | .initial_UDP_read peek c rd =>
    if p.listens .handle_initial_UDP_port_read k then
      p.handle_initial_UDP_port_read_uses inuse peek c rd r t k
    else (t, [])
  | .transfer e => p.transfer_uses r t e
  | .tcp_read rd =>
    if p.tcp_to_dev_state = .waiting_input then p.handle_tcp_fd_read_uses rd r t else (t, [])
  | .dev_write w =>
    (t, if p.tcp_to_dev_state = .waiting_output_clear then p.handle_dev_fd_write_uses w else [])
  | .except => (t, [])
  | .timeout replies => (t, if p.timer then p.got_timeout_uses replies else [])
  | .disconnect => (t, [])
  | .setportenable state calls => (t, p.change_port_state_uses state calls)
  | .portconfig c calls => p.portconfig_uses c calls t

end PortInfo

/-- `portconfig`, when there is no port of the name. -/
def Config.start_uses (c : Config) (calls : SocketCalls) (k : Kernel) : List (Use ℕ) :=
  if c.enabled = .off then []
  else
    match c.port.startup_port calls k with
    | none => []
    | some (_, p, rv) =>
      c.port.startup_port_uses calls ++ if rv = none then [] else p.free_port_uses

/-- `clear_old_port_config` -/
def PortInfo.clear_old_port_config_uses (curr_config : ℕ) (p : PortInfo) : List (Use ℕ) :=
  if p.config_num = some curr_config then []
  else if p.xfer.dev_to_tcp_state = .unconnected then p.free_port_uses
  else []

/-- The ports, their trace files, and which port has opened each descriptor. -/
structure Descriptors (N : Type*) where
  loop : MainLoop N
  traces : N → Traces
  owner : ℕ → Option N

variable {N : Type*} [DecidableEq N]

/-- The port that an event is about. -/
def LoopEvent.name : LoopEvent N → N
  | .port name _ => name
  | .new_port name _ _ => name
  | .clear_old name _ => name

namespace Descriptors

/-- The program before the configuration is read. -/
def init (k : Kernel) : Descriptors N :=
  { loop := .init k, traces := fun _ => .init, owner := fun _ => none }

/-- The calls of an event, and the trace files of the port after it. -/
def uses (s : Descriptors N) (r : TraceInput) : LoopEvent N → Traces × List (Use ℕ)
  | .port name e =>
    match s.loop.ports.lookup name with
    | none => (s.traces name, [])
    | some p =>
      let inuse := s.loop.is_device_already_inuse name p
      let (t, l) := p.handle_uses inuse r (s.traces name) s.loop.k e
      match p.handle inuse s.loop.k e with
      | some (_, q, true) => (.init, l ++ q.shutdown_port_uses t)
      | _ => (t, l)
  | .new_port name c calls =>
    match s.loop.ports.lookup name with
    | none => (.init, c.start_uses calls s.loop.k)
    | some _ => (s.traces name, [])
  | .clear_old name n =>
    match s.loop.ports.lookup name with
    | none => (s.traces name, [])
    | some p => (s.traces name, p.clear_old_port_config_uses n)

/-- One event.  The system does not return a number that is open. -/
def step (s : Descriptors N) (e : LoopEvent N × TraceInput) : Option (Descriptors N) :=
  let (t, l) := s.uses e.2 e.1
  (s.loop.step e.1).bind fun loop => (Use.enter e.1.name s.owner l).map fun owner =>
    { loop := loop, traces := Function.update s.traces e.1.name t, owner := owner }

end Descriptors

/-! ## The condition -/

namespace PortInfo

/-- `startup_port` succeeds or gets no socket. -/
def Starts (c : SocketCalls) : Prop := c.socket = none ∨ c.Succeed

/-- When `shutdown_port` is called there is a session, the socket is there if it is needed, and it
is closed with the session on no port that keeps it. -/
structure ShutsDown (p : PortInfo) : Prop where
  connected : p.tcp_to_dev_state ≠ .unconnected
  udp : p.enabled = .udp → p.acceptfd ≠ none
  tcp : p.enabled ≠ .udp → p.acceptfd = none ∨ p.tcpfd ≠ p.acceptfd
  reload : p.config_num ≠ none → p.new_config ≠ none → p.acceptfd ≠ none

/-- The event ends the session. -/
def Ends (inuse : Bool) (p : PortInfo) (k : Kernel) (e : PortEvent) : Prop :=
  ∃ k' q, p.handle inuse k e = some (k', q, true)

/-- What keeps away from descriptors that the port does not hold. -/
def Careful (inuse : Bool) (p : PortInfo) (k : Kernel) : PortEvent → Prop
  | .accept_read _ _ => True
  | .initial_UDP_read peek c rd =>
    p.listens .handle_initial_UDP_port_read k = true → inuse = false → peek = true →
      c.Succeeds p k ∧ (p.Ends inuse k (.initial_UDP_read peek c rd) → p.enabled = .udp)
  | .setportenable state calls =>
    if state = .off then p.tcp_to_dev_state ≠ .unconnected → p.enabled ≠ .off →
      p.acceptfd = none ∨ p.tcpfd ≠ p.acceptfd
    else p.enabled = .off → Starts calls
  | .portconfig c calls => p.xfer.dev_to_tcp_state = .unconnected →
      p.acceptfd ≠ none ∧ (c.enabled ≠ .off → p.enabled = .off → Starts calls)
  | .transfer (.aged ws) => p.xfer.age = true →
      p.tcp_to_dev_state ≠ .unconnected ∧ (p.Ends inuse k (.transfer (.aged ws)) → p.ShutsDown)
  | e => p.Ends inuse k e → p.ShutsDown

end PortInfo

namespace Descriptors

/-- The condition on a step: a call after `socket` does not fail, the set-up of a session on a UDP
socket does not fail, a UDP port is not disabled during a session, a reload finds a socket if there
is no session, the timer for the age does not go off without a session, and a session ends only when
what it closes and gives to the selector is there. -/
def Kept (s : Descriptors N) : LoopEvent N × TraceInput → Prop
  | (.port name e, _) => ∀ p, s.loop.ports.lookup name = some p →
      p.Careful (s.loop.is_device_already_inuse name p) s.loop.k e
  | (.new_port name c calls, _) =>
    s.loop.ports.lookup name = none → c.enabled ≠ .off → PortInfo.Starts calls
  | (.clear_old _ _, _) => True

end Descriptors

/-! ## Trace files -/

namespace Traces

variable {H : Set ℕ} {t t' t'' : Traces} {l l' : List (Use ℕ)} {n : ℕ} {o : Option ℕ}

/-- The descriptors of the trace files. -/
def files (t : Traces) : Set ℕ := {n | t.wt_file = some n ∨ t.rt_file = some n ∨ t.bt_file = some n}

/-- Legal uses that close nothing but trace files and after which the trace files are held. -/
structure Tracks (H : Set ℕ) (t : Traces) (l : List (Use ℕ)) (t' : Traces) : Prop where
  legal : Use.Legal H l
  files : t'.files ⊆ Use.after H l
  keeps : ∀ n ∈ H, n ∉ t.files → n ∈ Use.after H l ∧ n ∉ t'.files

lemma Tracks.refl (h : t.files ⊆ H) : Tracks H t [] t :=
  ⟨trivial, h, fun _ hn hfile => ⟨hn, hfile⟩⟩

lemma Tracks.trans (h : Tracks H t l t') (h' : Tracks (Use.after H l) t' l' t'') :
    Tracks H t (l ++ l') t'' := by
  refine ⟨Use.legal_append.mpr ⟨h.legal, h'.legal⟩, ?_, ?_⟩
  · rw [Use.after_append]
    exact h'.files
  · intro n hn hfile
    obtain ⟨hn', hfile'⟩ := h.keeps n hn hfile
    rw [Use.after_append]
    exact h'.keeps n hn' hfile'

/-- A number that is held is given to the selector. -/
lemma Tracks.uses (h : t.files ⊆ H) (hn : n ∈ H) (ho : o = some n) : Tracks H t [.uses o] t :=
  ⟨⟨⟨n, hn, ho⟩, trivial⟩, h, fun _ hn hfile => ⟨hn, hfile⟩⟩

lemma files_forget : (t.forget (some n)).files = {m ∈ t.files | m ≠ n} := by
  ext m
  simp only [files, forget, Set.mem_ofPred_eq]
  constructor
  · rintro (h | h | h)
    · split at h
      · cases h
      · rename_i hne
        exact ⟨.inl h, fun hm => hne (hm ▸ h)⟩
    · split at h
      · cases h
      · rename_i hne
        exact ⟨.inr (.inl h), fun hm => hne (hm ▸ h)⟩
    · split at h
      · cases h
      · rename_i hne
        exact ⟨.inr (.inr h), fun hm => hne (hm ▸ h)⟩
  · rintro ⟨h, hne⟩
    have hother {o : Option ℕ} (ho : o = some m) : (if o = some n then none else o) = some m := by
      rw [if_neg, ho]
      rw [ho]
      exact fun heq => hne (Option.some.inj heq)
    exact h.imp hother (.imp hother hother)

/-- A file that is written to is closed if that fails. -/
lemma do_trace_tracks (fails : Bool) (h : t.files ⊆ H) (ho : ∀ n, o = some n → n ∈ t.files) :
    Tracks H t (t.do_trace o fails).2 (t.do_trace o fails).1 := by
  rw [do_trace]
  split
  · rename_i hfails
    obtain ⟨n, rfl⟩ := Option.ne_none_iff_exists'.mp hfails.1
    have hn := ho n rfl
    refine ⟨⟨⟨n, h hn, rfl⟩, trivial⟩, ?_, ?_⟩
    · rw [files_forget]
      rintro m ⟨hm, hne⟩
      exact ⟨h hm, fun heq => hne (Option.some.inj heq).symm⟩
    · rintro m hm hfile
      have hne : m ≠ n := by
        rintro rfl
        exact hfile hn
      refine ⟨⟨hm, fun heq => hne (Option.some.inj heq).symm⟩, ?_⟩
      rw [files_forget]
      exact fun hm' => hfile hm'.1
  · exact .refl h

lemma trace_dev_tracks {r : TraceInput} (h : t.files ⊆ H) :
    Tracks H t (t.trace_dev r).2 (t.trace_dev r).1 := by
  have h₁ : Tracks H t _ _ :=
    do_trace_tracks (o := t.rt_file) r.fails h fun n hn => .inr (.inl hn)
  exact h₁.trans (do_trace_tracks _ h₁.files fun n hn => .inr (.inr hn))

lemma trace_tcp_tracks {r : TraceInput} (h : t.files ⊆ H) :
    Tracks H t (t.trace_tcp r).2 (t.trace_tcp r).1 := by
  have h₁ : Tracks H t _ _ :=
    do_trace_tracks (o := t.wt_file) r.fails h fun n hn => .inl hn
  exact h₁.trans (do_trace_tracks _ h₁.files fun n hn => .inr (.inr hn))

lemma close_all_tracks (h : t.files ⊆ H) : ∃ t', Tracks H t t.close_all t' := by
  have h₁ : Tracks H t _ _ := do_trace_tracks (o := t.wt_file) true h fun n hn => .inl hn
  have h₂ : Tracks _ _ _ _ := do_trace_tracks true h₁.files fun n hn => .inr (.inl hn)
  have h₃ : Tracks _ _ _ _ := do_trace_tracks true h₂.files fun n hn => .inr (.inr hn)
  have h₁₂ := h₁.trans h₂
  rw [← Use.after_append] at h₃
  exact ⟨_, h₁₂.trans h₃⟩

lemma mem_after_opens (hl : ∀ u ∈ l, ∃ n, u = .opens n) :
    n ∈ Use.after H l ↔ n ∈ H ∨ .opens n ∈ l := by
  induction l generalizing H with
  | nil => simp
  | cons u l ih =>
    obtain ⟨m, rfl⟩ := hl u List.mem_cons_self
    rw [Use.after_opens, ih fun u hu => hl u (List.mem_cons_of_mem _ hu)]
    simp only [Set.mem_insert_iff, List.mem_cons, Use.opens.injEq]
    tauto

lemma legal_opens (hl : ∀ u ∈ l, ∃ n, u = .opens n) : Use.Legal H l := by
  induction l generalizing H with
  | nil => trivial
  | cons u l ih =>
    obtain ⟨m, rfl⟩ := hl u List.mem_cons_self
    exact ih fun u hu => hl u (List.mem_cons_of_mem _ hu)

lemma not_mem_of_fresh_opens (hl : ∀ u ∈ l, ∃ n, u = .opens n) (hfresh : Use.Fresh H l)
    (hn : .opens n ∈ l) : n ∉ H := by
  induction l generalizing H with
  | nil => cases hn
  | cons u l ih =>
    obtain ⟨m, rfl⟩ := hl u List.mem_cons_self
    obtain ⟨hm, hrest⟩ := hfresh
    rcases List.mem_cons.mp hn with heq | hn
    · cases heq
      exact hm
    · exact fun hH => ih (fun u hu => hl u (List.mem_cons_of_mem _ hu)) hrest hn (.inr hH)

lemma opened_opens : ∀ u ∈ opened o, ∃ n, u = .opens n := by
  intro u hu
  cases o with
  | none => cases hu
  | some n => exact ⟨n, List.mem_singleton.mp hu⟩

lemma opens_mem_opened (h : o = some n) : .opens n ∈ opened o := by
  rw [h]
  exact List.mem_singleton_self _

/-- `setup_trace` opens the files, and a file that has the name of another one shares its
descriptor. -/
lemma setup_trace_spec (f : TraceFiles) :
    (∀ u ∈ (setup_trace f).2, ∃ n, u = .opens n) ∧
      ∀ n ∈ (setup_trace f).1.files, .opens n ∈ (setup_trace f).2 := by
  obtain ⟨trace_write, trace_read, trace_both, w, r, b⟩ := f
  constructor
  · intro u hu
    simp only [setup_trace, List.mem_append] at hu
    rcases hu with (hu | hu) | hu
    · split at hu
      · cases hu
      · exact opened_opens u hu
    · split at hu
      · cases hu
      · split at hu
        · cases hu
        · exact opened_opens u hu
    · split at hu
      · cases hu
      · split_ifs at hu
        · cases hu
        · cases hu
        · exact opened_opens u hu
  · intro n hn
    -- a descriptor is that of a file that has been opened, for this field or for one before
    rcases trace_write with _ | x <;> rcases trace_read with _ | y <;>
      rcases trace_both with _ | z <;>
      simp only [setup_trace, files, Set.mem_ofPred_eq, List.mem_append] at hn ⊢
    all_goals
      try split_ifs at hn ⊢
      all_goals
        rcases hn with hn | hn | hn <;>
          first
          | exact .inl (.inl (opens_mem_opened hn))
          | exact .inl (.inr (opens_mem_opened hn))
          | exact .inr (opens_mem_opened hn)
          | cases hn

lemma setup_trace_tracks {f : TraceFiles} (hfresh : Use.Fresh H (setup_trace f).2) :
    Tracks H t (setup_trace f).2 (setup_trace f).1 := by
  obtain ⟨hopens, hfiles⟩ := setup_trace_spec f
  refine ⟨legal_opens hopens, ?_, ?_⟩
  · intro n hn
    exact (mem_after_opens hopens).mpr (.inr (hfiles n hn))
  · intro n hn _
    refine ⟨(mem_after_opens hopens).mpr (.inl hn), fun hfile => ?_⟩
    exact not_mem_of_fresh_opens hopens hfresh (hfiles n hfile) hn

end Traces

/-! ## A port without a session -/

namespace PortInfo

variable {p p' : PortInfo} {k k' : Kernel} {inuse shut : Bool} {e : PortEvent}

/-- Without a session neither the device nor the network is waited for, and the timer that counts
the seconds is not in the heap. -/
structure Quiet (p : PortInfo) : Prop where
  both : p.xfer.dev_to_tcp_state = .unconnected ↔ p.tcp_to_dev_state = .unconnected
  idle : p.tcp_to_dev_state = .unconnected →
    p.timer = false ∧ p.xfer.reader = false ∧ p.xfer.writer = false

lemma Timed.quiet (h : p.Timed) : p.Quiet := by
  refine ⟨h.both, fun hidle => ?_⟩
  obtain ⟨htimer, -, hreader, hwriter⟩ := h.idle hidle
  exact ⟨htimer, hreader, hwriter⟩

lemma Quiet.connected (hp : p.Quiet) (h : p.tcp_to_dev_state ≠ .unconnected) :
    p.xfer.dev_to_tcp_state ≠ .unconnected := fun hx => h (hp.both.mp hx)

lemma SameSession.quiet (h : SameSession p p') (hp : p.Quiet) : p'.Quiet := by
  obtain ⟨htimer, hxfer, hstate⟩ := h
  constructor
  · rw [hxfer, hstate]
    exact hp.both
  · rw [htimer, hxfer, hstate]
    exact hp.idle

/-- Without a session the events of the transfer do nothing, if the timer for the age does not go
off. -/
lemma Quiet.step_idle (ev : Event) (hp : p.Quiet) (hidle : p.tcp_to_dev_state = .unconnected)
    (hage : ∀ ws, ev = .aged ws → p.xfer.age = false) :
    p.xfer.step p.settings ev = some p.xfer := by
  obtain ⟨-, hreader, hwriter⟩ := hp.idle hidle
  have hstate := hp.both.mpr hidle
  cases ev with
  | dev_read avail ws => rw [Xfer.step, if_neg (by simp [hreader])]
  | aged ws => rw [Xfer.step, if_neg (by simp [hage ws rfl])]
  | tcp_write w₁ w₂ => rw [Xfer.step, if_neg (by simp [hwriter])]
  | telnet_output cmd => rw [Xfer.step, if_neg (fun h => h.2 hstate)]

/-- An event that does not call `shutdown_port`. -/
lemma handle_quiet (hp : p.Quiet)
    (hage : ∀ ws, e = .transfer (.aged ws) → p.tcp_to_dev_state = .unconnected →
      p.xfer.age = false)
    (h : p.handle inuse k e = some (k', p', false)) : p'.Quiet := by
  have hsame (h : some (k, p, false) = some (k', p', false)) : p'.Quiet := by
    cases h
    exact hp
  cases e with
  | accept_read accept c =>
    simp only [handle] at h
    split at h
    · obtain ⟨⟨k₁, p₁⟩, haccept, hrest⟩ := Option.bind_eq_some_iff.mp h
      cases hrest
      obtain hsession | ⟨ht, hx⟩ := handle_accept_port_read_session haccept
      · exact hsession.quiet hp
      · exact (timed_of_connected hx ht).quiet
    · exact hsame h
  | initial_UDP_read peek c r =>
    simp only [handle] at h
    split at h
    · obtain hsession | ⟨ht, hx⟩ := handle_initial_UDP_port_read_session h
      · exact hsession.quiet hp
      · exact (timed_of_connected hx ht).quiet
    · exact hsame h
  | transfer ev =>
    by_cases hidle : p.tcp_to_dev_state = .unconnected
    · have hstep := hp.step_idle ev hidle fun ws hws => hage ws (by rw [hws]) hidle
      simp only [handle, transfer, hstep, Option.bind_eq_bind, Option.bind_some,
        Option.some.injEq, Prod.mk.injEq] at h
      obtain ⟨-, rfl, -⟩ := h
      refine SameSession.quiet (p := p) ?_ hp
      split <;> exact ⟨rfl, rfl, rfl⟩
    · exact (transfer_connected (hp.connected hidle) hidle h).quiet
  | tcp_read r =>
    simp only [handle] at h
    split at h
    · rename_i hstate
      have ht : p.tcp_to_dev_state ≠ .unconnected := by
        rw [hstate]
        exact PortState.noConfusion
      obtain ⟨ht', hx'⟩ := handle_tcp_fd_read_connected ht (hp.connected ht) h
      exact (timed_of_connected hx' ht').quiet
    · exact hsame h
  | dev_write w =>
    simp only [handle] at h
    split at h
    · rename_i hstate
      have ht : p.tcp_to_dev_state ≠ .unconnected := by
        rw [hstate]
        exact PortState.noConfusion
      obtain ⟨ht', hx'⟩ := handle_dev_fd_write_connected ht (hp.connected ht) (Option.some.inj h)
      exact (timed_of_connected hx' ht').quiet
    · exact hsame h
  | except =>
    simp only [handle, Option.some.injEq, Prod.mk.injEq] at h
    exact h.2.1 ▸ hp
  | timeout replies =>
    simp only [handle] at h
    split at h
    · rename_i htimer
      have ht : p.tcp_to_dev_state ≠ .unconnected := by
        intro hidle
        rw [(hp.idle hidle).1] at htimer
        cases htimer
      obtain ⟨ht', hx'⟩ := got_timeout_state (Option.some.inj h)
      exact (timed_of_connected (hx' ▸ hp.connected ht) (ht' ▸ ht)).quiet
    · exact hsame h
  | disconnect =>
    simp only [handle, Option.some.injEq, Prod.mk.injEq] at h
    exact h.2.1 ▸ hp
  | setportenable state calls =>
    obtain ⟨⟨k₁, p₁, rv⟩, hchange, hrest⟩ := Option.bind_eq_some_iff.mp h
    cases hrest
    exact (change_port_state_session hchange).quiet hp
  | portconfig c calls =>
    obtain ⟨⟨k₁, p₁⟩, hconfig, hrest⟩ := Option.bind_eq_some_iff.mp h
    cases hrest
    obtain hsession | hsession := portconfig_session hconfig
    · exact hsession.quiet hp
    · exact hsession.quiet (timed_port c).quiet

lemma shutdown_port_quiet (h : p.shutdown_port k = (k', some p')) : p'.Quiet := by
  rw [shutdown_port_eq] at h
  split at h
  · cases h
  · split at h
    · cases h
      exact ⟨⟨fun _ => rfl, fun _ => rfl⟩, fun _ => ⟨rfl, rfl, rfl⟩⟩
    · rename_i c _
      cases h
      exact SameSession.quiet (p := c.port) ⟨rfl, rfl, rfl⟩ (timed_port c).quiet

/-! ## What a port holds -/

variable {t t' : Traces} {l : List (Use ℕ)} {H : Set ℕ} {r : TraceInput} {n : ℕ}

/-- What is in the fields of a port is held, and the descriptors of a session are different. -/
structure Holds (p : PortInfo) (t : Traces) (H : Set ℕ) : Prop where
  own : ∀ n ∈ p.own, n ∈ H ∧ n ∉ t.files
  files : t.files ⊆ H
  session : p.tcp_to_dev_state ≠ .unconnected → ∃ a d, p.tcpfd = some a ∧ p.devfd = some d ∧
    a ≠ d ∧ p.acceptfd ≠ some d

/-- Uses that close nothing but trace files. -/
lemma Holds.tracks (h : p.Holds t H) (ht : t.Tracks H l t') : p.Holds t' (Use.after H l) := by
  refine ⟨fun n hn => ?_, ht.files, h.session⟩
  obtain ⟨hH, hfile⟩ := h.own n hn
  exact ht.keeps n hH hfile

/-- What the record says besides the descriptors does not matter. -/
lemma Holds.congr (h : p.Holds t H) (hacceptfd : p'.acceptfd = p.acceptfd)
    (htcpfd : p'.tcpfd = p.tcpfd) (hdevfd : p'.devfd = p.devfd)
    (hidle : p'.tcp_to_dev_state = .unconnected ↔ p.tcp_to_dev_state = .unconnected) :
    p'.Holds t H := by
  refine ⟨?_, h.files, ?_⟩
  · rw [own_congr hacceptfd htcpfd hdevfd hidle]
    exact h.own
  · rw [ne_eq, hidle, htcpfd, hdevfd, hacceptfd]
    exact h.session

lemma Holds.devfd (h : p.Holds t H) (hconn : p.tcp_to_dev_state ≠ .unconnected) :
    t.Tracks H [.uses p.devfd] t := by
  obtain ⟨a, d, -, hd, -⟩ := h.session hconn
  exact .uses h.files (h.own d (.inr ⟨hconn, .inr hd⟩)).1 hd

lemma Holds.tcpfd (h : p.Holds t H) (hconn : p.tcp_to_dev_state ≠ .unconnected) :
    t.Tracks H [.uses p.tcpfd] t := by
  obtain ⟨a, d, ha, -⟩ := h.session hconn
  exact .uses h.files (h.own a (.inr ⟨hconn, .inl ha⟩)).1 ha

lemma Holds.dev_tcp (h : p.Holds t H) (hconn : p.tcp_to_dev_state ≠ .unconnected) :
    t.Tracks H p.telnet_output_ready_uses t := (h.devfd hconn).trans (h.tcpfd hconn)

lemma Holds.tcp_dev (h : p.Holds t H) (hconn : p.tcp_to_dev_state ≠ .unconnected) :
    t.Tracks H [.uses p.tcpfd, .uses p.devfd] t := (h.tcpfd hconn).trans (h.devfd hconn)

/-! ## The events of a session -/

lemma handle_tcp_fd_read_tracks (rd : TcpRead) (h : p.Holds t H)
    (hconn : p.tcp_to_dev_state ≠ .unconnected) :
    t.Tracks H (p.handle_tcp_fd_read_uses rd r t).2 (p.handle_tcp_fd_read_uses rd r t).1 := by
  simp only [handle_tcp_fd_read_uses]
  split
  · exact .refl h.files
  · exact .refl h.files
  · rename_i b l _
    have h₁ : t.Tracks H (if p.enabled = .telnet ∧ rd.replies ≠ [] then p.telnet_output_ready_uses
        else []) t := by
      split
      · exact h.dev_tcp hconn
      · exact .refl h.files
    generalize (if p.enabled = .telnet ∧ rd.replies ≠ [] then p.telnet_output_ready_uses
      else []) = l₁ at h₁ ⊢
    have hh₁ := h.tracks h₁
    split
    · exact h₁
    split
    · exact h₁
    -- what is read is traced, and then the device may take less
    have h₂ := Traces.trace_tcp_tracks (r := r) hh₁.files
    have hh₂ := hh₁.tracks h₂
    refine (h₁.trans h₂).trans ?_
    rw [Use.after_append]
    split
    · exact hh₂.tcp_dev hconn
    · split
      · exact hh₂.tcp_dev hconn
      · exact .refl hh₂.files
    · exact .refl hh₂.files

lemma handle_dev_fd_write_tracks {w : Wrote} (h : p.Holds t H)
    (hconn : p.tcp_to_dev_state ≠ .unconnected) :
    t.Tracks H (p.handle_dev_fd_write_uses w) t := by
  simp only [handle_dev_fd_write_uses]
  split
  · split
    · exact .refl h.files
    · exact h.tcp_dev hconn
  · exact .refl h.files

lemma tryNetWrite_tracks {ws : List Wrote} {x : Xfer} (h : p.Holds t H)
    (hconn : p.tcp_to_dev_state ≠ .unconnected) : t.Tracks H (p.tryNetWrite_uses ws x) t := by
  simp only [tryNetWrite_uses]
  split
  · exact h.dev_tcp hconn
  · split
    · exact h.dev_tcp hconn
    · exact .refl h.files
  · exact .refl h.files

lemma write_data_tracks {w : Wrote} (h : p.Holds t H)
    (hconn : p.tcp_to_dev_state ≠ .unconnected) : t.Tracks H (p.write_data_uses w) t := by
  simp only [write_data_uses]
  split
  · split
    · exact .refl h.files
    · exact h.dev_tcp hconn
  · exact .refl h.files

lemma transfer_tracks {ev : Event} (h : p.Holds t H) (hp : p.Quiet)
    (hage : ∀ ws, ev = .aged ws → p.xfer.age = true → p.tcp_to_dev_state ≠ .unconnected) :
    t.Tracks H (p.transfer_uses r t ev).2 (p.transfer_uses r t ev).1 := by
  cases ev with
  | dev_read avail ws =>
    simp only [transfer_uses]
    split
    · rename_i hreader
      have hconn : p.tcp_to_dev_state ≠ .unconnected := by
        intro hidle
        rw [(hp.idle hidle).2.1] at hreader
        cases hreader
      split
      · exact .refl h.files
      · exact .refl h.files
      · have h₁ := Traces.trace_dev_tracks (r := r) h.files
        have hh₁ := h.tracks h₁
        split
        · exact h₁
        · split
          · exact h₁
          · exact h₁.trans (tryNetWrite_tracks hh₁ hconn)
    · exact .refl h.files
  | aged ws =>
    simp only [transfer_uses]
    split
    · rename_i hon
      exact tryNetWrite_tracks h (hage ws rfl hon)
    · exact .refl h.files
  | tcp_write w₁ w₂ =>
    simp only [transfer_uses]
    split
    · rename_i hwriter
      have hconn : p.tcp_to_dev_state ≠ .unconnected := by
        intro hidle
        rw [(hp.idle hidle).2.2] at hwriter
        cases hwriter
      split
      · exact write_data_tracks h hconn
      · split
        · exact write_data_tracks h hconn
        · split
          · exact write_data_tracks h hconn
          · exact .refl h.files
        · exact .refl h.files
    · exact .refl h.files
  | telnet_output cmd =>
    simp only [transfer_uses]
    split
    · rename_i hon
      exact h.dev_tcp fun hidle => hon.2 (hp.both.mpr hidle)
    · exact .refl h.files

/-- The events of a session, up to its end. -/
lemma handle_io_tracks (he : e.io = true) (h : p.Holds t H) (hp : p.Quiet)
    (hage : ∀ ws, e = .transfer (.aged ws) → p.xfer.age = true →
      p.tcp_to_dev_state ≠ .unconnected) :
    t.Tracks H (p.handle_uses inuse r t k e).2 (p.handle_uses inuse r t k e).1 := by
  have hsame : t.Tracks H [] t := .refl h.files
  cases e with
  | accept_read accept c => cases he
  | initial_UDP_read peek c rd => cases he
  | setportenable state calls => cases he
  | portconfig c calls => cases he
  | transfer ev => exact transfer_tracks h hp fun ws hws => hage ws (by rw [hws])
  | tcp_read rd =>
    simp only [handle_uses]
    split
    · rename_i hstate
      refine handle_tcp_fd_read_tracks _ h ?_
      rw [hstate]
      exact PortState.noConfusion
    · exact hsame
  | dev_write w =>
    simp only [handle_uses]
    split
    · rename_i hstate
      refine handle_dev_fd_write_tracks h ?_
      rw [hstate]
      exact PortState.noConfusion
    · exact hsame
  | except => exact hsame
  | timeout replies =>
    simp only [handle_uses]
    split
    · rename_i htimer
      have hconn : p.tcp_to_dev_state ≠ .unconnected := by
        intro hidle
        rw [(hp.idle hidle).1] at htimer
        cases htimer
      rw [got_timeout_uses]
      split_ifs
      · exact hsame
      · exact hsame
      · exact h.dev_tcp hconn
    · exact hsame
  | disconnect => exact hsame

/-! ## The start of a session -/

variable {a d : ℕ} {ok : Bool} {c : SetupCalls}

/-- The accept descriptor and the trace files are held. -/
structure HoldsSocket (p : PortInfo) (t : Traces) (H : Set ℕ) : Prop where
  acceptfd : ∀ n, p.acceptfd = some n → n ∈ H ∧ n ∉ t.files
  files : t.files ⊆ H

lemma Holds.socket (h : p.Holds t H) : p.HoldsSocket t H := ⟨fun n hn => h.own n (.inl hn), h.files⟩

/-- A port that is not connected has no other descriptors. -/
lemma HoldsSocket.idle (h : p.HoldsSocket t H) (hidle : p.tcp_to_dev_state = .unconnected) :
    p.Holds t H := by
  refine ⟨fun n hn => ?_, h.files, fun hconn => absurd hidle hconn⟩
  rw [own_idle hidle] at hn
  exact h.acceptfd n hn

lemma HoldsSocket.connected (h : p.HoldsSocket t H) (ha : p.tcpfd = some a) (hd : p.devfd = some d)
    (haH : a ∈ H ∧ a ∉ t.files) (hdH : d ∈ H ∧ d ∉ t.files) (had : a ≠ d)
    (hacceptfd : p.acceptfd ≠ some d) : p.Holds t H := by
  refine ⟨?_, h.files, fun _ => ⟨a, d, ha, hd, had, hacceptfd⟩⟩
  rintro n (hn | ⟨-, hn | hn⟩)
  · exact h.acceptfd n hn
  · cases ha.symm.trans hn
    exact haH
  · cases hd.symm.trans hn
    exact hdH

lemma HoldsSocket.tracks (h : p.HoldsSocket t H) (ht : t.Tracks H l t') :
    p.HoldsSocket t' (Use.after H l) :=
  ⟨fun n hn => ht.keeps n (h.acceptfd n hn).1 (h.acceptfd n hn).2, ht.files⟩

lemma HoldsSocket.insert (h : p.HoldsSocket t H) : p.HoldsSocket t (insert n H) :=
  ⟨fun m hm => ⟨.inr (h.acceptfd m hm).1, (h.acceptfd m hm).2⟩, fun _ hm => .inr (h.files hm)⟩

/-- A descriptor is closed that is neither the accept descriptor nor a trace file. -/
lemma HoldsSocket.close (h : p.HoldsSocket t H) (hn : p.acceptfd ≠ some n) (hfile : n ∉ t.files) :
    p.HoldsSocket t {m ∈ H | some n ≠ some m} := by
  constructor
  · intro m hm
    refine ⟨⟨(h.acceptfd m hm).1, ?_⟩, (h.acceptfd m hm).2⟩
    rintro heq
    exact hn (heq ▸ hm)
  · intro m hm
    refine ⟨h.files hm, ?_⟩
    rintro heq
    exact hfile (Option.some.inj heq ▸ hm)

/-- The calls for a session whose set-up succeeds, on the descriptor `a` of the connection and the
descriptor `d` that has been opened for the device. -/
lemma opened_tracks {f : TraceFiles} (telnet : Bool) (hfiles : t.files ⊆ H) (haH : a ∈ H)
    (hdH : d ∈ H) (hfresh : Use.Fresh H (Traces.setup_trace f).2) :
    t.Tracks H ([.uses (some d), .uses (some d), .uses (some d), .uses (some a), .uses (some a),
        .uses (some a)] ++ (if telnet then [.uses (some d), .uses (some a)] else [.uses (some d)]) ++
      (Traces.setup_trace f).2) (Traces.setup_trace f).1 := by
  have hd : t.Tracks H [.uses (some d)] t := .uses hfiles hdH rfl
  have ha : t.Tracks H [.uses (some a)] t := .uses hfiles haH rfl
  have hsix := hd.trans (hd.trans (hd.trans (ha.trans (ha.trans ha))))
  have hready : t.Tracks H
      (if telnet then [.uses (some d), .uses (some a)] else [.uses (some d)]) t := by
    split
    · exact hd.trans ha
    · exact hd
  have hafter : Use.after H (if telnet then [.uses (some d), .uses (some a)]
      else [.uses (some d)]) = H := by
    split <;> rfl
  refine (hsix.trans hready).trans (Traces.setup_trace_tracks ?_)
  rw [Use.after_append]
  show Use.Fresh (Use.after H _) _
  rw [hafter]
  exact hfresh

/-- The set-up of a session.  When it fails the descriptor of the connection is closed. -/
lemma setup_net_port2_holds (hp : p.HoldsSocket t H) (ha : p.tcpfd = some a) (haH : a ∈ H)
    (haf : a ∉ t.files) (hfresh : Use.Fresh H (p.setup_net_port2_uses c r t k).2)
    (hfail : ok = false → p.acceptfd ≠ some a ∧ p.tcp_to_dev_state = .unconnected)
    (h : p.setup_net_port2 c k = some (k', p', ok)) :
    Use.Legal H (p.setup_net_port2_uses c r t k).2 ∧
      p'.Holds (p.setup_net_port2_uses c r t k).1
        (Use.after H (p.setup_net_port2_uses c r t k).2) := by
  simp only [setup_net_port2] at h
  simp only [setup_net_port2_uses] at hfresh ⊢
  have hclosed (hok : ok = false) : Use.Legal H [.closes p.tcpfd] ∧
      p.Holds t (Use.after H [.closes p.tcpfd]) := by
    obtain ⟨hacceptfd, hidle⟩ := hfail hok
    rw [ha]
    exact ⟨⟨⟨a, haH, rfl⟩, trivial⟩, (hp.close hacceptfd haf).idle hidle⟩
  split at h
  · rename_i hfcntl
    rw [if_pos hfcntl]
    cases h
    exact hclosed rfl
  rename_i hfcntl
  rw [if_neg hfcntl] at hfresh ⊢
  split at h
  · rename_i hlock
    rw [if_pos hlock]
    cases h
    exact hclosed rfl
  rename_i hlock
  rw [if_neg hlock] at hfresh ⊢
  cases hdev : c.devfd with
  | none =>
    simp only [hdev] at h
    cases h
    obtain ⟨hlegal, hholds⟩ := hclosed rfl
    exact ⟨hlegal, HoldsSocket.idle ⟨hholds.socket.acceptfd, hholds.files⟩ (hfail rfl).2⟩
  | some d =>
    simp only [hdev] at h hfresh ⊢
    obtain ⟨k₁, -, hopened⟩ := Option.bind_eq_some_iff.mp h
    split at hopened
    · rename_i hattr
      rw [if_pos hattr] at hfresh ⊢
      cases hopened
      obtain ⟨hacceptfd, hidle⟩ := hfail rfl
      obtain ⟨hdH, -⟩ := hfresh
      have hda : a ≠ d := by
        rintro rfl
        exact hdH haH
      have hacceptd : p.acceptfd ≠ some d := fun heq => hdH (hp.acceptfd d heq).1
      refine ⟨?_, ?_⟩
      · rw [ha]
        exact ⟨⟨a, .inr haH, rfl⟩, ⟨d, ⟨.inl rfl, fun heq => hda (Option.some.inj heq)⟩, rfl⟩,
          trivial⟩
      · rw [ha]
        have hclosed := ((hp.insert (n := d)).close hacceptfd haf).close hacceptd
          fun hfile => hdH (hp.files hfile)
        exact HoldsSocket.idle ⟨hclosed.acceptfd, hclosed.files⟩ hidle
    · rename_i hattr
      rw [if_neg hattr] at hfresh ⊢
      cases hopened
      have hready : (if p.enabled = .telnet then
          ({ p with devfd := some d } : PortInfo).telnet_output_ready_uses
          else [Use.uses (some d)]) =
          if decide (p.enabled = .telnet) then [.uses (some d), .uses (some a)]
          else [.uses (some d)] := by
        simp only [telnet_output_ready_uses, ha, decide_eq_true_eq]
      rw [hready, ha] at hfresh ⊢
      obtain ⟨hfirst, hlast⟩ := Use.fresh_append.mp hfresh
      obtain ⟨⟨hdH, -⟩, -⟩ := Use.fresh_append.mp hfirst
      have hda : a ≠ d := by
        rintro rfl
        exact hdH haH
      have hacceptd : p.acceptfd ≠ some d := fun heq => hdH (hp.acceptfd d heq).1
      have hdf : d ∉ t.files := fun hfile => hdH (hp.files hfile)
      -- what is opened is neither the socket nor the device nor a trace file
      have hlast : Use.Fresh (insert d H) (Traces.setup_trace r.files).2 := by
        rw [Use.after_append] at hlast
        split at hlast <;> exact hlast
      have htracks := opened_tracks (f := r.files) (decide (p.enabled = .telnet))
        (hp.insert (n := d)).files (Set.mem_insert_of_mem d haH) (Set.mem_insert d H) hlast
      refine ⟨htracks.legal, ?_⟩
      refine HoldsSocket.connected (a := a) (d := d) ?_ rfl rfl ?_ ?_ hda hacceptd
      · have hsocket := (hp.insert (n := d)).tracks htracks
        exact ⟨hsocket.acceptfd, hsocket.files⟩
      · exact htracks.keeps a (Set.mem_insert_of_mem d haH) haf
      · exact htracks.keeps d (Set.mem_insert d H) hdf

/-- A number that is opened and closed leaves what is held. -/
lemma opened_closed (hn : n ∉ H) : {m ∈ insert n H | some n ≠ some m} = H := by
  ext m
  constructor
  · rintro ⟨rfl | hm, hne⟩
    · exact absurd rfl hne
    · exact hm
  · intro hm
    refine ⟨.inr hm, ?_⟩
    rintro heq
    cases heq
    exact hn hm

/-- A client comes: it is turned away, or a session starts, or its set-up fails. -/
lemma handle_accept_port_read_holds {accept : Option ℕ} (hp : p.Holds t H)
    (hfresh : Use.Fresh H (p.handle_accept_port_read_uses inuse accept c r t k).2)
    (h : p.handle_accept_port_read inuse accept c k = some (k', p')) :
    Use.Legal H (p.handle_accept_port_read_uses inuse accept c r t k).2 ∧
      p'.Holds (p.handle_accept_port_read_uses inuse accept c r t k).1
        (Use.after H (p.handle_accept_port_read_uses inuse accept c r t k).2) := by
  simp only [handle_accept_port_read] at h
  simp only [handle_accept_port_read_uses] at hfresh ⊢
  split at h
  · rename_i hbusy
    cases h
    cases accept with
    | none => exact ⟨trivial, hp⟩
    | some fd =>
      simp only [if_pos hbusy] at hfresh ⊢
      refine ⟨⟨⟨fd, .inl rfl, rfl⟩, trivial⟩, ?_⟩
      show p.Holds t {m ∈ insert fd H | some fd ≠ some m}
      rw [opened_closed hfresh.1]
      exact hp
  rename_i hbusy
  have hidle : p.tcp_to_dev_state = .unconnected := by
    by_contra hconn
    exact hbusy (.inl hconn)
  split at h
  · cases h
    exact ⟨trivial, HoldsSocket.idle ⟨hp.socket.acceptfd, hp.files⟩ hidle⟩
  · rename_i fd
    obtain ⟨k₁, hopen, h⟩ := Option.bind_eq_some_iff.mp h
    obtain ⟨⟨k₂, p₂, ok⟩, hsetup, h⟩ := Option.bind_eq_some_iff.mp h
    cases h
    simp only [if_neg hbusy, hopen] at hfresh ⊢
    obtain ⟨hfd, hfresh⟩ := hfresh
    have hacceptfd : p.acceptfd ≠ some fd := fun heq => hfd (hp.socket.acceptfd fd heq).1
    have hfile : fd ∉ t.files := fun hfile => hfd (hp.files hfile)
    have hsocket : HoldsSocket { p with tcpfd := some fd } t (insert fd H) := by
      have hinsert := hp.socket.insert (n := fd)
      exact ⟨hinsert.acceptfd, hinsert.files⟩
    have hclosed : Use.Legal (insert fd H) [.closes (some fd)] ∧
        Holds { p with tcpfd := some fd } t (Use.after (insert fd H) [.closes (some fd)]) :=
      ⟨⟨⟨fd, .inl rfl, rfl⟩, trivial⟩, (hsocket.close hacceptfd hfile).idle hidle⟩
    rw [setup_tcp_port] at hsetup
    simp only [setup_tcp_port_uses] at hfresh ⊢
    split at hsetup
    · rename_i hopt
      cases hsetup
      simp only [if_pos hopt]
      exact hclosed
    rename_i hopt
    simp only [if_neg hopt] at hfresh ⊢
    split at hsetup
    · rename_i hosts
      cases hsetup
      simp only [if_pos hosts]
      exact hclosed
    rename_i hosts
    simp only [if_neg hosts] at hfresh ⊢
    exact setup_net_port2_holds (p := { p with tcpfd := some fd }) hsocket rfl (.inl rfl) hfile
      hfresh (fun _ => ⟨hacceptfd, hidle⟩) hsetup

/-- The first datagram comes and the set-up succeeds. -/
lemma handle_initial_UDP_port_read_holds {peek : Bool} {rd : TcpRead} (hp : p.Holds t H)
    (ha : p.acceptfd ≠ none) (hc : inuse = false → peek = true → c.Succeeds p k)
    (hfresh : Use.Fresh H (p.handle_initial_UDP_port_read_uses inuse peek c rd r t k).2)
    (h : p.handle_initial_UDP_port_read inuse peek c rd k = some (k', p', shut)) :
    Use.Legal H (p.handle_initial_UDP_port_read_uses inuse peek c rd r t k).2 ∧
      p'.Holds (p.handle_initial_UDP_port_read_uses inuse peek c rd r t k).1
        (Use.after H (p.handle_initial_UDP_port_read_uses inuse peek c rd r t k).2) := by
  simp only [handle_initial_UDP_port_read] at h
  simp only [handle_initial_UDP_port_read_uses] at hfresh ⊢
  split at h
  · rename_i hinuse
    cases h
    simp only [if_pos hinuse]
    exact ⟨trivial, hp⟩
  rename_i hinuse
  simp only [if_neg hinuse] at hfresh ⊢
  split at h
  · rename_i hpeek
    cases h
    simp only [if_pos hpeek]
    exact ⟨trivial, hp⟩
  rename_i hpeek
  simp only [if_neg hpeek] at hfresh ⊢
  obtain ⟨⟨k₁, q, ok⟩, hsetup, hread⟩ := Option.bind_eq_some_iff.mp h
  obtain ⟨hfcntl, hlock, hdevfd, htcsetattr⟩ := hc (by simpa using hinuse) (by simpa using hpeek)
  have hok := setup_net_port2_of_succeeds (p := { p with tcpfd := p.acceptfd })
    ⟨hfcntl, hlock, hdevfd, htcsetattr⟩ hsetup
  subst hok
  simp only [hsetup] at hfresh ⊢
  simp only [if_true] at hread
  obtain ⟨a, ha⟩ := Option.ne_none_iff_exists'.mp ha
  obtain ⟨haH, haf⟩ := hp.socket.acceptfd a ha
  obtain ⟨hfresh₁, -⟩ := Use.fresh_append.mp hfresh
  obtain ⟨hlegal, hq⟩ := setup_net_port2_holds (p := { p with tcpfd := p.acceptfd })
    ⟨hp.socket.acceptfd, hp.files⟩ ha haH haf hfresh₁ (by intro h; cases h) hsetup
  have hconn : q.tcp_to_dev_state ≠ .unconnected := by
    obtain ⟨hfalse, -⟩ | ⟨-, hstate, -⟩ := setup_net_port2_session hsetup
    · cases hfalse
    · rw [hstate]
      exact PortState.noConfusion
  -- the datagram is read like one of a session
  have htracks := handle_tcp_fd_read_tracks (r := r) rd hq hconn
  obtain ⟨hsame, -⟩ := handle_tcp_fd_read_sameEnds hread
  have hconn' : p'.tcp_to_dev_state ≠ .unconnected := by
    obtain ⟨hfalse, -⟩ | ⟨-, -, hx⟩ := setup_net_port2_session hsetup
    · cases hfalse
    · refine (handle_tcp_fd_read_connected hconn ?_ hread).1
      rw [hx]
      exact PortState.noConfusion
  refine ⟨Use.legal_append.mpr ⟨hlegal, htracks.legal⟩, ?_⟩
  rw [Use.after_append]
  exact (hq.tracks htracks).congr hsame.acceptfd hsame.tcpfd hsame.devfd
    ⟨fun h => absurd h hconn', fun h => absurd h hconn⟩

/-! ## Commands and reloads -/

variable {m : Mode} {calls : SocketCalls} {rv : Option String} {conf : Config}

/-- A socket that has been opened takes the place of the one that there was. -/
lemma Holds.set_socket (h : p.Holds t H) (hn : n ∉ H) (hacceptfd : p'.acceptfd = some n)
    (htcpfd : p'.tcpfd = p.tcpfd) (hdevfd : p'.devfd = p.devfd)
    (hidle : p'.tcp_to_dev_state = .unconnected ↔ p.tcp_to_dev_state = .unconnected) :
    p'.Holds t (insert n H) := by
  refine ⟨?_, fun m hm => .inr (h.files hm), ?_⟩
  · rintro m (hm | ⟨hconn, hm⟩)
    · cases hacceptfd.symm.trans hm
      exact ⟨.inl rfl, fun hfile => hn (h.files hfile)⟩
    · rw [ne_eq, hidle] at hconn
      rw [htcpfd, hdevfd] at hm
      obtain ⟨hmH, hfile⟩ := h.own m (.inr ⟨hconn, hm⟩)
      exact ⟨.inr hmH, hfile⟩
  · rw [ne_eq, hidle, htcpfd, hdevfd, hacceptfd]
    intro hconn
    obtain ⟨a, d, ha, hd, had, -⟩ := h.session hconn
    refine ⟨a, d, ha, hd, had, ?_⟩
    rintro heq
    cases heq
    exact hn (h.own n (.inr ⟨hconn, .inr hd⟩)).1

/-- The field is set to -1. -/
lemma Holds.drop_socket (h : p.Holds t H) (hacceptfd : p'.acceptfd = none)
    (htcpfd : p'.tcpfd = p.tcpfd) (hdevfd : p'.devfd = p.devfd)
    (hidle : p'.tcp_to_dev_state = .unconnected ↔ p.tcp_to_dev_state = .unconnected) :
    p'.Holds t H := by
  refine ⟨?_, h.files, ?_⟩
  · rintro m (hm | ⟨hconn, hm⟩)
    · cases hacceptfd.symm.trans hm
    · rw [ne_eq, hidle] at hconn
      rw [htcpfd, hdevfd] at hm
      exact h.own m (.inr ⟨hconn, hm⟩)
  · rw [ne_eq, hidle, htcpfd, hdevfd, hacceptfd]
    intro hconn
    obtain ⟨a, d, ha, hd, had, -⟩ := h.session hconn
    exact ⟨a, d, ha, hd, had, fun heq => nomatch heq⟩

lemma disable_legal (h : p.HoldsSocket t H) : Use.Legal H p.disable_uses := by
  rw [disable_uses]
  split
  · rename_i hsome
    obtain ⟨a, ha⟩ := Option.ne_none_iff_exists'.mp hsome
    have haH := (h.acceptfd a ha).1
    exact ⟨⟨a, haH, ha⟩, ⟨a, haH, ha⟩, ⟨a, haH, ha⟩, trivial⟩
  · trivial

lemma free_port_legal (h : p.HoldsSocket t H) : Use.Legal H p.free_port_uses := by
  rw [free_port_uses]
  split
  · trivial
  · exact disable_legal h

/-- The socket is closed, which is not the descriptor of a session. -/
lemma disable_holds (h : p.Holds t H)
    (hsession : p.tcp_to_dev_state ≠ .unconnected → p.acceptfd = none ∨ p.tcpfd ≠ p.acceptfd) :
    (p.disable k).2.Holds t (Use.after H p.disable_uses) := by
  have hdrop : (p.disable k).2.Holds t H := h.drop_socket rfl rfl rfl .rfl
  rw [disable_uses]
  split
  · rename_i hsome
    obtain ⟨a, ha⟩ := Option.ne_none_iff_exists'.mp hsome
    rw [ha]
    show (p.disable k).2.Holds t {m ∈ H | some a ≠ some m}
    refine ⟨?_, ?_, hdrop.session⟩
    · intro m hm
      obtain ⟨hmH, hfile⟩ := hdrop.own m hm
      refine ⟨⟨hmH, ?_⟩, hfile⟩
      rintro heq
      cases heq
      obtain hm | ⟨hconn, hm⟩ := hm
      · cases hm
      · obtain ⟨x, d, hx, hd, -, had⟩ := h.session hconn
        obtain hm | hm := hm
        · refine (hsession hconn).elim hsome fun hne => hne ?_
          exact hm.trans ha.symm
        · exact had (ha.trans (hm.symm.trans hd))
    · intro m hm
      refine ⟨h.files hm, ?_⟩
      rintro heq
      cases heq
      exact (h.own a (.inl ha)).2 hm
  · exact hdrop

/-- The port starts up, or there is no socket. -/
lemma startup_port_holds (hp : p.Holds t H) (hc : Starts calls)
    (hfresh : Use.Fresh H (p.startup_port_uses calls))
    (h : p.startup_port calls k = some (k', p', rv)) :
    Use.Legal H (p.startup_port_uses calls) ∧
      p'.Holds t (Use.after H (p.startup_port_uses calls)) := by
  have hrecord : ∃ b, p' = { p with acceptfd := calls.socket, started := b } := by
    obtain ⟨-, -, ⟨-, hp'⟩ | ⟨-, hp', -⟩⟩ := startup_port_spec h
    · exact ⟨_, hp'⟩
    · exact ⟨_, hp'⟩
  obtain ⟨b, rfl⟩ := hrecord
  rw [startup_port_uses] at hfresh ⊢
  obtain hnone | ⟨hfcntl, hopt, hbind, hlisten⟩ := hc
  · rw [hnone]
    exact ⟨trivial, hp.drop_socket rfl rfl rfl .rfl⟩
  · cases hsocket : calls.socket with
    | none => exact ⟨trivial, hp.drop_socket rfl rfl rfl .rfl⟩
    | some fd =>
      simp only [hsocket, hfcntl, hopt, hbind, hlisten, Bool.not_true, Bool.false_eq_true, if_false,
        and_false] at hfresh ⊢
      refine ⟨⟨⟨fd, .inl rfl, rfl⟩, ⟨fd, .inl rfl, rfl⟩, trivial⟩, ?_⟩
      exact hp.set_socket hfresh.1 rfl rfl rfl .rfl

/-- A command changes the mode. -/
lemma change_port_state_holds (hp : p.Holds t H)
    (hoff : m = .off → p.tcp_to_dev_state ≠ .unconnected → p.enabled ≠ .off →
      p.acceptfd = none ∨ p.tcpfd ≠ p.acceptfd)
    (hon : m ≠ .off → p.enabled = .off → Starts calls)
    (hfresh : Use.Fresh H (p.change_port_state_uses m calls))
    (h : p.change_port_state m calls k = some (k', p', rv)) :
    Use.Legal H (p.change_port_state_uses m calls) ∧
      p'.Holds t (Use.after H (p.change_port_state_uses m calls)) := by
  simp only [change_port_state] at h
  rw [change_port_state_uses] at hfresh ⊢
  split at h
  · rename_i hsame
    cases h
    rw [if_pos hsame]
    exact ⟨trivial, hp⟩
  rename_i hchange
  rw [if_neg hchange] at hfresh ⊢
  split at h
  · rename_i hm
    cases h
    rw [if_pos hm]
    refine ⟨disable_legal hp.socket, disable_holds hp fun hconn => hoff hm hconn ?_⟩
    exact fun henabled => hchange (henabled.trans hm.symm)
  rename_i hm
  rw [if_neg hm] at hfresh ⊢
  split at h
  · rename_i henabled
    rw [if_pos henabled] at hfresh ⊢
    obtain ⟨⟨k₁, p₁, rv₁⟩, hstart, hrest⟩ := Option.bind_eq_some_iff.mp h
    cases hrest
    obtain ⟨hlegal, hholds⟩ := startup_port_holds hp (hon hm henabled) hfresh hstart
    exact ⟨hlegal, hholds.congr rfl rfl rfl .rfl⟩
  · rename_i henabled
    cases h
    rw [if_neg henabled]
    exact ⟨trivial, hp.congr rfl rfl rfl .rfl⟩

lemma files_init : Traces.init.files = ∅ := by
  ext n
  simp [Traces.files, Traces.init]

/-- A reload. -/
lemma portconfig_holds (hp : p.Holds t H)
    (hc : p.xfer.dev_to_tcp_state = .unconnected →
      p.acceptfd ≠ none ∧ (conf.enabled ≠ .off → p.enabled = .off → Starts calls))
    (hfresh : Use.Fresh H (p.portconfig_uses conf calls t).2)
    (h : p.portconfig conf calls k = some (k', p')) :
    Use.Legal H (p.portconfig_uses conf calls t).2 ∧
      p'.Holds (p.portconfig_uses conf calls t).1
        (Use.after H (p.portconfig_uses conf calls t).2) := by
  simp only [portconfig] at h
  simp only [portconfig_uses] at hfresh ⊢
  split at h
  · rename_i hx
    simp only [if_pos hx] at hfresh ⊢
    obtain ⟨ha, hon⟩ := hc hx
    obtain ⟨a, ha⟩ := Option.ne_none_iff_exists'.mp ha
    obtain ⟨⟨k₁, q, rv⟩, hchange, hrest⟩ := Option.bind_eq_some_iff.mp h
    cases hrest
    -- the new record takes over the socket
    have hnew : Holds { conf.port with
        enabled := p.enabled, acceptfd := p.acceptfd, started := p.started } .init H := by
      refine HoldsSocket.idle ⟨fun n hn => ⟨(hp.socket.acceptfd n hn).1, ?_⟩, ?_⟩ rfl
      · rw [files_init]
        exact Set.notMem_empty n
      · rw [files_init]
        exact Set.empty_subset H
    obtain ⟨hlegal, hholds⟩ := change_port_state_holds hnew (fun _ hconn => absurd rfl hconn) hon
      hfresh hchange
    exact ⟨⟨⟨a, (hp.socket.acceptfd a ha).1, ha⟩, hlegal⟩, hholds⟩
  · rename_i hx
    simp only [if_neg hx]
    cases h
    refine ⟨trivial, hp.congr ?_ ?_ ?_ ?_⟩ <;> simp only <;> split <;> rfl

/-! ## The end of a session -/

/-- The connection and the device are closed, and the accept descriptor is neither. -/
lemma hang_up_holds (hp : p.Holds t H) (hends : p.ShutsDown) {l : List (Use ℕ)}
    (hl : l = [.uses p.devfd, .uses p.tcpfd] ++
      (if p.enabled = .udp then [.uses p.acceptfd, .uses p.acceptfd] else [.closes p.tcpfd]) ++
      [.closes p.devfd]) :
    Use.Legal H l ∧ ∀ n, p.acceptfd = some n → n ∈ Use.after H l := by
  obtain ⟨a, d, ha, hd, had, hacceptfd⟩ := hp.session hends.connected
  have haH := (hp.own a (.inr ⟨hends.connected, .inl ha⟩)).1
  have hdH := (hp.own d (.inr ⟨hends.connected, .inr hd⟩)).1
  have hne (n : ℕ) (hn : p.acceptfd = some n) : some d ≠ some n := by
    rintro heq
    exact hacceptfd (hn.trans heq.symm)
  rw [hl, ha, hd]
  split
  · rename_i hudp
    obtain ⟨x, hx⟩ := Option.ne_none_iff_exists'.mp (hends.udp hudp)
    have hxH := (hp.own x (.inl hx)).1
    refine ⟨⟨⟨d, hdH, rfl⟩, ⟨a, haH, rfl⟩, ⟨x, hxH, hx⟩, ⟨x, hxH, hx⟩, ⟨d, hdH, rfl⟩, trivial⟩, ?_⟩
    intro n hn
    exact ⟨(hp.own n (.inl hn)).1, hne n hn⟩
  · rename_i htcp
    refine ⟨⟨⟨d, hdH, rfl⟩, ⟨a, haH, rfl⟩, ⟨a, haH, rfl⟩,
      ⟨d, ⟨hdH, fun heq => had (Option.some.inj heq)⟩, rfl⟩, trivial⟩, ?_⟩
    intro n hn
    refine ⟨⟨(hp.own n (.inl hn)).1, ?_⟩, hne n hn⟩
    rintro heq
    obtain hnone | hdiff := hends.tcp htcp
    · cases hnone.symm.trans hn
    · exact hdiff (ha.trans (heq.trans hn.symm))

lemma holds_init (hidle : p.tcp_to_dev_state = .unconnected)
    (hacceptfd : ∀ n, p.acceptfd = some n → n ∈ H) : p.Holds .init H := by
  refine HoldsSocket.idle ⟨fun n hn => ⟨hacceptfd n hn, ?_⟩, ?_⟩ hidle
  · rw [files_init]
    exact Set.notMem_empty n
  · rw [files_init]
    exact Set.empty_subset H

/-- The calls up to the end of the session, after which the record goes or stays. -/
lemma shutdown_port_uses_eq :
    p.shutdown_port_uses t = (t.close_all ++ ([.uses p.devfd, .uses p.tcpfd] ++
      (if p.enabled = .udp then [.uses p.acceptfd, .uses p.acceptfd] else [.closes p.tcpfd]) ++
      [.closes p.devfd])) ++
      match p.config_num with
      | none => p.free_port_uses
      | some _ =>
        match p.new_config with
        | none => []
        | some _ => [.uses p.acceptfd] := by
  simp only [shutdown_port_uses, List.append_assoc]
  congr 4

lemma shutdown_port_holds (hp : p.Holds t H) (hends : p.ShutsDown) :
    Use.Legal H (p.shutdown_port_uses t) ∧ ∀ k' q, p.shutdown_port k = (k', some q) →
      q.Holds .init (Use.after H (p.shutdown_port_uses t)) := by
  obtain ⟨t₁, htraces⟩ := Traces.close_all_tracks hp.files
  have hp₁ := hp.tracks htraces
  obtain ⟨hlegal, hafter⟩ := hang_up_holds hp₁ hends rfl
  have hboth := Use.legal_append.mpr ⟨htraces.legal, hlegal⟩
  rw [← Use.after_append] at hafter
  rw [shutdown_port_uses_eq]
  generalize t.close_all ++ ([.uses p.devfd, .uses p.tcpfd] ++
      (if p.enabled = .udp then [.uses p.acceptfd, .uses p.acceptfd] else [.closes p.tcpfd]) ++
      [.closes p.devfd]) = l at hboth hafter ⊢
  have hended : p.ended.Holds .init (Use.after H l) := holds_init rfl hafter
  rw [shutdown_port_eq, Use.legal_append, Use.after_append]
  cases hnum : p.config_num with
  | none =>
    refine ⟨⟨hboth, free_port_legal (t := .init) ?_⟩, fun k' q h => nomatch h⟩
    exact ⟨hended.socket.acceptfd, hended.files⟩
  | some num =>
    cases hnew : p.new_config with
    | none =>
      refine ⟨⟨hboth, trivial⟩, ?_⟩
      intro k' q h
      cases h
      exact hended
    | some conf =>
      have hsome := hends.reload (by rw [hnum]; exact Option.some_ne_none num)
        (by rw [hnew]; exact Option.some_ne_none conf)
      obtain ⟨a, ha⟩ := Option.ne_none_iff_exists'.mp hsome
      refine ⟨⟨hboth, ⟨a, hafter a ha, ha⟩, trivial⟩, ?_⟩
      intro k' q h
      cases h
      exact holds_init rfl hafter

/-! ## The list of the ports -/

/-- A port is added if it starts up. -/
lemma start_holds (hc : conf.enabled ≠ .off → Starts calls)
    (hfresh : Use.Fresh H (conf.start_uses calls k)) {q : Option PortInfo}
    (h : conf.start calls k = some (k', q)) :
    Use.Legal H (conf.start_uses calls k) ∧
      ∀ p', q = some p' → p'.Holds .init (Use.after H (conf.start_uses calls k)) := by
  have hport : conf.port.Holds .init H := holds_init rfl fun n hn => nomatch hn
  rw [Config.start] at h
  rw [Config.start_uses] at hfresh ⊢
  split at h
  · rename_i hoff
    cases h
    rw [if_pos hoff]
    refine ⟨trivial, ?_⟩
    intro p' hp'
    cases hp'
    exact hport
  · rename_i hon
    rw [if_neg hon] at hfresh ⊢
    obtain ⟨⟨k₁, p₁, rv⟩, hstart, hrest⟩ := Option.bind_eq_some_iff.mp h
    simp only [hstart] at hfresh ⊢
    obtain ⟨hfresh₁, -⟩ := Use.fresh_append.mp hfresh
    obtain ⟨hlegal, hholds⟩ := startup_port_holds hport (hc hon) hfresh₁ hstart
    cases rv with
    | none =>
      simp only [if_true, List.append_nil, Option.some.injEq, Prod.mk.injEq] at hrest ⊢
      obtain ⟨-, rfl⟩ := hrest
      refine ⟨hlegal, ?_⟩
      intro p' hp'
      cases hp'
      exact hholds
    | some err =>
      simp only [reduceCtorEq, if_false, Option.some.injEq, Prod.mk.injEq] at hrest ⊢
      obtain ⟨-, rfl⟩ := hrest
      refine ⟨Use.legal_append.mpr ⟨hlegal, free_port_legal hholds.socket⟩, ?_⟩
      intro p' hp'
      cases hp'

lemma clear_old_port_config_holds {num : ℕ} (hp : p.Holds t H) :
    Use.Legal H (p.clear_old_port_config_uses num) ∧
      ∀ k' q, p.clear_old_port_config num k = (k', some q) →
        q.Holds t (Use.after H (p.clear_old_port_config_uses num)) := by
  rw [clear_old_port_config, clear_old_port_config_uses]
  split
  · refine ⟨trivial, ?_⟩
    intro k' q h
    cases h
    exact hp
  · split
    · exact ⟨free_port_legal hp.socket, fun k' q h => by cases h⟩
    · refine ⟨trivial, ?_⟩
      intro k' q h
      cases h
      exact hp.congr rfl rfl rfl .rfl

/-! ## The events -/

lemma ShutsDown.congr (h : p.ShutsDown) (hsame : SameEnds p p')
    (hidle : p'.tcp_to_dev_state = .unconnected ↔ p.tcp_to_dev_state = .unconnected) :
    p'.ShutsDown := by
  refine ⟨?_, ?_, ?_, ?_⟩
  · rw [ne_eq, hidle]
    exact h.connected
  · rw [hsame.enabled, hsame.acceptfd]
    exact h.udp
  · rw [hsame.enabled, hsame.acceptfd, hsame.tcpfd]
    exact h.tcp
  · rw [hsame.config_num, hsame.new_config, hsame.acceptfd]
    exact h.reload

/-- What the condition says about an event of a session. -/
lemma careful_io (he : e.io = true) (hc : p.Careful inuse k e) :
    (∀ ws, e = .transfer (.aged ws) → p.xfer.age = true → p.tcp_to_dev_state ≠ .unconnected) ∧
      (p.Ends inuse k e → p.ShutsDown) := by
  cases e with
  | accept_read accept c => cases he
  | initial_UDP_read peek c rd => cases he
  | setportenable state calls => cases he
  | portconfig c calls => cases he
  | transfer ev =>
    cases ev with
    | aged ws =>
      constructor
      · intro ws' hws hage
        exact (hc hage).1
      · intro hends
        by_cases hage : p.xfer.age = true
        · exact (hc hage).2 hends
        · -- a timer that is not in the heap does nothing
          obtain ⟨k', q, hh⟩ := hends
          rw [Bool.not_eq_true] at hage
          simp only [handle, transfer, Xfer.step, shuts, hage, Bool.false_eq_true, if_false,
            Bool.false_and, Option.bind_eq_bind, Option.bind_some, Option.some.injEq,
            Prod.mk.injEq, and_false] at hh
    | dev_read avail ws => exact ⟨fun _ h => (by cases h), hc⟩
    | tcp_write w₁ w₂ => exact ⟨fun _ h => (by cases h), hc⟩
    | telnet_output cmd => exact ⟨fun _ h => (by cases h), hc⟩
  | tcp_read rd => exact ⟨fun _ h => (by cases h), hc⟩
  | dev_write w => exact ⟨fun _ h => (by cases h), hc⟩
  | except => exact ⟨fun _ h => (by cases h), hc⟩
  | timeout replies => exact ⟨fun _ h => (by cases h), hc⟩
  | disconnect => exact ⟨fun _ h => (by cases h), hc⟩

lemma listens_acceptfd {handler : ReadHandler} (h : p.listens handler k = true) :
    p.acceptfd ≠ none := by
  rw [listens] at h
  intro hnone
  rw [hnone] at h
  cases h

/-- A session on a UDP port that the first datagram ends. -/
lemma handle_initial_UDP_port_read_ends {peek : Bool} {rd : TcpRead}
    (h : p.handle_initial_UDP_port_read inuse peek c rd k = some (k', p', true)) :
    inuse = false ∧ peek = true ∧ p'.enabled = p.enabled ∧ p'.acceptfd = p.acceptfd ∧
      p'.tcp_to_dev_state ≠ .unconnected := by
  simp only [handle_initial_UDP_port_read] at h
  split at h
  · cases h
  split at h
  · cases h
  rename_i hinuse hpeek
  obtain ⟨⟨k₁, q, ok⟩, hsetup, hread⟩ := Option.bind_eq_some_iff.mp h
  cases ok with
  | false => cases hread
  | true =>
    simp only [if_true] at hread
    obtain ⟨d, -, hsame, hconn, -⟩ := setup_net_port2_succeeds hsetup
    obtain ⟨hsame', -⟩ := handle_tcp_fd_read_sameEnds hread
    refine ⟨by simpa using hinuse, by simpa using hpeek, hsame'.enabled.trans hsame.enabled,
      hsame'.acceptfd.trans hsame.acceptfd, ?_⟩
    exact (handle_tcp_fd_read_connected hconn.tcp_to_dev hconn.dev_to_tcp hread).1

/-- An event, up to the `shutdown_port` that it may end with. -/
lemma handle_holds (hp : p.Holds t H) (hq : p.Quiet) (hc : p.Careful inuse k e)
    (hfresh : Use.Fresh H (p.handle_uses inuse r t k e).2)
    (h : p.handle inuse k e = some (k', p', shut)) :
    Use.Legal H (p.handle_uses inuse r t k e).2 ∧
      p'.Holds (p.handle_uses inuse r t k e).1 (Use.after H (p.handle_uses inuse r t k e).2) ∧
      (shut = true → p'.ShutsDown) := by
  cases hio : e.io with
  | true =>
    obtain ⟨hage, hends⟩ := careful_io hio hc
    obtain ⟨hsame, -⟩ := handle_sameEnds hio h
    obtain ⟨hidle, -⟩ := handle_io_state hio h
    have htracks : t.Tracks H (p.handle_uses inuse r t k e).2 (p.handle_uses inuse r t k e).1 :=
      handle_io_tracks hio hp hq hage
    refine ⟨htracks.legal, ?_, ?_⟩
    · exact (hp.tracks htracks).congr hsame.acceptfd hsame.tcpfd hsame.devfd hidle
    · rintro rfl
      exact (hends ⟨k', p', h⟩).congr hsame hidle
  | false =>
    have hstays (h : some (k, p, false) = some (k', p', shut)) :
        Use.Legal H [] ∧ p'.Holds t (Use.after H []) ∧ (shut = true → p'.ShutsDown) := by
      cases h
      exact ⟨trivial, hp, fun h => nomatch h⟩
    cases e with
    | accept_read accept c =>
      simp only [handle] at h
      simp only [handle_uses] at hfresh ⊢
      split at h
      · rename_i hlistens
        simp only [if_pos hlistens] at hfresh ⊢
        obtain ⟨⟨k₁, p₁⟩, haccept, hrest⟩ := Option.bind_eq_some_iff.mp h
        cases hrest
        obtain ⟨hlegal, hholds⟩ := handle_accept_port_read_holds hp hfresh haccept
        exact ⟨hlegal, hholds, fun h => nomatch h⟩
      · rename_i hlistens
        simp only [if_neg hlistens]
        exact hstays h
    | initial_UDP_read peek c rd =>
      simp only [handle_uses] at hfresh ⊢
      by_cases hlistens : p.listens .handle_initial_UDP_port_read k = true
      · simp only [if_pos hlistens] at hfresh ⊢
        have hread := h
        simp only [handle, if_pos hlistens] at hread
        have hacceptfd := listens_acceptfd hlistens
        obtain ⟨hlegal, hholds⟩ := handle_initial_UDP_port_read_holds hp hacceptfd
          (fun hinuse hpeek => (hc hlistens hinuse hpeek).1) hfresh hread
        refine ⟨hlegal, hholds, ?_⟩
        rintro rfl
        obtain ⟨hinuse, hpeek, henabled, hsame, hconn⟩ :=
          handle_initial_UDP_port_read_ends hread
        have hudp := (hc hlistens hinuse hpeek).2 ⟨k', p', h⟩
        refine ⟨hconn, fun _ => ?_, fun htcp => ?_, fun _ _ => ?_⟩
        · rw [hsame]
          exact hacceptfd
        · exact absurd (henabled.trans hudp) htcp
        · rw [hsame]
          exact hacceptfd
      · simp only [handle, if_neg hlistens] at h
        simp only [if_neg hlistens]
        exact hstays h
    | setportenable state calls =>
      obtain ⟨⟨k₁, p₁, rv⟩, hchange, hrest⟩ := Option.bind_eq_some_iff.mp h
      cases hrest
      simp only [Careful] at hc
      obtain ⟨hlegal, hholds⟩ := change_port_state_holds hp
        (fun hoff => by rw [if_pos hoff] at hc; exact hc)
        (fun hon => by rw [if_neg hon] at hc; exact hc) hfresh hchange
      exact ⟨hlegal, hholds, fun h => nomatch h⟩
    | portconfig conf calls =>
      obtain ⟨⟨k₁, p₁⟩, hconfig, hrest⟩ := Option.bind_eq_some_iff.mp h
      cases hrest
      obtain ⟨hlegal, hholds⟩ := portconfig_holds hp hc hfresh hconfig
      exact ⟨hlegal, hholds, fun h => nomatch h⟩
    | transfer ev => cases hio
    | tcp_read rd => cases hio
    | dev_write w => cases hio
    | except => cases hio
    | timeout replies => cases hio
    | disconnect => cases hio

end PortInfo

/-! ## A run -/

namespace Descriptors

variable {s s' : Descriptors N} {e : LoopEvent N} {r : TraceInput} {name n : N} {k : Kernel}
  {loop : MainLoop N}

/-- What holds in these runs. -/
structure Clean (s : Descriptors N) : Prop where
  holds : ∀ name p, s.loop.ports.lookup name = some p →
    p.Holds (s.traces name) (Use.holdings s.owner name)
  quiet : ∀ name p, s.loop.ports.lookup name = some p → p.Quiet

/-- The port of the event does only what is legal, and has what it holds afterwards. -/
structure Proper (s : Descriptors N) (r : TraceInput) (e : LoopEvent N) (loop : MainLoop N) :
    Prop where
  legal : Use.Legal (Use.holdings s.owner e.name) (s.uses r e).2
  holds : ∀ p, loop.ports.lookup e.name = some p →
    p.Holds (s.uses r e).1 (Use.after (Use.holdings s.owner e.name) (s.uses r e).2)
  quiet : ∀ p, loop.ports.lookup e.name = some p → p.Quiet
  others : ∀ n, n ≠ e.name → loop.ports.lookup n = s.loop.ports.lookup n

lemma port_proper {ev : PortEvent} (hs : s.Clean) (hok : s.Kept (.port name ev, r))
    (hfresh : Use.Fresh (Use.holdings s.owner name) (s.uses r (.port name ev)).2)
    (h : s.loop.step (.port name ev) = some loop) : s.Proper r (.port name ev) loop := by
  cases hp : s.loop.ports.lookup name with
  | none =>
    simp only [MainLoop.step, hp] at h
    cases h
    refine ⟨?_, ?_, ?_, fun _ _ => rfl⟩
    · simp only [uses, hp]
      trivial
    · intro p hp'
      cases hp.symm.trans hp'
    · intro p hp'
      cases hp.symm.trans hp'
  | some p =>
    simp only [MainLoop.step, hp] at h
    obtain ⟨x, hx, rfl⟩ := Option.map_eq_some_iff.mp h
    obtain ⟨⟨k', q, shut⟩, hhandle, rfl⟩ := Option.map_eq_some_iff.mp hx
    have hcareful := hok p hp
    have hholds := hs.holds name p hp
    have hquiet := hs.quiet name p hp
    have hothers (n : N) (hn : n ≠ name) : (s.loop.set name (PortInfo.finish (k', q, shut))).ports.lookup n =
        s.loop.ports.lookup n := MainLoop.lookup_set_of_ne hn
    cases shut with
    | false =>
      have huses : s.uses r (.port name ev) = p.handle_uses
          (s.loop.is_device_already_inuse name p) r (s.traces name) s.loop.k ev := by
        simp only [uses, hp, hhandle]
      rw [huses] at hfresh
      obtain ⟨hlegal, hq, -⟩ := PortInfo.handle_holds hholds hquiet hcareful hfresh hhandle
      refine ⟨?_, ?_, ?_, hothers⟩
      · rw [huses]
        exact hlegal
      · intro p' hp'
        cases MainLoop.lookup_set.symm.trans hp'
        rw [huses]
        exact hq
      · intro p' hp'
        cases MainLoop.lookup_set.symm.trans hp'
        refine PortInfo.handle_quiet hquiet ?_ hhandle
        rintro ws rfl hidle
        by_contra hage
        exact (hcareful ((Bool.not_eq_false _).mp hage)).1 hidle
    | true =>
      have huses : s.uses r (.port name ev) = (.init, (p.handle_uses
          (s.loop.is_device_already_inuse name p) r (s.traces name) s.loop.k ev).2 ++
          q.shutdown_port_uses (p.handle_uses
            (s.loop.is_device_already_inuse name p) r (s.traces name) s.loop.k ev).1) := by
        simp only [uses, hp, hhandle]
      rw [huses] at hfresh
      obtain ⟨hfresh₁, -⟩ := Use.fresh_append.mp hfresh
      obtain ⟨hlegal, hq, hends⟩ := PortInfo.handle_holds hholds hquiet hcareful hfresh₁ hhandle
      obtain ⟨hshut, hrest⟩ := PortInfo.shutdown_port_holds (k := k') hq (hends rfl)
      refine ⟨?_, ?_, ?_, hothers⟩
      · rw [huses]
        exact Use.legal_append.mpr ⟨hlegal, hshut⟩
      · intro p' hp'
        have hshutdown : q.shutdown_port k' = ((q.shutdown_port k').1, some p') :=
          Prod.ext rfl (MainLoop.lookup_set.symm.trans hp')
        rw [huses, Use.after_append]
        exact hrest _ p' hshutdown
      · intro p' hp'
        have hshutdown : q.shutdown_port k' = ((q.shutdown_port k').1, some p') :=
          Prod.ext rfl (MainLoop.lookup_set.symm.trans hp')
        exact PortInfo.shutdown_port_quiet hshutdown

lemma new_port_proper {c : Config} {calls : SocketCalls} (hs : s.Clean)
    (hok : s.Kept (.new_port name c calls, r))
    (hfresh : Use.Fresh (Use.holdings s.owner name) (s.uses r (.new_port name c calls)).2)
    (h : s.loop.step (.new_port name c calls) = some loop) :
    s.Proper r (.new_port name c calls) loop := by
  cases hp : s.loop.ports.lookup name with
  | some p =>
    simp only [MainLoop.step, hp] at h
    cases h
    have huses : s.uses r (.new_port name c calls) = (s.traces name, []) := by
      simp only [uses, hp]
    refine ⟨?_, ?_, fun p hp' => hs.quiet name p hp', fun _ _ => rfl⟩
    · rw [huses]
      trivial
    · intro p hp'
      rw [huses]
      exact hs.holds name p hp'
  | none =>
    simp only [MainLoop.step, hp] at h
    obtain ⟨⟨k', q⟩, hstart, rfl⟩ := Option.map_eq_some_iff.mp h
    have huses : s.uses r (.new_port name c calls) = (.init, c.start_uses calls s.loop.k) := by
      simp only [uses, hp]
    rw [huses] at hfresh
    obtain ⟨hlegal, hholds⟩ := PortInfo.start_holds (fun hon => hok hp hon) hfresh hstart
    refine ⟨?_, ?_, ?_, fun n hn => MainLoop.lookup_set_of_ne hn⟩
    · rw [huses]
      exact hlegal
    · intro p' hp'
      rw [huses]
      exact hholds p' (MainLoop.lookup_set.symm.trans hp')
    · intro p' hp'
      exact (PortInfo.start_timed hstart (MainLoop.lookup_set.symm.trans hp')).quiet

lemma clear_old_proper {num : ℕ} (hs : s.Clean)
    (h : s.loop.step (.clear_old name num) = some loop) : s.Proper r (.clear_old name num) loop := by
  cases hp : s.loop.ports.lookup name with
  | none =>
    simp only [MainLoop.step, hp] at h
    cases h
    refine ⟨?_, ?_, ?_, fun _ _ => rfl⟩
    · simp only [uses, hp]
      trivial
    · intro p hp'
      cases hp.symm.trans hp'
    · intro p hp'
      cases hp.symm.trans hp'
  | some p =>
    simp only [MainLoop.step, hp] at h
    cases h
    have huses : s.uses r (.clear_old name num) =
        (s.traces name, p.clear_old_port_config_uses num) := by
      simp only [uses, hp]
    obtain ⟨hlegal, hholds⟩ := PortInfo.clear_old_port_config_holds (hs.holds name p hp)
    have hrest {p' : PortInfo} (hp' : (s.loop.set name (p.clear_old_port_config num
        s.loop.k)).ports.lookup name = some p') : p.clear_old_port_config num s.loop.k =
        ((p.clear_old_port_config num s.loop.k).1, some p') :=
      Prod.ext rfl (MainLoop.lookup_set.symm.trans hp')
    refine ⟨?_, ?_, ?_, fun n hn => MainLoop.lookup_set_of_ne hn⟩
    · rw [huses]
      exact hlegal
    · intro p' hp'
      rw [huses]
      exact hholds _ p' (hrest hp')
    · intro p' hp'
      have hq := hs.quiet name p hp
      have hclear := hrest hp'
      rw [PortInfo.clear_old_port_config] at hclear
      split_ifs at hclear <;> cases hclear
      · exact hq
      · exact PortInfo.SameSession.quiet (p := p) ⟨rfl, rfl, rfl⟩ hq

lemma step_proper (hs : s.Clean) (hok : s.Kept (e, r)) (h : s.step (e, r) = some s') :
    Use.Legal (Use.holdings s.owner e.name) (s.uses r e).2 ∧ s'.Clean := by
  obtain ⟨loop, hloop, hrest⟩ := Option.bind_eq_some_iff.mp h
  obtain ⟨owner, henter, rfl⟩ := Option.map_eq_some_iff.mp hrest
  obtain ⟨hfresh, hafter, hothers⟩ := Use.enter_spec henter
  have hproper : s.Proper r e loop := by
    cases e with
    | port name ev => exact port_proper hs hok hfresh hloop
    | new_port name c calls => exact new_port_proper hs hok hfresh hloop
    | clear_old name num => exact clear_old_proper hs hloop
  refine ⟨hproper.legal, ?_, ?_⟩
  · intro n p hp
    by_cases hn : n = e.name
    · subst hn
      dsimp only
      rw [Function.update_self, hafter]
      exact hproper.holds p hp
    · dsimp only
      rw [Function.update_of_ne hn, hothers hproper.legal n hn]
      exact hs.holds n p ((hproper.others n hn).symm.trans hp)
  · intro n p hp
    by_cases hn : n = e.name
    · subst hn
      exact hproper.quiet p hp
    · exact hs.quiet n p ((hproper.others n hn).symm.trans hp)

/-- In every run that keeps away from the paths that leave a closed descriptor behind or have none,
each number that a port gives to the selector or to `close` is one that it has opened and that has
not been closed since. -/
theorem descriptors_held (h : Reach step Kept (init k) s) (hok : s.Kept (e, r))
    (hstep : s.step (e, r) = some s') :
    Use.Legal (Use.holdings s.owner e.name) (s.uses r e).2 := by
  have hclean : s.Clean := by
    refine h.induction_on (P := Clean) ⟨?_, ?_⟩ fun s e s' hs hok hstep => ?_
    · intro name p hp
      cases hp
    · intro name p hp
      cases hp
    · obtain ⟨e, r⟩ := e
      exact (step_proper hs hok hstep).2
  exact (step_proper hclean hok hstep).1

/-- One file for both directions, and where it is opened. -/
def traceInput : TraceInput :=
  { files :=
      { trace_write := none
        trace_read := none
        trace_both := some ['t']
        opened_write := none
        opened_read := none
        opened_both := some 6 }
    fails := false
    both_fails := false }

/-- A session with a trace file is ended by a command. -/
theorem descriptors_held_disconnect :
    ∃ s s' : Descriptors ℕ, s.step (.port 2000 .disconnect, traceInput) = some s' ∧
      (s.uses traceInput (.port 2000 .disconnect)).2 =
        [.closes (some 6), .uses (some 5), .uses (some 4), .closes (some 4), .closes (some 5)] ∧
      Use.Legal (Use.holdings s.owner 2000) (s.uses traceInput (.port 2000 .disconnect)).2 := by
  have hrun : ∃ s s' : Descriptors ℕ, Reach step Kept (init .empty) s ∧
      s.Kept (.port 2000 .disconnect, traceInput) ∧
      s.step (.port 2000 .disconnect, traceInput) = some s' ∧
      (s.uses traceInput (.port 2000 .disconnect)).2 =
        [.closes (some 6), .uses (some 5), .uses (some 4), .closes (some 4), .closes (some 5)] := by
    refine ⟨_, _, (Reach.init.step
      (e := (.new_port 2000 (MainLoop.configOf .raw 5) MainLoop.socketCalls, traceInput))
      (fun _ _ => .inr ⟨rfl, rfl, rfl, rfl⟩) rfl).step
      (e := (.port 2000 (.accept_read (some 4) (MainLoop.setupCalls [])), traceInput))
      (fun _ _ => trivial) rfl, ?_, rfl, rfl⟩
    rintro p hp -
    cases hp
    refine ⟨?_, ?_, fun _ => .inr ?_, ?_⟩
    · exact PortState.noConfusion
    · exact fun h => Mode.noConfusion h
    · exact fun h => absurd (Option.some.inj h) (by decide)
    · exact fun _ h => absurd rfl h
  obtain ⟨s, s', hreach, hok, hstep, huses⟩ := hrun
  exact ⟨s, s', hstep, huses, descriptors_held hreach hok hstep⟩

/-- A reload of a port that is off gives the selector the descriptor -1. -/
theorem handlers_of_no_socket :
    ∃ s s' : Descriptors ℕ, replay step (init .empty)
      [(.new_port 2000 (MainLoop.configOf .off 5) MainLoop.socketCalls, traceInput)] = some s ∧
      s.step (.port 2000 (.portconfig (MainLoop.configOf .off 5) MainLoop.socketCalls),
        traceInput) = some s' ∧
      (s.uses traceInput (.port 2000 (.portconfig (MainLoop.configOf .off 5)
        MainLoop.socketCalls))).2 = [.uses none] ∧
      ¬ Use.Legal (Use.holdings s.owner 2000) (s.uses traceInput
        (.port 2000 (.portconfig (MainLoop.configOf .off 5) MainLoop.socketCalls))).2 := by
  have hrun : ∃ s s' : Descriptors ℕ, replay step (init .empty)
      [(.new_port 2000 (MainLoop.configOf .off 5) MainLoop.socketCalls, traceInput)] = some s ∧
      s.step (.port 2000 (.portconfig (MainLoop.configOf .off 5) MainLoop.socketCalls),
        traceInput) = some s' ∧
      (s.uses traceInput (.port 2000 (.portconfig (MainLoop.configOf .off 5)
        MainLoop.socketCalls))).2 = [.uses none] := ⟨_, _, rfl, rfl, rfl⟩
  obtain ⟨s, s', hreplay, hstep, huses⟩ := hrun
  refine ⟨s, s', hreplay, hstep, huses, ?_⟩
  rw [huses]
  rintro ⟨⟨b, -, hb⟩, -⟩
  cases hb

end Descriptors

end EspLinux.Ser2net
