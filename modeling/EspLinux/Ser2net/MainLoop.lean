import Mathlib.Data.List.AList
import EspLinux.Lib.Run
import EspLinux.Ser2net.Port

/-!
# The main loop

The selector calls the handlers of the ports, the timers go off, and commands and reloads of the
configuration come in between.  The ports are in a list that is searched by name; `N` is the type
of the names.
-/

namespace EspLinux.Ser2net

open EspLinux.Lib

namespace PortInfo

/-- `portconfig`, when there is a port of the name: its record is replaced, or it is told to
replace it later. -/
def portconfig (c : Config) (calls : SocketCalls) (p : PortInfo) (k : Kernel) :
    Option (Kernel × PortInfo) :=
  if p.xfer.dev_to_tcp_state = .unconnected then do
    let new_port := { c.port with
      enabled := p.enabled
      acceptfd := p.acceptfd
      started := p.started }
    let k := new_port.setAcceptReadHandler k
    let k := ({ p with enabled := .off, acceptfd := none } : PortInfo).free_port k
    let (k, new_port, _) ← new_port.change_port_state c.enabled calls k
    some (k, new_port)
  else
    let p := if p.new_config.isSome then { p with enabled := .off } else p
    some (k, { p with config_num := some c.config_num, new_config := some c })

end PortInfo

/-- `portconfig`, when there is none: the port is added if it starts up. -/
def Config.start (c : Config) (calls : SocketCalls) (k : Kernel) :
    Option (Kernel × Option PortInfo) :=
  if c.enabled = .off then some (k, some c.port)
  else do
    let (k, p, rv) ← c.port.startup_port calls k
    some (if rv = none then (k, some p) else (p.free_port k, none))

/-- What happens to a port.  The calls of the system return what is given. -/
inductive PortEvent
  | accept_read (accept : Option ℕ) (c : SetupCalls)
  | initial_UDP_read (peek : Bool) (c : SetupCalls) (r : TcpRead)
  | transfer (e : Event)
  | tcp_read (r : TcpRead)
  | dev_write (w : Wrote)
  /-- `handle_dev_fd_except` or `handle_tcp_fd_except` -/
  | except
  | timeout (replies : List UInt8)
  | disconnect
  | setportenable (state : Mode) (calls : SocketCalls)
  | portconfig (c : Config) (calls : SocketCalls)

namespace PortInfo

/-- The selector is waiting for something to read from the accept descriptor, for a handler. -/
def listens (h : ReadHandler) (p : PortInfo) (k : Kernel) : Bool :=
  match p.acceptfd with
  | none => false
  | some fd => decide ((k.fds fd).handle_read = some h) && (k.fds fd).read_set

/-- An event, up to the `shutdown_port` that it may end with.  Handlers that are not enabled are
not called. -/
def handle (inuse : Bool) (p : PortInfo) (k : Kernel) :
    PortEvent → Option (Kernel × PortInfo × Bool)
  | .accept_read accept c =>
    if p.listens .handle_accept_port_read k then do
      let (k, p) ← p.handle_accept_port_read inuse accept c k
      some (k, p, false)
    else some (k, p, false)
  | .initial_UDP_read peek c r =>
    if p.listens .handle_initial_UDP_port_read k then p.handle_initial_UDP_port_read inuse peek c r k
    else some (k, p, false)
  | .transfer e => p.transfer e k
  | .tcp_read r =>
    if p.tcp_to_dev_state = .waiting_input then p.handle_tcp_fd_read r k else some (k, p, false)
  | .dev_write w =>
    if p.tcp_to_dev_state = .waiting_output_clear then some (p.handle_dev_fd_write w k)
    else some (k, p, false)
  | .except => some (k, p, decide (p.tcp_to_dev_state ≠ .unconnected))
  | .timeout replies => if p.timer then some (p.got_timeout replies k) else some (k, p, false)
  | .disconnect => some (k, p, decide (p.tcp_to_dev_state ≠ .unconnected))
  | .setportenable state calls => do
    let (k, p, _) ← p.change_port_state state calls k
    some (k, p, false)
  | .portconfig c calls => do
    let (k, p) ← p.portconfig c calls k
    some (k, p, false)

/-- An event. -/
def step (inuse : Bool) (p : PortInfo) (k : Kernel) (e : PortEvent) :
    Option (Kernel × Option PortInfo) :=
  (p.handle inuse k e).map finish

/-- What `clear_old_port_config` does with a port that is not in the configuration: it goes now,
or when its session ends. -/
def clear_old_port_config (curr_config : ℕ) (p : PortInfo) (k : Kernel) :
    Kernel × Option PortInfo :=
  if p.config_num = some curr_config then (k, some p)
  else if p.xfer.dev_to_tcp_state = .unconnected then (p.free_port k, none)
  else (k, some { p with config_num := none })

end PortInfo

/-- The state of the program: `ports` is the list, searched by name. -/
structure MainLoop (N : Type*) where
  k : Kernel
  ports : AList fun _ : N => PortInfo

/-- What happens in the main loop. -/
inductive LoopEvent (N : Type*)
  /-- An event of a port that exists. -/
  | port (name : N) (e : PortEvent)
  /-- `portconfig` for a port that does not. -/
  | new_port (name : N) (c : Config) (calls : SocketCalls)
  /-- One turn of the loop in `clear_old_port_config`. -/
  | clear_old (name : N) (curr_config : ℕ)

variable {N : Type*} [DecidableEq N]

namespace MainLoop

/-- Put the record of a port into the list, or take it out. -/
def set (s : MainLoop N) (name : N) : Kernel × Option PortInfo → MainLoop N
  | (k, some p) => { k := k, ports := s.ports.insert name p }
  | (k, none) => { k := k, ports := s.ports.erase name }

/-- `is_device_already_inuse` -/
def is_device_already_inuse (s : MainLoop N) (name : N) (p : PortInfo) : Bool :=
  s.ports.entries.any fun q =>
    decide (q.1 ≠ name ∧ q.2.devname = p.devname ∧ q.2.tcp_to_dev_state ≠ .unconnected)

/-- One event. -/
def step (s : MainLoop N) : LoopEvent N → Option (MainLoop N)
  | .port name e =>
    match s.ports.lookup name with
    | none => some s
    | some p => (p.step (s.is_device_already_inuse name p) s.k e).map (s.set name)
  | .new_port name c calls =>
    match s.ports.lookup name with
    | none => (c.start calls s.k).map (s.set name)
    | some _ => some s
  | .clear_old name curr_config =>
    match s.ports.lookup name with
    | none => some s
    | some p => some (s.set name (p.clear_old_port_config curr_config s.k))

/-- The program before the configuration is read. -/
def init (k : Kernel) : MainLoop N := { k := k, ports := ∅ }

/-- The calls of the system that set a session up, with a banner. -/
def setupCalls (banner : List UInt8) : SetupCalls :=
  { setsockopt := true
    hosts_access := true
    fcntl := true
    lock := { dir := true, dead := false, create := true }
    devfd := some 5
    tcsetattr := true
    banner := banner }

/-- The calls of the system that start a port up. -/
def socketCalls : SocketCalls :=
  { socket := some 3, fcntl := true, setsockopt := true, bind := true, listen := true }

/-- A configuration for a port with this mode and this `shortest`. -/
def configOf (m : Mode) (shortest : ℕ) : Config :=
  { enabled := m
    timeout := 0
    devname := []
    dinfo := { shortest := shortest, maxAge := false, disablebreak := false }
    config_num := 1 }

variable {s s' : MainLoop N} {name n : N} {r : Kernel × Option PortInfo}

@[simp] lemma set_k : (s.set name r).k = r.1 := by
  obtain ⟨k, _ | p⟩ := r <;> rfl

@[simp] lemma lookup_set : (s.set name r).ports.lookup name = r.2 := by
  obtain ⟨k, _ | p⟩ := r
  · exact AList.lookup_erase name s.ports
  · exact AList.lookup_insert s.ports

lemma lookup_set_of_ne (h : n ≠ name) : (s.set name r).ports.lookup n = s.ports.lookup n := by
  obtain ⟨k, _ | p⟩ := r
  · exact AList.lookup_erase_ne h
  · exact AList.lookup_insert_ne h

/-- What an event does: nothing, or one port goes on, or a new one is added, or an old one is
cleared. -/
lemma step_cases {e : LoopEvent N} (h : s.step e = some s') :
    s' = s ∨
    (∃ name e' p r, e = .port name e' ∧ s.ports.lookup name = some p ∧
      p.step (s.is_device_already_inuse name p) s.k e' = some r ∧ s' = s.set name r) ∨
    (∃ name c calls r, e = .new_port name c calls ∧ s.ports.lookup name = none ∧
      c.start calls s.k = some r ∧ s' = s.set name r) ∨
    ∃ name n p, e = .clear_old name n ∧ s.ports.lookup name = some p ∧
      s' = s.set name (p.clear_old_port_config n s.k) := by
  cases e with
  | port name e' =>
    simp only [step] at h
    split at h
    · exact .inl (Option.some.inj h).symm
    · rename_i p hp
      obtain ⟨r, hr, hs'⟩ := Option.map_eq_some_iff.mp h
      exact .inr (.inl ⟨name, e', p, r, rfl, hp, hr, hs'.symm⟩)
  | new_port name c calls =>
    simp only [step] at h
    split at h
    · rename_i hp
      obtain ⟨r, hr, hs'⟩ := Option.map_eq_some_iff.mp h
      exact .inr (.inr (.inl ⟨name, c, calls, r, rfl, hp, hr, hs'.symm⟩))
    · exact .inl (Option.some.inj h).symm
  | clear_old name n =>
    simp only [step] at h
    split at h
    · exact .inl (Option.some.inj h).symm
    · rename_i p hp
      exact .inr (.inr (.inr ⟨name, n, p, rfl, hp, (Option.some.inj h).symm⟩))

end MainLoop

end EspLinux.Ser2net
