import EspLinux.Lib.Mutual
import EspLinux.Ser2net.MainLoop
import EspLinux.Ser2net.Session

/-!
# Monitors

A control connection may monitor a port: it then gets what the port transfers.  The record of the
port names the controller in `tcp_monitor` or `dev_monitor`, and the controller holds the address
of the record in `monitor_port_id`.  `data_monitor_start` and `data_monitor_stop` set and clear
both ends.

A reload and the end of a session put another record into the list of the ports, or none, and do
not look at the monitors.  The controller is left with the address of memory that has been freed,
and `data_monitor_stop` writes there.  Besides, `init_port_data` clears `tcp_monitor` and not
`dev_monitor`, and the lines that a controller sends behind an `exit` are processed by a record
that has been freed.

The links are mutual as long as no record that is monitored goes, no record comes whose
`dev_monitor` is set, and no such line starts a monitor: `monitor_links`.
-/

namespace EspLinux.Ser2net

open EspLinux.Lib

/-- What the monitors are about in a `port_info_t`, and its address. -/
structure Record where
  addr : ℕ
  tcp_monitor : Option ℕ
  dev_monitor : Option ℕ
deriving DecidableEq, Repr

namespace Record

/-- The monitors after `init_port_data` of what `malloc` has returned. -/
def init_port_data (port : Record) : Record := { port with tcp_monitor := none }

/-- Both fields are set to `NULL`. -/
def clear (port : Record) : Record := { port with tcp_monitor := none, dev_monitor := none }

/-- The record names the controller. -/
def Monitors (r : Record) (cntlr : ℕ) : Prop :=
  r.tcp_monitor = some cntlr ∨ r.dev_monitor = some cntlr

/-- The record names no controller. -/
def Unmonitored (r : Record) : Prop := r.tcp_monitor = none ∧ r.dev_monitor = none

instance (r : Record) : Decidable r.Unmonitored := inferInstanceAs (Decidable (_ ∧ _))

end Record

/-- What becomes of the record of a port. -/
inductive Fate
  | stays
  | replaced (r : Record)
  | freed

namespace PortInfo

/-- `portconfig` replaces the record of a port that is not connected, and `shutdown_port` frees it
or replaces it by `new_config`. -/
def fate (p : PortInfo) (malloc new_config : Record) (x : Kernel × PortInfo × Bool) :
    PortEvent → Fate
  | .portconfig _ _ =>
    if p.xfer.dev_to_tcp_state = .unconnected then .replaced malloc.init_port_data else .stays
  | _ =>
    if x.2.2 then
      match x.2.1.config_num, x.2.1.new_config with
      | none, _ => .freed
      | some _, none => .stays
      | some _, some _ => .replaced new_config
    else .stays

/-- The record that `new_config` points to after the event, if it points anywhere. -/
def new_record (malloc new_config : Record) : PortEvent → Record
  | .portconfig _ _ => malloc.init_port_data
  | _ => new_config

/-- The event allocates a record. -/
def mallocs : PortEvent → Bool
  | .portconfig _ _ => true
  | _ => false

end PortInfo

/-- The ports and the control connections.  The fields of the records of the ports are those of the
ports in the list, and those of their `new_config`.  The memory of a controller that has been freed
keeps its `monitor_port_id`. -/
structure Program (N : Type*) where
  loop : MainLoop N
  record : N → Record
  new_config : N → Record
  controllers : List ℕ
  monitor_port_id : ℕ → Option ℕ

/-- What happens in the program. -/
inductive ProgramEvent (N : Type*)
  /-- An event of the ports.  When it allocates a record, `malloc` is what `malloc` returns. -/
  | loop (e : LoopEvent N) (malloc : Record)
  /-- A control connection, for which `malloc` returns `cntlr`. -/
  | accept (cntlr : ℕ)
  /-- The command `monitor` with a type and a port. -/
  | monitor (cntlr : ℕ) (type : String) (name : N)
  /-- The command `monitor stop`. -/
  | monitor_stop (cntlr : ℕ)
  /-- `exit` or `quit`, or the connection is closed or fails. -/
  | shutdown (cntlr : ℕ)

/-- How many control connections there are at a time. -/
def max_controller_ports : ℕ := 4

variable {N : Type*} [DecidableEq N]

namespace Program

/-- The program before the configuration is read. -/
def init (k : Kernel) : Program N :=
  { loop := .init k
    record := fun _ => { addr := 0, tcp_monitor := none, dev_monitor := none }
    new_config := fun _ => { addr := 0, tcp_monitor := none, dev_monitor := none }
    controllers := []
    monitor_port_id := fun _ => none }

/-- There is a record at the address. -/
def allocated (s : Program N) (a : ℕ) : Bool :=
  s.loop.ports.entries.any fun q =>
    decide ((s.record q.1).addr = a ∨ q.2.new_config ≠ none ∧ (s.new_config q.1).addr = a)

/-- An event of the ports.  `malloc` does not return the address of a record that is in use. -/
def loop_step (s : Program N) (malloc : Record) : LoopEvent N → Option (Program N)
  | .port name e =>
    match s.loop.ports.lookup name with
    | none => some s
    | some p =>
      if PortInfo.mallocs e && s.allocated malloc.addr then none
      else
        (p.handle (s.loop.is_device_already_inuse name p) s.loop.k e).map fun x => { s with
          loop := s.loop.set name (PortInfo.finish x)
          record := Function.update s.record name <|
            match p.fate malloc (s.new_config name) x e with
            | .replaced r => r
            | _ => s.record name
          new_config := Function.update s.new_config name
            (PortInfo.new_record malloc (s.new_config name) e) }
  | .new_port name c calls =>
    match s.loop.ports.lookup name with
    | some _ => some s
    | none =>
      if s.allocated malloc.addr then none
      else
        (s.loop.step (.new_port name c calls)).map fun loop => { s with
          loop := loop
          record := Function.update s.record name malloc.init_port_data }
  | .clear_old name n => (s.loop.step (.clear_old name n)).map fun loop => { s with loop := loop }

/-- `data_monitor_start`, with the address that it returns, where `none` is `NULL`. -/
def data_monitor_start (s : Program N) (cntlr : ℕ) (type : String) (name : N) :
    Program N × Option ℕ :=
  match s.loop.ports.lookup name with
  | none => (s, none)
  | some _ =>
    let port := s.record name
    if port.tcp_monitor ≠ none ∨ port.dev_monitor ≠ none then (s, none)
    else if type = "tcp" then
      ({ s with record := Function.update s.record name { port with tcp_monitor := some cntlr } },
        some port.addr)
    else if type = "term" then
      ({ s with record := Function.update s.record name { port with dev_monitor := some cntlr } },
        some port.addr)
    else (s, none)

/-- `data_monitor_stop`.  It writes at the address, whatever is there. -/
def data_monitor_stop (s : Program N) (monitor_id : ℕ) : Program N :=
  let write (port : Record) : Record := if port.addr = monitor_id then port.clear else port
  { s with
    record := fun name => write (s.record name)
    new_config := fun name => write (s.new_config name) }

/-- Set `monitor_port_id` of a controller. -/
def set_monitor_port_id (s : Program N) (cntlr : ℕ) (id : Option ℕ) : Program N :=
  { s with monitor_port_id := Function.update s.monitor_port_id cntlr id }

/-- What `monitor stop` and `shutdown_controller` do with the monitor. -/
def stop_monitor (s : Program N) (cntlr : ℕ) : Program N :=
  match s.monitor_port_id cntlr with
  | none => s
  | some id => (s.data_monitor_stop id).set_monitor_port_id cntlr none

/-- One event.  A controller that is shut down twice is freed twice, and the program ends. -/
def step (s : Program N) : ProgramEvent N → Option (Program N)
  | .loop e malloc => s.loop_step malloc e
  | .accept cntlr =>
    if s.controllers.length ≥ max_controller_ports then some s
    else if cntlr ∈ s.controllers then none
    else
      some { s.set_monitor_port_id cntlr none with controllers := cntlr :: s.controllers }
  | .monitor cntlr type name =>
    if s.monitor_port_id cntlr ≠ none then some s
    else
      let (s, id) := s.data_monitor_start cntlr type name
      some (s.set_monitor_port_id cntlr id)
  | .monitor_stop cntlr => some (s.stop_monitor cntlr)
  | .shutdown cntlr =>
    if cntlr ∈ s.controllers then
      let s := s.stop_monitor cntlr
      some { s with controllers := s.controllers.erase cntlr }
    else none

/-- Each port names live controllers that hold its address, and one at most, and each live
controller holds nothing or the address of a port that names it. -/
structure MutualLinks (s : Program N) : Prop where
  ports : ∀ name p c, s.loop.ports.lookup name = some p → (s.record name).Monitors c →
    c ∈ s.controllers ∧ s.monitor_port_id c = some (s.record name).addr
  one : ∀ name p, s.loop.ports.lookup name = some p →
    (s.record name).tcp_monitor = none ∨ (s.record name).dev_monitor = none
  controllers : ∀ c a, c ∈ s.controllers → s.monitor_port_id c = some a →
    ∃ name p, s.loop.ports.lookup name = some p ∧ (s.record name).addr = a ∧
      (s.record name).Monitors c

/-- `shutdown_port` is called. -/
def Ends (s : Program N) (name : N) (p : PortInfo) (e : PortEvent) : Prop :=
  ∃ k q, p.handle (s.loop.is_device_already_inuse name p) s.loop.k e = some (k, q, true)

/-- What keeps the links: a record that goes is not monitored, a record that comes has `NULL` in
both fields, and a controller that has been freed starts no monitor. -/
def Kept (s : Program N) : ProgramEvent N → Prop
  | .loop (.port name (.portconfig _ _)) malloc =>
    ∀ p, s.loop.ports.lookup name = some p → p.xfer.dev_to_tcp_state = .unconnected →
      (s.record name).Unmonitored ∧ malloc.dev_monitor = none
  | .loop (.port name e) _ =>
    ∀ p, s.loop.ports.lookup name = some p → s.Ends name p e →
      (p.config_num = none → (s.record name).Unmonitored) ∧
      (p.config_num ≠ none → p.new_config ≠ none →
        (s.record name).Unmonitored ∧ (s.new_config name).Unmonitored)
  | .loop (.new_port name c calls) malloc =>
    s.loop.ports.lookup name = none → (∃ k p, c.start calls s.loop.k = some (k, some p)) →
      malloc.dev_monitor = none
  | .loop (.clear_old name n) _ =>
    ∀ p, s.loop.ports.lookup name = some p → p.config_num ≠ some n →
      p.xfer.dev_to_tcp_state = .unconnected → (s.record name).Unmonitored
  | .monitor cntlr type name =>
    cntlr ∈ s.controllers ∨ s.monitor_port_id cntlr ≠ none ∨ s.loop.ports.lookup name = none ∨
      ¬ (s.record name).Unmonitored ∨ type ≠ "tcp" ∧ type ≠ "term"
  | _ => True

end Program

/-! ## What becomes of a port -/

namespace PortInfo

variable {p p' : PortInfo} {k k' : Kernel} {inuse shut : Bool} {e : PortEvent}

/-- What is done when the session ends. -/
structure SameConfig (p p' : PortInfo) : Prop where
  config_num : p'.config_num = p.config_num
  new_config : p'.new_config = p.new_config

lemma SameConfig.refl : SameConfig p p := ⟨rfl, rfl⟩

lemma SameConfig.trans {q : PortInfo} (h : SameConfig p p') (h' : SameConfig p' q) :
    SameConfig p q := ⟨h'.config_num.trans h.config_num, h'.new_config.trans h.new_config⟩

lemma startup_port_config {calls : SocketCalls} {rv : Option String}
    (h : p.startup_port calls k = some (k', p', rv)) : SameConfig p p' := by
  simp only [startup_port] at h
  split at h
  · cases h
    exact ⟨rfl, rfl⟩
  · obtain ⟨k₁, -, hopened⟩ := Option.bind_eq_some_iff.mp h
    split_ifs at hopened <;> cases hopened <;> exact ⟨rfl, rfl⟩

lemma change_port_state_config {state : Mode} {calls : SocketCalls} {rv : Option String}
    (h : p.change_port_state state calls k = some (k', p', rv)) : SameConfig p p' := by
  simp only [change_port_state] at h
  split_ifs at h
  · cases h
    exact .refl
  · cases h
    exact ⟨rfl, rfl⟩
  · obtain ⟨⟨k₁, p₁, rv₁⟩, hstart, hrest⟩ := Option.bind_eq_some_iff.mp h
    cases hrest
    exact (startup_port_config hstart).trans ⟨rfl, rfl⟩
  · cases h
    exact ⟨rfl, rfl⟩

lemma setup_net_port2_config {c : SetupCalls} {ok : Bool}
    (h : p.setup_net_port2 c k = some (k', p', ok)) : SameConfig p p' := by
  simp only [setup_net_port2] at h
  split at h
  · cases h
    exact .refl
  · split at h
    · cases h
      exact .refl
    · split at h
      · cases h
        exact ⟨rfl, rfl⟩
      · obtain ⟨k₁, -, hopened⟩ := Option.bind_eq_some_iff.mp h
        split at hopened <;> cases hopened <;> exact ⟨rfl, rfl⟩

lemma handle_accept_port_read_config {c : SetupCalls} {accept : Option ℕ}
    (h : p.handle_accept_port_read inuse accept c k = some (k', p')) : SameConfig p p' := by
  simp only [handle_accept_port_read] at h
  split at h
  · cases h
    exact .refl
  split at h
  · cases h
    exact ⟨rfl, rfl⟩
  · rename_i fd
    obtain ⟨k₁, -, h⟩ := Option.bind_eq_some_iff.mp h
    obtain ⟨⟨k₂, p₂, ok⟩, hsetup, h⟩ := Option.bind_eq_some_iff.mp h
    cases h
    simp only [setup_tcp_port] at hsetup
    split_ifs at hsetup
    · cases hsetup
      exact ⟨rfl, rfl⟩
    · cases hsetup
      exact ⟨rfl, rfl⟩
    · obtain ⟨hnum, hnew⟩ := setup_net_port2_config hsetup
      exact ⟨hnum, hnew⟩

lemma handle_initial_UDP_port_read_config {c : SetupCalls} {peek : Bool} {r : TcpRead}
    (h : p.handle_initial_UDP_port_read inuse peek c r k = some (k', p', shut)) :
    SameConfig p p' := by
  simp only [handle_initial_UDP_port_read] at h
  split at h
  · cases h
    exact .refl
  split at h
  · cases h
    exact .refl
  obtain ⟨⟨k₁, p₁, ok⟩, hsetup, h⟩ := Option.bind_eq_some_iff.mp h
  obtain ⟨hnum, hnew⟩ := setup_net_port2_config hsetup
  simp only at h
  split at h
  · obtain ⟨hsame, -⟩ := handle_tcp_fd_read_sameEnds h
    exact ⟨hsame.config_num.trans hnum, hsame.new_config.trans hnew⟩
  · cases h
    exact ⟨hnum, hnew⟩

/-- No event but a reload changes what is done when the session ends. -/
lemma handle_config (he : mallocs e = false) (h : p.handle inuse k e = some (k', p', shut)) :
    SameConfig p p' := by
  cases hio : e.io with
  | true =>
    obtain ⟨hsame, -⟩ := handle_sameEnds hio h
    exact ⟨hsame.config_num, hsame.new_config⟩
  | false =>
    have hstays (h : some (k, p, false) = some (k', p', shut)) : SameConfig p p' := by
      cases h
      exact .refl
    cases e with
    | accept_read accept c =>
      simp only [handle] at h
      split at h
      · obtain ⟨⟨k₁, p₁⟩, haccept, hrest⟩ := Option.bind_eq_some_iff.mp h
        cases hrest
        exact handle_accept_port_read_config haccept
      · exact hstays h
    | initial_UDP_read peek c r =>
      simp only [handle] at h
      split at h
      · exact handle_initial_UDP_port_read_config h
      · exact hstays h
    | setportenable state calls =>
      obtain ⟨⟨k₁, p₁, rv⟩, hstate, hrest⟩ := Option.bind_eq_some_iff.mp h
      cases hrest
      exact change_port_state_config hstate
    | portconfig c calls => cases he
    | _ => cases hio

/-- What a reload leaves in `new_config`. -/
lemma handle_portconfig_new_config {c : Config} {calls : SocketCalls}
    (h : p.handle inuse k (.portconfig c calls) = some (k', p', shut)) :
    shut = false ∧ (p.xfer.dev_to_tcp_state = .unconnected → p'.new_config = none) := by
  obtain ⟨⟨k₁, p₁⟩, hconfig, hrest⟩ := Option.bind_eq_some_iff.mp h
  cases hrest
  refine ⟨rfl, fun hidle => ?_⟩
  simp only [portconfig, if_pos hidle] at hconfig
  obtain ⟨⟨k₂, p₂, rv⟩, hstate, hrest⟩ := Option.bind_eq_some_iff.mp hconfig
  cases hrest
  exact (change_port_state_config hstate).new_config

/-- A port that starts has nothing to replace it. -/
lemma start_new_config {c : Config} {calls : SocketCalls} (h : c.start calls k = some (k', some p')) :
    p'.new_config = none := by
  simp only [Config.start] at h
  split at h
  · cases h
    rfl
  · obtain ⟨⟨k₁, p₁, rv⟩, hstart, hrest⟩ := Option.bind_eq_some_iff.mp h
    simp only at hrest
    split at hrest
    · cases hrest
      exact (startup_port_config hstart).new_config
    · cases hrest

lemma shutdown_port_deleted (h : p.config_num = none) : (p.shutdown_port k).2 = none := by
  simp only [shutdown_port, h]

/-- After the end of a session there is nothing left to replace the port. -/
lemma shutdown_port_new_config (h : p.config_num ≠ none) :
    ∃ q, (p.shutdown_port k).2 = some q ∧ q.new_config = none := by
  obtain ⟨n, hn⟩ := Option.ne_none_iff_exists'.mp h
  cases hc : p.new_config with
  | none =>
    refine ⟨_, by simp only [shutdown_port, hn, hc]; rfl, ?_⟩
    rfl
  | some c =>
    refine ⟨_, by simp only [shutdown_port, hn, hc]; rfl, ?_⟩
    rfl

end PortInfo

/-! ## The records in the list -/

namespace PortInfo

variable {p : PortInfo} {malloc new_config : Record} {x : Kernel × PortInfo × Bool} {e : PortEvent}

lemma new_record_of_not_mallocs (he : mallocs e = false) :
    new_record malloc new_config e = new_config := by
  cases e with
  | portconfig c calls => cases he
  | _ => rfl

lemma fate_of_not_mallocs (he : mallocs e = false) :
    p.fate malloc new_config x e =
      if x.2.2 then
        match x.2.1.config_num, x.2.1.new_config with
        | none, _ => .freed
        | some _, none => .stays
        | some _, some _ => .replaced new_config
      else .stays := by
  cases e with
  | portconfig c calls => cases he
  | _ => rfl

/-- An event that does not end a session leaves the record. -/
lemma fate_stays (he : mallocs e = false) (hshut : x.2.2 = false) :
    p.fate malloc new_config x e = .stays := by
  rw [fate_of_not_mallocs he, hshut]
  rfl

lemma fate_reopened (he : mallocs e = false) (hshut : x.2.2 = true)
    (hnum : x.2.1.config_num ≠ none) (hnew : x.2.1.new_config = none) :
    p.fate malloc new_config x e = .stays := by
  obtain ⟨n, hn⟩ := Option.ne_none_iff_exists'.mp hnum
  rw [fate_of_not_mallocs he, hshut, hn, hnew]
  rfl

lemma fate_replaced (he : mallocs e = false) (hshut : x.2.2 = true)
    (hnum : x.2.1.config_num ≠ none) (hnew : x.2.1.new_config ≠ none) :
    p.fate malloc new_config x e = .replaced new_config := by
  obtain ⟨n, hn⟩ := Option.ne_none_iff_exists'.mp hnum
  obtain ⟨c, hc⟩ := Option.ne_none_iff_exists'.mp hnew
  rw [fate_of_not_mallocs he, hshut, hn, hc]
  rfl

end PortInfo

namespace Program

variable {s s' : Program N} {name n : N} {a c : ℕ} {malloc r : Record} {e : LoopEvent N}

/-- The records in the list of the ports. -/
def listed (s : Program N) (name : N) : Option Record :=
  (s.loop.ports.lookup name).map fun _ => s.record name

/-- What the live controllers hold. -/
def held (s : Program N) (c : ℕ) : Option (Option ℕ) :=
  if c ∈ s.controllers then some (s.monitor_port_id c) else none

/-- The address belongs to the port. -/
def Owns (s : Program N) (name : N) (a : ℕ) : Prop :=
  ∃ p, s.loop.ports.lookup name = some p ∧
    ((s.record name).addr = a ∨ p.new_config ≠ none ∧ (s.new_config name).addr = a)

/-- Different records have different addresses. -/
structure Placed (s : Program N) : Prop where
  apart : ∀ name n a, s.Owns name a → s.Owns n a → name = n
  waiting : ∀ name p, s.loop.ports.lookup name = some p → p.new_config ≠ none →
    (s.new_config name).addr ≠ (s.record name).addr

lemma listed_eq_some : s.listed name = some r ↔
    ∃ p, s.loop.ports.lookup name = some p ∧ s.record name = r := Option.map_eq_some_iff

omit [DecidableEq N] in
lemma held_eq_some {o : Option ℕ} : s.held c = some o ↔
    c ∈ s.controllers ∧ s.monitor_port_id c = o := by
  simp only [held]
  split_ifs with hc
  · simp [hc]
  · simp [hc]

/-- The links, as ends that point at each other. -/
lemma mutualLinks_iff : s.MutualLinks ↔ Mutual Record.addr Record.Monitors s.listed s.held ∧
    ∀ name r, s.listed name = some r → r.tcp_monitor = none ∨ r.dev_monitor = none := by
  constructor
  · intro h
    refine ⟨⟨?_, ?_⟩, ?_⟩
    · rintro name r c hr hc
      obtain ⟨p, hp, rfl⟩ := listed_eq_some.mp hr
      exact held_eq_some.mpr (h.ports name p c hp hc)
    · rintro c a hc
      obtain ⟨hlive, hid⟩ := held_eq_some.mp hc
      obtain ⟨name, p, hp, haddr, hmon⟩ := h.controllers c a hlive hid
      exact ⟨name, _, listed_eq_some.mpr ⟨p, hp, rfl⟩, haddr, hmon⟩
    · rintro name r hr
      obtain ⟨p, hp, rfl⟩ := listed_eq_some.mp hr
      exact h.one name p hp
  · rintro ⟨h, hone⟩
    refine ⟨?_, ?_, ?_⟩
    · intro name p c hp hc
      exact held_eq_some.mp (h.forth name _ c (listed_eq_some.mpr ⟨p, hp, rfl⟩) hc)
    · intro name p hp
      exact hone name _ (listed_eq_some.mpr ⟨p, hp, rfl⟩)
    · intro c a hlive hid
      obtain ⟨name, r, hr, haddr, hmon⟩ := h.back c a (held_eq_some.mpr ⟨hlive, hid⟩)
      obtain ⟨p, hp, rfl⟩ := listed_eq_some.mp hr
      exact ⟨name, p, hp, haddr, hmon⟩

lemma not_owns_of_not_allocated (h : s.allocated a = false) : ¬ s.Owns name a := by
  rintro ⟨p, hp, hown⟩
  simp only [allocated, List.any_eq_false, decide_eq_true_eq] at h
  exact h ⟨name, p⟩ (AList.mem_lookup_iff.mp hp) hown

lemma listed_owns (h : s.listed name = some r) : s.Owns name r.addr := by
  obtain ⟨p, hp, rfl⟩ := listed_eq_some.mp h
  exact ⟨p, hp, .inl rfl⟩

/-- Nothing changes but at one name. -/
structure Elsewhere (s s' : Program N) (name : N) : Prop where
  lookup : ∀ n, n ≠ name → s'.loop.ports.lookup n = s.loop.ports.lookup n
  record : ∀ n, n ≠ name → s'.record n = s.record n
  new_config : ∀ n, n ≠ name → s'.new_config n = s.new_config n
  controllers : s'.controllers = s.controllers
  monitor_port_id : s'.monitor_port_id = s.monitor_port_id

/-- What an event does with the record of a name, and when that is `kept`. -/
inductive Change (s s' : Program N) (name : N) (malloc : Record) (kept : Prop) : Prop
  | stays (p q : PortInfo) (hp : s.loop.ports.lookup name = some p)
      (hq : s'.loop.ports.lookup name = some q) (hrecord : s'.record name = s.record name)
      (hnew : q.new_config ≠ none →
        p.new_config ≠ none ∧ s'.new_config name = s.new_config name ∨
        s'.new_config name = malloc.init_port_data ∧ s.allocated malloc.addr = false)
      (hkept : kept)
  | replaced (q : PortInfo) (hq : s'.loop.ports.lookup name = some q) (hnew : q.new_config = none)
      (hrecord : s'.record name = malloc.init_port_data ∧ s.allocated malloc.addr = false ∨
        ∃ p, s.loop.ports.lookup name = some p ∧ p.new_config ≠ none ∧
          s'.record name = s.new_config name)
      (hkept : kept ↔ (∀ r, s.listed name = some r → r.Unmonitored) ∧ (s'.record name).Unmonitored)
  | freed (hq : s'.loop.ports.lookup name = none)
      (hkept : kept ↔ ∀ r, s.listed name = some r → r.Unmonitored)

lemma Elsewhere.refl : Elsewhere s s name :=
  ⟨fun _ _ => rfl, fun _ _ => rfl, fun _ _ => rfl, rfl, rfl⟩

lemma listed_none (h : s.loop.ports.lookup name = none) : s.listed name = none := by
  rw [listed, h, Option.map_none]

lemma forall_listed_iff {p : PortInfo} (hp : s.loop.ports.lookup name = some p) :
    (∀ r, s.listed name = some r → r.Unmonitored) ↔ (s.record name).Unmonitored := by
  simp [listed, hp]

lemma init_port_data_unmonitored : malloc.init_port_data.Unmonitored ↔ malloc.dev_monitor = none :=
  ⟨fun h => h.2, fun h => ⟨rfl, h⟩⟩

/-- An event of a port that exists, unless it is a reload. -/
lemma port_change {e : PortEvent} {p : PortInfo} (hp : s.loop.ports.lookup name = some p)
    (he : PortInfo.mallocs e = false) (h : s.loop_step malloc (.port name e) = some s') :
    Elsewhere s s' name ∧ Change s s' name malloc (s.Kept (.loop (.port name e) malloc)) := by
  have hkept : s.Kept (.loop (.port name e) malloc) ↔
      (s.Ends name p e →
      (p.config_num = none → (s.record name).Unmonitored) ∧
      (p.config_num ≠ none → p.new_config ≠ none →
        (s.record name).Unmonitored ∧ (s.new_config name).Unmonitored)) := by
    have hdef : s.Kept (.loop (.port name e) malloc) ↔
        ∀ p, s.loop.ports.lookup name = some p → s.Ends name p e →
          (p.config_num = none → (s.record name).Unmonitored) ∧
          (p.config_num ≠ none → p.new_config ≠ none →
            (s.record name).Unmonitored ∧ (s.new_config name).Unmonitored) := by
      cases e with
      | portconfig c calls => cases he
      | _ => rfl
    rw [hdef]
    constructor
    · intro h
      exact h p hp
    · intro h p' hp'
      cases hp.symm.trans hp'
      exact h
  simp only [loop_step, hp, he, Bool.false_and, Bool.false_eq_true, if_false] at h
  obtain ⟨⟨k, q, shut⟩, hhandle, rfl⟩ := Option.map_eq_some_iff.mp h
  obtain ⟨hnum, hnew⟩ := PortInfo.handle_config he hhandle
  refine ⟨⟨fun n hn => MainLoop.lookup_set_of_ne hn, fun n hn => Function.update_of_ne hn _ _,
    fun n hn => Function.update_of_ne hn _ _, rfl, rfl⟩, ?_⟩
  cases shut with
  | false =>
    -- the session goes on
    refine .stays p q hp MainLoop.lookup_set ?_ (fun hq => .inl ⟨hnew ▸ hq, ?_⟩) (hkept.mpr ?_)
    · dsimp only
      rw [Function.update_self, PortInfo.fate_stays he rfl]
    · dsimp only
      rw [Function.update_self, PortInfo.new_record_of_not_mallocs he]
    · rintro ⟨k', q', hends⟩
      cases hhandle.symm.trans hends
  | true =>
    have hends : s.Ends name p e := ⟨k, q, hhandle⟩
    by_cases hdel : p.config_num = none
    · refine .freed ?_ ?_
      · exact MainLoop.lookup_set.trans (PortInfo.shutdown_port_deleted (hnum.trans hdel))
      · rw [hkept, forall_listed_iff hp]
        exact ⟨fun h => (h hends).1 hdel, fun h _ => ⟨fun _ => h, fun hn => absurd hdel hn⟩⟩
    · obtain ⟨q', hq', hnone⟩ := PortInfo.shutdown_port_new_config (k := k) (hnum ▸ hdel)
      by_cases hwait : p.new_config = none
      · refine .stays p q' hp (MainLoop.lookup_set.trans hq') ?_ (fun hq => absurd hnone hq)
          (hkept.mpr fun _ => ⟨fun h => absurd h hdel, fun _ h => absurd hwait h⟩)
        dsimp only
        rw [Function.update_self, PortInfo.fate_reopened he rfl (hnum ▸ hdel) (hnew.trans hwait)]
      · have hrecord : Function.update s.record name
            (match p.fate malloc (s.new_config name) (k, q, true) e with
              | .replaced r => r
              | _ => s.record name) name = s.new_config name := by
          rw [Function.update_self, PortInfo.fate_replaced he rfl (hnum ▸ hdel) (hnew ▸ hwait)]
        refine .replaced q' (MainLoop.lookup_set.trans hq') hnone (.inr ⟨p, hp, hwait, hrecord⟩) ?_
        rw [hkept, forall_listed_iff hp]
        dsimp only
        rw [hrecord]
        exact ⟨fun h => (h hends).2 hdel hwait, fun h _ => ⟨fun h' => absurd h' hdel, fun _ _ => h⟩⟩

/-- A reload of a port that exists. -/
lemma portconfig_change {conf : Config} {calls : SocketCalls} {p : PortInfo}
    (hp : s.loop.ports.lookup name = some p)
    (h : s.loop_step malloc (.port name (.portconfig conf calls)) = some s') :
    Elsewhere s s' name ∧
      Change s s' name malloc (s.Kept (.loop (.port name (.portconfig conf calls)) malloc)) := by
  have hkept : s.Kept (.loop (.port name (.portconfig conf calls)) malloc) ↔
      (p.xfer.dev_to_tcp_state = .unconnected →
        (s.record name).Unmonitored ∧ malloc.dev_monitor = none) := by
    constructor
    · intro h
      exact h p hp
    · intro h p' hp'
      cases hp.symm.trans hp'
      exact h
  simp only [loop_step, hp, PortInfo.mallocs, Bool.true_and] at h
  split at h
  · cases h
  rename_i hfresh
  rw [Bool.not_eq_true] at hfresh
  obtain ⟨⟨k, q, shut⟩, hhandle, rfl⟩ := Option.map_eq_some_iff.mp h
  obtain ⟨rfl, hnew⟩ := PortInfo.handle_portconfig_new_config hhandle
  refine ⟨⟨fun n hn => MainLoop.lookup_set_of_ne hn, fun n hn => Function.update_of_ne hn _ _,
    fun n hn => Function.update_of_ne hn _ _, rfl, rfl⟩, ?_⟩
  by_cases hidle : p.xfer.dev_to_tcp_state = .unconnected
  · refine .replaced q MainLoop.lookup_set (hnew hidle) (.inl ⟨?_, hfresh⟩) ?_
    · dsimp only
      rw [Function.update_self, PortInfo.fate, if_pos hidle]
    · rw [hkept, forall_listed_iff hp]
      dsimp only
      rw [Function.update_self, PortInfo.fate, if_pos hidle]
      dsimp only
      rw [init_port_data_unmonitored]
      exact ⟨fun h => h hidle, fun h _ => h⟩
  · refine .stays p q hp MainLoop.lookup_set ?_ (fun _ => .inr ⟨?_, hfresh⟩)
      (hkept.mpr fun h => absurd h hidle)
    · dsimp only
      rw [Function.update_self, PortInfo.fate, if_neg hidle]
    · exact Function.update_self ..

/-- A configuration for a port that does not exist. -/
lemma new_port_change {conf : Config} {calls : SocketCalls}
    (hp : s.loop.ports.lookup name = none)
    (h : s.loop_step malloc (.new_port name conf calls) = some s') :
    Elsewhere s s' name ∧
      Change s s' name malloc (s.Kept (.loop (.new_port name conf calls) malloc)) := by
  have hkept : s.Kept (.loop (.new_port name conf calls) malloc) ↔
      ((∃ k p, conf.start calls s.loop.k = some (k, some p)) → malloc.dev_monitor = none) :=
    ⟨fun h => h hp, fun h _ => h⟩
  simp only [loop_step, hp] at h
  split at h
  · cases h
  rename_i hfresh
  rw [Bool.not_eq_true] at hfresh
  obtain ⟨loop, hloop, rfl⟩ := Option.map_eq_some_iff.mp h
  simp only [MainLoop.step, hp] at hloop
  obtain ⟨⟨k, q⟩, hstart, rfl⟩ := Option.map_eq_some_iff.mp hloop
  refine ⟨⟨fun n hn => MainLoop.lookup_set_of_ne hn, fun n hn => Function.update_of_ne hn _ _,
    fun n _ => rfl, rfl, rfl⟩, ?_⟩
  cases q with
  | none =>
    refine .freed MainLoop.lookup_set ?_
    rw [hkept, listed_none hp]
    constructor
    · intro _ r hr
      cases hr
    · rintro - ⟨k', q', hstart'⟩
      cases hstart.symm.trans hstart'
  | some q =>
    refine .replaced q MainLoop.lookup_set (PortInfo.start_new_config hstart)
      (.inl ⟨Function.update_self .., hfresh⟩) ?_
    rw [hkept, listed_none hp]
    dsimp only
    rw [Function.update_self, init_port_data_unmonitored]
    constructor
    · intro h
      refine ⟨?_, h ⟨k, q, hstart⟩⟩
      intro r hr
      cases hr
    · intro h _
      exact h.2

/-- A port that is not in the configuration any more. -/
lemma clear_old_change {num : ℕ} {p : PortInfo} (hp : s.loop.ports.lookup name = some p)
    (h : s.loop_step malloc (.clear_old name num) = some s') :
    Elsewhere s s' name ∧ Change s s' name malloc (s.Kept (.loop (.clear_old name num) malloc)) := by
  have hkept : s.Kept (.loop (.clear_old name num) malloc) ↔
      (p.config_num ≠ some num → p.xfer.dev_to_tcp_state = .unconnected →
        (s.record name).Unmonitored) := by
    constructor
    · intro h
      exact h p hp
    · intro h p' hp'
      cases hp.symm.trans hp'
      exact h
  simp only [loop_step, MainLoop.step, hp, Option.map_some, Option.some.injEq] at h
  subst h
  refine ⟨⟨fun n hn => MainLoop.lookup_set_of_ne hn, fun n _ => rfl, fun n _ => rfl, rfl, rfl⟩, ?_⟩
  by_cases hnum : p.config_num = some num
  · refine .stays p p hp ?_ rfl (fun hq => .inl ⟨hq, rfl⟩) (hkept.mpr fun h => absurd hnum h)
    dsimp only
    rw [MainLoop.lookup_set, PortInfo.clear_old_port_config, if_pos hnum]
  · by_cases hidle : p.xfer.dev_to_tcp_state = .unconnected
    · refine .freed ?_ ?_
      · dsimp only
        rw [MainLoop.lookup_set, PortInfo.clear_old_port_config, if_neg hnum, if_pos hidle]
      · rw [hkept, forall_listed_iff hp]
        exact ⟨fun h => h hnum hidle, fun h _ _ => h⟩
    · refine .stays p { p with config_num := none } hp ?_ rfl (fun hq => .inl ⟨hq, rfl⟩)
        (hkept.mpr fun _ h => absurd h hidle)
      dsimp only
      rw [MainLoop.lookup_set, PortInfo.clear_old_port_config, if_neg hnum, if_neg hidle]

/-- The monitors do not change what happens to the ports. -/
theorem loop_step_loop (h : s.loop_step malloc e = some s') : s.loop.step e = some s'.loop := by
  cases e with
  | port name e =>
    simp only [loop_step] at h
    split at h
    · rename_i hp
      cases h
      simp only [MainLoop.step, hp]
    · rename_i p hp
      split at h
      · cases h
      · obtain ⟨x, hhandle, rfl⟩ := Option.map_eq_some_iff.mp h
        simp only [MainLoop.step, hp, PortInfo.step, hhandle, Option.map_some]
  | new_port name conf calls =>
    simp only [loop_step] at h
    split at h
    · rename_i p hp
      cases h
      simp only [MainLoop.step, hp]
    · split at h
      · cases h
      · obtain ⟨loop, hloop, rfl⟩ := Option.map_eq_some_iff.mp h
        exact hloop
  | clear_old name num =>
    obtain ⟨loop, hloop, rfl⟩ := Option.map_eq_some_iff.mp h
    exact hloop

/-- What an event of the ports does with the records. -/
lemma loop_step_change (h : s.loop_step malloc e = some s') :
    ∃ name, Elsewhere s s' name ∧ Change s s' name malloc (s.Kept (.loop e malloc)) := by
  -- no port of the name: nothing happens
  have hnone (name : N) (hp : s.loop.ports.lookup name = none)
      (hkept : s.Kept (.loop e malloc)) (h : some s = some s') :
      ∃ name, Elsewhere s s' name ∧ Change s s' name malloc (s.Kept (.loop e malloc)) := by
    cases h
    refine ⟨name, .refl, .freed hp ?_⟩
    rw [listed_none hp]
    exact ⟨fun _ r hr => (nomatch hr), fun _ => hkept⟩
  cases e with
  | port name e =>
    cases hp : s.loop.ports.lookup name with
    | none =>
      simp only [loop_step, hp] at h
      refine hnone name hp ?_ h
      cases e <;> exact fun p hp' => nomatch hp.symm.trans hp'
    | some p =>
      cases he : PortInfo.mallocs e with
      | false => exact ⟨name, port_change hp he h⟩
      | true =>
        cases e with
        | portconfig conf calls => exact ⟨name, portconfig_change hp h⟩
        | _ => cases he
  | new_port name conf calls =>
    cases hp : s.loop.ports.lookup name with
    | none => exact ⟨name, new_port_change hp h⟩
    | some p =>
      simp only [loop_step, hp] at h
      cases h
      have hkept : s.Kept (.loop (.new_port name conf calls) malloc) :=
        fun hp' => nomatch hp.symm.trans hp'
      exact ⟨name, .refl, .stays p p hp hp rfl (fun hq => .inl ⟨hq, rfl⟩) hkept⟩
  | clear_old name num =>
    cases hp : s.loop.ports.lookup name with
    | none =>
      simp only [loop_step, MainLoop.step, hp, Option.map_some] at h
      exact hnone name hp (fun p hp' => nomatch hp.symm.trans hp') h
    | some p => exact ⟨name, clear_old_change hp h⟩

/-! ## Links and addresses -/

variable {kept : Prop}

/-- What a port owns after a change it owned before, or it comes from `malloc`. -/
lemma Change.owns (h : Change s s' name malloc kept) (hown : s'.Owns name a) :
    s.Owns name a ∨ a = malloc.addr ∧ s.allocated malloc.addr = false := by
  obtain ⟨p', hp', hown⟩ := hown
  cases h with
  | stays p q hp hq hrecord hnew =>
    cases hq.symm.trans hp'
    rw [hrecord] at hown
    obtain rfl | ⟨hwait, rfl⟩ := hown
    · exact .inl ⟨p, hp, .inl rfl⟩
    · obtain ⟨hpwait, hsame⟩ | ⟨hmalloc, hfresh⟩ := hnew hwait
      · exact .inl ⟨p, hp, .inr ⟨hpwait, by rw [hsame]⟩⟩
      · exact .inr ⟨by rw [hmalloc]; rfl, hfresh⟩
  | replaced q hq hnew hrecord =>
    cases hq.symm.trans hp'
    obtain rfl | ⟨hwait, -⟩ := hown
    · obtain ⟨hmalloc, hfresh⟩ | ⟨p, hp, hwait, hsame⟩ := hrecord
      · exact .inr ⟨by rw [hmalloc]; rfl, hfresh⟩
      · exact .inl ⟨p, hp, .inr ⟨hwait, by rw [hsame]⟩⟩
    · exact absurd hnew hwait
  | freed hq => cases hq.symm.trans hp'

lemma Elsewhere.owns (h : Elsewhere s s' name) (hn : n ≠ name) : s'.Owns n a ↔ s.Owns n a := by
  simp only [Owns, h.lookup n hn, h.record n hn, h.new_config n hn]

lemma Elsewhere.listed (h : Elsewhere s s' name) :
    s'.listed = Function.update s.listed name (s'.listed name) := by
  funext n
  by_cases hn : n = name
  · rw [hn, Function.update_self]
  · rw [Function.update_of_ne hn, Program.listed, Program.listed, h.lookup n hn, h.record n hn]

/-- The addresses of different records stay different. -/
lemma Change.placed (helse : Elsewhere s s' name) (h : Change s s' name malloc kept)
    (hs : s.Placed) : s'.Placed := by
  have hother (n : N) (hn : n ≠ name) (a : ℕ) (hname : s'.Owns name a) (hown : s'.Owns n a) :
      False := by
    rw [helse.owns hn] at hown
    obtain hold | ⟨rfl, hfresh⟩ := h.owns hname
    · exact hn (hs.apart n name a hown hold)
    · exact not_owns_of_not_allocated hfresh hown
  constructor
  · intro i j a hi hj
    by_cases hin : i = name
    · by_cases hjn : j = name
      · rw [hin, hjn]
      · exact (hother j hjn a (hin ▸ hi) hj).elim
    · by_cases hjn : j = name
      · exact (hother i hin a (hjn ▸ hj) hi).elim
      · exact hs.apart i j a ((helse.owns hin).mp hi) ((helse.owns hjn).mp hj)
  · intro n p' hp' hwait
    by_cases hn : n = name
    · subst hn
      cases h with
      | stays p q hp hq hrecord hnew =>
        cases hq.symm.trans hp'
        rw [hrecord]
        obtain ⟨hpwait, hsame⟩ | ⟨hmalloc, hfresh⟩ := hnew hwait
        · rw [hsame]
          exact hs.waiting n p hp hpwait
        · rw [hmalloc]
          intro haddr
          exact not_owns_of_not_allocated hfresh ⟨p, hp, .inl haddr.symm⟩
      | replaced q hq hnew =>
        cases hq.symm.trans hp'
        exact absurd hnew hwait
      | freed hq => cases hq.symm.trans hp'
    · rw [helse.lookup n hn] at hp'
      rw [helse.record n hn, helse.new_config n hn]
      exact hs.waiting n p' hp' hwait

lemma unmonitored_iff : r.Unmonitored ↔ ∀ c, ¬ r.Monitors c := by
  constructor
  · rintro ⟨htcp, hdev⟩ c (hc | hc)
    · cases htcp.symm.trans hc
    · cases hdev.symm.trans hc
  · intro h
    constructor
    · by_contra htcp
      obtain ⟨c, hc⟩ := Option.ne_none_iff_exists'.mp htcp
      exact h c (.inl hc)
    · by_contra hdev
      obtain ⟨c, hc⟩ := Option.ne_none_iff_exists'.mp hdev
      exact h c (.inr hc)

/-- The addresses of the records in the list. -/
lemma Placed.own (hs : s.Placed) : ∀ j i r' r, s.listed j = some r' → s.listed i = some r →
    r'.addr = r.addr → j = i := by
  intro j i r' r hj hi haddr
  exact hs.apart j i r'.addr (listed_owns hj) (haddr ▸ listed_owns hi)

/-- After a change the links are mutual exactly if it is one that is kept. -/
lemma Change.mutualLinks_iff (helse : Elsewhere s s' name) (h : Change s s' name malloc kept)
    (hs : s.Placed) (hlinks : s.MutualLinks) : s'.MutualLinks ↔ kept := by
  obtain ⟨hmutual, hone⟩ := Program.mutualLinks_iff.mp hlinks
  have hheld : s'.held = s.held := by
    funext c
    rw [held, held, helse.controllers, helse.monitor_port_id]
  -- the other ports keep what they have, and so it is enough to look at one
  have hone' : (∀ r, s'.listed name = some r → r.Unmonitored) →
      ∀ n r, s'.listed n = some r → r.tcp_monitor = none ∨ r.dev_monitor = none := by
    intro hname n r hr
    by_cases hn : n = name
    · exact .inl (hname r (hn ▸ hr)).1
    · rw [helse.listed, Function.update_of_ne hn] at hr
      exact hone n r hr
  rw [Program.mutualLinks_iff, hheld]
  cases h with
  | stays p q hp hq hrecord hnew hkept =>
    have hsame : s'.listed = s.listed := by
      rw [helse.listed]
      refine Function.update_eq_self_iff.mpr ?_
      rw [listed_eq_some.mpr ⟨q, hq, hrecord⟩, listed_eq_some.mpr ⟨p, hp, rfl⟩]
    rw [hsame]
    exact ⟨fun _ => hkept, fun _ => ⟨hmutual, hone⟩⟩
  | replaced q hq hnew hrecord hkept =>
    have hlisted : s'.listed name = some (s'.record name) := listed_eq_some.mpr ⟨q, hq, rfl⟩
    have hfresh : ∀ r', some (s'.record name) = some r' →
        ∀ j r, s.listed j = some r → r.addr ≠ r'.addr := by
      rintro r' hr' j r hr haddr
      cases hr'
      have hown : s.Owns j (s'.record name).addr := haddr ▸ listed_owns hr
      obtain ⟨hmalloc, hfree⟩ | ⟨p, hp, hwait, hsame⟩ := hrecord
      · rw [hmalloc] at hown
        exact not_owns_of_not_allocated hfree hown
      · rw [hsame] at hown haddr
        obtain rfl := hs.apart j name _ hown ⟨p, hp, .inr ⟨hwait, rfl⟩⟩
        obtain ⟨p', hp', rfl⟩ := listed_eq_some.mp hr
        exact hs.waiting j p hp hwait haddr.symm
    have hiff := hmutual.replace_iff (i := name) (o := some (s'.record name)) hs.own hfresh
    rw [← hlisted, ← helse.listed] at hiff
    rw [hiff, hkept]
    constructor
    · rintro ⟨⟨hold, hcomes⟩, -⟩
      exact ⟨fun r hr => unmonitored_iff.mpr (hold r hr), unmonitored_iff.mpr (hcomes _ hlisted)⟩
    · rintro ⟨hold, hcomes⟩
      have hcomes' : ∀ r, s'.listed name = some r → r.Unmonitored := by
        intro r hr
        cases hlisted.symm.trans hr
        exact hcomes
      exact ⟨⟨fun r hr => unmonitored_iff.mp (hold r hr),
        fun r hr => unmonitored_iff.mp (hcomes' r hr)⟩, hone' hcomes'⟩
  | freed hq hkept =>
    have hlisted : s'.listed name = none := listed_none hq
    have hiff := hmutual.replace_iff (i := name) (o := none) hs.own (fun _ h => nomatch h)
    rw [← hlisted, ← helse.listed] at hiff
    rw [hiff, hkept]
    constructor
    · rintro ⟨⟨hold, -⟩, -⟩ r hr
      exact unmonitored_iff.mpr (hold r hr)
    · intro hold
      refine ⟨⟨fun r hr => unmonitored_iff.mp (hold r hr), ?_⟩, hone' ?_⟩
      · intro r hr
        cases hlisted.symm.trans hr
      · intro r hr
        cases hlisted.symm.trans hr

/-! ## Commands -/

omit [DecidableEq N] in
/-- A controller that has been freed holds nothing, and no two have the same address. -/
structure Freed (s : Program N) : Prop where
  freed : ∀ c, c ∉ s.controllers → s.monitor_port_id c = none
  nodup : s.controllers.Nodup

lemma write_addr {id : ℕ} : (if r.addr = id then r.clear else r).addr = r.addr := by
  split <;> rfl

/-- Only the monitors change. -/
structure SameRecords (s s' : Program N) : Prop where
  loop : s'.loop = s.loop
  record : ∀ n, (s'.record n).addr = (s.record n).addr
  new_config : ∀ n, (s'.new_config n).addr = (s.new_config n).addr

lemma SameRecords.placed (h : SameRecords s s') (hs : s.Placed) : s'.Placed := by
  have howns (n : N) (a : ℕ) : s'.Owns n a ↔ s.Owns n a := by
    simp only [Owns, h.loop, h.record, h.new_config]
  constructor
  · intro name n a hname hn
    exact hs.apart name n a ((howns name a).mp hname) ((howns n a).mp hn)
  · intro name p hp hwait
    rw [h.record, h.new_config]
    exact hs.waiting name p (h.loop ▸ hp) hwait

omit [DecidableEq N] in
lemma stop_monitor_sameRecords : SameRecords s (s.stop_monitor c) := by
  rw [stop_monitor]
  split
  · exact ⟨rfl, fun _ => rfl, fun _ => rfl⟩
  · exact ⟨rfl, fun _ => write_addr, fun _ => write_addr⟩

omit [DecidableEq N] in
lemma stop_monitor_controllers : (s.stop_monitor c).controllers = s.controllers := by
  rw [stop_monitor]
  split <;> rfl

omit [DecidableEq N] in
lemma stop_monitor_monitor_port_id :
    (s.stop_monitor c).monitor_port_id = Function.update s.monitor_port_id c none := by
  rw [stop_monitor]
  split
  · rename_i hid
    rw [← hid, Function.update_eq_self]
  · rfl

lemma listed_one (h : s.MutualLinks) {d e : ℕ} (hr : s.listed name = some r) (hd : r.Monitors d)
    (he : r.Monitors e) : d = e := by
  obtain ⟨-, hone⟩ := mutualLinks_iff.mp h
  obtain hnone | hnone := hone name r hr
  · obtain hd | hd := hd
    · cases hnone.symm.trans hd
    · obtain he | he := he
      · cases hnone.symm.trans he
      · exact Option.some.inj (hd.symm.trans he)
  · obtain hd | hd := hd
    · obtain he | he := he
      · exact Option.some.inj (hd.symm.trans he)
      · cases hnone.symm.trans he
    · cases hnone.symm.trans hd

/-- A controller lets go of what it monitors, and stays or goes. -/
lemma stop_monitor_mutualLinks (hplaced : s.Placed) (hlinks : s.MutualLinks) (hfreed : s.Freed)
    {l : List ℕ} (hl : ∀ d, d ≠ c → (d ∈ l ↔ d ∈ s.controllers)) :
    ({ s.stop_monitor c with controllers := l } : Program N).MutualLinks := by
  obtain ⟨hmutual, hone⟩ := mutualLinks_iff.mp hlinks
  rw [mutualLinks_iff]
  have hheld : ({ s.stop_monitor c with controllers := l } : Program N).held =
      Function.update s.held c (if c ∈ l then some none else none) := by
    funext d
    by_cases hd : d = c
    · subst hd
      rw [Function.update_self, held]
      dsimp only
      rw [stop_monitor_monitor_port_id, Function.update_self]
    · rw [Function.update_of_ne hd, held, held]
      dsimp only
      rw [stop_monitor_monitor_port_id, Function.update_of_ne hd]
      simp only [hl d hd]
  rw [hheld]
  cases hid : s.monitor_port_id c with
  | none =>
    have hlisted : ({ s.stop_monitor c with controllers := l } : Program N).listed = s.listed := by
      funext n
      simp only [listed, stop_monitor, hid]
    rw [hlisted]
    refine ⟨hmutual.of_held fun d b => ?_, hone⟩
    by_cases hd : d = c
    · subst hd
      rw [Function.update_self, held_eq_some, hid]
      constructor
      · intro h
        split at h <;> cases h
      · rintro ⟨-, h⟩
        cases h
    · rw [Function.update_of_ne hd]
  | some a =>
    have hlisted : ({ s.stop_monitor c with controllers := l } : Program N).listed =
        fun n => (s.listed n).map fun r => if r.addr = a then r.clear else r := by
      funext n
      simp only [listed, stop_monitor, hid, Option.map_map]
      rfl
    have hlive : c ∈ s.controllers := by
      by_contra hdead
      cases hid.symm.trans (hfreed.freed c hdead)
    rw [hlisted]
    constructor
    · refine hmutual.unlink (held_eq_some.mpr ⟨hlive, hid⟩) ?_ ?_ hplaced.own ?_
      · intro b h
        split at h <;> cases h
      · rintro r d (h | h) <;> cases h
      · intro n r d e hr hd he
        exact listed_one hlinks hr hd he
    · intro n r' hr'
      obtain ⟨r, hr, rfl⟩ := Option.map_eq_some_iff.mp hr'
      split
      · exact .inl rfl
      · exact hone n r hr

/-- `data_monitor_start` is refused, or the record names the controller from now on. -/
lemma data_monitor_start_cases {type : String} :
    (s.data_monitor_start c type name = (s, none) ∧
      (s.loop.ports.lookup name = none ∨ ¬ (s.record name).Unmonitored ∨
        type ≠ "tcp" ∧ type ≠ "term")) ∨
    ∃ p r, s.data_monitor_start c type name =
        ({ s with record := Function.update s.record name r }, some (s.record name).addr) ∧
      s.loop.ports.lookup name = some p ∧ (s.record name).Unmonitored ∧
      (type = "tcp" ∨ type = "term") ∧ r.addr = (s.record name).addr ∧
      (∀ d, r.Monitors d ↔ d = c) ∧ (r.tcp_monitor = none ∨ r.dev_monitor = none) := by
  cases hp : s.loop.ports.lookup name with
  | none => exact .inl ⟨by simp only [data_monitor_start, hp], .inl rfl⟩
  | some p =>
    by_cases hmon : (s.record name).Unmonitored
    · have hfree : ¬ ((s.record name).tcp_monitor ≠ none ∨ (s.record name).dev_monitor ≠ none) := by
        rintro (h | h)
        · exact h hmon.1
        · exact h hmon.2
      by_cases htcp : type = "tcp"
      · refine .inr ⟨p, { s.record name with tcp_monitor := some c }, ?_, rfl, hmon, .inl htcp, rfl,
          ?_, .inr hmon.2⟩
        · simp only [data_monitor_start, hp, if_neg hfree, if_pos htcp]
        · intro d
          simp [Record.Monitors, hmon.2, eq_comm]
      · by_cases hterm : type = "term"
        · refine .inr ⟨p, { s.record name with dev_monitor := some c }, ?_, rfl, hmon, .inr hterm,
            rfl, ?_, .inl hmon.1⟩
          · simp only [data_monitor_start, hp, if_neg hfree, if_neg htcp, if_pos hterm]
          · intro d
            simp [Record.Monitors, hmon.1, eq_comm]
        · refine .inl ⟨?_, .inr (.inr ⟨htcp, hterm⟩)⟩
          simp only [data_monitor_start, hp, if_neg hfree, if_neg htcp, if_neg hterm]
    · have hbusy : (s.record name).tcp_monitor ≠ none ∨ (s.record name).dev_monitor ≠ none := by
        by_contra hfree
        obtain ⟨htcp, hdev⟩ := not_or.mp hfree
        exact hmon ⟨not_not.mp htcp, not_not.mp hdev⟩
      refine .inl ⟨?_, .inr (.inl hmon)⟩
      simp only [data_monitor_start, hp, if_pos hbusy]

/-- What holds in these runs. -/
structure Linked (s : Program N) : Prop where
  placed : s.Placed
  links : s.MutualLinks
  freed : s.Freed

/-- After the step the links are mutual exactly if it is one that keeps them, and what they rest on
holds anyway. -/
structure Goes (s s' : Program N) (kept : Prop) : Prop where
  links : s'.MutualLinks ↔ kept
  placed : s'.Placed
  freed : kept → s'.Freed

lemma loop_goes (hs : s.Linked) (h : s.loop_step malloc e = some s') :
    Goes s s' (s.Kept (.loop e malloc)) := by
  obtain ⟨name, helse, hchange⟩ := loop_step_change h
  refine ⟨hchange.mutualLinks_iff helse hs.placed hs.links, hchange.placed helse hs.placed, ?_⟩
  intro _
  constructor
  · rw [helse.controllers, helse.monitor_port_id]
    exact hs.freed.freed
  · rw [helse.controllers]
    exact hs.freed.nodup

/-- A controller that is stopped, and stays or goes. -/
lemma stop_monitor_goes (hs : s.Linked) {l : List ℕ}
    (hl : ∀ d, d ≠ c → (d ∈ l ↔ d ∈ s.controllers)) (hnodup : l.Nodup) :
    Goes s { s.stop_monitor c with controllers := l } True := by
  refine ⟨iff_true_intro (stop_monitor_mutualLinks hs.placed hs.links hs.freed hl), ?_, ?_⟩
  · obtain ⟨hloop, hrecord, hnew⟩ := stop_monitor_sameRecords (s := s) (c := c)
    exact SameRecords.placed ⟨hloop, hrecord, hnew⟩ hs.placed
  · intro _
    refine ⟨?_, hnodup⟩
    intro d hd
    dsimp only
    rw [stop_monitor_monitor_port_id]
    by_cases hdc : d = c
    · rw [hdc, Function.update_self]
    · rw [Function.update_of_ne hdc]
      exact hs.freed.freed d fun hlive => hd ((hl d hdc).mpr hlive)

/-- A new control connection. -/
lemma accept_goes (hs : s.Linked) (hc : c ∉ s.controllers) :
    Goes s { s.set_monitor_port_id c none with controllers := c :: s.controllers } True := by
  obtain ⟨hmutual, hone⟩ := mutualLinks_iff.mp hs.links
  refine ⟨iff_true_intro (mutualLinks_iff.mpr ⟨hmutual.of_held ?_, hone⟩), ?_, fun _ => ⟨?_, ?_⟩⟩
  · intro d a
    rw [held_eq_some, held_eq_some]
    by_cases hd : d = c
    · subst hd
      constructor
      · rintro ⟨-, h⟩
        simp [set_monitor_port_id] at h
      · rintro ⟨h, -⟩
        exact absurd h hc
    · simp [set_monitor_port_id, hd]
  · exact SameRecords.placed (s := s) ⟨rfl, fun _ => rfl, fun _ => rfl⟩ hs.placed
  · intro d hd
    obtain ⟨hdc, hdead⟩ := not_or.mp (mt List.mem_cons.mpr hd)
    exact (Function.update_of_ne hdc _ _).trans (hs.freed.freed d hdead)
  · exact List.nodup_cons.mpr ⟨hc, hs.freed.nodup⟩

/-- The command `monitor` of a controller that monitors nothing. -/
lemma monitor_goes (type : String) (name : N) (hs : s.Linked)
    (hid : s.monitor_port_id c = none) :
    let (s', id) := s.data_monitor_start c type name
    Goes s (s'.set_monitor_port_id c id) (s.Kept (.monitor c type name)) := by
  obtain ⟨hmutual, hone⟩ := mutualLinks_iff.mp hs.links
  obtain ⟨hrefused, hwhy⟩ | ⟨p, r, hstart, hp, hmon, htype, haddr, hnames, hr⟩ :=
    data_monitor_start_cases (s := s) (c := c)
  · rw [hrefused]
    have hsame : s.set_monitor_port_id c none = s := by
      rw [set_monitor_port_id, ← hid, Function.update_eq_self]
    show Goes s (s.set_monitor_port_id c none) _
    rw [hsame]
    exact ⟨⟨fun _ => .inr (.inr hwhy), fun _ => hs.links⟩, hs.placed, fun _ => hs.freed⟩
  · rw [hstart]
    obtain ⟨s', hs'⟩ : ∃ s', s' = ({ s with record := Function.update s.record name r } :
      Program N).set_monitor_port_id c (some (s.record name).addr) := ⟨_, rfl⟩
    show Goes s (({ s with record := Function.update s.record name r } :
      Program N).set_monitor_port_id c (some (s.record name).addr)) _
    rw [← hs']
    have hkept : s.Kept (.monitor c type name) ↔ c ∈ s.controllers := by
      refine ⟨?_, .inl⟩
      rintro (hlive | hbusy | hnone | hbusy | ⟨htcp, hterm⟩)
      · exact hlive
      · exact absurd hid hbusy
      · cases hp.symm.trans hnone
      · exact absurd hmon hbusy
      · exact (htype.elim htcp hterm).elim
    have hlisted : s'.listed = Function.update s.listed name (some r) := by
      funext n
      rw [hs']
      by_cases hn : n = name
      · subst hn
        simp [listed, set_monitor_port_id, hp]
      · simp [listed, set_monitor_port_id, hn]
    refine ⟨?_, ?_, ?_⟩
    · rw [hkept]
      constructor
      · -- the record names the controller, and so it has to be live
        intro hlinks
        have hnamed : s'.listed name = some r := by rw [hlisted, Function.update_self]
        obtain ⟨hmutual', -⟩ := mutualLinks_iff.mp hlinks
        have hheld := hmutual'.forth name r c hnamed ((hnames c).mpr rfl)
        obtain ⟨hlive, -⟩ := held_eq_some.mp hheld
        rw [hs'] at hlive
        exact hlive
      · intro hlive
        have hheld : s'.held = Function.update s.held c (some (some (s.record name).addr)) := by
          funext d
          rw [hs']
          by_cases hd : d = c
          · subst hd
            simp [held, set_monitor_port_id, hlive]
          · simp [held, set_monitor_port_id, hd]
        rw [mutualLinks_iff, hlisted, hheld]
        constructor
        · exact hmutual.link (listed_eq_some.mpr ⟨p, hp, rfl⟩) (held_eq_some.mpr ⟨hlive, hid⟩) haddr
            (unmonitored_iff.mp hmon) hnames
        · intro n q hq
          by_cases hn : n = name
          · rw [hn, Function.update_self] at hq
            cases hq
            exact hr
          · rw [Function.update_of_ne hn] at hq
            exact hone n q hq
    · refine SameRecords.placed ⟨?_, ?_, ?_⟩ hs.placed
      · rw [hs']
        rfl
      · intro n
        rw [hs']
        by_cases hn : n = name
        · subst hn
          exact (congrArg Record.addr (Function.update_self ..)).trans haddr
        · exact congrArg Record.addr (Function.update_of_ne hn _ _)
      · intro n
        rw [hs']
        rfl
    · intro hok
      have hlive := hkept.mp hok
      rw [hs']
      refine ⟨?_, hs.freed.nodup⟩
      intro d hd
      have hdc : d ≠ c := by
        rintro rfl
        exact hd hlive
      exact (Function.update_of_ne hdc _ _).trans (hs.freed.freed d hd)

lemma step_goes {e : ProgramEvent N} (hs : s.Linked) (h : s.step e = some s') :
    Goes s s' (s.Kept e) := by
  have hsame (hkept : s.Kept e) : Goes s s (s.Kept e) :=
    ⟨⟨fun _ => hkept, fun _ => hs.links⟩, hs.placed, fun _ => hs.freed⟩
  cases e with
  | loop e malloc => exact loop_goes hs h
  | accept c =>
    simp only [step] at h
    split_ifs at h with hmany hc
    · cases h
      exact hsame trivial
    · cases h
      exact accept_goes hs hc
  | monitor c type name =>
    simp only [step] at h
    split_ifs at h with hbusy
    · cases h
      exact hsame (.inr (.inl hbusy))
    · have hgoes := monitor_goes (c := c) type name hs (not_not.mp hbusy)
      cases h
      exact hgoes
  | monitor_stop c =>
    cases h
    have hgoes := stop_monitor_goes (c := c) hs (l := s.controllers) (fun _ _ => .rfl) hs.freed.nodup
    rw [← stop_monitor_controllers (s := s) (c := c)] at hgoes
    exact hgoes
  | shutdown c =>
    simp only [step] at h
    split_ifs at h
    cases h
    rw [stop_monitor_controllers]
    exact stop_monitor_goes hs (fun d hd => List.mem_erase_of_ne hd) (hs.freed.nodup.erase c)

variable {k : Kernel}

lemma init_linked : (init k : Program N).Linked := by
  refine ⟨⟨?_, ?_⟩, ⟨?_, ?_, ?_⟩, fun _ _ => rfl, List.nodup_nil⟩
  · rintro name n a ⟨p, hp, -⟩
    cases hp
  · intro name p hp
    cases hp
  · intro name p c hp
    cases hp
  · intro name p hp
    cases hp
  · intro c a hc
    cases hc

/-- As long as no record goes that is monitored, none comes whose `dev_monitor` is set and no
controller that has been freed starts a monitor, the links are mutual, and the next step keeps them
exactly if it is of this kind. -/
theorem monitor_links (h : Reach step Kept (init k) s) :
    s.MutualLinks ∧ ∀ e s', s.step e = some s' → (s'.MutualLinks ↔ s.Kept e) := by
  have hlinked : s.Linked := by
    refine h.induction_on init_linked ?_
    intro s e s' hs hkept hstep
    obtain ⟨hlinks, hplaced, hfreed⟩ := step_goes hs hstep
    exact ⟨hplaced, hlinks.mpr hkept, hfreed hkept⟩
  exact ⟨hlinked.links, fun e s' hstep => (step_goes hlinked hstep).links⟩

/-- A controller monitors a port, and lets go of it during a session. -/
theorem monitor_links_stopped :
    ∃ s s' : Program ℕ, s.MutualLinks ∧ s.controllers = [1] ∧ s.monitor_port_id 1 = some 100 ∧
      (s.record 2000).tcp_monitor = some 1 ∧ s.step (.monitor_stop 1) = some s' ∧
      (s'.record 2000).tcp_monitor = none ∧ s'.MutualLinks := by
  have hrun : ∃ s s' : Program ℕ, Reach step Kept (init .empty) s ∧ s.controllers = [1] ∧
      s.monitor_port_id 1 = some 100 ∧ (s.record 2000).tcp_monitor = some 1 ∧
      s.step (.monitor_stop 1) = some s' ∧ (s'.record 2000).tcp_monitor = none := by
    refine ⟨_, _, ((((Reach.init.step (e := .loop
      (.new_port 2000 (MainLoop.configOf .raw 5) MainLoop.socketCalls) ⟨100, some 9, none⟩)
      (fun _ _ => rfl) rfl).step (e := .accept 1) trivial rfl).step
      (e := .monitor 1 "tcp" 2000) (.inl (List.mem_singleton_self 1)) rfl).step (e := .loop
      (.port 2000 (.accept_read (some 4) (MainLoop.setupCalls []))) ⟨200, none, none⟩) ?_ rfl),
      rfl, rfl, rfl, rfl, rfl⟩
    rintro p hp ⟨k, q, hends⟩
    cases hp
    cases hends
  obtain ⟨s, s', hreach, hcontrollers, hid, htcp, hstep, htcp'⟩ := hrun
  obtain ⟨hlinks, hnext⟩ := monitor_links hreach
  exact ⟨s, s', hlinks, hcontrollers, hid, htcp, hstep, htcp', (hnext _ s' hstep).mpr trivial⟩

/-- The port is not connected when the configuration is loaded again: the controller is left with
the address of the old record, and the new one does not name it. -/
theorem monitor_of_freed_port :
    ∃ s : Program ℕ, replay step (init .empty)
      [.loop (.new_port 2000 (MainLoop.configOf .raw 5) MainLoop.socketCalls) ⟨100, none, none⟩,
        .accept 1, .monitor 1 "tcp" 2000,
        .loop (.port 2000 (.portconfig (MainLoop.configOf .raw 5) MainLoop.socketCalls))
          ⟨200, none, none⟩] = some s ∧
      s.controllers = [1] ∧ s.monitor_port_id 1 = some 100 ∧ (s.record 2000).addr = 200 ∧
      (s.record 2000).Unmonitored ∧ ¬ s.MutualLinks := by
  have hrun : ∃ s : Program ℕ, replay step (init .empty)
      [.loop (.new_port 2000 (MainLoop.configOf .raw 5) MainLoop.socketCalls) ⟨100, none, none⟩,
        .accept 1, .monitor 1 "tcp" 2000,
        .loop (.port 2000 (.portconfig (MainLoop.configOf .raw 5) MainLoop.socketCalls))
          ⟨200, none, none⟩] = some s ∧
      s.controllers = [1] ∧ s.monitor_port_id 1 = some 100 ∧ (s.record 2000).addr = 200 ∧
      s.loop.ports.keys = [2000] ∧ (s.record 2000).Unmonitored :=
    ⟨_, rfl, rfl, rfl, rfl, rfl, rfl, rfl⟩
  obtain ⟨s, hreplay, hcontrollers, hid, haddr, hkeys, hmon⟩ := hrun
  refine ⟨s, hreplay, hcontrollers, hid, haddr, hmon, fun h => ?_⟩
  obtain ⟨name, p, hp, haddr', -⟩ := h.controllers 1 100 (by rw [hcontrollers]; decide) hid
  have hname : name ∈ s.loop.ports.keys := by
    rw [← AList.mem_keys, ← AList.lookup_isSome, hp]
    rfl
  rw [hkeys, List.mem_singleton] at hname
  rw [hname, haddr] at haddr'
  cases haddr'

end Program

end EspLinux.Ser2net
