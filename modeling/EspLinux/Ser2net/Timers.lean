import EspLinux.Ser2net.MainLoop

/-!
# The timers of a port

A port has a timer that counts the seconds without input or output and a timer for the age of what
waits in its buffer.  `shutdown_port` stops the first one only.  So when a session ends while
bytes wait to become old enough, the second one goes off later, when the session is over, and
`aged` writes to a descriptor that has been closed, or to the next session.

`handle_dev_fd_read` stops the timer before it writes, and a timer that goes off has left the
heap.  In every run in which the timer is not in the heap whenever `shutdown_port` is called, or
the record goes away with the session, no timer of a port without a session is in the heap
(`no_timer_without_session`).
-/

namespace EspLinux.Ser2net

open EspLinux.Lib

/-! ## The transfer -/

namespace Xfer

variable {p : Settings} {s s' : Xfer} {ws : List Wrote} {w w₁ w₂ : Wrote} {e : Event}

/-- What is read goes into the buffer and nowhere else. -/
lemma store_state {got : List UInt8} (h : s.store p got = some s') :
    s'.dev_to_tcp_state = s.dev_to_tcp_state := by
  simp only [store] at h
  split at h
  · obtain ⟨r, -, hr⟩ := Option.bind_eq_some_iff.mp h
    cases hr
    rfl
  · cases h
    rfl

/-- `tryNetWrite` ends the session only if the write fails. -/
lemma tryNetWrite_connected (hs : s.dev_to_tcp_state ≠ .unconnected)
    (h : tryNetWrite ws s = some s') (hws : PortInfo.fails (PortInfo.answer ws) = false) :
    s'.dev_to_tcp_state ≠ .unconnected := by
  induction ws with
  | nil => exact absurd h (by simp [tryNetWrite])
  | cons w ws ih =>
    cases w with
    | EINTR => exact ih h hws
    | EPIPE => exact Bool.noConfusion (show true = false from hws)
    | error => exact Bool.noConfusion (show true = false from hws)
    | EAGAIN =>
      cases h
      exact fun hstate => PortState.noConfusion hstate
    | accepted n =>
      simp only [tryNetWrite] at h
      split at h
      · cases h
        exact fun hstate => PortState.noConfusion hstate
      · cases h
        exact hs

lemma write_data_connected (hs : s.dev_to_tcp_state ≠ .unconnected)
    (hw : PortInfo.fails (some w) = false) : (s.write_data w).dev_to_tcp_state ≠ .unconnected := by
  cases w with
  | EINTR => exact hs
  | EAGAIN => exact hs
  | EPIPE => exact absurd hw (by decide)
  | error => exact absurd hw (by decide)
  | accepted n =>
    simp only [write_data]
    split
    · exact hs
    · exact fun hstate => PortState.noConfusion hstate

end Xfer

namespace PortInfo

variable {p p' : PortInfo} {k k' : Kernel} {e : Event} {x : Xfer}

/-- An event of the transfer that does not call `shutdown_port` leaves the port connected. -/
lemma step_connected (hs : p.xfer.dev_to_tcp_state ≠ .unconnected)
    (h : p.xfer.step p.settings e = some x) (he : p.shuts e = false) :
    x.dev_to_tcp_state ≠ .unconnected := by
  cases e with
  | dev_read avail ws =>
    simp only [Xfer.step] at h
    split at h
    case isFalse =>
      cases h
      exact hs
    case isTrue hreader =>
      simp only [shuts, hreader, Bool.true_and] at he
      rw [Xfer.handle_dev_fd_read] at h
      split at h
      · simp_all
      · simp_all
      · rename_i b l hgot
        simp only [hgot] at he
        cases hstore : p.xfer.store p.settings (b :: l) with
        | none => simp [hstore] at h
        | some t =>
          simp only [hstore, Option.bind_eq_bind, Option.bind_some] at h he
          have ht := Xfer.store_state hstore
          split at h
          case isTrue =>
            cases h
            exact ht ▸ hs
          case isFalse hge =>
            have hfull : p.dinfo.shortest ≤ t.dev_to_tcp_buf_count := not_lt.mp hge
            rw [decide_eq_true hfull, Bool.true_and] at he
            exact Xfer.tryNetWrite_connected (s := { t with age := false }) (ht ▸ hs) h he
  | aged ws =>
    simp only [Xfer.step] at h
    split at h
    case isFalse =>
      cases h
      exact hs
    case isTrue hage =>
      simp only [shuts, hage, Bool.true_and] at he
      exact Xfer.tryNetWrite_connected (s := { p.xfer with age := false }) hs h he
  | tcp_write w₁ w₂ =>
    simp only [Xfer.step] at h
    split at h
    case isFalse =>
      cases h
      exact hs
    case isTrue hwriter =>
      cases h
      simp only [shuts, hwriter, Bool.true_and] at he
      simp only [Xfer.handle_tcp_fd_write]
      split
      case isTrue hcmd =>
        rw [if_pos hcmd] at he
        exact Xfer.write_data_connected hs he
      case isFalse hcmd =>
        rw [if_neg hcmd] at he
        cases w₁ with
        | EINTR => exact hs
        | EAGAIN => exact Xfer.write_data_connected hs he
        | EPIPE => cases he
        | error => cases he
        | accepted n =>
          simp only
          split
          case isTrue hrest =>
            simp only [hrest, decide_true, Bool.true_and] at he
            exact Xfer.write_data_connected (s := { p.xfer with out_telnet_cmd := _ }) hs he
          case isFalse => exact hs
  | telnet_output cmd =>
    simp only [Xfer.step] at h
    split at h
    · cases h
      exact hs
    · cases h
      exact hs

/-! ## What holds of a port -/

/-- What holds of a port in these runs. -/
structure Timed (p : PortInfo) : Prop where
  both : p.xfer.dev_to_tcp_state = .unconnected ↔ p.tcp_to_dev_state = .unconnected
  idle : p.tcp_to_dev_state = .unconnected →
    p.timer = false ∧ p.xfer.age = false ∧ p.xfer.reader = false ∧ p.xfer.writer = false

/-- The record is about the same session, or about none still. -/
structure SameSession (p p' : PortInfo) : Prop where
  timer : p'.timer = p.timer
  xfer : p'.xfer = p.xfer
  tcp_to_dev_state : p'.tcp_to_dev_state = p.tcp_to_dev_state

lemma SameSession.timed (h : SameSession p p') (hp : p.Timed) : p'.Timed := by
  obtain ⟨htimer, hxfer, hstate⟩ := h
  exact ⟨by rw [hxfer, hstate]; exact hp.both, by rw [htimer, hxfer, hstate]; exact hp.idle⟩

/-- A port whose two directions are connected. -/
lemma timed_of_connected (hx : p.xfer.dev_to_tcp_state ≠ .unconnected)
    (ht : p.tcp_to_dev_state ≠ .unconnected) : p.Timed :=
  ⟨⟨fun h => absurd h hx, fun h => absurd h ht⟩, fun h => absurd h ht⟩

lemma Timed.connected (hp : p.Timed) (h : p.tcp_to_dev_state ≠ .unconnected) :
    p.xfer.dev_to_tcp_state ≠ .unconnected := fun hx => h (hp.both.mp hx)

lemma timed_port (c : Config) : c.port.Timed := ⟨⟨fun _ => rfl, fun _ => rfl⟩, fun _ => ⟨rfl, rfl, rfl, rfl⟩⟩

/-- When a session ends without the timer for the age, or the record goes away with it. -/
lemma shutdown_port_timed
    (h : p.xfer.age = false ∨ p.config_num = none ∨ p.new_config ≠ none)
    (hp' : p.shutdown_port k = (k', some p')) : p'.Timed := by
  simp only [shutdown_port] at hp'
  split at hp'
  case h_1 => cases hp'
  case h_2 hnum =>
    split at hp'
    case h_1 hconfig =>
      have hage := h.resolve_right (by simp [hnum, hconfig])
      cases hp'
      exact ⟨⟨fun _ => rfl, fun _ => rfl⟩, fun _ => ⟨rfl, hage, rfl, rfl⟩⟩
    case h_2 c hconfig =>
      cases hp'
      exact SameSession.timed (p := c.port) ⟨rfl, rfl, rfl⟩ (timed_port c)

/-! ## The events -/

lemma startup_port_session {calls : SocketCalls} {rv : Option String}
    (h : p.startup_port calls k = some (k', p', rv)) : SameSession p p' := by
  simp only [startup_port] at h
  split at h
  · cases h
    exact ⟨rfl, rfl, rfl⟩
  · obtain ⟨k₁, -, hopened⟩ := Option.bind_eq_some_iff.mp h
    split_ifs at hopened <;> cases hopened <;> exact ⟨rfl, rfl, rfl⟩

lemma change_port_state_session {state : Mode} {calls : SocketCalls} {rv : Option String}
    (h : p.change_port_state state calls k = some (k', p', rv)) : SameSession p p' := by
  simp only [change_port_state] at h
  split_ifs at h
  · cases h
    exact ⟨rfl, rfl, rfl⟩
  · cases h
    exact ⟨rfl, rfl, rfl⟩
  · obtain ⟨⟨k₁, p₁, rv₁⟩, hstart, hrest⟩ := Option.bind_eq_some_iff.mp h
    cases hrest
    obtain ⟨htimer, hxfer, hstate⟩ := startup_port_session hstart
    exact ⟨htimer, hxfer, hstate⟩
  · cases h
    exact ⟨rfl, rfl, rfl⟩

/-- A set-up that fails leaves the session as it was, and one that succeeds starts a new one. -/
lemma setup_net_port2_session {c : SetupCalls} {ok : Bool}
    (h : p.setup_net_port2 c k = some (k', p', ok)) :
    (ok = false ∧ SameSession p p') ∨
    (ok = true ∧ p'.tcp_to_dev_state = .waiting_input ∧
      p'.xfer.dev_to_tcp_state = .waiting_input) := by
  simp only [setup_net_port2] at h
  split at h
  · cases h
    exact .inl ⟨rfl, rfl, rfl, rfl⟩
  · split at h
    · cases h
      exact .inl ⟨rfl, rfl, rfl, rfl⟩
    · split at h
      · cases h
        exact .inl ⟨rfl, rfl, rfl, rfl⟩
      · obtain ⟨k₁, -, hopened⟩ := Option.bind_eq_some_iff.mp h
        split at hopened
        · cases hopened
          exact .inl ⟨rfl, rfl, rfl, rfl⟩
        · cases hopened
          exact .inr ⟨rfl, rfl, rfl⟩

lemma setup_tcp_port_session {c : SetupCalls} {ok : Bool}
    (h : p.setup_tcp_port c k = some (k', p', ok)) :
    (ok = false ∧ SameSession p p') ∨
    (ok = true ∧ p'.tcp_to_dev_state = .waiting_input ∧
      p'.xfer.dev_to_tcp_state = .waiting_input) := by
  rw [setup_tcp_port] at h
  split at h
  · cases h
    exact .inl ⟨rfl, rfl, rfl, rfl⟩
  · split at h
    · cases h
      exact .inl ⟨rfl, rfl, rfl, rfl⟩
    · exact setup_net_port2_session h

lemma telnet_output_ready_state {s : Xfer} {cmd : List UInt8} :
    (if cmd = [] then s else s.telnet_output_ready cmd).dev_to_tcp_state = s.dev_to_tcp_state := by
  split <;> rfl

lemma telnet_read_state {r : TcpRead} {data : List UInt8} :
    (p.telnet_read r data).tcp_to_dev_state = p.tcp_to_dev_state ∧
    (p.telnet_read r data).xfer.dev_to_tcp_state = p.xfer.dev_to_tcp_state := by
  rw [telnet_read]
  split
  · exact ⟨rfl, telnet_output_ready_state⟩
  · exact ⟨rfl, rfl⟩

/-- Reading from the network leaves both directions connected. -/
lemma handle_tcp_fd_read_connected {r : TcpRead} {shut : Bool}
    (ht : p.tcp_to_dev_state ≠ .unconnected) (hx : p.xfer.dev_to_tcp_state ≠ .unconnected)
    (h : p.handle_tcp_fd_read r k = some (k', p', shut)) :
    p'.tcp_to_dev_state ≠ .unconnected ∧ p'.xfer.dev_to_tcp_state ≠ .unconnected := by
  simp only [handle_tcp_fd_read] at h
  split at h
  · cases h
    exact ⟨ht, hx⟩
  · cases h
    exact ⟨ht, hx⟩
  · rename_i b l _
    obtain ⟨ht', hx'⟩ := telnet_read_state (p := p) (r := r)
    obtain ⟨q, hq⟩ : ∃ q, q = p.telnet_read r (b :: l) := ⟨_, rfl⟩
    rw [← hq] at h ht' hx'
    rw [← ht'] at ht
    rw [← hx'] at hx
    split at h
    · cases h
      exact ⟨ht, hx⟩
    · split at h
      · cases h
        exact ⟨ht, hx⟩
      · obtain ⟨w, -, hw⟩ := Option.bind_eq_some_iff.mp h
        split_ifs at hw <;> cases hw
        · exact ⟨ht, hx⟩
        · exact ⟨fun hstate => PortState.noConfusion hstate, hx⟩
        · exact ⟨ht, hx⟩

lemma handle_dev_fd_write_connected {w : Wrote} {shut : Bool}
    (ht : p.tcp_to_dev_state ≠ .unconnected) (hx : p.xfer.dev_to_tcp_state ≠ .unconnected)
    (h : p.handle_dev_fd_write w k = (k', p', shut)) :
    p'.tcp_to_dev_state ≠ .unconnected ∧ p'.xfer.dev_to_tcp_state ≠ .unconnected := by
  simp only [handle_dev_fd_write] at h
  split at h
  case h_5 =>
    split at h <;> cases h
    · exact ⟨ht, hx⟩
    · exact ⟨fun hstate => PortState.noConfusion hstate, hx⟩
  all_goals
    cases h
    exact ⟨ht, hx⟩

lemma got_timeout_state {replies : List UInt8} {shut : Bool}
    (h : p.got_timeout replies k = (k', p', shut)) :
    p'.tcp_to_dev_state = p.tcp_to_dev_state ∧
    p'.xfer.dev_to_tcp_state = p.xfer.dev_to_tcp_state := by
  simp only [got_timeout] at h
  split_ifs at h <;> cases h <;> exact ⟨rfl, rfl⟩

/-- On a port that is not connected the events of the transfer do nothing. -/
lemma transfer_idle (hp : p.Timed) (hidle : p.tcp_to_dev_state = .unconnected)
    (h : p.transfer e k = some (k', p', false)) : SameSession p p' := by
  obtain ⟨-, hage, hreader, hwriter⟩ := hp.idle hidle
  have hstate := hp.both.mpr hidle
  have hstep : p.xfer.step p.settings e = some p.xfer := by
    cases e with
    | dev_read avail ws => rw [Xfer.step, if_neg (by simp [hreader])]
    | aged ws => rw [Xfer.step, if_neg (by simp [hage])]
    | tcp_write w₁ w₂ => rw [Xfer.step, if_neg (by simp [hwriter])]
    | telnet_output cmd => rw [Xfer.step, if_neg (fun h => h.2 hstate)]
  rw [transfer, hstep] at h
  simp only [Option.bind_eq_bind, Option.bind_some, Option.some.injEq, Prod.mk.injEq] at h
  obtain ⟨-, hp', -⟩ := h
  rw [← hp']
  split <;> exact ⟨rfl, rfl, rfl⟩

lemma transfer_connected (hx : p.xfer.dev_to_tcp_state ≠ .unconnected)
    (ht : p.tcp_to_dev_state ≠ .unconnected) (h : p.transfer e k = some (k', p', false)) :
    p'.Timed := by
  obtain ⟨x, hstep, hrest⟩ := Option.bind_eq_some_iff.mp h
  simp only [Option.some.injEq, Prod.mk.injEq] at hrest
  obtain ⟨-, hp', hshuts⟩ := hrest
  have hconn := step_connected hx hstep hshuts
  rw [← hp']
  split
  · exact timed_of_connected hconn ht
  · exact timed_of_connected hconn ht

/-- A client that comes starts a session or nothing. -/
lemma handle_accept_port_read_session {inuse : Bool} {accept : Option ℕ} {c : SetupCalls}
    (h : p.handle_accept_port_read inuse accept c k = some (k', p')) :
    SameSession p p' ∨
    p'.tcp_to_dev_state ≠ .unconnected ∧ p'.xfer.dev_to_tcp_state ≠ .unconnected := by
  simp only [handle_accept_port_read] at h
  split at h
  · cases h
    exact .inl ⟨rfl, rfl, rfl⟩
  · split at h
    · cases h
      exact .inl ⟨rfl, rfl, rfl⟩
    · obtain ⟨k₂, -, hset⟩ := Option.bind_eq_some_iff.mp h
      obtain ⟨⟨k₃, p₃, ok⟩, hsetup, hlast⟩ := Option.bind_eq_some_iff.mp hset
      cases hlast
      obtain ⟨-, htimer, hxfer, hstate⟩ | ⟨-, ht, hx⟩ := setup_tcp_port_session hsetup
      · exact .inl ⟨htimer, hxfer, hstate⟩
      · exact .inr ⟨by rw [ht]; exact fun h => PortState.noConfusion h,
          by rw [hx]; exact fun h => PortState.noConfusion h⟩

lemma handle_initial_UDP_port_read_session {inuse peek shut : Bool} {c : SetupCalls} {r : TcpRead}
    (h : p.handle_initial_UDP_port_read inuse peek c r k = some (k', p', shut)) :
    SameSession p p' ∨
    p'.tcp_to_dev_state ≠ .unconnected ∧ p'.xfer.dev_to_tcp_state ≠ .unconnected := by
  simp only [handle_initial_UDP_port_read] at h
  split at h
  · cases h
    exact .inl ⟨rfl, rfl, rfl⟩
  · split at h
    · cases h
      exact .inl ⟨rfl, rfl, rfl⟩
    · obtain ⟨⟨k₁, p₁, ok⟩, hsetup, hrest⟩ := Option.bind_eq_some_iff.mp h
      obtain ⟨rfl, htimer, hxfer, hstate⟩ | ⟨rfl, ht, hx⟩ := setup_net_port2_session hsetup
      · cases hrest
        exact .inl ⟨htimer, hxfer, hstate⟩
      · exact .inr (handle_tcp_fd_read_connected
          (by rw [ht]; exact fun h => PortState.noConfusion h)
          (by rw [hx]; exact fun h => PortState.noConfusion h) hrest)

/-- A reload leaves the session alone, or puts a record that has none in its place. -/
lemma portconfig_session {c : Config} {calls : SocketCalls}
    (h : p.portconfig c calls k = some (k', p')) : SameSession p p' ∨ SameSession c.port p' := by
  simp only [portconfig] at h
  split at h
  · obtain ⟨⟨k₁, p₁, rv⟩, hchange, hrest⟩ := Option.bind_eq_some_iff.mp h
    cases hrest
    obtain ⟨htimer, hxfer, hstate⟩ := change_port_state_session hchange
    exact .inr ⟨htimer, hxfer, hstate⟩
  · cases h
    refine .inl ?_
    constructor <;> simp only <;> split <;> rfl

/-- An event that does not call `shutdown_port`. -/
lemma handle_timed {inuse : Bool} {e : PortEvent} (hp : p.Timed)
    (h : p.handle inuse k e = some (k', p', false)) : p'.Timed := by
  have hsame : some (k, p, false) = some (k', p', false) → p'.Timed := by
    intro h
    cases h
    exact hp
  cases e with
  | accept_read accept c =>
    simp only [handle] at h
    split at h
    case isFalse => exact hsame h
    case isTrue =>
      obtain ⟨⟨k₁, p₁⟩, haccept, hrest⟩ := Option.bind_eq_some_iff.mp h
      cases hrest
      obtain hsession | ⟨ht, hx⟩ := handle_accept_port_read_session haccept
      · exact hsession.timed hp
      · exact timed_of_connected hx ht
  | initial_UDP_read peek c r =>
    simp only [handle] at h
    split at h
    case isFalse => exact hsame h
    case isTrue =>
      obtain hsession | ⟨ht, hx⟩ := handle_initial_UDP_port_read_session h
      · exact hsession.timed hp
      · exact timed_of_connected hx ht
  | transfer e =>
    by_cases hidle : p.tcp_to_dev_state = .unconnected
    · exact (transfer_idle hp hidle h).timed hp
    · exact transfer_connected (hp.connected hidle) hidle h
  | tcp_read r =>
    simp only [handle] at h
    split at h
    case isFalse => exact hsame h
    case isTrue hstate =>
      have ht : p.tcp_to_dev_state ≠ .unconnected := by
        rw [hstate]
        exact fun h => PortState.noConfusion h
      obtain ⟨ht', hx'⟩ := handle_tcp_fd_read_connected ht (hp.connected ht) h
      exact timed_of_connected hx' ht'
  | dev_write w =>
    simp only [handle] at h
    split at h
    case isFalse => exact hsame h
    case isTrue hstate =>
      have ht : p.tcp_to_dev_state ≠ .unconnected := by
        rw [hstate]
        exact fun h => PortState.noConfusion h
      obtain ⟨ht', hx'⟩ := handle_dev_fd_write_connected ht (hp.connected ht) (Option.some.inj h)
      exact timed_of_connected hx' ht'
  | except =>
    simp only [handle, Option.some.injEq, Prod.mk.injEq] at h
    exact h.2.1 ▸ hp
  | timeout replies =>
    simp only [handle] at h
    split at h
    case isFalse => exact hsame h
    case isTrue htimer =>
      have ht : p.tcp_to_dev_state ≠ .unconnected := by
        intro hidle
        exact absurd ((hp.idle hidle).1.symm.trans htimer) (by decide)
      have hx := hp.connected ht
      obtain ⟨ht', hx'⟩ := got_timeout_state (Option.some.inj h)
      exact timed_of_connected (hx' ▸ hx) (ht' ▸ ht)
  | disconnect =>
    simp only [handle, Option.some.injEq, Prod.mk.injEq] at h
    exact h.2.1 ▸ hp
  | setportenable state calls =>
    obtain ⟨⟨k₁, p₁, rv⟩, hchange, hrest⟩ := Option.bind_eq_some_iff.mp h
    cases hrest
    exact (change_port_state_session hchange).timed hp
  | portconfig c calls =>
    obtain ⟨⟨k₁, p₁⟩, hconfig, hrest⟩ := Option.bind_eq_some_iff.mp h
    cases hrest
    obtain hsession | hsession := portconfig_session hconfig
    · exact hsession.timed hp
    · exact hsession.timed (timed_port c)

/-- A port that has been added. -/
lemma start_timed {c : Config} {calls : SocketCalls} {r : Kernel × Option PortInfo}
    (h : c.start calls k = some r) (hr : r.2 = some p') : p'.Timed := by
  rw [Config.start] at h
  split at h
  · cases h
    cases hr
    exact timed_port c
  · obtain ⟨⟨k₁, p₁, rv⟩, hstart, hrest⟩ := Option.bind_eq_some_iff.mp h
    simp only [Option.some.injEq] at hrest
    rw [← hrest] at hr
    split at hr
    · cases hr
      exact (startup_port_session hstart).timed (timed_port c)
    · cases hr

end PortInfo

/-! ## A run -/

namespace MainLoop

variable {N : Type*} [DecidableEq N] {s s' : MainLoop N} {e : LoopEvent N} {name : N}
  {p : PortInfo} {k : Kernel}

/-- The condition on a step: `shutdown_port` is called when the timer for the age is not in the
heap, or the record goes away with the session. -/
def StopsAge (s : MainLoop N) (e : LoopEvent N) : Prop :=
  ∀ name e' p k' p', e = .port name e' → s.ports.lookup name = some p →
    p.handle (s.is_device_already_inuse name p) s.k e' = some (k', p', true) →
    p'.xfer.age = false ∨ p'.config_num = none ∨ p'.new_config ≠ none

/-- A step of the main loop. -/
lemma timed_step (hs : ∀ n p, s.ports.lookup n = some p → p.Timed) (hok : s.StopsAge e)
    (h : s.step e = some s') : ∀ n p, s'.ports.lookup n = some p → p.Timed := by
  -- it is enough to look at the port that the event is about
  have hset : ∀ name r, (∀ p, r.2 = some p → p.Timed) →
      ∀ n p, (s.set name r).ports.lookup n = some p → p.Timed := by
    intro name r hr n p hp
    by_cases hn : n = name
    · rw [hn, lookup_set] at hp
      exact hr p hp
    · rw [lookup_set_of_ne hn] at hp
      exact hs n p hp
  obtain rfl | ⟨name, e', p, r, he, hp, hr, rfl⟩ | ⟨name, c, calls, r, -, -, hr, rfl⟩ |
    ⟨name, n, p, -, hp, rfl⟩ := step_cases h
  · exact hs
  · refine hset name r fun p' hp' => ?_
    obtain ⟨⟨k₁, p₁, shut⟩, hhandle, hfinish⟩ := Option.map_eq_some_iff.mp hr
    cases shut with
    | false =>
      cases hfinish
      cases hp'
      exact PortInfo.handle_timed (hs name p hp) hhandle
    | true =>
      have hshut : p₁.shutdown_port k₁ = (r.1, some p') := by
        show PortInfo.finish (k₁, p₁, true) = (r.1, some p')
        rw [hfinish, ← hp']
      exact PortInfo.shutdown_port_timed (hok name e' p k₁ p₁ he hp hhandle) hshut
  · exact hset name r fun p' hp' => PortInfo.start_timed hr hp'
  · refine hset name _ fun p' hp' => ?_
    simp only [PortInfo.clear_old_port_config] at hp'
    split_ifs at hp' <;> cases hp'
    · exact hs name p hp
    · exact PortInfo.SameSession.timed (p := p) ⟨rfl, rfl, rfl⟩ (hs name p hp)

/-- In every run in which the timer for the age is not in the heap whenever `shutdown_port` is
called, or the record goes away with the session, no timer of a port without a session is in the
heap. -/
theorem no_timer_without_session (h : Reach step StopsAge (init k) s)
    (hp : s.ports.lookup name = some p) (hidle : p.xfer.dev_to_tcp_state = .unconnected) :
    p.timer = false ∧ p.xfer.age = false := by
  have hinv : ∀ n p, s.ports.lookup n = some p → p.Timed := by
    refine h.induction_on (P := fun s => ∀ n p, s.ports.lookup n = some p → p.Timed) ?_
      fun s e s' hs hok h => timed_step hs hok h
    intro n p hp
    cases hp
  have htimed := hinv name p hp
  obtain ⟨htimer, hage, -⟩ := htimed.idle (htimed.both.mp hidle)
  exact ⟨htimer, hage⟩

lemma stopsAge_port {e : PortEvent} {k' : Kernel} {p' : PortInfo} {shut : Bool}
    (hp : s.ports.lookup name = some p)
    (hhandle : p.handle (s.is_device_already_inuse name p) s.k e = some (k', p', shut))
    (h : shut = true → p'.xfer.age = false) : s.StopsAge (.port name e) := by
  rintro name' e' q k₁ q₁ he hq hh
  cases he
  cases hp.symm.trans hq
  cases hhandle.symm.trans hh
  exact .inl (h rfl)

lemma stopsAge_new_port {c : Config} {calls : SocketCalls} :
    s.StopsAge (.new_port name c calls) := by
  rintro name' e' q k₁ q₁ he
  cases he

/-- A port starts up, is connected, reads a byte that waits until it is old enough, and the
session is ended by a command after that. -/
theorem no_timer_without_session_aged :
    ∃ (s : MainLoop ℕ) (p : PortInfo), Reach step StopsAge (init .empty) s ∧
      s.ports.lookup 2000 = some p ∧ p.xfer.received = [65] ∧ p.xfer.sent = [65] ∧
      p.xfer.dev_to_tcp_state = .unconnected ∧ p.timer = false ∧ p.xfer.age = false := by
  have hrun : ∃ (s : MainLoop ℕ) (p : PortInfo), Reach step StopsAge (init .empty) s ∧
      s.ports.lookup 2000 = some p ∧ p.xfer.received = [65] ∧ p.xfer.sent = [65] ∧
      p.xfer.dev_to_tcp_state = .unconnected := by
    refine ⟨_, _, ((((Reach.init.step (e := .new_port 2000
      { enabled := .raw, timeout := 0, devname := [],
        dinfo := { shortest := 5, maxAge := true, disablebreak := false }, config_num := 1 }
      { socket := some 3, fcntl := true, setsockopt := true, bind := true, listen := true })
      stopsAge_new_port rfl).step (e := .port 2000 (.accept_read (some 4)
        { setsockopt := true, hosts_access := true, fcntl := true,
          lock := { dir := true, dead := false, create := true }, devfd := some 5,
          tcsetattr := true, banner := [] }))
      (stopsAge_port rfl rfl (fun h => Bool.noConfusion h)) rfl).step
      (e := .port 2000 (.transfer (.dev_read (some [65]) [])))
      (stopsAge_port rfl rfl (fun h => Bool.noConfusion h)) rfl).step
      (e := .port 2000 (.transfer (.aged [.accepted 1])))
      (stopsAge_port rfl rfl (fun h => Bool.noConfusion h)) rfl).step
      (e := .port 2000 .disconnect) (stopsAge_port rfl rfl (fun _ => rfl)) rfl,
      rfl, rfl, rfl, rfl⟩
  obtain ⟨s, p, hreach, hp, hreceived, hsent, hidle⟩ := hrun
  exact ⟨s, p, hreach, hp, hreceived, hsent, hidle, no_timer_without_session hreach hp hidle⟩

/-- When the command comes while the byte waits, the timer is left in the heap. -/
theorem timer_without_session :
    ∃ (s : MainLoop ℕ) (p : PortInfo), replay step (init .empty)
      [.new_port 2000
        { enabled := .raw, timeout := 0, devname := [],
          dinfo := { shortest := 5, maxAge := true, disablebreak := false }, config_num := 1 }
        { socket := some 3, fcntl := true, setsockopt := true, bind := true, listen := true },
      .port 2000 (.accept_read (some 4)
        { setsockopt := true, hosts_access := true, fcntl := true,
          lock := { dir := true, dead := false, create := true }, devfd := some 5,
          tcsetattr := true, banner := [] }),
      .port 2000 (.transfer (.dev_read (some [65]) [])),
      .port 2000 .disconnect] = some s ∧
      s.ports.lookup 2000 = some p ∧ p.xfer.dev_to_tcp_state = .unconnected ∧
      p.xfer.age = true := by
  exact ⟨_, _, rfl, rfl, rfl, rfl⟩

end MainLoop

end EspLinux.Ser2net
