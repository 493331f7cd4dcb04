import EspLinux.Ser2net.Setup

/-!
# Sessions

What the events of a session do to the record of the port: they move data, and leave the mode,
the device, the descriptors and what is to be done when the session ends alone
(`handle_sameEnds`).  They do not look at the latter either (`handle_withConfig`).
-/

namespace EspLinux.Ser2net

open EspLinux.Lib

/-- The events of a session: everything but the clients that come, the commands that change the
mode and the reloads. -/
def PortEvent.io : PortEvent → Bool
  | .transfer _ => true
  | .tcp_read _ => true
  | .dev_write _ => true
  | .except => true
  | .timeout _ => true
  | .disconnect => true
  | .accept_read _ _ => false
  | .initial_UDP_read _ _ _ => false
  | .setportenable _ _ => false
  | .portconfig _ _ => false

namespace PortInfo

/-- Both directions are connected. -/
structure Connected (p : PortInfo) : Prop where
  tcp_to_dev : p.tcp_to_dev_state ≠ .unconnected
  dev_to_tcp : p.xfer.dev_to_tcp_state ≠ .unconnected

/-- At most it changes whether the selector waits for the connection. -/
def SameFiles (p : PortInfo) (k k' : Kernel) : Prop :=
  ∃ state, k' = k ∨ k' = k.sel_set_fd_read_handler p.tcpfd state

variable {p p' : PortInfo} {k k' : Kernel} {e : PortEvent} {inuse shut : Bool} {n : ℕ}

lemma SameFiles.refl : SameFiles p k k := ⟨true, .inl rfl⟩

lemma SameFiles.file (h : SameFiles p k k') (n : ℕ) : (k'.fds n).file = (k.fds n).file := by
  obtain ⟨state, rfl | rfl⟩ := h
  · rfl
  · by_cases hn : p.tcpfd = some n
    · rw [hn, Kernel.sel_set_fd_read_handler, Kernel.modify_self]
    · rw [Kernel.sel_set_fd_read_handler, Kernel.modify_of_ne hn]

lemma SameFiles.handle_read (h : SameFiles p k k') (n : ℕ) :
    (k'.fds n).handle_read = (k.fds n).handle_read := by
  obtain ⟨state, rfl | rfl⟩ := h
  · rfl
  · by_cases hn : p.tcpfd = some n
    · rw [hn, Kernel.sel_set_fd_read_handler, Kernel.modify_self]
    · rw [Kernel.sel_set_fd_read_handler, Kernel.modify_of_ne hn]

lemma SameFiles.fds (h : SameFiles p k k') (hn : p.tcpfd ≠ some n) : k'.fds n = k.fds n := by
  obtain ⟨state, rfl | rfl⟩ := h
  · rfl
  · exact Kernel.modify_of_ne hn

lemma telnet_read_sameEnds {r : TcpRead} {data : List UInt8} :
    SameEnds p (p.telnet_read r data) := by
  rw [telnet_read]
  split <;> exact ⟨rfl, rfl, rfl, rfl, rfl, rfl, rfl, rfl, rfl⟩

lemma handle_tcp_fd_read_sameEnds {r : TcpRead}
    (h : p.handle_tcp_fd_read r k = some (k', p', shut)) : SameEnds p p' ∧ SameFiles p k k' := by
  simp only [handle_tcp_fd_read] at h
  split at h
  · cases h
    exact ⟨⟨rfl, rfl, rfl, rfl, rfl, rfl, rfl, rfl, rfl⟩, .refl⟩
  · cases h
    exact ⟨⟨rfl, rfl, rfl, rfl, rfl, rfl, rfl, rfl, rfl⟩, .refl⟩
  · rename_i b l _
    have hsame := @telnet_read_sameEnds p r (b :: l)
    obtain ⟨q, hq⟩ : ∃ q, q = p.telnet_read r (b :: l) := ⟨_, rfl⟩
    rw [← hq] at h hsame
    split at h
    · cases h
      exact ⟨hsame, .refl⟩
    · split at h
      · cases h
        exact ⟨hsame, .refl⟩
      · obtain ⟨henabled, hdevname, hdinfo, hacceptfd, htcpfd, hdevfd, hnum, hconfig, hstarted⟩ := hsame
        obtain ⟨w, -, hw⟩ := Option.bind_eq_some_iff.mp h
        split_ifs at hw <;> cases hw
        · exact ⟨⟨henabled, hdevname, hdinfo, hacceptfd, htcpfd, hdevfd, hnum, hconfig, hstarted⟩, .refl⟩
        · exact ⟨⟨henabled, hdevname, hdinfo, hacceptfd, htcpfd, hdevfd, hnum, hconfig, hstarted⟩,
            false, .inr (by rw [← htcpfd])⟩
        · exact ⟨⟨henabled, hdevname, hdinfo, hacceptfd, htcpfd, hdevfd, hnum, hconfig, hstarted⟩, .refl⟩

lemma handle_dev_fd_write_sameEnds {w : Wrote} (h : p.handle_dev_fd_write w k = (k', p', shut)) :
    SameEnds p p' ∧ SameFiles p k k' := by
  simp only [handle_dev_fd_write] at h
  split at h
  case h_5 =>
    split at h <;> cases h
    · exact ⟨⟨rfl, rfl, rfl, rfl, rfl, rfl, rfl, rfl, rfl⟩, .refl⟩
    · exact ⟨⟨rfl, rfl, rfl, rfl, rfl, rfl, rfl, rfl, rfl⟩, true, .inr rfl⟩
  all_goals
    cases h
    exact ⟨⟨rfl, rfl, rfl, rfl, rfl, rfl, rfl, rfl, rfl⟩, .refl⟩

lemma transfer_sameEnds {e : Event} (h : p.transfer e k = some (k', p', shut)) :
    SameEnds p p' ∧ SameFiles p k k' := by
  obtain ⟨x, -, hrest⟩ := Option.bind_eq_some_iff.mp h
  simp only [Option.some.injEq, Prod.mk.injEq] at hrest
  obtain ⟨rfl, rfl, -⟩ := hrest
  refine ⟨?_, .refl⟩
  split <;> exact ⟨rfl, rfl, rfl, rfl, rfl, rfl, rfl, rfl, rfl⟩

lemma got_timeout_sameEnds {replies : List UInt8} (h : p.got_timeout replies k = (k', p', shut)) :
    SameEnds p p' ∧ SameFiles p k k' := by
  simp only [got_timeout] at h
  split_ifs at h <;> cases h <;> exact ⟨⟨rfl, rfl, rfl, rfl, rfl, rfl, rfl, rfl, rfl⟩, .refl⟩

/-- An event of a session changes neither what it is between nor what is done when it ends. -/
lemma handle_sameEnds (he : e.io = true) (h : p.handle inuse k e = some (k', p', shut)) :
    SameEnds p p' ∧ SameFiles p k k' := by
  have hsame : some (k, p, false) = some (k', p', shut) → SameEnds p p' ∧ SameFiles p k k' := by
    intro h
    cases h
    exact ⟨.refl, .refl⟩
  cases e with
  | accept_read accept c => cases he
  | initial_UDP_read peek c r => cases he
  | setportenable state calls => cases he
  | portconfig c calls => cases he
  | transfer e => exact transfer_sameEnds h
  | tcp_read r =>
    simp only [handle] at h
    split at h
    · exact handle_tcp_fd_read_sameEnds h
    · exact hsame h
  | dev_write w =>
    simp only [handle] at h
    split at h
    · exact handle_dev_fd_write_sameEnds (Option.some.inj h)
    · exact hsame h
  | except =>
    cases h
    exact ⟨.refl, .refl⟩
  | timeout replies =>
    simp only [handle] at h
    split at h
    · exact got_timeout_sameEnds (Option.some.inj h)
    · exact hsame h
  | disconnect =>
    cases h
    exact ⟨.refl, .refl⟩

/-- An event of a session that does not end it. -/
lemma handle_connected (he : e.io = true) (hp : p.Connected)
    (h : p.handle inuse k e = some (k', p', false)) : p'.Connected := by
  have hsame : some (k, p, false) = some (k', p', false) → p'.Connected := by
    intro h
    cases h
    exact hp
  cases e with
  | accept_read accept c => cases he
  | initial_UDP_read peek c r => cases he
  | setportenable state calls => cases he
  | portconfig c calls => cases he
  | transfer e =>
    obtain ⟨x, hstep, hrest⟩ := Option.bind_eq_some_iff.mp h
    simp only [Option.some.injEq, Prod.mk.injEq] at hrest
    obtain ⟨-, hp', hshuts⟩ := hrest
    have hx := step_connected hp.dev_to_tcp hstep hshuts
    rw [← hp']
    split <;> exact ⟨hp.tcp_to_dev, hx⟩
  | tcp_read r =>
    simp only [handle] at h
    split at h
    · obtain ⟨ht, hx⟩ := handle_tcp_fd_read_connected hp.tcp_to_dev hp.dev_to_tcp h
      exact ⟨ht, hx⟩
    · exact hsame h
  | dev_write w =>
    simp only [handle] at h
    split at h
    · obtain ⟨ht, hx⟩ :=
        handle_dev_fd_write_connected hp.tcp_to_dev hp.dev_to_tcp (Option.some.inj h)
      exact ⟨ht, hx⟩
    · exact hsame h
  | except =>
    simp only [handle, Option.some.injEq, Prod.mk.injEq] at h
    exact h.2.1 ▸ hp
  | timeout replies =>
    simp only [handle] at h
    split at h
    · obtain ⟨ht, hx⟩ := got_timeout_state (Option.some.inj h)
      exact ⟨ht ▸ hp.tcp_to_dev, hx ▸ hp.dev_to_tcp⟩
    · exact hsame h
  | disconnect =>
    simp only [handle, Option.some.injEq, Prod.mk.injEq] at h
    exact h.2.1 ▸ hp

/-! ## The start of a session -/

/-- A set-up that succeeds opens the device and gives the descriptor of the connection to the
handlers of the session. -/
lemma setup_net_port2_succeeds {c : SetupCalls}
    (h : p.setup_net_port2 c k = some (k', p', true)) :
    ∃ d, (k.fds d).file = none ∧ SameEnds { p with devfd := some d } p' ∧ p'.Connected ∧
      (k'.fds d).file = some .device ∧ (∀ n, n ≠ d → (k'.fds n).file = (k.fds n).file) ∧
      (∀ n, n ≠ d → p.tcpfd ≠ some n → k'.fds n = k.fds n) ∧
      ∀ n, p.tcpfd = some n → (k'.fds n).handle_read = some .handle_tcp_fd_read := by
  simp only [setup_net_port2] at h
  split at h
  · cases h
  · split at h
    · cases h
    · split at h
      · cases h
      · rename_i d _
        obtain ⟨k₁, hdev, hopened⟩ := Option.bind_eq_some_iff.mp h
        obtain ⟨hfree, hk₁⟩ := Kernel.open_fd_eq_some hdev
        rw [uucp_mk_lock_fds] at hfree
        have hother : ∀ n, n ≠ d → k₁.fds n = k.fds n := by
          intro n hn
          rw [hk₁, Kernel.modify_of_ne (by simpa using hn.symm), uucp_mk_lock_fds]
        split at hopened
        · cases hopened
        · cases hopened
          refine ⟨d, hfree, ⟨rfl, rfl, rfl, rfl, rfl, rfl, rfl, rfl, rfl⟩,
            ⟨fun h => PortState.noConfusion h, fun h => PortState.noConfusion h⟩, ?_,
            fun n hn => ?_, fun n hn htcpfd => ?_, fun n hn => ?_⟩
          · simp only [Kernel.sel_set_fd_read_handler_file, Kernel.sel_set_fd_handlers_file, hk₁,
              Kernel.modify_self]
          · simp only [Kernel.sel_set_fd_read_handler_file, Kernel.sel_set_fd_handlers_file]
            rw [hother n hn]
          · rw [Kernel.sel_set_fd_read_handler, Kernel.modify_of_ne htcpfd,
              Kernel.sel_set_fd_handlers, Kernel.modify_of_ne htcpfd, Kernel.sel_set_fd_handlers,
              Kernel.modify_of_ne (by simpa using hn.symm), hother n hn]
          · rw [hn, Kernel.sel_set_fd_read_handler, Kernel.modify_self, Kernel.sel_set_fd_handlers,
              Kernel.modify_self]

/-! ## What is done when the session ends -/

/-- The record with something else to be done when the session ends. -/
def withConfig (n : Option ℕ) (c : Option Config) (p : PortInfo) : PortInfo :=
  { p with config_num := n, new_config := c }

variable {m : Option ℕ} {c : Option Config}

lemma telnet_read_withConfig {r : TcpRead} {data : List UInt8} :
    (p.withConfig m c).telnet_read r data = (p.telnet_read r data).withConfig m c := by
  by_cases hm : p.enabled = .telnet
  · simp only [telnet_read, withConfig, hm, if_true]
  · simp only [telnet_read, withConfig, hm, if_false]

lemma handle_tcp_fd_read_withConfig {r : TcpRead} :
    (p.withConfig m c).handle_tcp_fd_read r k =
      (p.handle_tcp_fd_read r k).map fun x => (x.1, x.2.1.withConfig m c, x.2.2) := by
  simp only [handle_tcp_fd_read]
  split
  · rfl
  · rfl
  · rename_i b l _
    rw [telnet_read_withConfig]
    obtain ⟨q, hq⟩ : ∃ q, q = p.telnet_read r (b :: l) := ⟨_, rfl⟩
    rw [← hq]
    have henabled : (q.withConfig m c).enabled = q.enabled := rfl
    have hbuf : (q.withConfig m c).tcp_to_dev_buf = q.tcp_to_dev_buf := rfl
    rw [henabled, hbuf]
    split
    · rfl
    · split
      · rfl
      · cases answer r.writes with
        | none => rfl
        | some w =>
          simp only [Option.bind_eq_bind, Option.bind_some]
          split_ifs <;> rfl

lemma handle_dev_fd_write_withConfig {w : Wrote} :
    (p.withConfig m c).handle_dev_fd_write w k =
      let x := p.handle_dev_fd_write w k
      (x.1, x.2.1.withConfig m c, x.2.2) := by
  cases w with
  | accepted n =>
    simp only [handle_dev_fd_write]
    have hbuf : (p.withConfig m c).tcp_to_dev_buf = p.tcp_to_dev_buf := rfl
    rw [hbuf]
    split <;> rfl
  | EINTR => rfl
  | EAGAIN => rfl
  | EPIPE => rfl
  | error => rfl

lemma transfer_withConfig {e : Event} :
    (p.withConfig m c).transfer e k =
      (p.transfer e k).map fun x => (x.1, x.2.1.withConfig m c, x.2.2) := by
  have hresets : (p.withConfig m c).resets e = p.resets e := by cases e <;> rfl
  have hshuts : (p.withConfig m c).shuts e = p.shuts e := by cases e <;> rfl
  have hstep : (p.withConfig m c).xfer.step (p.withConfig m c).settings e =
      p.xfer.step p.settings e := rfl
  rw [transfer, transfer, hresets, hshuts, hstep]
  cases p.xfer.step p.settings e with
  | none => rfl
  | some x =>
    simp only [Option.bind_eq_bind, Option.bind_some, Option.map_some]
    split <;> rfl

lemma got_timeout_withConfig {replies : List UInt8} :
    (p.withConfig m c).got_timeout replies k =
      let x := p.got_timeout replies k
      (x.1, x.2.1.withConfig m c, x.2.2) := by
  by_cases ht : p.timeout = 0
  · simp [got_timeout, withConfig, ht]
  · by_cases hleft : p.timeout_left - 1 < 0
    · simp [got_timeout, withConfig, ht, hleft]
    · simp [got_timeout, withConfig, ht, hleft]

/-- The events of a session do not look at what is done when it ends. -/
lemma handle_withConfig (he : e.io = true) :
    (p.withConfig m c).handle inuse k e =
      (p.handle inuse k e).map fun x => (x.1, x.2.1.withConfig m c, x.2.2) := by
  cases e with
  | accept_read accept c => cases he
  | initial_UDP_read peek c r => cases he
  | setportenable state calls => cases he
  | portconfig c calls => cases he
  | transfer e => exact transfer_withConfig
  | tcp_read r =>
    simp only [handle]
    have hstate : (p.withConfig m c).tcp_to_dev_state = p.tcp_to_dev_state := rfl
    rw [hstate]
    split
    · exact handle_tcp_fd_read_withConfig
    · rfl
  | dev_write w =>
    simp only [handle]
    have hstate : (p.withConfig m c).tcp_to_dev_state = p.tcp_to_dev_state := rfl
    rw [hstate, handle_dev_fd_write_withConfig]
    split <;> rfl
  | except => rfl
  | timeout replies =>
    simp only [handle]
    have htimer : (p.withConfig m c).timer = p.timer := rfl
    rw [htimer, got_timeout_withConfig]
    split <;> rfl
  | disconnect => rfl

end PortInfo

end EspLinux.Ser2net
