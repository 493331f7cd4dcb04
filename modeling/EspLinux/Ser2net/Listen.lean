import EspLinux.Lib.Shared
import EspLinux.Ser2net.Reload

/-!
# The mode and the socket of a port

The accept descriptor should be a datagram socket on a UDP port and a listening stream socket on
the others, with the read handler of the mode, and -1 if the port is off or could not be started.
`startup_port` opens the socket for the mode that the port has, and several paths change the mode
without it, or before they have stored the new one: `change_port_state` calls it first, it does
not call it when a port that is on goes to another mode, and `shutdown_port` installs a new
configuration without looking at its mode.  `startup_port` itself leaves the number of a closed
descriptor behind when a call after `socket` fails.

The ports share the table of descriptors (`EspLinux.Lib.Family`).  In every run whose steps stay
away from these paths the mode and the socket of every port agree
(`mode_and_socket_agree`).
-/

namespace EspLinux.Ser2net

open EspLinux.Lib

/-- Everything that `setup_net_port2` calls on a port with the device succeeds. -/
structure SetupCalls.Succeeds (c : SetupCalls) (p : PortInfo) (k : Kernel) : Prop where
  fcntl : c.fcntl = true
  lock : (uucp_mk_lock p.devname c.lock k).1 = 0
  devfd : c.devfd ≠ none
  tcsetattr : p.enabled = .rawlp ∨ p.dinfo.disablebreak = true ∨ c.tcsetattr = true

/-- Everything that `startup_port` calls succeeds. -/
structure SocketCalls.Succeed (c : SocketCalls) : Prop where
  fcntl : c.fcntl = true
  setsockopt : c.setsockopt = true
  bind : c.bind = true
  listen : c.listen = true

namespace PortInfo

/-- The mode and the socket agree. -/
structure Agrees (p : PortInfo) (k : Kernel) : Prop where
  off : p.enabled = .off → p.acceptfd = none
  failed : p.started = false → p.acceptfd = none
  udp : p.enabled = .udp → ∃ a, p.acceptfd = some a ∧ (k.fds a).file = some .dgram ∧
    (p.tcp_to_dev_state = .unconnected →
      (k.fds a).handle_read = some .handle_initial_UDP_port_read ∧ (k.fds a).read_set = true)
  tcp : p.enabled = .raw ∨ p.enabled = .rawlp ∨ p.enabled = .telnet → p.started = true →
    ∃ a, p.acceptfd = some a ∧ k.fds a =
      { file := some .listening
        handle_read := some .handle_accept_port_read
        read_set := true }

/-- The read handler of the accept descriptor, which belongs to the session on a UDP port that is
connected. -/
def readHandler (p : PortInfo) : ReadHandler :=
  if p.enabled = .udp ∧ p.tcp_to_dev_state ≠ .unconnected then .handle_tcp_fd_read
  else acceptHandler p.enabled

/-- What holds of a port in these runs. -/
structure Sound (p : PortInfo) (fds : ℕ → Slot) : Prop where
  off : p.enabled = .off → p.started = false
  failed : p.started = false → p.acceptfd = none
  udp : p.enabled = .udp → p.started = true
  on : p.started = true → ∃ a, p.acceptfd = some a ∧
    (fds a).file = some (acceptKind p.enabled) ∧ (fds a).handle_read = some p.readHandler ∧
    (p.enabled ≠ .udp ∨ p.tcp_to_dev_state = .unconnected → (fds a).read_set = true)
  /-- The descriptors of a session are open and different from each other. -/
  session : p.tcp_to_dev_state ≠ .unconnected → ∃ t d, p.tcpfd = some t ∧ p.devfd = some d ∧
    (fds t).file ≠ none ∧ (fds d).file ≠ none ∧ t ≠ d ∧ p.acceptfd ≠ some d ∧
    (p.acceptfd = some t ↔ p.enabled = .udp)

/-- The descriptors that belong to the port. -/
def own (p : PortInfo) : Set ℕ :=
  {n | p.acceptfd = some n ∨
    p.tcp_to_dev_state ≠ .unconnected ∧ (p.tcpfd = some n ∨ p.devfd = some n)}

/-- The slot refers to no file. -/
def Free (s : Slot) : Prop := s.file = none

variable {p p' : PortInfo} {k k' : Kernel} {fds fds' : ℕ → Slot} {n : ℕ} {m : Mode}

lemma acceptKind_of_ne (h : m ≠ .udp) : acceptKind m = .listening := if_neg h

lemma acceptHandler_of_ne (h : m ≠ .udp) : acceptHandler m = .handle_accept_port_read := if_neg h

lemma readHandler_of_ne (h : p.enabled ≠ .udp) : p.readHandler = .handle_accept_port_read :=
  (if_neg fun hudp => h hudp.1).trans (acceptHandler_of_ne h)

lemma readHandler_idle (h : p.tcp_to_dev_state = .unconnected) :
    p.readHandler = acceptHandler p.enabled := if_neg fun hudp => hudp.2 h

lemma Sound.agrees (h : p.Sound k.fds) : p.Agrees k := by
  refine ⟨fun hm => h.failed (h.off hm), h.failed, fun hm => ?_, fun hm hstarted => ?_⟩
  · obtain ⟨a, ha, hfile, hread, hset⟩ := h.on (h.udp hm)
    refine ⟨a, ha, by rw [hfile, hm]; rfl, fun hidle => ⟨?_, hset (.inr hidle)⟩⟩
    rw [hread, readHandler_idle hidle, hm]
    rfl
  · have hne : p.enabled ≠ .udp := by
      obtain hm | hm | hm := hm <;> rw [hm] <;> exact fun h => Mode.noConfusion h
    obtain ⟨a, ha, hfile, hread, hset⟩ := h.on hstarted
    refine ⟨a, ha, ?_⟩
    rw [acceptKind_of_ne hne] at hfile
    rw [readHandler_of_ne hne] at hread
    rw [← hfile, ← hread, ← hset (.inl hne)]

/-- The port only sees its own descriptors. -/
lemma Sound.local (h : p.Sound fds) (heq : ∀ n ∈ p.own, fds' n = fds n) : p.Sound fds' := by
  refine ⟨h.off, h.failed, h.udp, fun hstarted => ?_, fun hconn => ?_⟩
  · obtain ⟨a, ha, hslot⟩ := h.on hstarted
    exact ⟨a, ha, by rw [heq a (.inl ha)]; exact hslot⟩
  · obtain ⟨t, d, ht, hd, hft, hfd, hrest⟩ := h.session hconn
    refine ⟨t, d, ht, hd, ?_, ?_, hrest⟩
    · rwa [heq t (.inr ⟨hconn, .inl ht⟩)]
    · rwa [heq d (.inr ⟨hconn, .inr hd⟩)]

/-- The descriptors of a port are open. -/
lemma Sound.used (h : p.Sound fds) : ∀ n ∈ p.own, ¬ Free (fds n) := by
  rintro n (ha | ⟨hconn, ht | hd⟩)
  · have hstarted : p.started = true := by
      cases hs : p.started with
      | true => rfl
      | false => exact absurd ((h.failed hs).symm.trans ha) (by simp)
    obtain ⟨a, ha', hfile, -⟩ := h.on hstarted
    cases ha'.symm.trans ha
    exact fun hfree => absurd (hfile.symm.trans hfree) (by simp)
  · obtain ⟨t, d, ht', -, hft, -⟩ := h.session hconn
    cases ht'.symm.trans ht
    exact hft
  · obtain ⟨t, d, -, hd', -, hfd, -⟩ := h.session hconn
    cases hd'.symm.trans hd
    exact hfd

/-- What the record says besides what the selector and the accept descriptor are about does not
matter. -/
lemma Sound.congr (h : p.Sound fds) (henabled : p'.enabled = p.enabled)
    (hstarted : p'.started = p.started) (hacceptfd : p'.acceptfd = p.acceptfd)
    (htcpfd : p'.tcpfd = p.tcpfd) (hdevfd : p'.devfd = p.devfd)
    (hidle : p'.tcp_to_dev_state = .unconnected ↔ p.tcp_to_dev_state = .unconnected) :
    p'.Sound fds := by
  have hread : p'.readHandler = p.readHandler := by
    simp only [readHandler, henabled, ne_eq, hidle]
  refine ⟨?_, ?_, ?_, ?_, ?_⟩
  · rw [henabled, hstarted]
    exact h.off
  · rw [hstarted, hacceptfd]
    exact h.failed
  · rw [henabled, hstarted]
    exact h.udp
  · rw [hstarted, hacceptfd, henabled, hread, hidle]
    exact h.on
  · rw [ne_eq, hidle, htcpfd, hdevfd, hacceptfd, henabled]
    exact h.session

lemma own_congr (hacceptfd : p'.acceptfd = p.acceptfd) (htcpfd : p'.tcpfd = p.tcpfd)
    (hdevfd : p'.devfd = p.devfd)
    (hidle : p'.tcp_to_dev_state = .unconnected ↔ p.tcp_to_dev_state = .unconnected) :
    p'.own = p.own := by
  simp only [own, hacceptfd, htcpfd, hdevfd, ne_eq, hidle]

/-! ## The events of a session -/

/-- A step of the port that keeps it sound and to its own descriptors. -/
structure Keeps (p p' : PortInfo) (k k' : Kernel) : Prop where
  sound : p'.Sound k'.fds
  frame : Frame Free k.fds k'.fds p.own p'.own

lemma Keeps.refl (h : p.Sound k.fds) : Keeps p p k k := ⟨h, .refl⟩

lemma Keeps.trans {q : PortInfo} {l : Kernel} (h : Keeps p p' k k') (h' : Keeps p' q k' l) :
    Keeps p q k l := ⟨h'.sound, h.frame.trans h'.frame⟩

/-- What there is instead of a port that had the descriptors `old`, or instead of none. -/
structure Leaves (old : Set ℕ) (q : Option PortInfo) (k k' : Kernel) : Prop where
  sound : ∀ p', q = some p' → p'.Sound k'.fds
  frame : Frame Free k.fds k'.fds old (owned own q)

lemma leaves_some {old : Set ℕ} (hs : p'.Sound k'.fds)
    (hframe : Frame Free k.fds k'.fds old p'.own) : Leaves old (some p') k k' :=
  ⟨fun _ hp' => Option.some.inj hp' ▸ hs, owned_some ▸ hframe⟩

lemma leaves_none {old : Set ℕ} (hframe : Frame Free k.fds k'.fds old ∅) :
    Leaves old none k k' := by
  refine ⟨fun p' hp' => ?_, owned_none ▸ hframe⟩
  cases hp'

lemma Keeps.leaves (h : Keeps p p' k k') : Leaves p.own (some p') k k' :=
  leaves_some h.sound h.frame

/-- While a port is not connected the events of a session leave the descriptors alone, and none
connects or disconnects a port. -/
lemma handle_io_state {inuse shut : Bool} {e : PortEvent} (he : e.io = true)
    (h : p.handle inuse k e = some (k', p', shut)) :
    (p'.tcp_to_dev_state = .unconnected ↔ p.tcp_to_dev_state = .unconnected) ∧
    (p.tcp_to_dev_state = .unconnected → k' = k) := by
  have hsame : some (k, p, false) = some (k', p', shut) →
      (p'.tcp_to_dev_state = .unconnected ↔ p.tcp_to_dev_state = .unconnected) ∧
      (p.tcp_to_dev_state = .unconnected → k' = k) := by
    intro h
    cases h
    exact ⟨.rfl, fun _ => rfl⟩
  have hconn : p.tcp_to_dev_state ≠ .unconnected → p'.tcp_to_dev_state ≠ .unconnected →
      (p'.tcp_to_dev_state = .unconnected ↔ p.tcp_to_dev_state = .unconnected) ∧
      (p.tcp_to_dev_state = .unconnected → k' = k) :=
    fun hp hp' => ⟨⟨fun h => absurd h hp', fun h => absurd h hp⟩, fun h => absurd h hp⟩
  cases e with
  | accept_read accept c => cases he
  | initial_UDP_read peek c r => cases he
  | setportenable state calls => cases he
  | portconfig c calls => cases he
  | transfer e =>
    obtain ⟨x, -, hrest⟩ := Option.bind_eq_some_iff.mp h
    simp only [Option.some.injEq, Prod.mk.injEq] at hrest
    obtain ⟨rfl, rfl, -⟩ := hrest
    refine ⟨?_, fun _ => rfl⟩
    split <;> rfl
  | tcp_read r =>
    simp only [handle] at h
    split at h
    case isFalse => exact hsame h
    case isTrue hstate =>
      have ht : p.tcp_to_dev_state ≠ .unconnected := by
        rw [hstate]
        exact fun h => PortState.noConfusion h
      refine hconn ht ?_
      simp only [handle_tcp_fd_read] at h
      split at h
      · cases h
        exact ht
      · cases h
        exact ht
      · rename_i b l _
        have ht' := (@telnet_read_state p r (b :: l)).1.symm ▸ ht
        split at h
        · cases h
          exact ht'
        · split at h
          · cases h
            exact ht'
          · obtain ⟨w, -, hw⟩ := Option.bind_eq_some_iff.mp h
            split_ifs at hw <;> cases hw
            · exact ht'
            · exact fun h => PortState.noConfusion h
            · exact ht'
  | dev_write w =>
    simp only [handle] at h
    split at h
    case isFalse => exact hsame h
    case isTrue hstate =>
      have ht : p.tcp_to_dev_state ≠ .unconnected := by
        rw [hstate]
        exact fun h => PortState.noConfusion h
      refine hconn ht ?_
      have h := Option.some.inj h
      simp only [handle_dev_fd_write] at h
      split at h
      case h_5 =>
        split at h <;> cases h
        · exact ht
        · exact fun h => PortState.noConfusion h
      all_goals
        cases h
        exact ht
  | except =>
    cases h
    exact ⟨.rfl, fun _ => rfl⟩
  | timeout replies =>
    simp only [handle] at h
    split at h
    case isFalse => exact hsame h
    case isTrue =>
      have h := Option.some.inj h
      have hstate := (got_timeout_state h).1
      refine ⟨by rw [hstate], fun _ => ?_⟩
      simp only [got_timeout] at h
      split_ifs at h <;> cases h <;> rfl
  | disconnect =>
    cases h
    exact ⟨.rfl, fun _ => rfl⟩

lemma sameFiles_keeps (hs : p.Sound k.fds) (hsame : SameEnds p p') (hfiles : SameFiles p k k')
    (hidle : p'.tcp_to_dev_state = .unconnected ↔ p.tcp_to_dev_state = .unconnected)
    (hconn : p.tcp_to_dev_state ≠ .unconnected) : Keeps p p' k k' := by
  have hrecord : p'.Sound k.fds :=
    hs.congr hsame.enabled hsame.started hsame.acceptfd hsame.tcpfd hsame.devfd hidle
  refine ⟨⟨hrecord.off, hrecord.failed, hrecord.udp, fun hstarted => ?_, fun hconn' => ?_⟩, ?_⟩
  · obtain ⟨a, ha, hfile, hread, hset⟩ := hrecord.on hstarted
    refine ⟨a, ha, by rw [hfiles.file, hfile], by rw [hfiles.handle_read, hread], fun hm => ?_⟩
    -- the accept descriptor of a session that is not a UDP one is not that of the connection
    have hudp : p.enabled ≠ .udp := by
      rw [← hsame.enabled]
      exact hm.resolve_right fun h => hconn (hidle.mp h)
    obtain ⟨t, d, ht, -, -, -, -, -, haccept⟩ := hs.session hconn
    have hne : p.tcpfd ≠ some a := by
      intro heq
      refine hudp (haccept.mp ?_)
      rw [← hsame.acceptfd, ha, ← heq, ht]
    rw [hfiles.fds hne, hset hm]
  · obtain ⟨t, d, ht, hd, hft, hfd, hrest⟩ := hrecord.session hconn'
    exact ⟨t, d, ht, hd, by rw [hfiles.file]; exact hft, by rw [hfiles.file]; exact hfd, hrest⟩
  · rw [own_congr hsame.acceptfd hsame.tcpfd hsame.devfd hidle]
    exact ⟨fun n hn _ => hfiles.fds fun heq => hn (.inr ⟨hconn, .inl heq⟩), fun n hn => .inl hn⟩

lemma handle_io_keeps {inuse shut : Bool} {e : PortEvent} (he : e.io = true) (hs : p.Sound k.fds)
    (h : p.handle inuse k e = some (k', p', shut)) : Keeps p p' k k' := by
  obtain ⟨hsame, hfiles⟩ := handle_sameEnds he h
  obtain ⟨hidle, hkernel⟩ := handle_io_state he h
  by_cases hconn : p.tcp_to_dev_state = .unconnected
  · rw [hkernel hconn]
    refine ⟨hs.congr hsame.enabled hsame.started hsame.acceptfd hsame.tcpfd hsame.devfd hidle, ?_⟩
    rw [own_congr hsame.acceptfd hsame.tcpfd hsame.devfd hidle]
    exact .refl
  · exact sameFiles_keeps hs hsame hfiles hidle hconn

/-! ## The start of a session -/

/-- A port that is not connected owns its accept descriptor. -/
lemma own_idle (hidle : p.tcp_to_dev_state = .unconnected) : p.own = {n | p.acceptfd = some n} := by
  ext n
  simp [own, hidle]

/-- A connection that comes to a port that waits for it. -/
lemma setup_net_port2_keeps {c : SetupCalls} {t : ℕ} (hs : p.Sound k.fds)
    (hidle : p.tcp_to_dev_state = .unconnected) (ht : p.tcpfd = some t)
    (hft : (k.fds t).file ≠ none) (haccept : p.acceptfd = some t ↔ p.enabled = .udp)
    (h : p.setup_net_port2 c k = some (k', p', true)) :
    p'.Sound k'.fds ∧
    Frame Free k.fds k'.fds {n | p.acceptfd = some n ∨ n = t} p'.own := by
  obtain ⟨d, hfree, hsame, hconn, hfd, hfiles, hfds, hread⟩ := setup_net_port2_succeeds h
  have htd : t ≠ d := by
    rintro rfl
    exact hft hfree
  have hacceptd : p.acceptfd ≠ some d := by
    intro heq
    exact hs.used d (.inl heq) hfree
  refine ⟨⟨?_, ?_, ?_, fun hstarted => ?_, fun _ => ?_⟩, ?_, ?_⟩
  · rw [hsame.enabled, hsame.started]
    exact hs.off
  · rw [hsame.started, hsame.acceptfd]
    exact hs.failed
  · rw [hsame.enabled, hsame.started]
    exact hs.udp
  · rw [hsame.started] at hstarted
    obtain ⟨a, ha, hfile, hread', hset⟩ := hs.on hstarted
    have had : a ≠ d := by
      rintro rfl
      exact hacceptd ha
    refine ⟨a, hsame.acceptfd.trans ha, by rw [hfiles a had, hfile, hsame.enabled], ?_, fun hm => ?_⟩
    · by_cases hudp : p.enabled = .udp
      · have hat : p.tcpfd = some a := by rw [ht, ← haccept.mpr hudp, ha]
        rw [hread a hat, readHandler, if_pos ⟨hsame.enabled.trans hudp, hconn.tcp_to_dev⟩]
      · have hat : p.tcpfd ≠ some a := by
          rw [ht, ← ha]
          exact fun heq => hudp (haccept.mp heq.symm)
        rw [hfds a had hat, hread', readHandler_of_ne hudp,
          readHandler_of_ne (by rw [hsame.enabled]; exact hudp)]
    · have hudp : p.enabled ≠ .udp := by
        rw [← hsame.enabled]
        exact hm.resolve_right hconn.tcp_to_dev
      have hat : p.tcpfd ≠ some a := by
        rw [ht, ← ha]
        exact fun heq => hudp (haccept.mp heq.symm)
      rw [hfds a had hat]
      exact hset (.inr hidle)
  · refine ⟨t, d, hsame.tcpfd.trans ht, hsame.devfd, by rw [hfiles t htd]; exact hft, ?_, htd, ?_, ?_⟩
    · rw [hfd]
      exact Option.some_ne_none _
    · rw [hsame.acceptfd]
      exact hacceptd
    · rw [hsame.acceptfd, hsame.enabled]
      exact haccept
  · intro n hn hused
    refine hfds n ?_ ?_
    · rintro rfl
      exact hused hfree
    · rw [ht]
      rintro heq
      exact hn (.inr (Option.some.inj heq).symm)
  · rintro n (ha | ⟨-, htcp | hdev⟩)
    · exact .inl (.inl (hsame.acceptfd ▸ ha))
    · rw [hsame.tcpfd] at htcp
      exact .inl (.inr (Option.some.inj (htcp.symm.trans ht)))
    · rw [hsame.devfd] at hdev
      cases hdev
      exact .inr hfree

lemma Sound.congr_idle (h : p.Sound fds) (hidle : p.tcp_to_dev_state = .unconnected)
    (henabled : p'.enabled = p.enabled) (hstarted : p'.started = p.started)
    (hacceptfd : p'.acceptfd = p.acceptfd) (hidle' : p'.tcp_to_dev_state = .unconnected) :
    p'.Sound fds := by
  refine ⟨?_, ?_, ?_, ?_, fun hconn => absurd hidle' hconn⟩
  · rw [henabled, hstarted]
    exact h.off
  · rw [hstarted, hacceptfd]
    exact h.failed
  · rw [henabled, hstarted]
    exact h.udp
  · rw [hstarted, hacceptfd, readHandler_idle hidle', henabled]
    intro hs
    obtain ⟨a, ha, hfile, hread, hset⟩ := h.on hs
    exact ⟨a, ha, hfile, readHandler_idle hidle ▸ hread, fun _ => hset (.inr hidle)⟩

lemma setup_tcp_port_succeeds {c : SetupCalls}
    (h : p.setup_tcp_port c k = some (k', p', true)) :
    p.setup_net_port2 c k = some (k', p', true) := by
  rw [setup_tcp_port] at h
  split at h
  · cases h
  · split at h
    · cases h
    · exact h

/-- A client comes to a port whose descriptor is a listening socket. -/
lemma handle_accept_port_read_keeps {inuse : Bool} {accept : Option ℕ} {c : SetupCalls}
    (hs : p.Sound k.fds) (hm : p.enabled ≠ .udp)
    (h : p.handle_accept_port_read inuse accept c k = some (k', p')) : Keeps p p' k k' := by
  simp only [handle_accept_port_read] at h
  split at h
  case isTrue =>
    cases h
    exact .refl hs
  case isFalse hwaits =>
    have hidle : p.tcp_to_dev_state = .unconnected := by
      by_contra hconn
      exact hwaits (.inl hconn)
    split at h
    case h_1 =>
      cases h
      refine ⟨hs.congr_idle hidle rfl rfl rfl hidle, ?_⟩
      rw [own_idle (p := { p with tcpfd := none }) hidle, own_idle hidle]
      exact .refl
    case h_2 fd =>
      obtain ⟨k₁, hopen, hset⟩ := Option.bind_eq_some_iff.mp h
      obtain ⟨⟨k₂, p₂, ok⟩, hsetup, hrest⟩ := Option.bind_eq_some_iff.mp hset
      cases hrest
      obtain ⟨hfree, hk₁⟩ := Kernel.open_fd_eq_some hopen
      have hfds₁ : ∀ n, n ≠ fd → k₁.fds n = k.fds n := by
        intro n hn
        rw [hk₁, Kernel.modify_of_ne (by simpa using hn.symm)]
      have hfd₁ : (k₁.fds fd).file ≠ none := by
        rw [hk₁, Kernel.modify_self]
        exact Option.some_ne_none _
      have haccept : p.acceptfd ≠ some fd := fun heq => hs.used fd (.inl heq) hfree
      have hused : ∀ n, ¬ Free (k.fds n) → n ≠ fd := by
        rintro n hn rfl
        exact hn hfree
      cases ok with
      | false =>
        -- the descriptor of the connection has been closed again
        obtain ⟨hfds, -, hsession, hsame⟩ :=
          setup_tcp_port_fails (p := { p with tcpfd := some fd }) rfl hfd₁ hsetup
        have hidle' : p₂.tcp_to_dev_state = .unconnected := hsession.tcp_to_dev_state.trans hidle
        have hother : ∀ n, n ≠ fd → k₂.fds n = k.fds n := by
          intro n hn
          rw [hfds, Kernel.close, Kernel.modify_of_ne (by simpa using hn.symm), hfds₁ n hn]
        have hown : p₂.own = p.own := by
          rw [own_idle hidle', own_idle hidle, hsame.acceptfd]
        refine ⟨?_, fun n _ hn => hother n (hused n hn), fun n hn => .inl (hown ▸ hn)⟩
        refine (hs.congr_idle hidle hsame.enabled hsame.started hsame.acceptfd hidle').local ?_
        exact fun n hn => hother n (hused n (hs.used n (hown ▸ hn)))
      | true =>
        have hsound₁ : PortInfo.Sound { p with tcpfd := some fd } k₁.fds := by
          have hsound : PortInfo.Sound { p with tcpfd := some fd } k.fds :=
            hs.congr_idle hidle rfl rfl rfl hidle
          refine hsound.local ?_
          intro n hn
          rw [own_idle (p := { p with tcpfd := some fd }) hidle] at hn
          exact hfds₁ n (hused n (hs.used n (.inl hn)))
        obtain ⟨hsound, hframe⟩ := setup_net_port2_keeps (p := { p with tcpfd := some fd }) hsound₁
          hidle rfl hfd₁ ⟨fun heq => absurd heq haccept, fun hudp => absurd hudp hm⟩
          (setup_tcp_port_succeeds hsetup)
        refine ⟨hsound, Frame.trans ⟨fun n _ hn => hfds₁ n (hused n hn), ?_⟩ hframe⟩
        rintro n (hn | rfl)
        · exact .inl (.inl hn)
        · exact .inr hfree

lemma setup_net_port2_of_succeeds {c : SetupCalls} {ok : Bool} (hc : c.Succeeds p k)
    (h : p.setup_net_port2 c k = some (k', p', ok)) : ok = true := by
  obtain ⟨hfcntl, hlock, hdevfd, htcsetattr⟩ := hc
  obtain ⟨d, hd⟩ := Option.ne_none_iff_exists'.mp hdevfd
  simp only [setup_net_port2, hfcntl, hlock, hd] at h
  obtain ⟨k₁, -, hopened⟩ := Option.bind_eq_some_iff.mp h
  split at hopened
  case isTrue hfails =>
    obtain ⟨hm, hbreak, hset⟩ := hfails
    obtain h | h | h := htcsetattr
    · exact absurd h hm
    · simp [h] at hbreak
    · simp [h] at hset
  case isFalse =>
    cases hopened
    rfl

/-- The first datagram comes to a UDP port and the set-up succeeds. -/
lemma handle_initial_UDP_port_read_keeps {inuse peek shut : Bool} {c : SetupCalls} {r : TcpRead}
    (hs : p.Sound k.fds) (hm : p.enabled = .udp) (hidle : p.tcp_to_dev_state = .unconnected)
    (hc : inuse = false → peek = true → c.Succeeds p k)
    (h : p.handle_initial_UDP_port_read inuse peek c r k = some (k', p', shut)) :
    Keeps p p' k k' := by
  rw [handle_initial_UDP_port_read] at h
  split at h
  · cases h
    exact .refl hs
  · split at h
    · cases h
      exact .refl hs
    · rename_i hinuse hpeek
      obtain ⟨⟨k₁, p₁, ok⟩, hsetup, hrest⟩ := Option.bind_eq_some_iff.mp h
      obtain ⟨hfcntl, hlock, hdevfd, htcsetattr⟩ := hc (by simpa using hinuse) (by simpa using hpeek)
      have hok := setup_net_port2_of_succeeds (p := { p with tcpfd := p.acceptfd })
        ⟨hfcntl, hlock, hdevfd, htcsetattr⟩ hsetup
      rw [hok] at hsetup hrest
      obtain ⟨a, ha, hfile, -⟩ := hs.on (hs.udp hm)
      have hsound : PortInfo.Sound { p with tcpfd := p.acceptfd } k.fds :=
        hs.congr_idle hidle rfl rfl rfl hidle
      obtain ⟨hsound₁, hframe⟩ := setup_net_port2_keeps (t := a) hsound hidle ha
        (by rw [hfile]; exact Option.some_ne_none _) ⟨fun _ => hm, fun _ => ha⟩ hsetup
      have hkeeps : Keeps p p₁ k k₁ := by
        refine ⟨hsound₁, ?_⟩
        have hown : {n | p.acceptfd = some n ∨ n = a} = p.own := by
          rw [own_idle hidle]
          ext n
          refine ⟨fun h => ?_, .inl⟩
          obtain h | rfl := h
          · exact h
          · exact ha
        exact hown ▸ hframe
      -- the datagram is read like one of a session
      have hstate : p₁.tcp_to_dev_state = .waiting_input := by
        obtain ⟨hfalse, -⟩ | ⟨-, hstate, -⟩ := setup_net_port2_session hsetup
        · cases hfalse
        · exact hstate
      have hread : p₁.handle false k₁ (.tcp_read r) = some (k', p', shut) := by
        rw [handle, if_pos hstate]
        exact hrest
      exact hkeeps.trans (handle_io_keeps rfl hsound₁ hread)

/-! ## The mode -/

/-- What `startup_port` does: the number of the socket is a new one, and the rest of the table stays
as it is. -/
lemma startup_port_spec {calls : SocketCalls} {rv : Option String}
    (h : p.startup_port calls k = some (k', p', rv)) :
    (∀ n, calls.socket = some n → Free (k.fds n)) ∧
    (∀ n, calls.socket ≠ some n → k'.fds n = k.fds n) ∧
    (rv ≠ none ∧ p' = { p with acceptfd := calls.socket, started := false } ∨
      rv = none ∧ p' = { p with acceptfd := calls.socket, started := true } ∧
        ∃ a, calls.socket = some a ∧ (k'.fds a).file = some (acceptKind p.enabled) ∧
          (k'.fds a).handle_read = some (acceptHandler p.enabled) ∧
          (k'.fds a).read_set = true) := by
  simp only [startup_port] at h
  split at h
  · rename_i hsocket
    cases h
    exact ⟨fun n hn => by simp [hsocket] at hn, fun _ _ => rfl,
      .inl ⟨Option.some_ne_none _, by rw [hsocket]⟩⟩
  · rename_i a hsocket
    obtain ⟨k₁, hopen, hrest⟩ := Option.bind_eq_some_iff.mp h
    obtain ⟨hfree, hk₁⟩ := Kernel.open_fd_eq_some hopen
    have hother : ∀ n, calls.socket ≠ some n → k₁.fds n = k.fds n := by
      intro n hn
      rw [hk₁, Kernel.modify_of_ne (hsocket ▸ hn)]
    have hclosed : ∀ n, calls.socket ≠ some n → (k₁.close (some a)).fds n = k.fds n := by
      intro n hn
      rw [Kernel.close, Kernel.modify_of_ne (hsocket ▸ hn), hother n hn]
    have hnew : ∀ n, calls.socket = some n → Free (k.fds n) := by
      intro n hn
      cases hsocket.symm.trans hn
      exact hfree
    refine ⟨hnew, ?_⟩
    have hfails : ∀ error : String,
        some (k₁.close (some a), { p with acceptfd := some a, started := false }, some error) =
          some (k', p', rv) →
        (∀ n, calls.socket ≠ some n → k'.fds n = k.fds n) ∧
        (rv ≠ none ∧ p' = { p with acceptfd := calls.socket, started := false } ∨
          rv = none ∧ p' = { p with acceptfd := calls.socket, started := true } ∧
            ∃ a, calls.socket = some a ∧ (k'.fds a).file = some (acceptKind p.enabled) ∧
              (k'.fds a).handle_read = some (acceptHandler p.enabled) ∧
              (k'.fds a).read_set = true) := by
      intro error h
      cases h
      exact ⟨hclosed, .inl ⟨Option.some_ne_none _, by rw [hsocket]⟩⟩
    split at hrest
    · exact hfails _ hrest
    split at hrest
    · exact hfails _ hrest
    split at hrest
    · exact hfails _ hrest
    split at hrest
    · exact hfails _ hrest
    cases hrest
    refine ⟨fun n hn => ?_, .inr ⟨rfl, by rw [hsocket], a, hsocket, ?_⟩⟩
    · rw [setAcceptReadHandler, Kernel.sel_set_fd_read_handler, Kernel.modify_of_ne (hsocket ▸ hn),
        Kernel.sel_set_fd_handlers, Kernel.modify_of_ne (hsocket ▸ hn)]
      split
      · exact hother n hn
      · rw [Kernel.listen, Kernel.modify_of_ne (hsocket ▸ hn), hother n hn]
    · by_cases hm : p.enabled = .udp
      · simp only [setAcceptReadHandler, Kernel.sel_set_fd_read_handler, Kernel.sel_set_fd_handlers,
          Kernel.modify_self, acceptKind, acceptHandler, hm, if_true, hk₁, and_self]
      · simp only [setAcceptReadHandler, Kernel.sel_set_fd_read_handler, Kernel.sel_set_fd_handlers,
          Kernel.modify_self, acceptKind, acceptHandler, hm, if_false, Kernel.listen, and_self]

lemma startup_port_of_succeed {calls : SocketCalls} {rv : Option String} (hc : calls.Succeed)
    (hsocket : calls.socket ≠ none) (h : p.startup_port calls k = some (k', p', rv)) :
    rv = none := by
  obtain ⟨hfcntl, hsetsockopt, hbind, hlisten⟩ := hc
  obtain ⟨a, ha⟩ := Option.ne_none_iff_exists'.mp hsocket
  simp only [startup_port, ha, hfcntl, hsetsockopt, hbind, hlisten] at h
  obtain ⟨k₁, -, hrest⟩ := Option.bind_eq_some_iff.mp h
  simp only [Bool.not_true, Bool.false_eq_true, and_false, if_false] at hrest
  cases hrest
  rfl

/-- A change of the mode that opens and closes the socket as it should be: to off, or between the
stream modes, where the socket is opened without a failure that leaves its number behind. -/
def ChangesTo (p : PortInfo) (m : Mode) (calls : SocketCalls) : Prop :=
  m = p.enabled ∨
  m = .off ∧ (p.enabled = .udp → p.tcp_to_dev_state = .unconnected) ∨
  m ≠ .off ∧ m ≠ .udp ∧ p.enabled ≠ .udp ∧
    (p.enabled = .off → calls.socket = none ∨ calls.Succeed)

/-- `PORT_DISABLED` only concerns the accept descriptor. -/
lemma disable_fds (h : p.acceptfd ≠ some n) : (p.disable k).1.fds n = k.fds n := by
  rw [disable, Kernel.close, Kernel.modify_of_ne h, Kernel.sel_clear_fd_handlers,
    Kernel.modify_of_ne h, Kernel.sel_set_fd_read_handler, Kernel.modify_of_ne h]

lemma disable_keeps (hs : p.Sound k.fds)
    (hudp : p.enabled = .udp → p.tcp_to_dev_state = .unconnected) :
    Keeps p (p.disable k).2 k (p.disable k).1 := by
  refine ⟨⟨fun _ => rfl, fun _ => rfl, fun h => Mode.noConfusion h, fun h => Bool.noConfusion h,
    fun hconn => ?_⟩, fun n hn _ => disable_fds fun heq => hn (.inl heq), ?_⟩
  · obtain ⟨t, d, ht, hd, hft, hfd, htd, had, hat⟩ := hs.session hconn
    have hm : p.enabled ≠ .udp := fun h => hconn (hudp h)
    have hat' : p.acceptfd ≠ some t := fun h => hm (hat.mp h)
    refine ⟨t, d, ht, hd, ?_, ?_, htd, nofun, ?_⟩
    · rwa [disable_fds hat']
    · rwa [disable_fds had]
    · exact ⟨nofun, fun h => Mode.noConfusion h⟩
  · rintro n (ha | hsession)
    · cases ha
    · exact .inl (.inr hsession)

/-- A port that is off and gets a listening socket, or none. -/
lemma startup_port_keeps {calls : SocketCalls} {rv : Option String} (hs : p.Sound k.fds)
    (hoff : p.enabled = .off) (hoff' : m ≠ .off) (hudp : m ≠ .udp)
    (hc : calls.socket = none ∨ calls.Succeed) (h : p.startup_port calls k = some (k', p', rv)) :
    Keeps p { p' with enabled := m } k k' := by
  obtain ⟨hfree, hother, hrv⟩ := startup_port_spec h
  have hnew : ∀ n, ¬ Free (k.fds n) → k'.fds n = k.fds n :=
    fun n hn => hother n fun heq => hn (hfree n heq)
  have hudp' : p.enabled ≠ .udp := by
    rw [hoff]
    exact fun h => Mode.noConfusion h
  have hnone : p.acceptfd = none := hs.failed (hs.off hoff)
  -- the session of a port that has been switched off goes on
  have hsession : ∀ a, (∀ n, a = some n → Free (k.fds n)) → p.tcp_to_dev_state ≠ .unconnected →
      ∃ t d, p.tcpfd = some t ∧ p.devfd = some d ∧ (k'.fds t).file ≠ none ∧
        (k'.fds d).file ≠ none ∧ t ≠ d ∧ a ≠ some d ∧ (a = some t ↔ m = .udp) := by
    intro a ha hconn
    obtain ⟨t, d, ht, hd, hft, hfd, htd, -, -⟩ := hs.session hconn
    refine ⟨t, d, ht, hd, by rwa [hnew t hft], by rwa [hnew d hfd], htd, fun heq => hfd (ha d heq),
      fun heq => absurd (ha t heq) hft, fun heq => absurd heq hudp⟩
  have hframe : ∀ q : PortInfo, q.tcp_to_dev_state = p.tcp_to_dev_state → q.tcpfd = p.tcpfd →
      q.devfd = p.devfd → (∀ n, q.acceptfd = some n → Free (k.fds n)) →
      Frame Free k.fds k'.fds p.own q.own := by
    intro q hstate htcpfd hdevfd haccept
    refine ⟨fun n _ hn => hnew n hn, ?_⟩
    rintro n (ha | hn)
    · exact .inr (haccept n ha)
    · rw [hstate, htcpfd, hdevfd] at hn
      exact .inl (.inr hn)
  obtain ⟨hfails, rfl⟩ | ⟨-, rfl, a, ha, hfile, hread, hset⟩ := hrv
  · have hsocket : calls.socket = none := by
      by_contra hsocket
      refine hfails (startup_port_of_succeed (hc.resolve_left hsocket) hsocket h)
    refine ⟨⟨fun h => absurd h hoff', fun _ => hsocket, fun h => absurd h hudp,
      fun h => Bool.noConfusion h, hsession _ hfree⟩, hframe _ rfl rfl rfl hfree⟩
  · refine ⟨⟨fun h => absurd h hoff', fun h => Bool.noConfusion h, fun h => absurd h hudp,
      fun _ => ⟨a, ha, ?_, ?_, fun _ => hset⟩, hsession _ hfree⟩, hframe _ rfl rfl rfl hfree⟩
    · rw [hfile, acceptKind_of_ne hudp', acceptKind_of_ne hudp]
    · rw [hread, acceptHandler_of_ne hudp', readHandler_of_ne hudp]

/-- From one stream mode to another. -/
lemma stream_keeps (hs : p.Sound k.fds) (hudp : p.enabled ≠ .udp) (hoff' : m ≠ .off)
    (hudp' : m ≠ .udp) : Keeps p { p with enabled := m } k k := by
  refine ⟨⟨fun h => absurd h hoff', hs.failed, fun h => absurd h hudp', fun hstarted => ?_,
    fun hconn => ?_⟩, ⟨fun _ _ _ => rfl, fun _ h => .inl h⟩⟩
  · obtain ⟨a, ha, hfile, hread, hset⟩ := hs.on hstarted
    rw [acceptKind_of_ne hudp] at hfile
    rw [readHandler_of_ne hudp] at hread
    refine ⟨a, ha, ?_, ?_, fun _ => hset (.inl hudp)⟩
    · rw [hfile, acceptKind_of_ne hudp']
    · rw [hread, readHandler_of_ne hudp']
  · obtain ⟨t, d, ht, hd, hft, hfd, htd, had, hat⟩ := hs.session hconn
    exact ⟨t, d, ht, hd, hft, hfd, htd, had, fun h => absurd (hat.mp h) hudp,
      fun h => absurd h hudp'⟩

lemma change_port_state_keeps {calls : SocketCalls} {rv : Option String} (hs : p.Sound k.fds)
    (hm : p.ChangesTo m calls) (h : p.change_port_state m calls k = some (k', p', rv)) :
    Keeps p p' k k' := by
  rw [change_port_state] at h
  split at h
  · cases h
    exact .refl hs
  · rename_i hne
    obtain hm | ⟨rfl, hm⟩ | ⟨hoff', hudp', hudp, hc⟩ := hm
    · exact absurd hm.symm hne
    · rw [if_pos rfl] at h
      cases h
      exact disable_keeps hs hm
    · rw [if_neg hoff'] at h
      split at h
      · rename_i hoff
        obtain ⟨⟨k₁, p₁, rv₁⟩, hstart, hrest⟩ := Option.bind_eq_some_iff.mp h
        cases hrest
        exact startup_port_keeps hs hoff hoff' hudp' (hc hoff) hstart
      · cases h
        exact stream_keeps hs hudp hoff' hudp'

/-! ## Reloads -/

/-- The record that replaces one that is not connected takes over its accept descriptor. -/
lemma replace_keeps {c : Config} (hs : p.Sound k.fds) (hidle : p.tcp_to_dev_state = .unconnected)
    (hudp : m = .udp ↔ p.enabled = .udp) (hoff : m = .off → p.acceptfd = none) :
    Keeps p { c.port with enabled := m, acceptfd := p.acceptfd, started := p.started }
      k (({ c.port with enabled := m, acceptfd := p.acceptfd, started := p.started } :
        PortInfo).setAcceptReadHandler k) := by
  have hkind : acceptKind m = acceptKind p.enabled := by simp only [acceptKind, hudp]
  have hother : ∀ n, p.acceptfd ≠ some n → (({ c.port with
      enabled := m, acceptfd := p.acceptfd, started := p.started } :
        PortInfo).setAcceptReadHandler k).fds n = k.fds n := fun n hn => Kernel.modify_of_ne hn
  refine ⟨⟨fun hm => ?_, hs.failed, fun hm => hs.udp (hudp.mp hm), fun hstarted => ?_,
    fun hconn => absurd rfl hconn⟩, fun n hn _ => hother n fun heq => hn (.inl heq), ?_⟩
  · cases hstarted : p.started with
    | false => rfl
    | true =>
      obtain ⟨a, ha, -⟩ := hs.on hstarted
      exact absurd (ha.symm.trans (hoff hm)) (Option.some_ne_none a)
  · obtain ⟨a, ha, hfile, -, hset⟩ := hs.on hstarted
    refine ⟨a, ha, ?_, ?_, fun _ => ?_⟩
    · rw [setAcceptReadHandler, Kernel.sel_set_fd_handlers_file, hfile, hkind]
    · rw [setAcceptReadHandler, ha, Kernel.sel_set_fd_handlers, Kernel.modify_self,
        readHandler_idle rfl, acceptHandler]
    · rw [setAcceptReadHandler, ha, Kernel.sel_set_fd_handlers, Kernel.modify_self]
      exact hset (.inr hidle)
  · rintro n (ha | hn)
    · exact .inl (.inl ha)
    · exact absurd rfl hn.1

/-- A record that is off is freed without touching a descriptor. -/
lemma free_port_off (h : p.enabled = .off) : p.free_port k = k := if_pos h

/-- A reload of a port that is not connected. -/
lemma portconfig_idle_keeps {c : Config} {calls : SocketCalls} (hs : p.Sound k.fds)
    (hidle : p.tcp_to_dev_state = .unconnected) (hx : p.xfer.dev_to_tcp_state = .unconnected)
    (hm : p.ChangesTo c.enabled calls) (h : p.portconfig c calls k = some (k', p')) :
    Keeps p p' k k' := by
  rw [portconfig, if_pos hx] at h
  obtain ⟨⟨k₁, p₁, rv⟩, hchange, hrest⟩ := Option.bind_eq_some_iff.mp h
  cases hrest
  rw [free_port_off rfl] at hchange
  have hreplace : Keeps p
      { c.port with enabled := p.enabled, acceptfd := p.acceptfd, started := p.started }
      k (({ c.port with enabled := p.enabled, acceptfd := p.acceptfd, started := p.started } :
        PortInfo).setAcceptReadHandler k) :=
    replace_keeps hs hidle .rfl fun hoff => hs.failed (hs.off hoff)
  refine hreplace.trans (change_port_state_keeps hreplace.sound ?_ hchange)
  exact hm.imp id (.imp (fun hm => ⟨hm.1, fun _ => rfl⟩) id)

/-- The first reload of a port that is connected, or one when it is off. -/
lemma portconfig_connected_keeps {c : Config} {calls : SocketCalls} (hs : p.Sound k.fds)
    (hx : p.xfer.dev_to_tcp_state ≠ .unconnected)
    (hm : p.new_config = none ∨ p.enabled = .off)
    (h : p.portconfig c calls k = some (k', p')) : Keeps p p' k k' := by
  rw [portconfig, if_neg hx] at h
  cases h
  have henabled : (if p.new_config.isSome then { p with enabled := .off } else p).enabled =
      p.enabled := by
    split
    · rename_i hsome
      exact (hm.resolve_left fun hnone => by simp [hnone] at hsome).symm
    · rfl
  refine ⟨hs.congr henabled ?_ ?_ ?_ ?_ ?_, ?_⟩
  all_goals try (simp only; split <;> rfl)
  refine ⟨fun _ _ _ => rfl, fun n hn => .inl ?_⟩
  have hown : PortInfo.own { (if p.new_config.isSome then { p with enabled := .off } else p) with
      config_num := some c.config_num, new_config := some c } = p.own := by
    refine own_congr ?_ ?_ ?_ ?_ <;> simp only <;> split <;> rfl
  exact hown ▸ hn

/-! ## The end of a session -/

/-- The record of `shutdown_port` when the session has ended. -/
def ended (p : PortInfo) : PortInfo :=
  { p with
    timer := false
    tcp_to_dev_state := .unconnected
    tcp_to_dev_buf := []
    xfer := p.xfer.shutdown }

/-- What `shutdown_port` does to the descriptors of the session. -/
def hang_up (p : PortInfo) (k : Kernel) : Kernel :=
  let k := k.sel_clear_fd_handlers p.devfd
  let k := k.sel_clear_fd_handlers p.tcpfd
  let k :=
    if p.enabled = .udp then
      let k := k.sel_set_fd_handlers p.acceptfd (some .handle_initial_UDP_port_read)
      k.sel_set_fd_read_handler p.acceptfd true
    else k.close p.tcpfd
  uucp_rm_lock p.devname (k.close p.devfd)

lemma shutdown_port_eq :
    p.shutdown_port k =
      match p.config_num with
      | none => (p.ended.free_port (p.hang_up k), none)
      | some _ =>
        match p.new_config with
        | none => (p.hang_up k, some p.ended)
        | some c =>
          (({ p.ended with enabled := .off, acceptfd := none } : PortInfo).free_port
            (({ c.port with acceptfd := p.acceptfd, started := p.started } :
              PortInfo).setAcceptReadHandler (p.hang_up k)),
            some { c.port with acceptfd := p.acceptfd, started := p.started }) := rfl

/-- Only the descriptors of the session change, and on a UDP port one of them is the accept
descriptor. -/
lemma hang_up_fds (ht : p.tcpfd ≠ some n) (hd : p.devfd ≠ some n)
    (ha : p.enabled = .udp → p.acceptfd ≠ some n) : (p.hang_up k).fds n = k.fds n := by
  rw [hang_up, uucp_rm_lock_fds, Kernel.close, Kernel.modify_of_ne hd]
  split
  · rename_i hm
    rw [Kernel.sel_set_fd_read_handler, Kernel.modify_of_ne (ha hm), Kernel.sel_set_fd_handlers,
      Kernel.modify_of_ne (ha hm), Kernel.sel_clear_fd_handlers, Kernel.modify_of_ne ht,
      Kernel.sel_clear_fd_handlers, Kernel.modify_of_ne hd]
  · rw [Kernel.close, Kernel.modify_of_ne ht, Kernel.sel_clear_fd_handlers, Kernel.modify_of_ne ht,
      Kernel.sel_clear_fd_handlers, Kernel.modify_of_ne hd]

lemma hang_up_keeps (hs : p.Sound k.fds) (hconn : p.tcp_to_dev_state ≠ .unconnected) :
    Keeps p p.ended k (p.hang_up k) := by
  obtain ⟨t, d, ht, hd, hft, hfd, htd, had, hat⟩ := hs.session hconn
  refine ⟨⟨hs.off, hs.failed, hs.udp, fun hstarted => ?_, fun h => absurd rfl h⟩,
    fun n hn _ => ?_, ?_⟩
  · obtain ⟨a, ha, hfile, hread, hset⟩ := hs.on hstarted
    refine ⟨a, ha, ?_⟩
    have hda : p.devfd ≠ some a := by
      rw [hd, ← ha]
      exact fun heq => had heq.symm
    rw [readHandler_idle rfl]
    by_cases hm : p.enabled = .udp
    · -- the socket waits for the next datagram
      have hslot : (p.hang_up k).fds a =
          ⟨(k.fds a).file, some .handle_initial_UDP_port_read, true⟩ := by
        rw [hang_up, uucp_rm_lock_fds, Kernel.close, Kernel.modify_of_ne hda, if_pos hm, ha,
          Kernel.sel_set_fd_read_handler, Kernel.modify_self, Kernel.sel_set_fd_handlers,
          Kernel.modify_self, Kernel.sel_clear_fd_handlers_file, Kernel.sel_clear_fd_handlers_file]
      rw [hslot]
      exact ⟨hfile, by rw [show p.ended.enabled = .udp from hm]; rfl, fun _ => rfl⟩
    · have hta : p.tcpfd ≠ some a := by
        rw [ht, ← ha]
        exact fun heq => hm (hat.mp heq.symm)
      rw [hang_up_fds hta hda fun h => absurd h hm]
      refine ⟨hfile, ?_, fun _ => hset (.inl hm)⟩
      rw [hread, readHandler_of_ne hm]
      exact congrArg some (acceptHandler_of_ne hm).symm
  · exact hang_up_fds (fun heq => hn (.inr ⟨hconn, .inl heq⟩))
      (fun heq => hn (.inr ⟨hconn, .inr heq⟩)) fun _ heq => hn (.inl heq)
  · rintro n (ha | hn)
    · exact .inl (.inl ha)
    · exact absurd rfl hn.1

lemma free_port_fds (h : p.acceptfd ≠ some n) : (p.free_port k).fds n = k.fds n := by
  rw [free_port]
  split
  · rfl
  · exact disable_fds h

/-- A record that is freed takes its accept descriptor with it. -/
lemma free_port_frame : Frame Free k.fds (p.free_port k).fds p.own ∅ :=
  ⟨fun _ hn _ => free_port_fds fun heq => hn (.inl heq), fun n hn => absurd hn (Set.notMem_empty n)⟩

/-- When `shutdown_port` is called there is a session, and if there is a new configuration it needs
the same socket. -/
structure EndsWell (p : PortInfo) : Prop where
  connected : p.tcp_to_dev_state ≠ .unconnected
  udp : ∀ c, p.config_num ≠ none → p.new_config = some c →
    (c.enabled = .udp ↔ p.enabled = .udp)
  off : ∀ c, p.config_num ≠ none → p.new_config = some c → c.enabled = .off → p.acceptfd = none

lemma shutdown_port_leaves {q : Option PortInfo} (hs : p.Sound k.fds) (hends : p.EndsWell)
    (h : p.shutdown_port k = (k', q)) : Leaves p.own q k k' := by
  have hended := hang_up_keeps hs hends.connected
  rw [shutdown_port_eq] at h
  obtain ⟨k₁, hk₁⟩ : ∃ k₁, k₁ = p.hang_up k := ⟨_, rfl⟩
  rw [← hk₁] at h hended
  split at h
  · cases h
    exact leaves_none (hended.frame.trans free_port_frame)
  · rename_i hnum
    have hnum' : p.config_num ≠ none := by
      rw [hnum]
      exact Option.some_ne_none _
    split at h
    · cases h
      exact hended.leaves
    · rename_i c hconfig
      have hreplace : Keeps p.ended { c.port with acceptfd := p.acceptfd, started := p.started }
          k₁ (({ c.port with acceptfd := p.acceptfd, started := p.started } :
            PortInfo).setAcceptReadHandler k₁) :=
        replace_keeps (m := c.enabled) hended.sound rfl (hends.udp c hnum' hconfig)
          (hends.off c hnum' hconfig)
      rw [free_port_off rfl] at h
      cases h
      exact (hended.trans hreplace).leaves

/-! ## The list of the ports -/

lemma sound_port_off {c : Config} (h : c.enabled = .off) : c.port.Sound fds :=
  ⟨fun _ => rfl, fun _ => rfl, fun hm => Mode.noConfusion (h.symm.trans hm),
    fun hstarted => Bool.noConfusion hstarted, fun hconn => absurd rfl hconn⟩

/-- A port is added if it starts up.  If it does not, what has been opened is closed. -/
lemma start_leaves {c : Config} {calls : SocketCalls} {q : Option PortInfo}
    (h : c.start calls k = some (k', q)) : Leaves ∅ q k k' := by
  rw [Config.start] at h
  split at h
  · rename_i hoff
    cases h
    refine leaves_some (sound_port_off hoff) ⟨fun _ _ _ => rfl, fun n hn => ?_⟩
    rw [own_idle rfl] at hn
    cases hn
  · rename_i hon
    obtain ⟨⟨k₁, p₁, rv⟩, hstart, hrest⟩ := Option.bind_eq_some_iff.mp h
    obtain ⟨hfree, hother, hrv⟩ := startup_port_spec hstart
    have hnew : ∀ n, ¬ Free (k.fds n) → k₁.fds n = k.fds n :=
      fun n hn => hother n fun heq => hn (hfree n heq)
    obtain ⟨hfails, rfl⟩ | ⟨hok, rfl, a, ha, hfile, hread, hset⟩ := hrv
    · simp only [if_neg hfails, Option.some.injEq] at hrest
      cases hrest
      refine leaves_none ⟨fun n _ hn => ?_, fun n hn => absurd hn (Set.notMem_empty n)⟩
      rw [free_port_fds fun heq => hn (hfree n heq), hnew n hn]
    · simp only [if_pos hok, Option.some.injEq] at hrest
      cases hrest
      refine leaves_some ?_ ⟨fun n _ hn => hnew n hn, fun n hn => ?_⟩
      · refine ⟨fun hoff => absurd hoff hon, fun h => Bool.noConfusion h, fun _ => rfl,
          fun _ => ⟨a, ha, hfile, ?_, fun _ => hset⟩, fun hconn => absurd rfl hconn⟩
        rw [readHandler_idle rfl]
        exact hread
      · rw [own_idle rfl] at hn
        exact .inr (hfree n hn)

lemma clear_old_port_config_leaves {q : Option PortInfo} (hs : p.Sound k.fds)
    (h : p.clear_old_port_config n k = (k', q)) : Leaves p.own q k k' := by
  rw [clear_old_port_config] at h
  split at h
  · cases h
    exact (Keeps.refl hs).leaves
  · split at h
    · cases h
      exact leaves_none free_port_frame
    · cases h
      exact leaves_some (hs.congr rfl rfl rfl rfl rfl .rfl) ⟨fun _ _ _ => rfl, fun _ hn => .inl hn⟩

/-! ## The two directions -/

/-- A port that is connected to the device is connected to the network. -/
def Sync (p : PortInfo) : Prop :=
  p.tcp_to_dev_state ≠ .unconnected → p.xfer.dev_to_tcp_state ≠ .unconnected

lemma SameSession.sync (h : SameSession p p') (hp : p.Sync) : p'.Sync := by
  rw [Sync, h.xfer, h.tcp_to_dev_state]
  exact hp

lemma handle_sync {inuse : Bool} {e : PortEvent} (hp : p.Sync)
    (h : p.handle inuse k e = some (k', p', false)) : p'.Sync := by
  cases hio : e.io with
  | true =>
    intro hconn
    have ht : p.tcp_to_dev_state ≠ .unconnected :=
      fun hidle => hconn ((handle_io_state hio h).1.mpr hidle)
    exact (handle_connected hio ⟨ht, hp ht⟩ h).dev_to_tcp
  | false =>
    cases e with
    | transfer e => cases hio
    | tcp_read r => cases hio
    | dev_write w => cases hio
    | except => cases hio
    | timeout replies => cases hio
    | disconnect => cases hio
    | accept_read accept c =>
      simp only [handle] at h
      split at h
      · obtain ⟨⟨k₁, p₁⟩, haccept, hrest⟩ := Option.bind_eq_some_iff.mp h
        cases hrest
        obtain hsession | ⟨-, hx⟩ := handle_accept_port_read_session haccept
        · exact hsession.sync hp
        · exact fun _ => hx
      · cases h
        exact hp
    | initial_UDP_read peek c r =>
      simp only [handle] at h
      split at h
      · obtain hsession | ⟨-, hx⟩ := handle_initial_UDP_port_read_session h
        · exact hsession.sync hp
        · exact fun _ => hx
      · cases h
        exact hp
    | setportenable state calls =>
      obtain ⟨⟨k₁, p₁, rv⟩, hchange, hrest⟩ := Option.bind_eq_some_iff.mp h
      cases hrest
      exact (change_port_state_session hchange).sync hp
    | portconfig c calls =>
      obtain ⟨⟨k₁, p₁⟩, hconfig, hrest⟩ := Option.bind_eq_some_iff.mp h
      cases hrest
      obtain hsession | hsession := portconfig_session hconfig
      · exact hsession.sync hp
      · exact hsession.sync fun hconn => absurd rfl hconn

lemma shutdown_port_sync (h : p.shutdown_port k = (k', some p')) : p'.Sync := by
  have hidle : p'.tcp_to_dev_state = .unconnected := by
    rw [shutdown_port_eq] at h
    split at h
    · cases h
    · split at h <;> cases h <;> rfl
  exact fun hconn => absurd hidle hconn

lemma start_sync {c : Config} {calls : SocketCalls} (h : c.start calls k = some (k', some p')) :
    p'.Sync := by
  have hport : c.port.Sync := fun hconn => absurd rfl hconn
  rw [Config.start] at h
  split at h
  · cases h
    exact hport
  · obtain ⟨⟨k₁, p₁, rv⟩, hstart, hrest⟩ := Option.bind_eq_some_iff.mp h
    simp only [Option.some.injEq] at hrest
    split at hrest
    · cases hrest
      exact (startup_port_session hstart).sync hport
    · cases hrest

/-! ## The events -/

/-- The condition on the commands and on the client of a UDP port. -/
def Proper (inuse : Bool) (p : PortInfo) (k : Kernel) : PortEvent → Prop
  | .initial_UDP_read peek c _ =>
    p.listens .handle_initial_UDP_port_read k = true → inuse = false → peek = true →
      c.Succeeds p k
  | .setportenable m calls => p.ChangesTo m calls
  | .portconfig c calls =>
    if p.xfer.dev_to_tcp_state = .unconnected then p.ChangesTo c.enabled calls
    else p.new_config = none ∨ p.enabled = .off
  | _ => True

/-- What the selector waits for says which mode the port has. -/
lemma Sound.listens {handler : ReadHandler} (hs : p.Sound k.fds)
    (h : p.listens handler k = true) : p.readHandler = handler := by
  rw [PortInfo.listens] at h
  split at h
  · cases h
  · rename_i a ha
    have hstarted : p.started = true := by
      cases hstarted : p.started with
      | true => rfl
      | false => exact absurd ((hs.failed hstarted).symm.trans ha) (by simp)
    obtain ⟨b, hb, -, hread, -⟩ := hs.on hstarted
    cases hb.symm.trans ha
    have hread' := (of_decide_eq_true (Bool.and_eq_true_iff.mp h).1)
    exact Option.some.inj (hread.symm.trans hread')

lemma handle_keeps {inuse shut : Bool} {e : PortEvent} (hs : p.Sound k.fds) (hsync : p.Sync)
    (he : p.Proper inuse k e) (h : p.handle inuse k e = some (k', p', shut)) :
    Keeps p p' k k' := by
  cases hio : e.io with
  | true => exact handle_io_keeps hio hs h
  | false =>
    cases e with
    | transfer e => cases hio
    | tcp_read r => cases hio
    | dev_write w => cases hio
    | except => cases hio
    | timeout replies => cases hio
    | disconnect => cases hio
    | accept_read accept c =>
      simp only [handle] at h
      split at h
      · rename_i hlistens
        obtain ⟨⟨k₁, p₁⟩, haccept, hrest⟩ := Option.bind_eq_some_iff.mp h
        cases hrest
        have hread := hs.listens hlistens
        refine handle_accept_port_read_keeps hs (fun hm => ?_) haccept
        by_cases hidle : p.tcp_to_dev_state = .unconnected
        · rw [readHandler_idle hidle, hm] at hread
          cases hread
        · rw [readHandler, if_pos ⟨hm, hidle⟩] at hread
          cases hread
      · cases h
        exact .refl hs
    | initial_UDP_read peek c r =>
      simp only [handle] at h
      split at h
      · rename_i hlistens
        have hread := hs.listens hlistens
        have hm : p.enabled = .udp := by
          by_contra hm
          rw [readHandler_of_ne hm] at hread
          cases hread
        have hidle : p.tcp_to_dev_state = .unconnected := by
          by_contra hconn
          rw [readHandler, if_pos ⟨hm, hconn⟩] at hread
          cases hread
        exact handle_initial_UDP_port_read_keeps hs hm hidle (he hlistens) h
      · cases h
        exact .refl hs
    | setportenable m calls =>
      obtain ⟨⟨k₁, p₁, rv⟩, hchange, hrest⟩ := Option.bind_eq_some_iff.mp h
      cases hrest
      exact change_port_state_keeps hs he hchange
    | portconfig c calls =>
      obtain ⟨⟨k₁, p₁⟩, hconfig, hrest⟩ := Option.bind_eq_some_iff.mp h
      cases hrest
      simp only [Proper] at he
      split at he
      · rename_i hx
        have hidle : p.tcp_to_dev_state = .unconnected := by
          by_contra hconn
          exact hsync hconn hx
        exact portconfig_idle_keeps hs hidle hx he hconfig
      · rename_i hx
        exact portconfig_connected_keeps hs hx he hconfig

end PortInfo

/-! ## A run -/

namespace MainLoop

variable {N : Type*} [DecidableEq N] {s s' : MainLoop N} {e : LoopEvent N} {name : N}
  {p : PortInfo} {k : Kernel}

/-- The condition on a step: commands and reloads change the mode only in ways that open and close
the socket as it should be, a client of a UDP port is set up without a failure, and a new
configuration that is installed when a session ends needs the socket that there is. -/
def OpensSockets (s : MainLoop N) (e : LoopEvent N) : Prop :=
  ∀ name e' p, e = .port name e' → s.ports.lookup name = some p →
    p.Proper (s.is_device_already_inuse name p) s.k e' ∧
    ∀ k' p', p.handle (s.is_device_already_inuse name p) s.k e' = some (k', p', true) → p'.EndsWell

/-- What holds of the list of the ports in these runs. -/
structure Listening (s : MainLoop N) : Prop where
  family : Family PortInfo.own (fun fds p => p.Sound fds) s.k.fds fun n => s.ports.lookup n
  sync : ∀ n p, s.ports.lookup n = some p → p.Sync

/-- One entry of the list is replaced. -/
lemma Listening.set {r : Kernel × Option PortInfo} (hs : s.Listening)
    (hr : PortInfo.Leaves (owned PortInfo.own (s.ports.lookup name)) r.2 s.k r.1)
    (hsync : ∀ p, r.2 = some p → p.Sync) : (s.set name r).Listening := by
  refine ⟨?_, fun n p hp => ?_⟩
  · refine hs.family.step (i := name) (fun f f' p hp heq => hp.local heq)
      (fun f p hp => hp.used) (fun n hn => lookup_set_of_ne hn) ?_ ?_
    · rw [set_k, lookup_set]
      exact hr.frame
    · rw [set_k, lookup_set]
      exact hr.sound
  · by_cases hn : n = name
    · rw [hn, lookup_set] at hp
      exact hsync p hp
    · rw [lookup_set_of_ne hn] at hp
      exact hs.sync n p hp

lemma listening_step (hs : s.Listening) (hok : s.OpensSockets e) (h : s.step e = some s') :
    s'.Listening := by
  obtain rfl | ⟨name, e', p, ⟨k', q⟩, he, hp, hr, rfl⟩ | ⟨name, c, calls, ⟨k', q⟩, -, hnone, hr, rfl⟩ |
    ⟨name, n, p, -, hp, rfl⟩ := step_cases h
  · exact hs
  · obtain ⟨hproper, hends⟩ := hok name e' p he hp
    have hsound := hs.family.good name p hp
    have hsync := hs.sync name p hp
    obtain ⟨⟨k₁, p₁, shut⟩, hhandle, hfinish⟩ := Option.map_eq_some_iff.mp hr
    have hkeeps := PortInfo.handle_keeps hsound hsync hproper hhandle
    refine hs.set ?_ ?_
    · rw [hp, owned_some]
      cases shut with
      | false =>
        cases hfinish
        exact hkeeps.leaves
      | true =>
        have hleaves := PortInfo.shutdown_port_leaves hkeeps.sound (hends k₁ p₁ hhandle) hfinish
        exact ⟨hleaves.sound, hkeeps.frame.trans hleaves.frame⟩
    · intro p' hp'
      cases shut with
      | false =>
        cases hfinish
        cases hp'
        exact PortInfo.handle_sync hsync hhandle
      | true => exact PortInfo.shutdown_port_sync (hfinish.trans (congrArg (Prod.mk k') hp'))
  · refine hs.set ?_ ?_
    · rw [hnone, owned_none]
      exact PortInfo.start_leaves hr
    · intro p' hp'
      exact PortInfo.start_sync (hr.trans (congrArg (fun q => some (k', q)) hp'))
  · refine hs.set ?_ ?_
    · rw [hp, owned_some]
      exact PortInfo.clear_old_port_config_leaves (hs.family.good name p hp) rfl
    · intro p' hp'
      have hsync := hs.sync name p hp
      simp only [PortInfo.clear_old_port_config] at hp'
      split_ifs at hp' <;> cases hp'
      · exact hsync
      · exact hsync

/-- In every run whose steps keep away from the paths that change the mode without the socket, the
mode and the socket of every port agree. -/
theorem mode_and_socket_agree (h : Reach step OpensSockets (init k) s)
    (hp : s.ports.lookup name = some p) : p.Agrees s.k := by
  have hlistening : s.Listening := by
    refine h.induction_on ⟨⟨?_, ?_⟩, ?_⟩ fun s e s' hs hok h => listening_step hs hok h
    · intro n p hp
      cases hp
    · intro n m p q _ hp
      cases hp
    · intro n p hp
      cases hp
  exact (hlistening.family.good name p hp).agrees

lemma opensSockets_port {e : PortEvent} {k' : Kernel} {p' : PortInfo} {shut : Bool}
    (hp : s.ports.lookup name = some p)
    (hhandle : p.handle (s.is_device_already_inuse name p) s.k e = some (k', p', shut))
    (hproper : p.Proper (s.is_device_already_inuse name p) s.k e)
    (hends : shut = true → p'.EndsWell) : s.OpensSockets (.port name e) := by
  rintro name' e' q he hq
  cases he
  cases hp.symm.trans hq
  refine ⟨hproper, fun k₁ p₁ h => ?_⟩
  cases hhandle.symm.trans h
  exact hends rfl

lemma opensSockets_new_port {c : Config} {calls : SocketCalls} :
    s.OpensSockets (.new_port name c calls) := by
  rintro name' e' q he
  cases he

/-- A port goes to another stream mode, is connected and switched off, and is switched on again
when the session is over. -/
theorem mode_and_socket_agree_switched :
    ∃ (s : MainLoop ℕ) (p : PortInfo), Reach step OpensSockets (init .empty) s ∧
      s.ports.lookup 2000 = some p ∧ p.enabled = .rawlp ∧ p.acceptfd = some 6 ∧ p.Agrees s.k := by
  have hrun : ∃ (s : MainLoop ℕ) (p : PortInfo), Reach step OpensSockets (init .empty) s ∧
      s.ports.lookup 2000 = some p ∧ p.enabled = .rawlp ∧ p.acceptfd = some 6 := by
    have hchange : ∀ (p : PortInfo) (m : Mode), m ≠ .off → m ≠ .udp → p.enabled ≠ .udp →
        p.ChangesTo m
          { socket := some 6, fcntl := true, setsockopt := true, bind := true, listen := true } :=
      fun p m hoff hudp hm => .inr (.inr ⟨hoff, hudp, hm, fun _ => .inr ⟨rfl, rfl, rfl, rfl⟩⟩)
    refine ⟨_, _, (((((Reach.init.step (e := .new_port 2000
      { enabled := .raw, timeout := 0, devname := [],
        dinfo := { shortest := 0, maxAge := false, disablebreak := false }, config_num := 1 }
      { socket := some 3, fcntl := true, setsockopt := true, bind := true, listen := true })
      opensSockets_new_port rfl).step
      (e := .port 2000 (.setportenable .telnet
        { socket := some 6, fcntl := true, setsockopt := true, bind := true, listen := true }))
      (opensSockets_port rfl rfl ?_ (fun h => Bool.noConfusion h)) rfl).step
      (e := .port 2000 (.accept_read (some 4)
        { setsockopt := true, hosts_access := true, fcntl := true,
          lock := { dir := true, dead := false, create := true }, devfd := some 5,
          tcsetattr := true, banner := [] }))
      (opensSockets_port rfl rfl ?_ (fun h => Bool.noConfusion h)) rfl).step
      (e := .port 2000 (.setportenable .off
        { socket := none, fcntl := true, setsockopt := true, bind := true, listen := true }))
      (opensSockets_port rfl rfl ?_ (fun h => Bool.noConfusion h)) rfl).step
      (e := .port 2000 .disconnect) (opensSockets_port rfl rfl ?_ fun _ => ?_) rfl).step
      (e := .port 2000 (.setportenable .rawlp
        { socket := some 6, fcntl := true, setsockopt := true, bind := true, listen := true }))
      (opensSockets_port rfl rfl ?_ (fun h => Bool.noConfusion h)) rfl, rfl, rfl, rfl⟩
    · exact hchange _ _ (fun h => Mode.noConfusion h) (fun h => Mode.noConfusion h)
        fun h => Mode.noConfusion h
    · trivial
    · exact .inr (.inl ⟨rfl, fun h => Mode.noConfusion h⟩)
    · trivial
    · refine ⟨fun h => PortState.noConfusion h, fun c _ hc => ?_, fun c _ hc => ?_⟩
      · cases hc
      · cases hc
    · exact hchange _ _ (fun h => Mode.noConfusion h) (fun h => Mode.noConfusion h)
        fun h => Mode.noConfusion h
  obtain ⟨s, p, hreach, hp, hm, hacceptfd⟩ := hrun
  exact ⟨s, p, hreach, hp, hm, hacceptfd, mode_and_socket_agree hreach hp⟩

/-- A port that is off is told to be a UDP port: it gets a listening socket. -/
theorem mode_without_socket :
    ∃ (s : MainLoop ℕ) (p : PortInfo), replay step (init .empty)
      [.new_port 2000
        { enabled := .off, timeout := 0, devname := [],
          dinfo := { shortest := 0, maxAge := false, disablebreak := false }, config_num := 1 }
        { socket := none, fcntl := true, setsockopt := true, bind := true, listen := true },
      .port 2000 (.setportenable .udp
        { socket := some 3, fcntl := true, setsockopt := true, bind := true, listen := true })] =
        some s ∧
      s.ports.lookup 2000 = some p ∧ p.enabled = .udp ∧ p.acceptfd = some 3 ∧
      s.k.fds 3 = ⟨some .listening, some .handle_accept_port_read, true⟩ ∧ ¬ p.Agrees s.k := by
  refine ⟨_, _, rfl, rfl, rfl, rfl, rfl, fun h => ?_⟩
  obtain ⟨a, ha, hfile, -⟩ := h.udp rfl
  cases ha
  cases hfile

end MainLoop

end EspLinux.Ser2net
