import EspLinux.Ser2net.Timers

/-!
# A set-up that fails

When a client comes, `setup_tcp_port` and `setup_net_port2` take a lock and open the device, and
give back what they have taken when something fails: the lock, the device and the descriptor of
the connection.  On a UDP port the descriptor of the connection is the accept descriptor itself,
so the statement that closes it closes the socket on which the port waits.

A set-up that fails leaves the port as it was exactly on the ports that are not UDP ports
(`failed_setup_iff`).
-/

namespace EspLinux.Ser2net

open EspLinux.Lib

namespace PortInfo

/-- What the read handler of the accept descriptor starts when a client comes to a port that is
not connected: on a TCP port `accept` returns `fd`. -/
def attempt (fd : ℕ) (c : SetupCalls) (p : PortInfo) (k : Kernel) :
    Option (Kernel × PortInfo × Bool) :=
  if p.enabled = .udp then setup_net_port2 c { p with tcpfd := p.acceptfd } k
  else do
    let k ← k.open_fd fd .connection
    setup_tcp_port c { p with tcpfd := some fd } k

/-- The socket on which a port of the mode waits. -/
def acceptKind (m : Mode) : FileKind := if m = .udp then .dgram else .listening

/-- The read handler of a port of the mode that is not connected. -/
def acceptHandler (m : Mode) : ReadHandler :=
  if m = .udp then .handle_initial_UDP_port_read else .handle_accept_port_read

/-- The port is not connected and waits for a client. -/
structure Waiting (p : PortInfo) (k : Kernel) : Prop where
  tcp_to_dev : p.tcp_to_dev_state = .unconnected
  dev_to_tcp : p.xfer.dev_to_tcp_state = .unconnected
  acceptfd : ∃ a, p.acceptfd = some a ∧ k.fds a =
    { file := some (acceptKind p.enabled)
      handle_read := some (acceptHandler p.enabled)
      read_set := true }

/-- After the attempt the port is as it was: it waits for a client in the same way, nothing is open
that was not, and there is no lock file that was not there. -/
structure AsBefore (p p' : PortInfo) (k k' : Kernel) : Prop where
  waiting : p'.Waiting k'
  enabled : p'.enabled = p.enabled
  acceptfd : p'.acceptfd = p.acceptfd
  files : ∀ n, (k'.fds n).file ≠ none → (k.fds n).file ≠ none
  locks : ∀ f, k'.locks f = true → k.locks f = true

variable {p p' : PortInfo} {k k' : Kernel} {c : SetupCalls} {fd n t : ℕ} {ok : Bool}

/-! ## The handlers -/

/-- A connection to the listening socket leads to an attempt. -/
theorem handle_accept_port_read_attempt (hp : p.Waiting k) (hm : p.enabled ≠ .udp) :
    p.handle_accept_port_read false (some fd) c k =
      (p.attempt fd c k).map fun r => (r.1, r.2.1) := by
  rw [handle_accept_port_read, if_neg (by simp [hp.tcp_to_dev]), attempt, if_neg hm]
  simp only
  cases k.open_fd fd .connection with
  | none => rfl
  | some k₁ =>
    simp only [Option.bind_eq_bind, Option.bind_some]
    cases setup_tcp_port c { p with tcpfd := some fd } k₁ <;> rfl

/-- So does the first datagram on a UDP port, which is handled if the attempt succeeds. -/
theorem handle_initial_UDP_port_read_attempt {r : TcpRead} (hm : p.enabled = .udp) :
    p.handle_initial_UDP_port_read false true c r k = (p.attempt fd c k).bind fun x =>
      if x.2.2 then x.2.1.handle_tcp_fd_read r x.1 else some (x.1, x.2.1, false) := by
  rw [attempt, if_pos hm]
  rfl

/-! ## Locks -/

/-- A lock that is not taken leaves no file. -/
lemma uucp_mk_lock_fails {devname : List Char} {l : LockCalls}
    (h : (uucp_mk_lock devname l k).1 ≠ 0) (f : List Char)
    (hf : (uucp_mk_lock devname l k).2.locks f = true) : k.locks f = true := by
  simp only [uucp_mk_lock] at h hf
  split_ifs at h hf
  · exact hf
  · exact hf
  · exact hf
  · exact absurd rfl h
  · by_cases hname : f = uucp_fname_lock devname
    · rw [hname] at hf
      simp at hf
    · simpa only [Function.update_of_ne hname] using hf

/-- A lock that is taken and given back leaves no file. -/
lemma uucp_rm_lock_mk_lock {devname : List Char} {l : LockCalls} {k₁ : Kernel}
    (hlocks : k₁.locks = (uucp_mk_lock devname l k).2.locks)
    (henabled : k₁.uucp_locking_enabled = k.uucp_locking_enabled) (f : List Char)
    (hf : (uucp_rm_lock devname k₁).locks f = true) : k.locks f = true := by
  rw [uucp_rm_lock, henabled] at hf
  simp only [uucp_mk_lock] at hlocks
  split at hf
  case isTrue hoff =>
    rw [if_pos hoff] at hlocks
    exact hlocks ▸ hf
  case isFalse hon =>
    by_cases hname : f = uucp_fname_lock devname
    · rw [hname] at hf
      simp at hf
    · simp only [Function.update_of_ne hname, hlocks] at hf
      split_ifs at hf
      · exact hf
      · exact hf
      · simpa only [Function.update_of_ne hname] using hf
      · simpa only [Function.update_of_ne hname] using hf

/-! ## The failure -/

lemma close_fds {k₁ : Kernel} (h : k₁.fds = k.fds) (fd : Option ℕ) :
    (k₁.close fd).fds = (k.close fd).fds := by
  cases fd with
  | none => exact h
  | some n =>
    show Function.update k₁.fds n _ = Function.update k.fds n _
    rw [h]

/-- Opening and closing a descriptor leaves the table as it was. -/
lemma close_open_fd {k₁ : Kernel} {kind : FileKind} (h : k.open_fd n kind = some k₁) (hn : n ≠ t) :
    ((k₁.close (some t)).close (some n)).fds = (k.close (some t)).fds := by
  obtain ⟨hfree, rfl⟩ := Kernel.open_fd_eq_some h
  funext m
  have hslot : ∀ s : Slot, s.file = none → { s with file := none } = s := by
    rintro ⟨file, handle_read, read_set⟩ h
    cases h
    rfl
  by_cases hm : m = n
  · rw [hm]
    simp [Kernel.close, Kernel.modify, Function.update_apply, hn, hslot _ hfree]
  · simp [Kernel.close, Kernel.modify, Function.update_apply, hm]
    split <;> simp_all

/-- What the session is between, and what is to be done when it ends. -/
structure SameEnds (p p' : PortInfo) : Prop where
  enabled : p'.enabled = p.enabled
  devname : p'.devname = p.devname
  dinfo : p'.dinfo = p.dinfo
  acceptfd : p'.acceptfd = p.acceptfd
  tcpfd : p'.tcpfd = p.tcpfd
  devfd : p'.devfd = p.devfd
  config_num : p'.config_num = p.config_num
  new_config : p'.new_config = p.new_config
  started : p'.started = p.started

lemma SameEnds.refl : SameEnds p p := ⟨rfl, rfl, rfl, rfl, rfl, rfl, rfl, rfl, rfl⟩

/-- A set-up that fails closes the descriptor of the connection and nothing else. -/
lemma setup_net_port2_fails (ht : p.tcpfd = some t) (hopen : (k.fds t).file ≠ none)
    (h : p.setup_net_port2 c k = some (k', p', false)) :
    k'.fds = (k.close (some t)).fds ∧ (∀ f, k'.locks f = true → k.locks f = true) ∧
    SameSession p p' ∧ SameEnds { p with devfd := p'.devfd } p' := by
  have hsame : SameSession p p' := by
    obtain ⟨-, hsame⟩ | ⟨hok, -⟩ := setup_net_port2_session h
    · exact hsame
    · cases hok
  rw [← ht]
  simp only [setup_net_port2] at h
  split at h
  · cases h
    exact ⟨rfl, fun f hf => by simpa only [Kernel.close, Kernel.modify_locks] using hf, hsame, ⟨rfl, rfl, rfl, rfl, rfl, rfl, rfl, rfl, rfl⟩⟩
  · split at h
    case isTrue hlock =>
      cases h
      refine ⟨close_fds uucp_mk_lock_fds _, fun f hf => ?_, hsame, ⟨rfl, rfl, rfl, rfl, rfl, rfl, rfl, rfl, rfl⟩⟩
      rw [Kernel.close, Kernel.modify_locks] at hf
      exact uucp_mk_lock_fails hlock f hf
    case isFalse =>
      split at h
      · cases h
        refine ⟨by rw [uucp_rm_lock_fds, close_fds uucp_mk_lock_fds], fun f hf => ?_, hsame, ⟨rfl, rfl, rfl, rfl, rfl, rfl, rfl, rfl, rfl⟩⟩
        exact uucp_rm_lock_mk_lock (by rw [Kernel.close, Kernel.modify_locks])
          (by rw [Kernel.close, Kernel.modify_uucp_locking_enabled,
            uucp_mk_lock_uucp_locking_enabled]) f hf
      · obtain ⟨k₁, hdev, hopened⟩ := Option.bind_eq_some_iff.mp h
        split at hopened
        · -- the device has been opened on another number, since this one is in use
          cases hopened
          obtain ⟨hfree, hk₁⟩ := Kernel.open_fd_eq_some hdev
          have hne : ∀ d, (k.fds d).file = none → d ≠ t := by
            rintro d hd rfl
            exact hopen hd
          rw [uucp_mk_lock_fds] at hfree
          refine ⟨?_, fun f hf => ?_, hsame, ⟨rfl, rfl, rfl, rfl, rfl, rfl, rfl, rfl, rfl⟩⟩
          · rw [uucp_rm_lock_fds, ht, close_open_fd hdev (hne _ hfree), close_fds uucp_mk_lock_fds]
          · refine uucp_rm_lock_mk_lock (l := c.lock) ?_ ?_ f hf
            · rw [Kernel.close, Kernel.modify_locks, Kernel.close, Kernel.modify_locks, hk₁,
                Kernel.modify_locks]
            · rw [Kernel.close, Kernel.modify_uucp_locking_enabled, Kernel.close,
                Kernel.modify_uucp_locking_enabled, hk₁, Kernel.modify_uucp_locking_enabled,
                uucp_mk_lock_uucp_locking_enabled]
        · cases hopened

lemma setup_tcp_port_fails (ht : p.tcpfd = some t) (hopen : (k.fds t).file ≠ none)
    (h : p.setup_tcp_port c k = some (k', p', false)) :
    k'.fds = (k.close (some t)).fds ∧ (∀ f, k'.locks f = true → k.locks f = true) ∧
    SameSession p p' ∧ SameEnds { p with devfd := p'.devfd } p' := by
  have hclose : some (k.close p.tcpfd, p, false) = some (k', p', false) →
      k'.fds = (k.close (some t)).fds ∧ (∀ f, k'.locks f = true → k.locks f = true) ∧
      SameSession p p' ∧ SameEnds { p with devfd := p'.devfd } p' := by
    intro h
    cases h
    refine ⟨by rw [ht], fun f hf => ?_, ⟨rfl, rfl, rfl⟩, .refl⟩
    rwa [Kernel.close, Kernel.modify_locks] at hf
  rw [setup_tcp_port] at h
  split at h
  · exact hclose h
  · split at h
    · exact hclose h
    · exact setup_net_port2_fails ht hopen h

/-- An attempt that fails leaves the port as it was exactly if it is not a UDP port. -/
theorem failed_setup_iff (hp : p.Waiting k) (h : p.attempt fd c k = some (k', p', false)) :
    AsBefore p p' k k' ↔ p.enabled ≠ .udp := by
  obtain ⟨htcp, hdev, a, ha, hslot⟩ := hp
  have hused : (k.fds a).file ≠ none := by
    rw [hslot]
    exact Option.some_ne_none _
  rw [attempt] at h
  constructor
  · intro hbefore hm
    -- the accept descriptor has been closed
    rw [if_pos hm] at h
    obtain ⟨hfds, -, -, -⟩ := setup_net_port2_fails (p := { p with tcpfd := p.acceptfd }) ha hused h
    obtain ⟨-, -, b, hb, hslot'⟩ := hbefore.waiting
    rw [hbefore.acceptfd, ha] at hb
    cases hb
    rw [hfds, Kernel.close, Kernel.modify_self] at hslot'
    exact absurd (congrArg Slot.file hslot') (by simp)
  · intro hm
    rw [if_neg hm] at h
    obtain ⟨k₁, hconn, hsetup⟩ := Option.bind_eq_some_iff.mp h
    obtain ⟨hfree, hk₁⟩ := Kernel.open_fd_eq_some hconn
    have hfd : a ≠ fd := by
      rintro rfl
      exact hused hfree
    obtain ⟨hfds, hlocks, ⟨htimer, hxfer, hstate⟩, hsame⟩ :=
      setup_tcp_port_fails (p := { p with tcpfd := some fd }) (t := fd) rfl
        (by rw [hk₁, Kernel.modify_self]; exact Option.some_ne_none _) hsetup
    have hother : ∀ n, n ≠ fd → k'.fds n = k.fds n := by
      intro n hn
      rw [hfds, Kernel.close, Kernel.modify_of_ne (by simpa using hn.symm), hk₁,
        Kernel.modify_of_ne (by simpa using hn.symm)]
    refine ⟨⟨hstate.trans htcp, (congrArg Xfer.dev_to_tcp_state hxfer).trans hdev, a,
      hsame.acceptfd.trans ha, ?_⟩, hsame.enabled, hsame.acceptfd, fun n hn => ?_, fun f hf => ?_⟩
    · rw [hother a hfd, hsame.enabled]
      exact hslot
    · by_cases hnfd : n = fd
      · rw [hnfd, hfds, Kernel.close, Kernel.modify_self] at hn
        exact absurd rfl hn
      · rwa [hother n hnfd] at hn
    · have hf₁ := hlocks f hf
      rwa [hk₁, Kernel.modify_locks] at hf₁

/-- The lock is taken and the device opened, but its modes cannot be set. -/
theorem failed_setup_tcsetattr :
    ∃ (p p' : PortInfo) (k k' : Kernel), p.enabled = .raw ∧ p.Waiting k ∧
      p.attempt 4
        { setsockopt := true, hosts_access := true, fcntl := true,
          lock := { dir := true, dead := false, create := true }, devfd := some 5,
          tcsetattr := false, banner := [] } k = some (k', p', false) ∧
      AsBefore p p' k k' := by
  obtain ⟨k, hk⟩ : ∃ k : Kernel, k =
    ({ Kernel.empty with uucp_locking_enabled := true }).modify
      (fun _ => ⟨some .listening, some .handle_accept_port_read, true⟩) (some 3) := ⟨_, rfl⟩
  obtain ⟨p, hport⟩ : ∃ p : PortInfo, p =
    { Config.port
        { enabled := .raw, timeout := 0, devname := ['/', 'd', 'e', 'v', '/', 't', 't', 'y'],
          dinfo := { shortest := 0, maxAge := false, disablebreak := false }, config_num := 1 } with
      acceptfd := some 3
      started := true } := ⟨_, rfl⟩
  have hm : p.enabled = .raw := by
    rw [hport]
    rfl
  have hp : p.Waiting k := by
    rw [hport, hk]
    exact ⟨rfl, rfl, 3, rfl, rfl⟩
  have hattempt : ∃ r : Kernel × PortInfo, p.attempt 4
      { setsockopt := true, hosts_access := true, fcntl := true,
        lock := { dir := true, dead := false, create := true }, devfd := some 5,
        tcsetattr := false, banner := [] } k = some (r.1, r.2, false) := by
    rw [hport, hk]
    exact ⟨(_, _), rfl⟩
  obtain ⟨⟨k', p'⟩, h⟩ := hattempt
  refine ⟨p, p', k, k', hm, hp, h, (failed_setup_iff hp h).mpr ?_⟩
  rw [hm]
  exact fun h => Mode.noConfusion h

end PortInfo

/-- A UDP port whose device cannot be opened when a datagram comes: the accept descriptor is
closed, and the port and the selector go on with its number. -/
theorem failed_setup_udp :
    ∃ (s s' : MainLoop ℕ) (p : PortInfo),
      replay MainLoop.step (.init .empty)
        [.new_port 2000
          { enabled := .udp, timeout := 0, devname := [],
            dinfo := { shortest := 0, maxAge := false, disablebreak := false }, config_num := 1 }
          { socket := some 3, fcntl := true, setsockopt := true, bind := true, listen := true }] =
        some s ∧
      s.step (.port 2000 (.initial_UDP_read true
        { setsockopt := true, hosts_access := true, fcntl := true,
          lock := { dir := true, dead := false, create := true }, devfd := none,
          tcsetattr := true, banner := [] }
        { data := some [65], replies := [], error := false, writes := [.accepted 1] })) = some s' ∧
      s'.ports.lookup 2000 = some p ∧ p.tcp_to_dev_state = .unconnected ∧ p.acceptfd = some 3 ∧
      s.k.fds 3 = ⟨some .dgram, some .handle_initial_UDP_port_read, true⟩ ∧
      s'.k.fds 3 = ⟨none, some .handle_initial_UDP_port_read, true⟩ := by
  exact ⟨_, _, _, rfl, rfl, rfl, rfl, rfl, rfl, rfl⟩

end EspLinux.Ser2net
