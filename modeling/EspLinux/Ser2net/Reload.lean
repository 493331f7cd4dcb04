import EspLinux.Ser2net.Session

/-!
# Reloads during a session

A reload that names a port with a session leaves its configuration in `new_config`, and
`shutdown_port` installs it when the session ends.  The first reload does no more than that, so
that the session goes on as it would have gone on without it.  A second one finds a `new_config`
and means to disable it before it frees it, but writes `curr->enabled` for
`curr->new_config->enabled`.

So reloads do not disturb a session exactly if there is at most one (`reload_iff`).
-/

namespace EspLinux.Ser2net

open EspLinux.Lib

namespace PortInfo

/-- A part of a session: no event of it ends the session. -/
def session : List PortEvent → PortInfo → Kernel → Option (Kernel × PortInfo)
  | [], p, k => some (k, p)
  | e :: es, p, k =>
    match p.handle false k e with
    | some (k, p, false) => session es p k
    | _ => none

/-- The configurations that are loaded. -/
def reloads (es : List PortEvent) : List Config :=
  es.filterMap fun
    | .portconfig c _ => some c
    | _ => none

/-- A port that is connected, when its configuration has not been changed since. -/
structure Live (p : PortInfo) (k : Kernel) : Prop where
  connected : p.Connected
  enabled : p.enabled ≠ .off
  config_num : p.config_num ≠ none
  new_config : p.new_config = none
  acceptfd : ∃ a, p.acceptfd = some a ∧ (k.fds a).file = some (acceptKind p.enabled)
  tcpfd : p.tcpfd = p.acceptfd ↔ p.enabled = .udp
  devfd : p.devfd ≠ p.acceptfd

/-- The record is the one that the session would have without the reloads, up to what is done when
it ends. -/
structure Undisturbed (es : List PortEvent) (p : PortInfo) (k : Kernel) (p₁ : PortInfo)
    (k₁ : Kernel) : Prop where
  enabled : p₁.enabled = p.enabled
  devname : p₁.devname = p.devname
  dinfo : p₁.dinfo = p.dinfo
  tcpfd : p₁.tcpfd = p.tcpfd
  acceptfd : p₁.acceptfd = p.acceptfd
  session : ∃ q, session (es.filter PortEvent.io) p k = some (k₁, q) ∧
    p₁ = q.withConfig p₁.config_num p₁.new_config

/-- The configuration has been installed, with the accept descriptor of `p`, which is still
open. -/
def Installed (c : Config) (p : PortInfo) (r : Kernel × Option PortInfo) : Prop :=
  r.2 = some { c.port with acceptfd := p.acceptfd, started := p.started } ∧
  ∃ a, p.acceptfd = some a ∧ (r.1.fds a).file = some (acceptKind p.enabled)

variable {p p₁ q q₁ : PortInfo} {k k₁ : Kernel} {es : List PortEvent} {e : PortEvent} {c : Config}
  {calls : SocketCalls} {inuse : Bool}

lemma reloads_cons_io (he : e.io = true) : reloads (e :: es) = reloads es := by
  cases e <;> first | rfl | cases he

lemma reloads_cons_portconfig : reloads (.portconfig c calls :: es) = c :: reloads es := rfl

/-- A reload during a session. -/
lemma handle_portconfig (hp : p.Connected) :
    p.handle inuse k (.portconfig c calls) =
      some (k, (if p.new_config.isSome then { p with enabled := .off } else p).withConfig
        (some c.config_num) (some c), false) := by
  simp only [handle, portconfig, if_neg hp.dev_to_tcp]
  rfl

lemma session_cons (h : session (e :: es) p k = some (k₁, p₁)) :
    ∃ k₂ p₂, p.handle false k e = some (k₂, p₂, false) ∧ session es p₂ k₂ = some (k₁, p₁) := by
  simp only [session] at h
  split at h
  · rename_i k₂ p₂ hhandle
    exact ⟨k₂, p₂, hhandle, h⟩
  · cases h

lemma session_cons_of {k₂ : Kernel} {p₂ : PortInfo} (h : p.handle false k e = some (k₂, p₂, false)) :
    session (e :: es) p k = session es p₂ k₂ := by
  simp only [session, h]

/-- What a part of a session without reloads leaves alone. -/
lemma session_io (hes : ∀ e ∈ es, e.io = true) (h : session es p k = some (k₁, p₁)) :
    SameEnds p p₁ ∧ ∀ n, (k₁.fds n).file = (k.fds n).file := by
  induction es generalizing p k with
  | nil =>
    cases h
    exact ⟨.refl, fun _ => rfl⟩
  | cons e es ih =>
    obtain ⟨k₂, p₂, hhandle, hrest⟩ := session_cons h
    obtain ⟨hsame, hfiles⟩ := handle_sameEnds (hes e List.mem_cons_self) hhandle
    obtain ⟨hsame', hfiles'⟩ := ih (fun e he => hes e (List.mem_cons_of_mem _ he)) hrest
    obtain ⟨h₁, h₂, h₃, h₄, h₅, h₆, h₇, h₈, h₉⟩ := hsame
    obtain ⟨h₁', h₂', h₃', h₄', h₅', h₆', h₇', h₈', h₉'⟩ := hsame'
    exact ⟨⟨h₁'.trans h₁, h₂'.trans h₂, h₃'.trans h₃, h₄'.trans h₄, h₅'.trans h₅, h₆'.trans h₆,
      h₇'.trans h₇, h₈'.trans h₈, h₉'.trans h₉⟩, fun n => (hfiles' n).trans (hfiles.file n)⟩

/-- A part of a session with at most one reload goes like the session without. -/
lemma session_one_reload (hes : ∀ e ∈ es, e.io = true ∨ ∃ c calls, e = .portconfig c calls)
    (hp : p.Connected) (hq : p = q.withConfig p.config_num p.new_config)
    (hone : (reloads es).length + p.new_config.toList.length ≤ 1)
    (h : session es p k = some (k₁, p₁)) :
    ∃ q₁, session (es.filter PortEvent.io) q k = some (k₁, q₁) ∧
      p₁ = q₁.withConfig p₁.config_num p₁.new_config ∧
      p₁.new_config = (reloads es).getLast?.or p.new_config ∧
      (p.config_num ≠ none → p₁.config_num ≠ none) := by
  induction es generalizing p q k with
  | nil =>
    cases h
    exact ⟨q, rfl, hq, rfl, id⟩
  | cons e es ih =>
    obtain ⟨k₂, p₂, hhandle, hrest⟩ := session_cons h
    have hes' : ∀ e ∈ es, e.io = true ∨ ∃ c calls, e = .portconfig c calls :=
      fun e he => hes e (List.mem_cons_of_mem _ he)
    obtain he | ⟨c, calls, rfl⟩ := hes e List.mem_cons_self
    · rw [reloads_cons_io he] at hone ⊢
      obtain ⟨hsame, -⟩ := handle_sameEnds he hhandle
      -- the session without the reloads does the same
      have hhandle' := hhandle
      rw [hq, handle_withConfig he] at hhandle'
      obtain ⟨⟨k₃, q₂, shut⟩, hq₂, heq⟩ := Option.map_eq_some_iff.mp hhandle'
      cases heq
      have hp₂ := handle_connected he hp hhandle
      obtain ⟨q₁, hsession, hq₁, hconfig, hnum⟩ := ih hes' hp₂ rfl (by rw [hsame.new_config]; exact hone) hrest
      refine ⟨q₁, ?_, hq₁, by rw [hconfig, hsame.new_config], fun h => hnum (by rwa [hsame.config_num])⟩
      rw [List.filter_cons_of_pos he, session_cons_of hq₂]
      exact hsession
    · rw [reloads_cons_portconfig, List.length_cons] at hone
      have hnone : p.new_config = none := by
        cases hc : p.new_config with
        | none => rfl
        | some c => simp [hc] at hone
      have hnil : reloads es = [] := List.length_eq_zero_iff.mp (by omega)
      rw [handle_portconfig hp, hnone] at hhandle
      cases hhandle
      obtain ⟨q₁, hsession, hq₁, hconfig, hnum⟩ := ih (p := p.withConfig (some c.config_num) (some c))
        (q := q) hes' ⟨hp.tcp_to_dev, hp.dev_to_tcp⟩ (by rw [hq]; rfl) (by rw [hnil]; simp [withConfig]) hrest
      refine ⟨q₁, hsession, hq₁, ?_, fun _ => hnum (by simp [withConfig])⟩
      rw [hconfig, reloads_cons_portconfig, hnil]
      rfl

/-- After two reloads the port is disabled. -/
lemma session_two_reloads (hes : ∀ e ∈ es, e.io = true ∨ ∃ c calls, e = .portconfig c calls)
    (hp : p.Connected)
    (htwo : p.enabled = .off ∨ 2 ≤ (reloads es).length + p.new_config.toList.length)
    (h : session es p k = some (k₁, p₁)) : p₁.enabled = .off := by
  induction es generalizing p k with
  | nil =>
    cases h
    refine htwo.resolve_right ?_
    have hone : p₁.new_config.toList.length ≤ 1 := by cases p₁.new_config <;> simp
    simp only [reloads, List.filterMap_nil, List.length_nil]
    omega
  | cons e es ih =>
    obtain ⟨k₂, p₂, hhandle, hrest⟩ := session_cons h
    have hes' : ∀ e ∈ es, e.io = true ∨ ∃ c calls, e = .portconfig c calls :=
      fun e he => hes e (List.mem_cons_of_mem _ he)
    obtain he | ⟨c, calls, rfl⟩ := hes e List.mem_cons_self
    · rw [reloads_cons_io he] at htwo
      obtain ⟨hsame, -⟩ := handle_sameEnds he hhandle
      exact ih hes' (handle_connected he hp hhandle)
        (by rw [hsame.enabled, hsame.new_config]; exact htwo) hrest
    · rw [reloads_cons_portconfig, List.length_cons] at htwo
      rw [handle_portconfig hp] at hhandle
      cases hhandle
      refine ih hes' ?_ ?_ hrest
      · split <;> exact ⟨hp.tcp_to_dev, hp.dev_to_tcp⟩
      · cases hc : p.new_config with
        | none =>
          simp only [hc, Option.toList_none, List.length_nil] at htwo
          refine htwo.imp id fun htwo => ?_
          simp only [withConfig, Option.toList_some, List.length_singleton]
          omega
        | some c => exact .inl rfl

/-- A set-up that succeeds makes the port live. -/
lemma attempt_live {fd : ℕ} {c : SetupCalls} (hp : p.Waiting k) (hm : p.enabled ≠ .off)
    (hnum : p.config_num ≠ none) (hconfig : p.new_config = none)
    (h : p.attempt fd c k = some (k₁, p₁, true)) : p₁.Live k₁ := by
  obtain ⟨-, -, a, ha, hslot⟩ := hp
  have hfile : (k.fds a).file = some (acceptKind p.enabled) := by rw [hslot]
  have hused : (k.fds a).file ≠ none := by
    rw [hfile]
    exact Option.some_ne_none _
  have hne : ∀ d, (k.fds d).file = none → a ≠ d := by
    rintro d hd rfl
    exact hused hd
  rw [attempt] at h
  split at h
  case isTrue hudp =>
    obtain ⟨d, hfree, hsame, hconn, -, hfiles, -, -⟩ := setup_net_port2_succeeds h
    have had := hne d hfree
    refine ⟨hconn, by rw [hsame.enabled]; exact hm, by rw [hsame.config_num]; exact hnum,
      hsame.new_config.trans hconfig, ⟨a, hsame.acceptfd.trans ha, ?_⟩, ?_, ?_⟩
    · rw [hfiles a had, hsame.enabled]
      exact hfile
    · rw [hsame.tcpfd, hsame.acceptfd, hsame.enabled]
      exact ⟨fun _ => hudp, fun _ => rfl⟩
    · rw [hsame.devfd, hsame.acceptfd]
      show some d ≠ p.acceptfd
      rw [ha]
      exact fun heq => had (Option.some.inj heq).symm
  case isFalse hudp =>
    obtain ⟨k₂, hopen, hsetup⟩ := Option.bind_eq_some_iff.mp h
    obtain ⟨hfree', hk₂⟩ := Kernel.open_fd_eq_some hopen
    have hafd := hne fd hfree'
    have hka : k₂.fds a = k.fds a := by
      rw [hk₂, Kernel.modify_of_ne (by simpa using hafd.symm)]
    rw [setup_tcp_port] at hsetup
    split at hsetup
    · cases hsetup
    · split at hsetup
      · cases hsetup
      · obtain ⟨d, hfree, hsame, hconn, -, hfiles, -, -⟩ := setup_net_port2_succeeds hsetup
        have had : a ≠ d := by
          rintro rfl
          exact hused (hka ▸ hfree)
        refine ⟨hconn, by rw [hsame.enabled]; exact hm, by rw [hsame.config_num]; exact hnum,
          hsame.new_config.trans hconfig, ⟨a, hsame.acceptfd.trans ha, ?_⟩, ?_, ?_⟩
        · rw [hfiles a had, hka, hsame.enabled]
          exact hfile
        · rw [hsame.tcpfd, hsame.acceptfd, hsame.enabled]
          show some fd = p.acceptfd ↔ p.enabled = .udp
          rw [ha]
          exact ⟨fun heq => absurd (Option.some.inj heq).symm hafd, fun heq => absurd heq hudp⟩
        · rw [hsame.devfd, hsame.acceptfd]
          show some d ≠ p.acceptfd
          rw [ha]
          exact fun heq => had (Option.some.inj heq).symm

/-- At the end of a session a new configuration is installed, and the accept descriptor stays open
unless it is closed as the descriptor of the connection. -/
lemma shutdown_port_installs {a : ℕ} (hnum : p.config_num ≠ none) (hconfig : p.new_config = some c)
    (htcpfd : p.enabled ≠ .udp → p.tcpfd ≠ some a) (hdevfd : p.devfd ≠ some a) :
    (p.shutdown_port k).2 = some { c.port with acceptfd := p.acceptfd, started := p.started } ∧
    ((p.shutdown_port k).1.fds a).file = (k.fds a).file := by
  obtain ⟨n, hn⟩ := Option.ne_none_iff_exists'.mp hnum
  have hfree : ∀ (q : PortInfo) (k : Kernel), q.enabled = .off → q.free_port k = k :=
    fun q k hq => if_pos hq
  simp only [shutdown_port, hn, hconfig, true_and]
  rw [hfree _ _ rfl, setAcceptReadHandler, Kernel.sel_set_fd_handlers_file, uucp_rm_lock_fds,
    Kernel.close_file hdevfd]
  split
  · simp only [Kernel.sel_set_fd_read_handler_file, Kernel.sel_set_fd_handlers_file,
      Kernel.sel_clear_fd_handlers_file]
  · rename_i hm
    rw [Kernel.close_file (htcpfd hm)]
    simp only [Kernel.sel_clear_fd_handlers_file]

/-- The reloads of a session leave it alone, and the last one is installed when it ends, exactly
if there is at most one. -/
theorem reload_iff (hlive : p.Live k)
    (hes : ∀ e ∈ es, e.io = true ∨ ∃ c calls, e = .portconfig c calls)
    (h : session es p k = some (k₁, p₁)) :
    (Undisturbed es p k p₁ k₁ ∧
      ∀ e k₂ p₂ c, e.io = true → p₁.handle false k₁ e = some (k₂, p₂, true) →
        (reloads es).getLast? = some c → Installed c p (p₂.shutdown_port k₂)) ↔
    (reloads es).length ≤ 1 := by
  obtain ⟨a, ha, hfile⟩ := hlive.acceptfd
  constructor
  · rintro ⟨hundisturbed, -⟩
    by_contra htwo
    have hoff := session_two_reloads hes hlive.connected
      (.inr (by rw [hlive.new_config]; exact not_le.mp htwo)) h
    exact hlive.enabled (hundisturbed.enabled.symm.trans hoff)
  · intro hone
    obtain ⟨q, hsession, hq, hconfig, hnum⟩ := session_one_reload (q := p) hes hlive.connected rfl
      (by rw [hlive.new_config]; simpa using hone) h
    obtain ⟨hsame, hfiles⟩ := session_io (fun e he => (List.mem_filter.mp he).2) hsession
    have henabled : p₁.enabled = p.enabled := by rw [hq]; exact hsame.enabled
    have htcpfd : p₁.tcpfd = p.tcpfd := by rw [hq]; exact hsame.tcpfd
    have hacceptfd : p₁.acceptfd = p.acceptfd := by rw [hq]; exact hsame.acceptfd
    have hdevfd : p₁.devfd = p.devfd := by rw [hq]; exact hsame.devfd
    have hstarted : p₁.started = p.started := by rw [hq]; exact hsame.started
    refine ⟨⟨henabled, by rw [hq]; exact hsame.devname, by rw [hq]; exact hsame.dinfo, htcpfd,
      hacceptfd, q, hsession, hq⟩, ?_⟩
    intro e k₂ p₂ c he hend hlast
    obtain ⟨hsame', hfiles'⟩ := handle_sameEnds he hend
    have hc : p₂.new_config = some c := by
      rw [hsame'.new_config, hconfig, hlast]
      rfl
    obtain ⟨hinstalled, hopen⟩ := shutdown_port_installs (p := p₂) (k := k₂) (a := a)
      (by rw [hsame'.config_num]; exact hnum hlive.config_num) hc
      (fun hm => by
        rw [hsame'.enabled, henabled] at hm
        rw [hsame'.tcpfd, htcpfd, ← ha]
        exact fun heq => hm (hlive.tcpfd.mp heq))
      (by rw [hsame'.devfd, hdevfd, ← ha]; exact hlive.devfd)
    refine ⟨?_, a, ha, ?_⟩
    · rw [hinstalled, hsame'.acceptfd, hacceptfd, hsame'.started, hstarted]
    · rw [hopen, hfiles'.file, hfiles, hfile]

/-- A reload comes between two reads from the device. -/
theorem reload_once :
    ∃ (p p₁ : PortInfo) (k k₁ : Kernel) (es : List PortEvent) (c : Config),
      reloads es = [c] ∧ session es p k = some (k₁, p₁) ∧ p₁.xfer.sent = [65, 66] ∧
      Undisturbed es p k p₁ k₁ ∧
      ∀ e k₂ p₂ c, e.io = true → p₁.handle false k₁ e = some (k₂, p₂, true) →
        (reloads es).getLast? = some c → Installed c p (p₂.shutdown_port k₂) := by
  obtain ⟨c, hc⟩ : ∃ c : Config, c =
    { enabled := .raw, timeout := 0, devname := [],
      dinfo := { shortest := 0, maxAge := false, disablebreak := false }, config_num := 1 } :=
    ⟨_, rfl⟩
  obtain ⟨k, hk⟩ : ∃ k : Kernel, k = Kernel.empty.modify
    (fun _ => ⟨some .listening, some .handle_accept_port_read, true⟩) (some 3) := ⟨_, rfl⟩
  obtain ⟨p, hport⟩ : ∃ p : PortInfo, p = { c.port with acceptfd := some 3, started := true } :=
    ⟨_, rfl⟩
  have hattempt : ∃ r : Kernel × PortInfo, p.attempt 4
      { setsockopt := true, hosts_access := true, fcntl := true,
        lock := { dir := true, dead := false, create := true }, devfd := some 5,
        tcsetattr := true, banner := [] } k = some (r.1, r.2, true) ∧
      ∃ r₁ : Kernel × PortInfo, session
        [.transfer (.dev_read (some [65]) [.accepted 1]),
          .portconfig c { socket := none, fcntl := true, setsockopt := true, bind := true, listen := true },
          .transfer (.dev_read (some [66]) [.accepted 1])] r.2 r.1 = some r₁ ∧
        r₁.2.xfer.sent = [65, 66] := by
    rw [hport, hk, hc]
    exact ⟨(_, _), rfl, (_, _), rfl, rfl⟩
  obtain ⟨⟨k', p'⟩, h, ⟨k₁, p₁⟩, hsession, hsent⟩ := hattempt
  have hlive : p'.Live k' := by
    refine attempt_live ?_ ?_ ?_ ?_ h
    all_goals rw [hport, hc]
    · rw [hk]
      exact ⟨rfl, rfl, 3, rfl, rfl⟩
    · exact fun h => Mode.noConfusion h
    · exact Option.some_ne_none _
    · rfl
  refine ⟨p', p₁, k', k₁, _, c, rfl, hsession, hsent, (reload_iff hlive ?_ hsession).mpr
    (Nat.le_refl 1)⟩
  intro e he
  simp only [List.mem_cons, List.not_mem_nil, or_false] at he
  obtain rfl | rfl | rfl := he
  · exact .inl rfl
  · exact .inr ⟨_, _, rfl⟩
  · exact .inl rfl

end PortInfo

/-- Two reloads during a UDP session disable the port, and when the session ends its accept
descriptor is closed. -/
theorem reload_twice_udp :
    ∃ (s s' : MainLoop ℕ) (p p' : PortInfo),
      replay MainLoop.step (.init .empty)
        [.new_port 2000
          { enabled := .udp, timeout := 0, devname := [],
            dinfo := { shortest := 0, maxAge := false, disablebreak := false }, config_num := 1 }
          { socket := some 3, fcntl := true, setsockopt := true, bind := true, listen := true },
        .port 2000 (.initial_UDP_read true
          { setsockopt := true, hosts_access := true, fcntl := true,
            lock := { dir := true, dead := false, create := true }, devfd := some 5,
            tcsetattr := true, banner := [] }
          { data := some [65], replies := [], error := false, writes := [.accepted 1] }),
        .port 2000 (.portconfig
          { enabled := .udp, timeout := 0, devname := [],
            dinfo := { shortest := 0, maxAge := false, disablebreak := false }, config_num := 2 }
          { socket := none, fcntl := true, setsockopt := true, bind := true, listen := true }),
        .port 2000 (.portconfig
          { enabled := .udp, timeout := 0, devname := [],
            dinfo := { shortest := 0, maxAge := false, disablebreak := false }, config_num := 3 }
          { socket := none, fcntl := true, setsockopt := true, bind := true, listen := true })] =
        some s ∧
      s.ports.lookup 2000 = some p ∧ p.tcp_to_dev_state = .waiting_input ∧ p.enabled = .off ∧
      s.step (.port 2000 .disconnect) = some s' ∧ s'.ports.lookup 2000 = some p' ∧
      p'.enabled = .udp ∧ p'.acceptfd = some 3 ∧ (s'.k.fds 3).file = none := by
  exact ⟨_, _, _, _, rfl, rfl, rfl, rfl, rfl, rfl, rfl, rfl, rfl⟩

end EspLinux.Ser2net
