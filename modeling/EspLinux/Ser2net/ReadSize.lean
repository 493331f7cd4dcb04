import EspLinux.Ser2net.Escape
import EspLinux.Ser2net.Listen

/-!
# How much is read from the device

`handle_dev_fd_read` asks for what is left of the buffer, or of half of it on a telnet port, where
the IACs are doubled.  `portconfig` bounds `shortest` by that size, so that the buffer is written
out before it is full; but `setportdevcfg` does not, and `setportenable` may halve the size while
bytes wait.  Also a banner may fill the buffer of a raw port before anything is read.  Otherwise
every read asks for at least one byte of the buffer (`MainLoop.legal_reads`).
-/

namespace EspLinux.Ser2net

open EspLinux.Lib

/-! ## The model -/

/-- What `devconfig` finds in a configuration, as far as it is looked at here; `none` is a number
that cannot be read. -/
inductive DevOption
  | shortest (ms : Option ℕ)
  /-- The age, and whether it is not zero. -/
  | maxAge (age : Option Bool)
  | NOBREAK
  /-- The settings of the device, the trace files, `remctl` and the banner. -/
  | other
  | unknown

/-- The loop of `devconfig`, and whether it comes to the end of the configuration. -/
def devconfig_loop : List DevOption → DevInfo → DevInfo × Bool
  | [], dinfo => (dinfo, true)
  | .shortest (some ms) :: l, dinfo => devconfig_loop l { dinfo with shortest := ms }
  | .maxAge (some age) :: l, dinfo => devconfig_loop l { dinfo with maxAge := age }
  | .NOBREAK :: l, dinfo => devconfig_loop l { dinfo with disablebreak := true }
  | .other :: l, dinfo => devconfig_loop l dinfo
  | .shortest none :: _, dinfo => (dinfo, false)
  | .maxAge none :: _, dinfo => (dinfo, false)
  | .unknown :: _, dinfo => (dinfo, false)

/-- `devconfig`.  What has been found before an error stays. -/
def devconfig (l : List DevOption) : DevInfo × Bool :=
  devconfig_loop l { shortest := 0, maxAge := false, disablebreak := false }

namespace PortInfo

/-- `setportdevcfg` -/
def setportdevcfg (l : List DevOption) (p : PortInfo) : PortInfo :=
  { p with dinfo := (devconfig l).1 }

end PortInfo

/-- What happens in the main loop, with the command that changes the configuration of a device. -/
inductive ControlEvent (N : Type*)
  | loop (e : LoopEvent N)
  | setportdevcfg (name : N) (l : List DevOption)

namespace MainLoop

variable {N : Type*} [DecidableEq N]

/-- One event. -/
def control_step (s : MainLoop N) : ControlEvent N → Option (MainLoop N)
  | .loop e => s.step e
  | .setportdevcfg name l =>
    match s.ports.lookup name with
    | none => some s
    | some p => some (s.set name (s.k, some (p.setportdevcfg l)))

end MainLoop

/-- What the loop of `handle_dev_fd_read` makes of the number of bytes that have been read. -/
def Xfer.stored (p : Settings) (got : List UInt8) (s : Xfer) : ℕ :=
  if p.enabled = .telnet then
    (double TN_IAC (slice (put s.dev_to_tcp_buf s.dev_to_tcp_buf_count got) 0 got.length)).length
  else got.length

namespace PortInfo

/-- The number of bytes that `handle_dev_fd_read` asks for. -/
def asks (p : PortInfo) : ℤ := p.settings.room - p.xfer.dev_to_tcp_buf_count

/-- A call of `handle_dev_fd_read` is as it should be: it asks for at least one byte, which goes
into the buffer, and the buffer holds what is there when the IACs have been doubled. -/
structure LegalRead (p : PortInfo) : Prop where
  asks : 1 ≤ p.asks
  inside : p.xfer.dev_to_tcp_buf_count + p.asks ≤ PORT_BUFSIZE
  stores : ∀ avail got s, p.xfer.dev_read p.settings avail = some got →
    p.xfer.store p.settings got = some s → s.dev_to_tcp_buf_count ≤ PORT_BUFSIZE

/-- The condition on an event of a port: a session of a raw or a UDP port does not start with a
buffer that is full, what is read and waits for more does not fill what is read into, and a port
whose device is read is not made a telnet port while half of the buffer or more waits. -/
def ReadsFit (p : PortInfo) : PortEvent → Prop
  | .accept_read _ c => p.enabled = .raw ∨ p.enabled = .udp → c.banner.length < PORT_BUFSIZE
  | .initial_UDP_read _ c _ => p.enabled = .raw ∨ p.enabled = .udp → c.banner.length < PORT_BUFSIZE
  | .transfer (.dev_read avail _) =>
    ∀ got, p.xfer.reader = true → avail.bind (p.xfer.dev_read p.settings) = some got →
      p.xfer.dev_to_tcp_buf_count + p.xfer.stored p.settings got < p.dinfo.shortest →
      p.xfer.dev_to_tcp_buf_count + p.xfer.stored p.settings got < p.settings.room
  | .setportenable state _ =>
    p.xfer.reader = true → state = .telnet → p.xfer.dev_to_tcp_buf_count < PORT_BUFSIZE / 2
  | _ => True

/-- While the device is read there is room for more. -/
def Fits (p : PortInfo) : Prop :=
  p.xfer.reader = true → p.xfer.dev_to_tcp_buf_count < p.settings.room

end PortInfo

/-- The condition on a step. -/
def MainLoop.ReadsFit {N : Type*} [DecidableEq N] (s : MainLoop N) (e : ControlEvent N) : Prop :=
  ∀ name e' p, e = .loop (.port name e') → s.ports.lookup name = some p → p.ReadsFit e'

/-! ## A read -/

lemma Settings.room_le (p : Settings) : p.room ≤ PORT_BUFSIZE := by
  rw [Settings.room]
  split <;> decide

lemma Settings.room_pos (p : Settings) : 0 < p.room := by
  rw [Settings.room]
  split <;> decide

namespace Xfer

variable {p : Settings} {s s' : Xfer} {got : List UInt8} {ws : List Wrote} {w w₁ w₂ : Wrote}
  {e : Event}

/-- What is stored, and nothing else changes that is looked at here. -/
lemma store_count {avail : List UInt8} (hread : s.dev_read p avail = some got)
    (h : s.store p got = some s') :
    s'.dev_to_tcp_buf_count = s.dev_to_tcp_buf_count + s.stored p got ∧ s'.reader = s.reader := by
  have hgot := (Nat.le_of_add_left_le (dev_read_length hread)).trans p.room_le
  rw [store] at h
  by_cases hp : p.enabled = .telnet
  · obtain ⟨buf, hloop, -⟩ := @double_iac_spec (memory { s with
      dev_to_tcp_buf := put s.dev_to_tcp_buf s.dev_to_tcp_buf_count got
      received := s.received ++ got }) 0 got.length
    rw [Nat.zero_add, Nat.zero_add, slice_memory hgot] at hloop
    simp only [if_pos hp, hloop, Option.bind_eq_bind, Option.bind_some] at h
    cases h
    exact ⟨by rw [stored, if_pos hp], rfl⟩
  · simp only [if_neg hp] at h
    cases h
    exact ⟨by rw [stored, if_neg hp], rfl⟩

lemma stored_le (got : List UInt8) : s.stored p got ≤ if p.enabled = .telnet then 2 * got.length else got.length := by
  rw [stored]
  split
  · refine length_double_le.trans ?_
    rw [length_slice]
  · exact Nat.le_refl _

/-- After a write from the start of the buffer nothing waits, or the device is not read. -/
lemma tryNetWrite_reader (h : tryNetWrite ws s = some s') :
    s'.reader = true → s'.dev_to_tcp_buf_count = 0 := by
  induction ws with
  | nil => exact absurd h (by simp [tryNetWrite])
  | cons w ws ih =>
    cases w with
    | EINTR => exact ih h
    | EAGAIN =>
      cases h
      exact fun hreader => by cases hreader
    | EPIPE =>
      cases h
      exact fun hreader => by cases hreader
    | error =>
      cases h
      exact fun hreader => by cases hreader
    | accepted n =>
      simp only [tryNetWrite] at h
      split at h
      · cases h
        exact fun hreader => by cases hreader
      · rename_i hrest
        cases h
        exact fun _ => not_not.mp hrest

lemma write_data_reader : (s.write_data w).reader = true →
    (s.write_data w).dev_to_tcp_buf_count = 0 ∨
      s.reader = true ∧ (s.write_data w).dev_to_tcp_buf_count ≤ s.dev_to_tcp_buf_count := by
  intro hreader
  cases w with
  | EINTR => exact .inr ⟨hreader, Nat.le_refl _⟩
  | EAGAIN => exact .inr ⟨hreader, Nat.le_refl _⟩
  | EPIPE => cases hreader
  | error => cases hreader
  | accepted n =>
    simp only [write_data] at hreader ⊢
    split at hreader
    · rename_i hrest
      rw [if_pos hrest]
      exact .inr ⟨hreader, Nat.sub_le _ _⟩
    · rename_i hrest
      rw [if_neg hrest]
      exact .inl (not_not.mp hrest)

lemma handle_tcp_fd_write_reader : (s.handle_tcp_fd_write w₁ w₂).reader = true →
    (s.handle_tcp_fd_write w₁ w₂).dev_to_tcp_buf_count = 0 ∨
      s.reader = true ∧
        (s.handle_tcp_fd_write w₁ w₂).dev_to_tcp_buf_count ≤ s.dev_to_tcp_buf_count := by
  simp only [handle_tcp_fd_write]
  split
  · exact write_data_reader
  cases w₁ with
  | EINTR => exact fun hreader => .inr ⟨hreader, Nat.le_refl _⟩
  | EAGAIN => exact write_data_reader
  | EPIPE => exact fun hreader => by cases hreader
  | error => exact fun hreader => by cases hreader
  | accepted n =>
    dsimp only
    split
    · exact write_data_reader (s := { s with out_telnet_cmd := s.out_telnet_cmd.drop n })
    · exact fun hreader => .inr ⟨hreader, Nat.le_refl _⟩

/-- An event of the transfer. -/
lemma step_fits (hs : s.reader = true → s.dev_to_tcp_buf_count < p.room)
    (hok : ∀ avail ws got, e = .dev_read avail ws → s.reader = true →
      avail.bind (s.dev_read p) = some got →
      s.dev_to_tcp_buf_count + s.stored p got < p.shortest →
      s.dev_to_tcp_buf_count + s.stored p got < p.room)
    (h : s.step p e = some s') : s'.reader = true → s'.dev_to_tcp_buf_count < p.room := by
  have hzero (n : ℕ) (hn : n = 0) : n < p.room := hn ▸ p.room_pos
  cases e with
  | dev_read avail ws =>
    simp only [step] at h
    split at h
    · rename_i hreader
      rw [handle_dev_fd_read] at h
      split at h
      · cases h
        exact fun hreader => by cases hreader
      · cases h
        exact fun hreader => by cases hreader
      · rename_i b l hgot
        have hok := hok avail ws (b :: l) rfl hreader hgot
        obtain ⟨x, hstore, hrest⟩ := Option.bind_eq_some_iff.mp h
        obtain ⟨avail, -, hread⟩ := Option.bind_eq_some_iff.mp hgot
        obtain ⟨hcount, -⟩ := store_count hread hstore
        rw [← hcount] at hok
        split at hrest
        · rename_i hlt
          cases hrest
          exact fun _ => hok hlt
        · exact fun hreader' => hzero _ (tryNetWrite_reader hrest hreader')
    · cases h
      exact hs
  | aged ws =>
    simp only [step] at h
    split at h
    · exact fun hreader => hzero _ (tryNetWrite_reader h hreader)
    · cases h
      exact hs
  | tcp_write w₁ w₂ =>
    simp only [step] at h
    split at h
    · cases h
      intro hreader
      rcases handle_tcp_fd_write_reader hreader with hcount | ⟨hreader', hcount⟩
      · exact hzero _ hcount
      · exact hcount.trans_lt (hs hreader')
    · cases h
      exact hs
  | telnet_output cmd =>
    simp only [step] at h
    split at h
    · cases h
      exact fun hreader => by cases hreader
    · cases h
      exact hs

end Xfer

namespace PortInfo

variable {p p' : PortInfo} {k k' : Kernel} {e : PortEvent} {inuse shut : Bool}

/-- A call is as it should be exactly if there is room for a byte. -/
lemma legalRead_iff : p.LegalRead ↔ p.xfer.dev_to_tcp_buf_count < p.settings.room := by
  have hroom := p.settings.room_le
  constructor
  · intro h
    have := h.asks
    rw [asks] at this
    omega
  · intro h
    refine ⟨by rw [asks]; omega, by rw [asks]; omega, fun avail got s hread hstore => ?_⟩
    have hle := Xfer.stored_le (s := p.xfer) (p := p.settings) got
    rw [(Xfer.store_count hread hstore).1]
    have hlength := Xfer.dev_read_length hread
    split at hle
    · rename_i htelnet
      have hhalf : p.settings.room = PORT_BUFSIZE / 2 := if_pos htelnet
      have : PORT_BUFSIZE = 1400 := rfl
      omega
    · omega

/-! ## The events -/

lemma fits_of_reader (h : p.xfer.reader = false) : p.Fits :=
  fun hreader => Bool.noConfusion (h.symm.trans hreader)

/-- The same transfer, or one in which the device is not read. -/
lemma Fits.of_same (h : p.Fits) (hsame : p'.settings = p.settings)
    (hxfer : p'.xfer = p.xfer ∨ p'.xfer.reader = false) : p'.Fits := by
  rcases hxfer with hxfer | hxfer
  · rw [Fits, hsame, hxfer]
    exact h
  · exact fits_of_reader hxfer

lemma SameEnds.settings (h : SameEnds p p') : p'.settings = p.settings := by
  obtain ⟨henabled, -, hdinfo, -⟩ := h
  rw [PortInfo.settings, PortInfo.settings, henabled, hdinfo]

lemma telnet_read_xfer {r : TcpRead} (data : List UInt8) :
    (p.telnet_read r data).xfer = p.xfer ∨ (p.telnet_read r data).xfer.reader = false := by
  rw [telnet_read]
  split
  · by_cases hr : r.replies = []
    · exact .inl (if_pos hr)
    · refine .inr ?_
      dsimp only
      rw [if_neg hr]
      rfl
  · exact .inl rfl

lemma handle_tcp_fd_read_xfer {r : TcpRead}
    (h : p.handle_tcp_fd_read r k = some (k', p', shut)) :
    p'.xfer = p.xfer ∨ p'.xfer.reader = false := by
  simp only [handle_tcp_fd_read] at h
  split at h
  · cases h
    exact .inl rfl
  · cases h
    exact .inl rfl
  · rename_i b l _
    have hxfer := telnet_read_xfer (p := p) (r := r) (b :: l)
    obtain ⟨q, hq⟩ : ∃ q, q = p.telnet_read r (b :: l) := ⟨_, rfl⟩
    rw [← hq] at h hxfer
    split at h
    · cases h
      exact hxfer
    · split at h
      · cases h
        exact hxfer
      · obtain ⟨w, -, hw⟩ := Option.bind_eq_some_iff.mp h
        split_ifs at hw <;> cases hw <;> exact hxfer

lemma handle_dev_fd_write_xfer {w : Wrote} (h : p.handle_dev_fd_write w k = (k', p', shut)) :
    p'.xfer = p.xfer := by
  simp only [handle_dev_fd_write] at h
  split at h
  case h_5 =>
    split at h <;> cases h <;> rfl
  all_goals
    cases h
    rfl

lemma got_timeout_xfer {replies : List UInt8} (h : p.got_timeout replies k = (k', p', shut)) :
    p'.xfer = p.xfer ∨ p'.xfer.reader = false := by
  simp only [got_timeout] at h
  split_ifs at h <;> cases h <;> first | exact .inl rfl | exact .inr rfl

/-- The start of a session, or an attempt that fails. -/
lemma setup_net_port2_fits {c : SetupCalls} {ok : Bool} (hp : p.Fits)
    (hok : p.enabled = .raw ∨ p.enabled = .udp → c.banner.length < PORT_BUFSIZE)
    (h : p.setup_net_port2 c k = some (k', p', ok)) : p'.Fits := by
  simp only [setup_net_port2] at h
  split at h
  · cases h
    exact hp
  · split at h
    · cases h
      exact hp
    · split at h
      · cases h
        exact hp
      · obtain ⟨k₁, -, hopened⟩ := Option.bind_eq_some_iff.mp h
        split at hopened
        · cases hopened
          exact hp
        · cases hopened
          intro hreader
          have hmode : p.enabled = .raw ∨ p.enabled = .udp := of_decide_eq_true hreader
          have hroom : p.settings.room = PORT_BUFSIZE := by
            refine if_neg ?_
            show p.enabled ≠ .telnet
            rcases hmode with hmode | hmode <;> rw [hmode] <;> decide
          show c.banner.length < p.settings.room
          rw [hroom]
          exact hok hmode

lemma handle_accept_port_read_fits {c : SetupCalls} {accept : Option ℕ} (hp : p.Fits)
    (hok : p.enabled = .raw ∨ p.enabled = .udp → c.banner.length < PORT_BUFSIZE)
    (h : p.handle_accept_port_read inuse accept c k = some (k', p')) : p'.Fits := by
  simp only [handle_accept_port_read] at h
  split at h
  · cases h
    exact hp
  split at h
  · cases h
    exact hp
  · rename_i fd
    obtain ⟨k₁, -, h⟩ := Option.bind_eq_some_iff.mp h
    obtain ⟨⟨k₂, p₂, ok⟩, hsetup, h⟩ := Option.bind_eq_some_iff.mp h
    cases h
    simp only [setup_tcp_port] at hsetup
    split_ifs at hsetup
    · cases hsetup
      exact hp
    · cases hsetup
      exact hp
    · exact setup_net_port2_fits (p := { p with tcpfd := some fd }) hp hok hsetup

lemma handle_initial_UDP_port_read_fits {c : SetupCalls} {peek : Bool} {r : TcpRead} (hp : p.Fits)
    (hok : p.enabled = .raw ∨ p.enabled = .udp → c.banner.length < PORT_BUFSIZE)
    (h : p.handle_initial_UDP_port_read inuse peek c r k = some (k', p', shut)) : p'.Fits := by
  simp only [handle_initial_UDP_port_read] at h
  split at h
  · cases h
    exact hp
  split at h
  · cases h
    exact hp
  obtain ⟨⟨k₁, p₁, ok⟩, hsetup, h⟩ := Option.bind_eq_some_iff.mp h
  have hp₁ := setup_net_port2_fits (p := { p with tcpfd := p.acceptfd }) hp hok hsetup
  simp only at h
  split at h
  · exact hp₁.of_same (handle_tcp_fd_read_sameEnds h).1.settings (handle_tcp_fd_read_xfer h)
  · cases h
    exact hp₁

lemma startup_port_same {calls : SocketCalls} {rv : Option String}
    (h : p.startup_port calls k = some (k', p', rv)) :
    p'.xfer = p.xfer ∧ p'.settings = p.settings := by
  simp only [startup_port] at h
  split at h
  · cases h
    exact ⟨rfl, rfl⟩
  · obtain ⟨k₁, -, hopened⟩ := Option.bind_eq_some_iff.mp h
    split_ifs at hopened <;> cases hopened <;> exact ⟨rfl, rfl⟩

lemma change_port_state_fits {state : Mode} {calls : SocketCalls} {rv : Option String} (hp : p.Fits)
    (hok : p.xfer.reader = true → state = .telnet → p.xfer.dev_to_tcp_buf_count < PORT_BUFSIZE / 2)
    (h : p.change_port_state state calls k = some (k', p', rv)) : p'.Fits := by
  have hmode {q : PortInfo} (hxfer : q.xfer = p.xfer) (henabled : q.enabled = state) : q.Fits := by
    intro hreader
    rw [hxfer] at hreader ⊢
    by_cases hstate : state = .telnet
    · have hroom : q.settings.room = PORT_BUFSIZE / 2 := if_pos (henabled.trans hstate)
      rw [hroom]
      exact hok hreader hstate
    · have hroom : q.settings.room = PORT_BUFSIZE := if_neg fun ht => hstate (henabled.symm.trans ht)
      rw [hroom]
      exact (hp hreader).trans_le p.settings.room_le
  simp only [change_port_state] at h
  split_ifs at h with hsame hoff hstart
  · cases h
    exact hp
  · cases h
    exact hmode rfl hoff.symm
  · obtain ⟨⟨k₁, p₁, rv₁⟩, hstart, hrest⟩ := Option.bind_eq_some_iff.mp h
    cases hrest
    exact hmode (startup_port_same hstart).1 rfl
  · cases h
    exact hmode rfl rfl

lemma portconfig_fits {c : Config} {calls : SocketCalls} (hp : p.Fits)
    (h : p.portconfig c calls k = some (k', p')) : p'.Fits := by
  simp only [portconfig] at h
  split at h
  · obtain ⟨⟨k₁, p₁, rv⟩, hstate, hrest⟩ := Option.bind_eq_some_iff.mp h
    cases hrest
    refine change_port_state_fits ?_ ?_ hstate
    · exact fits_of_reader rfl
    · intro hreader
      cases hreader
  · cases h
    split
    · intro hreader
      exact (hp hreader).trans_le p.settings.room_le
    · exact hp

lemma handle_fits (hp : p.Fits) (hok : p.ReadsFit e)
    (h : p.handle inuse k e = some (k', p', shut)) : p'.Fits := by
  have hsame (h : some (k, p, false) = some (k', p', shut)) : p'.Fits := by
    cases h
    exact hp
  cases e with
  | accept_read accept c =>
    simp only [handle] at h
    split at h
    · obtain ⟨⟨k₁, p₁⟩, haccept, hrest⟩ := Option.bind_eq_some_iff.mp h
      cases hrest
      exact handle_accept_port_read_fits hp hok haccept
    · exact hsame h
  | initial_UDP_read peek c r =>
    simp only [handle] at h
    split at h
    · exact handle_initial_UDP_port_read_fits hp hok h
    · exact hsame h
  | transfer e =>
    obtain ⟨x, hstep, hrest⟩ := Option.bind_eq_some_iff.mp h
    have hx := Xfer.step_fits (p := p.settings) hp (fun avail ws got he => by
      subst he
      exact hok got) hstep
    cases hrest
    split <;> exact hx
  | tcp_read r =>
    simp only [handle] at h
    split at h
    · exact hp.of_same (handle_tcp_fd_read_sameEnds h).1.settings (handle_tcp_fd_read_xfer h)
    · exact hsame h
  | dev_write w =>
    simp only [handle] at h
    split at h
    · have h := Option.some.inj h
      exact hp.of_same (handle_dev_fd_write_sameEnds h).1.settings
        (.inl (handle_dev_fd_write_xfer h))
    · exact hsame h
  | except =>
    cases h
    exact hp
  | timeout replies =>
    simp only [handle] at h
    split at h
    · have h := Option.some.inj h
      exact hp.of_same (got_timeout_sameEnds h).1.settings (got_timeout_xfer h)
    · exact hsame h
  | disconnect =>
    cases h
    exact hp
  | setportenable state calls =>
    obtain ⟨⟨k₁, p₁, rv⟩, hstate, hrest⟩ := Option.bind_eq_some_iff.mp h
    cases hrest
    exact change_port_state_fits hp hok hstate
  | portconfig c calls =>
    obtain ⟨⟨k₁, p₁⟩, hconfig, hrest⟩ := Option.bind_eq_some_iff.mp h
    cases hrest
    exact portconfig_fits hp hconfig

/-- After the end of a session the device is not read. -/
lemma shutdown_port_fits (h : p.shutdown_port k = (k', some p')) : p'.Fits := by
  refine fits_of_reader ?_
  simp only [shutdown_port] at h
  split at h
  · cases h
  · split at h <;> cases h <;> rfl

lemma start_fits {c : Config} {calls : SocketCalls} (h : c.start calls k = some (k', some p')) :
    p'.Fits := by
  simp only [Config.start] at h
  split at h
  · cases h
    exact fits_of_reader rfl
  · obtain ⟨⟨k₁, p₁, rv⟩, hstart, hrest⟩ := Option.bind_eq_some_iff.mp h
    simp only at hrest
    split at hrest
    · cases hrest
      refine fits_of_reader ?_
      rw [(startup_port_same hstart).1]
      rfl
    · cases hrest

end PortInfo

/-! ## A run -/

namespace MainLoop

variable {N : Type*} [DecidableEq N] {s s' : MainLoop N} {e : ControlEvent N} {name : N}
  {p : PortInfo} {k : Kernel}

lemma fits_step (hs : ∀ n p, s.ports.lookup n = some p → p.Fits) (hok : s.ReadsFit e)
    (h : s.control_step e = some s') : ∀ n p, s'.ports.lookup n = some p → p.Fits := by
  -- it is enough to look at the port that the event is about
  have hset (name : N) (r : Kernel × Option PortInfo) (hr : ∀ p, r.2 = some p → p.Fits) :
      ∀ n p, (s.set name r).ports.lookup n = some p → p.Fits := by
    intro n p hp
    by_cases hn : n = name
    · rw [hn, lookup_set] at hp
      exact hr p hp
    · rw [lookup_set_of_ne hn] at hp
      exact hs n p hp
  cases e with
  | setportdevcfg name l =>
    simp only [control_step] at h
    split at h
    · cases h
      exact hs
    · rename_i p hp
      cases h
      refine hset name _ fun p' hp' => ?_
      cases hp'
      exact hs name p hp
  | loop e =>
    obtain rfl | ⟨name, e', p, r, rfl, hp, hr, rfl⟩ | ⟨name, c, calls, r, -, -, hr, rfl⟩ |
      ⟨name, n, p, -, hp, rfl⟩ := step_cases h
    · exact hs
    · refine hset name r fun p' hp' => ?_
      obtain ⟨⟨k₁, p₁, shut⟩, hhandle, hfinish⟩ := Option.map_eq_some_iff.mp hr
      cases shut with
      | false =>
        cases hfinish
        cases hp'
        exact PortInfo.handle_fits (hs name p hp) (hok name e' p rfl hp) hhandle
      | true =>
        have hshut : p₁.shutdown_port k₁ = (r.1, some p') := by
          show PortInfo.finish (k₁, p₁, true) = (r.1, some p')
          rw [hfinish, ← hp']
        exact PortInfo.shutdown_port_fits hshut
    · refine hset name r fun p' hp' => ?_
      obtain ⟨k₁, q⟩ := r
      cases hp'
      exact PortInfo.start_fits hr
    · refine hset name _ fun p' hp' => ?_
      simp only [PortInfo.clear_old_port_config] at hp'
      split_ifs at hp' <;> cases hp'
      · exact hs name p hp
      · exact hs name p hp

/-- In every run in which no session of a raw or a UDP port starts with a full buffer, no read that
waits for more fills what is read into, and no port whose device is read is made a telnet port while
half of the buffer or more waits, each call of `handle_dev_fd_read` is as it should be. -/
theorem legal_reads (h : Reach control_step ReadsFit (init k) s)
    (hp : s.ports.lookup name = some p) (hreader : p.xfer.reader = true) : p.LegalRead := by
  have hinv : ∀ n p, s.ports.lookup n = some p → p.Fits := by
    refine h.induction_on (P := fun s => ∀ n p, s.ports.lookup n = some p → p.Fits) ?_
      fun s e s' hs hok h => fits_step hs hok h
    intro n p hp
    cases hp
  exact PortInfo.legalRead_iff.mpr (hinv name p hp hreader)

lemma readsFit_new_port {c : Config} {calls : SocketCalls} :
    s.ReadsFit (.loop (.new_port name c calls)) := by
  rintro name' e' q he
  cases he

lemma readsFit_setportdevcfg {l : List DevOption} : s.ReadsFit (.setportdevcfg name l) := by
  rintro name' e' q he
  cases he

lemma readsFit_port {e : PortEvent} (hp : s.ports.lookup name = some p) (h : p.ReadsFit e) :
    s.ReadsFit (.loop (.port name e)) := by
  rintro name' e' q he hq
  cases he
  cases hp.symm.trans hq
  exact h

/-- The configuration of a raw port asks for more than the buffer holds, but what is read does not
fill it. -/
theorem legal_reads_waiting :
    ∃ (s : MainLoop ℕ) (p : PortInfo), s.ports.lookup 2000 = some p ∧ p.dinfo.shortest = 2000 ∧
      p.xfer.received = [65, 66] ∧ p.xfer.dev_to_tcp_buf_count = 2 ∧ p.LegalRead := by
  have hrun : ∃ (s : MainLoop ℕ) (p : PortInfo), Reach control_step ReadsFit (init .empty) s ∧
      s.ports.lookup 2000 = some p ∧ p.dinfo.shortest = 2000 ∧ p.xfer.received = [65, 66] ∧
      p.xfer.dev_to_tcp_buf_count = 2 ∧ p.xfer.reader = true := by
    refine ⟨_, _, (((Reach.init.step (e := .loop (.new_port 2000 (configOf .raw 5) socketCalls))
      readsFit_new_port rfl).step (e := .loop (.port 2000 (.accept_read (some 4) (setupCalls []))))
      (readsFit_port rfl fun _ => by decide) rfl).step
      (e := .setportdevcfg 2000 [.shortest (some 2000)]) readsFit_setportdevcfg rfl).step
      (e := .loop (.port 2000 (.transfer (.dev_read (some [65, 66]) []))))
      (readsFit_port rfl ?_) rfl, rfl, rfl, rfl, rfl, rfl⟩
    rintro got - hgot -
    cases hgot
    decide
  obtain ⟨s, p, hreach, hp, hshortest, hreceived, hcount, hreader⟩ := hrun
  exact ⟨s, p, hp, hshortest, hreceived, hcount, legal_reads hreach hp hreader⟩

set_option maxRecDepth 20000 in
/-- With the same configuration a read of 1400 bytes waits for more, and the next one asks for
none. -/
theorem read_of_nothing :
    ∃ (s : MainLoop ℕ) (p : PortInfo), replay control_step (init .empty)
      [.loop (.new_port 2000 (configOf .raw 5) socketCalls),
        .loop (.port 2000 (.accept_read (some 4) (setupCalls []))),
        .setportdevcfg 2000 [.shortest (some 2000)],
        .loop (.port 2000 (.transfer (.dev_read (some (List.replicate 1400 65)) [])))] = some s ∧
      s.ports.lookup 2000 = some p ∧ p.xfer.reader = true ∧ p.asks = 0 ∧ ¬ p.LegalRead := by
  have hrun : ∃ (s : MainLoop ℕ) (p : PortInfo), replay control_step (init .empty)
      [.loop (.new_port 2000 (configOf .raw 5) socketCalls),
        .loop (.port 2000 (.accept_read (some 4) (setupCalls []))),
        .setportdevcfg 2000 [.shortest (some 2000)],
        .loop (.port 2000 (.transfer (.dev_read (some (List.replicate 1400 65)) [])))] = some s ∧
      s.ports.lookup 2000 = some p ∧ p.xfer.reader = true ∧ p.asks = 0 :=
    ⟨_, _, rfl, rfl, rfl, rfl⟩
  obtain ⟨s, p, hreplay, hp, hreader, hasks⟩ := hrun
  exact ⟨s, p, hreplay, hp, hreader, hasks, fun h => absurd h.asks (by rw [hasks]; decide)⟩

end MainLoop

end EspLinux.Ser2net
