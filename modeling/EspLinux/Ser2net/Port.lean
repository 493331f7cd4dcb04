import EspLinux.Ser2net.Selector

/-!
# Ports

A port listens on a socket, or waits on a UDP socket, and connects the first one that comes to a
serial device until the session is shut down.  `startup_port` opens the socket, `setup_net_port2`
starts a session, the handlers move the data and `shutdown_port` ends the session.  The mode of
the port may be changed at any time by `setportenable`, and `portconfig` replaces the record of a
port that is not connected and leaves a new configuration with one that is.

A handler that ends the session does it last.  So a handler returns, beside the record, whether
it calls `shutdown_port`, and `PortInfo.finish` does it.  What the calls of the system return is
given to the functions.  Ports are numbered here: the one that uses the standard input and output
exists only once, has no socket and exits when its session ends.
-/

namespace EspLinux.Ser2net

open EspLinux.Lib

/-! ## Records -/

/-- `dev_info_t`, as far as it is looked at. -/
structure DevInfo where
  shortest : ℕ
  /-- `maxAge` is not zero. -/
  maxAge : Bool
  disablebreak : Bool
deriving DecidableEq, Repr

/-- What `portconfig` has made of its arguments. -/
structure Config where
  enabled : Mode
  timeout : ℕ
  devname : List Char
  dinfo : DevInfo
  config_num : ℕ
deriving DecidableEq, Repr

/-- `port_info_t` -/
structure PortInfo where
  enabled : Mode
  timeout : ℕ
  timeout_left : ℤ
  /-- The timer that counts `timeout_left` down is in the heap. -/
  timer : Bool
  acceptfd : Option ℕ
  tcpfd : Option ℕ
  devname : List Char
  devfd : Option ℕ
  tcp_to_dev_state : PortState
  /-- The bytes that are ready to be sent. -/
  tcp_to_dev_buf : List UInt8
  /-- The other direction, and the timer `age`. -/
  xfer : Xfer
  /-- The number -1 means that the port is deleted when the session ends. -/
  config_num : Option ℕ
  new_config : Option Config
  tn_data : TelnetData
  dinfo : DevInfo
  /-- The last `startup_port` has succeeded, and what it has opened has not been closed. -/
  started : Bool

/-- The transfer of a port that has not been connected yet. -/
def Xfer.idle : Xfer :=
  { dev_to_tcp_state := .unconnected
    dev_to_tcp_buf := fun _ => 0
    front := fun _ => 0
    dev_to_tcp_buf_start := 0
    dev_to_tcp_buf_count := 0
    reader := false
    writer := false
    age := false
    out_telnet_cmd := []
    received := []
    sent := [] }

/-- `portconfig` does not let `shortest` be more than fits into the buffer. -/
def Config.shortest (c : Config) : ℕ :=
  min c.dinfo.shortest (if c.enabled = .telnet then PORT_BUFSIZE / 2 else PORT_BUFSIZE)

/-- `init_port_data`, and what `portconfig` fills in. -/
def Config.port (c : Config) : PortInfo :=
  { enabled := c.enabled
    timeout := c.timeout
    timeout_left := 0
    timer := false
    acceptfd := none
    tcpfd := none
    devname := c.devname
    devfd := some 0
    tcp_to_dev_state := .unconnected
    tcp_to_dev_buf := []
    xfer := .idle
    config_num := some c.config_num
    new_config := none
    tn_data := .init
    dinfo := { c.dinfo with shortest := c.shortest }
    started := false }

namespace PortInfo

/-- What the transfer looks at. -/
def settings (p : PortInfo) : Settings :=
  { enabled := p.enabled, shortest := p.dinfo.shortest, maxAge := p.dinfo.maxAge }

/-- `reset_timer` -/
def reset_timer (p : PortInfo) : PortInfo := { p with timeout_left := p.timeout }

/-! ## The socket that accepts connections -/

/-- `setAcceptReadHandler` -/
def setAcceptReadHandler (p : PortInfo) (k : Kernel) : Kernel :=
  k.sel_set_fd_handlers p.acceptfd <| some <|
    if p.enabled = .udp then .handle_initial_UDP_port_read else .handle_accept_port_read

end PortInfo

/-- What the system returns to `startup_port`. -/
structure SocketCalls where
  socket : Option ℕ
  fcntl : Bool
  setsockopt : Bool
  bind : Bool
  listen : Bool

namespace PortInfo

/-- `startup_port`, with the error that it returns. -/
def startup_port (c : SocketCalls) (p : PortInfo) (k : Kernel) :
    Option (Kernel × PortInfo × Option String) :=
  match c.socket with
  | none =>
    some (k, { p with acceptfd := none, started := false }, some "Unable to create network socket")
  | some fd => do
    let k ← k.open_fd fd (if p.enabled = .udp then .dgram else .stream)
    let p := { p with acceptfd := some fd, started := false }
    if !c.fcntl then some (k.close p.acceptfd, p, some "Could not fcntl the accept port")
    else if !c.setsockopt then
      some (k.close p.acceptfd, p, some "Unable to set reuseaddress on socket")
    else if !c.bind then some (k.close p.acceptfd, p, some "Unable to bind network port")
    else if p.enabled ≠ .udp ∧ !c.listen then
      some (k.close p.acceptfd, p, some "Unable to listen to TCP port")
    else
      let k := if p.enabled = .udp then k else k.listen p.acceptfd
      let k := p.setAcceptReadHandler k
      some (k.sel_set_fd_read_handler p.acceptfd true, { p with started := true }, none)

/-- What `change_port_state` does for `PORT_DISABLED`. -/
def disable (p : PortInfo) (k : Kernel) : Kernel × PortInfo :=
  let k := k.sel_set_fd_read_handler p.acceptfd false
  let k := k.sel_clear_fd_handlers p.acceptfd
  (k.close p.acceptfd, { p with acceptfd := none, started := false, enabled := .off })

/-- `change_port_state` -/
def change_port_state (state : Mode) (c : SocketCalls) (p : PortInfo) (k : Kernel) :
    Option (Kernel × PortInfo × Option String) :=
  if p.enabled = state then some (k, p, none)
  else if state = .off then
    let (k, p) := p.disable k
    some (k, p, none)
  else if p.enabled = .off then do
    let (k, p, rv) ← p.startup_port c k
    some (k, { p with enabled := state }, rv)
  else some (k, { p with enabled := state }, none)

/-- `free_port`.  The timers are taken out of the heap with the record. -/
def free_port (p : PortInfo) (k : Kernel) : Kernel :=
  if p.enabled = .off then k else (p.disable k).1

/-! ## The end of a session -/

/-- `shutdown_port`, with the record that is in the list of the ports then. -/
def shutdown_port (p : PortInfo) (k : Kernel) : Kernel × Option PortInfo :=
  let k := k.sel_clear_fd_handlers p.devfd
  let k := k.sel_clear_fd_handlers p.tcpfd
  let k :=
    if p.enabled = .udp then
      let k := k.sel_set_fd_handlers p.acceptfd (some .handle_initial_UDP_port_read)
      k.sel_set_fd_read_handler p.acceptfd true
    else k.close p.tcpfd
  let k := k.close p.devfd
  let k := uucp_rm_lock p.devname k
  let p := { p with
    timer := false
    tcp_to_dev_state := .unconnected
    tcp_to_dev_buf := []
    xfer := p.xfer.shutdown }
  match p.config_num with
  | none => (p.free_port k, none)
  | some _ =>
    match p.new_config with
    | none => (k, some p)
    | some c =>
      let port := { c.port with acceptfd := p.acceptfd, started := p.started }
      let k := port.setAcceptReadHandler k
      (({ p with enabled := .off, acceptfd := none } : PortInfo).free_port k, some port)

/-- What a handler leaves: it may call `shutdown_port` last. -/
def finish : Kernel × PortInfo × Bool → Kernel × Option PortInfo
  | (k, p, true) => p.shutdown_port k
  | (k, p, false) => (k, some p)

/-! ## The start of a session -/

/-- `telnet_init_seq` -/
def telnet_init_seq : List UInt8 := [255, 251, 0, 255, 251, 1, 255, 251, 3, 255, 251, 44]

end PortInfo

/-- What the system returns to `setup_tcp_port` and `setup_net_port2`. -/
structure SetupCalls where
  setsockopt : Bool
  hosts_access : Bool
  fcntl : Bool
  lock : LockCalls
  devfd : Option ℕ
  tcsetattr : Bool
  /-- What `display_banner` leaves in the buffer. -/
  banner : List UInt8

namespace PortInfo

/-- `setup_net_port2`, and whether it succeeds. -/
def setup_net_port2 (c : SetupCalls) (p : PortInfo) (k : Kernel) :
    Option (Kernel × PortInfo × Bool) :=
  if !c.fcntl then some (k.close p.tcpfd, p, false)
  else
    let (rv, k) := uucp_mk_lock p.devname c.lock k
    if rv ≠ 0 then some (k.close p.tcpfd, p, false)
    else
      match c.devfd with
      | none => some (uucp_rm_lock p.devname (k.close p.tcpfd), { p with devfd := none }, false)
      | some fd => do
        let k ← k.open_fd fd .device
        let p := { p with devfd := some fd }
        if p.enabled ≠ .rawlp ∧ !p.dinfo.disablebreak ∧ !c.tcsetattr then
          some (uucp_rm_lock p.devname ((k.close p.tcpfd).close p.devfd), p, false)
        else
          let k := k.sel_set_fd_handlers p.devfd <|
            if p.enabled = .rawlp then none else some .handle_dev_fd_read
          let k := k.sel_set_fd_handlers p.tcpfd (some .handle_tcp_fd_read)
          let k := k.sel_set_fd_read_handler p.tcpfd true
          let telnet := decide (p.enabled = .telnet)
          let p := { p with
            xfer := .opened p.settings c.banner p.xfer.dev_to_tcp_buf p.xfer.front p.xfer.age
              (if telnet then telnet_init_seq else p.xfer.out_telnet_cmd)
            tcp_to_dev_state := .waiting_input
            tn_data := if telnet then .init else p.tn_data
            timer := true }
          some (k, p.reset_timer, true)

/-- `setup_tcp_port`, and whether it succeeds. -/
def setup_tcp_port (c : SetupCalls) (p : PortInfo) (k : Kernel) :
    Option (Kernel × PortInfo × Bool) :=
  if !c.setsockopt then some (k.close p.tcpfd, p, false)
  else if !c.hosts_access then some (k.close p.tcpfd, p, false)
  else p.setup_net_port2 c k

/-- `handle_accept_port_read`, where `inuse` is the answer of `is_device_already_inuse`.  A
connection that is refused is accepted and closed. -/
def handle_accept_port_read (inuse : Bool) (accept : Option ℕ) (c : SetupCalls) (p : PortInfo)
    (k : Kernel) : Option (Kernel × PortInfo) :=
  if p.tcp_to_dev_state ≠ .unconnected ∨ inuse then some (k, p)
  else
    match accept with
    | none => some (k, { p with tcpfd := none })
    | some fd => do
      let k ← k.open_fd fd .connection
      let (k, p, _) ← setup_tcp_port c { p with tcpfd := some fd } k
      some (k, p)

/-! ## From the network to the device -/

/-- What `write` returns when it is called again after each EINTR. -/
def answer : List Wrote → Option Wrote
  | [] => none
  | .EINTR :: ws => answer ws
  | w :: _ => some w

end PortInfo

/-- What `handle_tcp_fd_read` gets. -/
structure TcpRead where
  /-- What `read` gets, where `none` is an error. -/
  data : Option (List UInt8)
  /-- What the telnet code answers to commands. -/
  replies : List UInt8
  /-- The telnet code has had no room for an answer. -/
  error : Bool
  /-- What `write` returns for the device. -/
  writes : List Wrote

namespace PortInfo

/-- `process_telnet_data` on a telnet port. -/
def telnet_read (r : TcpRead) (data : List UInt8) (p : PortInfo) : PortInfo :=
  if p.enabled = .telnet then
    let (data, td) := process_telnet_data data p.tn_data
    { p with
      tcp_to_dev_buf := data
      tn_data := td
      xfer := if r.replies = [] then p.xfer else p.xfer.telnet_output_ready r.replies }
  else { p with tcp_to_dev_buf := data }

/-- `handle_tcp_fd_read` -/
def handle_tcp_fd_read (r : TcpRead) (p : PortInfo) (k : Kernel) :
    Option (Kernel × PortInfo × Bool) :=
  match r.data with
  | none => some (k, { p with tcp_to_dev_buf := [] }, true)
  | some [] => some (k, { p with tcp_to_dev_buf := [] }, decide (p.enabled ≠ .udp))
  | some (b :: l) =>
    let p := p.telnet_read r (b :: l)
    if p.enabled = .telnet ∧ r.error then some (k, p, true)
    else if p.tcp_to_dev_buf = [] then some (k, p, false)
    else do
      let w ← answer r.writes
      let rest := match w with
        | .accepted n => p.tcp_to_dev_buf.drop n
        | _ => p.tcp_to_dev_buf
      let p := { p with tcp_to_dev_buf := rest }
      if w = .EPIPE ∨ w = .error then some (k, p, true)
      else if rest ≠ [] then
        some (k.sel_set_fd_read_handler p.tcpfd false,
          { p with tcp_to_dev_state := .waiting_output_clear }.reset_timer, false)
      else some (k, p.reset_timer, false)

/-- `handle_dev_fd_write` -/
def handle_dev_fd_write (w : Wrote) (p : PortInfo) (k : Kernel) : Kernel × PortInfo × Bool :=
  match w with
  | .EINTR => (k, p, false)
  | .EAGAIN => (k, p.reset_timer, false)
  | .EPIPE => (k, p, true)
  | .error => (k, p, true)
  | .accepted n =>
    let p := { p with tcp_to_dev_buf := p.tcp_to_dev_buf.drop n }
    if p.tcp_to_dev_buf ≠ [] then (k, p.reset_timer, false)
    else
      (k.sel_set_fd_read_handler p.tcpfd true,
        { p with tcp_to_dev_state := .waiting_input }.reset_timer, false)

/-- `handle_initial_UDP_port_read`, where `peek` tells whether the sender is found. -/
def handle_initial_UDP_port_read (inuse peek : Bool) (c : SetupCalls) (r : TcpRead)
    (p : PortInfo) (k : Kernel) : Option (Kernel × PortInfo × Bool) :=
  if inuse then some (k, p, false)
  else if !peek then some (k, p, false)
  else do
    let (k, p, ok) ← setup_net_port2 c { p with tcpfd := p.acceptfd } k
    if ok then p.handle_tcp_fd_read r k else some (k, p, false)

/-! ## From the device to the network -/

/-- `write` fails in a way that ends the session. -/
def fails (w : Option Wrote) : Bool := decide (w = some .EPIPE ∨ w = some .error)

/-- The event of the transfer calls `shutdown_port`. -/
def shuts (p : PortInfo) : Event → Bool
  | .dev_read avail ws =>
    p.xfer.reader &&
      match avail.bind fun avail => p.xfer.dev_read p.settings avail with
      | none => true
      | some [] => true
      | some (b :: l) =>
        match p.xfer.store p.settings (b :: l) with
        | none => false
        | some x => decide (p.dinfo.shortest ≤ x.dev_to_tcp_buf_count) && fails (answer ws)
  | .aged ws => p.xfer.age && fails (answer ws)
  | .tcp_write w₁ w₂ =>
    p.xfer.writer &&
      if p.xfer.out_telnet_cmd = [] then fails (some w₂)
      else
        match w₁ with
        | .EINTR => false
        | .EAGAIN => fails (some w₂)
        | .EPIPE => true
        | .error => true
        | .accepted n => decide (p.xfer.out_telnet_cmd.drop n = []) && fails (some w₂)
  | .telnet_output _ => false

/-- The event comes to the `reset_timer` of its handler. -/
def resets (p : PortInfo) : Event → Bool
  | .dev_read _ _ => p.xfer.reader
  | .aged _ => false
  | .tcp_write w₁ w₂ =>
    p.xfer.writer && w₂ != .EINTR &&
      if p.xfer.out_telnet_cmd = [] then true
      else
        match w₁ with
        | .EAGAIN => true
        | .accepted n => decide (p.xfer.out_telnet_cmd.drop n = [])
        | _ => false
  | .telnet_output _ => false

/-- An event of the transfer. -/
def transfer (e : Event) (p : PortInfo) (k : Kernel) : Option (Kernel × PortInfo × Bool) := do
  let x ← p.xfer.step p.settings e
  let p' := { p with xfer := x }
  some (k, if p.resets e then p'.reset_timer else p', p.shuts e)

/-- `got_timeout`, which the timer calls when it has left the heap.  The telnet code may have a
change of the modem lines to tell. -/
def got_timeout (replies : List UInt8) (p : PortInfo) (k : Kernel) : Kernel × PortInfo × Bool :=
  let p := { p with timer := false }
  let p := if p.timeout ≠ 0 then { p with timeout_left := p.timeout_left - 1 } else p
  if p.timeout ≠ 0 ∧ p.timeout_left < 0 then (k, p, true)
  else
    (k, { p with
      xfer := if replies = [] then p.xfer else p.xfer.telnet_output_ready replies
      timer := true }, false)

end PortInfo

end EspLinux.Ser2net
