import EspLinux.Lib.Loop
import EspLinux.Lib.Memory
import EspLinux.Ser2net.Telnet

/-!
# From the device to the network

The bytes that a port reads from its device wait in `dev_to_tcp_buf` until they are written to
the network: `dev_to_tcp_buf_count` of them from `dev_to_tcp_buf_start` on.  They are written
when `shortest` of them have come together or the oldest are `maxAge` old, and what the network
does not take then is written when it is ready for more.

Three handlers work on the buffer.  `handle_dev_fd_read` stores what it reads from position
`dev_to_tcp_buf_count` on and `tryNetWrite` writes from position 0 on, so that both rely on
`dev_to_tcp_buf_start` being 0; `handle_tcp_fd_write` writes from there on.  When half of the buffer
is read at once and all of it is IACs, `handle_dev_fd_read` stores a byte behind the buffer, into
`dev_to_tcp_buf_start`.
-/

namespace EspLinux.Ser2net

open EspLinux.Lib

/-! ## Ports -/

/-- The modes of a port, `PORT_DISABLED` to `PORT_TELNET`. -/
inductive Mode
  | off
  | udp
  | raw
  | rawlp
  | telnet
deriving DecidableEq, Repr

/-- `PORT_UNCONNECTED` and the two states of a transfer. -/
inductive PortState
  | unconnected
  | waiting_input
  | waiting_output_clear
deriving DecidableEq, Repr

/-- `PORT_BUFSIZE` -/
def PORT_BUFSIZE : ℕ := 1400

/-- What the handlers look at in the configuration of the port. -/
structure Settings where
  enabled : Mode
  shortest : ℕ
  /-- `maxAge` is not zero. -/
  maxAge : Bool

/-- What is read into: half of the buffer on a telnet port, since the IACs are doubled. -/
def Settings.room (p : Settings) : ℕ :=
  if p.enabled = .telnet then PORT_BUFSIZE / 2 else PORT_BUFSIZE

/-- What `write` returns for the network. -/
inductive Wrote
  /-- It takes so many bytes, or all if there are not as many. -/
  | accepted (n : ℕ)
  | EINTR
  | EAGAIN
  | EPIPE
  | error
deriving DecidableEq, Repr

/-- The part of a port that the transfer works on. -/
structure Xfer where
  dev_to_tcp_state : PortState
  dev_to_tcp_buf : ℕ → UInt8
  /-- The memory in front of the buffer, backwards. -/
  front : ℕ → UInt8
  dev_to_tcp_buf_start : ℤ
  dev_to_tcp_buf_count : ℕ
  /-- The read handler of the device is enabled. -/
  reader : Bool
  /-- The write handler of the network is enabled. -/
  writer : Bool
  /-- The timer for `maxAge` is in the heap. -/
  age : Bool
  out_telnet_cmd : List UInt8
  /-- What has been read from the device. -/
  received : List UInt8
  /-- What has been written to the network from the buffer. -/
  sent : List UInt8

namespace Xfer

/-- The byte at a position of the buffer, or in front of it. -/
def byte (s : Xfer) (z : ℤ) : UInt8 :=
  if 0 ≤ z then s.dev_to_tcp_buf z.toNat else s.front (-z).toNat

/-- The bytes that are ready to be sent. -/
def window (s : Xfer) : List UInt8 :=
  slice (fun j => s.byte (s.dev_to_tcp_buf_start + j)) 0 s.dev_to_tcp_buf_count

/-- The part of `shutdown_port` that concerns the transfer.  The timer goes on. -/
def shutdown (s : Xfer) : Xfer :=
  { s with
    dev_to_tcp_state := .unconnected
    dev_to_tcp_buf_start := 0
    dev_to_tcp_buf_count := 0
    reader := false
    writer := false }

/-- Wait until the network is ready for more, after `write` has returned `write_count`. -/
def clearOutput (write_count : ℤ) (s : Xfer) : Xfer :=
  { s with
    dev_to_tcp_buf_start := s.dev_to_tcp_buf_start + write_count
    reader := false
    writer := true
    dev_to_tcp_state := .waiting_output_clear }

/-- The network has taken `n` bytes of `data`. -/
def take (n : ℕ) (data : List UInt8) (s : Xfer) : Xfer :=
  { s with
    dev_to_tcp_buf_count := s.dev_to_tcp_buf_count - n
    sent := s.sent ++ data.take n }

/-- `tryNetWrite`, where `write` returns the given values one after another. -/
def tryNetWrite : List Wrote → Xfer → Option Xfer
  | [], _ => none
  | .EINTR :: ws, s => tryNetWrite ws s
  | .EAGAIN :: _, s => some (s.clearOutput (-1))
  | .EPIPE :: _, s => some s.shutdown
  | .error :: _, s => some s.shutdown
  | .accepted n :: _, s =>
    let write_count := min n s.dev_to_tcp_buf_count
    let s := s.take write_count (slice s.dev_to_tcp_buf 0 s.dev_to_tcp_buf_count)
    if s.dev_to_tcp_buf_count ≠ 0 then some (s.clearOutput write_count) else some s

end Xfer

/-- An iteration of the loop that doubles the IACs: the position, `read_count` and the memory from
the buffer on.  Half of the buffer is read into, so this fits, but the byte behind what has been read
is moved too. -/
def double_iac (r : ℕ × ℕ × (ℕ → UInt8)) : (ℕ × ℕ × (ℕ → UInt8)) ⊕ (ℕ × (ℕ → UInt8)) :=
  let (i, read_count, buf) := r
  if i < read_count then
    if buf i = TN_IAC then
      let buf := put buf (i + 2) (slice buf (i + 1) (read_count - i))
      .inl (i + 2, read_count + 1, Function.update buf (i + 1) TN_IAC)
    else
      .inl (i + 1, read_count, buf)
  else
    .inr (read_count, buf)

namespace Xfer

/-- What `read` gets from a device that has `avail` to give.  A negative size is an error. -/
def dev_read (p : Settings) (avail : List UInt8) (s : Xfer) : Option (List UInt8) :=
  if s.dev_to_tcp_buf_count ≤ p.room then some (avail.take (p.room - s.dev_to_tcp_buf_count))
  else none

/-- The memory that the loop works on: the lowest byte of `dev_to_tcp_buf_start` comes behind the
buffer. -/
def memory (s : Xfer) : ℕ → UInt8 :=
  Function.update s.dev_to_tcp_buf PORT_BUFSIZE
    (UInt8.ofNat (s.dev_to_tcp_buf_start % 2 ^ 8).toNat)

/-- The loop has left the given memory. -/
def set_memory (memory : ℕ → UInt8) (s : Xfer) : Xfer :=
  { s with
    dev_to_tcp_buf := memory
    dev_to_tcp_buf_start :=
      s.dev_to_tcp_buf_start - s.dev_to_tcp_buf_start % 2 ^ 8 + (memory PORT_BUFSIZE).toNat }

/-- What `read` returns is stored, and on a telnet port the IACs are doubled. -/
def store (p : Settings) (got : List UInt8) (s : Xfer) : Option Xfer := do
  let s := { s with
    dev_to_tcp_buf := put s.dev_to_tcp_buf s.dev_to_tcp_buf_count got
    received := s.received ++ got }
  if p.enabled = .telnet then
    let (read_count, memory) ← loop double_iac (got.length + 1) (0, got.length, s.memory)
    some { s.set_memory memory with dev_to_tcp_buf_count := s.dev_to_tcp_buf_count + read_count }
  else
    some { s with dev_to_tcp_buf_count := s.dev_to_tcp_buf_count + got.length }

/-- `handle_dev_fd_read`, from a device that has `avail` to give, where `none` is an error. -/
def handle_dev_fd_read (p : Settings) (avail : Option (List UInt8)) (ws : List Wrote) (s : Xfer) :
    Option Xfer :=
  match avail.bind fun avail => s.dev_read p avail with
  | none => some s.shutdown
  | some [] => some s.shutdown
  | some (b :: l) => do
    let s ← s.store p (b :: l)
    if s.dev_to_tcp_buf_count < p.shortest then
      some { s with age := s.age || p.maxAge }
    else
      tryNetWrite ws { s with age := false }

/-- `aged`, which the timer calls when it has left the heap. -/
def aged (ws : List Wrote) (s : Xfer) : Option Xfer := tryNetWrite ws { s with age := false }

/-- The second half of `handle_tcp_fd_write`. -/
def write_data (w : Wrote) (s : Xfer) : Xfer :=
  match w with
  | .EINTR => s
  | .EAGAIN => s
  | .EPIPE => s.shutdown
  | .error => s.shutdown
  | .accepted n =>
    let write_count := min n s.dev_to_tcp_buf_count
    let s := s.take write_count s.window
    if s.dev_to_tcp_buf_count ≠ 0 then
      { s with dev_to_tcp_buf_start := s.dev_to_tcp_buf_start + write_count }
    else
      { s with reader := true, writer := false, dev_to_tcp_state := .waiting_input }

/-- `handle_tcp_fd_write`, with what the two writes return. -/
def handle_tcp_fd_write (w₁ w₂ : Wrote) (s : Xfer) : Xfer :=
  if s.out_telnet_cmd = [] then s.write_data w₂
  else
    match w₁ with
    | .EINTR => s
    | .EAGAIN => s.write_data w₂
    | .EPIPE => s.shutdown
    | .error => s.shutdown
    | .accepted n =>
      let s := { s with out_telnet_cmd := s.out_telnet_cmd.drop n }
      if s.out_telnet_cmd = [] then s.write_data w₂ else s

/-- `telnet_output_ready`, when `cmd` has been added to what the telnet code has to send. -/
def telnet_output_ready (cmd : List UInt8) (s : Xfer) : Xfer :=
  { s with reader := false, writer := true, out_telnet_cmd := s.out_telnet_cmd ++ cmd }

/-- The transfer of a port that has just been connected: the banner waits in the buffer.  The
buffer starts at 0 since `shutdown_port`, or `init_port_data` before the first session, has put the
start there; setting up a session does not.  The timer may still be in the heap.  The device of a
`rawlp` port has no read handler. -/
def opened (p : Settings) (banner : List UInt8) (buf front : ℕ → UInt8) (age : Bool)
    (out_telnet_cmd : List UInt8) : Xfer :=
  { dev_to_tcp_state := .waiting_input
    dev_to_tcp_buf := put buf 0 banner
    front := front
    dev_to_tcp_buf_start := 0
    dev_to_tcp_buf_count := banner.length
    reader := decide (p.enabled = .raw ∨ p.enabled = .udp)
    writer := decide (p.enabled = .telnet)
    age := age
    out_telnet_cmd := out_telnet_cmd
    received := []
    sent := [] }

end Xfer

/-- What happens to the transfer. -/
inductive Event
  | dev_read (avail : Option (List UInt8)) (ws : List Wrote)
  | aged (ws : List Wrote)
  | tcp_write (w₁ w₂ : Wrote)
  | telnet_output (cmd : List UInt8)

/-- One event.  Handlers that are not enabled are not called. -/
def Xfer.step (p : Settings) (s : Xfer) : Event → Option Xfer
  | .dev_read avail ws => if s.reader then s.handle_dev_fd_read p avail ws else some s
  | .aged ws => if s.age then s.aged ws else some s
  | .tcp_write w₁ w₂ => if s.writer then some (s.handle_tcp_fd_write w₁ w₂) else some s
  | .telnet_output cmd =>
    if p.enabled = .telnet ∧ s.dev_to_tcp_state ≠ .unconnected then some (s.telnet_output_ready cmd)
    else some s

end EspLinux.Ser2net
