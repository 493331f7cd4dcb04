import EspLinux.Ccd.Driver

/-!
# Binary messages

`parse_binary_msg` works off the messages in a client's input buffer.  It looks at the
message at the front of the buffer, whether or not all of it has arrived, acts on it, and
cuts off as many bytes as the length field of the message says.
-/

namespace EspLinux.Ccd

open EspLinux.Lib

/-! ## Messages -/

/-- `CCD_MSG_INDEX` -/
def CCD_MSG_INDEX : ℕ := 3

/-- `CCD_MSG_QUERY` -/
def CCD_MSG_QUERY : ℕ := 0x0101

/-- `CCD_MSG_EXP` -/
def CCD_MSG_EXP : ℕ := 0x0201

/-- `CCD_MSG_ABORT` -/
def CCD_MSG_ABORT : ℕ := 0x0301

/-- `CCD_MSG_CTRL` -/
def CCD_MSG_CTRL : ℕ := 0x0401

/-- `CCD_MSG_CCD` -/
def CCD_MSG_CCD : ℕ := 0x1001

/-- `CCD_MSG_TEMP` -/
def CCD_MSG_TEMP : ℕ := 0x1101

/-- `CCD_MSG_QUERY_LEN` -/
def CCD_MSG_QUERY_LEN : ℕ := 8

/-- `CCD_MSG_EXP_LEN` -/
def CCD_MSG_EXP_LEN : ℕ := 28

/-- `CCD_MSG_ABORT_LEN` -/
def CCD_MSG_ABORT_LEN : ℕ := 8

/-- `CCD_MSG_CTRL_LEN` -/
def CCD_MSG_CTRL_LEN : ℕ := 14

/-- `CCD_MSG_CCD_LEN` -/
def CCD_MSG_CCD_LEN : ℕ := 92

/-- `CCD_MSG_TEMP_LEN` -/
def CCD_MSG_TEMP_LEN : ℕ := 14

/-- `CCD_TEMP_FAN_INDEX` -/
def CCD_TEMP_FAN_INDEX : ℕ := 4

namespace Client

/-- The input buffer as message elements. -/
def msg (x : Client) : Msg := fun n =>
  UInt16.ofNat ((x.in_buf (2 * n)).toNat + 2 ^ 8 * (x.in_buf (2 * n + 1)).toNat)

/-- Two elements as a 32-bit number. -/
def msg_long (x : Client) (lo : ℕ) : ℕ := (x.msg lo).toNat + 2 ^ 16 * (x.msg (lo + 1)).toNat

/-- `msg_len`.  It is compared as an unsigned number, so its sign does not matter. -/
def msg_len (x : Client) : ℕ := x.msg_long 1

/-- The message at the front of the buffer is a complete one of the given kind. -/
def is_msg (len kind : ℕ) (x : Client) : Prop :=
  len ≤ x.in_buf_len ∧ (x.msg CCD_MSG_INDEX).toNat = kind

instance (len kind : ℕ) (x : Client) : Decidable (x.is_msg len kind) :=
  inferInstanceAs (Decidable (_ ∧ _))

/-- Add a reply to the output buffer. -/
def reply (kind len : ℕ) (parts : List (ℕ × List UInt8)) (x : Client) : Client :=
  let hdr := elem_bytes CCD_MSG_HEADER ++ elem_bytes len ++ elem_bytes 0 ++ elem_bytes kind
  { x with
    out_buf := parts.foldl (fun buf part => put buf (x.out_buf_len + 2 * part.1) part.2)
      (put x.out_buf x.out_buf_len hdr)
    out_buf_len := x.out_buf_len + len }

/-- The reply to a query; the parameters are cut to 16 bits. -/
def reply_query (g : Geometry) (x : Client) : Client :=
  x.reply CCD_MSG_CCD CCD_MSG_CCD_LEN
    [(4, g.name), (37, (query_attribs g).flatMap fun a => elem_bytes a.2)]

/-- `temp_control` leaves the state of the fan in the message. -/
def set_fan (fan : UInt16) (x : Client) : Client :=
  { x with in_buf := put x.in_buf (2 * CCD_TEMP_FAN_INDEX) (elem_bytes fan.toNat) }

/-- Cut off the message at the front of the buffer. -/
def shift (x : Client) : Client :=
  if x.in_buf_len ≤ x.msg_len then { x with in_buf_len := 0 }
  else
    { x with
      in_buf := put x.in_buf 0 (slice x.in_buf x.msg_len (x.in_buf_len - x.msg_len))
      in_buf_len := x.in_buf_len - x.msg_len }

end Client

/-- A 32-bit number as an `int`. -/
def int32 (n : ℕ) : ℤ := if n < 2 ^ 31 then n else (n : ℤ) - 2 ^ 32

/-- What a message asks for. -/
inductive Request
  | query
  /-- An exposure, with the ten parameters of the message. -/
  | expose (parms : List UInt16)
  | control (cmd parm : ℕ)
  | abort
  | temp (fan : UInt16) (temp : ℤ)
  /-- The message is unknown, or not all of it has arrived. -/
  | nothing
deriving DecidableEq, Repr

/-- The request at the front of the buffer. -/
def Client.request (x : Client) : Request :=
  if x.is_msg CCD_MSG_QUERY_LEN CCD_MSG_QUERY then .query
  else if x.is_msg CCD_MSG_EXP_LEN CCD_MSG_EXP then .expose (slice x.msg CCD_EXP_WIDTH_INDEX 10)
  else if x.is_msg CCD_MSG_CTRL_LEN CCD_MSG_CTRL then .control (x.msg 4).toNat (x.msg_long 5)
  else if x.is_msg CCD_MSG_ABORT_LEN CCD_MSG_ABORT then .abort
  else if x.is_msg CCD_MSG_TEMP_LEN CCD_MSG_TEMP then
    .temp (x.msg CCD_TEMP_FAN_INDEX) (int32 (x.msg_long (CCD_TEMP_FAN_INDEX + 1)))
  else .nothing

/-- The message block with the given exposure parameters. -/
def exp_msg (parms : List UInt16) : Msg := fun n => parms.getD (n - CCD_EXP_WIDTH_INDEX) 0

variable (k : Kernel) (m : Mini)

/-- A temperature request: the mini-driver is asked, whether or not there is room for the
reply. -/
def temp_request (c : Field) (fan : UInt16) (temp : ℤ) (s : State) : State × Except Errno Unit :=
  let r := m.temp_control s.calls fan temp
  let core := s.toCore.call (.temp_control fan temp)
  let x := (s.clients c).set_fan r.1
  if x.out_buf_len + CCD_MSG_TEMP_LEN ≤ x.out_buf_size then
    let parts := elem_bytes r.1.toNat ++ elem_bytes (r.2 % 2 ^ 16).toNat ++
      elem_bytes (r.2 / 2 ^ 16 % 2 ^ 16).toNat
    let x := x.reply CCD_MSG_TEMP CCD_MSG_TEMP_LEN [(CCD_TEMP_FAN_INDEX, parts)]
    ({ s with toCore := core.set_client c x }, .ok ())
  else
    ({ s with toCore := core.set_client c x }, .error .ENOBUFS)

/-- Carry out a request of client `c`. -/
def carry_out (c : Field) (s : State) : Request → Option (State × Except Errno Unit)
  | .query =>
    let x := s.clients c
    if x.out_buf_len + CCD_MSG_CCD_LEN ≤ x.out_buf_size then
      some ({ s with toCore := s.toCore.set_client c (x.reply_query s.geometry) }, .ok ())
    else some (s, .error .ENOBUFS)
  | .expose parms => (new_exposure k c (exp_msg parms) s).map fun s => (s, .ok ())
  | .control cmd parm => some ({ s with toCore := s.toCore.call (.control cmd parm) }, .ok ())
  | .abort => (abort_exposures k c s).map fun s => (s, .ok ())
  | .temp fan temp => some (temp_request m c fan temp s)
  | .nothing => some (s, .ok ())

/-- One iteration of `parse_binary_msg`. -/
def parse_binary_msg (c : Field) (s : State) : State ⊕ Option (State × Except Errno Unit) :=
  let x := s.clients c
  if x.in_buf_len = 0 then .inr (some (s, .ok ()))
  else if (x.msg 0).toNat = CCD_MSG_HEADER then
    match carry_out k m c s x.request with
    | some (s, .ok ()) => .inl { s with toCore := s.toCore.set_client c (s.clients c).shift }
    | r => .inr r
  else
    -- garbage
    .inl { s with toCore := s.toCore.set_client c { x with in_buf_len := 0 } }

/-- The bytes that `ccd_write` takes into the input buffer. -/
def Client.take_in (data : List UInt8) (x : Client) : Client :=
  let wcount := min data.length (MAX_IN_BUF_SIZE - x.in_buf_len)
  { x with
    in_buf := put x.in_buf x.in_buf_len (data.take wcount)
    in_buf_len := x.in_buf_len + wcount }

/-- `ccd_write` of a binary client, with at most `fuel` messages. -/
def ccd_write (fuel : ℕ) (c : Field) (data : List UInt8) (s : State) :
    Option (State × Except Errno ℕ) :=
  if s.registered = false then some (s, .error .ENODEV)
  else if data = [] then some (s, .ok 0)
  else do
    let wcount := min data.length (MAX_IN_BUF_SIZE - (s.clients c).in_buf_len)
    let r ← loop (parse_binary_msg k m c) fuel
      { s with toCore := s.toCore.set_client c ((s.clients c).take_in data) }
    let (s, err) ← r
    some (s, err.map fun _ => wcount)

end EspLinux.Ccd
