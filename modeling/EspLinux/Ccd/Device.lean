import Mathlib

/-!
# The data of the CCD class driver

The records of `starlight/kernel/ccd.c`: exposures, clients and one device slot with its
three clients (one for each field and one for both).  Exposures live in a heap of cells
named by natural numbers; a freed cell is `none`, and a cell number is never used again.
The two lists an exposure is on are kept as the source keeps them, by the pointers `next`
and `client_next`.

Machine integers are natural numbers with an explicit reduction where the source can
overflow; the times `begin_` and `end_` are `unsigned int` and wrap at `2 ^ 32`.
-/

namespace EspLinux.Ccd

/-- Truncation to `unsigned int`. -/
def u32 (n : ℕ) : ℕ := n % 2 ^ 32

/-- What the driver takes from the kernel it is built for: the tick rate and the width of
`unsigned long`, the type of `jiffies`. -/
structure Kernel where
  /-- Timer ticks in a second. -/
  HZ : ℕ
  /-- Bits of an `unsigned long`, and of a `size_t`. -/
  longBits : ℕ
  /-- `MSEC2JIFFY` divides by `1000 / HZ`. -/
  HZ_le : 0 < HZ ∧ HZ ≤ 1000
  long : longBits = 32 ∨ longBits = 64

/-- `MSEC2JIFFY` -/
def Kernel.MSEC2JIFFY (k : Kernel) (m : ℕ) : ℕ := m / (1000 / k.HZ)

/-- The conversion of an `int` with bit pattern `n` to `size_t`. -/
def Kernel.size_t (k : Kernel) (n : ℕ) : ℕ :=
  if n < 2 ^ 31 then n else n + 2 ^ k.longBits - 2 ^ 32

/-! ## Constants -/

/-- `CCD_START_FRAME_LOAD`, the bit pattern of `-1`. -/
def CCD_START_FRAME_LOAD : ℕ := 2 ^ 32 - 1

/-- `CCD_END_FRAME_LOAD` -/
def CCD_END_FRAME_LOAD : ℕ := 1000000

/-- `MAX_IN_BUF_SIZE` -/
def MAX_IN_BUF_SIZE : ℕ := 1024

/-- `CCD_FIELD_BOTH`, which is also `CCD_FIELD_MASK`. -/
def CCD_FIELD_BOTH : ℕ := 3

/-- `CCD_NOWIPE_FRAME` -/
def CCD_NOWIPE_FRAME : ℕ := 8

/-- `CCD_MSG_HEADER` -/
def CCD_MSG_HEADER : ℕ := 0xCCDD

/-- `CCD_MSG_IMAGE` -/
def CCD_MSG_IMAGE : ℕ := 0x2001

/-- `CCD_MSG_IMAGE_LEN` -/
def CCD_MSG_IMAGE_LEN : ℕ := 8

/-- `CCD_CTRL_CMD_RESET` -/
def CCD_CTRL_CMD_RESET : ℕ := 0xFFFF

/-- A message block, an array of 16-bit elements. -/
abbrev Msg := ℕ → UInt16

/-- The two bytes of a message element, of which the low 16 bits are stored. -/
def elem_bytes (n : ℕ) : List UInt8 := [UInt8.ofNat n, UInt8.ofNat (n / 2 ^ 8)]

/-- `CCD_EXP_WIDTH_INDEX`; the other exposure parameters follow it in the message. -/
def CCD_EXP_WIDTH_INDEX : ℕ := 4

/-! ## Exposures -/

/-- The parameters of a frame, as they are handed to the mini-driver's `new_frame`. -/
structure Frame where
  xoffset : ℕ
  yoffset : ℕ
  width : ℕ
  height : ℕ
  xbin : ℕ
  ybin : ℕ
  dac_bits : ℕ
  msec : ℕ
  flags : ℕ
deriving DecidableEq, Repr

/-- A client is one of the fields of the device: both, odd or even. -/
abbrev Field := Fin 3

/-- For the numerals of `Field`. -/
instance neZero_clients : NeZero 3 := ⟨by decide⟩

/-- The exposure request without its links: the frame, its times, whether it is complete
(`-1` marks an aborted one) and the client that asked for it. -/
structure Params extends Frame where
  begin_ : ℕ
  end_ : ℕ
  complete : ℤ
  client : Field
deriving DecidableEq, Repr

/-- `struct ccd_exposure` -/
structure Exposure extends Params where
  next : Option ℕ
  client_next : Option ℕ
deriving DecidableEq, Repr

/-- The exposure records that are allocated. -/
abbrev Heap := ℕ → Option Exposure

/-! ## The mini-driver -/

/-- The calls into the mini-driver.  `new_frame` and `latch_frame` carry the exposure they
are made for, `read_row` the bytes the mini-driver stored. -/
inductive Call
  | open_
  | close
  | control (cmd parm : ℕ)
  | temp_control (fan : UInt16) (temp : ℤ)
  | begin_read (yoffset flags : ℕ)
  | end_read (flags : ℕ)
  | read_row (xoffset row width xbin ybin dac_bits flags : ℕ) (data : List UInt8)
  | latch_frame (exposure flags : ℕ)
  | new_frame (exposure : ℕ) (frame : Frame)
deriving DecidableEq, Repr

/-- The behaviour of a mini-driver, as far as the class driver sees it: each answer may
depend on all the calls made before. -/
structure Mini where
  /-- The return value of `open`. -/
  open_ : List Call → ℤ
  /-- Byte `j` of the row that `read_row` stores. -/
  read_row : List Call → (row j : ℕ) → UInt8
  /-- What `temp_control` leaves in its two arguments. -/
  temp_control : List Call → UInt16 → ℤ → UInt16 × ℤ

/-! ## Clients and the device -/

/-- The minor number selects binary or text messages. -/
inductive Mode
  | binary
  | text
deriving DecidableEq, Repr

/-- `struct ccd_client`, without its exposure list and the state of the text parser.  The
flag `overrun` remembers that `out_buf` has been written behind its end. -/
structure Client where
  opened : Bool
  mode : Mode
  in_buf : ℕ → UInt8
  in_buf_len : ℕ
  out_buf : ℕ → UInt8
  out_buf_len : ℕ
  out_buf_size : ℕ
  overrun : Bool

/-- The parameters a mini-driver registers for its camera. -/
structure Geometry where
  id_string : List UInt8
  width : ℕ
  height : ℕ
  pixel_width : ℕ
  pixel_height : ℕ
  image_fields : ℕ
  image_depth : ℕ
  dac_bits : ℕ
  color_format : ℕ
  flag_caps : ℕ
deriving DecidableEq, Repr

/-- `sizeof_pixel` of a registered device. -/
def Geometry.sizeof_pixel (g : Geometry) : ℕ := u32 (g.image_depth + 7) / 8

/-- The parameters of an unregistered device. -/
def Geometry.none : Geometry :=
  ⟨[], 0, 0, 0, 0, 0, 0, 0, 0, 0⟩

/-- `exposure_flags` of each client. -/
def exposure_flags (c : Field) : ℕ := if c = 0 then 3 else if c = 1 then 1 else 2

/-- A device slot and its clients, without the exposure lists: `struct ccd_device`, the
three `struct ccd_client`s, the clock, and the record of the calls into the mini-driver.
The flag `fault` remembers that a freed exposure has been accessed. -/
structure Core where
  registered : Bool
  opened : ℕ
  geometry : Geometry
  current_read_row : ℕ
  /-- The armed `exposure_timer` with its `expires`, or `none`. -/
  exposure_timer : Option ℕ
  /-- `dev->exposure`, the exposure the timer is about. -/
  exposure : Option ℕ
  clients : Field → Client
  jiffies : ℕ
  fresh : ℕ
  calls : List Call
  fault : Bool

namespace Core

/-- A call into the mini-driver. -/
def call (x : Call) (c : Core) : Core := { c with calls := c.calls ++ [x] }

/-- `del_timer` on the exposure timer. -/
def del_timer (c : Core) : Core := { c with exposure_timer := none }

/-- Set `expires` and the exposure of the timer, then `add_timer`. -/
def add_timer (i expires : ℕ) (c : Core) : Core :=
  { c with exposure_timer := some expires, exposure := some i }

/-- Set `current_read_row`. -/
def set_row (row : ℕ) (c : Core) : Core := { c with current_read_row := row }

/-- A freed exposure is accessed. -/
def oops (c : Core) : Core := { c with fault := true }

/-- The name of the next exposure record is used up. -/
def alloc (c : Core) : Core := { c with fresh := c.fresh + 1 }

/-- Change the record of client `f`. -/
def set_client (f : Field) (x : Client) (c : Core) : Core :=
  { c with clients := Function.update c.clients f x }

end Core

/-- The driver's state: the device with its exposure list, the clients with theirs, and
the heap of exposure records. -/
structure State extends Core where
  exposure_list : Option ℕ
  client_list : Field → Option ℕ
  heap : Heap

/-- A client before its first `open`. -/
def Client.closed : Client :=
  { opened := false, mode := .binary, in_buf := fun _ => 0, in_buf_len := 0,
    out_buf := fun _ => 0, out_buf_len := 0, out_buf_size := 0, overrun := false }

/-- The state after `init_module`. -/
def State.init (jiffies : ℕ) : State :=
  { registered := false, opened := 0, geometry := Geometry.none,
    current_read_row := CCD_END_FRAME_LOAD, exposure_timer := none, exposure := none,
    clients := fun _ => Client.closed, jiffies := jiffies, fresh := 0, calls := [],
    fault := false, exposure_list := none, client_list := fun _ => none,
    heap := fun _ => none }

end EspLinux.Ccd
