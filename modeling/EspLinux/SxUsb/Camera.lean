import EspLinux.Lib.Run

/-!
# The USB camera driver: operations and URBs

A camera has three busy bits.  An operation sets the bits it needs under the lock, and
clears them itself or leaves that to the completion of the URB it submits.  Each bit is
kept with the operation that set it, and each URB in flight with the operation it was
submitted for.  Between setting its bits and its return an operation sleeps, so that other
operations and completions come in between.
-/

namespace EspLinux.SxUsb

/-- The operations of a camera, counted from its probe. -/
abbrev Op := ℕ

/-- `SX_STATE_SND`, `SX_STATE_RCV` and `SX_STATE_CTRL`. -/
inductive Busy
  | SND
  | RCV
  | CTRL
deriving DecidableEq

/-- `struct sx_frame_t` -/
structure Frame where
  xoffset : ℕ
  yoffset : ℕ
  width : ℕ
  height : ℕ
  xbin : ℕ
  ybin : ℕ
  msec : ℕ
  row_size : ℕ
  row_count : ℕ

/-- `ctrl_setup` and `ctrl_load_params`, which the send URB carries. -/
structure Request where
  bRequest : ℕ
  wValue : ℕ
  wIndex : ℕ
  wLength : ℕ
  xoffset : ℕ
  yoffset : ℕ
  width : ℕ
  height : ℕ
  xbin : ℕ
  ybin : ℕ
  delay_lo : ℕ
  delay_hi : ℕ

/-- `struct sx_device_t` -/
structure Device where
  num : ℕ
  pixel_size : ℕ
  /-- `SX_STATE_CONNECTED`. -/
  connected : Bool
  /-- `SX_STATE_CCD_OPEN`. -/
  ccd_open : Bool
  /-- The busy bits that are set, with the operation that set each. -/
  busy : Busy → Option Op
  /-- `SX_STATE_RCV_ERR`. -/
  rcv_err : Bool
  /-- `frame[flags & CCD_FIELD_ODD]`. -/
  frame : Bool → Frame
  bytes_rcved : ℕ
  read_offset : ℕ
  bytes_remaining : ℕ
  /-- `rcv_urb->transfer_buffer_length`. -/
  transfer_buffer_length : ℕ
  request : Request
  /-- The operation `snd_urb` is in flight for. -/
  snd_urb : Option Op
  /-- The operation `rcv_urb` is in flight for. -/
  rcv_urb : Option Op

def SX_BULK_READ_SIZE : ℕ := 2 ^ 13
def SX_MIN_EXP_TIME : ℕ := 1000
def SX_USB_READ_PIXELS_DELAYED : ℕ := 2
def SX_USB_READ_PIXELS : ℕ := 3
def CCD_TDI : ℕ := 32
def CCD_NOCLEAR_FRAME : ℕ := 64
/-- `sizeof(ccdload)` and `sizeof(ccdloaddelay)`, which are packed. -/
def sizeof_ccdload : ℕ := 10
def sizeof_ccdloaddelay : ℕ := 14

/-- A value stored in `w` bits. -/
def trunc (w n : ℕ) : ℕ := n % 2 ^ w

/-- `flags & CCD_FIELD_ODD` -/
def odd (flags : ℕ) : Bool := flags.testBit 0

/-- Whether a flag is among `flags`. -/
def has (flags flag : ℕ) : Prop := flags &&& flag ≠ 0

instance (flags flag : ℕ) : Decidable (has flags flag) := inferInstanceAs (Decidable (_ ≠ _))

/-! ## The lock -/

/-- `sx_acquire`, as the bits stand when its wait ends. -/
def sx_acquire (op : Op) (new_flags : List Busy) (sx : Device) : Option Device :=
  if (∀ b ∈ new_flags, sx.busy b = none) ∧ sx.connected then
    some { sx with busy := fun b => if b ∈ new_flags then some op else sx.busy b }
  else none

def sx_open_acquire (op : Op) (new_flags : List Busy) (sx : Device) : Option Device :=
  if sx.ccd_open then sx_acquire op new_flags sx else none

def sx_release (mask_flags : List Busy) (sx : Device) : Device :=
  { sx with busy := fun b => if b ∈ mask_flags then none else sx.busy b }

/-! ## Frames -/

/-- The preparations for reading pixels. -/
def prepare (flags : ℕ) (sx : Device) : Device :=
  let frame := sx.frame (odd flags)
  let bytes_remaining := trunc 32 (frame.row_size * frame.row_count)
  { sx with
    bytes_rcved := 0
    read_offset := 0
    bytes_remaining := bytes_remaining
    transfer_buffer_length := min SX_BULK_READ_SIZE bytes_remaining }

/-- What an operation has still to do once its bits are set. -/
inductive Pending
  /-- `sx_latch_frame` and `sx_new_frame` submit `snd_urb`. -/
  | submit
  /-- `sx_new_frame` clears the pixels. -/
  | clear
  /-- `sx_tty_write` sends its bytes. -/
  | write (port count : ℕ)
  /-- `sx_control` and `sx_tty_check_input` exchange control messages. -/
  | control

/-- `sx_latch_frame` up to the submission of its URB, which it does not reach if it need not
read or cannot acquire. -/
def sx_latch_frame (op : Op) (flags : ℕ) (sx : Device) : Device × Option Pending :=
  let frame := sx.frame (odd flags)
  if SX_MIN_EXP_TIME ≤ frame.msec ∨ sx.num ≠ 0 ∨ (has flags CCD_NOCLEAR_FRAME ∧ ¬ has flags CCD_TDI) then
    match sx_open_acquire op [.SND, .RCV] sx with
    | none => (sx, none)
    | some sx =>
      let sx := prepare flags sx
      ({ sx with
          request :=
            { bRequest := SX_USB_READ_PIXELS
              wValue := trunc 16 (flags ||| if frame.msec < 2000 then CCD_NOCLEAR_FRAME else 0)
              wIndex := trunc 16 sx.num
              wLength := sizeof_ccdload
              xoffset := trunc 16 frame.xoffset
              yoffset := trunc 16 frame.yoffset
              width := trunc 16 frame.width
              height := trunc 16 frame.height
              xbin := trunc 8 frame.xbin
              ybin := trunc 8 frame.ybin
              delay_lo := sx.request.delay_lo
              delay_hi := sx.request.delay_hi } }, some .submit)
  else (sx, none)

/-- `sx_new_frame` up to the submission of its URB or to the clearing of the pixels. -/
def sx_new_frame (op : Op) (xoffset yoffset width height xbin ybin msec flags : ℕ) (sx : Device) :
    Device × Option Pending :=
  let frame : Frame :=
    { xoffset, yoffset, width, height, xbin, ybin, msec
      row_count := height / ybin
      row_size := trunc 32 (width / xbin * sx.pixel_size) }
  let sx := { sx with frame := Function.update sx.frame (odd flags) frame }
  if msec < SX_MIN_EXP_TIME ∧ sx.num = 0 ∧ (¬ has flags CCD_NOCLEAR_FRAME ∨ has flags CCD_TDI) then
    match sx_open_acquire op [.SND, .RCV] sx with
    | none => (sx, none)
    | some sx =>
      let sx := prepare flags sx
      ({ sx with
          request :=
            { bRequest := SX_USB_READ_PIXELS_DELAYED
              wValue := trunc 16 flags
              wIndex := trunc 16 sx.num
              wLength := sizeof_ccdloaddelay
              xoffset := trunc 16 xoffset
              yoffset := trunc 16 yoffset
              width := trunc 16 width
              height := trunc 16 height
              xbin := trunc 8 xbin
              ybin := trunc 8 ybin
              delay_lo := trunc 16 msec
              delay_hi := trunc 16 (msec / 2 ^ 16) } }, some .submit)
  else if ¬ has flags (CCD_TDI ||| CCD_NOCLEAR_FRAME) then
    match sx_open_acquire op [.SND] sx with
    | none => (sx, none)
    | some sx => (sx, some .clear)
  else (sx, none)

def sx_begin_read (sx : Device) : Device := sx

def sx_end_read (sx : Device) : Device :=
  sx_release [.RCV] { sx with bytes_remaining := 0 }

/-! ## The serial ports -/

/-- `sx_tty_write` up to its messages, which it does not reach without bytes to send. -/
def sx_tty_write (op : Op) (port count : ℕ) (sx : Device) : Device × Option Pending :=
  match sx_acquire op [.CTRL] sx with
  | none => (sx, none)
  | some sx => if count = 0 then (sx, none) else (sx, some (.write port count))

/-- `sx_control` up to its messages. -/
def sx_control (op : Op) (sx : Device) : Device × Option Pending :=
  match sx_open_acquire op [.CTRL] sx with
  | none => (sx, none)
  | some sx => (sx, some .control)

/-- `sx_tty_check_input` for a camera with a serial port open. -/
def sx_tty_check_input (op : Op) (sx : Device) : Device × Option Pending :=
  if sx.busy .RCV = none then
    match sx_acquire op [.CTRL] sx with
    | none => (sx, none)
    | some sx => (sx, some .control)
  else (sx, none)

/-! ## The rest of an operation -/

/-- How the calls of an operation come out. -/
structure Outcome where
  /-- `kmalloc` finds memory. -/
  allocated : Bool
  /-- `usb_submit_urb` succeeds. -/
  submitted : Bool
  /-- What the bulk and control messages return. -/
  messages : List ℤ

/-- `usb_submit_urb(sx->snd_urb)`, which fails for a URB that is in flight already.  Its
result is not looked at. -/
def submit_snd (op : Op) (submitted : Bool) (sx : Device) : Device :=
  if submitted ∧ sx.snd_urb = none then { sx with snd_urb := some op } else sx

/-- `usb_submit_urb(sx->rcv_urb)` -/
def submit_rcv (op : Op) (submitted : Bool) (sx : Device) : Device :=
  if submitted ∧ sx.rcv_urb = none then { sx with rcv_urb := some op } else sx

/-- The clear pixels branch of `sx_new_frame`.  Messages that fail are only reported. -/
def clear_pixels (allocated : Bool) (sx : Device) : Device :=
  if allocated then sx_release [.SND] sx else sx

/-- What is left of an operation. -/
def Pending.finish (op : Op) (o : Outcome) (sx : Device) : Pending → Device
  | submit => submit_snd op o.submitted sx
  | clear => clear_pixels o.allocated sx
  | write _ _ => sx_release [.CTRL] sx
  | control => sx_release [.CTRL] sx

/-! ## Completions -/

def sx_usb_snd_complete (op : Op) (submitted : Bool) (sx : Device) : Device :=
  let sx := sx_release [.SND] { sx with snd_urb := none }
  if sx.busy .RCV ≠ none ∧ sx.connected then submit_rcv op submitted sx else sx

/-- What `sx_usb_rcv_complete` makes of the bytes received. -/
def receive (actual_length : ℕ) (sx : Device) : Device :=
  if actual_length = sx.transfer_buffer_length ∧ sx.bytes_remaining ≠ 0 ∧ sx.busy .RCV ≠ none ∧
      sx.connected then
    { sx with
      bytes_rcved := trunc 32 (sx.bytes_rcved + actual_length)
      bytes_remaining := trunc 32 (sx.bytes_remaining + 2 ^ 32 - actual_length) }
  else
    { sx with
      bytes_rcved := trunc 32 (sx.bytes_rcved + sx.bytes_remaining)
      bytes_remaining := 0
      rcv_err := sx.rcv_err || sx.transfer_buffer_length ≠ actual_length }

def sx_usb_rcv_complete (op : Op) (actual_length : ℕ) (submitted : Bool) (sx : Device) : Device :=
  let sx := receive actual_length { sx with rcv_urb := none }
  if sx.bytes_remaining ≠ 0 then
    submit_rcv op submitted
      { sx with transfer_buffer_length := min SX_BULK_READ_SIZE sx.bytes_remaining }
  else sx_release [.RCV] sx

/-! ## Open, close and disconnect -/

/-- `sx_open`, which sets the busy bits only to clear them again. -/
def sx_open (op : Op) (sx : Device) : Device :=
  if sx.ccd_open then sx
  else
    match sx_acquire op [.SND, .RCV] sx with
    | none => sx
    | some sx => sx_release [.SND, .RCV] { sx with ccd_open := true }

/-- `sx_close`, which gives the camera up if it cannot acquire it. -/
def sx_close (op : Op) (sx : Device) : Device :=
  match sx_open_acquire op [.SND, .RCV] sx with
  | some sx => sx_release [.SND, .RCV] { sx with ccd_open := false }
  | none => sx_release [.SND, .RCV] { sx with connected := false, ccd_open := false }

def sx_usb_disconnect (sx : Device) : Device := { sx with connected := false }

end EspLinux.SxUsb
