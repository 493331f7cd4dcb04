import EspLinux.Ccd.Exposure
import EspLinux.Ccd.Text
import EspLinux.Lib.Loop

/-!
# Reading images

The read side of `ccd.c`: the loop that fetches rows from the mini-driver, the binary and
the text form of an image, and `ccd_read`.  The user's buffer is taken to be valid, so the
copies to it succeed; the model returns the bytes that are stored there.

The number of bytes of a row and the bound of the row loop are 32-bit quantities that can
wrap, as in the source.
-/

namespace EspLinux.Ccd

open EspLinux.Lib

/-- `row_bytes` -/
def row_bytes (g : Geometry) (p : Params) : ℕ := u32 (p.width / p.xbin * g.sizeof_pixel)

/-- `exposure->height - exposure->ybin`, an unsigned difference. -/
def last_row (p : Params) : ℕ := u32 (p.height + 2 ^ 32 - p.ybin)

/-! ## The row loop -/

/-- The state of the row loop: the device, the room left in the buffer and the bytes
stored so far. -/
structure Rows where
  core : Core
  count : ℕ
  data : List UInt8

/-- The bytes of the next row. -/
def Rows.next (m : Mini) (p : Params) (r : Rows) : List UInt8 :=
  (List.range (row_bytes r.core.geometry p)).map
    (m.read_row r.core.calls (u32 (r.core.current_read_row + p.yoffset)))

/-- One iteration of the row loop. -/
def read_rows (m : Mini) (p : Params) (r : Rows) : Rows ⊕ Rows :=
  if row_bytes r.core.geometry p ≤ r.count ∧ r.core.current_read_row ≤ last_row p then
    .inl
      { core := (r.core.call (.read_row p.xoffset (u32 (r.core.current_read_row + p.yoffset))
          p.width p.xbin p.ybin p.dac_bits p.flags (r.next m p))).set_row
            (u32 (r.core.current_read_row + p.ybin))
        count := r.count - row_bytes r.core.geometry p
        data := r.data ++ r.next m p }
  else .inr r

/-- Begin-of-frame processing. -/
def begin_frame (p : Params) (c : Core) : Core :=
  if c.current_read_row = CCD_START_FRAME_LOAD then
    (c.call (.begin_read p.yoffset p.flags)).set_row 0
  else c

/-- A row loop that has not ended after `2 ^ 32` iterations never does: then rows are empty,
and the row number has come back to where it was. -/
@[irreducible] def row_limit : ℕ := 2 ^ 32 + 1

variable (k : Kernel) (m : Mini)

/-- `read_exposure` -/
def read_exposure (i count : ℕ) (s : State) : Option (State × List UInt8) := do
  let e ← s.heap i
  let r ← loop (read_rows m e.toParams) row_limit
    ⟨begin_frame e.toParams s.toCore, count, []⟩
  let s := { s with toCore := r.core }
  if last_row e.toParams < s.current_read_row then
    let s ← end_frame k i s
    some (s, r.data)
  else
    some (s, r.data)

/-! ## Binary images -/

/-- `image_size` of the image header. -/
def image_size (g : Geometry) (p : Params) : ℕ :=
  u32 ((p.width / p.xbin) * (p.height / p.ybin) * g.sizeof_pixel + CCD_MSG_IMAGE_LEN)

/-- The image header. -/
def image_header (g : Geometry) (p : Params) : List UInt8 :=
  elem_bytes CCD_MSG_HEADER ++ elem_bytes (image_size g p) ++
    elem_bytes (image_size g p / 2 ^ 16) ++ elem_bytes CCD_MSG_IMAGE

/-- The header is sent in front of the first row. -/
def header_len (c : Core) : ℕ :=
  if c.current_read_row = CCD_START_FRAME_LOAD then CCD_MSG_IMAGE_LEN else 0

/-- A user buffer of `count` bytes has room for a row, and for the header if it is due. -/
def fits_row (p : Params) (count : ℕ) (c : Core) : Prop :=
  (k.size_t (row_bytes c.geometry p) + header_len c) % 2 ^ k.longBits ≤ count

instance (p : Params) (count : ℕ) (c : Core) : Decidable (fits_row k p count c) :=
  inferInstanceAs (Decidable (_ ≤ _))

/-- What `read_binary_exposure` sends in front of the rows it reads. -/
def header (p : Params) (c : Core) : List UInt8 :=
  if c.current_read_row = CCD_START_FRAME_LOAD then image_header c.geometry p else []

/-- `read_binary_exposure` -/
def read_binary_exposure (i count : ℕ) (s : State) : Option (State × List UInt8) := do
  let e ← s.heap i
  let c := e.client
  let hdr := header e.toParams s.toCore
  if fits_row k e.toParams count s.toCore then
    -- header and rows go directly into the user's buffer
    let (s, data) ← read_exposure k m i (u32 (count + 2 ^ 32 - hdr.length)) s
    some (s, hdr ++ data)
  else
    -- one row goes through the client's buffer
    let (s, data) ← read_exposure k m i (row_bytes s.geometry e.toParams) s
    let x := s.clients c
    let all := hdr ++ data
    let buf := put x.out_buf 0 all
    let len := u32 (all.length + 2 ^ 32 - count)
    some ({ s with toCore := s.toCore.set_client c { x with
        out_buf := put buf 0 (slice buf count len)
        out_buf_len := len
        overrun := x.overrun || decide (x.out_buf_size < all.length) } },
      slice buf 0 count)

/-! ## Text images -/

/-- The value of the pixel at position `p` of a buffer. -/
def pixel_value (sizeof_pixel : ℕ) (buf : ℕ → UInt8) (p : ℕ) : ℕ :=
  let byte (j : ℕ) : ℕ := (buf (p + j)).toNat
  if sizeof_pixel = 2 then byte 0 + 2 ^ 8 * byte 1
  else if sizeof_pixel = 4 then
    byte 0 + 2 ^ 8 * byte 1 + 2 ^ 16 * byte 2 + 2 ^ 24 * byte 3
  else byte 0

/-- The start tag of a text image. -/
def text_start (p : Params) (x : Client) : Client :=
  ((((x.emit (chars "<")).emit (chars "IMAGE")).emit_attrib "WIDTH" (p.width / p.xbin)).emit_attrib
    "HEIGHT" (p.height / p.ybin)).emit (chars ">\n")

/-- The end tag of a text image. -/
def text_end (x : Client) : Client :=
  ((x.emit (chars "</")).emit (chars "IMAGE")).emit (chars ">\n")

/-- One iteration of the loop that turns the pixels of a row into text: the bytes left,
the position of the pixel, and the client. -/
def text_pixels (sizeof_pixel : ℕ) (r : ℕ × ℕ × Client) : (ℕ × ℕ × Client) ⊕ Client :=
  if r.1 = 0 then .inr r.2.2
  else
    .inl (u32 (r.1 + 2 ^ 32 - sizeof_pixel), r.2.1 + sizeof_pixel,
      (r.2.2.emit_int (pixel_value sizeof_pixel r.2.2.out_buf r.2.1)).emit (chars "\n"))

/-- The row of pixels is stored at the end of the client's buffer. -/
def store_row (g : Geometry) (p : Params) (data : List UInt8) (x : Client) : Client :=
  { x with
    out_buf := put x.out_buf (x.out_buf_size - row_bytes g p - g.sizeof_pixel) data
    overrun := x.overrun || decide (x.out_buf_size < row_bytes g p + g.sizeof_pixel) }

/-- `read_text_exposure` -/
def read_text_exposure (i count : ℕ) (s : State) : Option (State × List UInt8) := do
  let e ← s.heap i
  let c := e.client
  let p := e.toParams
  let g := s.geometry
  let x := s.clients c
  let x := if s.current_read_row = CCD_START_FRAME_LOAD then text_start p x else x
  let (s, data) ← read_exposure k m i (row_bytes g p)
    { s with toCore := s.toCore.set_client c x }
  let x := store_row g p data (s.clients c)
  let x ← loop (text_pixels g.sizeof_pixel) (p.width / p.xbin + 1)
    (row_bytes g p, x.out_buf_size - row_bytes g p - g.sizeof_pixel, x)
  let x := if s.current_read_row = CCD_END_FRAME_LOAD then text_end x else x
  let r := x.deliver (min count x.out_buf_len)
  some ({ s with toCore := s.toCore.set_client c r.1 }, r.2)

/-! ## The `read` entry point -/

/-- The errors of the file operations. -/
inductive Errno
  | ENODEV
  | EAGAIN
  | EBUSY
  | ENOMEM
  | ENOBUFS
  /-- What the mini-driver's `open` returned. -/
  | mini (err : ℤ)
deriving DecidableEq, Repr

/-- The last part of `ccd_read`: read from the exposure at the head of the list if it is
this client's and complete.  A read that had to sleep goes on here. -/
def ccd_read_head (c : Field) (count : ℕ) (s : State) :
    Option (State × Except Errno (List UInt8)) :=
  match s.exposure_list with
  | none => some (s, .ok [])
  | some i => do
    let e ← s.heap i
    if e.client = c ∧ e.complete = 1 then
      let (s, data) ← match (s.clients c).mode with
        | .binary => read_binary_exposure k m i (u32 count) s
        | .text => read_text_exposure k m i (u32 count) s
      some (s, .ok data)
    else
      some (s, .ok [])

/-- `ccd_read`.  Where the source sleeps until the exposure is complete, nothing has changed
yet: the model returns `EAGAIN` as for a non-blocking read, and the rest of the call is
`ccd_read_head`. -/
def ccd_read (c : Field) (count : ℕ) (s : State) :
    Option (State × Except Errno (List UInt8)) :=
  let x := s.clients c
  if s.registered = false then some (s, .error .ENODEV)
  else if count = 0 then some (s, .ok [])
  else if 0 < x.out_buf_len then
    let r := x.deliver (min count x.out_buf_len)
    some ({ s with toCore := s.toCore.set_client c r.1 }, .ok r.2)
  else if s.client_list c = none then some (s, .ok [])
  else
    match s.exposure_list with
    | none => none
    | some i => do
      let e ← s.heap i
      if e.client ≠ c ∨ e.complete = 0 then some (s, .error .EAGAIN)
      else ccd_read_head k m c count s

end EspLinux.Ccd
