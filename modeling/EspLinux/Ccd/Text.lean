import EspLinux.Ccd.Device
import EspLinux.Lib.Decimal
import EspLinux.Lib.Memory

/-!
# Text output of the CCD class driver

`put_int` and `put_attrib` store their text at a position of the output buffer and return
the number of characters by which the position is to move on.  The text replies of the
driver are built by adding up these lengths in `out_buf_len`.
-/

namespace EspLinux.Ccd

open EspLinux.Lib

/-- The characters of a string constant. -/
def chars (s : String) : List UInt8 := s.toList.map fun c => UInt8.ofNat c.toNat

/-- The digits that the first loop of `put_int` stores in `s`, lowest first; `s` has room
for ten. -/
def int_digits : ℕ → ℕ → List UInt8
  | 0, _ => []
  | n + 1, value =>
    UInt8.ofNat (value % 10 + 48) :: if value / 10 = 0 then [] else int_digits n (value / 10)

/-- What `put_int` stores. -/
def int_text (value : ℕ) : List UInt8 := (int_digits 10 value).reverse

/-- `put_int`: the buffer afterwards and the returned length. -/
def put_int (buf : ℕ → UInt8) (pos value : ℕ) : (ℕ → UInt8) × ℕ :=
  (put buf pos (int_text value), 1)

/-- `put_attrib` -/
def put_attrib (buf : ℕ → UInt8) (pos : ℕ) (attrib : List UInt8) (value : ℕ) :
    (ℕ → UInt8) × ℕ :=
  let slen := attrib.length
  let buf := put buf pos (chars " " ++ attrib ++ chars "=")
  let r := put_int buf (pos + (slen + 2)) value
  (r.1, slen + 2 + r.2)

namespace Client

/-- Store `l` at the end of the output and move on by its length. -/
def emit (l : List UInt8) (x : Client) : Client :=
  { x with
    out_buf := put x.out_buf x.out_buf_len l
    out_buf_len := x.out_buf_len + l.length
    overrun := x.overrun || decide (x.out_buf_size < x.out_buf_len + l.length) }

/-- `put_int` at the end of the output. -/
def emit_int (value : ℕ) (x : Client) : Client :=
  let r := put_int x.out_buf x.out_buf_len value
  { x with
    out_buf := r.1
    out_buf_len := x.out_buf_len + r.2
    overrun := x.overrun ||
      decide (x.out_buf_size < x.out_buf_len + (int_text value).length) }

/-- `put_attrib` at the end of the output. -/
def emit_attrib (attrib : String) (value : ℕ) (x : Client) : Client :=
  let r := put_attrib x.out_buf x.out_buf_len (chars attrib) value
  { x with
    out_buf := r.1
    out_buf_len := x.out_buf_len + r.2
    overrun := x.overrun ||
      decide (x.out_buf_size <
        x.out_buf_len + ((chars attrib).length + 2 + (int_text value).length)) }

/-- Hand the first `n` characters of the output to the reader and move the rest down. -/
def deliver (n : ℕ) (x : Client) : Client × List UInt8 :=
  ({ x with
      out_buf := put x.out_buf 0 (slice x.out_buf n (x.out_buf_len - n))
      out_buf_len := x.out_buf_len - n },
    slice x.out_buf 0 n)

end Client

/-- The bytes that wait in the client's buffer. -/
def buffered (x : Client) : List UInt8 := slice x.out_buf 0 x.out_buf_len

lemma buffered_of_empty {x : Client} (h : x.out_buf_len = 0) : buffered x = [] := by
  rw [buffered, h, slice_zero]

/-! ## The reply to a query -/

/-- `CCD_CCD_NAME_LEN` -/
def CCD_CCD_NAME_LEN : ℕ := 32

/-- `id_string` of a registered device: the name that the mini-driver gives, up to its end,
padded with spaces. -/
def Geometry.name (g : Geometry) : List UInt8 :=
  let name := (g.id_string.takeWhile (· ≠ 0)).take CCD_CCD_NAME_LEN
  name ++ List.replicate (CCD_CCD_NAME_LEN - name.length) 32

/-- The nine parameters of a device, with their attributes. -/
def query_attribs (g : Geometry) : List (String × ℕ) :=
  [("WIDTH", g.width), ("HEIGHT", g.height), ("PIX_WIDTH", g.pixel_width),
    ("PIX_HEIGHT", g.pixel_height), ("FIELDS", g.image_fields), ("DEPTH", g.image_depth),
    ("DAC", g.dac_bits), ("COLOR", g.color_format), ("CAPS", g.flag_caps)]

/-- The part of `parse_text_msg` that answers a query, or `none` if there is not enough room
in the buffer. -/
def text_query (g : Geometry) (x : Client) : Option Client :=
  if x.out_buf_len + 150 ≤ x.out_buf_size then
    let x := (((((x.emit (chars "<")).emit (chars "CCD")).emit (chars "NAME")).emit
      (chars "=")).emit (chars "\"")).emit g.name
    let x := (query_attribs g).foldl (fun x a => x.emit_attrib a.1 a.2) (x.emit (chars "\""))
    some (x.emit (chars "/>\n"))
  else
    none

end EspLinux.Ccd
