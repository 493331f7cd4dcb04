import EspLinux.Ccd.Lexer
import EspLinux.Ccd.Message
import EspLinux.Lib.Loop

/-!
# The text parser

`parse_text_msg` is a state machine over the tokens of the input.  The state is in the record
of the client, apart from `last_errorno`, which there is only one of for all clients.  Syntax
errors are disregarded.

`last_errorno` is set to the result of each request.  It is set to `-ENOMEM`, too, whenever the
input is exhausted while some of it is left unread, except in an errorno message.
-/

namespace EspLinux.Ccd

open EspLinux.Lib

/-! ## Tokens -/

/-- `CCD_MSG_ERRORNO` -/
def CCD_MSG_ERRORNO : ℕ := 0x0102

/-- `CCD_EXP_WIDTH_TOKEN`; the tokens of the other exposure attributes follow it. -/
def CCD_EXP_WIDTH_TOKEN : ℕ := CCD_MSG_EXP + 1

/-- `CCD_CTRL_CMD_TOKEN`, which `CCD_CTRL_PARM_TOKEN` follows. -/
def CCD_CTRL_CMD_TOKEN : ℕ := CCD_MSG_CTRL + 1

/-- `CCD_EXP_MSEC_LO_INDEX`; the high half of the time follows it. -/
def CCD_EXP_MSEC_LO_INDEX : ℕ := 12

/-- `CCD_CTRL_CMD_INDEX` -/
def CCD_CTRL_CMD_INDEX : ℕ := 4

/-- `CCD_CTRL_PARM_LO_INDEX`; the high half of the parameter follows it. -/
def CCD_CTRL_PARM_LO_INDEX : ℕ := 5

/-- `msg_strings` and `msg_tokens` -/
def msg_strings : List (String × ℕ) :=
  [("QUERY", CCD_MSG_QUERY), ("ERRORNO", CCD_MSG_ERRORNO), ("EXPOSE", CCD_MSG_EXP),
    ("ABORT", CCD_MSG_ABORT), ("CONTROL", CCD_MSG_CTRL)]

/-- `img_strings` and `img_tokens` -/
def img_strings : List (String × ℕ) :=
  [("WIDTH", CCD_EXP_WIDTH_TOKEN), ("HEIGHT", CCD_EXP_WIDTH_TOKEN + 1),
    ("XOFFSET", CCD_EXP_WIDTH_TOKEN + 2), ("YOFFSET", CCD_EXP_WIDTH_TOKEN + 3),
    ("XBIN", CCD_EXP_WIDTH_TOKEN + 4), ("YBIN", CCD_EXP_WIDTH_TOKEN + 5),
    ("DAC", CCD_EXP_WIDTH_TOKEN + 6), ("FLAGS", CCD_EXP_WIDTH_TOKEN + 7),
    ("MSEC", CCD_EXP_WIDTH_TOKEN + 8)]

/-- `ctrl_strings` and `ctrl_tokens` -/
def ctrl_strings : List (String × ℕ) :=
  [("COMMAND", CCD_CTRL_CMD_TOKEN), ("PARAMETER", CCD_CTRL_CMD_TOKEN + 1)]

/-! ## The state of the parser -/

/-- `ENOMEM` -/
def ENOMEM : ℤ := 12

/-- What the parser does for a client: it queues replies, an errorno reply with the value it
reports, and makes requests. -/
inductive Action
  | query
  | errorno (value : ℤ)
  /-- `new_exposure`, with the ten parameters of the message. -/
  | expose (parms : List UInt16)
  | control (cmd parm : ℕ)
  | abort
deriving DecidableEq, Repr

/-- The action is a request to the device. -/
def Action.isCall : Action → Bool
  | query => false
  | errorno _ => false
  | _ => true

/-- The record of a text client without its input buffer, and what has been done for it. -/
structure Session where
  client : Client
  parse_msg : Msg
  parse_token : ℕ
  parse_attrib : ℕ
  acts : List Action

/-- `client->parse_msg[CCD_MSG_INDEX]` -/
def Session.kind (x : Session) : ℕ := (x.parse_msg CCD_MSG_INDEX).toNat

/-- Look for a new message. -/
def Session.reset (x : Session) : Session :=
  { x with parse_msg := Function.update x.parse_msg CCD_MSG_INDEX 0 }

/-- Do something for the client. -/
def Session.act (a : Action) (x : Session) : Session := { x with acts := x.acts ++ [a] }

/-- The strings that the parser looks for: there are none inside a query, an errorno message
or an abort. -/
def Session.strings (x : Session) : List (String × ℕ) :=
  if x.kind = CCD_MSG_EXP then img_strings
  else if x.kind = CCD_MSG_CTRL then ctrl_strings
  else if x.kind = CCD_MSG_QUERY ∨ x.kind = CCD_MSG_ERRORNO ∨ x.kind = CCD_MSG_ABORT then []
  else msg_strings

/-- The end of a message has been found. -/
def Session.ends (token : ℕ) (x : Session) : Prop := token = 62 ∧ x.parse_token = 47

instance (token : ℕ) (x : Session) : Decidable (x.ends token) := inferInstanceAs (Decidable (_ ∧ _))

/-- The input is exhausted. -/
def Session.run_out (x : Session) (last_errorno : ℤ) : ℤ :=
  if x.kind = CCD_MSG_ERRORNO then last_errorno else -ENOMEM

/-- The part of `parse_text_msg` that answers an errorno message, or `none` if there is not
enough room in the buffer. -/
def text_errorno (last_errorno : ℤ) (x : Client) : Option Client :=
  if x.out_buf_len + 150 ≤ x.out_buf_size then
    let x := (x.emit (chars "<")).emit (chars "ERRORNO")
    let x := x.emit_attrib "VALUE" (last_errorno % 2 ^ 32).toNat
    some (x.emit (chars "/>\n"))
  else
    none

/-- A number: the value of the attribute in front of it.  The attribute at index `long` has
32 bits. -/
def Session.set_num (long value : ℕ) (x : Session) : Session :=
  { x with
    parse_msg :=
      if x.parse_token = 61 ∧ x.parse_attrib ≠ 0 then
        if x.parse_attrib = long then
          Function.update (Function.update x.parse_msg long (UInt16.ofNat value))
            (long + 1) (UInt16.ofNat (value / 2 ^ 16))
        else Function.update x.parse_msg x.parse_attrib (UInt16.ofNat value)
      else x.parse_msg
    parse_attrib := 0 }

/-- A message with `count` attributes, the tokens of which start with `first`, and the values
of which are in the message from `index` on. -/
def on_attribs (first count index long : ℕ) (done : Session × ℤ) (token value : ℕ)
    (x : Session) (e : ℤ) : Session × ℤ :=
  if first ≤ token ∧ token < first + count then
    ({ x with parse_attrib := token - first + index }, e)
  else if token = CCD_NUM_TOKEN then (x.set_num long value, e)
  else if x.ends token then done
  else (x, e)

/-- The default values for an exposure. -/
def exp_defaults (g : Geometry) (msg : Msg) : Msg := fun n =>
  if CCD_EXP_WIDTH_INDEX ≤ n ∧ n < CCD_EXP_WIDTH_INDEX + 10 then
    ([UInt16.ofNat g.width, UInt16.ofNat g.height, 0, 0, 1, 1, UInt16.ofNat g.dac_bits, 0, 1000,
      0] : List UInt16).getD (n - CCD_EXP_WIDTH_INDEX) 0
  else msg n

/-- The requests to the device. -/
def calls (l : List Action) : List Action := l.filter Action.isCall

variable (g : Geometry) (answer : List Action → ℤ)

/-- The control command in the message. -/
def Session.command (x : Session) : Action :=
  .control (x.parse_msg CCD_CTRL_CMD_INDEX).toNat
    ((x.parse_msg CCD_CTRL_PARM_LO_INDEX).toNat +
      2 ^ 16 * (x.parse_msg (CCD_CTRL_PARM_LO_INDEX + 1)).toNat)

/-- What the parser does with a token, in each of its states, and what it sets `last_errorno`
to.  The result of a control command is `answer`, which may depend on all the requests to the
device up to this one. -/
def on_token (token value : ℕ) (x : Session) (e : ℤ) : Session × ℤ :=
  if x.kind = CCD_MSG_QUERY then
    if x.ends token then
      match text_query g x.client with
      | some c => (({ x with client := c }.act .query).reset, 0)
      | none => (x.reset, -ENOMEM)
    else (x, e)
  else if x.kind = CCD_MSG_ERRORNO then
    if x.ends token then
      match text_errorno e x.client with
      | some c => (({ x with client := c }.act (.errorno e)).reset, e)
      | none => (x.reset, e)
    else (x, e)
  else if x.kind = CCD_MSG_EXP then
    on_attribs CCD_EXP_WIDTH_TOKEN 9 CCD_EXP_WIDTH_INDEX CCD_EXP_MSEC_LO_INDEX
      ((x.act (.expose (slice x.parse_msg CCD_EXP_WIDTH_INDEX 10))).reset, 0) token value x e
  else if x.kind = CCD_MSG_CTRL then
    on_attribs CCD_CTRL_CMD_TOKEN 2 CCD_CTRL_CMD_INDEX CCD_CTRL_PARM_LO_INDEX
      ((x.act x.command).reset, answer (calls (x.acts ++ [x.command]))) token value x e
  else if x.kind = CCD_MSG_ABORT then
    if x.ends token then
      (({ x with client := { x.client with out_buf_len := 0 } }.act .abort).reset, 0)
    else (x, e)
  else
    let msg := if token = CCD_MSG_EXP then exp_defaults g x.parse_msg else x.parse_msg
    if token ∈ msg_strings.map Prod.snd ∧ x.parse_token = 60 then
      ({ x with parse_msg := Function.update msg CCD_MSG_INDEX (UInt16.ofNat token) }, e)
    else ({ x with parse_msg := msg }, e)

/-- The input buffer of a client up to `in_buf_len`, behind which nothing is looked at, the
rest of its record, and `last_errorno`. -/
structure Talk where
  in_buf : List UInt8
  session : Session
  last_errorno : ℤ

/-- One iteration of `parse_text_msg`. -/
def parse_text_msg (t : Talk) : Talk ⊕ Talk :=
  if t.in_buf = [] then .inr t
  else
    match get_token t.session.strings t.in_buf with
    | none => .inr { t with last_errorno := t.session.run_out t.last_errorno }
    | some (token, value, rest) =>
      let r := on_token g answer token value t.session t.last_errorno
      .inl { in_buf := rest, session := { r.1 with parse_token := token }, last_errorno := r.2 }

/-- `ccd_write` of a text client: what it takes is put in upper case and parsed.  There are
fewer tokens than characters. -/
def text_write (data : List UInt8) (t : Talk) : Option (Talk × ℕ) :=
  if data = [] then some (t, 0)
  else do
    let wcount := min data.length (MAX_IN_BUF_SIZE - t.in_buf.length)
    let in_buf := (t.in_buf ++ data.take wcount).map upper
    let t ← loop (parse_text_msg g answer) (in_buf.length + 1) { t with in_buf := in_buf }
    some (t, wcount)

/-- The client writes `data`, and then again what a write has not taken, at most `n` times. -/
def text_write_all : ℕ → List UInt8 → Talk → Option Talk
  | _, [], t => some t
  | 0, _ :: _, _ => none
  | n + 1, b :: l, t => do
    let (t, wcount) ← text_write g answer (b :: l) t
    text_write_all n ((b :: l).drop wcount) t

/-- The client writes the parts of a text one after another. -/
def text_writes : List (List UInt8) → Talk → Option Talk
  | [], t => some t
  | d :: ds, t => do
    let t ← text_write_all g answer d.length d t
    text_writes ds t

/-- The whole text in one piece, whatever its length. -/
def text_piece (text : List UInt8) (t : Talk) : Option Talk :=
  let in_buf := (t.in_buf ++ text).map upper
  loop (parse_text_msg g answer) (in_buf.length + 1) { t with in_buf := in_buf }

end EspLinux.Ccd
