import EspLinux.Kermit.Params

/-!
# The protocol automaton

The state table of `gproto.w` with what its actions do.  The sender goes from file to file: a file
header, the attributes, the data, the end of the file, and at last the end of the transmission.
The receiver follows it.  An action sends a packet, acknowledges the one that has come, gives up
with an error, or ends the protocol; the numbers of the packets are not its concern.
-/

namespace EspLinux.Kermit

abbrev Name := List Byte

/-- A text. -/
def message (s : String) : List Byte := s.toList.map letter

/-! ## Names -/

def isupper (c : Byte) : Bool := 65 ≤ c ∧ c ≤ 90

def islower (c : Byte) : Bool := 97 ≤ c ∧ c ≤ 122

/-- The name behind the last slash. -/
def basename (name : Name) : Name := (name.reverse.takeWhile (· ≠ letter '/')).reverse

/-- A character of a name in its common form. -/
def common (c : Byte) : Byte :=
  if islower c then c - 32
  else if c = letter '~' then letter '-'
  else if c = letter '#' ∨ c = letter '*' ∨ c = letter '?' then letter 'X'
  else if c = letter ' ' then letter '_'
  else if c < 32 then letter 'X'
  else if c = letter '.' then letter '_'
  else c

/-- Local to remote file name. -/
def zltor (literal : Bool) (lclnam : Name) : Name :=
  if literal then basename lclnam
  else
    let np := if basename lclnam = [] then lclnam else basename lclnam
    -- the last dot stays, unless a slash follows it
    let ext := (np.reverse.takeWhile fun c => c ≠ letter '.' ∧ c ≠ letter '/').reverse
    let front := np.take (np.length - ext.length)
    let work :=
      if front.getLast? = some (letter '.') then
        front.dropLast.map common ++ letter '.' :: ext.map common
      else np.map common
    if work.head? = some (letter '.') then letter 'X' :: work else work

/-- Remote to local file name. -/
def zrtol (literal : Bool) (pktnam : Name) : Name :=
  if literal then pktnam
  else
    let kept := pktnam.dropWhile (· ≤ 32)
    let lclnam := (kept.reverse.dropWhile (· < 33)).reverse
    if lclnam = [] then message "NONAME"
    else if kept.any isupper ∧ ¬ kept.any islower then
      lclnam.map fun c => if isupper c then c + 32 else c
    else lclnam

/-! ## The session -/

/-- The states of the automaton. -/
inductive State
  | start
  | ssini
  | ssfil
  | ssdat
  | ssatt
  | sseot
  | sseof
  | sipkt
  | srini
  | srfil
  | srdat
  | sratt
deriving DecidableEq

/-- What the automaton keeps. -/
structure Session where
  state : State
  params : Params
  /-- Block check type used. -/
  bctu : ℕ
  /-- Streaming active now. -/
  streaming : Bool
  failure : Bool
  /-- File interruption. -/
  cx : Bool
  /-- Batch interruption. -/
  cz : Bool
  /-- The files that are still to be sent. -/
  cmlist : List Name
  /-- What is asked for from a server. -/
  cmarg : Name
  /-- The as-name. -/
  cmarg2 : Option Name
  filnam : Name
  filelength : ℕ
  maxsiz : ℕ
  source : Source
  /-- Keep incompletely received files. -/
  keep : Bool
  /-- The output file and what has been written to it. -/
  ofile : Option (Name × List Byte)
  /-- The output files that have been closed and are there. -/
  kept : List (Name × List Byte)

/-- The files that can be read. -/
abbrev Disk := Name → Option File

/-- What comes of the system calls in one action. -/
structure Outcome where
  zopeni : Bool
  zclosi : Bool
  zrtol : Bool
  zchko : Bool
  zopeno : Bool
  zcloso : Bool
  /-- The number of characters after which `putc` fails. -/
  putc : Option ℕ
  /-- A packet is written, other than an error packet. -/
  ttol : Bool
  /-- An error packet is written. -/
  ttolError : Bool

/-- All goes well. -/
def Outcome.fine : Outcome := ⟨true, true, true, true, true, true, none, true, true⟩

/-- The functions whose failure the automaton looks at, as it names them in its error packet. -/
inductive Failure
  | sinit
  | sfile
  | sattr
  | sdata
  | seof
  | seot
  | scmd
deriving DecidableEq

def Failure.text : Failure → List Byte
  | sinit => message "sinit"
  | sfile => message "sfile"
  | sattr => message "sattr"
  | sdata => message "sdata"
  | seof => message "seof"
  | seot => message "seot"
  | scmd => message "scmd"

/-- What an action does with packets.  Where the automaton looks at it, a packet that cannot be
written is a failure. -/
inductive Reply
  /-- Send a packet with the next number. -/
  | send (type : Byte) (data : List Byte) (failure : Option Failure)
  /-- Send a packet with the current number. -/
  | command (type : Byte) (data : List Byte) (failure : Option Failure)
  /-- Acknowledge. -/
  | ack (data : List Byte)
  /-- While streaming, data are not acknowledged. -/
  | quiet
  /-- Acknowledge, and end the protocol. -/
  | bye
  /-- End the protocol. -/
  | done
  /-- Send an error packet, and end the protocol. -/
  | error (text : List Byte)
  | nothing
deriving DecidableEq

namespace Session

/-- Transaction initialization. -/
def tinit (s : Session) : Session :=
  { s with
    cx := false
    cz := false
    bctu := 1
    filnam := []
    params := { s.params with
      coding := { s.params.coding with ebqflg := false, rptflg := false }
      sq := letter 'Y'
      rqf := -1 } }

/-- Start streaming if negotiated. -/
def streamon (s : Session) : Session :=
  if 0 < s.params.streamok then
    { s with streaming := true, params := { s.params with timint := 0 } }
  else s

/-- Fill a packet from a string.  What `getpkt` keeps is kept for strings and files alike. -/
def encstr (s : Session) (text : List Byte) : List Byte × Session :=
  let (data, source) := s.params.coding.encstr s.maxsiz s.params.spsiz s.source.overrun text
  (data, { s with source := { source with input := s.source.input } })

/-! ### Sending -/

/-- Get name of next file to send. -/
def gnfile (d : Disk) (s : Session) : Bool × Session :=
  if s.cz then (false, s)
  else
    match s.cmlist.dropWhile fun name => (d name).isNone with
    | [] => (false, { s with cmlist := [] })
    | name :: cmlist => (true, { s with filnam := name, cmlist := cmlist })

/-- Send file header packet. -/
def sfile (d : Disk) (o : Outcome) (s : Session) : Session × Reply :=
  match d s.filnam, o.zopeni with
  | some file, true =>
    let (data, s) := s.encstr (s.cmarg2.getD (zltor s.params.literal s.filnam))
    let long := if 94 < s.params.spsiz then 4 else 0
    ({ s with
      state := .ssfil
      cmarg2 := none
      filelength := file.reduceOption.length
      maxsiz := s.params.spsiz - (s.params.bctr + 3) - long
      source := { s.source with first := .start, input := Reader.input s.params.text ⟨[], file⟩ } },
      .send (letter 'F') data (some .sfile))
  | _, _ => (s, .error (message "Failure to open file"))

/-- The attributes: type and length of the file. -/
def attributes (s : Session) : List Byte :=
  let size := ((Nat.toDigits 10 s.filelength).map letter)
  letter '"' :: (if s.params.text then
      [tochar 3, letter 'A', letter 'M', letter 'J', letter '*', tochar 1, letter 'A']
    else [tochar 2, letter 'B', letter '8']) ++
  [letter '1', tochar size.length] ++ size

/-- Send end-of-file packet. -/
def seof (o : Outcome) (s : Session) (text : List Byte) (failure : Option Failure) :
    Session × Reply :=
  if o.zclosi then ({ s with state := .sseof }, .send (letter 'Z') text failure)
  else (s, .error (message "Failure to close input file"))

/-- Send a data packet if data are left, and an end-of-file packet with `text` if not. -/
def sdata (o : Outcome) (s : Session) (text : List Byte) : Session × Reply :=
  if s.cx ∨ s.cz then { s with failure := true }.seof o text (some .seof)
  else
    let (data, source) := s.params.coding.getpkt s.maxsiz s.maxsiz s.source
    let s := { s with source }
    if data = [] then s.seof o text (some .seof)
    else ({ s with state := .ssdat }, .send (letter 'D') data (some .sdata))

/-- Send the next file, or the end of the transmission. -/
def nextFile (d : Disk) (o : Outcome) (s : Session) (failure : Option Failure) :
    Session × Reply :=
  match s.gnfile d with
  | (true, s) => s.sfile d o
  | (false, s) => ({ s with state := .sseot }, .send (letter 'B') [] failure)

/-! ### Receiving -/

/-- Decode packet data into a string. -/
def decstr (s : Session) (data : List Byte) : List Byte :=
  (s.params.coding.decode s.params.text data).1.takeWhile (· ≠ 0)

/-- Open the output file, and acknowledge with its name. -/
def zopeno (o : Outcome) (s : Session) (myname : Name) : Session × Reply :=
  if o.zchko = false then (s, .error (message "Write access denied"))
  else if o.zopeno = false then (s, .error (message "Error opening output file"))
  else
    let (data, s) := { s with state := .sratt, ofile := some (myname, []) }.encstr s.filnam
    (s.streamon, .ack data)

/-- Receive a file. -/
def rcvfil (o : Outcome) (s : Session) (data : List Byte) : Session × Reply :=
  let s := { s with cx := false }
  match s.cmarg2 with
  | some name => { s with cmarg2 := none }.zopeno o name
  | none =>
    let name := Kermit.zrtol s.params.literal (s.decstr data)
    if o.zrtol = false then (s, .error (message "Backup file creation failure"))
    else { s with filnam := name }.zopeno o name

/-- The attributes in `s`: whether the file is taken, and whether it is text. -/
def gattrLoop : ℕ → Bool → List Byte → Bool × Bool
  | 0, text, _ => (true, text)
  | _, text, [] => (true, text)
  | n + 1, text, c :: s =>
    let aln := (xunchar (s.headD 0)).toNat
    let value := s.tail
    let rest := value.drop aln
    if c = 0 then (true, text)
    else if c = letter '"' then
      let ftbuf := (value.take aln).headD 0
      if ftbuf = letter 'A' then gattrLoop n true rest
      else if ftbuf = letter 'B' then gattrLoop n false rest
      else if ftbuf = letter 'I' then gattrLoop n text rest
      else (false, (gattrLoop n text rest).2)
    else gattrLoop n text rest

/-- Get attributes from other Kermit. -/
def gattr (s : Session) (data : List Byte) : Session × Reply :=
  let (accepted, text) := gattrLoop data.length s.params.text data
  ({ s with params := { s.params with text } }, .ack (if accepted then [] else [letter '"']))

/-- Write data to the output file.  If a character cannot be written, those before it have been. -/
def putData (o : Outcome) (s : Session) (data : List Byte) : Session × Reply :=
  let (out, sound) := s.params.coding.decode s.params.text data
  let put := (o.putc.getD out.length).min out.length
  let s := { s with ofile := s.ofile.map fun (name, written) => (name, written ++ out.take put) }
  if put < out.length then
    ({ s with failure := true }, .error (message "Packet decoding error"))
  else if sound then ({ s with state := .srdat }, if s.streaming then .quiet else .ack [])
  else (s, .error (message "Packet decoding error"))

/-- Close output file. -/
def closof (o : Outcome) (s : Session) (data : List Byte) : Session × Reply :=
  let s := { s with cx := s.cx || data.head? = some (letter 'D') }
  let kept := if (s.cx ∨ s.cz) ∧ s.keep = false then s.kept else s.kept ++ s.ofile.toList
  if o.zcloso then ({ s with state := .srfil, ofile := none, kept }, .ack [])
  else ({ s with ofile := none }, .error (message "Failure to close output file"))

end Session

/-! ## The automaton -/

/-- The start states and the types of packets. -/
inductive Kind
  | s
  | v
  | r
  | Y
  | S
  | B
  | F
  | A
  | D
  | Z
  | E
  /-- A type without a rule of its own. -/
  | other
  /-- Nothing that the state table has a column for. -/
  | blank
deriving DecidableEq

/-- The column of the state table. -/
def kind (c : Byte) : Kind :=
  if c = letter 's' then .s
  else if c = letter 'v' then .v
  else if c = letter 'r' then .r
  else if c = letter 'Y' then .Y
  else if c = letter 'S' then .S
  else if c = letter 'B' then .B
  else if c = letter 'F' then .F
  else if c = letter 'A' then .A
  else if c = letter 'D' then .D
  else if c = letter 'Z' then .Z
  else if c = letter 'E' then .E
  else if 32 < c ∧ c < 128 then .other
  else .blank

namespace Session

def unknown (s : Session) : Session × Reply := (s, .error (message "Unknown packet type"))

/-- An acknowledgement has come. -/
def acked (d : Disk) (o : Outcome) (s : Session) (data : List Byte) : Session × Reply :=
  match s.state with
  | .ssini =>
    let params := s.params.spar data
    let s := { s with params, bctu := params.bctr }
    if (s.gnfile d).1 then
      let (s, reply) := s.nextFile d o (some .seot)
      (s.streamon, reply)
    else s.nextFile d o (some .seot)
  | .ssfil =>
    if s.params.attributes then
      ({ s with state := .ssatt }, .send (letter 'A') s.attributes (some .sattr))
    else s.sdata o []
  | .ssatt =>
    if data.head? = some (letter 'N') then s.seof o [letter 'D'] none else s.sdata o []
  | .ssdat =>
    let s :=
      if data.head? = some (letter 'X') then { s with cx := true }
      else if data.head? = some (letter 'Z') then { s with cz := true }
      else s
    s.sdata o (if s.cx ∨ s.cz then [letter 'D'] else [])
  | .sseof => s.nextFile d o none
  | .sseot => (s, .done)
  | .sipkt =>
    let (command, s) := { s with params := s.params.spar data }.encstr s.cmarg
    ({ s with state := .srini }, .command (letter 'R') command (some .scmd))
  | _ => s.unknown

/-- The state table: what is done about a start state or a packet. -/
def act (d : Disk) (o : Outcome) (s : Session) (k : Kind) (data : List Byte) : Session × Reply :=
  match k with
  | .s =>
    let s := s.tinit
    let (offer, params) := s.params.rpar
    ({ s with params, state := .ssini }, .command (letter 'S') offer (some .sinit))
  | .v => ({ s.tinit with state := .srini }, .nothing)
  | .r =>
    let s := s.tinit
    let (offer, params) := s.params.rpar
    ({ s with params, state := .sipkt }, .command (letter 'I') offer none)
  | .Y => s.acked d o data
  | .S =>
    match s.state with
    | .srini =>
      let (answer, params) := (s.params.spar data).rpar
      ({ s with params, bctu := params.bctr, state := .srfil }.streamon, .ack answer)
    | _ => s.unknown
  | .B =>
    match s.state with
    | .srfil => (s, .bye)
    | _ => s.unknown
  | .F =>
    match s.state with
    | .srfil => s.rcvfil o data
    | _ => s.unknown
  | .A =>
    match s.state with
    | .sratt => s.gattr data
    | _ => s.unknown
  | .D =>
    match s.state with
    | .sratt | .srdat => s.putData o data
    | _ => s.unknown
  | .Z =>
    match s.state with
    | .sratt | .srdat => s.closof o data
    | _ => s.unknown
  | .E => ({ s with failure := true }, .done)
  | .other => s.unknown
  | .blank => (s, .nothing)

end Session

end EspLinux.Kermit
