import EspLinux.Kermit.Exchange
import EspLinux.Lib.StopAndWait

/-!
# The transfer over a line that loses packets

A sender and a receiver, each with its packet number, its count of retries and its last packet, and
between them a line that keeps the order of the packets but may lose any of them.  What comes in
damaged or with another number, and a timeout, makes a party repeat its last packet.  Whatever is
lost and repeated, and whichever system calls fail, the receiver has stored the first of the files
and the beginning of the next one (`stores`), and when the sender ends without an error, it has them
all.  An error packet names what has failed (`complains`).
-/

namespace EspLinux.Kermit

open EspLinux.Lib

/-! ## A party -/

/-- Packet retry limit. -/
def MAXTRY : ℕ := 10

/-- A party of the protocol. -/
structure Party where
  session : Session
  /-- Current packet number. -/
  seq : ℕ
  retries : ℕ
  /-- The packet that has been sent last. -/
  sndpkt : Option Packet
  /-- The data field of the packet that has come last. -/
  rdatap : List Byte
  /-- The party has ended, with an error or not. -/
  exit : Option Bool

/-- What comes of reading from the line. -/
inductive Heard
  /-- Nothing is there, which only a party that streams looks for. -/
  | nothing
  /-- The line cannot be looked at, which only a party that streams does. -/
  | broken
  /-- The line cannot be read, or the user has interrupted. -/
  | hangup
  | timeout
  /-- Something that is no packet. -/
  | damaged
  | packet (p : Packet)

/-- What comes on the line of a packet. -/
def ttol (written : Bool) (p : Packet) : List Packet := if written then [p] else []

namespace Party

/-- Frame and send a packet. -/
def spacket (written : Bool) (k : Party) (type : Byte) (data : List Byte) : Party × List Packet :=
  ({ k with sndpkt := some ⟨type, k.seq, data⟩ }, ttol written ⟨type, k.seq, data⟩)

/-- Next packet. -/
def nxtpkt (k : Party) : Party := { k with retries := 0, seq := (k.seq + 1) % 64 }

/-- Fatal error. -/
def errpkt (o : Outcome) (k : Party) (text : List Byte) : Party × List Packet :=
  { k with exit := some true }.spacket o.ttolError (letter 'E') text

/-- Negative acknowledgement. -/
def nak (o : Outcome) (k : Party) : Party × List Packet :=
  let k := { k with retries := k.retries + 1 }
  if MAXTRY < k.retries then k.errpkt o (message "Too many retries")
  else k.spacket o.ttol (letter 'N') []

/-- Resend a packet. -/
def resend (o : Outcome) (k : Party) : Party × List Packet :=
  match k.sndpkt with
  | some p =>
    let k := { k with retries := k.retries + 1 }
    if MAXTRY < k.retries then k.errpkt o (message "Too many retries") else (k, ttol o.ttol p)
  | none => k.nak o

/-- Send a packet, and give up if it cannot be written and the automaton looks at this. -/
def send (o : Outcome) (k : Party) (type : Byte) (data : List Byte) (failure : Option Failure) :
    Party × List Packet :=
  let sent := k.spacket o.ttol type data
  if o.ttol then sent
  else
    match failure with
    | some f => sent.1.errpkt o f.text
    | none => sent

/-- What an action does. -/
def reply (o : Outcome) (k : Party) (action : Session × Reply) : Party × List Packet :=
  let k := { k with session := action.1 }
  match action.2 with
  | .send type data failure => k.nxtpkt.send o type data failure
  | .command type data failure => k.send o type data failure
  | .ack data =>
    ((k.spacket o.ttol (letter 'Y') data).1.nxtpkt, (k.spacket o.ttol (letter 'Y') data).2)
  | .quiet => (k.nxtpkt, [])
  | .bye =>
    ({ (k.spacket o.ttol (letter 'Y') []).1.nxtpkt with exit := some k.session.failure },
      (k.spacket o.ttol (letter 'Y') []).2)
  | .done => ({ k with exit := some k.session.failure }, [])
  | .error text => k.errpkt o text
  | .nothing => (k, [])

/-- Timeout, checksum error, or NAK. -/
def refused (type : Byte) : Bool :=
  type = letter 'T' || type = letter 'Q' || type = letter 'N' || type = 0

/-- What cannot be used makes the last packet be sent again, but ends a stream. -/
def again (o : Outcome) (k : Party) : Party × List Packet :=
  if k.session.streaming then k.errpkt o (message "Transmission error while streaming")
  else k.resend o

/-- The party ends without a word. -/
def doexit (k : Party) : Party × List Packet := ({ k with exit := some true }, [])

/-- Get the next packet, and do what the automaton says.  A data packet that has not been written
ends the protocol, so that `sndpkt` tells what has been sent. -/
def turn (d : Disk) (o : Outcome) (k : Party) (h : Heard) : Party × List Packet :=
  if k.exit.isSome then (k, [])
  else if k.session.streaming = true ∧ k.sndpkt.map Packet.type = some (letter 'D') then
    match h with
    | .nothing => k.reply o (k.session.act d o .Y k.rdatap)
    | .broken => k.errpkt o (message "Fatal i/o error")
    | .hangup => k.doexit
    | .packet p =>
      let k := { k with rdatap := p.data }
      if refused p.type then k.errpkt o (message "Transmission error while streaming")
      else k.reply o (k.session.act d o (kind p.type) p.data)
    | .timeout | .damaged => k.errpkt o (message "Transmission error while streaming")
  else
    match h with
    | .nothing | .broken => (k, [])
    | .hangup => k.doexit
    | .packet p =>
      let k := { k with rdatap := p.data }
      if p.seq ≠ k.seq ∨ refused p.type then k.again o
      else k.reply o (k.session.act d o (kind p.type) p.data)
    | .timeout | .damaged => k.again o

section Turn

variable {d : Disk} {o : Outcome} {k : Party}

/-- The last packet is sent again, or the party gives up. -/
lemma resend_some {x : Packet} (hsnd : k.sndpkt = some x) :
    k.resend o = ({ k with retries := k.retries + 1 }, ttol o.ttol x) ∨
      k.resend o = { k with retries := k.retries + 1 }.errpkt o (message "Too many retries") := by
  rw [resend, hsnd]
  by_cases h : MAXTRY < k.retries + 1
  · exact .inr (if_pos h)
  · exact .inl (if_neg h)

lemma resend_none (hsnd : k.sndpkt = none) :
    k.resend o = { k with retries := k.retries + 1 }.spacket o.ttol (letter 'N') [] ∨
      k.resend o = { k with retries := k.retries + 1 }.errpkt o (message "Too many retries") := by
  rw [resend, hsnd]
  by_cases h : MAXTRY < k.retries + 1
  · exact .inr (if_pos h)
  · exact .inl (if_neg h)

lemma turn_of_exit (h : Heard) (hexit : k.exit ≠ none) : k.turn d o h = (k, []) :=
  if_pos (Option.isSome_iff_ne_none.mpr hexit)

/-- Without a packet, a party that does not stream waits, ends, or sends its last packet again. -/
lemma turn_idle {h : Heard} (hexit : k.exit = none) (hstream : k.session.streaming = false)
    (hidle : ∀ x, h ≠ .packet x) :
    k.turn d o h = (k, []) ∨ k.turn d o h = k.doexit ∨ k.turn d o h = k.resend o := by
  have hgo : ¬ k.exit.isSome = true := by simp [hexit]
  have hplain : ¬ (k.session.streaming = true ∧ k.sndpkt.map Packet.type = some (letter 'D')) := by
    simp [hstream]
  have hagain : k.again o = k.resend o := if_neg (by simp [hstream])
  cases h with
  | nothing => exact .inl (by rw [turn, if_neg hgo, if_neg hplain])
  | broken => exact .inl (by rw [turn, if_neg hgo, if_neg hplain])
  | hangup => exact .inr (.inl (by rw [turn, if_neg hgo, if_neg hplain]))
  | timeout => exact .inr (.inr (by rw [turn, if_neg hgo, if_neg hplain, hagain]))
  | damaged => exact .inr (.inr (by rw [turn, if_neg hgo, if_neg hplain, hagain]))
  | packet x => exact absurd rfl (hidle x)

lemma turn_packet (x : Packet) (hexit : k.exit = none) (hstream : k.session.streaming = false) :
    k.turn d o (.packet x) =
      if x.seq ≠ k.seq ∨ refused x.type then { k with rdatap := x.data }.resend o
      else { k with rdatap := x.data }.reply o (k.session.act d o (kind x.type) x.data) := by
  rw [turn, if_neg (by simp [hexit]), if_neg (by simp [hstream])]
  by_cases hbad : x.seq ≠ k.seq ∨ refused x.type = true
  · simp only [if_pos hbad]
    exact if_neg (by simp [hstream])
  · simp only [if_neg hbad]

/-- A packet is sent, or the automaton sees that it has not been written. -/
lemma send_cases (o : Outcome) (k : Party) (type : Byte) (data : List Byte) (f : Option Failure) :
    k.send o type data f = k.spacket o.ttol type data ∨ o.ttol = false ∧
      ∃ g : Failure, k.send o type data f = (k.spacket o.ttol type data).1.errpkt o g.text := by
  by_cases h : o.ttol = true
  · exact .inl (if_pos h)
  · cases f with
    | none => exact .inl (if_neg h)
    | some g => exact .inr ⟨Bool.eq_false_iff.mpr h, g, if_neg h⟩

/-- A message that is taken is acknowledged with its number. -/
lemma reply_taken {action : Session × Reply} {s : Session} {a : List Byte}
    (h : action = (s, .ack a) ∨ action = (s, .bye) ∧ a = []) :
    ∃ k' : Party, k'.session = s ∧ k'.seq = (k.seq + 1) % 64 ∧
      k'.sndpkt = some ⟨letter 'Y', k.seq, a⟩ ∧
      k.reply o action = (k', ttol o.ttol ⟨letter 'Y', k.seq, a⟩) := by
  rcases h with rfl | ⟨rfl, rfl⟩
  · exact ⟨_, rfl, rfl, rfl, rfl⟩
  · exact ⟨_, rfl, rfl, rfl, rfl⟩

end Turn

/-- A party that begins with a start state. -/
def begin (d : Disk) (o : Outcome) (s : Session) (start : Kind) : Party × List Packet :=
  (⟨s, 0, 0, none, [], none⟩ : Party).reply o (s.act d o start [])

end Party

/-! ## The system -/

/-- A sender and a receiver with the packets that are on their way. -/
structure System where
  a : Party
  b : Party
  there : List Packet
  back : List Packet

/-- How an attempt to read comes out. -/
inductive Attempt
  | nothing
  | broken
  | hangup
  | timeout
  | damaged
  | packet

/-- What is heard from the line, and what is left on it. -/
def hear (line : List Packet) : Attempt → Heard × List Packet
  | .nothing => (.nothing, line)
  | .broken => (.broken, line)
  | .hangup => (.hangup, line)
  | .timeout => (.timeout, line)
  | .damaged => (.damaged, line)
  | .packet =>
    match line with
    | [] => (.nothing, [])
    | p :: line => (.packet p, line)

/-- One packet is lost, or one party has its turn. -/
inductive Event
  | loseThere (i : ℕ)
  | loseBack (i : ℕ)
  | sender (attempt : Attempt) (o : Outcome)
  | receiver (attempt : Attempt) (o : Outcome)

/-- What comes of the system calls in a turn. -/
def Event.outcome : Event → Option Outcome
  | .loseThere _ | .loseBack _ => none
  | .sender _ o | .receiver _ o => some o

namespace System

/-- One event. -/
def step (d : Disk) (y : System) : Event → System
  | .loseThere i => { y with there := y.there.eraseIdx i }
  | .loseBack i => { y with back := y.back.eraseIdx i }
  | .sender attempt o =>
    let (heard, back) := hear y.back attempt
    let (a, out) := y.a.turn d o heard
    { y with a, there := y.there ++ out, back }
  | .receiver attempt o =>
    let (heard, there) := hear y.there attempt
    let (b, out) := y.b.turn d o heard
    { y with b, there, back := y.back ++ out }

/-- The sender has sent its first packet, and the receiver waits. -/
def begin (d : Disk) (o : Outcome) (s r : Session) : System where
  a := (Party.begin d o s .s).1
  b := (Party.begin d o r .v).1
  there := (Party.begin d o s .s).2
  back := (Party.begin d o r .v).2

/-- A run of the system. -/
def run (d : Disk) (y : System) (events : List Event) : System := events.foldl (step d) y

end System

/-! ## Trouble -/

/-- What a party says when system calls fail. -/
def Outcome.complaints (o : Outcome) : List (List Byte) :=
  (if o.zopeni then [] else [message "Failure to open file"]) ++
  (if o.zclosi then [] else [message "Failure to close input file"]) ++
  (if o.zrtol then [] else [message "Backup file creation failure"]) ++
  (if o.zchko then [] else [message "Write access denied"]) ++
  (if o.zopeno then [] else [message "Error opening output file"]) ++
  (if o.zcloso then [] else [message "Failure to close output file"]) ++
  (if o.putc = none then [] else [message "Packet decoding error"]) ++
  if o.ttol then [] else
    [Failure.sinit, .sfile, .sattr, .sdata, .seof, .seot, .scmd].map Failure.text

lemma Outcome.complaints_ttol {o : Outcome} (h : o.ttol = false) (f : Failure) :
    f.text ∈ o.complaints := by
  refine List.mem_append_right _ ?_
  rw [h]
  refine List.mem_map_of_mem ?_
  cases f <;> decide

namespace Session

/-- The action is the one that is meant, or a system call fails: then no more is stored than was to
be. -/
def Meant (o : Outcome) (s : Session) (meant action : Session × Reply) : Prop :=
  action = meant ∨ ∃ text ∈ o.complaints, action.2 = .error text ∧ action.1.kept = s.kept ∧
    (meant.1.source.overrun = false → action.1.source.overrun = false) ∧
    ∀ name written, action.1.ofile = some (name, written) →
      s.ofile = some (name, written) ∨ meant.1.kept = s.kept ∧
        ∃ written', written <+: written' ∧ meant.1.ofile = some (name, written')

section Meant

variable (d : Disk) (o : Outcome) (s : Session) (data : List Byte)

variable {o s} in
/-- Trouble that writes nothing to a file. -/
lemma meant_error {meant action : Session × Reply} {text : List Byte} (hnamed : text ∈ o.complaints)
    (herror : action.2 = .error text) (hkept : action.1.kept = s.kept)
    (hover : meant.1.source.overrun = false → action.1.source.overrun = false)
    (hofile : action.1.ofile = none ∨ action.1.ofile = s.ofile) : s.Meant o meant action := by
  refine .inr ⟨text, hnamed, herror, hkept, hover, fun name written hsome => ?_⟩
  rcases hofile with hnone | hsame
  · exact absurd (hnone.symm.trans hsome) (by simp)
  · exact .inl (hsame.symm.trans hsome)

lemma meant_seof (f : Option Failure) : s.Meant o (s.seof .fine data f) (s.seof o data f) := by
  rw [seof, seof]
  cases hclose : o.zclosi with
  | true => exact .inl rfl
  | false => exact meant_error (by simp [Outcome.complaints, hclose]) rfl rfl id (.inr rfl)

lemma meant_sdata : s.Meant o (s.sdata .fine data) (s.sdata o data) := by
  rw [sdata, sdata]
  by_cases h : s.cx = true ∨ s.cz = true
  · rw [if_pos h, if_pos h]
    exact meant_seof o { s with failure := true } data (some .seof)
  · rw [if_neg h, if_neg h]
    obtain ⟨⟨x, source⟩, hx⟩ : ∃ x, s.params.coding.getpkt s.maxsiz s.maxsiz s.source = x := ⟨_, rfl⟩
    rw [hx]
    by_cases hnil : x = []
    · simp only [if_pos hnil]
      exact meant_seof o { s with source } data (some .seof)
    · simp only [if_neg hnil]
      exact .inl rfl

lemma meant_sfile : s.Meant o (s.sfile d .fine) (s.sfile d o) := by
  rw [sfile, sfile]
  cases d s.filnam with
  | none => exact .inl rfl
  | some file =>
    cases hopen : o.zopeni with
    | true => exact .inl rfl
    | false =>
      exact meant_error (by simp [Outcome.complaints, hopen]) rfl rfl Coding.encstr_overrun
        (.inr rfl)

lemma meant_nextFile (f : Option Failure) :
    s.Meant o (s.nextFile d .fine f) (s.nextFile d o f) := by
  rw [nextFile, nextFile, gnfile]
  by_cases hcz : s.cz = true
  · rw [if_pos hcz]
    exact .inl rfl
  · rw [if_neg hcz]
    cases s.cmlist.dropWhile fun name => (d name).isNone with
    | nil => exact .inl rfl
    | cons name cmlist => exact meant_sfile d o { s with filnam := name, cmlist }

/-- Turning the stream on makes no difference to the files. -/
lemma streamon_stored (s : Session) : s.streamon.kept = s.kept ∧ s.streamon.ofile = s.ofile ∧
    s.streamon.source = s.source := by
  rw [streamon]
  split <;> exact ⟨rfl, rfl, rfl⟩

lemma zopeno_overrun {s : Session} {name : Name}
    (h : (s.zopeno .fine name).1.source.overrun = false) : s.source.overrun = false := by
  rw [zopeno, if_neg (by simp [Outcome.fine]), if_neg (by simp [Outcome.fine])] at h
  rw [(streamon_stored _).2.2] at h
  exact Coding.encstr_overrun h

lemma meant_zopeno (name : Name) : s.Meant o (s.zopeno .fine name) (s.zopeno o name) := by
  by_cases hchk : o.zchko = false
  · have htrouble : s.zopeno o name = (s, .error (message "Write access denied")) := if_pos hchk
    rw [htrouble]
    exact meant_error (by simp [Outcome.complaints, hchk]) rfl rfl zopeno_overrun (.inr rfl)
  · by_cases hopen : o.zopeno = false
    · have htrouble : s.zopeno o name = (s, .error (message "Error opening output file")) := by
        rw [zopeno, if_neg hchk, if_pos hopen]
      rw [htrouble]
      exact meant_error (by simp [Outcome.complaints, hopen]) rfl rfl zopeno_overrun (.inr rfl)
    · refine .inl ?_
      rw [zopeno, zopeno, if_neg hchk, if_neg hopen, if_neg (by simp [Outcome.fine]),
        if_neg (by simp [Outcome.fine])]

lemma rcvfil_overrun {s : Session} {data : List Byte}
    (h : (s.rcvfil .fine data).1.source.overrun = false) : s.source.overrun = false := by
  rw [rcvfil] at h
  cases hasname : s.cmarg2 with
  | some name =>
    rw [hasname] at h
    exact @zopeno_overrun { s with cx := false, cmarg2 := none } name h
  | none =>
    rw [hasname] at h
    exact @zopeno_overrun { s with
      cx := false
      cmarg2 := none
      filnam := Kermit.zrtol s.params.literal (s.decstr data) } _ h

lemma meant_rcvfil : s.Meant o (s.rcvfil .fine data) (s.rcvfil o data) := by
  by_cases hback : s.cmarg2 = none ∧ o.zrtol = false
  · have htrouble : s.rcvfil o data =
        ({ s with cx := false }, .error (message "Backup file creation failure")) := by
      rw [rcvfil, hback.1]
      exact if_pos hback.2
    rw [htrouble]
    exact meant_error (by simp [Outcome.complaints, hback.2]) rfl rfl rcvfil_overrun (.inr rfl)
  · rw [rcvfil, rcvfil]
    cases hasname : s.cmarg2 with
    | some name => exact meant_zopeno o { s with cx := false, cmarg2 := none } name
    | none =>
      have hfine : ¬ o.zrtol = false := fun h => hback ⟨hasname, h⟩
      simp only [if_neg hfine, if_neg (show ¬ Outcome.fine.zrtol = false by decide)]
      exact meant_zopeno o { s with
        cx := false
        cmarg2 := none
        filnam := Kermit.zrtol s.params.literal (s.decstr data) } _

/-- What has been written before `putc` fails is the beginning of what was to be written. -/
lemma meant_putData : s.Meant o (s.putData .fine data) (s.putData o data) := by
  obtain ⟨⟨out, sound⟩, hdecode⟩ :
    ∃ x, s.params.coding.decode s.params.text data = x := ⟨_, rfl⟩
  have hfine : (Outcome.fine.putc.getD out.length).min out.length = out.length := Nat.min_self _
  obtain ⟨put, hput⟩ : ∃ put, (o.putc.getD out.length).min out.length = put := ⟨_, rfl⟩
  rw [putData, putData, hdecode]
  simp only [hfine, hput, lt_irrefl, if_false, List.take_length]
  by_cases hcut : put < out.length
  · have hfails : o.putc ≠ none := by
      intro hnone
      rw [hnone, Option.getD_none] at hput
      exact absurd (Nat.min_self out.length ▸ hput) hcut.ne'
    rw [if_pos hcut]
    refine .inr ⟨_, by simp [Outcome.complaints, hfails], rfl, rfl, ?_, ?_⟩
    · cases sound <;> exact id
    · rintro name written hsome
      cases hofile : s.ofile with
      | none => simp [hofile] at hsome
      | some x =>
        simp only [hofile, Option.map_some, Option.some.injEq, Prod.mk.injEq] at hsome
        obtain ⟨rfl, rfl⟩ := hsome
        refine .inr ⟨?_, x.2 ++ out, List.prefix_append_right_inj _ |>.mpr (List.take_prefix _ _), ?_⟩
        · cases sound <;> rfl
        · cases sound <;> rfl
  · have hwhole : out.take put = out := List.take_of_length_le (not_lt.mp hcut)
    rw [if_neg hcut, hwhole]
    exact .inl rfl

lemma meant_closof : s.Meant o (s.closof .fine data) (s.closof o data) := by
  rw [closof, closof]
  cases hclose : o.zcloso with
  | true => exact .inl rfl
  | false => exact meant_error (by simp [Outcome.complaints, hclose]) rfl rfl id (.inl rfl)

variable {o s} in
lemma meant_streamon {meant action : Session × Reply} {c : Prop} [Decidable c]
    (h : s.Meant o meant action) :
    s.Meant o (if c then (meant.1.streamon, meant.2) else meant)
      (if c then (action.1.streamon, action.2) else action) := by
  by_cases hc : c
  · rw [if_pos hc, if_pos hc]
    rcases h with rfl | ⟨text, htext, herror, hkept, hover, hofile⟩
    · exact .inl rfl
    · obtain ⟨hkept₁, hofile₁, hsource₁⟩ := streamon_stored action.1
      obtain ⟨hkept₂, hofile₂, hsource₂⟩ := streamon_stored meant.1
      refine .inr ⟨text, htext, herror, hkept₁.trans hkept, ?_, ?_⟩
      · rw [hsource₁, hsource₂]
        exact hover
      · rw [hofile₁, hkept₂, hofile₂]
        exact hofile
  · rw [if_neg hc, if_neg hc]
    exact h

lemma meant_acked : s.Meant o (s.acked d .fine data) (s.acked d o data) := by
  rw [acked, acked]
  cases s.state with
  | ssini =>
    have hnext := meant_nextFile d o { s with
      state := .ssini
      params := s.params.spar data
      bctu := (s.params.spar data).bctr } (some .seot)
    exact meant_streamon hnext
  | ssfil =>
    by_cases hattr : s.params.attributes = true
    · simp only [if_pos hattr]
      exact .inl rfl
    · simp only [if_neg hattr]
      exact meant_sdata o s []
  | ssatt =>
    by_cases hrefused : data.head? = some (letter 'N')
    · simp only [if_pos hrefused]
      exact meant_seof o s [letter 'D'] none
    · simp only [if_neg hrefused]
      exact meant_sdata o s []
  | ssdat =>
    by_cases hx : data.head? = some (letter 'X')
    · simp only [if_pos hx]
      exact meant_sdata o { s with state := .ssdat, cx := true } _
    · by_cases hz : data.head? = some (letter 'Z')
      · simp only [if_neg hx, if_pos hz]
        exact meant_sdata o { s with state := .ssdat, cz := true } _
      · simp only [if_neg hx, if_neg hz]
        exact meant_sdata o s _
  | sseof => exact meant_nextFile d o s none
  | _ => exact .inl rfl

/-- Every action. -/
lemma meant_act (k : Kind) : s.Meant o (s.act d .fine k data) (s.act d o k data) := by
  cases k with
  | Y => exact meant_acked d o s data
  | F =>
    cases hstate : s.state with
    | srfil => simpa only [act, hstate] using meant_rcvfil o s data
    | _ => simp only [act, hstate]; exact .inl rfl
  | D =>
    cases hstate : s.state with
    | sratt => simpa only [act, hstate] using meant_putData o s data
    | srdat => simpa only [act, hstate] using meant_putData o s data
    | _ => simp only [act, hstate]; exact .inl rfl
  | Z =>
    cases hstate : s.state with
    | sratt => simpa only [act, hstate] using meant_closof o s data
    | srdat => simpa only [act, hstate] using meant_closof o s data
    | _ => simp only [act, hstate]; exact .inl rfl
  | _ => exact .inl rfl

end Meant

end Session

/-! ## What is on the line -/

/-- The messages among the packets. -/
def messages (line : List Packet) : List (ℕ × Session.Message) :=
  line.filterMap fun p =>
    if p.type = letter 'E' then none else some (p.seq.toNat, (p.type, p.data))

/-- The acknowledgements among the packets. -/
def acks (line : List Packet) : List (ℕ × List Byte) :=
  line.filterMap fun p => if p.type = letter 'Y' then some (p.seq.toNat, p.data) else none

/-- The number after a number. -/
def nextSeq (n : ℕ) : ℕ := (n + 1) % 64

lemma nextSeq_ne (n : ℕ) : nextSeq n ≠ n := by
  rw [nextSeq]
  omega

/-- What may be heard from a line, and what is left on it. -/
inductive Hears (line : List Packet) : Heard → List Packet → Prop
  | idle {heard : Heard} : (∀ x, heard ≠ .packet x) → Hears line heard line
  | packet {x : Packet} {rest : List Packet} : line = x :: rest → Hears line (.packet x) rest

lemma hears_hear (line : List Packet) (attempt : Attempt) :
    Hears line (hear line attempt).1 (hear line attempt).2 := by
  cases attempt with
  | packet =>
    cases line with
    | nil => exact .idle (by simp [hear])
    | cons x line => exact .packet rfl
  | _ => exact .idle (by simp [hear])

/-- What is lost from a line. -/
lemma eraseIdx_cases (queue : List Packet) (i : ℕ) : queue.eraseIdx i = queue ∨
    ∃ front x rear, queue = front ++ x :: rear ∧ queue.eraseIdx i = front ++ rear := by
  by_cases h : i < queue.length
  · refine .inr ⟨queue.take i, queue[i], queue.drop (i + 1), ?_, List.eraseIdx_eq_take_drop_succ ..⟩
    rw [← List.drop_eq_getElem_cons h, List.take_append_drop]
  · exact .inl (List.eraseIdx_of_length_le (not_lt.mp h))

section Lines

variable {line front rear : List Packet} {x : Packet}

lemma messages_append : messages (front ++ rear) = messages front ++ messages rear :=
  List.filterMap_append ..

lemma acks_append : acks (front ++ rear) = acks front ++ acks rear := List.filterMap_append ..

lemma messages_error (h : x.type = letter 'E') : messages [x] = [] :=
  List.filterMap_cons_none (if_pos h)

lemma messages_other (h : x.type ≠ letter 'E') : messages [x] = [(x.seq.toNat, (x.type, x.data))] :=
  List.filterMap_cons_some (if_neg h)

lemma acks_other (h : x.type ≠ letter 'Y') : acks [x] = [] := List.filterMap_cons_none (if_neg h)

lemma acks_ack (h : x.type = letter 'Y') : acks [x] = [(x.seq.toNat, x.data)] :=
  List.filterMap_cons_some (if_pos h)

end Lines

/-! ## The system and the exchange -/

/-- Sender and receiver over a line as such. -/
abbrev Exchange := Conf Session Session Session.Message (List Byte) ℕ

/-- What the error packets say, when the system calls come out as in `os`. -/
def Excuse (os : List Outcome) (text : List Byte) : Prop :=
  text = message "Too many retries" ∨ ∃ o ∈ os, text ∈ o.complaints

/-- The sender of the exchange. -/
structure Asks (k : Party) (c : Exchange) : Prop where
  session : k.session = c.s
  seq : k.seq = c.i
  sndpkt : k.sndpkt = some ⟨c.msg.1, c.i, c.msg.2⟩

/-- The receiver of the exchange: it has sent a NAK or its last acknowledgement, or nothing. -/
structure Answers (k : Party) (c : Exchange) : Prop where
  session : k.session = c.r
  seq : k.seq = c.j
  sndpkt : ∀ x ∈ k.sndpkt, 0 ≤ x.seq ∧
    (x.type = letter 'N' ∨ x.type = letter 'Y' ∧ c.last = some (x.seq.toNat, x.data))

/-- The system goes through the exchange `c`, which began at `c₀`. -/
structure Follows (d : Disk) (total : List (Name × List Byte)) (os : List Outcome) (c₀ : Exchange)
    (y : System) (c : Exchange) : Prop where
  stands : c.Stands nextSeq (Session.onAck d) (Session.onMessage d) c₀.s c₀.msg c₀.r
  forth : c.forth = messages y.there
  back : c.back = acks y.back
  there : ∀ x ∈ y.there, 0 ≤ x.seq ∧ (x.type = letter 'E' → Excuse os x.data)
  here : ∀ x ∈ y.back, 0 ≤ x.seq ∧ (x.type = letter 'Y' ∨ x.type = letter 'N' ∨
    x.type = letter 'E' ∧ Excuse os x.data)
  sender : y.a.exit = none → Asks y.a c
  receiver : y.b.exit = none → Answers y.b c
  stored : Stored total y.b.session
  done : y.a.exit = some false → y.b.session.kept = total ∧ c.j ≠ c.i
  kept : y.b.session.kept = c.r.kept
  sends : y.a.session.source.overrun = false
  takes : y.b.session.source.overrun = false

namespace Follows

variable {d : Disk} {total : List (Name × List Byte)} {os : List Outcome} {c₀ c : Exchange}
  {y : System} {o : Outcome}

lemma loseThere (h : Follows d total os c₀ y c) {front rear : List Packet} {x : Packet}
    (hthere : y.there = front ++ x :: rear) :
    ∃ c', Follows d total os c₀ { y with there := front ++ rear } c' := by
  have hsub : ∀ z ∈ front ++ rear, z ∈ y.there := by
    intro z hz
    rw [hthere]
    rcases List.mem_append.mp hz with hz | hz
    · exact List.mem_append_left _ hz
    · exact List.mem_append_right _ (List.mem_cons_of_mem x hz)
  have hsplit : messages y.there = messages front ++ (messages [x] ++ messages rear) := by
    rw [hthere, ← messages_append, ← messages_append]
    rfl
  by_cases hx : x.type = letter 'E'
  · rw [messages_error hx, List.nil_append] at hsplit
    refine ⟨c, h.stands, ?_, h.back, fun z hz => h.there z (hsub z hz), h.here, h.sender,
      h.receiver, h.stored, h.done, h.kept, h.sends, h.takes⟩
    rw [h.forth, hsplit, messages_append]
  · rw [messages_other hx] at hsplit
    have hstep : Conf.Step nextSeq (Session.onAck d) (Session.onMessage d) c
        { c with forth := messages front ++ messages rear } :=
      .loseForth (h.forth.trans hsplit)
    exact ⟨_, h.stands.step nextSeq_ne hstep, messages_append.symm, h.back,
      fun z hz => h.there z (hsub z hz), h.here, fun he => ⟨(h.sender he).1, (h.sender he).2,
        (h.sender he).3⟩, fun he => ⟨(h.receiver he).1, (h.receiver he).2, (h.receiver he).3⟩,
      h.stored, h.done, h.kept, h.sends, h.takes⟩

lemma loseBack (h : Follows d total os c₀ y c) {front rear : List Packet} {x : Packet}
    (hback : y.back = front ++ x :: rear) :
    ∃ c', Follows d total os c₀ { y with back := front ++ rear } c' := by
  have hsub : ∀ z ∈ front ++ rear, z ∈ y.back := by
    intro z hz
    rw [hback]
    rcases List.mem_append.mp hz with hz | hz
    · exact List.mem_append_left _ hz
    · exact List.mem_append_right _ (List.mem_cons_of_mem x hz)
  have hsplit : acks y.back = acks front ++ (acks [x] ++ acks rear) := by
    rw [hback, ← acks_append, ← acks_append]
    rfl
  by_cases hx : x.type = letter 'Y'
  · rw [acks_ack hx] at hsplit
    have hstep : Conf.Step nextSeq (Session.onAck d) (Session.onMessage d) c
        { c with back := acks front ++ acks rear } :=
      .loseBack (h.back.trans hsplit)
    exact ⟨_, h.stands.step nextSeq_ne hstep, h.forth, acks_append.symm, h.there,
      fun z hz => h.here z (hsub z hz), fun he => ⟨(h.sender he).1, (h.sender he).2,
        (h.sender he).3⟩, fun he => ⟨(h.receiver he).1, (h.receiver he).2, (h.receiver he).3⟩,
      h.stored, h.done, h.kept, h.sends, h.takes⟩
  · rw [acks_other hx, List.nil_append] at hsplit
    refine ⟨c, h.stands, h.forth, ?_, h.there, fun z hz => h.here z (hsub z hz), h.sender,
      h.receiver, h.stored, h.done, h.kept, h.sends, h.takes⟩
    rw [h.back, hsplit, acks_append]

/-- The packet that is heard leaves the line. -/
lemma takeThere (h : Follows d total os c₀ y c) {x : Packet} {rest : List Packet}
    (hthere : y.there = x :: rest) : ∃ c', Follows d total os c₀ { y with there := rest } c' := by
  have hsplit : y.there = [] ++ x :: rest := hthere
  exact h.loseThere hsplit

lemma takeBack (h : Follows d total os c₀ y c) {x : Packet} {rest : List Packet}
    (hback : y.back = x :: rest) : ∃ c', Follows d total os c₀ { y with back := rest } c' := by
  have hsplit : y.back = [] ++ x :: rest := hback
  exact h.loseBack hsplit

/-- It makes no difference whether the last packet has been written or is lost. -/
lemma unwrittenThere {x : Packet}
    (h : Follows d total os c₀ { y with there := y.there ++ [x] } c)
    (written : Bool) :
    ∃ c', Follows d total os c₀ { y with there := y.there ++ ttol written x } c' := by
  cases written with
  | true => exact ⟨c, h⟩
  | false => exact h.loseThere rfl

lemma unwrittenBack {x : Packet} (h : Follows d total os c₀ { y with back := y.back ++ [x] } c)
    (written : Bool) :
    ∃ c', Follows d total os c₀ { y with back := y.back ++ ttol written x } c' := by
  cases written with
  | true => exact ⟨c, h⟩
  | false => exact h.loseBack rfl

/-- A packet of the sender joins the line. -/
lemma there_join (h : Follows d total os c₀ y c) {x : Packet} (hseq : 0 ≤ x.seq)
    (herror : x.type = letter 'E' → Excuse os x.data) :
    ∀ z ∈ y.there ++ [x], 0 ≤ z.seq ∧ (z.type = letter 'E' → Excuse os z.data) := by
  intro z hz
  rcases List.mem_append.mp hz with hz | hz
  · exact h.there z hz
  · rw [List.mem_singleton.mp hz]
    exact ⟨hseq, herror⟩

/-- A packet of the receiver joins the line. -/
lemma here_join (h : Follows d total os c₀ y c) {x : Packet} (hseq : 0 ≤ x.seq)
    (htype : x.type = letter 'Y' ∨ x.type = letter 'N' ∨ x.type = letter 'E' ∧ Excuse os x.data) :
    ∀ z ∈ y.back ++ [x], 0 ≤ z.seq ∧ (z.type = letter 'Y' ∨ z.type = letter 'N' ∨
      z.type = letter 'E' ∧ Excuse os z.data) := by
  intro z hz
  rcases List.mem_append.mp hz with hz | hz
  · exact h.here z hz
  · rw [List.mem_singleton.mp hz]
    exact ⟨hseq, htype⟩

/-- The sender gives up. -/
lemma sender_error (h : Follows d total os c₀ y c) {k : Party}
    (hsends : k.session.source.overrun = false) {text : List Byte} (htext : Excuse os text) :
    ∃ c', Follows d total os c₀ { y with
      a := (k.errpkt o text).1
      there := y.there ++ (k.errpkt o text).2 } c' := by
  have hexit : (k.errpkt o text).1.exit = some true := rfl
  have hwritten : Follows d total os c₀ { y with
      a := (k.errpkt o text).1
      there := y.there ++ [⟨letter 'E', k.seq, text⟩] } c := by
    refine ⟨h.stands, ?_, h.back, ?_, h.here, fun hnone => ?_, h.receiver, h.stored,
      fun hdone => ?_, h.kept, hsends, h.takes⟩
    · rw [messages_append, messages_error rfl, List.append_nil]
      exact h.forth
    · exact h.there_join (Int.natCast_nonneg _) fun _ => htext
    · exact absurd (hexit.symm.trans hnone) (by simp)
    · exact absurd (hexit.symm.trans hdone) (by simp)
  exact @unwrittenThere _ _ _ _ _ { y with a := (k.errpkt o text).1 } _ hwritten o.ttolError

/-- The receiver gives up. -/
lemma receiver_error (h : Follows d total os c₀ y c) {k : Party} (hstored : Stored total k.session)
    (hkept : k.session.kept = y.b.session.kept) (htakes : k.session.source.overrun = false)
    {text : List Byte} (htext : Excuse os text) :
    ∃ c', Follows d total os c₀ { y with
      b := (k.errpkt o text).1
      back := y.back ++ (k.errpkt o text).2 } c' := by
  have hexit : (k.errpkt o text).1.exit = some true := rfl
  have hwritten : Follows d total os c₀ { y with
      b := (k.errpkt o text).1
      back := y.back ++ [⟨letter 'E', k.seq, text⟩] } c := by
    refine ⟨h.stands, h.forth, ?_, h.there, ?_, h.sender, fun hnone => ?_, hstored,
      fun hdone => ⟨hkept.trans (h.done hdone).1, (h.done hdone).2⟩, hkept.trans h.kept, h.sends,
      htakes⟩
    · rw [acks_append, acks_other (by show letter 'E' ≠ letter 'Y'; decide), List.append_nil]
      exact h.back
    · exact h.here_join (Int.natCast_nonneg _) (.inr (.inr ⟨rfl, htext⟩))
    · exact absurd (hexit.symm.trans hnone) (by simp)
  exact @unwrittenBack _ _ _ _ _ { y with b := (k.errpkt o text).1 } _ hwritten o.ttolError

/-- The sender sends its message again, or gives up. -/
lemma sender_resend (h : Follows d total os c₀ y c) (hexit : y.a.exit = none)
    (htype : c.msg.1 ≠ letter 'E') {k : Party} (hk : k = { y.a with rdatap := k.rdatap }) :
    ∃ c', Follows d total os c₀ { y with
      a := (k.resend o).1
      there := y.there ++ (k.resend o).2 } c' := by
  have hasks := h.sender hexit
  have hsession : k.session = y.a.session := by rw [hk]
  have hkexit : k.exit = none := by
    rw [hk]
    exact hexit
  have hsnd : k.sndpkt = some ⟨c.msg.1, c.i, c.msg.2⟩ := by
    rw [hk]
    exact hasks.sndpkt
  have hsends : k.session.source.overrun = false := hsession ▸ h.sends
  rcases Party.resend_some (o := o) hsnd with hagain | hgive
  · rw [hagain]
    have hstep : Conf.Step nextSeq (Session.onAck d) (Session.onMessage d) c
        { c with forth := c.forth ++ [(c.i, c.msg)] } := .resend
    have hwritten : Follows d total os c₀ { y with
        a := { k with retries := k.retries + 1 }
        there := y.there ++ [⟨c.msg.1, c.i, c.msg.2⟩] }
        { c with forth := c.forth ++ [(c.i, c.msg)] } := by
      refine ⟨h.stands.step nextSeq_ne hstep, ?_, h.back, ?_, h.here, fun _ => ?_,
        fun he => ⟨(h.receiver he).1, (h.receiver he).2, (h.receiver he).3⟩, h.stored,
        fun hdone => absurd (hkexit.symm.trans hdone) (by simp), h.kept, hsends, h.takes⟩
      · rw [messages_append, messages_other htype, ← h.forth]
        rfl
      · exact h.there_join (Int.natCast_nonneg _) fun herror => absurd herror htype
      · refine ⟨hsession.trans hasks.session, ?_, hsnd⟩
        rw [hk]
        exact hasks.seq
    exact @unwrittenThere _ _ _ _ _ { y with a := { k with retries := k.retries + 1 } } _ hwritten
      o.ttol
  · rw [hgive]
    exact @sender_error _ _ _ _ _ _ o h { k with retries := k.retries + 1 } hsends _ (.inl rfl)

/-- The receiver goes on as it was, and sends a NAK or its last acknowledgement. -/
lemma receiver_sends (h : Follows d total os c₀ y c) {k : Party} {x : Packet}
    (hanswers : Answers k c) (hsession : k.session = y.b.session) (hseq : 0 ≤ x.seq)
    (htype : x.type = letter 'N' ∨ x.type = letter 'Y' ∧ c.last = some (x.seq.toNat, x.data))
    (written : Bool) :
    ∃ c', Follows d total os c₀ { y with
      b := k
      back := y.back ++ ttol written x } c' := by
  have hkept : k.session.kept = y.b.session.kept := by rw [hsession]
  have hdone : y.a.exit = some false → k.session.kept = total ∧ c.j ≠ c.i := fun hdone =>
    ⟨hkept.trans (h.done hdone).1, (h.done hdone).2⟩
  have hhere := h.here_join hseq (htype.elim (fun hnak => .inr (.inl hnak)) fun hack => .inl hack.1)
  have hjoined : ∃ c', Follows d total os c₀ { y with b := k, back := y.back ++ [x] } c' := by
    rcases htype with hnak | ⟨hack, hlast⟩
    · refine ⟨c, h.stands, h.forth, ?_, h.there, hhere, h.sender, fun _ => hanswers,
        hsession ▸ h.stored, hdone, hkept.trans h.kept, h.sends, hsession ▸ h.takes⟩
      rw [acks_append, acks_other (by rw [hnak]; decide), List.append_nil]
      exact h.back
    · have hstep : Conf.Step nextSeq (Session.onAck d) (Session.onMessage d) c
          { c with back := c.back ++ [(x.seq.toNat, x.data)] } := .again hlast
      refine ⟨_, h.stands.step nextSeq_ne hstep, h.forth, ?_, h.there, hhere,
        fun he => ⟨(h.sender he).1, (h.sender he).2, (h.sender he).3⟩,
        fun _ => ⟨hanswers.1, hanswers.2, hanswers.3⟩, hsession ▸ h.stored, hdone,
        hkept.trans h.kept, h.sends, hsession ▸ h.takes⟩
      rw [acks_append, acks_ack hack, h.back]
  obtain ⟨c', hjoined⟩ := hjoined
  exact @unwrittenBack _ _ _ _ _ { y with b := k } _ hjoined written

/-- The receiver sends its last packet again, or gives up. -/
lemma receiver_resend (h : Follows d total os c₀ y c) (hexit : y.b.exit = none) {k : Party}
    (hk : k = { y.b with rdatap := k.rdatap }) :
    ∃ c', Follows d total os c₀ { y with
      b := (k.resend o).1
      back := y.back ++ (k.resend o).2 } c' := by
  have hsession : k.session = y.b.session := by rw [hk]
  have hanswers : Answers k c := by
    rw [hk]
    exact ⟨(h.receiver hexit).1, (h.receiver hexit).2, (h.receiver hexit).3⟩
  have hgive : ∃ c', Follows d total os c₀ { y with
      b := ({ k with retries := k.retries + 1 }.errpkt o (message "Too many retries")).1
      back := y.back ++
        ({ k with retries := k.retries + 1 }.errpkt o (message "Too many retries")).2 } c' :=
    @receiver_error _ _ _ _ _ _ o h { k with retries := k.retries + 1 } (hsession ▸ h.stored)
      (congrArg Session.kept hsession) (hsession ▸ h.takes) _ (.inl rfl)
  cases hsnd : k.sndpkt with
  | none =>
    rcases Party.resend_none (o := o) hsnd with hnak | hquit
    · have hasks : Answers { k with
          retries := k.retries + 1
          sndpkt := some ⟨letter 'N', k.seq, []⟩ } c := by
        refine ⟨hanswers.session, hanswers.seq, fun x hx => ?_⟩
        obtain rfl := Option.some.inj hx
        exact ⟨Int.natCast_nonneg _, .inl rfl⟩
      rw [hnak]
      exact h.receiver_sends hasks hsession (Int.natCast_nonneg _) (.inl rfl) o.ttol
    · rw [hquit]
      exact hgive
  | some x =>
    obtain ⟨hnonneg, htype⟩ := hanswers.sndpkt x hsnd
    rcases Party.resend_some (o := o) hsnd with hagain | hquit
    · have hanswer : Answers { k with retries := k.retries + 1 } c :=
        ⟨hanswers.session, hanswers.seq, hanswers.sndpkt⟩
      rw [hagain]
      exact h.receiver_sends hanswer hsession hnonneg htype o.ttol
    · rw [hquit]
      exact hgive

/-- A party has ended. -/
lemma sender_quit (h : Follows d total os c₀ y c) {k : Party} (hexit : k.exit = some true)
    (hsends : k.session.source.overrun = false) : Follows d total os c₀ { y with a := k } c :=
  ⟨h.stands, h.forth, h.back, h.there, h.here, fun hnone => absurd (hexit.symm.trans hnone) (by simp),
    h.receiver, h.stored, fun hdone => absurd (hexit.symm.trans hdone) (by simp), h.kept, hsends,
    h.takes⟩

lemma receiver_quit (h : Follows d total os c₀ y c) {k : Party} {e : Bool} (hexit : k.exit = some e)
    (hkept : k.session.kept = y.b.session.kept) (hofile : k.session.ofile = y.b.session.ofile)
    (htakes : k.session.source.overrun = false) : Follows d total os c₀ { y with b := k } c := by
  refine ⟨h.stands, h.forth, h.back, h.there, h.here, h.sender,
    fun hnone => absurd (hexit.symm.trans hnone) (by simp), ⟨?_, ?_⟩,
    fun hdone => ⟨hkept.trans (h.done hdone).1, (h.done hdone).2⟩, hkept.trans h.kept, h.sends,
    htakes⟩
  · rw [hkept]
    exact h.stored.kept
  · rw [hkept, hofile]
    exact h.stored.ofile

section Turns

variable {p q : Params}

/-- What has been exchanged without a line stands together. -/
lemma standing_of_sync (hp : Settled p q) (h₀ : Standing d p q total c₀.s c₀.msg c₀.r)
    {s r : Session} {m : Session.Message}
    (h : Sync (Session.onAck d) (Session.onMessage d) c₀.s c₀.msg c₀.r s m r) :
    Standing d p q total s m r :=
  h.induction_on h₀ fun _ _ _ _ _ _ _ hstanding hmsg hack => hstanding.next hp hmsg hack

/-- The sender stands with some receiver at its message. -/
lemma standing (h : Follows d total os c₀ y c) (hp : Settled p q)
    (h₀ : Standing d p q total c₀.s c₀.msg c₀.r) : ∃ r, Standing d p q total c.s c.msg r := by
  cases h.stands with
  | asking hsync _ => exact ⟨_, standing_of_sync hp h₀ hsync⟩
  | answered hsync _ _ => exact ⟨_, standing_of_sync hp h₀ hsync⟩

/-- The receiver does not stream. -/
lemma receiver_streaming (h : Follows d total os c₀ y c) (hp : Settled p q)
    (h₀ : Standing d p q total c₀.s c₀.msg c₀.r) : c.r.streaming = false := by
  cases h.stands with
  | asking hsync _ => exact (standing_of_sync hp h₀ hsync).streaming.2
  | answered hsync hmsg _ =>
    obtain ⟨r', a, hexchanged⟩ := (standing_of_sync hp h₀ hsync).exchanged hp
    obtain ⟨rfl, rfl⟩ := Prod.mk.inj (Option.some.inj (hexchanged.received.symm.trans hmsg))
    exact hexchanged.streaming

/-- The next message goes out, or the sender sees that it cannot be written. -/
lemma sender_sends (h : Follows d total os c₀ y c) (ho : o ∈ os) {k : Party}
    {s' r : Session} {m' : Session.Message} {a : List Byte} {rest : List (ℕ × List Byte)}
    (hkexit : k.exit = none) (hkseq : k.seq = c.i) (hcback : c.back = (c.i, a) :: rest)
    (hack : c.s.onAck d a = some (s', m')) (hnext : Standing d p q total s' m' r)
    {line : List Packet} (hline : acks line = rest)
    (hhere : ∀ x ∈ line, 0 ≤ x.seq ∧ (x.type = letter 'Y' ∨ x.type = letter 'N' ∨
      x.type = letter 'E' ∧ Excuse os x.data)) (f : Option Failure) :
    ∃ c', Follows d total os c₀ { y with
      a := (k.reply o (s', .send m'.1 m'.2 f)).1
      there := y.there ++ (k.reply o (s', .send m'.1 m'.2 f)).2
      back := line } c' := by
  have hnumber : (k.seq + 1) % 64 = nextSeq c.i := by rw [hkseq, nextSeq]
  have hstep : Conf.Step nextSeq (Session.onAck d) (Session.onMessage d) c { c with
      back := rest
      s := s'
      msg := m'
      i := nextSeq c.i
      forth := c.forth ++ [(nextSeq c.i, m')] } := .acked hcback hack
  obtain ⟨k', hk'⟩ : ∃ k', ({ k with session := s' } : Party).nxtpkt = k' := ⟨_, rfl⟩
  have hsession : k'.session = s' := hk' ▸ rfl
  have hseq : k'.seq = nextSeq c.i := by rw [← hk', ← hnumber]; rfl
  have hexit : k'.exit = none := hk' ▸ hkexit
  have hoverrun : k'.session.source.overrun = false := hsession ▸ hnext.overrun
  have hwritten : Follows d total os c₀ { y with
      a := { k' with sndpkt := some ⟨m'.1, k'.seq, m'.2⟩ }
      there := y.there ++ [⟨m'.1, k'.seq, m'.2⟩]
      back := line } { c with
      back := rest
      s := s'
      msg := m'
      i := nextSeq c.i
      forth := c.forth ++ [(nextSeq c.i, m')] } := by
    refine ⟨h.stands.step nextSeq_ne hstep, ?_, hline.symm, ?_, hhere, fun _ => ?_,
      fun he => ⟨(h.receiver he).1, (h.receiver he).2, (h.receiver he).3⟩, h.stored,
      fun hdone => absurd (hexit.symm.trans hdone) (by simp), h.kept, hoverrun, h.takes⟩
    · rw [messages_append, messages_other hnext.type, h.forth, hseq]
      rfl
    · exact h.there_join (Int.natCast_nonneg _) fun herror => absurd herror hnext.type
    · exact ⟨hsession, hseq, by rw [hseq]⟩
  have hreply : k.reply o (s', .send m'.1 m'.2 f) = k'.send o m'.1 m'.2 f := by rw [← hk']; rfl
  rw [hreply]
  rcases Party.send_cases o k' m'.1 m'.2 f with hsent | ⟨hfails, g, hgive⟩
  · rw [hsent]
    exact @unwrittenThere _ _ _ _ _ { y with
      a := { k' with sndpkt := some ⟨m'.1, k'.seq, m'.2⟩ }
      back := line } _ hwritten o.ttol
  · rw [hgive]
    -- nothing has come on the line
    obtain ⟨c', hlost⟩ := @unwrittenThere _ _ _ _ _ { y with
      a := { k' with sndpkt := some ⟨m'.1, k'.seq, m'.2⟩ }
      back := line } _ hwritten false
    have hnothing : y.there ++ ttol false ⟨m'.1, k'.seq, m'.2⟩ = y.there := List.append_nil _
    rw [hnothing] at hlost
    exact @sender_error _ _ _ _ _ _ o hlost { k' with sndpkt := some ⟨m'.1, k'.seq, m'.2⟩ } hoverrun
      _ (.inr ⟨o, ho, Outcome.complaints_ttol hfails g⟩)

/-- An acknowledgement with the number of the message. -/
lemma sender_acked (h : Follows d total os c₀ y c) (hp : Settled p q)
    (h₀ : Standing d p q total c₀.s c₀.msg c₀.r) (ho : o ∈ os) (hexit : y.a.exit = none) {x : Packet}
    {rest : List Packet} (hback : y.back = x :: rest) (hseq : x.seq = y.a.seq)
    (htype : x.type = letter 'Y') :
    ∃ c', Follows d total os c₀ { y with
      a := ({ y.a with rdatap := x.data }.reply o (y.a.session.act d o .Y x.data)).1
      there := y.there ++
        ({ y.a with rdatap := x.data }.reply o (y.a.session.act d o .Y x.data)).2
      back := rest } c' := by
  have hasks := h.sender hexit
  obtain ⟨c₁, hdrop⟩ := h.takeBack hback
  have hcback : c.back = (c.i, x.data) :: acks rest := by
    have hnumber : x.seq.toNat = c.i := by
      rw [hseq, hasks.seq]
      exact Int.toNat_natCast _
    rw [h.back, hback, ← hnumber, show x :: rest = [x] ++ rest from rfl, acks_append, acks_ack htype]
    rfl
  obtain ⟨r, hsync, hmsg, hanswered, hrest⟩ := h.stands.acknowledges nextSeq_ne hcback
  have hstanding := standing_of_sync hp h₀ hsync
  obtain ⟨r', a, hexchanged⟩ := hstanding.exchanged hp
  obtain ⟨hr, ha⟩ := Prod.mk.inj (Option.some.inj (hexchanged.received.symm.trans hmsg))
  rw [ha, hr] at hexchanged
  rcases Session.meant_act d o y.a.session x.data .Y with
    hmeant | ⟨text, htext, herror, -, hover, -⟩
  · rw [hmeant, hasks.session]
    rcases hexchanged.acked with ⟨s', m', hack, hnext⟩ | ⟨hdone, hfail, htotal⟩
    · obtain ⟨f, hact⟩ := act_of_onAck hack
      rw [hact]
      exact h.sender_sends (k := { y.a with rdatap := x.data }) ho hexit hasks.seq hcback hack hnext
        rfl hdrop.here f
    · have hstep : Conf.Step nextSeq (Session.onAck d) (Session.onMessage d) c
          { c with back := acks rest } :=
        .loseBack (show c.back = [] ++ (c.i, x.data) :: acks rest from hcback)
      rw [hdone]
      refine ⟨_, h.stands.step nextSeq_ne hstep, ?_, rfl, ?_, hdrop.here, fun hnone => ?_,
        fun he => ⟨(h.receiver he).1, (h.receiver he).2, (h.receiver he).3⟩, h.stored,
        fun _ => ⟨h.kept.trans htotal, ?_⟩, h.kept, hstanding.overrun, h.takes⟩
      · show c.forth = messages (y.there ++ [])
        rw [List.append_nil, h.forth]
      · show ∀ z ∈ y.there ++ [], _
        rw [List.append_nil]
        exact h.there
      · exact absurd hnone (by simp [Party.reply])
      · show c.j ≠ c.i
        rw [hanswered.j]
        exact nextSeq_ne c.i
  · obtain ⟨⟨s', reply⟩, hact⟩ : ∃ action, y.a.session.act d o .Y x.data = action := ⟨_, rfl⟩
    have hsends : (y.a.session.act d .fine .Y x.data).1.source.overrun = false := by
      rw [hasks.session]
      rcases hexchanged.acked with ⟨s', m', hack, hnext⟩ | ⟨hdone, -⟩
      · obtain ⟨f, hfine⟩ := act_of_onAck hack
        rw [hfine]
        exact hnext.overrun
      · rw [hdone]
        exact hstanding.overrun
    rw [hact] at herror hover ⊢
    have herror : reply = .error text := herror
    rw [herror]
    exact @sender_error _ _ _ _ _ _ o hdrop { y.a with rdatap := x.data, session := s' }
      (hover hsends) _ (.inr ⟨o, ho, htext⟩)

/-- The receiver takes the message that it waits for, and acknowledges it. -/
lemma receiver_takes (h : Follows d total os c₀ y c) {k : Party} {r' : Session} {a : List Byte}
    {m : Session.Message} {line : List Packet}
    (hthere : ∀ x ∈ line, 0 ≤ x.seq ∧ (x.type = letter 'E' → Excuse os x.data))
    (hcforth : c.forth = (c.j, m) :: messages line) (hreceived : c.r.onMessage d m = some (r', a))
    (hstored : Stored total r') (hoverrun : r'.source.overrun = false) (hj : c.j = c.i)
    (hsession : k.session = r') (hseq : k.seq = nextSeq c.j)
    (hsndpkt : k.sndpkt = some ⟨letter 'Y', c.j, a⟩) (written : Bool) :
    ∃ c', Follows d total os c₀ { y with
      b := k
      there := line
      back := y.back ++ ttol written ⟨letter 'Y', c.j, a⟩ } c' := by
  have hstep : Conf.Step nextSeq (Session.onAck d) (Session.onMessage d) c { c with
      forth := messages line
      r := r'
      j := nextSeq c.j
      last := some (c.j, a)
      back := c.back ++ [(c.j, a)] } := .receive hcforth hreceived
  have hwritten : Follows d total os c₀ { y with
      b := k
      there := line
      back := y.back ++ [⟨letter 'Y', c.j, a⟩] } { c with
      forth := messages line
      r := r'
      j := nextSeq c.j
      last := some (c.j, a)
      back := c.back ++ [(c.j, a)] } := by
    refine ⟨h.stands.step nextSeq_ne hstep, rfl, ?_, hthere, ?_,
      fun he => ⟨(h.sender he).1, (h.sender he).2, (h.sender he).3⟩, fun _ => ?_,
      hsession ▸ hstored, fun hdone => absurd hj (h.done hdone).2, congrArg Session.kept hsession,
      h.sends, hsession ▸ hoverrun⟩
    · rw [acks_append, acks_ack rfl, h.back]
      rfl
    · exact h.here_join (Int.natCast_nonneg _) (.inl rfl)
    · refine ⟨hsession, hseq, fun z hz => ?_⟩
      obtain rfl := Option.some.inj (hsndpkt.symm.trans hz)
      exact ⟨Int.natCast_nonneg _, .inr ⟨rfl, rfl⟩⟩
  exact @unwrittenBack _ _ _ _ _ { y with b := k, there := line } _ hwritten written

/-- A message with the number that the receiver waits for. -/
lemma receiver_message (h : Follows d total os c₀ y c) (hp : Settled p q)
    (h₀ : Standing d p q total c₀.s c₀.msg c₀.r) (ho : o ∈ os) (hexit : y.b.exit = none) {x : Packet}
    {rest : List Packet} (hthere : y.there = x :: rest) (hseq : x.seq = y.b.seq)
    (htype : x.type ≠ letter 'E') :
    ∃ c', Follows d total os c₀ { y with
      b := ({ y.b with rdatap := x.data }.reply o
        (y.b.session.act d o (kind x.type) x.data)).1
      there := rest
      back := y.back ++ ({ y.b with rdatap := x.data }.reply o
        (y.b.session.act d o (kind x.type) x.data)).2 } c' := by
  have hanswers := h.receiver hexit
  obtain ⟨c₁, hdrop⟩ := h.takeThere hthere
  have hcforth : c.forth = (c.j, (x.type, x.data)) :: messages rest := by
    have hnumber : x.seq.toNat = c.j := by
      rw [hseq, hanswers.seq]
      exact Int.toNat_natCast _
    rw [h.forth, hthere, ← hnumber, show x :: rest = [x] ++ rest from rfl, messages_append,
      messages_other htype]
    rfl
  obtain ⟨hm, hsync, hj, -⟩ := h.stands.receives nextSeq_ne hcforth
  obtain ⟨r', a, hexchanged⟩ := (standing_of_sync hp h₀ hsync).exchanged hp
  have hreceived := hexchanged.received
  rw [← hm] at hreceived
  have htaken := act_of_onMessage hreceived
  rw [← hanswers.session] at htaken
  have hfine : (y.b.session.act d .fine (kind x.type) x.data).1 = r' := by
    rcases htaken with htaken | ⟨htaken, -⟩
    · rw [htaken]
    · rw [htaken]
  rcases Session.meant_act d o y.b.session x.data (kind x.type) with
    hmeant | ⟨text, htext, herror, hkept, hover, hofile⟩
  · rw [← hmeant] at htaken
    obtain ⟨k, hsession, hseq', hsndpkt, hreply⟩ :=
      @Party.reply_taken o { y.b with rdatap := x.data } _ _ _ htaken
    have hnumber : k.seq = nextSeq c.j := by
      rw [hseq', nextSeq, ← hanswers.seq]
    rw [hanswers.seq] at hsndpkt hreply
    rw [hreply]
    exact h.receiver_takes hdrop.there hcforth hreceived hexchanged.stored hexchanged.overrun hj
      hsession hnumber hsndpkt o.ttol
  · rw [hfine] at hover hofile
    obtain ⟨⟨s', reply⟩, hact⟩ :
      ∃ action, y.b.session.act d o (kind x.type) x.data = action := ⟨_, rfl⟩
    rw [hact] at herror hkept hover hofile ⊢
    have herror : reply = .error text := herror
    have hstored : Stored total s' := by
      have hkept : s'.kept = y.b.session.kept := hkept
      refine ⟨hkept ▸ h.stored.kept, fun name written hsome => ?_⟩
      rw [hkept]
      rcases hofile name written hsome with hsame | ⟨hkept', written', hpart, hmeant⟩
      · exact h.stored.ofile name written hsame
      · obtain ⟨file, hfile, htotal⟩ := hexchanged.stored.ofile name written' hmeant
        exact ⟨file, hpart.trans hfile, hkept' ▸ htotal⟩
    rw [herror]
    exact @receiver_error _ _ _ _ _ _ o hdrop { y.b with rdatap := x.data, session := s' } hstored
      hkept (hover hexchanged.overrun) _ (.inr ⟨o, ho, htext⟩)

lemma hears_back (h : Follows d total os c₀ y c) {heard : Heard} {rest : List Packet}
    (hheard : Hears y.back heard rest) : ∃ c', Follows d total os c₀ { y with back := rest } c' := by
  cases hheard with
  | idle => exact ⟨c, h⟩
  | packet hback => exact h.takeBack hback

lemma hears_there (h : Follows d total os c₀ y c) {heard : Heard} {rest : List Packet}
    (hheard : Hears y.there heard rest) : ∃ c', Follows d total os c₀ { y with there := rest } c' := by
  cases hheard with
  | idle => exact ⟨c, h⟩
  | packet hthere => exact h.takeThere hthere

/-- A turn of the sender. -/
lemma sender_turn (h : Follows d total os c₀ y c) (hp : Settled p q)
    (h₀ : Standing d p q total c₀.s c₀.msg c₀.r) {heard : Heard} {rest : List Packet}
    (hheard : Hears y.back heard rest) (ho : o ∈ os) :
    ∃ c', Follows d total os c₀ { y with
      a := (y.a.turn d o heard).1
      there := y.there ++ (y.a.turn d o heard).2
      back := rest } c' := by
  obtain ⟨c₁, hdrop⟩ := h.hears_back hheard
  have hstill : Follows d total os c₀ { y with there := y.there ++ [], back := rest } c₁ := by
    rw [List.append_nil]
    exact hdrop
  by_cases hexit : y.a.exit = none
  · obtain ⟨r, hstanding⟩ := h.standing hp h₀
    obtain ⟨r₁, hstanding₁⟩ := hdrop.standing hp h₀
    have hasks := h.sender hexit
    have hstream : y.a.session.streaming = false := by
      rw [hasks.session]
      exact hstanding.streaming.1
    have hresend : ∀ k : Party, k = { y.a with rdatap := k.rdatap } → ∃ c', Follows d total os c₀ { y with
        a := (k.resend o).1
        there := y.there ++ (k.resend o).2
        back := rest } c' := fun k hk => hdrop.sender_resend hexit hstanding₁.type hk
    cases hheard with
    | idle hidle =>
      rcases Party.turn_idle (d := d) (o := o) hexit hstream hidle with hturn | hturn | hturn
      · rw [hturn]
        exact ⟨c₁, hstill⟩
      · rw [hturn]
        exact ⟨c₁, hstill.sender_quit rfl h.sends⟩
      · rw [hturn]
        exact hresend y.a rfl
    | @packet x rest hback =>
      rw [Party.turn_packet x hexit hstream]
      by_cases hbad : x.seq ≠ y.a.seq ∨ Party.refused x.type = true
      · rw [if_pos hbad]
        exact hresend { y.a with rdatap := x.data } rfl
      · obtain ⟨hseq, htaken⟩ := not_or.mp hbad
        have hmem : x ∈ y.back := by
          rw [hback]
          exact List.mem_cons_self
        rw [if_neg hbad]
        rcases (h.here x hmem).2 with hack | hnak | ⟨herror, -⟩
        · rw [hack, show kind (letter 'Y') = .Y from rfl]
          exact h.sender_acked hp h₀ ho hexit hback (not_not.mp hseq) hack
        · rw [hnak] at htaken
          exact absurd rfl htaken
        · rw [herror]
          exact ⟨c₁, hstill.sender_quit rfl h.sends⟩
  · rw [Party.turn_of_exit heard hexit]
    exact ⟨c₁, hstill⟩

/-- A turn of the receiver. -/
lemma receiver_turn (h : Follows d total os c₀ y c) (hp : Settled p q)
    (h₀ : Standing d p q total c₀.s c₀.msg c₀.r) {heard : Heard} {rest : List Packet}
    (hheard : Hears y.there heard rest) (ho : o ∈ os) :
    ∃ c', Follows d total os c₀ { y with
      b := (y.b.turn d o heard).1
      there := rest
      back := y.back ++ (y.b.turn d o heard).2 } c' := by
  obtain ⟨c₁, hdrop⟩ := h.hears_there hheard
  have hstill : Follows d total os c₀ { y with there := rest, back := y.back ++ [] } c₁ := by
    rw [List.append_nil]
    exact hdrop
  by_cases hexit : y.b.exit = none
  · have hstream : y.b.session.streaming = false := by
      rw [(h.receiver hexit).session]
      exact h.receiver_streaming hp h₀
    have hresend : ∀ k : Party, k = { y.b with rdatap := k.rdatap } → ∃ c', Follows d total os c₀ { y with
        b := (k.resend o).1
        there := rest
        back := y.back ++ (k.resend o).2 } c' := fun k hk => hdrop.receiver_resend hexit hk
    cases hheard with
    | idle hidle =>
      rcases Party.turn_idle (d := d) (o := o) hexit hstream hidle with hturn | hturn | hturn
      · rw [hturn]
        exact ⟨c₁, hstill⟩
      · rw [hturn]
        exact ⟨c₁, hstill.receiver_quit rfl rfl rfl h.takes⟩
      · rw [hturn]
        exact hresend y.b rfl
    | @packet x rest hthere =>
      rw [Party.turn_packet x hexit hstream]
      by_cases hbad : x.seq ≠ y.b.seq ∨ Party.refused x.type = true
      · rw [if_pos hbad]
        exact hresend { y.b with rdatap := x.data } rfl
      · rw [if_neg hbad]
        by_cases herror : x.type = letter 'E'
        · rw [herror]
          exact ⟨c₁, hstill.receiver_quit rfl rfl rfl h.takes⟩
        · exact h.receiver_message hp h₀ ho hexit hthere (not_not.mp (not_or.mp hbad).1) herror
  · rw [Party.turn_of_exit heard hexit]
    exact ⟨c₁, hstill⟩

/-- Every event. -/
lemma step (h : Follows d total os c₀ y c) (hp : Settled p q)
    (h₀ : Standing d p q total c₀.s c₀.msg c₀.r) (e : Event) (he : ∀ o ∈ e.outcome, o ∈ os) :
    ∃ c', Follows d total os c₀ (y.step d e) c' := by
  cases e with
  | loseThere i =>
    rcases eraseIdx_cases y.there i with hsame | ⟨front, x, rear, hthere, herase⟩
    · exact ⟨c, by rw [System.step, hsame]; exact h⟩
    · rw [System.step, herase]
      exact h.loseThere hthere
  | loseBack i =>
    rcases eraseIdx_cases y.back i with hsame | ⟨front, x, rear, hback, herase⟩
    · exact ⟨c, by rw [System.step, hsame]; exact h⟩
    · rw [System.step, herase]
      exact h.loseBack hback
  | sender attempt o => exact h.sender_turn hp h₀ (hears_hear y.back attempt) (he o rfl)
  | receiver attempt o => exact h.receiver_turn hp h₀ (hears_hear y.there attempt) (he o rfl)

/-- Every run. -/
lemma run (h : Follows d total os c₀ y c) (hp : Settled p q)
    (h₀ : Standing d p q total c₀.s c₀.msg c₀.r) (events : List Event)
    (hevents : ∀ e ∈ events, ∀ o ∈ e.outcome, o ∈ os) :
    ∃ c', Follows d total os c₀ (y.run d events) c' := by
  induction events generalizing y c with
  | nil => exact ⟨c, h⟩
  | cons e events ih =>
    obtain ⟨c', hfollows⟩ := h.step hp h₀ e (hevents e List.mem_cons_self)
    exact ih hfollows fun e' he' => hevents e' (List.mem_cons_of_mem e he')

end Turns

end Follows

/-! ## A sender and a receiver that have just been started -/

/-- A party as the command line leaves it. -/
def Options.session (o : Options) (keep : Bool) (cmlist : List Name) (cmarg2 : Option Name) :
    Session where
  state := .start
  params := o.params
  bctu := 1
  streaming := false
  failure := false
  cx := false
  cz := false
  cmlist := cmlist
  cmarg := []
  cmarg2 := cmarg2
  filnam := []
  filelength := 0
  maxsiz := 0
  source := ⟨.going, 0, [], false, []⟩
  keep := keep
  ofile := none
  kept := []

/-- One of the two streams. -/
def Streams (a b : Options) : Prop :=
  a.streaming = true ∧ b.streaming = true ∧ (94 < a.urpsiz ∨ 94 < b.urpsiz)

lemma settled_negotiated {a b : Options} (h : ¬ Streams a b) :
    Settled (negotiated a b).1 (negotiated a b).2 := by
  have hagreed := negotiates a b
  have hrange := b.urpsiz_range
  refine ⟨hagreed.proper, hagreed.decodes, hagreed.attributes, ?_, ?_, ?_⟩
  · rw [Params.room, hagreed.spsiz, hagreed.bctr.1]
    split <;> omega
  · by_contra hpos
    obtain ⟨ha, hb, hlong⟩ := hagreed.sends.mp (not_le.mp hpos)
    exact h ⟨ha, hb, .inr hlong⟩
  · by_contra hpos
    obtain ⟨ha, hb, hlong⟩ := hagreed.takes.mp (not_le.mp hpos)
    exact h ⟨ha, hb, .inl hlong⟩

section Start

variable (a b : Options) (d : Disk) (o : Outcome) (keep keep' : Bool) (names : List Name)
  (there here : Option Name)

/-- The names and contents of the files that are to arrive. -/
def Options.total : List (Name × List Byte) :=
  arrivals (negotiated a b).1.text (negotiated a b).1.literal (negotiated a b).2.literal there here
    (readable d names)

/-- The sender has offered its parameters. -/
def Options.offering : Session :=
  { a.session keep names there with state := .ssini, params := a.params.bid }

/-- The receiver waits. -/
def Options.waiting : Session := { a.session keep names there with state := .srini }

/-- The system at the start. -/
def Options.system : System :=
  System.begin d o (a.session keep names there) (b.session keep' [] here)

variable {a b d o keep keep' names there here}

lemma not_wide_nil (p : Coding) : ¬ p.Wide [] := by
  rintro ⟨-, a, hpair, -⟩
  exact absurd (List.infix_nil.mp hpair) (by simp)

lemma between_start {p q : Params} (hsend : Sendable d p q there names) :
    Between d p q (arrivals p.text p.literal q.literal there here (readable d names))
      { a.offering keep names there with params := p } { b.waiting keep' [] here with params := q } :=
  ⟨⟨rfl, rfl, rfl, rfl, rfl, rfl, hsend⟩, ⟨rfl, rfl, rfl, rfl, rfl, rfl, not_wide_nil q.coding⟩, rfl,
    List.nil_append _⟩

lemma standing_start (hsend : Sendable d (negotiated a b).1 (negotiated a b).2 there names) :
    Standing d (negotiated a b).1 (negotiated a b).2 (a.total b d names there here)
      (a.offering keep names there) (letter 'S', a.params.bid.told) (b.waiting keep' [] here) := by
  have hanswer : ((b.waiting keep' [] here).params.spar a.params.bid.told).rpar =
      ((taken a b).bid.told, (negotiated a b).2) := by
    rw [negotiated_eq]
    exact rfl
  have hspar : (a.offering keep names there).params.spar (taken a b).bid.told =
      (negotiated a b).1 := by
    rw [negotiated_eq]
    exact rfl
  exact .offer rfl rfl hanswer hspar (between_start hsend)

/-- The first packet has been written, or the sender sees that it cannot be. -/
lemma follows_start {os : List Outcome} (ho : o ∈ os)
    (hsend : Sendable d (negotiated a b).1 (negotiated a b).2 there names) :
    ∃ c, Follows d (a.total b d names there here) os
      (Conf.begin (a.offering keep names there) (letter 'S', a.params.bid.told)
        (b.waiting keep' [] here) 0)
      (a.system b d o keep keep' names there here) c := by
  have hstanding : Standing d (negotiated a b).1 (negotiated a b).2 (a.total b d names there here)
      (a.offering keep names there) (letter 'S', a.params.bid.told) (b.waiting keep' [] here) :=
    standing_start hsend
  obtain ⟨k, hk⟩ : ∃ k : Party, ⟨a.offering keep names there, 0, 0, none, [], none⟩ = k := ⟨_, rfl⟩
  obtain ⟨y, hy⟩ : ∃ y : System, ⟨{ k with sndpkt := some ⟨letter 'S', 0, a.params.bid.told⟩ },
    ⟨b.waiting keep' [] here, 0, 0, none, [], none⟩, [], []⟩ = y := ⟨_, rfl⟩
  have hsystem : a.system b d o keep keep' names there here = { y with
      a := (k.send o (letter 'S') a.params.bid.told (some .sinit)).1
      there := y.there ++ (k.send o (letter 'S') a.params.bid.told (some .sinit)).2 } := by
    rw [← hy, ← hk]
    rfl
  have hwritten : Follows d (a.total b d names there here) os
      (Conf.begin (a.offering keep names there) (letter 'S', a.params.bid.told)
        (b.waiting keep' [] here) 0)
      { y with there := y.there ++ [⟨letter 'S', 0, a.params.bid.told⟩] }
      (Conf.begin (a.offering keep names there) (letter 'S', a.params.bid.told)
        (b.waiting keep' [] here) 0) := by
    rw [← hy, ← hk]
    refine ⟨Conf.stands_begin, rfl, rfl, fun x hx => ?_, fun x hx => absurd hx List.not_mem_nil,
      fun _ => ⟨rfl, rfl, rfl⟩, fun _ => ⟨rfl, rfl, fun x hx => absurd hx (by simp)⟩,
      hstanding.stored, fun hdone => absurd hdone (by simp), rfl, rfl, rfl⟩
    rw [List.mem_singleton.mp hx]
    exact ⟨le_rfl, fun herror => absurd herror (show letter 'S' ≠ letter 'E' by decide)⟩
  have hsent : k.spacket o.ttol (letter 'S') a.params.bid.told =
      (y.a, ttol o.ttol ⟨letter 'S', 0, a.params.bid.told⟩) := by
    rw [← hy, ← hk]
    rfl
  rw [hsystem]
  rcases Party.send_cases o k (letter 'S') a.params.bid.told (some .sinit) with
    hsend | ⟨hfails, g, hgive⟩
  · rw [hsend, hsent]
    exact hwritten.unwrittenThere o.ttol
  · obtain ⟨c, hlost⟩ := hwritten.unwrittenThere false
    have hnothing : y.there ++ ttol false ⟨letter 'S', 0, a.params.bid.told⟩ = y.there :=
      List.append_nil _
    rw [hnothing] at hlost
    rw [hgive, hsent]
    exact hlost.sender_error hlost.sends (.inr ⟨o, ho, Outcome.complaints_ttol hfails g⟩)

/-- What has come of the system calls in a run. -/
def outcomes (o : Outcome) (events : List Event) : List Outcome :=
  o :: events.filterMap Event.outcome

lemma follows_run (hstop : ¬ Streams a b)
    (hsend : Sendable d (negotiated a b).1 (negotiated a b).2 there names) (events : List Event) :
    ∃ c₀ c, Follows d (a.total b d names there here) (outcomes o events) c₀
      ((a.system b d o keep keep' names there here).run d events) c := by
  obtain ⟨c, hfollows⟩ := follows_start (o := o) (List.mem_cons_self (l := events.filterMap
    Event.outcome)) hsend
  exact ⟨_, hfollows.run (settled_negotiated hstop) (standing_start hsend) events
    fun e he o' ho' => List.mem_cons_of_mem o (List.mem_filterMap.mpr ⟨e, he, ho'⟩)⟩

/-- Whatever is lost, whichever system calls fail and whenever a party has its turn, what the
receiver has stored are the first of the files that are to arrive, and the beginning of the next
one.  When the sender ends without an error, the receiver has stored them all. -/
theorem stores (hstop : ¬ Streams a b)
    (hsend : Sendable d (negotiated a b).1 (negotiated a b).2 there names) (events : List Event) :
    let y := (a.system b d o keep keep' names there here).run d events
    Stored (a.total b d names there here) y.b.session ∧
      (y.a.exit = some false → y.b.session.kept = a.total b d names there here) ∧
      y.a.session.source.overrun = false ∧ y.b.session.source.overrun = false := by
  obtain ⟨c₀, c, hfollows⟩ := follows_run hstop hsend events
  exact ⟨hfollows.stored, fun hdone => (hfollows.done hdone).1, hfollows.sends, hfollows.takes⟩

/-- An error packet is about the number of retries or names a system call that has failed: no party
meets a packet that it has no rule for, or data that it cannot decode. -/
theorem complains (hstop : ¬ Streams a b)
    (hsend : Sendable d (negotiated a b).1 (negotiated a b).2 there names) (events : List Event) :
    let y := (a.system b d o keep keep' names there here).run d events
    ∀ x ∈ y.there ++ y.back, x.type = letter 'E' → Excuse (outcomes o events) x.data := by
  obtain ⟨c₀, c, hfollows⟩ := follows_run hstop hsend events
  intro y x hx herror
  rcases List.mem_append.mp hx with hx | hx
  · exact (hfollows.there x hx).2 herror
  · rcases (hfollows.here x hx).2 with hack | hnak | ⟨-, hexcuse⟩
    · exact absurd (hack.symm.trans herror) (by decide)
    · exact absurd (hnak.symm.trans herror) (by decide)
    · exact hexcuse

end Start

/-- A command line without streaming. -/
def waits : Options where
  parity := none
  manual := false
  text := false
  literal := false
  urpsiz := 94
  timint := 9
  streaming := false
  urpsiz_range := by decide
  manual_of_text := by decide

/-- One file, of which only two bytes can be read. -/
def oneFile : Disk := fun name =>
  if name = message "dir/a" then some [some 72, some 255, none, none, some 10] else none

lemma readable_oneFile : readable oneFile [message "dir/a"] =
    [(message "dir/a", [some 72, some 255, none, none, some 10])] := by decide +kernel

lemma sendable_oneFile :
    Sendable oneFile (negotiated waits waits).1 (negotiated waits waits).2 none
      [message "dir/a"] := by
  have hplain : (negotiated waits waits).1.coding.ebqflg = false ∧
      (negotiated waits waits).2.coding.ebqflg = false := by decide +kernel
  refine ⟨fun _ hnone => absurd hnone (by simp), fun x hx => ?_, fun _ x hx => ?_, fun x _ =>
    Coding.not_wide_of_ebqflg hplain.1⟩
  · rw [readable_oneFile] at hx
    obtain rfl := List.mem_singleton.mp hx
    exact ⟨⟨by decide +kernel, by decide +kernel, by decide +kernel⟩,
      Coding.not_wide_of_ebqflg hplain.2⟩
  · rw [readable_oneFile] at hx
    obtain rfl := List.mem_singleton.mp hx
    decide

/-- The first packet is lost, and then the parties have their turns one after the other. -/
def afterLoss : List Event :=
  [.loseThere 0, .receiver .timeout .fine, .sender .packet .fine] ++
    (List.replicate 6 [Event.receiver .packet .fine, Event.sender .packet .fine]).flatten

/-- What can be read of the file arrives. -/
theorem stores_oneFile :
    ((waits.system waits oneFile .fine false false [message "dir/a"] none none).run oneFile
      afterLoss).b.session.kept = [(message "a", [72, 255])] :=
  ((stores (fun h => absurd h.1 (by decide)) sendable_oneFile afterLoss).2.1
    (by decide +kernel)).trans (by decide +kernel)

/-- The receiver cannot write the second byte. -/
def diskFull : List Event :=
  [.receiver .packet .fine, .sender .packet .fine, .receiver .packet .fine, .sender .packet .fine,
    .receiver .packet .fine, .sender .packet .fine,
    .receiver .packet { Outcome.fine with putc := some 1 }]

theorem complains_oneFile :
    ((waits.system waits oneFile .fine false false [message "dir/a"] none none).run oneFile
      diskFull).back = [⟨letter 'E', 3, message "Packet decoding error"⟩] ∧
      Excuse (outcomes .fine diskFull) (message "Packet decoding error") := by
  have hback : ((waits.system waits oneFile .fine false false [message "dir/a"] none none).run
      oneFile diskFull).back = [⟨letter 'E', 3, message "Packet decoding error"⟩] := by
    decide +kernel
  have hstop : ¬ Streams waits waits := fun h => absurd h.1 (by decide)
  refine ⟨hback, ?_⟩
  exact complains hstop sendable_oneFile diskFull _
    (List.mem_append_right _ (hback ▸ List.mem_singleton_self _)) rfl

end EspLinux.Kermit
