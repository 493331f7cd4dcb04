import EspLinux.Kermit.Session

/-!
# The exchange of a sender and a receiver

What a sender and a receiver do when every packet arrives and is acknowledged.  The receiver keeps
up with the sender packet by packet (`Standing`): at every moment what it has stored are the first
of the files, and of the file that is under way it has the beginning.
-/

namespace EspLinux.Kermit

/-! ## Names and attributes -/

namespace Coding

variable {p q : Coding} {maxsiz maxlen : ℕ} {overrun : Bool} {f : Field} {a : Byte}
  {us : List (ℕ × Byte)}

/-- A character takes three places at most. -/
lemma length_spells_le (hus : ∀ u ∈ us, p.IsUnit u) :
    (p.spells us).length ≤ 3 * (runs us).length := by
  induction us with
  | nil => exact Nat.le_refl 0
  | cons u us ih =>
    have hunit := hus u List.mem_cons_self
    have hrest := ih fun v hv => hus v (List.mem_cons_of_mem u hv)
    have hone : (p.spell u).length ≤ 3 * u.1 := by
      by_cases h : u.1 = 1
      · have hemit := length_emit_le p u.2
        rw [spell, if_pos h, h]
        exact hemit
      · have hspell := length_spell_le p u
        have hpos := hunit.1
        omega
    rw [spells_cons, runs_cons, List.length_append, List.length_append, List.length_replicate]
    omega

lemma Encoded.length_le {next : Option Byte} {f' : Field} {done late : List (ℕ × Byte)}
    (h : p.Encoded maxsiz f a next f' done late) :
    f'.xdata.length + 3 * f'.rpt ≤ f.xdata.length + 3 * (f.rpt + 1) := by
  have hspells := length_spells_le h.units
  have hruns := congrArg List.length h.runs
  have hlength := congrArg List.length h.xdata
  simp only [List.length_append, List.length_replicate, List.length_cons, List.length_nil,
    spells_append] at hspells hruns hlength
  omega

/-- The units of a field after a character has been encoded. -/
lemma Encoded.units_append {next : Option Byte} {f' : Field} {done late : List (ℕ × Byte)}
    (h : p.Encoded maxsiz f a next f' done late) (hf : f.xdata = p.spells us)
    (hus : ∀ u ∈ us, p.IsUnit u) :
    f'.xdata = p.spells (us ++ (done ++ late)) ∧ ∀ u ∈ us ++ (done ++ late), p.IsUnit u := by
  refine ⟨?_, fun u hu => ?_⟩
  · rw [h.xdata, hf, spells_append, spells_append, List.append_assoc]
  · rcases List.mem_append.mp hu with hu | hu
    · exact hus u hu
    · exact h.units u hu

/-- A short text fills no packet. -/
lemma fill_short (us : List (ℕ × Byte)) (input : List Byte) (hf : f.xdata = p.spells us)
    (hus : ∀ u ∈ us, p.IsUnit u) (hrpt : f.rpt ≤ 93 ∧ (f.rpt ≠ 0 → p.rptflg = true))
    (hshort : f.xdata.length + 3 * (f.rpt + 1 + input.length) < maxlen) :
    (p.fill maxsiz maxlen overrun a f input).2.overrun = overrun ∧
      ∃ vs, (p.fill maxsiz maxlen overrun a f input).1 = p.spells vs ∧ (∀ u ∈ vs, p.IsUnit u) ∧
        runs vs = runs us ++ List.replicate f.rpt a ++ a :: input := by
  induction input generalizing a f us with
  | nil =>
    obtain ⟨done, late, henc⟩ := encoded_next maxsiz a none hrpt
    obtain ⟨f', hf'⟩ : ∃ f', p.encode maxsiz { f with osize := f.xdata.length } a none = f' :=
      ⟨_, rfl⟩
    rw [hf'] at henc
    have hzero : f'.rpt = 0 := by
      by_contra hne
      exact absurd (henc.rpt.2 hne).2.1 (by simp)
    have hlength := henc.length_le
    obtain ⟨hxdata, hunits⟩ := henc.units_append hf hus
    have hruns := henc.runs
    rw [hzero, List.replicate_zero, List.append_nil] at hruns
    rw [List.length_nil] at hshort
    rw [fill, hf']
    simp only [if_neg (show ¬ maxlen < f'.xdata.length by omega)]
    refine ⟨trivial, us ++ (done ++ late), hxdata, hunits, ?_⟩
    rw [runs_append, hruns, List.append_assoc]
  | cons next input ih =>
    obtain ⟨done, late, henc⟩ := encoded_next maxsiz a (some next) hrpt
    obtain ⟨f', hf'⟩ : ∃ f', p.encode maxsiz { f with osize := f.xdata.length } a (some next) = f' :=
      ⟨_, rfl⟩
    rw [hf'] at henc
    have hlength := henc.length_le
    obtain ⟨hxdata, hunits⟩ := henc.units_append hf hus
    rw [List.length_cons] at hshort
    obtain ⟨hover, vs, hvs, hvunits, hvruns⟩ := ih (a := next) _ hxdata hunits
      ⟨henc.rpt.1, fun hzero => (henc.rpt.2 hzero).1⟩ (by omega)
    rw [fill, hf']
    simp only [if_neg (show f'.xdata.length ≠ maxlen by omega),
      if_neg (show ¬ maxlen < f'.xdata.length by omega)]
    refine ⟨hover, vs, hvs, hvunits, ?_⟩
    rw [hvruns, ← henc.same, runs_append, List.append_assoc (runs us), henc.runs]
    simp

/-- A short text goes into one packet, and nothing is kept of it. -/
theorem encstr_short {s : List Byte} (h : 3 * s.length < maxlen) :
    (p.encstr maxsiz maxlen overrun s).2.overrun = overrun ∧
      ∃ us, (p.encstr maxsiz maxlen overrun s).1 = p.spells us ∧ (∀ u ∈ us, p.IsUnit u) ∧
        runs us = s := by
  cases s with
  | nil => exact ⟨rfl, [], rfl, by simp, rfl⟩
  | cons a input =>
    rw [List.length_cons] at h
    exact @fill_short p maxsiz maxlen overrun ⟨[], 0, 0⟩ a [] input rfl (by simp)
      ⟨Nat.zero_le _, fun h => absurd rfl h⟩ (by simp only [List.length_nil]; omega)

/-- Of a text without wide runs `remain` holds what is kept. -/
theorem encstr_fits {s : List Byte} (h : ¬ p.Wide s) :
    (p.encstr maxsiz maxlen overrun s).2.overrun = overrun :=
  getpkt_fits (show Source.Has p ⟨.start, 0, [], overrun, s⟩ s from rfl) h

/-- What text mode leaves of the characters. -/
def plain (text : Bool) (s : List Byte) : List Byte := if text then s.filter (· ≠ CR) else s

/-- What comes of decoding units, in either mode. -/
lemma decode_plain (hp : p.Proper) (hq : q.Decodes p) (hus : ∀ u ∈ us, p.IsUnit u) {text : Bool}
    (hdouble : text = true → ¬ [CR, CR] <:+: runs us) :
    q.decode text (p.spells us) = (plain text (runs us), true) := by
  rw [decode_spells hp hq hus, plain]
  cases text with
  | false => rw [shown_binary hus]; rfl
  | true => rw [shown_runs hus (hdouble rfl)]; rfl

/-- A name that a packet takes, and that arrives in either mode. -/
structure Nameable (maxlen : ℕ) (name : Name) : Prop where
  short : 3 * name.length < maxlen
  nul : 0 ∉ name
  cr : CR ∉ name

/-- A name arrives. -/
theorem decode_encstr (hp : p.Proper) (hq : q.Decodes p) {name : Name}
    (h : Nameable maxlen name) (text : Bool) :
    (q.decode text (p.encstr maxsiz maxlen overrun name).1).1.takeWhile (· ≠ 0) = name := by
  obtain ⟨-, us, hus, hunits, hruns⟩ := @encstr_short p maxsiz maxlen overrun name h.short
  have hdouble : ¬ [CR, CR] <:+: runs us := by
    intro hpart
    rw [hruns] at hpart
    exact h.cr (hpart.subset List.mem_cons_self)
  have hplain : plain text name = name := by
    rw [plain]
    split
    · exact List.filter_eq_self.mpr fun c hc => decide_eq_true fun hcr => h.cr (hcr ▸ hc)
    · rfl
  rw [hus, decode_plain hp hq hunits fun _ => hdouble, hruns, hplain]
  exact List.takeWhile_eq_self_iff.mpr fun c hc => decide_eq_true fun hnul => h.nul (hnul ▸ hc)

end Coding

namespace Session

variable {n : ℕ} {text : Bool} {data : List Byte}

/-- Where no type of a file can stand, there is nothing to refuse. -/
lemma gattrLoop_free (h : letter '"' ∉ data) : gattrLoop n text data = (true, text) := by
  induction n generalizing data with
  | zero => rfl
  | succ n ih =>
    cases data with
    | nil => rfl
    | cons c s =>
      have hrest : letter '"' ∉ s.tail.drop (xunchar (s.headD 0)).toNat := fun hmem =>
        h (List.mem_cons_of_mem c (List.mem_of_mem_tail (List.mem_of_mem_drop hmem)))
      have hc : c ≠ letter '"' := fun hc => h (hc ▸ List.mem_cons_self)
      rw [gattrLoop]
      by_cases hzero : c = 0
      · rw [if_pos hzero]
      · rw [if_neg hzero, if_neg hc, ih hrest]

lemma quote_not_mem_digits (k : ℕ) : letter '"' ∉ (Nat.toDigits 10 k).map letter := by
  intro hmem
  obtain ⟨c, hc, hletter⟩ := List.mem_map.mp hmem
  have hdigit := Nat.isDigit_of_mem_toDigits (by decide) (by decide) hc
  have hrange : 48 ≤ c.toNat ∧ c.toNat ≤ 57 := by
    simpa [Char.isDigit, UInt32.le_iff_toNat_le] using hdigit
  have hvalue : (letter c).toNat = c.toNat := by
    rw [letter, UInt8.toNat_ofNat']
    omega
  rw [hletter] at hvalue
  have hquote : (letter '"').toNat = 34 := rfl
  omega

/-- The receiver takes the mode of the sender. -/
lemma gattrLoop_attributes (s : Session) (text : Bool) :
    gattrLoop s.attributes.length text s.attributes = (true, s.params.text) := by
  obtain ⟨size, hsize⟩ : ∃ size, (Nat.toDigits 10 s.filelength).map letter = size := ⟨_, rfl⟩
  have hfree : letter '"' ∉ size := hsize ▸ quote_not_mem_digits s.filelength
  have hlength : ∀ text n, gattrLoop (n + 1) text (letter '1' :: tochar size.length :: size) =
      (true, text) := by
    intro text n
    show gattrLoop n text (size.drop (xunchar (tochar size.length)).toNat) = (true, text)
    exact gattrLoop_free fun hmem => hfree (List.mem_of_mem_drop hmem)
  rw [attributes, hsize]
  cases s.params.text with
  | true =>
    show gattrLoop (size.length + 7 + 3) text _ = _
    exact hlength true (size.length + 7)
  | false =>
    show gattrLoop (size.length + 4 + 2) text _ = _
    exact hlength false (size.length + 4)

/-! ## Message and acknowledgement -/

/-- A packet less its number. -/
abbrev Message := Byte × List Byte

/-- What the receiver makes of a message when its files make no trouble: its acknowledgement. -/
def onMessage (d : Disk) (r : Session) (m : Message) : Option (Session × List Byte) :=
  match r.act d .fine (kind m.1) m.2 with
  | (r, .ack data) => some (r, data)
  | (r, .bye) => some (r, [])
  | _ => none

/-- What the sender makes of an acknowledgement: its next message. -/
def onAck (d : Disk) (s : Session) (data : List Byte) : Option (Session × Message) :=
  match s.act d .fine .Y data with
  | (s, .send type data _) => some (s, (type, data))
  | _ => none

end Session

/-! ## Where the exchange stands -/

/-- The files among `names` that can be read. -/
def readable (d : Disk) (names : List Name) : List (Name × File) :=
  names.filterMap fun name => (d name).map (name, ·)

/-- The names under which files arrive, and what is read of them.  The first one may have a name of
its own, given by the sender or by the receiver. -/
def arrivals (text sends takes : Bool) : Option Name → Option Name → List (Name × File) →
    List (Name × List Byte)
  | _, _, [] => []
  | there, here, (name, file) :: files =>
    (here.getD (zrtol takes (there.getD (zltor sends name))), contents text 0 file) ::
      arrivals text sends takes none none files

/-- How much data a packet takes. -/
def Params.room (p : Params) : ℕ := p.spsiz - (p.bctr + 3) - if 94 < p.spsiz then 4 else 0

/-- What a sender with parameters `p` and a receiver with parameters `q` need of each other. -/
structure Settled (p q : Params) : Prop where
  proper : p.coding.Proper
  decodes : q.coding.Decodes p.coding
  attributes : p.attributes = true
  room : 6 < p.room
  sends : p.streamok ≤ 0
  takes : q.streamok ≤ 0

/-- A name arrives, and the receiver can acknowledge with it. -/
structure Arrives (p q : Params) (pktnam : Name) : Prop where
  nameable : Coding.Nameable p.spsiz pktnam
  fits : ¬ q.coding.Wide (zrtol q.literal pktnam)

/-- Every file that is still to be sent has a name that arrives, text has no carriage returns, and
`remain` is large enough. -/
structure Sendable (d : Disk) (p q : Params) (there : Option Name) (cmlist : List Name) :
    Prop where
  asname : ∀ name ∈ there, Arrives p q name
  names : ∀ x ∈ readable d cmlist, Arrives p q (zltor p.literal x.1)
  text : p.text = true → ∀ x ∈ readable d cmlist, some CR ∉ x.2
  fits : ∀ x ∈ readable d cmlist, ¬ p.coding.Wide (contents p.text 0 x.2)

/-- The sender has parameters `p`, and nothing has been cancelled. -/
structure Sender (d : Disk) (p q : Params) (s : Session) : Prop where
  params : s.params = p
  streaming : s.streaming = false
  cx : s.cx = false
  cz : s.cz = false
  failure : s.failure = false
  overrun : s.source.overrun = false
  sendable : Sendable d p q s.cmarg2 s.cmlist

/-- The receiver has parameters `q` but for the mode, and nothing has been cancelled. -/
structure Receiver (q : Params) (r : Session) : Prop where
  params : r.params = { q with text := r.params.text }
  streaming : r.streaming = false
  cx : r.cx = false
  cz : r.cz = false
  failure : r.failure = false
  overrun : r.source.overrun = false
  filnam : ¬ q.coding.Wide r.filnam

/-- The source has `stream` to send, of which text mode makes `rest`. -/
structure Sends (p : Params) (source : Source) (stream rest : List Byte) : Prop where
  has : source.Has p.coding stream
  rest : Coding.plain p.text stream = rest
  double : p.text = true → ¬ [CR, CR] <:+: stream
  fits : ¬ p.coding.Wide stream

/-- A file is under way: the receiver has written `written` of it. -/
structure Underway (d : Disk) (p q : Params) (total : List (Name × List Byte)) (s r : Session)
    (name : Name) (written file : List Byte) : Prop where
  sender : Sender d p q s
  receiver : Receiver q r
  maxsiz : s.maxsiz = p.room
  ofile : r.ofile = some (name, written)
  there : s.cmarg2 = none
  here : r.cmarg2 = none
  total : r.kept ++ (name, file) ::
    arrivals p.text p.literal q.literal none none (readable d s.cmlist) = total

/-- No file is under way. -/
structure Between (d : Disk) (p q : Params) (total : List (Name × List Byte)) (s r : Session) :
    Prop where
  sender : Sender d p q s
  receiver : Receiver q r
  ofile : r.ofile = none
  total : r.kept ++ arrivals p.text p.literal q.literal s.cmarg2 r.cmarg2 (readable d s.cmlist) = total

/-- Where sender, message and receiver stand, when `total` is what is to arrive. -/
inductive Standing (d : Disk) (p q : Params) (total : List (Name × List Byte)) :
    Session → Session.Message → Session → Prop
  /-- The sender offers its parameters. -/
  | offer {s r : Session} {offer answer : List Byte} : s.state = .ssini → r.state = .srini →
      (r.params.spar offer).rpar = (answer, q) → s.params.spar answer = p →
      Between d p q total { s with params := p } { r with params := q } →
      Standing d p q total s (letter 'S', offer) r
  /-- The name of a file. -/
  | header {s r : Session} {pktnam : Name} {stream file : List Byte} {maxsiz : ℕ} {overrun : Bool} :
      s.state = .ssfil → r.state = .srfil → Sender d p q s → Receiver q r → r.ofile = none →
      s.maxsiz = p.room → s.cmarg2 = none → Arrives p q pktnam →
      Sends p s.source stream file →
      r.kept ++ (r.cmarg2.getD (zrtol q.literal pktnam), file) ::
        arrivals p.text p.literal q.literal none none (readable d s.cmlist) = total →
      Standing d p q total s (letter 'F', (p.coding.encstr maxsiz p.spsiz overrun pktnam).1) r
  /-- The attributes. -/
  | attributes {s r : Session} {name : Name} {stream file : List Byte} : s.state = .ssatt →
      r.state = .sratt → Underway d p q total s r name [] file → Sends p s.source stream file →
      Standing d p q total s (letter 'A', s.attributes) r
  /-- Data. -/
  | data {s r : Session} {name : Name} {written stream rest file : List Byte}
      {us : List (ℕ × Byte)} : s.state = .ssdat → r.state = .sratt ∨ r.state = .srdat →
      r.params.text = p.text → Underway d p q total s r name written file →
      (∀ u ∈ us, p.coding.IsUnit u) → Sends p s.source stream rest →
      (p.text = true → ¬ [CR, CR] <:+: runs us) →
      file = written ++ Coding.plain p.text (runs us) ++ rest →
      Standing d p q total s (letter 'D', p.coding.spells us) r
  /-- The end of a file. -/
  | eof {s r : Session} {name : Name} {file : List Byte} : s.state = .sseof →
      r.state = .sratt ∨ r.state = .srdat → Underway d p q total s r name file file →
      Standing d p q total s (letter 'Z', []) r
  /-- The end of the transmission. -/
  | eot {s r : Session} : s.state = .sseot → r.state = .srfil → Sender d p q s → Receiver q r →
      r.ofile = none → r.kept = total → Standing d p q total s (letter 'B', []) r

section Sending

variable {d : Disk} {p q : Params} {total : List (Name × List Byte)} {s r : Session}

lemma Coding.plain_append (text : Bool) (a b : List Byte) :
    Coding.plain text (a ++ b) = Coding.plain text a ++ Coding.plain text b := by
  cases text
  · rfl
  · exact List.filter_append ..

lemma Sender.update (h : Sender d p q s) (state : State) {source : Source}
    (hover : source.overrun = s.source.overrun) : Sender d p q { s with state, source } :=
  ⟨h.params, h.streaming, h.cx, h.cz, h.failure, hover.trans h.overrun, h.sendable⟩

lemma Underway.update {name : Name} {written file : List Byte}
    (h : Underway d p q total s r name written file) (state : State) {source : Source}
    (hover : source.overrun = s.source.overrun) :
    Underway d p q total { s with state, source } r name written file :=
  ⟨h.sender.update state hover, h.receiver, h.maxsiz, h.ofile, h.there, h.here, h.total⟩

/-- The next packet of data, or the end of the file. -/
lemma Underway.sdata (hp : Settled p q) {name : Name} {written stream rest : List Byte}
    (h : Underway d p q total s r name written (written ++ rest)) (hsends : Sends p s.source stream rest)
    (hstate : r.state = .sratt ∨ r.state = .srdat) (htext : r.params.text = p.text) :
    ∃ s' m f, s.sdata .fine [] = (s', .send m.1 m.2 f) ∧ Standing d p q total s' m r := by
  have hcoding : s.params.coding = p.coding := by rw [h.sender.params]
  have hclear : ¬ (s.cx = true ∨ s.cz = true) := by simp [h.sender.cx, h.sender.cz]
  obtain ⟨us, stream', hfilled⟩ := @Coding.filled_getpkt p.coding p.room p.room
    hp.room le_rfl s.source stream hsends.has
  obtain ⟨⟨data, source⟩, hgetpkt⟩ : ∃ x, p.coding.getpkt p.room p.room s.source = x := ⟨_, rfl⟩
  have hover : source.overrun = s.source.overrun := by
    have hfits := @Coding.getpkt_fits p.coding p.room p.room s.source stream hsends.has hsends.fits
    rwa [hgetpkt] at hfits
  rw [hgetpkt] at hfilled
  rw [← hcoding, ← h.maxsiz] at hgetpkt
  rw [Session.sdata, if_neg hclear, hgetpkt]
  have hdata : data = p.coding.spells us := hfilled.data
  by_cases hnil : data = []
  · have hus : us = [] := Coding.spells_eq_nil.mp (hdata ▸ hnil)
    have hrest : rest = [] := by
      rw [← hsends.rest, hfilled.nonempty hus]
      cases p.text <;> rfl
    rw [hrest, List.append_nil] at h
    refine ⟨{ s with state := .sseof, source }, (letter 'Z', []), some .seof, ?_, ?_⟩
    · simp only [if_pos hnil]
      rfl
    · exact .eof rfl hstate (h.update .sseof hover)
  · refine ⟨{ s with state := .ssdat, source }, (letter 'D', data), some .sdata, ?_, ?_⟩
    · simp only [if_neg hnil]
    · have hdouble : p.text = true → ¬ [CR, CR] <:+: runs us ++ stream' := by
        rw [← hfilled.order]
        exact hsends.double
      have hfits : ¬ p.coding.Wide stream' := by
        intro hwide
        refine hsends.fits (hwide.mono ?_)
        rw [hfilled.order]
        exact (List.suffix_append _ _).isInfix
      rw [hdata]
      refine .data rfl hstate htext (h.update .ssdat hover) hfilled.units
        ⟨hfilled.has, rfl, fun hmode hpart => ?_, hfits⟩ (fun hmode hpart => ?_) ?_
      · exact hdouble hmode (hpart.trans (List.suffix_append _ _).isInfix)
      · exact hdouble hmode (hpart.trans (List.prefix_append _ _).isInfix)
      · rw [← hsends.rest, hfilled.order, Coding.plain_append, List.append_assoc]

/-- Files that cannot be read are skipped. -/
lemma readable_dropWhile (d : Disk) (names : List Name) :
    readable d (names.dropWhile fun name => (d name).isNone) = readable d names := by
  induction names with
  | nil => rfl
  | cons name names ih =>
    rw [List.dropWhile_cons]
    by_cases h : (d name).isNone = true
    · have hnone : (d name).map (name, ·) = none := by rw [Option.isNone_iff_eq_none.mp h]; rfl
      rw [if_pos h, ih]
      exact (List.filterMap_cons_none (f := fun name => (d name).map (name, ·)) hnone).symm
    · rw [if_neg h]

/-- The file as it is sent. -/
lemma sends_input {file : File} {source : Source} (hfirst : source.first = .start)
    (hinput : source.input = Reader.input p.text ⟨[], file⟩)
    (hcr : p.text = true → some CR ∉ file) (hfit : ¬ p.coding.Wide (contents p.text 0 file)) :
    Sends p source (Reader.input p.text ⟨[], file⟩) (contents p.text 0 file) := by
  have hfree : p.text = true → CR ∉ contents p.text 0 file := fun htext hmem =>
    hcr htext (List.reduceOption_mem_iff.mp ((contents_isPrefix p.text 0 file).subset hmem))
  have hhas : source.Has p.coding (Reader.input p.text ⟨[], file⟩) := by
    rw [Source.Has, hfirst]
    exact hinput.symm
  refine ⟨hhas, ?_, fun htext => ?_, ?_⟩
  · cases htext : p.text with
    | false => rfl
    | true => exact filter_crlf (htext ▸ hfree htext)
  · rw [htext]
    exact crlf_no_double (htext ▸ hfree htext)
  · rw [Reader.input, List.nil_append]
    split
    · exact fun hwide => hfit (Coding.wide_crlf hwide)
    · exact hfit

lemma Session.sfile_fine {file : File} (hfile : d s.filnam = some file) :
    ∃ source : Source, source.first = .start ∧
      source.input = Reader.input s.params.text ⟨[], file⟩ ∧
      source.overrun = (s.encstr (s.cmarg2.getD (zltor s.params.literal s.filnam))).2.source.overrun ∧
      s.sfile d .fine = ({ s with
        state := .ssfil
        cmarg2 := none
        filelength := file.reduceOption.length
        maxsiz := s.params.room
        source },
        .send (letter 'F') (s.encstr (s.cmarg2.getD (zltor s.params.literal s.filnam))).1
          (some .sfile)) := by
  refine ⟨{ (s.encstr (s.cmarg2.getD (zltor s.params.literal s.filnam))).2.source with
    first := .start
    input := Reader.input s.params.text ⟨[], file⟩ }, rfl, rfl, rfl, ?_⟩
  rw [Session.sfile, hfile]
  rfl

/-- The end of the transmission, or the name of the next file. -/
lemma Between.nextFile (h : Between d p q total s r) (hstate : r.state = .srfil)
    (f : Option Failure) :
    ∃ s' m f', s.nextFile d .fine f = (s', .send m.1 m.2 f') ∧
      Standing d p q total s' m r := by
  have htotal := h.total
  have hsendable := h.sender.sendable
  rw [← readable_dropWhile] at htotal
  rw [Session.nextFile, Session.gnfile, if_neg (by simp [h.sender.cz])]
  cases hnames : s.cmlist.dropWhile fun name => (d name).isNone with
  | nil =>
    rw [hnames] at htotal
    have hsender : Sender d p q { s with state := .sseot, cmlist := [] } :=
      ⟨h.sender.params, h.sender.streaming, h.sender.cx, h.sender.cz, h.sender.failure,
        h.sender.overrun, hsendable.asname, fun _ hx => absurd hx List.not_mem_nil,
        fun _ _ hx => absurd hx List.not_mem_nil, fun _ hx => absurd hx List.not_mem_nil⟩
    refine ⟨_, (letter 'B', []), f, rfl, .eot rfl hstate hsender h.receiver h.ofile ?_⟩
    rw [← htotal]
    exact (List.append_nil _).symm
  | cons name cmlist =>
    have hsome : (d name).isSome = true := by
      have hhead := List.head?_dropWhile_not (fun name => (d name).isNone) s.cmlist
      rw [hnames] at hhead
      simpa using hhead
    obtain ⟨file, hfile⟩ := Option.isSome_iff_exists.mp hsome
    have hreadable : readable d s.cmlist = (name, file) :: readable d cmlist := by
      have hpair : (d name).map (name, ·) = some (name, file) := by rw [hfile]; rfl
      rw [← readable_dropWhile, hnames]
      exact List.filterMap_cons_some hpair
    obtain ⟨pktnam, hpktnam⟩ : ∃ pktnam, s.cmarg2.getD (zltor s.params.literal name) = pktnam :=
      ⟨_, rfl⟩
    have hparams := h.sender.params
    have harrives : Arrives p q pktnam := by
      rw [← hpktnam, hparams]
      cases has : s.cmarg2 with
      | none => exact hsendable.names (name, file) (hreadable ▸ List.mem_cons_self)
      | some asname => exact hsendable.asname asname has
    have hrest : Sendable d p q none cmlist := by
      have htail : ∀ x ∈ readable d cmlist, x ∈ readable d s.cmlist := fun x hx =>
        hreadable ▸ List.mem_cons_of_mem _ hx
      exact ⟨fun _ hnone => absurd hnone (by simp), fun x hx => hsendable.names x (htail x hx),
        fun htext x hx => hsendable.text htext x (htail x hx),
        fun x hx => hsendable.fits x (htail x hx)⟩
    obtain ⟨source, hfirst, hinput, hover, hsent⟩ :=
      Session.sfile_fine (d := d) (s := { s with filnam := name, cmlist }) hfile
    have hsends : Sends p source (Reader.input p.text ⟨[], file⟩) (contents p.text 0 file) :=
      sends_input hfirst (hparams ▸ hinput)
        (fun htext => hsendable.text htext (name, file) (hreadable ▸ List.mem_cons_self))
        (hsendable.fits (name, file) (hreadable ▸ List.mem_cons_self))
    obtain ⟨hkept, -⟩ := @Coding.encstr_short p.coding s.maxsiz p.spsiz s.source.overrun pktnam
      harrives.nameable.short
    have hsource : source.overrun = false := by
      rw [hover, ← h.sender.overrun, ← hkept, ← hpktnam, ← hparams]
      rfl
    refine ⟨_, (letter 'F', (s.params.coding.encstr s.maxsiz s.params.spsiz s.source.overrun
      pktnam).1), some .sfile, by rw [← hpktnam]; exact hsent, ?_⟩
    rw [hparams] at hpktnam ⊢
    refine .header rfl hstate ⟨rfl, h.sender.streaming, h.sender.cx, h.sender.cz,
      h.sender.failure, hsource, hrest⟩ h.receiver h.ofile rfl rfl harrives hsends ?_
    rw [readable_dropWhile, hreadable, arrivals, hpktnam] at htotal
    exact htotal

end Sending

/-! ## Message by message -/

/-- What the receiver has stored: the first files, and the beginning of the next one. -/
structure Stored (total : List (Name × List Byte)) (r : Session) : Prop where
  kept : r.kept <+: total
  ofile : ∀ name written, r.ofile = some (name, written) →
    ∃ file, written <+: file ∧ r.kept ++ [(name, file)] <+: total

section Exchange

variable {d : Disk} {p q : Params} {total : List (Name × List Byte)} {s r : Session}
  {m : Session.Message}

/-- The message is received, and its acknowledgement brings the next one, or ends the protocol. -/
structure Exchanged (d : Disk) (p q : Params) (total : List (Name × List Byte)) (s : Session)
    (m : Session.Message) (r r' : Session) (a : List Byte) : Prop where
  received : r.onMessage d m = some (r', a)
  stored : Stored total r'
  streaming : r'.streaming = false
  overrun : r'.source.overrun = false
  acked : (∃ s' m', s.onAck d a = some (s', m') ∧ Standing d p q total s' m' r') ∨
    s.act d .fine .Y a = (s, .done) ∧ s.failure = false ∧ r'.kept = total

lemma Session.streamon_of (h : s.params.streamok ≤ 0) : s.streamon = s := if_neg (not_lt.mpr h)

lemma Receiver.streamok (hp : Settled p q) (h : Receiver q r) : r.params.streamok ≤ 0 := by
  rw [h.params]
  exact hp.takes

lemma stored_underway {name : Name} {written file : List Byte}
    (h : Underway d p q total s r name written file) (hfile : written <+: file) : Stored total r := by
  have htotal := h.total
  refine ⟨⟨_, htotal⟩, fun name' written' hofile => ?_⟩
  obtain ⟨rfl, rfl⟩ := Prod.mk.inj (Option.some.inj (h.ofile.symm.trans hofile))
  refine ⟨file, hfile, ?_⟩
  rw [← htotal]
  exact ⟨arrivals p.text p.literal q.literal none none (readable d s.cmlist), by simp⟩

lemma stored_closed (h : r.kept <+: total) (hofile : r.ofile = none) : Stored total r :=
  ⟨h, fun _ _ hsome => absurd (hofile.symm.trans hsome) (by simp)⟩

lemma onAck_of {a : List Byte} {s' : Session} {f : Option Failure}
    (h : s.acked d .fine a = (s', .send m.1 m.2 f)) :
    s.onAck d a = some (s', m) := by
  rw [Session.onAck, Session.act, h]

lemma act_of_onAck {a : List Byte} {s' : Session} (h : s.onAck d a = some (s', m)) :
    ∃ f, s.act d .fine .Y a = (s', .send m.1 m.2 f) := by
  rw [Session.onAck] at h
  split at h
  · rename_i hact
    obtain ⟨rfl, rfl⟩ := Prod.mk.inj (Option.some.inj h)
    exact ⟨_, hact⟩
  · exact absurd h (by simp)

lemma act_of_onMessage {a : List Byte} {r' : Session} (h : r.onMessage d m = some (r', a)) :
    r.act d .fine (kind m.1) m.2 = (r', .ack a) ∨
      r.act d .fine (kind m.1) m.2 = (r', .bye) ∧ a = [] := by
  rw [Session.onMessage] at h
  split at h
  · rename_i hact
    obtain ⟨rfl, rfl⟩ := Prod.mk.inj (Option.some.inj h)
    exact .inl hact
  · rename_i hact
    obtain ⟨rfl, rfl⟩ := Prod.mk.inj (Option.some.inj h)
    exact .inr ⟨hact, rfl⟩
  · exact absurd h (by simp)

lemma exchanged_eof {name : Name} {file : List Byte} (hs : s.state = .sseof)
    (hr : r.state = .sratt ∨ r.state = .srdat) (h : Underway d p q total s r name file file) :
    ∃ r' a, Exchanged d p q total s (letter 'Z', []) r r' a := by
  have hrec := h.receiver
  have hclosed : r.onMessage d (letter 'Z', []) = some ({ r with
      state := .srfil
      ofile := none
      kept := r.kept ++ [(name, file)] }, []) := by
    have hact : r.act d .fine (kind (letter 'Z')) [] = r.closof .fine [] := by
      rcases hr with hr | hr <;> simp only [Session.act, show kind (letter 'Z') = .Z from rfl, hr]
    rw [Session.onMessage, hact, Session.closof]
    simp [hrec.cx, hrec.cz, h.ofile, Outcome.fine]
  have hbetween : Between d p q total s { r with
      state := .srfil
      ofile := none
      kept := r.kept ++ [(name, file)] } := by
    refine ⟨h.sender, ⟨hrec.params, hrec.streaming, hrec.cx, hrec.cz, hrec.failure, hrec.overrun,
      hrec.filnam⟩, rfl, ?_⟩
    rw [← h.total, h.there, h.here, List.append_assoc]
    rfl
  obtain ⟨s', m', f, hnext, hstanding⟩ := hbetween.nextFile rfl none
  refine ⟨_, _, hclosed, stored_closed ⟨_, hbetween.total⟩ rfl, hrec.streaming, hrec.overrun,
    .inl ⟨s', m', onAck_of (f := f) ?_, hstanding⟩⟩
  rw [Session.acked, hs]
  exact hnext

lemma exchanged_data (hp : Settled p q) {name : Name} {written stream rest file : List Byte}
    {us : List (ℕ × Byte)} (hs : s.state = .ssdat) (hr : r.state = .sratt ∨ r.state = .srdat)
    (htext : r.params.text = p.text) (h : Underway d p q total s r name written file)
    (hus : ∀ u ∈ us, p.coding.IsUnit u) (hsends : Sends p s.source stream rest)
    (hdouble : p.text = true → ¬ [CR, CR] <:+: runs us)
    (hfile : file = written ++ Coding.plain p.text (runs us) ++ rest) :
    ∃ r' a, Exchanged d p q total s (letter 'D', p.coding.spells us) r r' a := by
  have hrec := h.receiver
  obtain ⟨out, hout⟩ : ∃ out, Coding.plain p.text (runs us) = out := ⟨_, rfl⟩
  have hcoding : r.params.coding = q.coding := by rw [hrec.params]
  have hdecode : r.params.coding.decode r.params.text (p.coding.spells us) = (out, true) := by
    rw [hcoding, htext, Coding.decode_plain hp.proper hp.decodes hus hdouble, hout]
  have hwritten : r.onMessage d (letter 'D', p.coding.spells us) = some ({ r with
      state := .srdat
      ofile := some (name, written ++ out) }, []) := by
    have hact : r.act d .fine (kind (letter 'D')) (p.coding.spells us) =
        r.putData .fine (p.coding.spells us) := by
      rcases hr with hr | hr <;> simp only [Session.act, show kind (letter 'D') = .D from rfl, hr]
    rw [Session.onMessage, hact, Session.putData, hdecode]
    simp [h.ofile, hrec.streaming, Outcome.fine]
  have hunderway : Underway d p q total s { r with
      state := .srdat
      ofile := some (name, written ++ out) } name (written ++ out) (written ++ out ++ rest) := by
    refine ⟨h.sender, ⟨hrec.params, hrec.streaming, hrec.cx, hrec.cz, hrec.failure, hrec.overrun,
      hrec.filnam⟩, h.maxsiz, rfl, h.there, h.here, ?_⟩
    rw [← h.total, hfile, hout]
  obtain ⟨s', m', f, hnext, hstanding⟩ := hunderway.sdata hp hsends (.inr rfl) htext
  refine ⟨_, _, hwritten, stored_underway hunderway ⟨rest, rfl⟩, hrec.streaming, hrec.overrun,
    .inl ⟨s', m', onAck_of (f := f) ?_, hstanding⟩⟩
  rw [Session.acked, hs]
  simpa [h.sender.cx, h.sender.cz] using hnext

lemma exchanged_attributes (hp : Settled p q) {name : Name} {stream file : List Byte}
    (hs : s.state = .ssatt) (hr : r.state = .sratt)
    (h : Underway d p q total s r name [] file) (hsends : Sends p s.source stream file) :
    ∃ r' a, Exchanged d p q total s (letter 'A', s.attributes) r r' a := by
  have hrec := h.receiver
  have htaken : r.onMessage d (letter 'A', s.attributes) =
      some ({ r with params := { r.params with text := p.text } }, []) := by
    have hact : r.act d .fine (kind (letter 'A')) s.attributes = r.gattr s.attributes := by
      simp only [Session.act, show kind (letter 'A') = .A from rfl, hr]
    rw [Session.onMessage, hact, Session.gattr, Session.gattrLoop_attributes, h.sender.params]
    rfl
  have hparams : ({ r.params with text := p.text } : Params) = { q with text := p.text } := by
    rw [hrec.params]
  have hunderway : Underway d p q total s { r with params := { r.params with text := p.text } }
      name [] ([] ++ file) :=
    ⟨h.sender, ⟨hparams, hrec.streaming, hrec.cx, hrec.cz, hrec.failure, hrec.overrun,
      hrec.filnam⟩, h.maxsiz, h.ofile, h.there, h.here, h.total⟩
  obtain ⟨s', m', f, hnext, hstanding⟩ := hunderway.sdata hp hsends (.inl hr) rfl
  refine ⟨_, _, htaken, stored_underway hunderway (List.nil_prefix ..), hrec.streaming,
    hrec.overrun,
    .inl ⟨s', m', onAck_of (f := f) ?_, hstanding⟩⟩
  rw [Session.acked, hs]
  exact hnext

lemma Session.zopeno_fine (h : r.params.streamok ≤ 0) (name : Name)
    (hfit : ¬ r.params.coding.Wide r.filnam) :
    ∃ (source : Source) (a : List Byte), source.overrun = r.source.overrun ∧
      r.zopeno .fine name =
        ({ r with state := .sratt, ofile := some (name, []), source }, .ack a) := by
  rw [Session.zopeno, if_neg (by simp [Outcome.fine]), if_neg (by simp [Outcome.fine])]
  refine ⟨(r.encstr r.filnam).2.source, (r.encstr r.filnam).1, Coding.encstr_fits hfit, ?_⟩
  exact Prod.ext (Session.streamon_of h) rfl

/-- The output file has the as-name, or else the name from the packet. -/
lemma Session.rcvfil_fine (h : r.params.streamok ≤ 0) (data : List Byte)
    (hfilnam : ¬ r.params.coding.Wide r.filnam)
    (hfit : ¬ r.params.coding.Wide (Kermit.zrtol r.params.literal (r.decstr data))) :
    ∃ (filnam : Name) (source : Source) (a : List Byte), ¬ r.params.coding.Wide filnam ∧
      source.overrun = r.source.overrun ∧ r.rcvfil .fine data = ({ r with
        state := .sratt
        cx := false
        cmarg2 := none
        filnam
        ofile := some (r.cmarg2.getD (Kermit.zrtol r.params.literal (r.decstr data)), [])
        source }, .ack a) := by
  rw [Session.rcvfil]
  cases hhere : r.cmarg2 with
  | none =>
    obtain ⟨source, a, hsource, hopened⟩ := Session.zopeno_fine (r := { r with
      cx := false
      cmarg2 := none
      filnam := Kermit.zrtol r.params.literal (r.decstr data) }) h
      (Kermit.zrtol r.params.literal (r.decstr data)) hfit
    exact ⟨_, source, a, hfit, hsource, hopened⟩
  | some asname =>
    obtain ⟨source, a, hsource, hopened⟩ :=
      Session.zopeno_fine (r := { r with cx := false, cmarg2 := none }) h asname hfilnam
    exact ⟨_, source, a, hfilnam, hsource, hopened⟩

lemma exchanged_header (hp : Settled p q) {pktnam : Name} {stream file : List Byte} {maxsiz : ℕ}
    {overrun : Bool} (hs : s.state = .ssfil) (hr : r.state = .srfil) (hsend : Sender d p q s)
    (hrec : Receiver q r) (hmaxsiz : s.maxsiz = p.room) (hthere : s.cmarg2 = none)
    (hname : Arrives p q pktnam) (hsends : Sends p s.source stream file)
    (htotal : r.kept ++ (r.cmarg2.getD (zrtol q.literal pktnam), file) ::
      arrivals p.text p.literal q.literal none none (readable d s.cmlist) = total) :
    ∃ r' a, Exchanged d p q total s
      (letter 'F', (p.coding.encstr maxsiz p.spsiz overrun pktnam).1) r r' a := by
  obtain ⟨data, hdata⟩ : ∃ data, (p.coding.encstr maxsiz p.spsiz overrun pktnam).1 = data :=
    ⟨_, rfl⟩
  obtain ⟨name, hnamed⟩ : ∃ name, r.cmarg2.getD (zrtol q.literal pktnam) = name := ⟨_, rfl⟩
  have hcoding : r.params.coding = q.coding := by rw [hrec.params]
  have hliteral : r.params.literal = q.literal := by rw [hrec.params]
  have hdecoded : r.decstr data = pktnam := by
    rw [Session.decstr, hcoding, ← hdata]
    exact Coding.decode_encstr hp.proper hp.decodes hname.nameable r.params.text
  obtain ⟨filnam, source, a, hfilnam, hsource, hopened⟩ := Session.rcvfil_fine (hrec.streamok hp)
    data (hcoding ▸ hrec.filnam) (by rw [hcoding, hliteral, hdecoded]; exact hname.fits)
  rw [hdecoded, hliteral, hnamed] at hopened
  rw [hcoding] at hfilnam
  have hreceived : r.onMessage d (letter 'F', data) = some ({ r with
      state := .sratt
      cx := false
      cmarg2 := none
      filnam
      ofile := some (name, [])
      source }, a) := by
    have hact : r.act d .fine (kind (letter 'F')) data = r.rcvfil .fine data := by
      simp only [Session.act, show kind (letter 'F') = .F from rfl, hr]
    rw [Session.onMessage, hact, hopened]
  have hunderway : Underway d p q total { s with state := .ssatt } { r with
      state := .sratt
      cx := false
      cmarg2 := none
      filnam
      ofile := some (name, [])
      source } name [] file := by
    refine ⟨hsend.update .ssatt rfl, ⟨hrec.params, hrec.streaming, rfl, hrec.cz, hrec.failure,
      hsource.trans hrec.overrun, hfilnam⟩, hmaxsiz, rfl, hthere, rfl, ?_⟩
    rw [← htotal, hnamed]
  have hattributes : s.params.attributes = true := by rw [hsend.params, hp.attributes]
  have hstanding : Standing d p q total { s with state := .ssatt } (letter 'A', s.attributes) _ :=
    Standing.attributes (s := { s with state := .ssatt }) rfl rfl hunderway hsends
  rw [hdata]
  refine ⟨_, _, hreceived, stored_underway hunderway (List.nil_prefix ..), hrec.streaming,
    hsource.trans hrec.overrun,
    .inl ⟨_, (letter 'A', s.attributes), onAck_of (f := some .sattr) ?_, hstanding⟩⟩
  rw [Session.acked, hs]
  exact if_pos hattributes

lemma exchanged_eot (hs : s.state = .sseot) (hr : r.state = .srfil) (hrec : Receiver q r)
    (hofile : r.ofile = none) (hfail : s.failure = false) (hkept : r.kept = total) :
    ∃ r' a, Exchanged d p q total s (letter 'B', []) r r' a := by
  have hended : r.onMessage d (letter 'B', []) = some (r, []) := by
    have hact : r.act d .fine (kind (letter 'B')) [] = (r, .bye) := by
      simp only [Session.act, show kind (letter 'B') = .B from rfl, hr]
    rw [Session.onMessage, hact]
  refine ⟨r, [], hended, stored_closed ⟨[], by rw [hkept, List.append_nil]⟩ hofile,
    hrec.streaming, hrec.overrun, .inr ⟨?_, hfail, hkept⟩⟩
  rw [Session.act, Session.acked, hs]

lemma Session.nextFile_params (d : Disk) (o : Outcome) (s : Session) (f : Option Failure) :
    (s.nextFile d o f).1.params = s.params := by
  rw [Session.nextFile, Session.gnfile]
  by_cases hcz : s.cz = true
  · rw [if_pos hcz]
  · rw [if_neg hcz]
    cases s.cmlist.dropWhile fun name => (d name).isNone with
    | nil => rfl
    | cons name cmlist =>
      show (Session.sfile d o { s with filnam := name, cmlist }).1.params = s.params
      rw [Session.sfile]
      split <;> rfl

lemma exchanged_offer (hp : Settled p q) {offer answer : List Byte} (hs : s.state = .ssini)
    (hr : r.state = .srini) (hanswer : (r.params.spar offer).rpar = (answer, q))
    (hspar : s.params.spar answer = p)
    (h : Between d p q total { s with params := p } { r with params := q }) :
    ∃ r' a, Exchanged d p q total s (letter 'S', offer) r r' a := by
  have hrec := h.receiver
  have hsend := h.sender
  have hreceived : r.onMessage d (letter 'S', offer) =
      some ({ r with params := q, bctu := q.bctr, state := .srfil }, answer) := by
    have hact : r.act d .fine (kind (letter 'S')) offer =
        ({ r with params := q, bctu := q.bctr, state := .srfil }, .ack answer) := by
      simp only [Session.act, show kind (letter 'S') = .S from rfl, hr, hanswer]
      exact Prod.ext (Session.streamon_of hp.takes) rfl
    rw [Session.onMessage, hact]
  have hbetween : Between d p q total { s with state := .ssini, params := p, bctu := p.bctr }
      { r with params := q, bctu := q.bctr, state := .srfil } :=
    ⟨⟨hsend.params, hsend.streaming, hsend.cx, hsend.cz, hsend.failure, hsend.overrun,
        hsend.sendable⟩,
      ⟨hrec.params, hrec.streaming, hrec.cx, hrec.cz, hrec.failure, hrec.overrun, hrec.filnam⟩,
      h.ofile, h.total⟩
  obtain ⟨s', m', f, hnext, hstanding⟩ := hbetween.nextFile rfl (some .seot)
  refine ⟨_, _, hreceived, stored_closed ⟨_, h.total⟩ h.ofile, hrec.streaming, hrec.overrun,
    .inl ⟨s', m', onAck_of (f := f) ?_, hstanding⟩⟩
  have hstream : s'.streamon = s' := by
    refine Session.streamon_of ?_
    have hparams := Session.nextFile_params d .fine
      { s with state := .ssini, params := p, bctu := p.bctr } (some .seot)
    rw [hnext] at hparams
    rw [show s'.params = p from hparams]
    exact hp.sends
  rw [Session.acked, hs]
  simp only [hspar, hnext, hstream]
  exact ite_self _

/-- A sender and a receiver that stand together go on together. -/
theorem Standing.exchanged (hp : Settled p q) (h : Standing d p q total s m r) :
    ∃ r' a, Exchanged d p q total s m r r' a := by
  cases h with
  | offer hs hr hanswer hspar hbetween => exact exchanged_offer hp hs hr hanswer hspar hbetween
  | header hs hr hsend hrec _ hmaxsiz hthere hname hsends htotal =>
    exact exchanged_header hp hs hr hsend hrec hmaxsiz hthere hname hsends htotal
  | attributes hs hr hunder hsends => exact exchanged_attributes hp hs hr hunder hsends
  | data hs hr htext hunder hus hsends hdouble hfile =>
    exact exchanged_data hp hs hr htext hunder hus hsends hdouble hfile
  | eof hs hr hunder => exact exchanged_eof hs hr hunder
  | eot hs hr hsend hrec hofile hkept => exact exchanged_eot hs hr hrec hofile hsend.failure hkept

/-- What has been stored before the message comes. -/
theorem Standing.stored (h : Standing d p q total s m r) : Stored total r := by
  cases h with
  | offer _ _ _ _ hbetween => exact stored_closed ⟨_, hbetween.total⟩ hbetween.ofile
  | header _ _ _ _ hofile _ _ _ _ htotal => exact stored_closed ⟨_, htotal⟩ hofile
  | attributes _ _ hunder _ => exact stored_underway hunder (List.nil_prefix ..)
  | data _ _ _ hunder _ _ _ hfile =>
    refine stored_underway hunder ?_
    rw [hfile, List.append_assoc]
    exact List.prefix_append _ _
  | eof _ _ hunder => exact stored_underway hunder (List.prefix_refl _)
  | eot _ _ _ _ hofile hkept =>
    rw [← hkept]
    exact stored_closed (List.prefix_refl _) hofile

lemma Standing.streaming (h : Standing d p q total s m r) :
    s.streaming = false ∧ r.streaming = false := by
  cases h with
  | offer _ _ _ _ hbetween => exact ⟨hbetween.sender.streaming, hbetween.receiver.streaming⟩
  | header _ _ hsend hrec => exact ⟨hsend.streaming, hrec.streaming⟩
  | attributes _ _ hunder => exact ⟨hunder.sender.streaming, hunder.receiver.streaming⟩
  | data _ _ _ hunder => exact ⟨hunder.sender.streaming, hunder.receiver.streaming⟩
  | eof _ _ hunder => exact ⟨hunder.sender.streaming, hunder.receiver.streaming⟩
  | eot _ _ hsend hrec => exact ⟨hsend.streaming, hrec.streaming⟩

lemma Standing.overrun (h : Standing d p q total s m r) : s.source.overrun = false := by
  cases h with
  | offer _ _ _ _ hbetween => exact hbetween.sender.overrun
  | header _ _ hsend => exact hsend.overrun
  | attributes _ _ hunder => exact hunder.sender.overrun
  | data _ _ _ hunder => exact hunder.sender.overrun
  | eof _ _ hunder => exact hunder.sender.overrun
  | eot _ _ hsend => exact hsend.overrun

lemma Standing.type (h : Standing d p q total s m r) : m.1 ≠ letter 'E' := by
  cases h <;> dsimp only <;> decide

/-- One exchange brings sender and receiver to stand together again. -/
theorem Standing.next (hp : Settled p q) (h : Standing d p q total s m r) {r' s' : Session}
    {a : List Byte} {m' : Session.Message} (hmsg : r.onMessage d m = some (r', a))
    (hack : s.onAck d a = some (s', m')) : Standing d p q total s' m' r' := by
  obtain ⟨r₁, a₁, hexchanged⟩ := h.exchanged hp
  obtain ⟨rfl, rfl⟩ := Prod.mk.inj (Option.some.inj (hexchanged.received.symm.trans hmsg))
  rcases hexchanged.acked with ⟨s₁, m₁, hack₁, hstanding⟩ | ⟨hdone, -⟩
  · obtain ⟨rfl, rfl⟩ := Prod.mk.inj (Option.some.inj (hack₁.symm.trans hack))
    exact hstanding
  · rw [Session.onAck, hdone] at hack
    exact absurd hack (by simp)

end Exchange

end EspLinux.Kermit
