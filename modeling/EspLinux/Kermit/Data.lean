import Mathlib

/-!
# The data field of a packet

How G-Kermit writes bytes into the data field of a packet, and how it reads them back.  Control
characters go with a prefix, bytes with the eighth bit set do so on a line with parity, and a
run is written once behind a count.  `getpkt` fills one packet from the file.  What does not fit
any more is kept in `remain` for the next packet, so that no packet ends between a prefix and its
character.  A run of two may keep six characters, and then their NUL goes behind `remain`.

The characters of the source are unsigned, as they are on the machine it is built for.
-/

namespace EspLinux.Kermit

abbrev Byte := UInt8

def CR : Byte := 13

def LF : Byte := 10

/-- Number to character. -/
def tochar (n : ℕ) : Byte := UInt8.ofNat (n + 32)

/-- Character to number. -/
def xunchar (c : Byte) : ℤ := c.toNat - 32

/-- Controllify, uncontrollify. -/
def ctl (c : Byte) : Byte := c ^^^ 64

/-- The prefixes in use. -/
structure Coding where
  sctlq : Byte
  rctlq : Byte
  ebqflg : Bool
  ebq : Byte
  rptflg : Bool
  rptq : Byte

/-! ## Encoding -/

/-- The data field in the making, up to `size`. -/
structure Field where
  xdata : List Byte
  /-- What the field had grown to before. -/
  osize : ℕ
  rpt : ℕ

namespace Coding

/-- The end of `encode`: a character with its prefixes, less the count. -/
def emit (p : Coding) (a : Byte) : List Byte :=
  let a7 := a &&& 127
  let eighth : Bool := p.ebqflg && a &&& 128 ≠ 0
  let b := if eighth then a7 else a
  (if eighth then [p.ebq] else []) ++
    if a7 < 32 ∨ a7 = 127 then [p.sctlq, ctl b]
    else if a7 = p.sctlq then [p.sctlq, b]
    else if p.ebqflg ∧ a7 = p.ebq then [p.sctlq, b]
    else if p.rptflg ∧ a7 = p.rptq then [p.sctlq, b]
    else [b]

/-- Encode a character into the packet, `next` being the one behind it. -/
def encode (p : Coding) (maxsiz : ℕ) (f : Field) (a : Byte) (next : Option Byte) : Field :=
  if p.rptflg then
    if next = some a then
      if f.rpt + 1 < 94 then { f with rpt := f.rpt + 1 }
      else if f.rpt + 1 = 94 then
        { f with xdata := f.xdata ++ ([p.rptq, tochar 94] ++ p.emit a), rpt := 0 }
      else { f with xdata := f.xdata ++ p.emit a, rpt := f.rpt + 1 }
    else if f.rpt = 1 then
      -- a run of two is written as two characters, and the packet may end between them
      let f := { f with xdata := f.xdata ++ p.emit a, rpt := 0 }
      let f := if f.xdata.length ≤ maxsiz then { f with osize := f.xdata.length } else f
      { f with xdata := f.xdata ++ p.emit a }
    else if 1 < f.rpt then
      { f with xdata := f.xdata ++ ([p.rptq, tochar (f.rpt + 1)] ++ p.emit a), rpt := 0 }
    else { f with xdata := f.xdata ++ p.emit a }
  else { f with xdata := f.xdata ++ p.emit a }

end Coding

/-- The flag for the first input from a file. -/
inductive First
  | start
  | going
  | ended
deriving DecidableEq

/-- Where `getpkt` stands in its file, or in its string. -/
structure Source where
  first : First
  c : Byte
  remain : List Byte
  /-- More has been stored in `remain` than its six places hold. -/
  overrun : Bool
  /-- What has not been read yet. -/
  input : List Byte

namespace Coding

/-- What does not fit any more is kept: with its NUL it has to go into the six places of
`remain`. -/
def keep (overrun : Bool) (kept : List Byte) : Bool := overrun || 6 < kept.length + 1

/-- The loop of `getpkt`.  The bound of the packet is `maxlen`, while `encode` looks at `maxsiz`. -/
def fill (p : Coding) (maxsiz maxlen : ℕ) (overrun : Bool) (c : Byte) (f : Field) :
    List Byte → List Byte × Source
  | [] =>
    let f := p.encode maxsiz { f with osize := f.xdata.length } c none
    if maxlen < f.xdata.length then
      (f.xdata.take f.osize,
        ⟨.ended, c, f.xdata.drop f.osize, keep overrun (f.xdata.drop f.osize), []⟩)
    else (f.xdata, ⟨.ended, c, [], overrun, []⟩)
  | next :: input =>
    let f := p.encode maxsiz { f with osize := f.xdata.length } c (some next)
    if f.xdata.length = maxlen then (f.xdata, ⟨.going, next, [], overrun, input⟩)
    else if maxlen < f.xdata.length then
      (f.xdata.take f.osize,
        ⟨.going, next, f.xdata.drop f.osize, keep overrun (f.xdata.drop f.osize), input⟩)
    else fill p maxsiz maxlen overrun next f input

/-- Fill a packet. -/
def getpkt (p : Coding) (maxsiz maxlen : ℕ) (s : Source) : List Byte × Source :=
  match s.first with
  | .start =>
    match s.input with
    | [] => ([], { s with first := .ended, remain := [] })
    | c :: input => p.fill maxsiz maxlen s.overrun c ⟨[], 0, 0⟩ input
  | .ended => (s.remain, { s with remain := [] })
  | .going => p.fill maxsiz maxlen s.overrun s.c ⟨s.remain, 0, 0⟩ s.input

/-- Fill a packet from a string. -/
def encstr (p : Coding) (maxsiz spsiz : ℕ) (overrun : Bool) (s : List Byte) :
    List Byte × Source :=
  p.getpkt maxsiz spsiz ⟨.start, 0, [], overrun, s⟩

end Coding

/-! ## Decoding -/

/-- The next character of a data field. -/
def next : List Byte → Option (Byte × List Byte)
  | [] => none
  | a :: data => some (a, data)

namespace Coding

/-- A character behind the repeat prefix, with its count. -/
def readCount (q : Coding) (a : Byte) (data : List Byte) :
    Option (Option ℤ × Byte × List Byte) :=
  if q.rptflg ∧ a = q.rptq then do
    let (n, data) ← next data
    let (a, data) ← next data
    return (some (xunchar n), a, data)
  else some (none, a, data)

/-- A character behind the prefix of the eighth bit. -/
def readEighth (q : Coding) (a : Byte) (data : List Byte) : Option (Byte × Byte × List Byte) :=
  if q.ebqflg ∧ a = q.ebq then (next data).map fun (a, data) => (128, a, data)
  else some (0, a, data)

/-- A character behind the control prefix. -/
def readCtl (q : Coding) (a : Byte) (data : List Byte) : Option (Byte × List Byte) :=
  if a = q.rctlq then
    (next data).map fun (a, data) =>
      (if 62 < a &&& 127 ∧ a &&& 127 < 96 then ctl a else a, data)
  else some (a, data)

/-- One turn of `decode` as far as it reads: the count if there is one, the character and what is
left; `none` where the field ends behind a prefix. -/
def readChar (q : Coding) (a : Byte) (data : List Byte) :
    Option (Option ℤ × Byte × List Byte) := do
  let (count, a, data) ← q.readCount a data
  let (b8, a, data) ← q.readEighth a data
  let (a, data) ← q.readCtl a data
  return (count, a ||| b8, data)

/-- The loop of `decode`, `rpt` being the count left by the turn before: what is written to the
file, and whether the field was sound. -/
def decodeLoop (q : Coding) (text : Bool) : ℕ → ℤ → List Byte → List Byte × Bool
  | 0, _, _ => ([], true)
  | _, _, [] => ([], true)
  | len + 1, rpt, a :: data =>
    match q.readChar a data with
    | none => ([], false)
    | some (count, a, data) =>
      let rpt := count.getD rpt
      let rpt := if rpt = 0 then 1 else rpt
      -- a carriage return leaves its count to the character behind it
      if text ∧ a = CR then decodeLoop q text len rpt data
      else
        let (out, sound) := decodeLoop q text len (min rpt 0) data
        (List.replicate rpt.toNat a ++ out, sound)

/-- Decode a data field. -/
def decode (q : Coding) (text : Bool) (data : List Byte) : List Byte × Bool :=
  q.decodeLoop text data.length 0 data

end Coding

/-! ## Units

A packet is a sequence of units: a character and how often it stands there. -/

/-- A character that may be a prefix. -/
def IsPrefix (c : Byte) : Prop := 32 < c ∧ c < 63 ∨ 95 < c ∧ c < 127

instance (c : Byte) : Decidable (IsPrefix c) := inferInstanceAs (Decidable (_ ∨ _))

namespace Coding

/-- The prefixes in use are told apart. -/
structure Proper (p : Coding) : Prop where
  sctlq : IsPrefix p.sctlq
  ebq : p.ebqflg = true → IsPrefix p.ebq
  rptq : p.rptflg = true → IsPrefix p.rptq
  ebq_ne : p.ebqflg = true → p.ebq ≠ p.sctlq
  rptq_ne : p.rptflg = true → p.rptq ≠ p.sctlq
  ebq_ne_rptq : p.ebqflg = true → p.rptflg = true → p.ebq ≠ p.rptq

/-- `q` decodes what `p` encodes. -/
structure Decodes (q p : Coding) : Prop where
  ctlq : q.rctlq = p.sctlq
  ebqflg : q.ebqflg = p.ebqflg
  ebq : p.ebqflg = true → q.ebq = p.ebq
  rptflg : q.rptflg = p.rptflg
  rptq : p.rptflg = true → q.rptq = p.rptq

/-- A unit as it stands in a packet. -/
def spell (p : Coding) (u : ℕ × Byte) : List Byte :=
  (if u.1 = 1 then [] else [p.rptq, tochar u.1]) ++ p.emit u.2

def spells (p : Coding) (us : List (ℕ × Byte)) : List Byte := us.flatMap p.spell

/-- A unit that `encode` makes. -/
def IsUnit (p : Coding) (u : ℕ × Byte) : Prop :=
  1 ≤ u.1 ∧ u.1 ≤ 94 ∧ (u.1 ≠ 1 → p.rptflg = true)

end Coding

/-- What units stand for. -/
def runs (us : List (ℕ × Byte)) : List Byte := us.flatMap fun u => List.replicate u.1 u.2

@[simp] lemma runs_nil : runs [] = [] := rfl

@[simp] lemma runs_cons {u : ℕ × Byte} {us : List (ℕ × Byte)} :
    runs (u :: us) = List.replicate u.1 u.2 ++ runs us := rfl

@[simp] lemma runs_append {us vs : List (ℕ × Byte)} : runs (us ++ vs) = runs us ++ runs vs :=
  List.flatMap_append

namespace Coding

variable {p q : Coding} {a : Byte} {data : List Byte} {us vs : List (ℕ × Byte)}

@[simp] lemma spells_nil : p.spells [] = [] := rfl

@[simp] lemma spells_cons {u : ℕ × Byte} : p.spells (u :: us) = p.spell u ++ p.spells us := rfl

@[simp] lemma spells_append : p.spells (us ++ vs) = p.spells us ++ p.spells vs :=
  List.flatMap_append

/-! ### Bytes -/

/-- The bits of a byte, looked at for all bytes at once. -/
lemma byte_bits (a : Byte) :
    a &&& 127 < 128 ∧ (a &&& 128 ≠ 0 → a &&& 127 ||| 128 = a) ∧ (a &&& 128 = 0 → a &&& 127 = a) ∧
      (a &&& 127 < 32 ∨ a &&& 127 = 127 → 62 < ctl a &&& 127 ∧ ctl a &&& 127 < 96) ∧
      (IsPrefix a → a &&& 127 = a) := by
  revert a
  decide +kernel

lemma or_high (h : a &&& 128 ≠ 0) : a &&& 127 ||| 128 = a := (byte_bits a).2.1 h

lemma and_127_and_127 : a &&& 127 &&& 127 = a &&& 127 := by
  rw [UInt8.and_assoc, UInt8.and_self]

lemma ctl_ctl : ctl (ctl a) = a := by
  rw [ctl, ctl, UInt8.xor_assoc, UInt8.xor_self, UInt8.xor_zero]

/-- A control character is printable when it is written, and read as one. -/
lemma ctl_range (h : a &&& 127 < 32 ∨ a &&& 127 = 127) :
    62 < ctl a &&& 127 ∧ ctl a &&& 127 < 96 := (byte_bits a).2.2.2.1 h

lemma and_127_of_isPrefix (h : IsPrefix a) : a &&& 127 = a := (byte_bits a).2.2.2.2 h

lemma not_range_of_prefix (h : IsPrefix a) : ¬ (62 < a ∧ a < 96) := by
  rintro ⟨hlow, hhigh⟩
  simp only [IsPrefix, UInt8.lt_iff_toNat_lt, UInt8.reduceToNat] at h hlow hhigh
  omega

lemma xunchar_tochar {n : ℕ} (h : n ≤ 94) : xunchar (tochar n) = n := by
  have hlt : n + 32 < 256 := by omega
  rw [xunchar, tochar, UInt8.toNat_ofNat', Nat.mod_eq_of_lt hlt]
  omega

/-! ### Reading a unit -/

/-- A prefix in front of a character that is one itself. -/
lemma readCtl_quoted {b : Byte} (hb : IsPrefix (b &&& 127)) :
    q.readCtl q.rctlq (b :: data) = some (b, data) := by
  have hrange : ¬ (62 < b &&& 127 ∧ b &&& 127 < 96) := not_range_of_prefix hb
  simp only [readCtl, if_true, next, Option.map_some, if_neg hrange]

lemma readCtl_control {b : Byte} (hb : b &&& 127 < 32 ∨ b &&& 127 = 127) :
    q.readCtl q.rctlq (ctl b :: data) = some (b, data) := by
  simp only [readCtl, if_true, next, Option.map_some, if_pos (ctl_range hb), ctl_ctl]

/-- The end of `encode` as two characters or one, `b` being the character less its eighth bit if
that has a prefix. -/
def body (p : Coding) (b : Byte) : List Byte :=
  if b &&& 127 < 32 ∨ b &&& 127 = 127 then [p.sctlq, ctl b]
  else if b &&& 127 = p.sctlq then [p.sctlq, b]
  else if p.ebqflg ∧ b &&& 127 = p.ebq then [p.sctlq, b]
  else if p.rptflg ∧ b &&& 127 = p.rptq then [p.sctlq, b]
  else [b]

lemma emit_high (h8 : p.ebqflg = true) (ha : a &&& 128 ≠ 0) :
    p.emit a = p.ebq :: p.body (a &&& 127) := by
  simp [emit, body, h8, ha, and_127_and_127]

lemma emit_low (h : p.ebqflg = true → a &&& 128 = 0) : p.emit a = p.body a := by
  cases h8 : p.ebqflg with
  | false => simp [emit, body, h8]
  | true => simp [emit, body, h8, h h8]

/-- A body begins with the control prefix or with a character that is no prefix in use. -/
lemma body_eq (p : Coding) (b : Byte) :
    (∃ c, p.body b = [p.sctlq, c]) ∨ p.body b = [b] ∧ b &&& 127 ≠ p.sctlq ∧
      (p.ebqflg = true → b &&& 127 ≠ p.ebq) ∧ (p.rptflg = true → b &&& 127 ≠ p.rptq) := by
  rw [body]
  split
  · exact .inl ⟨_, rfl⟩
  · split
    · exact .inl ⟨_, rfl⟩
    · rename_i hctl
      split
      · exact .inl ⟨_, rfl⟩
      · rename_i hebq
        split
        · exact .inl ⟨_, rfl⟩
        · rename_i hrpt
          exact .inr ⟨rfl, hctl, fun h8 he => hebq ⟨h8, he⟩, fun hr he => hrpt ⟨hr, he⟩⟩

/-- What follows a body is left. -/
lemma readCtl_body (hp : p.Proper) (hq : q.Decodes p) (b : Byte) (data : List Byte) :
    ∃ c rest, p.body b = c :: rest ∧ q.readCtl c (rest ++ data) = some (b, data) := by
  rw [body]
  split
  · rename_i hb
    refine ⟨p.sctlq, [ctl b], rfl, ?_⟩
    rw [← hq.ctlq]
    exact readCtl_control hb
  · split
    · rename_i hb
      refine ⟨p.sctlq, [b], rfl, ?_⟩
      rw [← hq.ctlq]
      exact readCtl_quoted (hb ▸ hp.sctlq)
    · rename_i hctl
      split
      · rename_i hb
        refine ⟨p.sctlq, [b], rfl, ?_⟩
        rw [← hq.ctlq]
        exact readCtl_quoted (hb.2 ▸ hp.ebq hb.1)
      · split
        · rename_i hb
          refine ⟨p.sctlq, [b], rfl, ?_⟩
          rw [← hq.ctlq]
          exact readCtl_quoted (hb.2 ▸ hp.rptq hb.1)
        · refine ⟨b, [], rfl, ?_⟩
          have hne : b ≠ q.rctlq := by
            rintro rfl
            rw [hq.ctlq] at hctl
            exact hctl (and_127_of_isPrefix hp.sctlq)
          rw [List.nil_append, readCtl, if_neg hne]

/-- The head of a body is no prefix of the other two kinds. -/
lemma ne_of_body (hp : p.Proper) {b c : Byte} {rest : List Byte} (h : p.body b = c :: rest) :
    (p.ebqflg = true → c ≠ p.ebq) ∧ (p.rptflg = true → c ≠ p.rptq) := by
  rcases body_eq p b with ⟨d, hd⟩ | ⟨hd, -, hebq, hrpt⟩
  · rw [h] at hd
    obtain rfl := (List.cons.inj hd).1
    exact ⟨fun h8 => (hp.ebq_ne h8).symm, fun hr => (hp.rptq_ne hr).symm⟩
  · rw [h] at hd
    obtain rfl := (List.cons.inj hd).1
    refine ⟨fun h8 he => hebq h8 ?_, fun hr he => hrpt hr ?_⟩
    · rw [he, and_127_of_isPrefix (hp.ebq h8)]
    · rw [he, and_127_of_isPrefix (hp.rptq hr)]

/-- A character that was written without a count is read. -/
lemma read_emit (hp : p.Proper) (hq : q.Decodes p) (a : Byte) (data : List Byte) :
    ∃ c rest, p.emit a = c :: rest ∧ (p.rptflg = true → c ≠ p.rptq) ∧
      ∃ b8 d rest', q.readEighth c (rest ++ data) = some (b8, d, rest') ∧
        ∃ b, q.readCtl d rest' = some (b, data) ∧ b ||| b8 = a := by
  by_cases hhigh : p.ebqflg = true ∧ a &&& 128 ≠ 0
  · obtain ⟨h8, ha⟩ := hhigh
    obtain ⟨c, rest, hbody, hread⟩ := readCtl_body hp hq (a &&& 127) data
    refine ⟨p.ebq, p.body (a &&& 127), emit_high h8 ha, fun hr => hp.ebq_ne_rptq h8 hr, ?_⟩
    refine ⟨128, c, rest ++ data, ?_, a &&& 127, hread, or_high ha⟩
    rw [readEighth, if_pos ⟨hq.ebqflg.trans h8, (hq.ebq h8).symm⟩, hbody]
    rfl
  · have hlow : p.ebqflg = true → a &&& 128 = 0 := fun h8 => by_contra fun ha => hhigh ⟨h8, ha⟩
    obtain ⟨c, rest, hbody, hread⟩ := readCtl_body hp hq a data
    obtain ⟨hebq, hrpt⟩ := ne_of_body hp hbody
    refine ⟨c, rest, (emit_low hlow).trans hbody, hrpt, 0, c, rest ++ data, ?_, a, hread,
      UInt8.or_zero⟩
    refine if_neg fun h => ?_
    have h8 : p.ebqflg = true := hq.ebqflg.symm.trans h.1
    exact hebq h8 (h.2.trans (hq.ebq h8))

/-- A unit is read in one turn of `decode`. -/
lemma readChar_spell (hp : p.Proper) (hq : q.Decodes p) {u : ℕ × Byte} (hu : p.IsUnit u)
    (data : List Byte) :
    ∃ c rest, p.spell u = c :: rest ∧
      q.readChar c (rest ++ data) = some (if u.1 = 1 then none else some (u.1 : ℤ), u.2, data) := by
  obtain ⟨c, rest, hemit, hrpt, b8, d, rest', height, b, hctl, hor⟩ :=
    read_emit hp hq u.2 data
  by_cases hone : u.1 = 1
  · refine ⟨c, rest, by rw [spell, if_pos hone, hemit]; rfl, ?_⟩
    have hcount : q.readCount c (rest ++ data) = some (none, c, rest ++ data) := by
      refine if_neg fun h => ?_
      have hr : p.rptflg = true := hq.rptflg.symm.trans h.1
      exact hrpt hr (h.2.trans (hq.rptq hr))
    simp only [readChar, hcount, Option.bind_eq_bind, Option.bind_some, height, hctl, hor,
      if_pos hone]
    rfl
  · have hr : p.rptflg = true := hu.2.2 hone
    refine ⟨p.rptq, tochar u.1 :: c :: rest, by rw [spell, if_neg hone, hemit]; rfl, ?_⟩
    have hcount : q.readCount p.rptq (tochar u.1 :: c :: rest ++ data) =
        some (some (u.1 : ℤ), c, rest ++ data) := by
      rw [readCount, if_pos ⟨hq.rptflg.trans hr, (hq.rptq hr).symm⟩]
      simp only [List.cons_append, next, Option.bind_eq_bind, Option.bind_some,
        xunchar_tochar hu.2.1]
      rfl
    simp only [readChar, hcount, Option.bind_eq_bind, Option.bind_some, height, hctl, hor,
      if_neg hone]
    rfl

/-! ### Reading a packet -/

/-- What `decode` writes for units, a carriage return leaving its count behind. -/
def shown (text : Bool) : ℤ → List (ℕ × Byte) → List Byte
  | _, [] => []
  | rpt, u :: us =>
    let rpt := if u.1 = 1 then (if rpt = 0 then 1 else rpt) else u.1
    if text ∧ u.2 = CR then shown text rpt us
    else List.replicate rpt.toNat u.2 ++ shown text (min rpt 0) us

lemma decodeLoop_spells (hp : p.Proper) (hq : q.Decodes p) (hus : ∀ u ∈ us, p.IsUnit u)
    (text : Bool) {len : ℕ} (hlen : (p.spells us).length ≤ len) (rpt : ℤ) :
    q.decodeLoop text len rpt (p.spells us) = (shown text rpt us, true) := by
  induction us generalizing len rpt with
  | nil => cases len <;> rfl
  | cons u us ih =>
    have hu : p.IsUnit u := hus u List.mem_cons_self
    obtain ⟨c, rest, hspell, hread⟩ := readChar_spell hp hq hu (p.spells us)
    have hcount : ∀ rpt : ℤ, (if (if u.1 = 1 then none else some (u.1 : ℤ)).getD rpt = 0 then 1
        else (if u.1 = 1 then none else some (u.1 : ℤ)).getD rpt) =
        if u.1 = 1 then (if rpt = 0 then 1 else rpt) else (u.1 : ℤ) := by
      intro rpt
      split
      · rfl
      · have hpos : (u.1 : ℤ) ≠ 0 := by
          have := hu.1
          omega
        exact if_neg hpos
    rw [spells_cons, hspell, List.cons_append] at hlen ⊢
    cases len with
    | zero => exact absurd hlen (Nat.not_succ_le_zero _)
    | succ len =>
      have hrest : (p.spells us).length ≤ len := by
        simp only [List.length_cons, List.length_append] at hlen
        omega
      have htail : ∀ v ∈ us, p.IsUnit v := fun v hv => hus v (List.mem_cons_of_mem u hv)
      simp only [decodeLoop, hread, hcount, shown, ih htail hrest]
      split <;> rfl

/-- What is encoded unit by unit is decoded so. -/
theorem decode_spells (hp : p.Proper) (hq : q.Decodes p) (hus : ∀ u ∈ us, p.IsUnit u)
    (text : Bool) : q.decode text (p.spells us) = (shown text 0 us, true) :=
  decodeLoop_spells hp hq hus text le_rfl 0

/-- In binary mode every unit is written. -/
lemma shown_binary (hus : ∀ u ∈ us, p.IsUnit u) : shown false 0 us = runs us := by
  induction us with
  | nil => rfl
  | cons u us ih =>
    have hpos : 1 ≤ u.1 := (hus u List.mem_cons_self).1
    have hrpt : (if u.1 = 1 then (if (0 : ℤ) = 0 then 1 else 0) else (u.1 : ℤ)) = u.1 := by
      split
      · rename_i hone
        rw [if_pos rfl, hone]
        rfl
      · rfl
    rw [shown, hrpt, if_neg (by simp), min_eq_right (by omega), Int.toNat_natCast, runs_cons,
      ih fun v hv => hus v (List.mem_cons_of_mem u hv)]

/-- In text mode every unit but the carriage returns is written, if none of these has a count. -/
lemma shown_text (hus : ∀ u ∈ us, p.IsUnit u) (hcr : ∀ u ∈ us, u.2 = CR → u.1 = 1) {rpt : ℤ}
    (hrpt : rpt = 0 ∨ rpt = 1) : shown true rpt us = (runs us).filter (· ≠ CR) := by
  induction us generalizing rpt with
  | nil => rfl
  | cons u us ih =>
    have hpos : 1 ≤ u.1 := (hus u List.mem_cons_self).1
    have htail : ∀ v ∈ us, p.IsUnit v := fun v hv => hus v (List.mem_cons_of_mem u hv)
    have hcrtail : ∀ v ∈ us, v.2 = CR → v.1 = 1 :=
      fun v hv => hcr v (List.mem_cons_of_mem u hv)
    have hcount : (if u.1 = 1 then (if rpt = 0 then 1 else rpt) else (u.1 : ℤ)) = u.1 := by
      split
      · rename_i hone
        rw [hone]
        rcases hrpt with rfl | rfl <;> rfl
      · rfl
    rw [shown, hcount, runs_cons, List.filter_append]
    by_cases hu : u.2 = CR
    · have hone : u.1 = 1 := hcr u List.mem_cons_self hu
      rw [if_pos ⟨rfl, hu⟩, hone, Nat.cast_one, ih htail hcrtail (.inr rfl), hu]
      rfl
    · have hkept : (List.replicate u.1 u.2).filter (· ≠ CR) = List.replicate u.1 u.2 := by
        refine List.filter_eq_self.mpr fun a ha => ?_
        rw [List.eq_of_mem_replicate ha]
        exact decide_eq_true hu
      rw [if_neg fun h => hu h.2, min_eq_right (by omega), Int.toNat_natCast, hkept,
        ih htail hcrtail (.inl rfl)]

end Coding

end EspLinux.Kermit
