import EspLinux.Kermit.FileData
import EspLinux.Kermit.Packet

/-!
# The protocol parameters

Each side tells the other what it wants in the data field of its first packet (`rpar`), and takes
what the other one tells (`spar`).  The sender speaks first.  Two G-Kermits that have just been
started agree on the prefixes, on the block check and on the size of packets (`negotiates`).  On
streaming they agree only if the packets of both may be long or those of both may not: the field
that offers streaming stands behind the one for the long packets, and goes with that.
-/

namespace EspLinux.Kermit

/-- A character of a message or a name. -/
def letter (c : Char) : Byte := UInt8.ofNat c.toNat

/-- Maximum send packet size. -/
def MAXSP : ℕ := 9000

/-- Maximum receive packet size. -/
def MAXRP : ℕ := 9000

/-- The protocol parameters: those from the command line, those that are offered, and those that
have been taken from the other side. -/
@[ext]
structure Params where
  parity : Option Parity
  /-- Transfer mode manual, not automatic. -/
  manual : Bool
  text : Bool
  /-- Literal filenames. -/
  literal : Bool
  rpsiz : ℕ
  urpsiz : ℕ
  spsiz : ℕ
  timint : ℤ
  spadn : ℤ
  spadc : Byte
  seol : Byte
  /-- Block check type requested. -/
  bctr : ℕ
  /-- What the bid for the 8th-bit prefix was: none yet, unusable, `Y`, or a prefix. -/
  rqf : ℤ
  sq : Byte
  coding : Coding
  attributes : Bool
  longpackets : Bool
  streamok : ℤ

/-! ## What the other side tells -/

/-- Field number `k`, counted from one. -/
def field (data : List Byte) (k : ℕ) : Byte := data.getD (k - 1) 0

namespace Params

/-- Fields 1 to 5: packet size, timeout, padding and packet terminator. -/
def sparSizes (p : Params) (data : List Byte) : Params :=
  let s := field data
  let rln := data.length
  let x := if 1 ≤ rln then xunchar (s 1) else 80
  let timeout := if 2 ≤ rln then xunchar (s 2) else 5
  let seol : Byte := if 5 ≤ rln then s 5 - 32 else CR
  { p with
    spsiz := if x < 10 then 80 else x.toNat
    timint := if 0 < p.timint then if timeout < 0 then 5 else timeout else p.timint
    spadn := if 3 ≤ rln then xunchar (s 3) else 0
    spadc := if 4 ≤ rln then ctl (s 4) else 0
    seol := if seol < 2 ∨ 31 < seol then CR else seol }

/-- Fields 6 and 7: control prefix and 8th-bit prefix. -/
def sparPrefixes (p : Params) (data : List Byte) : Params :=
  let s := field data
  let rln := data.length
  let x := if 6 ≤ rln then s 6 else letter '#'
  let rq := if 7 ≤ rln then s 7 else 0
  let c := { p.coding with rctlq := if IsPrefix x then x else letter '#' }
  if rq = letter 'Y' then
    { p with
      rqf := 1
      coding := if p.parity.isSome then { c with ebqflg := true, ebq := letter '&' } else c }
  else if IsPrefix rq then
    -- the bid is not compared with the own one
    let agreed : Bool := c.ebq = p.sq || p.sq = letter 'Y'
    { p with
      rqf := 2
      coding := { c with ebqflg := agreed, ebq := if agreed then rq else c.ebq } }
  else { p with rqf := 0, coding := { c with ebqflg := false } }

/-- Fields 8 and 9: block check and repeat prefix. -/
def sparCheck (p : Params) (data : List Byte) : Params :=
  let s := field data
  let rln := data.length
  let x := if 8 ≤ rln then (s 8).toNat - 48 else 1
  let x := if x < 1 ∨ 3 < x then 1 else x
  { p with
    bctr := if 1 < p.bctr ∧ p.bctr ≠ x then 1 else x
    coding :=
      if 9 ≤ rln then { p.coding with rptq := s 9, rptflg := IsPrefix (s 9) }
      else { p.coding with rptflg := false } }

/-- The last one of the fields for the capabilities, which begin at field 10. -/
def lastCapas (data : List Byte) : ℕ :=
  10 + ((data.drop 9).takeWhile fun c => xunchar c % 2 = 1).length

/-- The capabilities, and the size of long packets behind them. -/
def sparLong (p : Params) (data : List Byte) : Params :=
  let s := field data
  let rln := data.length
  let k := lastCapas data
  let capas : Byte := s 10 - 32
  let p := { p with
    attributes := p.attributes || capas &&& 8 ≠ 0
    longpackets := p.longpackets || capas &&& 2 ≠ 0 }
  if k + 1 < rln ∧ p.longpackets = true then
    let x := xunchar (s (k + 2)) * 95 + xunchar (s (k + 3))
    let x : ℤ := if MAXSP < x then MAXSP else x
    { p with spsiz := if x < 10 then 80 else x.toNat }
  else p

/-- What the other Kermit is: whether it streams, and whether it is on UNIX as well. -/
def sparWhatami (p : Params) (data : List Byte) : Params :=
  let s := field data
  let rln := data.length
  let k := lastCapas data
  let whatami : Byte := s (k + 8) - 32
  let p :=
    if k + 7 < rln ∧ -1 < p.streamok ∧ whatami &&& 32 ≠ 0 ∧ whatami &&& 8 ≠ 0 then
      { p with streamok := 1 }
    else p
  let x := xunchar (s (k + 9))
  if k + 8 < rln ∧ 0 < x ∧ x < 16 ∧ k + 9 + x ≤ rln then
    let buf := ((data.drop (k + 9)).take x.toNat).takeWhile (· ≠ 0)
    if p.manual = false ∧ buf = [letter 'U', letter '1'] then
      { p with text := false, literal := true }
    else p
  else p

/-- Set protocol parameters. -/
def spar (p : Params) (data : List Byte) : Params :=
  let p := ((p.sparSizes data).sparPrefixes data).sparCheck data
  if 10 ≤ data.length then (p.sparLong data).sparWhatami data else p

/-! ## What is told -/

/-- The offer of an 8th-bit prefix, which is made on a line with parity. -/
def bid (p : Params) : Params :=
  if (p.rqf = -1 ∨ p.rqf = 1) ∧ p.parity.isSome = true then
    { p with sq := letter '&', coding := { p.coding with ebq := letter '&' } }
  else p

/-- The data field with the own parameters: it ends before the size of long packets where that is
left out. -/
def told (p : Params) : List Byte :=
  let whatami := 32 + (if p.literal then 4 else 0) + (if p.text then 0 else 2) +
    if -1 < p.streamok then 8 else 0
  [tochar (min p.rpsiz 94), tochar 7, tochar 0, ctl 0, tochar 13, letter '#', p.sq,
    UInt8.ofNat (p.bctr + 48), if p.coding.rptflg then p.coding.rptq else letter '~', tochar 10,
    tochar 1] ++
  if 94 < p.urpsiz then
    [tochar (p.urpsiz / 95), tochar (p.urpsiz % 95), letter '0', letter '+', letter '+', letter '+',
      tochar whatami, tochar 2, letter 'U', letter '1', tochar (32 + if p.manual then 1 else 0)]
  else []

/-- Send our protocol parameters. -/
def rpar (p : Params) : List Byte × Params := (p.bid.told, p.bid)

end Params

/-- The command line, as far as it sets parameters. -/
structure Options where
  parity : Option Parity
  manual : Bool
  text : Bool
  literal : Bool
  urpsiz : ℕ
  timint : ℕ
  streaming : Bool
  /-- Other lengths are refused. -/
  urpsiz_range : 40 ≤ urpsiz ∧ urpsiz ≤ MAXRP
  /-- The option for text sets the manual mode as well. -/
  manual_of_text : text = true → manual = true

/-- The parameters at the start. -/
def Options.params (o : Options) : Params where
  parity := o.parity
  manual := o.manual
  text := o.text
  literal := o.literal
  rpsiz := min o.urpsiz 94
  urpsiz := o.urpsiz
  spsiz := 90
  timint := o.timint
  spadn := 0
  spadc := 0
  seol := CR
  bctr := 3
  rqf := -1
  sq := letter 'Y'
  coding := ⟨letter '#', letter '#', false, letter '&', false, letter '~'⟩
  attributes := false
  longpackets := false
  streamok := if o.streaming then 0 else -1

/-! ## Taking what a G-Kermit tells -/

namespace Params

/-- A G-Kermit that tells its parameters. -/
structure Tells (r : Params) : Prop where
  rpsiz : 10 ≤ min r.rpsiz 94
  urpsiz : r.urpsiz ≤ MAXRP
  sq : r.sq = letter 'Y' ∨ r.sq = letter '&'
  bctr : r.bctr = 3
  rptq : r.coding.rptflg = true → r.coding.rptq = letter '~'

section Told

variable {p r : Params}

lemma length_told : r.told.length = if 94 < r.urpsiz then 22 else 11 := by
  rw [told, List.length_append]
  by_cases h : 94 < r.urpsiz
  · rw [if_pos h, if_pos h]
    rfl
  · rw [if_neg h, if_neg h]
    rfl

lemma length_told_ge : 11 ≤ r.told.length := by
  rw [length_told]
  split <;> omega

/-- The fields that are always there. -/
lemma field_told {k : ℕ} (hk : k - 1 < 11) :
    field r.told k = [tochar (min r.rpsiz 94), tochar 7, tochar 0, ctl 0, tochar 13, letter '#',
      r.sq, UInt8.ofNat (r.bctr + 48),
      if r.coding.rptflg then r.coding.rptq else letter '~', tochar 10, tochar 1].getD (k - 1) 0 := by
  rw [field, told, List.getD_append _ _ _ _ (by simpa using hk)]

/-- The fields that are there when the packets may be long. -/
lemma field_told_long (h : 94 < r.urpsiz) (k : ℕ) :
    field r.told (k + 12) = [tochar (r.urpsiz / 95), tochar (r.urpsiz % 95), letter '0', letter '+',
      letter '+', letter '+', tochar (32 + (if r.literal then 4 else 0) + (if r.text then 0 else 2) +
      if -1 < r.streamok then 8 else 0), tochar 2, letter 'U', letter '1',
      tochar (32 + if r.manual then 1 else 0)].getD k 0 := by
  rw [field, told, if_pos h, List.getD_append_right _ _ _ _ (by simp)]
  simp

lemma sparSizes_told (hr : r.Tells) : p.sparSizes r.told = { p with
    spsiz := min r.rpsiz 94
    timint := if 0 < p.timint then 7 else p.timint
    spadn := 0
    spadc := 0
    seol := CR } := by
  have hlen := length_told_ge (r := r)
  have hsize : xunchar (tochar (min r.rpsiz 94)) = (min r.rpsiz 94 : ℕ) :=
    Coding.xunchar_tochar (Nat.min_le_right _ _)
  have hge : ¬ ((min r.rpsiz 94 : ℕ) : ℤ) < 10 := by
    have := hr.rpsiz
    omega
  have htime : xunchar (tochar 7) = 7 := rfl
  have hpad : xunchar (tochar 0) = 0 := rfl
  have hctl : ctl (ctl 0) = 0 := rfl
  have hseol : (if (tochar 13 - 32 : Byte) < 2 ∨ 31 < (tochar 13 - 32 : Byte) then CR
      else tochar 13 - 32) = CR := rfl
  simp only [sparSizes, field_told (show 1 - 1 < 11 by decide),
    field_told (show 2 - 1 < 11 by decide), field_told (show 3 - 1 < 11 by decide),
    field_told (show 4 - 1 < 11 by decide), field_told (show 5 - 1 < 11 by decide)]
  simp only [List.getD_cons_zero, List.getD_cons_succ, Nat.reduceSub, if_pos (show 1 ≤ r.told.length by omega),
    if_pos (show 2 ≤ r.told.length by omega), if_pos (show 3 ≤ r.told.length by omega),
    if_pos (show 4 ≤ r.told.length by omega), if_pos (show 5 ≤ r.told.length by omega),
    hsize, hge, htime, hpad, hctl, hseol, if_false, Int.toNat_natCast]
  rfl

lemma sparPrefixes_told (hr : r.Tells) : p.sparPrefixes r.told = { p with
    rqf := if r.sq = letter 'Y' then 1 else 2
    coding := { p.coding with
      rctlq := letter '#'
      ebqflg :=
        if r.sq = letter 'Y' then p.coding.ebqflg || p.parity.isSome
        else p.coding.ebq = p.sq || p.sq = letter 'Y'
      ebq :=
        if r.sq = letter 'Y' then if p.parity.isSome then letter '&' else p.coding.ebq
        else if p.coding.ebq = p.sq ∨ p.sq = letter 'Y' then letter '&' else p.coding.ebq } } := by
  have hlen := length_told_ge (r := r)
  have hctl : (if IsPrefix (letter '#') then letter '#' else letter '#') = letter '#' := ite_self _
  simp only [sparPrefixes, field_told (show 6 - 1 < 11 by decide),
    field_told (show 7 - 1 < 11 by decide)]
  simp only [List.getD_cons_zero, List.getD_cons_succ, Nat.reduceSub,
    if_pos (show 6 ≤ r.told.length by omega), if_pos (show 7 ≤ r.told.length by omega), hctl]
  rcases hr.sq with hsq | hsq
  · rw [hsq, if_pos rfl, if_pos rfl, if_pos rfl, if_pos rfl]
    cases p.parity.isSome <;> simp
  · have hne : letter '&' ≠ letter 'Y' := by decide
    have hprefix : IsPrefix (letter '&') := by decide
    simp [hsq, hne, hprefix]

lemma sparCheck_told (hr : r.Tells) (hp : p.bctr = 3) : p.sparCheck r.told = { p with
    coding := { p.coding with rptq := letter '~', rptflg := true } } := by
  have hlen := length_told_ge (r := r)
  have hrptq : (if r.coding.rptflg then r.coding.rptq else letter '~') = letter '~' := by
    by_cases h : r.coding.rptflg = true
    · rw [if_pos h, hr.rptq h]
    · rw [if_neg h]
  simp only [sparCheck, field_told (show 8 - 1 < 11 by decide),
    field_told (show 9 - 1 < 11 by decide)]
  simp only [List.getD_cons_zero, List.getD_cons_succ, Nat.reduceSub,
    if_pos (show 8 ≤ r.told.length by omega), if_pos (show 9 ≤ r.told.length by omega), hrptq,
    hr.bctr, hp]
  rfl

lemma lastCapas_told : lastCapas r.told = 10 := by
  rw [lastCapas, told]
  rfl

lemma sparLong_told (hr : r.Tells) : p.sparLong r.told = { p with
    attributes := true
    longpackets := true
    spsiz := if 94 < r.urpsiz then r.urpsiz else p.spsiz } := by
  have hattr : (p.attributes || (tochar 10 - 32 : Byte) &&& 8 ≠ 0) = true := by
    rw [Bool.or_eq_true]
    exact .inr (by decide)
  have hlong : (p.longpackets || (tochar 10 - 32 : Byte) &&& 2 ≠ 0) = true := by
    rw [Bool.or_eq_true]
    exact .inr (by decide)
  simp only [sparLong, lastCapas_told, field_told (show 10 - 1 < 11 by decide)]
  simp only [List.getD_cons_zero, List.getD_cons_succ, Nat.reduceSub, hattr, hlong, length_told]
  by_cases h : 94 < r.urpsiz
  · have hmax := hr.urpsiz
    rw [MAXRP] at hmax
    have hhigh : xunchar (tochar (r.urpsiz / 95)) = (r.urpsiz / 95 : ℕ) :=
      Coding.xunchar_tochar (by omega)
    have hlow : xunchar (tochar (r.urpsiz % 95)) = (r.urpsiz % 95 : ℕ) :=
      Coding.xunchar_tochar (by omega)
    have hsize : ((r.urpsiz / 95 : ℕ) : ℤ) * 95 + (r.urpsiz % 95 : ℕ) = r.urpsiz := by
      have := Nat.div_add_mod r.urpsiz 95
      omega
    have htop : ¬ (MAXSP : ℤ) < r.urpsiz := by
      rw [MAXSP]
      omega
    have hten : ¬ (r.urpsiz : ℤ) < 10 := by omega
    simp only [h, if_true, field_told_long h 0, field_told_long h 1, List.getD_cons_zero,
      List.getD_cons_succ, hhigh, hlow, hsize, htop, hten, if_false, Int.toNat_natCast]
    rfl
  · simp only [h, if_false]
    rfl

/-- The flags of `WHATAMI`. -/
lemma whatami_flags (literal text stream : Prop) [Decidable literal] [Decidable text]
    [Decidable stream] :
    let w : Byte := tochar (32 + (if literal then 4 else 0) + (if text then 0 else 2) +
      if stream then 8 else 0) - 32
    w &&& 32 ≠ 0 ∧ (w &&& 8 ≠ 0 ↔ stream) := by
  by_cases hliteral : literal <;> by_cases htext : text <;> by_cases hstream : stream <;>
    simp only [hliteral, htext, hstream, if_true, if_false] <;> decide

lemma sparWhatami_told : p.sparWhatami r.told = { p with
    streamok := if 94 < r.urpsiz ∧ -1 < p.streamok ∧ -1 < r.streamok then 1 else p.streamok
    text := p.text && (p.manual || r.urpsiz ≤ 94)
    literal := p.literal || (!p.manual && 94 < r.urpsiz) } := by
  by_cases h : 94 < r.urpsiz
  · obtain ⟨w, hw, hflag, hstream⟩ : ∃ w : Byte, field r.told (10 + 8) - 32 = w ∧ w &&& 32 ≠ 0 ∧
        (w &&& 8 ≠ 0 ↔ -1 < r.streamok) := by
      refine ⟨_, rfl, ?_⟩
      rw [show 10 + 8 = 6 + 12 from rfl, field_told_long h 6]
      exact whatami_flags (r.literal = true) (r.text = true) (-1 < r.streamok)
    have hlen : r.told.length = 22 := by rw [length_told, if_pos h]
    have hsystem : ((r.told.drop (10 + 9)).take (xunchar (tochar 2)).toNat).takeWhile (· ≠ 0) =
        [letter 'U', letter '1'] := by
      rw [told, if_pos h]
      rfl
    have htwo : xunchar (tochar 2) = 2 := rfl
    simp only [sparWhatami, lastCapas_told, hw, field_told_long h 7, hlen]
    simp only [List.getD_cons_zero, List.getD_cons_succ, hsystem]
    by_cases hok : -1 < p.streamok ∧ -1 < r.streamok
    · cases hmanual : p.manual <;> simp [hok, h, not_le.mpr h, htwo, hflag, hstream]
    · cases hmanual : p.manual
      · simp [hmanual, hok, h, not_le.mpr h, htwo, hflag, hstream]
      · simp [hmanual, hok, h, htwo, hflag, hstream]
        rw [← hmanual]
  · have hlen : r.told.length = 11 := by rw [length_told, if_neg h]
    simp only [sparWhatami, lastCapas_told, hlen, h, false_and, if_false]
    simp [not_lt.mp h]

/-- What becomes of the parameters. -/
lemma spar_told (hr : r.Tells) (hp : p.bctr = 3) : p.spar r.told = { p with
    spsiz := if 94 < r.urpsiz then r.urpsiz else min r.rpsiz 94
    timint := if 0 < p.timint then 7 else p.timint
    spadn := 0
    spadc := 0
    seol := CR
    rqf := if r.sq = letter 'Y' then 1 else 2
    coding := { p.coding with
      rctlq := letter '#'
      ebqflg :=
        if r.sq = letter 'Y' then p.coding.ebqflg || p.parity.isSome
        else p.coding.ebq = p.sq || p.sq = letter 'Y'
      ebq :=
        if r.sq = letter 'Y' then if p.parity.isSome then letter '&' else p.coding.ebq
        else if p.coding.ebq = p.sq ∨ p.sq = letter 'Y' then letter '&' else p.coding.ebq
      rptq := letter '~'
      rptflg := true }
    attributes := true
    longpackets := true
    streamok := if 94 < r.urpsiz ∧ -1 < p.streamok ∧ -1 < r.streamok then 1 else p.streamok
    text := p.text && (p.manual || r.urpsiz ≤ 94)
    literal := p.literal || (!p.manual && 94 < r.urpsiz) } := by
  have hten : 10 ≤ r.told.length := by
    have := length_told_ge (r := r)
    omega
  have hcheck : ((p.sparSizes r.told).sparPrefixes r.told).bctr = 3 := by
    rw [sparSizes_told hr, sparPrefixes_told hr]
    exact hp
  rw [spar, if_pos hten, sparCheck_told hr hcheck, sparPrefixes_told hr, sparSizes_told hr,
    sparLong_told hr, sparWhatami_told]

end Told

/-- How the packets go over the line. -/
def line (p : Params) (bctu : ℕ) : Line := ⟨p.parity, bctu, p.spadn.toNat, p.spadc, p.seol⟩

end Params

/-! ## Two that have just been started -/

lemma Options.bid_params (a : Options) : a.params.bid = { a.params with
    sq := if a.parity.isSome then letter '&' else letter 'Y' } := by
  cases hparity : a.parity <;> simp [Params.bid, Options.params, hparity]

lemma Options.tells_bid (a : Options) : a.params.bid.Tells := by
  have hrange := a.urpsiz_range
  rw [a.bid_params]
  refine ⟨?_, hrange.2, ?_, rfl, fun h => absurd h (by simp [Options.params])⟩
  · show 10 ≤ min (min a.urpsiz 94) 94
    omega
  · show (if a.parity.isSome then letter '&' else letter 'Y') = letter 'Y' ∨ _
    split <;> simp

lemma Options.lt_streamok (a : Options) : -1 < a.params.streamok ↔ a.streaming = true := by
  cases h : a.streaming <;> simp [Options.params, h]

/-- The parameters of the sender `a` and of the receiver `b` once each has told the other. -/
def negotiated (a b : Options) : Params × Params :=
  let offer := a.params.rpar
  let answer := (b.params.spar offer.1).rpar
  (offer.2.spar answer.1, answer.2)

/-- The prefixes of both sides. -/
def agreedCoding (eighth : Bool) : Coding :=
  ⟨letter '#', letter '#', eighth, letter '&', true, letter '~'⟩

lemma proper_agreedCoding (eighth : Bool) : (agreedCoding eighth).Proper := by
  cases eighth <;> exact ⟨by decide, by decide, by decide, by decide, by decide, by decide⟩

lemma decodes_agreedCoding (eighth : Bool) : (agreedCoding eighth).Decodes (agreedCoding eighth) :=
  ⟨rfl, rfl, fun _ => rfl, rfl, fun _ => rfl⟩

/-- What a sender and a receiver have agreed on. -/
structure Agreed (a b : Options) (p q : Params) : Prop where
  proper : p.coding.Proper
  decodes : q.coding.Decodes p.coding
  ebqflg : p.coding.ebqflg = (a.parity.isSome || b.parity.isSome)
  bctr : p.bctr = 3 ∧ q.bctr = 3
  attributes : p.attributes = true
  spsiz : p.spsiz = b.urpsiz
  works : (p.line 3).Works ∧ (q.line 3).Works
  sends : 0 < p.streamok ↔ a.streaming = true ∧ b.streaming = true ∧ 94 < b.urpsiz
  takes : 0 < q.streamok ↔ a.streaming = true ∧ b.streaming = true ∧ 94 < a.urpsiz
  text : p.text = a.text
  literal : p.literal = (a.literal || (!a.manual && 94 < b.urpsiz))

section Negotiated

variable (a b : Options)

/-- What the receiver has taken. -/
def taken : Params := b.params.spar a.params.bid.told

lemma taken_eq : taken a b = { b.params with
    spsiz := a.urpsiz
    timint := if 0 < b.params.timint then 7 else b.params.timint
    rqf := if a.parity.isSome then 2 else 1
    coding := agreedCoding (a.parity.isSome || b.parity.isSome)
    attributes := true
    longpackets := true
    streamok := if 94 < a.urpsiz ∧ a.streaming ∧ b.streaming then 1 else b.params.streamok
    text := b.text && (b.manual || a.urpsiz ≤ 94)
    literal := b.literal || (!b.manual && 94 < a.urpsiz) } := by
  have hsize : (if 94 < a.urpsiz then a.urpsiz else min (min a.urpsiz 94) 94) = a.urpsiz := by
    split <;> omega
  have hstream : (94 < a.urpsiz ∧ -1 < b.params.streamok ∧ -1 < a.params.streamok) ↔
      (94 < a.urpsiz ∧ a.streaming = true ∧ b.streaming = true) := by
    rw [Options.lt_streamok, Options.lt_streamok]
    tauto
  rw [taken, Params.spar_told a.tells_bid rfl, a.bid_params]
  refine Params.ext rfl rfl rfl rfl rfl rfl hsize rfl rfl rfl rfl rfl ?_ rfl ?_ rfl rfl
    (if_congr hstream rfl rfl)
  · show (if (if a.parity.isSome then letter '&' else letter 'Y') = letter 'Y' then 1 else 2) =
      if a.parity.isSome then (2 : ℤ) else 1
    cases a.parity.isSome <;> rfl
  · have hcoding : b.params.coding = ⟨letter '#', letter '#', false, letter '&', false, letter '~'⟩ :=
      rfl
    have hparity : b.params.parity = b.parity := rfl
    have hsq : b.params.sq = letter 'Y' := rfl
    simp only [hcoding, hparity, hsq]
    cases a.parity.isSome <;> cases b.parity.isSome <;> rfl

lemma bid_taken : (taken a b).bid = { taken a b with
    sq := if a.parity.isSome = false ∧ b.parity.isSome = true then letter '&' else letter 'Y' } := by
  rw [taken_eq, Params.bid]
  have hsq : b.params.sq = letter 'Y' := rfl
  have hparity : b.params.parity = b.parity := rfl
  cases ha : a.parity.isSome <;> cases hb : b.parity.isSome <;> simp [hsq, hparity, hb, agreedCoding]

lemma tells_taken : (taken a b).bid.Tells := by
  have hrange := b.urpsiz_range
  rw [bid_taken, taken_eq]
  refine ⟨?_, hrange.2, ?_, rfl, fun _ => rfl⟩
  · show 10 ≤ min (min b.urpsiz 94) 94
    omega
  · show (if _ then letter '&' else letter 'Y') = letter 'Y' ∨ _
    split <;> simp

/-- What the sender takes of an answer. -/
lemma spar_bid {q : Params} (hq : q.Tells) (hurpsiz : q.urpsiz = b.urpsiz)
    (hrpsiz : q.rpsiz = min b.urpsiz 94)
    (hsq : q.sq =
      if a.parity.isSome = false ∧ b.parity.isSome = true then letter '&' else letter 'Y')
    (hstream : -1 < q.streamok ↔ b.streaming = true) :
    a.params.bid.spar q.told = { a.params with
      spsiz := b.urpsiz
      timint := if 0 < a.params.timint then 7 else a.params.timint
      rqf := if a.parity.isSome = false ∧ b.parity.isSome = true then 2 else 1
      sq := if a.parity.isSome then letter '&' else letter 'Y'
      coding := agreedCoding (a.parity.isSome || b.parity.isSome)
      attributes := true
      longpackets := true
      streamok := if 94 < b.urpsiz ∧ a.streaming ∧ b.streaming then 1 else a.params.streamok
      text := a.text && (a.manual || b.urpsiz ≤ 94)
      literal := a.literal || (!a.manual && 94 < b.urpsiz) } := by
  have hbctr : a.params.bid.bctr = 3 := by
    rw [a.bid_params]
    rfl
  have hsize : (if 94 < b.urpsiz then b.urpsiz else min (min b.urpsiz 94) 94) = b.urpsiz := by
    split <;> omega
  have hboth : (94 < b.urpsiz ∧ -1 < a.params.streamok ∧ -1 < q.streamok) ↔
      (94 < b.urpsiz ∧ a.streaming = true ∧ b.streaming = true) := by
    rw [a.lt_streamok, hstream]
  rw [Params.spar_told hq hbctr, hurpsiz, hrpsiz, hsq, hsize, a.bid_params]
  refine Params.ext rfl rfl rfl rfl rfl rfl rfl rfl rfl rfl rfl rfl ?_ rfl ?_ rfl rfl
    (if_congr hboth rfl rfl)
  · show (if (if _ then letter '&' else letter 'Y') = letter 'Y' then (1 : ℤ) else 2) = _
    cases a.parity.isSome <;> cases b.parity.isSome <;> rfl
  · have hcoding : a.params.coding = ⟨letter '#', letter '#', false, letter '&', false, letter '~'⟩ :=
      rfl
    have hparity : a.params.parity = a.parity := rfl
    simp only [hcoding, hparity]
    cases a.parity.isSome <;> cases b.parity.isSome <;> rfl

lemma negotiated_eq : negotiated a b = (a.params.bid.spar (taken a b).bid.told, (taken a b).bid) :=
  rfl

/-- What the sender has taken. -/
lemma settled_eq : (negotiated a b).1 = { a.params with
    spsiz := b.urpsiz
    timint := if 0 < a.params.timint then 7 else a.params.timint
    rqf := if a.parity.isSome = false ∧ b.parity.isSome = true then 2 else 1
    sq := if a.parity.isSome then letter '&' else letter 'Y'
    coding := agreedCoding (a.parity.isSome || b.parity.isSome)
    attributes := true
    longpackets := true
    streamok := if 94 < b.urpsiz ∧ a.streaming ∧ b.streaming then 1 else a.params.streamok
    text := a.text && (a.manual || b.urpsiz ≤ 94)
    literal := a.literal || (!a.manual && 94 < b.urpsiz) } := by
  have hstream : (taken a b).bid.streamok =
      if 94 < a.urpsiz ∧ a.streaming ∧ b.streaming then 1 else b.params.streamok := by
    rw [bid_taken, taken_eq]
  rw [negotiated_eq]
  refine spar_bid a b (tells_taken a b) ?_ ?_ ?_ ?_
  · rw [bid_taken, taken_eq]
    rfl
  · rw [bid_taken, taken_eq]
    rfl
  · rw [bid_taken]
  · rw [hstream]
    by_cases hboth : 94 < a.urpsiz ∧ a.streaming = true ∧ b.streaming = true
    · rw [if_pos hboth]
      simp [hboth.2]
    · rw [if_neg hboth, b.lt_streamok]

lemma streamok_pos {o : Options} {c : Prop} [Decidable c] :
    0 < (if c then 1 else o.params.streamok) ↔ c := by
  have hstart : o.params.streamok ≤ 0 := by
    cases h : o.streaming <;> simp [Options.params, h]
  by_cases h : c <;> simp [h, hstart]

set_option maxRecDepth 2000 in
lemma noise_seol (parity : Option Parity) : Line.Noise parity [dopar parity CR] := by
  rcases parity with _ | _ | _ | _ | _ <;> decide

lemma works_line {p : Params} (hspadn : p.spadn = 0) (hseol : p.seol = CR) : (p.line 3).Works where
  bctu := ⟨show 1 ≤ 3 by decide, show 3 ≤ 3 by decide⟩
  padding := .inr (by rw [Params.line, hspadn]; rfl)
  spadc := fun h => absurd (by rw [Params.line, hspadn]; rfl) h
  seol := by
    rw [Params.line, hseol]
    exact noise_seol p.parity

/-- A sender and a receiver that have just been started come to an agreement: the receiver reads
the prefixes that the sender writes, both use the CRC, and packets are as long as the receiver
takes them.  But the sender streams only if the packets of the receiver may be long, and the
receiver takes a stream only if those of the sender may be. -/
theorem negotiates : Agreed a b (negotiated a b).1 (negotiated a b).2 := by
  have htaken : (negotiated a b).2 = (taken a b).bid := rfl
  have htext : (a.text && (a.manual || decide (b.urpsiz ≤ 94))) = a.text := by
    cases h : a.text with
    | false => rfl
    | true => rw [a.manual_of_text h]; rfl
  rw [htaken, settled_eq, bid_taken, taken_eq]
  refine ⟨proper_agreedCoding _, decodes_agreedCoding _, rfl, ⟨rfl, rfl⟩, rfl, rfl,
    ⟨works_line rfl rfl, works_line rfl rfl⟩, ?_, ?_, htext, rfl⟩
  · rw [streamok_pos]
    tauto
  · rw [streamok_pos]
    tauto

end Negotiated

end EspLinux.Kermit
