import EspLinux.Kermit.Data

/-!
# Packets on the line

A packet is written as mark, length, sequence number, type, data and block check; a long one has a
longer header with a check of its own.  `ttinl` finds a packet in what comes in, by the mark and by
the length, and `rpacket` takes it apart.  What has been sent is read as it was sent, whatever
stands before it (`receives_packets`), but not with the 12-bit checksum when the sum takes more
than twelve bits.
-/

namespace EspLinux.Kermit

/-! ## Parity -/

inductive Parity
  | mark
  | space
  | odd
  | even
deriving DecidableEq

/-- What `dopar` makes of a character. -/
def dopar (xparity : Option Parity) (ch : Byte) : Byte :=
  match xparity with
  | none => ch
  | some xparity =>
    let ch : Byte := ch &&& 127
    let a : Byte := (ch &&& (15 : Byte)) ^^^ ((ch >>> 4) &&& (15 : Byte))
    let a : Byte := (a &&& (3 : Byte)) ^^^ ((a >>> 2) &&& (3 : Byte))
    let a : Byte := (a &&& (1 : Byte)) ^^^ ((a >>> 1) &&& (1 : Byte))
    match xparity with
    | .mark => ch ||| 128
    | .space => ch &&& 127
    | .odd => ch ||| ((1 - a) <<< 7)
    | .even => ch ||| (a <<< 7)

/-- Without its parity. -/
def strip (xparity : Option Parity) (c : Byte) : Byte := if xparity.isSome then c &&& 127 else c

/-! ## Block checks -/

/-- Arithmetic checksum. -/
def chksum (parity : Option Parity) (p : List Byte) : ℕ :=
  (p.map fun c => (c &&& if parity.isSome then 127 else 255).toNat).sum

/-- Type 1 block check. -/
def chk1 (parity : Option Parity) (packet : List Byte) : ℕ :=
  let x := chksum parity packet
  (((x &&& 192) >>> 6) + x) &&& 63

/-- Half a step of the CRC generator: four bits. -/
def crcHalf (crc c : ℕ) : ℕ :=
  let q := (crc ^^^ c) &&& 15
  (crc >>> 4) ^^^ (q * 0o10201)

def crcStep (parity : Option Parity) (crc : ℕ) (s : Byte) : ℕ :=
  let c := (if parity.isSome then s &&& 127 else s).toNat
  crcHalf (crcHalf crc c) (c >>> 4)

/-- Tableless 16-bit CRC generator. -/
def chk3 (parity : Option Parity) (s : List Byte) : ℕ :=
  (s.foldl (crcStep parity) 0) &&& 0xffff

/-! ## Sending -/

/-- `smark`, `rmark` -/
def SOH : Byte := 1

/-- How packets go over the line. -/
structure Line where
  parity : Option Parity
  /-- Block check type used. -/
  bctu : ℕ
  spadn : ℕ
  spadc : Byte
  seol : Byte

/-- Type, number and data of a packet. -/
structure Packet where
  type : Byte
  seq : ℤ
  data : List Byte
deriving DecidableEq

namespace Line

/-- The packet from its length field on, less the block check. -/
def content (l : Line) (type : Byte) (n : ℕ) (d : List Byte) : List Byte :=
  let j := d.length + l.bctu
  if 94 < d.length + l.bctu + 2 then
    let header := [tochar 0, tochar n, type, tochar (j / 95), tochar (j % 95)]
    header ++ [tochar (chk1 l.parity header)] ++ d
  else [tochar (j + 2), tochar n, type] ++ d

/-- The block check.  Types 2 and 3 are computed from the second character of the buffer on, where
the length field stands if there is no padding. -/
def check (l : Line) (pad content : List Byte) : List Byte :=
  let second := ((pad ++ SOH :: content).drop 1).take content.length
  match l.bctu with
  | 1 => [tochar (chk1 l.parity content)]
  | 2 =>
    let j := chksum l.parity second
    [tochar ((j >>> 6) &&& 63), tochar (j &&& 63)]
  | 3 =>
    let j := chk3 l.parity second
    [tochar ((j >>> 12) &&& 15), tochar ((j >>> 6) &&& 63), tochar (j &&& 63)]
  | _ => []

/-- Frame a packet. -/
def spacket (l : Line) (type : Byte) (n : ℕ) (d : List Byte) : List Byte :=
  let pad := List.replicate l.spadn l.spadc
  let content := l.content type n d
  pad ++ SOH :: content ++ l.check pad content ++ [l.seol]

/-- What goes over the line. -/
def ttol (l : Line) (s : List Byte) : List Byte := s.map (dopar l.parity)

end Line

/-! ## Receiving -/

/-- The variables of `ttinl`. -/
structure Reading where
  dest : List Byte
  ccn : ℕ
  havelen : Bool
  pktlen : ℤ
  lplen : ℤ

/-- What comes of reading a raw packet. -/
inductive Raw
  /-- The packet, and what is left of the input. -/
  | packet (p : List Byte) (rest : List Byte)
  /-- The input ends before the packet does. -/
  | waiting
  | overflow
  /-- Three times `^C`. -/
  | interrupted
deriving DecidableEq

namespace Reading

/-- Nothing has been read. -/
def begin : Reading := ⟨[], 0, false, 0, 0⟩

/-- The length field is used for framing. -/
def measure (r : Reading) : Reading :=
  if r.havelen then r
  else if r.dest.length = 2 then
    let pktlen := xunchar (r.dest.getD 1 0 &&& 127)
    { r with pktlen, havelen := 1 < pktlen }
  else if r.dest.length = 5 ∧ r.pktlen = 0 then
    { r with lplen := xunchar (r.dest.getD 4 0 &&& 127) }
  else if r.dest.length = 6 ∧ r.pktlen = 0 then
    { r with
      pktlen := r.lplen * 95 + xunchar (r.dest.getD 5 0 &&& 127) + 5
      havelen := true }
  else r

end Reading

/-- Read a raw packet of `max` characters at most. -/
def ttinl (xparity : Option Parity) (max : ℕ) (r : Reading) : List Byte → Raw
  | [] => .waiting
  | c :: input =>
    let c := strip xparity c
    let ccn := if c = 3 then r.ccn + 1 else 0
    if 2 < ccn then .interrupted
    else if r.dest = [] ∧ c ≠ SOH then ttinl xparity max { r with ccn } input
    else if max ≤ r.dest.length then .overflow
    else
      let r := { r with dest := r.dest ++ [c], ccn }.measure
      if r.havelen ∧ r.pktlen + 1 < (r.dest.length : ℤ) then .packet r.dest input
      else ttinl xparity max r input

namespace Line

/-- `(unsigned) xunchar(c)` -/
def word (c : Byte) : BitVec 32 := BitVec.ofInt 32 (xunchar c)

/-- The block check `pbc` as a number. -/
def given (l : Line) (pbc : List Byte) : BitVec 32 :=
  match l.bctu with
  | 1 => word (pbc.getD 0 0)
  | 2 => word (pbc.getD 0 0) <<< 6 ||| word (pbc.getD 1 0)
  | _ => (word (pbc.getD 0 0) <<< 12 ||| word (pbc.getD 1 0) <<< 6 ||| word (pbc.getD 2 0)) &&&
      0xffff

/-- The block check that a packet should have. -/
def computed (l : Line) (s : List Byte) : ℕ :=
  match l.bctu with
  | 1 => chk1 l.parity s
  | 2 => chksum l.parity s
  | _ => chk3 l.parity s

/-- The packet with `rln` characters of data from position `i` on. -/
def checked (l : Line) (p : List Byte) (i : ℕ) (rln : ℤ) : Option Packet :=
  let j : ℕ := (rln + (i : ℤ)).toNat
  let pbc := (p.drop j).take l.bctu
  if l.given pbc = BitVec.ofNat 32 (l.computed ((p.drop 1).take (j - 1))) then
    some ⟨p.getD 3 0, xunchar (p.getD 2 0), (p.drop i).take rln.toNat⟩
  else none

/-- Read a packet: `none` stands for the answer `Q`. -/
def rpacket (l : Line) (p : List Byte) : Option Packet :=
  if p.length < 5 then none
  else
    let len := xunchar (p.getD 1 0)
    if len = 0 then
      if p.length < 6 then none
      else if word (p.getD 6 0) ≠ BitVec.ofNat 32 (chk1 l.parity ((p.drop 1).take 5)) then none
      else l.checked p 7 (xunchar (p.getD 4 0) * 95 + xunchar (p.getD 5 0) - l.bctu)
    else if len < 3 then none
    else l.checked p 4 (len - l.bctu - 2)

end Line

/-! ## What goes over the line -/

/-- A character that is no control character, and that parity leaves as it is. -/
def Clear (xparity : Option Parity) (c : Byte) : Prop :=
  32 ≤ c &&& 127 ∧ (xparity.isSome = true → c < 128)

section Characters

variable {xparity : Option Parity} {c : Byte}

lemma strip_dopar (h : xparity.isSome = true → c < 128) : strip xparity (dopar xparity c) = c := by
  rcases xparity with _ | parity
  · rfl
  · have hlow : c < 128 := h rfl
    clear h
    cases parity <;> revert c <;> decide +kernel

lemma Clear.strip_dopar (h : Clear xparity c) : strip xparity (dopar xparity c) = c :=
  Kermit.strip_dopar h.2

lemma Clear.ne_break (h : Clear xparity c) : c ≠ 3 := by
  rintro rfl
  exact absurd h.1 (by decide)

lemma toNat_tochar {n : ℕ} (h : n ≤ 94) : (tochar n).toNat = n + 32 := by
  rw [tochar, UInt8.toNat_ofNat', Nat.mod_eq_of_lt (by omega)]

lemma tochar_lt {n : ℕ} (h : n ≤ 94) : tochar n < 128 := by
  rw [UInt8.lt_iff_toNat_lt, toNat_tochar h]
  exact Nat.lt_of_le_of_lt (Nat.add_le_add_right h 32) (by decide)

lemma and_127_of_lt (h : c < 128) : c &&& 127 = c := by
  rw [← UInt8.toNat_inj, UInt8.toNat_and]
  exact (Nat.and_two_pow_sub_one_eq_mod c.toNat 7).trans (Nat.mod_eq_of_lt h)

lemma clear_tochar {n : ℕ} (h : n ≤ 94) : Clear xparity (tochar n) := by
  refine ⟨?_, fun _ => tochar_lt h⟩
  rw [and_127_of_lt (tochar_lt h), UInt8.le_iff_toNat_le, toNat_tochar h]
  exact Nat.le_add_left 32 n

lemma xunchar_masked {n : ℕ} (h : n ≤ 94) : xunchar (tochar n &&& 127) = n := by
  rw [and_127_of_lt (tochar_lt h), Coding.xunchar_tochar h]

end Characters

/-! ### Reading a raw packet -/

section Raw

variable {xparity : Option Parity} {max : ℕ} {r : Reading} {c : Byte} {input : List Byte}

/-- Inside a packet every character is stored. -/
lemma ttinl_clear (hc : Clear xparity c) (hdest : r.dest ≠ []) (hroom : r.dest.length < max) :
    ttinl xparity max r (dopar xparity c :: input) =
      let r := { r with dest := r.dest ++ [c], ccn := 0 }.measure
      if r.havelen ∧ r.pktlen + 1 < (r.dest.length : ℤ) then .packet r.dest input
      else ttinl xparity max r input := by
  rw [ttinl]
  simp only [hc.strip_dopar, if_neg hc.ne_break, hdest, false_and, if_false,
    if_neg (Nat.not_le_of_lt hroom), if_neg (show ¬ 2 < 0 by decide)]

/-- When the length is known, that many characters are read. -/
lemma ttinl_body {body rest : List Byte} (hbody : ∀ c ∈ body, Clear xparity c) (hne : body ≠ [])
    (hdest : r.dest ≠ []) (hhave : r.havelen = true)
    (hlen : ((r.dest.length + body.length : ℕ) : ℤ) = r.pktlen + 2)
    (hroom : r.dest.length + body.length ≤ max) :
    ttinl xparity max r (body.map (dopar xparity) ++ rest) = .packet (r.dest ++ body) rest := by
  induction body generalizing r with
  | nil => exact absurd rfl hne
  | cons c body ih =>
    have hc : Clear xparity c := hbody c List.mem_cons_self
    obtain ⟨dest, ccn, havelen, pktlen, lplen⟩ := r
    obtain rfl : havelen = true := hhave
    rw [List.length_cons] at hlen hroom
    simp only at hlen hroom
    rw [List.map_cons, List.cons_append, ttinl_clear hc hdest (by simp only; omega)]
    simp only [Reading.measure, if_true, true_and, List.length_append, List.length_singleton]
    by_cases hend : body = []
    · have hlast : pktlen + 1 < ((dest.length + 1 : ℕ) : ℤ) := by
        rw [hend, List.length_nil] at hlen
        omega
      rw [if_pos hlast, hend]
      rfl
    · have hmore : ¬ pktlen + 1 < ((dest.length + 1 : ℕ) : ℤ) := by
        have := List.length_pos_of_ne_nil hend
        omega
      rw [if_neg hmore, ih (fun d hd => hbody d (List.mem_cons_of_mem c hd)) hend]
      · simp
      · simp
      · rfl
      · simp only [List.length_append, List.length_singleton]
        omega
      · simp only [List.length_append, List.length_singleton]
        omega

/-- What stands between packets is skipped. -/
lemma ttinl_noise {noise : List Byte}
    (h : ∀ c ∈ noise, strip xparity c ≠ SOH ∧ strip xparity c ≠ 3) :
    ttinl xparity max .begin (noise ++ input) = ttinl xparity max .begin input := by
  induction noise with
  | nil => rfl
  | cons c noise ih =>
    obtain ⟨hmark, hbreak⟩ := h c List.mem_cons_self
    rw [List.cons_append, ttinl]
    simp only [Reading.begin, if_neg hbreak, if_neg (show ¬ 2 < 0 by decide), true_and, hmark,
      ne_eq, not_false_eq_true, if_true]
    exact ih fun d hd => h d (List.mem_cons_of_mem c hd)

/-- The mark begins a packet. -/
lemma ttinl_mark (hmax : 0 < max) :
    ttinl xparity max .begin (dopar xparity SOH :: input) =
      ttinl xparity max ⟨[SOH], 0, false, 0, 0⟩ input := by
  have hmark : strip xparity (dopar xparity SOH) = SOH := strip_dopar fun _ => by decide
  rw [ttinl]
  simp only [hmark, Reading.begin, if_neg (show ¬ SOH = 3 by decide),
    if_neg (show ¬ 2 < 0 by decide), ne_eq, not_true_eq_false, and_false, if_false,
    List.length_nil, if_neg (Nat.not_le_of_lt hmax), List.nil_append]
  rfl

/-- A packet of 94 characters at most behind the length field. -/
lemma ttinl_short {len : ℕ} {body rest : List Byte} (hlen : 1 < len ∧ len ≤ 94)
    (hbody : ∀ c ∈ body, Clear xparity c) (hlength : body.length = len) (hmax : len + 2 ≤ max) :
    ttinl xparity max ⟨[SOH], 0, false, 0, 0⟩
      ((tochar len :: body).map (dopar xparity) ++ rest) =
      .packet (SOH :: tochar len :: body) rest := by
  have hclear : Clear xparity (tochar len) := clear_tochar hlen.2
  have hmeasure : (⟨[SOH, tochar len], 0, false, 0, 0⟩ : Reading).measure =
      ⟨[SOH, tochar len], 0, true, len, 0⟩ := by
    have hmasked : xunchar (tochar len &&& 127) = len := xunchar_masked hlen.2
    have hhave : (1 : ℤ) < len := by exact_mod_cast hlen.1
    simp [Reading.measure, hmasked, hhave]
  have hmore : ¬ ((len : ℤ) + 1 < 2) := by omega
  have hne : body ≠ [] := by
    rintro rfl
    rw [List.length_nil] at hlength
    omega
  rw [List.map_cons, List.cons_append, ttinl_clear hclear (List.cons_ne_nil _ _)
    (show 1 < max by omega)]
  simp only [List.cons_append, List.nil_append, hmeasure, List.length_cons, List.length_nil]
  rw [if_neg (by simpa using hmore), ttinl_body hbody hne (List.cons_ne_nil _ _) rfl]
  · rfl
  · simp only [List.length_cons, List.length_nil, hlength]
    omega
  · simp only [List.length_cons, List.length_nil, hlength]
    omega

/-- A longer packet has its length behind the type. -/
lemma ttinl_long {x y : ℕ} {seq type : Byte} {body rest : List Byte} (hx : x ≤ 94) (hy : y ≤ 94)
    (hseq : Clear xparity seq) (htype : Clear xparity type)
    (hbody : ∀ c ∈ body, Clear xparity c) (hlength : body.length = x * 95 + y + 1)
    (hmax : body.length + 6 ≤ max) :
    ttinl xparity max ⟨[SOH], 0, false, 0, 0⟩
      ((tochar 0 :: seq :: type :: tochar x :: tochar y :: body).map (dopar xparity) ++ rest) =
      .packet (SOH :: tochar 0 :: seq :: type :: tochar x :: tochar y :: body) rest := by
  have hzero : xunchar (tochar 0 &&& 127) = 0 := xunchar_masked (Nat.zero_le 94)
  have hmasked : ∀ {n : ℕ}, n ≤ 94 → xunchar (tochar n &&& 127) = n := fun h => xunchar_masked h
  have hstep : ∀ (r' : Reading) {dest : List Byte} {pktlen lplen : ℤ} {c : Byte}
      {input : List Byte}, Clear xparity c → dest ≠ [] → dest.length < 6 →
      (⟨dest ++ [c], 0, false, pktlen, lplen⟩ : Reading).measure = r' → r'.havelen = false →
      ttinl xparity max ⟨dest, 0, false, pktlen, lplen⟩ (dopar xparity c :: input) =
        ttinl xparity max r' input := by
    intro r' dest pktlen lplen c input hc hdest hroom hmeasure hhave
    rw [ttinl_clear hc hdest (by simp only; omega)]
    simp only [hmeasure, hhave, Bool.false_eq_true, false_and, if_false]
  have hne : body ≠ [] := by
    rintro rfl
    rw [List.length_nil] at hlength
    omega
  have hmeasure : (⟨[SOH, tochar 0, seq, type, tochar x, tochar y], 0, false, 0, x⟩ :
      Reading).measure =
      ⟨[SOH, tochar 0, seq, type, tochar x, tochar y], 0, true, x * 95 + y + 5, x⟩ := by
    simp [Reading.measure, hmasked hy]
  have hmore : ¬ ((x : ℤ) * 95 + y + 5 + 1 < 6) := by
    have hnonneg : (0 : ℤ) ≤ x * 95 + y := by positivity
    omega
  simp only [List.map_cons, List.cons_append]
  rw [hstep (⟨[SOH, tochar 0], 0, false, 0, 0⟩) (clear_tochar (Nat.zero_le 94)) (by simp)
      (by simp) (by simp [Reading.measure, hzero]) rfl,
    hstep (⟨[SOH, tochar 0, seq], 0, false, 0, 0⟩) hseq (by simp) (by simp)
      (by simp [Reading.measure]) rfl,
    hstep (⟨[SOH, tochar 0, seq, type], 0, false, 0, 0⟩) htype (by simp) (by simp)
      (by simp [Reading.measure]) rfl,
    hstep (⟨[SOH, tochar 0, seq, type, tochar x], 0, false, 0, x⟩) (clear_tochar hx) (by simp)
      (by simp) (by simp [Reading.measure, hmasked hx]) rfl,
    ttinl_clear (clear_tochar hy) (by simp) (by simp only [List.length_cons, List.length_nil]; omega)]
  simp only [List.cons_append, List.nil_append, hmeasure, List.length_cons, List.length_nil]
  rw [if_neg (by simpa using hmore), ttinl_body hbody hne (List.cons_ne_nil _ _) rfl]
  · rfl
  · simp only [List.length_cons, List.length_nil, hlength]
    push_cast
    omega
  · simp only [List.length_cons, List.length_nil]
    omega

end Raw

/-! ### Taking a packet apart -/

namespace Line

variable {l : Line}

lemma word_tochar {n : ℕ} (h : n ≤ 94) : word (tochar n) = BitVec.ofNat 32 n := by
  rw [word, Coding.xunchar_tochar h, BitVec.ofInt_natCast]

/-- Two pieces of six bits. -/
lemma pieces_two {j : ℕ} (h : j < 4096) :
    word (tochar ((j >>> 6) &&& 63)) <<< 6 ||| word (tochar (j &&& 63)) = BitVec.ofNat 32 j := by
  have hmask : ∀ m, m &&& 63 = m % 64 := fun m => Nat.and_two_pow_sub_one_eq_mod m 6
  have hhigh : (j >>> 6) &&& 63 = j / 64 := by
    rw [hmask, Nat.shiftRight_eq_div_pow]
    omega
  rw [hhigh, hmask, word_tochar (by omega), word_tochar (by omega)]
  apply BitVec.eq_of_toNat_eq
  rw [BitVec.toNat_or, BitVec.toNat_shiftLeft, BitVec.toNat_ofNat, BitVec.toNat_ofNat,
    BitVec.toNat_ofNat, Nat.mod_eq_of_lt (show j / 64 < 2 ^ 32 by omega),
    Nat.mod_eq_of_lt (show j % 64 < 2 ^ 32 by omega), Nat.mod_eq_of_lt (show j < 2 ^ 32 by omega),
    Nat.mod_eq_of_lt (show (j / 64) <<< 6 < 2 ^ 32 by rw [Nat.shiftLeft_eq]; omega),
    ← Nat.shiftLeft_add_eq_or_of_lt (show j % 64 < 2 ^ 6 by omega), Nat.shiftLeft_eq]
  omega

/-- A piece of four bits and two of six. -/
lemma pieces_three {j : ℕ} (h : j < 65536) :
    (word (tochar ((j >>> 12) &&& 15)) <<< 12 ||| word (tochar ((j >>> 6) &&& 63)) <<< 6 |||
      word (tochar (j &&& 63))) &&& 0xffff = BitVec.ofNat 32 j := by
  have hmask : ∀ m, m &&& 63 = m % 64 := fun m => Nat.and_two_pow_sub_one_eq_mod m 6
  have hhigh : (j >>> 12) &&& 15 = j / 4096 := by
    rw [Nat.and_two_pow_sub_one_eq_mod _ 4, Nat.shiftRight_eq_div_pow]
    omega
  have hlow : word (tochar ((j >>> 6) &&& 63)) <<< 6 ||| word (tochar (j &&& 63)) =
      BitVec.ofNat 32 (j % 4096) := by
    have hpieces := pieces_two (j := j % 4096) (Nat.mod_lt _ (by decide))
    have hsix : (j % 4096) >>> 6 &&& 63 = j >>> 6 &&& 63 := by
      rw [hmask, hmask, Nat.shiftRight_eq_div_pow, Nat.shiftRight_eq_div_pow]
      omega
    have hlast : j % 4096 &&& 63 = j &&& 63 := by
      rw [hmask, hmask]
      omega
    rwa [hsix, hlast] at hpieces
  rw [BitVec.or_assoc, hlow, hhigh, word_tochar (by omega)]
  apply BitVec.eq_of_toNat_eq
  rw [BitVec.toNat_and, BitVec.toNat_or, BitVec.toNat_shiftLeft, BitVec.toNat_ofNat,
    BitVec.toNat_ofNat, BitVec.toNat_ofNat, Nat.mod_eq_of_lt (show j / 4096 < 2 ^ 32 by omega),
    Nat.mod_eq_of_lt (show j % 4096 < 2 ^ 32 by omega), Nat.mod_eq_of_lt (show j < 2 ^ 32 by omega),
    Nat.mod_eq_of_lt (show (j / 4096) <<< 12 < 2 ^ 32 by rw [Nat.shiftLeft_eq]; omega),
    ← Nat.shiftLeft_add_eq_or_of_lt (show j % 4096 < 2 ^ 12 by omega), Nat.shiftLeft_eq]
  show (j / 4096 * 2 ^ 12 + j % 4096) &&& (2 ^ 16 - 1) = j
  rw [Nat.and_two_pow_sub_one_eq_mod]
  omega

/-! ### A packet that was sent -/

variable {type : Byte} {n : ℕ} {d content pad : List Byte}

lemma chk1_lt (parity : Option Parity) (s : List Byte) : chk1 parity s < 64 :=
  Nat.lt_of_le_of_lt Nat.and_le_right (by decide)

lemma chk3_lt (parity : Option Parity) (s : List Byte) : chk3 parity s < 65536 :=
  Nat.lt_of_le_of_lt Nat.and_le_right (by decide)

lemma clear_check (l : Line) (pad content : List Byte) :
    ∀ c ∈ l.check pad content, Clear l.parity c := by
  have hpiece : ∀ j, Clear l.parity (tochar (j &&& 63)) := fun j =>
    clear_tochar (Nat.le_trans Nat.and_le_right (by decide))
  have hhigh : ∀ j, Clear l.parity (tochar (j &&& 15)) := fun j =>
    clear_tochar (Nat.le_trans Nat.and_le_right (by decide))
  have hone : Clear l.parity (tochar (chk1 l.parity content)) :=
    clear_tochar (Nat.le_trans (chk1_lt _ _).le (by decide))
  intro c hc
  rw [check] at hc
  split at hc
  · rw [List.mem_singleton.mp hc]
    exact hone
  · rcases List.mem_pair.mp hc with rfl | rfl <;> exact hpiece _
  · simp only [List.mem_cons, List.not_mem_nil, or_false] at hc
    rcases hc with rfl | rfl | rfl
    · exact hhigh _
    · exact hpiece _
    · exact hpiece _
  · cases hc

lemma length_check (hbctu : 1 ≤ l.bctu ∧ l.bctu ≤ 3) : (l.check pad content).length = l.bctu := by
  have hcases : l.bctu = 1 ∨ l.bctu = 2 ∨ l.bctu = 3 := by omega
  rcases hcases with h | h | h <;> simp [check, h]

/-- The sum of a packet with the 12-bit checksum takes more than twelve bits. -/
def Overflows (l : Line) (content : List Byte) : Prop :=
  l.bctu = 2 ∧ 4096 ≤ chksum l.parity content

instance (l : Line) (content : List Byte) : Decidable (l.Overflows content) :=
  inferInstanceAs (Decidable (_ ∧ _))

lemma chksum_le (parity : Option Parity) (s : List Byte) : chksum parity s ≤ 255 * s.length := by
  induction s with
  | nil => exact le_rfl
  | cons c s ih =>
    have hc : (c &&& if parity.isSome then 127 else 255).toNat < 256 := UInt8.toNat_lt _
    rw [chksum] at ih ⊢
    rw [List.map_cons, List.sum_cons, List.length_cons]
    omega

/-- The receiver finds the block check that was sent, unless the sum overflows. -/
lemma given_check (hbctu : 1 ≤ l.bctu ∧ l.bctu ≤ 3) (hpad : l.bctu = 1 ∨ pad = [])
    (hlen : content.length ≤ 9020) :
    l.given (l.check pad content) = BitVec.ofNat 32 (l.computed content) ↔
      ¬ l.Overflows content := by
  have hsecond : pad = [] → ((pad ++ SOH :: content).drop 1).take content.length = content := by
    rintro rfl
    simp
  have hcases : l.bctu = 1 ∨ l.bctu = 2 ∨ l.bctu = 3 := by omega
  rcases hcases with h | h | h
  · have hword : word (tochar (chk1 l.parity content)) =
        BitVec.ofNat 32 (chk1 l.parity content) :=
      word_tochar (Nat.le_trans (chk1_lt _ _).le (by decide))
    simp [given, check, computed, h, hword, Overflows]
  · have hnil : pad = [] := hpad.resolve_left (by omega)
    have hsum := chksum_le l.parity content
    simp only [given, check, computed, h, hsecond hnil, Overflows, true_and, List.getD_cons_zero,
      List.getD_cons_succ, not_le]
    constructor
    · intro heq
      have hlow : chksum l.parity content % 4096 < 4096 := Nat.mod_lt _ (by decide)
      have hpieces := pieces_two hlow
      have hmask : ∀ m, m &&& 63 = m % 64 := fun m => Nat.and_two_pow_sub_one_eq_mod m 6
      have hsix : (chksum l.parity content % 4096) >>> 6 &&& 63 =
          chksum l.parity content >>> 6 &&& 63 := by
        rw [hmask, hmask, Nat.shiftRight_eq_div_pow, Nat.shiftRight_eq_div_pow]
        omega
      have hlast : chksum l.parity content % 4096 &&& 63 = chksum l.parity content &&& 63 := by
        rw [hmask, hmask]
        omega
      rw [hsix, hlast, heq] at hpieces
      have hsame := congrArg BitVec.toNat hpieces
      rw [BitVec.toNat_ofNat, BitVec.toNat_ofNat, Nat.mod_eq_of_lt (by omega),
        Nat.mod_eq_of_lt (by omega)] at hsame
      omega
    · exact pieces_two
  · have hnil : pad = [] := hpad.resolve_left (by omega)
    simp only [given, check, computed, h, hsecond hnil, Overflows, List.getD_cons_zero,
      List.getD_cons_succ]
    simp only [pieces_three (chk3_lt l.parity content)]
    simp

/-- A packet with `i` characters before its data. -/
lemma checked_sent {front check : List Byte} {i : ℕ} (hfront : front.length = i) (hi : 4 ≤ i)
    (hcheck : check.length = l.bctu) :
    l.checked (front ++ d ++ check) i d.length =
      if l.given check = BitVec.ofNat 32 (l.computed ((front ++ d).drop 1)) then
        some ⟨front.getD 3 0, xunchar (front.getD 2 0), d⟩
      else none := by
  have hj : ((d.length : ℤ) + (i : ℤ)).toNat = (front ++ d).length := by
    rw [List.length_append, hfront]
    omega
  have hlong : 1 ≤ (front ++ d).length := by
    rw [List.length_append, hfront]
    omega
  have hpbc : ((front ++ d ++ check).drop (front ++ d).length).take l.bctu = check := by
    rw [List.drop_left, ← hcheck, List.take_length]
  have hcover : ((front ++ d ++ check).drop 1).take ((front ++ d).length - 1) =
      (front ++ d).drop 1 := by
    rw [List.drop_append_of_le_length hlong, ← List.length_drop, List.take_left]
  have hdata : ((front ++ d ++ check).drop i).take (d.length : ℤ).toNat = d := by
    rw [List.append_assoc, ← hfront, List.drop_left, Int.toNat_natCast, List.take_left]
  have hget : ∀ k, k < 4 → (front ++ d ++ check).getD k 0 = front.getD k 0 := by
    intro k hk
    rw [List.append_assoc, List.getD_append _ _ _ _ (by omega)]
  simp only [checked, hj, hpbc, hcover, hdata, hget 3 (by decide), hget 2 (by decide)]

/-- What a packet needs to go over the line: characters that parity leaves alone and that are no
control characters, and no more of them than fit into the receiver's buffer. -/
structure Fits (l : Line) (max : ℕ) (type : Byte) (n : ℕ) (d : List Byte) : Prop where
  number : n < 64
  type : Clear l.parity type
  data : ∀ c ∈ d, Clear l.parity c
  room : d.length + l.bctu + 7 ≤ max

/-- What does not look like the beginning of a packet. -/
def Noise (parity : Option Parity) (noise : List Byte) : Prop :=
  ∀ c ∈ noise, strip parity c ≠ SOH ∧ strip parity c ≠ 3

/-- The line: a known block check, which is right behind the padding, and no mark between
packets. -/
structure Works (l : Line) : Prop where
  bctu : 1 ≤ l.bctu ∧ l.bctu ≤ 3
  padding : l.bctu = 1 ∨ l.spadn = 0
  spadc : l.spadn ≠ 0 → Noise l.parity [dopar l.parity l.spadc]
  seol : Noise l.parity [dopar l.parity l.seol]

section Receive

variable {max : ℕ} {noise rest : List Byte}

/-- What a long packet has before its data, less the check of this. -/
def header (l : Line) (type : Byte) (n : ℕ) (d : List Byte) : List Byte :=
  [tochar 0, tochar n, type, tochar ((d.length + l.bctu) / 95), tochar ((d.length + l.bctu) % 95)]

lemma content_long (h : 94 < d.length + l.bctu + 2) :
    l.content type n d =
      l.header type n d ++ [tochar (chk1 l.parity (l.header type n d))] ++ d := if_pos h

lemma content_short (h : ¬ 94 < d.length + l.bctu + 2) :
    l.content type n d = tochar (d.length + l.bctu + 2) :: tochar n :: type :: d := if_neg h

lemma rpacket_short {p : List Byte} (h : ¬ 94 < d.length + l.bctu + 2) (hlen : 5 ≤ p.length)
    (hone : p.getD 1 0 = tochar (d.length + l.bctu + 2)) (hbctu : 1 ≤ l.bctu) :
    l.rpacket p = l.checked p 4 d.length := by
  have hxlen : xunchar (tochar (d.length + l.bctu + 2)) = ((d.length + l.bctu + 2 : ℕ) : ℤ) :=
    Coding.xunchar_tochar (by omega)
  have hrln : ((d.length + l.bctu + 2 : ℕ) : ℤ) - l.bctu - 2 = d.length := by
    push_cast
    ring
  rw [rpacket]
  simp only [hone, hxlen, hrln]
  rw [if_neg (Nat.not_lt_of_le hlen), if_neg (by omega), if_neg (by omega)]

lemma rpacket_long {p : List Byte} (hlen : 6 ≤ p.length)
    (hroom : d.length + l.bctu ≤ 9020) (hone : p.getD 1 0 = tochar 0)
    (hfour : p.getD 4 0 = tochar ((d.length + l.bctu) / 95))
    (hfive : p.getD 5 0 = tochar ((d.length + l.bctu) % 95)) :
    l.rpacket p =
      if word (p.getD 6 0) ≠ BitVec.ofNat 32 (chk1 l.parity ((p.drop 1).take 5)) then none
      else l.checked p 7 d.length := by
  have hzero : xunchar (tochar 0) = 0 := Coding.xunchar_tochar (Nat.zero_le 94)
  have hrln : xunchar (tochar ((d.length + l.bctu) / 95)) * 95 +
      xunchar (tochar ((d.length + l.bctu) % 95)) - l.bctu = d.length := by
    rw [Coding.xunchar_tochar (by omega), Coding.xunchar_tochar (by omega)]
    omega
  rw [rpacket]
  simp only [hone, hfour, hfive, hzero, hrln, if_true]
  rw [if_neg (by omega), if_neg (by omega)]

/-- The raw packet that was sent is read. -/
lemma ttinl_spacket (hl : l.Works) (hmax : max ≤ 9020) (h : l.Fits max type n d)
    (hnoise : Noise l.parity noise) :
    ttinl l.parity max .begin (noise ++ l.ttol (l.spacket type n d) ++ rest) =
      .packet (SOH :: l.content type n d ++ l.check (List.replicate l.spadn l.spadc)
        (l.content type n d)) (dopar l.parity l.seol :: rest) := by
  obtain ⟨check, hcheck⟩ : ∃ check,
      l.check (List.replicate l.spadn l.spadc) (l.content type n d) = check := ⟨_, rfl⟩
  have hlength : check.length = l.bctu := hcheck ▸ length_check hl.bctu
  have hclear : ∀ c ∈ check, Clear l.parity c := hcheck ▸ clear_check l _ _
  have hpad : Noise l.parity ((List.replicate l.spadn l.spadc).map (dopar l.parity)) := by
    intro c hc
    rw [List.map_replicate] at hc
    obtain ⟨hne, rfl⟩ := List.mem_replicate.mp hc
    exact hl.spadc hne _ List.mem_cons_self
  have hbefore : Noise l.parity
      (noise ++ (List.replicate l.spadn l.spadc).map (dopar l.parity)) := by
    intro c hc
    rcases List.mem_append.mp hc with hc | hc
    · exact hnoise c hc
    · exact hpad c hc
  have hinput : noise ++ l.ttol (l.spacket type n d) ++ rest =
      noise ++ (List.replicate l.spadn l.spadc).map (dopar l.parity) ++
        (dopar l.parity SOH ::
          ((l.content type n d ++ check).map (dopar l.parity) ++ dopar l.parity l.seol :: rest)) := by
    simp [ttol, spacket, hcheck]
  have hroom := h.room
  have hnum : Clear l.parity (tochar n) := clear_tochar (h.number.le.trans (by decide))
  have hdata : ∀ c ∈ d ++ check, Clear l.parity c := by
    intro c hc
    rcases List.mem_append.mp hc with hc | hc
    · exact h.data c hc
    · exact hclear c hc
  rw [hinput, ttinl_noise hbefore, ttinl_mark (by omega), hcheck]
  by_cases hlong : 94 < d.length + l.bctu + 2
  · have hcontent : l.content type n d = tochar 0 :: tochar n :: type ::
        tochar ((d.length + l.bctu) / 95) :: tochar ((d.length + l.bctu) % 95) ::
          (tochar (chk1 l.parity (l.header type n d)) :: d) := content_long hlong
    have hhead : ∀ k, k < 64 → Clear l.parity (tochar k) := fun k hk =>
      clear_tochar (hk.le.trans (by decide))
    rw [hcontent]
    simp only [List.cons_append]
    refine ttinl_long (by omega) (by omega) hnum h.type ?_ ?_ ?_
    · rintro c (_ | ⟨_, hc⟩)
      · exact hhead _ (chk1_lt _ _)
      · exact hdata c hc
    · simp only [List.length_cons, List.length_append, hlength]
      omega
    · simp only [List.length_cons, List.length_append, hlength]
      omega
  · have hcontent : l.content type n d = _ := content_short hlong
    rw [hcontent]
    simp only [List.cons_append]
    refine ttinl_short ⟨by omega, by omega⟩ ?_ ?_ (by omega)
    · rintro c (_ | ⟨_, _ | ⟨_, hc⟩⟩)
      · exact hnum
      · exact h.type
      · exact hdata c hc
    · simp only [List.length_cons, List.length_append, hlength]

lemma length_content_le (l : Line) (type : Byte) (n : ℕ) (d : List Byte) :
    (l.content type n d).length ≤ d.length + 6 := by
  rw [content]
  split <;> simp

/-- The packet that was sent is taken apart, unless the sum overflows. -/
lemma rpacket_spacket (hl : l.Works) (hmax : max ≤ 9020) (h : l.Fits max type n d) :
    l.rpacket (SOH :: l.content type n d ++ l.check (List.replicate l.spadn l.spadc)
        (l.content type n d)) =
      if l.Overflows (l.content type n d) then none else some ⟨type, n, d⟩ := by
  have hroom := h.room
  have hbctu := hl.bctu
  have hpad : l.bctu = 1 ∨ List.replicate l.spadn l.spadc = [] := by
    rcases hl.padding with hone | hzero
    · exact .inl hone
    · exact .inr (by rw [hzero]; rfl)
  have hlen : (l.content type n d).length ≤ 9020 :=
    (length_content_le l type n d).trans (by omega)
  have hgiven := given_check hl.bctu hpad hlen
  obtain ⟨check, hcheck⟩ : ∃ check,
      l.check (List.replicate l.spadn l.spadc) (l.content type n d) = check := ⟨_, rfl⟩
  have hlength : check.length = l.bctu := hcheck ▸ length_check hl.bctu
  have hseq : xunchar (tochar n) = n := Coding.xunchar_tochar (h.number.le.trans (by decide))
  rw [hcheck] at hgiven ⊢
  have hanswer : ∀ front : List Byte, SOH :: l.content type n d = front ++ d → 4 ≤ front.length →
      front.getD 3 0 = type → front.getD 2 0 = tochar n →
      l.checked (SOH :: l.content type n d ++ check) front.length d.length =
        if l.Overflows (l.content type n d) then none else some ⟨type, n, d⟩ := by
    intro front hfront hfour htype hnum
    have hdrop : (front ++ d).drop 1 = l.content type n d := by rw [← hfront]; rfl
    rw [hfront, checked_sent rfl hfour hlength, hdrop, htype, hnum, hseq]
    by_cases hover : l.Overflows (l.content type n d)
    · rw [if_pos hover, if_neg (by rw [hgiven]; exact fun hn => hn hover)]
    · rw [if_neg hover, if_pos (hgiven.mpr hover)]
  by_cases hlong : 94 < d.length + l.bctu + 2
  · have hcontent : l.content type n d = _ := content_long hlong
    have hchk : chk1 l.parity (l.header type n d) ≤ 94 := (chk1_lt _ _).le.trans (by decide)
    have hsplit := hanswer (SOH :: l.header type n d ++ [tochar (chk1 l.parity (l.header type n d))])
      (by rw [hcontent]; rfl) (by simp [header]) rfl rfl
    rw [← hsplit, hcontent, rpacket_long (by simp [header]) (by omega) rfl rfl rfl]
    refine if_neg (not_not.mpr ?_)
    exact word_tochar hchk
  · have hcontent : l.content type n d = _ := content_short hlong
    have hsplit := hanswer [SOH, tochar (d.length + l.bctu + 2), tochar n, type]
      (by rw [hcontent]; rfl) le_rfl rfl rfl
    rw [← hsplit, hcontent, rpacket_short hlong (by simp [hlength]; omega) rfl hl.bctu.1]
    rfl

/-- The packets that are read from the input, `k` at most. -/
def receive (l : Line) (max : ℕ) : ℕ → List Byte → List (Option Packet)
  | 0, _ => []
  | k + 1, input =>
    match ttinl l.parity max .begin input with
    | .packet p rest => l.rpacket p :: receive l max k rest
    | _ => []

/-- Packets that are sent one after the other are received so, less those whose sum overflows. -/
theorem receives_packets (hl : l.Works) (hmax : max ≤ 9020)
    {sent : List (Byte × ℕ × List Byte)} (h : ∀ x ∈ sent, l.Fits max x.1 x.2.1 x.2.2)
    (hnoise : Noise l.parity noise) :
    l.receive max sent.length
        (noise ++ sent.flatMap fun x => l.ttol (l.spacket x.1 x.2.1 x.2.2)) =
      sent.map fun x =>
        if l.Overflows (l.content x.1 x.2.1 x.2.2) then none else some ⟨x.1, x.2.1, x.2.2⟩ := by
  induction sent generalizing noise with
  | nil => rfl
  | cons x sent ih =>
    have hx := h x List.mem_cons_self
    rw [List.length_cons, List.flatMap_cons, ← List.append_assoc, receive,
      ttinl_spacket hl hmax hx hnoise]
    simp only [rpacket_spacket hl hmax hx, List.map_cons]
    refine congrArg _ ?_
    exact ih (fun y hy => h y (List.mem_cons_of_mem x hy)) hl.seol

/-- A line with the 16-bit block check. -/
def plain : Line where
  parity := none
  bctu := 3
  spadn := 0
  spadc := 0
  seol := CR

instance (parity : Option Parity) (noise : List Byte) : Decidable (Noise parity noise) :=
  inferInstanceAs (Decidable (∀ c ∈ noise, strip parity c ≠ SOH ∧ strip parity c ≠ 3))

instance (xparity : Option Parity) (c : Byte) : Decidable (Clear xparity c) :=
  inferInstanceAs (Decidable (_ ∧ _))

lemma works_plain : plain.Works where
  bctu := by decide
  padding := .inr rfl
  spadc := fun h => absurd rfl h
  seol := by decide +kernel

/-- Two packets behind the end of a line. -/
theorem receives_packets_two :
    plain.receive 9000 2 ([CR, LF] ++ [(68, 5, [65, 66]), (90, 6, [])].flatMap
      fun x => plain.ttol (plain.spacket x.1 x.2.1 x.2.2)) =
      [(68, 5, [65, 66]), (90, 6, [])].map fun x =>
        if plain.Overflows (plain.content x.1 x.2.1 x.2.2) then none
        else some ⟨x.1, x.2.1, x.2.2⟩ :=
  receives_packets works_plain (show 9000 ≤ 9020 by decide)
    (List.forall_mem_cons.mpr ⟨⟨by decide, by decide +kernel, by decide +kernel, by decide +kernel⟩,
      List.forall_mem_singleton.mpr
        ⟨by decide, by decide +kernel, by decide +kernel, by decide +kernel⟩⟩)
    (show Noise none [CR, LF] by decide +kernel)

end Receive

end Line

end EspLinux.Kermit
