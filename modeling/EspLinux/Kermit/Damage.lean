import EspLinux.Kermit.Packet
import EspLinux.Lib.Burst

/-!
# Damaged packets

The 16-bit block check is a cyclic redundancy check, four bits at a time.  A step of it can be
undone, and two characters in a row leave a trace of their own.  So a packet in which two
neighbouring characters are damaged is refused, unless the damage is to the block check only
(`damage_seen`).
-/

namespace EspLinux.Kermit

open EspLinux.Lib

/-! ## The generator -/

lemma crcHalf_lt {crc : ℕ} (h : crc < 65536) (c : ℕ) : crcHalf crc c < 65536 := by
  have hq : (crc ^^^ c) &&& 15 ≤ 15 := Nat.and_le_right
  refine Nat.xor_lt_two_pow (n := 16) ?_ ?_
  · rw [Nat.shiftRight_eq_div_pow]
    omega
  · show ((crc ^^^ c) &&& 15) * 4225 < 65536
    omega

lemma mul_xor {q r : ℕ} (hq : q < 16) (hr : r < 16) :
    (q ^^^ r) * 0o10201 = (q * 0o10201) ^^^ (r * 0o10201) := by
  have h : ∀ q < 16, ∀ r < 16, (q ^^^ r) * 0o10201 = (q * 0o10201) ^^^ (r * 0o10201) := by
    decide
  exact h q hq r hr

lemma and_15_lt (n : ℕ) : n &&& 15 < 16 := Nat.lt_of_le_of_lt Nat.and_le_right (by decide)

/-- The generator is linear. -/
lemma crcHalf_xor (x y c d : ℕ) :
    crcHalf (x ^^^ y) (c ^^^ d) = crcHalf x c ^^^ crcHalf y d := by
  have hquad : ∀ a b e f : ℕ, (a ^^^ b) ^^^ (e ^^^ f) = (a ^^^ e) ^^^ (b ^^^ f) := by
    intro a b e f
    rw [Nat.xor_assoc, Nat.xor_assoc, ← Nat.xor_assoc b, Nat.xor_comm b e, Nat.xor_assoc e]
  simp only [crcHalf]
  rw [hquad x y c d, Nat.and_xor_distrib_right, mul_xor (and_15_lt _) (and_15_lt _),
    Nat.shiftRight_xor_distrib, hquad]

/-- A value without its upper four bits tells that nothing was fed back. -/
lemma crcHalf_small {crc c : ℕ} (h : crc < 65536) (hsmall : crcHalf crc c < 4096) :
    (crc ^^^ c) &&& 15 = 0 ∧ crcHalf crc c = crc >>> 4 := by
  have hq := and_15_lt (crc ^^^ c)
  have hhigh : crc >>> 4 < 4096 := by
    rw [Nat.shiftRight_eq_div_pow]
    omega
  have hback : ((crc ^^^ c) &&& 15) * 0o10201 = (crc >>> 4) ^^^ crcHalf crc c := by
    rw [crcHalf, ← Nat.xor_assoc, Nat.xor_self, Nat.zero_xor]
  have hlt : ((crc ^^^ c) &&& 15) * 4225 < 4096 := by
    rw [show ((crc ^^^ c) &&& 15) * 4225 = (crc >>> 4) ^^^ crcHalf crc c from hback]
    exact Nat.xor_lt_two_pow (n := 12) hhigh hsmall
  have hzero : (crc ^^^ c) &&& 15 = 0 := by omega
  refine ⟨hzero, ?_⟩
  rw [crcHalf]
  simp only [hzero, Nat.zero_mul, Nat.xor_zero]

lemma crcHalf_eq_zero {crc c : ℕ} (h : crc < 65536) (hzero : crcHalf crc c = 0) :
    crc < 16 ∧ (crc ^^^ c) &&& 15 = 0 := by
  obtain ⟨hlow, hhigh⟩ := crcHalf_small h (c := c) (by omega)
  refine ⟨?_, hlow⟩
  rw [hzero, Nat.shiftRight_eq_div_pow] at hhigh
  omega

lemma low_of_xor_zero {z : ℕ} (h : (z ^^^ 0) &&& 15 = 0) (hz : z < 16) : z = 0 := by
  rw [Nat.xor_zero, Nat.and_two_pow_sub_one_eq_mod z 4] at h
  omega

/-- A value of the generator. -/
def IsCrc (x : ℕ) : Prop := x < 65536

lemma isCrc_zero : IsCrc 0 := Nat.zero_lt_succ _

section Crc

variable {x y : ℕ} {a b a' b' : Byte}

lemma crcStep_lt (parity : Option Parity) (h : x < 65536) (a : Byte) :
    crcStep parity x a < 65536 := crcHalf_lt (crcHalf_lt h _) _

lemma crcStep_xor : crcStep none (x ^^^ y) (a ^^^ b) = crcStep none x a ^^^ crcStep none y b := by
  simp only [crcStep, Option.isSome_none, Bool.false_eq_true, if_false, UInt8.toNat_xor,
    crcHalf_xor, Nat.shiftRight_xor_distrib]

/-- A step can be undone. -/
lemma crcStep_injective (hx : x < 65536) (hy : y < 65536)
    (h : crcStep none x a = crcStep none y a) : x = y := by
  have hz : x ^^^ y < 65536 := Nat.xor_lt_two_pow (n := 16) hx hy
  have hzero : crcHalf (crcHalf (x ^^^ y) 0) 0 = 0 := by
    have hxor : crcStep none (x ^^^ y) (a ^^^ a) = 0 := by rw [crcStep_xor, h, Nat.xor_self]
    rw [UInt8.xor_self] at hxor
    exact hxor
  obtain ⟨hsmall, hlow⟩ := crcHalf_eq_zero (crcHalf_lt hz 0) hzero
  obtain ⟨hsmall', hlow'⟩ := crcHalf_eq_zero hz (low_of_xor_zero hlow hsmall)
  exact Nat.xor_eq_zero_iff.mp (low_of_xor_zero hlow' hsmall')

/-- Two steps that lead nowhere had nothing to read. -/
lemma crcStep_two (h : crcStep none (crcStep none 0 a) b = 0) : a = 0 ∧ b = 0 := by
  have hlt : ∀ {n}, n < 65536 → ∀ c, crcHalf n c < 65536 := fun h c => crcHalf_lt h c
  obtain ⟨r₁, hr₁⟩ : ∃ r, crcHalf 0 a.toNat = r := ⟨_, rfl⟩
  obtain ⟨r₂, hr₂⟩ : ∃ r, crcHalf r₁ (a.toNat >>> 4) = r := ⟨_, rfl⟩
  obtain ⟨r₃, hr₃⟩ : ∃ r, crcHalf r₂ b.toNat = r := ⟨_, rfl⟩
  have hlt₁ : r₁ < 65536 := hr₁ ▸ crcHalf_lt (by decide) _
  have hlt₂ : r₂ < 65536 := hr₂ ▸ crcHalf_lt hlt₁ _
  have hlt₃ : r₃ < 65536 := hr₃ ▸ crcHalf_lt hlt₂ _
  have hlast : crcHalf r₃ (b.toNat >>> 4) = 0 := by
    rw [← hr₃, ← hr₂, ← hr₁]
    exact h
  -- from the last four bits backwards nothing was fed back, so there was nothing from the start
  obtain ⟨hsmall₃, hlow₄⟩ := crcHalf_eq_zero hlt₃ hlast
  obtain ⟨hlow₃, hshift₃⟩ := crcHalf_small hlt₂ (by omega : crcHalf r₂ b.toNat < 4096)
  rw [hr₃, Nat.shiftRight_eq_div_pow] at hshift₃
  obtain ⟨hlow₂, hshift₂⟩ :=
    crcHalf_small hlt₁ (by omega : crcHalf r₁ (a.toNat >>> 4) < 4096)
  rw [hr₂, Nat.shiftRight_eq_div_pow] at hshift₂
  obtain ⟨hlow₁, hshift₁⟩ :=
    crcHalf_small (show 0 < 65536 by decide) (by omega : crcHalf 0 a.toNat < 4096)
  rw [hr₁, Nat.zero_shiftRight] at hshift₁
  have hzero₂ : r₂ = 0 := by omega
  have hzero₃ : r₃ = 0 := by omega
  rw [hshift₁, Nat.zero_xor, Nat.shiftRight_eq_div_pow, Nat.and_two_pow_sub_one_eq_mod _ 4] at hlow₂
  rw [Nat.zero_xor, Nat.and_two_pow_sub_one_eq_mod _ 4] at hlow₁
  rw [hzero₂, Nat.zero_xor, Nat.and_two_pow_sub_one_eq_mod _ 4] at hlow₃
  rw [hzero₃, Nat.zero_xor, Nat.shiftRight_eq_div_pow, Nat.and_two_pow_sub_one_eq_mod _ 4] at hlow₄
  have ha := UInt8.toNat_lt a
  have hb := UInt8.toNat_lt b
  exact ⟨UInt8.toNat_inj.mp (show a.toNat = 0 by omega),
    UInt8.toNat_inj.mp (show b.toNat = 0 by omega)⟩

/-- Two letters behind the same value differ by what their difference makes of nothing. -/
lemma crcStep_diff : crcStep none x a ^^^ crcStep none x a' = crcStep none 0 (a ^^^ a') := by
  rw [← crcStep_xor, Nat.xor_self]

lemma crcStep_tells (h : crcStep none (crcStep none x a) b = crcStep none (crcStep none x a') b') :
    a = a' ∧ b = b' := by
  have hzero : crcStep none (crcStep none 0 (a ^^^ a')) (b ^^^ b') = 0 := by
    rw [← crcStep_diff (x := x), crcStep_xor, h, Nat.xor_self]
  obtain ⟨ha, hb⟩ := crcStep_two hzero
  exact ⟨UInt8.xor_eq_zero_iff.mp ha, UInt8.xor_eq_zero_iff.mp hb⟩

set_option maxRecDepth 20000 in
/-- The lower twelve bits already tell the last character. -/
lemma crcStep_last (h : crcStep none x a % 4096 = crcStep none x a' % 4096) : a = a' := by
  have hlow : ∀ e : Byte, crcStep none 0 e % 4096 = 0 → e = 0 := by decide
  have hzero : crcStep none 0 (a ^^^ a') % 4096 = 0 := by
    have hmask : ∀ m, m % 4096 = m &&& (2 ^ 12 - 1) := fun m =>
      (Nat.and_two_pow_sub_one_eq_mod m 12).symm
    rw [← crcStep_diff (x := x), hmask, Nat.and_xor_distrib_right, ← hmask, ← hmask, h,
      Nat.xor_self]
  exact UInt8.xor_eq_zero_iff.mp (hlow _ hzero)

end Crc

/-! ## Packets -/

namespace Line

variable {l : Line} {type : Byte} {n max : ℕ} {d : List Byte}

/-- The characters of a raw packet, which have lost their parity. -/
def Stripped (parity : Option Parity) (p : List Byte) : Prop :=
  ∀ c ∈ p, parity.isSome = true → c < 128

lemma foldl_stripped {parity : Option Parity} {s : List Byte} (h : Stripped parity s) (x : ℕ) :
    s.foldl (crcStep parity) x = s.foldl (crcStep none) x := by
  induction s generalizing x with
  | nil => rw [List.foldl_nil, List.foldl_nil]
  | cons c s ih =>
    have hc : crcStep parity x c = crcStep none x c := by
      cases hpar : parity.isSome with
      | false => simp [crcStep, hpar]
      | true => simp [crcStep, hpar, and_127_of_lt (h c List.mem_cons_self hpar)]
    rw [List.foldl_cons, List.foldl_cons, hc]
    exact ih (fun e he => h e (List.mem_cons_of_mem c he)) _

lemma chk3_stripped {parity : Option Parity} {s : List Byte} (h : Stripped parity s) :
    chk3 parity s = s.foldl (crcStep none) 0 := by
  have hlt : s.foldl (crcStep none) 0 < 65536 :=
    @foldl_keeps ℕ Byte (crcStep none) IsCrc (fun _ a hx => crcStep_lt none hx a) 0 isCrc_zero s
  rw [chk3, foldl_stripped h]
  show s.foldl (crcStep none) 0 &&& (2 ^ 16 - 1) = s.foldl (crcStep none) 0
  rw [Nat.and_two_pow_sub_one_eq_mod, Nat.mod_eq_of_lt hlt]

/-- The first character of a 16-bit block check holds the upper four bits only. -/
lemma given_low (hcrc : l.bctu = 3) (pbc pbc' : List Byte)
    (h : ∀ i, i ≠ 0 → pbc.getD i 0 = pbc'.getD i 0) :
    l.given pbc &&& (0xfff : BitVec 32) = l.given pbc' &&& (0xfff : BitVec 32) := by
  have hlow : ∀ a b c : BitVec 32,
      ((a <<< 12 ||| b <<< 6 ||| c) &&& (0xffff : BitVec 32)) &&& (0xfff : BitVec 32) =
        (b <<< 6 ||| c) &&& (0xfff : BitVec 32) := by
    intro a b c
    have hmask : (0xffff : BitVec 32) &&& (0xfff : BitVec 32) = (0xfff : BitVec 32) := by decide
    have hout : a <<< 12 &&& (0xfff : BitVec 32) = 0 := by
      apply BitVec.eq_of_toNat_eq
      rw [BitVec.toNat_and, BitVec.toNat_shiftLeft, Nat.shiftLeft_eq]
      show a.toNat * 2 ^ 12 % 2 ^ 32 &&& (2 ^ 12 - 1) = 0
      rw [Nat.and_two_pow_sub_one_eq_mod]
      omega
    rw [BitVec.and_assoc, hmask, BitVec.or_assoc, BitVec.and_or_distrib_right, hout]
    exact BitVec.zero_or
  simp only [given, hcrc, hlow, h 1 (by decide), h 2 (by decide)]

/-- What a packet delivers lies before the block check. -/
lemma checked_front {p p' : List Byte} {i : ℕ} {rln : ℤ} {j : ℕ} (hj : (rln + (i : ℤ)).toNat = j)
    (hrln : 0 ≤ rln) (hi : 4 ≤ i) (h : p'.take j = p.take j) :
    p'.getD 3 0 = p.getD 3 0 ∧ p'.getD 2 0 = p.getD 2 0 ∧
      (p'.drop i).take rln.toNat = (p.drop i).take rln.toNat := by
  have hget : ∀ k, k < j → p'.getD k 0 = p.getD k 0 := by
    intro k hk
    rw [List.getD_eq_getElem?_getD, List.getD_eq_getElem?_getD, ← List.getElem?_take_of_lt hk,
      ← List.getElem?_take_of_lt (l := p) hk, h]
  refine ⟨hget 3 (by omega), hget 2 (by omega), ?_⟩
  have hsum : i + rln.toNat = j := by omega
  rw [List.take_drop, List.take_drop, hsum, h]

/-- The two packets differ at the positions `k` and `k + 1` at most. -/
structure Damaged (k : ℕ) (p p' : List Byte) : Prop where
  length : p'.length = p.length
  other : ∀ i, i ≠ k → i ≠ k + 1 → p'[i]? = p[i]?

lemma take_of_getElem? {p p' : List Byte} {j : ℕ} (h : ∀ i < j, p'[i]? = p[i]?) :
    p'.take j = p.take j := by
  ext1 i
  rw [List.getElem?_take, List.getElem?_take]
  by_cases hi : i < j
  · rw [if_pos hi, if_pos hi, h i hi]
  · rw [if_neg hi, if_neg hi]

lemma Stripped.drop_take {parity : Option Parity} {p : List Byte} (h : Stripped parity p)
    (i j : ℕ) : Stripped parity ((p.drop i).take j) := fun c hc =>
  h c (List.mem_of_mem_drop (List.mem_of_mem_take hc))

section Damage

variable {p p' : List Byte} {j k : ℕ}

lemma Damaged.take (h : Damaged k p p') : p'.take k = p.take k :=
  take_of_getElem? fun i hi => h.other i (by omega) (by omega)

lemma Damaged.drop (h : Damaged k p p') {i : ℕ} (hi : k + 2 ≤ i) : p'.drop i = p.drop i := by
  ext1 m
  rw [List.getElem?_drop, List.getElem?_drop]
  exact h.other _ (by omega) (by omega)

/-- What is covered by the check falls into two parts at the damage. -/
lemma cover_eq (q : List Byte) (hk : 1 ≤ k) (hkj : k < j) (hj : j ≤ q.length) :
    (q.drop 1).take (j - 1) = (q.take k).drop 1 ++ (q.drop k).take (j - k) := by
  have hsplit : q.take j = q.take k ++ (q.drop k).take (j - k) := by
    rw [← List.take_append_drop k (q.take j), List.take_take, Nat.min_eq_left hkj.le,
      List.drop_take]
  have hlong : 1 ≤ (q.take k).length := by
    rw [List.length_take]
    omega
  rw [← List.drop_append_of_le_length hlong, ← hsplit, List.drop_take]

/-- A position whose characters are the same. -/
lemma getElem?_of_getD {i : ℕ} (h : Damaged k p p') (hi : i < p.length)
    (hsame : p'.getD i 0 = p.getD i 0) : p'[i]? = p[i]? := by
  have hi' : i < p'.length := h.length ▸ hi
  rw [List.getElem?_eq_getElem hi, List.getElem?_eq_getElem hi', ← List.getD_eq_getElem p' 0,
    ← List.getD_eq_getElem p 0, hsame]

/-- The check value of what is covered. -/
lemma computed_eq (hcrc : l.bctu = 3) (hp : Stripped l.parity p) :
    l.computed ((p.drop 1).take (j - 1)) =
      ((p.drop 1).take (j - 1)).foldl (crcStep none) 0 := by
  simp only [computed, hcrc]
  exact chk3_stripped (hp.drop_take 1 (j - 1))

lemma isCrc_foldl (s : List Byte) : IsCrc (s.foldl (crcStep none) 0) :=
  @foldl_keeps ℕ Byte (crcStep none) IsCrc (fun _ a hx => crcStep_lt none hx a) 0 isCrc_zero s

/-- Damage before the block check does not go with the check. -/
lemma front_of_inside (h : Damaged k p p') (hk : 1 ≤ k) (hkj : k + 1 < j) (hj : j ≤ p.length)
    (hvalue : ((p'.drop 1).take (j - 1)).foldl (crcStep none) 0 =
      ((p.drop 1).take (j - 1)).foldl (crcStep none) 0) : p'.take j = p.take j := by
  have hback : ∀ {q : List Byte}, q.length = p.length → (q.drop k).take (j - k) =
      q.getD k 0 :: q.getD (k + 1) 0 :: (q.drop (k + 2)).take (j - k - 2) := by
    intro q hq
    have hk₀ : k < q.length := by omega
    have hk₁ : k + 1 < q.length := by omega
    obtain ⟨m, hm⟩ : ∃ m, j - k = m + 2 := ⟨j - k - 2, by omega⟩
    rw [List.drop_eq_getElem_cons hk₀, List.drop_eq_getElem_cons hk₁, hm, List.take_succ_cons,
      List.take_succ_cons, List.getD_eq_getElem _ _ hk₀, List.getD_eq_getElem _ _ hk₁,
      Nat.add_sub_cancel]
  rw [cover_eq p hk (by omega) hj, cover_eq p' hk (by omega) (h.length ▸ hj), hback rfl,
    hback h.length, h.take, h.drop le_rfl] at hvalue
  obtain ⟨ha, hb⟩ := foldl_tells (P := IsCrc) (fun _ a hx => crcStep_lt none hx a)
    (fun _ _ _ hx hy => crcStep_injective hx hy) (fun _ _ _ _ _ _ => crcStep_tells)
    isCrc_zero hvalue
  refine take_of_getElem? fun i hi => ?_
  by_cases hik : i = k
  · subst hik
    exact getElem?_of_getD h (by omega) ha
  · by_cases hik' : i = k + 1
    · subst hik'
      exact getElem?_of_getD h (by omega) hb
    · exact h.other i hik hik'

/-- Nor does damage to the last character before the check and the first of the check. -/
lemma front_of_edge (h : Damaged k p p') (hk : 1 ≤ k) (hkj : k + 1 = j) (hj : j ≤ p.length)
    (hvalue : ((p'.drop 1).take (j - 1)).foldl (crcStep none) 0 % 4096 =
      ((p.drop 1).take (j - 1)).foldl (crcStep none) 0 % 4096) : p'.take j = p.take j := by
  have hback : ∀ {q : List Byte}, q.length = p.length → (q.drop k).take (j - k) = [q.getD k 0] := by
    intro q hq
    have hk₀ : k < q.length := by omega
    have hone : j - k = 0 + 1 := by omega
    rw [List.drop_eq_getElem_cons hk₀, hone, List.take_succ_cons, List.take_zero,
      List.getD_eq_getElem _ _ hk₀]
  rw [cover_eq p hk (by omega) hj, cover_eq p' hk (by omega) (h.length ▸ hj), hback rfl,
    hback h.length, h.take, List.foldl_append, List.foldl_append] at hvalue
  have ha := crcStep_last hvalue
  refine take_of_getElem? fun i hi => ?_
  by_cases hik : i = k
  · subst hik
    exact getElem?_of_getD h (by omega) ha
  · exact h.other i hik (by omega)

/-- Damaged packets with a right check have the right characters before it. -/
lemma front_of_check (hcrc : l.bctu = 3) (h : Damaged k p p') (hp : Stripped l.parity p)
    (hp' : Stripped l.parity p') (hj : j + 3 ≤ p.length) (hk : 1 ≤ k)
    (hcheck : l.given ((p.drop j).take l.bctu) =
      BitVec.ofNat 32 (l.computed ((p.drop 1).take (j - 1))))
    (hcheck' : l.given ((p'.drop j).take l.bctu) =
      BitVec.ofNat 32 (l.computed ((p'.drop 1).take (j - 1)))) : p'.take j = p.take j := by
  rw [computed_eq hcrc hp] at hcheck
  rw [computed_eq hcrc hp'] at hcheck'
  rcases Nat.lt_trichotomy (k + 1) j with hkj | hkj | hkj
  · refine front_of_inside h hk hkj (by omega) ?_
    rw [h.drop (show k + 2 ≤ j by omega), hcheck] at hcheck'
    have hvalue := congrArg BitVec.toNat hcheck'
    have hlt := isCrc_foldl ((p.drop 1).take (j - 1))
    have hlt' := isCrc_foldl ((p'.drop 1).take (j - 1))
    rw [BitVec.toNat_ofNat, BitVec.toNat_ofNat, Nat.mod_eq_of_lt (hlt.trans (by decide)),
      Nat.mod_eq_of_lt (hlt'.trans (by decide))] at hvalue
    exact hvalue.symm
  · refine front_of_edge h hk hkj (by omega) ?_
    have hlow := given_low hcrc ((p'.drop j).take l.bctu) ((p.drop j).take l.bctu) fun i hi => by
      rw [List.getD_eq_getElem?_getD, List.getD_eq_getElem?_getD]
      refine congrArg (Option.getD · 0) ?_
      rw [List.getElem?_take, List.getElem?_take, List.getElem?_drop, List.getElem?_drop,
        h.other (j + i) (by omega) (by omega)]
    have hmask : ∀ m, (BitVec.ofNat 32 m &&& (0xfff : BitVec 32)).toNat = m % 4096 := by
      intro m
      rw [BitVec.toNat_and, BitVec.toNat_ofNat]
      show m % 2 ^ 32 &&& (2 ^ 12 - 1) = m % 4096
      rw [Nat.and_two_pow_sub_one_eq_mod]
      omega
    rw [hcheck, hcheck'] at hlow
    have hvalue := congrArg BitVec.toNat hlow
    rwa [hmask, hmask] at hvalue
  · exact take_of_getElem? fun i hi => h.other i (by omega) (by omega)

lemma checked_damaged (hcrc : l.bctu = 3) (h : Damaged k p p') (hp : Stripped l.parity p)
    (hp' : Stripped l.parity p') (hk : 1 ≤ k) {i : ℕ} {rln : ℤ} (hrln : 0 ≤ rln) (hi : 4 ≤ i)
    (hj : (rln + (i : ℤ)).toNat + 3 ≤ p.length) {x : Packet} (hx : l.checked p i rln = some x) :
    l.checked p' i rln = none ∨ l.checked p' i rln = some x := by
  simp only [checked] at hx ⊢
  split at hx
  · rename_i hcheck
    split
    · rename_i hcheck'
      have hfront := front_of_check hcrc h hp hp' hj hk hcheck hcheck'
      obtain ⟨htype, hseq, hdata⟩ := checked_front rfl hrln hi hfront
      exact .inr (by rw [htype, hseq, hdata, hx])
    · exact .inl rfl
  · cases hx

/-- What is sent has no parity of its own. -/
lemma stripped_sent (h : l.Fits max type n d) (hmax : max ≤ 9020) {pad : List Byte} :
    Stripped l.parity (SOH :: l.content type n d ++ l.check pad (l.content type n d)) := by
  have htochar : ∀ {m : ℕ}, m ≤ 94 → l.parity.isSome = true → tochar m < 128 :=
    fun hm => (clear_tochar hm : Clear l.parity _).2
  have hnum : l.parity.isSome = true → tochar n < 128 :=
    htochar (h.number.le.trans (by decide))
  have hdata : ∀ c ∈ d, l.parity.isSome = true → c < 128 := fun c hc => (h.data c hc).2
  have hroom := h.room
  intro c hc hpar
  rw [List.cons_append, List.mem_cons, List.mem_append] at hc
  rcases hc with rfl | hc | hc
  · decide
  · by_cases hlong : 94 < d.length + l.bctu + 2
    · rw [content_long hlong, header] at hc
      simp only [List.append_assoc, List.mem_append, List.mem_cons, List.not_mem_nil,
        or_false] at hc
      rcases hc with (rfl | rfl | rfl | rfl | rfl) | rfl | hc
      · exact htochar (Nat.zero_le 94) hpar
      · exact hnum hpar
      · exact h.type.2 hpar
      · exact htochar (by omega) hpar
      · exact htochar (by omega) hpar
      · exact htochar ((chk1_lt _ _).le.trans (by decide)) hpar
      · exact hdata c hc hpar
    · rw [content_short hlong] at hc
      simp only [List.mem_cons] at hc
      rcases hc with rfl | rfl | rfl | hc
      · exact htochar (by omega) hpar
      · exact hnum hpar
      · exact h.type.2 hpar
      · exact hdata c hc hpar
  · exact (clear_check l _ _ c hc).2 hpar

/-- With the 16-bit block check, damage to two neighbouring characters behind the length is seen,
or does not matter: the packet is refused, or what it delivers is what was sent. -/
theorem damage_seen (hl : l.Works) (hmax : max ≤ 9020) (hcrc : l.bctu = 3)
    (hfits : l.Fits max type n d)
    (h : Damaged k (SOH :: l.content type n d ++
      l.check (List.replicate l.spadn l.spadc) (l.content type n d)) p')
    (hp' : Stripped l.parity p') (hk : 2 ≤ k)
    (hlength : 94 < d.length + l.bctu + 2 → k = 2 ∨ 6 ≤ k) :
    l.rpacket p' = none ∨ l.rpacket p' = some ⟨type, n, d⟩ := by
  have hsent := rpacket_spacket hl hmax hfits
  have hsound : ¬ l.Overflows (l.content type n d) := fun hover => by
    have := hover.1
    omega
  rw [if_neg hsound] at hsent
  obtain ⟨check, hcheck⟩ : ∃ check,
      l.check (List.replicate l.spadn l.spadc) (l.content type n d) = check := ⟨_, rfl⟩
  have hthree : check.length = l.bctu := hcheck ▸ length_check hl.bctu
  rw [hcheck] at h hsent
  have hroom := hfits.room
  have hlen' : p'.length = (SOH :: l.content type n d ++ check).length := h.length
  have hstripped : Stripped l.parity (SOH :: l.content type n d ++ check) :=
    hcheck ▸ stripped_sent hfits hmax
  have hdelivered : ∀ i : ℕ, 4 ≤ i →
      i + d.length + 3 = (SOH :: l.content type n d ++ check).length →
      l.checked (SOH :: l.content type n d ++ check) i d.length = some ⟨type, n, d⟩ →
      l.checked p' i d.length = none ∨ l.checked p' i d.length = some ⟨type, n, d⟩ := by
    intro i hi hlast hchecked
    refine checked_damaged hcrc h hstripped hp' (by omega) (Int.natCast_nonneg _) hi ?_ hchecked
    omega
  by_cases hlong : 94 < d.length + l.bctu + 2
  · have hcontent : l.content type n d = _ := content_long hlong
    rw [hcontent] at h hsent hlen' hdelivered
    have hsame : ∀ i, i ≠ k → i ≠ k + 1 → p'.getD i 0 = (SOH :: (l.header type n d ++
        [tochar (chk1 l.parity (l.header type n d))] ++ d) ++ check).getD i 0 := fun i hi hi' => by
      rw [List.getD_eq_getElem?_getD, List.getD_eq_getElem?_getD, h.other i hi hi']
    have hk' := hlength hlong
    rw [rpacket_long (by simp [header]) (by omega) rfl rfl rfl] at hsent
    split at hsent
    · cases hsent
    · rw [rpacket_long (by rw [hlen']; simp [header]) (by omega) (hsame 1 (by omega) (by omega))
        (hsame 4 (by omega) (by omega)) (hsame 5 (by omega) (by omega))]
      split
      · exact .inl rfl
      · exact hdelivered 7 (by decide) (by simp [header, hthree, hcrc]; omega) hsent
  · have hcontent : l.content type n d = _ := content_short hlong
    rw [hcontent] at h hsent hlen' hdelivered
    have hsame : p'.getD 1 0 = tochar (d.length + l.bctu + 2) := by
      rw [List.getD_eq_getElem?_getD, h.other 1 (by omega) (by omega)]
      rfl
    rw [rpacket_short hlong (by simp [hthree]; omega) rfl hl.bctu.1] at hsent
    rw [rpacket_short hlong (by rw [hlen']; simp [hthree]; omega) hsame hl.bctu.1]
    exact hdelivered 4 le_rfl (by simp [hthree, hcrc]; omega) hsent

lemma damaged_set (p : List Byte) (k : ℕ) (a : Byte) : Damaged k p (p.set k a) where
  length := List.length_set
  other := fun _ hi _ => List.getElem?_set_ne (Ne.symm hi)

/-- A bit of the data is turned over. -/
theorem damage_seen_bit :
    plain.rpacket ((SOH :: plain.content 68 5 [65, 66, 67] ++ plain.check
      (List.replicate plain.spadn plain.spadc) (plain.content 68 5 [65, 66, 67])).set 5 98) = none ∨
    plain.rpacket ((SOH :: plain.content 68 5 [65, 66, 67] ++ plain.check
      (List.replicate plain.spadn plain.spadc) (plain.content 68 5 [65, 66, 67])).set 5 98) =
        some ⟨68, 5, [65, 66, 67]⟩ :=
  @damage_seen plain 68 5 9000 _ _ 5 works_plain (by decide) rfl
    ⟨by decide, by decide +kernel, by decide +kernel, by decide +kernel⟩ (damaged_set _ 5 98)
    (fun _ _ h => absurd h (by decide)) (by decide) (fun h => absurd h (by decide))

end Damage

end Line

end EspLinux.Kermit
