import EspLinux.Ccd.Text

/-!
# What the text output holds

`put_int` stores the whole numeral but says that it is one character long, so the next piece
of text is stored over all its digits but the first.
-/

namespace EspLinux.Ccd

open EspLinux.Lib

variable {v n : ℕ} {x : Client} {l : List UInt8}

/-! ## Numerals -/

lemma int_digits_of_lt (h : v < 10) (n : ℕ) : int_digits (n + 1) v = [digit v] := by
  have hdiv : v / 10 = 0 := Nat.div_eq_of_lt h
  rw [int_digits, if_pos hdiv, Nat.mod_eq_of_lt h]
  rfl

lemma int_digits_of_ge (h : 10 ≤ v) (n : ℕ) :
    int_digits (n + 1) v = digit (v % 10) :: int_digits n (v / 10) := by
  have hdiv : ¬ v / 10 = 0 := by omega
  rw [int_digits, if_neg hdiv]
  rfl

/-- The stored digits are those of the value. -/
lemma scan_int_digits (h : v < 10 ^ (n + 1)) :
    scan none ((int_digits (n + 1) v).reverse ++ l) = scan (some v) l := by
  induction n generalizing v l with
  | zero =>
    rw [int_digits_of_lt (by simpa using h)]
    exact scan_none_digit (by simpa using h)
  | succ n ih =>
    rcases Nat.lt_or_ge v 10 with hlt | hge
    · rw [int_digits_of_lt hlt]
      exact scan_none_digit hlt
    · have hmod : v % 10 < 10 := Nat.mod_lt _ (by norm_num)
      have hdiv : v / 10 < 10 ^ (n + 1) := by
        rw [Nat.div_lt_iff_lt_mul (by norm_num), ← pow_succ]
        exact h
      rw [int_digits_of_ge hge, List.reverse_cons, List.append_assoc, List.singleton_append,
        ih hdiv, scan_some_digit hmod, Nat.div_add_mod]

/-- `put_int` stores the numeral of every 32-bit value. -/
lemma numbers_int_text (h : v < 2 ^ 32) : numbers (int_text v) = [v] := by
  have := scan_int_digits (n := 9) (l := []) (show v < 10 ^ (9 + 1) by omega)
  rw [List.append_nil] at this
  exact this

/-- A small value has few digits. -/
lemma length_int_digits (h : v < 10 ^ (n + 1)) (room : ℕ) : (int_digits room v).length ≤ n + 1 := by
  induction n generalizing v room with
  | zero =>
    cases room with
    | zero => exact Nat.zero_le _
    | succ room =>
      rw [int_digits_of_lt (by simpa using h)]
      exact le_refl 1
  | succ n ih =>
    cases room with
    | zero => exact Nat.zero_le _
    | succ room =>
      rcases Nat.lt_or_ge v 10 with hlt | hge
      · rw [int_digits_of_lt hlt, List.length_singleton]
        omega
      · have hdiv : v / 10 < 10 ^ (n + 1) := by
          rw [Nat.div_lt_iff_lt_mul (by norm_num), ← pow_succ]
          exact h
        rw [int_digits_of_ge hge, List.length_cons]
        exact Nat.succ_le_succ (ih hdiv room)

/-- The length that `put_int` returns is right for one digit only. -/
lemma length_int_text : (int_text v).length = 1 ↔ v < 10 := by
  rw [int_text, List.length_reverse]
  constructor
  · intro h
    by_contra hge
    rw [int_digits_of_ge (Nat.not_lt.mp hge), List.length_cons] at h
    have hnil : int_digits 9 (v / 10) = [] := List.eq_nil_of_length_eq_zero (by omega)
    simp [int_digits] at hnil
  · intro h
    rw [int_digits_of_lt h]
    rfl

lemma int_digits_head (v n : ℕ) :
    ∃ d < 10, ∃ l, (int_digits (n + 1) v).reverse = digit d :: l ∧ (v < 10 → d = v) := by
  induction n generalizing v with
  | zero =>
    refine ⟨v % 10, Nat.mod_lt _ (by norm_num), [], ?_, Nat.mod_eq_of_lt⟩
    rw [int_digits]
    split <;> rfl
  | succ n ih =>
    rcases Nat.lt_or_ge v 10 with hlt | hge
    · exact ⟨v, hlt, [], by rw [int_digits_of_lt hlt]; rfl, fun _ => rfl⟩
    · obtain ⟨d, hd, l, hl, -⟩ := ih (v / 10)
      refine ⟨d, hd, l ++ [digit (v % 10)], ?_, fun h => by omega⟩
      rw [int_digits_of_ge hge, List.reverse_cons, hl]
      rfl

/-- The first digit of the numeral, which is what stays of it. -/
def lead (v : ℕ) : ℕ := ((int_text v).headD 0).toNat - 48

lemma lead_spec (v : ℕ) :
    lead v < 10 ∧ (∃ l, int_text v = digit (lead v) :: l) ∧ (lead v = v ↔ v < 10) := by
  obtain ⟨d, hd, l, hl, hv⟩ := int_digits_head v 9
  have hlead : lead v = d := by
    rw [lead, int_text, hl, List.headD_cons, digit_toNat hd, Nat.add_sub_cancel]
  rw [hlead]
  refine ⟨hd, ⟨l, hl⟩, fun h => h ▸ hd, hv⟩

lemma lead_lt (v : ℕ) : lead v < 10 := (lead_spec v).1

lemma lead_eq_iff : lead v = v ↔ v < 10 := (lead_spec v).2.2

/-! ## The output as a whole -/

lemma buffered_emit : buffered (x.emit l) = buffered x ++ l := by
  have := slice_put_append (m := x.out_buf) (p := 0) (n := x.out_buf_len) (l := l)
  rwa [Nat.zero_add] at this

/-- One digit of the numeral is left. -/
lemma buffered_emit_int : buffered (x.emit_int v) = buffered x ++ [digit (lead v)] := by
  obtain ⟨-, ⟨t, ht⟩, -⟩ := lead_spec v
  show slice (put x.out_buf x.out_buf_len (int_text v)) 0 (x.out_buf_len + 1) = _
  rw [slice_add, slice_put_before (by omega), Nat.zero_add, ht]
  congr 1
  rw [slice, List.range_one, List.map_singleton, put_of_mem (Nat.succ_pos _)]
  rfl

lemma buffered_emit_attrib (a : String) :
    buffered (x.emit_attrib a v)
      = buffered x ++ (chars " " ++ chars a ++ chars "=" ++ [digit (lead v)]) := by
  have htext : (chars " " ++ chars a ++ chars "=").length = (chars a).length + 2 := by
    simp [chars]
  obtain ⟨y, hy⟩ : ∃ y, y = x.emit (chars " " ++ chars a ++ chars "=") := ⟨_, rfl⟩
  have hsame : buffered (x.emit_attrib a v) = buffered (y.emit_int v) := by
    rw [hy]
    simp only [buffered, Client.emit_attrib, Client.emit_int, Client.emit, put_attrib, put_int, htext,
      Nat.add_assoc]
  rw [hsame, buffered_emit_int, hy, buffered_emit, List.append_assoc]

/-- The text `l` has been added to the output, and nothing has been stored from position
`lim` on. -/
structure Added (lim : ℕ) (l : List UInt8) (x y : Client) : Prop where
  bytes : buffered y = buffered x ++ l
  len : y.out_buf_len = x.out_buf_len + l.length
  mode : y.mode = x.mode
  size : y.out_buf_size = x.out_buf_size
  overrun : y.overrun = x.overrun
  frame : ∀ j, lim ≤ j → y.out_buf j = x.out_buf j

/-- Storing within the buffer overruns nothing. -/
lemma or_within {b : Bool} {size j : ℕ} (h : j ≤ size) : (b || decide (size < j)) = b := by
  rw [decide_eq_false (Nat.not_lt.mpr h), Bool.or_false]

namespace Added

variable {lim lim' : ℕ} {l' : List UInt8} {y w : Client}

lemma refl (lim : ℕ) (x : Client) : Added lim [] x x :=
  ⟨(List.append_nil _).symm, rfl, rfl, rfl, rfl, fun _ _ => rfl⟩

lemma mono (h : Added lim l x y) (hle : lim ≤ lim') : Added lim' l x y :=
  ⟨h.bytes, h.len, h.mode, h.size, h.overrun, fun j hj => h.frame j (hle.trans hj)⟩

lemma trans (h : Added lim l x y) (h' : Added lim l' y w) : Added lim (l ++ l') x w where
  bytes := by rw [h'.bytes, h.bytes, List.append_assoc]
  len := by rw [h'.len, h.len, List.length_append, Nat.add_assoc]
  mode := h'.mode.trans h.mode
  size := h'.size.trans h.size
  overrun := h'.overrun.trans h.overrun
  frame j hj := (h'.frame j hj).trans (h.frame j hj)

lemma emit (h : x.out_buf_len + l.length ≤ lim) (hlim : lim ≤ x.out_buf_size) :
    Added lim l x (x.emit l) where
  bytes := buffered_emit
  len := rfl
  mode := rfl
  size := rfl
  overrun := or_within (h.trans hlim)
  frame j hj := put_of_ge (by omega)

lemma emit_int (h : x.out_buf_len + (int_text v).length ≤ lim) (hlim : lim ≤ x.out_buf_size) :
    Added lim [digit (lead v)] x (x.emit_int v) where
  bytes := buffered_emit_int
  len := rfl
  mode := rfl
  size := rfl
  overrun := or_within (h.trans hlim)
  frame j hj := put_of_ge (by omega)

lemma emit_attrib {a : String}
    (h : x.out_buf_len + ((chars a).length + 2 + (int_text v).length) ≤ lim)
    (hlim : lim ≤ x.out_buf_size) :
    Added lim (chars " " ++ chars a ++ chars "=" ++ [digit (lead v)]) x (x.emit_attrib a v) where
  bytes := buffered_emit_attrib a
  len := by
    simp [Client.emit_attrib, put_attrib, put_int, chars]
  mode := rfl
  size := rfl
  overrun := or_within (h.trans hlim)
  frame j hj := by
    have htext : (chars " " ++ chars a ++ chars "=").length = (chars a).length + 2 := by
      simp [chars]
    simp only [Client.emit_attrib, put_attrib, put_int]
    rw [put_of_ge (by omega), put_of_ge (by omega)]

end Added

/-! ## The reply to a query -/

@[simp] lemma length_name (g : Geometry) : g.name.length = CCD_CCD_NAME_LEN := by
  have hle : ((g.id_string.takeWhile (· ≠ 0)).take CCD_CCD_NAME_LEN).length ≤ CCD_CCD_NAME_LEN :=
    List.length_take_le _ _
  rw [Geometry.name, List.length_append, List.length_replicate]
  omega

/-- The text of attributes, with the first digit of each value. -/
def attribs_text (l : List (String × ℕ)) : List UInt8 :=
  l.flatMap fun a => chars " " ++ chars a.1 ++ chars "=" ++ [digit (lead a.2)]

lemma buffered_attribs (l : List (String × ℕ)) (x : Client) :
    buffered (l.foldl (fun x a => x.emit_attrib a.1 a.2) x) = buffered x ++ attribs_text l := by
  induction l generalizing x with
  | nil => simp [attribs_text]
  | cons a l ih =>
    rw [List.foldl_cons, ih, buffered_emit_attrib, List.append_assoc]
    rfl

/-- The reply: the name, the attributes and the end of the tag. -/
lemma text_query_spec {g : Geometry} {y : Client} (h : text_query g x = some y) :
    ∃ pre, pre.length = 43 ∧
      buffered y = buffered x ++ (pre ++ (attribs_text (query_attribs g) ++ chars "/>\n")) := by
  unfold text_query at h
  split at h
  · cases h
    refine ⟨chars "<CCDNAME=\"" ++ g.name ++ chars "\"", ?_, ?_⟩
    · simp [chars, CCD_CCD_NAME_LEN]
    · simp only [buffered_emit, buffered_attribs, List.append_assoc]
      rfl
  · cases h

/-- The string has no digits. -/
def digitless (s : String) : Bool := (chars s).all fun c => !isDigit c

lemma digitless.isDigit {s : String} (h : digitless s = true) : ∀ c ∈ chars s, isDigit c = false := by
  intro c hc
  have := List.all_eq_true.mp h c hc
  simpa using this

/-- The numbers of the attributes are the first digits. -/
lemma numbers_attribs {l : List (String × ℕ)} {b : UInt8} {rest : List UInt8}
    (hl : ∀ a ∈ l, digitless a.1 = true) (hb : isDigit b = false) :
    numbers (attribs_text l ++ b :: rest) = l.map (fun a => lead a.2) ++ numbers (b :: rest) := by
  induction l with
  | nil => rfl
  | cons a l ih =>
    have hpre : ∀ c ∈ chars " " ++ chars a.1 ++ chars "=", isDigit c = false := by
      intro c hc
      rw [List.mem_append, List.mem_append] at hc
      rcases hc with (hc | hc) | hc
      · exact digitless.isDigit (s := " ") (by decide) c hc
      · exact digitless.isDigit (hl a List.mem_cons_self) c hc
      · exact digitless.isDigit (s := "=") (by decide) c hc
    have hnext : ∃ b' rest', attribs_text l ++ b :: rest = b' :: rest' ∧ isDigit b' = false := by
      cases l with
      | nil => exact ⟨b, rest, rfl, hb⟩
      | cons a' l => exact ⟨32, _, rfl, by decide⟩
    obtain ⟨b', rest', hrest, hb'⟩ := hnext
    have htext : attribs_text (a :: l) ++ b :: rest
        = (chars " " ++ chars a.1 ++ chars "=") ++ (digit (lead a.2) :: (b' :: rest')) := by
      rw [← hrest]
      simp [attribs_text]
    rw [htext, numbers_append hpre, numbers, scan_none_digit (lead_lt _), scan_some_stop hb', ← hrest,
      ih fun a' ha' => hl a' (List.mem_cons_of_mem a ha')]
    rfl

/-- What a client reads off the reply: the first digits of the parameters. -/
lemma numbers_query {g : Geometry} {y : Client} (h : text_query g x = some y) :
    numbers ((buffered y).drop (x.out_buf_len + 43))
      = (query_attribs g).map fun a => lead a.2 := by
  obtain ⟨pre, hpre, hy⟩ := text_query_spec h
  have hlen : (buffered x ++ pre).length = x.out_buf_len + 43 := by
    rw [List.length_append, hpre, buffered, length_slice]
  rw [hy, ← List.append_assoc, ← hlen, List.drop_left]
  have hnames : ∀ a ∈ query_attribs g, digitless a.1 = true := by
    have hall : ∀ w ∈ (query_attribs g).map Prod.fst, digitless w = true := by
      show ∀ w ∈ ["WIDTH", "HEIGHT", "PIX_WIDTH", "PIX_HEIGHT", "FIELDS", "DEPTH", "DAC", "COLOR",
        "CAPS"], digitless w = true
      decide
    exact fun a ha => hall a.1 (List.mem_map_of_mem ha)
  refine (@numbers_attribs _ 47 (chars ">\n") hnames (by decide)).trans ?_
  have hend : numbers (47 :: chars ">\n") = [] := by decide
  rw [hend, List.append_nil]

/-- A list of values is read back if and only if each has one digit. -/
lemma map_lead_eq_iff {α : Type*} (l : List α) (f g : α → ℕ)
    (hf : ∀ a ∈ l, lead (f a) = g a ↔ g a < 10) :
    l.map (fun a => lead (f a)) = l.map g ↔ ∀ a ∈ l, g a < 10 := by
  rw [List.map_inj_left]
  exact ⟨fun h a ha => (hf a ha).mp (h a ha), fun h a ha => (hf a ha).mpr (h a ha)⟩

/-- The nine parameters are read back if and only if each has one digit. -/
lemma query_round_trip {g : Geometry} {y : Client} (h : text_query g x = some y) :
    numbers ((buffered y).drop (x.out_buf_len + 43)) = (query_attribs g).map Prod.snd ↔
      ∀ a ∈ query_attribs g, a.2 < 10 := by
  rw [numbers_query h]
  exact map_lead_eq_iff _ _ _ fun a _ => lead_eq_iff

end EspLinux.Ccd
