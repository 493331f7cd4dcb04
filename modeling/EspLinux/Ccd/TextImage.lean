import EspLinux.Ccd.Reads
import EspLinux.Ccd.Reply

/-!
# Text images

The text of an image has a start tag, a line for each pixel and an end tag.  Each line holds
the first digit of the pixel's value.
-/

namespace EspLinux.Ccd

open EspLinux.Lib

/-! ## Pixels -/

/-- The values of the groups of `z` bytes of `data`, as `val` reads one. -/
def grid (val : (ℕ → UInt8) → ℕ → ℕ) (z : ℕ) (data : List UInt8) : List ℕ :=
  (List.range (data.length / z)).map fun j => val (fun n => data.getD n 0) (j * z)

/-- The value of `z` bytes, the lowest first. -/
def le_value (z : ℕ) (buf : ℕ → UInt8) (p : ℕ) : ℕ :=
  Nat.ofDigits 256 ((slice buf p z).map UInt8.toNat)

/-- The pixel values of a number of rows. -/
def pixels (z : ℕ) (data : List UInt8) : List ℕ := grid (le_value z) z data

/-- The values that the driver turns into text. -/
def shown (z : ℕ) (data : List UInt8) : List ℕ := grid (pixel_value z) z data

variable {z c : ℕ} {data data' : List UInt8}

/-- The value of a group depends on its bytes only. -/
lemma pixel_value_congr (hz : 0 < z) {f g : ℕ → UInt8} {p q : ℕ}
    (h : ∀ j < z, f (p + j) = g (q + j)) : pixel_value z f p = pixel_value z g q := by
  simp only [pixel_value]
  split
  · rw [h 0 (by omega), h 1 (by omega)]
  · split
    · rw [h 0 (by omega), h 1 (by omega), h 2 (by omega), h 3 (by omega)]
    · rw [h 0 hz]

lemma shown_append (h : data.length = c * z) :
    shown z (data ++ data') = shown z data ++ shown z data' := by
  rcases Nat.eq_zero_or_pos z with rfl | hz
  · simp [shown, grid]
  have hlen : (data ++ data').length / z = c + data'.length / z := by
    rw [List.length_append, h, Nat.add_comm, Nat.add_mul_div_right _ _ hz, Nat.add_comm]
  have hlen₁ : data.length / z = c := by
    rw [h, Nat.mul_div_cancel _ hz]
  unfold shown grid
  rw [hlen, hlen₁, List.range_add, List.map_append, List.map_map]
  congr 1
  · refine List.map_congr_left fun j hj => pixel_value_congr hz fun n hn => ?_
    have hlt : j * z + n < data.length := by
      have := Nat.mul_le_mul_right z (Nat.succ_le_of_lt (List.mem_range.mp hj))
      rw [Nat.succ_mul] at this
      omega
    exact List.getD_append _ _ _ _ hlt
  · refine List.map_congr_left fun j _ => ?_
    rw [Function.comp_apply]
    refine pixel_value_congr hz fun n _ => ?_
    have hge : (c + j) * z + n = data.length + (j * z + n) := by
      rw [h, Nat.add_mul, Nat.add_assoc]
    rw [hge, List.getD_append_right _ _ _ _ (by omega), Nat.add_sub_cancel_left]

/-- The driver looks at one byte of a pixel of other than two or four bytes. -/
lemma lead_pixel_value (hz : 0 < z) (f : ℕ → UInt8) (p : ℕ) :
    lead (pixel_value z f p) = le_value z f p ↔ le_value z f p < 10 := by
  have heq : le_value z f p < 10 → pixel_value z f p = le_value z f p := by
    intro h
    simp only [pixel_value, le_value, slice] at *
    split
    · subst z
      simp [List.range_succ, Nat.ofDigits]
    · split
      · subst z
        simp [List.range_succ, Nat.ofDigits]
        omega
      · obtain ⟨n, rfl⟩ : ∃ n, z = n + 1 := ⟨z - 1, by omega⟩
        rw [List.range_succ_eq_map, List.map_cons, List.map_cons, Nat.ofDigits_cons] at h ⊢
        omega
  constructor
  · intro h
    rw [← h]
    exact lead_lt _
  · intro h
    rw [heq h, lead_eq_iff]
    exact h

/-- The first digits of the values shown are the pixel values if these have one digit each. -/
lemma map_lead_shown (z : ℕ) (data : List UInt8) :
    (shown z data).map lead = pixels z data ↔ ∀ v ∈ pixels z data, v < 10 := by
  rcases Nat.eq_zero_or_pos z with rfl | hz
  · simp [shown, pixels, grid]
  · have := map_lead_eq_iff (List.range (data.length / z))
      (fun j => pixel_value z (fun n => data.getD n 0) (j * z))
      (fun j => le_value z (fun n => data.getD n 0) (j * z))
      (fun j _ => lead_pixel_value hz _ _)
    unfold shown pixels grid
    rw [List.map_map, List.forall_mem_map]
    exact this

/-! ## Lines -/

/-- The text of the pixels. -/
def lines (l : List ℕ) : List UInt8 := l.flatMap fun v => [digit (lead v)] ++ chars "\n"

/-- What is read off the lines: first digits. -/
lemma numbers_lines (l : List ℕ) (rest : List UInt8) :
    numbers (lines l ++ rest) = l.map lead ++ numbers rest := by
  induction l with
  | nil => rfl
  | cons v l ih =>
    have htext : lines (v :: l) ++ rest = digit (lead v) :: 10 :: (lines l ++ rest) := by
      simp [lines, chars]
    have hnl : ∀ b ∈ ([10] : List UInt8), isDigit b = false := by
      simp [isDigit]
    rw [htext, numbers, scan_none_digit (lead_lt v), scan_some_stop (by decide)]
    show lead v :: numbers ([10] ++ (lines l ++ rest)) = _
    rw [numbers_append hnl, ih]
    rfl

/-- The most digits of a value shown. -/
def pixel_digits (z : ℕ) : ℕ := if z = 2 then 5 else if z = 4 then 10 else 3

lemma length_pixel (z : ℕ) (f : ℕ → UInt8) (p : ℕ) :
    (int_text (pixel_value z f p)).length ≤ pixel_digits z := by
  have hbyte (j : ℕ) : (f j).toNat < 256 := UInt8.toNat_lt _
  have h₀ := hbyte (p + 0)
  have h₁ := hbyte (p + 1)
  have h₂ := hbyte (p + 2)
  have h₃ := hbyte (p + 3)
  rw [int_text, List.length_reverse]
  simp only [pixel_value, pixel_digits]
  split
  · exact length_int_digits (n := 4) (by omega) _
  · split
    · exact length_int_digits (n := 9) (by omega) _
    · exact length_int_digits (n := 2) (by omega) _

/-- The text of one pixel. -/
lemma added_pixel {x : Client} {p : ℕ}
    (hroom : x.out_buf_len + 2 + pixel_digits z ≤ p + z) (hp : p + z ≤ x.out_buf_size) :
    Added (p + z) (lines [pixel_value z x.out_buf p]) x
      ((x.emit_int (pixel_value z x.out_buf p)).emit (chars "\n")) := by
  have hlen := length_pixel z x.out_buf p
  have h₁ : Added (p + z) [digit (lead (pixel_value z x.out_buf p))] x
      (x.emit_int (pixel_value z x.out_buf p)) := .emit_int (by omega) hp
  have h₂ : Added (p + z) (chars "\n") (x.emit_int (pixel_value z x.out_buf p))
      ((x.emit_int (pixel_value z x.out_buf p)).emit (chars "\n")) := by
    refine .emit ?_ hp
    have : (chars "\n").length = 1 := rfl
    rw [h₁.len, List.length_singleton, this]
    omega
  have := h₁.trans h₂
  simpa [lines] using this

/-- The loop over the pixels of a row: the text grows towards the pixels, but does not reach
those that are still to come. -/
lemma text_pixels_spec {x : Client} {p : ℕ} (hz : 0 < z) (hdata : slice x.out_buf p (c * z) = data)
    (hroom : x.out_buf_len + 2 * c + pixel_digits z ≤ p + z) (hp : p + c * z ≤ x.out_buf_size)
    (hc : c * z < 2 ^ 32) :
    ∃ y, loop (text_pixels z) (c + 1) (c * z, p, x) = some y ∧
      Added x.out_buf_size (lines (shown z data)) x y := by
  induction c generalizing x p data with
  | zero =>
    refine ⟨x, loop_inr (if_pos (Nat.zero_mul z)), ?_⟩
    have : data = [] := by
      rw [← hdata, Nat.zero_mul, slice_zero]
    rw [this]
    simpa [shown, grid, lines] using Added.refl x.out_buf_size x
  | succ c ih =>
    rw [Nat.succ_mul] at hdata hp hc ⊢
    have hsub : u32 (c * z + z + 2 ^ 32 - z) = c * z := by
      unfold u32
      omega
    have hone := added_pixel (z := z) (x := x) (p := p) (by omega) (by omega)
    obtain ⟨x', hx'⟩ : ∃ x', x' = (x.emit_int (pixel_value z x.out_buf p)).emit (chars "\n") :=
      ⟨_, rfl⟩
    have hgo : text_pixels z (c * z + z, p, x) = .inl (c * z, p + z, x') := by
      have hne : ¬ c * z + z = 0 := by omega
      rw [text_pixels, if_neg hne, hsub, hx']
    rw [← hx'] at hone
    have hlen : x'.out_buf_len = x.out_buf_len + 2 := by
      rw [hone.len]
      rfl
    have hrest : slice x'.out_buf (p + z) (c * z) = slice x.out_buf (p + z) (c * z) :=
      slice_congr fun j hj _ => hone.frame j hj
    obtain ⟨y, hy, hadd⟩ := ih hrest (by omega) (by rw [hone.size]; omega) (by omega)
    refine ⟨y, ?_, ?_⟩
    · rw [loop_inl hgo]
      exact hy
    · have hsplit : data = slice x.out_buf p z ++ slice x.out_buf (p + z) (c * z) := by
        rw [← hdata, Nat.add_comm, slice_add]
      have hfirst : shown z (slice x.out_buf p z) = [pixel_value z x.out_buf p] := by
        rw [shown, grid, length_slice, Nat.div_self hz, List.range_one, List.map_singleton]
        refine congrArg (fun v => [v]) (pixel_value_congr hz fun j hj => ?_)
        have hlt : 0 * z + j < (slice x.out_buf p z).length := by
          rw [length_slice]
          omega
        rw [List.getD_eq_getElem _ _ hlt, getElem_slice, Nat.zero_mul, Nat.zero_add]
      rw [hone.size] at hadd
      have := (hone.mono (show p + z ≤ x.out_buf_size by omega)).trans hadd
      rw [hsplit, shown_append (c := 1) (by rw [length_slice, Nat.one_mul]), hfirst]
      simpa [lines] using this

@[simp] lemma length_lines (l : List ℕ) : (lines l).length = 2 * l.length := by
  induction l with
  | nil => rfl
  | cons v l ih =>
    rw [lines, List.flatMap_cons, List.length_append, List.length_cons]
    have hone : ([digit (lead v)] ++ chars "\n").length = 2 := rfl
    rw [hone]
    change 2 + (lines l).length = _
    rw [ih]
    omega

/-! ## Tags -/

/-- The start tag of an image. -/
def start_tag (p : Params) : List UInt8 :=
  chars "<" ++ chars "IMAGE" ++
    (chars " " ++ chars "WIDTH" ++ chars "=" ++ [digit (lead (p.width / p.xbin))]) ++
    (chars " " ++ chars "HEIGHT" ++ chars "=" ++ [digit (lead (p.height / p.ybin))]) ++
    chars ">\n"

/-- The end tag of an image. -/
def end_tag : List UInt8 := chars "</" ++ chars "IMAGE" ++ chars ">\n"

lemma length_start_tag (p : Params) : (start_tag p).length = 25 := rfl

lemma added_start {p : Params} {x : Client} (hx : x.out_buf_len = 0) (hsize : 32 ≤ x.out_buf_size)
    (hw : p.width / p.xbin < 2 ^ 16) (hh : p.height / p.ybin < 2 ^ 16) :
    Added 32 (start_tag p) x (text_start p x) := by
  have hdigits {v : ℕ} (hv : v < 2 ^ 16) : (int_text v).length ≤ 5 := by
    rw [int_text, List.length_reverse]
    exact length_int_digits (n := 4) (by omega) _
  have h₁ : Added 32 (chars "<") x (x.emit (chars "<")) :=
    .emit (by rw [hx]; decide) hsize
  have h₂ := h₁.trans (.emit (l := chars "IMAGE") (by rw [h₁.len, hx]; decide) (by rwa [h₁.size]))
  have h₃ := h₂.trans (.emit_attrib (a := "WIDTH") (v := p.width / p.xbin)
    (by
      have := hdigits hw
      have hlen : (chars "<" ++ chars "IMAGE").length = 6 := rfl
      have hname : (chars "WIDTH").length = 5 := rfl
      rw [h₂.len, hx, hlen, hname]
      omega) (by rwa [h₂.size]))
  have h₄ := h₃.trans (.emit_attrib (a := "HEIGHT") (v := p.height / p.ybin)
    (by
      have := hdigits hh
      have hlen : (chars "<" ++ chars "IMAGE" ++ (chars " " ++ chars "WIDTH" ++ chars "=" ++
        [digit (lead (p.width / p.xbin))])).length = 14 := rfl
      have hname : (chars "HEIGHT").length = 6 := rfl
      rw [h₃.len, hx, hlen, hname]
      omega) (by rwa [h₃.size]))
  refine h₄.trans (.emit ?_ (by rwa [h₄.size]))
  rw [h₄.len, hx]
  show 0 + 23 + 2 ≤ 32
  decide

lemma added_end {x : Client} (hsize : x.out_buf_len + 9 ≤ x.out_buf_size) :
    Added x.out_buf_size end_tag x (text_end x) := by
  have h₁ : Added x.out_buf_size (chars "</") x (x.emit (chars "</")) :=
    .emit (show x.out_buf_len + 2 ≤ _ by omega) le_rfl
  have h₂ := h₁.trans (.emit (l := chars "IMAGE") (by
    rw [h₁.len]
    show x.out_buf_len + 2 + 5 ≤ _
    omega) (by rw [h₁.size]))
  refine h₂.trans (.emit ?_ (by rw [h₂.size]))
  rw [h₂.len]
  show x.out_buf_len + 7 + 2 ≤ _
  omega

/-! ## Reads -/

/-- The client's record as far as text reads depend on it. -/
structure TextClient (g : Geometry) (x : Client) : Prop where
  mode : x.mode = .text
  size : x.out_buf_size = out_buf_size g .text
  overrun : x.overrun = false

lemma TextClient.deliver {g : Geometry} (x : Client) (n : ℕ) (h : TextClient g x) :
    TextClient g (x.deliver n).1 :=
  ⟨h.mode, h.size, h.overrun⟩

lemma TextClient.of_added {g : Geometry} {lim : ℕ} {l : List UInt8} {x y : Client}
    (h : TextClient g x) (ha : Added lim l x y) : TextClient g y :=
  ⟨ha.mode.trans h.mode, ha.size.trans h.size, ha.overrun.trans h.overrun⟩

/-- The size of the client's buffer does not overflow, and the buffer has room for the
tags. -/
structure Roomy (g : Geometry) : Prop where
  lt : g.width * g.sizeof_pixel * 3 + g.width + 32 < 2 ^ 32
  tags : 34 ≤ g.width * g.sizeof_pixel * 3 + g.width + 32

/-- What the buffer of a camera has room for, when a row has `a` pixels. -/
lemma Roomy.bounds {g : Geometry} (h : Roomy g) {a : ℕ} (ha : a ≤ g.width) :
    a * g.sizeof_pixel < 2 ^ 32 ∧ 32 ≤ out_buf_size g .text ∧
      25 + a * g.sizeof_pixel + g.sizeof_pixel ≤ out_buf_size g .text ∧
      (0 < g.sizeof_pixel → 25 + 2 * a + pixel_digits g.sizeof_pixel
        ≤ out_buf_size g .text - a * g.sizeof_pixel ∧ 25 + 2 * a + 9 ≤ out_buf_size g .text) ∧
      34 ≤ out_buf_size g .text := by
  have hsize : out_buf_size g .text = g.width * g.sizeof_pixel * 3 + g.width + 32 :=
    Nat.mod_eq_of_lt h.lt
  have hrow : a * g.sizeof_pixel ≤ g.width * g.sizeof_pixel := Nat.mul_le_mul_right _ ha
  have hwidth : 0 < g.width := by
    rcases Nat.eq_zero_or_pos g.width with hz | hpos
    · have := h.tags
      rw [hz] at this
      omega
    · exact hpos
  have hpix : g.sizeof_pixel ≤ g.width * g.sizeof_pixel := Nat.le_mul_of_pos_left _ hwidth
  have h₁ := h.lt
  have h₂ := h.tags
  rw [hsize]
  refine ⟨by omega, by omega, by omega, fun hz => ?_, h₂⟩
  have hle : g.width ≤ g.width * g.sizeof_pixel := Nat.le_mul_of_pos_right _ hz
  unfold pixel_digits
  split
  · omega
  · split
    · rename_i h4
      rw [h4] at hrow hle hpix h₁ ⊢
      omega
    · omega

/-- The bytes for the first `r` rows when the device is at `row`.  The end tag is missing when
the next exposure is latched at once. -/
def text_bytes (z : ℕ) (p : Params) (row r : ℕ) (data b : List UInt8) : Prop :=
  r = 0 ∧ b = [] ∨ 0 < r ∧ b = start_tag p ++ (lines (shown z data) ++
    if row = CCD_END_FRAME_LOAD then end_tag else [])

variable (k : Kernel) (m : Mini)

/-- The text of the rows that have been fetched. -/
lemma text_row {g : Geometry} {p : Params} {x : Client} (h : Roomy g) (hx : TextClient g x)
    (ha : p.width / p.xbin ≤ g.width)
    (hlen : x.out_buf_len ≤ 25) (hdata : data.length = p.width / p.xbin * g.sizeof_pixel) :
    ∃ y, loop (text_pixels g.sizeof_pixel) (p.width / p.xbin + 1)
        (row_bytes g p, out_buf_size g .text - row_bytes g p - g.sizeof_pixel,
          store_row g p data x) = some y ∧
      TextClient g y ∧ buffered y = buffered x ++ lines (shown g.sizeof_pixel data) ∧
      y.out_buf_len + 9 ≤ out_buf_size g .text := by
  obtain ⟨hlt, h32, hrow, hpix, htags⟩ := h.bounds ha
  have hrb : row_bytes g p = p.width / p.xbin * g.sizeof_pixel := Nat.mod_eq_of_lt hlt
  obtain ⟨x', hx'⟩ : ∃ x', x' = store_row g p data x := ⟨_, rfl⟩
  have hclient : TextClient g x' := by
    refine ⟨by rw [hx']; exact hx.mode, by rw [hx']; exact hx.size, ?_⟩
    rw [hx']
    refine (or_within ?_).trans hx.overrun
    rw [hx.size, hrb]
    omega
  have hbuf : buffered x' = buffered x := by
    rw [hx']
    refine slice_put_before ?_
    show 0 + x.out_buf_len ≤ _
    rw [hx.size, hrb]
    omega
  have hlen' : x'.out_buf_len = x.out_buf_len := by rw [hx']; rfl
  have hslice : slice x'.out_buf (out_buf_size g .text - row_bytes g p - g.sizeof_pixel)
      (p.width / p.xbin * g.sizeof_pixel) = data := by
    rw [hx', ← hdata, ← hx.size]
    exact slice_put_self
  rw [← hx', hrb]
  rw [hrb] at hslice
  rcases Nat.eq_zero_or_pos g.sizeof_pixel with hz | hz
  · have hnil : data = [] := by
      rw [hz, Nat.mul_zero] at hdata
      exact List.eq_nil_of_length_eq_zero hdata
    refine ⟨x', loop_inr (if_pos (by rw [hz, Nat.mul_zero])), hclient, ?_, by omega⟩
    rw [hbuf, hnil, hz]
    simp [shown, grid, lines]
  · obtain ⟨hp₁, hp₂⟩ := hpix hz
    obtain ⟨y, hy, hadd⟩ := text_pixels_spec hz hslice (by omega) (by rw [hclient.size]; omega) hlt
    refine ⟨y, hy, hclient.of_added hadd, ?_, ?_⟩
    · rw [hadd.bytes, hbuf]
    · have hcount : (shown g.sizeof_pixel data).length = p.width / p.xbin := by
        rw [shown, grid, List.length_map, List.length_range, hdata, Nat.mul_div_cancel _ hz]
      rw [hadd.len, length_lines, hcount]
      omega

variable {k m} {s : State} {i : ℕ} {p : Params} {rest : List (ℕ × Params)}

/-- A read in text mode. -/
lemma serves_text {count : ℕ} (hp : Plain s.geometry p) (hc : p.complete = 1)
    (hroom : Roomy s.geometry) (ha : p.width / p.xbin ≤ s.geometry.width)
    (ha' : p.width / p.xbin < 2 ^ 16) (hpos : 0 < count) (hcount : count ≤ MAX_RW_COUNT) :
    Serves k m (TextClient s.geometry) (text_bytes s.geometry.sizeof_pixel p) s i p rest count := by
  intro r t h hzero
  obtain ⟨b, hb, hq⟩ := h.linked
  have hread := ccd_read_first k m hb hq hc h.registered hzero hpos hcount
  rw [h.client.mode, read_mode] at hread
  obtain ⟨e, he, rfl, hel, -⟩ := hb.head_cell hq
  obtain ⟨x, hx⟩ : ∃ x, x = t.clients e.client := ⟨_, rfl⟩
  have hclient : TextClient s.geometry x := hx ▸ h.client
  rw [← hx] at hzero
  -- the start tag
  obtain ⟨x₁, hx₁⟩ : ∃ x₁, x₁ = if t.current_read_row = CCD_START_FRAME_LOAD then
    text_start e.toParams x else x := ⟨_, rfl⟩
  have hstart : Added 32 (if r = 0 then start_tag e.toParams else []) x x₁ := by
    have hrow := h.row
    split at hrow
    · rename_i hr
      have hh : e.height / e.ybin < 2 ^ 16 := (Nat.div_le_self _ _).trans_lt hp.height_lt
      rw [if_pos hr, hx₁, if_pos hrow]
      exact added_start hzero (hclient.size ▸ (hroom.bounds ha).2.1) ha' hh
    · rename_i hr
      have hne : t.current_read_row ≠ CCD_START_FRAME_LOAD := by
        have := hp.row_lt h.lt.le
        rw [hrow]
        unfold CCD_START_FRAME_LOAD
        omega
      rw [if_neg hr, hx₁, if_neg hne]
      exact .refl 32 x
  have hlen₁ : x₁.out_buf_len ≤ 25 := by
    rw [hstart.len, hzero]
    split
    · rw [length_start_tag]
    · exact Nat.zero_le _
  -- the rows
  have hlink : Linked { t with toCore := t.toCore.set_client e.client x₁ }
      { b with toCore := b.toCore.set_client e.client x₁ } := by
    rw [hb.core]
    exact hb.set_core rfl
  obtain ⟨t₂, data, q, hrun, hlen, hpos', hcl, hf⟩ := @read_exposure_spec k m _ _ _ _
    (row_bytes s.geometry e.toParams) _ _ hlink hq (h.geometry ▸ hp) h.atRow h.lt
  have hrb := hp.row_bytes_eq
  have hq0 : 0 < q := hpos' (by
    show e.width / e.xbin * t.geometry.sizeof_pixel ≤ _
    rw [h.geometry, hrb])
  have hfetched : Fetched k i e.toParams rest r q data t t₂ :=
    ⟨hf.le, hf.calls, hf.registered, hf.geometry, hf.jiffies, hf.goes_on, hf.ended⟩
  have hdata : data.length = e.width / e.xbin * s.geometry.sizeof_pixel := by
    obtain ⟨l, -, hfetch⟩ := hfetched.calls
    have hsize := hfetch.size
    rw [h.geometry] at hsize
    have hge := Nat.le_mul_of_pos_left (e.width / e.xbin * s.geometry.sizeof_pixel) hq0
    omega
  have hcl' : t₂.clients e.client = x₁ := by
    rw [hcl]
    simp [Core.set_client]
  obtain ⟨y, hy, hyc, hyb, hylen⟩ := text_row (p := e.toParams) hroom (hclient.of_added hstart) ha
    hlen₁ hdata
  -- the end tag
  obtain ⟨x₃, hx₃⟩ : ∃ x₃, x₃ = if t₂.current_read_row = CCD_END_FRAME_LOAD then text_end y
    else y := ⟨_, rfl⟩
  have htail : Added y.out_buf_size
      (if t₂.current_read_row = CCD_END_FRAME_LOAD then end_tag else []) y x₃ := by
    by_cases hrow : t₂.current_read_row = CCD_END_FRAME_LOAD
    · rw [hx₃, if_pos hrow, if_pos hrow]
      exact added_end (hyc.size ▸ hylen)
    · rw [hx₃, if_neg hrow, if_neg hrow]
      exact .refl _ _
  obtain ⟨d, hd⟩ : ∃ d, d = x₃.deliver (min count x₃.out_buf_len) := ⟨_, rfl⟩
  have hbytes := deliver_spec x₃ (min_le_right count _)
  rw [← hd, htail.bytes, hyb, hstart.bytes, buffered_of_empty hzero, List.nil_append] at hbytes
  have htext : read_text_exposure k m i count t =
      some ({ t₂ with toCore := t₂.toCore.set_client e.client d.1 }, d.2) := by
    unfold read_text_exposure
    rw [he]
    simp only [Option.bind_eq_bind, Option.bind_some]
    rw [← hx, ← hx₁, h.geometry, hrun, Option.bind_some, hcl']
    have hsize : (store_row s.geometry e.toParams data x₁).out_buf_size
        = out_buf_size s.geometry .text := (hclient.of_added hstart).size
    rw [hsize, hy, Option.bind_some, ← hx₃, ← hd]
  have hdc : (t₂.toCore.set_client e.client d.1).clients e.client = d.1 := by
    simp [Core.set_client]
  refine ⟨_, d.2, data, q, hread.trans (by rw [htext]; rfl), hq0, hfetched.set_client e.client d.1,
    ?_, fun data₀ b₀ hlen₀ hb₀ => ?_⟩
  · show TextClient _ ((t₂.toCore.set_client e.client d.1).clients e.client)
    rw [hdc, hd]
    exact (hyc.of_added htail).deliver _ _
  · show text_bytes _ _ t₂.current_read_row _ _
      (b₀ ++ (d.2 ++ buffered ((t₂.toCore.set_client e.client d.1).clients e.client)))
    rw [hdc, hbytes]
    refine .inr ⟨by omega, ?_⟩
    rcases hb₀ with ⟨hr, rfl⟩ | ⟨hr, rfl⟩
    · rw [hr, Nat.zero_mul] at hlen₀
      rw [if_pos hr, List.eq_nil_of_length_eq_zero hlen₀]
      simp
    · have hrow : t.current_read_row ≠ CCD_END_FRAME_LOAD := by
        have := hp.row_lt h.lt.le
        rw [h.row, if_neg hr.ne']
        unfold CCD_END_FRAME_LOAD
        omega
      rw [← Nat.mul_assoc] at hlen₀
      rw [if_neg hr.ne', if_neg hrow, shown_append hlen₀]
      simp [lines]

/-! ## Whole images -/

/-- The text behind its first line. -/
def after_line (l : List UInt8) : List UInt8 := (l.dropWhile fun b => b ≠ 10).drop 1

lemma after_line_start (p : Params) (l : List UInt8) : after_line (start_tag p ++ l) = l := by
  have hdigit (v : ℕ) : digit (lead v) ≠ 10 := by
    intro h
    have := congrArg UInt8.toNat h
    rw [digit_toNat (lead_lt v)] at this
    simp at this
  obtain ⟨pre, hpre, hne⟩ : ∃ pre, start_tag p = pre ++ [10] ∧ ∀ b ∈ pre, b ≠ 10 := by
    refine ⟨chars "<IMAGE WIDTH=" ++ [digit (lead (p.width / p.xbin))] ++ chars " HEIGHT=" ++
      [digit (lead (p.height / p.ybin))] ++ chars ">", rfl, ?_⟩
    simp [chars, hdigit]
  rw [after_line, hpre, List.append_assoc, List.dropWhile_append_of_pos (by simpa using hne)]
  simp

/-- The reads of the given sizes deliver the frame with the bytes `data` as `text`: after some
number of them the exposure is removed, and `text` has been delivered or is in the buffer. -/
def TextFramed (k : Kernel) (m : Mini) (s : State) (i : ℕ) (p : Params) (sizes gaps : ℕ → ℕ)
    (data text : List UInt8) : Prop :=
  ∃ n t out l, reads k m p.client sizes gaps n s = some (t, out) ∧ t.calls = s.calls ++ l ∧
    Fetch s.geometry p 0 (p.height / p.ybin) l data ∧
    text = out ++ buffered (t.clients p.client) ∧ (t.clients p.client).overrun = false ∧
    Removed i t

/-- What the reads of an image deliver. -/
lemma FrameStart.text_finish {a : Sched} {sizes gaps : ℕ → ℕ}
    (h : FrameStart (TextClient s.geometry) s a i p rest) (hroom : Roomy s.geometry)
    (hy : p.ybin ≤ p.height) (hs : ReadSizes sizes) :
    ∃ N, Finished k m (TextClient s.geometry) (text_bytes s.geometry.sizeof_pixel p) s i p rest
        sizes gaps N ∧
      ∀ n' < N, ∃ r t out, Midway k m (TextClient s.geometry)
        (text_bytes s.geometry.sizeof_pixel p) s i p rest sizes gaps n' r t out := by
  obtain ⟨hw, hw'⟩ := h.width_le
  have hp := h.plain hy (hroom.bounds hw).1
  exact h.finish hp.rows_pos TextClient.deliver hs
    (fun n hn => serves_text hp h.complete hroom hw hw' hn (hs.le n)) (.inl ⟨rfl, rfl⟩)

/-- What is read off the text of an image: the first digits of the values shown. -/
lemma FrameStart.text_framed {a : Sched} {sizes gaps : ℕ → ℕ}
    (h : FrameStart (TextClient s.geometry) s a i p rest) (hroom : Roomy s.geometry)
    (hy : p.ybin ≤ p.height) (hs : ReadSizes sizes) :
    ∃ data text, TextFramed k m s i p sizes gaps data text ∧
      numbers (after_line text) = (shown s.geometry.sizeof_pixel data).map lead := by
  obtain ⟨N, hN, -⟩ := h.text_finish (k := k) (m := m) hroom hy hs
  obtain ⟨t, out, hrun, ⟨l, data, hcalls, hfetch, hbytes⟩, hx, hrem, -⟩ := hN.run
  refine ⟨data, _, ⟨N, t, out, l, hrun, hcalls, hfetch, rfl, hx.overrun, hrem⟩, ?_⟩
  rcases hbytes with ⟨hz, -⟩ | ⟨-, htext⟩
  · exact absurd hz (Nat.div_pos hy h.ybin_pos).ne'
  · have hnone : numbers (if t.current_read_row = CCD_END_FRAME_LOAD then end_tag else []) = [] := by
      split
      · decide
      · rfl
    rw [htext, after_line_start, numbers_lines, hnone, List.append_nil]

/-- The text output can be read back exactly as far as each number in it has one digit: for
`put_int` and `put_attrib`, for the reply to a query and for the text of an image. -/
theorem text_round_trip (k : Kernel) (m : Mini) :
    (∀ (buf : ℕ → UInt8) (pos v : ℕ), v < 2 ^ 32 →
      ∃ l, (put_int buf pos v).1 = put buf pos l ∧ numbers l = [v] ∧
        ((put_int buf pos v).2 = l.length ↔ v < 10) ∧
        ∀ attrib : List UInt8,
          (put_attrib buf pos attrib v).2 = attrib.length + 2 + l.length ↔ v < 10) ∧
    (∀ (g : Geometry) (x y : Client), text_query g x = some y →
      (numbers ((buffered y).drop (x.out_buf_len + 43)) = (query_attribs g).map Prod.snd ↔
        ∀ a ∈ query_attribs g, a.2 < 10)) ∧
    ∀ (s : State) (a : Sched) (i : ℕ) (p : Params) (rest : List (ℕ × Params)) (sizes gaps : ℕ → ℕ),
      FrameStart (TextClient s.geometry) s a i p rest → Roomy s.geometry → p.ybin ≤ p.height →
      ReadSizes sizes →
      ∃ data text, TextFramed k m s i p sizes gaps data text ∧
        (numbers (after_line text) = pixels s.geometry.sizeof_pixel data ↔
          ∀ v ∈ pixels s.geometry.sizeof_pixel data, v < 10) := by
  refine ⟨fun buf pos v hv => ?_, fun g x y h => query_round_trip h,
    fun s a i p rest sizes gaps h hroom hy hs => ?_⟩
  · refine ⟨int_text v, rfl, numbers_int_text hv, ?_, fun attrib => ?_⟩
    · rw [← length_int_text (v := v), eq_comm]
      rfl
    · rw [← length_int_text (v := v)]
      show attrib.length + 2 + 1 = _ ↔ _
      omega
  · obtain ⟨data, text, hframed, hnumbers⟩ := h.text_framed (k := k) (m := m) hroom hy hs
    refine ⟨data, text, hframed, ?_⟩
    rw [hnumbers]
    exact map_lead_shown _ _

/-- A black frame of the small camera is read back as text. -/
theorem text_round_trip_small :
    ∃ s, replay (step .hz100 .black) (State.init 0) (binned_run .text 1) = some s ∧
      FrameStart (TextClient s.geometry) s s.view 0 (binned_params 1) [] ∧
      ∃ data text, TextFramed .hz100 .black s 0 (binned_params 1) (fun _ => 1) (fun _ => 0) data text ∧
        (numbers (after_line text) = pixels s.geometry.sizeof_pixel data ↔
          ∀ v ∈ pixels s.geometry.sizeof_pixel data, v < 10) := by
  obtain ⟨s, hs, hgeom, hstart⟩ := binned_start .text (.inl rfl)
  have hstart : FrameStart (TextClient s.geometry) s s.view 0 (binned_params 1) [] :=
    hstart.imp fun h => ⟨h.mode, hgeom ▸ h.size, h.overrun⟩
  have hroom : Roomy s.geometry := by
    rw [hgeom]
    exact ⟨by decide, by decide⟩
  exact ⟨s, hs, hstart, (text_round_trip .hz100 .black).2.2 s s.view 0 (binned_params 1) []
    (fun _ => 1) (fun _ => 0) hstart hroom (by decide) .ones⟩

/-- A camera of 640 by 480 pixels. -/
def Geometry.vga : Geometry := ⟨[], 640, 480, 7, 7, 1, 8, 8, 0x0FFF, 0⟩

/-- The reply to a query says that the camera has 6 by 4 pixels. -/
theorem query_reply_first_digits :
    ∃ x y, x.out_buf_size = out_buf_size .vga .text ∧ text_query .vga x = some y ∧
      numbers ((buffered y).drop (x.out_buf_len + 43)) = [6, 4, 7, 7, 1, 8, 8, 4, 0] ∧
      (query_attribs .vga).map Prod.snd = [640, 480, 7, 7, 1, 8, 8, 0x0FFF, 0] := by
  have hsome : (text_query .vga { Client.closed with
      out_buf_size := out_buf_size .vga .text }).isSome := by decide
  obtain ⟨y, hy⟩ := Option.isSome_iff_exists.mp hsome
  refine ⟨_, y, rfl, hy, ?_, rfl⟩
  rw [numbers_query hy]
  decide

end EspLinux.Ccd
