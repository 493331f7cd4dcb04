import EspLinux.Ccd.Polling
import EspLinux.Ccd.TextImage

/-!
# Staged output

A read that has no room for a row in the reader's buffer stages the row in the client's, and a text
read stages every row there: at its end, from where the pixels are turned into text that grows from
the front.  The size of that buffer has been fixed when the device was opened.

In binary mode it is 256 bytes, whatever the width of the frame.  In text mode it has been estimated
from the width of the camera, which is enough for a frame of that camera: the text then never reaches
the pixels that are still to come.  `Room` says when the staged output fits, and while every read
meets it nothing is stored behind the end of a buffer (`staged_output_fits`).
-/

namespace EspLinux.Ccd

open EspLinux.Lib

variable (k : Kernel) (m : Mini)

/-! ## The room for what is staged -/

/-- The estimate of `ccd_open` holds for a row of the frame: the text is at most three characters
for each byte and a newline for each pixel, and the tags take the rest. -/
structure TextRoom (g : Geometry) (p : Params) (x : Client) : Prop where
  row : x.out_buf_len +
    (p.width / p.xbin * g.sizeof_pixel * 3 + p.width / p.xbin + 32) ≤ x.out_buf_size
  tags : x.out_buf_len + 34 ≤ x.out_buf_size
  pixel : p.width / p.xbin * g.sizeof_pixel + g.sizeof_pixel ≤ x.out_buf_size

/-- The output of a read of `count` bytes of the frame `p` fits. -/
def Room (c : Field) (count : ℕ) (p : Params) (s : State) : Prop :=
  match (s.clients c).mode with
  | .binary =>
    -- the reader has room for a row, or there is a row and it fits into the client's buffer
    fits_row k p count s.toCore ∨
      (s.current_read_row = CCD_START_FRAME_LOAD ∨ s.current_read_row ≤ last_row p) ∧
        header_len s.toCore + row_bytes s.geometry p ≤ (s.clients c).out_buf_size
  | .text => TextRoom s.geometry p (s.clients c)

/-- A client that has opened the device in text mode has room for the frames of the camera. -/
lemma TextRoom.of_open {g : Geometry} {p : Params} {x : Client} (hg : Roomy g)
    (hsize : x.out_buf_size = out_buf_size g .text) (hempty : x.out_buf_len = 0)
    (hp : p.width / p.xbin ≤ g.width) : TextRoom g p x := by
  have hexact : out_buf_size g .text = g.width * g.sizeof_pixel * 3 + g.width + 32 :=
    Nat.mod_eq_of_lt hg.lt
  have hrow : p.width / p.xbin * g.sizeof_pixel ≤ g.width * g.sizeof_pixel :=
    Nat.mul_le_mul_right _ hp
  obtain ⟨-, -, hpixel, -, htags⟩ := hg.bounds hp
  refine ⟨?_, by omega, by omega⟩
  rw [hempty, hsize, hexact]
  omega

/-- Nothing has been stored behind the end of the client's buffer, and what waits there is no longer
than the buffer. -/
structure Intact (x : Client) : Prop where
  overrun : x.overrun = false
  size_lt : x.out_buf_size < 2 ^ 32
  binary : x.mode = .binary → x.out_buf_size ≤ 256
  len_le : x.out_buf_len ≤ x.out_buf_size

lemma Intact.deliver {x : Client} (h : Intact x) (n : ℕ) : Intact (x.deliver n).1 := by
  refine ⟨h.overrun, h.size_lt, h.binary, ?_⟩
  have := h.len_le
  show x.out_buf_len - n ≤ x.out_buf_size
  omega

/-! ## The translation of a row -/

/-- `read_text_exposure` up to the translation of the pixels: the start tag, and the row at the end
of the client's buffer. -/
def text_staged (i : ℕ) (s : State) : Option (State × Client) := do
  let e ← s.heap i
  let c := e.client
  let p := e.toParams
  let g := s.geometry
  let x := s.clients c
  let x := if s.current_read_row = CCD_START_FRAME_LOAD then text_start p x else x
  let (s, data) ← read_exposure k m i (row_bytes g p)
    { s with toCore := s.toCore.set_client c x }
  some (s, store_row g p data (s.clients c))

/-- Where the translation starts: the bytes of the row, the position of the first pixel, and the
client's record. -/
def translation (g : Geometry) (p : Params) (x : Client) : ℕ × ℕ × Client :=
  (row_bytes g p, x.out_buf_size - row_bytes g p - g.sizeof_pixel, x)

/-- A text read is the staging of a row, its translation and the end tag. -/
lemma read_text_exposure_eq {s : State} {i : ℕ} {e : Exposure} (he : s.heap i = some e)
    (count : ℕ) :
    read_text_exposure k m i count s = (text_staged k m i s).bind fun r =>
      (loop (text_pixels s.geometry.sizeof_pixel) (e.width / e.xbin + 1)
        (translation s.geometry e.toParams r.2)).bind fun x =>
          let x := if r.1.current_read_row = CCD_END_FRAME_LOAD then text_end x else x
          let d := x.deliver (min count x.out_buf_len)
          some ({ r.1 with toCore := r.1.toCore.set_client e.client d.1 }, d.2) := by
  simp only [read_text_exposure, text_staged, translation, he, Option.bind_eq_bind,
    Option.bind_some, Option.bind_assoc]

/-- During the translation of the staged row of exposure `i`, the text never reaches a pixel that
has not been converted. -/
def PixelsKept (i : ℕ) (p : Params) (s : State) : Prop :=
  ∀ t x, text_staged k m i s = some (t, x) → ∀ n left pos y,
    iterate (text_pixels s.geometry.sizeof_pixel) n (translation s.geometry p x) =
      some (left, pos, y) →
    ∀ j, pos ≤ j → j < pos + left → y.out_buf j = x.out_buf j

/-- The state of the translation: `c` pixels are still to come, and there is room for the text of
each in front of the next. -/
structure Translating (z : ℕ) (x : Client) (r : ℕ × ℕ × Client) : Prop where
  pixels : ∃ c, r.1 = c * z ∧ c * z < 2 ^ 32 ∧ r.2.1 + c * z ≤ x.out_buf_size ∧
    r.2.2.out_buf_len + 2 * c + pixel_digits z ≤ r.2.1 + z ∧
    r.2.2.out_buf_len + 2 * c + 9 ≤ x.out_buf_size
  mode : r.2.2.mode = x.mode
  size : r.2.2.out_buf_size = x.out_buf_size
  overrun : r.2.2.overrun = x.overrun
  frame : ∀ j, r.2.1 ≤ j → r.2.2.out_buf j = x.out_buf j

lemma Translating.step {z : ℕ} (hz : 0 < z) {x : Client} {r r' : ℕ × ℕ × Client}
    (h : Translating z x r) (hr : text_pixels z r = .inl r') : Translating z x r' := by
  obtain ⟨left, pos, y⟩ := r
  obtain ⟨c, hleft, hlt, hend, hroom, htags⟩ := h.pixels
  have hsize := h.size
  have hframe := h.frame
  simp only at hleft hend hroom htags hsize hframe
  rw [text_pixels] at hr
  split at hr
  · cases hr
  · rename_i hne
    -- there is a pixel, and the text of it ends before the next one
    obtain ⟨c, rfl⟩ : ∃ c', c = c' + 1 := by
      refine ⟨c - 1, ?_⟩
      have : c ≠ 0 := by
        rintro rfl
        rw [Nat.zero_mul] at hleft
        exact hne hleft
      omega
    rw [Nat.add_one_mul] at hleft hlt hend
    have hsub : u32 (left + 2 ^ 32 - z) = c * z := by
      unfold u32
      omega
    have hone := added_pixel (z := z) (x := y) (p := pos) (by omega) (by omega)
    cases hr
    refine ⟨⟨c, hsub, by omega, ?_, ?_, ?_⟩, hone.mode.trans h.mode, hone.size.trans hsize,
      hone.overrun.trans h.overrun, ?_⟩
    · show pos + z + c * z ≤ x.out_buf_size
      omega
    · show _ + 2 * c + pixel_digits z ≤ pos + z + z
      rw [hone.len, length_lines, List.length_singleton]
      omega
    · rw [hone.len, length_lines, List.length_singleton]
      omega
    · intro j hj
      have hj' : pos + z ≤ j := hj
      exact (hone.frame j hj').trans (hframe j (by omega))

/-! ## Text reads -/

/-- A numeral has at most as many digits as there is room for. -/
lemma length_int_digits_room (n v : ℕ) : (int_digits n v).length ≤ n := by
  induction n generalizing v with
  | zero => exact le_refl 0
  | succ n ih =>
    rw [int_digits, List.length_cons]
    split
    · exact Nat.succ_le_succ (Nat.zero_le n)
    · exact Nat.succ_le_succ (ih _)

lemma length_int_text_le (v : ℕ) : (int_text v).length ≤ 10 := by
  rw [int_text, List.length_reverse]
  exact length_int_digits_room 10 v

/-- The start tag, wherever the output has come to. -/
lemma added_start_tag {p : Params} {x : Client} (hsize : x.out_buf_len + 32 ≤ x.out_buf_size) :
    Added (x.out_buf_len + 32) (start_tag p) x (text_start p x) := by
  have h₁ : Added (x.out_buf_len + 32) (chars "<") x (x.emit (chars "<")) :=
    .emit (show x.out_buf_len + 1 ≤ _ by omega) hsize
  have h₂ := h₁.trans (.emit (l := chars "IMAGE") (by
    rw [h₁.len]
    show x.out_buf_len + 1 + 5 ≤ _
    omega) (by rwa [h₁.size]))
  have h₃ := h₂.trans (.emit_attrib (a := "WIDTH") (v := p.width / p.xbin)
    (by
      have := length_int_text_le (p.width / p.xbin)
      rw [h₂.len]
      show x.out_buf_len + 6 + (5 + 2 + _) ≤ _
      omega) (by rwa [h₂.size]))
  have h₄ := h₃.trans (.emit_attrib (a := "HEIGHT") (v := p.height / p.ybin)
    (by
      have := length_int_text_le (p.height / p.ybin)
      rw [h₃.len]
      show x.out_buf_len + 14 + (6 + 2 + _) ≤ _
      omega) (by rwa [h₃.size]))
  refine h₄.trans (.emit ?_ (by rwa [h₄.size]))
  rw [h₄.len]
  show x.out_buf_len + 23 + 2 ≤ _
  omega

section

variable {s s' t : State} {a : Sched} {i count : ℕ} {e : Exposure} {p : Params}
  {rest : List (ℕ × Params)} {x y : Client}

/-- What the room for a row comes to in numbers. -/
lemma TextRoom.bounds {g : Geometry} (h : TextRoom g p x) (hx : Intact x) :
    row_bytes g p = p.width / p.xbin * g.sizeof_pixel ∧
      (0 < p.width / p.xbin * g.sizeof_pixel →
        x.out_buf_len + 25 + 2 * (p.width / p.xbin) + pixel_digits g.sizeof_pixel ≤
          x.out_buf_size - p.width / p.xbin * g.sizeof_pixel ∧
        x.out_buf_len + 25 + 2 * (p.width / p.xbin) + 9 ≤ x.out_buf_size) := by
  have hrow := h.row
  have hlt := hx.size_lt
  unfold row_bytes
  generalize p.width / p.xbin = w at hrow ⊢
  refine ⟨Nat.mod_eq_of_lt (by omega), fun hpos => ?_⟩
  obtain ⟨hw, hz⟩ := CanonicallyOrderedAdd.mul_pos.mp hpos
  have hle : w ≤ w * g.sizeof_pixel := Nat.le_mul_of_pos_right _ hz
  unfold pixel_digits
  split
  · omega
  · split
    · rename_i h4
      rw [h4] at hrow ⊢
      omega
    · omega

/-- The client's record when the row has been staged. -/
structure StagedRow (g : Geometry) (p : Params) (x y : Client) : Prop where
  mode : y.mode = x.mode
  size : y.out_buf_size = x.out_buf_size
  overrun : y.overrun = false
  len : y.out_buf_len ≤ x.out_buf_len + 25

lemma text_staged_spec (hl : Linked s a) (hq : a.queue = (i, p) :: rest)
    (hx : Intact (s.clients p.client)) (hroom : TextRoom s.geometry p (s.clients p.client))
    (hr : text_staged k m i s = some (t, y)) :
    StagedRow s.geometry p (s.clients p.client) y ∧
      ∀ c, c ≠ p.client → t.clients c = s.clients c := by
  obtain ⟨e, he, rfl, -, -⟩ := hl.head_cell hq
  simp only [text_staged, he, Option.bind_eq_bind, Option.bind_some] at hr
  obtain ⟨⟨s₁, data⟩, hrun, hr⟩ := Option.bind_eq_some_iff.mp hr
  cases hr
  obtain ⟨w, hw⟩ : ∃ w, w = if s.current_read_row = CCD_START_FRAME_LOAD
      then text_start e.toParams (s.clients e.client) else s.clients e.client := ⟨_, rfl⟩
  rw [← hw] at hrun
  have hl' : Linked { s with toCore := s.toCore.set_client e.client w }
      { a with toCore := s.toCore.set_client e.client w } :=
    hl.set_core (show s.fresh = a.fresh from congrArg Core.fresh hl.core)
  obtain ⟨hcl, -, -⟩ := hl'.read_exposure_bytes k m hq hrun
  have hown : s₁.clients e.client = w := by
    rw [hcl]
    exact Function.update_self _ _ _
  have htags := hroom.tags
  -- the start tag
  have hstart : w.mode = (s.clients e.client).mode ∧
      w.out_buf_size = (s.clients e.client).out_buf_size ∧ w.overrun = false ∧
      w.out_buf_len ≤ (s.clients e.client).out_buf_len + 25 := by
    rw [hw]
    split
    · have hadd := added_start_tag (p := e.toParams) (x := s.clients e.client) (by omega)
      refine ⟨hadd.mode, hadd.size, hadd.overrun.trans hx.overrun, ?_⟩
      rw [hadd.len, length_start_tag]
    · exact ⟨rfl, rfl, hx.overrun, Nat.le_add_right _ _⟩
  obtain ⟨hmode, hsize, hover, hlen⟩ := hstart
  obtain ⟨hrow, -⟩ := hroom.bounds hx
  have hfits : row_bytes s.geometry e.toParams + s.geometry.sizeof_pixel ≤ w.out_buf_size := by
    rw [hrow, hsize]
    exact hroom.pixel
  refine ⟨⟨?_, ?_, ?_, ?_⟩, fun c hc => ?_⟩
  · rw [hown]
    exact hmode
  · rw [hown]
    exact hsize
  · rw [hown]
    exact (or_within hfits).trans hover
  · rw [hown]
    exact hlen
  · rw [hcl]
    exact Function.update_of_ne hc _ _

/-- The translation of a row starts with room for the text of all its pixels. -/
lemma StagedRow.translating {g : Geometry} (h : StagedRow g p x y) (hx : Intact x)
    (hroom : TextRoom g p x) (hpos : 0 < p.width / p.xbin * g.sizeof_pixel) :
    Translating g.sizeof_pixel y (translation g p y) := by
  obtain ⟨hrow, hbounds⟩ := hroom.bounds hx
  obtain ⟨hpix, htags⟩ := hbounds hpos
  have hlen := h.len
  have hsize := h.size
  have hfit := hroom.pixel
  have hlt := hx.size_lt
  refine ⟨⟨p.width / p.xbin, hrow, by omega, ?_, ?_, ?_⟩, rfl, rfl, rfl, fun _ _ => rfl⟩
  · show y.out_buf_size - row_bytes g p - g.sizeof_pixel + _ ≤ _
    omega
  · show y.out_buf_len + _ + _ ≤ y.out_buf_size - row_bytes g p - g.sizeof_pixel + g.sizeof_pixel
    omega
  · show y.out_buf_len + _ + 9 ≤ _
    omega

/-- The text of a row does not reach the pixels that are still to come. -/
lemma pixels_kept (hl : Linked s a) (hq : a.queue = (i, p) :: rest)
    (hx : Intact (s.clients p.client)) (hroom : TextRoom s.geometry p (s.clients p.client)) :
    PixelsKept k m i p s := by
  intro t y ht n left pos z hn j hpos hj
  obtain ⟨hstaged, -⟩ := text_staged_spec k m hl hq hx hroom ht
  rcases Nat.eq_zero_or_pos (p.width / p.xbin * s.geometry.sizeof_pixel) with hzero | hbytes
  · -- there is no pixel
    have hrow := (hroom.bounds hx).1
    have hstop : text_pixels s.geometry.sizeof_pixel (translation s.geometry p y) = .inr y := by
      rw [translation, text_pixels, if_pos (hrow.trans hzero)]
    cases n with
    | zero =>
      cases hn
      rfl
    | succ n => simp [iterate, hstop] at hn
  · have htrans := hstaged.translating hx hroom hbytes
    obtain ⟨-, hz⟩ := CanonicallyOrderedAdd.mul_pos.mp hbytes
    have hlast := iterate_invariant (P := Translating s.geometry.sizeof_pixel y)
      (fun _ _ h hstep => h.step hz hstep) htrans hn
    exact hlast.frame j hpos

/-- The client's record after the translation. -/
lemma StagedRow.translated {g : Geometry} {n : ℕ} {w : Client} (h : StagedRow g p x y)
    (hx : Intact x) (hroom : TextRoom g p x)
    (hloop : loop (text_pixels g.sizeof_pixel) n (translation g p y) = some w) :
    w.mode = x.mode ∧ w.out_buf_size = x.out_buf_size ∧ w.overrun = false ∧
      w.out_buf_len + 9 ≤ x.out_buf_size := by
  have hlen := h.len
  have htags := hroom.tags
  rcases Nat.eq_zero_or_pos (p.width / p.xbin * g.sizeof_pixel) with hzero | hbytes
  · have hrow := (hroom.bounds hx).1
    have hstop : text_pixels g.sizeof_pixel (translation g p y) = .inr y := by
      rw [translation, text_pixels, if_pos (hrow.trans hzero)]
    cases n with
    | zero => cases hloop
    | succ n =>
      rw [loop_inr hstop] at hloop
      cases hloop
      exact ⟨h.mode, h.size, h.overrun, by omega⟩
  · obtain ⟨-, hz⟩ := CanonicallyOrderedAdd.mul_pos.mp hbytes
    refine loop_invariant (P := Translating g.sizeof_pixel y)
      (Q := fun w => w.mode = x.mode ∧ w.out_buf_size = x.out_buf_size ∧ w.overrun = false ∧
        w.out_buf_len + 9 ≤ x.out_buf_size)
      (fun _ _ h hstep => h.step hz hstep) ?_ (h.translating hx hroom hbytes) hloop
    intro r w hr hstep
    rw [text_pixels] at hstep
    split at hstep
    · cases hstep
      obtain ⟨c, -, -, -, -, hend⟩ := hr.pixels
      have hsize := h.size
      exact ⟨hr.mode.trans h.mode, hr.size.trans hsize, hr.overrun.trans h.overrun, by omega⟩
    · cases hstep

/-! ## Reads keep the buffers intact -/

lemma read_text_intact {data : List UInt8} (hl : Linked s a) (hq : a.queue = (i, p) :: rest)
    (hx : Intact (s.clients p.client)) (hroom : TextRoom s.geometry p (s.clients p.client))
    (hr : read_text_exposure k m i count s = some (s', data)) :
    Intact (s'.clients p.client) ∧ ∀ c, c ≠ p.client → s'.clients c = s.clients c := by
  obtain ⟨e, he, rfl, -, -⟩ := hl.head_cell hq
  rw [read_text_exposure_eq k m he] at hr
  obtain ⟨⟨t, y⟩, hstaged, hr⟩ := Option.bind_eq_some_iff.mp hr
  obtain ⟨w, hloop, hr⟩ := Option.bind_eq_some_iff.mp hr
  cases hr
  obtain ⟨hrow, hother⟩ := text_staged_spec k m hl hq hx hroom hstaged
  obtain ⟨hmode, hsize, hover, hlen⟩ := hrow.translated hx hroom hloop
  have hend : Intact (if t.current_read_row = CCD_END_FRAME_LOAD then text_end w else w) := by
    split
    · have hadd := added_end (x := w) (by omega)
      refine ⟨hadd.overrun.trans hover, ?_, fun hm => ?_, ?_⟩
      · rw [hadd.size, hsize]
        exact hx.size_lt
      · rw [hadd.size, hsize]
        exact hx.binary (hmode ▸ hadd.mode ▸ hm)
      · rw [hadd.size, hadd.len, hsize]
        exact hlen
    · refine ⟨hover, ?_, fun hm => ?_, by omega⟩
      · rw [hsize]
        exact hx.size_lt
      · rw [hsize]
        exact hx.binary (hmode ▸ hm)
  refine ⟨?_, fun c hc => ?_⟩
  · show Intact (Function.update t.clients e.client _ e.client)
    rw [Function.update_self]
    exact hend.deliver _
  · show Function.update t.clients e.client _ c = _
    rw [Function.update_of_ne hc, hother c hc]

lemma read_binary_intact {data : List UInt8} (hl : Linked s a) (hq : a.queue = (i, p) :: rest)
    (hx : Intact (s.clients p.client)) (hmode : (s.clients p.client).mode = .binary)
    (hroom : fits_row k p count s.toCore ∨
      (s.current_read_row = CCD_START_FRAME_LOAD ∨ s.current_read_row ≤ last_row p) ∧
        header_len s.toCore + row_bytes s.geometry p ≤ (s.clients p.client).out_buf_size)
    (hr : read_binary_exposure k m i count s = some (s', data)) :
    Intact (s'.clients p.client) ∧ ∀ c, c ≠ p.client → s'.clients c = s.clients c := by
  obtain ⟨e, he, rfl, -, -⟩ := hl.head_cell hq
  simp only [read_binary_exposure, he, Option.bind_eq_bind, Option.bind_some] at hr
  split at hr
  · obtain ⟨⟨t, d⟩, hrun, hr⟩ := Option.bind_eq_some_iff.mp hr
    cases hr
    obtain ⟨hcl, -, -⟩ := hl.read_exposure_bytes k m hq hrun
    rw [hcl]
    exact ⟨hx, fun _ _ => rfl⟩
  · rename_i hnot
    obtain ⟨hrow, hfit⟩ := hroom.resolve_left hnot
    obtain ⟨⟨t, d⟩, hrun, hr⟩ := Option.bind_eq_some_iff.mp hr
    cases hr
    obtain ⟨hcl, hle, hge⟩ := hl.read_exposure_bytes k m hq hrun
    have hd := hge hrow le_rfl
    have hlen : (header e.toParams s.toCore ++ d).length =
        header_len s.toCore + row_bytes s.geometry e.toParams := by
      rw [List.length_append, length_header]
      omega
    have h256 := hx.binary hmode
    have hcount : count < header_len s.toCore + row_bytes s.geometry e.toParams := by
      rw [fits_row_iff k (x := s.toCore) (by omega)] at hnot
      omega
    refine ⟨?_, fun c hc => ?_⟩
    · show Intact (Function.update t.clients e.client _ e.client)
      rw [Function.update_self, hlen, hcl]
      refine ⟨(or_within hfit).trans hx.overrun, hx.size_lt, hx.binary, ?_⟩
      show u32 (_ + 2 ^ 32 - count) ≤ (s.clients e.client).out_buf_size
      unfold u32
      omega
    · show Function.update t.clients e.client _ c = _
      rw [Function.update_of_ne hc, hcl]

/-- The buffers of all clients are. -/
def AllIntact (x : Core) : Prop := ∀ c, Intact (x.clients c)

lemma AllIntact.update {y : Core} (h : AllIntact s.toCore) {c : Field} (hc : Intact (y.clients c))
    (hother : ∀ c', c' ≠ c → y.clients c' = s.clients c') : AllIntact y := by
  intro c'
  by_cases hcc : c' = c
  · rw [hcc]
    exact hc
  · rw [hother c' hcc]
    exact h c'

lemma AllIntact.set_client {c : Field} (h : AllIntact s.toCore) (hx : Intact x) :
    AllIntact (s.toCore.set_client c x) := by
  refine h.update (c := c) ?_ fun c' hc => Function.update_of_ne hc _ _
  show Intact (Function.update s.clients c x c)
  rwa [Function.update_self]

lemma ccd_read_head_intact {c : Field} {res : Except Errno (List UInt8)} (hl : Linked s a)
    (h : AllIntact s.toCore)
    (hok : ∀ i e, s.exposure_list = some i → s.heap i = some e → e.client = c → e.complete = 1 →
      Room k c (u32 count) e.toParams s)
    (hr : ccd_read_head k m c count s = some (s', res)) : AllIntact s'.toCore := by
  cases hq : a.queue with
  | nil =>
    have hel : s.exposure_list = none := by
      have hc := hl.chain
      rwa [Sched.ids, hq, List.map_nil, Chain.nil_iff] at hc
    simp only [Ccd.ccd_read_head, hel] at hr
    cases hr
    exact h
  | cons x rest =>
    obtain ⟨i, p⟩ := x
    obtain ⟨e, he, rfl, hel, -⟩ := hl.head_cell hq
    simp only [Ccd.ccd_read_head, hel, he, Option.bind_eq_bind, Option.bind_some] at hr
    split at hr
    · rename_i hcond
      obtain ⟨rfl, hc⟩ := hcond
      have hroom := hok i e hel he rfl hc
      unfold Room at hroom
      split at hr
      · rename_i hmode
        simp only [hmode] at hroom
        obtain ⟨⟨s₁, d⟩, hs₁, hr⟩ := Option.bind_eq_some_iff.mp hr
        cases hr
        obtain ⟨hin, hother⟩ :=
          read_binary_intact k m (p := e.toParams) hl hq (h e.client) hmode hroom hs₁
        exact h.update hin hother
      · rename_i hmode
        simp only [hmode] at hroom
        obtain ⟨⟨s₁, d⟩, hs₁, hr⟩ := Option.bind_eq_some_iff.mp hr
        cases hr
        obtain ⟨hin, hother⟩ :=
          read_text_intact k m (p := e.toParams) hl hq (h e.client) hroom hs₁
        exact h.update hin hother
    · cases hr
      exact h

lemma ccd_read_intact {c : Field} {res : Except Errno (List UInt8)} (hl : Linked s a)
    (h : AllIntact s.toCore)
    (hok : 0 < count → (s.clients c).out_buf_len = 0 →
      ∀ i e, s.exposure_list = some i → s.heap i = some e → e.client = c → e.complete = 1 →
        Room k c (u32 count) e.toParams s)
    (hr : ccd_read k m c count s = some (s', res)) : AllIntact s'.toCore := by
  simp only [Ccd.ccd_read] at hr
  by_cases hreg : s.registered = false
  · rw [if_pos hreg] at hr
    cases hr
    exact h
  rw [if_neg hreg] at hr
  by_cases hzero : count = 0
  · rw [if_pos hzero] at hr
    cases hr
    exact h
  rw [if_neg hzero] at hr
  by_cases hbuf : 0 < (s.clients c).out_buf_len
  · rw [if_pos hbuf] at hr
    cases hr
    exact h.set_client ((h c).deliver _)
  rw [if_neg hbuf] at hr
  by_cases hlist : s.client_list c = none
  · rw [if_pos hlist] at hr
    cases hr
    exact h
  rw [if_neg hlist] at hr
  split at hr
  · cases hr
  · obtain ⟨f, -, hr⟩ := Option.bind_eq_some_iff.mp hr
    split at hr
    · cases hr
      exact h
    · exact ccd_read_head_intact k m hl h (hok (Nat.pos_of_ne_zero hzero) (by omega)) hr

end

/-! ## Runs -/

/-- The first exposure of the device is `e`, complete, and client `c` can read it. -/
structure AtHead (s : State) (c : Field) (i : ℕ) (e : Exposure) : Prop where
  ready : s.ready c = true
  list : s.exposure_list = some i
  cell : s.heap i = some e
  client : e.client = c
  complete : e.complete = 1

/-- The event is a read of `count` bytes by client `c` that goes to exposure `i`. -/
def Fetches (s : State) (c : Field) (count i : ℕ) (e : Exposure) : Event → Prop
  | .read c' n => c' = c ∧ n = count ∧ 0 < n ∧ (s.clients c).out_buf_len = 0 ∧ AtHead s c i e
  | .wake c' n => c' = c ∧ n = count ∧ AtHead s c i e
  | _ => False

/-- What the read stages fits. -/
def StageOk (s : State) (ev : Event) : Prop :=
  ∀ c count i e, Fetches s c count i e ev → Room k c (u32 count) e.toParams s

/-- An abort empties the client's buffer. -/
lemma Sched.abort_clients (c : Field) (a : Sched) :
    (a.abort k c).clients =
      Function.update a.clients c { a.clients c with out_buf_len := 0 } := by
  have hcl : (Sched.drop k c (a.owned c) (a.mark c)).clients = a.clients :=
    congrArg (fun x => x.2.2.1)
      ((Sched.drop_static k c (a.owned c) (a.mark c)).trans (Sched.mark_static c a))
  show Function.update _ c _ = _
  rw [hcl]

lemma Intact.emptied {x : Client} (h : Intact x) : Intact { x with out_buf_len := 0 } :=
  ⟨h.overrun, h.size_lt, h.binary, Nat.zero_le _⟩

/-- A client that opens the device has a buffer of the size that its mode asks for. -/
lemma Intact.opening {x : Client} (h : Intact x) (g : Geometry) (mode : Mode) (opened : Bool) :
    Intact { x with
      opened := opened
      mode := mode
      out_buf_size := out_buf_size g mode
      in_buf_len := 0
      out_buf_len := 0 } := by
  refine ⟨h.overrun, ?_, ?_, Nat.zero_le _⟩
  · show out_buf_size g mode < 2 ^ 32
    cases mode with
    | binary =>
      show 256 < 2 ^ 32
      norm_num
    | text => exact Nat.mod_lt _ (by norm_num)
  · rintro rfl
    exact le_refl 256

lemma Intact.closing {x : Client} (h : Intact x) :
    Intact { x with opened := false, in_buf_len := 0, out_buf_len := 0, out_buf_size := 0 } :=
  ⟨h.overrun, by norm_num, fun _ => Nat.zero_le _, le_refl 0⟩

lemma AllIntact.open_ {s : State} (h : AllIntact s.toCore) (c : Field) (mode : Mode)
    (nomem : Bool) : AllIntact (ccd_open m c mode nomem s).1.toCore := by
  simp only [ccd_open]
  split_ifs <;> first
    | exact h
    | exact h.set_client ((h c).opening s.geometry mode _)

lemma AllIntact.close {s : State} (h : AllIntact s.toCore) (c : Field) :
    AllIntact (s.toCore.close c) := by
  simp only [Core.close]
  split_ifs <;> exact h.set_client (h c).closing

/-- A step that meets `StageOk` keeps the buffers intact. -/
lemma AllIntact.step {s s' : State} {ev : Event} (hrep : Represents s s.view)
    (h : AllIntact s.toCore) (hok : StageOk k s ev) (hs : step k m s ev = some s') :
    AllIntact s'.toCore := by
  have habort {c : Field} {t : State} (ht : abort_exposures k c s = some t) :
      AllIntact t.toCore := by
    have hcl : t.clients = _ :=
      (congrArg Core.clients (hrep.abort k c ht).core).trans (Sched.abort_clients k c s.view)
    refine h.update (c := c) ?_ fun c' hc => ?_
    · rw [hcl, Function.update_self]
      exact (h c).emptied
    · rw [hcl, Function.update_of_ne hc]
      rfl
  cases ev with
  | tick d =>
    cases hs
    exact h
  | register g =>
    cases hs
    unfold ccd_register_device
    split
    · exact h
    · exact h
  | unregister =>
    by_cases hreg : s.registered = true
    · obtain ⟨s₁, hs₁, h₁⟩ := hrep.toLinked.unregister k hreg
      cases hs.symm.trans hs₁
      rw [h₁.core]
      show AllIntact s.toCore.unregister
      unfold Core.unregister
      split
      · exact h
      · exact h
    · rw [Ccd.step, ccd_unregister_device, if_neg hreg] at hs
      cases hs
      exact h
  | open_ c mode nomem =>
    cases hs
    exact h.open_ m c mode nomem
  | close c =>
    simp only [Ccd.step, ccd_close] at hs
    split at hs
    · obtain ⟨s₁, hs₁, hs⟩ := Option.bind_eq_some_iff.mp hs
      cases hs
      exact (habort hs₁).close c
    · cases hs
      exact h
  | new_exposure c msg =>
    simp only [Ccd.step] at hs
    split at hs
    · rename_i hready
      rw [(hrep.new_exposure k c msg hready hs).core]
      rcases Sched.new_cases k s.view c msg rfl with ⟨-, hn⟩ | ⟨_, _, -, -, -, hn⟩ |
        ⟨_, _, -, -, -, hn⟩ | ⟨_, _, _, -, -, hn⟩ <;> rw [hn] <;> exact h
    · cases hs
      exact h
  | abort c =>
    simp only [Ccd.step] at hs
    split at hs
    · exact habort hs
    · cases hs
      exact h
  | expire =>
    rw [(hrep.expire hs).core]
    rcases s.view.expire_cases with ⟨-, hx⟩ | ⟨-, hx⟩ | ⟨i, -, -, hx⟩
    · rw [hx]
      exact h
    · rw [hx]
      exact h
    · have hstatic := Sched.finish_static i { s.view with toCore := s.view.toCore.del_timer }
      intro c
      rw [hx, show (Sched.finish i { s.view with toCore := s.view.toCore.del_timer }).clients =
        s.clients from congrArg (fun x => x.2.2.1) hstatic]
      exact h c
  | read c count =>
    simp only [Ccd.step] at hs
    split at hs
    · rename_i hready
      obtain ⟨⟨s₁, res⟩, hr, rfl⟩ := Option.map_eq_some_iff.mp hs
      refine ccd_read_intact k m hrep.toLinked h (fun hpos hempty i e hel he hc hcomplete => ?_) hr
      exact hok c count i e ⟨rfl, rfl, hpos, hempty, hready, hel, he, hc, hcomplete⟩
    · cases hs
      exact h
  | wake c count =>
    simp only [Ccd.step] at hs
    split at hs
    · rename_i hready
      obtain ⟨⟨s₁, res⟩, hr, rfl⟩ := Option.map_eq_some_iff.mp hs
      refine ccd_read_head_intact k m hrep.toLinked h (fun i e hel he hc hcomplete => ?_) hr
      exact hok c count i e ⟨rfl, rfl, hready, hel, he, hc, hcomplete⟩
    · cases hs
      exact h

/-- The output that has been staged is within the buffers of the clients, and a text read that
comes next, of those that `ok` admits, keeps the pixels that it has not converted. -/
structure OutputFits (s : State) (ok : Event → Prop) : Prop where
  overrun : ∀ c, (s.clients c).overrun = false
  waiting : ∀ c, (s.clients c).out_buf_len ≤ (s.clients c).out_buf_size
  pixels : ∀ ev, ok ev → ∀ c count i e, Fetches s c count i e ev → (s.clients c).mode = .text →
    PixelsKept k m i e.toParams s

/-- In every run whose reads all have room for what they stage, the staged output fits into the
clients' buffers, and the text of a row never reaches the pixels that are still to come. -/
theorem staged_output_fits {jiffies : ℕ} {s : State} (h : Runs k m (StageOk k) jiffies s) :
    OutputFits k m s (StageOk k s) := by
  have hinv : Represents s s.view ∧ AllIntact s.toCore := by
    refine Reach.induction_on (P := fun s => Represents s s.view ∧ AllIntact s.toCore) ?_ ?_ h
    · have hinit := Represents.init jiffies
      rw [hinit.toLinked.view_eq]
      exact ⟨hinit, fun _ => ⟨rfl, by norm_num [State.init, Client.closed],
        fun _ => Nat.zero_le _, le_refl 0⟩⟩
    · rintro s e s' ⟨hrep, hin⟩ hok hs
      obtain ⟨b, -, hb⟩ := step_refines k m hrep hs
      refine ⟨?_, hin.step k m hrep hok hs⟩
      rw [hb.toLinked.view_eq]
      exact hb
  obtain ⟨hrep, hin⟩ := hinv
  refine ⟨fun c => (hin c).overrun, fun c => (hin c).len_le, ?_⟩
  intro ev hok c count i e hf hmode
  have hroom := hok c count i e hf
  have hhead : AtHead s c i e := by
    cases ev with
    | read c' n => exact hf.2.2.2.2
    | wake c' n => exact hf.2.2
    | _ => exact hf.elim
  obtain ⟨-, hel, he, rfl, -⟩ := hhead
  unfold Room at hroom
  simp only [hmode] at hroom
  cases hq : s.view.queue with
  | nil =>
    have hchain := hrep.chain
    rw [Sched.ids, hq, hel] at hchain
    cases hchain
  | cons x rest =>
    obtain ⟨j, p⟩ := x
    obtain ⟨f, hf, hfp, hj, -⟩ := hrep.toLinked.head_cell hq
    cases hel.symm.trans hj
    cases he.symm.trans hf
    rw [← hfp] at hq
    exact pixels_kept k m (p := e.toParams) hrep.toLinked hq (hin e.client) hroom

/-- A client in text mode reads a frame of the small camera. -/
theorem staged_output_fits_small :
    ∃ s e, replay (step .hz100 .black) (State.init 0) (binned_run .text 1) = some s ∧
      Fetches s 0 4 0 e (.read 0 4) ∧ StageOk .hz100 s (.read 0 4) ∧
      OutputFits .hz100 .black s (StageOk .hz100 s) := by
  obtain ⟨s, hs, hg, hstart⟩ := @binned_start .text 1 (.inl rfl)
  obtain ⟨e, he, hep, hel, -⟩ := hstart.linked.head_cell hstart.queue
  have hquiet : ∀ (s : State) (ev : Event), (!ev.isRead) = true → StageOk .hz100 s ev := by
    intro s ev hev c count i e hf
    cases ev with
    | read c' n => cases hev
    | wake c' n => cases hev
    | _ => exact hf.elim
  have hreach : Runs .hz100 .black (StageOk .hz100) 0 s :=
    Reach.of_checked hquiet .init (show replay (fun s ev => if !ev.isRead then
      step .hz100 .black s ev else none) (State.init 0) (binned_run .text 1) = some s from hs)
  have hopen := hstart.client
  have hempty : (s.clients 0).out_buf_len = 0 := hopen.empty
  have hready : s.ready 0 = true := by
    have hopened : (replay (step .hz100 .black) (State.init 0) (binned_run .text 1)).map
        (fun s => s.ready 0) = some true := rfl
    rw [hs] at hopened
    exact Option.some.inj hopened
  refine ⟨s, e, hs, ⟨rfl, rfl, by norm_num, hempty, hready, hel, he, ?_, ?_⟩, ?_,
    staged_output_fits .hz100 .black hreach⟩
  · exact congrArg Params.client hep
  · exact congrArg Params.complete hep
  · rintro c count i f ⟨rfl, rfl, -, -, -, hlist, hf, -⟩
    cases hel.symm.trans hlist
    cases he.symm.trans hf
    have hmode : (s.clients 0).mode = .text := hopen.mode
    unfold Room
    simp only [hmode]
    refine TextRoom.of_open ?_ ?_ hempty ?_
    · rw [hg]
      exact ⟨by decide, by decide⟩
    · rw [hg]
      exact hopen.size
    · rw [hep, hg]
      decide

/-- A camera of one row of 300 8-bit pixels. -/
def Geometry.long : Geometry := ⟨[], 300, 1, 1, 1, 1, 8, 8, 0x0FFF, 0⟩

/-- A request for its row. -/
def long_frame : Msg := fun n =>
  ([0xCCDD, 28, 0, 0x0201, 300, 1, 0, 0, 1, 1, 8, 0, 100, 0] : List UInt16).getD n 0

/-- A client in binary mode reads the row with a buffer that has no room for it. -/
theorem staged_output_overruns :
    ¬ ∀ (k : Kernel) (m : Mini) (jiffies : ℕ) (s : State), Runs k m (fun _ _ => True) jiffies s →
      OutputFits k m s fun _ => True := by
  intro h
  have hover : (replay (step .hz100 .black) (State.init 0) [.register .long, .open_ 0 .binary false,
      .new_exposure 0 long_frame, .expire, .read 0 100]).map (fun s => (s.clients 0).overrun) =
      some true := by decide +kernel
  obtain ⟨s, hs, hover⟩ := Option.map_eq_some_iff.mp hover
  have hfits := (h .hz100 .black 0 s (Reach.init.of_replay hs)).overrun 0
  rw [hover] at hfits
  cases hfits

end EspLinux.Ccd
