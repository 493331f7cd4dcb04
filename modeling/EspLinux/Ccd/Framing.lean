import EspLinux.Ccd.Reads

/-!
# The framing of binary images

Whatever the sizes of the reads, the bytes that a client gets for a frame are the header and
the rows of the image, and the exposure is then removed, if and only if the image has a row
and a row with the header fits into the client's buffer.
-/

namespace EspLinux.Ccd

open EspLinux.Lib

variable (k : Kernel) (m : Mini)

/-- The message header of an image whose length field is `L`. -/
def frame_header (L : ℕ) : List UInt8 :=
  elem_bytes CCD_MSG_HEADER ++ elem_bytes L ++ elem_bytes (L / 2 ^ 16) ++ elem_bytes CCD_MSG_IMAGE

/-- After some reads `r` rows have been fetched in order, and the bytes delivered and
buffered are `hdr` and these rows. -/
structure SoFar (s : State) (c : Field) (p : Params) (hdr : List UInt8) (r : ℕ) (t : State)
    (out : List UInt8) : Prop where
  rows : ∃ l data, t.calls = s.calls ++ l ∧ Fetch s.geometry p 0 r l data ∧
    out ++ buffered (t.clients c) = hdr ++ data
  overrun : (t.clients c).overrun = false

/-- The reads of the given sizes deliver the frame: after some number of them the exposure
is removed, not before, and what was delivered or is left in the buffer is the header with
the length of the image and all its rows. -/
def Framed (s : State) (c : Field) (i : ℕ) (p : Params) (sizes gaps : ℕ → ℕ) : Prop :=
  ∃ L n, L = 8 + p.width / p.xbin * (p.height / p.ybin) * s.geometry.sizeof_pixel ∧
    L < 2 ^ 32 ∧ begun sizes n ∧ ∀ n' ≤ n, ∃ t out r, reads k m c sizes gaps n' s = some (t, out) ∧
      SoFar s c p (if begun sizes n' then frame_header L else []) r t out ∧
      (n' < n → r < p.height / p.ybin ∧ t.exposure_list = some i) ∧
      (n' = n → r = p.height / p.ybin ∧ Removed i t)

/-- The bytes for the first `r` rows. -/
def binary_bytes (hdr : List UInt8) (_row r : ℕ) (data b : List UInt8) : Prop :=
  b = if r = 0 then [] else hdr ++ data

/-- The image header is the one with the length of the image. -/
lemma image_header_eq {g : Geometry} {p : Params}
    (h : p.width / p.xbin * (p.height / p.ybin) * g.sizeof_pixel + 8 < 2 ^ 32) :
    image_header g p =
      frame_header (8 + p.width / p.xbin * (p.height / p.ybin) * g.sizeof_pixel) := by
  have hsize : image_size g p
      = 8 + p.width / p.xbin * (p.height / p.ybin) * g.sizeof_pixel := by
    rw [image_size, CCD_MSG_IMAGE_LEN, Nat.add_comm 8]
    exact Nat.mod_eq_of_lt h
  rw [image_header, hsize, frame_header]

/-- The rows of an image of less than 4 GiB are shorter. -/
lemma row_le_image {a b z : ℕ} (hb : 0 < b) (h : a * b * z + 8 < 2 ^ 32) : a * z + 8 < 2 ^ 32 := by
  have hle : a * z * 1 ≤ a * z * b := Nat.mul_le_mul_left _ hb
  rw [Nat.mul_right_comm] at h
  omega

variable {k m} {s t : State} {i r n : ℕ} {p : Params} {rest : List (ℕ × Params)}
  {sizes gaps : ℕ → ℕ} {out : List UInt8}

lemma BinaryClient.deliver (x : Client) (n : ℕ) (h : BinaryClient x) :
    BinaryClient (x.deliver n).1 := by
  refine ⟨h.mode, h.size, h.overrun, ?_⟩
  have := h.len
  simp only [Client.deliver]
  omega

lemma BinaryClient.of_opened {g : Geometry} {x : Client} (h : Opened g .binary x) :
    BinaryClient x :=
  ⟨h.mode, h.size, h.overrun, h.empty.trans_le (Nat.zero_le _)⟩

/-- A read in binary mode. -/
lemma serves_binary {count : ℕ} (hp : Plain s.geometry p) (hc : p.complete = 1)
    (hpos : 0 < count) (hcount : count ≤ MAX_RW_COUNT)
    (hfit : p.width / p.xbin * s.geometry.sizeof_pixel + 8 ≤ 256 ∨
      p.width / p.xbin * s.geometry.sizeof_pixel + 8 ≤ count) :
    Serves k m BinaryClient (binary_bytes (image_header s.geometry p)) s i p rest count := by
  intro r t h hzero
  obtain ⟨b, hb, hq⟩ := h.linked
  obtain ⟨t', data, out, q, hrun, hq0, hf, hx, hout⟩ := read_binary_spec k m
    hb hq (h.geometry ▸ hp) h.atRow h.lt h.client hzero
    (by unfold MAX_RW_COUNT at hcount; omega) (h.geometry ▸ hfit)
  refine ⟨t', out, data, q, ?_, hq0, hf, hx, fun data₀ b₀ hlen hb₀ => ?_⟩
  · rw [ccd_read_first k m hb hq hc h.registered hzero hpos hcount, h.client.mode, read_mode, hrun,
      Option.bind_some]
  · have hrow := h.row
    rw [binary_bytes, hout, if_neg (by omega), hb₀]
    split at hrow
    · rename_i hr
      rw [hr, Nat.zero_mul] at hlen
      rw [if_pos hr, List.eq_nil_of_length_eq_zero hlen, header, if_pos hrow, h.geometry]
      rfl
    · rename_i hr
      have hne : t.current_read_row ≠ CCD_START_FRAME_LOAD := by
        have := hp.row_lt h.lt.le
        rw [hrow]
        unfold CCD_START_FRAME_LOAD
        omega
      rw [if_neg hr, header, if_neg hne, List.nil_append, List.append_assoc]

/-- The reads of a plain image deliver it. -/
lemma FrameStart.framed {a : Sched} (h : FrameStart BinaryClient s a i p rest)
    (hp : Plain s.geometry p)
    (hsize : p.width / p.xbin * (p.height / p.ybin) * s.geometry.sizeof_pixel + 8 < 2 ^ 32)
    (hs : ReadSizes sizes)
    (hfit : ∀ n, 0 < sizes n → p.width / p.xbin * s.geometry.sizeof_pixel + 8 ≤ 256 ∨
      p.width / p.xbin * s.geometry.sizeof_pixel + 8 ≤ sizes n) :
    Framed k m s p.client i p sizes gaps := by
  obtain ⟨N, hN, hmore⟩ := @FrameStart.finish k m _ _ _ _ _ _ _ gaps _ h
    hp.rows_pos BinaryClient.deliver hs
    (fun n hn => serves_binary hp h.complete hn (hs.le n) (hfit n hn)) rfl
  rw [image_header_eq hsize] at hN hmore
  refine ⟨_, N, rfl, ?_, hN.sent, fun n' hn' => ?_⟩
  · omega
  · rcases hn'.eq_or_lt with rfl | hlt
    · obtain ⟨t, out, hrun, ⟨l, data, hcalls, hfetch, hbytes⟩, hx, hrem, -⟩ := hN.run
      refine ⟨t, out, _, hrun, ⟨⟨l, data, hcalls, hfetch, ?_⟩, hx.overrun⟩,
        fun hlt => absurd hlt (lt_irrefl _), fun _ => ⟨rfl, hrem⟩⟩
      rw [hbytes, if_neg hp.rows_pos.ne', hN.sent]
      rfl
    · obtain ⟨r, t, out, hm⟩ := hmore n' hlt
      obtain ⟨b, hb, hq⟩ := hm.linked
      obtain ⟨e, -, -, hel, -⟩ := hb.head_cell hq
      obtain ⟨l, data, hcalls, hfetch, hbytes⟩ := hm.soFar
      refine ⟨t, out, r, hm.run, ⟨⟨l, data, hcalls, hfetch, ?_⟩, hm.client.overrun⟩,
        fun _ => ⟨hm.lt, hel⟩, fun heq => by omega⟩
      rw [hbytes, hm.sent]
      rcases Nat.eq_zero_or_pos r with rfl | hr
      · have hnil := hfetch.size
        rw [Nat.zero_mul] at hnil
        rw [List.eq_nil_of_length_eq_zero hnil]
        rfl
      · simp [hr, hr.ne']

/-! ## Frames that go wrong -/

/-- A read of one byte never has room for a row of an image of less than 4 GiB. -/
lemma not_fits_one {p : Params} {x : Core} (h : row_bytes x.geometry p + 8 < 2 ^ 32)
    (hx : x.current_read_row = CCD_START_FRAME_LOAD) : ¬ fits_row k p 1 x := by
  have hbits := k.le_long
  unfold fits_row Kernel.size_t header_len CCD_MSG_IMAGE_LEN
  rw [if_pos hx]
  split
  · rw [Nat.mod_eq_of_lt (by omega)]
    omega
  · rw [Nat.mod_eq_of_lt (by omega)]
    omega

/-- The room that is left for the rows behind the header is enough for a row, also when the
sizes wrap around. -/
lemma room_of_fits_one {p : Params} {x : Core} (hx : x.current_read_row = CCD_START_FRAME_LOAD)
    (h : fits_row k p 1 x) : row_bytes x.geometry p ≤ u32 (1 + 2 ^ 32 - 8) := by
  have hrow : row_bytes x.geometry p < 2 ^ 32 := Nat.mod_lt _ (by norm_num)
  have hbits := k.le_long
  by_contra hlt
  have : u32 (1 + 2 ^ 32 - 8) = 2 ^ 32 - 7 := by decide
  unfold fits_row Kernel.size_t header_len CCD_MSG_IMAGE_LEN at h
  rw [if_pos hx, if_neg (by omega)] at h
  have hwrap : row_bytes x.geometry p + 2 ^ k.longBits - 2 ^ 32 + 8
      = row_bytes x.geometry p + 8 - 2 ^ 32 + 2 ^ k.longBits := by omega
  rw [hwrap, Nat.add_mod_right, Nat.mod_eq_of_lt (by omega)] at h
  omega

/-- At the start of a frame a row is fetched whenever there is room, also when the image has
no row. -/
lemma read_exposure_fetches {a : Sched} {count : ℕ} {data : List UInt8}
    (h : Linked s a) (hq : a.queue = (i, p) :: rest)
    (hrow : s.current_read_row = CCD_START_FRAME_LOAD)
    (hcount : row_bytes s.geometry p ≤ count)
    (hrun : read_exposure k m i count s = some (t, data)) :
    ∃ l, t.calls = s.calls ++ l ∧ readRows l ≠ [] := by
  obtain ⟨e, he, rfl, -, -⟩ := h.head_cell hq
  obtain ⟨x₀, hx₀⟩ : ∃ x₀, x₀ = (s.toCore.call (.begin_read e.yoffset e.flags)).set_row 0 :=
    ⟨_, rfl⟩
  have hbegin : begin_frame e.toParams s.toCore = x₀ := by
    rw [hx₀]
    exact if_pos hrow
  have hstart : row_bytes x₀.geometry e.toParams ≤ count ∧
      x₀.current_read_row ≤ last_row e.toParams := by
    rw [hx₀]
    exact ⟨hcount, Nat.zero_le _⟩
  obtain ⟨w, x₁, n', d', hone, hw, hcalls, hfresh⟩ : ∃ w x₁ n' d',
      read_rows m e.toParams ⟨x₀, count, []⟩ = .inl ⟨x₁, n', d'⟩ ∧ readRows [w] ≠ [] ∧
      x₁.calls = s.calls ++ [.begin_read e.yoffset e.flags, w] ∧ x₁.fresh = s.fresh := by
    refine ⟨.read_row e.xoffset (u32 (x₀.current_read_row + e.yoffset)) e.width e.xbin e.ybin
        e.dac_bits e.flags (Rows.next m e.toParams ⟨x₀, count, []⟩), _, _, _, if_pos hstart, ?_, ?_,
      ?_⟩
    · simp [readRows]
    · simp only [Core.call, Core.set_row, hx₀, List.append_assoc, List.singleton_append]
    · rw [hx₀]
      rfl
  have hlim : ∃ n, row_limit = n + 1 := by
    unfold row_limit
    exact ⟨_, rfl⟩
  obtain ⟨n, hn⟩ := hlim
  unfold read_exposure at hrun
  rw [he] at hrun
  simp only [Option.bind_eq_bind, Option.bind_some] at hrun
  rw [hbegin, hn, loop_inl hone] at hrun
  obtain ⟨z, hz, hrun⟩ := Option.bind_eq_some_iff.mp hrun
  have hcalm := read_rows_calm m hz
  obtain ⟨l, hl, -⟩ := hcalm.calls
  have hsofar : z.core.calls = s.calls ++ (.begin_read e.yoffset e.flags :: w :: l) := by
    rw [hl, hcalls, List.append_assoc]
    rfl
  have hlink : Linked { s with toCore := z.core } { a with toCore := z.core } :=
    h.set_core ((hcalm.fresh.trans hfresh).trans (congrArg Core.fresh h.core))
  have hne (l' : List Call) : readRows (.begin_read e.yoffset e.flags :: w :: l') ≠ [] := by
    have : readRows (.begin_read e.yoffset e.flags :: w :: l')
        = readRows [.begin_read e.yoffset e.flags] ++ (readRows [w] ++ readRows l') := by
      rw [← readRows_append, ← readRows_append]
      rfl
    rw [this]
    simp [hw]
  split at hrun
  · obtain ⟨t', ht', hrun⟩ := Option.bind_eq_some_iff.mp hrun
    cases hrun
    obtain ⟨l', hl', -⟩ := end_frame_calls k hlink hq ht'
    refine ⟨.begin_read e.yoffset e.flags :: w :: (l ++ l'), ?_, hne _⟩
    rw [hl']
    show z.core.calls ++ l' = _
    rw [hsofar, List.append_assoc]
    rfl
  · cases hrun
    exact ⟨_, hsofar, hne l⟩

/-- A request with more rows in a bin than in the image is given rows of which the header
says nothing. -/
lemma FrameStart.not_framed_of_lt {a : Sched} (h : FrameStart BinaryClient s a i p rest)
    (hy : p.height < p.ybin) : ¬ Framed k m s p.client i p (fun _ => 1) gaps := by
  rintro ⟨L, n, -, -, hbegun, hall⟩
  have hn : 1 ≤ n := by
    rcases Nat.eq_zero_or_pos n with rfl | hpos
    · cases hbegun
    · exact hpos
  have hzero : p.height / p.ybin = 0 := Nat.div_eq_of_lt hy
  obtain ⟨t, out, r, hrun, hsofar, hmid, hend⟩ := hall 1 hn
  have hr : r = 0 := by
    rcases hn.eq_or_lt with rfl | hlt
    · rw [(hend rfl).1, hzero]
    · have := (hmid hlt).1
      omega
  obtain ⟨l, data, hcalls, hfetch, -⟩ := hsofar.rows
  have hnone : readRows l = [] := by
    have hlen := congrArg List.length hfetch.rows
    rw [List.length_map, List.length_map, List.length_range, hr] at hlen
    exact List.eq_nil_of_length_eq_zero hlen
  -- but the read has fetched a row
  have hread := h.first_read hrun
  rw [h.client.mode, read_mode] at hread
  have hw := h.wait (gaps 0)
  obtain ⟨u, hu⟩ : ∃ u, u = s.wait (gaps 0) := ⟨_, rfl⟩
  have hucalls : u.calls = s.calls := by rw [hu]; rfl
  rw [← hu] at hw hread
  obtain ⟨e, he, rfl, -, -⟩ := hw.linked.head_cell hw.queue
  unfold read_binary_exposure at hread
  rw [he] at hread
  simp only [Option.bind_eq_bind, Option.bind_some] at hread
  obtain ⟨l', hl', hne⟩ : ∃ l', t.calls = u.calls ++ l' ∧ readRows l' ≠ [] := by
    have hlen : (header e.toParams u.toCore).length = 8 := by
      rw [length_header]
      exact if_pos hw.row
    split at hread
    · rename_i hfits
      obtain ⟨x, hx, hread⟩ := Option.bind_eq_some_iff.mp hread
      cases hread
      rw [hlen] at hx
      exact read_exposure_fetches hw.linked hw.queue hw.row (room_of_fits_one hw.row hfits) hx
    · obtain ⟨x, hx, hread⟩ := Option.bind_eq_some_iff.mp hread
      obtain ⟨l', hl', hne⟩ := read_exposure_fetches hw.linked hw.queue hw.row (le_refl _) hx
      cases hread
      exact ⟨l', hl', hne⟩
  rw [hucalls] at hl'
  rw [hcalls] at hl'
  rw [← List.append_cancel_left hl', hnone] at hne
  exact hne rfl

/-- A row that does not fit is stored behind the end of the client's buffer. -/
lemma FrameStart.not_framed_of_long {a : Sched} (h : FrameStart BinaryClient s a i p rest)
    (hy : p.ybin ≤ p.height) (hrow : 256 < p.width / p.xbin * s.geometry.sizeof_pixel + 8) :
    ¬ Framed k m s p.client i p (fun _ => 1) gaps := by
  rintro ⟨L, n, rfl, hL, hbegun, hall⟩
  have hn : 1 ≤ n := by
    rcases Nat.eq_zero_or_pos n with rfl | hpos
    · cases hbegun
    · exact hpos
  rw [Nat.add_comm] at hL
  have hrow' := row_le_image (Nat.div_pos hy h.ybin_pos) hL
  have hp := h.plain hy (by omega)
  have hrb := hp.row_bytes_eq
  obtain ⟨t, out, r, hrun, hsofar, -, -⟩ := hall 1 hn
  have hread := h.first_read hrun
  rw [h.client.mode, read_mode] at hread
  have hover := hsofar.overrun
  have hw := h.wait (gaps 0)
  obtain ⟨u, hu⟩ : ∃ u, u = s.wait (gaps 0) := ⟨_, rfl⟩
  have hgeom : u.geometry = s.geometry := by rw [hu]; rfl
  rw [← hu] at hw hread
  rw [← hgeom] at hp hrow hrow' hrb
  obtain ⟨e, he, rfl, -, -⟩ := hw.linked.head_cell hw.queue
  have hsmall : row_bytes u.geometry e.toParams + 8 < 2 ^ 32 := by
    rw [hrb]
    exact hrow'
  obtain ⟨t₁, data, q, hrun₁, hlen, hpos, hcl, hf⟩ := @read_exposure_spec k m _ _ _ _
    (row_bytes u.geometry e.toParams) _ _ hw.linked hw.queue hp (.inl ⟨hw.row, rfl⟩)
    hp.rows_pos
  have hdata : row_bytes u.geometry e.toParams ≤ data.length := by
    obtain ⟨l, -, hfetch⟩ := hf.calls
    rw [hfetch.size, hrb]
    exact Nat.le_mul_of_pos_left _ (hpos (by omega))
  have hhead : (header e.toParams u.toCore).length = 8 := by
    rw [length_header]
    exact if_pos hw.row
  unfold read_binary_exposure at hread
  rw [he] at hread
  simp only [Option.bind_eq_bind, Option.bind_some] at hread
  rw [if_neg (not_fits_one hsmall hw.row), hrun₁, Option.bind_some] at hread
  cases hread
  simp only [Core.set_client, Function.update_self, Bool.or_eq_false_iff, hcl, hw.client.size,
    decide_eq_false_iff_not, List.length_append, hhead] at hover
  omega

/-- The reads of a frame deliver it, whatever their sizes, exactly if the image has a row and
a row with the header fits into the client's buffer.  A longer row is delivered too by reads
that are large enough for it. -/
theorem binary_image_framing {a : Sched} (h : FrameStart BinaryClient s a i p rest) :
    ((∀ sizes gaps, ReadSizes sizes → Framed k m s p.client i p sizes gaps) ↔
      p.ybin ≤ p.height ∧ p.width / p.xbin * s.geometry.sizeof_pixel + 8 ≤ 256) ∧
    (p.ybin ≤ p.height →
      p.width / p.xbin * (p.height / p.ybin) * s.geometry.sizeof_pixel + 8 < 2 ^ 32 →
      ∀ sizes gaps, ReadSizes sizes →
        (∀ n, 0 < sizes n → p.width / p.xbin * s.geometry.sizeof_pixel + 8 ≤ sizes n) →
        Framed k m s p.client i p sizes gaps) := by
  refine ⟨⟨fun hall => ?_, fun ⟨hy, hrow⟩ sizes gaps hs => ?_⟩,
    fun hy hsize sizes gaps hs hlarge => ?_⟩
  · have hframed := hall _ (fun _ => 0) .ones
    refine ⟨?_, ?_⟩
    · by_contra hlt
      exact h.not_framed_of_lt (Nat.not_le.mp hlt) hframed
    · by_contra hlt
      by_cases hy : p.ybin ≤ p.height
      · exact h.not_framed_of_long hy (Nat.not_le.mp hlt) hframed
      · exact h.not_framed_of_lt (Nat.not_le.mp hy) hframed
  · refine h.framed (h.plain hy (by omega)) ?_ hs fun n _ => .inl hrow
    obtain ⟨msg, hmsg⟩ := h.request
    have hheight := (request_bounds s.geometry p.client msg).2.1
    rw [← hmsg] at hheight
    have hrows : p.height / p.ybin ≤ 2 ^ 16 := (Nat.div_le_self _ _).trans hheight.le
    have hmul := Nat.mul_le_mul (Nat.le_sub_of_add_le hrow) hrows
    rw [Nat.mul_right_comm]
    omega
  · have hrow := row_le_image (Nat.div_pos hy h.ybin_pos) hsize
    exact h.framed (h.plain hy (by omega)) hsize hs fun n hn => .inr (hlarge n hn)

/-- The frame is read in bytes. -/
theorem binary_image_framing_small :
    ∃ s, replay (step .hz100 .black) (State.init 0) (binned_run .binary 1) = some s ∧
      FrameStart BinaryClient s s.view 0 (binned_params 1) [] ∧
      Framed .hz100 .black s 0 0 (binned_params 1) (fun _ => 1) fun _ => 0 := by
  obtain ⟨s, hs, hgeom, hstart⟩ := binned_start .binary (.inl rfl)
  have hstart := hstart.imp BinaryClient.of_opened
  refine ⟨s, hs, hstart, (binary_image_framing hstart).1.mpr ⟨by decide, ?_⟩ _ _ .ones⟩
  rw [hgeom]
  decide

/-- Four rows are binned into one, and the camera has two. -/
theorem image_without_rows :
    ∃ s, replay (step .hz100 .black) (State.init 0) (binned_run .binary 4) = some s ∧
      FrameStart BinaryClient s s.view 0 (binned_params 4) [] ∧ ReadSizes (fun _ => 1) ∧
      ¬ Framed .hz100 .black s 0 0 (binned_params 4) (fun _ => 1) fun _ => 0 := by
  obtain ⟨s, hs, -, hstart⟩ := binned_start .binary (.inr rfl)
  have hstart := hstart.imp BinaryClient.of_opened
  exact ⟨s, hs, hstart, ReadSizes.ones, hstart.not_framed_of_lt (by decide)⟩

end EspLinux.Ccd
