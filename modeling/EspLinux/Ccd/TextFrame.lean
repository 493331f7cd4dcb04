import EspLinux.Ccd.TextImage

/-!
# Complete text images

The end tag of an image is written if the device is still at the end of the frame when the
exposure has been removed.  It is not when the next exposure has been latched in the meantime,
which happens at once if that exposure was running already and its time is over.
-/

namespace EspLinux.Ccd

open EspLinux.Lib

/-- A number in decimal notation. -/
def Numeral (l : List UInt8) : Prop := l ≠ [] ∧ ∀ b ∈ l, isDigit b = true

/-- The text of an image of `b` rows of `a` pixels: a start tag, the rows with each number on
a line of its own, and an end tag. -/
def WellFormed (a b : ℕ) (text : List UInt8) : Prop :=
  ∃ (w h : List UInt8) (rows : List (List (List UInt8))), Numeral w ∧ Numeral h ∧
    rows.length = b ∧ (∀ row ∈ rows, row.length = a ∧ ∀ n ∈ row, Numeral n) ∧
    text = (chars "<IMAGE WIDTH=" ++ w ++ chars " HEIGHT=" ++ h ++ chars ">\n") ++
      (rows.flatten.flatMap (fun n => n ++ chars "\n") ++ end_tag)

/-- Read `n` is the one that removes the exposure. -/
structure LastRead (k : Kernel) (m : Mini) (s : State) (i : ℕ) (p : Params) (sizes gaps : ℕ → ℕ)
    (n : ℕ) (t : State) (out : List UInt8) : Prop where
  run : reads k m p.client sizes gaps n s = some (t, out)
  removed : Removed i t
  first : ∀ n' < n, ∀ t' out', reads k m p.client sizes gaps n' s = some (t', out') →
    ¬ Removed i t'

/-! ## Rows of numbers -/

lemma exists_rows {α : Type*} (a b : ℕ) (l : List α) (h : l.length = b * a) :
    ∃ rows : List (List α), rows.length = b ∧ (∀ row ∈ rows, row.length = a) ∧
      rows.flatten = l := by
  induction b generalizing l with
  | zero =>
    rw [Nat.zero_mul] at h
    exact ⟨[], rfl, by simp, (List.eq_nil_of_length_eq_zero h).symm⟩
  | succ b ih =>
    rw [Nat.succ_mul] at h
    obtain ⟨rows, hlen, hrow, hflat⟩ := ih (l.drop a) (by rw [List.length_drop]; omega)
    refine ⟨l.take a :: rows, by rw [List.length_cons, hlen], ?_, ?_⟩
    · intro row hmem
      rcases List.mem_cons.mp hmem with rfl | hmem
      · rw [List.length_take]
        omega
      · exact hrow row hmem
    · rw [List.flatten_cons, hflat, List.take_append_drop]

lemma numeral_digit {v : ℕ} (h : v < 10) : Numeral [digit v] := by
  refine ⟨by simp, fun b hb => ?_⟩
  rw [List.mem_singleton.mp hb]
  exact isDigit_digit h

/-- With the end tag, the text is that of an image. -/
lemma wellFormed_of_end {a b : ℕ} (p : Params) (l : List ℕ) (h : l.length = b * a) :
    WellFormed a b (start_tag p ++ (lines l ++ end_tag)) := by
  obtain ⟨rows, hlen, hrow, hflat⟩ := exists_rows a b (l.map fun v => [digit (lead v)])
    (by rw [List.length_map, h])
  refine ⟨[digit (lead (p.width / p.xbin))], [digit (lead (p.height / p.ybin))], rows,
    numeral_digit (lead_lt _), numeral_digit (lead_lt _), hlen, fun row hmem => ⟨hrow row hmem, ?_⟩,
    ?_⟩
  · intro n hn
    have hmem' : n ∈ l.map fun v => [digit (lead v)] := by
      rw [← hflat]
      exact List.mem_flatten.mpr ⟨row, hmem, hn⟩
    obtain ⟨v, -, rfl⟩ := List.mem_map.mp hmem'
    exact numeral_digit (lead_lt v)
  · rw [hflat, List.flatMap_map]
    rfl

/-- A text that stops behind the line of a pixel is not that of an image. -/
lemma not_wellFormed_of_lines {a b : ℕ} (p : Params) (l : List ℕ) (h : l ≠ []) :
    ¬ WellFormed a b (start_tag p ++ lines l) := by
  rintro ⟨w, ht, rows, -, -, -, -, htext⟩
  obtain ⟨l', v, rfl⟩ := (List.eq_nil_or_concat l).resolve_left h
  have hlines : start_tag p ++ lines (l'.concat v)
      = (start_tag p ++ lines l') ++ [digit (lead v), 10] := by
    simp [lines, chars]
  have htag : end_tag = chars "</IMAGE" ++ [62, 10] := by decide
  rw [hlines, htag, ← List.append_assoc, ← List.append_assoc] at htext
  have htail := (List.append_inj' htext rfl).2
  simp only [List.cons.injEq] at htail
  -- a digit is not a bracket
  have hval := congrArg UInt8.toNat htail.1
  have hlt := lead_lt v
  rw [digit_toNat hlt] at hval
  simp at hval
  omega

/-! ## Frames -/

variable {k : Kernel} {m : Mini} {s : State} {i : ℕ} {p : Params} {rest : List (ℕ × Params)}
  {sizes gaps : ℕ → ℕ}

lemma MidFrame.not_removed {ok : Client → Prop} {r : ℕ} {t : State}
    (h : MidFrame ok s i p rest r t) : ¬ Removed i t := by
  rintro ⟨hnone, -⟩
  obtain ⟨b, hb, hq⟩ := h.linked
  obtain ⟨e, he, -⟩ := hb.head_cell hq
  rw [hnone] at he
  cases he

/-- The read that removes the exposure is the one that the reads come to. -/
lemma LastRead.unique {n n' : ℕ} {t t' : State} {out out' : List UInt8}
    (h : LastRead k m s i p sizes gaps n t out) (h' : LastRead k m s i p sizes gaps n' t' out') :
    n = n' ∧ t = t' ∧ out = out' := by
  rcases lt_trichotomy n n' with hlt | rfl | hlt
  · exact absurd h.removed (h'.first n hlt t out h.run)
  · have := h.run.symm.trans h'.run
    simp only [Option.some.injEq, Prod.mk.injEq] at this
    exact ⟨rfl, this⟩
  · exact absurd h'.removed (h.first n' hlt t' out' h'.run)

lemma Roomy.of_lt {g : Geometry} (hlt : g.width * g.sizeof_pixel * 3 + g.width + 32 < 2 ^ 32)
    (hw : 0 < g.width) (hz : 0 < g.sizeof_pixel) : Roomy g := by
  refine ⟨hlt, ?_⟩
  have := Nat.mul_pos hw hz
  omega

/-- The reads of a text frame remove the exposure.  The text that they have delivered and left
in the buffer then has its end tag if the next exposure is not due. -/
lemma FrameStart.text_last {a : Sched} (h : FrameStart (TextClient s.geometry) s a i p rest)
    (hz : 0 < s.geometry.sizeof_pixel)
    (hbuf : s.geometry.width * s.geometry.sizeof_pixel * 3 + s.geometry.width + 32 < 2 ^ 32)
    (hx : 1 ≤ p.width / p.xbin) (hy : p.ybin ≤ p.height) (hs : ReadSizes sizes) :
    ∃ n t out, LastRead k m s i p sizes gaps n t out ∧
      (WellFormed (p.width / p.xbin) (p.height / p.ybin) (out ++ buffered (t.clients p.client)) ↔
        ¬ Due k p rest (s.jiffies + ∑ j ∈ Finset.range n, gaps j)) := by
  have hroom : Roomy s.geometry := .of_lt hbuf (hx.trans h.width_le.1) hz
  obtain ⟨N, hN, hmore⟩ := h.text_finish (k := k) (m := m) hroom hy hs
  obtain ⟨t, out, hrun, ⟨l, data, -, hfetch, hbytes⟩, -, hrem, htime, hrow⟩ := hN.run
  rw [htime] at hrow
  refine ⟨N, t, out, ⟨hrun, hrem, fun n' hn' t' out' hrun' => ?_⟩, ?_⟩
  · obtain ⟨r, t'', out'', hm⟩ := hmore n' hn'
    have heq := hm.run.symm.trans hrun'
    simp only [Option.some.injEq, Prod.mk.injEq] at heq
    rw [← heq.1]
    exact hm.not_removed
  have hrows : 0 < p.height / p.ybin := Nat.div_pos hy h.ybin_pos
  have hcount : (shown s.geometry.sizeof_pixel data).length
      = p.height / p.ybin * (p.width / p.xbin) := by
    rw [shown, grid, List.length_map, List.length_range, hfetch.size, ← Nat.mul_assoc,
      Nat.mul_div_cancel _ hz]
  rcases hbytes with ⟨hzero, -⟩ | ⟨-, htext⟩
  · exact absurd hzero hrows.ne'
  · rw [htext]
    by_cases hdue : Due k p rest (s.jiffies + ∑ j ∈ Finset.range N, gaps j)
    · have hne : shown s.geometry.sizeof_pixel data ≠ [] := by
        rw [← List.length_pos_iff, hcount]
        exact Nat.mul_pos hrows hx
      rw [hrow, if_pos hdue, if_neg (by decide), List.append_nil]
      exact iff_of_false (not_wellFormed_of_lines p _ hne) (not_not_intro hdue)
    · rw [hrow, if_neg hdue, if_pos rfl]
      exact iff_of_true (wellFormed_of_end p _ hcount) hdue

/-- The reads of a text frame remove the exposure, and when they have done so the text that
they have delivered and left in the buffer is that of an image exactly if the next exposure was
not running already with its time over. -/
theorem text_image_well_formed {a : Sched} (h : FrameStart (TextClient s.geometry) s a i p rest)
    (hz : 0 < s.geometry.sizeof_pixel)
    (hbuf : s.geometry.width * s.geometry.sizeof_pixel * 3 + s.geometry.width + 32 < 2 ^ 32)
    (hx : 1 ≤ p.width / p.xbin) (hy : p.ybin ≤ p.height) (hs : ReadSizes sizes) :
    (∃ n t out, LastRead k m s i p sizes gaps n t out) ∧
    ∀ n t out, LastRead k m s i p sizes gaps n t out →
      (WellFormed (p.width / p.xbin) (p.height / p.ybin) (out ++ buffered (t.clients p.client)) ↔
        ¬ Due k p rest (s.jiffies + ∑ j ∈ Finset.range n, gaps j)) := by
  obtain ⟨n, t, out, hlast, hiff⟩ := h.text_last (k := k) (m := m) hz hbuf hx hy hs
  refine ⟨⟨n, t, out, hlast⟩, fun n' t' out' hlast' => ?_⟩
  obtain ⟨rfl, rfl, rfl⟩ := hlast'.unique hlast
  exact hiff

/-- A frame with nothing behind it. -/
theorem text_image_well_formed_small :
    ∃ s, replay (step .hz100 .black) (State.init 0) (binned_run .text 1) = some s ∧
      ∃ n t out, LastRead .hz100 .black s 0 (binned_params 1) (fun _ => 1) (fun _ => 0) n t out ∧
        WellFormed 2 2 (out ++ buffered (t.clients 0)) := by
  obtain ⟨s, hs, hgeom, hstart⟩ := binned_start .text (.inl rfl)
  have hstart : FrameStart (TextClient s.geometry) s s.view 0 (binned_params 1) [] :=
    hstart.imp fun h => ⟨h.mode, hgeom ▸ h.size, h.overrun⟩
  obtain ⟨⟨n, t, out, hlast⟩, hiff⟩ := text_image_well_formed (k := .hz100) (m := .black)
    hstart (by rw [hgeom]; decide) (by rw [hgeom]; decide) (by decide)
    (by decide) .ones
  exact ⟨s, hs, n, t, out, hlast, (hiff n t out hlast).mpr id⟩

/-- The exposure of the odd field, and that of the even field which is started a tick later. -/
def field_params (c : Field) (begin_ : ℕ) (complete : ℤ) : Params :=
  { xoffset := 0, yoffset := 0, width := 2, height := 2, xbin := 1, ybin := 1, dac_bits := 8,
    msec := 100, flags := if c = 1 then 1 else 10, begin_ := begin_, end_ := begin_ + 10,
    complete := complete, client := c }

/-- Both fields are exposed at the same time, and the odd one is read when the even one is
due: its text has no end. -/
theorem text_image_without_end :
    ∃ s, replay (step .hz100 .black) (State.init 0)
        [.register .small, .open_ 1 .text false, .open_ 2 .text false,
          .new_exposure 1 (whole_frame 0 100), .tick 1, .new_exposure 2 (whole_frame 8 100), .tick 9,
          .expire, .tick 10] = some s ∧
      FrameStart (TextClient s.geometry) s s.view 0 (field_params 1 0 1)
        [(1, field_params 2 1 0)] ∧
      ∀ n t out,
        LastRead .hz100 .black s 0 (field_params 1 0 1) (fun _ => 1) (fun _ => 0) n t out →
        ¬ WellFormed 2 2 (out ++ buffered (t.clients 1)) := by
  have hview : (replay (step .hz100 .black) (State.init 0)
        [.register .small, .open_ 1 .text false, .open_ 2 .text false,
          .new_exposure 1 (whole_frame 0 100), .tick 1, .new_exposure 2 (whole_frame 8 100), .tick 9,
          .expire, .tick 10]).map
      (fun s => (s.view.queue, s.registered, s.current_read_row, s.geometry,
        (s.clients 1).mode, (s.clients 1).out_buf_size, (s.clients 1).overrun,
        (s.clients 1).out_buf_len, s.jiffies)) =
      some ([(0, field_params 1 0 1), (1, field_params 2 1 0)], true, CCD_START_FRAME_LOAD, .small,
        .text, out_buf_size .small .text, false, 0, 20) := by
    rfl
  obtain ⟨s, hs, hview⟩ := Option.map_eq_some_iff.mp hview
  simp only [Prod.mk.injEq] at hview
  obtain ⟨hqueue, hreg, hrow, hgeom, hmode, hsize, hover, hlen, htime⟩ := hview
  obtain ⟨a, ha⟩ := Runs.represents (Reach.of_replay .init hs)
  have hstart : FrameStart (TextClient s.geometry) s s.view 0 (field_params 1 0 1)
      [(1, field_params 2 1 0)] := by
    refine ⟨?_, hqueue, rfl, ⟨whole_frame 0 100, ?_⟩, hreg, ⟨hmode, hgeom ▸ hsize, hover⟩, hlen,
      hrow⟩
    · rw [ha.toLinked.view_eq]
      exact ha.toLinked
    · rw [hgeom]
      decide
  refine ⟨s, hs, hstart, fun n t out hlast => ?_⟩
  obtain ⟨n', t', out', hlast', hiff⟩ := hstart.text_last (k := .hz100) (m := .black)
    (by rw [hgeom]; decide) (by rw [hgeom]; decide) (by decide) (by decide)
    .ones
  obtain ⟨rfl, rfl, rfl⟩ := hlast.unique hlast'
  refine fun hw => hiff.mp hw ?_
  rw [htime, Finset.sum_const_zero]
  decide

end EspLinux.Ccd
