import EspLinux.Ccd.Lists

/-!
# Binary images

What one `read` on a binary device does: the row loop, `read_exposure` and
`read_binary_exposure`.  The specifications are for images that have a row at all
(`ybin ≤ height`; otherwise the bound of the row loop wraps around).
-/

namespace EspLinux.Ccd

open EspLinux.Lib

variable (k : Kernel) (m : Mini)

/-! ## The rows in the log -/

/-- The rows that were fetched, with their bytes. -/
def readRows (l : List Call) : List (ℕ × List UInt8) :=
  l.filterMap fun
    | .read_row _ row _ _ _ _ _ data => some (row, data)
    | _ => none

@[simp] lemma readRows_append (l l' : List Call) :
    readRows (l ++ l') = readRows l ++ readRows l' := List.filterMap_append

/-- Calls about frames fetch no rows. -/
lemma readRows_frames {l : List Call} (h : ∀ w ∈ l, w.isFrame = true) : readRows l = [] := by
  refine List.filterMap_eq_nil_iff.mpr fun w hw => ?_
  have := h w hw
  cases w <;> simp_all [Call.isFrame]

/-- The calls `l` fetched the `q` rows of the image from row `r` on, and their bytes are
`data`. -/
structure Fetch (g : Geometry) (p : Params) (r q : ℕ) (l : List Call) (data : List UInt8) :
    Prop where
  rows : (readRows l).map Prod.fst = (List.range q).map fun j => p.yoffset + (r + j) * p.ybin
  bytes : ((readRows l).map Prod.snd).flatten = data
  size : data.length = q * (p.width / p.xbin * g.sizeof_pixel)

namespace Fetch

variable {g : Geometry} {p : Params} {r q q' : ℕ} {l l' : List Call} {data data' : List UInt8}

lemma none (h : readRows l = []) : Fetch g p r 0 l [] :=
  ⟨by simp [h], by simp [h], by simp⟩

lemma append (h : Fetch g p r q l data) (h' : Fetch g p (r + q) q' l' data') :
    Fetch g p r (q + q') (l ++ l') (data ++ data') := by
  refine ⟨?_, ?_, ?_⟩
  · rw [readRows_append, List.map_append, h.rows, h'.rows, List.range_add, List.map_append,
      List.map_map]
    congr 1
    refine List.map_congr_left fun j _ => ?_
    simp [Nat.add_assoc]
  · rw [readRows_append, List.map_append, List.flatten_append, h.bytes, h'.bytes]
  · rw [List.length_append, h.size, h'.size, Nat.add_mul]

end Fetch

/-! ## The row loop -/

/-- An image with at least one row, whose rows have a 32-bit number of bytes. -/
structure Plain (g : Geometry) (p : Params) : Prop where
  ybin_pos : 0 < p.ybin
  ybin_le : p.ybin ≤ p.height
  height_lt : p.height < 2 ^ 16
  yoffset_lt : p.yoffset < 2 ^ 16
  bytes_lt : p.width / p.xbin * g.sizeof_pixel < 2 ^ 32

namespace Plain

variable {g : Geometry} {p : Params}

lemma rows_pos (h : Plain g p) : 0 < p.height / p.ybin :=
  Nat.div_pos h.ybin_le h.ybin_pos

lemma row_bytes_eq (h : Plain g p) : row_bytes g p = p.width / p.xbin * g.sizeof_pixel :=
  Nat.mod_eq_of_lt h.bytes_lt

lemma last_row_eq (h : Plain g p) : last_row p = p.height - p.ybin := by
  have := h.ybin_le
  have := h.height_lt
  unfold last_row u32
  omega

/-- The bound of the loop lets through the rows of the image. -/
lemma le_last_row (h : Plain g p) (r : ℕ) :
    r * p.ybin ≤ last_row p ↔ r < p.height / p.ybin := by
  have hle := h.ybin_le
  rw [h.last_row_eq, ← Nat.succ_le_iff, Nat.le_div_iff_mul_le h.ybin_pos, Nat.succ_mul]
  omega

lemma row_lt (h : Plain g p) {r : ℕ} (hr : r ≤ p.height / p.ybin) : r * p.ybin < 2 ^ 16 :=
  calc r * p.ybin ≤ p.height / p.ybin * p.ybin := Nat.mul_le_mul_right _ hr
    _ ≤ p.height := Nat.div_mul_le_self _ _
    _ < 2 ^ 16 := h.height_lt

end Plain

/-- The device after the calls `l`, which have brought it to row `row`. -/
def Core.fetched (l : List Call) (row : ℕ) (x : Core) : Core :=
  { x with calls := x.calls ++ l, current_read_row := row }

lemma Core.fetched_fetched (l l' : List Call) (row row' : ℕ) (x : Core) :
    (x.fetched l row).fetched l' row' = x.fetched (l ++ l') row' := by
  simp only [Core.fetched, List.append_assoc]

/-- The row loop fetches rows until the image or the room ends. -/
lemma read_rows_spec {p : Params} {x : Rows} {r d : ℕ} (h : Plain x.core.geometry p)
    (hd : r + d = p.height / p.ybin) (hr : x.core.current_read_row = r * p.ybin) :
    ∃ z q l data, loop (read_rows m p) (d + 1) x = some z ∧
      z.core = x.core.fetched l ((r + q) * p.ybin) ∧ z.data = x.data ++ data ∧
      q ≤ d ∧ data.length ≤ x.count ∧
      (0 < d → p.width / p.xbin * x.core.geometry.sizeof_pixel ≤ x.count → 0 < q) ∧
      Fetch x.core.geometry p r q l data := by
  have hsame : x.core = x.core.fetched [] ((r + 0) * p.ybin) := by
    simp only [Core.fetched, List.append_nil, Nat.add_zero, ← hr]
  induction d generalizing x r with
  | zero =>
    have hstop : ¬ (row_bytes x.core.geometry p ≤ x.count ∧
        x.core.current_read_row ≤ last_row p) := by
      rw [hr, h.le_last_row]
      omega
    exact ⟨x, 0, [], [], loop_inr (if_neg hstop), hsame, by simp, le_refl _, Nat.zero_le _,
      by simp, .none rfl⟩
  | succ d ih =>
    by_cases hroom : row_bytes x.core.geometry p ≤ x.count
    · have hgo : row_bytes x.core.geometry p ≤ x.count ∧
          x.core.current_read_row ≤ last_row p := by
        refine ⟨hroom, ?_⟩
        rw [hr, h.le_last_row]
        omega
      have hrow : u32 (x.core.current_read_row + p.yoffset) = p.yoffset + r * p.ybin := by
        have := h.row_lt (r := r) (by omega)
        have := h.yoffset_lt
        rw [hr]
        unfold u32
        omega
      have hnext : u32 (x.core.current_read_row + p.ybin) = (r + 1) * p.ybin := by
        have := h.row_lt (r := r + 1) (by omega)
        rw [hr, ← Nat.add_one_mul]
        exact Nat.mod_eq_of_lt (by omega)
      have hlen : (x.next m p).length = row_bytes x.core.geometry p := by
        simp [Rows.next]
      obtain ⟨w, hw⟩ : ∃ w, w = Call.read_row p.xoffset (p.yoffset + r * p.ybin) p.width p.xbin
          p.ybin p.dac_bits p.flags (x.next m p) := ⟨_, rfl⟩
      have hone : read_rows m p x = .inl
          { core := x.core.fetched [w] ((r + 1) * p.ybin)
            count := x.count - row_bytes x.core.geometry p
            data := x.data ++ x.next m p } := by
        rw [read_rows, if_pos hgo, hrow, hnext, hw]
        rfl
      obtain ⟨z, q, l, data, hloop, hcore, hdata, hq, hle, -, hf⟩ := ih (r := r + 1)
        (x := { core := x.core.fetched [w] ((r + 1) * p.ybin)
                count := x.count - row_bytes x.core.geometry p
                data := x.data ++ x.next m p }) h (by omega) rfl
        (by simp [Core.fetched])
      have hfirst : Fetch x.core.geometry p r 1 [w] (x.next m p) := by
        refine ⟨by simp [readRows, hw], by simp [readRows, hw], ?_⟩
        rw [hlen, h.row_bytes_eq, Nat.one_mul]
      refine ⟨z, q + 1, w :: l, x.next m p ++ data, ?_, ?_, ?_, by omega, ?_,
        fun _ _ => Nat.succ_pos q, ?_⟩
      · rw [loop_inl hone, hloop]
      · rw [hcore, Core.fetched_fetched, show r + 1 + q = r + (q + 1) by omega]
        rfl
      · rw [hdata, List.append_assoc]
      · rw [List.length_append, hlen]
        have : data.length ≤ x.count - row_bytes x.core.geometry p := hle
        omega
      · rw [Nat.add_comm q 1]
        exact hfirst.append hf
    · refine ⟨x, 0, [], [], loop_inr (if_neg fun hc => hroom hc.1), hsame, by simp,
        Nat.zero_le _, Nat.zero_le _, fun _ hle => ?_, .none rfl⟩
      rw [h.row_bytes_eq] at hroom
      exact absurd hle hroom

/-! ## One read of the exposure -/

/-- The exposure that was read to its end is no longer in the queue. -/
lemma Sched.endFrame_notMem {a : Sched} (hnd : a.ids.Nodup) (i : ℕ) (p : Params) :
    i ∉ (a.endFrame k i p).ids := by
  intro hmem
  have hdel := Sched.del_tags k (a := ⟨(a.toCore.call (.end_read p.flags)).set_row
    CCD_END_FRAME_LOAD, a.queue, a.owned⟩) hnd i
  obtain ⟨c, hc⟩ := Sched.mem_ids_iff.mp hmem
  have hc' : (i, c) ∈ (Sched.del k i ⟨(a.toCore.call (.end_read p.flags)).set_row
    CCD_END_FRAME_LOAD, a.queue, a.owned⟩).tags := hc
  rw [hdel] at hc'
  simp at hc'

/-- The next exposure has been started and its time is over, so that it is latched as soon as
`p` has left the queue. -/
def Due (p : Params) (rest : List (ℕ × Params)) (jiffies : ℕ) : Prop :=
  match rest with
  | [] => False
  | (_, q) :: _ => q.begin_ < p.end_ ∧ q.end_ ≤ jiffies % 2 ^ k.longBits ∧ q.complete = 0

instance (p : Params) (rest : List (ℕ × Params)) (jiffies : ℕ) :
    Decidable (Due k p rest jiffies) := by
  cases rest <;> unfold Due <;> infer_instance

/-- Where the device is after the end of a frame: at the start of the next one if that is
due. -/
lemma Sched.endFrame_row {a : Sched} {i : ℕ} {p : Params} {rest : List (ℕ × Params)}
    (hq : a.queue = (i, p) :: rest) :
    (a.endFrame k i p).current_read_row =
      if Due k p rest a.jiffies then CCD_START_FRAME_LOAD else CCD_END_FRAME_LOAD := by
  show (Sched.del k i ⟨(a.toCore.call (.end_read p.flags)).set_row CCD_END_FRAME_LOAD, a.queue,
    a.owned⟩).current_read_row = _
  obtain ⟨x, hx⟩ : ∃ x, x = (a.toCore.call (.end_read p.flags)).set_row CCD_END_FRAME_LOAD :=
    ⟨_, rfl⟩
  obtain ⟨y, hy⟩ : ∃ y, y = if p.complete = 0 then x.del_timer else x := ⟨_, rfl⟩
  have hrow : y.current_read_row = CCD_END_FRAME_LOAD ∧ y.jiffies = a.jiffies := by
    rw [hy, hx]
    split <;> exact ⟨rfl, rfl⟩
  rw [← hx, Sched.del_head k (a := ⟨x, a.queue, a.owned⟩) hq]
  show (Sched.advance k p rest ⟨if p.complete = 0 then x.del_timer else x, _, _⟩).current_read_row
    = _
  rw [← hy]
  cases rest with
  | nil => exact hrow.1
  | cons w rest =>
    obtain ⟨j, q⟩ := w
    have hdue : Due k p ((j, q) :: rest) a.jiffies ↔ q.begin_ < p.end_ ∧
        q.end_ ≤ a.jiffies % 2 ^ k.longBits ∧ q.complete = 0 := Iff.rfl
    simp only [Sched.advance]
    by_cases hb : p.end_ ≤ q.begin_
    · rw [if_pos hb, if_neg fun h => absurd (hdue.mp h).1 (Nat.not_lt.mpr hb)]
      exact hrow.1
    · rw [if_neg hb, hrow.2]
      by_cases hj : q.end_ ≤ a.jiffies % 2 ^ k.longBits
      · rw [if_pos hj]
        simp only [Sched.finish, true_and]
        by_cases hc : q.complete = 0
        · rw [if_pos hc, if_pos (hdue.mpr ⟨Nat.not_le.mp hb, hj, hc⟩)]
          rfl
        · rw [if_neg hc, if_neg fun h => hc (hdue.mp h).2.2]
          exact hrow.1
      · rw [if_neg hj, if_neg fun h => hj (hdue.mp h).2.1]
        exact hrow.1

/-- What a read of the exposure does after `r` of its rows: it fetches `q` more. -/
structure Fetched (k : Kernel) (i : ℕ) (p : Params) (rest : List (ℕ × Params)) (r q : ℕ)
    (data : List UInt8) (t t' : State) : Prop where
  le : r + q ≤ p.height / p.ybin
  calls : ∃ l, t'.calls = t.calls ++ l ∧ Fetch t.geometry p r q l data
  registered : t'.registered = t.registered
  geometry : t'.geometry = t.geometry
  jiffies : t'.jiffies = t.jiffies
  /-- The frame goes on. -/
  goes_on : r + q < p.height / p.ybin → t'.current_read_row = (r + q) * p.ybin ∧
    ∃ b, Linked t' b ∧ b.queue = (i, p) :: rest
  /-- The frame is over. -/
  ended : r + q = p.height / p.ybin → (∃ b, Linked t' b ∧ i ∉ b.ids) ∧
    t'.current_read_row =
      if Due k p rest t.jiffies then CCD_START_FRAME_LOAD else CCD_END_FRAME_LOAD

/-- Where the frame is: before its first row, or before row `r`. -/
def AtRow (p : Params) (r : ℕ) (x : Core) : Prop :=
  x.current_read_row = CCD_START_FRAME_LOAD ∧ r = 0 ∨ x.current_read_row = r * p.ybin

/-- The end of a frame fetches no rows. -/
lemma end_frame_calls {t t' : State} {b : Sched} {i : ℕ} {p : Params} {rest : List (ℕ × Params)}
    (h : Linked t b) (hq : b.queue = (i, p) :: rest) (h' : end_frame k i t = some t') :
    ∃ l, t'.calls = t.calls ++ l ∧ readRows l = [] := by
  obtain ⟨u, hu, hl⟩ := h.end_frame k hq
  rw [h'] at hu
  cases hu
  have hc : t'.calls = _ := congrArg Core.calls hl.core
  obtain ⟨l, hdel, hfr⟩ := Sched.del_calls k i
    ⟨(b.toCore.call (.end_read p.flags)).set_row CCD_END_FRAME_LOAD, b.queue, b.owned⟩
  refine ⟨.end_read p.flags :: l, ?_, ?_⟩
  · rw [hc, h.core]
    exact hdel.trans (List.append_assoc _ _ _)
  · show readRows l = []
    exact readRows_frames hfr

lemma read_exposure_spec {t : State} {b : Sched} {i r count : ℕ} {p : Params}
    {rest : List (ℕ × Params)} (h : Linked t b) (hq : b.queue = (i, p) :: rest)
    (hp : Plain t.geometry p) (hr : AtRow p r t.toCore) (hlt : r < p.height / p.ybin) :
    ∃ t' data q, read_exposure k m i count t = some (t', data) ∧ data.length ≤ count ∧
      (p.width / p.xbin * t.geometry.sizeof_pixel ≤ count → 0 < q) ∧
      t'.clients = t.clients ∧ Fetched k i p rest r q data t t' := by
  obtain ⟨e, he, rfl, hel, -⟩ := h.head_cell hq
  have hbegin : ∃ l, begin_frame e.toParams t.toCore = t.toCore.fetched l (r * e.ybin) ∧
      readRows l = [] := by
    unfold begin_frame
    rcases hr with ⟨hs, rfl⟩ | hr
    · rw [if_pos hs]
      exact ⟨[.begin_read e.yoffset e.flags], by simp [Core.call, Core.set_row, Core.fetched],
        rfl⟩
    · have hrow := hp.row_lt hlt.le
      have hne : t.current_read_row ≠ CCD_START_FRAME_LOAD := by
        rw [hr]
        unfold CCD_START_FRAME_LOAD
        omega
      rw [if_neg hne]
      exact ⟨[], by simp [Core.fetched, ← hr], rfl⟩
  obtain ⟨l₀, hcore, hl₀⟩ := hbegin
  obtain ⟨z, q, l, data, hloop, hz, hzd, hqd, hdata, hpos, hf⟩ := read_rows_spec m
    (x := ⟨t.toCore.fetched l₀ (r * e.ybin), count, []⟩)
    (p := e.toParams) (r := r) (d := e.height / e.ybin - r) hp (by omega) rfl
  have hfuel : e.height / e.ybin - r + 1 ≤ row_limit := by
    unfold row_limit
    have h₁ : e.height / e.ybin ≤ e.height := Nat.div_le_self _ _
    have h₂ := hp.height_lt
    omega
  have hloop' := loop_mono hloop hfuel
  have hfetch : Fetch t.geometry e.toParams r q (l₀ ++ l) data := by
    have := (Fetch.none (g := t.geometry) (p := e.toParams) (r := r) hl₀).append hf
    simpa using this
  -- the state after the loop
  rw [Core.fetched_fetched] at hz
  rw [List.nil_append] at hzd
  obtain ⟨y, hy⟩ : ∃ y, y = t.toCore.fetched (l₀ ++ l) ((r + q) * e.ybin) := ⟨_, rfl⟩
  rw [← hy] at hz
  have hyc : y.calls = t.calls ++ (l₀ ++ l) := by
    rw [hy]
    rfl
  have hy₀ : y.clients = t.clients ∧ y.registered = t.registered ∧ y.geometry = t.geometry ∧
      y.fresh = t.fresh ∧ y.current_read_row = (r + q) * e.ybin := by
    rw [hy]
    exact ⟨rfl, rfl, rfl, rfl, rfl⟩
  have hyj : y.jiffies = t.jiffies := by
    rw [hy]
    rfl
  have hlink : Linked { t with toCore := y } { b with toCore := y } :=
    h.set_core (hy₀.2.2.2.1.trans (congrArg Core.fresh h.core))
  have hrun : read_exposure k m i count t =
      if last_row e.toParams < y.current_read_row then
        (end_frame k i { t with toCore := y }).bind fun s => some (s, data)
      else some ({ t with toCore := y }, data) := by
    unfold read_exposure
    rw [he]
    simp only [Option.bind_eq_bind, Option.bind_some]
    rw [hcore, hloop', Option.bind_some, hz, hzd]
  by_cases hlast : r + q < e.height / e.ybin
  · have hle := (hp.le_last_row (r + q)).mpr hlast
    rw [hrun, hy₀.2.2.2.2, if_neg (Nat.not_lt.mpr hle)]
    exact ⟨_, data, q, rfl, hdata, hpos (by omega), hy₀.1, by omega, ⟨_, hyc, hfetch⟩, hy₀.2.1,
      hy₀.2.2.1, hyj, fun _ => ⟨hy₀.2.2.2.2, _, hlink, hq⟩, fun heq => by omega⟩
  · have hgt : last_row e.toParams < (r + q) * e.ybin := by
      refine Nat.not_le.mp fun hle => hlast ?_
      exact (hp.le_last_row (r + q)).mp hle
    obtain ⟨t', ht', hl'⟩ := hlink.end_frame k hq
    obtain ⟨l', hl₁, hl₂⟩ := end_frame_calls k hlink hq ht'
    have hstat : t'.toCore.static = y.static := by
      rw [hl'.core]
      exact Represents.endFrame_static k i e.toParams { b with toCore := y }
    rw [hrun, hy₀.2.2.2.2, if_pos hgt, ht', Option.bind_some]
    refine ⟨t', data, q, rfl, hdata, hpos (by omega), ?_, by omega, ⟨l₀ ++ l ++ l', ?_, ?_⟩, ?_,
      ?_, ?_, fun hlt' => by omega, fun _ => ⟨⟨_, hl', ?_⟩, ?_⟩⟩
    · exact (congrArg (fun x => x.2.2.1) hstat).trans hy₀.1
    · rw [hl₁, hyc, List.append_assoc]
    · have := hfetch.append (Fetch.none (g := t.geometry) (p := e.toParams) (r := r + q) hl₂)
      simpa using this
    · exact (congrArg Prod.fst hstat).trans hy₀.2.1
    · exact (congrArg (fun x => x.2.1) hstat).trans hy₀.2.2.1
    · exact (congrArg (fun x => x.2.2.2.1) hstat).trans hyj
    · exact Sched.endFrame_notMem k (a := { b with toCore := y }) h.chain.nodup i e.toParams
    · have hrow := Sched.endFrame_row k (a := { b with toCore := y }) hq
      rw [← hl'.core] at hrow
      rw [hrow]
      show (if Due k e.toParams rest y.jiffies then _ else _) = _
      rw [hyj]

/-! ## One `read` call -/

/-- Delivering from the buffer loses and invents nothing. -/
lemma deliver_spec (x : Client) {n : ℕ} (hn : n ≤ x.out_buf_len) :
    (x.deliver n).2 ++ buffered (x.deliver n).1 = buffered x := by
  have hlen : (slice x.out_buf n (x.out_buf_len - n)).length = x.out_buf_len - n :=
    length_slice
  have hrest : slice (put x.out_buf 0 (slice x.out_buf n (x.out_buf_len - n))) 0
      (x.out_buf_len - n) = slice x.out_buf n (x.out_buf_len - n) := by
    have := slice_put_self (m := x.out_buf) (p := 0)
      (l := slice x.out_buf n (x.out_buf_len - n))
    rwa [hlen] at this
  show slice x.out_buf 0 n ++ slice (put x.out_buf 0 (slice x.out_buf n (x.out_buf_len - n))) 0
    (x.out_buf_len - n) = slice x.out_buf 0 x.out_buf_len
  rw [hrest]
  have hsplit : x.out_buf_len = n + (x.out_buf_len - n) := by omega
  conv_rhs => rw [hsplit, slice_add, Nat.zero_add]

/-- Changing the client's record keeps what was fetched. -/
lemma Fetched.set_client {k : Kernel} {i r q : ℕ} {p : Params} {rest : List (ℕ × Params)}
    {data : List UInt8} {t t' : State} (h : Fetched k i p rest r q data t t') (c : Field)
    (w : Client) :
    Fetched k i p rest r q data t { t' with toCore := t'.toCore.set_client c w } where
  le := h.le
  calls := h.calls
  registered := h.registered
  geometry := h.geometry
  jiffies := h.jiffies
  goes_on hlt := by
    obtain ⟨hrow, b, hb, hq⟩ := h.goes_on hlt
    refine ⟨hrow, { b with toCore := b.toCore.set_client c w }, ?_, hq⟩
    rw [hb.core]
    exact hb.set_core rfl
  ended heq := by
    obtain ⟨⟨b, hb, hi⟩, hrow⟩ := h.ended heq
    refine ⟨⟨{ b with toCore := b.toCore.set_client c w }, ?_, hi⟩, hrow⟩
    rw [hb.core]
    exact hb.set_core rfl

/-- The client's record as far as binary reads depend on it. -/
structure BinaryClient (x : Client) : Prop where
  mode : x.mode = .binary
  size : x.out_buf_size = 256
  overrun : x.overrun = false
  len : x.out_buf_len ≤ 256

@[simp] lemma length_header (p : Params) (x : Core) : (header p x).length = header_len x := by
  unfold header header_len
  split
  · rfl
  · rfl

lemma header_len_le (x : Core) : header_len x ≤ 8 := by
  unfold header_len
  split
  · exact le_refl 8
  · exact Nat.zero_le 8

lemma Kernel.le_long (k : Kernel) : 2 ^ 32 ≤ 2 ^ k.longBits := by
  rcases k.long with hl | hl
  · rw [hl]
  · rw [hl]
    norm_num

/-- For rows of less than 2 GiB the test for room means what it says. -/
lemma fits_row_iff {p : Params} {count : ℕ} {x : Core} (h : row_bytes x.geometry p + 8 < 2 ^ 31) :
    fits_row k p count x ↔ row_bytes x.geometry p + header_len x ≤ count := by
  have hle := header_len_le x
  have hbits := k.le_long
  unfold fits_row Kernel.size_t
  rw [if_pos (by omega), Nat.mod_eq_of_lt (by omega)]

lemma read_binary_spec {t : State} {b : Sched} {i r count : ℕ} {p : Params}
    {rest : List (ℕ × Params)} (h : Linked t b) (hq : b.queue = (i, p) :: rest)
    (hp : Plain t.geometry p) (hr : AtRow p r t.toCore) (hlt : r < p.height / p.ybin)
    (hx : BinaryClient (t.clients p.client)) (hempty : (t.clients p.client).out_buf_len = 0)
    (hcount : count < 2 ^ 31)
    (hfit : p.width / p.xbin * t.geometry.sizeof_pixel + 8 ≤ 256 ∨
      p.width / p.xbin * t.geometry.sizeof_pixel + 8 ≤ count) :
    ∃ t' data out q, read_binary_exposure k m i count t = some (t', out) ∧ 0 < q ∧
      Fetched k i p rest r q data t t' ∧ BinaryClient (t'.clients p.client) ∧
      out ++ buffered (t'.clients p.client) = header p t.toCore ++ data := by
  obtain ⟨e, he, rfl, hel, -⟩ := h.head_cell hq
  have hrb := hp.row_bytes_eq
  have hhl := header_len_le t.toCore
  have hsmall : row_bytes t.geometry e.toParams + 8 < 2 ^ 31 := by omega
  have hiff := @fits_row_iff k _ count t.toCore hsmall
  by_cases hroom : row_bytes t.geometry e.toParams + header_len t.toCore ≤ count
  · -- directly into the user's buffer
    have hsub : u32 (count + 2 ^ 32 - (header e.toParams t.toCore).length)
        = count - header_len t.toCore := by
      rw [length_header]
      unfold u32
      omega
    obtain ⟨t', data, q, hrun, hlen, hpos, hcl, hf⟩ := @read_exposure_spec k m _ _ _ _
      (count - header_len t.toCore) _ _ h hq hp hr hlt
    refine ⟨t', data, header e.toParams t.toCore ++ data, q, ?_, hpos (by omega), hf, ?_, ?_⟩
    · unfold read_binary_exposure
      rw [he]
      simp only [Option.bind_eq_bind, Option.bind_some]
      rw [if_pos (hiff.mpr hroom), hsub, hrun]
      rfl
    · rw [hcl]
      exact hx
    · have hnil : buffered (t'.clients e.client) = [] := by
        rw [hcl, buffered, hempty, slice_zero]
      rw [hnil, List.append_nil]
  · -- one row through the client's buffer
    obtain ⟨t₁, data, q, hrun, hlen, hpos, hcl, hf⟩ := @read_exposure_spec k m _ _ _ _
      (row_bytes t.geometry e.toParams) _ _ h hq hp hr hlt
    have hq0 : 0 < q := hpos (by omega)
    have hdata : data.length = row_bytes t.geometry e.toParams := by
      obtain ⟨l, -, hfetch⟩ := hf.calls
      have hsize := hfetch.size
      rw [← hrb] at hsize
      have hge : 1 * row_bytes t.geometry e.toParams ≤ q * row_bytes t.geometry e.toParams :=
        Nat.mul_le_mul_right _ hq0
      omega
    have hall : (header e.toParams t.toCore ++ data).length
        = header_len t.toCore + row_bytes t.geometry e.toParams := by
      rw [List.length_append, length_header, hdata]
    have hbuf : header_len t.toCore + row_bytes t.geometry e.toParams ≤ 256 := by omega
    obtain ⟨all, hall'⟩ : ∃ all, all = header e.toParams t.toCore ++ data := ⟨_, rfl⟩
    rw [← hall'] at hall
    have hsub : u32 (all.length + 2 ^ 32 - count) = all.length - count := by
      unfold u32
      omega
    obtain ⟨w, hw⟩ : ∃ w : Client, w = { t₁.clients e.client with
        out_buf := put (put (t₁.clients e.client).out_buf 0 all) 0
          (slice (put (t₁.clients e.client).out_buf 0 all) count (all.length - count))
        out_buf_len := all.length - count
        overrun := (t₁.clients e.client).overrun ||
          decide ((t₁.clients e.client).out_buf_size < all.length) } := ⟨_, rfl⟩
    refine ⟨{ t₁ with toCore := t₁.toCore.set_client e.client w }, data,
      slice (put (t₁.clients e.client).out_buf 0 all) 0 count, q, ?_, hq0,
      hf.set_client e.client w, ?_, ?_⟩
    · unfold read_binary_exposure
      rw [he]
      simp only [Option.bind_eq_bind, Option.bind_some]
      rw [if_neg fun hfits => hroom (hiff.mp hfits), hrun, Option.bind_some, ← hall', hsub, ← hw]
    · have hcl' : (t₁.toCore.set_client e.client w).clients e.client = w := by
        simp [Core.set_client]
      show BinaryClient ((t₁.toCore.set_client e.client w).clients e.client)
      rw [hcl', hw, hcl]
      refine ⟨hx.mode, hx.size, ?_, ?_⟩
      · simp only [hx.overrun, hx.size, Bool.false_or, decide_eq_false_iff_not]
        omega
      · show all.length - count ≤ 256
        omega
    · have hcl' : (t₁.toCore.set_client e.client w).clients e.client = w := by
        simp [Core.set_client]
      have hstaged : slice (put (t₁.clients e.client).out_buf 0 all) 0 all.length = all :=
        slice_put_self
      have hrest : buffered w = slice (put (t₁.clients e.client).out_buf 0 all) count
          (all.length - count) := by
        rw [hw]
        have := slice_put_self (m := put (t₁.clients e.client).out_buf 0 all) (p := 0)
          (l := slice (put (t₁.clients e.client).out_buf 0 all) count (all.length - count))
        rwa [length_slice] at this
      show _ ++ buffered ((t₁.toCore.set_client e.client w).clients e.client) = _
      rw [hcl', hrest, ← hall']
      conv_rhs => rw [← hstaged, show all.length = count + (all.length - count) by omega,
        slice_add, Nat.zero_add]

end EspLinux.Ccd
