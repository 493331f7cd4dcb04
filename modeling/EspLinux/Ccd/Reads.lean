import EspLinux.Ccd.Image

/-!
# Runs of reads

A client reads its frame by `read` calls of any sizes.  In both modes a read takes bytes from
the client's buffer if there are any, and otherwise fetches rows and leaves in the buffer what
the read has no room for.  So the two modes differ only in the bytes they make of the rows;
once that is known for a single read (`Serves`), the reads come to the end of the frame and
what they deliver is known (`Midway.finish`).
-/

namespace EspLinux.Ccd

open EspLinux.Lib

variable (k : Kernel) (m : Mini)

/-- `MAX_RW_COUNT`, the most bytes the kernel asks a driver for in one call. -/
def MAX_RW_COUNT : ℕ := 0x7FFFF000

/-- Time passes. -/
def State.wait (d : ℕ) (s : State) : State :=
  { s with toCore := { s.toCore with jiffies := s.jiffies + d } }

/-- The first `n` reads of client `c`, of the given sizes and with the given times between
them, and the bytes they deliver. -/
def reads (c : Field) (sizes gaps : ℕ → ℕ) : ℕ → State → Option (State × List UInt8)
  | 0, s => some (s, [])
  | n + 1, s => do
    let (s, out) ← reads c sizes gaps n s
    let (s, res) ← ccd_read k m c (sizes n) (s.wait (gaps n))
    match res with
    | .ok data => some (s, out ++ data)
    | .error _ => some (s, out)

/-- Sizes of reads that the kernel passes on, with no end of reads of at least one byte. -/
structure ReadSizes (sizes : ℕ → ℕ) : Prop where
  le : ∀ n, sizes n ≤ MAX_RW_COUNT
  pos : ∀ n, ∃ n' ≥ n, 0 < sizes n'

lemma ReadSizes.ones : ReadSizes fun _ => 1 :=
  ⟨fun _ => by decide, fun n => ⟨n, le_refl n, Nat.one_pos⟩⟩

/-- A read of at least one byte is among the first `n`. -/
def begun (sizes : ℕ → ℕ) (n : ℕ) : Bool := (List.range n).any fun j => decide (0 < sizes j)

/-- Exposure `i` is on no list and freed. -/
def Removed (i : ℕ) (t : State) : Prop :=
  t.heap i = none ∧ ∃ dev own, ListsOk t dev own ∧ i ∉ dev ∧ ∀ c, i ∉ own c

/-- The exposure at the head of the device list has just been latched, and the record of its
client is as the mode of the client wants it. -/
structure FrameStart (ok : Client → Prop) (s : State) (a : Sched) (i : ℕ) (p : Params)
    (rest : List (ℕ × Params)) : Prop where
  linked : Linked s a
  queue : a.queue = (i, p) :: rest
  complete : p.complete = 1
  /-- The parameters are those of a request. -/
  request : ∃ msg, p.toFrame = (request s.geometry p.client msg).toFrame
  registered : s.registered = true
  client : ok (s.clients p.client)
  empty : (s.clients p.client).out_buf_len = 0
  row : s.current_read_row = CCD_START_FRAME_LOAD

/-- The state between the reads of a frame, `r` rows of which have been fetched. -/
structure MidFrame (ok : Client → Prop) (s : State) (i : ℕ) (p : Params)
    (rest : List (ℕ × Params)) (r : ℕ) (t : State) : Prop where
  lt : r < p.height / p.ybin
  linked : ∃ b, Linked t b ∧ b.queue = (i, p) :: rest
  registered : t.registered = true
  geometry : t.geometry = s.geometry
  client : ok (t.clients p.client)
  row : t.current_read_row = if r = 0 then CCD_START_FRAME_LOAD else r * p.ybin
  idle : r = 0 → (t.clients p.client).out_buf_len = 0

lemma MidFrame.atRow {ok : Client → Prop} {s t : State} {i r : ℕ} {p : Params}
    {rest : List (ℕ × Params)} (h : MidFrame ok s i p rest r t) : AtRow p r t.toCore := by
  have hrow := h.row
  split at hrow
  · exact .inl ⟨hrow, ‹_›⟩
  · exact .inr hrow

lemma MidFrame.wait {ok : Client → Prop} {s t : State} {i r : ℕ} {p : Params}
    {rest : List (ℕ × Params)} (h : MidFrame ok s i p rest r t) (d : ℕ) :
    MidFrame ok s i p rest r (t.wait d) := by
  refine ⟨h.lt, ?_, h.registered, h.geometry, h.client, h.row, h.idle⟩
  obtain ⟨b, hb, hq⟩ := h.linked
  exact ⟨{ b with toCore := { t.toCore with jiffies := t.jiffies + d } },
    hb.set_core (show t.fresh = b.fresh from congrArg Core.fresh hb.core), hq⟩

/-- A read that finds the buffer empty fetches rows.  The bytes it delivers and leaves in the
buffer go on from those of the rows before, where `enc row r data b` says that `b` are bytes
for the first `r` rows of an image when the device is at `row`. -/
def Serves (ok : Client → Prop) (enc : ℕ → ℕ → List UInt8 → List UInt8 → Prop) (s : State) (i : ℕ)
    (p : Params) (rest : List (ℕ × Params)) (count : ℕ) : Prop :=
  ∀ r t, MidFrame ok s i p rest r t → (t.clients p.client).out_buf_len = 0 →
    ∃ t' out data q, ccd_read k m p.client count t = some (t', .ok out) ∧ 0 < q ∧
      Fetched k i p rest r q data t t' ∧ ok (t'.clients p.client) ∧
      ∀ data₀ b : List UInt8, data₀.length = r * (p.width / p.xbin * s.geometry.sizeof_pixel) →
        enc t.current_read_row r data₀ b → enc t'.current_read_row (r + q) (data₀ ++ data)
          (b ++ (out ++ buffered (t'.clients p.client)))

/-! ## Single reads -/

/-- The two forms of an image. -/
def read_mode (mode : Mode) (i count : ℕ) (s : State) : Option (State × List UInt8) :=
  match mode with
  | .binary => read_binary_exposure k m i count s
  | .text => read_text_exposure k m i count s

/-- With nothing in the buffer, a read of the client whose exposure is the first and
complete goes to the exposure. -/
lemma ccd_read_ready {t : State} {b : Sched} {i count : ℕ} {p : Params}
    {rest : List (ℕ × Params)} (h : Linked t b) (hq : b.queue = (i, p) :: rest)
    (hc : p.complete = 1) (hreg : t.registered = true)
    (hempty : (t.clients p.client).out_buf_len = 0)
    (hpos : 0 < count) :
    ccd_read k m p.client count t =
      (read_mode k m (t.clients p.client).mode i (u32 count) t).bind fun r => some (r.1, .ok r.2) := by
  obtain ⟨e, he, rfl, hel, -⟩ := h.head_cell hq
  have hreg' : ¬ t.registered = false := by simp [hreg]
  have hbuf : ¬ 0 < (t.clients e.client).out_buf_len := by omega
  have hlist : t.client_list e.client ≠ none := by
    have hi : i ∈ b.owned e.client := by
      rw [h.owned_iff, Sched.tags, hq]
      exact List.mem_cons_self
    intro hnone
    have hchain := h.clients e.client
    rw [hnone] at hchain
    cases hown : b.owned e.client with
    | nil => simp [hown] at hi
    | cons j l =>
      rw [hown] at hchain
      cases hchain.1
  have hready : ¬ (e.client ≠ e.client ∨ e.complete = 0) := by simp [hc]
  simp only [ccd_read, if_neg hreg', if_neg (Nat.pos_iff_ne_zero.mp hpos)]
  rw [if_neg hbuf, if_neg hlist]
  simp only [hel, he, Option.bind_eq_bind, Option.bind_some]
  rw [if_neg hready]
  simp only [ccd_read_head, hel, he, Option.bind_eq_bind, Option.bind_some]
  rw [if_pos ⟨trivial, hc⟩]
  cases (t.clients e.client).mode <;> rfl

/-- The sizes that the kernel passes on are not truncated. -/
lemma ccd_read_first {t : State} {b : Sched} {i count : ℕ} {p : Params}
    {rest : List (ℕ × Params)} (h : Linked t b) (hq : b.queue = (i, p) :: rest)
    (hc : p.complete = 1) (hreg : t.registered = true)
    (hempty : (t.clients p.client).out_buf_len = 0)
    (hpos : 0 < count) (hcount : count ≤ MAX_RW_COUNT) :
    ccd_read k m p.client count t =
      (read_mode k m (t.clients p.client).mode i count t).bind fun r => some (r.1, .ok r.2) := by
  have hsmall : u32 count = count := by
    unfold MAX_RW_COUNT at hcount
    exact Nat.mod_eq_of_lt (by omega)
  rw [ccd_read_ready k m h hq hc hreg hempty hpos, hsmall]

lemma ccd_read_buffered {c : Field} {t : State} {count : ℕ} {x : Client × List UInt8}
    (h : t.registered = true) (hpos : 0 < count) (hlen : 0 < (t.clients c).out_buf_len)
    (hx : x = (t.clients c).deliver (min count (t.clients c).out_buf_len)) :
    ccd_read k m c count t =
      some ({ t with toCore := t.toCore.set_client c x.1 }, .ok x.2) := by
  have hreg : ¬ t.registered = false := by simp [h]
  simp only [ccd_read, if_neg hreg, if_neg (Nat.pos_iff_ne_zero.mp hpos)]
  rw [if_pos hlen, hx]

lemma ccd_read_zero {c : Field} {t : State} (h : t.registered = true) :
    ccd_read k m c 0 t = some (t, .ok []) := by
  simp [ccd_read, h]

lemma begun_succ (sizes : ℕ → ℕ) (n : ℕ) :
    begun sizes (n + 1) = (begun sizes n || decide (0 < sizes n)) := by
  simp [begun, List.range_succ]

lemma reads_succ {c : Field} {sizes gaps : ℕ → ℕ} {n : ℕ} {s t t' : State}
    {out data : List UInt8} (h : reads k m c sizes gaps n s = some (t, out))
    (h' : ccd_read k m c (sizes n) (t.wait (gaps n)) = some (t', .ok data)) :
    reads k m c sizes gaps (n + 1) s = some (t', out ++ data) := by
  simp only [reads, h, h', Option.bind_eq_bind, Option.bind_some]

/-! ## The reads of a frame -/

/-- After `n` reads the frame is unfinished, with `r` rows fetched. -/
structure Midway (ok : Client → Prop) (enc : ℕ → ℕ → List UInt8 → List UInt8 → Prop) (s : State) (i : ℕ)
    (p : Params) (rest : List (ℕ × Params)) (sizes gaps : ℕ → ℕ) (n r : ℕ) (t : State)
    (out : List UInt8) : Prop extends MidFrame ok s i p rest r t where
  run : reads k m p.client sizes gaps n s = some (t, out)
  soFar : ∃ l data, t.calls = s.calls ++ l ∧ Fetch s.geometry p 0 r l data ∧
    enc t.current_read_row r data (out ++ buffered (t.clients p.client))
  sent : begun sizes n = decide (0 < r)
  time : t.jiffies = s.jiffies + ∑ j ∈ Finset.range n, gaps j

/-- Read `n` was the last of the frame. -/
structure Finished (ok : Client → Prop) (enc : ℕ → ℕ → List UInt8 → List UInt8 → Prop) (s : State) (i : ℕ)
    (p : Params) (rest : List (ℕ × Params)) (sizes gaps : ℕ → ℕ) (n : ℕ) : Prop where
  sent : begun sizes n
  run : ∃ t out, reads k m p.client sizes gaps n s = some (t, out) ∧
    (∃ l data, t.calls = s.calls ++ l ∧ Fetch s.geometry p 0 (p.height / p.ybin) l data ∧
      enc t.current_read_row (p.height / p.ybin) data (out ++ buffered (t.clients p.client))) ∧
    ok (t.clients p.client) ∧ Removed i t ∧
    t.jiffies = s.jiffies + ∑ j ∈ Finset.range n, gaps j ∧
    t.current_read_row =
      if Due k p rest t.jiffies then CCD_START_FRAME_LOAD else CCD_END_FRAME_LOAD

variable {k m} {ok : Client → Prop} {enc : ℕ → ℕ → List UInt8 → List UInt8 → Prop} {s t : State}
  {i r n : ℕ} {p : Params} {rest : List (ℕ × Params)} {sizes gaps : ℕ → ℕ} {out : List UInt8}

lemma State.wait_time (ht : t.jiffies = s.jiffies + ∑ j ∈ Finset.range n, gaps j) :
    (t.wait (gaps n)).jiffies = s.jiffies + ∑ j ∈ Finset.range (n + 1), gaps j := by
  rw [Finset.sum_range_succ, ← Nat.add_assoc, ← ht]
  rfl

lemma Removed.of_linked {b : Sched} (h : Linked t b) (hi : i ∉ b.ids) : Removed i t := by
  refine ⟨?_, b.ids, b.owned, h.listsOk, hi, fun c hc => hi (h.mem_ids_of_owned hc)⟩
  cases he : t.heap i with
  | none => rfl
  | some e => exact absurd (h.live i e he) hi

/-- A read of no bytes changes nothing. -/
lemma Midway.zero (h : Midway k m ok enc s i p rest sizes gaps n r t out) (hz : sizes n = 0) :
    Midway k m ok enc s i p rest sizes gaps (n + 1) r (t.wait (gaps n)) out := by
  have hread : ccd_read k m p.client (sizes n) (t.wait (gaps n))
      = some (t.wait (gaps n), .ok []) := by
    rw [hz]
    exact ccd_read_zero k m h.registered
  refine ⟨h.toMidFrame.wait (gaps n), ?_, h.soFar, ?_, State.wait_time h.time⟩
  · have := reads_succ k m h.run hread
    rwa [List.append_nil] at this
  · rw [begun_succ, h.sent, hz]
    simp

/-- A read from the buffer. -/
lemma Midway.deliver (hok : ∀ x n, ok x → ok (x.deliver n).1)
    (h : Midway k m ok enc s i p rest sizes gaps n r t out) (hpos : 0 < sizes n)
    (hlen : 0 < (t.clients p.client).out_buf_len) :
    ∃ t' out', Midway k m ok enc s i p rest sizes gaps (n + 1) r t' out' ∧
      (t'.clients p.client).out_buf_len < (t.clients p.client).out_buf_len := by
  obtain ⟨x, hx⟩ : ∃ x, x = ((t.clients p.client).deliver
    (min (sizes n) (t.clients p.client).out_buf_len)) := ⟨_, rfl⟩
  have hu := h.toMidFrame.wait (gaps n)
  have hread := ccd_read_buffered (t := t.wait (gaps n)) k m h.registered hpos hlen hx
  have hbytes := deliver_spec (t.clients p.client) (min_le_right (sizes n) _)
  rw [← hx] at hbytes
  obtain ⟨u, hu'⟩ : ∃ u, u = t.wait (gaps n) := ⟨_, rfl⟩
  have hcalls' : u.calls = t.calls := by rw [hu']; rfl
  have hrow' : u.current_read_row = t.current_read_row := by rw [hu']; rfl
  have htime := State.wait_time h.time
  rw [← hu'] at htime
  rw [← hu'] at hread hu
  have hxc : (u.toCore.set_client p.client x.1).clients p.client = x.1 := by
    simp [Core.set_client]
  have hr : 0 < r := by
    rcases Nat.eq_zero_or_pos r with hr | hr
    · have := h.idle hr
      omega
    · exact hr
  obtain ⟨l, data, hcalls, hfetch, hsofar⟩ := h.soFar
  refine ⟨{ u with toCore := u.toCore.set_client p.client x.1 }, out ++ x.2,
    ⟨⟨hu.lt, ?_, hu.registered, hu.geometry, ?_, hu.row, fun hz => by omega⟩,
      reads_succ k m h.run (hu' ▸ hread), ⟨l, data, hcalls'.trans hcalls, hfetch, ?_⟩, ?_, htime⟩,
    ?_⟩
  · obtain ⟨b, hb, hqueue⟩ := hu.linked
    refine ⟨{ b with toCore := b.toCore.set_client p.client x.1 }, ?_, hqueue⟩
    rw [hb.core]
    exact hb.set_core rfl
  · show ok ((u.toCore.set_client p.client x.1).clients p.client)
    rw [hxc, hx]
    exact hok _ _ h.client
  · show enc u.current_read_row r data
      (_ ++ buffered ((u.toCore.set_client p.client x.1).clients p.client))
    rw [hxc, List.append_assoc, hbytes, hrow']
    exact hsofar
  · rw [begun_succ, h.sent]
    simp [hr]
  · show ((u.toCore.set_client p.client x.1).clients p.client).out_buf_len < _
    rw [hxc, hx]
    simp only [Client.deliver]
    omega

/-- A read that fetches rows. -/
lemma Midway.fetch (hs : Serves k m ok enc s i p rest (sizes n))
    (h : Midway k m ok enc s i p rest sizes gaps n r t out) (hpos : 0 < sizes n)
    (hlen : (t.clients p.client).out_buf_len = 0) :
    Finished k m ok enc s i p rest sizes gaps (n + 1) ∨
      ∃ r' t' out', Midway k m ok enc s i p rest sizes gaps (n + 1) r' t' out' ∧ r < r' := by
  have hbegun : begun sizes (n + 1) = true := by
    simp [begun_succ, hpos]
  obtain ⟨l, data, hcalls, hfetch, hbytes⟩ := h.soFar
  have hu := h.toMidFrame.wait (gaps n)
  obtain ⟨t', out', data', q, hread, hq, hf, hx, hout⟩ := hs r _ hu hlen
  have hrun := reads_succ k m h.run hread
  have hempty := buffered_of_empty hlen
  have htime := hf.jiffies.trans (State.wait_time h.time)
  obtain ⟨l', hcalls', hfetch'⟩ := hf.calls
  have hsofar : ∃ l data, t'.calls = s.calls ++ l ∧ Fetch s.geometry p 0 (r + q) l data ∧
      enc t'.current_read_row (r + q) data (out ++ out' ++ buffered (t'.clients p.client)) := by
    refine ⟨l ++ l', data ++ data', ?_, ?_, ?_⟩
    · rw [hcalls', ← List.append_assoc, ← hcalls]
      rfl
    · rw [hu.geometry] at hfetch'
      refine hfetch.append ?_
      rw [Nat.zero_add]
      exact hfetch'
    · rw [hempty, List.append_nil] at hbytes
      rw [List.append_assoc]
      exact hout data out hfetch.size hbytes
  by_cases hlast : r + q < p.height / p.ybin
  · obtain ⟨hrow, b, hb, hqueue⟩ := hf.goes_on hlast
    right
    refine ⟨r + q, t', out ++ out', ⟨⟨hlast, ⟨b, hb, hqueue⟩, hf.registered.trans hu.registered,
      hf.geometry.trans hu.geometry, hx, ?_, fun hz => by omega⟩, hrun, hsofar, ?_, htime⟩,
      by omega⟩
    · rw [if_neg (by omega)]
      exact hrow
    · rw [hbegun, eq_comm, decide_eq_true_eq]
      omega
  · left
    have hend : r + q = p.height / p.ybin := by
      have := hf.le
      omega
    obtain ⟨⟨b, hb, hi⟩, hrow⟩ := hf.ended hend
    rw [← hf.jiffies] at hrow
    exact ⟨hbegun, t', out ++ out', hrun, hend ▸ hsofar, hx, .of_linked hb hi, htime, hrow⟩

/-- The reads come to the end of the frame. -/
lemma Midway.finish (hok : ∀ x n, ok x → ok (x.deliver n).1) (hsizes : ReadSizes sizes)
    (hs : ∀ n, 0 < sizes n → Serves k m ok enc s i p rest (sizes n))
    (h : Midway k m ok enc s i p rest sizes gaps n r t out) :
    ∃ N, Finished k m ok enc s i p rest sizes gaps N ∧ ∀ n', n ≤ n' → n' < N →
      ∃ r t out, Midway k m ok enc s i p rest sizes gaps n' r t out := by
  have hmore {n N r : ℕ} {t : State} {out : List UInt8}
      (h : Midway k m ok enc s i p rest sizes gaps n r t out)
      (hN : ∀ n', n + 1 ≤ n' → n' < N → ∃ r t out, Midway k m ok enc s i p rest sizes gaps n' r t out)
      (n' : ℕ) (hn : n ≤ n') (hn' : n' < N) :
      ∃ r t out, Midway k m ok enc s i p rest sizes gaps n' r t out := by
    rcases hn.eq_or_lt with rfl | hlt
    · exact ⟨r, t, out, h⟩
    · exact hN n' hlt hn'
  -- on the rows left, then on the bytes in the buffer
  induction hd : p.height / p.ybin - r using Nat.strong_induction_on generalizing n r t out with
  | _ d ih =>
    induction hw : (t.clients p.client).out_buf_len using Nat.strong_induction_on
        generalizing n t out with
    | _ w ihw =>
      have hgo {n : ℕ} {t : State} (h : Midway k m ok enc s i p rest sizes gaps n r t out)
          (hw : (t.clients p.client).out_buf_len = w) (hpos : 0 < sizes n) : ∃ N, Finished k m ok enc s i p rest sizes gaps N ∧ ∀ n', n ≤ n' → n' < N →
            ∃ r t out, Midway k m ok enc s i p rest sizes gaps n' r t out := by
        rcases Nat.eq_zero_or_pos w with hz | hwpos
        · rcases h.fetch (hs n hpos) hpos (hw.trans hz) with hfin | ⟨r', t', out', h', hlt⟩
          · exact ⟨n + 1, hfin, hmore h fun n' hn hn' => by omega⟩
          · have := h.lt
            obtain ⟨N, hN, hmid⟩ := ih (p.height / p.ybin - r') (by omega) h' rfl
            exact ⟨N, hN, hmore h hmid⟩
        · obtain ⟨t', out', h', hlt⟩ := h.deliver hok hpos (hw ▸ hwpos)
          obtain ⟨N, hN, hmid⟩ := ihw _ (hw ▸ hlt) h' rfl
          exact ⟨N, hN, hmore h hmid⟩
      -- reads of no bytes may come first
      obtain ⟨n₁, hn₁, hpos⟩ := hsizes.pos n
      obtain ⟨e, rfl⟩ := Nat.exists_eq_add_of_le hn₁
      clear hn₁
      induction e generalizing n t with
      | zero => exact hgo h hw hpos
      | succ e ihe =>
        rcases Nat.eq_zero_or_pos (sizes n) with hz | hpos'
        · obtain ⟨N, hN, hmid⟩ := ihe (h.zero hz) hw (by rwa [Nat.add_right_comm, Nat.add_assoc])
          exact ⟨N, hN, hmore h hmid⟩
        · exact hgo h hw hpos'

/-! ## Frames that start -/

/-- A request has a positive bin, 16-bit sizes, and is no wider than the camera. -/
lemma request_bounds (g : Geometry) (c : Field) (msg : Msg) :
    0 < (request g c msg).ybin ∧ (request g c msg).height < 2 ^ 16 ∧
      (request g c msg).yoffset < 2 ^ 16 ∧ (request g c msg).width ≤ g.width ∧
      (request g c msg).width < 2 ^ 16 := by
  have helem (n : ℕ) : (msg (CCD_EXP_WIDTH_INDEX + n)).toNat < 2 ^ 16 := UInt16.toNat_lt _
  have h₀ := helem 0
  have h₁ := helem 1
  have h₃ := helem 3
  simp only [request]
  refine ⟨?_, ?_, ?_, ?_, ?_⟩
  · split <;> omega
  · split <;> omega
  · split_ifs <;> omega
  · split <;> omega
  · split <;> omega

lemma FrameStart.ybin_pos {a : Sched} (h : FrameStart ok s a i p rest) : 0 < p.ybin := by
  obtain ⟨msg, hmsg⟩ := h.request
  have hbin := (request_bounds s.geometry p.client msg).1
  rwa [← hmsg] at hbin

lemma FrameStart.width_le {a : Sched} (h : FrameStart ok s a i p rest) :
    p.width / p.xbin ≤ s.geometry.width ∧ p.width / p.xbin < 2 ^ 16 := by
  obtain ⟨msg, hmsg⟩ := h.request
  have hwidth := (request_bounds s.geometry p.client msg).2.2.2
  rw [← hmsg] at hwidth
  exact ⟨(Nat.div_le_self _ _).trans hwidth.1, (Nat.div_le_self _ _).trans_lt hwidth.2⟩

lemma FrameStart.plain {a : Sched} (h : FrameStart ok s a i p rest) (hy : p.ybin ≤ p.height)
    (hbytes : p.width / p.xbin * s.geometry.sizeof_pixel < 2 ^ 32) : Plain s.geometry p := by
  obtain ⟨msg, hmsg⟩ := h.request
  obtain ⟨h₁, h₂, h₃, -⟩ := request_bounds s.geometry p.client msg
  rw [← hmsg] at h₁ h₂ h₃
  exact ⟨h₁, hy, h₂, h₃, hbytes⟩

/-- The reads of an image with a row come to its end. -/
lemma FrameStart.finish {a : Sched} (h : FrameStart ok s a i p rest)
    (hrows : 0 < p.height / p.ybin) (hok : ∀ x n, ok x → ok (x.deliver n).1)
    (hsizes : ReadSizes sizes) (hs : ∀ n, 0 < sizes n → Serves k m ok enc s i p rest (sizes n))
    (henc : enc CCD_START_FRAME_LOAD 0 [] []) :
    ∃ N, Finished k m ok enc s i p rest sizes gaps N ∧ ∀ n' < N,
      ∃ r t out, Midway k m ok enc s i p rest sizes gaps n' r t out := by
  have hempty := buffered_of_empty h.empty
  have hmid : Midway k m ok enc s i p rest sizes gaps 0 0 s [] :=
    ⟨⟨hrows, ⟨a, h.linked, h.queue⟩, h.registered, rfl, h.client, h.row, fun _ => h.empty⟩, rfl,
      ⟨[], [], by simp, .none rfl, by rwa [hempty, h.row]⟩, rfl, rfl⟩
  obtain ⟨N, hN, hmore⟩ := hmid.finish hok hsizes hs
  exact ⟨N, hN, fun n' hn' => hmore n' (Nat.zero_le _) hn'⟩

lemma FrameStart.wait {a : Sched} (h : FrameStart ok s a i p rest) (d : ℕ) :
    FrameStart ok (s.wait d) { a with toCore := (s.wait d).toCore } i p rest :=
  ⟨h.linked.set_core (show s.fresh = a.fresh from congrArg Core.fresh h.linked.core), h.queue,
    h.complete, h.request, h.registered, h.client, h.empty, h.row⟩

/-- The first read of a frame whose reads are all of one byte. -/
lemma FrameStart.first_read {a : Sched} (h : FrameStart ok s a i p rest)
    (hrun : reads k m p.client (fun _ => 1) gaps 1 s = some (t, out)) :
    read_mode k m (s.clients p.client).mode i 1 (s.wait (gaps 0)) = some (t, out) := by
  have hone : (1 : ℕ) ≤ MAX_RW_COUNT := by decide
  have hw := h.wait (gaps 0)
  have hfirst : ccd_read k m p.client 1 (s.wait (gaps 0)) = _ :=
    ccd_read_first k m hw.linked hw.queue h.complete h.registered h.empty Nat.one_pos hone
  simp only [reads, Option.bind_eq_bind, Option.bind_some, hfirst] at hrun
  obtain ⟨x, hx, hrun⟩ := Option.bind_eq_some_iff.mp hrun
  obtain ⟨y, hy, hx⟩ := Option.bind_eq_some_iff.mp hx
  cases hx
  cases hrun
  exact hy

lemma FrameStart.imp {ok' : Client → Prop} {a : Sched} (h : FrameStart ok s a i p rest)
    (himp : ∀ {x}, ok x → ok' x) : FrameStart ok' s a i p rest :=
  ⟨h.linked, h.queue, h.complete, h.request, h.registered, himp h.client, h.empty, h.row⟩

/-! ## Frames of the small camera -/

/-- The record of a client that has opened the device and not read from it yet. -/
structure Opened (g : Geometry) (w : Mode) (x : Client) : Prop where
  mode : x.mode = w
  size : x.out_buf_size = out_buf_size g w
  overrun : x.overrun = false
  empty : x.out_buf_len = 0

/-- A request for a whole frame of the small camera, with bins of one by `ybin` pixels. -/
def binned_frame (ybin : ℕ) : Msg := fun n =>
  ([0xCCDD, 28, 0, 0x0201, 2, 2, 0, 0, 1, UInt16.ofNat ybin, 8, 0, 100, 0] : List UInt16).getD n 0

/-- The exposure for such a request. -/
def binned_params (ybin : ℕ) : Params :=
  { xoffset := 0, yoffset := 0, width := 2, height := 2, xbin := 1, ybin := ybin, dac_bits := 8,
    msec := 100, flags := 3, begin_ := 0, end_ := 10, complete := 1, client := 0 }

/-- The request is issued and the exposure time passes. -/
def binned_run (mode : Mode) (ybin : ℕ) : List Event :=
  [.register .small, .open_ 0 mode false, .new_exposure 0 (binned_frame ybin), .tick 10, .expire]

lemma binned_start (mode : Mode) {ybin : ℕ} (hy : ybin = 1 ∨ ybin = 4) :
    ∃ s, replay (step .hz100 .black) (State.init 0) (binned_run mode ybin) = some s ∧
      s.geometry = .small ∧
      FrameStart (Opened .small mode) s s.view 0 (binned_params ybin) [] := by
  have hview : (replay (step .hz100 .black) (State.init 0) (binned_run mode ybin)).map
      (fun s => (s.view.queue, s.registered, s.current_read_row, s.geometry,
        (s.clients 0).mode, (s.clients 0).out_buf_size, (s.clients 0).overrun,
        (s.clients 0).out_buf_len)) =
      some ([(0, binned_params ybin)], true, CCD_START_FRAME_LOAD, .small, mode,
        out_buf_size .small mode, false, 0) := by
    cases mode <;> rcases hy with rfl | rfl <;> rfl
  obtain ⟨s, hs, hview⟩ := Option.map_eq_some_iff.mp hview
  simp only [Prod.mk.injEq] at hview
  obtain ⟨hqueue, hreg, hrow, hgeom, hmode, hsize, hover, hlen⟩ := hview
  obtain ⟨a, ha⟩ := Runs.represents (Reach.of_replay .init hs)
  refine ⟨s, hs, hgeom, ?_, hqueue, rfl, ⟨binned_frame ybin, ?_⟩, hreg,
    ⟨hmode, hsize, hover, hlen⟩, hlen, hrow⟩
  · rw [ha.toLinked.view_eq]
    exact ha.toLinked
  · rw [hgeom]
    rcases hy with rfl | rfl
    · decide
    · decide

end EspLinux.Ccd
