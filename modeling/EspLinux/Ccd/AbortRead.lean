import EspLinux.Ccd.Latch

/-!
# Aborting a download

`abort_exposures` stops a download in progress if the first exposure of the device is the newest of
the client.  A client that has more than one exposure waiting reads the oldest of them, which is not
the newest: the mini-driver is then not told that the download is over, and the next one starts in
the middle of it.  So an abort stops the download of one of the client's frames if and only if that
is the client's newest exposure (`abort_stops_iff`).
-/

namespace EspLinux.Ccd

open EspLinux.Lib

variable (k : Kernel) (m : Mini)

/-- What an abort of client `c` has to do, from `s` to `s'`, while a frame of the client is read. -/
structure Stops (c : Field) (s s' : State) : Prop where
  /-- The mini-driver is told before anything else, and the rows are over unless the next frame has
  been latched. -/
  calls : ∃ i e rest, s.exposure_list = some i ∧ s.heap i = some e ∧
    s'.calls = s.calls ++ .control CCD_CTRL_CMD_RESET 0 :: .end_read e.flags :: rest ∧
    (s'.current_read_row = CCD_END_FRAME_LOAD ∨
      s'.current_read_row = CCD_START_FRAME_LOAD ∧ ∃ j flags, .latch_frame j flags ∈ rest)
  /-- The rows are over when the exposures are removed. -/
  row : ∃ t, abort_mark c s = some t ∧ t.current_read_row = CCD_END_FRAME_LOAD
  /-- All exposures of the client go, and the others stay in their order. -/
  lists : ∃ dev own, ListsOk s dev own ∧
    ListsOk s' (dev.filter (· ∉ own c)) (Function.update own c [])

/-! ## The row and the calls -/

/-- Frames may be started and latched, and the row is set only for one that has been latched. -/
def Schedules (x y : Core) : Prop :=
  ∃ l, y.calls = x.calls ++ l ∧ (∀ w ∈ l, w.isFrame = true) ∧
    (y.current_read_row = x.current_read_row ∨
      y.current_read_row = CCD_START_FRAME_LOAD ∧ ∃ j flags, .latch_frame j flags ∈ l)

namespace Schedules

variable {x y z : Core}

lemma of_same (hc : y.calls = x.calls) (hr : y.current_read_row = x.current_read_row) :
    Schedules x y :=
  ⟨[], by rw [hc, List.append_nil], by simp, .inl hr⟩

lemma refl (x : Core) : Schedules x x := of_same rfl rfl

lemma trans (h : Schedules x y) (h' : Schedules y z) : Schedules x z := by
  obtain ⟨l, hl, hf, hrow⟩ := h
  obtain ⟨l', hl', hf', hrow'⟩ := h'
  refine ⟨l ++ l', by rw [hl', hl, List.append_assoc], ?_, ?_⟩
  · intro w hw
    rcases List.mem_append.mp hw with hw | hw
    · exact hf w hw
    · exact hf' w hw
  · rcases hrow' with hsame | ⟨hstart, j, flags, hmem⟩
    · rcases hrow with hrow | ⟨hrow, j, flags, hmem⟩
      · exact .inl (hsame.trans hrow)
      · exact .inr ⟨hsame.trans hrow, j, flags, List.mem_append_left l' hmem⟩
    · exact .inr ⟨hstart, j, flags, List.mem_append_right l hmem⟩

end Schedules

namespace Sched

variable {a : Sched} {c : Field} {i j : ℕ} {p : Params} {rest : List (ℕ × Params)} {L : List ℕ}

lemma finish_schedules (j : ℕ) (a : Sched) : Schedules a.toCore (a.finish j).toCore := by
  unfold finish
  split
  · exact .refl _
  · split
    · exact ⟨[_], rfl, by simp [Call.isFrame], .inr ⟨rfl, _, _, List.mem_singleton_self _⟩⟩
    · exact .refl _

lemma advance_schedules (p : Params) (rest : List (ℕ × Params)) (a : Sched) :
    Schedules a.toCore (a.advance k p rest).toCore := by
  cases rest with
  | nil => exact .refl _
  | cons x rest =>
    simp only [advance]
    split
    · exact ⟨[_], rfl, by simp [Call.isFrame], .inl rfl⟩
    · split
      · exact finish_schedules x.1 { a with queue := x :: rest }
      · exact .of_same rfl rfl

lemma del_schedules (i : ℕ) (a : Sched) : Schedules a.toCore (a.del k i).toCore := by
  unfold del
  split
  · exact .refl _
  · split
    · refine Schedules.trans ?_ (advance_schedules k _ _ _)
      split
      · exact .of_same rfl rfl
      · exact .refl _
    · exact .refl _

lemma drop_schedules (c : Field) (L : List ℕ) (a : Sched) :
    Schedules a.toCore (a.drop k c L).toCore := by
  induction L generalizing a with
  | nil => exact .refl _
  | cons i L ih => exact (del_schedules k i a).trans (ih ((a.del k i).pop c))

/-- The first exposure is the newest of the client: its download is stopped. -/
lemma stopRead_head (hq : a.queue = (i, p) :: rest) (hrow : a.current_read_row ≠ CCD_END_FRAME_LOAD)
    (hstart : a.current_read_row ≠ CCD_START_FRAME_LOAD) :
    a.stopRead i = ((a.toCore.call (.control CCD_CTRL_CMD_RESET 0)).call
      (.end_read p.flags)).set_row CCD_END_FRAME_LOAD := by
  rw [stopRead, hq]
  simp only
  rw [if_pos ⟨trivial, hrow⟩, if_pos hstart]

/-- The first exposure is another one: nothing is stopped. -/
lemma stopRead_other (hq : a.queue = (j, p) :: rest) (hne : j ≠ i) : a.stopRead i = a.toCore := by
  rw [stopRead, hq]
  exact if_neg fun h => hne h.1

/-- The calls and the row of an abort come after those of its first half. -/
lemma abort_schedules (c : Field) (a : Sched) :
    Schedules (a.mark c).toCore (a.abort k c).toCore :=
  (drop_schedules k c (a.owned c) (a.mark c)).trans (.of_same rfl rfl)

/-- The exposures that an abort leaves in the queue. -/
lemma abort_ids (hnd : a.ids.Nodup) (c : Field) :
    (a.abort k c).ids = a.ids.filter (· ∉ a.owned c) := by
  have hmark : (a.mark c).tags = a.tags := by
    unfold mark
    split
    · rfl
    · exact markAborted_map _ (fun _ _ _ => rfl) _ _
  have htags : (a.abort k c).tags = a.tags.filter (·.1 ∉ a.owned c) := by
    show (drop k c (a.owned c) (a.mark c)).tags = _
    rw [(drop_tags k (by rwa [mark_ids]) c _).1, hmark]
  rw [← tags_ids, htags, ← tags_ids, List.filter_map]
  rfl

end Sched

/-! ## The abort -/

section

variable {k} {s s' : State} {a : Sched} {c : Field} {i n : ℕ} {p : Params}
  {rest : List (ℕ × Params)} {L : List ℕ}

lemma mark_toCore (ho : a.owned c = n :: L) : (a.mark c).toCore = a.stopRead n := by
  rw [Sched.mark, ho]

/-- What `ListsOk` says of the lists before and after an abort. -/
lemma Linked.abort_lists (h : Linked s a) (h' : Linked s' (a.abort k c)) :
    ∃ dev own, ListsOk s dev own ∧
      ListsOk s' (dev.filter (· ∉ own c)) (Function.update own c []) := by
  refine ⟨a.ids, a.owned, h.listsOk, ?_⟩
  have hok := h'.listsOk
  rwa [Sched.abort_ids k h.chain.nodup, Sched.abort_owned] at hok

/-- The download of the newest exposure is stopped. -/
lemma Linked.stops (h : Linked s a) (hq : a.queue = (i, p) :: rest) (ho : a.owned c = i :: L)
    (hstart : s.current_read_row ≠ CCD_START_FRAME_LOAD)
    (hend : s.current_read_row ≠ CCD_END_FRAME_LOAD) (hs : Ccd.abort_exposures k c s = some s') :
    Stops c s s' := by
  have hstop := Sched.stopRead_head hq (h.core ▸ hend) (h.core ▸ hstart)
  rw [← mark_toCore ho] at hstop
  obtain ⟨s'', hs'', h'⟩ := h.abort_exposures k (c := c)
  cases hs.symm.trans hs''
  obtain ⟨t, ht, hmark⟩ := h.abort_mark (c := c)
  obtain ⟨e, he, hep, hel, -⟩ := h.head_cell hq
  refine ⟨?_, ⟨t, ht, ?_⟩, h.abort_lists h'⟩
  · obtain ⟨l, hcalls, -, hrow⟩ := Sched.abort_schedules k c a
    rw [hstop] at hcalls hrow
    refine ⟨i, e, l, hel, he, ?_, ?_⟩
    · rw [h'.core, hcalls, hep, h.core]
      show ((a.calls ++ [_]) ++ [_]) ++ l = _
      rw [List.append_assoc, List.append_assoc]
      rfl
    · rw [h'.core]
      exact hrow
  · rw [hmark.core, hstop]
    rfl

/-- The download of another exposure is not. -/
lemma Linked.not_stops (h : Linked s a) (hq : a.queue = (i, p) :: rest) (ho : a.owned c = n :: L)
    (hne : i ≠ n) (hs : Ccd.abort_exposures k c s = some s') : ¬ Stops c s s' := by
  rintro ⟨⟨i', e, rest', -, -, hreset, -⟩, -, -⟩
  have hstop := Sched.stopRead_other hq hne
  rw [← mark_toCore ho] at hstop
  obtain ⟨s'', hs'', h'⟩ := h.abort_exposures k (c := c)
  cases hs.symm.trans hs''
  obtain ⟨l, hcalls, hframes, -⟩ := Sched.abort_schedules k c a
  rw [h'.core, hcalls, hstop, h.core] at hreset
  have hl := List.append_cancel_left hreset
  have hframe := hframes (.control CCD_CTRL_CMD_RESET 0) (by rw [hl]; exact List.mem_cons_self)
  exact absurd hframe (by decide)

end

/-- When a client aborts whose frame is being read, the download is stopped if and only if the first
exposure of the device is the newest of the client. -/
theorem abort_stops_iff {jiffies : ℕ} {s s' : State} {c : Field} {i : ℕ} {e : Exposure}
    (h : Runs k m (fun _ _ => True) jiffies s) (hi : s.exposure_list = some i)
    (he : s.heap i = some e) (hc : e.client = c)
    (hstart : s.current_read_row ≠ CCD_START_FRAME_LOAD)
    (hend : s.current_read_row ≠ CCD_END_FRAME_LOAD) (hs : abort_exposures k c s = some s') :
    Stops c s s' ↔ s.client_list c = some i := by
  obtain ⟨a, ha⟩ := h.represents
  obtain ⟨p, rest, hq⟩ : ∃ p rest, a.queue = (i, p) :: rest := by
    have hchain := ha.chain
    rw [hi] at hchain
    cases hq : a.queue with
    | nil =>
      rw [Sched.ids, hq] at hchain
      cases hchain
    | cons x rest =>
      rw [Sched.ids, hq] at hchain
      obtain ⟨hx, -⟩ := hchain
      cases hx
      exact ⟨x.2, rest, rfl⟩
  obtain ⟨f, hf, hfp, -, -⟩ := ha.toLinked.head_cell hq
  cases he.symm.trans hf
  have hmem : i ∈ a.owned c := by
    rw [ha.owned_iff, Sched.tags, hq, ← hfp, ← hc]
    exact List.mem_cons_self
  obtain ⟨n, L, ho⟩ := List.exists_cons_of_ne_nil (List.ne_nil_of_mem hmem)
  have hlist : s.client_list c = some n := by
    have hchain := ha.clients c
    rw [ho] at hchain
    exact hchain.1
  rw [hlist, Option.some.injEq]
  constructor
  · intro hstops
    by_contra hne
    exact ha.toLinked.not_stops hq ho (Ne.symm hne) hs hstops
  · rintro rfl
    exact ha.toLinked.stops hq ho hstart hend hs

/-- A client asks for `n` frames of two rows and reads one row of the first. -/
def rowRead (n : ℕ) : List Event :=
  [.register .small, .open_ 1 .binary false] ++
    List.replicate n (.new_exposure 1 (whole_frame 0 100)) ++ [.expire, .read 1 4]

/-- What the abort finds then. -/
def found (s : State) : ℕ × Option ℕ × Option (Field × ℤ) × Option ℕ :=
  (s.current_read_row, s.exposure_list, (s.heap 0).map fun e => (e.client, e.complete),
    s.client_list 1)

lemma found_spec {n : ℕ} {x : Option ℕ} (h : (replay (step .hz100 .black) (State.init 0)
      (rowRead n)).map found = some (1, some 0, some (1, 1), x)) :
    ∃ s e, replay (step .hz100 .black) (State.init 0) (rowRead n) = some s ∧
      s.current_read_row = 1 ∧ s.exposure_list = some 0 ∧ s.heap 0 = some e ∧ e.client = 1 ∧
      e.complete = 1 ∧ s.client_list 1 = x := by
  obtain ⟨s, hs, hfound⟩ := Option.map_eq_some_iff.mp h
  simp only [found, Prod.mk.injEq] at hfound
  obtain ⟨hrow, hi, he, hlist⟩ := hfound
  obtain ⟨e, he, hc⟩ := Option.map_eq_some_iff.mp he
  simp only [Prod.mk.injEq] at hc
  exact ⟨s, e, hs, hrow, hi, he, hc.1, hc.2, hlist⟩

/-- When it has asked for one, that is its newest. -/
theorem abort_stops_one :
    ∃ s s', replay (step .hz100 .black) (State.init 0) (rowRead 1) = some s ∧
      s.current_read_row = 1 ∧ abort_exposures .hz100 1 s = some s' ∧
      s.client_list 1 = some 0 ∧ (Stops 1 s s' ↔ s.client_list 1 = some 0) := by
  obtain ⟨s, e, hs, hrow, hi, he, hc, -, hlist⟩ := found_spec (n := 1) (x := some 0)
    (by decide +kernel)
  have hreach : Runs .hz100 .black (fun _ _ => True) 0 s := Reach.init.of_replay hs
  obtain ⟨a, ha⟩ := hreach.represents
  obtain ⟨s', habort, -⟩ := ha.toLinked.abort_exposures .hz100 (c := 1)
  exact ⟨s, s', hs, hrow, habort, hlist, abort_stops_iff .hz100 .black hreach hi he hc
    (by rw [hrow]; decide) (by rw [hrow]; decide) habort⟩

/-- When it has asked for two, the mini-driver is not told anything. -/
theorem abort_stops_not_two :
    ¬ ∀ (k : Kernel) (m : Mini) (jiffies : ℕ) (s s' : State) (c : Field) (i : ℕ) (e : Exposure),
      Runs k m (fun _ _ => True) jiffies s → s.exposure_list = some i → s.heap i = some e →
      e.client = c → e.complete = 1 → s.current_read_row ≠ CCD_START_FRAME_LOAD →
      s.current_read_row ≠ CCD_END_FRAME_LOAD → abort_exposures k c s = some s' →
      Stops c s s' := by
  intro h
  obtain ⟨s, e, hs, hrow, hi, he, hc, hcomplete, -⟩ :=
    found_spec (n := 2) (x := some 1) (by decide +kernel)
  have hcalls : ((replay (step .hz100 .black) (State.init 0) (rowRead 2)).bind fun s =>
      (abort_exposures .hz100 1 s).map fun s' => s'.calls.length - s.calls.length) = some 0 := by
    decide +kernel
  rw [hs, Option.bind_some] at hcalls
  obtain ⟨s', habort, hlength⟩ := Option.map_eq_some_iff.mp hcalls
  obtain ⟨⟨i, f, rest, -, -, hreset, -⟩, -, -⟩ := h .hz100 .black 0 s s' 1 0 e
    (Reach.init.of_replay hs) hi he hc hcomplete (by rw [hrow]; decide) (by rw [hrow]; decide) habort
  rw [hreset, List.length_append, List.length_cons] at hlength
  omega

end EspLinux.Ccd
