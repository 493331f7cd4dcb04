import EspLinux.Ccd.AbortRead
import EspLinux.Ccd.Reads

/-!
# Polling

`ccd_poll` reports a device readable if there are bytes in the client's buffer or if the first
exposure is the client's and complete.  A read finds bytes in the same two cases, but for one
thing: the first exposure can be complete and have no row left to read.  An exposure that is put in
front of a complete one leaves the device so, and only that does: while no exposure is put there,
`ccd_poll` and `ccd_read` agree in every state that is reached (`poll_agrees_with_read`).  What they
rest on is the invariant `Pollable`.
-/

namespace EspLinux.Ccd

open EspLinux.Lib

variable (k : Kernel) (m : Mini)

/-- Whether the first exposure of the device is an exposure of client `c` that has ended. -/
def head_ready (c : Field) (s : State) : Option Bool :=
  if s.client_list c = none then some false
  else
    match s.exposure_list with
    | none => none
    | some i => do
      let e ← s.heap i
      some (decide (e.client = c ∧ e.complete ≠ 0))

/-- `ccd_poll`: whether the caller is put on the wait queue, and whether the device is reported
readable. -/
def ccd_poll (c : Field) (s : State) : Option (Bool × Bool) :=
  if (s.clients c).out_buf_len = 0 then do
    let ready ← head_ready c s
    some (!ready, ready)
  else some (false, true)

/-! ## The invariant -/

/-- The frame at the device has a row that has not been read, or has not been begun. -/
def Unread (p : Params) (x : Core) : Prop :=
  x.current_read_row = CCD_START_FRAME_LOAD ∨
    x.current_read_row ≤ last_row p ∧ 0 < row_bytes x.geometry p

/-- The frame has a row of pixels: its binned height is at least one. -/
structure Rowed (f : Frame) : Prop where
  ybin_pos : 0 < f.ybin
  ybin_le : f.ybin ≤ f.height
  height_lt : f.height < 2 ^ 16

/-- Only the first exposure can be complete, and it then has something left to read. -/
structure Pollable (a : Sched) : Prop where
  waiting : ∀ x ∈ a.queue.tail, x.2.complete = 0
  rowed : ∀ x ∈ a.queue, Rowed x.2.toFrame
  head : ∀ i p rest, a.queue = (i, p) :: rest →
    p.complete = 0 ∨ p.complete = 1 ∧ Unread p a.toCore

lemma Rowed.last_row_eq {p : Params} (h : Rowed p.toFrame) :
    last_row p = p.height - p.ybin := by
  have := h.ybin_le
  have := h.height_lt
  unfold last_row u32
  omega

/-- Giving exposures new times changes neither their frames nor whether they are complete. -/
lemma retime_frame {P : Frame → ℤ → Prop} {t : ℕ} {l : List (ℕ × Params)}
    (h : ∀ x ∈ l, P x.2.toFrame x.2.complete) :
    ∀ x ∈ retime k t l, P x.2.toFrame x.2.complete := by
  intro x hx
  have hmap := map_retime k (fun x => (x.2.toFrame, x.2.complete)) (fun _ _ _ => rfl) t l
  have hmem : (x.2.toFrame, x.2.complete) ∈
      (retime k t l).map fun x => (x.2.toFrame, x.2.complete) := List.mem_map_of_mem hx
  rw [hmap] at hmem
  obtain ⟨y, hy, heq⟩ := List.mem_map.mp hmem
  simp only [Prod.mk.injEq] at heq
  rw [← heq.1, ← heq.2]
  exact h y hy

/-- Taking an exposure out of the queue keeps the first one and changes no frame. -/
lemma unlink_frame {P : Frame → ℤ → Prop} {i : ℕ} {x : ℕ × Params} {l : List (ℕ × Params)}
    (h : ∀ y ∈ l, P y.2.toFrame y.2.complete) :
    ∃ l', unlink k i (x :: l) = x :: l' ∧ ∀ y ∈ l', P y.2.toFrame y.2.complete := by
  induction l generalizing x with
  | nil => exact ⟨[], rfl, by simp⟩
  | cons z l ih =>
    have hl : ∀ y ∈ l, P y.2.toFrame y.2.complete := fun y hy => h y (List.mem_cons_of_mem z hy)
    rw [unlink]
    split
    · exact ⟨_, rfl, retime_frame k hl⟩
    · obtain ⟨l', hl', hP⟩ := ih (x := z) hl
      refine ⟨z :: l', by rw [hl'], fun y hy => ?_⟩
      rcases List.mem_cons.mp hy with rfl | hy
      · exact h y List.mem_cons_self
      · exact hP y hy

namespace Pollable

variable {a : Sched} {i : ℕ} {p : Params} {rest : List (ℕ × Params)}

/-- The row, the geometry and the queue are all that matters. -/
lemma congr {b : Sched} (h : Pollable a) (hq : b.queue = a.queue)
    (hrow : b.current_read_row = a.current_read_row) (hg : b.geometry = a.geometry) :
    Pollable b := by
  refine ⟨hq ▸ h.waiting, hq ▸ h.rowed, fun i p rest hqueue => ?_⟩
  unfold Unread
  rw [hrow, hg]
  exact h.head i p rest (hq ▸ hqueue)

/-- An exposure that is not complete is the first. -/
lemma of_cons (hq : a.queue = (i, p) :: rest) (hp : p.complete = 0) (hrow : Rowed p.toFrame)
    (hrest : ∀ x ∈ rest, Rowed x.2.toFrame ∧ x.2.complete = 0) : Pollable a := by
  refine ⟨?_, ?_, ?_⟩
  · rw [hq]
    exact fun x hx => (hrest x hx).2
  · rw [hq]
    intro x hx
    rcases List.mem_cons.mp hx with rfl | hx
    · exact hrow
    · exact (hrest x hx).1
  · intro j q rest' hqueue
    rw [hq] at hqueue
    cases hqueue
    exact .inl hp

lemma of_nil (hq : a.queue = []) : Pollable a := by
  refine ⟨?_, ?_, ?_⟩
  · simp [hq]
  · simp [hq]
  · intro i p rest hqueue
    rw [hq] at hqueue
    cases hqueue

/-- What is known of the exposures behind the first. -/
lemma behind (h : Pollable a) (hq : a.queue = (i, p) :: rest) :
    ∀ x ∈ rest, Rowed x.2.toFrame ∧ x.2.complete = 0 := by
  intro x hx
  refine ⟨h.rowed x ?_, h.waiting x ?_⟩
  · rw [hq]
    exact List.mem_cons_of_mem _ hx
  · rw [hq]
    exact hx

lemma finish (h : Pollable a) (j : ℕ) : Pollable (a.finish j) := by
  unfold Sched.finish
  split
  · exact h
  · rename_i i p rest hq
    split
    · refine ⟨fun x hx => (h.behind hq x hx).2, ?_, ?_⟩
      · intro x hx
        rcases List.mem_cons.mp hx with rfl | hx
        · exact h.rowed (i, p) (hq ▸ List.mem_cons_self)
        · exact (h.behind hq x hx).1
      · intro j q rest' hqueue
        cases hqueue
        exact .inr ⟨rfl, .inl rfl⟩
    · exact h

/-- The first exposure has left the queue. -/
lemma advance (hrest : ∀ x ∈ rest, Rowed x.2.toFrame ∧ x.2.complete = 0) :
    Pollable (a.advance k p rest) := by
  cases rest with
  | nil => exact of_nil rfl
  | cons x rest =>
    obtain ⟨j, q⟩ := x
    obtain ⟨hq, hqc⟩ := hrest (j, q) List.mem_cons_self
    have hbehind := fun x hx => hrest x (List.mem_cons_of_mem (j, q) hx)
    simp only [Sched.advance]
    split
    · exact of_cons rfl hqc hq
        (retime_frame k (P := fun f complete => Rowed f ∧ complete = 0) hbehind)
    · split
      · exact finish (of_cons rfl hqc hq hbehind) j
      · exact of_cons rfl hqc hq hbehind

lemma del (h : Pollable a) (i : ℕ) : Pollable (a.del k i) := by
  cases hq : a.queue with
  | nil => exact h.congr (by simp [Sched.del, hq]) (by simp [Sched.del, hq]) (by simp [Sched.del, hq])
  | cons x rest =>
    obtain ⟨j, p⟩ := x
    by_cases hji : j = i
    · subst hji
      rw [Sched.del_head k hq]
      exact advance k (h.behind hq)
    · rw [Sched.del_inner k hq hji, hq]
      obtain ⟨l', hl', hP⟩ := unlink_frame k
        (P := fun f complete => Rowed f ∧ complete = 0) (i := i) (x := (j, p)) (h.behind hq)
      rw [hl']
      refine ⟨fun x hx => (hP x hx).2, ?_, ?_⟩
      · intro x hx
        rcases List.mem_cons.mp hx with rfl | hx
        · exact h.rowed (j, p) (hq ▸ List.mem_cons_self)
        · exact (hP x hx).1
      · intro i' p' rest' hqueue
        cases hqueue
        exact h.head j p rest hq

lemma drop (h : Pollable a) (c : Field) (L : List ℕ) : Pollable (a.drop k c L) := by
  induction L generalizing a with
  | nil => exact h
  | cons i L ih => exact ih ((h.del k i).congr rfl rfl rfl)

/-- Whatever the mark did to it, the newest exposure of the client goes. -/
lemma del_mark {c : Field} {n : ℕ} {L : List ℕ} (h : Pollable a) (hnd : a.ids.Nodup)
    (ho : a.owned c = n :: L) : Pollable ((a.mark c).del k n) := by
  have hmark : a.mark c = { a with
      toCore := a.stopRead n
      queue := Sched.markAborted n a.queue } := by
    rw [Sched.mark, ho]
  cases hq : a.queue with
  | nil =>
    have hempty : (a.mark c).queue = [] := by
      rw [hmark, hq]
      rfl
    refine of_nil ?_
    simp [Sched.del, hempty]
  | cons x rest =>
    obtain ⟨j, p⟩ := x
    rw [Sched.ids, hq, List.map_cons, List.nodup_cons] at hnd
    have hcons : (a.mark c).queue =
        (if j = n ∧ p.complete = 0 then (j, { p with complete := -1 }) else (j, p)) ::
          Sched.markAborted n rest := by
      rw [hmark, hq]
      rfl
    by_cases hj : j = n
    · subst hj
      obtain ⟨p', hp'⟩ : ∃ p', (a.mark c).queue = (j, p') :: rest := by
        rw [hcons, Sched.markAborted_of_notMem hnd.1]
        split
        · exact ⟨_, rfl⟩
        · exact ⟨_, rfl⟩
      rw [Sched.del_head k hp']
      exact advance k (h.behind hq)
    · rw [if_neg fun hc => hj hc.1] at hcons
      rw [Sched.del_inner k hcons hj, hcons, unlink_markAborted k hnd.2, ← hq]
      refine (h.del k n).congr ?_ ?_ ?_
      · rw [Sched.del_inner k hq hj]
      · rw [Sched.del_inner k hq hj, hmark]
        exact congrArg Core.current_read_row (Sched.stopRead_other hq hj)
      · rw [Sched.del_inner k hq hj, hmark]
        exact congrArg Core.geometry (Sched.stopRead_other hq hj)

lemma abort (h : Pollable a) (hnd : a.ids.Nodup) (c : Field) : Pollable (a.abort k c) := by
  have hdrop : Pollable (Sched.drop k c (a.owned c) (a.mark c)) := by
    cases ho : a.owned c with
    | nil =>
      rw [Sched.mark, ho]
      exact h
    | cons n L =>
      have hpop : Pollable (((a.mark c).del k n).pop c) := (h.del_mark k hnd ho).congr rfl rfl rfl
      exact hpop.drop k c L
  exact hdrop.congr rfl rfl rfl

lemma new {c : Field} {msg : Msg} (h : Pollable a)
    (hrow : Rowed (request a.geometry c msg).toFrame) (hok : NewOk k c msg a) :
    Pollable (a.new k c msg) := by
  have hsnoc {j t : ℕ} {g : Params} {rest : List (ℕ × Params)} {y : Core} (o : Field → List ℕ)
      (hq : a.queue = (j, g) :: rest) (hr : y.current_read_row = a.current_read_row)
      (hg : y.geometry = a.geometry) :
      Pollable
        { toCore := y
          queue := a.queue ++ [(a.fresh, (request a.geometry c msg).after k t)]
          owned := o } := by
    refine ⟨?_, ?_, ?_⟩
    · simp only [hq, List.cons_append, List.tail_cons, List.mem_append, List.mem_singleton]
      rintro x (hx | rfl)
      · exact (h.behind hq x hx).2
      · rfl
    · simp only [List.mem_append, List.mem_singleton]
      rintro x (hx | rfl)
      · exact h.rowed x hx
      · exact hrow
    · intro i p rest' hqueue
      simp only [hq, List.cons_append, List.cons.injEq] at hqueue
      unfold Unread
      rw [hr, hg]
      exact h.head i p rest (by rw [hq, hqueue.1])
  rcases Sched.new_cases k a c msg rfl with ⟨-, hn⟩ | ⟨j, g, hq, hov, hlt, hn⟩ |
    ⟨j, g, hq, -, -, hn⟩ | ⟨j, g, rest, hq, -, hn⟩
  · rw [hn]
    exact of_cons rfl rfl hrow (by simp)
  · rw [hn, hq]
    refine of_cons rfl rfl hrow ?_
    simp only [List.mem_singleton]
    rintro x rfl
    exact ⟨h.rowed (j, g) (hq ▸ List.mem_cons_self), hok j g hq hov hlt⟩
  · rw [hn]
    exact hsnoc _ hq rfl rfl
  · rw [hn]
    exact hsnoc _ hq rfl rfl

lemma expire (h : Pollable a) : Pollable a.expire := by
  rcases a.expire_cases with ⟨-, hx⟩ | ⟨-, hx⟩ | ⟨i, -, -, hx⟩
  · rw [hx]
    exact h
  · rw [hx]
    exact h.congr rfl rfl rfl
  · have hoff : Pollable { a with toCore := a.toCore.del_timer } := h.congr rfl rfl rfl
    rw [hx]
    exact hoff.finish i

lemma endFrame (h : Pollable a) (hq : a.queue = (i, p) :: rest) (y : Core) :
    Pollable (Sched.endFrame k i p { a with toCore := y }) := by
  obtain ⟨x, hx⟩ : ∃ x : Sched, x = { a with
      toCore := (y.call (.end_read p.flags)).set_row CCD_END_FRAME_LOAD } := ⟨_, rfl⟩
  have hxq : x.queue = (i, p) :: rest := by rw [hx, ← hq]
  have hdel : Pollable (x.del k i) := by
    rw [Sched.del_head k hxq]
    exact advance k (h.behind hq)
  rw [hx] at hdel
  exact hdel.congr rfl rfl rfl

end Pollable

/-! ## Reads -/

/-- A row loop that has been left with a row to go has had no room for it. -/
lemma read_rows_unread {p : Params} {n : ℕ} {x z : Rows}
    (h : loop (read_rows m p) n x = some z) (hle : z.core.current_read_row ≤ last_row p) :
    Unread p z.core := by
  have hstop : ¬ (row_bytes z.core.geometry p ≤ z.count ∧
      z.core.current_read_row ≤ last_row p) := by
    refine loop_invariant (P := fun _ => True)
      (Q := fun z => ¬ (row_bytes z.core.geometry p ≤ z.count ∧
        z.core.current_read_row ≤ last_row p)) (fun _ _ _ _ => trivial) ?_ trivial h
    intro x z _ hx
    unfold read_rows at hx
    split at hx
    · cases hx
    · cases hx
      assumption
  refine .inr ⟨hle, ?_⟩
  by_contra hzero
  exact hstop ⟨by omega, hle⟩

namespace Pollable

variable {s s' : State} {a : Sched} {i count : ℕ} {p : Params} {rest : List (ℕ × Params)}
  {data : List UInt8}

lemma read_exposure (h : Pollable a) (hl : Linked s a) (hq : a.queue = (i, p) :: rest)
    (hp : p.complete = 1) (hr : read_exposure k m i count s = some (s', data)) :
    ∃ b, Linked s' b ∧ Pollable b := by
  obtain ⟨e, he, rfl, -, -⟩ := hl.head_cell hq
  simp only [Ccd.read_exposure, he, Option.bind_eq_bind, Option.bind_some,
    Option.bind_eq_some_iff] at hr
  obtain ⟨r, hloop, hr⟩ := hr
  rw [hl.core] at hloop
  have hcalm : Calm a.toCore r.core :=
    (begin_frame_calm e.toParams a.toCore).trans (read_rows_calm m hloop)
  have hl' := hl.set_calm hcalm
  split at hr
  · obtain ⟨s₁, hs₁, h₁⟩ := hl'.end_frame k hq
    rw [hs₁, Option.bind_some] at hr
    cases hr
    exact ⟨_, h₁, h.endFrame k hq r.core⟩
  · rename_i hle
    cases hr
    refine ⟨_, hl', h.waiting, h.rowed, fun j q rest' hqueue => ?_⟩
    obtain ⟨⟨rfl, rfl⟩, rfl⟩ : (i = j ∧ e.toParams = q) ∧ rest = rest' := by
      simpa using hq.symm.trans hqueue
    exact .inr ⟨hp, read_rows_unread m hloop (Nat.not_lt.mp hle)⟩

/-- The client's record does not matter. -/
lemma set_client (h : Pollable a) (hl : Linked s a) (c : Field) (w : Client) :
    ∃ b, Linked { s with toCore := s.toCore.set_client c w } b ∧ Pollable b := by
  rw [hl.core]
  exact ⟨_, hl.set_core (x := a.toCore.set_client c w) rfl, h.congr rfl rfl rfl⟩

lemma read_binary_exposure (h : Pollable a) (hl : Linked s a) (hq : a.queue = (i, p) :: rest)
    (hp : p.complete = 1) (hr : read_binary_exposure k m i count s = some (s', data)) :
    ∃ b, Linked s' b ∧ Pollable b := by
  obtain ⟨e, he, rfl, -, -⟩ := hl.head_cell hq
  simp only [Ccd.read_binary_exposure, he, Option.bind_eq_bind, Option.bind_some] at hr
  split at hr
  · obtain ⟨⟨s₁, d⟩, hs₁, hr⟩ := Option.bind_eq_some_iff.mp hr
    cases hr
    exact h.read_exposure k m hl hq hp hs₁
  · obtain ⟨⟨s₁, d⟩, hs₁, hr⟩ := Option.bind_eq_some_iff.mp hr
    obtain ⟨b, hl₁, hb⟩ := h.read_exposure k m hl hq hp hs₁
    cases hr
    exact hb.set_client hl₁ _ _

lemma read_text_exposure (h : Pollable a) (hl : Linked s a) (hq : a.queue = (i, p) :: rest)
    (hp : p.complete = 1) (hr : read_text_exposure k m i count s = some (s', data)) :
    ∃ b, Linked s' b ∧ Pollable b := by
  obtain ⟨e, he, rfl, -, -⟩ := hl.head_cell hq
  simp only [Ccd.read_text_exposure, he, Option.bind_eq_bind, Option.bind_some] at hr
  obtain ⟨⟨s₁, d⟩, hs₁, hr⟩ := Option.bind_eq_some_iff.mp hr
  obtain ⟨x, -, hr⟩ := Option.bind_eq_some_iff.mp hr
  rw [hl.core] at hs₁
  obtain ⟨w, hw⟩ : ∃ w, w = if a.current_read_row = CCD_START_FRAME_LOAD
      then text_start e.toParams (a.clients e.client) else a.clients e.client := ⟨_, rfl⟩
  rw [← hw] at hs₁
  have hstart : Pollable { a with toCore := a.toCore.set_client e.client w } :=
    h.congr rfl rfl rfl
  obtain ⟨b, hl₁, hb⟩ := hstart.read_exposure k m (hl.set_core rfl) hq hp hs₁
  cases hr
  exact hb.set_client hl₁ _ _

lemma ccd_read_head {c : Field} {res : Except Errno (List UInt8)} (h : Pollable a)
    (hl : Linked s a) (hr : ccd_read_head k m c count s = some (s', res)) :
    ∃ b, Linked s' b ∧ Pollable b := by
  cases hq : a.queue with
  | nil =>
    have hel : s.exposure_list = none := by
      have hc := hl.chain
      rwa [Sched.ids, hq, List.map_nil, Chain.nil_iff] at hc
    simp only [Ccd.ccd_read_head, hel] at hr
    cases hr
    exact ⟨a, hl, h⟩
  | cons x rest =>
    obtain ⟨i, p⟩ := x
    obtain ⟨e, he, rfl, hel, -⟩ := hl.head_cell hq
    simp only [Ccd.ccd_read_head, hel, he, Option.bind_eq_bind, Option.bind_some] at hr
    split at hr
    · rename_i hcond
      split at hr
      · obtain ⟨⟨s₁, d⟩, hs₁, hr⟩ := Option.bind_eq_some_iff.mp hr
        cases hr
        exact h.read_binary_exposure k m hl hq hcond.2 hs₁
      · obtain ⟨⟨s₁, d⟩, hs₁, hr⟩ := Option.bind_eq_some_iff.mp hr
        cases hr
        exact h.read_text_exposure k m hl hq hcond.2 hs₁
    · cases hr
      exact ⟨a, hl, h⟩

lemma ccd_read {c : Field} {res : Except Errno (List UInt8)} (h : Pollable a)
    (hl : Linked s a) (hr : ccd_read k m c count s = some (s', res)) :
    ∃ b, Linked s' b ∧ Pollable b := by
  simp only [Ccd.ccd_read] at hr
  by_cases hreg : s.registered = false
  · rw [if_pos hreg] at hr
    cases hr
    exact ⟨a, hl, h⟩
  rw [if_neg hreg] at hr
  by_cases hzero : count = 0
  · rw [if_pos hzero] at hr
    cases hr
    exact ⟨a, hl, h⟩
  rw [if_neg hzero] at hr
  by_cases hbuf : 0 < (s.clients c).out_buf_len
  · rw [if_pos hbuf] at hr
    cases hr
    exact h.set_client hl c _
  rw [if_neg hbuf] at hr
  by_cases hlist : s.client_list c = none
  · rw [if_pos hlist] at hr
    cases hr
    exact ⟨a, hl, h⟩
  rw [if_neg hlist] at hr
  split at hr
  · cases hr
  · obtain ⟨f, -, hr⟩ := Option.bind_eq_some_iff.mp hr
    split at hr
    · cases hr
      exact ⟨a, hl, h⟩
    · exact h.ccd_read_head k m hl hr

end Pollable

/-! ## Runs -/

/-- Exposures have a row of pixels, and none is put in front of one that is complete. -/
def PollOk (s : State) : Event → Prop
  | .new_exposure c msg => s.ready c →
      1 ≤ (request s.geometry c msg).height / (request s.geometry c msg).ybin ∧
        NewOk k c msg s.view
  | _ => True

lemma request_rowed {g : Geometry} {c : Field} {msg : Msg}
    (h : 1 ≤ (request g c msg).height / (request g c msg).ybin) :
    Rowed (request g c msg).toFrame := by
  obtain ⟨hbin, hheight, -⟩ := request_bounds g c msg
  refine ⟨hbin, ?_, hheight⟩
  have hmul := (Nat.le_div_iff_mul_le hbin).mp h
  rwa [Nat.one_mul] at hmul

/-- A change that concerns neither the device list nor the frame that is read. -/
structure Aside (s t : State) : Prop where
  list : t.exposure_list = s.exposure_list
  heap : t.heap = s.heap
  fresh : t.fresh = s.fresh
  row : t.current_read_row = s.current_read_row
  geometry : t.geometry = s.geometry

lemma Pollable.aside {s t : State} (h : Pollable s.view) (ha : Aside s t) : Pollable t.view := by
  refine h.congr ?_ ha.row ha.geometry
  show walk Exposure.next t.heap (t.fresh + 1) t.exposure_list = _
  rw [ha.heap, ha.fresh, ha.list]
  rfl

lemma ccd_open_aside (c : Field) (mode : Mode) (nomem : Bool) (s : State) :
    Aside s (ccd_open m c mode nomem s).1 := by
  simp only [ccd_open]
  split_ifs <;> exact ⟨rfl, rfl, rfl, rfl, rfl⟩

lemma close_aside (c : Field) (s : State) : Aside s { s with toCore := s.toCore.close c } := by
  have hkept : (s.toCore.close c).fresh = s.fresh ∧
      (s.toCore.close c).current_read_row = s.current_read_row ∧
      (s.toCore.close c).geometry = s.geometry := by
    simp only [Core.close]
    split_ifs <;> exact ⟨rfl, rfl, rfl⟩
  exact ⟨rfl, rfl, hkept.1, hkept.2.1, hkept.2.2⟩

/-- A step that meets `PollOk` keeps the invariant. -/
lemma Pollable.step {s s' : State} {e : Event} (hrep : Represents s s.view) (h : Pollable s.view)
    (hok : PollOk k s e) (hs : step k m s e = some s') : Pollable s'.view := by
  cases e with
  | tick d =>
    cases hs
    exact h.congr rfl rfl rfl
  | register g =>
    cases hs
    unfold ccd_register_device
    split
    · exact h
    · exact of_nil rfl
  | unregister =>
    by_cases hreg : s.registered = true
    · obtain ⟨s₁, hs₁, h₁⟩ := hrep.toLinked.unregister k hreg
      cases hs.symm.trans hs₁
      rw [h₁.view_eq]
      exact of_nil rfl
    · rw [Ccd.step, ccd_unregister_device, if_neg hreg] at hs
      cases hs
      exact h
  | open_ c mode nomem =>
    cases hs
    exact h.aside (ccd_open_aside m c mode nomem s)
  | close c =>
    simp only [Ccd.step, ccd_close] at hs
    split at hs
    · obtain ⟨s₁, hs₁, hs⟩ := Option.bind_eq_some_iff.mp hs
      cases hs
      have habort : Pollable s₁.view := by
        rw [(hrep.abort k c hs₁).toLinked.view_eq]
        exact h.abort k hrep.chain.nodup c
      exact habort.aside (close_aside c s₁)
    · cases hs
      exact h
  | new_exposure c msg =>
    simp only [Ccd.step] at hs
    split at hs
    · rename_i hready
      rw [(hrep.new_exposure k c msg hready hs).toLinked.view_eq]
      obtain ⟨hrow, hnew⟩ := hok hready
      exact h.new k (request_rowed hrow) hnew
    · cases hs
      exact h
  | abort c =>
    simp only [Ccd.step] at hs
    split at hs
    · rw [(hrep.abort k c hs).toLinked.view_eq]
      exact h.abort k hrep.chain.nodup c
    · cases hs
      exact h
  | expire =>
    rw [(hrep.expire hs).toLinked.view_eq]
    exact h.expire
  | read c count =>
    simp only [Ccd.step] at hs
    split at hs
    · obtain ⟨⟨s₁, res⟩, hr, rfl⟩ := Option.map_eq_some_iff.mp hs
      obtain ⟨b, hl, hb⟩ := h.ccd_read k m hrep.toLinked hr
      rw [hl.view_eq]
      exact hb
    · cases hs
      exact h
  | wake c count =>
    simp only [Ccd.step] at hs
    split at hs
    · obtain ⟨⟨s₁, res⟩, hr, rfl⟩ := Option.map_eq_some_iff.mp hs
      obtain ⟨b, hl, hb⟩ := h.ccd_read_head k m hrep.toLinked hr
      rw [hl.view_eq]
      exact hb
    · cases hs
      exact h

/-! ## Reads that deliver -/

/-- The row loop changes no record of a client, and stores as many bytes as it uses room. -/
lemma read_rows_kept {p : Params} {n : ℕ} {x z : Rows} (h : loop (read_rows m p) n x = some z) :
    z.core.clients = x.core.clients ∧ z.data.length + z.count = x.data.length + x.count ∧
      x.data.length ≤ z.data.length := by
  refine loop_invariant
    (P := fun r => r.core.clients = x.core.clients ∧
      r.data.length + r.count = x.data.length + x.count ∧ x.data.length ≤ r.data.length)
    (Q := fun r => r.core.clients = x.core.clients ∧
      r.data.length + r.count = x.data.length + x.count ∧ x.data.length ≤ r.data.length)
    ?_ ?_ ⟨rfl, rfl, le_refl _⟩ h
  · rintro r r' ⟨hcl, hlen, hle⟩ hstep
    unfold read_rows at hstep
    split at hstep
    · rename_i hgo
      cases hstep
      have hnext : (r.next m p).length = row_bytes r.core.geometry p := by
        simp [Rows.next]
      refine ⟨hcl, ?_, ?_⟩
      · show (r.data ++ r.next m p).length + (r.count - row_bytes r.core.geometry p) = _
        rw [List.length_append, hnext]
        omega
      · show _ ≤ (r.data ++ r.next m p).length
        rw [List.length_append]
        omega
    · cases hstep
  · intro r r' hr hstep
    unfold read_rows at hstep
    split at hstep
    · cases hstep
    · cases hstep
      exact hr

/-- A row is fetched if there is one and room for it. -/
lemma read_rows_first {p : Params} {n : ℕ} {x z : Rows} (h : loop (read_rows m p) n x = some z)
    (hroom : row_bytes x.core.geometry p ≤ x.count) (hrow : x.core.current_read_row ≤ last_row p) :
    x.data.length + row_bytes x.core.geometry p ≤ z.data.length := by
  cases n with
  | zero => cases h
  | succ n =>
    obtain ⟨y, hone, hy⟩ : ∃ y : Rows, read_rows m p x = .inl y ∧ y.data = x.data ++ x.next m p :=
      ⟨_, if_pos ⟨hroom, hrow⟩, rfl⟩
    rw [loop_inl hone] at h
    have hle := (read_rows_kept m h).2.2
    have hnext : (x.next m p).length = row_bytes x.core.geometry p := by
      simp [Rows.next]
    rwa [hy, List.length_append, hnext] at hle

/-- The row loop ends. -/
lemma read_rows_ends {p : Params} (hp : Rowed p.toFrame) {d : ℕ} {x : Rows}
    (hd : last_row p < x.core.current_read_row + d) :
    ∃ z, loop (read_rows m p) (d + 1) x = some z := by
  induction d generalizing x with
  | zero =>
    have hstop : ¬ (row_bytes x.core.geometry p ≤ x.count ∧
        x.core.current_read_row ≤ last_row p) := fun hgo => by omega
    exact ⟨x, loop_inr (if_neg hstop)⟩
  | succ d ih =>
    by_cases hgo : row_bytes x.core.geometry p ≤ x.count ∧ x.core.current_read_row ≤ last_row p
    · have hnext : u32 (x.core.current_read_row + p.ybin) = x.core.current_read_row + p.ybin := by
        have := hp.last_row_eq
        have := hp.height_lt
        have := hp.ybin_le
        exact Nat.mod_eq_of_lt (by omega)
      obtain ⟨y, hone, hrow⟩ : ∃ y : Rows, read_rows m p x = .inl y ∧
          y.core.current_read_row = u32 (x.core.current_read_row + p.ybin) :=
        ⟨_, if_pos hgo, rfl⟩
      have hpos := hp.ybin_pos
      obtain ⟨z, hz⟩ := ih (x := y) (by rw [hrow, hnext]; omega)
      exact ⟨z, by rw [loop_inl hone, hz]⟩
    · exact ⟨x, loop_inr (if_neg hgo)⟩

section

variable {s s' : State} {a : Sched} {i : ℕ} {p : Params} {rest : List (ℕ × Params)}

lemma begin_frame_kept (p : Params) (x : Core) :
    (begin_frame p x).clients = x.clients ∧ (begin_frame p x).geometry = x.geometry := by
  unfold begin_frame
  split <;> exact ⟨rfl, rfl⟩

/-- The frame is at a row that can be read, after the begin-of-frame processing. -/
lemma begin_frame_row {p : Params} {x : Core}
    (h : x.current_read_row = CCD_START_FRAME_LOAD ∨ x.current_read_row ≤ last_row p) :
    (begin_frame p x).current_read_row ≤ last_row p := by
  unfold begin_frame
  split
  · exact Nat.zero_le _
  · exact h.resolve_left ‹_›

/-- What a read of the exposure returns. -/
lemma Linked.read_exposure_bytes {count : ℕ} {data : List UInt8} (hl : Linked s a)
    (hq : a.queue = (i, p) :: rest) (hr : Ccd.read_exposure k m i count s = some (s', data)) :
    s'.clients = s.clients ∧ data.length ≤ count ∧
      (s.current_read_row = CCD_START_FRAME_LOAD ∨ s.current_read_row ≤ last_row p →
        row_bytes s.geometry p ≤ count → row_bytes s.geometry p ≤ data.length) := by
  obtain ⟨e, he, rfl, -, -⟩ := hl.head_cell hq
  simp only [Ccd.read_exposure, he, Option.bind_eq_bind, Option.bind_some,
    Option.bind_eq_some_iff] at hr
  obtain ⟨z, hloop, hr⟩ := hr
  obtain ⟨hbcl, hbg⟩ := begin_frame_kept e.toParams s.toCore
  obtain ⟨hcl, hlen, -⟩ := read_rows_kept m hloop
  have hlen' : z.data.length + z.count = count := by simpa using hlen
  have hrows : s.current_read_row = CCD_START_FRAME_LOAD ∨
      s.current_read_row ≤ last_row e.toParams → row_bytes s.geometry e.toParams ≤ count →
        row_bytes s.geometry e.toParams ≤ z.data.length := by
    intro hrow hroom
    have hfirst := read_rows_first m hloop (by rw [hbg]; exact hroom) (begin_frame_row hrow)
    rw [hbg] at hfirst
    exact (Nat.le_add_left _ _).trans hfirst
  have hcalm : Calm s.toCore z.core :=
    (begin_frame_calm e.toParams s.toCore).trans (read_rows_calm m hloop)
  have hl' : Linked { s with toCore := z.core } { a with toCore := z.core } := by
    refine hl.set_core ?_
    rw [← hl.core]
    exact hcalm.fresh
  split at hr
  · obtain ⟨s₁, hs₁, h₁⟩ := hl'.end_frame k hq
    rw [hs₁, Option.bind_some] at hr
    cases hr
    refine ⟨?_, by omega, hrows⟩
    have hstatic := Represents.endFrame_static k i e.toParams { a with toCore := z.core }
    rw [h₁.core]
    exact (congrArg (fun x => x.2.2.1) hstatic).trans (hcl.trans hbcl)
  · cases hr
    exact ⟨hcl.trans hbcl, by omega, hrows⟩

lemma read_exposure_ends (hl : Linked s a) (hq : a.queue = (i, p) :: rest)
    (hp : Rowed p.toFrame) (count : ℕ) :
    ∃ s' data, read_exposure k m i count s = some (s', data) := by
  obtain ⟨e, he, rfl, -, -⟩ := hl.head_cell hq
  obtain ⟨z, hz⟩ := read_rows_ends m hp (d := last_row e.toParams + 1)
    (x := ⟨begin_frame e.toParams s.toCore, count, []⟩) (by omega)
  have hfuel : last_row e.toParams + 1 + 1 ≤ row_limit := by
    have := hp.last_row_eq
    have := hp.height_lt
    unfold row_limit
    omega
  have hloop := loop_mono hz hfuel
  have hcalm : Calm s.toCore z.core :=
    (begin_frame_calm e.toParams s.toCore).trans (read_rows_calm m hloop)
  have hl' : Linked { s with toCore := z.core } { a with toCore := z.core } := by
    refine hl.set_core ?_
    rw [← hl.core]
    exact hcalm.fresh
  have hrun : read_exposure k m i count s =
      if last_row e.toParams < z.core.current_read_row then
        (end_frame k i { s with toCore := z.core }).bind fun s => some (s, z.data)
      else some ({ s with toCore := z.core }, z.data) := by
    unfold read_exposure
    rw [he]
    simp only [Option.bind_eq_bind, Option.bind_some]
    rw [hloop, Option.bind_some]
  by_cases hlast : last_row e.toParams < z.core.current_read_row
  · obtain ⟨s', hs', -⟩ := hl'.end_frame k hq
    exact ⟨s', z.data, by rw [hrun, if_pos hlast, hs', Option.bind_some]⟩
  · exact ⟨{ s with toCore := z.core }, z.data, by rw [hrun, if_neg hlast]⟩

/-- A row of pixels is turned into text, two characters for each. -/
lemma text_pixels_ends {z n pos : ℕ} (hz : z < 2 ^ 32) (x : Client) :
    ∃ y, loop (text_pixels z) (n + 1) (u32 (n * z), pos, x) = some y ∧
      x.out_buf_len ≤ y.out_buf_len ∧ (0 < u32 (n * z) → x.out_buf_len < y.out_buf_len) := by
  induction n generalizing pos x with
  | zero =>
    have hzero : u32 (0 * z) = 0 := by
      rw [Nat.zero_mul]
      rfl
    have hone : text_pixels z (u32 (0 * z), pos, x) = .inr x := by
      rw [text_pixels, if_pos hzero]
    exact ⟨x, loop_inr hone, le_refl _, fun h => by omega⟩
  | succ n ih =>
    by_cases hzero : u32 ((n + 1) * z) = 0
    · have hone : text_pixels z (u32 ((n + 1) * z), pos, x) = .inr x := by
        rw [text_pixels, if_pos hzero]
      exact ⟨x, loop_inr hone, le_refl _, fun h => by omega⟩
    · have hstep : u32 (u32 ((n + 1) * z) + 2 ^ 32 - z) = u32 (n * z) := by
        rw [Nat.add_one_mul]
        generalize n * z = w
        unfold u32
        omega
      obtain ⟨x', hx'⟩ : ∃ x' : Client, x' =
          (x.emit_int (pixel_value z x.out_buf pos)).emit (chars "\n") := ⟨_, rfl⟩
      have hlen : x'.out_buf_len = x.out_buf_len + 2 := by
        rw [hx']
        rfl
      obtain ⟨y, hy, hle, -⟩ := @ih (pos + z) x'
      have hone : text_pixels z (u32 ((n + 1) * z), pos, x) = .inl (u32 (n * z), pos + z, x') := by
        rw [text_pixels, if_neg hzero, hstep, hx']
      exact ⟨y, by rw [loop_inl hone, hy], by omega, fun _ => by omega⟩

lemma Kernel.le_size_t (n : ℕ) (hn : n < 2 ^ 32) : n ≤ k.size_t n ∧ k.size_t n < 2 ^ k.longBits := by
  have := k.le_long
  unfold Kernel.size_t
  split
  · omega
  · omega

lemma read_binary_delivers {count : ℕ} (hl : Linked s a) (hq : a.queue = (i, p) :: rest)
    (hp : Rowed p.toFrame) (hu : Unread p s.toCore) (hpos : 0 < count) (hcount : count < 2 ^ 32) :
    ∃ s' data, read_binary_exposure k m i count s = some (s', data) ∧ 0 < data.length := by
  obtain ⟨e, he, rfl, -, -⟩ := hl.head_cell hq
  by_cases hroom : fits_row k e.toParams count s.toCore
  · obtain ⟨s', data, hrun⟩ := read_exposure_ends k m hl hq hp
      (u32 (count + 2 ^ 32 - (header e.toParams s.toCore).length))
    obtain ⟨-, -, hrows⟩ := hl.read_exposure_bytes k m hq hrun
    refine ⟨s', header e.toParams s.toCore ++ data, ?_, ?_⟩
    · unfold read_binary_exposure
      rw [he]
      simp only [Option.bind_eq_bind, Option.bind_some]
      rw [if_pos hroom, hrun, Option.bind_some]
    · rw [List.length_append]
      by_cases hstart : s.current_read_row = CCD_START_FRAME_LOAD
      · have hlen : (header e.toParams s.toCore).length = 8 := by
          rw [length_header, header_len, if_pos hstart]
          rfl
        omega
      · -- the room is for a whole row, and no header is due
        rcases hu with hu | ⟨hrow, hbytes⟩
        · exact absurd hu hstart
        have hlen : header_len s.toCore = 0 := if_neg hstart
        have hbound : row_bytes s.geometry e.toParams < 2 ^ 32 := Nat.mod_lt _ (by norm_num)
        obtain ⟨hle, hlt⟩ := k.le_size_t _ hbound
        have hfits : k.size_t (row_bytes s.geometry e.toParams) ≤ count := by
          unfold fits_row at hroom
          rwa [hlen, Nat.add_zero, Nat.mod_eq_of_lt hlt] at hroom
        have hsub : u32 (count + 2 ^ 32 - (header e.toParams s.toCore).length) = count := by
          rw [length_header, hlen]
          unfold u32
          omega
        rw [hsub] at hrows
        have := hrows (.inr hrow) (hle.trans hfits)
        omega
  · obtain ⟨s', data, hrun⟩ := read_exposure_ends k m hl hq hp (row_bytes s.geometry e.toParams)
    have hlen : (read_binary_exposure k m i count s).map (fun r => r.2.length) = some count := by
      unfold read_binary_exposure
      rw [he]
      simp only [Option.bind_eq_bind, Option.bind_some]
      rw [if_neg hroom, hrun, Option.bind_some, Option.map_some, length_slice]
    obtain ⟨⟨s₁, out⟩, hs₁, hout⟩ := Option.map_eq_some_iff.mp hlen
    exact ⟨s₁, out, hs₁, hpos.trans_eq hout.symm⟩

lemma text_start_pos (p : Params) (x : Client) : 0 < (text_start p x).out_buf_len :=
  Nat.lt_of_lt_of_le Nat.one_pos (Nat.le_add_left 1 _)

lemma read_text_delivers {count : ℕ} (hl : Linked s a) (hq : a.queue = (i, p) :: rest)
    (hp : Rowed p.toFrame) (hu : Unread p s.toCore) (hpos : 0 < count) :
    ∃ s' data, read_text_exposure k m i count s = some (s', data) ∧ 0 < data.length := by
  obtain ⟨e, he, rfl, -, -⟩ := hl.head_cell hq
  obtain ⟨w, hw⟩ : ∃ w, w = if s.current_read_row = CCD_START_FRAME_LOAD
      then text_start e.toParams (s.clients e.client) else s.clients e.client := ⟨_, rfl⟩
  have hl' : Linked { s with toCore := s.toCore.set_client e.client w }
      { a with toCore := s.toCore.set_client e.client w } :=
    hl.set_core (show s.fresh = a.fresh from congrArg Core.fresh hl.core)
  obtain ⟨s₁, data, hrun⟩ := read_exposure_ends k m hl' hq hp (row_bytes s.geometry e.toParams)
  obtain ⟨hcl, -, -⟩ := hl'.read_exposure_bytes k m hq hrun
  have hw₁ : s₁.clients e.client = w := by
    rw [hcl]
    exact Function.update_self _ _ _
  obtain ⟨x, hx⟩ : ∃ x, x = store_row s.geometry e.toParams data (s₁.clients e.client) := ⟨_, rfl⟩
  have hz : s.geometry.sizeof_pixel < 2 ^ 32 := by
    unfold Geometry.sizeof_pixel u32
    omega
  obtain ⟨y, hy, hle, hlt⟩ := @text_pixels_ends _ (e.width / e.xbin)
    (x.out_buf_size - row_bytes s.geometry e.toParams - s.geometry.sizeof_pixel) hz x
  have hylen : 0 < y.out_buf_len := by
    have hxlen : x.out_buf_len = w.out_buf_len := by
      rw [hx, hw₁]
      rfl
    rcases hu with hstart | ⟨-, hbytes⟩
    · rw [if_pos hstart] at hw
      have := text_start_pos e.toParams (s.clients e.client)
      rw [← hw] at this
      omega
    · exact Nat.zero_lt_of_lt (hlt hbytes)
  obtain ⟨v, hv⟩ : ∃ v, v = if s₁.current_read_row = CCD_END_FRAME_LOAD then text_end y else y :=
    ⟨_, rfl⟩
  have hvlen : 0 < v.out_buf_len := by
    rw [hv]
    split
    · exact Nat.lt_of_lt_of_le hylen (by simp only [text_end, Client.emit]; omega)
    · exact hylen
  have hlen : (read_text_exposure k m i count s).map (fun r => r.2.length) =
      some (min count v.out_buf_len) := by
    unfold read_text_exposure
    rw [he]
    simp only [Option.bind_eq_bind, Option.bind_some]
    rw [← hw, hrun, Option.bind_some]
    simp only
    rw [← hx]
    rw [row_bytes] at hy ⊢
    rw [hy, Option.bind_some, ← hv, Option.map_some]
    exact congrArg some length_slice
  obtain ⟨⟨s₂, out⟩, hs₂, hout⟩ := Option.map_eq_some_iff.mp hlen
  exact ⟨s₂, out, hs₂, (lt_min hpos hvlen).trans_eq hout.symm⟩

/-- The two modes. -/
lemma read_mode_delivers {count : ℕ} (mode : Mode) (hl : Linked s a)
    (hq : a.queue = (i, p) :: rest) (hp : Rowed p.toFrame) (hu : Unread p s.toCore)
    (hpos : 0 < count) (hcount : count < 2 ^ 32) :
    ∃ s' data, read_mode k m mode i count s = some (s', data) ∧ 0 < data.length := by
  cases mode with
  | binary => exact read_binary_delivers k m hl hq hp hu hpos hcount
  | text => exact read_text_delivers k m hl hq hp hu hpos

end

/-! ## The agreement -/

/-- A poll of client `c` reports the device readable exactly if a read of `count` bytes that may
not sleep delivers some. -/
def Agrees (c : Field) (count : ℕ) (s : State) : Prop :=
  ∃ wait ready s' res, ccd_poll c s = some (wait, ready) ∧ ccd_read k m c count s = some (s', res) ∧
    (ready = true ↔ ∃ data, res = .ok data ∧ 0 < data.length)

lemma Pollable.agrees {s : State} {a : Sched} (h : Pollable a) (hl : Linked s a)
    (hreg : s.registered = true) (c : Field) {count : ℕ} (hcount : 0 < u32 count) :
    Agrees k m c count s := by
  have hpos : 0 < count := Nat.pos_of_ne_zero fun hz => by simp [hz, u32] at hcount
  have hreg' : ¬ s.registered = false := by simp [hreg]
  rcases Nat.eq_zero_or_pos (s.clients c).out_buf_len with hempty | hbuf
  · have hnot : ¬ 0 < (s.clients c).out_buf_len := by omega
    by_cases hlist : s.client_list c = none
    · refine ⟨true, false, s, .ok [], ?_, ?_, by simp⟩
      · simp [ccd_poll, head_ready, hempty, hlist]
      · simp only [Ccd.ccd_read, if_neg hreg', if_neg (Nat.pos_iff_ne_zero.mp hpos)]
        rw [if_neg hnot, if_pos hlist]
    · -- the client has an exposure, so the device has a first one
      cases hq : a.queue with
      | nil =>
        have hchain := hl.clients c
        cases ho : a.owned c with
        | nil =>
          rw [ho] at hchain
          exact absurd hchain hlist
        | cons j L =>
          have hmem := hl.mem_ids_of_owned (c := c) (i := j) (ho ▸ List.mem_cons_self)
          rw [Sched.ids, hq] at hmem
          cases hmem
      | cons x rest =>
        obtain ⟨i, p⟩ := x
        obtain ⟨e, he, rfl, hel, -⟩ := hl.head_cell hq
        have hhead : head_ready c s = some (decide (e.client = c ∧ e.complete ≠ 0)) := by
          rw [head_ready, if_neg hlist]
          simp only [hel, he, Option.bind_eq_bind, Option.bind_some]
        by_cases hready : e.client = c ∧ e.complete ≠ 0
        · rw [decide_eq_true hready] at hhead
          obtain ⟨rfl, hc⟩ := hready
          obtain ⟨hc, hu⟩ := (h.head i _ rest hq).resolve_left hc
          rw [← hl.core] at hu
          obtain ⟨s', data, hrun, hdata⟩ := read_mode_delivers k m (s.clients e.client).mode hl hq
            (h.rowed (i, e.toParams) (hq ▸ List.mem_cons_self)) hu hcount
            (Nat.mod_lt _ (by norm_num))
          refine ⟨false, true, s', .ok data, ?_, ?_, by simpa using hdata⟩
          · rw [ccd_poll, if_pos hempty, hhead]
            rfl
          · have hread := ccd_read_ready k m hl hq hc hreg hempty hpos
            rw [hread, hrun, Option.bind_some]
        · refine ⟨true, false, s, .error .EAGAIN, ?_, ?_, by simp⟩
          · rw [ccd_poll, if_pos hempty, hhead, decide_eq_false hready]
            rfl
          · have hsleep : e.client ≠ c ∨ e.complete = 0 := by
              by_contra hno
              rw [not_or, not_not] at hno
              exact hready hno
            simp only [Ccd.ccd_read, if_neg hreg', if_neg (Nat.pos_iff_ne_zero.mp hpos)]
            rw [if_neg hnot, if_neg hlist]
            simp only [hel, he, Option.bind_eq_bind, Option.bind_some]
            rw [if_pos hsleep]
  · have hread := ccd_read_buffered k m (c := c) hreg hpos hbuf rfl
    refine ⟨false, true, _, _, ?_, hread, ?_⟩
    · rw [ccd_poll, if_neg (Nat.pos_iff_ne_zero.mp hbuf)]
    · simp only [Except.ok.injEq, exists_eq_left', true_iff]
      show 0 < (slice _ 0 (min count (s.clients c).out_buf_len)).length
      rw [length_slice]
      exact lt_min hpos hbuf

/-- In every run of exposures that have a row of pixels, none of which is put in front of one that
is complete, poll and read agree for every client of a registered device.  The driver keeps the
count as an `unsigned int`; the kernel passes it no larger one. -/
theorem poll_agrees_with_read {jiffies : ℕ} {s : State} (h : Runs k m (PollOk k) jiffies s)
    (hreg : s.registered = true) (c : Field) {count : ℕ} (hcount : 0 < u32 count) :
    Agrees k m c count s := by
  have hinv : Represents s s.view ∧ Pollable s.view := by
    refine Reach.induction_on (P := fun s => Represents s s.view ∧ Pollable s.view) ?_ ?_ h
    · have hinit := Represents.init jiffies
      rw [hinit.toLinked.view_eq]
      exact ⟨hinit, .of_nil rfl⟩
    · rintro s e s' ⟨hrep, hpoll⟩ hok hs
      obtain ⟨b, -, hb⟩ := step_refines k m hrep hs
      refine ⟨?_, hpoll.step k m hrep hok hs⟩
      rw [hb.toLinked.view_eq]
      exact hb
  exact hinv.2.agrees k m hinv.1.toLinked hreg c hcount

/-- A frame has been latched for a client. -/
theorem poll_agrees_with_read_one_frame :
    ∃ s, replay (step .hz100 .black) (State.init 0) [.register .small, .open_ 1 .binary false,
        .new_exposure 1 (whole_frame 0 100), .expire] = some s ∧ s.registered = true ∧
      0 < u32 1 ∧ Agrees .hz100 .black 1 1 s := by
  obtain ⟨s, hs, hreg⟩ : ∃ s, replay (step .hz100 .black) (State.init 0)
      [.register .small, .open_ 1 .binary false, .new_exposure 1 (whole_frame 0 100),
        .expire] = some s ∧ s.registered = true := ⟨_, rfl, rfl⟩
  suffices hruns : Runs .hz100 .black (PollOk .hz100) 0 s from
    ⟨s, hs, hreg, by decide, poll_agrees_with_read .hz100 .black hruns hreg 1 (by decide)⟩
  cases hs
  refine .step (e := .expire) (.step (e := .new_exposure 1 (whole_frame 0 100))
    (.step (e := .open_ 1 .binary false) (.step (e := .register .small) .init trivial rfl)
    trivial rfl) ?_ rfl) trivial rfl
  intro _
  refine ⟨by decide, fun j h hq => ?_⟩
  cases hq

/-- The exposures of the run have binned sizes of at least one. -/
def binned (s : State) : Event → Bool
  | .new_exposure c msg =>
    decide (1 ≤ (request s.geometry c msg).width / (request s.geometry c msg).xbin ∧
      1 ≤ (request s.geometry c msg).height / (request s.geometry c msg).ybin)
  | _ => true

/-- The odd client asks for a frame of one second, and when that is complete the even one for a
frame of two seconds, which the counter of the ticks does not outlast.  That frame goes in front and
is read. -/
def behind_run : List Event :=
  [.register .small, .open_ 1 .binary false, .open_ 2 .binary false,
    .new_exposure 1 (whole_frame 8 1000), .tick 100, .expire, .tick 10,
    .new_exposure 2 (whole_frame 8 2000), .tick 200, .expire, .read 2 12]

/-- The device is reported readable then, and a read delivers nothing. -/
theorem poll_without_bytes :
    ¬ ∀ (k : Kernel) (m : Mini) (jiffies : ℕ) (s : State) (c : Field) (count : ℕ),
      Runs k m (fun s e => binned s e = true) jiffies s → s.registered = true → 0 < u32 count →
      Agrees k m c count s := by
  intro h
  have hfound : (replay (fun s e => if binned s e then step .hz100 .black s e else none)
      (State.init (2 ^ 32 - 300)) behind_run).map (fun s => (s.registered, ccd_poll 1 s,
        (ccd_read .hz100 .black 1 12 s).map fun r => r.2.toOption)) =
      some (true, some (false, true), some (some [])) := by decide +kernel
  obtain ⟨s, hs, hfound⟩ := Option.map_eq_some_iff.mp hfound
  simp only [Prod.mk.injEq] at hfound
  obtain ⟨hreg, hpoll, hread⟩ := hfound
  have hreach : Runs .hz100 .black (fun s e => binned s e = true) (2 ^ 32 - 300) s :=
    Reach.of_checked (fun _ _ hc => hc) .init hs
  obtain ⟨wait, ready, s', res, hpoll', hread', hiff⟩ :=
    h .hz100 .black (2 ^ 32 - 300) s 1 12 hreach hreg (by decide)
  rw [hpoll] at hpoll'
  cases hpoll'
  rw [hread', Option.map_some, Option.some.injEq] at hread
  obtain ⟨data, rfl, hdata⟩ := hiff.mp rfl
  cases hread
  cases hdata

end EspLinux.Ccd
