import EspLinux.Ccd.Lists

/-!
# The exposure timer

While the exposure timer is armed, `dev->exposure` should be the first exposure of the
device list, and allocated.  The invariant that carries this is `TimerInv`: an armed timer
is about the first exposure of the queue, which is not complete yet, and the exposures
behind it are not complete either.

The driver breaks it in three places.  `abort_exposures` marks the client's newest exposure
with `complete = -1` before `del_exposure` looks at `complete` to decide whether to kill
the timer; `ccd_unregister_device` never kills it; and an exposure can be put in front of
one that is complete already, which is then started a second time.  `TimerOk` excludes
exactly these.
-/

namespace EspLinux.Ccd

open EspLinux.Lib

variable (k : Kernel) (m : Mini)

/-- An armed timer is about the first exposure, and no exposure behind it is complete. -/
structure TimerInv (a : Sched) : Prop where
  armed : a.exposure_timer ≠ none →
    ∃ i p rest, a.queue = (i, p) :: rest ∧ a.exposure = some i ∧ p.complete = 0
  waiting : ∀ x ∈ a.queue.tail, x.2.complete = 0

namespace TimerInv

variable {a : Sched} {i : ℕ} {p : Params} {rest : List (ℕ × Params)}

lemma of_quiet {y : Core} (h : TimerInv a) (hy : Quiet a.toCore y) :
    TimerInv { a with toCore := y } := by
  refine ⟨fun ht => ?_, h.waiting⟩
  rw [hy.timer] at ht
  obtain ⟨i, p, rest, hq, he, hp⟩ := h.armed ht
  exact ⟨i, p, rest, hq, hy.exposure.trans he, hp⟩

/-- With the timer off only the exposures behind the first matter. -/
lemma of_unarmed (ht : a.exposure_timer = none) (hw : ∀ x ∈ a.queue.tail, x.2.complete = 0) :
    TimerInv a :=
  ⟨fun h => absurd ht h, hw⟩

/-- Once the first exposure is complete the timer is off. -/
lemma timer_of_complete (h : TimerInv a) (hq : a.queue = (i, p) :: rest)
    (hp : p.complete ≠ 0) : a.exposure_timer = none := by
  by_contra ht
  obtain ⟨j, q, rest', hq', -, hq0⟩ := h.armed ht
  rw [hq] at hq'
  cases hq'
  exact hp hq0

end TimerInv

/-- Giving exposures new times does not complete them. -/
lemma retime_complete {t : ℕ} {l : List (ℕ × Params)} (h : ∀ x ∈ l, x.2.complete = 0) :
    ∀ x ∈ retime k t l, x.2.complete = 0 := by
  have hmap := map_retime k (fun x => x.2.complete) (fun _ _ _ => rfl) t l
  intro x hx
  have hmem : x.2.complete ∈ (retime k t l).map fun x => x.2.complete :=
    List.mem_map_of_mem hx
  rw [hmap] at hmem
  obtain ⟨y, hy, heq⟩ := List.mem_map.mp hmem
  rw [← heq]
  exact h y hy

/-- Taking an exposure out of the queue keeps the first one and completes none. -/
lemma unlink_complete {i : ℕ} {x : ℕ × Params} {l : List (ℕ × Params)} (hx : x.1 ≠ i)
    (hnd : (l.map Prod.fst).Nodup) (h : ∀ y ∈ l, y.1 ≠ i → y.2.complete = 0) :
    ∃ l', unlink k i (x :: l) = x :: l' ∧ ∀ y ∈ l', y.2.complete = 0 := by
  obtain ⟨l', hl'⟩ : ∃ l', unlink k i (x :: l) = x :: l' := by
    cases l with
    | nil => exact ⟨[], rfl⟩
    | cons y l =>
      rw [unlink]
      split
      · exact ⟨_, rfl⟩
      · exact ⟨_, rfl⟩
  refine ⟨l', hl', fun y hy => ?_⟩
  have hmap := map_unlink k (fun x => x.2.complete) (fun _ _ _ => rfl) hx hnd
  rw [hl', List.filter_cons_of_pos (by simpa using hx), List.map_cons, List.map_cons,
    List.cons.injEq] at hmap
  have hmem : y.2.complete ∈ l'.map fun x => x.2.complete := List.mem_map_of_mem hy
  rw [hmap.2] at hmem
  obtain ⟨z, hz, heq⟩ := List.mem_map.mp hmem
  rw [List.mem_filter] at hz
  rw [← heq]
  exact h z hz.1 (by simpa using hz.2)

/-! ## The operations keep the invariant -/

namespace TimerInv

variable {a : Sched} {i : ℕ} {p : Params} {rest : List (ℕ × Params)}

lemma start (hp : p.complete = 0) (hr : ∀ x ∈ rest, x.2.complete = 0) :
    TimerInv (a.start k i p rest) :=
  ⟨fun _ => ⟨i, _, rest, rfl, rfl, hp⟩, hr⟩

lemma finish (ht : a.exposure_timer = none) (hw : ∀ x ∈ a.queue.tail, x.2.complete = 0) :
    TimerInv (a.finish i) := by
  unfold Sched.finish
  split
  · exact of_unarmed ht hw
  · rename_i j q rest hq
    rw [hq] at hw
    split
    · exact of_unarmed ht hw
    · refine of_unarmed ht ?_
      rw [hq]
      exact hw

/-- When the first exposure has left, the timer is off or is set again for the next. -/
lemma advance (hr : ∀ x ∈ rest, x.2.complete = 0)
    (ht : a.exposure_timer = none ∨ ∃ j q rest', rest = (j, q) :: rest' ∧
      (p.end_ ≤ q.begin_ ∨ a.jiffies % 2 ^ k.longBits < q.end_)) :
    TimerInv (a.advance k p rest) := by
  cases rest with
  | nil =>
    rcases ht with ht | ⟨j, q, rest', hnil, -⟩
    · exact of_unarmed ht (by simp [Sched.advance])
    · cases hnil
  | cons x rest =>
    obtain ⟨j, q⟩ := x
    have hq : q.complete = 0 := hr (j, q) List.mem_cons_self
    have hrest : ∀ x ∈ rest, x.2.complete = 0 := fun x hx => hr x (List.mem_cons_of_mem _ hx)
    simp only [Sched.advance]
    split
    · exact start k hq (retime_complete k hrest)
    · rename_i hbegin
      split
      · rename_i hend
        refine finish ?_ hrest
        rcases ht with ht | ⟨j', q', rest', hcons, hor⟩
        · exact ht
        · cases hcons
          omega
      · exact ⟨fun _ => ⟨j, q, rest, rfl, rfl, hq⟩, hrest⟩

lemma del (h : TimerInv a) (hnd : a.ids.Nodup) (i : ℕ) : TimerInv (a.del k i) := by
  cases hq : a.queue with
  | nil =>
    have hd : a.del k i = a := by simp [Sched.del, hq]
    rw [hd]
    exact h
  | cons x rest =>
    obtain ⟨j, p⟩ := x
    have hw := h.waiting
    rw [hq, List.tail_cons] at hw
    by_cases hji : j = i
    · subst hji
      rw [Sched.del_head k hq]
      refine advance k hw (.inl ?_)
      by_cases hp : p.complete = 0
      · rw [if_pos hp]
        rfl
      · rw [if_neg hp]
        exact h.timer_of_complete hq hp
    · rw [Sched.ids, hq, List.map_cons, List.nodup_cons] at hnd
      obtain ⟨l', hl', hc'⟩ := unlink_complete k (x := (j, p)) hji hnd.2 fun y hy _ => hw y hy
      rw [Sched.del_inner k hq hji, hq, hl']
      refine ⟨fun ht => ?_, hc'⟩
      obtain ⟨i', p', rest', hq', he, hp⟩ := h.armed ht
      rw [hq] at hq'
      cases hq'
      exact ⟨j, p, l', rfl, he, hp⟩

end TimerInv

lemma Sched.del_ids_nodup {a : Sched} (hnd : a.ids.Nodup) (i : ℕ) : (a.del k i).ids.Nodup := by
  rw [← Sched.tags_ids, Sched.del_tags k hnd]
  refine List.Nodup.sublist (List.Sublist.map _ List.filter_sublist) ?_
  rw [Sched.tags_ids]
  exact hnd

lemma TimerInv.drop {a : Sched} (h : TimerInv a) (hnd : a.ids.Nodup) (c : Field)
    (l : List ℕ) : TimerInv (a.drop k c l) := by
  induction l generalizing a with
  | nil => exact h
  | cons i l ih =>
    have hdel := h.del k hnd i
    exact ih ⟨hdel.armed, hdel.waiting⟩ (Sched.del_ids_nodup k hnd i)

/-! ## Aborting -/

/-- If client `c` aborts while the timer is armed for its newest exposure, the next exposure
of the queue sets the timer again. -/
def AbortOk (c : Field) (a : Sched) : Prop :=
  ∀ i l p rest, a.owned c = i :: l → a.queue = (i, p) :: rest → p.complete = 0 →
    a.exposure_timer ≠ none → ∃ j q rest', rest = (j, q) :: rest' ∧
      (p.end_ ≤ q.begin_ ∨ a.jiffies % 2 ^ k.longBits < q.end_)

lemma Sched.markAborted_of_notMem {i : ℕ} {q : List (ℕ × Params)} (h : i ∉ q.map Prod.fst) :
    Sched.markAborted i q = q := by
  rw [Sched.markAborted]
  refine (List.map_congr_left fun x hx => ?_).trans (List.map_id q)
  have hxi : x.1 ≠ i := by
    rintro rfl
    exact h (List.mem_map_of_mem hx)
  simp [hxi]

/-- Stopping a download neither starts nor latches a frame. -/
lemma Sched.stopRead_quiet (i : ℕ) (a : Sched) : Quiet a.toCore (a.stopRead i) := by
  unfold Sched.stopRead
  split
  · exact .refl _
  · split
    · split
      · refine Quiet.trans ?_ (.set_row _ _)
        exact (Quiet.call rfl _).trans (.call rfl _)
      · exact .set_row _ _
    · exact .refl _

/-- The newest exposure of the client is marked and deleted. -/
lemma TimerInv.del_mark {a : Sched} {c : Field} {i : ℕ} {l : List ℕ} (h : TimerInv a)
    (hnd : a.ids.Nodup) (ho : a.owned c = i :: l) (hok : AbortOk k c a) :
    TimerInv ((a.mark c).del k i) := by
  have hmark : a.mark c = { a with
      toCore := a.stopRead i
      queue := Sched.markAborted i a.queue } := by
    rw [Sched.mark, ho]
  have hquiet := Sched.stopRead_quiet i a
  cases hq : a.queue with
  | nil =>
    have hd : (a.mark c).del k i = a.mark c := by
      simp [Sched.del, hmark, hq, Sched.markAborted]
    rw [hd, hmark, hq]
    refine of_unarmed ?_ (by simp [Sched.markAborted])
    by_contra ht
    rw [hquiet.timer] at ht
    obtain ⟨i, p, rest, hq', -⟩ := h.armed ht
    rw [hq] at hq'
    cases hq'
  | cons x rest =>
    obtain ⟨j, p⟩ := x
    have hw := h.waiting
    rw [hq, List.tail_cons] at hw
    rw [Sched.ids, hq, List.map_cons, List.nodup_cons] at hnd
    by_cases hji : j = i
    · subst hji
      -- the mark makes `del_exposure` leave the timer alone
      obtain ⟨p', hq', hend, hp'⟩ : ∃ p', (a.mark c).queue = (j, p') :: rest ∧
          p'.end_ = p.end_ ∧ p'.complete ≠ 0 := by
        rw [hmark, hq]
        show ∃ p', Sched.markAborted j ((j, p) :: rest) = _ ∧ _
        rw [Sched.markAborted, List.map_cons]
        have hrest := Sched.markAborted_of_notMem hnd.1
        rw [Sched.markAborted] at hrest
        rw [hrest]
        by_cases hp : p.complete = 0
        · exact ⟨{ p with complete := -1 }, by simp [hp], rfl, by simp⟩
        · exact ⟨p, by simp [hp], rfl, hp⟩
      rw [Sched.del_head k hq', if_neg hp']
      refine advance k hw ?_
      have htimer : (a.mark c).exposure_timer = a.exposure_timer := by
        rw [hmark]
        exact hquiet.timer
      have hjif : (a.mark c).jiffies = a.jiffies :=
        congrArg (fun x => x.2.2.2.1) (Sched.mark_static c a)
      by_cases ht : a.exposure_timer = none
      · exact .inl (htimer.trans ht)
      · have hp : p.complete = 0 := by
          obtain ⟨i', q', rest', hq₂, -, hp⟩ := h.armed ht
          rw [hq] at hq₂
          cases hq₂
          exact hp
        obtain ⟨j', q', rest', hrest, hor⟩ := hok j l p rest ho hq hp ht
        refine .inr ⟨j', q', rest', hrest, ?_⟩
        rw [hend, hjif]
        exact hor
    · have hq' : (a.mark c).queue = (j, p) :: Sched.markAborted i rest := by
        rw [hmark, hq]
        simp [Sched.markAborted, hji]
      have hnd' : ((Sched.markAborted i rest).map Prod.fst).Nodup := by
        rw [Sched.markAborted_map _ fun _ _ _ => rfl]
        exact hnd.2
      obtain ⟨l', hl', hc'⟩ := unlink_complete k (x := (j, p)) hji hnd' fun y hy hyi => by
        obtain ⟨z, hz, rfl⟩ := List.mem_map.mp hy
        by_cases hzi : z.1 = i
        · simp only [hzi, true_and] at hyi
          split at hyi
          · exact absurd rfl hyi
          · exact absurd hzi hyi
        · simp only [hzi, false_and, if_false]
          exact hw z hz
      rw [Sched.del_inner k hq' hji, hq', hl']
      refine ⟨fun ht => ?_, hc'⟩
      have ht' : a.exposure_timer ≠ none := by
        rw [← hquiet.timer]
        rw [hmark] at ht
        exact ht
      obtain ⟨i', p', rest', hq₂, he, hp⟩ := h.armed ht'
      rw [hq] at hq₂
      cases hq₂
      refine ⟨j, p, l', rfl, ?_, hp⟩
      rw [hmark]
      exact hquiet.exposure.trans he

lemma Sched.mark_ids (c : Field) (a : Sched) : (a.mark c).ids = a.ids := by
  unfold Sched.mark
  split
  · rfl
  · exact Sched.markAborted_map _ (fun _ _ _ => rfl) _ _

lemma TimerInv.abort {a : Sched} {c : Field} (h : TimerInv a) (hnd : a.ids.Nodup)
    (hok : AbortOk k c a) : TimerInv (a.abort k c) := by
  unfold Sched.abort
  refine of_quiet (a := Sched.drop k c (a.owned c) (a.mark c)) ?_ (.set_client c _ _)
  cases ho : a.owned c with
  | nil =>
    have hmark : a.mark c = a := by rw [Sched.mark, ho]
    rw [hmark]
    exact h
  | cons i l =>
    have hdel := h.del_mark k hnd ho hok
    have hnd' : ((a.mark c).del k i).ids.Nodup := by
      refine Sched.del_ids_nodup k ?_ i
      rw [Sched.mark_ids]
      exact hnd
    exact TimerInv.drop k (a := ((a.mark c).del k i).pop c) ⟨hdel.armed, hdel.waiting⟩ hnd' c l

/-! ## New exposures -/

/-- The new exposure is not put in front of a complete one. -/
def NewOk (c : Field) (msg : Msg) (a : Sched) : Prop :=
  ∀ j h, a.queue = [(j, h)] → (request a.geometry c msg).overlaps h →
    ((request a.geometry c msg).after k (u32 a.jiffies)).end_ < h.end_ → h.complete = 0

lemma TimerInv.new {a : Sched} {c : Field} {msg : Msg} (h : TimerInv a)
    (hok : NewOk k c msg a) : TimerInv (a.new k c msg) := by
  have hsnoc {j : ℕ} {g : Params} {rest : List (ℕ × Params)} {p : Params} {y : Core}
      (hq : a.queue = (j, g) :: rest) (hp : p.complete = 0) (ht : y.exposure_timer = a.exposure_timer)
      (he : y.exposure = a.exposure) (o : Field → List ℕ) :
      TimerInv { toCore := y, queue := a.queue ++ [(a.fresh, p)], owned := o } := by
    have hw := h.waiting
    rw [hq, List.tail_cons] at hw
    refine ⟨fun hne => ?_, ?_⟩
    · obtain ⟨i, q, rest', hq', hexp, hq0⟩ := h.armed (ht ▸ hne)
      exact ⟨i, q, rest' ++ [(a.fresh, p)], by simp [hq'], he.trans hexp, hq0⟩
    · simp only [hq, List.cons_append, List.tail_cons, List.mem_append, List.mem_singleton]
      rintro x (hx | rfl)
      · exact hw x hx
      · exact hp
  rcases Sched.new_cases k a c msg rfl with ⟨-, hn⟩ | ⟨j, g, hq, hov, hlt, hn⟩ |
    ⟨j, g, hq, -, -, hn⟩ | ⟨j, g, rest, hq, -, hn⟩
  · rw [hn]
    exact start k rfl (by simp)
  · rw [hn, hq]
    refine ⟨fun _ => ⟨_, _, _, rfl, rfl, rfl⟩, ?_⟩
    simp only [List.tail_cons, List.mem_singleton]
    rintro x rfl
    exact hok j g hq hov hlt
  · rw [hn]
    exact hsnoc hq (by rfl) (by rfl) (by rfl) _
  · rw [hn]
    exact hsnoc hq (by rfl) (by rfl) (by rfl) _

/-! ## Runs -/

/-- The steps that keep the timer with the first exposure. -/
def TimerOk (s : State) : Event → Prop
  | .abort c => s.ready c → AbortOk k c s.view
  | .close c => (s.clients c).opened → AbortOk k c s.view
  | .unregister => s.registered → s.exposure_timer = none
  | .new_exposure c msg => s.ready c → NewOk k c msg s.view
  | _ => True

/-- A step that meets `TimerOk` keeps the invariant. -/
lemma TimerInv.step {s : State} {a b : Sched} {e : Event} (h : TimerInv a)
    (hrep : Represents s a) (hok : TimerOk k s e) (hs : Sched.Step k a e b) : TimerInv b := by
  have hview := hrep.toLinked.view_eq
  have hcore := hrep.core
  have hnd := hrep.chain.nodup
  cases hs with
  | quiet hy => exact h.of_quiet hy
  | new hready =>
    refine h.new k ?_
    rw [← hview]
    exact hok (hcore ▸ hready)
  | abort hready =>
    refine h.abort k hnd ?_
    rw [← hview]
    exact hok (hcore ▸ hready)
  | close hopen =>
    refine TimerInv.of_quiet (h.abort k hnd ?_) (Represents.close_quiet _ _).1
    rw [← hview]
    exact hok (hcore ▸ hopen)
  | unregister hreg =>
    refine of_unarmed ?_ (by simp)
    have ht : a.exposure_timer = none := by
      rw [← congrArg Core.exposure_timer hcore]
      exact hok (hcore ▸ hreg)
    unfold Core.unregister
    split <;> exact ht
  | expire =>
    rcases a.expire_cases with ⟨-, hx⟩ | ⟨-, hx⟩ | ⟨i, -, -, hx⟩
    · rw [hx]
      exact h
    · rw [hx]
      exact of_unarmed rfl h.waiting
    · rw [hx]
      exact finish rfl h.waiting
  | @endFrame _ i p rest y z hread hq hp hy htime hz =>
    refine TimerInv.of_quiet (a := Sched.endFrame k i p { a with toCore := y }) ?_ hz
    have hend : Quiet y ((y.call (.end_read p.flags)).set_row CCD_END_FRAME_LOAD) :=
      (Quiet.call rfl y).trans (.set_row _ _)
    have hdel := (h.of_quiet (hy.trans hend)).del k hnd i
    exact ⟨hdel.armed, hdel.waiting⟩

/-- In every run that keeps clear of the three defects, an armed timer is about the first
exposure of the device list, which is allocated, and an expiry accesses no freed exposure. -/
theorem timer_live_head {jiffies : ℕ} {s : State} (h : Runs k m (TimerOk k) jiffies s) :
    (s.exposure_timer ≠ none →
      ∃ i, s.exposure = some i ∧ s.exposure_list = some i ∧ (s.heap i).isSome) ∧
    ∀ s', complete_exposure s = some s' → s'.fault = s.fault := by
  have hinv : ∃ a, Represents s a ∧ TimerInv a := by
    refine Reach.induction_on (P := fun s => ∃ a, Represents s a ∧ TimerInv a)
      ⟨_, .init jiffies, .of_unarmed rfl (by simp)⟩ ?_ h
    rintro s e s' ⟨a, ha, hi⟩ hok hs
    obtain ⟨b, hb, hb'⟩ := step_refines k m ha hs
    exact ⟨b, hb', hi.step k ha hok hb⟩
  obtain ⟨a, ha, hi⟩ := hinv
  have harmed : s.exposure_timer ≠ none →
      ∃ i, s.exposure = some i ∧ s.exposure_list = some i ∧ (s.heap i).isSome := by
    intro ht
    rw [ha.core] at ht
    obtain ⟨i, p, rest, hq, he, -⟩ := hi.armed ht
    obtain ⟨e, hcell, -, hel, -⟩ := ha.toLinked.head_cell hq
    exact ⟨i, (congrArg Core.exposure ha.core).trans he, hel, by rw [hcell]; rfl⟩
  refine ⟨harmed, fun s' hs' => ?_⟩
  unfold complete_exposure at hs'
  split at hs'
  · cases hs'
    rfl
  · rename_i ht
    obtain ⟨i, hexp, -, hsome⟩ := harmed ht
    rw [hexp] at hs'
    simp only [if_neg (Option.isSome_iff_ne_none.mp hsome)] at hs'
    obtain ⟨e, he⟩ := Option.isSome_iff_exists.mp hsome
    simp only [finish_exposure, he, Option.bind_eq_bind, Option.bind_some] at hs'
    split at hs' <;> cases hs' <;> rfl

/-- Two requests wait in the queue while the timer runs for the first. -/
theorem timer_live_head_two_requests :
    ∃ s, replay (step .hz100 .black) (State.init 0)
        [.register .small, .open_ 0 .binary false, .new_exposure 0 (whole_frame 0 100),
          .new_exposure 0 (whole_frame 0 100)] = some s ∧ s.exposure_timer ≠ none ∧
      (s.exposure_timer ≠ none →
        ∃ i, s.exposure = some i ∧ s.exposure_list = some i ∧ (s.heap i).isSome) ∧
      ∀ s', complete_exposure s = some s' → s'.fault = s.fault := by
  refine ⟨_, rfl, by decide, ?_⟩
  refine timer_live_head .hz100 .black (show Runs _ _ _ 0 _ from ?_)
  refine .step (e := .new_exposure 0 (whole_frame 0 100)) (.step
    (e := .new_exposure 0 (whole_frame 0 100)) (.step (e := .open_ 0 .binary false)
    (.step (e := .register .small) .init trivial rfl) trivial rfl) ?_ rfl) ?_ rfl
  · intro _ j h hq
    cases hq
  · intro _ j h _ hov
    exact absurd hov.1 (by decide)

/-- A client asks for an exposure and aborts it: the exposure is freed, and the timer stays
armed for it. -/
theorem timer_armed_after_abort :
    ∃ s i, replay (step .hz100 .black) (State.init 0)
        [.register .small, .open_ 0 .binary false, .new_exposure 0 (whole_frame 0 100),
          .abort 0] = some s ∧
      s.exposure_timer ≠ none ∧ s.exposure = some i ∧ s.exposure_list = none ∧
      s.heap i = none ∧ ∃ s', complete_exposure s = some s' ∧ s.fault = false ∧
        s'.fault = true := by
  refine ⟨_, 0, rfl, ?_, ?_, ?_, ?_, _, rfl, ?_, ?_⟩ <;> decide

end EspLinux.Ccd
