import EspLinux.Ccd.Timer

/-!
# Started and latched exposures

An exposure that is latched should have been started exactly once before.  Whether the next
exposure of the queue runs already is not recorded anywhere: `del_exposure` infers it from
the times, taking an exposure that begins before its predecessor ends for a running one.
`Ordered` is the invariant under which the inference is right.

It is not always right.  An exposure that is put in front of the running one is never
started; one that is put beside the running one when that is over is started twice; and an
exposure that is started late ends after the planned beginning of the next, which then
passes for a running one.  `LatchOk` excludes these.
-/

namespace EspLinux.Ccd

open EspLinux.Lib

variable (k : Kernel) (m : Mini)

/-! ## The log -/

/-- How often exposure `i` was started. -/
def started (l : List Call) (i : ℕ) : ℕ :=
  l.countP fun
    | .new_frame j _ => j = i
    | _ => false

/-- How often exposure `i` was latched. -/
def latched (l : List Call) (i : ℕ) : ℕ :=
  l.countP fun
    | .latch_frame j _ => j = i
    | _ => false

/-- At every latch the exposure was started exactly once before and not yet latched. -/
def Latched (l : List Call) : Prop :=
  ∀ pre post i flags, l = pre ++ .latch_frame i flags :: post →
    started pre i = 1 ∧ latched pre i = 0

lemma started_append (l l' : List Call) (i : ℕ) :
    started (l ++ l') i = started l i + started l' i := List.countP_append

lemma latched_append (l l' : List Call) (i : ℕ) :
    latched (l ++ l') i = latched l i + latched l' i := List.countP_append

/-- Calls that are not about frames change no count. -/
lemma started_quiet {l : List Call} (h : ∀ w ∈ l, w.isFrame = false) (i : ℕ) :
    started l i = 0 ∧ latched l i = 0 := by
  constructor
  · refine List.countP_eq_zero.mpr fun w hw => ?_
    have := h w hw
    cases w <;> simp_all [Call.isFrame]
  · refine List.countP_eq_zero.mpr fun w hw => ?_
    have := h w hw
    cases w <;> simp_all [Call.isFrame]

/-- Calls other than latches can be made at any time. -/
lemma Latched.append {l l' : List Call} (h : Latched l)
    (h' : ∀ i flags, .latch_frame i flags ∉ l') : Latched (l ++ l') := by
  intro pre post i flags heq
  rcases List.append_eq_append_iff.mp heq with ⟨u, rfl, hu⟩ | ⟨u, hu, hpost⟩
  · exact absurd (hu ▸ by simp) (h' i flags)
  · cases u with
    | nil =>
      rw [List.nil_append] at hpost
      exact absurd (hpost ▸ by simp) (h' i flags)
    | cons w u =>
      simp only [List.cons_append, List.cons.injEq] at hpost
      rw [← hpost.1] at hu
      exact h pre u i flags hu

/-- A latch of an exposure that was started once and not latched yet. -/
lemma Latched.latch {l : List Call} {i flags : ℕ} (h : Latched l) (hs : started l i = 1)
    (hl : latched l i = 0) : Latched (l ++ [.latch_frame i flags]) := by
  intro pre post j flags' heq
  rcases List.append_eq_append_iff.mp heq with ⟨u, rfl, hu⟩ | ⟨u, hu, hpost⟩
  · cases u with
    | nil =>
      simp only [List.nil_append, List.cons.injEq, Call.latch_frame.injEq] at hu
      obtain ⟨⟨rfl, -⟩, -⟩ := hu
      rw [List.append_nil]
      exact ⟨hs, hl⟩
    | cons w u => simp at hu
  · cases u with
    | nil =>
      simp only [List.nil_append, List.cons.injEq, Call.latch_frame.injEq] at hpost
      obtain ⟨⟨rfl, -⟩, -⟩ := hpost
      rw [List.append_nil] at hu
      rw [← hu]
      exact ⟨hs, hl⟩
    | cons w u =>
      simp only [List.cons_append, List.cons.injEq] at hpost
      rw [← hpost.1] at hu
      exact h pre u j flags' hu

lemma started_new (l : List Call) (i j : ℕ) (f : Frame) :
    started (l ++ [.new_frame j f]) i = started l i + (if j = i then 1 else 0) ∧
      latched (l ++ [.new_frame j f]) i = latched l i := by
  rw [started_append, latched_append]
  by_cases hji : j = i <;> simp [started, latched, hji]

lemma started_latch (l : List Call) (i j flags : ℕ) :
    started (l ++ [.latch_frame j flags]) i = started l i ∧
      latched (l ++ [.latch_frame j flags]) i = latched l i + (if j = i then 1 else 0) := by
  rw [started_append, latched_append]
  by_cases hji : j = i <;> simp [started, latched, hji]

/-! ## The queue -/

/-- Exposures that wait for the end `t` of their predecessor: none was started, and each
begins when the one in front of it is over. -/
def Waiting (l : List Call) : ℕ → List (ℕ × Params) → Prop
  | _, [] => True
  | t, (j, q) :: rest =>
    t ≤ q.begin_ ∧ started l j = 0 ∧ latched l j = 0 ∧ q.complete = 0 ∧ Waiting l q.end_ rest

/-- The exposures behind the first one, `p`: the second was started exactly when it begins
before `p` ends. -/
def Behind (l : List Call) (p : Params) : List (ℕ × Params) → Prop
  | [] => True
  | (j, q) :: rest =>
    started l j = (if q.begin_ < p.end_ then 1 else 0) ∧ latched l j = 0 ∧ q.complete = 0 ∧
      Waiting l q.end_ rest

/-- The first exposure was started once, and latched only if it is complete. -/
def Ordered (l : List Call) : List (ℕ × Params) → Prop
  | [] => True
  | (i, p) :: rest =>
    started l i = 1 ∧ (p.complete = 0 → latched l i = 0) ∧ Behind l p rest

section Congr

variable {l l' : List Call} {t : ℕ} {p : Params} {rest : List (ℕ × Params)}

lemma Waiting.congr (h : Waiting l t rest)
    (heq : ∀ i ∈ rest.map Prod.fst, started l' i = started l i ∧ latched l' i = latched l i) :
    Waiting l' t rest := by
  induction rest generalizing t with
  | nil => trivial
  | cons x rest ih =>
    obtain ⟨hj, hl⟩ := heq x.1 List.mem_cons_self
    refine ⟨h.1, hj.trans h.2.1, hl.trans h.2.2.1, h.2.2.2.1, ih h.2.2.2.2 ?_⟩
    exact fun i hi => heq i (List.mem_cons_of_mem _ hi)

lemma Behind.congr (h : Behind l p rest)
    (heq : ∀ i ∈ rest.map Prod.fst, started l' i = started l i ∧ latched l' i = latched l i) :
    Behind l' p rest := by
  cases rest with
  | nil => trivial
  | cons x rest =>
    obtain ⟨hj, hl⟩ := heq x.1 List.mem_cons_self
    refine ⟨hj.trans h.1, hl.trans h.2.1, h.2.2.1, h.2.2.2.congr ?_⟩
    exact fun i hi => heq i (List.mem_cons_of_mem _ hi)

lemma Ordered.congr {q : List (ℕ × Params)} (h : Ordered l q)
    (heq : ∀ i ∈ q.map Prod.fst, started l' i = started l i ∧ latched l' i = latched l i) :
    Ordered l' q := by
  cases q with
  | nil => trivial
  | cons x rest =>
    obtain ⟨hj, hl⟩ := heq x.1 List.mem_cons_self
    refine ⟨hj.trans h.1, fun hc => hl.trans (h.2.1 hc), h.2.2.congr ?_⟩
    exact fun i hi => heq i (List.mem_cons_of_mem _ hi)

/-- An exposure that waits for the first one is an exposure behind it. -/
lemma Waiting.behind (h : Waiting l p.end_ rest) : Behind l p rest := by
  cases rest with
  | nil => trivial
  | cons x rest =>
    obtain ⟨hle, hj, hl, hc, hrest⟩ := h
    exact ⟨by rw [if_neg (Nat.not_lt.mpr hle), hj], hl, hc, hrest⟩

/-- Whatever their times were: exposures that were not started wait after `retime`. -/
lemma Waiting.retime (h : ∀ x ∈ rest, started l x.1 = 0 ∧ latched l x.1 = 0 ∧ x.2.complete = 0) :
    Waiting l t (retime k t rest) := by
  induction rest generalizing t with
  | nil => trivial
  | cons x rest ih =>
    obtain ⟨hj, hl, hc⟩ := h x List.mem_cons_self
    exact ⟨le_refl _, hj, hl, hc, ih fun y hy => h y (List.mem_cons_of_mem _ hy)⟩

lemma Waiting.forall (h : Waiting l t rest) :
    ∀ x ∈ rest, started l x.1 = 0 ∧ latched l x.1 = 0 ∧ x.2.complete = 0 := by
  induction rest generalizing t with
  | nil => simp
  | cons x rest ih =>
    obtain ⟨-, hj, hl, hc, hrest⟩ := h
    intro y hy
    rcases List.mem_cons.mp hy with rfl | hy
    · exact ⟨hj, hl, hc⟩
    · exact ih hrest y hy

/-- A new exposure waits behind the last one. -/
lemma Waiting.snoc {i : ℕ} {q : Params} (h : Waiting l t rest) (hs : started l i = 0)
    (hl : latched l i = 0) (hq : q.complete = 0) :
    Waiting l t (rest ++ [(i, q.after k (lastEnd t rest))]) := by
  induction rest generalizing t with
  | nil => exact ⟨le_refl _, hs, hl, hq, trivial⟩
  | cons x rest ih => exact ⟨h.1, h.2.1, h.2.2.1, h.2.2.2.1, ih h.2.2.2.2⟩

end Congr

/-! ## The invariant -/

/-- The log is right so far, cells that are still free occur in it nowhere, and the queue is
as the times say. -/
structure LogInv (a : Sched) : Prop where
  log : Latched a.calls
  unused : ∀ i, a.fresh ≤ i → started a.calls i = 0 ∧ latched a.calls i = 0
  ordered : Ordered a.calls a.queue

lemma LogInv.of_quiet {a : Sched} {y : Core} (h : LogInv a) (hy : Quiet a.toCore y)
    (o : Field → List ℕ) : LogInv { toCore := y, queue := a.queue, owned := o } := by
  obtain ⟨l, hl, hq⟩ := hy.calls
  have hsame : ∀ i, started y.calls i = started a.calls i ∧
      latched y.calls i = latched a.calls i := by
    intro i
    have h₀ := started_quiet hq i
    rw [hl, started_append, latched_append]
    omega
  refine ⟨?_, fun i hi => ?_, h.ordered.congr fun i _ => hsame i⟩
  · show Latched y.calls
    rw [hl]
    refine h.log.append fun i flags hmem => ?_
    have := hq _ hmem
    simp [Call.isFrame] at this
  · rw [(hsame i).1, (hsame i).2]
    exact h.unused i (hy.fresh ▸ hi)

/-- The clients' lists are in the order of the queue. -/
def InOrder (a : Sched) : Prop :=
  ∀ c, a.owned c = ((a.tags.filter (·.2 = c)).map Prod.fst).reverse

/-- The exposure that is started when the first one, `p`, leaves the queue ends no later than
planned, if there is another one behind it. -/
def InTime (jiffies : ℕ) (p : Params) (rest : List (ℕ × Params)) : Prop :=
  ∀ j q x l, rest = (j, q) :: x :: l → p.end_ ≤ q.begin_ →
    (q.after k (u32 jiffies)).end_ ≤ q.end_

namespace LogInv

variable {a : Sched} {i j : ℕ} {p q : Params} {rest : List (ℕ × Params)} {y : Core}

/-- Exposure `j` is started. -/
lemma start (hlog : Latched a.calls)
    (hun : ∀ i, a.fresh ≤ i → started a.calls i = 0 ∧ latched a.calls i = 0)
    (hj : j < y.fresh) (hfr : a.fresh ≤ y.fresh)
    (hy : y.calls = a.calls ++ [.new_frame j q.toFrame])
    (hs : started a.calls j = 0) (hl : latched a.calls j = 0)
    (hrest : Behind a.calls q rest) (hnot : j ∉ rest.map Prod.fst) (o : Field → List ℕ) :
    LogInv { toCore := y, queue := (j, q) :: rest, owned := o } := by
  have hcount := fun i => started_new a.calls i j q.toFrame
  rw [← hy] at hcount
  refine ⟨?_, fun i hi => ?_, ?_, fun _ => ?_, hrest.congr fun i hi => ?_⟩
  · show Latched y.calls
    rw [hy]
    exact hlog.append (by simp)
  · have hi' : y.fresh ≤ i := hi
    have := hcount i
    have := hun i (by omega)
    have hji : ¬ j = i := by omega
    simp_all
  · simp [hcount j, hs]
  · simp [hcount j, hl]
  · have hji : ¬ j = i := by
      rintro rfl
      exact hnot hi
    simp [hcount i, hji]

/-- The first exposure is latched. -/
lemma latch {flags : ℕ} (hlog : Latched a.calls)
    (hun : ∀ i, a.fresh ≤ i → started a.calls i = 0 ∧ latched a.calls i = 0)
    (hj : j < a.fresh) (hfr : y.fresh = a.fresh)
    (hy : y.calls = a.calls ++ [.latch_frame j flags])
    (hs : started a.calls j = 1) (hl : latched a.calls j = 0) (hq : q.complete = 1)
    (hrest : Behind a.calls q rest) (hnot : j ∉ rest.map Prod.fst) (o : Field → List ℕ) :
    LogInv { toCore := y, queue := (j, q) :: rest, owned := o } := by
  have hcount := fun i => started_latch a.calls i j flags
  rw [← hy] at hcount
  refine ⟨?_, fun i hi => ?_, ?_, fun hc => ?_, hrest.congr fun i hi => ?_⟩
  · show Latched y.calls
    rw [hy]
    exact hlog.latch hs hl
  · have hi' : y.fresh ≤ i := hi
    have := hcount i
    have := hun i (by omega)
    have hji : ¬ j = i := by omega
    simp_all
  · simp [hcount j, hs]
  · rw [hq] at hc
    cases hc
  · have hji : ¬ j = i := by
      rintro rfl
      exact hnot hi
    simp [hcount i, hji]

/-- The first exposure, `p`, has left the queue. -/
lemma advance (hlog : Latched a.calls)
    (hun : ∀ i, a.fresh ≤ i → started a.calls i = 0 ∧ latched a.calls i = 0)
    (hb : Behind a.calls p rest) (hnd : (rest.map Prod.fst).Nodup)
    (hlt : ∀ i ∈ rest.map Prod.fst, i < a.fresh) (hin : InTime k a.jiffies p rest) :
    LogInv (a.advance k p rest) := by
  cases rest with
  | nil => exact ⟨hlog, hun, trivial⟩
  | cons x rest =>
    obtain ⟨j, q⟩ := x
    obtain ⟨hs, hl, hc, hw⟩ := hb
    rw [List.map_cons, List.nodup_cons] at hnd
    have hj : j < a.fresh := hlt j List.mem_cons_self
    simp only [Sched.advance]
    by_cases hbegin : p.end_ ≤ q.begin_
    · -- the next exposure was not started yet
      rw [if_neg (Nat.not_lt.mpr hbegin)] at hs
      rw [if_pos hbegin]
      refine start (a := a) (q := q.after k (u32 a.jiffies)) (y := (a.toCore.call
        (.new_frame j q.toFrame)).add_timer j (q.after k (u32 a.jiffies)).end_)
        hlog hun hj (le_refl _) rfl hs hl ?_ ?_ a.owned
      · cases rest with
        | nil => trivial
        | cons x rest =>
          have hend := hin j q x rest rfl hbegin
          have hret : Waiting a.calls q.end_ (retime k q.end_ (x :: rest)) :=
            Waiting.retime k hw.forall
          have hlt' : ¬ q.end_ < (q.after k (u32 a.jiffies)).end_ := Nat.not_lt.mpr hend
          obtain ⟨-, hs', hl', hc', hw'⟩ := hret
          refine ⟨?_, hl', hc', hw'⟩
          rw [hs']
          exact (if_neg hlt').symm
      · rw [retime_ids]
        exact hnd.1
    · rw [if_pos (Nat.not_le.mp hbegin)] at hs
      rw [if_neg hbegin]
      split
      · -- its end was missed
        have hfin : Sched.finish j { a with queue := (j, q) :: rest } = { a with
            toCore := (a.toCore.call (.latch_frame j q.flags)).set_row CCD_START_FRAME_LOAD
            queue := (j, { q with complete := 1 }) :: rest } := by
          simp [Sched.finish, hc]
        rw [hfin]
        exact latch (a := a) (q := { q with complete := 1 })
          (y := (a.toCore.call (.latch_frame j q.flags)).set_row CCD_START_FRAME_LOAD)
          hlog hun hj rfl rfl hs hl rfl hw.behind hnd.1 a.owned
      · exact ⟨hlog, hun, hs, fun _ => hl, hw.behind⟩

lemma del_first (h : LogInv a) (hq : a.queue = (i, p) :: rest) (hnd : a.ids.Nodup)
    (hlt : ∀ j ∈ a.ids, j < a.fresh) (hin : InTime k a.jiffies p rest) :
    LogInv (a.del k i) := by
  have hord := h.ordered
  rw [hq] at hord
  rw [Sched.ids, hq, List.map_cons, List.nodup_cons] at hnd
  have hlt' : ∀ j ∈ rest.map Prod.fst, j < a.fresh := by
    intro j hj
    refine hlt j ?_
    rw [Sched.ids, hq]
    exact List.mem_cons_of_mem _ hj
  rw [Sched.del_head k hq]
  by_cases hc : p.complete = 0
  · rw [if_pos hc]
    exact advance k h.log h.unused hord.2.2 hnd.2 hlt' hin
  · rw [if_neg hc]
    exact advance k h.log h.unused hord.2.2 hnd.2 hlt' hin

end LogInv

/-! ## Deleting a client's exposures -/

/-- The queue behind an exposure that ends at `t` without the exposures of client `c`: from
the first of them on, those that stay get new times. -/
def wipe (c : Field) : ℕ → List (ℕ × Params) → List (ℕ × Params)
  | _, [] => []
  | t, (j, q) :: l =>
    if q.client = c then retime k t (l.filter (·.2.client ≠ c)) else (j, q) :: wipe c q.end_ l

/-- What `retime` keeps of an exposure. -/
def timeless (x : ℕ × Params) : ℕ × Frame × ℤ × Field :=
  (x.1, x.2.toFrame, x.2.complete, x.2.client)

lemma retime_congr {t : ℕ} {l l' : List (ℕ × Params)} (h : l.map timeless = l'.map timeless) :
    retime k t l = retime k t l' := by
  induction l generalizing t l' with
  | nil =>
    rw [List.map_nil, eq_comm, List.map_eq_nil_iff] at h
    rw [h]
  | cons x l ih =>
    cases l' with
    | nil => simp at h
    | cons x' l' =>
      obtain ⟨i, p⟩ := x
      obtain ⟨i', p'⟩ := x'
      simp only [List.map_cons, List.cons.injEq, timeless, Prod.mk.injEq] at h
      obtain ⟨⟨rfl, hf, hc, hcl⟩, htail⟩ := h
      have hafter : p.after k t = p'.after k t := by
        simp only [Params.after, hf, hc, hcl]
      rw [retime, retime, hafter, ih htail]

lemma wipe_timeless (c : Field) (t : ℕ) (l : List (ℕ × Params)) :
    (wipe k c t l).map timeless = (l.filter (·.2.client ≠ c)).map timeless := by
  induction l generalizing t with
  | nil => rfl
  | cons x l ih =>
    obtain ⟨j, q⟩ := x
    rw [wipe]
    by_cases hc : q.client = c
    · rw [if_pos hc, List.filter_cons_of_neg (by simpa using hc),
        map_retime k timeless fun _ _ _ => rfl]
    · rw [if_neg hc, List.filter_cons_of_pos (by simpa using hc), List.map_cons, List.map_cons, ih]

/-- Deleting exposures behind the second one leaves the first alone. -/
lemma foldl_unlink_cons {x y : ℕ × Params} {l : List (ℕ × Params)} {L : List ℕ}
    (hL : ∀ i ∈ L, y.1 ≠ i) :
    L.foldl (fun q i => unlink k i q) (x :: y :: l)
      = x :: L.foldl (fun q i => unlink k i q) (y :: l) := by
  induction L generalizing l with
  | nil => rfl
  | cons i L ih =>
    have hyi := hL i List.mem_cons_self
    obtain ⟨l', hl'⟩ : ∃ l', unlink k i (y :: l) = y :: l' := by
      cases l with
      | nil => exact ⟨[], rfl⟩
      | cons z l =>
        rw [unlink]
        split
        · exact ⟨_, rfl⟩
        · exact ⟨_, rfl⟩
    rw [List.foldl_cons, List.foldl_cons, unlink, if_neg hyi, hl']
    exact ih fun j hj => hL j (List.mem_cons_of_mem i hj)

/-- Deleting the exposures of a client one after another, from the last one of the queue to
the one behind the first. -/
lemma foldl_unlink (c : Field) {x : ℕ × Params} {l : List (ℕ × Params)}
    (hnd : ((x :: l).map Prod.fst).Nodup) :
    (((l.filter (·.2.client = c)).map Prod.fst).reverse).foldl (fun q i => unlink k i q) (x :: l)
      = x :: wipe k c x.2.end_ l := by
  induction l generalizing x with
  | nil => rfl
  | cons y l ih =>
    have hnd' := (List.nodup_cons.mp hnd).2
    have hy : ∀ i ∈ ((l.filter (·.2.client = c)).map Prod.fst).reverse, y.1 ≠ i := by
      intro i hi hyi
      rw [List.mem_reverse] at hi
      obtain ⟨z, hz, rfl⟩ := List.mem_map.mp hi
      have hmem : z.1 ∈ l.map Prod.fst := List.mem_map_of_mem (List.mem_filter.mp hz).1
      rw [List.map_cons, List.nodup_cons] at hnd'
      exact hnd'.1 (hyi ▸ hmem)
    have hih := ih hnd'
    by_cases hc : y.2.client = c
    · rw [List.filter_cons_of_pos (by simpa using hc), List.map_cons, List.reverse_cons,
        List.foldl_append, foldl_unlink_cons k hy, hih, List.foldl_cons, List.foldl_nil, unlink,
        if_pos rfl, wipe, if_pos hc]
      rw [retime_congr k (wipe_timeless k c y.2.end_ l)]
    · rw [List.filter_cons_of_neg (by simpa using hc), foldl_unlink_cons k hy, hih, wipe,
        if_neg hc]

lemma Waiting.wipe {l : List Call} {t : ℕ} {rest : List (ℕ × Params)} (c : Field)
    (h : Waiting l t rest) : Waiting l t (wipe k c t rest) := by
  induction rest generalizing t with
  | nil => trivial
  | cons x rest ih =>
    obtain ⟨j, q⟩ := x
    obtain ⟨hle, hs, hl, hq, hw⟩ := h
    rw [Ccd.wipe]
    split
    · exact Waiting.retime k fun y hy => hw.forall y (List.mem_filter.mp hy).1
    · exact ⟨hle, hs, hl, hq, ih hw⟩

lemma Behind.wipe {l : List Call} {p : Params} {rest : List (ℕ × Params)} (c : Field)
    (h : Behind l p rest) : Behind l p (wipe k c p.end_ rest) := by
  cases rest with
  | nil => trivial
  | cons x rest =>
    obtain ⟨j, q⟩ := x
    obtain ⟨hs, hl, hq, hw⟩ := h
    rw [Ccd.wipe]
    split
    · refine Waiting.behind (Waiting.retime k fun y hy => ?_)
      exact hw.forall y (List.mem_filter.mp hy).1
    · exact ⟨hs, hl, hq, hw.wipe k c⟩

/-- Marking an exposure that is then deleted makes no difference. -/
lemma unlink_markAborted {i : ℕ} {x : ℕ × Params} {l : List (ℕ × Params)}
    (hnd : (l.map Prod.fst).Nodup) :
    unlink k i (x :: Sched.markAborted i l) = unlink k i (x :: l) := by
  induction l generalizing x with
  | nil => rfl
  | cons y l ih =>
    rw [List.map_cons, List.nodup_cons] at hnd
    have hcons : Sched.markAborted i (y :: l)
        = (if y.1 = i ∧ y.2.complete = 0 then (y.1, { y.2 with complete := -1 }) else y)
          :: Sched.markAborted i l := rfl
    by_cases hy : y.1 = i
    · have hrest : Sched.markAborted i l = l :=
        Sched.markAborted_of_notMem (hy ▸ hnd.1)
      have hfirst : (if y.1 = i ∧ y.2.complete = 0 then (y.1, { y.2 with complete := -1 })
          else y).1 = i := by
        split
        · exact hy
        · exact hy
      rw [hcons, hrest, unlink, if_pos hfirst, unlink, if_pos hy]
    · rw [hcons, if_neg fun h => hy h.1, unlink, if_neg hy, unlink, if_neg hy, ih hnd.2]

namespace Sched

variable {a : Sched} {c : Field} {x : ℕ × Params} {l : List (ℕ × Params)} {L : List ℕ}

lemma drop_append (L L' : List ℕ) (a : Sched) :
    a.drop k c (L ++ L') = (a.drop k c L).drop k c L' := by
  induction L generalizing a with
  | nil => rfl
  | cons i L ih => exact ih _

/-- Dropping exposures behind the first one changes nothing but the lists. -/
lemma drop_inner (hq : a.queue = x :: l) (hL : ∀ i ∈ L, x.1 ≠ i) :
    (a.drop k c L).toCore = a.toCore ∧
      (a.drop k c L).queue = L.foldl (fun q i => unlink k i q) (x :: l) := by
  induction L generalizing a l with
  | nil => exact ⟨rfl, hq⟩
  | cons i L ih =>
    have hxi := hL i List.mem_cons_self
    obtain ⟨l', hl'⟩ : ∃ l', unlink k i (x :: l) = x :: l' := by
      cases l with
      | nil => exact ⟨[], rfl⟩
      | cons z l =>
        rw [unlink]
        split
        · exact ⟨_, rfl⟩
        · exact ⟨_, rfl⟩
    have hdel : a.del k i = { a with queue := x :: l' } := by
      rw [del_inner k (j := x.1) (p := x.2) hq hxi, hq, hl']
    have hrec := ih (a := (a.del k i).pop c) (l := l') (by rw [hdel]; rfl)
      fun j hj => hL j (List.mem_cons_of_mem i hj)
    rw [drop, List.foldl_cons, hl']
    refine ⟨hrec.1.trans ?_, hrec.2⟩
    rw [hdel]
    rfl

end Sched

/-- When client `c` aborts and the first exposure is the client's, the exposure that is then
started ends no later than planned, if there is another one behind it. -/
def AbortInTime (c : Field) (a : Sched) : Prop :=
  ∀ i p rest, a.queue = (i, p) :: rest → p.client = c →
    InTime k a.jiffies p (wipe k c p.end_ rest)

lemma Behind.of_end {l : List Call} {p p' : Params} {rest : List (ℕ × Params)}
    (h : Behind l p rest) (hend : p'.end_ = p.end_) : Behind l p' rest := by
  cases rest with
  | nil => trivial
  | cons x rest =>
    refine ⟨?_, h.2⟩
    rw [hend]
    exact h.1

/-- The abort up to the point where only the first exposure can be left. -/
lemma abort_inner {a : Sched} {c : Field} {i : ℕ} {p : Params} {rest : List (ℕ × Params)}
    {L : List ℕ} (hq : a.queue = (i, p) :: rest) (hnd : a.ids.Nodup)
    (hL : L = ((rest.filter (·.2.client = c)).map Prod.fst).reverse)
    (ho : a.owned c = L ++ if p.client = c then [i] else []) :
    ∃ p', ((a.mark c).drop k c L).queue = (i, p') :: wipe k c p.end_ rest ∧
      Quiet a.toCore ((a.mark c).drop k c L).toCore ∧ p'.end_ = p.end_ ∧
      (p'.complete = 0 → p.complete = 0) := by
  rw [Sched.ids, hq, List.map_cons] at hnd
  have hin := (List.nodup_cons.mp hnd).1
  have hLi : ∀ j ∈ L, i ≠ j := by
    intro j hj hij
    rw [hL, List.mem_reverse] at hj
    obtain ⟨z, hz, rfl⟩ := List.mem_map.mp hj
    have hmem : z.1 ∈ rest.map Prod.fst := List.mem_map_of_mem (List.mem_filter.mp hz).1
    rw [← hij] at hmem
    exact hin hmem
  have hfold := foldl_unlink k c (x := (i, p)) hnd
  rw [← hL] at hfold
  cases hLc : L with
  | nil =>
    rw [hLc] at hfold ho
    have hw : (i, p) :: rest = (i, p) :: wipe k c p.end_ rest := hfold
    rw [List.cons.injEq] at hw
    rw [← hw.2]
    by_cases hc : p.client = c
    · -- the first exposure is the only one of the client
      rw [if_pos hc, List.nil_append] at ho
      have hmark : a.mark c = { a with
          toCore := a.stopRead i
          queue := Sched.markAborted i a.queue } := by
        rw [Sched.mark, ho]
      have hrest : Sched.markAborted i rest = rest := Sched.markAborted_of_notMem hin
      rw [hmark, hq]
      refine ⟨if p.complete = 0 then { p with complete := -1 } else p, ?_,
        Sched.stopRead_quiet i a, ?_, ?_⟩
      · show (if i = i ∧ p.complete = 0 then (i, { p with complete := -1 }) else (i, p))
          :: Sched.markAborted i rest = _
        rw [hrest]
        by_cases hp : p.complete = 0 <;> simp [hp]
      · split <;> rfl
      · split
        · simp
        · exact id
    · rw [if_neg hc, List.append_nil] at ho
      have hmark : a.mark c = a := by rw [Sched.mark, ho]
      rw [hmark]
      exact ⟨p, hq, .refl _, rfl, id⟩
  | cons n L' =>
    have hn : i ≠ n := hLi n (by simp [hLc])
    have hmark : a.mark c = { a with
        toCore := a.stopRead n
        queue := Sched.markAborted n a.queue } := by
      rw [Sched.mark, ho, hLc]
      rfl
    have hmq : (a.mark c).queue = (i, p) :: Sched.markAborted n rest := by
      rw [hmark, hq]
      simp [Sched.markAborted, hn]
    obtain ⟨hcore, hqueue⟩ := Sched.drop_inner k (c := c) hmq hLi
    rw [hLc] at hqueue hcore hfold
    rw [List.foldl_cons, unlink_markAborted k (List.nodup_cons.mp hnd).2, ← List.foldl_cons,
      hfold] at hqueue
    refine ⟨p, hqueue, ?_, rfl, id⟩
    rw [hcore, hmark]
    exact Sched.stopRead_quiet n a

/-! ## The order of the clients' exposures -/

lemma Sched.drop_tags {a : Sched} (hnd : a.ids.Nodup) (c : Field) (L : List ℕ) :
    (a.drop k c L).tags = a.tags.filter (·.1 ∉ L) ∧ (a.drop k c L).ids.Nodup := by
  induction L generalizing a with
  | nil => simp [Sched.drop, hnd]
  | cons i L ih =>
    obtain ⟨htags, hids⟩ := ih (a := (a.del k i).pop c) (Sched.del_ids_nodup k hnd i)
    refine ⟨?_, hids⟩
    rw [Sched.drop, htags]
    show (a.del k i).tags.filter _ = _
    rw [Sched.del_tags k hnd, List.filter_filter]
    refine List.filter_congr fun x _ => ?_
    simp [Bool.and_comm]

lemma InOrder.mem_iff {a : Sched} (h : InOrder a) {c : Field} {i : ℕ} :
    i ∈ a.owned c ↔ (i, c) ∈ a.tags := by
  rw [h c, List.mem_reverse, List.mem_map]
  constructor
  · rintro ⟨⟨j, c'⟩, hmem, rfl⟩
    simp only [List.mem_filter, decide_eq_true_eq] at hmem
    rw [← hmem.2]
    exact hmem.1
  · intro hmem
    exact ⟨(i, c), by simp [hmem], rfl⟩

/-- The client of an exposure is determined. -/
lemma tags_unique {a : Sched} (hnd : a.ids.Nodup) {i : ℕ} {c c' : Field}
    (h : (i, c) ∈ a.tags) (h' : (i, c') ∈ a.tags) : c = c' := by
  rw [← Sched.tags_ids] at hnd
  exact congrArg Prod.snd (List.inj_on_of_nodup_map hnd h h' rfl)

lemma InOrder.abort {a : Sched} (h : InOrder a) (hnd : a.ids.Nodup) (c : Field) :
    InOrder (a.abort k c) := by
  have hnd' : (a.mark c).ids.Nodup := by
    rw [Sched.mark_ids]
    exact hnd
  have hmark : (a.mark c).tags = a.tags := by
    unfold Sched.mark
    split
    · rfl
    · exact Sched.markAborted_map _ (fun _ _ _ => rfl) _ _
  have htags : (a.abort k c).tags = a.tags.filter (·.2 ≠ c) := by
    show (Sched.drop k c (a.owned c) (a.mark c)).tags = _
    rw [(Sched.drop_tags k hnd' c _).1, hmark]
    refine List.filter_congr fun x hx => ?_
    rw [decide_eq_decide, h.mem_iff]
    constructor
    · intro hnot hc
      exact hnot (hc ▸ hx)
    · intro hne hmem
      exact hne (tags_unique hnd hx hmem)
  intro c'
  rw [Sched.abort_owned, htags, List.filter_filter]
  by_cases hcc : c' = c
  · subst hcc
    rw [Function.update_self, List.filter_eq_nil_iff.mpr]
    · rfl
    · intro x _
      simp
  · rw [Function.update_of_ne hcc, h c']
    congr 2
    refine List.filter_congr fun x _ => ?_
    by_cases hx : x.2 = c'
    · simp [hx, hcc]
    · simp [hx]

lemma InOrder.endFrame {a : Sched} {i : ℕ} {p : Params} {rest : List (ℕ × Params)}
    (h : InOrder a) (hnd : a.ids.Nodup) (hq : a.queue = (i, p) :: rest) :
    InOrder (a.endFrame k i p) := by
  have htags : (a.endFrame k i p).tags = a.tags.filter (·.1 ≠ i) := by
    have hdel := Sched.del_tags k (a := ⟨(a.toCore.call (.end_read p.flags)).set_row
      CCD_END_FRAME_LOAD, a.queue, a.owned⟩) hnd i
    exact hdel
  have hi : (i, p.client) ∈ a.tags := by simp [Sched.tags, hq]
  have hlist : ∀ c, (a.owned c).filter (· ≠ i)
      = (((a.tags.filter (·.1 ≠ i)).filter (·.2 = c)).map Prod.fst).reverse := by
    intro c
    rw [h c, List.filter_reverse, List.filter_map, List.filter_filter, List.filter_filter]
    congr 2
    refine List.filter_congr fun x _ => ?_
    simp [Bool.and_comm]
  intro c
  rw [Represents.endFrame_owned, htags, ← hlist c]
  have hndc : (a.owned c).Nodup := by
    rw [h c, List.nodup_reverse]
    refine List.Nodup.sublist (List.Sublist.map _ List.filter_sublist) ?_
    rw [Sched.tags_ids]
    exact hnd
  by_cases hcc : c = p.client
  · subst hcc
    rw [Function.update_self, hndc.erase_eq_filter]
    refine List.filter_congr fun x _ => ?_
    by_cases hx : x = i <;> simp [hx]
  · rw [Function.update_of_ne hcc, List.filter_eq_self.mpr]
    intro j hj
    have hji : j ≠ i := by
      rintro rfl
      exact hcc (tags_unique hnd (h.mem_iff.mp hj) hi)
    simpa using hji

/-! ## The operations keep the invariant -/

namespace LogInv

variable {a : Sched} {i : ℕ} {c : Field} {p : Params} {rest : List (ℕ × Params)}

lemma abort (h : LogInv a) (horder : InOrder a) (hnd : a.ids.Nodup)
    (hlt : ∀ j ∈ a.ids, j < a.fresh) (hok : AbortInTime k c a) : LogInv (a.abort k c) := by
  have hset {b : Sched} (hb : LogInv b) (w : Client) (hab : a.abort k c = { b with
      toCore := b.toCore.set_client c w }) : LogInv (a.abort k c) := by
    rw [hab]
    exact hb.of_quiet (.set_client c w _) _
  cases hq : a.queue with
  | nil =>
    have ho : a.owned c = [] := by rw [horder c, Sched.tags, hq]; rfl
    refine hset (b := a) h { a.clients c with out_buf_len := 0 } ?_
    simp [Sched.abort, Sched.mark, ho, Sched.drop]
  | cons x rest =>
    obtain ⟨i, p⟩ := x
    have hord := h.ordered
    rw [hq] at hord
    obtain ⟨hs, hl, hb⟩ := hord
    obtain ⟨L, hL⟩ : ∃ L, L = ((rest.filter (·.2.client = c)).map Prod.fst).reverse := ⟨_, rfl⟩
    have ho : a.owned c = L ++ if p.client = c then [i] else [] := by
      rw [horder c, Sched.tags, hq, hL, List.map_cons, List.filter_cons, List.filter_map]
      by_cases hc : p.client = c <;> simp [hc, Function.comp_def]
    obtain ⟨p', hqueue, hquiet, hend, hcomp⟩ := abort_inner k hq hnd hL ho
    have hids : ((a.mark c).drop k c L).ids.Nodup :=
      (Sched.drop_tags k (by rw [Sched.mark_ids]; exact hnd) c L).2
    -- the queue is wiped behind the first exposure
    have h₁ : LogInv ((a.mark c).drop k c L) := by
      have hw : LogInv { a with queue := (i, p') :: wipe k c p.end_ rest } :=
        ⟨h.log, h.unused, hs, fun hc => hl (hcomp hc), (hb.wipe k c).of_end hend⟩
      have := hw.of_quiet hquiet ((a.mark c).drop k c L).owned
      rw [← hqueue] at this
      exact this
    have hfr : ((a.mark c).drop k c L).fresh = a.fresh := hquiet.fresh
    by_cases hc : p.client = c
    · rw [if_pos hc] at ho
      have hlt' : ∀ j ∈ ((a.mark c).drop k c L).ids, j < ((a.mark c).drop k c L).fresh := by
        intro j hj
        rw [hfr]
        refine hlt j ?_
        rw [← Sched.tags_ids, (Sched.drop_tags k (by rw [Sched.mark_ids]; exact hnd) c L).1] at hj
        have hsub := (List.Sublist.map Prod.fst List.filter_sublist).subset hj
        rwa [Sched.tags_ids, Sched.mark_ids] at hsub
      have hin : InTime k ((a.mark c).drop k c L).jiffies p' (wipe k c p.end_ rest) := by
        have hjif : ((a.mark c).drop k c L).jiffies = a.jiffies :=
          congrArg (fun x => x.2.2.2.1)
            ((Sched.drop_static k c L _).trans (Sched.mark_static c a))
        intro j q x l heq hle
        rw [hjif]
        exact hok i p rest hq hc j q x l heq (hend ▸ hle)
      have hdel := h₁.del_first k hqueue hids hlt' hin
      refine hset (b := (a.mark c).drop k c (a.owned c)) ?_ _ rfl
      rw [ho, Sched.drop_append]
      exact ⟨hdel.log, hdel.unused, hdel.ordered⟩
    · rw [if_neg hc, List.append_nil] at ho
      refine hset (b := (a.mark c).drop k c (a.owned c)) ?_ _ rfl
      rw [ho]
      exact h₁

lemma endFrame (h : LogInv a) (hq : a.queue = (i, p) :: rest) (hnd : a.ids.Nodup)
    (hlt : ∀ j ∈ a.ids, j < a.fresh) (hin : InTime k a.jiffies p rest) :
    LogInv (a.endFrame k i p) := by
  have hquiet : Quiet a.toCore ((a.toCore.call (.end_read p.flags)).set_row
      CCD_END_FRAME_LOAD) :=
    (Quiet.call rfl _).trans (.set_row _ _)
  have hdel := (h.of_quiet hquiet a.owned).del_first k hq hnd hlt hin
  exact ⟨hdel.log, hdel.unused, hdel.ordered⟩

lemma finish (h : LogInv a) (hnd : a.ids.Nodup) (hlt : ∀ j ∈ a.ids, j < a.fresh) :
    LogInv (a.finish i) := by
  unfold Sched.finish
  split
  · exact h
  · rename_i j q rest hq
    split
    · rename_i hcond
      have hord := h.ordered
      rw [hq] at hord
      rw [Sched.ids, hq, List.map_cons, List.nodup_cons] at hnd
      refine latch (a := a) (q := { q with complete := 1 })
        (y := (a.toCore.call (.latch_frame j q.flags)).set_row CCD_START_FRAME_LOAD)
        h.log h.unused (hlt j ?_) rfl rfl hord.1 (hord.2.1 hcond.2) rfl
        (hord.2.2.of_end rfl) hnd.1 a.owned
      simp [Sched.ids, hq]
    · exact h

end LogInv

/-- A new exposure that overlaps with the running one ends after it, and is asked for before
the running one is over. -/
def NewInTime (c : Field) (msg : Msg) (a : Sched) : Prop :=
  ∀ j h, a.queue = [(j, h)] → (request a.geometry c msg).overlaps h →
    h.end_ ≤ ((request a.geometry c msg).after k (u32 a.jiffies)).end_ ∧ u32 a.jiffies < h.end_

lemma Ordered.snoc {l : List Call} {j i : ℕ} {h p : Params} {rest : List (ℕ × Params)}
    (ho : Ordered l ((j, h) :: rest)) (hs : started l i = 0) (hl : latched l i = 0)
    (hp : p.complete = 0) :
    Ordered l ((j, h) :: rest ++ [(i, p.after k (lastEnd h.end_ rest))]) := by
  obtain ⟨hj, hc, hb⟩ := ho
  refine ⟨hj, hc, ?_⟩
  cases rest with
  | nil => exact ⟨by simp [hs, Params.after, lastEnd], hl, hp, trivial⟩
  | cons x rest => exact ⟨hb.1, hb.2.1, hb.2.2.1, hb.2.2.2.snoc k hs hl hp⟩

lemma LogInv.new {a : Sched} {c : Field} {msg : Msg} (h : LogInv a)
    (hlt : ∀ j ∈ a.ids, j < a.fresh) (hok : NewInTime k c msg a) :
    LogInv (a.new k c msg) := by
  have hunused := h.unused a.fresh (le_refl _)
  rcases Sched.new_cases k a c msg rfl with ⟨-, hn⟩ | ⟨j, g, hq, hov, hend, -⟩ |
    ⟨j, g, hq, hov, hend, hn⟩ | ⟨j, g, rest, hq, -, hn⟩
  · rw [hn]
    exact start (a := a) (q := (request a.geometry c msg).after k (u32 a.jiffies))
      (y := ((a.issue c).toCore.call (.new_frame a.fresh (request a.geometry c msg).toFrame)).add_timer
        a.fresh ((request a.geometry c msg).after k (u32 a.jiffies)).end_)
      h.log h.unused (Nat.lt_succ_self _) (Nat.le_succ _) rfl hunused.1 hunused.2
      (show Behind a.calls _ [] from trivial) (by simp) _
  · have := (hok j g hq hov).1
    omega
  · obtain ⟨-, hbegin⟩ := hok j g hq hov
    have hord := h.ordered
    rw [hq] at hord
    have hj : j < a.fresh := hlt j (by simp [Sched.ids, hq])
    have hcount := fun i =>
      started_new a.calls i a.fresh (request a.geometry c msg).toFrame
    rw [hn, hq]
    refine ⟨h.log.append (by simp), fun i hi => ?_, ?_, fun hc => ?_, ?_, ?_, rfl, trivial⟩
    · have hi' : a.fresh + 1 ≤ i := hi
      have hun := h.unused i (by omega)
      have hne : ¬ a.fresh = i := by omega
      show started (a.calls ++ _) i = 0 ∧ latched (a.calls ++ _) i = 0
      rw [(hcount i).1, (hcount i).2, if_neg hne]
      exact hun
    · show started (a.calls ++ _) j = 1
      rw [(hcount j).1, if_neg (by omega)]
      exact hord.1
    · show latched (a.calls ++ _) j = 0
      rw [(hcount j).2]
      exact hord.2.1 hc
    · show started (a.calls ++ _) a.fresh = if u32 a.jiffies < g.end_ then 1 else 0
      rw [(hcount a.fresh).1, if_pos rfl, if_pos hbegin, hunused.1]
    · show latched (a.calls ++ _) a.fresh = 0
      rw [(hcount a.fresh).2]
      exact hunused.2
  · have hord := h.ordered
    rw [hq] at hord
    rw [hn, hq]
    exact ⟨h.log, fun i hi => h.unused i (Nat.le_of_succ_le hi),
      hord.snoc k hunused.1 hunused.2 rfl⟩

lemma InOrder.new {a : Sched} {c : Field} {msg : Msg} (h : InOrder a)
    (hok : NewInTime k c msg a) : InOrder (a.new k c msg) := by
  have htags : (a.new k c msg).tags = a.tags ++ [(a.fresh, c)] := by
    rcases Sched.new_cases k a c msg rfl with ⟨hq, hn⟩ | ⟨j, g, hq, hov, hend, -⟩ |
      ⟨j, g, hq, hov, hend, hn⟩ | ⟨j, g, rest, hq, -, hn⟩
    · rw [hn, Sched.tags, Sched.tags, hq]
      rfl
    · have := (hok j g hq hov).1
      omega
    · rw [hn]
      simp [Sched.tags, Params.after, request]
    · rw [hn]
      simp [Sched.tags, Params.after, request]
  intro c'
  rw [Sched.new_owned, htags, List.filter_append, List.map_append, List.reverse_append, ← h c']
  by_cases hcc : c' = c
  · subst hcc
    simp
  · rw [Function.update_of_ne hcc]
    simp [Ne.symm hcc]

/-! ## Runs -/

/-- The steps at which the times tell which exposures are running. -/
def LatchOk (s : State) (e : Event) : Prop :=
  match e with
  | .new_exposure c msg => s.ready c → NewInTime k c msg s.view
  | .abort c => s.ready c → AbortInTime k c s.view
  | .close c => (s.clients c).opened → AbortInTime k c s.view
  | .read _ _ | .wake _ _ =>
    -- only a read that takes the first exposure off the list starts another one
    ∀ s', step k m s e = some s' → s'.exposure_list ≠ s.exposure_list →
      ∀ i p rest, s.view.queue = (i, p) :: rest → InTime k s.jiffies p rest
  | _ => True

/-- A step that meets `LatchOk` keeps the invariant. -/
lemma LogInv.step {s s' : State} {a b : Sched} {e : Event} (h : LogInv a) (horder : InOrder a)
    (hrep : Represents s a) (hrep' : Represents s' b) (hok : LatchOk k m s e)
    (hstep : Ccd.step k m s e = some s') (hs : Sched.Step k a e b) : LogInv b ∧ InOrder b := by
  have hview := hrep.toLinked.view_eq
  have hcore := hrep.core
  have hnd := hrep.chain.nodup
  have hlt := hrep.fresh
  cases hs with
  | quiet hy => exact ⟨h.of_quiet hy _, horder⟩
  | new hready =>
    have hin : NewInTime k _ _ a := hview ▸ hok (hcore ▸ hready)
    exact ⟨h.new k hlt hin, horder.new k hin⟩
  | abort hready =>
    have hin : AbortInTime k _ a := hview ▸ hok (hcore ▸ hready)
    exact ⟨h.abort k horder hnd hlt hin, horder.abort k hnd _⟩
  | close hopen =>
    have hin : AbortInTime k _ a := hview ▸ hok (hcore ▸ hopen)
    exact ⟨(h.abort k horder hnd hlt hin).of_quiet (Represents.close_quiet _ _).1 _,
      horder.abort k hnd _⟩
  | unregister hreg =>
    have hquiet : Quiet a.toCore a.toCore.unregister := by
      unfold Core.unregister
      split
      · exact (Quiet.call (w := .close) rfl a.toCore).trans (.of_same rfl rfl rfl (le_refl _) rfl)
      · exact .of_same rfl rfl rfl (le_refl _) rfl
    have hempty : LogInv { a with queue := [] } := ⟨h.log, h.unused, trivial⟩
    exact ⟨hempty.of_quiet hquiet _, fun _ => rfl⟩
  | expire =>
    rcases a.expire_cases with ⟨-, hx⟩ | ⟨-, hx⟩ | ⟨i, -, -, hx⟩
    · rw [hx]
      exact ⟨h, horder⟩
    · rw [hx]
      exact ⟨⟨h.log, h.unused, h.ordered⟩, horder⟩
    · have hstop : LogInv { a with toCore := a.toCore.del_timer } :=
        ⟨h.log, h.unused, h.ordered⟩
      rw [hx]
      refine ⟨hstop.finish hnd hlt, fun c => ?_⟩
      rw [Sched.finish_owned, Sched.finish_tags]
      exact horder c
  | @endFrame _ i p rest y z hread hq hp hy htime hz =>
    obtain ⟨f, -, -, hel, -⟩ := hrep.toLinked.head_cell hq
    have hleft : s'.exposure_list ≠ s.exposure_list := by
      intro heq
      have hc := hrep'.chain
      have hmem : i ∈ (Sched.endFrame k i p { a with toCore := y }).ids := by
        rw [heq, hel] at hc
        show i ∈ Sched.ids { Sched.endFrame k i p { a with toCore := y } with toCore := z }
        cases hids : Sched.ids { Sched.endFrame k i p { a with toCore := y } with
            toCore := z } with
        | nil =>
          rw [hids] at hc
          cases hc
        | cons j l =>
          rw [hids] at hc
          obtain rfl : i = j := by simpa using hc.1
          exact List.mem_cons_self
      have hdel := Sched.del_tags k (a := ⟨(y.call (.end_read p.flags)).set_row
        CCD_END_FRAME_LOAD, a.queue, a.owned⟩) hnd i
      obtain ⟨c, hc⟩ := Sched.mem_ids_iff.mp hmem
      have hc' : (i, c) ∈ (Sched.del k i ⟨(y.call (.end_read p.flags)).set_row
        CCD_END_FRAME_LOAD, a.queue, a.owned⟩).tags := hc
      rw [hdel] at hc'
      simp at hc'
    have hin : InTime k y.jiffies p rest := by
      rw [htime]
      have hlate : ∀ i p rest, a.queue = (i, p) :: rest → InTime k a.jiffies p rest := by
        rw [← hview]
        cases e with
        | read c count => exact hok s' hstep hleft
        | wake c count => exact hok s' hstep hleft
        | _ => cases hread
      exact hlate i p rest hq
    have h₁ : LogInv { a with toCore := y } := h.of_quiet hy _
    have hlt' : ∀ j ∈ Sched.ids { a with toCore := y }, j < y.fresh := by
      rw [hy.fresh]
      exact hlt
    exact ⟨(h₁.endFrame k hq hnd hlt' hin).of_quiet hz _,
      InOrder.endFrame k (a := { a with toCore := y }) horder hnd hq⟩

/-- In every run in which the times tell which exposures are running, every exposure that is
latched was started exactly once before, and is latched once. -/
theorem latched_once_started {jiffies : ℕ} {s : State} (h : Runs k m (LatchOk k m) jiffies s) :
    Latched s.calls := by
  have hinv : ∃ a, Represents s a ∧ LogInv a ∧ InOrder a := by
    refine Reach.induction_on (P := fun s => ∃ a, Represents s a ∧ LogInv a ∧ InOrder a)
      ⟨_, .init jiffies, ⟨?_, fun _ _ => ⟨rfl, rfl⟩, trivial⟩, fun _ => rfl⟩ ?_ h
    · intro pre post i flags heq
      simp [State.init] at heq
    · rintro s e s' ⟨a, ha, hl, ho⟩ hok hs
      obtain ⟨b, hb, hb'⟩ := step_refines k m ha hs
      exact ⟨b, hb', hl.step k m ho ha hb' hok hs hb⟩
  obtain ⟨a, ha, hl, -⟩ := hinv
  rw [ha.core]
  exact hl.log

/-- A frame is exposed and latched. -/
theorem latched_once_started_one_frame :
    ∃ s, replay (step .hz100 .black) (State.init 0)
        [.register .small, .open_ 0 .binary false, .new_exposure 0 (whole_frame 0 100),
          .tick 10, .expire] = some s ∧ latched s.calls 0 = 1 ∧ Latched s.calls := by
  refine ⟨_, rfl, by decide, ?_⟩
  refine latched_once_started .hz100 .black (show Runs _ _ _ 0 _ from ?_)
  refine .step (e := .expire) (.step (e := .tick 10) (.step
    (e := .new_exposure 0 (whole_frame 0 100)) (.step (e := .open_ 0 .binary false)
    (.step (e := .register .small) .init trivial rfl) trivial rfl) ?_ rfl) trivial rfl)
    trivial rfl
  intro _ j h hq
  cases hq

/-- The even field asks for a short exposure without a wipe while the odd one is exposed: it
goes in front, and is latched without having been started. -/
theorem latched_without_start :
    ∃ s, replay (step .hz100 .black) (State.init 0)
        [.register .small, .open_ 1 .binary false, .open_ 2 .binary false,
          .new_exposure 1 (whole_frame 0 1000), .new_exposure 2 (whole_frame 8 100), .tick 10,
          .expire] = some s ∧ s.jiffies = 10 ∧ latched s.calls 1 = 1 ∧ started s.calls 1 = 0 ∧
      ¬ Latched s.calls := by
  refine ⟨_, rfl, by decide, by decide, by decide, fun h => ?_⟩
  have hlast := h [.open_, .new_frame 0 ⟨0, 0, 2, 2, 1, 1, 8, 1000, 1⟩] [] 1 10 rfl
  exact absurd hlast.1 (by decide)

end EspLinux.Ccd
