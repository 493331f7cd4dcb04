import EspLinux.Ccd.Exposure

/-!
# The exposure scheduler on lists

What the exposure routines are for, without pointers: a device keeps a queue of exposures
in the order in which they are to be read, and every client the list of its own exposures,
newest first.  Each routine of `Exposure` has its counterpart here, on lists; `Links`
shows that the pointer routines refine them.
-/

namespace EspLinux.Ccd

/-- The scheduler's state: the device and its clients with the exposure lists as lists. -/
structure Sched extends Core where
  queue : List (ℕ × Params)
  owned : Field → List ℕ

/-- The cells of the exposures in the queue. -/
def Sched.ids (a : Sched) : List ℕ := a.queue.map Prod.fst

variable (k : Kernel)

/-- An exposure that begins at `t`. -/
def Params.after (t : ℕ) (p : Params) : Params :=
  { p with begin_ := t, end_ := u32 (t + k.MSEC2JIFFY p.msec) }

/-- Give the exposures of a queue times one after another, from `t` on. -/
def retime : ℕ → List (ℕ × Params) → List (ℕ × Params)
  | _, [] => []
  | t, (i, p) :: l => (i, p.after k t) :: retime (p.after k t).end_ l

/-- Take exposure `i` out of a queue in which it is not the first, and give the exposures
behind it new times. -/
def unlink (i : ℕ) : List (ℕ × Params) → List (ℕ × Params)
  | [] => []
  | [x] => [x]
  | x :: y :: l => if y.1 = i then x :: retime k x.2.end_ l else x :: unlink i (y :: l)

/-- An exposure that needs no wipe can overlap with one of the other field. -/
def Params.overlaps (p h : Params) : Prop :=
  p.flags &&& CCD_NOWIPE_FRAME ≠ 0 ∧ p.flags &&& h.flags &&& CCD_FIELD_BOTH = 0

instance (p h : Params) : Decidable (p.overlaps h) :=
  inferInstanceAs (Decidable (_ ∧ _))

/-- The end of the last exposure of a queue, `t` if it is empty. -/
def lastEnd : ℕ → List (ℕ × Params) → ℕ
  | t, [] => t
  | _, (_, p) :: l => lastEnd p.end_ l

namespace Sched

/-- Start exposure `i`, with `rest` queued behind it. -/
def start (i : ℕ) (p : Params) (rest : List (ℕ × Params)) (a : Sched) : Sched :=
  { a with
    toCore := (a.toCore.call (.new_frame i p.toFrame)).add_timer i
      (p.after k (u32 a.jiffies)).end_
    queue := (i, p.after k (u32 a.jiffies)) :: rest }

/-- Finish exposure `i` if it is the first of the queue and not yet complete. -/
def finish (i : ℕ) (a : Sched) : Sched :=
  match a.queue with
  | [] => a
  | (j, p) :: rest =>
    if j = i ∧ p.complete = 0 then
      { a with
        toCore := (a.toCore.call (.latch_frame j p.flags)).set_row CCD_START_FRAME_LOAD
        queue := (j, { p with complete := 1 }) :: rest }
    else a

/-- The timer expires. -/
def expire (a : Sched) : Sched :=
  if a.exposure_timer = none then a
  else
    match a.exposure with
    | none => { a with toCore := a.toCore.del_timer.oops }
    | some i =>
      if i ∈ a.ids then finish i { a with toCore := a.toCore.del_timer }
      else { a with toCore := a.toCore.del_timer.oops }

/-- The three things an expiry can do. -/
lemma expire_cases (a : Sched) :
    (a.exposure_timer = none ∧ a.expire = a) ∨
    ((∀ i, a.exposure = some i → i ∉ a.ids) ∧
      a.expire = { a with toCore := a.toCore.del_timer.oops }) ∨
    (∃ i, a.exposure = some i ∧ i ∈ a.ids ∧
      a.expire = finish i { a with toCore := a.toCore.del_timer }) := by
  unfold expire
  by_cases ht : a.exposure_timer = none
  · rw [if_pos ht]
    exact .inl ⟨ht, rfl⟩
  · rw [if_neg ht]
    cases he : a.exposure with
    | none =>
      refine .inr (.inl ⟨fun i hi => ?_, rfl⟩)
      cases hi
    | some i =>
      by_cases hi : i ∈ a.ids
      · exact .inr (.inr ⟨i, rfl, hi, if_pos hi⟩)
      · refine .inr (.inl ⟨fun j hj => ?_, if_neg hi⟩)
        cases hj
        exact hi

/-- What becomes of the queue when its first exposure, `p`, has been taken off. -/
def advance (p : Params) (rest : List (ℕ × Params)) (a : Sched) : Sched :=
  match rest with
  | [] => { a with queue := [] }
  | (j, q) :: rest =>
    if p.end_ ≤ q.begin_ then a.start k j q (retime k q.end_ rest)
    else if q.end_ ≤ a.jiffies % 2 ^ k.longBits then
      finish j { a with queue := (j, q) :: rest }
    else
      { a with toCore := a.toCore.add_timer j q.end_, queue := (j, q) :: rest }

/-- Delete exposure `i` from the queue. -/
def del (i : ℕ) (a : Sched) : Sched :=
  match a.queue with
  | [] => a
  | (j, p) :: rest =>
    if j = i then
      advance k p rest
        { a with toCore := if p.complete = 0 then a.toCore.del_timer else a.toCore }
    else { a with queue := unlink k i ((j, p) :: rest) }

lemma del_head {i : ℕ} {p : Params} {rest : List (ℕ × Params)} {a : Sched}
    (hq : a.queue = (i, p) :: rest) :
    a.del k i = advance k p rest
      { a with toCore := if p.complete = 0 then a.toCore.del_timer else a.toCore } := by
  unfold del
  rw [hq]
  exact if_pos rfl

lemma del_inner {i j : ℕ} {p : Params} {rest : List (ℕ × Params)} {a : Sched}
    (hq : a.queue = (j, p) :: rest) (hne : j ≠ i) :
    a.del k i = { a with queue := unlink k i a.queue } := by
  unfold del
  rw [hq]
  exact if_neg hne

/-- A new exposure for client `c` is the next free cell and the newest of the client. -/
def issue (c : Field) (a : Sched) : Sched :=
  { a with
    toCore := a.toCore.alloc
    owned := Function.update a.owned c (a.fresh :: a.owned c) }

/-- A new exposure for client `c`. -/
def new (c : Field) (msg : Msg) (a : Sched) : Sched :=
  let p := request a.geometry c msg
  let q := p.after k (u32 a.jiffies)
  match a.queue with
  | [] => (a.issue c).start k a.fresh p []
  | (_, h) :: rest =>
    if p.overlaps h ∧ rest = [] then
      if q.end_ < h.end_ then
        { a.issue c with
          toCore := (a.issue c).toCore.add_timer a.fresh q.end_
          queue := (a.fresh, q) :: a.queue }
      else
        { a.issue c with
          toCore := (a.issue c).toCore.call (.new_frame a.fresh p.toFrame)
          queue := a.queue ++ [(a.fresh, q)] }
    else
      { a.issue c with queue := a.queue ++ [(a.fresh, p.after k (lastEnd h.end_ rest))] }

section New

variable {a : Sched} {c : Field} {msg : Msg} {p h : Params} {j : ℕ}
  {rest : List (ℕ × Params)}

lemma new_nil (hp : request a.geometry c msg = p) (hq : a.queue = []) :
    a.new k c msg = (a.issue c).start k a.fresh p [] := by
  simp only [new, hq, hp]

lemma new_front (hp : request a.geometry c msg = p) (hq : a.queue = [(j, h)])
    (hov : p.overlaps h) (hlt : (p.after k (u32 a.jiffies)).end_ < h.end_) :
    a.new k c msg = { a.issue c with
      toCore := (a.issue c).toCore.add_timer a.fresh (p.after k (u32 a.jiffies)).end_
      queue := (a.fresh, p.after k (u32 a.jiffies)) :: a.queue } := by
  simp only [new, hq, hp]
  rw [if_pos ⟨hov, trivial⟩, if_pos hlt]

lemma new_beside (hp : request a.geometry c msg = p) (hq : a.queue = [(j, h)])
    (hov : p.overlaps h) (hle : h.end_ ≤ (p.after k (u32 a.jiffies)).end_) :
    a.new k c msg = { a.issue c with
      toCore := (a.issue c).toCore.call (.new_frame a.fresh p.toFrame)
      queue := a.queue ++ [(a.fresh, p.after k (u32 a.jiffies))] } := by
  simp only [new, hq, hp]
  rw [if_pos ⟨hov, trivial⟩, if_neg (Nat.not_lt.mpr hle)]

lemma new_last (hp : request a.geometry c msg = p) (hq : a.queue = (j, h) :: rest)
    (hov : ¬ (p.overlaps h ∧ rest = [])) :
    a.new k c msg = { a.issue c with
      queue := a.queue ++ [(a.fresh, p.after k (lastEnd h.end_ rest))] } := by
  simp only [new, hq, hp]
  rw [if_neg hov]

/-- The four places where a new exposure can go. -/
lemma new_cases (a : Sched) (c : Field) (msg : Msg) {p : Params}
    (hp : request a.geometry c msg = p) :
    (a.queue = [] ∧ a.new k c msg = (a.issue c).start k a.fresh p []) ∨
    (∃ j h, a.queue = [(j, h)] ∧ p.overlaps h ∧ (p.after k (u32 a.jiffies)).end_ < h.end_ ∧
      a.new k c msg = { a.issue c with
        toCore := (a.issue c).toCore.add_timer a.fresh (p.after k (u32 a.jiffies)).end_
        queue := (a.fresh, p.after k (u32 a.jiffies)) :: a.queue }) ∨
    (∃ j h, a.queue = [(j, h)] ∧ p.overlaps h ∧ h.end_ ≤ (p.after k (u32 a.jiffies)).end_ ∧
      a.new k c msg = { a.issue c with
        toCore := (a.issue c).toCore.call (.new_frame a.fresh p.toFrame)
        queue := a.queue ++ [(a.fresh, p.after k (u32 a.jiffies))] }) ∨
    (∃ j h rest, a.queue = (j, h) :: rest ∧ ¬ (p.overlaps h ∧ rest = []) ∧
      a.new k c msg = { a.issue c with
        queue := a.queue ++ [(a.fresh, p.after k (lastEnd h.end_ rest))] }) := by
  cases hq : a.queue with
  | nil => exact .inl ⟨rfl, by rw [new_nil k hp hq]⟩
  | cons x rest =>
    obtain ⟨j, h⟩ := x
    by_cases hov : p.overlaps h ∧ rest = []
    · obtain ⟨hov, rfl⟩ := hov
      by_cases hlt : (p.after k (u32 a.jiffies)).end_ < h.end_
      · exact .inr (.inl ⟨j, h, rfl, hov, hlt, by rw [new_front k hp hq hov hlt, hq]⟩)
      · exact .inr (.inr (.inl ⟨j, h, rfl, hov, Nat.not_lt.mp hlt,
          by rw [new_beside k hp hq hov (Nat.not_lt.mp hlt), hq]⟩))
    · exact .inr (.inr (.inr ⟨j, h, rest, rfl, hov, by rw [new_last k hp hq hov, hq]⟩))

end New

/-- Client `c` loses its newest exposure. -/
def pop (c : Field) (a : Sched) : Sched :=
  { a with owned := Function.update a.owned c (a.owned c).tail }

/-- Delete the given exposures of client `c`, one after another. -/
def drop (c : Field) : List ℕ → Sched → Sched
  | [], a => a
  | i :: l, a => drop c l ((a.del k i).pop c)

/-- Mark exposure `i` as aborted unless it is complete. -/
def markAborted (i : ℕ) (q : List (ℕ × Params)) : List (ℕ × Params) :=
  q.map fun x =>
    if x.1 = i ∧ x.2.complete = 0 then (x.1, { x.2 with complete := -1 }) else x

/-- What aborting exposure `i` does to a download in progress. -/
def stopRead (i : ℕ) (a : Sched) : Core :=
  match a.queue with
  | [] => a.toCore
  | (j, p) :: _ =>
    if j = i ∧ a.current_read_row ≠ CCD_END_FRAME_LOAD then
      (if a.current_read_row ≠ CCD_START_FRAME_LOAD then
        (a.toCore.call (.control CCD_CTRL_CMD_RESET 0)).call (.end_read p.flags)
      else a.toCore).set_row CCD_END_FRAME_LOAD
    else a.toCore

/-- The first half of an abort: stop a download in progress, mark the newest exposure. -/
def mark (c : Field) (a : Sched) : Sched :=
  match a.owned c with
  | [] => a
  | i :: _ => { a with toCore := a.stopRead i, queue := markAborted i a.queue }

/-- Client `c` aborts its exposures. -/
def abort (c : Field) (a : Sched) : Sched :=
  let b := drop k c (a.owned c) (a.mark c)
  { b with toCore := b.toCore.set_client c { b.clients c with out_buf_len := 0 } }

/-- The first exposure of the queue, `i`, has been read to its end. -/
def endFrame (i : ℕ) (p : Params) (a : Sched) : Sched :=
  let b := del k i
    { a with toCore := (a.toCore.call (.end_read p.flags)).set_row CCD_END_FRAME_LOAD }
  { b with owned := Function.update b.owned p.client ((b.owned p.client).erase i) }

/-! ## Which exposures are in the queue -/

/-- The exposures of the queue with their clients. -/
def tags (a : Sched) : List (ℕ × Field) := a.queue.map fun x => (x.1, x.2.client)

lemma tags_ids (a : Sched) : a.tags.map Prod.fst = a.ids := by
  simp [tags, ids]

lemma mem_ids_iff {a : Sched} {i : ℕ} : i ∈ a.ids ↔ ∃ c, (i, c) ∈ a.tags := by
  rw [← tags_ids]
  simp

end Sched

lemma map_retime {β : Type*} (f : ℕ × Params → β)
    (hf : ∀ i p t, f (i, Params.after k t p) = f (i, p)) (t : ℕ) (l : List (ℕ × Params)) :
    (retime k t l).map f = l.map f := by
  induction l generalizing t with
  | nil => rfl
  | cons x l ih =>
    obtain ⟨i, p⟩ := x
    rw [retime, List.map_cons, List.map_cons, ih, hf]

/-- The exposures left when one is taken out keep everything but their times. -/
lemma map_unlink {β : Type*} (f : ℕ × Params → β)
    (hf : ∀ i p t, f (i, Params.after k t p) = f (i, p)) {i : ℕ} {x : ℕ × Params}
    {l : List (ℕ × Params)} (hx : x.1 ≠ i) (hnd : (l.map Prod.fst).Nodup) :
    (unlink k i (x :: l)).map f = ((x :: l).filter (·.1 ≠ i)).map f := by
  induction l generalizing x with
  | nil => simp [unlink, hx]
  | cons y l ih =>
    simp only [List.map_cons, List.nodup_cons] at hnd
    rw [unlink]
    by_cases hy : y.1 = i
    · have hl : l.filter (·.1 ≠ i) = l := by
        rw [List.filter_eq_self]
        intro z hz
        have : z.1 ≠ i := by
          rintro rfl
          exact hnd.1 (hy ▸ List.mem_map_of_mem hz)
        simpa using this
      rw [if_pos hy, List.filter_cons_of_pos (by simpa using hx),
        List.filter_cons_of_neg (by simpa using hy), hl, List.map_cons, List.map_cons,
        map_retime k f hf]
    · rw [if_neg hy, List.filter_cons_of_pos (by simpa using hx), List.map_cons, List.map_cons,
        ih hy hnd.2]

namespace Sched

@[simp] lemma finish_tags (i : ℕ) (a : Sched) : (a.finish i).tags = a.tags := by
  unfold finish
  split
  · rfl
  · rename_i j p rest hq
    split
    · simp [tags, hq]
    · rfl

@[simp] lemma advance_tags (p : Params) (rest : List (ℕ × Params)) (a : Sched) :
    (a.advance k p rest).tags = rest.map fun x => (x.1, x.2.client) := by
  cases rest with
  | nil => rfl
  | cons x rest =>
    obtain ⟨j, q⟩ := x
    simp only [advance]
    split
    · simp only [tags, start, List.map_cons]
      rw [map_retime k _ fun _ _ _ => rfl]
      rfl
    · split
      · rw [finish_tags]
        rfl
      · rfl

/-- Deleting an exposure takes it, and nothing else, out of the queue. -/
lemma del_tags {a : Sched} (hnd : a.ids.Nodup) (i : ℕ) :
    (a.del k i).tags = a.tags.filter (·.1 ≠ i) := by
  cases hq : a.queue with
  | nil => simp [del, tags, hq]
  | cons x rest =>
    obtain ⟨j, p⟩ := x
    rw [ids, hq, List.map_cons, List.nodup_cons] at hnd
    have htags : a.tags = (j, p.client) :: rest.map fun x => (x.1, x.2.client) := by
      simp [tags, hq]
    by_cases hji : j = i
    · subst hji
      rw [del_head k hq, advance_tags, htags, List.filter_cons_of_neg (by simp),
        List.filter_eq_self.mpr]
      intro y hy
      obtain ⟨z, hz, rfl⟩ := List.mem_map.mp hy
      have : z.1 ≠ j := by
        intro hzj
        have hmem : z.1 ∈ rest.map Prod.fst := List.mem_map_of_mem hz
        rw [hzj] at hmem
        exact hnd.1 hmem
      simpa using this
    · rw [del_inner k hq hji]
      simp only [tags, hq]
      rw [map_unlink k _ (fun _ _ _ => rfl) hji hnd.2, List.filter_map]
      rfl

@[simp] lemma finish_owned (i : ℕ) (a : Sched) : (a.finish i).owned = a.owned := by
  unfold finish
  split
  · rfl
  · split <;> rfl

@[simp] lemma advance_owned (p : Params) (rest : List (ℕ × Params)) (a : Sched) :
    (a.advance k p rest).owned = a.owned := by
  cases rest with
  | nil => rfl
  | cons x rest =>
    simp only [advance]
    split
    · rfl
    · split
      · rw [finish_owned]
      · rfl

@[simp] lemma del_owned (i : ℕ) (a : Sched) : (a.del k i).owned = a.owned := by
  unfold del
  split
  · rfl
  · split
    · rw [advance_owned]
    · rfl

end Sched

/-- What the scheduling of exposures does not change: the registration, the parameters and
clients of the device, the clock and the supply of cells. -/
def Core.static (c : Core) : Bool × Geometry × (Field → Client) × ℕ × ℕ :=
  (c.registered, c.geometry, c.clients, c.jiffies, c.fresh)

namespace Sched

lemma finish_static (i : ℕ) (a : Sched) : (a.finish i).static = a.static := by
  unfold finish
  split
  · rfl
  · split <;> rfl

lemma advance_static (p : Params) (rest : List (ℕ × Params)) (a : Sched) :
    (a.advance k p rest).static = a.static := by
  cases rest with
  | nil => rfl
  | cons x rest =>
    simp only [advance]
    split
    · rfl
    · split
      · rw [finish_static]
      · rfl

lemma del_static (i : ℕ) (a : Sched) : (a.del k i).static = a.static := by
  unfold del
  split
  · rfl
  · split
    · rw [advance_static]
      split <;> rfl
    · rfl

lemma del_fresh (i : ℕ) (a : Sched) : (a.del k i).fresh = a.fresh :=
  congrArg (fun x => x.2.2.2.2) (del_static k i a)

lemma drop_static (c : Field) (l : List ℕ) (a : Sched) :
    (a.drop k c l).static = a.static := by
  induction l generalizing a with
  | nil => rfl
  | cons i l ih =>
    rw [drop, ih]
    exact del_static k i a

lemma drop_owned (c : Field) (l : List ℕ) (a : Sched) :
    (a.drop k c l).owned = Function.update a.owned c ((a.owned c).drop l.length) := by
  induction l generalizing a with
  | nil => simp [drop]
  | cons i l ih =>
    rw [drop, ih]
    simp [pop]

@[simp] lemma mark_owned (c : Field) (a : Sched) : (a.mark c).owned = a.owned := by
  unfold mark
  split <;> rfl

/-- An abort takes all of the client's exposures and none of the others. -/
lemma abort_owned (c : Field) (a : Sched) :
    (a.abort k c).owned = Function.update a.owned c [] := by
  unfold abort
  show (drop k c (a.owned c) (a.mark c)).owned = _
  rw [drop_owned, mark_owned, List.drop_length]

lemma mark_static (c : Field) (a : Sched) : (a.mark c).static = a.static := by
  unfold mark
  split
  · rfl
  · show (a.stopRead _).static = a.static
    unfold stopRead
    split
    · rfl
    · split
      · split <;> rfl
      · rfl

/-- An abort changes the client's output buffer, and no client opens or closes. -/
lemma abort_opened (c : Field) (a : Sched) (c' : Field) :
    ((a.abort k c).clients c').opened = (a.clients c').opened := by
  have hstat : (drop k c (a.owned c) (a.mark c)).static = a.static :=
    (drop_static k c _ _).trans (mark_static c a)
  have hcl : (drop k c (a.owned c) (a.mark c)).clients = a.clients :=
    congrArg (fun x => x.2.2.1) hstat
  show (Function.update (drop k c (a.owned c) (a.mark c)).clients c _ c').opened = _
  by_cases hcc : c' = c
  · subst hcc
    rw [Function.update_self, hcl]
  · rw [Function.update_of_ne hcc, hcl]

lemma abort_registered (c : Field) (a : Sched) :
    (a.abort k c).registered = a.registered := by
  have hstat : (drop k c (a.owned c) (a.mark c)).static = a.static :=
    (drop_static k c _ _).trans (mark_static c a)
  exact congrArg Prod.fst hstat

end Sched

end EspLinux.Ccd
