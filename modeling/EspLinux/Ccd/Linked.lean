import EspLinux.Ccd.Links

/-!
# The client lists and the operations on both lists

`Linked` adds the client side to the device side of `Links`: each client's list runs
through the client's exposures, and no cell is allocated that is not in the queue.  The
operations that touch both lists (a new exposure, an abort, the end of a frame) take
linked states to linked states.
-/

namespace EspLinux.Ccd

open EspLinux.Lib

/-- The lists of a state represent a scheduler state, and the allocated cells are the
exposures in its queue. -/
structure Linked (s : State) (a : Sched) : Prop extends DevLinked s a where
  clients : ∀ c, Chain (clientNextOf s.heap) (s.client_list c) (a.owned c)
  live : ∀ i e, s.heap i = some e → i ∈ a.ids
  owned_iff : ∀ c i, i ∈ a.owned c ↔ (i, c) ∈ a.tags

variable (k : Kernel)

namespace Linked

variable {s s' t : State} {a b : Sched} {i : ℕ} {c : Field}

lemma fresh_notMem (h : Linked s a) : a.fresh ∉ a.ids := fun hmem =>
  (h.fresh _ hmem).ne rfl

lemma mem_ids_of_owned (h : Linked s a) (hi : i ∈ a.owned c) : i ∈ a.ids :=
  Sched.mem_ids_iff.mpr ⟨c, (h.owned_iff c i).mp hi⟩

/-- A routine that works on the device side only and keeps the exposures of the queue. -/
lemma of_dev (h : Linked s a) (hd : DevLinked s' b) (hf : ClientFrame s s')
    (htags : b.tags = a.tags) (howned : b.owned = a.owned) : Linked s' b where
  toDevLinked := hd
  clients c := by
    rw [hf.list, howned]
    exact (h.clients c).congr fun i _ => hf.links.clientNextOf_eq i
  live i e he := by
    have hne : s.heap i ≠ none := by
      rw [Ne, ← hf.links.eq_none_iff i, he]
      simp
    obtain ⟨e', he'⟩ := Option.ne_none_iff_exists'.mp hne
    rw [← Sched.tags_ids, htags, Sched.tags_ids]
    exact h.live i e' he'
  owned_iff c i := by
    rw [howned, htags]
    exact h.owned_iff c i

/-! ## The timer -/

lemma complete_exposure (h : Linked s a) :
    ∃ s', complete_exposure s = some s' ∧ Linked s' a.expire := by
  have htimer : s.exposure_timer = a.exposure_timer := congrArg Core.exposure_timer h.core
  have hexp : s.exposure = a.exposure := congrArg Core.exposure h.core
  simp only [Ccd.complete_exposure, Sched.expire, htimer, hexp]
  by_cases hnone : a.exposure_timer = none
  · rw [if_pos hnone, if_pos hnone]
    exact ⟨s, rfl, h⟩
  rw [if_neg hnone, if_neg hnone]
  have hoops : Linked { s with toCore := s.toCore.del_timer.oops }
      { a with toCore := a.toCore.del_timer.oops } :=
    h.of_dev ⟨by simp only [h.core], h.chain, h.holds, h.fresh⟩ ⟨rfl, .refl _⟩ rfl rfl
  have hstop : DevLinked { s with toCore := s.toCore.del_timer }
      { a with toCore := a.toCore.del_timer } :=
    ⟨by simp only [h.core], h.chain, h.holds, h.fresh⟩
  cases a.exposure with
  | none => exact ⟨_, rfl, hoops⟩
  | some i =>
    by_cases hi : i ∈ a.ids
    · have hne : s.heap i ≠ none := by
        rw [← Option.isSome_iff_ne_none]
        exact h.isSome hi
      simp only [if_neg hne, if_pos hi]
      obtain ⟨s', hs', hd, hf⟩ := hstop.finish_exposure hi
      refine ⟨s', hs', h.of_dev hd ⟨hf.list, hf.links⟩ ?_ ?_⟩
      · rw [Sched.finish_tags]
        rfl
      · rw [Sched.finish_owned]
    · have heq : s.heap i = none := by
        by_contra hne
        obtain ⟨e, he⟩ := Option.ne_none_iff_exists'.mp hne
        exact hi (h.live i e he)
      simp only [if_pos heq, if_neg hi]
      exact ⟨_, rfl, hoops⟩

/-! ## Freeing an exposure -/

/-- An exposure has one client. -/
lemma client_unique (h : Linked s a) {c' : Field} (hc : i ∈ a.owned c) (hc' : i ∈ a.owned c') :
    c' = c := by
  have hnd : (a.tags.map Prod.fst).Nodup := by
    rw [Sched.tags_ids]
    exact h.chain.nodup
  have heq := List.inj_on_of_nodup_map hnd ((h.owned_iff c' i).mp hc')
    ((h.owned_iff c i).mp hc) rfl
  exact congrArg Prod.snd heq

/-- An exposure that has left the device list and its client's list is freed. -/
lemma free (h : Linked s a) (hi : i ∈ a.owned c) (hd : DevLinked s' (a.del k i))
    (hlist : ∀ c', c' ≠ c → s'.client_list c' = s.client_list c')
    (hlinks : ∀ c', c' ≠ c → ∀ j ∈ a.owned c', clientNextOf s'.heap j = clientNextOf s.heap j)
    (hsome : ∀ j, s'.heap j = none ↔ s.heap j = none) {l : List ℕ}
    (hc : Chain (clientNextOf s'.heap) (s'.client_list c) l)
    (hl : ∀ j, j ∈ l ↔ j ∈ a.owned c ∧ j ≠ i) :
    Linked { s' with heap := Function.update s'.heap i none }
      { a.del k i with owned := Function.update (a.del k i).owned c l } := by
  have htags := Sched.del_tags k h.chain.nodup i
  have hids : ∀ j, j ∈ (a.del k i).ids ↔ j ∈ a.ids ∧ j ≠ i := by
    intro j
    rw [Sched.mem_ids_iff, Sched.mem_ids_iff, htags]
    simp only [List.mem_filter, decide_not, Bool.not_eq_eq_eq_not, Bool.not_true,
      decide_eq_false_iff_not]
    constructor
    · rintro ⟨c', hmem, hj⟩
      exact ⟨⟨c', hmem⟩, hj⟩
    · rintro ⟨⟨c', hmem⟩, hj⟩
      exact ⟨c', hmem, hj⟩
  have hoff : ∀ j, j ≠ i → (Function.update s'.heap i none) j = s'.heap j :=
    fun j hj => Function.update_of_ne hj _ _
  refine ⟨⟨hd.core, ?_, ?_, hd.fresh⟩, ?_, ?_, ?_⟩
  · refine hd.chain.congr fun j hj => ?_
    simp only [nextOf, hoff j ((hids j).mp hj).2]
  · refine hd.holds.congr fun x hx => hoff x.1 ?_
    exact ((hids x.1).mp (List.mem_map_of_mem hx)).2
  · intro c'
    by_cases hcc : c' = c
    · subst hcc
      simp only [Function.update_self]
      refine hc.congr fun j hj => ?_
      simp only [clientNextOf, hoff j ((hl j).mp hj).2]
    · simp only [Function.update_of_ne hcc, Sched.del_owned, hlist c' hcc]
      refine (h.clients c').congr fun j hj => ?_
      rw [← hlinks c' hcc j hj]
      have hji : j ≠ i := by
        rintro rfl
        exact hcc (h.client_unique hi hj)
      simp only [clientNextOf, hoff j hji]
  · intro j e he
    have hji : j ≠ i := by
      rintro rfl
      simp at he
    have he' : Function.update s'.heap i none j = some e := he
    rw [hoff j hji] at he'
    have hne : s.heap j ≠ none := by
      rw [Ne, ← hsome j, he']
      simp
    obtain ⟨e', he'⟩ := Option.ne_none_iff_exists'.mp hne
    exact (hids j).mpr ⟨h.live j e' he', hji⟩
  · intro c' j
    have hmem : (j, c') ∈ (a.del k i).tags ↔ (j, c') ∈ a.tags ∧ j ≠ i := by
      rw [htags]
      simp
    show j ∈ Function.update (a.del k i).owned c l c' ↔ (j, c') ∈ (a.del k i).tags
    rw [hmem, ← h.owned_iff c' j]
    by_cases hcc : c' = c
    · subst hcc
      rw [Function.update_self, hl]
    · rw [Function.update_of_ne hcc, Sched.del_owned]
      refine ⟨fun hj => ⟨hj, ?_⟩, And.left⟩
      rintro rfl
      exact hcc (h.client_unique hi hj)

/-- One iteration of the loop that drops a client's exposures. -/
lemma drop_one {l : List ℕ} (h : Linked s a) (ho : a.owned c = i :: l) :
    ∃ s₁ e, del_exposure k i s = some s₁ ∧ s₁.heap i = some e ∧
      Linked { s₁ with
          client_list := Function.update s₁.client_list c e.client_next
          heap := Function.update s₁.heap i none }
        ((a.del k i).pop c) := by
  have hi : i ∈ a.owned c := by simp [ho]
  obtain ⟨s₁, hs₁, hd, hf⟩ := h.del_exposure k (h.mem_ids_of_owned hi)
  obtain ⟨e₀, he₀⟩ := Option.isSome_iff_exists.mp (h.isSome (h.mem_ids_of_owned hi))
  obtain ⟨e, he, hnext⟩ := hf.links.eq_some he₀
  have hnext' : e.client_next = e₀.client_next := congrArg Prod.fst hnext
  have hchain := h.clients c
  rw [ho] at hchain
  refine ⟨s₁, e, hs₁, he, ?_⟩
  have hpop : (a.del k i).pop c
      = { a.del k i with owned := Function.update (a.del k i).owned c l } := by
    simp only [Sched.pop, Sched.del_owned, ho, List.tail_cons]
  rw [hpop]
  refine @free k _ { s₁ with client_list := Function.update s₁.client_list c e.client_next } _ _ _ h
    hi ⟨hd.core, hd.chain, hd.holds, hd.fresh⟩ ?_ ?_ ?_ _ ?_ ?_
  · intro c' hcc
    simp only [Function.update_of_ne hcc, hf.list]
  · intro c' _ j _
    exact hf.links.clientNextOf_eq j
  · exact hf.links.eq_none_iff
  · simp only [Function.update_self]
    have htail := hchain.2
    rw [show clientNextOf s.heap i = e₀.client_next by simp [clientNextOf, he₀], ← hnext']
      at htail
    exact htail.congr fun j _ => hf.links.clientNextOf_eq j
  · intro j
    have hnd := (List.nodup_cons.mp hchain.nodup).1
    rw [ho, List.mem_cons]
    constructor
    · intro hj
      exact ⟨Or.inr hj, fun hji => hnd (hji ▸ hj)⟩
    · rintro ⟨hj | hj, hne⟩
      · exact absurd hj hne
      · exact hj

lemma drop_exposures {l : List ℕ} {n : ℕ} (h : Linked s a) (ho : a.owned c = l)
    (hn : l.length < n) :
    ∃ s', drop_exposures k c n s = some s' ∧ Linked s' (a.drop k c l) := by
  induction l generalizing s a n with
  | nil =>
    obtain ⟨m, rfl⟩ : ∃ m, n = m + 1 := ⟨n - 1, by omega⟩
    have hnone := h.clients c
    rw [ho, Chain.nil_iff] at hnone
    exact ⟨s, by rw [Ccd.drop_exposures, hnone], h⟩
  | cons i l ih =>
    obtain ⟨m, rfl⟩ : ∃ m, n = m + 1 := ⟨n - 1, by omega⟩
    have hsome := h.clients c
    rw [ho, Chain.cons_iff] at hsome
    obtain ⟨s₁, e, hs₁, he, h₁⟩ := h.drop_one k ho
    have ho₁ : ((a.del k i).pop c).owned c = l := by
      simp [Sched.pop, ho]
    obtain ⟨s', hs', h'⟩ := ih h₁ ho₁ (by simp at hn; omega)
    refine ⟨s', ?_, h'⟩
    simp only [Ccd.drop_exposures, hsome.1, hs₁, Option.bind_eq_bind, Option.bind_some, he]
    exact hs'

/-! ## Aborting -/

end Linked

@[simp] lemma Sched.markAborted_map {β : Type*} (f : ℕ × Params → β)
    (hf : ∀ i p z, f (i, { p with complete := z }) = f (i, p)) (i : ℕ)
    (q : List (ℕ × Params)) : (Sched.markAborted i q).map f = q.map f := by
  rw [Sched.markAborted, List.map_map]
  refine List.map_congr_left fun x _ => ?_
  show f (if x.1 = i ∧ x.2.complete = 0 then _ else x) = f x
  split
  · exact hf _ _ _
  · rfl

/-- Marking the exposure in cell `i` as aborted. -/
lemma Holds.markAborted {h : Heap} {q : List (ℕ × Params)} {i : ℕ} {e : Exposure}
    (hh : Holds h q) (he : h i = some e) :
    Holds (if e.complete = 0 then Function.update h i (some { e with complete := -1 }) else h)
      (Sched.markAborted i q) := by
  intro y hy
  obtain ⟨x, hx, rfl⟩ := List.mem_map.mp hy
  obtain ⟨f, hf, hfx⟩ := hh x hx
  by_cases hxi : x.1 = i
  · subst hxi
    obtain rfl : e = f := by simpa [he] using hf
    by_cases hcomp : e.complete = 0
    · refine ⟨{ e with complete := -1 }, ?_, ?_⟩ <;> simp [hcomp, ← hfx]
    · refine ⟨e, ?_, ?_⟩ <;> simp [hcomp, ← hfx, he]
  · refine ⟨f, ?_, ?_⟩
    · split
      · simp [hxi, hf]
      · simp [hxi, hf]
    · simp [hxi, hfx]

namespace Linked

variable {s s' t : State} {a b : Sched} {i : ℕ} {c : Field}

lemma abort_mark (h : Linked s a) :
    ∃ s', abort_mark c s = some s' ∧ Linked s' (a.mark c) := by
  have hc := h.clients c
  cases ho : a.owned c with
  | nil =>
    rw [ho, Chain.nil_iff] at hc
    refine ⟨s, ?_, ?_⟩
    · rw [Ccd.abort_mark, hc]
    · rw [Sched.mark, ho]
      exact h
  | cons i l =>
    rw [ho, Chain.cons_iff] at hc
    have hi : i ∈ a.ids := h.mem_ids_of_owned (by rw [ho]; exact List.mem_cons_self)
    obtain ⟨e, he⟩ := Option.isSome_iff_exists.mp (h.isSome hi)
    have hmark : a.mark c = { a with toCore := a.stopRead i, queue := Sched.markAborted i a.queue } := by
      rw [Sched.mark, ho]
    have hids : (Sched.markAborted i a.queue).map Prod.fst = a.ids :=
      Sched.markAborted_map _ (fun _ _ _ => rfl) i a.queue
    have hcore : (if s.exposure_list = some i ∧ s.current_read_row ≠ CCD_END_FRAME_LOAD then
        (if s.current_read_row ≠ CCD_START_FRAME_LOAD then
          (s.toCore.call (.control CCD_CTRL_CMD_RESET 0)).call (.end_read e.flags)
        else s.toCore).set_row CCD_END_FRAME_LOAD
      else s.toCore) = a.stopRead i := by
      cases hq : a.queue with
      | nil => simp [Sched.ids, hq] at hi
      | cons x rest =>
        obtain ⟨j, p⟩ := x
        have hel : s.exposure_list = some j := by
          have hch := h.chain
          rw [Sched.ids, hq] at hch
          exact hch.1
        simp only [Sched.stopRead, hq, hel, Option.some.injEq, h.core]
        by_cases hji : j = i
        · subst hji
          have hh := h.holds
          rw [hq] at hh
          obtain ⟨f, hf, rfl⟩ := hh.head
          obtain rfl : e = f := by simpa [he] using hf
          rfl
        · simp only [hji, false_and, if_false]
    rw [hmark]
    refine ⟨?s', ?run, h.of_dev ⟨?_, ?_, ?_, ?_⟩ ⟨?_, ?_⟩ ?_ rfl⟩
    case run =>
      rw [Ccd.abort_mark, hc.1]
      simp only [he, Option.bind_eq_bind, Option.bind_some]
      rfl
    · exact hcore
    · rw [Sched.ids, hids]
      show Chain (nextOf (if e.complete = 0 then _ else s.heap)) s.exposure_list a.ids
      split
      · exact chain_update_same h.chain he rfl
      · exact h.chain
    · exact h.holds.markAborted he
    · intro j hj
      rw [Sched.ids, hids] at hj
      have hfresh : (a.stopRead i).fresh = a.fresh := by
        unfold Sched.stopRead
        split
        · rfl
        · split
          · split <;> rfl
          · rfl
      show j < (a.stopRead i).fresh
      rw [hfresh]
      exact h.fresh j hj
    · rfl
    · show SameClient s.heap (if e.complete = 0 then _ else s.heap)
      split
      · exact (SameClient.refl _).update he rfl
      · exact .refl _
    · exact Sched.markAborted_map _ (fun _ _ _ => rfl) i a.queue

/-- A change of the core alone. -/
lemma set_core (h : Linked s a) {x : Core} (hx : x.fresh = a.fresh) :
    Linked { s with toCore := x } { a with toCore := x } := by
  refine h.of_dev ⟨rfl, h.chain, h.holds, ?_⟩ ⟨rfl, .refl _⟩ rfl rfl
  intro j hj
  show j < x.fresh
  rw [hx]
  exact h.fresh j hj

/-- A client has no more exposures than were ever allocated. -/
lemma owned_length_le (h : Linked s a) (c : Field) : (a.owned c).length ≤ a.fresh := by
  have hsub : a.owned c ⊆ List.range a.fresh := fun i hi =>
    List.mem_range.mpr (h.fresh i (h.mem_ids_of_owned hi))
  simpa using ((h.clients c).nodup.subperm hsub).length_le

lemma abort_exposures (h : Linked s a) :
    ∃ s', abort_exposures k c s = some s' ∧ Linked s' (a.abort k c) := by
  obtain ⟨s₁, hs₁, h₁⟩ := h.abort_mark (c := c)
  have ho : (a.mark c).owned c = a.owned c := by
    rw [Sched.mark]
    split <;> rfl
  have hfresh : s₁.fresh = (a.mark c).fresh := congrArg Core.fresh h₁.core
  have hlen := h₁.owned_length_le c
  obtain ⟨s₂, hs₂, h₂⟩ := h₁.drop_exposures k ho (n := s₁.fresh + 1) (by rw [← ho]; omega)
  refine ⟨{ s₂ with toCore := s₂.toCore.set_client c { s₂.clients c with out_buf_len := 0 } },
    ?_, ?_⟩
  · simp only [Ccd.abort_exposures, hs₁, Option.bind_eq_bind, Option.bind_some, hs₂]
  · rw [h₂.core]
    exact h₂.set_core rfl

/-! ## The end of a frame -/

end Linked

/-- The device side of an exposure record. -/
def Exposure.devSide (e : Exposure) : Params × Option ℕ := (e.toParams, e.next)

/-- A routine that works on a client list leaves the device side alone. -/
structure DevFrame (s s' : State) : Prop where
  core : s'.toCore = s.toCore
  list : s'.exposure_list = s.exposure_list
  cells : ∀ i, (s'.heap i).map Exposure.devSide = (s.heap i).map Exposure.devSide

lemma DevFrame.eq_none_iff {s s' : State} (hf : DevFrame s s') (i : ℕ) :
    s'.heap i = none ↔ s.heap i = none := by
  rw [← Option.map_eq_none_iff, hf.cells i, Option.map_eq_none_iff]

lemma DevLinked.of_frame {s s' : State} {a : Sched} (h : DevLinked s a) (hf : DevFrame s s') :
    DevLinked s' a := by
  have hnext : nextOf s'.heap = nextOf s.heap := by
    funext i
    have hi := congrArg (Option.bind · Prod.snd) (hf.cells i)
    simp only [Option.bind_map] at hi
    exact hi
  refine ⟨hf.core.trans h.core, ?_, ?_, h.fresh⟩
  · rw [hf.list, hnext]
    exact h.chain
  · intro x hx
    obtain ⟨e, he, hex⟩ := h.holds x hx
    have hi := hf.cells x.1
    rw [he, Option.map_some, Option.map_eq_some_iff] at hi
    obtain ⟨e', he', heq⟩ := hi
    exact ⟨e', he', (congrArg Prod.fst heq).trans hex⟩

/-- `client_unlink` takes an exposure off the list of its client. -/
lemma client_unlink_spec {s : State} {i : ℕ} {e : Exposure} {l : List ℕ}
    (he : s.heap i = some e) (hi : i ∈ l)
    (hc : Chain (clientNextOf s.heap) (s.client_list e.client) l)
    (hcell : ∀ j ∈ l, (s.heap j).isSome) (hn : l.length ≤ s.fresh) :
    ∃ s', client_unlink i s = some s' ∧ DevFrame s s' ∧
      (∀ c, c ≠ e.client → s'.client_list c = s.client_list c) ∧
      (∀ j ∉ l, clientNextOf s'.heap j = clientNextOf s.heap j) ∧
      Chain (clientNextOf s'.heap) (s'.client_list e.client) (l.erase i) := by
  have hnd := hc.nodup
  have hnext : clientNextOf s.heap i = e.client_next := by simp [clientNextOf, he]
  by_cases hfirst : s.client_list e.client = some i
  · cases l with
    | nil => simp at hi
    | cons j l =>
      obtain rfl : i = j := by simpa [hfirst] using hc.1
      refine ⟨{ s with
        client_list := Function.update s.client_list e.client e.client_next },
        ?_, ⟨rfl, rfl, fun _ => rfl⟩, ?_, fun _ _ => rfl, ?_⟩
      · simp only [client_unlink, he, Option.bind_eq_bind, Option.bind_some, if_pos hfirst]
      · intro c hcc
        exact Function.update_of_ne hcc _ _
      · rw [List.erase_cons_head]
        show Chain (clientNextOf s.heap)
          (Function.update s.client_list e.client e.client_next e.client) l
        rw [Function.update_self, ← hnext]
        exact hc.2
  · obtain ⟨u, v, rfl⟩ := List.append_of_mem hi
    rcases List.eq_nil_or_concat u with rfl | ⟨u, b, rfl⟩
    · exact absurd hc.1 hfirst
    simp only [List.concat_eq_append, List.append_assoc, List.singleton_append] at *
    have hiu : i ∉ u ++ [b] := by
      intro hmem
      rw [List.append_cons] at hnd
      exact List.disjoint_of_nodup_append hnd hmem List.mem_cons_self
    have hfind : find_prev Exposure.client_next s.heap i (s.fresh + 1)
        (s.client_list e.client) = some (some b) :=
      find_prev_spec hc hcell (by simp at hn; omega)
    obtain ⟨p, hp⟩ := Option.isSome_iff_exists.mp (hcell b (by simp))
    refine ⟨{ s with
      heap := Function.update s.heap b (some { p with client_next := e.client_next }) },
      ?_, ⟨rfl, rfl, ?_⟩, fun _ _ => rfl, ?_, ?_⟩
    · simp only [client_unlink, he, Option.bind_eq_bind, Option.bind_some, if_neg hfirst,
        hfind, hp]
    · intro j
      by_cases hj : j = b
      · subst hj
        simp [hp, Exposure.devSide]
      · simp [hj]
    · intro j hj
      have hjb : j ≠ b := by
        rintro rfl
        simp at hj
      simp [clientNextOf, hjb]
    · have hunlink := Chain.unlink hc
      rw [hnext, ← clientNextOf_update (h := s.heap) (i := b)
        (e := { p with client_next := e.client_next })] at hunlink
      have herase : (u ++ b :: i :: v).erase i = u ++ b :: v := by
        rw [List.append_cons, List.erase_append_right _ hiu, List.erase_cons_head,
          ← List.append_cons]
      rw [herase]
      exact hunlink

namespace Linked

variable {s s' t : State} {a b : Sched} {i : ℕ} {c : Field}

lemma end_frame {p : Params} {rest : List (ℕ × Params)} (h : Linked s a)
    (hq : a.queue = (i, p) :: rest) :
    ∃ s', end_frame k i s = some s' ∧ Linked s' (a.endFrame k i p) := by
  have hh := h.holds
  rw [hq] at hh
  obtain ⟨e, he, rfl⟩ := hh.head
  have hi : i ∈ a.owned e.client := by
    rw [h.owned_iff, Sched.tags, hq]
    exact List.mem_cons_self
  -- the frame is over: the mini-driver is told, then the lists change
  have h₁ := h.set_core (x := (a.toCore.call (.end_read e.flags)).set_row CCD_END_FRAME_LOAD)
    rfl
  obtain ⟨s₂, hs₂, hd, hf⟩ := h₁.del_exposure k (h.mem_ids_of_owned hi)
  obtain ⟨e₂, he₂, hside⟩ := hf.links.eq_some he
  have hclient : e₂.client = e.client := congrArg Prod.snd hside
  have hchain : Chain (clientNextOf s₂.heap) (s₂.client_list e₂.client) (a.owned e.client) := by
    rw [hf.list, hclient]
    exact (h.clients e.client).congr fun j _ => hf.links.clientNextOf_eq j
  have hcell : ∀ j ∈ a.owned e.client, (s₂.heap j).isSome := by
    intro j hj
    have hjs : s.heap j ≠ none :=
      Option.isSome_iff_ne_none.mp (h.isSome (h.mem_ids_of_owned hj))
    rw [Option.isSome_iff_ne_none, Ne, hf.links.eq_none_iff j]
    exact hjs
  have hlen : (a.owned e.client).length ≤ s₂.fresh := by
    have hfresh : s₂.fresh = _ := congrArg Core.fresh hd.core
    rw [hfresh, Sched.del_fresh]
    exact h.owned_length_le e.client
  obtain ⟨s₃, hs₃, hdf, hlist, hlinks, hc⟩ := client_unlink_spec he₂ hi hchain hcell hlen
  rw [hclient] at hlist hc
  refine ⟨{ s₃ with heap := Function.update s₃.heap i none }, ?_, ?_⟩
  · simp only [Ccd.end_frame, he, Option.bind_eq_bind, Option.bind_some, h.core, hs₂, hs₃]
  · have hfree := h₁.free k hi (hd.of_frame hdf)
      (fun c' hcc => (hlist c' hcc).trans (congrFun hf.list c'))
      (fun c' hcc j hj => ?_) (fun j => ?_) hc (fun j => ?_)
    · simp only [Sched.del_owned] at hfree
      simp only [Sched.endFrame, Sched.del_owned]
      exact hfree
    · have hnot : j ∉ a.owned e.client := fun hmem => hcc (h.client_unique hmem hj)
      rw [hlinks j hnot]
      exact hf.links.clientNextOf_eq j
    · rw [hdf.eq_none_iff j]
      exact hf.links.eq_none_iff j
    · rw [(h.clients e.client).nodup.mem_erase_iff, and_comm]

end Linked

/-! ## New exposures -/

lemma lastEnd_snoc (t l : ℕ) (p : Params) (q : List (ℕ × Params)) :
    lastEnd t (q ++ [(l, p)]) = p.end_ := by
  induction q generalizing t with
  | nil => rfl
  | cons x q ih => exact ih x.2.end_

namespace DevLinked

variable {s : State} {a : Sched} {e : Exposure} {x : Core}

/-- The new exposure, in the free cell `i`, goes to the end of the queue. -/
lemma hang {i l : ℕ} {g : Exposure} {p : Params} {pre : List (ℕ × Params)}
    (h : DevLinked s a) (hq : a.queue = pre ++ [(l, p)]) (hg : s.heap l = some g)
    (hi : i = a.fresh) (he : e.next = none) (hx : x.fresh = a.fresh + 1)
    (cl : Field → Option ℕ) (ow : Field → List ℕ) :
    DevLinked
      { toCore := x
        exposure_list := s.exposure_list
        client_list := cl
        heap := Function.update (Function.update s.heap i (some e)) l
          (some { g with next := some i }) }
      { toCore := x, queue := a.queue ++ [(i, e.toParams)], owned := ow } := by
  have hin : i ∉ a.ids := fun hmem => absurd (h.fresh i hmem) (by omega)
  have hc := h.chain
  have hnd := hc.nodup
  simp only [Sched.ids, hq, List.map_append, List.map_cons, List.map_nil] at hc hin hnd
  have hil : i ≠ l := by
    rintro rfl
    simp at hin
  refine ⟨rfl, ?_, ?_, ?_⟩
  · simp only [Sched.ids, hq, List.map_append, List.map_cons, List.map_nil, nextOf_update,
      he, List.append_assoc, List.singleton_append]
    exact hc.snoc hin
  · intro y hy
    rcases List.mem_append.mp hy with hy | hy
    · obtain ⟨f, hf, hfy⟩ := h.holds y hy
      have hlt : y.1 < a.fresh := h.fresh y.1 (List.mem_map_of_mem hy)
      have hyi : y.1 ≠ i := by omega
      by_cases hyl : y.1 = l
      · refine ⟨{ g with next := some i }, ?_, ?_⟩
        · simp [hyl]
        · rw [hyl, hg] at hf
          cases hf
          exact hfy
      · refine ⟨f, ?_, hfy⟩
        simp [hyl, hyi, hf]
    · rw [List.mem_singleton.mp hy]
      exact ⟨e, by simp [hil], rfl⟩
  · intro j hj
    show j < x.fresh
    simp only [Sched.ids, List.map_append, List.mem_append, List.map_cons, List.map_nil,
      List.mem_singleton] at hj
    rcases hj with hj | rfl
    · have := h.fresh j hj
      omega
    · omega

/-- The new exposure, in the free cell `i`, goes to the front of the queue. -/
lemma front {i : ℕ} (h : DevLinked s a) (hi : i = a.fresh) (he : e.next = s.exposure_list)
    (hx : x.fresh = a.fresh + 1) (cl : Field → Option ℕ) (ow : Field → List ℕ) :
    DevLinked
      { toCore := x
        exposure_list := some i
        client_list := cl
        heap := Function.update s.heap i (some e) }
      { toCore := x, queue := (i, e.toParams) :: a.queue, owned := ow } := by
  have hin : i ∉ a.ids := fun hmem => absurd (h.fresh i hmem) (by omega)
  refine ⟨rfl, ?_, ?_, ?_⟩
  · simp only [Sched.ids, List.map_cons, nextOf_update, he]
    exact h.chain.push hin
  · exact .cons (Function.update_self ..) rfl (h.holds.update_of_notMem hin)
  · intro j hj
    show j < x.fresh
    rcases List.mem_cons.mp hj with rfl | hj
    · omega
    · have := h.fresh j hj
      omega

end DevLinked

/-- A new exposure is in the queue with its client, and the others stay. -/
lemma Sched.new_tags (c : Field) (msg : Msg) (a : Sched) :
    (a.new k c msg).tags.Perm ((a.fresh, c) :: a.tags) := by
  rcases Sched.new_cases k a c msg rfl with ⟨hq, hn⟩ | ⟨j, h, hq, -, -, hn⟩ |
    ⟨j, h, hq, -, -, hn⟩ | ⟨j, h, rest, hq, -, hn⟩
  · rw [hn]
    simp [Sched.tags, Sched.start, hq, Params.after, request]
  · rw [hn]
    simp [Sched.tags, hq, Params.after, request]
  · rw [hn]
    simp [Sched.tags, hq, Params.after, request, List.Perm.swap]
  · rw [hn]
    simp only [Sched.tags, List.map_append]
    exact List.perm_append_comm

lemma Sched.new_owned (c : Field) (msg : Msg) (a : Sched) :
    (a.new k c msg).owned = Function.update a.owned c (a.fresh :: a.owned c) := by
  rcases Sched.new_cases k a c msg rfl with ⟨hq, hn⟩ | ⟨j, h, hq, -, -, hn⟩ |
    ⟨j, h, hq, -, -, hn⟩ | ⟨j, h, rest, hq, -, hn⟩ <;> rw [hn] <;> rfl

namespace Linked

variable {s s' t : State} {a b : Sched} {i : ℕ} {c : Field}

/-- The client side of a new exposure: it becomes the newest of client `c`. -/
lemma of_new {e : Exposure} {msg : Msg} (h : Linked s a)
    (hd : DevLinked s' (a.new k c msg))
    (hlist : s'.client_list = Function.update s.client_list c (some a.fresh))
    (hcells : SameClient (Function.update s.heap a.fresh (some e)) s'.heap)
    (he : e.client_next = s.client_list c) : Linked s' (a.new k c msg) := by
  have hlink : clientNextOf s'.heap
      = Function.update (clientNextOf s.heap) a.fresh (s.client_list c) := by
    funext j
    rw [hcells.clientNextOf_eq j, clientNextOf_update, he]
  have hnot : ∀ c', a.fresh ∉ a.owned c' := fun c' hmem =>
    h.fresh_notMem (h.mem_ids_of_owned hmem)
  refine ⟨hd, ?_, ?_, ?_⟩
  · intro c'
    rw [hlist, hlink, Sched.new_owned]
    by_cases hcc : c' = c
    · subst hcc
      rw [Function.update_self, Function.update_self]
      exact (h.clients c').push (hnot c')
    · rw [Function.update_of_ne hcc, Function.update_of_ne hcc]
      exact (h.clients c').update_of_notMem (hnot c')
  · intro j f hf
    rw [← Sched.tags_ids, ((Sched.new_tags k c msg a).map Prod.fst).mem_iff, List.map_cons,
      Sched.tags_ids]
    by_cases hj : j = a.fresh
    · simp [hj]
    · have hne : s.heap j ≠ none := by
        have hiff := hcells.eq_none_iff j
        rw [Function.update_of_ne hj] at hiff
        rw [Ne, ← hiff, hf]
        simp
      obtain ⟨f', hf'⟩ := Option.ne_none_iff_exists'.mp hne
      exact List.mem_cons_of_mem _ (h.live j f' hf')
  · intro c' j
    rw [(Sched.new_tags k c msg a).mem_iff, Sched.new_owned, List.mem_cons, ← h.owned_iff]
    by_cases hcc : c' = c
    · subst hcc
      rw [Function.update_self]
      simp
    · rw [Function.update_of_ne hcc]
      simp [hcc]

/-- The first exposure of the queue as the device list has it. -/
lemma head_cell {j : ℕ} {g : Params} {rest : List (ℕ × Params)} (h : Linked s a)
    (hq : a.queue = (j, g) :: rest) :
    ∃ f, s.heap j = some f ∧ f.toParams = g ∧ s.exposure_list = some j ∧
      (f.next = none ↔ rest = []) := by
  have hh := h.holds
  have hc := h.chain
  rw [hq] at hh
  obtain ⟨f, hf, hfg⟩ := hh.head
  rw [Sched.ids, hq, List.map_cons, Chain.cons_iff, nextOf_of_eq hf] at hc
  refine ⟨f, hf, hfg, hc.1, ?_⟩
  cases rest with
  | nil => simpa using hc.2
  | cons x rest =>
    have hx : f.next = some x.1 := hc.2.1
    simp [hx]

/-- The last exposure of the queue is where the search for it ends. -/
lemma last_cell {j : ℕ} {g : Params} {rest : List (ℕ × Params)} (h : Linked s a)
    (hq : a.queue = (j, g) :: rest) :
    ∃ pre l p f, a.queue = pre ++ [(l, p)] ∧ lastEnd g.end_ rest = p.end_ ∧
      find_last s.heap (s.fresh + 1) j = some l ∧ s.heap l = some f ∧ f.toParams = p := by
  have hfr : s.fresh = a.fresh := congrArg Core.fresh h.core
  obtain ⟨pre, ⟨l, p⟩, hlast⟩ : ∃ pre x, a.queue = pre ++ [x] := by
    rcases List.eq_nil_or_concat a.queue with hnil | ⟨pre, x, hx⟩
    · simp [hnil] at hq
    · exact ⟨pre, x, by rw [hx, List.concat_eq_append]⟩
  have hend : lastEnd g.end_ rest = p.end_ := by
    have hl : lastEnd 0 a.queue = p.end_ := by rw [hlast, lastEnd_snoc]
    rw [hq] at hl
    exact hl
  obtain ⟨f, hf, hfp⟩ := h.holds (l, p) (by simp [hlast])
  have hc := h.chain
  have hel : s.exposure_list = some j := by
    rw [Sched.ids, hq] at hc
    exact hc.1
  have hcell : ∀ i ∈ pre.map Prod.fst ++ [l], (s.heap i).isSome := by
    intro i hi
    refine h.isSome ?_
    rw [Sched.ids, hlast]
    simpa using hi
  rw [Sched.ids, hlast, List.map_append, List.map_cons, List.map_nil, hel] at hc
  have hlen := h.length_le
  rw [hlast, List.length_append, List.length_singleton] at hlen
  have hfind := find_last_spec hc hcell (n := s.fresh + 1) (by rw [List.length_map]; omega)
  exact ⟨pre, l, p, f, hlast, hend, hfind, hf, hfp⟩

/-- The client side of a new record that is put into the free cell. -/
lemma same_new {e x : Exposure} (hx : x.clientSide = e.clientSide) (i : ℕ) (h : Heap) :
    SameClient (Function.update h i (some e)) (Function.update h i (some x)) := by
  have hup := (SameClient.refl (Function.update h i (some e))).update
    (Function.update_self ..) hx
  rwa [Function.update_idem] at hup

/-- Linking the new record behind the exposure in cell `l`. -/
lemma same_hang {e x g : Exposure} {l : ℕ} (h : Linked s a)
    (hx : x.clientSide = e.clientSide) (hl : l ∈ a.ids) (hg : s.heap l = some g) :
    SameClient (Function.update s.heap a.fresh (some e))
      (Function.update (Function.update s.heap a.fresh (some x)) l
        (some { g with next := some a.fresh })) := by
  refine (same_new hx a.fresh s.heap).update (e := g) ?_ rfl
  rw [Function.update_of_ne, hg]
  rintro rfl
  exact h.fresh_notMem hl

lemma new_exposure (msg : Msg) (h : Linked s a) :
    ∃ s', new_exposure k c msg s = some s' ∧ Linked s' (a.new k c msg) := by
  obtain ⟨p, hp⟩ : ∃ p, request a.geometry c msg = p := ⟨_, rfl⟩
  let e : Exposure := { p with next := none, client_next := s.client_list c }
  rcases Sched.new_cases k a c msg hp with ⟨hq, hn⟩ | ⟨j, g, hq, hov, hlt, hn⟩ |
    ⟨j, g, hq, hov, hle, hn⟩ | ⟨j, g, rest, hq, hov, hn⟩
  · -- the only exposure is started
    have hel : s.exposure_list = none := by
      have hc := h.chain
      rwa [Sched.ids, hq, List.map_nil, Chain.nil_iff] at hc
    have hd := h.front (e := e) (x := a.alloc) (i := a.fresh) rfl hel.symm rfl
      (Function.update s.client_list c (some a.fresh)) (a.issue c).owned
    rw [hq] at hd
    obtain ⟨s', hs', hd', hf'⟩ := hd.start_exposure k rfl
    refine ⟨s', ?_, h.of_new k (e := e) ?_ hf'.list hf'.links rfl⟩
    · simp only [Ccd.new_exposure, hp, hel, h.core]
      exact hs'
    · rw [hn]
      exact hd'
  · -- in front of the only exposure
    obtain ⟨f, hf, rfl, hel, hfn⟩ := h.head_cell hq
    have hcond : p.flags &&& CCD_NOWIPE_FRAME ≠ 0 ∧ p.flags &&& f.flags &&& CCD_FIELD_BOTH = 0
        ∧ f.next = none := ⟨hov.1, hov.2, hfn.mpr rfl⟩
    refine ⟨?front, ?frontRun, h.of_new k (e := e) ?_ ?_ ?_ rfl⟩
    case frontRun =>
      simp only [Ccd.new_exposure, hp, hel, h.core, hf, Option.bind_eq_bind,
        Option.bind_some, if_pos hcond, Function.update_idem]
      exact if_pos hlt
    · rw [hn]
      exact h.front (e := { p.after k (u32 a.jiffies) with
        next := some j, client_next := s.client_list c }) rfl hel.symm rfl _ _
    · rfl
    · refine same_new ?_ a.fresh s.heap
      rfl
  · -- behind the only exposure, and started at once
    obtain ⟨f, hf, rfl, hel, hfn⟩ := h.head_cell hq
    have hcond : p.flags &&& CCD_NOWIPE_FRAME ≠ 0 ∧ p.flags &&& f.flags &&& CCD_FIELD_BOTH = 0
        ∧ f.next = none := ⟨hov.1, hov.2, hfn.mpr rfl⟩
    refine ⟨?beside, ?besideRun, h.of_new k (e := e) ?_ ?_ ?_ rfl⟩
    case besideRun =>
      simp only [Ccd.new_exposure, hp, hel, h.core, hf, Option.bind_eq_bind,
        Option.bind_some, if_pos hcond, Function.update_idem]
      exact if_neg (Nat.not_lt.mpr hle)
    · rw [hn]
      have hd := h.hang (i := a.fresh) (x := (a.issue c).call (.new_frame a.fresh p.toFrame))
        (e := { p.after k (u32 a.jiffies) with next := none, client_next := s.client_list c })
        (show a.queue = [] ++ [_] from hq) hf rfl rfl rfl (Function.update s.client_list c (some a.fresh)) (a.issue c).owned
      rw [hel] at hd
      exact hd
    · rfl
    · refine h.same_hang ?_ (by simp [Sched.ids, hq]) hf
      rfl
  · -- behind the last exposure
    obtain ⟨f, hf, rfl, hel, hfn⟩ := h.head_cell hq
    obtain ⟨pre, l, w, y, hlast, hend, hfind, hy, rfl⟩ := h.last_cell hq
    have hcond : ¬ (p.flags &&& CCD_NOWIPE_FRAME ≠ 0 ∧
        p.flags &&& f.flags &&& CCD_FIELD_BOTH = 0 ∧ f.next = none) :=
      fun hc => hov ⟨⟨hc.1, hc.2.1⟩, hfn.mp hc.2.2⟩
    rw [show s.fresh = a.fresh from congrArg Core.fresh h.core] at hfind
    refine ⟨?last, ?lastRun, h.of_new k (e := e) ?_ ?_ ?_ rfl⟩
    case lastRun =>
      simp only [Ccd.new_exposure, hp, hel, h.core, hf, Option.bind_eq_bind,
        Option.bind_some, if_neg hcond, Function.update_idem, hfind, hy]
      rfl
    · rw [hn, hend]
      have hd := h.hang (i := a.fresh) (x := (a.issue c).toCore)
        (e := { p.after k y.end_ with next := none, client_next := s.client_list c })
        hlast hy rfl rfl rfl (Function.update s.client_list c (some a.fresh)) (a.issue c).owned
      rw [hel] at hd
      exact hd
    · rfl
    · refine h.same_hang ?_ (by simp [Sched.ids, hlast]) hy
      rfl

end Linked

end EspLinux.Ccd
