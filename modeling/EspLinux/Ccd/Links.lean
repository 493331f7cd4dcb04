import EspLinux.Ccd.Queue
import EspLinux.Lib.Chain

/-!
# The exposure lists refine the scheduler

The pointer routines of `Exposure`, started in a state whose lists represent a scheduler
state, come to an end and leave lists that represent the scheduler's next state.  The
relation `Linked` is the representation: the device list runs through the queue, every
client list through the client's exposures, and the allocated cells are exactly those in
the queue.
-/

namespace EspLinux.Ccd

open EspLinux.Lib

/-! ## Cells and links -/

/-- The device list's pointer out of cell `i`. -/
def nextOf (h : Heap) (i : ℕ) : Option ℕ := (h i).bind Exposure.next

/-- The client list's pointer out of cell `i`. -/
def clientNextOf (h : Heap) (i : ℕ) : Option ℕ := (h i).bind Exposure.client_next

/-- The heap holds the exposures of a queue. -/
def Holds (h : Heap) (q : List (ℕ × Params)) : Prop :=
  ∀ x ∈ q, ∃ e, h x.1 = some e ∧ e.toParams = x.2

/-- The client side of an exposure record. -/
def Exposure.clientSide (e : Exposure) : Option ℕ × Field := (e.client_next, e.client)

/-- Two heaps have the same cells with the same client sides. -/
def SameClient (h h' : Heap) : Prop :=
  ∀ i, (h' i).map Exposure.clientSide = (h i).map Exposure.clientSide

lemma SameClient.refl (h : Heap) : SameClient h h := fun _ => rfl

lemma SameClient.trans {h₁ h₂ h₃ : Heap} (h : SameClient h₁ h₂) (h' : SameClient h₂ h₃) :
    SameClient h₁ h₃ := fun i => (h' i).trans (h i)

lemma SameClient.update {h h' : Heap} {i : ℕ} {e e' : Exposure} (hs : SameClient h h')
    (he : h' i = some e) (hc : e'.clientSide = e.clientSide) :
    SameClient h (Function.update h' i (some e')) := by
  intro j
  by_cases hj : j = i
  · subst hj
    rw [Function.update_self, ← hs j, he, Option.map_some, Option.map_some, hc]
  · rw [Function.update_of_ne hj]
    exact hs j

lemma SameClient.clientNextOf_eq {h h' : Heap} (hs : SameClient h h') (i : ℕ) :
    clientNextOf h' i = clientNextOf h i := by
  have := hs i
  unfold clientNextOf
  cases h1 : h i <;> cases h2 : h' i <;> simp_all [Exposure.clientSide]

lemma SameClient.eq_some {h h' : Heap} (hs : SameClient h h') {i : ℕ} {e : Exposure}
    (he : h i = some e) : ∃ e', h' i = some e' ∧ e'.clientSide = e.clientSide := by
  have := hs i
  rw [he, Option.map_some, Option.map_eq_some_iff] at this
  exact this

lemma SameClient.eq_none_iff {h h' : Heap} (hs : SameClient h h') (i : ℕ) :
    h' i = none ↔ h i = none := by
  rw [← Option.map_eq_none_iff , hs i, Option.map_eq_none_iff]

lemma nextOf_update {h : Heap} {i : ℕ} {e : Exposure} :
    nextOf (Function.update h i (some e)) = Function.update (nextOf h) i e.next := by
  funext j
  by_cases hj : j = i
  · subst hj
    simp [nextOf]
  · simp [nextOf, hj]

lemma clientNextOf_update {h : Heap} {i : ℕ} {e : Exposure} :
    clientNextOf (Function.update h i (some e))
      = Function.update (clientNextOf h) i e.client_next := by
  funext j
  by_cases hj : j = i
  · subst hj
    simp [clientNextOf]
  · simp [clientNextOf, hj]

lemma nextOf_of_eq {h : Heap} {i : ℕ} {e : Exposure} (he : h i = some e) :
    nextOf h i = e.next := by
  simp [nextOf, he]

lemma nextOf_update_same {h : Heap} {i : ℕ} {e e' : Exposure} (he : h i = some e)
    (hn : e'.next = e.next) : nextOf (Function.update h i (some e')) = nextOf h := by
  rw [nextOf_update, hn, ← nextOf_of_eq he, Function.update_eq_self]

/-- Changing a cell without its `next` keeps the device list. -/
lemma chain_update_same {h : Heap} {i : ℕ} {e e' : Exposure} {p : Option ℕ} {l : List ℕ}
    (hc : Chain (nextOf h) p l) (he : h i = some e) (hn : e'.next = e.next) :
    Chain (nextOf (Function.update h i (some e'))) p l := by
  rw [nextOf_update_same he hn]
  exact hc

namespace Holds

variable {h : Heap} {q q' : List (ℕ × Params)} {i : ℕ} {p : Params}

lemma head (hh : Holds h ((i, p) :: q)) : ∃ e, h i = some e ∧ e.toParams = p :=
  hh (i, p) List.mem_cons_self

lemma tail {x : ℕ × Params} (hh : Holds h (x :: q)) : Holds h q :=
  fun y hy => hh y (List.mem_cons_of_mem x hy)

lemma cons {x : ℕ × Params} {e : Exposure} (he : h x.1 = some e) (hp : e.toParams = x.2)
    (hh : Holds h q) : Holds h (x :: q) := by
  intro y hy
  rcases List.mem_cons.mp hy with rfl | hy
  · exact ⟨e, he, hp⟩
  · exact hh y hy

/-- A heap that agrees on the cells of a queue holds it too. -/
lemma congr {h' : Heap} (hh : Holds h q) (heq : ∀ x ∈ q, h' x.1 = h x.1) : Holds h' q := by
  intro x hx
  obtain ⟨e, he, hp⟩ := hh x hx
  exact ⟨e, (heq x hx).trans he, hp⟩

lemma update_of_notMem {o : Option Exposure} (hh : Holds h q) (hi : i ∉ q.map Prod.fst) :
    Holds (Function.update h i o) q := by
  refine hh.congr fun x hx => Function.update_of_ne ?_ _ _
  rintro rfl
  exact hi (List.mem_map_of_mem hx)

lemma sublist (hh : Holds h q) (hs : ∀ x ∈ q', x ∈ q) : Holds h q' :=
  fun x hx => hh x (hs x hx)

end Holds

@[simp] lemma retime_ids (k : Kernel) (t : ℕ) (l : List (ℕ × Params)) :
    (retime k t l).map Prod.fst = l.map Prod.fst := by
  induction l generalizing t with
  | nil => rfl
  | cons x l ih => simp [retime, ih]

/-! ## Walking over the lists -/

variable (k : Kernel)

/-- `update_exposures` gives the exposures behind its argument new times and changes no
other cell. -/
lemma update_exposures_spec {h : Heap} {i : ℕ} {p : Params} {l : List (ℕ × Params)} {n : ℕ}
    (hc : Chain (nextOf h) (some i) (i :: l.map Prod.fst)) (hh : Holds h ((i, p) :: l))
    (hn : l.length < n) :
    ∃ h', update_exposures k n i h = some h' ∧ nextOf h' = nextOf h ∧ SameClient h h' ∧
      Holds h' (retime k p.end_ l) ∧ ∀ j ∉ l.map Prod.fst, h' j = h j := by
  induction l generalizing h i p n with
  | nil =>
    obtain ⟨m, rfl⟩ : ∃ m, n = m + 1 := ⟨n - 1, by omega⟩
    obtain ⟨e, he, -⟩ := hh.head
    have hnext : e.next = none := by
      rw [← nextOf_of_eq he]
      exact hc.2
    refine ⟨h, ?_, rfl, .refl h, ?_, fun j _ => rfl⟩
    · simp [update_exposures, he, hnext]
    · intro x hx
      simp [retime] at hx
  | cons y l ih =>
    obtain ⟨j, q⟩ := y
    obtain ⟨m, rfl⟩ : ∃ m, n = m + 1 := ⟨n - 1, by omega⟩
    obtain ⟨e, he, hep⟩ := hh.head
    obtain ⟨f, hf, hfq⟩ := hh.tail.head
    have hnd := hc.nodup
    have hnext : e.next = some j := by
      rw [← nextOf_of_eq he]
      exact hc.2.1
    -- the cell behind `i` gets its new times, the rest is the induction hypothesis
    set f' : Exposure :=
      { f with begin_ := e.end_, end_ := u32 (e.end_ + k.MSEC2JIFFY f.msec) } with hf'
    have hf'q : f'.toParams = q.after k p.end_ := by
      rw [hf', Params.after, ← hfq, ← hep]
    have hnx : nextOf (Function.update h j (some f')) = nextOf h := nextOf_update_same hf rfl
    have hjl : j ∉ l.map Prod.fst := by
      simp only [List.map_cons, List.nodup_cons] at hnd
      exact hnd.2.1
    have hcj : Chain (nextOf (Function.update h j (some f'))) (some j)
        (j :: l.map Prod.fst) := by
      rw [hnx]
      exact ⟨rfl, hc.2.2⟩
    have hhj : Holds (Function.update h j (some f')) ((j, q.after k p.end_) :: l) :=
      .cons (by simp) hf'q (hh.tail.tail.update_of_notMem hjl)
    obtain ⟨h', hrun, hnx', hsc, hhold, hkeep⟩ := ih hcj hhj (by simp at hn; omega)
    refine ⟨h', ?_, hnx'.trans hnx, ?_, ?_, ?_⟩
    · simp only [update_exposures, he, hnext, hf, Option.bind_eq_bind, Option.bind_some]
      exact hrun
    · have hup : SameClient h (Function.update h j (some f')) :=
        (SameClient.refl h).update hf rfl
      exact hup.trans hsc
    · refine .cons ?_ hf'q hhold
      rw [hkeep j hjl, Function.update_self]
    · intro i' hi'
      simp only [List.map_cons, List.mem_cons, not_or] at hi'
      rw [hkeep i' hi'.2, Function.update_of_ne hi'.1]

/-- The search for the cell in front of an inner cell of a list. -/
lemma find_prev_spec {link : Exposure → Option ℕ} {h : Heap} {p : Option ℕ} {b i : ℕ}
    {l₁ l₂ : List ℕ} {n : ℕ} (hc : Chain (fun j => (h j).bind link) p (l₁ ++ b :: i :: l₂))
    (hcell : ∀ j ∈ l₁ ++ b :: i :: l₂, (h j).isSome) (hn : l₁.length < n) :
    find_prev link h i n p = some (some b) := by
  have hnd := hc.nodup
  induction l₁ generalizing p n with
  | nil =>
    obtain ⟨m, rfl⟩ : ∃ m, n = m + 1 := ⟨n - 1, by omega⟩
    obtain ⟨rfl, hb, -⟩ := hc
    obtain ⟨e, he⟩ := Option.isSome_iff_exists.mp (hcell b (by simp))
    have hlink : link e = some i := by simpa [he] using hb
    simp [find_prev, he, hlink]
  | cons c l₁ ih =>
    obtain ⟨m, rfl⟩ : ∃ m, n = m + 1 := ⟨n - 1, by omega⟩
    obtain ⟨rfl, htail⟩ := hc
    obtain ⟨e, he⟩ := Option.isSome_iff_exists.mp (hcell c (by simp))
    have hlink : (fun j => (h j).bind link) c = link e := by simp [he]
    have hne : link e ≠ some i := by
      rw [← hlink]
      intro h2
      -- the cell behind `c` is not `i`, which comes later in the list
      rw [h2] at htail
      cases l₁ with
      | nil =>
        have hbi : i = b := by simpa using htail.1
        simp [hbi] at hnd
      | cons d l₁ =>
        have hdi : i = d := by simpa using htail.1
        simp [hdi] at hnd
    rw [hlink] at htail
    simp only [find_prev, he, Option.bind_eq_bind, Option.bind_some, if_neg hne]
    exact ih htail (fun j hj => hcell j (List.mem_cons_of_mem c hj)) (by simp at hn; omega)
      (List.nodup_cons.mp hnd).2

/-- The search for the last cell of the device list. -/
lemma find_last_spec {h : Heap} {l : List ℕ} {b i : ℕ} {n : ℕ}
    (hc : Chain (nextOf h) (some i) (l ++ [b])) (hcell : ∀ j ∈ l ++ [b], (h j).isSome)
    (hn : l.length < n) : find_last h n i = some b := by
  induction l generalizing i n with
  | nil =>
    obtain ⟨m, rfl⟩ : ∃ m, n = m + 1 := ⟨n - 1, by omega⟩
    obtain ⟨hib, hb⟩ := hc
    obtain rfl : i = b := by simpa using hib
    obtain ⟨e, he⟩ := Option.isSome_iff_exists.mp (hcell i (by simp))
    have hnext : e.next = none := by
      rw [← nextOf_of_eq he]
      exact hb
    simp [find_last, he, hnext]
  | cons c l ih =>
    obtain ⟨m, rfl⟩ : ∃ m, n = m + 1 := ⟨n - 1, by omega⟩
    obtain ⟨hic, htail⟩ := hc
    obtain rfl : i = c := by simpa using hic
    obtain ⟨e, he⟩ := Option.isSome_iff_exists.mp (hcell i (by simp))
    rw [nextOf_of_eq he] at htail
    obtain ⟨j, hj⟩ : ∃ j, e.next = some j := by
      cases l with
      | nil => exact ⟨b, htail.1⟩
      | cons d l => exact ⟨d, htail.1⟩
    rw [hj] at htail
    simp only [find_last, he, Option.bind_eq_bind, Option.bind_some, hj]
    exact ih htail (fun j hj => hcell j (List.mem_cons_of_mem i hj)) (by simp at hn; omega)

/-! ## The device side -/

/-- The device list of a state runs through the queue of a scheduler state. -/
structure DevLinked (s : State) (a : Sched) : Prop where
  core : s.toCore = a.toCore
  chain : Chain (nextOf s.heap) s.exposure_list a.ids
  holds : Holds s.heap a.queue
  fresh : ∀ i ∈ a.ids, i < a.fresh

/-- A routine that works on the device list leaves the client lists alone. -/
structure ClientFrame (s s' : State) : Prop where
  list : s'.client_list = s.client_list
  links : SameClient s.heap s'.heap

lemma ClientFrame.trans {s₁ s₂ s₃ : State} (h : ClientFrame s₁ s₂) (h' : ClientFrame s₂ s₃) :
    ClientFrame s₁ s₃ :=
  ⟨h'.list.trans h.list, h.links.trans h'.links⟩

namespace DevLinked

variable {s : State} {a : Sched} {i : ℕ} {p : Params} {rest : List (ℕ × Params)}

/-- The queue has no more exposures than were ever allocated. -/
lemma length_le (h : DevLinked s a) : a.queue.length ≤ a.fresh := by
  have hsub : a.ids ⊆ List.range a.fresh := fun i hi => List.mem_range.mpr (h.fresh i hi)
  have hle := (h.chain.nodup.subperm hsub).length_le
  simpa [Sched.ids] using hle

lemma isSome (h : DevLinked s a) (hi : i ∈ a.ids) : (s.heap i).isSome := by
  obtain ⟨x, hx, rfl⟩ := List.mem_map.mp hi
  obtain ⟨e, he, -⟩ := h.holds x hx
  rw [he]
  rfl

lemma head_notMem (h : DevLinked s a) (hq : a.queue = (i, p) :: rest) :
    i ∉ rest.map Prod.fst := by
  have hnd := h.chain.nodup
  rw [Sched.ids, hq, List.map_cons] at hnd
  exact (List.nodup_cons.mp hnd).1

lemma start_exposure (h : DevLinked s a) (hq : a.queue = (i, p) :: rest) :
    ∃ s', start_exposure k i s = some s' ∧ DevLinked s' (a.start k i p rest) ∧
      ClientFrame s s' := by
  have hi := h.head_notMem hq
  have hh := h.holds
  rw [hq] at hh
  obtain ⟨e, he, rfl⟩ := hh.head
  refine ⟨?s', ?run, ⟨?_, ?_, ?_, ?_⟩, ⟨?_, ?_⟩⟩
  case run =>
    rw [Ccd.start_exposure, he]
    rfl
  · simp only [Sched.start, Params.after, ← h.core]
  · simp only [Sched.start, Sched.ids, List.map_cons]
    have hc := h.chain
    rw [Sched.ids, hq, List.map_cons] at hc
    exact chain_update_same hc he rfl
  · refine .cons (Function.update_self ..) ?_ (hh.tail.update_of_notMem hi)
    simp only [Params.after, ← h.core]
  · intro j hj
    have := h.fresh j
    rw [Sched.ids, hq] at this
    exact this hj
  · rfl
  · exact (SameClient.refl _).update he rfl

lemma finish_exposure (h : DevLinked s a) (hi : i ∈ a.ids) :
    ∃ s', finish_exposure i s = some s' ∧ DevLinked s' (a.finish i) ∧ ClientFrame s s' := by
  obtain ⟨e, he⟩ := Option.isSome_iff_exists.mp (h.isSome hi)
  cases hq : a.queue with
  | nil => simp [Sched.ids, hq] at hi
  | cons x rest =>
    obtain ⟨j, p⟩ := x
    have hj := h.head_notMem hq
    have hh := h.holds
    have hc := h.chain
    rw [hq] at hh
    rw [Sched.ids, hq, List.map_cons] at hc
    obtain ⟨f, hf, rfl⟩ := hh.head
    by_cases hji : j = i ∧ f.complete = 0
    · obtain ⟨rfl, hcomp⟩ := hji
      obtain rfl : e = f := by simpa [he] using hf
      have ha : a.finish j = { a with
          toCore := (a.toCore.call (.latch_frame j e.flags)).set_row CCD_START_FRAME_LOAD
          queue := (j, { e.toParams with complete := 1 }) :: rest } := by
        simp [Sched.finish, hq, hcomp]
      rw [ha]
      refine ⟨?s', ?run, ⟨?_, ?_, ?_, ?_⟩, ⟨?_, ?_⟩⟩
      case run =>
        rw [Ccd.finish_exposure, he, Option.bind_eq_bind, Option.bind_some,
          if_pos ⟨hcomp, hc.1⟩]
      · simp only [← h.core]
      · simp only [Sched.ids, List.map_cons]
        exact chain_update_same hc he rfl
      · exact .cons (Function.update_self ..) rfl (hh.tail.update_of_notMem hj)
      · intro j' hj'
        have := h.fresh j'
        rw [Sched.ids, hq] at this
        exact this hj'
      · rfl
      · exact (SameClient.refl _).update he rfl
    · have hstop : ¬ (e.complete = 0 ∧ s.exposure_list = some i) := by
        rintro ⟨hcomp, hel⟩
        obtain rfl : j = i := by simpa [hel] using hc.1.symm
        obtain rfl : e = f := by simpa [he] using hf
        exact hji ⟨rfl, hcomp⟩
      have ha : a.finish i = a := by
        simp only [Sched.finish, hq, if_neg hji]
      rw [ha]
      refine ⟨s, ?_, h, rfl, .refl _⟩
      rw [Ccd.finish_exposure, he]
      exact if_neg hstop

lemma start_next {e : Exposure} (h : DevLinked s { a with queue := rest })
    (he : e.next = s.exposure_list) :
    ∃ s', start_next k e s = some s' ∧ DevLinked s' (a.advance k e.toParams rest) ∧
      ClientFrame s s' := by
  have hc := h.chain
  have hh := h.holds
  cases rest with
  | nil =>
    have hnone : e.next = none := by
      rw [he]
      exact hc
    refine ⟨s, ?_, h, rfl, .refl _⟩
    rw [Ccd.start_next, hnone]
  | cons x rest =>
    obtain ⟨j, q⟩ := x
    simp only [Sched.ids, List.map_cons] at hc
    have hsome : e.next = some j := by
      rw [he]
      exact hc.1
    obtain ⟨f, hf, rfl⟩ := hh.head
    rw [Ccd.start_next, hsome]
    simp only [hf, Option.bind_eq_bind, Option.bind_some, Sched.advance]
    by_cases hbegin : e.end_ ≤ f.begin_
    · -- the next exposure is started, after the ones behind it got their times
      have hlen : rest.length < s.fresh + 1 := by
        have := h.length_le
        simp only [List.length_cons] at this
        rw [show s.fresh = a.fresh from congrArg Core.fresh h.core]
        omega
      obtain ⟨h', hrun, hnext, hsc, hhold, hkeep⟩ :=
        update_exposures_spec k (i := j) ⟨rfl, hc.2⟩ hh hlen
      have hj := h.head_notMem rfl
      have hd : DevLinked { s with heap := h' }
          { a with queue := (j, f.toParams) :: retime k f.end_ rest } := by
        refine ⟨h.core, ?_, ?_, ?_⟩
        · simp only [Sched.ids, List.map_cons, retime_ids, hnext]
          exact hc
        · exact .cons ((hkeep j hj).trans hf) rfl hhold
        · intro j' hj'
          simp only [Sched.ids, List.map_cons, retime_ids] at hj'
          exact h.fresh j' hj'
      obtain ⟨s', hs', hd', hf'⟩ := hd.start_exposure k rfl
      refine ⟨s', ?_, ?_, ?_⟩
      · rw [if_pos hbegin, hrun, Option.bind_some, hs']
      · rw [if_pos hbegin]
        exact hd'
      · have hframe : ClientFrame s { s with heap := h' } := ⟨rfl, hsc⟩
        exact hframe.trans hf'
    · have hj : s.jiffies = a.jiffies := congrArg Core.jiffies h.core
      rw [if_neg hbegin, if_neg hbegin, hj]
      by_cases hend : f.end_ ≤ a.jiffies % 2 ^ k.longBits
      · rw [if_pos hend, if_pos hend]
        exact h.finish_exposure (by simp [Sched.ids])
      · rw [if_neg hend, if_neg hend]
        refine ⟨_, rfl, ⟨?_, hc, hh, h.fresh⟩, rfl, .refl _⟩
        simp only [h.core]

end DevLinked

/-- Taking an inner exposure out of the queue, where it is found. -/
lemma unlink_append {i : ℕ} {q : Params} {x : ℕ × Params} {pre post : List (ℕ × Params)}
    (hi : i ∉ (pre ++ [x]).map Prod.fst) :
    unlink k i (pre ++ x :: (i, q) :: post) = pre ++ x :: retime k x.2.end_ post := by
  induction pre with
  | nil => simp [unlink]
  | cons y pre ih =>
    simp only [List.cons_append, List.map_cons, List.mem_cons, not_or] at hi
    have ih := ih hi.2
    cases pre with
    | nil =>
      have hx : x.1 ≠ i := by
        intro hx
        simp [hx] at hi
      simp only [List.nil_append, List.cons_append] at ih ⊢
      rw [unlink, if_neg hx, ih]
    | cons z pre =>
      have hz : z.1 ≠ i := by
        intro hz
        simp [hz] at hi
      simp only [List.cons_append] at ih ⊢
      rw [unlink, if_neg hz, ih]

/-- An inner exposure of a queue has another one in front of it. -/
lemma exists_pred {i j : ℕ} {p : Params} {rest : List (ℕ × Params)} (hne : j ≠ i)
    (hi : i ∈ ((j, p) :: rest).map Prod.fst) :
    ∃ pre x q post, (j, p) :: rest = pre ++ x :: (i, q) :: post := by
  have hi' : i ∈ rest.map Prod.fst := by simpa [Ne.symm hne] using hi
  obtain ⟨⟨i', q⟩, hmem, rfl⟩ := List.mem_map.mp hi'
  obtain ⟨r₁, r₂, rfl⟩ := List.append_of_mem hmem
  have hcons : (j, p) :: r₁ ≠ [] := by simp
  refine ⟨((j, p) :: r₁).dropLast, ((j, p) :: r₁).getLast hcons, q, r₂, ?_⟩
  have hlast := List.dropLast_append_getLast hcons
  calc (j, p) :: (r₁ ++ (i', q) :: r₂)
      = ((j, p) :: r₁) ++ (i', q) :: r₂ := rfl
    _ = (((j, p) :: r₁).dropLast ++ [((j, p) :: r₁).getLast hcons]) ++ (i', q) :: r₂ := by
        rw [hlast]
    _ = _ := by simp

namespace DevLinked

variable {s : State} {a : Sched} {i : ℕ}

lemma del_first {p : Params} {rest : List (ℕ × Params)} (h : DevLinked s a)
    (hq : a.queue = (i, p) :: rest) :
    ∃ s', del_exposure k i s = some s' ∧ DevLinked s' (a.del k i) ∧ ClientFrame s s' := by
  have hc := h.chain
  have hh := h.holds
  rw [hq] at hh
  simp only [Sched.ids, hq, List.map_cons] at hc
  obtain ⟨e, he, rfl⟩ := hh.head
  have hd : DevLinked { s with
        toCore := if e.complete = 0 then s.toCore.del_timer else s.toCore
        exposure_list := e.next }
      { toCore := if e.complete = 0 then a.toCore.del_timer else a.toCore
        queue := rest
        owned := a.owned } := by
    refine ⟨?_, ?_, hh.tail, ?_⟩
    · simp only [h.core]
    · rw [← nextOf_of_eq he]
      exact hc.2
    · intro j hj
      have hlt : j < a.fresh := by
        refine h.fresh j ?_
        rw [Sched.ids, hq]
        exact List.mem_cons_of_mem i hj
      split <;> exact hlt
  obtain ⟨s', hs', hd', hf'⟩ := start_next k (e := e)
    (a := { a with toCore := if e.complete = 0 then a.toCore.del_timer else a.toCore }) hd rfl
  refine ⟨s', ?_, ?_, ⟨hf'.list, hf'.links⟩⟩
  · simp only [Ccd.del_exposure, he, Option.bind_eq_bind, Option.bind_some, if_pos hc.1]
    exact hs'
  · rw [Sched.del_head k hq]
    exact hd'

lemma del_inner {j : ℕ} {p : Params} {rest : List (ℕ × Params)} (h : DevLinked s a)
    (hq : a.queue = (j, p) :: rest) (hji : j ≠ i) (hi : i ∈ a.ids) :
    ∃ s', del_exposure k i s = some s' ∧ DevLinked s' (a.del k i) ∧ ClientFrame s s' := by
  obtain ⟨e, he⟩ := Option.isSome_iff_exists.mp (h.isSome hi)
  have hc := h.chain
  have hh := h.holds
  rw [Sched.ids, hq] at hi
  obtain ⟨pre, x, q, post, hsplit⟩ := exists_pred hji hi
  have hel : s.exposure_list ≠ some i := by
    rw [Sched.ids, hq] at hc
    rw [hc.1]
    simpa using hji
  have hlen : (pre ++ x :: (i, q) :: post).length ≤ s.fresh := by
    rw [show s.fresh = a.fresh from congrArg Core.fresh h.core, ← hsplit, ← hq]
    exact h.length_le
  have hcell : ∀ j ∈ pre.map Prod.fst ++ x.1 :: i :: post.map Prod.fst,
      (s.heap j).isSome := by
    intro j hj
    refine h.isSome ?_
    rw [Sched.ids, hq, hsplit]
    simpa using hj
  simp only [Sched.ids, hq, hsplit, List.map_append, List.map_cons] at hc
  rw [hq, hsplit] at hh
  simp only [List.length_append, List.length_cons] at hlen
  have hnd := hc.nodup
  have hinot : i ∉ (pre ++ [x]).map Prod.fst := by
    intro hmem
    rw [List.append_cons] at hnd
    refine List.disjoint_of_nodup_append hnd ?_ List.mem_cons_self
    simpa using hmem
  have hfind := find_prev_spec (n := s.fresh + 1) hc hcell
    (by simp only [List.length_map]; omega)
  -- `x` now points past `i`, and the exposures behind it get new times
  obtain ⟨g, hg, hgx⟩ := hh x (by simp)
  have hc' := Chain.unlink hc
  have hnd' := hc'.nodup
  rw [nextOf_of_eq he, ← nextOf_update (h := s.heap) (i := x.1)
    (e := { g with next := e.next })] at hc'
  have hpre : ∀ y ∈ pre ++ [x], y.1 ∉ post.map Prod.fst := by
    intro y hy
    rw [List.append_cons] at hnd'
    refine List.disjoint_of_nodup_append hnd' ?_
    rcases List.mem_append.mp hy with hy | hy
    · exact List.mem_append_left _ (List.mem_map_of_mem hy)
    · rw [List.mem_singleton.mp hy]
      simp
  have hpost : Holds s.heap post := hh.sublist fun y hy => by simp [hy]
  have hh' : Holds (Function.update s.heap x.1 (some { g with next := e.next }))
      (x :: post) :=
    .cons (Function.update_self ..) hgx (hpost.update_of_notMem (hpre x (by simp)))
  obtain ⟨h', hrun, hnext', hsc, hhold, hkeep⟩ :=
    update_exposures_spec k (i := x.1) (n := s.fresh + 1) ⟨rfl, Chain.tail_of_append hc'⟩
      hh' (by omega)
  have hqueue : unlink k i a.queue = pre ++ x :: retime k x.2.end_ post := by
    rw [hq, hsplit, unlink_append k hinot]
  rw [Sched.del_inner k hq hji, hqueue]
  refine ⟨{ s with heap := h' }, ?_, ⟨h.core, ?_, ?_, ?_⟩, rfl, ?_⟩
  · simp only [Ccd.del_exposure, he, Option.bind_eq_bind, Option.bind_some, if_neg hel, hfind,
      hg, hrun]
  · simp only [Sched.ids, List.map_append, List.map_cons, retime_ids, hnext']
    exact hc'
  · intro y hy
    show ∃ e, h' y.1 = some e ∧ e.toParams = y.2
    rcases List.mem_append.mp hy with hy | hy
    · have hyx : y.1 ≠ x.1 := by
        intro hyx
        rw [List.nodup_append] at hnd'
        exact hnd'.2.2 y.1 (List.mem_map_of_mem hy) x.1 List.mem_cons_self hyx
      rw [hkeep y.1 (hpre y (by simp [hy])), Function.update_of_ne hyx]
      exact hh y (by simp [hy])
    · rcases List.mem_cons.mp hy with rfl | hy
      · rw [hkeep y.1 (hpre y (by simp)), Function.update_self]
        exact ⟨_, rfl, hgx⟩
      · exact hhold y hy
  · intro j' hj'
    refine h.fresh j' ?_
    simp only [Sched.ids, List.map_append, List.map_cons, retime_ids, List.mem_append,
      List.mem_cons] at hj'
    simp only [Sched.ids, hq, hsplit, List.map_append, List.map_cons, List.mem_append,
      List.mem_cons]
    tauto
  · have hup : SameClient s.heap
        (Function.update s.heap x.1 (some { g with next := e.next })) :=
      (SameClient.refl s.heap).update hg rfl
    exact hup.trans hsc

lemma del_exposure (h : DevLinked s a) (hi : i ∈ a.ids) :
    ∃ s', del_exposure k i s = some s' ∧ DevLinked s' (a.del k i) ∧ ClientFrame s s' := by
  cases hq : a.queue with
  | nil => simp [Sched.ids, hq] at hi
  | cons x rest =>
    obtain ⟨j, p⟩ := x
    by_cases hji : j = i
    · subst hji
      exact h.del_first k hq
    · exact h.del_inner k hq hji hi

end DevLinked

end EspLinux.Ccd
