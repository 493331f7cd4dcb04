import EspLinux.Ccd.Refine
import EspLinux.Lib.Run

/-!
# The exposure lists of a running driver

In every state that the driver reaches, the device list and the client lists are finite
chains of allocated exposures, and each exposure of the device list is on the list of
exactly one client.  Since the lists represent a scheduler state throughout, that state
can be read off: `State.view` does so, and `Represents.view_eq` says that there is no
other.
-/

namespace EspLinux.Ccd

open EspLinux.Lib

/-- The driver of a kernel and a mini-driver reaches a state by events that all meet
`ok`. -/
abbrev Runs (k : Kernel) (m : Mini) (ok : State → Event → Prop) (jiffies : ℕ) : State → Prop :=
  Reach (step k m) ok (State.init jiffies)

variable (k : Kernel) (m : Mini)

/-- Every state that is reached represents a scheduler state. -/
theorem Runs.represents {k : Kernel} {m : Mini} {ok : State → Event → Prop} {jiffies : ℕ}
    {s : State} (h : Runs k m ok jiffies s) : ∃ a, Represents s a := by
  refine Reach.induction_on (P := fun s => ∃ a, Represents s a) ⟨_, .init jiffies⟩ ?_ h
  rintro s e s' ⟨a, ha⟩ - hs
  obtain ⟨b, -, hb⟩ := step_refines k m ha hs
  exact ⟨b, hb⟩

/-! ## The lists -/

/-- The device list runs through `dev` and the list of client `c` through `own c`. -/
structure ListsOk (s : State) (dev : List ℕ) (own : Field → List ℕ) : Prop where
  dev_chain : Chain (nextOf s.heap) s.exposure_list dev
  dev_nodup : dev.Nodup
  own_chain : ∀ c, Chain (clientNextOf s.heap) (s.client_list c) (own c)
  own_nodup : ∀ c, (own c).Nodup
  own_client : ∀ c, ∀ i ∈ own c, ∃ e, s.heap i = some e ∧ e.client = c
  union : ∀ i, i ∈ dev ↔ ∃ c, i ∈ own c
  disjoint : ∀ c c' i, i ∈ own c → i ∈ own c' → c = c'
  allocated : ∀ i ∈ dev, (s.heap i).isSome

lemma Linked.listsOk {s : State} {a : Sched} (h : Linked s a) : ListsOk s a.ids a.owned where
  dev_chain := h.chain
  dev_nodup := h.chain.nodup
  own_chain := h.clients
  own_nodup c := (h.clients c).nodup
  own_client c i hi := by
    have hmem := (h.owned_iff c i).mp hi
    obtain ⟨x, hx, heq⟩ := List.mem_map.mp hmem
    obtain ⟨e, he, hex⟩ := h.holds x hx
    obtain ⟨rfl, rfl⟩ := Prod.mk.inj heq
    exact ⟨e, he, congrArg Params.client hex⟩
  union i := by
    rw [Sched.mem_ids_iff]
    exact exists_congr fun c => (h.owned_iff c i).symm
  disjoint c c' i hi hi' := h.client_unique hi' hi
  allocated i hi := h.isSome hi

/-- No operation on the lists follows a freed pointer or runs in circles. -/
lemma Linked.step_isSome {s : State} {a : Sched} {e : Event} (h : Linked s a)
    (he : e.isRead = false) : (step k m s e).isSome := by
  rw [Option.isSome_iff_exists]
  cases e with
  | tick d => exact ⟨_, rfl⟩
  | register g => exact ⟨_, rfl⟩
  | open_ c mode nomem => exact ⟨_, rfl⟩
  | unregister =>
    by_cases hr : s.registered
    · obtain ⟨s', hs', -⟩ := h.unregister k hr
      exact ⟨s', hs'⟩
    · exact ⟨s, if_neg hr⟩
  | close c =>
    by_cases ho : (s.clients c).opened
    · obtain ⟨s', hs', -⟩ := h.abort_exposures k (c := c)
      refine ⟨{ s' with toCore := s'.toCore.close c }, ?_⟩
      simp [step, ccd_close, ho, hs']
    · exact ⟨s, if_neg ho⟩
  | new_exposure c msg =>
    obtain ⟨s', hs', -⟩ := h.new_exposure k (c := c) msg
    simp only [step, hs']
    split
    · exact ⟨s', rfl⟩
    · exact ⟨s, rfl⟩
  | abort c =>
    obtain ⟨s', hs', -⟩ := h.abort_exposures k (c := c)
    simp only [step, hs']
    split
    · exact ⟨s', rfl⟩
    · exact ⟨s, rfl⟩
  | expire =>
    obtain ⟨s', hs', -⟩ := h.complete_exposure
    exact ⟨s', hs'⟩
  | read c count => cases he
  | wake c count => cases he

/-- In every state that the driver reaches the lists are finite, free of duplicates and of
freed exposures, and the clients' lists make up the device list; the operations on the lists
come to an end there. -/
theorem exposure_lists {jiffies : ℕ} {s : State}
    (h : Runs k m (fun _ _ => True) jiffies s) :
    (∃ dev own, ListsOk s dev own) ∧ (∀ e, e.isRead = false → (step k m s e).isSome) ∧
      ∀ i, s.exposure_list = some i → (end_frame k i s).isSome := by
  obtain ⟨a, ha⟩ := h.represents
  refine ⟨⟨_, _, ha.toLinked.listsOk⟩, fun e he => ha.toLinked.step_isSome k m he, ?_⟩
  intro i hi
  have hc := ha.chain
  cases hq : a.queue with
  | nil =>
    rw [Sched.ids, hq, hi] at hc
    cases hc
  | cons x rest =>
    obtain ⟨j, p⟩ := x
    rw [Sched.ids, hq, hi] at hc
    obtain rfl : i = j := by simpa using hc.1
    obtain ⟨s', hs', -⟩ := ha.toLinked.end_frame k hq
    rw [hs']
    rfl

/-! ## Reading the scheduler off the lists -/

/-- The exposures met on at most `n` steps along a list. -/
def walk (link : Exposure → Option ℕ) (h : Heap) : ℕ → Option ℕ → List (ℕ × Params)
  | 0, _ => []
  | _ + 1, none => []
  | n + 1, some i =>
    match h i with
    | none => []
    | some e => (i, e.toParams) :: walk link h n (link e)

/-- The scheduler state that the lists of `s` represent. -/
def State.view (s : State) : Sched :=
  { toCore := s.toCore
    queue := walk Exposure.next s.heap (s.fresh + 1) s.exposure_list
    owned := fun c =>
      (walk Exposure.client_next s.heap (s.fresh + 1) (s.client_list c)).map Prod.fst }

lemma walk_spec {link : Exposure → Option ℕ} {h : Heap} {p : Option ℕ} {l : List ℕ} {n : ℕ}
    (hc : Chain (fun i => (h i).bind link) p l) (hcell : ∀ i ∈ l, (h i).isSome)
    (hn : l.length < n) :
    (walk link h n p).map Prod.fst = l ∧
      ∀ x ∈ walk link h n p, ∃ e, h x.1 = some e ∧ e.toParams = x.2 := by
  induction l generalizing p n with
  | nil =>
    obtain ⟨n, rfl⟩ : ∃ m, n = m + 1 := ⟨n - 1, by omega⟩
    obtain rfl : p = none := hc
    simp [walk]
  | cons i l ih =>
    obtain ⟨n, rfl⟩ : ∃ m, n = m + 1 := ⟨n - 1, by omega⟩
    obtain ⟨rfl, htail⟩ := hc
    obtain ⟨e, he⟩ := Option.isSome_iff_exists.mp (hcell i List.mem_cons_self)
    simp only [he, Option.bind_some] at htail
    obtain ⟨hmap, hmem⟩ := ih (n := n) htail (fun j hj => hcell j (List.mem_cons_of_mem i hj))
      (by simp at hn; omega)
    simp only [walk, he, List.map_cons, hmap, true_and]
    intro x hx
    rcases List.mem_cons.mp hx with rfl | hx
    · exact ⟨e, he, rfl⟩
    · exact hmem x hx

/-- A queue is determined by its cells and what the heap holds for them. -/
lemma Holds.unique {h : Heap} {q q' : List (ℕ × Params)} (hq : Holds h q) (hq' : Holds h q')
    (hids : q.map Prod.fst = q'.map Prod.fst) : q = q' := by
  induction q generalizing q' with
  | nil =>
    rw [List.map_nil, eq_comm, List.map_eq_nil_iff] at hids
    exact hids.symm
  | cons x q ih =>
    cases q' with
    | nil => simp at hids
    | cons x' q' =>
      simp only [List.map_cons, List.cons.injEq] at hids
      obtain ⟨e, he, hx⟩ := hq x List.mem_cons_self
      obtain ⟨e', he', hx'⟩ := hq' x' List.mem_cons_self
      rw [hids.1, he'] at he
      cases he
      rw [ih hq.tail hq'.tail hids.2, Prod.ext hids.1 (hx.symm.trans hx')]

/-- The lists represent the scheduler state that is read off. -/
theorem Linked.view_eq {s : State} {a : Sched} (h : Linked s a) : s.view = a := by
  have hfr : s.fresh = a.fresh := congrArg Core.fresh h.core
  have hdev := walk_spec (n := s.fresh + 1) h.chain (fun i hi => h.isSome hi)
    (by have := h.length_le; simp [Sched.ids]; omega)
  have hqueue : s.view.queue = a.queue := Holds.unique hdev.2 h.holds hdev.1
  have howned : s.view.owned = a.owned := by
    funext c
    refine (walk_spec (n := s.fresh + 1) (h.clients c)
      (fun i hi => h.isSome (h.mem_ids_of_owned hi)) ?_).1
    have := h.owned_length_le c
    omega
  have hcore : s.view.toCore = a.toCore := h.core
  generalize s.view = b at hqueue howned hcore
  cases a
  cases b
  simp_all

/-! ## A small camera

A kernel, a mini-driver and requests with which runs can be evaluated. -/

/-- A 32-bit kernel with a hundred ticks in a second. -/
def Kernel.hz100 : Kernel := ⟨100, 32, by decide, by decide⟩

/-- A mini-driver that always succeeds and delivers black rows. -/
def Mini.black : Mini := ⟨fun _ => 0, fun _ _ _ => 0, fun _ fan temp => (fan, temp)⟩

/-- An interlaced camera of two by two 8-bit pixels. -/
def Geometry.small : Geometry := ⟨[], 2, 2, 1, 1, 2, 8, 8, 0x0FFF, 0⟩

/-- A request for a whole frame. -/
def whole_frame (flags msec : ℕ) : Msg := fun n =>
  ([0xCCDD, 28, 0, 0x0201, 2, 2, 0, 0, 1, 1, 8, UInt16.ofNat flags, UInt16.ofNat msec, 0] :
    List UInt16).getD n 0

/-- Both clients of the fields have an exposure in the queue when the odd one aborts. -/
theorem exposure_lists_three_requests :
    ∃ s, replay (step .hz100 .black) (State.init 0)
        [.register .small, .open_ 1 .binary false, .open_ 2 .binary false,
          .new_exposure 1 (whole_frame 0 100), .new_exposure 2 (whole_frame 0 100),
          .new_exposure 1 (whole_frame 0 100), .expire, .abort 1] = some s ∧
      (∃ dev own, ListsOk s dev own) ∧
      (∀ e, e.isRead = false → (step .hz100 .black s e).isSome) ∧
      ∀ i, s.exposure_list = some i → (end_frame .hz100 i s).isSome := by
  have hsome : (replay (step .hz100 .black) (State.init 0)
      [.register .small, .open_ 1 .binary false, .open_ 2 .binary false,
        .new_exposure 1 (whole_frame 0 100), .new_exposure 2 (whole_frame 0 100),
        .new_exposure 1 (whole_frame 0 100), .expire, .abort 1]).isSome := by decide
  obtain ⟨s, hs⟩ := Option.isSome_iff_exists.mp hsome
  exact ⟨s, hs, exposure_lists .hz100 .black (Reach.of_replay .init hs)⟩

end EspLinux.Ccd
