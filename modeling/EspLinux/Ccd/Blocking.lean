import EspLinux.Ccd.Lists

/-!
# Readers that block

A read that finds its exposure not ready sleeps in `wait_event_interruptible`, which looks at
the first exposure of the device each time the reader wakes up.  That there is one has been
tested before, and only before.  The steps of the readers are interleaved with the requests of
all clients, with the timer and with the registration of the device.

A waiting reader finds the list of the device empty exactly when it has been emptied under it:
by an abort of its own client, by unregistering the device, or, when its own exposures are gone
already, by whoever takes the last exposure of another client (`blocked_reader`).
-/

namespace EspLinux.Ccd

open EspLinux.Lib

/-! ## Readers -/

/-- Where the read of a client is. -/
inductive Reader
  | idle
  /-- In `wait_event_interruptible`. -/
  | waiting (count : ℕ)
  /-- The wait is over, and the last test is due. -/
  | woken (count : ℕ)
deriving DecidableEq

/-- A device slot, and the reads of its clients. -/
structure Threads where
  dev : State
  reader : Field → Reader

/-- No device has been registered yet. -/
def Threads.init (jiffies : ℕ) : Threads :=
  { dev := State.init jiffies, reader := fun _ => .idle }

/-- What the threads of the kernel do. -/
inductive Act
  /-- Anything but a read. -/
  | other (e : Event)
  /-- A read starts; it does everything that it can do without sleeping. -/
  | read (c : Field) (count : ℕ) (nonblock : Bool)
  /-- A waiting reader evaluates its condition. -/
  | evaluate (c : Field)
  /-- A reader that has been woken does the last test and reads. -/
  | finish (c : Field)
  /-- A reader gives up because of a signal. -/
  | signal (c : Field)
  | poll (c : Field)

/-- The read has to sleep. -/
def blocks : Except Errno (List UInt8) → Bool
  | .error .EAGAIN => true
  | _ => false

variable (k : Kernel) (m : Mini)

namespace Threads

/-- A file is not closed during a read. -/
def closing (s : Threads) : Event → Prop
  | .close c => s.reader c ≠ .idle
  | _ => False

instance (s : Threads) (e : Event) : Decidable (s.closing e) := by
  cases e <;> unfold closing <;> infer_instance

/-- A reader evaluates the condition of its wait, unless there is nothing to look at. -/
def wakes (c : Field) (s : State) : Option Bool := do
  let i ← s.exposure_list
  let e ← s.heap i
  some (decide (e.client = c ∧ e.complete ≠ 0))

/-- One step.  A reader that finds the list of the device empty while it evaluates its condition
never comes to an end. -/
def step (s : Threads) : Act → Option Threads
  | .other e =>
    if e.isRead ∨ s.closing e then some s
    else do
      let dev ← Ccd.step k m s.dev e
      some { s with dev := dev }
  | .read c count nonblock =>
    if s.reader c = .idle ∧ s.dev.ready c then do
      let r ← ccd_read k m c count s.dev
      if blocks r.2 ∧ nonblock = false then
        some { dev := r.1, reader := Function.update s.reader c (.waiting count) }
      else
        some { s with dev := r.1 }
    else
      some s
  | .evaluate c =>
    match s.reader c with
    | .waiting count => do
      let w ← wakes c s.dev
      some { s with
        reader := Function.update s.reader c (if w then .woken count else .waiting count) }
    | _ => some s
  | .finish c =>
    match s.reader c with
    | .woken count => do
      let r ← ccd_read_head k m c count s.dev
      some { dev := r.1, reader := Function.update s.reader c .idle }
    | _ => some s
  | .signal c => some { s with reader := Function.update s.reader c .idle }
  | .poll _ => some s

/-- A reader waits. -/
def waits (s : Threads) : Prop := ∃ r n, s.reader r = .waiting n

/-- The step looks at the first exposure of the device. -/
def looks (s : Threads) : Act → Prop
  | .read c count _ => s.reader c = .idle ∧ s.dev.ready c ∧ count ≠ 0 ∧
      (s.dev.clients c).out_buf_len = 0 ∧ s.dev.client_list c ≠ none
  | .evaluate c => ∃ n, s.reader c = .waiting n
  | .poll c => (s.dev.clients c).out_buf_len = 0 ∧ s.dev.client_list c ≠ none
  | _ => False

/-- The device has one exposure. -/
def alone (s : Threads) : Prop :=
  ∃ i, s.dev.exposure_list = some i ∧ nextOf s.dev.heap i = none

/-- Another client has an exposure. -/
def others (c : Field) (s : Threads) : Prop := ∃ c', c' ≠ c ∧ s.dev.client_list c' ≠ none

/-- While a reader waits, the last exposure of the device is not taken away. -/
def spares (s : Threads) (w : Act) : Prop :=
  s.waits →
    match w with
    | .other (.abort c) => s.dev.ready c = true → s.others c
    | .other (.close c) => (s.dev.clients c).opened = true → s.reader c = .idle → s.others c
    | .other .unregister => s.dev.registered = false
    | .read _ _ _ => s.alone → ∀ s', s.step k m w = some s' →
        s'.dev.exposure_list = s.dev.exposure_list
    | .finish _ => s.alone → ∀ s', s.step k m w = some s' →
        s'.dev.exposure_list = s.dev.exposure_list
    | _ => True

end Threads

variable {k m} {s s' : State} {a b : Sched} {c : Field} {e : Event}

/-! ## Empty lists -/

namespace Linked

lemma list_eq_none (h : Linked s a) : s.exposure_list = none ↔ a.queue = [] := by
  have hc := h.chain
  cases hq : a.queue with
  | nil =>
    rw [Sched.ids, hq] at hc
    exact ⟨fun _ => rfl, fun _ => hc⟩
  | cons x rest =>
    rw [Sched.ids, hq] at hc
    rw [hc.1]
    exact ⟨fun hi => (by cases hi), fun hx => by cases hx⟩

lemma client_list_eq_none (h : Linked s a) : s.client_list c = none ↔ a.owned c = [] := by
  have hc := h.clients c
  cases ho : a.owned c with
  | nil =>
    rw [ho] at hc
    exact ⟨fun _ => rfl, fun _ => hc⟩
  | cons i l =>
    rw [ho] at hc
    rw [hc.1]
    exact ⟨fun hi => (by cases hi), fun hx => by cases hx⟩

/-- The queue is empty if no client has an exposure. -/
lemma queue_eq_nil (h : Linked s a) : a.queue = [] ↔ ∀ c, a.owned c = [] := by
  have htags : a.queue = [] ↔ a.tags = [] := by
    rw [Sched.tags, List.map_eq_nil_iff]
  rw [htags]
  refine ⟨fun ht c => ?_, fun ho => ?_⟩
  · rw [List.eq_nil_iff_forall_not_mem]
    intro i hi
    rw [h.owned_iff, ht] at hi
    cases hi
  · rw [List.eq_nil_iff_forall_not_mem]
    rintro ⟨i, c⟩ hi
    rw [← h.owned_iff, ho] at hi
    cases hi

lemma queue_ne_nil (h : Linked s a) : a.queue ≠ [] ↔ ∃ c, a.owned c ≠ [] := by
  rw [Ne, h.queue_eq_nil, not_forall]

/-- The first exposure is the only one. -/
lemma next_eq_none {i : ℕ} {p : Params} {rest : List (ℕ × Params)} (h : Linked s a)
    (hq : a.queue = (i, p) :: rest) : nextOf s.heap i = none ↔ rest = [] := by
  have hc := h.chain
  rw [Sched.ids, hq] at hc
  cases rest with
  | nil => exact ⟨fun _ => rfl, fun _ => hc.2⟩
  | cons x rest =>
    rw [hc.2.1]
    exact ⟨fun hi => (by cases hi), fun hx => by cases hx⟩

end Linked

/-! ## Keeping an exposure -/

namespace Sched.Step

/-- A client keeps its exposures unless it aborts or closes or reads, or the device is
unregistered. -/
lemma owned_ne_nil (h : Sched.Step k a e b) {c : Field} (hc : a.owned c ≠ [])
    (habort : ∀ c', e = .abort c' → a.ready c' = true → c' ≠ c)
    (hclose : ∀ c', e = .close c' → (a.clients c').opened = true → c' ≠ c)
    (hun : e = .unregister → a.registered = false) (hread : e.isRead = false) :
    b.owned c ≠ [] := by
  cases h with
  | quiet hy => exact hc
  | @new c' msg hready =>
    rw [Sched.new_owned]
    by_cases hcc : c = c'
    · rw [hcc, Function.update_self]
      exact List.cons_ne_nil _ _
    · rwa [Function.update_of_ne hcc]
  | @abort c' hready =>
    rw [Sched.abort_owned, Function.update_of_ne (habort c' rfl hready).symm]
    exact hc
  | @close c' hopen =>
    show (a.abort k c').owned c ≠ []
    rw [Sched.abort_owned, Function.update_of_ne (hclose c' rfl hopen).symm]
    exact hc
  | unregister hreg =>
    rw [hun rfl] at hreg
    cases hreg
  | expire =>
    rcases a.expire_cases with ⟨-, hx⟩ | ⟨-, hx⟩ | ⟨i, -, -, hx⟩
    · rw [hx]
      exact hc
    · rw [hx]
      exact hc
    · rw [hx, Sched.finish_owned]
      exact hc
  | endFrame he =>
    rw [he] at hread
    cases hread

end Sched.Step

/-- A read keeps an exposure if there are two or if it leaves the list as it was. -/
lemma read_keeps (ha : Represents s a) (hb : Represents s' b) (h : Sched.Step k a e b)
    (he : e.isRead = true) (hq : a.queue ≠ [])
    (hkeep : (∃ i, s.exposure_list = some i ∧ nextOf s.heap i = none) →
      s'.exposure_list = s.exposure_list) : b.queue ≠ [] := by
  by_cases halone : ∃ i, s.exposure_list = some i ∧ nextOf s.heap i = none
  · rw [Ne, ← hb.list_eq_none, hkeep halone, ha.list_eq_none]
    exact hq
  · cases h with
    | quiet hy => exact hq
    | @endFrame _ i p rest y z _ hhead hp hy ht hz =>
      have hrest : rest ≠ [] := by
        intro hnil
        have hc := ha.chain
        rw [Sched.ids, hhead] at hc
        exact halone ⟨i, hc.1, (ha.toLinked.next_eq_none hhead).mpr hnil⟩
      obtain ⟨⟨j, q⟩, l, rfl⟩ := List.exists_cons_of_ne_nil hrest
      have hnd := ha.chain.nodup
      rw [Sched.ids, hhead, List.map_cons, List.map_cons, List.nodup_cons] at hnd
      have hji : j ≠ i := fun hji => hnd.1 (by rw [hji]; exact List.mem_cons_self)
      have hj : j ∈ a.owned q.client := by
        rw [ha.owned_iff, Sched.tags, hhead]
        exact List.mem_cons_of_mem _ List.mem_cons_self
      rw [hb.toLinked.queue_ne_nil]
      refine ⟨q.client, List.ne_nil_of_mem (a := j) ?_⟩
      show j ∈ (Sched.endFrame k i p { a with toCore := y }).owned q.client
      rw [Represents.endFrame_owned]
      by_cases hcc : q.client = p.client
      · rw [hcc, Function.update_self, List.mem_erase_of_ne hji, ← hcc]
        exact hj
      · rw [Function.update_of_ne hcc]
        exact hj
    | new hready => cases he
    | abort hready => cases he
    | close hopen => cases he
    | unregister hreg => cases he
    | expire => cases he

/-- A read that changes the list of a device with one exposure empties it. -/
lemma read_empties (ha : Represents s a) (hb : Represents s' b) (h : Sched.Step k a e b)
    (he : e.isRead = true) (halone : ∃ i, s.exposure_list = some i ∧ nextOf s.heap i = none)
    (hne : s'.exposure_list ≠ s.exposure_list) : s'.exposure_list = none := by
  cases h with
  | @quiet _ y hy =>
    exfalso
    have hc := ha.chain
    have hc' := hb.chain
    rw [show Sched.ids { a with toCore := y } = a.ids from rfl] at hc'
    cases hids : a.ids with
    | nil =>
      rw [hids] at hc hc'
      exact hne (hc'.trans hc.symm)
    | cons i l =>
      rw [hids] at hc hc'
      exact hne (hc'.1.trans hc.1.symm)
  | @endFrame _ i p rest y z _ hhead hp hy ht hz =>
    have hrest : rest = [] := by
      obtain ⟨j, hj, hnext⟩ := halone
      have hc := ha.chain
      rw [Sched.ids, hhead] at hc
      rw [hc.1] at hj
      cases hj
      exact (ha.toLinked.next_eq_none hhead).mp hnext
    have htags {j : ℕ} {c : Field} (hj : j ∈ a.owned c) : j = i ∧ c = p.client := by
      rw [ha.owned_iff, Sched.tags, hhead, hrest] at hj
      exact Prod.mk.inj (List.mem_singleton.mp hj)
    rw [hb.toLinked.list_eq_none, hb.toLinked.queue_eq_nil]
    intro c
    show (Sched.endFrame k i p { a with toCore := y }).owned c = []
    rw [Represents.endFrame_owned, List.eq_nil_iff_forall_not_mem]
    intro j hj
    by_cases hcc : c = p.client
    · rw [hcc, Function.update_self] at hj
      have hmem := ((ha.clients p.client).nodup.mem_erase_iff).mp hj
      exact hmem.1 (htags hmem.2).1
    · rw [Function.update_of_ne hcc] at hj
      exact hcc (htags hj).2
  | new hready => cases he
  | abort hready => cases he
  | close hopen => cases he
  | unregister hreg => cases he
  | expire => cases he

/-- The last test does not sleep. -/
lemma ccd_read_head_blocks {count : ℕ} {res : Except Errno (List UInt8)}
    (h : ccd_read_head k m c count s = some (s', res)) : blocks res = false := by
  unfold ccd_read_head at h
  split at h
  · cases h
    rfl
  · obtain ⟨f, -, h⟩ := Option.bind_eq_some_iff.mp h
    split at h
    · cases hmode : (s.clients c).mode with
      | binary =>
        rw [hmode] at h
        obtain ⟨r, -, h⟩ := Option.bind_eq_some_iff.mp h
        cases h
        rfl
      | text =>
        rw [hmode] at h
        obtain ⟨r, -, h⟩ := Option.bind_eq_some_iff.mp h
        cases h
        rfl
    · cases h
      rfl

/-- A read that has to sleep has not changed anything, and its client has an exposure. -/
lemma ccd_read_blocks {count : ℕ} {res : Except Errno (List UInt8)} (hres : blocks res = true)
    (h : ccd_read k m c count s = some (s', res)) : s' = s ∧ s.client_list c ≠ none := by
  simp only [ccd_read] at h
  split at h
  · cases h
    cases hres
  split at h
  · cases h
    cases hres
  split at h
  · cases h
    cases hres
  split at h
  · cases h
    cases hres
  rename_i hlist
  split at h
  · cases h
  · obtain ⟨f, -, h⟩ := Option.bind_eq_some_iff.mp h
    split at h
    · cases h
      exact ⟨rfl, hlist⟩
    · rw [ccd_read_head_blocks h] at hres
      cases hres

/-! ## Runs -/

namespace Threads

variable {t t' : Threads} {w : Act}

/-- The lists are in order, and a reader that waits has something to look at. -/
def Good (t : Threads) : Prop := ∃ a, Represents t.dev a ∧ (t.waits → a.queue ≠ [])

lemma good_init (jiffies : ℕ) : (init jiffies).Good := by
  refine ⟨_, .init jiffies, ?_⟩
  rintro ⟨r, n, h⟩
  cases h

/-- A reader waits after its own step only if it has begun to wait. -/
lemma waits_of_update {r : Reader} (hr : ∀ n, r ≠ .waiting n) {dev : State}
    (h : waits { dev := dev, reader := Function.update t.reader c r }) : t.waits := by
  obtain ⟨c', n, hn⟩ := h
  dsimp only at hn
  by_cases hcc : c' = c
  · rw [hcc, Function.update_self] at hn
    exact absurd hn (hr n)
  · rw [Function.update_of_ne hcc] at hn
    exact ⟨c', n, hn⟩

lemma others_owned (ha : Represents t.dev a) (h : t.others c) : ∃ c', c ≠ c' ∧ a.owned c' ≠ [] := by
  obtain ⟨c', hcc, hc'⟩ := h
  exact ⟨c', hcc.symm, fun ho => hc' (ha.toLinked.client_list_eq_none.mpr ho)⟩

/-- What is not a read keeps an exposure. -/
lemma other_keeps (ha : Represents t.dev a) {dev : State} (hs : Ccd.step k m t.dev e = some dev)
    (hread : e.isRead = false) (hclosing : ¬ t.closing e) (hspares : t.spares k m (.other e))
    (hw : t.waits) (hq : a.queue ≠ []) : ∃ b, Represents dev b ∧ b.queue ≠ [] := by
  obtain ⟨b, hstep, hb⟩ := step_refines k m ha hs
  refine ⟨b, hb, ?_⟩
  rw [hb.toLinked.queue_ne_nil]
  have hcore := ha.core
  have hspare := hspares hw
  -- a client that has an exposure and is not the one that gives up its exposures
  obtain ⟨c, hc, habort, hclose, hun⟩ : ∃ c, a.owned c ≠ [] ∧
      (∀ c', e = .abort c' → a.ready c' = true → c' ≠ c) ∧
      (∀ c', e = .close c' → (a.clients c').opened = true → c' ≠ c) ∧
      (e = .unregister → a.registered = false) := by
    obtain ⟨c₀, hc₀⟩ := ha.toLinked.queue_ne_nil.mp hq
    cases e with
    | abort c' =>
      by_cases hready : t.dev.ready c' = true
      · obtain ⟨c, hne, hc⟩ := others_owned ha (hspare hready)
        refine ⟨c, hc, fun c'' heq _ => ?_, nofun, nofun⟩
        cases heq
        exact hne
      · rw [hcore] at hready
        refine ⟨c₀, hc₀, fun c'' heq hready' => ?_, nofun, nofun⟩
        cases heq
        exact absurd hready' hready
    | close c' =>
      by_cases hopen : (t.dev.clients c').opened = true
      · have hidle : t.reader c' = .idle := by
          by_contra hno
          exact hclosing hno
        obtain ⟨c, hne, hc⟩ := others_owned ha (hspare hopen hidle)
        refine ⟨c, hc, nofun, fun c'' heq _ => ?_, nofun⟩
        cases heq
        exact hne
      · rw [hcore] at hopen
        refine ⟨c₀, hc₀, nofun, fun c'' heq hopen' => ?_, nofun⟩
        cases heq
        exact absurd hopen' hopen
    | unregister =>
      refine ⟨c₀, hc₀, nofun, nofun, fun _ => ?_⟩
      rw [← congrArg Core.registered hcore]
      exact hspare
    | _ => exact ⟨c₀, hc₀, nofun, nofun, nofun⟩
  exact ⟨c, hstep.owned_ne_nil hc habort hclose hun hread⟩

lemma good_step (h : t.Good) (hspares : t.spares k m w) (hs : t.step k m w = some t') :
    t'.Good := by
  obtain ⟨a, ha, hw⟩ := h
  cases w with
  | other e =>
    simp only [step] at hs
    split at hs
    · cases hs
      exact ⟨a, ha, hw⟩
    · rename_i hno
      obtain ⟨hread, hclosing⟩ := not_or.mp hno
      obtain ⟨dev, hdev, hs⟩ := Option.bind_eq_some_iff.mp hs
      cases hs
      by_cases hwaits : t.waits
      · obtain ⟨b, hb, hq⟩ := other_keeps ha hdev (Bool.eq_false_iff.mpr hread) hclosing hspares hwaits
          (hw hwaits)
        exact ⟨b, hb, fun _ => hq⟩
      · obtain ⟨b, -, hb⟩ := step_refines k m ha hdev
        exact ⟨b, hb, fun h => absurd h hwaits⟩
  | read c count nonblock =>
    have hall := hs
    simp only [step] at hs
    split at hs
    · obtain ⟨⟨dev, res⟩, hr, hs⟩ := Option.bind_eq_some_iff.mp hs
      dsimp only at hs
      obtain ⟨b, hstep, hb⟩ := ha.ccd_read (e := .read c count) k m c count rfl hr
      split at hs
      · rename_i hblocks
        obtain ⟨hsame, hlist⟩ := ccd_read_blocks hblocks.1 hr
        cases hs
        refine ⟨a, ?_, fun _ => ?_⟩
        · rw [← hsame] at ha
          exact ha
        · rw [ha.toLinked.queue_ne_nil]
          exact ⟨c, fun ho => hlist (ha.toLinked.client_list_eq_none.mpr ho)⟩
      · cases hs
        refine ⟨b, hb, fun hwaits => ?_⟩
        exact read_keeps ha hb hstep rfl (hw hwaits) fun halone => hspares hwaits halone _ hall
    · cases hs
      exact ⟨a, ha, hw⟩
  | evaluate c =>
    simp only [step] at hs
    split at hs
    · rename_i n hn
      obtain ⟨v, -, hs⟩ := Option.bind_eq_some_iff.mp hs
      cases hs
      exact ⟨a, ha, fun _ => hw ⟨c, n, hn⟩⟩
    · cases hs
      exact ⟨a, ha, hw⟩
  | finish c =>
    have hall := hs
    simp only [step] at hs
    split at hs
    · rename_i n hn
      obtain ⟨⟨dev, res⟩, hr, hs⟩ := Option.bind_eq_some_iff.mp hs
      dsimp only at hs
      obtain ⟨b, hstep, hb⟩ := ha.ccd_read_head (e := .wake c n) k m c n rfl hr
      cases hs
      refine ⟨b, hb, fun hwaits => ?_⟩
      have hwaits' := waits_of_update (fun n hn => Reader.noConfusion hn) hwaits
      exact read_keeps ha hb hstep rfl (hw hwaits') fun halone => hspares hwaits' halone _ hall
    · cases hs
      exact ⟨a, ha, hw⟩
  | signal c =>
    cases hs
    exact ⟨a, ha, fun hwaits => hw (waits_of_update (fun n hn => Reader.noConfusion hn) hwaits)⟩
  | poll c =>
    cases hs
    exact ⟨a, ha, hw⟩

/-- The abort of the only client with exposures empties the list. -/
lemma abort_empties (ha : Represents t.dev a) (hothers : ¬ t.others c) {dev : State}
    (hs : abort_exposures k c t.dev = some dev) : dev.exposure_list = none := by
  have hb := ha.abort k c hs
  rw [hb.toLinked.list_eq_none, hb.toLinked.queue_eq_nil]
  intro c'
  rw [Sched.abort_owned]
  by_cases hcc : c' = c
  · rw [hcc, Function.update_self]
  · rw [Function.update_of_ne hcc, ← ha.toLinked.client_list_eq_none]
    by_contra hlist
    exact hothers ⟨c', hcc, hlist⟩

/-- A reader that waits still waits after the step of another. -/
lemma waits_update {c' : Field} {n : ℕ} (hn : t.reader c' = .waiting n)
    (hc : ∀ n, t.reader c ≠ .waiting n) (r : Reader) (dev : State) :
    waits { dev := dev, reader := Function.update t.reader c r } := by
  have hcc : c' ≠ c := by
    rintro rfl
    exact hc n hn
  refine ⟨c', n, ?_⟩
  dsimp only
  rw [Function.update_of_ne hcc, hn]

/-- A step that takes away the last exposure leaves a waiting reader with nothing to look at. -/
lemma step_not_spares (h : t.Good) (hspares : ¬ t.spares k m w) (hs : t.step k m w = some t') :
    t'.waits ∧ t'.dev.exposure_list = none := by
  obtain ⟨a, ha, -⟩ := h
  obtain ⟨hwaits, hbad⟩ := Classical.not_imp.mp hspares
  cases w with
  | other e =>
    simp only [step] at hs
    cases e with
    | abort c =>
      obtain ⟨hready, hothers⟩ := Classical.not_imp.mp hbad
      simp only [Event.isRead, Bool.false_eq_true, closing, or_self, if_false, Ccd.step,
        if_pos hready] at hs
      obtain ⟨dev, hdev, hs⟩ := Option.bind_eq_some_iff.mp hs
      cases hs
      exact ⟨hwaits, abort_empties ha hothers hdev⟩
    | close c =>
      obtain ⟨hopen, hbad⟩ := Classical.not_imp.mp hbad
      obtain ⟨hidle, hothers⟩ := Classical.not_imp.mp hbad
      simp only [Event.isRead, Bool.false_eq_true, closing, hidle, ne_eq, not_true_eq_false,
        or_self, if_false, Ccd.step, ccd_close, if_pos hopen] at hs
      obtain ⟨dev, hdev, hs⟩ := Option.bind_eq_some_iff.mp hs
      obtain ⟨dev', hdev', hdev⟩ := Option.bind_eq_some_iff.mp hdev
      cases hdev
      cases hs
      have hnone := abort_empties ha hothers hdev'
      exact ⟨hwaits, hnone⟩
    | unregister =>
      have hreg : t.dev.registered = true := Bool.eq_true_of_not_eq_false hbad
      obtain ⟨dev, hdev, hlinked⟩ := ha.toLinked.unregister k hreg
      simp only [Event.isRead, Bool.false_eq_true, closing, or_self, if_false, Ccd.step, hdev] at hs
      cases hs
      exact ⟨hwaits, hlinked.list_eq_none.mpr rfl⟩
    | _ => exact absurd trivial hbad
  | read c count nonblock =>
    obtain ⟨halone, hbad⟩ := Classical.not_imp.mp hbad
    have hne : t'.dev.exposure_list ≠ t.dev.exposure_list := by
      intro heq
      refine hbad fun s' hs' => ?_
      rw [hs] at hs'
      cases hs'
      exact heq
    simp only [step] at hs
    split at hs
    · rename_i hidle
      obtain ⟨⟨dev, res⟩, hr, hs⟩ := Option.bind_eq_some_iff.mp hs
      dsimp only at hs
      obtain ⟨b, hstep, hb⟩ := ha.ccd_read (e := .read c count) k m c count rfl hr
      split at hs
      · rename_i hblocks
        cases hs
        exact absurd (congrArg State.exposure_list (ccd_read_blocks hblocks.1 hr).1) hne
      · cases hs
        exact ⟨hwaits, read_empties ha hb hstep rfl halone hne⟩
    · cases hs
      exact absurd rfl hne
  | finish c =>
    obtain ⟨halone, hbad⟩ := Classical.not_imp.mp hbad
    have hne : t'.dev.exposure_list ≠ t.dev.exposure_list := by
      intro heq
      refine hbad fun s' hs' => ?_
      rw [hs] at hs'
      cases hs'
      exact heq
    simp only [step] at hs
    split at hs
    · rename_i n hn
      obtain ⟨⟨dev, res⟩, hr, hs⟩ := Option.bind_eq_some_iff.mp hs
      dsimp only at hs
      obtain ⟨b, hstep, hb⟩ := ha.ccd_read_head (e := .wake c n) k m c n rfl hr
      cases hs
      obtain ⟨c', n', hn'⟩ := hwaits
      refine ⟨waits_update hn' (fun n' hn' => ?_) _ _, read_empties ha hb hstep rfl halone hne⟩
      rw [hn] at hn'
      cases hn'
    · cases hs
      exact absurd rfl hne
  | evaluate c => exact absurd trivial hbad
  | signal c => exact absurd trivial hbad
  | poll c => exact absurd trivial hbad

end Threads

/-- While no step takes the last exposure away from a waiting reader, each step that looks at the
first exposure of the device finds one.  After a step that does, a reader waits that finds none. -/
theorem blocked_reader {jiffies : ℕ} {t : Threads}
    (h : Reach (Threads.step k m) (Threads.spares k m) (Threads.init jiffies) t) (w : Act) :
    (t.looks w → t.dev.exposure_list ≠ none) ∧
      (¬ t.spares k m w → ∀ t', t.step k m w = some t' →
        t'.dev.exposure_list = none ∧ ∃ c, t'.looks (.evaluate c)) := by
  have hgood : t.Good := Reach.induction_on (Threads.good_init jiffies)
    (fun _ _ _ hg hok hs => Threads.good_step hg hok hs) h
  refine ⟨fun hlooks => ?_, fun hspares t' hs => ?_⟩
  · obtain ⟨a, ha, hw⟩ := hgood
    have hlist {c : Field} (hc : t.dev.client_list c ≠ none) : t.dev.exposure_list ≠ none := by
      rw [Ne, ha.toLinked.list_eq_none, ← Ne, ha.toLinked.queue_ne_nil]
      exact ⟨c, fun ho => hc (ha.toLinked.client_list_eq_none.mpr ho)⟩
    cases w with
    | read c count nonblock => exact hlist hlooks.2.2.2.2
    | evaluate c =>
      rw [Ne, ha.toLinked.list_eq_none]
      exact hw ⟨c, hlooks⟩
    | poll c => exact hlist hlooks.2
    | _ => cases hlooks
  · obtain ⟨hwaits, hnone⟩ := Threads.step_not_spares hgood hspares hs
    exact ⟨hnone, hwaits⟩

/-- Without reads, any steps are taken. -/
lemma reach_others {jiffies : ℕ} (es : List Event) {t t' : Threads}
    (h : Reach (Threads.step k m) (Threads.spares k m) (Threads.init jiffies) t)
    (hidle : ∀ c, t.reader c = .idle)
    (hr : replay (Threads.step k m) t (es.map .other) = some t') :
    Reach (Threads.step k m) (Threads.spares k m) (Threads.init jiffies) t' ∧
      ∀ c, t'.reader c = .idle := by
  induction es generalizing t with
  | nil =>
    cases hr
    exact ⟨h, hidle⟩
  | cons e es ih =>
    obtain ⟨t₁, ht₁, hr⟩ := Option.bind_eq_some_iff.mp hr
    have hspares : t.spares k m (.other e) := by
      rintro ⟨c, n, hn⟩
      rw [hidle] at hn
      cases hn
    refine ih (h.step hspares ht₁) (fun c => ?_) hr
    simp only [Threads.step] at ht₁
    split at ht₁
    · cases ht₁
      exact hidle c
    · obtain ⟨dev, -, ht₁⟩ := Option.bind_eq_some_iff.mp ht₁
      cases ht₁
      exact hidle c

/-- The odd field has asked for an exposure. -/
def asked : List Event :=
  [.register .small, .open_ 1 .binary false, .new_exposure 1 (whole_frame 0 100)]

/-- Its client waits for the exposure. -/
theorem blocked_reader_waiting :
    ∃ t, replay (Threads.step .hz100 .black) (.init 0) (asked.map .other ++ [.read 1 16 false])
        = some t ∧ t.looks (.evaluate 1) ∧ t.dev.exposure_list ≠ none := by
  have hsome : (replay (Threads.step .hz100 .black) (.init 0) (asked.map .other)).isSome := by decide
  obtain ⟨t, ht⟩ := Option.isSome_iff_exists.mp hsome
  obtain ⟨hreach, hidle⟩ := reach_others asked .init (fun _ => rfl) ht
  have hwaiting : (replay (Threads.step .hz100 .black) (.init 0)
      (asked.map .other ++ [.read 1 16 false])).map (fun t => t.reader 1) = some (.waiting 16) := by
    decide
  obtain ⟨t', ht', hw⟩ := Option.map_eq_some_iff.mp hwaiting
  have hread : t.step .hz100 .black (.read 1 16 false) = some t' := by
    rw [replay, List.foldlM_append] at ht'
    rw [replay] at ht
    rw [ht] at ht'
    simpa using ht'
  have hspares : t.spares .hz100 .black (.read 1 16 false) := by
    rintro ⟨c, n, hn⟩
    rw [hidle] at hn
    cases hn
  have hlooks : t'.looks (.evaluate 1) := ⟨16, hw⟩
  exact ⟨t', ht', hlooks, (blocked_reader (hreach.step hspares hread) _).1 hlooks⟩

/-- An abort on the same file leaves a reader waiting that has nothing to look at. -/
theorem abort_under_reader :
    ∃ t, replay (Threads.step .hz100 .black) (.init 0)
        (asked.map .other ++ [.read 1 16 false, .other (.abort 1)]) = some t ∧
      t.looks (.evaluate 1) ∧ t.dev.exposure_list = none := by
  have hrun : (replay (Threads.step .hz100 .black) (.init 0)
      (asked.map .other ++ [.read 1 16 false, .other (.abort 1)])).map
        (fun t => (t.reader 1, t.dev.exposure_list)) = some (.waiting 16, none) := by
    decide
  obtain ⟨t, ht, heq⟩ := Option.map_eq_some_iff.mp hrun
  obtain ⟨hw, hnone⟩ := Prod.mk.inj heq
  exact ⟨t, ht, ⟨16, hw⟩, hnone⟩

end EspLinux.Ccd
