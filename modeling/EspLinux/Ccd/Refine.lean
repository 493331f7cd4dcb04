import EspLinux.Ccd.Calls
import EspLinux.Ccd.Linked

/-!
# The driver refines the scheduler

Every event of the driver, on linked lists, is one step of the scheduler on lists.  Steps
that touch neither a list nor the timer nor a frame of the mini-driver are `Quiet`; the
others are the operations of `Queue`.
-/

namespace EspLinux.Ccd

open EspLinux.Lib

/-- The call starts or latches a frame. -/
def Call.isFrame : Call → Bool
  | .new_frame _ _ => true
  | .latch_frame _ _ => true
  | _ => false

/-- A change that concerns neither the timer nor a frame. -/
structure Quiet (x y : Core) : Prop where
  timer : y.exposure_timer = x.exposure_timer
  exposure : y.exposure = x.exposure
  fresh : y.fresh = x.fresh
  jiffies : x.jiffies ≤ y.jiffies
  calls : ∃ l, y.calls = x.calls ++ l ∧ ∀ w ∈ l, w.isFrame = false

namespace Quiet

variable {x y z : Core}

/-- No call is made, and time may pass. -/
lemma of_same (ht : y.exposure_timer = x.exposure_timer) (he : y.exposure = x.exposure)
    (hf : y.fresh = x.fresh) (hj : x.jiffies ≤ y.jiffies) (hc : y.calls = x.calls) :
    Quiet x y :=
  ⟨ht, he, hf, hj, [], by simp [hc], by simp⟩

lemma refl (x : Core) : Quiet x x := .of_same rfl rfl rfl (le_refl _) rfl

lemma trans (h : Quiet x y) (h' : Quiet y z) : Quiet x z := by
  obtain ⟨l, hl, hq⟩ := h.calls
  obtain ⟨l', hl', hq'⟩ := h'.calls
  refine ⟨h'.timer.trans h.timer, h'.exposure.trans h.exposure, h'.fresh.trans h.fresh,
    h.jiffies.trans h'.jiffies, l ++ l', ?_, ?_⟩
  · rw [hl', hl, List.append_assoc]
  · intro w hw
    rcases List.mem_append.mp hw with hw | hw
    · exact hq w hw
    · exact hq' w hw

lemma call {w : Call} (h : w.isFrame = false) (x : Core) : Quiet x (x.call w) :=
  ⟨rfl, rfl, rfl, le_refl _, [w], rfl, by simpa using h⟩

lemma set_row (n : ℕ) (x : Core) : Quiet x (x.set_row n) :=
  .of_same rfl rfl rfl (le_refl _) rfl

lemma set_client (c : Field) (w : Client) (x : Core) : Quiet x (x.set_client c w) :=
  .of_same rfl rfl rfl (le_refl _) rfl

end Quiet

variable (k : Kernel) (m : Mini)

/-- The steps of the scheduler. -/
inductive Sched.Step : Sched → Event → Sched → Prop
  | quiet {a : Sched} {e : Event} {y : Core} :
      Quiet a.toCore y → Step a e { a with toCore := y }
  | new {a : Sched} {c : Field} {msg : Msg} :
      a.ready c = true → Step a (.new_exposure c msg) (a.new k c msg)
  | abort {a : Sched} {c : Field} : a.ready c = true → Step a (.abort c) (a.abort k c)
  | close {a : Sched} {c : Field} : (a.clients c).opened = true →
      Step a (.close c) { a.abort k c with toCore := (a.abort k c).toCore.close c }
  | unregister {a : Sched} : a.registered = true →
      Step a .unregister { toCore := a.toCore.unregister, queue := [], owned := fun _ => [] }
  | expire {a : Sched} : Step a .expire a.expire
  | endFrame {a : Sched} {e : Event} {i : ℕ} {p : Params} {rest : List (ℕ × Params)}
      {y z : Core} : e.isRead = true → a.queue = (i, p) :: rest → p.complete = 1 →
      Quiet a.toCore y → y.jiffies = a.jiffies →
      Quiet (endFrame k i p { a with toCore := y }).toCore z →
      Step a e { endFrame k i p { a with toCore := y } with toCore := z }

/-! ## Unregistering -/

/-- The device list has been given up, the client lists are still there. -/
structure Detached (s : State) (o : Field → List ℕ) : Prop where
  list : s.exposure_list = none
  clients : ∀ c, Chain (clientNextOf s.heap) (s.client_list c) (o c)
  live : ∀ i e, s.heap i = some e → ∃ c, i ∈ o c
  cells : ∀ c, ∀ i ∈ o c, (s.heap i).isSome
  disjoint : ∀ c c' i, i ∈ o c → i ∈ o c' → c = c'

namespace Detached

variable {s : State} {o : Field → List ℕ} {c : Field} {i : ℕ} {l : List ℕ}

lemma drop_one {e : Exposure} (h : Detached s o) (ho : o c = i :: l) (he : s.heap i = some e) :
    Detached { s with
        client_list := Function.update s.client_list c e.client_next
        heap := Function.update s.heap i none }
      (Function.update o c l) := by
  have hi : i ∈ o c := by simp [ho]
  have hc := h.clients c
  rw [ho, Chain.cons_iff] at hc
  have hil : i ∉ l := by
    have hnd := (h.clients c).nodup
    rw [ho] at hnd
    exact (List.nodup_cons.mp hnd).1
  have hmem : ∀ c' j, j ∈ Function.update o c l c' ↔ j ∈ o c' ∧ j ≠ i := by
    intro c' j
    by_cases hcc : c' = c
    · subst hcc
      rw [Function.update_self, ho, List.mem_cons]
      constructor
      · intro hj
        exact ⟨Or.inr hj, fun hji => hil (hji ▸ hj)⟩
      · rintro ⟨hj | hj, hne⟩
        · exact absurd hj hne
        · exact hj
    · rw [Function.update_of_ne hcc]
      refine ⟨fun hj => ⟨hj, ?_⟩, And.left⟩
      rintro rfl
      exact hcc (h.disjoint c' c j hj hi)
  have hoff : ∀ j, j ≠ i → Function.update s.heap i none j = s.heap j :=
    fun j hj => Function.update_of_ne hj _ _
  refine ⟨h.list, ?_, ?_, ?_, ?_⟩
  · intro c'
    by_cases hcc : c' = c
    · subst hcc
      simp only [Function.update_self]
      have htail := hc.2
      rw [show clientNextOf s.heap i = e.client_next by simp [clientNextOf, he]] at htail
      refine htail.congr fun j hj => ?_
      simp only [clientNextOf, hoff j fun hji => hil (hji ▸ hj)]
    · simp only [Function.update_of_ne hcc]
      refine (h.clients c').congr fun j hj => ?_
      have hji : j ≠ i := by
        rintro rfl
        exact hcc (h.disjoint c' c j hj hi)
      simp only [clientNextOf, hoff j hji]
  · intro j f hf
    have hf' : Function.update s.heap i none j = some f := hf
    have hji : j ≠ i := by
      rintro rfl
      simp at hf'
    rw [hoff j hji] at hf'
    obtain ⟨c', hj⟩ := h.live j f hf'
    exact ⟨c', (hmem c' j).mpr ⟨hj, hji⟩⟩
  · intro c' j hj
    obtain ⟨hj, hji⟩ := (hmem c' j).mp hj
    show (Function.update s.heap i none j).isSome
    rw [hoff j hji]
    exact h.cells c' j hj
  · intro c₁ c₂ j h₁ h₂
    exact h.disjoint c₁ c₂ j ((hmem c₁ j).mp h₁).1 ((hmem c₂ j).mp h₂).1

/-- Without the device list, dropping a client's exposures only frees them. -/
lemma drop_exposures {n : ℕ} (h : Detached s o) (ho : o c = l) (hn : l.length < n) :
    ∃ s', drop_exposures k c n s = some s' ∧ Detached s' (Function.update o c []) ∧
      s'.toCore = s.toCore := by
  induction l generalizing s o n with
  | nil =>
    obtain ⟨n, rfl⟩ : ∃ m, n = m + 1 := ⟨n - 1, by omega⟩
    have hnone := h.clients c
    rw [ho, Chain.nil_iff] at hnone
    refine ⟨s, by rw [Ccd.drop_exposures, hnone], ?_, rfl⟩
    rw [← ho, Function.update_eq_self]
    exact h
  | cons i l ih =>
    obtain ⟨n, rfl⟩ : ∃ m, n = m + 1 := ⟨n - 1, by omega⟩
    have hsome := h.clients c
    rw [ho, Chain.cons_iff] at hsome
    obtain ⟨e, he⟩ := Option.isSome_iff_exists.mp (h.cells c i (by simp [ho]))
    have hdel : del_exposure k i s = some s := by
      simp [Ccd.del_exposure, he, h.list, find_prev]
    obtain ⟨s', hs', hd', hcore⟩ := ih (h.drop_one ho he) (by rw [Function.update_self])
      (by simp at hn; omega)
    refine ⟨s', ?_, ?_, hcore⟩
    · simp only [Ccd.drop_exposures, hsome.1, hdel, Option.bind_eq_bind, Option.bind_some, he]
      exact hs'
    · rwa [Function.update_idem] at hd'

end Detached

lemma Linked.unregister {s : State} {a : Sched} (h : Linked s a) (hr : s.registered = true) :
    ∃ s', ccd_unregister_device k s = some s' ∧
      Linked s' { toCore := a.toCore.unregister, queue := [], owned := fun _ => [] } := by
  have hfr : s.toCore.unregister.fresh = a.fresh := by
    rw [← congrArg Core.fresh h.core]
    unfold Core.unregister
    split <;> rfl
  have hd : Detached { s with toCore := s.toCore.unregister, exposure_list := none } a.owned := by
    refine ⟨rfl, h.clients, ?_, ?_, ?_⟩
    · intro i e he
      obtain ⟨c, hc⟩ := Sched.mem_ids_iff.mp (h.live i e he)
      exact ⟨c, (h.owned_iff c i).mpr hc⟩
    · exact fun c i hi => h.isSome (h.mem_ids_of_owned hi)
    · exact fun c c' i hi hi' => h.client_unique hi' hi
  have hlen : ∀ c, (a.owned c).length < s.toCore.unregister.fresh + 1 := by
    intro c
    rw [hfr]
    exact Nat.lt_succ_of_le (h.owned_length_le c)
  obtain ⟨s₀, hs₀, hd₀, hc₀⟩ := hd.drop_exposures k (c := 0) rfl (hlen 0)
  obtain ⟨s₁, hs₁, hd₁, hc₁⟩ := hd₀.drop_exposures k (c := 1) (n := s₀.fresh + 1) rfl
    (by rw [hc₀]; exact hlen 1)
  obtain ⟨s₂, hs₂, hd₂, hc₂⟩ := hd₁.drop_exposures k (c := 2) (n := s₁.fresh + 1) rfl
    (by rw [hc₁, hc₀]; exact hlen 2)
  have hempty : Function.update (Function.update (Function.update a.owned 0 []) 1 []) 2 []
      = fun _ => [] := by
    funext c
    fin_cases c <;> rfl
  rw [hempty] at hd₂
  refine ⟨s₂, ?_, ⟨?_, ?_, ?_, ?_⟩, hd₂.clients, ?_, ?_⟩
  · rw [ccd_unregister_device, if_pos hr]
    simp only [hs₀, hs₁, hs₂, Option.bind_eq_bind, Option.bind_some]
  · rw [hc₂, hc₁, hc₀, h.core]
  · exact hd₂.list
  · intro x hx
    simp at hx
  · intro i hi
    simp [Sched.ids] at hi
  · intro i e he
    obtain ⟨c, hc⟩ := hd₂.live i e he
    simp at hc
  · intro c i
    simp [Sched.tags]

/-! ## Reading -/

/-- A quiet change that takes no time and keeps the registration and the open clients. -/
structure Calm (x y : Core) : Prop extends Quiet x y where
  time : y.jiffies = x.jiffies
  registered : y.registered = x.registered
  opened : ∀ c, (y.clients c).opened = (x.clients c).opened

namespace Calm

variable {x y z : Core}

lemma refl (x : Core) : Calm x x := ⟨.refl x, rfl, rfl, fun _ => rfl⟩

lemma trans (h : Calm x y) (h' : Calm y z) : Calm x z :=
  ⟨h.toQuiet.trans h'.toQuiet, h'.time.trans h.time, h'.registered.trans h.registered,
    fun c => (h'.opened c).trans (h.opened c)⟩

lemma call {w : Call} (h : w.isFrame = false) (x : Core) : Calm x (x.call w) :=
  ⟨.call h x, rfl, rfl, fun _ => rfl⟩

lemma set_row (n : ℕ) (x : Core) : Calm x (x.set_row n) :=
  ⟨.set_row n x, rfl, rfl, fun _ => rfl⟩

lemma set_client {c : Field} {w : Client} {x : Core} (h : w.opened = (x.clients c).opened) :
    Calm x (x.set_client c w) := by
  refine ⟨.set_client c w x, rfl, rfl, fun c' => ?_⟩
  by_cases hcc : c' = c
  · subst hcc
    simp [Core.set_client, h]
  · simp [Core.set_client, hcc]

end Calm

lemma begin_frame_calm (p : Params) (x : Core) : Calm x (begin_frame p x) := by
  unfold begin_frame
  split
  · exact (Calm.call rfl x).trans (.set_row 0 _)
  · exact .refl x

lemma read_rows_calm {p : Params} {x : Core} {n count : ℕ} {data : List UInt8} {r : Rows}
    (h : loop (read_rows m p) n ⟨x, count, data⟩ = some r) : Calm x r.core := by
  refine loop_invariant (P := fun r => Calm x r.core) (Q := fun r => Calm x r.core) ?_ ?_
    (.refl x) h
  · intro r r' hr hstep
    unfold read_rows at hstep
    split at hstep
    · cases hstep
      exact hr.trans ((Calm.call rfl r.core).trans (.set_row _ _))
    · cases hstep
  · intro r r' hr hstep
    unfold read_rows at hstep
    split at hstep
    · cases hstep
    · cases hstep
      exact hr

/-- What a read does to the scheduler: nothing but quiet changes, or the end of the frame
between two of them. -/
inductive Sched.Reads (i : ℕ) (p : Params) (a : Sched) : Sched → Prop
  | rows {y : Core} : Calm a.toCore y → Reads i p a { a with toCore := y }
  | last {y z : Core} : Calm a.toCore y →
      Calm (endFrame k i p { a with toCore := y }).toCore z →
      Reads i p a { endFrame k i p { a with toCore := y } with toCore := z }

lemma Sched.Reads.calm_left {i : ℕ} {p : Params} {a b : Sched} {y : Core}
    (hy : Calm a.toCore y) (h : Sched.Reads k i p { a with toCore := y } b) :
    Sched.Reads k i p a b := by
  cases h with
  | rows hz => exact .rows (hy.trans hz)
  | last hz hw => exact .last (hy.trans hz) hw

lemma Sched.Reads.calm_right {i : ℕ} {p : Params} {a b : Sched} {y : Core}
    (h : Sched.Reads k i p a b) (hy : Calm b.toCore y) :
    Sched.Reads k i p a { b with toCore := y } := by
  cases h with
  | rows hz => exact .rows (hz.trans hy)
  | last hz hw => exact .last hz (hw.trans hy)

namespace Linked

variable {s s' : State} {a : Sched} {i count : ℕ} {p : Params} {rest : List (ℕ × Params)}

lemma set_calm {y : Core} (h : Linked s a) (hy : Calm a.toCore y) :
    Linked { s with toCore := y } { a with toCore := y } :=
  h.set_core hy.fresh

lemma read_exposure {data : List UInt8} (h : Linked s a) (hq : a.queue = (i, p) :: rest)
    (hr : read_exposure k m i count s = some (s', data)) :
    ∃ b, Sched.Reads k i p a b ∧ Linked s' b := by
  obtain ⟨e, he, rfl, -, -⟩ := h.head_cell hq
  simp only [Ccd.read_exposure, he, Option.bind_eq_bind, Option.bind_some,
    Option.bind_eq_some_iff] at hr
  obtain ⟨r, hloop, hr⟩ := hr
  rw [h.core] at hloop
  have hcalm : Calm a.toCore r.core :=
    (begin_frame_calm e.toParams a.toCore).trans (read_rows_calm m hloop)
  have h₁ := h.set_calm hcalm
  split at hr
  · obtain ⟨s₁, hs₁, h₂⟩ := h₁.end_frame k hq
    rw [hs₁, Option.bind_some] at hr
    cases hr
    exact ⟨_, .last hcalm (.refl _), h₂⟩
  · cases hr
    exact ⟨_, .rows hcalm, h₁⟩

/-- The read ends with a change of the client's record. -/
lemma reads_client {b : Sched} {c : Field} {w : Client} (h : Linked s b)
    (hb : Sched.Reads k i p a b) (hw : w.opened = (s.clients c).opened) :
    ∃ b', Sched.Reads k i p a b' ∧ Linked { s with toCore := s.toCore.set_client c w } b' := by
  rw [h.core] at hw ⊢
  exact ⟨_, hb.calm_right k (.set_client hw), h.set_calm (.set_client hw)⟩

lemma read_binary_exposure {data : List UInt8} (h : Linked s a)
    (hq : a.queue = (i, p) :: rest)
    (hr : read_binary_exposure k m i count s = some (s', data)) :
    ∃ b, Sched.Reads k i p a b ∧ Linked s' b := by
  obtain ⟨e, he, rfl, -, -⟩ := h.head_cell hq
  simp only [Ccd.read_binary_exposure, he, Option.bind_eq_bind, Option.bind_some] at hr
  split at hr
  · obtain ⟨⟨s₁, d⟩, hs₁, hr⟩ := Option.bind_eq_some_iff.mp hr
    cases hr
    exact h.read_exposure k m hq hs₁
  · obtain ⟨⟨s₁, d⟩, hs₁, hr⟩ := Option.bind_eq_some_iff.mp hr
    obtain ⟨b, hb, h₁⟩ := h.read_exposure k m hq hs₁
    cases hr
    exact h₁.reads_client k hb rfl

lemma read_text_exposure {data : List UInt8} (h : Linked s a)
    (hq : a.queue = (i, p) :: rest)
    (hr : read_text_exposure k m i count s = some (s', data)) :
    ∃ b, Sched.Reads k i p a b ∧ Linked s' b := by
  obtain ⟨e, he, rfl, -, -⟩ := h.head_cell hq
  simp only [Ccd.read_text_exposure, he, Option.bind_eq_bind, Option.bind_some] at hr
  obtain ⟨⟨s₁, d⟩, hs₁, hr⟩ := Option.bind_eq_some_iff.mp hr
  obtain ⟨x, hx, hr⟩ := Option.bind_eq_some_iff.mp hr
  have hcalm : Calm a.toCore (a.toCore.set_client e.client
      (if a.current_read_row = CCD_START_FRAME_LOAD
        then text_start e.toParams (a.clients e.client) else a.clients e.client)) := by
    refine Calm.set_client ?_
    split <;> rfl
  rw [h.core] at hs₁
  obtain ⟨b, hb, h₁⟩ := (h.set_calm hcalm).read_exposure k m hq hs₁
  cases hr
  refine h₁.reads_client k (hb.calm_left k hcalm) ?_
  have hxo : x.opened = (s₁.clients e.client).opened := text_pixels_opened hx
  show (if _ then text_end x else x).opened = _
  split
  · exact hxo
  · exact hxo

/-- The head of the list is read only when it is complete. -/
lemma ccd_read_head {c : Field} {res : Except Errno (List UInt8)} (h : Linked s a)
    (hr : ccd_read_head k m c count s = some (s', res)) :
    Linked s' a ∨ ∃ i p rest b, a.queue = (i, p) :: rest ∧ p.complete = 1 ∧
      Sched.Reads k i p a b ∧ Linked s' b := by
  cases hq : a.queue with
  | nil =>
    have hel : s.exposure_list = none := by
      have hc := h.chain
      rwa [Sched.ids, hq, List.map_nil, Chain.nil_iff] at hc
    simp only [Ccd.ccd_read_head, hel] at hr
    cases hr
    exact .inl h
  | cons x rest =>
    obtain ⟨i, p⟩ := x
    obtain ⟨e, he, rfl, hel, -⟩ := h.head_cell hq
    simp only [Ccd.ccd_read_head, hel, he, Option.bind_eq_bind, Option.bind_some] at hr
    split at hr
    · rename_i hcond
      refine .inr ⟨i, e.toParams, rest, ?_⟩
      split at hr
      · obtain ⟨⟨s₁, d⟩, hs₁, hr⟩ := Option.bind_eq_some_iff.mp hr
        cases hr
        obtain ⟨b, hb, h₁⟩ := h.read_binary_exposure k m hq hs₁
        exact ⟨b, rfl, hcond.2, hb, h₁⟩
      · obtain ⟨⟨s₁, d⟩, hs₁, hr⟩ := Option.bind_eq_some_iff.mp hr
        cases hr
        obtain ⟨b, hb, h₁⟩ := h.read_text_exposure k m hq hs₁
        exact ⟨b, rfl, hcond.2, hb, h₁⟩
    · cases hr
      exact .inl h

end Linked

/-! ## One event -/

/-- The lists represent a scheduler state in which clients that are not open have no
exposures and an unregistered device has none at all. -/
structure Represents (s : State) (a : Sched) : Prop extends Linked s a where
  closed : ∀ c, (a.clients c).opened = false → a.owned c = []
  unregistered : a.registered = false → a.queue = []

lemma Represents.init (jiffies : ℕ) :
    Represents (State.init jiffies)
      { toCore := (State.init jiffies).toCore, queue := [], owned := fun _ => [] } where
  core := rfl
  chain := rfl
  holds := fun x hx => by simp at hx
  fresh := fun i hi => by simp [Sched.ids] at hi
  clients := fun _ => rfl
  live := fun i e he => by simp [State.init] at he
  owned_iff := fun c i => by simp [Sched.tags]
  closed := fun _ _ => rfl
  unregistered := fun _ => rfl

namespace Represents

variable {s s' : State} {a b : Sched} {c : Field}

/-- Calm changes keep the representation. -/
lemma of_calm {y : Core} (h : Represents s a) (hl : Linked s' { a with toCore := y })
    (hy : Calm a.toCore y) : Represents s' { a with toCore := y } := by
  refine ⟨hl, fun c hc => h.closed c ?_, fun hr => h.unregistered ?_⟩
  · rw [← hy.opened c]
    exact hc
  · rw [← hy.registered]
    exact hr

lemma endFrame_owned (i : ℕ) (p : Params) (a : Sched) :
    (a.endFrame k i p).owned = Function.update a.owned p.client ((a.owned p.client).erase i) := by
  simp [Sched.endFrame]

lemma endFrame_static (i : ℕ) (p : Params) (a : Sched) :
    (a.endFrame k i p).static = a.static := by
  unfold Sched.endFrame
  exact Sched.del_static k i _

/-- A read is a step of the scheduler. -/
lemma of_reads {e : Event} {i : ℕ} {p : Params} {rest : List (ℕ × Params)} (h : Represents s a)
    (he : e.isRead = true) (hl : Linked s' b) (hq : a.queue = (i, p) :: rest)
    (hp : p.complete = 1) (hb : Sched.Reads k i p a b) :
    Sched.Step k a e b ∧ Represents s' b := by
  cases hb with
  | rows hy => exact ⟨.quiet hy.toQuiet, h.of_calm hl hy⟩
  | @last y z hy hz =>
    refine ⟨.endFrame he hq hp hy.toQuiet hy.time hz.toQuiet, hl, fun c hc => ?_, fun hr => ?_⟩
    · have hstat := endFrame_static k i p { a with toCore := y }
      have hopen : (z.clients c).opened = (a.clients c).opened := by
        rw [hz.opened c, ← hy.opened c]
        exact congrArg (fun x => (x.2.2.1 c).opened) hstat
      have hnil : a.owned c = [] := h.closed c (hopen ▸ hc)
      show (Sched.endFrame k i p { a with toCore := y }).owned c = []
      rw [endFrame_owned]
      by_cases hcc : c = p.client
      · subst hcc
        simp [hnil]
      · simp [hcc, hnil]
    · have hstat := endFrame_static k i p { a with toCore := y }
      have hreg : z.registered = a.registered := by
        rw [hz.registered, ← hy.registered]
        exact congrArg Prod.fst hstat
      have hnil := h.unregistered (hreg ▸ hr)
      rw [hq] at hnil
      cases hnil

/-- A step that keeps the exposures, with a core that represents them. -/
lemma of_quiet {e : Event} {y : Core} {t : State} (h : Represents s a) (hy : Quiet a.toCore y)
    (hlist : t.exposure_list = s.exposure_list) (hcl : t.client_list = s.client_list)
    (hheap : t.heap = s.heap) (hcore : t.toCore = y)
    (hopen : ∀ c, (y.clients c).opened = false → a.owned c = [])
    (hreg : y.registered = false → a.queue = []) :
    ∃ b, Sched.Step k a e b ∧ Represents t b := by
  have ht : t = { s with toCore := y } := by
    cases t
    simp_all
  subst ht
  exact ⟨_, .quiet hy, h.toLinked.set_core hy.fresh, hopen, hreg⟩

lemma register (g : Geometry) (h : Represents s a) :
    ∃ b, Sched.Step k a (.register g) b ∧ Represents (ccd_register_device g s) b := by
  unfold ccd_register_device
  split
  · exact ⟨a, .quiet (.refl _), h⟩
  · rename_i hr
    have hr' : a.registered = false := by
      rw [← congrArg Core.registered h.core]
      simpa using hr
    have hel : s.exposure_list = none := by
      have hc := h.chain
      rwa [Sched.ids, h.unregistered hr', List.map_nil, Chain.nil_iff] at hc
    refine h.of_quiet k (y := { a.toCore with geometry := g, registered := true })
      (.of_same rfl rfl rfl (le_refl _) rfl) hel.symm rfl rfl ?_ h.closed ?_
    · rw [h.core]
    · intro hf
      cases hf

lemma unregister (h : Represents s a) (hs : ccd_unregister_device k s = some s') :
    ∃ b, Sched.Step k a .unregister b ∧ Represents s' b := by
  by_cases hr : s.registered
  · obtain ⟨s₁, hs₁, h₁⟩ := h.toLinked.unregister k hr
    rw [hs₁] at hs
    cases hs
    have hr' : a.registered = true := by
      rw [← congrArg Core.registered h.core]
      exact hr
    exact ⟨_, .unregister hr', h₁, fun _ _ => rfl, fun _ => rfl⟩
  · rw [ccd_unregister_device, if_neg hr] at hs
    cases hs
    exact ⟨a, .quiet (.refl _), h⟩

lemma open_ (c : Field) (mode : Mode) (nomem : Bool) (h : Represents s a) :
    ∃ b, Sched.Step k a (.open_ c mode nomem) b ∧
      Represents (ccd_open m c mode nomem s).1 b := by
  have hsame : ∃ b, Sched.Step k a (.open_ c mode nomem) b ∧ Represents s b :=
    ⟨a, .quiet (.refl _), h⟩
  unfold ccd_open
  split
  · exact hsame
  split
  · exact hsame
  split
  · exact hsame
  rename_i hreg _ hop
  have hcalm : Calm a.toCore (if a.opened = 0 then a.toCore.call .open_ else a.toCore) := by
    split
    · exact .call rfl _
    · exact .refl _
  have hop' : (a.clients c).opened = false := by
    rw [← congrArg (fun x => (Core.clients x c).opened) h.core]
    simpa using hop
  have hnil : s.client_list c = none := by
    have hc := h.clients c
    rwa [h.closed c hop', Chain.nil_iff] at hc
  have hlist : Function.update s.client_list c none = s.client_list := by
    rw [← hnil, Function.update_eq_self]
  simp only [h.core]
  generalize (if a.opened = 0 then a.toCore.call .open_ else a.toCore) = y at hcalm
  generalize (if a.opened = 0 then m.open_ a.calls else 0) = err
  -- opening a client that had no exposures, or failing to
  have hclosed (w : Client) : ∀ c', ((y.set_client c w).clients c').opened = false →
      a.owned c' = [] := by
    intro c' hc'
    by_cases hcc : c' = c
    · subst hcc
      exact h.closed c' hop'
    · refine h.closed c' ?_
      rw [← hcalm.opened c']
      simpa [Core.set_client, hcc] using hc'
  have hregs : y.registered = false → a.queue = [] := fun hr =>
    h.unregistered (hcalm.registered ▸ hr)
  split
  · refine h.of_quiet k hcalm.toQuiet rfl rfl rfl rfl (fun c' hc' => h.closed c' ?_) hregs
    rw [← hcalm.opened c']
    exact hc'
  · split
    · exact h.of_quiet k (hcalm.toQuiet.trans (.set_client c _ y)) rfl hlist rfl rfl
        (hclosed _) hregs
    · refine h.of_quiet k ?_ rfl hlist rfl rfl (hclosed _) hregs
      exact hcalm.toQuiet.trans (.of_same rfl rfl rfl (le_refl _) rfl)

lemma abort (c : Field) (h : Represents s a) (hs : abort_exposures k c s = some s') :
    Represents s' (a.abort k c) := by
  obtain ⟨s₁, hs₁, h₁⟩ := h.toLinked.abort_exposures k (c := c)
  rw [hs₁] at hs
  cases hs
  refine ⟨h₁, fun c' hc' => ?_, fun hr => ?_⟩
  · rw [Sched.abort_opened] at hc'
    rw [Sched.abort_owned]
    by_cases hcc : c' = c
    · rw [hcc, Function.update_self]
    · rw [Function.update_of_ne hcc]
      exact h.closed c' hc'
  · rw [Sched.abort_registered] at hr
    have hq := h.unregistered hr
    have hids : (a.abort k c).tags = [] := by
      rw [List.eq_nil_iff_forall_not_mem]
      rintro ⟨i, c'⟩ hmem
      rw [← h₁.owned_iff, Sched.abort_owned] at hmem
      by_cases hcc : c' = c
      · rw [hcc, Function.update_self] at hmem
        simp at hmem
      · rw [Function.update_of_ne hcc, h.owned_iff, Sched.tags, hq] at hmem
        simp at hmem
    simpa [Sched.tags] using hids

lemma close_quiet (c : Field) (x : Core) :
    Quiet x (x.close c) ∧ (x.close c).registered = x.registered ∧
      ∀ c', c' ≠ c → ((x.close c).clients c').opened = (x.clients c').opened := by
  simp only [Core.close]
  split
  · refine ⟨.set_client c _ x, rfl, fun c' hcc => ?_⟩
    simp [Core.set_client, hcc]
  · split
    · refine ⟨⟨rfl, rfl, rfl, le_refl _, [.close], rfl, by simp [Call.isFrame]⟩, rfl,
        fun c' hcc => ?_⟩
      simp [Core.call, Core.set_client, hcc]
    · refine ⟨(.of_same rfl rfl rfl (le_refl _) rfl), rfl, fun c' hcc => ?_⟩
      simp [Core.set_client, hcc]

lemma close (c : Field) (h : Represents s a) (hs : ccd_close k c s = some s') :
    ∃ b, Sched.Step k a (.close c) b ∧ Represents s' b := by
  unfold ccd_close at hs
  split at hs
  · rename_i hopened
    rw [h.core] at hopened
    obtain ⟨s₁, hs₁, h₁⟩ := h.toLinked.abort_exposures k (c := c)
    have hrep := h.abort k c hs₁
    simp only [hs₁, Option.bind_eq_bind, Option.bind_some] at hs
    cases hs
    obtain ⟨hquiet, hreg, hopen⟩ := close_quiet c (a.abort k c).toCore
    refine ⟨_, .close hopened, ?_, ?_, ?_⟩
    · rw [hrep.core]
      exact hrep.toLinked.set_core hquiet.fresh
    · intro c' hc'
      by_cases hcc : c' = c
      · show (a.abort k c).owned c' = []
        rw [Sched.abort_owned, hcc, Function.update_self]
      · refine hrep.closed c' ?_
        rw [← hopen c' hcc]
        exact hc'
    · intro hr
      refine hrep.unregistered ?_
      rw [← hreg]
      exact hr
  · cases hs
    exact ⟨a, .quiet (.refl _), h⟩

lemma new_exposure (c : Field) (msg : Msg) (h : Represents s a) (hready : s.ready c = true)
    (hs : new_exposure k c msg s = some s') : Represents s' (a.new k c msg) := by
  obtain ⟨s₁, hs₁, h₁⟩ := h.toLinked.new_exposure k (c := c) msg
  rw [hs₁] at hs
  cases hs
  rw [h.core, Core.ready, Bool.and_eq_true] at hready
  have hstat : (a.new k c msg).registered = a.registered ∧
      (a.new k c msg).clients = a.clients := by
    rcases Sched.new_cases k a c msg rfl with ⟨-, hn⟩ | ⟨_, _, -, -, -, hn⟩ |
      ⟨_, _, -, -, -, hn⟩ | ⟨_, _, _, -, -, hn⟩ <;> rw [hn] <;> exact ⟨rfl, rfl⟩
  refine ⟨h₁, fun c' hc' => ?_, fun hr => ?_⟩
  · rw [hstat.2] at hc'
    have hcc : c' ≠ c := by
      rintro rfl
      rw [hready.2] at hc'
      cases hc'
    rw [Sched.new_owned, Function.update_of_ne hcc]
    exact h.closed c' hc'
  · rw [hstat.1, hready.1] at hr
    cases hr

lemma expire (h : Represents s a) (hs : complete_exposure s = some s') :
    Represents s' a.expire := by
  obtain ⟨s₁, hs₁, h₁⟩ := h.toLinked.complete_exposure
  rw [hs₁] at hs
  cases hs
  have hsame : a.expire.static = a.static ∧ a.expire.owned = a.owned ∧
      a.expire.tags = a.tags := by
    rcases a.expire_cases with ⟨-, hx⟩ | ⟨-, hx⟩ | ⟨i, -, -, hx⟩
    · rw [hx]
      exact ⟨rfl, rfl, rfl⟩
    · rw [hx]
      exact ⟨rfl, rfl, rfl⟩
    · rw [hx, Sched.finish_static, Sched.finish_owned, Sched.finish_tags]
      exact ⟨rfl, rfl, rfl⟩
  obtain ⟨hstat, howned, htags⟩ := hsame
  refine ⟨h₁, fun c hc => ?_, fun hr => ?_⟩
  · rw [howned]
    exact h.closed c ((congrArg (fun x => (x.2.2.1 c).opened) hstat).symm.trans hc)
  · have hq := h.unregistered ((congrArg Prod.fst hstat).symm.trans hr)
    have hnil : a.expire.tags = [] := by
      rw [htags, Sched.tags, hq]
      rfl
    simpa [Sched.tags] using hnil

lemma ccd_read_head {e : Event} (c : Field) (count : ℕ) {res : Except Errno (List UInt8)}
    (h : Represents s a) (he : e.isRead = true) (hs : ccd_read_head k m c count s = some (s', res)) :
    ∃ b, Sched.Step k a e b ∧ Represents s' b := by
  rcases h.toLinked.ccd_read_head k m hs with hl | ⟨i, p, rest, b, hq, hp, hb, hl⟩
  · exact ⟨a, .quiet (.refl _), hl, h.closed, h.unregistered⟩
  · exact ⟨b, h.of_reads k he hl hq hp hb⟩

lemma ccd_read {e : Event} (c : Field) (count : ℕ) {res : Except Errno (List UInt8)}
    (h : Represents s a) (he : e.isRead = true) (hs : ccd_read k m c count s = some (s', res)) :
    ∃ b, Sched.Step k a e b ∧ Represents s' b := by
  have hsame : ∃ b, Sched.Step k a e b ∧ Represents s b := ⟨a, .quiet (.refl _), h⟩
  simp only [Ccd.ccd_read] at hs
  by_cases hreg : s.registered = false
  · rw [if_pos hreg] at hs
    cases hs
    exact hsame
  rw [if_neg hreg] at hs
  by_cases hzero : count = 0
  · rw [if_pos hzero] at hs
    cases hs
    exact hsame
  rw [if_neg hzero] at hs
  by_cases hbuf : 0 < (s.clients c).out_buf_len
  · rw [if_pos hbuf] at hs
    cases hs
    rw [h.core]
    have hcalm : Calm a.toCore (a.toCore.set_client c _) :=
      Calm.set_client (w := ((a.clients c).deliver (min count (a.clients c).out_buf_len)).1) rfl
    exact ⟨_, .quiet hcalm.toQuiet, h.of_calm (h.toLinked.set_calm hcalm) hcalm⟩
  rw [if_neg hbuf] at hs
  by_cases hlist : s.client_list c = none
  · rw [if_pos hlist] at hs
    cases hs
    exact hsame
  rw [if_neg hlist] at hs
  split at hs
  · cases hs
  · obtain ⟨f, -, hs⟩ := Option.bind_eq_some_iff.mp hs
    split at hs
    · cases hs
      exact hsame
    · exact h.ccd_read_head k m c count he hs

end Represents

/-- Every event of the driver is a step of the scheduler. -/
theorem step_refines {s s' : State} {a : Sched} {e : Event} (h : Represents s a)
    (hs : step k m s e = some s') : ∃ b, Sched.Step k a e b ∧ Represents s' b := by
  have hsame : ∃ b, Sched.Step k a e b ∧ Represents s b := ⟨a, .quiet (.refl _), h⟩
  cases e with
  | tick d =>
    cases hs
    refine h.of_quiet k (y := { a.toCore with jiffies := a.jiffies + d })
      (.of_same rfl rfl rfl (Nat.le_add_right _ _) rfl) rfl rfl rfl ?_ h.closed h.unregistered
    rw [h.core]
  | register g =>
    cases hs
    exact h.register k g
  | unregister => exact h.unregister k hs
  | open_ c mode nomem =>
    cases hs
    exact h.open_ k m c mode nomem
  | close c => exact h.close k c hs
  | new_exposure c msg =>
    simp only [step] at hs
    split at hs
    · rename_i hready
      exact ⟨_, .new (h.core ▸ hready), h.new_exposure k c msg hready hs⟩
    · cases hs
      exact hsame
  | abort c =>
    simp only [step] at hs
    split at hs
    · rename_i hready
      exact ⟨_, .abort (h.core ▸ hready), h.abort k c hs⟩
    · cases hs
      exact hsame
  | expire => exact ⟨_, .expire, h.expire hs⟩
  | read c count =>
    simp only [step] at hs
    split at hs
    · obtain ⟨⟨s₁, res⟩, hr, rfl⟩ := Option.map_eq_some_iff.mp hs
      exact h.ccd_read k m c count rfl hr
    · cases hs
      exact hsame
  | wake c count =>
    simp only [step] at hs
    split at hs
    · obtain ⟨⟨s₁, res⟩, hr, rfl⟩ := Option.map_eq_some_iff.mp hs
      exact h.ccd_read_head k m c count rfl hr
    · cases hs
      exact hsame

/-! ## The calls that scheduling makes -/

/-- Only calls about frames are made when an exposure is deleted. -/
lemma Sched.del_calls (i : ℕ) (a : Sched) :
    ∃ l, (a.del k i).calls = a.calls ++ l ∧ ∀ w ∈ l, w.isFrame = true := by
  have hfinish (j : ℕ) (b : Sched) :
      ∃ l, (b.finish j).calls = b.calls ++ l ∧ ∀ w ∈ l, w.isFrame = true := by
    unfold Sched.finish
    split
    · exact ⟨[], by simp, by simp⟩
    · split
      · exact ⟨[_], rfl, by simp [Call.isFrame]⟩
      · exact ⟨[], by simp, by simp⟩
  have hadvance (p : Params) (rest : List (ℕ × Params)) (b : Sched) :
      ∃ l, (b.advance k p rest).calls = b.calls ++ l ∧ ∀ w ∈ l, w.isFrame = true := by
    cases rest with
    | nil => exact ⟨[], by simp [Sched.advance], by simp⟩
    | cons x rest =>
      simp only [Sched.advance]
      split
      · exact ⟨[_], rfl, by simp [Call.isFrame]⟩
      · split
        · exact hfinish _ _
        · exact ⟨[], by simp [Core.add_timer], by simp⟩
  unfold Sched.del
  split
  · exact ⟨[], by simp, by simp⟩
  · split
    · obtain ⟨l, hl, hf⟩ := hadvance _ _ _
      refine ⟨l, hl.trans ?_, hf⟩
      split <;> rfl
    · exact ⟨[], by simp, by simp⟩

end EspLinux.Ccd
