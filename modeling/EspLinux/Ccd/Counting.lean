import EspLinux.Ccd.Lists

/-!
# Who has the device open

`ccd_devices[n].opened` counts the clients that have opened the device, and the mini-driver is
opened for the first of them and closed after the last.  The count is set back when the device is
unplugged, but the clients stay open until they are closed, which may be when the device has been
plugged in again: then `ccd_close` takes a client of the old registration off the count of the new
one.  And when there is no memory for the buffers of the first client, the mini-driver has been
opened already and stays so.

In every run in which neither happens the count is right (`open_counting`).
-/

namespace EspLinux.Ccd

open EspLinux.Lib

/-- Whether the mini-driver is open after the calls, if the calls `done` have been made before and
have left it open or not. -/
def driver_open (m : Mini) : (done : List Call) → Bool → List Call → Bool
  | _, b, [] => b
  | done, b, .open_ :: l => driver_open m (done ++ [.open_]) (b || decide (m.open_ done = 0)) l
  | done, _, .close :: l => driver_open m (done ++ [.close]) false l
  | done, b, w :: l => driver_open m (done ++ [w]) b l

/-- A device slot, and who has opened it. -/
structure Slot extends State where
  /-- The clients that have been opened since the registration and are still open. -/
  current : Finset Field

variable (k : Kernel) (m : Mini)

namespace Slot

/-- The clients after an event. -/
def after (s : Slot) : Event → Finset Field
  | .register _ => if s.registered then s.current else ∅
  | .unregister => ∅
  | .open_ c mode nomem =>
    match (ccd_open m c mode nomem s.toState).2 with
    | .ok _ => insert c s.current
    | .error _ => s.current
  | .close c => s.current.erase c
  | _ => s.current

/-- One event. -/
def step (s : Slot) (e : Event) : Option Slot :=
  (Ccd.step k m s.toState e).map fun s' => { s' with current := s.after m e }

/-- The slot after `init_module`. -/
def init (jiffies : ℕ) : Slot := { State.init jiffies with current := ∅ }

/-- The condition on an event: there is memory for the first client, and a client of an earlier
registration is not closed while a client of this one is open. -/
def CountsRight (s : Slot) : Event → Prop
  | .open_ c _ nomem =>
    nomem = true → s.admits c → s.opened = 0 → m.open_ s.calls ≠ 0
  | .close c => (s.clients c).opened = true → c ∈ s.current ∨ s.opened = 0
  | _ => True

/-- What holds of a slot in these runs. -/
structure Counted (s : Slot) : Prop where
  count : s.opened = s.current.card
  open_ : ∀ c ∈ s.current, (s.clients c).opened = true
  unregistered : s.registered = false → s.current = ∅
  driver : driver_open m [] false s.calls = true ↔ s.current.Nonempty

end Slot

variable {k m} {s s' : Slot} {e : Event} {c : Field} {l l' : List Call} {b : Bool} {done : List Call}

/-! ## The calls -/

lemma driver_open_append :
    driver_open m done b (l ++ l') =
      driver_open m (done ++ l) (driver_open m done b l) l' := by
  induction l generalizing done b with
  | nil => simp [driver_open]
  | cons w l ih =>
    cases w <;> simp only [List.cons_append, driver_open] <;> rw [ih] <;> simp

/-- What the exposures need neither opens nor closes it. -/
lemma driver_open_work (h : ∀ w ∈ l, w.isWork = true) : driver_open m done b l = b := by
  induction l generalizing done b with
  | nil => rfl
  | cons w l ih =>
    have hw := h w List.mem_cons_self
    have hl : ∀ w ∈ l, w.isWork = true := fun w hw => h w (List.mem_cons_of_mem _ hw)
    cases w with
    | open_ => cases hw
    | close => cases hw
    | temp_control fan temp => cases hw
    | _ => exact ih hl

lemma Works.driver {x y : Core} (h : Works x y) :
    driver_open m [] false y.calls = driver_open m [] false x.calls := by
  obtain ⟨l, hl, hwork⟩ := h.calls
  rw [hl, driver_open_append, driver_open_work hwork]

@[simp] lemma driver_open_close : driver_open m done b (l ++ [.close]) = false := by
  rw [driver_open_append]
  rfl

lemma driver_open_open :
    driver_open m done b (l ++ [.open_]) =
      (driver_open m done b l || decide (m.open_ (done ++ l) = 0)) := by
  rw [driver_open_append]
  rfl

namespace Slot

/-! ## The events -/

lemma Counted.init (jiffies : ℕ) : Counted m (init jiffies) := by
  refine ⟨rfl, fun c hc => ?_, fun _ => rfl, ?_⟩
  · cases hc
  · exact ⟨fun h => Bool.noConfusion h, fun h => absurd h Finset.not_nonempty_empty⟩

/-- The routines for the exposures. -/
lemma Counted.works {t : State} (h : Counted m s) (hw : Works s.toCore t.toCore) :
    Counted m { t with current := s.current } := by
  refine ⟨hw.opened.trans h.count, fun c hc => (hw.clients c).trans (h.open_ c hc), fun hr => ?_, ?_⟩
  · exact h.unregistered (hw.registered ▸ hr)
  · rw [← h.driver]
    show driver_open m [] false t.calls = true ↔ _
    rw [hw.driver]

lemma Counted.register {g : Geometry} (h : Counted m s) :
    Counted m { ccd_register_device g s.toState with current := s.after m (.register g) } := by
  cases hr : s.registered with
  | true =>
    have hsame : ccd_register_device g s.toState = s.toState := by rw [ccd_register_device, if_pos hr]
    have hafter : s.after m (.register g) = s.current := if_pos hr
    rw [hsame, hafter]
    exact h
  | false =>
    have hnone : s.current = ∅ := h.unregistered hr
    have hafter : s.after m (.register g) = ∅ := if_neg (by rw [hr]; exact Bool.false_ne_true)
    have hnew : ccd_register_device g s.toState =
        { s.toState with
          toCore := { s.toCore with geometry := g, registered := true }, exposure_list := none } := by
      rw [ccd_register_device, if_neg (by rw [hr]; exact Bool.false_ne_true)]
    rw [hnew, hafter, ← hnone]
    refine ⟨h.count, h.open_, fun _ => hnone, ?_⟩
    exact h.driver

lemma Counted.unregister {t : State} (h : Counted m s)
    (ht : ccd_unregister_device k s.toState = some t) : Counted m { t with current := ∅ } := by
  rw [ccd_unregister_device] at ht
  split at ht
  · obtain ⟨s₀, hs₀, ht⟩ := Option.bind_eq_some_iff.mp ht
    obtain ⟨s₁, hs₁, ht⟩ := Option.bind_eq_some_iff.mp ht
    have hw := ((drop_exposures_works hs₀).trans (drop_exposures_works hs₁)).trans
      (drop_exposures_works ht)
    refine ⟨?_, fun c hc => ?_, fun _ => rfl, ?_⟩
    · rw [Finset.card_empty]
      exact hw.opened
    · cases hc
    · show driver_open m [] false t.calls = true ↔ _
      rw [hw.driver]
      refine ⟨fun hopen => ?_, fun hne => absurd hne Finset.not_nonempty_empty⟩
      exfalso
      by_cases hz : s.opened = 0
      · -- the mini-driver was not open
        have hcalls : s.toCore.unregister.calls = s.calls := by simp [Core.unregister, hz]
        rw [show driver_open m [] false s.toCore.unregister.calls = true ↔ _ from
          hcalls ▸ h.driver] at hopen
        rw [← Finset.card_pos, ← h.count, hz] at hopen
        exact absurd hopen (lt_irrefl 0)
      · have hcalls : s.toCore.unregister.calls = s.calls ++ [.close] := by
          simp [Core.unregister, hz, Core.call]
        have hclosed : driver_open m [] false s.toCore.unregister.calls = false := by
          rw [hcalls, driver_open_close]
        exact absurd (hclosed.symm.trans hopen) (by decide)
  · rename_i hr
    cases ht
    have hnone : s.current = ∅ := h.unregistered (by simpa using hr)
    rw [← hnone]
    exact h

/-! ## Opening -/

/-- When the mini-driver does not refuse, it is open. -/
lemma Counted.opening_driver (h : Counted m s) (herr : s.opened = 0 → m.open_ s.calls = 0) :
    driver_open m [] false s.toCore.opening.calls = true := by
  by_cases hz : s.opened = 0
  · have hcalls : s.toCore.opening.calls = s.calls ++ [.open_] := by simp [Core.opening, hz, Core.call]
    rw [hcalls, driver_open_open]
    simp [herr hz]
  · have hcalls : s.toCore.opening.calls = s.calls := by simp [Core.opening, hz]
    rw [hcalls, h.driver, ← Finset.card_pos, ← h.count]
    exact Nat.pos_of_ne_zero hz

lemma Counted.open {mode : Mode} {nomem : Bool} (h : Counted m s)
    (hok : CountsRight m s (.open_ c mode nomem)) :
    Counted m { (ccd_open m c mode nomem s.toState).1 with
      current := s.after m (.open_ c mode nomem) } := by
  rcases @ccd_open_cases m c mode nomem s.toState with ⟨-, err, hopen⟩ | ⟨hz, herr, hopen⟩ |
    ⟨hadmits, herr, hopen⟩
  · have hafter : s.after m (.open_ c mode nomem) = s.current := by rw [after, hopen]
    rw [hopen, hafter]
    exact h
  · -- the mini-driver has not been opened
    have hafter : s.after m (.open_ c mode nomem) = s.current := by rw [after, hopen]
    rw [hopen, hafter]
    refine ⟨h.count, h.open_, h.unregistered, ?_⟩
    rw [← h.driver]
    show driver_open m [] false (s.calls ++ [.open_]) = true ↔ _
    rw [driver_open_open]
    simp [herr]
  · cases nomem with
    | true =>
      -- there is another client, for which the mini-driver is open
      have hafter : s.after m (.open_ c mode true) = s.current := by rw [after, hopen]; rfl
      have hnz : s.opened ≠ 0 := fun hz => hok rfl hadmits hz (herr hz)
      have hsame : s.toCore.opening = s.toCore := if_neg hnz
      rw [hopen, hafter]
      simp only [hsame, if_true]
      refine ⟨h.count, fun c' hc' => ?_, h.unregistered, h.driver⟩
      have hne : c' ≠ c := by
        rintro rfl
        exact Bool.noConfusion ((h.open_ c' hc').symm.trans hadmits.2.2)
      simpa [Core.set_client, hne] using h.open_ c' hc'
    | false =>
      have hafter : s.after m (.open_ c mode false) = insert c s.current := by rw [after, hopen]; rfl
      have hnew : c ∉ s.current := fun hc =>
        Bool.noConfusion ((h.open_ c hc).symm.trans hadmits.2.2)
      rw [hopen, hafter]
      refine ⟨?_, fun c' hc' => ?_, fun hr => ?_, ?_⟩
      · rw [Finset.card_insert_of_notMem hnew, ← h.count]
        exact congrArg (· + 1) s.toCore.opening_opened
      · by_cases hcc : c' = c
        · simp [Core.set_client, hcc, opened_client]
        · have hmem : c' ∈ s.current := (Finset.mem_insert.mp hc').resolve_left hcc
          simpa [Core.set_client, hcc, Core.opening_clients] using h.open_ c' hmem
      · exact Bool.noConfusion (s.toCore.opening_registered.symm.trans hr |>.symm.trans hadmits.1)
      · exact ⟨fun _ => Finset.insert_nonempty c s.current, fun _ => h.opening_driver herr⟩

/-! ## Closing -/

/-- The client's exposures are dropped, and it is closed. -/
lemma Counted.closed {t : State} (h : Counted m s) (hw : Works s.toCore t.toCore)
    (hc : c ∈ s.current ∨ s.opened = 0) :
    Counted m { t with toCore := t.toCore.close c, current := s.current.erase c } := by
  have hto : t.opened = s.opened := hw.opened
  have hcalls : driver_open m [] false t.calls = true ↔ s.current.Nonempty := by
    rw [← h.driver, hw.driver]
  refine ⟨?_, fun c' hc' => ?_, fun hr => ?_, ?_⟩
  · show (t.toCore.close c).opened = _
    rw [close_opened, hto]
    rcases hc with hc | hz
    · rw [Finset.card_erase_of_mem hc, h.count]
    · have hnone : s.current = ∅ := Finset.card_eq_zero.mp (h.count.symm.trans hz)
      rw [hz, hnone]
      rfl
  · obtain ⟨hne, hmem⟩ := Finset.mem_erase.mp hc'
    show ((t.toCore.close c).clients c').opened = true
    rw [close_clients, if_neg hne, hw.clients]
    exact h.open_ c' hmem
  · have hnone : s.current = ∅ := by
      refine h.unregistered ?_
      rw [← hw.registered, ← close_registered c]
      exact hr
    rw [hnone]
    rfl
  · show driver_open m [] false (t.toCore.close c).calls = true ↔ _
    rw [close_calls, hto]
    by_cases hone : s.opened = 1
    · -- it is the last one
      have hcard : s.current.card = 1 := h.count.symm.trans hone
      have hmem : c ∈ s.current := hc.resolve_right (by rw [hone]; exact Nat.one_ne_zero)
      have hlast : s.current.erase c = ∅ := by
        rw [← Finset.card_eq_zero, Finset.card_erase_of_mem hmem, hcard]
      rw [if_pos hone, driver_open_close, hlast]
      simp
    · rw [if_neg hone, hcalls]
      constructor
      · intro hne
        refine Finset.card_pos.mp (show 0 < (s.current.erase c).card from ?_)
        have hpos : 0 < s.current.card := Finset.card_pos.mpr hne
        have hle : s.current.card ≤ (s.current.erase c).card + 1 :=
          Nat.sub_le_iff_le_add.mp Finset.pred_card_le_card_erase
        have hcount := h.count
        omega
      · exact fun hne => hne.mono (Finset.erase_subset c s.current)

lemma Counted.close {t : State} (h : Counted m s) (hok : CountsRight m s (.close c))
    (ht : ccd_close k c s.toState = some t) :
    Counted m { t with current := s.current.erase c } := by
  rw [ccd_close] at ht
  split at ht
  · rename_i hopen
    obtain ⟨s₁, habort, hs₁⟩ := Option.bind_eq_some_iff.mp ht
    cases hs₁
    exact h.closed (abort_exposures_works habort) (hok hopen)
  · rename_i hclosed
    cases ht
    have hnot : c ∉ s.current := fun hc => hclosed (h.open_ c hc)
    rw [Finset.erase_eq_of_notMem hnot]
    exact h

/-! ## Runs -/

lemma Counted.step (h : Counted m s) (hok : CountsRight m s e) (hs : Slot.step k m s e = some s') :
    Counted m s' := by
  obtain ⟨t, ht, rfl⟩ := Option.map_eq_some_iff.mp hs
  cases e with
  | tick d =>
    cases ht
    have hw : Works s.toCore { s.toCore with jiffies := s.jiffies + d } := .of_same rfl rfl rfl rfl
    exact h.works (t := { s.toState with toCore := { s.toCore with jiffies := s.jiffies + d } }) hw
  | register g =>
    cases ht
    exact h.register
  | unregister => exact h.unregister ht
  | open_ c mode nomem =>
    cases ht
    exact h.open hok
  | close c => exact h.close hok ht
  | new_exposure c msg =>
    simp only [Ccd.step] at ht
    split at ht
    · exact h.works (new_exposure_works ht)
    · cases ht
      exact h
  | abort c =>
    simp only [Ccd.step] at ht
    split at ht
    · exact h.works (abort_exposures_works ht)
    · cases ht
      exact h
  | expire => exact h.works (complete_exposure_works ht)
  | read c count =>
    simp only [Ccd.step] at ht
    split at ht
    · obtain ⟨⟨t', r⟩, hread, rfl⟩ := Option.map_eq_some_iff.mp ht
      exact h.works (ccd_read_works hread)
    · cases ht
      exact h
  | wake c count =>
    simp only [Ccd.step] at ht
    split at ht
    · obtain ⟨⟨t', r⟩, hread, rfl⟩ := Option.map_eq_some_iff.mp ht
      exact h.works (ccd_read_head_works hread)
    · cases ht
      exact h

/-- The count of the slot is right: it is the number of the clients of this registration, and the
mini-driver is open when there are any. -/
def Right (m : Mini) (s : Slot) : Prop :=
  s.opened = s.current.card ∧ (driver_open m [] false s.calls = true ↔ 0 < s.current.card)

lemma Counted.right (h : Counted m s) : Right m s :=
  ⟨h.count, h.driver.trans Finset.card_pos.symm⟩

/-- When the first client has no memory, the mini-driver stays open. -/
lemma Counted.nomem_not_right {mode : Mode} (h : Counted m s) (hadmits : s.admits c)
    (hz : s.opened = 0) (herr : m.open_ s.calls = 0)
    (hs : Slot.step k m s (.open_ c mode true) = some s') : ¬ Right m s' := by
  obtain ⟨t, ht, rfl⟩ := Option.map_eq_some_iff.mp hs
  cases ht
  have hnone : s.current = ∅ := Finset.card_eq_zero.mp (h.count.symm.trans hz)
  rcases @ccd_open_cases m c mode true s.toState with ⟨hnot, -⟩ | ⟨-, herr', -⟩ | ⟨-, -, hopen⟩
  · exact absurd hadmits hnot
  · exact absurd herr herr'
  · have hafter : s.after m (.open_ c mode true) = s.current := by rw [after, hopen]; rfl
    rintro ⟨-, hdriver⟩
    rw [hafter, hnone, Finset.card_empty] at hdriver
    refine absurd (hdriver.mp ?_) (lt_irrefl 0)
    rw [hopen]
    exact h.opening_driver fun _ => herr

/-- When a client of an earlier registration is closed, one too many is taken off the count. -/
lemma Counted.stale_not_right (h : Counted m s) (hopen : (s.clients c).opened = true)
    (hc : c ∉ s.current) (hz : s.opened ≠ 0) (hs : Slot.step k m s (.close c) = some s') :
    ¬ Right m s' := by
  obtain ⟨t, ht, rfl⟩ := Option.map_eq_some_iff.mp hs
  have ht : ccd_close k c s.toState = some t := ht
  rw [ccd_close, if_pos hopen] at ht
  obtain ⟨s₁, habort, hs₁⟩ := Option.bind_eq_some_iff.mp ht
  cases hs₁
  have hw := abort_exposures_works habort
  rintro ⟨hcount, -⟩
  have hleft : (s₁.toCore.close c).opened = (s.current.erase c).card := hcount
  rw [close_opened, hw.opened, h.count, Finset.erase_eq_of_notMem hc] at hleft
  have hpos := h.count
  omega

/-- A step keeps the count right exactly when it meets the condition. -/
lemma Counted.right_iff (h : Counted m s) (hs : Slot.step k m s e = some s') :
    Right m s' ↔ CountsRight m s e := by
  constructor
  · intro hright
    cases e with
    | open_ c mode nomem =>
      rintro rfl hadmits hz herr
      exact h.nomem_not_right hadmits hz herr hs hright
    | close c =>
      intro hopen
      by_contra hnot
      obtain ⟨hc, hz⟩ := not_or.mp hnot
      exact h.stale_not_right hopen hc hz hs hright
    | _ => trivial
  · exact fun hok => (h.step hok hs).right

/-- In every run in which there is memory for the first client, and no client of an earlier
registration is closed while one of this registration is open, the count is right in every state
reached; the first step that does not meet this makes it wrong. -/
theorem open_counting (k : Kernel) (m : Mini) (jiffies : ℕ) {s : Slot}
    (h : Reach (Slot.step k m) (CountsRight m) (init jiffies) s) :
    Right m s ∧ ∀ e s', Slot.step k m s e = some s' → (Right m s' ↔ CountsRight m s e) := by
  have hcounted : Counted m s :=
    h.induction_on (Counted.init jiffies) fun _ _ _ hc hok hs => hc.step hok hs
  exact ⟨hcounted.right, fun _ _ hs => hcounted.right_iff hs⟩

/-- Both clients of one registration open the device, and one of them closes it. -/
theorem open_counting_two_clients :
    ∃ s : Slot, s.opened = 1 ∧ s.current = {0} ∧ Right .black s := by
  have hreach : Reach (Slot.step .hz100 .black) (CountsRight .black) (init 0) _ :=
    .step (e := .close 1)
      (.step (e := .open_ 0 .text false)
        (.step (e := .open_ 1 .binary false)
          (.step (e := .register .small) .init trivial rfl)
          (fun h => Bool.noConfusion h) rfl)
        (fun h => Bool.noConfusion h) rfl)
      (fun _ => .inl (by decide)) rfl
  exact ⟨_, rfl, by decide, (open_counting .hz100 .black 0 hreach).1⟩

/-- The mini-driver is open for nobody after an open without memory.  And when a client that has
been open since before the device was unplugged is closed, the mini-driver is closed under the
client of the new registration. -/
theorem miscounted :
    (∃ s, replay (Slot.step .hz100 .black) (init 0) [.register .small, .open_ 0 .binary true]
        = some s ∧ s.opened = 0 ∧ driver_open .black [] false s.calls = true) ∧
    ∃ s, replay (Slot.step .hz100 .black) (init 0)
        [.register .small, .open_ 0 .binary false, .unregister, .register .small,
          .open_ 1 .binary false, .close 0] = some s ∧
      s.current = {1} ∧ s.opened = 0 ∧ driver_open .black [] false s.calls = false :=
  ⟨⟨_, rfl, rfl, rfl⟩, _, rfl, by decide, rfl, rfl⟩

end Slot

end EspLinux.Ccd
