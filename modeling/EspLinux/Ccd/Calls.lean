import EspLinux.Ccd.Driver

/-!
# Which functions of the mini-driver are called

The routines that start, finish, read and delete exposures keep the registration and the clients
that are open, and they call only the functions of the mini-driver that deal with frames and the
one for commands (`Works`).  It opens and closes the device, and asks for the temperature, nowhere
else than in `ccd_open`, `ccd_close`, `ccd_unregister_device` and `parse_binary_msg`.
-/

namespace EspLinux.Ccd

open EspLinux.Lib

/-- The call is one that the exposures need. -/
def Call.isWork : Call → Bool
  | .open_ => false
  | .close => false
  | .temp_control _ _ => false
  | _ => true

/-- What the routines for the exposures do to the records of the device and its clients. -/
structure Works (x y : Core) : Prop where
  registered : y.registered = x.registered
  opened : y.opened = x.opened
  clients : ∀ c, (y.clients c).opened = (x.clients c).opened
  calls : ∃ l, y.calls = x.calls ++ l ∧ ∀ w ∈ l, w.isWork = true

namespace Works

variable {x y z : Core}

lemma refl (x : Core) : Works x x :=
  ⟨rfl, rfl, fun _ => rfl, [], (List.append_nil _).symm, by simp⟩

lemma trans (h : Works x y) (h' : Works y z) : Works x z := by
  obtain ⟨l, hl, hw⟩ := h.calls
  obtain ⟨l', hl', hw'⟩ := h'.calls
  refine ⟨h'.registered.trans h.registered, h'.opened.trans h.opened,
    fun c => (h'.clients c).trans (h.clients c), l ++ l', ?_, ?_⟩
  · rw [hl', hl, List.append_assoc]
  · intro w hmem
    rcases List.mem_append.mp hmem with hmem | hmem
    · exact hw w hmem
    · exact hw' w hmem

/-- The routine changes something else. -/
lemma of_same (hr : y.registered = x.registered) (ho : y.opened = x.opened)
    (hc : y.clients = x.clients) (hcalls : y.calls = x.calls) : Works x y :=
  ⟨hr, ho, fun c => by rw [hc], [], by rw [hcalls, List.append_nil], by simp⟩

lemma call {w : Call} (h : w.isWork = true) (x : Core) : Works x (x.call w) :=
  ⟨rfl, rfl, fun _ => rfl, [w], rfl, by simpa using h⟩

lemma set_row (n : ℕ) (x : Core) : Works x (x.set_row n) := .of_same rfl rfl rfl rfl

lemma set_client {c : Field} {w : Client} (h : w.opened = (x.clients c).opened) :
    Works x (x.set_client c w) := by
  refine ⟨rfl, rfl, fun c' => ?_, [], (List.append_nil _).symm, by simp⟩
  by_cases hcc : c' = c
  · rw [hcc]
    simp [Core.set_client, h]
  · simp [Core.set_client, hcc]

end Works

variable {k : Kernel} {m : Mini} {s s' : State} {i : ℕ} {c : Field} {e : Exposure}

/-! ## Exposures -/

lemma start_exposure_works (h : start_exposure k i s = some s') : Works s.toCore s'.toCore := by
  obtain ⟨e, -, hs⟩ := Option.bind_eq_some_iff.mp h
  cases hs
  exact (Works.call rfl _).trans (.of_same rfl rfl rfl rfl)

lemma finish_exposure_works (h : finish_exposure i s = some s') : Works s.toCore s'.toCore := by
  obtain ⟨e, -, hs⟩ := Option.bind_eq_some_iff.mp h
  split at hs <;> cases hs
  · exact (Works.call rfl _).trans (.set_row _ _)
  · exact .refl _

lemma complete_exposure_works (h : complete_exposure s = some s') :
    Works s.toCore s'.toCore := by
  rw [complete_exposure] at h
  split at h
  · cases h
    exact .refl _
  · have hdel : Works s.toCore s.toCore.del_timer := .of_same rfl rfl rfl rfl
    split at h
    · cases h
      exact hdel.trans (.of_same rfl rfl rfl rfl)
    · split at h
      · cases h
        exact hdel.trans (.of_same rfl rfl rfl rfl)
      · exact hdel.trans (finish_exposure_works h)

lemma start_next_works (h : start_next k e s = some s') : Works s.toCore s'.toCore := by
  rw [start_next] at h
  split at h
  · cases h
    exact .refl _
  · obtain ⟨f, -, hs⟩ := Option.bind_eq_some_iff.mp h
    split at hs
    · obtain ⟨h', -, hstart⟩ := Option.bind_eq_some_iff.mp hs
      have hwork := start_exposure_works hstart
      exact hwork
    · split at hs
      · exact finish_exposure_works hs
      · cases hs
        exact .of_same rfl rfl rfl rfl

lemma del_exposure_works (h : del_exposure k i s = some s') : Works s.toCore s'.toCore := by
  obtain ⟨e, -, hs⟩ := Option.bind_eq_some_iff.mp h
  split at hs
  · refine Works.trans ?_ (start_next_works hs)
    show Works s.toCore (if e.complete = 0 then s.toCore.del_timer else s.toCore)
    split
    · exact .of_same rfl rfl rfl rfl
    · exact .refl _
  · obtain ⟨p, -, hp⟩ := Option.bind_eq_some_iff.mp hs
    cases p with
    | none =>
      cases hp
      exact .refl _
    | some j =>
      obtain ⟨p, -, hp⟩ := Option.bind_eq_some_iff.mp hp
      obtain ⟨h', -, hlast⟩ := Option.bind_eq_some_iff.mp hp
      cases hlast
      exact .refl _

lemma drop_exposures_works {n : ℕ} (h : drop_exposures k c n s = some s') :
    Works s.toCore s'.toCore := by
  induction n generalizing s with
  | zero => cases h
  | succ n ih =>
    rw [drop_exposures] at h
    split at h
    · cases h
      exact .refl _
    · obtain ⟨s₁, hdel, hs₁⟩ := Option.bind_eq_some_iff.mp h
      obtain ⟨e, -, hrest⟩ := Option.bind_eq_some_iff.mp hs₁
      have hwork := ih hrest
      exact (del_exposure_works hdel).trans hwork

lemma abort_mark_works (h : abort_mark c s = some s') : Works s.toCore s'.toCore := by
  rw [abort_mark] at h
  split at h
  · cases h
    exact .refl _
  · obtain ⟨e, -, hs⟩ := Option.bind_eq_some_iff.mp h
    cases hs
    show Works s.toCore (if _ then _ else s.toCore)
    split
    · refine Works.trans ?_ (.set_row _ _)
      split
      · exact (Works.call rfl _).trans (.call rfl _)
      · exact .refl _
    · exact .refl _

lemma abort_exposures_works (h : abort_exposures k c s = some s') :
    Works s.toCore s'.toCore := by
  obtain ⟨s₁, hmark, hs₁⟩ := Option.bind_eq_some_iff.mp h
  obtain ⟨s₂, hdrop, hs₂⟩ := Option.bind_eq_some_iff.mp hs₁
  cases hs₂
  exact ((abort_mark_works hmark).trans (drop_exposures_works hdrop)).trans (.set_client rfl)

lemma new_exposure_works {msg : Msg} (h : new_exposure k c msg s = some s') :
    Works s.toCore s'.toCore := by
  have halloc : Works s.toCore s.toCore.alloc := .of_same rfl rfl rfl rfl
  rw [new_exposure] at h
  split at h
  · exact halloc.trans (start_exposure_works h)
  · obtain ⟨e, -, hs⟩ := Option.bind_eq_some_iff.mp h
    split at hs
    · simp only at hs
      split at hs <;> cases hs
      · exact halloc.trans (.of_same rfl rfl rfl rfl)
      · exact halloc.trans (.call rfl _)
    · obtain ⟨l, -, hl⟩ := Option.bind_eq_some_iff.mp hs
      obtain ⟨p, -, hp⟩ := Option.bind_eq_some_iff.mp hl
      cases hp
      exact halloc

lemma client_unlink_core (h : client_unlink i s = some s') : s'.toCore = s.toCore := by
  obtain ⟨e, -, hs⟩ := Option.bind_eq_some_iff.mp h
  simp only at hs
  split at hs
  · cases hs
    rfl
  · obtain ⟨p, -, hp⟩ := Option.bind_eq_some_iff.mp hs
    cases p with
    | none =>
      cases hp
      rfl
    | some j =>
      obtain ⟨p, -, hp⟩ := Option.bind_eq_some_iff.mp hp
      cases hp
      rfl

lemma end_frame_works (h : end_frame k i s = some s') : Works s.toCore s'.toCore := by
  obtain ⟨e, -, hs⟩ := Option.bind_eq_some_iff.mp h
  obtain ⟨s₁, hdel, hs₁⟩ := Option.bind_eq_some_iff.mp hs
  obtain ⟨s₂, hunlink, hs₂⟩ := Option.bind_eq_some_iff.mp hs₁
  cases hs₂
  have hend : Works s.toCore ((s.toCore.call (.end_read e.flags)).set_row CCD_END_FRAME_LOAD) :=
    (Works.call rfl _).trans (.set_row _ _)
  rw [client_unlink_core hunlink]
  exact hend.trans (del_exposure_works hdel)

/-! ## Reading -/

lemma begin_frame_works (p : Params) (x : Core) : Works x (begin_frame p x) := by
  rw [begin_frame]
  split
  · exact (Works.call rfl x).trans (.set_row 0 _)
  · exact .refl x

lemma read_rows_works {p : Params} {x : Core} {n count : ℕ} {data : List UInt8} {r : Rows}
    (h : loop (read_rows m p) n ⟨x, count, data⟩ = some r) : Works x r.core := by
  refine loop_invariant (P := fun r => Works x r.core) (Q := fun r => Works x r.core) ?_ ?_
    (.refl x) h
  · intro r r' hr hstep
    rw [read_rows] at hstep
    split at hstep
    · cases hstep
      exact hr.trans ((Works.call rfl r.core).trans (.set_row _ _))
    · cases hstep
  · intro r r' hr hstep
    rw [read_rows] at hstep
    split at hstep
    · cases hstep
    · cases hstep
      exact hr

lemma read_exposure_works {count : ℕ} {data : List UInt8}
    (h : read_exposure k m i count s = some (s', data)) : Works s.toCore s'.toCore := by
  obtain ⟨e, -, hs⟩ := Option.bind_eq_some_iff.mp h
  obtain ⟨r, hloop, hr⟩ := Option.bind_eq_some_iff.mp hs
  have hrows := (begin_frame_works e.toParams s.toCore).trans (read_rows_works hloop)
  simp only at hr
  split at hr
  · obtain ⟨s₁, hend, hs₁⟩ := Option.bind_eq_some_iff.mp hr
    cases hs₁
    exact hrows.trans (end_frame_works hend)
  · cases hr
    exact hrows

lemma read_binary_exposure_works {count : ℕ} {data : List UInt8}
    (h : read_binary_exposure k m i count s = some (s', data)) : Works s.toCore s'.toCore := by
  obtain ⟨e, -, hs⟩ := Option.bind_eq_some_iff.mp h
  simp only at hs
  split at hs
  · obtain ⟨⟨s₁, d⟩, hread, hs₁⟩ := Option.bind_eq_some_iff.mp hs
    cases hs₁
    exact read_exposure_works hread
  · obtain ⟨⟨s₁, d⟩, hread, hs₁⟩ := Option.bind_eq_some_iff.mp hs
    cases hs₁
    exact (read_exposure_works hread).trans (.set_client rfl)

lemma text_pixels_opened {sizeof_pixel n : ℕ} {r : ℕ × ℕ × Client} {x : Client}
    (h : loop (text_pixels sizeof_pixel) n r = some x) : x.opened = r.2.2.opened := by
  refine loop_invariant (P := fun r' : ℕ × ℕ × Client => r'.2.2.opened = r.2.2.opened)
    (Q := fun x => x.opened = r.2.2.opened) ?_ ?_ rfl h
  · intro r r' hr hstep
    rw [text_pixels] at hstep
    split at hstep
    · cases hstep
    · cases hstep
      exact hr
  · intro r x hr hstep
    rw [text_pixels] at hstep
    split at hstep
    · cases hstep
      exact hr
    · cases hstep

lemma read_text_exposure_works {count : ℕ} {data : List UInt8}
    (h : read_text_exposure k m i count s = some (s', data)) : Works s.toCore s'.toCore := by
  obtain ⟨e, -, hs⟩ := Option.bind_eq_some_iff.mp h
  obtain ⟨⟨s₁, d⟩, hread, hs₁⟩ := Option.bind_eq_some_iff.mp hs
  obtain ⟨x, hloop, hx⟩ := Option.bind_eq_some_iff.mp hs₁
  cases hx
  have hstart : Works s.toCore (s.toCore.set_client e.client
      (if s.current_read_row = CCD_START_FRAME_LOAD then text_start e.toParams (s.clients e.client)
        else s.clients e.client)) := by
    refine .set_client ?_
    split <;> rfl
  have hpixels : x.opened = (s₁.clients e.client).opened := text_pixels_opened hloop
  refine (hstart.trans (read_exposure_works hread)).trans (.set_client ?_)
  rw [← hpixels]
  show (if _ then text_end x else x).opened = x.opened
  split <;> rfl

lemma ccd_read_head_works {count : ℕ} {r : Except Errno (List UInt8)}
    (h : ccd_read_head k m c count s = some (s', r)) : Works s.toCore s'.toCore := by
  rw [ccd_read_head] at h
  split at h
  · cases h
    exact .refl _
  · obtain ⟨e, -, hs⟩ := Option.bind_eq_some_iff.mp h
    split at hs
    · simp only at hs
      split at hs
      · obtain ⟨⟨s₁, d⟩, hread, hs₁⟩ := Option.bind_eq_some_iff.mp hs
        cases hs₁
        exact read_binary_exposure_works hread
      · obtain ⟨⟨s₁, d⟩, hread, hs₁⟩ := Option.bind_eq_some_iff.mp hs
        cases hs₁
        exact read_text_exposure_works hread
    · cases hs
      exact .refl _

lemma ccd_read_works {count : ℕ} {r : Except Errno (List UInt8)}
    (h : ccd_read k m c count s = some (s', r)) : Works s.toCore s'.toCore := by
  simp only [ccd_read] at h
  split at h
  · cases h
    exact .refl _
  split at h
  · cases h
    exact .refl _
  split at h
  · cases h
    exact .set_client rfl
  split at h
  · cases h
    exact .refl _
  split at h
  · cases h
  · obtain ⟨e, -, hs⟩ := Option.bind_eq_some_iff.mp h
    split at hs
    · cases hs
      exact .refl _
    · exact ccd_read_head_works hs

/-! ## Opening and closing -/

/-- An open of the client comes to the mini-driver or to the buffers. -/
def Core.admits (c : Field) (x : Core) : Prop :=
  x.registered = true ∧ ¬ (0 < c.val ∧ x.geometry.image_fields ≤ 1) ∧ (x.clients c).opened = false

/-- The record of the device after the call of the mini-driver's `open`, if it is made. -/
def Core.opening (x : Core) : Core := if x.opened = 0 then x.call .open_ else x

/-- The record of a client that comes to its buffers. -/
def opened_client (c : Field) (mode : Mode) (nomem : Bool) (x : Core) : Client :=
  { x.clients c with
    opened := !nomem, mode := mode, out_buf_size := out_buf_size x.geometry mode
    in_buf_len := 0, out_buf_len := 0 }

/-- What an open does: it is refused at once, or by the mini-driver, or it comes to the buffers. -/
lemma ccd_open_cases {mode : Mode} {nomem : Bool} (t : State) :
    (¬ t.admits c ∧ ∃ err, ccd_open m c mode nomem t = (t, .error err)) ∨
    (t.opened = 0 ∧ m.open_ t.calls ≠ 0 ∧
      ccd_open m c mode nomem t =
        ({ t with toCore := t.toCore.call .open_ }, .error (.mini (m.open_ t.calls)))) ∨
    (t.admits c ∧ (t.opened = 0 → m.open_ t.calls = 0) ∧
      ccd_open m c mode nomem t =
        let x := t.toCore.opening.set_client c (opened_client c mode nomem t.toCore)
        let l := Function.update t.client_list c none
        if nomem then ({ t with toCore := x, client_list := l }, .error .ENOMEM)
        else ({ t with toCore := { x with opened := x.opened + 1 }, client_list := l }, .ok ())) := by
  rw [ccd_open]
  split
  · rename_i hr
    exact .inl ⟨fun h => Bool.noConfusion (h.1.symm.trans hr), _, rfl⟩
  rename_i hr
  split
  · rename_i hfields
    exact .inl ⟨fun h => h.2.1 hfields, _, rfl⟩
  rename_i hfields
  split
  · rename_i hopen
    exact .inl ⟨fun h => Bool.noConfusion (h.2.2.symm.trans hopen), _, rfl⟩
  rename_i hclosed
  have hadmits : t.admits c :=
    ⟨by simpa using hr, hfields, by simpa using hclosed⟩
  by_cases hz : t.opened = 0
  · by_cases herr : m.open_ t.calls = 0
    · right; right
      refine ⟨hadmits, fun _ => herr, ?_⟩
      simp only [hz, herr, if_true, Core.opening, ne_eq, not_true_eq_false, if_false]
      rfl
    · right; left
      refine ⟨hz, herr, ?_⟩
      simp only [hz, if_true, ne_eq, herr, not_false_eq_true]
  · right; right
    refine ⟨hadmits, fun h => absurd h hz, ?_⟩
    simp only [hz, if_false, Core.opening, ne_eq, not_true_eq_false]
    rfl

lemma Core.opening_opened (x : Core) : x.opening.opened = x.opened := by
  rw [Core.opening]
  split <;> rfl

lemma Core.opening_clients (x : Core) : x.opening.clients = x.clients := by
  rw [Core.opening]
  split <;> rfl

lemma Core.opening_registered (x : Core) : x.opening.registered = x.registered := by
  rw [Core.opening]
  split <;> rfl

lemma close_clients (c c' : Field) (x : Core) :
    ((x.close c).clients c').opened = if c' = c then false else (x.clients c').opened := by
  have hset : ((x.close c).clients c') =
      ((x.set_client c { x.clients c with
        opened := false, in_buf_len := 0, out_buf_len := 0, out_buf_size := 0 }).clients c') := by
    simp only [Core.close]
    split
    · rfl
    · split <;> rfl
  rw [hset]
  by_cases hcc : c' = c
  · rw [if_pos hcc, hcc]
    simp [Core.set_client]
  · rw [if_neg hcc]
    simp [Core.set_client, hcc]

lemma close_opened (c : Field) (x : Core) : (x.close c).opened = x.opened - 1 := by
  have hset : ∀ y, (x.set_client c y).opened = x.opened := fun _ => rfl
  simp only [Core.close, hset]
  split
  · rename_i hz
    rw [hset, hz]
  · split
    · rename_i hone
      rw [hone]
    · rfl

lemma close_registered (c : Field) (x : Core) : (x.close c).registered = x.registered := by
  simp only [Core.close]
  split
  · rfl
  · split <;> rfl

lemma close_calls (c : Field) (x : Core) :
    (x.close c).calls = if x.opened = 1 then x.calls ++ [.close] else x.calls := by
  have hset : ∀ y, (x.set_client c y).opened = x.opened := fun _ => rfl
  simp only [Core.close, hset]
  split
  · rename_i hz
    rw [hz]
    rfl
  · split
    · rename_i hone
      rfl
    · rfl

end EspLinux.Ccd
