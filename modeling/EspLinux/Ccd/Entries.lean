import EspLinux.Ccd.Lists
import EspLinux.Ccd.TextMsg

/-!
# The functions of the mini-driver

`ccd_register_device` copies the functions of a mini-driver to the device record one after another
and gives up at the first that is missing.  `temp_control` is the last and is not looked at, and
`sx_usb` does not have it: then a temperature request of a binary client calls a null pointer.
Nothing else does (`no_missing_function`).

A write is a number of steps here, one that takes the bytes in and one for each iteration of the
parser, so that the writes that do not come to an end are covered.
-/

namespace EspLinux.Ccd

open EspLinux.Lib

/-! ## The record of a mini-driver -/

/-- The functions of a mini-driver. -/
inductive Entry
  | open_
  | control
  | close
  | read_row
  | begin_read
  | end_read
  | latch_frame
  | new_frame
  | temp_control
deriving DecidableEq

/-- The function that is called. -/
def Call.entry : Call → Entry
  | .open_ => .open_
  | .close => .close
  | .control _ _ => .control
  | .temp_control _ _ => .temp_control
  | .begin_read _ _ => .begin_read
  | .end_read _ => .end_read
  | .read_row _ _ _ _ _ _ _ _ => .read_row
  | .latch_frame _ _ => .latch_frame
  | .new_frame _ _ => .new_frame

/-- `CCD_VERSION` -/
def CCD_VERSION : ℕ := 1 * 2 ^ 16 + 9

/-- `struct ccd_mini`, with the functions that are not null. -/
structure Record where
  version : ℕ
  geometry : Geometry
  entries : Entry → Bool

/-- The record of `sx_usb`, which is cleared before eight of its functions are filled in. -/
def Record.sx_usb (g : Geometry) : Record := ⟨CCD_VERSION, g, fun f => f ≠ .temp_control⟩

/-- A record with all the functions. -/
def Record.full (g : Geometry) : Record := ⟨CCD_VERSION, g, fun _ => true⟩

/-- The functions in the order in which `ccd_register_device` copies and checks them. -/
def checked : List Entry :=
  [.open_, .control, .close, .read_row, .begin_read, .end_read, .latch_frame, .new_frame]

/-- The functions of the device after `ccd_register_device`, and whether all that are checked
are there. -/
def copy_entries (r : Entry → Bool) : List Entry → (Entry → Bool) → (Entry → Bool) × Bool
  | [], f => (Function.update f .temp_control (r .temp_control), true)
  | e :: es, f =>
    if r e then copy_entries r es (Function.update f e true) else (Function.update f e false, false)

/-! ## The device with its functions -/

/-- The state of a client's text parser. -/
structure Parser where
  parse_msg : Msg
  parse_token : ℕ
  parse_attrib : ℕ

/-- A device slot with the functions that are not null in its record, the text parsers of the
clients, and whether a null pointer has been called. -/
structure Driver where
  dev : State
  entries : Entry → Bool
  parser : Field → Parser
  last_errorno : ℤ
  missing : Bool

/-- What can happen: registrations, the other events, and the two parts of a write. -/
inductive Happening
  | register (r : Record)
  | event (e : Event)
  /-- The bytes that a write takes. -/
  | take_in (c : Field) (data : List UInt8)
  /-- An iteration of the parser. -/
  | parse (c : Field)

/-- What a text client's parser has done is carried out. -/
def perform (k : Kernel) (c : Field) (s : State) : Action → Option State
  | .query => some s
  | .errorno _ => some s
  | .expose parms => new_exposure k c (exp_msg parms) s
  | .control cmd parm => some { s with toCore := s.toCore.call (.control cmd parm) }
  | .abort => abort_exposures k c s

/-- The bytes are taken in; those of a text client are put in upper case. -/
def Client.take (data : List UInt8) (x : Client) : Client :=
  let y := x.take_in data
  match x.mode with
  | .binary => y
  | .text => { y with in_buf := put y.in_buf 0 ((slice y.in_buf 0 y.in_buf_len).map upper) }

/-- The parser meets a temperature request. -/
def Client.asks (x : Client) : Prop :=
  (x.msg 0).toNat = CCD_MSG_HEADER ∧ ∃ fan temp, x.request = .temp fan temp

variable (k : Kernel) (m : Mini) (result : List Call → List Action → ℤ)

namespace Driver

/-- The device has come to `s`: have all the functions been there that were called? -/
def moved (d : Driver) (s : State) : Driver :=
  { d with
    dev := s
    missing := d.missing ||
      (s.calls.drop d.dev.calls.length).any fun w => !d.entries w.entry }

/-- `ccd_register_device` -/
def register (r : Record) (d : Driver) : Driver :=
  if r.version ≠ CCD_VERSION ∨ d.dev.registered then d
  else
    let f := copy_entries r.entries checked d.entries
    { d with
      entries := f.1
      dev := if f.2 then ccd_register_device r.geometry d.dev
        else { d.dev with toCore := { d.dev.toCore with geometry := r.geometry } } }

/-- `ccd_unregister_device`: the mini-driver is closed before its functions are replaced, and the
exposures are dropped after that. -/
def unregister (d : Driver) : Option Driver :=
  (ccd_unregister_device k d.dev).map fun s =>
    if d.dev.registered then
      { d with
        dev := s
        entries := fun _ => true
        missing := d.missing || decide (d.dev.opened ≠ 0) && !d.entries .close }
    else { d with dev := s }

/-- An iteration of `parse_binary_msg`. -/
def parse_binary (c : Field) (d : Driver) : Option Driver :=
  match parse_binary_msg k m c d.dev with
  | .inl s => some (d.moved s)
  | .inr r => r.map fun r => d.moved r.1

/-- What the text parser works on. -/
def talk (c : Field) (d : Driver) : Talk :=
  let x := d.dev.clients c
  let p := d.parser c
  { in_buf := slice x.in_buf 0 x.in_buf_len
    session := ⟨x, p.parse_msg, p.parse_token, p.parse_attrib, []⟩
    last_errorno := d.last_errorno }

/-- What the text parser has done with it. -/
def heard (c : Field) (t : Talk) (d : Driver) : Option Driver :=
  let x : Client := { t.session.client with
    in_buf := put (d.dev.clients c).in_buf 0 t.in_buf, in_buf_len := t.in_buf.length }
  let s := { d.dev with toCore := d.dev.toCore.set_client c x }
  (t.session.acts.foldlM (perform k c) s).map fun s =>
    { d.moved s with
      parser := Function.update d.parser c
        ⟨t.session.parse_msg, t.session.parse_token, t.session.parse_attrib⟩
      last_errorno := t.last_errorno }

/-- An iteration of `parse_text_msg`. -/
def parse_text (c : Field) (d : Driver) : Option Driver :=
  match parse_text_msg d.dev.geometry (result d.dev.calls) (d.talk c) with
  | .inl t => d.heard k c t
  | .inr t => d.heard k c t

/-- `ccd_open`: the parser of a client that comes to its buffers starts anew. -/
def open_ (c : Field) (mode : Mode) (nomem : Bool) (d : Driver) : Driver :=
  let r := ccd_open m c mode nomem d.dev
  let p := d.parser c
  { d.moved r.1 with
    parser :=
      match r.2 with
      | .ok _ | .error .ENOMEM =>
        Function.update d.parser c ⟨Function.update p.parse_msg CCD_MSG_INDEX 0, 0, 0⟩
      | _ => d.parser }

/-- One step. -/
def step (d : Driver) : Happening → Option Driver
  | .register r => some (d.register r)
  | .event (.register g) => some (d.register (.full g))
  | .event .unregister => d.unregister k
  | .event (.open_ c mode nomem) => some (d.open_ m c mode nomem)
  | .event e => (Ccd.step k m d.dev e).map d.moved
  | .take_in c data =>
    if d.dev.ready c then
      some (d.moved { d.dev with
        toCore := d.dev.toCore.set_client c ((d.dev.clients c).take data) })
    else some d
  | .parse c =>
    if d.dev.ready c then
      match (d.dev.clients c).mode with
      | .binary => d.parse_binary k m c
      | .text => d.parse_text k result c
    else some d

/-- The slot after `init_module`: all the pointers are null. -/
def init (jiffies : ℕ) : Driver :=
  { dev := State.init jiffies, entries := fun _ => false, parser := fun _ => ⟨fun _ => 0, 0, 0⟩
    last_errorno := 0, missing := false }

/-- The condition on a step: the parser does not meet a temperature request when the mini-driver
has no `temp_control`. -/
def Spared (d : Driver) : Happening → Prop
  | .parse c => d.entries .temp_control = false → d.dev.ready c = true →
      (d.dev.clients c).mode = .binary → ¬ (d.dev.clients c).asks
  | _ => True

end Driver

variable {k : Kernel} {m : Mini} {result : List Call → List Action → ℤ} {s s' : State} {c : Field}
  {e : Event} {d d' : Driver} {x y z : Core}

/-! ## What is called -/

/-- The registration is kept, and the temperature is not asked for. -/
structure Steady (x y : Core) : Prop where
  registered : y.registered = x.registered
  calls : ∃ l, y.calls = x.calls ++ l ∧ ∀ w ∈ l, w.entry ≠ .temp_control

namespace Steady

lemma of_same (hr : y.registered = x.registered) (hcalls : y.calls = x.calls) : Steady x y :=
  ⟨hr, [], by rw [hcalls, List.append_nil], by simp⟩

lemma refl (x : Core) : Steady x x := .of_same rfl rfl

lemma trans (h : Steady x y) (h' : Steady y z) : Steady x z := by
  obtain ⟨l, hl, hw⟩ := h.calls
  obtain ⟨l', hl', hw'⟩ := h'.calls
  refine ⟨h'.registered.trans h.registered, l ++ l', ?_, ?_⟩
  · rw [hl', hl, List.append_assoc]
  · intro w hmem
    rcases List.mem_append.mp hmem with hmem | hmem
    · exact hw w hmem
    · exact hw' w hmem

lemma call {w : Call} (hw : w.entry ≠ .temp_control) (x : Core) : Steady x (x.call w) :=
  ⟨rfl, [w], rfl, by simpa using hw⟩

lemma of_works (h : Works x y) : Steady x y := by
  obtain ⟨l, hl, hwork⟩ := h.calls
  refine ⟨h.registered, l, hl, fun w hmem htemp => ?_⟩
  have hw := hwork w hmem
  cases w with
  | temp_control fan temp => cases hw
  | _ => cases htemp

lemma close (c : Field) (x : Core) : Steady x (x.close c) := by
  refine ⟨close_registered c x, if x.opened = 1 then [.close] else [], ?_, ?_⟩
  · rw [close_calls]
    split <;> simp
  · split
    · simp [Call.entry]
    · simp

end Steady

lemma Core.opening_steady (x : Core) : Steady x x.opening := by
  rw [Core.opening]
  split
  · exact .call (by decide) x
  · exact .refl x

lemma ccd_open_steady {mode : Mode} {nomem : Bool} (t : State) :
    Steady t.toCore (ccd_open m c mode nomem t).1.toCore := by
  rcases @ccd_open_cases m c mode nomem t with ⟨-, err, hopen⟩ | ⟨-, -, hopen⟩ | ⟨-, -, hopen⟩
  · rw [hopen]
    exact .refl _
  · rw [hopen]
    exact .call (by decide) _
  · rw [hopen]
    have hset : Steady t.toCore
        (t.toCore.opening.set_client c (opened_client c mode nomem t.toCore)) :=
      t.toCore.opening_steady.trans (.of_same rfl rfl)
    cases nomem with
    | true => exact hset
    | false => exact hset.trans (.of_same rfl rfl)

/-- Nothing but a registration and its end changes the registration, and none of the events asks
for the temperature. -/
lemma step_steady (hreg : ∀ g, e ≠ .register g) (hun : e ≠ .unregister)
    (hs : Ccd.step k m s e = some s') : Steady s.toCore s'.toCore := by
  cases e with
  | tick d =>
    cases hs
    exact .of_same rfl rfl
  | register g => exact absurd rfl (hreg g)
  | unregister => exact absurd rfl hun
  | open_ c mode nomem =>
    cases hs
    exact ccd_open_steady s
  | close c =>
    have hs : ccd_close k c s = some s' := hs
    rw [ccd_close] at hs
    split at hs
    · obtain ⟨s₁, habort, hs₁⟩ := Option.bind_eq_some_iff.mp hs
      cases hs₁
      exact (Steady.of_works (abort_exposures_works habort)).trans (.close c _)
    · cases hs
      exact .refl _
  | new_exposure c msg =>
    simp only [Ccd.step] at hs
    split at hs
    · exact .of_works (new_exposure_works hs)
    · cases hs
      exact .refl _
  | abort c =>
    simp only [Ccd.step] at hs
    split at hs
    · exact .of_works (abort_exposures_works hs)
    · cases hs
      exact .refl _
  | expire => exact .of_works (complete_exposure_works hs)
  | read c count =>
    simp only [Ccd.step] at hs
    split at hs
    · obtain ⟨⟨t, r⟩, hread, rfl⟩ := Option.map_eq_some_iff.mp hs
      exact .of_works (ccd_read_works hread)
    · cases hs
      exact .refl _
  | wake c count =>
    simp only [Ccd.step] at hs
    split at hs
    · obtain ⟨⟨t, r⟩, hread, rfl⟩ := Option.map_eq_some_iff.mp hs
      exact .of_works (ccd_read_head_works hread)
    · cases hs
      exact .refl _

/-! ## A device that is not registered -/

/-- There are no exposures, and nobody has the device open. -/
structure State.Idle (s : State) : Prop where
  exposure_list : s.exposure_list = none
  client_list : ∀ c, s.client_list c = none
  opened : s.opened = 0

namespace State.Idle

lemma abort (h : s.Idle) (hs : abort_exposures k c s = some s') :
    s' = { s with toCore := s.toCore.set_client c { s.clients c with out_buf_len := 0 } } := by
  obtain ⟨s₁, hmark, hs₁⟩ := Option.bind_eq_some_iff.mp hs
  obtain ⟨s₂, hdrop, hs₂⟩ := Option.bind_eq_some_iff.mp hs₁
  rw [abort_mark, h.client_list] at hmark
  cases hmark
  rw [drop_exposures, h.client_list] at hdrop
  cases hdrop
  cases hs₂
  rfl

/-- Nothing is called for a device that is not registered. -/
lemma step (h : s.Idle) (hr : s.registered = false) (hreg : ∀ g, e ≠ .register g)
    (hs : Ccd.step k m s e = some s') :
    s'.Idle ∧ s'.registered = false ∧ s'.calls = s.calls := by
  have hsame : s.Idle ∧ s.registered = false ∧ s.calls = s.calls := ⟨h, hr, rfl⟩
  have hready : ∀ c, s.ready c = false := fun c => by rw [Core.ready, hr, Bool.false_and]
  cases e with
  | tick d =>
    cases hs
    exact ⟨⟨h.exposure_list, h.client_list, h.opened⟩, hr, rfl⟩
  | register g => exact absurd rfl (hreg g)
  | unregister =>
    have hs : ccd_unregister_device k s = some s' := hs
    rw [ccd_unregister_device, hr] at hs
    cases hs
    exact hsame
  | open_ c mode nomem =>
    cases hs
    rw [ccd_open, if_pos hr]
    exact hsame
  | close c =>
    have hs : ccd_close k c s = some s' := hs
    rw [ccd_close] at hs
    split at hs
    · obtain ⟨s₁, habort, hs₁⟩ := Option.bind_eq_some_iff.mp hs
      cases hs₁
      rw [h.abort habort]
      refine ⟨⟨h.exposure_list, h.client_list, ?_⟩, ?_, ?_⟩
      · rw [close_opened]
        show s.opened - 1 = 0
        rw [h.opened]
      · rw [close_registered]
        exact hr
      · rw [close_calls]
        exact if_neg (show s.opened ≠ 1 by rw [h.opened]; exact Nat.zero_ne_one)
    · cases hs
      exact hsame
  | new_exposure c msg =>
    simp only [Ccd.step, hready, Bool.false_eq_true, if_false] at hs
    cases hs
    exact hsame
  | abort c =>
    simp only [Ccd.step, hready, Bool.false_eq_true, if_false] at hs
    cases hs
    exact hsame
  | expire =>
    have hs : complete_exposure s = some s' := hs
    rw [complete_exposure] at hs
    split at hs
    · cases hs
      exact hsame
    split at hs
    · cases hs
      exact ⟨⟨h.exposure_list, h.client_list, h.opened⟩, hr, rfl⟩
    split at hs
    · cases hs
      exact ⟨⟨h.exposure_list, h.client_list, h.opened⟩, hr, rfl⟩
    · -- the list is empty, so the exposure is not the first one
      obtain ⟨f, -, hf⟩ := Option.bind_eq_some_iff.mp hs
      rw [if_neg (fun hfirst => by rw [h.exposure_list] at hfirst; cases hfirst.2)] at hf
      cases hf
      exact ⟨⟨h.exposure_list, h.client_list, h.opened⟩, hr, rfl⟩
  | read c count =>
    simp only [Ccd.step, hready, Bool.false_eq_true, if_false] at hs
    cases hs
    exact hsame
  | wake c count =>
    simp only [Ccd.step, hready, Bool.false_eq_true, if_false] at hs
    cases hs
    exact hsame

end State.Idle

/-- Where the device has no list, a client loses its exposures and nothing else happens. -/
lemma drop_exposures_idle {n : ℕ} (hlist : s.exposure_list = none)
    (hs : drop_exposures k c n s = some s') :
    s'.exposure_list = none ∧ s'.client_list c = none ∧
      (∀ c', c' ≠ c → s'.client_list c' = s.client_list c') ∧ s'.toCore = s.toCore := by
  induction n generalizing s with
  | zero => cases hs
  | succ n ih =>
    rw [drop_exposures] at hs
    split at hs
    · rename_i hnone
      cases hs
      exact ⟨hlist, hnone, fun _ _ => rfl, rfl⟩
    · rename_i i _
      obtain ⟨s₁, hdel, hs₁⟩ := Option.bind_eq_some_iff.mp hs
      obtain ⟨f, -, hrest⟩ := Option.bind_eq_some_iff.mp hs₁
      have hsame : s₁ = s := by
        obtain ⟨e, -, he⟩ := Option.bind_eq_some_iff.mp hdel
        have hne : s.exposure_list ≠ some i := by
          rw [hlist]
          intro hi
          cases hi
        rw [if_neg hne] at he
        obtain ⟨p, hp, hlast⟩ := Option.bind_eq_some_iff.mp he
        rw [hlist] at hp
        cases hp
        cases hlast
        rfl
      rw [hsame] at hrest
      have hih := fun h => ih h hrest
      obtain ⟨hlist', hc, hothers, hcore⟩ := hih hlist
      refine ⟨hlist', hc, fun c' hcc => ?_, hcore⟩
      rw [hothers c' hcc]
      exact Function.update_of_ne hcc _ _

lemma unregister_idle (hr : s.registered = true) (hs : ccd_unregister_device k s = some s') :
    s'.Idle ∧ s'.registered = false := by
  rw [ccd_unregister_device, if_pos hr] at hs
  obtain ⟨s₀, hs₀, hs⟩ := Option.bind_eq_some_iff.mp hs
  obtain ⟨s₁, hs₁, hs⟩ := Option.bind_eq_some_iff.mp hs
  obtain ⟨hlist₀, hc₀, -, hcore₀⟩ := drop_exposures_idle rfl hs₀
  obtain ⟨hlist₁, hc₁, hothers₁, hcore₁⟩ := drop_exposures_idle hlist₀ hs₁
  obtain ⟨hlist, hc, hothers, hcore⟩ := drop_exposures_idle hlist₁ hs
  have htotal : s'.toCore = s.toCore.unregister := hcore.trans (hcore₁.trans hcore₀)
  refine ⟨⟨hlist, fun c => ?_, ?_⟩, ?_⟩
  · fin_cases c
    · exact (hothers 0 (by decide)).trans ((hothers₁ 0 (by decide)).trans hc₀)
    · exact (hothers 1 (by decide)).trans hc₁
    · exact hc
  · rw [htotal]
    rfl
  · rw [htotal]
    rfl

/-! ## The parsers -/

lemma carry_out_steady {r : Request} {res : Except Errno Unit} (hr : ∀ fan temp, r ≠ .temp fan temp)
    (hs : carry_out k m c s r = some (s', res)) : Steady s.toCore s'.toCore := by
  cases r with
  | query =>
    simp only [carry_out] at hs
    split at hs
    · cases hs
      exact .of_same rfl rfl
    · cases hs
      exact .refl _
  | expose parms =>
    obtain ⟨t, ht, heq⟩ := Option.map_eq_some_iff.mp hs
    cases heq
    exact .of_works (new_exposure_works ht)
  | control cmd parm =>
    cases hs
    exact .call (by simp [Call.entry]) _
  | abort =>
    obtain ⟨t, ht, heq⟩ := Option.map_eq_some_iff.mp hs
    cases heq
    exact .of_works (abort_exposures_works ht)
  | temp fan temp => exact absurd rfl (hr fan temp)
  | nothing =>
    cases hs
    exact .refl _

/-- The mini-driver is asked for the temperature. -/
lemma carry_out_temp {fan : UInt16} {temp : ℤ} {res : Except Errno Unit}
    (hs : carry_out k m c s (.temp fan temp) = some (s', res)) :
    s'.registered = s.registered ∧ s'.calls = s.calls ++ [.temp_control fan temp] := by
  simp only [carry_out, temp_request] at hs
  split at hs
  · cases hs
    exact ⟨rfl, rfl⟩
  · cases hs
    exact ⟨rfl, rfl⟩

/-- The state after an iteration. -/
def parsed : State ⊕ Option (State × Except Errno Unit) → Option State
  | .inl s => some s
  | .inr r => r.map Prod.fst

lemma parse_binary_eq (d : Driver) :
    d.parse_binary k m c = (parsed (parse_binary_msg k m c d.dev)).map d.moved := by
  rw [Driver.parse_binary]
  cases parse_binary_msg k m c d.dev with
  | inl s => rfl
  | inr r => cases r <;> rfl

lemma parse_binary_steady (hasks : ¬ (s.clients c).asks)
    (hs : parsed (parse_binary_msg k m c s) = some s') : Steady s.toCore s'.toCore := by
  simp only [parse_binary_msg] at hs
  split at hs
  · cases hs
    exact .refl _
  split at hs
  · rename_i hv
    have hno : ∀ fan temp, (s.clients c).request ≠ .temp fan temp :=
      fun fan temp heq => hasks ⟨hv, fan, temp, heq⟩
    split at hs
    · rename_i s₁ hcarry
      cases hs
      exact (carry_out_steady hno hcarry).trans (.of_same rfl rfl)
    · obtain ⟨⟨s₁, res⟩, hcarry, heq⟩ := Option.map_eq_some_iff.mp hs
      cases heq
      exact carry_out_steady hno hcarry
  · cases hs
    exact .of_same rfl rfl

lemma parse_binary_temp (hasks : (s.clients c).asks)
    (hs : parsed (parse_binary_msg k m c s) = some s') :
    s'.registered = s.registered ∧
      ∃ fan temp, s'.calls = s.calls ++ [.temp_control fan temp] := by
  obtain ⟨hv, fan, temp, heq⟩ := hasks
  have hnz : (s.clients c).in_buf_len ≠ 0 := by
    intro hz
    have hlen : ∀ kind len, 0 < len → ¬ (s.clients c).is_msg len kind := by
      rintro kind len hpos ⟨hle, -⟩
      omega
    rw [Client.request, if_neg (hlen _ _ (by decide)), if_neg (hlen _ _ (by decide)),
      if_neg (hlen _ _ (by decide)), if_neg (hlen _ _ (by decide)),
      if_neg (hlen _ _ (by decide))] at heq
    cases heq
  simp only [parse_binary_msg, if_neg hnz, if_pos hv, heq] at hs
  split at hs
  · rename_i s₁ hcarry
    cases hs
    obtain ⟨hr, hcalls⟩ := carry_out_temp hcarry
    exact ⟨hr, fan, temp, hcalls⟩
  · have hs : (carry_out k m c s (.temp fan temp)).map Prod.fst = some s' := hs
    obtain ⟨⟨s₁, res⟩, hcarry, heq⟩ := Option.map_eq_some_iff.mp hs
    cases heq
    obtain ⟨hr, hcalls⟩ := carry_out_temp hcarry
    exact ⟨hr, fan, temp, hcalls⟩

lemma perform_steady {a : Action} (hs : perform k c s a = some s') : Steady s.toCore s'.toCore := by
  cases a with
  | query =>
    cases hs
    exact .refl _
  | errorno value =>
    cases hs
    exact .refl _
  | expose parms => exact .of_works (new_exposure_works hs)
  | control cmd parm =>
    cases hs
    exact .call (by simp [Call.entry]) _
  | abort => exact .of_works (abort_exposures_works hs)

lemma perform_all_steady {l : List Action} (hs : l.foldlM (perform k c) s = some s') :
    Steady s.toCore s'.toCore := by
  induction l generalizing s with
  | nil =>
    cases hs
    exact .refl _
  | cons a l ih =>
    obtain ⟨s₁, hs₁, hs⟩ := Option.bind_eq_some_iff.mp hs
    exact (perform_steady hs₁).trans (ih hs)

/-! ## Runs -/

namespace Driver

/-- The eight functions that are checked are there when the device is registered, and nothing is
called that is missing. -/
structure Sound (d : Driver) : Prop where
  entries : d.dev.registered = true → ∀ f, f ≠ .temp_control → d.entries f = true
  idle : d.dev.registered = false → d.dev.Idle
  present : d.missing = false

lemma moved_missing {l : List Call} (hl : s.calls = d.dev.calls ++ l) :
    (d.moved s).missing = (d.missing || l.any fun w => !d.entries w.entry) := by
  rw [moved, hl, List.drop_left]

lemma Sound.init (jiffies : ℕ) : Sound (init jiffies) where
  entries h := Bool.noConfusion h
  idle _ := ⟨rfl, fun _ => rfl, rfl⟩
  present := rfl

lemma Sound.moved (h : Sound d) (hr : d.dev.registered = true)
    (hs : Steady d.dev.toCore s.toCore) : Sound (d.moved s) := by
  have hreg : s.registered = true := hs.registered.trans hr
  obtain ⟨l, hl, hw⟩ := hs.calls
  refine ⟨fun _ => h.entries hr, fun hun => Bool.noConfusion (hun.symm.trans hreg), ?_⟩
  rw [moved_missing hl, h.present, Bool.false_or, List.any_eq_false]
  intro w hmem
  simp [h.entries hr w.entry (hw w hmem)]

lemma Sound.stays (h : Sound d)
    (hs : s.Idle ∧ s.registered = false ∧ s.calls = d.dev.calls) : Sound (d.moved s) := by
  obtain ⟨hidle, hreg, hcalls⟩ := hs
  have hl : s.calls = d.dev.calls ++ [] := by rw [hcalls, List.append_nil]
  refine ⟨fun hr' => Bool.noConfusion (hreg.symm.trans hr'), fun _ => hidle, ?_⟩
  rw [moved_missing hl, h.present]
  rfl

lemma Sound.event (h : Sound d) (hreg : ∀ g, e ≠ .register g) (hun : e ≠ .unregister)
    (hs : Ccd.step k m d.dev e = some s) : Sound (d.moved s) := by
  cases hr : d.dev.registered with
  | true => exact h.moved hr (step_steady hreg hun hs)
  | false => exact h.stays ((h.idle hr).step hr hreg hs)

/-- When all the functions that are checked have been copied, they are there. -/
lemma copy_entries_done {r f f' : Entry → Bool} {es : List Entry}
    (h : copy_entries r es f = (f', true)) :
    (∀ e ∈ es, f' e = true ∨ e = .temp_control) ∧ ∀ e ∉ es, e ≠ .temp_control → f' e = f e := by
  induction es generalizing f with
  | nil =>
    cases h
    refine ⟨fun e he => absurd he List.not_mem_nil, fun e _ hne => ?_⟩
    exact Function.update_of_ne hne _ _
  | cons g es ih =>
    rw [copy_entries] at h
    split at h
    · obtain ⟨hmem, hrest⟩ := ih h
      constructor
      · intro e he
        rcases List.mem_cons.mp he with rfl | he
        · by_cases hmem' : e ∈ es
          · exact hmem e hmem'
          · by_cases htemp : e = .temp_control
            · exact .inr htemp
            · exact .inl ((hrest e hmem' htemp).trans (Function.update_self e true f))
        · exact hmem e he
      · intro e he hne
        obtain ⟨hne', he'⟩ := not_or.mp (mt List.mem_cons.mpr he)
        rw [hrest e he' hne]
        exact Function.update_of_ne hne' _ _
    · cases h

lemma Sound.register (h : Sound d) (r : Record) : Sound (d.register r) := by
  rw [Driver.register]
  split
  · exact h
  rename_i hfree
  have hr : d.dev.registered = false := by simpa using (not_or.mp hfree).2
  obtain ⟨⟨f, done⟩, hf⟩ : ∃ f, f = copy_entries r.entries checked d.entries := ⟨_, rfl⟩
  rw [← hf]
  have hidle := h.idle hr
  cases done with
  | true =>
    have hnew : (ccd_register_device r.geometry d.dev).registered = true := by
      simp [ccd_register_device, hr]
    refine ⟨fun _ e he => ?_, fun hun => Bool.noConfusion (hun.symm.trans hnew), h.present⟩
    have hmem : e ∈ checked := by
      cases e with
      | temp_control => exact absurd rfl he
      | _ => decide
    exact ((copy_entries_done hf.symm).1 e hmem).resolve_right he
  | false =>
    refine ⟨fun hr' => ?_, fun _ => ⟨hidle.exposure_list, hidle.client_list, hidle.opened⟩, h.present⟩
    exact Bool.noConfusion (hr.symm.trans hr')

lemma Sound.unregister (h : Sound d) (hs : d.unregister k = some d') : Sound d' := by
  obtain ⟨s, hun, rfl⟩ := Option.map_eq_some_iff.mp hs
  cases hr : d.dev.registered with
  | true =>
    rw [if_pos rfl]
    obtain ⟨hidle, hreg⟩ := unregister_idle hr hun
    refine ⟨fun hr' => Bool.noConfusion (hreg.symm.trans hr'), fun _ => hidle, ?_⟩
    -- the mini-driver is closed with its own function
    show (d.missing || decide (d.dev.opened ≠ 0) && !d.entries .close) = false
    rw [h.present, h.entries hr .close (by decide)]
    simp
  | false =>
    rw [ccd_unregister_device, hr] at hun
    cases hun
    exact h

lemma Sound.heard {t : Talk} (h : Sound d) (hr : d.dev.registered = true)
    (hs : d.heard k c t = some d') : Sound d' := by
  obtain ⟨s, hperform, rfl⟩ := Option.map_eq_some_iff.mp hs
  have hsteady := perform_all_steady hperform
  have htotal : Steady d.dev.toCore s.toCore := ⟨hsteady.registered, hsteady.calls⟩
  have hmoved := h.moved hr htotal
  exact ⟨hmoved.entries, hmoved.idle, hmoved.present⟩

lemma ready_registered (h : d.dev.ready c = true) : d.dev.registered = true := by
  rw [Core.ready, Bool.and_eq_true] at h
  exact h.1

lemma Sound.parse_text (h : Sound d) (hr : d.dev.registered = true)
    (hs : d.parse_text k result c = some d') : Sound d' := by
  rw [Driver.parse_text] at hs
  split at hs
  · exact h.heard hr hs
  · exact h.heard hr hs

/-- A temperature request that the mini-driver has a function for, or another message. -/
lemma Sound.parse_binary (h : Sound d) (hr : d.dev.registered = true)
    (hok : d.entries .temp_control = false → ¬ (d.dev.clients c).asks)
    (hs : d.parse_binary k m c = some d') : Sound d' := by
  rw [parse_binary_eq] at hs
  obtain ⟨s, hparse, rfl⟩ := Option.map_eq_some_iff.mp hs
  by_cases hasks : (d.dev.clients c).asks
  · obtain ⟨hreg, fan, temp, hcalls⟩ := parse_binary_temp hasks hparse
    refine ⟨fun _ => h.entries hr, fun hun => ?_, ?_⟩
    · exact Bool.noConfusion (hun.symm.trans (hreg.trans hr))
    · have htemp : d.entries .temp_control = true := by
        cases hf : d.entries .temp_control with
        | true => rfl
        | false => exact absurd hasks (hok hf)
      rw [moved_missing hcalls, h.present]
      simp [Call.entry, htemp]
  · exact h.moved hr (parse_binary_steady hasks hparse)

lemma Sound.step {w : Happening} (h : Sound d) (hok : Spared d w)
    (hs : d.step k m result w = some d') : Sound d' := by
  cases w with
  | register r =>
    cases hs
    exact h.register r
  | event e =>
    cases e with
    | register g =>
      cases hs
      exact h.register (.full g)
    | unregister => exact h.unregister hs
    | open_ c mode nomem =>
      cases hs
      have hopen : Ccd.step k m d.dev (.open_ c mode nomem) =
          some (ccd_open m c mode nomem d.dev).1 := rfl
      have hmoved := h.event (by intro g hg; cases hg) (by intro hu; cases hu) hopen
      exact ⟨hmoved.entries, hmoved.idle, hmoved.present⟩
    | _ =>
      simp only [Driver.step] at hs
      obtain ⟨s, hev, rfl⟩ := Option.map_eq_some_iff.mp hs
      exact h.event (by intro g hg; cases hg) (by intro hu; cases hu) hev
  | take_in c data =>
    simp only [Driver.step] at hs
    split at hs
    · rename_i hready
      cases hs
      exact h.moved (ready_registered hready) (.of_same rfl rfl)
    · cases hs
      exact h
  | parse c =>
    simp only [Driver.step] at hs
    split at hs
    · rename_i hready
      have hr := ready_registered hready
      split at hs
      · rename_i hbinary
        exact h.parse_binary hr (fun hf => hok hf hready hbinary) hs
      · exact h.parse_text hr hs
    · cases hs
      exact h

/-- Without the function, a temperature request calls a null pointer. -/
lemma not_spared_missing {w : Happening} (hok : ¬ Spared d w)
    (hs : d.step k m result w = some d') : d'.missing = true := by
  cases w with
  | parse c =>
    simp only [Spared, not_forall, not_not] at hok
    obtain ⟨hf, hready, hbinary, hasks⟩ := hok
    simp only [Driver.step, hready, if_true, hbinary] at hs
    rw [parse_binary_eq] at hs
    obtain ⟨s, hparse, rfl⟩ := Option.map_eq_some_iff.mp hs
    obtain ⟨-, fan, temp, hcalls⟩ := parse_binary_temp hasks hparse
    rw [moved_missing hcalls]
    simp [Call.entry, hf]
  | _ => exact absurd trivial hok

/-- In every run in which the parser does not meet a temperature request while the mini-driver has
no `temp_control`, every function that is called is there; the first step that does not meet this
calls a null pointer. -/
theorem no_missing_function (k : Kernel) (m : Mini) (result : List Call → List Action → ℤ)
    (jiffies : ℕ) (h : Reach (Driver.step k m result) Spared (init jiffies) d) :
    d.missing = false ∧
      ∀ w d', d.step k m result w = some d' → (d'.missing = false ↔ Spared d w) := by
  have hsound : Sound d :=
    h.induction_on (Sound.init jiffies) fun _ _ _ hs hok hstep => hs.step hok hstep
  refine ⟨hsound.present, fun w d' hs => ⟨fun hpresent => ?_, fun hok => (hsound.step hok hs).present⟩⟩
  by_contra hok
  exact Bool.noConfusion (hpresent.symm.trans (not_spared_missing hok hs))

/-- A message without parameters. -/
def short_message (kind : ℕ) : List UInt8 :=
  elem_bytes CCD_MSG_HEADER ++ elem_bytes 8 ++ elem_bytes 0 ++ elem_bytes kind

/-- A temperature request: fan on, 20 degrees. -/
def temp_message : List UInt8 :=
  elem_bytes CCD_MSG_HEADER ++ elem_bytes CCD_MSG_TEMP_LEN ++ elem_bytes 0 ++
    elem_bytes CCD_MSG_TEMP ++ elem_bytes 1 ++ elem_bytes 20 ++ elem_bytes 0

/-- `sx_usb` registers, a client opens the device, and its abort is carried out. -/
theorem no_missing_function_abort :
    ∃ d, replay (Driver.step .hz100 .black fun _ _ => 0) (init 0)
        [.register (.sx_usb .small), .event (.open_ 0 .binary false),
          .take_in 0 (short_message CCD_MSG_ABORT), .parse 0] = some d ∧
      (d.dev.clients 0).in_buf_len = 0 ∧ d.missing = false := by
  have htaken : Reach (Driver.step .hz100 .black fun _ _ => 0) Spared (init 0) _ :=
    .step (e := .take_in 0 (short_message CCD_MSG_ABORT))
      (.step (e := .event (.open_ 0 .binary false))
        (.step (e := .register (.sx_usb .small)) .init trivial rfl) trivial rfl) trivial rfl
  refine ⟨_, rfl, rfl, ?_⟩
  refine (no_missing_function .hz100 .black (fun _ _ => 0) 0
    (htaken.step (e := .parse 0) ?_ rfl)).1
  rintro - - - ⟨-, fan, temp, hrequest⟩
  have habort : Request.temp fan temp = .abort := hrequest.symm.trans rfl
  cases habort

/-- `sx_usb` registers, a client opens the device and asks for the temperature. -/
theorem temperature_of_sx_usb :
    ∃ d, replay (Driver.step .hz100 .black fun _ _ => 0) (init 0)
        [.register (.sx_usb .small), .event (.open_ 0 .binary false),
          .take_in 0 temp_message, .parse 0] = some d ∧ d.missing = true :=
  ⟨_, rfl, rfl⟩

end Driver

end EspLinux.Ccd
