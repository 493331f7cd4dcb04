import EspLinux.SxUsb.Camera

/-!
# The USB camera driver: the busy bits

A bit that is left set by an operation that has returned, with none of its URBs in flight,
is never cleared again, and the camera refuses every later operation that needs it.  No
bit is left so as long as memory is found, URBs are accepted and no empty write is made.
-/

namespace EspLinux.SxUsb

open EspLinux.Lib

/-- The operations that set busy bits and keep them while they sleep. -/
inductive Call
  | latch_frame (flags : ℕ)
  | new_frame (xoffset yoffset width height xbin ybin msec flags : ℕ)
  | tty_write (port count : ℕ)
  | control
  | tty_check_input

/-- A call up to the point where it has set its bits, or returned. -/
def Call.start (op : Op) (sx : Device) : Call → Device × Option Pending
  | latch_frame flags => sx_latch_frame op flags sx
  | new_frame xoffset yoffset width height xbin ybin msec flags =>
    sx_new_frame op xoffset yoffset width height xbin ybin msec flags sx
  | tty_write port count => sx_tty_write op port count sx
  | control => sx_control op sx
  | tty_check_input => sx_tty_check_input op sx

/-- A camera, and the operations on it that have not returned. -/
structure Driver where
  sx : Device
  running : Op → Option Pending
  next : Op

inductive Event
  | call (c : Call)
  | finish (op : Op) (o : Outcome)
  | snd_complete (submitted : Bool)
  | rcv_complete (actual_length : ℕ) (submitted : Bool)
  | end_read
  | open
  | close
  | disconnect

/-! ## Setting and clearing bits -/

/-- The bits once an operation has set some. -/
def grab (op : Op) (bs : List Busy) (busy : Busy → Option Op) : Busy → Option Op :=
  fun b => if b ∈ bs then some op else busy b

variable {op : Op} {bs : List Busy} {sx sx' : Device}

lemma sx_acquire_eq_some (h : sx_acquire op bs sx = some sx') :
    (∀ b ∈ bs, sx.busy b = none) ∧ sx.connected = true ∧ sx' = { sx with busy := grab op bs sx.busy } := by
  rw [sx_acquire] at h
  split at h
  · rename_i hfree
    exact ⟨hfree.1, hfree.2, (Option.some.inj h).symm⟩
  · cases h

lemma sx_open_acquire_eq_some (h : sx_open_acquire op bs sx = some sx') :
    (∀ b ∈ bs, sx.busy b = none) ∧ sx.connected = true ∧ sx' = { sx with busy := grab op bs sx.busy } := by
  rw [sx_open_acquire] at h
  split at h
  · exact sx_acquire_eq_some h
  · cases h

/-- What a call does to bits and URBs until it has set its bits. -/
inductive Start (op : Op) (sx sx' : Device) : Option Pending → Prop
  | refused (busy : sx'.busy = sx.busy) : Start op sx sx' none
  | submit (free : sx.busy .SND = none ∧ sx.busy .RCV = none)
      (busy : sx'.busy = grab op [.SND, .RCV] sx.busy) : Start op sx sx' (some .submit)
  | clear (free : sx.busy .SND = none) (busy : sx'.busy = grab op [.SND] sx.busy) :
      Start op sx sx' (some .clear)
  | ctrl {pending : Pending} (later : pending ≠ .submit ∧ pending ≠ .clear)
      (busy : sx'.busy = grab op [.CTRL] sx.busy) : Start op sx sx' (some pending)

/-- A write without bytes to a camera whose `CTRL` is free. -/
def Call.IsEmpty (sx : Device) : Call → Prop
  | .tty_write _ count => count = 0 ∧ sx.busy .CTRL = none ∧ sx.connected = true
  | _ => False

/-- No call connects the camera or touches a URB before it submits one. -/
structure Quiet (sx sx' : Device) : Prop where
  connected : sx'.connected = sx.connected
  snd_urb : sx'.snd_urb = sx.snd_urb
  rcv_urb : sx'.rcv_urb = sx.rcv_urb

lemma start_latch_frame (flags : ℕ) :
    Quiet sx (sx_latch_frame op flags sx).1 ∧
      Start op sx (sx_latch_frame op flags sx).1 (sx_latch_frame op flags sx).2 := by
  rw [sx_latch_frame]
  simp only
  split
  · rcases h : sx_open_acquire op [.SND, .RCV] sx with _ | sx₁
    · exact ⟨⟨rfl, rfl, rfl⟩, .refused rfl⟩
    · obtain ⟨hfree, -, rfl⟩ := sx_open_acquire_eq_some h
      exact ⟨⟨rfl, rfl, rfl⟩, .submit ⟨hfree .SND (by simp), hfree .RCV (by simp)⟩ rfl⟩
  · exact ⟨⟨rfl, rfl, rfl⟩, .refused rfl⟩

lemma start_new_frame (op : Op) (sx : Device) (xoffset yoffset width height xbin ybin msec flags : ℕ) :
    Quiet sx (sx_new_frame op xoffset yoffset width height xbin ybin msec flags sx).1 ∧
      Start op sx (sx_new_frame op xoffset yoffset width height xbin ybin msec flags sx).1
        (sx_new_frame op xoffset yoffset width height xbin ybin msec flags sx).2 := by
  rw [sx_new_frame]
  simp only
  generalize hset : ({ sx with frame := _ } : Device) = sx₀
  have hquiet : Quiet sx sx₀ ∧ sx₀.busy = sx.busy := by
    rw [← hset]
    exact ⟨⟨rfl, rfl, rfl⟩, rfl⟩
  obtain ⟨⟨hconn, hsnd, hrcv⟩, hbusy⟩ := hquiet
  split
  · rcases h : sx_open_acquire op [.SND, .RCV] sx₀ with _ | sx₁
    · exact ⟨⟨hconn, hsnd, hrcv⟩, .refused hbusy⟩
    · obtain ⟨hfree, -, rfl⟩ := sx_open_acquire_eq_some h
      rw [hbusy] at hfree
      exact ⟨⟨hconn, hsnd, hrcv⟩, .submit ⟨hfree .SND (by simp), hfree .RCV (by simp)⟩
        (congrArg (grab op [.SND, .RCV]) hbusy)⟩
  · split
    · rcases h : sx_open_acquire op [.SND] sx₀ with _ | sx₁
      · exact ⟨⟨hconn, hsnd, hrcv⟩, .refused hbusy⟩
      · obtain ⟨hfree, -, rfl⟩ := sx_open_acquire_eq_some h
        rw [hbusy] at hfree
        exact ⟨⟨hconn, hsnd, hrcv⟩, .clear (hfree .SND (by simp)) (congrArg (grab op [.SND]) hbusy)⟩
    · exact ⟨⟨hconn, hsnd, hrcv⟩, .refused hbusy⟩

lemma start_control : Quiet sx (sx_control op sx).1 ∧
    Start op sx (sx_control op sx).1 (sx_control op sx).2 := by
  rw [sx_control]
  rcases h : sx_open_acquire op [.CTRL] sx with _ | sx₁
  · exact ⟨⟨rfl, rfl, rfl⟩, .refused rfl⟩
  · obtain ⟨-, -, rfl⟩ := sx_open_acquire_eq_some h
    exact ⟨⟨rfl, rfl, rfl⟩, .ctrl (by simp) rfl⟩

lemma start_tty_check_input : Quiet sx (sx_tty_check_input op sx).1 ∧
    Start op sx (sx_tty_check_input op sx).1 (sx_tty_check_input op sx).2 := by
  rw [sx_tty_check_input]
  split
  · rcases h : sx_acquire op [.CTRL] sx with _ | sx₁
    · exact ⟨⟨rfl, rfl, rfl⟩, .refused rfl⟩
    · obtain ⟨-, -, rfl⟩ := sx_acquire_eq_some h
      exact ⟨⟨rfl, rfl, rfl⟩, .ctrl (by simp) rfl⟩
  · exact ⟨⟨rfl, rfl, rfl⟩, .refused rfl⟩

lemma start_tty_write (port count : ℕ) :
    Quiet sx (sx_tty_write op port count sx).1 ∧
      (¬ (Call.tty_write port count).IsEmpty sx →
        Start op sx (sx_tty_write op port count sx).1 (sx_tty_write op port count sx).2) := by
  rw [sx_tty_write]
  rcases h : sx_acquire op [.CTRL] sx with _ | sx₁
  · exact ⟨⟨rfl, rfl, rfl⟩, fun _ => .refused rfl⟩
  · obtain ⟨hfree, hconn, rfl⟩ := sx_acquire_eq_some h
    by_cases hcount : count = 0
    · simp only [if_pos hcount]
      exact ⟨⟨rfl, rfl, rfl⟩, fun hno => absurd ⟨hcount, hfree .CTRL (by simp), hconn⟩ hno⟩
    · simp only [if_neg hcount]
      exact ⟨⟨rfl, rfl, rfl⟩, fun _ => .ctrl (by simp) rfl⟩

/-- A call that is no empty write sets its bits for the rest of it, or none. -/
lemma start_call (op : Op) (sx : Device) (c : Call) : Quiet sx (c.start op sx).1 ∧
    (¬ c.IsEmpty sx → Start op sx (c.start op sx).1 (c.start op sx).2) := by
  cases c with
  | latch_frame flags =>
    exact ⟨(start_latch_frame flags).1, fun _ => (start_latch_frame flags).2⟩
  | new_frame xoffset yoffset width height xbin ybin msec flags =>
    have h := start_new_frame op sx xoffset yoffset width height xbin ybin msec flags
    exact ⟨h.1, fun _ => h.2⟩
  | tty_write port count => exact start_tty_write port count
  | control => exact ⟨start_control.1, fun _ => start_control.2⟩
  | tty_check_input => exact ⟨start_tty_check_input.1, fun _ => start_tty_check_input.2⟩

/-- An empty write sets `CTRL` and returns. -/
lemma start_empty (op : Op) {c : Call} (h : c.IsEmpty sx) :
    (c.start op sx).1.busy = grab op [.CTRL] sx.busy ∧ (c.start op sx).2 = none := by
  rcases c with _ | _ | ⟨port, count⟩ | _ | _
  · cases h
  · cases h
  · obtain ⟨rfl, hfree, hconn⟩ := h
    have hacquire : sx_acquire op [.CTRL] sx = some { sx with busy := grab op [.CTRL] sx.busy } := by
      rw [sx_acquire, if_pos]
      · rfl
      · exact ⟨fun b hb => List.mem_singleton.mp hb ▸ hfree, hconn⟩
    rw [Call.start, sx_tty_write, hacquire]
    exact ⟨rfl, rfl⟩
  · cases h
  · cases h

namespace Driver

def step (s : Driver) : Event → Option Driver
  | .call c =>
    let (sx, pending) := c.start s.next s.sx
    some ⟨sx, Function.update s.running s.next pending, s.next + 1⟩
  | .finish op o =>
    (s.running op).map fun pending =>
      { s with sx := pending.finish op o s.sx, running := Function.update s.running op none }
  | .snd_complete submitted =>
    s.sx.snd_urb.map fun op => { s with sx := sx_usb_snd_complete op submitted s.sx }
  | .rcv_complete actual_length submitted =>
    s.sx.rcv_urb.map fun op => { s with sx := sx_usb_rcv_complete op actual_length submitted s.sx }
  | .end_read => some { s with sx := sx_end_read s.sx }
  | .open => some { s with sx := sx_open s.next s.sx }
  | .close => some { s with sx := sx_close s.next s.sx }
  | .disconnect => some { s with sx := sx_usb_disconnect s.sx }

/-- The operation has returned, and no URB it submitted is in flight. -/
def Done (s : Driver) (op : Op) : Prop :=
  s.running op = none ∧ s.sx.snd_urb ≠ some op ∧ s.sx.rcv_urb ≠ some op

/-- Each bit that an operation set on a connected camera is cleared once it is done. -/
def Cleared (s : Driver) : Prop :=
  s.sx.connected = true → ∀ op, s.Done op → ∀ b, s.sx.busy b ≠ some op

/-- The calls made in this step succeed, and no write is empty.  A receive URB that cannot
be submitted again does no harm where `sx_end_read` has passed the bit on. -/
def Succeeds (s : Driver) (e : Event) : Prop :=
  s.sx.connected = true →
    match e with
    | .call c => ¬ c.IsEmpty s.sx
    | .finish op o =>
      match s.running op with
      | some .submit => o.submitted = true
      | some .clear => o.allocated = true
      | _ => True
    | .snd_complete submitted =>
      s.sx.busy .RCV ≠ none → submitted = true ∧ s.sx.rcv_urb = none
    | .rcv_complete actual_length submitted =>
      (receive actual_length { s.sx with rcv_urb := none }).bytes_remaining ≠ 0 →
        submitted = true ∨ s.sx.busy .RCV ≠ s.sx.rcv_urb
    | _ => True

/-- A camera as it is probed: nothing is set, submitted or running. -/
structure Probed (s : Driver) : Prop where
  busy : ∀ b, s.sx.busy b = none
  snd_urb : s.sx.snd_urb = none
  rcv_urb : s.sx.rcv_urb = none
  running : ∀ op, s.running op = none

/-! ## The invariant -/

/-- Whose the bits and URBs of a connected camera are. -/
structure Held (s : Driver) : Prop where
  /-- `SND` is left to `snd_urb` or to the rest of its operation. -/
  snd : ∀ op, s.sx.busy .SND = some op →
    s.sx.snd_urb = some op ∨ s.running op = some .submit ∨ s.running op = some .clear
  /-- `RCV` is left to a URB, or to an operation that has still to submit one. -/
  rcv : ∀ op, s.sx.busy .RCV = some op →
    s.sx.snd_urb = some op ∨ s.sx.rcv_urb = some op ∨ s.running op = some .submit
  /-- `CTRL` is left to the rest of an operation that sends no URB. -/
  ctrl : ∀ op, s.sx.busy .CTRL = some op →
    s.running op ≠ none ∧ s.running op ≠ some .submit ∧ s.running op ≠ some .clear
  /-- An operation whose URB is being sent has returned, and its receive URB is yet to come. -/
  sending : ∀ op, s.sx.snd_urb = some op → s.running op = none ∧ s.sx.busy .SND = some op ∧
    s.sx.rcv_urb ≠ some op ∧ ∀ op', s.sx.busy .RCV = some op' → op' = op
  submit : ∀ op, s.running op = some .submit → s.sx.busy .SND = some op ∧
    ∀ op', s.sx.busy .RCV = some op' → op' = op
  clear : ∀ op, s.running op = some .clear → s.sx.busy .SND = some op
  /-- An operation that has not returned has no URB in flight. -/
  running : ∀ op, s.running op ≠ none → s.sx.snd_urb ≠ some op ∧ s.sx.rcv_urb ≠ some op

/-- Operations to come hold nothing. -/
def Fresh (s : Driver) : Prop :=
  ∀ op, s.next ≤ op → s.Done op ∧ ∀ b, s.sx.busy b ≠ some op

structure Inv (s : Driver) : Prop where
  fresh : s.Fresh
  held : s.sx.connected = true → s.Held

variable {s : Driver}

lemma cleared_of_held (h : s.sx.connected = true → s.Held) : s.Cleared := by
  rintro hc op ⟨hrun, hsnd, hrcv⟩ b hb
  rcases b with _ | _ | _
  · rcases (h hc).snd op hb with hu | hr | hr
    · exact hsnd hu
    · rw [hrun] at hr
      cases hr
    · rw [hrun] at hr
      cases hr
  · rcases (h hc).rcv op hb with hu | hu | hr
    · exact hsnd hu
    · exact hrcv hu
    · rw [hrun] at hr
      cases hr
  · exact ((h hc).ctrl op hb).1 hrun

lemma inv_of_probed (h : s.Probed) : s.Inv where
  fresh := by
    intro op _
    refine ⟨⟨h.running op, ?_, ?_⟩, fun b => ?_⟩
    · rw [h.snd_urb]
      nofun
    · rw [h.rcv_urb]
      nofun
    · rw [h.busy b]
      nofun
  held := by
    intro _
    constructor
    · intro op hb
      rw [h.busy] at hb
      cases hb
    · intro op hb
      rw [h.busy] at hb
      cases hb
    · intro op hb
      rw [h.busy] at hb
      cases hb
    · intro op hu
      rw [h.snd_urb] at hu
      cases hu
    · intro op hr
      rw [h.running] at hr
      cases hr
    · intro op hr
      rw [h.running] at hr
      cases hr
    · intro op hr
      exact absurd (h.running op) hr

/-! ## Steps -/

@[simp] lemma grab_of_mem {b : Busy} {busy : Busy → Option Op} (h : b ∈ bs) :
    grab op bs busy b = some op := if_pos h

@[simp] lemma grab_of_not_mem {b : Busy} {busy : Busy → Option Op} (h : b ∉ bs) :
    grab op bs busy b = busy b := if_neg h

/-- A call that starts takes bits that were free for an operation that held nothing. -/
lemma held_call {c : Call} (h : s.Held) (hfresh : s.Fresh) (hempty : ¬ c.IsEmpty s.sx) :
    Held ⟨(c.start s.next s.sx).1, Function.update s.running s.next (c.start s.next s.sx).2,
      s.next + 1⟩ := by
  obtain ⟨⟨hrun, hsnd, hrcv⟩, hbits⟩ := hfresh s.next le_rfl
  obtain ⟨⟨hconn, hsndu, hrcvu⟩, hstart⟩ := start_call s.next s.sx c
  have hold : ∀ op, op ≠ s.next → Function.update s.running s.next (c.start s.next s.sx).2 op =
      s.running op := fun op hne => Function.update_of_ne hne _ _
  have hnew : Function.update s.running s.next (c.start s.next s.sx).2 s.next =
      (c.start s.next s.sx).2 := Function.update_self _ _ _
  generalize hp : c.start s.next s.sx = p at *
  obtain ⟨sx', pending⟩ := p
  simp only at hconn hsndu hrcvu hold hnew hstart ⊢
  obtain ⟨hsnd', hrcv', hctrl', hsending, hsubmit, hclear, hrunning⟩ := h
  rcases hstart hempty with hbusy | ⟨hfree, hbusy⟩ | ⟨hfree, hbusy⟩ | ⟨hlater, hbusy⟩
  · constructor <;> simp only [hbusy, hsndu, hrcvu] <;> intro op
    all_goals (by_cases hop : op = s.next <;> grind)
  · constructor <;> simp only [hbusy, hsndu, hrcvu] <;> intro op
    all_goals (by_cases hop : op = s.next <;> grind [grab])
  · constructor <;> simp only [hbusy, hsndu, hrcvu] <;> intro op
    all_goals (by_cases hop : op = s.next <;> grind [grab])
  · constructor <;> simp only [hbusy, hsndu, hrcvu] <;> intro op
    all_goals (by_cases hop : op = s.next <;> grind [grab])

/-- The rest of an operation hands its bits to its URB, or clears them. -/
lemma held_finish {op : Op} {o : Outcome} {pending : Pending} (h : s.Held)
    (hrun : s.running op = some pending)
    (hok : pending = .submit → o.submitted = true) (hok' : pending = .clear → o.allocated = true) :
    Held { s with sx := pending.finish op o s.sx, running := Function.update s.running op none } := by
  have hold : ∀ op', op' ≠ op → Function.update s.running op none op' = s.running op' :=
    fun op' hne => Function.update_of_ne hne _ _
  have hnew : Function.update s.running op none op = none := Function.update_self _ _ _
  obtain ⟨hsnd, hrcv, hctrl, hsending, hsubmit, hclear, hrunning⟩ := h
  rcases pending with _ | _ | ⟨port, count⟩ | _
  · have hfree : s.sx.snd_urb = none := by
      rcases hu : s.sx.snd_urb with _ | op'
      · rfl
      · grind
    have hfinish : Pending.finish op o s.sx .submit = { s.sx with snd_urb := some op } := by
      rw [Pending.finish, submit_snd, if_pos ⟨hok rfl, hfree⟩]
    rw [hfinish]
    constructor <;> intro op' <;> by_cases hop : op' = op <;> grind
  · have hfinish : Pending.finish op o s.sx .clear = sx_release [.SND] s.sx := by
      rw [Pending.finish, clear_pixels, if_pos (hok' rfl)]
    rw [hfinish]
    constructor <;> intro op' <;> by_cases hop : op' = op <;> grind [sx_release]
  · show Held ⟨sx_release [.CTRL] s.sx, _, _⟩
    constructor <;> intro op' <;> by_cases hop : op' = op <;> grind [sx_release]
  · show Held ⟨sx_release [.CTRL] s.sx, _, _⟩
    constructor <;> intro op' <;> by_cases hop : op' = op <;> grind [sx_release]

/-- The completion of the send URB hands `RCV` to the receive URB. -/
lemma held_snd_complete {op : Op} {submitted : Bool} (h : s.Held) (hconn : s.sx.connected = true)
    (hurb : s.sx.snd_urb = some op)
    (hok : s.sx.busy .RCV ≠ none → submitted = true ∧ s.sx.rcv_urb = none) :
    Held { s with sx := sx_usb_snd_complete op submitted s.sx } := by
  obtain ⟨hsnd, hrcv, hctrl, hsending, hsubmit, hclear, hrunning⟩ := h
  by_cases hfree : s.sx.busy .RCV = none
  · have hcomplete : sx_usb_snd_complete op submitted s.sx =
        sx_release [.SND] { s.sx with snd_urb := none } := by
      rw [sx_usb_snd_complete]
      exact if_neg fun hc => hc.1 hfree
    rw [hcomplete]
    constructor <;> intro op' <;> grind [sx_release]
  · obtain ⟨hsub, hrcvu⟩ := hok hfree
    have hcomplete : sx_usb_snd_complete op submitted s.sx =
        { sx_release [.SND] { s.sx with snd_urb := none } with rcv_urb := some op } := by
      rw [sx_usb_snd_complete]
      simp only
      rw [if_pos ⟨hfree, hconn⟩, submit_rcv, if_pos ⟨hsub, hrcvu⟩]
    rw [hcomplete]
    constructor <;> intro op' <;> grind [sx_release]

/-- What is received changes no bit and no URB. -/
lemma receive_quiet (actual_length : ℕ) (sx : Device) :
    (receive actual_length sx).busy = sx.busy ∧ Quiet sx (receive actual_length sx) := by
  rw [receive]
  split
  · exact ⟨rfl, rfl, rfl, rfl⟩
  · exact ⟨rfl, rfl, rfl, rfl⟩

/-- The completion of the receive URB goes on with it, or clears `RCV`. -/
lemma held_rcv_complete {op : Op} {actual_length : ℕ} {submitted : Bool} (h : s.Held)
    (hurb : s.sx.rcv_urb = some op)
    (hok : (receive actual_length { s.sx with rcv_urb := none }).bytes_remaining ≠ 0 →
      submitted = true ∨ s.sx.busy .RCV ≠ some op) :
    Held { s with sx := sx_usb_rcv_complete op actual_length submitted s.sx } := by
  obtain ⟨hbusy, -, hsndu, hrcvu⟩ := receive_quiet actual_length { s.sx with rcv_urb := none }
  obtain ⟨hsnd, hrcv, hctrl, hsending, hsubmit, hclear, hrunning⟩ := h
  rw [sx_usb_rcv_complete]
  generalize receive actual_length { s.sx with rcv_urb := none } = sx' at *
  simp only at hbusy hsndu hrcvu ⊢
  by_cases hmore : sx'.bytes_remaining = 0
  · rw [if_neg (by simpa using hmore)]
    constructor <;> intro op' <;> grind [sx_release]
  · rw [if_pos hmore, submit_rcv]
    by_cases hsub : submitted = true
    · rw [if_pos ⟨hsub, hrcvu⟩]
      constructor <;> intro op' <;> grind
    · rw [if_neg fun hc => hsub hc.1]
      have hother := (hok hmore).resolve_left hsub
      constructor <;> intro op' <;> grind

lemma held_end_read (h : s.Held) : Held { s with sx := sx_end_read s.sx } := by
  obtain ⟨hsnd, hrcv, hctrl, hsending, hsubmit, hclear, hrunning⟩ := h
  constructor <;> intro op <;> grind [sx_end_read, sx_release]

/-- Opening the camera leaves bits and URBs as they are. -/
lemma open_quiet (op : Op) (sx : Device) : (sx_open op sx).busy = sx.busy ∧ Quiet sx (sx_open op sx) := by
  rw [sx_open]
  split
  · exact ⟨rfl, rfl, rfl, rfl⟩
  · rcases h : sx_acquire op [.SND, .RCV] sx with _ | sx₁
    · exact ⟨rfl, rfl, rfl, rfl⟩
    · obtain ⟨hfree, -, rfl⟩ := sx_acquire_eq_some h
      refine ⟨funext fun b => ?_, rfl, rfl, rfl⟩
      by_cases hb : b ∈ [Busy.SND, .RCV]
      · rw [hfree b hb]
        exact if_pos hb
      · exact (if_neg hb).trans (if_neg hb)

/-- So does closing it, as long as it stays connected. -/
lemma close_quiet (op : Op) (sx : Device) : (sx_close op sx).connected = false ∨
    (sx_close op sx).busy = sx.busy ∧ Quiet sx (sx_close op sx) := by
  rw [sx_close]
  rcases h : sx_open_acquire op [.SND, .RCV] sx with _ | sx₁
  · exact .inl rfl
  · obtain ⟨hfree, -, rfl⟩ := sx_open_acquire_eq_some h
    refine .inr ⟨funext fun b => ?_, rfl, rfl, rfl⟩
    by_cases hb : b ∈ [Busy.SND, .RCV]
    · rw [hfree b hb]
      exact if_pos hb
    · exact (if_neg hb).trans (if_neg hb)

lemma held_quiet {sx' : Device} (h : s.Held) (hbusy : sx'.busy = s.sx.busy) (hquiet : Quiet s.sx sx') :
    Held { s with sx := sx' } := by
  obtain ⟨-, hsndu, hrcvu⟩ := hquiet
  obtain ⟨hsnd, hrcv, hctrl, hsending, hsubmit, hclear, hrunning⟩ := h
  constructor <;> simp only [hbusy, hsndu, hrcvu] <;> assumption

/-- The completions and `sx_end_read` never connect a camera. -/
lemma connected_complete (op : Op) (submitted : Bool) (actual_length : ℕ) (sx : Device) :
    (sx_usb_snd_complete op submitted sx).connected = sx.connected ∧
      (sx_usb_rcv_complete op actual_length submitted sx).connected = sx.connected := by
  constructor
  · rw [sx_usb_snd_complete]
    simp only [submit_rcv]
    split
    · split <;> rfl
    · rfl
  · have hquiet := (receive_quiet actual_length { sx with rcv_urb := none }).2.connected
    rw [sx_usb_rcv_complete]
    simp only [submit_rcv]
    split
    · split <;> exact hquiet
    · exact hquiet

lemma connected_finish (op : Op) (o : Outcome) (sx : Device) (pending : Pending) :
    (pending.finish op o sx).connected = sx.connected := by
  rcases pending with _ | _ | _ | _
  · rw [Pending.finish, submit_snd]
    split <;> rfl
  · rw [Pending.finish, clear_pixels]
    split <;> rfl
  · rfl
  · rfl

/-- A step that succeeds keeps the bits with their operations. -/
lemma held_step {e : Event} {s' : Driver} (h : s.Inv) (hok : s.Succeeds e) (hstep : s.step e = some s')
    (hconn' : s'.sx.connected = true) : s'.Held := by
  rcases e with c | ⟨op, o⟩ | submitted | ⟨actual_length, submitted⟩ | _ | _ | _ | _
  · obtain rfl := Option.some.inj hstep
    have hconn : s.sx.connected = true := (start_call s.next s.sx c).1.connected.symm.trans hconn'
    exact held_call (h.held hconn) h.fresh (hok hconn)
  · obtain ⟨pending, hrun, rfl⟩ := Option.map_eq_some_iff.mp hstep
    have hconn : s.sx.connected = true := (connected_finish op o s.sx pending).symm.trans hconn'
    have hok := hok hconn
    simp only [hrun] at hok
    refine held_finish (h.held hconn) hrun ?_ ?_
    · rintro rfl
      exact hok
    · rintro rfl
      exact hok
  · obtain ⟨op, hurb, rfl⟩ := Option.map_eq_some_iff.mp hstep
    have hconn : s.sx.connected = true :=
      (connected_complete op submitted 0 s.sx).1.symm.trans hconn'
    exact held_snd_complete (h.held hconn) hconn hurb (hok hconn)
  · obtain ⟨op, hurb, rfl⟩ := Option.map_eq_some_iff.mp hstep
    have hconn : s.sx.connected = true :=
      (connected_complete op submitted actual_length s.sx).2.symm.trans hconn'
    have hok := hok hconn
    simp only [hurb] at hok
    exact held_rcv_complete (h.held hconn) hurb hok
  · obtain rfl := Option.some.inj hstep
    exact held_end_read (h.held hconn')
  · obtain rfl := Option.some.inj hstep
    obtain ⟨hbusy, hquiet⟩ := open_quiet s.next s.sx
    exact held_quiet (h.held (hquiet.connected.symm.trans hconn')) hbusy hquiet
  · obtain rfl := Option.some.inj hstep
    rcases close_quiet s.next s.sx with hgone | ⟨hbusy, hquiet⟩
    · exact absurd (hgone.symm.trans hconn') (by decide)
    · exact held_quiet (h.held (hquiet.connected.symm.trans hconn')) hbusy hquiet
  · obtain rfl := Option.some.inj hstep
    cases hconn'

/-- A device names an operation. -/
def Names (sx : Device) (op : Op) : Prop :=
  sx.snd_urb = some op ∨ sx.rcv_urb = some op ∨ ∃ b, sx.busy b = some op

lemma fresh_iff : s.Fresh ↔ ∀ op, s.next ≤ op → s.running op = none ∧ ¬ Names s.sx op := by
  constructor
  · intro h op hop
    obtain ⟨⟨hrun, hsnd, hrcv⟩, hbits⟩ := h op hop
    refine ⟨hrun, ?_⟩
    rintro (hu | hu | ⟨b, hb⟩)
    · exact hsnd hu
    · exact hrcv hu
    · exact hbits b hb
  · intro h op hop
    obtain ⟨hrun, hno⟩ := h op hop
    exact ⟨⟨hrun, fun hu => hno (.inl hu), fun hu => hno (.inr (.inl hu))⟩,
      fun b hb => hno (.inr (.inr ⟨b, hb⟩))⟩

lemma names_of_quiet {sx sx' : Device} {op : Op} (hquiet : Quiet sx sx')
    (hbusy : ∀ b, sx'.busy b = some op → sx.busy b = some op) (h : Names sx' op) : Names sx op := by
  rcases h with hu | hu | ⟨b, hb⟩
  · exact .inl (hquiet.snd_urb ▸ hu)
  · exact .inr (.inl (hquiet.rcv_urb ▸ hu))
  · exact .inr (.inr ⟨b, hbusy b hb⟩)

lemma grabs_of_start {op : Op} {sx sx' : Device} {pending : Option Pending}
    (h : Start op sx sx' pending) :
    sx'.busy = sx.busy ∨ ∃ bs, sx'.busy = grab op bs sx.busy := by
  rcases h with hbusy | ⟨-, hbusy⟩ | ⟨-, hbusy⟩ | ⟨-, hbusy⟩
  · exact .inl hbusy
  · exact .inr ⟨_, hbusy⟩
  · exact .inr ⟨_, hbusy⟩
  · exact .inr ⟨_, hbusy⟩

/-- A call names no operation but its own. -/
lemma names_call {c : Call} {op op' : Op} {sx : Device} (h : Names (c.start op sx).1 op')
    (hne : op' ≠ op) : Names sx op' := by
  obtain ⟨hquiet, hstart⟩ := start_call op sx c
  have hbusy : (c.start op sx).1.busy = sx.busy ∨ ∃ bs, (c.start op sx).1.busy = grab op bs sx.busy := by
    by_cases hempty : c.IsEmpty sx
    · exact .inr ⟨_, (start_empty op hempty).1⟩
    · exact grabs_of_start (hstart hempty)
  refine names_of_quiet hquiet (fun b hb => ?_) h
  rcases hbusy with hbusy | ⟨bs, hbusy⟩
  · rwa [hbusy] at hb
  · rw [hbusy, grab] at hb
    split at hb
    · exact absurd (Option.some.inj hb).symm hne
    · exact hb

lemma names_release {bs : List Busy} {op : Op} {sx : Device} (h : Names (sx_release bs sx) op) :
    Names sx op := by
  have hquiet : Quiet sx (sx_release bs sx) := ⟨rfl, rfl, rfl⟩
  refine names_of_quiet hquiet (fun b hb => ?_) h
  rw [sx_release] at hb
  simp only at hb
  split at hb
  · cases hb
  · exact hb

/-- The rest of an operation names no other. -/
lemma names_finish {pending : Pending} {op op' : Op} {o : Outcome} {sx : Device}
    (h : Names (pending.finish op o sx) op') : op' = op ∨ Names sx op' := by
  rcases pending with _ | _ | _ | _
  · rw [Pending.finish, submit_snd] at h
    split at h
    · rcases h with hu | hu | hb
      · exact .inl (Option.some.inj hu).symm
      · exact .inr (.inr (.inl hu))
      · exact .inr (.inr (.inr hb))
    · exact .inr h
  · rw [Pending.finish, clear_pixels] at h
    split at h
    · exact .inr (names_release h)
    · exact .inr h
  · exact .inr (names_release h)
  · exact .inr (names_release h)

lemma names_submit_rcv {op op' : Op} {submitted : Bool} {sx : Device}
    (h : Names (submit_rcv op submitted sx) op') : op' = op ∨ Names sx op' := by
  rw [submit_rcv] at h
  split at h
  · rcases h with hu | hu | hb
    · exact .inr (.inl hu)
    · exact .inl (Option.some.inj hu).symm
    · exact .inr (.inr (.inr hb))
  · exact .inr h

/-- Nor does a completion name another operation than the one it is for. -/
lemma names_complete {op op' : Op} {submitted : Bool} (actual_length : ℕ) {sx : Device} :
    (Names (sx_usb_snd_complete op submitted sx) op' → op' = op ∨ Names sx op') ∧
      (Names (sx_usb_rcv_complete op actual_length submitted sx) op' → op' = op ∨ Names sx op') := by
  have hsent : Names { sx with snd_urb := none } op' → Names sx op' := by
    rintro (hu | hu | hb)
    · cases hu
    · exact .inr (.inl hu)
    · exact .inr (.inr hb)
  have hreceived : Names { sx with rcv_urb := none } op' → Names sx op' := by
    rintro (hu | hu | hb)
    · exact .inl hu
    · cases hu
    · exact .inr (.inr hb)
  constructor
  · intro h
    rw [sx_usb_snd_complete] at h
    split at h
    · exact (names_submit_rcv h).imp_right fun h => hsent (names_release h)
    · exact .inr (hsent (names_release h))
  · intro h
    obtain ⟨hbusy, hquiet⟩ := receive_quiet actual_length { sx with rcv_urb := none }
    have hread : Names (receive actual_length { sx with rcv_urb := none }) op' → Names sx op' :=
      fun h => hreceived (names_of_quiet hquiet (fun b hb => hbusy ▸ hb) h)
    rw [sx_usb_rcv_complete] at h
    split at h
    · exact (names_submit_rcv h).imp_right hread
    · exact .inr (hread (names_release h))

/-- Closing the camera names nobody. -/
lemma names_close {op op' : Op} {sx : Device} (h : Names (sx_close op sx) op') : Names sx op' := by
  rw [sx_close] at h
  rcases hacq : sx_open_acquire op [.SND, .RCV] sx with _ | sx₁
  · rw [hacq] at h
    have h : Names { sx with connected := false, ccd_open := false } op' := names_release h
    exact h
  · obtain ⟨hbusy, hquiet⟩ : (sx_close op sx).busy = sx.busy ∧ Quiet sx (sx_close op sx) := by
      refine (close_quiet op sx).resolve_left fun hgone => ?_
      obtain ⟨-, hconn, rfl⟩ := sx_open_acquire_eq_some hacq
      rw [sx_close, hacq] at hgone
      exact absurd (hconn.symm.trans hgone) (by decide)
    rw [← sx_close] at h
    exact names_of_quiet hquiet (fun b hb => hbusy ▸ hb) h

/-- Operations to come stay so, but for the next one. -/
lemma fresh_step {e : Event} {s' : Driver} (h : s.Fresh) (hstep : s.step e = some s') : s'.Fresh := by
  rw [fresh_iff] at h ⊢
  have hpast : ∀ {op op'}, s.next ≤ op → (s.running op' ≠ none ∨ Names s.sx op') → op ≠ op' := by
    rintro op op' hop hnamed rfl
    obtain ⟨hrun, hno⟩ := h op hop
    exact hnamed.elim (fun hr => hr hrun) hno
  rcases e with c | ⟨op, o⟩ | submitted | ⟨actual_length, submitted⟩ | _ | _ | _ | _
  · obtain rfl := Option.some.inj hstep
    intro op' hop
    have hne : op' ≠ s.next := Nat.ne_of_gt (Nat.lt_of_succ_le hop)
    obtain ⟨hrun, hno⟩ := h op' (Nat.le_of_succ_le hop)
    exact ⟨(Function.update_of_ne hne _ _).trans hrun, fun hn => hno (names_call hn hne)⟩
  · obtain ⟨pending, hrun, rfl⟩ := Option.map_eq_some_iff.mp hstep
    intro op' hop
    have hne : op' ≠ op := hpast hop (.inl (by rw [hrun]; nofun))
    obtain ⟨hrun', hno⟩ := h op' hop
    exact ⟨(Function.update_of_ne hne _ _).trans hrun',
      fun hn => (names_finish hn).elim hne hno⟩
  · obtain ⟨op, hurb, rfl⟩ := Option.map_eq_some_iff.mp hstep
    intro op' hop
    obtain ⟨hrun', hno⟩ := h op' hop
    exact ⟨hrun', fun hn => ((names_complete 0).1 hn).elim (hpast hop (.inr (.inl hurb))) hno⟩
  · obtain ⟨op, hurb, rfl⟩ := Option.map_eq_some_iff.mp hstep
    intro op' hop
    obtain ⟨hrun', hno⟩ := h op' hop
    exact ⟨hrun', fun hn => ((names_complete actual_length).2 hn).elim (hpast hop (.inr (.inr (.inl hurb)))) hno⟩
  · obtain rfl := Option.some.inj hstep
    intro op' hop
    obtain ⟨hrun', hno⟩ := h op' hop
    refine ⟨hrun', fun hn => hno ?_⟩
    have hn : Names { s.sx with bytes_remaining := 0 } op' := names_release hn
    exact hn
  · obtain rfl := Option.some.inj hstep
    intro op' hop
    obtain ⟨hrun', hno⟩ := h op' hop
    obtain ⟨hbusy, hquiet⟩ := open_quiet s.next s.sx
    exact ⟨hrun', fun hn => hno (names_of_quiet hquiet (fun b hb => hbusy ▸ hb) hn)⟩
  · obtain rfl := Option.some.inj hstep
    intro op' hop
    obtain ⟨hrun', hno⟩ := h op' hop
    exact ⟨hrun', fun hn => hno (names_close hn)⟩
  · obtain rfl := Option.some.inj hstep
    exact h

/-- A step that does not succeed leaves a bit behind. -/
lemma not_cleared_step {e : Event} {s' : Driver} (h : s.Inv) (hconn : s.sx.connected = true)
    (hbad : ¬ s.Succeeds e) (hstep : s.step e = some s') : ¬ s'.Cleared := by
  have hheld := h.held hconn
  have hbad : ¬ _ := fun hok => hbad fun _ => hok
  rcases e with c | ⟨op, o⟩ | submitted | ⟨actual_length, submitted⟩ | _ | _ | _ | _
  · obtain rfl := Option.some.inj hstep
    have hempty : c.IsEmpty s.sx := not_not.mp hbad
    obtain ⟨⟨-, hsnd, hrcv⟩, -⟩ := h.fresh s.next le_rfl
    obtain ⟨hconn', hsnd', hrcv'⟩ := (start_call s.next s.sx c).1
    obtain ⟨hbusy, hnone⟩ := start_empty s.next hempty
    refine fun hcleared => hcleared (hconn'.trans hconn) s.next ⟨?_, ?_, ?_⟩ .CTRL ?_
    · exact (Function.update_self _ _ _).trans hnone
    · exact fun hu => hsnd (hsnd' ▸ hu)
    · exact fun hu => hrcv (hrcv' ▸ hu)
    · show (c.start s.next s.sx).1.busy .CTRL = some s.next
      rw [hbusy]
      rfl
  · obtain ⟨pending, hrun, rfl⟩ := Option.map_eq_some_iff.mp hstep
    obtain ⟨hsnd, hrcv⟩ := hheld.running op (by rw [hrun]; nofun)
    have hdone : Function.update s.running op none op = none := Function.update_self _ _ _
    simp only [hrun] at hbad
    rcases pending with _ | _ | _ | _
    · have hsame : Pending.submit.finish op o s.sx = s.sx := by
        rw [Pending.finish, submit_snd, if_neg fun hc => hbad hc.1]
      rw [hsame]
      exact fun hcleared => hcleared hconn op ⟨hdone, hsnd, hrcv⟩ .SND (hheld.submit op hrun).1
    · have hsame : Pending.clear.finish op o s.sx = s.sx := by
        rw [Pending.finish, clear_pixels, if_neg hbad]
      rw [hsame]
      exact fun hcleared => hcleared hconn op ⟨hdone, hsnd, hrcv⟩ .SND (hheld.clear op hrun)
    · exact absurd trivial hbad
    · exact absurd trivial hbad
  · obtain ⟨op, hurb, rfl⟩ := Option.map_eq_some_iff.mp hstep
    obtain ⟨hrun, -, hrcv, hother⟩ := hheld.sending op hurb
    have hset : s.sx.busy .RCV ≠ none := fun hfree => hbad fun hc => absurd hfree hc
    obtain ⟨op', hop'⟩ := Option.ne_none_iff_exists'.mp hset
    obtain rfl := hother op' hop'
    have hcomplete : sx_usb_snd_complete op' submitted s.sx =
        sx_release [.SND] { s.sx with snd_urb := none } := by
      rw [sx_usb_snd_complete, submit_rcv]
      exact (if_pos ⟨hset, hconn⟩).trans (if_neg fun hc => hbad fun _ => hc)
    rw [hcomplete]
    exact fun hcleared => hcleared hconn op' ⟨hrun, nofun, hrcv⟩ .RCV hop'
  · obtain ⟨op, hurb, rfl⟩ := Option.map_eq_some_iff.mp hstep
    have hrun : s.running op = none := by
      by_contra hr
      exact (hheld.running op hr).2 hurb
    have hsnd : s.sx.snd_urb ≠ some op := fun hu => (hheld.sending op hu).2.2.1 hurb
    obtain ⟨hmore, hbad⟩ := Classical.not_imp.mp hbad
    obtain ⟨hsub, hbit⟩ := not_or.mp hbad
    have hbit : s.sx.busy .RCV = some op := (not_not.mp hbit).trans hurb
    obtain ⟨hbusy, hquiet⟩ := receive_quiet actual_length { s.sx with rcv_urb := none }
    have hcomplete : sx_usb_rcv_complete op actual_length submitted s.sx =
        let sx := receive actual_length { s.sx with rcv_urb := none }
        { sx with transfer_buffer_length := min SX_BULK_READ_SIZE sx.bytes_remaining } := by
      rw [sx_usb_rcv_complete, submit_rcv]
      exact (if_pos hmore).trans (if_neg fun hc => hsub hc.1)
    rw [hcomplete]
    refine fun hcleared => hcleared (hquiet.connected.trans hconn) op ⟨hrun, ?_, ?_⟩ .RCV ?_
    · exact fun hu => hsnd (hquiet.snd_urb ▸ hu)
    · show (receive actual_length { s.sx with rcv_urb := none }).rcv_urb ≠ some op
      rw [hquiet.rcv_urb]
      nofun
    · show (receive actual_length { s.sx with rcv_urb := none }).busy .RCV = some op
      rw [hbusy]
      exact hbit
  all_goals exact absurd trivial hbad

lemma inv_step {e : Event} {s' : Driver} (h : s.Inv) (hok : s.Succeeds e)
    (hstep : s.step e = some s') : s'.Inv where
  fresh := fresh_step h.fresh hstep
  held := held_step h hok hstep

/-- Over any run of a probed camera whose calls succeed, every bit an operation set is
cleared once it is done, and the next step leaves a bit behind exactly if it does not
succeed. -/
theorem busy_bits_cleared (s₀ : Driver) (hprobed : s₀.Probed)
    (h : Reach step Succeeds s₀ s) :
    s.Cleared ∧ ∀ e s', s.step e = some s' → s.sx.connected = true → (s'.Cleared ↔ s.Succeeds e) := by
  have hinv : s.Inv :=
    h.induction_on (P := Inv) (inv_of_probed hprobed) fun _ _ _ hi hok hstep => inv_step hi hok hstep
  refine ⟨cleared_of_held hinv.held, fun e s' hstep hconn => ⟨fun hcleared => ?_, fun hok => ?_⟩⟩
  · by_contra hbad
    exact not_cleared_step hinv hconn hbad hstep hcleared
  · exact cleared_of_held (inv_step hinv hok hstep).held

/-- A camera of one byte a pixel, just probed. -/
def camera : Driver where
  sx :=
    { num := 0
      pixel_size := 1
      connected := true
      ccd_open := false
      busy := fun _ => none
      rcv_err := false
      frame := fun _ => ⟨0, 0, 0, 0, 0, 0, 0, 0, 0⟩
      bytes_rcved := 0
      read_offset := 0
      bytes_remaining := 0
      transfer_buffer_length := 0
      request := ⟨0, 0, 0, 0, 0, 0, 0, 0, 0, 0, 0, 0⟩
      snd_urb := none
      rcv_urb := none }
  running := fun _ => none
  next := 0

/-- A frame of two seconds, for which the pixels are cleared first. -/
def longFrame : Event := .call (.new_frame 0 0 8 8 1 1 2000 0)

lemma camera_probed : camera.Probed := ⟨fun _ => rfl, rfl, rfl, fun _ => rfl⟩

/-- The pixels are cleared, and `SND` with them. -/
theorem busy_bits_cleared_frame : ∃ s, replay step camera
    [.open, longFrame, .finish 0 ⟨true, true, []⟩] = some s ∧ s.Cleared := by
  refine ⟨_, rfl, (busy_bits_cleared camera camera_probed ?_).1⟩
  exact ((Reach.init.step (e := .open) (fun _ => trivial) rfl).step (e := longFrame)
    (fun _ => nofun) rfl).step (e := .finish 0 ⟨true, true, []⟩) (fun _ => rfl) rfl

/-- No memory is found for the message that clears the pixels: `SND` stays set, and the
next frame is refused. -/
theorem frame_refused_without_memory : ∃ s, replay step camera
      [.open, longFrame, .finish 0 ⟨false, true, []⟩] = some s ∧
    ¬ s.Cleared ∧ s.Done 0 ∧ (sx_new_frame 1 0 0 8 8 1 1 2000 0 s.sx).2.isNone := by
  refine ⟨_, rfl, fun hcleared => ?_, ⟨rfl, nofun, nofun⟩, rfl⟩
  exact hcleared rfl 0 ⟨rfl, nofun, nofun⟩ .SND rfl

end Driver

end EspLinux.SxUsb
