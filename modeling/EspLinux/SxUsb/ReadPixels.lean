import EspLinux.SxUsb.PixelBuf

/-!
# The USB camera driver: reading pixels

A reader waits until its pixels have been received, on kernels from 2.6 on in
`wait_event_interruptible`, whose result it does not look at.  Beside the driver a session
keeps which frame was prepared last, for which frame each byte of `pixel_buf` was
received, and the ranges of `pixel_buf` that were handed out since the frame was prepared.
-/

namespace EspLinux.SxUsb

open EspLinux.Lib

/-- Where a reader sleeps. -/
inductive Reading
  /-- In `wait_event_interruptible`. -/
  | waiting (bytes : ℕ)
  /-- In `usb_bulk_msg`, which resets the camera. -/
  | resetting (bytes : ℕ)

/-- What `sx_read_pixels` returns, as it points into `pixel_buf`, if it asks for more than
the frame has; else it goes on to its wait. -/
def beyond_end (bytes : ℕ) (sx : Device) : Option ℤ :=
  if trunc 32 (sx.read_offset + bytes) > trunc 32 (sx.bytes_rcved + sx.bytes_remaining) then some 0
  else none

/-- The condition of the wait. -/
def Arrived (bytes : ℕ) (sx : Device) : Prop :=
  trunc 32 (sx.read_offset + bytes) ≤ sx.bytes_rcved ∨ sx.connected = false

instance (bytes : ℕ) (sx : Device) : Decidable (Arrived bytes sx) :=
  inferInstanceAs (Decidable (_ ∨ _))

instance (sx : Device) (actual_length : ℕ) : Decidable (sx.Copies actual_length) :=
  inferInstanceAs (Decidable (_ ∧ _ ∧ _ ∧ _))

/-- The end of `sx_read_pixels`. -/
def advance (bytes : ℕ) (sx : Device) : Device × ℤ :=
  let sx := { sx with read_offset := trunc 32 (sx.read_offset + bytes) }
  (sx, sx.read_offset - bytes)

/-- A camera with at most one reader. -/
structure Session where
  driver : Driver
  reading : Option Reading
  /-- The operation that prepared a frame last. -/
  frame : Option Op
  /-- The operation for which a byte of `pixel_buf` was received. -/
  source : ℕ → Option Op
  /-- Where the ranges begin that were handed out for the frame, with their bytes; the last
  one comes first. -/
  given : List (ℤ × ℕ)

namespace Session

inductive Event
  | driver (e : SxUsb.Event)
  | read (bytes : ℕ)
  /-- The reader finds the condition of its wait. -/
  | wake (allocated : Bool)
  /-- The wait ends without it. -/
  | signal (allocated : Bool)
  /-- The camera has been reset. -/
  | reset

/-- `sx_read_row` of a little endian machine, which copies the pixels it reads. -/
def sx_read_row (width xbin : ℕ) (sx : Device) : Event :=
  .read (trunc 32 (width / xbin * sx.pixel_size))

/-- A call goes on to submit the URB of a frame it has prepared. -/
def submits : Option Pending → Bool
  | some .submit => true
  | _ => false

/-- What is kept beside the driver, in a step of it. -/
def record (s : Session) : SxUsb.Event → Session
  | .call c =>
    if submits (c.start s.driver.next s.driver.sx).2 then
      { s with frame := some s.driver.next, given := [] }
    else s
  | .rcv_complete actual_length _ =>
    let sx := s.driver.sx
    if sx.Copies actual_length then
      { s with source := fun pos =>
          if sx.bytes_rcved ≤ pos ∧ pos < sx.bytes_rcved + actual_length then sx.rcv_urb else s.source pos }
    else s
  | _ => s

/-- `sx_read_pixels` returns. -/
def hand_out (bytes : ℕ) (s : Session) : Session :=
  let (sx, pos) := advance bytes s.driver.sx
  { s with driver := { s.driver with sx }, reading := none, given := (pos, bytes) :: s.given }

/-- `sx_read_pixels` after its wait; without memory it returns `NULL`. -/
def resume (bytes : ℕ) (allocated : Bool) (s : Session) : Session :=
  if s.driver.sx.rcv_err then
    if allocated then { s with reading := some (.resetting bytes) } else { s with reading := none }
  else hand_out bytes s

def step (s : Session) : Event → Option Session
  | .driver e => (s.driver.step e).map fun driver => { s.record e with driver }
  | .read bytes =>
    match s.reading with
    | some _ => none
    | none =>
      match beyond_end bytes s.driver.sx with
      | some pos => some { s with given := (pos, bytes) :: s.given }
      | none => some { s with reading := some (.waiting bytes) }
  | .wake allocated =>
    match s.reading with
    | some (.waiting bytes) =>
      if Arrived bytes s.driver.sx then some (s.resume bytes allocated) else none
    | _ => none
  | .signal allocated =>
    match s.reading with
    | some (.waiting bytes) =>
      if Arrived bytes s.driver.sx then none else some (s.resume bytes allocated)
    | _ => none
  | .reset =>
    match s.reading with
    | some (.resetting bytes) =>
      some (hand_out bytes { s with driver.sx.rcv_err := false })
    | _ => none

/-! ## What is handed out -/

/-- Ranges that follow each other from the first byte to `stop`. -/
def Consecutive : ℤ → List (ℤ × ℕ) → Prop
  | stop, [] => stop = 0
  | stop, (pos, bytes) :: rs => pos + bytes = stop ∧ Consecutive pos rs

/-- The byte was received for the current frame. -/
def Current (s : Session) (pos : ℤ) : Prop :=
  ∃ (n : ℕ) (op : Op), pos = n ∧ s.frame = some op ∧ s.source n = some op

/-- On a connected camera only bytes of the current frame have been handed out for it, one
range after the other. -/
def Received (s : Session) : Prop :=
  s.driver.sx.connected = true →
    s.driver.sx.read_offset ≤ s.driver.sx.bytes_rcved ∧ Consecutive s.driver.sx.read_offset s.given ∧
      ∀ pos bytes, (pos, bytes) ∈ s.given → ∀ i : ℕ, i < bytes → s.Current (pos + i)

/-- As long as the camera is connected, requests are for bytes of the frame, no signal ends
a wait, no transfer of a frame comes short or late, and no frame is begun while the camera
is reset. -/
def Sound (s : Session) (e : Event) : Prop :=
  s.driver.sx.connected = true →
    match e with
    | .read bytes =>
      s.driver.sx.read_offset + bytes ≤ s.driver.sx.bytes_rcved + s.driver.sx.bytes_remaining
    | .signal _ => False
    | .driver (.rcv_complete actual_length _) => s.driver.sx.bytes_remaining ≠ 0 →
      actual_length = s.driver.sx.transfer_buffer_length ∧ s.driver.sx.rcv_urb = s.driver.sx.busy .RCV
    | .driver (.call c) => ∀ bytes, s.reading = some (.resetting bytes) →
      submits (c.start s.driver.next s.driver.sx).2 = false
    | _ => True

/-! ## The invariant -/

/-- What is known of the counters and the bytes of a connected camera. -/
structure Traced (s : Session) : Prop where
  /-- The bytes counted as received were received for the current frame. -/
  received : ∀ n < s.driver.sx.bytes_rcved, s.Current n
  /-- `RCV` is kept for the current frame, -/
  rcv : ∀ op, s.driver.sx.busy .RCV = some op → s.frame = some op
  /-- as long as there is more of it to come. -/
  more : s.driver.sx.bytes_remaining ≠ 0 → s.driver.sx.busy .RCV ≠ none
  offset : s.driver.sx.read_offset ≤ s.driver.sx.bytes_rcved
  given : Consecutive s.driver.sx.read_offset s.given
  /-- A reader that waits does so for bytes of the frame. -/
  waiting : ∀ bytes, s.reading = some (.waiting bytes) → s.driver.sx.read_offset + bytes < 2 ^ 32
  /-- What a reader waited for has been received when it resets the camera. -/
  resetting : ∀ bytes, s.reading = some (.resetting bytes) →
    s.driver.sx.read_offset + bytes ≤ s.driver.sx.bytes_rcved

/-- The counters are those of 32 bits in any case. -/
structure Inv (s : Session) : Prop where
  counted : Counted (2 ^ 32 - 1) s.driver.sx
  traced : s.driver.sx.connected = true → s.Traced

variable {s s' : Session}

/-- A frame takes at most as many bytes as 32 bits count. -/
lemma keeps_any (s : Driver) (e : SxUsb.Event) : s.Keeps (2 ^ 32 - 1) e := by
  have hbytes : ∀ w h x y, frame_bytes s.sx.pixel_size w h x y ≤ 2 ^ 32 - 1 :=
    fun _ _ _ _ => Nat.le_pred_of_lt (Nat.mod_lt _ (by decide))
  rcases e with c | _ | _ | _ | _ | _ | _ | _
  · rcases c with _ | ⟨_, _, width, height, xbin, ybin, _, _⟩ | _ | _ | _
    · trivial
    · exact hbytes width height xbin ybin
    all_goals trivial
  all_goals trivial

/-- Ranges that follow each other lie before the last one's end. -/
lemma Consecutive.bounds {stop : ℤ} {given : List (ℤ × ℕ)} (h : Consecutive stop given) :
    0 ≤ stop ∧ ∀ pos bytes, (pos, bytes) ∈ given → 0 ≤ pos ∧ pos + bytes ≤ stop := by
  induction given generalizing stop with
  | nil =>
    obtain rfl : stop = 0 := h
    exact ⟨le_rfl, nofun⟩
  | cons r rs ih =>
    obtain ⟨pos, bytes⟩ := r
    obtain ⟨rfl, hrs⟩ := h
    obtain ⟨hpos, hall⟩ := ih hrs
    refine ⟨by omega, ?_⟩
    intro pos' bytes' hmem
    rcases List.mem_cons.mp hmem with heq | hmem
    · obtain ⟨rfl, rfl⟩ := Prod.mk.injEq _ _ _ _ ▸ heq
      exact ⟨hpos, le_rfl⟩
    · obtain ⟨hpos', hend⟩ := hall pos' bytes' hmem
      exact ⟨hpos', by omega⟩

/-- What is handed out are bytes received. -/
lemma Traced.sound (h : s.Traced) : s.driver.sx.read_offset ≤ s.driver.sx.bytes_rcved ∧
    Consecutive s.driver.sx.read_offset s.given ∧
      ∀ pos bytes, (pos, bytes) ∈ s.given → ∀ i : ℕ, i < bytes → s.Current (pos + i) := by
  refine ⟨h.offset, h.given, ?_⟩
  intro pos bytes hmem i hi
  obtain ⟨hpos, hend⟩ := h.given.bounds.2 pos bytes hmem
  have hoffset := h.offset
  obtain ⟨n, hn⟩ : ∃ n : ℕ, pos + i = n := ⟨(pos + i).toNat, by omega⟩
  rw [hn]
  exact h.received n (by omega)

/-! ## Steps of the driver -/

/-- What the reader looks at stays as it is. -/
structure Aside (sx sx' : Device) : Prop where
  bytes_rcved : sx'.bytes_rcved = sx.bytes_rcved
  read_offset : sx'.read_offset = sx.read_offset
  bytes_remaining : sx'.bytes_remaining = sx.bytes_remaining
  rcv : sx'.busy .RCV = sx.busy .RCV

lemma aside_of_counters {sx sx' : Device} (hc : sx'.counters = sx.counters)
    (hrcv : sx'.busy .RCV = sx.busy .RCV) : Aside sx sx' := by
  simp only [Device.counters, Counters.mk.injEq] at hc
  obtain ⟨-, -, hb, ho, hr, -⟩ := hc
  exact ⟨hb, ho, hr, hrcv⟩

lemma Traced.aside (h : s.Traced) {driver : Driver} (ha : Aside s.driver.sx driver.sx) :
    Traced { s with driver } := by
  obtain ⟨hb, ho, hr, hrcv⟩ := ha
  obtain ⟨hreceived, hframe, hmore, hoffset, hgiven, hwaiting, hresetting⟩ := h
  constructor
  · intro n hn
    exact hreceived n (hb ▸ hn)
  · intro op hop
    exact hframe op (hrcv ▸ hop)
  · intro hm
    rw [hrcv]
    exact hmore (hr ▸ hm)
  · rwa [ho, hb]
  · rwa [ho]
  · intro bytes hw
    rw [ho]
    exact hwaiting bytes hw
  · intro bytes hw
    rw [ho, hb]
    exact hresetting bytes hw

lemma rcv_finish (pending : Pending) (op : Op) (o : Outcome) (sx : Device) :
    (pending.finish op o sx).busy .RCV = sx.busy .RCV := by
  rcases pending with _ | _ | _ | _
  · rw [Pending.finish, submit_snd]
    split <;> rfl
  · rw [Pending.finish, clear_pixels]
    split <;> rfl
  · rfl
  · rfl

lemma aside_snd_complete (op : Op) (submitted : Bool) (sx : Device) :
    Aside sx (sx_usb_snd_complete op submitted sx) := by
  rw [sx_usb_snd_complete]
  simp only [submit_rcv]
  split
  · split
    · exact ⟨rfl, rfl, rfl, rfl⟩
    · exact ⟨rfl, rfl, rfl, rfl⟩
  · exact ⟨rfl, rfl, rfl, rfl⟩

/-- A frame that is prepared has no bytes yet, and nothing of it is handed out. -/
lemma traced_prepared {driver : Driver} {op : Op} (hreading : ∀ bytes, s.reading ≠ some (.resetting bytes))
    (hwaiting : ∀ bytes, s.reading = some (.waiting bytes) → bytes < 2 ^ 32)
    (hb : driver.sx.bytes_rcved = 0) (ho : driver.sx.read_offset = 0)
    (hrcv : driver.sx.busy .RCV = some op) :
    Traced { s with driver, frame := some op, given := [] } where
  received := by
    intro n hn
    rw [hb] at hn
    exact absurd hn (Nat.not_lt_zero n)
  rcv := by
    intro op' hop
    exact hrcv.symm.trans hop
  more := by
    intro _
    rw [hrcv]
    nofun
  offset := by rw [hb, ho]
  given := by
    rw [ho]
    rfl
  waiting := by
    intro bytes hw
    rw [ho, Nat.zero_add]
    exact hwaiting bytes hw
  resetting := fun bytes hr => absurd hr (hreading bytes)

/-- A call leaves the bytes as they are, or begins a frame. -/
lemma traced_call {c : Call} (h : s.Traced) (hok : ∀ bytes, s.reading = some (.resetting bytes) →
      submits (c.start s.driver.next s.driver.sx).2 = false) {driver : Driver}
    (hdriver : driver.sx = (c.start s.driver.next s.driver.sx).1) :
    Traced { s.record (.call c) with driver } := by
  have hcounts := counts_call s.driver.next s.driver.sx c
  rw [← hdriver] at hcounts
  rw [record]
  generalize (c.start s.driver.next s.driver.sx).2 = pending at hcounts hok ⊢
  rcases hcounts with ⟨hno, hrcv, hc⟩ | ⟨flags, hrcv, hc⟩
  · have hkept : submits pending = false := by
      rcases pending with _ | _ | _ | _ | _
      · rfl
      · exact absurd rfl hno
      all_goals rfl
    rw [hkept, if_neg Bool.false_ne_true]
    simp only [Device.counters, Counters.mk.injEq] at hc
    obtain ⟨-, -, hb, ho, hr, -⟩ := hc
    exact h.aside ⟨hb, ho, hr, hrcv⟩
  · simp only [Device.counters, prepare, Counters.mk.injEq] at hc
    obtain ⟨-, -, hb, ho, -, -⟩ := hc
    refine traced_prepared (fun bytes hr => ?_) (fun bytes hw => ?_) hb ho hrcv
    · cases hok bytes hr
    · exact (Nat.le_add_left _ _).trans_lt (h.waiting bytes hw)

/-- The frame goes on, or `RCV` is free. -/
def Goes (sx sx' : Device) : Prop :=
  sx'.bytes_remaining ≠ 0 ∧ sx'.busy .RCV = sx.busy .RCV ∨ sx'.bytes_remaining = 0 ∧ sx'.busy .RCV = none

/-- A transfer that is copied is counted. -/
lemma complete_copied {sx : Device} {actual_length : ℕ} (op : Op) (submitted : Bool)
    (hcounted : Counted (2 ^ 32 - 1) sx) (hcopy : sx.Copies actual_length) :
    (sx_usb_rcv_complete op actual_length submitted sx).bytes_rcved = sx.bytes_rcved + actual_length ∧
      (sx_usb_rcv_complete op actual_length submitted sx).read_offset = sx.read_offset ∧
      Goes sx (sx_usb_rcv_complete op actual_length submitted sx) := by
  have hreceived := hcounted.received
  have hasked := hcounted.asked hcopy.2.1
  have hlen := hcopy.1
  have hcount : trunc 32 (sx.bytes_rcved + actual_length) = sx.bytes_rcved + actual_length :=
    Nat.mod_eq_of_lt (by omega)
  have hcopy : { sx with rcv_urb := none }.Copies actual_length := hcopy
  rw [sx_usb_rcv_complete, receive_of_copies hcopy]
  split
  · rename_i hmore
    rw [submit_rcv]
    split
    · exact ⟨hcount, rfl, .inl ⟨hmore, rfl⟩⟩
    · exact ⟨hcount, rfl, .inl ⟨hmore, rfl⟩⟩
  · rename_i hdone
    exact ⟨hcount, rfl, .inr ⟨not_not.mp hdone, rfl⟩⟩

/-- A transfer of no frame changes no count. -/
lemma complete_idle {sx : Device} {actual_length : ℕ} (op : Op) (submitted : Bool)
    (hcounted : Counted (2 ^ 32 - 1) sx) (hidle : sx.bytes_remaining = 0) :
    (sx_usb_rcv_complete op actual_length submitted sx).bytes_rcved = sx.bytes_rcved ∧
      (sx_usb_rcv_complete op actual_length submitted sx).read_offset = sx.read_offset ∧
      (sx_usb_rcv_complete op actual_length submitted sx).bytes_remaining = 0 ∧
      (sx_usb_rcv_complete op actual_length submitted sx).busy .RCV = none := by
  have hreceived := hcounted.received
  have hcount : trunc 32 (sx.bytes_rcved + sx.bytes_remaining) = sx.bytes_rcved := by
    rw [hidle]
    exact Nat.mod_eq_of_lt (by omega)
  have hno : ¬ { sx with rcv_urb := none }.Copies actual_length := fun hc => hc.2.1 hidle
  rw [sx_usb_rcv_complete, receive_of_not_copies hno]
  exact ⟨hcount, rfl, rfl, rfl⟩

lemma Goes.rcv {sx sx' : Device} (h : Goes sx sx') {op : Op} (hop : sx'.busy .RCV = some op) :
    sx.busy .RCV = some op := by
  rcases h with ⟨-, hrcv⟩ | ⟨-, hrcv⟩
  · exact hrcv.symm.trans hop
  · cases hrcv.symm.trans hop

lemma Goes.more {sx sx' : Device} (h : Goes sx sx') (hmore : sx'.bytes_remaining ≠ 0)
    (hrcv : sx.busy .RCV ≠ none) : sx'.busy .RCV ≠ none := by
  rcases h with ⟨-, hsame⟩ | ⟨hdone, -⟩
  · rwa [hsame]
  · exact absurd hdone hmore

/-- More bytes are received behind those there are. -/
lemma traced_longer {sx' : Device} {source : ℕ → Option Op} (h : s.Traced)
    (hbytes : s.driver.sx.bytes_rcved ≤ sx'.bytes_rcved)
    (ho : sx'.read_offset = s.driver.sx.read_offset)
    (hrcv : ∀ op, sx'.busy .RCV = some op → s.driver.sx.busy .RCV = some op)
    (hmore : sx'.bytes_remaining ≠ 0 → sx'.busy .RCV ≠ none)
    (hsource : ∀ n < sx'.bytes_rcved, Current { s with source } n) :
    Traced { s with driver := { s.driver with sx := sx' }, source } where
  received := hsource
  rcv := fun op hop => h.rcv op (hrcv op hop)
  more := hmore
  offset := ho.trans_le (h.offset.trans hbytes)
  given := by
    rw [ho]
    exact h.given
  waiting := by
    intro bytes hw
    rw [ho]
    exact h.waiting bytes hw
  resetting := by
    intro bytes hr
    rw [ho]
    exact (h.resetting bytes hr).trans hbytes

/-- What is received in time goes on with the frame. -/
lemma traced_rcv_complete {op : Op} {actual_length : ℕ} {submitted : Bool} (h : s.Traced)
    (hcounted : Counted (2 ^ 32 - 1) s.driver.sx) (hconn : s.driver.sx.connected = true)
    (hurb : s.driver.sx.rcv_urb = some op)
    (hok : s.driver.sx.bytes_remaining ≠ 0 →
      actual_length = s.driver.sx.transfer_buffer_length ∧ s.driver.sx.rcv_urb = s.driver.sx.busy .RCV) :
    Traced { s.record (.rcv_complete actual_length submitted) with
      driver := { s.driver with sx := sx_usb_rcv_complete op actual_length submitted s.driver.sx } } := by
  by_cases hidle : s.driver.sx.bytes_remaining = 0
  · have hno : ¬ s.driver.sx.Copies actual_length := fun hc => hc.2.1 hidle
    obtain ⟨hb, ho, hdone, hfree⟩ := complete_idle op submitted hcounted hidle
    rw [record, if_neg hno]
    refine traced_longer h hb.ge ho (fun _ hop => ?_) (fun hm => absurd hdone hm) (fun n hn => ?_)
    · cases hfree.symm.trans hop
    · exact h.received n (hb ▸ hn)
  · obtain ⟨hlen, hown⟩ := hok hidle
    have hbit := h.more hidle
    have hcopy : s.driver.sx.Copies actual_length := ⟨hlen, hidle, hbit, hconn⟩
    obtain ⟨hb, ho, hgoes⟩ := complete_copied op submitted hcounted hcopy
    have hframe : s.frame = some op := h.rcv op (hown.symm.trans hurb)
    rw [record]
    simp only
    rw [if_pos hcopy]
    refine traced_longer h (by omega) ho (fun _ hop => hgoes.rcv hop) (fun hm => hgoes.more hm hbit)
      (fun n hn => ?_)
    rw [hb] at hn
    by_cases hnew : s.driver.sx.bytes_rcved ≤ n
    · exact ⟨n, op, rfl, hframe, (if_pos ⟨hnew, hn⟩).trans hurb⟩
    · obtain ⟨m, op', hm, hframe', hsource⟩ := h.received n (not_le.mp hnew)
      obtain rfl : n = m := Int.ofNat_inj.mp hm
      exact ⟨n, op', rfl, hframe', (if_neg fun hc => hnew hc.1).trans hsource⟩

/-- The frame that is ended has no more to come. -/
lemma traced_end_read (h : s.Traced) :
    Traced { s with driver := { s.driver with sx := sx_end_read s.driver.sx } } where
  received := h.received
  rcv := fun _ hop => nomatch hop
  more := fun hm => absurd rfl hm
  offset := h.offset
  given := h.given
  waiting := h.waiting
  resetting := h.resetting

/-- A step of the driver connects no camera. -/
lemma connected_step {d d' : Driver} {e : SxUsb.Event} (hstep : d.step e = some d')
    (hconn : d'.sx.connected = true) : d.sx.connected = true := by
  rcases e with c | ⟨op, o⟩ | submitted | ⟨actual_length, submitted⟩ | _ | _ | _ | _
  · obtain rfl := Option.some.inj hstep
    exact (start_call d.next d.sx c).1.connected.symm.trans hconn
  · obtain ⟨pending, -, rfl⟩ := Option.map_eq_some_iff.mp hstep
    exact (Driver.connected_finish op o d.sx pending).symm.trans hconn
  · obtain ⟨op, -, rfl⟩ := Option.map_eq_some_iff.mp hstep
    exact (Driver.connected_complete op submitted 0 d.sx).1.symm.trans hconn
  · obtain ⟨op, -, rfl⟩ := Option.map_eq_some_iff.mp hstep
    exact (Driver.connected_complete op submitted actual_length d.sx).2.symm.trans hconn
  · obtain rfl := Option.some.inj hstep
    exact hconn
  · obtain rfl := Option.some.inj hstep
    exact (Driver.open_quiet d.next d.sx).2.connected.symm.trans hconn
  · obtain rfl := Option.some.inj hstep
    rcases Driver.close_quiet d.next d.sx with hgone | ⟨-, hquiet⟩
    · exact absurd (hgone.symm.trans hconn) Bool.false_ne_true
    · exact hquiet.connected.symm.trans hconn
  · obtain rfl := Option.some.inj hstep
    cases hconn

/-- A step of the driver keeps what is known of a camera that stays connected. -/
lemma traced_driver {e : SxUsb.Event} {driver : Driver} (h : s.Inv) (hok : s.Sound (.driver e))
    (hstep : s.driver.step e = some driver) (hconn' : driver.sx.connected = true) :
    Traced { s.record e with driver } := by
  have hconn := connected_step hstep hconn'
  have htraced := h.traced hconn
  have hok := hok hconn
  rcases e with c | ⟨op, o⟩ | submitted | ⟨actual_length, submitted⟩ | _ | _ | _ | _
  · obtain rfl := Option.some.inj hstep
    exact traced_call htraced hok rfl
  · obtain ⟨pending, -, rfl⟩ := Option.map_eq_some_iff.mp hstep
    exact htraced.aside (aside_of_counters (counters_finish pending op o s.driver.sx)
      (rcv_finish pending op o s.driver.sx))
  · obtain ⟨op, -, rfl⟩ := Option.map_eq_some_iff.mp hstep
    exact htraced.aside (aside_snd_complete op submitted s.driver.sx)
  · obtain ⟨op, hurb, rfl⟩ := Option.map_eq_some_iff.mp hstep
    exact traced_rcv_complete htraced h.counted hconn hurb hok
  · obtain rfl := Option.some.inj hstep
    exact traced_end_read htraced
  · obtain rfl := Option.some.inj hstep
    exact htraced.aside (aside_of_counters (counters_open s.driver.next s.driver.sx)
      (congrFun (Driver.open_quiet s.driver.next s.driver.sx).1 .RCV))
  · obtain rfl := Option.some.inj hstep
    rcases Driver.close_quiet s.driver.next s.driver.sx with hgone | ⟨hbusy, -⟩
    · exact absurd (hgone.symm.trans hconn') Bool.false_ne_true
    · exact htraced.aside (aside_of_counters (counters_close s.driver.next s.driver.sx) (congrFun hbusy .RCV))
  · obtain rfl := Option.some.inj hstep
    cases hconn'

/-! ## Steps of the reader -/

/-- Bytes that have been received are handed out behind those before. -/
lemma traced_hand_out {bytes : ℕ} (h : s.Traced) (hcounted : Counted (2 ^ 32 - 1) s.driver.sx)
    (hbytes : s.driver.sx.read_offset + bytes ≤ s.driver.sx.bytes_rcved) : Traced (hand_out bytes s) := by
  have hreceived := hcounted.received
  have hoffset : trunc 32 (s.driver.sx.read_offset + bytes) = s.driver.sx.read_offset + bytes :=
    Nat.mod_eq_of_lt (by omega)
  rw [hand_out, advance, hoffset]
  constructor
  · exact h.received
  · exact h.rcv
  · exact h.more
  · exact hbytes
  · have hpos : ((s.driver.sx.read_offset + bytes : ℕ) : ℤ) - bytes = s.driver.sx.read_offset := by omega
    simp only [hpos]
    refine ⟨?_, h.given⟩
    exact (Nat.cast_add _ _).symm
  · nofun
  · nofun

/-- After its wait a reader has the bytes it waited for. -/
lemma traced_resume {bytes : ℕ} {allocated : Bool} (h : s.Traced)
    (hcounted : Counted (2 ^ 32 - 1) s.driver.sx)
    (hbytes : s.driver.sx.read_offset + bytes ≤ s.driver.sx.bytes_rcved) :
    Traced (s.resume bytes allocated) := by
  obtain ⟨hreceived, hrcv, hmore, hoffset, hgiven, -, -⟩ := id h
  rw [resume]
  split
  · split
    · refine ⟨hreceived, hrcv, hmore, hoffset, hgiven, nofun, ?_⟩
      intro bytes' hr
      obtain rfl : bytes = bytes' := by
        simpa only [Option.some.injEq, Reading.resetting.injEq] using hr
      exact hbytes
    · exact ⟨hreceived, hrcv, hmore, hoffset, hgiven, nofun, nofun⟩
  · exact traced_hand_out h hcounted hbytes

lemma counted_resume {bytes : ℕ} {allocated : Bool} {B : ℕ} (h : Counted B s.driver.sx) :
    Counted B (s.resume bytes allocated).driver.sx := by
  rw [resume]
  split
  · split
    · exact h
    · exact h
  · exact ⟨h.frame, h.received, h.transfer, h.asked⟩

lemma connected_resume (bytes : ℕ) (allocated : Bool) (s : Session) :
    (s.resume bytes allocated).driver.sx.connected = s.driver.sx.connected := by
  rw [resume]
  split
  · split
    · rfl
    · rfl
  · rfl

/-- A reader that asks for bytes of the frame waits for them. -/
lemma inv_read {bytes : ℕ} (h : s.Inv) (hok : s.Sound (.read bytes)) (hstep : s.step (.read bytes) = some s') :
    s'.Inv := by
  have hreceived := h.counted.received
  simp only [step] at hstep
  split at hstep
  · cases hstep
  · rename_i hidle
    split at hstep
    · rename_i pos hend
      obtain rfl := Option.some.inj hstep
      refine ⟨h.counted, fun hconn => ?_⟩
      have hbytes := hok hconn
      -- the test for the end of the frame is made on sums of 32 bits
      have hno : ¬ trunc 32 (s.driver.sx.read_offset + bytes) >
          trunc 32 (s.driver.sx.bytes_rcved + s.driver.sx.bytes_remaining) := by
        simp only [trunc]
        omega
      rw [beyond_end, if_neg hno] at hend
      cases hend
    · obtain rfl := Option.some.inj hstep
      refine ⟨h.counted, fun hconn => ?_⟩
      obtain ⟨hrec, hrcv, hmore, hoffset, hgiven, -, -⟩ := h.traced hconn
      refine ⟨hrec, hrcv, hmore, hoffset, hgiven, ?_, fun pos hp => by cases hp⟩
      intro bytes' hw
      obtain rfl : bytes = bytes' := by
        simpa only [Option.some.injEq, Reading.waiting.injEq] using hw
      have hbytes : s.driver.sx.read_offset + bytes ≤
          s.driver.sx.bytes_rcved + s.driver.sx.bytes_remaining := hok hconn
      exact (hbytes.trans hreceived).trans_lt (by decide)

/-- The end of a wait finds the bytes received. -/
lemma inv_wake {allocated : Bool} (h : s.Inv) (hstep : s.step (.wake allocated) = some s') : s'.Inv := by
  simp only [step] at hstep
  split at hstep
  · rename_i bytes hwait
    split at hstep
    · rename_i harrived
      obtain rfl := Option.some.inj hstep
      refine ⟨counted_resume h.counted, fun hconn => ?_⟩
      rw [connected_resume] at hconn
      have htraced := h.traced hconn
      have hless := htraced.waiting bytes hwait
      have hbytes : trunc 32 (s.driver.sx.read_offset + bytes) ≤ s.driver.sx.bytes_rcved := by
        rcases harrived with hbytes | hgone
        · exact hbytes
        · exact absurd (hgone.symm.trans hconn) Bool.false_ne_true
      rw [trunc, Nat.mod_eq_of_lt hless] at hbytes
      exact traced_resume htraced h.counted hbytes
    · cases hstep
  · cases hstep

/-- A signal ends a wait only when the camera is gone. -/
lemma inv_signal {allocated : Bool} (h : s.Inv) (hok : s.Sound (.signal allocated))
    (hstep : s.step (.signal allocated) = some s') : s'.Inv := by
  simp only [step] at hstep
  split at hstep
  · split at hstep
    · cases hstep
    · obtain rfl := Option.some.inj hstep
      refine ⟨counted_resume h.counted, fun hconn => ?_⟩
      rw [connected_resume] at hconn
      exact absurd (hok hconn) id
  · cases hstep

/-- When the camera has been reset, what was waited for is handed out. -/
lemma inv_reset (h : s.Inv) (hstep : s.step .reset = some s') : s'.Inv := by
  simp only [step] at hstep
  split at hstep
  · rename_i bytes hreset
    obtain rfl := Option.some.inj hstep
    obtain ⟨hframe, hreceived, htransfer, hasked⟩ := h.counted
    refine ⟨⟨hframe, hreceived, htransfer, hasked⟩, fun hconn => ?_⟩
    have htraced := h.traced hconn
    have hbytes := htraced.resetting bytes hreset
    obtain ⟨hrec, hrcv, hmore, hoffset, hgiven, hwaiting, hresetting⟩ := htraced
    have hcleared : Traced { s with driver.sx.rcv_err := false } :=
      ⟨hrec, hrcv, hmore, hoffset, hgiven, hwaiting, hresetting⟩
    exact traced_hand_out hcleared ⟨hframe, hreceived, htransfer, hasked⟩ hbytes
  · cases hstep

lemma inv_step {e : Event} (h : s.Inv) (hok : s.Sound e) (hstep : s.step e = some s') : s'.Inv := by
  rcases e with e | bytes | allocated | allocated | _
  · obtain ⟨driver, hdriver, rfl⟩ := Option.map_eq_some_iff.mp hstep
    exact ⟨Driver.counted_step (by decide) h.counted (keeps_any s.driver e) hdriver,
      traced_driver h hok hdriver⟩
  · exact inv_read h hok hstep
  · exact inv_wake h hstep
  · exact inv_signal h hok hstep
  · exact inv_reset h hstep

/-- A camera before its first frame, that nobody reads. -/
structure Unread (c : Sensor) (s : Session) : Prop where
  driver : s.driver.Unread c
  busy : ∀ b, s.driver.sx.busy b = none
  read_offset : s.driver.sx.read_offset = 0
  reading : s.reading = none
  given : s.given = []

lemma Unread.inv {c : Sensor} (h : s.Unread c) : s.Inv where
  counted := h.driver.counted _
  traced := by
    intro _
    constructor
    · intro n hn
      rw [h.driver.bytes_rcved] at hn
      exact absurd hn (Nat.not_lt_zero n)
    · intro op hop
      cases (h.busy .RCV).symm.trans hop
    · intro hmore
      exact absurd h.driver.bytes_remaining hmore
    · rw [h.read_offset]
      exact Nat.zero_le _
    · rw [h.read_offset, h.given]
      rfl
    · intro bytes hw
      cases h.reading.symm.trans hw
    · intro bytes hr
      cases h.reading.symm.trans hr

/-- Over any run whose steps are sound, only bytes received for the current frame are
handed out while the camera is connected, one range after the other. -/
theorem only_received_pixels_handed_out (c : Sensor) (s₀ : Session) (hunread : s₀.Unread c)
    (h : Reach step Sound s₀ s) : s.Received := by
  have hinv : s.Inv :=
    h.induction_on (P := Inv) hunread.inv fun _ _ _ hi hok hstep => inv_step hi hok hstep
  exact fun hconn => (hinv.traced hconn).sound

def camera : Session := ⟨Driver.camera, none, none, fun _ => none, []⟩

lemma camera_unread : camera.Unread Driver.eight :=
  ⟨⟨rfl, fun _ => rfl, rfl, rfl, rfl⟩, fun _ => rfl, rfl, rfl, rfl⟩

/-- A test of a step that is sound if nobody reads while a call is made. -/
def checked (s : Session) : Event → Bool
  | .read bytes =>
    s.driver.sx.read_offset + bytes ≤ s.driver.sx.bytes_rcved + s.driver.sx.bytes_remaining
  | .signal _ => false
  | .driver (.rcv_complete actual_length _) =>
    actual_length = s.driver.sx.transfer_buffer_length ∧ s.driver.sx.rcv_urb = s.driver.sx.busy .RCV
  | .driver (.call _) => s.reading.isNone
  | _ => true

lemma sound_of_checked {e : Event} (h : s.checked e = true) : s.Sound e := by
  intro _
  rcases e with e | bytes | allocated | allocated | _
  · rcases e with c | _ | _ | ⟨actual_length, submitted⟩ | _ | _ | _ | _
    · intro bytes hreading
      have hnone : s.reading.isNone = true := h
      rw [hreading] at hnone
      cases hnone
    · trivial
    · trivial
    · exact fun _ => of_decide_eq_true h
    all_goals trivial
  · exact of_decide_eq_true h
  · trivial
  · cases h
  · trivial

/-- A frame has been asked for, and a reader waits for its first row. -/
def waitingRow : List Event :=
  [.driver .open, .driver Driver.fullFrame, .driver (.finish 0 ⟨true, true, []⟩),
    .driver (.snd_complete true), sx_read_row 8 1 Driver.camera.sx]

/-- The row is received and handed out. -/
theorem only_received_pixels_handed_out_row :
    ∃ s, replay step camera (waitingRow ++ [.driver (.rcv_complete 64 true), .wake true]) = some s ∧
      s.given = [(0, 8)] ∧ s.Received := by
  refine ⟨_, rfl, rfl, only_received_pixels_handed_out Driver.eight camera camera_unread ?_⟩
  have hrun : replay (fun s e => if s.checked e then s.step e else none) camera
      (waitingRow ++ [.driver (.rcv_complete 64 true), .wake true]) = some _ := rfl
  exact Reach.of_checked (fun _ _ => sound_of_checked) .init hrun

/-- A signal ends the wait before anything is received: the row is handed out all the
same. -/
theorem signal_hands_out_nothing_received :
    ∃ s, replay step camera (waitingRow ++ [.signal true]) = some s ∧ s.driver.sx.connected = true ∧
      s.given = [(0, 8)] ∧ s.driver.sx.bytes_rcved = 0 ∧ s.source 0 = none ∧ ¬ s.Received := by
  refine ⟨_, rfl, rfl, rfl, rfl, rfl, fun hreceived => ?_⟩
  exact absurd (hreceived rfl).1 (by decide)

end Session

end EspLinux.SxUsb
