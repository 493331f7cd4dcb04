import EspLinux.SxUsb.Busy
import EspLinux.Ccd.Reads

/-!
# The USB camera driver: the pixel buffer

The bytes still to be received are counted when a frame is prepared, and each completion
copies as many bytes behind those received before.  The counts stay within any bound that
the bytes of every frame keep to, whichever order frames, completions and `sx_end_read`
come in.  The buffer itself has room for `width * height * pixel_size` bytes as a product
of 32 bits, which is less than the sensor's pixels take from `2 ^ 32` bytes on.
-/

namespace EspLinux.SxUsb

open EspLinux.Lib

/-- A size of the sensor, in two bytes. -/
def size (lo hi : UInt8) : ℕ := lo.toNat ||| hi.toNat <<< 8

lemma size_lt (lo hi : UInt8) : size lo hi < 2 ^ 16 := by
  have hlo : lo.toNat < 2 ^ 16 := lo.toNat_lt.trans (by decide)
  exact Nat.or_lt_two_pow hlo (Nat.shiftLeft_lt hi.toNat_lt)

/-- The sensor, as the camera describes it to `sx_usb_probe`. -/
structure Sensor where
  width : ℕ
  height : ℕ
  pixel_size : ℕ
  width_lt : width < 2 ^ 16
  height_lt : height < 2 ^ 16
  pixel_size_lt : pixel_size < 2 ^ 5

namespace Sensor

/-- The answer to `SX_USB_GET_CCD`. -/
def ofSetup (setup_data : ℕ → UInt8) : Sensor where
  width := size (setup_data 2) (setup_data 3)
  height := size (setup_data 6) (setup_data 7)
  pixel_size := (setup_data 14).toNat >>> 3
  width_lt := size_lt _ _
  height_lt := size_lt _ _
  pixel_size_lt := by
    rw [Nat.shiftRight_eq_div_pow]
    exact Nat.div_lt_of_lt_mul (setup_data 14).toNat_lt

/-- The bytes of a frame of all pixels. -/
def bytes (c : Sensor) : ℕ := c.width * c.height * c.pixel_size

/-- The bytes allocated for `pixel_buf`. -/
def pixel_buf (c : Sensor) : ℕ := trunc 32 c.bytes

end Sensor

/-! ## The counters -/

/-- The counters of a frame, and what they are set from. -/
structure Counters where
  pixel_size : ℕ
  frame : Bool → Frame
  bytes_rcved : ℕ
  read_offset : ℕ
  bytes_remaining : ℕ
  transfer_buffer_length : ℕ

def Device.counters (sx : Device) : Counters :=
  ⟨sx.pixel_size, sx.frame, sx.bytes_rcved, sx.read_offset, sx.bytes_remaining,
    sx.transfer_buffer_length⟩

/-- The bytes of a frame, as `prepare` counts them. -/
def Frame.bytes (f : Frame) : ℕ := trunc 32 (f.row_size * f.row_count)

/-- The frame that `sx_new_frame` stores takes so many bytes. -/
def frame_bytes (pixel_size width height xbin ybin : ℕ) : ℕ :=
  trunc 32 (trunc 32 (width / xbin * pixel_size) * (height / ybin))

/-- What a call does to the counters until it has set its bits: nothing, or it prepares a
frame and goes on to submit a URB. -/
inductive Counts (op : Op) (sx sx' : Device) : Option Pending → Prop
  | kept {pending : Option Pending} (nosubmit : pending ≠ some .submit)
      (rcv : sx'.busy .RCV = sx.busy .RCV)
      (counters : sx'.counters = { sx with frame := sx'.frame }.counters) : Counts op sx sx' pending
  | prepared (flags : ℕ) (rcv : sx'.busy .RCV = some op)
      (counters : sx'.counters = (prepare flags { sx with frame := sx'.frame }).counters) :
      Counts op sx sx' (some .submit)

variable {op : Op} {sx sx' : Device}

lemma counts_latch_frame (flags : ℕ) :
    (sx_latch_frame op flags sx).1.frame = sx.frame ∧
      Counts op sx (sx_latch_frame op flags sx).1 (sx_latch_frame op flags sx).2 := by
  rw [sx_latch_frame]
  simp only
  split
  · rcases h : sx_open_acquire op [.SND, .RCV] sx with _ | sx₁
    · exact ⟨rfl, .kept (by simp) rfl rfl⟩
    · obtain ⟨-, -, rfl⟩ := sx_open_acquire_eq_some h
      exact ⟨rfl, .prepared flags rfl rfl⟩
  · exact ⟨rfl, .kept (by simp) rfl rfl⟩

/-- A new frame is stored in any case. -/
lemma counts_new_frame (op : Op) (sx : Device) (xoffset yoffset width height xbin ybin msec flags : ℕ) :
    (∀ field, (sx_new_frame op xoffset yoffset width height xbin ybin msec flags sx).1.frame field =
        sx.frame field ∨
      ((sx_new_frame op xoffset yoffset width height xbin ybin msec flags sx).1.frame field).bytes =
        frame_bytes sx.pixel_size width height xbin ybin) ∧
      Counts op sx (sx_new_frame op xoffset yoffset width height xbin ybin msec flags sx).1
        (sx_new_frame op xoffset yoffset width height xbin ybin msec flags sx).2 := by
  rw [sx_new_frame]
  simp only
  generalize hf : (⟨xoffset, yoffset, width, height, xbin, ybin, msec, _, _⟩ : Frame) = f
  have hbytes : f.bytes = frame_bytes sx.pixel_size width height xbin ybin := by
    rw [← hf]
    rfl
  have hstored : ∀ field, Function.update sx.frame (odd flags) f field = sx.frame field ∨
      (Function.update sx.frame (odd flags) f field).bytes =
        frame_bytes sx.pixel_size width height xbin ybin := by
    intro field
    by_cases hfield : field = odd flags
    · rw [hfield, Function.update_self]
      exact .inr hbytes
    · rw [Function.update_of_ne hfield]
      exact .inl rfl
  split
  · rcases h : sx_open_acquire op [.SND, .RCV] _ with _ | sx₁
    · exact ⟨hstored, .kept (by simp) rfl rfl⟩
    · obtain ⟨-, -, rfl⟩ := sx_open_acquire_eq_some h
      exact ⟨hstored, .prepared flags rfl rfl⟩
  · split
    · rcases h : sx_open_acquire op [.SND] _ with _ | sx₁
      · exact ⟨hstored, .kept (by simp) rfl rfl⟩
      · obtain ⟨-, -, rfl⟩ := sx_open_acquire_eq_some h
        exact ⟨hstored, .kept (by simp) rfl rfl⟩
    · exact ⟨hstored, .kept (by simp) rfl rfl⟩

/-- The operations that set `CTRL`. -/
def Call.OnCtrl : Call → Prop
  | .latch_frame _ => False
  | .new_frame .. => False
  | _ => True

/-- They count nothing. -/
lemma counts_ctrl {c : Call} (h : c.OnCtrl) :
    (c.start op sx).1.frame = sx.frame ∧ Counts op sx (c.start op sx).1 (c.start op sx).2 := by
  rcases c with flags | ⟨xoffset, yoffset, width, height, xbin, ybin, msec, flags⟩ | ⟨port, count⟩ | _ | _
  · cases h
  · cases h
  · rw [Call.start, sx_tty_write]
    rcases hacq : sx_acquire op [.CTRL] sx with _ | sx₁
    · exact ⟨rfl, .kept (by simp) rfl rfl⟩
    · obtain ⟨-, -, rfl⟩ := sx_acquire_eq_some hacq
      simp only
      split
      · exact ⟨rfl, .kept (by simp) rfl rfl⟩
      · exact ⟨rfl, .kept (by simp) rfl rfl⟩
  · rw [Call.start, sx_control]
    rcases hacq : sx_open_acquire op [.CTRL] sx with _ | sx₁
    · exact ⟨rfl, .kept (by simp) rfl rfl⟩
    · obtain ⟨-, -, rfl⟩ := sx_open_acquire_eq_some hacq
      exact ⟨rfl, .kept (by simp) rfl rfl⟩
  · rw [Call.start, sx_tty_check_input]
    split
    · rcases hacq : sx_acquire op [.CTRL] sx with _ | sx₁
      · exact ⟨rfl, .kept (by simp) rfl rfl⟩
      · obtain ⟨-, -, rfl⟩ := sx_acquire_eq_some hacq
        exact ⟨rfl, .kept (by simp) rfl rfl⟩
    · exact ⟨rfl, .kept (by simp) rfl rfl⟩

lemma counts_call (op : Op) (sx : Device) (c : Call) :
    Counts op sx (c.start op sx).1 (c.start op sx).2 := by
  rcases c with flags | ⟨xoffset, yoffset, width, height, xbin, ybin, msec, flags⟩ | ⟨port, count⟩ | _ | _
  · exact (counts_latch_frame flags).2
  · exact (counts_new_frame op sx xoffset yoffset width height xbin ybin msec flags).2
  · exact (counts_ctrl (c := .tty_write port count) trivial).2
  · exact (counts_ctrl (c := .control) trivial).2
  · exact (counts_ctrl (c := .tty_check_input) trivial).2

/-- A call stores no frame but a new one. -/
lemma frame_call (op : Op) (sx : Device) (c : Call) (field : Bool) :
    (c.start op sx).1.frame field = sx.frame field ∨
      ∃ xoffset yoffset width height xbin ybin msec flags,
        c = .new_frame xoffset yoffset width height xbin ybin msec flags ∧
          ((c.start op sx).1.frame field).bytes = frame_bytes sx.pixel_size width height xbin ybin := by
  rcases c with flags | ⟨xoffset, yoffset, width, height, xbin, ybin, msec, flags⟩ | ⟨port, count⟩ | _ | _
  · exact .inl (congrFun (counts_latch_frame flags).1 field)
  · refine ((counts_new_frame op sx xoffset yoffset width height xbin ybin msec flags).1 field).imp_right ?_
    intro h
    exact ⟨xoffset, yoffset, width, height, xbin, ybin, msec, flags, rfl, h⟩
  · exact .inl (congrFun (counts_ctrl (c := .tty_write port count) trivial).1 field)
  · exact .inl (congrFun (counts_ctrl (c := .control) trivial).1 field)
  · exact .inl (congrFun (counts_ctrl (c := .tty_check_input) trivial).1 field)

/-! ## The bound -/

/-- The counters keep to `B` bytes, and no transfer asks for more than is still to come. -/
structure Counted (B : ℕ) (sx : Device) : Prop where
  frame : ∀ field, (sx.frame field).bytes ≤ B
  received : sx.bytes_rcved + sx.bytes_remaining ≤ B
  transfer : sx.transfer_buffer_length ≤ SX_BULK_READ_SIZE
  asked : sx.bytes_remaining ≠ 0 → sx.transfer_buffer_length ≤ sx.bytes_remaining

variable {B : ℕ}

namespace Counted

lemma congr (h : Counted B sx) (hc : sx'.counters = sx.counters) : Counted B sx' := by
  obtain ⟨hframe, hreceived, htransfer, hasked⟩ := h
  simp only [Device.counters, Counters.mk.injEq] at hc
  obtain ⟨-, hf, hb, -, hr, ht⟩ := hc
  constructor
  · rwa [hf]
  · rwa [hb, hr]
  · rwa [ht]
  · rwa [hr, ht]

lemma setFrame (h : Counted B sx) {frame : Bool → Frame} (hframe : ∀ field, (frame field).bytes ≤ B) :
    Counted B { sx with frame } := ⟨hframe, h.received, h.transfer, h.asked⟩

/-- The counts of a frame that is prepared are its own. -/
lemma prepare (h : Counted B sx) (flags : ℕ) : Counted B (prepare flags sx) where
  frame := h.frame
  received := (Nat.zero_add _).trans_le (h.frame (odd flags))
  transfer := Nat.min_le_left _ _
  asked := fun _ => Nat.min_le_right _ _

/-- A call keeps to the bound if the frames it stores do. -/
lemma call {c : Call} (h : Counted B sx) (hframe : ∀ field, ((c.start op sx).1.frame field).bytes ≤ B) :
    Counted B (c.start op sx).1 := by
  have hstored := h.setFrame hframe
  have hcounts := counts_call op sx c
  generalize (c.start op sx).2 = pending at hcounts
  rcases hcounts with ⟨-, -, hc⟩ | ⟨flags, -, hc⟩
  · exact hstored.congr hc
  · exact (hstored.prepare flags).congr hc

/-- What is received is no longer to come. -/
lemma receive (h : Counted B sx) (hB : B < 2 ^ 32) (actual_length : ℕ) :
    (receive actual_length sx).bytes_rcved + (receive actual_length sx).bytes_remaining =
      sx.bytes_rcved + sx.bytes_remaining := by
  have hreceived := h.received
  have hasked := h.asked
  rw [SxUsb.receive]
  split
  · rename_i hcopy
    obtain ⟨rfl, hmore, -⟩ := hcopy
    have hasked := hasked hmore
    show trunc 32 _ + trunc 32 _ = _
    simp only [trunc]
    omega
  · show trunc 32 _ + 0 = _
    simp only [trunc]
    omega

lemma receive_frame (actual_length : ℕ) (sx : Device) :
    (SxUsb.receive actual_length sx).frame = sx.frame ∧
      (SxUsb.receive actual_length sx).transfer_buffer_length = sx.transfer_buffer_length := by
  rw [SxUsb.receive]
  split
  · exact ⟨rfl, rfl⟩
  · exact ⟨rfl, rfl⟩

lemma submit_rcv (h : Counted B sx) (submitted : Bool) : Counted B (submit_rcv op submitted sx) := by
  rw [SxUsb.submit_rcv]
  split
  · exact h.congr rfl
  · exact h

lemma sx_usb_rcv_complete (h : Counted B sx) (hB : B < 2 ^ 32) (actual_length : ℕ) (submitted : Bool) :
    Counted B (sx_usb_rcv_complete op actual_length submitted sx) := by
  have hidle : Counted B { sx with rcv_urb := none } := h.congr rfl
  have hsum := hidle.receive hB actual_length
  obtain ⟨hframe, htransfer⟩ := receive_frame actual_length { sx with rcv_urb := none }
  rw [SxUsb.sx_usb_rcv_complete]
  generalize SxUsb.receive actual_length { sx with rcv_urb := none } = sx₁ at hsum hframe htransfer
  have hframe : ∀ field, (sx₁.frame field).bytes ≤ B := hframe ▸ h.frame
  have hreceived : sx₁.bytes_rcved + sx₁.bytes_remaining ≤ B := hsum ▸ h.received
  split
  · refine submit_rcv ?_ submitted
    exact ⟨hframe, hreceived, Nat.min_le_left _ _, fun _ => Nat.min_le_right _ _⟩
  · rename_i hdone
    exact ⟨hframe, hreceived, htransfer.trans_le h.transfer, fun hmore => absurd hmore hdone⟩

lemma sx_usb_snd_complete (h : Counted B sx) (submitted : Bool) :
    Counted B (sx_usb_snd_complete op submitted sx) := by
  have hsent : Counted B (sx_release [.SND] { sx with snd_urb := none }) := h.congr rfl
  rw [SxUsb.sx_usb_snd_complete]
  split
  · exact hsent.submit_rcv submitted
  · exact hsent

/-- A frame that is ended has nothing to come. -/
lemma sx_end_read (h : Counted B sx) : Counted B (sx_end_read sx) where
  frame := h.frame
  received := (Nat.le_add_right _ _).trans h.received
  transfer := h.transfer
  asked := fun hmore => absurd rfl hmore

end Counted

lemma counters_finish (pending : Pending) (op : Op) (o : Outcome) (sx : Device) :
    (pending.finish op o sx).counters = sx.counters := by
  rcases pending with _ | _ | _ | _
  · rw [Pending.finish, submit_snd]
    split <;> rfl
  · rw [Pending.finish, clear_pixels]
    split <;> rfl
  · rfl
  · rfl

lemma counters_open (op : Op) (sx : Device) : (sx_open op sx).counters = sx.counters := by
  rw [sx_open]
  split
  · rfl
  · rcases h : sx_acquire op [.SND, .RCV] sx with _ | sx₁
    · rfl
    · obtain ⟨-, -, rfl⟩ := sx_acquire_eq_some h
      rfl

lemma counters_close (op : Op) (sx : Device) : (sx_close op sx).counters = sx.counters := by
  rw [sx_close]
  rcases h : sx_open_acquire op [.SND, .RCV] sx with _ | sx₁
  · rfl
  · obtain ⟨-, -, rfl⟩ := sx_open_acquire_eq_some h
    rfl

/-- The test of `sx_usb_rcv_complete` before it copies what was received. -/
def Device.Copies (sx : Device) (actual_length : ℕ) : Prop :=
  actual_length = sx.transfer_buffer_length ∧ sx.bytes_remaining ≠ 0 ∧ sx.busy .RCV ≠ none ∧
    sx.connected

lemma receive_of_copies {actual_length : ℕ} (h : sx.Copies actual_length) :
    receive actual_length sx =
      { sx with
        bytes_rcved := trunc 32 (sx.bytes_rcved + actual_length)
        bytes_remaining := trunc 32 (sx.bytes_remaining + 2 ^ 32 - actual_length) } := if_pos h

lemma receive_of_not_copies {actual_length : ℕ} (h : ¬ sx.Copies actual_length) :
    receive actual_length sx =
      { sx with
        bytes_rcved := trunc 32 (sx.bytes_rcved + sx.bytes_remaining)
        bytes_remaining := 0
        rcv_err := sx.rcv_err || sx.transfer_buffer_length ≠ actual_length } := if_neg h

namespace Driver

variable {s s' : Driver} {e : Event}

/-- The frame of a call keeps to the bound. -/
def Keeps (B : ℕ) (s : Driver) : Event → Prop
  | .call (.new_frame _ _ width height xbin ybin _ _) =>
    frame_bytes s.sx.pixel_size width height xbin ybin ≤ B
  | _ => True

/-- Each step keeps the counters to the bound that the frames keep to. -/
lemma counted_step (hB : B < 2 ^ 32) (h : Counted B s.sx) (hok : s.Keeps B e)
    (hstep : s.step e = some s') : Counted B s'.sx := by
  rcases e with c | ⟨op, o⟩ | submitted | ⟨actual_length, submitted⟩ | _ | _ | _ | _
  · obtain rfl := Option.some.inj hstep
    refine h.call fun field => ?_
    rcases frame_call s.next s.sx c field with hf | ⟨_, _, _, _, _, _, _, _, rfl, hf⟩
    · rw [hf]
      exact h.frame field
    · exact hf.trans_le hok
  · obtain ⟨pending, -, rfl⟩ := Option.map_eq_some_iff.mp hstep
    exact h.congr (counters_finish pending op o s.sx)
  · obtain ⟨op, -, rfl⟩ := Option.map_eq_some_iff.mp hstep
    exact h.sx_usb_snd_complete submitted
  · obtain ⟨op, -, rfl⟩ := Option.map_eq_some_iff.mp hstep
    exact h.sx_usb_rcv_complete hB actual_length submitted
  · obtain rfl := Option.some.inj hstep
    exact h.sx_end_read
  · obtain rfl := Option.some.inj hstep
    exact h.congr (counters_open s.next s.sx)
  · obtain rfl := Option.some.inj hstep
    exact h.congr (counters_close s.next s.sx)
  · obtain rfl := Option.some.inj hstep
    exact h.congr rfl

lemma pixel_size_step (hstep : s.step e = some s') : s'.sx.pixel_size = s.sx.pixel_size := by
  rcases e with c | ⟨op, o⟩ | submitted | ⟨actual_length, submitted⟩ | _ | _ | _ | _
  · obtain rfl := Option.some.inj hstep
    have hcounts := counts_call s.next s.sx c
    generalize (c.start s.next s.sx).2 = pending at hcounts
    rcases hcounts with ⟨-, -, hc⟩ | ⟨flags, -, hc⟩
    · exact congrArg Counters.pixel_size hc
    · exact congrArg Counters.pixel_size hc
  · obtain ⟨pending, -, rfl⟩ := Option.map_eq_some_iff.mp hstep
    exact congrArg Counters.pixel_size (counters_finish pending op o s.sx)
  · obtain ⟨op, -, rfl⟩ := Option.map_eq_some_iff.mp hstep
    simp only [sx_usb_snd_complete, submit_rcv]
    split
    · split <;> rfl
    · rfl
  · obtain ⟨op, -, rfl⟩ := Option.map_eq_some_iff.mp hstep
    simp only [sx_usb_rcv_complete, submit_rcv, receive]
    split_ifs <;> rfl
  · obtain rfl := Option.some.inj hstep
    rfl
  · obtain rfl := Option.some.inj hstep
    exact congrArg Counters.pixel_size (counters_open s.next s.sx)
  · obtain rfl := Option.some.inj hstep
    exact congrArg Counters.pixel_size (counters_close s.next s.sx)
  · obtain rfl := Option.some.inj hstep
    rfl

/-- A camera with this sensor before its first frame. -/
structure Unread (c : Sensor) (s : Driver) : Prop where
  pixel_size : s.sx.pixel_size = c.pixel_size
  frame : ∀ field, (s.sx.frame field).bytes = 0
  bytes_rcved : s.sx.bytes_rcved = 0
  bytes_remaining : s.sx.bytes_remaining = 0
  transfer_buffer_length : s.sx.transfer_buffer_length = 0

lemma Unread.counted {c : Sensor} (h : s.Unread c) (B : ℕ) : Counted B s.sx := by
  obtain ⟨-, hframe, hrcved, hremaining, htransfer⟩ := h
  constructor
  · intro field
    rw [hframe]
    exact Nat.zero_le B
  · rw [hrcved, hremaining]
    exact Nat.zero_le B
  · rw [htransfer]
    exact Nat.zero_le _
  · intro hmore
    exact absurd hremaining hmore

/-- The counts are within the sensor's bytes, and what is copied within `pixel_buf`. -/
structure Within (c : Sensor) (s : Driver) : Prop where
  received : s.sx.bytes_rcved + s.sx.bytes_remaining ≤ c.width * c.height * c.pixel_size
  transfer : s.sx.transfer_buffer_length ≤ SX_BULK_READ_SIZE
  copied : ∀ actual_length, s.sx.rcv_urb.isSome → s.sx.Copies actual_length →
    s.sx.bytes_rcved + actual_length ≤ c.pixel_buf

lemma within_of_counted {c : Sensor} (h : Counted c.pixel_buf s.sx) : s.Within c where
  received := h.received.trans (Nat.mod_le _ _)
  transfer := h.transfer
  copied := by
    rintro actual_length - ⟨rfl, hmore, -⟩
    exact (Nat.add_le_add_left (h.asked hmore) _).trans h.received

/-- The frame of an exposure, as `ccd.c` hands it to `new_frame`. -/
def exposed (p : Ccd.Params) : Event :=
  .call (.new_frame p.xoffset p.yoffset p.width p.height p.xbin p.ybin p.msec p.flags)

/-- Frames are those of exposures that `new_exposure` has made for a device of this size. -/
def Clamped (c : Sensor) (e : Event) : Prop :=
  ∀ xoffset yoffset width height xbin ybin msec flags,
    e = .call (.new_frame xoffset yoffset width height xbin ybin msec flags) →
      ∃ (g : Ccd.Geometry) (client : Ccd.Field) (msg : Ccd.Msg),
        g.width = c.width ∧ g.height = c.height ∧ e = exposed (Ccd.request g client msg)

/-- A clamped frame takes no more bytes than the sensor has. -/
lemma bytes_of_clamped {c : Sensor} {xoffset yoffset width height xbin ybin msec flags : ℕ}
    (h : Clamped c (.call (.new_frame xoffset yoffset width height xbin ybin msec flags))) :
    width / xbin * c.pixel_size * (height / ybin) ≤ c.bytes := by
  obtain ⟨g, client, msg, hw, hh, he⟩ := h _ _ _ _ _ _ _ _ rfl
  simp only [exposed, Event.call.injEq, Call.new_frame.injEq] at he
  obtain ⟨-, -, hwidth, hheight, -⟩ := he
  have hwidth : width / xbin ≤ c.width := by
    refine (Nat.div_le_self _ _).trans ?_
    rw [hwidth, ← hw]
    exact (Ccd.request_bounds g client msg).2.2.2.1
  have hheight : height / ybin ≤ c.height := by
    refine (Nat.div_le_self _ _).trans ?_
    rw [hheight, ← hh]
    simp only [Ccd.request]
    split <;> omega
  calc width / xbin * c.pixel_size * (height / ybin)
      ≤ c.width * c.pixel_size * c.height := Nat.mul_le_mul (Nat.mul_le_mul_right _ hwidth) hheight
    _ = c.bytes := Nat.mul_right_comm _ _ _

/-- Where the sensor's bytes are counted in 32 bits, every clamped frame has room. -/
lemma keeps_of_clamped {c : Sensor} (hsmall : c.bytes < 2 ^ 32) (hsize : s.sx.pixel_size = c.pixel_size)
    (h : Clamped c e) : s.Keeps c.pixel_buf e := by
  rcases e with c' | _ | _ | _ | _ | _ | _ | _
  · rcases c' with _ | ⟨xoffset, yoffset, width, height, xbin, ybin, msec, flags⟩ | _ | _ | _
    · trivial
    · have hbytes := bytes_of_clamped h
      show frame_bytes s.sx.pixel_size width height xbin ybin ≤ c.pixel_buf
      rw [Sensor.pixel_buf, trunc, Nat.mod_eq_of_lt hsmall, hsize]
      calc frame_bytes c.pixel_size width height xbin ybin
          ≤ trunc 32 (width / xbin * c.pixel_size) * (height / ybin) := Nat.mod_le _ _
        _ ≤ width / xbin * c.pixel_size * (height / ybin) := Nat.mul_le_mul_right _ (Nat.mod_le _ _)
        _ ≤ c.bytes := hbytes
    all_goals trivial
  all_goals trivial

/-- Over any run whose frames have room in the pixel buffer, whatever is received, it is
not overrun. -/
theorem pixel_buf_never_overrun (c : Sensor) (s₀ : Driver) (hunread : s₀.Unread c)
    (h : Reach step (Keeps c.pixel_buf) s₀ s) : s.Within c := by
  have hB : c.pixel_buf < 2 ^ 32 := Nat.mod_lt _ (by decide)
  exact within_of_counted (h.induction_on (P := fun s => Counted c.pixel_buf s.sx)
    (hunread.counted _) fun _ _ _ hi hok hstep => counted_step hB hi hok hstep)

/-- A sensor whose bytes are counted in 32 bits needs no more than the clamping of
`new_exposure`. -/
theorem clamped_frames_fit (c : Sensor) (hsmall : c.bytes < 2 ^ 32) (s₀ : Driver) (hunread : s₀.Unread c)
    (h : Reach step (fun _ e => Clamped c e) s₀ s) : s.Within c := by
  have hB : c.pixel_buf < 2 ^ 32 := Nat.mod_lt _ (by decide)
  refine within_of_counted (h.induction_on
    (P := fun s => s.sx.pixel_size = c.pixel_size ∧ Counted c.pixel_buf s.sx)
    ⟨hunread.pixel_size, hunread.counted _⟩ ?_).2
  rintro s e s' ⟨hsize, hcounted⟩ hok hstep
  exact ⟨(pixel_size_step hstep).trans hsize,
    counted_step hB hcounted (keeps_of_clamped hsmall hsize hok) hstep⟩

/-- The sensor of eight by eight pixels that `camera` has. -/
def eight : Sensor := ⟨8, 8, 1, by decide, by decide, by decide⟩

/-- A frame of all its pixels. -/
def fullFrame : Event := .call (.new_frame 0 0 8 8 1 1 500 0)

theorem pixel_buf_never_overrun_eight : ∃ s, replay step camera
    [.open, fullFrame, .finish 0 ⟨true, true, []⟩, .snd_complete true] = some s ∧
    s.sx.transfer_buffer_length = 64 ∧ s.Within eight := by
  refine ⟨_, rfl, rfl, pixel_buf_never_overrun eight camera ⟨rfl, fun _ => rfl, rfl, rfl, rfl⟩ ?_⟩
  have hkeeps : ∀ s : Driver, s.sx.pixel_size = 1 → s.Keeps eight.pixel_buf fullFrame := by
    intro s hsize
    show frame_bytes s.sx.pixel_size 8 8 1 1 ≤ eight.pixel_buf
    rw [hsize]
    decide
  have hfinish : ∀ s : Driver, s.Keeps eight.pixel_buf (.finish 0 ⟨true, true, []⟩) := fun _ => trivial
  have hsent : ∀ s : Driver, s.Keeps eight.pixel_buf (.snd_complete true) := fun _ => trivial
  have hopen : Reach step (Keeps eight.pixel_buf) camera { camera with sx := sx_open 0 camera.sx } :=
    Reach.init.step (e := .open) trivial rfl
  exact ((hopen.step (hkeeps _ rfl) rfl).step (hfinish _) rfl).step (hsent _) rfl

/-- A sensor of 65535 by 32769 pixels of two bytes, for which 65534 bytes are allocated. -/
def large : Sensor := .ofSetup fun n =>
  if n = 2 ∨ n = 3 then 0xFF else if n = 6 then 0x01 else if n = 7 then 0x80 else if n = 14 then 16 else 0

def largeCamera : Driver := { camera with sx := { camera.sx with pixel_size := 2 } }

def largeDevice : Ccd.Geometry := ⟨[], 65535, 32769, 0, 0, 1, 16, 16, 0, 0⟩

/-- A message for an exposure of half a second, of the upper half of its rows. -/
def upperHalf : Ccd.Msg := fun n =>
  if n = 4 then 65535 else if n = 5 then 16384 else if n = 12 then 500 else 0

/-- Seven transfers of the frame have been copied. -/
def sevenTransfers : List Event :=
  [.open, exposed (Ccd.request largeDevice 0 upperHalf), .finish 0 ⟨true, true, []⟩, .snd_complete true] ++
    List.replicate 7 (.rcv_complete 8192 true)

/-- The eighth is copied beyond the end of the buffer. -/
theorem large_sensor_overruns : large.pixel_buf = 65534 ∧ largeCamera.Unread large ∧
    (∀ e ∈ sevenTransfers, Clamped large e) ∧
    ∃ s, replay step largeCamera sevenTransfers = some s ∧ s.sx.rcv_urb = some 0 ∧
      s.sx.Copies 8192 ∧ large.pixel_buf < s.sx.bytes_rcved + 8192 := by
  refine ⟨by decide, ⟨by decide, fun _ => rfl, rfl, rfl, rfl⟩, ?_, _, rfl, rfl, ?_, ?_⟩
  · intro e he xoffset yoffset width height xbin ybin msec flags hcall
    simp only [sevenTransfers, List.mem_append, List.mem_cons, List.mem_replicate, List.not_mem_nil,
      or_false, hcall] at he
    rcases he with (he | he | he | he) | ⟨-, he⟩
    · cases he
    · exact ⟨largeDevice, 0, upperHalf, by decide, by decide, hcall.trans he⟩
    · cases he
    · cases he
    · cases he
  · exact ⟨by decide +kernel, by decide +kernel, by decide +kernel, by decide +kernel⟩
  · decide +kernel

end Driver

end EspLinux.SxUsb
