import EspLinux.Ccd.Read

/-!
# The CCD class driver as a state machine

The remaining entry points of `ccd.c` and the step function of one device slot.  A run is
any sequence of these events, issued by any of the three clients, by the mini-driver and
by the clock.
-/

namespace EspLinux.Ccd

open EspLinux.Lib

variable (k : Kernel) (m : Mini)

/-- `ccd_register_device` on a free slot, by a mini-driver with all its functions. -/
def ccd_register_device (g : Geometry) (s : State) : State :=
  if s.registered then s
  else { s with toCore := { s.toCore with geometry := g, registered := true }, exposure_list := none }

/-- The device record after `ccd_unregister_device`. -/
def Core.unregister (c : Core) : Core :=
  let c := if c.opened ≠ 0 then c.call .close else c
  { c with
    registered := false
    opened := 0
    current_read_row := CCD_END_FRAME_LOAD
    geometry := Geometry.none }

/-- `ccd_unregister_device` -/
def ccd_unregister_device (s : State) : Option State :=
  if s.registered then do
    let s := { s with toCore := s.toCore.unregister, exposure_list := none }
    let s ← drop_exposures k 0 (s.fresh + 1) s
    let s ← drop_exposures k 1 (s.fresh + 1) s
    drop_exposures k 2 (s.fresh + 1) s
  else
    some s

/-- `out_buf_size` of a client that opens the device. -/
def out_buf_size (g : Geometry) : Mode → ℕ
  | .binary => 256
  | .text => u32 (g.width * g.sizeof_pixel * 3 + g.width + 32)

/-- `ccd_open`; `nomem` says that an allocation of a buffer fails. -/
def ccd_open (c : Field) (mode : Mode) (nomem : Bool) (s : State) : State × Except Errno Unit :=
  if s.registered = false then (s, .error .ENODEV)
  else if 0 < c.val ∧ s.geometry.image_fields ≤ 1 then (s, .error .ENODEV)
  else if (s.clients c).opened then (s, .error .EBUSY)
  else
    let err := if s.opened = 0 then m.open_ s.calls else 0
    let core := if s.opened = 0 then s.toCore.call .open_ else s.toCore
    if err ≠ 0 then ({ s with toCore := core }, .error (.mini err))
    else
      let x := { s.clients c with
        opened := !nomem
        mode := mode
        out_buf_size := out_buf_size s.geometry mode
        in_buf_len := 0
        out_buf_len := 0 }
      let core := core.set_client c x
      let s := { s with toCore := core, client_list := Function.update s.client_list c none }
      if nomem then (s, .error .ENOMEM)
      else ({ s with toCore := { core with opened := core.opened + 1 } }, .ok ())

/-- The device and client records at the end of `ccd_close`. -/
def Core.close (c : Field) (x : Core) : Core :=
  let x := x.set_client c { x.clients c with
    opened := false, in_buf_len := 0, out_buf_len := 0, out_buf_size := 0 }
  if x.opened = 0 then x
  else if x.opened = 1 then { x.call .close with opened := 0 }
  else { x with opened := x.opened - 1 }

/-- `ccd_close` -/
def ccd_close (c : Field) (s : State) : Option State :=
  if (s.clients c).opened then do
    let s ← abort_exposures k c s
    some { s with toCore := s.toCore.close c }
  else
    some s

/-- What can happen to a device slot.  Requests come in through `write`, one message at a
time. -/
inductive Event
  /-- Time passes. -/
  | tick (d : ℕ)
  | register (g : Geometry)
  | unregister
  | open_ (c : Field) (mode : Mode) (nomem : Bool)
  | close (c : Field)
  /-- An exposure request of an opened client. -/
  | new_exposure (c : Field) (msg : Msg)
  /-- An abort request of an opened client. -/
  | abort (c : Field)
  /-- The exposure timer runs out. -/
  | expire
  | read (c : Field) (count : ℕ)
  /-- A read that slept goes on. -/
  | wake (c : Field) (count : ℕ)

/-- The event is a read, which is where the driver can fail to come to an end. -/
def Event.isRead : Event → Bool
  | .read _ _ => true
  | .wake _ _ => true
  | _ => false

/-- Client `c` can issue requests: it is open, and the device is registered. -/
def Core.ready (c : Field) (x : Core) : Bool := x.registered && (x.clients c).opened

/-- One event.  A request of a client that cannot issue one changes nothing. -/
def step (s : State) : Event → Option State
  | .tick d => some { s with toCore := { s.toCore with jiffies := s.jiffies + d } }
  | .register g => some (ccd_register_device g s)
  | .unregister => ccd_unregister_device k s
  | .open_ c mode nomem => some (ccd_open m c mode nomem s).1
  | .close c => ccd_close k c s
  | .new_exposure c msg => if s.ready c then new_exposure k c msg s else some s
  | .abort c => if s.ready c then abort_exposures k c s else some s
  | .expire => complete_exposure s
  | .read c count => if s.ready c then (ccd_read k m c count s).map Prod.fst else some s
  | .wake c count => if s.ready c then (ccd_read_head k m c count s).map Prod.fst else some s

end EspLinux.Ccd
