import EspLinux.Ccd.Device

/-!
# Exposure management

The routines of `ccd.c` that start, finish, insert and delete exposures, on the pointer
representation of the lists.  A routine is `none` when it follows a freed pointer or does
not come to an end; the walks over the lists carry a bound on the number of cells they
may visit, and `Links` shows that the bound is never met.
-/

namespace EspLinux.Ccd

variable (k : Kernel)

/-- `start_exposure` -/
def start_exposure (i : ℕ) (s : State) : Option State := do
  let e ← s.heap i
  let b := u32 s.jiffies
  let t := u32 (b + k.MSEC2JIFFY e.msec)
  some { s with
    toCore := (s.toCore.call (.new_frame i e.toFrame)).add_timer i t
    heap := Function.update s.heap i (some { e with begin_ := b, end_ := t }) }

/-- `finish_exposure` -/
def finish_exposure (i : ℕ) (s : State) : Option State := do
  let e ← s.heap i
  if e.complete = 0 ∧ s.exposure_list = some i then
    some { s with
      toCore := (s.toCore.call (.latch_frame i e.flags)).set_row CCD_START_FRAME_LOAD
      heap := Function.update s.heap i (some { e with complete := 1 }) }
  else
    some s

/-- The timer runs `complete_exposure`.  The kernel takes the timer off its list first; it
never runs the callback before `expires`, but nothing here depends on when it does. -/
def complete_exposure (s : State) : Option State :=
  if s.exposure_timer = none then some s
  else
    match s.exposure with
    | none => some { s with toCore := s.toCore.del_timer.oops }
    | some i =>
      -- the exposure may have been freed behind the timer's back
      if s.heap i = none then some { s with toCore := s.toCore.del_timer.oops }
      else finish_exposure i { s with toCore := s.toCore.del_timer }

/-- `update_exposures`, from cell `i` on. -/
def update_exposures : ℕ → ℕ → Heap → Option Heap
  | 0, _, _ => none
  | n + 1, i, h => do
    let e ← h i
    match e.next with
    | none => some h
    | some j =>
      let f ← h j
      let f' := { f with begin_ := e.end_, end_ := u32 (e.end_ + k.MSEC2JIFFY f.msec) }
      update_exposures n j (Function.update h j (some f'))

/-- The search for the cell in front of `i` along the list with the given link; `some none`
when the list ends before. -/
def find_prev (link : Exposure → Option ℕ) (h : Heap) (i : ℕ) : ℕ → Option ℕ → Option (Option ℕ)
  | _, none => some none
  | 0, some _ => none
  | n + 1, some j => do
    let e ← h j
    if link e = some i then some (some j) else find_prev link h i n (link e)

/-- The last cell of the device list. -/
def find_last (h : Heap) : ℕ → ℕ → Option ℕ
  | 0, _ => none
  | n + 1, i => do
    let e ← h i
    match e.next with
    | none => some i
    | some j => find_last h n j

/-- The end of `del_exposure` when it has taken the first exposure, `e`, off the list. -/
def start_next (e : Exposure) (s : State) : Option State :=
  match e.next with
  | none => some s
  | some j => do
    let f ← s.heap j
    if e.end_ ≤ f.begin_ then
      let h ← update_exposures k (s.fresh + 1) j s.heap
      start_exposure k j { s with heap := h }
    else if f.end_ ≤ s.jiffies % 2 ^ k.longBits then
      finish_exposure j s
    else
      some { s with toCore := s.toCore.add_timer j f.end_ }

/-- `del_exposure` -/
def del_exposure (i : ℕ) (s : State) : Option State := do
  let e ← s.heap i
  if s.exposure_list = some i then
    start_next k e { s with
      -- kill the timer
      toCore := if e.complete = 0 then s.toCore.del_timer else s.toCore
      exposure_list := e.next }
  else
    match ← find_prev Exposure.next s.heap i (s.fresh + 1) s.exposure_list with
    | none => some s
    | some j =>
      let p ← s.heap j
      let h ← update_exposures k (s.fresh + 1) j
        (Function.update s.heap j (some { p with next := e.next }))
      some { s with heap := h }

/-- The parameters that `new_exposure` takes from a message block, after its validation. -/
def request (g : Geometry) (c : Field) (msg : Msg) : Params :=
  let elem (n : ℕ) : ℕ := (msg (CCD_EXP_WIDTH_INDEX + n)).toNat
  let width := if elem 0 > g.width then g.width else elem 0
  let height := if elem 1 > g.height then g.height else elem 1
  { xoffset := if width + elem 2 > g.width then g.width - width else elem 2
    yoffset := if height + elem 3 > g.height then g.height - height else elem 3
    width := width
    height := height
    xbin := if elem 4 < 1 then 1 else elem 4
    ybin := if elem 5 < 1 then 1 else elem 5
    dac_bits := if elem 6 > g.dac_bits then g.dac_bits else elem 6
    msec := elem 8 + elem 9 <<< 16
    flags := (elem 7 &&& (0xFFFFFFFF ^^^ CCD_FIELD_BOTH)) ||| exposure_flags c
    begin_ := 0
    end_ := 0
    complete := 0
    client := c }

/-- `new_exposure`; the new record is cell `s.fresh`. -/
def new_exposure (c : Field) (msg : Msg) (s : State) : Option State := do
  let i := s.fresh
  let e : Exposure :=
    { request s.geometry c msg with next := none, client_next := s.client_list c }
  let t := { s with
    toCore := s.toCore.alloc
    client_list := Function.update s.client_list c (some i)
    heap := Function.update s.heap i (some e) }
  match s.exposure_list with
  | none => start_exposure k i { t with exposure_list := some i }
  | some j =>
    let h ← s.heap j
    if e.flags &&& CCD_NOWIPE_FRAME ≠ 0 ∧ e.flags &&& h.flags &&& CCD_FIELD_BOTH = 0
        ∧ h.next = none then
      let b := u32 s.jiffies
      let x := u32 (b + k.MSEC2JIFFY e.msec)
      if x < h.end_ then
        -- the new exposure ends first and goes in front
        some { t with
          toCore := t.toCore.add_timer i x
          heap := Function.update t.heap i
            (some { e with begin_ := b, end_ := x, next := some j })
          exposure_list := some i }
      else
        some { t with
          toCore := t.toCore.call (.new_frame i e.toFrame)
          heap := Function.update
            (Function.update t.heap i (some { e with begin_ := b, end_ := x }))
            j (some { h with next := some i }) }
    else
      let l ← find_last s.heap (s.fresh + 1) j
      let p ← s.heap l
      let e' := { e with begin_ := p.end_, end_ := u32 (p.end_ + k.MSEC2JIFFY e.msec) }
      some { t with
        heap := Function.update (Function.update t.heap i (some e'))
          l (some { p with next := some i }) }

/-- The loop that deletes and frees all the exposures of a client. -/
def drop_exposures (c : Field) : ℕ → State → Option State
  | 0, _ => none
  | n + 1, s =>
    match s.client_list c with
    | none => some s
    | some i => do
      let s ← del_exposure k i s
      let e ← s.heap i
      drop_exposures c n { s with
        client_list := Function.update s.client_list c e.client_next
        heap := Function.update s.heap i none }

/-- The first half of `abort_exposures`: stop a download in progress and mark the client's
newest exposure as aborted. -/
def abort_mark (c : Field) (s : State) : Option State :=
  match s.client_list c with
  | none => some s
  | some i => do
    let e ← s.heap i
    let core :=
      if s.exposure_list = some i ∧ s.current_read_row ≠ CCD_END_FRAME_LOAD then
        (if s.current_read_row ≠ CCD_START_FRAME_LOAD then
          (s.toCore.call (.control CCD_CTRL_CMD_RESET 0)).call (.end_read e.flags)
        else s.toCore).set_row CCD_END_FRAME_LOAD
      else s.toCore
    some { s with
      toCore := core
      heap :=
        if e.complete = 0 then Function.update s.heap i (some { e with complete := -1 })
        else s.heap }

/-- `abort_exposures` -/
def abort_exposures (c : Field) (s : State) : Option State := do
  let s ← abort_mark c s
  let s ← drop_exposures k c (s.fresh + 1) s
  some { s with toCore := s.toCore.set_client c { s.clients c with out_buf_len := 0 } }

/-- Take exposure `i` off the list of its client. -/
def client_unlink (i : ℕ) (s : State) : Option State := do
  let e ← s.heap i
  let c := e.client
  if s.client_list c = some i then
    some { s with client_list := Function.update s.client_list c e.client_next }
  else
    match ← find_prev Exposure.client_next s.heap i (s.fresh + 1) (s.client_list c) with
    | none => some s
    | some j =>
      let p ← s.heap j
      some { s with
        heap := Function.update s.heap j (some { p with client_next := e.client_next }) }

/-- The end-of-frame part of `read_exposure`: the exposure leaves both lists and is
freed. -/
def end_frame (i : ℕ) (s : State) : Option State := do
  let e ← s.heap i
  let s ← del_exposure k i
    { s with toCore := (s.toCore.call (.end_read e.flags)).set_row CCD_END_FRAME_LOAD }
  let s ← client_unlink i s
  some { s with heap := Function.update s.heap i none }

end EspLinux.Ccd
