import EspLinux.Lib.HeapOrder

/-!
# ser2net: the heap of timers

The selector keeps the running timers in a heap whose nodes are the timers themselves: a complete
binary tree, linked by pointers, with the earliest timer at the top.  A new timer is put behind the
last one and sent up; a timer that is stopped is replaced by the last one, which is then sent up or
down.  The place behind the last timer, and the timer before it, are found by walking along the
links.

This module has the heap, and what the exchanges do to the links: they are those of the tree with
two timers exchanged.
-/

namespace EspLinux.Ser2net

open Lib

structure Timeval where
  tv_sec : ℤ
  tv_usec : ℤ
  deriving DecidableEq

def cmp_timeval (tv1 tv2 : Timeval) : ℤ :=
  if tv1.tv_sec < tv2.tv_sec then -1
  else if tv2.tv_sec < tv1.tv_sec then 1
  else if tv1.tv_usec < tv2.tv_usec then -1
  else if tv2.tv_usec < tv1.tv_usec then 1
  else 0

/-- The timers in memory, and the two pointers the selector has to its heap. -/
structure TimerHeap (α : Type) extends Links α where
  timeout : α → Timeval
  in_heap : α → Bool
  timer_top : Option α
  timer_last : Option α

variable {α : Type} [DecidableEq α]

namespace TimerHeap

/-! ## Assignments -/

def set_left (h : TimerHeap α) (q : α) (v : Option α) : TimerHeap α :=
  { h with left := Function.update h.left q v }

def set_right (h : TimerHeap α) (q : α) (v : Option α) : TimerHeap α :=
  { h with right := Function.update h.right q v }

def set_up (h : TimerHeap α) (q : α) (v : Option α) : TimerHeap α :=
  { h with up := Function.update h.up q v }

/-- `if (child) child->up = v;` -/
def adopt (h : TimerHeap α) (child : Option α) (v : α) : TimerHeap α :=
  match child with
  | some c => h.set_up c (some v)
  | none => h

/-- Let the link that leads from `up` down to `elem` lead to `v`; without `up`, the top. -/
def relink (h : TimerHeap α) (up : Option α) (elem v : α) : TimerHeap α :=
  match up with
  | some u => if h.left u = some elem then h.set_left u (some v) else h.set_right u (some v)
  | none => { h with timer_top := some v }

/-- `if (*last == elem) *last = v;` -/
def last_moves (h : TimerHeap α) (elem v : α) : TimerHeap α :=
  if h.timer_last = some elem then { h with timer_last := some v } else h

/-! ## Places in the tree -/

/-- The link behind the last one: a node, and the side of it.  Without an answer a NULL pointer is
used. -/
def find_next_pos (h : TimerHeap α) (n : ℕ) (curr : α) : Option (Side × α) :=
  match h.up curr with
  | some u =>
    if h.left u = some curr then
      -- a left node, the next node is its right partner
      some (.right, u)
    else (climb h.toLinks .right n curr 0).bind go_on
  | none => (climb h.toLinks .right n curr 0).bind go_on
where
  /-- Over to the right partner, and down again. -/
  go_on : α × ℕ → Option (Side × α)
    | (curr, upcount) =>
      match h.up curr with
      | some u =>
        match upcount with
        | 0 => none
        | upcount + 1 =>
          ((h.right u).bind (descend h.toLinks .left upcount)).map fun parent => (.left, parent)
      | none => (descend h.toLinks .left upcount curr).map fun parent => (.left, parent)

/-- The node before `curr`; no answer if a NULL pointer is used. -/
def find_prev_elem (h : TimerHeap α) (n : ℕ) (curr : α) : Option (Option α) :=
  match h.up curr with
  | some u =>
    if h.right u = some curr then
      -- a right node, the previous node is its left partner
      some (h.left u)
    else (climb h.toLinks .left n curr 0).bind go_on
  | none => (climb h.toLinks .left n curr 0).bind go_on
where
  /-- Over to the left partner, or up to the previous row, and down again. -/
  go_on : α × ℕ → Option (Option α)
    | (curr, upcount) =>
      match h.up curr with
      | some u => ((h.left u).bind (descend h.toLinks .right upcount)).map some
      | none =>
        match upcount with
        | 0 => none
        | upcount + 1 => (descend h.toLinks .right upcount curr).map some

/-! ## Moving a timer -/

/-- The body of the loop of `send_up`: `elem` and its parent change places. -/
def exchange_up (h : TimerHeap α) (elem parent : α) : TimerHeap α :=
  let tmp1 := h.left elem
  let tmp2 := h.right elem
  let h :=
    if h.left parent = some elem then
      let h := h.set_left elem (some parent)
      let h := h.set_right elem (h.right parent)
      h.adopt (h.right elem) elem
    else
      let h := h.set_right elem (some parent)
      let h := h.set_left elem (h.left parent)
      h.adopt (h.left elem) elem
  let h := h.set_up elem (h.up parent)
  let h := h.relink (h.up parent) parent elem
  let h := h.set_up parent (some elem)
  let h := h.set_left parent tmp1
  let h := h.adopt (h.left parent) parent
  let h := h.set_right parent tmp2
  let h := h.adopt (h.right parent) parent
  h.last_moves elem parent

/-- `n` turns at most; no answer means that they are not enough. -/
def send_up (elem : α) : ℕ → TimerHeap α → Option (TimerHeap α)
  | 0, _ => none
  | n + 1, h =>
    match h.up elem with
    | some parent =>
      if cmp_timeval (h.timeout elem) (h.timeout parent) < 0 then
        send_up elem n (h.exchange_up elem parent)
      else some h
    | none => some h

/-- `elem` and its right child change places. -/
def exchange_right (h : TimerHeap α) (elem right : α) : TimerHeap α :=
  let tmp1 := h.left right
  let tmp2 := h.right right
  let h := h.relink (h.up elem) elem right
  let h := h.set_up right (h.up elem)
  let h := h.set_up elem (some right)
  let h := h.set_left right (h.left elem)
  let h := h.set_right right (some elem)
  let h := h.set_left elem tmp1
  let h := h.set_right elem tmp2
  let h := h.adopt (h.left right) right
  let h := h.adopt (h.left elem) elem
  let h := h.adopt (h.right elem) elem
  h.last_moves right elem

/-- `elem` and its left child change places. -/
def exchange_left (h : TimerHeap α) (elem left : α) : TimerHeap α :=
  let tmp1 := h.left left
  let tmp2 := h.right left
  let h := h.relink (h.up elem) elem left
  let h := h.set_up left (h.up elem)
  let h := h.set_up elem (some left)
  let h := h.set_left left (some elem)
  let h := h.set_right left (h.right elem)
  let h := h.set_left elem tmp1
  let h := h.set_right elem tmp2
  let h := h.adopt (h.right left) left
  let h := h.adopt (h.left elem) elem
  let h := h.adopt (h.right elem) elem
  h.last_moves left elem

/-- One turn of the loop of `send_down`: the smaller child is exchanged with `elem`, if it is
earlier. -/
def down_turn (h : TimerHeap α) (elem left : α) : Option (TimerHeap α) :=
  match h.right elem with
  | some right =>
    if 0 < cmp_timeval (h.timeout left) (h.timeout right) then
      if 0 < cmp_timeval (h.timeout elem) (h.timeout right) then some (h.exchange_right elem right)
      else none
    else if 0 < cmp_timeval (h.timeout elem) (h.timeout left) then some (h.exchange_left elem left)
    else none
  | none =>
    if 0 < cmp_timeval (h.timeout elem) (h.timeout left) then some (h.exchange_left elem left)
    else none

/-- `n` turns at most; no answer means that they are not enough. -/
def send_down (elem : α) : ℕ → TimerHeap α → Option (TimerHeap α)
  | 0, _ => none
  | n + 1, h =>
    match h.left elem with
    | some left =>
      match h.down_turn elem left with
      | some h => send_down elem n h
      | none => some h
    | none => some h

/-! ## The heap -/

/-- `*next = elem`, where `next` is a link of `parent`. -/
def hang (h : TimerHeap α) (side : Side) (parent elem : α) : TimerHeap α :=
  match side with
  | .left => h.set_left parent (some elem)
  | .right => h.set_right parent (some elem)

def add_to_heap (n : ℕ) (h : TimerHeap α) (elem : α) : Option (TimerHeap α) :=
  let h := ((h.set_left elem none).set_right elem none).set_up elem none
  match h.timer_top with
  | none => some { h with timer_top := some elem, timer_last := some elem }
  | some _ => do
    let (side, parent) ← h.find_next_pos n (← h.timer_last)
    let h := h.hang side parent elem
    let h := h.set_up elem (some parent)
    let h := { h with timer_last := some elem }
    if cmp_timeval (h.timeout elem) (h.timeout parent) < 0 then send_up elem n h else some h

/-- Take the link from `u` to its child `elem` away. -/
def unlink (h : TimerHeap α) (u elem : α) : TimerHeap α :=
  if h.left u = some elem then h.set_left u none else h.set_right u none

/-- Put `to_insert` into the place of `elem`. -/
def replace (h : TimerHeap α) (elem to_insert : α) : TimerHeap α :=
  let h := h.relink (h.up elem) elem to_insert
  let h := h.set_up to_insert (h.up elem)
  let h := h.adopt (h.left elem) to_insert
  let h := h.adopt (h.right elem) to_insert
  let h := h.set_left to_insert (h.left elem)
  let h := h.set_right to_insert (h.right elem)
  h.last_moves elem to_insert

/-- Send a timer up or down to its place. -/
def propagate (n : ℕ) (h : TimerHeap α) (elem : α) : Option (TimerHeap α) :=
  match h.up elem with
  | some u =>
    if cmp_timeval (h.timeout elem) (h.timeout u) < 0 then send_up elem n h
    else send_down elem n h
  | none => send_down elem n h

def remove_from_heap (n : ℕ) (h : TimerHeap α) (elem : α) : Option (TimerHeap α) := do
  let to_insert ← h.timer_last
  match h.up to_insert with
  | none => some { h with timer_top := none, timer_last := none }
  | some u =>
    let last ← h.find_prev_elem n to_insert
    let h := { h with timer_last := last }
    let h := h.unlink u to_insert
    if elem = to_insert then some h else propagate n (h.replace elem to_insert) to_insert

/-! ## The calls -/

def ETIMEDOUT : ℤ := 110

def sel_start_timer (n : ℕ) (h : TimerHeap α) (timer : α) (timeout : Timeval) :
    Option (ℤ × TimerHeap α) := do
  let h ← if h.in_heap timer then h.remove_from_heap n timer else some h
  let h := { h with timeout := Function.update h.timeout timer timeout }
  let h ← h.add_to_heap n timer
  return (0, { h with in_heap := Function.update h.in_heap timer true })

def sel_stop_timer (n : ℕ) (h : TimerHeap α) (timer : α) : Option (ℤ × TimerHeap α) :=
  if h.in_heap timer then do
    let h ← h.remove_from_heap n timer
    return (0, { h with in_heap := Function.update h.in_heap timer false })
  else some (ETIMEDOUT, h)

/-- A turn of the loop in `sel_select_loop` that lets the timers expire, up to the call of the
handler. -/
def expire (n : ℕ) (h : TimerHeap α) (now : Timeval) : Option (TimerHeap α) :=
  match h.timer_top with
  | none => some h
  | some timer =>
    if 0 ≤ cmp_timeval now (h.timeout timer) then do
      let h ← h.remove_from_heap n timer
      return { h with in_heap := Function.update h.in_heap timer false }
    else some h

end TimerHeap

/-- What happens to the timers. -/
inductive TimerCall (α : Type)
  | start (timer : α) (timeout : Timeval)
  | stop (timer : α)
  | expire (now : Timeval)

namespace TimerHeap

/-- One call. -/
def call (n : ℕ) (h : TimerHeap α) : TimerCall α → Option (TimerHeap α)
  | .start timer timeout => (h.sel_start_timer n timer timeout).map Prod.snd
  | .stop timer => (h.sel_stop_timer n timer).map Prod.snd
  | .expire now => h.expire n now

/-- Call after call. -/
def run (n : ℕ) : TimerHeap α → List (TimerCall α) → Option (TimerHeap α)
  | h, [] => some h
  | h, c :: cs => (h.call n c).bind fun h => run n h cs

/-! ## What the assignments do -/

section Effects

variable (h : TimerHeap α) (o : Option α) (q v w x : α)

@[simp] lemma set_left_left : (h.set_left q o).left x = if x = q then o else h.left x :=
  Function.update_apply _ _ _ _

@[simp] lemma set_left_right : (h.set_left q o).right = h.right := rfl

@[simp] lemma set_left_up : (h.set_left q o).up = h.up := rfl

@[simp] lemma set_right_right : (h.set_right q o).right x = if x = q then o else h.right x :=
  Function.update_apply _ _ _ _

@[simp] lemma set_right_left : (h.set_right q o).left = h.left := rfl

@[simp] lemma set_right_up : (h.set_right q o).up = h.up := rfl

@[simp] lemma set_up_up : (h.set_up q o).up x = if x = q then o else h.up x :=
  Function.update_apply _ _ _ _

@[simp] lemma set_up_left : (h.set_up q o).left = h.left := rfl

@[simp] lemma set_up_right : (h.set_up q o).right = h.right := rfl

@[simp] lemma adopt_left : (h.adopt o v).left = h.left := by cases o <;> rfl

@[simp] lemma adopt_right : (h.adopt o v).right = h.right := by cases o <;> rfl

@[simp] lemma adopt_up : (h.adopt o v).up x = if o = some x then some v else h.up x := by
  cases o with
  | none => rfl
  | some c => simp only [adopt, set_up_up, Option.some.injEq, eq_comm]

@[simp] lemma relink_left : (h.relink o v w).left x =
    if o = some x ∧ h.left x = some v then some w else h.left x := by
  cases o with
  | none => simp [relink]
  | some u =>
    rw [relink]
    split
    · rw [set_left_left]
      grind
    · rw [set_right_left]
      grind

@[simp] lemma relink_right : (h.relink o v w).right x =
    if o = some x ∧ h.left x ≠ some v then some w else h.right x := by
  cases o with
  | none => simp [relink]
  | some u =>
    rw [relink]
    split
    · rw [set_left_right]
      grind
    · rw [set_right_right]
      grind

@[simp] lemma relink_up : (h.relink o v w).up = h.up := by
  cases o with
  | none => rfl
  | some u =>
    rw [relink]
    split <;> rfl

@[simp] lemma last_moves_links : (h.last_moves v w).toLinks = h.toLinks := by
  rw [last_moves]
  split <;> rfl

@[simp] lemma set_left_top : (h.set_left q o).timer_top = h.timer_top := rfl

@[simp] lemma set_right_top : (h.set_right q o).timer_top = h.timer_top := rfl

@[simp] lemma set_up_top : (h.set_up q o).timer_top = h.timer_top := rfl

@[simp] lemma adopt_top : (h.adopt o v).timer_top = h.timer_top := by cases o <;> rfl

@[simp] lemma relink_top : (h.relink o v w).timer_top =
    if o = none then some w else h.timer_top := by
  cases o with
  | none => rfl
  | some u =>
    rw [relink]
    split <;> rfl

@[simp] lemma last_moves_top : (h.last_moves v w).timer_top = h.timer_top := by
  rw [last_moves]
  split <;> rfl

@[simp] lemma set_left_last : (h.set_left q o).timer_last = h.timer_last := rfl

@[simp] lemma set_right_last : (h.set_right q o).timer_last = h.timer_last := rfl

@[simp] lemma set_up_last : (h.set_up q o).timer_last = h.timer_last := rfl

@[simp] lemma adopt_last : (h.adopt o v).timer_last = h.timer_last := by cases o <;> rfl

@[simp] lemma relink_last : (h.relink o v w).timer_last = h.timer_last := by
  cases o with
  | none => rfl
  | some u =>
    rw [relink]
    split <;> rfl

@[simp] lemma last_moves_last : (h.last_moves v w).timer_last =
    if h.timer_last = some v then some w else h.timer_last := by
  rw [last_moves]
  split <;> rfl

end Effects

/-! ## The data of the timers -/

/-- The links change, and nothing else about the timers. -/
def SameData (h h' : TimerHeap α) : Prop := h'.timeout = h.timeout ∧ h'.in_heap = h.in_heap

section Data

variable {h h' : TimerHeap α} {o : Option α} {q v w : α}

omit [DecidableEq α] in
lemma SameData.refl (h : TimerHeap α) : SameData h h := ⟨rfl, rfl⟩

omit [DecidableEq α] in
lemma SameData.trans {h'' : TimerHeap α} (h₁ : SameData h h') (h₂ : SameData h' h'') :
    SameData h h'' := ⟨h₂.1.trans h₁.1, h₂.2.trans h₁.2⟩

lemma sameData_adopt (hs : SameData h h') : SameData h (h'.adopt o v) := by
  cases o with
  | none => exact hs
  | some c => exact hs

lemma sameData_relink (hs : SameData h h') : SameData h (h'.relink o v w) := by
  cases o with
  | none => exact hs
  | some u =>
    rw [relink]
    split
    · exact hs
    · exact hs

lemma sameData_last_moves (hs : SameData h h') : SameData h (h'.last_moves v w) := by
  rw [last_moves]
  split
  · exact hs
  · exact hs

end Data

/-! ## Exchanges -/

section Exchanges

variable {h : TimerHeap α} {l : List α} {elem parent right left to_insert : α}

/-- Exchanging a timer with its parent. -/
lemma complete_exchange_up (hc : Complete h.toLinks l) (helem : elem ∈ l)
    (hup : h.up elem = some parent) :
    Complete (h.exchange_up elem parent).toLinks (l.map (Equiv.swap elem parent)) := by
  obtain ⟨hl, hr, hu⟩ := hc.linked
  obtain ⟨hparent, hne, -, -⟩ := hu elem helem parent hup
  refine hc.map _ ?_ ?_ ?_
  · intro a ha
    rw [exchange_up, last_moves_links]
    split
    · cases hb : h.left a <;> simp [Equiv.swap_apply_def] <;> grind
    · cases hb : h.left a <;> simp [Equiv.swap_apply_def] <;> grind
  · intro a ha
    rw [exchange_up, last_moves_links]
    split
    · cases hb : h.right a <;> simp [Equiv.swap_apply_def] <;> grind
    · cases hb : h.right a <;> simp [Equiv.swap_apply_def] <;> grind
  · intro a ha
    rw [exchange_up, last_moves_links]
    split
    · cases hb : h.up a <;> simp [Equiv.swap_apply_def] <;> grind
    · cases hb : h.up a <;> simp [Equiv.swap_apply_def] <;> grind

/-- Exchanging a timer with its right child. -/
lemma complete_exchange_right (hc : Complete h.toLinks l) (helem : elem ∈ l)
    (hright : h.right elem = some right) :
    Complete (h.exchange_right elem right).toLinks (l.map (Equiv.swap elem right)) := by
  obtain ⟨hl, hr, hu⟩ := hc.linked
  obtain ⟨hmem, hup, -⟩ := hr elem helem right hright
  obtain ⟨-, hne, -, -⟩ := hu right hmem elem hup
  refine hc.map _ ?_ ?_ ?_
  · intro a ha
    rw [exchange_right, last_moves_links]
    cases hb : h.left a <;> simp [Equiv.swap_apply_def] <;> grind
  · intro a ha
    rw [exchange_right, last_moves_links]
    cases hb : h.right a <;> simp [Equiv.swap_apply_def] <;> grind
  · intro a ha
    rw [exchange_right, last_moves_links]
    cases hb : h.up a <;> simp [Equiv.swap_apply_def] <;> grind

/-- Exchanging a timer with its left child. -/
lemma complete_exchange_left (hc : Complete h.toLinks l) (helem : elem ∈ l)
    (hleft : h.left elem = some left) :
    Complete (h.exchange_left elem left).toLinks (l.map (Equiv.swap elem left)) := by
  obtain ⟨hl, hr, hu⟩ := hc.linked
  obtain ⟨hmem, hup, -⟩ := hl elem helem left hleft
  obtain ⟨-, hne, -, -⟩ := hu left hmem elem hup
  refine hc.map _ ?_ ?_ ?_
  · intro a ha
    rw [exchange_left, last_moves_links]
    cases hb : h.left a <;> simp [Equiv.swap_apply_def] <;> grind
  · intro a ha
    rw [exchange_left, last_moves_links]
    cases hb : h.right a <;> simp [Equiv.swap_apply_def] <;> grind
  · intro a ha
    rw [exchange_left, last_moves_links]
    cases hb : h.up a <;> simp [Equiv.swap_apply_def] <;> grind

/-- Putting a timer that is not in the tree into the place of one that is. -/
lemma complete_replace (hc : Complete h.toLinks l) (helem : elem ∈ l) (hnew : to_insert ∉ l) :
    Complete (h.replace elem to_insert).toLinks (l.map (Equiv.swap elem to_insert)) := by
  obtain ⟨hl, hr, hu⟩ := hc.linked
  have hne : to_insert ≠ elem := by
    rintro rfl
    exact hnew helem
  refine hc.map _ ?_ ?_ ?_
  · intro a ha
    rw [replace, last_moves_links]
    cases hb : h.left a <;> simp [Equiv.swap_apply_def] <;> grind
  · intro a ha
    rw [replace, last_moves_links]
    cases hb : h.right a <;> simp [Equiv.swap_apply_def] <;> grind
  · intro a ha
    rw [replace, last_moves_links]
    cases hb : h.up a <;> simp [Equiv.swap_apply_def] <;> grind

lemma sameData_exchange_up : SameData h (h.exchange_up elem parent) := by
  rw [exchange_up]
  refine sameData_last_moves (sameData_adopt (sameData_adopt (sameData_relink ?_)))
  split
  · exact sameData_adopt (.refl h)
  · exact sameData_adopt (.refl h)

lemma sameData_exchange_right : SameData h (h.exchange_right elem right) :=
  sameData_last_moves (sameData_adopt (sameData_adopt (sameData_adopt
    (sameData_relink (.refl h)))))

lemma sameData_exchange_left : SameData h (h.exchange_left elem left) :=
  sameData_last_moves (sameData_adopt (sameData_adopt (sameData_adopt
    (sameData_relink (.refl h)))))

lemma sameData_replace : SameData h (h.replace elem to_insert) :=
  sameData_last_moves (sameData_adopt (sameData_adopt (sameData_relink (.refl h))))

end Exchanges

end TimerHeap

end EspLinux.Ser2net
