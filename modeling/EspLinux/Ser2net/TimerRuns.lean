import EspLinux.Ser2net.TimerHeap

/-!
# ser2net: runs of the timer heap

What the calls make of the heap of timers.  A timer that is sent up or down comes to rest in a heap
(`Settles`), the walks find the place behind the last timer and the timer before it, and so adding
and removing a timer keep the heap, and every call does.
-/

namespace EspLinux.Ser2net

open Lib

/-- A time, to be compared. -/
def Timeval.key (tv : Timeval) : ℤ ×ₗ ℤ := toLex (tv.tv_sec, tv.tv_usec)

lemma cmp_timeval_neg {tv1 tv2 : Timeval} : cmp_timeval tv1 tv2 < 0 ↔ tv1.key < tv2.key := by
  rw [cmp_timeval, Timeval.key, Timeval.key, Prod.Lex.toLex_lt_toLex]
  grind

lemma cmp_timeval_pos {tv1 tv2 : Timeval} : 0 < cmp_timeval tv1 tv2 ↔ tv2.key < tv1.key := by
  rw [cmp_timeval, Timeval.key, Timeval.key, Prod.Lex.toLex_lt_toLex]
  grind

namespace TimerHeap

variable {α : Type} [DecidableEq α]

/-! ## The shape of the heap -/

/-- The timers `l` are linked to a complete tree, level by level, and the selector points to the
first and to the last of them. -/
structure Shape (h : TimerHeap α) (l : List α) : Prop where
  complete : Complete h.toLinks l
  top : h.timer_top = nth l 1
  last : h.timer_last = nth l l.length

section Shapes

variable {h h' : TimerHeap α} {l : List α} {k c : ℕ} {elem parent right left to_insert : α}

omit [DecidableEq α] in
lemma Shape.map (hs : Shape h l) (σ : Equiv.Perm α) (hc : Complete h'.toLinks (l.map σ))
    (htop : h'.timer_top = h.timer_top.map σ) (hlast : h'.timer_last = h.timer_last.map σ) :
    Shape h' (l.map σ) :=
  ⟨hc, by rw [htop, hs.top, nth_map], by rw [hlast, hs.last, nth_map, List.length_map]⟩

omit [DecidableEq α] in
/-- Only the top has no parent. -/
lemma Shape.top_iff (hs : Shape h l) (ha : elem ∈ l) :
    h.timer_top = some elem ↔ h.up elem = none := by
  obtain ⟨k, hk⟩ := exists_nth_of_mem ha
  have hrange := nth_range hk
  rw [hs.top, hs.complete.up hk]
  constructor
  · intro h1
    obtain rfl := hs.complete.inj h1 hk
    rfl
  · intro hnone
    obtain rfl : k = 1 := by
      by_contra hne
      obtain ⟨p, hp⟩ := exists_nth (l := l) (k := k / 2) (by omega) (by omega)
      rw [hp] at hnone
      cases hnone
    exact hk

omit [DecidableEq α] in
/-- The last one has no child. -/
lemma Shape.last_ne (hs : Shape h l) (ha : elem ∈ l) (hup : h.up elem = some parent) :
    h.timer_last ≠ some parent := by
  obtain ⟨k, hk⟩ := exists_nth_of_mem ha
  have hrange := nth_range hk
  rw [hs.complete.up hk] at hup
  rw [hs.last]
  intro hlast
  have := hs.complete.inj hup hlast
  omega

lemma Shape.exchange_up (hs : Shape h l) (helem : elem ∈ l) (hup : h.up elem = some parent) :
    Shape (h.exchange_up elem parent) (l.map (Equiv.swap elem parent)) := by
  obtain ⟨hl, hr, hu⟩ := hs.complete.linked
  obtain ⟨hparent, hne, -, -⟩ := hu elem helem parent hup
  have htop := hs.top_iff hparent
  have htop' := hs.top_iff helem
  have hlast := hs.last_ne helem hup
  refine hs.map _ (complete_exchange_up hs.complete helem hup) ?_ ?_
  · rw [TimerHeap.exchange_up]
    split
    · cases hb : h.timer_top <;> simp [Equiv.swap_apply_def] <;> grind
    · cases hb : h.timer_top <;> simp [Equiv.swap_apply_def] <;> grind
  · rw [TimerHeap.exchange_up]
    split
    · cases hb : h.timer_last <;> simp [Equiv.swap_apply_def] <;> grind
    · cases hb : h.timer_last <;> simp [Equiv.swap_apply_def] <;> grind

lemma Shape.exchange_right (hs : Shape h l) (helem : elem ∈ l)
    (hright : h.right elem = some right) :
    Shape (h.exchange_right elem right) (l.map (Equiv.swap elem right)) := by
  obtain ⟨hl, hr, hu⟩ := hs.complete.linked
  obtain ⟨hmem, hup, -⟩ := hr elem helem right hright
  obtain ⟨-, hne, -, -⟩ := hu right hmem elem hup
  have htop := hs.top_iff helem
  have htop' := hs.top_iff hmem
  have hlast := hs.last_ne hmem hup
  refine hs.map _ (complete_exchange_right hs.complete helem hright) ?_ ?_
  · rw [TimerHeap.exchange_right]
    cases hb : h.timer_top <;> simp [Equiv.swap_apply_def] <;> grind
  · rw [TimerHeap.exchange_right]
    cases hb : h.timer_last <;> simp [Equiv.swap_apply_def] <;> grind

lemma Shape.exchange_left (hs : Shape h l) (helem : elem ∈ l) (hleft : h.left elem = some left) :
    Shape (h.exchange_left elem left) (l.map (Equiv.swap elem left)) := by
  obtain ⟨hl, hr, hu⟩ := hs.complete.linked
  obtain ⟨hmem, hup, -⟩ := hl elem helem left hleft
  obtain ⟨-, hne, -, -⟩ := hu left hmem elem hup
  have htop := hs.top_iff helem
  have htop' := hs.top_iff hmem
  have hlast := hs.last_ne hmem hup
  refine hs.map _ (complete_exchange_left hs.complete helem hleft) ?_ ?_
  · rw [TimerHeap.exchange_left]
    cases hb : h.timer_top <;> simp [Equiv.swap_apply_def] <;> grind
  · rw [TimerHeap.exchange_left]
    cases hb : h.timer_last <;> simp [Equiv.swap_apply_def] <;> grind

lemma Shape.replace (hs : Shape h l) (helem : elem ∈ l) (hnew : to_insert ∉ l) :
    Shape (h.replace elem to_insert) (l.map (Equiv.swap elem to_insert)) := by
  have hmem : ∀ {k a}, nth l k = some a → a ≠ to_insert := by
    rintro k a hk rfl
    exact hnew (mem_of_nth hk)
  have htop := hs.top_iff helem
  refine hs.map _ (complete_replace hs.complete helem hnew) ?_ ?_
  · rw [TimerHeap.replace]
    cases hb : h.timer_top with
    | none =>
      simp
      grind
    | some a =>
      have := hmem (hs.top.symm.trans hb)
      simp [Equiv.swap_apply_def]
      grind
  · rw [TimerHeap.replace]
    cases hb : h.timer_last with
    | none => simp [hb]
    | some a =>
      have := hmem (hs.last.symm.trans hb)
      simp [Equiv.swap_apply_def]
      grind

end Shapes

/-! ## The order of the heap -/

/-- When a timer goes off. -/
def key (h : TimerHeap α) (t : α) : ℤ ×ₗ ℤ := (h.timeout t).key

/-- A heap of the timers `l`, where nothing but the links has changed. -/
def Settles (h : TimerHeap α) (l : List α) (r : Option (TimerHeap α)) : Prop :=
  ∃ h' l', r = some h' ∧ Shape h' l' ∧ HeapOrdered h'.key l' ∧ l'.Perm l ∧ SameData h h'

section Orders

variable {h h' : TimerHeap α} {l : List α} {k n : ℕ} {elem : α}

omit [DecidableEq α] in
lemma SameData.key (hd : SameData h h') : h'.key = h.key := by
  funext t
  rw [TimerHeap.key, TimerHeap.key, hd.1]

omit [DecidableEq α] in
lemma Settles.trans {l₀ : List α} {r : Option (TimerHeap α)} (hr : Settles h' l r)
    (hd : SameData h h') (hl : l.Perm l₀) : Settles h l₀ r := by
  obtain ⟨h'', l', hrun, hs, ho, hl', hd'⟩ := hr
  exact ⟨h'', l', hrun, hs, ho, hl'.trans hl, hd.trans hd'⟩

theorem send_up_settles (hs : Shape h l) (ho : UpTo h.key l k) (hk : nth l k = some elem)
    (hn : k < n) : Settles h l (send_up elem n h) := by
  induction n generalizing h l k with
  | zero => omega
  | succ n ih =>
    have hdone : (∀ p, nth l (k / 2) = some p → h.key p ≤ h.key elem) →
        Settles h l (some h) := fun hle =>
      ⟨h, l, rfl, hs, ho.done hk hle, .refl l, .refl h⟩
    rw [send_up, hs.complete.up hk]
    cases hp : nth l (k / 2) with
    | none => exact hdone fun p hp' => by rw [hp] at hp'; cases hp'
    | some parent =>
      dsimp only
      by_cases hlt : cmp_timeval (h.timeout elem) (h.timeout parent) < 0
      · rw [if_pos hlt]
        have hup : h.up elem = some parent := (hs.complete.up hk).trans hp
        have hpos := nth_range hp
        have hd : SameData h (h.exchange_up elem parent) := sameData_exchange_up
        have hnext : nth (l.map (Equiv.swap elem parent)) (k / 2) = some elem := by
          rw [nth_map, hp, Option.map_some, Equiv.swap_apply_right]
        have horder := ho.swap hs.complete.nodup hk hp (cmp_timeval_neg.mp hlt)
        rw [← hd.key] at horder
        exact (ih (hs.exchange_up (mem_of_nth hk) hup) horder hnext (by omega)).trans hd
          (perm_map_swap hs.complete.nodup (mem_of_nth hk) (mem_of_nth hp))
      · rw [if_neg hlt]
        refine hdone fun p hp' => ?_
        rw [hp] at hp'
        cases hp'
        rw [cmp_timeval_neg, not_lt] at hlt
        exact hlt

/-- A turn of the loop of `send_down`: the timer number `k` is exchanged with a child, or it is not
later than its children. -/
def Turns (h : TimerHeap α) (l : List α) (k : ℕ) (elem : α) (r : Option (TimerHeap α)) : Prop :=
  (∃ c b h', r = some h' ∧ nth l c = some b ∧ c / 2 = k ∧
    Shape h' (l.map (Equiv.swap elem b)) ∧ DownFrom h'.key (l.map (Equiv.swap elem b)) c ∧
    SameData h h') ∨
  r = none ∧ ∀ i x, i / 2 = k → nth l i = some x → h.key elem ≤ h.key x

lemma down_turn_turns (hs : Shape h l) (ho : DownFrom h.key l k) (hk : nth l k = some elem)
    {left : α} (hleft : nth l (2 * k) = some left) :
    Turns h l k elem (h.down_turn elem left) := by
  have helem := mem_of_nth hk
  have hchild : h.left elem = some left := (hs.complete.left hk).trans hleft
  have hright := hs.complete.right hk
  have hchildren : ∀ {i x}, i / 2 = k → nth l i = some x →
      x = left ∨ nth l (2 * k + 1) = some x := by
    intro i x hhalf hi
    rcases Nat.mod_two_eq_zero_or_one i with heven | hodd
    · obtain rfl : i = 2 * k := by omega
      exact .inl (Option.some.inj (hi.symm.trans hleft))
    · obtain rfl : i = 2 * k + 1 := by omega
      exact .inr hi
  -- what follows when one child is found not to be later than the other one
  have hcompare : ∀ {c b h'}, nth l c = some b → c / 2 = k →
      (∀ i x, i / 2 = k → nth l i = some x → h.key b ≤ h.key x) →
      Shape h' (l.map (Equiv.swap elem b)) → SameData h h' →
      h.down_turn elem left =
        (if 0 < cmp_timeval (h.timeout elem) (h.timeout b) then some h' else none) →
      Turns h l k elem (h.down_turn elem left) := by
    intro c b h' hc hhalf hleast hs' hd hturn
    by_cases hlt : 0 < cmp_timeval (h.timeout elem) (h.timeout b)
    · have horder := ho.swap hs.complete.nodup hk hc hhalf hleast (cmp_timeval_pos.mp hlt).le
      rw [if_pos hlt] at hturn
      rw [← hd.key] at horder
      exact .inl ⟨c, b, h', hturn, hc, hhalf, hs', horder, hd⟩
    · rw [if_neg hlt] at hturn
      rw [cmp_timeval_pos, not_lt] at hlt
      exact .inr ⟨hturn, fun i x hhalf hi => hlt.trans (hleast i x hhalf hi)⟩
  cases hr : nth l (2 * k + 1) with
  | none =>
    refine hcompare hleft (by omega) (fun i x hhalf hi => ?_) (hs.exchange_left helem hchild)
      sameData_exchange_left (by rw [down_turn, hright, hr])
    rcases hchildren hhalf hi with rfl | hx
    · exact le_rfl
    · rw [hr] at hx
      cases hx
  | some right =>
    by_cases hgt : 0 < cmp_timeval (h.timeout left) (h.timeout right)
    · refine hcompare hr (by omega) (fun i x hhalf hi => ?_)
        (hs.exchange_right helem (hright.trans hr)) sameData_exchange_right
        (by rw [down_turn, hright, hr]; exact if_pos hgt)
      rcases hchildren hhalf hi with rfl | hx
      · exact (cmp_timeval_pos.mp hgt).le
      · rw [Option.some.inj (hr.symm.trans hx)]
    · refine hcompare hleft (by omega) (fun i x hhalf hi => ?_) (hs.exchange_left helem hchild)
        sameData_exchange_left (by rw [down_turn, hright, hr]; exact if_neg hgt)
      rcases hchildren hhalf hi with rfl | hx
      · exact le_rfl
      · rw [Option.some.inj (hx.symm.trans hr)]
        rw [cmp_timeval_pos, not_lt] at hgt
        exact hgt

theorem send_down_settles (hs : Shape h l) (ho : DownFrom h.key l k) (hk : nth l k = some elem)
    (hn : l.length < k + n) : Settles h l (send_down elem n h) := by
  induction n generalizing h l k with
  | zero =>
    have := (nth_range hk).2
    omega
  | succ n ih =>
    have hrange := nth_range hk
    rw [send_down, hs.complete.left hk]
    cases hleft : nth l (2 * k) with
    | none =>
      refine ⟨h, l, rfl, hs, ho.done hk fun i x hhalf hi => ?_, .refl l, .refl h⟩
      have := (nth_range hi).2
      obtain ⟨y, hy⟩ := exists_nth (l := l) (k := 2 * k) (by omega) (by omega)
      rw [hleft] at hy
      cases hy
    | some left =>
      dsimp only
      rcases down_turn_turns hs ho hk hleft with
        ⟨c, b, h', hturn, hc, hhalf, hs', ho', hd⟩ | ⟨hturn, hleast⟩
      · rw [hturn]
        have hnext : nth (l.map (Equiv.swap elem b)) c = some elem := by
          rw [nth_map, hc, Option.map_some, Equiv.swap_apply_right]
        exact (ih hs' ho' hnext (by rw [List.length_map]; omega)).trans hd
          (perm_map_swap hs.complete.nodup (mem_of_nth hk) (mem_of_nth hc))
      · rw [hturn]
        exact ⟨h, l, rfl, hs, ho.done hk hleast, .refl l, .refl h⟩

end Orders
/-! ## The places behind and before the last one -/

section Places

variable {h : TimerHeap α} {l : List α} {n : ℕ} {curr : α}

/-- The link behind the last timer is one of the node with half the number. -/
theorem find_next_pos_spec (hc : Complete h.toLinks l) (hlast : nth l l.length = some curr)
    (hn : l.length ≤ n) : ∃ side parent, h.find_next_pos n curr = some (side, parent) ∧
      nth l ((l.length + 1) / 2) = some parent ∧ side.bit = (l.length + 1) % 2 := by
  have hpos := (nth_range hlast).1
  rcases Nat.mod_two_eq_zero_or_one l.length with heven | hodd
  · obtain ⟨u, hu⟩ := exists_nth (l := l) (k := l.length / 2) (by omega) (by omega)
    have hleft : h.left u = some curr := by
      rw [hc.left hu, Nat.mul_div_cancel' (by omega), hlast]
    refine ⟨.right, u, ?_, ?_, ?_⟩
    · rw [find_next_pos, hc.up hlast, hu]
      exact if_pos hleft
    · rw [show (l.length + 1) / 2 = l.length / 2 by omega, hu]
    · rw [Side.bit]
      omega
  · have hwalk : h.find_next_pos n curr =
        (climb h.toLinks .right n curr 0).bind (find_next_pos.go_on h) := by
      rw [find_next_pos, hc.up hlast]
      cases hu : nth l (l.length / 2) with
      | none => rfl
      | some u =>
        refine if_neg fun hleft => ?_
        rw [hc.left hu] at hleft
        have := hc.inj hleft hlast
        omega
    obtain ⟨c, j, v, hclimb, hj, heq, hend⟩ := climb_spec (d := .right) (u := 0) hc hlast hn
    rw [Side.bit] at heq hend
    have hhalf : (l.length + 1) / 2 * 2 = (j + 1) * 2 ^ v := by
      rw [← heq]
      omega
    rw [hwalk, hclimb, Option.bind_some, find_next_pos.go_on, hc.up hj, Nat.zero_add]
    obtain ⟨p, hp⟩ := exists_nth (l := l) (k := (l.length + 1) / 2) (by omega) (by omega)
    refine ⟨.left, p, ?_, hp, by rw [Side.bit]; omega⟩
    rcases hend with rfl | ⟨hj2, hjeven⟩
    · have hdown := descend_spec (d := .left) (v := v) (m := (l.length + 1) / 2) hc hj
        (by rw [Side.bit]; omega) (by omega)
      rw [hp] at hdown
      simp [hdown]
    · obtain ⟨u, hu⟩ := exists_nth (l := l) (k := j / 2) (by omega)
        (by have := (nth_range hj).2; omega)
      obtain ⟨v, rfl⟩ : ∃ w, v = w + 1 := by
        refine Nat.exists_eq_succ_of_ne_zero fun hv => ?_
        rw [hv] at hhalf
        omega
      have hhalf' : (l.length + 1) / 2 = (j + 1) * 2 ^ v := by
        rw [pow_succ, ← mul_assoc] at hhalf
        omega
      obtain ⟨s, hs⟩ := exists_nth (l := l) (k := j + 1) (by omega) (by
        have := Nat.le_mul_of_pos_right (j + 1) (Nat.two_pow_pos v)
        omega)
      have hdown := descend_spec (d := .left) (v := v) (m := (l.length + 1) / 2) hc hs
        (by rw [Side.bit]; omega) (by omega)
      have hright : h.right u = some s := by
        rw [hc.right hu, show 2 * (j / 2) + 1 = j + 1 by omega, hs]
      rw [hp] at hdown
      rw [hu]
      simp [hright, hdown]

/-- The timer before the last one. -/
theorem find_prev_elem_spec (hc : Complete h.toLinks l) (hlast : nth l l.length = some curr)
    (hn : l.length ≤ n) (htwo : 2 ≤ l.length) :
    h.find_prev_elem n curr = some (nth l (l.length - 1)) := by
  rcases Nat.mod_two_eq_zero_or_one l.length with heven | hodd
  · have hwalk : h.find_prev_elem n curr =
        (climb h.toLinks .left n curr 0).bind (find_prev_elem.go_on h) := by
      rw [find_prev_elem, hc.up hlast]
      cases hu : nth l (l.length / 2) with
      | none => rfl
      | some u =>
        refine if_neg fun hright => ?_
        rw [hc.right hu] at hright
        have := hc.inj hright hlast
        omega
    obtain ⟨c, j, v, hclimb, hj, heq, hend⟩ := climb_spec (d := .left) (u := 0) hc hlast hn
    rw [hwalk, hclimb, Option.bind_some, find_prev_elem.go_on.eq_def]
    dsimp only
    rw [hc.up hj, Nat.zero_add]
    rw [Side.bit] at heq hend
    obtain ⟨p, hp⟩ := exists_nth (l := l) (k := l.length - 1) (by omega) (by omega)
    rcases hend with rfl | ⟨hj2, hjodd⟩
    · obtain ⟨v, rfl⟩ : ∃ w, v = w + 1 := by
        refine Nat.exists_eq_succ_of_ne_zero fun hv => ?_
        rw [hv] at heq
        omega
      have hdown := descend_spec (d := .right) (v := v) (m := l.length - 1) hc hj
        (by rw [pow_succ] at heq; rw [Side.bit]; omega) (by omega)
      rw [hp] at hdown
      simp [hdown, hp]
    · obtain ⟨u, hu⟩ := exists_nth (l := l) (k := j / 2) (by omega)
        (by have := (nth_range hj).2; omega)
      obtain ⟨s, hs⟩ := exists_nth (l := l) (k := j - 1) (by omega)
        (by have := (nth_range hj).2; omega)
      have hleft : h.left u = some s := by
        rw [hc.left hu, show 2 * (j / 2) = j - 1 by omega, hs]
      have hdown := descend_spec (d := .right) (v := v) (m := l.length - 1) hc hs
        (by rw [Side.bit, Nat.sub_add_cancel (by omega), Nat.sub_add_cancel (by omega)]; omega)
        (by omega)
      rw [hp] at hdown
      rw [hu]
      simp [hleft, hdown, hp]
  · obtain ⟨u, hu⟩ := exists_nth (l := l) (k := l.length / 2) (by omega) (by omega)
    have hright : h.right u = some curr := by
      rw [hc.right hu, show 2 * (l.length / 2) + 1 = l.length by omega, hlast]
    rw [find_prev_elem, hc.up hlast, hu]
    refine (if_pos hright).trans ?_
    rw [hc.left hu, show 2 * (l.length / 2) = l.length - 1 by omega]

end Places

/-! ## Adding and removing -/

section Heaps

variable {h h' : TimerHeap α} {l : List α} {n k : ℕ} {elem parent to_insert : α} {side : Side}

omit [DecidableEq α] in
lemma HeapOrdered.same (ho : HeapOrdered h.key l) (hd : SameData h h') : HeapOrdered h'.key l := by
  rw [hd.key]
  exact ho

/-- A timer without links is hung behind the last one. -/
lemma complete_hang (hc : Complete h.toLinks l) (helem : elem ∉ l) (hleft : h.left elem = none)
    (hright : h.right elem = none) (hp : nth l ((l.length + 1) / 2) = some parent)
    (hside : side.bit = (l.length + 1) % 2) :
    Complete ((h.hang side parent elem).set_up elem (some parent)).toLinks (l ++ [elem]) := by
  have hparent : parent ≠ elem := by
    rintro rfl
    exact helem (mem_of_nth hp)
  have hne : ∀ {k b}, nth l k = some b → (b = parent ↔ k = (l.length + 1) / 2) := by
    intro k b hk
    constructor
    · rintro rfl
      exact hc.inj hk hp
    · rintro rfl
      exact Option.some.inj (hk.symm.trans hp)
  refine hc.append helem ?_ ?_ ?_ ?_ ?_ ?_
  · intro k b hk
    cases side with
    | left =>
      rw [Side.bit] at hside
      rw [hang, set_up_left, set_left_left]
      exact if_congr ((hne hk).trans (by omega)) rfl rfl
    | right =>
      rw [Side.bit] at hside
      rw [hang, set_up_left, set_right_left, if_neg (by omega)]
  · intro k b hk
    cases side with
    | left =>
      rw [Side.bit] at hside
      rw [hang, set_up_right, set_left_right, if_neg (by omega)]
    | right =>
      rw [Side.bit] at hside
      rw [hang, set_up_right, set_right_right]
      exact if_congr ((hne hk).trans (by omega)) rfl rfl
  · intro b hb
    have hbe : b ≠ elem := fun heq => helem (heq ▸ hb)
    rw [set_up_up, if_neg hbe]
    cases side <;> rfl
  · cases side with
    | left => rw [hang, set_up_left, set_left_left, if_neg hparent.symm, hleft]
    | right => rw [hang, set_up_left, set_right_left, hleft]
  · cases side with
    | left => rw [hang, set_up_right, set_left_right, hright]
    | right => rw [hang, set_up_right, set_right_right, if_neg hparent.symm, hright]
  · rw [set_up_up, if_pos rfl, hp]

theorem add_to_heap_settles (hs : Shape h l) (ho : HeapOrdered h.key l) (helem : elem ∉ l)
    (hn : l.length + 2 ≤ n) : Settles h (l ++ [elem]) (h.add_to_heap n elem) := by
  obtain ⟨h₀, hh₀⟩ : ∃ h₀, h₀ = ((h.set_left elem none).set_right elem none).set_up elem none :=
    ⟨_, rfl⟩
  have hne : ∀ {b}, b ∈ l → b ≠ elem := fun hb heq => helem (heq ▸ hb)
  have hd : SameData h h₀ := by
    rw [hh₀]
    exact .refl h
  have hleft : h₀.left elem = none := by simp [hh₀]
  have hright : h₀.right elem = none := by simp [hh₀]
  have hc : Complete h₀.toLinks l := by
    refine hs.complete.congr ?_ ?_ ?_
    · intro b hb
      simp [hh₀, hne hb]
    · intro b hb
      simp [hh₀, hne hb]
    · intro b hb
      simp [hh₀, hne hb]
  have htop : h₀.timer_top = nth l 1 := by
    rw [← hs.top, hh₀]
    rfl
  have hlast : h₀.timer_last = nth l l.length := by
    rw [← hs.last, hh₀]
    rfl
  rw [add_to_heap, ← hh₀]
  dsimp only
  cases l with
  | nil =>
    refine ⟨{ h₀ with timer_top := some elem, timer_last := some elem }, [elem],
      by rw [htop]; rfl, ⟨?_, rfl, rfl⟩, ?_, .refl _, hd⟩
    · refine @Complete.append _ h₀.toLinks _ [] elem hc helem ?_ ?_ ?_ hleft hright ?_
      · intro k b hk
        exact absurd (nth_range hk) (by rw [List.length_nil]; omega)
      · intro k b hk
        exact absurd (nth_range hk) (by rw [List.length_nil]; omega)
      · intro b hb
        exact absurd hb List.not_mem_nil
      · simp [hh₀]
    · intro i a b hi hb
      have := nth_range hi
      have := nth_range hb
      rw [List.length_singleton] at *
      omega
  | cons r l =>
    obtain ⟨last, hl⟩ := exists_nth (l := r :: l) (k := (r :: l).length)
      (by rw [List.length_cons]; omega) le_rfl
    obtain ⟨side, parent, hfind, hp, hside⟩ := find_next_pos_spec hc hl (by omega : _ ≤ n)
    have hcomplete := complete_hang hc helem hleft hright hp hside
    have hshape : Shape { (h₀.hang side parent elem).set_up elem (some parent) with
        timer_last := some elem } (r :: l ++ [elem]) := by
      refine ⟨hcomplete, ?_, ?_⟩
      · refine Eq.trans ?_ htop
        cases side <;> rfl
      · rw [List.length_append, List.length_singleton, nth_append_length]
    have hd' : SameData h { (h₀.hang side parent elem).set_up elem (some parent) with
        timer_last := some elem } := by
      cases side <;> exact hd
    have horder : UpTo h.key (r :: l ++ [elem]) ((r :: l).length + 1) := ho.append
    rw [← hd'.key] at horder
    rw [htop, nth_one, List.head?_cons, hlast, hl]
    dsimp only [Option.bind_eq_bind, Option.bind_some]
    rw [hfind]
    dsimp only [Option.bind_some]
    by_cases hlt : cmp_timeval
        (((h₀.hang side parent elem).set_up elem (some parent)).timeout elem)
        (((h₀.hang side parent elem).set_up elem (some parent)).timeout parent) < 0
    · rw [if_pos hlt]
      exact (send_up_settles hshape horder nth_append_length (by omega)).trans hd' (.refl _)
    · rw [if_neg hlt]
      refine ⟨_, _, rfl, hshape, horder.done nth_append_length fun p hp' => ?_, .refl _, hd'⟩
      rw [nth_append_of_le (by omega), hp] at hp'
      cases hp'
      rw [cmp_timeval_neg, not_lt] at hlt
      exact hlt

/-- The last timer is taken away. -/
lemma shape_unlink {b u : α} (hs : Shape h (l ++ [b])) (hne : l ≠ [])
    (hu : nth (l ++ [b]) ((l.length + 1) / 2) = some u) :
    Shape (({ h with timer_last := nth l l.length } : TimerHeap α).unlink u b) l := by
  have hlength : 1 ≤ l.length := List.length_pos_iff.mpr hne
  have hb : nth (l ++ [b]) (l.length + 1) = some b := nth_append_length
  have hchild : ∀ {k c}, nth l k = some c → (c = u ↔ k = (l.length + 1) / 2) := by
    intro k c hk
    rw [← nth_append_of_le (a := b) (nth_range hk).2] at hk
    constructor
    · rintro rfl
      exact hs.complete.inj hk hu
    · rintro rfl
      exact Option.some.inj (hk.symm.trans hu)
  have hleft : h.left u = some b ↔ 2 * ((l.length + 1) / 2) = l.length + 1 := by
    rw [hs.complete.left hu]
    constructor
    · intro h1
      exact hs.complete.inj h1 hb
    · intro h1
      rw [h1, hb]
  have hlinks : ∀ {k c}, nth l k = some c →
      (({ h with timer_last := nth l l.length } : TimerHeap α).unlink u b).left c =
        (if 2 * k = l.length + 1 then none else h.left c) ∧
      (({ h with timer_last := nth l l.length } : TimerHeap α).unlink u b).right c =
        (if 2 * k + 1 = l.length + 1 then none else h.right c) ∧
      (({ h with timer_last := nth l l.length } : TimerHeap α).unlink u b).up c = h.up c := by
    intro k c hk
    rw [unlink]
    split
    · rename_i hl
      have heven := hleft.mp hl
      rw [set_left_left, set_left_right, set_left_up, if_neg (by omega : ¬2 * k + 1 = _)]
      exact ⟨if_congr ((hchild hk).trans (by omega)) rfl rfl, rfl, rfl⟩
    · rename_i hl
      have hodd := mt hleft.mpr hl
      rw [set_right_left, set_right_right, set_right_up, if_neg (by omega : ¬2 * k = _)]
      exact ⟨rfl, if_congr ((hchild hk).trans (by omega)) rfl rfl, rfl⟩
  refine ⟨hs.complete.of_append (fun k c hk => (hlinks hk).1) (fun k c hk => (hlinks hk).2.1)
    fun c hc => ?_, ?_, ?_⟩
  · obtain ⟨k, hk⟩ := exists_nth_of_mem hc
    exact (hlinks hk).2.2
  · refine Eq.trans ?_ (hs.top.trans (nth_append_of_le hlength))
    rw [unlink]
    split <;> rfl
  · rw [unlink]
    split <;> rfl

/-- A timer that takes the place of another one is sent up or down. -/
lemma propagate_settles (hs : Shape h l) (ho : HeapOrdered h.key l) (helem : elem ∈ l)
    (hnew : to_insert ∉ l) (hn : l.length < n) :
    Settles h (l.map (Equiv.swap elem to_insert))
      (propagate n (h.replace elem to_insert) to_insert) := by
  obtain ⟨k, hk⟩ := exists_nth_of_mem helem
  have hnodup := hs.complete.nodup
  have hs' := hs.replace helem hnew
  have hd : SameData h (h.replace elem to_insert) := sameData_replace
  have hk' : nth (l.map (Equiv.swap elem to_insert)) k = some to_insert := by
    rw [nth_map_swap_new hnodup hk hnew, if_pos rfl]
  have hrange := nth_range hk
  have hup : (h.replace elem to_insert).up to_insert = nth l (k / 2) := by
    rw [hs'.complete.up hk', nth_map_swap_new hnodup hk hnew, if_neg (by omega)]
  have hdown : (∀ p, nth l (k / 2) = some p → h.key p ≤ h.key to_insert) →
      Settles (h.replace elem to_insert) (l.map (Equiv.swap elem to_insert))
        (send_down to_insert n (h.replace elem to_insert)) := fun hle => by
    have horder := ho.replace_down hnodup hk hnew hle
    rw [← hd.key] at horder
    exact send_down_settles hs' horder hk' (by rw [List.length_map]; omega)
  refine Settles.trans ?_ hd (.refl _)
  rw [propagate, hup]
  cases hp : nth l (k / 2) with
  | none => exact hdown fun p hp' => by rw [hp] at hp'; cases hp'
  | some p =>
    dsimp only
    by_cases hlt : cmp_timeval ((h.replace elem to_insert).timeout to_insert)
        ((h.replace elem to_insert).timeout p) < 0
    · rw [if_pos hlt]
      rw [hd.1] at hlt
      have horder := ho.replace_up hnodup hk hnew hp (cmp_timeval_neg.mp hlt)
      rw [← hd.key] at horder
      exact send_up_settles hs' horder hk' (by omega)
    · rw [if_neg hlt]
      rw [hd.1, cmp_timeval_neg, not_lt] at hlt
      refine hdown fun q hq => ?_
      rw [hp] at hq
      cases hq
      exact hlt

theorem remove_from_heap_settles (hs : Shape h l) (ho : HeapOrdered h.key l) (helem : elem ∈ l)
    (hn : l.length + 1 ≤ n) : Settles h (l.erase elem) (h.remove_from_heap n elem) := by
  obtain rfl | ⟨l, b, rfl⟩ := l.eq_nil_or_concat'
  · exact absurd helem List.not_mem_nil
  · rw [List.length_append, List.length_singleton] at hn
    have hb : nth (l ++ [b]) (l ++ [b]).length = some b := by
      rw [List.length_append, List.length_singleton, nth_append_length]
    have hup : h.up b = nth (l ++ [b]) ((l.length + 1) / 2) := by
      rw [hs.complete.up hb, List.length_append, List.length_singleton]
    rw [remove_from_heap, hs.last, hb]
    dsimp only [Option.bind_eq_bind, Option.bind_some]
    rw [hup]
    by_cases hnil : l = []
    · subst hnil
      obtain rfl := List.mem_singleton.mp helem
      refine ⟨{ h with timer_top := none, timer_last := none }, [], by simp, ⟨?_, rfl, rfl⟩, ?_, ?_,
        .refl h⟩
      · exact ⟨List.nodup_nil, fun hk => absurd (nth_range hk) (by rw [List.length_nil]; omega),
          fun hk => absurd (nth_range hk) (by rw [List.length_nil]; omega),
          fun hk => absurd (nth_range hk) (by rw [List.length_nil]; omega)⟩
      · intro i x y hi
        exact absurd (nth_range hi) (by rw [List.length_nil]; omega)
      · rw [List.nil_append, List.erase_cons_head]
    · have hlength : 1 ≤ l.length := List.length_pos_iff.mpr hnil
      obtain ⟨u, hu⟩ := exists_nth (l := l ++ [b]) (k := (l.length + 1) / 2) (by omega)
        (by rw [List.length_append, List.length_singleton]; omega)
      have hprev : h.find_prev_elem n b = some (nth l l.length) := by
        rw [find_prev_elem_spec hs.complete hb
          (by rw [List.length_append, List.length_singleton]; omega)
          (by rw [List.length_append, List.length_singleton]; omega),
          List.length_append, List.length_singleton, Nat.add_sub_cancel, nth_append_of_le le_rfl]
      obtain ⟨h₁, hh₁⟩ : ∃ h₁, ({ h with timer_last := nth l l.length } : TimerHeap α).unlink u b =
        h₁ := ⟨_, rfl⟩
      have hs₁ : Shape h₁ l := hh₁ ▸ shape_unlink hs hnil hu
      have hd₁ : SameData h h₁ := by
        rw [← hh₁, unlink]
        split <;> exact .refl h
      have ho₁ : HeapOrdered h₁.key l := by
        rw [hd₁.key]
        exact ho.of_append
      have hbl : b ∉ l := fun hmem =>
        (List.nodup_append.mp hs.complete.nodup).2.2 b hmem b (List.mem_singleton.mpr rfl) rfl
      rw [hu]
      dsimp only
      rw [hprev]
      dsimp only [Option.bind_some]
      rw [hh₁]
      by_cases heq : elem = b
      · rw [if_pos heq]
        refine ⟨h₁, l, rfl, hs₁, ho₁, ?_, hd₁⟩
        rw [heq, List.erase_append_right _ hbl, List.erase_cons_head, List.append_nil]
      · rw [if_neg heq]
        have hmem : elem ∈ l :=
          (List.mem_append.mp helem).resolve_right fun h1 => heq (List.mem_singleton.mp h1)
        exact (propagate_settles hs₁ ho₁ hmem hbl (by omega)).trans hd₁
          (perm_map_swap_new hs₁.complete.nodup hmem hbl)

end Heaps

/-! ## The calls -/

/-- Between two calls: the timers `l` are in the heap, level by level. -/
structure Running (h : TimerHeap α) (l : List α) : Prop where
  shape : Shape h l
  ordered : HeapOrdered h.key l
  in_heap : ∀ t, h.in_heap t = true ↔ t ∈ l

section Calls

variable {h : TimerHeap α} {l : List α} {n : ℕ} {timer : α}

/-- A timer is removed. -/
lemma Running.remove (hr : Running h l) (hmem : timer ∈ l) (hn : l.length + 1 ≤ n) :
    ∃ h' l', h.remove_from_heap n timer = some h' ∧ Shape h' l' ∧ HeapOrdered h'.key l' ∧
      Running { h' with in_heap := Function.update h'.in_heap timer false } l' ∧
      l'.Perm (l.erase timer) := by
  obtain ⟨h', l', hrun, hs, ho, hperm, hd⟩ :=
    remove_from_heap_settles hr.shape hr.ordered hmem hn
  refine ⟨h', l', hrun, hs, ho, ⟨⟨hs.complete, hs.top, hs.last⟩, ho, fun t => ?_⟩, hperm⟩
  rw [hperm.mem_iff, hr.shape.complete.nodup.mem_erase_iff, ← hr.in_heap, ← hd.2]
  simp only [Function.update_apply]
  split
  · rename_i heq
    exact iff_of_false (by simp) fun h1 => h1.1 heq
  · rename_i hne
    exact (and_iff_right hne).symm

/-- A timer that is not in the heap is given its timeout and added. -/
lemma Running.add (timeout : Timeval) (hs : Shape h l) (ho : HeapOrdered h.key l)
    (hin : ∀ t, t ≠ timer → (h.in_heap t = true ↔ t ∈ l)) (hmem : timer ∉ l)
    (hn : l.length + 2 ≤ n) :
    ∃ h' l', ({ h with timeout := Function.update h.timeout timer timeout } :
        TimerHeap α).add_to_heap n timer = some h' ∧
      Running { h' with in_heap := Function.update h'.in_heap timer true } l' ∧
      l'.Perm (l ++ [timer]) := by
  have ho : HeapOrdered ({ h with timeout := Function.update h.timeout timer timeout } :
      TimerHeap α).key l := by
    have hsame : ∀ t ∈ l, Function.update h.timeout timer timeout t = h.timeout t := by
      intro t ht
      refine Function.update_of_ne ?_ _ _
      rintro rfl
      exact hmem ht
    intro i a b hi hb
    change (Function.update h.timeout timer timeout b).key ≤
      (Function.update h.timeout timer timeout a).key
    rw [hsame a (mem_of_nth hi), hsame b (mem_of_nth hb)]
    exact ho hi hb
  have hs : Shape ({ h with timeout := Function.update h.timeout timer timeout } : TimerHeap α) l :=
    ⟨hs.complete, hs.top, hs.last⟩
  obtain ⟨h', l', hrun, hs', ho', hperm, hd⟩ := add_to_heap_settles hs ho hmem hn
  refine ⟨h', l', hrun, ⟨⟨hs'.complete, hs'.top, hs'.last⟩, ho', fun t => ?_⟩, hperm⟩
  rw [hperm.mem_iff, List.mem_append, List.mem_singleton]
  simp only [Function.update_apply]
  split
  · rename_i heq
    exact iff_of_true rfl (.inr heq)
  · rename_i hne
    rw [hd.2]
    exact (hin t hne).trans (or_iff_left hne).symm

lemma sel_start_timer_running (timer : α) (timeout : Timeval) (hr : Running h l)
    (hn : l.length + 2 ≤ n) :
    ∃ h' l', h.sel_start_timer n timer timeout = some (0, h') ∧ Running h' l' ∧
      l'.length ≤ l.length + 1 := by
  rw [sel_start_timer]
  by_cases hin : h.in_heap timer = true
  · have hmem := (hr.in_heap timer).mp hin
    obtain ⟨h₁, l₁, hrun, hs, ho, hr₁, hperm⟩ := hr.remove (n := n) hmem (by omega)
    have hlength : l₁.length ≤ l.length := hperm.length_eq.trans_le (List.length_erase_le)
    have hnot : timer ∉ l₁ := fun h1 => hr.shape.complete.nodup.not_mem_erase (hperm.mem_iff.mp h1)
    have hothers : ∀ t, t ≠ timer → (h₁.in_heap t = true ↔ t ∈ l₁) := by
      intro t hne
      have hupdated : Function.update h₁.in_heap timer false t = true ↔ t ∈ l₁ := hr₁.in_heap t
      rwa [Function.update_of_ne hne] at hupdated
    obtain ⟨h₂, l₂, hadd, hr₂, hperm₂⟩ :=
      Running.add (n := n) timeout hs ho hothers hnot (by omega)
    refine ⟨_, l₂, ?_, hr₂, ?_⟩
    · rw [if_pos hin, hrun]
      dsimp only [Option.bind_eq_bind, Option.bind_some]
      rw [hadd]
      rfl
    · rw [hperm₂.length_eq, List.length_append, List.length_singleton]
      omega
  · have hmem := mt (hr.in_heap timer).mpr hin
    obtain ⟨h₂, l₂, hadd, hr₂, hperm₂⟩ :=
      Running.add (n := n) timeout hr.shape hr.ordered (fun t _ => hr.in_heap t) hmem
        (by omega)
    refine ⟨_, l₂, ?_, hr₂, ?_⟩
    · rw [if_neg hin]
      dsimp only [Option.bind_eq_bind, Option.bind_some]
      rw [hadd]
      rfl
    · rw [hperm₂.length_eq, List.length_append, List.length_singleton]

/-- Each call keeps the heap. -/
lemma call_running (hr : Running h l) (hn : l.length + 2 ≤ n) (c : TimerCall α) :
    ∃ h' l', h.call n c = some h' ∧ Running h' l' ∧ l'.length ≤ l.length + 1 := by
  cases c with
  | start timer timeout =>
    obtain ⟨h', l', hrun, hr', hlength⟩ :=
      sel_start_timer_running timer timeout hr hn
    exact ⟨h', l', by rw [call, hrun]; rfl, hr', hlength⟩
  | stop timer =>
    rw [call, sel_stop_timer]
    by_cases hin : h.in_heap timer = true
    · obtain ⟨h₁, l₁, hrun, -, -, hr₁, hperm⟩ :=
        hr.remove (n := n) ((hr.in_heap timer).mp hin) (by omega)
      refine ⟨_, l₁, ?_, hr₁, hperm.length_eq.trans_le (List.length_erase_le.trans (by omega))⟩
      rw [if_pos hin, hrun]
      rfl
    · exact ⟨h, l, by rw [if_neg hin]; rfl, hr, by omega⟩
  | expire now =>
    rw [call, expire]
    cases htop : h.timer_top with
    | none => exact ⟨h, l, rfl, hr, by omega⟩
    | some timer =>
      dsimp only
      split
      · have hmem : timer ∈ l := mem_of_nth (hr.shape.top.symm.trans htop)
        obtain ⟨h₁, l₁, hrun, -, -, hr₁, hperm⟩ := hr.remove (n := n) hmem (by omega)
        refine ⟨_, l₁, ?_, hr₁, hperm.length_eq.trans_le (List.length_erase_le.trans (by omega))⟩
        rw [hrun]
        rfl
      · exact ⟨h, l, rfl, hr, by omega⟩

/-- So does every run. -/
lemma run_running (hr : Running h l) (cs : List (TimerCall α))
    (hn : l.length + cs.length + 2 ≤ n) :
    ∃ h' l', run n h cs = some h' ∧ Running h' l' := by
  induction cs generalizing h l with
  | nil => exact ⟨h, l, rfl, hr⟩
  | cons c cs ih =>
    rw [List.length_cons] at hn
    obtain ⟨h₁, l₁, hcall, hr₁, hlength⟩ := call_running hr (n := n) (by omega) c
    obtain ⟨h₂, l₂, hrun, hr₂⟩ := ih hr₁ (by omega)
    exact ⟨h₂, l₂, by rw [run, hcall, Option.bind_some, hrun], hr₂⟩

end Calls

/-! ## Every run -/

/-- What the selector relies on: the timers `l`, level by level, are the nodes of a complete binary
tree; no timer goes off before the one above it; the first one is the earliest. -/
structure Correct (h : TimerHeap α) (l : List α) : Prop where
  tree : Complete h.toLinks l
  top : h.timer_top = l.head?
  last : h.timer_last = l.getLast?
  in_heap : ∀ t, h.in_heap t = true ↔ t ∈ l
  parent : ∀ t ∈ l, ∀ u, h.up t = some u → cmp_timeval (h.timeout u) (h.timeout t) ≤ 0
  earliest : ∀ top, h.timer_top = some top →
    ∀ t, h.in_heap t = true → cmp_timeval (h.timeout top) (h.timeout t) ≤ 0

omit [DecidableEq α] in
lemma Running.correct {h : TimerHeap α} {l : List α} (hr : Running h l) : Correct h l := by
  have hle : ∀ {t u}, h.key u ≤ h.key t → cmp_timeval (h.timeout u) (h.timeout t) ≤ 0 := by
    intro t u hkey
    rw [← not_lt, cmp_timeval_pos]
    exact not_lt.mpr hkey
  refine ⟨hr.shape.complete, hr.shape.top.trans nth_one, hr.shape.last.trans nth_length,
    hr.in_heap, ?_, ?_⟩
  · intro t ht u hu
    obtain ⟨k, hk⟩ := exists_nth_of_mem ht
    rw [hr.shape.complete.up hk] at hu
    exact hle (hr.ordered hk hu)
  · intro top htop t ht
    exact hle (hr.ordered.root_le (hr.shape.top.symm.trans htop) ((hr.in_heap t).mp ht))

/-- A selector without running timers.  Nobody has set the links and the timeouts of the timers. -/
def idle (links : Links α) (timeout : α → Timeval) : TimerHeap α :=
  { links with
    timeout := timeout
    in_heap := fun _ => false
    timer_top := none
    timer_last := none }

/-- **The heap of timers is correct** after every sequence of starts, restarts, stops and
expirations; the walks along the links use no NULL pointer, and the loops end. -/
theorem timer_heap_correct (links : Links α) (timeout : α → Timeval) (cs : List (TimerCall α))
    (n : ℕ)
    (hn : cs.length + 2 ≤ n) :
    ∃ h l, run n (idle links timeout) cs = some h ∧ Correct h l := by
  have hempty : Running (idle links timeout) [] := by
    refine ⟨⟨⟨List.nodup_nil, ?_, ?_, ?_⟩, rfl, rfl⟩, ?_, ?_⟩
    · exact fun hk => absurd (nth_range hk) (by rw [List.length_nil]; omega)
    · exact fun hk => absurd (nth_range hk) (by rw [List.length_nil]; omega)
    · exact fun hk => absurd (nth_range hk) (by rw [List.length_nil]; omega)
    · intro i a b hi
      exact absurd (nth_range hi) (by rw [List.length_nil]; omega)
    · intro t
      exact iff_of_false Bool.false_ne_true List.not_mem_nil
  obtain ⟨h, l, hrun, hr⟩ := run_running hempty cs (n := n) (by rw [List.length_nil]; omega)
  exact ⟨h, l, hrun, hr.correct⟩

/-- Five timers; one is started again, the parent of the last one is stopped, and one expires. -/
def five_timers : List (TimerCall ℕ) :=
  [.start 1 ⟨5, 0⟩, .start 2 ⟨3, 0⟩, .start 3 ⟨4, 500⟩, .start 4 ⟨4, 0⟩, .start 5 ⟨7, 0⟩,
    .start 2 ⟨9, 0⟩, .stop 1, .expire ⟨4, 100⟩]

example : (run 10 (idle ⟨fun _ => none, fun _ => none, fun _ => none⟩ fun _ => ⟨0, 0⟩)
    five_timers).map (fun h => [h.timer_top, h.timer_last, h.left 3, h.right 3, h.up 2]) =
      some [some 3, some 2, some 5, some 2, some 3] := by
  decide +kernel

theorem timer_heap_correct_five_timers : ∃ h l,
    run 10 (idle ⟨fun _ => none, fun _ => none, fun _ => none⟩ fun _ => ⟨0, 0⟩) five_timers =
      some h ∧ Correct h l :=
  timer_heap_correct _ _ five_timers 10 (by decide)

end TimerHeap

end EspLinux.Ser2net
