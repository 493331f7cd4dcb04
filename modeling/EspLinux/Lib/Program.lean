import Mathlib

/-!
# Programs over a set of operations

A procedure that works on a large state usually touches it through a few operations only.
`Program Op α` is such a procedure without its state: it performs operations of `Op` one after the
other, each chosen by the answers of those before, and returns an `α`.  A machine `exec` says what
one operation does to a state; `run` is the whole program.  What every operation keeps, every
program keeps (`run_keeps`), and a relation between two states that every operation respects is
respected by every program (`run_related`), so neither has to be proved program by program.

`Along G p s` says that each operation performed when `p` is run from `s` meets `G` in the state it
finds, and `All P p` that no operation of `p` can fail to meet `P`, whatever the answers.  `Safe`
adds to `Along` what the run ends in.
-/

namespace EspLinux.Lib

/-- A program over the operations `Op`, with results in `α`. -/
inductive Program (Op : Type → Type) (α : Type) : Type 1
  | ret (a : α) : Program Op α
  | call {β : Type} (o : Op β) (k : β → Program Op α) : Program Op α

/-- How a run goes: to its end, with a result and a state, or not. -/
inductive Outcome (ε σ α : Type)
  | done (a : α) (s : σ)
  | stopped (e : ε)

namespace Outcome

variable {ε σ τ α β : Type}

/-- The result and the state meet `Q`, or the reason to stop meets `E`. -/
def Ends (Q : α → σ → Prop) (E : ε → Prop) : Outcome ε σ α → Prop
  | done a s => Q a s
  | stopped e => E e

/-- Equal results in related states, or the same reason to stop. -/
inductive Rel (R : σ → τ → Prop) : Outcome ε σ α → Outcome ε τ α → Prop
  | done {a : α} {s : σ} {t : τ} (h : R s t) : Rel R (done a s) (done a t)
  | stopped {e : ε} : Rel R (stopped e) (stopped e)

/-- Go on after a run that came to its end. -/
def andThen (x : Outcome ε σ α) (f : α → σ → Outcome ε σ β) : Outcome ε σ β :=
  match x with
  | done a s => f a s
  | stopped e => stopped e

/-- The state of a run that came to its end. -/
def state : Outcome ε σ α → Option σ
  | done _ s => some s
  | stopped _ => none

@[simp] lemma andThen_done (a : α) (s : σ) (f : α → σ → Outcome ε σ β) :
    (done a s).andThen f = f a s := rfl

@[simp] lemma andThen_stopped (e : ε) (f : α → σ → Outcome ε σ β) :
    (stopped e : Outcome ε σ α).andThen f = stopped e := rfl

@[simp] lemma ends_done {Q : α → σ → Prop} {E : ε → Prop} {a : α} {s : σ} :
    (done a s).Ends Q E ↔ Q a s := Iff.rfl

@[simp] lemma ends_stopped {Q : α → σ → Prop} {E : ε → Prop} {e : ε} :
    (stopped e : Outcome ε σ α).Ends Q E ↔ E e := Iff.rfl

lemma andThen_eq_done {x : Outcome ε σ α} {f : α → σ → Outcome ε σ β} {b : β} {s : σ} :
    x.andThen f = done b s ↔ ∃ a s', x = done a s' ∧ f a s' = done b s := by
  cases x with
  | done a s' =>
    refine ⟨fun h => ⟨a, s', rfl, h⟩, ?_⟩
    rintro ⟨_, _, h, hf⟩
    cases h
    exact hf
  | stopped e => exact ⟨nofun, fun ⟨_, _, h, _⟩ => nomatch h⟩

lemma Ends.mono {x : Outcome ε σ α} {Q Q' : α → σ → Prop} {E E' : ε → Prop} (h : x.Ends Q E)
    (hQ : ∀ a s, Q a s → Q' a s) (hE : ∀ e, E e → E' e) : x.Ends Q' E' := by
  cases x with
  | done a s => exact hQ a s h
  | stopped e => exact hE e h

lemma ends_andThen {x : Outcome ε σ α} {f : α → σ → Outcome ε σ β} {Q : β → σ → Prop}
    {E : ε → Prop} : (x.andThen f).Ends Q E ↔ x.Ends (fun a s => (f a s).Ends Q E) E := by
  cases x <;> rfl

lemma ends_iff_of_done {x : Outcome ε σ α} {Q : α → σ → Prop} :
    x.Ends Q (fun _ => True) ↔ ∀ a s, x = done a s → Q a s := by
  cases x with
  | done a s =>
    refine ⟨fun h b t he => ?_, fun h => h a s rfl⟩
    cases he
    exact h
  | stopped e => exact ⟨fun _ _ _ he => (by cases he), fun _ => trivial⟩

@[simp] lemma state_eq_some {x : Outcome ε σ α} {s : σ} :
    x.state = some s ↔ ∃ a, x = done a s := by
  cases x <;> simp [state]

end Outcome

namespace Program

variable {Op Op' : Type → Type} {α β γ ε σ τ : Type}

/-- Go on with the result. -/
def bind : Program Op α → (α → Program Op β) → Program Op β
  | ret a, f => f a
  | call o k, f => call o fun b => (k b).bind f

instance : Monad (Program Op) where
  pure := ret
  bind := bind

/-- The program that performs one operation. -/
def perform (o : Op β) : Program Op β := call o ret

/-- The same program over more operations. -/
def lift (φ : ∀ β : Type, Op β → Op' β) : Program Op α → Program Op' α
  | ret a => ret a
  | call o k => call (φ _ o) fun b => (k b).lift φ

@[simp] lemma pure_eq (a : α) : (pure a : Program Op α) = ret a := rfl

@[simp] lemma bind_eq (p : Program Op α) (f : α → Program Op β) : p >>= f = p.bind f := rfl

@[simp] lemma ret_bind (a : α) (f : α → Program Op β) : (ret a).bind f = f a := rfl

@[simp] lemma call_bind (o : Op β) (k : β → Program Op α) (f : α → Program Op γ) :
    (call o k).bind f = call o fun b => (k b).bind f := rfl

@[simp] lemma perform_bind (o : Op β) (f : β → Program Op α) :
    (perform o).bind f = call o f := rfl

/-! ## Runs -/

section Run

variable (exec : ∀ β : Type, Op β → σ → Outcome ε σ β)

/-- Run a program from a state. -/
def run : Program Op α → σ → Outcome ε σ α
  | ret a, s => .done a s
  | call o k, s =>
    match exec _ o s with
    | .done b s' => run (k b) s'
    | .stopped e => .stopped e

/-- Every operation performed meets `G` in the state it finds. -/
def Along (G : ∀ β : Type, Op β → σ → Prop) : Program Op α → σ → Prop
  | ret _, _ => True
  | call o k, s =>
    G _ o s ∧ match exec _ o s with
      | .done b s' => Along G (k b) s'
      | .stopped _ => True

/-- Whether the condition is met can be computed along the run. -/
instance decidableAlong {G : ∀ β : Type, Op β → σ → Prop}
    [∀ (β : Type) (o : Op β) (s : σ), Decidable (G β o s)] :
    ∀ (p : Program Op α) (s : σ), Decidable (Along exec G p s)
  | ret _, _ => .isTrue trivial
  | call o k, s =>
    letI : Decidable (match exec _ o s with
        | .done b s' => Along exec G (k b) s'
        | .stopped _ => True) :=
      match exec _ o s with
      | .done b s' => decidableAlong (k b) s'
      | .stopped _ => .isTrue trivial
    inferInstanceAs (Decidable (G _ o s ∧ match exec _ o s with
      | .done b s' => Along exec G (k b) s'
      | .stopped _ => True))

@[simp] lemma run_ret (a : α) (s : σ) : run exec (ret a : Program Op α) s = .done a s := rfl

lemma run_call (o : Op β) (k : β → Program Op α) (s : σ) :
    run exec (call o k) s = (exec _ o s).andThen fun b s' => run exec (k b) s' := by
  rw [run]
  cases exec _ o s <;> rfl

@[simp] lemma run_perform (o : Op β) (s : σ) : run exec (perform o) s = exec _ o s := by
  rw [perform, run_call]
  cases exec _ o s <;> rfl

@[simp] lemma run_bind (p : Program Op α) (f : α → Program Op β) (s : σ) :
    run exec (p.bind f) s = (run exec p s).andThen fun a s' => run exec (f a) s' := by
  induction p generalizing s with
  | ret a => rfl
  | call o k ih =>
    rw [call_bind, run_call, run_call]
    cases exec _ o s with
    | done b s' => exact ih b s'
    | stopped e => rfl

lemma run_bind_eq_done {p : Program Op α} {f : α → Program Op β} {s s' : σ} {b : β} :
    run exec (p.bind f) s = .done b s' ↔
      ∃ a t, run exec p s = .done a t ∧ run exec (f a) t = .done b s' := by
  rw [run_bind, Outcome.andThen_eq_done]

@[simp] lemma run_lift {exec' : ∀ β : Type, Op' β → σ → Outcome ε σ β}
    {φ : ∀ β : Type, Op β → Op' β} (h : ∀ (β : Type) (o : Op β), exec' _ (φ _ o) = exec _ o)
    (p : Program Op α) (s : σ) : run exec' (p.lift φ) s = run exec p s := by
  induction p generalizing s with
  | ret a => rfl
  | call o k ih =>
    rw [lift, run_call, run_call, h]
    cases exec _ o s with
    | done b s' => exact ih b s'
    | stopped e => rfl

end Run

section Along

variable {exec : ∀ β : Type, Op β → σ → Outcome ε σ β}
variable {G H : ∀ β : Type, Op β → σ → Prop}

@[simp] lemma along_ret (a : α) (s : σ) : Along exec G (ret a : Program Op α) s := trivial

lemma along_call (o : Op β) (k : β → Program Op α) (s : σ) :
    Along exec G (call o k) s ↔
      G _ o s ∧ ∀ b s', exec _ o s = .done b s' → Along exec G (k b) s' := by
  rw [Along]
  cases exec _ o s with
  | done b s' =>
    refine and_congr_right fun _ => ⟨fun h b' t he => ?_, fun h => h b s' rfl⟩
    cases he
    exact h
  | stopped e => exact and_congr_right fun _ => ⟨fun _ _ _ he => (by cases he), fun _ => trivial⟩

lemma along_bind (p : Program Op α) (f : α → Program Op β) (s : σ) :
    Along exec G (p.bind f) s ↔
      Along exec G p s ∧ ∀ a s', run exec p s = .done a s' → Along exec G (f a) s' := by
  induction p generalizing s with
  | ret a =>
    refine ⟨fun h => ⟨trivial, fun b t he => ?_⟩, fun h => h.2 a s rfl⟩
    cases he
    exact h
  | call o k ih =>
    rw [call_bind, along_call, along_call, run_call]
    cases he : exec _ o s with
    | done b t =>
      refine ⟨fun ⟨hG, h⟩ => ?_, fun ⟨⟨hG, h⟩, hf⟩ => ⟨hG, ?_⟩⟩
      · obtain ⟨hk, hf⟩ := (ih b t).mp (h b t rfl)
        refine ⟨⟨hG, fun b' t' he' => ?_⟩, hf⟩
        cases he'
        exact hk
      · intro b' t' he'
        cases he'
        exact (ih b t).mpr ⟨h b t rfl, hf⟩
    | stopped e => simp

lemma Along.bind {p : Program Op α} {f : α → Program Op β} {s : σ} (hp : Along exec G p s)
    (hf : ∀ a s', run exec p s = .done a s' → Along exec G (f a) s') : Along exec G (p.bind f) s :=
  (along_bind p f s).mpr ⟨hp, hf⟩

lemma Along.first {p : Program Op α} {f : α → Program Op β} {s : σ}
    (h : Along exec G (p.bind f) s) : Along exec G p s := ((along_bind p f s).mp h).1

lemma Along.rest {p : Program Op α} {f : α → Program Op β} {s t : σ} {a : α}
    (h : Along exec G (p.bind f) s) (hr : run exec p s = .done a t) : Along exec G (f a) t :=
  ((along_bind p f s).mp h).2 a t hr

/-- A program over more operations meets a condition along its run if the program itself does. -/
lemma along_lift {exec' : ∀ β : Type, Op' β → σ → Outcome ε σ β} {G : ∀ β : Type, Op' β → σ → Prop}
    {φ : ∀ β : Type, Op β → Op' β} (h : ∀ (β : Type) (o : Op β), exec' _ (φ _ o) = exec _ o)
    (p : Program Op α) (s : σ) :
    Along exec' G (p.lift φ) s ↔ Along exec (fun β o s => G β (φ β o) s) p s := by
  induction p generalizing s with
  | ret a => exact Iff.rfl
  | call o k ih =>
    rw [lift, along_call, along_call, h]
    exact and_congr_right fun _ => forall_congr' fun b => forall_congr' fun s' =>
      imp_congr_right fun _ => ih b s'

lemma along_mono (h : ∀ (β : Type) (o : Op β) (s : σ), G _ o s → H _ o s) {p : Program Op α} {s : σ}
    (hp : Along exec G p s) : Along exec H p s := by
  induction p generalizing s with
  | ret a => trivial
  | call o k ih =>
    rw [along_call] at hp ⊢
    exact ⟨h _ o s hp.1, fun b s' he => ih b (hp.2 b s' he)⟩

lemma along_and {p : Program Op α} {s : σ} (hG : Along exec G p s) (hH : Along exec H p s) :
    Along exec (fun β o s => G β o s ∧ H β o s) p s := by
  induction p generalizing s with
  | ret a => trivial
  | call o k ih =>
    rw [along_call] at hG hH ⊢
    exact ⟨⟨hG.1, hH.1⟩, fun b s' he => ih b (hG.2 b s' he) (hH.2 b s' he)⟩

/-- What every operation keeps, if it meets `G`, every program keeps along which `G` is met. -/
theorem run_keeps {R : σ → σ → Prop} (hrefl : ∀ s, R s s)
    (htrans : ∀ s t u, R s t → R t u → R s u)
    (hop : ∀ (β : Type) (o : Op β) (s : σ) (b : β) (s' : σ), G _ o s → exec _ o s = .done b s' → R s s')
    {p : Program Op α} {s s' : σ} {a : α} (hp : Along exec G p s)
    (h : run exec p s = .done a s') : R s s' := by
  induction p generalizing s with
  | ret b =>
    cases h
    exact hrefl _
  | call o k ih =>
    rw [run_call, Outcome.andThen_eq_done] at h
    obtain ⟨b, t, ho, hk⟩ := h
    have hp' := (along_call o k s).mp hp
    exact htrans s t s' (hop _ o s b t hp'.1 ho) (ih b (hp'.2 b t ho) hk)

/-- What every operation keeps holds in the end, and no run stops for a reason that no operation
gives. -/
theorem run_ends {I : σ → Prop} {E : ε → Prop}
    (hop : ∀ (β : Type) (o : Op β) (s : σ), I s → G _ o s → (exec _ o s).Ends (fun _ => I) E)
    {p : Program Op α} {s : σ} (hs : I s) (hp : Along exec G p s) :
    (run exec p s).Ends (fun _ => I) E := by
  induction p generalizing s with
  | ret b => exact hs
  | call o k ih =>
    have hp' := (along_call o k s).mp hp
    have ho := hop _ o s hs hp'.1
    rw [run_call]
    cases he : exec _ o s with
    | done b t =>
      rw [he] at ho
      exact ih b ho (hp'.2 b t he)
    | stopped e =>
      rw [he] at ho
      exact ho

/-- Where an invariant is kept along a run, every operation meets what the invariant implies. -/
theorem along_keeps {I : σ → Prop}
    (hop : ∀ (β : Type) (o : Op β) (s : σ), I s → G _ o s →
      H _ o s ∧ ∀ b s', exec _ o s = .done b s' → I s')
    {p : Program Op α} {s : σ} (hs : I s) (hp : Along exec G p s) : Along exec H p s := by
  induction p generalizing s with
  | ret a => trivial
  | call o k ih =>
    rw [along_call] at hp ⊢
    obtain ⟨hH, hI⟩ := hop _ o s hs hp.1
    exact ⟨hH, fun b s' he => ih b (hI b s' he) (hp.2 b s' he)⟩

/-- A relation that every operation respects is respected by every program. -/
theorem run_related {exec' : ∀ β : Type, Op β → τ → Outcome ε τ β}
    {H : ∀ β : Type, Op β → τ → Prop} {R : σ → τ → Prop}
    (hop : ∀ (β : Type) (o : Op β) (s : σ) (t : τ), R s t → G _ o s → H _ o t →
      (exec _ o s).Rel R (exec' _ o t))
    {p : Program Op α} {s : σ} {t : τ} (hR : R s t) (hs : Along exec G p s)
    (ht : Along exec' H p t) : (run exec p s).Rel R (run exec' p t) := by
  induction p generalizing s t with
  | ret a => exact .done hR
  | call o k ih =>
    have hs' := (along_call o k s).mp hs
    have ht' := (along_call o k t).mp ht
    have ho := hop _ o s t hR hs'.1 ht'.1
    rw [run_call, run_call]
    cases hes : exec _ o s with
    | done b s' =>
      rw [hes] at ho
      cases het : exec' _ o t with
      | done b' t' =>
        rw [het] at ho
        cases ho with
        | done hR' => exact ih b hR' (hs'.2 b s' hes) (ht'.2 b t' het)
      | stopped e =>
        rw [het] at ho
        cases ho
    | stopped e =>
      rw [hes] at ho
      cases het : exec' _ o t with
      | done b' t' =>
        rw [het] at ho
        cases ho
      | stopped e' =>
        rw [het] at ho
        cases ho
        exact .stopped

end Along

/-! ## What a program can do at all -/

section All

variable {P P' : ∀ β : Type, Op β → Prop}

/-- Every operation of the program meets `P`, whatever the answers are. -/
def All (P : ∀ β : Type, Op β → Prop) : Program Op α → Prop
  | ret _ => True
  | call o k => P _ o ∧ ∀ b, All P (k b)

@[simp] lemma all_ret (a : α) : All P (ret a : Program Op α) := trivial

@[simp] lemma all_call (o : Op β) (k : β → Program Op α) :
    All P (call o k) ↔ P _ o ∧ ∀ b, All P (k b) := Iff.rfl

@[simp] lemma all_perform (o : Op β) : All P (perform o) ↔ P _ o :=
  ⟨fun h => h.1, fun h => ⟨h, fun _ => trivial⟩⟩

lemma All.bind {p : Program Op α} {f : α → Program Op β} (hp : All P p) (hf : ∀ a, All P (f a)) :
    All P (p.bind f) := by
  induction p with
  | ret a => exact hf a
  | call o k ih => exact ⟨hp.1, fun b => ih b (hp.2 b)⟩

lemma All.lift {Q : ∀ β : Type, Op' β → Prop} {φ : ∀ β : Type, Op β → Op' β}
    (h : ∀ (β : Type) (o : Op β), Q _ (φ _ o)) (p : Program Op α) : All Q (p.lift φ) := by
  induction p with
  | ret a => trivial
  | call o k ih => exact ⟨h _ o, ih⟩

lemma All.lift_of {Q : ∀ β : Type, Op' β → Prop} {φ : ∀ β : Type, Op β → Op' β}
    (h : ∀ (β : Type) (o : Op β), P _ o → Q _ (φ _ o)) {p : Program Op α} (hp : All P p) :
    All Q (p.lift φ) := by
  induction p with
  | ret a => trivial
  | call o k ih => exact ⟨h _ o hp.1, fun b => ih b (hp.2 b)⟩

/-- Every result of the program meets `Q`, whatever the answers are. -/
def Yields (Q : α → Prop) : Program Op α → Prop
  | ret a => Q a
  | call _ k => ∀ b, Yields Q (k b)

lemma Yields.bind {Q : β → Prop} (p : Program Op α) {f : α → Program Op β}
    (hf : ∀ a, Yields Q (f a)) : Yields Q (p.bind f) := by
  induction p with
  | ret a => exact hf a
  | call o k ih => exact fun b => ih b

variable {exec : ∀ β : Type, Op β → σ → Outcome ε σ β}

lemma Yields.run {Q : α → Prop} {p : Program Op α} (hp : Yields Q p) {s s' : σ} {a : α}
    (h : run exec p s = .done a s') : Q a := by
  induction p generalizing s with
  | ret b =>
    cases h
    exact hp
  | call o k ih =>
    rw [run_call, Outcome.andThen_eq_done] at h
    obtain ⟨b, t, -, hk⟩ := h
    exact ih b (hp b) hk

/-- A condition that no operation of the program fails is met along every run. -/
lemma All.along {G : ∀ β : Type, Op β → σ → Prop} {p : Program Op α} (hp : All P p)
    (h : ∀ (β : Type) (o : Op β) (s : σ), P _ o → G _ o s) (s : σ) : Along exec G p s := by
  induction p generalizing s with
  | ret a => trivial
  | call o k ih =>
    rw [along_call]
    exact ⟨h _ o s hp.1, fun b s' _ => ih b (hp.2 b) s'⟩

end All

/-! ## Safe runs -/

section Safe

variable {exec : ∀ β : Type, Op β → σ → Outcome ε σ β} {G : ∀ β : Type, Op β → σ → Prop}
variable {Q Q' : α → σ → Prop} {E : ε → Prop} {s : σ}

/-- Every operation performed meets `G` in the state it finds, and the run ends in `Q`, or stops for
a reason that meets `E`. -/
def Safe (exec : ∀ β : Type, Op β → σ → Outcome ε σ β) (G : ∀ β : Type, Op β → σ → Prop)
    (Q : α → σ → Prop) (E : ε → Prop) (p : Program Op α) (s : σ) : Prop :=
  Along exec G p s ∧ (run exec p s).Ends Q E

@[simp] lemma safe_ret {a : α} : Safe exec G Q E (ret a) s ↔ Q a s := and_iff_right trivial

lemma safe_call {o : Op β} {k : β → Program Op α} :
    Safe exec G Q E (call o k) s ↔
      G _ o s ∧ (exec _ o s).Ends (fun b s' => Safe exec G Q E (k b) s') E := by
  rw [Safe, along_call, run_call, Outcome.ends_andThen, and_assoc]
  refine and_congr_right fun _ => ?_
  cases exec _ o s with
  | done b s' =>
    refine and_congr_left fun _ => ⟨fun h => h b s' rfl, fun h b' t he => ?_⟩
    cases he
    exact h
  | stopped e => exact and_iff_right (nofun)

lemma safe_bind {p : Program Op β} {f : β → Program Op α} :
    Safe exec G Q E (p.bind f) s ↔ Safe exec G (fun b s' => Safe exec G Q E (f b) s') E p s := by
  induction p generalizing s with
  | ret b => rw [ret_bind, safe_ret]
  | call o k ih =>
    rw [call_bind, safe_call, safe_call]
    simp only [ih]

lemma Safe.mono {p : Program Op α} (h : Safe exec G Q E p s) (hQ : ∀ a t, Q a t → Q' a t) :
    Safe exec G Q' E p s := ⟨h.1, h.2.mono hQ fun _ he => he⟩

/-- Where it does not matter what a run ends in. -/
lemma along_iff_safe {p : Program Op α} :
    Along exec G p s ↔ Safe exec G (fun _ _ => True) (fun _ => True) p s := by
  refine ⟨fun h => ⟨h, ?_⟩, fun h => h.1⟩
  cases run exec p s <;> trivial

/-- What holds after the first part of a run lets the rest be safe. -/
lemma Safe.bind {R : β → σ → Prop} {p : Program Op β} {f : β → Program Op α}
    (hp : Safe exec G R E p s) (hf : ∀ b t, R b t → Safe exec G Q E (f b) t) :
    Safe exec G Q E (p.bind f) s := safe_bind.mpr (hp.mono hf)

/-- What a safe run that comes to its end ends in. -/
lemma Safe.done {p : Program Op α} (h : Safe exec G Q E p s) {a : α} {t : σ}
    (hr : run exec p s = .done a t) : Q a t := by
  have hends := h.2
  rw [hr] at hends
  exact hends

end Safe

end Program

end EspLinux.Lib
