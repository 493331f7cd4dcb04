import EspLinux.Ccd.TextCuts

/-!
# Two text clients

The parser keeps its state in the record of the client, but the result of the last request in a
variable that there is only one of.  So a client that makes no request at all can change what
another client is told about its requests, and nothing else (`text_clients_apart`).

A client *asks* in a write if the write answers an errorno message before it has set
`last_errorno` itself.
-/

namespace EspLinux.Ccd

open EspLinux.Lib

/-! ## What is heard in a write -/

/-- What the parser hears of an input. -/
def inputs : ℕ → List UInt8 → List Input
  | 0, _ => []
  | n + 1, buf =>
    if buf = [] then []
    else
      match next_lexeme buf with
      | none => [.out]
      | some (x, rest) => .lexeme x :: inputs n rest

/-- What a client does: it writes, or it reads what waits in its output buffer. -/
inductive Turn
  | write (data : List UInt8)
  | read (n : ℕ)

namespace Turn

/-- What the parser gets to see. -/
def input (buf : List UInt8) : Turn → List UInt8
  | write data => (buf ++ data.take (min data.length (MAX_IN_BUF_SIZE - buf.length))).map upper
  | read _ => buf

/-- What the parser hears. -/
def heard (buf : List UInt8) (u : Turn) : List Input :=
  match u with
  | write [] => []
  | write (_ :: _) => inputs ((u.input buf).length + 1) (u.input buf)
  | read _ => []

/-- The record of the client before the parser runs. -/
def takes (x : Session) : Turn → Session
  | write _ => x
  | read n => { x with client := (x.client.deliver n).1 }

/-- A turn of the client. -/
def run (g : Geometry) (answer : List Action → ℤ) (u : Turn) (t : Talk) : Option Talk :=
  match u with
  | write data => (text_write g answer data t).map Prod.fst
  | read _ => some { t with session := u.takes t.session }

end Turn

/-- The input is the end of an errorno message that is answered. -/
def Input.asks (x : Session) : Input → Prop
  | lexeme l => x.kind = CCD_MSG_ERRORNO ∧ x.ends (l.token x.strings) ∧
      x.client.out_buf_len + 150 ≤ x.client.out_buf_size
  | out => False

/-- The input sets `last_errorno`: it is the end of another message, or there is none. -/
def Input.sets (x : Session) : Input → Prop
  | lexeme l => x.ends (l.token x.strings) ∧
      (x.kind = CCD_MSG_QUERY ∨ x.kind = CCD_MSG_EXP ∨ x.kind = CCD_MSG_CTRL ∨
        x.kind = CCD_MSG_ABORT)
  | out => x.kind ≠ CCD_MSG_ERRORNO

instance (x : Session) (i : Input) : Decidable (i.asks x) := by
  cases i <;> unfold Input.asks <;> infer_instance

instance (x : Session) (i : Input) : Decidable (i.sets x) := by
  cases i <;> unfold Input.sets <;> infer_instance

section

variable (g : Geometry) (answer : List Action → ℤ)

/-- The input asks for `last_errorno` before it sets it. -/
def Asks : List Input → Session × ℤ → Prop
  | [], _ => False
  | i :: es, w => i.asks w.1 ∨ ¬ i.sets w.1 ∧ Asks es (i.step g answer w)

/-- The input sets `last_errorno`. -/
def Sets : List Input → Session × ℤ → Prop
  | [], _ => False
  | i :: es, w => i.sets w.1 ∨ Sets es (i.step g answer w)

instance decidableSets : (es : List Input) → (w : Session × ℤ) → Decidable (Sets g answer es w)
  | [], _ => inferInstanceAs (Decidable False)
  | _ :: es, _ => @instDecidableOr _ _ _ (decidableSets es _)

end

/-! ## Two clients -/

/-- Two clients, and the result of the last request of any. -/
structure Clients where
  a_buf : List UInt8
  a : Session
  b_buf : List UInt8
  b : Session
  last_errorno : ℤ

/-- The devices of the two clients, which may be the same, and the results of their control
commands, which may depend on the requests of both clients. -/
structure Devices where
  a : Geometry
  b : Geometry
  a_answer : List Action → List Action → ℤ
  b_answer : List Action → List Action → ℤ

variable (d : Devices)

/-- A turn of the first client, or of the second. -/
def Clients.step (s : Clients) : Turn ⊕ Turn → Option Clients
  | .inl u => do
    let t ← u.run d.a (d.a_answer (calls s.b.acts)) ⟨s.a_buf, s.a, s.last_errorno⟩
    some { s with a_buf := t.in_buf, a := t.session, last_errorno := t.last_errorno }
  | .inr u => do
    let t ← u.run d.b (d.b_answer (calls s.a.acts)) ⟨s.b_buf, s.b, s.last_errorno⟩
    some { s with b_buf := t.in_buf, b := t.session, last_errorno := t.last_errorno }

/-- A number of turns. -/
def Clients.run : List (Turn ⊕ Turn) → Clients → Option Clients
  | [], s => some s
  | u :: l, s => do
    let s ← s.step d u
    run l s

/-- The first client asks in a turn. -/
def Clients.asks (s : Clients) (u : Turn) : Prop :=
  Asks d.a (d.a_answer (calls s.b.acts)) (u.heard s.a_buf) (u.takes s.a, s.last_errorno)

/-- The first client sets `last_errorno` in a turn. -/
def Clients.sets (s : Clients) (u : Turn) : Prop :=
  Sets d.a (d.a_answer (calls s.b.acts)) (u.heard s.a_buf) (u.takes s.a, s.last_errorno)

instance (s : Clients) (u : Turn) : Decidable (s.sets d u) := decidableSets _ _ _ _

/-- Whenever the first client asks, `last_errorno` is what that client last set it to, `own`. -/
def Undisturbed : List (Turn ⊕ Turn) → Clients → ℤ → Prop
  | [], _, _ => True
  | .inl u :: l, s, own => (s.asks d u → s.last_errorno = own) ∧
      ∀ s', s.step d (.inl u) = some s' →
        Undisturbed l s' (if s.sets d u then s'.last_errorno else own)
  | .inr u :: l, s, own => ∀ s', s.step d (.inr u) = some s' → Undisturbed l s' own

/-- The lists differ at a position that both have. -/
def Differ {α : Type*} (l l' : List α) : Prop :=
  ∃ p u v q r, u ≠ v ∧ l = p ++ u :: q ∧ l' = p ++ v :: r

variable {d} {g : Geometry} {answer : List Action → ℤ} {x : Session} {e : ℤ} {i : Input}
  {es : List Input}

/-! ## A turn -/

lemma inputs_of_reads {buf v : List UInt8} {ls : List Lexeme} (h : Reads buf ls v) {n : ℕ}
    (hn : ls.length < n) : inputs n buf = ls.map .lexeme ++ if v = [] then [] else [.out] := by
  induction h generalizing n with
  | @stop buf hnone =>
    obtain ⟨n, rfl⟩ : ∃ n', n = n' + 1 := ⟨n - 1, by omega⟩
    rw [inputs, hnone]
    rfl
  | @more buf rest u x ls hs _ ih =>
    obtain ⟨n, rfl⟩ : ∃ n', n = n' + 1 := ⟨n - 1, by omega⟩
    have hne : buf ≠ [] := by
      intro hnil
      rw [hnil] at hs
      cases hs
    rw [inputs, if_neg hne, hs, List.map_cons, List.cons_append]
    exact congrArg _ (ih (Nat.lt_of_succ_lt_succ hn))

/-- What a turn leaves in the buffer depends on nothing else, and what it does is to hear its
input. -/
lemma turn_spec (u : Turn) (buf : List UInt8) : ∃ v, ∀ g answer x e,
    u.run g answer ⟨buf, x, e⟩ =
      let r := feed g answer (u.heard buf) (u.takes x, e)
      some ⟨v, r.1, r.2⟩ := by
  cases u with
  | read n => exact ⟨buf, fun g answer x e => rfl⟩
  | write data =>
    cases data with
    | nil => exact ⟨buf, fun g answer x e => rfl⟩
    | cons c l =>
      obtain ⟨in_buf, hin⟩ : ∃ in_buf, (buf ++ (c :: l).take (min (c :: l).length
          (MAX_IN_BUF_SIZE - buf.length))).map upper = in_buf := ⟨_, rfl⟩
      obtain ⟨ls, v, hr⟩ := Reads.total in_buf
      have hn := hr.length_le
      refine ⟨v, fun g answer x e => ?_⟩
      have hheard : (Turn.write (c :: l)).heard buf =
          ls.map .lexeme ++ if v = [] then [] else [.out] := by
        rw [← inputs_of_reads hr (n := in_buf.length + 1) (by omega), ← hin]
        rfl
      have hloop := @parse_text_msg_loop g answer _ _ _ hr (in_buf.length + 1) (by omega)
        (x, e)
      dsimp only at hloop
      rw [Turn.run, text_write, if_neg (List.cons_ne_nil c l), hheard]
      simp only [hin, hloop]
      rfl

/-! ## What asks and what sets -/

/-- No attribute and no number ends a message. -/
lemma on_attribs_ends {first count index long token value : ℕ} {done : Session × ℤ}
    (hfirst : 256 ≤ first) (h : x.ends token) :
    on_attribs first count index long done token value x e = done := by
  have htoken : token = 62 := h.1
  have hnum : token ≠ CCD_NUM_TOKEN := by
    unfold CCD_NUM_TOKEN
    omega
  rw [on_attribs, if_neg (by omega), if_neg hnum, if_pos h]

lemma on_attribs_not_ends {first count index long token value : ℕ} {done : ℤ → Session × ℤ}
    (h : ¬ x.ends token) :
    ∃ y, ∀ e, on_attribs first count index long (done e) token value x e = (y, e) := by
  unfold on_attribs
  split
  · exact ⟨_, fun e => rfl⟩
  · split
    · exact ⟨_, fun e => rfl⟩
    · exact ⟨x, fun e => rfl⟩

lemma on_token_abort {token value : ℕ} (hk : x.kind = CCD_MSG_ABORT) :
    on_token g answer token value x e =
      if x.ends token then
        (({ x with client := { x.client with out_buf_len := 0 } }.act .abort).reset, 0)
      else (x, e) := by
  rw [on_token, hk]
  rfl

/-- The end of a message other than an errorno message does not look at `last_errorno`. -/
lemma on_token_sets {token value : ℕ} (h : x.ends token) (hkind : x.kind = CCD_MSG_QUERY ∨
      x.kind = CCD_MSG_EXP ∨ x.kind = CCD_MSG_CTRL ∨ x.kind = CCD_MSG_ABORT) (e e' : ℤ) :
    on_token g answer token value x e = on_token g answer token value x e' := by
  have hword : 256 ≤ CCD_EXP_WIDTH_TOKEN ∧ 256 ≤ CCD_CTRL_CMD_TOKEN := by decide
  rcases hkind with hk | hk | hk | hk
  · rw [on_token, on_token, if_pos hk, if_pos hk, if_pos h, if_pos h]
  · rw [on_token_expose hk, on_token_expose hk, on_attribs_ends hword.1 h,
      on_attribs_ends hword.1 h]
  · rw [on_token_control hk, on_token_control hk, on_attribs_ends hword.2 h,
      on_attribs_ends hword.2 h]
  · rw [on_token_abort hk, on_token_abort hk, if_pos h, if_pos h]

lemma on_token_errorno {token value : ℕ} (hk : x.kind = CCD_MSG_ERRORNO) :
    on_token g answer token value x e =
      if x.ends token then
        match text_errorno e x.client with
        | some c => (({ x with client := c }.act (.errorno e)).reset, e)
        | none => (x.reset, e)
      else (x, e) := by
  rw [on_token, hk]
  rfl

/-- Nor does the search for a new message. -/
lemma on_token_default {token value : ℕ} (hquery : x.kind ≠ CCD_MSG_QUERY)
    (hk : x.kind ≠ CCD_MSG_ERRORNO) (hexp : x.kind ≠ CCD_MSG_EXP) (hctrl : x.kind ≠ CCD_MSG_CTRL)
    (habort : x.kind ≠ CCD_MSG_ABORT) :
    ∃ y, ∀ e, on_token g answer token value x e = (y, e) := by
  unfold on_token
  simp only [if_neg hquery, if_neg hk, if_neg hexp, if_neg hctrl, if_neg habort]
  split
  · exact ⟨_, fun e => rfl⟩
  · exact ⟨_, fun e => rfl⟩

/-- Anything else does not depend on `last_errorno`, and leaves it. -/
lemma on_token_else {token value : ℕ} (hasks : ¬ (x.kind = CCD_MSG_ERRORNO ∧ x.ends token ∧
      x.client.out_buf_len + 150 ≤ x.client.out_buf_size))
    (hsets : ¬ (x.ends token ∧ (x.kind = CCD_MSG_QUERY ∨ x.kind = CCD_MSG_EXP ∨
      x.kind = CCD_MSG_CTRL ∨ x.kind = CCD_MSG_ABORT))) :
    ∃ y, ∀ e, on_token g answer token value x e = (y, e) := by
  by_cases hend : x.ends token
  · have hkind : ¬ (x.kind = CCD_MSG_QUERY ∨ x.kind = CCD_MSG_EXP ∨ x.kind = CCD_MSG_CTRL ∨
        x.kind = CCD_MSG_ABORT) := fun hk => hsets ⟨hend, hk⟩
    simp only [not_or] at hkind
    obtain ⟨hquery, hexp, hctrl, habort⟩ := hkind
    by_cases hk : x.kind = CCD_MSG_ERRORNO
    · refine ⟨x.reset, fun e => ?_⟩
      have hroom : text_errorno e x.client = none := if_neg fun hroom => hasks ⟨hk, hend, hroom⟩
      rw [on_token_errorno hk, if_pos hend, hroom]
    · exact on_token_default hquery hk hexp hctrl habort
  · by_cases hquery : x.kind = CCD_MSG_QUERY
    · exact ⟨x, fun e => by rw [on_token, if_pos hquery, if_neg hend]⟩
    by_cases hk : x.kind = CCD_MSG_ERRORNO
    · exact ⟨x, fun e => by rw [on_token_errorno hk, if_neg hend]⟩
    by_cases hexp : x.kind = CCD_MSG_EXP
    · obtain ⟨y, hy⟩ := on_attribs_not_ends hend
      exact ⟨y, fun e => (on_token_expose hexp token value).trans (hy e)⟩
    by_cases hctrl : x.kind = CCD_MSG_CTRL
    · obtain ⟨y, hy⟩ := on_attribs_not_ends hend
      exact ⟨y, fun e => (on_token_control hctrl token value).trans (hy e)⟩
    by_cases habort : x.kind = CCD_MSG_ABORT
    · exact ⟨x, fun e => by rw [on_token_abort habort, if_neg hend]⟩
    · exact on_token_default hquery hk hexp hctrl habort

/-! ## What is heard, with one value of `last_errorno` or another -/

lemma step_sets (h : i.sets x) (e e' : ℤ) : i.step g answer (x, e) = i.step g answer (x, e') := by
  cases i with
  | lexeme l =>
    show hear g answer l (x, e) = hear g answer l (x, e')
    rw [hear, hear]
    dsimp only
    rw [on_token_sets h.1 h.2 e e']
  | out =>
    show (x, x.run_out e) = (x, x.run_out e')
    rw [Session.run_out, Session.run_out, if_neg h, if_neg h]

lemma step_else (hasks : ¬ i.asks x) (hsets : ¬ i.sets x) :
    ∃ y, ∀ e, i.step g answer (x, e) = (y, e) := by
  cases i with
  | lexeme l =>
    obtain ⟨y, hy⟩ := on_token_else (g := g) hasks hsets
    refine ⟨{ y with parse_token := l.token x.strings }, fun e => ?_⟩
    show hear g answer l (x, e) = _
    rw [hear]
    dsimp only
    rw [hy]
  | out =>
    refine ⟨x, fun e => ?_⟩
    show (x, x.run_out e) = (x, e)
    rw [Session.run_out, if_pos (not_not.mp hsets)]

/-- The value is reported. -/
lemma step_asks (h : i.asks x) (e : ℤ) :
    (i.step g answer (x, e)).1.acts = x.acts ++ [.errorno e] ∧ (i.step g answer (x, e)).2 = e := by
  cases i with
  | out => cases h
  | lexeme l =>
    obtain ⟨hk, hend, hroom⟩ := h
    have htoken := @on_token_errorno g answer _ e (l.token x.strings) l.value hk
    rw [if_pos hend, text_errorno, if_pos hroom] at htoken
    show (hear g answer l (x, e)).1.acts = _ ∧ (hear g answer l (x, e)).2 = e
    rw [hear]
    dsimp only
    rw [htoken]
    exact ⟨rfl, rfl⟩

lemma feed_cons (w : Session × ℤ) :
    feed g answer (i :: es) w = feed g answer es (i.step g answer w) :=
  rfl

lemma feed_acts (es : List Input) (w : Session × ℤ) :
    ∃ l, (feed g answer es w).1.acts = w.1.acts ++ l := by
  induction es generalizing w with
  | nil => exact ⟨[], (List.append_nil _).symm⟩
  | cons i es ih =>
    obtain ⟨l, hl⟩ := ih (i.step g answer w)
    obtain ⟨l', hl'⟩ : ∃ l', (i.step g answer w).1.acts = w.1.acts ++ l' := by
      cases i with
      | lexeme x => exact on_token_acts (x.token w.1.strings) x.value
      | out => exact ⟨[], (List.append_nil _).symm⟩
    exact ⟨l' ++ l, by rw [feed_cons, hl, hl', List.append_assoc]⟩

/-- What does not ask does the same with any value. -/
lemma feed_of_not_asks (h : ¬ Asks g answer es (x, e)) :
    ∃ y, (Sets g answer es (x, e) ∧ ∃ c, ∀ e', feed g answer es (x, e') = (y, c)) ∨
      (¬ Sets g answer es (x, e) ∧ ∀ e', feed g answer es (x, e') = (y, e')) := by
  induction es generalizing x e with
  | nil => exact ⟨x, .inr ⟨id, fun e' => rfl⟩⟩
  | cons i es ih =>
    obtain ⟨hasks, hrest⟩ := not_or.mp h
    by_cases hsets : i.sets x
    · refine ⟨(feed g answer (i :: es) (x, e)).1, .inl ⟨.inl hsets,
        (feed g answer (i :: es) (x, e)).2, fun e' => ?_⟩⟩
      rw [feed_cons, step_sets hsets e' e]
      rfl
    · have hrest : ¬ Asks g answer es (i.step g answer (x, e)) := fun ha => hrest ⟨hsets, ha⟩
      obtain ⟨y, hy⟩ := step_else (g := g) hasks hsets
      rw [hy] at hrest
      obtain ⟨z, hz⟩ := ih hrest
      have hiff : Sets g answer (i :: es) (x, e) ↔ Sets g answer es (y, e) := by
        rw [← hy]
        exact or_iff_right hsets
      rw [hiff]
      refine ⟨z, ?_⟩
      simp only [feed_cons, hy]
      exact hz

/-- What does not set the value leaves it. -/
lemma feed_of_not_sets (h : ¬ Sets g answer es (x, e)) : (feed g answer es (x, e)).2 = e := by
  induction es generalizing x with
  | nil => rfl
  | cons i es ih =>
    obtain ⟨hsets, hrest⟩ := not_or.mp h
    have he : (i.step g answer (x, e)).2 = e := by
      by_cases hasks : i.asks x
      · exact (step_asks hasks e).2
      · obtain ⟨y, hy⟩ := step_else (g := g) hasks hsets
        rw [hy]
    obtain ⟨y, hy⟩ : ∃ y, i.step g answer (x, e) = (y, e) := ⟨_, Prod.ext rfl he⟩
    rw [hy] at hrest
    rw [feed_cons, hy]
    exact ih hrest

/-- Two values that are the same if they are asked for. -/
lemma feed_same {e' : ℤ} (h : Asks g answer es (x, e) → e = e') :
    (feed g answer es (x, e)).1 = (feed g answer es (x, e')).1 ∧
      (if Sets g answer es (x, e) then (feed g answer es (x, e)).2 else e') =
        (feed g answer es (x, e')).2 := by
  by_cases hasks : Asks g answer es (x, e)
  · rw [← h hasks]
    refine ⟨rfl, ?_⟩
    split
    · rfl
    · rename_i hsets
      exact (feed_of_not_sets hsets).symm
  · obtain ⟨y, ⟨hsets, c, hc⟩ | ⟨hsets, hc⟩⟩ := feed_of_not_asks hasks
    · rw [hc e, hc e', if_pos hsets]
      exact ⟨rfl, rfl⟩
    · rw [hc e, hc e', if_neg hsets]
      exact ⟨rfl, rfl⟩

lemma Differ.append {α : Type*} {l l' : List α} (h : Differ l l') (m m' : List α) :
    Differ (l ++ m) (l' ++ m') := by
  obtain ⟨p, u, v, q, r, hne, rfl, rfl⟩ := h
  exact ⟨p, u, v, q ++ m, r ++ m', hne, by simp, by simp⟩

lemma Differ.ne {α : Type*} {l l' : List α} (h : Differ l l') : l ≠ l' := by
  obtain ⟨p, u, v, q, r, hne, rfl, rfl⟩ := h
  intro heq
  exact hne (List.cons.inj (List.append_cancel_left heq)).1

/-- What asks reports the value. -/
lemma feed_of_asks (h : Asks g answer es (x, e)) {e' : ℤ} (hne : e ≠ e') :
    Differ (feed g answer es (x, e)).1.acts (feed g answer es (x, e')).1.acts := by
  induction es generalizing x with
  | nil => cases h
  | cons i es ih =>
    rw [feed_cons, feed_cons]
    by_cases hasks : i.asks x
    · obtain ⟨l, hl⟩ := feed_acts (g := g) es (i.step g answer (x, e))
      obtain ⟨l', hl'⟩ := feed_acts (g := g) es (i.step g answer (x, e'))
      rw [hl, hl', (step_asks hasks e).1, (step_asks hasks e').1]
      refine Differ.append ⟨x.acts, .errorno e, .errorno e', [], [], ?_, rfl, rfl⟩ _ _
      exact fun heq => hne (Action.errorno.inj heq)
    · rcases h with h | ⟨hsets, h⟩
      · exact absurd h hasks
      · obtain ⟨y, hy⟩ := step_else (g := g) hasks hsets
        rw [hy] at h ⊢
        rw [hy]
        exact ih h

/-! ## Runs -/

variable {s s' : Clients} {u : Turn} {l : List (Turn ⊕ Turn)} {own : ℤ}

lemma takes_acts (u : Turn) (x : Session) : (u.takes x).acts = x.acts := by
  cases u <;> rfl

lemma step_inl (d : Devices) (buf : List UInt8) (u : Turn) : ∃ v, ∀ s : Clients, s.a_buf = buf →
    s.step d (.inl u) =
      let r := feed d.a (d.a_answer (calls s.b.acts)) (u.heard buf) (u.takes s.a, s.last_errorno)
      some { s with a_buf := v, a := r.1, last_errorno := r.2 } := by
  obtain ⟨v, hv⟩ := turn_spec u buf
  refine ⟨v, fun s hs => ?_⟩
  rw [← hs] at hv ⊢
  simp only [Clients.step, hv]
  rfl

lemma step_inr (s : Clients) (u : Turn) : ∃ v e, ∃ r : Session,
    s.step d (.inr u) = some ⟨s.a_buf, s.a, v, r, e⟩ ∧ ∃ m, r.acts = s.b.acts ++ m := by
  obtain ⟨v, hv⟩ := turn_spec u s.b_buf
  obtain ⟨m, hm⟩ := feed_acts (g := d.b) (u.heard s.b_buf)
    (u.takes s.b, s.last_errorno)
  rw [takes_acts] at hm
  refine ⟨v, (feed d.b (d.b_answer (calls s.a.acts)) (u.heard s.b_buf)
    (u.takes s.b, s.last_errorno)).2, _, ?_, m, hm⟩
  simp only [Clients.step, hv]
  rfl

/-- Runs come to an end, and what has been done stays done. -/
lemma run_total (l : List (Turn ⊕ Turn)) (s : Clients) : ∃ s₁, s.run d l = some s₁ ∧
    (∃ m, s₁.a.acts = s.a.acts ++ m) ∧ ∃ m, s₁.b.acts = s.b.acts ++ m := by
  induction l generalizing s with
  | nil => exact ⟨s, rfl, ⟨[], (List.append_nil _).symm⟩, ⟨[], (List.append_nil _).symm⟩⟩
  | cons u l ih =>
    obtain ⟨s₁, hs₁, ⟨m, hm⟩, ⟨n, hn⟩⟩ : ∃ s₁, s.step d u = some s₁ ∧
        (∃ m, s₁.a.acts = s.a.acts ++ m) ∧ ∃ m, s₁.b.acts = s.b.acts ++ m := by
      cases u with
      | inl u =>
        obtain ⟨v, hv⟩ := step_inl d s.a_buf u
        obtain ⟨m, hm⟩ := feed_acts (g := d.a)
          (u.heard s.a_buf) (u.takes s.a, s.last_errorno)
        rw [takes_acts] at hm
        exact ⟨_, hv s rfl, ⟨m, hm⟩, ⟨[], (List.append_nil _).symm⟩⟩
      | inr u =>
        obtain ⟨v, e, r, hv, m, hm⟩ := step_inr (d := d) s u
        exact ⟨_, hv, ⟨[], (List.append_nil _).symm⟩, ⟨m, hm⟩⟩
    obtain ⟨s₂, hs₂, ⟨m', hm'⟩, ⟨n', hn'⟩⟩ := ih s₁
    refine ⟨s₂, ?_, ⟨m ++ m', ?_⟩, ⟨n ++ n', ?_⟩⟩
    · rw [Clients.run, hs₁]
      exact hs₂
    · rw [hm', hm, List.append_assoc]
    · rw [hn', hn, List.append_assoc]

/-- A client that makes no requests in a run makes none in its first turn. -/
lemma calls_of_run {s₁ s₂ : Clients} (hs₂ : s₁.run d l = some s₂) (hm : ∃ m, s₁.b.acts = s.b.acts ++ m)
    (h : calls s₂.b.acts = calls s.b.acts) :
    calls s₁.b.acts = calls s.b.acts := by
  obtain ⟨s₃, hs₃, -, ⟨n, hn⟩⟩ := run_total (d := d) l s₁
  obtain ⟨m, hm⟩ := hm
  rw [hs₂] at hs₃
  cases hs₃
  have happ (l l' : List Action) : calls (l ++ l') = calls l ++ calls l' := List.filter_append _ _
  rw [hn, hm, happ, happ, List.append_assoc, List.append_right_eq_self, List.append_eq_nil_iff] at h
  rw [hm, happ, h.1, List.append_nil]

/-- The runs with and without the second client. -/
lemma run_apart (hbuf : s.a_buf = s'.a_buf) (ha : s.a = s'.a)
    (hb : calls s.b.acts = calls s'.b.acts) (he : s'.last_errorno = own)
    (hcalls : ∀ s₁, s.run d l = some s₁ → calls s₁.b.acts = calls s.b.acts) :
    ∃ s₁ s₂, s.run d l = some s₁ ∧ s'.run d (l.filter Sum.isLeft) = some s₂ ∧
      (Undisturbed d l s own → s₁.a = s₂.a) ∧
      (¬ Undisturbed d l s own → Differ s₁.a.acts s₂.a.acts) := by
  induction l generalizing s s' own with
  | nil => exact ⟨s, s', rfl, rfl, fun _ => ha, fun h => absurd trivial h⟩
  | cons u l ih =>
    cases u with
    | inr u =>
      obtain ⟨v, e, r, hv, hm⟩ := step_inr (d := d) s u
      obtain ⟨s₂, hs₂, -⟩ := run_total (d := d) l ⟨s.a_buf, s.a, v, r, e⟩
      have hrun : s.run d (.inr u :: l) = Clients.run d l ⟨s.a_buf, s.a, v, r, e⟩ := by
        rw [Clients.run, hv]
        rfl
      have hsame := calls_of_run hs₂ hm (hcalls s₂ (hrun.trans hs₂))
      have hiff : Undisturbed d (.inr u :: l) s own ↔ Undisturbed d l ⟨s.a_buf, s.a, v, r, e⟩ own := by
        refine ⟨fun h => h _ hv, fun h s₁ hs₁ => ?_⟩
        rw [hv] at hs₁
        cases hs₁
        exact h
      rw [hrun, hiff]
      refine ih hbuf ha (hsame.trans hb) he fun s₁ hs₁ => ?_
      rw [hsame]
      exact hcalls s₁ (hrun.trans hs₁)
    | inl u =>
      obtain ⟨v, hv⟩ := step_inl d s.a_buf u
      have hstep := hv s rfl
      have hstep' := hv s' hbuf.symm
      rw [← ha, ← hb, he] at hstep'
      obtain ⟨r, hr⟩ : ∃ r, r = feed d.a (d.a_answer (calls s.b.acts)) (u.heard s.a_buf)
        (u.takes s.a, s.last_errorno) := ⟨_, rfl⟩
      obtain ⟨r', hr'⟩ : ∃ r', r' = feed d.a (d.a_answer (calls s.b.acts)) (u.heard s.a_buf)
        (u.takes s.a, own) := ⟨_, rfl⟩
      dsimp only at hstep hstep'
      rw [← hr] at hstep
      rw [← hr'] at hstep'
      have hrun (l : List (Turn ⊕ Turn)) : s.run d (.inl u :: l) =
          Clients.run d l { s with a_buf := v, a := r.1, last_errorno := r.2 } := by
        rw [Clients.run, hstep]
        rfl
      have hrun' (l : List (Turn ⊕ Turn)) : s'.run d (.inl u :: l) =
          Clients.run d l { s' with a_buf := v, a := r'.1, last_errorno := r'.2 } := by
        rw [Clients.run, hstep']
        rfl
      rw [List.filter_cons_of_pos rfl, hrun, hrun']
      by_cases hasks : s.asks d u → s.last_errorno = own
      · obtain ⟨hsession, hown⟩ := feed_same hasks
        rw [← hr, ← hr'] at hsession
        have hiff : Undisturbed d (.inl u :: l) s own ↔ Undisturbed d l
            { s with a_buf := v, a := r.1, last_errorno := r.2 }
            (if s.sets d u then r.2 else own) := by
          refine ⟨fun h => h.2 _ hstep, fun h => ⟨hasks, fun s₁ hs₁ => ?_⟩⟩
          rw [hstep] at hs₁
          cases hs₁
          exact h
        rw [hiff]
        refine ih rfl hsession hb ?_ fun s₁ hs₁ => hcalls s₁ ((hrun l).trans hs₁)
        rw [hr, hr']
        exact hown.symm
      · -- from here on the runs are different
        obtain ⟨hask, hne⟩ := Classical.not_imp.mp hasks
        obtain ⟨s₁, hs₁, ⟨m, hm⟩, -⟩ := run_total (d := d) l
          { s with a_buf := v, a := r.1, last_errorno := r.2 }
        obtain ⟨s₂, hs₂, ⟨m', hm'⟩, -⟩ := run_total (d := d) (l.filter Sum.isLeft)
          { s' with a_buf := v, a := r'.1, last_errorno := r'.2 }
        refine ⟨s₁, s₂, hs₁, hs₂, fun h => absurd h.1 hasks, fun _ => ?_⟩
        rw [hm, hm', hr, hr']
        exact (feed_of_asks hask hne).append m m'

/-- What is done for the first client is the same with and without the other, which makes no
requests to the devices, exactly if `last_errorno` is the first client's own whenever it asks. -/
theorem text_clients_apart (l : List (Turn ⊕ Turn)) (s : Clients)
    (hcalls : ∀ s₁, s.run d l = some s₁ → calls s₁.b.acts = calls s.b.acts) :
    ∃ s₁ s₂, s.run d l = some s₁ ∧ s.run d (l.filter Sum.isLeft) = some s₂ ∧
      [Undisturbed d l s s.last_errorno, s₁.a = s₂.a, s₁.a.acts = s₂.a.acts].TFAE := by
  obtain ⟨s₁, s₂, hs₁, hs₂, hsame, hdiff⟩ := run_apart (d := d) rfl rfl rfl rfl hcalls
  refine ⟨s₁, s₂, hs₁, hs₂, ?_⟩
  tfae_have 1 → 2 := hsame
  tfae_have 2 → 3 := fun h => congrArg Session.acts h
  tfae_have 3 → 1 := fun h => by
    by_contra hno
    exact (hdiff hno).ne h
  tfae_finish

/-- Two clients of one camera on which control commands fail. -/
def Devices.camera : Devices :=
  { a := .vga, b := .vga, a_answer := fun _ _ => -22, b_answer := fun _ _ => -22 }

/-- The clients have just opened their devices, and the last request was successful. -/
def Clients.opened (d : Devices) : Clients :=
  { a_buf := []
    a := (Talk.opened d.a).session
    b_buf := []
    b := (Talk.opened d.b).session
    last_errorno := 0 }

/-- A query of the second client after the first has asked. -/
theorem text_clients_apart_late :
    ∃ s₁ s₂, (Clients.opened .camera).run .camera
        [.inl (.write (chars "<errorno/>")), .inr (.write (chars "<query/>"))] = some s₁ ∧
      (Clients.opened .camera).run .camera [.inl (.write (chars "<errorno/>"))] = some s₂ ∧
      s₁.a.acts = s₂.a.acts := by
  have hcalls : ((Clients.opened .camera).run .camera [.inl (.write (chars "<errorno/>")),
      .inr (.write (chars "<query/>"))]).map (fun s => calls s.b.acts) = some [] := rfl
  obtain ⟨s₁, s₂, hs₁, hs₂, htfae⟩ := text_clients_apart (d := .camera)
    [.inl (.write (chars "<errorno/>")), .inr (.write (chars "<query/>"))] (.opened .camera)
    fun s₁ hs₁ => by
      rw [hs₁] at hcalls
      exact Option.some.inj hcalls
  have hown : Undisturbed .camera [.inl (.write (chars "<errorno/>")),
      .inr (.write (chars "<query/>"))] (.opened .camera) 0 :=
    ⟨fun _ => rfl, fun _ _ _ _ => trivial⟩
  exact ⟨s₁, s₂, hs₁, hs₂, (htfae.out 0 2).mp hown⟩

/-- A query of the second client hides from the first that its control command has failed. -/
theorem query_of_another_client :
    ((Clients.opened .camera).run .camera [.inl (.write (chars "<control/>")),
        .inr (.write (chars "<query/>")), .inl (.write (chars "<errorno/>"))]).map
        (fun s => (s.a.acts, s.b.acts)) = some ([.control 0 0, .errorno 0], [.query]) ∧
      ((Clients.opened .camera).run .camera [.inl (.write (chars "<control/>")),
        .inl (.write (chars "<errorno/>"))]).map (fun s => (s.a.acts, s.b.acts)) =
          some ([.control 0 0, .errorno (-22)], []) :=
  ⟨rfl, rfl⟩

end EspLinux.Ccd
