import EspLinux.Ccd.Lists
import EspLinux.Ccd.Message

/-!
# The binary message parser comes to an end

unless it meets a message whose length field is zero.  Such a message stays at the front of
the buffer, and the parser acts on it again and again.

Which messages the parser meets is decided by the client's own record, apart from what the
mini-driver leaves in the fan element of a temperature request, which may lie in the next
message.
-/

namespace EspLinux.Ccd

open EspLinux.Lib

/-! ## The parser on the client's record -/

/-- The request is to be answered, and there is no room for the reply. -/
def Request.no_room (x : Client) : Request → Prop
  | .query => x.out_buf_size < x.out_buf_len + CCD_MSG_CCD_LEN
  | .temp _ _ => x.out_buf_size < x.out_buf_len + CCD_MSG_TEMP_LEN
  | _ => False

instance (x : Client) (r : Request) : Decidable (r.no_room x) := by
  cases r <;> unfold Request.no_room <;> infer_instance

/-- The requests that are answered. -/
def Request.answered : Request → Bool
  | .query => true
  | .temp _ _ => true
  | _ => false

/-- The number of temperature requests, one or none. -/
def Request.temps : Request → ℕ
  | .temp _ _ => 1
  | _ => 0

namespace Client

/-- The message at the front has a header. -/
def valid (x : Client) : Prop := (x.msg 0).toNat = CCD_MSG_HEADER

instance (x : Client) : Decidable x.valid := inferInstanceAs (Decidable (_ = _))

/-- The message has a header and says that it is empty, and the parser acts on it. -/
def stuck (x : Client) : Prop :=
  0 < x.in_buf_len ∧ x.valid ∧ x.msg_len = 0 ∧ ¬ x.request.no_room x

/-- What carrying out a request does to the client's record as far as the parser depends on
it; `fan` is what the mini-driver leaves in a temperature request. -/
def act (fan : UInt16) (x : Client) : Request → Client
  | .query => { x with out_buf_len := x.out_buf_len + CCD_MSG_CCD_LEN }
  | .abort => { x with out_buf_len := 0 }
  | .temp _ _ => { x.set_fan fan with out_buf_len := x.out_buf_len + CCD_MSG_TEMP_LEN }
  | _ => x

/-- The client's record after the message at its front, or `none` if the loop is left. -/
def next (fan : UInt16) (x : Client) : Option Client :=
  if x.in_buf_len = 0 then none
  else if x.valid then
    if x.request.no_room x then none else some (x.act fan x.request).shift
  else some { x with in_buf_len := 0 }

/-- The temperature requests in this message. -/
def temps (x : Client) : ℕ := if x.valid then x.request.temps else 0

/-- The client's record after `n` messages and the number of temperature requests among
them, when the mini-driver leaves the given fan states in these. -/
def walk (fans : ℕ → UInt16) (x : Client) : ℕ → Option (ℕ × Client)
  | 0 => some (0, x)
  | n + 1 => (walk fans x n).bind fun y => (y.2.next (fans y.1)).map fun z => (y.1 + y.2.temps, z)

/-- Starting with `x`, the parser can come to a message with `y`. -/
def Meets (x y : Client) : Prop := ∃ fans n j, x.walk fans n = some (j, y)

/-- The records agree as far as the parser depends on them. -/
structure Like (x y : Client) : Prop where
  in_buf : y.in_buf = x.in_buf
  in_len : y.in_buf_len = x.in_buf_len
  out_len : y.out_buf_len = x.out_buf_len
  out_size : y.out_buf_size = x.out_buf_size

namespace Like

variable {x y z : Client}

lemma refl (x : Client) : Like x x := ⟨rfl, rfl, rfl, rfl⟩

lemma symm (h : Like x y) : Like y x :=
  ⟨h.in_buf.symm, h.in_len.symm, h.out_len.symm, h.out_size.symm⟩

lemma trans (h : Like x y) (h' : Like y z) : Like x z :=
  ⟨h'.in_buf.trans h.in_buf, h'.in_len.trans h.in_len, h'.out_len.trans h.out_len,
    h'.out_size.trans h.out_size⟩

lemma msg_eq (h : Like x y) : y.msg = x.msg := by
  unfold msg
  rw [h.in_buf]

lemma msg_len_eq (h : Like x y) : y.msg_len = x.msg_len := by
  rw [msg_len, msg_len, msg_long, msg_long, h.msg_eq]

lemma is_msg_iff (h : Like x y) (len kind : ℕ) : y.is_msg len kind ↔ x.is_msg len kind := by
  rw [is_msg, is_msg, h.in_len, h.msg_eq]

lemma request_eq (h : Like x y) : y.request = x.request := by
  unfold request
  rw [msg_long, msg_long, msg_long, msg_long, h.msg_eq]
  exact if_congr (h.is_msg_iff _ _) rfl (if_congr (h.is_msg_iff _ _) rfl
    (if_congr (h.is_msg_iff _ _) rfl (if_congr (h.is_msg_iff _ _) rfl
      (if_congr (h.is_msg_iff _ _) rfl rfl))))

lemma valid_iff (h : Like x y) : y.valid ↔ x.valid := by
  rw [valid, valid, h.msg_eq]

lemma no_room_iff (h : Like x y) (r : Request) : r.no_room y ↔ r.no_room x := by
  cases r <;> simp only [Request.no_room, h.out_len, h.out_size]

lemma stuck_iff (h : Like x y) : y.stuck ↔ x.stuck := by
  rw [stuck, stuck, h.in_len, h.valid_iff, h.msg_len_eq, h.request_eq, h.no_room_iff]

lemma shift (h : Like x y) : Like x.shift y.shift := by
  have hlen := h.msg_len_eq
  unfold Client.shift
  rw [h.in_len, hlen, h.in_buf]
  split
  · exact ⟨rfl, rfl, h.out_len, h.out_size⟩
  · exact ⟨rfl, rfl, h.out_len, h.out_size⟩

lemma act (h : Like x y) (fan : UInt16) (r : Request) : Like (x.act fan r) (y.act fan r) := by
  cases r with
  | query => exact ⟨h.in_buf, h.in_len, congrArg (· + CCD_MSG_CCD_LEN) h.out_len, h.out_size⟩
  | temp f t =>
    refine ⟨?_, h.in_len, congrArg (· + CCD_MSG_TEMP_LEN) h.out_len, h.out_size⟩
    show put y.in_buf _ _ = put x.in_buf _ _
    rw [h.in_buf]
  | abort => exact ⟨h.in_buf, h.in_len, rfl, h.out_size⟩
  | expose parms => exact h
  | control cmd parm => exact h
  | nothing => exact h

end Like

/-- The fan is behind the elements that tell where the message ends. -/
lemma act_msg (fan : UInt16) (x : Client) (r : Request) {n : ℕ} (hn : n < 4) :
    (x.act fan r).msg n = x.msg n := by
  cases r with
  | temp f t =>
    have hput (j : ℕ) (hj : j < 8) : ((x.act fan (.temp f t)).in_buf j) = x.in_buf j :=
      put_of_lt (by unfold CCD_TEMP_FAN_INDEX; omega)
    unfold msg
    rw [hput _ (by omega), hput _ (by omega)]
  | _ => rfl

lemma act_in_len (fan : UInt16) (x : Client) (r : Request) :
    (x.act fan r).in_buf_len = x.in_buf_len := by
  cases r <;> rfl

/-- Only a temperature request depends on the mini-driver. -/
lemma act_congr {r : Request} (h : r.temps = 0) (fan fan' : UInt16) (x : Client) :
    x.act fan r = x.act fan' r := by
  cases r with
  | temp f t => cases h
  | _ => rfl

/-- The rest of the buffer is as long as the length field says. -/
lemma shift_in_len (x : Client) :
    x.shift.in_buf_len = if x.in_buf_len ≤ x.msg_len then 0 else x.in_buf_len - x.msg_len := by
  unfold shift
  split <;> rfl

/-- The input gets shorter unless the message is stuck. -/
lemma next_in_len {fan : UInt16} {x y : Client} (h : x.next fan = some y) :
    x.stuck ∧ y.in_buf_len = x.in_buf_len ∨ ¬ x.stuck ∧ y.in_buf_len < x.in_buf_len := by
  unfold next at h
  split at h
  · cases h
  · rename_i hz
    have hpos : 0 < x.in_buf_len := Nat.pos_of_ne_zero hz
    split at h
    · rename_i hv
      split at h
      · cases h
      · rename_i hroom
        cases h
        have hlen : (x.act fan x.request).msg_len = x.msg_len := by
          rw [msg_len, msg_len, msg_long, msg_long, act_msg _ _ _ (by omega),
            act_msg _ _ _ (by omega)]
        rw [shift_in_len, hlen, act_in_len]
        by_cases hl : x.msg_len = 0
        · refine .inl ⟨⟨hpos, hv, hl, hroom⟩, ?_⟩
          rw [if_neg (by omega)]
          omega
        · refine .inr ⟨fun hs => hl hs.2.2.1, ?_⟩
          split <;> omega
    · rename_i hv
      cases h
      exact .inr ⟨fun hs => hv hs.2.1, hpos⟩

/-- A stuck message does not leave the loop. -/
lemma next_of_stuck {x : Client} (h : x.stuck) (fan : UInt16) :
    x.next fan = some (x.act fan x.request).shift := by
  rw [next, if_neg h.1.ne', if_pos h.2.1, if_neg h.2.2.2]

end Client

/-! ## Requests leave the lists in order -/

/-- The call asks the mini-driver about the temperature. -/
def Call.isTemp : Call → Bool
  | .temp_control _ _ => true
  | _ => false

/-- The number of calls about the temperature. -/
def temps (l : List Call) : ℕ := l.countP Call.isTemp

lemma temps_append (l l' : List Call) : temps (l ++ l') = temps l + temps l' :=
  List.countP_append

lemma temps_frames {l : List Call} (h : ∀ w ∈ l, w.isFrame = true) : temps l = 0 := by
  refine List.countP_eq_zero.mpr fun w hw => ?_
  have := h w hw
  cases w <;> simp_all [Call.isFrame, Call.isTemp]

variable (k : Kernel) (m : Mini)

namespace Sched

variable {c : Field}

/-- New exposures do not concern the records of the clients, nor the temperature. -/
lemma new_frame (msg : Msg) (a : Sched) :
    (a.new k c msg).clients = a.clients ∧ temps (a.new k c msg).calls = temps a.calls := by
  rcases a.new_cases k c msg rfl with ⟨-, h⟩ | ⟨_, _, -, -, -, h⟩ | ⟨_, _, -, -, -, h⟩ |
    ⟨_, _, _, -, -, h⟩
  · rw [h]
    exact ⟨rfl, temps_append _ _⟩
  · rw [h]
    exact ⟨rfl, rfl⟩
  · rw [h]
    exact ⟨rfl, temps_append _ _⟩
  · rw [h]
    exact ⟨rfl, rfl⟩

lemma drop_temps (l : List ℕ) (a : Sched) : temps (a.drop k c l).calls = temps a.calls := by
  induction l generalizing a with
  | nil => rfl
  | cons i l ih =>
    obtain ⟨l', hl', hf⟩ := del_calls k i a
    rw [drop, ih]
    show temps (a.del k i).calls = _
    rw [hl', temps_append, temps_frames hf, Nat.add_zero]

lemma mark_temps (a : Sched) : temps (a.mark c).calls = temps a.calls := by
  unfold mark
  split
  · rfl
  · show temps (a.stopRead _).calls = _
    unfold stopRead
    split
    · rfl
    · split
      · split
        · show temps (a.calls ++ [_] ++ [_]) = _
          rw [temps_append, temps_append]
          rfl
        · rfl
      · rfl

/-- An abort empties the client's output, and changes nothing else in the record. -/
lemma abort_frame (a : Sched) :
    Client.Like ((a.clients c).act 0 .abort) ((a.abort k c).clients c) ∧
      temps (a.abort k c).calls = temps a.calls := by
  have hstat : (drop k c (a.owned c) (a.mark c)).static = a.static :=
    (drop_static k c _ _).trans (mark_static c a)
  have hcl : (drop k c (a.owned c) (a.mark c)).clients = a.clients :=
    congrArg (fun x => x.2.2.1) hstat
  have habort : (a.abort k c).clients c
      = { (drop k c (a.owned c) (a.mark c)).clients c with out_buf_len := 0 } := by
    show Function.update _ c _ c = _
    rw [Function.update_self]
  refine ⟨?_, ?_⟩
  · rw [habort, hcl]
    exact ⟨rfl, rfl, rfl, rfl⟩
  · show temps (drop k c (a.owned c) (a.mark c)).calls = _
    rw [drop_temps, mark_temps]

end Sched

variable {k m} {s : State} {a : Sched} {c : Field}

lemma Linked.set_client {x : Client} (h : Linked s a) :
    Linked { s with toCore := s.toCore.set_client c x }
      { a with toCore := a.toCore.set_client c x } := by
  rw [h.core]
  exact h.set_core rfl

@[simp] lemma Core.clients_set_client (c : Field) (x : Client) (y : Core) :
    (y.set_client c x).clients c = x := by
  simp [Core.set_client]

/-- Carrying out a request comes to an end.  It fails for want of room for the reply, or
changes the client's record as `act` says. -/
lemma carry_out_spec (h : Linked s a) (r : Request) {fan : UInt16}
    (hfan : ∀ f t, r = .temp f t → (m.temp_control s.calls f t).1 = fan) :
    (r.no_room (s.clients c) ∧ ∃ s', carry_out k m c s r = some (s', .error .ENOBUFS)) ∨
    (¬ r.no_room (s.clients c) ∧ ∃ s' b, carry_out k m c s r = some (s', .ok ()) ∧ Linked s' b ∧
      Client.Like ((s.clients c).act fan r) (s'.clients c) ∧
      temps s'.calls = temps s.calls + r.temps) := by
  cases r with
  | query =>
    simp only [carry_out, Request.no_room]
    by_cases hroom : (s.clients c).out_buf_len + CCD_MSG_CCD_LEN ≤ (s.clients c).out_buf_size
    · rw [if_pos hroom]
      refine .inr ⟨by omega, _, _, rfl, h.set_client, ?_, rfl⟩
      show Client.Like _ ((s.toCore.set_client c _).clients c)
      rw [Core.clients_set_client]
      exact ⟨rfl, rfl, rfl, rfl⟩
    · rw [if_neg hroom]
      exact .inl ⟨by omega, s, rfl⟩
  | expose parms =>
    obtain ⟨s', hs', hl⟩ := h.new_exposure k (c := c) (exp_msg parms)
    obtain ⟨hcl, htemps⟩ := Sched.new_frame (c := c) k (exp_msg parms) a
    refine .inr ⟨id, s', _, ?_, hl, ?_, ?_⟩
    · simp only [carry_out, hs', Option.map_some]
    · have hsame : s'.clients = s.clients :=
        (congrArg Core.clients hl.core).trans (hcl.trans (congrArg Core.clients h.core).symm)
      rw [hsame]
      exact .refl _
    · have hcalls : s'.calls = _ := congrArg Core.calls hl.core
      rw [hcalls, htemps, ← h.core]
      rfl
  | control cmd parm =>
    refine .inr ⟨id, _, _, rfl, h.set_core (show s.fresh = a.fresh from congrArg Core.fresh h.core),
      .refl _, ?_⟩
    exact temps_append _ _
  | abort =>
    obtain ⟨s', hs', hl⟩ := h.abort_exposures k (c := c)
    obtain ⟨hcl, htemps⟩ := Sched.abort_frame (c := c) k a
    refine .inr ⟨id, s', _, ?_, hl, ?_, ?_⟩
    · simp only [carry_out, hs', Option.map_some]
    · rw [← hl.core, ← h.core] at hcl
      exact hcl
    · have hcalls : s'.calls = _ := congrArg Core.calls hl.core
      rw [hcalls, htemps, ← h.core]
      rfl
  | temp f t =>
    have hanswer := hfan f t rfl
    simp only [carry_out, Request.no_room, temp_request, hanswer]
    have hlink (w : Call) (x : Client) :
        Linked { s with toCore := (s.toCore.call w).set_client c x }
          { a with toCore := (s.toCore.call w).set_client c x } :=
      h.set_core (show s.fresh = a.fresh from congrArg Core.fresh h.core)
    by_cases hroom : (s.clients c).out_buf_len + CCD_MSG_TEMP_LEN ≤ (s.clients c).out_buf_size
    · have hroom' : ((s.clients c).set_fan fan).out_buf_len + CCD_MSG_TEMP_LEN
          ≤ ((s.clients c).set_fan fan).out_buf_size := hroom
      rw [if_pos hroom']
      refine .inr ⟨by omega, _, _, rfl, hlink _ _, ?_, ?_⟩
      · show Client.Like _ (((s.toCore.call _).set_client c _).clients c)
        rw [Core.clients_set_client]
        exact ⟨rfl, rfl, rfl, rfl⟩
      · exact temps_append _ _
    · have hroom' : ¬ ((s.clients c).set_fan fan).out_buf_len + CCD_MSG_TEMP_LEN
          ≤ ((s.clients c).set_fan fan).out_buf_size := hroom
      rw [if_neg hroom']
      exact .inl ⟨by omega, _, rfl⟩
  | nothing => exact .inr ⟨id, s, a, rfl, h, .refl _, rfl⟩

/-- An iteration of the parser is what `next` says about the client's record. -/
lemma parse_binary_msg_spec (h : Linked s a) {x : Client} (hx : Client.Like x (s.clients c))
    {fan : UInt16}
    (hfan : ∀ f t, x.request = .temp f t → (m.temp_control s.calls f t).1 = fan) :
    (x.next fan = none ∧ ∃ r, parse_binary_msg k m c s = .inr (some r)) ∨
    ∃ y s' b, x.next fan = some y ∧ parse_binary_msg k m c s = .inl s' ∧ Linked s' b ∧
      Client.Like y (s'.clients c) ∧ temps s'.calls = temps s.calls + x.temps := by
  simp only [parse_binary_msg]
  by_cases hz : x.in_buf_len = 0
  · rw [if_pos (hx.in_len.trans hz), Client.next, if_pos hz]
    exact .inl ⟨rfl, _, rfl⟩
  · rw [if_neg (hx.in_len ▸ hz), Client.next, if_neg hz]
    by_cases hv : x.valid
    · rw [if_pos (show ((s.clients c).msg 0).toNat = CCD_MSG_HEADER from hx.valid_iff.mpr hv),
        if_pos hv, hx.request_eq]
      rcases carry_out_spec (k := k) (c := c) h x.request hfan with
        ⟨hroom, s', hs'⟩ | ⟨hroom, s', b, hs', hb, hlike, htemps⟩
      · rw [hs', if_pos ((hx.no_room_iff _).mp hroom)]
        exact .inl ⟨rfl, _, rfl⟩
      · rw [hs', if_neg fun hr => hroom ((hx.no_room_iff _).mpr hr)]
        refine .inr ⟨_, _, _, rfl, rfl, hb.set_client, ?_, ?_⟩
        · show Client.Like _ ((s'.toCore.set_client c _).clients c)
          rw [Core.clients_set_client]
          exact ((hx.act fan _).trans hlike).shift
        · rw [Client.temps, if_pos hv]
          exact htemps
    · rw [if_neg (show ¬ ((s.clients c).msg 0).toNat = CCD_MSG_HEADER from
        fun hv' => hv (hx.valid_iff.mp hv')), if_neg hv]
      refine .inr ⟨_, _, _, rfl, rfl, h.set_client, ?_, ?_⟩
      · show Client.Like _ ((s.toCore.set_client c _).clients c)
        rw [Core.clients_set_client]
        exact ⟨hx.in_buf, rfl, hx.out_len, hx.out_size⟩
      · rw [Client.temps, if_neg hv]
        rfl

/-! ## The loop -/

/-- The iteration that starts in `s` leaves the loop or shortens the input of client `c`. -/
def Shrinks (k : Kernel) (m : Mini) (c : Field) (s : State) : Prop :=
  ∀ s', parse_binary_msg k m c s = .inl s' →
    (s'.clients c).in_buf_len < (s.clients c).in_buf_len

/-- The fan state that the mini-driver leaves in the message at the front. -/
def fan_answer (m : Mini) (c : Field) (s : State) : UInt16 :=
  match (s.clients c).request with
  | .temp f t => (m.temp_control s.calls f t).1
  | _ => 0

lemma fan_answer_spec {f : UInt16} {t : ℤ} (h : (s.clients c).request = .temp f t) :
    (m.temp_control s.calls f t).1 = fan_answer m c s := by
  rw [fan_answer, h]

/-- An iteration, for the client's own record. -/
lemma Linked.parse_cases (k : Kernel) (m : Mini) (c : Field) (h : Linked s a) :
    ((s.clients c).next (fan_answer m c s) = none ∧
      ∃ r, parse_binary_msg k m c s = .inr (some r)) ∨
    ∃ y s' b, (s.clients c).next (fan_answer m c s) = some y ∧
      parse_binary_msg k m c s = .inl s' ∧ Linked s' b ∧ Client.Like y (s'.clients c) :=  by
  rcases parse_binary_msg_spec (k := k) h (.refl (s.clients c)) (m := m) fun f t hr =>
    fan_answer_spec hr with ⟨hnone, r, hr⟩ | ⟨y, s', b, hy, hs', hb, hlike, -⟩
  · exact .inl ⟨hnone, r, hr⟩
  · exact .inr ⟨y, s', b, hy, hs', hb, hlike⟩

lemma Linked.shrinks_iff (h : Linked s a) : Shrinks k m c s ↔ ¬ (s.clients c).stuck := by
  rcases h.parse_cases k m c with ⟨hnone, r, hr⟩ | ⟨y, s', b, hy, hs', -, hlike⟩
  · refine ⟨fun _ hstuck => ?_, fun _ s' hs' => ?_⟩
    · rw [Client.next_of_stuck hstuck] at hnone
      cases hnone
    · rw [hr] at hs'
      cases hs'
  · rcases Client.next_in_len hy with ⟨hstuck, heq⟩ | ⟨hns, hlt⟩
    · refine ⟨fun hshrink => ?_, fun hns => absurd hstuck hns⟩
      have hlt := hshrink s' hs'
      rw [hlike.in_len] at hlt
      exact absurd heq hlt.ne
    · refine ⟨fun _ => hns, fun _ t ht => ?_⟩
      rw [hs'] at ht
      cases ht
      rw [hlike.in_len]
      exact hlt

lemma Linked.iterate_linked {n : ℕ} {t : State} (h : Linked s a)
    (ht : iterate (parse_binary_msg k m c) n s = some t) : ∃ b, Linked t b := by
  refine iterate_invariant (P := fun t => ∃ b, Linked t b) ?_ ⟨a, h⟩ ht
  rintro u u' ⟨b, hb⟩ hu
  rcases hb.parse_cases k m c with ⟨-, r, hr⟩ | ⟨y, s', b', -, hs', hb', -⟩
  · rw [hr] at hu
    cases hu
  · rw [hs'] at hu
    cases hu
    exact ⟨b', hb'⟩

/-- The result of the loop is one of the parser. -/
lemma Linked.ends_some {r : Option (State × Except Errno Unit)} (h : Linked s a)
    (hr : Ends (parse_binary_msg k m c) s r) : ∃ r', r = some r' := by
  obtain ⟨n, hn⟩ := hr
  refine loop_invariant (P := fun t => ∃ b, Linked t b) (Q := fun r => ∃ r', r = some r') ?_ ?_
    ⟨a, h⟩ hn
  · rintro u u' ⟨b, hb⟩ hu
    exact hb.iterate_linked (n := 1) (iterate_inl hu)
  · rintro u r ⟨b, hb⟩ hu
    rcases hb.parse_cases k m c with ⟨-, r', hr'⟩ | ⟨y, s', b', -, hs', -⟩
    · rw [hr'] at hu
      cases hu
      exact ⟨r', rfl⟩
    · rw [hs'] at hu
      cases hu

/-! ## The messages that are met -/

/-- What holds of the first record and is kept by every message holds of all that are met. -/
lemma Client.Meets.invariant {P : Client → Prop} {x y : Client} (h : x.Meets y) (hx : P x)
    (hstep : ∀ fan y z, P y → y.next fan = some z → P z) : P y := by
  obtain ⟨fans, n, j, hwalk⟩ := h
  induction n generalizing j y with
  | zero =>
    cases hwalk
    exact hx
  | succ n ih =>
    rw [Client.walk, Option.bind_eq_some_iff] at hwalk
    obtain ⟨⟨j', y'⟩, hwalk', hlast⟩ := hwalk
    rw [Option.map_eq_some_iff] at hlast
    obtain ⟨z, hz, heq⟩ := hlast
    cases heq
    exact hstep _ _ _ (ih _ hwalk') hz

/-- What the mini-driver leaves in later messages does not matter. -/
lemma Client.walk_update {fans : ℕ → UInt16} {x y : Client} {n j i : ℕ} (fan : UInt16)
    (h : x.walk fans n = some (j, y)) (hi : j ≤ i) :
    x.walk (Function.update fans i fan) n = some (j, y) := by
  induction n generalizing j y with
  | zero => exact h
  | succ n ih =>
    rw [walk, Option.bind_eq_some_iff] at h
    obtain ⟨⟨j', y'⟩, h', hstep⟩ := h
    rw [Option.map_eq_some_iff] at hstep
    obtain ⟨z, hz, heq⟩ := hstep
    obtain ⟨hj, rfl⟩ := Prod.mk.inj heq
    have hj' : j' + y'.temps = j := hj
    rw [walk, ih h' (by omega), Option.bind_some]
    have hsame : y'.next (Function.update fans i fan j') = some z := by
      rw [← hz]
      by_cases ht : y'.temps = 0
      · unfold next temps at *
        split
        · rfl
        · split
          · rename_i hv
            rw [if_pos hv] at ht
            rw [act_congr ht]
          · rfl
      · rw [Function.update_of_ne (by omega)]
    rw [hsame, Option.map_some, hj]

/-- The parser's run follows a walk over the client's record. -/
lemma Linked.meets {n : ℕ} {t : State} (h : Linked s a)
    (ht : iterate (parse_binary_msg k m c) n s = some t) :
    ∃ fans j y, (s.clients c).walk fans n = some (j, y) ∧ Client.Like y (t.clients c) := by
  induction n generalizing t with
  | zero =>
    cases ht
    exact ⟨fun _ => 0, 0, _, rfl, .refl _⟩
  | succ n ih =>
    rw [iterate_succ, Option.bind_eq_some_iff] at ht
    obtain ⟨u, hu, hlast⟩ := ht
    obtain ⟨fans, j, y, hwalk, hlike⟩ := ih hu
    obtain ⟨b, hb⟩ := h.iterate_linked hu
    have hfan (f : UInt16) (v : ℤ) (hr : y.request = .temp f v) :
        (m.temp_control u.calls f v).1 = fan_answer m c u :=
      fan_answer_spec (hlike.request_eq.trans hr)
    rcases parse_binary_msg_spec (k := k) hb hlike hfan with
      ⟨-, r, hr⟩ | ⟨z, u', b', hz, hu', -, hlike', -⟩
    · rw [hr] at hlast
      cases hlast
    · rw [hu'] at hlast
      cases hlast
      refine ⟨Function.update fans j (fan_answer m c u), j + y.temps, z, ?_, hlike'⟩
      rw [Client.walk, Client.walk_update _ hwalk (le_refl j), Option.bind_some]
      simp only [Function.update_self, hz, Option.map_some]

/-- A mini-driver that leaves the given fan states in the temperature requests after the
first `n`. -/
def Mini.with_fans (m : Mini) (fans : ℕ → UInt16) (n : ℕ) : Mini :=
  { m with temp_control := fun calls _ _ => (fans (temps calls - n), 0) }

/-- Some mini-driver makes the parser follow a given walk. -/
lemma Linked.follow {fans : ℕ → UInt16} {n j : ℕ} {y : Client} (h : Linked s a)
    (hw : (s.clients c).walk fans n = some (j, y)) :
    ∃ t, iterate (parse_binary_msg k (m.with_fans fans (temps s.calls)) c) n s = some t ∧
      Client.Like y (t.clients c) ∧ temps t.calls = temps s.calls + j := by
  induction n generalizing j y with
  | zero =>
    cases hw
    exact ⟨s, rfl, .refl _, rfl⟩
  | succ n ih =>
    rw [Client.walk, Option.bind_eq_some_iff] at hw
    obtain ⟨⟨j', x⟩, hw', hstep⟩ := hw
    rw [Option.map_eq_some_iff] at hstep
    obtain ⟨z, hz, heq⟩ := hstep
    obtain ⟨rfl, rfl⟩ := Prod.mk.inj heq
    obtain ⟨t, ht, hlike, htemps⟩ := ih hw'
    obtain ⟨b, hb⟩ := h.iterate_linked ht
    have hfan (f : UInt16) (v : ℤ) (_ : x.request = .temp f v) :
        ((m.with_fans fans (temps s.calls)).temp_control t.calls f v).1 = fans j' := by
      show fans (temps t.calls - temps s.calls) = fans j'
      rw [htemps, Nat.add_sub_cancel_left]
    rcases parse_binary_msg_spec (k := k) hb hlike hfan with
      ⟨hnone, -⟩ | ⟨y, t', b', hy, ht', -, hlike', htemps'⟩
    · rw [hz] at hnone
      cases hnone
    · rw [hz] at hy
      cases hy
      refine ⟨t', ?_, hlike', ?_⟩
      · rw [iterate_succ, ht, Option.bind_some, ht']
        rfl
      · rw [htemps', htemps, Nat.add_assoc]

/-! ## The empty message -/

/-- Cutting off nothing leaves the input as it is. -/
lemma Client.shift_of_zero {x : Client} (h : x.msg_len = 0) (hpos : 0 < x.in_buf_len) :
    x.shift.in_buf = x.in_buf ∧ x.shift.in_buf_len = x.in_buf_len := by
  have hsame : put x.in_buf 0 (slice x.in_buf 0 x.in_buf_len) = x.in_buf := by
    funext j
    by_cases hj : j < x.in_buf_len
    · have := put_of_mem (m := x.in_buf) (p := 0) (l := slice x.in_buf 0 x.in_buf_len) (j := j)
        (by rwa [length_slice])
      rw [Nat.zero_add, getElem_slice, Nat.zero_add] at this
      exact this
    · refine put_of_ge ?_
      rw [length_slice]
      omega
  rw [shift, if_neg (by omega), h]
  exact ⟨hsame, Nat.sub_zero _⟩

/-- A stuck message that is not answered comes back unchanged. -/
lemma Client.next_unanswered {x : Client} (h : x.stuck) (hans : x.request.answered = false)
    (fan : UInt16) :
    ∃ y, x.next fan = some y ∧ y.stuck ∧ y.request.answered = false := by
  obtain ⟨hpos, hv, hlen, hroom⟩ := id h
  have hact : (x.act fan x.request).in_buf = x.in_buf := by
    cases hr : x.request with
    | temp f t =>
      rw [hr] at hans
      cases hans
    | _ => rfl
  have hmsg : (x.act fan x.request).msg = x.msg := by
    unfold msg
    rw [hact]
  have hlen' : (x.act fan x.request).msg_len = 0 := by
    rw [msg_len, msg_long, hmsg]
    exact hlen
  obtain ⟨hbuf, hin⟩ := shift_of_zero hlen' (by rw [act_in_len]; exact hpos)
  obtain ⟨y, hy⟩ : ∃ y, y = (x.act fan x.request).shift := ⟨_, rfl⟩
  rw [← hy, act_in_len] at hin
  rw [← hy, hact] at hbuf
  -- the request does not depend on the output
  have hlike : Like { y with out_buf_len := x.out_buf_len, out_buf_size := x.out_buf_size } x :=
    ⟨hbuf.symm, hin.symm, rfl, rfl⟩
  have hreq : y.request = x.request := hlike.request_eq.symm
  refine ⟨y, by rw [next_of_stuck h, hy], ⟨hin ▸ hpos, ?_, ?_, ?_⟩, hreq ▸ hans⟩
  · exact hlike.valid_iff.mp hv
  · exact hlike.msg_len_eq.symm.trans hlen
  · rw [hreq]
    cases hr : x.request with
    | query =>
      rw [hr] at hans
      cases hans
    | temp f t =>
      rw [hr] at hans
      cases hans
    | _ => exact id

/-- An empty message that is not answered keeps the parser busy for ever. -/
lemma Linked.loop_stuck (h : Linked s a) (hs : (s.clients c).stuck)
    (hans : (s.clients c).request.answered = false) (fuel : ℕ) :
    loop (parse_binary_msg k m c) fuel s = none := by
  refine loop_eq_none (P := fun t => (∃ b, Linked t b) ∧ (t.clients c).stuck ∧
    (t.clients c).request.answered = false) ?_ ⟨⟨a, h⟩, hs, hans⟩ fuel
  rintro t ⟨⟨b, hb⟩, ht, hta⟩
  obtain ⟨y, hy, hys, hya⟩ := Client.next_unanswered ht hta (fan_answer m c t)
  rcases hb.parse_cases k m c with ⟨hnone, -⟩ | ⟨y', t', b', hy', ht', hb', hlike⟩
  · rw [hy] at hnone
    cases hnone
  · rw [hy] at hy'
    cases hy'
    refine ⟨t', ht', ⟨b', hb'⟩, hlike.stuck_iff.mpr hys, ?_⟩
    rw [hlike.request_eq]
    exact hya

/-- Whatever the mini-driver does, the parser comes to an end, with every iteration leaving
the loop or shortening the input, if and only if no message that it can meet has a header and
a length of zero, apart from a request whose reply has no room.  An empty message that is
not answered makes it run for ever. -/
theorem binary_parser_ends (h : Linked s a) :
    ((∀ m, (∃ r, Ends (parse_binary_msg k m c) s (some r)) ∧
        ∀ n t, iterate (parse_binary_msg k m c) n s = some t → Shrinks k m c t) ↔
      ∀ y, (s.clients c).Meets y → ¬ y.stuck) ∧
    ∀ m n t, iterate (parse_binary_msg k m c) n s = some t → (t.clients c).stuck →
      (t.clients c).request.answered = false →
      ∀ fuel, loop (parse_binary_msg k m c) fuel s = none := by
  refine ⟨⟨fun hall y ⟨fans, n, j, hwalk⟩ => ?_, fun hno m => ?_⟩,
    fun m n t ht hstuck hans fuel => ?_⟩
  · obtain ⟨t, ht, hlike, -⟩ := h.follow (k := k) (m := Mini.black) hwalk
    obtain ⟨b, hb⟩ := h.iterate_linked ht
    have hns := hb.shrinks_iff.mp ((hall _).2 n t ht)
    exact fun hstuck => hns (hlike.stuck_iff.mpr hstuck)
  · have hshrinks (n : ℕ) (t : State) (ht : iterate (parse_binary_msg k m c) n s = some t) :
        Shrinks k m c t := by
      obtain ⟨b, hb⟩ := h.iterate_linked ht
      obtain ⟨fans, j, y, hwalk, hlike⟩ := h.meets ht
      rw [hb.shrinks_iff, hlike.stuck_iff]
      exact hno y ⟨fans, n, j, hwalk⟩
    refine ⟨?_, hshrinks⟩
    obtain ⟨r, hr⟩ := ends_of_measure (fun t => (t.clients c).in_buf_len)
      fun n t t' ht hstep => hshrinks n t ht t' hstep
    obtain ⟨r', rfl⟩ := h.ends_some hr
    exact ⟨r', hr⟩
  · obtain ⟨b, hb⟩ := h.iterate_linked ht
    exact loop_eq_none_of_iterate ht (fun fuel' => hb.loop_stuck hstuck hans fuel') fuel

/-- A binary client of the small camera. -/
def opened_run : List Event := [.register .small, .open_ 0 .binary false]

lemma opened_start :
    ∃ s, replay (step .hz100 .black) (State.init 0) opened_run = some s ∧ Linked s s.view ∧
      s.registered = true ∧ (s.clients 0).in_buf_len = 0 ∧ (s.clients 0).in_buf = fun _ => 0 := by
  obtain ⟨s, hs⟩ : ∃ s, replay (step .hz100 .black) (State.init 0) opened_run = some s :=
    ⟨_, rfl⟩
  have hview : s.registered = true ∧ (s.clients 0).in_buf_len = 0 ∧
      (s.clients 0).in_buf = fun _ => 0 := by
    cases hs
    exact ⟨rfl, rfl, rfl⟩
  obtain ⟨a, ha⟩ := Runs.represents (Reach.of_replay .init hs)
  refine ⟨s, hs, ?_, hview⟩
  rw [ha.toLinked.view_eq]
  exact ha.toLinked

/-- A whole query message, and the first four bytes of another. -/
def query_and_cut : List UInt8 :=
  [0xDD, 0xCC, 8, 0, 0, 0, 1, 1, 0xDD, 0xCC, 8, 0]

/-- The query is answered, what there is of the other message is thrown away, and the loop is
left. -/
theorem binary_parser_ends_cut :
    ∃ s, replay (step .hz100 .black) (State.init 0) opened_run = some s ∧
      ∀ m, ∃ r, Ends (parse_binary_msg .hz100 m 0)
        { s with toCore := s.toCore.set_client 0 ((s.clients 0).take_in query_and_cut) }
        (some r) := by
  obtain ⟨s, hs, hlink, -, hlen, hbuf⟩ := opened_start
  obtain ⟨x, hx⟩ : ∃ x, x = (s.clients 0).take_in query_and_cut := ⟨_, rfl⟩
  have hin : x.in_buf = put (fun _ => 0) 0 query_and_cut ∧ x.in_buf_len = 12 := by
    rw [hx]
    simp only [Client.take_in, hlen, hbuf]
    exact ⟨rfl, rfl⟩
  have hreq : x.request = .query := by
    simp only [Client.request, Client.is_msg, Client.msg, hin]
    rfl
  have hmsg : x.msg_len = 8 := by
    simp only [Client.msg_len, Client.msg_long, Client.msg, hin]
    rfl
  obtain ⟨w, hw⟩ : ∃ w, w = (x.act 0 .query).shift := ⟨_, rfl⟩
  have hcut : w.in_buf_len = 4 ∧ w.msg_len = 8 ∧ w.request = .nothing := by
    rw [hw, Client.shift, show (x.act 0 .query).msg_len = 8 from hmsg]
    simp only [Client.act, hin, Client.request, Client.is_msg, Client.msg_len, Client.msg_long,
      Client.msg]
    exact ⟨rfl, rfl, rfl⟩
  refine ⟨s, hs, fun m => (((binary_parser_ends (hlink.set_client (c := 0)
    (x := (s.clients 0).take_in query_and_cut))).1.mpr ?_) m).1⟩
  rw [← hx, Core.clients_set_client]
  intro y hy
  -- the parser meets the query, then the cut message, then the end of the input
  have hcases : y = x ∨ y = w ∨ y.in_buf_len = 0 := by
    refine hy.invariant (P := fun y => y = x ∨ y = w ∨ y.in_buf_len = 0) (.inl rfl) ?_
    rintro fan y z (hy | hy | hz) hnext
    · rw [hy, Client.next, hreq] at hnext
      split_ifs at hnext
      · exact .inr (.inl ((Option.some.inj hnext).symm.trans hw.symm))
      · exact .inr (.inr (congrArg Client.in_buf_len (Option.some.inj hnext).symm))
    · rw [hy, Client.next, hcut.2.2] at hnext
      split_ifs at hnext
      · refine .inr (.inr ?_)
        rw [← Option.some.inj hnext, show w.act fan .nothing = w from rfl,
          Client.shift_in_len, hcut.1, hcut.2.1]
        rfl
      · exact .inr (.inr (congrArg Client.in_buf_len (Option.some.inj hnext).symm))
    · rw [Client.next, if_pos hz] at hnext
      cases hnext
  rintro ⟨hpos, -, hzero, -⟩
  rcases hcases with hy | hy | hz
  · rw [hy, hmsg] at hzero
    cases hzero
  · rw [hy, hcut.2.1] at hzero
    cases hzero
  · exact hpos.ne' hz

/-- A message that consists of a header and an empty length is written, and `write` never
returns. -/
theorem empty_message_loops :
    ∃ s, replay (step .hz100 .black) (State.init 0) opened_run = some s ∧
      ∀ fuel, ccd_write .hz100 .black fuel 0 [0xDD, 0xCC, 0, 0, 0, 0, 0, 0] s = none := by
  obtain ⟨s, hs, hlink, hreg, hlen, hbuf⟩ := opened_start
  refine ⟨s, hs, fun fuel => ?_⟩
  obtain ⟨x, hx⟩ : ∃ x, x = (s.clients 0).take_in [0xDD, 0xCC, 0, 0, 0, 0, 0, 0] := ⟨_, rfl⟩
  have hin : x.in_buf = put (fun _ => 0) 0 [0xDD, 0xCC, 0, 0, 0, 0, 0, 0] ∧ x.in_buf_len = 8 := by
    rw [hx]
    simp only [Client.take_in, hlen, hbuf]
    exact ⟨rfl, rfl⟩
  have hcl : (s.toCore.set_client 0 x).clients 0 = x := Core.clients_set_client _ _ _
  have hreq : x.request = .nothing := by
    simp only [Client.request, Client.is_msg, Client.msg, hin]
    rfl
  have hstuck : x.stuck := by
    refine ⟨by rw [hin.2]; decide, ?_, ?_, by rw [hreq]; exact id⟩
    · simp only [Client.valid, Client.msg, hin]
      rfl
    · simp only [Client.msg_len, Client.msg_long, Client.msg, hin]
      rfl
  have hloop : loop (parse_binary_msg .hz100 .black 0) fuel
      { s with toCore := s.toCore.set_client 0 x } = none := by
    refine (hlink.set_client (c := 0) (x := x)).loop_stuck ?_ ?_ fuel
    · show ((s.toCore.set_client 0 x).clients 0).stuck
      rw [hcl]
      exact hstuck
    · show ((s.toCore.set_client 0 x).clients 0).request.answered = false
      rw [hcl, hreq]
      rfl
  rw [ccd_write, if_neg (by simp [hreg]), if_neg (by simp), ← hx, hloop]
  rfl

end EspLinux.Ccd
