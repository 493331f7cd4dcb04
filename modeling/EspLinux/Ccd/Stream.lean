import EspLinux.Ccd.Parse

/-!
# Streams of binary messages

A client may send its messages in any number of writes.  The parser acts on the messages that
a write holds in full.  It drops a message of which only a part has arrived, although
`ccd_write` means to keep it until there is enough of it, and then takes the rest of it for
garbage.
-/

namespace EspLinux.Ccd

open EspLinux.Lib

/-! ## Messages -/

/-- A message of a client. -/
inductive Message
  | query
  | expose (parms : Vector UInt16 10)
  | control (cmd lo hi : UInt16)
  | abort
deriving DecidableEq

namespace Message

/-- The elements behind the length and the kind of a message. -/
def body : Message → List UInt16
  | query => []
  | expose parms => parms.toList
  | control cmd lo hi => [cmd, lo, hi]
  | abort => []

/-- The number of the kind. -/
def kind : Message → ℕ
  | query => CCD_MSG_QUERY
  | expose _ => CCD_MSG_EXP
  | control _ _ _ => CCD_MSG_CTRL
  | abort => CCD_MSG_ABORT

/-- The length of a message in bytes. -/
def len : Message → ℕ
  | query => CCD_MSG_QUERY_LEN
  | expose _ => CCD_MSG_EXP_LEN
  | control _ _ _ => CCD_MSG_CTRL_LEN
  | abort => CCD_MSG_ABORT_LEN

/-- The elements of a message, with its length in the second and third one. -/
def elems (w : Message) : List UInt16 :=
  [UInt16.ofNat CCD_MSG_HEADER, UInt16.ofNat w.len, 0, UInt16.ofNat w.kind] ++ w.body

/-- The bytes of a message. -/
def bytes (w : Message) : List UInt8 := w.elems.flatMap fun e => elem_bytes e.toNat

/-- What the message asks for. -/
def request : Message → Request
  | query => .query
  | expose parms => .expose parms.toList
  | control cmd lo hi => .control cmd.toNat (lo.toNat + 2 ^ 16 * hi.toNat)
  | abort => .abort

end Message

/-- The bytes of a stream of messages. -/
def encode (ws : List Message) : List UInt8 := ws.flatMap Message.bytes

/-- The replies to the messages fit into a buffer of the given size with `n` bytes in it. -/
def Fit (size : ℕ) : ℕ → List Message → Prop
  | _, [] => True
  | n, .query :: ws => n + CCD_MSG_CCD_LEN ≤ size ∧ Fit size (n + CCD_MSG_CCD_LEN) ws
  | _, .abort :: ws => Fit size 0 ws
  | n, .expose _ :: ws => Fit size n ws
  | n, .control _ _ _ :: ws => Fit size n ws

/-! ## Writes -/

/-- The request that an iteration of the parser carries out, if any. -/
def performed (c : Field) (s : State) : List Request :=
  if (s.clients c).valid ∧ (s.clients c).request ≠ .nothing then [(s.clients c).request] else []

variable (k : Kernel) (m : Mini)

/-- The requests that the parser carries out in at most `n` iterations. -/
def acted (c : Field) : ℕ → State → List Request
  | 0, _ => []
  | n + 1, s =>
    match parse_binary_msg k m c s with
    | .inl s' => performed c s ++ acted c n s'
    | .inr _ => []

/-- The client writes `data`, and then again what a write has not taken, at most `n` times.
The requests are those that the parser carries out. -/
def write_all (fuel : ℕ) (c : Field) : ℕ → List UInt8 → State → Option (State × List Request)
  | _, [], s => some (s, [])
  | 0, _ :: _, _ => none
  | n + 1, b :: l, s => do
    let acts := acted k m c fuel
      { s with toCore := s.toCore.set_client c ((s.clients c).take_in (b :: l)) }
    match ← ccd_write k m fuel c (b :: l) s with
    | (s, .error _) => some (s, acts)
    | (s, .ok w) =>
      let (s, acts') ← write_all fuel c n ((b :: l).drop w) s
      some (s, acts ++ acts')

/-- The client writes the parts of a stream one after another. -/
def writes (fuel : ℕ) (c : Field) : List (List UInt8) → State → Option (State × List Request)
  | [], s => some (s, [])
  | d :: ds, s => do
    let (s, acts) ← write_all k m fuel c d.length d s
    let (s, acts') ← writes fuel c ds s
    some (s, acts ++ acts')

/-- The bytes that each write takes of `data` are whole messages, together `ws`. -/
inductive Whole : List Message → List UInt8 → Prop
  | nil : Whole [] []
  | cons {ws ws' : List Message} {data : List UInt8} : data ≠ [] →
      data.take MAX_IN_BUF_SIZE = encode ws → Whole ws' (data.drop MAX_IN_BUF_SIZE) →
      Whole (ws ++ ws') data

/-- The stream `ws` is cut into `ds` between messages, and also between messages where the
parts are longer than the input buffer. -/
def Aligned (ws : List Message) (ds : List (List UInt8)) : Prop :=
  ∃ groups : List (List Message), groups.flatten = ws ∧ List.Forall₂ Whole groups ds

/-! ## Messages in the buffer -/

lemma elem_bytes_toNat (e : UInt16) :
    UInt16.ofNat ((UInt8.ofNat e.toNat).toNat + 2 ^ 8 * (UInt8.ofNat (e.toNat / 2 ^ 8)).toNat)
      = e := by
  have hlt := UInt16.toNat_lt e
  rw [UInt8.toNat_ofNat', UInt8.toNat_ofNat']
  have hsum : e.toNat % 2 ^ 8 + 2 ^ 8 * (e.toNat / 2 ^ 8 % 2 ^ 8) = e.toNat := by omega
  rw [hsum, UInt16.ofNat_toNat]

lemma length_elems_bytes (l : List UInt16) :
    (l.flatMap fun e => elem_bytes e.toNat).length = 2 * l.length := by
  induction l with
  | nil => rfl
  | cons e l ih =>
    rw [List.flatMap_cons, List.length_append, ih, List.length_cons]
    show 2 + _ = _
    omega

/-- The elements are read off their bytes. -/
lemma elem_of_slice {f : ℕ → UInt8} {p : ℕ} {l : List UInt16}
    (h : slice f p (2 * l.length) = l.flatMap fun e => elem_bytes e.toNat) {n : ℕ} (hn : n < l.length) :
    UInt16.ofNat ((f (p + 2 * n)).toNat + 2 ^ 8 * (f (p + (2 * n + 1))).toNat) = l[n] := by
  induction l generalizing p n with
  | nil => cases hn
  | cons e l ih =>
    have hsplit : 2 * (e :: l).length = 2 + 2 * l.length := by
      rw [List.length_cons]
      omega
    rw [hsplit, slice_add, List.flatMap_cons] at h
    obtain ⟨hhead, htail⟩ := List.append_inj h rfl
    cases n with
    | zero =>
      have h₀ : f p = UInt8.ofNat e.toNat ∧ f (p + 1) = UInt8.ofNat (e.toNat / 2 ^ 8) := by
        simpa [slice, elem_bytes, List.range_succ] using hhead
      rw [Nat.mul_zero, Nat.add_zero, Nat.zero_add, h₀.1, h₀.2, elem_bytes_toNat]
      rfl
    | succ n =>
      have := ih htail (Nat.lt_of_succ_lt_succ hn)
      rw [List.getElem_cons_succ, ← this, show p + 2 + 2 * n = p + 2 * (n + 1) by omega,
        show p + 2 + (2 * n + 1) = p + (2 * (n + 1) + 1) by omega]

namespace Client

/-- The input buffer holds `data`. -/
structure Holds (x : Client) (data : List UInt8) : Prop where
  len : x.in_buf_len = data.length
  bytes : slice x.in_buf 0 data.length = data

end Client

lemma Message.length_elems (w : Message) : 2 * w.elems.length = w.len := by
  cases w with
  | expose parms => simp [elems, body, len, CCD_MSG_EXP_LEN]
  | _ => rfl

lemma Message.length_bytes (w : Message) : w.bytes.length = w.len := by
  rw [bytes, length_elems_bytes, length_elems]

lemma Message.len_pos (w : Message) : 0 < w.len := by
  cases w <;> exact Nat.succ_pos _

namespace Client.Holds

variable {x : Client} {w : Message} {rest : List UInt8}

lemma msg_eq (h : x.Holds (w.bytes ++ rest)) {n : ℕ} (hn : n < w.elems.length) :
    x.msg n = w.elems[n] := by
  have hbytes := h.bytes
  rw [List.length_append, slice_add, Message.length_bytes, ← Message.length_elems] at hbytes
  have := elem_of_slice (List.append_inj_left hbytes (by
    rw [length_slice, length_elems_bytes])) hn
  rw [Nat.zero_add, Nat.zero_add] at this
  exact this

/-- The first four elements of the message. -/
lemma front (h : x.Holds (w.bytes ++ rest)) :
    x.msg 0 = UInt16.ofNat CCD_MSG_HEADER ∧ x.msg 1 = UInt16.ofNat w.len ∧ x.msg 2 = 0 ∧
      x.msg 3 = UInt16.ofNat w.kind := by
  have hlen : 4 ≤ w.elems.length := by
    rw [Message.elems, List.length_append]
    exact Nat.le_add_right 4 _
  exact ⟨h.msg_eq (by omega), h.msg_eq (by omega), h.msg_eq (by omega), h.msg_eq (by omega)⟩

lemma valid (h : x.Holds (w.bytes ++ rest)) : x.valid := by
  rw [Client.valid, h.front.1]
  rfl

lemma msg_len_eq (h : x.Holds (w.bytes ++ rest)) : x.msg_len = w.len := by
  rw [msg_len, msg_long, h.front.2.1, h.front.2.2.1]
  cases w <;> rfl

lemma in_len (h : x.Holds (w.bytes ++ rest)) : x.in_buf_len = w.len + rest.length := by
  rw [h.len, List.length_append, Message.length_bytes]

/-- The body of the message. -/
lemma slice_body (h : x.Holds (w.bytes ++ rest)) : slice x.msg 4 w.body.length = w.body := by
  refine List.ext_getElem (length_slice ..) fun n h₁ h₂ => ?_
  have hlen : 4 + n < w.elems.length := by
    rw [Message.elems, List.length_append]
    show 4 + n < 4 + _
    omega
  rw [getElem_slice, h.msg_eq hlen]
  have hfront : [UInt16.ofNat CCD_MSG_HEADER, UInt16.ofNat w.len, 0, UInt16.ofNat w.kind].length
      ≤ 4 + n := Nat.le_add_right 4 n
  simp only [Message.elems, List.getElem_append_right hfront]
  congr 1
  exact Nat.add_sub_cancel_left 4 n

/-- The parser sees what the message asks for. -/
lemma request_eq (h : x.Holds (w.bytes ++ rest)) : x.request = w.request := by
  have hlen := h.in_len
  have hkind : (x.msg CCD_MSG_INDEX).toNat = w.kind := by
    rw [show CCD_MSG_INDEX = 3 from rfl, h.front.2.2.2]
    cases w <;> rfl
  have hbody := h.slice_body
  have hno (len : ℕ) {kind : ℕ} (hk : w.kind ≠ kind) : ¬ x.is_msg len kind :=
    fun h' => hk (hkind.symm.trans h'.2)
  have hyes : x.is_msg w.len w.kind := ⟨by omega, hkind⟩
  unfold request
  cases w with
  | query => exact if_pos hyes
  | expose parms =>
    have hten : (Message.expose parms).body.length = 10 := by simp [Message.body]
    rw [hten] at hbody
    have hquery : ¬ x.is_msg CCD_MSG_QUERY_LEN CCD_MSG_QUERY :=
      hno _ (show CCD_MSG_EXP ≠ CCD_MSG_QUERY by decide)
    rw [if_neg hquery, if_pos (show x.is_msg CCD_MSG_EXP_LEN CCD_MSG_EXP from hyes)]
    exact congrArg Request.expose hbody
  | control cmd lo hi =>
    have hthree : x.msg 4 = cmd ∧ x.msg 5 = lo ∧ x.msg 6 = hi := by
      simpa [slice, Message.body, List.range_succ] using hbody
    have hquery : ¬ x.is_msg CCD_MSG_QUERY_LEN CCD_MSG_QUERY :=
      hno _ (show CCD_MSG_CTRL ≠ CCD_MSG_QUERY by decide)
    have hexp : ¬ x.is_msg CCD_MSG_EXP_LEN CCD_MSG_EXP :=
      hno _ (show CCD_MSG_CTRL ≠ CCD_MSG_EXP by decide)
    rw [if_neg hquery, if_neg hexp, if_pos (show x.is_msg CCD_MSG_CTRL_LEN CCD_MSG_CTRL from hyes),
      msg_long, hthree.1, hthree.2.1, hthree.2.2]
    rfl
  | abort =>
    have hquery : ¬ x.is_msg CCD_MSG_QUERY_LEN CCD_MSG_QUERY :=
      hno _ (show CCD_MSG_ABORT ≠ CCD_MSG_QUERY by decide)
    have hexp : ¬ x.is_msg CCD_MSG_EXP_LEN CCD_MSG_EXP :=
      hno _ (show CCD_MSG_ABORT ≠ CCD_MSG_EXP by decide)
    have hctrl : ¬ x.is_msg CCD_MSG_CTRL_LEN CCD_MSG_CTRL :=
      hno _ (show CCD_MSG_ABORT ≠ CCD_MSG_CTRL by decide)
    rw [if_neg hquery, if_neg hexp, if_neg hctrl]
    exact if_pos hyes

/-- Behind the message the rest is left. -/
lemma shift (h : x.Holds (w.bytes ++ rest)) : x.shift.Holds rest := by
  have hlen := h.in_len
  have hbytes := h.bytes
  rw [List.length_append, slice_add, Message.length_bytes, Nat.zero_add] at hbytes
  have hrest := List.append_inj_right hbytes (by rw [length_slice, Message.length_bytes])
  unfold Client.shift
  rw [h.msg_len_eq]
  by_cases hnil : x.in_buf_len ≤ w.len
  · have : rest = [] := List.eq_nil_of_length_eq_zero (by omega)
    rw [if_pos hnil, this]
    exact ⟨rfl, rfl⟩
  · rw [if_neg hnil]
    have hsub : x.in_buf_len - w.len = rest.length := by omega
    refine ⟨hsub, ?_⟩
    show slice (put x.in_buf 0 (slice x.in_buf w.len (x.in_buf_len - w.len))) 0 _ = _
    rw [hsub, hrest]
    exact slice_put_self

lemma of_like {y : Client} {data : List UInt8} (h : x.Holds data) (hl : x.Like y) :
    y.Holds data :=
  ⟨hl.in_len.trans h.len, by rw [hl.in_buf]; exact h.bytes⟩

end Client.Holds

/-! ## The parser on a stream -/

variable {k m} {s : State} {c : Field} {w : Message} {ws ws' : List Message}
  {data rest : List UInt8}

lemma Sched.new_registered (msg : Msg) (a : Sched) :
    (a.new k c msg).registered = a.registered := by
  rcases a.new_cases k c msg rfl with ⟨-, h⟩ | ⟨_, _, -, -, -, h⟩ | ⟨_, _, -, -, -, h⟩ |
    ⟨_, _, _, -, -, h⟩
  all_goals
    rw [h]
    rfl

/-- No request of a client unregisters the device. -/
lemma carry_out_registered {a : Sched} (h : Linked s a) {s' : State} {e : Except Errno Unit}
    (hs : carry_out k m c s w.request = some (s', e)) : s'.registered = s.registered := by
  cases w with
  | query =>
    simp only [Message.request, carry_out] at hs
    split at hs <;> cases hs <;> rfl
  | expose parms =>
    obtain ⟨t, ht, hl⟩ := h.new_exposure k (c := c) (exp_msg parms.toList)
    simp only [Message.request, carry_out, ht, Option.map_some] at hs
    cases hs
    have hreg : s'.registered = _ := congrArg Core.registered hl.core
    exact hreg.trans ((Sched.new_registered _ a).trans (congrArg Core.registered h.core).symm)
  | control cmd lo hi =>
    cases hs
    rfl
  | abort =>
    obtain ⟨t, ht, hl⟩ := h.abort_exposures k (c := c)
    simp only [Message.request, carry_out, ht, Option.map_some] at hs
    cases hs
    have hreg : s'.registered = _ := congrArg Core.registered hl.core
    exact hreg.trans ((Sched.abort_registered k c a).trans (congrArg Core.registered h.core).symm)

/-- The client's input buffer holds `data`, and there is room for the replies to `ws`. -/
structure Awaits (c : Field) (s : State) (data : List UInt8) (ws : List Message) : Prop where
  linked : ∃ a, Linked s a
  registered : s.registered = true
  holds : (s.clients c).Holds data
  fit : Fit (s.clients c).out_buf_size (s.clients c).out_buf_len ws

/-- There is room for the reply to the first message, and after it for the others. -/
lemma Fit.head {x : Client} (h : Fit x.out_buf_size x.out_buf_len (w :: ws)) :
    ¬ w.request.no_room x ∧ Fit x.out_buf_size (x.act 0 w.request).out_buf_len ws := by
  cases w with
  | query => exact ⟨Nat.not_lt.mpr h.1, h.2⟩
  | expose parms => exact ⟨id, h⟩
  | control cmd lo hi => exact ⟨id, h⟩
  | abort => exact ⟨id, h⟩

/-- An iteration carries out the message at the front. -/
lemma parse_message (h : Awaits c s (w.bytes ++ rest) (w :: ws)) :
    ∃ s', parse_binary_msg k m c s = .inl s' ∧ performed c s = [w.request] ∧
      Awaits c s' rest ws := by
  obtain ⟨a, ha⟩ := h.linked
  obtain ⟨hroom, hfit⟩ := h.fit.head
  have hreq := h.holds.request_eq
  have hpos : ¬ (s.clients c).in_buf_len = 0 := by
    have := w.len_pos
    rw [h.holds.in_len]
    omega
  have hnt (f : UInt16) (t : ℤ) : w.request ≠ .temp f t := by
    cases w <;> nofun
  have hnn : w.request ≠ .nothing := by
    cases w <;> nofun
  rcases @carry_out_spec k m _ _ c ha w.request 0
    fun f t hr => absurd hr (hnt f t) with ⟨hno, -⟩ | ⟨-, t, b, ht, hb, hlike, -⟩
  · exact absurd hno hroom
  refine ⟨{ t with toCore := t.toCore.set_client c (t.clients c).shift }, ?_, ?_, ?_⟩
  · simp only [parse_binary_msg, if_neg hpos]
    rw [if_pos (show ((s.clients c).msg 0).toNat = CCD_MSG_HEADER from h.holds.valid), hreq, ht]
  · rw [performed, if_pos ⟨h.holds.valid, by rwa [hreq]⟩, hreq]
  · have hsame : ((s.clients c).act 0 w.request).Holds (w.bytes ++ rest) := by
      cases w <;> exact ⟨h.holds.len, h.holds.bytes⟩
    have hcl : (t.toCore.set_client c (t.clients c).shift).clients c = (t.clients c).shift :=
      Core.clients_set_client _ _ _
    refine ⟨⟨_, hb.set_client⟩, (carry_out_registered ha ht).trans h.registered, ?_, ?_⟩
    · show ((t.toCore.set_client c (t.clients c).shift).clients c).Holds rest
      rw [hcl]
      exact (hsame.of_like hlike).shift
    · show Fit ((t.toCore.set_client c (t.clients c).shift).clients c).out_buf_size
        ((t.toCore.set_client c (t.clients c).shift).clients c).out_buf_len ws
      have hout : (t.clients c).shift.out_buf_size = (t.clients c).out_buf_size ∧
          (t.clients c).shift.out_buf_len = (t.clients c).out_buf_len := by
        unfold Client.shift
        split <;> exact ⟨rfl, rfl⟩
      have hsize : ((s.clients c).act 0 w.request).out_buf_size = (s.clients c).out_buf_size := by
        cases w <;> rfl
      rw [hcl, hout.1, hout.2, hlike.out_len, hlike.out_size, hsize]
      exact hfit

/-- The parser carries out the messages in the buffer and leaves it empty. -/
lemma parse_messages (h : Awaits c s (encode ws) (ws ++ ws')) {n : ℕ} (hn : ws.length < n) :
    ∃ t, loop (parse_binary_msg k m c) n s = some (some (t, .ok ())) ∧
      acted k m c n s = ws.map Message.request ∧ Awaits c t [] ws' := by
  induction ws generalizing s n with
  | nil =>
    obtain ⟨n, rfl⟩ := Nat.exists_eq_add_of_lt hn
    have hend : parse_binary_msg k m c s = .inr (some (s, .ok ())) := if_pos h.holds.len
    refine ⟨s, loop_inr hend, ?_, h⟩
    show acted k m c (0 + n + 1) s = []
    rw [acted, hend]
  | cons w ws ih =>
    obtain ⟨n, rfl⟩ : ∃ n', n = n' + 1 := ⟨n - 1, by omega⟩
    obtain ⟨s', hs', hper, haw⟩ := parse_message (k := k) (m := m) h
    obtain ⟨t, ht, hacts, haw'⟩ := ih haw (Nat.lt_of_succ_lt_succ hn)
    refine ⟨t, (loop_inl hs').trans ht, ?_, haw'⟩
    rw [acted, hs']
    show performed c s ++ acted k m c n s' = _
    rw [hper, hacts]
    rfl

lemma length_encode (ws : List Message) : ws.length ≤ (encode ws).length := by
  induction ws with
  | nil => exact Nat.zero_le _
  | cons w ws ih =>
    have := w.len_pos
    rw [encode, List.flatMap_cons, List.length_append, Message.length_bytes, List.length_cons]
    have : (encode ws).length = (List.flatMap Message.bytes ws).length := rfl
    omega

/-- A write that takes whole messages carries them out. -/
lemma ccd_write_whole {fuel : ℕ} (hf : MAX_IN_BUF_SIZE < fuel) (hne : data ≠ [])
    (hdata : data.take MAX_IN_BUF_SIZE = encode ws) (h : Awaits c s [] (ws ++ ws')) :
    ∃ t, ccd_write k m fuel c data s = some (t, .ok (min data.length MAX_IN_BUF_SIZE)) ∧
      acted k m c fuel { s with toCore := s.toCore.set_client c ((s.clients c).take_in data) }
        = ws.map Message.request ∧ Awaits c t [] ws' := by
  have hlen : (s.clients c).in_buf_len = 0 := h.holds.len
  have hencode : (encode ws).length = min data.length MAX_IN_BUF_SIZE := by
    rw [← hdata, List.length_take, Nat.min_comm]
  have htake : data.take (min data.length MAX_IN_BUF_SIZE) = encode ws := by
    rw [← hdata, Nat.min_comm, ← List.take_take, List.take_of_length_le (le_refl data.length)]
  have hin : ((s.clients c).take_in data).Holds (encode ws) := by
    refine ⟨?_, ?_⟩
    · simp only [Client.take_in, hlen, Nat.sub_zero, Nat.zero_add, hencode]
    · simp only [Client.take_in, hlen, Nat.sub_zero, htake]
      exact slice_put_self
  obtain ⟨u, hu⟩ : ∃ u, u = { s with
    toCore := s.toCore.set_client c ((s.clients c).take_in data) } := ⟨_, rfl⟩
  have hcl : u.clients c = (s.clients c).take_in data := by
    rw [hu]
    exact Core.clients_set_client _ _ _
  have haw : Awaits c u (encode ws) (ws ++ ws') := by
    obtain ⟨a, ha⟩ := h.linked
    refine ⟨⟨_, hu ▸ ha.set_client⟩, by rw [hu]; exact h.registered, hcl ▸ hin, ?_⟩
    rw [hcl]
    exact h.fit
  have hfuel : ws.length < fuel := by
    have := length_encode ws
    omega
  obtain ⟨t, ht, hacts, haw'⟩ := parse_messages (k := k) (m := m) haw hfuel
  refine ⟨t, ?_, hu ▸ hacts, haw'⟩
  rw [ccd_write, if_neg (by simp [h.registered]), if_neg hne, ← hu, ht, hlen]
  rfl

/-- The writes for a part of the stream. -/
lemma Whole.write_all {fuel n : ℕ} (hf : MAX_IN_BUF_SIZE < fuel) (hw : Whole ws data)
    (h : Awaits c s [] (ws ++ ws')) (hn : data.length ≤ n) :
    ∃ t, write_all k m fuel c n data s = some (t, ws.map Message.request) ∧
      Awaits c t [] ws' := by
  induction hw generalizing s n with
  | nil => exact ⟨s, by cases n <;> rfl, h⟩
  | @cons ws₁ ws₂ data hne hdata _ ih =>
    rw [List.append_assoc] at h
    obtain ⟨t, ht, hacts, haw⟩ := ccd_write_whole (k := k) (m := m) hf hne hdata h
    obtain ⟨b, l, rfl⟩ := List.exists_cons_of_ne_nil hne
    obtain ⟨n, rfl⟩ : ∃ n', n = n' + 1 := ⟨n - 1, by
      rw [List.length_cons] at hn
      omega⟩
    have hdrop : (b :: l).drop (min (b :: l).length MAX_IN_BUF_SIZE)
        = (b :: l).drop MAX_IN_BUF_SIZE := by
      rcases Nat.le_total (b :: l).length MAX_IN_BUF_SIZE with hle | hle
      · rw [Nat.min_eq_left hle, List.drop_length, List.drop_of_length_le hle]
      · rw [Nat.min_eq_right hle]
    have hrest : ((b :: l).drop MAX_IN_BUF_SIZE).length ≤ n := by
      have : 1 ≤ MAX_IN_BUF_SIZE := by decide
      rw [List.length_drop]
      omega
    obtain ⟨t', ht', haw'⟩ := ih haw hrest
    refine ⟨t', ?_, haw'⟩
    rw [Ccd.write_all, hacts, ht]
    simp only [Option.bind_eq_bind, Option.bind_some, hdrop, ht', List.map_append]

lemma writes_aligned {fuel : ℕ} {groups : List (List Message)} {ds : List (List UInt8)}
    (hf : MAX_IN_BUF_SIZE < fuel) (hw : List.Forall₂ Whole groups ds)
    (h : Awaits c s [] groups.flatten) :
    ∃ t, writes k m fuel c ds s = some (t, groups.flatten.map Message.request) := by
  induction hw generalizing s with
  | nil => exact ⟨s, rfl⟩
  | @cons ws d groups ds hd _ ih =>
    obtain ⟨t, ht, haw⟩ := hd.write_all (k := k) (m := m) hf h (le_refl d.length)
    obtain ⟨t', ht'⟩ := ih haw
    refine ⟨t', ?_⟩
    simp only [writes, ht, ht', Option.bind_eq_bind, Option.bind_some, List.flatten_cons,
      List.map_append]

/-! ## Short writes -/

/-- Too little has arrived for any message. -/
lemma Client.request_short {x : Client} (h : x.in_buf_len < CCD_MSG_QUERY_LEN) :
    x.request = .nothing := by
  have hno {len : ℕ} (kind : ℕ) (hlen : CCD_MSG_QUERY_LEN ≤ len) : ¬ x.is_msg len kind :=
    fun h' => absurd h'.1 (by omega)
  rw [request, if_neg (hno _ (by decide)), if_neg (hno _ (by decide)), if_neg (hno _ (by decide)),
    if_neg (hno _ (by decide)), if_neg (hno _ (by decide))]

/-- An iteration with less than a message in the buffer. -/
lemma parse_short (h : (s.clients c).in_buf_len < CCD_MSG_QUERY_LEN) :
    ((s.clients c).in_buf_len = 0 ∧ parse_binary_msg k m c s = .inr (some (s, .ok ()))) ∨
    ∃ s', parse_binary_msg k m c s = .inl s' ∧
      (s'.clients c).in_buf_len < CCD_MSG_QUERY_LEN := by
  simp only [parse_binary_msg]
  by_cases hz : (s.clients c).in_buf_len = 0
  · exact .inl ⟨hz, if_pos hz⟩
  · right
    rw [if_neg hz, Client.request_short h]
    by_cases hv : ((s.clients c).msg 0).toNat = CCD_MSG_HEADER
    · rw [if_pos hv]
      refine ⟨_, rfl, ?_⟩
      show ((s.toCore.set_client c (s.clients c).shift).clients c).in_buf_len < _
      rw [Core.clients_set_client, Client.shift_in_len]
      split
      · decide
      · omega
    · rw [if_neg hv]
      refine ⟨_, rfl, ?_⟩
      show ((s.toCore.set_client c _).clients c).in_buf_len < _
      rw [Core.clients_set_client]
      exact Nat.succ_pos 7

lemma acted_short (h : (s.clients c).in_buf_len < CCD_MSG_QUERY_LEN) (n : ℕ) :
    acted k m c n s = [] := by
  induction n generalizing s with
  | zero => rfl
  | succ n ih =>
    rw [acted]
    rcases parse_short (k := k) (m := m) h with ⟨-, hr⟩ | ⟨s', hs', hlt⟩
    · rw [hr]
    · rw [hs']
      show performed c s ++ acted k m c n s' = []
      rw [ih hlt, performed, if_neg fun hp => hp.2 (Client.request_short h)]
      rfl

/-- The parser leaves nothing of it in the buffer. -/
lemma loop_short {n : ℕ} {r : Option (State × Except Errno Unit)}
    (h : (s.clients c).in_buf_len < CCD_MSG_QUERY_LEN)
    (hr : loop (parse_binary_msg k m c) n s = some r) :
    ∃ t, r = some (t, .ok ()) ∧ (t.clients c).in_buf_len = 0 := by
  refine loop_invariant (P := fun t : State => (t.clients c).in_buf_len < CCD_MSG_QUERY_LEN)
    (Q := fun r => ∃ t : State, r = some (t, .ok ()) ∧ (t.clients c).in_buf_len = 0) ?_ ?_ h hr
  · intro t t' ht hstep
    rcases parse_short (k := k) (m := m) ht with ⟨-, hr⟩ | ⟨u, hu, hlt⟩
    · rw [hr] at hstep
      cases hstep
    · rw [hu] at hstep
      cases hstep
      exact hlt
  · intro t r ht hstep
    rcases parse_short (k := k) (m := m) ht with ⟨hz, hr⟩ | ⟨u, hu, -⟩
    · rw [hr] at hstep
      cases hstep
      exact ⟨t, rfl, hz⟩
    · rw [hu] at hstep
      cases hstep

/-- A write of less than a message. -/
lemma write_all_short {fuel n : ℕ} {t : State} {acts : List Request}
    (hz : (s.clients c).in_buf_len = 0) (hlen : data.length < CCD_MSG_QUERY_LEN)
    (hrun : write_all k m fuel c n data s = some (t, acts)) :
    acts = [] ∧ (t.clients c).in_buf_len = 0 := by
  cases data with
  | nil =>
    cases n <;> cases hrun <;> exact ⟨rfl, hz⟩
  | cons b l =>
    cases n with
    | zero => cases hrun
    | succ n =>
      obtain ⟨u, hu⟩ : ∃ u, u = { s with
        toCore := s.toCore.set_client c ((s.clients c).take_in (b :: l)) } := ⟨_, rfl⟩
      have hmin : min (b :: l).length (MAX_IN_BUF_SIZE - (s.clients c).in_buf_len)
          = (b :: l).length := by
        rw [hz]
        refine Nat.min_eq_left (hlen.le.trans ?_)
        decide
      have hin : (u.clients c).in_buf_len < CCD_MSG_QUERY_LEN := by
        have hcl : u.clients c = (s.clients c).take_in (b :: l) := by
          rw [hu]
          exact Core.clients_set_client _ _ _
        rw [hcl, Client.take_in, hmin, hz, Nat.zero_add]
        exact hlen
      rw [write_all, ← hu, acted_short hin] at hrun
      obtain ⟨⟨s', e⟩, hwrite, hrun⟩ := Option.bind_eq_some_iff.mp hrun
      rw [ccd_write, ← hu] at hwrite
      split at hwrite
      · cases hwrite
        cases hrun
        exact ⟨rfl, hz⟩
      · rw [if_neg (List.cons_ne_nil b l)] at hwrite
        obtain ⟨r, hloop, hwrite⟩ := Option.bind_eq_some_iff.mp hwrite
        obtain ⟨t', rfl, ht'⟩ := loop_short hin hloop
        cases hwrite
        rw [hmin] at hrun
        simp only [Except.map, List.drop_length] at hrun
        cases n <;> cases hrun <;> exact ⟨rfl, ht'⟩

lemma writes_short {fuel : ℕ} {ds : List (List UInt8)} {t : State} {acts : List Request}
    (hz : (s.clients c).in_buf_len = 0) (hlen : ∀ d ∈ ds, d.length < CCD_MSG_QUERY_LEN)
    (hrun : writes k m fuel c ds s = some (t, acts)) : acts = [] := by
  induction ds generalizing s t acts with
  | nil =>
    cases hrun
    rfl
  | cons d ds ih =>
    obtain ⟨⟨u, acts₁⟩, hone, hrun⟩ := Option.bind_eq_some_iff.mp hrun
    obtain ⟨⟨v, acts₂⟩, hrest, hrun⟩ := Option.bind_eq_some_iff.mp hrun
    cases hrun
    obtain ⟨rfl, hz'⟩ := write_all_short hz (hlen d List.mem_cons_self) hone
    exact ih hz' (fun d' hd' => hlen d' (List.mem_cons_of_mem d hd')) hrest

/-! ## Cutting the stream -/

/-- If no write ends inside a message, then what is carried out does not depend on how the
stream is cut into writes.  If all the parts are shorter than any message, then nothing is
carried out at all. -/
theorem binary_stream_cuts {fuel : ℕ} {ds : List (List UInt8)} (hf : MAX_IN_BUF_SIZE < fuel)
    (h : Awaits c s [] ws) (hwhole : Aligned ws [encode ws]) :
    (∃ t', writes k m fuel c [encode ws] s = some (t', ws.map Message.request)) ∧
    (Aligned ws ds → ∃ t, writes k m fuel c ds s = some (t, ws.map Message.request)) ∧
    ((∀ d ∈ ds, d.length < CCD_MSG_QUERY_LEN) →
      ∀ t acts, writes k m fuel c ds s = some (t, acts) → acts = []) := by
  refine ⟨?_, ?_, fun hshort t acts hrun => writes_short h.holds.len hshort hrun⟩
  · obtain ⟨groups, rfl, hgroups⟩ := hwhole
    exact writes_aligned hf hgroups h
  · rintro ⟨groups, rfl, hgroups⟩
    exact writes_aligned hf hgroups h

lemma Aligned.whole (hne : ws ≠ []) (hlen : (encode ws).length ≤ MAX_IN_BUF_SIZE) :
    Aligned ws [encode ws] := by
  refine ⟨[ws], List.flatten_singleton, .cons ?_ .nil⟩
  have hpos : encode ws ≠ [] := by
    intro hnil
    have := length_encode ws
    rw [hnil, List.length_nil, Nat.le_zero, List.length_eq_zero_iff] at this
    exact hne this
  have := Whole.cons hpos (List.take_of_length_le hlen)
    (by rw [List.drop_of_length_le hlen]; exact .nil)
  rwa [List.append_nil] at this

/-- A client of the small camera that has sent nothing. -/
lemma awaits_start (hws : Fit 256 0 ws) :
    ∃ s, replay (step .hz100 .black) (State.init 0) opened_run = some s ∧ Awaits 0 s [] ws := by
  obtain ⟨s, hs, hlink, hreg, hlen, -⟩ := opened_start
  have hout : (s.clients 0).out_buf_size = 256 ∧ (s.clients 0).out_buf_len = 0 := by
    cases hs
    exact ⟨rfl, rfl⟩
  exact ⟨s, hs, ⟨_, hlink⟩, hreg, ⟨hlen, rfl⟩, by rwa [hout.1, hout.2]⟩

/-- A query and an abort in one write and in two. -/
theorem binary_stream_cuts_two :
    ∃ s, replay (step .hz100 .black) (State.init 0) opened_run = some s ∧
      (∃ t', writes .hz100 .black 1025 0 [encode [.query, .abort]] s
        = some (t', [.query, .abort])) ∧
      ∃ t, writes .hz100 .black 1025 0 [Message.query.bytes, Message.abort.bytes] s
        = some (t, [.query, .abort]) := by
  obtain ⟨s, hs, haw⟩ := @awaits_start [.query, .abort] ⟨by decide, trivial⟩
  have hone (w : Message) (hw : w.len ≤ MAX_IN_BUF_SIZE) : Whole [w] w.bytes := by
    obtain ⟨groups, hflat, hall⟩ := Aligned.whole (List.cons_ne_nil w [])
      (by rwa [encode, List.flatMap_singleton, Message.length_bytes])
    cases hall with
    | cons hd hnil =>
      cases hnil
      rw [List.flatten_singleton] at hflat
      rw [encode, List.flatMap_singleton] at hd
      exact hflat ▸ hd
  have hall := @binary_stream_cuts .hz100 .black _ _ _ 1025
    [Message.query.bytes, Message.abort.bytes] (by decide) haw
    (.whole (List.cons_ne_nil _ _) (by decide))
  exact ⟨s, hs, hall.1, hall.2.1 ⟨[[.query], [.abort]], rfl,
    .cons (hone _ (by decide)) (.cons (hone _ (by decide)) .nil)⟩⟩

/-- A query in two writes of four bytes is dropped. -/
theorem query_cut_in_two :
    ∃ s, replay (step .hz100 .black) (State.init 0) opened_run = some s ∧
      (∃ t, writes .hz100 .black 1025 0 [Message.query.bytes] s = some (t, [.query])) ∧
      ∃ t, writes .hz100 .black 1025 0 [Message.query.bytes.take 4, Message.query.bytes.drop 4] s
        = some (t, []) := by
  obtain ⟨s, hs, haw⟩ := @awaits_start [.query] ⟨by decide, trivial⟩
  have hbytes : encode [.query] = Message.query.bytes := List.flatMap_singleton ..
  obtain ⟨groups, hflat, hall⟩ := @Aligned.whole [.query] (List.cons_ne_nil _ [])
    (by decide)
  rw [hbytes] at hall
  refine ⟨s, hs, ?_, ?_⟩
  · have := @writes_aligned .hz100 .black _ _ 1025 _ _ (by decide) hall
      (hflat ▸ haw)
    rwa [hflat] at this
  · obtain ⟨w, hw⟩ : ∃ w, writes .hz100 .black 1025 0
        [Message.query.bytes.take 4, Message.query.bytes.drop 4] s = some w := by
      cases hs
      exact ⟨_, rfl⟩
    obtain ⟨t, acts⟩ := w
    have hnil := writes_short haw.holds.len (by decide) hw
    exact ⟨t, by rw [hw, hnil]⟩

end EspLinux.Ccd
