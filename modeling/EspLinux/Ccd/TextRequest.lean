import EspLinux.Ccd.TextStream

/-!
# Text messages

What the parser does when it hears a whole message, starting between two messages.  Except for
errorno messages this does not depend on when it runs out of input (`TextMessage.listen`).
-/

namespace EspLinux.Ccd

open EspLinux.Lib

/-- A message of a text client, with the attributes that it names and their values. -/
inductive TextMessage
  | query
  | errorno
  | expose (attribs : List (Fin 9 × ℕ))
  | control (attribs : List (Fin 2 × ℕ))
  | abort
deriving DecidableEq

namespace TextMessage

/-- The word that a message starts with. -/
def name : TextMessage → String
  | query => "QUERY"
  | errorno => "ERRORNO"
  | expose _ => "EXPOSE"
  | control _ => "CONTROL"
  | abort => "ABORT"

/-- The token of the message. -/
def kind : TextMessage → ℕ
  | query => CCD_MSG_QUERY
  | errorno => CCD_MSG_ERRORNO
  | expose _ => CCD_MSG_EXP
  | control _ => CCD_MSG_CTRL
  | abort => CCD_MSG_ABORT

/-- The attributes of the message, by their numbers. -/
def attribs : TextMessage → List (ℕ × ℕ)
  | expose l => l.map fun a => (a.1.val, a.2)
  | control l => l.map fun a => (a.1.val, a.2)
  | _ => []

/-- The names of the attributes. -/
def strings : TextMessage → List (String × ℕ)
  | expose _ => img_strings
  | control _ => ctrl_strings
  | _ => []

/-- The attribute of 32 bits. -/
def long : TextMessage → ℕ
  | control _ => CCD_CTRL_PARM_LO_INDEX
  | _ => CCD_EXP_MSEC_LO_INDEX

/-- An attribute with its value. -/
def attrib_lexemes (w : TextMessage) (a : ℕ × ℕ) : List Lexeme :=
  [.word (chars (w.strings.getD a.1 ("", 0)).1), .punct 61, .num a.2]

/-- The lexemes of a message, such as `<CONTROL COMMAND=1 PARAMETER=2/>`. -/
def lexemes (w : TextMessage) : List Lexeme :=
  .punct 60 :: .word (chars w.name) :: (w.attribs.flatMap w.attrib_lexemes ++ [.punct 47, .punct 62])

end TextMessage

/-- Hear an attribute with its value. -/
def Session.set_attrib (long : ℕ) (x : Session) (a : ℕ × ℕ) : Session :=
  { ({ x with parse_token := 61, parse_attrib := a.1 + CCD_EXP_WIDTH_INDEX }).set_num long a.2 with
    parse_token := CCD_NUM_TOKEN }

/-- The parser waits for a message. -/
def Session.between (x : Session) : Prop := x.kind = 0

variable (g : Geometry) (answer : List Action → ℤ)

namespace TextMessage

/-- The parser at the attributes of a message. -/
def start (w : TextMessage) (x : Session) : Session :=
  { x with
    parse_msg := Function.update (if w.kind = CCD_MSG_EXP then exp_defaults g x.parse_msg
      else x.parse_msg) CCD_MSG_INDEX (UInt16.ofNat w.kind)
    parse_token := w.kind }

/-- The parser at the end of a message, with the result of the request. -/
def finish (w : TextMessage) (x : Session) (e : ℤ) : Session × ℤ :=
  match w with
  | query =>
    match text_query g x.client with
    | some c => (({ x with client := c }.act .query).reset, 0)
    | none => (x.reset, -ENOMEM)
  | errorno =>
    match text_errorno e x.client with
    | some c => (({ x with client := c }.act (.errorno e)).reset, e)
    | none => (x.reset, e)
  | expose _ => ((x.act (.expose (slice x.parse_msg CCD_EXP_WIDTH_INDEX 10))).reset, 0)
  | control _ => ((x.act x.command).reset, answer (calls (x.acts ++ [x.command])))
  | abort => (({ x with client := { x.client with out_buf_len := 0 } }.act .abort).reset, 0)

/-- What hearing a message does. -/
def after (w : TextMessage) (x : Session) (e : ℤ) : Session × ℤ :=
  let r := w.finish g answer (w.attribs.foldl (Session.set_attrib w.long) (w.start g x)) e
  ({ r.1 with parse_token := 62 }, r.2)

end TextMessage

/-- Hear a lexeme, after running out of input if the flag says so. -/
def listen (w : Session × ℤ) (p : Bool × Lexeme) : Session × ℤ :=
  hear g answer p.2 (w.1, if p.1 then w.1.run_out w.2 else w.2)

variable {g answer} {x : Session} {e : ℤ} {w : TextMessage}

/-! ## Tokens -/

lemma hear_of_token {l : Lexeme} {strings : List (String × ℕ)} {token : ℕ}
    (hs : x.strings = strings) (ht : l.token strings = token) :
    hear g answer l (x, e) =
      ({ (on_token g answer token l.value x e).1 with parse_token := token },
        (on_token g answer token l.value x e).2) := by
  rw [hear]
  simp only [hs, ht]

lemma strings_of_between (h : x.between) : x.strings = msg_strings := by
  rw [Session.strings, h]
  rfl

lemma strings_of_kind (h : x.kind = w.kind) : x.strings = w.strings := by
  rw [Session.strings, h]
  cases w <;> rfl

/-- The parser between two messages. -/
lemma on_token_between (h : x.between) (token value : ℕ) :
    on_token g answer token value x e =
      (if token ∈ msg_strings.map Prod.snd ∧ x.parse_token = 60 then
        ({ x with parse_msg := Function.update (if token = CCD_MSG_EXP then
          exp_defaults g x.parse_msg else x.parse_msg) CCD_MSG_INDEX (UInt16.ofNat token) }, e)
      else ({ x with parse_msg := if token = CCD_MSG_EXP then exp_defaults g x.parse_msg
        else x.parse_msg }, e)) := by
  rw [on_token, h]
  rfl

lemma hear_open (h : x.between) :
    hear g answer (.punct 60) (x, e) = ({ x with parse_token := 60 }, e) := by
  rw [hear_of_token (strings_of_between h) (show Lexeme.token _ (.punct 60) = 60 from rfl),
    on_token_between h, if_neg fun hm => absurd hm.1 (by decide), if_neg (by decide)]

lemma hear_name (h : x.between) (ht : x.parse_token = 60) :
    hear g answer (.word (chars w.name)) (x, e) = (w.start g x, e) := by
  have hall : ∀ y ∈ msg_strings, (Lexeme.word (chars y.1)).token msg_strings = y.2 := by decide
  have htoken : (Lexeme.word (chars w.name)).token msg_strings = w.kind := by
    refine hall (w.name, w.kind) ?_
    cases w <;> simp [msg_strings, TextMessage.name, TextMessage.kind]
  have hmem : w.kind ∈ msg_strings.map Prod.snd := by
    cases w <;> simp [msg_strings, TextMessage.kind]
  rw [hear_of_token (strings_of_between h) htoken, on_token_between h, if_pos ⟨hmem, ht⟩]
  rfl

lemma start_kind : (w.start g x).kind = w.kind := by
  rw [Session.kind, TextMessage.start]
  simp only [Function.update_self]
  cases w <;> rfl

/-- The parser inside an exposure request. -/
lemma on_token_expose (h : x.kind = CCD_MSG_EXP) (token value : ℕ) :
    on_token g answer token value x e =
      on_attribs CCD_EXP_WIDTH_TOKEN 9 CCD_EXP_WIDTH_INDEX CCD_EXP_MSEC_LO_INDEX
        ((x.act (.expose (slice x.parse_msg CCD_EXP_WIDTH_INDEX 10))).reset, 0) token value x e := by
  rw [on_token, h]
  rfl

/-- The parser inside a control request. -/
lemma on_token_control (h : x.kind = CCD_MSG_CTRL) (token value : ℕ) :
    on_token g answer token value x e =
      on_attribs CCD_CTRL_CMD_TOKEN 2 CCD_CTRL_CMD_INDEX CCD_CTRL_PARM_LO_INDEX
        ((x.act x.command).reset, answer (calls (x.acts ++ [x.command]))) token value x e := by
  rw [on_token, h]
  rfl

/-- The parser inside a message, for a token that is not its end. -/
lemma on_token_inside (h : x.kind = w.kind) {token : ℕ} (hend : ¬ x.ends token)
    (hnum : token ≠ CCD_NUM_TOKEN) (hlt : token < 256) (value : ℕ) :
    on_token g answer token value x e = (x, e) := by
  have hno {first count : ℕ} (hf : 256 ≤ first) : ¬ (first ≤ token ∧ token < first + count) := by
    omega
  cases w with
  | expose l =>
    rw [on_token_expose h, on_attribs, if_neg (hno (by decide)), if_neg hnum, if_neg hend]
  | control l =>
    rw [on_token_control h, on_attribs, if_neg (hno (by decide)), if_neg hnum, if_neg hend]
  | _ =>
    rw [on_token, h]
    exact if_neg hend

lemma hear_punct (h : x.kind = w.kind) {b : UInt8} (hb : b ≠ 62) :
    hear g answer (.punct b) (x, e) = ({ x with parse_token := b.toNat }, e) := by
  have hlt : b.toNat < 256 := UInt8.toNat_lt b
  have hend : ¬ x.ends b.toNat := fun hb' => hb (UInt8.toNat_inj.mp hb'.1)
  have hnum : b.toNat ≠ CCD_NUM_TOKEN := by
    unfold CCD_NUM_TOKEN
    omega
  rw [hear_of_token (strings_of_kind h) (show Lexeme.token _ (.punct b) = b.toNat from rfl),
    on_token_inside h hend hnum hlt]

lemma hear_close (h : x.kind = w.kind) (ht : x.parse_token = 47) :
    hear g answer (.punct 62) (x, e) =
      ({ (w.finish g answer x e).1 with parse_token := 62 }, (w.finish g answer x e).2) := by
  have hend : x.ends 62 := ⟨rfl, ht⟩
  have hfin : on_token g answer 62 0 x e = w.finish g answer x e := by
    cases w with
    | expose l =>
      rw [on_token_expose h, on_attribs, if_neg (by decide), if_neg (by decide), if_pos hend]
      rfl
    | control l =>
      rw [on_token_control h, on_attribs, if_neg (by decide), if_neg (by decide), if_pos hend]
      rfl
    | _ =>
      rw [on_token, h]
      exact if_pos hend
  rw [hear_of_token (strings_of_kind h) (show Lexeme.token _ (.punct 62) = 62 from rfl), ← hfin]
  rfl

/-! ## Attributes -/

/-- The strings of the attributes are told apart. -/
lemma img_token (i : Fin 9) :
    (Lexeme.word (chars (img_strings.getD i.val ("", 0)).1)).token img_strings
      = CCD_EXP_WIDTH_TOKEN + i.val := by
  revert i
  decide

lemma ctrl_token (i : Fin 2) :
    (Lexeme.word (chars (ctrl_strings.getD i.val ("", 0)).1)).token ctrl_strings
      = CCD_CTRL_CMD_TOKEN + i.val := by
  revert i
  decide

/-- The name of an attribute. -/
lemma hear_attrib_name (h : x.kind = w.kind) {a : ℕ × ℕ} (ha : a ∈ w.attribs) :
    ∃ n, ∀ e, hear g answer (.word (chars (w.strings.getD a.1 ("", 0)).1)) (x, e) =
      ({ x with parse_token := n, parse_attrib := a.1 + CCD_EXP_WIDTH_INDEX }, e) := by
  cases w with
  | expose l =>
    obtain ⟨b, -, rfl⟩ := List.mem_map.mp ha
    have hb := b.1.isLt
    refine ⟨CCD_EXP_WIDTH_TOKEN + b.1.val, fun e => ?_⟩
    refine (hear_of_token (strings_of_kind h) (img_token b.1)).trans ?_
    rw [on_token_expose h, on_attribs, if_pos ⟨Nat.le_add_right _ _, by omega⟩,
      Nat.add_sub_cancel_left]
  | control l =>
    obtain ⟨b, -, rfl⟩ := List.mem_map.mp ha
    have hb := b.1.isLt
    refine ⟨CCD_CTRL_CMD_TOKEN + b.1.val, fun e => ?_⟩
    refine (hear_of_token (strings_of_kind h) (ctrl_token b.1)).trans ?_
    rw [on_token_control h, on_attribs, if_pos ⟨Nat.le_add_right _ _, by omega⟩,
      Nat.add_sub_cancel_left]
    rfl
  | query => cases ha
  | errorno => cases ha
  | abort => cases ha

/-- Its value. -/
lemma hear_num (h : x.kind = w.kind) {a : ℕ × ℕ} (ha : a ∈ w.attribs) :
    hear g answer (.num a.2) (x, e) =
      ({ x.set_num w.long a.2 with parse_token := CCD_NUM_TOKEN }, e) := by
  have htoken : Lexeme.token w.strings (.num a.2) = CCD_NUM_TOKEN := rfl
  rw [hear_of_token (strings_of_kind h) htoken]
  cases w with
  | expose l =>
    rw [on_token_expose h, on_attribs, if_neg (by decide), if_pos rfl]
    rfl
  | control l =>
    rw [on_token_control h, on_attribs, if_neg (by decide), if_pos rfl]
    rfl
  | query => cases ha
  | errorno => cases ha
  | abort => cases ha

/-- An attribute does not change the kind of the message. -/
lemma set_attrib_kind (long : ℕ) (hlong : 4 ≤ long) (a : ℕ × ℕ) :
    (x.set_attrib long a).kind = x.kind := by
  have h₁ : CCD_MSG_INDEX ≠ a.1 + CCD_EXP_WIDTH_INDEX := by
    unfold CCD_MSG_INDEX CCD_EXP_WIDTH_INDEX
    omega
  have h₂ : CCD_MSG_INDEX ≠ long := by
    unfold CCD_MSG_INDEX
    omega
  have h₃ : CCD_MSG_INDEX ≠ long + 1 := by
    unfold CCD_MSG_INDEX
    omega
  rw [Session.kind, Session.kind, Session.set_attrib, Session.set_num]
  dsimp only
  split
  · split
    · rw [Function.update_of_ne h₃, Function.update_of_ne h₂]
    · rw [Function.update_of_ne h₁]
  · rfl

lemma TextMessage.long_ge (w : TextMessage) : 4 ≤ w.long := by
  cases w <;> simp [long, CCD_EXP_MSEC_LO_INDEX, CCD_CTRL_PARM_LO_INDEX]

/-- Running out of input in front of a lexeme does not matter for what the lexeme does. -/
lemma listen_of_hear {y : Session} {f : Bool} {l : Lexeme}
    (h : ∀ e, hear g answer l (x, e) = (y, e)) (e : ℤ) :
    ∃ e', listen g answer (x, e) (f, l) = (y, e') :=
  ⟨_, h _⟩

/-- The attributes of a message, whenever the parser runs out of input. -/
lemma listen_attribs {l : List (ℕ × ℕ)} (h : x.kind = w.kind) (hl : ∀ a ∈ l, a ∈ w.attribs)
    {ps : List (Bool × Lexeme)} (hps : ps.map Prod.snd = l.flatMap w.attrib_lexemes) :
    ∃ e', ps.foldl (listen g answer) (x, e) = (l.foldl (Session.set_attrib w.long) x, e') := by
  induction l generalizing x e ps with
  | nil =>
    rw [List.flatMap_nil, List.map_eq_nil_iff] at hps
    rw [hps]
    exact ⟨e, rfl⟩
  | cons a l ih =>
    rw [List.flatMap_cons] at hps
    obtain ⟨qs, ps, rfl, hqs, hps⟩ := List.map_eq_append_iff.mp hps
    have ha := hl a List.mem_cons_self
    -- the three lexemes of the attribute
    obtain ⟨e', he'⟩ : ∃ e', qs.foldl (listen g answer) (x, e) = (x.set_attrib w.long a, e') := by
      obtain ⟨⟨f₁, l₁⟩, qs, rfl, h₁, hqs⟩ := List.map_eq_cons_iff.mp hqs
      obtain ⟨⟨f₂, l₂⟩, qs, rfl, h₂, hqs⟩ := List.map_eq_cons_iff.mp hqs
      obtain ⟨⟨f₃, l₃⟩, qs, rfl, h₃, hqs⟩ := List.map_eq_cons_iff.mp hqs
      rw [List.map_eq_nil_iff] at hqs
      dsimp only at h₁ h₂ h₃
      rw [h₁, h₂, h₃, hqs]
      obtain ⟨n, hn⟩ := hear_attrib_name (g := g) h ha
      obtain ⟨e₁, he₁⟩ := listen_of_hear (f := f₁) hn e
      obtain ⟨e₂, he₂⟩ := listen_of_hear (g := g) (f := f₂)
        (fun e => hear_punct (w := w) (x := { x with
          parse_token := n, parse_attrib := a.1 + CCD_EXP_WIDTH_INDEX }) h (b := 61) (by decide)) e₁
      obtain ⟨e₃, he₃⟩ := listen_of_hear (g := g) (f := f₃)
        (fun e => hear_num (w := w) (x := { x with
          parse_token := 61, parse_attrib := a.1 + CCD_EXP_WIDTH_INDEX }) h ha) e₂
      rw [List.foldl_cons, List.foldl_cons, List.foldl_cons, List.foldl_nil, he₁, he₂]
      exact ⟨e₃, he₃⟩
    rw [List.foldl_append, he', List.foldl_cons]
    exact ih ((set_attrib_kind _ w.long_ge a).trans h)
      (fun b hb => hl b (List.mem_cons_of_mem a hb)) hps

lemma foldl_set_attrib_kind (l : List (ℕ × ℕ)) :
    (l.foldl (Session.set_attrib w.long) x).kind = x.kind := by
  induction l generalizing x with
  | nil => rfl
  | cons a l ih => rw [List.foldl_cons, ih, set_attrib_kind _ w.long_ge]

/-! ## Messages -/

/-- The parser waits for the name of an errorno message, or for the bracket in front of it,
when the input runs out. -/
def TextMessage.early (w : TextMessage) (ps : List (Bool × Lexeme)) : Prop :=
  w = .errorno ∧ ∃ p ∈ ps.take 2, p.1 = true

instance (ps : List (Bool × Lexeme)) : Decidable (w.early ps) :=
  inferInstanceAs (Decidable (_ ∧ _))

/-- Only an errorno message looks at `last_errorno`. -/
lemma finish_indep (hw : w ≠ .errorno) (e e' : ℤ) :
    w.finish g answer x e = w.finish g answer x e' := by
  cases w with
  | errorno => exact absurd rfl hw
  | _ => rfl

/-- The last token does not matter at the end of a message. -/
lemma finish_token (n : ℕ) (e : ℤ) :
    w.finish g answer { x with parse_token := n } e =
      ({ (w.finish g answer x e).1 with parse_token := n }, (w.finish g answer x e).2) := by
  cases w with
  | query =>
    simp only [TextMessage.finish]
    split <;> rfl
  | errorno =>
    simp only [TextMessage.finish]
    split <;> rfl
  | _ => rfl

/-- The end of a message, which is heard after its last attribute. -/
lemma listen_end {f₃ f₄ : Bool} (h : x.kind = w.kind) (e : ℤ) :
    ∃ e', listen g answer (listen g answer (x, e) (f₃, .punct 47)) (f₄, .punct 62) =
      ({ (w.finish g answer x e').1 with parse_token := 62 }, (w.finish g answer x e').2) ∧
      (w = .errorno → e' = e) := by
  have hslash (e : ℤ) : hear g answer (.punct 47) (x, e) = ({ x with parse_token := 47 }, e) :=
    hear_punct (w := w) h (by decide)
  have hout (n : ℕ) (hw : w = .errorno) (e : ℤ) : ({ x with parse_token := n } : Session).run_out e
      = e := by
    rw [hw] at h
    exact if_pos h
  refine ⟨if f₄ then ({ x with parse_token := 47 } : Session).run_out
    (if f₃ then x.run_out e else e) else if f₃ then x.run_out e else e, ?_, fun hw => ?_⟩
  · rw [listen, listen]
    dsimp only
    rw [hslash]
    refine (hear_close (w := w) (x := { x with parse_token := 47 }) h rfl).trans ?_
    rw [finish_token]
  · rw [hout 47 hw, show x.run_out e = e from hout x.parse_token hw e, ite_self, ite_self]

/-- A message is heard in the same way whenever the input runs out, except that an errorno
message reports it if it happens before its name. -/
lemma TextMessage.listen (h : x.between) {ps : List (Bool × Lexeme)}
    (hps : ps.map Prod.snd = w.lexemes) :
    ps.foldl (Ccd.listen g answer) (x, e) =
      w.after g answer x (if w.early ps then -ENOMEM else e) := by
  obtain ⟨⟨f₁, l₁⟩, ps₁, rfl, rfl, hps₁⟩ := List.map_eq_cons_iff.mp hps
  obtain ⟨⟨f₂, l₂⟩, ps₂, rfl, rfl, hps₂⟩ := List.map_eq_cons_iff.mp hps₁
  obtain ⟨qs, ps₃, rfl, hqs, hps₃⟩ := List.map_eq_append_iff.mp hps₂
  obtain ⟨⟨f₃, l₃⟩, ps₄, rfl, rfl, hps₄⟩ := List.map_eq_cons_iff.mp hps₃
  obtain ⟨⟨f₄, l₄⟩, ps₅, rfl, rfl, hps₅⟩ := List.map_eq_cons_iff.mp hps₄
  obtain rfl := List.map_eq_nil_iff.mp hps₅
  have hout (y : Session) (hy : y.between) (e : ℤ) : y.run_out e = -ENOMEM := by
    rw [Session.run_out, hy]
    rfl
  have hfirst : Ccd.listen g answer (Ccd.listen g answer (x, e) (f₁, .punct 60))
      (f₂, .word (chars w.name)) =
        (w.start g x, if f₂ then -ENOMEM else if f₁ then -ENOMEM else e) := by
    simp only [Ccd.listen]
    rw [hear_open h, hout x h]
    dsimp only
    rw [hear_name (show Session.between { x with parse_token := 60 } from h) rfl,
      hout { x with parse_token := 60 } h]
    rfl
  obtain ⟨e₁, he₁⟩ := listen_attribs (g := g)
    (e := if f₂ then -ENOMEM else if f₁ then -ENOMEM else e)
    (start_kind (w := w) (g := g) (x := x)) (fun a ha => ha) hqs
  obtain ⟨y, hy⟩ : ∃ y, y = w.attribs.foldl (Session.set_attrib w.long) (w.start g x) := ⟨_, rfl⟩
  have hkind : y.kind = w.kind := by
    rw [hy, foldl_set_attrib_kind, start_kind]
  obtain ⟨e₂, he₂, herr⟩ := listen_end (g := g) hkind e₁
  rw [List.foldl_cons, List.foldl_cons, hfirst, List.foldl_append, he₁, ← hy, List.foldl_cons,
    List.foldl_cons, List.foldl_nil, he₂, TextMessage.after, ← hy]
  by_cases hw : w = .errorno
  · have hnil : qs = [] := by
      rw [hw] at hqs
      exact List.map_eq_nil_iff.mp hqs
    rw [hnil] at he₁
    have he : e₁ = if w.early ((f₁, .punct 60) :: (f₂, .word (chars w.name)) :: (qs ++
        [(f₃, .punct 47), (f₄, .punct 62)])) then -ENOMEM else e := by
      have heq := congrArg Prod.snd he₁
      rw [← show _ = e₁ from heq]
      cases f₁ <;> cases f₂ <;> simp [TextMessage.early, hw]
    rw [herr hw, ← he]
  · rw [finish_indep hw e₂]

/-- After a message the parser waits for the next one. -/
lemma after_between : (w.after g answer x e).1.between := by
  have hreset (y : Session) : y.reset.kind = 0 := by
    rw [Session.kind, Session.reset]
    simp only [Function.update_self]
    rfl
  have hfinish (y : Session) : (w.finish g answer y e).1.kind = 0 := by
    cases w with
    | query =>
      simp only [TextMessage.finish]
      split
      · exact hreset (Session.act .query { y with client := _ })
      · exact hreset y
    | errorno =>
      simp only [TextMessage.finish]
      split
      · exact hreset (Session.act (.errorno e) { y with client := _ })
      · exact hreset y
    | expose l => exact hreset (y.act _)
    | control l => exact hreset (y.act _)
    | abort => exact hreset (Session.act .abort { y with client := _ })
  exact hfinish _

end EspLinux.Ccd
