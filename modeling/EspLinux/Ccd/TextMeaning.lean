import EspLinux.Ccd.TextCuts

/-!
# What a text request passes on

The parser collects the attributes of a request in `parse_msg`, which it keeps from one message
to the next.  An exposure request starts from default values for all of its parameters.  A
control request starts from whatever there is: an attribute that it does not name has the value
that an earlier request has left in its place.
-/

namespace EspLinux.Ccd

open EspLinux.Lib

/-- The parser is between two messages, and so is its input. -/
def Talk.between (t : Talk) : Prop :=
  t.session.between ∧ ∀ b ∈ t.in_buf, isBlank b = true

/-- The request leaves nothing to what came before it: a control request names both of its
attributes. -/
def TextMessage.full : TextMessage → Prop
  | control l => 0 ∈ l.map Prod.fst ∧ 1 ∈ l.map Prod.fst
  | _ => True

instance (w : TextMessage) : Decidable w.full := by
  cases w <;> unfold TextMessage.full <;> infer_instance

/-- The attribute has its value at the position of the message. -/
def sets (long : ℕ) (a : ℕ × ℕ) (n : ℕ) : Prop :=
  n = a.1 + CCD_EXP_WIDTH_INDEX ∨ a.1 + CCD_EXP_WIDTH_INDEX = long ∧ n = long + 1

variable (g : Geometry) (answer : List Action → ℤ)

/-- What a text client can have been through: it has written something, or else something has
happened to its output and to the result of the last request. -/
inductive Past : Talk → Prop
  | opened : Past (.opened g)
  | write {t t' : Talk} {data : List UInt8} {n : ℕ} :
      Past t → text_write g answer data t = some (t', n) → Past t'
  | other {t : Talk} (c : Client) (e : ℤ) :
      Past t → Past { t with session := { t.session with client := c }, last_errorno := e }

/-- What a text client can have been through alone, without reading. -/
def Wrote (t : Talk) : Prop := ∃ ds, text_writes g answer ds (.opened g) = some t

/-- The message makes the same requests for any two clients between messages. -/
def Alike (P : Talk → Prop) (w : TextMessage) : Prop :=
  ∀ t t', P t → P t' → t.between → t'.between → ∀ ds ds' s s',
    Spells w.lexemes (ds.flatten.map upper) → Spells w.lexemes (ds'.flatten.map upper) →
    text_writes g answer ds t = some s → text_writes g answer ds' t' = some s' →
    ∃ l, calls s.session.acts = calls t.session.acts ++ l ∧
      calls s'.session.acts = calls t'.session.acts ++ l

/-- The requests that the end of a message makes. -/
def TextMessage.requests (w : TextMessage) (x : Session) : List Action :=
  match w with
  | expose _ => [.expose (slice x.parse_msg CCD_EXP_WIDTH_INDEX 10)]
  | control _ => [x.command]
  | abort => [.abort]
  | _ => []

/-- The requests that a message makes. -/
def TextMessage.passed (w : TextMessage) (x : Session) : List Action :=
  w.requests (w.attribs.foldl (Session.set_attrib w.long) (w.start g x))

variable {g answer} {x x' : Session} {w : TextMessage} {long n : ℕ} {a : ℕ × ℕ} {t s : Talk}
  {ds : List (List UInt8)}

/-! ## Attributes -/

/-- The attribute in the message. -/
lemma set_attrib_msg :
    (x.set_attrib long a).parse_msg =
      if a.1 + CCD_EXP_WIDTH_INDEX = long then
        Function.update (Function.update x.parse_msg long (UInt16.ofNat a.2))
          (long + 1) (UInt16.ofNat (a.2 / 2 ^ 16))
      else Function.update x.parse_msg (a.1 + CCD_EXP_WIDTH_INDEX) (UInt16.ofNat a.2) := by
  have hne : a.1 + CCD_EXP_WIDTH_INDEX ≠ 0 := by
    unfold CCD_EXP_WIDTH_INDEX
    omega
  rw [Session.set_attrib, Session.set_num]
  dsimp only
  rw [if_pos ⟨rfl, hne⟩]

lemma set_attrib_of_sets (h : sets long a n) :
    (x.set_attrib long a).parse_msg n = (x'.set_attrib long a).parse_msg n := by
  rw [set_attrib_msg, set_attrib_msg]
  split
  · rename_i hlong
    by_cases hn : n = long + 1
    · rw [hn, Function.update_self, Function.update_self]
    · have hn' : n = long := by
        rcases h with h | h
        · exact h.trans hlong
        · exact absurd h.2 hn
      rw [Function.update_of_ne hn, Function.update_of_ne hn, hn', Function.update_self,
        Function.update_self]
  · rename_i hlong
    have hn : n = a.1 + CCD_EXP_WIDTH_INDEX := by
      rcases h with h | h
      · exact h
      · exact absurd h.1 hlong
    rw [hn, Function.update_self, Function.update_self]

lemma set_attrib_of_not_sets (h : ¬ sets long a n) :
    (x.set_attrib long a).parse_msg n = x.parse_msg n := by
  obtain ⟨h₁, h₂⟩ := not_or.mp h
  rw [set_attrib_msg]
  split
  · rename_i hlong
    rw [Function.update_of_ne fun hn => h₂ ⟨hlong, hn⟩, Function.update_of_ne fun hn =>
      h₁ (hn.trans hlong.symm)]
  · rw [Function.update_of_ne h₁]

/-- What the attributes do not set is as it was. -/
lemma foldl_set_attrib_keep {l : List (ℕ × ℕ)} (h : ∀ a ∈ l, ¬ sets long a n) :
    (l.foldl (Session.set_attrib long) x).parse_msg n = x.parse_msg n := by
  induction l generalizing x with
  | nil => rfl
  | cons a l ih =>
    rw [List.foldl_cons, ih fun b hb => h b (List.mem_cons_of_mem a hb),
      set_attrib_of_not_sets (h a List.mem_cons_self)]

/-- What they set, or what has been the same before, is the same afterwards. -/
lemma foldl_set_attrib_agree {l : List (ℕ × ℕ)}
    (h : x.parse_msg n = x'.parse_msg n ∨ ∃ a ∈ l, sets long a n) :
    (l.foldl (Session.set_attrib long) x).parse_msg n =
      (l.foldl (Session.set_attrib long) x').parse_msg n := by
  induction l generalizing x x' with
  | nil =>
    rcases h with h | ⟨a, ha, -⟩
    · exact h
    · cases ha
  | cons a l ih =>
    rw [List.foldl_cons, List.foldl_cons]
    refine ih ?_
    by_cases hset : sets long a n
    · exact .inl (set_attrib_of_sets hset)
    · rcases h with h | ⟨b, hb, hb'⟩
      · rw [set_attrib_of_not_sets hset, set_attrib_of_not_sets hset]
        exact .inl h
      · rcases List.mem_cons.mp hb with rfl | hb
        · exact absurd hb' hset
        · exact .inr ⟨b, hb, hb'⟩

/-! ## Requests -/

lemma calls_finish (e : ℤ) :
    calls (w.finish g answer x e).1.acts = calls x.acts ++ w.requests x := by
  have happ (a : Action) : calls (x.acts ++ [a]) = calls x.acts ++ [a].filter Action.isCall :=
    List.filter_append _ _
  cases w with
  | query =>
    simp only [TextMessage.finish]
    split
    · exact happ .query
    · exact (List.append_nil _).symm
  | errorno =>
    simp only [TextMessage.finish]
    split
    · exact happ (.errorno e)
    · exact (List.append_nil _).symm
  | expose l => exact happ _
  | control l => exact happ _
  | abort => exact happ .abort

/-- The requests of a client after a message. -/
lemma calls_after (e : ℤ) :
    calls (w.after g answer x e).1.acts = calls x.acts ++ w.passed g x := by
  have hacts (l : List (ℕ × ℕ)) (x : Session) :
      (l.foldl (Session.set_attrib w.long) x).acts = x.acts := by
    induction l generalizing x with
    | nil => rfl
    | cons a l ih => exact ih _
  refine (calls_finish e).trans ?_
  rw [hacts]
  rfl

/-- An exposure request starts from the default values. -/
lemma start_expose {l : List (Fin 9 × ℕ)} (h₁ : CCD_EXP_WIDTH_INDEX ≤ n)
    (h₂ : n < CCD_EXP_WIDTH_INDEX + 10) :
    ((TextMessage.expose l).start g x).parse_msg n =
      ((TextMessage.expose l).start g x').parse_msg n := by
  have hne : n ≠ CCD_MSG_INDEX := by
    unfold CCD_MSG_INDEX
    unfold CCD_EXP_WIDTH_INDEX at h₁
    omega
  have hstart (x : Session) :
      ((TextMessage.expose l).start g x).parse_msg n = exp_defaults g x.parse_msg n :=
    Function.update_of_ne hne _ _
  rw [hstart, hstart, exp_defaults, exp_defaults, if_pos ⟨h₁, h₂⟩, if_pos ⟨h₁, h₂⟩]

/-- A control request starts from what there is. -/
lemma start_control {l : List (Fin 2 × ℕ)} (h : n ≠ CCD_MSG_INDEX) :
    ((TextMessage.control l).start g x).parse_msg n = x.parse_msg n :=
  Function.update_of_ne h _ _

lemma command_congr (hcmd : x.parse_msg CCD_CTRL_CMD_INDEX = x'.parse_msg CCD_CTRL_CMD_INDEX)
    (hlo : x.parse_msg CCD_CTRL_PARM_LO_INDEX = x'.parse_msg CCD_CTRL_PARM_LO_INDEX)
    (hhi : x.parse_msg (CCD_CTRL_PARM_LO_INDEX + 1) = x'.parse_msg (CCD_CTRL_PARM_LO_INDEX + 1)) :
    x.command = x'.command := by
  rw [Session.command, Session.command, hcmd, hlo, hhi]

/-- A message that leaves nothing to what came before makes the same requests everywhere. -/
lemma passed_of_full (h : w.full) : w.passed g x = w.passed g x' := by
  cases w with
  | expose l =>
    refine congrArg (fun parms => [Action.expose parms]) (slice_congr fun j h₁ h₂ => ?_)
    exact foldl_set_attrib_agree (.inl (start_expose h₁ h₂))
  | control l =>
    have hmem {i : Fin 2} (hi : i ∈ l.map Prod.fst) :
        ∃ a ∈ (TextMessage.control l).attribs, a.1 = i.val := by
      obtain ⟨a, ha, rfl⟩ := List.mem_map.mp hi
      exact ⟨_, List.mem_map_of_mem ha, rfl⟩
    obtain ⟨a, ha, ha₀⟩ := hmem h.1
    obtain ⟨b, hb, hb₁⟩ := hmem h.2
    have hagree (n : ℕ) (hset : ∃ a ∈ (TextMessage.control l).attribs,
        sets (TextMessage.control l).long a n) :=
      @foldl_set_attrib_agree ((TextMessage.control l).start g x)
        ((TextMessage.control l).start g x') _ _ _ (.inr hset)
    have hcmd := hagree CCD_CTRL_CMD_INDEX ⟨a, ha, .inl (by rw [ha₀]; rfl)⟩
    have hlo := hagree CCD_CTRL_PARM_LO_INDEX ⟨b, hb, .inl (by rw [hb₁]; rfl)⟩
    have hhi := hagree (CCD_CTRL_PARM_LO_INDEX + 1) ⟨b, hb, .inr ⟨by rw [hb₁]; rfl, rfl⟩⟩
    exact congrArg (fun c => [c]) (command_congr hcmd hlo hhi)
  | query => rfl
  | errorno => rfl
  | abort => rfl

/-! ## Texts -/

/-- A message that has been written is heard. -/
lemma text_writes_after (hb : t.between) (hd : Spells w.lexemes (ds.flatten.map upper))
    (h : text_writes g answer ds t = some s) :
    ∃ e, s.session = (w.after g answer t.session e).1 := by
  have hws : [w].flatMap TextMessage.lexemes = w.lexemes := by simp
  obtain ⟨es, hh, -⟩ := heard_of_writes (upper_blank hb.2) (next_lexeme_of_blank hb.2) h
  obtain ⟨s', hs', hsess, hlex⟩ := text_writes_spec (g := g) hb.2
    (by rw [hws]; exact hd) hh
  rw [h] at hs'
  cases hs'
  rw [hws] at hlex
  rw [TextMessage.listen hb.1 hlex] at hsess
  exact ⟨_, hsess⟩

/-- A message of a fresh client can be written, in the same pieces, after any other that has left
nothing in the buffer. -/
lemma text_writes_again {s : Talk} (h : text_writes g answer ds (.opened g) = some s)
    (hbuf : t.in_buf = []) : ∃ s', text_writes g answer ds t = some s' := by
  obtain ⟨es, hh, -⟩ := heard_of_writes (t := .opened g) rfl rfl h
  obtain ⟨buf, x, e⟩ := t
  obtain rfl : buf = [] := hbuf
  exact ⟨_, (writes_of_heard hh rfl x e).1⟩

/-- A text that ends in a bracket and fits into the buffer is heard in one write. -/
lemma write_once {l : List UInt8} {ls : List Lexeme} (hd : Spells ls ((l ++ [62]).map upper))
    (hlen : (l ++ [62]).length ≤ MAX_IN_BUF_SIZE) :
    ∃ es, Heard [] [l ++ [62]] es [] := by
  obtain ⟨u, hr, hblank⟩ := hd.reads
  have hu : u = [] := by
    rcases List.eq_nil_or_concat u with hu | ⟨v, b, rfl⟩
    · exact hu
    · -- a rest would end in the bracket
      have hsuffix : v.concat b <:+ l.map upper ++ [62] := by
        have := hr.suffix
        rwa [List.map_append] at this
      have hb : b = 62 := by
        obtain ⟨l', hl'⟩ := hsuffix
        rw [List.concat_eq_append, ← List.append_assoc] at hl'
        simpa using List.append_inj_right' hl' rfl
      have := hblank b (by simp)
      rw [hb] at this
      cases this
  rw [hu] at hr
  have hnext : Heard [] [[]] [] [] := .next .nil
  have hne : l ++ [62] ≠ [] := by simp
  have hmin : (l ++ [62]).length = min (l ++ [62] ++ []).length (MAX_IN_BUF_SIZE - 0) := by
    rw [List.append_nil]
    omega
  have hwrite := Heard.write (u := []) hne hmin hr hnext
  rw [List.append_nil (l ++ [62])] at hwrite
  exact ⟨_, hwrite⟩

/-- The text of a control message with the value 1 for one of its attributes. -/
def control_text (i : Fin 2) : List UInt8 :=
  chars "<CONTROL " ++ chars (ctrl_strings.getD i.val ("", 0)).1 ++ chars "=1/" ++ [62]

lemma spells_control (i : Fin 2) :
    Spells (TextMessage.control [(i, 1)]).lexemes ((control_text i).map upper) := by
  have htext : (control_text i).map upper = [] ++ ([60] ++ ([] ++ (chars "CONTROL" ++
      ([32] ++ (chars (ctrl_strings.getD i.val ("", 0)).1 ++ ([] ++ ([61] ++ ([] ++ ([49] ++
        ([] ++ ([47] ++ ([] ++ ([62] ++ [])))))))))))))  := by
    revert i
    decide
  have hname : (chars "CONTROL").all isUpper = true := by decide
  have hattrib : chars (ctrl_strings.getD i.val ("", 0)).1 ≠ [] ∧
      (chars (ctrl_strings.getD i.val ("", 0)).1).all isUpper = true := by
    revert i
    decide
  have hcontrol : chars "CONTROL" ≠ [] := by decide
  have hdigit : SpelledBy (.num (num_value [49])) [49] := .num (by decide) (by simp [isDigit])
  rw [htext]
  exact .cons (by simp) (.punct rfl rfl rfl) (.inl ⟨_, rfl⟩)
    (.cons (by simp) (.word hcontrol (List.all_eq_true.mp hname)) (.inr ⟨32, _, rfl, rfl⟩)
      (.cons (by simp [isBlank]) (.word hattrib.1 (List.all_eq_true.mp hattrib.2)) (.inr ⟨61, _, rfl, rfl⟩)
        (.cons (by simp) (.punct rfl rfl rfl) (.inl ⟨_, rfl⟩)
          (.cons (by simp) hdigit (.inr ⟨47, _, rfl, rfl⟩)
            (.cons (by simp) (.punct rfl rfl rfl) (.inl ⟨_, rfl⟩)
              (.cons (by simp) (.punct rfl rfl rfl) (.inl ⟨_, rfl⟩) (.nil (by simp))))))))

/-- A client that has set one attribute of a control message to 1. -/
lemma wrote_control (i : Fin 2) :
    ∃ t, Wrote g answer t ∧ t.between ∧ t.in_buf = [] ∧
      ∀ n, n ≠ CCD_MSG_INDEX → t.session.parse_msg n =
        ((Talk.opened g).session.set_attrib CCD_CTRL_PARM_LO_INDEX (i.val, 1)).parse_msg n := by
  have hopened : (Talk.opened g).between := ⟨rfl, nofun⟩
  have hlen : (control_text i).length ≤ MAX_IN_BUF_SIZE := by
    revert i
    decide
  have hd := spells_control i
  obtain ⟨es, hh⟩ := write_once hd hlen
  have ht := (@writes_of_heard g answer _ _ _ _ hh rfl (Talk.opened g).session
    (Talk.opened g).last_errorno).1
  obtain ⟨t, heq⟩ : ∃ t, t = Talk.after g answer (.opened g) es [] := ⟨_, rfl⟩
  have hbuf : t.in_buf = [] := by rw [heq]; rfl
  have htext : text_writes g answer [control_text i] (.opened g) = some t := by
    rw [heq]
    exact ht
  obtain ⟨e, he⟩ := text_writes_after hopened
    (by rw [List.flatten_singleton]; exact hd) htext
  refine ⟨t, ⟨_, htext⟩, ⟨?_, by rw [hbuf]; exact nofun⟩, hbuf, fun n hn => ?_⟩
  · rw [he]
    exact after_between
  · rw [he]
    show Function.update _ CCD_MSG_INDEX 0 n = _
    rw [Function.update_of_ne hn]
    rw [TextMessage.attribs, List.map_singleton, List.foldl_cons, List.foldl_nil]
    by_cases hset : sets CCD_CTRL_PARM_LO_INDEX (i.val, 1) n
    · exact set_attrib_of_sets hset
    · refine (set_attrib_of_not_sets hset).trans ((start_control hn).trans ?_)
      exact (set_attrib_of_not_sets hset).symm

/-- A control message that does not name an attribute passes on what there is. -/
lemma passed_of_not_full {l : List (Fin 2 × ℕ)} {i : Fin 2} (hi : i ∉ l.map Prod.fst) {n : ℕ}
    (hn : sets CCD_CTRL_PARM_LO_INDEX (i.val, 1) n) (hmsg : n ≠ CCD_MSG_INDEX) (x : Session) :
    ((TextMessage.control l).attribs.foldl (Session.set_attrib CCD_CTRL_PARM_LO_INDEX)
      ((TextMessage.control l).start g x)).parse_msg n = x.parse_msg n := by
  refine (foldl_set_attrib_keep fun a ha hset => hi ?_).trans (start_control hmsg)
  obtain ⟨b, hb, rfl⟩ := List.mem_map.mp ha
  have hib : b.1 = i := by
    have hb₁ := b.1.isLt
    have hi₁ := i.isLt
    unfold sets CCD_EXP_WIDTH_INDEX CCD_CTRL_PARM_LO_INDEX at hn hset
    dsimp only at hn hset
    refine Fin.ext ?_
    omega
  rw [← hib]
  exact List.mem_map_of_mem hb

/-- A message makes the same requests after whatever the client has been through exactly if it
leaves nothing to what came before. -/
theorem text_request_alike (w : TextMessage) :
    (w.full → Alike g answer (Past g answer) w) ∧
      (∀ ds, Spells w.lexemes (ds.flatten.map upper) →
        (text_writes g answer ds (.opened g)).isSome → Alike g answer (Wrote g answer) w →
        w.full) := by
  refine ⟨?_, ?_⟩
  · rintro hfull t t' - - ht ht' ds ds' s s' hd hd' hs hs'
    obtain ⟨e, he⟩ := text_writes_after ht hd hs
    obtain ⟨e', he'⟩ := text_writes_after ht' hd' hs'
    refine ⟨w.passed g t.session, ?_, ?_⟩
    · rw [he, calls_after]
    · rw [he', calls_after, passed_of_full hfull]
  · intro ds hd hsome halike
    obtain ⟨s, hs⟩ := Option.isSome_iff_exists.mp hsome
    cases w with
    | control l =>
      have hopened : (Talk.opened g).between := ⟨rfl, nofun⟩
      -- a fresh client, and one that has set the attribute to 1, pass on the same command
      have hsame (i : Fin 2) : ∃ t : Talk, (TextMessage.control l).passed g (Talk.opened g).session
            = (TextMessage.control l).passed g t.session ∧
          ∀ n, n ≠ CCD_MSG_INDEX → t.session.parse_msg n =
            ((Talk.opened g).session.set_attrib CCD_CTRL_PARM_LO_INDEX (i.val, 1)).parse_msg n := by
        obtain ⟨t, ht, hbetween, hbuf, hmsg⟩ := wrote_control (g := g) i
        obtain ⟨s', hs'⟩ := text_writes_again hs hbuf
        obtain ⟨e, he⟩ := text_writes_after hopened hd hs
        obtain ⟨e', he'⟩ := text_writes_after hbetween hd hs'
        obtain ⟨r, hr, hr'⟩ := halike _ _ ⟨[], rfl⟩ ht hopened hbetween _ _ _ _ hd hd hs hs'
        rw [he, calls_after] at hr
        rw [he', calls_after] at hr'
        exact ⟨t, (List.append_cancel_left hr).trans (List.append_cancel_left hr').symm, hmsg⟩
      refine ⟨?_, ?_⟩
      · by_contra h₀
        obtain ⟨t, heq, hmsg⟩ := hsame 0
        have hcmd := (Action.control.inj (List.singleton_inj.mp heq)).1
        have hkeep (x : Session) := passed_of_not_full (g := g) h₀ (.inl rfl)
          (show CCD_CTRL_CMD_INDEX ≠ CCD_MSG_INDEX by decide) x
        have hzero : (0 : ℕ) = 1 := by
          refine (congrArg UInt16.toNat (hkeep (Talk.opened g).session)).symm.trans
            (hcmd.trans (congrArg UInt16.toNat ((hkeep t.session).trans (hmsg _ (by decide)))))
        exact absurd hzero (by decide)
      · by_contra h₁
        obtain ⟨t, heq, hmsg⟩ := hsame 1
        have hparm := (Action.control.inj (List.singleton_inj.mp heq)).2
        have hlo (x : Session) := passed_of_not_full (g := g) h₁ (.inl rfl)
          (show CCD_CTRL_PARM_LO_INDEX ≠ CCD_MSG_INDEX by decide) x
        have hhi (x : Session) := passed_of_not_full (g := g) h₁ (.inr ⟨rfl, rfl⟩)
          (show CCD_CTRL_PARM_LO_INDEX + 1 ≠ CCD_MSG_INDEX by decide) x
        have hval (x : Session) := congrArg₂ (fun lo hi : UInt16 => lo.toNat + 2 ^ 16 * hi.toNat)
          (hlo x) (hhi x)
        have hmsgs := congrArg₂ (fun lo hi : UInt16 => lo.toNat + 2 ^ 16 * hi.toNat)
          (hmsg CCD_CTRL_PARM_LO_INDEX (by decide)) (hmsg (CCD_CTRL_PARM_LO_INDEX + 1) (by decide))
        have hzero : (0 : ℕ) = 1 :=
          (hval (Talk.opened g).session).symm.trans (hparm.trans ((hval t.session).trans hmsgs))
        exact absurd hzero (by decide)
    | query => trivial
    | errorno => trivial
    | expose l => trivial
    | abort => trivial

/-- A control message that names both attributes, and one that names one of them. -/
theorem text_request_alike_control :
    Alike .vga (fun _ => 0) (Past .vga fun _ => 0) (.control [(0, 2), (1, 3)]) ∧
      ¬ Alike .vga (fun _ => 0) (Wrote .vga fun _ => 0) (.control [(0, 1)]) := by
  refine ⟨(text_request_alike _).1 (by decide), fun h => ?_⟩
  have hd : Spells (TextMessage.control [(0, 1)]).lexemes
      ([control_text 0].flatten.map upper) := spells_control 0
  exact absurd ((text_request_alike _).2 _ hd rfl h) (by decide)

/-- The parameter of an earlier control request is passed on with the command of a later one. -/
theorem parameter_of_earlier_request :
    (text_writes .vga (fun _ => 0) [chars "<CONTROL COMMAND=2/>"] (.opened .vga)).map
        (fun s => s.session.acts) = some [.control 2 0] ∧
      (text_writes .vga (fun _ => 0) [chars "<CONTROL COMMAND=1 PARAMETER=1/>",
        chars "<CONTROL COMMAND=2/>"] (.opened .vga)).map (fun s => s.session.acts) =
          some [.control 1 1, .control 2 1] :=
  ⟨rfl, rfl⟩

end EspLinux.Ccd
