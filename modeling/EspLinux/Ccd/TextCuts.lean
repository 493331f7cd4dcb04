import EspLinux.Ccd.TextImage
import EspLinux.Ccd.TextRequest

/-!
# Texts in any number of writes

Cutting a text into writes changes only what errorno messages report: when a write ends while
the parser waits for the name of an errorno message, with a part of it or white space unread,
then the message reports `-ENOMEM` and not the result of the last request.  And more white
space than fits into the input buffer stops the client for ever.
-/

namespace EspLinux.Ccd

open EspLinux.Lib

/-- The lexemes that are heard, each with whether the input has run out since the one before,
and whether it has run out since the last. -/
def waits : Bool → List Input → List (Bool × Lexeme) × Bool
  | f, [] => ([], f)
  | f, .lexeme x :: es => ((f, x) :: (waits false es).1, (waits false es).2)
  | _, .out :: es => waits true es

/-- The input does not run out while the parser waits for the name of an errorno message, or
for the bracket in front of it. -/
def Clean : List TextMessage → List (Bool × Lexeme) → Prop
  | [], _ => True
  | w :: ws, ps => ¬ w.early ps ∧ Clean ws (ps.drop w.lexemes.length)

variable (g : Geometry) (answer : List Action → ℤ)

/-- What hearing a number of messages does. -/
def hear_all (ws : List TextMessage) (r : Session × ℤ) : Session × ℤ :=
  ws.foldl (fun r w => w.after g answer r.1 r.2) r

/-- There is room for the reply to each of the messages. -/
def Fits : List TextMessage → Session × ℤ → Prop
  | [], _ => True
  | w :: ws, r =>
    (w = .query ∨ w = .errorno → r.1.client.out_buf_len + 150 ≤ r.1.client.out_buf_size) ∧
      Fits ws (w.after g answer r.1 r.2)

variable {g answer} {x : Session} {e : ℤ} {w : TextMessage} {ws : List TextMessage}
  {ps : List (Bool × Lexeme)} {es : List Input} {u v : List UInt8} {ds : List (List UInt8)}
  {t : Talk}

/-! ## Waiting -/

lemma waits_snd (f : Bool) (es : List Input) : (waits f es).1.map Prod.snd = lexemes es := by
  induction es generalizing f with
  | nil => rfl
  | cons i es ih =>
    cases i with
    | lexeme x =>
      show x :: (waits false es).1.map Prod.snd = x :: lexemes es
      rw [ih]
    | out => exact ih true

lemma run_out_run_out (x : Session) (e : ℤ) : x.run_out (x.run_out e) = x.run_out e := by
  unfold Session.run_out
  split <;> rfl

/-- The input that is heard, as lexemes after which it may run out. -/
lemma feed_waits (f : Bool) (es : List Input) (x : Session) (e : ℤ) :
    feed g answer es (x, if f then x.run_out e else e) =
      let r := (waits f es).1.foldl (listen g answer) (x, e)
      (r.1, if (waits f es).2 then r.1.run_out r.2 else r.2) := by
  induction es generalizing f x e with
  | nil => rfl
  | cons i es ih =>
    cases i with
    | lexeme l =>
      have := ih false (listen g answer (x, e) (f, l)).1 (listen g answer (x, e) (f, l)).2
      simp only [Bool.false_eq_true, if_false] at this
      exact this
    | out =>
      have hout : (if f then x.run_out e else e) = (if f then x.run_out e else e) := rfl
      have := ih true x e
      rw [if_pos rfl] at this
      rw [feed, List.foldl_cons]
      show feed g answer es (x, x.run_out (if f then x.run_out e else e)) = _
      have hsame : x.run_out (if f then x.run_out e else e) = x.run_out e := by
        split
        · exact run_out_run_out x e
        · rfl
      rw [hsame]
      exact this

/-! ## What is done stays done -/

lemma on_token_acts (token value : ℕ) :
    ∃ l, (on_token g answer token value x e).1.acts = x.acts ++ l := by
  have hattribs (first count index long : ℕ) (done : Session × ℤ) (a : Action)
      (hdone : done.1.acts = x.acts ++ [a]) :
      ∃ l, (on_attribs first count index long done token value x e).1.acts = x.acts ++ l := by
    unfold on_attribs
    split
    · exact ⟨[], (List.append_nil _).symm⟩
    · split
      · exact ⟨[], (List.append_nil _).symm⟩
      · split
        · exact ⟨[a], hdone⟩
        · exact ⟨[], (List.append_nil _).symm⟩
  unfold on_token
  split
  · split
    · split
      · exact ⟨[.query], rfl⟩
      · exact ⟨[], (List.append_nil _).symm⟩
    · exact ⟨[], (List.append_nil _).symm⟩
  · split
    · split
      · split
        · exact ⟨[.errorno e], rfl⟩
        · exact ⟨[], (List.append_nil _).symm⟩
      · exact ⟨[], (List.append_nil _).symm⟩
    · split
      · exact hattribs _ _ _ _ _ _ rfl
      · split
        · exact hattribs _ _ _ _ _ _ rfl
        · split
          · split
            · exact ⟨[.abort], rfl⟩
            · exact ⟨[], (List.append_nil _).symm⟩
          · dsimp only
            split
            · exact ⟨[], (List.append_nil _).symm⟩
            · exact ⟨[], (List.append_nil _).symm⟩

lemma listen_acts (ps : List (Bool × Lexeme)) (r : Session × ℤ) :
    ∃ l, (ps.foldl (listen g answer) r).1.acts = r.1.acts ++ l := by
  induction ps generalizing r with
  | nil => exact ⟨[], (List.append_nil _).symm⟩
  | cons p ps ih =>
    obtain ⟨l, hl⟩ := ih (listen g answer r p)
    obtain ⟨l', hl'⟩ := on_token_acts (g := g) (x := r.1)
      (e := if p.1 then r.1.run_out r.2 else r.2) (p.2.token r.1.strings) p.2.value
    have hp : (listen g answer r p).1.acts = r.1.acts ++ l' := hl'
    exact ⟨l' ++ l, by rw [List.foldl_cons, hl, hp, List.append_assoc]⟩

/-- A message that is heard without running out of input. -/
lemma after_eq_listen (h : x.between) :
    w.after g answer x e = (w.lexemes.map fun l => (false, l)).foldl (listen g answer) (x, e) := by
  have hno : ¬ w.early (w.lexemes.map fun l => (false, l)) := by
    rintro ⟨-, p, hp, htrue⟩
    obtain ⟨l, -, rfl⟩ := List.mem_map.mp (List.mem_of_mem_take hp)
    cases htrue
  have := @TextMessage.listen g answer _ e w h
    (w.lexemes.map fun l => (false, l)) (by rw [List.map_map]; exact List.map_id _)
  rw [this, if_neg hno]

lemma after_acts (h : x.between) : ∃ l, (w.after g answer x e).1.acts = x.acts ++ l := by
  rw [after_eq_listen h]
  exact listen_acts _ _

lemma hear_all_acts (h : x.between) :
    ∃ l, (hear_all g answer ws (x, e)).1.acts = x.acts ++ l := by
  induction ws generalizing x e with
  | nil => exact ⟨[], (List.append_nil _).symm⟩
  | cons w ws ih =>
    obtain ⟨l, hl⟩ := after_acts (g := g) (w := w) (e := e) h
    obtain ⟨l', hl'⟩ := ih (x := (w.after g answer x e).1) (e := (w.after g answer x e).2)
      after_between
    exact ⟨l ++ l', by rw [hear_all, List.foldl_cons, ← List.append_assoc, ← hl, ← hl']; rfl⟩

/-! ## Messages and the times of running out -/

/-- The lexemes of the first message. -/
lemma split_message (hps : ps.map Prod.snd = (w :: ws).flatMap TextMessage.lexemes) :
    ∃ qs, ps = qs ++ ps.drop w.lexemes.length ∧ qs.map Prod.snd = w.lexemes ∧
      (ps.drop w.lexemes.length).map Prod.snd = ws.flatMap TextMessage.lexemes ∧
      (w.early ps ↔ w.early qs) := by
  rw [List.flatMap_cons] at hps
  obtain ⟨qs, ps, rfl, hqs, hps⟩ := List.map_eq_append_iff.mp hps
  have hlen : qs.length = w.lexemes.length := by rw [← hqs, List.length_map]
  have htwo : 2 ≤ qs.length := by
    rw [hlen, TextMessage.lexemes]
    exact Nat.le_add_left 2 _
  refine ⟨qs, ?_, hqs, ?_, ?_⟩
  · rw [← hlen, List.drop_left]
  · rw [← hlen, List.drop_left, hps]
  · rw [TextMessage.early, TextMessage.early, List.take_append_of_le_length htwo]

/-- If the input does not run out in front of the name of an errorno message, then the parser
hears the messages as if it did not run out at all. -/
lemma listen_clean (h : x.between) (hps : ps.map Prod.snd = ws.flatMap TextMessage.lexemes)
    (hclean : Clean ws ps) :
    ps.foldl (listen g answer) (x, e) = hear_all g answer ws (x, e) := by
  induction ws generalizing x e ps with
  | nil =>
    obtain rfl := List.map_eq_nil_iff.mp hps
    rfl
  | cons w ws ih =>
    obtain ⟨qs, hsplit, hqs, hrest, hiff⟩ := split_message hps
    rw [hsplit, List.foldl_append, TextMessage.listen h hqs, if_neg fun he => hclean.1 (hiff.mpr he)]
    exact ih after_between hrest hclean.2

/-- The result of a request is not `-ENOMEM` if there is room for the reply. -/
lemma after_ne_enomem (hans : ∀ l, answer l ≠ -ENOMEM) (hne : e ≠ -ENOMEM)
    (hroom : w = .query ∨ w = .errorno → x.client.out_buf_len + 150 ≤ x.client.out_buf_size) :
    (w.after g answer x e).2 ≠ -ENOMEM := by
  have hzero : (0 : ℤ) ≠ -ENOMEM := by decide
  show (w.finish g answer _ e).2 ≠ -ENOMEM
  cases w with
  | query =>
    have hq := hroom (.inl rfl)
    simp only [TextMessage.finish]
    rw [show (TextMessage.query.attribs.foldl (Session.set_attrib TextMessage.query.long)
      (TextMessage.query.start g x)).client = x.client from rfl, text_query, if_pos hq]
    exact hzero
  | errorno =>
    simp only [TextMessage.finish]
    split <;> exact hne
  | expose l => exact hzero
  | control l => exact hans _
  | abort => exact hzero

/-- What an errorno message does if there is room for the reply. -/
lemma after_errorno (hroom : x.client.out_buf_len + 150 ≤ x.client.out_buf_size) (e : ℤ) :
    (TextMessage.errorno.after g answer x e).1.acts = x.acts ++ [.errorno e] := by
  show (TextMessage.errorno.finish g answer (TextMessage.errorno.start g x) e).1.acts = _
  simp only [TextMessage.finish]
  rw [show (TextMessage.errorno.start g x).client = x.client from rfl, text_errorno, if_pos hroom]
  rfl

/-- Otherwise what is done differs. -/
lemma listen_not_clean (hans : ∀ l, answer l ≠ -ENOMEM) (hne : e ≠ -ENOMEM) (h : x.between)
    (hfit : Fits g answer ws (x, e)) (hps : ps.map Prod.snd = ws.flatMap TextMessage.lexemes)
    (hclean : ¬ Clean ws ps) :
    (ps.foldl (listen g answer) (x, e)).1.acts ≠ (hear_all g answer ws (x, e)).1.acts := by
  induction ws generalizing x e ps with
  | nil => exact absurd trivial hclean
  | cons w ws ih =>
    obtain ⟨qs, hsplit, hqs, hrest, hiff⟩ := split_message hps
    have hhear : hear_all g answer (w :: ws) (x, e)
        = hear_all g answer ws (w.after g answer x e) := rfl
    rw [hsplit, List.foldl_append, TextMessage.listen h hqs, hhear]
    by_cases hearly : w.early qs
    · -- the first errorno message that reports something else
      rw [if_pos hearly]
      obtain ⟨rfl, -⟩ := id hearly
      have hroom := hfit.1 (.inr rfl)
      obtain ⟨l, hl⟩ := listen_acts (g := g) (ps.drop _)
        (TextMessage.errorno.after g answer x (-ENOMEM))
      obtain ⟨l', hl'⟩ := hear_all_acts (g := g)
        (x := (TextMessage.errorno.after g answer x e).1)
        (e := (TextMessage.errorno.after g answer x e).2) after_between
      rw [hl, show (hear_all g answer ws (TextMessage.errorno.after g answer x e)).1.acts = _ from hl',
        after_errorno hroom, after_errorno hroom, List.append_assoc, List.append_assoc]
      intro heq
      have := List.append_cancel_left heq
      simp only [List.cons_append, List.nil_append, List.cons.injEq, Action.errorno.injEq] at this
      exact hne this.1.symm
    · rw [if_neg hearly]
      exact ih (after_ne_enomem hans hne hfit.1) after_between hfit.2 hrest
        fun hc => hclean ⟨fun he => hearly (hiff.mp he), hc⟩

/-! ## Texts -/

lemma Spells.blank {gap text : List UInt8} {ls : List Lexeme}
    (hgap : ∀ b ∈ gap, isBlank b = true) (h : Spells ls text) : Spells ls (gap ++ text) := by
  cases h with
  | nil h =>
    refine .nil fun b hb => ?_
    rcases List.mem_append.mp hb with hb | hb
    · exact hgap b hb
    · exact h b hb
  | cons h hl hend hs =>
    rw [← List.append_assoc]
    refine .cons (fun b hb => ?_) hl hend hs
    rcases List.mem_append.mp hb with hb | hb
    · exact hgap b hb
    · exact h b hb

/-- White space has no case. -/
lemma upper_blank {gap : List UInt8} (hgap : ∀ b ∈ gap, isBlank b = true) : gap.map upper = gap := by
  refine (List.map_congr_left fun b hb => ?_).trans (List.map_id gap)
  have := hgap b hb
  simp only [isBlank, decide_eq_true_eq] at this
  unfold upper
  rw [if_neg (by omega)]
  rfl

lemma next_lexeme_of_blank {gap : List UInt8} (hgap : ∀ b ∈ gap, isBlank b = true) :
    next_lexeme gap = none := by
  have := next_lexeme_blank hgap []
  rwa [List.append_nil, next_lexeme_nil] at this

/-- A text in one piece that does not end in white space is heard without running out of
input. -/
lemma text_piece_spec {text : List UInt8} (hb : ∀ b ∈ t.in_buf, isBlank b = true)
    (h : Spells (ws.flatMap TextMessage.lexemes) (text.map upper)) (hx : t.session.between) :
    ∃ u e, text_piece g answer text t =
      some ⟨u, (hear_all g answer ws (t.session, t.last_errorno)).1, e⟩ := by
  obtain ⟨u, hr, -⟩ := (h.blank hb).reads
  have hbuf : (t.in_buf ++ text).map upper = t.in_buf ++ text.map upper := by
    rw [List.map_append, upper_blank hb]
  have hn := hr.length_le
  have hclean (ws : List TextMessage) : Clean ws
      ((ws.flatMap TextMessage.lexemes).map fun l => (false, l)) := by
    induction ws with
    | nil => trivial
    | cons w ws ih =>
      refine ⟨?_, ?_⟩
      · rintro ⟨-, p, hp, htrue⟩
        obtain ⟨l, -, rfl⟩ := List.mem_map.mp (List.mem_of_mem_take hp)
        cases htrue
      · rw [List.flatMap_cons, List.map_append]
        rw [List.drop_left' (List.length_map _)]
        exact ih
  have hlisten := @listen_clean g answer _ t.last_errorno _ _ hx
    (by rw [List.map_map]; exact List.map_id _) (hclean ws)
  have hfeed (ls : List Lexeme) (r : Session × ℤ) : feed g answer (ls.map .lexeme) r
      = (ls.map fun l => (false, l)).foldl (listen g answer) r := by
    rw [feed, List.foldl_map, List.foldl_map]
    rfl
  have hloop := @parse_text_msg_loop g answer _ _ _ hr
    ((t.in_buf ++ text.map upper).length + 1) (by omega) (t.session, t.last_errorno)
  dsimp only at hloop
  rw [feed_append, hfeed, hlisten] at hloop
  rw [text_piece]
  simp only [hbuf]
  have hsess (r : Session × ℤ) : (feed g answer (if u = [] then [] else [.out]) r).1 = r.1 := by
    split <;> rfl
  rw [hsess] at hloop
  exact ⟨u, _, hloop⟩

/-- What the writes of a text do. -/
lemma text_writes_spec (hb : ∀ b ∈ t.in_buf, isBlank b = true)
    (h : Spells (ws.flatMap TextMessage.lexemes) (ds.flatten.map upper))
    (hh : Heard t.in_buf ds es v) :
    ∃ s, text_writes g answer ds t = some s ∧
      s.session = ((waits false es).1.foldl (listen g answer) (t.session, t.last_errorno)).1 ∧
      (waits false es).1.map Prod.snd = ws.flatMap TextMessage.lexemes := by
  obtain ⟨u, hr, -⟩ := (h.blank hb).reads
  have hlex := (hh.reads (next_lexeme_of_blank hb)).unique hr
  refine ⟨_, (writes_of_heard hh (upper_blank hb) t.session t.last_errorno).1, ?_, ?_⟩
  · have := @feed_waits g answer false es t.session t.last_errorno
    simp only [Bool.false_eq_true, if_false] at this
    rw [Talk.after, this]
  · rw [waits_snd, hlex.1]

/-- The actions for a text do not depend on how it is cut into writes and on its white space
exactly as long as the buffer does not fill up with unread input, and the input does not run out
in front of the name of an errorno message. -/
theorem text_stream_cuts {text : List UInt8} (hx : t.session.between)
    (hb : ∀ b ∈ t.in_buf, isBlank b = true)
    (hd : Spells (ws.flatMap TextMessage.lexemes) (ds.flatten.map upper))
    (htext : Spells (ws.flatMap TextMessage.lexemes) (text.map upper))
    (hfit : Fits g answer ws (t.session, t.last_errorno)) :
    ∃ s, text_piece g answer text t = some s ∧
      ((∃ es u, Heard t.in_buf ds es u ∧ Clean ws (waits false es).1) →
        ∃ s', text_writes g answer ds t = some s' ∧ s'.session.acts = s.session.acts) ∧
      (t.last_errorno ≠ -ENOMEM → (∀ l, answer l ≠ -ENOMEM) →
        (∃ s', text_writes g answer ds t = some s' ∧ s'.session.acts = s.session.acts) →
        ∃ es u, Heard t.in_buf ds es u ∧ Clean ws (waits false es).1) := by
  obtain ⟨u, e, hpiece⟩ := text_piece_spec (g := g) hb htext hx
  refine ⟨_, hpiece, ?_, ?_⟩
  · rintro ⟨es, v, hh, hclean⟩
    obtain ⟨s', hs', hsess, hlex⟩ := text_writes_spec (g := g) hb hd hh
    refine ⟨s', hs', ?_⟩
    rw [hsess, listen_clean hx hlex hclean]
  · rintro hne hans ⟨s', hs', hacts⟩
    obtain ⟨es, hh, -⟩ := heard_of_writes (upper_blank hb) (next_lexeme_of_blank hb) hs'
    refine ⟨es, _, hh, ?_⟩
    by_contra hclean
    obtain ⟨s'', hs'', hsess, hlex⟩ := text_writes_spec (g := g) hb hd hh
    rw [hs'] at hs''
    cases hs''
    rw [hsess] at hacts
    exact listen_not_clean hans hne hx hfit hlex hclean hacts

/-- A text client that has just opened the device, when the last request of any client was
successful. -/
def Talk.opened (g : Geometry) : Talk :=
  { in_buf := []
    session :=
      { client := { Client.closed with out_buf_size := out_buf_size g .text }
        parse_msg := fun _ => 0
        parse_token := 0
        parse_attrib := 0
        acts := [] }
    last_errorno := 0 }

/-- A query and an errorno message, cut inside a name and behind another. -/
def query_errorno_cuts : List (List UInt8) :=
  [chars "< qu", chars "ery /> <errorno ", chars "/>"]

/-- They are written at once and without white space, or in three parts with blanks. -/
theorem text_stream_cuts_three :
    ∃ s s', text_piece .vga (fun _ => 0) (chars "<query/><errorno/>") (.opened .vga) = some s ∧
      text_writes .vga (fun _ => 0) query_errorno_cuts (.opened .vga) = some s' ∧
      s'.session.acts = s.session.acts := by
  have hupper : (chars "QUERY").all isUpper = true ∧ (chars "ERRORNO").all isUpper = true := by
    decide
  have hquery : SpelledBy (.word (chars "QUERY")) (chars "QUERY") :=
    .word (by decide) (List.all_eq_true.mp hupper.1)
  have herrorno : SpelledBy (.word (chars "ERRORNO")) (chars "ERRORNO") :=
    .word (by decide) (List.all_eq_true.mp hupper.2)
  have hgap : ∀ b ∈ [(32 : UInt8)], isBlank b = true := by simp [isBlank]
  have hpiece : Spells ([TextMessage.query, .errorno].flatMap TextMessage.lexemes)
      ((chars "<query/><errorno/>").map upper) := by
    have htext : (chars "<query/><errorno/>").map upper =
        60 :: (chars "QUERY" ++ 47 :: 62 :: 60 :: (chars "ERRORNO" ++ [47, 62])) := by decide
    rw [htext]
    refine .punct rfl rfl rfl (.cons_left hquery ⟨47, _, rfl, rfl⟩ ?_)
    refine .punct rfl rfl rfl (.punct rfl rfl rfl (.punct rfl rfl rfl ?_))
    refine .cons_left herrorno ⟨47, _, rfl, rfl⟩ ?_
    exact .punct rfl rfl rfl (.punct rfl rfl rfl (.nil (by simp)))
  have hcuts : Spells ([TextMessage.query, .errorno].flatMap TextMessage.lexemes)
      (query_errorno_cuts.flatten.map upper) := by
    have htext : query_errorno_cuts.flatten.map upper =
        60 :: 32 :: (chars "QUERY" ++ 32 :: 47 :: 62 :: 32 :: 60 ::
          (chars "ERRORNO" ++ 32 :: [47, 62])) := by decide
    rw [htext]
    refine .punct rfl rfl rfl (.blank hgap (.cons_left hquery ⟨32, _, rfl, rfl⟩ (.blank hgap ?_)))
    refine .punct rfl rfl rfl (.punct rfl rfl rfl (.blank hgap (.punct rfl rfl rfl ?_)))
    refine .cons_left herrorno ⟨32, _, rfl, rfl⟩ (.blank hgap ?_)
    exact .punct rfl rfl rfl (.punct rfl rfl rfl (.nil (by simp)))
  obtain ⟨es, hheard, hclean⟩ : ∃ es, Heard [] query_errorno_cuts es [] ∧
      Clean [.query, .errorno] (waits false es).1 := by
    have hfirst : Reads ([] ++ (chars "< qu").map upper) [.punct 60] (chars " QU") :=
      .more rfl (.stop rfl)
    have hsecond : Reads (chars " QU" ++ (chars "ery /> <errorno ").map upper)
        [.word (chars "QUERY"), .punct 47, .punct 62, .punct 60, .word (chars "ERRORNO")] [32] :=
      .more rfl (.more rfl (.more rfl (.more rfl (.more rfl (.stop rfl)))))
    have hthird : Reads ([32] ++ (chars "/>").map upper) [.punct 47, .punct 62] [] :=
      .more rfl (.more rfl (.stop rfl))
    have hwrite {u v d : List UInt8} {ds : List (List UInt8)} {ls : List Lexeme} {es : List Input}
        (hne : d ≠ []) (hroom : d.length ≤ MAX_IN_BUF_SIZE - u.length)
        (hr : Reads (u ++ d.map upper) ls v) (hh : Heard v ds es []) :
        Heard u (d :: ds) (ls.map .lexeme ++ ((if v = [] then [] else [.out]) ++ es)) [] := by
      have hall := Heard.write hne (by rw [List.append_nil, min_eq_left hroom]) hr (.next hh)
      rwa [List.append_nil d] at hall
    exact ⟨_, hwrite (by decide) (by decide) hfirst (hwrite (by decide) (by decide) hsecond
      (hwrite (by decide) (by decide) hthird .nil)), ⟨by decide, by decide, trivial⟩⟩
  have hfit : Fits .vga (fun _ => 0) [.query, .errorno]
      ((Talk.opened .vga).session, (Talk.opened .vga).last_errorno) :=
    ⟨fun _ => by decide, fun _ => by decide, trivial⟩
  obtain ⟨s, hs, hsame, -⟩ := text_stream_cuts (g := .vga) (t := .opened .vga) rfl
    (by simp [Talk.opened]) hcuts hpiece hfit
  obtain ⟨s', hs', hacts⟩ := hsame ⟨es, _, hheard, hclean⟩
  exact ⟨s, s', hs, hs', hacts⟩

/-- A newline that is written with a query makes the errorno message that follows report
`-ENOMEM`. -/
theorem errorno_after_newline :
    (text_piece .vga (fun _ => 0) (chars "<query/><errorno/>") (.opened .vga)).map
        (fun s => s.session.acts) = some [.query, .errorno 0] ∧
      (text_writes .vga (fun _ => 0) [chars "<query/>\n", chars "<errorno/>"] (.opened .vga)).map
        (fun s => s.session.acts) = some [.query, .errorno (-ENOMEM)] :=
  ⟨rfl, rfl⟩

end EspLinux.Ccd
