import EspLinux.Ccd.TextMsg

/-!
# Text in pieces

Whatever the pieces in which a text arrives, the parser hears the same lexemes.  What depends
on the pieces is when it runs out of input (`Heard`), and that the input buffer may fill up
with white space, in which case no write takes anything any more.
-/

namespace EspLinux.Ccd

open EspLinux.Lib

/-- What the parser hears: a lexeme, or that the input is exhausted with some of it unread. -/
inductive Input
  | lexeme (x : Lexeme)
  | out
deriving DecidableEq

/-- The lexemes that are heard. -/
def lexemes (es : List Input) : List Lexeme :=
  es.filterMap fun | .lexeme x => some x | .out => none

/-- With `u` unread, the writes of the parts `ds` let the parser hear `es` and leave `v`
unread.  Each of them takes as much as there is room for, but at least one character. -/
inductive Heard : List UInt8 → List (List UInt8) → List Input → List UInt8 → Prop
  | nil {u : List UInt8} : Heard u [] [] u
  | next {u v : List UInt8} {ds : List (List UInt8)} {es : List Input} :
      Heard u ds es v → Heard u ([] :: ds) es v
  | write {u v w chunk rest : List UInt8} {ds : List (List UInt8)} {ls : List Lexeme}
      {es : List Input} : chunk ≠ [] →
      chunk.length = min (chunk ++ rest).length (MAX_IN_BUF_SIZE - u.length) →
      Reads (u ++ chunk.map upper) ls v → Heard v (rest :: ds) es w →
      Heard u ((chunk ++ rest) :: ds)
        (ls.map .lexeme ++ ((if v = [] then [] else [.out]) ++ es)) w

variable (g : Geometry) (answer : List Action → ℤ)

/-- The parser gets a lexeme. -/
def hear (x : Lexeme) (w : Session × ℤ) : Session × ℤ :=
  let r := on_token g answer (x.token w.1.strings) x.value w.1 w.2
  ({ r.1 with parse_token := x.token w.1.strings }, r.2)

/-- The parser hears something. -/
def Input.step (w : Session × ℤ) : Input → Session × ℤ
  | lexeme x => hear g answer x w
  | out => (w.1, w.1.run_out w.2)

/-- The parser hears a number of things. -/
def feed (es : List Input) (w : Session × ℤ) : Session × ℤ := es.foldl (Input.step g answer) w

variable {g answer} {u v : List UInt8} {ls : List Lexeme} {t t' : Talk} {d : List UInt8}
  {ds : List (List UInt8)} {es es' : List Input} {w : Session × ℤ}

lemma feed_append (es es' : List Input) (w : Session × ℤ) :
    feed g answer (es ++ es') w = feed g answer es' (feed g answer es w) :=
  List.foldl_append

lemma lexemes_append (es es' : List Input) : lexemes (es ++ es') = lexemes es ++ lexemes es' :=
  List.filterMap_append

@[simp] lemma lexemes_map (ls : List Lexeme) : lexemes (ls.map .lexeme) = ls := by
  simp [lexemes, List.filterMap_map]

/-! ## A write -/

lemma parse_text_msg_none (hne : t.in_buf ≠ []) (h : next_lexeme t.in_buf = none) :
    parse_text_msg g answer t
      = .inr { t with last_errorno := t.session.run_out t.last_errorno } := by
  rw [parse_text_msg, if_neg hne, get_token, h]
  rfl

lemma parse_text_msg_some {x : Lexeme} (h : next_lexeme t.in_buf = some (x, u)) :
    parse_text_msg g answer t = .inl
      { in_buf := u, session := (hear g answer x (t.session, t.last_errorno)).1,
        last_errorno := (hear g answer x (t.session, t.last_errorno)).2 } := by
  have hne : t.in_buf ≠ [] := by
    intro hnil
    rw [hnil] at h
    cases h
  rw [parse_text_msg, if_neg hne, get_token, h]
  rfl

/-- The parser hears the lexemes in the buffer, and that it is exhausted if something is left
over. -/
lemma parse_text_msg_loop (h : Reads d ls u) (n : ℕ) (hn : ls.length < n) (w : Session × ℤ) :
    loop (parse_text_msg g answer) n ⟨d, w.1, w.2⟩ =
      let r := feed g answer (ls.map .lexeme ++ if u = [] then [] else [.out]) w
      some ⟨u, r.1, r.2⟩ := by
  induction h generalizing n w with
  | @stop buf hnone =>
    obtain ⟨n, rfl⟩ : ∃ n', n = n' + 1 := ⟨n - 1, by omega⟩
    by_cases hne : buf = []
    · rw [if_pos hne]
      exact loop_inr (if_pos hne)
    · rw [if_neg hne]
      exact loop_inr (parse_text_msg_none hne hnone)
  | more hs _ ih =>
    obtain ⟨n, rfl⟩ : ∃ n', n = n' + 1 := ⟨n - 1, by omega⟩
    rw [loop_inl (parse_text_msg_some hs), ih n (Nat.lt_of_succ_lt_succ hn)]
    rfl

/-- The buffer is in upper case. -/
lemma upper_upper (b : UInt8) : upper (upper b) = upper b := by
  unfold upper
  split
  · rename_i h
    have hsub : (b - 32).toNat = b.toNat - 32 := by
      rw [UInt8.toNat_sub_of_le _ _ (by rw [UInt8.le_iff_toNat_le]; exact Nat.le_of_lt (by
        show 32 < b.toNat
        omega))]
      rfl
    exact if_neg (by omega)
  · rfl

lemma Reads.suffix (h : Reads d ls u) : u <:+ d := by
  have hdrop (p : UInt8 → Bool) (l : List UInt8) : l.dropWhile p <:+ l := List.dropWhile_suffix p
  induction h with
  | stop _ => exact List.suffix_refl _
  | @more buf rest u x ls hs _ ih =>
    refine ih.trans ?_
    have hblank := hdrop isBlank buf
    unfold next_lexeme at hs
    split at hs
    · cases hs
    · rename_i b l hbuf
      rw [hbuf] at hblank
      have htail : l <:+ buf := (List.suffix_cons b l).trans hblank
      split at hs
      · split at hs
        · cases hs
        · cases hs
          exact (hdrop _ _).trans htail
      · split at hs
        · split at hs
          · cases hs
          · cases hs
            exact (hdrop _ _).trans htail
        · cases hs
          exact htail

/-- What is unread of a text in upper case is in upper case. -/
lemma Reads.upper (h : Reads d ls u) (hd : d.map upper = d) : u.map Ccd.upper = u := by
  obtain ⟨l, rfl⟩ := h.suffix
  rw [List.map_append] at hd
  exact List.append_inj_right hd (List.length_map _)

/-- One write. -/
lemma text_write_spec (hu : t.in_buf.map upper = t.in_buf) (hd : d ≠ []) {chunk rest : List UInt8}
    (heq : d = chunk ++ rest)
    (hlen : chunk.length = min d.length (MAX_IN_BUF_SIZE - t.in_buf.length))
    (hr : Reads (t.in_buf ++ chunk.map upper) ls u) :
    text_write g answer d t =
      let r := feed g answer (ls.map .lexeme ++ if u = [] then [] else [.out])
        (t.session, t.last_errorno)
      some (⟨u, r.1, r.2⟩, chunk.length) := by
  have htake : d.take (min d.length (MAX_IN_BUF_SIZE - t.in_buf.length)) = chunk := by
    rw [← hlen, heq, List.take_left]
  have hbuf : (t.in_buf ++ chunk).map upper = t.in_buf ++ chunk.map upper := by
    rw [List.map_append, hu]
  have hn : ls.length < (t.in_buf ++ chunk.map upper).length + 1 := by
    have := hr.length_le
    omega
  rw [text_write, if_neg hd]
  simp only [htake, hbuf]
  rw [parse_text_msg_loop hr _ hn (t.session, t.last_errorno), ← hlen]
  rfl

/-! ## A number of writes -/

/-- What the parser is after hearing `es`, with `u` unread. -/
def Talk.after (g : Geometry) (answer : List Action → ℤ) (t : Talk) (es : List Input)
    (u : List UInt8) : Talk :=
  ⟨u, (feed g answer es (t.session, t.last_errorno)).1,
    (feed g answer es (t.session, t.last_errorno)).2⟩

/-- What a write takes of a part of the text, if there is room. -/
lemma exists_chunk {c : UInt8} {l : List UInt8} (hroom : u.length < MAX_IN_BUF_SIZE) :
    ∃ chunk rest, c :: l = chunk ++ rest ∧ chunk ≠ [] ∧
      chunk.length = min (c :: l).length (MAX_IN_BUF_SIZE - u.length) := by
  have hlen := List.length_take (i := min (c :: l).length (MAX_IN_BUF_SIZE - u.length))
    (l := c :: l)
  rw [Nat.min_eq_left (Nat.min_le_left _ _)] at hlen
  refine ⟨_, _, (List.take_append_drop (min (c :: l).length (MAX_IN_BUF_SIZE - u.length))
    (c :: l)).symm, ?_, hlen⟩
  rw [← List.length_pos_iff, hlen]
  have : 0 < (c :: l).length := Nat.succ_pos _
  omega

/-- A write with the buffer full takes nothing. -/
lemma text_write_full {c : UInt8} {l : List UInt8} (hu : t.in_buf.map upper = t.in_buf)
    (hnone : next_lexeme t.in_buf = none) (hfull : ¬ t.in_buf.length < MAX_IN_BUF_SIZE) :
    ∃ e, text_write g answer (c :: l) t = some (⟨t.in_buf, t.session, e⟩, 0) := by
  have hr : Reads (t.in_buf ++ ([] : List UInt8).map upper) [] t.in_buf := by
    rw [List.map_nil, List.append_nil]
    exact .stop hnone
  have hzero : MAX_IN_BUF_SIZE - t.in_buf.length = 0 := by omega
  have := @text_write_spec g answer _ _ _ _ hu (List.cons_ne_nil c l) _ _
    (List.nil_append _).symm (by rw [hzero]; exact (Nat.min_zero _).symm) hr
  have hne : t.in_buf ≠ [] := by
    intro hnil
    rw [hnil] at hfull
    exact hfull (by decide)
  rw [if_neg hne] at this
  exact ⟨_, this⟩

/-- Nor do the writes after it. -/
lemma text_write_all_full {n : ℕ} {c : UInt8} {l : List UInt8}
    (hu : t.in_buf.map upper = t.in_buf) (hnone : next_lexeme t.in_buf = none)
    (hfull : ¬ t.in_buf.length < MAX_IN_BUF_SIZE) :
    text_write_all g answer n (c :: l) t = none := by
  induction n generalizing t with
  | zero => rfl
  | succ n ih =>
    obtain ⟨e, he⟩ := text_write_full (g := g) (c := c) (l := l) hu hnone hfull
    rw [text_write_all, he]
    exact ih (t := ⟨t.in_buf, t.session, e⟩) hu hnone hfull

/-- The writes of a part let the parser hear it. -/
lemma heard_of_write_all {n : ℕ} (hu : t.in_buf.map upper = t.in_buf)
    (hnone : next_lexeme t.in_buf = none) (h : text_write_all g answer n d t = some t') :
    t'.in_buf.map upper = t'.in_buf ∧ next_lexeme t'.in_buf = none ∧
      ∃ es, t' = t.after g answer es t'.in_buf ∧
        ∀ ds es' v, Heard t'.in_buf ds es' v → Heard t.in_buf (d :: ds) (es ++ es') v := by
  induction n generalizing d t with
  | zero =>
    cases d with
    | nil =>
      cases h
      exact ⟨hu, hnone, [], rfl, fun ds es' v hh => .next hh⟩
    | cons c l => cases h
  | succ n ih =>
    cases d with
    | nil =>
      cases h
      exact ⟨hu, hnone, [], rfl, fun ds es' v hh => .next hh⟩
    | cons c l =>
      by_cases hroom : t.in_buf.length < MAX_IN_BUF_SIZE
      · obtain ⟨chunk, rest, heq, hne, hlen⟩ := exists_chunk (c := c) (l := l) hroom
        obtain ⟨ls, u, hr⟩ := Reads.total (t.in_buf ++ chunk.map upper)
        have hw := @text_write_spec g answer _ _ _ _ hu (List.cons_ne_nil c l) _ _ heq hlen hr
        rw [text_write_all, hw, heq] at h
        simp only [Option.bind_eq_bind, Option.bind_some, List.drop_left] at h
        have hup : u.map upper = u := by
          refine hr.upper ?_
          rw [List.map_append, hu, List.map_map]
          exact congrArg _ (List.map_congr_left fun b _ => upper_upper b)
        obtain ⟨hu', hnone', es, rfl', hes⟩ := ih hup hr.unread h
        refine ⟨hu', hnone', (ls.map .lexeme ++ if u = [] then [] else [.out]) ++ es, ?_,
          fun ds es' v hh => ?_⟩
        · rw [rfl']
          simp only [Talk.after, feed_append]
        · rw [heq, List.append_assoc, List.append_assoc]
          rw [heq] at hlen
          exact .write hne hlen hr (hes ds es' v hh)
      · rw [text_write_all_full hu hnone hroom] at h
        cases h

/-- The writes of a number of parts let the parser hear them. -/
lemma heard_of_writes (hu : t.in_buf.map upper = t.in_buf) (hnone : next_lexeme t.in_buf = none)
    (h : text_writes g answer ds t = some t') :
    ∃ es, Heard t.in_buf ds es t'.in_buf ∧ t' = t.after g answer es t'.in_buf := by
  induction ds generalizing t with
  | nil =>
    cases h
    exact ⟨[], .nil, rfl⟩
  | cons d ds ih =>
    obtain ⟨s, hs, h⟩ := Option.bind_eq_some_iff.mp h
    obtain ⟨hu', hnone', es, heq, hes⟩ := heard_of_write_all hu hnone hs
    obtain ⟨es', hh, heq'⟩ := ih hu' hnone' h
    refine ⟨es ++ es', hes ds es' _ hh, ?_⟩
    rw [heq', heq]
    simp only [Talk.after, feed_append]

/-- And they come to an end if they do not fill the buffer. -/
lemma writes_of_heard (h : Heard u ds es v) (hu : u.map upper = u) (x : Session) (e : ℤ) :
    text_writes g answer ds ⟨u, x, e⟩ = some (Talk.after g answer ⟨u, x, e⟩ es v) ∧
      ∀ d ds', ds = d :: ds' → ∀ n, d.length ≤ n →
        ∃ s, text_write_all g answer n d ⟨u, x, e⟩ = some s ∧
          text_writes g answer ds' s = some (Talk.after g answer ⟨u, x, e⟩ es v) := by
  induction h generalizing x e with
  | nil => exact ⟨rfl, nofun⟩
  | @next u v ds es _ ih =>
    have hds := (ih hu x e).1
    refine ⟨hds, fun d ds' heq n _ => ?_⟩
    cases heq
    exact ⟨_, by cases n <;> rfl, hds⟩
  | @write u v w chunk rest ds ls es hne hlen hr _ ih =>
    have hup : v.map upper = v := by
      refine hr.upper ?_
      rw [List.map_append, hu, List.map_map]
      exact congrArg _ (List.map_congr_left fun b _ => upper_upper b)
    obtain ⟨r, hrun⟩ : ∃ r, r = feed g answer (ls.map .lexeme ++ if v = [] then [] else [.out])
      (x, e) := ⟨_, rfl⟩
    have hfirst (n : ℕ) (hn : (chunk ++ rest).length ≤ n) : ∃ s,
        text_write_all g answer n (chunk ++ rest) ⟨u, x, e⟩ = some s ∧
        text_writes g answer ds s = some (Talk.after g answer ⟨u, x, e⟩
          (ls.map .lexeme ++ ((if v = [] then [] else [.out]) ++ es)) w) := by
      have hpos := List.length_pos_iff.mpr hne
      obtain ⟨n, rfl⟩ : ∃ n', n = n' + 1 := ⟨n - 1, by
        rw [List.length_append] at hn
        omega⟩
      have hne' : chunk ++ rest ≠ [] := by simp [hne]
      have hw := @text_write_spec g answer _ _ ⟨u, x, e⟩ _ hu hne' _ _ rfl hlen hr
      obtain ⟨s, hs, hrest⟩ := (ih hup r.1 r.2).2 rest ds rfl n (by
        rw [List.length_append] at hn
        omega)
      refine ⟨s, ?_, ?_⟩
      · obtain ⟨c, l, hcl⟩ := List.exists_cons_of_ne_nil hne'
        rw [hcl, text_write_all, ← hcl, hw, ← hrun]
        simp only [Option.bind_eq_bind, Option.bind_some, List.drop_left]
        exact hs
      · rw [hrest]
        simp only [Talk.after, ← List.append_assoc, feed_append _ es, ← hrun]
    refine ⟨?_, fun d ds' heq n hn => ?_⟩
    · obtain ⟨s, hs, hrest⟩ := hfirst (chunk ++ rest).length le_rfl
      rw [text_writes, hs, Option.bind_eq_bind, Option.bind_some, hrest]
    · cases heq
      exact hfirst n hn

/-- The lexemes that are heard are those of the text. -/
lemma Heard.reads (h : Heard u ds es v) (hu : next_lexeme u = none) :
    Reads (u ++ ds.flatten.map upper) (lexemes es) v := by
  induction h with
  | nil =>
    rw [List.flatten_nil, List.map_nil, List.append_nil]
    exact .stop hu
  | next _ ih => exact ih hu
  | @write u v w chunk rest ds ls es _ _ hr _ ih =>
    have hlex : lexemes (if v = [] then [] else [Input.out]) = [] := by
      split <;> rfl
    rw [List.flatten_cons, List.append_assoc, List.map_append, ← List.append_assoc,
      lexemes_append, lexemes_append, lexemes_map, hlex, List.nil_append]
    exact hr.append (ih hr.unread)

end EspLinux.Ccd
