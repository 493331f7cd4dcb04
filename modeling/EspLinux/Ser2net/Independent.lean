import EspLinux.Ser2net.Options

/-!
# Sessions that share a table

All ports of `dataxfer.c` are given one table of options, which says what has been asked of the
client and not been answered yet.  It is not set back for a new session, so the first client that
answers uses up the mark for all that come after it: their answers are taken for requests, and are
answered in turn.  As long as no such answer comes in, a session sends what it would have sent if it
had been alone with a new table (`Ports.independent`).
-/

namespace EspLinux.Ser2net

open EspLinux.Lib

/-! ## The model -/

/-- What happens to one port. -/
inductive Own (σ : Type)
  | setup_net_port2 (port : σ)
  | byte (b : UInt8)
  | processed
  | handle_tcp_fd_write (n : ℕ)
  | got_timeout
  | device (port : σ)
  | shutdown_port

/-- A session, with what the network has taken of its commands and what has happened to it since it
was set up. -/
structure Session (σ : Type) where
  telnet : Telnet σ
  sent : List UInt8
  log : List (Own σ)

variable {σ ι : Type} (h : Handlers σ) (got_timeout : σ → σ × List (List UInt8))

namespace Session

/-- `telnet_init` in `setup_net_port2`. -/
def opened (port : σ) : Session σ :=
  { telnet := .init telnet_init_seq port, sent := [], log := [.setup_net_port2 port] }

/-- Note an event. -/
def after (e : Own σ) (telnet : Telnet σ) (t : Session σ) : Session σ :=
  { t with telnet := telnet, log := t.log ++ [e] }

end Session

/-- A step of a port with the table: `none` when it has no such step, or calls a null pointer. -/
def own_step (r : List (TelnetCmd σ) × Option (Session σ)) (e : Own σ) :
    Option (List (TelnetCmd σ) × Option (Session σ)) :=
  match r.2, e with
  | none, .setup_net_port2 port => some (r.1, some (.opened port))
  | some t, .byte b =>
    let r' := receive h.telnet_cmd_handler b r.1 t.telnet
    if r'.2.null then none else some (r'.1, some (t.after e r'.2))
  | some t, .processed =>
    -- a read is at its end: `shutdown_port` on an error
    some (r.1, if t.telnet.error then none else some (t.after e t.telnet))
  | some t, .handle_tcp_fd_write n =>
    if n ≤ t.telnet.out_telnet_cmd.length then
      some (r.1, some { t.after e { t.telnet with out_telnet_cmd := t.telnet.out_telnet_cmd.drop n }
        with sent := t.sent ++ t.telnet.out_telnet_cmd.take n })
    else none
  | some t, .got_timeout => some (r.1, some (t.after e (t.telnet.called (got_timeout t.telnet.port))))
  | some t, .device port => some (r.1, some (t.after e { t.telnet with port := port }))
  | some _, .shutdown_port => some (r.1, none)
  | _, _ => none

/-- The session is what its own events make of it with a new table. -/
def Session.Alone (t : Session σ) : Prop :=
  ∃ cmds, replay (own_step h got_timeout) (telnet_cmds h, none) t.log = some (cmds, some t)

/-- A `DO` or a `DONT` for this option. -/
def asks (cmd_str : List UInt8) (option : UInt8) : Prop :=
  (cmd_str.getD 1 0 = TN_DO ∨ cmd_str.getD 1 0 = TN_DONT) ∧ cmd_str.getD 2 0 = option

/-- The session has had a `DO` or a `DONT` for this option. -/
def Session.Asked (t : Session σ) (option : UInt8) : Prop :=
  ∃ cmd_str ∈ t.telnet.td.handled, asks cmd_str option

/-- The ports, with the table. -/
structure Ports (ι σ : Type) where
  cmds : List (TelnetCmd σ)
  sessions : ι → Option (Session σ)

namespace Ports

/-- No port has a session. -/
def start : Ports ι σ := { cmds := telnet_cmds h, sessions := fun _ => none }

/-- A step of one of the ports. -/
def step [DecidableEq ι] (s : Ports ι σ) (e : ι × Own σ) : Option (Ports ι σ) :=
  (own_step h got_timeout (s.cmds, s.sessions e.1) e.2).map fun r =>
    { cmds := r.1, sessions := Function.update s.sessions e.1 r.2 }

/-- The condition on a step: a byte that makes a `DO` or a `DONT` for an option of the table finds
the mark in the table, or the session has had one for the option before. -/
def Marked (s : Ports ι σ) (e : ι × Own σ) : Prop :=
  ∀ b t a k c, e.2 = .byte b → s.sessions e.1 = some t → t.telnet.td.telnet_cmd = [a, k] →
    (k = TN_DO ∨ k = TN_DONT) → find_cmd s.cmds b = some c → c.sent_will = true ∨ t.Asked b

end Ports

variable {h got_timeout} {cmds cmds' : List (TelnetCmd σ)} {t : Telnet σ} {cmd_str : List UInt8}
  {option b : UInt8} {f : TelnetCmd σ → TelnetCmd σ} {td : TelnetData}

/-! ## The table -/

/-- What a command does not change of an entry, when nothing has been asked of the client with
`DO`. -/
def TelnetCmd.rest (e : TelnetCmd σ) : TelnetCmd σ :=
  { e with sent_will := true, rem_will := false, rem_do := false }

/-- Entries that differ in their marks only. -/
lemma TelnetCmd.rest_eq {e e' : TelnetCmd σ} (hrest : e.rest = e'.rest) :
    e.option = e'.option ∧ e.i_will = e'.i_will ∧ e.i_do = e'.i_do ∧
      e.option_handler = e'.option_handler ∧ e.will_handler = e'.will_handler := by
  simp only [rest, TelnetCmd.mk.injEq] at hrest
  obtain ⟨hopt, hi_will, hi_do, -, -, -, -, hoption, hwill⟩ := hrest
  exact ⟨hopt, hi_will, hi_do, hoption, hwill⟩

/-- The table is the one at the start but for the marks. -/
def Based (h : Handlers σ) (cmds : List (TelnetCmd σ)) : Prop := cmds.map TelnetCmd.rest = telnet_cmds h

lemma based_telnet_cmds : Based h (telnet_cmds h) := rfl

lemma find_cmd_rest (o : UInt8) : find_cmd (cmds.map TelnetCmd.rest) o = (find_cmd cmds o).map TelnetCmd.rest := by
  rw [find_cmd, List.find?_map]
  rfl

lemma set_cmd_rest (hf : ∀ e, (f e).rest = e.rest) :
    (set_cmd option f cmds).map TelnetCmd.rest = cmds.map TelnetCmd.rest := by
  rw [set_cmd, List.map_map]
  refine List.map_congr_left fun e _ => ?_
  show TelnetCmd.rest (if e.option = option then f e else e) = e.rest
  split
  · exact hf e
  · rfl

/-- Nothing is asked with `DO`. -/
lemma Based.sent_do (hb : Based h cmds) {e : TelnetCmd σ} {o : UInt8}
    (he : find_cmd cmds o = some e) : e.sent_do = false := by
  have hrest : find_cmd (telnet_cmds h) o = some e.rest := by
    rw [← hb, find_cmd_rest, he]
    rfl
  have hmem : e.rest ∈ telnet_cmds h := List.mem_of_find?_eq_some hrest
  simp only [telnet_cmds, List.mem_cons, List.not_mem_nil, or_false] at hmem
  have hsent : e.sent_do = e.rest.sent_do := rfl
  rcases hmem with hmem | hmem | hmem | hmem <;> rw [hsent, hmem]

/-- Two tables have the same entries, but for the marks. -/
lemma Based.find_cmd_eq (hb : Based h cmds) (hb' : Based h cmds') (o : UInt8) :
    (find_cmd cmds o).map TelnetCmd.rest = (find_cmd cmds' o).map TelnetCmd.rest := by
  rw [← find_cmd_rest, ← find_cmd_rest, hb, hb']

lemma not_asks_of_ne (hdo : cmd_str.getD 1 0 ≠ TN_DO) (hdont : cmd_str.getD 1 0 ≠ TN_DONT)
    (o : UInt8) : ¬ asks cmd_str o := by
  rintro ⟨hk | hk, -⟩
  · exact hdo hk
  · exact hdont hk

/-- The mark of an option is gone after a `DO` or a `DONT` for it, and no other. -/
def Notes (cmd_str : List UInt8) (cmds cmds' : List (TelnetCmd σ)) : Prop :=
  ∀ o e', find_cmd cmds' o = some e' → ∃ e, find_cmd cmds o = some e ∧
    (e'.sent_will = true ↔ e.sent_will = true ∧ ¬ asks cmd_str o)

lemma Notes.self (hno : ∀ o, asks cmd_str o → find_cmd cmds o = none) : Notes cmd_str cmds cmds := by
  intro o e he
  refine ⟨e, he, fun hs => ⟨hs, fun ha => ?_⟩, And.left⟩
  rw [hno o ha] at he
  cases he

lemma Notes.set_cmd (hf : ∀ e, (f e).option = e.option)
    (hs : ∀ e, find_cmd cmds (cmd_str.getD 2 0) = some e →
      ((f e).sent_will = true ↔ e.sent_will = true ∧ ¬ asks cmd_str (cmd_str.getD 2 0))) :
    Notes cmd_str cmds (set_cmd (cmd_str.getD 2 0) f cmds) := by
  intro o e' he'
  rw [find_cmd_set_cmd hf] at he'
  obtain ⟨e, he, rfl⟩ := Option.map_eq_some_iff.mp he'
  refine ⟨e, he, ?_⟩
  have ho : e.option = o := find_cmd_option he
  split
  · rename_i heq
    rw [heq] at ho
    subst ho
    exact hs e he
  · rename_i hne
    refine ⟨fun h => ⟨h, fun ha => hne (ho.trans ha.2.symm)⟩, And.left⟩

/-- What a command does to the table. -/
lemma Based.handle_telnet_cmd (hb : Based h cmds) (cmd_handler : σ → UInt8 → σ)
    (cmd_str : List UInt8) (t : Telnet σ) :
    Based h (handle_telnet_cmd cmd_handler cmd_str cmds t).1 ∧
      Notes cmd_str cmds (handle_telnet_cmd cmd_handler cmd_str cmds t).1 := by
  have hset (f : TelnetCmd σ → TelnetCmd σ) (hf : ∀ e, (f e).rest = e.rest)
      (hs : ∀ e, find_cmd cmds (cmd_str.getD 2 0) = some e →
        ((f e).sent_will = true ↔ e.sent_will = true ∧ ¬ asks cmd_str (cmd_str.getD 2 0))) :
      Based h (set_cmd (cmd_str.getD 2 0) f cmds) ∧
        Notes cmd_str cmds (set_cmd (cmd_str.getD 2 0) f cmds) :=
    ⟨(set_cmd_rest hf).trans hb, .set_cmd (fun e => (TelnetCmd.rest_eq (hf e)).1) hs⟩
  have hself (hno : ∀ o, ¬ asks cmd_str o) : Based h cmds ∧ Notes cmd_str cmds cmds :=
    ⟨hb, .self fun o ha => absurd ha (hno o)⟩
  have hnone (hfind : find_cmd cmds (cmd_str.getD 2 0) = none) :
      Based h cmds ∧ Notes cmd_str cmds cmds :=
    ⟨hb, .self fun o ha => ha.2 ▸ hfind⟩
  simp only [EspLinux.Ser2net.handle_telnet_cmd]
  by_cases hlen : cmd_str.length < 2
  · rw [if_pos hlen]
    have hzero : cmd_str.getD 1 0 = 0 := by
      rw [List.getD_eq_getElem?_getD, List.getElem?_eq_none (by omega)]
      rfl
    exact hself (not_asks_of_ne (by rw [hzero]; decide) (by rw [hzero]; decide))
  rw [if_neg hlen]
  by_cases hone : (cmd_str.getD 1 0).toNat < 250
  · rw [if_pos hone]
    exact hself (not_asks_of_ne (fun hk => by rw [hk] at hone; exact absurd hone (by decide))
      fun hk => by rw [hk] at hone; exact absurd hone (by decide))
  rw [if_neg hone]
  by_cases hsb : cmd_str.getD 1 0 = TN_SB
  · rw [if_pos hsb]
    have := hself (not_asks_of_ne (by rw [hsb]; decide) (by rw [hsb]; decide))
    split
    · exact this
    · split <;> exact this
  rw [if_neg hsb]
  by_cases hwill : cmd_str.getD 1 0 = TN_WILL
  · rw [if_pos hwill]
    have hno := not_asks_of_ne (by rw [hwill]; decide) (by rw [hwill]; decide)
    split
    · exact hself hno
    · rename_i e he
      rw [if_neg (by rw [hb.sent_do he]; decide)]
      exact hset _ (fun _ => rfl) fun _ _ => ⟨fun hs => ⟨hs, hno _⟩, And.left⟩
  rw [if_neg hwill]
  by_cases hwont : cmd_str.getD 1 0 = TN_WONT
  · rw [if_pos hwont]
    have hno := not_asks_of_ne (by rw [hwont]; decide) (by rw [hwont]; decide)
    split
    · exact hself hno
    · rename_i e he
      rw [if_neg (by rw [hb.sent_do he]; decide)]
      exact hset _ (fun _ => rfl) fun _ _ => ⟨fun hs => ⟨hs, hno _⟩, And.left⟩
  rw [if_neg hwont]
  by_cases hdo : cmd_str.getD 1 0 = TN_DO
  · rw [if_pos hdo]
    split
    · rename_i hfind
      exact hnone hfind
    · rename_i e he
      split
      · exact hset _ (fun _ => rfl) fun _ _ =>
          ⟨fun hs => (by cases hs), fun hs => absurd ⟨.inl hdo, rfl⟩ hs.2⟩
      · rename_i hsent
        refine hset _ (fun _ => rfl) fun e' he' => ⟨fun hs => ?_, fun hs => absurd ⟨.inl hdo, rfl⟩ hs.2⟩
        cases he.symm.trans he'
        exact absurd hs hsent
  rw [if_neg hdo]
  by_cases hdont : cmd_str.getD 1 0 = TN_DONT
  · rw [if_pos hdont]
    split
    · rename_i hfind
      exact hnone hfind
    · rename_i e he
      split
      · exact hset _ (fun _ => rfl) fun _ _ =>
          ⟨fun hs => (by cases hs), fun hs => absurd ⟨.inr hdont, rfl⟩ hs.2⟩
      · rename_i hsent
        refine hset _ (fun _ => rfl) fun e' he' => ⟨fun hs => ?_, fun hs => absurd ⟨.inr hdont, rfl⟩ hs.2⟩
        cases he.symm.trans he'
        exact absurd hs hsent
  rw [if_neg hdont]
  exact hself (not_asks_of_ne hdo hdont)

/-- With the same mark for its option, a command is answered in the same way. -/
lemma Based.answer (hb : Based h cmds) (hb' : Based h cmds') (cmd_handler : σ → UInt8 → σ)
    (hmark : ∀ e e', asks cmd_str (cmd_str.getD 2 0) → find_cmd cmds (cmd_str.getD 2 0) = some e →
      find_cmd cmds' (cmd_str.getD 2 0) = some e' → e.sent_will = e'.sent_will) (t : Telnet σ) :
    (EspLinux.Ser2net.handle_telnet_cmd cmd_handler cmd_str cmds t).2 =
      (EspLinux.Ser2net.handle_telnet_cmd cmd_handler cmd_str cmds' t).2 := by
  have hfind := hb.find_cmd_eq hb' (cmd_str.getD 2 0)
  simp only [EspLinux.Ser2net.handle_telnet_cmd]
  rcases he : find_cmd cmds (cmd_str.getD 2 0) with _ | e
  · have he' : find_cmd cmds' (cmd_str.getD 2 0) = none := by
      rw [he] at hfind
      exact Option.map_eq_none_iff.mp hfind.symm
    simp only [he', apply_ite Prod.snd]
  · obtain ⟨e', he', hrest⟩ : ∃ e', find_cmd cmds' (cmd_str.getD 2 0) = some e' ∧ e'.rest = e.rest := by
      rw [he] at hfind
      exact Option.map_eq_some_iff.mp hfind.symm
    obtain ⟨-, hi_will, hi_do, hoption, hwill⟩ := TelnetCmd.rest_eq hrest
    have hanswer (o : UInt8) (t : Telnet σ) : t.answer_will o e' = t.answer_will o e := by
      rw [Telnet.answer_will, Telnet.answer_will, hi_will, hwill]
    have hmark' : asks cmd_str (cmd_str.getD 2 0) → e.sent_will = e'.sent_will :=
      fun ha => hmark e e' ha he he'
    simp only [he', hoption, hi_do, hanswer, hb.sent_do he, hb'.sent_do he', apply_ite Prod.snd]
    by_cases hdo : cmd_str.getD 1 0 = TN_DO
    · rw [hmark' ⟨.inl hdo, rfl⟩]
      cases e.option_handler <;> rfl
    by_cases hdont : cmd_str.getD 1 0 = TN_DONT
    · rw [hmark' ⟨.inr hdont, rfl⟩]
      cases e.option_handler <;> rfl
    simp only [if_neg hdo, if_neg hdont]
    cases e.option_handler <;> rfl

/-- A `DO` or a `DONT` for an option of the table is answered if there is no mark. -/
lemma handle_asks {e : TelnetCmd σ} {k : UInt8} (hk : k = TN_DO ∨ k = TN_DONT)
    (he : find_cmd cmds b = some e) (cmd_handler : σ → UInt8 → σ) (a : UInt8) (t : Telnet σ) :
    ∃ type, (handle_telnet_cmd cmd_handler [a, k, b] cmds t).2 =
      if e.sent_will then t else t.send_i type b := by
  rcases hk with rfl | rfl
  · refine ⟨if e.i_do then TN_WILL else TN_WONT, ?_⟩
    have hfind : find_cmd cmds ([a, TN_DO, b].getD 2 0) = some e := he
    simp only [EspLinux.Ser2net.handle_telnet_cmd, hfind]
    show (if e.sent_will = true then (_, t) else (_, _)).2 = _
    exact apply_ite Prod.snd _ _ _
  · refine ⟨TN_WONT, ?_⟩
    have hfind : find_cmd cmds ([a, TN_DONT, b].getD 2 0) = some e := he
    simp only [EspLinux.Ser2net.handle_telnet_cmd, hfind]
    show (if e.sent_will = true then (_, t) else (_, _)).2 = _
    exact apply_ite Prod.snd _ _ _

/-- An answer shows: it is in the buffer, or the session has an error. -/
lemma send_i_ne (herror : t.error = false) (type option : UInt8) : t.send_i type option ≠ t := by
  intro heq
  rw [Telnet.send_i, Telnet.telnet_cmd_send] at heq
  split at heq
  · have := congrArg Telnet.error heq
    rw [herror] at this
    cases this
  · have := congrArg (List.length ∘ Telnet.out_telnet_cmd) heq
    simp at this

lemma handle_telnet_cmd_td (cmd_handler : σ → UInt8 → σ) (cmd_str : List UInt8)
    (cmds : List (TelnetCmd σ)) (t : Telnet σ) :
    (handle_telnet_cmd cmd_handler cmd_str cmds t).2.td = t.td := by
  rcases handle_telnet_cmd_cases cmd_str cmds t with
    ⟨-, hnull⟩ | ⟨-, hsends, -⟩
  · rw [hnull]
  · exact hsends.1

/-! ## The decoder -/

namespace TelnetData

/-- A `DO` or a `DONT` that a byte completes is for this byte. -/
lemma byte_asks (hsub : td.Sub) (b : UInt8) :
    (td.byte b).1.handled = td.handled ∨
      ∃ cmd_str, (td.byte b).1.handled = td.handled ++ [cmd_str] ∧
        ∀ o, asks cmd_str o →
          o = b ∧ ∃ a k, td.telnet_cmd = [a, k] ∧ (k = TN_DO ∨ k = TN_DONT) := by
  obtain ⟨telnet_cmd, suboption_iac, handled⟩ := td
  match telnet_cmd, hsub with
  | [], _ =>
    simp only [byte]
    split <;> exact .inl rfl
  | [a], _ =>
    simp only [byte]
    split
    · exact .inl rfl
    split
    · rename_i hlt
      refine .inr ⟨[a, b], rfl, fun o ho => ?_⟩
      rcases ho.1 with (rfl : b = TN_DO) | (rfl : b = TN_DONT)
      · exact absurd hlt (by decide)
      · exact absurd hlt (by decide)
    · exact .inl rfl
  | [a, c], _ =>
    simp only [byte]
    split
    · exact .inr ⟨[a, c, b], rfl, fun o ho => ⟨ho.2.symm, a, c, rfl, ho.1⟩⟩
    · exact .inl rfl
  | a :: c :: o :: l, hsub =>
    have hc : c = TN_SB := hsub.sub (by simp)
    simp only [byte]
    split
    · rename_i hiac
      split
      · refine .inr ⟨(a :: c :: o :: l).dropLast, rfl, fun o' ho => ?_⟩
        have hlen := hsub.iac hiac
        obtain ⟨y, l, rfl⟩ : ∃ y l', l = y :: l' := by
          cases l with
          | nil => simp at hlen
          | cons y l => exact ⟨y, l, rfl⟩
        rcases ho.1 with (hk : c = TN_DO) | (hk : c = TN_DONT)
        · exact absurd (hc.symm.trans hk) (by decide)
        · exact absurd (hc.symm.trans hk) (by decide)
      · split <;> exact .inl rfl
    · split <;> exact .inl rfl

lemma byte_do {a k : UInt8} (htd : td.telnet_cmd = [a, k]) (hk : k = TN_DO ∨ k = TN_DONT) (b : UInt8) :
    (td.byte b).1.handled = td.handled ++ [[a, k, b]] := by
  rw [byte, htd]
  have hne : k ≠ 250 := by
    rcases hk with rfl | rfl <;> decide
  simp only [if_pos hne, handle, store, htd]
  rfl

end TelnetData

/-! ## One session -/

variable {u u' : Session σ} {e : Own σ}

/-- A session that is what it would be alone, while the marks in the table are those of all
sessions. -/
structure Tracks (h : Handlers σ) (got_timeout : σ → σ × List (List UInt8))
    (cmds : List (TelnetCmd σ)) (u : Session σ) : Prop where
  alone : ∃ cmds', replay (own_step h got_timeout) (telnet_cmds h, none) u.log = some (cmds', some u) ∧
    Based h cmds' ∧
      ∀ o e, find_cmd cmds' o = some e → (e.sent_will = true ↔ ¬ u.Asked o)
  sub : u.telnet.td.Sub
  asked : ∀ o e, find_cmd cmds o = some e → e.sent_will = true → ¬ u.Asked o

/-- No mark comes back. -/
def Later (cmds cmds' : List (TelnetCmd σ)) : Prop :=
  ∀ o e', find_cmd cmds' o = some e' → e'.sent_will = true →
    ∃ e, find_cmd cmds o = some e ∧ e.sent_will = true

lemma Later.refl (cmds : List (TelnetCmd σ)) : Later cmds cmds := fun _ e he hs => ⟨e, he, hs⟩

lemma Notes.later (hn : Notes cmd_str cmds cmds') : Later cmds cmds' := by
  intro o e' he' hs
  obtain ⟨e, he, hiff⟩ := hn o e' he'
  exact ⟨e, he, (hiff.mp hs).1⟩

lemma Tracks.later (ht : Tracks h got_timeout cmds u) (hl : Later cmds cmds') :
    Tracks h got_timeout cmds' u := by
  refine ⟨ht.alone, ht.sub, fun o e' he' hs => ?_⟩
  obtain ⟨e, he, hs⟩ := hl o e' he' hs
  exact ht.asked o e he hs

lemma tracks_opened (port : σ) : Tracks h got_timeout cmds (.opened port) := by
  have hno (o : UInt8) : ¬ (Session.opened port).Asked o := by
    rintro ⟨cmd_str, hmem, -⟩
    cases hmem
  refine ⟨⟨telnet_cmds h, rfl, based_telnet_cmds, fun o e he => ⟨fun _ => hno o, fun _ => ?_⟩⟩,
    .init, fun o _ _ _ => hno o⟩
  have hmem : e ∈ telnet_cmds h := List.mem_of_find?_eq_some he
  simp only [telnet_cmds, List.mem_cons, List.not_mem_nil, or_false] at hmem
  rcases hmem with hmem | hmem | hmem | hmem <;> rw [hmem]

/-- An event that leaves the table and the decoder alone. -/
lemma Tracks.quiet (ht : Tracks h got_timeout cmds u) (htd : u'.telnet.td = u.telnet.td)
    (hlog : u'.log = u.log ++ [e])
    (hstep : ∀ cmds, own_step h got_timeout (cmds, some u) e = some (cmds, some u')) :
    Tracks h got_timeout cmds u' := by
  have hasked (o : UInt8) : u'.Asked o ↔ u.Asked o := by
    rw [Session.Asked, Session.Asked, htd]
  obtain ⟨cmds', hr, hb, hmarks⟩ := ht.alone
  refine ⟨⟨cmds', ?_, hb, fun o e he => ?_⟩, ?_, fun o e he hs => ?_⟩
  · rw [hlog, replay_concat hr, hstep]
  · rw [hasked]
    exact hmarks o e he
  · rw [htd]
    exact ht.sub
  · rw [hasked]
    exact ht.asked o e he hs

/-- A byte that completes no command. -/
lemma receive_none {cmd_handler : σ → UInt8 → σ} (hsame : (t.td.byte b).1.handled = t.td.handled) :
    receive cmd_handler b cmds t = (cmds, { t with td := (t.td.byte b).1 }) := by
  rw [receive, hsame, List.drop_length]

/-- A byte that completes a command. -/
lemma receive_some {cmd_handler : σ → UInt8 → σ}
    (hcmd : (t.td.byte b).1.handled = t.td.handled ++ [cmd_str]) :
    receive cmd_handler b cmds t =
      handle_telnet_cmd cmd_handler cmd_str cmds { t with td := (t.td.byte b).1 } := by
  rw [receive, hcmd, List.drop_left]

lemma own_step_byte_eq (cmds : List (TelnetCmd σ)) (u : Session σ) (b : UInt8) :
    own_step h got_timeout (cmds, some u) (.byte b) =
      if (receive h.telnet_cmd_handler b cmds u.telnet).2.null then none
      else some ((receive h.telnet_cmd_handler b cmds u.telnet).1,
        some (u.after (.byte b) (receive h.telnet_cmd_handler b cmds u.telnet).2)) := rfl

lemma own_step_byte {o : Option (Session σ)}
    (hs : own_step h got_timeout (cmds, some u) (.byte b) = some (cmds', o)) :
    (receive h.telnet_cmd_handler b cmds u.telnet).2.null = false ∧
      cmds' = (receive h.telnet_cmd_handler b cmds u.telnet).1 ∧
      o = some (u.after (.byte b) (receive h.telnet_cmd_handler b cmds u.telnet).2) := by
  rw [own_step_byte_eq] at hs
  split at hs
  · cases hs
  · rename_i hnull
    cases hs
    exact ⟨by simpa using hnull, rfl, rfl⟩

/-- The mark for the byte in the table is the one that the session would find alone, if it is the
byte of a `DO` or a `DONT`. -/
def MarkedFor (cmds : List (TelnetCmd σ)) (u : Session σ) (b : UInt8) : Prop :=
  ∀ a k c, u.telnet.td.telnet_cmd = [a, k] → (k = TN_DO ∨ k = TN_DONT) →
    find_cmd cmds b = some c → c.sent_will = true ∨ u.Asked b

/-- A byte is answered as it would be alone. -/
lemma Tracks.byte {o : Option (Session σ)} (ht : Tracks h got_timeout cmds u) (hb : Based h cmds)
    (hm : MarkedFor cmds u b)
    (hs : own_step h got_timeout (cmds, some u) (.byte b) = some (cmds', o)) :
    Based h cmds' ∧ Later cmds cmds' ∧ ∃ u', o = some u' ∧ Tracks h got_timeout cmds' u' := by
  obtain ⟨hnull, rfl, rfl⟩ := own_step_byte hs
  obtain ⟨alone, hr, hba, hmarks⟩ := ht.alone
  have hsub := (TelnetData.byte_cases ht.sub b).1
  rcases TelnetData.byte_asks ht.sub b with hsame | ⟨cmd_str, hcmd, hasks⟩
  · have hasked (o : UInt8) :
        (u.after (.byte b) { u.telnet with td := (u.telnet.td.byte b).1 }).Asked o ↔ u.Asked o := by
      rw [Session.Asked, Session.Asked, Session.after, hsame]
    rw [receive_none hsame] at hnull ⊢
    refine ⟨hb, .refl _, _, rfl, ⟨alone, ?_, hba, fun o e he => ?_⟩, hsub, fun o e he hsent => ?_⟩
    · rw [Session.after, replay_concat hr, own_step_byte_eq, receive_none hsame]
      exact if_neg (by rw [hnull]; decide)
    · rw [hasked]
      exact hmarks o e he
    · rw [hasked]
      exact ht.asked o e he hsent
  · rw [receive_some hcmd] at hnull ⊢
    obtain ⟨hb', hnotes⟩ := hb.handle_telnet_cmd h.telnet_cmd_handler cmd_str
      { u.telnet with td := (u.telnet.td.byte b).1 }
    obtain ⟨hba', hnotesa⟩ := hba.handle_telnet_cmd h.telnet_cmd_handler cmd_str
      { u.telnet with td := (u.telnet.td.byte b).1 }
    have hanswer := hb.answer hba h.telnet_cmd_handler (fun e e' ha he he' => by
      obtain ⟨hob, a, k, htd, hk⟩ := hasks _ ha
      rw [hob] at he he'
      have hiff := hmarks b e' he'
      rcases hm a k e htd hk he with hsent | hasked
      · rw [hsent, hiff.mpr (ht.asked b e he hsent)]
      · have hsent : e.sent_will ≠ true := fun hsent => ht.asked b e he hsent hasked
        have hsent' : e'.sent_will ≠ true := fun hsent' => hiff.mp hsent' hasked
        rw [Bool.eq_false_iff.mpr hsent, Bool.eq_false_iff.mpr hsent'])
      { u.telnet with td := (u.telnet.td.byte b).1 }
    have hasked (o : UInt8) :
        (u.after (.byte b) (handle_telnet_cmd h.telnet_cmd_handler cmd_str cmds
          { u.telnet with td := (u.telnet.td.byte b).1 }).2).Asked o ↔ u.Asked o ∨ asks cmd_str o := by
      rw [Session.Asked, Session.after, handle_telnet_cmd_td, hcmd]
      simp only [List.mem_append, List.mem_singleton, or_and_right, exists_or, exists_eq_left,
        Session.Asked]
    refine ⟨hb', hnotes.later, _, rfl, ⟨_, ?_, hba', fun o e' he' => ?_⟩, ?_, fun o e' he' hsent => ?_⟩
    · rw [Session.after, replay_concat hr, own_step_byte_eq, receive_some hcmd, ← hanswer]
      exact if_neg (by rw [hnull]; decide)
    · obtain ⟨e, he, hiff⟩ := hnotesa o e' he'
      rw [hasked, hiff, hmarks o e he, not_or]
    · rw [Session.after, handle_telnet_cmd_td]
      exact hsub
    · obtain ⟨e, he, hiff⟩ := hnotes o e' he'
      rw [hasked]
      rintro (hu | ha)
      · exact ht.asked o e he (hiff.mp hsent).1 hu
      · exact (hiff.mp hsent).2 ha

/-- Without the mark, a byte is answered that would not be answered alone. -/
lemma Tracks.not_alone (ht : Tracks h got_timeout cmds u) (hb : Based h cmds)
    (herror : u.telnet.error = false) (hm : ¬ MarkedFor cmds u b)
    (hs : own_step h got_timeout (cmds, some u) (.byte b) = some (cmds', some u')) :
    ¬ u'.Alone h got_timeout := by
  rintro ⟨last, hlast⟩
  simp only [MarkedFor, not_forall, not_or, exists_prop] at hm
  obtain ⟨a, k, c, htd, hk, hc, hsent, hasked⟩ := hm
  obtain ⟨alone, hr, hba, hmarks⟩ := ht.alone
  obtain ⟨-, -, hu'⟩ := own_step_byte hs
  have hcmd := TelnetData.byte_do htd hk b
  obtain ⟨c', hc', -⟩ : ∃ c', find_cmd alone b = some c' ∧ c'.rest = c.rest := by
    have hfind := hb.find_cmd_eq hba b
    rw [hc] at hfind
    exact Option.map_eq_some_iff.mp hfind.symm
  obtain ⟨type, hanswer⟩ := handle_asks hk hc h.telnet_cmd_handler a
    { u.telnet with td := (u.telnet.td.byte b).1 }
  obtain ⟨type', hnone⟩ := handle_asks hk hc' h.telnet_cmd_handler a
    { u.telnet with td := (u.telnet.td.byte b).1 }
  rw [if_neg hsent] at hanswer
  rw [if_pos ((hmarks b c' hc').mpr hasked)] at hnone
  rw [receive_some hcmd, hanswer] at hu'
  cases hu'
  rw [Session.after, replay_concat hr] at hlast
  obtain ⟨-, -, hsame⟩ := own_step_byte hlast
  rw [receive_some hcmd, hnone] at hsame
  have htelnet := congrArg Session.telnet (Option.some.inj hsame)
  exact send_i_ne (t := { u.telnet with td := (u.telnet.td.byte b).1 }) herror type b htelnet

/-- A step of a port. -/
lemma own_step_tracks {o o' : Option (Session σ)} (hb : Based h cmds)
    (ht : ∀ u, o = some u → Tracks h got_timeout cmds u)
    (hm : ∀ u b, o = some u → e = .byte b → MarkedFor cmds u b)
    (hs : own_step h got_timeout (cmds, o) e = some (cmds', o')) :
    Based h cmds' ∧ Later cmds cmds' ∧ ∀ u', o' = some u' → Tracks h got_timeout cmds' u' := by
  rcases o with _ | u
  · cases e with
    | setup_net_port2 port =>
      cases hs
      exact ⟨hb, .refl _, fun u' hu' => Option.some.inj hu' ▸ tracks_opened port⟩
    | byte b => cases hs
    | processed => cases hs
    | handle_tcp_fd_write n => cases hs
    | got_timeout => cases hs
    | device port => cases hs
    | shutdown_port => cases hs
  have ht := ht u rfl
  cases e with
  | setup_net_port2 port => cases hs
  | byte b =>
    obtain ⟨hb', hl, u', rfl, ht'⟩ := ht.byte hb (hm u b rfl rfl) hs
    exact ⟨hb', hl, fun u'' hu'' => Option.some.inj hu'' ▸ ht'⟩
  | processed =>
    cases hs
    refine ⟨hb, .refl _, fun u' hu' => ?_⟩
    split at hu'
    · cases hu'
    · rename_i hok
      cases hu'
      exact ht.quiet rfl rfl fun cmds => congrArg (fun o => some (cmds, o)) (if_neg hok)
  | handle_tcp_fd_write n =>
    simp only [own_step] at hs
    split at hs
    · rename_i hn
      cases hs
      refine ⟨hb, .refl _, fun u' hu' => ?_⟩
      cases hu'
      exact ht.quiet rfl rfl fun cmds => if_pos hn
    · cases hs
  | got_timeout =>
    cases hs
    refine ⟨hb, .refl _, fun u' hu' => ?_⟩
    cases hu'
    exact ht.quiet (Telnet.called_sends _ _).1 rfl fun _ => rfl
  | device port =>
    cases hs
    refine ⟨hb, .refl _, fun u' hu' => ?_⟩
    cases hu'
    exact ht.quiet rfl rfl fun _ => rfl
  | shutdown_port =>
    cases hs
    exact ⟨hb, .refl _, nofun⟩

/-! ## All ports -/

namespace Ports

variable {s s' : Ports ι σ}

/-- Every session is what it would be alone. -/
structure Sound (h : Handlers σ) (got_timeout : σ → σ × List (List UInt8)) (s : Ports ι σ) : Prop where
  based : Based h s.cmds
  tracks : ∀ i u, s.sessions i = some u → Tracks h got_timeout s.cmds u

lemma sound_start : Sound h got_timeout (start h : Ports ι σ) := ⟨based_telnet_cmds, nofun⟩

variable [DecidableEq ι]

lemma step_cases {i : ι} (hs : s.step h got_timeout (i, e) = some s') :
    own_step h got_timeout (s.cmds, s.sessions i) e = some (s'.cmds, s'.sessions i) ∧
      ∀ j, j ≠ i → s'.sessions j = s.sessions j := by
  obtain ⟨r, hr, rfl⟩ := Option.map_eq_some_iff.mp hs
  constructor
  · show _ = some (r.1, Function.update s.sessions i r.2 i)
    rw [Function.update_self]
    exact hr
  · intro j hj
    exact Function.update_of_ne hj _ _

lemma Sound.step {i : ι} (hsound : Sound h got_timeout s) (hm : Marked s (i, e))
    (hs : s.step h got_timeout (i, e) = some s') : Sound h got_timeout s' := by
  obtain ⟨hown, hothers⟩ := step_cases hs
  obtain ⟨hb', hl, ht'⟩ := own_step_tracks hsound.based (hsound.tracks i)
    (fun u b hu he a k c => hm b u a k c he hu) hown
  refine ⟨hb', fun j u hj => ?_⟩
  by_cases hij : j = i
  · subst hij
    exact ht' u hj
  · rw [hothers j hij] at hj
    exact (hsound.tracks j u hj).later hl

/-- However the sessions of the ports follow each other and interleave, each is what its own events
would make of it alone with a new table, as long as every `DO` and `DONT` for an option of the table
finds the mark or is not the first of its session; one that does not is answered where it would not
be alone. -/
theorem independent (hs : Reach (step h got_timeout) Marked (start h) s) :
    (∀ i u, s.sessions i = some u → u.Alone h got_timeout) ∧
      ∀ i e u u' s', s.sessions i = some u → u.telnet.error = false →
        s.step h got_timeout (i, e) = some s' → s'.sessions i = some u' →
        (u'.Alone h got_timeout ↔ Marked s (i, e)) := by
  have hsound : Sound h got_timeout s :=
    hs.induction_on sound_start fun _ _ _ hsound hm hstep => hsound.step hm hstep
  have halone {s : Ports ι σ} (hsound : Sound h got_timeout s) (i : ι) (u : Session σ)
      (hu : s.sessions i = some u) : u.Alone h got_timeout := by
    obtain ⟨cmds, hr, -⟩ := (hsound.tracks i u hu).alone
    exact ⟨cmds, hr⟩
  refine ⟨halone hsound, fun i e u u' s' hu herror hstep hu' => ⟨fun ha => ?_, fun hm => ?_⟩⟩
  · rintro b u₀ a k c rfl hu₀ htd hk hc
    cases hu₀.symm.trans hu
    by_contra hno
    obtain ⟨hown, -⟩ := step_cases hstep
    rw [hu, hu'] at hown
    exact (hsound.tracks i u hu).not_alone hsound.based herror
      (fun hm => hno (hm a k c htd hk hc)) hown ha
  · exact halone (hsound.step hm hstep) i u' hu'

/-- The modem lines of the port do not change. -/
def no_timeout : Unit → Unit × List (List UInt8) := fun p => (p, [])

/-- A check that is enough for the condition. -/
def mark_check (s : Ports ι σ) : ι × Own σ → Bool
  | (_, .byte b) => (find_cmd s.cmds b).all TelnetCmd.sent_will
  | _ => true

omit [DecidableEq ι] in
lemma marked_of_mark_check (s : Ports ι σ) (e : ι × Own σ) (hc : mark_check s e = true) :
    Marked s e := by
  rintro b u a k c heq - - - hfind
  obtain ⟨i, e⟩ := e
  cases heq
  simp only [mark_check, hfind, Option.all_some] at hc
  exact .inl hc

/-- Two clients that answer different options. -/
def two_options : List (ℕ × Own Unit) :=
  [(0, .setup_net_port2 ()), (1, .setup_net_port2 ()),
    (0, .byte TN_IAC), (0, .byte TN_DO), (0, .byte TN_OPT_BINARY_TRANSMISSION),
    (1, .byte TN_IAC), (1, .byte TN_DO), (1, .byte TN_OPT_ECHO)]

/-- The second of them is sent nothing but the init sequence, as if it were alone. -/
theorem independent_two_options :
    ∃ s u, replay (step Server.no_2217 no_timeout) (start Server.no_2217) two_options = some s ∧
      s.sessions 1 = some u ∧ u.telnet.out_telnet_cmd = telnet_init_seq ∧
      u.Alone Server.no_2217 no_timeout := by
  have hchecked : replay (fun s e => if mark_check s e then step Server.no_2217 no_timeout s e else none)
    (start Server.no_2217) two_options = some _ := rfl
  exact ⟨_, _, rfl, rfl, rfl,
    (independent (.of_checked marked_of_mark_check .init hchecked)).1 1 _ rfl⟩

/-- Two clients that answer the same option: what is sent to the second depends on the first. -/
theorem second_client_answered :
    ∃ s s' u u', replay (step Server.no_2217 no_timeout) (start Server.no_2217 : Ports ℕ Unit)
        [(0, .setup_net_port2 ()),
          (0, .byte TN_IAC), (0, .byte TN_DO), (0, .byte TN_OPT_BINARY_TRANSMISSION),
          (1, .setup_net_port2 ()),
          (1, .byte TN_IAC), (1, .byte TN_DO), (1, .byte TN_OPT_BINARY_TRANSMISSION)] = some s ∧
      replay (step Server.no_2217 no_timeout) (start Server.no_2217 : Ports ℕ Unit)
        [(1, .setup_net_port2 ()),
          (1, .byte TN_IAC), (1, .byte TN_DO), (1, .byte TN_OPT_BINARY_TRANSMISSION)] = some s' ∧
      s.sessions 1 = some u ∧ s'.sessions 1 = some u' ∧ u.log = u'.log ∧
      u.telnet.out_telnet_cmd =
        telnet_init_seq ++ [TN_IAC, TN_WILL, TN_OPT_BINARY_TRANSMISSION] ∧
      u'.telnet.out_telnet_cmd = telnet_init_seq :=
  ⟨_, _, _, _, rfl, rfl, rfl, rfl, rfl, rfl, rfl⟩

end Ports

end EspLinux.Ser2net
