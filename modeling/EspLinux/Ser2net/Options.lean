import EspLinux.Lib.Run
import EspLinux.Ser2net.Telnet

/-!
# Option negotiation

`handle_telnet_cmd` looks up the option of a command in a table, answers it, and notes in the table
what it has answered.  For a sub-option it calls the option handler of the entry, which only the
entry for `COM_PORT` has: a sub-option of another entry calls a null pointer, on the ports and on
the control port alike (`no_null_handler`).
-/

namespace EspLinux.Ser2net

open EspLinux.Lib

/-! ## The table -/

/-- `TN_WILL` -/
def TN_WILL : UInt8 := 251

/-- `TN_WONT` -/
def TN_WONT : UInt8 := 252

/-- `TN_DO` -/
def TN_DO : UInt8 := 253

/-- `TN_DONT` -/
def TN_DONT : UInt8 := 254

/-- The start of a sub-option. -/
def TN_SB : UInt8 := 250

/-- The end of a sub-option, behind an IAC. -/
def TN_SE : UInt8 := 240

/-- `TN_OPT_BINARY_TRANSMISSION` -/
def TN_OPT_BINARY_TRANSMISSION : UInt8 := 0

/-- `TN_OPT_ECHO` -/
def TN_OPT_ECHO : UInt8 := 1

/-- `TN_OPT_SUPPRESS_GO_AHEAD` -/
def TN_OPT_SUPPRESS_GO_AHEAD : UInt8 := 3

/-- `TN_OPT_COM_PORT` -/
def TN_OPT_COM_PORT : UInt8 := 44

/-- `MAX_TELNET_CMD_XMIT_BUF` -/
def MAX_TELNET_CMD_XMIT_BUF : ℕ := 256

/-- `struct telnet_cmd`.  The handlers work on the record of the port, a `σ`, and hand options to
`telnet_send_option`; `none` is a null pointer. -/
structure TelnetCmd (σ : Type) where
  option : UInt8
  i_will : Bool
  i_do : Bool
  sent_will : Bool
  sent_do : Bool
  rem_will : Bool := false
  rem_do : Bool := false
  option_handler : Option (σ → List UInt8 → σ × List (List UInt8)) := none
  will_handler : Option (σ → σ × List (List UInt8) × Bool) := none

/-- What a port does about breaks and about `COM_PORT`. -/
structure Handlers (σ : Type) where
  telnet_cmd_handler : σ → UInt8 → σ
  com_port_handler : σ → List UInt8 → σ × List (List UInt8)
  com_port_will : σ → σ × List (List UInt8) × Bool

variable {σ : Type}

/-- `telnet_cmds` of `dataxfer.c` -/
def telnet_cmds (h : Handlers σ) : List (TelnetCmd σ) :=
  [{ option := TN_OPT_BINARY_TRANSMISSION, i_will := true, i_do := true, sent_will := true,
      sent_do := false },
    { option := TN_OPT_ECHO, i_will := true, i_do := true, sent_will := true, sent_do := false },
    { option := TN_OPT_SUPPRESS_GO_AHEAD, i_will := true, i_do := true, sent_will := true,
      sent_do := false },
    { option := TN_OPT_COM_PORT, i_will := true, i_do := true, sent_will := true, sent_do := false,
      option_handler := some h.com_port_handler, will_handler := some h.com_port_will }]

/-- `telnet_cmds` of `controller.c` -/
def controller_cmds : List (TelnetCmd σ) :=
  [{ option := TN_OPT_SUPPRESS_GO_AHEAD, i_will := false, i_do := true, sent_will := true,
      sent_do := false },
    { option := TN_OPT_ECHO, i_will := false, i_do := true, sent_will := true, sent_do := true },
    { option := TN_OPT_BINARY_TRANSMISSION, i_will := true, i_do := true, sent_will := false,
      sent_do := true }]

/-- `find_cmd` -/
def find_cmd (cmds : List (TelnetCmd σ)) (option : UInt8) : Option (TelnetCmd σ) :=
  cmds.find? fun e => e.option = option

/-- Change the entry of an option. -/
def set_cmd (option : UInt8) (f : TelnetCmd σ → TelnetCmd σ) (cmds : List (TelnetCmd σ)) :
    List (TelnetCmd σ) :=
  cmds.map fun e => if e.option = option then f e else e

/-! ## Sessions -/

/-- `struct telnet_data_s` with the port that it belongs to, and whether a null pointer has been
called. -/
structure Telnet (σ : Type) where
  td : TelnetData
  out_telnet_cmd : List UInt8
  error : Bool
  port : σ
  null : Bool

/-- The init sequence of a port. -/
def telnet_init_seq : List UInt8 :=
  [TN_IAC, TN_WILL, TN_OPT_BINARY_TRANSMISSION, TN_IAC, TN_WILL, TN_OPT_ECHO,
    TN_IAC, TN_WILL, TN_OPT_SUPPRESS_GO_AHEAD, TN_IAC, TN_WILL, TN_OPT_COM_PORT]

/-- The init sequence of a control connection. -/
def controller_init_seq : List UInt8 :=
  [TN_IAC, TN_WILL, TN_OPT_SUPPRESS_GO_AHEAD, TN_IAC, TN_WILL, TN_OPT_ECHO,
    TN_IAC, TN_DONT, TN_OPT_ECHO]

namespace Telnet

/-- `telnet_init` -/
def init (init_seq : List UInt8) (port : σ) : Telnet σ :=
  { td := .init, out_telnet_cmd := init_seq, error := false, port := port, null := false }

/-- `telnet_cmd_send` -/
def telnet_cmd_send (cmd : List UInt8) (t : Telnet σ) : Telnet σ :=
  if MAX_TELNET_CMD_XMIT_BUF - t.out_telnet_cmd.length < cmd.length then { t with error := true }
  else { t with out_telnet_cmd := t.out_telnet_cmd ++ cmd }

/-- `send_i` -/
def send_i (type option : UInt8) (t : Telnet σ) : Telnet σ :=
  t.telnet_cmd_send [TN_IAC, type, option]

/-- `telnet_send_option` -/
def telnet_send_option (t : Telnet σ) (option : List UInt8) : Telnet σ :=
  t.telnet_cmd_send ([TN_IAC, TN_SB] ++ double TN_IAC option ++ [TN_IAC, TN_SE])

/-- A handler has been called. -/
def called (r : σ × List (List UInt8)) (t : Telnet σ) : Telnet σ :=
  r.2.foldl telnet_send_option { t with port := r.1 }

/-- The answer to a `WILL` that has not been asked for. -/
def answer_will (option : UInt8) (cmd : TelnetCmd σ) (t : Telnet σ) : Telnet σ :=
  if cmd.i_will then
    match cmd.will_handler with
    | none => t.send_i TN_DO option
    | some f =>
      let (port, options, rv) := f t.port
      (t.called (port, options)).send_i (if rv then TN_DO else TN_DONT) option
  else t.send_i TN_DONT option

end Telnet

variable (cmd_handler : σ → UInt8 → σ)

/-- `handle_telnet_cmd`: the table and the session afterwards. -/
def handle_telnet_cmd (cmd_str : List UInt8) (cmds : List (TelnetCmd σ)) (t : Telnet σ) :
    List (TelnetCmd σ) × Telnet σ :=
  let kind := cmd_str.getD 1 0
  let option := cmd_str.getD 2 0
  if cmd_str.length < 2 then (cmds, t)
  else if kind.toNat < 250 then (cmds, { t with port := cmd_handler t.port kind })
  else if kind = TN_SB then
    match find_cmd cmds option with
    | none => (cmds, t)
    | some cmd =>
      match cmd.option_handler with
      | none => (cmds, { t with null := true })
      | some f => (cmds, t.called (f t.port (cmd_str.drop 2)))
  else if kind = TN_WILL then
    match find_cmd cmds option with
    | none => (cmds, t.send_i TN_DONT option)
    | some cmd =>
      if cmd.sent_do then
        (set_cmd option (fun e => { e with sent_do := false, rem_will := true }) cmds, t)
      else
        (set_cmd option (fun e => { e with rem_will := true }) cmds, t.answer_will option cmd)
  else if kind = TN_WONT then
    match find_cmd cmds option with
    | none => (cmds, t.send_i TN_DONT option)
    | some cmd =>
      if cmd.sent_do then
        (set_cmd option (fun e => { e with sent_do := false, rem_will := false }) cmds, t)
      else
        (set_cmd option (fun e => { e with rem_will := false }) cmds, t.send_i TN_DONT option)
  else if kind = TN_DO then
    match find_cmd cmds option with
    | none => (cmds, t.send_i TN_WONT option)
    | some cmd =>
      if cmd.sent_will then
        (set_cmd option (fun e => { e with sent_will := false, rem_do := true }) cmds, t)
      else
        (set_cmd option (fun e => { e with rem_do := true }) cmds,
          t.send_i (if cmd.i_do then TN_WILL else TN_WONT) option)
  else if kind = TN_DONT then
    match find_cmd cmds option with
    | none => (cmds, t.send_i TN_WONT option)
    | some cmd =>
      if cmd.sent_will then
        (set_cmd option (fun e => { e with sent_will := false, rem_do := false }) cmds, t)
      else
        (set_cmd option (fun e => { e with rem_do := false }) cmds, t.send_i TN_WONT option)
  else (cmds, t)

/-- A byte from the network. -/
def receive (b : UInt8) (cmds : List (TelnetCmd σ)) (t : Telnet σ) :
    List (TelnetCmd σ) × Telnet σ :=
  let td := (t.td.byte b).1
  match td.handled.drop t.td.handled.length with
  | [] => (cmds, { t with td := td })
  | cmd_str :: _ => handle_telnet_cmd cmd_handler cmd_str cmds { t with td := td }

/-- A table that the sessions of a port share, with one of them. -/
structure Server (σ : Type) where
  cmds : List (TelnetCmd σ)
  session : Telnet σ

/-- What comes from the network: a connection, or a byte. -/
inductive Arrival (σ : Type)
  | start (init_seq : List UInt8) (port : σ)
  | byte (b : UInt8)

namespace Server

/-- One step.  The table is not set back for a new session. -/
def step (s : Server σ) : Arrival σ → Option (Server σ)
  | .start init_seq port =>
    some { s with session := { Telnet.init init_seq port with null := s.session.null } }
  | .byte b =>
    let r := receive cmd_handler b s.cmds s.session
    some { cmds := r.1, session := r.2 }

/-- The options that have an entry, but no option handler. -/
def plain : List UInt8 := [TN_OPT_BINARY_TRANSMISSION, TN_OPT_ECHO, TN_OPT_SUPPRESS_GO_AHEAD]

/-- The condition on a step: no sub-option of these options comes to its end. -/
def Spared (s : Server σ) : Arrival σ → Prop
  | .byte b => b = TN_SE → s.session.td.suboption_iac = true →
      s.session.td.telnet_cmd.getD 2 0 ∉ plain
  | .start _ _ => True

end Server

variable {cmd_handler} {cmds : List (TelnetCmd σ)} {t : Telnet σ} {cmd_str : List UInt8}
  {option b : UInt8} {f : TelnetCmd σ → TelnetCmd σ} {td : TelnetData} {s s' : Server σ}

/-! ## The table -/

lemma find_cmd_option {e : TelnetCmd σ} (h : find_cmd cmds option = some e) : e.option = option := by
  simpa using List.find?_some h

/-- The entries keep their options. -/
lemma find_cmd_set_cmd (hf : ∀ e, (f e).option = e.option) (o : UInt8) :
    find_cmd (set_cmd option f cmds) o =
      (find_cmd cmds o).map fun e => if e.option = option then f e else e := by
  rw [find_cmd, set_cmd, List.find?_map]
  refine congrArg _ (List.find?_congr fun e _ => ?_)
  show decide ((if e.option = option then f e else e).option = o) = decide (e.option = o)
  split
  · rw [hf]
  · rfl

/-- The table has these options, and no handler for those that are plain. -/
def Handled (cmds : List (TelnetCmd σ)) : Prop :=
  ∀ o, (∃ e, find_cmd cmds o = some e ∧ e.option_handler = none) ↔ o ∈ Server.plain

lemma Handled.set_cmd (h : Handled cmds) (hf : ∀ e, (f e).option = e.option)
    (hh : ∀ e, (f e).option_handler = e.option_handler) : Handled (set_cmd option f cmds) := by
  intro o
  rw [← h o, find_cmd_set_cmd hf]
  have hsame (e : TelnetCmd σ) :
      (if e.option = option then f e else e).option_handler = e.option_handler := by
    split
    · exact hh e
    · rfl
  constructor
  · rintro ⟨e, he, hnone⟩
    obtain ⟨e', he', rfl⟩ := Option.map_eq_some_iff.mp he
    exact ⟨e', he', (hsame e').symm.trans hnone⟩
  · rintro ⟨e, he, hnone⟩
    refine ⟨_, by rw [he]; rfl, (hsame e).trans hnone⟩

lemma find_cmd_cons (e : TelnetCmd σ) (l : List (TelnetCmd σ)) (o : UInt8) :
    find_cmd (e :: l) o = if e.option = o then some e else find_cmd l o := by
  rw [find_cmd, List.find?_cons]
  by_cases h : e.option = o <;> simp [h, find_cmd]

lemma handled_telnet_cmds (h : Handlers σ) : Handled (telnet_cmds h) := by
  intro o
  simp only [telnet_cmds, find_cmd_cons, Server.plain, List.mem_cons, List.not_mem_nil, or_false]
  constructor
  · rintro ⟨e, he, hnone⟩
    split at he
    · rename_i ho
      exact .inl ho.symm
    split at he
    · rename_i ho
      exact .inr (.inl ho.symm)
    split at he
    · rename_i ho
      exact .inr (.inr ho.symm)
    split at he
    · cases he
      cases hnone
    · cases he
  · rintro (rfl | rfl | rfl)
    · exact ⟨_, rfl, rfl⟩
    · exact ⟨_, rfl, rfl⟩
    · exact ⟨_, rfl, rfl⟩

lemma handled_controller_cmds : Handled (controller_cmds (σ := σ)) := by
  intro o
  simp only [controller_cmds, find_cmd_cons, Server.plain, List.mem_cons, List.not_mem_nil, or_false]
  constructor
  · rintro ⟨e, he, hnone⟩
    split at he
    · rename_i ho
      exact .inr (.inr ho.symm)
    split at he
    · rename_i ho
      exact .inr (.inl ho.symm)
    split at he
    · rename_i ho
      exact .inl ho.symm
    · cases he
  · rintro (rfl | rfl | rfl)
    · exact ⟨_, rfl, rfl⟩
    · exact ⟨_, rfl, rfl⟩
    · exact ⟨_, rfl, rfl⟩

/-! ## Answers -/

namespace Telnet

/-- What is sent leaves the decoder alone and calls no null pointer. -/
def Sends (t t' : Telnet σ) : Prop := t'.td = t.td ∧ t'.null = t.null

lemma Sends.refl (t : Telnet σ) : Sends t t := ⟨rfl, rfl⟩

lemma Sends.trans {t t' t'' : Telnet σ} (h : Sends t t') (h' : Sends t' t'') : Sends t t'' :=
  ⟨h'.1.trans h.1, h'.2.trans h.2⟩

lemma telnet_cmd_send_sends (cmd : List UInt8) (t : Telnet σ) : Sends t (t.telnet_cmd_send cmd) := by
  rw [telnet_cmd_send]
  split <;> exact ⟨rfl, rfl⟩

lemma send_i_sends (type option : UInt8) (t : Telnet σ) : Sends t (t.send_i type option) :=
  telnet_cmd_send_sends _ _

lemma send_options_sends (l : List (List UInt8)) (t : Telnet σ) :
    Sends t (l.foldl telnet_send_option t) := by
  induction l generalizing t with
  | nil => exact .refl t
  | cons o l ih =>
    rw [List.foldl_cons]
    exact Sends.trans (telnet_cmd_send_sends _ _) (ih _)

lemma called_sends (r : σ × List (List UInt8)) (t : Telnet σ) : Sends t (t.called r) :=
  Sends.trans ⟨rfl, rfl⟩ (send_options_sends r.2 { t with port := r.1 })

lemma answer_will_sends (option : UInt8) (cmd : TelnetCmd σ) (t : Telnet σ) :
    Sends t (t.answer_will option cmd) := by
  rw [answer_will]
  split
  · split
    · exact send_i_sends _ _ _
    · exact (called_sends _ _).trans (send_i_sends _ _ _)
  · exact send_i_sends _ _ _

end Telnet

/-- The command is a sub-option of an entry without a handler. -/
def NoHandler (cmd_str : List UInt8) (cmds : List (TelnetCmd σ)) : Prop :=
  2 ≤ cmd_str.length ∧ cmd_str.getD 1 0 = TN_SB ∧
    ∃ e, find_cmd cmds (cmd_str.getD 2 0) = some e ∧ e.option_handler = none

/-- The entries keep their options and their handlers. -/
def SameHandlers (cmds cmds' : List (TelnetCmd σ)) : Prop :=
  cmds' = cmds ∨ ∃ option f, (∀ e : TelnetCmd σ, (f e).option = e.option) ∧
    (∀ e : TelnetCmd σ, (f e).option_handler = e.option_handler) ∧ cmds' = set_cmd option f cmds

lemma SameHandlers.handled {cmds' : List (TelnetCmd σ)} (h : SameHandlers cmds cmds')
    (hc : Handled cmds) : Handled cmds' := by
  rcases h with rfl | ⟨option, f, hf, hh, rfl⟩
  · exact hc
  · exact hc.set_cmd hf hh

/-- A command either calls a null pointer, or it is answered and noted in the table. -/
lemma handle_telnet_cmd_cases (cmd_str : List UInt8) (cmds : List (TelnetCmd σ)) (t : Telnet σ) :
    (NoHandler cmd_str cmds ∧
      handle_telnet_cmd cmd_handler cmd_str cmds t = (cmds, { t with null := true })) ∨
    (¬ NoHandler cmd_str cmds ∧
      t.Sends (handle_telnet_cmd cmd_handler cmd_str cmds t).2 ∧
      SameHandlers cmds (handle_telnet_cmd cmd_handler cmd_str cmds t).1) := by
  have hset (f : TelnetCmd σ → TelnetCmd σ) (hf : ∀ e, (f e).option = e.option)
      (hh : ∀ e, (f e).option_handler = e.option_handler) :
      SameHandlers cmds (set_cmd (cmd_str.getD 2 0) f cmds) := .inr ⟨_, f, hf, hh, rfl⟩
  by_cases hno : NoHandler cmd_str cmds
  · obtain ⟨hlen, hkind, e, he, hnone⟩ := id hno
    refine .inl ⟨hno, ?_⟩
    simp only [handle_telnet_cmd, hkind, he, hnone, if_neg (by omega : ¬ cmd_str.length < 2)]
    rfl
  refine .inr ⟨hno, ?_⟩
  simp only [handle_telnet_cmd]
  split
  · exact ⟨.refl t, .inl rfl⟩
  rename_i hlen
  split
  · exact ⟨⟨rfl, rfl⟩, .inl rfl⟩
  split
  · rename_i hkind
    split
    · exact ⟨.refl t, .inl rfl⟩
    · rename_i e he
      split
      · rename_i hnone
        exact absurd ⟨by omega, hkind, e, he, hnone⟩ hno
      · exact ⟨Telnet.called_sends _ _, .inl rfl⟩
  split
  · split
    · exact ⟨Telnet.send_i_sends _ _ _, .inl rfl⟩
    · split
      · exact ⟨.refl t, hset _ (fun _ => rfl) fun _ => rfl⟩
      · exact ⟨Telnet.answer_will_sends _ _ _, hset _ (fun _ => rfl) fun _ => rfl⟩
  split
  · split
    · exact ⟨Telnet.send_i_sends _ _ _, .inl rfl⟩
    · split
      · exact ⟨.refl t, hset _ (fun _ => rfl) fun _ => rfl⟩
      · exact ⟨Telnet.send_i_sends _ _ _, hset _ (fun _ => rfl) fun _ => rfl⟩
  split
  · split
    · exact ⟨Telnet.send_i_sends _ _ _, .inl rfl⟩
    · split
      · exact ⟨.refl t, hset _ (fun _ => rfl) fun _ => rfl⟩
      · exact ⟨Telnet.send_i_sends _ _ _, hset _ (fun _ => rfl) fun _ => rfl⟩
  split
  · split
    · exact ⟨Telnet.send_i_sends _ _ _, .inl rfl⟩
    · split
      · exact ⟨.refl t, hset _ (fun _ => rfl) fun _ => rfl⟩
      · exact ⟨Telnet.send_i_sends _ _ _, hset _ (fun _ => rfl) fun _ => rfl⟩
  · exact ⟨.refl t, .inl rfl⟩

/-! ## The decoder -/

/-- What the decoder keeps: behind two bytes there is a sub-option, and an IAC in it is behind its
option. -/
structure TelnetData.Sub (td : TelnetData) : Prop where
  sub : 3 ≤ td.telnet_cmd.length → td.telnet_cmd.getD 1 0 = TN_SB
  iac : td.suboption_iac = true → 4 ≤ td.telnet_cmd.length

namespace TelnetData

lemma Sub.init : Sub TelnetData.init := ⟨nofun, nofun⟩

/-- In front of its option a command has no IAC that belongs to a sub-option. -/
lemma Sub.no_iac (h : td.Sub) (hlen : td.telnet_cmd.length < 4) : ¬ td.suboption_iac = true :=
  fun hi => absurd (h.iac hi) (by omega)

/-- A command that is not yet three bytes long may still become anything. -/
lemma Sub.of_short (hlen : td.telnet_cmd.length < 3) (hiac : ¬ td.suboption_iac = true) : td.Sub :=
  ⟨fun hsub => absurd hsub (by omega), fun hi => absurd hi hiac⟩

/-- What a byte can complete: a command of two or three bytes, or a sub-option. -/
lemma byte_cases (h : td.Sub) (b : UInt8) :
    ((td.byte b).1.Sub) ∧
    ((td.byte b).1.handled = td.handled ∧ ¬ (b = TN_SE ∧ td.suboption_iac = true) ∨
    (∃ cmd_str, (td.byte b).1.handled = td.handled ++ [cmd_str] ∧
      (cmd_str.getD 1 0 ≠ TN_SB ∧ ¬ (b = TN_SE ∧ td.suboption_iac = true) ∨
        b = TN_SE ∧ td.suboption_iac = true ∧ 2 ≤ cmd_str.length ∧ cmd_str.getD 1 0 = TN_SB ∧
          cmd_str.getD 2 0 = td.telnet_cmd.getD 2 0))) := by
  obtain ⟨telnet_cmd, suboption_iac, handled⟩ := td
  rcases telnet_cmd with _ | ⟨a, _ | ⟨c, _ | ⟨o, l⟩⟩⟩
  · have hiac := h.no_iac (by simp)
    simp only [byte]
    split
    · exact ⟨.of_short (by simp) (by simp), .inl ⟨rfl, fun hb => hiac hb.2⟩⟩
    · exact ⟨.of_short (by simp) hiac, .inl ⟨rfl, fun hb => hiac hb.2⟩⟩
  · have hiac := h.no_iac (by simp)
    simp only [byte]
    split
    · exact ⟨.of_short (by simp) hiac, .inl ⟨rfl, fun hb => hiac hb.2⟩⟩
    split
    · rename_i hlt
      refine ⟨.of_short (by simp [handle]) hiac, .inr ⟨[a, b], rfl, .inl ⟨?_, fun hb => hiac hb.2⟩⟩⟩
      rintro (rfl : b = TN_SB)
      exact absurd hlt (by decide)
    · exact ⟨.of_short (by simp [store]) hiac, .inl ⟨rfl, fun hb => hiac hb.2⟩⟩
  · have hiac := h.no_iac (by simp)
    simp only [byte]
    split
    · rename_i hc
      exact ⟨.of_short (by simp [handle]) hiac, .inr ⟨[a, c, b], rfl, .inl ⟨hc, fun hb => hiac hb.2⟩⟩⟩
    · rename_i hc
      refine ⟨⟨fun _ => ?_, fun hi => absurd hi hiac⟩, .inl ⟨rfl, fun hb => hiac hb.2⟩⟩
      simpa [store, TN_SB] using hc
  · have hc : c = TN_SB := h.sub (by simp)
    simp only [byte]
    split
    · rename_i hi
      have hlen := h.iac hi
      obtain ⟨y, l, rfl⟩ : ∃ y l', l = y :: l' := by
        cases l with
        | nil => simp at hlen
        | cons y l => exact ⟨y, l, rfl⟩
      split
      · rename_i hb
        refine ⟨.of_short (by simp [handle]) (by simp),
          .inr ⟨(a :: c :: o :: y :: l).dropLast, rfl, .inr ⟨hb, hi, ?_, ?_, ?_⟩⟩⟩
        · simp
        · simpa using hc
        · simp
      · rename_i hb
        split
        · exact ⟨⟨fun _ => hc, fun hi => by cases hi⟩, .inl ⟨rfl, fun h' => hb h'.1⟩⟩
        · refine ⟨⟨fun _ => ?_, fun hi => by cases hi⟩, .inl ⟨rfl, fun h' => hb h'.1⟩⟩
          simpa using hc
    · rename_i hi
      have hi' : suboption_iac = false := by simpa using hi
      refine ⟨⟨fun _ => ?_, fun _ => ?_⟩, ?_⟩
      · split
        · simpa [store, MAX_TELNET_CMD_SIZE] using hc
        · simpa [store] using hc
      · split
        · rename_i hlong
          simp only [store, List.length_append, List.length_take, List.length_singleton]
          simp only [MAX_TELNET_CMD_SIZE] at hlong ⊢
          omega
        · simp [store]
      · refine .inl ⟨?_, fun h' => by rw [hi'] at h'; cases h'.2⟩
        split <;> rfl

end TelnetData

/-! ## Runs -/

namespace Server

/-- What holds of a server of which no null pointer has been called. -/
structure Sound (s : Server σ) : Prop where
  handled : Handled s.cmds
  sub : s.session.td.Sub
  null : s.session.null = false

/-- A byte that does not end a sub-option of a plain option. -/
lemma Sound.byte (h : Sound s) (hok : Spared s (.byte b)) :
    Sound (Server.mk (receive cmd_handler b s.cmds s.session).1
      (receive cmd_handler b s.cmds s.session).2) := by
  obtain ⟨hsub, hcases⟩ := TelnetData.byte_cases h.sub b
  rcases hcases with ⟨hsame, -⟩ | ⟨cmd_str, hcmd, hkind⟩
  · have hr : receive cmd_handler b s.cmds s.session =
        (s.cmds, { s.session with td := (s.session.td.byte b).1 }) := by
      rw [receive, hsame, List.drop_length]
    rw [hr]
    exact ⟨h.handled, hsub, h.null⟩
  · have hr : receive cmd_handler b s.cmds s.session =
        handle_telnet_cmd cmd_handler cmd_str s.cmds
          { s.session with td := (s.session.td.byte b).1 } := by
      rw [receive, hcmd, List.drop_left]
    have hno : ¬ NoHandler cmd_str s.cmds := by
      rintro ⟨hlen, hsb, hentry⟩
      rcases hkind with ⟨hother, -⟩ | ⟨hb, hiac, -, -, hoption⟩
      · exact hother hsb
      · exact hok hb hiac (hoption ▸ (h.handled _).mp hentry)
    rw [hr]
    rcases handle_telnet_cmd_cases  cmd_str s.cmds
      { s.session with td := (s.session.td.byte b).1 } with ⟨hbad, -⟩ | ⟨-, hsends, hsame⟩
    · exact absurd hbad hno
    · refine ⟨hsame.handled h.handled, ?_, hsends.2.trans h.null⟩
      rw [hsends.1]
      exact hsub

lemma Sound.step {a : Arrival σ} (h : Sound s) (hok : Spared s a)
    (hs : s.step cmd_handler a = some s') : Sound s' := by
  cases a with
  | start init_seq port =>
    cases hs
    exact ⟨h.handled, .init, h.null⟩
  | byte b =>
    cases hs
    exact h.byte hok

/-- The end of a sub-option of a plain option calls a null pointer. -/
lemma Sound.null_of_not_spared {a : Arrival σ} (h : Sound s) (hok : ¬ Spared s a)
    (hs : s.step cmd_handler a = some s') : s'.session.null = true := by
  cases a with
  | start init_seq port => exact absurd trivial hok
  | byte b =>
    cases hs
    simp only [Spared, not_forall, not_not] at hok
    obtain ⟨hb, hiac, hplain⟩ := hok
    obtain ⟨-, hcases⟩ := TelnetData.byte_cases h.sub b
    rcases hcases with ⟨-, hnot⟩ | ⟨cmd_str, hcmd, ⟨-, hnot⟩ | ⟨-, -, hlen, hsb, hoption⟩⟩
    · exact absurd ⟨hb, hiac⟩ hnot
    · exact absurd ⟨hb, hiac⟩ hnot
    · have hr : receive cmd_handler b s.cmds s.session =
          handle_telnet_cmd cmd_handler cmd_str s.cmds
            { s.session with td := (s.session.td.byte b).1 } := by
        rw [receive, hcmd, List.drop_left]
      have hno : NoHandler cmd_str s.cmds :=
        ⟨hlen, hsb, (h.handled _).mpr (hoption ▸ hplain)⟩
      rw [hr]
      rcases handle_telnet_cmd_cases  cmd_str s.cmds
        { s.session with td := (s.session.td.byte b).1 } with ⟨-, hbad⟩ | ⟨hgood, -⟩
      · rw [hbad]
      · exact absurd hno hgood

/-- However the bytes of any number of sessions arrive on a port or on the control port, no null
handler is called as long as no sub-option of `BINARY_TRANSMISSION`, `ECHO` or
`SUPPRESS_GO_AHEAD` comes to its end; the first that does calls one. -/
theorem no_null_handler (h : Handlers σ) (cmds : List (TelnetCmd σ))
    (hcmds : cmds = telnet_cmds h ∨ cmds = controller_cmds) (init_seq : List UInt8) (port : σ)
    {s : Server σ}
    (hs : Reach (step h.telnet_cmd_handler) Spared ⟨cmds, .init init_seq port⟩ s) :
    s.session.null = false ∧
      ∀ a s', s.step h.telnet_cmd_handler a = some s' → (s'.session.null = false ↔ Spared s a) := by
  have hhandled : Handled cmds := by
    rcases hcmds with rfl | rfl
    · exact handled_telnet_cmds h
    · exact handled_controller_cmds
  have hsound : Sound s :=
    hs.induction_on ⟨hhandled, .init, rfl⟩ fun _ _ _ hsound hok hstep => hsound.step hok hstep
  refine ⟨hsound.null, fun a s' hstep => ⟨fun hnull => ?_, fun hok => (hsound.step hok hstep).null⟩⟩
  by_contra hok
  exact Bool.noConfusion (hnull.symm.trans (hsound.null_of_not_spared hok hstep))

/-- A port on which `COM_PORT` is not allowed. -/
def no_2217 : Handlers Unit :=
  { telnet_cmd_handler := fun p _ => p
    com_port_handler := fun p _ => (p, [])
    com_port_will := fun p => (p, [], false) }

/-- A sub-option of `COM_PORT` is handled. -/
theorem no_null_handler_com_port :
    ∃ s, replay (step no_2217.telnet_cmd_handler) ⟨telnet_cmds no_2217, .init telnet_init_seq ()⟩
        ([TN_IAC, TN_SB, TN_OPT_COM_PORT, 0, TN_IAC, TN_SE].map .byte) = some s ∧
      s.session.td.handled = [[TN_IAC, TN_SB, TN_OPT_COM_PORT, 0]] ∧
      s.session.null = false := by
  have hsub : Reach (step no_2217.telnet_cmd_handler) Spared
      ⟨telnet_cmds no_2217, .init telnet_init_seq ()⟩ _ :=
    .step (e := .byte TN_IAC) (.step (e := .byte 0) (.step (e := .byte TN_OPT_COM_PORT)
      (.step (e := .byte TN_SB) (.step (e := .byte TN_IAC) .init nofun rfl) nofun rfl) nofun rfl)
        nofun rfl) nofun rfl
  refine ⟨_, rfl, rfl, ?_⟩
  exact (no_null_handler no_2217 (telnet_cmds no_2217) (.inl rfl) telnet_init_seq ()
    (hsub.step (e := .byte TN_SE) (fun _ _ => by decide) rfl)).1

/-- A sub-option of `BINARY_TRANSMISSION`, on a port and on the control port. -/
theorem sub_option_without_handler :
    (∃ s, replay (step no_2217.telnet_cmd_handler) ⟨telnet_cmds no_2217, .init telnet_init_seq ()⟩
        ([TN_IAC, TN_SB, TN_OPT_BINARY_TRANSMISSION, TN_IAC, TN_SE].map .byte) = some s ∧
      s.session.null = true) ∧
    ∃ s, replay (step no_2217.telnet_cmd_handler) ⟨controller_cmds, .init controller_init_seq ()⟩
        ([TN_IAC, TN_SB, TN_OPT_BINARY_TRANSMISSION, TN_IAC, TN_SE].map .byte) = some s ∧
      s.session.null = true :=
  ⟨⟨_, rfl, rfl⟩, _, rfl, rfl⟩

end Server

end EspLinux.Ser2net
