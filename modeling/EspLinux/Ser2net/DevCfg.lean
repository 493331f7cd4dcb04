import EspLinux.Lib.Assign
import EspLinux.Lib.Words
import EspLinux.Ser2net.ReadSize

/-!
# The configuration of a device

`devconfig` takes a configuration word by word and writes what each says into the record of the
port.  Before that it clears what is not a setting of the terminal, and it stops at the first word
that it does not know.  What has been written until then stays, although `setportdevcfg` reports an
error (`setportdevcfg_keeps_iff`).  `devconfig_view` says that `EspLinux.Ser2net.devconfig` is what
this does to the fields that the session looks at.
-/

namespace EspLinux.Ser2net.DevCfg

open EspLinux.Lib
open EspLinux.Lib.Words (Text)

/-! ## Records -/

/-- `struct termios`, as far as words set it. -/
structure Termios where
  ospeed : ℕ
  ispeed : ℕ
  CSTOPB : Bool
  CSIZE : ℕ
  PARENB : Bool
  PARODD : Bool
  CRTSCTS : Bool
  CLOCAL : Bool
  HUPCL : Bool
  IXON : Bool
  IXOFF : Bool
  IXANY : Bool
  VSTART : ℕ
  VSTOP : ℕ
deriving DecidableEq, Repr

/-- `dev_info_t`.  The texts are given by their addresses. -/
structure DevInfo where
  termctl : Termios
  allow_2217 : Bool
  disablebreak : Bool
  banner : Option ℕ
  trace_read : Option ℕ
  trace_write : Option ℕ
  trace_both : Option ℕ
  shortest : ℕ
  maxAge_sec : ℕ
  maxAge_usec : ℕ
deriving DecidableEq, Repr

/-- What is given from outside: the banners and the trace files of the configuration file, with the
addresses of their texts, and what is made of the number of `maxAge=`, where `none` is one that
cannot be read or is out of range. -/
structure Env where
  banners : List (Text × ℕ)
  tracefiles : List (Text × ℕ)
  age : Text → Option (ℕ × ℕ)

/-- `devinit` -/
def devinit (t : Termios) : Termios :=
  { t with
    ospeed := 9600, ispeed := 9600, CSTOPB := false, CSIZE := 8, PARENB := false, CLOCAL := false,
    HUPCL := false, CRTSCTS := false, IXON := false, IXOFF := false, IXANY := false }

/-! ## Words -/

/-- A field that `devconfig` writes, with the value. -/
inductive Assignment
  | ospeed (baud : ℕ)
  | ispeed (baud : ℕ)
  | CSTOPB (on : Bool)
  | CSIZE (bits : ℕ)
  | PARENB (on : Bool)
  | PARODD (on : Bool)
  | CRTSCTS (on : Bool)
  | CLOCAL (on : Bool)
  | HUPCL (on : Bool)
  | IXON (on : Bool)
  | IXOFF (on : Bool)
  | IXANY (on : Bool)
  | VSTART (c : ℕ)
  | VSTOP (c : ℕ)
  | allow_2217 (on : Bool)
  | disablebreak (on : Bool)
  | banner (text : Option ℕ)
  | trace_read (file : Option ℕ)
  | trace_write (file : Option ℕ)
  | trace_both (file : Option ℕ)
  | shortest (bytes : ℕ)
  | maxAge_sec (n : ℕ)
  | maxAge_usec (n : ℕ)
deriving DecidableEq, Repr

/-- The names of the fields. -/
inductive Field
  | ospeed | ispeed | CSTOPB | CSIZE | PARENB | PARODD | CRTSCTS | CLOCAL | HUPCL
  | IXON | IXOFF | IXANY | VSTART | VSTOP
  | allow_2217 | disablebreak | banner | trace_read | trace_write | trace_both
  | shortest | maxAge_sec | maxAge_usec
deriving DecidableEq, Repr

namespace Assignment

/-- The field that is written. -/
def field : Assignment → Field
  | .ospeed _ => .ospeed
  | .ispeed _ => .ispeed
  | .CSTOPB _ => .CSTOPB
  | .CSIZE _ => .CSIZE
  | .PARENB _ => .PARENB
  | .PARODD _ => .PARODD
  | .CRTSCTS _ => .CRTSCTS
  | .CLOCAL _ => .CLOCAL
  | .HUPCL _ => .HUPCL
  | .IXON _ => .IXON
  | .IXOFF _ => .IXOFF
  | .IXANY _ => .IXANY
  | .VSTART _ => .VSTART
  | .VSTOP _ => .VSTOP
  | .allow_2217 _ => .allow_2217
  | .disablebreak _ => .disablebreak
  | .banner _ => .banner
  | .trace_read _ => .trace_read
  | .trace_write _ => .trace_write
  | .trace_both _ => .trace_both
  | .shortest _ => .shortest
  | .maxAge_sec _ => .maxAge_sec
  | .maxAge_usec _ => .maxAge_usec

/-- What is written. -/
def apply : Assignment → DevInfo → DevInfo
  | .ospeed v, d => { d with termctl := { d.termctl with ospeed := v } }
  | .ispeed v, d => { d with termctl := { d.termctl with ispeed := v } }
  | .CSTOPB v, d => { d with termctl := { d.termctl with CSTOPB := v } }
  | .CSIZE v, d => { d with termctl := { d.termctl with CSIZE := v } }
  | .PARENB v, d => { d with termctl := { d.termctl with PARENB := v } }
  | .PARODD v, d => { d with termctl := { d.termctl with PARODD := v } }
  | .CRTSCTS v, d => { d with termctl := { d.termctl with CRTSCTS := v } }
  | .CLOCAL v, d => { d with termctl := { d.termctl with CLOCAL := v } }
  | .HUPCL v, d => { d with termctl := { d.termctl with HUPCL := v } }
  | .IXON v, d => { d with termctl := { d.termctl with IXON := v } }
  | .IXOFF v, d => { d with termctl := { d.termctl with IXOFF := v } }
  | .IXANY v, d => { d with termctl := { d.termctl with IXANY := v } }
  | .VSTART v, d => { d with termctl := { d.termctl with VSTART := v } }
  | .VSTOP v, d => { d with termctl := { d.termctl with VSTOP := v } }
  | .allow_2217 v, d => { d with allow_2217 := v }
  | .disablebreak v, d => { d with disablebreak := v }
  | .banner v, d => { d with banner := v }
  | .trace_read v, d => { d with trace_read := v }
  | .trace_write v, d => { d with trace_write := v }
  | .trace_both v, d => { d with trace_both := v }
  | .shortest v, d => { d with shortest := v }
  | .maxAge_sec v, d => { d with maxAge_sec := v }
  | .maxAge_usec v, d => { d with maxAge_usec := v }

end Assignment

/-- `strcasecmp(s, t) == 0` -/
def strcasecmp (s t : Text) : Bool := s.map Char.toLower == t.map Char.toLower

/-- `strncasecmp` of the beginning of a text with `key`, and what stands behind it. -/
def behind (key s : Text) : Option Text :=
  if strcasecmp (s.take key.length) key then some (s.drop key.length) else none

/-- `strtok_r` with `", \t"`, call after call. -/
def strtok_r (s : Text) : List Text :=
  (s.splitOnP fun c => c == ',' || c == ' ' || c == '\t').filter (· ≠ [])

/-- `ULONG_MAX` -/
def ULONG_MAX : ℕ := 2 ^ 32 - 1

/-- `strtoul` in base 10; `none` if nothing has been read. -/
def strtoul (s : Text) : Option ℕ :=
  let s := s.dropWhile fun c => c == ' ' || ('\t' ≤ c && c ≤ '\r')
  let neg := s.head? == some '-'
  let digits := (if neg || s.head? == some '+' then s.tail else s).takeWhile Char.isDigit
  if digits = [] then none
  else
    let n := digits.foldl (fun n c => 10 * n + (c.toNat - '0'.toNat)) 0
    some (if ULONG_MAX < n then ULONG_MAX else if neg then (ULONG_MAX + 1 - n) % (ULONG_MAX + 1)
      else n)

/-- `cfsetospeed` and `cfsetispeed` -/
def cfsetspeed (baud : ℕ) : List Assignment := [.ospeed baud, .ispeed baud]

/-- The words that stand for themselves. -/
def keywords : List (Text × List Assignment) := [
  ("300".toList, cfsetspeed 300),
  ("600".toList, cfsetspeed 600),
  ("1200".toList, cfsetspeed 1200),
  ("2400".toList, cfsetspeed 2400),
  ("4800".toList, cfsetspeed 4800),
  ("9600".toList, cfsetspeed 9600),
  ("19200".toList, cfsetspeed 19200),
  ("38400".toList, cfsetspeed 38400),
  ("57600".toList, cfsetspeed 57600),
  ("115200".toList, cfsetspeed 115200),
  ("1STOPBIT".toList, [.CSTOPB false]),
  ("2STOPBITS".toList, [.CSTOPB true]),
  ("7DATABITS".toList, [.CSIZE 7]),
  ("8DATABITS".toList, [.CSIZE 8]),
  ("NONE".toList, [.PARENB false]),
  ("EVEN".toList, [.PARENB true, .PARODD false]),
  ("ODD".toList, [.PARENB true, .PARODD true]),
  ("XONXOFF".toList, [.IXON true, .IXOFF true, .IXANY true, .VSTART 17, .VSTOP 19]),
  ("-XONXOFF".toList, [.IXON false, .IXOFF false, .IXANY false]),
  ("RTSCTS".toList, [.CRTSCTS true]),
  ("-RTSCTS".toList, [.CRTSCTS false]),
  ("LOCAL".toList, [.CLOCAL true]),
  ("-LOCAL".toList, [.CLOCAL false]),
  ("HANGUP_WHEN_DONE".toList, [.HUPCL true]),
  ("-HANGUP_WHEN_DONE".toList, [.HUPCL false]),
  ("remctl".toList, [.allow_2217 true]),
  ("NOBREAK".toList, [.disablebreak true])]

/-- What the loop of `devconfig` writes for one word, and whether it goes on behind it.  A word
that is nothing else is looked up among the banners, straight into the record. -/
def word (env : Env) (pos : Text) : List Assignment × Bool :=
  match keywords.find? (fun k => strcasecmp pos k.1) with
  | some k => (k.2, true)
  | none =>
    match behind "tr=".toList pos, behind "tw=".toList pos, behind "tb=".toList pos,
      behind "shortest=".toList pos, behind "maxAge=".toList pos with
    | some name, _, _, _, _ => ([.trace_read (env.tracefiles.lookup name)], true)
    | none, some name, _, _, _ => ([.trace_write (env.tracefiles.lookup name)], true)
    | none, none, some name, _, _ => ([.trace_both (env.tracefiles.lookup name)], true)
    | none, none, none, some n, _ =>
      match strtoul n with
      | some ms => ([.shortest ms], true)
      | none => ([], false)
    | none, none, none, none, some n =>
      match env.age n with
      | some (sec, usec) => ([.maxAge_sec sec, .maxAge_usec usec], true)
      | none => ([], false)
    | none, none, none, none, none =>
      ([.banner (env.banners.lookup pos)], (env.banners.lookup pos).isSome)

/-- What is cleared before the first word. -/
def cleared : List Assignment := [
  .allow_2217 false, .disablebreak false, .shortest 0, .maxAge_sec 0, .maxAge_usec 0,
  .banner none, .trace_read none, .trace_write none, .trace_both none]

/-- The loop of `devconfig`. -/
def devconfig_loop (env : Env) : List Text → DevInfo → DevInfo × Bool
  | [], d => (d, true)
  | pos :: l, d =>
    let d := assign Assignment.apply (word env pos).1 d
    if (word env pos).2 then devconfig_loop env l d else (d, false)

/-- `devconfig`, and whether it returns 0.  `strdup` says whether there is memory for a copy. -/
def devconfig (env : Env) (strdup : Bool) (instr : Text) (d : DevInfo) : DevInfo × Bool :=
  if strdup then devconfig_loop env (strtok_r instr) (assign Assignment.apply cleared d)
  else (d, false)

/-- `port_info_t`, as far as `setportdevcfg` looks at it. -/
structure Port where
  portname : Text
  dinfo : DevInfo
deriving DecidableEq, Repr

/-- `find_port_by_num` -/
def find_port_by_num (portstr : Text) (ports : List Port) : Option ℕ :=
  ports.findIdx? (fun port => portstr == port.portname)

/-- `setportdevcfg`, and what the controller is told. -/
def setportdevcfg (env : Env) (strdup : Bool) (portspec devcfg : Text) (ports : List Port) :
    List Port × Text :=
  match find_port_by_num portspec ports with
  | none => (ports, "Invalid port number: ".toList ++ portspec ++ "\n\r".toList)
  | some i =>
    (ports.modify i fun port => { port with dinfo := (devconfig env strdup devcfg port.dinfo).1 },
      if ∃ port ∈ ports[i]?, (devconfig env strdup devcfg port.dinfo).2 = false then
        "Invalid device config\n\r".toList
      else [])

/-! ## What a configuration writes -/

variable {env : Env} {strdup : Bool} {portspec devcfg : Text} {ports : List Port} {port : Port}
  {i : ℕ} {l : List Text} {pos : Text} {d : DevInfo}

lemma assignments : Assignments Assignment.apply Assignment.field where
  wins a b d h := by
    cases a <;> cases b <;> first | rfl | exact Field.noConfusion h
  apart a b d h := by
    cases a <;> cases b <;> first | rfl | exact absurd rfl h

/-- What the loop writes, up to the word at which it stops. -/
def made (env : Env) : List Text → List Assignment
  | [] => []
  | pos :: l =>
    if (word env pos).2 then (word env pos).1 ++ made env l else (word env pos).1

/-- Every word is known. -/
def accepted (env : Env) (l : List Text) : Bool := l.all fun pos => (word env pos).2

/-- Everything that `devconfig` writes. -/
def written (env : Env) (instr : Text) : List Assignment := cleared ++ made env (strtok_r instr)

lemma devconfig_loop_eq :
    devconfig_loop env l d = (assign Assignment.apply (made env l) d, accepted env l) := by
  induction l generalizing d with
  | nil => rfl
  | cons pos l ih =>
    rw [devconfig_loop, made, accepted, List.all_cons]
    cases hok : (word env pos).2
    · rfl
    · simp only [if_true, Bool.true_and, assign_append]
      exact ih

lemma devconfig_eq : devconfig env true devcfg d =
    (assign Assignment.apply (written env devcfg) d, accepted env (strtok_r devcfg)) := by
  rw [devconfig, if_pos rfl, devconfig_loop_eq, written, assign_append]

/-- What `devconfig` leaves as it is. -/
lemma devconfig_eq_self_iff : (devconfig env strdup devcfg d).1 = d ↔
    strdup = false ∨ ∀ a ∈ lasts Assignment.field (written env devcfg), a.apply d = d := by
  cases strdup
  · simp [devconfig]
  · rw [devconfig_eq]
    simpa using assignments.assign_eq_self_iff

/-! ## The command -/

lemma setportdevcfg_eq (hport : find_port_by_num portspec ports = some i) :
    (setportdevcfg env strdup portspec devcfg ports).1 =
      ports.modify i fun port =>
        { port with dinfo := (devconfig env strdup devcfg port.dinfo).1 } := by
  rw [setportdevcfg, hport]

lemma modify_dinfo_eq_self_iff {f : DevInfo → DevInfo} (hi : ports[i]? = some port) :
    (ports.modify i fun port => { port with dinfo := f port.dinfo }) = ports ↔
      f port.dinfo = port.dinfo := by
  constructor
  · intro heq
    have hget := congrArg (·[i]?) heq
    simp only [List.getElem?_modify_eq, hi, Option.map_eq_map, Option.map_some,
      Option.some.injEq] at hget
    exact congrArg Port.dinfo hget
  · intro heq
    refine List.ext_getElem? fun j => ?_
    by_cases hj : i = j
    · rw [← hj, List.getElem?_modify_eq, hi, Option.map_eq_map, Option.map_some, heq]
    · rw [List.getElem?_modify_ne _ _ hj]

/-- When the configuration is rejected, the controller is told so, and the ports are as they were if
and only if there was no memory for a copy of the configuration, or each field that has been written
when the loop stops had had the value before that has been written last. -/
theorem setportdevcfg_keeps_iff (hport : find_port_by_num portspec ports = some i)
    (hi : ports[i]? = some port) (hrej : (devconfig env strdup devcfg port.dinfo).2 = false) :
    (setportdevcfg env strdup portspec devcfg ports).2 = "Invalid device config\n\r".toList ∧
      ((setportdevcfg env strdup portspec devcfg ports).1 = ports ↔
        strdup = false ∨
          ∀ a ∈ lasts Assignment.field (written env devcfg), a.apply port.dinfo = port.dinfo) := by
  constructor
  · rw [setportdevcfg, hport]
    exact if_pos ⟨port, hi, hrej⟩
  · rw [setportdevcfg_eq hport, modify_dinfo_eq_self_iff
      (f := fun d => (devconfig env strdup devcfg d).1) hi, devconfig_eq_self_iff]

/-- Neither banners nor trace files are configured, and no age can be read. -/
def Env.bare : Env := ⟨[], [], fun _ => none⟩

/-- A port as it is made, with 9600 baud. -/
def Port.fresh : Port :=
  { portname := "2000".toList
    dinfo :=
      { termctl := devinit ⟨0, 0, false, 0, false, false, false, false, false, false, false, false,
          0, 0⟩
        allow_2217 := false, disablebreak := false, banner := none, trace_read := none
        trace_write := none, trace_both := none, shortest := 0, maxAge_sec := 0, maxAge_usec := 0 } }

theorem setportdevcfg_keeps_fresh :
    (setportdevcfg Env.bare true "2000".toList "9600 bogus".toList [Port.fresh]).2 =
        "Invalid device config\n\r".toList ∧
      ((setportdevcfg Env.bare true "2000".toList "9600 bogus".toList [Port.fresh]).1 =
          [Port.fresh] ↔
        true = false ∨
          ∀ a ∈ lasts Assignment.field (written Env.bare "9600 bogus".toList),
            a.apply Port.fresh.dinfo = Port.fresh.dinfo) :=
  setportdevcfg_keeps_iff (i := 0) (by decide) rfl (by decide +kernel)

/-- After `2400 bogus` the port has 2400 baud. -/
theorem setportdevcfg_half :
    ¬ ∀ (env : Env) (strdup : Bool) (portspec devcfg : Text) (ports : List Port) (i : ℕ)
        (port : Port), find_port_by_num portspec ports = some i → ports[i]? = some port →
      (devconfig env strdup devcfg port.dinfo).2 = false →
      (setportdevcfg env strdup portspec devcfg ports).1[i]?.map Port.dinfo = some port.dinfo := by
  intro h
  have := h Env.bare true "2000".toList "2400 bogus".toList [Port.fresh] 0 Port.fresh (by decide)
    rfl (by decide +kernel)
  revert this
  decide +kernel

/-! ## What a session looks at -/

/-- The fields that the session looks at. -/
def DevInfo.view (d : DevInfo) : Ser2net.DevInfo :=
  { shortest := d.shortest
    maxAge := !(d.maxAge_sec == 0 && d.maxAge_usec == 0)
    disablebreak := d.disablebreak }

/-- What a word is for the session. -/
def option (env : Env) (pos : Text) : DevOption :=
  if (word env pos).2 then
    match (word env pos).1 with
    | [.disablebreak _] => .NOBREAK
    | [.shortest n] => .shortest (some n)
    | [.maxAge_sec sec, .maxAge_usec usec] => .maxAge (some !(sec == 0 && usec == 0))
    | _ => .other
  else .unknown

/-- Neither the bytes and the age that a session waits for nor whether it sends breaks. -/
def Assignment.quiet (a : Assignment) : Bool :=
  !([.shortest, .maxAge_sec, .maxAge_usec, .disablebreak] : List Field).contains a.field

lemma Assignment.view_apply {a : Assignment} (h : a.quiet = true) : (a.apply d).view = d.view := by
  cases a <;> first | rfl | exact Bool.noConfusion h

lemma view_assign {as : List Assignment} (h : as.all Assignment.quiet = true) :
    (assign Assignment.apply as d).view = d.view := by
  induction as generalizing d with
  | nil => rfl
  | cons a as ih =>
    rw [List.all_cons, Bool.and_eq_true] at h
    rw [assign_cons, ih h.2, Assignment.view_apply h.1]

/-- The shapes of what a word writes. -/
lemma word_cases (env : Env) (pos : Text) :
    (word env pos).1.all Assignment.quiet = true ∨
      (word env pos).2 = true ∧
        ((word env pos).1 = [.disablebreak true] ∨ (∃ n, (word env pos).1 = [.shortest n]) ∨
          ∃ sec usec, (word env pos).1 = [.maxAge_sec sec, .maxAge_usec usec]) := by
  rw [word]
  split
  · rename_i k hk
    have hkeys : ∀ k ∈ keywords, k.2.all Assignment.quiet = true ∨ k.2 = [.disablebreak true] := by
      decide
    rcases hkeys k (List.mem_of_find?_eq_some hk) with h | h
    · exact Or.inl h
    · exact Or.inr ⟨rfl, Or.inl h⟩
  · split
    · exact Or.inl rfl
    · exact Or.inl rfl
    · exact Or.inl rfl
    · split
      · exact Or.inr ⟨rfl, Or.inr (Or.inl ⟨_, rfl⟩)⟩
      · exact Or.inl rfl
    · split
      · exact Or.inr ⟨rfl, Or.inr (Or.inr ⟨_, _, rfl⟩)⟩
      · exact Or.inl rfl
    · exact Or.inl rfl

/-- The loop over a word, as the session sees it. -/
lemma view_word {l : List DevOption} : Ser2net.devconfig_loop (option env pos :: l) d.view =
    if (word env pos).2 then
      Ser2net.devconfig_loop l (assign Assignment.apply (word env pos).1 d).view
    else ((assign Assignment.apply (word env pos).1 d).view, false) := by
  rcases word_cases env pos with hquiet | ⟨hok, hbreak | ⟨n, hn⟩ | ⟨sec, usec, hage⟩⟩
  · have hopt : option env pos = if (word env pos).2 then .other else .unknown := by
      rw [option]
      split
      · split <;> first | rfl | simp_all [Assignment.quiet, Assignment.field]
      · rfl
    rw [view_assign hquiet, hopt]
    split <;> rfl
  · rw [option, if_pos hok, if_pos hok, hbreak]
    rfl
  · rw [option, if_pos hok, if_pos hok, hn]
    rfl
  · rw [option, if_pos hok, if_pos hok, hage]
    rfl

/-- The fields that a session looks at are what `EspLinux.Ser2net.devconfig` makes of them. -/
theorem devconfig_view :
    ((devconfig env true devcfg d).1.view, (devconfig env true devcfg d).2) =
      Ser2net.devconfig ((strtok_r devcfg).map (option env)) := by
  have hloop : ∀ (l : List Text) (d : DevInfo),
      ((devconfig_loop env l d).1.view, (devconfig_loop env l d).2) =
        Ser2net.devconfig_loop (l.map (option env)) d.view := by
    intro l
    induction l with
    | nil => exact fun d => rfl
    | cons pos l ih =>
      intro d
      rw [devconfig_loop, List.map_cons, view_word, ← ih]
      split <;> rfl
  rw [devconfig, if_pos rfl, hloop]
  rfl

end EspLinux.Ser2net.DevCfg
