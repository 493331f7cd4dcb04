import EspLinux.Lib.Run
import EspLinux.Net.Resolv

/-!
# The network scripts: masquerading the tunnel

The site's `gateUpdated` keeps one MASQUERADE rule for the top interface, and in
`$run/tunGate` the interface that rule is for.  It runs in the shell of whichever script
changed the gateway, so that the shell's `IFS` and its working directory have a say in
what an unquoted variable comes to.
-/

namespace EspLinux.Net

open EspLinux.Lib EspLinux.Lib.Words

/-- The shell that calls `gateUpdated`. -/
structure Caller where
  ifs : Ifs
  /-- What pathname expansion makes of a word in the working directory. -/
  pathnames : Text → List Text

/-- What `gateUpdated` reads and writes. -/
structure Tunnel where
  /-- The contents of `/etc/resolv.conf`, if it exists. -/
  resolv_conf : Option Text
  /-- The line in `$run/tunGate`, if it exists. -/
  tunGate : Option Text
  /-- The interfaces of the MASQUERADE rules in the chain POSTROUTING. -/
  rules : List Text
deriving DecidableEq

/-- An option of `echo`. -/
def isOption (w : Text) : Bool :=
  match w with
  | '-' :: c :: s => (c :: s).all fun d => "neE".toList.contains d
  | _ => false

/-- The line `echo` prints, less its options. -/
def echo (args : List Text) : Text := [' '].intercalate (args.dropWhile isOption)

lemma echo_option {w : Text} (h : isOption w = true) : echo [w] = [] := by
  rw [echo, List.dropWhile_cons_of_pos h]
  rfl

lemma echo_plain {w : Text} (h : isOption w = false) : echo [w] = w := by
  rw [echo, List.dropWhile_cons_of_neg (by simp [h])]
  simp [List.intercalate]

/-- The operations of `masquerade`. -/
inductive Operation
  | A
  | D

/-- `iptables -t nat $1 POSTROUTING -o $2 -j MASQUERADE`, given the words of `$2`.  With
more than one word or none the command is malformed. -/
def iptables (operation : Operation) (out : List Text) (rules : List Text) : List Text :=
  match out with
  | [g] =>
    match operation with
    | .A => rules ++ [g]
    | .D => rules.erase g
  | _ => rules

namespace Caller

variable (c : Caller)

/-- An unquoted variable. -/
def words (s : Text) : List Text := (split c.ifs.text s).flatMap c.pathnames

/-- What `topIf` prints, where it succeeds. -/
def topIf (resolv_conf : Option Text) : Option Text :=
  match resolv_conf with
  | none => none
  | some file =>
    let (line, ended, _) := readLine file
    if ended then
      match (readVars c.ifs.text 3 line).getD 0 [] with
      | '#' :: iface => some (echo (c.words iface))
      | _ => none
    else none

/-- `masquerade <operation> $gate` -/
def masquerade (operation : Operation) (gate : Text) (rules : List Text) : List Text :=
  let output := (c.words gate).headD []
  iptables operation (c.words output) rules

end Caller

/-- `gateUpdated` of the site. -/
def gateUpdated (c : Caller) (st : Tunnel) : Tunnel :=
  let tunGate := match st.tunGate with
    | none => []
    | some line => trim c.ifs.text line
  let removed := if tunGate = [] then st.rules else c.masquerade .D tunGate st.rules
  match c.topIf st.resolv_conf with
  | some gate =>
    if tunGate = gate then st
    else { st with tunGate := some (echo [gate]), rules := c.masquerade .A gate removed }
  | none => { st with tunGate := none, rules := removed }

/-- What happens to the tunnel. -/
inductive TunnelEvent
  /-- `/etc/resolv.conf` is changed in any way. -/
  | write (resolv_conf : Option Text)
  | gateUpdated (c : Caller)

def Tunnel.step (st : Tunnel) : TunnelEvent → Option Tunnel
  | .write resolv_conf => some { st with resolv_conf := resolv_conf }
  | .gateUpdated c => some (Net.gateUpdated c st)

/-- The tunnel goes out through the top interface, and nowhere if there is none. -/
structure Carried (c : Caller) (st : Tunnel) : Prop where
  top : ∀ g, c.topIf st.resolv_conf = some g → g ≠ [] → st.tunGate = some g ∧ st.rules = [g]
  none : c.topIf st.resolv_conf = none → st.tunGate = none ∧ st.rules = []

/-- To its caller the name of the top interface is one word, and that and the name kept
are what they are unquoted. -/
structure Spelt (c : Caller) (st : Tunnel) : Prop where
  top : ∀ g, c.topIf st.resolv_conf = some g → g ≠ [] → IsWord g ∧ c.pathnames g = [g]
  kept : ∀ g, st.tunGate = some g → g ≠ [] → c.pathnames g = [g]

/-- The condition on a run: whoever calls `gateUpdated` spells the names out. -/
def Spells (st : Tunnel) : TunnelEvent → Prop
  | .write _ => True
  | .gateUpdated c => Spelt c st

/-! ## Names that are words -/

variable {c : Caller} {g : Text} {st : Tunnel}

lemma trim_ifs (ifs : Ifs) (hg : IsWord g) : trim ifs.text g = g := by
  rcases ifs with _ | _
  · exact trim_word hg
  · rw [Ifs.text, trim, white_empty]
    have hdrop : g.dropWhile (fun _ => false) = g := by
      rcases g with _ | ⟨d, g⟩
      · rfl
      · rfl
    rw [hdrop]
    exact List.rdropWhile_eq_self_iff.mpr fun _ => by simp

lemma words_of_word (hg : IsWord g) (hpath : c.pathnames g = [g]) : c.words g = [g] := by
  have hsplit : split c.ifs.text g = [g] := by
    rcases c.ifs with _ | _
    · exact split_blanks hg
    · exact split_empty hg.1
  rw [Caller.words, hsplit, List.flatMap_singleton, hpath]

lemma masquerade_word (hg : IsWord g) (hpath : c.pathnames g = [g]) (operation : Operation)
    (rules : List Text) : c.masquerade operation g rules = iptables operation [g] rules := by
  simp only [Caller.masquerade, words_of_word hg hpath, List.headD_cons]

/-- A word that `echo` has printed is no option of it. -/
lemma echo_echo {args : List Text} (hword : IsWord (echo args)) : echo [echo args] = echo args := by
  rw [echo] at hword
  rcases hargs : args.dropWhile isOption with _ | ⟨w, rest⟩
  · rw [hargs] at hword
    exact absurd rfl hword.1
  · have hw : isOption w = false := by
      have := List.head_dropWhile_not isOption (l := args) (by rw [hargs]; exact List.cons_ne_nil _ _)
      simpa [hargs] using this
    rcases rest with _ | ⟨v, rest⟩
    · have hprint : echo args = w := by
        rw [echo, hargs]
        simp [List.intercalate]
      rw [hprint, echo_plain hw]
    · refine absurd ?_ (hword.2 ' ' ?_)
      · decide
      · rw [hargs]
        simp [List.intercalate]

/-- What `topIf` prints is what `echo "$gate"` prints of it. -/
lemma echo_topIf (htop : c.topIf st.resolv_conf = some g) (hword : IsWord g) : echo [g] = g := by
  rcases hfile : st.resolv_conf with _ | file
  · rw [hfile] at htop
    cases htop
  · rw [hfile] at htop
    simp only [Caller.topIf] at htop
    split at htop
    · split at htop
      · obtain rfl := Option.some.inj htop
        exact echo_echo hword
      · cases htop
    · cases htop

/-! ## The rule and the file -/

/-- The file names the interface of the only rule, or there is neither. -/
def InStep (st : Tunnel) : Prop :=
  ((st.tunGate = none ∨ st.tunGate = some []) ∧ st.rules = []) ∨
    ∃ g, IsWord g ∧ st.tunGate = some g ∧ st.rules = [g]

/-- What `gateUpdated` finds of a rule and a file in step: the name, and no rule once that
of the name is deleted. -/
lemma InStep.kept (h : InStep st) (hc : Spelt c st) :
    ∃ name, (match st.tunGate with | none => [] | some line => trim c.ifs.text line) = name ∧
      (if name = [] then st.rules else c.masquerade .D name st.rules) = [] ∧
      (name ≠ [] → IsWord name ∧ st.tunGate = some name ∧ st.rules = [name]) := by
  rcases h with ⟨hfile, hrules⟩ | ⟨g, hg, hfile, hrules⟩
  · refine ⟨[], ?_, ?_, fun h => absurd rfl h⟩
    · rcases hfile with hfile | hfile
      · rw [hfile]
      · rw [hfile]
        rfl
    · rw [if_pos rfl, hrules]
  · refine ⟨g, ?_, ?_, fun _ => ⟨hg, hfile, hrules⟩⟩
    · rw [hfile]
      exact trim_ifs c.ifs hg
    · rw [if_neg hg.1, masquerade_word hg (hc.kept g hfile hg.1), hrules, iptables]
      exact List.erase_cons_head g []

/-- One call keeps rule and file in step, and leaves both with the top interface. -/
lemma gateUpdated_carried (h : InStep st) (hc : Spelt c st) :
    InStep (gateUpdated c st) ∧ Carried c (gateUpdated c st) := by
  obtain ⟨name, hname, hremoved, hkept⟩ := h.kept hc
  rcases htop : c.topIf st.resolv_conf with _ | gate
  · have hcall : gateUpdated c st = { st with tunGate := none, rules := [] } := by
      simp only [gateUpdated, htop, hname, hremoved]
    rw [hcall]
    refine ⟨.inl ⟨.inl rfl, rfl⟩, ⟨fun g hg => ?_, fun _ => ⟨rfl, rfl⟩⟩⟩
    have hnone : some g = none := hg.symm.trans htop
    cases hnone
  · by_cases hsame : name = gate
    · have hcall : gateUpdated c st = st := by
        simp only [gateUpdated, htop, hname, if_pos hsame]
      rw [hcall]
      refine ⟨h, ⟨fun g hg hne => ?_, fun hnone => ?_⟩⟩
      · obtain rfl : g = gate := Option.some.inj (hg.symm.trans htop)
        obtain ⟨-, hfile, hrules⟩ := hkept (hsame ▸ hne)
        exact hsame ▸ ⟨hfile, hrules⟩
      · rw [htop] at hnone
        cases hnone
    · have hcall : gateUpdated c st =
          { st with tunGate := some (echo [gate]), rules := c.masquerade .A gate [] } := by
        simp only [gateUpdated, htop, hname, hremoved, if_neg hsame]
      by_cases hne : gate = []
      · -- a header without a name leaves an empty line and no rule
        subst hne
        rw [hcall]
        refine ⟨.inl ⟨.inr rfl, rfl⟩, ⟨fun g hg hne => ?_, fun hnone => ?_⟩⟩
        · exact absurd (Option.some.inj (hg.symm.trans htop)) hne
        · have : some [] = none := htop.symm.trans hnone
          cases this
      · obtain ⟨hword, hpath⟩ := hc.top gate htop hne
        rw [hcall, echo_topIf htop hword, masquerade_word hword hpath]
        refine ⟨.inr ⟨gate, hword, rfl, rfl⟩, ⟨fun g hg _ => ?_, fun hnone => ?_⟩⟩
        · obtain rfl : g = gate := Option.some.inj (hg.symm.trans htop)
          exact ⟨rfl, rfl⟩
        · have : some gate = none := htop.symm.trans hnone
          cases this

/-- From no rule and no file, rule and file stay in step. -/
lemma reach_inStep {resolv_conf : Option Text}
    (h : Reach Tunnel.step Spells ⟨resolv_conf, none, []⟩ st) : InStep st := by
  refine h.induction_on (.inl ⟨.inl rfl, rfl⟩) ?_
  rintro st (resolv_conf | c) st' hin hok hstep
  · obtain rfl := Option.some.inj hstep
    exact hin
  · obtain rfl := Option.some.inj hstep
    exact (gateUpdated_carried hin hok).1

/-- Over any run of calls and changes of `resolv.conf` in which the names are spelt out,
each call leaves the one rule and the file with the top interface. -/
theorem gateUpdated_carries (resolv_conf : Option Text)
    (h : Reach Tunnel.step Spells ⟨resolv_conf, none, []⟩ st) (hc : Spelt c st) :
    Carried c (gateUpdated c st) :=
  (gateUpdated_carried (reach_inStep h) hc).2

/-- A shell in a directory where no name is a pattern for another. -/
def Caller.plain (ifs : Ifs) : Caller := ⟨ifs, fun w => [w]⟩

/-- A shell with the `IFS` it started with spells every header out. -/
lemma spelt_initial (st : Tunnel) : Spelt (Caller.plain .initial) st := by
  refine ⟨fun g hg hne => ⟨?_, rfl⟩, fun g _ _ => rfl⟩
  rcases hfile : st.resolv_conf with _ | file
  · rw [hfile] at hg
    cases hg
  rw [hfile] at hg
  simp only [Caller.topIf] at hg
  split at hg
  · split at hg
    · rename_i iface hread
      obtain rfl := Option.some.inj hg
      have hfree : ∀ d ∈ iface, d ∉ blanks := fun d hd hblank => by
        have hmem : d ∈ (readTwo blanks (readLine file).1).1 := by
          show d ∈ (readVars blanks 3 (readLine file).1).getD 0 []
          exact hread ▸ List.mem_cons_of_mem _ hd
        have hwhite := not_white_of_mem_readTwo hmem
        rw [white_blanks.mpr hblank] at hwhite
        cases hwhite
      by_cases hnil : iface = []
      · rw [hnil] at hne
        exact absurd rfl hne
      · have hwords : (Caller.plain .initial).words iface = [iface] :=
          words_of_word ⟨hnil, hfree⟩ rfl
        rw [hwords, echo] at hne ⊢
        by_cases hopt : isOption iface = true
        · rw [List.dropWhile_cons_of_pos hopt] at hne
          exact absurd rfl hne
        · rw [List.dropWhile_cons_of_neg hopt]
          simpa [List.intercalate] using ⟨hnil, hfree⟩
    · cases hg
  · cases hg

/-- The header of a ppp link, and then that of `eth0`. -/
theorem gateUpdated_carries_two :
    Carried (Caller.plain .initial) (gateUpdated (Caller.plain .initial)
      ⟨some "#eth0 10.0.0.1\n".toList, some ppp0.1, [ppp0.1]⟩) :=
  gateUpdated_carries (some "#ppp0 10.64.0.1\n".toList)
    ((Reach.init.step (e := TunnelEvent.gateUpdated (Caller.plain .initial)) (spelt_initial _) rfl).step
      (e := TunnelEvent.write (some "#eth0 10.0.0.1\n".toList)) trivial rfl)
    (spelt_initial _)

/-- `ip-up` with a peer name takes the whole header for a name, and the rule it adds is
never deleted. -/
theorem stale_rule :
    ∃ st, replay Tunnel.step ⟨some "#ppp0 10.64.0.1\n".toList, none, []⟩
        [.gateUpdated (Caller.plain .empty), .gateUpdated (Caller.plain .initial)] = some st ∧
      st.rules = ["ppp0 10.64.0.1".toList, ppp0.1] ∧ ¬ Carried (Caller.plain .initial) st := by
  refine ⟨_, rfl, by decide, fun h => ?_⟩
  obtain ⟨-, hrules⟩ := h.top ppp0.1 (by decide) (by decide)
  exact absurd hrules (by decide)

end EspLinux.Net
