import EspLinux.Net.DefaultRoute

/-!
# The network scripts: resolv.conf

What the scripts keep: the files `$run/resolv/<iface>`, `$run/<iface>.hosts` and
`$run/<iface>.lease`, `/etc/resolv.conf` and `/etc/hosts`, and the routing table of the
kernel.  A file is the list of its lines.
-/

namespace EspLinux.Net

open EspLinux.Lib.Words

/-- A directory of files. -/
abbrev Dir := AList fun _ : Text => List Text

/-- `/etc/hosts` as `hostsUp` writes it: the line for this host, and each `.hosts` file
that was merged behind it. -/
structure EtcHosts where
  host : Text
  merged : List (Text × List Text)

/-- The files and routes the scripts share. -/
structure State where
  /-- `$run/resolv`: the registered interfaces. -/
  resolv : Dir
  /-- `$run/*.hosts`, under the name of the interface. -/
  hosts : Dir
  /-- `$run/*.lease`, under the name of the interface. -/
  lease : AList fun _ : Text => Text
  /-- The first file of `$run/dns`, which overrides the gateway's name servers. -/
  dns : Option (List Text)
  /-- The contents of `/etc/sysconfig/gateway.priority`. -/
  priority : Option Text
  /-- `$run/resolv.dnsmasq`. -/
  resolv_dnsmasq : List Text
  /-- `/etc/resolv.conf`. -/
  resolv_conf : List Text
  /-- `/etc/hosts`. -/
  etc_hosts : EtcHosts
  /-- The routing table. -/
  table : List Route

/-- What the kernel tells a script about the interfaces while it runs. -/
structure Sys where
  /-- The contents of `/sys/class/net/<iface>/carrier`. -/
  carrier : Text → Text
  /-- The lines `ifconfig <iface>` prints. -/
  ifconfig : Text → List Text
  hostname : Text

/-- The `IFS` of a shell that calls a function of `netutils.sh`: as it started, or empty,
as `ip-up` leaves it behind a peer name. -/
inductive Ifs
  | initial
  | empty
deriving DecidableEq

def Ifs.text : Ifs → Text
  | initial => blanks
  | empty => []

/-- The variables of the shell that calls a function of `netutils.sh`. -/
structure Shell where
  ifs : Ifs
  /-- `IFNAME`. -/
  ifname : Text
  /-- What the functions' own `gateway` starts with: `local` leaves the caller's value in
  place in some shells and clears it in others. -/
  gateway : Text

/-! ## Interfaces -/

def wired (i : Text) : Bool :=
  match i with
  | 'e' :: 't' :: 'h' :: d :: _ => d.isDigit
  | _ => false

def pluggedIn (sys : Sys) (i : Text) : Bool := sys.carrier i ≠ ['0']

def notUnplugged (sys : Sys) (i : Text) : Bool := !wired i || pluggedIn sys i

def netIfIP (sys : Sys) (sh : Shell) (args : List Text) : Text :=
  let i := if args.headD [] = [] then sh.ifname else args.headD []
  let line := ((sys.ifconfig i).getD 1 []).map fun c => if c = ':' then ' ' else c
  let vars := readVars sh.ifs.text 4 line
  if vars.getD 1 [] = "addr".toList then vars.getD 2 [] else []

/-- The interface named in the header of `/etc/resolv.conf`. -/
def topIf (ifs : Text) (resolv_conf : List Text) : Option Text :=
  match resolv_conf with
  | [] => none
  | line :: _ =>
    match (readVars ifs 3 line).getD 0 [] with
    | '#' :: iface => some iface
    | _ => none

/-! ## setGateway -/

def nameserver : Text := "nameserver".toList

def updateResolv (stdin : List Text) (st : State) : State :=
  { st with
    resolv_dnsmasq := stdin
    resolv_conf := stdin.filter (fun l => !nameserver.isPrefixOf l)
      ++ ["nameserver 127.0.0.1".toList] }

/-- What `updateResolv` is fed for an interface: its file, or the file's header and the
override.  Without a name the directory itself is opened, and reads as nothing; where the
file is missing, not even the override is printed. -/
def resolvOf (st : State) (topIface : Text) : List Text :=
  match if topIface = [] then some [] else st.resolv.lookup topIface with
  | none => []
  | some lines =>
    match st.dns with
    | some dns => lines.take 1 ++ dns
    | none => lines

/-- `while route del default dev $topIface; do :; done` -/
def dropRoutes (iface : Text) (table : List Route) : List Route :=
  table.filter fun r => ¬ (r.IsDefault ∧ r.iface.1 = iface)

/-- `setGateway` with its two parameters. -/
def setGateway (ifs topIface gateway : Text) (st : State) : State :=
  let st := updateResolv (resolvOf st topIface) st
  if topIface = [] then st
  else if gateway ≠ [] then { st with table := replaceRoutes ifs topIface gateway st.table }
  else { st with table := dropRoutes topIface st.table }

/-! ## What setGateway leaves -/

variable {ifs topIface gateway : Text}

@[simp] lemma setGateway_resolv (st : State) :
    (setGateway ifs topIface gateway st).resolv = st.resolv := by
  rw [setGateway]
  split <;> [rfl; (split <;> rfl)]

@[simp] lemma setGateway_hosts (st : State) :
    (setGateway ifs topIface gateway st).hosts = st.hosts := by
  rw [setGateway]
  split <;> [rfl; (split <;> rfl)]

@[simp] lemma setGateway_priority (st : State) :
    (setGateway ifs topIface gateway st).priority = st.priority := by
  rw [setGateway]
  split <;> [rfl; (split <;> rfl)]

lemma setGateway_resolv_conf (st : State) :
    (setGateway ifs topIface gateway st).resolv_conf =
      (updateResolv (resolvOf st topIface) st).resolv_conf := by
  rw [setGateway]
  split <;> [rfl; (split <;> rfl)]

lemma setGateway_table_of_gateway (h : topIface ≠ []) (hg : gateway ≠ []) (st : State) :
    (setGateway ifs topIface gateway st).table = replaceRoutes ifs topIface gateway st.table := by
  rw [setGateway, if_neg h, if_pos hg]
  rfl

lemma setGateway_table_of_none (h : topIface ≠ []) (st : State) :
    (setGateway ifs topIface [] st).table = dropRoutes topIface st.table := by
  rw [setGateway, if_neg h, if_neg (by simp)]
  rfl

/-! ### The default routes -/

variable {table : List Route} {i g : Token} {q : Token × Token}

lemma mem_defaults_dropRoutes :
    q ∈ defaults (dropRoutes topIface table) ↔ q ∈ defaults table ∧ q.2.1 ≠ topIface := by
  simp only [defaults, dropRoutes, List.mem_map, List.mem_filter, decide_eq_true_eq]
  constructor
  · rintro ⟨r, ⟨⟨hr, hkeep⟩, hd⟩, rfl⟩
    exact ⟨⟨r, ⟨hr, hd⟩, rfl⟩, fun hi => hkeep ⟨hd, hi⟩⟩
  · rintro ⟨⟨r, ⟨hr, hd⟩, rfl⟩, hne⟩
    exact ⟨r, ⟨⟨hr, fun hc => hne hc.2⟩, hd⟩, rfl⟩

/-- The default routes left are those through the wanted gateway and interface, unless a
masked route stood in for it. -/
theorem mem_defaults_replaceRoutes :
    q ∈ defaults (replaceRoutes blanks i.1 g.1 table) ↔
      q = (g, i) ∧ ((g, i) ∈ defaults table ∨ (g, i) ∉ masked table) := by
  rw [← List.count_pos_iff, count_replaceRoutes]
  by_cases hq : q = (g, i)
  · rw [if_pos hq, hq]
    by_cases hd : (g, i) ∈ defaults table
    · have hpos := List.count_pos_iff.mpr hd
      simp only [hd, true_or, and_true, iff_true]
      omega
    · have hline : (g, i) ∈ zeroLines table ↔ (g, i) ∈ masked table := by
        rw [mem_zeroLines, or_iff_right hd]
      rw [List.count_eq_zero.mpr hd]
      by_cases hm : (g, i) ∈ masked table
      · simp [hline, hm, hd]
      · simp [hline, hm]
  · rw [if_neg hq]
    simp [hq]

/-- A gateway with a slash in it is no address: it is not added, and every line is
deleted. -/
lemma defaults_replaceRoutes_slash {gw : Text} (hw : IsWord gw) (hslash : '/' ∈ gw) :
    defaults (replaceRoutes blanks i.1 gw table) = [] := by
  have hne : ∀ r : Route, ¬ (r.iface.1 = i.1 ∧ r.gateway.1 = gw) := fun r hr =>
    r.gateway.2.2 (hr.2 ▸ hslash)
  have hcmds : routeCmds blanks i.1 gw table = addArgs blanks gw i.1 ::
      (zeroLines table).map fun p => (RouteCmd.del p.1 p.2).args := by
    have hall : (table.filter (·.dest = zeros)).filter
        (fun r => ¬ (r.iface.1 = i.1 ∧ r.gateway.1 = gw)) = table.filter (·.dest = zeros) :=
      List.filter_eq_self.mpr fun r _ => decide_eq_true (hne r)
    have hdel : (table.filter (·.dest = zeros)).flatMap (fun r => ' ' :: spell r.pair) =
        ((zeroLines table).map spell).flatMap fun w => ' ' :: w := by
      rw [zeroLines, List.map_map, List.flatMap_map]
      rfl
    have hwords : ∀ w ∈ (zeroLines table).map spell, IsWord w := by
      intro w hm
      obtain ⟨p, -, rfl⟩ := List.mem_map.mp hm
      exact isWord_spell p
    have hno : ¬ ∃ r ∈ table.filter (·.dest = zeros), r.iface.1 = i.1 ∧ r.gateway.1 = gw := by
      rintro ⟨r, -, hr⟩
      exact hne r hr
    rw [routeCmds, grepDefault_route_n, foldl_scanLine, hall, List.nil_append, hdel, if_neg hno]
    simp only [if_neg hw.1, split_words hwords, List.map_map]
    exact congrArg _ (List.map_congr_left fun p _ => delArgs_spell p)
  have hadd : tryRoute table (addArgs blanks gw i.1, true) = table := by
    have hparse : RouteCmd.parse (addArgs blanks gw i.1) = none := by
      rw [addArgs, split_blanks hw, split_blanks i.2.1]
      exact RouteCmd.parse_of_not_token fun hc => hc.2 hslash
    rw [tryRoute, hparse]
  have hdels : ((zeroLines table).map fun p => (RouteCmd.del p.1 p.2).args).map (·, true) =
      (((zeroLines table).map fun p => RouteCmd.del p.1 p.2).map RouteCmd.args).map (·, true) := by
    rw [List.map_map, List.map_map, List.map_map]
    rfl
  refine List.eq_nil_iff_forall_not_mem.mpr fun p hp => ?_
  have hfst : (((zeroLines table).map fun p => (RouteCmd.del p.1 p.2).args).map (·, true)).map
      Prod.fst = (zeroLines table).map fun p => (RouteCmd.del p.1 p.2).args := by
    rw [List.map_map]
    exact List.map_id _
  have hinj : Function.Injective fun p : Token × Token => RouteCmd.del p.1 p.2 := by
    intro p p' h
    obtain ⟨h₁, h₂⟩ := RouteCmd.del.inj h
    exact Prod.ext h₁ h₂
  have hcount := count_tryRoutes_dels hfst p table
  rw [hdels, succeeded_all,
    List.count_map_of_injective _ (fun p : Token × Token => RouteCmd.del p.1 p.2) hinj p] at hcount
  rw [replaceRoutes, hcmds, List.map_cons, tryRoutes, List.foldl_cons, hadd, ← tryRoutes, hdels] at hp
  have hle := count_defaults_le table p
  have hpos := List.count_pos_iff.mpr hp
  omega

/-- The default routes left, for any word as the gateway. -/
theorem mem_defaults_replaceRoutes_word {gw : Text} (hw : IsWord gw) :
    q ∈ defaults (replaceRoutes blanks i.1 gw table) ↔
      q.2 = i ∧ q.1.1 = gw ∧ (q ∈ defaults table ∨ q ∉ masked table) := by
  by_cases hslash : '/' ∈ gw
  · rw [defaults_replaceRoutes_slash hw hslash]
    refine iff_of_false List.not_mem_nil ?_
    rintro ⟨-, hg, -⟩
    exact q.1.2.2 (hg ▸ hslash)
  · obtain ⟨t, rfl⟩ : ∃ t : Token, t.1 = gw := ⟨⟨gw, hw, hslash⟩, rfl⟩
    rw [mem_defaults_replaceRoutes, Prod.ext_iff, ← Subtype.ext_iff]
    constructor
    · rintro ⟨⟨rfl, rfl⟩, h⟩
      exact ⟨rfl, rfl, h⟩
    · rintro ⟨rfl, rfl, h⟩
      exact ⟨⟨rfl, rfl⟩, h⟩

lemma mem_others_zero {r : Route} (h : Plain table) (hr : r ∈ others table) : r.dest ≠ zeros := by
  obtain ⟨hr, hd⟩ := List.mem_filter.mp hr
  exact fun hz => (of_decide_eq_true hd) (h r hr hz)

/-- Where only default routes have no destination, nothing stands in for them. -/
lemma masked_eq_nil (h : Plain table) : masked table = [] := by
  rw [masked, List.map_eq_nil_iff, List.filter_eq_nil_iff]
  intro r hr
  simpa using mem_others_zero h hr

/-- Lines read with an empty `IFS` have neither gateway nor interface, and no command made
of them is one. -/
lemma replaceRoutes_empty (h : topIface ≠ []) :
    replaceRoutes [] topIface (' ' :: gateway) table = table := by
  have hfold : ∀ (ls : List Text) (add del : Text), (∀ c ∈ del, c = ' ' ∨ c = '/') →
      ∃ del', ls.foldl (scanLine [] topIface (' ' :: gateway)) (add, del) = (add, del') ∧
        ∀ c ∈ del', c = ' ' ∨ c = '/' := by
    intro ls
    induction ls with
    | nil => exact fun add del hdel => ⟨del, rfl, hdel⟩
    | cons l ls ih =>
      intro add del hdel
      have hscan : scanLine [] topIface (' ' :: gateway) (add, del) l = (add, del ++ [' ', '/']) := by
        simp only [scanLine, readVars_empty]
        rw [if_neg]
        · rfl
        · rintro ⟨hi, -⟩
          exact h hi.symm
      rw [List.foldl_cons, hscan]
      refine ih _ _ fun c hc => ?_
      rcases List.mem_append.mp hc with hc | hc
      · exact hdel c hc
      · simpa using hc
  obtain ⟨del, hdel, hchars⟩ := hfold (grepDefault (route_n table)) (' ' :: gateway) [] (by simp)
  have hadd : RouteCmd.parse (addArgs [] (' ' :: gateway) topIface) = none := by
    have hword : ¬ IsWord (' ' :: gateway) := fun hw => hw.2 ' ' (by simp) (by decide)
    rw [addArgs, split_empty (by simp), split_empty h]
    exact RouteCmd.parse_of_not_token fun hc => hword hc.1
  have hdels : RouteCmd.parse (delArgs del) = none := by
    have hblank : ∀ n, split blanks ((split ['/'] del).getD n []) = [] := by
      intro n
      refine split_eq_nil ?_
      rcases hn : (split ['/'] del)[n]? with _ | w
      · rw [List.getD, hn]
        intro c hc
        cases hc
      · rw [List.getD, hn]
        refine fields_forall (fun c hc hslash => ?_) (fun c hc => by cases hc) w (List.mem_of_getElem? hn)
        rcases hchars c hc with rfl | rfl
        · decide
        · exact absurd (List.mem_singleton_self _) hslash
    simp only [delArgs, hblank]
    rfl
  have hnone : ∀ cmd ∈ routeCmds [] topIface (' ' :: gateway) table, RouteCmd.parse cmd = none := by
    intro cmd hcmd
    rw [routeCmds, hdel] at hcmd
    simp only [List.mem_append, List.mem_map] at hcmd
    rcases hcmd with hcmd | ⟨w, hw, rfl⟩
    · rw [if_neg (List.cons_ne_nil _ _)] at hcmd
      exact List.mem_singleton.mp hcmd ▸ hadd
    · by_cases hnil : del = []
      · rw [hnil] at hw
        exact absurd hw List.not_mem_nil
      · rw [split_empty hnil] at hw
        exact List.mem_singleton.mp hw ▸ hdels
  rw [replaceRoutes]
  generalize routeCmds [] topIface (' ' :: gateway) table = cmds at hnone
  induction cmds with
  | nil => rfl
  | cons cmd cmds ih =>
    have hstep : tryRoute table (cmd, true) = table := by
      rw [tryRoute, hnone cmd List.mem_cons_self]
    rw [List.map_cons, tryRoutes, List.foldl_cons, hstep]
    exact ih fun c hc => hnone c (List.mem_cons_of_mem cmd hc)

/-! ### The header of resolv.conf -/

/-- The header line of a registered interface. -/
def IsHeader (i : Text) (line : Text) : Prop := (readTwo blanks line).1 = '#' :: i

lemma not_nameserver_of_hash {line i : Text} (h : IsHeader i line) :
    nameserver.isPrefixOf line = false := by
  rcases line with _ | ⟨c, line⟩
  · rfl
  · by_contra hpre
    have hn : nameserver = 'n' :: "ameserver".toList := by decide
    rw [Bool.not_eq_false, hn, List.isPrefixOf_iff_prefix, List.cons_prefix_cons] at hpre
    obtain rfl : 'n' = c := hpre.1
    have hfst := readTwo_fst blanks ('n' :: line)
    rw [h, List.dropWhile_cons_of_neg (by decide), List.takeWhile_cons_of_pos (by decide)] at hfst
    exact absurd (List.cons.inj hfst).1 (by decide)

/-- `topIf` names the interface whose header comes first. -/
lemma topIf_header {line i : Text} {lines : List Text} (h : IsHeader i line) :
    topIf blanks (line :: lines) = some i := by
  have hread : (readVars blanks 3 line).getD 0 [] = (readTwo blanks line).1 := rfl
  simp only [topIf]
  rw [hread, h]
  rfl

/-- Where the file fed to `updateResolv` starts with an interface's header, so does
`/etc/resolv.conf`. -/
theorem topIf_updateResolv {line i : Text} {lines : List Text} (h : IsHeader i line)
    (st : State) :
    topIf blanks (updateResolv (line :: lines) st).resolv_conf = some i := by
  have hkeep : (!nameserver.isPrefixOf line) = true := by simp [not_nameserver_of_hash h]
  simp only [updateResolv]
  rw [List.filter_cons_of_pos (by exact hkeep), List.cons_append]
  exact topIf_header h

end EspLinux.Net
