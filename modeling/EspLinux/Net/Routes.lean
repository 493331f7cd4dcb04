import EspLinux.Lib.Words

/-!
# The network scripts: replacing the default routes

`setGateway` reads the routing table off `route -n` as text.  One loop over the lines that
start with `0.0.0.0` both looks for the wanted route and collects the others in `del`, as
words `<gateway>/<interface>` that a second loop takes apart again.  What comes out is a
list of `route` commands, each of which may fail.
-/

namespace EspLinux.Net

open EspLinux.Lib.Words

/-- A column of the routing table: the name of an interface or an address. -/
abbrev Token := {w : Text // IsWord w ∧ '/' ∉ w}

/-- A route, with the columns `route -n` prints. -/
structure Route where
  dest : Token
  gateway : Token
  genmask : Token
  flags : Token
  metric : Token
  ref : Token
  use : Token
  iface : Token
deriving DecidableEq

def zeros : Token := ⟨"0.0.0.0".toList, by decide⟩

namespace Route

/-- A default route has neither a destination nor a mask. -/
def IsDefault (r : Route) : Prop := r.dest = zeros ∧ r.genmask = zeros

instance (r : Route) : Decidable r.IsDefault := inferInstanceAs (Decidable (_ ∧ _))

/-- The route's line in `route -n`, less the padding of the columns. -/
def line (r : Route) : Text :=
  r.dest.1 ++ ' ' :: (r.gateway.1 ++ ' ' :: (r.genmask.1 ++ ' ' :: (r.flags.1 ++ ' ' ::
    (r.metric.1 ++ ' ' :: (r.ref.1 ++ ' ' :: (r.use.1 ++ ' ' :: r.iface.1))))))

/-- The route `route add default gw <gateway> dev <iface>` makes. -/
def default (gateway iface : Token) : Route where
  dest := zeros
  gateway := gateway
  genmask := zeros
  flags := ⟨"UG".toList, by decide⟩
  metric := ⟨"0".toList, by decide⟩
  ref := ⟨"0".toList, by decide⟩
  use := ⟨"0".toList, by decide⟩
  iface := iface

/-- The pair a route is told by in `route del`. -/
def pair (r : Route) : Token × Token := (r.gateway, r.iface)

end Route

/-- The pairs of the default routes of a table. -/
def defaults (table : List Route) : List (Token × Token) :=
  (table.filter (·.IsDefault)).map Route.pair

/-- The pairs of the routes whose line starts with `0.0.0.0 `. -/
def zeroLines (table : List Route) : List (Token × Token) :=
  (table.filter (·.dest = zeros)).map Route.pair

/-- No route has the destination `0.0.0.0` but the default routes. -/
def Plain (table : List Route) : Prop := ∀ r ∈ table, r.dest = zeros → r.IsDefault

instance (table : List Route) : Decidable (Plain table) :=
  inferInstanceAs (Decidable (∀ r ∈ table, r.dest = zeros → r.IsDefault))

/-! ## The kernel's side -/

/-- `route add default gw g dev d` and `route del default gw g dev d`. -/
inductive RouteCmd
  | add (g d : Token)
  | del (g d : Token)
deriving DecidableEq

namespace RouteCmd

def args : RouteCmd → List Text
  | add g d => ["add".toList, "default".toList, "gw".toList, g.1, "dev".toList, d.1]
  | del g d => ["del".toList, "default".toList, "gw".toList, g.1, "dev".toList, d.1]

/-- The command the arguments of `route` make, or none where `route` rejects them. -/
def parse (args : List Text) : Option RouteCmd :=
  match args with
  | [op, net, gw, g, dev, d] =>
    if h : (IsWord g ∧ '/' ∉ g) ∧ (IsWord d ∧ '/' ∉ d) then
      let add := RouteCmd.add ⟨g, h.1⟩ ⟨d, h.2⟩
      let del := RouteCmd.del ⟨g, h.1⟩ ⟨d, h.2⟩
      if [op, net, gw, dev] = ["add".toList, "default".toList, "gw".toList, "dev".toList] then
        some add
      else if [op, net, gw, dev] = ["del".toList, "default".toList, "gw".toList, "dev".toList] then
        some del
      else none
    else none
  | _ => none

/-- What a command that succeeds does to the table. -/
def run : RouteCmd → List Route → List Route
  | add g d, table => table ++ [Route.default g d]
  | del g d, table => table.eraseP fun r => decide (r.IsDefault ∧ r.pair = (g, d))

end RouteCmd

/-- One `route` command, and whether it succeeds.  Arguments that make no command never
do. -/
def tryRoute (table : List Route) (tried : List Text × Bool) : List Route :=
  match RouteCmd.parse tried.1 with
  | some c => if tried.2 then c.run table else table
  | none => table

/-- A list of `route` commands with their outcomes. -/
def tryRoutes (tried : List (List Text × Bool)) (table : List Route) : List Route :=
  tried.foldl tryRoute table

/-! ## The script -/

def route_n (table : List Route) : List Text :=
  "Kernel IP routing table".toList ::
    "Destination Gateway Genmask Flags Metric Ref Use Iface".toList :: table.map Route.line

/-- `grep "^0\.0\.0\.0 "` -/
def grepDefault (lines : List Text) : List Text :=
  lines.filter fun l => "0.0.0.0 ".toList.isPrefixOf l

/-- The body of the loop over the lines, on the variables `add` and `del`. -/
def scanLine (ifs topIface gateway : Text) (vars : Text × Text) (line : Text) : Text × Text :=
  let (add, del) := vars
  let fields := readVars ifs 9 line
  let gateIP := fields.getD 1 []
  let iface := fields.getD 7 []
  if iface = topIface ∧ gateIP = gateway then ([], del)
  else (add, del ++ ' ' :: (gateIP ++ '/' :: iface))

/-- `IFS=/; set -- $oldGate; unset IFS` and the arguments of the deletion. -/
def delArgs (oldGate : Text) : List Text :=
  let params := split ['/'] oldGate
  ["del".toList, "default".toList, "gw".toList] ++ split blanks (params.getD 0 []) ++
    ["dev".toList] ++ split blanks (params.getD 1 [])

def addArgs (ifs add topIface : Text) : List Text :=
  ["add".toList, "default".toList, "gw".toList] ++ split ifs add ++
    ["dev".toList] ++ split ifs topIface

/-- The commands `setGateway` gives for an interface and a gateway, in their order. -/
def routeCmds (ifs topIface gateway : Text) (table : List Route) : List (List Text) :=
  let (add, del) :=
    (grepDefault (route_n table)).foldl (scanLine ifs topIface gateway) (gateway, [])
  (if add = [] then [] else [addArgs ifs add topIface]) ++ (split ifs del).map delArgs

/-- The table after the commands, where each that can succeed does. -/
def replaceRoutes (ifs topIface gateway : Text) (table : List Route) : List Route :=
  tryRoutes ((routeCmds ifs topIface gateway table).map (·, true)) table

/-! ## The table as text -/

lemma Token.blanks_free (t : Token) : ∀ c ∈ t.1, c ∉ blanks := t.2.1.2

lemma readVars_line (r : Route) :
    readVars blanks 9 r.line =
      [r.dest.1, r.gateway.1, r.genmask.1, r.flags.1, r.metric.1, r.ref.1, r.use.1, r.iface.1, []] := by
  have hlast : readVars blanks 2 r.iface.1 = [r.iface.1, []] := by
    have h := readVars_word r.iface.2.1 0 (s := []) (by simp)
    rw [List.append_nil] at h
    rw [h]
    rfl
  rw [Route.line, readVars_word_blank r.dest.2.1, readVars_word_blank r.gateway.2.1,
    readVars_word_blank r.genmask.2.1, readVars_word_blank r.flags.2.1,
    readVars_word_blank r.metric.2.1, readVars_word_blank r.ref.2.1,
    readVars_word_blank r.use.2.1, hlast]

/-- A word and a blank at the front of a line tell the word. -/
lemma prefix_blank_iff {v w s : Text} (hv : ∀ c ∈ v, c ≠ ' ') (hw : ∀ c ∈ w, c ≠ ' ') :
    v ++ [' '] <+: w ++ ' ' :: s ↔ v = w := by
  induction v generalizing w with
  | nil =>
    rcases w with _ | ⟨c, w⟩
    · simp
    · have hc : c ≠ ' ' := hw c (by simp)
      simp [List.cons_prefix_cons, Ne.symm hc]
  | cons c v ih =>
    have hc : c ≠ ' ' := hv c (by simp)
    rcases w with _ | ⟨d, w⟩
    · simp [List.cons_prefix_cons, hc]
    · have htail : ∀ e ∈ v, e ≠ ' ' := fun e he => hv e (List.mem_cons_of_mem c he)
      have htail' : ∀ e ∈ w, e ≠ ' ' := fun e he => hw e (List.mem_cons_of_mem d he)
      rw [List.cons_append, List.cons_append, List.cons_prefix_cons, ih htail htail',
        List.cons.injEq]

lemma ne_blank_of_token (t : Token) : ∀ c ∈ t.1, c ≠ ' ' := by
  rintro c hc rfl
  exact t.blanks_free _ hc (by decide)

/-- `grep` keeps the routes without a destination. -/
lemma grepDefault_route_n (table : List Route) :
    grepDefault (route_n table) = (table.filter (·.dest = zeros)).map Route.line := by
  have hline : ∀ r : Route, "0.0.0.0 ".toList.isPrefixOf r.line = decide (r.dest = zeros) := by
    intro r
    rw [Bool.eq_iff_iff, List.isPrefixOf_iff_prefix, decide_eq_true_eq]
    have hz : "0.0.0.0 ".toList = zeros.1 ++ [' '] := by decide
    rw [hz, Route.line, prefix_blank_iff (ne_blank_of_token zeros) (ne_blank_of_token r.dest)]
    exact ⟨fun h => Subtype.ext h.symm, fun h => by rw [h]⟩
  have hhead : ∀ l : List Text, grepDefault ("Kernel IP routing table".toList ::
      "Destination Gateway Genmask Flags Metric Ref Use Iface".toList :: l) = grepDefault l :=
    fun _ => rfl
  rw [route_n, hhead, grepDefault, List.filter_map]
  refine congrArg _ (List.filter_congr fun r _ => ?_)
  exact hline r

/-! ## The loop -/

/-- A pair as `del` spells it. -/
def spell (p : Token × Token) : Text := p.1.1 ++ '/' :: p.2.1

lemma isWord_spell (p : Token × Token) : IsWord (spell p) := by
  refine ⟨by simp [spell], fun c hc => ?_⟩
  rcases List.mem_append.mp hc with hc | hc
  · exact p.1.blanks_free c hc
  · rcases List.mem_cons.mp hc with rfl | hc
    · decide
    · exact p.2.blanks_free c hc

lemma scanLine_line (topIface gateway add del : Text) (r : Route) :
    scanLine blanks topIface gateway (add, del) r.line =
      if r.iface.1 = topIface ∧ r.gateway.1 = gateway then ([], del)
      else (add, del ++ ' ' :: spell r.pair) := by
  simp only [scanLine, readVars_line]
  rfl

/-- Behind the loop `add` is unset if the wanted route was among the lines, and `del` holds
the others. -/
lemma foldl_scanLine (topIface gateway add del : Text) (rs : List Route) :
    (rs.map Route.line).foldl (scanLine blanks topIface gateway) (add, del) =
      (if ∃ r ∈ rs, r.iface.1 = topIface ∧ r.gateway.1 = gateway then [] else add,
        del ++ (rs.filter fun r => ¬ (r.iface.1 = topIface ∧ r.gateway.1 = gateway)).flatMap
          fun r => ' ' :: spell r.pair) := by
  induction rs generalizing add del with
  | nil => simp
  | cons r rs ih =>
    rw [List.map_cons, List.foldl_cons, scanLine_line]
    by_cases hr : r.iface.1 = topIface ∧ r.gateway.1 = gateway
    · have hex : ∃ q ∈ r :: rs, q.iface.1 = topIface ∧ q.gateway.1 = gateway :=
        ⟨r, List.mem_cons_self, hr⟩
      rw [if_pos hr, ih, if_pos hex, ite_self, List.filter_cons_of_neg (by simpa using hr)]
    · have hex : (∃ q ∈ r :: rs, q.iface.1 = topIface ∧ q.gateway.1 = gateway) ↔
          ∃ q ∈ rs, q.iface.1 = topIface ∧ q.gateway.1 = gateway := by
        simp [hr]
      rw [if_neg hr, ih, List.filter_cons_of_pos (by exact decide_eq_true hr), List.flatMap_cons,
        List.append_assoc]
      simp only [hex]

/-! ## The commands -/

lemma RouteCmd.parse_args (c : RouteCmd) : parse c.args = some c := by
  rcases c with ⟨g, d⟩ | ⟨g, d⟩
  · rw [args, parse, dif_pos ⟨g.2, d.2⟩, if_pos rfl]
  · rw [args, parse, dif_pos ⟨g.2, d.2⟩, if_neg (by decide), if_pos rfl]

/-- Where the gateway is no address there is no command. -/
lemma RouteCmd.parse_of_not_token {op net gw g dev d : Text} (h : ¬ (IsWord g ∧ '/' ∉ g)) :
    parse [op, net, gw, g, dev, d] = none := by
  rw [parse, dif_neg fun hc => h hc.1]

lemma delArgs_spell (p : Token × Token) : delArgs (spell p) = (RouteCmd.del p.1 p.2).args := by
  have hslash : ∀ t : Token, ∀ c ∈ t.1, c ∉ ['/'] := by
    intro t c hc hm
    obtain rfl := List.mem_singleton.mp hm
    exact t.2.2 hc
  have hsplit : split ['/'] (spell p) = [p.1.1, p.2.1] :=
    split_pair (by simp) (by decide) p.1.2.1.1 (hslash p.1) p.2.2.1.1 (hslash p.2)
  simp only [delArgs, hsplit, List.getD_cons_zero, List.getD_cons_succ, split_blanks p.1.2.1,
    split_blanks p.2.2.1]
  rfl

lemma addArgs_tokens (g d : Token) : addArgs blanks g.1 d.1 = (RouteCmd.add g d).args := by
  rw [addArgs, split_blanks g.2.1, split_blanks d.2.1]
  rfl

/-- The commands for an interface and a gateway: the route is added unless a line holds it,
and the other lines are deleted. -/
def wantedCmds (i g : Token) (table : List Route) : List RouteCmd :=
  (if (g, i) ∈ zeroLines table then [] else [.add g i]) ++
    ((zeroLines table).filter (· ≠ (g, i))).map fun p => .del p.1 p.2

lemma pair_eq_iff {i g : Token} {r : Route} :
    (r.iface.1 = i.1 ∧ r.gateway.1 = g.1) ↔ r.pair = (g, i) := by
  rw [Route.pair, Prod.mk.injEq, ← Subtype.ext_iff, ← Subtype.ext_iff, and_comm]

/-- With the `IFS` a shell starts with, the text is taken apart as it was put together. -/
theorem routeCmds_eq (i g : Token) (table : List Route) :
    routeCmds blanks i.1 g.1 table = (wantedCmds i g table).map RouteCmd.args := by
  set rs := table.filter (·.dest = zeros) with hrs
  have hadd : (∃ r ∈ rs, r.iface.1 = i.1 ∧ r.gateway.1 = g.1) ↔ (g, i) ∈ zeroLines table := by
    simp only [pair_eq_iff, zeroLines, ← hrs, List.mem_map]
  have hdel : (rs.filter fun r => ¬ (r.iface.1 = i.1 ∧ r.gateway.1 = g.1)).flatMap
        (fun r => ' ' :: spell r.pair) =
      (((zeroLines table).filter (· ≠ (g, i))).map spell).flatMap fun w => ' ' :: w := by
    simp only [pair_eq_iff, zeroLines, ← hrs, List.filter_map, List.flatMap_map]
    rfl
  have hwords : ∀ w ∈ ((zeroLines table).filter (· ≠ (g, i))).map spell, IsWord w := by
    intro w hw
    obtain ⟨p, -, rfl⟩ := List.mem_map.mp hw
    exact isWord_spell p
  rw [routeCmds, grepDefault_route_n, ← hrs, foldl_scanLine]
  simp only [List.nil_append, hdel, split_words hwords, hadd]
  rw [wantedCmds, List.map_append, List.map_map, List.map_map]
  congr 1
  · by_cases hmem : (g, i) ∈ zeroLines table
    · rw [if_pos hmem, if_pos rfl, if_pos hmem]
      rfl
    · rw [if_neg hmem, if_neg g.2.1.1, if_neg hmem, addArgs_tokens]
      rfl
  · exact List.map_congr_left fun p _ => delArgs_spell p

end EspLinux.Net
