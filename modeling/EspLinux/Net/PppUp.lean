import EspLinux.Net.Selection

/-!
# The network scripts: a ppp link comes up

`ip-up` takes the name of its peer apart with `IFS=.` and leaves `IFS` empty behind it.
The gateway it hands to `gateUp` starts with a blank, so that the header of the registry
file comes out the same either way; what `gateUp` and `setGateway` make of the files and
of the routing table does not.
-/

namespace EspLinux.Net

open EspLinux.Lib.Words

/-- What pppd tells `ip-up`, and what the interface's configuration adds. -/
structure Ppp where
  /-- `IFNAME`. -/
  iface : Token
  /-- `IPREMOTE`. -/
  remote : Token
  /-- Whether `DEFAULTROUTE` is set. -/
  defaultroute : Bool
  /-- `PEERNAME`. -/
  peername : Text
  /-- `DNS1` and `DNS2`, if `USEPEERDNS` is set. -/
  peerdns : Option (List Token)
  /-- What `resolv_conf` of the configuration prints. -/
  resolv_conf : List Text
  /-- What `hosts` of the configuration prints. -/
  hosts : List Text
  /-- `searchDomains`. -/
  searchDomains : Text → Text

namespace Ppp

variable (e : Ppp)

/-- `domain`, from a peer name with a leading dot. -/
def domain : Text :=
  let components := split ['.'] e.peername
  if components.getD 0 [] = [] ∧ components.getD 1 [] ≠ [] then ['.'].intercalate (components.drop 2)
  else []

/-- What `resolv_conf` prints. -/
def resolvLines : List Text :=
  match e.peerdns with
  | none => e.resolv_conf
  | some dns =>
    ("search ".toList ++ e.searchDomains e.domain) :: dns.map fun ip => "nameserver ".toList ++ ip.1

/-- The variable `gateway`, with a blank in front of the address. -/
def gateway : Text := if e.defaultroute then ' ' :: e.remote.1 else []

/-- The shell at the end of `ip-up`, where `local` keeps the caller's values or not. -/
def shell (inherits : Bool) : Shell where
  ifs := if e.peername = [] then .initial else .empty
  ifname := e.iface.1
  gateway := if inherits then e.gateway else []

/-- The arguments `$IFNAME $gateway`. -/
def args (inherits : Bool) : List Text :=
  split (e.shell inherits).ifs.text e.iface.1 ++ split (e.shell inherits).ifs.text e.gateway

end Ppp

/-- `ip-up`, up to its call of `gateUp`. -/
def ip_up_gate (sys : Sys) (inherits : Bool) (e : Ppp) (st : State) : State × Option (Text × Text) :=
  gateUp sys (e.shell inherits) (e.args inherits) e.resolvLines st

/-- The same interface and gateway given to `gateUp` in a fresh shell. -/
def fresh_gate (sys : Sys) (e : Ppp) (st : State) : State × Option (Text × Text) :=
  gateUp sys fresh [e.iface.1, e.remote.1] e.resolvLines st

/-- The header line of the registered link. -/
def Ppp.header (e : Ppp) : Text := '#' :: (e.iface.1 ++ ' ' :: e.remote.1)

/-- The link is registered with its peer as the gateway, and selection, `resolv.conf` and
default routes are those of a fresh shell. -/
structure Honoured (sys : Sys) (inherits : Bool) (e : Ppp) (st : State) : Prop where
  registered : (ip_up_gate sys inherits e st).1.resolv.lookup e.iface.1 =
    some (e.header :: e.resolvLines)
  selection : (ip_up_gate sys inherits e st).2.map Prod.fst = (fresh_gate sys e st).2.map Prod.fst
  resolv_conf : (ip_up_gate sys inherits e st).1.resolv_conf = (fresh_gate sys e st).1.resolv_conf
  routes : ∀ q, q ∈ defaults (ip_up_gate sys inherits e st).1.table ↔
    q ∈ defaults (fresh_gate sys e st).1.table

/-! ## The default routes -/

variable {table : List Route} {p : Token} {w : Text}

/-- No default route through the interface comes of this gateway: a masked route stands in
for it, or it is no address. -/
def Blocked (table : List Route) (p : Token) (w : Text) : Prop :=
  ∀ q : Token × Token, q.2 = p → q.1.1 = w → q ∉ defaults table ∧ q ∈ masked table

lemma drop_same_replace (hw : IsWord w) :
    (∀ q, q ∈ defaults (dropRoutes p.1 table) ↔ q ∈ defaults (replaceRoutes blanks p.1 w table)) ↔
      Blocked table p w ∧ ∀ q ∈ defaults table, q.2 = p := by
  simp only [mem_defaults_dropRoutes, mem_defaults_replaceRoutes_word hw, ne_eq, ← Subtype.ext_iff]
  constructor
  · intro h
    refine ⟨fun q hq hg => ?_, fun q hq => ?_⟩
    · by_contra hno
      refine ((h q).mpr ⟨hq, hg, ?_⟩).2 hq
      by_cases hd : q ∈ defaults table
      · exact .inl hd
      · exact .inr fun hm => hno ⟨hd, hm⟩
    · by_contra hq'
      exact hq' ((h q).mp ⟨hq, hq'⟩).1
  · rintro ⟨hblocked, hall⟩ q
    refine iff_of_false (fun hq => hq.2 (hall q hq.1)) ?_
    rintro ⟨hq, hg, hor⟩
    obtain ⟨hd, hm⟩ := hblocked q hq hg
    exact hor.elim hd fun h => h hm

lemma keep_same_drop :
    (∀ q, q ∈ defaults table ↔ q ∈ defaults (dropRoutes p.1 table)) ↔
      ∀ q ∈ defaults table, q.2 ≠ p := by
  simp only [mem_defaults_dropRoutes, ne_eq, ← Subtype.ext_iff]
  exact ⟨fun h q hq => ((h q).mp hq).2, fun h q => ⟨fun hq => ⟨hq, h q hq⟩, fun hq => hq.1⟩⟩

lemma keep_same_replace (hw : IsWord w) :
    (∀ q, q ∈ defaults table ↔ q ∈ defaults (replaceRoutes blanks p.1 w table)) ↔
      (∀ q ∈ defaults table, q.2 = p ∧ q.1.1 = w) ∧ (defaults table = [] ↔ Blocked table p w) := by
  simp only [mem_defaults_replaceRoutes_word hw]
  constructor
  · intro h
    have hall : ∀ q ∈ defaults table, q.2 = p ∧ q.1.1 = w := fun q hq =>
      ⟨((h q).mp hq).1, ((h q).mp hq).2.1⟩
    refine ⟨hall, fun hnil q hq hg => ?_, fun hblocked => ?_⟩
    · have hd : q ∉ defaults table := by
        rw [hnil]
        exact List.not_mem_nil
      refine ⟨hd, ?_⟩
      by_contra hm
      exact hd ((h q).mpr ⟨hq, hg, .inr hm⟩)
    · refine List.eq_nil_iff_forall_not_mem.mpr fun q hq => ?_
      exact (hblocked q (hall q hq).1 (hall q hq).2).1 hq
  · rintro ⟨hall, hiff⟩ q
    constructor
    · exact fun hq => ⟨(hall q hq).1, (hall q hq).2, .inl hq⟩
    · rintro ⟨hq, hg, hor⟩
      by_cases hd : q ∈ defaults table
      · exact hd
      · have hm : q ∉ masked table := hor.resolve_left hd
        have hne : defaults table ≠ [] := fun hnil => hm (hiff.mp hnil q hq hg).2
        obtain ⟨q', hq'⟩ := List.exists_mem_of_ne_nil _ hne
        obtain ⟨hp', hg'⟩ := hall q' hq'
        have heq : q' = q := Prod.ext (Subtype.ext (hg'.trans hg.symm)) (hp'.trans hq.symm)
        exact heq ▸ hq'

/-! ## The registration -/

variable {sys : Sys} {inherits : Bool} {e : Ppp} {st : State}

lemma shell_ifs (inherits : Bool) (h : e.peername = []) : (e.shell inherits).ifs = .initial := if_pos h

lemma shell_ifs_named (inherits : Bool) (h : e.peername ≠ []) : (e.shell inherits).ifs = .empty := if_neg h

lemma args_eq (hdef : e.defaultroute = true) :
    e.args inherits = [e.iface.1, if e.peername = [] then e.remote.1 else ' ' :: e.remote.1] := by
  have hgate : e.gateway = ' ' :: e.remote.1 := by rw [Ppp.gateway, if_pos hdef]
  by_cases hpeer : e.peername = []
  · have htext : (e.shell inherits).ifs.text = blanks := by rw [shell_ifs inherits hpeer]; rfl
    rw [Ppp.args, htext, hgate, split_blanks e.iface.2.1, split_white (by decide),
      split_blanks e.remote.2.1, if_pos hpeer]
    rfl
  · have htext : (e.shell inherits).ifs.text = [] := by rw [shell_ifs_named inherits hpeer]; rfl
    rw [Ppp.args, htext, hgate, split_empty e.iface.2.1.1, split_empty (List.cons_ne_nil _ _),
      if_neg hpeer]
    rfl

/-- The state both calls select in. -/
def Ppp.registered (e : Ppp) (st : State) : State :=
  Net.registered fresh [e.iface.1, e.remote.1] e.resolvLines st

/-- The blank in front of the gateway makes up for the empty `IFS`. -/
lemma registered_eq (inherits : Bool) (e : Ppp) (st : State) (hdef : e.defaultroute = true) :
    Net.registered (e.shell inherits) (e.args inherits) e.resolvLines st = e.registered st := by
  have hreg : ∀ ifs g, g ≠ [] → '#' :: join ifs [e.iface.1, g] = e.header →
      register ifs [e.iface.1, g] e.resolvLines st.resolv =
        (st.resolv.erase e.iface.1).insert e.iface.1 (e.header :: e.resolvLines) := by
    intro ifs g hg hjoin
    rw [register, if_neg e.iface.2.1.1, List.headD_cons, if_neg hg, hjoin]
  have hfresh : register blanks [e.iface.1, e.remote.1] e.resolvLines st.resolv =
      (st.resolv.erase e.iface.1).insert e.iface.1 (e.header :: e.resolvLines) := by
    refine hreg blanks e.remote.1 e.remote.2.1.1 ?_
    simp [join, Ppp.header, blanks, List.intercalate]
  rw [Ppp.registered, Net.registered, Net.registered, args_eq hdef]
  refine congrArg (fun r => { st with resolv := r }) ?_
  show _ = register blanks [e.iface.1, e.remote.1] e.resolvLines st.resolv
  rw [hfresh]
  by_cases hpeer : e.peername = []
  · rw [shell_ifs inherits hpeer, if_pos hpeer]
    exact hfresh
  · rw [shell_ifs_named inherits hpeer, if_neg hpeer]
    refine hreg [] _ (List.cons_ne_nil _ _) ?_
    simp [join, Ppp.header, List.intercalate]

lemma lookup_registered : (e.registered st).resolv.lookup e.iface.1 = some (e.header :: e.resolvLines) := by
  have hjoin : '#' :: join blanks [e.iface.1, e.remote.1] = e.header := by
    simp [join, Ppp.header, blanks, List.intercalate]
  show (register blanks [e.iface.1, e.remote.1] e.resolvLines st.resolv).lookup e.iface.1 = _
  rw [register, if_neg e.iface.2.1.1, List.headD_cons, if_neg e.remote.2.1.1, hjoin,
    AList.lookup_insert]

/-! ## The two calls -/

/-- The gateway `gateUp` passes on in a shell with its first `IFS`. -/
def passedGateway (sys : Sys) (gateway : Text) (st : State) : Text :=
  match ruled sys st.resolv st.priority with
  | some i => ownGateway st.resolv i
  | none => (split blanks (leftOver sys st.resolv st.priority gateway)).headD []

/-- `gateUp` in a shell with its first `IFS`, called for an interface. -/
lemma gateUp_initial (sys : Sys) {sh : Shell} (hifs : sh.ifs = .initial) (i : Token)
    (rest lines : List Text) (st : State)
    (hline : (firstLine blanks (registered sh (i.1 :: rest) lines st).resolv st.priority).isSome) :
    let st' := registered sh (i.1 :: rest) lines st
    let top := (ruled sys st'.resolv st'.priority).getD i.1
    gateUp sys sh (i.1 :: rest) lines st =
      (setGateway blanks top (passedGateway sys sh.gateway st') st',
        some (top, passedGateway sys sh.gateway st')) := by
  intro st' top
  rcases hr : ruled sys st'.resolv st'.priority with _ | j
  · obtain ⟨gw, hselect, -, hleft⟩ := select_spec sys sh.gateway hline
    have htext : sh.ifs.text = blanks := by rw [hifs]; rfl
    have hselect : select sh.ifs.text sys st'.resolv st.priority sh.gateway = some (none, gw) := by
      rw [htext, hselect]
      exact congrArg (fun o => some (o, gw)) hr
    have hgw : gw = leftOver sys st'.resolv st'.priority sh.gateway := hleft hr
    have hcall := gateUp_some _ _ _ _ _ hselect
    obtain ⟨h₀, h₁⟩ := Prod.mk.inj (params_of_word (split_blanks i.2.1) gw)
    simp only [htext, Option.getD_none, List.headD_cons, h₀, h₁] at hcall
    rw [hcall]
    simp only [top, passedGateway, hr, Option.getD_none, ← hgw]
    rfl
  · obtain ⟨hcall, -, -⟩ := gateUp_ruled sys _ _ _ _ hifs hline hr
    rw [hcall]
    simp only [top, passedGateway, hr, Option.getD_some]
    rfl

/-- `gateUp` with an empty `IFS`, called for an interface. -/
lemma gateUp_empty (sys : Sys) {sh : Shell} (hifs : sh.ifs = .empty) (i : Token)
    (rest lines : List Text) (st : State)
    (hline : (firstLine blanks (registered sh (i.1 :: rest) lines st).resolv st.priority).isSome) :
    let st' := registered sh (i.1 :: rest) lines st
    let gw := if readsAny [] sys st'.resolv st'.priority then [] else sh.gateway
    gateUp sys sh (i.1 :: rest) lines st = (setGateway [] i.1 gw st', some (i.1, gw)) := by
  intro st' gw
  have htext : sh.ifs.text = [] := by rw [hifs]; rfl
  have hselect : select sh.ifs.text sys st'.resolv st.priority sh.gateway = some (none, gw) := by
    rw [htext]
    exact select_empty _ _ (by rw [firstLine_isSome]; exact hline)
  have hcall := gateUp_some _ _ _ _ _ hselect
  have hsplit : (split [] gw).headD [] = gw := by
    rcases gw with _ | ⟨c, gw⟩
    · rfl
    · rw [split_empty (List.cons_ne_nil c gw)]
      rfl
  obtain ⟨h₀, h₁⟩ := Prod.mk.inj (params_of_word (split_empty i.2.1.1) gw)
  rw [hsplit] at h₁
  simp only [htext, Option.getD_none, List.headD_cons, h₀, h₁] at hcall
  exact hcall

/-! ## The comparison -/

lemma leftOver_of_reads {files : Dir} {priority : Option Text}
    (h : readsAny blanks sys files priority = true) (gateway gateway' : Text) :
    leftOver sys files priority gateway = leftOver sys files priority gateway' := by
  obtain ⟨i, hi⟩ : ∃ i, i ∈ (((firstLine blanks files priority).getD []).filter fun i =>
      i ∈ files ∧ notUnplugged sys i = true) ++
        (secondLine blanks files priority).filter fun i => i ∈ files := by
    rcases (Bool.or_eq_true _ _).mp h with h | h
    · obtain ⟨i, hi, hok⟩ := List.any_eq_true.mp h
      exact ⟨i, List.mem_append_left _ (List.mem_filter.mpr ⟨hi, by simpa using hok⟩)⟩
    · obtain ⟨i, hi, hok⟩ := List.any_eq_true.mp h
      exact ⟨i, List.mem_append_right _ (List.mem_filter.mpr ⟨hi, hok⟩)⟩
  rw [leftOver, leftOver]
  have hne := List.ne_nil_of_mem (List.mem_map_of_mem (f := readGateway files) hi)
  rw [List.getLast?_eq_some_getLast hne]
  rfl

lemma leftOver_of_not_reads {files : Dir} {priority : Option Text}
    (h : readsAny blanks sys files priority = false) (gateway : Text) :
    leftOver sys files priority gateway = gateway := by
  obtain ⟨h₁, h₂⟩ := Bool.or_eq_false_iff.mp h
  have hnil : ((firstLine blanks files priority).getD []).filter (fun i =>
      i ∈ files ∧ notUnplugged sys i = true) = [] := by
    refine List.filter_eq_nil_iff.mpr fun i hi hok => ?_
    have hany := List.any_eq_false.mp h₁ i hi
    exact hany (by simpa using hok)
  have hnil' : (secondLine blanks files priority).filter (fun i => i ∈ files) = [] :=
    List.filter_eq_nil_iff.mpr fun i hi hok => List.any_eq_false.mp h₂ i hi hok
  rw [leftOver, hnil, hnil']
  rfl

/-- When `ip-up` comes to the same as a fresh shell.  Without a peer name it does unless
neither loop reads a file and `local` keeps the caller's `gateway`.  With one, the rule
must name the link or nothing, and the gateway it would pass make no difference to the
default routes. -/
def SameAsFresh (sys : Sys) (inherits : Bool) (e : Ppp) (st : State) : Prop :=
  (firstLine blanks st.resolv st.priority).isSome →
    if e.peername = [] then
      ruled sys st.resolv st.priority = none → readsAny blanks sys st.resolv st.priority = false →
        inherits = true →
          Blocked st.table e.iface e.remote.1 ∧ ∀ q ∈ defaults st.table, q.2 = e.iface
    else
      (∀ i, ruled sys st.resolv st.priority = some i → i = e.iface.1) ∧
        let w := passedGateway sys [] st
        if readsAny [] sys st.resolv st.priority = true ∨ inherits = false then
          w = [] ∨ Blocked st.table e.iface w ∧ ∀ q ∈ defaults st.table, q.2 = e.iface
        else if w = [] then ∀ q ∈ defaults st.table, q.2 ≠ e.iface
        else (∀ q ∈ defaults st.table, q.2 = e.iface ∧ q.1.1 = w) ∧
          (defaults st.table = [] ↔ Blocked st.table e.iface w)

lemma isWord_passedGateway {gateway : Text} (h : passedGateway sys gateway st ≠ []) :
    IsWord (passedGateway sys gateway st) := by
  rw [passedGateway] at h ⊢
  split at h
  · rename_i i hi
    exact (isWord_ownGateway hi).2.1
  · rcases hs : split blanks (leftOver sys st.resolv st.priority gateway) with _ | ⟨w, ws⟩
    · rw [hs] at h
      exact absurd rfl h
    · exact isWord_of_mem_split (hs ▸ List.mem_cons_self)

/-- The default routes behind `setGateway`, in a shell with its first `IFS`. -/
lemma mem_defaults_setGateway {gw : Text} (hgw : gw = [] ∨ IsWord gw) (q : Token × Token) :
    q ∈ defaults (setGateway blanks p.1 gw st).table ↔
      q ∈ defaults (if gw = [] then dropRoutes p.1 st.table
        else replaceRoutes blanks p.1 gw st.table) := by
  rcases hgw with rfl | hgw
  · rw [setGateway_table_of_none p.2.1.1, if_pos rfl]
  · rw [setGateway_table_of_gateway p.2.1.1 hgw.1, if_neg hgw.1]

/-- The call in a fresh shell. -/
lemma fresh_gate_eq (sys : Sys)
    (hline : (firstLine blanks (e.registered st).resolv (e.registered st).priority).isSome) :
    fresh_gate sys e st =
      (setGateway blanks ((ruled sys (e.registered st).resolv (e.registered st).priority).getD e.iface.1)
          (passedGateway sys [] (e.registered st)) (e.registered st),
        some ((ruled sys (e.registered st).resolv (e.registered st).priority).getD e.iface.1,
          passedGateway sys [] (e.registered st))) :=
  gateUp_initial sys (show fresh.ifs = .initial from rfl) e.iface [e.remote.1] e.resolvLines st hline

/-- Without a peer name the two calls differ in the value `gateway` starts with. -/
lemma honoured_plain (hdef : e.defaultroute = true) (hpeer : e.peername = [])
    (hline : (firstLine blanks (e.registered st).resolv (e.registered st).priority).isSome) :
    Honoured sys inherits e st ↔
      (ruled sys (e.registered st).resolv (e.registered st).priority = none →
        readsAny blanks sys (e.registered st).resolv (e.registered st).priority = false →
        inherits = true → Blocked (e.registered st).table e.iface e.remote.1 ∧
          ∀ q ∈ defaults (e.registered st).table, q.2 = e.iface) := by
  set st' := e.registered st with hst'
  set top := (ruled sys st'.resolv st'.priority).getD e.iface.1 with htop
  have hfresh := fresh_gate_eq sys hline
  have hgateway : (e.shell inherits).gateway = if inherits then ' ' :: e.remote.1 else [] := by
    rw [Ppp.shell, Ppp.gateway, if_pos hdef]
  have hreg : registered (e.shell inherits) (e.iface.1 :: [e.remote.1]) e.resolvLines st = st' := by
    have h := registered_eq inherits e st hdef
    rw [args_eq hdef, if_pos hpeer] at h
    exact h
  have hup : ip_up_gate sys inherits e st =
      (setGateway blanks top (passedGateway sys (e.shell inherits).gateway st') st',
        some (top, passedGateway sys (e.shell inherits).gateway st')) := by
    have h := gateUp_initial sys (shell_ifs inherits hpeer) e.iface [e.remote.1] e.resolvLines st (by rw [hreg]; exact hline)
    rw [hreg] at h
    rw [ip_up_gate, args_eq hdef, if_pos hpeer, h]
  have hroutes : Honoured sys inherits e st ↔
      ∀ q, q ∈ defaults (setGateway blanks top (passedGateway sys (e.shell inherits).gateway st') st').table ↔
        q ∈ defaults (setGateway blanks top (passedGateway sys [] st') st').table := by
    constructor
    · intro h q
      have := h.routes q
      rwa [hup, hfresh] at this
    · intro h
      refine ⟨?_, ?_, ?_, ?_⟩
      · rw [hup, setGateway_resolv]
        exact lookup_registered
      · rw [hup, hfresh]
        rfl
      · rw [hup, hfresh, setGateway_resolv_conf, setGateway_resolv_conf]
      · rw [hup, hfresh]
        exact h
  rw [hroutes]
  -- the gateways passed differ only where nothing is found and nothing is read
  rcases hr : ruled sys st'.resolv st'.priority with _ | i
  · rw [htop, hr, Option.getD_none]
    simp only [passedGateway, hr, forall_const]
    by_cases hreads : readsAny blanks sys st'.resolv st'.priority = true
    · rw [leftOver_of_reads hreads (e.shell inherits).gateway [], hreads]
      exact iff_of_true (fun q => Iff.rfl) nofun
    · have hreads : readsAny blanks sys st'.resolv st'.priority = false := Bool.eq_false_iff.mpr hreads
      rw [leftOver_of_not_reads hreads, leftOver_of_not_reads hreads, hgateway, hreads]
      simp only [forall_const]
      rcases inherits with _ | _
      · exact iff_of_true (fun q => .rfl) nofun
      · have hsplit : (split blanks (' ' :: e.remote.1)).headD [] = e.remote.1 := by
          rw [split_white (by decide), split_blanks e.remote.2.1]
          rfl
        rw [if_pos rfl, hsplit]
        show (∀ q, _ ↔ q ∈ defaults (setGateway blanks e.iface.1 [] st').table) ↔ _
        simp only [mem_defaults_setGateway (.inr e.remote.2.1), mem_defaults_setGateway (.inl rfl),
          if_true, if_neg e.remote.2.1.1, forall_const]
        rw [← drop_same_replace e.remote.2.1]
        exact forall_congr' fun q => iff_comm
  · simp only [passedGateway, hr]
    exact iff_of_true (fun q => trivial) nofun

/-- With a peer name `gateUp` finds nothing and falls back on the link. -/
lemma honoured_named (hdef : e.defaultroute = true) (hpeer : e.peername ≠ [])
    (hline : (firstLine blanks (e.registered st).resolv (e.registered st).priority).isSome) :
    let st' := e.registered st
    let w := passedGateway sys [] st'
    Honoured sys inherits e st ↔
      (∀ i, ruled sys st'.resolv st'.priority = some i → i = e.iface.1) ∧
        if readsAny [] sys st'.resolv st'.priority = true ∨ inherits = false then
          w = [] ∨ Blocked st'.table e.iface w ∧ ∀ q ∈ defaults st'.table, q.2 = e.iface
        else if w = [] then ∀ q ∈ defaults st'.table, q.2 ≠ e.iface
        else (∀ q ∈ defaults st'.table, q.2 = e.iface ∧ q.1.1 = w) ∧
          (defaults st'.table = [] ↔ Blocked st'.table e.iface w) := by
  intro st' w
  have hfresh := fresh_gate_eq sys hline
  have hgateway : (e.shell inherits).gateway = if inherits then ' ' :: e.remote.1 else [] := by
    rw [Ppp.shell, Ppp.gateway, if_pos hdef]
  have hreg : registered (e.shell inherits) (e.iface.1 :: [' ' :: e.remote.1]) e.resolvLines st = st' := by
    have h := registered_eq inherits e st hdef
    rw [args_eq hdef, if_neg hpeer] at h
    exact h
  set gw := if readsAny [] sys st'.resolv st'.priority then [] else (e.shell inherits).gateway with hgw
  have hup : ip_up_gate sys inherits e st = (setGateway [] e.iface.1 gw st', some (e.iface.1, gw)) := by
    have h := gateUp_empty sys (shell_ifs_named inherits hpeer) e.iface [' ' :: e.remote.1] e.resolvLines st
      (by rw [hreg]; exact hline)
    rw [hreg] at h
    rw [ip_up_gate, args_eq hdef, if_neg hpeer, h]
  -- the selection is the link's, and then `resolv.conf` is too
  have hroutes : Honoured sys inherits e st ↔
      (∀ i, ruled sys st'.resolv st'.priority = some i → i = e.iface.1) ∧
        ∀ q, q ∈ defaults (setGateway [] e.iface.1 gw st').table ↔
          q ∈ defaults (setGateway blanks e.iface.1 w st').table := by
    have htop : (ruled sys st'.resolv st'.priority).getD e.iface.1 = e.iface.1 ↔
        ∀ i, ruled sys st'.resolv st'.priority = some i → i = e.iface.1 := by
      rcases ruled sys st'.resolv st'.priority with _ | i
      · exact iff_of_true rfl nofun
      · exact ⟨fun h j hj => Option.some.inj hj ▸ h, fun h => h i rfl⟩
    constructor
    · intro h
      have hsel := h.selection
      rw [hup, hfresh] at hsel
      have hsame := (Option.some.inj hsel).symm
      refine ⟨htop.mp hsame, fun q => ?_⟩
      have hq := h.routes q
      rw [hup, hfresh] at hq
      rwa [show (ruled sys (e.registered st).resolv (e.registered st).priority).getD e.iface.1 =
        e.iface.1 from hsame] at hq
    · rintro ⟨hall, hq⟩
      have hsame : (ruled sys (e.registered st).resolv (e.registered st).priority).getD e.iface.1 =
        e.iface.1 := htop.mpr hall
      rw [hsame] at hfresh
      refine ⟨?_, ?_, ?_, ?_⟩
      · rw [hup, setGateway_resolv]
        exact lookup_registered
      · rw [hup, hfresh]
        rfl
      · rw [hup, hfresh, setGateway_resolv_conf, setGateway_resolv_conf]
      · rw [hup, hfresh]
        exact hq
  rw [hroutes]
  refine and_congr_right fun _ => ?_
  have hw : w = [] ∨ IsWord w := by
    by_cases hnil : w = []
    · exact .inl hnil
    · exact .inr (isWord_passedGateway hnil)
  simp only [mem_defaults_setGateway hw]
  by_cases hempty : readsAny [] sys st'.resolv st'.priority = true ∨ inherits = false
  · have hnil : gw = [] := by
      rw [hgw, hgateway]
      rcases hempty with h | h
      · rw [h]
        rfl
      · rw [h]
        exact ite_self _
    rw [if_pos hempty, hnil, setGateway_table_of_none e.iface.2.1.1]
    by_cases hwnil : w = []
    · rw [if_pos hwnil]
      exact iff_of_true (fun q => Iff.rfl) (.inl hwnil)
    · rw [if_neg hwnil, or_iff_right hwnil]
      exact drop_same_replace (hw.resolve_left hwnil)
  · have hblank : gw = ' ' :: e.remote.1 := by
      have hinh : inherits = true := by simpa using fun h => hempty (.inr h)
      rw [hgw, hgateway, if_neg fun h => hempty (.inl h), hinh, if_pos rfl]
    rw [if_neg hempty, hblank,
      setGateway_table_of_gateway e.iface.2.1.1 (List.cons_ne_nil _ _),
      replaceRoutes_empty e.iface.2.1.1]
    by_cases hwnil : w = []
    · rw [if_pos hwnil, if_pos hwnil]
      exact keep_same_drop
    · rw [if_neg hwnil, if_neg hwnil]
      exact keep_same_replace (hw.resolve_left hwnil)

/-- `ip-up` honours the gateway rule exactly where it comes to the same as a fresh
shell. -/
theorem ip_up_honours (sys : Sys) (inherits : Bool) (e : Ppp) (hdef : e.defaultroute = true)
    (st : State) : Honoured sys inherits e st ↔ SameAsFresh sys inherits e (e.registered st) := by
  by_cases hline : (firstLine blanks (e.registered st).resolv (e.registered st).priority).isSome
  · by_cases hpeer : e.peername = []
    · rw [honoured_plain hdef hpeer hline, SameAsFresh, if_pos hpeer]
      exact ⟨fun h _ => h, fun h => h hline⟩
    · refine (honoured_named hdef hpeer hline).trans ?_
      rw [SameAsFresh, if_neg hpeer]
      exact ⟨fun h _ => h, fun h => h hline⟩
  · have hnone : ∀ ifs, firstLine ifs (e.registered st).resolv st.priority = none := by
      intro ifs
      rw [← Option.not_isSome_iff_eq_none, firstLine_isSome]
      exact hline
    have hup : ip_up_gate sys inherits e st = (e.registered st, none) := by
      have h := gateUp_none sys (e.shell inherits) (e.args inherits) e.resolvLines st
      rw [registered_eq inherits e st hdef] at h
      exact h (hnone _)
    have hfresh : fresh_gate sys e st = (e.registered st, none) :=
      gateUp_none sys fresh _ _ st (hnone _)
    refine iff_of_true ⟨?_, ?_, ?_, ?_⟩ fun h => absurd h hline
    · rw [hup]
      exact lookup_registered
    · rw [hup, hfresh]
    · rw [hup, hfresh]
    · rw [hup, hfresh]
      exact fun q => Iff.rfl

/-- A modem whose link takes the default route, under this peer name. -/
def dialed (peername : String) : Ppp where
  iface := ppp0
  remote := pppGate
  defaultroute := true
  peername := peername.toList
  peerdns := none
  resolv_conf := []
  hosts := []
  searchDomains := id

/-- `eth0` is registered and comes before the modem. -/
def wiredFirst : State :=
  { bare (onePriority "eth[0-9]* ppp[0-9]*") with
    resolv := AList.insert eth0.1 ["#eth0 10.0.0.1".toList] ∅ }

/-- Without a peer name the gateway stays with `eth0`. -/
theorem ip_up_honours_plain : Honoured quiet true (dialed "") wiredFirst :=
  (ip_up_honours quiet true (dialed "") rfl wiredFirst).mpr fun _ hnone =>
    absurd hnone (by decide)

/-- With a peer name the modem takes the gateway from `eth0`. -/
theorem ip_up_passes_rule_over :
    (ip_up_gate quiet true (dialed "shore") wiredFirst).2.map Prod.fst = some ppp0.1 ∧
      (fresh_gate quiet (dialed "shore") wiredFirst).2.map Prod.fst = some eth0.1 ∧
      ¬ Honoured quiet true (dialed "shore") wiredFirst := by
  have hcall : (ip_up_gate quiet true (dialed "shore") wiredFirst).2.map Prod.fst = some ppp0.1 := by
    decide
  have hfresh : (fresh_gate quiet (dialed "shore") wiredFirst).2.map Prod.fst = some eth0.1 := by
    decide
  refine ⟨hcall, hfresh, fun h => ?_⟩
  have hsel := h.selection
  rw [hcall, hfresh] at hsel
  exact absurd hsel (by decide)

end EspLinux.Net
