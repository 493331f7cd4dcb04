import EspLinux.Lib.Run
import EspLinux.Net.Events

/-!
# The network scripts: fail-over

After an event the first interface that is registered, named on the first line of
`gateway.priority` and not unplugged should be the one in force: `resolv.conf` is headed
by it and the one default route goes through it.  What an event does to the gateway is a
sequence of moves: registrations are removed, routes are dropped with an address, and
`gateUp` selects again.  Only the last brings the law about, so the question is what
happens behind the last call of `gateUp`.
-/

namespace EspLinux.Net

open EspLinux.Lib EspLinux.Lib.Words

/-- The first interface on the first line that is registered with a gateway and not
unplugged. -/
def front (sys : Sys) (files : Dir) (priority : Option Text) : Option Text :=
  ((firstLine blanks files priority).getD []).find? fun i =>
    (headerGateway files i).isSome && notUnplugged sys i

/-- `resolv.conf` is headed by the interface, and the one default route is its own. -/
structure InForce (i : Text) (st : State) : Prop where
  topIf : topIf blanks st.resolv_conf = some i
  route : ∃ q : Token × Token, q.2.1 = i ∧ q.1.1 = ownGateway st.resolv i ∧ defaults st.table = [q]

/-- The law: the first interface is in force, and none that is not registered. -/
def FailsOver (sys : Sys) (st : State) : Prop :=
  ∀ i, front sys st.resolv st.priority = some i →
    InForce i st ∧ ∀ j ∉ st.resolv,
      topIf blanks st.resolv_conf ≠ some j ∧ ∀ q ∈ defaults st.table, q.2.1 ≠ j

/-! ## Moves -/

/-- What an event does to the gateway. -/
inductive Move
  /-- A registration is removed. -/
  | close (i : Token)
  /-- The routes of an interface are dropped with its address. -/
  | flush (i : Token)
  /-- `gateUp` in a shell with its first `IFS`. -/
  | gateUp (arg : Option (Token × List Token)) (resolv_conf : List Text)

/-- The registry, and the interface that is known to be in force. -/
structure Standing where
  files : Dir
  held : Option Text

/-- An interface that is closed or loses its routes is in force no more, and `gateUp`
brings the first one into force. -/
def Move.act (sys : Sys) (priority : Option Text) (p : Standing) : Move → Standing
  | .close i => ⟨p.files.erase i.1, if p.held = some i.1 then none else p.held⟩
  | .flush i => ⟨p.files, if p.held = some i.1 then none else p.held⟩
  | .gateUp arg resolv_conf =>
    let files := register blanks (gateArgs arg) resolv_conf p.files
    ⟨files, front sys files priority⟩

/-- The moves of `ifDown`. -/
def downMoves (i : Token) (stops : Bool) : List Move :=
  if stops then [.close i, .flush i] else []

/-- The moves of `ipUp`, where those of its `vpnUp` follow if `gateUp` is `ready` to
select. -/
def Up.moves (ready : Bool) (vpns : List Move) (u : Up) : List Move :=
  if u.address then
    (if u.flushes then [.flush u.iface] else []) ++
      .gateUp (some (u.iface, u.gateway)) u.resolv_conf :: if ready then vpns else []
  else [.flush u.iface]

/-- The moves of `vpnUp`. -/
def restartMoves (ready : Bool) : List Restart → List Move
  | [] => []
  | r :: vpns =>
    downMoves r.vpn.iface r.stops ++
      if r.defers then [] else r.vpn.moves ready (restartMoves ready vpns)

/-- The moves of an event. -/
def Action.moves (st : State) (a : Action) : List Move :=
  let ready := (firstLine blanks st.resolv st.priority).isSome
  match a with
  | .ipUp _ vpns u => u.moves ready (restartMoves ready vpns)
  | .deconfig _ valid vpns u =>
    .close u.iface :: (if valid then u.moves ready (restartMoves ready vpns) else []) ++
      if valid ∧ (u.address → ready) then [] else [.flush u.iface]
  | .bound _ renew l vpns u =>
    if renew ∧ st.lease.lookup u.iface.1 = some l.spec then []
    else (l.up u).moves ready (restartMoves ready vpns)
  | .ip_up _ e vpns =>
    .gateUp (some (e.iface, if e.defaultroute then [e.remote] else [])) e.resolvLines ::
      if ready then restartMoves ready vpns else []
  | .ip_down _ i => [.flush i, .gateUp none []]
  | .ifdown _ aliases i stops =>
    aliases.flatMap (fun a => downMoves a.1 a.2) ++ downMoves i stops ++ [.gateUp none []]

/-- What there is behind some moves. -/
def Standing.after (p : Standing) (sys : Sys) (priority : Option Text) (moves : List Move) : Standing :=
  moves.foldl (Move.act sys priority) p

/-! ## Runs -/

/-- The state behind an event, and what the kernel said of the interfaces meanwhile. -/
structure Host where
  st : State
  sys : Sys

structure Event where
  sys : Sys
  action : Action

def Host.step (h : Host) (e : Event) : Option Host := some ⟨e.action.run e.sys h.st, e.sys⟩

/-- A table `setGateway` can bring into order: only default routes have no destination, and
none is there twice. -/
structure Orderly (table : List Route) : Prop where
  plain : Plain table
  nodup : (defaults table).Nodup

/-- `ip-up` leaves `IFS` alone only where there is no peer name. -/
def Action.KeepsIfs : Action → Prop
  | .ip_up _ e _ => e.peername = []
  | _ => True

/-- What there is behind an event. -/
def Event.standing (h : Host) (e : Event) : Standing :=
  let before : Standing := ⟨h.st.resolv, front h.sys h.st.resolv h.st.priority⟩
  before.after e.sys h.st.priority (e.action.moves h.st)

/-- The condition on a run: if there is a first interface behind the event, then it is the
one its last `gateUp` selected, or without such a call the one that was first before, and it
has not been taken down since. -/
structure Settles (h : Host) (e : Event) : Prop where
  orderly : Orderly h.st.table
  keepsIfs : e.action.KeepsIfs
  held : ∀ i, front e.sys (e.standing h).files h.st.priority = some i → (e.standing h).held = some i

/-! ## The registry -/

/-- Interfaces are registered under names and with gateways that are no paths. -/
def Registry (files : Dir) : Prop :=
  ∀ i gw, headerGateway files i = some gw → '/' ∉ i ∧ '/' ∉ ownGateway files i

variable {files : Dir} {priority : Option Text} {sys : Sys} {i : Text}

lemma headerGateway_congr {files' : Dir} (h : files'.lookup i = files.lookup i) :
    headerGateway files' i = headerGateway files i := by
  rw [headerGateway, h, headerGateway]

lemma ownGateway_congr {files' : Dir} (h : files'.lookup i = files.lookup i) :
    ownGateway files' i = ownGateway files i := by
  rw [ownGateway, headerGateway_congr h, ownGateway]

lemma headerGateway_erase_self (files : Dir) (i : Text) : headerGateway (files.erase i) i = none := by
  rw [headerGateway, AList.lookup_erase]

/-- Every registration left stays as it was. -/
lemma headerGateway_erase {gw j : Text} (h : headerGateway (files.erase j) i = some gw) :
    i ≠ j ∧ headerGateway files i = some gw := by
  have hne : i ≠ j := by
    rintro rfl
    rw [headerGateway_erase_self] at h
    cases h
  exact ⟨hne, (headerGateway_congr (AList.lookup_erase_ne hne)).symm.trans h⟩

lemma Registry.erase (h : Registry files) (j : Text) : Registry (files.erase j) := by
  intro i gw hi
  obtain ⟨hne, hi⟩ := headerGateway_erase hi
  rw [ownGateway_congr (AList.lookup_erase_ne hne)]
  exact h i gw hi

/-- The gateway a registration is read back with starts with the first one registered. -/
lemma ownGateway_insert (files : Dir) (i g : Token) (gs : List Token) (lines : List Text) :
    ownGateway (files.insert i.1 (('#' :: join blanks (i.1 :: (g :: gs).map (·.1))) :: lines)) i.1 =
      g.1 := by
  set header := '#' :: join blanks (i.1 :: (g :: gs).map (·.1)) with hheader
  set rest := [' '].intercalate ((g :: gs).map (·.1)) with hrest
  have hword : IsWord ('#' :: i.1) := by
    refine ⟨List.cons_ne_nil _ _, fun c hc => ?_⟩
    rcases List.mem_cons.mp hc with rfl | hc
    · decide
    · exact i.2.1.2 c hc
  have hline : header = ('#' :: i.1) ++ ' ' :: rest := by
    rw [hheader, hrest]
    simp [join, blanks, List.intercalate]
  have hsplit : split blanks (trim blanks rest) = (g :: gs).map (·.1) := by
    rw [split_trim, hrest, split_intercalate]
    intro w hw
    obtain ⟨t, -, rfl⟩ := List.mem_map.mp hw
    exact t.2.1
  have hread : readTwo blanks header = ('#' :: i.1, trim blanks rest) := by
    rw [hline, readTwo, readVars_word_blank hword]
    rfl
  have hne : trim blanks rest ≠ [] := fun hnil => by
    rw [hnil] at hsplit
    cases hsplit
  have hhead : headerGateway (files.insert i.1 (header :: lines)) i.1 = some (trim blanks rest) := by
    refine headerGateway_eq_some.mpr ⟨header :: lines, AList.lookup_insert _, ?_, ?_, hne⟩
    · rw [List.headD_cons, hread]
    · rw [List.headD_cons, hread]
  rw [ownGateway, if_neg i.2.1.1, hhead, Option.getD_some, hsplit]
  rfl

lemma Registry.register (h : Registry files) (arg : Option (Token × List Token))
    (resolv_conf : List Text) : Registry (register blanks (gateArgs arg) resolv_conf files) := by
  rcases arg with _ | ⟨i, _ | ⟨g, gs⟩⟩
  · exact h
  · have hreg : Net.register blanks (gateArgs (some (i, []))) resolv_conf files = files.erase i.1 := by
      rw [gateArgs, Net.register, if_neg i.2.1.1]
      rfl
    rw [hreg]
    exact h.erase i.1
  · have hreg : Net.register blanks (gateArgs (some (i, g :: gs))) resolv_conf files =
        (files.erase i.1).insert i.1
          (('#' :: join blanks (i.1 :: (g :: gs).map (·.1))) :: resolv_conf) := by
      have hhead : ((g :: gs).map (·.1)).headD [] ≠ [] := g.2.1.1
      rw [gateArgs, Net.register, if_neg i.2.1.1, if_neg hhead]
    rw [hreg]
    intro j gw hj
    by_cases hji : j = i.1
    · subst hji
      rw [ownGateway_insert]
      exact ⟨i.2.2, g.2.2⟩
    · rw [headerGateway_congr (AList.lookup_insert_ne hji)] at hj
      rw [ownGateway_congr (AList.lookup_insert_ne hji)]
      exact h.erase i.1 j gw hj

/-! ## The table -/

variable {table : List Route}

lemma Orderly.sublist {table' : List Route} (h : Orderly table) (hsub : table'.Sublist table) :
    Orderly table' where
  plain := fun r hr => h.plain r (hsub.subset hr)
  nodup := h.nodup.sublist ((hsub.filter _).map _)

/-- Deletions only take routes away. -/
lemma tryRoutes_sublist {cmds : List (List Text)}
    (h : ∀ cmd ∈ cmds, ∀ g d, RouteCmd.parse cmd ≠ some (.add g d)) (table : List Route) :
    (tryRoutes (cmds.map (·, true)) table).Sublist table := by
  induction cmds generalizing table with
  | nil => exact List.Sublist.refl _
  | cons cmd cmds ih =>
    have hstep : (tryRoute table (cmd, true)).Sublist table := by
      rw [tryRoute]
      rcases hparse : RouteCmd.parse cmd with _ | c
      · exact List.Sublist.refl _
      · rcases c with ⟨g, d⟩ | ⟨g, d⟩
        · exact absurd hparse (h cmd List.mem_cons_self g d)
        · exact List.eraseP_sublist
    rw [List.map_cons, tryRoutes, List.foldl_cons, ← tryRoutes]
    exact (ih (fun c hc => h c (List.mem_cons_of_mem cmd hc)) _).trans hstep

/-- The arguments of a deletion make no other command. -/
lemma parse_delArgs (w : Text) (g d : Token) : RouteCmd.parse (delArgs w) ≠ some (.add g d) := by
  intro h
  rw [delArgs] at h
  simp only [List.cons_append, List.nil_append] at h
  rw [RouteCmd.parse.eq_def] at h
  split at h
  · rename_i op net gw gate dev iface heq
    obtain rfl : "del".toList = op := (List.cons.inj heq).1
    split at h
    · simp only at h
      split at h
      · rename_i hadd
        exact absurd (List.cons.inj hadd).1 (by decide)
      · split at h
        · cases h
        · cases h
    · cases h
  · cases h

/-- Where one of the two is a path, nothing is added. -/
lemma parse_addArgs_of_path {top gw : Text} (htop : IsWord top) (hgw : IsWord gw)
    (hpath : '/' ∈ gw ∨ '/' ∈ top) : RouteCmd.parse (addArgs blanks gw top) = none := by
  have hno : ¬ ((IsWord gw ∧ '/' ∉ gw) ∧ (IsWord top ∧ '/' ∉ top)) := by
    rintro ⟨⟨-, h⟩, ⟨-, h'⟩⟩
    exact hpath.elim h h'
  rw [addArgs, split_blanks hgw, split_blanks htop]
  exact dif_neg hno

lemma plain_iff_others : Plain table ↔ ∀ r ∈ others table, r.dest ≠ zeros := by
  constructor
  · exact fun h r hr => mem_others_zero h hr
  · intro h r hr hz
    by_contra hd
    exact h r (List.mem_filter.mpr ⟨hr, decide_eq_true hd⟩) hz

/-- New default routes leave a table in order. -/
lemma Orderly.replaceRoutes (h : Orderly table) {top gw : Text} (htop : IsWord top)
    (hgw : IsWord gw) : Orderly (replaceRoutes blanks top gw table) := by
  by_cases hpath : '/' ∈ gw ∨ '/' ∈ top
  · refine h.sublist (tryRoutes_sublist ?_ table)
    intro cmd hcmd g d
    rw [routeCmds, grepDefault_route_n, foldl_scanLine] at hcmd
    rcases List.mem_append.mp hcmd with hcmd | hcmd
    · split at hcmd
      · exact absurd hcmd List.not_mem_nil
      · rw [if_neg hgw.1] at hcmd
        obtain rfl := List.mem_singleton.mp hcmd
        rw [parse_addArgs_of_path htop hgw hpath]
        intro hg
        cases hg
    · obtain ⟨w, -, rfl⟩ := List.mem_map.mp hcmd
      exact parse_delArgs w g d
  · obtain ⟨hg, hi⟩ : '/' ∉ gw ∧ '/' ∉ top := not_or.mp hpath
    set g : Token := ⟨gw, hgw, hg⟩
    set i : Token := ⟨top, htop, hi⟩
    refine ⟨?_, List.nodup_iff_count_le_one.mpr fun q => ?_⟩
    · rw [plain_iff_others, Net.replaceRoutes, others_tryRoutes]
      exact plain_iff_others.mp h.plain
    · have hcount := count_replaceRoutes table q (i := i) (g := g)
      have hone := List.nodup_iff_count_le_one.mp h.nodup q
      rw [hcount]
      split
      · rename_i hq
        split
        · exact hone
        · rename_i hline
          have hzero : (defaults table).count q = 0 := by
            refine List.count_eq_zero.mpr fun hm => hline ?_
            exact mem_defaults_zeroLines (hq ▸ hm)
          omega
      · omega

/-- The one route that is left, where nothing masks it. -/
lemma defaults_replaceRoutes (h : Orderly table) (i g : Token) :
    defaults (replaceRoutes blanks i.1 g.1 table) = [(g, i)] := by
  have hmask := masked_eq_nil h.plain
  have hmem : ∀ q, q ∈ defaults (replaceRoutes blanks i.1 g.1 table) ↔ q = (g, i) := by
    intro q
    rw [mem_defaults_replaceRoutes, hmask]
    exact and_iff_left (.inr List.not_mem_nil)
  have hnodup := (h.replaceRoutes i.2.1 g.2.1).nodup
  refine List.perm_singleton.mp ((List.perm_ext_iff_of_nodup hnodup (List.nodup_singleton _)).mpr ?_)
  exact fun q => (hmem q).trans List.mem_singleton.symm

lemma setGateway_orderly {top gw : Text} {st : State} (h : Orderly st.table)
    (htop : top = [] ∨ IsWord top) (hgw : gw = [] ∨ IsWord gw) :
    Orderly (setGateway blanks top gw st).table := by
  rcases htop with rfl | htop
  · exact h
  rcases hgw with rfl | hgw
  · rw [setGateway_table_of_none htop.1]
    exact h.sublist List.filter_sublist
  · rw [setGateway_table_of_gateway htop.1 hgw.1]
    exact h.replaceRoutes htop hgw

/-! ## What a move comes to -/

/-- The state is in order, and as the standing has it. -/
structure Tracks (priority : Option Text) (p : Standing) (st : State) : Prop where
  files : st.resolv = p.files
  priority : st.priority = priority
  registry : Registry p.files
  orderly : Orderly st.table
  held : ∀ i, p.held = some i → InForce i st

variable {p : Standing} {st st' : State}

/-- What neither touches the gateway nor its files. -/
lemma Tracks.same (h : Tracks priority p st) (hresolv : st'.resolv = st.resolv)
    (hpriority : st'.priority = st.priority) (hconf : st'.resolv_conf = st.resolv_conf)
    (htable : st'.table = st.table) : Tracks priority p st' where
  files := hresolv.trans h.files
  priority := hpriority.trans h.priority
  registry := h.registry
  orderly := htable ▸ h.orderly
  held := by
    intro i hi
    obtain ⟨htop, hroute⟩ := h.held i hi
    exact ⟨hconf ▸ htop, by rw [hresolv, htable]; exact hroute⟩

lemma Tracks.close (h : Tracks priority p st) (sys : Sys) (i : Token)
    (hresolv : st'.resolv = st.resolv.erase i.1) (hpriority : st'.priority = st.priority)
    (hconf : st'.resolv_conf = st.resolv_conf) (htable : st'.table = st.table) :
    Tracks priority (Move.act sys priority p (.close i)) st' where
  files := by rw [hresolv, h.files]; rfl
  priority := hpriority.trans h.priority
  registry := h.registry.erase i.1
  orderly := htable ▸ h.orderly
  held := by
    intro j hj
    simp only [Move.act] at hj
    split at hj
    · cases hj
    · rename_i hne
      obtain ⟨htop, q, hq, hg, hone⟩ := h.held j hj
      have hji : j ≠ i.1 := fun hc => hne (hc ▸ hj)
      refine ⟨hconf ▸ htop, q, hq, ?_, htable ▸ hone⟩
      rw [hresolv, ownGateway_congr (AList.lookup_erase_ne hji)]
      exact hg

lemma defaults_flush {q : Token × Token} {i : Token} (hne : q.2 ≠ i) (h : defaults st.table = [q]) :
    defaults (flush i st).table = [q] := by
  have hcomm : defaults (flush i st).table = (defaults st.table).filter fun q => q.2 ≠ i := by
    show ((st.table.filter _).filter _).map _ = ((st.table.filter _).map _).filter _
    rw [List.filter_map, List.filter_comm]
    rfl
  rw [hcomm, h, List.filter_singleton, decide_eq_true hne]
  rfl

lemma Tracks.flush (h : Tracks priority p st) (sys : Sys) (i : Token) :
    Tracks priority (Move.act sys priority p (.flush i)) (flush i st) where
  files := h.files
  priority := h.priority
  registry := h.registry
  orderly := h.orderly.sublist List.filter_sublist
  held := by
    intro j hj
    simp only [Move.act] at hj
    split at hj
    · cases hj
    · rename_i hne
      obtain ⟨htop, q, hq, hg, hone⟩ := h.held j hj
      have hqi : q.2 ≠ i := fun hc => hne (by rw [hj, ← hq, hc])
      exact ⟨htop, q, hq, hg, defaults_flush hqi hone⟩

/-- The first interface is the one the rule names. -/
lemma ruled_of_front (h : front sys files priority = some i) :
    (firstLine blanks files priority).isSome ∧ ruled sys files priority = some i := by
  rw [front] at h
  refine ⟨?_, ?_⟩
  · rcases hline : firstLine blanks files priority with _ | names
    · rw [hline] at h
      cases h
    · rfl
  · rw [ruled, h]
    rfl

/-- `gateUp` in a shell with its first `IFS` hands words to `setGateway`, if it selects at
all. -/
lemma gateUp_words {sh : Shell} (hifs : sh.ifs = .initial) (arg : Option (Token × List Token))
    (lines : List Text) (st : State) :
    let st' := registered sh (gateArgs arg) lines st
    (gateUp sys sh (gateArgs arg) lines st).1 = st' ∨
      ∃ top gw, (top = [] ∨ IsWord top) ∧ (gw = [] ∨ IsWord gw) ∧
        (gateUp sys sh (gateArgs arg) lines st).1 = setGateway blanks top gw st' := by
  intro st'
  have htext : sh.ifs.text = blanks := by rw [hifs]; rfl
  rcases hselect : select sh.ifs.text sys st'.resolv st.priority sh.gateway with _ | ⟨top, gw⟩
  · left
    rw [gateUp]
    have hselect : select sh.ifs.text sys (register sh.ifs.text (gateArgs arg) lines st.resolv)
      st.priority sh.gateway = none := hselect
    simp only [hselect]
    rfl
  · right
    have hword : ∀ (n : ℕ) (s t : Text),
        (split blanks s ++ split blanks t).getD n [] = [] ∨
          IsWord ((split blanks s ++ split blanks t).getD n []) := by
      intro n s t
      rcases hn : (split blanks s ++ split blanks t)[n]? with _ | w
      · left
        rw [List.getD, hn]
        rfl
      · right
        rw [List.getD, hn]
        rcases List.mem_append.mp (List.mem_of_getElem? hn) with hw | hw
        · exact isWord_of_mem_split hw
        · exact isWord_of_mem_split hw
    have hcall := gateUp_some sys sh (gateArgs arg) lines st hselect
    rw [htext] at hcall
    exact ⟨_, _, hword 0 _ _, hword 1 _ _, congrArg Prod.fst hcall⟩

lemma Tracks.gateUp (h : Tracks priority p st) (sys : Sys) (sh : Shell) (hifs : sh.ifs = .initial)
    (arg : Option (Token × List Token)) (lines : List Text) :
    Tracks priority (Move.act sys priority p (.gateUp arg lines))
      (Net.gateUp sys sh (gateArgs arg) lines st).1 := by
  have htext : sh.ifs.text = blanks := by rw [hifs]; rfl
  set st₁ := registered sh (gateArgs arg) lines st with hst₁
  have hfiles : st₁.resolv = register blanks (gateArgs arg) lines p.files := by
    rw [hst₁, registered, htext, h.files]
  have hregistry := h.registry.register arg lines
  have hkept : ∀ st₂, (st₂ = st₁ ∨ ∃ top gw, (top = [] ∨ IsWord top) ∧ (gw = [] ∨ IsWord gw) ∧
      st₂ = setGateway blanks top gw st₁) →
      st₂.resolv = st₁.resolv ∧ st₂.priority = priority ∧ Orderly st₂.table := by
    rintro st₂ (rfl | ⟨top, gw, htop, hgw, rfl⟩)
    · exact ⟨rfl, h.priority, h.orderly⟩
    · exact ⟨setGateway_resolv _, (setGateway_priority _).trans h.priority,
        setGateway_orderly h.orderly htop hgw⟩
  obtain ⟨hresolv, hpriority, horderly⟩ := hkept _ (gateUp_words hifs arg lines st)
  refine ⟨hresolv.trans hfiles, hpriority, hregistry, horderly, fun i hi => ?_⟩
  -- the first interface is selected
  have hfront : front sys st₁.resolv st.priority = some i := by
    rw [hfiles, h.priority]
    exact hi
  obtain ⟨hline, hruled⟩ := ruled_of_front hfront
  obtain ⟨hcall, hword, hown⟩ := gateUp_ruled sys sh (gateArgs arg) lines st hifs hline hruled
  obtain ⟨gw, hhead⟩ := headerGateway_of_ruled hruled
  obtain ⟨hi', hg'⟩ := hregistry i gw (hfiles ▸ hhead)
  rw [hcall]
  constructor
  · show topIf blanks (setGateway _ _ _ _).resolv_conf = _
    rw [setGateway_resolv_conf]
    exact topIf_resolvOf st₁ hword.1 hhead _
  · refine ⟨(⟨ownGateway st₁.resolv i, hown, hfiles ▸ hg'⟩, ⟨i, hword, hi'⟩), rfl, ?_, ?_⟩
    · show ownGateway st₁.resolv i = ownGateway (setGateway _ _ _ _).resolv i
      rw [setGateway_resolv]
    · show defaults (setGateway _ _ _ _).table = _
      rw [setGateway_table_of_gateway hword.1 hown.1]
      exact defaults_replaceRoutes h.orderly ⟨i, hword, hi'⟩ ⟨_, hown, hfiles ▸ hg'⟩

/-! ## What an event comes to -/

lemma after_append (p : Standing) (sys : Sys) (priority : Option Text) (ms ms' : List Move) :
    p.after sys priority (ms ++ ms') = (p.after sys priority ms).after sys priority ms' :=
  List.foldl_append

lemma after_cons (p : Standing) (sys : Sys) (priority : Option Text) (m : Move) (ms : List Move) :
    p.after sys priority (m :: ms) = (m.act sys priority p).after sys priority ms := rfl

/-- Whether there is a first line depends on `gateway.priority` alone. -/
lemma firstLine_ready (files files' : Dir) (priority : Option Text) :
    (firstLine blanks files priority).isSome = (firstLine blanks files' priority).isSome := by
  rcases priority with _ | file
  · rfl
  · simp only [firstLine]
    split <;> rfl

/-- `gateUp` selects exactly where there is a first line. -/
lemma gateUp_isSome (sys : Sys) (sh : Shell) (hifs : sh.ifs = .initial) (args lines : List Text) (st : State)
    (files : Dir) : (gateUp sys sh args lines st).2.isSome =
      (firstLine blanks files st.priority).isSome := by
  have htext : sh.ifs.text = blanks := by rw [hifs]; rfl
  set st' := registered sh args lines st with hst'
  rw [firstLine_ready files st'.resolv]
  by_cases hline : (firstLine blanks st'.resolv st.priority).isSome
  · obtain ⟨gw, hselect, -⟩ := select_spec sys sh.gateway hline
    rw [hline, gateUp_some sys sh args lines st (by rw [htext]; exact hselect)]
    rfl
  · have hnone : firstLine blanks st'.resolv st.priority = none := by simpa using hline
    rw [hnone, gateUp_none sys sh args lines st (by rw [htext]; exact hnone)]
    rfl

lemma ifDown_tracks (h : Tracks priority p st) (sys : Sys) (i : Token) (stops : Bool) :
    Tracks priority (p.after sys priority (downMoves i stops)) (ifDown i stops st) := by
  rcases stops with _ | _
  · exact h
  · have hclose : Tracks priority (Move.act sys priority p (.close i)) (gateDown i.1 st) :=
      h.close sys i (if_neg i.2.1.1) rfl rfl rfl
    exact hclose.flush sys i

/-- `gateway.priority` has a first line, or has none. -/
def Ready (priority : Option Text) (ready : Bool) : Prop :=
  ∀ files, (firstLine blanks files priority).isSome = ready

lemma args_words (u : Up) : u.args blanks = gateArgs (some (u.iface, u.gateway)) := by
  rw [Up.args, split_blanks u.iface.2.1, split_intercalate, gateArgs]
  · rfl
  · intro w hw
    obtain ⟨t, -, rfl⟩ := List.mem_map.mp hw
    exact t.2.1

/-- `ipUp` makes its moves, given that its `vpnUp` does, and succeeds unless there is nothing
to select by. -/
lemma ipUpThen_tracks {ready : Bool} (hready : Ready priority ready) {sh : Shell}
    (hifs : sh.ifs = .initial) {vpn : State → State} {ms : List Move}
    (hvpn : ∀ {p st}, Tracks priority p st → Tracks priority (p.after sys priority ms) (vpn st))
    (u : Up) (h : Tracks priority p st) :
    Tracks priority (p.after sys priority (u.moves ready ms)) (ipUpThen sys sh vpn u st).1 ∧
      (ipUpThen sys sh vpn u st).2 = decide (u.address → ready) := by
  by_cases haddr : u.address = true
  · set st₀ := if u.flushes then flush u.iface st else st with hst₀
    set sh' : Shell := { sh with ifname := u.iface.1 } with hsh'
    have h₀ : Tracks priority
        (p.after sys priority (if u.flushes then [.flush u.iface] else [])) st₀ := by
      by_cases hf : u.flushes = true
      · rw [hst₀, if_pos hf, if_pos hf]
        exact h.flush sys u.iface
      · rw [hst₀, if_neg hf, if_neg hf]
        exact h
    have hgate := h₀.gateUp sys sh' hifs (some (u.iface, u.gateway)) u.resolv_conf
    have hargs : u.args sh.ifs.text = gateArgs (some (u.iface, u.gateway)) := by
      rw [hifs]
      exact args_words u
    have hsome := gateUp_isSome sys sh' hifs (gateArgs (some (u.iface, u.gateway)))
      u.resolv_conf st₀ ∅
    rw [h₀.priority, hready] at hsome
    rw [Up.moves, if_pos haddr, after_append, after_cons, ipUpThen, if_pos haddr]
    simp only [← hst₀, ← hsh', hargs, haddr, true_imp_iff]
    -- without a first line `ipUp` fails here
    rcases hcall : gateUp sys sh' (gateArgs (some (u.iface, u.gateway))) u.resolv_conf st₀ with
      ⟨st₁, _ | call⟩
    · rw [hcall] at hgate hsome
      obtain rfl : false = ready := hsome
      exact ⟨hgate, rfl⟩
    · rw [hcall] at hgate hsome
      obtain rfl : true = ready := hsome
      exact ⟨hvpn (hgate.same rfl rfl rfl rfl), rfl⟩
  · rw [Up.moves, if_neg haddr, ipUpThen, if_neg haddr]
    refine ⟨h.flush sys u.iface, ?_⟩
    rw [decide_eq_true fun hc => absurd hc haddr]

lemma vpnUp_tracks {ready : Bool} (hready : Ready priority ready) {sh : Shell}
    (hifs : sh.ifs = .initial) (vpns : List Restart) (h : Tracks priority p st) :
    Tracks priority (p.after sys priority (restartMoves ready vpns)) (vpnUp sys sh vpns st) := by
  induction vpns generalizing p st with
  | nil => exact h
  | cons r vpns ih =>
    have hdown := ifDown_tracks h sys r.vpn.iface r.stops
    rw [restartMoves, after_append, vpnUp]
    by_cases hdefers : r.defers = true
    · rw [if_pos hdefers, if_pos hdefers]
      exact hdown
    · rw [if_neg hdefers, if_neg hdefers]
      exact (ipUpThen_tracks hready hifs ih r.vpn hdown).1

lemma ipUp_tracks {ready : Bool} (hready : Ready priority ready) (sh : Shell)
    (hifs : sh.ifs = .initial) (vpns : List Restart) (u : Up) (h : Tracks priority p st) :
    Tracks priority (p.after sys priority (u.moves ready (restartMoves ready vpns)))
        (ipUp sys sh vpns u st).1 ∧
      (ipUp sys sh vpns u st).2 = decide (u.address → ready) :=
  ipUpThen_tracks hready hifs (vpnUp_tracks hready hifs vpns) u h

lemma aliases_tracks (sys : Sys) (aliases : List (Token × Bool)) (h : Tracks priority p st) :
    Tracks priority (p.after sys priority (aliases.flatMap fun a => downMoves a.1 a.2))
      (aliases.foldl (fun st a => ifDown a.1 a.2 st) st) := by
  induction aliases generalizing p st with
  | nil => exact h
  | cons a aliases ih =>
    rw [List.flatMap_cons, after_append, List.foldl_cons]
    exact ih (ifDown_tracks h sys a.1 a.2)

/-- Without a peer name `ip-up` registers its link as any script does. -/
lemma args_plain {e : Ppp} (inherits : Bool) (hpeer : e.peername = []) :
    e.args inherits = gateArgs (some (e.iface, if e.defaultroute then [e.remote] else [])) := by
  by_cases hdef : e.defaultroute = true
  · rw [args_eq hdef, if_pos hpeer, if_pos hdef]
    rfl
  · have htext : (e.shell inherits).ifs.text = blanks := by rw [shell_ifs inherits hpeer]; rfl
    rw [Ppp.args, htext, Ppp.gateway, if_neg hdef, if_neg hdef, split_blanks e.iface.2.1]
    rfl

/-- An event that leaves `IFS` alone makes its moves. -/
theorem run_tracks (sys : Sys) (a : Action) (hifs : a.KeepsIfs) (h : Tracks st.priority p st) :
    Tracks st.priority (p.after sys st.priority (a.moves st)) (a.run sys st) := by
  set ready := (firstLine blanks st.resolv st.priority).isSome with hset
  have hready : Ready st.priority ready := fun files => firstLine_ready files st.resolv st.priority
  rcases a with ⟨gateway, vpns, u⟩ | ⟨gateway, valid, vpns, u⟩ | ⟨gateway, renew, l, vpns, u⟩ |
    ⟨inherits, e, vpns⟩ | ⟨gateway, i⟩ | ⟨gateway, aliases, i, stops⟩
  · exact (ipUp_tracks hready _ rfl vpns u h).1
  · set sh : Shell := ⟨.initial, u.iface.1, gateway⟩ with hsh
    have hclose : Tracks st.priority (Move.act sys st.priority p (.close u.iface))
        { st with resolv := st.resolv.erase u.iface.1 } := h.close sys u.iface rfl rfl rfl rfl
    rw [Action.run, ← hsh, Action.moves, List.cons_append, after_cons, deconfig]
    rcases valid with _ | _
    · exact (hclose.flush sys u.iface).same rfl rfl rfl rfl
    · obtain ⟨htracks, hok⟩ := ipUp_tracks hready sh rfl vpns u hclose
      simp only [if_true, true_and, ← hset]
      rw [after_append]
      by_cases hup : u.address = true → ready = true
      · rw [if_pos hup, if_pos (by rw [hok]; exact decide_eq_true hup)]
        exact htracks.same rfl rfl rfl rfl
      · rw [if_neg hup, if_neg (by rw [hok]; exact fun hc => hup (of_decide_eq_true hc))]
        exact (htracks.flush sys u.iface).same rfl rfl rfl rfl
  · set sh : Shell := ⟨.initial, u.iface.1, gateway⟩ with hsh
    rw [Action.run, ← hsh, Action.moves, bound]
    by_cases hsame : renew = true ∧ st.lease.lookup u.iface.1 = some l.spec
    · rw [if_pos hsame, if_pos hsame]
      exact h
    · obtain ⟨htracks, -⟩ := ipUp_tracks hready sh rfl vpns (l.up u) h
      rw [if_neg hsame, if_neg hsame]
      simp only
      split
      · exact htracks.same rfl rfl rfl rfl
      · exact htracks
  · have hshell := shell_ifs inherits hifs
    have hgate := h.gateUp sys (e.shell inherits) hshell (some (e.iface, if e.defaultroute then [e.remote] else []))
      e.resolvLines
    have hsome := gateUp_isSome sys (e.shell inherits) hshell (e.args inherits) e.resolvLines st st.resolv
    rw [← args_plain inherits hifs] at hgate
    rw [Action.run, Action.moves, after_cons, ip_up, ip_up_gate]
    simp only [← hset]
    rcases hcall : gateUp sys (e.shell inherits) (e.args inherits) e.resolvLines st with
      ⟨st₁, _ | call⟩
    · rw [hcall] at hgate hsome
      rw [show ready = false from hsome.symm]
      exact hgate
    · rw [hcall] at hgate hsome
      rw [show ready = true from hsome.symm, if_pos rfl]
      have hhosts : Tracks st.priority _
          (hostsUp sys (e.shell inherits) e.iface.1 e.hosts st₁) := hgate.same rfl rfl rfl rfl
      exact vpnUp_tracks (fun files => (hready files).trans hsome.symm) hshell vpns hhosts
  · have hdown : Tracks st.priority _ (gateDown [] (flush i st)) :=
      (h.flush sys i).same rfl rfl rfl rfl
    have hgate := hdown.gateUp sys ⟨.initial, i.1, gateway⟩ rfl none []
    exact hgate.same rfl rfl rfl rfl
  · have hdown := ifDown_tracks (aliases_tracks sys aliases h) sys i stops
    have hgate := hdown.gateUp sys ⟨.initial, i.1, gateway⟩ rfl none []
    rw [Action.moves, after_append, after_append]
    exact hgate.same rfl rfl rfl rfl

/-! ## The law -/

/-- What is in force stays clear of what is not registered. -/
lemma failsOver_of_inForce (h : ∀ i, front sys st.resolv st.priority = some i → InForce i st) :
    FailsOver sys st := by
  intro i hi
  obtain ⟨htop, q, hq, hg, hone⟩ := h i hi
  obtain ⟨gw, hhead⟩ := headerGateway_of_ruled (ruled_of_front hi).2
  have hne : ∀ j ∉ st.resolv, i ≠ j := by
    rintro j hj rfl
    exact hj (mem_of_headerGateway hhead)
  refine ⟨⟨htop, q, hq, hg, hone⟩, fun j hj => ⟨fun hc => ?_, fun q' hq' hc => ?_⟩⟩
  · exact hne j hj (Option.some.inj (htop.symm.trans hc))
  · rw [hone] at hq'
    obtain rfl := List.mem_singleton.mp hq'
    exact hne j hj (hq.symm.trans hc)

/-- One event that settles the gateway brings the law about. -/
lemma step_failsOver {h : Host} {e : Event} (hreg : Registry h.st.resolv)
    (hlaw : FailsOver h.sys h.st) (hsettles : Settles h e) :
    Registry (e.action.run e.sys h.st).resolv ∧ FailsOver e.sys (e.action.run e.sys h.st) := by
  have hbefore : Tracks h.st.priority
      ⟨h.st.resolv, front h.sys h.st.resolv h.st.priority⟩ h.st :=
    ⟨rfl, rfl, hreg, hsettles.orderly, fun i hi => (hlaw i hi).1⟩
  have hafter := run_tracks e.sys e.action hsettles.keepsIfs hbefore
  refine ⟨hafter.files ▸ hafter.registry, failsOver_of_inForce fun i hi => ?_⟩
  rw [hafter.files, hafter.priority] at hi
  exact hafter.held i (hsettles.held i hi)

/-- From an empty registry, the law holds behind every event of a run whose events settle
the gateway. -/
theorem failover (st₀ : State) (sys₀ : Sys) (hempty : st₀.resolv = ∅) {h : Host}
    (hrun : Reach Host.step Settles ⟨st₀, sys₀⟩ h) : FailsOver h.sys h.st := by
  have hinv : Registry h.st.resolv ∧ FailsOver h.sys h.st := by
    refine hrun.induction_on (P := fun h => Registry h.st.resolv ∧ FailsOver h.sys h.st)
      ⟨?_, ?_⟩ ?_
    · rw [hempty]
      intro i gw hi
      cases hi
    · refine failsOver_of_inForce fun i hi => ?_
      obtain ⟨gw, hhead⟩ := headerGateway_of_ruled (ruled_of_front hi).2
      rw [hempty] at hhead
      cases hhead
    · rintro h e h' ⟨hreg, hlaw⟩ hok hstep
      obtain rfl := Option.some.inj hstep
      exact step_failsOver hreg hlaw hok
  exact hinv.2

/-- An event that ends with `gateUp` settles the gateway. -/
lemma settles_of_gateUp {h : Host} {e : Event} (ms : List Move) (horderly : Orderly h.st.table)
    (hifs : e.action.KeepsIfs) {arg : Option (Token × List Token)}
    {lines : List Text} (hmoves : e.action.moves h.st = ms ++ [.gateUp arg lines]) : Settles h e where
  orderly := horderly
  keepsIfs := hifs
  held := by
    intro i hi
    rw [Event.standing, hmoves, after_append] at hi ⊢
    exact hi

/-- `eth0` and `wlan0` as they come up with an address and a gateway. -/
def ethUp : Up := ⟨eth0, true, [ethGate], [], [], false⟩
def wlanUp : Up := ⟨wlan0, true, [wlanGate], [], [], false⟩

/-- A host that takes wired interfaces first. -/
def wiredHost : Host := ⟨bare (onePriority "eth[0-9]* wlan[0-9]*"), quiet⟩

/-- A wireless interface comes up and then a wired one, which is then in force. -/
theorem failover_two :
    FailsOver quiet ((Action.ipUp [] [] ethUp).run quiet
      ((Action.ipUp [] [] wlanUp).run quiet wiredHost.st)) :=
  failover wiredHost.st quiet rfl
    (((.init : Reach Host.step Settles wiredHost wiredHost).step
        (settles_of_gateUp (e := ⟨quiet, .ipUp [] [] wlanUp⟩) [] ⟨by decide, by decide⟩
          trivial rfl) rfl).step
      (settles_of_gateUp (e := ⟨quiet, .ipUp [] [] ethUp⟩) [] ⟨by decide, by decide⟩
        trivial rfl) rfl)

/-- `eth0` loses its lease and has no address to fall back on.  Its registration is removed,
but `gateUp` is not called, and `wlan0` stays without the default route. -/
theorem deconfig_without_address :
    ∃ h, replay Host.step wiredHost [⟨quiet, .ipUp [] [] wlanUp⟩, ⟨quiet, .ipUp [] [] ethUp⟩,
        ⟨quiet, .deconfig [] true [] { ethUp with address := false }⟩] = some h ∧
      front quiet h.st.resolv h.st.priority = some wlan0.1 ∧
      topIf blanks h.st.resolv_conf = some eth0.1 ∧ defaults h.st.table = [] ∧
      ¬ FailsOver quiet h.st := by
  refine ⟨_, rfl, by decide, by decide, by decide, fun hlaw => ?_⟩
  obtain ⟨⟨htop, -⟩, -⟩ := hlaw wlan0.1 (by decide)
  exact absurd htop (by decide)

end EspLinux.Net
