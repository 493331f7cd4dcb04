import EspLinux.Net.Routes

/-!
# The network scripts: one default route, and never none

Of the commands `setGateway` gives only those about default routes change the table, and
each deletion takes one route.  What is left is then a matter of counting.
-/

namespace EspLinux.Net

open EspLinux.Lib.Words

variable {table : List Route} {i g : Token}

/-! ## What one command does -/

lemma default_isDefault (g d : Token) : (Route.default g d).IsDefault := ⟨rfl, rfl⟩

lemma defaults_add (g d : Token) : defaults ((RouteCmd.add g d).run table) = defaults table ++ [(g, d)] := by
  have hnew : [Route.default g d].filter (·.IsDefault) = [Route.default g d] :=
    List.filter_cons_of_pos (decide_eq_true (default_isDefault g d))
  rw [RouteCmd.run, defaults, List.filter_append, hnew, List.map_append]
  rfl

/-- A deletion takes one default route of its pair. -/
lemma defaults_del (g d : Token) :
    defaults ((RouteCmd.del g d).run table) = (defaults table).erase (g, d) := by
  rw [RouteCmd.run, defaults, defaults]
  induction table with
  | nil => rfl
  | cons r table ih =>
    by_cases hr : r.IsDefault
    · rw [List.filter_cons_of_pos (by simpa using hr), List.map_cons, List.erase_cons]
      by_cases hp : r.pair = (g, d)
      · rw [List.eraseP_cons_of_pos (by simp [hr, hp]), if_pos (by simpa using hp)]
      · rw [List.eraseP_cons_of_neg (by simp [hp]), if_neg (by simpa using hp),
          List.filter_cons_of_pos (by simpa using hr), List.map_cons, ih]
    · rw [List.filter_cons_of_neg (by simpa using hr), List.eraseP_cons_of_neg (by simp [hr]),
        List.filter_cons_of_neg (by simpa using hr), ih]

/-- The routes that are no default routes. -/
def others (table : List Route) : List Route := table.filter fun r => ¬ r.IsDefault

/-- No command touches the other routes. -/
lemma others_run (c : RouteCmd) : others (c.run table) = others table := by
  rcases c with ⟨g, d⟩ | ⟨g, d⟩
  · have hnew : others [Route.default g d] = [] := by
      rw [others, List.filter_cons_of_neg (by simp [default_isDefault])]
      rfl
    rw [RouteCmd.run, others, List.filter_append, ← others, ← others, hnew, List.append_nil]
  · rw [RouteCmd.run]
    induction table with
    | nil => rfl
    | cons r table ih =>
      by_cases hp : r.IsDefault ∧ r.pair = (g, d)
      · rw [List.eraseP_cons_of_pos (by simpa using hp), others, others,
          List.filter_cons_of_neg (by simp [hp.1])]
      · rw [List.eraseP_cons_of_neg (by simpa using hp), others, others, List.filter_cons,
          List.filter_cons, ← others, ← others, ih]

/-! ## What the commands do together -/

lemma tryRoute_args (c : RouteCmd) (ok : Bool) :
    tryRoute table (c.args, ok) = if ok then c.run table else table := by
  rw [tryRoute, RouteCmd.parse_args]

lemma others_tryRoutes (tried : List (List Text × Bool)) (table : List Route) :
    others (tryRoutes tried table) = others table := by
  induction tried generalizing table with
  | nil => rfl
  | cons t tried ih =>
    have hstep : others (tryRoute table t) = others table := by
      rw [tryRoute]
      split
      · split
        · exact others_run _
        · rfl
      · rfl
    rw [tryRoutes, List.foldl_cons, ← tryRoutes, ih, hstep]

/-- How often a command was tried with success. -/
def succeeded (tried : List (List Text × Bool)) (c : RouteCmd) : ℕ := tried.count (c.args, true)

lemma args_injective : Function.Injective RouteCmd.args := by
  intro c d h
  have hparse := congrArg RouteCmd.parse h
  rw [RouteCmd.parse_args, RouteCmd.parse_args] at hparse
  exact Option.some.inj hparse

lemma succeeded_cons (c d : RouteCmd) (ok : Bool) (tried : List (List Text × Bool)) :
    succeeded ((d.args, ok) :: tried) c = succeeded tried c + if d = c ∧ ok = true then 1 else 0 := by
  rw [succeeded, List.count_cons]
  congr 1
  refine if_congr ?_ rfl rfl
  rw [beq_iff_eq, Prod.mk.injEq, args_injective.eq_iff]

/-- After deletions with their outcomes, a pair has as many default routes less as
deletions of it succeeded. -/
lemma count_tryRoutes_dels {ps : List (Token × Token)} {tried : List (List Text × Bool)}
    (h : tried.map Prod.fst = ps.map fun p => (RouteCmd.del p.1 p.2).args) (q : Token × Token)
    (table : List Route) :
    (defaults (tryRoutes tried table)).count q =
      (defaults table).count q - succeeded tried (.del q.1 q.2) := by
  induction ps generalizing tried table with
  | nil =>
    obtain rfl : tried = [] := List.map_eq_nil_iff.mp h
    rfl
  | cons p ps ih =>
    obtain ⟨⟨args, ok⟩, tried, rfl, hargs, htried⟩ := List.map_eq_cons_iff.mp h
    obtain rfl : args = (RouteCmd.del p.1 p.2).args := hargs
    rw [tryRoutes, List.foldl_cons, ← tryRoutes, ih htried, succeeded_cons, tryRoute_args]
    have hpair : RouteCmd.del p.1 p.2 = RouteCmd.del q.1 q.2 ↔ p = q := by
      rw [RouteCmd.del.injEq, Prod.ext_iff]
    by_cases hok : ok = true
    · rw [if_pos hok, defaults_del, Prod.mk.eta, List.count_erase]
      by_cases hpq : p = q
      · rw [if_pos (by simpa using hpq), if_pos ⟨hpair.mpr hpq, hok⟩]
        omega
      · rw [if_neg (by simpa using hpq), if_neg (fun hc => hpq (hpair.mp hc.1))]
        omega
    · rw [if_neg hok, if_neg (fun hc => hok hc.2), Nat.add_zero]

/-- A default route is found among the lines the script looks at. -/
lemma count_defaults_le (table : List Route) (q : Token × Token) :
    (defaults table).count q ≤ (zeroLines table).count q := by
  have hsub : (table.filter (·.IsDefault)).Sublist (table.filter (·.dest = zeros)) := by
    have hand : table.filter (·.IsDefault) =
        (table.filter (·.dest = zeros)).filter (·.IsDefault) := by
      rw [List.filter_filter]
      refine List.filter_congr fun r _ => ?_
      rw [Bool.eq_iff_iff, Bool.and_eq_true, decide_eq_true_eq, decide_eq_true_eq]
      exact ⟨fun hr => ⟨hr, hr.1⟩, fun hr => hr.1⟩
    rw [hand]
    exact List.filter_sublist
  exact (hsub.map Route.pair).count_le q

lemma mem_defaults_zeroLines {p : Token × Token} (h : p ∈ defaults table) : p ∈ zeroLines table := by
  have hcount := count_defaults_le table p
  have hpos := List.count_pos_iff.mpr h
  exact List.count_pos_iff.mp (by omega)

/-- What is left of the default routes, pair by pair: those of the wanted pair and the new
one, and of every other pair those whose deletion failed. -/
theorem count_tryRoutes {tried : List (List Text × Bool)}
    (h : tried.map Prod.fst = routeCmds blanks i.1 g.1 table) (q : Token × Token) :
    (defaults (tryRoutes tried table)).count q =
      (defaults table).count q + (if q = (g, i) then succeeded tried (.add g i) else 0)
        - succeeded tried (.del q.1 q.2) := by
  set dels := (zeroLines table).filter (· ≠ (g, i)) with hdels
  have hadd : ∀ {l : List (List Text × Bool)} {ps : List (Token × Token)} (c : Token × Token),
      l.map Prod.fst = ps.map (fun p => (RouteCmd.del p.1 p.2).args) →
        succeeded l (.add c.1 c.2) = 0 := by
    intro l ps c hl
    refine List.count_eq_zero.mpr fun hm => ?_
    have hfst := List.mem_map_of_mem (f := Prod.fst) hm
    rw [hl] at hfst
    obtain ⟨p, -, hp⟩ := List.mem_map.mp hfst
    have hp : (RouteCmd.del p.1 p.2).args = (RouteCmd.add c.1 c.2).args := hp
    exact RouteCmd.noConfusion (args_injective hp)
  rw [routeCmds_eq, wantedCmds, List.map_append, List.map_map, ← hdels] at h
  by_cases hmem : (g, i) ∈ zeroLines table
  · rw [if_pos hmem] at h
    have h : tried.map Prod.fst = dels.map fun p => (RouteCmd.del p.1 p.2).args := h
    rw [count_tryRoutes_dels h, hadd (g, i) h, ite_self, Nat.add_zero]
  · rw [if_neg hmem] at h
    obtain ⟨⟨args, ok⟩, rest, rfl, hargs, hrest⟩ := List.map_eq_cons_iff.mp h
    obtain rfl : args = (RouteCmd.add g i).args := hargs
    have hrest : rest.map Prod.fst = dels.map fun p => (RouteCmd.del p.1 p.2).args := hrest
    have hnew : ¬ (RouteCmd.add g i = RouteCmd.del q.1 q.2 ∧ ok = true) :=
      fun hc => RouteCmd.noConfusion hc.1
    rw [tryRoutes, List.foldl_cons, ← tryRoutes, count_tryRoutes_dels hrest,
      succeeded_cons (.add g i), hadd (g, i) hrest, succeeded_cons (.del q.1 q.2), if_neg hnew,
      tryRoute_args]
    by_cases hok : ok = true
    · rw [if_pos hok, defaults_add, List.count_append, List.count_singleton,
        if_pos (show RouteCmd.add g i = RouteCmd.add g i ∧ ok = true from ⟨rfl, hok⟩)]
      by_cases hq : q = (g, i)
      · rw [if_pos hq, if_pos (by simpa using hq.symm)]
        rfl
      · rw [if_neg hq, if_neg (by simpa using fun hc => hq hc.symm)]
        rfl
    · rw [if_neg hok, if_neg (show ¬ (RouteCmd.add g i = RouteCmd.add g i ∧ ok = true) from
        fun hc => hok hc.2), ite_self]
      rfl

/-! ## Switching to a gateway -/

/-- The table `setGateway` leaves has one default route, through the interface and the
gateway, the other routes are as they were, and running it again gives no command. -/
def Converged (i g : Token) (table : List Route) : Prop :=
  let table' := replaceRoutes blanks i.1 g.1 table
  defaults table' = [(g, i)] ∧ others table' = others table ∧
    routeCmds blanks i.1 g.1 table' = []

/-- The pairs of the routes to `0.0.0.0` that are no default routes, since they have a
mask. -/
def masked (table : List Route) : List (Token × Token) :=
  ((others table).filter (·.dest = zeros)).map Route.pair

lemma mem_zeroLines {p : Token × Token} :
    p ∈ zeroLines table ↔ p ∈ defaults table ∨ p ∈ masked table := by
  simp only [zeroLines, defaults, masked, others, List.mem_map, List.mem_filter,
    decide_eq_true_eq]
  constructor
  · rintro ⟨r, ⟨hr, hz⟩, rfl⟩
    by_cases hd : r.IsDefault
    · exact .inl ⟨r, ⟨hr, hd⟩, rfl⟩
    · exact .inr ⟨r, ⟨⟨hr, hd⟩, hz⟩, rfl⟩
  · rintro (⟨r, ⟨hr, hd⟩, rfl⟩ | ⟨r, ⟨⟨hr, -⟩, hz⟩, rfl⟩)
    · exact ⟨r, ⟨hr, hd.1⟩, rfl⟩
    · exact ⟨r, ⟨hr, hz⟩, rfl⟩

/-- Where every command succeeds, each deletion given is made. -/
lemma succeeded_all (cmds : List RouteCmd) (c : RouteCmd) :
    succeeded ((cmds.map RouteCmd.args).map (·, true)) c = cmds.count c := by
  rw [succeeded, List.map_map]
  exact List.count_map_of_injective _ _ (fun a b h => args_injective (Prod.mk.inj h).1) _

lemma count_add_wantedCmds : (wantedCmds i g table).count (.add g i) =
    if (g, i) ∈ zeroLines table then 0 else 1 := by
  have hdels : (((zeroLines table).filter (· ≠ (g, i))).map
      fun p => RouteCmd.del p.1 p.2).count (.add g i) = 0 := by
    refine List.count_eq_zero.mpr fun hm => ?_
    obtain ⟨p, -, hp⟩ := List.mem_map.mp hm
    exact RouteCmd.noConfusion hp
  rw [wantedCmds, List.count_append, hdels]
  split
  · rfl
  · rw [List.count_singleton_self]

lemma count_del_wantedCmds (table : List Route) (q : Token × Token) :
    (wantedCmds i g table).count (.del q.1 q.2) =
    if q = (g, i) then 0 else (zeroLines table).count q := by
  have hadd : (if (g, i) ∈ zeroLines table then [] else [RouteCmd.add g i]).count
      (.del q.1 q.2) = 0 := by
    refine List.count_eq_zero.mpr fun hm => ?_
    split at hm
    · exact absurd hm List.not_mem_nil
    · exact RouteCmd.noConfusion (List.mem_singleton.mp hm)
  have hinj : Function.Injective fun p : Token × Token => RouteCmd.del p.1 p.2 := by
    intro p p' h
    obtain ⟨h₁, h₂⟩ := RouteCmd.del.inj h
    exact Prod.ext h₁ h₂
  rw [wantedCmds, List.count_append, hadd, Nat.zero_add,
    List.count_map_of_injective _ (fun p : Token × Token => RouteCmd.del p.1 p.2) hinj q]
  split
  · rename_i hq
    exact List.count_eq_zero.mpr fun hm => by simpa [hq] using (List.mem_filter.mp hm).2
  · rename_i hq
    exact List.count_filter (by simpa using hq)

/-- Where every command succeeds, the default routes left are those of the wanted pair and
a new one if no line held it. -/
lemma count_replaceRoutes (table : List Route) (q : Token × Token) :
    (defaults (replaceRoutes blanks i.1 g.1 table)).count q =
      if q = (g, i) then (defaults table).count q + (if (g, i) ∈ zeroLines table then 0 else 1)
      else 0 := by
  have htried : ((routeCmds blanks i.1 g.1 table).map (·, true)).map Prod.fst =
      routeCmds blanks i.1 g.1 table := by
    rw [List.map_map]
    exact List.map_id _
  rw [replaceRoutes, count_tryRoutes htried, routeCmds_eq, succeeded_all, succeeded_all,
    count_add_wantedCmds, count_del_wantedCmds]
  by_cases hq : q = (g, i)
  · rw [if_pos hq, if_pos hq, if_pos hq]
    rfl
  · have hle := count_defaults_le table q
    rw [if_neg hq, if_neg hq, if_neg hq]
    omega

lemma routeCmds_eq_nil_iff :
    routeCmds blanks i.1 g.1 table = [] ↔ (g, i) ∈ zeroLines table ∧ ∀ p ∈ zeroLines table, p = (g, i) := by
  rw [routeCmds_eq, List.map_eq_nil_iff, wantedCmds, List.append_eq_nil_iff, List.map_eq_nil_iff,
    List.filter_eq_nil_iff]
  refine and_congr ?_ (forall₂_congr fun p _ => by simp)
  split
  · rename_i h
    exact iff_of_true rfl h
  · rename_i h
    exact iff_of_false (by simp) h

/-- `setGateway` converges to one default route exactly where no route to `0.0.0.0` but
the default routes is in its way: each has the wanted gateway and interface, and such a
default route is there already. -/
theorem setGateway_converges (hnodup : (defaults table).Nodup) :
    Converged i g table ↔ ∀ p ∈ masked table, p = (g, i) ∧ (g, i) ∈ defaults table := by
  have hothers : others (replaceRoutes blanks i.1 g.1 table) = others table := others_tryRoutes _ _
  have hmasked : masked (replaceRoutes blanks i.1 g.1 table) = masked table := by
    rw [masked, hothers, masked]
  constructor
  · rintro ⟨hone, -, hnone⟩ p hp
    obtain ⟨-, hall⟩ := routeCmds_eq_nil_iff.mp hnone
    have hpg : p = (g, i) := hall p (mem_zeroLines.mpr (.inr (hmasked ▸ hp)))
    refine ⟨hpg, ?_⟩
    -- the line of the masked route keeps the script from adding the default route
    have hline : (g, i) ∈ zeroLines table := mem_zeroLines.mpr (.inr (hpg ▸ hp))
    have hcount := count_replaceRoutes table (i := i) (g := g) (g, i)
    rw [hone, List.count_singleton_self, if_pos rfl, if_pos hline] at hcount
    exact List.count_pos_iff.mp (by omega)
  · intro h
    have hone : defaults (replaceRoutes blanks i.1 g.1 table) = [(g, i)] := by
      refine List.perm_singleton.mp (List.perm_iff_count.mpr fun q => ?_)
      rw [count_replaceRoutes, List.count_singleton]
      by_cases hq : q = (g, i)
      · have hself : ((g, i) == q) = true := beq_iff_eq.mpr hq.symm
        rw [if_pos hq, if_pos hself, hq]
        by_cases hmem : (g, i) ∈ defaults table
        · rw [if_pos (mem_defaults_zeroLines hmem), List.count_eq_one_of_mem hnodup hmem]
        · have hline : (g, i) ∉ zeroLines table := fun hl => by
            rcases mem_zeroLines.mp hl with hd | hm
            · exact hmem hd
            · exact hmem (h _ hm).2
          rw [if_neg hline, List.count_eq_zero.mpr hmem]
      · rw [if_neg hq, if_neg (by simpa using fun hc => hq hc.symm)]
    refine ⟨hone, hothers, routeCmds_eq_nil_iff.mpr ⟨?_, ?_⟩⟩
    · exact mem_defaults_zeroLines (by rw [hone]; exact List.mem_singleton_self _)
    · intro p hp
      rcases mem_zeroLines.mp hp with hd | hm
      · rw [hone] at hd
        exact List.mem_singleton.mp hd
      · exact (h p (hmasked ▸ hm)).1

def eth0 : Token := ⟨"eth0".toList, by decide⟩
def wlan0 : Token := ⟨"wlan0".toList, by decide⟩
def ppp0 : Token := ⟨"ppp0".toList, by decide⟩
def tun0 : Token := ⟨"tun0".toList, by decide⟩
def ethGate : Token := ⟨"10.0.0.1".toList, by decide⟩
def wlanGate : Token := ⟨"10.0.1.1".toList, by decide⟩
def pppGate : Token := ⟨"10.64.0.1".toList, by decide⟩
def tunGate : Token := ⟨"10.8.0.1".toList, by decide⟩

/-- A table as a tunnel leaves it: the half `0.0.0.0/1` of all destinations is routed
through `tun0`, the default route goes through `eth0`. -/
def halfTable : List Route :=
  [Route.default ethGate eth0,
    { Route.default tunGate tun0 with genmask := ⟨"128.0.0.0".toList, by decide⟩ }]

/-- Two default routes are replaced by a third. -/
theorem setGateway_converges_two :
    Converged ppp0 pppGate [Route.default ethGate eth0, Route.default wlanGate wlan0] :=
  (setGateway_converges (by decide)).mpr (by decide)

/-- The route of a tunnel is taken for a default route: asking for it deletes the only
default route, and asking for another leaves a deletion for every run to come. -/
theorem tunnel_route_in_the_way :
    (defaults halfTable).Nodup ∧ ¬ Converged tun0 tunGate halfTable ∧
      ¬ Converged eth0 ethGate halfTable := by
  have hnodup : (defaults halfTable).Nodup := by decide
  have hmasked : (tunGate, tun0) ∈ masked halfTable := by decide
  refine ⟨hnodup, ?_, ?_⟩
  · rintro ⟨hone, -, -⟩
    have hcount := count_replaceRoutes halfTable (i := tun0) (g := tunGate)
      (tunGate, tun0)
    rw [hone, List.count_singleton_self, if_pos rfl] at hcount
    exact absurd hcount (by decide)
  · rintro ⟨-, hothers, hnone⟩
    have hline := (routeCmds_eq_nil_iff.mp hnone).2 (tunGate, tun0)
      (mem_zeroLines.mpr (.inr (by rw [masked, hothers, ← masked]; exact hmasked)))
    exact absurd hline (by decide)

/-- A default route is left exactly where the new one was added, or for some default
route fewer deletions of it succeeded than there are such routes. -/
theorem default_route_left {tried : List (List Text × Bool)}
    (h : tried.map Prod.fst = routeCmds blanks i.1 g.1 table) :
    defaults (tryRoutes tried table) ≠ [] ↔
      ((RouteCmd.add g i).args, true) ∈ tried ∨
        ∃ p ∈ defaults table,
          tried.count ((RouteCmd.del p.1 p.2).args, true) < (defaults table).count p := by
  have hcount := count_tryRoutes h
  -- the wanted route is never deleted
  have hkept : succeeded tried (.del g i) = 0 := by
    refine List.count_eq_zero.mpr fun hm => ?_
    have hfst := List.mem_map_of_mem (f := Prod.fst) hm
    rw [h, routeCmds_eq] at hfst
    obtain ⟨c, hc, hcargs⟩ := List.mem_map.mp hfst
    have hcargs : c.args = (RouteCmd.del g i).args := hcargs
    obtain rfl := args_injective hcargs
    have hzero := count_del_wantedCmds table (i := i) (g := g) (g, i)
    rw [if_pos rfl] at hzero
    exact List.count_eq_zero.mp hzero hc
  constructor
  · intro hne
    obtain ⟨q, hq⟩ := List.exists_mem_of_ne_nil _ hne
    have hpos := List.count_pos_iff.mpr hq
    rw [hcount] at hpos
    by_cases hadd : ((RouteCmd.add g i).args, true) ∈ tried
    · exact .inl hadd
    · have hzero : succeeded tried (.add g i) = 0 := List.count_eq_zero.mpr hadd
      rw [hzero, ite_self, Nat.add_zero] at hpos
      refine .inr ⟨q, List.count_pos_iff.mp (by omega), ?_⟩
      have hlt : succeeded tried (.del q.1 q.2) < (defaults table).count q := by omega
      exact hlt
  · rintro (hadd | ⟨q, -, hlt⟩)
    · have hpos : 0 < succeeded tried (.add g i) := List.count_pos_iff.mpr hadd
      have hnew := hcount (g, i)
      rw [if_pos rfl, hkept] at hnew
      exact List.ne_nil_of_mem (List.count_pos_iff.mp (show 0 < _ by rw [hnew]; omega))
    · have hlt : succeeded tried (.del q.1 q.2) < (defaults table).count q := hlt
      have hleft := hcount q
      exact List.ne_nil_of_mem (List.count_pos_iff.mp (show 0 < _ by rw [hleft]; omega))

/-- The table with one default route, through `eth0`. -/
def oneRoute : List Route := [Route.default ethGate eth0]

/-- The commands that switch it to `wlan0`. -/
lemma routeCmds_oneRoute : routeCmds blanks wlan0.1 wlanGate.1 oneRoute =
    [(RouteCmd.add wlanGate wlan0).args,
      (RouteCmd.del ethGate eth0).args] :=
  routeCmds_eq wlan0 wlanGate oneRoute

/-- Where both commands succeed, the new default route is left. -/
theorem default_route_left_switched :
    defaults (tryRoutes ((routeCmds blanks wlan0.1 wlanGate.1 oneRoute).map (·, true))
      oneRoute) ≠ [] :=
  (default_route_left (i := wlan0) (g := wlanGate)
    (by rw [List.map_map]; exact List.map_id _)).mpr
      (.inl (by rw [routeCmds_oneRoute]; exact List.mem_cons_self))

/-- The new route cannot be added, and the old one is deleted all the same. -/
theorem stranded_by_failed_add :
    defaults oneRoute ≠ [] ∧
      ∃ tried : List (List Text × Bool),
        tried.map Prod.fst = routeCmds blanks wlan0.1 wlanGate.1 oneRoute ∧
          defaults (tryRoutes tried oneRoute) = [] := by
  refine ⟨by decide, [((RouteCmd.add wlanGate wlan0).args, false),
    ((RouteCmd.del ethGate eth0).args, true)], routeCmds_oneRoute.symm, ?_⟩
  have hadd : tryRoute oneRoute ((RouteCmd.add wlanGate wlan0).args, false) = oneRoute :=
    tryRoute_args _ _
  have hdel : tryRoute oneRoute ((RouteCmd.del ethGate eth0).args, true) =
      (RouteCmd.del ethGate eth0).run oneRoute := tryRoute_args _ _
  rw [tryRoutes, List.foldl_cons, List.foldl_cons, hadd, hdel, List.foldl_nil, defaults_del]
  decide

end EspLinux.Net
