import EspLinux.Net.Gateway

/-!
# The network scripts: the documented rule

Both users of `gateway.priority` follow the rule written in it: `gateUp` where it finds an
interface, and `gatePriority`, which compares two of them.
-/

namespace EspLinux.Net

open EspLinux.Lib.Words

/-! ## gateUp -/

/-- The arguments of `gateUp $IFNAME $GATEWAY`: none, or an interface and the words of its
gateway. -/
def gateArgs : Option (Token × List Token) → List Text
  | none => []
  | some (i, gateways) => i.1 :: gateways.map (·.1)

/-- The first word of the gateway an interface is registered with, empty if it has none. -/
def ownGateway (files : Dir) (i : Text) : Text :=
  if i = [] then [] else (split blanks ((headerGateway files i).getD [])).headD []

/-- `gateUp` called with `args` handed `setGateway` the interface of the rule, or else its
argument, and the gateway that interface is registered with. -/
def FollowsRule (sys : Sys) (st : State) (args : List Text) (call : Option (Text × Text)) : Prop :=
  ∃ i, call = some (i, ownGateway st.resolv i) ∧
    i = (ruled sys st.resolv st.priority).getD (args.headD [])

/-- The state `gateUp` selects in: its arguments are registered. -/
def registered (sh : Shell) (args resolv_conf : List Text) (st : State) : State :=
  { st with resolv := register sh.ifs.text args resolv_conf st.resolv }

variable {sys : Sys} {sh : Shell} {args resolv_conf : List Text} {st : State}

/-- Without a first line `gateUp` returns early. -/
lemma gateUp_none (sys : Sys) (sh : Shell) (args resolv_conf : List Text) (st : State)
    (hline : firstLine sh.ifs.text (registered sh args resolv_conf st).resolv
      st.priority = none) :
    gateUp sys sh args resolv_conf st = (registered sh args resolv_conf st, none) := by
  have hselect := select_none sys sh.gateway hline
  rw [registered] at hselect
  rw [gateUp]
  simp only [hselect]
  rfl

/-- With what the loops settled on, `gateUp` calls `setGateway`. -/
lemma gateUp_some (sys : Sys) (sh : Shell) (args resolv_conf : List Text) (st : State) {top : Option Text} {gw : Text}
    (hselect : select sh.ifs.text sys (registered sh args resolv_conf st).resolv st.priority
      sh.gateway = some (top, gw)) :
    let params := split sh.ifs.text (top.getD (args.headD [])) ++ split sh.ifs.text gw
    gateUp sys sh args resolv_conf st =
      (setGateway sh.ifs.text (params.getD 0 []) (params.getD 1 []) (registered sh args resolv_conf st),
        some (params.getD 0 [], params.getD 1 [])) := by
  rw [registered] at hselect
  rw [gateUp]
  simp only [hselect]
  rfl

/-- The two parameters, where nothing was found and there is an interface argument. -/
lemma params_of_word {ifs i : Text} (hi : split ifs i = [i]) (gw : Text) :
    ((split ifs i ++ split ifs gw).getD 0 [], (split ifs i ++ split ifs gw).getD 1 []) =
      (i, (split ifs gw).headD []) := by
  rw [hi]
  rcases split ifs gw with _ | ⟨w, ws⟩ <;> rfl

/-- The interface of the rule and its gateway are words. -/
lemma isWord_ownGateway {files : Dir} {priority : Option Text} {i : Text}
    (hi : ruled sys files priority = some i) :
    IsWord i ∧ IsWord (ownGateway files i) ∧
      ∀ gw, headerGateway files i = some gw → (split blanks gw).headD [] = ownGateway files i := by
  obtain ⟨gw, hhead⟩ := headerGateway_of_ruled hi
  have hword := isWord_of_headerGateway (ne_nil_of_ruled hi) hhead
  obtain ⟨w, ws, hsplit, hw⟩ := split_headerGateway hhead
  have hown : ownGateway files i = w := by
    rw [ownGateway, if_neg hword.1, hhead, Option.getD_some, hsplit]
    rfl
  refine ⟨hword, hown ▸ hw, fun gw' hgw' => ?_⟩
  rw [Option.some.inj (hgw'.symm.trans hhead), hsplit, hown]
  rfl

/-- Where `gateUp` finds an interface, it hands over that and its gateway. -/
lemma gateUp_ruled (sys : Sys) (sh : Shell) (args resolv_conf : List Text) (st : State)
    (hifs : sh.ifs = .initial)
    (hline : (firstLine blanks (registered sh args resolv_conf st).resolv st.priority).isSome)
    {i : Text} (hi : ruled sys (registered sh args resolv_conf st).resolv st.priority = some i) :
    let st' := registered sh args resolv_conf st
    gateUp sys sh args resolv_conf st =
      (setGateway blanks i (ownGateway st'.resolv i) st', some (i, ownGateway st'.resolv i)) ∧
      IsWord i ∧ IsWord (ownGateway st'.resolv i) := by
  intro st'
  obtain ⟨gw, hselect, hgw, -⟩ := select_spec sys sh.gateway hline
  obtain ⟨hword, hown, hfirst⟩ := isWord_ownGateway hi
  have htext : sh.ifs.text = blanks := by rw [hifs]; rfl
  have hselect : select sh.ifs.text sys st'.resolv st.priority sh.gateway = some (some i, gw) := by
    rw [htext, hselect]
    exact congrArg (fun o => some (o, gw)) hi
  have hparams := params_of_word (split_blanks hword) gw
  rw [hfirst gw (hgw i hi)] at hparams
  obtain ⟨h₀, h₁⟩ := Prod.mk.inj hparams
  have hcall := gateUp_some _ _ _ _ _ hselect
  rw [htext] at hcall
  simp only [Option.getD_some, h₀, h₁] at hcall
  exact ⟨hcall, hword, hown⟩

/-- The condition under which `gateUp` follows the rule.  In a shell with its first `IFS`
some interface is found by the rule, or what is left in `gateway` starts with the gateway
its argument is registered with.  With an empty `IFS` nothing is found, so the rule must
name the argument or nothing, and `gateway` hold what the argument is registered with. -/
def Settled (sys : Sys) (sh : Shell) (arg : Text) (st : State) : Prop :=
  (firstLine blanks st.resolv st.priority).isSome ∧
    match sh.ifs with
    | .initial =>
      ruled sys st.resolv st.priority = none →
        (split blanks (leftOver sys st.resolv st.priority sh.gateway)).headD [] =
          ownGateway st.resolv arg
    | .empty =>
      (ruled sys st.resolv st.priority).getD arg = arg ∧
        (if readsAny [] sys st.resolv st.priority then [] else sh.gateway) = ownGateway st.resolv arg

/-- Whether there is a first line does not depend on `IFS`. -/
lemma firstLine_isSome (ifs : Text) (files : Dir) (priority : Option Text) :
    (firstLine ifs files priority).isSome = (firstLine blanks files priority).isSome := by
  rcases priority with _ | file
  · rfl
  · simp only [firstLine]
    split <;> rfl

/-- The two parameters, where nothing was found and there is no interface argument: what is
left in `gateway` moves up to the interface's place. -/
lemma params_of_nil (ifs gw : Text) :
    ((split ifs [] ++ split ifs gw).getD 0 [], (split ifs [] ++ split ifs gw).getD 1 []) =
      ((split ifs gw).headD [], (split ifs gw).getD 1 []) := by
  rw [split_nil, List.nil_append]
  rcases split ifs gw with _ | ⟨w, ws⟩ <;> rfl

lemma ownGateway_nil (files : Dir) : ownGateway files [] = [] := if_pos rfl

lemma followsRule_iff {i gw : Text} : FollowsRule sys st args (some (i, gw)) ↔
    i = (ruled sys st.resolv st.priority).getD (args.headD []) ∧ gw = ownGateway st.resolv i := by
  constructor
  · rintro ⟨j, hcall, hj⟩
    obtain ⟨rfl, hgw⟩ := Prod.mk.inj (Option.some.inj hcall)
    exact ⟨hj, hgw⟩
  · rintro ⟨hi, rfl⟩
    exact ⟨i, rfl, hi⟩

/-- `gateUp` follows the documented rule exactly where it is settled what it finds, or the
value left in `gateway` happens to start with the gateway its argument is registered
with. -/
theorem gateUp_follows_rule (sys : Sys) (sh : Shell) (arg : Option (Token × List Token))
    (resolv_conf : List Text) (st : State) :
    let st' := registered sh (gateArgs arg) resolv_conf st
    FollowsRule sys st' (gateArgs arg) (gateUp sys sh (gateArgs arg) resolv_conf st).2 ↔
      Settled sys sh ((gateArgs arg).headD []) st' := by
  intro st'
  by_cases hline : (firstLine blanks st'.resolv st.priority).isSome
  · rw [Settled]
    rw [and_iff_right (show (firstLine blanks st'.resolv st'.priority).isSome = true from hline)]
    rcases hifs : sh.ifs with _ | _
    · have htext : sh.ifs.text = blanks := by rw [hifs]; rfl
      rcases hr : ruled sys st'.resolv st'.priority with _ | i
      · obtain ⟨gw, hselect, -, hleft⟩ := select_spec sys sh.gateway hline
        have hselect : select sh.ifs.text sys st'.resolv st.priority sh.gateway = some (none, gw) := by
          rw [htext, hselect]
          exact congrArg (fun o => some (o, gw)) hr
        have hgw : gw = leftOver sys st'.resolv st'.priority sh.gateway := hleft hr
        have hcall := gateUp_some _ _ _ _ _ hselect
        rw [hcall, ← hgw, htext, Option.getD_none]
        simp only [forall_const]
        rcases arg with _ | ⟨i, gateways⟩
        · have hhead : (gateArgs none).headD [] = [] := rfl
          rw [hhead, params_of_nil, followsRule_iff, hr, Option.getD_none, hhead, ownGateway_nil]
          constructor
          · exact fun h => h.1
          · intro h
            refine ⟨h, ?_⟩
            rw [h, ownGateway_nil]
            rcases hs : split blanks gw with _ | ⟨w, ws⟩
            · rfl
            · have hw : IsWord w := isWord_of_mem_split (s := gw) (by rw [hs]; exact List.mem_cons_self)
              rw [hs] at h
              exact absurd h hw.1
        · have hhead : (gateArgs (some (i, gateways))).headD [] = i.1 := rfl
          rw [hhead, params_of_word (split_blanks i.2.1), followsRule_iff, hr, Option.getD_none, hhead]
          exact and_iff_right rfl
      · obtain ⟨hcall, -, -⟩ := gateUp_ruled _ _ _ _ _ hifs hline hr
        rw [hcall, followsRule_iff, hr]
        exact iff_of_true ⟨rfl, rfl⟩ nofun
    · have htext : sh.ifs.text = [] := by rw [hifs]; rfl
      have hselect : select sh.ifs.text sys st'.resolv st.priority sh.gateway =
          some (none, if readsAny [] sys st'.resolv st.priority then [] else sh.gateway) := by
        rw [htext]
        exact select_empty _ _ (by rw [firstLine_isSome]; exact hline)
      have hcall := gateUp_some _ _ _ _ _ hselect
      generalize hgw : (if readsAny [] sys st'.resolv st.priority then [] else sh.gateway) = gw at hcall
      have hsplit : (split [] gw).headD [] = gw := by
        rcases gw with _ | ⟨c, gw⟩
        · rfl
        · rw [split_empty (List.cons_ne_nil c gw)]
          rfl
      rw [hcall, htext, Option.getD_none]
      show _ ↔ _ ∧ (if readsAny [] sys st'.resolv st.priority then [] else sh.gateway) = _
      rw [hgw]
      rcases arg with _ | ⟨i, gateways⟩
      · have hhead : (gateArgs none).headD [] = [] := rfl
        rw [hhead, params_of_nil, followsRule_iff, hhead, hsplit, ownGateway_nil]
        constructor
        · rintro ⟨hi, hg⟩
          rcases hr : ruled sys st'.resolv st'.priority with _ | j
          · rw [hr] at hi
            exact ⟨rfl, hi⟩
          · -- the gateway of a registered interface is not empty
            rw [hr, Option.getD_some] at hi
            obtain ⟨-, hown, -⟩ := isWord_ownGateway hr
            have hone : (split [] gw).getD 1 [] = [] := by
              rcases gw with _ | ⟨c, gw⟩
              · rfl
              · rw [split_empty (List.cons_ne_nil c gw)]
                rfl
            rw [hone, hi] at hg
            exact absurd hg.symm hown.1
        · rintro ⟨hr, rfl⟩
          exact ⟨hr.symm, (ownGateway_nil _).symm⟩
      · have hhead : (gateArgs (some (i, gateways))).headD [] = i.1 := rfl
        rw [hhead, params_of_word (split_empty i.2.1.1), followsRule_iff, hhead, hsplit]
        exact and_congr_left fun _ => eq_comm
  · have hnone : firstLine blanks st'.resolv st.priority = none := by simpa using hline
    have hcall : gateUp sys sh (gateArgs arg) resolv_conf st = (st', none) :=
      gateUp_none _ _ _ _ _ (by rw [← Option.not_isSome_iff_eq_none, firstLine_isSome]; exact hline)
    rw [hcall]
    refine iff_of_false ?_ fun hc => hline hc.1
    rintro ⟨i, hi, -⟩
    cases hi

/-- A shell with the `IFS` it started with. -/
def fresh : Shell := ⟨.initial, [], []⟩

/-- `gateway.priority` as one line. -/
def onePriority (line : String) : Option Text := some (line.toList ++ ['\n'])

/-- Nothing plugged in or out. -/
def quiet : Sys := ⟨fun _ => ['1'], fun _ => [], "esp".toList⟩

/-- A host without files and routes, with this `gateway.priority`. -/
def bare (priority : Option Text) : State where
  resolv := ∅
  hosts := ∅
  lease := ∅
  dns := none
  priority := priority
  resolv_dnsmasq := []
  resolv_conf := []
  etc_hosts := ⟨[], []⟩
  table := []

/-- The file of `eth0` carries another interface's header.  It is passed over, but its
gateway goes to `wlan0`, which has none. -/
theorem gateway_of_rejected_file :
    let st := { bare (onePriority "eth0") with
      resolv := AList.insert eth0.1 ["#eth1 10.0.0.1".toList] ∅ }
    (gateUp quiet fresh [wlan0.1] [] st).2 = some (wlan0.1, ethGate.1) ∧
      ¬ FollowsRule quiet (registered fresh [wlan0.1] [] st) [wlan0.1]
        (gateUp quiet fresh [wlan0.1] [] st).2 := by
  intro st
  have hcall : (gateUp quiet fresh [wlan0.1] [] st).2 = some (wlan0.1, ethGate.1) := by
    decide
  refine ⟨hcall, ?_⟩
  rw [hcall]
  rintro ⟨i, hi, -⟩
  obtain ⟨rfl, hown⟩ := Prod.mk.inj (Option.some.inj hi)
  exact absurd hown (by decide)

/-! ## gatePriority -/

/-- The loop of `gatePriority` over the names. -/
def comesFirst (a b : Text) : List Text → ℕ
  | [] => 2
  | interface :: rest =>
    if interface = a then 0 else if interface = b then 1 else comesFirst a b rest

/-- The status `gatePriority a b` returns. -/
def gatePriority (ifs : Text) (files : Dir) (priority : Option Text) (a b : Text) : ℕ :=
  if a = b then 0
  else
    match firstLine ifs files priority with
    | none => 6
    | some names => comesFirst a b names

/-- Whether `vpnUp` goes on to take the tunnel down and up again for `iface`: not if the
tunnel to the server is up already, on an interface that `iface` has no priority over. -/
def vpnMoves (ifs : Text) (files : Dir) (priority : Option Text) (server vpnServer : Text)
    (carrier : Option Text) (iface : Text) : Bool :=
  match carrier with
  | none => true
  | some c => vpnServer ≠ server || gatePriority ifs files priority iface c = 0

lemma comesFirst_zero {a b : Text} {names : List Text} (hab : a ≠ b)
    (h : comesFirst a b names = 0) :
    a ∈ names ∧ ∀ p : Text → Bool, p a = true → names.find? p ≠ some b := by
  induction names with
  | nil => cases h
  | cons i rest ih =>
    rw [comesFirst] at h
    split_ifs at h with ha hb
    · subst ha
      refine ⟨List.mem_cons_self, fun p hp => ?_⟩
      rw [List.find?_cons_of_pos hp]
      exact fun hc => hab (Option.some.inj hc)
    · obtain ⟨hmem, hfind⟩ := ih h
      refine ⟨List.mem_cons_of_mem i hmem, fun p hp => ?_⟩
      by_cases hpi : p i = true
      · rw [List.find?_cons_of_pos hpi]
        exact fun hc => hb (Option.some.inj hc)
      · rw [List.find?_cons_of_neg hpi]
        exact hfind p hp

lemma comesFirst_swap {a b : Text} {names : List Text}
    (h : comesFirst a b names = 1) : comesFirst b a names = 0 := by
  induction names with
  | nil => cases h
  | cons i rest ih =>
    rw [comesFirst] at h ⊢
    split_ifs at h with ha hb
    · rw [if_pos hb]
    · rw [if_neg hb, if_neg ha]
      exact ih h

lemma comesFirst_two {a b : Text} {names : List Text} (h : comesFirst a b names = 2) :
    a ∉ names ∧ b ∉ names := by
  induction names with
  | nil => exact ⟨List.not_mem_nil, List.not_mem_nil⟩
  | cons i rest ih =>
    rw [comesFirst] at h
    split_ifs at h with ha hb
    · cases h
    · obtain ⟨hna, hnb⟩ := ih h
      constructor
      · rintro (_ | ⟨_, hm⟩)
        · exact ha rfl
        · exact hna hm
      · rintro (_ | ⟨_, hm⟩)
        · exact hb rfl
        · exact hnb hm

/-- What the first loop of `gateUp` finds. -/
def fromFirstLine (ifs : Text) (sys : Sys) (files : Dir) (priority : Option Text) (gateway : Text) :
    Option Text :=
  (tryFiles ifs files (notUnplugged sys) ((firstLine ifs files priority).getD []) gateway).1

/-- An interface that is registered with a gateway under its name, and not unplugged. -/
def Eligible (sys : Sys) (files : Dir) (i : Text) : Prop :=
  i ≠ [] ∧ (headerGateway files i).isSome ∧ notUnplugged sys i = true

variable {files : Dir} {priority : Option Text} {a b : Text}

/-- Where an eligible interface comes before another on the first line, `gateUp` does not
select the other. -/
lemma gateUp_not_later (hab : a ≠ b) (ha : Eligible sys st.resolv a) (hb : b ≠ []) {names : List Text}
    (hnames : firstLine sh.ifs.text st.resolv st.priority = some names)
    (h : comesFirst a b names = 0) : ∀ gw, (gateUp sys sh [] resolv_conf st).2 ≠ some (b, gw) := by
  obtain ⟨hmem, hfind⟩ := comesFirst_zero hab h
  obtain ⟨-, hhead, hplugged⟩ := ha
  have hfile : a ∈ st.resolv := by
    obtain ⟨gw, hgw⟩ := Option.isSome_iff_exists.mp hhead
    obtain ⟨lines, hl, -⟩ := headerGateway_eq_some.mp hgw
    exact AList.lookup_isSome.mp (by rw [hl]; rfl)
  intro gw hcall
  rcases hifs : sh.ifs with _ | _
  · have htext : sh.ifs.text = blanks := by rw [hifs]; rfl
    rw [htext] at hnames
    have hline : (firstLine blanks (registered sh [] resolv_conf st).resolv st.priority).isSome :=
      Option.isSome_iff_exists.mpr ⟨names, hnames⟩
    have hp : ((headerGateway st.resolv a).isSome && notUnplugged sys a) = true := by
      rw [hhead, hplugged]
      rfl
    have hsome : names.find? (fun i => (headerGateway st.resolv i).isSome && notUnplugged sys i) ≠
        none := fun hnone => List.find?_eq_none.mp hnone a hmem hp
    obtain ⟨j, hj⟩ := Option.ne_none_iff_exists'.mp hsome
    have hruled : ruled sys (registered sh [] resolv_conf st).resolv st.priority = some j := by
      show ruled sys st.resolv st.priority = some j
      rw [ruled, hnames, Option.getD_some, hj]
      rfl
    obtain ⟨hsel, -, -⟩ := gateUp_ruled _ _ _ _ _ hifs hline hruled
    rw [hsel] at hcall
    obtain ⟨rfl, -⟩ := Prod.mk.inj (Option.some.inj hcall)
    exact hfind _ hp hj
  · -- nothing is selected, and reading the file of `a` has emptied `gateway`
    have htext : sh.ifs.text = [] := by rw [hifs]; rfl
    rw [htext] at hnames
    have hreads : readsAny [] sys st.resolv st.priority = true := by
      rw [readsAny, hnames, Option.getD_some]
      refine (Bool.or_eq_true _ _).mpr (.inl (List.any_eq_true.mpr ⟨a, hmem, ?_⟩))
      rw [hplugged, decide_eq_true hfile]
      rfl
    have hselect := select_empty sys sh.gateway
      (Option.isSome_iff_exists.mpr ⟨names, hnames⟩)
    rw [hreads, if_pos rfl] at hselect
    have hparams := gateUp_some sys sh [] resolv_conf st (by rw [htext]; exact hselect)
    rw [hparams] at hcall
    exact hb (Prod.mk.inj (Option.some.inj hcall)).1.symm

/-- `gatePriority` agrees with `gateUp` on any two interfaces that are registered with a
gateway and not unplugged, and `vpnUp` moves a tunnel only off an interface that `gateUp`
would not select. -/
theorem gatePriority_agrees (sys : Sys) (sh : Shell) (resolv_conf : List Text) (st : State)
    (hab : a ≠ b) (ha : Eligible sys st.resolv a) (hb : Eligible sys st.resolv b) :
    let status := gatePriority sh.ifs.text st.resolv st.priority a b
    let selected := (gateUp sys sh [] resolv_conf st).2
    let first := fromFirstLine sh.ifs.text sys st.resolv st.priority sh.gateway
    (status = 0 → ∀ gw, selected ≠ some (b, gw)) ∧
      (status = 1 → ∀ gw, selected ≠ some (a, gw)) ∧
      (status = 2 → first ≠ some a ∧ first ≠ some b) ∧
      ∀ server, vpnMoves sh.ifs.text st.resolv st.priority server server (some b) a = true →
        ∀ gw, selected ≠ some (b, gw) := by
  intro status selected first
  have hzero : status = 0 → ∀ gw, selected ≠ some (b, gw) := by
    intro h
    simp only [status, gatePriority, if_neg hab] at h
    rcases hnames : firstLine sh.ifs.text st.resolv st.priority with _ | names
    · rw [hnames] at h
      cases h
    · rw [hnames] at h
      exact gateUp_not_later hab ha hb.1 hnames h
  refine ⟨hzero, fun h => ?_, fun h => ?_, fun server h => hzero ?_⟩
  · simp only [status, gatePriority, if_neg hab] at h
    rcases hnames : firstLine sh.ifs.text st.resolv st.priority with _ | names
    · rw [hnames] at h
      cases h
    · rw [hnames] at h
      exact gateUp_not_later (Ne.symm hab) hb ha.1 hnames (comesFirst_swap h)
  · simp only [status, gatePriority, if_neg hab] at h
    rcases hnames : firstLine sh.ifs.text st.resolv st.priority with _ | names
    · rw [hnames] at h
      cases h
    · rw [hnames] at h
      obtain ⟨hna, hnb⟩ := comesFirst_two h
      have hfirst : ∀ i, first = some i → i ∈ names := by
        intro i hi
        simp only [first, fromFirstLine, hnames, Option.getD_some] at hi
        exact mem_of_tryFiles hi
      exact ⟨fun hc => hna (hfirst a hc), fun hc => hnb (hfirst b hc)⟩
  · simp only [vpnMoves, ne_eq, not_true_eq_false, decide_false, Bool.false_or,
      decide_eq_true_eq] at h
    exact h

/-- Two interfaces with a gateway each: the one named first wins. -/
theorem gatePriority_agrees_two :
    eth0.1 ≠ wlan0.1 ∧
      ∀ gw, (gateUp quiet fresh [] [] { bare (onePriority "eth[0-9]* wlan0") with
        resolv := (AList.insert wlan0.1 ["#wlan0 10.0.1.1".toList]
          (AList.insert eth0.1 ["#eth0 10.0.0.1".toList] ∅)) }).2 ≠ some (wlan0.1, gw) :=
  ⟨by decide, (gatePriority_agrees (a := eth0.1) (b := wlan0.1) quiet fresh [] _ (by decide)
    ⟨by decide, by decide, by decide⟩ ⟨by decide, by decide, by decide⟩).1 (by decide)⟩

end EspLinux.Net
