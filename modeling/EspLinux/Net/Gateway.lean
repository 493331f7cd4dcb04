import EspLinux.Net.Resolv

/-!
# The network scripts: selecting the gateway

`gateUp` registers an interface, and then runs over the names on the first line of
`gateway.priority`, expanded against the registry, for one that is not unplugged, and if
there is none over those of the second line.  Both loops read the registry files into the
same variables `resolvDev` and `gateway`.
-/

namespace EspLinux.Net

open EspLinux.Lib.Words

/-- One of the two loops: the interface it breaks off at, and the value it leaves in
`gateway`. -/
def tryFiles (ifs : Text) (files : Dir) (ok : Text → Bool) : List Text → Text → Option Text × Text
  | [], gateway => (none, gateway)
  | interface :: rest, gateway =>
    match files.lookup interface with
    | none => tryFiles ifs files ok rest gateway
    | some lines =>
      if ok interface then
        let (resolvDev, gateway) := readTwo ifs (lines.headD [])
        if resolvDev = '#' :: interface ∧ gateway ≠ [] then (some interface, gateway)
        else tryFiles ifs files ok rest gateway
      else tryFiles ifs files ok rest gateway

/-- The names on the first line of `gateway.priority`, or none where it has no such
line. -/
def firstLine (ifs : Text) (files : Dir) (priority : Option Text) : Option (List Text) :=
  match priority with
  | none => none
  | some file =>
    let (line, ok, _) := readLine file
    if ok then some (expand ifs files.keys (trim ifs line)) else none

/-- The names on the second line, or on the first where the second is blank. -/
def secondLine (ifs : Text) (files : Dir) (priority : Option Text) : List Text :=
  let (line, _, rest) := readLine (priority.getD [])
  let ifs2 := trim ifs (readLine rest).1
  expand ifs files.keys (if ifs2 = [] then trim ifs line else ifs2)

/-- What the loops settle on, and the value of `gateway` behind them; none where the first
line cannot be read. -/
def select (ifs : Text) (sys : Sys) (files : Dir) (priority : Option Text) (gateway : Text) :
    Option (Option Text × Text) :=
  match firstLine ifs files priority with
  | none => none
  | some names =>
    match tryFiles ifs files (notUnplugged sys) names gateway with
    | (some interface, gateway) => some (some interface, gateway)
    | (none, gateway) => some (tryFiles ifs files (fun _ => true) (secondLine ifs files priority) gateway)

/-- The registry after `gateUp` has stored its arguments, with what `resolv_conf` prints. -/
def register (ifs : Text) (args resolv_conf : List Text) (files : Dir) : Dir :=
  match args with
  | [] => files
  | i :: rest =>
    if i = [] then files
    else if rest.headD [] = [] then files.erase i
    else (files.erase i).insert i (('#' :: join ifs args) :: resolv_conf)

/-- `gateUp`: the state behind it, and the two parameters it gave to `setGateway`, or none
where it returned 3 before. -/
def gateUp (sys : Sys) (sh : Shell) (args resolv_conf : List Text) (st : State) :
    State × Option (Text × Text) :=
  let st := { st with resolv := register sh.ifs.text args resolv_conf st.resolv }
  match select sh.ifs.text sys st.resolv st.priority sh.gateway with
  | none => (st, none)
  | some (topIface, gateway) =>
    let params := split sh.ifs.text (topIface.getD (args.headD [])) ++ split sh.ifs.text gateway
    (setGateway sh.ifs.text (params.getD 0 []) (params.getD 1 []) st,
      some (params.getD 0 [], params.getD 1 []))

def hostsUp (sys : Sys) (sh : Shell) (arg : Text) (hosts : List Text) (st : State) : State :=
  let files := if arg = [] then st.hosts else st.hosts.insert arg hosts
  let top := (topIf sh.ifs.text st.resolv_conf).getD []
  let topIP := netIfIP sys sh (split sh.ifs.text top)
  let names := (files.keys.filter (visible ['*'])).insertionSort (· ≤ ·)
  { st with
    hosts := files
    etc_hosts :=
      { host := (if topIP = [] then "127.0.0.1".toList else topIP) ++ ' ' :: sys.hostname
        merged := names.map fun n => (n, (files.lookup n).getD []) } }

/-- `rm -f $run/$1.hosts $run/resolv/$1`, which without an argument names the directory
and leaves it. -/
def gateDown (arg : Text) (st : State) : State :=
  { st with
    hosts := st.hosts.erase arg
    resolv := if arg = [] then st.resolv else st.resolv.erase arg }

/-! ## The loops -/

/-- A loop breaks off at one of its names. -/
lemma mem_of_tryFiles {ifs : Text} {files : Dir} {ok : Text → Bool} {names : List Text}
    {gateway i : Text} (h : (tryFiles ifs files ok names gateway).1 = some i) : i ∈ names := by
  induction names generalizing gateway with
  | nil => cases h
  | cons j rest ih =>
    rw [tryFiles] at h
    split at h
    · exact List.mem_cons_of_mem j (ih h)
    · split at h
      · simp only at h
        split at h
        · obtain rfl := Option.some.inj h
          exact List.mem_cons_self
        · exact List.mem_cons_of_mem j (ih h)
      · exact List.mem_cons_of_mem j (ih h)

/-- The gateway in the header of an interface's registry file. -/
def headerGateway (files : Dir) (i : Text) : Option Text :=
  match files.lookup i with
  | none => none
  | some lines =>
    let (dev, gateway) := readTwo blanks (lines.headD [])
    if dev = '#' :: i ∧ gateway ≠ [] then some gateway else none

/-- The value read into `gateway` from a registry file. -/
def readGateway (files : Dir) (i : Text) : Text :=
  (readTwo blanks (((files.lookup i).getD []).headD [])).2

variable {sys : Sys} {files : Dir} {ok : Text → Bool} {names rest : List Text}
  {gateway i : Text} {priority : Option Text}

lemma headerGateway_eq_some {gw : Text} :
    headerGateway files i = some gw ↔ ∃ lines, files.lookup i = some lines ∧
      (readTwo blanks (lines.headD [])).1 = '#' :: i ∧
      (readTwo blanks (lines.headD [])).2 = gw ∧ gw ≠ [] := by
  rw [headerGateway]
  rcases hl : files.lookup i with _ | lines
  · simp
  · simp only [Option.some.injEq, exists_eq_left']
    constructor
    · intro h
      split at h
      · rename_i hdev
        obtain rfl := Option.some.inj h
        exact ⟨hdev.1, rfl, hdev.2⟩
      · cases h
    · rintro ⟨hdev, rfl, hne⟩
      rw [if_pos ⟨hdev, hne⟩]

/-- A file whose header names its interface and has a gateway ends the loop, and every
other file only leaves its mark in `gateway`. -/
lemma tryFiles_cons : tryFiles blanks files ok (i :: rest) gateway =
    if i ∈ files ∧ ok i = true then
      match headerGateway files i with
      | some gw => (some i, gw)
      | none => tryFiles blanks files ok rest (readGateway files i)
    else tryFiles blanks files ok rest gateway := by
  rw [tryFiles, headerGateway, readGateway]
  rcases hl : files.lookup i with _ | lines
  · have hmem : i ∉ files := AList.lookup_eq_none.mp hl
    rw [if_neg fun hc => hmem hc.1]
  · have hmem : i ∈ files := AList.lookup_isSome.mp (by rw [hl]; rfl)
    by_cases hok : ok i = true
    · rw [if_pos ⟨hmem, hok⟩]
      simp only [if_pos hok]
      split
      · rfl
      · rfl
    · rw [if_neg fun hc => hok hc.2]
      simp only [if_neg hok]

/-- A loop breaks off at the first interface that is registered with a gateway and passes
its test, and gives that gateway. -/
lemma tryFiles_spec (files : Dir) (ok : Text → Bool) (names : List Text) (gateway : Text) :
    (tryFiles blanks files ok names gateway).1 =
      names.find? (fun i => (headerGateway files i).isSome && ok i) ∧
    ∀ i gw, tryFiles blanks files ok names gateway = (some i, gw) →
      headerGateway files i = some gw := by
  induction names generalizing gateway with
  | nil => exact ⟨rfl, nofun⟩
  | cons i rest ih =>
    rw [tryFiles_cons]
    by_cases hf : i ∈ files ∧ ok i = true
    · rw [if_pos hf]
      rcases hh : headerGateway files i with _ | gw
      · rw [List.find?_cons_of_neg (by simp [hh])]
        exact ih _
      · rw [List.find?_cons_of_pos (by simp [hh, hf.2])]
        refine ⟨rfl, ?_⟩
        rintro j gw' h
        obtain ⟨hj, rfl⟩ := Prod.mk.inj h
        rw [← Option.some.inj hj, hh]
    · have hno : ¬ ((headerGateway files i).isSome && ok i) = true := by
        intro hc
        obtain ⟨hsome, hok⟩ := (Bool.and_eq_true _ _).mp hc
        obtain ⟨gw, hgw⟩ := Option.isSome_iff_exists.mp hsome
        obtain ⟨lines, hl, -⟩ := headerGateway_eq_some.mp hgw
        exact hf ⟨AList.lookup_isSome.mp (by rw [hl]; rfl), hok⟩
      rw [if_neg hf, List.find?_cons_of_neg (by exact hno)]
      exact ih _

/-- A loop that finds none leaves what it read last in `gateway`. -/
lemma tryFiles_none (h : (tryFiles blanks files ok names gateway).1 = none) :
    tryFiles blanks files ok names gateway =
      (none, (((names.filter fun i => i ∈ files ∧ ok i = true).map (readGateway files)).getLast?).getD
        gateway) := by
  induction names generalizing gateway with
  | nil => rfl
  | cons i rest ih =>
    rw [tryFiles_cons] at h ⊢
    by_cases hf : i ∈ files ∧ ok i = true
    · rw [if_pos hf] at h ⊢
      rw [List.filter_cons_of_pos (by simpa using hf), List.map_cons, List.getLast?_cons]
      rcases hh : headerGateway files i with _ | gw
      · rw [hh] at h
        exact ih h
      · rw [hh] at h
        cases h
    · rw [if_neg hf] at h ⊢
      rw [List.filter_cons_of_neg (by simpa using hf)]
      exact ih h

/-- Whether one of the loops reads a file, if neither breaks off. -/
def readsAny (ifs : Text) (sys : Sys) (files : Dir) (priority : Option Text) : Bool :=
  (((firstLine ifs files priority).getD []).any fun i => decide (i ∈ files) && notUnplugged sys i) ||
    (secondLine ifs files priority).any fun i => decide (i ∈ files)

/-- With an empty `IFS` the whole header goes to `resolvDev`, and every file read empties
`gateway`. -/
lemma tryFiles_empty : tryFiles [] files ok names gateway =
    (none, if names.any fun i => decide (i ∈ files) && ok i then [] else gateway) := by
  induction names generalizing gateway with
  | nil => rfl
  | cons i rest ih =>
    rw [tryFiles, List.any_cons]
    rcases hl : files.lookup i with _ | lines
    · have hmem : i ∉ files := AList.lookup_eq_none.mp hl
      simp only [hmem, decide_false, Bool.false_and, Bool.false_or]
      exact ih
    · have hmem : i ∈ files := AList.lookup_isSome.mp (by rw [hl]; rfl)
      by_cases hok : ok i = true
      · simp only [hok, if_true, readTwo_empty, ne_eq, not_true_eq_false, and_false, if_false, hmem,
          decide_true, Bool.and_self, Bool.true_or]
        rw [ih, ite_self]
      · have hno : ok i = false := Bool.eq_false_iff.mpr hok
        rw [hno, Bool.and_false, Bool.false_or]
        exact ih

/-- With an empty `IFS` no interface is found. -/
lemma select_empty (sys : Sys) (gateway : Text)
    (h : (firstLine [] files priority).isSome) :
    select [] sys files priority gateway =
      some (none, if readsAny [] sys files priority then [] else gateway) := by
  obtain ⟨names, hnames⟩ := Option.isSome_iff_exists.mp h
  simp only [select, hnames, tryFiles_empty, readsAny, Option.getD_some, Bool.and_true]
  refine congrArg (fun t => some (none, t)) ?_
  rcases names.any _ <;> rcases (secondLine [] files priority).any _ <;> rfl

/-! ## The rule -/

/-- The interface the rule names: the first on line 1 that is registered with a gateway
and not unplugged, or else the first on line 2 that is registered with one. -/
def ruled (sys : Sys) (files : Dir) (priority : Option Text) : Option Text :=
  (((firstLine blanks files priority).getD []).find? fun i =>
      (headerGateway files i).isSome && notUnplugged sys i) <|>
    (secondLine blanks files priority).find? fun i => (headerGateway files i).isSome

/-- What the loops leave in `gateway` where they find none: the gateway of the last file
they read, or what was there before. -/
def leftOver (sys : Sys) (files : Dir) (priority : Option Text) (gateway : Text) : Text :=
  ((((((firstLine blanks files priority).getD []).filter fun i =>
      i ∈ files ∧ notUnplugged sys i = true) ++
    (secondLine blanks files priority).filter fun i => i ∈ files).map
      (readGateway files)).getLast?).getD gateway

lemma getLast?_append_getD (l l' : List Text) (t : Text) :
    ((l ++ l').getLast?).getD t = (l'.getLast?).getD ((l.getLast?).getD t) := by
  rw [List.getLast?_append]
  rcases l'.getLast? with _ | a
  · rfl
  · rfl

/-- The loops find the interface of the rule, with its gateway; where there is none,
`gateway` keeps what was read last. -/
theorem select_spec (sys : Sys) (gateway : Text)
    (h : (firstLine blanks files priority).isSome) :
    ∃ gw, select blanks sys files priority gateway = some (ruled sys files priority, gw) ∧
      (∀ i, ruled sys files priority = some i → headerGateway files i = some gw) ∧
      (ruled sys files priority = none → gw = leftOver sys files priority gateway) := by
  obtain ⟨names, hnames⟩ := Option.isSome_iff_exists.mp h
  have hfirst := tryFiles_spec files (notUnplugged sys) names gateway
  have hruled : ruled sys files priority =
      ((tryFiles blanks files (notUnplugged sys) names gateway).1 <|>
        (secondLine blanks files priority).find? fun i => (headerGateway files i).isSome) := by
    rw [ruled, hnames, Option.getD_some, hfirst.1]
  rcases ht : tryFiles blanks files (notUnplugged sys) names gateway with ⟨_ | i, gw⟩
  · -- the first loop found none, the second goes on with its `gateway`
    have hnone : (tryFiles blanks files (notUnplugged sys) names gateway).1 = none := by rw [ht]
    have hsecond := tryFiles_spec files (fun _ => true) (secondLine blanks files priority) gw
    simp only [Bool.and_true] at hsecond
    rw [ht] at hruled
    have hruled : ruled sys files priority =
        (tryFiles blanks files (fun _ => true) (secondLine blanks files priority) gw).1 :=
      hruled.trans hsecond.1.symm
    refine ⟨(tryFiles blanks files (fun _ => true) (secondLine blanks files priority) gw).2, ?_,
      fun i hi => ?_, fun hno => ?_⟩
    · simp only [select, hnames, ht]
      rw [hruled]
    · exact hsecond.2 i _ (Prod.ext (hruled.symm.trans hi) rfl)
    · have hgw : gw = _ := congrArg Prod.snd (ht.symm.trans (tryFiles_none hnone))
      have hlast := tryFiles_none (hruled.symm.trans hno)
      rw [hlast, leftOver, hnames, Option.getD_some, List.map_append, getLast?_append_getD]
      simp only [and_true] at hgw ⊢
      rw [← hgw]
  · rw [ht] at hruled
    refine ⟨gw, ?_, fun j hj => ?_, fun hno => ?_⟩
    · simp only [select, hnames, ht]
      rw [hruled]
      rfl
    · rw [hruled] at hj
      exact Option.some.inj hj ▸ hfirst.2 i gw ht
    · rw [hruled] at hno
      cases hno

lemma select_none (sys : Sys) (gateway : Text) {ifs : Text} (h : firstLine ifs files priority = none) :
    select ifs sys files priority gateway = none := by
  rw [select, h]

/-- The names of the two lines are never empty. -/
lemma ne_nil_of_ruled (h : ruled sys files priority = some i) : i ≠ [] := by
  have hmem : i ∈ (firstLine blanks files priority).getD [] ∨ i ∈ secondLine blanks files priority := by
    rw [ruled] at h
    rcases hf : ((firstLine blanks files priority).getD []).find? (fun i =>
        (headerGateway files i).isSome && notUnplugged sys i) with _ | j
    · rw [hf] at h
      exact .inr (List.mem_of_find?_eq_some h)
    · rw [hf] at h
      exact .inl (List.mem_of_find?_eq_some (hf.trans h))
  rcases hmem with hmem | hmem
  · rcases priority with _ | file
    · exact absurd hmem List.not_mem_nil
    · simp only [firstLine] at hmem
      split at hmem
      · exact ne_nil_of_mem_expand hmem
      · exact absurd hmem List.not_mem_nil
  · exact ne_nil_of_mem_expand hmem

/-- The interface of the rule is registered with a gateway. -/
lemma headerGateway_of_ruled (h : ruled sys files priority = some i) :
    ∃ gw, headerGateway files i = some gw := by
  rw [ruled] at h
  rcases hf : ((firstLine blanks files priority).getD []).find? (fun i =>
      (headerGateway files i).isSome && notUnplugged sys i) with _ | j
  · rw [hf] at h
    exact Option.isSome_iff_exists.mp (List.find?_some (p := fun i => (headerGateway files i).isSome) h)
  · rw [hf] at h
    obtain rfl : j = i := Option.some.inj h
    have hboth := List.find?_some hf
    exact Option.isSome_iff_exists.mp ((Bool.and_eq_true _ _).mp hboth).1

/-- An interface with a header under its name is one word. -/
lemma isWord_of_headerGateway {gw : Text} (hne : i ≠ []) (h : headerGateway files i = some gw) :
    IsWord i := by
  obtain ⟨lines, -, hdev, -⟩ := headerGateway_eq_some.mp h
  refine ⟨hne, fun c hc hblank => ?_⟩
  have hmem : c ∈ (readTwo blanks (lines.headD [])).1 := by
    rw [hdev]
    exact List.mem_cons_of_mem _ hc
  have hwhite := not_white_of_mem_readTwo hmem
  rw [white_blanks.mpr hblank] at hwhite
  cases hwhite

/-- The gateway in a header has a first word. -/
lemma split_headerGateway {gw : Text} (h : headerGateway files i = some gw) :
    ∃ w ws, split blanks gw = w :: ws ∧ IsWord w := by
  obtain ⟨lines, -, -, hgw, hne⟩ := headerGateway_eq_some.mp h
  rw [readTwo_snd] at hgw
  have hsplit : split blanks gw ≠ [] := by
    rw [← hgw] at hne ⊢
    exact split_trim_ne_nil hne
  obtain ⟨w, ws, hw⟩ := List.exists_cons_of_ne_nil hsplit
  exact ⟨w, ws, hw, isWord_of_mem_split (hw ▸ List.mem_cons_self)⟩

/-- Once an interface that is registered with a gateway is selected, `topIf` names it. -/
theorem topIf_resolvOf (st : State) {gw : Text} (hne : i ≠ [])
    (h : headerGateway st.resolv i = some gw) (st' : State) :
    topIf blanks (updateResolv (resolvOf st i) st').resolv_conf = some i := by
  obtain ⟨lines, hl, hdev, -⟩ := headerGateway_eq_some.mp h
  rcases lines with _ | ⟨line, lines⟩
  · exact absurd hdev (List.cons_ne_nil _ _).symm
  have hheader : IsHeader i line := hdev
  have hof : ∃ ls, resolvOf st i = line :: ls := by
    rw [resolvOf, if_neg hne, hl]
    rcases st.dns with _ | dns
    · exact ⟨lines, rfl⟩
    · exact ⟨dns, rfl⟩
  obtain ⟨ls, hls⟩ := hof
  rw [hls]
  exact topIf_updateResolv hheader st'

/-- A file registered with a gateway is in the registry. -/
lemma mem_of_headerGateway {gw : Text} (h : headerGateway files i = some gw) : i ∈ files := by
  obtain ⟨lines, hl, -⟩ := headerGateway_eq_some.mp h
  exact AList.lookup_isSome.mp (by rw [hl]; rfl)

@[simp] lemma hostsUp_resolv {sh : Shell} {arg : Text} {hosts : List Text} {st : State} :
    (hostsUp sys sh arg hosts st).resolv = st.resolv := rfl

@[simp] lemma hostsUp_resolv_conf {sh : Shell} {arg : Text} {hosts : List Text} {st : State} :
    (hostsUp sys sh arg hosts st).resolv_conf = st.resolv_conf := rfl

@[simp] lemma hostsUp_table {sh : Shell} {arg : Text} {hosts : List Text} {st : State} :
    (hostsUp sys sh arg hosts st).table = st.table := rfl

@[simp] lemma hostsUp_priority {sh : Shell} {arg : Text} {hosts : List Text} {st : State} :
    (hostsUp sys sh arg hosts st).priority = st.priority := rfl

/-- `hostsUp` merges the files of all interfaces that are no dot files. -/
lemma mem_merged {sh : Shell} {arg : Text} {hosts : List Text} {st : State} {n : Text} :
    n ∈ (hostsUp sys sh arg hosts st).etc_hosts.merged.map Prod.fst ↔
      n ∈ (hostsUp sys sh arg hosts st).hosts ∧ visible ['*'] n = true := by
  rw [hostsUp]
  simp only [List.map_map]
  rw [show (Prod.fst ∘ fun n => (n, _)) = (id : Text → Text) from rfl, List.map_id,
    List.mem_insertionSort, List.mem_filter, AList.mem_keys]

end EspLinux.Net
