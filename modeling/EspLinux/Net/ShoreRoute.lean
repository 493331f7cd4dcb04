import EspLinux.Lib.RoundRobin
import EspLinux.Net.Gateway
import EspLinux.Net.Masquerade

/-!
# The network scripts: nextShoreRoute

When the route to the shore fails, `nextShoreRoute` tries the interfaces on the first line of
`gateway.priority`, one after the other, beginning behind the one that fails.  It keeps no list of
its own: `nextGate` looks up, by name, what is listed behind the interface that was tried last.  A
name that is listed twice leads back to behind its first mention.
-/

namespace EspLinux.Net

open EspLinux.Lib EspLinux.Lib.Words EspLinux.Lib.RoundRobin

/-! ## The script -/

/-- The first word of an unquoted expansion. -/
def firstWord (s : Text) : Text := (split blanks s).headD []

/-- The loop of `nextGate`: what is listed behind `arg`, and `first` if nothing is. -/
def pick (arg : Text) : Bool → Text → List Text → Text
  | _, first, [] => first
  | found, first, this :: rest =>
    let first := if first = [] then this else first
    if found then this else pick arg (this = arg) first rest

/-- `nextGate`: the next of the listed interfaces, or the first. -/
def nextGate (resolv : Dir) (priority : Option Text) (arg : Text) : Text :=
  match firstLine blanks resolv priority with
  | none => []
  | some ifaces => echo [pick arg false [] ifaces]

/-- What the script finds, after so many tries. -/
structure Shore where
  /-- `gateway.priority`. -/
  priority : Option Text
  /-- The registry. -/
  resolv : ℕ → Dir
  /-- What `routeTo` prints at the start. -/
  failedIface : Text
  /-- What `routeTo` prints when an interface has been found. -/
  shoreIface : Text
  /-- `/dev/AT/<iface>` is a device that can be written. -/
  modem : ℕ → Text → Bool
  ifup : ℕ → Text → Bool
  hasIP : ℕ → Text → Bool
  /-- The status of `ip route replace`. -/
  replaced : ℕ

/-- The commands of the search. -/
inductive Act
  | ifdown (iface : Text)
  | ifup (iface : Text)
  | hasIP (iface : Text)
  | resetUSB
  deriving DecidableEq

/-- How the search ends. -/
inductive Ending
  | found (iface : Text)
  | exit (status : ℕ)
  deriving DecidableEq

/-- The variables of the search. -/
structure Search where
  failedIface : Text
  nextIface : Text
  tried : List Text
  acts : List Act

/-- The interfaces that have been tried, what has been done, and how it ended. -/
structure Searched where
  tried : List Text
  acts : List Act
  ending : Ending

/-- One turn of the search. -/
def tryNext (env : Shore) (firstNext : Text) (s : Search) : Search ⊕ Searched :=
  let k := s.tried.length
  let down := if s.failedIface ≠ [] ∧ env.modem k s.failedIface then [Act.ifdown s.failedIface]
    else []
  let up := if env.ifup k s.nextIface then [Act.ifup s.nextIface, .hasIP s.nextIface]
    else [.ifup s.nextIface]
  let acts := s.acts ++ down ++ up
  let tried := s.tried ++ [s.nextIface]
  if env.ifup k s.nextIface && env.hasIP k s.nextIface then
    .inr ⟨tried, acts, .found s.nextIface⟩
  else
    let nextIface := nextGate (env.resolv (k + 1)) env.priority (firstWord s.nextIface)
    if nextIface = firstNext then .inr ⟨tried, acts ++ [.resetUSB], .exit 3⟩
    else .inl ⟨s.nextIface, nextIface, tried, acts⟩

/-- The search, of at most `n` turns. -/
def search (env : Shore) (n : ℕ) : Option Searched :=
  let firstNext := nextGate (env.resolv 0) env.priority (firstWord env.failedIface)
  if firstNext = [] then some ⟨[], [], .exit 8⟩
  else loop (tryNext env firstNext) n ⟨env.failedIface, firstNext, [], []⟩

/-- `gateIPadr`: the gateway an interface is registered with, or the status it returns. -/
def gateIPadr (resolv : Dir) (i : Text) : Except ℕ Text :=
  match resolv.lookup i with
  | none => .error 2
  | some lines =>
    let vars := readVars blanks 3 (lines.headD [])
    if vars.getD 0 [] = '#' :: i then
      if vars.getD 1 [] = [] then .error 1 else .ok (vars.getD 1 [])
    else .error 2

/-- The end of the script: its status, and the route it has set. -/
def setRoute (env : Shore) (k : ℕ) (iface : Text) : ℕ × Option (Text × Text) :=
  match gateIPadr (env.resolv k) (firstWord iface) with
  | .error status => (status, none)
  | .ok gateway => (env.replaced, if env.replaced = 0 then some (iface, gateway) else none)

/-- The script, with a search of at most `n` turns. -/
def nextShoreRoute (env : Shore) (n : ℕ) (arg : Text) : Option (ℕ × Option (Text × Text)) :=
  if arg ≠ [] then some (if env.hasIP 0 arg then setRoute env 0 arg else (2, none))
  else
    (search env n).map fun r =>
      match r.ending with
      | .exit status => (status, none)
      | .found iface =>
        if env.shoreIface = iface then (0, none) else setRoute env r.tried.length iface

/-! ## The first line -/

/-- A word without wildcards. -/
def WildcardFree (w : Text) : Prop := ∀ c ∈ w, c ∉ ['*', '?', '[', '\\']

instance (w : Text) : Decidable (WildcardFree w) :=
  List.decidableBAll _ w

/-- The first line of `gateway.priority` is there, and these are its words. -/
def Lists (priority : Option Text) (names : List Text) : Prop :=
  ∃ file line rest, priority = some file ∧ readLine file = (line, true, rest) ∧
    names = split blanks line ∧ ∀ w ∈ names, WildcardFree w

lemma parsePat_plain {w : Text} (hw : WildcardFree w) {n : ℕ} (hn : w.length < n) :
    parsePat n w = w.map .char := by
  induction w generalizing n with
  | nil =>
    cases n with
    | zero => cases hn
    | succ n => rfl
  | cons c w ih =>
    cases n with
    | zero => cases hn
    | succ n =>
      have hc := hw c List.mem_cons_self
      have hrest := ih (fun d hd => hw d (List.mem_cons_of_mem c hd)) (Nat.lt_of_succ_lt_succ hn)
      simp only [List.mem_cons, List.not_mem_nil, or_false, not_or] at hc
      rw [List.map_cons, ← hrest, parsePat] <;> tauto

lemma patMatch_chars {w s : Text} : patMatch (w.map .char) s = true ↔ s = w := by
  induction w generalizing s with
  | nil => cases s <;> simp [patMatch]
  | cons c w ih =>
    cases s with
    | nil => simp [patMatch]
    | cons d s => simp [patMatch, Pat.one, ih]

/-- A word without wildcards stands for itself. -/
lemma glob_plain {keys : List Text} (hkeys : keys.Nodup) {w : Text} (hw : WildcardFree w) :
    glob keys w = [w] := by
  have hhits : ∀ n ∈ keys.filter fun n => visible w n && fnmatch w n, n = w := by
    intro n hn
    obtain ⟨-, hmatch⟩ := List.mem_filter.mp hn
    rw [Bool.and_eq_true, fnmatch, parsePat_plain hw (Nat.lt_succ_self _)] at hmatch
    exact patMatch_chars.mp hmatch.2
  have hnodup := hkeys.filter fun n => visible w n && fnmatch w n
  rw [glob]
  generalize (keys.filter fun n => visible w n && fnmatch w n) = hits at hhits hnodup
  cases hits with
  | nil => rfl
  | cons a hits =>
    cases hits with
    | nil => simp [hhits a List.mem_cons_self]
    | cons b hits =>
      have ha := hhits a List.mem_cons_self
      have hb := hhits b (List.mem_cons_of_mem a List.mem_cons_self)
      rw [ha, hb] at hnodup
      simp at hnodup

variable {env : Shore} {names : List Text} {priority : Option Text} {x arg : Text}

lemma firstLine_lists (h : Lists priority names) (files : Dir) :
    firstLine blanks files priority = some names := by
  obtain ⟨file, line, rest, rfl, hline, rfl, hplain⟩ := h
  rw [firstLine]
  dsimp only
  rw [hline]
  dsimp only
  rw [if_pos rfl, expand, split_trim]
  refine congrArg some ?_
  rw [List.flatMap_congr fun w hw => glob_plain (AList.keys_nodup files) (hplain w hw)]
  exact List.flatMap_singleton' _

lemma isWord_of_lists (h : Lists priority names) {w : Text} (hw : w ∈ names) : IsWord w := by
  obtain ⟨-, line, -, -, -, rfl, -⟩ := h
  exact isWord_of_mem_split hw

lemma firstWord_word {w : Text} (h : IsWord w) : firstWord w = w := by
  rw [firstWord, split_blanks h, List.headD_cons]

/-! ## The successor -/

lemma pick_eq_nextOr {first : Text} (hfirst : first ≠ []) (l : List Text) :
    pick arg false first l = l.nextOr arg first := by
  induction l with
  | nil => rfl
  | cons y l ih =>
    rw [pick, if_neg hfirst, if_neg (by decide)]
    cases l with
    | nil =>
      rw [pick]
      rfl
    | cons z l =>
      by_cases hy : y = arg
      · subst hy
        rw [decide_eq_true rfl, pick, if_neg hfirst, if_pos rfl, List.nextOr_self_cons_cons]
      · rw [decide_eq_false hy, ih, List.nextOr_cons_of_ne _ _ _ _ (Ne.symm hy)]

/-- What is listed behind an interface, or the first that is listed. -/
def behind (names : List Text) (x : Text) : Text := names.nextOr x (names.headD [])

lemma nextGate_eq (h : Lists priority names) (files : Dir) (arg : Text) :
    nextGate files priority arg = echo [behind names arg] := by
  rw [nextGate, firstLine_lists h]
  dsimp only
  cases names with
  | nil => rfl
  | cons w l =>
    have hw := (isWord_of_lists h (w := w) List.mem_cons_self).1
    rw [behind, List.headD_cons, ← pick_eq_nextOr hw, pick, pick, if_pos rfl, if_neg hw]

lemma behind_mem (hne : names ≠ []) : behind names x ∈ names := by
  obtain ⟨w, l, rfl⟩ := List.exists_cons_of_ne_nil hne
  exact List.nextOr_mem List.mem_cons_self

/-! ## The search -/

/-- An interface is up and has an address, when `k` others have been tried. -/
def works (env : Shore) (k : ℕ) (x : Text) : Bool := env.ifup k x && env.hasIP k x

/-- The listed interfaces in cyclic order, beginning behind the failing one. -/
def order (env : Shore) (names : List Text) : List Text := turns names (firstWord env.failedIface)

/-- The search ends with an interface that works, or else with status 3. -/
def outcome : Option Text → Ending
  | some x => .found x
  | none => .exit 3

/-- The search ends, when it has tried each of the listed interfaces in that order until one works:
with that one, or with status 3. -/
def InTurn (env : Shore) (names : List Text) : Prop :=
  ∃ n r, search env n = some r ∧ r.tried = (attempts (works env) 0 (order env names)).1 ∧
    r.ending = outcome (attempts (works env) 0 (order env names)).2

/-- The first in order is no option of `echo`, and whenever those in order up to some interface have
failed, what is listed behind its first mention, and comes through `echo`, is the next. -/
def Clear (env : Shore) (names : List Text) : Prop :=
  isOption ((order env names).headD []) = false ∧
    ∀ (i : ℕ) (h : i < (order env names).length),
      (∀ (j : ℕ) (hj : j ≤ i), works env j (order env names)[j] = false) →
        echo [behind names (order env names)[i]] =
          (order env names)[i + 1]?.getD ((order env names).headD [])

/-- What the search finds, seen as a search through candidates. -/
def Searched.view (r : Searched) : List Text × Option Text :=
  (r.tried, match r.ending with
    | .found x => some x
    | .exit _ => none)

lemma tryNext_view (h : Lists env.priority names) (firstNext : Text) (s : Search) :
    body (fun x => echo [behind names (firstWord x)]) (works env) firstNext (s.tried, s.nextIface) =
      (tryNext env firstNext s).map (fun s => (s.tried, s.nextIface)) Searched.view := by
  rw [body, tryNext]
  dsimp only
  rw [nextGate_eq h]
  have hworks : (env.ifup s.tried.length s.nextIface && env.hasIP s.tried.length s.nextIface) =
      works env s.tried.length s.nextIface := rfl
  rw [hworks]
  cases works env s.tried.length s.nextIface with
  | true => rfl
  | false =>
    simp only [Bool.false_eq_true, if_false]
    split <;> rfl

lemma ending_of_loop {firstNext : Text} {n : ℕ} {s : Search} {r : Searched}
    (h : loop (tryNext env firstNext) n s = some r) : r.ending = outcome r.view.2 := by
  refine loop_invariant (P := fun _ => True) (Q := fun r => r.ending = outcome r.view.2)
    (fun _ _ _ _ => trivial) ?_ trivial h
  intro s r _ hturn
  rw [tryNext] at hturn
  dsimp only at hturn
  split at hturn
  · cases hturn
    rfl
  · split at hturn
    · cases hturn
      rfl
    · cases hturn

lemma inTurn_iff_ends (h : Lists env.priority names) {firstNext : Text} (hne : firstNext ≠ [])
    (hfirst : echo [behind names (firstWord env.failedIface)] = firstNext) :
    InTurn env names ↔ Ends (body (fun x => echo [behind names (firstWord x)]) (works env) firstNext)
      ([], firstNext) (attempts (works env) 0 (order env names)) := by
  have hsearch (n : ℕ) :
      search env n = loop (tryNext env firstNext) n ⟨env.failedIface, firstNext, [], []⟩ := by
    rw [search, nextGate_eq h, hfirst, if_neg hne]
  have hview (n : ℕ) := loop_map (tryNext_view h firstNext) n ⟨env.failedIface, firstNext, [], []⟩
  constructor
  · rintro ⟨n, r, hr, htried, hending⟩
    rw [hsearch] at hr
    refine ⟨n, ?_⟩
    rw [hview, hr, Option.map_some, Searched.view, htried, hending]
    rcases attempts (works env) 0 (order env names) with ⟨tried, _ | x⟩ <;> rfl
  · rintro ⟨n, hn⟩
    rw [hview] at hn
    obtain ⟨r, hr, hrview⟩ := Option.map_eq_some_iff.mp hn
    refine ⟨n, r, (hsearch n).trans hr, ?_, ?_⟩
    · rw [← hrview]
      rfl
    · rw [ending_of_loop hr, hrview]

/-- On a first line without wildcards, the search goes through the listed interfaces in turn if and
only if each leads to the next. -/
theorem search_inTurn (h : Lists env.priority names) (hne : names ≠ []) :
    InTurn env names ↔ Clear env names := by
  have hhead : names.head? = some (names.headD []) := by
    obtain ⟨w, l, rfl⟩ := List.exists_cons_of_ne_nil hne
    rfl
  have hturns : (order env names).head? = some (behind names (firstWord env.failedIface)) :=
    head_turns _ hhead
  obtain ⟨rest, horder⟩ : ∃ rest, order env names = behind names (firstWord env.failedIface) :: rest :=
    List.head?_eq_some_iff.mp hturns
  have hword := isWord_of_lists h (behind_mem (x := firstWord env.failedIface) hne)
  have hheadD : (order env names).headD [] = behind names (firstWord env.failedIface) := by
    rw [horder, List.headD_cons]
  cases hopt : isOption (behind names (firstWord env.failedIface)) with
  | true =>
    -- `echo` prints nothing, and the script takes the line for an empty one
    refine iff_of_false ?_ ?_
    swap
    · rintro ⟨hclear, -⟩
      rw [hheadD, hopt] at hclear
      cases hclear
    rintro ⟨n, r, hr, htried, -⟩
    rw [search, nextGate_eq h, echo_option hopt, if_pos rfl] at hr
    cases hr
    obtain ⟨tail, htail⟩ := head_attempts (works env) 0 (behind names (firstWord env.failedIface)) rest
    rw [horder, htail] at htried
    cases htried
  | false =>
    have hecho : echo [behind names (firstWord env.failedIface)] =
        behind names (firstWord env.failedIface) := echo_plain hopt
    have hfirst : behind names (firstWord env.failedIface) ∉ rest := not_mem_tail_turns horder
    have hends := @ends_iff_goes _ _ (fun x => echo [behind names (firstWord x)]) (works env) _
      (behind names (firstWord env.failedIface)) _ [] hfirst
    rw [List.nil_append, List.length_nil, ← horder] at hends
    rw [inTurn_iff_ends h hword.1 hecho, hends, goes_iff, Clear, hheadD]
    refine ⟨fun hgoes => ⟨hopt, fun i hi hfail => ?_⟩, fun hclear i hi hfail => ?_⟩
    · have hi' := isWord_of_lists h (mem_turns.mp (List.getElem_mem hi))
      rw [← hgoes i hi fun j hj => by simpa using hfail j hj, firstWord_word hi']
    · have hi' := isWord_of_lists h (mem_turns.mp (List.getElem_mem hi))
      rw [firstWord_word hi']
      exact hclear.2 i hi fun j hj => by simpa using hfail j hj

/-- A line that lists each interface once, and no options of `echo`, is searched in turn, whatever
the outcomes. -/
lemma clear_of_nodup (hnodup : names.Nodup) (hopt : ∀ x ∈ names, isOption x = false)
    (hne : names ≠ []) : Clear env names := by
  have hhead : names.head? = some (names.headD []) := by
    obtain ⟨w, l, rfl⟩ := List.exists_cons_of_ne_nil hne
    rfl
  have hturns : (order env names).head? = some (behind names (firstWord env.failedIface)) :=
    head_turns _ hhead
  have hheadD : (order env names).headD [] = behind names (firstWord env.failedIface) := by
    rw [List.headD_eq_head?_getD, hturns, Option.getD_some]
  refine ⟨?_, fun i hi _ => ?_⟩
  · rw [hheadD]
    exact hopt _ (behind_mem hne)
  · rw [echo_plain (hopt _ (behind_mem hne)), hheadD]
    exact next_turns hnodup _ hhead hturns i hi

/-- A shore that cannot be reached through any interface. -/
def offline (line failedIface : String) : Shore where
  priority := some (line.toList ++ ['\n'])
  resolv _ := ∅
  failedIface := failedIface.toList
  shoreIface := []
  modem _ _ := false
  ifup _ _ := true
  hasIP _ _ := false
  replaced := 0

theorem search_inTurn_once :
    InTurn (offline "eth0 wlan0 ppp0" "wlan0") ["eth0".toList, "wlan0".toList, "ppp0".toList] :=
  (search_inTurn ⟨_, _, _, rfl, rfl, by decide, by decide +kernel⟩ (by decide)).mpr
    (clear_of_nodup (by decide) (by decide) (by decide))

/-- The search that comes to an interface listed twice in a row tries it for ever. -/
theorem search_never_ends :
    Lists (offline "eth0 ppp0 ppp0" "").priority ["eth0".toList, "ppp0".toList, "ppp0".toList] ∧
      ∀ n, search (offline "eth0 ppp0 ppp0" "") n = none := by
  have hlists : Lists (offline "eth0 ppp0 ppp0" "").priority
      ["eth0".toList, "ppp0".toList, "ppp0".toList] := ⟨_, _, _, rfl, rfl, by decide, by decide +kernel⟩
  refine ⟨hlists, fun n => ?_⟩
  have hgate (k : ℕ) (arg : Text) :
      nextGate ((offline "eth0 ppp0 ppp0" "").resolv k) (offline "eth0 ppp0 ppp0" "").priority arg =
        echo [behind ["eth0".toList, "ppp0".toList, "ppp0".toList] arg] := nextGate_eq hlists _ arg
  rw [search, hgate, if_neg (by decide)]
  have hstep (s : Search) (hs : s.nextIface = "ppp0".toList) :
      ∃ s', tryNext (offline "eth0 ppp0 ppp0" "") "eth0".toList s = .inl s' ∧
        s'.nextIface = "ppp0".toList := by
    obtain ⟨failedIface, nextIface, tried, acts⟩ := s
    obtain rfl := hs
    rw [tryNext]
    dsimp only
    rw [hgate]
    exact ⟨_, rfl, rfl⟩
  cases n with
  | zero => rfl
  | succ n =>
    rw [@loop_inl _ _ _ _ ⟨"eth0".toList, "ppp0".toList, ["eth0".toList], _⟩]
    · exact loop_eq_none hstep rfl n
    · rw [tryNext]
      dsimp only
      rw [hgate]
      rfl

end EspLinux.Net
