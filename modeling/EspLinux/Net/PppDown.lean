import EspLinux.Net.Selection

/-!
# The network scripts: a ppp link goes down

`ip-down` hands its interface to `ipDown`, which takes it from the environment instead,
and so calls `gateDown` without one.
-/

namespace EspLinux.Net

open EspLinux.Lib.Words

/-- `ipDown`: the state behind it, and what its `gateUp` handed to `setGateway`. -/
def ipDown (sys : Sys) (sh : Shell) (st : State) : State × Option (Text × Text) :=
  let st := gateDown [] st
  let (st, call) := gateUp sys sh [] [] st
  (hostsUp sys sh [] [] st, call)

/-- The script `ip-down` for a ppp interface. -/
def ip_down (sys : Sys) (gateway : Text) (iface : Token) (st : State) :
    State × Option (Text × Text) :=
  ipDown sys ⟨.initial, iface.1, gateway⟩ st

/-- The ppp interface is gone from the registry, from `/etc/hosts`, from `resolv.conf` and
from the gateway that was selected, and no other interface has lost its files. -/
structure Forgotten (p : Token) (st st' : State) (call : Option (Text × Text)) : Prop where
  resolv : p.1 ∉ st'.resolv
  hosts : p.1 ∉ st'.etc_hosts.merged.map Prod.fst
  topIf : topIf blanks st'.resolv_conf ≠ some p.1
  gateway : ∀ gw, call ≠ some (p.1, gw)
  others : ∀ q : Token, q ≠ p →
    st'.resolv.lookup q.1 = st.resolv.lookup q.1 ∧ st'.hosts.lookup q.1 = st.hosts.lookup q.1

/-- What is left where the rule names no interface does not mention `p`: `resolv.conf` as
it was if there is no first line, and otherwise what `setGateway` makes of the value left
over in `gateway`. -/
def Unmentioned (sys : Sys) (gateway : Text) (p : Token) (st : State) : Prop :=
  match firstLine blanks st.resolv st.priority with
  | none => topIf blanks st.resolv_conf ≠ some p.1
  | some _ =>
    ruled sys st.resolv st.priority = none →
      let left := (split blanks (leftOver sys st.resolv st.priority gateway)).headD []
      left ≠ p.1 ∧ topIf blanks (updateResolv (resolvOf st left) st).resolv_conf ≠ some p.1

/-- `ip-down` forgets its interface exactly where there was nothing to forget: it was not
registered, had no hosts file, and nothing that is left over mentions it. -/
theorem ip_down_forgets (sys : Sys) (gateway : Text) (p : Token) (st : State) :
    Forgotten p st (ip_down sys gateway p st).1 (ip_down sys gateway p st).2 ↔
      p.1 ∉ st.resolv ∧ ¬ (p.1 ∈ st.hosts ∧ visible ['*'] p.1 = true) ∧
        Unmentioned sys gateway p st := by
  set sh : Shell := ⟨.initial, p.1, gateway⟩ with hsh
  set st₀ := gateDown [] st with hst₀
  have hresolv₀ : st₀.resolv = st.resolv := rfl
  have hreg : registered sh [] [] st₀ = st₀ := rfl
  obtain ⟨st₁, call, hup⟩ : ∃ st₁ call, gateUp sys sh [] [] st₀ = (st₁, call) := ⟨_, _, rfl⟩
  have hdown : ip_down sys gateway p st = (hostsUp sys sh [] [] st₁, call) := by
    rw [ip_down, ipDown, ← hsh, ← hst₀, hup]
  -- no part of it touches the registry, and only the file without a name goes
  have hkept : st₁.resolv = st.resolv ∧ st₁.hosts = st.hosts.erase [] := by
    have h₁ := congrArg Prod.fst hup
    rw [gateUp] at h₁
    split at h₁
    · obtain rfl : _ = st₁ := h₁
      exact ⟨rfl, rfl⟩
    · obtain rfl : _ = st₁ := h₁
      exact ⟨setGateway_resolv _, setGateway_hosts _⟩
  have hhosts : p.1 ∈ (hostsUp sys sh [] [] st₁).etc_hosts.merged.map Prod.fst ↔
      p.1 ∈ st.hosts ∧ visible ['*'] p.1 = true := by
    rw [mem_merged]
    show p.1 ∈ st₁.hosts ∧ _ ↔ _
    rw [hkept.2, AList.mem_erase, and_iff_right p.2.1.1]
  have hothers : ∀ q : Token, q ≠ p →
      (hostsUp sys sh [] [] st₁).resolv.lookup q.1 = st.resolv.lookup q.1 ∧
        (hostsUp sys sh [] [] st₁).hosts.lookup q.1 = st.hosts.lookup q.1 := by
    intro q _
    refine ⟨by rw [hostsUp_resolv, hkept.1], ?_⟩
    show st₁.hosts.lookup q.1 = _
    rw [hkept.2, AList.lookup_erase_ne q.2.1.1]
  rw [hdown]
  -- what is left to show is about the selection
  have hmain : p.1 ∉ st.resolv →
      ((topIf blanks st₁.resolv_conf ≠ some p.1 ∧ ∀ gw, call ≠ some (p.1, gw)) ↔
        Unmentioned sys gateway p st) := by
    intro hp
    rcases hnames : firstLine blanks st.resolv st.priority with _ | names
    · have hcall := gateUp_none sys sh [] [] st₀
        hnames
      obtain ⟨rfl, rfl⟩ := Prod.mk.inj (hup.symm.trans hcall)
      simp only [Unmentioned, hnames]
      exact and_iff_left fun gw hc => by cases hc
    · have hline : (firstLine blanks st.resolv st.priority).isSome := by rw [hnames]; rfl
      simp only [Unmentioned, hnames]
      rcases hr : ruled sys st.resolv st.priority with _ | i
      · obtain ⟨gw, hselect, -, hleft⟩ := select_spec sys gateway hline
        rw [hr] at hselect
        have hcall := gateUp_some sys sh [] [] st₀ hselect
        rw [hup] at hcall
        have hparams := params_of_nil blanks gw
        obtain ⟨h₀, h₁⟩ := Prod.mk.inj hparams
        have htext : sh.ifs.text = blanks := rfl
        simp only [htext, Option.getD_none, List.headD_nil, h₀, h₁] at hcall
        obtain ⟨rfl, rfl⟩ := Prod.mk.inj hcall
        rw [← hleft hr, setGateway_resolv_conf]
        simp only [forall_const]
        rw [and_comm]
        refine and_congr ?_ Iff.rfl
        constructor
        · exact fun h hc => h _ (by rw [hc])
        · exact fun h gw' hc => h (Prod.mk.inj (Option.some.inj hc)).1
      · obtain ⟨hcall, -, -⟩ := gateUp_ruled sys sh [] [] st₀ rfl hline hr
        obtain ⟨rfl, rfl⟩ := Prod.mk.inj (hup.symm.trans hcall)
        obtain ⟨gw, hhead⟩ := headerGateway_of_ruled hr
        have hne : i ≠ p.1 := fun hc => hp (hc ▸ mem_of_headerGateway hhead)
        refine iff_of_true ⟨?_, ?_⟩ fun hc => by cases hc
        · rw [setGateway_resolv_conf, hreg,
            topIf_resolvOf st₀ (ne_nil_of_ruled hr) hhead]
          exact fun hc => hne (Option.some.inj hc)
        · intro gw' hc
          exact hne (Prod.mk.inj (Option.some.inj hc)).1
  constructor
  · rintro ⟨hresolv, hhosts', htop, hgate, -⟩
    have hp : p.1 ∉ st.resolv := by
      rw [hostsUp_resolv, hkept.1] at hresolv
      exact hresolv
    exact ⟨hp, fun hc => hhosts' (hhosts.mpr hc), (hmain hp).mp ⟨htop, hgate⟩⟩
  · rintro ⟨hp, hno, hun⟩
    obtain ⟨htop, hgate⟩ := (hmain hp).mpr hun
    refine ⟨?_, fun hc => hno (hhosts.mp hc), htop, hgate, hothers⟩
    rw [hostsUp_resolv, hkept.1]
    exact hp

/-- The dropped link stays registered, keeps its hosts file, and is selected again. -/
theorem ip_down_keeps_link :
    let st := { bare (onePriority "eth[0-9]* ppp[0-9]* *") with
      resolv := AList.insert ppp0.1 ["#ppp0 10.64.0.1".toList] ∅
      hosts := AList.insert ppp0.1 ["10.64.0.2 esp-ppp0".toList] ∅ }
    (ip_down quiet [] ppp0 st).2 = some (ppp0.1, pppGate.1) ∧
      ¬ Forgotten ppp0 st (ip_down quiet [] ppp0 st).1 (ip_down quiet [] ppp0 st).2 := by
  intro st
  have hcall : (ip_down quiet [] ppp0 st).2 = some (ppp0.1, pppGate.1) := by
    decide
  exact ⟨hcall, fun h => h.gateway _ hcall⟩

end EspLinux.Net
