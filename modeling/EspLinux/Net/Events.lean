import EspLinux.Net.PppUp
import EspLinux.Net.PppDown

/-!
# The network scripts: the events

The scripts that are run when an interface comes up or goes down: `ifdown`, the script
of `udhcpc`, and `ip-up` and `ip-down` of pppd.  All but the last two go through `ipUp`
and `ifDown`.  A VPN that an interface carries is taken down and up again behind it.
-/

namespace EspLinux.Net

open EspLinux.Lib.Words

/-- What `ipUp` finds in its variables. -/
structure Up where
  /-- `IFNAME`. -/
  iface : Token
  /-- Whether `IPADDR` is set. -/
  address : Bool
  /-- The words of `GATEWAY`. -/
  gateway : List Token
  /-- What `resolv_conf` prints. -/
  resolv_conf : List Text
  /-- What `hosts` prints. -/
  hosts : List Text
  /-- Whether the kernel drops the interface's routes with the address it had before. -/
  flushes : Bool

/-- `vpnUp`, where it goes as far as `ifDown` and `ifUp`. -/
structure Restart where
  vpn : Up
  /-- Whether `ifDown` finds the interface up or one of its daemons running. -/
  stops : Bool
  /-- Whether `ifUp` returns without `ipUp`, which a daemon may call later. -/
  defers : Bool

/-- What the kernel does with the routes of an interface that loses its address. -/
def flush (i : Token) (st : State) : State :=
  { st with table := st.table.filter fun r => r.iface ≠ i }

/-- `ifDown`, which returns early for an interface that is not up. -/
def ifDown (i : Token) (stops : Bool) (st : State) : State :=
  if stops then flush i (gateDown i.1 st) else st

/-- `$IFNAME $GATEWAY` -/
def Up.args (ifs : Text) (u : Up) : List Text :=
  split ifs u.iface.1 ++ split ifs ([' '].intercalate (u.gateway.map (·.1)))

/-- `ipUp` with what its `vpnUp` does, and whether it succeeds. -/
def ipUpThen (sys : Sys) (sh : Shell) (vpnUp : State → State) (u : Up) (st : State) :
    State × Bool :=
  if u.address then
    let sh := { sh with ifname := u.iface.1 }
    let st := if u.flushes then flush u.iface st else st
    match gateUp sys sh (u.args sh.ifs.text) u.resolv_conf st with
    | (st, none) => (st, false)
    | (st, some _) => (vpnUp (hostsUp sys sh u.iface.1 u.hosts st), true)
  else (flush u.iface st, true)

/-- `vpnUp`, and those that the `ipUp` of a VPN leads to. -/
def vpnUp (sys : Sys) (sh : Shell) : List Restart → State → State
  | [], st => st
  | r :: vpns, st =>
    let st := ifDown r.vpn.iface r.stops st
    if r.defers then st else (ipUpThen sys sh (vpnUp sys sh vpns) r.vpn st).1

def ipUp (sys : Sys) (sh : Shell) (vpns : List Restart) (u : Up) (st : State) : State × Bool :=
  ipUpThen sys sh (vpnUp sys sh vpns) u st

/-! ## udhcpc -/

/-- What `udhcpc` tells its script of a lease. -/
structure Lease where
  ip : Text
  subnet : Text
  broadcast : Text
  router : List Token
  mtu : Text
  domain : Text
  dns : Text
  /-- Whether `ignoreDNS` is set. -/
  ignoreDNS : Bool
  /-- `searchDomains`. -/
  searchDomains : Text → Text

namespace Lease

variable (l : Lease)

/-- `leaseSpec` -/
def spec : Text :=
  l.ip ++ " M:".toList ++ l.subnet ++ " B:".toList ++ l.broadcast ++ " G:".toList ++
    [' '].intercalate (l.router.map (·.1)) ++ " U:".toList ++ l.mtu ++
    if l.ignoreDNS then [] else '\n' :: (l.domain ++ " DNS:".toList ++ l.dns)

/-- The variables `ipUp` is called with: those of the interface, less what the lease says. -/
def up (u : Up) : Up :=
  let dns := if l.ignoreDNS then [] else l.dns
  { u with
    address := l.ip ≠ []
    gateway := l.router
    resolv_conf :=
      if dns = [] then u.resolv_conf
      else ("search ".toList ++ l.searchDomains l.domain) ::
        (split blanks dns).map fun ip => "nameserver ".toList ++ ip }

end Lease

/-- The event `deconfig`, for an interface with a valid configuration or not. -/
def deconfig (sys : Sys) (sh : Shell) (valid : Bool) (vpns : List Restart) (u : Up) (st : State) :
    State :=
  let st := { st with resolv := st.resolv.erase u.iface.1 }
  let (st, up) := if valid then ipUp sys sh vpns u st else (st, false)
  let st := if up then st else flush u.iface st
  { st with lease := st.lease.erase u.iface.1 }

/-- The events `bound` and `renew`.  A lease renewed with no changes is left alone. -/
def bound (sys : Sys) (sh : Shell) (renew : Bool) (l : Lease) (vpns : List Restart) (u : Up)
    (st : State) : State :=
  if renew ∧ st.lease.lookup u.iface.1 = some l.spec then st
  else
    let (st, up) := ipUp sys sh vpns (l.up u) st
    if up then { st with lease := st.lease.insert u.iface.1 l.spec } else st

/-! ## pppd and ifdown -/

/-- The script `ip-up`. -/
def ip_up (sys : Sys) (inherits : Bool) (e : Ppp) (vpns : List Restart) (st : State) : State :=
  match ip_up_gate sys inherits e st with
  | (st, none) => st
  | (st, some _) =>
    let sh := e.shell inherits
    vpnUp sys sh vpns (hostsUp sys sh e.iface.1 e.hosts st)

/-- The script `ifdown`, with the aliases it forces down first.  It ends in a trap. -/
def ifdown (sys : Sys) (gateway : Text) (aliases : List (Token × Bool)) (i : Token) (stops : Bool)
    (st : State) : State :=
  let st := aliases.foldl (fun st a => ifDown a.1 a.2 st) st
  let st := ifDown i stops st
  let sh : Shell := ⟨.initial, i.1, gateway⟩
  hostsUp sys sh [] [] (gateUp sys sh [] [] st).1

/-- The events of the interfaces, with the value each shell has in `gateway`. -/
inductive Action
  | ipUp (gateway : Text) (vpns : List Restart) (u : Up)
  | deconfig (gateway : Text) (valid : Bool) (vpns : List Restart) (u : Up)
  | bound (gateway : Text) (renew : Bool) (l : Lease) (vpns : List Restart) (u : Up)
  | ip_up (inherits : Bool) (e : Ppp) (vpns : List Restart)
  | ip_down (gateway : Text) (i : Token)
  | ifdown (gateway : Text) (aliases : List (Token × Bool)) (i : Token) (stops : Bool)

/-- The state behind an event. -/
def Action.run (sys : Sys) (st : State) : Action → State
  | .ipUp gateway vpns u => (Net.ipUp sys ⟨.initial, u.iface.1, gateway⟩ vpns u st).1
  | .deconfig gateway valid vpns u => Net.deconfig sys ⟨.initial, u.iface.1, gateway⟩ valid vpns u st
  | .bound gateway renew l vpns u =>
    Net.bound sys ⟨.initial, u.iface.1, gateway⟩ renew l vpns u st
  | .ip_up inherits e vpns => Net.ip_up sys inherits e vpns st
  | .ip_down gateway i => (Net.ip_down sys gateway i (flush i st)).1
  | .ifdown gateway aliases i stops => Net.ifdown sys gateway aliases i stops st

end EspLinux.Net
