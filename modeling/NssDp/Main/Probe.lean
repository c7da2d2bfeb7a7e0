import NssDp.Hal.GmacOps
import NssDp.Main.Dev

/-!
# Probing and removing ports

`nss_dp_probe` and `nss_dp_remove` (`nss_dp_main.c`) with the tables they fill:
`dp_global_ctx.nss_dp` and the net devices of `dp_global_data_plane_ctx`. A net device is known
by its number in the order of allocation. What the driver does to the MAC, the PHY and the net
devices is listed.
-/

namespace NssDp.Probe

/-- `GMAC_HAL_TYPE_MAX`. -/
abbrev gmacHalTypeMax : Nat := 3

/-- `dp_global_ctx.gmac_hal_ops`. -/
abbrev GmacHalTable := Fin gmacHalTypeMax → Option GmacHal

/-- `nss_dp_hal_set_gmac_ops` (`nss_dp_hal.h:35-38`). -/
def nssDpHalSetGmacOps (table : GmacHalTable) (ops : Option GmacHal)
    (gmacType : Fin gmacHalTypeMax) : GmacHalTable :=
  Function.update table gmacType ops

/-- What `nss_dp_hal_init` leaves in the table (`nss_ipq807x.c:35-36`, `nss_ipq60xx.c:35-36`,
    `nss_ipq50xx.c:136`). -/
def nssDpHalInit : Soc → GmacHalTable
  | .ipq807x | .ipq60xx =>
      nssDpHalSetGmacOps (nssDpHalSetGmacOps (fun _ => none) (some .qcom) 0) (some .synXgmac) 1
  | .ipq50xx => nssDpHalSetGmacOps (fun _ => none) (some .synGmac) 2

/-- Why a probe or a removal does not return: an array is read past its end, or a member of a HAL
    is called that is NULL. -/
inductive ProbeFault where
  | outOfBounds (index : Nat)
  | nullExit (netdev : Nat)
  deriving DecidableEq, Repr

/-- `nss_dp_hal_get_gmac_ops` (`nss_dp_hal.h:26-29`). -/
def nssDpHalGetGmacOps (table : GmacHalTable) (gmacType : BitVec 32) :
    Except ProbeFault (Option GmacHal) :=
  if h : gmacType.toNat < gmacHalTypeMax then .ok (table ⟨gmacType.toNat, h⟩)
  else .error (.outOfBounds gmacType.toNat)

/-- A node of the device tree, as the driver reads it. -/
structure DeviceNode where
  qcomId : Option (BitVec 32)
  qcomMactype : Option (BitVec 32)
  resource : Option (Nat × Nat)
  phyMode : Int
  linkPoll : Bool
  phyMdioAddr : Option (BitVec 32)
  forcedSpeed : Option (BitVec 32)
  forcedDuplex : Option (BitVec 32)
  macAddress : Option EtherAddr

/-- What `nss_dp_of_get_pdata` leaves in the net device, in `struct nss_dp_dev` and in
    `struct gmac_hal_platform_data`. -/
structure PlatData (soc : Soc) where
  macid : BitVec 32
  macid_pos : 0 < macid.toNat
  macid_le : macid.toNat ≤ soc.maxPorts
  mactype : BitVec 32
  baseAddr : Nat
  regLen : Nat
  phyMiiType : Int
  linkPoll : Bool
  phyMdioAddr : BitVec 32
  forcedSpeed : BitVec 32
  forcedDuplex : BitVec 32
  devAddr : EtherAddr

/-- `macid - 1`. -/
def PlatData.index {soc : Soc} (pdata : PlatData soc) : Fin soc.maxPorts :=
  ⟨pdata.macid.toNat - 1, by have := pdata.macid_pos; have := pdata.macid_le; omega⟩

/-- `nss_dp_of_get_pdata` (`nss_dp_main.c:433-494`); `randomAddr` is what `random_ether_addr`
    makes. -/
def nssDpOfGetPdata (soc : Soc) (np : DeviceNode) (randomAddr : EtherAddr) :
    Option (PlatData soc) :=
  match np.qcomId with
  | none => none
  | some macid =>
    if h : macid.toNat > soc.maxPorts ∨ macid.toNat = 0 then none
    else
      match np.qcomMactype, np.resource with
      | some mactype, some (start, size) =>
        if np.phyMdioAddr.isNone && np.linkPoll then none
        else some {
          macid
          macid_pos := by omega
          macid_le := by omega
          mactype
          baseAddr := start
          regLen := size
          phyMiiType := np.phyMode
          linkPoll := np.linkPoll
          phyMdioAddr := np.phyMdioAddr.getD 0
          forcedSpeed := np.forcedSpeed.getD 0
          forcedDuplex := np.forcedDuplex.getD 0
          devAddr := match np.macAddress with
            | some maddr => if maddr.isValid then maddr else randomAddr
            | none => randomAddr }
      | _, _ => none

/-- What `nss_dp_mdio_attach` finds: the node of the handle `mdio-bus`, with whether it has a bus;
    else the compatible node, its device, and its data with whether there is a bus in it. -/
structure MdioEnv where
  mdioBus : Option Bool
  compatibleNode : Bool
  mdioPlat : Bool
  mdioData : Option Bool

/-- `nss_dp_mdio_attach` (`nss_dp_main.c:499-534`): whether it returns a bus. -/
def nssDpMdioAttach (env : MdioEnv) : Bool :=
  match env.mdioBus with
  | some bus => bus
  | none =>
    if !env.compatibleNode then false
    else if !env.mdioPlat then false
    else
      match env.mdioData with
      | none => false
      | some bus => bus

/-- What the driver does to a MAC, a PHY and a net device. -/
inductive ProbeEvent where
  | halInit (netdev : Nat)
  | halExit (netdev : Nat)
  | phyConnect (netdev : Nat)
  | phyDisconnect (netdev : Nat)
  | registerNetdev (netdev : Nat)
  | unregisterNetdev (netdev : Nat)
  | freeNetdev (netdev : Nat)
  deriving DecidableEq, Repr

/-- The net device that an event is about. -/
def ProbeEvent.netdev : ProbeEvent → Nat
  | .halInit n | .halExit n | .phyConnect n | .phyDisconnect n | .registerNetdev n
  | .unregisterNetdev n | .freeNetdev n => n

/-- A `struct nss_dp_dev` with a port; `phydev` says whether it has a PHY. -/
structure ProbedDev (soc : Soc) where
  netdev : Nat
  pdata : PlatData soc
  dataPlaneOps : DataPlaneOps
  gmacHalOps : GmacHal
  phydev : Bool
  vsi : BitVec 32

/-- `dp_global_ctx` and the members `dev` of `dp_global_data_plane_ctx`, with the number of net
    devices allocated so far. -/
structure ProbeCtx (soc : Soc) where
  nssDp : Fin soc.maxPorts → Option (ProbedDev soc)
  dpcDev : Fin soc.maxPorts → Option Nat
  slowprotoAclBm : BitVec 8
  netdevs : Nat
  events : List ProbeEvent

/-- The outcomes of the steps of a probe, with the node it is for. -/
structure ProbeEnv where
  allocEtherdev : Bool
  node : DeviceNode
  randomAddr : EtherAddr
  halInit : HalInitEnv
  mdio : MdioEnv
  phyConnect : Bool
  vsi : Option (BitVec 32)
  registerNetdev : Bool

/-- `-EFAULT`. -/
def eFault : Int := -14

/-- `-ENOMEM`. -/
def eNoMem : Int := -12

namespace ProbeCtx

variable {soc : Soc}

/-- Before the first probe. -/
def start (soc : Soc) : ProbeCtx soc := ⟨fun _ => none, fun _ => none, 0, 0, []⟩

def emit (s : ProbeCtx soc) (events : List ProbeEvent) : ProbeCtx soc :=
  { s with events := s.events ++ events }

def setDpcDev (s : ProbeCtx soc) (i : Fin soc.maxPorts) (netdev : Nat) : ProbeCtx soc :=
  { s with dpcDev := Function.update s.dpcDev i (some netdev) }

def setNssDp (s : ProbeCtx soc) (i : Fin soc.maxPorts) (dev : Option (ProbedDev soc)) :
    ProbeCtx soc :=
  { s with nssDp := Function.update s.nssDp i dev }

@[simp] theorem setDpcDev_dpcDev (s : ProbeCtx soc) (i j : Fin soc.maxPorts) (netdev : Nat) :
    (s.setDpcDev i netdev).dpcDev j = if j = i then some netdev else s.dpcDev j := by
  simp [setDpcDev, Function.update_apply]

@[simp] theorem setNssDp_nssDp (s : ProbeCtx soc) (i j : Fin soc.maxPorts)
    (dev : Option (ProbedDev soc)) :
    (s.setNssDp i dev).nssDp j = if j = i then dev else s.nssDp j := by
  simp [setNssDp, Function.update_apply]

/-- The label `fail` of a probe (`nss_dp_main.c:724-726`). -/
def fail (s : ProbeCtx soc) (netdev : Nat) : Int × ProbeCtx soc :=
  (eFault, s.emit [.freeNetdev netdev])

end ProbeCtx

/-- The end of a probe: `register_netdev` and what follows it (`nss_dp_main.c:708-721`). -/
def registerPort {soc : Soc} (s : ProbeCtx soc) (dev : ProbedDev soc) (ok : Bool) :
    Except ProbeFault (Int × ProbeCtx soc) :=
  if ok then
    .ok (0, { (s.emit [.registerNetdev dev.netdev]).setNssDp dev.pdata.index (some dev) with
      slowprotoAclBm := 0 })
  else if dev.gmacHalOps.hasExit then
    .ok ((s.emit [.halExit dev.netdev]).fail dev.netdev)
  else .error (.nullExit dev.netdev)

/-- The part of a probe that follows the HAL's `init` (`nss_dp_main.c:662-721`). -/
def connectPort {soc : Soc} (s : ProbeCtx soc) (netdev : Nat) (pdata : PlatData soc)
    (ops : GmacHal) (env : ProbeEnv) : Except ProbeFault (Int × ProbeCtx soc) :=
  if pdata.linkPoll && !nssDpMdioAttach env.mdio then .ok (s.fail netdev)
  else if pdata.linkPoll && !env.phyConnect then .ok (s.fail netdev)
  else
    let s := if pdata.linkPoll then s.emit [.phyConnect netdev] else s
    match if soc.ppeSupport then env.vsi else some 0 with
    | none => .ok (s.fail netdev)
    | some vsi =>
      registerPort s ⟨netdev, pdata, soc.halOps, ops, pdata.linkPoll, vsi⟩ env.registerNetdev

/-- `nss_dp_probe` (`nss_dp_main.c:587-727`). The table of the data plane is never NULL. -/
def nssDpProbe {soc : Soc} (s : ProbeCtx soc) (env : ProbeEnv) :
    Except ProbeFault (Int × ProbeCtx soc) :=
  if !env.allocEtherdev then .ok (eNoMem, s)
  else
    let netdev := s.netdevs
    let s := { s with netdevs := s.netdevs + 1 }
    match nssDpOfGetPdata soc env.node env.randomAddr with
    | none => .ok (s.fail netdev)
    | some pdata =>
      let s := s.setDpcDev pdata.index netdev
      match nssDpHalGetGmacOps (nssDpHalInit soc) pdata.mactype with
      | .error fault => .error fault
      | .ok none => .ok (s.fail netdev)
      | .ok (some ops) =>
        if ops.init env.halInit then
          connectPort (s.emit [.halInit netdev]) netdev pdata ops env
        else .ok (s.fail netdev)

/-- One turn of the loop in `nss_dp_remove`. -/
def removePort {soc : Soc} (s : ProbeCtx soc) (i : Fin soc.maxPorts) :
    Except ProbeFault (ProbeCtx soc) :=
  match s.nssDp i with
  | none => .ok s
  | some dev =>
    let s := if dev.phydev then s.emit [.phyDisconnect dev.netdev] else s
    let s := s.emit [.unregisterNetdev dev.netdev]
    if dev.gmacHalOps.hasExit then
      .ok ((s.emit [.halExit dev.netdev, .freeNetdev dev.netdev]).setNssDp i none)
    else .error (.nullExit dev.netdev)

/-- The loop, over the ports that are left. -/
def removeLoop {soc : Soc} (s : ProbeCtx soc) :
    List (Fin soc.maxPorts) → Except ProbeFault (ProbeCtx soc)
  | [] => .ok s
  | i :: is => do removeLoop (← removePort s i) is

/-- `nss_dp_remove` (`nss_dp_main.c:732-753`). -/
def nssDpRemove {soc : Soc} (s : ProbeCtx soc) : Except ProbeFault (ProbeCtx soc) :=
  removeLoop s (List.finRange soc.maxPorts)

/-- What the platform bus calls. -/
inductive BusCall where
  | probe (env : ProbeEnv)
  | remove

/-- A call of the bus that returns. -/
def busStep {soc : Soc} (s : ProbeCtx soc) : BusCall → Option (ProbeCtx soc)
  | .probe env => (nssDpProbe s env).toOption.map Prod.snd
  | .remove => (nssDpRemove s).toOption

end NssDp.Probe
