import Mathlib.Order.Interval.Finset.Nat
import NssDp.Edma.DataPlane

/-!
# Ports and their data planes

`struct nss_dp_dev` and the global data of the driver (`include/nss_dp_dev.h`), and calls
through the table of callbacks of a port (`exports/nss_dp_api_if.h`). A data plane other than
EDMA answers as the environment says. The history lists the calls, the replacements of a data
plane and the release of the EDMA rings.
-/

namespace NssDp

open Edma

/-- The members of `struct nss_dp_data_plane_ops`. -/
inductive DpCallback where
  | init
  | «open»
  | close
  | linkState
  | macAddr
  | changeMtu
  | xmit
  | setFeatures
  | pauseOnOff
  | vsiAssign
  | vsiUnassign
  | rxFlowSteer
  | getStats
  | deinit
  deriving DecidableEq, Repr

/-- The tables of callbacks: `nss_dp_edma_ops`, `nss_dp_gmac_ops`, and those of overlay drivers,
    of which some members may be NULL. -/
inductive DataPlaneOps where
  | edma
  | synGmac
  | overlay (id : Nat) (missing : List DpCallback)
  deriving DecidableEq, Repr

/-- The members of a table that are NULL (`edma_data_plane.c:575-591`, `syn_data_plane.c:324-336`);
    of EDMA's, `rx_flow_steer` is there with `CONFIG_RFS_ACCEL`, without which it is not called. -/
def DataPlaneOps.missing : DataPlaneOps → List DpCallback
  | .edma => [.getStats]
  | .synGmac => [.vsiAssign, .vsiUnassign, .rxFlowSteer]
  | .overlay _ missing => missing

/-- `nss_dp_hal_get_data_plane_ops`. -/
def Soc.halOps (soc : Soc) : DataPlaneOps := if soc.ppeSupport then .edma else .synGmac

/-- A `struct nss_dp_data_plane_ctx *`: an entry of `dp_global_data_plane_ctx`, or an object of
    an overlay driver. -/
inductive DpcPtr where
  | global (i : Nat)
  | overlay (id : Nat) (ctx : NssDpDataPlaneCtx)
  deriving DecidableEq, Repr

/-- `enum nss_dp_link_state`. -/
inductive NssDpLinkState where
  | up
  | down
  deriving DecidableEq, Repr

/-- The feature flags of a `struct net_device` that the driver resets. -/
structure NetdevFeatures where
  features : Nat
  hwFeatures : Nat
  vlanFeatures : Nat
  wantedFeatures : Nat
  deriving DecidableEq, Repr

/-- A `struct nss_dp_dev` with its net device. `up` is the bit `__NSS_DP_UP` of `flags`, and
    `initDone` the bit `INIT_DONE` of `drv_flags`. -/
structure NssDpDev where
  netdev : NetDevice
  features : NetdevFeatures
  up : Bool
  initDone : Bool
  vsi : Nat
  mtu : Nat
  devAddr : Nat
  linkPoll : Bool
  linkState : NssDpLinkState
  dpc : DpcPtr
  dataPlaneOps : DataPlaneOps
  deriving DecidableEq, Repr

/-- What happens to the data planes of the ports. `edmaFreed` is the release of the EDMA rings,
    by the deinitialisation of EDMA on a port or at module exit, with the ports that are up on
    EDMA, and all that are up. -/
inductive DpEvent where
  | call (port : Nat) (ops : DataPlaneOps) (dpc : DpcPtr) (cb : DpCallback) (ok : Bool)
  | install (port : Nat) (old new : DataPlaneOps) (dpc : DpcPtr)
  | edmaFreed (port : Option Nat) (edmaUp up : List Nat)
  deriving DecidableEq, Repr

/-- Why a call into the driver does not return: it calls a callback that is NULL, or one that
    crashes or waits for ever. -/
inductive Halt where
  | nullCallback (port : Nat) (cb : DpCallback)
  | inCallback
  deriving DecidableEq, Repr

/-- The outcome of a function for which `none` stands for not returning. -/
def returned {α : Type} : Option α → Except Halt α
  | some a => .ok a
  | none => .error .inCallback

/-- What does not change while the driver runs. -/
structure Platform where
  soc : Soc
  virtToPhys : Nat → BitVec 32

/-- The state of the driver. The ports are numbered by their `macid`. -/
structure Driver where
  dev : Nat → NssDpDev
  dpGlobalDataPlaneCtx : Nat → NssDpDataPlaneCtx
  commonInitDone : Bool
  edmaHw : EdmaHw
  history : List DpEvent

/-- How the surroundings answer during one call into the driver: the callbacks of a data plane
    other than EDMA, with the features it sets, and for EDMA the FAL, the interrupt requests and
    a poll that `napi_disable` waits for. -/
structure CallEnv where
  ok : DpCallback → Bool
  features : NetdevFeatures
  fal : Bool
  irq : IrqEnv
  workDone : Nat

/-- The ports a device tree can have. -/
def Platform.ports (plat : Platform) : Finset Nat := Finset.Icc 1 plat.soc.maxPorts

namespace Driver

/-- Changes one port. -/
def modify (s : Driver) (p : Nat) (f : NssDpDev → NssDpDev) : Driver :=
  { s with dev := Function.update s.dev p (f (s.dev p)) }

def modifyNetdev (s : Driver) (p : Nat) (f : NetDevice → NetDevice) : Driver :=
  s.modify p fun d => { d with netdev := f d.netdev }

def setUp (s : Driver) (p : Nat) (up : Bool) : Driver := s.modify p fun d => { d with up }

def setInitDone (s : Driver) (p : Nat) (initDone : Bool) : Driver :=
  s.modify p fun d => { d with initDone }

def setLinkState (s : Driver) (p : Nat) (linkState : NssDpLinkState) : Driver :=
  s.modify p fun d => { d with linkState }

def setCarrier (s : Driver) (p : Nat) (carrierOk : Bool) : Driver :=
  s.modifyNetdev p fun n => { n with carrierOk }

def setQueueStopped (s : Driver) (p : Nat) (queueStopped : Bool) : Driver :=
  s.modifyNetdev p fun n => { n with queueStopped }

def setRunning (s : Driver) (p : Nat) (running : Bool) : Driver :=
  s.modifyNetdev p fun n => { n with running }

def record (s : Driver) (e : DpEvent) : Driver := { s with history := s.history ++ [e] }

/-- What a context pointer points to. -/
def ctx (s : Driver) : DpcPtr → NssDpDataPlaneCtx
  | .global i => s.dpGlobalDataPlaneCtx i
  | .overlay _ ctx => ctx

/-- The ports that are up, and those of them that are up on EDMA. -/
def upPorts (plat : Platform) (s : Driver) : List Nat :=
  (List.range' 1 plat.soc.maxPorts).filter fun q => (s.dev q).up

def edmaUpPorts (plat : Platform) (s : Driver) : List Nat :=
  (s.upPorts plat).filter fun q => (s.dev q).dataPlaneOps = .edma

/-- The release of the EDMA rings, where the instance `e` is no longer initialised. -/
def freedBy (plat : Platform) (s : Driver) (port : Option Nat) (e : EdmaHw) : List DpEvent :=
  if s.edmaHw.edmaInitialized && !e.edmaInitialized then
    [.edmaFreed port (s.edmaUpPorts plat) (s.upPorts plat)]
  else []

/-- The EDMA instance after a call that may be a cleanup. -/
def setEdmaHw (plat : Platform) (s : Driver) (port : Option Nat) (e : EdmaHw) : Driver :=
  { s with
    edmaHw := e
    history := s.history ++ s.freedBy plat port e }

end Driver

/-- The callbacks of `nss_dp_edma_ops`, called for port `p`; `xmit` has other arguments
    (`nssDpXmit`), and `get_stats` is NULL. -/
def nssDpEdmaOps (plat : Platform) (s : Driver) (p : Nat) (dpc : NssDpDataPlaneCtx)
    (env : CallEnv) : DpCallback → Option (NssDpRet × Driver)
  | .init => dpc.dev.map fun q =>
      let r := edmaIfInit plat.soc s.edmaHw (s.dev q).netdev env.irq
      (r.1, { s.modifyNetdev q fun _ => r.2.2 with edmaHw := r.2.1 })
  | .open => (edmaIfOpen s.edmaHw dpc).map fun r => (r.1, { s with edmaHw := r.2 })
  | .close => (edmaIfClose s.edmaHw env.workDone).map fun r => (r.1, { s with edmaHw := r.2 })
  | .linkState => some (edmaIfLinkState dpc, s)
  | .macAddr => some (edmaIfMacAddr dpc, s)
  | .changeMtu => some (edmaIfChangeMtu dpc, s)
  | .setFeatures => some (.success, s)
  | .pauseOnOff => some (edmaIfPauseOnOff dpc, s)
  | .vsiAssign => some ((edmaIfVsiAssign plat.soc s.edmaHw dpc (s.dev p).vsi env.fal).1, s)
  | .vsiUnassign => some ((edmaIfVsiUnassign plat.soc s.edmaHw dpc env.fal).1, s)
  | .rxFlowSteer => some (edmaIfRxFlowSteer dpc, s)
  | .deinit => (edmaIfDeinit plat.soc plat.virtToPhys s.edmaHw).map fun r =>
      (r.1, s.setEdmaHw plat (some p) r.2)
  | .xmit | .getStats => none

/-- What a data plane other than EDMA does to the port. -/
def otherDataPlane (s : Driver) (p : Nat) (env : CallEnv) : DpCallback → Driver
  | .setFeatures => s.modify p fun d => { d with features := env.features }
  | _ => s

/-- A call through `data_plane_ops` of port `p`: whether it succeeds. There is no way on from a
    callback that is NULL. -/
def Driver.callback (plat : Platform) (s : Driver) (p : Nat) (dpc : DpcPtr) (env : CallEnv)
    (cb : DpCallback) : Except Halt (Bool × Driver) :=
  let ops := (s.dev p).dataPlaneOps
  if cb ∈ ops.missing then .error (.nullCallback p cb)
  else
    let answer : Option (Bool × Driver) := match ops with
      | .edma => (nssDpEdmaOps plat s p (s.ctx dpc) env cb).map fun r => (r.1 = .success, r.2)
      | .synGmac | .overlay .. => some (env.ok cb, otherDataPlane s p env cb)
    (returned answer).map fun r => (r.1, r.2.record (.call p ops dpc cb r.1))

/-- A callback that is given the context of the port. -/
def Driver.ownCallback (plat : Platform) (s : Driver) (p : Nat) (env : CallEnv)
    (cb : DpCallback) : Except Halt (Bool × Driver) :=
  s.callback plat p (s.dev p).dpc env cb

end NssDp
