import NssDp.Main.OpenClose

/-!
# Overlay drivers

The functions with which an overlay driver puts its data plane in the place of a port's own
(`nss_dp_attach.c`), and the calls that reach a port: these, and the kernel's.
-/

namespace NssDp

open Edma

/-- `nss_dp_reset_netdev_features`. -/
def nssDpResetNetdevFeatures (s : Driver) (p : Nat) : Driver :=
  s.modify p fun d => { d with features := ⟨0, 0, 0, 0⟩ }

/-- The members that `nss_dp_override_data_plane` requires. -/
def requiredCallbacks : List DpCallback :=
  [.open, .close, .linkState, .macAddr, .changeMtu, .xmit, .setFeatures, .pauseOnOff, .deinit]

/-- The beginning of an override or a restore: a port that is up is stopped, whatever the stop
    returns (`nss_dp_attach.c:96-99`, `:160-163`). -/
def stopIfUp (plat : Platform) (s : Driver) (p : Nat) (env : CallEnv) : Except Halt Driver :=
  if (s.dev p).up then
    (nssDpClose plat s p env).map fun r => nssDpResetNetdevFeatures r.2 p
  else .ok s

/-- The data plane of a port is replaced. -/
def Driver.install (s : Driver) (p : Nat) (dpc : DpcPtr) (ops : DataPlaneOps) : Driver :=
  (s.modify p fun d => { d with
    dpc
    dataPlaneOps := ops }).record (.install p (s.dev p).dataPlaneOps ops dpc)

/-- The middle of an override: a data plane that is initialised is deinitialised, with the new
    context (`nss_dp_attach.c:104-111`). -/
def deinitOnce (plat : Platform) (s : Driver) (p : Nat) (dpc : DpcPtr) (env : CallEnv) :
    Except Halt (Bool × Driver) :=
  if (s.dev p).initDone then
    (s.callback plat p dpc env .deinit).map fun r =>
      (r.1, if r.1 then r.2.setInitDone p false else r.2)
  else .ok (true, s)

/-- `nss_dp_override_data_plane` (`nss_dp_attach.c:81-122`). -/
def nssDpOverrideDataPlane (plat : Platform) (s : Driver) (p id : Nat)
    (missing : List DpCallback) (dpc : DpcPtr) (env : CallEnv) : Except Halt (DevRet × Driver) :=
  if ∃ cb ∈ requiredCallbacks, cb ∈ missing then .ok (.failure, s)
  else
    (stopIfUp plat s p env).bind fun s =>
    orReturn .enomem (deinitOnce plat s p dpc env) fun s =>
    .ok (.ok, s.install p dpc (.overlay id missing))

/-- `nss_dp_start_data_plane` (`nss_dp_attach.c:129-147`). -/
def nssDpStartDataPlane (plat : Platform) (s : Driver) (p : Nat) (dpc : DpcPtr) (env : CallEnv) :
    Except Halt Driver :=
  if (s.dev p).up then .ok s
  else if (s.dev p).dpc ≠ dpc then .ok s
  else (nssDpOpen plat s p env).map Prod.snd

/-- `nss_dp_restore_data_plane` (`nss_dp_attach.c:152-171`). -/
def nssDpRestoreDataPlane (plat : Platform) (s : Driver) (p : Nat) (env : CallEnv) :
    Except Halt Driver :=
  (stopIfUp plat s p env).map fun s =>
    s.install p (.global (p - plat.soc.startIfnum)) plat.soc.halOps

/-- The calls that reach a port: the kernel opens and closes the interface, and overlay drivers
    override, start and restore its data plane. -/
inductive PortCall where
  | devOpen (p : Nat) (env : CallEnv)
  | devClose (p : Nat) (env : CallEnv)
  | override (p id : Nat) (missing : List DpCallback) (dpc : DpcPtr) (env : CallEnv)
  | start (p : Nat) (dpc : DpcPtr) (env : CallEnv)
  | restore (p : Nat) (env : CallEnv)

def PortCall.port : PortCall → Nat
  | .devOpen p _ | .devClose p _ | .override p .. | .start p .. | .restore p _ => p

/-- The kernel opens an interface that is not running and closes one that is. -/
def PortCall.enabled (plat : Platform) (s : Driver) (c : PortCall) : Prop :=
  c.port ∈ plat.ports ∧ match c with
    | .devOpen p _ => (s.dev p).netdev.running = false
    | .devClose p _ => (s.dev p).netdev.running = true
    | _ => True

instance (plat : Platform) (s : Driver) (c : PortCall) : Decidable (c.enabled plat s) := by
  cases c <;> unfold PortCall.enabled <;> infer_instance

/-- The driver after a call on one of its ports. After an error of `nss_dp_open` the kernel takes
    the interface as closed, and after `nss_dp_close` always. -/
def portCall (plat : Platform) (s : Driver) : PortCall → Except Halt Driver
  | .devOpen p env => (nssDpOpen plat s p env).map fun r => r.2.setRunning p (r.1 = .ok)
  | .devClose p env => (nssDpClose plat s p env).map fun r => r.2.setRunning p false
  | .override p id missing dpc env =>
    (nssDpOverrideDataPlane plat s p id missing dpc env).map Prod.snd
  | .start p dpc env => nssDpStartDataPlane plat s p dpc env
  | .restore p env => nssDpRestoreDataPlane plat s p env

/-- One call in the life of the ports. -/
def portStep (plat : Platform) (s : Driver) (c : PortCall) : Option Driver :=
  if c.enabled plat s then (portCall plat s c).toOption else none

/-- The driver after module initialisation and the probes of all ports
    (`nss_dp_main.c:587-727`). -/
structure Probed (plat : Platform) (s : Driver) : Prop where
  up : ∀ p, (s.dev p).up = false
  initDone : ∀ p, (s.dev p).initDone = false
  running : ∀ p, (s.dev p).netdev.running = false
  macid : ∀ p, (s.dev p).netdev.macid = p
  dataPlaneOps : ∀ p, (s.dev p).dataPlaneOps = plat.soc.halOps
  dpc : ∀ p, (s.dev p).dpc = .global (p - 1)
  ctx : ∀ p ∈ plat.ports, s.dpGlobalDataPlaneCtx (p - 1) = ⟨some p⟩
  commonInitDone : s.commonInitDone = true
  active : s.edmaHw.active = 0
  napi : s.edmaHw.napi = .disabled
  napiAdded : s.edmaHw.napiAdded = false
  dpOverrideCnt : s.edmaHw.dpOverrideCnt = 0
  history : s.history = []

end NssDp
