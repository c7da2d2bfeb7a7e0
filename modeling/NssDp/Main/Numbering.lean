import NssDp.Main.Attach

/-!
# The numbers of ports

A port is known by its `macid`, by its place in `dp_global_ctx.nss_dp` and in
`dp_global_data_plane_ctx`, and to other drivers by an interface number. The functions that go
from one to another are modelled for any number of ports and any first interface number.
-/

namespace NssDp

/-- `NSS_DP_HAL_MAX_PORTS`, `NSS_DP_HAL_START_IFNUM` and `NSS_DP_PPE_SUPPORT` of a SoC. -/
structure SocPorts where
  maxPorts : Nat
  startIfnum : Nat
  ppeSupport : Bool

def Soc.socPorts (soc : Soc) : SocPorts := ⟨soc.maxPorts, soc.startIfnum, soc.ppeSupport⟩

/-- `nss_dp_hal_get_data_plane_ops`. -/
def SocPorts.halOps (soc : SocPorts) : DataPlaneOps := if soc.ppeSupport then .edma else .synGmac

/-- What a `struct nss_dp_dev` says of the number of its port and its data plane. -/
structure PortDev where
  macid : Nat
  dpc : DpcPtr
  dataPlaneOps : DataPlaneOps
  deriving DecidableEq

/-- The probed ports by their `macid`, and `dp_global_ctx.nss_dp` with the `macid` for a pointer. -/
structure PortTable (soc : SocPorts) where
  dev : Nat → Option PortDev
  nssDp : Fin soc.maxPorts → Option Nat

namespace PortTable

variable {soc : SocPorts}

/-- No port is probed. -/
def empty : PortTable soc := ⟨fun _ => none, fun _ => none⟩

def setDev (s : PortTable soc) (macid : Nat) (d : PortDev) : PortTable soc :=
  { s with dev := Function.update s.dev macid (some d) }

end PortTable

/-- What `nss_dp_of_get_pdata` accepts of the property `qcom,id` (`nss_dp_main.c:443-451`). -/
def nssDpOfGetPdata (soc : SocPorts) (macid : Nat) : Bool :=
  !(decide (macid > soc.maxPorts) || decide (macid = 0))

/-- `nss_dp_probe` (`nss_dp_main.c:587-727`) of the port with the `qcom,id` `macid`; `ok` says
    whether the rest of the probe succeeds. -/
def nssDpProbe {soc : SocPorts} (s : PortTable soc) (macid : Nat) (ok : Bool) : PortTable soc :=
  if nssDpOfGetPdata soc macid && ok then
    { s.setDev macid ⟨macid, .global (macid - 1), soc.halOps⟩ with
      nssDp := fun i => if i.val = macid - 1 then some macid else s.nssDp i }
  else s

/-- What an override that gets to its end does to the port (`nss_dp_attach.c:87-121`). -/
def PortTable.override {soc : SocPorts} (s : PortTable soc) (macid id : Nat)
    (missing : List DpCallback) (dpc : DpcPtr) : PortTable soc :=
  match s.dev macid with
  | none => s
  | some d =>
    if ∃ cb ∈ requiredCallbacks, cb ∈ missing then s
    else s.setDev macid ⟨d.macid, dpc, .overlay id missing⟩

/-- What `nss_dp_restore_data_plane` does to the port (`nss_dp_attach.c:165-166`). -/
def PortTable.restore {soc : SocPorts} (s : PortTable soc) (macid : Nat) : PortTable soc :=
  match s.dev macid with
  | none => s
  | some d => s.setDev macid ⟨d.macid, .global (d.macid - soc.startIfnum), soc.halOps⟩

/-- `nss_dp_get_netdev_by_nss_if_num` (`nss_dp_attach.c:178-191`): the `macid` of the net device, or
    the index at which it reads past the array. -/
def nssDpGetNetdevByNssIfNum {soc : SocPorts} (s : PortTable soc) (ifNum : Int) :
    Except Int (Option Nat) :=
  if ifNum > soc.maxPorts ∨ ifNum < soc.startIfnum then .ok none
  else
    let i := ifNum - soc.startIfnum
    if h : 0 ≤ i ∧ i.toNat < soc.maxPorts then .ok (s.nssDp ⟨i.toNat, h.2⟩) else .error i

/-- What changes the numbers of ports. -/
inductive NumberCall where
  | probe (macid : Nat) (ok : Bool)
  | override (macid id : Nat) (missing : List DpCallback) (dpc : DpcPtr)
  | restore (macid : Nat)

/-- The device tree has one node for each `macid`. -/
def numberStep {soc : SocPorts} (s : PortTable soc) : NumberCall → Option (PortTable soc)
  | .probe macid ok => if s.dev macid = none then some (nssDpProbe s macid ok) else none
  | .override macid id missing dpc => some (s.override macid id missing dpc)
  | .restore macid => some (s.restore macid)

end NssDp
