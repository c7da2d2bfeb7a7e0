import Mathlib.Data.Finset.Basic
import NssDp.Main.NetdevOps

/-!
# Steering a flow

`nss_dp_rx_flow_steer` (`nss_dp_main.c`) with the tables of the kernel that it reads, on a data
plane that keeps a set of rules. A callback of the data plane takes effect just when it succeeds.
-/

namespace NssDp.FlowSteer

/-- `struct rps_dev_flow_table`, with the field `cpu` of its entries. -/
structure RpsDevFlowTable where
  mask : BitVec 32
  cpu : Nat → BitVec 16

/-- `struct rps_sock_flow_table`. -/
structure RpsSockFlowTable where
  mask : BitVec 32
  ents : Nat → BitVec 32

/-- What a call finds: the net device and its private data, the packet's queue and hash, the
    tables of the receive queues and the global one, and whether the data plane has the callback
    and its two calls succeed. -/
structure SteerEnv where
  netdev : Bool
  dpPriv : Bool
  rxQueueRecorded : Option (BitVec 16)
  hash : BitVec 32
  rpsFlowTable : Nat → Option RpsDevFlowTable
  rpsSockFlowTable : Option RpsSockFlowTable
  rpsCpuMask : BitVec 32
  rxFlowSteer : Bool
  del : Bool
  add : Bool

/-- The first part of `nss_dp_rx_flow_steer` (`nss_dp_main.c:318-349`): the two CPUs, or `none`
    where it returns `-EINVAL`. -/
def SteerEnv.rxFlow (env : SteerEnv) : Option RxFlow :=
  if env.netdev = false ∨ env.dpPriv = false then none
  else
    let index := match env.rxQueueRecorded with
      | some index => index.toNat
      | none => 0
    match env.rpsFlowTable index with
    | none => none
    | some flowTable =>
      let rxcpu := flowTable.cpu (env.hash &&& flowTable.mask).toNat
      match env.rpsSockFlowTable with
      | none => none
      | some sockFlowTable =>
        let rfscpu := sockFlowTable.ents (env.hash &&& sockFlowTable.mask).toNat &&& env.rpsCpuMask
        some ⟨rxcpu.toNat, rfscpu.toNat⟩

variable {Flow : Type*} [DecidableEq Flow]

/-- The CPUs to which a data plane steers each flow, one a rule. -/
abbrev Rules (Flow : Type*) : Type _ := Flow → Finset Nat

/-- The member `rx_flow_steer` of a data plane: whether it succeeds, and the rules after it. -/
def rxFlowSteer (rules : Rules Flow) (flow : Flow) (cpu : Nat) (isAdd ok : Bool) :
    Bool × Rules Flow :=
  if ok = false then (false, rules)
  else if isAdd then (true, Function.update rules flow (insert cpu (rules flow)))
  else (true, Function.update rules flow ((rules flow).erase cpu))

/-- `nss_dp_rx_flow_steer` (`nss_dp_main.c:305-380`). -/
def nssDpRxFlowSteer (rules : Rules Flow) (flow : Flow) (env : SteerEnv) : DevRet × Rules Flow :=
  match env.rxFlow with
  | none => (.einval, rules)
  | some cpus =>
    if cpus.rxcpu = cpus.rfscpu then (.ok, rules)
    else if env.rxFlowSteer = false then (.einval, rules)
    else
      let del := rxFlowSteer rules flow cpus.rxcpu false env.del
      if del.1 = false then (.eagain, del.2)
      else
        let add := rxFlowSteer del.2 flow cpus.rfscpu true env.add
        if add.1 = false then (.eagain, add.2) else (.ok, add.2)

/-- A request to steer a flow, and the CPU it goes to so far. -/
structure SteerCall (Flow : Type*) where
  flow : Flow
  old : Nat
  env : SteerEnv

/-- The data plane holds exactly the rule for the old CPU, which is the one that the tables
    give. -/
def HoldsOld (rules : Rules Flow) (c : SteerCall Flow) : Prop :=
  rules c.flow = {c.old} ∧ ∀ cpus, c.env.rxFlow = some cpus → cpus.rxcpu = c.old

instance (rules : Rules Flow) (c : SteerCall Flow) : Decidable (HoldsOld rules c) :=
  match h : c.env.rxFlow with
  | none => decidable_of_iff (rules c.flow = {c.old}) (by simp [HoldsOld, h])
  | some cpus =>
    decidable_of_iff (rules c.flow = {c.old} ∧ cpus.rxcpu = c.old) (by simp [HoldsOld, h])

def steerStep (rules : Rules Flow) (c : SteerCall Flow) : Option (Rules Flow) :=
  if HoldsOld rules c then some (nssDpRxFlowSteer rules c.flow c.env).2 else none

end NssDp.FlowSteer
