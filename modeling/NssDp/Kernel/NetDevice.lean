import Mathlib.Tactic.Common

/-!
# Network devices

What the data planes read and write of `struct net_device` and its private data, and the
state of a NAPI instance.
-/

namespace NssDp

/-- A `struct net_device` with the `macid` of its `struct nss_dp_dev`. `running` is the
    kernel's own record of whether the interface is open, `queueStopped` the state of its TX queue
    0, the one that `netif_stop_queue` and `netif_start_queue` are about. -/
structure NetDevice where
  macid : Nat
  neededHeadroom : Nat
  neededTailroom : Nat
  txDropped : Nat
  queueStopped : Bool
  carrierOk : Bool
  running : Bool
  deriving DecidableEq, Repr

/-- `netif_stop_queue`. -/
def NetDevice.stopQueue (netdev : NetDevice) : NetDevice := { netdev with queueStopped := true }

/-- A NAPI instance is disabled until `napi_enable`, and scheduled from
    `napi_schedule_prep` until the poll that completes it. -/
inductive NapiState where
  | disabled
  | idle
  | scheduled
  deriving DecidableEq, Repr

namespace NapiState

/-- `napi_enable`, which panics on an instance that is enabled. -/
def enable : NapiState → Option NapiState
  | .disabled => some .idle
  | .idle | .scheduled => none

/-- `napi_schedule_prep` followed by `__napi_schedule` where it succeeds. -/
def schedule : NapiState → NapiState
  | .idle => .scheduled
  | s => s

/-- `napi_complete`, called by a poll. -/
def complete : NapiState → NapiState
  | .scheduled => .idle
  | s => s

end NapiState

/-- `irqreturn_t`. -/
inductive IrqReturn where
  | none
  | handled
  deriving DecidableEq, Repr

end NssDp
