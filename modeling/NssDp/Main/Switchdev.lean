import Mathlib.Logic.Function.Basic
import NssDp.Main.SlowProto

/-!
# Switchdev

What a bridge tells the driver through switchdev (`nss_dp_switchdev.c:177-337`): up to Linux 4.5
through the operations of the device, then through a notifier that hears of all devices. A change
of an attribute comes in two phases, and the driver acts in the second. A probe sets switchdev up,
and resets the bitmap of the slow protocol filter where it succeeds.
-/

namespace NssDp

/-- The states of a port in the switch. -/
inductive FalStpState where
  | disabled
  | listening
  | blocking
  | learning
  | forwarding
  deriving DecidableEq, Repr

/-- The `switch` over the states of a bridge port in `nss_dp_stp_state_set`. -/
def falStpState : BrState → Option FalStpState
  | .disabled => some .disabled
  | .listening => some .listening
  | .blocking => some .blocking
  | .learning => some .learning
  | .forwarding => some .forwarding
  | .unknown => none

/-- `struct switchdev_attr`; the driver sets two attributes and knows of one more. -/
inductive SwitchdevAttr where
  | portBridgeFlags (brportFlags : Nat)
  | portStpState (stpState : BrState)
  | portParentId
  | other
  deriving DecidableEq, Repr

/-- `struct switchdev_notifier_port_attr_info`; `prepare` is `switchdev_trans_ph_prepare(trans)`. -/
structure PortAttrInfo where
  attr : SwitchdevAttr
  prepare : Bool
  handled : Bool
  deriving DecidableEq, Repr

inductive SwitchdevEvent where
  | portAttrSet (info : PortAttrInfo)
  | other
  deriving DecidableEq, Repr

/-- `switch_init_done` and the notifiers that are registered; the filter for slow protocols, the
    states of the ports in the switch, as far as the driver has set them, and `brport_flags` of
    the net devices. -/
structure Switchdev where
  switchInitDone : Bool
  notifiers : Nat
  slow : SlowProto
  stpState : Nat → Option FalStpState
  brportFlags : Nat → Nat

/-- Before the first probe. -/
def Switchdev.init : Switchdev := ⟨false, 0, .init, fun _ => none, fun _ => 0⟩

/-- `-EINVAL` and `-EOPNOTSUPP`. -/
def StpRet.errno : StpRet → Int
  | .ok => 0
  | .einval => -22
  | .eopnotsupp => -95

def notifyDone : Nat := 0
def notifyOk : Nat := 1
def notifyStopMask : Nat := 0x8000

/-- `notifier_from_errno`. -/
def notifierFromErrno (err : Int) : Nat :=
  if err = 0 then notifyOk else notifyStopMask ||| (notifyOk - err).toNat

/-- `nss_dp_stp_state_set` (`nss_dp_switchdev.c:120-175`), for the filter and the switch. -/
def Switchdev.nssDpStpStateSet (s : Switchdev) (macid : Nat) (state : BrState) (env : StpEnv) :
    StpRet × Switchdev :=
  let r := NssDp.nssDpStpStateSet s.slow macid state env
  (r.1, { s with
    slow := r.2
    stpState :=
      if r.1 = .ok then Function.update s.stpState macid (falStpState state) else s.stpState })

/-- `nss_dp_port_attr_set` (`nss_dp_switchdev.c:251-271`). -/
def nssDpPortAttrSet (s : Switchdev) (dev macid : Nat) (attr : SwitchdevAttr) (prepare : Bool)
    (env : StpEnv) : StpRet × Switchdev :=
  if prepare then (.ok, s)
  else
    match attr with
    | .portBridgeFlags flags =>
      (.ok, { s with brportFlags := Function.update s.brportFlags dev flags })
    | .portStpState state => s.nssDpStpStateSet macid state env
    | .portParentId | .other => (.eopnotsupp, s)

/-- `nss_dp_switchdev_port_attr_set_event` (`nss_dp_switchdev.c:277-287`). -/
def nssDpSwitchdevPortAttrSetEvent (s : Switchdev) (dev macid : Nat) (info : PortAttrInfo)
    (env : StpEnv) : Nat × PortAttrInfo × Switchdev :=
  let r := nssDpPortAttrSet s dev macid info.attr info.prepare env
  (notifierFromErrno r.1.errno, { info with handled := true }, r.2)

/-- `nss_dp_switchdev_event` (`nss_dp_switchdev.c:293-309`). `ports` has the `macid` of the net
    devices that `nss_dp_is_phy_dev` (`nss_dp_main.c:541-544`) accepts. -/
def nssDpSwitchdevEvent (ports : Nat → Option Nat) (s : Switchdev) (dev : Nat)
    (event : SwitchdevEvent) (env : StpEnv) : Nat × SwitchdevEvent × Switchdev :=
  match ports dev with
  | none => (notifyDone, event, s)
  | some macid =>
    match event with
    | .portAttrSet info =>
      let r := nssDpSwitchdevPortAttrSetEvent s dev macid info env
      (notifyDone, .portAttrSet r.2.1, r.2.2)
    | .other => (notifyDone, event, s)

/-- `nss_dp_switchdev_setup` (`nss_dp_switchdev.c:321-336`); `ok` says whether the notifier can be
    registered. -/
def nssDpSwitchdevSetup (s : Switchdev) (ok : Bool) : Switchdev :=
  if s.switchInitDone then s
  else { s with
    switchInitDone := true
    notifiers := if ok then s.notifiers + 1 else s.notifiers }

/-- What `nss_dp_attr_get` writes into the attribute. -/
inductive AttrValue where
  | ppid (id : List Nat)
  | brportFlags (flags : Nat)
  deriving DecidableEq, Repr

/-- `NSS_DP_SWITCH_ID`. -/
def nssDpSwitchId : Nat := 0

/-- `nss_dp_attr_get` (`nss_dp_switchdev.c:182-200`). -/
def nssDpAttrGet (s : Switchdev) (dev : Nat) : SwitchdevAttr → Except StpRet AttrValue
  | .portParentId => .ok (.ppid [nssDpSwitchId])
  | .portBridgeFlags _ => .ok (.brportFlags (s.brportFlags dev))
  | .portStpState _ | .other => .error .eopnotsupp

/-- `nss_dp_attr_set` (`nss_dp_switchdev.c:206-225`). -/
def nssDpAttrSet (s : Switchdev) (dev macid : Nat) (attr : SwitchdevAttr) (prepare : Bool)
    (env : StpEnv) : StpRet × Switchdev :=
  if prepare then (.ok, s)
  else
    match attr with
    | .portBridgeFlags flags =>
      (.ok, { s with brportFlags := Function.update s.brportFlags dev flags })
    | .portStpState state => s.nssDpStpStateSet macid state env
    | .portParentId | .other => (.eopnotsupp, s)

/-- A probe sets up switchdev (`nss_dp_main.c:623`), and it comes to its end with success
    (`nss_dp_main.c:717-718`); an event comes where a notifier is registered, and an operation is
    called on a device of the driver. -/
inductive SwitchdevCall where
  | setup (ok : Bool)
  | probed
  | event (dev : Nat) (event : SwitchdevEvent) (env : StpEnv)
  | attrSet (dev : Nat) (attr : SwitchdevAttr) (prepare : Bool) (env : StpEnv)

def switchdevStep (ports : Nat → Option Nat) (s : Switchdev) : SwitchdevCall → Option Switchdev
  | .setup ok => some (nssDpSwitchdevSetup s ok)
  | .probed => some { s with slow := probeEnd s.slow }
  | .event dev event env =>
    if s.notifiers = 0 then none else some (nssDpSwitchdevEvent ports s dev event env).2.2
  | .attrSet dev attr prepare env =>
    (ports dev).map fun macid => (nssDpAttrSet s dev macid attr prepare env).2

end NssDp
