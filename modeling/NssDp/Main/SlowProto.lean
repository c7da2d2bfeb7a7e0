import Mathlib.Data.Finset.Basic
import NssDp.ApiIf

/-!
# The filter for slow protocols

A port that the bridge disables still receives the frames of slow protocols, through a profile
of control packets in the switch for each such port and one ethertype profile for all of them
(`nss_dp_switchdev.c`). The driver keeps the ports in a bitmap, which every probe resets
(`nss_dp_main.c`).
-/

namespace NssDp

/-- `ETH_P_NONE` and `ETH_P_SLOW`. -/
def ethPNone : BitVec 16 := 0#16

def ethPSlow : BitVec 16 := 0x8809#16

/-- `slowproto_acl_bm`, and in the switch the port maps of the installed profiles and the ethertype
    profile for slow protocols. -/
structure SlowProto where
  slowprotoAclBm : BitVec 8
  profiles : Finset (BitVec 32)
  ethtypeProfile : BitVec 16

/-- After the first probe. -/
def SlowProto.init : SlowProto := ⟨0#8, ∅, ethPNone⟩

/-- `1 << macid`, as a port map and as it is stored in the bitmap. -/
def portMap (macid : Nat) : BitVec 32 := 1#32 <<< macid

def portBit (macid : Nat) : BitVec 8 := 1#8 <<< macid

/-- Which FAL calls succeed during `nss_dp_set_slow_proto_filter`. -/
structure FilterEnv where
  profileAdd : Bool
  profileDel : Bool
  ethtypeProfileSet : Bool

/-- `nss_dp_set_slow_proto_filter` (`nss_dp_switchdev.c:36-114`). -/
def nssDpSetSlowProtoFilter (s : SlowProto) (macid : Nat) (filterEnable : Bool) (env : FilterEnv) :
    SlowProto :=
  if filterEnable then
    if env.profileAdd = false then s
    else
      let s := { s with profiles := insert (portMap macid) s.profiles }
      if s.slowprotoAclBm = 0#8 then
        if env.ethtypeProfileSet then
          { s with
            ethtypeProfile := ethPSlow
            slowprotoAclBm := s.slowprotoAclBm ||| portBit macid }
        else if env.profileDel then { s with profiles := s.profiles.erase (portMap macid) }
        else s
      else { s with slowprotoAclBm := s.slowprotoAclBm ||| portBit macid }
  else
    if env.profileDel = false then s
    else
      let s := { s with
        profiles := s.profiles.erase (portMap macid)
        slowprotoAclBm := s.slowprotoAclBm &&& ~~~portBit macid }
      if s.slowprotoAclBm = 0#8 then
        if env.ethtypeProfileSet then { s with ethtypeProfile := ethPNone } else s
      else s

/-- The states of a bridge port; `unknown` stands for the other values of the `u8`. -/
inductive BrState where
  | disabled
  | listening
  | learning
  | forwarding
  | blocking
  | unknown
  deriving DecidableEq, Repr

/-- What `nss_dp_stp_state_set` returns. -/
inductive StpRet where
  | ok
  | einval
  | eopnotsupp
  deriving DecidableEq, Repr

/-- Which FAL calls succeed during `nss_dp_stp_state_set`: those of the filter, the one that sets
    the state, and those that restore the filter where it fails. -/
structure StpEnv where
  filter : FilterEnv
  stpPortStateSet : Bool
  restore : FilterEnv

/-- `nss_dp_stp_state_set` (`nss_dp_switchdev.c:120-175`), for the filter. -/
def nssDpStpStateSet (s : SlowProto) (macid : Nat) (state : BrState) (env : StpEnv) :
    StpRet × SlowProto :=
  let filtered : Option SlowProto := match state with
    | .disabled => some (nssDpSetSlowProtoFilter s macid true env.filter)
    | .forwarding => some (nssDpSetSlowProtoFilter s macid false env.filter)
    | .listening | .blocking | .learning => some s
    | .unknown => none
  match filtered with
  | none => (.eopnotsupp, s)
  | some s =>
    if env.stpPortStateSet then (.ok, s)
    else match state with
      | .disabled => (.einval, nssDpSetSlowProtoFilter s macid false env.restore)
      | .forwarding => (.einval, nssDpSetSlowProtoFilter s macid true env.restore)
      | _ => (.einval, s)

/-- The end of a probe that succeeds (`nss_dp_main.c:717-718`). -/
def probeEnd (s : SlowProto) : SlowProto := { s with slowprotoAclBm := 0#8 }

/-- What the bridge asks for, and the probes of further ports. -/
inductive BridgeCall where
  | stpStateSet (macid : Nat) (state : BrState) (env : StpEnv)
  | probe

def bridgeStep (soc : Soc) (s : SlowProto) : BridgeCall → Option SlowProto
  | .stpStateSet macid state env =>
    if 1 ≤ macid ∧ macid ≤ soc.maxPorts then some (nssDpStpStateSet s macid state env).2 else none
  | .probe => some (probeEnd s)

end NssDp
