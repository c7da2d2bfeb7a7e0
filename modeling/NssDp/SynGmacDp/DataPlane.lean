import NssDp.SynGmacDp.Rx

/-!
# The Synopsys data plane

The poll and the statistics of a port (`hal/syn_gmac_dp/syn_data_plane.c`), on the array
`dp_info` with one entry for each port. The locks are free between two calls, so an entry has
none here.
-/

namespace NssDp.SynGmacDp

/-- An entry of `dp_info`; `rxMissed` is the receive counter that the poll itself keeps. -/
structure SynDpInfo where
  tx : SynDpTxInfo
  rx : SynDpRxInfo
  rxMissed : BitVec 64

/-- The zero-filled entry that a port starts with. -/
def SynDpInfo.zero : SynDpInfo := ⟨SynDpTxInfo.zero, SynDpRxInfo.zero, 0⟩

/-- `syn_get_rx_missed` (`syn_if.c:405-410`), on the value of the counter register. -/
def synGetRxMissed (reg : BitVec 32) : BitVec 32 := reg &&& 0xFFFF#32

/-- `syn_get_fifo_overflows` (`syn_if.c:416-421`). -/
def synGetFifoOverflows (reg : BitVec 32) : BitVec 32 := (reg >>> 17) &&& 0x7ff#32

/-- What a poll is given: its budget, the counter register of the port's MAC at each of the
    two reads, and the outcomes of the allocations. -/
structure NapiEnv where
  budget : Int
  missedReg : BitVec 32
  overflowReg : BitVec 32
  allocs : List RxAlloc

/-- The frames that a poll finds missed. -/
def NapiEnv.missed (env : NapiEnv) : BitVec 64 :=
  (synGetRxMissed env.missedReg).setWidth 64 + (synGetFifoOverflows env.overflowReg).setWidth 64

/-- The assertion that stops a poll. -/
inductive SynPollBug where
  | tx (bug : SynBug)
  | rx (bug : SynRxBug)
  deriving DecidableEq, Repr

/-- What a poll returns and leaves; where it is `completed`, it has called `napi_complete` and
    enabled the DMA interrupts. -/
structure NapiPoll where
  workDone : Int
  dpInfo : Nat → SynDpInfo
  txEvents : List KernelEvent
  rxEvents : List RxEvent
  completed : Bool

/-- The statistics part of the poll (`syn_data_plane.c:41-44`), on `dp_info->stats`: the entry
    of the first port. -/
def synUpdateMissed (dpInfo : Nat → SynDpInfo) (env : NapiEnv) : Nat → SynDpInfo :=
  Function.update dpInfo 0 { dpInfo 0 with rxMissed := (dpInfo 0).rxMissed + env.missed }

/-- `syn_dp_napi_poll` (`syn_data_plane.c:32-56`). -/
def synDpNapiPoll (dpInfo : Nat → SynDpInfo) (macid : Nat) (env : NapiEnv) :
    Except SynPollBug NapiPoll :=
  let dpInfo := synUpdateMissed dpInfo env
  let devInfo := dpInfo (macid - 1)
  match synDpProcessTxComplete devInfo.tx with
  | .error bug => .error (.tx bug)
  | .ok (tx, txEvents) =>
    match synDpRx ⟨devInfo.rx, []⟩ env.budget with
    | .error halt => .error (.rx halt.bug)
    | .ok (workDone, port) =>
      match synDpRxRefill port env.allocs with
      | .error halt => .error (.rx halt.bug)
      | .ok port => .ok {
          workDone
          dpInfo := Function.update dpInfo (macid - 1) { devInfo with tx, rx := port.info }
          txEvents
          rxEvents := port.events
          completed := decide (workDone < env.budget) }

/-- `syn_dp_if_get_stats` (`syn_data_plane.c:273-285`): a copy of the counters. -/
def synDpIfGetStats (dpInfo : Nat → SynDpInfo) (macid : Nat) : TxStats × RxStats × BitVec 64 :=
  let devInfo := dpInfo (macid - 1)
  (devInfo.tx.stats, devInfo.rx.stats, devInfo.rxMissed)

end NssDp.SynGmacDp
