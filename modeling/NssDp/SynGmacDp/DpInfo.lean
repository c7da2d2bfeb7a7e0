import NssDp.Kernel.SkBuff
import NssDp.SynGmacDp.DmaDesc

/-!
# The transmit ring of a Synopsys port

The transmit fields of `struct syn_dp_info` (`hal/syn_gmac_dp/syn_data_plane.h`) and the setup
of the transmit descriptors (`hal/syn_gmac_dp/syn_dp_cfg.c`). A pointer into the descriptor
array is its distance from `tx_desc`, so `tx_desc + i` is `i`.
-/

namespace NssDp.SynGmacDp

/-- Tx descriptors in the descriptor queue (`SYN_DP_TX_DESC_SIZE`). -/
def synDpTxDescSize : Nat := 128

/-- The largest buffer one length field of a descriptor takes (`SYN_DP_MAX_DESC_BUFF`). -/
def synDpMaxDescBuff : BitVec 32 := 0x1FFF#32

/-- The transmit counters of `struct nss_dp_hal_gmac_stats`. -/
structure TxStats where
  txBytes : BitVec 64
  txPackets : BitVec 64
  txCollisions : BitVec 64
  txErrors : BitVec 64
  txJabberTimeoutErrors : BitVec 64
  txFrameFlushedErrors : BitVec 64
  txLossOfCarrierErrors : BitVec 64
  txNoCarrierErrors : BitVec 64
  txLateCollisionErrors : BitVec 64
  txExcessiveCollisionErrors : BitVec 64
  txExcessiveDeferralErrors : BitVec 64
  txUnderflowErrors : BitVec 64
  txIpHeaderErrors : BitVec 64
  txIpPayloadErrors : BitVec 64
  txDropped : BitVec 64
  deriving DecidableEq, Repr

/-- The counters of a zero-filled structure. -/
def TxStats.zero : TxStats := ⟨0, 0, 0, 0, 0, 0, 0, 0, 0, 0, 0, 0, 0, 0, 0⟩

/-- The transmit fields of `struct syn_dp_info`. -/
structure SynDpTxInfo where
  stats : TxStats
  txSkbList : Nat → Option SkBuff
  txDesc : Nat → DmaDesc
  busyTxDesc : Nat
  txDescCount : Nat
  txBusy : Nat
  txNext : Nat
  txBusyDesc : Nat
  txNextDesc : Nat

/-- The zero-filled entry of `dp_info` that a port starts with. -/
def SynDpTxInfo.zero : SynDpTxInfo where
  stats := TxStats.zero
  txSkbList _ := none
  txDesc _ := DmaDesc.zero
  busyTxDesc := 0
  txDescCount := 0
  txBusy := 0
  txNext := 0
  txBusyDesc := 0
  txNextDesc := 0

/-- The assertions of the transmit path, one for each `BUG_ON`. -/
inductive SynBug where
  | descMode
  | descCount
  | resetTxQptrDesc
  | setTxQptrBusy
  | setTxQptrDesc
  | setTxQptrNotEmpty
  | setTxQptrOwned
  | txCompleteNoSkb
  deriving DecidableEq, Repr

/-- The mode argument of the queue setup (`RINGMODE`, `CHAINMODE`). -/
inductive DescMode where
  | ringMode
  | chainMode
  deriving DecidableEq, Repr

/-- `-ENOMEM`. -/
def eNoMem : Int := -12

/-- `syn_dp_setup_tx_desc_queue` (`syn_dp_cfg.c:67-101`); `allocOk` is the outcome of
    `dma_alloc_coherent`. -/
def synDpSetupTxDescQueue (devInfo : SynDpTxInfo) (noOfDesc : Nat) (descMode : DescMode)
    (allocOk : Bool) : Except SynBug (Int × SynDpTxInfo) :=
  let devInfo := { devInfo with txDescCount := 0 }
  if descMode ≠ .ringMode then .error .descMode
  else if noOfDesc &&& (noOfDesc - 1) ≠ 0 then .error .descCount
  else if !allocOk then .ok (eNoMem, devInfo)
  else .ok (0, { devInfo with
    txDescCount := noOfDesc
    txDesc := txDescInitRing noOfDesc
    txNext := 0
    txBusy := 0
    txNextDesc := 0
    txBusyDesc := 0
    busyTxDesc := 0 })

/-- What a setup that succeeds leaves in the ring: no descriptor is busy, and every one is
    cleared but for the end-of-ring bit of the last. -/
theorem synDpSetupTxDescQueue_ok {devInfo info : SynDpTxInfo} {noOfDesc : Nat} {mode : DescMode}
    {allocOk : Bool} (h : synDpSetupTxDescQueue devInfo noOfDesc mode allocOk = .ok (0, info)) :
    info = { devInfo with
      txDescCount := noOfDesc
      txDesc := txDescInitRing noOfDesc
      txNext := 0
      txBusy := 0
      txNextDesc := 0
      txBusyDesc := 0
      busyTxDesc := 0 } := by
  unfold synDpSetupTxDescQueue at h
  split at h
  · cases h
  · split at h
    · cases h
    · split at h
      · simp [eNoMem] at h
      · simpa using h.symm

end NssDp.SynGmacDp
