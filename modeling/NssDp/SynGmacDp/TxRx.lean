import Mathlib.Logic.Function.Basic
import NssDp.Misc.Cyclic
import NssDp.SynGmacDp.DpInfo

/-!
# The transmit path of a Synopsys port

The transmit functions of `hal/syn_gmac_dp/syn_dp_tx_rx.c`. A function that can reach a
`BUG_ON` returns the assertion that fails; the calls on buffers and mappings it makes are
listed in order beside its result.
-/

namespace NssDp.SynGmacDp

open Word

/-- `(idx + 1) & (count - 1)`, the step of a ring index. -/
def nextIdx (count idx : Nat) : Nat := u32 (idx + 1) &&& u32Sub count 1

/-- The words `syn_dp_set_tx_qptr` writes into its descriptor (`syn_dp_tx_rx.c:266-298`). -/
def setTxDesc (txdesc : DmaDesc) (buffer1 length1 : BitVec 32) (offloadNeeded : Bool)
    (txCntl setDma : BitVec 32) : DmaDesc :=
  let length :=
    if synDpMaxDescBuff < length1 then
      txdesc.length ||| ((synDpMaxDescBuff <<< descSize1Shift) &&& descSize1Mask)
        ||| (((length1 - synDpMaxDescBuff) <<< descSize2Shift) &&& descSize2Mask)
    else txdesc.length ||| ((length1 <<< descSize1Shift) &&& descSize1Mask)
  let data1 := if synDpMaxDescBuff < length1 then buffer1 + synDpMaxDescBuff else 0#32
  let txdesc := { txdesc with length, status := txdesc.status ||| txCntl, buffer1, data1 }
  let txdesc := if offloadNeeded then txdesc.txChecksumOffloadTcpPseudo else txdesc
  { txdesc with status := txdesc.status ||| setDma }

/-- `syn_dp_set_tx_qptr` (`syn_dp_tx_rx.c:252-298`). -/
def synDpSetTxQptr (devInfo : SynDpTxInfo) (buffer1 length1 : BitVec 32) (skb : SkBuff)
    (offloadNeeded : Bool) (txCntl setDma : BitVec 32) : Except SynBug SynDpTxInfo :=
  let txnext := devInfo.txNext
  let txdesc := devInfo.txNextDesc
  if devInfo.txDescCount < devInfo.busyTxDesc then .error .setTxQptrBusy
  else if txdesc ≠ txnext then .error .setTxQptrDesc
  else if !(devInfo.txDesc txdesc).isDescEmpty then .error .setTxQptrNotEmpty
  else if (devInfo.txDesc txdesc).isDescOwnedByDma then .error .setTxQptrOwned
  else .ok { devInfo with
    txDesc := Function.update devInfo.txDesc txdesc
      (setTxDesc (devInfo.txDesc txdesc) buffer1 length1 offloadNeeded txCntl setDma)
    txSkbList := Function.update devInfo.txSkbList txnext (some skb)
    txNext := nextIdx devInfo.txDescCount txnext
    txNextDesc := nextIdx devInfo.txDescCount txnext }

/-- `syn_dp_tx_desc_queue` (`syn_dp_tx_rx.c:304-316`), one `data_lock` section. -/
def synDpTxDescQueue (devInfo : SynDpTxInfo) (skb : SkBuff) (dmaAddr : BitVec 32) :
    Except SynBug SynDpTxInfo :=
  match synDpSetTxQptr devInfo dmaAddr (BitVec.ofNat 32 skb.len) skb skb.csumPartial
      (descTxLast ||| descTxFirst ||| descTxIntEnable) descOwnByDma with
  | .error bug => .error bug
  | .ok devInfo => .ok { devInfo with busyTxDesc := u32 (devInfo.busyTxDesc + 1) }

/-- `syn_dp_reset_tx_qptr` (`syn_dp_tx_rx.c:225-246`). -/
def synDpResetTxQptr (devInfo : SynDpTxInfo) : Except SynBug SynDpTxInfo :=
  let txover := devInfo.txBusy
  let txdesc := devInfo.txBusyDesc
  if txdesc ≠ txover then .error .resetTxQptrDesc
  else .ok { devInfo with
    txBusy := nextIdx devInfo.txDescCount txover
    txBusyDesc := nextIdx devInfo.txDescCount txover
    txSkbList := Function.update devInfo.txSkbList txover none
    txDesc := Function.update devInfo.txDesc txdesc (devInfo.txDesc txdesc).resetTx
    busyTxDesc := u32Sub devInfo.busyTxDesc 1 }

/-- `(status & bit) ? 1 : 0`. -/
def statusBit (status bit : BitVec 32) : BitVec 64 := if status &&& bit ≠ 0#32 then 1 else 0

/-- The counters after a frame of `len` bytes is reported with `status`
    (`syn_dp_tx_rx.c:361-381`). -/
def TxStats.txComplete (stats : TxStats) (status : BitVec 32) (len : Nat) : TxStats :=
  if status &&& descTxError ≠ 0#32 then
    { stats with
      txErrors := stats.txErrors + 1
      txJabberTimeoutErrors := stats.txJabberTimeoutErrors + statusBit status descTxTimeout
      txFrameFlushedErrors := stats.txFrameFlushedErrors + statusBit status descTxFrameFlushed
      txLossOfCarrierErrors := stats.txLossOfCarrierErrors + statusBit status descTxLostCarrier
      txNoCarrierErrors := stats.txNoCarrierErrors + statusBit status descTxNoCarrier
      txLateCollisionErrors :=
        stats.txLateCollisionErrors + statusBit status descTxLateCollision
      txExcessiveCollisionErrors :=
        stats.txExcessiveCollisionErrors + statusBit status descTxExcCollisions
      txExcessiveDeferralErrors :=
        stats.txExcessiveDeferralErrors + statusBit status descTxExcDeferral
      txUnderflowErrors := stats.txUnderflowErrors + statusBit status descTxUnderflow
      txIpHeaderErrors := stats.txIpHeaderErrors + statusBit status descTxIpv4ChkError
      txIpPayloadErrors := stats.txIpPayloadErrors + statusBit status descTxPayChkError }
  else
    { stats with
      txPackets := stats.txPackets + 1
      txCollisions := stats.txCollisions + (getTxCollisionCount status).setWidth 64
      txBytes := stats.txBytes + BitVec.ofNat 64 len }

/-- `(desc->length & desc_size1_mask) >> desc_size1_shift`. -/
def DmaDesc.size1 (desc : DmaDesc) : Nat :=
  ((desc.length &&& descSize1Mask) >>> descSize1Shift).toNat

/-- One turn of the completion loop on a descriptor the engine has given back
    (`syn_dp_tx_rx.c:347-386`). -/
def txCompleteOne (devInfo : SynDpTxInfo) : Except SynBug (SynDpTxInfo × List KernelEvent) :=
  let desc := devInfo.txDesc devInfo.txBusyDesc
  let len := desc.size1
  let unmap := KernelEvent.dmaUnmapSingle .pdev desc.buffer1 len .toDevice
  if desc.status &&& descTxLast ≠ 0#32 then
    match devInfo.txSkbList devInfo.txBusy with
    | none => .error .txCompleteNoSkb
    | some skb =>
      match synDpResetTxQptr { devInfo with
          stats := devInfo.stats.txComplete desc.status len } with
      | .error bug => .error bug
      | .ok devInfo => .ok (devInfo, [unmap, .devKfreeSkb skb])
  else
    match synDpResetTxQptr devInfo with
    | .error bug => .error bug
    | .ok devInfo => .ok (devInfo, [unmap])

/-- At most `busy` turns of the completion loop; a descriptor still owned by the engine ends
    it. -/
def txCompleteLoop : Nat → SynDpTxInfo → Except SynBug (SynDpTxInfo × List KernelEvent)
  | 0, devInfo => .ok (devInfo, [])
  | busy + 1, devInfo =>
    if (devInfo.txDesc devInfo.txBusyDesc).isDescOwnedByDma then .ok (devInfo, [])
    else
      match txCompleteOne devInfo with
      | .error bug => .error bug
      | .ok (devInfo, events) =>
        match txCompleteLoop busy devInfo with
        | .error bug => .error bug
        | .ok (devInfo, rest) => .ok (devInfo, events ++ rest)

/-- `syn_dp_process_tx_complete` (`syn_dp_tx_rx.c:322-390`), one `data_lock` section. The
    loop counts down an `int`, so a count above `INT_MAX` is good for one turn. -/
def synDpProcessTxComplete (devInfo : SynDpTxInfo) :
    Except SynBug (SynDpTxInfo × List KernelEvent) :=
  let busy := devInfo.busyTxDesc
  if busy = 0 then .ok (devInfo, [])
  else txCompleteLoop (if busy < 2 ^ 31 then busy else 1) devInfo

/-- The capacity test of `syn_dp_tx` (`syn_dp_tx_rx.c:406`) lets the frame pass. -/
def txDescAvailable (devInfo : SynDpTxInfo) : Bool :=
  !decide (u32Sub synDpTxDescSize devInfo.busyTxDesc < 1)

/-- What a transmit routine returns, leaves in the port and does with buffers. -/
structure TxResult (ρ : Type) where
  ret : ρ
  info : SynDpTxInfo
  events : List KernelEvent

/-- `syn_dp_tx` (`syn_dp_tx_rx.c:396-425`); `dma` is the address `dma_map_single` returns,
    `none` where `dma_mapping_error` reports a failure. -/
def synDpTx (devInfo : SynDpTxInfo) (skb : SkBuff) (dma : Option (BitVec 32)) :
    Except SynBug (TxResult Int) :=
  if !txDescAvailable devInfo then .ok ⟨-1, devInfo, []⟩
  else
    match dma with
    | none => .ok ⟨-1, devInfo, []⟩
    | some dmaAddr =>
      match synDpTxDescQueue devInfo skb dmaAddr with
      | .error bug => .error bug
      | .ok info => .ok ⟨0, info, [.dmaMapSingle .pdev dmaAddr skb.len .toDevice]⟩

/-- The `drop` exit of `syn_dp_if_xmit`. -/
def ifXmitDrop (devInfo : SynDpTxInfo) (skb : SkBuff) (events : List KernelEvent) :
    TxResult NetdevTx where
  ret := .busy
  info := { devInfo with
    stats := { devInfo.stats with txDropped := devInfo.stats.txDropped + 1 } }
  events := events ++ [.devKfreeSkb skb]

/-- `syn_dp_if_xmit` (`hal/syn_gmac_dp/syn_data_plane.c:237-260`). -/
def synDpIfXmit (devInfo : SynDpTxInfo) (skb : SkBuff) (dma : Option (BitVec 32)) :
    Except SynBug (TxResult NetdevTx) :=
  if skb.nrFrags = 0 then
    match synDpTx devInfo skb dma with
    | .error bug => .error bug
    | .ok r =>
      if r.ret ≠ 0 then .ok (ifXmitDrop r.info skb r.events) else .ok ⟨.ok, r.info, r.events⟩
  else .ok (ifXmitDrop devInfo skb [])

/-- The slots of the busy descriptors, in ring order from `tx_busy`. -/
def SynDpTxInfo.busyWindow (devInfo : SynDpTxInfo) : List Nat :=
  Cyclic.window devInfo.txDescCount devInfo.txBusy devInfo.busyTxDesc

/-- The DMA engine gives back the first busy descriptor it owns, with the report `wb`; no
    step of it is enabled when it owns none. -/
def dmaRelease (devInfo : SynDpTxInfo) (wb : BitVec 32) : Option SynDpTxInfo :=
  (devInfo.busyWindow.find? fun i => (devInfo.txDesc i).isDescOwnedByDma).map fun i =>
    { devInfo with txDesc :=
        Function.update devInfo.txDesc i ((devInfo.txDesc i).writeBack wb) }

/-- A write-back of the engine changes the status word of one busy descriptor. -/
theorem dmaRelease_eq {info info' : SynDpTxInfo} {wb : BitVec 32}
    (hrel : dmaRelease info wb = some info') : ∃ i ∈ info.busyWindow,
      info' = { info with
        txDesc := Function.update info.txDesc i ((info.txDesc i).writeBack wb) } := by
  rw [dmaRelease, Option.map_eq_some_iff] at hrel
  obtain ⟨i, hfind, rfl⟩ := hrel
  exact ⟨i, List.mem_of_find?_eq_some hfind, rfl⟩

end NssDp.SynGmacDp
