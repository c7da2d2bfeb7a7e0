import Mathlib.Logic.Function.Basic
import NssDp.Kernel.RxSkb
import NssDp.SynGmacDp.TxRx

/-!
# The receive path of a Synopsys port

The receive fields of `struct syn_dp_info`, the setup of the receive descriptors
(`hal/syn_gmac_dp/syn_dp_cfg.c`) and the receive functions of
`hal/syn_gmac_dp/syn_dp_tx_rx.c`. Where a function stops at an assertion, what it has done
up to there is kept beside the assertion.
-/

namespace NssDp.SynGmacDp

open Word

/-- Rx descriptors in the descriptor queue (`SYN_DP_RX_DESC_SIZE`). -/
def synDpRxDescSize : Nat := 128

/-- The length of every receive buffer (`SYN_DP_MINI_JUMBO_FRAME_MTU`). -/
def synDpMiniJumboFrameMtu : Nat := 1978

/-- `ETH_FCS_LEN`. -/
def ethFcsLen : Int := 4

/-- The counters of `struct nss_dp_hal_gmac_stats` that the receive path writes. -/
structure RxStats where
  rxPackets : BitVec 64
  rxBytes : BitVec 64
  rxErrors : BitVec 64
  mmcRxCrcErrors : BitVec 64
  rxLateCollisionErrors : BitVec 64
  mmcRxOverflowErrors : BitVec 64
  rxDribbleBitErrors : BitVec 64
  rxLengthErrors : BitVec 64
  deriving DecidableEq, Repr

/-- The counters of a zero-filled structure. -/
def RxStats.zero : RxStats := ⟨0, 0, 0, 0, 0, 0, 0, 0⟩

/-- The receive fields of `struct syn_dp_info`. -/
structure SynDpRxInfo where
  stats : RxStats
  rxSkbList : Nat → Option RxSkb
  rxDesc : Nat → DmaDesc
  busyRxDesc : Nat
  rxDescCount : Nat
  rxBusy : Nat
  rxNext : Nat
  rxBusyDesc : Nat
  rxNextDesc : Nat

/-- The zero-filled entry of `dp_info` that a port starts with. -/
def SynDpRxInfo.zero : SynDpRxInfo where
  stats := RxStats.zero
  rxSkbList _ := none
  rxDesc _ := DmaDesc.zero
  busyRxDesc := 0
  rxDescCount := 0
  rxBusy := 0
  rxNext := 0
  rxBusyDesc := 0
  rxNextDesc := 0

/-- What stops the receive path: one constructor for each `BUG_ON`, the overflow of a buffer
    in `skb_put`, and a slot without a buffer. -/
inductive SynRxBug where
  | descMode
  | descCount
  | setRxQptrBusy
  | setRxQptrDesc
  | setRxQptrNotEmpty
  | setRxQptrOwned
  | resetRxQptrDesc
  | skbOverPanic
  | nullSkb
  deriving DecidableEq, Repr

/-- `syn_dp_setup_rx_desc_queue` (`syn_dp_cfg.c:26-61`); `allocOk` is the outcome of
    `dma_alloc_coherent`. -/
def synDpSetupRxDescQueue (devInfo : SynDpRxInfo) (noOfDesc : Nat) (descMode : DescMode)
    (allocOk : Bool) : Except SynRxBug (Int × SynDpRxInfo) :=
  let devInfo := { devInfo with rxDescCount := 0 }
  if descMode ≠ .ringMode then .error .descMode
  else if noOfDesc &&& (noOfDesc - 1) ≠ 0 then .error .descCount
  else if !allocOk then .ok (eNoMem, devInfo)
  else .ok (0, { devInfo with
    rxDescCount := noOfDesc
    rxDesc := rxDescInitRing noOfDesc
    rxNext := 0
    rxBusy := 0
    rxNextDesc := 0
    rxBusyDesc := 0
    busyRxDesc := 0 })

/-- The words `syn_dp_set_rx_qptr` writes into its descriptor (`syn_dp_tx_rx.c:73-98`). -/
def setRxDesc (rxdesc : DmaDesc) (buffer1 length1 : BitVec 32) : DmaDesc :=
  let length :=
    if synDpMaxDescBuff < length1 then
      rxdesc.length ||| ((synDpMaxDescBuff <<< descSize1Shift) &&& descSize1Mask)
        ||| (((length1 - synDpMaxDescBuff) <<< descSize2Shift) &&& descSize2Mask)
    else rxdesc.length ||| ((length1 <<< descSize1Shift) &&& descSize1Mask)
  let data1 := if synDpMaxDescBuff < length1 then buffer1 + synDpMaxDescBuff else 0#32
  { rxdesc with
    length, buffer1, data1
    extstatus := 0#32
    timestamplow := 0#32
    timestamphigh := 0#32
    status := descOwnByDma }

/-- `syn_dp_set_rx_qptr` (`syn_dp_tx_rx.c:61-109`). -/
def synDpSetRxQptr (devInfo : SynDpRxInfo) (buffer1 length1 : BitVec 32) (skb : RxSkb) :
    Except SynRxBug SynDpRxInfo :=
  let rxnext := devInfo.rxNext
  let rxdesc := devInfo.rxNextDesc
  if devInfo.rxDescCount ≤ devInfo.busyRxDesc then .error .setRxQptrBusy
  else if rxdesc ≠ rxnext then .error .setRxQptrDesc
  else if !(devInfo.rxDesc rxdesc).isDescEmpty then .error .setRxQptrNotEmpty
  else if (devInfo.rxDesc rxdesc).isDescOwnedByDma then .error .setRxQptrOwned
  else .ok { devInfo with
    rxDesc := Function.update devInfo.rxDesc rxdesc
      (setRxDesc (devInfo.rxDesc rxdesc) buffer1 length1)
    rxSkbList := Function.update devInfo.rxSkbList rxnext (some skb)
    rxNext := nextIdx devInfo.rxDescCount rxnext
    rxNextDesc := nextIdx devInfo.rxDescCount rxnext
    busyRxDesc := u32 (devInfo.busyRxDesc + 1) }

/-- `syn_dp_reset_rx_qptr` (`syn_dp_tx_rx.c:31-55`). -/
def synDpResetRxQptr (devInfo : SynDpRxInfo) : Except SynRxBug SynDpRxInfo :=
  let rxnext := devInfo.rxBusy
  let rxdesc := devInfo.rxBusyDesc
  if rxdesc ≠ rxnext then .error .resetRxQptrDesc
  else .ok { devInfo with
    rxBusy := nextIdx devInfo.rxDescCount rxnext
    rxBusyDesc := nextIdx devInfo.rxDescCount rxnext
    rxSkbList := Function.update devInfo.rxSkbList rxnext none
    rxDesc := Function.update devInfo.rxDesc rxdesc (devInfo.rxDesc rxdesc).resetRx
    busyRxDesc := u32Sub devInfo.busyRxDesc 1 }

/-- The receive side of a port and the calls it has made on buffers. -/
structure RxPort where
  info : SynDpRxInfo
  events : List RxEvent

/-- The port has made more calls. -/
def RxPort.emit (s : RxPort) (es : List RxEvent) : RxPort :=
  { s with events := s.events ++ es }

/-- An assertion fails; `port` is what is left at that moment. -/
structure RxHalt where
  bug : SynRxBug
  port : RxPort

/-- How one iteration of the refill loop finds its buffer: `__netdev_alloc_skb` returns none,
    `dma_mapping_error` reports the mapping of `skb`, or `skb` is mapped at `dmaAddr`. -/
inductive RxAlloc where
  | noSkb
  | noMapping (skb : RxSkb)
  | mapped (skb : RxSkb) (dmaAddr : BitVec 32)
  deriving DecidableEq, Repr

/-- The buffer an iteration of the refill loop allocates. -/
def RxAlloc.skb : RxAlloc → Option RxSkb
  | .noSkb => none
  | .noMapping skb | .mapped skb _ => some skb

/-- At most `emptyCount` turns of the refill loop, on the outcomes `allocs`; there is no
    buffer beyond them. -/
def rxRefillLoop : Nat → List RxAlloc → RxPort → Except RxHalt RxPort
  | emptyCount + 1, .mapped skb dmaAddr :: allocs, s =>
    let s := s.emit [.allocSkb skb, .dmaMapSingle .pdev dmaAddr synDpMiniJumboFrameMtu .fromDevice]
    match synDpSetRxQptr s.info dmaAddr (BitVec.ofNat 32 synDpMiniJumboFrameMtu) skb with
    | .error bug => .error ⟨bug, s⟩
    | .ok info => rxRefillLoop emptyCount allocs { s with info }
  | _ + 1, .noMapping skb :: _, s => .ok (s.emit [.allocSkb skb, .devKfreeSkb skb])
  | _, _, s => .ok s

/-- `syn_dp_rx_refill` (`syn_dp_tx_rx.c:115-143`). -/
def synDpRxRefill (s : RxPort) (allocs : List RxAlloc) : Except RxHalt RxPort :=
  let emptyCount := i32 (u32Sub synDpRxDescSize s.info.busyRxDesc)
  rxRefillLoop emptyCount.toNat allocs s

/-- The counters after a good frame of `frameLength` bytes. -/
def RxStats.rxGood (stats : RxStats) (frameLength : Int) : RxStats :=
  { stats with
    rxPackets := stats.rxPackets + 1
    rxBytes := stats.rxBytes + BitVec.ofInt 64 frameLength }

/-- The counters after a frame reported bad with `status` (`syn_dp_tx_rx.c:199-211`). -/
def RxStats.rxBad (stats : RxStats) (status : BitVec 32) : RxStats :=
  let stats := { stats with rxErrors := stats.rxErrors + 1 }
  if status &&& (descRxCrc ||| descRxCollision ||| descRxOverflow ||| descRxDribbling |||
      descRxLengthError) ≠ 0#32 then
    { stats with
      mmcRxCrcErrors := stats.mmcRxCrcErrors + statusBit status descRxCrc
      rxLateCollisionErrors := stats.rxLateCollisionErrors + statusBit status descRxCollision
      mmcRxOverflowErrors := stats.mmcRxOverflowErrors + statusBit status descRxOverflow
      rxDribbleBitErrors := stats.rxDribbleBitErrors + statusBit status descRxDribbling
      rxLengthErrors := stats.rxLengthErrors + statusBit status descRxLengthError }
  else stats

/-- The part of a turn under `stats_lock` (`syn_dp_tx_rx.c:182-212`): the buffer of a good
    frame goes to the stack, that of any other frame is freed. -/
def rxHandOver (s : RxPort) (rxSkb : Option RxSkb) (status : BitVec 32) :
    Except RxHalt RxPort :=
  if isRxDescValid status then
    let frameLength := (getRxDescFrameLength status).toNat - ethFcsLen
    let s := { s with info := { s.info with stats := s.info.stats.rxGood frameLength } }
    match rxSkb with
    | none => .error ⟨.nullSkb, s⟩
    | some skb =>
      if skb.putOverflows frameLength then .error ⟨.skbOverPanic, s⟩
      else .ok (s.emit [.napiGroReceive skb frameLength])
  else
    let s := { s with info := { s.info with stats := s.info.stats.rxBad status } }
    .ok (s.emit (rxSkb.toList.map .devKfreeSkb))

/-- One turn of the receive loop on a descriptor the engine has given back
    (`syn_dp_tx_rx.c:173-215`). -/
def rxOne (s : RxPort) : Except RxHalt RxPort :=
  let desc := s.info.rxDesc s.info.rxBusyDesc
  let rxSkb := s.info.rxSkbList s.info.rxBusy
  let s := s.emit [.dmaUnmapSingle .netdev desc.buffer1 synDpMiniJumboFrameMtu .fromDevice]
  match rxHandOver s rxSkb desc.status with
  | .error halt => .error halt
  | .ok s =>
    match synDpResetRxQptr s.info with
    | .error bug => .error ⟨bug, s⟩
    | .ok info => .ok { s with info }

/-- At most `turns` turns of the receive loop, with the number made; a descriptor still owned
    by the engine ends it. -/
def rxLoop : Nat → RxPort → Except RxHalt (Nat × RxPort)
  | 0, s => .ok (0, s)
  | turns + 1, s =>
    if (s.info.rxDesc s.info.rxBusyDesc).isDescOwnedByDma then .ok (0, s)
    else
      match rxOne s with
      | .error halt => .error halt
      | .ok s =>
        match rxLoop turns s with
        | .error halt => .error halt
        | .ok (made, s) => .ok (made + 1, s)

/-- `syn_dp_rx` (`syn_dp_tx_rx.c:149-219`), which returns `budget - busy`. The loop tests its
    count after a turn, so it is good for one turn whatever the budget. -/
def synDpRx (s : RxPort) (budget : Int) : Except RxHalt (Int × RxPort) :=
  if s.info.busyRxDesc = 0 then .ok (0, s)
  else
    let busy := min (i32 s.info.busyRxDesc) budget
    match rxLoop (max 1 busy).toNat s with
    | .error halt => .error halt
    | .ok (made, s) => .ok (budget - (busy - made), s)

/-- The slots of the busy descriptors, in ring order from `rx_busy`. -/
def SynDpRxInfo.busyWindow (devInfo : SynDpRxInfo) : List Nat :=
  Cyclic.window devInfo.rxDescCount devInfo.rxBusy devInfo.busyRxDesc

/-- The DMA engine gives back the first busy descriptor it owns, with the report `wb`; no
    step of it is enabled when it owns none. -/
def dmaReceive (devInfo : SynDpRxInfo) (wb : RxReport) : Option SynDpRxInfo :=
  (devInfo.busyWindow.find? fun i => (devInfo.rxDesc i).isDescOwnedByDma).map fun i =>
    { devInfo with rxDesc :=
        Function.update devInfo.rxDesc i ((devInfo.rxDesc i).writeBackRx wb) }

/-- A report of the engine changes one busy descriptor. -/
theorem dmaReceive_eq {info info' : SynDpRxInfo} {wb : RxReport}
    (hrel : dmaReceive info wb = some info') : ∃ i ∈ info.busyWindow,
      info' = { info with
        rxDesc := Function.update info.rxDesc i ((info.rxDesc i).writeBackRx wb) } := by
  rw [dmaReceive, Option.map_eq_some_iff] at hrel
  obtain ⟨i, hfind, rfl⟩ := hrel
  exact ⟨i, List.mem_of_find?_eq_some hfind, rfl⟩

/-- What a setup that succeeds leaves in the ring: no descriptor is busy, and every one is
    cleared but for the end-of-ring bit of the last. -/
theorem synDpSetupRxDescQueue_ok {devInfo info : SynDpRxInfo} {noOfDesc : Nat} {mode : DescMode}
    {allocOk : Bool} (h : synDpSetupRxDescQueue devInfo noOfDesc mode allocOk = .ok (0, info)) :
    info = { devInfo with
      rxDescCount := noOfDesc
      rxDesc := rxDescInitRing noOfDesc
      rxNext := 0
      rxBusy := 0
      rxNextDesc := 0
      rxBusyDesc := 0
      busyRxDesc := 0 } := by
  unfold synDpSetupRxDescQueue at h
  split at h
  · cases h
  · split at h
    · cases h
    · split at h
      · simp [eNoMem] at h
      · simpa using h.symm

end NssDp.SynGmacDp
