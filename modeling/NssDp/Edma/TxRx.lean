import NssDp.Edma.Hw

/-!
# Transmission through EDMA

`edma_ring_xmit` and `edma_clean_tx` (`hal/edma/edma_tx_rx.c`), and `edma_if_xmit` above them
(`hal/edma/edma_data_plane.c`). A DMA address is an argument of the call that maps it, 0
where the mapping fails; `virtToPhys` is the kernel's `virt_to_phys`.
-/

namespace NssDp.Edma

open Word

/-- `struct edma_tx_preheader`. -/
structure EdmaTxPreheader where
  opaqueWord : BitVec 32
  srcInfo : BitVec 16
  dstInfo : BitVec 16
  txPre2 : BitVec 32
  txPre3 : BitVec 32
  txPre4 : BitVec 32
  txPre5 : BitVec 32
  txPre6 : BitVec 32
  txPre7 : BitVec 32
  deriving DecidableEq, Repr

namespace EdmaTxPreheader

/-- A preheader after `memset(txph, 0, EDMA_TX_PREHDR_SIZE)`. -/
def zero : EdmaTxPreheader := ⟨0#32, 0#16, 0#16, 0#32, 0#32, 0#32, 0#32, 0#32, 0#32⟩

/-- The preheader in memory. -/
def bytes (txph : EdmaTxPreheader) : List (BitVec 8) :=
  le32 txph.opaqueWord ++ (le16 txph.srcInfo ++ le16 txph.dstInfo ++ le32 txph.txPre2 ++
    le32 txph.txPre3 ++ le32 txph.txPre4 ++ le32 txph.txPre5 ++ le32 txph.txPre6 ++
    le32 txph.txPre7)

@[simp] theorem length_bytes (txph : EdmaTxPreheader) : txph.bytes.length = edmaTxPrehdrSize := by
  simp [bytes, edmaTxPrehdrSize]

end EdmaTxPreheader

/-- The preheader `edma_ring_xmit` builds for a port, before the store index is known
    (`edma_tx_rx.c:568-576`). -/
def edmaTxPreheader (netdev : NetDevice) : EdmaTxPreheader :=
  { EdmaTxPreheader.zero with
    dstInfo := (edmaPrehdrDstinfoPortidInd <<< 8) ||| (BitVec.ofNat 16 netdev.macid &&& 0x0fff#16) }

/-- `enum edma_tx`. -/
inductive EdmaTx where
  | ok
  | desc
  | fail
  deriving DecidableEq, Repr

/-- Where the kernel panics instead of returning. -/
inductive EdmaBug where
  | skbUnderPanic
  deriving DecidableEq, Repr

/-- What `edma_ring_xmit` returns, and the buffer as it leaves it. -/
structure RingXmit where
  ret : EdmaTx
  ehw : EdmaHw
  skb : SkBuff
  events : List KernelEvent

/-- The second word of a published descriptor (`edma_tx_rx.c:618-625`). -/
def txdescWord1 (bufLen : Nat) : BitVec 32 :=
  ((1#32 <<< edmaTxdescPreheaderShift)
    ||| ((BitVec.ofNat 32 edmaTxPrehdrSize &&& edmaTxdescDataOffsetMask)
      <<< edmaTxdescDataOffsetShift))
    ||| ((BitVec.ofNat 32 bufLen &&& edmaTxdescDataLengthMask) <<< edmaTxdescDataLengthShift)

/-- The last part of `edma_ring_xmit`, from the claim of a free store slot on
    (`edma_tx_rx.c:588-647`). `skb` has the preheader in front. -/
def edmaRingPublish (ehw : EdmaHw) (skb : SkBuff) (ring storeIndex hwNextToUse bufLen : Nat)
    (dma : BitVec 32) (events : List KernelEvent) : RingXmit :=
  let skb := skb.overwrite (le32 (BitVec.ofNat 32 storeIndex))
  let ehw := ehw.setTxStore storeIndex (some skb)
  if dma = 0#32 then
    let ehw := ehw.setTxdesc ring hwNextToUse ⟨0#32, 0#32⟩
    ⟨.ok, ehw.setTxStore storeIndex none, skb, events ++ [.devKfreeSkb skb]⟩
  else
    let ehw := ehw.setTxdesc ring hwNextToUse ⟨dma, txdescWord1 bufLen⟩
    let next := u16 (hwNextToUse + 1 &&& (ehw.txdescRing ring).count - 1)
    let ehw := ehw.regWrite (.txdescProdIdx (ehw.txdescRing ring).id)
      (BitVec.ofNat 32 next &&& edmaIdxMask)
    ⟨.ok, ehw, skb, events ++ [.dmaMapSingle .pdev dma (bufLen + edmaTxPrehdrSize) .toDevice]⟩

/-- `edma_ring_xmit` (`edma_tx_rx.c:520-648`) on the ring `&ehw->txdesc_ring[ring]`, one
    `tx_lock` section. -/
def edmaRingXmit (ehw : EdmaHw) (netdev : NetDevice) (skb : SkBuff) (ring : Nat)
    (dma : BitVec 32) : Except EdmaBug RingXmit :=
  let id := (ehw.txdescRing ring).id
  let count := (ehw.txdescRing ring).count
  let bufLen := u16 skb.headlen
  let ehw := ehw.touch [.ringArray, .regRead (.txdescProdIdx id), .regRead (.txdescConsIdx id)]
  let hwNextToUse := ehw.regIdx (.txdescProdIdx id)
  let hwNextToClean := ehw.regIdx (.txdescConsIdx id)
  let chkIdx := u16 (hwNextToUse + 1 &&& count - 1)
  if chkIdx = hwNextToClean then .ok ⟨.desc, ehw, skb, []⟩
  else
    let tstamp := if skb.hwTstamp then [.phyTxTstamp skb] else []
    match skb.push (edmaTxPreheader netdev).bytes with
    | none => .error .skbUnderPanic
    | some skb =>
      let storeIndex := hwNextToUse &&& count - 1
      if (ehw.txSkbStore storeIndex).isSome then .ok ⟨.desc, ehw, skb, tstamp⟩
      else .ok (edmaRingPublish ehw skb ring storeIndex hwNextToUse bufLen dma tstamp)

/-- The loop of `edma_clean_tx` when it ends: where it stands, the store, the completions it
    has consumed and those of them whose slot was empty. -/
structure CleanTxLoop where
  consIdx : Nat
  store : Nat → Option SkBuff
  consumed : Nat
  invalid : Nat
  events : List KernelEvent

/-- The loop of `edma_clean_tx` (`edma_tx_rx.c:166-201`), with `fuel` tests of its
    condition. -/
def cleanTxLoop (virtToPhys : Nat → BitVec 32) (ring : EdmaTxcmplRing) (prodIdx : Nat) :
    Nat → Nat → (Nat → Option SkBuff) → Option CleanTxLoop
  | 0, _, _ => none
  | fuel + 1, consIdx, store =>
    if consIdx = prodIdx then some ⟨consIdx, store, 0, 0, []⟩
    else
      let storeIndex := (ring.desc consIdx).bufferAddr.toNat
      let next := if u16 (consIdx + 1) = ring.count then 0 else u16 (consIdx + 1)
      let rest := cleanTxLoop virtToPhys ring prodIdx fuel next
        (Function.update store storeIndex none)
      match store storeIndex with
      | none => rest.map fun r => { r with consumed := r.consumed + 1, invalid := r.invalid + 1 }
      | some skb => rest.map fun r => { r with
          consumed := r.consumed + 1
          events := [.dmaUnmapSingle .pdev (virtToPhys skb.data) skb.headlen .toDevice,
            .devKfreeSkb skb] ++ r.events }

/-- What `edma_clean_tx` returns. -/
structure CleanTx where
  ret : Nat
  ehw : EdmaHw
  invalid : Nat
  events : List KernelEvent

/-- `edma_clean_tx` (`edma_tx_rx.c:139-214`) on the ring `&ehw->txcmpl_ring[ring]`. The
    consumer index is 16 bits wide, so a loop that has not ended after `2 ^ 16` tests never
    ends: `none`. -/
def edmaCleanTx (virtToPhys : Nat → BitVec 32) (ehw : EdmaHw) (ring : Nat) : Option CleanTx :=
  let id := (ehw.txcmplRing ring).id
  let ehw := ehw.touch [.ringArray, .regRead (.txcmplProdIdx id), .regRead (.txcmplConsIdx id)]
  let prodIdx := ehw.regIdx (.txcmplProdIdx id)
  let consIdx := ehw.regIdx (.txcmplConsIdx id)
  match cleanTxLoop virtToPhys (ehw.txcmplRing ring) prodIdx (2 ^ 16) consIdx ehw.txSkbStore with
  | none => none
  | some l =>
    let ehw := { ehw with txSkbStore := l.store }
    if l.consumed = 0 then some ⟨0, ehw, l.invalid, l.events⟩
    else some ⟨l.consumed, ehw.regWrite (.txcmplConsIdx id) (BitVec.ofNat 32 l.consIdx), l.invalid,
      l.events⟩

/-- What `edma_if_xmit` returns, with the buffer and the device as it leaves them. -/
structure IfXmit where
  ret : NetdevTx
  ehw : EdmaHw
  skb : SkBuff
  netdev : NetDevice
  events : List KernelEvent

/-- The `drop` exit of `edma_if_xmit`. -/
def edmaIfXmitDrop (ehw : EdmaHw) (netdev : NetDevice) (skb : SkBuff)
    (events : List KernelEvent) : IfXmit :=
  ⟨.ok, ehw, skb, { netdev with txDropped := netdev.txDropped + 1 }, events ++ [.devKfreeSkb skb]⟩

/-- The TXDESC ring `edma_if_xmit` selects (`edma_data_plane.c:151-154`). -/
def edmaTxRing (ehw : EdmaHw) (skb : SkBuff) : Nat :=
  if 1 < ehw.txdescRings ∧ 0 < skb.queueMapping then ehw.txdescRings % skb.queueMapping else 0

/-- The buffer must be expanded (`edma_data_plane.c:167-174`). -/
def mustExpand (netdev : NetDevice) (skb : SkBuff) : Bool :=
  skb.cloned || decide (skb.headroom < netdev.neededHeadroom) ||
    decide (skb.headroom < netdev.neededTailroom)

/-- The outcomes of the calls `edma_if_xmit` makes: the new place of the data where
    `pskb_expand_head` succeeds, and the DMA address. -/
structure XmitEnv where
  expand : Option Nat
  dma : BitVec 32

/-- The buffer that reaches `edma_ring_xmit`, where one does (`edma_data_plane.c:143-183`). -/
def edmaIfXmitPrepare (netdev : NetDevice) (skb : SkBuff) (env : XmitEnv) : Option SkBuff :=
  if skb.len < ethHlen then none
  else if skb.isNonlinear then none
  else if mustExpand netdev skb then
    env.expand.map fun data => skb.expandHead netdev.neededHeadroom data
  else some skb

/-- `edma_if_xmit` (`edma_data_plane.c:136-206`). -/
def edmaIfXmit (ehw : EdmaHw) (netdev : NetDevice) (skb : SkBuff) (env : XmitEnv) :
    Except EdmaBug IfXmit :=
  match edmaIfXmitPrepare netdev skb env with
  | none => .ok (edmaIfXmitDrop ehw netdev skb [])
  | some skb' =>
    match edmaRingXmit ehw netdev skb' (edmaTxRing ehw skb) env.dma with
    | .error bug => .error bug
    | .ok r =>
      match r.ret with
      | .ok => .ok ⟨.ok, r.ehw, r.skb, netdev, r.events⟩
      | .desc => .ok ⟨.busy, r.ehw, r.skb, netdev.stopQueue, r.events⟩
      | .fail => .ok (edmaIfXmitDrop r.ehw netdev r.skb r.events)

end NssDp.Edma
