import NssDp.Edma.TxRx

/-!
# `edma_ring_xmit` in steps

`tx_lock` belongs to one ring and the store to all of them, so between its test of a store
slot and its write to it, a call sees the writes of calls on other rings. The call is cut
there, and once more before the mapping; run without a break, the pieces are the call.
-/

namespace NssDp.Edma

open Word

/-- A call past its tests: the buffer with its preheader, the slot and the descriptor it is to
    take, and whether the buffer is in the store. -/
structure XmitCall where
  skb : SkBuff
  storeIndex : Nat
  hwNextToUse : Nat
  bufLen : Nat
  stored : Bool
  events : List KernelEvent

/-- The buffer once the store index is copied into its preheader. -/
def XmitCall.framed (call : XmitCall) : SkBuff :=
  call.skb.overwrite (le32 (BitVec.ofNat 32 call.storeIndex))

/-- How the tests of a call end. -/
inductive RingTest where
  | refused (r : RingXmit)
  | passed (ehw : EdmaHw) (call : XmitCall)

/-- `edma_ring_xmit` up to its test of the store slot (`edma_tx_rx.c:520-586`). -/
def edmaRingTest (ehw : EdmaHw) (netdev : NetDevice) (skb : SkBuff) (ring : Nat) :
    Except EdmaBug RingTest :=
  let id := (ehw.txdescRing ring).id
  let count := (ehw.txdescRing ring).count
  let bufLen := u16 skb.headlen
  let ehw := ehw.touch [.ringArray, .regRead (.txdescProdIdx id), .regRead (.txdescConsIdx id)]
  let hwNextToUse := ehw.regIdx (.txdescProdIdx id)
  let hwNextToClean := ehw.regIdx (.txdescConsIdx id)
  let chkIdx := u16 (hwNextToUse + 1 &&& count - 1)
  if chkIdx = hwNextToClean then .ok (.refused ⟨.desc, ehw, skb, []⟩)
  else
    let tstamp := if skb.hwTstamp then [.phyTxTstamp skb] else []
    match skb.push (edmaTxPreheader netdev).bytes with
    | none => .error .skbUnderPanic
    | some skb =>
      let storeIndex := hwNextToUse &&& count - 1
      if (ehw.txSkbStore storeIndex).isSome then .ok (.refused ⟨.desc, ehw, skb, tstamp⟩)
      else .ok (.passed ehw ⟨skb, storeIndex, hwNextToUse, bufLen, false, tstamp⟩)

/-- The write to the store slot (`edma_tx_rx.c:588-589`). -/
def edmaRingStore (ehw : EdmaHw) (call : XmitCall) : EdmaHw :=
  ehw.setTxStore call.storeIndex (some call.framed)

/-- The rest of the call (`edma_tx_rx.c:591-647`). -/
def edmaRingFinish (ehw : EdmaHw) (ring : Nat) (call : XmitCall) (dma : BitVec 32) : RingXmit :=
  if dma = 0#32 then
    let ehw := ehw.setTxdesc ring call.hwNextToUse ⟨0#32, 0#32⟩
    ⟨.ok, ehw.setTxStore call.storeIndex none, call.framed,
      call.events ++ [.devKfreeSkb call.framed]⟩
  else
    let ehw := ehw.setTxdesc ring call.hwNextToUse ⟨dma, txdescWord1 call.bufLen⟩
    let next := u16 (call.hwNextToUse + 1 &&& (ehw.txdescRing ring).count - 1)
    let ehw := ehw.regWrite (.txdescProdIdx (ehw.txdescRing ring).id)
      (BitVec.ofNat 32 next &&& edmaIdxMask)
    ⟨.ok, ehw, call.framed,
      call.events ++ [.dmaMapSingle .pdev dma (call.bufLen + edmaTxPrehdrSize) .toDevice]⟩

/-- The steps of a call that nothing comes between are the call. -/
theorem edmaRingXmit_eq_steps (ehw : EdmaHw) (netdev : NetDevice) (skb : SkBuff) (ring : Nat)
    (dma : BitVec 32) :
    edmaRingXmit ehw netdev skb ring dma =
      match edmaRingTest ehw netdev skb ring with
      | .error bug => .error bug
      | .ok (.refused r) => .ok r
      | .ok (.passed ehw call) => .ok (edmaRingFinish (edmaRingStore ehw call) ring call dma) := by
  unfold edmaRingXmit edmaRingTest
  dsimp only
  split
  · rfl
  · cases hpush : skb.push (edmaTxPreheader netdev).bytes with
    | none => rfl
    | some skb' =>
      dsimp only
      split
      · rfl
      · rfl

end NssDp.Edma
