import NssDp.Edma.Proofs.CleanTx

/-!
# What one call of `edma_ring_xmit` does

There are four exits: the ring is full, the store slot is still occupied, the mapping fails,
or the packet is published. The first two answer `EDMA_TX_DESC`, and only the first of them
leaves the buffer alone.
-/

namespace NssDp.Edma

open Word

/-- The producer index of a TXDESC ring. -/
def EdmaHw.txProd (ehw : EdmaHw) (ring : Nat) : Nat :=
  ehw.regIdx (.txdescProdIdx (ehw.txdescRing ring).id)

/-- The consumer index of a TXDESC ring. -/
def EdmaHw.txCons (ehw : EdmaHw) (ring : Nat) : Nat :=
  ehw.regIdx (.txdescConsIdx (ehw.txdescRing ring).id)

/-- The slot of the store that the next packet of a ring is to take. -/
def EdmaHw.txSlot (ehw : EdmaHw) (ring : Nat) : Nat :=
  ehw.txProd ring &&& (ehw.txdescRing ring).count - 1

/-- The ring has no descriptor to give (`edma_tx_rx.c:556-561`). -/
def TxdescFull (ehw : EdmaHw) (ring : Nat) : Prop :=
  u16 (ehw.txProd ring + 1 &&& (ehw.txdescRing ring).count - 1) = ehw.txCons ring

/-- The slot still holds a packet whose completion has not been reaped
    (`edma_tx_rx.c:582-586`). -/
def StoreBusy (ehw : EdmaHw) (ring : Nat) : Prop :=
  (ehw.txSkbStore (ehw.txSlot ring)).isSome = true

instance (ehw : EdmaHw) (ring : Nat) : Decidable (TxdescFull ehw ring) :=
  inferInstanceAs (Decidable (_ = _))

instance (ehw : EdmaHw) (ring : Nat) : Decidable (StoreBusy ehw ring) :=
  inferInstanceAs (Decidable (_ = _))

/-- The accesses every call makes before its first exit. -/
def EdmaHw.xmitRead (ehw : EdmaHw) (ring : Nat) : EdmaHw :=
  ehw.touch [.ringArray, .regRead (.txdescProdIdx (ehw.txdescRing ring).id),
    .regRead (.txdescConsIdx (ehw.txdescRing ring).id)]

/-- The buffer with a preheader that has no opaque word yet. -/
def preheadered (netdev : NetDevice) (skb : SkBuff) : SkBuff :=
  { skb with
    data := skb.data - edmaTxPrehdrSize
    headroom := skb.headroom - edmaTxPrehdrSize
    payload := (edmaTxPreheader netdev).bytes ++ skb.payload }

/-- The preheader of a packet in a slot of the store. -/
def slotPreheader (netdev : NetDevice) (slot : Nat) : EdmaTxPreheader :=
  { edmaTxPreheader netdev with opaqueWord := BitVec.ofNat 32 slot }

/-- The buffer as it is stored and mapped. -/
def framed (netdev : NetDevice) (slot : Nat) (skb : SkBuff) : SkBuff :=
  { skb with
    data := skb.data - edmaTxPrehdrSize
    headroom := skb.headroom - edmaTxPrehdrSize
    payload := (slotPreheader netdev slot).bytes ++ skb.payload }

@[simp] theorem framed_id (netdev : NetDevice) (slot : Nat) (skb : SkBuff) :
    (framed netdev slot skb).id = skb.id := by simp only [framed]

theorem push_preheader {skb : SkBuff} (hhead : edmaTxPrehdrSize ≤ skb.headroom)
    (netdev : NetDevice) :
    skb.push (edmaTxPreheader netdev).bytes = some (preheadered netdev skb) := by
  simp only [SkBuff.push, EdmaTxPreheader.length_bytes, Nat.not_lt.mpr hhead, if_false, preheadered]

/-- Copying the store index over the front completes the preheader. -/
theorem preheadered_overwrite (netdev : NetDevice) (slot : Nat) (skb : SkBuff) :
    (preheadered netdev skb).overwrite (le32 (BitVec.ofNat 32 slot)) = framed netdev slot skb := by
  simp only [SkBuff.overwrite, preheadered, framed, slotPreheader, EdmaTxPreheader.bytes,
    length_le32, List.append_assoc]
  rfl

/-- The opaque word of a stored packet is the slot it is in. -/
theorem readLe32_framed (netdev : NetDevice) (slot : Nat) (skb : SkBuff) :
    readLe32 (framed netdev slot skb).payload = BitVec.ofNat 32 slot := by
  simp only [framed, slotPreheader, EdmaTxPreheader.bytes, List.append_assoc]
  exact readLe32_le32 _ _

/-- The timestamping of a packet that passes the capacity test. -/
def tstampEvents (skb : SkBuff) : List KernelEvent :=
  if skb.hwTstamp then [.phyTxTstamp skb] else []

@[simp] theorem freedSkbs_tstampEvents (skb : SkBuff) : freedSkbs (tstampEvents skb) = [] := by
  unfold tstampEvents
  split <;> rfl

section Exits

variable {ehw : EdmaHw} {netdev : NetDevice} {skb : SkBuff} {ring : Nat} {dma : BitVec 32}

theorem edmaRingXmit_full (hfull : TxdescFull ehw ring) :
    edmaRingXmit ehw netdev skb ring dma = .ok ⟨.desc, ehw.xmitRead ring, skb, []⟩ := by
  unfold TxdescFull EdmaHw.txProd EdmaHw.txCons at hfull
  simp only [edmaRingXmit, EdmaHw.touch_regIdx, hfull, if_true, EdmaHw.xmitRead]

/-- Without room for the preheader there is no return past the capacity test. -/
theorem edmaRingXmit_panic (hhead : skb.headroom < edmaTxPrehdrSize)
    (hfull : ¬ TxdescFull ehw ring) :
    edmaRingXmit ehw netdev skb ring dma = .error .skbUnderPanic := by
  unfold TxdescFull EdmaHw.txProd EdmaHw.txCons at hfull
  simp only [edmaRingXmit, EdmaHw.touch_regIdx, hfull, if_false, SkBuff.push,
    EdmaTxPreheader.length_bytes, hhead, if_true]

theorem edmaRingXmit_storeBusy (hhead : edmaTxPrehdrSize ≤ skb.headroom)
    (hfull : ¬ TxdescFull ehw ring) (hbusy : StoreBusy ehw ring) :
    edmaRingXmit ehw netdev skb ring dma =
      .ok ⟨.desc, ehw.xmitRead ring, preheadered netdev skb, tstampEvents skb⟩ := by
  unfold TxdescFull EdmaHw.txProd EdmaHw.txCons at hfull
  unfold StoreBusy EdmaHw.txSlot EdmaHw.txProd at hbusy
  simp only [edmaRingXmit, EdmaHw.touch_regIdx, hfull, if_false, push_preheader hhead,
    EdmaHw.touch_txSkbStore, hbusy, if_true, EdmaHw.xmitRead, tstampEvents]

theorem edmaRingXmit_free (hhead : edmaTxPrehdrSize ≤ skb.headroom)
    (hfull : ¬ TxdescFull ehw ring) (hbusy : ¬ StoreBusy ehw ring) :
    edmaRingXmit ehw netdev skb ring dma =
      .ok (edmaRingPublish (ehw.xmitRead ring) (preheadered netdev skb) ring (ehw.txSlot ring)
        (ehw.txProd ring) (u16 skb.headlen) dma (tstampEvents skb)) := by
  unfold TxdescFull EdmaHw.txProd EdmaHw.txCons at hfull
  unfold StoreBusy EdmaHw.txSlot EdmaHw.txProd at hbusy
  simp only [edmaRingXmit, EdmaHw.touch_regIdx, hfull, if_false, push_preheader hhead,
    EdmaHw.touch_txSkbStore, hbusy, Bool.false_eq_true, EdmaHw.xmitRead, tstampEvents,
    EdmaHw.txSlot, EdmaHw.txProd]

/-- The instance after a mapping that failed: the descriptor is cleared, the slot is free. -/
def EdmaHw.xmitUnmapped (ehw : EdmaHw) (ring : Nat) (skb : SkBuff) : EdmaHw :=
  (((ehw.xmitRead ring).setTxStore (ehw.txSlot ring) (some skb)).setTxdesc ring (ehw.txProd ring)
    ⟨0#32, 0#32⟩).setTxStore (ehw.txSlot ring) none

/-- The instance after a packet is published. -/
def EdmaHw.xmitPublished (ehw : EdmaHw) (ring : Nat) (skb : SkBuff) (bufLen : Nat)
    (dma : BitVec 32) : EdmaHw :=
  (((ehw.xmitRead ring).setTxStore (ehw.txSlot ring) (some skb)).setTxdesc ring (ehw.txProd ring)
    ⟨dma, txdescWord1 bufLen⟩).regWrite (.txdescProdIdx (ehw.txdescRing ring).id)
      (BitVec.ofNat 32 (u16 (ehw.txProd ring + 1 &&& (ehw.txdescRing ring).count - 1)) &&&
        edmaIdxMask)

theorem edmaRingXmit_unmapped (hhead : edmaTxPrehdrSize ≤ skb.headroom)
    (hfull : ¬ TxdescFull ehw ring) (hbusy : ¬ StoreBusy ehw ring) :
    edmaRingXmit ehw netdev skb ring 0#32 =
      .ok ⟨.ok, ehw.xmitUnmapped ring (framed netdev (ehw.txSlot ring) skb),
        framed netdev (ehw.txSlot ring) skb,
        tstampEvents skb ++ [.devKfreeSkb (framed netdev (ehw.txSlot ring) skb)]⟩ := by
  rw [edmaRingXmit_free hhead hfull hbusy]
  simp only [edmaRingPublish, if_true, preheadered_overwrite, EdmaHw.xmitUnmapped]

theorem edmaRingXmit_published (hhead : edmaTxPrehdrSize ≤ skb.headroom)
    (hfull : ¬ TxdescFull ehw ring) (hbusy : ¬ StoreBusy ehw ring) (hdma : dma ≠ 0#32) :
    edmaRingXmit ehw netdev skb ring dma =
      .ok ⟨.ok, ehw.xmitPublished ring (framed netdev (ehw.txSlot ring) skb) (u16 skb.headlen) dma,
        framed netdev (ehw.txSlot ring) skb,
        tstampEvents skb ++
          [.dmaMapSingle .pdev dma (u16 skb.headlen + edmaTxPrehdrSize) .toDevice]⟩ := by
  rw [edmaRingXmit_free hhead hfull hbusy]
  simp only [edmaRingPublish, hdma, if_false, preheadered_overwrite, EdmaHw.xmitPublished,
    EdmaHw.setTxdesc_id, EdmaHw.setTxdesc_count, EdmaHw.setTxStore_txdescRing, EdmaHw.xmitRead,
    EdmaHw.touch_txdescRing]

end Exits

section Frame

variable {ehw ehw' : EdmaHw} {t q : Nat}

/-- Two states of the instance in which the rings `t` and `q` stand alike. -/
structure SameRings (t q : Nat) (ehw ehw' : EdmaHw) : Prop where
  count : (ehw'.txdescRing t).count = (ehw.txdescRing t).count
  cmplRing : ehw'.txcmplRing q = ehw.txcmplRing q
  txCons : ehw'.txCons t = ehw.txCons t
  cmplProd : ehw'.cmplProd q = ehw.cmplProd q
  cmplCons : ehw'.cmplCons q = ehw.cmplCons q

theorem xmitRead_same (ehw : EdmaHw) (t q : Nat) : SameRings t q ehw (ehw.xmitRead t) :=
  ⟨rfl, rfl, rfl, rfl, rfl⟩

theorem xmitUnmapped_same (ehw : EdmaHw) (t q : Nat) (skb : SkBuff) :
    SameRings t q ehw (ehw.xmitUnmapped t skb) := by
  refine ⟨?_, rfl, ?_, rfl, rfl⟩
  · simp [EdmaHw.xmitUnmapped, EdmaHw.xmitRead]
  · simp [EdmaHw.xmitUnmapped, EdmaHw.xmitRead, EdmaHw.txCons]

theorem xmitUnmapped_txProd (ehw : EdmaHw) (t : Nat) (skb : SkBuff) :
    (ehw.xmitUnmapped t skb).txProd t = ehw.txProd t := by
  simp [EdmaHw.xmitUnmapped, EdmaHw.xmitRead, EdmaHw.txProd]

/-- The slot of a packet that could not be mapped is free again. -/
theorem xmitUnmapped_txSkbStore (hfree : ¬ StoreBusy ehw t) (skb : SkBuff) :
    (ehw.xmitUnmapped t skb).txSkbStore = ehw.txSkbStore := by
  have hnone : ehw.txSkbStore (ehw.txSlot t) = none := by simpa [StoreBusy] using hfree
  simp only [EdmaHw.xmitUnmapped, EdmaHw.setTxStore_txSkbStore, EdmaHw.setTxdesc_txSkbStore,
    EdmaHw.xmitRead, EdmaHw.touch_txSkbStore, Function.update_idem]
  rw [← hnone, Function.update_eq_self]

theorem xmitPublished_same (ehw : EdmaHw) (t q : Nat) (skb : SkBuff) (bufLen : Nat)
    (dma : BitVec 32) : SameRings t q ehw (ehw.xmitPublished t skb bufLen dma) := by
  refine ⟨?_, rfl, ?_, ?_, ?_⟩
  · simp [EdmaHw.xmitPublished, EdmaHw.xmitRead]
  · simp [EdmaHw.xmitPublished, EdmaHw.xmitRead, EdmaHw.txCons, EdmaHw.regWrite_regIdx_of_ne]
  · simp [EdmaHw.xmitPublished, EdmaHw.xmitRead, EdmaHw.cmplProd, EdmaHw.regWrite_regIdx_of_ne]
  · simp [EdmaHw.xmitPublished, EdmaHw.xmitRead, EdmaHw.cmplCons, EdmaHw.regWrite_regIdx_of_ne]

theorem xmitPublished_txSkbStore (ehw : EdmaHw) (t : Nat) (skb : SkBuff) (bufLen : Nat)
    (dma : BitVec 32) : (ehw.xmitPublished t skb bufLen dma).txSkbStore =
      Function.update ehw.txSkbStore (ehw.txSlot t) (some skb) := rfl

theorem xmitPublished_desc (ehw : EdmaHw) (t : Nat) (skb : SkBuff) (bufLen : Nat)
    (dma : BitVec 32) : ((ehw.xmitPublished t skb bufLen dma).txdescRing t).desc (ehw.txProd t) =
      ⟨dma, txdescWord1 bufLen⟩ := by
  simp [EdmaHw.xmitPublished, EdmaHw.setTxdesc]

theorem and_edmaIdxMask_eq {n : Nat} (hn : n < 2 ^ 16) :
    BitVec.ofNat 32 n &&& edmaIdxMask = BitVec.ofNat 32 n := by
  apply BitVec.eq_of_toNat_eq
  simp only [edmaIdxMask, BitVec.toNat_and, BitVec.toNat_ofNat]
  rw [Nat.mod_eq_of_lt (by omega), show 65535 % 2 ^ 32 = 2 ^ 16 - 1 by decide,
    Nat.and_two_pow_sub_one_eq_mod, Nat.mod_eq_of_lt hn]

theorem xmitPublished_txProd (ehw : EdmaHw) (t : Nat) (skb : SkBuff) (bufLen : Nat)
    (dma : BitVec 32) : (ehw.xmitPublished t skb bufLen dma).txProd t =
      u16 (ehw.txProd t + 1 &&& (ehw.txdescRing t).count - 1) := by
  simp only [EdmaHw.xmitPublished, and_edmaIdxMask_eq (u16_lt _)]
  rw [EdmaHw.txProd, EdmaHw.regWrite_txdescRing, EdmaHw.setTxdesc_id,
    EdmaHw.setTxStore_txdescRing, EdmaHw.xmitRead, EdmaHw.touch_txdescRing]
  exact EdmaHw.regWrite_regIdx_self _ _ (u16_lt _)

/-- Where the size is a power of two, the mask of the driver steps round the ring. -/
theorem txdesc_next {k p : Nat} (hk : k ≤ 15) :
    u16 (p + 1 &&& 2 ^ k - 1) = (p + 1) % 2 ^ k := by
  rw [Cyclic.and_mask]
  have hlt := Nat.mod_lt (p + 1) (Nat.two_pow_pos k)
  exact u16_of_lt (hlt.trans (lt_of_pow ⟨k, hk, rfl⟩))

end Frame

section Word1

/-- The two constant fields and the length do not overlap. -/
theorem txdescWord1_eq (bufLen : Nat) :
    txdescWord1 bufLen = 0x20200000#32 ||| (BitVec.ofNat 32 bufLen &&&
      edmaTxdescDataLengthMask) := by
  rw [txdescWord1, edmaTxdescDataLengthShift, BitVec.shiftLeft_zero]
  rfl

/-- Above its 16 bits the length word has the constant fields only. -/
theorem txdescWord1_high (bufLen : Nat) {shift : Nat} (hshift : 16 ≤ shift) :
    txdescWord1 bufLen >>> shift = 0x20200000#32 >>> shift := by
  have hnone : edmaTxdescDataLengthMask >>> shift = 0#32 := by
    apply BitVec.eq_of_toNat_eq
    rw [BitVec.toNat_ushiftRight, Nat.shiftRight_eq_div_pow]
    apply Nat.div_eq_of_lt
    exact Nat.lt_of_lt_of_le (by decide) (Nat.pow_le_pow_right (by decide) hshift)
  rw [txdescWord1_eq, BitVec.ushiftRight_or_distrib, BitVec.ushiftRight_and_distrib, hnone,
    BitVec.and_zero, BitVec.or_zero]

theorem txdescWord1_length (bufLen : Nat) :
    (txdescWord1 bufLen &&& edmaTxdescDataLengthMask).toNat = bufLen % 2 ^ 16 := by
  rw [txdescWord1_eq, BitVec.or_comm, masked_or_of_disjoint (by decide), BitVec.and_assoc,
    BitVec.and_self, BitVec.toNat_and, BitVec.toNat_ofNat]
  have hmask : edmaTxdescDataLengthMask.toNat = 2 ^ 16 - 1 := by decide
  rw [hmask, Nat.and_two_pow_sub_one_eq_mod]
  omega

end Word1

end NssDp.Edma
