import NssDp.Edma.Rx
import NssDp.Edma.Proofs.TxOwnership

/-!
# The length of a packet on its way through EDMA

The length that `edma_ring_xmit` maps and writes into the descriptor is the linear length of
the packet in a 16-bit variable; the length that `edma_clean_tx` unmaps is read from the packet
again, with the preheader in front. The two agree for the packets whose length fits.
-/

namespace NssDp.Edma

open Word

namespace EdmaTxdescDesc

/-- The packet starts with a preheader. -/
def preheader (desc : EdmaTxdescDesc) : Bool := (desc.word1 >>> edmaTxdescPreheaderShift).getLsbD 0

def dataOffset (desc : EdmaTxdescDesc) : Nat :=
  ((desc.word1 >>> edmaTxdescDataOffsetShift) &&& edmaTxdescDataOffsetMask).toNat

def dataLength (desc : EdmaTxdescDesc) : Nat :=
  ((desc.word1 >>> edmaTxdescDataLengthShift) &&& edmaTxdescDataLengthMask).toNat

end EdmaTxdescDesc

/-- The type in the destination information, by the mask of `EDMA_RXPH_SRC_INFO_TYPE_GET`. -/
def EdmaTxPreheader.dstInfoType (txph : EdmaTxPreheader) : BitVec 16 :=
  (txph.dstInfo >>> 8) &&& 0xf0#16

/-- The port number in the destination information. -/
def EdmaTxPreheader.dstPortNum (txph : EdmaTxPreheader) : Nat :=
  (txph.dstInfo &&& edmaPrehdrPortnumBits).toNat

/-- Any later call of `edma_clean_tx` that frees the packet has unmapped it with `len` bytes. -/
def UnmappedAs (virtToPhys : Nat → BitVec 32) (skb : SkBuff) (len : Nat) : Prop :=
  ∀ ehw q r, edmaCleanTx virtToPhys ehw q = some r →
    freedSkbs r.events = (releasesOf r.events).map DmaMapping.skb ∧
      ∀ m ∈ releasesOf r.events, m.skb = skb → m.len = len

/-- A call `r` on the instance `ehw` has encoded the packet `skb` in the next descriptor of the
    ring, in the preheader and in the mapping, and it will be unmapped as it was mapped. -/
structure Encoded (virtToPhys : Nat → BitVec 32) (ehw : EdmaHw) (netdev : NetDevice)
    (skb : SkBuff) (ring : Nat) (dma : BitVec 32) (r : RingXmit) : Prop where
  bufferAddr : ((r.ehw.txdescRing ring).desc (ehw.txProd ring)).bufferAddr = dma
  preheader : ((r.ehw.txdescRing ring).desc (ehw.txProd ring)).preheader = true
  dataOffset : ((r.ehw.txdescRing ring).desc (ehw.txProd ring)).dataOffset = edmaTxPrehdrSize
  dataLength : ((r.ehw.txdescRing ring).desc (ehw.txProd ring)).dataLength = skb.headlen
  stored : r.ehw.txSkbStore (ehw.txSlot ring) = some r.skb
  front : ∃ txph, r.skb.payload = EdmaTxPreheader.bytes txph ++ skb.payload ∧
    txph.opaqueWord.toNat = ehw.txSlot ring ∧ txph.dstInfoType = edmaPrehdrDstinfoPortidInd ∧
    txph.dstPortNum = netdev.macid
  mapped : mapsOf r.events = [(dma, skb.headlen + edmaTxPrehdrSize)]
  unmapped : UnmappedAs virtToPhys r.skb (skb.headlen + edmaTxPrehdrSize)

/-- What the descriptor of a published packet says. -/
theorem txdescWord1_fields (dma : BitVec 32) (bufLen : Nat) :
    (EdmaTxdescDesc.mk dma (txdescWord1 bufLen)).preheader = true ∧
      (EdmaTxdescDesc.mk dma (txdescWord1 bufLen)).dataOffset = edmaTxPrehdrSize ∧
      (EdmaTxdescDesc.mk dma (txdescWord1 bufLen)).dataLength = bufLen % 2 ^ 16 := by
  refine ⟨?_, ?_, ?_⟩
  · rw [EdmaTxdescDesc.preheader, txdescWord1_high bufLen (by decide)]
    decide
  · rw [EdmaTxdescDesc.dataOffset, edmaTxdescDataOffsetShift,
      txdescWord1_high bufLen (Nat.le_refl _)]
    decide
  · rw [EdmaTxdescDesc.dataLength, edmaTxdescDataLengthShift, BitVec.ushiftRight_zero]
    exact txdescWord1_length bufLen

/-- The destination of a packet is its port, for the 12 bits that a port number may have. -/
theorem slotPreheader_dst (netdev : NetDevice) (slot : Nat) (hmacid : netdev.macid ≤ 0x0fff) :
    (slotPreheader netdev slot).dstInfoType = edmaPrehdrDstinfoPortidInd ∧
      (slotPreheader netdev slot).dstPortNum = netdev.macid := by
  have hdst : (slotPreheader netdev slot).dstInfo =
      0x2000#16 ||| (BitVec.ofNat 16 netdev.macid &&& 0x0fff#16) := rfl
  constructor
  · rw [EdmaTxPreheader.dstInfoType, hdst, BitVec.ushiftRight_or_distrib,
      BitVec.ushiftRight_and_distrib, masked_or_of_disjoint]
    · decide
    · rw [BitVec.and_assoc, show (0x0fff#16 >>> 8) &&& 0xf0#16 = 0#16 by decide, BitVec.and_zero]
  · rw [EdmaTxPreheader.dstPortNum, hdst, BitVec.or_comm, edmaPrehdrPortnumBits,
      masked_or_of_disjoint (by decide), BitVec.and_assoc, BitVec.and_self, BitVec.toNat_and,
      BitVec.toNat_ofNat, Nat.mod_eq_of_lt (by omega)]
    exact (Cyclic.and_mask netdev.macid 12).trans (Nat.mod_eq_of_lt (by omega))

section CleanTx

variable {virtToPhys : Nat → BitVec 32} {ring : EdmaTxcmplRing} {prodIdx : Nat}

/-- Whatever the ring and the store hold, the loop does nothing but release packets. -/
theorem cleanTxLoop_events : ∀ (fuel consIdx : Nat) (store : Nat → Option SkBuff)
    {l : CleanTxLoop}, cleanTxLoop virtToPhys ring prodIdx fuel consIdx store = some l →
    ∃ skbs : List SkBuff, l.events = skbs.flatMap (releaseEvents virtToPhys) := by
  intro fuel
  induction fuel with
  | zero =>
    intro consIdx store l hloop
    cases hloop
  | succ fuel ih =>
    intro consIdx store l hloop
    rw [cleanTxLoop] at hloop
    split at hloop
    · cases hloop
      exact ⟨[], rfl⟩
    · simp only at hloop
      split at hloop
      · obtain ⟨rest, hrest, rfl⟩ := Option.map_eq_some_iff.mp hloop
        exact ih _ _ (l := rest) hrest
      · rename_i skb _
        obtain ⟨rest, hrest, rfl⟩ := Option.map_eq_some_iff.mp hloop
        obtain ⟨skbs, hskbs⟩ := ih _ _ hrest
        refine ⟨skb :: skbs, ?_⟩
        rw [List.flatMap_cons, ← hskbs]
        rfl

theorem edmaCleanTx_events {ehw : EdmaHw} {q : Nat} {r : CleanTx}
    (hclean : edmaCleanTx virtToPhys ehw q = some r) :
    ∃ skbs : List SkBuff, r.events = skbs.flatMap (releaseEvents virtToPhys) := by
  simp only [edmaCleanTx] at hclean
  split at hclean
  · cases hclean
  · rename_i l hloop
    obtain ⟨skbs, hskbs⟩ := cleanTxLoop_events _ _ _ hloop
    split at hclean
    · cases hclean
      exact ⟨skbs, hskbs⟩
    · cases hclean
      exact ⟨skbs, hskbs⟩

/-- A packet is unmapped with the linear length it has when it is freed. -/
theorem unmappedAs_headlen (virtToPhys : Nat → BitVec 32) (skb : SkBuff) :
    UnmappedAs virtToPhys skb skb.headlen := by
  intro ehw q r hclean
  obtain ⟨skbs, hevents⟩ := edmaCleanTx_events hclean
  rw [hevents, DmaInv.freedSkbs_flatMap, DmaInv.releasesOf_flatMap, List.map_map]
  refine ⟨(List.map_id skbs).symm, ?_⟩
  rintro m hm rfl
  obtain ⟨skb, -, rfl⟩ := List.mem_map.mp hm
  rfl

end CleanTx

/-- A call that keeps a packet and maps it has published it. -/
theorem edmaRingXmit_accepted {ehw : EdmaHw} {netdev : NetDevice} {skb : SkBuff} {ring : Nat}
    {dma : BitVec 32} {r : RingXmit} (hxmit : edmaRingXmit ehw netdev skb ring dma = .ok r)
    (hret : r.ret = .ok) (hdma : dma ≠ 0#32) :
    r.skb = framed netdev (ehw.txSlot ring) skb ∧
      r.ehw = ehw.xmitPublished ring r.skb (u16 skb.headlen) dma ∧
      mapsOf r.events = [(dma, u16 skb.headlen + edmaTxPrehdrSize)] := by
  by_cases hfull : TxdescFull ehw ring
  · rw [edmaRingXmit_full hfull] at hxmit
    cases hxmit
    cases hret
  rcases Nat.lt_or_ge skb.headroom edmaTxPrehdrSize with hhead | hhead
  · rw [edmaRingXmit_panic hhead hfull] at hxmit
    cases hxmit
  by_cases hbusy : StoreBusy ehw ring
  · rw [edmaRingXmit_storeBusy hhead hfull hbusy] at hxmit
    cases hxmit
    cases hret
  rw [edmaRingXmit_published hhead hfull hbusy hdma] at hxmit
  cases hxmit
  refine ⟨rfl, rfl, ?_⟩
  rw [mapsOf_append, mapsOf_tstampEvents, mapsOf_map]
  rfl

theorem framed_headlen (netdev : NetDevice) (slot : Nat) {skb : SkBuff}
    (hlen : skb.headlen < 2 ^ 16) :
    (framed netdev slot skb).headlen = skb.headlen + edmaTxPrehdrSize := by
  rw [SkBuff.headlen_eq] at hlen ⊢
  rw [SkBuff.headlen_eq, framed, List.length_append, EdmaTxPreheader.length_bytes]
  simp only [u32, edmaTxPrehdrSize] at *
  omega

theorem txSlot_lt (ehw : EdmaHw) (ring : Nat) : ehw.txSlot ring < 2 ^ 16 := by
  have hprod : ehw.txProd ring < 2 ^ 16 := by
    have hle : (ehw.regs (.txdescProdIdx (ehw.txdescRing ring).id) &&& edmaIdxMask).toNat ≤
        edmaIdxMask.toNat := by
      rw [BitVec.toNat_and]
      exact Nat.and_le_right
    exact Nat.lt_of_le_of_lt hle (by decide)
  exact Nat.lt_of_le_of_lt Nat.and_le_left hprod

section Encoded

variable {virtToPhys : Nat → BitVec 32} {ehw : EdmaHw} {netdev : NetDevice} {skb : SkBuff}
variable {ring : Nat} {dma : BitVec 32} {r : RingXmit}

theorem published_desc (hxmit : edmaRingXmit ehw netdev skb ring dma = .ok r) (hret : r.ret = .ok)
    (hdma : dma ≠ 0#32) : (r.ehw.txdescRing ring).desc (ehw.txProd ring) =
      ⟨dma, txdescWord1 (u16 skb.headlen)⟩ := by
  obtain ⟨-, hehw, -⟩ := edmaRingXmit_accepted hxmit hret hdma
  rw [hehw]
  exact xmitPublished_desc _ _ _ _ _

/-- The length in the descriptor is one of 16 bits. -/
theorem Encoded.headlen_lt (h : Encoded virtToPhys ehw netdev skb ring dma r) :
    skb.headlen < 2 ^ 16 := by
  rw [← h.dataLength, EdmaTxdescDesc.dataLength, BitVec.toNat_and]
  exact Nat.lt_of_le_of_lt Nat.and_le_right (by decide)

/-- A packet whose length fits the 16-bit variable keeps it everywhere. -/
theorem encoded_of_headlen_lt (hmacid : netdev.macid ≤ 0x0fff)
    (hxmit : edmaRingXmit ehw netdev skb ring dma = .ok r) (hret : r.ret = .ok)
    (hdma : dma ≠ 0#32) (hlt : skb.headlen < 2 ^ 16) :
    Encoded virtToPhys ehw netdev skb ring dma r := by
  obtain ⟨hskb, hehw, hmaps⟩ := edmaRingXmit_accepted hxmit hret hdma
  have hdesc := published_desc hxmit hret hdma
  have hfits : u16 skb.headlen = skb.headlen := u16_of_lt hlt
  obtain ⟨hpreheader, hoffset, hlength⟩ := txdescWord1_fields dma (u16 skb.headlen)
  obtain ⟨htype, hport⟩ := slotPreheader_dst netdev (ehw.txSlot ring) hmacid
  have hslot : (slotPreheader netdev (ehw.txSlot ring)).opaqueWord.toNat = ehw.txSlot ring := by
    have hword : ehw.txSlot ring < 2 ^ 32 := Nat.lt_trans (txSlot_lt ehw ring) (by decide)
    show (BitVec.ofNat 32 (ehw.txSlot ring)).toNat = _
    rw [BitVec.toNat_ofNat, Nat.mod_eq_of_lt hword]
  refine ⟨by rw [hdesc], by rw [hdesc, hpreheader], by rw [hdesc, hoffset], ?_, ?_, ?_, ?_, ?_⟩
  · rw [hdesc, hlength, hfits, Nat.mod_eq_of_lt hlt]
  · rw [hehw, xmitPublished_txSkbStore, Function.update_self]
  · refine ⟨slotPreheader netdev (ehw.txSlot ring), ?_, hslot, htype, hport⟩
    rw [hskb]
    rfl
  · rw [hmaps, hfits]
  · rw [hskb, ← framed_headlen netdev (ehw.txSlot ring) hlt]
    exact unmappedAs_headlen virtToPhys _

end Encoded

/-- For every packet that a call of `edma_ring_xmit` publishes, on any ring of any instance:
    descriptor, preheader, mapping and unmapping are those of the packet if and only if its
    linear length fits 16 bits. -/
theorem edmaRingXmit_encoded_iff (virtToPhys : Nat → BitVec 32) {ehw : EdmaHw}
    {netdev : NetDevice} {skb : SkBuff} {ring : Nat} {dma : BitVec 32} {r : RingXmit}
    (hmacid : netdev.macid ≤ 0x0fff) (hxmit : edmaRingXmit ehw netdev skb ring dma = .ok r)
    (hret : r.ret = .ok) (hdma : dma ≠ 0#32) :
    Encoded virtToPhys ehw netdev skb ring dma r ↔ skb.headlen < 2 ^ 16 :=
  ⟨Encoded.headlen_lt, encoded_of_headlen_lt hmacid hxmit hret hdma⟩

/-- The first packet on an idle ring is published. -/
theorem idleEdma_first (payload : List (BitVec 8)) : ∃ r,
    edmaRingXmit idleEdma port1Dev (packetOf 0 payload) 0 32#32 = .ok r ∧ r.ret = .ok :=
  ⟨_, edmaRingXmit_published (Nat.le_refl _) (by decide) (by decide) (by decide), rfl⟩

theorem edmaRingXmit_encoded_iff_14 : ∃ r,
    edmaRingXmit idleEdma port1Dev (packetOf 0 (List.replicate 14 0#8)) 0 32#32 = .ok r ∧
      (Encoded (BitVec.ofNat 32) idleEdma port1Dev (packetOf 0 (List.replicate 14 0#8)) 0 32#32 r ↔
        (packetOf 0 (List.replicate 14 0#8)).headlen < 2 ^ 16) := by
  obtain ⟨r, hxmit, hret⟩ := idleEdma_first (List.replicate 14 0#8)
  exact ⟨r, hxmit, edmaRingXmit_encoded_iff (BitVec.ofNat 32) (by decide) hxmit hret (by decide)⟩

/-- A packet of 65549 bytes is described as one of 13 bytes. -/
theorem edmaRingXmit_encoded_65549 : ∃ r,
    edmaRingXmit idleEdma port1Dev (packetOf 0 bigPayload) 0 32#32 = .ok r ∧ r.ret = .ok ∧
      (packetOf 0 bigPayload).headlen = 65549 ∧
      ((r.ehw.txdescRing 0).desc 0).dataLength = 13 ∧ mapsOf r.events = [(32#32, 45)] ∧
      ¬ Encoded (BitVec.ofNat 32) idleEdma port1Dev (packetOf 0 bigPayload) 0 32#32 r := by
  obtain ⟨r, hxmit, hret⟩ := idleEdma_first bigPayload
  obtain ⟨-, -, hmaps⟩ := edmaRingXmit_accepted hxmit hret (by decide)
  have hheadlen : (packetOf 0 bigPayload).headlen = 65549 := by
    rw [SkBuff.headlen_eq, packetOf, bigPayload, List.length_replicate]
    rfl
  have hlength : ((r.ehw.txdescRing 0).desc 0).dataLength = 13 := by
    have hdesc : (r.ehw.txdescRing 0).desc 0 = _ := published_desc hxmit hret (by decide)
    rw [hdesc, hheadlen]
    decide
  rw [hheadlen] at hmaps
  refine ⟨r, hxmit, hret, hheadlen, hlength, hmaps, ?_⟩
  intro h
  have hlt := h.headlen_lt
  rw [hheadlen] at hlt
  exact absurd hlt (by decide)

end NssDp.Edma
