import NssDp.Edma.Proofs.RingXmit
import NssDp.Edma.Proofs.RxRefill

/-!
# Mappings that fail

`dma_map_single` fails with an address of all ones, of which a descriptor keeps the lower word.
`edma_alloc_rx_buffer` and `edma_ring_xmit` test that word for zero.
-/

namespace NssDp.Edma

open Cyclic Word

/-- `DMA_MAPPING_ERROR`, for which `dma_mapping_error` tests. -/
def dmaMappingError : BitVec 64 := BitVec.allOnes 64

/-- What `cpu_to_le32` leaves of an address. -/
def descWord (addr : BitVec 64) : BitVec 32 := addr.setWidth 32

theorem descWord_mappingError : descWord dmaMappingError ≠ 0#32 := by decide

/-- A buffer that `dev_alloc_skb` returns, and what `dma_map_single` returns for it. -/
structure RxMapping where
  skb : RxSkb
  addr : BitVec 64
  deriving DecidableEq, Repr

/-- The buffer as `edma_alloc_rx_buffer` sees it. -/
def RxMapping.alloc (m : RxMapping) : EdmaRxAlloc := ⟨m.skb, descWord m.addr⟩

section Refill

variable {rx : EdmaRx} {maps : List RxMapping}

/-- The attempts of a refill. -/
def refillAttempts (maps : List RxMapping) (i : Nat) : Option EdmaRxAlloc :=
  (maps.map RxMapping.alloc)[i]?

/-- A refill comes to the mapping of its attempt `i`, which is `m`. -/
structure RefillMaps (rx : EdmaRx) (maps : List RxMapping) (i : Nat) (m : RxMapping) : Prop where
  room : i < room rx.rxfill.count rx.fillCons rx.fillProd
  get : maps[i]? = some m
  free : rx.rxSkbStore (slot rx.rxfill.count rx.fillProd i) = none
  before : ∀ j < i, Succeeds rx rx.fillProd (refillAttempts maps) j

/-- How many descriptors the producer index has passed. -/
def passed (rx rx' : EdmaRx) : Nat := gap rx.rxfill.count rx.fillProd rx'.fillProd

/-- A refill with mappings that may fail: the producer index passes only buffers that are
    mapped, and where a mapping fails its buffer is freed once, the slot of the store is free
    again and the producer index has not passed it. -/
structure RefillHandles (rx : EdmaRx) (maps : List RxMapping) (rx' : EdmaRx) : Prop where
  mapped : ∀ i < passed rx rx', ∃ m, maps[i]? = some m ∧ m.addr ≠ dmaMappingError
  failed : ∀ i m, RefillMaps rx maps i m → m.addr = dmaMappingError →
    (rx'.events.drop rx.events.length).count (.devKfreeSkb m.skb) = 1 ∧
      rx'.rxSkbStore (slot rx.rxfill.count rx.fillProd i) = none ∧ passed rx rx' ≤ i

/-- The producer index passes the buffers that are posted. -/
theorem RefillResult.passed {done : List EdmaRxAlloc} {turned : Option EdmaRxAlloc}
    {r : Nat × EdmaRx} (h : RefillResult rx done turned r) (hcount : rx.rxfill.count < 2 ^ 16)
    (hprod : rx.fillProd < rx.rxfill.count) (hlt : done.length < rx.rxfill.count) :
    passed rx r.2 = done.length := by
  have hslot := slot_lt (Nat.zero_lt_of_lt hprod) rx.fillProd done.length
  have hprod' : r.2.fillProd = slot rx.rxfill.count rx.fillProd done.length := by
    rw [EdmaRx.fillProd, h.refilled.id, h.ehw]
    dsimp only
    split
    · rename_i hzero
      rw [hzero, slot_zero hprod]
      rfl
    · exact EdmaHw.regWrite_regIdx_self _ _ (Nat.lt_trans hslot hcount)
  rw [NssDp.Edma.passed, hprod', gap_slot hprod hlt]

theorem succeeds_of_word {i : Nat} {m : RxMapping} (hget : maps[i]? = some m)
    (hfree : rx.rxSkbStore (slot rx.rxfill.count rx.fillProd i) = none)
    (hword : descWord m.addr ≠ 0#32) : Succeeds rx rx.fillProd (refillAttempts maps) i :=
  ⟨m.alloc, by rw [refillAttempts, List.getElem?_map, hget]; rfl, hfree, hword⟩

/-- An attempt that the code takes for a success is among those it posts. -/
theorem Stops.lt_of_succeeds {base room i : Nat} {attempts : Nat → Option EdmaRxAlloc}
    {done : List EdmaRxAlloc} {turned : Option EdmaRxAlloc}
    (h : Stops rx base room attempts done turned) (hi : i < room)
    (hsucceeds : ∀ j ≤ i, Succeeds rx base attempts j) : i < done.length := by
  by_contra hge
  exact h.last (by omega) (hsucceeds _ (by omega))

/-- The failures of a refill are handled just where there are none. -/
theorem refillHandles_iff (hpow : ∃ k ≤ 15, rx.rxfill.count = 2 ^ k)
    (hprod : rx.fillProd < rx.rxfill.count) (hcons : rx.fillCons < rx.rxfill.count) :
    RefillHandles rx maps (edmaAllocRxBuffer rx (maps.map RxMapping.alloc)).2 ↔
      ∀ i m, RefillMaps rx maps i m → m.addr ≠ dmaMappingError := by
  obtain ⟨done, turned, hresult, hstops⟩ :=
    @edmaAllocRxBuffer_result rx (maps.map RxMapping.alloc) hpow hprod hcons
  have hroom := room_lt (Nat.zero_lt_of_lt hcons) rx.fillCons rx.fillProd
  have hpassed := hresult.passed (lt_of_pow hpow) hprod (Nat.lt_of_le_of_lt hstops.le hroom)
  constructor
  · intro h i m hmaps herror
    have hword : descWord m.addr ≠ 0#32 := by
      rw [herror]
      exact descWord_mappingError
    have hlt : i < done.length := by
      refine hstops.lt_of_succeeds hmaps.room fun j hj => ?_
      rcases Nat.lt_or_eq_of_le hj with hbefore | rfl
      · exact hmaps.before j hbefore
      · exact succeeds_of_word hmaps.get hmaps.free hword
    have hle := (h.failed i m hmaps herror).2.2
    rw [hpassed] at hle
    omega
  · intro h
    refine ⟨fun i hi => ?_, fun i m hmaps herror => absurd herror (h i m hmaps)⟩
    rw [hpassed] at hi
    obtain ⟨alloc, halloc, hfree, -⟩ := hstops.good i hi
    change (maps.map RxMapping.alloc)[i]? = some alloc at halloc
    rw [List.getElem?_map] at halloc
    obtain ⟨m, hm, -⟩ := Option.map_eq_some_iff.mp halloc
    have hle := hstops.le
    exact ⟨m, hm, h i m ⟨by omega, hm, hfree, fun j hj => hstops.good j (by omega)⟩⟩

end Refill

section Xmit

variable {ehw : EdmaHw} {netdev : NetDevice} {skb : SkBuff} {ring : Nat} {addr : BitVec 64}

/-- A transmission comes to the mapping: the ring is not full, there is room for the preheader
    and the slot of the store is free. -/
structure XmitMaps (ehw : EdmaHw) (skb : SkBuff) (ring : Nat) : Prop where
  room : ¬ TxdescFull ehw ring
  headroom : edmaTxPrehdrSize ≤ skb.headroom
  free : ¬ StoreBusy ehw ring

/-- A transmission with a mapping that may fail: the producer index advances only over a buffer
    that is mapped, and where the mapping fails the buffer is freed once, the slot of the store
    is free again and the producer index stays. -/
structure XmitHandles (ehw : EdmaHw) (skb : SkBuff) (ring : Nat) (addr : BitVec 64)
    (r : RingXmit) : Prop where
  mapped : r.ehw.txProd ring ≠ ehw.txProd ring → XmitMaps ehw skb ring ∧ addr ≠ dmaMappingError
  failed : XmitMaps ehw skb ring → addr = dmaMappingError →
    (freedSkbs r.events).map SkBuff.id = [skb.id] ∧
      r.ehw.txSkbStore (ehw.txSlot ring) = none ∧ r.ehw.txProd ring = ehw.txProd ring

/-- Without a mapping nothing is published. -/
theorem edmaRingXmit_noMapping {dma : BitVec 32} {r : RingXmit} (h : ¬ XmitMaps ehw skb ring)
    (hr : edmaRingXmit ehw netdev skb ring dma = .ok r) : r.ehw.txProd ring = ehw.txProd ring := by
  by_cases hfull : TxdescFull ehw ring
  · rw [edmaRingXmit_full hfull] at hr
    cases hr
    rfl
  rcases Nat.lt_or_ge skb.headroom edmaTxPrehdrSize with hhead | hhead
  · rw [edmaRingXmit_panic hhead hfull] at hr
    cases hr
  by_cases hbusy : StoreBusy ehw ring
  · rw [edmaRingXmit_storeBusy hhead hfull hbusy] at hr
    cases hr
    rfl
  · exact absurd ⟨hfull, hhead, hbusy⟩ h

theorem xmitHandles_iff :
    (∀ r, edmaRingXmit ehw netdev skb ring (descWord addr) = .ok r →
      XmitHandles ehw skb ring addr r) ↔ ¬ (XmitMaps ehw skb ring ∧ addr = dmaMappingError) := by
  constructor
  · rintro h ⟨hmaps, rfl⟩
    have hstore := ((h _ (edmaRingXmit_published hmaps.headroom hmaps.room hmaps.free
      descWord_mappingError)).failed hmaps rfl).2.1
    rw [xmitPublished_txSkbStore, Function.update_self] at hstore
    cases hstore
  · intro h r hr
    refine ⟨fun hmoved => ?_, fun hmaps herror => absurd ⟨hmaps, herror⟩ h⟩
    have hmaps : XmitMaps ehw skb ring := by
      by_contra hnot
      exact hmoved (edmaRingXmit_noMapping hnot hr)
    exact ⟨hmaps, fun herror => h ⟨hmaps, herror⟩⟩

end Xmit

/-- A refill and a transmission handle the failures of their mappings just where they have
    none. -/
theorem mapFailures_iff {rx : EdmaRx} (maps : List RxMapping)
    (hpow : ∃ k ≤ 15, rx.rxfill.count = 2 ^ k) (hprod : rx.fillProd < rx.rxfill.count)
    (hcons : rx.fillCons < rx.rxfill.count) (ehw : EdmaHw) (netdev : NetDevice) (skb : SkBuff)
    (ring : Nat) (addr : BitVec 64) :
    (RefillHandles rx maps (edmaAllocRxBuffer rx (maps.map RxMapping.alloc)).2 ↔
      ∀ i m, RefillMaps rx maps i m → m.addr ≠ dmaMappingError) ∧
    ((∀ r, edmaRingXmit ehw netdev skb ring (descWord addr) = .ok r →
      XmitHandles ehw skb ring addr r) ↔
        ¬ (XmitMaps ehw skb ring ∧ addr = dmaMappingError)) :=
  ⟨refillHandles_iff hpow hprod hcons, xmitHandles_iff⟩

/-- Two buffers that are mapped, and a packet that is. -/
theorem mapFailures_iff_mapped :
    RefillHandles idleEdmaRx [⟨⟨0, edmaRxBuffSize⟩, 4096#64⟩, ⟨⟨1, edmaRxBuffSize⟩, 8192#64⟩]
        (edmaAllocRxBuffer idleEdmaRx [⟨⟨0, edmaRxBuffSize⟩, 4096#32⟩,
          ⟨⟨1, edmaRxBuffSize⟩, 8192#32⟩]).2 ∧
      ∀ r, edmaRingXmit idleEdma port1Dev (packetOf 0 []) 0 4096#32 = .ok r →
        XmitHandles idleEdma (packetOf 0 []) 0 4096#64 r := by
  have hpow : ∃ k ≤ 15, idleEdmaRx.rxfill.count = 2 ^ k := ⟨7, by decide, rfl⟩
  obtain ⟨hrefill, hxmit⟩ := mapFailures_iff
    [⟨⟨0, edmaRxBuffSize⟩, 4096#64⟩, ⟨⟨1, edmaRxBuffSize⟩, 8192#64⟩] hpow (by decide) (by decide)
    idleEdma port1Dev (packetOf 0 []) 0 4096#64
  refine ⟨hrefill.mpr fun i m hmaps => ?_, hxmit.mpr fun hfails => absurd hfails.2 (by decide)⟩
  have hmem := List.mem_of_getElem? hmaps.get
  simp only [List.mem_cons, List.not_mem_nil, or_false] at hmem
  rcases hmem with rfl | rfl <;> decide

/-- A buffer whose mapping fails is posted, and a packet whose mapping fails is published, both
    with the address `0xffffffff`. -/
theorem mapFailures_published :
    (edmaAllocRxBuffer idleEdmaRx [⟨⟨0, edmaRxBuffSize⟩, descWord dmaMappingError⟩]).1 = 1 ∧
      ((edmaAllocRxBuffer idleEdmaRx
        [⟨⟨0, edmaRxBuffSize⟩, descWord dmaMappingError⟩]).2.fillAddr 0) = 0xffffffff#32 ∧
      ¬ RefillHandles idleEdmaRx [⟨⟨0, edmaRxBuffSize⟩, dmaMappingError⟩]
        (edmaAllocRxBuffer idleEdmaRx [⟨⟨0, edmaRxBuffSize⟩, descWord dmaMappingError⟩]).2 ∧
      ∃ r, edmaRingXmit idleEdma port1Dev (packetOf 0 []) 0 (descWord dmaMappingError) = .ok r ∧
        ((r.ehw.txdescRing 0).desc 0).bufferAddr = 0xffffffff#32 ∧
          ¬ XmitHandles idleEdma (packetOf 0 []) 0 dmaMappingError r := by
  refine ⟨by decide +kernel, by decide +kernel, fun h => ?_, _, rfl, by decide +kernel, fun h => ?_⟩
  · obtain ⟨m, hm, hne⟩ := h.mapped 0 (by decide +kernel)
    cases hm
    exact hne rfl
  · exact (h.mapped (by decide +kernel)).2 rfl

end NssDp.Edma
