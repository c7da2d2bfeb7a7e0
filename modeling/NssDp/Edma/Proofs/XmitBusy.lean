import NssDp.Edma.Proofs.TxOwnership

/-!
# A packet that `edma_if_xmit` hands back

The stack offers a packet again after a BUSY answer, as the driver has left it. Between two
offers the rings, the store and the device may change in any way, so an offer carries the
instance it is made to. A run of `retryStep` goes on while the answer is BUSY.
-/

namespace NssDp.Edma

open Lts Word

/-- A packet is offered to `edma_if_xmit`. -/
structure Offer where
  ehw : EdmaHw
  netdev : NetDevice
  env : XmitEnv

/-- The answer to an offer. -/
def Offer.xmit (a : Offer) (skb : SkBuff) : Except EdmaBug IfXmit :=
  edmaIfXmit a.ehw a.netdev skb a.env

/-- The ring the packet is meant for. -/
def Offer.ring (a : Offer) (skb : SkBuff) : Nat := edmaTxRing a.ehw skb

/-- The packet as it is after a BUSY answer. -/
def retryStep (skb : SkBuff) (a : Offer) : Option SkBuff :=
  match a.xmit skb with
  | .ok r => if r.ret = .busy then some r.skb else none
  | .error _ => none

/-- The length field of a descriptor. -/
def txdescDataLength (word1 : BitVec 32) : Nat :=
  (word1 >>> edmaTxdescDataLengthShift &&& edmaTxdescDataLengthMask).toNat

/-- The offset field of a descriptor. -/
def txdescDataOffset (word1 : BitVec 32) : Nat :=
  (word1 >>> edmaTxdescDataOffsetShift &&& edmaTxdescDataOffsetMask).toNat

/-- What the hardware reads of a buffer: the preheader up to the offset, then the data. -/
def hwFrame (txdesc : EdmaTxdescDesc) (memory : List (BitVec 8)) : List (BitVec 8) :=
  memory.take (txdescDataOffset txdesc.word1 + txdescDataLength txdesc.word1)

/-- The driver has nothing of the packet, and the packet is as it was. -/
structure BusyKept (ehw : EdmaHw) (skb : SkBuff) (r : IfXmit) : Prop where
  notFreed : freedSkbs r.events = []
  notMapped : mapsOf r.events = []
  store : r.ehw.txSkbStore = ehw.txSkbStore
  txdesc : r.ehw.txdescRing = ehw.txdescRing
  regs : r.ehw.regs = ehw.regs
  payload : r.skb.payload = skb.payload
  len : r.skb.len = skb.len

/-- The hardware is given one preheader and the frame `payload`. -/
def GivenFrame (a : Offer) (skb : SkBuff) (payload : List (BitVec 8)) (r : IfXmit) : Prop :=
  let slot := a.ehw.txSlot (a.ring skb)
  let txdesc := (r.ehw.txdescRing (a.ring skb)).desc (a.ehw.txProd (a.ring skb))
  txdesc.bufferAddr = a.env.dma ∧ r.ehw.txSkbStore slot = some r.skb ∧
    hwFrame txdesc r.skb.payload = (slotPreheader a.netdev slot).bytes ++ payload

/-- What the driver promises for an offer of a packet that was `payload` when it was offered
    first. -/
def XmitKept (payload : List (BitVec 8)) (skb : SkBuff) (a : Offer) : Prop :=
  ∀ r, a.xmit skb = .ok r →
    (r.ret = .busy → BusyKept a.ehw skb r) ∧
      (mapsOf r.events ≠ [] → GivenFrame a skb payload r)

/-- The offer gets past the capacity test of `edma_ring_xmit`. -/
def Admitted (skb : SkBuff) (a : Offer) : Prop :=
  (∃ skb', edmaIfXmitPrepare a.netdev skb a.env = some skb' ∧
    edmaTxPrehdrSize ≤ skb'.headroom) ∧ ¬ TxdescFull a.ehw (a.ring skb)

/-- An offer that gets past the capacity test finds a free slot, and one that can be mapped is
    of a packet that fits the length field of a descriptor. -/
def FreeSlot (skb : SkBuff) (a : Offer) : Prop :=
  Admitted skb a →
    ¬ StoreBusy a.ehw (a.ring skb) ∧ (a.env.dma ≠ 0#32 → skb.payload.length < 2 ^ 16)

theorem txdescDataLength_word1 (n : Nat) : txdescDataLength (txdescWord1 n) = u16 n := by
  rw [txdescDataLength, edmaTxdescDataLengthShift, BitVec.ushiftRight_zero]
  exact txdescWord1_length n

theorem txdescDataOffset_word1 (n : Nat) :
    txdescDataOffset (txdescWord1 n) = edmaTxPrehdrSize := by
  rw [txdescDataOffset, edmaTxdescDataOffsetShift, txdescWord1_high n (Nat.le_refl _)]
  decide

/-- The hardware reads the preheader and as much of the frame as the length field tells. -/
theorem hwFrame_published (dma : BitVec 32) (txph : EdmaTxPreheader)
    (frame : List (BitVec 8)) (n : Nat) :
    hwFrame ⟨dma, txdescWord1 n⟩ (txph.bytes ++ frame) = txph.bytes ++ frame.take (u16 n) := by
  rw [hwFrame, txdescDataOffset_word1, txdescDataLength_word1, ← txph.length_bytes,
    List.take_length_add_append]

section Call

variable {a : Offer} {skb skb' : SkBuff}

theorem prepare_payload {netdev : NetDevice} {env : XmitEnv}
    (hprep : edmaIfXmitPrepare netdev skb env = some skb') :
    skb'.payload = skb.payload ∧ skb'.dataLen = skb.dataLen := by
  unfold edmaIfXmitPrepare at hprep
  split at hprep
  · cases hprep
  · split at hprep
    · cases hprep
    · split at hprep
      · obtain ⟨data, -, rfl⟩ := Option.map_eq_some_iff.mp hprep
        exact ⟨rfl, rfl⟩
      · cases hprep
        exact ⟨rfl, rfl⟩

/-- A packet that is dropped is not handed back. -/
theorem xmit_dropped (hprep : edmaIfXmitPrepare a.netdev skb a.env = none) :
    a.xmit skb = .ok (edmaIfXmitDrop a.ehw a.netdev skb []) := by
  simp only [Offer.xmit, edmaIfXmit, hprep]

theorem xmit_error {bug : EdmaBug} (hprep : edmaIfXmitPrepare a.netdev skb a.env = some skb')
    (hring : edmaRingXmit a.ehw a.netdev skb' (a.ring skb) a.env.dma = .error bug) :
    a.xmit skb = .error bug := by
  unfold Offer.ring at hring
  simp only [Offer.xmit, edmaIfXmit, hprep, hring]

theorem xmit_desc {ehw' : EdmaHw} {p : SkBuff} {events : List KernelEvent}
    (hprep : edmaIfXmitPrepare a.netdev skb a.env = some skb')
    (hring : edmaRingXmit a.ehw a.netdev skb' (a.ring skb) a.env.dma =
      .ok ⟨.desc, ehw', p, events⟩) :
    a.xmit skb = .ok ⟨.busy, ehw', p, a.netdev.stopQueue, events⟩ := by
  unfold Offer.ring at hring
  simp only [Offer.xmit, edmaIfXmit, hprep, hring]

theorem xmit_ok {ehw' : EdmaHw} {p : SkBuff} {events : List KernelEvent}
    (hprep : edmaIfXmitPrepare a.netdev skb a.env = some skb')
    (hring : edmaRingXmit a.ehw a.netdev skb' (a.ring skb) a.env.dma =
      .ok ⟨.ok, ehw', p, events⟩) :
    a.xmit skb = .ok ⟨.ok, ehw', p, a.netdev, events⟩ := by
  unfold Offer.ring at hring
  simp only [Offer.xmit, edmaIfXmit, hprep, hring]

end Call

/-- The frame of a published packet is read whole exactly where its length fits. -/
theorem givenFrame_iff {a : Offer} {skb skb' : SkBuff} {events : List KernelEvent}
    (hpayload : skb'.payload = skb.payload) :
    GivenFrame a skb skb.payload ⟨.ok,
        a.ehw.xmitPublished (a.ring skb) (framed a.netdev (a.ehw.txSlot (a.ring skb)) skb')
          (u16 skb'.headlen) a.env.dma,
        framed a.netdev (a.ehw.txSlot (a.ring skb)) skb', a.netdev, events⟩ ↔
      skb.payload.length < 2 ^ 16 := by
  have hlen : u16 (u16 skb'.headlen) = u16 skb.payload.length := by
    rw [SkBuff.headlen_eq, hpayload, u16, u16, u16, u32]
    omega
  have hframe : hwFrame ⟨a.env.dma, txdescWord1 (u16 skb'.headlen)⟩
      (framed a.netdev (a.ehw.txSlot (a.ring skb)) skb').payload =
        (slotPreheader a.netdev (a.ehw.txSlot (a.ring skb))).bytes ++
          skb.payload.take (u16 skb.payload.length) := by
    simp only [framed]
    rw [hwFrame_published, hlen, hpayload]
  have hdesc := xmitPublished_desc a.ehw (a.ring skb)
    (framed a.netdev (a.ehw.txSlot (a.ring skb)) skb') (u16 skb'.headlen) a.env.dma
  have hstore := xmitPublished_txSkbStore a.ehw (a.ring skb)
    (framed a.netdev (a.ehw.txSlot (a.ring skb)) skb') (u16 skb'.headlen) a.env.dma
  simp only [GivenFrame, hdesc, hstore, Function.update_self, hframe, true_and,
    List.append_cancel_left_eq]
  constructor
  · intro htake
    have hle := congrArg List.length htake
    rw [List.length_take] at hle
    have hlt := u16_lt skb.payload.length
    omega
  · intro hlt
    rw [u16_of_lt hlt, List.take_length]

/-- What one offer does, by the exits of the two functions. -/
theorem xmitKept_iff (skb : SkBuff) (a : Offer) :
    XmitKept skb.payload skb a ↔ FreeSlot skb a := by
  rcases hprep : edmaIfXmitPrepare a.netdev skb a.env with _ | skb'
  · refine iff_of_true (fun r hr => ?_) fun hadm => ?_
    · rw [xmit_dropped hprep] at hr
      cases hr
      exact ⟨fun hbusy => NetdevTx.noConfusion hbusy, fun hmap => absurd rfl hmap⟩
    · obtain ⟨⟨skb', hsome, _⟩, _⟩ := hadm
      cases hprep.symm.trans hsome
  obtain ⟨hpayload, hdataLen⟩ := prepare_payload hprep
  by_cases hfull : TxdescFull a.ehw (a.ring skb)
  · refine iff_of_true (fun r hr => ?_) fun hadm => absurd hfull hadm.2
    rw [xmit_desc hprep (edmaRingXmit_full hfull)] at hr
    cases hr
    refine ⟨fun _ => ⟨rfl, rfl, rfl, rfl, rfl, hpayload, ?_⟩, fun hmap => absurd rfl hmap⟩
    simp only [SkBuff.len, hpayload, hdataLen]
  rcases Nat.lt_or_ge skb'.headroom edmaTxPrehdrSize with hhead | hhead
  · refine iff_of_true (fun r hr => ?_) fun hadm => ?_
    · rw [xmit_error hprep (edmaRingXmit_panic hhead hfull)] at hr
      cases hr
    · obtain ⟨⟨p, hsome, hle⟩, _⟩ := hadm
      cases hprep.symm.trans hsome
      omega
  have hadm : Admitted skb a := ⟨⟨skb', hprep, hhead⟩, hfull⟩
  by_cases hbusy : StoreBusy a.ehw (a.ring skb)
  · refine iff_of_false (fun hkept => ?_) fun hfree => (hfree hadm).1 hbusy
    -- the preheader has been pushed by now
    have hpushed := ((hkept _ (xmit_desc hprep (edmaRingXmit_storeBusy hhead hfull hbusy))).1
      rfl).payload
    have hlen := congrArg List.length hpushed
    simp only [preheadered, List.length_append, EdmaTxPreheader.length_bytes, hpayload,
      edmaTxPrehdrSize] at hlen
    omega
  by_cases hdma : a.env.dma = 0#32
  · refine iff_of_true (fun r hr => ?_) fun _ => ⟨hbusy, fun hne => absurd hdma hne⟩
    have hring := @edmaRingXmit_unmapped _ a.netdev _ _ hhead hfull hbusy
    rw [← hdma] at hring
    rw [xmit_ok hprep hring] at hr
    cases hr
    exact ⟨fun h => NetdevTx.noConfusion h, fun hmap => absurd (by simp) hmap⟩
  · have hr := xmit_ok hprep (edmaRingXmit_published hhead hfull hbusy hdma)
    have hgiven := @givenFrame_iff a _ _ (tstampEvents skb' ++
      [.dmaMapSingle .pdev a.env.dma (u16 skb'.headlen + edmaTxPrehdrSize) .toDevice]) hpayload
    constructor
    · intro hkept _
      exact ⟨hbusy, fun _ => hgiven.mp ((hkept _ hr).2 (by simp))⟩
    · intro hfree r hr'
      cases hr.symm.trans hr'
      exact ⟨fun h => NetdevTx.noConfusion h, fun _ => hgiven.mpr ((hfree hadm).2 hdma)⟩

/-- A packet that has been handed back so far is the packet that was offered first. -/
theorem retryStep_payload {payload : List (BitVec 8)} {skb p : SkBuff} {a : Offer}
    (hpayload : skb.payload = payload) (hfree : FreeSlot skb a)
    (hstep : retryStep skb a = some p) : p.payload = payload := by
  have hkept := (xmitKept_iff skb a).mpr hfree
  unfold retryStep at hstep
  split at hstep
  · rename_i r hr
    split at hstep
    · rename_i hbusy
      cases hstep
      exact ((hkept r hr).1 hbusy).payload.trans hpayload
    · cases hstep
  · cases hstep

/-- Whatever the rings and the store are at each offer, a packet is handed back as it came and
    given to the hardware as it was exactly where every offer that gets past the capacity test
    finds a free slot, and a packet that is mapped fits the length field. -/
theorem xmitRetry_kept_iff (skb : SkBuff) (as : List Offer) :
    StepsMeet retryStep (XmitKept skb.payload) skb as ↔ StepsMeet retryStep FreeSlot skb as :=
  stepsMeet_congr (I := fun p => p.payload = skb.payload)
    (fun p a hp => hp ▸ xmitKept_iff p a) (fun _ _ _ => retryStep_payload) rfl

/-- 128 packets are taken by the hardware and none is completed: the ring is empty and the
    store is full. -/
def fillStore : List DmaLabel :=
  (List.range edmaRingSize).flatMap fun i =>
    [.xmit port1Dev (packetOf i (List.replicate 14 0#8)) 32#32, .take]

/-- The packet that comes next. -/
def nextPacket : SkBuff := packetOf edmaRingSize (List.replicate 14 0#8)

/-- A new head can be had, and the mapping succeeds. -/
def ample : XmitEnv := ⟨some 4096, 4096#32⟩

/-- With every slot occupied there are free descriptors, and one completion frees a slot. -/
theorem fillStore_end : ∃ u v,
    run (dmaStep (BitVec.ofNat 32) 0 0) (.start idleEdma) fillStore = some u ∧
    run (dmaStep (BitVec.ofNat 32) 0 0) u [.post 0#32 0#32, .clean] = some v ∧
    (¬ TxdescFull u.ehw 0 ∧ StoreBusy u.ehw 0 ∧ u.ehw.txdescRings = 1) ∧
    ¬ TxdescFull v.ehw 0 ∧ ¬ StoreBusy v.ehw 0 ∧ v.ehw.txSlot 0 = 0 ∧ v.ehw.txdescRings = 1 := by
  have hrun : (run (dmaStep (BitVec.ofNat 32) 0 0) (.start idleEdma) fillStore).map (fun u =>
      (decide (¬ TxdescFull u.ehw 0 ∧ StoreBusy u.ehw 0 ∧ u.ehw.txdescRings = 1),
        (run (dmaStep (BitVec.ofNat 32) 0 0) u [.post 0#32 0#32, .clean]).map fun v =>
          decide (¬ TxdescFull v.ehw 0 ∧ ¬ StoreBusy v.ehw 0 ∧ v.ehw.txSlot 0 = 0 ∧
            v.ehw.txdescRings = 1))) = some (true, some true) := by decide +kernel
  obtain ⟨u, hu, hpair⟩ := Option.map_eq_some_iff.mp hrun
  obtain ⟨hfull, hreaped⟩ := Prod.mk.inj hpair
  obtain ⟨v, hv, hfree⟩ := Option.map_eq_some_iff.mp hreaped
  exact ⟨u, v, hu, hv, of_decide_eq_true hfull, of_decide_eq_true hfree⟩

/-- The packet that comes next is handed back with a preheader, and goes out with two when it
    is offered again after a completion has been reaped. -/
theorem busyPacket_grown : ∃ u v p r,
    run (dmaStep (BitVec.ofNat 32) 0 0) (.start idleEdma) fillStore = some u ∧
    run (dmaStep (BitVec.ofNat 32) 0 0) u [.post 0#32 0#32, .clean] = some v ∧
    retryStep nextPacket ⟨u.ehw, port1Dev, ample⟩ = some p ∧
    Offer.xmit ⟨v.ehw, port1Dev, ample⟩ p = .ok r ∧ r.ret = .ok ∧
    r.skb.payload = (slotPreheader port1Dev 0).bytes ++ ((edmaTxPreheader port1Dev).bytes ++
      nextPacket.payload) ∧
    ¬ StepsMeet retryStep (XmitKept nextPacket.payload) nextPacket
      [⟨u.ehw, port1Dev, ample⟩, ⟨v.ehw, port1Dev, ample⟩] := by
  obtain ⟨u, v, hu, hv, ⟨hroom, hbusy, hrings⟩, hroom', hfree, hslot, hrings'⟩ := fillStore_end
  have hring (ehw : EdmaHw) (skb : SkBuff) (h : ehw.txdescRings = 1) :
      Offer.ring ⟨ehw, port1Dev, ample⟩ skb = 0 := by
    simp [Offer.ring, edmaTxRing, h]
  have hprep : edmaIfXmitPrepare port1Dev nextPacket ample = some nextPacket := by decide
  have hprep' : edmaIfXmitPrepare port1Dev (preheadered port1Dev nextPacket) ample =
      some ((preheadered port1Dev nextPacket).expandHead edmaTxPrehdrSize 4096) := by decide
  have hfirst : Offer.xmit ⟨u.ehw, port1Dev, ample⟩ nextPacket = .ok ⟨.busy, u.ehw.xmitRead 0,
      preheadered port1Dev nextPacket, port1Dev.stopQueue, []⟩ := by
    apply xmit_desc hprep
    rw [hring _ _ hrings]
    exact edmaRingXmit_storeBusy (Nat.le_refl _) hroom hbusy
  obtain ⟨r, hr, hret, hpayload⟩ : ∃ r, Offer.xmit ⟨v.ehw, port1Dev, ample⟩
      (preheadered port1Dev nextPacket) = .ok r ∧ r.ret = .ok ∧
      r.skb.payload = (slotPreheader port1Dev 0).bytes ++ ((edmaTxPreheader port1Dev).bytes ++
        nextPacket.payload) := by
    have hpub := @edmaRingXmit_published _ port1Dev
      ((preheadered port1Dev nextPacket).expandHead edmaTxPrehdrSize 4096) _ ample.dma (by decide)
        hroom' hfree (by decide)
    rw [hslot] at hpub
    refine ⟨_, xmit_ok hprep' ((congrArg (fun t => edmaRingXmit _ _ _ t _)
      (hring _ _ hrings')).trans hpub), rfl, ?_⟩
    simp only [framed, preheadered, SkBuff.expandHead]
  refine ⟨u, v, _, r, hu, hv, ?_, hr, hret, hpayload, fun hmeet => ?_⟩
  · simp [retryStep, hfirst]
  · have hadm : Admitted nextPacket ⟨u.ehw, port1Dev, ample⟩ := by
      refine ⟨⟨_, hprep, Nat.le_refl _⟩, ?_⟩
      rw [hring _ _ hrings]
      exact hroom
    have hslotFree := ((xmitKept_iff _ _).mp hmeet.1 hadm).1
    rw [hring _ _ hrings] at hslotFree
    exact hslotFree hbusy

end NssDp.Edma
