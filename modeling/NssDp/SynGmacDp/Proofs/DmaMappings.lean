import NssDp.Misc.Pairing
import NssDp.SynGmacDp.Proofs.RingCleanup
import NssDp.SynGmacDp.Proofs.TxLength

/-!
# The DMA mappings of a Synopsys port

A mapping is made for the platform device, with the length of the buffer. The completion unmaps
for the same device, with the length of the first field of the descriptor; the receive poll and
the cleanup unmap for the network device. The history of calls is settled against what is
mapped: in a run that takes none of the steps that go wrong, the mappings are those of the busy
descriptors.
-/

namespace NssDp.SynGmacDp

open Lts Cyclic Pairing Word

/-- A mapping, with all that `dma_map_single` is given. -/
structure DmaMapping where
  dev : DmaDev
  addr : BitVec 32
  len : Nat
  dir : DmaDir
  deriving DecidableEq, Repr

/-- What a call does to the mappings. -/
def DpCall.mapping : DpCall → Act DmaMapping
  | .rx (.dmaMapSingle dev addr len dir) => .acquire ⟨dev, addr, len, dir⟩
  | .rx (.dmaUnmapSingle dev addr len dir) => .release ⟨dev, addr, len, dir⟩
  | .tx (.dmaMapSingle dev addr len dir) => .acquire ⟨dev, addr, len, dir⟩
  | .tx (.dmaUnmapSingle dev addr len dir) => .release ⟨dev, addr, len, dir⟩
  | _ => .neither

/-- Every unmapping so far was of something mapped, with the same device, address, length and
    direction, and a cleanup has left nothing mapped. -/
def MappingsSettled (s : RingsRun) : Prop :=
  ∃ held, settle DpCall.mapping 0 s.calls = some held ∧ (s.phase = .cleaned → held = 0)

/-- The receive poll finds no descriptor given back, the completion none of a frame longer than
    one length field takes, and the cleanup both rings empty. -/
def StepMatches (s : RingsRun) (a : RingsLabel) : Prop :=
  match a with
  | .rx _ => ∀ i ∈ s.rx.busyWindow, (s.rx.rxDesc i).isDescOwnedByDma = true
  | .complete => ∀ i ∈ s.tx.busyWindow, (s.tx.txDesc i).isDescOwnedByDma = false →
      ∀ skb ∈ s.tx.txSkbList i, skb.len ≤ 0x1FFF
  | .cleanup => s.rx.busyRxDesc = 0 ∧ s.tx.busyTxDesc = 0
  | _ => True

instance (s : RingsRun) : ∀ a, Decidable (StepMatches s a)
  | .rx _ => inferInstanceAs (Decidable (∀ i ∈ s.rx.busyWindow,
      (s.rx.rxDesc i).isDescOwnedByDma = true))
  | .complete => inferInstanceAs (Decidable (∀ i ∈ s.tx.busyWindow,
      (s.tx.txDesc i).isDescOwnedByDma = false → ∀ skb ∈ s.tx.txSkbList i, skb.len ≤ 0x1FFF))
  | .cleanup => inferInstanceAs (Decidable (s.rx.busyRxDesc = 0 ∧ s.tx.busyTxDesc = 0))
  | .refill _ => .isTrue trivial
  | .tx .. => .isTrue trivial
  | .dmaReceive _ => .isTrue trivial
  | .dmaRelease _ => .isTrue trivial

/-- The mappings of the posted buffers. -/
def rxMappings (info : SynDpRxInfo) : Multiset DmaMapping :=
  info.busyWindow.map fun i =>
    (⟨.pdev, (info.rxDesc i).buffer1, synDpMiniJumboFrameMtu, .fromDevice⟩ : DmaMapping)

/-- The mapping of the frame in a slot. -/
def txMapping (info : SynDpTxInfo) (i : Nat) : DmaMapping :=
  ⟨.pdev, (info.txDesc i).buffer1, ((info.txSkbList i).map SkBuff.len).getD 0, .toDevice⟩

/-- The mappings of the frames in the transmit ring. -/
def txMappings (info : SynDpTxInfo) : Multiset DmaMapping :=
  info.busyWindow.map (txMapping info)

/-- A reading that a write keeps at its own place is kept everywhere. -/
theorem apply_update_of_eq {β γ : Type*} {g : Nat → β} {f : β → γ} {j : Nat} {v : β}
    (h : f v = f (g j)) (i : Nat) : f (Function.update g j v i) = f (g i) := by
  by_cases hsame : i = j
  · rw [hsame, Function.update_self, h]
  · rw [Function.update_of_ne hsame]

namespace RxRingInv

variable {info : SynDpRxInfo}

theorem rxMappings_push (h : RxRingInv info) (hroom : info.busyRxDesc < synDpRxDescSize)
    (skb : RxSkb) (dmaAddr : BitVec 32) : rxMappings (pushRx info skb dmaAddr) =
      ⟨.pdev, dmaAddr, synDpMiniJumboFrameMtu, .fromDevice⟩ ::ₘ rxMappings info := by
  have hnew : (pushRx info skb dmaAddr).rxDesc info.rxNext =
      postedDesc (info.rxDesc info.rxNext) dmaAddr := Function.update_self _ _ _
  have hsame : ∀ i ∈ info.busyWindow, (pushRx info skb dmaAddr).rxDesc i = info.rxDesc i :=
    fun i hi => Function.update_of_ne (ne_of_mem_of_not_mem hi (h.next_notMem hroom)) _ _
  rw [rxMappings, h.busyWindow_push, List.map_append, List.map_singleton, hnew,
    ← Multiset.coe_add, Multiset.coe_singleton, Multiset.add_comm, Multiset.singleton_add,
      rxMappings]
  congr 2
  apply List.map_congr_left
  intro i hi
  rw [hsame i hi]

/-- A report of the engine leaves the addresses alone. -/
theorem rxMappings_receive {wb : RxReport} {info' : SynDpRxInfo}
    (hrel : dmaReceive info wb = some info') : rxMappings info' = rxMappings info := by
  obtain ⟨j, -, rfl⟩ := dmaReceive_eq hrel
  refine congrArg Multiset.ofList (List.map_congr_left ?_)
  intro i _
  have haddr : (Function.update info.rxDesc j ((info.rxDesc j).writeBackRx wb) i).buffer1 =
      (info.rxDesc i).buffer1 :=
    apply_update_of_eq (f := DmaDesc.buffer1) (v := (info.rxDesc j).writeBackRx wb) rfl i
  rw [← haddr]

/-- A receive poll that finds no descriptor given back does nothing. -/
theorem rx_idle (h : RxRingInv info)
    (howned : ∀ i ∈ info.busyWindow, (info.rxDesc i).isDescOwnedByDma = true) (budget : Int) :
    ∃ ret, synDpRx ⟨info, []⟩ budget = .ok (ret, ⟨info, []⟩) := by
  unfold synDpRx
  split
  · exact ⟨0, rfl⟩
  · rename_i hbusy
    obtain ⟨turns, hturns⟩ :
        ∃ turns, (max 1 (min (i32 info.busyRxDesc) budget)).toNat = turns + 1 :=
      Nat.exists_eq_succ_of_ne_zero (by omega)
    have hfirst : (info.rxDesc info.rxBusyDesc).isDescOwnedByDma = true := by
      rw [h.busyDesc]
      exact howned _ (h.base_mem (Nat.pos_of_ne_zero hbusy))
    simp only [hturns, rxLoop, hfirst, if_true]
    exact ⟨_, rfl⟩

end RxRingInv

namespace TxRingInv

variable {info : SynDpTxInfo}

theorem setTxDesc_buffer1 (txdesc : DmaDesc) (buffer1 length1 : BitVec 32) (offload : Bool)
    (txCntl setDma : BitVec 32) :
    (setTxDesc txdesc buffer1 length1 offload txCntl setDma).buffer1 = buffer1 := by
  cases offload with
  | false => rfl
  | true => rfl

theorem txMappings_push (h : TxRingInv info) (hroom : info.busyTxDesc < synDpTxDescSize)
    (skb : SkBuff) (dmaAddr : BitVec 32) : txMappings (pushTx info skb dmaAddr) =
      ⟨.pdev, dmaAddr, skb.len, .toDevice⟩ ::ₘ txMappings info := by
  have hdesc : ((pushTx info skb dmaAddr).txDesc info.txNext).buffer1 = dmaAddr := by
    simp only [pushTx, Function.update_self, setTxDesc_buffer1]
  have hskb : (pushTx info skb dmaAddr).txSkbList info.txNext = some skb :=
    Function.update_self _ _ _
  have hnew : txMapping (pushTx info skb dmaAddr) info.txNext =
      ⟨.pdev, dmaAddr, skb.len, .toDevice⟩ := by
    rw [txMapping, hdesc, hskb]
    rfl
  rw [txMappings, h.busyWindow_push, List.map_append, List.map_singleton, hnew,
    ← Multiset.coe_add, Multiset.coe_singleton, Multiset.add_comm, Multiset.singleton_add,
      txMappings]
  congr 2
  apply List.map_congr_left
  intro i hi
  have hne : i ≠ info.txNext := ne_of_mem_of_not_mem hi (h.next_notMem hroom)
  simp only [txMapping, pushTx, Function.update_of_ne hne]

theorem txMappings_pop (h : TxRingInv info) (hbusy : 0 < info.busyTxDesc) (stats : TxStats) :
    txMappings info = txMapping info info.txBusy ::ₘ txMappings (popTx info stats) := by
  rw [txMappings, h.busyWindow_pop hbusy stats, List.map_cons, ← Multiset.cons_coe, txMappings]
  congr 2
  apply List.map_congr_left
  intro i hi
  obtain ⟨-, hdesc, hskb⟩ := h.pop_other hbusy stats hi
  rw [txMapping, txMapping, hdesc, hskb]

/-- A write-back of the engine leaves the addresses alone. -/
theorem txMappings_release {wb : BitVec 32} {info' : SynDpTxInfo}
    (hrel : dmaRelease info wb = some info') : txMappings info' = txMappings info := by
  obtain ⟨j, -, rfl⟩ := dmaRelease_eq hrel
  refine congrArg Multiset.ofList (List.map_congr_left ?_)
  intro i _
  have haddr : (Function.update info.txDesc j ((info.txDesc j).writeBack wb) i).buffer1 =
      (info.txDesc i).buffer1 :=
    apply_update_of_eq (f := DmaDesc.buffer1) (v := (info.txDesc j).writeBack wb) rfl i
  rw [txMapping, txMapping, ← haddr]

end TxRingInv

/-- What the completion still has to find: of the descriptors given back, no frame is too long
    for one length field. -/
def ShortFrames (info : SynDpTxInfo) : Prop :=
  ∀ i ∈ info.busyWindow, (info.txDesc i).isDescOwnedByDma = false →
    ∀ skb ∈ info.txSkbList i, skb.len ≤ 0x1FFF

/-- While the rings are in use, the mappings of the busy descriptors are what is held. -/
structure HeldMappings (s : RingsRun) : Prop where
  lengths : TxLengths s.tx
  held : settle DpCall.mapping 0 s.calls = some (txMappings s.tx + rxMappings s.rx)

/-- The refill of a port stands at `port`, with the mappings of what it has posted held. -/
def RxSettled (s : RingsRun) (port : RxPort) : Prop :=
  settle DpCall.mapping 0 (s.calls ++ port.events.map .rx) =
    some (txMappings s.tx + rxMappings port.info)

namespace RxSettled

variable {s : RingsRun} {port : RxPort}

theorem push (h : RxSettled s port) (hring : RxRingInv port.info)
    (hroom : port.info.busyRxDesc < synDpRxDescSize) (skb : RxSkb) (dmaAddr : BitVec 32) :
    RxSettled s ⟨pushRx port.info skb dmaAddr, port.events ++ [.allocSkb skb,
      .dmaMapSingle .pdev dmaAddr synDpMiniJumboFrameMtu .fromDevice]⟩ := by
  rw [RxSettled, hring.rxMappings_push hroom, Multiset.add_cons, List.map_append,
    ← List.append_assoc, settle_append_some h]
  rfl

theorem unmapped (h : RxSettled s port) (skb : RxSkb) :
    RxSettled s (port.emit [.allocSkb skb, .devKfreeSkb skb]) := by
  rw [RxSettled, RxPort.emit, List.map_append, ← List.append_assoc, settle_append_some h]
  rfl

end RxSettled

/-- The completion of a port stands at `tx`, with the mappings of the frames left held. -/
structure TxSettled (s : RingsRun) (tx : SynDpTxInfo) (events : List KernelEvent) : Prop where
  lengths : TxLengths tx
  short : ShortFrames tx
  held : settle DpCall.mapping 0 (s.calls ++ events.map .tx) =
    some (txMappings tx + rxMappings s.rx)

/-- The oldest frame is unmapped with the length it was mapped with. -/
theorem TxSettled.pop {s : RingsRun} {tx : SynDpTxInfo} {events : List KernelEvent} {skb : SkBuff}
    (h : TxSettled s tx events) (hring : TxRingInv tx) (hbusy : 0 < tx.busyTxDesc)
    (hskb : tx.txSkbList tx.txBusy = some skb)
    (howned : (tx.txDesc tx.txBusy).isDescOwnedByDma = false) (stats : TxStats) :
    TxSettled s (popTx tx stats) (events ++ completionCalls tx skb) := by
  have hbase := hring.base_mem hbusy
  have hlen : skb.len ≤ 0x1FFF := h.short _ hbase howned skb hskb
  have hsize : (tx.txDesc tx.txBusy).size1 = skb.len := ((h.lengths _ hbase skb hskb).small hlen).1
  have hmapping : txMapping tx tx.txBusy =
      ⟨.pdev, (tx.txDesc tx.txBusy).buffer1, skb.len, .toDevice⟩ := by
    rw [txMapping, hskb]
    rfl
  have hunmap : DpCall.mapping (.tx (.dmaUnmapSingle .pdev (tx.txDesc tx.txBusy).buffer1
      skb.len .toDevice)) =
        .release ⟨.pdev, (tx.txDesc tx.txBusy).buffer1, skb.len, .toDevice⟩ := rfl
  refine ⟨hring.txLengths_pop hbusy h.lengths stats, ?_, ?_⟩
  · intro i hi
    obtain ⟨hmem, hdesc, hlist⟩ := hring.pop_other hbusy stats hi
    rw [hdesc, hlist]
    exact h.short i hmem
  · have hheld := h.held
    rw [hring.txMappings_pop hbusy stats, Multiset.cons_add, hmapping] at hheld
    rw [List.map_append, ← List.append_assoc, settle_append_some hheld, completionCalls, hsize,
      List.map_cons, settle_release hunmap, if_pos (Multiset.mem_cons_self _ _),
      Multiset.erase_cons_head]
    rfl

namespace HeldMappings

variable {s : RingsRun}

/-- The refill maps each buffer it posts. -/
theorem refill (hm : HeldMappings s) (h : RingsInv s) (allocs : List RxAlloc) :
    ∃ port, synDpRxRefill ⟨s.rx, []⟩ allocs = .ok port ∧ RxSettled s port := by
  have hstart : RxSettled s ⟨s.rx, []⟩ := by
    rw [RxSettled, List.map_nil, List.append_nil]
    exact hm.held
  obtain ⟨port, heq, -, hport⟩ := RxRingInv.refill_rule (Q := fun port _ => RxSettled s port)
    (fun _ skb dmaAddr _ hring hroom hport => hport.push hring hroom skb dmaAddr)
    (fun _ skb _ _ hport => hport.unmapped skb) (fun _ _ hport => hport) allocs h.rx hstart
  exact ⟨port, heq, hport⟩

/-- The completion unmaps what was mapped for each frame that one length field takes. -/
theorem complete (hm : HeldMappings s) (h : RingsInv s) (hshort : ShortFrames s.tx) :
    ∃ tx events, synDpProcessTxComplete s.tx = .ok (tx, events) ∧ TxSettled s tx events := by
  have hstart : TxSettled s s.tx [] := by
    refine ⟨hm.lengths, hshort, ?_⟩
    rw [List.map_nil, List.append_nil]
    exact hm.held
  obtain ⟨tx, events, heq, -, hsettled⟩ := h.tx.processTxComplete_rule
    (P := fun tx events => TxSettled s tx events)
    (fun _ _ _ stats hring hbusy hskb howned hP => hP.pop hring hbusy hskb howned stats) [] hstart
  exact ⟨tx, events, heq, hsettled⟩

/-- A cleanup of empty rings makes no call, and nothing is mapped. -/
theorem cleanup (hm : HeldMappings s) (hrx : s.rx.busyRxDesc = 0) (htx : s.tx.busyTxDesc = 0) :
    settle DpCall.mapping 0 (s.calls ++ cleanupCalls s.rx s.tx (synDpCleanupRings s.rx s.tx)) =
      some 0 := by
  have hnone : cleanupCalls s.rx s.tx (synDpCleanupRings s.rx s.tx) = [] := by
    simp only [cleanupCalls, synDpCleanupRings, hrx, htx, cleanupLoop, List.flatMap_nil,
      List.map_nil, List.append_nil]
  have hrxNone : rxMappings s.rx = 0 := by
    rw [rxMappings, SynDpRxInfo.busyWindow, hrx]
    rfl
  have htxNone : txMappings s.tx = 0 := by
    rw [txMappings, SynDpTxInfo.busyWindow, htx]
    rfl
  rw [hnone, List.append_nil, hm.held, hrxNone, htxNone, Multiset.add_zero]

/-- A step of those that match leaves the rings in use with their mappings held, or is a
    cleanup that has nothing to unmap. -/
theorem step (hm : HeldMappings s) (h : RingsInv s) {a : RingsLabel} {t : RingsRun}
    (hmatches : StepMatches s a) (hstep : ringsStep s a = some t) :
    (t.phase = .inUse ∧ HeldMappings t) ∨
      (t.phase = .cleaned ∧ settle DpCall.mapping 0 t.calls = some 0) := by
  unfold ringsStep at hstep
  split at hstep
  · cases hstep
  · rename_i hphase
    rw [not_not] at hphase
    cases a with
    | refill allocs =>
      obtain ⟨port, heq, hport⟩ := hm.refill h allocs
      simp only [heq, RingsRun.ofRx] at hstep
      cases hstep
      exact Or.inl ⟨hphase, hm.lengths, hport⟩
    | rx budget =>
      obtain ⟨ret, heq⟩ := h.rx.rx_idle hmatches budget
      simp only [heq, RingsRun.ofRx, Except.map] at hstep
      cases hstep
      refine Or.inl ⟨hphase, hm.lengths, ?_⟩
      rw [List.map_nil, List.append_nil]
      exact hm.held
    | tx skb dma =>
      by_cases hok : s.tx.busyTxDesc < synDpTxDescSize ∧ dma.isSome = true
      · obtain ⟨hroom, hdma⟩ := hok
        obtain ⟨dmaAddr, rfl⟩ := Option.isSome_iff_exists.mp hdma
        simp only [h.tx.tx_eq_push hroom] at hstep
        cases hstep
        refine Or.inl ⟨hphase, h.tx.txLengths_push hroom hm.lengths skb dmaAddr, ?_⟩
        rw [settle_append_some hm.held, h.tx.txMappings_push hroom, Multiset.cons_add]
        rfl
      · simp only [h.tx.tx_eq_refuse skb dma hok] at hstep
        cases hstep
        refine Or.inl ⟨hphase, hm.lengths, ?_⟩
        rw [List.map_nil, List.append_nil]
        exact hm.held
    | complete =>
      obtain ⟨tx, events, heq, hsettled⟩ := hm.complete h hmatches
      simp only [heq] at hstep
      cases hstep
      exact Or.inl ⟨hphase, hsettled.lengths, hsettled.held⟩
    | dmaReceive wb =>
      obtain ⟨rx, hrel, rfl⟩ := Option.map_eq_some_iff.mp hstep
      refine Or.inl ⟨hphase, hm.lengths, ?_⟩
      rw [RxRingInv.rxMappings_receive hrel]
      exact hm.held
    | dmaRelease wb =>
      obtain ⟨tx, hrel, rfl⟩ := Option.map_eq_some_iff.mp hstep
      refine Or.inl ⟨hphase, txLengths_release hm.lengths hrel, ?_⟩
      rw [TxRingInv.txMappings_release hrel]
      exact hm.held
    | cleanup =>
      obtain ⟨hrx, htx⟩ := hmatches
      cases hstep
      exact Or.inr ⟨rfl, hm.cleanup hrx htx⟩

end HeldMappings

/-- What the steps that match keep. -/
structure MappingsInv (s : RingsRun) : Prop where
  settled : MappingsSettled s
  inUse : s.phase = .inUse → RingsInv s ∧ HeldMappings s

theorem MappingsInv.start {rx : SynDpRxInfo} {tx : SynDpTxInfo} {rxOk txOk : Bool}
    (hrx : synDpSetupRxDescQueue SynDpRxInfo.zero synDpRxDescSize .ringMode rxOk = .ok (0, rx))
    (htx : synDpSetupTxDescQueue SynDpTxInfo.zero synDpTxDescSize .ringMode txOk = .ok (0, tx)) :
    MappingsInv (.start rx tx) := by
  have hrxNone : rxMappings rx = 0 := by
    rw [synDpSetupRxDescQueue_ok hrx]
    rfl
  have htxNone : txMappings tx = 0 := by
    rw [synDpSetupTxDescQueue_ok htx]
    rfl
  have hlengths : TxLengths tx := by
    rw [synDpSetupTxDescQueue_ok htx]
    intro i hi
    cases hi
  refine ⟨⟨0, rfl, fun _ => rfl⟩, fun _ => ⟨RingsInv.start hrx htx, hlengths, ?_⟩⟩
  show some 0 = some (txMappings tx + rxMappings rx)
  rw [hrxNone, htxNone, Multiset.add_zero]

theorem MappingsInv.step {s t : RingsRun} {a : RingsLabel} (h : MappingsInv s)
    (hmatches : StepMatches s a) (hstep : ringsStep s a = some t) : MappingsInv t := by
  obtain ⟨hrings, hm⟩ := h.inUse (ringsStep_inUse hstep)
  rcases hm.step hrings hmatches hstep with ⟨hphase, ht⟩ | ⟨hphase, hnone⟩
  · refine ⟨⟨_, ht.held, ?_⟩, fun _ => ⟨hrings.step hstep hphase, ht⟩⟩
    intro hcleaned
    rw [hphase] at hcleaned
    cases hcleaned
  · refine ⟨⟨0, hnone, fun _ => rfl⟩, ?_⟩
    intro huse
    rw [hphase] at huse
    cases huse

/-- In every run from a setup whose receive polls find nothing given back, whose completions
    find no frame that needs the second length field, and whose cleanup finds both rings empty:
    in every state each unmapping matches a mapping, and after the cleanup none is left. -/
theorem ringsRun_settled {rx : SynDpRxInfo} {tx : SynDpTxInfo} {rxOk txOk : Bool}
    (hrx : synDpSetupRxDescQueue SynDpRxInfo.zero synDpRxDescSize .ringMode rxOk = .ok (0, rx))
    (htx : synDpSetupTxDescQueue SynDpTxInfo.zero synDpTxDescSize .ringMode txOk = .ok (0, tx))
    {as : List RingsLabel} (hmeet : StepsMeet ringsStep StepMatches (.start rx tx) as) :
    Always ringsStep MappingsSettled (.start rx tx) as :=
  always_of_stepsMeet (fun _ h => h.settled) (fun _ _ _ h hC hstep => h.step hC hstep)
    (MappingsInv.start hrx htx) hmeet

/-- No buffer can be posted; a frame is sent and completed, and the rings are cleaned up. -/
def sendOne : List RingsLabel :=
  [.refill [], .tx (byteFrame 0) (some 0x1000#32), .dmaRelease 0#32, .complete, .rx 64, .cleanup]

theorem ringsRun_settled_sendOne : ∃ s,
    run ringsStep (.start emptyRxRing emptyRing) sendOne = some s ∧ s.phase = .cleaned ∧
      Always ringsStep MappingsSettled (.start emptyRxRing emptyRing) sendOne := by
  have hphase : ((run ringsStep (.start emptyRxRing emptyRing) sendOne).map RingsRun.phase) =
      some .cleaned := by
    decide +kernel
  have hmeet : StepsMeet ringsStep StepMatches (.start emptyRxRing emptyRing) sendOne := by
    decide +kernel
  obtain ⟨s, hrun, hcleaned⟩ := Option.map_eq_some_iff.mp hphase
  exact ⟨s, hrun, hcleaned, ringsRun_settled emptyRxRing_setup emptyRing_setup hmeet⟩

/-- A buffer that has been mapped for the platform device is unmapped for the network device,
    by the poll that delivers it and by the cleanup of a ring it is posted in. -/
theorem ringsRun_settled_fails :
    (∃ s, run ringsStep (.start emptyRxRing emptyRing)
        [.refill [.mapped ⟨0, 2000⟩ 0x1000#32], .dmaReceive ⟨0x00400300#32, 0#32, 0#32, 0#32⟩,
          .rx 64] = some s ∧ ¬ MappingsSettled s) ∧
      ∃ s, run ringsStep (.start emptyRxRing emptyRing)
        [.refill [.mapped ⟨0, 2000⟩ 0x1000#32], .cleanup] = some s ∧ ¬ MappingsSettled s := by
  have hnone : ∀ {as : List RingsLabel},
      ((run ringsStep (.start emptyRxRing emptyRing) as).map fun s =>
        settle DpCall.mapping 0 s.calls) = some none →
      ∃ s, run ringsStep (.start emptyRxRing emptyRing) as = some s ∧ ¬ MappingsSettled s := by
    intro as h
    obtain ⟨s, hrun, hsettle⟩ := Option.map_eq_some_iff.mp h
    refine ⟨s, hrun, ?_⟩
    rintro ⟨held, hheld, -⟩
    rw [hsettle] at hheld
    cases hheld
  exact ⟨hnone (by decide +kernel), hnone (by decide +kernel)⟩

end NssDp.SynGmacDp
