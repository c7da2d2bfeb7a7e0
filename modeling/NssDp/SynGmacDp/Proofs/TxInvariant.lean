import NssDp.SynGmacDp.TxRx

/-!
# The invariant of the Synopsys transmit ring

`TxRingInv` ties the two indices, the count, the cached descriptor pointers, the skb list and
the descriptor words together. `pushTx` and `popTx` are the only two ways the driver moves
the window of busy descriptors: on a ring that meets the invariant, queueing a frame is a
push as long as a descriptor is free, and a turn of the completion loop is a pop.
-/

namespace NssDp.SynGmacDp

open Cyclic Word

/-- Between two `data_lock` sections: the busy descriptors form a window that starts at
    `tx_busy` and ends before `tx_next`, each one carries a buffer and the last-segment bit,
    every other descriptor is cleared, and only the last ends the ring. -/
structure TxRingInv (info : SynDpTxInfo) : Prop where
  count : info.txDescCount = synDpTxDescSize
  busy_le : info.busyTxDesc ≤ synDpTxDescSize
  base_lt : info.txBusy < synDpTxDescSize
  next : info.txNext = slot synDpTxDescSize info.txBusy info.busyTxDesc
  nextDesc : info.txNextDesc = info.txNext
  busyDesc : info.txBusyDesc = info.txBusy
  held : ∀ i ∈ info.busyWindow, (info.txSkbList i).isSome = true ∧
    (info.txDesc i).status &&& descTxLast = descTxLast
  free : ∀ i < synDpTxDescSize, i ∉ info.busyWindow → (info.txDesc i).length = 0#32 ∧
    (info.txDesc i).status &&& descTxDescEndOfRing = (info.txDesc i).status
  eor : ∀ i < synDpTxDescSize, (info.txDesc i).status &&& descTxDescEndOfRing =
    if i = synDpTxDescSize - 1 then descTxDescEndOfRing else 0#32

/-- A frame goes into the slot at `tx_next`. -/
def pushTx (info : SynDpTxInfo) (skb : SkBuff) (dmaAddr : BitVec 32) : SynDpTxInfo :=
  { info with
    txDesc := Function.update info.txDesc info.txNext
      (setTxDesc (info.txDesc info.txNext) dmaAddr (BitVec.ofNat 32 skb.len) skb.csumPartial
        (descTxLast ||| descTxFirst ||| descTxIntEnable) descOwnByDma)
    txSkbList := Function.update info.txSkbList info.txNext (some skb)
    txNext := (info.txNext + 1) % synDpTxDescSize
    txNextDesc := (info.txNext + 1) % synDpTxDescSize
    busyTxDesc := info.busyTxDesc + 1 }

/-- The slot at `tx_busy` is cleared; `stats` are the counters after it. -/
def popTx (info : SynDpTxInfo) (stats : TxStats) : SynDpTxInfo :=
  { info with
    stats
    txBusy := (info.txBusy + 1) % synDpTxDescSize
    txBusyDesc := (info.txBusy + 1) % synDpTxDescSize
    txSkbList := Function.update info.txSkbList info.txBusy none
    txDesc := Function.update info.txDesc info.txBusy (info.txDesc info.txBusy).resetTx
    busyTxDesc := info.busyTxDesc - 1 }

theorem nextIdx_eq {i : Nat} (hi : i < synDpTxDescSize) :
    nextIdx synDpTxDescSize i = (i + 1) % synDpTxDescSize := by
  have hmask : u32Sub synDpTxDescSize 1 = 2 ^ 7 - 1 := by decide
  have hidx : u32 (i + 1) = i + 1 := u32_of_lt (by unfold synDpTxDescSize at hi; omega)
  rw [nextIdx, hmask, hidx, and_mask]
  rfl

namespace TxRingInv

variable {info : SynDpTxInfo}

theorem busyWindow_eq (h : TxRingInv info) :
    info.busyWindow = window synDpTxDescSize info.txBusy info.busyTxDesc := by
  rw [SynDpTxInfo.busyWindow, h.count]

theorem next_lt (h : TxRingInv info) : info.txNext < synDpTxDescSize := by
  rw [h.next]
  exact slot_lt (by decide) _ _

theorem lt_of_mem (h : TxRingInv info) {i : Nat} (hi : i ∈ info.busyWindow) :
    i < synDpTxDescSize := by
  rw [h.busyWindow_eq] at hi
  exact lt_of_mem_window (by decide) hi

theorem base_mem (h : TxRingInv info) (hbusy : 0 < info.busyTxDesc) :
    info.txBusy ∈ info.busyWindow := by
  rw [h.busyWindow_eq]
  exact mem_window.mpr ⟨0, hbusy, slot_zero h.base_lt⟩

/-- While a descriptor is free, the next one to use is. -/
theorem next_notMem (h : TxRingInv info) (hroom : info.busyTxDesc < synDpTxDescSize) :
    info.txNext ∉ info.busyWindow := by
  rw [h.busyWindow_eq, h.next]
  exact slot_notMem_window hroom

/-- A full ring has wrapped round: the next descriptor is the oldest busy one. -/
theorem next_of_full (h : TxRingInv info) (hfull : info.busyTxDesc = synDpTxDescSize) :
    info.txNext = info.txBusy := by
  rw [h.next, hfull, slot, Nat.add_mod_right, Nat.mod_eq_of_lt h.base_lt]

/-- The capacity test is a test for a free descriptor. -/
theorem txDescAvailable_iff (h : TxRingInv info) :
    txDescAvailable info = true ↔ info.busyTxDesc < synDpTxDescSize := by
  have hsub := u32Sub_of_le h.busy_le (by decide)
  rw [txDescAvailable, hsub]
  simp only [Bool.not_eq_true', decide_eq_false_iff_not]
  omega

/-- The two ways to say which slots a push adds and a pop removes. -/
theorem busyWindow_push (h : TxRingInv info) (skb : SkBuff) (dmaAddr : BitVec 32) :
    (pushTx info skb dmaAddr).busyWindow = info.busyWindow ++ [info.txNext] := by
  rw [h.busyWindow_eq, SynDpTxInfo.busyWindow]
  simp only [pushTx, h.count]
  rw [window_succ, ← h.next]

theorem busyWindow_pop (h : TxRingInv info) (hbusy : 0 < info.busyTxDesc) (stats : TxStats) :
    info.busyWindow = info.txBusy :: (popTx info stats).busyWindow := by
  obtain ⟨k, hk⟩ : ∃ k, info.busyTxDesc = k + 1 := ⟨info.busyTxDesc - 1, by omega⟩
  rw [h.busyWindow_eq, SynDpTxInfo.busyWindow]
  simp only [popTx, h.count, hk, Nat.add_sub_cancel]
  exact window_succ_cons h.base_lt k

theorem nodup_busyWindow (h : TxRingInv info) : info.busyWindow.Nodup := by
  rw [h.busyWindow_eq]
  exact nodup_window h.busy_le

/-- The oldest slot is in no window after its pop. -/
theorem base_notMem_pop (h : TxRingInv info) (hbusy : 0 < info.busyTxDesc) (stats : TxStats) :
    info.txBusy ∉ (popTx info stats).busyWindow := by
  have hnodup := h.nodup_busyWindow
  rw [h.busyWindow_pop hbusy stats, List.nodup_cons] at hnodup
  exact hnodup.1

/-- The slots that are left are not changed by a pop. -/
theorem pop_other (h : TxRingInv info) (hbusy : 0 < info.busyTxDesc) (stats : TxStats) {i : Nat}
    (hi : i ∈ (popTx info stats).busyWindow) : i ∈ info.busyWindow ∧
      (popTx info stats).txDesc i = info.txDesc i ∧
      (popTx info stats).txSkbList i = info.txSkbList i := by
  have hne : i ≠ info.txBusy := ne_of_mem_of_not_mem hi (h.base_notMem_pop hbusy stats)
  refine ⟨?_, Function.update_of_ne hne _ _, Function.update_of_ne hne _ _⟩
  rw [h.busyWindow_pop hbusy stats]
  exact List.mem_cons_of_mem _ hi

end TxRingInv

/-- Outside the checksum and own bits, a queued descriptor shows the old status word and the
    control bits added to it. -/
theorem setTxDesc_masked (txdesc : DmaDesc) (dmaAddr length1 : BitVec 32) (offload : Bool)
    (txCntl : BitVec 32) {m : BitVec 32} (hown : descOwnByDma &&& m = 0#32)
    (hcis : ~~~descTxCisMask &&& m = m) (hcs : descTxCisTcpPseudoCs &&& m = 0#32) :
    (setTxDesc txdesc dmaAddr length1 offload txCntl descOwnByDma).status &&& m =
      (txdesc.status ||| txCntl) &&& m := by
  cases offload with
  | false =>
    simp only [setTxDesc, Bool.false_eq_true, if_false]
    rw [masked_or_of_disjoint hown]
  | true =>
    simp only [setTxDesc, DmaDesc.txChecksumOffloadTcpPseudo, if_true]
    rw [masked_or_of_disjoint hown, masked_or_of_disjoint hcs, masked_and hcis]

theorem setTxDesc_last (txdesc : DmaDesc) (dmaAddr length1 : BitVec 32) (offload : Bool) :
    (setTxDesc txdesc dmaAddr length1 offload (descTxLast ||| descTxFirst ||| descTxIntEnable)
      descOwnByDma).status &&& descTxLast = descTxLast := by
  rw [setTxDesc_masked _ _ _ _ _ (by decide) (by decide) (by decide)]
  exact masked_or_of_covered (by decide)

theorem setTxDesc_eor (txdesc : DmaDesc) (dmaAddr length1 : BitVec 32) (offload : Bool) :
    (setTxDesc txdesc dmaAddr length1 offload (descTxLast ||| descTxFirst ||| descTxIntEnable)
      descOwnByDma).status &&& descTxDescEndOfRing = txdesc.status &&& descTxDescEndOfRing := by
  rw [setTxDesc_masked _ _ _ _ _ (by decide) (by decide) (by decide)]
  exact masked_or_of_disjoint (by decide)

/-- A queued frame that is not empty leaves a descriptor that is not. -/
theorem setTxDesc_not_empty (txdesc : DmaDesc) (dmaAddr : BitVec 32) {length1 : BitVec 32}
    (offload : Bool) (txCntl setDma : BitVec 32) (hfree : txdesc.length = 0#32)
    (hlen : length1 ≠ 0#32) :
    (setTxDesc txdesc dmaAddr length1 offload txCntl setDma).isDescEmpty = false := by
  have hlength : (setTxDesc txdesc dmaAddr length1 offload txCntl setDma).length =
      if synDpMaxDescBuff < length1 then
        txdesc.length ||| ((synDpMaxDescBuff <<< descSize1Shift) &&& descSize1Mask)
          ||| (((length1 - synDpMaxDescBuff) <<< descSize2Shift) &&& descSize2Mask)
      else txdesc.length ||| ((length1 <<< descSize1Shift) &&& descSize1Mask) := by
    cases offload <;> rfl
  rw [DmaDesc.isDescEmpty, hlength, hfree, beq_eq_false_iff_ne]
  split
  · -- the first length field is full, and the second lies outside its mask
    rw [masked_or_of_disjoint (by
      rw [BitVec.and_assoc, show descSize2Mask &&& descSize1Mask = 0#32 by decide]; simp)]
    decide
  · rename_i hle
    have hsmall : length1.toNat < 2 ^ 13 := by
      simp only [synDpMaxDescBuff, BitVec.lt_def, BitVec.toNat_ofNat] at hle
      omega
    intro hzero
    apply hlen
    have hmod : length1.toNat % 2 ^ 13 = 0 := by
      have hnat := congrArg BitVec.toNat hzero
      simp only [descSize1Shift, BitVec.shiftLeft_zero, BitVec.zero_or, BitVec.and_assoc,
        BitVec.and_self, BitVec.toNat_and] at hnat
      exact (and_mask _ 13).symm.trans hnat
    rw [Nat.mod_eq_of_lt hsmall] at hmod
    exact BitVec.eq_of_toNat_eq hmod

/-- The calls of one turn of the completion loop, which frees `skb`. -/
def completionCalls (info : SynDpTxInfo) (skb : SkBuff) : List KernelEvent :=
  [.dmaUnmapSingle .pdev (info.txDesc info.txBusy).buffer1 (info.txDesc info.txBusy).size1
    .toDevice, .devKfreeSkb skb]

theorem freedSkbs_completionCalls (info : SynDpTxInfo) (skb : SkBuff) :
    freedSkbs (completionCalls info skb) = [skb] := rfl

namespace TxRingInv

variable {info : SynDpTxInfo}

/-- With a descriptor free, queueing reaches no assertion and is a push. -/
theorem queue_eq (h : TxRingInv info) (hroom : info.busyTxDesc < synDpTxDescSize)
    (skb : SkBuff) (dmaAddr : BitVec 32) :
    synDpTxDescQueue info skb dmaAddr = .ok (pushTx info skb dmaAddr) := by
  obtain ⟨hlength, hstatus⟩ := h.free info.txNext h.next_lt (h.next_notMem hroom)
  have hcount : ¬ info.txDescCount < info.busyTxDesc := by
    rw [h.count]
    exact Nat.not_lt.mpr h.busy_le
  have hempty := DmaDesc.isDescEmpty_of_length hlength
  have howned := DmaDesc.not_owned_of_status hstatus
  have hidx : nextIdx info.txDescCount info.txNext = (info.txNext + 1) % synDpTxDescSize := by
    rw [h.count, nextIdx_eq h.next_lt]
  have hbusy : u32 (info.busyTxDesc + 1) = info.busyTxDesc + 1 :=
    u32_of_lt (by unfold synDpTxDescSize at hroom; omega)
  simp only [synDpTxDescQueue, synDpSetTxQptr, hcount, if_false, h.nextDesc, ne_eq,
    not_true_eq_false, hempty, howned, Bool.not_true, Bool.false_eq_true, hidx, hbusy, pushTx]

/-- A full ring of frames that are not empty has no empty descriptor to queue to. -/
theorem queue_full (h : TxRingInv info) (hfull : info.busyTxDesc = synDpTxDescSize)
    (hheld : (info.txDesc info.txBusy).isDescEmpty = false) (skb : SkBuff)
    (dmaAddr : BitVec 32) : synDpTxDescQueue info skb dmaAddr = .error .setTxQptrNotEmpty := by
  have hcount : ¬ info.txDescCount < info.busyTxDesc := by
    rw [h.count]
    exact Nat.not_lt.mpr h.busy_le
  have hnext := h.next_of_full hfull
  simp only [synDpTxDescQueue, synDpSetTxQptr, hcount, if_false, h.nextDesc, ne_eq,
    not_true_eq_false, hnext, hheld, Bool.not_false, if_true]

theorem push (h : TxRingInv info) (hroom : info.busyTxDesc < synDpTxDescSize)
    (skb : SkBuff) (dmaAddr : BitVec 32) : TxRingInv (pushTx info skb dmaAddr) := by
  have hnot := h.next_notMem hroom
  refine ⟨h.count, hroom, h.base_lt, ?_, rfl, h.busyDesc, ?_, ?_, ?_⟩
  · rw [pushTx, h.next]
    exact slot_succ _ _ _
  · intro i hi
    rw [h.busyWindow_push, List.mem_append, List.mem_singleton] at hi
    rcases hi with hi | rfl
    · have hne : i ≠ info.txNext := ne_of_mem_of_not_mem hi hnot
      simpa only [pushTx, Function.update_of_ne hne] using h.held i hi
    · simp only [pushTx, Function.update_self]
      exact ⟨rfl, setTxDesc_last _ _ _ _⟩
  · intro i hlt hi
    rw [h.busyWindow_push, List.mem_append, List.mem_singleton, not_or] at hi
    simpa only [pushTx, Function.update_of_ne hi.2] using h.free i hlt hi.1
  · intro i hlt
    rcases eq_or_ne i info.txNext with rfl | hne
    · simp only [pushTx, Function.update_self, setTxDesc_eor]
      exact h.eor _ hlt
    · simpa only [pushTx, Function.update_of_ne hne] using h.eor i hlt

/-- A frame is accepted when a descriptor is free and it could be mapped. -/
theorem tx_eq_push (h : TxRingInv info) (hroom : info.busyTxDesc < synDpTxDescSize)
    (skb : SkBuff) (dmaAddr : BitVec 32) :
    synDpTx info skb (some dmaAddr) =
      .ok ⟨0, pushTx info skb dmaAddr, [.dmaMapSingle .pdev dmaAddr skb.len .toDevice]⟩ := by
  have havail := h.txDescAvailable_iff.mpr hroom
  simp only [synDpTx, havail, Bool.not_true, Bool.false_eq_true, if_false, h.queue_eq hroom]

/-- Otherwise it is refused, and nothing changes. -/
theorem tx_eq_refuse (h : TxRingInv info) (skb : SkBuff) (dma : Option (BitVec 32))
    (hfail : ¬ (info.busyTxDesc < synDpTxDescSize ∧ dma.isSome = true)) :
    synDpTx info skb dma = .ok ⟨-1, info, []⟩ := by
  by_cases hroom : info.busyTxDesc < synDpTxDescSize
  · cases dma with
    | none =>
      have havail := h.txDescAvailable_iff.mpr hroom
      simp only [synDpTx, havail, Bool.not_true, Bool.false_eq_true, if_false]
    | some dmaAddr => exact (hfail ⟨hroom, rfl⟩).elim
  · have havail : txDescAvailable info = false :=
      Bool.eq_false_iff.mpr fun havail => hroom (h.txDescAvailable_iff.mp havail)
    simp only [synDpTx, havail, Bool.not_false, if_true]

/-- While a descriptor is busy, giving it up reaches no assertion and is a pop. -/
theorem reset_eq (h : TxRingInv info) (hbusy : 0 < info.busyTxDesc) (stats : TxStats) :
    synDpResetTxQptr { info with stats } = .ok (popTx info stats) := by
  have hidx : nextIdx info.txDescCount info.txBusy = (info.txBusy + 1) % synDpTxDescSize := by
    rw [h.count, nextIdx_eq h.base_lt]
  have hsub : u32Sub info.busyTxDesc 1 = info.busyTxDesc - 1 := by
    have hle := h.busy_le
    exact u32Sub_of_le hbusy (by unfold synDpTxDescSize at hle; omega)
  simp only [synDpResetTxQptr, h.busyDesc, ne_eq, not_true_eq_false, if_false, hidx, hsub, popTx]

theorem pop (h : TxRingInv info) (hbusy : 0 < info.busyTxDesc) (stats : TxStats) :
    TxRingInv (popTx info stats) := by
  refine ⟨h.count, ?_, Nat.mod_lt _ (by decide), ?_, h.nextDesc, rfl, ?_, ?_, ?_⟩
  · have hle := h.busy_le
    simp only [popTx]
    omega
  · simp only [popTx]
    rw [h.next, slot_next, show info.busyTxDesc - 1 + 1 = info.busyTxDesc by omega]
  · intro i hi
    obtain ⟨hold, hdesc, hskb⟩ := h.pop_other hbusy stats hi
    rw [hdesc, hskb]
    exact h.held i hold
  · intro i hlt hi
    rcases eq_or_ne i info.txBusy with rfl | hne
    · simp only [popTx, Function.update_self, DmaDesc.resetTx_length, DmaDesc.resetTx_status,
        BitVec.and_assoc, BitVec.and_self, and_self]
    · have hout : i ∉ info.busyWindow := by
        rw [h.busyWindow_pop hbusy stats, List.mem_cons, not_or]
        exact ⟨hne, hi⟩
      simpa only [popTx, Function.update_of_ne hne] using h.free i hlt hout
  · intro i hlt
    rcases eq_or_ne i info.txBusy with rfl | hne
    · simp only [popTx, Function.update_self, DmaDesc.resetTx_status, BitVec.and_assoc,
        BitVec.and_self]
      exact h.eor _ hlt
    · simpa only [popTx, Function.update_of_ne hne] using h.eor i hlt

/-- A turn of the completion loop frees the buffer of the oldest busy descriptor and pops
    it. -/
theorem completeOne_eq (h : TxRingInv info) (hbusy : 0 < info.busyTxDesc) :
    ∃ skb stats, info.txSkbList info.txBusy = some skb ∧
      txCompleteOne info = .ok (popTx info stats, completionCalls info skb) := by
  obtain ⟨hsome, hlast⟩ := h.held _ (h.base_mem hbusy)
  obtain ⟨skb, hskb⟩ := Option.isSome_iff_exists.mp hsome
  have hdone : ¬ (info.txDesc info.txBusy).status &&& descTxLast = 0#32 := by
    rw [hlast]
    decide
  have hdesc : info.txDesc info.txBusyDesc = info.txDesc info.txBusy := by rw [h.busyDesc]
  refine ⟨skb, info.stats.txComplete (info.txDesc info.txBusy).status
    (info.txDesc info.txBusy).size1, hskb, ?_⟩
  simp only [txCompleteOne, hdesc, hskb, ne_eq, hdone, not_false_eq_true, if_true,
    h.reset_eq hbusy, completionCalls]

/-- The completion loop reaches no assertion on at most as many turns as descriptors are
    busy, and what every pop keeps holds when it ends. The induction is on the turns left;
    `events` are the calls made before. -/
theorem completeLoop_rule {P : SynDpTxInfo → List KernelEvent → Prop}
    (hpop : ∀ info events skb stats, TxRingInv info → 0 < info.busyTxDesc →
      info.txSkbList info.txBusy = some skb →
      (info.txDesc info.txBusy).isDescOwnedByDma = false → P info events →
      P (popTx info stats) (events ++ completionCalls info skb)) :
    ∀ (turns : Nat) (info : SynDpTxInfo) (events : List KernelEvent), TxRingInv info →
      turns ≤ info.busyTxDesc → P info events → ∃ info' events',
        txCompleteLoop turns info = .ok (info', events') ∧ TxRingInv info' ∧
          P info' (events ++ events') := by
  intro turns
  induction turns with
  | zero => exact fun info events h _ hP => ⟨info, [], rfl, h, by rwa [List.append_nil]⟩
  | succ turns ih =>
    intro info events h hturns hP
    rw [txCompleteLoop, h.busyDesc]
    split
    · exact ⟨info, [], rfl, h, by rwa [List.append_nil]⟩
    · rename_i howned
      rw [Bool.not_eq_true] at howned
      have hbusy : 0 < info.busyTxDesc := by omega
      obtain ⟨skb, stats, hskb, hone⟩ := h.completeOne_eq hbusy
      have hle : turns ≤ (popTx info stats).busyTxDesc := by
        simp only [popTx]
        omega
      obtain ⟨info', rest, hloop, hinv, hP'⟩ := ih (popTx info stats) _ (h.pop hbusy stats) hle
        (hpop info events skb stats h hbusy hskb howned hP)
      refine ⟨info', _, ?_, hinv, by rwa [← List.append_assoc]⟩
      rw [hone]
      simp only [hloop]

/-- The same for the whole of `syn_dp_process_tx_complete`. -/
theorem processTxComplete_rule {P : SynDpTxInfo → List KernelEvent → Prop}
    (hpop : ∀ info events skb stats, TxRingInv info → 0 < info.busyTxDesc →
      info.txSkbList info.txBusy = some skb →
      (info.txDesc info.txBusy).isDescOwnedByDma = false → P info events →
      P (popTx info stats) (events ++ completionCalls info skb))
    (h : TxRingInv info) (events : List KernelEvent) (hP : P info events) :
    ∃ info' events', synDpProcessTxComplete info = .ok (info', events') ∧ TxRingInv info' ∧
      P info' (events ++ events') := by
  rw [synDpProcessTxComplete]
  split
  · exact ⟨info, [], rfl, h, by rwa [List.append_nil]⟩
  · have hsmall : info.busyTxDesc < 2 ^ 31 := Nat.lt_of_le_of_lt h.busy_le (by decide)
    rw [if_pos hsmall]
    exact completeLoop_rule hpop _ info events h (Nat.le_refl _) hP

theorem release (h : TxRingInv info) {wb : BitVec 32} {info' : SynDpTxInfo}
    (hrel : dmaRelease info wb = some info') : TxRingInv info' := by
  obtain ⟨i, hi, rfl⟩ := dmaRelease_eq hrel
  refine ⟨h.count, h.busy_le, h.base_lt, h.next, h.nextDesc, h.busyDesc, ?_, ?_, ?_⟩
  · intro j hj
    obtain ⟨hsome, hlast⟩ := h.held j hj
    refine ⟨hsome, ?_⟩
    rcases eq_or_ne j i with rfl | hne
    · simp only [Function.update_self]
      rw [DmaDesc.writeBack_ctrl _ _ (by decide), hlast]
    · simpa only [Function.update_of_ne hne] using hlast
  · intro j hlt hj
    have hne : j ≠ i := fun heq => hj (heq ▸ hi)
    simpa only [Function.update_of_ne hne] using h.free j hlt hj
  · intro j hlt
    rcases eq_or_ne j i with rfl | hne
    · simp only [Function.update_self]
      rw [DmaDesc.writeBack_ctrl _ _ (by decide)]
      exact h.eor j hlt
    · simpa only [Function.update_of_ne hne] using h.eor j hlt

/-- A setup that succeeds leaves an empty ring. -/
theorem setup {devInfo : SynDpTxInfo} {allocOk : Bool}
    (hsetup : synDpSetupTxDescQueue devInfo synDpTxDescSize .ringMode allocOk = .ok (0, info)) :
    TxRingInv info := by
  rw [synDpSetupTxDescQueue_ok hsetup]
  refine ⟨rfl, Nat.zero_le _, (by decide : 0 < synDpTxDescSize), rfl, rfl, rfl, ?_, ?_, ?_⟩
  · intro i hi
    cases hi
  · intro i _ _
    simp only [txDescInitRing]
    split <;> exact ⟨rfl, by decide⟩
  · intro i _
    simp only [txDescInitRing]
    split <;> decide

end TxRingInv

/-- A frame of one byte. -/
def byteFrame (id : Nat) : SkBuff := ⟨id, 0, 0, [0#8], 0, 0, false, false, false, 0⟩

/-- The ring after `syn_dp_setup_tx_desc_queue` on a zero-filled `dp_info`. -/
def emptyRing : SynDpTxInfo :=
  { SynDpTxInfo.zero with txDescCount := synDpTxDescSize, txDesc := txDescInitRing synDpTxDescSize }

theorem emptyRing_setup : synDpSetupTxDescQueue SynDpTxInfo.zero synDpTxDescSize .ringMode true =
    .ok (0, emptyRing) := rfl

end NssDp.SynGmacDp
