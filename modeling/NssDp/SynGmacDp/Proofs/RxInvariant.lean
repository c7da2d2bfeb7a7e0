import NssDp.SynGmacDp.Proofs.TxInvariant
import NssDp.SynGmacDp.Rx

/-!
# The invariant of the Synopsys receive ring

`RxRingInv` is the counterpart of the invariant of the transmit ring. `pushRx` and `popRx`
are the only two ways the driver moves the window of busy descriptors: on a ring that meets
the invariant, posting a buffer is a push as long as a descriptor is free, and giving up a
descriptor is a pop. Of the length word, which both change, the end-of-ring bit is kept.
-/

namespace NssDp.SynGmacDp

open Cyclic Word

/-- The busy descriptors form a window that starts at `rx_busy` and ends before `rx_next`,
    each one carries a buffer and is not empty, every other descriptor is empty and not owned
    by the engine, and only the last ends the ring. -/
structure RxRingInv (info : SynDpRxInfo) : Prop where
  count : info.rxDescCount = synDpRxDescSize
  busy_le : info.busyRxDesc ≤ synDpRxDescSize
  base_lt : info.rxBusy < synDpRxDescSize
  next : info.rxNext = slot synDpRxDescSize info.rxBusy info.busyRxDesc
  nextDesc : info.rxNextDesc = info.rxNext
  busyDesc : info.rxBusyDesc = info.rxBusy
  held : ∀ i ∈ info.busyWindow, (info.rxSkbList i).isSome = true ∧
    (info.rxDesc i).isDescEmpty = false
  free : ∀ i < synDpRxDescSize, i ∉ info.busyWindow → info.rxSkbList i = none ∧
    (info.rxDesc i).isDescEmpty = true ∧ (info.rxDesc i).isDescOwnedByDma = false
  eor : ∀ i < synDpRxDescSize, (info.rxDesc i).length &&& descRxDescEndOfRing =
    if i = synDpRxDescSize - 1 then descRxDescEndOfRing else 0#32

/-- The descriptor of a buffer mapped at `dmaAddr`. -/
def postedDesc (rxdesc : DmaDesc) (dmaAddr : BitVec 32) : DmaDesc :=
  setRxDesc rxdesc dmaAddr (BitVec.ofNat 32 synDpMiniJumboFrameMtu)

/-- A buffer goes into the slot at `rx_next`. -/
def pushRx (info : SynDpRxInfo) (skb : RxSkb) (dmaAddr : BitVec 32) : SynDpRxInfo :=
  { info with
    rxDesc := Function.update info.rxDesc info.rxNext
      (postedDesc (info.rxDesc info.rxNext) dmaAddr)
    rxSkbList := Function.update info.rxSkbList info.rxNext (some skb)
    rxNext := (info.rxNext + 1) % synDpRxDescSize
    rxNextDesc := (info.rxNext + 1) % synDpRxDescSize
    busyRxDesc := info.busyRxDesc + 1 }

/-- The slot at `rx_busy` is cleared. -/
def popRx (info : SynDpRxInfo) : SynDpRxInfo :=
  { info with
    rxBusy := (info.rxBusy + 1) % synDpRxDescSize
    rxBusyDesc := (info.rxBusy + 1) % synDpRxDescSize
    rxSkbList := Function.update info.rxSkbList info.rxBusy none
    rxDesc := Function.update info.rxDesc info.rxBusy (info.rxDesc info.rxBusy).resetRx
    busyRxDesc := info.busyRxDesc - 1 }

/-- The length of the frame that `status` reports, without its checksum. -/
def frameLength (status : BitVec 32) : Int := (getRxDescFrameLength status).toNat - ethFcsLen

/-- The unmapping of the oldest busy buffer. -/
def unmapCall (info : SynDpRxInfo) : RxEvent :=
  .dmaUnmapSingle .netdev (info.rxDesc info.rxBusy).buffer1 synDpMiniJumboFrameMtu .fromDevice

/-! What the driver and the engine write into a descriptor -/

theorem postedDesc_length (rxdesc : DmaDesc) (dmaAddr : BitVec 32) :
    (postedDesc rxdesc dmaAddr).length =
      rxdesc.length ||| BitVec.ofNat 32 synDpMiniJumboFrameMtu := by
  have hsmall : ¬ synDpMaxDescBuff < BitVec.ofNat 32 synDpMiniJumboFrameMtu := by decide
  have hfield : (BitVec.ofNat 32 synDpMiniJumboFrameMtu <<< descSize1Shift) &&& descSize1Mask =
      BitVec.ofNat 32 synDpMiniJumboFrameMtu := by decide
  simp only [postedDesc, setRxDesc, hsmall, if_false, hfield]

theorem postedDesc_not_empty {rxdesc : DmaDesc} (hempty : rxdesc.isDescEmpty = true)
    (dmaAddr : BitVec 32) : (postedDesc rxdesc dmaAddr).isDescEmpty = false := by
  rw [DmaDesc.isDescEmpty, beq_iff_eq] at hempty
  rw [DmaDesc.isDescEmpty, postedDesc_length, BitVec.and_or_distrib_right, hempty,
    BitVec.zero_or]
  decide

theorem postedDesc_eor (rxdesc : DmaDesc) (dmaAddr : BitVec 32) :
    (postedDesc rxdesc dmaAddr).length &&& descRxDescEndOfRing =
      rxdesc.length &&& descRxDescEndOfRing := by
  rw [postedDesc_length]
  exact masked_or_of_disjoint (by decide)

namespace DmaDesc

theorem resetRx_empty (desc : DmaDesc) : desc.resetRx.isDescEmpty = true := by
  rw [isDescEmpty, resetRx, BitVec.and_assoc,
    show descRxDescEndOfRing &&& descSize1Mask = 0#32 by decide, BitVec.and_zero]
  rfl

theorem resetRx_not_owned (desc : DmaDesc) : desc.resetRx.isDescOwnedByDma = false := by
  rw [isDescOwnedByDma, resetRx, BitVec.zero_and]
  decide

theorem resetRx_eor (desc : DmaDesc) :
    desc.resetRx.length &&& descRxDescEndOfRing = desc.length &&& descRxDescEndOfRing := by
  rw [resetRx, BitVec.and_assoc, BitVec.and_self]

@[simp] theorem writeBackRx_length (desc : DmaDesc) (wb : RxReport) :
    (desc.writeBackRx wb).length = desc.length := rfl

@[simp] theorem writeBackRx_empty (desc : DmaDesc) (wb : RxReport) :
    (desc.writeBackRx wb).isDescEmpty = desc.isDescEmpty := rfl

end DmaDesc

namespace RxRingInv

variable {info : SynDpRxInfo}

theorem busyWindow_eq (h : RxRingInv info) :
    info.busyWindow = window synDpRxDescSize info.rxBusy info.busyRxDesc := by
  rw [SynDpRxInfo.busyWindow, h.count]

theorem next_lt (h : RxRingInv info) : info.rxNext < synDpRxDescSize := by
  rw [h.next]
  exact slot_lt (by decide) _ _

theorem lt_of_mem (h : RxRingInv info) {i : Nat} (hi : i ∈ info.busyWindow) :
    i < synDpRxDescSize := by
  rw [h.busyWindow_eq] at hi
  exact lt_of_mem_window (by decide) hi

theorem base_mem (h : RxRingInv info) (hbusy : 0 < info.busyRxDesc) :
    info.rxBusy ∈ info.busyWindow := by
  rw [h.busyWindow_eq]
  exact mem_window.mpr ⟨0, hbusy, slot_zero h.base_lt⟩

/-- While a descriptor is free, the next one to use is. -/
theorem next_notMem (h : RxRingInv info) (hroom : info.busyRxDesc < synDpRxDescSize) :
    info.rxNext ∉ info.busyWindow := by
  rw [h.busyWindow_eq, h.next]
  exact slot_notMem_window hroom

theorem busyWindow_push (h : RxRingInv info) (skb : RxSkb) (dmaAddr : BitVec 32) :
    (pushRx info skb dmaAddr).busyWindow = info.busyWindow ++ [info.rxNext] := by
  rw [h.busyWindow_eq, SynDpRxInfo.busyWindow]
  simp only [pushRx, h.count]
  rw [window_succ, ← h.next]

theorem busyWindow_pop (h : RxRingInv info) (hbusy : 0 < info.busyRxDesc) :
    info.busyWindow = info.rxBusy :: (popRx info).busyWindow := by
  obtain ⟨k, hk⟩ : ∃ k, info.busyRxDesc = k + 1 := ⟨info.busyRxDesc - 1, by omega⟩
  rw [h.busyWindow_eq, SynDpRxInfo.busyWindow]
  simp only [popRx, h.count, hk, Nat.add_sub_cancel]
  exact window_succ_cons h.base_lt k

theorem nodup_busyWindow (h : RxRingInv info) : info.busyWindow.Nodup := by
  rw [h.busyWindow_eq]
  exact nodup_window h.busy_le

/-- The oldest slot is in no window after its pop. -/
theorem base_notMem_pop (h : RxRingInv info) (hbusy : 0 < info.busyRxDesc) :
    info.rxBusy ∉ (popRx info).busyWindow := by
  have hnodup := h.nodup_busyWindow
  rw [h.busyWindow_pop hbusy, List.nodup_cons] at hnodup
  exact hnodup.1

/-- While a descriptor is free, posting a buffer reaches no assertion and is a push. -/
theorem set_eq (h : RxRingInv info) (hroom : info.busyRxDesc < synDpRxDescSize) (skb : RxSkb)
    (dmaAddr : BitVec 32) :
    synDpSetRxQptr info dmaAddr (BitVec.ofNat 32 synDpMiniJumboFrameMtu) skb =
      .ok (pushRx info skb dmaAddr) := by
  obtain ⟨-, hempty, howned⟩ := h.free _ h.next_lt (h.next_notMem hroom)
  have hcount : ¬ info.rxDescCount ≤ info.busyRxDesc := by
    rw [h.count]
    exact Nat.not_le.mpr hroom
  have hidx : nextIdx info.rxDescCount info.rxNext = (info.rxNext + 1) % synDpRxDescSize := by
    rw [h.count]
    exact nextIdx_eq h.next_lt
  have hbusy : u32 (info.busyRxDesc + 1) = info.busyRxDesc + 1 :=
    u32_of_lt (by unfold synDpRxDescSize at hroom; omega)
  simp only [synDpSetRxQptr, hcount, if_false, h.nextDesc, ne_eq, not_true_eq_false, hempty,
    howned, Bool.not_true, Bool.false_eq_true, hidx, hbusy, pushRx, postedDesc]

theorem push (h : RxRingInv info) (hroom : info.busyRxDesc < synDpRxDescSize) (skb : RxSkb)
    (dmaAddr : BitVec 32) : RxRingInv (pushRx info skb dmaAddr) := by
  have hnot := h.next_notMem hroom
  obtain ⟨-, hempty, -⟩ := h.free _ h.next_lt hnot
  refine ⟨h.count, hroom, h.base_lt, ?_, rfl, h.busyDesc, ?_, ?_, ?_⟩
  · rw [pushRx, h.next]
    exact slot_succ _ _ _
  · intro i hi
    rw [h.busyWindow_push, List.mem_append, List.mem_singleton] at hi
    rcases hi with hi | rfl
    · have hne : i ≠ info.rxNext := ne_of_mem_of_not_mem hi hnot
      simpa only [pushRx, Function.update_of_ne hne] using h.held i hi
    · simp only [pushRx, Function.update_self]
      exact ⟨rfl, postedDesc_not_empty hempty dmaAddr⟩
  · intro i hlt hi
    rw [h.busyWindow_push, List.mem_append, List.mem_singleton, not_or] at hi
    simpa only [pushRx, Function.update_of_ne hi.2] using h.free i hlt hi.1
  · intro i hlt
    rcases eq_or_ne i info.rxNext with rfl | hne
    · simp only [pushRx, Function.update_self, postedDesc_eor]
      exact h.eor _ hlt
    · simpa only [pushRx, Function.update_of_ne hne] using h.eor i hlt

/-- While a descriptor is busy, giving it up reaches no assertion and is a pop. -/
theorem reset_eq (h : RxRingInv info) (hbusy : 0 < info.busyRxDesc) :
    synDpResetRxQptr info = .ok (popRx info) := by
  have hidx : nextIdx info.rxDescCount info.rxBusy = (info.rxBusy + 1) % synDpRxDescSize := by
    rw [h.count]
    exact nextIdx_eq h.base_lt
  have hsub : u32Sub info.busyRxDesc 1 = info.busyRxDesc - 1 := by
    have hle := h.busy_le
    exact u32Sub_of_le hbusy (by unfold synDpRxDescSize at hle; omega)
  simp only [synDpResetRxQptr, h.busyDesc, ne_eq, not_true_eq_false, if_false, hidx, hsub, popRx]

theorem pop (h : RxRingInv info) (hbusy : 0 < info.busyRxDesc) : RxRingInv (popRx info) := by
  have hwin := h.busyWindow_pop hbusy
  refine ⟨h.count, ?_, Nat.mod_lt _ (by decide), ?_, h.nextDesc, rfl, ?_, ?_, ?_⟩
  · have hle := h.busy_le
    simp only [popRx]
    omega
  · simp only [popRx]
    rw [h.next, slot_next, show info.busyRxDesc - 1 + 1 = info.busyRxDesc by omega]
  · intro i hi
    have hne : i ≠ info.rxBusy := ne_of_mem_of_not_mem hi (h.base_notMem_pop hbusy)
    have hheld := h.held i (by rw [hwin]; exact List.mem_cons_of_mem _ hi)
    simpa only [popRx, Function.update_of_ne hne] using hheld
  · intro i hlt hi
    rcases eq_or_ne i info.rxBusy with rfl | hne
    · simp only [popRx, Function.update_self]
      exact ⟨trivial, DmaDesc.resetRx_empty _, DmaDesc.resetRx_not_owned _⟩
    · have hout : i ∉ info.busyWindow := by
        rw [hwin, List.mem_cons, not_or]
        exact ⟨hne, hi⟩
      simpa only [popRx, Function.update_of_ne hne] using h.free i hlt hout
  · intro i hlt
    rcases eq_or_ne i info.rxBusy with rfl | hne
    · simp only [popRx, Function.update_self, DmaDesc.resetRx_eor]
      exact h.eor _ hlt
    · simpa only [popRx, Function.update_of_ne hne] using h.eor i hlt

/-- A report of the engine leaves the length words alone. -/
theorem receive (h : RxRingInv info) {wb : RxReport} {info' : SynDpRxInfo}
    (hrel : dmaReceive info wb = some info') : RxRingInv info' := by
  obtain ⟨j, hj, rfl⟩ := dmaReceive_eq hrel
  refine ⟨h.count, h.busy_le, h.base_lt, h.next, h.nextDesc, h.busyDesc, ?_, ?_, ?_⟩
  · intro i hi
    rcases eq_or_ne i j with rfl | hne
    · simpa only [Function.update_self, DmaDesc.writeBackRx_empty] using h.held i hi
    · simpa only [Function.update_of_ne hne] using h.held i hi
  · intro i hlt hi
    have hne : i ≠ j := fun heq => hi (heq ▸ hj)
    simpa only [Function.update_of_ne hne] using h.free i hlt hi
  · intro i hlt
    rcases eq_or_ne i j with rfl | hne
    · simpa only [Function.update_self, DmaDesc.writeBackRx_length] using h.eor i hlt
    · simpa only [Function.update_of_ne hne] using h.eor i hlt

/-- The counters are no part of the ring. -/
theorem stats (h : RxRingInv info) (stats : RxStats) : RxRingInv { info with stats } :=
  ⟨h.count, h.busy_le, h.base_lt, h.next, h.nextDesc, h.busyDesc, h.held, h.free, h.eor⟩

/-- The setup leaves an empty ring. -/
theorem setup {devInfo : SynDpRxInfo} {allocOk : Bool}
    (hskbs : ∀ i, devInfo.rxSkbList i = none)
    (hsetup : synDpSetupRxDescQueue devInfo synDpRxDescSize .ringMode allocOk = .ok (0, info)) :
    RxRingInv info := by
  rw [synDpSetupRxDescQueue_ok hsetup]
  refine ⟨rfl, Nat.zero_le _, Nat.zero_lt_succ 127, rfl, rfl, rfl, ?_, ?_, ?_⟩
  · intro i hi
    simp [SynDpRxInfo.busyWindow] at hi
  · intro i _ _
    refine ⟨hskbs i, ?_⟩
    simp only [rxDescInitRing]
    split <;> decide
  · intro i _
    simp only [rxDescInitRing]
    split <;> decide

/-! What every push of the refill keeps holds when it ends, and what every pop of the receive
loop keeps holds when that ends. -/

section Rules

variable {P : RxPort → Prop}

/-- The refill reaches no assertion, wherever it stops. The induction is on the turns left; the
    outcomes that are left belong to the state of the loop. -/
theorem refillLoop_rule {Q : RxPort → List RxAlloc → Prop}
    (hpush : ∀ s skb dmaAddr allocs, RxRingInv s.info → s.info.busyRxDesc < synDpRxDescSize →
      Q s (.mapped skb dmaAddr :: allocs) → Q ⟨pushRx s.info skb dmaAddr, s.events ++
        [.allocSkb skb, .dmaMapSingle .pdev dmaAddr synDpMiniJumboFrameMtu .fromDevice]⟩ allocs)
    (hunmapped : ∀ s skb allocs, RxRingInv s.info → Q s (.noMapping skb :: allocs) →
      P (s.emit [.allocSkb skb, .devKfreeSkb skb]))
    (hstop : ∀ s allocs, Q s allocs → P s) :
    ∀ (emptyCount : Nat) (allocs : List RxAlloc) (s : RxPort), RxRingInv s.info →
      s.info.busyRxDesc + emptyCount ≤ synDpRxDescSize → Q s allocs →
      ∃ t, rxRefillLoop emptyCount allocs s = .ok t ∧ RxRingInv t.info ∧ P t := by
  intro emptyCount
  induction emptyCount with
  | zero =>
    intro allocs s h _ hQ
    exact ⟨s, by simp [rxRefillLoop], h, hstop s allocs hQ⟩
  | succ emptyCount ih =>
    intro allocs s h hroom hQ
    cases allocs with
    | nil => exact ⟨s, rfl, h, hstop s _ hQ⟩
    | cons alloc allocs =>
      cases alloc with
      | noSkb => exact ⟨s, rfl, h, hstop s _ hQ⟩
      | noMapping skb => exact ⟨_, rfl, h, hunmapped s skb allocs h hQ⟩
      | mapped skb dmaAddr =>
        have hlt : s.info.busyRxDesc < synDpRxDescSize := by omega
        have hset := h.set_eq hlt skb dmaAddr
        simp only [rxRefillLoop, RxPort.emit, hset]
        apply ih allocs _ (h.push hlt skb dmaAddr) _ (hpush s skb dmaAddr allocs h hlt hQ)
        show s.info.busyRxDesc + 1 + emptyCount ≤ synDpRxDescSize
        omega

/-- The same for the whole of `syn_dp_rx_refill`. -/
theorem refill_rule {Q : RxPort → List RxAlloc → Prop}
    (hpush : ∀ s skb dmaAddr allocs, RxRingInv s.info → s.info.busyRxDesc < synDpRxDescSize →
      Q s (.mapped skb dmaAddr :: allocs) → Q ⟨pushRx s.info skb dmaAddr, s.events ++
        [.allocSkb skb, .dmaMapSingle .pdev dmaAddr synDpMiniJumboFrameMtu .fromDevice]⟩ allocs)
    (hunmapped : ∀ s skb allocs, RxRingInv s.info → Q s (.noMapping skb :: allocs) →
      P (s.emit [.allocSkb skb, .devKfreeSkb skb]))
    (hstop : ∀ s allocs, Q s allocs → P s) {s : RxPort} (allocs : List RxAlloc)
    (h : RxRingInv s.info) (hQ : Q s allocs) :
    ∃ t, synDpRxRefill s allocs = .ok t ∧ RxRingInv t.info ∧ P t := by
  have hle := h.busy_le
  have hempty : (i32 (u32Sub synDpRxDescSize s.info.busyRxDesc)).toNat =
      synDpRxDescSize - s.info.busyRxDesc := by
    rw [u32Sub_of_le hle (by decide), i32_of_lt, Int.toNat_natCast]
    exact Nat.lt_of_le_of_lt (Nat.sub_le _ _) (by decide)
  rw [synDpRxRefill, hempty]
  exact refillLoop_rule hpush hunmapped hstop _ allocs s h (by omega) hQ

/-- A turn of the receive loop: a good frame goes to the stack or stops the kernel in `skb_put`,
    and the buffer of any other frame is freed. -/
theorem one_turn {s : RxPort} (h : RxRingInv s.info) (hbusy : 0 < s.info.busyRxDesc)
    {status : BitVec 32} (hstatus : (s.info.rxDesc s.info.rxBusy).status = status) :
    ∃ skb, s.info.rxSkbList s.info.rxBusy = some skb ∧
      ((isRxDescValid status = true ∧ skb.putOverflows (frameLength status) = false ∧
          rxOne s = .ok ⟨popRx { s.info with stats := s.info.stats.rxGood (frameLength status) },
            s.events ++ [unmapCall s.info, .napiGroReceive skb (frameLength status)]⟩) ∨
        (isRxDescValid status = true ∧ skb.putOverflows (frameLength status) = true ∧
          rxOne s = .error ⟨.skbOverPanic,
            ⟨{ s.info with stats := s.info.stats.rxGood (frameLength status) },
              s.events ++ [unmapCall s.info]⟩⟩) ∨
        (isRxDescValid status = false ∧
          rxOne s = .ok ⟨popRx { s.info with stats := s.info.stats.rxBad status },
            s.events ++ [unmapCall s.info, .devKfreeSkb skb]⟩)) := by
  obtain ⟨hsome, -⟩ := h.held _ (h.base_mem hbusy)
  obtain ⟨skb, hskb⟩ := Option.isSome_iff_exists.mp hsome
  have hdesc : s.info.rxDesc s.info.rxBusyDesc = s.info.rxDesc s.info.rxBusy := by
    rw [h.busyDesc]
  have hreset (stats : RxStats) := (h.stats stats).reset_eq hbusy
  refine ⟨skb, hskb, ?_⟩
  unfold rxOne
  simp only [hskb, hdesc, hstatus, rxHandOver, RxPort.emit]
  cases hvalid : isRxDescValid status with
  | true =>
    cases hput : skb.putOverflows (frameLength status) with
    | true =>
      rw [frameLength] at hput
      simp only [if_true, hput]
      exact Or.inr (Or.inl ⟨trivial, trivial, rfl⟩)
    | false =>
      rw [frameLength] at hput
      simp only [if_true, hput, Bool.false_eq_true, if_false, hreset, List.append_assoc]
      exact Or.inl ⟨trivial, trivial, rfl⟩
  | false =>
    simp only [Bool.false_eq_true, if_false, hreset, List.append_assoc]
    exact Or.inr (Or.inr ⟨trivial, rfl⟩)

/-- Whatever the frame, the oldest buffer is popped with one more call on it, or the kernel
    stops. -/
theorem one_cases {s : RxPort} (h : RxRingInv s.info) (hbusy : 0 < s.info.busyRxDesc) :
    ∃ skb, s.info.rxSkbList s.info.rxBusy = some skb ∧
      ((∃ stats e, e.allocated = none ∧ e.left = some skb ∧
          rxOne s = .ok ⟨popRx { s.info with stats }, s.events ++ [unmapCall s.info, e]⟩) ∨
        ∃ stats, rxOne s = .error
          ⟨.skbOverPanic, ⟨{ s.info with stats }, s.events ++ [unmapCall s.info]⟩⟩) := by
  obtain ⟨skb, hskb, ⟨-, -, hone⟩ | ⟨-, -, hone⟩ | ⟨-, hone⟩⟩ := h.one_turn hbusy rfl
  · exact ⟨skb, hskb, Or.inl ⟨_, _, rfl, rfl, hone⟩⟩
  · exact ⟨skb, hskb, Or.inr ⟨_, hone⟩⟩
  · exact ⟨skb, hskb, Or.inl ⟨_, _, rfl, rfl, hone⟩⟩

/-- The receive loop on at most as many turns as descriptors are busy: `P` is what every turn
    keeps, `R` what is left where a frame overruns its buffer. -/
theorem rxLoop_turns {R : RxPort → Prop}
    (hturn : ∀ s t, RxRingInv s.info → 0 < s.info.busyRxDesc →
      (s.info.rxDesc s.info.rxBusy).isDescOwnedByDma = false → P s → rxOne s = .ok t → P t)
    (hover : ∀ s t, RxRingInv s.info → 0 < s.info.busyRxDesc →
      (s.info.rxDesc s.info.rxBusy).isDescOwnedByDma = false → P s →
      rxOne s = .error ⟨.skbOverPanic, t⟩ → R t) :
    ∀ (turns : Nat) (s : RxPort), RxRingInv s.info → turns ≤ s.info.busyRxDesc → P s →
      (∃ made t, rxLoop turns s = .ok (made, t) ∧ RxRingInv t.info ∧ P t) ∨
        ∃ t, rxLoop turns s = .error ⟨.skbOverPanic, t⟩ ∧ RxRingInv t.info ∧ R t := by
  intro turns
  induction turns with
  | zero =>
    intro s h _ hP
    exact Or.inl ⟨0, s, rfl, h, hP⟩
  | succ turns ih =>
    intro s h hle hP
    rw [rxLoop]
    split
    · exact Or.inl ⟨0, s, rfl, h, hP⟩
    · next howned =>
      have hbusy : 0 < s.info.busyRxDesc := by omega
      rw [h.busyDesc, Bool.not_eq_true] at howned
      obtain ⟨skb, -, ⟨stats, e, -, -, heq⟩ | ⟨stats, heq⟩⟩ := h.one_cases hbusy
      · have hP' := hturn s _ h hbusy howned hP heq
        rw [heq]
        have hle' : turns ≤ (popRx { s.info with stats }).busyRxDesc := by
          show turns ≤ s.info.busyRxDesc - 1
          omega
        rcases ih _ ((h.stats stats).pop hbusy) hle' hP' with
          ⟨made, u, hu, hinv, hP''⟩ | ⟨u, hu, hinv, hR⟩
        · exact Or.inl ⟨made + 1, u, by simp only [hu], hinv, hP''⟩
        · exact Or.inr ⟨u, by simp only [hu], hinv, hR⟩
      · have hR := hover s _ h hbusy howned hP heq
        rw [heq]
        exact Or.inr ⟨_, rfl, h.stats stats, hR⟩

/-- The same for the whole of `syn_dp_rx`, whatever its budget. -/
theorem rx_turns {R : RxPort → Prop}
    (hturn : ∀ s t, RxRingInv s.info → 0 < s.info.busyRxDesc →
      (s.info.rxDesc s.info.rxBusy).isDescOwnedByDma = false → P s → rxOne s = .ok t → P t)
    (hover : ∀ s t, RxRingInv s.info → 0 < s.info.busyRxDesc →
      (s.info.rxDesc s.info.rxBusy).isDescOwnedByDma = false → P s →
      rxOne s = .error ⟨.skbOverPanic, t⟩ → R t)
    {s : RxPort} (h : RxRingInv s.info) (hP : P s) (budget : Int) :
    (∃ ret t, synDpRx s budget = .ok (ret, t) ∧ RxRingInv t.info ∧ P t) ∨
      ∃ t, synDpRx s budget = .error ⟨.skbOverPanic, t⟩ ∧ RxRingInv t.info ∧ R t := by
  unfold synDpRx
  split
  · exact Or.inl ⟨0, s, rfl, h, hP⟩
  · rename_i hbusy
    have hle := h.busy_le
    have hint : i32 s.info.busyRxDesc = s.info.busyRxDesc :=
      i32_of_lt (Nat.lt_of_le_of_lt hle (by decide))
    have hturns : (max 1 (min (i32 s.info.busyRxDesc) budget)).toNat ≤ s.info.busyRxDesc := by
      rw [hint]
      omega
    rcases rxLoop_turns hturn hover _ s h hturns hP with ⟨made, t, heq, ht⟩ | ⟨t, heq, ht⟩
    · simp only [heq]
      exact Or.inl ⟨_, t, rfl, ht⟩
    · simp only [heq]
      exact Or.inr ⟨t, rfl, ht⟩

/-- The same by what becomes of the buffer: `P` is what every pop keeps. -/
theorem rx_rule {R : RxPort → Prop}
    (hpop : ∀ s skb stats e, RxRingInv s.info → 0 < s.info.busyRxDesc →
      s.info.rxSkbList s.info.rxBusy = some skb → e.allocated = none → e.left = some skb → P s →
      P ⟨popRx { s.info with stats }, s.events ++ [unmapCall s.info, e]⟩)
    (hover : ∀ s stats, RxRingInv s.info → P s →
      R ⟨{ s.info with stats }, s.events ++ [unmapCall s.info]⟩)
    {s : RxPort} (h : RxRingInv s.info) (hP : P s) (budget : Int) :
    (∃ ret t, synDpRx s budget = .ok (ret, t) ∧ RxRingInv t.info ∧ P t) ∨
      ∃ t, synDpRx s budget = .error ⟨.skbOverPanic, t⟩ ∧ RxRingInv t.info ∧ R t := by
  refine rx_turns (fun s t h hbusy _ hP heq => ?_) (fun s t h hbusy _ hP heq => ?_) h hP budget
  · obtain ⟨skb, hskb, ⟨stats, e, hallocated, hleft, hone⟩ | ⟨stats, hone⟩⟩ := h.one_cases hbusy
    · cases hone.symm.trans heq
      exact hpop s skb stats e h hbusy hskb hallocated hleft hP
    · cases hone.symm.trans heq
  · obtain ⟨skb, -, ⟨stats, e, -, -, hone⟩ | ⟨stats, hone⟩⟩ := h.one_cases hbusy
    · cases hone.symm.trans heq
    · cases hone.symm.trans heq
      exact hover s stats h hP

end Rules

end RxRingInv

end NssDp.SynGmacDp
