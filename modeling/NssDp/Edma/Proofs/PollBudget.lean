import Mathlib.Data.BitVec
import NssDp.Edma.PollSteps
import NssDp.Edma.Proofs.NapiHandshake
import NssDp.Edma.Proofs.RxBooks
import NssDp.Misc.Fifo

/-!
# The budget of the EDMA poll

Every RXDESC ring is given the whole budget, and completions and refilled buffers are added to
the frames without a bound. What the poll returns is the work that the index registers and the
rings show when it comes to them, as a C `int`; whether it completes, and what becomes of the
interrupt masks, follows from it.
-/

namespace NssDp.Edma

open Lts Word

/-- How far an index of a ring is behind another, looking no further than `fuel`. -/
def idxDistance (count prod : Nat) : Nat → Nat → Nat
  | 0, _ => 0
  | fuel + 1, cons =>
    if cons = prod then 0 else idxDistance count prod fuel (edmaIdxNext count cons) + 1

/-- The completions that are pending in a TXCMPL ring. -/
def EdmaHw.cmplPending (ehw : EdmaHw) (q : Nat) : Nat :=
  idxDistance (ehw.txcmplRing q).count (ehw.cmplProd q) (2 ^ 16) (ehw.cmplCons q)

/-- The descriptors from `next` on that buffers can be posted in: until the ring is full, a slot
    of the store is in use, or there is no buffer that can be mapped. -/
def refillable (count cons : Nat) : List EdmaRxAlloc → (Nat → Option RxSkb) → Nat → Nat
  | [], _, _ => 0
  | alloc :: allocs, store, next =>
    if edmaIdxNext count next = cons ∨ (store next).isSome = true ∨ alloc.dma = 0#32 then 0
    else
      refillable count cons allocs (Function.update store next (some alloc.skb))
        (edmaIdxNext count next) + 1

/-- The buffers that can be posted in an RXFILL ring. -/
def EdmaRx.refillable (rx : EdmaRx) (allocs : List EdmaRxAlloc) : Nat :=
  Edma.refillable rx.rxfill.count rx.fillCons allocs rx.rxSkbStore
    (rx.fillProd &&& rx.rxfill.count - 1)

/-- There is a frame in the RXDESC ring, and the ring has not had the whole budget. -/
def FrameFound (rx : EdmaRx) (call : CleanRx) : Prop :=
  call.consIdx ≠ rx.descProd ∧ call.workDone < (BitVec.ofInt 32 call.workToDo).toNat

instance (rx : EdmaRx) (call : CleanRx) : Decidable (FrameFound rx call) :=
  inferInstanceAs (Decidable (_ ∧ _))

/-- What the index registers and the rings show where a poll looks at them: an RXDESC ring with its
    consumer index; the producer index that the hardware reports for that ring, once a turn; a
    TXCMPL ring with both its indices; an RXFILL ring with the index of the next descriptor, its
    consumer index, the store, and the buffers that can be had. -/
inductive RingSeen where
  | rxdesc (count cons : Nat)
  | rxdescProd (prod : Nat)
  | txcmpl (count prod cons : Nat)
  | rxfill (count next cons : Nat) (store : Nat → Option RxSkb) (allocs : List EdmaRxAlloc)

/-- What a piece of the poll looks at. -/
def pollSeen (s : PollRun) : PollLabel → List RingSeen
  | .hw _ => []
  | .next allocs =>
    match s.pc with
    | .rxStart i =>
      if i < s.dev.ehw.rxdescRings then [.rxdesc (s.dev.rxdescCount i) (s.dev.rxOf i).descCons]
      else []
    | .rxLoop i _ => [.rxdescProd (s.dev.rxOf i).descProd]
    | .tx i =>
      if i < s.dev.ehw.txcmplRings then
        [.txcmpl (s.dev.ehw.txcmplRing i).count (s.dev.ehw.cmplProd i) (s.dev.ehw.cmplCons i)]
      else []
    | .fill i =>
      let rx := s.dev.rx 0 i
      if i < s.dev.ehw.rxfillRings then
        [.rxfill rx.rxfill.count (rx.fillProd &&& rx.rxfill.count - 1) rx.fillCons rx.rxSkbStore
          allocs]
      else []
    | _ => []

/-- The reports on an RXDESC ring, up to the next ring. -/
def prodReports : List RingSeen → List Nat
  | .rxdescProd prod :: seen => prod :: prodReports seen
  | _ => []

/-- The frames that are in an RXDESC ring from `cons` on by one report after another, no more than
    `fuel`. -/
def framesIn (count : Nat) : Nat → Nat → List Nat → Nat
  | 0, _, _ => 0
  | _ + 1, _, [] => 0
  | fuel + 1, cons, prod :: prods =>
    if cons = prod then 0 else framesIn count fuel (edmaIdxNext count cons) prods + 1

/-- A budget as the loop over an RXDESC ring compares its work with it. -/
def rxBudget (budget : Nat) : Nat := (BitVec.ofInt 32 (budget : Int)).toNat

/-- The work that there is in the rings: the frames of each RXDESC ring up to the whole budget,
    the completions of each TXCMPL ring, and the descriptors of each RXFILL ring that buffers can
    be posted in. -/
def ringWork (budget : Nat) : List RingSeen → Nat
  | [] => 0
  | .rxdesc count cons :: seen =>
    framesIn count (rxBudget budget) cons (prodReports seen) + ringWork budget seen
  | .rxdescProd _ :: seen => ringWork budget seen
  | .txcmpl count prod cons :: seen =>
    idxDistance count prod (2 ^ 16) cons + ringWork budget seen
  | .rxfill count next cons store allocs :: seen =>
    u16 (refillable count cons allocs store next) + ringWork budget seen

/-- The interrupt mask registers of the rings. -/
def EdmaReg.isIntMask : EdmaReg → Bool
  | .txIntMask _ | .rxfillIntMask _ | .rxdescIntMask _ => true
  | _ => false

/-- A poll that was started on `ehw` has completed if and only if it returns less than its
    budget, and has restored the interrupt masks if and only if it has completed. -/
structure PollEnded (budget : Nat) (ehw : EdmaHw) (t : PollRun) : Prop where
  completes : t.dev.ehw.napi = .idle ↔ t.workDone.toInt < budget
  masksSet : t.dev.ehw.napi = .idle → MasksEnabled t.dev.ehw
  masksLeft : t.dev.ehw.napi ≠ .idle → ∀ r, r.isIntMask = true → t.dev.ehw.regs r = ehw.regs r

/-- What a poll owes to NAPI: to return no more than its budget, and to end accordingly. -/
structure BudgetKept (budget : Nat) (ehw : EdmaHw) (t : PollRun) : Prop
    extends PollEnded budget ehw t where
  bound : t.workDone.toInt ≤ budget

section Frame

/-- NAPI and the interrupt masks are the same. -/
structure SameIrq (ehw ehw' : EdmaHw) : Prop where
  napi : ehw'.napi = ehw.napi
  masks : ∀ r, r.isIntMask = true → ehw'.regs r = ehw.regs r

variable {ehw ehw₁ ehw₂ : EdmaHw}

theorem SameIrq.refl (ehw : EdmaHw) : SameIrq ehw ehw := ⟨rfl, fun _ _ => rfl⟩

theorem SameIrq.trans (h₁ : SameIrq ehw ehw₁) (h₂ : SameIrq ehw₁ ehw₂) : SameIrq ehw ehw₂ := by
  constructor
  · exact h₂.napi.trans h₁.napi
  · intro r hr
    exact (h₂.masks r hr).trans (h₁.masks r hr)

theorem sameIrq_touch (ehw : EdmaHw) (accesses : List EdmaAccess) :
    SameIrq ehw (ehw.touch accesses) := ⟨rfl, fun _ _ => rfl⟩

/-- A register that is no interrupt mask is written. -/
theorem SameIrq.regWrite (h : SameIrq ehw ehw₁) {reg : EdmaReg} (hreg : reg.isIntMask = false)
    (val : BitVec 32) : SameIrq ehw (ehw₁.regWrite reg val) := by
  refine ⟨h.napi, fun r hr => ?_⟩
  have hne : r ≠ reg := by
    rintro rfl
    rw [hreg] at hr
    cases hr
  have hkept : (ehw₁.regWrite reg val).regs r = ehw₁.regs r := Function.update_of_ne hne _ _
  exact hkept.trans (h.masks r hr)

/-- The hardware does not write the interrupt masks. -/
theorem sameIrq_progress (dev : EdmaPoll) (hw : HwProgress) :
    SameIrq dev.ehw (dev.progress hw).ehw := by
  refine ⟨rfl, fun r hr => ?_⟩
  have hhw : r.isHw = false := by
    cases r <;> first | rfl | cases hr
  simp only [EdmaPoll.progress, hhw, Bool.false_eq_true, if_false]

end Frame

section Pieces

/-- The loop of `edma_clean_tx` takes one turn for each pending completion. -/
theorem cleanTxLoop_consumed {virtToPhys : Nat → BitVec 32} {ring : EdmaTxcmplRing}
    {prodIdx : Nat} : ∀ {fuel consIdx : Nat} {store : Nat → Option SkBuff} {l : CleanTxLoop},
      cleanTxLoop virtToPhys ring prodIdx fuel consIdx store = some l →
      l.consumed = idxDistance ring.count prodIdx fuel consIdx := by
  intro fuel
  induction fuel with
  | zero =>
    intro consIdx store l hl
    cases hl
  | succ fuel ih =>
    intro consIdx store l hl
    rw [cleanTxLoop] at hl
    rw [idxDistance]
    by_cases heq : consIdx = prodIdx
    · rw [if_pos heq] at hl ⊢
      cases hl
      rfl
    · rw [if_neg heq] at hl ⊢
      dsimp only at hl
      cases hslot : store (ring.desc consIdx).bufferAddr.toNat with
      | none =>
        rw [hslot] at hl
        obtain ⟨r, hr, rfl⟩ := Option.map_eq_some_iff.mp hl
        exact congrArg (· + 1) (ih hr)
      | some skb =>
        rw [hslot] at hl
        obtain ⟨r, hr, rfl⟩ := Option.map_eq_some_iff.mp hl
        exact congrArg (· + 1) (ih hr)

/-- `edma_clean_tx` returns the number of pending completions. -/
theorem edmaCleanTx_pending {virtToPhys : Nat → BitVec 32} {ehw : EdmaHw} {q : Nat} {r : CleanTx}
    (hr : edmaCleanTx virtToPhys ehw q = some r) :
    r.ret = ehw.cmplPending q ∧ SameIrq ehw r.ehw := by
  unfold edmaCleanTx at hr
  dsimp only at hr
  split at hr
  · cases hr
  · rename_i l hl
    have hconsumed : l.consumed = ehw.cmplPending q := cleanTxLoop_consumed hl
    split at hr
    · rename_i hzero
      cases hr
      exact ⟨hzero.symm.trans hconsumed, rfl, fun _ _ => rfl⟩
    · cases hr
      refine ⟨hconsumed, ?_⟩
      apply SameIrq.regWrite
      · exact ⟨rfl, fun _ _ => rfl⟩
      · rfl

/-- The loop of the allocation posts a buffer in every descriptor it can. -/
theorem allocRxLoop_numAlloc (cons : Nat) : ∀ (allocs : List EdmaRxAlloc) (l : AllocRxLoop),
    l.numAlloc < 2 ^ 16 →
    (allocRxLoop cons allocs l).numAlloc = u16 (l.numAlloc +
      refillable l.rx.rxfill.count cons allocs l.rx.rxSkbStore l.next) ∧
    (allocRxLoop cons allocs l).rx.ehw = l.rx.ehw := by
  intro allocs
  induction allocs with
  | nil =>
    intro l hnum
    exact ⟨(u16_of_lt hnum).symm, rfl⟩
  | cons alloc allocs ih =>
    intro l hnum
    have hstop : u16 (l.numAlloc + 0) = l.numAlloc := u16_of_lt hnum
    have hemit : (l.rx.emit [.allocSkb alloc.skb]).rxSkbStore = l.rx.rxSkbStore := rfl
    rw [allocRxLoop, refillable]
    dsimp only
    rw [hemit]
    by_cases hfull : edmaIdxNext l.rx.rxfill.count l.next = cons
    · rw [if_pos hfull, if_pos (Or.inl hfull)]
      exact ⟨hstop.symm, rfl⟩
    · rw [if_neg hfull]
      by_cases hslot : (l.rx.rxSkbStore l.next).isSome = true
      · rw [if_pos hslot, if_pos (Or.inr (Or.inl hslot))]
        exact ⟨hstop.symm, rfl⟩
      · rw [if_neg hslot]
        by_cases hdma : alloc.dma = 0#32
        · rw [if_pos hdma, if_pos (Or.inr (Or.inr hdma))]
          exact ⟨hstop.symm, rfl⟩
        · have hgo : ¬ (edmaIdxNext l.rx.rxfill.count l.next = cons ∨
              (l.rx.rxSkbStore l.next).isSome = true ∨ alloc.dma = 0#32) := by
            rintro (h | h | h)
            · exact hfull h
            · exact hslot h
            · exact hdma h
          rw [if_neg hdma, if_neg hgo]
          obtain ⟨hrest, hehw⟩ := ih ⟨u16 (l.numAlloc + 1), _, _⟩ (u16_lt _)
          refine ⟨hrest.trans ?_, hehw⟩
          simp only [u16, Nat.mod_add_mod]
          rw [Nat.add_right_comm, Nat.add_assoc]
          rfl

/-- `edma_alloc_rx_buffer` returns the number of buffers that can be posted. -/
theorem edmaAllocRxBuffer_refillable (rx : EdmaRx) (allocs : List EdmaRxAlloc) :
    (edmaAllocRxBuffer rx allocs).1 = u16 (rx.refillable allocs) ∧
      SameIrq rx.ehw (edmaAllocRxBuffer rx allocs).2.ehw := by
  unfold edmaAllocRxBuffer
  dsimp only
  generalize hl : allocRxLoop _ allocs _ = l
  obtain ⟨hnum, hehw⟩ := hl ▸ allocRxLoop_numAlloc rx.fillCons allocs ⟨0, _, _⟩ (Nat.two_pow_pos 16)
  have hret : l.numAlloc = u16 (rx.refillable allocs) := by
    rw [hnum, Nat.zero_add]
    rfl
  have hsame : SameIrq rx.ehw l.rx.ehw := by
    rw [hehw]
    exact sameIrq_touch rx.ehw _
  split
  · rename_i hzero
    exact ⟨hzero.symm.trans hret, hsame⟩
  · exact ⟨hret, hsame.regWrite rfl _⟩

/-- What a turn of the loop over an RXDESC ring tells of the frames in it. -/
def TurnCounted (rx : EdmaRx) (call : CleanRx) : CleanRxTurn → Prop
  | .done rx' => ¬ FrameFound rx call ∧ SameIrq rx.ehw rx'.ehw
  | .next rx' call' =>
    FrameFound rx call ∧ SameIrq rx.ehw rx'.ehw ∧
      call' = ⟨edmaIdxNext rx.rxdesc.count call.consIdx, u32 (call.workDone + 1), call.workToDo⟩
  | .panic _ => FrameFound rx call

theorem FrameFound.workDone_lt {rx : EdmaRx} {call : CleanRx} (h : FrameFound rx call) :
    u32 (call.workDone + 1) = call.workDone + 1 := by
  have hlt := (BitVec.ofInt 32 call.workToDo).isLt
  have := h.2
  exact u32_of_lt (by omega)

/-- A turn goes on if and only if it finds a frame. -/
theorem edmaCleanRxTurn_counted (soc : Soc) (rx : EdmaRx) (call : CleanRx) :
    TurnCounted rx call (edmaCleanRxTurn soc rx call) := by
  have hprod : (rx.touch [.regRead (.rxdescProdIdx rx.rxdesc.id)]).ehw.regIdx
      (.rxdescProdIdx rx.rxdesc.id) = rx.descProd := rfl
  unfold edmaCleanRxTurn
  dsimp only
  rw [hprod]
  by_cases hempty : call.consIdx = rx.descProd
  · rw [if_pos hempty]
    exact ⟨fun h => h.1 hempty, sameIrq_touch _ _⟩
  · rw [if_neg hempty]
    by_cases hused : (BitVec.ofInt 32 call.workToDo).toNat ≤ call.workDone
    · rw [if_pos hused]
      exact ⟨fun h => Nat.not_lt.mpr hused h.2, sameIrq_touch _ _⟩
    · rw [if_neg hused]
      have hfound : FrameFound rx call := ⟨hempty, Nat.not_le.mp hused⟩
      split
      · exact ⟨hfound, sameIrq_touch _ _, rfl⟩
      · split
        · exact hfound
        · exact ⟨hfound, sameIrq_touch _ _, rfl⟩

end Pieces

/-- The work done, with that of the call of `edma_clean_rx` that has not returned. -/
def PollRun.account (s : PollRun) : BitVec 32 :=
  s.workDone +
    match s.pc with
    | .rxLoop _ call | .rxEnd _ call => BitVec.ofNat 32 call.workDone
    | _ => 0#32

/-- The work in what a poll will see of the rings, with the rest of the ring that it is at. -/
def PollRun.due (budget : Nat) (s : PollRun) (seen : List RingSeen) : Nat :=
  (match s.pc with
    | .rxLoop i call => framesIn (s.dev.rxdescCount i) (rxBudget budget - call.workDone)
        call.consIdx (prodReports seen)
    | _ => 0) + ringWork budget seen

/-- The work done once a poll has seen the rest of the rings. -/
def PollRun.accountAfter (budget : Nat) (s : PollRun) (seen : List RingSeen) : BitVec 32 :=
  s.account + BitVec.ofNat 32 (s.due budget seen)

/-- The loop that the poll is in may use up the whole budget. -/
def PollRun.Budgeted (budget : Nat) (s : PollRun) : Prop :=
  ∀ i call, s.pc = .rxLoop i call → call.workToDo = budget

/-- What a step makes of a poll that goes on: the work that it sees, it does. -/
structure Advances (budget : Nat) (s : PollRun) (a : PollLabel) (t : PollRun) : Prop where
  running : t.pc ≠ .returned
  irq : SameIrq s.dev.ehw t.dev.ehw
  budgeted : s.Budgeted budget → t.Budgeted budget
  account : s.Budgeted budget →
    ∀ seen, s.accountAfter budget (pollSeen s a ++ seen) = t.accountAfter budget seen

/-- The state a poll returns in. -/
def PollRun.finish (s : PollRun) (budget : Nat) : PollRun :=
  { s with
    dev := { s.dev with ehw := edmaNapiEnd s.dev.ehw s.workDone budget }
    pc := .returned }

section Step

variable {soc : Soc} {virtToPhys : Nat → BitVec 32} {maxGmacs budget : Nat} {s t : PollRun}
variable {dev : EdmaPoll} {workDone : BitVec 32} {allocs : List EdmaRxAlloc}

/-- Where a turn finds no frame, there is none or the budget is used up. -/
theorem framesIn_of_not_found {rx : EdmaRx} {call : CleanRx} (hbudget : call.workToDo = budget)
    (hnone : ¬ FrameFound rx call) (count : Nat) (prods : List Nat) :
    framesIn count (rxBudget budget - call.workDone) call.consIdx (rx.descProd :: prods) = 0 := by
  rw [FrameFound, hbudget, ← rxBudget, not_and_or, not_not, Nat.not_lt] at hnone
  rcases hnone with hempty | hused
  · cases rxBudget budget - call.workDone with
    | zero => rfl
    | succ fuel => rw [framesIn, if_pos hempty]
  · rw [Nat.sub_eq_zero_of_le hused, framesIn]

/-- A frame that a turn finds is the first of those in the ring. -/
theorem framesIn_of_found {rx : EdmaRx} {call : CleanRx} (hbudget : call.workToDo = budget)
    (hfound : FrameFound rx call) (count : Nat) (prods : List Nat) :
    framesIn count (rxBudget budget - call.workDone) call.consIdx (rx.descProd :: prods) =
      framesIn count (rxBudget budget - (call.workDone + 1)) (edmaIdxNext count call.consIdx)
        prods + 1 := by
  rw [FrameFound, hbudget, ← rxBudget] at hfound
  obtain ⟨hne, hlt⟩ := hfound
  have hfuel : rxBudget budget - call.workDone = rxBudget budget - (call.workDone + 1) + 1 := by
    omega
  rw [hfuel, framesIn, if_neg hne]

/-- A turn of the loop over an RXDESC ring. -/
theorem rxLoop_advances {i : Nat} {call : CleanRx}
    (h : napiNext soc virtToPhys maxGmacs budget ⟨dev, workDone, .rxLoop i call⟩ allocs = some t) :
    Advances budget ⟨dev, workDone, .rxLoop i call⟩ (.next allocs) t := by
  have hcount := edmaCleanRxTurn_counted soc (dev.rxOf i) call
  simp only [napiNext] at h
  split at h
  · rename_i rx hturn
    rw [hturn] at hcount
    obtain ⟨hnone, hirq⟩ := hcount
    cases h
    refine ⟨PollPc.noConfusion, hirq, fun _ _ _ => PollPc.noConfusion, fun hbudgeted seen => ?_⟩
    have hframes := framesIn_of_not_found (hbudgeted i call rfl) hnone (dev.rxdescCount i)
      (prodReports seen)
    simp only [PollRun.accountAfter, PollRun.account, PollRun.due, pollSeen, List.cons_append,
      List.nil_append, prodReports, ringWork, hframes]
  · rename_i rx call' hturn
    rw [hturn] at hcount
    obtain ⟨hfound, hirq, rfl⟩ := hcount
    cases h
    refine ⟨PollPc.noConfusion, hirq, ?_, fun hbudgeted seen => ?_⟩
    · rintro hbudgeted _ _ ⟨⟩
      exact hbudgeted i call rfl
    have hframes := framesIn_of_found (hbudgeted i call rfl) hfound (dev.rxdescCount i)
      (prodReports seen)
    simp only [PollRun.accountAfter, PollRun.account, PollRun.due, pollSeen, List.cons_append,
      List.nil_append, prodReports, ringWork, hframes, hfound.workDone_lt]
    rw [BitVec.add_assoc, BitVec.add_assoc, ← BitVec.ofNat_add, ← BitVec.ofNat_add]
    simp only [EdmaPoll.rxOf, EdmaPoll.setRxOf, EdmaPoll.setRx, EdmaPoll.rx]
    congr 2
    omega
  · cases h

/-- A piece that is not in the loop over an RXDESC ring accounts for the work of what it sees. -/
theorem Advances.outside {a : PollLabel} {dev' : EdmaPoll} {workDone' : BitVec 32}
    {pc pc' : PollPc} {n : Nat}
    (hpc : ∀ seen, (PollRun.mk dev workDone pc).due budget seen = 0 + ringWork budget seen)
    (hrunning : pc' ≠ .returned) (hirq : SameIrq dev.ehw dev'.ehw)
    (hloop : ∀ i call, pc' = .rxLoop i call → call.workToDo = budget)
    (haccount : (PollRun.mk dev' workDone' pc').account =
      (PollRun.mk dev workDone pc).account + BitVec.ofNat 32 n)
    (hseen : ∀ seen, ringWork budget (pollSeen ⟨dev, workDone, pc⟩ a ++ seen) =
      n + (PollRun.mk dev' workDone' pc').due budget seen) :
    Advances budget ⟨dev, workDone, pc⟩ a ⟨dev', workDone', pc'⟩ := by
  refine ⟨hrunning, hirq, fun _ => hloop, fun _ seen => ?_⟩
  rw [PollRun.accountAfter, PollRun.accountAfter, hpc, Nat.zero_add, hseen, haccount,
    BitVec.ofNat_add, BitVec.add_assoc]

/-- A piece that looks at no ring. -/
theorem Advances.idle {a : PollLabel} {dev' : EdmaPoll} {workDone' : BitVec 32} {pc pc' : PollPc}
    (hpc : ∀ seen, (PollRun.mk dev workDone pc).due budget seen = 0 + ringWork budget seen)
    (hpc' : ∀ seen, (PollRun.mk dev' workDone' pc').due budget seen = 0 + ringWork budget seen)
    (hrunning : pc' ≠ .returned) (hirq : SameIrq dev.ehw dev'.ehw)
    (hloop : ∀ i call, pc' ≠ .rxLoop i call)
    (haccount : (PollRun.mk dev' workDone' pc').account = (PollRun.mk dev workDone pc).account)
    (hseen : pollSeen ⟨dev, workDone, pc⟩ a = []) :
    Advances budget ⟨dev, workDone, pc⟩ a ⟨dev', workDone', pc'⟩ := by
  refine ⟨hrunning, hirq, fun _ i call h => absurd h (hloop i call), fun _ seen => ?_⟩
  rw [PollRun.accountAfter, PollRun.accountAfter, hpc, hpc', haccount, hseen, List.nil_append]

/-- A piece of the poll goes on with it or is its last. -/
theorem napiNext_cases (h : napiNext soc virtToPhys maxGmacs budget s allocs = some t) :
    Advances budget s (.next allocs) t ∨ s.pc = .finish ∧ t = s.finish budget := by
  obtain ⟨dev, workDone, pc⟩ := s
  have hzero : ∀ w : BitVec 32, w + 0#32 = w := fun w => BitVec.add_zero w
  cases pc with
  | rxStart i =>
    refine Or.inl ?_
    simp only [napiNext] at h
    split at h
    · rename_i hi
      cases h
      refine Advances.outside (n := 0) (fun _ => rfl) PollPc.noConfusion (sameIrq_touch _ _) ?_
        (hzero _).symm fun seen => ?_
      · rintro _ _ ⟨⟩
        rfl
      · simp only [pollSeen, if_pos hi]
        exact (Nat.zero_add _).symm
    · rename_i hi
      cases h
      refine Advances.idle (fun _ => rfl) (fun _ => rfl) PollPc.noConfusion (SameIrq.refl _)
        (fun _ _ => PollPc.noConfusion) rfl ?_
      simp only [pollSeen, if_neg hi]
  | rxLoop i call => exact Or.inl (rxLoop_advances h)
  | rxEnd i call =>
    refine Or.inl ?_
    cases h
    obtain ⟨-, hirq⟩ := edmaAllocRxBuffer_refillable (dev.rxOf i) allocs
    exact Advances.idle (fun _ => rfl) (fun _ => rfl) PollPc.noConfusion (hirq.regWrite rfl _)
      (fun _ _ => PollPc.noConfusion) (hzero _) rfl
  | tx i =>
    refine Or.inl ?_
    simp only [napiNext] at h
    split at h
    · rename_i hi
      obtain ⟨r, hr, rfl⟩ := Option.map_eq_some_iff.mp h
      obtain ⟨hret, hirq⟩ := edmaCleanTx_pending hr
      refine Advances.outside (n := r.ret) (fun _ => rfl) PollPc.noConfusion hirq
        (fun _ _ => PollPc.noConfusion) ?_ fun seen => ?_
      · simp only [PollRun.account, hzero]
      · simp only [pollSeen, if_pos hi, hret]
        exact congrArg _ (Nat.zero_add _).symm
    · rename_i hi
      cases h
      refine Advances.idle (fun _ => rfl) (fun _ => rfl) PollPc.noConfusion (SameIrq.refl _)
        (fun _ _ => PollPc.noConfusion) rfl ?_
      simp only [pollSeen, if_neg hi]
  | fill i =>
    refine Or.inl ?_
    simp only [napiNext] at h
    split at h
    · rename_i hi
      cases h
      obtain ⟨hret, hirq⟩ := edmaAllocRxBuffer_refillable (dev.rx 0 i) allocs
      refine Advances.outside (n := (edmaAllocRxBuffer (dev.rx 0 i) allocs).1) (fun _ => rfl)
        PollPc.noConfusion hirq (fun _ _ => PollPc.noConfusion) ?_ fun seen => ?_
      · simp only [PollRun.account, hzero]
      · simp only [pollSeen, if_pos hi, hret]
        exact congrArg _ (Nat.zero_add _).symm
    · rename_i hi
      cases h
      refine Advances.idle (fun _ => rfl) (fun _ => rfl) PollPc.noConfusion (SameIrq.refl _)
        (fun _ _ => PollPc.noConfusion) rfl ?_
      simp only [pollSeen, if_neg hi]
  | resume i =>
    refine Or.inl ?_
    simp only [napiNext] at h
    split at h
    · cases h
      exact Advances.idle (fun _ => rfl) (fun _ => rfl) PollPc.noConfusion ⟨rfl, fun _ _ => rfl⟩
        (fun _ _ => PollPc.noConfusion) rfl rfl
    · cases h
      exact Advances.idle (fun _ => rfl) (fun _ => rfl) PollPc.noConfusion (SameIrq.refl _)
        (fun _ _ => PollPc.noConfusion) rfl rfl
  | finish =>
    cases h
    exact Or.inr ⟨rfl, rfl⟩
  | returned => cases h

/-- Progress of the hardware lets the poll go on. -/
theorem pollStep_cases {a : PollLabel} (h : pollStep soc virtToPhys maxGmacs budget s a = some t) :
    Advances budget s a t ∨ s.pc = .finish ∧ t = s.finish budget := by
  cases a with
  | next allocs => exact napiNext_cases h
  | hw progress =>
    simp only [pollStep] at h
    split at h
    · cases h
    · rename_i hpc
      cases h
      exact Or.inl ⟨hpc, sameIrq_progress _ _, id, fun _ _ => rfl⟩

/-- Every step does the work that it sees. -/
theorem pollStep_account {a : PollLabel}
    (h : pollStep soc virtToPhys maxGmacs budget s a = some t) (hs : s.Budgeted budget)
    (seen : List RingSeen) :
    s.accountAfter budget (pollSeen s a ++ seen) = t.accountAfter budget seen := by
  obtain hgo | ⟨hpc, rfl⟩ := pollStep_cases h
  · exact hgo.account hs seen
  · obtain ⟨dev, workDone, pc⟩ := s
    subst hpc
    cases a <;> rfl

theorem pollStep_budgeted {a : PollLabel}
    (h : pollStep soc virtToPhys maxGmacs budget s a = some t) (hs : s.Budgeted budget) :
    t.Budgeted budget := by
  obtain hgo | ⟨-, rfl⟩ := pollStep_cases h
  · exact hgo.budgeted hs
  · exact fun _ _ => PollPc.noConfusion

/-- The end of a poll that is scheduled. -/
theorem finish_ended {ehw : EdmaHw} (hnapi : ehw.napi = .scheduled)
    (hsame : SameIrq ehw s.dev.ehw) :
    PollEnded budget ehw (s.finish budget) := by
  have hsched : s.dev.ehw.napi = .scheduled := hsame.napi.trans hnapi
  by_cases hless : s.workDone.toInt < budget
  · have hend : (s.finish budget).dev.ehw =
        { s.dev.ehw with napi := s.dev.ehw.napi.complete }.enableRingIrqs := if_pos hless
    have hidle : (s.finish budget).dev.ehw.napi = .idle := by
      simp only [hend, EdmaHw.enableRingIrqs, writeRings_napi, hsched, NapiState.complete]
    refine ⟨iff_of_true hidle hless, fun _ => ?_, fun hne => absurd hidle hne⟩
    rw [hend]
    exact enableRingIrqs_masksEnabled _
  · have hend : (s.finish budget).dev.ehw = s.dev.ehw := if_neg hless
    have hbusy : (s.finish budget).dev.ehw.napi ≠ .idle := by
      rw [hend, hsched]
      exact NapiState.noConfusion
    refine ⟨iff_of_false hbusy hless, fun hidle => absurd hidle hbusy, fun _ r hr => ?_⟩
    rw [hend]
    exact hsame.masks r hr

/-- A poll that has not returned has left NAPI and the masks alone. -/
structure PollInv (budget : Nat) (ehw : EdmaHw) (s : PollRun) : Prop where
  running : s.pc ≠ .returned → SameIrq ehw s.dev.ehw
  ended : s.pc = .returned → PollEnded budget ehw s

theorem PollInv.step {ehw : EdmaHw} (hnapi : ehw.napi = .scheduled) {a : PollLabel}
    (hinv : PollInv budget ehw s) (h : pollStep soc virtToPhys maxGmacs budget s a = some t) :
    PollInv budget ehw t := by
  have hrunning : s.pc ≠ .returned := by
    intro hpc
    cases a with
    | next allocs => simp only [pollStep, napiNext, hpc, reduceCtorEq] at h
    | hw progress => simp only [pollStep, hpc, if_true, reduceCtorEq] at h
  have hsame := hinv.running hrunning
  obtain hgo | ⟨-, rfl⟩ := pollStep_cases h
  · exact ⟨fun _ => hsame.trans hgo.irq, fun hpc => absurd hpc hgo.running⟩
  · exact ⟨fun hpc => absurd rfl hpc, fun _ => finish_ended hnapi hsame⟩

end Step

/-- A poll keeps its budget if and only if the work that there is in its rings when it looks at
    them, added up as a C `int`, does not exceed it. -/
theorem pollRun_budgetKept_iff {soc : Soc} {virtToPhys : Nat → BitVec 32} {maxGmacs budget : Nat}
    {dev : EdmaPoll} {labels : List PollLabel} {t : PollRun}
    (hnapi : dev.ehw.napi = .scheduled)
    (hrun : run (pollStep soc virtToPhys maxGmacs budget) (.start dev) labels = some t)
    (hret : t.pc = .returned) :
    BudgetKept budget dev.ehw t ↔
      i32 (ringWork budget
        (trace (pollStep soc virtToPhys maxGmacs budget) pollSeen (.start dev) labels)) ≤
        budget := by
  have hstart : PollInv budget dev.ehw (.start dev) :=
    ⟨fun _ => SameIrq.refl _, fun hpc => absurd hpc PollPc.noConfusion⟩
  have hinv : PollInv budget dev.ehw t :=
    run_inv (fun _ _ _ hs hstep => hs.step hnapi hstep) hstart hrun
  let seen := trace (pollStep soc virtToPhys maxGmacs budget) pollSeen (.start dev) labels
  -- When it starts, the poll has done nothing and will see all of this.
  have haccount : (PollRun.start dev).accountAfter budget seen = t.accountAfter budget [] :=
    run_trace_due (PollRun.accountAfter budget) (fun _ _ _ hs hstep => pollStep_budgeted hstep hs)
      (fun _ _ _ hs hstep => pollStep_account hstep hs) (fun _ _ => PollPc.noConfusion) hrun
  have hstart' : (PollRun.start dev).accountAfter budget seen =
      BitVec.ofNat 32 (ringWork budget seen) := by
    simp only [PollRun.accountAfter, PollRun.account, PollRun.due, PollRun.start, Nat.zero_add]
    exact BitVec.zero_add _
  have hend : t.accountAfter budget [] = t.workDone := by
    simp only [PollRun.accountAfter, PollRun.account, PollRun.due, hret, ringWork]
    exact (BitVec.add_zero _).trans (BitVec.add_zero _)
  have hwork : t.workDone.toInt = i32 (ringWork budget seen) :=
    congrArg BitVec.toInt (hend.symm.trans (haccount.symm.trans hstart'))
  rw [← hwork]
  exact ⟨BudgetKept.bound, fun hbound => ⟨hinv.ended hret, hbound⟩⟩

/-- An instance whose poll is scheduled, with packets in all slots of the transmit store and
    completions for the first of them. -/
def pollOf (completions : Nat) : EdmaPoll where
  ehw := { idleEdma with
    napi := .scheduled
    txSkbStore i := if i < edmaRingSize then some (packetOf i []) else none
    txcmplRing q := ⟨q, edmaRingSize, fun i => ⟨BitVec.ofNat 32 i, 0#32⟩⟩
    regs := Function.update idleEdma.regs (.txcmplProdIdx 0) (BitVec.ofNat 32 completions) }
  rxfillCount _ := edmaRingSize
  rxfillDesc _ _ := ⟨0#32, 0#32⟩
  rxdescCount _ := edmaRingSize
  rxdescDesc _ _ := ⟨0#32, 0#32⟩
  rxdescFill i := i
  rxSkbStore _ := none
  rxph _ := ⟨0#32, 0#16, 0#32⟩
  devs _ := port1Dev
  rxEvents := []
  txEvents := []

/-- A poll from end to end, of an instance with one ring of each kind and no frame in it;
    there are no buffers but the ones given for the loop over the RXFILL rings. -/
def pollThrough (maxGmacs : Nat) (allocs : List EdmaRxAlloc) : List PollLabel :=
  List.replicate 5 (.next []) ++ [.next [], .next allocs, .next []] ++
    List.replicate (maxGmacs + 2) (.next [])

/-- An instance with `n` frames for port 1 in its RXDESC ring. -/
def framesOf (n : Nat) : EdmaPoll :=
  { pollOf 0 with
    ehw := { (pollOf 0).ehw with
      netdevArr := Function.update (fun _ => none) 0 (some 1)
      regs := Function.update idleEdma.regs (.rxdescProdIdx 0) (BitVec.ofNat 32 n) }
    rxdescDesc := fun _ i => ⟨BitVec.ofNat 32 i, 64#32⟩
    rxSkbStore := fun i => if i < edmaRingSize then some ⟨i, edmaRxBuffSize⟩ else none
    rxph := fun addr => ⟨addr, 0x2001#16, 0#32⟩ }

/-- A poll that finds two frames, and is given two buffers to post in their place. -/
def pollTwo : List PollLabel :=
  List.replicate 2 (.next []) ++
    pollThrough 6 [⟨⟨128, edmaRxBuffSize⟩, 4096#32⟩, ⟨⟨129, edmaRxBuffSize⟩, 8192#32⟩]

/-- Two frames and two buffers are within the budget. -/
theorem pollRun_budgetKept_four :
    ∃ t, run (pollStep .ipq807x (BitVec.ofNat 32) 6 edmaNapiWork) (.start (framesOf 2)) pollTwo =
        some t ∧
      t.workDone = 4#32 ∧ BudgetKept edmaNapiWork (framesOf 2).ehw t := by
  have hmap : (run (pollStep .ipq807x (BitVec.ofNat 32) 6 edmaNapiWork) (.start (framesOf 2))
      pollTwo).map (fun t => (t.pc, t.workDone)) = some (.returned, 4#32) := by decide +kernel
  obtain ⟨t, hrun, ht⟩ := Option.map_eq_some_iff.mp hmap
  obtain ⟨hret, hwork⟩ := Prod.mk.inj ht
  exact ⟨t, hrun, hwork, (pollRun_budgetKept_iff rfl hrun hret).mpr (by decide +kernel)⟩

/-- A transmit ring that has been emptied since the last poll brings more completions than the
    budget allows for, and the poll returns them all. -/
theorem pollRun_overBudget :
    (pollOf 101).ehw.napi = .scheduled ∧
      ∃ t, run (pollStep .ipq807x (BitVec.ofNat 32) 6 edmaNapiWork) (.start (pollOf 101))
          (pollThrough 6 []) = some t ∧
        t.pc = .returned ∧ t.workDone = 101#32 ∧ ¬ BudgetKept edmaNapiWork (pollOf 101).ehw t := by
  have hmap : (run (pollStep .ipq807x (BitVec.ofNat 32) 6 edmaNapiWork) (.start (pollOf 101))
      (pollThrough 6 [])).map (fun t => (t.pc, t.workDone)) =
      some (.returned, 101#32) := by decide +kernel
  obtain ⟨t, hrun, ht⟩ := Option.map_eq_some_iff.mp hmap
  obtain ⟨hret, hwork⟩ := Prod.mk.inj ht
  refine ⟨rfl, t, hrun, hret, hwork, fun hkept => ?_⟩
  have hbound := hkept.bound
  rw [hwork] at hbound
  exact absurd hbound (by decide)

end NssDp.Edma
