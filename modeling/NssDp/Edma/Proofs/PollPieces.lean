import NssDp.Edma.Proofs.CleanTx
import NssDp.Edma.Proofs.PollBudget
import NssDp.Misc.Simulation

/-!
# The pieces of an EDMA poll

What each piece of `edma_napi` does to the work done, to the consumer indices and to the place
where the poll stands. However the hardware goes on meanwhile, a poll takes a bounded number of
pieces, and before it returns it is held up by nothing but a frame that is longer than its buffer
and a completion index that is not in its ring.
-/

namespace NssDp.Edma

open Cyclic Lts Word

/-- The consumer indices that the poll writes. -/
def EdmaReg.isConsIdx : EdmaReg → Bool
  | .rxdescConsIdx _ | .txcmplConsIdx _ => true
  | _ => false

/-- The rings are the same ones, and so are the consumer indices but for those in `written`. -/
structure RingsKept (written : List EdmaReg) (ehw ehw' : EdmaHw) : Prop where
  rxdescRings : ehw'.rxdescRings = ehw.rxdescRings
  txcmplRings : ehw'.txcmplRings = ehw.txcmplRings
  rxfillRings : ehw'.rxfillRings = ehw.rxfillRings
  rxdescRing : ehw'.rxdescRing = ehw.rxdescRing
  txcmplId : ∀ q, (ehw'.txcmplRing q).id = (ehw.txcmplRing q).id
  consIdx : ∀ r, r.isConsIdx = true → r ∉ written → ehw'.regs r = ehw.regs r

section Kept

variable {written written' : List EdmaReg} {ehw ehw₁ ehw₂ : EdmaHw}

theorem RingsKept.refl (ehw : EdmaHw) : RingsKept [] ehw ehw :=
  ⟨rfl, rfl, rfl, rfl, fun _ => rfl, fun _ _ _ => rfl⟩

theorem RingsKept.trans (h₁ : RingsKept written ehw ehw₁) (h₂ : RingsKept written' ehw₁ ehw₂) :
    RingsKept (written ++ written') ehw ehw₂ := by
  refine ⟨h₂.rxdescRings.trans h₁.rxdescRings, h₂.txcmplRings.trans h₁.txcmplRings,
    h₂.rxfillRings.trans h₁.rxfillRings, h₂.rxdescRing.trans h₁.rxdescRing, ?_, ?_⟩
  · exact fun q => (h₂.txcmplId q).trans (h₁.txcmplId q)
  · intro r hr hnot
    rw [List.mem_append, not_or] at hnot
    exact (h₂.consIdx r hr hnot.2).trans (h₁.consIdx r hr hnot.1)

theorem ringsKept_touch (ehw : EdmaHw) (accesses : List EdmaAccess) :
    RingsKept [] ehw (ehw.touch accesses) :=
  ⟨rfl, rfl, rfl, rfl, fun _ => rfl, fun _ _ _ => rfl⟩

/-- A register is written that is no consumer index of the poll, or is in `written`. -/
theorem ringsKept_regWrite (ehw : EdmaHw) {reg : EdmaReg}
    (hreg : reg.isConsIdx = true → reg ∈ written) (val : BitVec 32) :
    RingsKept written ehw (ehw.regWrite reg val) := by
  refine ⟨rfl, rfl, rfl, rfl, fun _ => rfl, ?_⟩
  intro r hr hnot
  apply Function.update_of_ne
  rintro rfl
  exact hnot (hreg hr)

theorem ringsKept_progress (dev : EdmaPoll) (hw : HwProgress) :
    RingsKept [] dev.ehw (dev.progress hw).ehw := by
  refine ⟨rfl, rfl, rfl, rfl, fun _ => rfl, ?_⟩
  intro r hr _
  cases r <;> first | rfl | cases hr

/-- No interrupt mask is a consumer index. -/
theorem ringsKept_writeRings (ehw : EdmaHw) {regs : List EdmaReg}
    (hregs : ∀ r ∈ regs, r.isConsIdx = false) (val : BitVec 32) :
    RingsKept [] ehw (ehw.writeRings regs val) := by
  rw [EdmaHw.writeRings_eq]
  refine ⟨rfl, rfl, rfl, rfl, fun _ => rfl, ?_⟩
  intro r hr _
  apply if_neg
  intro hmem
  rw [hregs r hmem] at hr
  cases hr

theorem ringsKept_enableRingIrqs (ehw : EdmaHw) : RingsKept [] ehw ehw.enableRingIrqs := by
  have hmap : ∀ (n : Nat) (f : Nat → EdmaReg), (∀ i, (f i).isConsIdx = false) →
      ∀ r ∈ (List.range n).map f, r.isConsIdx = false := by
    intro n f hf r hr
    obtain ⟨i, -, rfl⟩ := List.mem_map.mp hr
    exact hf i
  exact ((ringsKept_writeRings _ (hmap _ _ fun _ => rfl) _).trans
    (ringsKept_writeRings _ (hmap _ _ fun _ => rfl) _)).trans
      (ringsKept_writeRings _ (hmap _ _ fun _ => rfl) _)

theorem ringsKept_napiEnd (ehw : EdmaHw) (workDone : BitVec 32) (budget : Nat) :
    RingsKept [] ehw (edmaNapiEnd ehw workDone budget) := by
  have hnapi : RingsKept [] ehw { ehw with napi := ehw.napi.complete } :=
    ⟨rfl, rfl, rfl, rfl, fun _ => rfl, fun _ _ _ => rfl⟩
  rw [edmaNapiEnd]
  split
  · exact hnapi.trans (ringsKept_enableRingIrqs _)
  · exact .refl ehw

/-- Buffers are posted on an RXFILL ring. -/
theorem ringsKept_alloc (rx : EdmaRx) (allocs : List EdmaRxAlloc) :
    RingsKept [] rx.ehw (edmaAllocRxBuffer rx allocs).2.ehw := by
  unfold edmaAllocRxBuffer
  dsimp only
  generalize hl : allocRxLoop _ allocs _ = l
  obtain ⟨-, hehw⟩ := hl ▸ allocRxLoop_numAlloc rx.fillCons allocs ⟨0, _, _⟩ (Nat.two_pow_pos 16)
  have hkept : RingsKept [] rx.ehw l.rx.ehw := by
    rw [hehw]
    exact ringsKept_touch rx.ehw _
  split
  · exact hkept
  · exact hkept.trans (ringsKept_regWrite _ (fun h => Bool.noConfusion h) _)

theorem allocRxLoop_rxdesc (cons : Nat) : ∀ (allocs : List EdmaRxAlloc) (l : AllocRxLoop),
    (allocRxLoop cons allocs l).rx.rxdesc = l.rx.rxdesc := by
  intro allocs
  induction allocs with
  | nil => exact fun _ => rfl
  | cons alloc allocs ih =>
    intro l
    rw [allocRxLoop]
    dsimp only
    split
    · rfl
    · split
      · rfl
      · split
        · rfl
        · exact ih _

theorem edmaAllocRxBuffer_rxdesc (rx : EdmaRx) (allocs : List EdmaRxAlloc) :
    (edmaAllocRxBuffer rx allocs).2.rxdesc = rx.rxdesc := by
  unfold edmaAllocRxBuffer
  dsimp only
  split <;> exact allocRxLoop_rxdesc _ allocs _

end Kept

theorem regIdx_lt (ehw : EdmaHw) (reg : EdmaReg) : ehw.regIdx reg < 2 ^ 16 := by
  rw [EdmaHw.regIdx, edmaIdxMask, BitVec.toNat_and]
  exact Nat.lt_of_le_of_lt Nat.and_le_right (by decide)

section CleanTx

variable {virtToPhys : Nat → BitVec 32} {ring : EdmaTxcmplRing} {prodIdx : Nat}

theorem idxDistance_le (count prod : Nat) :
    ∀ fuel cons, idxDistance count prod fuel cons ≤ fuel := by
  intro fuel
  induction fuel with
  | zero => exact fun _ => le_rfl
  | succ fuel ih =>
    intro cons
    rw [idxDistance]
    split
    · exact Nat.zero_le _
    · exact Nat.succ_le_succ (ih _)

/-- The loop ends at the producer index, and has no turn only where it starts there. -/
theorem cleanTxLoop_ends : ∀ {fuel consIdx : Nat} {store : Nat → Option SkBuff} {l : CleanTxLoop},
    cleanTxLoop virtToPhys ring prodIdx fuel consIdx store = some l →
      l.consIdx = prodIdx ∧ (l.consumed = 0 → consIdx = prodIdx) := by
  intro fuel
  induction fuel with
  | zero =>
    intro consIdx store l hl
    cases hl
  | succ fuel ih =>
    intro consIdx store l hl
    rw [cleanTxLoop] at hl
    by_cases heq : consIdx = prodIdx
    · rw [if_pos heq] at hl
      cases hl
      exact ⟨heq, fun _ => heq⟩
    · rw [if_neg heq] at hl
      dsimp only at hl
      cases hslot : store (ring.desc consIdx).bufferAddr.toNat with
      | none =>
        rw [hslot] at hl
        obtain ⟨r, hr, rfl⟩ := Option.map_eq_some_iff.mp hl
        exact ⟨(ih hr).1, fun h => absurd h (Nat.succ_ne_zero _)⟩
      | some skb =>
        rw [hslot] at hl
        obtain ⟨r, hr, rfl⟩ := Option.map_eq_some_iff.mp hl
        exact ⟨(ih hr).1, fun h => absurd h (Nat.succ_ne_zero _)⟩

/-- Where both indices are in the ring, the loop ends. -/
theorem cleanTxLoop_isSome (virtToPhys : Nat → BitVec 32) (hcount : ring.count < 2 ^ 16)
    (hprod : prodIdx < ring.count) :
    ∀ (fuel cons : Nat) (store : Nat → Option SkBuff), cons < ring.count →
      gap ring.count cons prodIdx < fuel →
      (cleanTxLoop virtToPhys ring prodIdx fuel cons store).isSome = true := by
  intro fuel
  induction fuel with
  | zero => exact fun _ _ _ hgap => absurd hgap (Nat.not_lt_zero _)
  | succ fuel ih =>
    intro cons store hcons hgap
    rw [cleanTxLoop]
    by_cases heq : cons = prodIdx
    · rw [if_pos heq]
      rfl
    · rw [if_neg heq]
      have hstep := gap_cons_succ hcons hprod heq
      have hloop := ih ((cons + 1) % ring.count)
        (Function.update store (ring.desc cons).bufferAddr.toNat none)
        (Nat.mod_lt _ (Nat.zero_lt_of_lt hcons)) (by omega)
      dsimp only
      rw [cleanTx_next hcount hcons]
      cases store (ring.desc cons).bufferAddr.toNat <;> simpa using hloop

/-- What `edma_clean_tx` does to the instance. -/
theorem edmaCleanTx_ehw {ehw : EdmaHw} {q : Nat} {r : CleanTx}
    (hr : edmaCleanTx virtToPhys ehw q = some r) : ∃ store accesses,
      (r.ehw = { ehw.touch accesses with txSkbStore := store } ∧
        ehw.cmplCons q = ehw.cmplProd q) ∨
      r.ehw = ({ ehw.touch accesses with txSkbStore := store } : EdmaHw).regWrite
        (.txcmplConsIdx (ehw.txcmplRing q).id) (BitVec.ofNat 32 (ehw.cmplProd q)) := by
  unfold edmaCleanTx at hr
  dsimp only at hr
  split at hr
  · cases hr
  · rename_i l hl
    obtain ⟨hcons, hzero⟩ := cleanTxLoop_ends hl
    refine ⟨l.store, [.ringArray, .regRead (.txcmplProdIdx (ehw.txcmplRing q).id),
      .regRead (.txcmplConsIdx (ehw.txcmplRing q).id)], ?_⟩
    split at hr
    · rename_i hnone
      cases hr
      exact .inl ⟨rfl, hzero hnone⟩
    · cases hr
      rw [hcons]
      exact .inr rfl

/-- Completions are reaped from a TXCMPL ring: its consumer index becomes the producer index. -/
theorem edmaCleanTx_kept {ehw : EdmaHw} {q : Nat} {r : CleanTx}
    (hr : edmaCleanTx virtToPhys ehw q = some r) :
    RingsKept [.txcmplConsIdx (ehw.txcmplRing q).id] ehw r.ehw ∧
      r.ehw.cmplCons q = ehw.cmplProd q ∧ r.ret ≤ 2 ^ 16 := by
  have hret : r.ret ≤ 2 ^ 16 := by
    rw [(edmaCleanTx_pending hr).1]
    exact idxDistance_le _ _ _ _
  obtain ⟨store, accesses, ⟨hehw, hcons⟩ | hehw⟩ := edmaCleanTx_ehw hr
  · rw [hehw]
    exact ⟨⟨rfl, rfl, rfl, rfl, fun _ => rfl, fun _ _ _ => rfl⟩, hcons, hret⟩
  · rw [hehw]
    refine ⟨?_, ?_, hret⟩
    · refine ⟨rfl, rfl, rfl, rfl, fun _ => rfl, fun reg _ hnot => ?_⟩
      exact Function.update_of_ne (fun heq => hnot (List.mem_singleton.mpr heq)) _ _
    · exact EdmaHw.regWrite_regIdx_self _ _ (regIdx_lt ehw _)

theorem edmaCleanTx_isSome (virtToPhys : Nat → BitVec 32) {ehw : EdmaHw} {q : Nat}
    (hcons : ehw.cmplCons q < (ehw.txcmplRing q).count)
    (hprod : ehw.cmplProd q < (ehw.txcmplRing q).count)
    (hcount : (ehw.txcmplRing q).count < 2 ^ 16) :
    (edmaCleanTx virtToPhys ehw q).isSome = true := by
  obtain ⟨l, hl⟩ := Option.isSome_iff_exists.mp
    (cleanTxLoop_isSome virtToPhys hcount hprod (2 ^ 16) _ ehw.txSkbStore hcons
      (Nat.lt_trans (gap_lt (Nat.zero_lt_of_lt hcons) _ _) hcount))
  rw [EdmaHw.cmplProd, EdmaHw.cmplCons] at hl
  simp only [edmaCleanTx, EdmaHw.touch_txcmplRing, EdmaHw.touch_regIdx, EdmaHw.touch_txSkbStore,
    hl]
  split <;> rfl

end CleanTx

/-- A poll goes on from `s` to `t`, and has written the consumer indices in `written`. -/
structure PollGoes (written : List EdmaReg) (s t : PollRun) (pc : PollPc) (work : Nat) : Prop where
  pc : t.pc = pc
  work : t.workDone = s.workDone + BitVec.ofNat 32 work
  kept : RingsKept written s.dev.ehw t.dev.ehw

/-- What one piece of a poll does. -/
inductive PollPiece (maxGmacs budget : Nat) (s t : PollRun) : Prop where
  | rxOpen (i : Nat) (hpc : s.pc = .rxStart i) (hi : i < s.dev.ehw.rxdescRings)
      (cons : Nat) (hgo : PollGoes [] s t (.rxLoop i ⟨cons, 0, budget⟩) 0)
  | rxFrame (i : Nat) (call : CleanRx) (hpc : s.pc = .rxLoop i call)
      (hfound : FrameFound (s.dev.rxOf i) call) (cons : Nat)
      (hgo : PollGoes [] s t (.rxLoop i ⟨cons, call.workDone + 1, call.workToDo⟩) 0)
  | rxDone (i : Nat) (call : CleanRx) (hpc : s.pc = .rxLoop i call)
      (hnone : ¬ FrameFound (s.dev.rxOf i) call) (hgo : PollGoes [] s t (.rxEnd i call) 0)
  | rxClose (i : Nat) (call : CleanRx) (hpc : s.pc = .rxEnd i call)
      (hgo : PollGoes [.rxdescConsIdx (s.dev.ehw.rxdescRing i).id] s t (.rxStart (i + 1))
        call.workDone)
      (hcons : t.dev.ehw.regs (.rxdescConsIdx (s.dev.ehw.rxdescRing i).id) =
        BitVec.ofNat 32 call.consIdx)
  | rxOver (i : Nat) (hpc : s.pc = .rxStart i) (hi : s.dev.ehw.rxdescRings ≤ i)
      (hgo : PollGoes [] s t (.tx 0) 0)
  | txClean (i : Nat) (hpc : s.pc = .tx i) (hi : i < s.dev.ehw.txcmplRings) (k : Nat)
      (hk : k ≤ 2 ^ 16)
      (hgo : PollGoes [.txcmplConsIdx (s.dev.ehw.txcmplRing i).id] s t (.tx (i + 1)) k)
      (hcons : t.dev.ehw.cmplCons i = s.dev.ehw.cmplProd i)
  | txOver (i : Nat) (hpc : s.pc = .tx i) (hi : s.dev.ehw.txcmplRings ≤ i)
      (hgo : PollGoes [] s t (.fill 0) 0)
  | fill (i : Nat) (hpc : s.pc = .fill i) (hi : i < s.dev.ehw.rxfillRings) (k : Nat)
      (hk : k ≤ 2 ^ 16) (hgo : PollGoes [] s t (.fill (i + 1)) k)
  | fillOver (i : Nat) (hpc : s.pc = .fill i) (hi : s.dev.ehw.rxfillRings ≤ i)
      (hgo : PollGoes [] s t (.resume 0) 0)
  | resume (i : Nat) (hpc : s.pc = .resume i) (hi : i < maxGmacs)
      (hgo : PollGoes [] s t (.resume (i + 1)) 0)
  | resumeOver (i : Nat) (hpc : s.pc = .resume i) (hi : maxGmacs ≤ i)
      (hgo : PollGoes [] s t .finish 0)
  | finish (hpc : s.pc = .finish) (hgo : PollGoes [] s t .returned 0)

section Pieces

variable {soc : Soc} {virtToPhys : Nat → BitVec 32} {maxGmacs budget : Nat} {s t : PollRun}
variable {allocs : List EdmaRxAlloc}

/-- What a turn of the loop over an RXDESC ring does to the rings and to its locals. -/
def TurnKept (rx : EdmaRx) (call : CleanRx) : CleanRxTurn → Prop
  | .done rx' => RingsKept [] rx.ehw rx'.ehw
  | .next rx' call' => RingsKept [] rx.ehw rx'.ehw ∧
    ∃ cons, call' = ⟨cons, u32 (call.workDone + 1), call.workToDo⟩
  | .panic _ => True

theorem edmaCleanRxTurn_kept (soc : Soc) (rx : EdmaRx) (call : CleanRx) :
    TurnKept rx call (edmaCleanRxTurn soc rx call) := by
  have hkept := ringsKept_touch rx.ehw [.regRead (.rxdescProdIdx rx.rxdesc.id)]
  unfold edmaCleanRxTurn
  dsimp only
  split
  · exact hkept
  · split
    · exact hkept
    · split
      · exact ⟨hkept, _, rfl⟩
      · split
        · trivial
        · exact ⟨hkept, _, rfl⟩

theorem napiNext_piece (h : napiNext soc virtToPhys maxGmacs budget s allocs = some t) :
    PollPiece maxGmacs budget s t := by
  obtain ⟨dev, workDone, pc⟩ := s
  have hzero : workDone = workDone + BitVec.ofNat 32 0 := (BitVec.add_zero _).symm
  cases pc with
  | rxStart i =>
    simp only [napiNext] at h
    split at h
    · rename_i hi
      cases h
      exact .rxOpen i rfl hi _ ⟨rfl, hzero, ringsKept_touch _ _⟩
    · rename_i hi
      cases h
      exact .rxOver i rfl (Nat.not_lt.mp hi) ⟨rfl, hzero, .refl _⟩
  | rxLoop i call =>
    have hcount := edmaCleanRxTurn_counted soc (dev.rxOf i) call
    have hkept := edmaCleanRxTurn_kept soc (dev.rxOf i) call
    simp only [napiNext] at h
    split at h
    · rename_i rx hturn
      rw [hturn] at hcount hkept
      cases h
      exact .rxDone i call rfl hcount.1 ⟨rfl, hzero, hkept⟩
    · rename_i rx call' hturn
      rw [hturn] at hcount hkept
      obtain ⟨hrings, cons, rfl⟩ := hkept
      cases h
      rw [hcount.1.workDone_lt]
      exact .rxFrame i call rfl hcount.1 cons ⟨rfl, hzero, hrings⟩
    · cases h
  | rxEnd i call =>
    cases h
    have hid : (edmaAllocRxBuffer (dev.rxOf i) allocs).2.rxdesc.id = (dev.ehw.rxdescRing i).id :=
      congrArg RxdescRing.id (edmaAllocRxBuffer_rxdesc _ _)
    refine .rxClose i call rfl ⟨rfl, rfl, (ringsKept_alloc (dev.rxOf i) allocs).trans ?_⟩ ?_
    · rw [← hid]
      exact ringsKept_regWrite _ (fun _ => List.mem_cons_self) _
    · rw [← hid]
      exact Function.update_self _ _ _
  | tx i =>
    simp only [napiNext] at h
    split at h
    · rename_i hi
      obtain ⟨r, hr, rfl⟩ := Option.map_eq_some_iff.mp h
      obtain ⟨hkept, hcons, hret⟩ := edmaCleanTx_kept hr
      exact .txClean i rfl hi r.ret hret ⟨rfl, rfl, hkept⟩ hcons
    · rename_i hi
      cases h
      exact .txOver i rfl (Nat.not_lt.mp hi) ⟨rfl, hzero, .refl _⟩
  | fill i =>
    simp only [napiNext] at h
    split at h
    · rename_i hi
      cases h
      have hret : (edmaAllocRxBuffer (dev.rx 0 i) allocs).1 ≤ 2 ^ 16 := by
        rw [(edmaAllocRxBuffer_refillable _ _).1]
        exact Nat.le_of_lt (u16_lt _)
      exact .fill i rfl hi _ hret ⟨rfl, rfl, ringsKept_alloc (dev.rx 0 i) allocs⟩
    · rename_i hi
      cases h
      exact .fillOver i rfl (Nat.not_lt.mp hi) ⟨rfl, hzero, .refl _⟩
  | resume i =>
    simp only [napiNext] at h
    split at h
    · rename_i hi
      cases h
      exact .resume i rfl hi ⟨rfl, hzero, .refl _⟩
    · rename_i hi
      cases h
      exact .resumeOver i rfl (Nat.not_lt.mp hi) ⟨rfl, hzero, .refl _⟩
  | finish =>
    cases h
    exact .finish rfl ⟨rfl, hzero, ringsKept_napiEnd _ _ _⟩
  | returned => cases h

end Pieces

/-- The pieces that a poll still takes at most. -/
def PollRun.pieces (maxGmacs budget : Nat) (s : PollRun) : Nat :=
  let ehw := s.dev.ehw
  let rest := ehw.txcmplRings + ehw.rxfillRings + maxGmacs + 5
  match s.pc with
  | .rxStart i => (ehw.rxdescRings - i) * (budget + 3) + rest
  | .rxLoop i call =>
    (BitVec.ofInt 32 call.workToDo).toNat - call.workDone + 2 +
      (ehw.rxdescRings - (i + 1)) * (budget + 3) + rest
  | .rxEnd i _ => 1 + (ehw.rxdescRings - (i + 1)) * (budget + 3) + rest
  | .tx i => ehw.txcmplRings - i + ehw.rxfillRings + maxGmacs + 4
  | .fill i => ehw.rxfillRings - i + maxGmacs + 3
  | .resume i => maxGmacs - i + 2
  | .finish => 1
  | .returned => 0

/-- A piece of the poll, not progress of the hardware. -/
def PollLabel.isNext : PollLabel → Bool
  | .next _ => true
  | .hw _ => false

/-- The poll is at a frame that is longer than what is left of its buffer. -/
def FrameTooLong (s : PollRun) : Prop :=
  ∃ i call skb, s.pc = .rxLoop i call ∧
    (s.dev.rxOf i).rxSkbStore ((s.dev.rxOf i).opaqueAt
      ((s.dev.rxOf i).rxdesc.desc call.consIdx).bufferAddr) = some skb ∧
    skb.putOverflows (((s.dev.rxOf i).rxdesc.desc call.consIdx).status &&&
      edmaRxdescPacketLenMask).toNat = true

/-- The poll is at a TXCMPL ring one of whose indices is outside the ring. -/
def IndexOutside (s : PollRun) : Prop :=
  ∃ i, s.pc = .tx i ∧ ¬ (s.dev.ehw.cmplCons i < (s.dev.ehw.txcmplRing i).count ∧
    s.dev.ehw.cmplProd i < (s.dev.ehw.txcmplRing i).count ∧
    (s.dev.ehw.txcmplRing i).count < 2 ^ 16)

section Ends

variable {soc : Soc} {virtToPhys : Nat → BitVec 32} {maxGmacs budget : Nat} {s t : PollRun}

theorem PollPiece.pieces_lt (h : PollPiece maxGmacs budget s t) :
    1 + t.pieces maxGmacs budget ≤ s.pieces maxGmacs budget := by
  have hring : ∀ {n i : Nat}, i < n →
      (n - i) * (budget + 3) = (n - (i + 1)) * (budget + 3) + (budget + 3) := by
    intro n i hi
    rw [← Nat.succ_mul]
    congr 1
    omega
  have hbudget : (BitVec.ofInt 32 (budget : Int)).toNat ≤ budget := by
    rw [BitVec.ofInt_natCast, BitVec.toNat_ofNat]
    exact Nat.mod_le _ _
  cases h with
  | rxOpen i hpc hi cons hgo =>
    simp only [PollRun.pieces, hpc, hgo.pc, hgo.kept.rxdescRings, hgo.kept.txcmplRings,
      hgo.kept.rxfillRings, hring hi]
    omega
  | rxFrame i call hpc hfound cons hgo =>
    have := hfound.2
    simp only [PollRun.pieces, hpc, hgo.pc, hgo.kept.rxdescRings, hgo.kept.txcmplRings,
      hgo.kept.rxfillRings]
    omega
  | rxDone i call hpc hnone hgo =>
    simp only [PollRun.pieces, hpc, hgo.pc, hgo.kept.rxdescRings, hgo.kept.txcmplRings,
      hgo.kept.rxfillRings]
    omega
  | rxClose i call hpc hgo hcons =>
    simp only [PollRun.pieces, hpc, hgo.pc, hgo.kept.rxdescRings, hgo.kept.txcmplRings,
      hgo.kept.rxfillRings]
    omega
  | rxOver i hpc hi hgo =>
    simp only [PollRun.pieces, hpc, hgo.pc, hgo.kept.txcmplRings, hgo.kept.rxfillRings]
    omega
  | txClean i hpc hi k hk hgo hcons =>
    simp only [PollRun.pieces, hpc, hgo.pc, hgo.kept.txcmplRings, hgo.kept.rxfillRings]
    omega
  | txOver i hpc hi hgo =>
    simp only [PollRun.pieces, hpc, hgo.pc, hgo.kept.rxfillRings]
    omega
  | fill i hpc hi k hk hgo =>
    simp only [PollRun.pieces, hpc, hgo.pc, hgo.kept.rxfillRings]
    omega
  | fillOver i hpc hi hgo =>
    simp only [PollRun.pieces, hpc, hgo.pc]
    omega
  | resume i hpc hi hgo =>
    simp only [PollRun.pieces, hpc, hgo.pc]
    omega
  | resumeOver i hpc hi hgo =>
    simp only [PollRun.pieces, hpc, hgo.pc]
    omega
  | finish hpc hgo => simp only [PollRun.pieces, hpc, hgo.pc, le_refl]

theorem pollStep_pieces {a : PollLabel}
    (h : pollStep soc virtToPhys maxGmacs budget s a = some t) :
    (if a.isNext then 1 else 0) + t.pieces maxGmacs budget ≤ s.pieces maxGmacs budget := by
  cases a with
  | next allocs => exact (napiNext_piece h).pieces_lt
  | hw progress =>
    simp only [pollStep] at h
    split at h
    · cases h
    · cases h
      exact Nat.le_of_eq (Nat.zero_add _)

theorem rxHandOver_eq_none {rx : EdmaRx} {rxph : EdmaRxPreheader} {status : BitVec 32}
    {skb : RxSkb} (h : edmaRxHandOver soc rx rxph status skb = none) :
    skb.putOverflows (status &&& edmaRxdescPacketLenMask).toNat = true := by
  unfold edmaRxHandOver at h
  dsimp only at h
  split at h
  · cases h
  · split at h
    · cases h
    · split at h
      · cases h
      · split at h
        · cases h
        · split at h
          · assumption
          · split at h <;> cases h

/-- Nothing else holds up a poll. -/
theorem napiNext_eq_none {allocs : List EdmaRxAlloc}
    (h : napiNext soc virtToPhys maxGmacs budget s allocs = none) :
    s.pc = .returned ∨ FrameTooLong s ∨ IndexOutside s := by
  obtain ⟨dev, workDone, pc⟩ := s
  cases pc with
  | rxStart i | resume i =>
    simp only [napiNext] at h
    split at h <;> cases h
  | rxLoop i call =>
    refine .inr (.inl ⟨i, call, ?_⟩)
    simp only [napiNext] at h
    split at h
    · cases h
    · cases h
    · rename_i hturn
      unfold edmaCleanRxTurn at hturn
      dsimp only at hturn
      split at hturn
      · cases hturn
      · split at hturn
        · cases hturn
        · split at hturn
          · cases hturn
          · rename_i skb hskb
            split at hturn
            · rename_i hnone
              exact ⟨skb, rfl, hskb, rxHandOver_eq_none hnone⟩
            · cases hturn
  | rxEnd i call => cases h
  | tx i =>
    refine .inr (.inr ⟨i, rfl, ?_⟩)
    rintro ⟨hcons, hprod, hcount⟩
    simp only [napiNext] at h
    split at h
    · have hsome := edmaCleanTx_isSome virtToPhys hcons hprod hcount
      rw [Option.map_eq_none_iff] at h
      exact absurd h (Option.isSome_iff_ne_none.mp hsome)
    · cases h
  | fill i =>
    simp only [napiNext] at h
    split at h <;> cases h
  | finish => cases h
  | returned => exact .inl rfl

/-- In every run of a poll, whatever the hardware does meanwhile, there is a bound on the pieces
    that it takes; and where it has not returned it goes on, but for a frame that is longer than
    its buffer, and for a completion index outside its ring. -/
theorem pollRun_ends {dev : EdmaPoll} {labels : List PollLabel}
    (hrun : run (pollStep soc virtToPhys maxGmacs budget) (.start dev) labels = some t) :
    labels.countP PollLabel.isNext + t.pieces maxGmacs budget ≤
        dev.ehw.rxdescRings * (budget + 3) + dev.ehw.txcmplRings + dev.ehw.rxfillRings + maxGmacs +
          5 ∧
      (t.pc = .returned ∨ FrameTooLong t ∨ IndexOutside t ∨
        ∀ allocs, ∃ t', pollStep soc virtToPhys maxGmacs budget t (.next allocs) = some t') := by
  refine ⟨?_, ?_⟩
  · have hcount := run_countP_le (f := PollRun.pieces maxGmacs budget) (p := PollLabel.isNext)
      (fun _ _ _ hstep => pollStep_pieces hstep) hrun
    refine hcount.trans (Nat.le_of_eq ?_)
    simp only [PollRun.pieces, PollRun.start, Nat.sub_zero]
    omega
  · by_cases hgo : ∀ allocs, ∃ t',
        pollStep soc virtToPhys maxGmacs budget t (.next allocs) = some t'
    · exact .inr (.inr (.inr hgo))
    · obtain ⟨allocs, hstuck⟩ := not_forall.mp hgo
      have hnone : napiNext soc virtToPhys maxGmacs budget t allocs = none :=
        Option.eq_none_iff_forall_ne_some.mpr fun t' ht' => hstuck ⟨t', ht'⟩
      rcases napiNext_eq_none hnone with h | h | h
      · exact .inl h
      · exact .inr (.inl h)
      · exact .inr (.inr (.inl h))

end Ends

/-- A poll with one ring of each kind takes at most so many pieces. -/
theorem pollRun_ends_four : ∃ t,
    run (pollStep .ipq807x (BitVec.ofNat 32) 6 edmaNapiWork) (.start (pollOf 3))
        (pollThrough 6 [⟨⟨0, edmaRxBuffSize⟩, 64#32⟩]) = some t ∧
      (pollThrough 6 [⟨⟨0, edmaRxBuffSize⟩, 64#32⟩]).countP PollLabel.isNext +
        t.pieces 6 edmaNapiWork ≤ 1 * (100 + 3) + 1 + 1 + 6 + 5 := by
  have hsome : (run (pollStep .ipq807x (BitVec.ofNat 32) 6 edmaNapiWork) (.start (pollOf 3))
      (pollThrough 6 [⟨⟨0, edmaRxBuffSize⟩, 64#32⟩])).isSome = true := by decide +kernel
  obtain ⟨t, hrun⟩ := Option.isSome_iff_exists.mp hsome
  exact ⟨t, hrun, (pollRun_ends hrun).1⟩

end NssDp.Edma
