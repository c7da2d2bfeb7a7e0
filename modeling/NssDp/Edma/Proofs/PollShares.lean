import NssDp.Edma.Proofs.PollDrained
import NssDp.Edma.Proofs.RingsReady
import NssDp.Edma.Proofs.RingXmit
import NssDp.Misc.Service
import NssDp.Misc.Simulation

/-!
# What the RXDESC rings get of the polls

Each ring has the whole budget of a poll for itself, so no ring holds up another: with every poll
a ring is emptied, or the budget is taken from it. Frames that arrive meanwhile only come behind
the ones that were there.
-/

namespace NssDp.Edma

open Cyclic Lts

/-- The frames in an RXDESC ring that the hardware has not been told of as taken. -/
def EdmaPoll.heldFrames (dev : EdmaPoll) (j : Nat) : Nat :=
  gap (dev.rxdescCount j) (dev.rxOf j).descCons (dev.rxOf j).descProd

/-- The indices of an RXDESC ring are in the ring. -/
structure RxIndices (dev : EdmaPoll) (j : Nat) : Prop where
  count : dev.rxdescCount j < 2 ^ 16
  cons : (dev.rxOf j).descCons < dev.rxdescCount j
  prod : (dev.rxOf j).descProd < dev.rxdescCount j

/-- The hardware writes frames into descriptors of the RXDESC rings that it has back, if any. -/
def HwFills (s : PollRun) : PollLabel → Prop
  | .next _ => True
  | .hw progress => ∀ j < s.dev.ehw.rxdescRings,
    ((s.dev.progress progress).rxOf j).descProd < s.dev.rxdescCount j ∧
      s.dev.heldFrames j ≤ (s.dev.progress progress).heldFrames j

instance decidableHwFills (s : PollRun) : ∀ a, Decidable (HwFills s a)
  | .next _ => isTrue trivial
  | .hw _ => inferInstanceAs (Decidable (∀ j < _, _))

/-- Frames are taken from a ring by the driver, and arrive in it. -/
inductive RxFlow where
  | taken
  | arrived
  deriving DecidableEq, Repr

/-- The frames that a step of a poll moves from or to an RXDESC ring. -/
def rxFlow (j : Nat) : RxFlow → PollRun → PollLabel → Nat
  | .taken, s, .next _ =>
    match s.pc with
    | .rxLoop i call => if i = j ∧ FrameFound (s.dev.rxOf i) call then 1 else 0
    | _ => 0
  | .taken, _, .hw _ => 0
  | .arrived, _, .next _ => 0
  | .arrived, s, .hw progress => (s.dev.progress progress).heldFrames j - s.dev.heldFrames j

/-- The call of `edma_clean_rx` for a ring, from its loop to its end. -/
def PollPc.callOf (j : Nat) : PollPc → Option CleanRx
  | .rxLoop i call | .rxEnd i call => if i = j then some call else none
  | _ => none

/-- The frames that a call has taken from the ring and not told the hardware of. -/
def PollPc.untold (j : Nat) (pc : PollPc) : Nat := (pc.callOf j).elim 0 CleanRx.workDone

/-- The rings that a poll on `dev` finds are the same ones, and the indices of one of them are in
    order. -/
structure RxRingKept (dev : EdmaPoll) (budget j : Nat) (s : PollRun) : Prop where
  kept : ∃ written, RingsKept written dev.ehw s.dev.ehw
  count : s.dev.rxdescCount = dev.rxdescCount
  indices : RxIndices s.dev j
  place : PollPlace budget s

/-- A poll on `dev` has taken and seen arrive so many frames of an RXDESC ring. -/
structure RxShare (dev : EdmaPoll) (budget j : Nat) (moved : RxFlow → Nat) (s : PollRun) : Prop
    extends RxRingKept dev budget j s where
  account : s.dev.heldFrames j + moved .taken =
    dev.heldFrames j + moved .arrived + s.pc.untold j
  before : s.pc.rxThrough dev.ehw.rxdescRings ≤ j → s.pc.callOf j = none → moved .taken = 0
  call : ∀ call, s.pc.callOf j = some call → moved .taken = call.workDone ∧
    call.consIdx = slot (dev.rxdescCount j) (s.dev.rxOf j).descCons call.workDone ∧
    call.workDone ≤ s.dev.heldFrames j
  after : j < s.pc.rxThrough dev.ehw.rxdescRings →
    dev.heldFrames j ≤ moved .taken ∨ moved .taken = budget
  bound : moved .taken ≤ budget

section Kept

variable {soc : Soc} {virtToPhys : Nat → BitVec 32} {maxGmacs budget : Nat} {s t : PollRun}
variable {allocs : List EdmaRxAlloc}

/-- What a piece of a poll leaves to the hardware. -/
structure HwKept (s t : PollRun) : Prop where
  regs : ∀ r, r.isHw = true → t.dev.ehw.regs r = s.dev.ehw.regs r
  rxdescCount : t.dev.rxdescCount = s.dev.rxdescCount

/-- What a turn of the loop over an RXDESC ring does to the registers and to its index. -/
def TurnMoves (rx : EdmaRx) (call : CleanRx) : CleanRxTurn → Prop
  | .done rx' => rx'.ehw.regs = rx.ehw.regs
  | .next rx' call' => rx'.ehw.regs = rx.ehw.regs ∧
    call'.consIdx = edmaIdxNext rx.rxdesc.count call.consIdx
  | .panic _ => True

theorem edmaCleanRxTurn_moves (soc : Soc) (rx : EdmaRx) (call : CleanRx) :
    TurnMoves rx call (edmaCleanRxTurn soc rx call) := by
  unfold edmaCleanRxTurn
  dsimp only
  split
  · rfl
  · split
    · rfl
    · split
      · exact ⟨rfl, rfl⟩
      · split
        · trivial
        · exact ⟨rfl, rfl⟩

theorem edmaAllocRxBuffer_hwRegs (rx : EdmaRx) (allocs : List EdmaRxAlloc) {r : EdmaReg}
    (hr : r.isHw = true) : (edmaAllocRxBuffer rx allocs).2.ehw.regs r = rx.ehw.regs r := by
  obtain ⟨regs, log, hehw, hregs⟩ := edmaAllocRxBuffer_ehw rx allocs
  rw [hehw]
  apply hregs
  rintro rfl
  cases hr

theorem writeRings_hwRegs (ehw : EdmaHw) {n : Nat} {f : Nat → EdmaReg}
    (hf : ∀ i, (f i).isHw = false) (val : BitVec 32) {r : EdmaReg} (hr : r.isHw = true) :
    (ehw.writeRings ((List.range n).map f) val).regs r = ehw.regs r := by
  rw [EdmaHw.writeRings_eq]
  apply if_neg
  intro hmem
  obtain ⟨i, -, rfl⟩ := List.mem_map.mp hmem
  rw [hf i] at hr
  cases hr

theorem edmaNapiEnd_hwRegs (ehw : EdmaHw) (workDone : BitVec 32) {r : EdmaReg}
    (hr : r.isHw = true) : (edmaNapiEnd ehw workDone budget).regs r = ehw.regs r := by
  have henable : ∀ ehw : EdmaHw, ehw.enableRingIrqs.regs r = ehw.regs r := by
    intro ehw
    exact (writeRings_hwRegs _ (fun _ => rfl) _ hr).trans
      ((writeRings_hwRegs _ (fun _ => rfl) _ hr).trans (writeRings_hwRegs _ (fun _ => rfl) _ hr))
  rw [edmaNapiEnd]
  split
  · exact henable _
  · rfl

/-- The poll writes no register that the hardware writes. -/
theorem napiNext_hwKept (h : napiNext soc virtToPhys maxGmacs budget s allocs = some t) :
    HwKept s t := by
  obtain ⟨dev, workDone, pc⟩ := s
  cases pc with
  | rxStart i | fill i | resume i =>
    simp only [napiNext] at h
    split at h <;> cases h
    · first
        | exact ⟨fun _ hr => edmaAllocRxBuffer_hwRegs _ _ hr, rfl⟩
        | exact ⟨fun _ _ => rfl, rfl⟩
    · exact ⟨fun _ _ => rfl, rfl⟩
  | rxLoop i call =>
    have hmoves := edmaCleanRxTurn_moves soc (dev.rxOf i) call
    simp only [napiNext] at h
    split at h
    · rename_i rx hturn
      rw [hturn] at hmoves
      cases h
      exact ⟨fun r _ => congrFun hmoves r, rfl⟩
    · rename_i rx call' hturn
      rw [hturn] at hmoves
      cases h
      exact ⟨fun r _ => congrFun hmoves.1 r, rfl⟩
    · cases h
  | rxEnd i call =>
    cases h
    refine ⟨fun r hr => ?_, rfl⟩
    apply (Function.update_of_ne _ _ _).trans (edmaAllocRxBuffer_hwRegs (dev.rxOf i) allocs hr)
    rintro rfl
    cases hr
  | tx i =>
    simp only [napiNext] at h
    split at h
    · obtain ⟨r, hr, rfl⟩ := Option.map_eq_some_iff.mp h
      refine ⟨fun reg hreg => ?_, rfl⟩
      obtain ⟨store, accesses, ⟨hehw, -⟩ | hehw⟩ := edmaCleanTx_ehw hr
      · rw [hehw]
        rfl
      · rw [hehw]
        apply Function.update_of_ne
        rintro rfl
        cases hreg
    · cases h
      exact ⟨fun _ _ => rfl, rfl⟩
  | finish =>
    cases h
    exact ⟨fun _ hr => edmaNapiEnd_hwRegs _ _ hr, rfl⟩
  | returned => cases h

/-- Where the loop over an RXDESC ring goes on, its index starts at the register or steps on. -/
theorem napiNext_consIdx (h : napiNext soc virtToPhys maxGmacs budget s allocs = some t) {i : Nat}
    {call : CleanRx} (hpc : t.pc = .rxLoop i call) :
    (s.pc = .rxStart i ∧ call.consIdx = (s.dev.rxOf i).descCons) ∨
      ∃ call₀, s.pc = .rxLoop i call₀ ∧
        call.consIdx = edmaIdxNext (s.dev.rxdescCount i) call₀.consIdx := by
  obtain ⟨dev, workDone, pc⟩ := s
  cases pc with
  | rxStart k =>
    simp only [napiNext] at h
    split at h <;> cases h <;> cases hpc
    exact .inl ⟨rfl, rfl⟩
  | rxLoop k call₀ =>
    have hmoves := edmaCleanRxTurn_moves soc (dev.rxOf k) call₀
    simp only [napiNext] at h
    split at h
    · cases h
      cases hpc
    · rename_i rx call' hturn
      rw [hturn] at hmoves
      cases h
      cases hpc
      exact .inr ⟨call₀, rfl, hmoves.2⟩
    · cases h
  | tx k =>
    simp only [napiNext] at h
    split at h
    · obtain ⟨r, -, rfl⟩ := Option.map_eq_some_iff.mp h
      cases hpc
    · cases h
      cases hpc
  | fill k | resume k =>
    simp only [napiNext] at h
    split at h <;> cases h <;> cases hpc
  | rxEnd k call₀ | finish =>
    cases h
    cases hpc
  | returned => cases h

end Kept

section Share

variable {dev : EdmaPoll} {maxGmacs budget work j : Nat} {s t : PollRun} {moved : RxFlow → Nat}
variable {written : List EdmaReg} {pc : PollPc} {allocs : List EdmaRxAlloc}

theorem RingsKept.descProd (hkept : RingsKept written s.dev.ehw t.dev.ehw) (hhw : HwKept s t)
    (j : Nat) : (t.dev.rxOf j).descProd = (s.dev.rxOf j).descProd := by
  have hreg := hhw.regs (.rxdescProdIdx (s.dev.ehw.rxdescRing j).id) rfl
  change t.dev.ehw.regIdx (.rxdescProdIdx (t.dev.ehw.rxdescRing j).id) = _
  rw [hkept.rxdescRing, EdmaHw.regIdx, hreg]
  rfl

theorem RingsKept.descCons (hkept : RingsKept written s.dev.ehw t.dev.ehw)
    (hj : EdmaReg.rxdescConsIdx (s.dev.ehw.rxdescRing j).id ∉ written) :
    (t.dev.rxOf j).descCons = (s.dev.rxOf j).descCons := by
  have hreg := hkept.consIdx (.rxdescConsIdx (s.dev.ehw.rxdescRing j).id) rfl hj
  change t.dev.ehw.regIdx (.rxdescConsIdx (t.dev.ehw.rxdescRing j).id) = _
  rw [hkept.rxdescRing, EdmaHw.regIdx, hreg]
  rfl

/-- A piece that does not tell the hardware of the ring. -/
theorem RxRingKept.goes (h : RxRingKept dev budget j s) (hgo : PollGoes written s t pc work)
    (hhw : HwKept s t) (hplace : PollPlace budget t)
    (hj : EdmaReg.rxdescConsIdx (s.dev.ehw.rxdescRing j).id ∉ written) :
    RxRingKept dev budget j t ∧ t.dev.heldFrames j = s.dev.heldFrames j ∧
      (t.dev.rxOf j).descCons = (s.dev.rxOf j).descCons := by
  obtain ⟨before, hkept⟩ := h.kept
  have hcons := hgo.kept.descCons hj
  have hprod := hgo.kept.descProd hhw j
  refine ⟨⟨⟨_, hkept.trans hgo.kept⟩, hhw.rxdescCount.trans h.count, ⟨?_, ?_, ?_⟩, hplace⟩, ?_,
    hcons⟩
  · rw [hhw.rxdescCount]
    exact h.indices.count
  · rw [hhw.rxdescCount, hcons]
    exact h.indices.cons
  · rw [hhw.rxdescCount, hprod]
    exact h.indices.prod
  · rw [EdmaPoll.heldFrames, EdmaPoll.heldFrames, hcons, hprod, hhw.rxdescCount]

/-- A piece that the ring has no part in. -/
theorem RxShare.goes (h : RxShare dev budget j moved s) (hgo : PollGoes written s t pc work)
    (hhw : HwKept s t) (hplace : PollPlace budget t)
    (hrx : j < pc.rxThrough dev.ehw.rxdescRings ↔ j < s.pc.rxThrough dev.ehw.rxdescRings)
    (hcall : pc.callOf j = s.pc.callOf j)
    (hj : EdmaReg.rxdescConsIdx (s.dev.ehw.rxdescRing j).id ∉ written) :
    RxShare dev budget j moved t := by
  obtain ⟨hring, hheld, hcons⟩ := h.toRxRingKept.goes hgo hhw hplace hj
  refine ⟨hring, ?_, ?_, ?_, ?_, h.bound⟩
  · rw [hheld, hgo.pc, PollPc.untold, hcall]
    exact h.account
  · rw [hgo.pc, hcall, ← Nat.not_lt, hrx, Nat.not_lt]
    exact h.before
  · rw [hgo.pc, hcall, hheld, hcons]
    exact h.call
  · rw [hgo.pc, hrx]
    exact h.after

/-- The call for the ring starts at the register. -/
theorem RxShare.opens (h : RxShare dev budget j moved s) (hpc : s.pc = .rxStart j)
    (hgo : PollGoes [] s t (.rxLoop j ⟨(s.dev.rxOf j).descCons, 0, budget⟩) 0) (hhw : HwKept s t)
    (hplace : PollPlace budget t) : RxShare dev budget j moved t := by
  obtain ⟨hring, hheld, hcons⟩ := h.toRxRingKept.goes hgo hhw hplace List.not_mem_nil
  have hnone : moved .taken = 0 := h.before (by rw [hpc]; exact le_rfl) (by rw [hpc]; rfl)
  have hcall : t.pc.callOf j = some ⟨(s.dev.rxOf j).descCons, 0, budget⟩ := by
    rw [hgo.pc]
    exact if_pos rfl
  refine ⟨hring, ?_, ?_, ?_, ?_, h.bound⟩
  · have haccount := h.account
    rw [hpc] at haccount
    rw [hheld, PollPc.untold, hcall]
    exact haccount
  · rw [hcall]
    rintro _ ⟨⟩
  · rw [hcall]
    rintro _ ⟨⟩
    refine ⟨hnone, ?_, Nat.zero_le _⟩
    rw [hcons, ← h.count, slot_zero h.indices.cons]
  · rw [hgo.pc]
    exact fun hlt => absurd hlt (Nat.lt_irrefl j)

/-- A frame is taken from the ring. -/
theorem RxShare.frame (h : RxShare dev budget j moved s) {call : CleanRx}
    (hpc : s.pc = .rxLoop j call)
    (hfound : FrameFound (s.dev.rxOf j) call)
    (hgo : PollGoes [] s t (.rxLoop j
      ⟨edmaIdxNext (s.dev.rxdescCount j) call.consIdx, call.workDone + 1, call.workToDo⟩) 0)
    (hhw : HwKept s t) (hplace : PollPlace budget t) (hbudget : budget < 2 ^ 31)
    {moved' : RxFlow → Nat} (htaken : moved' .taken = moved .taken + 1)
    (harrived : moved' .arrived = moved .arrived) : RxShare dev budget j moved' t := by
  obtain ⟨hring, hheld, hcons⟩ := h.toRxRingKept.goes hgo hhw hplace List.not_mem_nil
  have hcall : s.pc.callOf j = some call := by
    rw [hpc]
    exact if_pos rfl
  have hcall' : t.pc.callOf j = some
      ⟨edmaIdxNext (s.dev.rxdescCount j) call.consIdx, call.workDone + 1, call.workToDo⟩ := by
    rw [hgo.pc]
    exact if_pos rfl
  obtain ⟨hwork, hidx, hle⟩ := h.call call hcall
  have hslot := slot_gap h.indices.cons h.indices.prod
  have hn : 0 < s.dev.rxdescCount j := Nat.zero_lt_of_lt h.indices.cons
  rw [← h.count] at hidx
  have hlt : call.workDone < s.dev.heldFrames j := by
    apply Nat.lt_of_le_of_ne hle
    intro heq
    rw [heq, EdmaPoll.heldFrames, hslot] at hidx
    exact hfound.1 hidx
  have hused : call.workDone < budget := by
    have hwork := hfound.2
    rw [(h.place.loop j call hpc).2.1] at hwork
    exact rxBudget_of_lt hbudget ▸ hwork
  refine ⟨hring, ?_, ?_, ?_, ?_, ?_⟩
  · have haccount := h.account
    rw [PollPc.untold, hcall, Option.elim_some] at haccount
    rw [hheld, PollPc.untold, hcall', htaken, harrived]
    change _ = _ + (call.workDone + 1)
    omega
  · rw [hcall']
    rintro _ ⟨⟩
  · rw [hcall']
    rintro _ ⟨⟩
    refine ⟨by rw [htaken, hwork], ?_, by rw [hheld]; exact hlt⟩
    rw [edmaIdxNext_eq h.indices.count (hidx ▸ slot_lt hn _ _), hidx, slot_succ, hcons, h.count]
  · rw [hgo.pc]
    exact fun hlt => absurd hlt (Nat.lt_irrefl j)
  · rw [htaken, hwork]
    exact hused

/-- The loop over the ring ends: it is empty, or has had the whole budget. -/
theorem RxShare.leave (h : RxShare dev budget j moved s) {call : CleanRx}
    (hpc : s.pc = .rxLoop j call)
    (hnone : ¬ FrameFound (s.dev.rxOf j) call) (hgo : PollGoes [] s t (.rxEnd j call) 0)
    (hhw : HwKept s t) (hplace : PollPlace budget t) (hbudget : budget < 2 ^ 31) :
    RxShare dev budget j moved t := by
  obtain ⟨hring, hheld, hcons⟩ := h.toRxRingKept.goes hgo hhw hplace List.not_mem_nil
  have hcall : s.pc.callOf j = some call := by
    rw [hpc]
    exact if_pos rfl
  have hcall' : t.pc.callOf j = some call := by
    rw [hgo.pc]
    exact if_pos rfl
  obtain ⟨hwork, hidx, hle⟩ := h.call call hcall
  have haccount := h.account
  rw [PollPc.untold, hcall, Option.elim_some] at haccount
  refine ⟨hring, ?_, ?_, ?_, ?_, h.bound⟩
  · rw [hheld, PollPc.untold, hcall', Option.elim_some]
    exact haccount
  · rw [hcall']
    rintro _ ⟨⟩
  · rw [hcall', hheld, hcons]
    rintro _ ⟨⟩
    exact ⟨hwork, hidx, hle⟩
  · intro _
    rw [FrameFound, not_and_or, not_not, Nat.not_lt] at hnone
    rcases hnone with hempty | hused
    · left
      have hgap : s.dev.heldFrames j = call.workDone := by
        rw [EdmaPoll.heldFrames, ← hempty, hidx, ← h.count]
        exact gap_slot h.indices.cons
          (Nat.lt_of_le_of_lt hle (gap_lt (Nat.zero_lt_of_lt h.indices.cons) _ _))
      omega
    · right
      rw [(h.place.loop j call hpc).2.1] at hused
      rw [hwork]
      exact Nat.le_antisymm (hwork ▸ h.bound) (rxBudget_of_lt hbudget ▸ hused)

/-- The hardware is told of the frames. -/
theorem RxShare.tell (h : RxShare dev budget j moved s) {call : CleanRx}
    (hpc : s.pc = .rxEnd j call)
    (hgo : PollGoes [.rxdescConsIdx (s.dev.ehw.rxdescRing j).id] s t (.rxStart (j + 1))
      call.workDone)
    (hreg : t.dev.ehw.regs (.rxdescConsIdx (s.dev.ehw.rxdescRing j).id) =
      BitVec.ofNat 32 call.consIdx)
    (hhw : HwKept s t) (hplace : PollPlace budget t) : RxShare dev budget j moved t := by
  obtain ⟨before, hkept⟩ := h.kept
  have hcall : s.pc.callOf j = some call := by
    rw [hpc]
    exact if_pos rfl
  obtain ⟨hwork, hidx, hle⟩ := h.call call hcall
  have hn : 0 < s.dev.rxdescCount j := Nat.zero_lt_of_lt h.indices.cons
  have hprod := hgo.kept.descProd hhw j
  rw [← h.count] at hidx
  have hidx_lt : call.consIdx < s.dev.rxdescCount j := hidx ▸ slot_lt hn _ _
  have hcons : (t.dev.rxOf j).descCons = call.consIdx := by
    change t.dev.ehw.regIdx (.rxdescConsIdx (t.dev.ehw.rxdescRing j).id) = _
    have hword : call.consIdx < 2 ^ 16 := hidx_lt.trans h.indices.count
    rw [hgo.kept.rxdescRing, EdmaHw.regIdx, hreg, and_edmaIdxMask_eq hword, BitVec.toNat_ofNat]
    exact Nat.mod_eq_of_lt (by omega)
  have hheld : t.dev.heldFrames j = s.dev.heldFrames j - call.workDone := by
    rw [EdmaPoll.heldFrames, hhw.rxdescCount, hcons, hprod, hidx]
    exact gap_slot_cons h.indices.cons h.indices.prod hle
  refine ⟨⟨⟨_, hkept.trans hgo.kept⟩, hhw.rxdescCount.trans h.count, ⟨?_, ?_, ?_⟩, hplace⟩, ?_, ?_,
    ?_, ?_, h.bound⟩
  · rw [hhw.rxdescCount]
    exact h.indices.count
  · rw [hhw.rxdescCount, hcons]
    exact hidx_lt
  · rw [hhw.rxdescCount, hprod]
    exact h.indices.prod
  · have haccount := h.account
    rw [PollPc.untold, hcall, Option.elim_some] at haccount
    rw [hheld, hgo.pc]
    change _ = _ + 0
    omega
  · rw [hgo.pc]
    exact fun hlt => absurd hlt (Nat.not_succ_le_self j)
  · rw [hgo.pc]
    rintro _ ⟨⟩
  · intro _
    apply h.after
    rw [hpc]
    exact Nat.lt_succ_self j

end Share

/-- Where the rings are the same ones, they have ids of their own still. -/
theorem OwnIds.kept {written : List EdmaReg} {ehw ehw' : EdmaHw} (h : OwnIds ehw)
    (hkept : RingsKept written ehw ehw') : OwnIds ehw' := by
  constructor
  · rw [hkept.rxdescRings, hkept.rxdescRing]
    exact h.rxdesc
  · simp only [hkept.txcmplRings, hkept.txcmplId]
    exact h.txcmpl

section Poll

variable {soc : Soc} {virtToPhys : Nat → BitVec 32} {maxGmacs budget j : Nat} {s t : PollRun}
variable {dev : EdmaPoll} {moved : RxFlow → Nat} {allocs : List EdmaRxAlloc}

theorem RxShare.piece (h : RxShare dev budget j moved s) (hids : OwnIds dev.ehw)
    (hbudget : budget < 2 ^ 31) (hj : j < dev.ehw.rxdescRings)
    (hstep : napiNext soc virtToPhys maxGmacs budget s allocs = some t) :
    RxShare dev budget j (fun f => moved f + rxFlow j f s (.next allocs)) t := by
  have hpiece := napiNext_piece hstep
  have hhw := napiNext_hwKept hstep
  have hplace := hpiece.place h.place
  obtain ⟨_, hkept⟩ := h.kept
  have hskip : rxFlow j .taken s (.next allocs) = 0 → RxShare dev budget j moved t →
      RxShare dev budget j (fun f => moved f + rxFlow j f s (.next allocs)) t := by
    intro hzero ht
    have hsame : (fun f => moved f + rxFlow j f s (.next allocs)) = moved := by
      funext f
      cases f with
      | taken => rw [hzero, Nat.add_zero]
      | arrived => rfl
    rwa [hsame]
  cases hpiece with
  | rxOpen i hpc hi cons hgo =>
    refine hskip (by simp only [rxFlow, hpc]) ?_
    rcases eq_or_ne i j with rfl | hne
    · rcases napiNext_consIdx hstep hgo.pc with ⟨-, hcons⟩ | ⟨call, hcall, -⟩
      · cases hcons
        exact h.opens hpc hgo hhw hplace
      · rw [hpc] at hcall
        cases hcall
    · exact h.goes hgo hhw hplace (by rw [hpc]; rfl) (by rw [hpc]; exact if_neg hne)
        List.not_mem_nil
  | rxFrame i call hpc hfound cons hgo =>
    rcases eq_or_ne i j with rfl | hne
    · rcases napiNext_consIdx hstep hgo.pc with ⟨hstart, -⟩ | ⟨call₀, hcall, hcons⟩
      · rw [hpc] at hstart
        cases hstart
      · rw [hpc] at hcall
        cases hcall
        cases hcons
        refine h.frame hpc hfound hgo hhw hplace hbudget ?_ rfl
        simp only [rxFlow, hpc, hfound, and_self, if_true]
    · refine hskip ?_ (h.goes hgo hhw hplace (by rw [hpc]; rfl) ?_ List.not_mem_nil)
      · simp only [rxFlow, hpc, hne, false_and, if_false]
      · rw [hpc]
        exact (if_neg hne).trans (if_neg hne).symm
  | rxDone i call hpc hnone hgo =>
    refine hskip (by simp only [rxFlow, hpc, hnone, and_false, if_false]) ?_
    rcases eq_or_ne i j with rfl | hne
    · exact h.leave hpc hnone hgo hhw hplace hbudget
    · refine h.goes hgo hhw hplace ?_ (by rw [hpc]; rfl) List.not_mem_nil
      rw [hpc, PollPc.rxThrough, PollPc.rxThrough]
      omega
  | rxClose i call hpc hgo hcons =>
    refine hskip (by simp only [rxFlow, hpc]) ?_
    rcases eq_or_ne i j with rfl | hne
    · exact h.tell hpc hgo hcons hhw hplace
    · have hi := h.place.rx
      rw [hpc, hkept.rxdescRings] at hi
      refine h.goes hgo hhw hplace (by rw [hpc]; rfl) (by rw [hpc]; exact (if_neg hne).symm) ?_
      rw [hkept.rxdescRing, List.mem_singleton]
      intro heq
      exact hne (hids.rxdesc j hj i hi (EdmaReg.rxdescConsIdx.inj heq)).symm
  | rxOver i hpc hi hgo =>
    rw [hkept.rxdescRings] at hi
    refine hskip (by simp only [rxFlow, hpc]) (h.goes hgo hhw hplace ?_ (by rw [hpc]; rfl)
      List.not_mem_nil)
    rw [hpc]
    exact iff_of_true hj (Nat.lt_of_lt_of_le hj hi)
  | txClean i hpc hi k hk hgo hcons =>
    exact hskip (by simp only [rxFlow, hpc]) (h.goes hgo hhw hplace (by rw [hpc]; rfl)
      (by rw [hpc]; rfl) (by simp))
  | txOver i hpc hi hgo | fill i hpc hi k hk hgo | fillOver i hpc hi hgo | resume i hpc hi hgo
  | resumeOver i hpc hi hgo | finish hpc hgo =>
    exact hskip (by simp only [rxFlow, hpc]) (h.goes hgo hhw hplace (by rw [hpc]; rfl)
      (by rw [hpc]; rfl) List.not_mem_nil)

/-- The hardware writes frames behind the ones that are there. -/
theorem RxShare.progress (h : RxShare dev budget j moved s) (hj : j < dev.ehw.rxdescRings)
    {hw : HwProgress} (hfills : HwFills s (.hw hw)) :
    RxShare dev budget j (fun f => moved f + rxFlow j f s (.hw hw))
      { s with dev := s.dev.progress hw } := by
  obtain ⟨before, hkept⟩ := h.kept
  have hrings := goes_progress hw s
  obtain ⟨hprod, hle⟩ := hfills j (hkept.rxdescRings ▸ hj)
  refine ⟨⟨⟨_, hkept.trans hrings.kept⟩, h.count, ⟨h.indices.count, h.indices.cons, hprod⟩, ?_⟩,
    ?_, h.before, ?_, h.after, h.bound⟩
  · exact hrings.place h.place.rx h.place.tx h.place.fill h.place.loop
  · have haccount := h.account
    simp only [rxFlow]
    omega
  · intro call hcall
    obtain ⟨hwork, hidx, hfew⟩ := h.call call hcall
    exact ⟨hwork, hidx, hfew.trans hle⟩

theorem RxShare.step (h : RxShare dev budget j moved s) (hids : OwnIds dev.ehw)
    (hbudget : budget < 2 ^ 31) (hj : j < dev.ehw.rxdescRings) {a : PollLabel}
    (hfills : HwFills s a) (hstep : pollStep soc virtToPhys maxGmacs budget s a = some t) :
    RxShare dev budget j (fun f => moved f + rxFlow j f s a) t := by
  cases a with
  | next allocs => exact h.piece hids hbudget hj hstep
  | hw progress =>
    simp only [pollStep] at hstep
    split at hstep
    · cases hstep
    · cases hstep
      exact h.progress hj hfills

theorem RxShare.start (hidx : RxIndices dev j) (budget : Nat) :
    RxShare dev budget j (fun _ => 0) (.start dev) := by
  refine ⟨⟨⟨[], .refl _⟩, rfl, hidx, (RxHist.start budget dev).place⟩, rfl, fun _ _ => rfl, ?_, ?_,
    Nat.zero_le _⟩
  · rintro _ ⟨⟩
  · exact fun hlt => absurd hlt (Nat.not_lt_zero j)

/-- How a whole poll on `dev` leaves an RXDESC ring. -/
structure RxServed (dev dev' : EdmaPoll) (budget j : Nat) (moved : RxFlow → Nat) : Prop where
  kept : ∃ written, RingsKept written dev.ehw dev'.ehw
  indices : RxIndices dev' j
  account : dev'.heldFrames j + moved .taken = dev.heldFrames j + moved .arrived
  least : dev.heldFrames j ≤ moved .taken ∨ moved .taken = budget
  most : moved .taken ≤ budget

/-- A whole poll: the steps from a call of `edma_napi` to its return. -/
def wholePoll (soc : Soc) (virtToPhys : Nat → BitVec 32) (maxGmacs budget : Nat) (dev : EdmaPoll)
    (labels : List PollLabel) : Option EdmaPoll :=
  (run (pollStep soc virtToPhys maxGmacs budget) (.start dev) labels).bind fun t =>
    if t.pc = .returned then some t.dev else none

/-- The frames that a whole poll moves. -/
def pollFlow (soc : Soc) (virtToPhys : Nat → BitVec 32) (maxGmacs budget j : Nat) (f : RxFlow)
    (dev : EdmaPoll) (labels : List PollLabel) : Nat :=
  total (pollStep soc virtToPhys maxGmacs budget) (rxFlow j f) (.start dev) labels

/-- The hardware overwrites no frame while a whole poll runs. -/
def HwFillsPoll (soc : Soc) (virtToPhys : Nat → BitVec 32) (maxGmacs budget : Nat) (dev : EdmaPoll)
    (labels : List PollLabel) : Prop :=
  StepsMeet (pollStep soc virtToPhys maxGmacs budget) HwFills (.start dev) labels

instance decidableHwFillsPoll (soc : Soc) (virtToPhys : Nat → BitVec 32) (maxGmacs budget : Nat)
    (dev : EdmaPoll) (labels : List PollLabel) :
    Decidable (HwFillsPoll soc virtToPhys maxGmacs budget dev labels) :=
  inferInstanceAs (Decidable (StepsMeet ..))

theorem wholePoll_served (hids : OwnIds dev.ehw) (hbudget : budget < 2 ^ 31)
    (hj : j < dev.ehw.rxdescRings) (hidx : RxIndices dev j) {labels : List PollLabel}
    {dev' : EdmaPoll} (hfills : HwFillsPoll soc virtToPhys maxGmacs budget dev labels)
    (hpoll : wholePoll soc virtToPhys maxGmacs budget dev labels = some dev') :
    RxServed dev dev' budget j fun f => pollFlow soc virtToPhys maxGmacs budget j f dev labels := by
  obtain ⟨t, hrun, ht⟩ := Option.bind_eq_some_iff.mp hpoll
  have hlast := run_total_inv (rxFlow j) (I := RxShare dev budget j)
    (fun _ _ _ _ h hfills hstep => h.step hids hbudget hj hfills hstep)
    (RxShare.start hidx budget) hfills hrun
  simp only [Nat.zero_add] at hlast
  split at ht
  · rename_i hret
    cases ht
    refine ⟨hlast.kept, hlast.indices, ?_, hlast.after ?_, hlast.bound⟩
    · have haccount := hlast.account
      rw [hret] at haccount
      exact haccount
    · rw [hret]
      exact hj
  · cases ht

/-- Whole polls take from a ring what it holds, up to the budget. -/
theorem rxServes (hbudget : budget < 2 ^ 31) :
    QuotaServer (wholePoll soc virtToPhys maxGmacs budget)
      (fun dev => OwnIds dev.ehw ∧ j < dev.ehw.rxdescRings ∧ RxIndices dev j)
      (HwFillsPoll soc virtToPhys maxGmacs budget) (EdmaPoll.heldFrames · j) (fun _ => budget)
      (pollFlow soc virtToPhys maxGmacs budget j .taken)
      (pollFlow soc virtToPhys maxGmacs budget j .arrived) := by
  refine ⟨?_, ?_, ?_, ?_⟩
  · rintro dev labels dev' ⟨hids, hj, hidx⟩ hfills hpoll
    have hserved := wholePoll_served hids hbudget hj hidx hfills hpoll
    obtain ⟨_, hkept⟩ := hserved.kept
    exact ⟨hids.kept hkept, hkept.rxdescRings ▸ hj, hserved.indices⟩
  · rintro dev labels dev' ⟨hids, hj, hidx⟩ hfills hpoll
    exact (wholePoll_served hids hbudget hj hidx hfills hpoll).account
  · rintro dev labels dev' ⟨hids, hj, hidx⟩ hfills hpoll
    rcases (wholePoll_served hids hbudget hj hidx hfills hpoll).least with hall | hfull
    · exact (Nat.min_le_right _ _).trans hall
    · exact (Nat.min_le_left _ _).trans hfull.ge
  · rintro dev labels dev' ⟨hids, hj, hidx⟩ hfills hpoll
    exact (wholePoll_served hids hbudget hj hidx hfills hpoll).most

/-- In a series of polls, whatever is in the other rings and whatever the hardware adds, a ring
    has the whole budget taken from it with every poll, until all the frames that it had at the
    start have been taken; and no more than the budget. -/
theorem pollsRun_takes {polls : List (List PollLabel)} {dev' : EdmaPoll} (hbudget : budget < 2 ^ 31)
    (hids : OwnIds dev.ehw) (hj : j < dev.ehw.rxdescRings) (hidx : RxIndices dev j)
    (hfills : StepsMeet (wholePoll soc virtToPhys maxGmacs budget)
      (HwFillsPoll soc virtToPhys maxGmacs budget) dev polls)
    (hrun : run (wholePoll soc virtToPhys maxGmacs budget) dev polls = some dev') :
    let moved f := total (wholePoll soc virtToPhys maxGmacs budget)
      (pollFlow soc virtToPhys maxGmacs budget j f) dev polls
    min (polls.length * budget) (dev.heldFrames j) ≤ moved .taken ∧
      moved .taken ≤ polls.length * budget ∧
      dev'.heldFrames j + moved .taken = dev.heldFrames j + moved .arrived := by
  have hserves := (rxServes hbudget).run ⟨hids, hj, hidx⟩ hfills hrun
  have hquotas : (polls.map fun _ => budget).sum = polls.length * budget := by
    rw [List.map_const', List.sum_replicate, smul_eq_mul]
  rwa [hquotas] at hserves

end Poll

/-- The hardware has written one frame more than two. -/
def thirdFrame : HwProgress :=
  ⟨(framesOf 3).ehw.regs, (framesOf 3).rxdescDesc, fun _ _ => ⟨0#32, 0#32⟩, (framesOf 3).rxph⟩

/-- Of two frames, and a third that comes before the second poll, two polls with a budget of one
    take the first two. -/
theorem pollsRun_takes_two : ∃ dev',
    run (wholePoll .ipq807x (BitVec.ofNat 32) 6 1) (framesOf 2)
        [List.replicate 17 (.next []), .hw thirdFrame :: List.replicate 17 (.next [])] =
      some dev' ∧ dev'.heldFrames 0 = 1 ∧
    total (wholePoll .ipq807x (BitVec.ofNat 32) 6 1)
      (pollFlow .ipq807x (BitVec.ofNat 32) 6 1 0 .taken) (framesOf 2)
        [List.replicate 17 (.next []), .hw thirdFrame :: List.replicate 17 (.next [])] = 2 := by
  have hheld : (run (wholePoll .ipq807x (BitVec.ofNat 32) 6 1) (framesOf 2)
      [List.replicate 17 (.next []), .hw thirdFrame :: List.replicate 17 (.next [])]).map
        (EdmaPoll.heldFrames · 0) = some 1 := by decide +kernel
  obtain ⟨dev', hrun, hone⟩ := Option.map_eq_some_iff.mp hheld
  have hids : OwnIds (framesOf 2).ehw := ⟨fun _ _ _ _ h => h, fun _ _ _ _ h => h⟩
  have hfills : StepsMeet (wholePoll .ipq807x (BitVec.ofNat 32) 6 1)
      (HwFillsPoll .ipq807x (BitVec.ofNat 32) 6 1) (framesOf 2)
      [List.replicate 17 (.next []), .hw thirdFrame :: List.replicate 17 (.next [])] := by
    decide +kernel
  obtain ⟨hleast, hmost, -⟩ := pollsRun_takes (j := 0) (by decide) hids (by decide)
    ⟨by decide, by decide, by decide⟩ hfills hrun
  exact ⟨dev', hrun, hone, Nat.le_antisymm hmost hleast⟩

end NssDp.Edma
