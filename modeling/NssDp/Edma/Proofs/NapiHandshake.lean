import NssDp.Misc.Lts
import NssDp.Edma.Proofs.IrqInit
import NssDp.Edma.Proofs.TxOwnership

/-!
# The handshake between the interrupt handler and NAPI

The handler masks the interrupts of all rings and a poll that completes sets the masks again,
so while NAPI is enabled and no poll is pending the masks must be set. They stay set where the
handler never runs without scheduling a poll, and where the poll that the last close waits
for completes by itself.
-/

namespace NssDp.Edma

open Lts

section Masks

variable (ehw : EdmaHw) (regs : List EdmaReg) (val : BitVec 32)

@[simp] theorem writeRings_regs (r : EdmaReg) :
    (ehw.writeRings regs val).regs r = if r ∈ regs then val else ehw.regs r := by
  rw [EdmaHw.writeRings_eq]

@[simp] theorem writeRings_rxdescIntMasks :
    (ehw.writeRings regs val).rxdescIntMasks = ehw.rxdescIntMasks := by
  rw [EdmaHw.writeRings_eq]
  rfl

@[simp] theorem writeRings_txcmplIntMasks :
    (ehw.writeRings regs val).txcmplIntMasks = ehw.txcmplIntMasks := by
  rw [EdmaHw.writeRings_eq]
  rfl

@[simp] theorem writeRings_rxfillIntMasks :
    (ehw.writeRings regs val).rxfillIntMasks = ehw.rxfillIntMasks := by
  rw [EdmaHw.writeRings_eq]
  rfl

@[simp] theorem writeRings_rxdescIntrMask :
    (ehw.writeRings regs val).rxdescIntrMask = ehw.rxdescIntrMask := by
  rw [EdmaHw.writeRings_eq]

@[simp] theorem writeRings_txcmplIntrMask :
    (ehw.writeRings regs val).txcmplIntrMask = ehw.txcmplIntrMask := by
  rw [EdmaHw.writeRings_eq]

@[simp] theorem writeRings_rxfillIntrMask :
    (ehw.writeRings regs val).rxfillIntrMask = ehw.rxfillIntrMask := by
  rw [EdmaHw.writeRings_eq]

@[simp] theorem writeRings_napi : (ehw.writeRings regs val).napi = ehw.napi := by
  rw [EdmaHw.writeRings_eq]

@[simp] theorem writeRings_active : (ehw.writeRings regs val).active = ehw.active := by
  rw [EdmaHw.writeRings_eq]

@[simp] theorem regWrite_rxdescIntMasks (reg : EdmaReg) :
    (ehw.regWrite reg val).rxdescIntMasks = ehw.rxdescIntMasks := rfl

@[simp] theorem regWrite_txcmplIntMasks (reg : EdmaReg) :
    (ehw.regWrite reg val).txcmplIntMasks = ehw.txcmplIntMasks := rfl

@[simp] theorem regWrite_rxfillIntMasks (reg : EdmaReg) :
    (ehw.regWrite reg val).rxfillIntMasks = ehw.rxfillIntMasks := rfl

/-- The masks of the driver's rings hold their enabled values. -/
structure MasksEnabled (ehw : EdmaHw) : Prop where
  rxdesc : ∀ r ∈ ehw.rxdescIntMasks, ehw.regs r = ehw.rxdescIntrMask
  txcmpl : ∀ r ∈ ehw.txcmplIntMasks, ehw.regs r = ehw.txcmplIntrMask
  rxfill : ∀ r ∈ ehw.rxfillIntMasks, ehw.regs r = ehw.rxfillIntrMask

variable {ehw} {r : EdmaReg}

theorem rxdescIntMasks_disjoint (hr : r ∈ ehw.rxdescIntMasks) :
    r ∉ ehw.txcmplIntMasks ∧ r ∉ ehw.rxfillIntMasks ∧ r ≠ .miscIntMask := by
  obtain ⟨i, _, rfl⟩ := List.mem_map.mp hr
  simp [EdmaHw.txcmplIntMasks, EdmaHw.rxfillIntMasks]

theorem txcmplIntMasks_disjoint (hr : r ∈ ehw.txcmplIntMasks) :
    r ∉ ehw.rxdescIntMasks ∧ r ∉ ehw.rxfillIntMasks ∧ r ≠ .miscIntMask := by
  obtain ⟨i, _, rfl⟩ := List.mem_map.mp hr
  simp [EdmaHw.rxdescIntMasks, EdmaHw.rxfillIntMasks]

theorem rxfillIntMasks_disjoint (hr : r ∈ ehw.rxfillIntMasks) :
    r ∉ ehw.rxdescIntMasks ∧ r ∉ ehw.txcmplIntMasks ∧ r ≠ .miscIntMask := by
  obtain ⟨i, _, rfl⟩ := List.mem_map.mp hr
  simp [EdmaHw.rxdescIntMasks, EdmaHw.txcmplIntMasks]

/-- The end of a completing poll sets the masks. -/
theorem enableRingIrqs_masksEnabled (ehw : EdmaHw) : MasksEnabled ehw.enableRingIrqs := by
  constructor <;> intro r hr <;>
    simp only [EdmaHw.enableRingIrqs, writeRings_rxdescIntMasks, writeRings_txcmplIntMasks,
      writeRings_rxfillIntMasks] at hr
  · obtain ⟨htxcmpl, hrxfill, -⟩ := rxdescIntMasks_disjoint hr
    simp [EdmaHw.enableRingIrqs, hr, htxcmpl, hrxfill]
  · obtain ⟨-, hrxfill, -⟩ := txcmplIntMasks_disjoint hr
    simp [EdmaHw.enableRingIrqs, hr, hrxfill]
  · simp [EdmaHw.enableRingIrqs, hr]

/-- So does a successful `edma_irq_init`. -/
theorem setIrqMasks_masksEnabled (ehw : EdmaHw) : MasksEnabled ehw.setIrqMasks := by
  constructor <;> intro r hr <;>
    simp only [EdmaHw.setIrqMasks, regWrite_rxdescIntMasks, regWrite_txcmplIntMasks,
      regWrite_rxfillIntMasks, writeRings_rxdescIntMasks, writeRings_txcmplIntMasks,
      writeRings_rxfillIntMasks] at hr
  · obtain ⟨-, -, hmisc⟩ := rxdescIntMasks_disjoint hr
    simp [EdmaHw.setIrqMasks, EdmaHw.regWrite, hmisc, hr]
  · obtain ⟨hrxdesc, -, hmisc⟩ := txcmplIntMasks_disjoint hr
    simp [EdmaHw.setIrqMasks, EdmaHw.regWrite, hmisc, hr, hrxdesc]
  · obtain ⟨hrxdesc, htxcmpl, hmisc⟩ := rxfillIntMasks_disjoint hr
    simp [EdmaHw.setIrqMasks, EdmaHw.regWrite, hmisc, hr, hrxdesc, htxcmpl]

@[simp] theorem setIrqMasks_napi (ehw : EdmaHw) : ehw.setIrqMasks.napi = ehw.napi := by
  simp [EdmaHw.setIrqMasks, EdmaHw.regWrite]

@[simp] theorem setIrqMasks_active (ehw : EdmaHw) : ehw.setIrqMasks.active = ehw.active := by
  simp [EdmaHw.setIrqMasks, EdmaHw.regWrite]

end Masks

/-- The device and whether `edma_irq_init` has succeeded. -/
structure NapiRun where
  ehw : EdmaHw
  irqReady : Bool

/-- A call of the driver, a change of the status registers, an interrupt or a poll. A close
    carries what the poll does that it may have to wait for. -/
inductive NapiLabel where
  | irqInit (env : IrqEnv)
  | open (dpc : NssDpDataPlaneCtx)
  | close (workDone : Nat)
  | status (stat : EdmaReg → BitVec 32)
  | handleIrq
  | poll (workDone budget : Nat)

/-- The interrupt status registers, which the hardware sets. -/
def EdmaReg.isIntStat : EdmaReg → Bool
  | .rxdescIntStat _ | .txIntStat _ | .rxfillIntStat _ => true
  | _ => false

/-- A poll runs only while it is scheduled. -/
def napiStep (s : NapiRun) (a : NapiLabel) : Option NapiRun :=
  match a with
  | .irqInit env =>
    some ⟨(edmaIrqInit s.ehw env).2, s.irqReady || (edmaIrqInit s.ehw env).1⟩
  | .open dpc => (edmaIfOpen s.ehw dpc).map fun r => { s with ehw := r.2 }
  | .close workDone => (edmaIfClose s.ehw workDone).map fun r => { s with ehw := r.2 }
  | .status stat =>
    some { s with
      ehw := { s.ehw with regs := fun r => if r.isIntStat then stat r else s.ehw.regs r } }
  | .handleIrq => some { s with ehw := (edmaHandleIrq s.ehw).2 }
  | .poll workDone budget =>
    if s.ehw.napi = .scheduled then some { s with ehw := edmaNapiFinish s.ehw workDone budget }
    else none

/-- While NAPI is enabled, some port is open and either a poll is pending or the masks are
    set. -/
def NapiServed (s : NapiRun) : Prop :=
  (s.ehw.napi ≠ .disabled ↔ 0 < s.ehw.active) ∧ (s.ehw.napi = .idle → MasksEnabled s.ehw)

/-- A ring has an interrupt status that the handler looks at. -/
def IrqPending (ehw : EdmaHw) : Prop :=
  (∃ i < ehw.rxdescRings,
      ehw.regs (.rxdescIntStat (ehw.rxdescRing i).id) &&& edmaRxdescRingIntStatusMask ≠ 0#32) ∨
    (∃ i < ehw.txcmplRings,
      ehw.regs (.txIntStat (ehw.txcmplRing i).id) &&& edmaTxcmplRingIntStatusMask ≠ 0#32) ∨
    ∃ i < ehw.rxfillRings,
      ehw.regs (.rxfillIntStat (ehw.rxfillRing i).id) &&& edmaRxfillRingIntStatusMask ≠ 0#32

/-- NAPI is not enabled before the interrupts are registered; an interrupt then finds a poll
    pending, or NAPI idle and a status to handle; and the poll that the last close waits for
    does not use its budget up. -/
def IrqSchedules (s : NapiRun) : NapiLabel → Prop
  | .open dpc => dpc.dev = none ∨ s.ehw.active ≠ 0 ∨ s.irqReady = true
  | .close workDone => s.ehw.active = 1 → s.ehw.napi = .scheduled → workDone < edmaNapiWork
  | .handleIrq => s.irqReady = true →
      s.ehw.napi = .scheduled ∨ (s.ehw.napi = .idle ∧ IrqPending s.ehw)
  | _ => True

/-- Nothing but registers has changed, and the log. -/
def SameButRegs (ehw ehw' : EdmaHw) : Prop := ∃ regs log, ehw' = { ehw with regs, log }

theorem SameButRegs.trans {e₁ e₂ e₃ : EdmaHw} (h₁ : SameButRegs e₁ e₂) (h₂ : SameButRegs e₂ e₃) :
    SameButRegs e₁ e₃ := by
  obtain ⟨_, _, rfl⟩ := h₁
  obtain ⟨regs, log, rfl⟩ := h₂
  exact ⟨regs, log, rfl⟩

/-- One loop of the handler writes only masks, and finds no status exactly where no ring has
    one. -/
theorem irqStatusLoop_eq (ehw : EdmaHw) (stat mask : Nat → EdmaReg) (statusMask : BitVec 32)
    (hne : ∀ i j, stat i ≠ mask j) (ids : List Nat) :
    SameButRegs ehw (irqStatusLoop ehw stat mask statusMask ids).2 ∧
      (∀ r, (∀ j, r ≠ mask j) →
        (irqStatusLoop ehw stat mask statusMask ids).2.regs r = ehw.regs r) ∧
      ((irqStatusLoop ehw stat mask statusMask ids).1 = 0#32 ↔
        ∀ id ∈ ids, ehw.regs (stat id) &&& statusMask = 0#32) := by
  obtain ⟨turn, hturn⟩ : ∃ turn : BitVec 32 × EdmaHw → Nat → BitVec 32 × EdmaHw,
      turn = fun acc id => (acc.1 ||| (acc.2.regs (stat id) &&& statusMask),
        (acc.2.touch [.ringArray, .regRead (stat id)]).regWrite (mask id) edmaMaskIntDisable) :=
    ⟨_, rfl⟩
  have hfold (acc : BitVec 32 × EdmaHw) : SameButRegs acc.2 (ids.foldl turn acc).2 ∧
      (∀ r, (∀ j, r ≠ mask j) → (ids.foldl turn acc).2.regs r = acc.2.regs r) ∧
      ((ids.foldl turn acc).1 = 0#32 ↔
        acc.1 = 0#32 ∧ ∀ id ∈ ids, acc.2.regs (stat id) &&& statusMask = 0#32) := by
    induction ids generalizing acc with
    | nil => exact ⟨⟨_, _, rfl⟩, fun _ _ => rfl, by simp⟩
    | cons id ids ih =>
      rw [List.foldl_cons]
      obtain ⟨hsame, hregs, hstatus⟩ := ih (turn acc id)
      have hother (r : EdmaReg) (hr : ∀ j, r ≠ mask j) : (turn acc id).2.regs r = acc.2.regs r := by
        rw [hturn]
        exact Function.update_of_ne (hr id) _ _
      refine ⟨SameButRegs.trans ?_ hsame, fun r hr => (hregs r hr).trans (hother r hr),
        hstatus.trans ?_⟩
      · rw [hturn]
        exact ⟨_, _, rfl⟩
      · simp only [hother _ (hne _), List.forall_mem_cons, ← and_assoc]
        rw [hturn, BitVec.or_eq_zero_iff]
  rw [irqStatusLoop, ← hturn]
  obtain ⟨hsame, hregs, hstatus⟩ := hfold (0#32, ehw)
  exact ⟨hsame, hregs, hstatus.trans (and_iff_right rfl)⟩

/-- The handler schedules NAPI exactly where it finds a status, and masks rings in any case. -/
theorem edmaHandleIrq_eq (ehw : EdmaHw) : ∃ e, SameButRegs ehw e ∧
    (IrqPending ehw → (edmaHandleIrq ehw).2 = { e with napi := ehw.napi.schedule }) ∧
    (¬ IrqPending ehw → (edmaHandleIrq ehw).2 = e) := by
  obtain ⟨rxdesc, hrxdesc⟩ : ∃ l, l = irqStatusLoop ehw .rxdescIntStat .rxdescIntMask
      edmaRxdescRingIntStatusMask
      ((List.range ehw.rxdescRings).map fun i => (ehw.rxdescRing i).id) := ⟨_, rfl⟩
  obtain ⟨txcmpl, htxcmpl⟩ : ∃ l, l = irqStatusLoop rxdesc.2 .txIntStat .txIntMask
      edmaTxcmplRingIntStatusMask
      ((List.range ehw.txcmplRings).map fun i => (ehw.txcmplRing i).id) := ⟨_, rfl⟩
  obtain ⟨rxfill, hrxfill⟩ : ∃ l, l = irqStatusLoop txcmpl.2 .rxfillIntStat .rxfillIntMask
      edmaRxfillRingIntStatusMask
      ((List.range ehw.rxfillRings).map fun i => (ehw.rxfillRing i).id) := ⟨_, rfl⟩
  have hall := irqStatusLoop_eq ehw .rxdescIntStat .rxdescIntMask
    edmaRxdescRingIntStatusMask (by simp)
    ((List.range ehw.rxdescRings).map fun i => (ehw.rxdescRing i).id)
  rw [← hrxdesc] at hall
  obtain ⟨hsame₁, hregs₁, hstatus₁⟩ := hall
  have hall := irqStatusLoop_eq rxdesc.2 .txIntStat .txIntMask
    edmaTxcmplRingIntStatusMask (by simp)
    ((List.range ehw.txcmplRings).map fun i => (ehw.txcmplRing i).id)
  rw [← htxcmpl] at hall
  obtain ⟨hsame₂, hregs₂, hstatus₂⟩ := hall
  have hall := irqStatusLoop_eq txcmpl.2 .rxfillIntStat .rxfillIntMask
    edmaRxfillRingIntStatusMask (by simp)
    ((List.range ehw.rxfillRings).map fun i => (ehw.rxfillRing i).id)
  rw [← hrxfill] at hall
  obtain ⟨hsame₃, -, hstatus₃⟩ := hall
  have hsame : SameButRegs ehw rxfill.2 := (hsame₁.trans hsame₂).trans hsame₃
  have htx (n : Nat) : rxdesc.2.regs (.txIntStat n) = ehw.regs (.txIntStat n) :=
    hregs₁ _ (by simp)
  have hfill (n : Nat) : txcmpl.2.regs (.rxfillIntStat n) = ehw.regs (.rxfillIntStat n) :=
    (hregs₂ _ (by simp)).trans (hregs₁ _ (by simp))
  have hnone : (rxdesc.1 = 0#32 ∧ txcmpl.1 = 0#32 ∧ rxfill.1 = 0#32) ↔ ¬ IrqPending ehw := by
    simp only [hstatus₁, hstatus₂, hstatus₃, htx, hfill, IrqPending, List.mem_map, List.mem_range,
      forall_exists_index, and_imp, forall_apply_eq_imp_iff₂, not_or, not_exists, not_and, ne_eq,
      not_not]
  have hnapi : rxfill.2.napi = ehw.napi := by
    obtain ⟨_, _, h⟩ := hsame
    rw [h]
  have hcall : (edmaHandleIrq ehw).2 =
      if rxdesc.1 = 0#32 ∧ txcmpl.1 = 0#32 ∧ rxfill.1 = 0#32 then rxfill.2
      else { rxfill.2.writeRings rxfill.2.rxdescIntMasks edmaMaskIntDisable with
        napi := (rxfill.2.writeRings rxfill.2.rxdescIntMasks
          edmaMaskIntDisable).napi.schedule } := by
    rw [hrxfill, htxcmpl, hrxdesc, edmaHandleIrq]
    split <;> rfl
  rw [hcall]
  by_cases hpending : IrqPending ehw
  · refine ⟨rxfill.2.writeRings rxfill.2.rxdescIntMasks edmaMaskIntDisable,
      hsame.trans ⟨_, _, EdmaHw.writeRings_eq _ _ _⟩, fun _ => ?_, fun h => absurd hpending h⟩
    rw [if_neg (fun h => hnone.mp h hpending), writeRings_napi, hnapi]
  · exact ⟨rxfill.2, hsame, fun h => absurd h hpending, fun _ => if_pos (hnone.mpr hpending)⟩

/-- What every step keeps. -/
structure NapiInv (s : NapiRun) : Prop where
  active : s.ehw.napi ≠ .disabled ↔ 0 < s.ehw.active
  ready : s.ehw.napi ≠ .disabled → s.irqReady = true
  masks : s.irqReady = true → s.ehw.napi ≠ .scheduled → MasksEnabled s.ehw

namespace NapiInv

variable {s s' : NapiRun}

theorem start {ehw : EdmaHw} (hnapi : ehw.napi = .disabled) (hactive : ehw.active = 0) :
    NapiInv ⟨ehw, false⟩ :=
  ⟨by simp [hnapi, hactive], fun h => absurd hnapi h, fun h => nomatch h⟩

theorem served (h : NapiInv s) : NapiServed s :=
  ⟨h.active, fun hidle => h.masks (h.ready (by simp [hidle])) (by simp [hidle])⟩

theorem step_irqInit (h : NapiInv s) (env : IrqEnv) :
    NapiInv ⟨(edmaIrqInit s.ehw env).2, s.irqReady || (edmaIrqInit s.ehw env).1⟩ := by
  by_cases hgranted : IrqsGranted s.ehw env
  · rw [edmaIrqInit_granted hgranted]
    refine ⟨?_, fun _ => Bool.or_true _, fun _ _ => setIrqMasks_masksEnabled _⟩
    rw [EdmaHw.irqsReady, setIrqMasks_napi, setIrqMasks_active]
    exact h.active
  · obtain ⟨hret, l, hl, -⟩ := edmaIrqInit_refused hgranted
    rw [hret, hl, Bool.or_false]
    refine ⟨h.active, h.ready, fun hready hnapi => ?_⟩
    obtain ⟨hrxdesc, htxcmpl, hrxfill⟩ := h.masks hready hnapi
    exact ⟨hrxdesc, htxcmpl, hrxfill⟩

theorem step_open (h : NapiInv s) {dpc : NssDpDataPlaneCtx} {r : NssDpRet × EdmaHw}
    (hready : dpc.dev = none ∨ s.ehw.active ≠ 0 ∨ s.irqReady = true)
    (hr : edmaIfOpen s.ehw dpc = some r) : NapiInv ⟨r.2, s.irqReady⟩ := by
  have hactive := h.active
  unfold edmaIfOpen at hr
  split at hr
  · cases hr
    exact ⟨h.active, h.ready, h.masks⟩
  rename_i hdev
  dsimp only at hr
  split at hr
  · rename_i hne
    cases hr
    refine ⟨hactive.trans ⟨fun hpos => ?_, fun hpos => ?_⟩, h.ready, fun hirq hnapi => ?_⟩
    · dsimp only
      omega
    · dsimp only at hpos
      omega
    · obtain ⟨hrxdesc, htxcmpl, hrxfill⟩ := h.masks hirq hnapi
      exact ⟨hrxdesc, htxcmpl, hrxfill⟩
  · rename_i hzero
    rw [not_not] at hzero
    have hirq : s.irqReady = true := by
      rcases hready with hdev' | hne | hirq
      · exact absurd hdev' hdev
      · exact absurd hzero hne
      · exact hirq
    have hnapi : s.ehw.napi = .disabled := by
      by_contra hne
      have := hactive.mp hne
      omega
    rw [hnapi] at hr
    cases hr
    obtain ⟨hrxdesc, htxcmpl, hrxfill⟩ := h.masks hirq (by simp [hnapi])
    exact ⟨by simp [hzero], fun _ => hirq, fun _ _ => ⟨hrxdesc, htxcmpl, hrxfill⟩⟩

/-- A poll that completes sets the masks. -/
theorem step_poll (h : NapiInv s) (hnapi : s.ehw.napi = .scheduled) (workDone budget : Nat) :
    NapiInv ⟨edmaNapiFinish s.ehw workDone budget, s.irqReady⟩ := by
  have hon : s.ehw.napi ≠ .disabled := by simp [hnapi]
  rw [edmaNapiFinish]
  split
  · refine ⟨?_, fun _ => h.ready hon, fun _ _ => enableRingIrqs_masksEnabled _⟩
    simp only [EdmaHw.enableRingIrqs, writeRings_napi, writeRings_active, hnapi,
      NapiState.complete]
    exact iff_of_true (by simp) (h.active.mp hon)
  · exact ⟨h.active, h.ready, h.masks⟩

theorem step_close (h : NapiInv s) {workDone : Nat} {r : NssDpRet × EdmaHw}
    (hwork : s.ehw.active = 1 → s.ehw.napi = .scheduled → workDone < edmaNapiWork)
    (hr : edmaIfClose s.ehw workDone = some r) : NapiInv ⟨r.2, s.irqReady⟩ := by
  have hactive := h.active
  unfold edmaIfClose at hr
  dsimp only at hr
  split at hr
  · rename_i hne
    cases hr
    refine ⟨hactive.trans ⟨fun hpos => ?_, fun hpos => ?_⟩, h.ready, fun hirq hnapi => ?_⟩
    · dsimp only
      omega
    · dsimp only at hpos
      omega
    · obtain ⟨hrxdesc, htxcmpl, hrxfill⟩ := h.masks hirq hnapi
      exact ⟨hrxdesc, htxcmpl, hrxfill⟩
  · rename_i hlast
    have hone : s.ehw.active = 1 := by omega
    obtain ⟨e, he, rfl⟩ := Option.map_eq_some_iff.mp hr
    cases hnapi : s.ehw.napi with
    | disabled =>
      simp only [edmaNapiDisable, hnapi] at he
      cases he
    | idle =>
      simp only [edmaNapiDisable, hnapi] at he
      cases he
      obtain ⟨hrxdesc, htxcmpl, hrxfill⟩ := h.masks (h.ready (by simp [hnapi])) (by simp [hnapi])
      exact ⟨by simp [hone], fun hne => absurd rfl hne, fun _ _ => ⟨hrxdesc, htxcmpl, hrxfill⟩⟩
    | scheduled =>
      simp only [edmaNapiDisable, hnapi, edmaNapiFinish, if_pos (hwork hone hnapi)] at he
      cases he
      obtain ⟨hrxdesc, htxcmpl, hrxfill⟩ := enableRingIrqs_masksEnabled
        { s.ehw with
          active := s.ehw.active - 1
          napi := NapiState.scheduled.complete }
      refine ⟨?_, fun hne => absurd rfl hne, fun _ _ => ⟨hrxdesc, htxcmpl, hrxfill⟩⟩
      simp [EdmaHw.enableRingIrqs, hone]

theorem step_handleIrq (h : NapiInv s) (hsched : s.irqReady = true →
    s.ehw.napi = .scheduled ∨ (s.ehw.napi = .idle ∧ IrqPending s.ehw)) :
    NapiInv ⟨(edmaHandleIrq s.ehw).2, s.irqReady⟩ := by
  obtain ⟨e, ⟨regs, log, rfl⟩, hpend, hquiet⟩ := edmaHandleIrq_eq s.ehw
  cases hirq : s.irqReady with
  | false =>
    -- NAPI is disabled, and a disabled instance is not scheduled
    have hnapi : s.ehw.napi = .disabled := by
      by_contra hne
      exact absurd (h.ready hne) (by simp [hirq])
    have hoff : ¬ 0 < s.ehw.active := fun hpos => h.active.mpr hpos hnapi
    by_cases hpending : IrqPending s.ehw
    · rw [hpend hpending]
      exact ⟨by simp [hnapi, NapiState.schedule, hoff], by simp [hnapi, NapiState.schedule],
        fun hirq => nomatch hirq⟩
    · rw [hquiet hpending]
      exact ⟨by simp [hnapi, hoff], by simp [hnapi], fun hirq => nomatch hirq⟩
  | true =>
    rcases hsched hirq with hnapi | ⟨hnapi, hpending⟩
    · have hon : 0 < s.ehw.active := h.active.mp (by simp [hnapi])
      by_cases hpending : IrqPending s.ehw
      · rw [hpend hpending]
        exact ⟨by simp [hnapi, NapiState.schedule, hon], fun _ => rfl,
          by simp [hnapi, NapiState.schedule]⟩
      · rw [hquiet hpending]
        exact ⟨by simp [hnapi, hon], fun _ => rfl, by simp [hnapi]⟩
    · have hon : 0 < s.ehw.active := h.active.mp (by simp [hnapi])
      rw [hpend hpending]
      exact ⟨by simp [hnapi, NapiState.schedule, hon], fun _ => rfl,
        by simp [hnapi, NapiState.schedule]⟩

/-- The status registers are not masks. -/
theorem step_status (h : NapiInv s) (stat : EdmaReg → BitVec 32) :
    NapiInv ⟨{ s.ehw with regs := fun r => if r.isIntStat then stat r else s.ehw.regs r },
      s.irqReady⟩ := by
  refine ⟨h.active, h.ready, fun hirq hnapi => ?_⟩
  obtain ⟨hrxdesc, htxcmpl, hrxfill⟩ := h.masks hirq hnapi
  refine ⟨fun r hr => ?_, fun r hr => ?_, fun r hr => ?_⟩
  · refine Eq.trans (if_neg ?_) (hrxdesc r hr)
    obtain ⟨i, _, rfl⟩ := List.mem_map.mp hr
    simp [EdmaReg.isIntStat]
  · refine Eq.trans (if_neg ?_) (htxcmpl r hr)
    obtain ⟨i, _, rfl⟩ := List.mem_map.mp hr
    simp [EdmaReg.isIntStat]
  · refine Eq.trans (if_neg ?_) (hrxfill r hr)
    obtain ⟨i, _, rfl⟩ := List.mem_map.mp hr
    simp [EdmaReg.isIntStat]

theorem step (h : NapiInv s) {a : NapiLabel} (hcond : IrqSchedules s a)
    (hstep : napiStep s a = some s') : NapiInv s' := by
  cases a with
  | irqInit env =>
    cases hstep
    exact h.step_irqInit env
  | «open» dpc =>
    obtain ⟨r, hr, rfl⟩ := Option.map_eq_some_iff.mp hstep
    exact h.step_open hcond hr
  | close workDone =>
    obtain ⟨r, hr, rfl⟩ := Option.map_eq_some_iff.mp hstep
    exact h.step_close hcond hr
  | status stat =>
    cases hstep
    exact h.step_status stat
  | handleIrq =>
    cases hstep
    exact h.step_handleIrq hcond
  | poll workDone budget =>
    simp only [napiStep] at hstep
    split at hstep
    · rename_i hnapi
      cases hstep
      exact h.step_poll hnapi workDone budget
    · cases hstep

end NapiInv

/-- In every run of registrations, opens, closes, interrupts and polls in which interrupts find
    a poll pending or work to do, and the last close does not cut a poll off that has used its
    budget, the masks are set in every state in which NAPI is enabled and idle. -/
theorem napiRun_served {ehw : EdmaHw} (hnapi : ehw.napi = .disabled) (hactive : ehw.active = 0)
    {as : List NapiLabel} (hcond : StepsMeet napiStep IrqSchedules ⟨ehw, false⟩ as) :
    Always napiStep NapiServed ⟨ehw, false⟩ as :=
  always_of_stepsMeet (fun _ h => NapiInv.served h) (fun _ _ _ h hC hstep => h.step hC hstep)
    (NapiInv.start hnapi hactive) hcond

instance (ehw : EdmaHw) : Decidable (MasksEnabled ehw) :=
  decidable_of_iff ((∀ r ∈ ehw.rxdescIntMasks, ehw.regs r = ehw.rxdescIntrMask) ∧
      (∀ r ∈ ehw.txcmplIntMasks, ehw.regs r = ehw.txcmplIntrMask) ∧
      ∀ r ∈ ehw.rxfillIntMasks, ehw.regs r = ehw.rxfillIntrMask)
    ⟨fun ⟨hrxdesc, htxcmpl, hrxfill⟩ => ⟨hrxdesc, htxcmpl, hrxfill⟩,
      fun h => ⟨h.rxdesc, h.txcmpl, h.rxfill⟩⟩

instance (s : NapiRun) : Decidable (NapiServed s) := inferInstanceAs (Decidable (_ ∧ _))

instance (ehw : EdmaHw) : Decidable (IrqPending ehw) := inferInstanceAs (Decidable (_ ∨ _ ∨ _))

instance (s : NapiRun) (a : NapiLabel) : Decidable (IrqSchedules s a) := by
  cases a <;> unfold IrqSchedules <;> infer_instance

/-- Every interrupt is granted, and entry `n` is interrupt `40 + n`. -/
def grantAll : IrqEnv := ⟨fun n => 40 + n, fun _ => true⟩

/-- A port is opened, an interrupt is served, and the port is closed and opened again. -/
def serveOne : List NapiLabel :=
  [.irqInit grantAll, .open ⟨some 1⟩, .status fun _ => 1#32, .handleIrq, .handleIrq, .poll 100 100,
    .poll 3 100, .close 0, .open ⟨some 1⟩]

theorem napiRun_served_one : Always napiStep NapiServed ⟨idleEdma, false⟩ serveOne :=
  napiRun_served rfl rfl (by decide +kernel)

/-- No status is set, and the handler runs all the same. -/
def spuriousIrq : List NapiLabel := [.irqInit grantAll, .open ⟨some 1⟩, .handleIrq]

/-- An interrupt comes in before the first port is opened. -/
def earlyIrq : List NapiLabel :=
  [.irqInit grantAll, .status fun _ => 1#32, .handleIrq, .open ⟨some 1⟩]

/-- The last port is closed while a poll is pending that uses its budget up. -/
def closeInPoll : List NapiLabel :=
  [.irqInit grantAll, .open ⟨some 1⟩, .status fun _ => 1#32, .handleIrq, .close 100,
    .open ⟨some 1⟩]

/-- After each of these runs NAPI is enabled and idle, and the rings are masked. -/
theorem maskedWhileIdle : ¬ Always napiStep NapiServed ⟨idleEdma, false⟩ spuriousIrq ∧
    ¬ Always napiStep NapiServed ⟨idleEdma, false⟩ earlyIrq ∧
    ¬ Always napiStep NapiServed ⟨idleEdma, false⟩ closeInPoll := by
  decide +kernel

end NssDp.Edma
