import NssDp.Edma.Proofs.IrqInit
import NssDp.Edma.Proofs.RingXmit

/-!
# Where the device is accessed

A call that works on the rings leaves the rest of the instance alone and adds uses of
registers and rings to the log. What `edma_cleanup` adds is the whole teardown, in order.
-/

namespace NssDp.Edma

/-- Uses of the registers and of the rings, which hold nothing. -/
def EdmaAccess.isUse : EdmaAccess → Bool
  | .regRead _ | .regWrite _ | .ringArray | .freeDesc .. => true
  | _ => false

/-- The instance without what work on the rings changes. -/
def EdmaHw.device (ehw : EdmaHw) : EdmaHw :=
  { ehw with
    txSkbStore := fun _ => none
    txdescRing := fun _ => ⟨0, 0, fun _ => ⟨0#32, 0#32⟩⟩
    regs := fun _ => 0#32
    log := [] }

/-- `ehw'` comes from `ehw` by work on the rings, which logs `l`. -/
structure RingWork (ehw ehw' : EdmaHw) (l : List EdmaAccess) : Prop where
  device : ehw'.device = ehw.device
  log : ehw'.log = ehw.log ++ l
  uses : ∀ a ∈ l, a.isUse = true

namespace RingWork

variable {e₁ e₂ e₃ : EdmaHw} {l l' : List EdmaAccess}

theorem refl (ehw : EdmaHw) : RingWork ehw ehw [] := ⟨rfl, (List.append_nil _).symm, by simp⟩

theorem trans (h₁ : RingWork e₁ e₂ l) (h₂ : RingWork e₂ e₃ l') : RingWork e₁ e₃ (l ++ l') := by
  refine ⟨h₂.device.trans h₁.device, ?_, fun a ha => ?_⟩
  · rw [h₂.log, h₁.log, List.append_assoc]
  · rcases List.mem_append.mp ha with ha | ha
    · exact h₁.uses a ha
    · exact h₂.uses a ha

theorem touch (ehw : EdmaHw) {l : List EdmaAccess} (hl : ∀ a ∈ l, a.isUse = true) :
    RingWork ehw (ehw.touch l) l := ⟨rfl, rfl, hl⟩

theorem writeRegs (ehw : EdmaHw) (regs : List EdmaReg) (val : BitVec 32) :
    RingWork ehw (ehw.writeRegs regs val) (regs.map .regWrite) := by
  rw [EdmaHw.writeRegs_eq]
  refine ⟨rfl, rfl, fun a ha => ?_⟩
  obtain ⟨r, _, rfl⟩ := List.mem_map.mp ha
  rfl

theorem writeRings (ehw : EdmaHw) (regs : List EdmaReg) (val : BitVec 32) :
    RingWork ehw (ehw.writeRings regs val) (regs.flatMap fun r => [.ringArray, .regWrite r]) := by
  rw [EdmaHw.writeRings_eq]
  refine ⟨rfl, rfl, fun a ha => ?_⟩
  obtain ⟨r, _, ha⟩ := List.mem_flatMap.mp ha
  rcases List.mem_cons.mp ha with rfl | ha
  · rfl
  · rw [List.mem_singleton.mp ha]
    rfl

theorem regWrite (ehw : EdmaHw) (reg : EdmaReg) (val : BitVec 32) :
    RingWork ehw (ehw.regWrite reg val) [.regWrite reg] := by
  refine ⟨rfl, rfl, fun a ha => ?_⟩
  rw [List.mem_singleton.mp ha]
  rfl

/-- A loop over rings of which each turn is work on the rings. -/
theorem foldl {f : EdmaHw → Nat → EdmaHw} (hf : ∀ e i, ∃ l, RingWork e (f e i) l) (is : List Nat)
    (ehw : EdmaHw) : ∃ l, RingWork ehw (is.foldl f ehw) l := by
  induction is generalizing ehw with
  | nil => exact ⟨[], refl ehw⟩
  | cons i is ih =>
    obtain ⟨l, hl⟩ := hf ehw i
    obtain ⟨l', hl'⟩ := ih (f ehw i)
    exact ⟨l ++ l', hl.trans hl'⟩

theorem forRings {f : EdmaHw → Nat → Option (EdmaHw × List KernelEvent)}
    (hf : ∀ e i r, f e i = some r → ∃ l, RingWork e r.1 l) {is : List Nat} {ehw : EdmaHw}
    {r : EdmaHw × List KernelEvent} (hr : forRings f is ehw = some r) :
    ∃ l, RingWork ehw r.1 l := by
  induction is generalizing ehw r with
  | nil =>
    cases hr
    exact ⟨[], refl ehw⟩
  | cons i is ih =>
    obtain ⟨m, hm, hrest⟩ := Option.bind_eq_some_iff.mp hr
    obtain ⟨m', hm', rfl⟩ := Option.map_eq_some_iff.mp hrest
    obtain ⟨l, hl⟩ := hf ehw i m hm
    obtain ⟨l', hl'⟩ := ih hm'
    exact ⟨l ++ l', hl.trans hl'⟩

end RingWork

theorem cleanTx_ringWork {virtToPhys : Nat → BitVec 32} {ehw : EdmaHw} {ring : Nat} {r : CleanTx}
    (hr : edmaCleanTx virtToPhys ehw ring = some r) : ∃ l, RingWork ehw r.ehw l := by
  unfold edmaCleanTx at hr
  dsimp only at hr
  split at hr
  · cases hr
  · split at hr
    · cases hr
      exact ⟨_, rfl, rfl, by simp [EdmaAccess.isUse]⟩
    · cases hr
      refine ⟨_, rfl, List.append_assoc _ _ _, ?_⟩
      simp [EdmaAccess.isUse]

/-- A packet that gets as far as `edma_ring_xmit` makes the driver read the rings. -/
theorem ringXmit_ringWork {ehw : EdmaHw} {netdev : NetDevice} {skb : SkBuff} {ring : Nat}
    {dma : BitVec 32} {r : RingXmit} (hr : edmaRingXmit ehw netdev skb ring dma = .ok r) :
    ∃ l, RingWork ehw r.ehw (.ringArray :: l) := by
  have hread : RingWork ehw (ehw.xmitRead ring) [.ringArray,
      .regRead (.txdescProdIdx (ehw.txdescRing ring).id),
      .regRead (.txdescConsIdx (ehw.txdescRing ring).id)] :=
    RingWork.touch ehw (by simp [EdmaAccess.isUse])
  by_cases hfull : TxdescFull ehw ring
  · rw [edmaRingXmit_full hfull] at hr
    cases hr
    exact ⟨_, hread⟩
  rcases Nat.lt_or_ge skb.headroom edmaTxPrehdrSize with hhead | hhead
  · rw [edmaRingXmit_panic hhead hfull] at hr
    cases hr
  by_cases hbusy : StoreBusy ehw ring
  · rw [edmaRingXmit_storeBusy hhead hfull hbusy] at hr
    cases hr
    exact ⟨_, hread⟩
  by_cases hdma : dma = 0#32
  · subst hdma
    rw [edmaRingXmit_unmapped hhead hfull hbusy] at hr
    cases hr
    exact ⟨_, hread.device, hread.log, hread.uses⟩
  · rw [edmaRingXmit_published hhead hfull hbusy hdma] at hr
    cases hr
    have hset : RingWork (ehw.xmitRead ring) (((ehw.xmitRead ring).setTxStore (ehw.txSlot ring)
        (some (framed netdev (ehw.txSlot ring) skb))).setTxdesc ring (ehw.txProd ring)
          ⟨dma, txdescWord1 (Word.u16 skb.headlen)⟩) [] := ⟨rfl, (List.append_nil _).symm, by simp⟩
    exact ⟨_, (hread.trans hset).trans (RingWork.regWrite _ _ _)⟩

/-- A packet that fails the checks of `edma_if_xmit` leaves the device alone. -/
theorem edmaIfXmit_ehw {ehw : EdmaHw} {netdev : NetDevice} {skb : SkBuff} {env : XmitEnv}
    {r : IfXmit} (hr : edmaIfXmit ehw netdev skb env = .ok r) :
    (edmaIfXmitPrepare netdev skb env = none ∧ r.ehw = ehw) ∨
      ((∃ p, edmaIfXmitPrepare netdev skb env = some p) ∧
        ∃ l, RingWork ehw r.ehw (.ringArray :: l)) := by
  unfold edmaIfXmit at hr
  split at hr
  · rename_i hprep
    cases hr
    exact Or.inl ⟨hprep, rfl⟩
  · rename_i p hprep
    refine Or.inr ⟨⟨p, hprep⟩, ?_⟩
    split at hr
    · cases hr
    · rename_i x hring
      obtain ⟨l, hwork⟩ := ringXmit_ringWork hring
      split at hr <;> cases hr <;> exact ⟨l, hwork⟩

theorem cleanupTxdescRingRes_ringWork {ehw : EdmaHw} {ring : Nat}
    {r : EdmaHw × List KernelEvent} (hr : edmaCleanupTxdescRingRes ehw ring = some r) :
    ∃ l, RingWork ehw r.1 l := by
  obtain ⟨loop, _, rfl⟩ := Option.map_eq_some_iff.mp hr
  refine ⟨_, rfl, List.append_assoc _ _ _, ?_⟩
  simp [EdmaAccess.isUse]

theorem cleanupTxcmplRingRes_ringWork {virtToPhys : Nat → BitVec 32} {ehw : EdmaHw} {ring : Nat}
    {r : EdmaHw × List KernelEvent}
    (hr : edmaCleanupTxcmplRingRes virtToPhys ehw ring = some r) : ∃ l, RingWork ehw r.1 l := by
  obtain ⟨c, hc, rfl⟩ := Option.map_eq_some_iff.mp hr
  obtain ⟨l, hl⟩ := cleanTx_ringWork hc
  exact ⟨_, hl.trans (RingWork.touch _ (by simp [EdmaAccess.isUse]))⟩

/-- The rings are freed after all work on them. -/
theorem edmaCleanupRings_ringWork {virtToPhys : Nat → BitVec 32} {ehw : EdmaHw}
    {r : EdmaHw × List KernelEvent} (hr : edmaCleanupRings virtToPhys ehw = some r) :
    ∃ e l, RingWork ehw e l ∧ r.1 = e.touch [.freeRings] := by
  obtain ⟨m, hm, hrest⟩ := Option.bind_eq_some_iff.mp hr
  obtain ⟨m', hm', rfl⟩ := Option.map_eq_some_iff.mp hrest
  obtain ⟨l₁, h₁⟩ := RingWork.forRings (fun _ _ _ => cleanupTxdescRingRes_ringWork) hm
  obtain ⟨l₂, h₂⟩ := RingWork.forRings (fun _ _ _ => cleanupTxcmplRingRes_ringWork) hm'
  obtain ⟨l₃, h₃⟩ := RingWork.foldl (f := edmaCleanupRxfillRingRes)
    (fun e i => ⟨_, RingWork.touch e (by simp [EdmaAccess.isUse])⟩)
    (List.range ehw.rxfillRings) m'.1
  obtain ⟨e, he⟩ : ∃ e, e = (List.range ehw.rxfillRings).foldl edmaCleanupRxfillRingRes m'.1 :=
    ⟨_, rfl⟩
  rw [← he] at h₃
  obtain ⟨l₄, h₄⟩ := RingWork.foldl (f := edmaCleanupRxdescRingRes)
    (fun e i => ⟨_, RingWork.touch e (by simp [EdmaAccess.isUse])⟩) (List.range e.rxdescRings) e
  rw [he] at h₃ h₄
  exact ⟨_, _, ((h₁.trans h₂).trans h₃).trans h₄, rfl⟩

/-- The interrupts that a cleanup frees. -/
def EdmaHw.freedIrqs (ehw : EdmaHw) : List EdmaAccess :=
  if ehw.napiAdded then ehw.irqs.map .freeIrq else []

theorem RingWork.napiAdded {e e' : EdmaHw} {l : List EdmaAccess} (h : RingWork e e' l) :
    e'.napiAdded = e.napiAdded := by
  have hdevice := congrArg EdmaHw.napiAdded h.device
  exact hdevice

theorem RingWork.edmaInitialized {e e' : EdmaHw} {l : List EdmaAccess} (h : RingWork e e' l) :
    e'.edmaInitialized = e.edmaInitialized := by
  have hdevice := congrArg EdmaHw.edmaInitialized h.device
  exact hdevice

theorem RingWork.irqs {e e' : EdmaHw} {l : List EdmaAccess} (h : RingWork e e' l) :
    e'.irqs = e.irqs := by
  have hdevice := congrArg EdmaHw.irqs h.device
  exact hdevice

theorem edmaDisableRings_ringWork (ehw : EdmaHw) : ∃ l, RingWork ehw (edmaDisableRings ehw) l := by
  unfold edmaDisableRings
  extract_lets e₁ e₂ e₃ e₄ e₅
  have h₁ : RingWork ehw e₁ _ := RingWork.writeRegs ehw _ _
  have h₂ : RingWork e₁ e₂ _ := RingWork.writeRegs e₁ _ _
  have h₃ : RingWork e₂ e₃ _ := RingWork.writeRegs e₂ _ _
  have h₄ : RingWork e₃ e₄ _ := RingWork.writeRings e₃ _ _
  have h₅ : RingWork e₄ e₅ _ := RingWork.writeRings e₄ _ _
  have h₆ := RingWork.regWrite e₅ .miscIntMask edmaMaskIntClear
  exact ⟨_, ((((h₁.trans h₂).trans h₃).trans h₄).trans h₅).trans h₆⟩

/-- The last write of `edma_irq_init` is there whatever the number of rings. -/
theorem setIrqMasks_ringWork (ehw : EdmaHw) :
    ∃ l, RingWork ehw ehw.setIrqMasks l ∧ .regWrite .miscIntMask ∈ l := by
  unfold EdmaHw.setIrqMasks
  extract_lets e₁ e₂ e₃
  have h₁ : RingWork ehw e₁ _ := RingWork.writeRings ehw _ _
  have h₂ : RingWork e₁ e₂ _ := RingWork.writeRings e₁ _ _
  have h₃ : RingWork e₂ e₃ _ := RingWork.writeRings e₂ _ _
  have h₄ := RingWork.regWrite e₃ .miscIntMask e₃.miscIntrMask
  exact ⟨_, ((h₁.trans h₂).trans h₃).trans h₄,
    List.mem_append_right _ (List.mem_singleton_self _)⟩

theorem enableRingIrqs_ringWork (ehw : EdmaHw) : ∃ l, RingWork ehw ehw.enableRingIrqs l := by
  unfold EdmaHw.enableRingIrqs
  extract_lets e₁ e₂
  have h₁ : RingWork ehw e₁ _ := RingWork.writeRings ehw _ _
  have h₂ : RingWork e₁ e₂ _ := RingWork.writeRings e₁ _ _
  have h₃ := RingWork.writeRings e₂ e₂.rxfillIntMasks e₂.rxfillIntrMask
  exact ⟨_, (h₁.trans h₂).trans h₃⟩

theorem edmaRemoveIrqs_device (ehw : EdmaHw) :
    (edmaRemoveIrqs ehw).device = { ehw with napiAdded := false }.device := by
  unfold edmaRemoveIrqs
  split
  · rfl
  · rename_i h
    rw [Bool.not_eq_true] at h
    rw [← h]

theorem edmaRemoveIrqs_log (ehw : EdmaHw) :
    (edmaRemoveIrqs ehw).log = ehw.log ++ ehw.freedIrqs := by
  unfold edmaRemoveIrqs EdmaHw.freedIrqs
  split
  · rfl
  · exact (List.append_nil _).symm

theorem edmaDisablePort_ringWork (ehw : EdmaHw) (isDpOverride : Bool) :
    ∃ l, RingWork ehw (if isDpOverride then ehw else edmaDisablePort ehw) l := by
  cases isDpOverride with
  | true => exact ⟨[], RingWork.refl ehw⟩
  | false => exact ⟨_, RingWork.regWrite ehw .portCtrl edmaDisable⟩

/-- What a cleanup does that finds the instance initialised: the rings are disabled, the
    interrupts freed, and then rings, mapping and memory region are released. -/
theorem edmaCleanup_initialized {virtToPhys : Nat → BitVec 32} {ehw : EdmaHw}
    {isDpOverride : Bool} {r : EdmaHw × List KernelEvent} (hinit : ehw.edmaInitialized = true)
    (hr : edmaCleanup virtToPhys ehw isDpOverride = some r) :
    r.1.device = { ehw with
      napiAdded := false
      edmaInitialized := false }.device ∧
    ∃ l l', r.1.log = ehw.log ++
        (l ++ ehw.freedIrqs ++ l' ++ [.freeRings, .iounmap, .releaseMemRegion]) ∧
      (∀ a ∈ l, a.isUse = true) ∧ ∀ a ∈ l', a.isUse = true := by
  rw [edmaCleanup, if_pos hinit] at hr
  obtain ⟨m, hm, rfl⟩ := Option.map_eq_some_iff.mp hr
  obtain ⟨e, l₃, hrings, heq⟩ := edmaCleanupRings_ringWork hm
  obtain ⟨l₁, hdisable⟩ := edmaDisableRings_ringWork ehw
  obtain ⟨l₂, hport⟩ := edmaDisablePort_ringWork (edmaRemoveIrqs (edmaDisableRings ehw))
    isDpOverride
  have hwork := hport.trans hrings
  have hfreed : (edmaDisableRings ehw).freedIrqs = ehw.freedIrqs := by
    rw [EdmaHw.freedIrqs, hdisable.napiAdded, hdisable.irqs, EdmaHw.freedIrqs]
  refine ⟨?_, l₁, l₂ ++ l₃, ?_, hdisable.uses, hwork.uses⟩
  · have hdevice := (hwork.device.trans (edmaRemoveIrqs_device _)).trans
      (congrArg (fun e : EdmaHw => { e with napiAdded := false }) hdisable.device)
    rw [heq]
    exact congrArg (fun e : EdmaHw => { e with edmaInitialized := false }) hdevice
  · simp only [heq, EdmaHw.touch, hwork.log, edmaRemoveIrqs_log, hfreed, hdisable.log,
      List.append_assoc, List.cons_append, List.nil_append]

end NssDp.Edma
