import NssDp.Hal.Proofs.MacRefines

/-!
# Calls of the HALs on several processors

Most calls change registers under `slock`, or write the registers of the address, which no call
reads. In whatever way these interleave, no change is lost: the registers are those that the
accesses make one after another, so each switch is as the last access to its bit left it. The
switches of the DMA engines do not take the lock, and a change can be lost.
-/

namespace NssDp

open Lts Locked

/-- The calls that may be made while others are under way: neither the initialisation, which on the
    GMAC writes whole registers of switches, nor the switches of the DMA engines, which are changed
    without the lock. -/
def HalCall.concurrent : HalCall → Bool
  | .init | .dmaRx _ | .dmaTx _ => false
  | _ => true

/-- An access is made under the lock, or to the address. -/
def GmacHal.KeepsLock (hal : GmacHal) (op : HalOp) : Prop :=
  op.reads = true ↔ hal.addrRegs.1 ≠ op.reg ∧ hal.addrRegs.2 ≠ op.reg

/-- What the processors are given are whole calls of the HAL. -/
def GmacHal.Calls (hal : GmacHal) : Label Nat HalOp → Prop
  | .submit _ ops => ∃ call : HalCall, call.concurrent = true ∧ hal.code call = some ops
  | .next _ => True

section Lock

variable {hal : GmacHal} {regs : HalRegs}

/-- Every access of a call that may be concurrent keeps the rule. -/
theorem keepsLock_code {call : HalCall} {ops : List HalOp} (hcall : call.concurrent = true)
    (hcode : hal.code call = some ops) : ∀ op ∈ ops, hal.KeepsLock op := by
  cases haddr : call.addr with
  | some macaddr =>
    cases call <;> cases haddr
    rw [code_setmacaddr] at hcode
    cases hcode
    intro op hop
    rw [macAddrWrites, List.mem_cons, List.mem_singleton] at hop
    rcases hop with rfl | rfl
    · exact ⟨fun h => absurd h Bool.false_ne_true, fun h => absurd rfl h.1⟩
    · exact ⟨fun h => absurd h Bool.false_ne_true, fun h => absurd rfl h.2⟩
  | none =>
    intro op hop
    have hreads : op.reads = true := by
      revert op
      cases hal <;> cases call <;> cases hcall <;> cases haddr <;> cases hcode <;>
        first
        | decide
        | rename_i enabled; cases enabled <;> decide
    exact iff_of_true hreads (addr_code hcode haddr op hop)

/-- So does every access that a processor is given. -/
theorem GmacHal.Calls.keepsLock {a : Label Nat HalOp} (h : hal.Calls a) :
    Gives hal.KeepsLock (.start regs : Shared Nat HalRegs (BitVec 32) HalOp) a := by
  cases a with
  | next i => trivial
  | submit i ops =>
    obtain ⟨call, hcall, hcode⟩ := h
    exact keepsLock_code hcall hcode

/-- A write of the address changes nothing that is read under the lock. -/
theorem keepsLock_apart (hal : GmacHal) : halUpdates.Apart hal.KeepsLock := by
  intro op op' hop hop' hplain hlocked regs
  have hread : op'.reads = true := hlocked
  have hwrite : ¬ op.reads = true := ne_true_of_eq_false hplain
  have hne : op'.reg ≠ op.reg := by
    intro hreg
    exact hwrite (hop.mpr (hreg ▸ hop'.mp hread))
  rw [halUpdates_apply, HalOp.exec_eq]
  exact Function.update_of_ne hne _ _

end Lock

section Unlocked

variable {op op' : HalOp}

/-- Where a register is read, changed by another access and then written, the other is lost. -/
theorem store_stale (hreg : op.reg = op'.reg) (regs : HalRegs) :
    halUpdates.store op' (halUpdates.load op' regs) (HalOp.exec regs op) =
      HalOp.exec regs op' := by
  rw [HalOp.exec_eq, RegOp.apply, RegOp.apply, hreg]
  exact Function.update_idem _ _ _

/-- `syn_enable_dma_rx` and its like read `SYN_DMA_OPERATION_MODE` and write it back without the
    lock: a switch of the receive engine between these two accesses of a switch of the transmit
    engine comes to nothing. -/
theorem dmaSwitches_lost (regs : HalRegs) (rx tx : Bool) :
    ∃ op op', GmacHal.synGmac.code (.dmaRx rx) = some [op] ∧
      GmacHal.synGmac.code (.dmaTx tx) = some [op'] ∧
      (GmacHal.synGmac.mac (halUpdates.store op' (halUpdates.load op' regs)
        (HalOp.exec regs op))).switch .dmaRx = (GmacHal.synGmac.mac regs).switch .dmaRx := by
  obtain ⟨op, hrx, hreg⟩ : ∃ op, GmacHal.synGmac.code (.dmaRx rx) = some [op] ∧
      op.reg = SynGmac.synDmaOperationMode := by
    cases rx <;> exact ⟨_, rfl, rfl⟩
  obtain ⟨op', htx, hreg'⟩ : ∃ op, GmacHal.synGmac.code (.dmaTx tx) = some [op] ∧
      op.reg = SynGmac.synDmaOperationMode := by
    cases tx <;> exact ⟨_, rfl, rfl⟩
  refine ⟨op, op', hrx, htx, ?_⟩
  rw [store_stale (hreg.trans hreg'.symm)]
  have hcall : GmacHal.synGmac.call regs (.dmaTx tx) = some (HalOp.exec regs op') := by
    rw [GmacHal.call, htx]
    rfl
  have hprovides : GmacHal.synGmac.provides (.dmaTx tx) = true := rfl
  have hmac := call_mac .synGmac regs (.dmaTx tx)
  rw [hcall, Option.map_some, GmacHal.macCall, if_pos hprovides] at hmac
  have hswitch := congrArg (Mac.switch · .dmaRx) (Option.some.inj hmac)
  exact hswitch

end Unlocked

/-- In every run of any number of processors that make calls of a HAL, each at its own pace: the
    registers are what the accesses make one after another in the order in which they write, every
    processor makes its accesses in order and once, and each switch is as the last access that
    assigned it left it. -/
theorem halCpus_linear (hal : GmacHal) (regs : HalRegs) {as : List (Label Nat HalOp)}
    {s : Shared Nat HalRegs (BitVec 32) HalOp} (hcalls : ∀ a ∈ as, hal.Calls a)
    (hrun : run (step halUpdates) (.start regs) as = some s) :
    s.mem = ((trace (step halUpdates) (stores halUpdates) (.start regs) as).map
        Prod.snd).foldl HalOp.exec regs ∧
      (∀ i, trace (step halUpdates) (submits i) (.start regs) as =
        ofCpu i (trace (step halUpdates) (stores halUpdates) (.start regs) as) ++
          (s.cpu i).todo) ∧
      ∀ sw b, hal.bit sw = some b → (hal.mac s.mem).switch sw =
        (b.lastAssigned ((trace (step halUpdates) (stores halUpdates) (.start regs) as).map
          Prod.snd)).getD ((hal.mac regs).switch sw) := by
  have hgives : StepsMeet (step halUpdates) (Gives hal.KeepsLock) (.start regs) as :=
    (stepsMeet_iff_forall (D := Gives hal.KeepsLock (.start regs)) (fun _ _ _ _ => .rfl)
      hrun).mpr fun a ha => (hcalls a ha).keepsLock
  have hmem := run_mem (keepsLock_apart hal) (Inv.start regs) hgives hrun
  rw [halUpdates_apply] at hmem
  refine ⟨hmem, fun i => run_cpu halUpdates i hrun, ?_⟩
  · intro sw b hb
    simp only [GmacHal.mac, hb, Option.elim]
    rw [hmem, HalOp.exec_eq, RegBit.get_foldl]
    rfl

/-- Processor 1 stops the MAC between the read and the write of processor 0. -/
def stopAndFlow : List (Label Nat HalOp) :=
  [.submit 0 (qcomRxFlowControl true), .next 0, .next 0, .submit 1 qcomStop,
    .submit 2 (macAddrWrites qcomMacAddr0 qcomMacAddr1 (qcomSetMacAddress ⟨2, 0, 0, 0, 0, 1⟩)),
    .next 2, .next 0, .next 2, .next 0, .next 1, .next 1, .next 1, .next 1]

theorem halCpus_linear_stopAndFlow : ∃ s,
    run (step halUpdates) (.start fun _ => 3#32) stopAndFlow = some s ∧
      (GmacHal.qcom.mac s.mem).switch .rxFlow = true ∧
      (GmacHal.qcom.mac s.mem).switch .tx = false := by
  have hsome : (run (step halUpdates) (.start fun _ => 3#32) stopAndFlow).isSome = true := by
    decide +kernel
  have hcalls : ∀ a ∈ stopAndFlow, GmacHal.qcom.Calls a := by
    simp only [stopAndFlow, List.forall_mem_cons]
    exact ⟨⟨.rxflowcontrol true, rfl, rfl⟩, trivial, trivial, ⟨.stop, rfl, rfl⟩,
      ⟨.setmacaddr ⟨2, 0, 0, 0, 0, 1⟩, rfl, rfl⟩, trivial, trivial, trivial, trivial, trivial,
      trivial, trivial, trivial, nofun⟩
  obtain ⟨s, hrun⟩ := Option.isSome_iff_exists.mp hsome
  have hswitch := (halCpus_linear .qcom (fun _ => 3#32) hcalls hrun).2.2
  refine ⟨s, hrun, ?_, ?_⟩
  · rw [hswitch .rxFlow _ rfl]
    decide +kernel
  · rw [hswitch .tx _ rfl]
    decide +kernel

end NssDp
