import NssDp.Hal.MacIf
import NssDp.Misc.Simulation

/-!
# The HALs are one MAC

What the three HALs say about a MAC: it has an address and some switches. Each HAL keeps its
switches as single bits, several of them in one register, and the calls of a HAL turn just the
switches that they are about. So every run of calls on the registers is a run of calls on such a
MAC, and no other bit changes.
-/

namespace NssDp

open Lts

/-- What a MAC does or does not do. -/
inductive MacSwitch where
  | rx
  | tx
  | rxFlow
  | txFlow
  | pause
  | fullDuplex
  | promisc
  | receiveAll
  | allMulticast
  | noBroadcast
  | rxChecksum
  | dmaRx
  | dmaTx
  deriving DecidableEq, Repr

/-- A MAC, as its HAL is told about it. -/
structure Mac where
  switch : MacSwitch → Bool
  addr : EtherAddr

/-- Whether a HAL has a call. -/
def GmacHal.provides : GmacHal → HalCall → Bool
  | .synGmac, .start | .synGmac, .stop => false
  | .synXgmac, .stoppause | .synGmac, .stoppause => false
  | .qcom, .dmaRx _ | .qcom, .dmaTx _ | .synXgmac, .dmaRx _ | .synXgmac, .dmaTx _ => false
  | _, _ => true

/-- What a call is to turn on or off. The Synopsys HALs enable flow control with a pause frame,
    and the 10G one receives everything once it has been started. -/
def GmacHal.turns : GmacHal → HalCall → MacSwitch → Option Bool
  | .synGmac, .init, .rx | .synGmac, .init, .tx | .synGmac, .init, .promisc => some true
  | .synGmac, .init, .receiveAll | .synGmac, .init, .allMulticast => some true
  | .synGmac, .init, .rxChecksum => some true
  | .synGmac, .init, .noBroadcast | .synGmac, .init, .dmaRx | .synGmac, .init, .dmaTx => some false
  | .qcom, .start, .fullDuplex | .synXgmac, .start, .promisc => some true
  | _, .start, .rx | _, .start, .tx => some true
  | _, .stop, .rx | _, .stop, .tx => some false
  | _, .rxflowcontrol enabled, .rxFlow => some enabled
  | _, .txflowcontrol enabled, .txFlow => some enabled
  | .synXgmac, .sendpause, .txFlow | .synGmac, .sendpause, .txFlow => some true
  | _, .sendpause, .pause => some true
  | _, .stoppause, .pause => some false
  | _, .dmaRx enabled, .dmaRx => some enabled
  | _, .dmaTx enabled, .dmaTx => some enabled
  | _, _, _ => none

/-- The address that a call sets. -/
def HalCall.addr : HalCall → Option EtherAddr
  | .setmacaddr macaddr => some macaddr
  | _ => none

/-- A call on a MAC; there is none where the HAL does not have it. -/
def GmacHal.macCall (hal : GmacHal) (mac : Mac) (call : HalCall) : Option Mac :=
  if hal.provides call then
    some ⟨fun sw => (hal.turns call sw).getD (mac.switch sw), call.addr.getD mac.addr⟩
  else none

/-- The bit that a HAL keeps a switch in. -/
def GmacHal.bit : GmacHal → MacSwitch → Option (RegBit Nat)
  | .qcom, .rx => some ⟨qcomMacEnable, 0⟩
  | .qcom, .tx => some ⟨qcomMacEnable, 1⟩
  | .qcom, .fullDuplex => some ⟨qcomMacEnable, 4⟩
  | .qcom, .rxFlow => some ⟨qcomMacEnable, 5⟩
  | .qcom, .txFlow => some ⟨qcomMacEnable, 6⟩
  | .qcom, .pause => some ⟨qcomMacCtrl2, 2⟩
  | .synXgmac, .tx => some ⟨SynXgmac.synMacTxConfig, 0⟩
  | .synXgmac, .rx => some ⟨SynXgmac.synMacRxConfig, 0⟩
  | .synXgmac, .promisc => some ⟨SynXgmac.synMacPacketFilter, 0⟩
  | .synXgmac, .pause => some ⟨SynXgmac.synMacQ0TxFlowCtl, 0⟩
  | .synXgmac, .txFlow => some ⟨SynXgmac.synMacQ0TxFlowCtl, 1⟩
  | .synXgmac, .rxFlow => some ⟨SynXgmac.synMacRxFlowCtl, 0⟩
  | .synGmac, .rx => some ⟨SynGmac.synMacConfiguration, 2⟩
  | .synGmac, .tx => some ⟨SynGmac.synMacConfiguration, 3⟩
  | .synGmac, .rxChecksum => some ⟨SynGmac.synMacConfiguration, 10⟩
  | .synGmac, .promisc => some ⟨SynGmac.synMacFrameFilter, 0⟩
  | .synGmac, .allMulticast => some ⟨SynGmac.synMacFrameFilter, 4⟩
  | .synGmac, .noBroadcast => some ⟨SynGmac.synMacFrameFilter, 5⟩
  | .synGmac, .receiveAll => some ⟨SynGmac.synMacFrameFilter, 31⟩
  | .synGmac, .pause => some ⟨SynGmac.synMacFlowControl, 0⟩
  | .synGmac, .txFlow => some ⟨SynGmac.synMacFlowControl, 1⟩
  | .synGmac, .rxFlow => some ⟨SynGmac.synMacFlowControl, 2⟩
  | .synGmac, .dmaRx => some ⟨SynGmac.synDmaOperationMode, 1⟩
  | .synGmac, .dmaTx => some ⟨SynGmac.synDmaOperationMode, 13⟩
  | _, _ => none

/-- The MAC that the registers describe; a switch that a HAL does not have is off. -/
def GmacHal.mac (hal : GmacHal) (regs : HalRegs) : Mac where
  switch sw := (hal.bit sw).elim false fun b => b.get regs
  addr := hal.getmacaddr ⟨regs hal.addrRegs.1, regs hal.addrRegs.2⟩

/-- The bits that the calls of a HAL are about. -/
def GmacHal.own : GmacHal → Nat → BitVec 32
  | .qcom, r =>
    if r = qcomMacEnable then 0x73#32
    else if r = qcomMacCtrl2 then 0x4#32
    else if r = qcomMacAddr0 ∨ r = qcomMacAddr1 then BitVec.allOnes 32
    else 0#32
  | .synXgmac, r =>
    if r = SynXgmac.synMacTxConfig ∨ r = SynXgmac.synMacRxConfig then 0x1#32
    else if r = SynXgmac.synMacPacketFilter ∨ r = SynXgmac.synMacRxFlowCtl then 0x1#32
    else if r = SynXgmac.synMacQ0TxFlowCtl then 0x3#32
    else if r = SynXgmac.synMacAddr0High ∨ r = SynXgmac.synMacAddr0Low then BitVec.allOnes 32
    else 0#32
  | .synGmac, r =>
    if r = SynGmac.synMacConfiguration then 0x40c#32
    else if r = SynGmac.synMacFrameFilter then 0x80000031#32
    else if r = SynGmac.synMacFlowControl then 0x7#32
    else if r ∈ [SynGmac.synInterruptMask, SynGmac.synMmcRxInterruptMask,
      SynGmac.synMmcTxInterruptMask, SynGmac.synMmcIpcRxIntrMask, SynGmac.synDmaBusMode,
      SynGmac.synDmaOperationMode, SynGmac.synDmaIntEnable, SynGmac.synDmaAxiBusMode,
      SynGmac.synMacAddr0High, SynGmac.synMacAddr0Low] then BitVec.allOnes 32
    else 0#32

section Calls

variable {hal : GmacHal} {call : HalCall} {ops : List HalOp} {sw : MacSwitch} {b : RegBit Nat}

theorem code_isSome (hal : GmacHal) (call : HalCall) :
    (hal.code call).isSome = hal.provides call := by
  cases hal <;> cases call <;> rfl

/-- The operations of a call assign the bit of a switch as the call is to turn it. -/
theorem lastAssigned_code (hcode : hal.code call = some ops) (hb : hal.bit sw = some b) :
    b.lastAssigned ops = hal.turns call sw := by
  cases hal <;> cases sw <;> cases hb <;> cases call <;> cases hcode <;>
    first
    | rfl
    | rename_i enabled; cases enabled <;> rfl

/-- The other bits are none of its business. -/
theorem within_code (hcode : hal.code call = some ops) : ∀ op ∈ ops, op.Within hal.own := by
  cases hal <;> cases call <;> cases hcode <;>
    first
    | decide
    | rename_i enabled; cases enabled <;> decide
    | exact List.forall_mem_cons.mpr ⟨RegOp.within_write rfl,
        List.forall_mem_singleton.mpr (RegOp.within_write rfl)⟩

/-- A switch that a HAL does not keep is not turned. -/
theorem turns_eq_none (hcode : hal.code call = some ops) (hb : hal.bit sw = none) :
    hal.turns call sw = none := by
  cases hal <;> cases sw <;> cases hb <;> cases call <;> cases hcode <;> rfl

/-- The registers of the address are written with an address only. -/
theorem addr_code (hcode : hal.code call = some ops) (haddr : call.addr = none) :
    ∀ op ∈ ops, hal.addrRegs.1 ≠ op.reg ∧ hal.addrRegs.2 ≠ op.reg := by
  cases hal <;> cases call <;> cases haddr <;> cases hcode <;>
    first
    | decide
    | rename_i enabled; cases enabled <;> decide

theorem code_setmacaddr (hal : GmacHal) (macaddr : EtherAddr) :
    hal.code (.setmacaddr macaddr) =
      some (macAddrWrites hal.addrRegs.1 hal.addrRegs.2 (hal.setmacaddr macaddr)) := by
  cases hal <;> rfl

theorem addrRegs_ne (hal : GmacHal) : hal.addrRegs.1 ≠ hal.addrRegs.2 := by
  cases hal <;> decide

/-- An address is written as it is read. -/
theorem mac_setmacaddr (hal : GmacHal) (regs : HalRegs) (macaddr : EtherAddr) :
    (hal.mac ((macAddrWrites hal.addrRegs.1 hal.addrRegs.2 (hal.setmacaddr macaddr)).foldl
      RegOp.apply regs)).addr = macaddr := by
  simp only [GmacHal.mac, macAddrWrites, List.foldl_cons, List.foldl_nil, RegOp.apply, RegOp.reg,
    RegOp.combine, Function.update_self, Function.update_of_ne (addrRegs_ne hal)]
  exact hal.getmacaddr_setmacaddr macaddr

end Calls

/-- A call on the registers is the call on the MAC. -/
theorem call_mac (hal : GmacHal) (regs : HalRegs) (call : HalCall) :
    (hal.call regs call).map hal.mac = hal.macCall (hal.mac regs) call := by
  rw [GmacHal.call, GmacHal.macCall, ← code_isSome]
  cases hcode : hal.code call with
  | none => rfl
  | some ops =>
    rw [Option.map_some, Option.map_some, Option.isSome_some, if_pos rfl, Option.some.injEq,
      HalOp.exec_eq, GmacHal.mac, Mac.mk.injEq]
    refine ⟨funext fun sw => ?_, ?_⟩
    · cases hb : hal.bit sw with
      | none => rw [turns_eq_none hcode hb, GmacHal.mac]; simp [hb]
      | some b => simp [GmacHal.mac, hb, RegBit.get_foldl, lastAssigned_code hcode hb]
    · cases haddr : call.addr with
      | none =>
        have hkept := addr_code hcode haddr
        rw [RegOp.foldl_of_ne fun op hop => (hkept op hop).1,
          RegOp.foldl_of_ne fun op hop => (hkept op hop).2]
        rfl
      | some macaddr =>
        cases call <;> cases haddr
        rw [code_setmacaddr] at hcode
        cases hcode
        exact mac_setmacaddr hal regs macaddr

/-- A bit that is not the HAL's is as it was. -/
theorem call_other {hal : GmacHal} {regs regs' : HalRegs} {call : HalCall}
    (h : hal.call regs call = some regs') {b : RegBit Nat} (hb : b.bit < 32)
    (hown : (hal.own b.reg).getLsbD b.bit = false) : b.get regs' = b.get regs := by
  obtain ⟨ops, hcode, rfl⟩ := Option.map_eq_some_iff.mp h
  rw [HalOp.exec_eq, RegBit.get_foldl, RegBit.lastAssigned_within (within_code hcode) hb hown]
  rfl

/-- Every run of calls of a HAL is, on its switches and its address, the run of these calls on a
    MAC, and ends where that does at a call that the HAL does not have; every bit of the registers
    that is not the HAL's is as it was. -/
theorem halRun_mac (hal : GmacHal) (regs : HalRegs) (calls : List HalCall) :
    (run hal.call regs calls).map hal.mac = run hal.macCall (hal.mac regs) calls ∧
      ∀ regs', run hal.call regs calls = some regs' → ∀ b : RegBit Nat, b.bit < 32 →
        (hal.own b.reg).getLsbD b.bit = false → b.get regs' = b.get regs := by
  refine ⟨run_map (call_mac hal) calls regs, ?_⟩
  intro regs' hrun b hb hown
  exact run_frame (fun _ _ _ hcall => call_other hcall hb hown) hrun

end NssDp
