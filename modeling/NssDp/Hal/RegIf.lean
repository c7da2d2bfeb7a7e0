import NssDp.Misc.Locked
import NssDp.Misc.RegOps

/-!
# The register accesses of the HALs

The common functions of `hal/include/nss_dp_hal_if.h`. A register is given by its offset from
`mac_base`, and holds what was written last. `slock` protects the two functions that read a
register and write it back.
-/

namespace NssDp

/-- The registers at `mac_base`. -/
abbrev HalRegs : Type := Nat → BitVec 32

/-- `hal_read_reg` (`nss_dp_hal_if.h:109-112`). -/
def halReadReg (regs : HalRegs) (regoffset : Nat) : BitVec 32 := regs regoffset

/-- `hal_write_reg` (`nss_dp_hal_if.h:117-121`). -/
def halWriteReg (regs : HalRegs) (regoffset : Nat) (regdata : BitVec 32) : HalRegs :=
  Function.update regs regoffset regdata

/-- `hal_set_reg_bits` (`nss_dp_hal_if.h:126-136`). -/
def halSetRegBits (regs : HalRegs) (regoffset : Nat) (bitpos : BitVec 32) : HalRegs :=
  let data := bitpos ||| halReadReg regs regoffset
  halWriteReg regs regoffset data

/-- `hal_clear_reg_bits` (`nss_dp_hal_if.h:141-151`). -/
def halClearRegBits (regs : HalRegs) (regoffset : Nat) (bitpos : BitVec 32) : HalRegs :=
  let data := ~~~bitpos &&& halReadReg regs regoffset
  halWriteReg regs regoffset data

/-- A call of one of the functions that write a register. -/
abbrev HalOp : Type := RegOp Nat 32

/-- What such a call does. -/
def HalOp.exec (regs : HalRegs) : HalOp → HalRegs
  | .setBits regoffset bitpos => halSetRegBits regs regoffset bitpos
  | .clearBits regoffset bitpos => halClearRegBits regs regoffset bitpos
  | .write regoffset regdata => halWriteReg regs regoffset regdata

theorem HalOp.exec_eq : HalOp.exec = RegOp.apply := by
  funext regs op
  cases op <;> rfl

/-- The calls of several processors on one MAC: under `slock` between reading a register and
    writing it, or a write alone. -/
def halUpdates : Locked.Updates HalRegs (BitVec 32) HalOp where
  load op regs := halReadReg regs op.reg
  store op data regs := halWriteReg regs op.reg (op.combine data)
  locked op := op.reads

theorem halUpdates_apply : halUpdates.apply = HalOp.exec := by
  funext regs op
  cases op <;> rfl

end NssDp
