import NssDp.Edma.HwInit
import NssDp.Misc.RegOps

/-!
# The offsets of the EDMA registers

The macros of `hal/edma/edma_regs.h` for the registers that the driver accesses, and the accesses
as they are: words at an offset from `reg_base`.
-/

namespace NssDp.Edma

/-- `EDMA_REG_TXCMPL_BASE`. -/
def edmaRegTxcmplBase (soc : Soc) : Nat := if soc = .ipq807x then 0x19000 else 0x79000

/-- `EDMA_REG_TX_BASE`. -/
def edmaRegTxBase (soc : Soc) : Nat := if soc = .ipq807x then 0x21000 else 0x91000

def EdmaReg.offset (soc : Soc) : EdmaReg → Nat
  | .portCtrl => 0x4
  | .miscIntMask => 0x60
  | .txdescProdIdx n => 0x1004 + 0x1000 * n
  | .txdescConsIdx n => 0x1008 + 0x1000 * n
  | .txdescCtrl n => 0x1010 + 0x1000 * n
  | .txcmplProdIdx n => edmaRegTxcmplBase soc + 0x00004 + 0x1000 * n
  | .txcmplConsIdx n => edmaRegTxcmplBase soc + 0x00008 + 0x1000 * n
  | .txIntStat n => edmaRegTxBase soc + 0x00000 + 0x1000 * n
  | .txIntMask n => edmaRegTxBase soc + 0x00004 + 0x1000 * n
  | .rxfillProdIdx n => 0x29004 + 0x1000 * n
  | .rxfillConsIdx n => 0x29008 + 0x1000 * n
  | .rxfillRingEn n => 0x2901c + 0x1000 * n
  | .rxfillIntStat n => 0x31000 + 0x1000 * n
  | .rxfillIntMask n => 0x31004 + 0x1000 * n
  | .rxdescProdIdx n => 0x39004 + 0x1000 * n
  | .rxdescConsIdx n => 0x39008 + 0x1000 * n
  | .rxdescCtrl n => 0x39018 + 0x1000 * n
  | .rxdescIntStat n => 0x49000 + 0x1000 * n
  | .rxdescIntMask n => 0x49004 + 0x1000 * n

def RingReg.offset (soc : Soc) : RingReg → Nat
  | .txdescBa n => 0x1000 + 0x1000 * n
  | .txdescRingSize n => 0x100c + 0x1000 * n
  | .txcmplBa n => edmaRegTxcmplBase soc + 0x00000 + 0x1000 * n
  | .txcmplRingSize n => edmaRegTxcmplBase soc + 0x0000c + 0x1000 * n
  | .txcmplCtrl n => edmaRegTxcmplBase soc + 0x00014 + 0x1000 * n
  | .txModTimer n => edmaRegTxBase soc + 0x00008 + 0x1000 * n
  | .txIntCtrl n => edmaRegTxBase soc + 0x0000c + 0x1000 * n
  | .rxfillBa n => 0x29000 + 0x1000 * n
  | .rxfillRingSize n => 0x2900c + 0x1000 * n
  | .rxdescBa n => 0x39000 + 0x1000 * n
  | .rxdescRingSize n => 0x3900c + 0x1000 * n
  | .rxModTimer n => 0x49008 + 0x1000 * n
  | .rxIntCtrl n => 0x4900c + 0x1000 * n

/-- The maps are `EDMA_REG_TXDESC2CMPL_MAP_0` to `2` and `EDMA_REG_RXDESC2FILL_MAP_0` and `1`. -/
def InitReg.offset : InitReg → Nat
  | .txdesc2cmplMap n => 0xc + 0x4 * n
  | .rxdesc2fillMap n => 0x18 + 0x4 * n
  | .qid2ridTableMem q => 0x5a000 + 0x4 * q
  | .dmarCtrl => 0x48
  | .axiwCtrl => 0x50

/-- The registers of the three modules of the driver. -/
inductive MmioReg where
  | dev (reg : EdmaReg)
  | ring (reg : RingReg)
  | init (reg : InitReg)
  deriving DecidableEq, Repr

def MmioReg.offset (soc : Soc) : MmioReg → Nat
  | .dev reg => reg.offset soc
  | .ring reg => reg.offset soc
  | .init reg => reg.offset

/-- The kind of rings that a register is for, and the number of the ring. -/
def EdmaReg.ringOf : EdmaReg → Option (RingKind × Nat)
  | .portCtrl | .miscIntMask => none
  | .txdescProdIdx n | .txdescConsIdx n | .txdescCtrl n => some (.txdesc, n)
  | .txcmplProdIdx n | .txcmplConsIdx n | .txIntStat n | .txIntMask n => some (.txcmpl, n)
  | .rxfillProdIdx n | .rxfillConsIdx n | .rxfillRingEn n | .rxfillIntStat n
  | .rxfillIntMask n => some (.rxfill, n)
  | .rxdescProdIdx n | .rxdescConsIdx n | .rxdescCtrl n | .rxdescIntStat n
  | .rxdescIntMask n => some (.rxdesc, n)

def RingReg.ringOf : RingReg → RingKind × Nat
  | .txdescBa n | .txdescRingSize n => (.txdesc, n)
  | .txcmplBa n | .txcmplRingSize n | .txcmplCtrl n | .txModTimer n | .txIntCtrl n => (.txcmpl, n)
  | .rxfillBa n | .rxfillRingSize n => (.rxfill, n)
  | .rxdescBa n | .rxdescRingSize n | .rxModTimer n | .rxIntCtrl n => (.rxdesc, n)

/-- There is such a register: the number of the ring is below `EDMA_MAX_TXDESC_RINGS` or the limit
    of its kind. `EDMA_REG_RXRING_PC(0)` is what follows the table of the queues. -/
def MmioReg.exists (soc : Soc) : MmioReg → Bool
  | .dev reg => reg.ringOf.all fun r => r.2 < edmaMaxRings soc r.1
  | .ring reg => reg.ringOf.2 < edmaMaxRings soc reg.ringOf.1
  | .init (.txdesc2cmplMap n) => soc = .ipq807x ∧ n < 3
  | .init (.rxdesc2fillMap n) => n < 2
  | .init (.qid2ridTableMem q) => q < 128
  | .init _ => true

/-- `edma_reg_read` (`edma_data_plane.c:56-59`), of the words at `reg_base`. -/
def edmaRegRead (soc : Soc) (mem : Nat → BitVec 32) (reg : MmioReg) : BitVec 32 :=
  mem (reg.offset soc)

/-- `edma_reg_write` (`edma_data_plane.c:65-68`). -/
def edmaRegWrite (soc : Soc) (mem : Nat → BitVec 32) (reg : MmioReg) (val : BitVec 32) :
    Nat → BitVec 32 :=
  Function.update mem (reg.offset soc) val

/-- A register is written, or it is read and written back with bits set or cleared. -/
def edmaRegOp (soc : Soc) (mem : Nat → BitVec 32) (op : RegOp MmioReg 32) : Nat → BitVec 32 :=
  edmaRegWrite soc mem op.reg (op.combine (edmaRegRead soc mem op.reg))

end NssDp.Edma
