import NssDp.Kernel.EtherAddr
import NssDp.Misc.Bytes

/-!
# The operations of the GMACs

The three HALs (`hal/gmac_hal_ops`): what their tables of operations lack, when they have a
context, and how they keep the MAC address in two registers.
-/

namespace NssDp

open Bytes

/-- `qcom_hal_ops`, and `syn_hal_ops` of the two builds. -/
inductive GmacHal where
  | qcom
  | synXgmac
  | synGmac
  deriving DecidableEq, Repr

/-- Whether a HAL has its member `exit`. -/
def GmacHal.hasExit : GmacHal → Bool
  | .qcom | .synXgmac => false
  | .synGmac => true

/-- The outcomes of the calls on the kernel that the `init` of a HAL makes. -/
structure HalInitEnv where
  platformGetResource : Bool
  requestMemRegion : Bool
  kzalloc : Bool
  ioremap : Bool

/-- `qcom_init` (`qcom_if.c:369-422`), and `syn_init` (`syn/xgmac/syn_if.c:389-446`,
    `syn/gmac/syn_if.c:839-918`): whether it returns a context. -/
def GmacHal.init : GmacHal → HalInitEnv → Bool
  | .qcom, env | .synXgmac, env =>
      env.platformGetResource && env.requestMemRegion && env.kzalloc && env.ioremap
  | .synGmac, env =>
      env.platformGetResource && env.kzalloc && env.requestMemRegion && env.ioremap

/-- The two registers of the address: `QCOM_MAC_ADDR0` and `QCOM_MAC_ADDR1`, or
    `SYN_MAC_ADDR0_HIGH` and `SYN_MAC_ADDR0_LOW`. -/
structure MacAddrRegs where
  high : BitVec 32
  low : BitVec 32
  deriving DecidableEq, Repr

/-- `SYN_MAC_ADDR_RSVD_BIT`, and `SYN_MAC_ADDR_HIGH_AE` of `syn/gmac`. -/
def synMacAddrRsvdBit : BitVec 32 := 0x80000000#32

/-- `qcom_set_mac_address` (`qcom_if.c:446-453`). -/
def qcomSetMacAddress (macaddr : EtherAddr) : MacAddrRegs where
  high := byteShl macaddr.b5 8 ||| byteShl macaddr.b4 0
  low := byteShl macaddr.b0 24 ||| byteShl macaddr.b1 16 ||| byteShl macaddr.b2 8 |||
    byteShl macaddr.b3 0

/-- `qcom_get_mac_address` (`qcom_if.c:428-441`). -/
def qcomGetMacAddress (regs : MacAddrRegs) : EtherAddr where
  b5 := byteAt regs.high 8
  b4 := byteAt regs.high 0
  b0 := byteAt regs.low 24
  b1 := byteAt regs.low 16
  b2 := byteAt regs.low 8
  b3 := byteAt regs.low 0

/-- `syn_set_mac_address` (`syn/gmac/syn_if.c:769-786`, `syn/xgmac/syn_if.c:449-462`); the
    pointer is never NULL. -/
def synSetMacAddress (macaddr : EtherAddr) : MacAddrRegs where
  high := byteShl macaddr.b5 8 ||| byteShl macaddr.b4 0 ||| synMacAddrRsvdBit
  low := byteShl macaddr.b3 24 ||| byteShl macaddr.b2 16 ||| byteShl macaddr.b1 8 |||
    byteShl macaddr.b0 0

/-- `syn_get_mac_address` (`syn/gmac/syn_if.c:791-812`, `syn/xgmac/syn_if.c:467-483`). -/
def synGetMacAddress (regs : MacAddrRegs) : EtherAddr where
  b5 := byteAt regs.high 8
  b4 := byteAt regs.high 0
  b3 := byteAt regs.low 24
  b2 := byteAt regs.low 16
  b1 := byteAt regs.low 8
  b0 := byteAt regs.low 0

/-- The member `setmacaddr`. -/
def GmacHal.setmacaddr : GmacHal → EtherAddr → MacAddrRegs
  | .qcom => qcomSetMacAddress
  | .synXgmac | .synGmac => synSetMacAddress

/-- The member `getmacaddr`. -/
def GmacHal.getmacaddr : GmacHal → MacAddrRegs → EtherAddr
  | .qcom => qcomGetMacAddress
  | .synXgmac | .synGmac => synGetMacAddress

theorem qcomGetMacAddress_set (macaddr : EtherAddr) :
    qcomGetMacAddress (qcomSetMacAddress macaddr) = macaddr := by
  apply EtherAddr.ext <;>
    simp [qcomGetMacAddress, qcomSetMacAddress, byteAt_byteShl, byteAt_byteShl_of_apart]

/-- The reserved bit is in no byte of the address. -/
theorem synGetMacAddress_set (macaddr : EtherAddr) :
    synGetMacAddress (synSetMacAddress macaddr) = macaddr := by
  have hb4 : byteAt synMacAddrRsvdBit 0 = 0#8 := by decide
  have hb5 : byteAt synMacAddrRsvdBit 8 = 0#8 := by decide
  apply EtherAddr.ext <;>
    simp [synGetMacAddress, synSetMacAddress, byteAt_byteShl, byteAt_byteShl_of_apart, hb4, hb5]

/-- Every HAL reads back the address it was given. -/
theorem GmacHal.getmacaddr_setmacaddr (hal : GmacHal) (macaddr : EtherAddr) :
    hal.getmacaddr (hal.setmacaddr macaddr) = macaddr := by
  cases hal with
  | qcom => exact qcomGetMacAddress_set macaddr
  | synXgmac => exact synGetMacAddress_set macaddr
  | synGmac => exact synGetMacAddress_set macaddr

end NssDp
