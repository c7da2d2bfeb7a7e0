import NssDp.Misc.BitField

/-!
# The fields of the Qualcomm GMAC registers

The setters of `hal/gmac_hal_ops/qcom/qcom_dev.h` that put a value into a field, with the masks
and shifts of `qcom_reg.h`.
-/

namespace NssDp

def qcomIpgtPos : BitVec 32 := 0x0000007f#32
def qcomIpgtLsb : Nat := 0
def qcomIpgr2Pos : BitVec 32 := 0x00007f00#32
def qcomIpgr2Lsb : Nat := 8

def qcomJamIpgPos : BitVec 32 := 0x0000000f#32
def qcomJamIpgLsb : Nat := 0
def qcomRetryPos : BitVec 32 := 0x00000f00#32
def qcomRetryLsb : Nat := 8
def qcomPrlenPos : BitVec 32 := 0x0000f000#32
def qcomPrlenLsb : Nat := 8
def qcomLcolPos : BitVec 32 := 0x0ff00000#32
def qcomLcolLsb : Nat := 20

def qcomDbgIpgr1Pos : BitVec 32 := 0x0000007f#32
def qcomDbgIpgr1Lsb : Nat := 0
def qcomDbgHihgIpgPos : BitVec 32 := 0x0000ff00#32
def qcomDbgHihgIpgLsb : Nat := 8
def qcomDbgMacIpgCtrlPos : BitVec 32 := 0x0000ff00#32
def qcomDbgMacIpgCtrlLsb : Nat := 20

/-- The registers with such fields: `QCOM_MAC_CTRL0`, `QCOM_MAC_CTRL1`, `QCOM_MAC_DBG_CTRL`. -/
inductive QcomMacReg where
  | ctrl0
  | ctrl1
  | dbgCtrl
  deriving DecidableEq, Repr

/-- The registers at `mac_base`. -/
abbrev QcomMac : Type := QcomMacReg → BitVec 32

/-- The body that the setters share: the bits of a field are cleared, and the value is shifted
    and added. -/
def qcomSetField (mac : QcomMac) (reg : QcomMacReg) (pos : BitVec 32) (lsb : Nat)
    (val : BitVec 32) : QcomMac :=
  let data := mac reg
  let data := data &&& ~~~pos
  let data := data ||| val <<< lsb
  Function.update mac reg data

/-- `qcom_set_ipgt` (`qcom_dev.h:131-140`). -/
def qcomSetIpgt (mac : QcomMac) (ipgt : BitVec 32) : QcomMac :=
  qcomSetField mac .ctrl0 qcomIpgtPos qcomIpgtLsb ipgt

/-- `qcom_set_ipgr` (`qcom_dev.h:145-154`). -/
def qcomSetIpgr (mac : QcomMac) (ipgr : BitVec 32) : QcomMac :=
  qcomSetField mac .ctrl0 qcomIpgr2Pos qcomIpgr2Lsb ipgr

/-- `qcom_set_jam_ipg` (`qcom_dev.h:271-281`). -/
def qcomSetJamIpg (mac : QcomMac) (jamIpg : BitVec 32) : QcomMac :=
  qcomSetField mac .ctrl1 qcomJamIpgPos qcomJamIpgLsb jamIpg

/-- `qcom_set_retry` (`qcom_dev.h:350-359`). -/
def qcomSetRetry (mac : QcomMac) (retry : BitVec 32) : QcomMac :=
  qcomSetField mac .ctrl1 qcomRetryPos qcomRetryLsb retry

/-- `qcom_set_prlen` (`qcom_dev.h:364-373`). -/
def qcomSetPrlen (mac : QcomMac) (prlen : BitVec 32) : QcomMac :=
  qcomSetField mac .ctrl1 qcomPrlenPos qcomPrlenLsb prlen

/-- `qcom_set_lcol` (`qcom_dev.h:442-451`). -/
def qcomSetLcol (mac : QcomMac) (lcol : BitVec 32) : QcomMac :=
  qcomSetField mac .ctrl1 qcomLcolPos qcomLcolLsb lcol

/-- `qcom_set_ipgr1` (`qcom_dev.h:568-577`). -/
def qcomSetIpgr1 (mac : QcomMac) (ipgr1 : BitVec 32) : QcomMac :=
  qcomSetField mac .dbgCtrl qcomDbgIpgr1Pos qcomDbgIpgr1Lsb ipgr1

/-- `qcom_set_hihg_ipg` (`qcom_dev.h:582-591`). -/
def qcomSetHihgIpg (mac : QcomMac) (hihgIpg : BitVec 32) : QcomMac :=
  qcomSetField mac .dbgCtrl qcomDbgHihgIpgPos qcomDbgHihgIpgLsb hihgIpg

/-- `qcom_set_mac_ipg_ctrl` (`qcom_dev.h:596-605`). -/
def qcomSetMacIpgCtrl (mac : QcomMac) (macIpgCtrl : BitVec 32) : QcomMac :=
  qcomSetField mac .dbgCtrl qcomDbgMacIpgCtrlPos qcomDbgMacIpgCtrlLsb macIpgCtrl

/-- The setters by name. -/
inductive QcomSetter where
  | ipgt
  | ipgr
  | jamIpg
  | retry
  | prlen
  | lcol
  | ipgr1
  | hihgIpg
  | macIpgCtrl
  deriving DecidableEq, Repr

namespace QcomSetter

def set : QcomSetter → QcomMac → BitVec 32 → QcomMac
  | .ipgt => qcomSetIpgt
  | .ipgr => qcomSetIpgr
  | .jamIpg => qcomSetJamIpg
  | .retry => qcomSetRetry
  | .prlen => qcomSetPrlen
  | .lcol => qcomSetLcol
  | .ipgr1 => qcomSetIpgr1
  | .hihgIpg => qcomSetHihgIpg
  | .macIpgCtrl => qcomSetMacIpgCtrl

/-- The register that a setter writes. -/
def reg : QcomSetter → QcomMacReg
  | .ipgt | .ipgr => .ctrl0
  | .jamIpg | .retry | .prlen | .lcol => .ctrl1
  | .ipgr1 | .hihgIpg | .macIpgCtrl => .dbgCtrl

/-- The mask of a setter. -/
def pos : QcomSetter → BitVec 32
  | .ipgt => qcomIpgtPos
  | .ipgr => qcomIpgr2Pos
  | .jamIpg => qcomJamIpgPos
  | .retry => qcomRetryPos
  | .prlen => qcomPrlenPos
  | .lcol => qcomLcolPos
  | .ipgr1 => qcomDbgIpgr1Pos
  | .hihgIpg => qcomDbgHihgIpgPos
  | .macIpgCtrl => qcomDbgMacIpgCtrlPos

/-- The shift of a setter. -/
def lsb : QcomSetter → Nat
  | .ipgt => qcomIpgtLsb
  | .ipgr => qcomIpgr2Lsb
  | .jamIpg => qcomJamIpgLsb
  | .retry => qcomRetryLsb
  | .prlen => qcomPrlenLsb
  | .lcol => qcomLcolLsb
  | .ipgr1 => qcomDbgIpgr1Lsb
  | .hihgIpg => qcomDbgHihgIpgLsb
  | .macIpgCtrl => qcomDbgMacIpgCtrlLsb

/-- The field that the mask of a setter describes. -/
def field : QcomSetter → BitField
  | .ipgt => ⟨0, 7⟩
  | .ipgr => ⟨8, 7⟩
  | .jamIpg => ⟨0, 4⟩
  | .retry => ⟨8, 4⟩
  | .prlen => ⟨12, 4⟩
  | .lcol => ⟨20, 8⟩
  | .ipgr1 => ⟨0, 7⟩
  | .hihgIpg => ⟨8, 8⟩
  | .macIpgCtrl => ⟨8, 8⟩

/-- The bits that the shift of a setter puts a value in. -/
def placed (s : QcomSetter) : BitField := ⟨s.lsb, s.field.width⟩

theorem mask_field (s : QcomSetter) : s.field.mask 32 = s.pos := by
  cases s <;> rfl

theorem field_le (s : QcomSetter) : s.field.lsb + s.field.width ≤ 32 := by
  cases s <;> decide

/-- What a setter does: the bits of its mask are replaced. -/
theorem set_eq (s : QcomSetter) (mac : QcomMac) (val : BitVec 32) :
    s.set mac val =
      Function.update mac s.reg (BitField.replace s.field s.placed val (mac s.reg)) := by
  rw [BitField.replace, mask_field]
  cases s <;> rfl

end QcomSetter

end NssDp
