import NssDp.Hal.GmacOps
import NssDp.Hal.RegIf

/-!
# The MAC registers of the HALs

The members of the three tables of operations that write MAC registers, as the calls of
`hal_set_reg_bits`, `hal_clear_reg_bits` and `hal_write_reg` that they make, in order: `qcom_if.c`
with `qcom_dev.h`, `syn/xgmac/syn_if.c` with `syn_dev.h`, and `syn/gmac/syn_if.c`. The clock that
`syn_dma_init` enables, the messages and the deprecated members, which do nothing, are left out.
-/

namespace NssDp

open RegOp

section Qcom

def qcomMacEnable : Nat := 0x0000
def qcomMacAddr0 : Nat := 0x0008
def qcomMacAddr1 : Nat := 0x000c
def qcomMacCtrl2 : Nat := 0x0018

def qcomRxMacEnable : BitVec 32 := 1#32
def qcomTxMacEnable : BitVec 32 := 0x2#32
def qcomDuplex : BitVec 32 := 0x10#32
def qcomRxFlowEnable : BitVec 32 := 0x20#32
def qcomTxFlowEnable : BitVec 32 := 0x40#32
def qcomTestPause : BitVec 32 := 0x4#32

/-- `qcom_rx_flow_control` (`qcom_if.c:146-152`). -/
def qcomRxFlowControl (enabled : Bool) : List HalOp :=
  if enabled then [setBits qcomMacEnable qcomRxFlowEnable]
  else [clearBits qcomMacEnable qcomRxFlowEnable]

/-- `qcom_tx_flow_control` (`qcom_if.c:157-163`). -/
def qcomTxFlowControl (enabled : Bool) : List HalOp :=
  if enabled then [setBits qcomMacEnable qcomTxFlowEnable]
  else [clearBits qcomMacEnable qcomTxFlowEnable]

/-- `qcom_send_pause_frame` (`qcom_if.c:317-320`). -/
def qcomSendPauseFrame : List HalOp := [setBits qcomMacCtrl2 qcomTestPause]

/-- `qcom_stop_pause_frame` (`qcom_if.c:325-328`). -/
def qcomStopPauseFrame : List HalOp := [clearBits qcomMacCtrl2 qcomTestPause]

/-- `qcom_start` (`qcom_if.c:333-350`). -/
def qcomStart : List HalOp :=
  [setBits qcomMacEnable qcomDuplex, setBits qcomMacEnable qcomTxMacEnable,
    setBits qcomMacEnable qcomRxMacEnable]

/-- `qcom_stop` (`qcom_if.c:355-364`). -/
def qcomStop : List HalOp :=
  [clearBits qcomMacEnable qcomTxMacEnable, clearBits qcomMacEnable qcomRxMacEnable]

end Qcom

/-- The two writes of an address, `high` to the first register. -/
def macAddrWrites (high low : Nat) (regs : MacAddrRegs) : List HalOp :=
  [write high regs.high, write low regs.low]

namespace SynXgmac

def synMacTxConfig : Nat := 0x0000
def synMacRxConfig : Nat := 0x0004
def synMacPacketFilter : Nat := 0x0008
def synMacQ0TxFlowCtl : Nat := 0x0070
def synMacRxFlowCtl : Nat := 0x0090
def synMacAddr0High : Nat := 0x0300
def synMacAddr0Low : Nat := 0x0304

def synMacTxPauseSend : BitVec 32 := 0x00000001#32
def synMacTxFlowEnable : BitVec 32 := 0x00000002#32
def synMacRxFlowEnable : BitVec 32 := 0x00000001#32
def synMacTxEnable : BitVec 32 := 0x00000001#32
def synMacRxEnable : BitVec 32 := 0x00000001#32

/-- `syn_rx_flow_control` (`syn/xgmac/syn_if.c:100-109`). -/
def synRxFlowControl (enabled : Bool) : List HalOp :=
  if enabled then [setBits synMacRxFlowCtl synMacRxFlowEnable]
  else [clearBits synMacRxFlowCtl synMacRxFlowEnable]

/-- `syn_tx_flow_control` (`syn/xgmac/syn_if.c:114-123`). -/
def synTxFlowControl (enabled : Bool) : List HalOp :=
  if enabled then [setBits synMacQ0TxFlowCtl synMacTxFlowEnable]
  else [clearBits synMacQ0TxFlowCtl synMacTxFlowEnable]

/-- `syn_send_pause_frame` (`syn/xgmac/syn_if.c:338-343`). -/
def synSendPauseFrame : List HalOp :=
  [setBits synMacQ0TxFlowCtl synMacTxFlowEnable, setBits synMacQ0TxFlowCtl synMacTxPauseSend]

/-- `syn_rx_enable` (`syn/xgmac/syn_dev.h:99-103`). -/
def synRxEnable : List HalOp :=
  [setBits synMacRxConfig synMacRxEnable, setBits synMacPacketFilter synMacRxEnable]

/-- `syn_start` (`syn/xgmac/syn_if.c:348-368`). -/
def synStart : List HalOp := setBits synMacTxConfig synMacTxEnable :: synRxEnable

/-- `syn_stop` (`syn/xgmac/syn_if.c:373-384`). -/
def synStop : List HalOp :=
  [clearBits synMacTxConfig synMacTxEnable, clearBits synMacRxConfig synMacRxEnable]

end SynXgmac

namespace SynGmac

def synMacConfiguration : Nat := 0x0000
def synMacFrameFilter : Nat := 0x0004
def synMacFlowControl : Nat := 0x0018
def synInterruptMask : Nat := 0x003c
def synMacAddr0High : Nat := 0x0040
def synMacAddr0Low : Nat := 0x0044
def synMmcRxInterruptMask : Nat := 0x010c
def synMmcTxInterruptMask : Nat := 0x0110
def synMmcIpcRxIntrMask : Nat := 0x0200
def synDmaBusMode : Nat := 0x1000
def synDmaOperationMode : Nat := 0x1018
def synDmaIntEnable : Nat := 0x101c
def synDmaAxiBusMode : Nat := 0x1028

def synMacRxIpcOffload : BitVec 32 := 0x00000400#32
def synMacTx : BitVec 32 := 0x00000008#32
def synMacRx : BitVec 32 := 0x00000004#32
def synMacFilterOff : BitVec 32 := 0x80000000#32
def synMacBroadcast : BitVec 32 := 0x00000020#32
def synMacMulticastFilter : BitVec 32 := 0x00000010#32
def synMacPromiscuousModeOn : BitVec 32 := 0x00000001#32
def synMacFcRxFlowControl : BitVec 32 := 0x00000004#32
def synMacFcTxFlowControl : BitVec 32 := 0x00000002#32
def synMacFcSendPauseFrame : BitVec 32 := 0x00000001#32
def synDmaDisableDropTcpCs : BitVec 32 := 0x04000000#32
def synDmaTxStart : BitVec 32 := 0x00002000#32
def synDmaRxStart : BitVec 32 := 0x00000002#32

/-- `SYN_DMA_BUS_MODE_VAL`: bursts of 32, times 8, with descriptors of 8 words; reception first;
    aligned beats. -/
def synDmaBusModeVal : BitVec 32 :=
  0x00002000#32 ||| 0x01000000#32 ||| 0#32 ||| 0x00000080#32 ||| 0x00000002#32 ||| 0x02000000#32

/-- `SYN_DMA_OMR`: store and forward both ways, the threshold, and the second frame. -/
def synDmaOmr : BitVec 32 := 0x00200000#32 ||| 0x02000000#32 ||| 0x00000018#32 ||| 0x00000004#32

/-- `SYN_DMA_AXI_BUS_MODE_VAL`. -/
def synDmaAxiBusModeVal : BitVec 32 := 0x00000008#32 ||| 0x00070000#32 ||| 0x00700000#32

/-- `syn_rx_flow_control` (`syn/gmac/syn_if.c:522-531`). -/
def synRxFlowControl (enabled : Bool) : List HalOp :=
  if enabled then [setBits synMacFlowControl synMacFcRxFlowControl]
  else [clearBits synMacFlowControl synMacFcRxFlowControl]

/-- `syn_tx_flow_control` (`syn/gmac/syn_if.c:536-545`). -/
def synTxFlowControl (enabled : Bool) : List HalOp :=
  if enabled then [setBits synMacFlowControl synMacFcTxFlowControl]
  else [clearBits synMacFlowControl synMacFcTxFlowControl]

/-- `syn_send_pause_frame` (`syn/gmac/syn_if.c:759-764`). -/
def synSendPauseFrame : List HalOp :=
  [setBits synMacFlowControl synMacFcTxFlowControl,
    setBits synMacFlowControl synMacFcSendPauseFrame]

/-- `syn_disable_interrupt_all` (`syn/gmac/syn_if.c:310-317`). -/
def synDisableInterruptAll : List HalOp :=
  [write synInterruptMask 0xffffffff#32, write synDmaIntEnable 0#32,
    setBits synMmcTxInterruptMask 0xffffffff#32, setBits synMmcRxInterruptMask 0xffffffff#32,
    setBits synMmcIpcRxIntrMask 0xffffffff#32]

/-- `syn_dma_init` (`syn/gmac/syn_if.c:818-834`). -/
def synDmaInit : List HalOp :=
  [write synDmaBusMode synDmaBusModeVal, write synDmaAxiBusMode synDmaAxiBusModeVal,
    write synDmaOperationMode synDmaOmr]

/-- `syn_ipc_offload_init` (`syn/gmac/syn_if.c:219-240`); `rxcsum` is the flag of the port. -/
def synIpcOffloadInit (rxcsum : Bool) : List HalOp :=
  if rxcsum then
    [setBits synMacConfiguration synMacRxIpcOffload,
      clearBits synDmaOperationMode synDmaDisableDropTcpCs]
  else [clearBits synMacConfiguration synMacRxIpcOffload]

/-- `syn_promisc_enable` (`syn/gmac/syn_if.c:489-494`). -/
def synPromiscEnable : List HalOp :=
  [setBits synMacFrameFilter synMacFilterOff, setBits synMacFrameFilter synMacPromiscuousModeOn]

/-- `syn_broadcast_enable` (`syn/gmac/syn_if.c:466-469`). -/
def synBroadcastEnable : List HalOp := [clearBits synMacFrameFilter synMacBroadcast]

/-- `syn_multicast_enable` (`syn/gmac/syn_if.c:477-480`). -/
def synMulticastEnable : List HalOp := [setBits synMacFrameFilter synMacMulticastFilter]

/-- `syn_rx_enable` (`syn/gmac/syn_if.c:163-167`). -/
def synRxEnable : List HalOp :=
  [setBits synMacConfiguration synMacRx, setBits synMacFrameFilter synMacFilterOff]

/-- `syn_tx_enable` (`syn/gmac/syn_if.c:172-175`). -/
def synTxEnable : List HalOp := [setBits synMacConfiguration synMacTx]

/-- What `syn_init` writes (`syn/gmac/syn_if.c:903-910`); it has set the flag of the port. -/
def synInit : List HalOp :=
  synDisableInterruptAll ++ synDmaInit ++ synIpcOffloadInit true ++ synPromiscEnable ++
    synBroadcastEnable ++ synMulticastEnable ++ synRxEnable ++ synTxEnable

/-- `syn_enable_dma_rx` and `syn_disable_dma_rx` (`syn/gmac/syn_if.c:344-364`), which do not take
    the lock. -/
def synDmaRx (enabled : Bool) : List HalOp :=
  if enabled then [setBits synDmaOperationMode synDmaRxStart]
  else [clearBits synDmaOperationMode synDmaRxStart]

/-- `syn_enable_dma_tx` and `syn_disable_dma_tx` (`syn/gmac/syn_if.c:370-390`). -/
def synDmaTx (enabled : Bool) : List HalOp :=
  if enabled then [setBits synDmaOperationMode synDmaTxStart]
  else [clearBits synDmaOperationMode synDmaTxStart]

end SynGmac

/-- The calls of a HAL that write its registers: the members of `struct nss_gmac_hal_ops`, and the
    four that the GMAC data plane calls by name. -/
inductive HalCall where
  | init
  | start
  | stop
  | rxflowcontrol (enabled : Bool)
  | txflowcontrol (enabled : Bool)
  | setmacaddr (macaddr : EtherAddr)
  | sendpause
  | stoppause
  | dmaRx (enabled : Bool)
  | dmaTx (enabled : Bool)
  deriving DecidableEq, Repr

/-- What a call does, where the HAL has it: `qcom_hal_ops` (`qcom_if.c:458-479`) and the two
    `syn_hal_ops` (`syn/xgmac/syn_if.c:485-505`, `syn/gmac/syn_if.c:939-959`). -/
def GmacHal.code : GmacHal → HalCall → Option (List HalOp)
  | .qcom, .init => some []
  | .qcom, .start => some qcomStart
  | .qcom, .stop => some qcomStop
  | .qcom, .rxflowcontrol enabled => some (qcomRxFlowControl enabled)
  | .qcom, .txflowcontrol enabled => some (qcomTxFlowControl enabled)
  | .qcom, .setmacaddr macaddr =>
      some (macAddrWrites qcomMacAddr0 qcomMacAddr1 (qcomSetMacAddress macaddr))
  | .qcom, .sendpause => some qcomSendPauseFrame
  | .qcom, .stoppause => some qcomStopPauseFrame
  | .synXgmac, .init => some []
  | .synXgmac, .start => some SynXgmac.synStart
  | .synXgmac, .stop => some SynXgmac.synStop
  | .synXgmac, .rxflowcontrol enabled => some (SynXgmac.synRxFlowControl enabled)
  | .synXgmac, .txflowcontrol enabled => some (SynXgmac.synTxFlowControl enabled)
  | .synXgmac, .setmacaddr macaddr =>
      some (macAddrWrites SynXgmac.synMacAddr0High SynXgmac.synMacAddr0Low
        (synSetMacAddress macaddr))
  | .synXgmac, .sendpause => some SynXgmac.synSendPauseFrame
  | .synGmac, .init => some SynGmac.synInit
  | .synGmac, .rxflowcontrol enabled => some (SynGmac.synRxFlowControl enabled)
  | .synGmac, .txflowcontrol enabled => some (SynGmac.synTxFlowControl enabled)
  | .synGmac, .setmacaddr macaddr =>
      some (macAddrWrites SynGmac.synMacAddr0High SynGmac.synMacAddr0Low
        (synSetMacAddress macaddr))
  | .synGmac, .sendpause => some SynGmac.synSendPauseFrame
  | .synGmac, .dmaRx enabled => some (SynGmac.synDmaRx enabled)
  | .synGmac, .dmaTx enabled => some (SynGmac.synDmaTx enabled)
  | _, _ => none

/-- The registers after a call. -/
def GmacHal.call (hal : GmacHal) (regs : HalRegs) (call : HalCall) : Option HalRegs :=
  (hal.code call).map fun ops => ops.foldl HalOp.exec regs

/-- The two registers of the address, `high` first. -/
def GmacHal.addrRegs : GmacHal → Nat × Nat
  | .qcom => (qcomMacAddr0, qcomMacAddr1)
  | .synXgmac => (SynXgmac.synMacAddr0High, SynXgmac.synMacAddr0Low)
  | .synGmac => (SynGmac.synMacAddr0High, SynGmac.synMacAddr0Low)

end NssDp
