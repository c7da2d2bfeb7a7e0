import NssDp.ApiIf
import NssDp.Edma.Cfg
import NssDp.Edma.ConfigureRings

/-!
# The initialisation of EDMA

`edma_of_get_pdata` (`hal/edma/edma_data_plane.c`) and `edma_hw_init` (`hal/edma/edma_cfg.c`). The
registers that only `edma_hw_init` accesses stand beside the others; the version register, which
is read for a message, is left out. A ring array that is allocated has an element for each ring.
Where the initialisation fails, its caller gives the instance up.
-/

namespace NssDp.Edma

def eInval : Int := -22

/-- `EDMA_MAX_TXDESC_RINGS` and the other three. -/
def edmaMaxRings (soc : Soc) : RingKind → Nat
  | .txdesc => 24
  | .txcmpl => if soc = .ipq60xx then 24 else 8
  | .rxfill => 8
  | .rxdesc => 16

def edmaRxfillIntMask : BitVec 32 := 0x1#32
def edmaRxdescIntMaskPktInt : BitVec 32 := 0x1#32
def edmaTxIntMaskPktInt : BitVec 32 := 0x1#32
def edmaTxIntMaskUgtInt : BitVec 32 := 0x2#32
def edmaRxdescRxEn : BitVec 32 := 0x1#32
def edmaRxfillRingEn : BitVec 32 := 0x1#32
def edmaTxdescTxEn : BitVec 32 := 0x1#32
def edmaPortPadEn : BitVec 32 := 0x1#32
def edmaPortEdmaEn : BitVec 32 := 0x2#32
def edmaAxiwMaxWrSizeEn : BitVec 32 := 0x400#32

def edmaDmarReqPriSet (x : BitVec 32) : BitVec 32 := (x &&& 0x7#32) <<< 0
def edmaDmarBurstLenSet (x : BitVec 32) : BitVec 32 := (x &&& 0x1#32) <<< 3
def edmaDmarTxdataOutstandingNumSet (x : BitVec 32) : BitVec 32 := (x &&& 0x1f#32) <<< 4
def edmaDmarTxdescOutstandingNumSet (x : BitVec 32) : BitVec 32 := (x &&& 0x7#32) <<< 9
def edmaDmarRxfillOutstandingNumSet (x : BitVec 32) : BitVec 32 := (x &&& 0x7#32) <<< 12

/-- `EDMA_BURST_LEN_ENABLE`. -/
def edmaBurstLenEnable (soc : Soc) : BitVec 32 := if soc = .ipq60xx then 1#32 else 0#32

/-- The errors of the misc interrupt: the two of the AXI bus, the full descriptor FIFO, the
    buffer size, the full SRAM and completion buffer, and those that depend on the SoC. -/
def edmaMiscErrMask (soc : Soc) : BitVec 32 :=
  let data := 0x1#32 ||| 0x2#32 ||| 0x4#32 ||| 0x8#32 ||| 0x10#32 ||| 0x20#32
  if soc = .ipq807x then data ||| 0x100#32 ||| (0x40#32 ||| 0x80#32)
  else data ||| 0x40#32 ||| 0x80#32

/-! The device tree -/

/-- The two properties of one kind of rings. -/
structure RingProps where
  ringStart : Option (BitVec 32)
  rings : Option (BitVec 32)
  deriving DecidableEq, Repr

/-- The three fields of `struct edma_hw` for one kind of rings. -/
structure RingRange where
  ringStart : BitVec 32
  rings : BitVec 32
  ringEnd : BitVec 32
  deriving DecidableEq, Repr

/-- The device tree: whether the node, its device and the register resource are found, and the
    properties of the node. -/
structure EdmaDt where
  deviceNode : Bool
  pdev : Bool
  edmaRes : Bool
  props : RingKind → RingProps

/-- The reading of one kind of rings. -/
def RingProps.range (props : RingProps) : Except Int RingRange :=
  match props.ringStart with
  | none => .error eInval
  | some ringStart =>
    match props.rings with
    | none => .error eInval
    | some rings => .ok ⟨ringStart, rings, ringStart + rings⟩

/-- `edma_of_get_pdata` (`edma_data_plane.c:597-711`). -/
def edmaOfGetPdata (dt : EdmaDt) : Except Int (RingKind → RingRange) :=
  if dt.deviceNode = false then .error eInval
  else if dt.pdev = false then .error eInval
  else if dt.edmaRes = false then .error eInval
  else do
    let txdesc ← (dt.props .txdesc).range
    let txcmpl ← (dt.props .txcmpl).range
    let rxfill ← (dt.props .rxfill).range
    let rxdesc ← (dt.props .rxdesc).range
    .ok fun
      | .txdesc => txdesc
      | .txcmpl => txcmpl
      | .rxfill => rxfill
      | .rxdesc => rxdesc

/-! The instance -/

/-- The registers that only `edma_hw_init` accesses. -/
inductive InitReg where
  | txdesc2cmplMap (n : Nat)
  | rxdesc2fillMap (n : Nat)
  | qid2ridTableMem (q : Nat)
  | dmarCtrl
  | axiwCtrl
  deriving DecidableEq, Repr

/-- The instance with the numbers that `struct edma_hw` has beside, and the registers above. -/
structure HwInit where
  cfg : RingConfig
  txcmplRingStart : Nat
  ringEnd : RingKind → Nat
  initRegs : InitReg → BitVec 32

/-- All registers. -/
structure HwRegs where
  regs : EdmaReg → BitVec 32
  ringRegs : RingReg → BitVec 32
  initRegs : InitReg → BitVec 32

/-- What the initialisation finds: the registers after the reset, unless its control is missing,
    the allocations and their addresses, and the buffers for each RXFILL ring. -/
structure HwInitEnv where
  reset : Option HwRegs
  rings : RingEnv
  ringDma : RingKind → Nat → BitVec 64
  allocs : Nat → List EdmaRxAlloc

/-- A loop that reads registers and writes them back changed. -/
def EdmaHw.modifyRegs (ehw : EdmaHw) (regs : List EdmaReg) (f : BitVec 32 → BitVec 32) : EdmaHw :=
  regs.foldl (fun ehw reg => (ehw.touch [.regRead reg]).regWrite reg (f (ehw.regs reg))) ehw

namespace HwInit

/-- The number of rings of a kind. -/
def rings (s : HwInit) : RingKind → Nat
  | .txdesc => s.cfg.dev.ehw.txdescRings
  | .txcmpl => s.cfg.dev.ehw.txcmplRings
  | .rxfill => s.cfg.dev.ehw.rxfillRings
  | .rxdesc => s.cfg.dev.ehw.rxdescRings

/-- The id of the first ring of a kind. -/
def ringStart (s : HwInit) : RingKind → Nat
  | .txdesc => s.cfg.dev.ehw.txdescRingStart
  | .txcmpl => s.txcmplRingStart
  | .rxfill => s.cfg.dev.ehw.rxfillRingStart
  | .rxdesc => s.cfg.dev.ehw.rxdescRingStart

/-- The values of a loop from the first ring of a kind to its end. -/
def ringIds (s : HwInit) (kind : RingKind) : List Nat :=
  List.range' (s.ringStart kind) (s.ringEnd kind - s.ringStart kind)

/-- What is done to `struct edma_hw` alone. -/
def setEhw (s : HwInit) (ehw : EdmaHw) : HwInit := { s with cfg := s.cfg.setEhw ehw }

/-- A register that only `edma_hw_init` accesses. -/
def regWrite (s : HwInit) (reg : InitReg) (val : BitVec 32) : HwInit :=
  { s with initRegs := Function.update s.initRegs reg val }

/-- What the device tree says is kept. -/
def setPdata (s : HwInit) (pdata : RingKind → RingRange) : HwInit :=
  { s.setEhw { s.cfg.dev.ehw with
      txdescRings := (pdata .txdesc).rings.toNat
      txdescRingStart := (pdata .txdesc).ringStart.toNat
      txcmplRings := (pdata .txcmpl).rings.toNat
      rxfillRings := (pdata .rxfill).rings.toNat
      rxfillRingStart := (pdata .rxfill).ringStart.toNat
      rxdescRings := (pdata .rxdesc).rings.toNat
      rxdescRingStart := (pdata .rxdesc).ringStart.toNat } with
    txcmplRingStart := (pdata .txcmpl).ringStart.toNat
    ringEnd := fun kind => (pdata kind).ringEnd.toNat }

/-! `edma_hw_init` -/

/-- The private data is set up (`edma_cfg.c:748-758`). -/
def setupPrivate (s : HwInit) : HwInit :=
  let s := s.setEhw { s.cfg.dev.ehw with
    miscIntrMask := 0x0#32
    rxfillIntrMask := edmaRxfillIntMask
    rxdescIntrMask := edmaRxdescIntMaskPktInt
    txcmplIntrMask := edmaTxIntMaskPktInt ||| edmaTxIntMaskUgtInt
    active := 0
    edmaInitialized := false }
  { s with cfg := { s.cfg with rxPayloadOffset := BitVec.ofNat 16 edmaRxPrehdrSize } }

/-- The registers after a reset. -/
def setRegs (s : HwInit) (hw : HwRegs) : HwInit :=
  let s := s.setEhw { s.cfg.dev.ehw with regs := hw.regs }
  { s with cfg := { s.cfg with ringRegs := hw.ringRegs }, initRegs := hw.initRegs }

/-- Interrupts and rings are disabled (`edma_cfg.c:765-802`). -/
def disable (soc : Soc) (s : HwInit) : HwInit :=
  let ehw := s.cfg.dev.ehw
  let ehw := ehw.writeRegs ((List.range (edmaMaxRings soc .txcmpl)).map .txIntMask) 0#32
  let ehw := ehw.writeRegs ((List.range (edmaMaxRings soc .rxfill)).map .rxfillIntMask) 0#32
  let cfg := (List.range (edmaMaxRings soc .rxdesc)).foldl
    (fun cfg i => RingConfig.regWrite cfg (.rxIntCtrl i) 0#32) (s.cfg.setEhw ehw)
  let ehw := cfg.dev.ehw
  let ehw := ehw.modifyRegs ((List.range (edmaMaxRings soc .rxdesc)).map .rxdescCtrl)
    fun data => data &&& ~~~edmaRxdescRxEn
  let ehw := ehw.modifyRegs ((List.range (edmaMaxRings soc .rxfill)).map .rxfillRingEn)
    fun data => data &&& ~~~edmaRxfillRingEn
  let ehw := ehw.modifyRegs ((List.range (edmaMaxRings soc .txdesc)).map .txdescCtrl)
    fun data => data &&& ~~~edmaTxdescTxEn
  { s with cfg := cfg.setEhw ehw }

/-- One turn of the loop over the TXDESC rings, with the TXCMPL ring it has come to
    (`edma_cfg.c:820-839`). -/
def mapTxdescTurn (s : HwInit × BitVec 32) (i : Nat) : HwInit × BitVec 32 :=
  let reg := if i ≤ 9 then InitReg.txdesc2cmplMap 0
    else if 10 ≤ i ∧ i ≤ 19 then .txdesc2cmplMap 1
    else .txdesc2cmplMap 2
  let data := s.1.initRegs reg ||| (s.2 &&& 0x7#32) <<< (i % 10 * 3)
  let descIndex := s.2 + 1
  (s.1.regWrite reg data,
    if descIndex.toNat = s.1.ringEnd .txcmpl then BitVec.ofNat 32 s.1.txcmplRingStart
    else descIndex)

/-- The TXDESC rings are mapped to the TXCMPL rings (`edma_cfg.c:804-840`). -/
def mapTxdesc (s : HwInit) : HwInit :=
  let s := s.regWrite (.txdesc2cmplMap 0) 0#32
  let s := s.regWrite (.txdesc2cmplMap 1) 0#32
  let s := s.regWrite (.txdesc2cmplMap 2) 0#32
  ((s.ringIds .txdesc).foldl mapTxdescTurn (s, BitVec.ofNat 32 s.txcmplRingStart)).1

/-- The first queues are mapped to the first RXDESC ring (`edma_cfg.c:842-853`). -/
def mapQid (s : HwInit) : HwInit :=
  s.regWrite (.qid2ridTableMem 0) (BitVec.ofNat 32 (s.ringStart .rxdesc) &&& 0xf#32)

/-- An array of rings is filled with zeros. -/
def zeroRings (s : HwInit) : RingKind → HwInit
  | .txdesc => s.setEhw { s.cfg.dev.ehw with txdescRing := fun _ => ⟨0, 0, fun _ => ⟨0#32, 0#32⟩⟩ }
  | .txcmpl => s.setEhw { s.cfg.dev.ehw with txcmplRing := fun _ => ⟨0, 0, fun _ => ⟨0#32, 0#32⟩⟩ }
  | .rxfill =>
    let s := s.setEhw { s.cfg.dev.ehw with rxfillRing := fun _ => ⟨0⟩ }
    { s with cfg := { s.cfg with dev := { s.cfg.dev with rxfillCount := fun _ => 0 } } }
  | .rxdesc =>
    let s := s.setEhw { s.cfg.dev.ehw with rxdescRing := fun _ => ⟨0⟩ }
    { s with cfg := { s.cfg with dev := { s.cfg.dev with rxdescCount := fun _ => 0 } } }

/-- The size and the id of ring `i`. -/
def assign (s : HwInit) (kind : RingKind) (i : Nat) : HwInit :=
  let ehw := s.cfg.dev.ehw
  let id := Word.u32 (s.ringStart kind + i)
  match kind with
  | .txdesc => s.setEhw { ehw with
      txdescRing := Function.update ehw.txdescRing i ⟨id, edmaRingSize, (ehw.txdescRing i).desc⟩ }
  | .txcmpl => s.setEhw { ehw with
      txcmplRing := Function.update ehw.txcmplRing i ⟨id, edmaRingSize, (ehw.txcmplRing i).desc⟩ }
  | .rxfill =>
    let s := s.setEhw { ehw with rxfillRing := Function.update ehw.rxfillRing i ⟨id⟩ }
    { s with cfg := { s.cfg with dev := { s.cfg.dev with
        rxfillCount := Function.update s.cfg.dev.rxfillCount i edmaRingSize } } }
  | .rxdesc =>
    let s := s.setEhw { ehw with rxdescRing := Function.update ehw.rxdescRing i ⟨id⟩ }
    { s with cfg := { s.cfg with dev := { s.cfg.dev with
        rxdescCount := Function.update s.cfg.dev.rxdescCount i edmaRingSize } } }

/-- The descriptors of ring `i` are allocated, and zero. -/
def allocDesc (ringDma : RingKind → Nat → BitVec 64) (s : HwInit) (kind : RingKind) (i : Nat) :
    HwInit :=
  let s := { s with cfg := { s.cfg with
    ringDma := Function.update s.cfg.ringDma kind
      (Function.update (s.cfg.ringDma kind) i (ringDma kind i)) } }
  let dev := s.cfg.dev
  match kind with
  | .txdesc => s.setEhw { dev.ehw with
      txdescRing := Function.update dev.ehw.txdescRing i
        { dev.ehw.txdescRing i with desc := fun _ => ⟨0#32, 0#32⟩ } }
  | .txcmpl => s.setEhw { dev.ehw with
      txcmplRing := Function.update dev.ehw.txcmplRing i
        { dev.ehw.txcmplRing i with desc := fun _ => ⟨0#32, 0#32⟩ } }
  | .rxfill => { s with cfg := { s.cfg with dev := { dev with
      rxfillDesc := Function.update dev.rxfillDesc i fun _ => ⟨0#32, 0#32⟩ } } }
  | .rxdesc => { s with cfg := { s.cfg with dev := { dev with
      rxdescDesc := Function.update dev.rxdescDesc i fun _ => ⟨0#32, 0#32⟩ } } }

/-- What the setup of the rings does to the instance. It releases something only where it
    fails. -/
def ringOp (ringDma : RingKind → Nat → BitVec 64) (s : HwInit) : RingOp → HwInit
  | .kzalloc kind => s.zeroRings kind
  | .assign kind ring => s.assign kind ring.toNat
  | .mapRxfill rxdesc rxfill => { s with cfg := { s.cfg with dev := { s.cfg.dev with
      rxdescFill := Function.update s.cfg.dev.rxdescFill rxdesc.toNat rxfill.toNat } } }
  | .dmaAllocCoherent kind ring => s.allocDesc ringDma kind ring.toNat
  | .kfree _ | .cleanup .. => s

/-- One turn of the loop over the RXDESC rings (`edma_cfg.c:869-884`). -/
def mapRxdescTurn (s : HwInit) (i : Nat) : HwInit :=
  let reg := if i ≤ 9 then InitReg.rxdesc2fillMap 0 else .rxdesc2fillMap 1
  let rxfill := s.cfg.dev.rxdescFill (i - s.ringStart .rxdesc)
  let id := BitVec.ofNat 32 (s.cfg.dev.ehw.rxfillRing rxfill).id
  s.regWrite reg (s.initRegs reg ||| (id &&& 0x7#32) <<< (i % 10 * 3))

/-- The RXDESC rings are mapped to the RXFILL rings (`edma_cfg.c:861-884`). -/
def mapRxdesc (s : HwInit) : HwInit :=
  let s := s.regWrite (.rxdesc2fillMap 0) 0#32
  let s := s.regWrite (.rxdesc2fillMap 1) 0#32
  (s.ringIds .rxdesc).foldl mapRxdescTurn s

/-- DMA, the misc interrupt and the ports (`edma_cfg.c:900-938`). -/
def setupMisc (soc : Soc) (s : HwInit) : HwInit :=
  let s := s.regWrite .dmarCtrl (edmaDmarBurstLenSet (edmaBurstLenEnable soc) |||
    edmaDmarReqPriSet 0#32 ||| edmaDmarTxdataOutstandingNumSet 31#32 |||
    edmaDmarTxdescOutstandingNumSet 7#32 ||| edmaDmarRxfillOutstandingNumSet 7#32)
  let s := if soc = .ipq60xx then
    s.regWrite .axiwCtrl (s.initRegs .axiwCtrl ||| edmaAxiwMaxWrSizeEn) else s
  let ehw := s.cfg.dev.ehw.regWrite .miscIntMask (edmaMiscErrMask soc)
  s.setEhw (ehw.regWrite .portCtrl (edmaPortPadEn ||| edmaPortEdmaEn))

/-- The rings of the driver are enabled (`edma_cfg.c:940-962`). -/
def enable (s : HwInit) : HwInit :=
  let ehw := s.cfg.dev.ehw
  let ehw := ehw.modifyRegs ((s.ringIds .rxdesc).map .rxdescCtrl)
    fun data => data ||| edmaRxdescRxEn
  let ehw := ehw.modifyRegs ((s.ringIds .rxfill).map .rxfillRingEn)
    fun data => data ||| edmaRxfillRingEn
  s.setEhw (ehw.modifyRegs ((s.ringIds .txdesc).map .txdescCtrl)
    fun data => data ||| edmaTxdescTxEn)

/-- The part from the reset to the setup of the rings (`edma_cfg.c:765-853`). -/
def beforeRings (soc : Soc) (s : HwInit) : HwInit :=
  let s := s.disable soc
  let s := if soc = .ipq807x then s.mapTxdesc else s
  s.mapQid

/-- The part from the setup of the rings on (`edma_cfg.c:859-966`). -/
def afterRings (soc : Soc) (allocs : Nat → List EdmaRxAlloc) (s : HwInit) : HwInit :=
  let s := { s with cfg := edmaConfigureRings allocs s.cfg }
  let s := (s.mapRxdesc.setupMisc soc).enable
  s.setEhw { s.cfg.dev.ehw with edmaInitialized := true }

end HwInit

/-- `edma_hw_init` (`edma_cfg.c:735-967`). -/
def edmaHwInit (soc : Soc) (env : HwInitEnv) (s : HwInit) : Except Int HwInit :=
  match env.reset with
  | none => .error eInval
  | some hw =>
    let s := (s.setupPrivate.setRegs hw).beforeRings soc
    let init := edmaInitRings s.rings env.rings
    if init.1 ≠ 0 then .error init.1
    else .ok ((init.2.foldl (HwInit.ringOp env.ringDma) s).afterRings soc env.allocs)

end NssDp.Edma
