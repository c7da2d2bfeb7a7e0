import NssDp.Edma.Irq
import NssDp.Edma.Napi
import NssDp.Edma.Rx

/-!
# `edma_napi` in steps

The poll with all its rings (`hal/edma/edma_tx_rx.c:432-514`): its loops over the RXDESC, the
TXCMPL and the RXFILL rings and over the devices, cut into turns. The hardware goes on between
the turns. The work done is a C `int`, and so are the figures that are added to it.
-/

namespace NssDp.Edma

/-- The instance with its receive rings, which share one store, and the network devices. The
    `count` and `desc` of a receive ring stand beside its `id` in `ehw`; `rxdescFill` is the
    index of the RXFILL ring that `rxdesc_ring->rxfill` points to. -/
structure EdmaPoll where
  ehw : EdmaHw
  rxfillCount : Nat → Nat
  rxfillDesc : Nat → Nat → EdmaRxfillDesc
  rxdescCount : Nat → Nat
  rxdescDesc : Nat → Nat → EdmaRxdescDesc
  rxdescFill : Nat → Nat
  rxSkbStore : Nat → Option RxSkb
  rxph : BitVec 32 → EdmaRxPreheader
  devs : Nat → NetDevice
  rxEvents : List RxEvent
  txEvents : List KernelEvent

namespace EdmaPoll

/-- The receive side with one RXDESC and one RXFILL ring. -/
def rx (dev : EdmaPoll) (desc fill : Nat) : EdmaRx where
  ehw := dev.ehw
  rxfill := ⟨(dev.ehw.rxfillRing fill).id, dev.rxfillCount fill, dev.rxfillDesc fill⟩
  rxdesc := ⟨(dev.ehw.rxdescRing desc).id, dev.rxdescCount desc, dev.rxdescDesc desc⟩
  rxSkbStore := dev.rxSkbStore
  rxph := dev.rxph
  running ndev := (dev.devs ndev).running
  events := dev.rxEvents

/-- The receive side of an RXDESC ring and of the RXFILL ring it fills up. -/
def rxOf (dev : EdmaPoll) (desc : Nat) : EdmaRx := dev.rx desc (dev.rxdescFill desc)

/-- What a call on one RXFILL ring has made of the receive side is written back. -/
def setRx (dev : EdmaPoll) (fill : Nat) (rx : EdmaRx) : EdmaPoll :=
  { dev with
    ehw := rx.ehw
    rxfillDesc := Function.update dev.rxfillDesc fill rx.rxfill.desc
    rxSkbStore := rx.rxSkbStore
    rxph := rx.rxph
    rxEvents := rx.events }

/-- The same for the two rings of `rxOf`. -/
def setRxOf (dev : EdmaPoll) (desc : Nat) (rx : EdmaRx) : EdmaPoll :=
  dev.setRx (dev.rxdescFill desc) rx

end EdmaPoll

/-- The registers that the hardware writes. -/
def EdmaReg.isHw : EdmaReg → Bool
  | .txdescConsIdx _ | .txcmplProdIdx _ | .rxfillConsIdx _ | .rxdescProdIdx _ => true
  | .txIntStat _ | .rxfillIntStat _ | .rxdescIntStat _ => true
  | _ => false

/-- What the hardware makes of its registers, of the descriptors it writes and of the
    preheaders. -/
structure HwProgress where
  regs : EdmaReg → BitVec 32
  rxdescDesc : Nat → Nat → EdmaRxdescDesc
  txcmplDesc : Nat → Nat → EdmaTxcmplDesc
  rxph : BitVec 32 → EdmaRxPreheader

/-- The instance after some progress of the hardware. -/
def EdmaPoll.progress (dev : EdmaPoll) (hw : HwProgress) : EdmaPoll :=
  { dev with
    ehw := { dev.ehw with
      regs := fun r => if r.isHw then hw.regs r else dev.ehw.regs r
      txcmplRing := fun q => { dev.ehw.txcmplRing q with desc := hw.txcmplDesc q } }
    rxdescDesc := hw.rxdescDesc
    rxph := hw.rxph }

/-- Where `edma_napi` stands. -/
inductive PollPc where
  | rxStart (i : Nat)
  | rxLoop (i : Nat) (call : CleanRx)
  | rxEnd (i : Nat) (call : CleanRx)
  | tx (i : Nat)
  | fill (i : Nat)
  | resume (i : Nat)
  | finish
  | returned
  deriving DecidableEq, Repr

/-- A poll; `workDone` is what it returns once it has returned. -/
structure PollRun where
  dev : EdmaPoll
  workDone : BitVec 32
  pc : PollPc

/-- The next piece of the poll, with the buffers there are for an allocation it makes, or
    progress of the hardware. -/
inductive PollLabel where
  | next (allocs : List EdmaRxAlloc)
  | hw (progress : HwProgress)

/-- `edma_napi` from the test of its budget on (`edma_tx_rx.c:479-513`). -/
def edmaNapiEnd (ehw : EdmaHw) (workDone : BitVec 32) (budget : Nat) : EdmaHw :=
  if workDone.toInt < budget then { ehw with napi := ehw.napi.complete }.enableRingIrqs else ehw

/-- As long as the work done is not negative, it is compared like a natural number. -/
theorem edmaNapiEnd_eq (ehw : EdmaHw) {workDone : Nat} (hwork : workDone < 2 ^ 31) (budget : Nat) :
    edmaNapiEnd ehw (BitVec.ofNat 32 workDone) budget = edmaNapiFinish ehw workDone budget := by
  have hint : (BitVec.ofNat 32 workDone).toInt = workDone := Word.i32_of_lt hwork
  simp only [edmaNapiEnd, edmaNapiFinish, hint, Int.ofNat_lt]

/-- One piece of `edma_napi` (`edma_tx_rx.c:432-514`); there is none after a panic in `skb_put`,
    and none after a loop over a TXCMPL ring that does not end. -/
def napiNext (soc : Soc) (virtToPhys : Nat → BitVec 32) (maxGmacs budget : Nat) (s : PollRun)
    (allocs : List EdmaRxAlloc) : Option PollRun :=
  match s.pc with
  | .rxStart i =>
    if i < s.dev.ehw.rxdescRings then
      let r := edmaCleanRxStart (s.dev.rxOf i) budget
      some { s with dev := s.dev.setRxOf i r.1, pc := .rxLoop i r.2 }
    else some { s with pc := .tx 0 }
  | .rxLoop i call =>
    match edmaCleanRxTurn soc (s.dev.rxOf i) call with
    | .done rx => some { s with dev := s.dev.setRxOf i rx, pc := .rxEnd i call }
    | .next rx call => some { s with dev := s.dev.setRxOf i rx, pc := .rxLoop i call }
    | .panic _ => none
  | .rxEnd i call =>
    let r := edmaCleanRxEnd (s.dev.rxOf i) call allocs
    some ⟨s.dev.setRxOf i r.2, s.workDone + BitVec.ofNat 32 r.1, .rxStart (i + 1)⟩
  | .tx i =>
    if i < s.dev.ehw.txcmplRings then
      (edmaCleanTx virtToPhys s.dev.ehw i).map fun r =>
        ⟨{ s.dev with ehw := r.ehw, txEvents := s.dev.txEvents ++ r.events },
          s.workDone + BitVec.ofNat 32 r.ret, .tx (i + 1)⟩
    else some { s with pc := .fill 0 }
  | .fill i =>
    if i < s.dev.ehw.rxfillRings then
      let r := edmaAllocRxBuffer (s.dev.rx 0 i) allocs
      some ⟨s.dev.setRx i r.2, s.workDone + BitVec.ofNat 32 r.1, .fill (i + 1)⟩
    else some { s with pc := .resume 0 }
  | .resume i =>
    if i < maxGmacs then
      some { s with
        dev := { s.dev with devs := napiResumeAt s.dev.ehw s.dev.devs i }
        pc := .resume (i + 1) }
    else some { s with pc := .finish }
  | .finish =>
    some { s with
      dev := { s.dev with ehw := edmaNapiEnd s.dev.ehw s.workDone budget }
      pc := .returned }
  | .returned => none

/-- A step while the poll runs. -/
def pollStep (soc : Soc) (virtToPhys : Nat → BitVec 32) (maxGmacs budget : Nat) (s : PollRun)
    (a : PollLabel) : Option PollRun :=
  match a with
  | .next allocs => napiNext soc virtToPhys maxGmacs budget s allocs
  | .hw progress => if s.pc = .returned then none else some
      { s with dev := s.dev.progress progress }

/-- A call of `edma_napi` on an instance. -/
def PollRun.start (dev : EdmaPoll) : PollRun := ⟨dev, 0#32, .rxStart 0⟩

end NssDp.Edma
