import NssDp.ApiIf
import NssDp.Edma.Hw
import NssDp.Kernel.RxSkb

/-!
# Reception through EDMA

`edma_alloc_rx_buffer` and `edma_clean_rx` (`hal/edma/edma_tx_rx.c`), and the release of the
receive rings (`hal/edma/edma_cfg.c`), for one RXFILL and one RXDESC ring. A buffer carries
the number of its store slot in the preheader at its front, which the driver finds again by
the address in a descriptor.
-/

namespace NssDp.Edma

open Word

/-- `sizeof(struct edma_rx_preheader)`. -/
def edmaRxPrehdrSize : Nat := 32

/-- `EDMA_RX_BUFF_SIZE`. -/
def edmaRxBuffSize : Nat := 2000 + edmaRxPrehdrSize

def edmaRxfillBufSizeMask : BitVec 32 := 0x3fff#32
def edmaRxdescPacketLenMask : BitVec 32 := 0x3fff#32
def edmaPrehdrPortnumBits : BitVec 16 := 0x0fff#16
def nssPtpEventServiceCode : BitVec 32 := 0x9#32

/-- The fields of `struct edma_rx_preheader` that the driver reads. -/
structure EdmaRxPreheader where
  opaqueWord : BitVec 32
  srcInfo : BitVec 16
  rxPre4 : BitVec 32
  deriving DecidableEq, Repr

/-- `EDMA_RXPH_SRC_INFO_TYPE_GET`. -/
def EdmaRxPreheader.srcInfoType (rxph : EdmaRxPreheader) : BitVec 16 :=
  (rxph.srcInfo >>> 8) &&& 0xf0#16

/-- `EDMA_RXPH_SERVICE_CODE_GET`. -/
def EdmaRxPreheader.serviceCode (rxph : EdmaRxPreheader) : BitVec 32 := rxph.rxPre4 &&& 0xff#32

/-- The port number in the preheader. -/
def EdmaRxPreheader.srcPortNum (rxph : EdmaRxPreheader) : Nat :=
  (rxph.srcInfo &&& edmaPrehdrPortnumBits).toNat

/-- `struct edma_rxfill_desc`. -/
structure EdmaRxfillDesc where
  bufferAddr : BitVec 32
  word1 : BitVec 32
  deriving DecidableEq, Repr

/-- `struct edma_rxdesc_desc`. -/
structure EdmaRxdescDesc where
  bufferAddr : BitVec 32
  status : BitVec 32
  deriving DecidableEq, Repr

/-- An RXFILL ring with its descriptors. -/
structure RxfillRing where
  id : Nat
  count : Nat
  desc : Nat → EdmaRxfillDesc

/-- An RXDESC ring with its descriptors. -/
structure RxdescRing where
  id : Nat
  count : Nat
  desc : Nat → EdmaRxdescDesc

/-- The receive side of the instance. `rxph` is the preheader at the front of the buffer that
    is mapped at an address, which `phys_to_virt` finds; `running` is the kernel's record of
    the devices that are open. -/
structure EdmaRx where
  ehw : EdmaHw
  rxfill : RxfillRing
  rxdesc : RxdescRing
  rxSkbStore : Nat → Option RxSkb
  rxph : BitVec 32 → EdmaRxPreheader
  running : Nat → Bool
  events : List RxEvent

namespace EdmaRx

/-- Registers are read. -/
def touch (rx : EdmaRx) (accesses : List EdmaAccess) : EdmaRx :=
  { rx with ehw := rx.ehw.touch accesses }

/-- A register is written. -/
def regWrite (rx : EdmaRx) (reg : EdmaReg) (val : BitVec 32) : EdmaRx :=
  { rx with ehw := rx.ehw.regWrite reg val }

/-- More calls are made on buffers. -/
def emit (rx : EdmaRx) (es : List RxEvent) : EdmaRx := { rx with events := rx.events ++ es }

/-- A slot of the receive store is written. -/
def setStore (rx : EdmaRx) (i : Nat) (skb : Option RxSkb) : EdmaRx :=
  { rx with rxSkbStore := Function.update rx.rxSkbStore i skb }

/-- A descriptor of the RXFILL ring is written. -/
def setFill (rx : EdmaRx) (i : Nat) (desc : EdmaRxfillDesc) : EdmaRx :=
  { rx with rxfill := { rx.rxfill with desc := Function.update rx.rxfill.desc i desc } }

/-- The opaque word of the preheader at an address is written. -/
def setOpaque (rx : EdmaRx) (addr word : BitVec 32) : EdmaRx :=
  { rx with rxph := Function.update rx.rxph addr { rx.rxph addr with opaqueWord := word } }

/-- The store index in the preheader of the buffer at an address. -/
def opaqueAt (rx : EdmaRx) (addr : BitVec 32) : Nat := (rx.rxph addr).opaqueWord.toNat

/-- The buffer at an address is unmapped, and its slot of the store cleared. -/
def unmapAt (rx : EdmaRx) (addr : BitVec 32) : EdmaRx :=
  (rx.emit [.dmaUnmapSingle .pdev addr edmaRxBuffSize .fromDevice]).setStore (rx.opaqueAt addr) none

end EdmaRx

/-- A buffer that `dev_alloc_skb` returns, and the address `dma_map_single` gives it, 0 where
    the mapping fails. -/
structure EdmaRxAlloc where
  skb : RxSkb
  dma : BitVec 32
  deriving DecidableEq, Repr

/-- The locals of `edma_alloc_rx_buffer` and the state. -/
structure AllocRxLoop where
  numAlloc : Nat
  next : Nat
  rx : EdmaRx

/-- An index of a ring, one on. -/
def edmaIdxNext (count idx : Nat) : Nat := if u16 (idx + 1) = count then 0 else u16 (idx + 1)

/-- The loop of `edma_alloc_rx_buffer` (`edma_tx_rx.c:57-116`); `dev_alloc_skb` has no buffer
    beyond `allocs`. The preheader is written before the buffer is mapped, at the front of the
    memory that the mapping is of. -/
def allocRxLoop (cons : Nat) : List EdmaRxAlloc → AllocRxLoop → AllocRxLoop
  | [], l => l
  | alloc :: allocs, l =>
    let counter := edmaIdxNext l.rx.rxfill.count l.next
    if counter = cons then l
    else
      let rx := l.rx.emit [.allocSkb alloc.skb]
      let word1 := BitVec.ofNat 32 edmaRxBuffSize &&& edmaRxfillBufSizeMask
      if (rx.rxSkbStore l.next).isSome then { l with rx := rx.emit [.devKfreeSkb alloc.skb] }
      else if alloc.dma = 0#32 then
        let rx := (rx.setStore l.next (some alloc.skb)).setFill l.next ⟨0#32, word1⟩
        { l with rx := (rx.emit [.devKfreeSkb alloc.skb]).setStore l.next none }
      else
        let rx := (rx.setStore l.next (some alloc.skb)).setOpaque alloc.dma (BitVec.ofNat 32 l.next)
        let rx := (rx.setFill l.next ⟨alloc.dma, word1⟩).emit
          [.dmaMapSingle .pdev alloc.dma edmaRxBuffSize .fromDevice]
        allocRxLoop cons allocs ⟨u16 (l.numAlloc + 1), counter, rx⟩

/-- `edma_alloc_rx_buffer` (`edma_tx_rx.c:31-133`). -/
def edmaAllocRxBuffer (rx : EdmaRx) (allocs : List EdmaRxAlloc) : Nat × EdmaRx :=
  let id := rx.rxfill.id
  let rx := rx.touch [.regRead (.rxfillProdIdx id), .regRead (.rxfillConsIdx id)]
  let next := rx.ehw.regIdx (.rxfillProdIdx id) &&& rx.rxfill.count - 1
  let cons := rx.ehw.regIdx (.rxfillConsIdx id)
  let l := allocRxLoop cons allocs ⟨0, next, rx⟩
  if l.numAlloc = 0 then (0, l.rx)
  else
    (l.numAlloc, l.rx.regWrite (.rxfillProdIdx id) (BitVec.ofNat 32 l.next &&& edmaIdxMask))

/-- What becomes of a buffer that was taken from the store (`edma_tx_rx.c:321-403`); there is
    no way on where `skb_put` runs into `skb_over_panic`. -/
def edmaRxHandOver (soc : Soc) (rx : EdmaRx) (rxph : EdmaRxPreheader) (status : BitVec 32)
    (skb : RxSkb) : Option RxEvent :=
  if rxph.srcInfoType ≠ edmaPrehdrDstinfoPortidInd then some (.devKfreeSkb skb)
  else
    let pktLength := (status &&& edmaRxdescPacketLenMask).toNat
    if rxph.srcPortNum < soc.startIfnum ∨ soc.maxPorts < rxph.srcPortNum then
      some (.devKfreeSkb skb)
    else
      match rx.ehw.netdevArr (rxph.srcPortNum - 1) with
      | none => some (.devKfreeSkb skb)
      | some ndev =>
        if !rx.running ndev then some (.devKfreeSkb skb)
        else if skb.putOverflows pktLength then none
        else if rxph.serviceCode = nssPtpEventServiceCode then
          some (.nssPhyTstampRxBuf ndev skb pktLength)
        else some (.netifReceiveSkb ndev skb pktLength)

/-- The locals of `edma_clean_rx`. -/
structure CleanRx where
  consIdx : Nat
  workDone : Nat
  workToDo : Int
  deriving DecidableEq, Repr

/-- How a turn of the loop of `edma_clean_rx` ends. -/
inductive CleanRxTurn where
  | done (rx : EdmaRx)
  | next (rx : EdmaRx) (call : CleanRx)
  | panic (rx : EdmaRx)

/-- `edma_clean_rx` up to its loop (`edma_tx_rx.c:278-281`). -/
def edmaCleanRxStart (rx : EdmaRx) (workToDo : Int) : EdmaRx × CleanRx :=
  let id := rx.rxdesc.id
  (rx.touch [.regRead (.rxdescConsIdx id)], ⟨rx.ehw.regIdx (.rxdescConsIdx id), 0, workToDo⟩)

/-- One turn of the loop (`edma_tx_rx.c:283-415`). The producer index is read anew in every
    turn; the comparison with the budget is one of unsigned numbers. -/
def edmaCleanRxTurn (soc : Soc) (rx : EdmaRx) (call : CleanRx) : CleanRxTurn :=
  let id := rx.rxdesc.id
  let rx := rx.touch [.regRead (.rxdescProdIdx id)]
  let prodIdx := rx.ehw.regIdx (.rxdescProdIdx id)
  if call.consIdx = prodIdx then .done rx
  else if (BitVec.ofInt 32 call.workToDo).toNat ≤ call.workDone then .done rx
  else
    let desc := rx.rxdesc.desc call.consIdx
    let skb := rx.rxSkbStore (rx.opaqueAt desc.bufferAddr)
    let rx := rx.unmapAt desc.bufferAddr
    let call := { call with
      consIdx := edmaIdxNext rx.rxdesc.count call.consIdx
      workDone := u32 (call.workDone + 1) }
    match skb with
    | none => .next rx call
    | some skb =>
      match edmaRxHandOver soc rx (rx.rxph desc.bufferAddr) desc.status skb with
      | none => .panic rx
      | some e => .next (rx.emit [e]) call

/-- `edma_clean_rx` after its loop (`edma_tx_rx.c:417-425`). -/
def edmaCleanRxEnd (rx : EdmaRx) (call : CleanRx) (allocs : List EdmaRxAlloc) : Nat × EdmaRx :=
  let rx := (edmaAllocRxBuffer rx allocs).2
  (call.workDone, rx.regWrite (.rxdescConsIdx rx.rxdesc.id) (BitVec.ofNat 32 call.consIdx))

/-- The loop that empties a ring (`edma_cfg.c:58-79` and `edma_cfg.c:167-186`), with `fuel`
    tests of its condition; `addr` reads the address in a descriptor. -/
def releaseRxLoop (addr : Nat → BitVec 32) (count prodIdx : Nat) :
    Nat → Nat → EdmaRx → Option EdmaRx
  | 0, _, _ => none
  | fuel + 1, consIdx, rx =>
    if consIdx = prodIdx then some rx
    else
      let skb := rx.rxSkbStore (rx.opaqueAt (addr consIdx))
      let rx := rx.unmapAt (addr consIdx)
      releaseRxLoop addr count prodIdx fuel (edmaIdxNext count consIdx)
        (rx.emit (skb.toList.map .devKfreeSkb))

/-- What `edma_cleanup_rxfill_ring_res` does to the buffers of its ring (`edma_cfg.c:33-79`). An
    index is 16 bits wide, so a loop that has not ended after `2 ^ 16` tests never ends. -/
def EdmaRx.cleanupRxfillRingRes (rx : EdmaRx) : Option EdmaRx :=
  let id := rx.rxfill.id
  let rx := rx.touch [.regRead (.rxfillProdIdx id), .regRead (.rxfillConsIdx id)]
  releaseRxLoop (fun i => (rx.rxfill.desc i).bufferAddr) rx.rxfill.count
    (rx.ehw.regIdx (.rxfillProdIdx id)) (2 ^ 16) (rx.ehw.regIdx (.rxfillConsIdx id)) rx

/-- What `edma_cleanup_rxdesc_ring_res` does to the buffers of its ring
    (`edma_cfg.c:147-186`). -/
def EdmaRx.cleanupRxdescRingRes (rx : EdmaRx) : Option EdmaRx :=
  let id := rx.rxdesc.id
  let rx := rx.touch [.regRead (.rxdescConsIdx id), .regRead (.rxdescProdIdx id)]
  releaseRxLoop (fun i => (rx.rxdesc.desc i).bufferAddr) rx.rxdesc.count
    (rx.ehw.regIdx (.rxdescProdIdx id)) (2 ^ 16) (rx.ehw.regIdx (.rxdescConsIdx id)) rx

end NssDp.Edma
