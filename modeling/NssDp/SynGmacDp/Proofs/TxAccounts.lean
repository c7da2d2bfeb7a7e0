import Mathlib.Data.BitVec
import NssDp.Misc.Fifo
import NssDp.Misc.Handover
import NssDp.Misc.Simulation
import NssDp.SynGmacDp.Proofs.TxLength
import NssDp.SynGmacDp.Proofs.XmitContract

/-!
# The accounts of a transmit port

Whole calls of `syn_dp_if_xmit` and `syn_dp_process_tx_complete` and steps of the engine, in any
order. The busy window is in two parts, the descriptors the engine has given back and those it
owns, and a completion empties the first. So each report of the engine counts for the frame it is
about, and every frame that was handed to the port is in one counter or in the ring.
-/

namespace NssDp.SynGmacDp

open Lts Cyclic Word Handover

/-- A frame as its descriptor gives it to the engine; the first length field takes 8191 bytes. -/
structure TxFrame where
  skb : SkBuff
  addr : BitVec 32
  len : Nat
  deriving DecidableEq

/-- A frame that the engine gives back, with the status word. -/
structure TxReport where
  frame : TxFrame
  status : BitVec 32
  deriving DecidableEq

/-- The calls that a completion makes for a frame. -/
def TxReport.calls (report : TxReport) : List KernelEvent :=
  [.dmaUnmapSingle .pdev report.frame.addr report.frame.len .toDevice,
    .devKfreeSkb report.frame.skb]

/-- What is counted: a frame that is dropped, or one that is reported. -/
inductive TxAccount where
  | dropped
  | completed (report : TxReport)

/-- The counters after it. -/
def TxStats.account (stats : TxStats) : TxAccount → TxStats
  | .dropped => { stats with txDropped := stats.txDropped + 1 }
  | .completed report => stats.txComplete report.status report.frame.len

namespace SynDpTxInfo

/-- The engine owns the descriptor. -/
def ownedByDma (info : SynDpTxInfo) (i : Nat) : Bool := (info.txDesc i).isDescOwnedByDma

/-- The frame in a slot, with what its descriptor says. -/
def reportAt (info : SynDpTxInfo) (i : Nat) : Option TxReport :=
  (info.txSkbList i).map fun skb =>
    ⟨⟨skb, (info.txDesc i).buffer1, (info.txDesc i).size1⟩, (info.txDesc i).status⟩

/-- The same with the report that the engine is to write. -/
def reportedAt (info : SynDpTxInfo) (wb : BitVec 32) (i : Nat) : Option TxReport :=
  (info.reportAt i).map fun report =>
    { report with status := ((info.txDesc i).writeBack wb).status }

/-- The frames the engine is to send. -/
def sending (info : SynDpTxInfo) : List TxFrame :=
  (kept info.ownedByDma info.reportAt info.busyWindow).map TxReport.frame

/-- The frames it has given back. -/
def reported (info : SynDpTxInfo) : List TxReport :=
  given info.ownedByDma info.reportAt info.busyWindow

/-! What the steps show -/

/-- The frame that a transmit call queues. -/
def queues (info : SynDpTxInfo) : XmitLabel → List TxFrame
  | .xmit skb dma =>
    match synDpIfXmit info skb dma with
    | .ok ⟨.ok, _, _⟩ => dma.toList.map fun dmaAddr => ⟨skb, dmaAddr, min skb.len 0x1FFF⟩
    | _ => []
  | _ => []

/-- The frame that the engine gives back with a report. -/
def reports (info : SynDpTxInfo) : XmitLabel → List TxReport
  | .dma wb => ((info.busyWindow.find? info.ownedByDma).bind (info.reportedAt wb)).toList
  | _ => []

/-- The frames that a completion takes. -/
def reaps (info : SynDpTxInfo) : XmitLabel → List TxReport
  | .complete => info.reported
  | _ => []

/-- The calls it makes. -/
def completionEvents (info : SynDpTxInfo) : XmitLabel → List KernelEvent
  | .complete =>
    match synDpProcessTxComplete info with
    | .ok (_, events) => events
    | .error _ => []
  | _ => []

/-- What a step counts. -/
def accounts (info : SynDpTxInfo) : XmitLabel → List TxAccount
  | .xmit skb dma =>
    match synDpIfXmit info skb dma with
    | .ok ⟨.busy, _, _⟩ => [.dropped]
    | _ => []
  | .complete => info.reported.map .completed
  | .dma _ => []

end SynDpTxInfo

/-- A call that returns, or a step of the engine. -/
def txPortStep (info : SynDpTxInfo) : XmitLabel → Option SynDpTxInfo
  | .xmit skb dma =>
    match synDpIfXmit info skb dma with
    | .ok r => some r.info
    | .error _ => none
  | .complete =>
    match synDpProcessTxComplete info with
    | .ok (info, _) => some info
    | .error _ => none
  | .dma wb => dmaRelease info wb

/-- What every step keeps. -/
structure TxPortInv (info : SynDpTxInfo) : Prop where
  ring : TxRingInv info
  parted : Parted info.ownedByDma info.busyWindow

theorem setTxDesc_owned (txdesc : DmaDesc) (dmaAddr length1 : BitVec 32) (offload : Bool)
    (txCntl : BitVec 32) :
    (setTxDesc txdesc dmaAddr length1 offload txCntl descOwnByDma).isDescOwnedByDma = true := by
  rw [DmaDesc.isDescOwnedByDma, beq_iff_eq]
  exact masked_or_of_covered (by decide)

/-- The first length field takes what it can. -/
theorem DmaDesc.WrittenFor.size1_eq {desc : DmaDesc} {n : Nat} (h : desc.WrittenFor n)
    (hlt : n < 2 ^ 32) : desc.size1 = min n 0x1FFF := by
  rcases Nat.lt_or_ge 0x1FFF n with hn | hn
  · rw [h.large hn hlt, Nat.min_eq_right hn.le]
  · rw [(h.small hn).1, Nat.min_eq_left hn]

/-- The counters are no part of the ring. -/
theorem TxRingInv.stats {info : SynDpTxInfo} (h : TxRingInv info) (stats : TxStats) :
    TxRingInv { info with stats } :=
  ⟨h.count, h.busy_le, h.base_lt, h.next, h.nextDesc, h.busyDesc, h.held, h.free, h.eor⟩

namespace TxPortInv

variable {info : SynDpTxInfo}

/-- A frame that is queued is the engine's, behind all others. -/
theorem push (h : TxPortInv info) (hroom : info.busyTxDesc < synDpTxDescSize) (skb : SkBuff)
    (dmaAddr : BitVec 32) :
    TxPortInv (pushTx info skb dmaAddr) ∧
      (pushTx info skb dmaAddr).sending =
        info.sending ++ [⟨skb, dmaAddr, min skb.len 0x1FFF⟩] ∧
      (pushTx info skb dmaAddr).reported = info.reported := by
  have hne : ∀ j ∈ info.busyWindow, j ≠ info.txNext := fun j hj =>
    ne_of_mem_of_not_mem hj (h.ring.next_notMem hroom)
  have hdesc : ∀ j ∈ info.busyWindow, (pushTx info skb dmaAddr).txDesc j = info.txDesc j :=
    fun j hj => Function.update_of_ne (hne j hj) _ _
  have hskb : ∀ j ∈ info.busyWindow, (pushTx info skb dmaAddr).txSkbList j = info.txSkbList j :=
    fun j hj => Function.update_of_ne (hne j hj) _ _
  have hnew : (pushTx info skb dmaAddr).txDesc info.txNext =
      setTxDesc (info.txDesc info.txNext) dmaAddr (BitVec.ofNat 32 skb.len) skb.csumPartial
        (descTxLast ||| descTxFirst ||| descTxIntEnable) descOwnByDma := Function.update_self _ _ _
  obtain ⟨hparted, hkept, hgiven⟩ := h.parted.push (i := info.txNext)
    (pushTx info skb dmaAddr).ownedByDma info.reportAt (pushTx info skb dmaAddr).reportAt
    (fun j hj => by rw [SynDpTxInfo.ownedByDma, hdesc j hj]; rfl)
    (fun j hj => by rw [SynDpTxInfo.reportAt, hdesc j hj, hskb j hj]; rfl)
    (by rw [SynDpTxInfo.ownedByDma, hnew]; exact setTxDesc_owned _ _ _ _ _)
  rw [← h.ring.busyWindow_push skb dmaAddr] at hparted hkept hgiven
  refine ⟨⟨h.ring.push hroom skb dmaAddr, hparted⟩, ?_, hgiven⟩
  have hlength := (h.ring.free _ h.ring.next_lt (h.ring.next_notMem hroom)).1
  have hwritten := setTxDesc_writtenFor (info.txDesc info.txNext) dmaAddr skb.len skb.csumPartial
    (descTxLast ||| descTxFirst ||| descTxIntEnable) descOwnByDma hlength
  have hsize := hwritten.size1_eq (u32_lt _)
  have hbuffer : (setTxDesc (info.txDesc info.txNext) dmaAddr (BitVec.ofNat 32 skb.len)
      skb.csumPartial (descTxLast ||| descTxFirst ||| descTxIntEnable) descOwnByDma).buffer1 =
        dmaAddr := by
    cases skb.csumPartial <;> rfl
  rw [SynDpTxInfo.sending, hkept, List.map_append, SynDpTxInfo.reportAt, hnew, hsize, hbuffer,
    show (pushTx info skb dmaAddr).txSkbList info.txNext = some skb from Function.update_self _ _ _]
  rfl

/-- The engine reports on the first frame it is to send. -/
theorem release (h : TxPortInv info) {wb : BitVec 32} {info' : SynDpTxInfo}
    (hrel : dmaRelease info wb = some info') :
    TxPortInv info' ∧
      info.sending = (info.reports (.dma wb)).map TxReport.frame ++ info'.sending ∧
      info'.reported = info.reported ++ info.reports (.dma wb) := by
  have hring := h.ring.release hrel
  rw [dmaRelease, Option.map_eq_some_iff] at hrel
  obtain ⟨i, hfind, rfl⟩ := hrel
  obtain ⟨info', hinfo'⟩ : ∃ info', info' = { info with
    txDesc := Function.update info.txDesc i ((info.txDesc i).writeBack wb) } := ⟨_, rfl⟩
  rw [← hinfo'] at hring ⊢
  have hdesc : ∀ j, j ≠ i → info'.txDesc j = info.txDesc j := by
    intro j hj
    rw [hinfo']
    exact Function.update_of_ne hj _ _
  have hnew : info'.txDesc i = (info.txDesc i).writeBack wb := by
    rw [hinfo']
    exact Function.update_self _ _ _
  have hskb : info'.txSkbList = info.txSkbList := by rw [hinfo']
  have hwindow : info'.busyWindow = info.busyWindow := by
    rw [hinfo']
    rfl
  have hback : ((info.txDesc i).writeBack wb).isDescOwnedByDma = false := by
    rw [DmaDesc.isDescOwnedByDma, beq_eq_false_iff_ne, DmaDesc.writeBack,
      masked_or_of_disjoint, BitVec.and_assoc, show txCtrlBits &&& descOwnByDma = 0#32 by decide,
      BitVec.and_zero]
    · decide
    · rw [BitVec.and_assoc,
        show ~~~(txCtrlBits ||| descOwnByDma) &&& descOwnByDma = 0#32 by decide, BitVec.and_zero]
  obtain ⟨hparted, hkept, hgiven⟩ := h.parted.release info'.ownedByDma info.reportAt
    info'.reportAt h.ring.nodup_busyWindow hfind
    (fun j hj => by rw [SynDpTxInfo.ownedByDma, hdesc j hj]; rfl)
    (fun j hj => by rw [SynDpTxInfo.reportAt, hdesc j hj, hskb]; rfl)
    (by rw [SynDpTxInfo.ownedByDma, hnew]; exact hback)
  have hreports : info.reports (.dma wb) = (info'.reportAt i).toList := by
    have hfind' : info.busyWindow.find? info.ownedByDma = some i := hfind
    rw [SynDpTxInfo.reports, hfind', Option.bind_some, SynDpTxInfo.reportedAt,
      SynDpTxInfo.reportAt, SynDpTxInfo.reportAt, hnew, hskb, Option.map_map]
    rfl
  have hframe : (info'.reportAt i).toList.map TxReport.frame =
      (info.reportAt i).toList.map TxReport.frame := by
    rw [SynDpTxInfo.reportAt, SynDpTxInfo.reportAt, hnew, hskb]
    cases info.txSkbList i <;> rfl
  rw [← hwindow] at hparted
  refine ⟨⟨hring, hparted⟩, ?_, ?_⟩
  · rw [SynDpTxInfo.sending, hkept, List.map_append, hreports, hframe, SynDpTxInfo.sending, hwindow]
  · rw [hreports, SynDpTxInfo.reported, hwindow]
    exact hgiven

/-- The first descriptor that is given back is given up. -/
theorem pop (h : TxPortInv info) (hbusy : 0 < info.busyTxDesc)
    (howned : (info.txDesc info.txBusy).isDescOwnedByDma = false) {skb : SkBuff}
    (hskb : info.txSkbList info.txBusy = some skb) (stats : TxStats) :
    TxPortInv (popTx info stats) ∧
      info.reported = ⟨⟨skb, (info.txDesc info.txBusy).buffer1,
        (info.txDesc info.txBusy).size1⟩, (info.txDesc info.txBusy).status⟩ ::
          (popTx info stats).reported ∧
      (popTx info stats).sending = info.sending := by
  have hwindow := h.ring.busyWindow_pop hbusy stats
  have hparted := h.parted
  rw [hwindow] at hparted
  obtain ⟨hparted', hgiven, hkept⟩ := hparted.pop (popTx info stats).ownedByDma info.reportAt
    (popTx info stats).reportAt howned
    (fun j hj => by
      rw [SynDpTxInfo.ownedByDma, (h.ring.pop_other hbusy stats hj).2.1]
      rfl)
    (fun j hj => by
      obtain ⟨-, hdesc, hlist⟩ := h.ring.pop_other hbusy stats hj
      rw [SynDpTxInfo.reportAt, hdesc, hlist]
      rfl)
  refine ⟨⟨h.ring.pop hbusy stats, hparted'⟩, ?_, ?_⟩
  · rw [SynDpTxInfo.reported, hwindow, hgiven, SynDpTxInfo.reportAt, hskb]
    rfl
  · rw [SynDpTxInfo.sending, SynDpTxInfo.sending, hwindow, hkept]

end TxPortInv

/-- A turn of the completion loop counts the report of the oldest busy descriptor. -/
theorem TxRingInv.completeOne_counts {info : SynDpTxInfo} (h : TxRingInv info)
    (hbusy : 0 < info.busyTxDesc) {skb : SkBuff} (hskb : info.txSkbList info.txBusy = some skb) :
    txCompleteOne info = .ok (popTx info (info.stats.txComplete (info.txDesc info.txBusy).status
      (info.txDesc info.txBusy).size1), completionCalls info skb) := by
  have hlast := (h.held _ (h.base_mem hbusy)).2
  have hdone : ¬ (info.txDesc info.txBusy).status &&& descTxLast = 0#32 := by
    rw [hlast]
    decide
  have hdesc : info.txDesc info.txBusyDesc = info.txDesc info.txBusy := by rw [h.busyDesc]
  simp only [txCompleteOne, hdesc, hskb, ne_eq, hdone, not_false_eq_true, if_true,
    h.reset_eq hbusy, completionCalls]

/-- What a completion does: it takes all that has been given back. -/
structure TxCompleted (info info' : SynDpTxInfo) (events : List KernelEvent) : Prop where
  inv : TxPortInv info'
  events : events = info.reported.flatMap TxReport.calls
  reported : info'.reported = []
  sending : info'.sending = info.sending
  stats : info'.stats = (info.reported.map .completed).foldl TxStats.account info.stats
  busy : info'.busyTxDesc + info.reported.length = info.busyTxDesc

namespace TxPortInv

variable {info : SynDpTxInfo}

/-- A completion that finds nothing to take. -/
theorem completed_none (h : TxPortInv info) (hnone : info.reported = []) :
    TxCompleted info info [] := by
  refine ⟨h, ?_, hnone, rfl, ?_, ?_⟩
  · rw [hnone]
    rfl
  · rw [hnone]
    rfl
  · rw [hnone]
    rfl

/-- The loop has a turn for each busy descriptor; the induction is on these. -/
theorem completeLoop (turns : Nat) : ∀ info : SynDpTxInfo, TxPortInv info →
    info.busyTxDesc = turns → ∃ info' events,
      txCompleteLoop turns info = .ok (info', events) ∧ TxCompleted info info' events := by
  induction turns with
  | zero =>
    intro info h hturns
    have hwindow : info.busyWindow = [] := by rw [h.ring.busyWindow_eq, hturns, window_zero]
    refine ⟨info, [], rfl, h.completed_none ?_⟩
    rw [SynDpTxInfo.reported, hwindow, given_nil]
  | succ turns ih =>
    intro info h hturns
    have hbusy : 0 < info.busyTxDesc := by omega
    rw [txCompleteLoop, h.ring.busyDesc]
    split
    · rename_i howned
      refine ⟨info, [], rfl, h.completed_none ?_⟩
      rw [SynDpTxInfo.reported, h.ring.busyWindow_pop hbusy info.stats]
      exact given_of_owned info.ownedByDma howned _
    · rename_i howned
      rw [Bool.not_eq_true] at howned
      obtain ⟨skb, hskb⟩ := Option.isSome_iff_exists.mp (h.ring.held _ (h.ring.base_mem hbusy)).1
      obtain ⟨hinv, hreported, hsending⟩ := h.pop hbusy howned hskb
        (info.stats.txComplete (info.txDesc info.txBusy).status (info.txDesc info.txBusy).size1)
      have hless : (popTx info (info.stats.txComplete (info.txDesc info.txBusy).status
          (info.txDesc info.txBusy).size1)).busyTxDesc = turns := by
        rw [popTx, hturns, Nat.add_sub_cancel]
      obtain ⟨info', events, hloop, hdone⟩ := ih _ hinv hless
      refine ⟨info', completionCalls info skb ++ events, ?_, hdone.inv, ?_, hdone.reported,
        hdone.sending.trans hsending, ?_, ?_⟩
      · rw [h.ring.completeOne_counts hbusy hskb]
        simp only [hloop]
      · rw [hreported, List.flatMap_cons, hdone.events]
        rfl
      · rw [hreported, List.map_cons, List.foldl_cons, hdone.stats]
        rfl
      · rw [hreported, List.length_cons, hturns, ← hless, ← hdone.busy]
        exact Nat.add_assoc _ _ 1

/-- `syn_dp_process_tx_complete` reaches no assertion. -/
theorem processTxComplete (h : TxPortInv info) : ∃ info' events,
    synDpProcessTxComplete info = .ok (info', events) ∧ TxCompleted info info' events := by
  rw [synDpProcessTxComplete]
  split
  · rename_i hbusy
    have hwindow : info.busyWindow = [] := by rw [h.ring.busyWindow_eq, hbusy, window_zero]
    refine ⟨info, [], rfl, h.completed_none ?_⟩
    rw [SynDpTxInfo.reported, hwindow, given_nil]
  · have hsmall : info.busyTxDesc < 2 ^ 31 := Nat.lt_of_le_of_lt h.ring.busy_le (by decide)
    rw [if_pos hsmall]
    exact completeLoop _ info h rfl

end TxPortInv

/-- The label of a transmit call. -/
def XmitLabel.isXmit : XmitLabel → Bool
  | .xmit _ _ => true
  | _ => false

/-- The frames that the counters have. -/
def TxStats.counted (stats : TxStats) : BitVec 64 :=
  stats.txDropped + stats.txPackets + stats.txErrors

/-- Every account is in one counter. -/
theorem TxStats.counted_account (stats : TxStats) (a : TxAccount) :
    (stats.account a).counted = stats.counted + 1 := by
  cases a with
  | dropped =>
    simp only [account, counted]
    ac_rfl
  | completed report =>
    simp only [account, txComplete, counted]
    split
    · dsimp only
      ac_rfl
    · dsimp only
      ac_rfl

theorem TxStats.counted_foldl (accounts : List TxAccount) (stats : TxStats) :
    (accounts.foldl TxStats.account stats).counted =
      stats.counted + BitVec.ofNat 64 accounts.length := by
  induction accounts generalizing stats with
  | nil => exact (BitVec.add_zero _).symm
  | cons a accounts ih =>
    rw [List.foldl_cons, ih, counted_account, List.length_cons, BitVec.ofNat_add]
    ac_rfl

/-- What a step does to the two parts of the window and to the counters, with what it shows. -/
structure TxPortMoves (s t : SynDpTxInfo) (a : XmitLabel) : Prop where
  next : TxPortInv t
  sending : s.sending ++ s.queues a = (s.reports a).map TxReport.frame ++ t.sending
  reported : s.reported ++ s.reports a = s.reaps a ++ t.reported
  events : s.completionEvents a = (s.reaps a).flatMap TxReport.calls
  stats : t.stats = (s.accounts a).foldl TxStats.account s.stats
  busy : t.busyTxDesc + (s.accounts a).length = s.busyTxDesc + if a.isXmit then 1 else 0

namespace TxPortInv

variable {s t : SynDpTxInfo}

theorem moves (h : TxPortInv s) {a : XmitLabel} (hstep : txPortStep s a = some t) :
    TxPortMoves s t a := by
  cases a with
  | xmit skb dma =>
    simp only [txPortStep] at hstep
    by_cases hok : skb.nrFrags = 0 ∧ s.busyTxDesc < synDpTxDescSize ∧ dma.isSome = true
    · obtain ⟨hfrags, hroom, hdma⟩ := hok
      obtain ⟨dmaAddr, rfl⟩ := Option.isSome_iff_exists.mp hdma
      have hcall := h.ring.ifXmit_eq_push hfrags hroom dmaAddr
      rw [hcall] at hstep
      cases hstep
      obtain ⟨hinv, hsending, hreported⟩ := h.push hroom skb dmaAddr
      refine ⟨hinv, ?_, ?_, rfl, ?_, ?_⟩
      · rw [SynDpTxInfo.queues, hcall, hsending]
        rfl
      · rw [hreported]
        exact List.append_nil _
      · rw [SynDpTxInfo.accounts, hcall]
        rfl
      · rw [SynDpTxInfo.accounts, hcall]
        rfl
    · have hcall := h.ring.ifXmit_eq_drop hok
      rw [hcall] at hstep
      cases hstep
      refine ⟨⟨h.ring.stats _, h.parted⟩, ?_, ?_, rfl, ?_, ?_⟩
      · rw [SynDpTxInfo.queues, hcall]
        exact List.append_nil _
      · exact List.append_nil _
      · rw [SynDpTxInfo.accounts, hcall]
        rfl
      · rw [SynDpTxInfo.accounts, hcall]
        rfl
  | complete =>
    obtain ⟨info', events, hcall, hdone⟩ := h.processTxComplete
    simp only [txPortStep, hcall, Option.some.injEq] at hstep
    rw [← hstep]
    refine ⟨hdone.inv, ?_, ?_, ?_, hdone.stats, ?_⟩
    · rw [hdone.sending]
      exact List.append_nil _
    · rw [hdone.reported]
      rfl
    · rw [SynDpTxInfo.completionEvents, hcall]
      exact hdone.events
    · rw [SynDpTxInfo.accounts, List.length_map]
      exact hdone.busy
  | dma wb =>
    have hrel : dmaRelease s wb = some t := hstep
    obtain ⟨hinv, hsending, hreported⟩ := h.release hrel
    obtain ⟨i, -, rfl⟩ := dmaRelease_eq hrel
    refine ⟨hinv, ?_, hreported.symm, rfl, rfl, rfl⟩
    rw [hsending]
    exact List.append_nil _

/-- No call reaches an assertion. -/
theorem returns (h : TxPortInv s) {a : XmitLabel} (ha : ∀ wb, a ≠ .dma wb) :
    ∃ t, txPortStep s a = some t := by
  cases a with
  | xmit skb dma =>
    by_cases hok : skb.nrFrags = 0 ∧ s.busyTxDesc < synDpTxDescSize ∧ dma.isSome = true
    · obtain ⟨hfrags, hroom, hdma⟩ := hok
      obtain ⟨dmaAddr, rfl⟩ := Option.isSome_iff_exists.mp hdma
      exact ⟨_, by rw [txPortStep, h.ring.ifXmit_eq_push hfrags hroom dmaAddr]⟩
    · exact ⟨_, by rw [txPortStep, h.ring.ifXmit_eq_drop hok]⟩
  | complete =>
    obtain ⟨info', events, hcall, -⟩ := h.processTxComplete
    exact ⟨info', by rw [txPortStep, hcall]⟩
  | dma wb => exact absurd rfl (ha wb)

theorem setup {info : SynDpTxInfo} {allocOk : Bool}
    (hsetup : synDpSetupTxDescQueue SynDpTxInfo.zero synDpTxDescSize .ringMode allocOk =
      .ok (0, info)) : TxPortInv info ∧ info.busyWindow = [] := by
  have hwindow : info.busyWindow = [] := by
    rw [synDpSetupTxDescQueue_ok hsetup]
    rfl
  exact ⟨⟨TxRingInv.setup hsetup, hwindow ▸ Parted.nil⟩, hwindow⟩

end TxPortInv

/-- The engine sends the frames in the order in which they are queued. -/
theorem sending_fifo : Fifo txPortStep TxPortInv (fun _ _ => True) SynDpTxInfo.sending
    SynDpTxInfo.queues (fun s a => (s.reports a).map TxReport.frame) :=
  ⟨fun _ _ _ h _ hstep => (h.moves hstep).next, fun _ _ _ h _ hstep => (h.moves hstep).sending⟩

/-- The driver takes them in the order in which they are reported. -/
theorem reported_fifo : Fifo txPortStep TxPortInv (fun _ _ => True) SynDpTxInfo.reported
    SynDpTxInfo.reports SynDpTxInfo.reaps :=
  ⟨fun _ _ _ h _ hstep => (h.moves hstep).next, fun _ _ _ h _ hstep => (h.moves hstep).reported⟩

/-- The frames that are in a counter or in the ring. -/
def SynDpTxInfo.balance (info : SynDpTxInfo) : BitVec 64 :=
  info.stats.counted + BitVec.ofNat 64 info.busyTxDesc

/-- A transmit call adds one frame to them, and no other step does. -/
theorem TxPortMoves.balance {s t : SynDpTxInfo} {a : XmitLabel} (h : TxPortMoves s t a) :
    t.balance = s.balance + Nat.castAddMonoidHom (BitVec 64) (if a.isXmit then 1 else 0) := by
  have hbusy := congrArg (BitVec.ofNat 64) h.busy
  rw [BitVec.ofNat_add, BitVec.ofNat_add] at hbusy
  rw [SynDpTxInfo.balance, SynDpTxInfo.balance, h.stats, TxStats.counted_foldl, BitVec.add_assoc,
    BitVec.add_comm (BitVec.ofNat 64 (s.accounts a).length), hbusy, ← BitVec.add_assoc]
  rfl

/-- Every transmit call has handed over a frame that is in one counter or in the ring. -/
theorem txPort_counts {info : SynDpTxInfo} {allocOk : Bool}
    (hsetup : synDpSetupTxDescQueue SynDpTxInfo.zero synDpTxDescSize .ringMode allocOk =
      .ok (0, info)) {as : List XmitLabel} {u : SynDpTxInfo}
    (hrun : run txPortStep info as = some u) :
    BitVec.ofNat 64 (as.countP XmitLabel.isXmit) =
      u.stats.txDropped + u.stats.txPackets + u.stats.txErrors +
        BitVec.ofNat 64 u.busyTxDesc := by
  have hkept : ∀ s a t, TxPortInv s → txPortStep s a = some t → TxPortInv t :=
    fun _ _ _ h hstep => (h.moves hstep).next
  have hbalance := run_countP (Nat.castAddMonoidHom (BitVec 64)) hkept
    (fun _ _ _ h hstep => (h.moves hstep).balance) (TxPortInv.setup hsetup).1 hrun
  have hnone : info.balance = 0#64 := by
    rw [synDpSetupTxDescQueue_ok hsetup]
    rfl
  rw [hnone, BitVec.zero_add] at hbalance
  exact hbalance.symm

/-- In every run from a set up ring: the engine sends the frames in the order in which calls queue
    them; completions take, unmap and free them in the order in which they are reported; the
    counters are what the drops and these reports make of them, one after another; every call has
    handed over a frame that is in one counter or in the ring; and every call returns. -/
theorem txPort_accounts {info : SynDpTxInfo} {allocOk : Bool}
    (hsetup : synDpSetupTxDescQueue SynDpTxInfo.zero synDpTxDescSize .ringMode allocOk =
      .ok (0, info)) {as : List XmitLabel} {u : SynDpTxInfo}
    (hrun : run txPortStep info as = some u) :
    trace txPortStep SynDpTxInfo.queues info as =
        (trace txPortStep SynDpTxInfo.reports info as).map TxReport.frame ++ u.sending ∧
      trace txPortStep SynDpTxInfo.reports info as =
        trace txPortStep SynDpTxInfo.reaps info as ++ u.reported ∧
      trace txPortStep SynDpTxInfo.completionEvents info as =
        (trace txPortStep SynDpTxInfo.reaps info as).flatMap TxReport.calls ∧
      u.stats = (trace txPortStep SynDpTxInfo.accounts info as).foldl TxStats.account
        TxStats.zero ∧
      BitVec.ofNat 64 (as.countP XmitLabel.isXmit) =
        u.stats.txDropped + u.stats.txPackets + u.stats.txErrors +
          BitVec.ofNat 64 u.busyTxDesc ∧
      ∀ a, (∀ wb, a ≠ .dma wb) → ∃ t, txPortStep u a = some t := by
  obtain ⟨hstart, hwindow⟩ := TxPortInv.setup hsetup
  have hzero : info.stats = TxStats.zero := by rw [synDpSetupTxDescQueue_ok hsetup]; rfl
  have hkept : ∀ s a t, TxPortInv s → txPortStep s a = some t → TxPortInv t :=
    fun _ _ _ h hstep => (h.moves hstep).next
  have hany : StepsMeet txPortStep (fun _ _ => True) info as :=
    StepsMeet.of_forall fun _ _ => trivial
  refine ⟨?_, ?_, ?_, ?_, txPort_counts hsetup hrun, ?_⟩
  · have hring := sending_fifo.run hstart hany hrun
    rwa [SynDpTxInfo.sending, hwindow, kept_nil, List.map_nil, List.nil_append, trace_map] at hring
  · have hring := reported_fifo.run hstart hany hrun
    rwa [SynDpTxInfo.reported, hwindow, given_nil, List.nil_append] at hring
  · rw [← trace_hom (f := fun l => l.flatMap TxReport.calls) rfl
      (fun _ _ => List.flatMap_append)]
    exact trace_congr (fun s a t h _ => hkept s a t h)
      (fun _ _ _ h _ hstep => (h.moves hstep).events) hstart hany hrun
  · rw [← hzero]
    have hstats : ∀ s a t, TxPortInv s → True → txPortStep s a = some t →
        t.stats = (s.accounts a).foldl TxStats.account s.stats :=
      fun _ _ _ h _ hstep => (h.moves hstep).stats
    exact run_foldl (fun s a t h _ => hkept s a t h) hstats hstart hany hrun
  · exact fun a ha => (run_inv hkept hstart hrun).returns ha

/-- The second of three frames has a fragment and is dropped; the first is sent and the third
    reported with a late collision. -/
def sentDroppedFailed : List XmitLabel :=
  [.xmit (byteFrame 0) (some 0#32), .xmit fragFrame none, .xmit (byteFrame 2) (some 1#32),
    .dma 0#32, .dma (descTxError ||| descTxLateCollision), .complete]

theorem txPort_accounts_three : ∃ u, run txPortStep emptyRing sentDroppedFailed = some u ∧
    u.stats.txDropped = 1#64 ∧ u.stats.txPackets = 1#64 ∧ u.stats.txErrors = 1#64 ∧
    BitVec.ofNat 64 (sentDroppedFailed.countP XmitLabel.isXmit) =
      u.stats.txDropped + u.stats.txPackets + u.stats.txErrors + BitVec.ofNat 64 u.busyTxDesc := by
  have hstats : (run txPortStep emptyRing sentDroppedFailed).map
      (fun u => (u.stats.txDropped, u.stats.txPackets, u.stats.txErrors)) =
        some (1#64, 1#64, 1#64) := by decide +kernel
  obtain ⟨u, hrun, hu⟩ := Option.map_eq_some_iff.mp hstats
  simp only [Prod.mk.injEq] at hu
  exact ⟨u, hrun, hu.1, hu.2.1, hu.2.2,
    (txPort_accounts emptyRing_setup hrun).2.2.2.2.1⟩

end NssDp.SynGmacDp
