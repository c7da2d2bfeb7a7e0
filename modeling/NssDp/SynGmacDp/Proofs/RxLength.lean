import Mathlib.Algebra.Order.BigOperators.Group.List
import Mathlib.Algebra.Ring.Int.Defs
import NssDp.SynGmacDp.Proofs.RxWork

/-!
# The length a receive turn puts into its buffer

The length field of a report has 14 bits and counts the checksum, and whether the report is
taken for a good frame is read from other bits. So `skb_put` and `rx_bytes` get the length of
the frame where the field lies between the checksum's length and that of a buffer with its
checksum, and only there: below, the length is negative, above, it is more than was mapped.
-/

namespace NssDp.SynGmacDp

open Lts Cyclic Word

/-- What `skb_put`, which takes an `unsigned int`, is told to put. -/
def putLength (status : BitVec 32) : BitVec 32 := BitVec.ofInt 32 (frameLength status)

/-- The length field is that of a frame with a checksum that fits a buffer. -/
def LengthFits (status : BitVec 32) : Prop :=
  ethFcsLen ≤ (getRxDescFrameLength status).toNat ∧
    (getRxDescFrameLength status).toNat ≤ synDpMiniJumboFrameMtu + ethFcsLen

instance (status : BitVec 32) : Decidable (LengthFits status) := inferInstanceAs (Decidable (_ ∧ _))

/-- The status word of the oldest busy descriptor. -/
def RxPort.front (s : RxPort) : BitVec 32 := (s.info.rxDesc s.info.rxBusyDesc).status

/-- A turn puts no more than was mapped, and counts what it puts. -/
structure TurnInside (s : RxPort) : Prop where
  le : (putLength s.front).toNat ≤ synDpMiniJumboFrameMtu
  grows : (RxRun.ofCall (rxOne s)).port.info.stats.rxBytes =
    s.info.stats.rxBytes + (putLength s.front).setWidth 64

/-- The lengths of the frames in a sequence of calls that were given to the stack. -/
def receivedLengths (events : List RxEvent) : List Int :=
  events.filterMap fun
    | .napiGroReceive _ len => some len
    | _ => none

/-- The lengths put so far: those of the frames given to the stack, and where `skb_put` has
    stopped the kernel that of the frame it stopped at. -/
def RxRun.putLengths (s : RxRun) : List Int :=
  receivedLengths s.port.events ++
    if s.bug = some .skbOverPanic then [frameLength s.port.front] else []

/-- `lengths` lie in what was mapped, and `rx_bytes` is their sum. -/
structure Counted (lengths : List Int) (stats : RxStats) : Prop where
  inside : ∀ len ∈ lengths, 0 ≤ len ∧ len ≤ synDpMiniJumboFrameMtu
  bytes : stats.rxBytes = BitVec.ofInt 64 lengths.sum

/-- Every length put so far lies in what was mapped, and `rx_bytes` is their sum. -/
def LengthsInside (s : RxRun) : Prop := Counted s.putLengths s.port.info.stats

/-- The step does not make `rx_bytes` less, short of its overflow. -/
def NeverDecreases (s : RxRun) (a : RxLabel) : Prop :=
  ∀ t, rxStep s a = some t → t.putLengths.sum < 2 ^ 64 →
    s.port.info.stats.rxBytes.toNat ≤ t.port.info.stats.rxBytes.toNat

/-- A report of the engine that is taken for a good frame has a length that fits. -/
def ReportFits : RxLabel → Prop
  | .dma wb => isRxDescValid wb.status = true → LengthFits wb.status
  | _ => True

/-! The length field -/

theorem getRxDescFrameLength_lt (status : BitVec 32) :
    (getRxDescFrameLength status).toNat < 2 ^ 14 := by
  have hle : (status &&& descRxFrameLengthMask).toNat ≤ 0x3FFF0000 := by
    rw [BitVec.toNat_and]
    exact Nat.and_le_right
  rw [getRxDescFrameLength, BitVec.toNat_ushiftRight, descRxFrameLengthShift,
    Nat.shiftRight_eq_div_pow]
  omega

theorem lengthFits_iff (status : BitVec 32) :
    LengthFits status ↔ 0 ≤ frameLength status ∧ frameLength status ≤ synDpMiniJumboFrameMtu := by
  unfold LengthFits frameLength
  omega

/-- A negative length is a large one for `skb_put`. -/
theorem putLength_le_iff (status : BitVec 32) :
    (putLength status).toNat ≤ synDpMiniJumboFrameMtu ↔ LengthFits status := by
  have hfield := getRxDescFrameLength_lt status
  rw [lengthFits_iff, putLength, BitVec.toNat_ofInt]
  unfold frameLength ethFcsLen synDpMiniJumboFrameMtu
  omega

theorem LengthFits.setWidth_putLength {status : BitVec 32} (h : LengthFits status) :
    (putLength status).setWidth 64 = BitVec.ofInt 64 (frameLength status) := by
  have hfield := getRxDescFrameLength_lt status
  obtain ⟨hnonneg, -⟩ := (lengthFits_iff status).mp h
  apply BitVec.eq_of_toNat_eq
  rw [BitVec.toNat_setWidth, putLength, BitVec.toNat_ofInt, BitVec.toNat_ofInt]
  unfold frameLength ethFcsLen at *
  omega

/-- A good frame is counted before `skb_put` sees it. -/
theorem rxHandOver_stats (s : RxPort) (skb : Option RxSkb) {status : BitVec 32}
    (hvalid : isRxDescValid status = true) :
    (RxRun.ofCall (rxHandOver s skb status)).port.info.stats =
      s.info.stats.rxGood (frameLength status) := by
  unfold rxHandOver
  rw [if_pos hvalid]
  cases skb with
  | none => rfl
  | some skb =>
    simp only
    split
    · rfl
    · rfl

theorem synDpResetRxQptr_stats {info info' : SynDpRxInfo}
    (h : synDpResetRxQptr info = .ok info') : info'.stats = info.stats := by
  unfold synDpResetRxQptr at h
  simp only at h
  split at h
  · cases h
  · cases h
    rfl

/-- The rest of the turn does not count. -/
theorem rxOne_stats {s : RxPort} (hvalid : isRxDescValid s.front = true) :
    (RxRun.ofCall (rxOne s)).port.info.stats = s.info.stats.rxGood (frameLength s.front) := by
  have hover := rxHandOver_stats (s.emit [.dmaUnmapSingle .netdev
    (s.info.rxDesc s.info.rxBusyDesc).buffer1 synDpMiniJumboFrameMtu .fromDevice])
    (s.info.rxSkbList s.info.rxBusy) hvalid
  rw [RxPort.front] at hover
  unfold rxOne
  simp only
  split
  · next halt heq =>
    rw [heq] at hover
    exact hover
  · next s' heq =>
    rw [heq] at hover
    split
    · exact hover
    · next info' hreset => exact (synDpResetRxQptr_stats hreset).trans hover

/-- A turn on a good frame stays inside the buffer exactly where the length field fits. -/
theorem turnInside_iff {s : RxPort} (hvalid : isRxDescValid s.front = true) :
    TurnInside s ↔ LengthFits s.front := by
  constructor
  · exact fun h => (putLength_le_iff _).mp h.le
  · intro h
    refine ⟨(putLength_le_iff _).mpr h, ?_⟩
    rw [h.setWidth_putLength, rxOne_stats hvalid, RxStats.rxGood]

/-! The sum of the lengths -/

namespace Counted

variable {lengths lengths' : List Int} {stats stats' : RxStats}

theorem nil : Counted [] RxStats.zero := by
  refine ⟨?_, rfl⟩
  intro len hlen
  cases hlen

/-- A good frame whose length fits. -/
theorem rxGood (h : Counted lengths stats) {status : BitVec 32} (hfits : LengthFits status) :
    Counted (lengths ++ [frameLength status]) (stats.rxGood (frameLength status)) := by
  constructor
  · intro len hlen
    rcases List.mem_append.mp hlen with hlen | hlen
    · exact h.inside len hlen
    · obtain rfl := List.mem_singleton.mp hlen
      exact (lengthFits_iff status).mp hfits
  · rw [List.sum_append, List.sum_singleton, BitVec.ofInt_add, ← h.bytes]
    rfl

theorem rxBad (h : Counted lengths stats) (status : BitVec 32) :
    Counted lengths (stats.rxBad status) := by
  have hsame : (stats.rxBad status).rxBytes = stats.rxBytes := by
    unfold RxStats.rxBad
    simp only
    split
    · rfl
    · rfl
  exact ⟨h.inside, hsame.trans h.bytes⟩

theorem sum_nonneg (h : Counted lengths stats) : 0 ≤ lengths.sum :=
  List.sum_nonneg fun len hlen => (h.inside len hlen).1

theorem toNat_rxBytes (h : Counted lengths stats) (hlt : lengths.sum < 2 ^ 64) :
    (stats.rxBytes.toNat : Int) = lengths.sum := by
  have hnonneg := h.sum_nonneg
  rw [h.bytes, BitVec.toNat_ofInt]
  omega

/-- More lengths, more bytes, until they overflow. -/
theorem mono (h : Counted lengths stats) (h' : Counted lengths' stats')
    (hbefore : lengths <+: lengths') (hlt : lengths'.sum < 2 ^ 64) :
    stats.rxBytes.toNat ≤ stats'.rxBytes.toNat := by
  obtain ⟨rest, rfl⟩ := hbefore
  have hrest : 0 ≤ rest.sum :=
    List.sum_nonneg fun len hlen => (h'.inside len (List.mem_append_right _ hlen)).1
  have hsum : (lengths ++ rest).sum = lengths.sum + rest.sum := List.sum_append
  have hbytes := h.toNat_rxBytes (by omega)
  have hbytes' := h'.toNat_rxBytes hlt
  omega

end Counted

/-! The reports in the ring -/

/-- Every report in the busy window that is taken for a good frame has a length that fits. -/
def WindowFits (info : SynDpRxInfo) : Prop :=
  ∀ i ∈ info.busyWindow, (info.rxDesc i).isDescOwnedByDma = false →
    isRxDescValid (info.rxDesc i).status = true → LengthFits (info.rxDesc i).status

theorem isRxDescValid_writeBackRx (desc : DmaDesc) (wb : RxReport) :
    isRxDescValid (desc.writeBackRx wb).status = isRxDescValid wb.status := by
  rw [isRxDescValid, isRxDescValid, DmaDesc.writeBackRx, masked_and (by decide)]

theorem getRxDescFrameLength_writeBackRx (desc : DmaDesc) (wb : RxReport) :
    getRxDescFrameLength (desc.writeBackRx wb).status = getRxDescFrameLength wb.status := by
  rw [getRxDescFrameLength, getRxDescFrameLength, DmaDesc.writeBackRx, masked_and (by decide)]

namespace WindowFits

variable {info : SynDpRxInfo}

/-- A buffer that is posted is the engine's. -/
theorem push (h : WindowFits info) (hring : RxRingInv info)
    (hroom : info.busyRxDesc < synDpRxDescSize) (skb : RxSkb) (dmaAddr : BitVec 32) :
    WindowFits (pushRx info skb dmaAddr) := by
  intro i hi howned
  rw [hring.busyWindow_push, List.mem_append, List.mem_singleton] at hi
  rcases hi with hi | rfl
  · have hdesc : (pushRx info skb dmaAddr).rxDesc i = info.rxDesc i :=
      Function.update_of_ne (ne_of_mem_of_not_mem hi (hring.next_notMem hroom)) _ _
    rw [hdesc] at howned ⊢
    exact h i hi howned
  · have hdesc : (pushRx info skb dmaAddr).rxDesc info.rxNext =
        postedDesc (info.rxDesc info.rxNext) dmaAddr := Function.update_self _ _ _
    have hown : (postedDesc (info.rxDesc info.rxNext) dmaAddr).isDescOwnedByDma = true := by
      simp only [postedDesc, setRxDesc, DmaDesc.isDescOwnedByDma]
      decide
    rw [hdesc, hown] at howned
    cases howned

theorem pop (h : WindowFits info) (hring : RxRingInv info) (hbusy : 0 < info.busyRxDesc)
    (stats : RxStats) : WindowFits (popRx { info with stats }) := by
  intro i hi
  rw [(hring.pop_other hbusy stats hi).1]
  apply h i
  rw [hring.busyWindow_pop hbusy]
  exact List.mem_cons_of_mem _ hi

theorem receive (h : WindowFits info) {wb : RxReport} {info' : SynDpRxInfo}
    (hwb : isRxDescValid wb.status = true → LengthFits wb.status)
    (hrel : dmaReceive info wb = some info') : WindowFits info' := by
  obtain ⟨j, -, rfl⟩ := dmaReceive_eq hrel
  intro i hi howned hvalid
  rcases eq_or_ne i j with rfl | hne
  · simp only [Function.update_self] at hvalid ⊢
    rw [isRxDescValid_writeBackRx] at hvalid
    rw [LengthFits, getRxDescFrameLength_writeBackRx]
    exact hwb hvalid
  · simp only [Function.update_of_ne hne] at howned hvalid ⊢
    exact h i hi howned hvalid

end WindowFits

/-! What a call keeps -/

@[simp] theorem receivedLengths_append (xs ys : List RxEvent) :
    receivedLengths (xs ++ ys) = receivedLengths xs ++ receivedLengths ys := List.filterMap_append

/-- The port between two turns of a call that began after the calls `before`. -/
structure PortLengths (before : List RxEvent) (s : RxPort) : Prop where
  fits : WindowFits s.info
  counted : Counted (receivedLengths s.events) s.info.stats
  grown : before <+: s.events

/-- The port where `skb_put` has stopped the kernel. -/
structure PortStopped (before : List RxEvent) (s : RxPort) : Prop where
  fits : WindowFits s.info
  counted : Counted (receivedLengths s.events ++ [frameLength s.front]) s.info.stats
  grown : before <+: s.events

namespace PortLengths

variable {before : List RxEvent} {s : RxPort}

/-- Calls that give no frame to the stack. -/
theorem quiet (h : PortLengths before s) {info : SynDpRxInfo} (hfits : WindowFits info)
    (hcounted : Counted (receivedLengths s.events) info.stats) {es : List RxEvent}
    (hquiet : receivedLengths es = []) : PortLengths before ⟨info, s.events ++ es⟩ := by
  refine ⟨hfits, ?_, h.grown.trans (List.prefix_append _ _)⟩
  rw [receivedLengths_append, hquiet, List.append_nil]
  exact hcounted

theorem refill (h : PortLengths before s) (hring : RxRingInv s.info) (allocs : List RxAlloc) :
    ∃ t, synDpRxRefill s allocs = .ok t ∧ RxRingInv t.info ∧ PortLengths before t := by
  apply RxRingInv.refill_rule (Q := fun s _ => PortLengths before s) _ _ (fun _ _ hQ => hQ) allocs
    hring h
  · intro s skb dmaAddr _ hring hroom hQ
    exact hQ.quiet (hQ.fits.push hring hroom skb dmaAddr) hQ.counted rfl
  · intro s skb _ _ hQ
    exact hQ.quiet hQ.fits hQ.counted rfl

/-- The frame at the front is one that fits. -/
theorem front_fits (h : PortLengths before s) (hring : RxRingInv s.info)
    (hbusy : 0 < s.info.busyRxDesc)
    (howned : (s.info.rxDesc s.info.rxBusy).isDescOwnedByDma = false)
    (hvalid : isRxDescValid (s.info.rxDesc s.info.rxBusy).status = true) :
    LengthFits (s.info.rxDesc s.info.rxBusy).status :=
  h.fits _ (hring.base_mem hbusy) howned hvalid

theorem turn (h : PortLengths before s) (hring : RxRingInv s.info)
    (hbusy : 0 < s.info.busyRxDesc)
    (howned : (s.info.rxDesc s.info.rxBusy).isDescOwnedByDma = false) {t : RxPort}
    (hone : rxOne s = .ok t) : PortLengths before t := by
  obtain ⟨skb, -, ⟨hvalid, -, heq⟩ | ⟨-, -, heq⟩ | ⟨-, heq⟩⟩ := hring.one_turn hbusy rfl
  · cases heq.symm.trans hone
    refine ⟨h.fits.pop hring hbusy _, ?_, h.grown.trans (List.prefix_append _ _)⟩
    rw [receivedLengths_append]
    exact h.counted.rxGood (h.front_fits hring hbusy howned hvalid)
  · cases heq.symm.trans hone
  · cases heq.symm.trans hone
    exact h.quiet (h.fits.pop hring hbusy _) (h.counted.rxBad _) rfl

theorem stopped (h : PortLengths before s) (hring : RxRingInv s.info)
    (hbusy : 0 < s.info.busyRxDesc)
    (howned : (s.info.rxDesc s.info.rxBusy).isDescOwnedByDma = false) {t : RxPort}
    (hone : rxOne s = .error ⟨.skbOverPanic, t⟩) : PortStopped before t := by
  obtain ⟨skb, -, ⟨-, -, heq⟩ | ⟨hvalid, -, heq⟩ | ⟨-, heq⟩⟩ := hring.one_turn hbusy rfl
  · cases heq.symm.trans hone
  · cases heq.symm.trans hone
    refine ⟨h.fits, ?_, h.grown.trans (List.prefix_append _ _)⟩
    rw [receivedLengths_append, show receivedLengths [unmapCall s.info] = [] from rfl,
      List.append_nil, RxPort.front, hring.busyDesc]
    exact h.counted.rxGood (h.front_fits hring hbusy howned hvalid)
  · cases heq.symm.trans hone

theorem rx (h : PortLengths before s) (hring : RxRingInv s.info) (budget : Int) :
    (∃ ret t, synDpRx s budget = .ok (ret, t) ∧ RxRingInv t.info ∧ PortLengths before t) ∨
      ∃ t, synDpRx s budget = .error ⟨.skbOverPanic, t⟩ ∧ RxRingInv t.info ∧
        PortStopped before t :=
  RxRingInv.rx_turns (fun _ _ hring hbusy howned h hone => h.turn hring hbusy howned hone)
    (fun _ _ hring hbusy howned h hone => h.stopped hring hbusy howned hone) hring h budget

end PortLengths

/-- What every step on reports that fit keeps. -/
structure LengthInv (s : RxRun) : Prop where
  ring : RxRingInv s.port.info
  fits : WindowFits s.port.info
  inside : LengthsInside s

namespace LengthInv

variable {s t : RxRun}

theorem start {info : SynDpRxInfo} {allocOk : Bool}
    (hsetup : synDpSetupRxDescQueue SynDpRxInfo.zero synDpRxDescSize .ringMode allocOk =
      .ok (0, info)) : LengthInv (.start info) := by
  have hring := RxRingInv.setup (fun _ => rfl) hsetup
  rw [synDpSetupRxDescQueue_ok hsetup] at hring ⊢
  refine ⟨hring, ?_, Counted.nil⟩
  intro i hi
  cases hi

/-- The port at the beginning of a call. -/
theorem portLengths (h : LengthInv s) (hbug : s.bug = none) :
    PortLengths s.port.events s.port := by
  refine ⟨h.fits, ?_, List.prefix_rfl⟩
  have hcounted := h.inside
  rw [LengthsInside, RxRun.putLengths, hbug, if_neg (by simp), List.append_nil] at hcounted
  exact hcounted

theorem of_ok {before : List RxEvent} {port : RxPort} (hring : RxRingInv port.info)
    (h : PortLengths before port) : LengthInv ⟨port, none⟩ := by
  refine ⟨hring, h.fits, ?_⟩
  rw [LengthsInside, RxRun.putLengths, if_neg (by simp), List.append_nil]
  exact h.counted

theorem of_stopped {before : List RxEvent} {port : RxPort} (hring : RxRingInv port.info)
    (h : PortStopped before port) : LengthInv ⟨port, some .skbOverPanic⟩ := by
  refine ⟨hring, h.fits, ?_⟩
  rw [LengthsInside, RxRun.putLengths, if_pos rfl]
  exact h.counted

/-- One step, and the calls it adds to those made before. -/
theorem step (h : LengthInv s) {a : RxLabel} (hfits : ReportFits a)
    (hstep : rxStep s a = some t) : LengthInv t ∧ s.port.events <+: t.port.events := by
  unfold rxStep at hstep
  split at hstep
  · cases hstep
  · next hbug =>
    rw [Option.not_isSome_iff_eq_none] at hbug
    have hport := h.portLengths hbug
    cases a with
    | refill allocs =>
      simp only at hstep
      split at hstep
      · obtain ⟨port, heq, hring, hP⟩ := hport.refill h.ring allocs
        rw [heq] at hstep
        cases hstep
        exact ⟨of_ok hring hP, hP.grown⟩
      · cases hstep
    | rx budget =>
      simp only at hstep
      rcases hport.rx h.ring budget with ⟨ret, port, heq, hring, hP⟩ | ⟨port, heq, hring, hR⟩
      · rw [heq] at hstep
        cases hstep
        exact ⟨of_ok hring hP, hP.grown⟩
      · rw [heq] at hstep
        cases hstep
        exact ⟨of_stopped hring hR, hR.grown⟩
    | dma wb =>
      rw [Option.map_eq_some_iff] at hstep
      obtain ⟨info', hrel, rfl⟩ := hstep
      have hring := h.ring.receive hrel
      have hwindow := h.fits.receive hfits hrel
      obtain ⟨j, -, rfl⟩ := dmaReceive_eq hrel
      rw [hbug]
      exact ⟨of_ok hring ⟨hwindow, hport.counted, hport.grown⟩, List.prefix_rfl⟩

theorem neverDecreases (h : LengthInv s) {a : RxLabel} (hfits : ReportFits a) :
    NeverDecreases s a := by
  intro t hstep hlt
  obtain ⟨h', events, hevents⟩ := h.step hfits hstep
  have hbug : s.bug = none := by
    unfold rxStep at hstep
    split at hstep
    · cases hstep
    · next hbug => exact Option.not_isSome_iff_eq_none.mp hbug
  apply (h.portLengths hbug).counted.mono h'.inside _ hlt
  rw [RxRun.putLengths, ← hevents, receivedLengths_append, List.append_assoc]
  exact List.prefix_append _ _

end LengthInv

/-- On every accepted status word a turn puts no more than was mapped, and counts what it puts,
    if and only if the length field fits. In every run on reports that fit, no frame extends past
    its buffer, and `rx_bytes` is the sum of the lengths and never decreases. -/
theorem rxRun_lengths_iff {info : SynDpRxInfo} {allocOk : Bool}
    (hsetup : synDpSetupRxDescQueue SynDpRxInfo.zero synDpRxDescSize .ringMode allocOk =
      .ok (0, info)) :
    (∀ s : RxPort, isRxDescValid s.front = true → (TurnInside s ↔ LengthFits s.front)) ∧
      ∀ as : List RxLabel, (∀ a ∈ as, ReportFits a) →
        Always rxStep LengthsInside (.start info) as ∧
          StepsMeet rxStep NeverDecreases (.start info) as := by
  refine ⟨fun _ hvalid => turnInside_iff hvalid, ?_⟩
  intro as hfits
  have hmeet : StepsMeet rxStep (fun _ a => ReportFits a) (.start info) as := .of_forall hfits
  have hstart := LengthInv.start hsetup
  constructor
  · exact always_of_stepsMeet (fun _ h => h.inside)
      (fun _ _ _ h hC hstep => (h.step hC hstep).1) hstart hmeet
  · exact hmeet.of_inv (fun _ _ h hC => h.neverDecreases hC)
      (fun _ _ _ h hC hstep => (h.step hC hstep).1) hstart

/-- Two buffers posted; a frame of 60 bytes is reported with its checksum and delivered. -/
theorem rxRun_lengths_iff_goodAndBad :
    (∃ s, run rxStep (.start emptyRxRing) (goodAndBadFrame.take 3) = some s ∧
        TurnInside s.port) ∧
      Always rxStep LengthsInside (.start emptyRxRing) goodAndBadFrame ∧
      StepsMeet rxStep NeverDecreases (.start emptyRxRing) goodAndBadFrame := by
  have hfront : ((run rxStep (.start emptyRxRing) (goodAndBadFrame.take 3)).map
      fun s => s.port.front) = some 0x00400300#32 := by
    decide +kernel
  obtain ⟨s, hrun, hs⟩ := Option.map_eq_some_iff.mp hfront
  obtain ⟨hturn, hruns⟩ := rxRun_lengths_iff emptyRxRing_setup
  refine ⟨⟨s, hrun, ?_⟩, hruns _ ?_⟩
  · rw [hturn s.port (by rw [hs]; rfl), hs]
    decide
  · have hgood : LengthFits 0x00400300#32 := by decide
    have hbad : isRxDescValid 0x00008302#32 = false := rfl
    simp [goodAndBadFrame, ReportFits, hgood, hbad]

/-- A buffer posted and given back with `status`; a frame of 60 bytes has been received before
    it. -/
def reportAfterFrame (status : BitVec 32) : List RxLabel :=
  [.refill [.mapped ⟨0, 1982⟩ 0x1000#32, .mapped ⟨1, 1982⟩ 0x2000#32],
    .dma ⟨0x00400300#32, 0#32, 0#32, 0#32⟩, .rx 64, .dma ⟨status, 0#32, 0#32, 0#32⟩]

/-- A good frame with a length field of 0 makes `rx_bytes` less and puts nearly 2^32 bytes; one
    with a field of 1984 is delivered 2 bytes longer than was mapped. -/
theorem rxRun_lengths_outside :
    (∃ s, run rxStep (.start emptyRxRing) (reportAfterFrame 0x00000300#32) = some s ∧
      isRxDescValid s.port.front = true ∧ ¬ TurnInside s.port ∧ ¬ NeverDecreases s (.rx 64)) ∧
    ∃ s, run rxStep (.start emptyRxRing) (reportAfterFrame 0x07C00300#32 ++ [.rx 64]) = some s ∧
      ¬ LengthsInside s := by
  constructor
  · have hfirst : ((run rxStep (.start emptyRxRing) (reportAfterFrame 0x00000300#32)).map fun s =>
        (s.port.front, s.port.info.stats.rxBytes,
          (rxStep s (.rx 64)).map fun t => (t.putLengths, t.port.info.stats.rxBytes))) =
        some (0x00000300#32, 60#64, some ([60, -4], 56#64)) := by
      decide +kernel
    obtain ⟨s, hrun, hs⟩ := Option.map_eq_some_iff.mp hfirst
    rw [Prod.mk.injEq, Prod.mk.injEq] at hs
    obtain ⟨hfront, hbytes, hnext⟩ := hs
    obtain ⟨t, hstep, ht⟩ := Option.map_eq_some_iff.mp hnext
    rw [Prod.mk.injEq] at ht
    obtain ⟨hlengths, hbytes'⟩ := ht
    refine ⟨s, hrun, by rw [hfront]; rfl, ?_, ?_⟩
    · intro h
      have hle := (putLength_le_iff _).mp h.le
      rw [hfront] at hle
      exact absurd hle (by decide)
    · intro h
      have hle := h t hstep (by rw [hlengths]; decide)
      rw [hbytes, hbytes'] at hle
      exact absurd hle (by decide)
  · have hlong : ((run rxStep (.start emptyRxRing)
        (reportAfterFrame 0x07C00300#32 ++ [.rx 64])).map RxRun.putLengths) =
        some [60, 1980] := by
      decide +kernel
    obtain ⟨s, hrun, hs⟩ := Option.map_eq_some_iff.mp hlong
    refine ⟨s, hrun, ?_⟩
    intro h
    have hinside := (h.inside 1980 (by rw [hs]; simp)).2
    exact absurd hinside (by decide)

end NssDp.SynGmacDp
