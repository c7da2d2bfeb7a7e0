import NssDp.Misc.Lts
import NssDp.SynGmacDp.Cleanup
import NssDp.SynGmacDp.Proofs.RxOwnership
import NssDp.SynGmacDp.Proofs.TxOwnership

/-!
# What the cleanup of the rings releases

Refills, receive polls, transmits, completions and the engine work on the two rings of a port
until these are cleaned up. Both loops of the cleanup stay at the first busy slot for all their
turns, so they release one buffer each at most.
-/

namespace NssDp.SynGmacDp

open Lts Cyclic Word

/-- A call into the kernel, from either side of the port. -/
inductive DpCall where
  | rx (e : RxEvent)
  | tx (e : KernelEvent)
  deriving DecidableEq, Repr

/-- The rings are in use, the kernel has stopped at an assertion, or the rings are cleaned up. -/
inductive RingsPhase where
  | inUse
  | halted
  | cleaned
  deriving DecidableEq, Repr

/-- The rings of a port and the calls made so far, in order. -/
structure RingsRun where
  rx : SynDpRxInfo
  tx : SynDpTxInfo
  calls : List DpCall
  phase : RingsPhase

/-- A call of the driver or a step of the engine. -/
inductive RingsLabel where
  | refill (allocs : List RxAlloc)
  | rx (budget : Int)
  | tx (skb : SkBuff) (dma : Option (BitVec 32))
  | complete
  | dmaReceive (wb : RxReport)
  | dmaRelease (wb : BitVec 32)
  | cleanup

/-- A port on which nothing has happened. -/
def RingsRun.start (rx : SynDpRxInfo) (tx : SynDpTxInfo) : RingsRun := ⟨rx, tx, [], .inUse⟩

/-- The receive side returns, or stops. -/
def RingsRun.ofRx (s : RingsRun) : Except RxHalt RxPort → RingsRun
  | .ok port => { s with rx := port.info, calls := s.calls ++ port.events.map .rx }
  | .error halt =>
    { s with rx := halt.port.info, calls := s.calls ++ halt.port.events.map .rx, phase := .halted }

/-- The calls of the two loops of a cleanup. -/
def cleanupCalls (rx : SynDpRxInfo) (tx : SynDpTxInfo) (r : RingsCleanup) : List DpCall :=
  (r.rxTurns.flatMap (rxTurnCalls rx)).map .rx ++ (r.txTurns.flatMap (txTurnCalls tx)).map .tx

/-- Nothing runs on after an assertion has failed, or on rings that are cleaned up. -/
def ringsStep (s : RingsRun) (a : RingsLabel) : Option RingsRun :=
  if s.phase ≠ .inUse then none
  else
    match a with
    | .refill allocs => some (s.ofRx (synDpRxRefill ⟨s.rx, []⟩ allocs))
    | .rx budget => some (s.ofRx ((synDpRx ⟨s.rx, []⟩ budget).map Prod.snd))
    | .tx skb dma =>
      match synDpTx s.tx skb dma with
      | .error _ => some { s with phase := .halted }
      | .ok r => some { s with tx := r.info, calls := s.calls ++ r.events.map .tx }
    | .complete =>
      match synDpProcessTxComplete s.tx with
      | .error _ => some { s with phase := .halted }
      | .ok (tx, events) => some { s with tx, calls := s.calls ++ events.map .tx }
    | .dmaReceive wb => (dmaReceive s.rx wb).map fun rx => { s with rx }
    | .dmaRelease wb => (dmaRelease s.tx wb).map fun tx => { s with tx }
    | .cleanup =>
      let r := synDpCleanupRings s.rx s.tx
      some {
        rx := { s.rx with rxSkbList := r.rxSkbList }
        tx := { s.tx with txSkbList := r.txSkbList }
        calls := s.calls ++ cleanupCalls s.rx s.tx r
        phase := .cleaned }

/-- A cleanup loop of `turns` turns on a list of `size` slots, with the busy window `window`:
    it frees the buffers held, each once, leaves every slot empty and visits each busy descriptor
    once. -/
structure RingReleased {β : Type*} (size : Nat) (window : List Nat) (skbList left : Nat → Option β)
    (turns : List (CleanupTurn β)) : Prop where
  frees : (turnSkbs turns).Perm ((List.range size).filterMap skbList)
  empties : ∀ i < size, left i = none
  visits : (visitedDescs turns).Perm window

/-- The cleanup releases everything on both rings, and a new setup starts with empty lists. -/
structure RingsReleased (rx : SynDpRxInfo) (tx : SynDpTxInfo) : Prop where
  rxRing : RingReleased synDpRxDescSize rx.busyWindow rx.rxSkbList
    (synDpCleanupRings rx tx).rxSkbList (synDpCleanupRings rx tx).rxTurns
  txRing : RingReleased synDpTxDescSize tx.busyWindow tx.txSkbList
    (synDpCleanupRings rx tx).txSkbList (synDpCleanupRings rx tx).txTurns
  newRxSetup : ∀ allocOk info, synDpSetupRxDescQueue
    { rx with rxSkbList := (synDpCleanupRings rx tx).rxSkbList } synDpRxDescSize .ringMode allocOk =
      .ok (0, info) → ∀ i < synDpRxDescSize, info.rxSkbList i = none
  newTxSetup : ∀ allocOk info, synDpSetupTxDescQueue
    { tx with txSkbList := (synDpCleanupRings rx tx).txSkbList } synDpTxDescSize .ringMode allocOk =
      .ok (0, info) → ∀ i < synDpTxDescSize, info.txSkbList i = none

/-- What a list holds, read off a list of slots that leaves out none that is used. -/
theorem filterMap_range_perm {β : Type*} {size : Nat} {f : Nat → Option β} {l : List Nat}
    (hnodup : l.Nodup) (hlt : ∀ i ∈ l, i < size) (hout : ∀ i < size, i ∉ l → f i = none) :
    ((List.range size).filterMap f).Perm (l.filterMap f) := by
  have hused : ((List.range size).filter fun i => i ∈ l).Perm l := by
    apply (List.perm_ext_iff_of_nodup (List.nodup_range.filter _) hnodup).mpr
    intro i
    rw [List.mem_filter, List.mem_range, decide_eq_true_iff]
    exact ⟨And.right, fun hi => ⟨hlt i hi, hi⟩⟩
  have hsame : (List.range size).filterMap f =
      ((List.range size).filter fun i => i ∈ l).filterMap f := by
    rw [List.filterMap_filter]
    apply List.filterMap_congr
    intro i hi
    by_cases hmem : i ∈ l
    · rw [if_pos (decide_eq_true hmem)]
    · rw [hout i (List.mem_range.mp hi) hmem]
      simp [hmem]
  rw [hsame]
  exact hused.filterMap f

/-- A cleanup loop on a ring whose busy slots hold the buffers releases everything exactly
    where one descriptor is busy at most. -/
theorem ringReleased_iff {β : Type*} {descCount base busy : Nat} {skbList : Nat → Option β}
    {window : List Nat} (hlength : window.length = busy) (hnodup : window.Nodup)
    (hindex : base &&& u32Sub descCount 1 = base) (hlt : ∀ i ∈ window, i < descCount)
    (hbase : 0 < busy → base ∈ window) (hheld : ∀ i ∈ window, (skbList i).isSome = true)
    (hout : ∀ i < descCount, i ∉ window → skbList i = none) :
    RingReleased descCount window skbList (cleanupLoop descCount base busy base skbList).2
      (cleanupLoop descCount base busy base skbList).1 ↔ busy ≤ 1 := by
  have hperm := filterMap_range_perm hnodup hlt hout
  cases busy with
  | zero =>
    obtain rfl := List.length_eq_zero_iff.mp hlength
    refine iff_of_true ⟨hperm.symm, ?_, List.Perm.nil⟩ (Nat.zero_le 1)
    exact fun i hi => hout i hi List.not_mem_nil
  | succ turns =>
    rw [cleanupLoop_eq hindex]
    constructor
    · intro h
      have hvisited := (h.visits.nodup_iff).mpr hnodup
      have hall : visitedDescs (⟨base, skbList base⟩ :: List.replicate turns ⟨base, none⟩) =
          List.replicate (turns + 1) base := by
        rw [visitedDescs, List.map_cons, List.map_replicate, List.replicate_succ]
      rw [hall] at hvisited
      exact List.nodup_replicate.mp hvisited
    · intro hle
      obtain rfl : turns = 0 := by omega
      obtain ⟨i, rfl⟩ := List.length_eq_one_iff.mp hlength
      obtain rfl : base = i := List.mem_singleton.mp (hbase (Nat.zero_lt_succ 0))
      obtain ⟨skb, hskb⟩ := Option.isSome_iff_exists.mp (hheld base (List.mem_singleton_self base))
      refine ⟨?_, ?_, List.Perm.refl _⟩
      · rw [List.filterMap_cons_some hskb, List.filterMap_nil] at hperm
        have hfreed : turnSkbs [⟨base, skbList base⟩] = [skb] := by
          rw [hskb]
          rfl
        show (turnSkbs [⟨base, skbList base⟩]).Perm _
        rw [hfreed]
        exact hperm.symm
      · intro j hj
        show Function.update skbList base none j = none
        by_cases hsame : j = base
        · rw [hsame, Function.update_self]
        · rw [Function.update_of_ne hsame]
          exact hout j hj fun hmem => hsame (List.mem_singleton.mp hmem)

/-- The rings while they are in use. -/
structure RingsInv (s : RingsRun) : Prop where
  rx : RxRingInv s.rx
  tx : TxRingInv s.tx
  emptyOutside : EmptyOutside s.tx

/-- The mask of a ring leaves the indices of its slots alone. -/
theorem mask_eq {i : Nat} (hi : i < synDpTxDescSize) : i &&& u32Sub synDpTxDescSize 1 = i := by
  have hmask : u32Sub synDpTxDescSize 1 = 2 ^ 7 - 1 := by decide
  rw [hmask, and_mask]
  exact Nat.mod_eq_of_lt hi

namespace RingsInv

variable {s : RingsRun}

theorem start {rx : SynDpRxInfo} {tx : SynDpTxInfo} {rxOk txOk : Bool}
    (hrx : synDpSetupRxDescQueue SynDpRxInfo.zero synDpRxDescSize .ringMode rxOk = .ok (0, rx))
    (htx : synDpSetupTxDescQueue SynDpTxInfo.zero synDpTxDescSize .ringMode txOk = .ok (0, tx)) :
    RingsInv (.start rx tx) :=
  ⟨RxRingInv.setup (fun _ => rfl) hrx, TxRingInv.setup htx, (FrameQueueInv.start htx).emptyOutside⟩

/-- A completion reaches no assertion. -/
theorem complete (h : RingsInv s) : ∃ tx events,
    synDpProcessTxComplete s.tx = .ok (tx, events) ∧ RingsInv { s with tx } := by
  obtain ⟨tx, events, heq, hring, hempty⟩ := h.tx.processTxComplete_rule
    (P := fun tx _ => EmptyOutside tx)
    (fun _ _ _ stats hring hbusy _ _ hP => hring.emptyOutside_pop hbusy hP stats)
    [] h.emptyOutside
  exact ⟨tx, events, heq, h.rx, hring, hempty⟩

/-- Rings that are in use after a step are whole. -/
theorem step (h : RingsInv s) {a : RingsLabel} {t : RingsRun} (hstep : ringsStep s a = some t)
    (hphase : t.phase = .inUse) : RingsInv t := by
  unfold ringsStep at hstep
  split at hstep
  · cases hstep
  · cases a with
    | refill allocs =>
      obtain ⟨port, heq, hport, -⟩ := RxRingInv.refill_rule (P := fun _ => True)
        (Q := fun _ _ => True) (fun _ _ _ _ _ _ _ => trivial) (fun _ _ _ _ _ => trivial)
        (fun _ _ _ => trivial) (s := ⟨s.rx, []⟩) allocs h.rx trivial
      simp only [heq, RingsRun.ofRx] at hstep
      cases hstep
      exact ⟨hport, h.tx, h.emptyOutside⟩
    | rx budget =>
      rcases RxRingInv.rx_rule (P := fun _ => True) (R := fun _ => True)
        (fun _ _ _ _ _ _ _ _ _ _ => trivial) (fun _ _ _ _ => trivial) (s := ⟨s.rx, []⟩) h.rx
        trivial budget with ⟨ret, port, heq, hport, -⟩ | ⟨port, heq, hport, -⟩
      · simp only [heq, RingsRun.ofRx, Except.map] at hstep
        cases hstep
        exact ⟨hport, h.tx, h.emptyOutside⟩
      · simp only [heq, RingsRun.ofRx, Except.map] at hstep
        cases hstep
        cases hphase
    | tx skb dma =>
      by_cases hok : s.tx.busyTxDesc < synDpTxDescSize ∧ dma.isSome = true
      · obtain ⟨hroom, hdma⟩ := hok
        obtain ⟨dmaAddr, rfl⟩ := Option.isSome_iff_exists.mp hdma
        simp only [h.tx.tx_eq_push hroom] at hstep
        cases hstep
        exact ⟨h.rx, h.tx.push hroom skb dmaAddr,
          h.tx.emptyOutside_push h.emptyOutside skb dmaAddr⟩
      · simp only [h.tx.tx_eq_refuse skb dma hok] at hstep
        cases hstep
        exact ⟨h.rx, h.tx, h.emptyOutside⟩
    | complete =>
      obtain ⟨tx, events, heq, hinv⟩ := h.complete
      simp only [heq] at hstep
      cases hstep
      exact ⟨hinv.rx, hinv.tx, hinv.emptyOutside⟩
    | dmaReceive wb =>
      obtain ⟨rx, hrel, rfl⟩ := Option.map_eq_some_iff.mp hstep
      exact ⟨h.rx.receive hrel, h.tx, h.emptyOutside⟩
    | dmaRelease wb =>
      obtain ⟨tx, hrel, rfl⟩ := Option.map_eq_some_iff.mp hstep
      have hring := h.tx.release hrel
      obtain ⟨i, -, rfl⟩ := dmaRelease_eq hrel
      exact ⟨h.rx, hring, h.emptyOutside⟩
    | cleanup =>
      cases hstep
      cases hphase

/-- The cleanup of rings in use. -/
theorem released_iff (h : RingsInv s) :
    RingsReleased s.rx s.tx ↔ s.rx.busyRxDesc ≤ 1 ∧ s.tx.busyTxDesc ≤ 1 := by
  have hrx : RingReleased synDpRxDescSize s.rx.busyWindow s.rx.rxSkbList
      (cleanupLoop synDpRxDescSize s.rx.rxBusy s.rx.busyRxDesc s.rx.rxBusy s.rx.rxSkbList).2
      (cleanupLoop synDpRxDescSize s.rx.rxBusy s.rx.busyRxDesc s.rx.rxBusy s.rx.rxSkbList).1 ↔
        s.rx.busyRxDesc ≤ 1 := ringReleased_iff (length_window _ _ _)
    h.rx.nodup_busyWindow (mask_eq h.rx.base_lt) (fun _ => h.rx.lt_of_mem) h.rx.base_mem
    (fun i hi => (h.rx.held i hi).1) (fun i hlt hi => (h.rx.free i hlt hi).1)
  have htx : RingReleased synDpTxDescSize s.tx.busyWindow s.tx.txSkbList
      (cleanupLoop synDpTxDescSize s.tx.txBusy s.tx.busyTxDesc s.tx.txBusy s.tx.txSkbList).2
      (cleanupLoop synDpTxDescSize s.tx.txBusy s.tx.busyTxDesc s.tx.txBusy s.tx.txSkbList).1 ↔
        s.tx.busyTxDesc ≤ 1 := ringReleased_iff (length_window _ _ _)
    h.tx.nodup_busyWindow (mask_eq h.tx.base_lt) (fun _ => h.tx.lt_of_mem) h.tx.base_mem
    (fun i hi => (h.tx.held i hi).1) h.emptyOutside
  have hrxLoop : cleanupLoop s.rx.rxDescCount s.rx.rxBusyDesc s.rx.busyRxDesc s.rx.rxBusy
      s.rx.rxSkbList = cleanupLoop synDpRxDescSize s.rx.rxBusy s.rx.busyRxDesc s.rx.rxBusy
        s.rx.rxSkbList := by
    rw [h.rx.count, h.rx.busyDesc]
  have htxLoop : cleanupLoop s.tx.txDescCount s.tx.txBusyDesc s.tx.busyTxDesc s.tx.txBusy
      s.tx.txSkbList = cleanupLoop synDpTxDescSize s.tx.txBusy s.tx.busyTxDesc s.tx.txBusy
        s.tx.txSkbList := by
    rw [h.tx.count, h.tx.busyDesc]
  rw [← hrxLoop] at hrx
  rw [← htxLoop] at htx
  constructor
  · intro hreleased
    exact ⟨hrx.mp hreleased.rxRing, htx.mp hreleased.txRing⟩
  · rintro ⟨hrxBusy, htxBusy⟩
    have hrxRing := hrx.mpr hrxBusy
    have htxRing := htx.mpr htxBusy
    refine ⟨hrxRing, htxRing, ?_, ?_⟩
    · intro allocOk info hsetup
      rw [synDpSetupRxDescQueue_ok hsetup]
      exact hrxRing.empties
    · intro allocOk info hsetup
      rw [synDpSetupTxDescQueue_ok hsetup]
      exact htxRing.empties

end RingsInv

theorem ringsStep_inUse {s t : RingsRun} {a : RingsLabel} (hstep : ringsStep s a = some t) :
    s.phase = .inUse := by
  by_contra hne
  unfold ringsStep at hstep
  rw [if_pos hne] at hstep
  cases hstep

/-- A run keeps the rings whole while they are in use. -/
theorem ringsRun_inv {s u : RingsRun} {as : List RingsLabel} (h : RingsInv s)
    (hrun : run ringsStep s as = some u) (hphase : u.phase = .inUse) : RingsInv u := by
  have hkeep : ∀ s a t, (s.phase = .inUse → RingsInv s) → ringsStep s a = some t →
      (t.phase = .inUse → RingsInv t) := by
    intro s a t h hstep ht
    exact (h (ringsStep_inUse hstep)).step hstep ht
  exact run_inv (I := fun s => s.phase = .inUse → RingsInv s) hkeep (fun _ => h) hrun hphase

/-- In every state of the rings that a run reaches from a setup: the cleanup frees every buffer
    once, empties both lists and visits every busy descriptor once exactly where each ring has
    one busy descriptor at most. -/
theorem ringsRun_released_iff {rx : SynDpRxInfo} {tx : SynDpTxInfo} {rxOk txOk : Bool}
    (hrx : synDpSetupRxDescQueue SynDpRxInfo.zero synDpRxDescSize .ringMode rxOk = .ok (0, rx))
    (htx : synDpSetupTxDescQueue SynDpTxInfo.zero synDpTxDescSize .ringMode txOk = .ok (0, tx))
    {as : List RingsLabel} {s : RingsRun} (hrun : run ringsStep (.start rx tx) as = some s)
    (hphase : s.phase = .inUse) :
    RingsReleased s.rx s.tx ↔ s.rx.busyRxDesc ≤ 1 ∧ s.tx.busyTxDesc ≤ 1 :=
  (ringsRun_inv (RingsInv.start hrx htx) hrun hphase).released_iff

/-- Two buffers are posted, and the engine fills the first. -/
def postTwo : List RingsLabel :=
  [.refill [.mapped ⟨0, 2000⟩ 0x1000#32, .mapped ⟨1, 2000⟩ 0x2000#32],
    .dmaReceive ⟨0x00400300#32, 0#32, 0#32, 0#32⟩]

/-- The same, and one of them is delivered; a frame is given to the engine. -/
def oneOnEachRing : List RingsLabel := postTwo ++ [.rx 64, .tx (byteFrame 0) (some 0x3000#32)]

theorem ringsRun_released_iff_one : ∃ s,
    run ringsStep (.start emptyRxRing emptyRing) oneOnEachRing = some s ∧ s.phase = .inUse ∧
      s.rx.busyRxDesc = 1 ∧ s.tx.busyTxDesc = 1 ∧
      (RingsReleased s.rx s.tx ↔ s.rx.busyRxDesc ≤ 1 ∧ s.tx.busyTxDesc ≤ 1) := by
  have hbusy : ((run ringsStep (.start emptyRxRing emptyRing) oneOnEachRing).map fun s =>
      (s.phase, s.rx.busyRxDesc, s.tx.busyTxDesc)) = some (.inUse, 1, 1) := by
    decide +kernel
  obtain ⟨s, hrun, hbusy⟩ := Option.map_eq_some_iff.mp hbusy
  simp only [Prod.mk.injEq] at hbusy
  obtain ⟨hphase, hrx, htx⟩ := hbusy
  exact ⟨s, hrun, hphase, hrx, htx,
    ringsRun_released_iff emptyRxRing_setup emptyRing_setup hrun hphase⟩

/-- Of two posted buffers the cleanup frees the first, unmaps it twice, and leaves the second. -/
theorem ringsRun_released_two : ∃ s,
    run ringsStep (.start emptyRxRing emptyRing) postTwo = some s ∧ s.phase = .inUse ∧
      turnSkbs (synDpCleanupRings s.rx s.tx).rxTurns = [⟨0, 2000⟩] ∧
      visitedDescs (synDpCleanupRings s.rx s.tx).rxTurns = [0, 0] ∧
      (synDpCleanupRings s.rx s.tx).rxSkbList 1 = some ⟨1, 2000⟩ ∧ ¬ RingsReleased s.rx s.tx := by
  have hleft : ((run ringsStep (.start emptyRxRing emptyRing) postTwo).map fun s =>
      (s.phase, turnSkbs (synDpCleanupRings s.rx s.tx).rxTurns,
        visitedDescs (synDpCleanupRings s.rx s.tx).rxTurns,
        (synDpCleanupRings s.rx s.tx).rxSkbList 1)) =
          some (.inUse, [⟨0, 2000⟩], [0, 0], some ⟨1, 2000⟩) := by
    decide +kernel
  obtain ⟨s, hrun, hleft⟩ := Option.map_eq_some_iff.mp hleft
  simp only [Prod.mk.injEq] at hleft
  obtain ⟨hphase, hfreed, hvisited, hslot⟩ := hleft
  refine ⟨s, hrun, hphase, hfreed, hvisited, hslot, ?_⟩
  intro h
  have hempty := h.rxRing.empties 1 (by decide)
  rw [hslot] at hempty
  cases hempty

end NssDp.SynGmacDp
