import NssDp.Misc.Lts
import NssDp.SynGmacDp.Proofs.TxInvariant

/-!
# Several transmitters on one Synopsys port

`syn_dp_tx` tests the capacity of the ring outside `data_lock` and queues under it, so each
transmitter takes two steps and any number of them interleave with the completion path and
the engine. A run is safe exactly when every queue step still finds the room its transmitter
tested for.
-/

namespace NssDp.SynGmacDp

open Lts Cyclic Word

/-- The port, and the frames that passed the capacity test and wait for `data_lock`, by
    transmitter. `bug` is the assertion that has stopped the kernel. -/
structure ConcState where
  info : SynDpTxInfo
  waiting : Nat → Option (SkBuff × BitVec 32)
  bug : Option SynBug

/-- One atomic step. -/
inductive ConcLabel where
  | test (cpu : Nat) (skb : SkBuff) (dma : Option (BitVec 32))
  | queue (cpu : Nat)
  | complete
  | dma (wb : BitVec 32)

/-- A port no transmitter is in. -/
def ConcState.start (info : SynDpTxInfo) : ConcState := ⟨info, fun _ => none, none⟩

/-- `test` and `queue` are the two halves of `syn_dp_tx`; the stack hands over no empty
    frame. Nothing runs on after an assertion has failed. -/
def concStep (s : ConcState) (a : ConcLabel) : Option ConcState :=
  if s.bug.isSome then none
  else
    match a with
    | .test cpu skb dma =>
      if (s.waiting cpu).isSome ∨ skb.len = 0 then none
      else if !txDescAvailable s.info then some s
      else
        match dma with
        | none => some s
        | some dmaAddr =>
          some { s with waiting := Function.update s.waiting cpu (some (skb, dmaAddr)) }
    | .queue cpu =>
      match s.waiting cpu with
      | none => none
      | some (skb, dmaAddr) =>
        match synDpTxDescQueue s.info skb dmaAddr with
        | .error bug => some { s with bug := some bug }
        | .ok info => some { s with info, waiting := Function.update s.waiting cpu none }
    | .complete =>
      match synDpProcessTxComplete s.info with
      | .error bug => some { s with bug := some bug }
      | .ok (info, _) => some { s with info }
    | .dma wb => (dmaRelease s.info wb).map fun info => { s with info }

/-- No assertion has failed and the busy count is within the ring. -/
def TxSafe (s : ConcState) : Prop :=
  s.bug = none ∧ s.info.busyTxDesc ≤ s.info.txDescCount

/-- A frame is queued only while the capacity test would pass again. -/
def RoomAtQueue (s : ConcState) : ConcLabel → Prop
  | .queue _ => txDescAvailable s.info = true
  | _ => True

/-- A transmitter that no other step comes between runs `syn_dp_tx`. -/
theorem synDpTx_eq_halves {s : ConcState} {cpu : Nat} {skb : SkBuff} {dma : Option (BitVec 32)}
    {r : TxResult Int} (hbug : s.bug = none) (hidle : s.waiting cpu = none) (hlen : skb.len ≠ 0)
    (htx : synDpTx s.info skb dma = .ok r) :
    (r.ret = -1 ∧ r.info = s.info ∧ concStep s (.test cpu skb dma) = some s) ∨
      (r.ret = 0 ∧ (run concStep s [.test cpu skb dma, .queue cpu]).map (·.info) =
        some r.info) := by
  have henabled : ¬ ((s.waiting cpu).isSome ∨ skb.len = 0) := by simp [hidle, hlen]
  unfold synDpTx at htx
  split at htx
  · rename_i hfull
    cases htx
    exact Or.inl ⟨rfl, rfl, by simp [concStep, hbug, henabled, hfull]⟩
  · rename_i hroom
    cases dma with
    | none =>
      cases htx
      exact Or.inl ⟨rfl, rfl, by simp [concStep, hbug, henabled, hroom]⟩
    | some dmaAddr =>
      simp only at htx
      split at htx
      · cases htx
      · rename_i info hqueue
        cases htx
        exact Or.inr ⟨rfl, by simp [run, concStep, hbug, henabled, hroom, hqueue]⟩

/-- What holds as long as every queue step finds room: the ring is in order, its busy
    descriptors are not empty, and neither is a frame that waits to be queued. -/
structure ConcInv (s : ConcState) : Prop where
  ring : TxRingInv s.info
  filled : ∀ i ∈ s.info.busyWindow, (s.info.txDesc i).isDescEmpty = false
  waiting : ∀ cpu skb dmaAddr, s.waiting cpu = some (skb, dmaAddr) → skb.len ≠ 0
  bug : s.bug = none

namespace ConcInv

variable {s : ConcState}

theorem safe (h : ConcInv s) : TxSafe s := by
  refine ⟨h.bug, ?_⟩
  rw [h.ring.count]
  exact h.ring.busy_le

/-- An skb length that is not zero is not zero in the descriptor's word either. -/
theorem length1_ne_zero {skb : SkBuff} (hlen : skb.len ≠ 0) : BitVec.ofNat 32 skb.len ≠ 0#32 := by
  intro h
  have hnat := congrArg BitVec.toNat h
  have hlt : skb.len < 2 ^ 32 := u32_lt _
  simp only [BitVec.toNat_ofNat, Nat.mod_eq_of_lt hlt, Nat.zero_mod] at hnat
  exact hlen hnat

theorem push_filled (h : ConcInv s) (hroom : s.info.busyTxDesc < synDpTxDescSize)
    {skb : SkBuff} (hlen : skb.len ≠ 0) (dmaAddr : BitVec 32) :
    ∀ i ∈ (pushTx s.info skb dmaAddr).busyWindow,
      ((pushTx s.info skb dmaAddr).txDesc i).isDescEmpty = false := by
  have hnot := h.ring.next_notMem hroom
  intro i hi
  rw [h.ring.busyWindow_push, List.mem_append, List.mem_singleton] at hi
  rcases hi with hi | rfl
  · have hne : i ≠ s.info.txNext := ne_of_mem_of_not_mem hi hnot
    simpa only [pushTx, Function.update_of_ne hne] using h.filled i hi
  · simp only [pushTx, Function.update_self]
    exact setTxDesc_not_empty _ _ _ _ _ (h.ring.free _ h.ring.next_lt hnot).1
      (length1_ne_zero hlen)

theorem pop_filled {info : SynDpTxInfo} (h : TxRingInv info) (hbusy : 0 < info.busyTxDesc)
    (stats : TxStats) (hfilled : ∀ i ∈ info.busyWindow, (info.txDesc i).isDescEmpty = false) :
    ∀ i ∈ (popTx info stats).busyWindow, ((popTx info stats).txDesc i).isDescEmpty = false := by
  intro i hi
  obtain ⟨hold, hdesc, -⟩ := h.pop_other hbusy stats hi
  rw [hdesc]
  exact hfilled i hold

theorem release_filled {info info' : SynDpTxInfo} {wb : BitVec 32}
    (hrel : dmaRelease info wb = some info')
    (hfilled : ∀ i ∈ info.busyWindow, (info.txDesc i).isDescEmpty = false) :
    ∀ i ∈ info'.busyWindow, (info'.txDesc i).isDescEmpty = false := by
  obtain ⟨j, _, rfl⟩ := dmaRelease_eq hrel
  intro i hi
  have hold := hfilled i hi
  rcases eq_or_ne i j with rfl | hne
  · simpa only [Function.update_self, DmaDesc.isDescEmpty, DmaDesc.writeBack_length] using hold
  · simpa only [Function.update_of_ne hne] using hold

theorem start {devInfo info : SynDpTxInfo} {allocOk : Bool}
    (hsetup : synDpSetupTxDescQueue devInfo synDpTxDescSize .ringMode allocOk = .ok (0, info)) :
    ConcInv (.start info) := by
  refine ⟨TxRingInv.setup hsetup, ?_, fun _ _ _ h => (Option.some_ne_none _ h.symm).elim, rfl⟩
  have hinfo := synDpSetupTxDescQueue_ok hsetup
  intro i hi
  rw [ConcState.start, hinfo] at hi
  cases hi

/-- What one step does: it keeps the invariant, unless it queues to a full ring, which fails
    an assertion. -/
theorem step_cases (h : ConcInv s) {a : ConcLabel} {t : ConcState} (hstep : concStep s a = some t) :
    (RoomAtQueue s a ∧ ConcInv t) ∨ (¬ RoomAtQueue s a ∧ ¬ TxSafe t) := by
  unfold concStep at hstep
  simp only [h.bug, Option.isSome_none, Bool.false_eq_true, if_false] at hstep
  cases a with
  | test cpu skb dma =>
    refine Or.inl ⟨trivial, ?_⟩
    simp only at hstep
    split at hstep
    · cases hstep
    · rename_i henabled
      split at hstep
      · cases hstep
        exact h
      · split at hstep
        · cases hstep
          exact h
        · cases hstep
          refine ⟨h.ring, h.filled, ?_, rfl⟩
          intro c skb' addr' hwait
          simp only [Function.update_apply] at hwait
          split at hwait
          · cases hwait
            exact fun hzero => henabled (Or.inr hzero)
          · exact h.waiting c skb' addr' hwait
  | queue cpu =>
    simp only at hstep
    split at hstep
    · cases hstep
    · rename_i skb dmaAddr hwait
      by_cases hroom : s.info.busyTxDesc < synDpTxDescSize
      · refine Or.inl ⟨h.ring.txDescAvailable_iff.mpr hroom, ?_⟩
        rw [h.ring.queue_eq hroom] at hstep
        cases hstep
        refine ⟨h.ring.push hroom skb dmaAddr,
          h.push_filled hroom (h.waiting _ _ _ hwait) dmaAddr, ?_, rfl⟩
        intro c skb' addr' hwait'
        simp only [Function.update_apply] at hwait'
        split at hwait'
        · cases hwait'
        · exact h.waiting c skb' addr' hwait'
      · refine Or.inr ⟨fun hroom' => hroom (h.ring.txDescAvailable_iff.mp hroom'), ?_⟩
        have hfull := Nat.le_antisymm h.ring.busy_le (Nat.not_lt.mp hroom)
        have hbase := h.ring.base_mem (by rw [hfull]; decide)
        rw [h.ring.queue_full hfull (h.filled _ hbase)] at hstep
        cases hstep
        exact fun hsafe => Option.some_ne_none _ hsafe.1
  | complete =>
    refine Or.inl ⟨trivial, ?_⟩
    obtain ⟨info', events, heq, hring, hfilled⟩ := h.ring.processTxComplete_rule
      (P := fun info _ => ∀ i ∈ info.busyWindow, (info.txDesc i).isDescEmpty = false)
      (fun _ _ _ stats hring hbusy _ _ hP => pop_filled hring hbusy stats hP)
      [] h.filled
    rw [heq] at hstep
    cases hstep
    exact ⟨hring, hfilled, h.waiting, rfl⟩
  | dma wb =>
    refine Or.inl ⟨trivial, ?_⟩
    rw [Option.map_eq_some_iff] at hstep
    obtain ⟨info', hrel, rfl⟩ := hstep
    exact ⟨h.ring.release hrel, release_filled hrel h.filled, h.waiting, rfl⟩

end ConcInv

/-- For any number of transmitters and any interleaving: the run is safe in every state
    exactly when every queue step still finds a free descriptor. -/
theorem txConcurrent_safe_iff {devInfo info : SynDpTxInfo} {allocOk : Bool}
    (hsetup : synDpSetupTxDescQueue devInfo synDpTxDescSize .ringMode allocOk = .ok (0, info))
    {as : List ConcLabel} {u : ConcState} (hrun : run concStep (.start info) as = some u) :
    Always concStep TxSafe (.start info) as ↔ StepsMeet concStep RoomAtQueue (.start info) as := by
  refine always_iff_stepsMeet (fun _ => ConcInv.safe) ?_ ?_ (ConcInv.start hsetup) hrun
  · intro s a t h hstep
    rcases h.step_cases hstep with ⟨hC, ht⟩ | ⟨hC, ht⟩
    · exact ⟨fun _ => ht.safe, fun _ => hC⟩
    · exact ⟨fun h => (hC h).elim, fun h => (ht h).elim⟩
  · intro s a t h hstep hsafe
    rcases h.step_cases hstep with ⟨_, ht⟩ | ⟨_, ht⟩
    · exact ht
    · exact (ht hsafe).elim

theorem txConcurrent_safe_iff_one : ∃ u,
    run concStep (.start emptyRing)
      [.test 0 (byteFrame 0) (some 0#32), .queue 0, .dma 0#32, .complete] = some u ∧
    (Always concStep TxSafe (.start emptyRing)
        [.test 0 (byteFrame 0) (some 0#32), .queue 0, .dma 0#32, .complete] ↔
      StepsMeet concStep RoomAtQueue (.start emptyRing)
        [.test 0 (byteFrame 0) (some 0#32), .queue 0, .dma 0#32, .complete]) :=
  ⟨_, rfl, txConcurrent_safe_iff emptyRing_setup rfl⟩

/-- One transmitter fills all but one descriptor; then two others test the capacity before
    either of them queues. -/
def overfill : List ConcLabel :=
  (List.replicate 127 [.test 0 (byteFrame 0) (some 0#32), .queue 0]).flatten ++
    [.test 1 (byteFrame 1) (some 0#32), .test 2 (byteFrame 2) (some 0#32), .queue 1, .queue 2]

/-- The second of them reaches `BUG_ON(!syn_dp_gmac_is_desc_empty(txdesc))`. -/
theorem overfill_bug : ∃ u, run concStep (.start emptyRing) overfill = some u ∧
    u.bug = some .setTxQptrNotEmpty ∧ ¬ Always concStep TxSafe (.start emptyRing) overfill := by
  have hbug : (run concStep (.start emptyRing) overfill).map (·.bug) =
      some (some .setTxQptrNotEmpty) := by decide +kernel
  obtain ⟨u, hu, hbug⟩ := Option.map_eq_some_iff.mp hbug
  refine ⟨u, hu, hbug, fun hall => ?_⟩
  have hsafe := hall.last hu
  rw [TxSafe, hbug] at hsafe
  exact Option.some_ne_none _ hsafe.1

end NssDp.SynGmacDp
