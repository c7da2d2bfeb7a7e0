import NssDp.SynGmacDp.Proofs.TxOwnership

/-!
# The contract of `syn_dp_if_xmit` with the stack

A transmit callback that answers `NETDEV_TX_BUSY` leaves the frame with the stack, which
hands it over again; one that answers `NETDEV_TX_OK` has consumed it. The drop path of
`syn_dp_if_xmit` frees the frame and answers busy, so the contract holds for a call exactly
when the drop path is not taken.
-/

namespace NssDp.SynGmacDp

open Lts Cyclic Word

/-- One return of `syn_dp_if_xmit`: the answer, the buffers the call freed and the port as
    the call leaves it. -/
structure XmitCall where
  skb : SkBuff
  ret : NetdevTx
  freed : List SkBuff
  info : SynDpTxInfo

/-- What the stack relies on. -/
def XmitCall.Contract (c : XmitCall) : Prop :=
  match c.ret with
  | .busy => c.freed.count c.skb = 0 ∧ ∀ i, ¬ c.info.Holds c.skb i
  | .ok => (c.freed.count c.skb = 0 ∧ ∃! i, c.info.Holds c.skb i) ∨
      (c.freed.count c.skb = 1 ∧ ∀ i, ¬ c.info.Holds c.skb i)

/-- The port and the stack above it: the frames the stack has handed over, those it keeps for
    a retry, every buffer freed, and the frames that were handed over after being freed. -/
structure XmitRun where
  info : SynDpTxInfo
  seen : List SkBuff
  requeued : List SkBuff
  calls : List XmitCall
  freed : List SkBuff
  usedAfterFree : List SkBuff
  bug : Option SynBug

/-- A port on which nothing has happened. -/
def XmitRun.start (info : SynDpTxInfo) : XmitRun := ⟨info, [], [], [], [], [], none⟩

/-- One call or one step of the engine. -/
inductive XmitLabel where
  | xmit (skb : SkBuff) (dma : Option (BitVec 32))
  | complete
  | dma (wb : BitVec 32)

/-- The stack hands over a new frame, or one it was told to keep. -/
def MayXmit (s : XmitRun) (skb : SkBuff) : Prop :=
  skb ∈ s.requeued ∨ skb.id ∉ s.seen.map SkBuff.id

instance (s : XmitRun) (skb : SkBuff) : Decidable (MayXmit s skb) :=
  inferInstanceAs (Decidable (_ ∨ _))

def xmitStep (s : XmitRun) (a : XmitLabel) : Option XmitRun :=
  if s.bug.isSome then none
  else
    match a with
    | .xmit skb dma =>
      if MayXmit s skb then
        match synDpIfXmit s.info skb dma with
        | .error bug => some { s with bug := some bug }
        | .ok r =>
          some { s with
            info := r.info
            seen := s.seen ++ [skb]
            requeued := if r.ret = .busy then s.requeued.erase skb ++ [skb]
              else s.requeued.erase skb
            calls := s.calls ++ [⟨skb, r.ret, freedSkbs r.events, r.info⟩]
            freed := s.freed ++ freedSkbs r.events
            usedAfterFree := if skb ∈ s.freed then s.usedAfterFree ++ [skb]
              else s.usedAfterFree }
      else none
    | .complete =>
      match synDpProcessTxComplete s.info with
      | .error bug => some { s with bug := some bug }
      | .ok (info, events) => some { s with info, freed := s.freed ++ freedSkbs events }
    | .dma wb => (dmaRelease s.info wb).map fun info => { s with info }

/-- Every call has kept the contract, no buffer has been freed twice, and none is used once
    it is freed: neither handed over again nor still in a slot. -/
structure XmitSafe (s : XmitRun) : Prop where
  noBug : s.bug = none
  contract : ∀ c ∈ s.calls, c.Contract
  freedOnce : s.freed.Nodup
  notReused : s.usedAfterFree = []
  notHeld : ∀ skb ∈ s.freed, ∀ i, ¬ s.info.Holds skb i

/-- The drop path is not taken: the frame has no fragments, the ring has a free descriptor
    and the mapping succeeds. -/
def NotDropped (s : XmitRun) : XmitLabel → Prop
  | .xmit skb dma => skb.nrFrags = 0 ∧ txDescAvailable s.info = true ∧ dma.isSome = true
  | _ => True

namespace TxRingInv

variable {info : SynDpTxInfo}

/-- Without the drop path the frame is queued. -/
theorem ifXmit_eq_push (h : TxRingInv info) {skb : SkBuff} (hfrags : skb.nrFrags = 0)
    (hroom : info.busyTxDesc < synDpTxDescSize) (dmaAddr : BitVec 32) :
    synDpIfXmit info skb (some dmaAddr) =
      .ok ⟨.ok, pushTx info skb dmaAddr, [.dmaMapSingle .pdev dmaAddr skb.len .toDevice]⟩ := by
  simp only [synDpIfXmit, hfrags, if_true, h.tx_eq_push hroom, ne_eq, not_true_eq_false, if_false]

/-- A frame that is not queued is dropped, with the ring as it was. -/
theorem ifXmit_eq_drop (h : TxRingInv info) {skb : SkBuff} {dma : Option (BitVec 32)}
    (hdrop : ¬ (skb.nrFrags = 0 ∧ info.busyTxDesc < synDpTxDescSize ∧ dma.isSome = true)) :
    synDpIfXmit info skb dma = .ok (ifXmitDrop info skb []) := by
  by_cases hfrags : skb.nrFrags = 0
  · have hrefuse := h.tx_eq_refuse skb dma fun hok => hdrop ⟨hfrags, hok⟩
    simp only [synDpIfXmit, hfrags, if_true, hrefuse]
    rfl
  · simp only [synDpIfXmit, hfrags, if_false]

end TxRingInv

/-- What holds as long as no frame is dropped. -/
structure XmitInv (s : XmitRun) : Prop where
  queue : FrameQueueInv s.info s.seen s.freed
  requeued : s.requeued = []
  contract : ∀ c ∈ s.calls, c.Contract
  notReused : s.usedAfterFree = []
  bug : s.bug = none

namespace XmitInv

variable {s : XmitRun}

theorem safe (h : XmitInv s) : XmitSafe s :=
  ⟨h.bug, h.contract, h.queue.freed_nodup, h.notReused, fun _ hskb =>
    h.queue.not_holds_of_freed hskb⟩

/-- A transmit that does not drop answers OK with the frame in one slot. -/
theorem push (h : XmitInv s) {skb : SkBuff} (hmay : MayXmit s skb)
    (hroom : s.info.busyTxDesc < synDpTxDescSize) (dmaAddr : BitVec 32) :
    FrameQueueInv (pushTx s.info skb dmaAddr) (s.seen ++ [skb]) s.freed ∧
      XmitCall.Contract ⟨skb, .ok, [], pushTx s.info skb dmaAddr⟩ ∧ skb ∉ s.freed := by
  have hnew : skb.id ∉ s.seen.map SkBuff.id :=
    hmay.resolve_left (by rw [h.requeued]; exact List.not_mem_nil)
  have hqueue := h.queue.push hroom hnew dmaAddr
  have hfree : skb ∉ s.freed := fun hskb =>
    hnew (List.mem_map_of_mem (h.queue.freed_prefix.subset hskb))
  refine ⟨hqueue, Or.inl ⟨rfl, ?_⟩, hfree⟩
  apply hqueue.existsUnique_of_held
  rw [h.queue.ring.heldSkbs_push hroom]
  exact List.mem_append_right _ (List.mem_singleton_self _)

/-- What one step does: it keeps the invariant, unless it drops a frame, which breaks the
    contract. -/
theorem step_cases (h : XmitInv s) {a : XmitLabel} {t : XmitRun} (hstep : xmitStep s a = some t) :
    (NotDropped s a ∧ XmitInv t) ∨ (¬ NotDropped s a ∧ ¬ XmitSafe t) := by
  have hring := h.queue.ring
  unfold xmitStep at hstep
  simp only [h.bug, Option.isSome_none, Bool.false_eq_true, if_false] at hstep
  cases a with
  | xmit skb dma =>
    simp only at hstep
    split at hstep
    · rename_i hmay
      by_cases hok : skb.nrFrags = 0 ∧ s.info.busyTxDesc < synDpTxDescSize ∧ dma.isSome = true
      · obtain ⟨hfrags, hroom, hdma⟩ := hok
        obtain ⟨dmaAddr, rfl⟩ := Option.isSome_iff_exists.mp hdma
        obtain ⟨hqueue, hcontract, hfree⟩ := h.push hmay hroom dmaAddr
        rw [hring.ifXmit_eq_push hfrags hroom] at hstep
        cases hstep
        refine Or.inl ⟨⟨hfrags, hring.txDescAvailable_iff.mpr hroom, rfl⟩, ?_⟩
        refine ⟨by simpa using hqueue, by simp [h.requeued], ?_, by simp [hfree, h.notReused], rfl⟩
        intro c hc
        rcases List.mem_append.mp hc with hc | hc
        · exact h.contract c hc
        · rw [List.mem_singleton.mp hc]
          exact hcontract
      · rw [hring.ifXmit_eq_drop hok] at hstep
        cases hstep
        refine Or.inr ⟨fun hC => hok ⟨hC.1, hring.txDescAvailable_iff.mp hC.2.1, hC.2.2⟩, ?_⟩
        -- the call that has just returned says busy and has freed the frame
        intro hsafe
        have hcall := (hsafe.contract _ (List.mem_append_right _ (List.mem_singleton_self _))).1
        simp [ifXmitDrop] at hcall
    · cases hstep
  | complete =>
    obtain ⟨info', events, heq, hqueue⟩ := h.queue.complete
    rw [heq] at hstep
    cases hstep
    exact Or.inl ⟨trivial, hqueue, h.requeued, h.contract, h.notReused, rfl⟩
  | dma wb =>
    refine Or.inl ⟨trivial, ?_⟩
    rw [Option.map_eq_some_iff] at hstep
    obtain ⟨info', hrel, rfl⟩ := hstep
    exact ⟨h.queue.release hrel, h.requeued, h.contract, h.notReused, rfl⟩

end XmitInv

/-- For every run in which the stack retries what it is told to keep: the contract is kept by
    every call, and no buffer is freed twice or used once freed, exactly when no call takes
    the drop path. -/
theorem xmitRun_safe_iff {info : SynDpTxInfo} {allocOk : Bool}
    (hsetup : synDpSetupTxDescQueue SynDpTxInfo.zero synDpTxDescSize .ringMode allocOk =
      .ok (0, info)) {as : List XmitLabel} {u : XmitRun}
    (hrun : run xmitStep (.start info) as = some u) :
    Always xmitStep XmitSafe (.start info) as ↔ StepsMeet xmitStep NotDropped (.start info) as := by
  have hstart : XmitInv (.start info) :=
    ⟨FrameQueueInv.start hsetup, rfl, fun _ hc => (List.not_mem_nil hc).elim, rfl, rfl⟩
  refine always_iff_stepsMeet (fun _ => XmitInv.safe) ?_ ?_ hstart hrun
  · intro s a t h hstep
    rcases h.step_cases hstep with ⟨hC, ht⟩ | ⟨hC, ht⟩
    · exact ⟨fun _ => ht.safe, fun _ => hC⟩
    · exact ⟨fun h => (hC h).elim, fun h => (ht h).elim⟩
  · intro s a t h hstep hsafe
    rcases h.step_cases hstep with ⟨_, ht⟩ | ⟨_, ht⟩
    · exact ht
    · exact (ht hsafe).elim

/-- One frame is sent and freed, and a second one queued. -/
def twoFrames : List XmitLabel :=
  [.xmit (byteFrame 0) (some 0#32), .dma 0#32, .complete, .xmit (byteFrame 1) (some 1#32)]

theorem xmitRun_safe_iff_two : ∃ u, run xmitStep (.start emptyRing) twoFrames = some u ∧
    (Always xmitStep XmitSafe (.start emptyRing) twoFrames ↔
      StepsMeet xmitStep NotDropped (.start emptyRing) twoFrames) := by
  have hsome : (run xmitStep (.start emptyRing) twoFrames).isSome = true := by decide +kernel
  obtain ⟨u, hrun⟩ := Option.isSome_iff_exists.mp hsome
  exact ⟨u, hrun, xmitRun_safe_iff emptyRing_setup hrun⟩

/-- A frame with one fragment. -/
def fragFrame : SkBuff := { byteFrame 0 with dataLen := 1, nrFrags := 1 }

/-- The stack is told to keep a frame with a fragment, hands it over again, and both calls
    have freed it. -/
theorem fragFrame_freed_twice : ∃ u,
    run xmitStep (.start emptyRing) [.xmit fragFrame none, .xmit fragFrame none] = some u ∧
    u.freed = [fragFrame, fragFrame] ∧ u.usedAfterFree = [fragFrame] ∧
    ¬ Always xmitStep XmitSafe (.start emptyRing)
      [.xmit fragFrame none, .xmit fragFrame none] := by
  have hfreed : (run xmitStep (.start emptyRing)
      [.xmit fragFrame none, .xmit fragFrame none]).map (fun u => (u.freed, u.usedAfterFree)) =
        some ([fragFrame, fragFrame], [fragFrame]) := by decide +kernel
  obtain ⟨u, hrun, hu⟩ := Option.map_eq_some_iff.mp hfreed
  obtain ⟨hfreed, hused⟩ := Prod.mk.inj hu
  refine ⟨u, hrun, hfreed, hused, fun hall => ?_⟩
  have hsafe := (hall.last hrun).freedOnce
  rw [hfreed] at hsafe
  exact absurd hsafe (by decide)

end NssDp.SynGmacDp
