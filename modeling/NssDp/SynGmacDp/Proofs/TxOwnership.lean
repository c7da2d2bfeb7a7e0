import NssDp.Misc.Lts
import NssDp.SynGmacDp.Proofs.TxInvariant

/-!
# Who owns a frame given to a Synopsys port

Whole `syn_dp_tx` calls, completions and the engine interleave. The ring is a queue: the
frames accepted so far are the frames freed so far followed by the frames the busy window
holds, in this order, so every accepted frame is in one slot or has been freed once.
-/

namespace NssDp.SynGmacDp

open Lts Cyclic Word

/-- The port and what has happened on it: the frames for which `syn_dp_tx` returned 0, every
    call on buffers and mappings, and the frees `syn_dp_process_tx_complete` made. -/
structure TxRun where
  info : SynDpTxInfo
  accepted : List SkBuff
  events : List KernelEvent
  byCompletion : List SkBuff
  bug : Option SynBug

/-- One call or one step of the engine. -/
inductive TxLabel where
  | tx (skb : SkBuff) (dma : Option (BitVec 32))
  | complete
  | dma (wb : BitVec 32)

/-- A port on which nothing has happened. -/
def TxRun.start (info : SynDpTxInfo) : TxRun := ⟨info, [], [], [], none⟩

/-- The stack does not hand over a frame again that it has given away. -/
def txStep (s : TxRun) (a : TxLabel) : Option TxRun :=
  if s.bug.isSome then none
  else
    match a with
    | .tx skb dma =>
      if skb.id ∈ s.accepted.map SkBuff.id then none
      else
        match synDpTx s.info skb dma with
        | .error bug => some { s with bug := some bug }
        | .ok r =>
          some { s with
            info := r.info
            events := s.events ++ r.events
            accepted := if r.ret = 0 then s.accepted ++ [skb] else s.accepted }
    | .complete =>
      match synDpProcessTxComplete s.info with
      | .error bug => some { s with bug := some bug }
      | .ok (info, events) =>
        some { s with
          info
          events := s.events ++ events
          byCompletion := s.byCompletion ++ freedSkbs events }
    | .dma wb => (dmaRelease s.info wb).map fun info => { s with info }

/-- The slot is in the ring and refers to the buffer. -/
def SynDpTxInfo.Holds (info : SynDpTxInfo) (skb : SkBuff) (i : Nat) : Prop :=
  i < info.txDescCount ∧ info.txSkbList i = some skb

/-- The ownership of frames and the shape of the ring, in the driver's terms. -/
structure TxOwned (s : TxRun) : Prop where
  noBug : s.bug = none
  freedByCompletion : freedSkbs s.events = s.byCompletion
  owned : ∀ skb ∈ s.accepted,
    ((∃! i, s.info.Holds skb i) ∧ (∀ i, s.info.Holds skb i → i ∈ s.info.busyWindow) ∧
        s.byCompletion.count skb = 0) ∨
      ((∀ i, ¬ s.info.Holds skb i) ∧ s.byCompletion.count skb = 1)
  inOrder : s.byCompletion <+: s.accepted
  txNext : s.info.txNext = (s.info.txBusy + s.info.busyTxDesc) % s.info.txDescCount
  outside : ∀ i < s.info.txDescCount, i ∉ s.info.busyWindow →
    s.info.txSkbList i = none ∧ (s.info.txDesc i).length = 0#32 ∧
      (s.info.txDesc i).status &&& ~~~descTxDescEndOfRing = 0#32
  endOfRing : ∀ i < s.info.txDescCount,
    (s.info.txDesc i).status &&& descTxDescEndOfRing = descTxDescEndOfRing ↔
      i + 1 = s.info.txDescCount

/-- The buffers of the busy window, oldest first. -/
def heldSkbs (info : SynDpTxInfo) : List (Option SkBuff) := info.busyWindow.map info.txSkbList

/-- No slot outside the busy window refers to a buffer. -/
def EmptyOutside (info : SynDpTxInfo) : Prop :=
  ∀ i < synDpTxDescSize, i ∉ info.busyWindow → info.txSkbList i = none

namespace TxRingInv

variable {info : SynDpTxInfo}

theorem heldSkbs_push (h : TxRingInv info) (hroom : info.busyTxDesc < synDpTxDescSize)
    (skb : SkBuff) (dmaAddr : BitVec 32) :
    heldSkbs (pushTx info skb dmaAddr) = heldSkbs info ++ [some skb] := by
  rw [heldSkbs, h.busyWindow_push, List.map_append]
  simp only [pushTx, List.map_cons, List.map_nil, Function.update_self]
  rw [map_update_of_notMem _ _ (h.next_notMem hroom), heldSkbs]

theorem heldSkbs_pop (h : TxRingInv info) (hbusy : 0 < info.busyTxDesc) (stats : TxStats) :
    heldSkbs info = info.txSkbList info.txBusy :: heldSkbs (popTx info stats) := by
  rw [heldSkbs, h.busyWindow_pop hbusy stats, List.map_cons, heldSkbs]
  congr 1
  exact (map_update_of_notMem info.txSkbList none (h.base_notMem_pop hbusy stats)).symm

theorem emptyOutside_push (h : TxRingInv info) (hempty : EmptyOutside info) (skb : SkBuff)
    (dmaAddr : BitVec 32) : EmptyOutside (pushTx info skb dmaAddr) := by
  intro i hlt hi
  rw [h.busyWindow_push, List.mem_append, List.mem_singleton, not_or] at hi
  simpa only [pushTx, Function.update_of_ne hi.2] using hempty i hlt hi.1

theorem emptyOutside_pop (h : TxRingInv info) (hbusy : 0 < info.busyTxDesc)
    (hempty : EmptyOutside info) (stats : TxStats) : EmptyOutside (popTx info stats) := by
  intro i hlt hi
  rcases eq_or_ne i info.txBusy with rfl | hne
  · exact Function.update_self _ _ _
  · have hout : i ∉ info.busyWindow := by
      rw [h.busyWindow_pop hbusy stats, List.mem_cons, not_or]
      exact ⟨hne, hi⟩
    simpa only [popTx, Function.update_of_ne hne] using hempty i hlt hout

end TxRingInv

/-- The ring as a queue of the frames `accepted`, of which `freed` have left it. -/
structure FrameQueueInv (info : SynDpTxInfo) (accepted freed : List SkBuff) : Prop where
  ring : TxRingInv info
  emptyOutside : EmptyOutside info
  conserved : accepted.map some = freed.map some ++ heldSkbs info
  fresh : (accepted.map SkBuff.id).Nodup

namespace FrameQueueInv

variable {info : SynDpTxInfo} {accepted freed : List SkBuff}

theorem start {allocOk : Bool}
    (hsetup : synDpSetupTxDescQueue SynDpTxInfo.zero synDpTxDescSize .ringMode allocOk =
      .ok (0, info)) : FrameQueueInv info [] [] := by
  have hinfo := synDpSetupTxDescQueue_ok hsetup
  refine ⟨TxRingInv.setup hsetup, ?_, ?_, List.nodup_nil⟩
  · intro i _ _
    rw [hinfo]
    rfl
  · rw [hinfo]
    rfl

/-- A new frame joins at the back. -/
theorem push (h : FrameQueueInv info accepted freed) (hroom : info.busyTxDesc < synDpTxDescSize)
    {skb : SkBuff} (hnew : skb.id ∉ accepted.map SkBuff.id) (dmaAddr : BitVec 32) :
    FrameQueueInv (pushTx info skb dmaAddr) (accepted ++ [skb]) freed := by
  refine ⟨h.ring.push hroom skb dmaAddr, h.ring.emptyOutside_push h.emptyOutside skb dmaAddr,
    ?_, ?_⟩
  · rw [h.ring.heldSkbs_push hroom, List.map_append, h.conserved, List.append_assoc]
    rfl
  · rw [List.map_append]
    refine List.nodup_append.mpr ⟨h.fresh, List.nodup_singleton _, ?_⟩
    intro id hid id' hid'
    rw [List.mem_singleton.mp hid']
    exact ne_of_mem_of_not_mem hid hnew

/-- A completion frees from the front. -/
theorem complete (h : FrameQueueInv info accepted freed) : ∃ info' events,
    synDpProcessTxComplete info = .ok (info', events) ∧
      FrameQueueInv info' accepted (freed ++ freedSkbs events) := by
  have hpop : ∀ info events skb stats, TxRingInv info → 0 < info.busyTxDesc →
      info.txSkbList info.txBusy = some skb →
      (info.txDesc info.txBusy).isDescOwnedByDma = false →
      (EmptyOutside info ∧
        accepted.map some = (freed ++ freedSkbs events).map some ++ heldSkbs info) →
      EmptyOutside (popTx info stats) ∧ accepted.map some =
        (freed ++ freedSkbs (events ++ completionCalls info skb)).map some ++
          heldSkbs (popTx info stats) := by
    rintro info events skb stats hring hbusy hskb - ⟨hempty, hcons⟩
    refine ⟨hring.emptyOutside_pop hbusy hempty stats, ?_⟩
    rw [hcons, hring.heldSkbs_pop hbusy stats, hskb, freedSkbs_append, freedSkbs_completionCalls]
    simp
  obtain ⟨info', events, heq, hring, hempty, hcons⟩ :=
    h.ring.processTxComplete_rule hpop []
      ⟨h.emptyOutside, by rw [h.conserved, freedSkbs_nil, List.append_nil]⟩
  exact ⟨info', events, heq, hring, hempty, hcons, h.fresh⟩

/-- The engine moves no frame. -/
theorem release (h : FrameQueueInv info accepted freed) {wb : BitVec 32} {info' : SynDpTxInfo}
    (hrel : dmaRelease info wb = some info') : FrameQueueInv info' accepted freed := by
  have hring := h.ring.release hrel
  obtain ⟨i, _, rfl⟩ := dmaRelease_eq hrel
  exact ⟨hring, h.emptyOutside, h.conserved, h.fresh⟩

/-- A slot that refers to a buffer lies in the window and so in the queue. -/
theorem mem_heldSkbs (h : FrameQueueInv info accepted freed) {skb : SkBuff} {i : Nat}
    (hi : info.Holds skb i) : i ∈ info.busyWindow ∧ some skb ∈ heldSkbs info := by
  obtain ⟨hlt, hskb⟩ := hi
  rw [h.ring.count] at hlt
  have hmem : i ∈ info.busyWindow := by
    by_contra hout
    rw [h.emptyOutside i hlt hout] at hskb
    cases hskb
  exact ⟨hmem, List.mem_map.mpr ⟨i, hmem, hskb⟩⟩

theorem nodup_queue (h : FrameQueueInv info accepted freed) :
    (freed.map some ++ heldSkbs info).Nodup := by
  rw [← h.conserved]
  exact h.fresh.of_map.map (Option.some_injective _)

theorem freed_nodup (h : FrameQueueInv info accepted freed) : freed.Nodup :=
  (List.nodup_append.mp h.nodup_queue).1.of_map

/-- A freed frame is in no slot. -/
theorem not_holds_of_freed (h : FrameQueueInv info accepted freed) {skb : SkBuff}
    (hskb : skb ∈ freed) (i : Nat) : ¬ info.Holds skb i := fun hi =>
  (List.nodup_append.mp h.nodup_queue).2.2 _ (List.mem_map_of_mem hskb) _ (h.mem_heldSkbs hi).2 rfl

/-- A frame in the window is in one slot. -/
theorem existsUnique_of_held (h : FrameQueueInv info accepted freed) {skb : SkBuff}
    (hheld : some skb ∈ heldSkbs info) : ∃! i, info.Holds skb i := by
  obtain ⟨i, hi, hskb⟩ := List.mem_map.mp hheld
  have hlt : i < info.txDescCount := by
    rw [h.ring.count]
    exact h.ring.lt_of_mem hi
  refine ⟨i, ⟨hlt, hskb⟩, fun j hj => ?_⟩
  have hnodup := (List.nodup_append.mp h.nodup_queue).2.1
  exact List.inj_on_of_nodup_map hnodup (h.mem_heldSkbs hj).1 hi (hj.2.trans hskb.symm)

/-- Every accepted frame is in one slot or has been freed once. -/
theorem owned_of_mem (h : FrameQueueInv info accepted freed) {skb : SkBuff}
    (hmem : skb ∈ accepted) :
    ((∃! i, info.Holds skb i) ∧ (∀ i, info.Holds skb i → i ∈ info.busyWindow) ∧
        freed.count skb = 0) ∨
      ((∀ i, ¬ info.Holds skb i) ∧ freed.count skb = 1) := by
  have hqueue : some skb ∈ freed.map some ++ heldSkbs info := by
    rw [← h.conserved]
    exact List.mem_map_of_mem hmem
  by_cases hfreed : skb ∈ freed
  · exact Or.inr ⟨h.not_holds_of_freed hfreed, List.count_eq_one_of_mem h.freed_nodup hfreed⟩
  · have hheld : some skb ∈ heldSkbs info :=
      (List.mem_append.mp hqueue).resolve_left fun hin => hfreed (by simpa using hin)
    exact Or.inl ⟨h.existsUnique_of_held hheld, fun i hi => (h.mem_heldSkbs hi).1,
      List.count_eq_zero.mpr hfreed⟩

theorem freed_prefix (h : FrameQueueInv info accepted freed) : freed <+: accepted := by
  have hpre : freed.map some <+: accepted.map some := by
    rw [h.conserved]
    exact List.prefix_append _ _
  obtain ⟨l, hl, heq⟩ := List.prefix_map_iff.mp hpre
  rw [List.map_injective_iff.mpr (Option.some_injective _) heq]
  exact hl

end FrameQueueInv

/-- What every step keeps. -/
structure TxRunInv (s : TxRun) : Prop where
  queue : FrameQueueInv s.info s.accepted (freedSkbs s.events)
  byCompletion : freedSkbs s.events = s.byCompletion
  bug : s.bug = none

namespace TxRunInv

variable {s : TxRun}

theorem step (h : TxRunInv s) {a : TxLabel} {t : TxRun} (hstep : txStep s a = some t) :
    TxRunInv t := by
  have hring := h.queue.ring
  unfold txStep at hstep
  simp only [h.bug, Option.isSome_none, Bool.false_eq_true, if_false] at hstep
  cases a with
  | tx skb dma =>
    simp only at hstep
    split at hstep
    · cases hstep
    · rename_i hnew
      by_cases hok : s.info.busyTxDesc < synDpTxDescSize ∧ dma.isSome = true
      · obtain ⟨hroom, hdma⟩ := hok
        obtain ⟨dmaAddr, rfl⟩ := Option.isSome_iff_exists.mp hdma
        rw [hring.tx_eq_push hroom] at hstep
        cases hstep
        refine ⟨?_, by simpa using h.byCompletion, rfl⟩
        simpa using h.queue.push hroom hnew dmaAddr
      · rw [hring.tx_eq_refuse skb dma hok] at hstep
        cases hstep
        refine ⟨?_, by simpa using h.byCompletion, rfl⟩
        simpa using h.queue
  | complete =>
    obtain ⟨info', events, heq, hqueue⟩ := h.queue.complete
    rw [heq] at hstep
    cases hstep
    refine ⟨?_, ?_, rfl⟩
    · rw [freedSkbs_append]
      exact hqueue
    · rw [freedSkbs_append, h.byCompletion]
  | dma wb =>
    rw [Option.map_eq_some_iff] at hstep
    obtain ⟨info', hrel, rfl⟩ := hstep
    exact ⟨h.queue.release hrel, h.byCompletion, rfl⟩

theorem txOwned (h : TxRunInv s) : TxOwned s := by
  have hring := h.queue.ring
  have hfreed := h.byCompletion
  refine ⟨h.bug, hfreed, fun skb hmem => ?_, ?_, ?_, ?_, ?_⟩
  · rw [← hfreed]
    exact h.queue.owned_of_mem hmem
  · rw [← hfreed]
    exact h.queue.freed_prefix
  · rw [hring.next, hring.count, slot]
  · rw [hring.count]
    intro i hlt hi
    obtain ⟨hlength, hstatus⟩ := hring.free i hlt hi
    refine ⟨h.queue.emptyOutside i hlt hi, hlength, ?_⟩
    rw [← hstatus, BitVec.and_assoc, BitVec.and_not_self]
    exact BitVec.and_zero
  · rw [hring.count]
    intro i hlt
    rw [hring.eor i hlt]
    split
    · simp [*, synDpTxDescSize]
    · rename_i hne
      refine iff_of_false (by decide) ?_
      unfold synDpTxDescSize at *
      omega

end TxRunInv

/-- For every run of serialised transmits, completions and engine steps: every accepted frame
    is in one slot or freed once, frames are freed in the order they were accepted, the ring
    keeps its shape, and a transmit that returns -1 changes nothing. -/
theorem txRun_owned {info : SynDpTxInfo} {allocOk : Bool}
    (hsetup : synDpSetupTxDescQueue SynDpTxInfo.zero synDpTxDescSize .ringMode allocOk =
      .ok (0, info)) {as : List TxLabel} {s : TxRun}
    (hrun : run txStep (.start info) as = some s) :
    TxOwned s ∧ ∀ skb dma, ∃ r, synDpTx s.info skb dma = .ok r ∧
      (r.ret = 0 ∨ r.ret = -1 ∧ r.info = s.info) := by
  have h : TxRunInv s := run_inv (fun _ _ _ h hstep => TxRunInv.step h hstep)
    ⟨FrameQueueInv.start hsetup, rfl, rfl⟩ hrun
  have hring := h.queue.ring
  refine ⟨h.txOwned, fun skb dma => ?_⟩
  by_cases hok : s.info.busyTxDesc < synDpTxDescSize ∧ dma.isSome = true
  · obtain ⟨hroom, hdma⟩ := hok
    obtain ⟨dmaAddr, rfl⟩ := Option.isSome_iff_exists.mp hdma
    exact ⟨_, hring.tx_eq_push hroom skb dmaAddr, Or.inl rfl⟩
  · exact ⟨_, hring.tx_eq_refuse skb dma hok, Or.inr ⟨rfl, rfl⟩⟩

/-- Two frames are accepted and one is refused; the engine sends the first, which is freed. -/
def mixedTraffic : List TxLabel :=
  [.tx (byteFrame 0) (some 0#32), .tx (byteFrame 1) none, .tx (byteFrame 2) (some 1#32),
    .dma 0#32, .complete]

theorem txRun_owned_mixed : ∃ s, run txStep (.start emptyRing) mixedTraffic = some s ∧
    TxOwned s ∧ ∀ skb dma, ∃ r, synDpTx s.info skb dma = .ok r ∧
      (r.ret = 0 ∨ r.ret = -1 ∧ r.info = s.info) := by
  have hsome : (run txStep (.start emptyRing) mixedTraffic).isSome = true := by decide +kernel
  obtain ⟨s, hrun⟩ := Option.isSome_iff_exists.mp hsome
  exact ⟨s, hrun, txRun_owned emptyRing_setup hrun⟩

end NssDp.SynGmacDp
