import NssDp.Misc.Simulation
import NssDp.SynGmacDp.Proofs.PortStats
import NssDp.SynGmacDp.Proofs.RxAccounts
import NssDp.SynGmacDp.Proofs.TxAccounts

/-!
# The two sides of every port

A run of the whole data plane, with polls, transmits and engine steps of all ports in any order,
is for each port a run of its transmit ring and a run of its receive ring, under the labels that
are theirs. A poll is a completion on the one, and a receive call and a refill on the other. So
what holds of a ring by itself holds of it in the data plane.
-/

namespace NssDp.SynGmacDp

open Lts

namespace DpLabel

/-- What a step does to the transmit ring of port `p`. -/
def txLabels (p : Nat) (a : DpLabel) : List XmitLabel :=
  if a.macid = p then
    match a with
    | .poll _ _ => [.complete]
    | .xmit _ skb dma => [.xmit skb dma]
    | .getStats _ => []
    | .dmaRelease _ wb => [.dma wb]
    | .dmaReceive _ _ => []
  else []

/-- What a step does to the receive ring of port `p`. -/
def rxLabels (p : Nat) (a : DpLabel) : List RxLabel :=
  if a.macid = p then
    match a with
    | .poll _ env => [.rx env.budget, .refill env.allocs]
    | .xmit _ _ _ => []
    | .getStats _ => []
    | .dmaRelease _ _ => []
    | .dmaReceive _ wb => [.dma wb]
  else []

/-- The buffers that the allocator has for a poll of port `p`. -/
def offered (p : Nat) (a : DpLabel) : List RxSkb :=
  match a with
  | .poll macid env => if macid = p then env.allocs.filterMap RxAlloc.skb else []
  | _ => []

/-- A transmit call on port `p`. -/
def isXmitOf (p : Nat) (a : DpLabel) : Bool :=
  match a with
  | .xmit macid _ _ => macid == p
  | _ => false

theorem txLabels_ne {p : Nat} {a : DpLabel} (h : a.macid ≠ p) : a.txLabels p = [] := by
  unfold txLabels
  rw [if_neg h]

theorem rxLabels_ne {p : Nat} {a : DpLabel} (h : a.macid ≠ p) : a.rxLabels p = [] := by
  unfold rxLabels
  rw [if_neg h]

end DpLabel

/-- The entry of a port whose two rings have been set up. -/
def SynDpInfo.SetUp (e : SynDpInfo) : Prop :=
  (∃ allocOk, synDpSetupTxDescQueue SynDpTxInfo.zero synDpTxDescSize .ringMode allocOk =
      .ok (0, e.tx)) ∧
    ∃ allocOk, synDpSetupRxDescQueue SynDpRxInfo.zero synDpRxDescSize .ringMode allocOk =
      .ok (0, e.rx)

/-! What calls were made before changes nothing -/

/-- The port after the calls `es` and its own. -/
def RxPort.after (es : List RxEvent) (s : RxPort) : RxPort := ⟨s.info, es ++ s.events⟩

section After

variable {s t : RxPort} (es : List RxEvent)

theorem emit_after (es' : List RxEvent) : (s.after es).emit es' = (s.emit es').after es := by
  rw [RxPort.emit, RxPort.emit, RxPort.after, RxPort.after, List.append_assoc]

theorem rxRefillLoop_after : ∀ (emptyCount : Nat) (allocs : List RxAlloc) {s : RxPort},
    rxRefillLoop emptyCount allocs s = .ok t →
      rxRefillLoop emptyCount allocs (s.after es) = .ok (t.after es) := by
  intro emptyCount
  induction emptyCount with
  | zero =>
    intro allocs s h
    simp only [rxRefillLoop, Except.ok.injEq] at h ⊢
    rw [h]
  | succ emptyCount ih =>
    intro allocs s h
    cases allocs with
    | nil =>
      simp only [rxRefillLoop, Except.ok.injEq] at h ⊢
      rw [h]
    | cons alloc allocs =>
      cases alloc with
      | noSkb =>
        simp only [rxRefillLoop, Except.ok.injEq] at h ⊢
        rw [h]
      | noMapping skb =>
        simp only [rxRefillLoop, Except.ok.injEq] at h ⊢
        rw [emit_after, h]
      | mapped skb dmaAddr =>
        simp only [rxRefillLoop, emit_after] at h ⊢
        split at h
        · cases h
        · rename_i info hset
          have hset' : synDpSetRxQptr ((s.emit [.allocSkb skb, .dmaMapSingle .pdev dmaAddr
              synDpMiniJumboFrameMtu .fromDevice]).after es).info dmaAddr
              (BitVec.ofNat 32 synDpMiniJumboFrameMtu) skb = .ok info := hset
          rw [hset']
          exact ih allocs h

theorem synDpRxRefill_after {allocs : List RxAlloc} (h : synDpRxRefill s allocs = .ok t) :
    synDpRxRefill (s.after es) allocs = .ok (t.after es) := rxRefillLoop_after es _ allocs h

theorem rxHandOver_after {rxSkb : Option RxSkb} {status : BitVec 32}
    (h : rxHandOver s rxSkb status = .ok t) :
    rxHandOver (s.after es) rxSkb status = .ok (t.after es) := by
  unfold rxHandOver at h ⊢
  split
  · rename_i hvalid
    rw [if_pos hvalid] at h
    cases rxSkb with
    | none => cases h
    | some skb =>
      simp only at h ⊢
      split
      · rename_i hput
        rw [if_pos hput] at h
        cases h
      · rename_i hput
        rw [if_neg hput] at h
        cases h
        simp only [RxPort.after, RxPort.emit, List.append_assoc]
  · rename_i hvalid
    rw [if_neg hvalid] at h
    cases h
    simp only [RxPort.after, RxPort.emit, List.append_assoc]

theorem rxOne_after (h : rxOne s = .ok t) : rxOne (s.after es) = .ok (t.after es) := by
  unfold rxOne at h ⊢
  simp only [emit_after] at h ⊢
  split at h
  · cases h
  · rename_i u hover
    have hover' := rxHandOver_after es hover
    split at h
    · cases h
    · rename_i info hreset
      have hreset' : synDpResetRxQptr (u.after es).info = .ok info := hreset
      cases h
      simp only [RxPort.after] at hover' hreset' ⊢
      rw [hover']
      simp only [hreset']

theorem rxLoop_after : ∀ (turns : Nat) {s t : RxPort} {made : Nat},
    rxLoop turns s = .ok (made, t) → rxLoop turns (s.after es) = .ok (made, t.after es) := by
  intro turns
  induction turns with
  | zero =>
    intro s t made h
    cases h
    rfl
  | succ turns ih =>
    intro s t made h
    rw [rxLoop] at h ⊢
    split
    · rename_i howned
      have howned : (s.info.rxDesc s.info.rxBusyDesc).isDescOwnedByDma = true := howned
      rw [if_pos howned] at h
      cases h
      rfl
    · rename_i howned
      have howned : ¬ (s.info.rxDesc s.info.rxBusyDesc).isDescOwnedByDma = true := howned
      rw [if_neg howned] at h
      split at h
      · cases h
      · rename_i u hone
        split at h
        · cases h
        · rename_i made' t' hloop
          cases h
          rw [rxOne_after es hone]
          simp only [ih hloop]

theorem synDpRx_after {budget ret : Int} (h : synDpRx s budget = .ok (ret, t)) :
    synDpRx (s.after es) budget = .ok (ret, t.after es) := by
  unfold synDpRx at h ⊢
  split
  · rename_i hbusy
    have hbusy : s.info.busyRxDesc = 0 := hbusy
    rw [if_pos hbusy] at h
    cases h
    rfl
  · rename_i hbusy
    have hbusy : ¬ s.info.busyRxDesc = 0 := hbusy
    rw [if_neg hbusy] at h
    simp only at h ⊢
    split at h
    · cases h
    · rename_i made t' hloop
      cases h
      have hloop' := rxLoop_after es _ hloop
      simp only [RxPort.after] at hloop' ⊢
      rw [hloop']

end After

/-! The buffers that are allocated -/

/-- A refill allocates some of the buffers there are, in their order. -/
theorem rxRefillLoop_allocated : ∀ (emptyCount : Nat) (allocs : List RxAlloc) {s t : RxPort},
    rxRefillLoop emptyCount allocs s = .ok t → ∃ skbs,
      allocatedSkbs t.events = allocatedSkbs s.events ++ skbs ∧
        skbs.Sublist (allocs.filterMap RxAlloc.skb) := by
  intro emptyCount
  induction emptyCount with
  | zero =>
    intro allocs s t h
    simp only [rxRefillLoop, Except.ok.injEq] at h
    exact ⟨[], by rw [h, List.append_nil], List.nil_sublist _⟩
  | succ emptyCount ih =>
    intro allocs s t h
    cases allocs with
    | nil =>
      simp only [rxRefillLoop, Except.ok.injEq] at h
      exact ⟨[], by rw [h, List.append_nil], List.nil_sublist _⟩
    | cons alloc allocs =>
      cases alloc with
      | noSkb =>
        simp only [rxRefillLoop, Except.ok.injEq] at h
        exact ⟨[], by rw [h, List.append_nil], List.nil_sublist _⟩
      | noMapping skb =>
        simp only [rxRefillLoop, Except.ok.injEq] at h
        rw [← h]
        exact ⟨[skb], allocatedSkbs_append _ _, (List.nil_sublist _).cons_cons skb⟩
      | mapped skb dmaAddr =>
        simp only [rxRefillLoop] at h
        split at h
        · cases h
        · rename_i info hset
          obtain ⟨skbs, heq, hsub⟩ := ih allocs h
          refine ⟨skb :: skbs, ?_, hsub.cons_cons skb⟩
          rw [heq, RxPort.emit, allocatedSkbs_append, List.append_assoc]
          rfl

theorem allocatedSkbs_handCalls (fills : List RxFill) :
    allocatedSkbs (handCalls (fills.map RxFill.call)) = [] := by
  rw [allocatedSkbs, List.filterMap_eq_nil_iff]
  intro e he
  obtain ⟨call, hcall, he⟩ := List.mem_flatMap.mp he
  obtain ⟨fill, -, rfl⟩ := List.mem_map.mp hcall
  rcases List.mem_cons.mp he with rfl | he
  · rfl
  · rw [List.mem_singleton.mp he]
    exact handOverCall_allocated _ _

/-! What a step does to the rings of each port -/

section Steps

variable {ports p : Nat} {s t : DpRun} {a : DpLabel} {as : List DpLabel}

theorem synUpdateMissed_rings (dpInfo : Nat → SynDpInfo) (env : NapiEnv) (q : Nat) :
    (synUpdateMissed dpInfo env q).tx = (dpInfo q).tx ∧
      (synUpdateMissed dpInfo env q).rx = (dpInfo q).rx := by
  by_cases hq : q = 0
  · rw [hq, synUpdateMissed, Function.update_self]
    exact ⟨rfl, rfl⟩
  · rw [synUpdateMissed_ne _ _ hq]
    exact ⟨rfl, rfl⟩

/-- What a poll that returns has done with the rings of its port. -/
theorem napiPoll_rings {dpInfo : Nat → SynDpInfo} {macid : Nat} {env : NapiEnv} {r : NapiPoll}
    (hpoll : synDpNapiPoll dpInfo macid env = .ok r) : ∃ txEvents ret port port',
      synDpProcessTxComplete (dpInfo (macid - 1)).tx =
          .ok ((r.dpInfo (macid - 1)).tx, txEvents) ∧
        synDpRx ⟨(dpInfo (macid - 1)).rx, []⟩ env.budget = .ok (ret, port) ∧
        synDpRxRefill port env.allocs = .ok port' ∧ (r.dpInfo (macid - 1)).rx = port'.info := by
  obtain ⟨htx, hrx⟩ := synUpdateMissed_rings dpInfo env (macid - 1)
  unfold synDpNapiPoll at hpoll
  simp only [htx, hrx] at hpoll
  split at hpoll
  · cases hpoll
  · rename_i tx txEvents hcomplete
    split at hpoll
    · cases hpoll
    · rename_i ret port hreceive
      split at hpoll
      · cases hpoll
      · rename_i port' hrefill
        cases hpoll
        refine ⟨txEvents, ret, port, port', ?_, hreceive, hrefill, ?_⟩
        · simp only [Function.update_self]
          exact hcomplete
        · simp only [Function.update_self]

/-- The rings of the other ports are left alone. -/
theorem dpStep_rings_ne (hstep : dpStep ports s a = some t) {q : Nat} (hq : q ≠ a.entry) :
    (t.dpInfo q).tx = (s.dpInfo q).tx ∧ (t.dpInfo q).rx = (s.dpInfo q).rx := by
  by_cases hpoll : ∃ macid env, a = .poll macid env
  · obtain ⟨macid, env, rfl⟩ := hpoll
    obtain ⟨-, r, hr, rfl⟩ := dpStep_poll hstep
    show (r.dpInfo q).tx = _ ∧ (r.dpInfo q).rx = _
    rw [(napiPoll_frame hr).1 q hq]
    exact synUpdateMissed_rings _ _ _
  · obtain ⟨-, e, -, heq⟩ := dpStep_other hstep fun macid env h => hpoll ⟨macid, env, h⟩
    rw [heq, Function.update_of_ne hq]
    exact ⟨rfl, rfl⟩

theorem entry_ne (hp : 1 ≤ p) (hstep : dpStep ports s a = some t) (hmacid : a.macid ≠ p) :
    p - 1 ≠ a.entry := by
  have hport := port_of_step hstep
  rw [DpLabel.entry]
  omega

theorem setEntry_own (s : DpRun) (a : DpLabel) (e : SynDpInfo) :
    (s.setEntry a e).dpInfo a.entry = e := Function.update_self _ _ _

/-- What a step does to the rings of its own port. -/
theorem dpStep_own (hstep : dpStep ports s a = some t) :
    (∃ macid env r, a = .poll macid env ∧ synDpNapiPoll s.dpInfo macid env = .ok r ∧
        t.dpInfo = r.dpInfo) ∨
      (∃ macid skb dma r, a = .xmit macid skb dma ∧
        synDpIfXmit (s.dpInfo a.entry).tx skb dma = .ok r ∧
        (t.dpInfo a.entry).tx = r.info ∧ (t.dpInfo a.entry).rx = (s.dpInfo a.entry).rx) ∨
      (∃ macid, a = .getStats macid ∧ t.dpInfo = s.dpInfo) ∨
      (∃ macid wb, a = .dmaRelease macid wb ∧
        dmaRelease (s.dpInfo a.entry).tx wb = some (t.dpInfo a.entry).tx ∧
        (t.dpInfo a.entry).rx = (s.dpInfo a.entry).rx) ∨
      ∃ macid wb, a = .dmaReceive macid wb ∧
        dmaReceive (s.dpInfo a.entry).rx wb = some (t.dpInfo a.entry).rx ∧
        (t.dpInfo a.entry).tx = (s.dpInfo a.entry).tx := by
  have hdoes := hstep
  unfold dpStep at hdoes
  split at hdoes
  case isFalse => cases hdoes
  case isTrue =>
    cases a with
    | poll macid env =>
      obtain ⟨-, r, hr, rfl⟩ := dpStep_poll hstep
      exact Or.inl ⟨macid, env, r, rfl, hr, rfl⟩
    | xmit macid skb dma =>
      simp only at hdoes
      split at hdoes
      · cases hdoes
      · rename_i r hxmit
        cases hdoes
        rw [setEntry_own]
        exact Or.inr (Or.inl ⟨macid, skb, dma, r, rfl, hxmit, rfl, rfl⟩)
    | getStats macid =>
      cases hdoes
      exact Or.inr (Or.inr (Or.inl ⟨macid, rfl, rfl⟩))
    | dmaRelease macid wb =>
      obtain ⟨tx, hrel, rfl⟩ := Option.map_eq_some_iff.mp hdoes
      rw [setEntry_own]
      exact Or.inr (Or.inr (Or.inr (Or.inl ⟨macid, wb, rfl, hrel, rfl⟩)))
    | dmaReceive macid wb =>
      obtain ⟨rx, hrel, rfl⟩ := Option.map_eq_some_iff.mp hdoes
      rw [setEntry_own]
      exact Or.inr (Or.inr (Or.inr (Or.inr ⟨macid, wb, rfl, hrel, rfl⟩)))

/-- On the transmit ring of a port a step is what its labels say. -/
theorem dpStep_tx (hp : 1 ≤ p) (hstep : dpStep ports s a = some t) :
    run txPortStep (s.dpInfo (p - 1)).tx (a.txLabels p) = some (t.dpInfo (p - 1)).tx := by
  by_cases hmacid : a.macid = p
  · rw [← hmacid]
    unfold DpLabel.txLabels
    rw [if_pos rfl]
    rcases dpStep_own hstep with ⟨macid, env, r, rfl, hr, ht⟩ |
      ⟨macid, skb, dma, r, rfl, hxmit, htx, -⟩ | ⟨macid, rfl, ht⟩ |
      ⟨macid, wb, rfl, hrel, -⟩ | ⟨macid, wb, rfl, -, htx⟩
    · obtain ⟨txEvents, ret, port, port', hcomplete, -⟩ := napiPoll_rings hr
      show (txPortStep (s.dpInfo (macid - 1)).tx .complete).bind some =
        some (t.dpInfo (macid - 1)).tx
      rw [txPortStep, hcomplete, ht]
      rfl
    · show (txPortStep (s.dpInfo (DpLabel.xmit macid skb dma).entry).tx (.xmit skb dma)).bind some =
        some (t.dpInfo (DpLabel.xmit macid skb dma).entry).tx
      rw [txPortStep, hxmit, htx]
      rfl
    · rw [ht]
      rfl
    · show (dmaRelease (s.dpInfo (DpLabel.dmaRelease macid wb).entry).tx wb).bind some = _
      rw [hrel]
      rfl
    · exact congrArg some htx.symm
  · rw [DpLabel.txLabels_ne hmacid, (dpStep_rings_ne hstep (entry_ne hp hstep hmacid)).1]
    rfl

/-- The receive ring of port `p` as a system of its own: what it has been offered and what it is
    still to be offered are different buffers. -/
structure RxSide (p : Nat) (as : List DpLabel) (s : DpRun) (r : RxRun) : Prop where
  inv : RxOrderInv r
  runs : r.bug = none
  info : r.port.info = (s.dpInfo (p - 1)).rx
  fresh : ((allocatedSkbs r.port.events ++ as.flatMap (DpLabel.offered p)).map RxSkb.id).Nodup

/-- A step that does nothing on the receive ring. -/
theorem RxSide.quiet {r : RxRun} (h : RxSide p (a :: as) s r)
    (hrx : (t.dpInfo (p - 1)).rx = (s.dpInfo (p - 1)).rx) : RxSide p as t r := by
  refine ⟨h.inv, h.runs, h.info.trans hrx.symm, h.fresh.sublist (List.Sublist.map _ ?_)⟩
  rw [List.flatMap_cons]
  exact (List.sublist_append_right _ _).append_left _

theorem rxStep_rx {r : RxRun} (hbug : r.bug = none) {budget ret : Int} {port : RxPort}
    (hrx : synDpRx r.port budget = .ok (ret, port)) :
    rxStep r (.rx budget) = some ⟨port, none⟩ := by
  unfold rxStep
  simp only [hbug, Option.isSome_none, Bool.false_eq_true, if_false, hrx]
  rfl

theorem rxStep_refill {r : RxRun} (hbug : r.bug = none) {allocs : List RxAlloc} {port : RxPort}
    (hfresh : FreshAllocs r.port allocs) (hrefill : synDpRxRefill r.port allocs = .ok port) :
    rxStep r (.refill allocs) = some ⟨port, none⟩ := by
  unfold rxStep
  simp only [hbug, Option.isSome_none, Bool.false_eq_true, if_false, hfresh, if_true, hrefill]
  rfl

/-- A poll of the port is a receive call and a refill. -/
theorem RxSide.poll {r : RxRun} {macid : Nat} {env : NapiEnv}
    (h : RxSide macid (.poll macid env :: as) s r) {port port' : RxPort} {ret : Int}
    (hrx : synDpRx ⟨(s.dpInfo (macid - 1)).rx, []⟩ env.budget = .ok (ret, port))
    (hrefill : synDpRxRefill port env.allocs = .ok port')
    (ht : (t.dpInfo (macid - 1)).rx = port'.info) :
    ∃ r', run rxStep r [.rx env.budget, .refill env.allocs] = some r' ∧ RxSide macid as t r' := by
  have hport : r.port = RxPort.after r.port.events ⟨(s.dpInfo (macid - 1)).rx, []⟩ := by
    rw [RxPort.after, List.append_nil, ← h.info]
  have hrx' := synDpRx_after r.port.events hrx
  rw [← hport] at hrx'
  have hstep₁ := rxStep_rx h.runs hrx'
  have hsame : allocatedSkbs (port.after r.port.events).events = allocatedSkbs r.port.events := by
    rcases h.inv.run.port.rx_takes h.inv.split env.budget with ⟨ret', u, fills, heq, htakes⟩ |
      ⟨_, u, fills, fill, heq, -⟩
    · cases hrx'.symm.trans heq
      rw [htakes.events, allocatedSkbs_append, allocatedSkbs_handCalls, List.append_nil]
    · cases hrx'.symm.trans heq
  have hoffered : (List.flatMap (DpLabel.offered macid) (.poll macid env :: as)) =
      env.allocs.filterMap RxAlloc.skb ++ as.flatMap (DpLabel.offered macid) := by
    rw [List.flatMap_cons]
    exact congrArg (· ++ _) (if_pos rfl)
  have hall := h.fresh
  rw [hoffered, ← List.append_assoc, ← hsame] at hall
  have hfresh : FreshAllocs (port.after r.port.events) env.allocs :=
    hall.sublist ((List.sublist_append_left _ _).map _)
  have hstep₂ := rxStep_refill (r := ⟨port.after r.port.events, none⟩) rfl hfresh
    (synDpRxRefill_after r.port.events hrefill)
  have hinv := ((h.inv.moves hstep₁).next.moves hstep₂).next
  refine ⟨⟨port'.after r.port.events, none⟩, ?_, hinv, rfl, ht.symm, ?_⟩
  · rw [run_cons, hstep₁, Option.bind_some, run_cons, hstep₂]
    rfl
  · obtain ⟨skbs, heq, hsub⟩ :=
      rxRefillLoop_allocated _ _ (synDpRxRefill_after r.port.events hrefill)
    rw [heq]
    exact hall.sublist (((hsub.append_left _).append_right _).map _)

/-- On the receive ring of a port a step is what its labels say. -/
theorem RxSide.step {r : RxRun} (hp : 1 ≤ p) (h : RxSide p (a :: as) s r)
    (hstep : dpStep ports s a = some t) :
    ∃ r', run rxStep r (a.rxLabels p) = some r' ∧ RxSide p as t r' := by
  by_cases hmacid : a.macid = p
  · subst hmacid
    unfold DpLabel.rxLabels
    rw [if_pos rfl]
    rcases dpStep_own hstep with ⟨macid, env, poll, rfl, hr, ht⟩ |
      ⟨macid, skb, dma, x, rfl, -, -, hrx⟩ | ⟨macid, rfl, ht⟩ |
      ⟨macid, wb, rfl, -, hrx⟩ | ⟨macid, wb, rfl, hrel, -⟩
    · obtain ⟨txEvents, ret, port, port', -, hrx, hrefill, hinfo⟩ := napiPoll_rings hr
      exact h.poll hrx hrefill (by rw [ht]; exact hinfo)
    · exact ⟨r, rfl, h.quiet hrx⟩
    · exact ⟨r, rfl, h.quiet (by rw [ht])⟩
    · exact ⟨r, rfl, h.quiet hrx⟩
    · have hrel : dmaReceive r.port.info wb = some (t.dpInfo (macid - 1)).rx := by
        rw [h.info]
        exact hrel
      have hone : rxStep r (.dma wb) =
          some { r with port := { r.port with info := (t.dpInfo (macid - 1)).rx } } := by
        unfold rxStep
        simp only [h.runs, Option.isSome_none, Bool.false_eq_true, if_false, hrel]
        rfl
      refine ⟨_, ?_, (h.inv.moves hone).next, h.runs, rfl, ?_⟩
      · rw [run_cons, hone]
        rfl
      · exact h.fresh
  · rw [DpLabel.rxLabels_ne hmacid]
    exact ⟨r, rfl, h.quiet (dpStep_rings_ne hstep (entry_ne hp hstep hmacid)).2⟩

end Steps

/-- A poll stops in `skb_put` only. -/
theorem napiPoll_bug {dpInfo : Nat → SynDpInfo} {macid : Nat} {env : NapiEnv} {bug : SynPollBug}
    (htx : TxPortInv (dpInfo (macid - 1)).tx) (hrx : RxRingInv (dpInfo (macid - 1)).rx)
    (hpoll : synDpNapiPoll dpInfo macid env = .error bug) : bug = .rx .skbOverPanic := by
  obtain ⟨htxSame, hrxSame⟩ := synUpdateMissed_rings dpInfo env (macid - 1)
  obtain ⟨tx, txEvents, hcomplete, -⟩ := htx.processTxComplete
  have hreceive := RxRingInv.rx_turns (s := ⟨(dpInfo (macid - 1)).rx, []⟩)
    (P := fun _ => True) (R := fun _ => True) (fun _ _ _ _ _ _ _ => trivial)
    (fun _ _ _ _ _ _ _ => trivial) hrx trivial env.budget
  unfold synDpNapiPoll at hpoll
  simp only [htxSame, hrxSame, hcomplete] at hpoll
  rcases hreceive with ⟨ret, port, heq, hring, -⟩ | ⟨port, heq, -⟩
  · obtain ⟨port', hrefill, -⟩ := RxRingInv.refill_rule (P := fun _ => True)
      (Q := fun _ _ => True) (fun _ _ _ _ _ _ _ => trivial) (fun _ _ _ _ _ => trivial)
      (fun _ _ _ => trivial) env.allocs hring trivial
    rw [heq] at hpoll
    simp only [hrefill] at hpoll
    cases hpoll
  · rw [heq] at hpoll
    cases hpoll
    rfl

theorem countP_txLabels (p : Nat) (as : List DpLabel) :
    (as.flatMap (DpLabel.txLabels p)).countP XmitLabel.isXmit = as.countP (DpLabel.isXmitOf p) := by
  induction as with
  | nil => rfl
  | cons a as ih =>
    rw [List.flatMap_cons, List.countP_append, List.countP_cons, ih, Nat.add_comm]
    congr 1
    by_cases hmacid : a.macid = p
    · unfold DpLabel.txLabels
      rw [if_pos hmacid]
      cases a with
      | xmit macid skb dma =>
        have hmacid : macid = p := hmacid
        rw [hmacid, DpLabel.isXmitOf, beq_self_eq_true]
        rfl
      | poll => rfl
      | getStats => rfl
      | dmaRelease => rfl
      | dmaReceive => rfl
    · rw [DpLabel.txLabels_ne hmacid]
      cases a with
      | xmit macid skb dma =>
        have hmacid : (macid == p) = false := beq_eq_false_iff_ne.mpr hmacid
        rw [DpLabel.isXmitOf, hmacid]
        rfl
      | poll => rfl
      | getStats => rfl
      | dmaRelease => rfl
      | dmaReceive => rfl

/-- In every run of polls, transmits, statistics reads and engine steps on any ports whose rings
    have been set up, where the allocator gives a port no buffer twice: for each port, the transmit
    ring and the receive ring are where runs of these rings alone lead, under the labels of the
    port. So whatever the other ports do, the transmit counters and the ring account for its
    transmit calls, and the receive counters and the ring for the buffers its polls have posted;
    and a poll of the port stops in `skb_put` only. -/
theorem dpRun_sides {ports : Nat} {dpInfo : Nat → SynDpInfo}
    (hsetup : ∀ p, 1 ≤ p → p ≤ ports → (dpInfo (p - 1)).SetUp) {as : List DpLabel} {u : DpRun}
    (hrun : run (dpStep ports) (.start dpInfo) as = some u) {p : Nat} (hp : 1 ≤ p)
    (hports : p ≤ ports) (hfresh : ((as.flatMap (DpLabel.offered p)).map RxSkb.id).Nodup) :
    run txPortStep (dpInfo (p - 1)).tx (as.flatMap (DpLabel.txLabels p)) =
        some (u.dpInfo (p - 1)).tx ∧
      (∃ r, run rxStep (.start (dpInfo (p - 1)).rx) (as.flatMap (DpLabel.rxLabels p)) = some r ∧
        r.bug = none ∧ r.port.info = (u.dpInfo (p - 1)).rx) ∧
      BitVec.ofNat 64 (as.countP (DpLabel.isXmitOf p)) =
        (u.dpInfo (p - 1)).tx.stats.txDropped + (u.dpInfo (p - 1)).tx.stats.txPackets +
          (u.dpInfo (p - 1)).tx.stats.txErrors +
          BitVec.ofNat 64 (u.dpInfo (p - 1)).tx.busyTxDesc ∧
      BitVec.ofNat 64 (trace rxStep RxRun.posts (.start (dpInfo (p - 1)).rx)
          (as.flatMap (DpLabel.rxLabels p))).length =
        (u.dpInfo (p - 1)).rx.stats.rxPackets + (u.dpInfo (p - 1)).rx.stats.rxErrors +
          BitVec.ofNat 64 (u.dpInfo (p - 1)).rx.busyRxDesc ∧
      ∀ env bug, synDpNapiPoll u.dpInfo p env = .error bug → bug = .rx .skbOverPanic := by
  obtain ⟨⟨_, htx⟩, ⟨_, hrx⟩⟩ := hsetup p hp hports
  have htxRun : run txPortStep (dpInfo (p - 1)).tx (as.flatMap (DpLabel.txLabels p)) =
      some (u.dpInfo (p - 1)).tx := by
    have hsteps : ∀ a (_ : List DpLabel) s t x, x = (s.dpInfo (p - 1)).tx →
        dpStep ports s a = some t →
        ∃ y, run txPortStep x (a.txLabels p) = some y ∧ y = (t.dpInfo (p - 1)).tx := by
      rintro a _ s t _ rfl hstep
      exact ⟨_, dpStep_tx hp hstep, rfl⟩
    obtain ⟨y, hy, hlast⟩ := run_simulates (R := fun _ s x => x = (s.dpInfo (p - 1)).tx)
      hsteps rfl hrun
    rw [← hlast]
    exact hy
  have hside : RxSide p as (.start dpInfo) (.start (dpInfo (p - 1)).rx) :=
    ⟨(RxOrderInv.setup hrx).1, rfl, rfl, hfresh⟩
  have hsteps : ∀ a as s t r, RxSide p (a :: as) s r → dpStep ports s a = some t →
      ∃ r', run rxStep r (a.rxLabels p) = some r' ∧ RxSide p as t r' :=
    fun _ _ _ _ _ h hstep => h.step hp hstep
  obtain ⟨r, hrxRun, hlast⟩ := run_simulates (R := RxSide p) hsteps hside hrun
  refine ⟨htxRun, ⟨r, hrxRun, hlast.runs, hlast.info⟩, ?_, ?_, ?_⟩
  · rw [← countP_txLabels]
    exact txPort_counts htx htxRun
  · have hcounts := rxPort_counts hrx hrxRun
    have hruns : r.panicked = [] := by
      rw [RxRun.panicked, hlast.runs]
      rfl
    rwa [hlast.info, hruns] at hcounts
  · have hkept : ∀ s a t, TxPortInv s → txPortStep s a = some t → TxPortInv t :=
      fun _ _ _ h hstep => (h.moves hstep).next
    have hring := hlast.inv.run.port.ring
    rw [hlast.info] at hring
    exact fun env bug hpoll =>
      napiPoll_bug (run_inv hkept (TxPortInv.setup htx).1 htxRun) hring hpoll

/-- A poll of the second port posts two buffers; the first port transmits a frame, which is sent;
    the second port receives a frame, and another poll takes it. -/
def bothPorts : List DpLabel :=
  [.poll 2 ⟨64, 0#32, 0#32, [.mapped ⟨0, 2000⟩ 0x1000#32, .mapped ⟨1, 2000⟩ 0x2000#32]⟩,
    .xmit 1 (byteFrame 0) (some 0#32), .dmaReceive 2 ⟨0x00400300#32, 0#32, 0#32, 0#32⟩,
    .dmaRelease 1 0#32, .poll 2 ⟨64, 0#32, 0#32, []⟩, .poll 1 ⟨64, 0#32, 0#32, []⟩]

theorem dpRun_sides_both : ∃ u,
    run (dpStep 2) (.start fun _ => ⟨emptyRing, emptyRxRing, 0#64⟩) bothPorts = some u ∧
      (u.dpInfo 0).tx.stats.txPackets = 1#64 ∧ (u.dpInfo 1).rx.stats.rxPackets = 1#64 ∧
      ∃ r, run rxStep (.start emptyRxRing) (bothPorts.flatMap (DpLabel.rxLabels 2)) = some r ∧
        r.bug = none ∧ r.port.info = (u.dpInfo 1).rx := by
  have hcounts : (run (dpStep 2) (.start fun _ => ⟨emptyRing, emptyRxRing, 0#64⟩) bothPorts).map
      (fun u => ((u.dpInfo 0).tx.stats.txPackets, (u.dpInfo 1).rx.stats.rxPackets)) =
        some (1#64, 1#64) := by decide +kernel
  obtain ⟨u, hrun, hu⟩ := Option.map_eq_some_iff.mp hcounts
  simp only [Prod.mk.injEq] at hu
  have hsides := dpRun_sides (fun _ _ _ => ⟨⟨true, emptyRing_setup⟩, ⟨true, emptyRxRing_setup⟩⟩)
    hrun (p := 2) (by decide) (by decide) (by decide)
  exact ⟨u, hrun, hu.1, hu.2, hsides.2.1⟩

end NssDp.SynGmacDp
