import NssDp.Edma.Napi
import NssDp.Edma.Proofs.NapiHandshake
import NssDp.Edma.Proofs.TxOwnership

/-!
# Waking a transmit queue

`edma_if_xmit` finds a ring full under `tx_lock` and stops the queue of its device after the
lock is released; the poll reaps completions and resumes every stopped queue it passes. A
queue that is stopped when there is nothing left to complete and no poll on its way to it is
never resumed. `WillWake` says what still leads to the queue; every step keeps it but a stop
that comes too late.
-/

namespace NssDp.Edma

open Lts Word

/-- The instance, the descriptors' buffers and the opaque words of the descriptors taken and
    not completed; the network devices, those for which a transmitter is between the answer of
    `edma_ring_xmit` and `netif_stop_queue`, and the poll that runs. -/
structure WakeRun where
  ehw : EdmaHw
  packet : Nat → Nat → Option SkBuff
  inFlight : List (BitVec 32)
  devs : Nat → NetDevice
  stopping : List Nat
  poll : Option PollAt

/-- A step of a transmitter, of the poll, of the hardware or of the link. `reap` carries the
    work of the receive loops. -/
inductive WakeLabel where
  | xmit (ndev : Nat) (skb : SkBuff) (env : XmitEnv)
  | stopQueue (ndev : Nat)
  | take (t : Nat)
  | post (q : Nat) (word status : BitVec 32)
  | status (stat : EdmaReg → BitVec 32)
  | handleIrq
  | reap (rxWork : Nat)
  | resume
  | finish
  | carrier (ndev : Nat) (on : Bool)

/-- The device is in `netdev_arr`. -/
def EdmaHw.Registered (ehw : EdmaHw) (maxGmacs ndev : Nat) : Prop :=
  ∃ i < maxGmacs, ehw.netdevArr i = some ndev

instance (ehw : EdmaHw) (maxGmacs ndev : Nat) : Decidable (ehw.Registered maxGmacs ndev) :=
  inferInstanceAs (Decidable (∃ i < maxGmacs, _ = _))

/-- The state after `edma_if_xmit`, but for the stop of the queue. -/
def WakeRun.afterXmit (s : WakeRun) (ndev ring : Nat) (r : IfXmit) : WakeRun :=
  { s with
    ehw := r.ehw
    packet := if mapsOf r.events = [] then s.packet else
      Function.update s.packet ring
        (Function.update (s.packet ring) (s.ehw.txProd ring) (some r.skb))
    devs := if r.ret = .busy then s.devs else Function.update s.devs ndev r.netdev
    stopping := if r.ret = .busy then ndev :: s.stopping else s.stopping }

/-- The stack transmits while the queue is not stopped, on a ring that exists. The hardware
    takes descriptors in ring order and completes them in any order, on any ring with room. -/
def wakeStep (virtToPhys : Nat → BitVec 32) (maxGmacs : Nat) (s : WakeRun) (a : WakeLabel) :
    Option WakeRun :=
  match a with
  | .xmit ndev skb env =>
    let ring := edmaTxRing s.ehw skb
    if ¬ s.ehw.Registered maxGmacs ndev ∨ (s.devs ndev).queueStopped = true ∨
        s.ehw.txdescRings ≤ ring then none
    else
      match edmaIfXmit s.ehw (s.devs ndev) skb env with
      | .error _ => none
      | .ok r => some (s.afterXmit ndev ring r)
  | .stopQueue ndev =>
    if ndev ∈ s.stopping then
      some { s with
        devs := Function.update s.devs ndev (s.devs ndev).stopQueue
        stopping := s.stopping.erase ndev }
    else none
  | .take t =>
    if s.ehw.txdescRings ≤ t ∨ s.ehw.txCons t = s.ehw.txProd t then none
    else
      (s.packet t (s.ehw.txCons t)).map fun skb =>
        { s with
          inFlight := s.inFlight ++ [readLe32 skb.payload]
          ehw := s.ehw.hwIdx (.txdescConsIdx (s.ehw.txdescRing t).id)
            ((s.ehw.txCons t + 1) % (s.ehw.txdescRing t).count) }
  | .post q word status =>
    let next := u16 ((s.ehw.cmplProd q + 1) % (s.ehw.txcmplRing q).count)
    if s.ehw.txcmplRings ≤ q ∨ word ∉ s.inFlight ∨ next = s.ehw.cmplCons q then none
    else
      some { s with
        inFlight := s.inFlight.erase word
        ehw := (s.ehw.hwComplete q (s.ehw.cmplProd q) ⟨word, status⟩).hwIdx
          (.txcmplProdIdx (s.ehw.txcmplRing q).id) next }
  | .status stat =>
    some { s with
      ehw := { s.ehw with regs := fun r => if r.isIntStat then stat r else s.ehw.regs r } }
  | .handleIrq => some { s with ehw := (edmaHandleIrq s.ehw).2 }
  | .reap rxWork =>
    if s.ehw.napi ≠ .scheduled ∨ s.poll.isSome = true then none
    else
      (napiCleanTx virtToPhys (List.range s.ehw.txcmplRings) s.ehw).map fun r =>
        { s with ehw := r.2, poll := some ⟨rxWork + r.1, 0⟩ }
  | .resume =>
    match s.poll with
    | none => none
    | some p =>
      if maxGmacs ≤ p.next then none
      else
        some { s with
          devs := napiResumeAt s.ehw s.devs p.next
          poll := some ⟨p.workDone, p.next + 1⟩ }
  | .finish =>
    match s.poll with
    | none => none
    | some p =>
      if p.next < maxGmacs then none
      else
        some { s with
          ehw := edmaNapiFinish s.ehw p.workDone edmaNapiWork
          poll := none }
  | .carrier ndev on =>
    some { s with devs := Function.update s.devs ndev { s.devs ndev with carrierOk := on } }

/-- A descriptor is waiting for the hardware or for its completion. -/
def WakeRun.TxInFlight (s : WakeRun) : Prop :=
  (∃ t < s.ehw.txdescRings, s.ehw.txCons t ≠ s.ehw.txProd t) ∨ s.inFlight ≠ []

/-- A completion has not been reaped. -/
def EdmaHw.TxUnreaped (ehw : EdmaHw) : Prop :=
  ∃ q < ehw.txcmplRings, ehw.cmplCons q ≠ ehw.cmplProd q

/-- The queue is stopped with carrier on, and nothing is left that would resume it. -/
structure WakeLost (maxGmacs : Nat) (s : WakeRun) (ndev : Nat) : Prop where
  registered : s.ehw.Registered maxGmacs ndev
  stopped : (s.devs ndev).queueStopped = true
  carrier : (s.devs ndev).carrierOk = true
  noneInFlight : ¬ s.TxInFlight
  allReaped : ¬ s.ehw.TxUnreaped
  noPoll : s.ehw.napi ≠ .scheduled ∧ s.poll = none

/-- A poll will come to the device: one that is scheduled, or one that runs and has not passed
    the device, or has used its budget and runs again. -/
def WakeRun.PollAhead (maxGmacs : Nat) (s : WakeRun) (ndev : Nat) : Prop :=
  match s.poll with
  | none => s.ehw.napi = .scheduled
  | some p => edmaNapiWork ≤ p.workDone ∨
      ∃ i < maxGmacs, p.next ≤ i ∧ s.ehw.netdevArr i = some ndev

/-- What leads to the device. -/
def WakeRun.WillWake (maxGmacs : Nat) (s : WakeRun) (ndev : Nat) : Prop :=
  s.TxInFlight ∨ s.ehw.TxUnreaped ∨ s.PollAhead maxGmacs ndev

/-- The queue is stopped while something leads to the device, and so it is where the carrier
    of a stopped queue comes on. -/
def StopsInTime (maxGmacs : Nat) (s : WakeRun) : WakeLabel → Prop
  | .stopQueue ndev => s.WillWake maxGmacs ndev
  | .carrier ndev on => on = true → (s.devs ndev).queueStopped = true → s.WillWake maxGmacs ndev
  | _ => True

section Indices

variable {ehw ehw' : EdmaHw}

/-- The registers that hold the indices of the transmit rings. -/
def EdmaReg.isTxIdx : EdmaReg → Bool
  | .txdescProdIdx _ | .txdescConsIdx _ | .txcmplProdIdx _ | .txcmplConsIdx _ => true
  | _ => false

/-- The transmit rings and the devices are the same. -/
structure SameInstance (ehw ehw' : EdmaHw) : Prop where
  netdevArr : ehw'.netdevArr = ehw.netdevArr
  txdescRings : ehw'.txdescRings = ehw.txdescRings
  txcmplRings : ehw'.txcmplRings = ehw.txcmplRings

/-- The indices of the transmit rings stand alike. -/
structure SameIndices (ehw ehw' : EdmaHw) : Prop where
  txCons : ∀ t, ehw'.txCons t = ehw.txCons t
  txProd : ∀ t, ehw'.txProd t = ehw.txProd t
  cmplCons : ∀ q, ehw'.cmplCons q = ehw.cmplCons q
  cmplProd : ∀ q, ehw'.cmplProd q = ehw.cmplProd q

theorem SameIndices.of_regs (htxdesc : ehw'.txdescRing = ehw.txdescRing)
    (htxcmpl : ehw'.txcmplRing = ehw.txcmplRing)
    (hregs : ∀ r, r.isTxIdx = true → ehw'.regs r = ehw.regs r) : SameIndices ehw ehw' := by
  constructor <;> intro n
  · rw [EdmaHw.txCons, EdmaHw.txCons, EdmaHw.regIdx, EdmaHw.regIdx, htxdesc, hregs _ rfl]
  · rw [EdmaHw.txProd, EdmaHw.txProd, EdmaHw.regIdx, EdmaHw.regIdx, htxdesc, hregs _ rfl]
  · rw [EdmaHw.cmplCons, EdmaHw.cmplCons, EdmaHw.regIdx, EdmaHw.regIdx, htxcmpl, hregs _ rfl]
  · rw [EdmaHw.cmplProd, EdmaHw.cmplProd, EdmaHw.regIdx, EdmaHw.regIdx, htxcmpl, hregs _ rfl]

theorem SameIndices.unreaped (h : SameIndices ehw ehw') (hsame : SameInstance ehw ehw')
    (hunreaped : ehw.TxUnreaped) : ehw'.TxUnreaped := by
  obtain ⟨q, hq, hne⟩ := hunreaped
  refine ⟨q, ?_, ?_⟩
  · rw [hsame.txcmplRings]
    exact hq
  · rw [h.cmplCons, h.cmplProd]
    exact hne

theorem SameInstance.registered (h : SameInstance ehw ehw') {maxGmacs ndev : Nat} :
    ehw'.Registered maxGmacs ndev ↔ ehw.Registered maxGmacs ndev := by
  rw [EdmaHw.Registered, h.netdevArr, EdmaHw.Registered]

/-- A call of `edma_ring_xmit` moves no index, or leaves a descriptor in its ring. -/
theorem edmaRingXmit_indices {netdev : NetDevice} {skb : SkBuff} {t : Nat} {dma : BitVec 32}
    {r : RingXmit} (h : edmaRingXmit ehw netdev skb t dma = .ok r) :
    SameInstance ehw r.ehw ∧ r.ehw.napi = ehw.napi ∧
      (SameIndices ehw r.ehw ∨ r.ehw.txCons t ≠ r.ehw.txProd t) := by
  by_cases hfull : TxdescFull ehw t
  · rw [edmaRingXmit_full hfull] at h
    cases h
    exact ⟨⟨rfl, rfl, rfl⟩, rfl, Or.inl (.of_regs rfl rfl fun _ _ => rfl)⟩
  rcases Nat.lt_or_ge skb.headroom edmaTxPrehdrSize with hhead | hhead
  · rw [edmaRingXmit_panic hhead hfull] at h
    cases h
  by_cases hbusy : StoreBusy ehw t
  · rw [edmaRingXmit_storeBusy hhead hfull hbusy] at h
    cases h
    exact ⟨⟨rfl, rfl, rfl⟩, rfl, Or.inl (.of_regs rfl rfl fun _ _ => rfl)⟩
  by_cases hdma : dma = 0#32
  · subst hdma
    rw [edmaRingXmit_unmapped hhead hfull hbusy] at h
    cases h
    refine ⟨⟨rfl, rfl, rfl⟩, rfl, Or.inl ⟨?_, ?_, fun _ => rfl, fun _ => rfl⟩⟩
    · intro t'
      simp [EdmaHw.xmitUnmapped, EdmaHw.xmitRead, EdmaHw.txCons]
    · intro t'
      simp [EdmaHw.xmitUnmapped, EdmaHw.xmitRead, EdmaHw.txProd]
  · rw [edmaRingXmit_published hhead hfull hbusy hdma] at h
    cases h
    refine ⟨⟨rfl, rfl, rfl⟩, rfl, Or.inr ?_⟩
    rw [(xmitPublished_same ehw t t _ _ _).txCons, xmitPublished_txProd]
    exact fun heq => hfull heq.symm

/-- The loop over the TXCMPL rings keeps the devices and the state of NAPI. -/
theorem napiCleanTx_same {virtToPhys : Nat → BitVec 32} :
    ∀ (qs : List Nat) {ehw : EdmaHw} {r : Nat × EdmaHw},
      napiCleanTx virtToPhys qs ehw = some r →
      SameInstance ehw r.2 ∧ r.2.napi = ehw.napi := by
  intro qs
  induction qs with
  | nil =>
    intro ehw r h
    cases h
    exact ⟨⟨rfl, rfl, rfl⟩, rfl⟩
  | cons q qs ih =>
    intro ehw r h
    rw [napiCleanTx] at h
    split at h
    · cases h
    · rename_i c hclean
      obtain ⟨rest, hrest, rfl⟩ := Option.map_eq_some_iff.mp h
      obtain ⟨⟨hnetdev, htx, hcmpl⟩, hnapi⟩ := ih hrest
      have hone : SameInstance ehw c.ehw ∧ c.ehw.napi = ehw.napi := by
        unfold edmaCleanTx at hclean
        dsimp only at hclean
        split at hclean
        · cases hclean
        · split at hclean <;> cases hclean <;> exact ⟨⟨rfl, rfl, rfl⟩, rfl⟩
      obtain ⟨⟨hnetdev', htx', hcmpl'⟩, hnapi'⟩ := hone
      exact ⟨⟨hnetdev.trans hnetdev', htx.trans htx', hcmpl.trans hcmpl'⟩, hnapi.trans hnapi'⟩

theorem not_mem_masks {r : EdmaReg} (hr : r.isTxIdx = true) :
    r ∉ ehw.rxdescIntMasks ∧ r ∉ ehw.txcmplIntMasks ∧ r ∉ ehw.rxfillIntMasks := by
  refine ⟨?_, ?_, ?_⟩ <;>
  · intro hmem
    obtain ⟨i, _, rfl⟩ := List.mem_map.mp hmem
    cases hr

/-- The interrupt handler writes masks, and may schedule a poll. -/
theorem edmaHandleIrq_same (ehw : EdmaHw) :
    SameInstance ehw (edmaHandleIrq ehw).2 ∧ SameIndices ehw (edmaHandleIrq ehw).2 ∧
      (ehw.napi = .scheduled → (edmaHandleIrq ehw).2.napi = .scheduled) := by
  have hregs (r : EdmaReg) (hr : r.isTxIdx = true) :
      (edmaHandleIrq ehw).2.regs r = ehw.regs r := by
    have hmask (mask : Nat → EdmaReg) (hmask : ∀ j, (mask j).isTxIdx = false) (j : Nat) :
        r ≠ mask j := by
      intro heq
      rw [heq, hmask j] at hr
      cases hr
    unfold edmaHandleIrq
    dsimp only
    rw [apply_ite Prod.snd, apply_ite EdmaHw.regs, ite_apply]
    simp only [writeRings_regs, (not_mem_masks hr).1, if_false, ite_self]
    rw [(irqStatusLoop_eq _ .rxfillIntStat .rxfillIntMask _ (by simp) _).2.1 r
        (hmask _ fun _ => rfl),
      (irqStatusLoop_eq _ .txIntStat .txIntMask _ (by simp) _).2.1 r (hmask _ fun _ => rfl),
      (irqStatusLoop_eq _ .rxdescIntStat .rxdescIntMask _ (by simp) _).2.1 r
        (hmask _ fun _ => rfl)]
  obtain ⟨e, ⟨regs, log, rfl⟩, hsched, hidle⟩ := edmaHandleIrq_eq ehw
  by_cases hpending : IrqPending ehw
  · rw [hsched hpending] at hregs ⊢
    refine ⟨⟨rfl, rfl, rfl⟩, .of_regs rfl rfl hregs, fun hnapi => ?_⟩
    simp only [hnapi, NapiState.schedule]
  · rw [hidle hpending] at hregs ⊢
    exact ⟨⟨rfl, rfl, rfl⟩, .of_regs rfl rfl hregs, id⟩

/-- The end of a poll writes masks, and leaves a poll that has used its budget scheduled. -/
theorem edmaNapiFinish_same (ehw : EdmaHw) (workDone budget : Nat) :
    SameInstance ehw (edmaNapiFinish ehw workDone budget) ∧
      SameIndices ehw (edmaNapiFinish ehw workDone budget) ∧
      (budget ≤ workDone → (edmaNapiFinish ehw workDone budget).napi = ehw.napi) := by
  unfold edmaNapiFinish
  split
  · rename_i hlt
    have hregs (r : EdmaReg) (hr : r.isTxIdx = true) :
        { ehw with napi := ehw.napi.complete }.enableRingIrqs.regs r = ehw.regs r := by
      simp only [EdmaHw.enableRingIrqs, writeRings_regs, writeRings_rxfillIntMasks,
        writeRings_txcmplIntMasks]
      rw [if_neg (not_mem_masks hr).2.2, if_neg (not_mem_masks hr).2.1,
        if_neg (not_mem_masks hr).1]
    obtain ⟨regs, log, heq⟩ :
        SameButRegs { ehw with napi := ehw.napi.complete }
          { ehw with napi := ehw.napi.complete }.enableRingIrqs :=
      SameButRegs.trans ⟨_, _, EdmaHw.writeRings_eq _ _ _⟩
        (SameButRegs.trans ⟨_, _, EdmaHw.writeRings_eq _ _ _⟩
          ⟨_, _, EdmaHw.writeRings_eq _ _ _⟩)
    rw [heq] at hregs ⊢
    exact ⟨⟨rfl, rfl, rfl⟩, .of_regs rfl rfl hregs, fun hle => by omega⟩
  · exact ⟨⟨rfl, rfl, rfl⟩, .of_regs rfl rfl fun _ _ => rfl, fun _ => rfl⟩

end Indices

/-- `edma_if_xmit` moves no index, or leaves a descriptor in the ring it selects. -/
theorem edmaIfXmit_indices {ehw : EdmaHw} {netdev : NetDevice} {skb : SkBuff} {env : XmitEnv}
    {r : IfXmit} (h : edmaIfXmit ehw netdev skb env = .ok r) :
    SameInstance ehw r.ehw ∧ r.ehw.napi = ehw.napi ∧
      (SameIndices ehw r.ehw ∨
        r.ehw.txCons (edmaTxRing ehw skb) ≠ r.ehw.txProd (edmaTxRing ehw skb)) ∧
      (r.ret ≠ .busy → r.netdev.queueStopped = netdev.queueStopped ∧
        r.netdev.carrierOk = netdev.carrierOk) := by
  unfold edmaIfXmit at h
  split at h
  · cases h
    exact ⟨⟨rfl, rfl, rfl⟩, rfl, Or.inl (.of_regs rfl rfl fun _ _ => rfl), fun _ => ⟨rfl, rfl⟩⟩
  · split at h
    · cases h
    · rename_i x hx
      obtain ⟨hsame, hnapi, hidx⟩ := edmaRingXmit_indices hx
      split at h <;> cases h
      · exact ⟨hsame, hnapi, hidx, fun _ => ⟨rfl, rfl⟩⟩
      · exact ⟨hsame, hnapi, hidx, fun hne => absurd rfl hne⟩
      · exact ⟨hsame, hnapi, hidx, fun _ => ⟨rfl, rfl⟩⟩

/-- What every step keeps that meets its condition: a device whose queue is stopped is in
    `netdev_arr`, a poll that runs is still scheduled, and something leads to every queue that
    is stopped with carrier on. -/
structure WakeInv (maxGmacs : Nat) (s : WakeRun) : Prop where
  stopping : ∀ d ∈ s.stopping, s.ehw.Registered maxGmacs d
  stopped : ∀ d, (s.devs d).queueStopped = true → s.ehw.Registered maxGmacs d
  running : s.poll.isSome = true → s.ehw.napi = .scheduled
  wakes : ∀ d, (s.devs d).queueStopped = true → (s.devs d).carrierOk = true →
    s.WillWake maxGmacs d

section Steps

variable {virtToPhys : Nat → BitVec 32} {maxGmacs d : Nat} {s t : WakeRun}

theorem WakeInv.notLost (h : WakeInv maxGmacs s) (d : Nat) : ¬ WakeLost maxGmacs s d := by
  intro hlost
  obtain ⟨hnapi, hpoll⟩ := hlost.noPoll
  rcases h.wakes d hlost.stopped hlost.carrier with hflight | hunreaped | hahead
  · exact hlost.noneInFlight hflight
  · exact hlost.allReaped hunreaped
  · rw [WakeRun.PollAhead, hpoll] at hahead
    exact hnapi hahead

/-- Whether a poll will come to a device depends on the poll and on the devices. -/
theorem PollAhead.keep (hsame : SameInstance s.ehw t.ehw) (hpoll : t.poll = s.poll)
    (hnapi : s.ehw.napi = .scheduled → t.ehw.napi = .scheduled)
    (h : s.PollAhead maxGmacs d) : t.PollAhead maxGmacs d := by
  unfold WakeRun.PollAhead at h ⊢
  rw [hpoll, hsame.netdevArr]
  cases hp : s.poll with
  | none =>
    rw [hp] at h
    exact hnapi h
  | some p =>
    rw [hp] at h
    exact h

/-- A step that moves no index keeps what leads to a device. -/
theorem WillWake.keep (hsame : SameInstance s.ehw t.ehw) (hidx : SameIndices s.ehw t.ehw)
    (hflight : t.inFlight = s.inFlight)
    (hahead : s.PollAhead maxGmacs d → t.PollAhead maxGmacs d)
    (h : s.WillWake maxGmacs d) : t.WillWake maxGmacs d := by
  rcases h with (⟨i, hi, hne⟩ | hnonempty) | hunreaped | hpoll
  · refine Or.inl (Or.inl ⟨i, ?_, ?_⟩)
    · rw [hsame.txdescRings]
      exact hi
    · rw [hidx.txCons, hidx.txProd]
      exact hne
  · refine Or.inl (Or.inr ?_)
    rw [hflight]
    exact hnonempty
  · exact Or.inr (Or.inl (hidx.unreaped hsame hunreaped))
  · exact Or.inr (Or.inr (hahead hpoll))

/-- A step that touches neither devices nor the poll, and after which something leads to every
    device something led to. -/
theorem WakeInv.keep (h : WakeInv maxGmacs s) (hsame : SameInstance s.ehw t.ehw)
    (hnapi : s.ehw.napi = .scheduled → t.ehw.napi = .scheduled) (hdevs : t.devs = s.devs)
    (hstopping : t.stopping = s.stopping) (hpoll : t.poll = s.poll)
    (hwakes : ∀ d, s.WillWake maxGmacs d → t.WillWake maxGmacs d) : WakeInv maxGmacs t := by
  refine ⟨?_, ?_, ?_, ?_⟩
  · intro d hd
    rw [hstopping] at hd
    exact hsame.registered.mpr (h.stopping d hd)
  · intro d hd
    rw [hdevs] at hd
    exact hsame.registered.mpr (h.stopped d hd)
  · intro hsome
    rw [hpoll] at hsome
    exact hnapi (h.running hsome)
  · intro d hd hcarrier
    rw [hdevs] at hd hcarrier
    exact hwakes d (h.wakes d hd hcarrier)

theorem WakeInv.xmit (h : WakeInv maxGmacs s) {skb : SkBuff} {env : XmitEnv} {r : IfXmit}
    (hreg : s.ehw.Registered maxGmacs d) (hring : edmaTxRing s.ehw skb < s.ehw.txdescRings)
    (hr : edmaIfXmit s.ehw (s.devs d) skb env = .ok r) :
    WakeInv maxGmacs (s.afterXmit d (edmaTxRing s.ehw skb) r) := by
  obtain ⟨hsame, hnapi, hidx, hdev⟩ := edmaIfXmit_indices hr
  have hkeep : ∀ n, s.WillWake maxGmacs n →
      (s.afterXmit d (edmaTxRing s.ehw skb) r).WillWake maxGmacs n := by
    intro n
    rcases hidx with hidx | hne
    · exact WillWake.keep hsame hidx rfl (PollAhead.keep hsame rfl hnapi.trans)
    · intro _
      refine Or.inl (Or.inl ⟨_, ?_, hne⟩)
      exact Nat.lt_of_lt_of_eq hring hsame.txdescRings.symm
  have hflags : ∀ n, ((s.afterXmit d (edmaTxRing s.ehw skb) r).devs n).queueStopped =
      (s.devs n).queueStopped ∧
      ((s.afterXmit d (edmaTxRing s.ehw skb) r).devs n).carrierOk = (s.devs n).carrierOk := by
    intro n
    simp only [WakeRun.afterXmit]
    split
    · exact ⟨rfl, rfl⟩
    · rename_i hret
      rcases eq_or_ne n d with rfl | hne
      · rw [Function.update_self]
        exact hdev hret
      · rw [Function.update_of_ne hne]
        exact ⟨rfl, rfl⟩
  refine ⟨?_, ?_, ?_, ?_⟩
  · intro n hn
    apply hsame.registered.mpr
    simp only [WakeRun.afterXmit] at hn
    split at hn
    · rcases List.mem_cons.mp hn with rfl | hmem
      · exact hreg
      · exact h.stopping n hmem
    · exact h.stopping n hn
  · intro n hn
    rw [(hflags n).1] at hn
    exact hsame.registered.mpr (h.stopped n hn)
  · intro hsome
    exact hnapi.trans (h.running hsome)
  · intro n hn hcarrier
    rw [(hflags n).1] at hn
    rw [(hflags n).2] at hcarrier
    exact hkeep n (h.wakes n hn hcarrier)

/-- The queue is stopped in time. -/
theorem WakeInv.stop (h : WakeInv maxGmacs s) (hd : d ∈ s.stopping)
    (hwake : s.WillWake maxGmacs d) :
    WakeInv maxGmacs { s with
      devs := Function.update s.devs d (s.devs d).stopQueue
      stopping := s.stopping.erase d } := by
  refine ⟨?_, ?_, h.running, ?_⟩
  · intro n hn
    exact h.stopping n (List.mem_of_mem_erase hn)
  · intro n hn
    rcases eq_or_ne n d with rfl | hne
    · exact h.stopping n hd
    · simp only [Function.update_of_ne hne] at hn
      exact h.stopped n hn
  · intro n hn hcarrier
    rcases eq_or_ne n d with rfl | hne
    · exact hwake
    · simp only [Function.update_of_ne hne] at hn hcarrier
      exact h.wakes n hn hcarrier

theorem WakeInv.carrierChange (h : WakeInv maxGmacs s) {on : Bool}
    (hwake : on = true → (s.devs d).queueStopped = true → s.WillWake maxGmacs d) :
    WakeInv maxGmacs { s with
      devs := Function.update s.devs d { s.devs d with carrierOk := on } } := by
  refine ⟨h.stopping, ?_, h.running, ?_⟩
  · intro n hn
    rcases eq_or_ne n d with rfl | hne
    · simp only [Function.update_self] at hn
      exact h.stopped n hn
    · simp only [Function.update_of_ne hne] at hn
      exact h.stopped n hn
  · intro n hn hcarrier
    rcases eq_or_ne n d with rfl | hne
    · simp only [Function.update_self] at hn hcarrier
      exact hwake hcarrier hn
    · simp only [Function.update_of_ne hne] at hn hcarrier
      exact h.wakes n hn hcarrier

/-- A completion that is posted is one to reap. -/
theorem post_unreaped {ehw : EdmaHw} {q next : Nat} (hq : q < ehw.txcmplRings)
    (hroom : u16 next ≠ ehw.cmplCons q) (txcmpl : EdmaTxcmplDesc) :
    ((ehw.hwComplete q (ehw.cmplProd q) txcmpl).hwIdx
      (.txcmplProdIdx (ehw.txcmplRing q).id) (u16 next)).TxUnreaped := by
  refine ⟨q, hq, ?_⟩
  have hid : ((ehw.hwComplete q (ehw.cmplProd q) txcmpl).txcmplRing q).id =
      (ehw.txcmplRing q).id := by
    simp only [EdmaHw.hwComplete, Function.update_self]
  have hcons : ((ehw.hwComplete q (ehw.cmplProd q) txcmpl).hwIdx
      (.txcmplProdIdx (ehw.txcmplRing q).id) (u16 next)).cmplCons q = ehw.cmplCons q := by
    rw [EdmaHw.cmplCons, hwIdx_regIdx_of_ne _ _ (by simp)]
    exact congrArg (fun id => ehw.regIdx (.txcmplConsIdx id)) hid
  have hprod : ((ehw.hwComplete q (ehw.cmplProd q) txcmpl).hwIdx
      (.txcmplProdIdx (ehw.txcmplRing q).id) (u16 next)).cmplProd q = u16 next := by
    rw [← hid]
    exact hwIdx_regIdx_self _ _ (u16_lt next)
  rw [hcons, hprod]
  exact hroom.symm

/-- A poll that starts on the devices comes to every one of them. -/
theorem WakeInv.reap (h : WakeInv maxGmacs s) (hnapi : s.ehw.napi = .scheduled)
    {r : Nat × EdmaHw}
    (hr : napiCleanTx virtToPhys (List.range s.ehw.txcmplRings) s.ehw = some r) (rxWork : Nat) :
    WakeInv maxGmacs { s with ehw := r.2, poll := some ⟨rxWork + r.1, 0⟩ } := by
  obtain ⟨hsame, hnapi'⟩ := napiCleanTx_same _ hr
  refine ⟨?_, ?_, fun _ => hnapi'.trans hnapi, ?_⟩
  · intro n hn
    exact hsame.registered.mpr (h.stopping n hn)
  · intro n hn
    exact hsame.registered.mpr (h.stopped n hn)
  · intro n hn _
    obtain ⟨i, hi, harr⟩ := hsame.registered.mpr (h.stopped n hn)
    exact Or.inr (Or.inr (Or.inr ⟨i, hi, Nat.zero_le i, harr⟩))

theorem napiResumeAt_flags (ehw : EdmaHw) (devs : Nat → NetDevice) (i n : Nat) :
    (napiResumeAt ehw devs i n = devs n ∧ ehw.netdevArr i ≠ some n) ∨
      ((napiResumeAt ehw devs i n).carrierOk = (devs n).carrierOk ∧
        ((napiResumeAt ehw devs i n).queueStopped = true →
          (devs n).queueStopped = true ∧ (devs n).carrierOk = false)) := by
  unfold napiResumeAt
  cases harr : ehw.netdevArr i with
  | none => exact Or.inl ⟨rfl, by simp⟩
  | some d =>
    dsimp only
    rcases eq_or_ne n d with rfl | hne
    · right
      rw [Function.update_self, napiResume]
      split
      · exact ⟨rfl, fun hstop => absurd hstop Bool.false_ne_true⟩
      · rename_i hnot
        refine ⟨rfl, fun hstop => ⟨hstop, ?_⟩⟩
        simpa [hstop] using hnot
    · left
      rw [Function.update_of_ne hne]
      exact ⟨rfl, fun heq => hne (Option.some.inj heq).symm⟩

/-- The loop over the devices passes one of them. -/
theorem WakeInv.resume (h : WakeInv maxGmacs s) {p : PollAt} (hp : s.poll = some p) :
    WakeInv maxGmacs { s with
      devs := napiResumeAt s.ehw s.devs p.next
      poll := some ⟨p.workDone, p.next + 1⟩ } := by
  refine ⟨h.stopping, ?_, fun _ => h.running (by rw [hp]; rfl), ?_⟩
  · intro n hn
    rcases napiResumeAt_flags s.ehw s.devs p.next n with ⟨hsame, -⟩ | ⟨-, hstop⟩
    · simp only [hsame] at hn
      exact h.stopped n hn
    · exact h.stopped n (hstop hn).1
  · intro n hn hcarrier
    rcases napiResumeAt_flags s.ehw s.devs p.next n with ⟨hsame, hpassed⟩ | ⟨hsame, hstop⟩
    · simp only [hsame] at hn hcarrier
      rcases h.wakes n hn hcarrier with hflight | hunreaped | hahead
      · exact Or.inl hflight
      · exact Or.inr (Or.inl hunreaped)
      · rw [WakeRun.PollAhead, hp] at hahead
        rcases hahead with hbudget | ⟨i, hi, hle, harr⟩
        · exact Or.inr (Or.inr (Or.inl hbudget))
        · have hne : p.next ≠ i := fun heq => hpassed (heq ▸ harr)
          exact Or.inr (Or.inr (Or.inr ⟨i, hi, Nat.lt_of_le_of_ne hle hne, harr⟩))
    · -- the device at this turn cannot stay stopped with carrier on
      dsimp only at hcarrier
      rw [hsame, (hstop hn).2] at hcarrier
      exact absurd hcarrier Bool.false_ne_true

/-- The poll ends past the last device. -/
theorem WakeInv.finish (h : WakeInv maxGmacs s) {p : PollAt} (hp : s.poll = some p)
    (hnext : maxGmacs ≤ p.next) :
    WakeInv maxGmacs { s with
      ehw := edmaNapiFinish s.ehw p.workDone edmaNapiWork
      poll := none } := by
  obtain ⟨hsame, hidx, hnapi⟩ := edmaNapiFinish_same s.ehw p.workDone edmaNapiWork
  have hrunning := h.running (by rw [hp]; rfl)
  refine ⟨?_, ?_, fun hsome => absurd hsome Bool.false_ne_true, ?_⟩
  · intro n hn
    exact hsame.registered.mpr (h.stopping n hn)
  · intro n hn
    exact hsame.registered.mpr (h.stopped n hn)
  · intro n hn hcarrier
    refine WillWake.keep hsame hidx rfl (fun hahead => ?_) (h.wakes n hn hcarrier)
    rw [WakeRun.PollAhead, hp] at hahead
    rcases hahead with hbudget | ⟨i, hi, hle, -⟩
    · exact (hnapi hbudget).trans hrunning
    · omega

theorem WakeInv.step (h : WakeInv maxGmacs s) {a : WakeLabel} (htime : StopsInTime maxGmacs s a)
    (hstep : wakeStep virtToPhys maxGmacs s a = some t) : WakeInv maxGmacs t := by
  cases a with
  | xmit d skb env =>
    simp only [wakeStep] at hstep
    split at hstep
    · cases hstep
    · rename_i hguard
      simp only [not_or, not_not, Nat.not_le] at hguard
      obtain ⟨hreg, -, hring⟩ := hguard
      split at hstep
      · cases hstep
      · rename_i r hr
        cases hstep
        exact h.xmit hreg hring hr
  | stopQueue d =>
    simp only [wakeStep] at hstep
    split at hstep
    · rename_i hd
      cases hstep
      exact h.stop hd htime
    · cases hstep
  | take i =>
    simp only [wakeStep] at hstep
    split at hstep
    · cases hstep
    · obtain ⟨skb, -, rfl⟩ := Option.map_eq_some_iff.mp hstep
      refine h.keep ⟨rfl, rfl, rfl⟩ id rfl rfl rfl fun n _ => Or.inl (Or.inr ?_)
      simp
  | post q word status =>
    simp only [wakeStep] at hstep
    split at hstep
    · cases hstep
    · rename_i hguard
      simp only [not_or, Nat.not_le] at hguard
      obtain ⟨hq, -, hroom⟩ := hguard
      cases hstep
      exact h.keep ⟨rfl, rfl, rfl⟩ id rfl rfl rfl fun n _ =>
        Or.inr (Or.inl (post_unreaped hq hroom _))
  | status stat =>
    cases hstep
    have hidx : SameIndices s.ehw
        { s.ehw with regs := fun r => if r.isIntStat then stat r else s.ehw.regs r } := by
      refine .of_regs rfl rfl fun r hr => ?_
      cases r <;> first | rfl | cases hr
    exact h.keep ⟨rfl, rfl, rfl⟩ id rfl rfl rfl fun n =>
      WillWake.keep ⟨rfl, rfl, rfl⟩ hidx rfl (PollAhead.keep ⟨rfl, rfl, rfl⟩ rfl id)
  | handleIrq =>
    cases hstep
    obtain ⟨hsame, hidx, hnapi⟩ := edmaHandleIrq_same s.ehw
    exact h.keep hsame hnapi rfl rfl rfl fun n =>
      WillWake.keep hsame hidx rfl (PollAhead.keep hsame rfl hnapi)
  | reap rxWork =>
    simp only [wakeStep] at hstep
    split at hstep
    · cases hstep
    · rename_i hguard
      simp only [not_or, not_not] at hguard
      obtain ⟨r, hr, rfl⟩ := Option.map_eq_some_iff.mp hstep
      exact h.reap hguard.1 hr rxWork
  | resume =>
    simp only [wakeStep] at hstep
    split at hstep
    · cases hstep
    · rename_i p hp
      split at hstep
      · cases hstep
      · cases hstep
        exact h.resume hp
  | finish =>
    simp only [wakeStep] at hstep
    split at hstep
    · cases hstep
    · rename_i p hp
      split at hstep
      · cases hstep
      · rename_i hnext
        cases hstep
        exact h.finish hp (Nat.le_of_not_lt hnext)
  | carrier d on =>
    cases hstep
    exact h.carrierChange htime

end Steps

/-- No queue is stopped, and no poll runs. -/
structure WakeStart (s : WakeRun) : Prop where
  stopping : s.stopping = []
  started : ∀ d, (s.devs d).queueStopped = false
  poll : s.poll = none

/-- In every run in which each queue is stopped in time, no wake-up is lost. -/
theorem wakeRun_noneLost (virtToPhys : Nat → BitVec 32) (maxGmacs : Nat) {s : WakeRun}
    (hstart : WakeStart s) {as : List WakeLabel}
    (hmeet : StepsMeet (wakeStep virtToPhys maxGmacs) (StopsInTime maxGmacs) s as) :
    Always (wakeStep virtToPhys maxGmacs) (fun t => ∀ d, ¬ WakeLost maxGmacs t d) s as := by
  have hinv : WakeInv maxGmacs s := by
    refine ⟨?_, ?_, ?_, ?_⟩
    · intro d hd
      rw [hstart.stopping] at hd
      exact absurd hd List.not_mem_nil
    · intro d hd
      exact absurd ((hstart.started d).symm.trans hd) Bool.false_ne_true
    · intro hsome
      rw [hstart.poll] at hsome
      exact absurd hsome Bool.false_ne_true
    · intro d hd
      exact absurd ((hstart.started d).symm.trans hd) Bool.false_ne_true
  exact always_of_stepsMeet (fun _ h => h.notLost) (fun _ _ _ h htime => h.step htime) hinv hmeet

section Decide

variable (maxGmacs : Nat) (s : WakeRun) (ndev : Nat)

instance : Decidable s.TxInFlight :=
  inferInstanceAs (Decidable ((∃ t < s.ehw.txdescRings, s.ehw.txCons t ≠ s.ehw.txProd t) ∨
    s.inFlight ≠ []))

instance (ehw : EdmaHw) : Decidable ehw.TxUnreaped :=
  inferInstanceAs (Decidable (∃ q < ehw.txcmplRings, ehw.cmplCons q ≠ ehw.cmplProd q))

instance : Decidable (s.PollAhead maxGmacs ndev) :=
  match h : s.poll with
  | none => decidable_of_iff (s.ehw.napi = .scheduled) (by rw [WakeRun.PollAhead, h])
  | some p => decidable_of_iff (edmaNapiWork ≤ p.workDone ∨
      ∃ i < maxGmacs, p.next ≤ i ∧ s.ehw.netdevArr i = some ndev) (by rw [WakeRun.PollAhead, h])

instance : Decidable (s.WillWake maxGmacs ndev) :=
  inferInstanceAs (Decidable (s.TxInFlight ∨ s.ehw.TxUnreaped ∨ s.PollAhead maxGmacs ndev))

instance (a : WakeLabel) : Decidable (StopsInTime maxGmacs s a) :=
  match a with
  | .stopQueue ndev => inferInstanceAs (Decidable (s.WillWake maxGmacs ndev))
  | .carrier ndev on => inferInstanceAs (Decidable (on = true →
      (s.devs ndev).queueStopped = true → s.WillWake maxGmacs ndev))
  | .xmit .. | .take _ | .post .. | .status _ | .handleIrq | .reap _ | .resume | .finish =>
    isTrue trivial

end Decide

/-- Port 1 is open, on a TXDESC ring of `count` descriptors. -/
def portOneOpen (count : Nat) : WakeRun :=
  ⟨{ idleEdma with
      netdevArr := fun i => if i = 0 then some 0 else none
      active := 1
      napi := .idle
      txdescRing := fun i => ⟨i, count, fun _ => ⟨0#32, 0#32⟩⟩ },
    fun _ _ => none, [], fun _ => port1Dev, [], none⟩

theorem portOneOpen_start (count : Nat) : WakeStart (portOneOpen count) :=
  ⟨rfl, fun _ => rfl, rfl⟩

/-- All packets but the last fill the ring, and the last finds it full. -/
def fillRing (count : Nat) : List WakeLabel :=
  (List.range count).map fun i =>
    .xmit 0 (packetOf i (List.replicate 14 0#8)) ⟨none, 4096#32⟩

/-- The hardware sends `n` packets. -/
def sendPackets (n : Nat) : List WakeLabel :=
  List.replicate n (.take 0) ++ (List.range n).map fun i => .post 0 (BitVec.ofNat 32 i) 0#32

/-- The completions raise an interrupt, and `polls` polls run to their end. -/
def pollAfterIrq (polls : Nat) : List WakeLabel :=
  [.status fun r => if r = .txIntStat 0 then 1#32 else 0#32, .handleIrq] ++
    (List.replicate polls (.reap 0 :: List.replicate 6 .resume ++ [.finish])).flatten

/-- A queue that is stopped at once is resumed by the poll. -/
theorem wakeRun_noneLost_atOnce :
    Always (wakeStep (BitVec.ofNat 32) 6) (fun t => ∀ d, ¬ WakeLost 6 t d) (portOneOpen 2)
      (fillRing 2 ++ [.stopQueue 0] ++ sendPackets 1 ++ pollAfterIrq 1) :=
  wakeRun_noneLost (BitVec.ofNat 32) 6 (portOneOpen_start 2) (by decide +kernel)

/-- On a ring of the driver's size, a queue that is stopped only after the polls stays stopped:
    everything has been sent and reaped, and no poll is scheduled. The first of the two polls
    uses its budget. -/
theorem lateStop_lost : ∃ u, run (wakeStep (BitVec.ofNat 32) 6) (portOneOpen edmaRingSize)
    (fillRing edmaRingSize ++ sendPackets (edmaRingSize - 1) ++ pollAfterIrq 2 ++
      [.stopQueue 0]) = some u ∧ WakeLost 6 u 0 := by
  have hrun : (run (wakeStep (BitVec.ofNat 32) 6) (portOneOpen edmaRingSize)
      (fillRing edmaRingSize ++ sendPackets (edmaRingSize - 1) ++ pollAfterIrq 2 ++
        [.stopQueue 0])).map (fun u =>
          decide (u.ehw.Registered 6 0 ∧ (u.devs 0).queueStopped = true ∧
            (u.devs 0).carrierOk = true ∧ ¬ u.TxInFlight ∧ ¬ u.ehw.TxUnreaped ∧
            u.ehw.napi ≠ .scheduled ∧ u.poll = none)) = some true := by decide +kernel
  obtain ⟨u, hu, hlost⟩ := Option.map_eq_some_iff.mp hrun
  obtain ⟨hreg, hstopped, hcarrier, hflight, hreaped, hpoll⟩ := of_decide_eq_true hlost
  exact ⟨u, hu, hreg, hstopped, hcarrier, hflight, hreaped, hpoll⟩

end NssDp.Edma
