import NssDp.Misc.Service
import NssDp.SynGmacDp.Proofs.RxAccounts

/-!
# How soon a Synopsys port receives

A poll has a turn for each unit of its budget, and one where the budget is 0, and each turn takes
the oldest frame that the engine has given back. So a frame waits for no more than the turns that
the frames before it take, whatever arrives behind it.
-/

namespace NssDp.SynGmacDp

open Lts Cyclic Handover

/-- The frames that a step may take. -/
def RxLabel.quota : RxLabel → Nat
  | .rx budget => (max 1 budget).toNat
  | _ => 0

theorem RxRingInv.length_received {info : SynDpRxInfo} (h : RxRingInv info) :
    info.received.length = info.handedBack := by
  apply length_filterMap_of_isSome
  intro i hi
  rw [SynDpRxInfo.fillAt, Option.isSome_map]
  exact (h.held i ((List.takeWhile_sublist _).mem hi)).1

/-- A poll that returns gives up as many descriptors as its budget allows of those given back. -/
theorem RxRingInv.rx_gives {s t : RxPort} (h : RxRingInv s.info) {budget ret : Int}
    (hrx : synDpRx s budget = .ok (ret, t)) :
    t.info.busyRxDesc + min (max 1 budget).toNat s.info.handedBack = s.info.busyRxDesc := by
  have hback := handedBack_le s.info
  rcases Nat.eq_zero_or_pos s.info.busyRxDesc with hzero | hbusy
  · rw [synDpRx, if_pos hzero] at hrx
    cases hrx
    omega
  · obtain ⟨turns, hturns⟩ : ∃ turns : Nat,
        (turns : Int) = max 1 (min (s.info.busyRxDesc : Int) budget) :=
      ⟨(max 1 (min (s.info.busyRxDesc : Int) budget)).toNat, by omega⟩
    have hint : Word.i32 s.info.busyRxDesc = s.info.busyRxDesc :=
      Word.i32_of_lt (Nat.lt_of_le_of_lt h.busy_le (by decide))
    have hcount : (max 1 (min (s.info.busyRxDesc : Int) budget)).toNat = turns := by omega
    rw [synDpRx, if_neg (Nat.pos_iff_ne_zero.mp hbusy)] at hrx
    simp only [hint, hcount] at hrx
    by_cases hfits : ∀ i ∈ s.info.reapable turns, ¬ s.info.Overruns i
    · obtain ⟨info', es, hloop, -, hwindow, -⟩ := h.loop_ok turns s.events (by omega) hfits
      simp only [hloop] at hrx
      cases hrx
      have hlength := congrArg List.length hwindow
      rw [List.length_drop, length_reapable, SynDpRxInfo.busyWindow, length_window,
        SynDpRxInfo.busyWindow, length_window] at hlength
      show info'.busyRxDesc + _ = _
      omega
    · obtain ⟨halt, hloop⟩ := h.loop_overruns turns s.events (by omega) (by simpa using hfits)
      simp only [hloop] at hrx
      cases hrx

/-- What a poll that returns has taken. -/
theorem RxOrderInv.length_takes {s t : RxRun} (h : RxOrderInv s) {budget : Int}
    (hstep : rxStep s (.rx budget) = some t) (hruns : t.bug = none) :
    (s.takes (.rx budget)).length = min (max 1 budget).toNat s.port.info.received.length := by
  have hmoves := h.moves hstep
  have hring := h.run.port.ring
  have hparts := hring.length_parts
  have hparts' := hmoves.next.run.port.ring.length_parts
  have htaken := congrArg List.length hmoves.received
  rw [List.length_append, List.length_append, show s.fills (.rx budget) = [] from rfl,
    List.length_nil] at htaken
  have hdoes := hstep
  unfold rxStep at hdoes
  split at hdoes
  · cases hdoes
  · rcases h.run.port.rx_takes h.split budget with ⟨ret, port, fills, heq, htakes⟩ |
      ⟨port, u, fills, fill, heq, -⟩
    · simp only [heq] at hdoes
      have hport : t.port = port := by
        rw [← Option.some.inj hdoes]
        rfl
      have hgives := hring.rx_gives heq
      have hback := hring.length_received
      have hposted := congrArg List.length htakes.passes.posted
      rw [List.append_nil] at hposted
      rw [hport] at hparts' htaken
      omega
    · simp only [heq] at hdoes
      cases hdoes
      cases hruns

/-- Polls take the frames that have been given back, up to their quotas. -/
theorem rxPort_serves : QuotaServer rxStep RxOrderInv
    (fun s a => ∀ t, rxStep s a = some t → t.bug = none)
    (fun s => s.port.info.received.length) RxLabel.quota (fun s a => (s.takes a).length)
    (fun s a => (s.fills a).length) := by
  refine ⟨?_, ?_, ?_, ?_⟩
  · intro s a t h _ hstep
    exact (h.moves hstep).next
  · intro s a t h _ hstep
    have hmoves := congrArg List.length (h.moves hstep).received
    rw [List.length_append, List.length_append] at hmoves
    omega
  · intro s a t h hruns hstep
    cases a with
    | rx budget => exact (h.length_takes hstep (hruns t hstep)).ge
    | refill allocs => exact Nat.min_le_left _ _
    | dma wb => exact Nat.min_le_left _ _
  · intro s a t h hruns hstep
    cases a with
    | rx budget =>
      rw [h.length_takes hstep (hruns t hstep)]
      exact Nat.min_le_left _ _
    | refill allocs => exact Nat.le_refl 0
    | dma wb => exact Nat.le_refl 0

/-- From every state that a run reaches, and in every run that goes on from there and does not stop
    in `skb_put`: the frames that polls take are the first of those that were given back at the
    start and of those that arrive, in this order; they are as many as the quotas of the polls come
    to, or all that were there at the start, and no more than these quotas. -/
theorem rxRun_serves {info : SynDpRxInfo} {allocOk : Bool}
    (hsetup : synDpSetupRxDescQueue SynDpRxInfo.zero synDpRxDescSize .ringMode allocOk =
      .ok (0, info)) {as bs : List RxLabel} {s u : RxRun}
    (hreached : run rxStep (.start info) as = some s) (hrun : run rxStep s bs = some u)
    (hruns : u.bug = none) :
    s.port.info.received ++ trace rxStep RxRun.fills s bs =
        trace rxStep RxRun.takes s bs ++ u.port.info.received ∧
      min (bs.map RxLabel.quota).sum s.port.info.received.length ≤
        (trace rxStep RxRun.takes s bs).length ∧
      (trace rxStep RxRun.takes s bs).length ≤ (bs.map RxLabel.quota).sum := by
  have hinv : RxOrderInv s := (rxPort_counted hsetup hreached).inv
  have hmeet : StepsMeet rxStep (fun s a => ∀ t, rxStep s a = some t → t.bug = none) s bs := by
    refine StepsMeet.of_last (Q := fun s => s.bug = none) ?_ hrun hruns
    intro s a t hstep
    unfold rxStep at hstep
    split at hstep
    · cases hstep
    · rename_i hbug
      exact Option.not_isSome_iff_eq_none.mp hbug
  obtain ⟨hleast, hmost, -⟩ := rxPort_serves.run hinv hmeet hrun
  rw [← length_trace] at hleast hmost
  exact ⟨received_fifo.run hinv (StepsMeet.of_forall fun _ _ => trivial) hrun, hleast, hmost⟩

/-- Three buffers are posted, and the engine fills two of them. -/
def twoOfThreeFilled : List RxLabel :=
  [.refill [.mapped ⟨0, 2000⟩ 0x1000#32, .mapped ⟨1, 2000⟩ 0x2000#32, .mapped ⟨2, 2000⟩ 0x3000#32],
    .dma ⟨0x00400300#32, 0#32, 0#32, 0#32⟩, .dma ⟨0x00008302#32, 0#32, 0#32, 0#32⟩]

/-- A poll with budget 1, a frame that arrives, and a poll with budget 0. -/
def twoShortPolls : List RxLabel := [.rx 1, .dma ⟨0x00400300#32, 0#32, 0#32, 0#32⟩, .rx 0]

theorem rxRun_serves_two : ∃ s u, run rxStep (.start emptyRxRing) twoOfThreeFilled = some s ∧
    run rxStep s twoShortPolls = some u ∧ s.port.info.received.length = 2 ∧
    (trace rxStep RxRun.takes s twoShortPolls).length = 2 := by
  have hall : ((run rxStep (.start emptyRxRing) twoOfThreeFilled).bind fun s =>
      (run rxStep s twoShortPolls).map fun u => (s.port.info.received.length, u.bug)) =
        some (2, none) := by decide +kernel
  obtain ⟨s, hreached, hall⟩ := Option.bind_eq_some_iff.mp hall
  obtain ⟨u, hrun, hu⟩ := Option.map_eq_some_iff.mp hall
  obtain ⟨hlength, hruns⟩ := Prod.mk.inj hu
  obtain ⟨-, hleast, hmost⟩ := rxRun_serves emptyRxRing_setup hreached hrun hruns
  rw [hlength] at hleast
  exact ⟨s, u, hreached, hrun, hlength, Nat.le_antisymm hmost hleast⟩

end NssDp.SynGmacDp
