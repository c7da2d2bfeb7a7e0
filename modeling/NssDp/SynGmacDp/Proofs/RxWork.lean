import NssDp.SynGmacDp.DataPlane
import NssDp.SynGmacDp.Proofs.RxOwnership

/-!
# The work a receive poll reports

The receive loop reaps the descriptors at the front of the busy window that the engine has
given back, one a turn, and has `min(busy, budget)` turns, or one where that is none. What it
returns is the budget less the turns it did not make, so it is the number of descriptors only
where the budget decides how many turns there are.
-/

namespace NssDp.SynGmacDp

open Lts Cyclic Word

/-- The descriptors that the engine has given back, up to the first it owns. -/
def SynDpRxInfo.handedBack (info : SynDpRxInfo) : Nat :=
  (info.busyWindow.takeWhile fun i => !(info.rxDesc i).isDescOwnedByDma).length

/-- The descriptors that a loop of `turns` turns finds given back, in order. -/
def SynDpRxInfo.reapable (info : SynDpRxInfo) (turns : Nat) : List Nat :=
  (info.busyWindow.take turns).takeWhile fun i => !(info.rxDesc i).isDescOwnedByDma

/-- The engine reports a good frame in slot `i` that is longer than the buffer there. -/
def SynDpRxInfo.Overruns (info : SynDpRxInfo) (i : Nat) : Prop :=
  isRxDescValid (info.rxDesc i).status = true ∧ ∃ skb ∈ info.rxSkbList i,
    skb.putOverflows ((getRxDescFrameLength (info.rxDesc i).status).toNat - ethFcsLen) = true

/-- Frames counted, good and bad. -/
def RxStats.frames (stats : RxStats) : BitVec 64 := stats.rxPackets + stats.rxErrors

theorem rxGood_frames (stats : RxStats) (len : Int) :
    (stats.rxGood len).frames = stats.frames + 1 := by
  simp only [RxStats.frames, RxStats.rxGood]
  ac_rfl

theorem rxBad_frames (stats : RxStats) (status : BitVec 32) :
    (stats.rxBad status).frames = stats.frames + 1 := by
  have hframes : (stats.rxBad status).frames = stats.rxPackets + (stats.rxErrors + 1) := by
    simp only [RxStats.frames, RxStats.rxBad]
    split
    · rfl
    · rfl
  rw [hframes, RxStats.frames, BitVec.add_assoc]

/-- What is taken from the front depends on what the predicate says of the list. -/
theorem takeWhile_congr {α : Type*} {p q : α → Bool} :
    ∀ {l : List α}, (∀ a ∈ l, p a = q a) → l.takeWhile p = l.takeWhile q := by
  intro l
  induction l with
  | nil => exact fun _ => rfl
  | cons a l ih =>
    intro h
    rw [List.takeWhile_cons, List.takeWhile_cons, h a List.mem_cons_self,
      ih fun b hb => h b (List.mem_cons_of_mem a hb)]

namespace RxRingInv

variable {info : SynDpRxInfo}

/-- A turn on a frame that fits its buffer is a pop. -/
theorem one_ok (h : RxRingInv info) (events : List RxEvent) (hbusy : 0 < info.busyRxDesc)
    (hfits : ¬ info.Overruns info.rxBusy) : ∃ stats es,
    rxOne ⟨info, events⟩ = .ok ⟨popRx { info with stats }, events ++ es⟩ ∧
      stats.frames = info.stats.frames + 1 := by
  obtain ⟨skb, hskb, ⟨-, -, hone⟩ | ⟨hvalid, hput, -⟩ | ⟨-, hone⟩⟩ :=
    one_turn (s := ⟨info, events⟩) h hbusy rfl
  · exact ⟨_, _, hone, rxGood_frames _ _⟩
  · exact absurd ⟨hvalid, skb, hskb, hput⟩ hfits
  · exact ⟨_, _, hone, rxBad_frames _ _⟩

/-- A turn on a frame that does not fit stops in `skb_put`. -/
theorem one_overruns (h : RxRingInv info) (events : List RxEvent) (hbusy : 0 < info.busyRxDesc)
    (hover : info.Overruns info.rxBusy) :
    ∃ port, rxOne ⟨info, events⟩ = .error ⟨.skbOverPanic, port⟩ := by
  obtain ⟨hvalid, skb, hskb, hput⟩ := hover
  obtain ⟨skb', hskb', ⟨-, hput', -⟩ | ⟨-, -, hone⟩ | ⟨hvalid', -⟩⟩ :=
    one_turn (s := ⟨info, events⟩) h hbusy rfl
  · obtain rfl : skb' = skb := Option.some.inj (hskb'.symm.trans hskb)
    exact absurd hput (Bool.eq_false_iff.mp hput')
  · exact ⟨_, hone⟩
  · exact absurd hvalid (Bool.eq_false_iff.mp hvalid')

/-- The other descriptors of the window are left alone by a pop. -/
theorem pop_other (h : RxRingInv info) (hbusy : 0 < info.busyRxDesc) (stats : RxStats) {i : Nat}
    (hi : i ∈ (popRx { info with stats }).busyWindow) :
    (popRx { info with stats }).rxDesc i = info.rxDesc i ∧
      (popRx { info with stats }).rxSkbList i = info.rxSkbList i := by
  have hne : i ≠ info.rxBusy := ne_of_mem_of_not_mem hi ((h.stats stats).base_notMem_pop hbusy)
  exact ⟨Function.update_of_ne hne _ _, Function.update_of_ne hne _ _⟩

/-- What a loop finds given back: nothing where the engine owns the first descriptor of the
    window, else the first and what a loop with one turn less finds after its pop. -/
theorem reapable_owned (h : RxRingInv info) (hbusy : 0 < info.busyRxDesc)
    (howned : (info.rxDesc info.rxBusy).isDescOwnedByDma = true) (turns : Nat) :
    info.reapable turns = [] := by
  rw [SynDpRxInfo.reapable, h.busyWindow_pop hbusy]
  cases turns with
  | zero => rfl
  | succ turns => simp [howned]

theorem reapable_succ (h : RxRingInv info) (hbusy : 0 < info.busyRxDesc)
    (howned : (info.rxDesc info.rxBusy).isDescOwnedByDma = false) (turns : Nat) (stats : RxStats) :
    info.reapable (turns + 1) =
      info.rxBusy :: (popRx { info with stats }).reapable turns := by
  have hrest : (popRx { info with stats }).reapable turns =
      ((popRx info).busyWindow.take turns).takeWhile fun i =>
        !(info.rxDesc i).isDescOwnedByDma := by
    apply takeWhile_congr
    intro i hi
    rw [(h.pop_other hbusy stats (List.mem_of_mem_take hi)).1]
  rw [hrest, SynDpRxInfo.reapable, h.busyWindow_pop hbusy, List.take_succ_cons,
    List.takeWhile_cons_of_pos (by rw [howned]; rfl)]

/-- A pop does not change whether another frame of the window fits its buffer. -/
theorem overruns_pop (h : RxRingInv info) (hbusy : 0 < info.busyRxDesc) (stats : RxStats) {i : Nat}
    (hi : i ∈ (popRx { info with stats }).busyWindow) :
    (popRx { info with stats }).Overruns i ↔ info.Overruns i := by
  obtain ⟨hdesc, hskb⟩ := h.pop_other hbusy stats hi
  rw [SynDpRxInfo.Overruns, SynDpRxInfo.Overruns, hdesc, hskb]

theorem mem_reapable {turns i : Nat} (hi : i ∈ info.reapable turns) : i ∈ info.busyWindow :=
  List.mem_of_mem_take ((List.takeWhile_sublist _).mem hi)

/-- The receive loop where every frame it reaps fits its buffer, by induction on its turns. -/
theorem loop_ok : ∀ (turns : Nat) {info : SynDpRxInfo} (events : List RxEvent), RxRingInv info →
    turns ≤ info.busyRxDesc → (∀ i ∈ info.reapable turns, ¬ info.Overruns i) →
    ∃ info' es, rxLoop turns ⟨info, events⟩ =
        .ok ((info.reapable turns).length, ⟨info', events ++ es⟩) ∧ RxRingInv info' ∧
      info'.busyWindow = info.busyWindow.drop (info.reapable turns).length ∧
      info'.stats.frames = info.stats.frames + BitVec.ofNat 64 (info.reapable turns).length := by
  intro turns
  induction turns with
  | zero =>
    intro info events h _ _
    exact ⟨info, [], by rw [List.append_nil]; rfl, h, rfl, (BitVec.add_zero _).symm⟩
  | succ turns ih =>
    intro info events h hle hfits
    have hbusy : 0 < info.busyRxDesc := by omega
    rw [rxLoop, h.busyDesc]
    by_cases howned : (info.rxDesc info.rxBusy).isDescOwnedByDma = true
    · rw [h.reapable_owned hbusy howned, if_pos howned]
      exact ⟨info, [], by rw [List.append_nil]; rfl, h, rfl, (BitVec.add_zero _).symm⟩
    · rw [Bool.not_eq_true] at howned
      have hfirst : info.rxBusy ∈ info.reapable (turns + 1) := by
        rw [h.reapable_succ hbusy howned turns info.stats]
        exact List.mem_cons_self
      obtain ⟨stats, es, hone, hframes⟩ := h.one_ok events hbusy (hfits _ hfirst)
      have hsucc := h.reapable_succ hbusy howned turns stats
      have hinv : RxRingInv (popRx { info with stats }) := (h.stats stats).pop hbusy
      have hrest : ∀ i ∈ (popRx { info with stats }).reapable turns,
          ¬ (popRx { info with stats }).Overruns i := by
        intro i hi
        rw [h.overruns_pop hbusy stats (mem_reapable hi)]
        apply hfits i
        rw [hsucc]
        exact List.mem_cons_of_mem _ hi
      obtain ⟨info', es', hloop, hinv', hwindow, hframes'⟩ := ih (events ++ es) hinv
        (show turns ≤ info.busyRxDesc - 1 by omega) hrest
      refine ⟨info', es ++ es', ?_, hinv', ?_, ?_⟩
      · rw [howned, hone]
        simp only [hloop, hsucc, List.length_cons, List.append_assoc, Bool.false_eq_true, if_false]
      · rw [hwindow, hsucc, List.length_cons, h.busyWindow_pop hbusy, List.drop_succ_cons]
        rfl
      · rw [hframes', hsucc, List.length_cons]
        show stats.frames + _ = _
        rw [hframes, BitVec.add_assoc, BitVec.ofNat_add, BitVec.add_comm (BitVec.ofNat 64 _)]
        rfl

/-- The receive loop where a frame it reaps does not fit its buffer. -/
theorem loop_overruns : ∀ (turns : Nat) {info : SynDpRxInfo} (events : List RxEvent),
    RxRingInv info → turns ≤ info.busyRxDesc → (∃ i ∈ info.reapable turns, info.Overruns i) →
    ∃ halt, rxLoop turns ⟨info, events⟩ = .error halt := by
  intro turns
  induction turns with
  | zero =>
    rintro info events h _ ⟨i, hi, -⟩
    cases hi
  | succ turns ih =>
    rintro info events h hle ⟨i, hi, hover⟩
    have hbusy : 0 < info.busyRxDesc := by omega
    rw [rxLoop, h.busyDesc]
    by_cases howned : (info.rxDesc info.rxBusy).isDescOwnedByDma = true
    · rw [h.reapable_owned hbusy howned] at hi
      cases hi
    · rw [Bool.not_eq_true] at howned
      rw [howned]
      by_cases hfirst : info.Overruns info.rxBusy
      · obtain ⟨port, hone⟩ := h.one_overruns events hbusy hfirst
        exact ⟨_, by rw [hone]; rfl⟩
      · obtain ⟨stats, es, hone, -⟩ := h.one_ok events hbusy hfirst
        rw [h.reapable_succ hbusy howned turns stats] at hi
        rcases List.mem_cons.mp hi with rfl | hi
        · exact absurd hover hfirst
        · have hinv : RxRingInv (popRx { info with stats }) := (h.stats stats).pop hbusy
          obtain ⟨halt, hloop⟩ := ih (events ++ es) hinv
            (show turns ≤ info.busyRxDesc - 1 by omega)
            ⟨i, hi, (h.overruns_pop hbusy stats (mem_reapable hi)).mpr hover⟩
          refine ⟨halt, ?_⟩
          rw [hone]
          simp only [hloop, Bool.false_eq_true, if_false]

/-- The turns that the receive loop of a call is good for. -/
theorem rx_eq (h : RxRingInv info) (hbusy : 0 < info.busyRxDesc) {budget : Int} {turns : Nat}
    (hturns : (turns : Int) = max 1 (min (info.busyRxDesc : Int) budget)) :
    synDpRx ⟨info, []⟩ budget = match rxLoop turns ⟨info, []⟩ with
      | .error halt => .error halt
      | .ok (made, s) => .ok (budget - (min (info.busyRxDesc : Int) budget - made), s) := by
  have hint : i32 info.busyRxDesc = info.busyRxDesc :=
    i32_of_lt (Nat.lt_of_le_of_lt h.busy_le (by decide))
  have hcount : (max 1 (min (info.busyRxDesc : Int) budget)).toNat = turns := by omega
  have hbusy' : info.busyRxDesc ≠ 0 := Nat.pos_iff_ne_zero.mp hbusy
  cases hloop : rxLoop turns ⟨info, []⟩ with
  | error halt => simp only [synDpRx, hbusy', hint, hcount, hloop, if_false]
  | ok r => simp only [synDpRx, hbusy', hint, hcount, hloop, if_false]

/-- A call of `syn_dp_rx` on a ring with busy descriptors. -/
theorem rx_ok (h : RxRingInv info) (hbusy : 0 < info.busyRxDesc) {budget : Int} {turns : Nat}
    (hturns : (turns : Int) = max 1 (min (info.busyRxDesc : Int) budget))
    (hfits : ∀ i ∈ info.reapable turns, ¬ info.Overruns i) : ∃ info' es,
    synDpRx ⟨info, []⟩ budget = .ok (budget - (min (info.busyRxDesc : Int) budget -
        (info.reapable turns).length), ⟨info', es⟩) ∧ RxRingInv info' ∧
      info'.busyWindow = info.busyWindow.drop (info.reapable turns).length ∧
      info'.stats.frames = info.stats.frames + BitVec.ofNat 64 (info.reapable turns).length := by
  obtain ⟨info', es, hloop, hinv, hwindow, hframes⟩ := h.loop_ok turns [] (by omega) hfits
  refine ⟨info', es, ?_, hinv, hwindow, hframes⟩
  rw [h.rx_eq hbusy hturns, hloop]
  rfl

theorem rx_overruns (h : RxRingInv info) (hbusy : 0 < info.busyRxDesc) {budget : Int} {turns : Nat}
    (hturns : (turns : Int) = max 1 (min (info.busyRxDesc : Int) budget))
    (hover : ∃ i ∈ info.reapable turns, info.Overruns i) :
    ∃ halt, synDpRx ⟨info, []⟩ budget = .error halt := by
  obtain ⟨halt, hloop⟩ := h.loop_overruns turns [] (by omega) hover
  refine ⟨halt, ?_⟩
  rw [h.rx_eq hbusy hturns, hloop]

end RxRingInv

/-- A call of `syn_dp_rx` with this budget reaps as many descriptors as the budget allows of
    those given back, returns and counts as many; and a poll with it completes NAPI exactly
    where these are fewer than the budget. -/
structure ReportsWork (info : SynDpRxInfo) (budget : Int) : Prop where
  reaps : ∃ info' es, synDpRx ⟨info, []⟩ budget = .ok (min budget info.handedBack, ⟨info', es⟩) ∧
    info'.busyWindow = info.busyWindow.drop (min budget.toNat info.handedBack) ∧
    info'.stats.frames =
      info.stats.frames + BitVec.ofNat 64 (min budget.toNat info.handedBack)
  completes : ∀ dpInfo macid env r, (dpInfo (macid - 1)).rx = info → env.budget = budget →
    synDpNapiPoll dpInfo macid env = .ok r →
      (r.completed = true ↔ min budget (info.handedBack : Int) < budget)

/-- The budget is no more than the busy descriptors, is not 0 where one of them has been given
    back, and every frame within it fits its buffer. -/
def BudgetWithin (info : SynDpRxInfo) (budget : Int) : Prop :=
  (info.busyRxDesc = 0 ∨ (1 ≤ budget ∧ budget ≤ info.busyRxDesc) ∨
      (budget = 0 ∧ info.handedBack = 0)) ∧
    ∀ i ∈ info.reapable budget.toNat, ¬ info.Overruns i

section ReportsWork

variable {info : SynDpRxInfo} {budget : Int}

theorem takeWhile_take {α : Type*} (p : α → Bool) :
    ∀ (l : List α) (n : Nat), (l.take n).takeWhile p = (l.takeWhile p).take n := by
  intro l
  induction l with
  | nil =>
    intro n
    rw [List.take_nil, List.takeWhile_nil, List.take_nil]
  | cons a l ih =>
    intro n
    cases n with
    | zero => rfl
    | succ n =>
      rw [List.take_succ_cons, List.takeWhile_cons, List.takeWhile_cons]
      split
      · rw [List.take_succ_cons, ih n]
      · rw [List.take_nil]

theorem length_reapable (info : SynDpRxInfo) (turns : Nat) :
    (info.reapable turns).length = min turns info.handedBack := by
  rw [SynDpRxInfo.reapable, takeWhile_take, List.length_take, SynDpRxInfo.handedBack]

theorem handedBack_le (info : SynDpRxInfo) : info.handedBack ≤ info.busyRxDesc := by
  have hlength : info.busyWindow.length = info.busyRxDesc := length_window _ _ _
  rw [← hlength]
  exact (List.takeWhile_sublist _).length_le

/-- A poll completes where the work that `syn_dp_rx` returns is below the budget. -/
theorem napiPoll_completed {dpInfo : Nat → SynDpInfo} {macid : Nat} {env : NapiEnv} {r : NapiPoll}
    {ret : Int} {port : RxPort}
    (hrx : synDpRx ⟨(dpInfo (macid - 1)).rx, []⟩ env.budget = .ok (ret, port))
    (hpoll : synDpNapiPoll dpInfo macid env = .ok r) : r.completed = true ↔ ret < env.budget := by
  have hsame : (synUpdateMissed dpInfo env (macid - 1)).rx = (dpInfo (macid - 1)).rx := by
    by_cases hfirst : macid - 1 = 0
    · rw [hfirst, synUpdateMissed, Function.update_self]
    · rw [synUpdateMissed, Function.update_of_ne hfirst]
  unfold synDpNapiPoll at hpoll
  simp only [hsame, hrx] at hpoll
  split at hpoll
  · cases hpoll
  · split at hpoll
    · cases hpoll
    · cases hpoll
      exact decide_eq_true_iff

/-- Whatever `syn_dp_rx` returns, the rest follows from what it should have returned. -/
theorem reportsWork_of_rx (info' : SynDpRxInfo) (es : List RxEvent)
    (hrx : synDpRx ⟨info, []⟩ budget = .ok (min budget info.handedBack, ⟨info', es⟩))
    (hwindow : info'.busyWindow = info.busyWindow.drop (min budget.toNat info.handedBack))
    (hframes : info'.stats.frames =
      info.stats.frames + BitVec.ofNat 64 (min budget.toNat info.handedBack)) :
    ReportsWork info budget := by
  refine ⟨⟨info', es, hrx, hwindow, hframes⟩, ?_⟩
  rintro dpInfo macid env r rfl rfl hpoll
  exact napiPoll_completed hrx hpoll

/-- On an empty ring the call reports no work, and there is none. -/
theorem reportsWork_of_empty (hbusy : info.busyRxDesc = 0) (hbudget : 0 ≤ budget) :
    ReportsWork info budget := by
  have hback := handedBack_le info
  have hzero : info.handedBack = 0 := by omega
  apply reportsWork_of_rx info []
  · have hmin : min budget ((0 : Nat) : Int) = 0 := by omega
    rw [synDpRx, if_pos hbusy, hzero, hmin]
  · rw [hzero, Nat.min_zero]
    rfl
  · rw [hzero, Nat.min_zero]
    exact (BitVec.add_zero _).symm

/-- The number returned is the number reaped where the budget decides how many turns there
    are, or where there is nothing to reap. -/
theorem returned_iff (hbudget : 0 ≤ budget) (hbusy : 0 < info.busyRxDesc) {turns : Nat}
    (hturns : (turns : Int) = max 1 (min (info.busyRxDesc : Int) budget)) :
    budget - (min (info.busyRxDesc : Int) budget - ((min turns info.handedBack : Nat) : Int)) =
        min budget info.handedBack ↔
      (1 ≤ budget ∧ budget ≤ info.busyRxDesc) ∨ (budget = 0 ∧ info.handedBack = 0) := by
  have hback := handedBack_le info
  omega

theorem reportsWork_iff (h : RxRingInv info) (hbudget : 0 ≤ budget) :
    ReportsWork info budget ↔ BudgetWithin info budget := by
  have hback := handedBack_le info
  rcases Nat.eq_zero_or_pos info.busyRxDesc with hzero | hbusy
  · have hnone : info.reapable budget.toNat = [] := by
      rw [← List.length_eq_zero_iff, length_reapable]
      omega
    refine iff_of_true (reportsWork_of_empty hzero hbudget) ⟨Or.inl hzero, ?_⟩
    rw [hnone]
    exact fun i hi => absurd hi List.not_mem_nil
  · obtain ⟨turns, hturns⟩ : ∃ turns : Nat,
        (turns : Int) = max 1 (min (info.busyRxDesc : Int) budget) :=
      ⟨(max 1 (min (info.busyRxDesc : Int) budget)).toNat, by omega⟩
    have hreturned := returned_iff hbudget hbusy hturns
    constructor
    · rintro ⟨⟨info', es, hrx, -, -⟩, -⟩
      by_cases hfits : ∀ i ∈ info.reapable turns, ¬ info.Overruns i
      · obtain ⟨info₁, es₁, hrx₁, -⟩ := h.rx_ok hbusy hturns hfits
        rw [hrx₁, length_reapable] at hrx
        have hret := congrArg (fun r => r.toOption.map Prod.fst) hrx
        have hcond := hreturned.mp (Option.some.inj hret)
        refine ⟨Or.inr hcond, ?_⟩
        intro i hi
        apply hfits i
        rcases hcond with hwithin | ⟨hnone, -⟩
        · rwa [show turns = budget.toNat by omega]
        · rw [hnone] at hi
          cases hi
      · obtain ⟨halt, hover⟩ := h.rx_overruns hbusy hturns (by simpa using hfits)
        rw [hover] at hrx
        cases hrx
    · rintro ⟨hcond, hfits⟩
      have hcond := hcond.resolve_left (Nat.pos_iff_ne_zero.mp hbusy)
      have hmade : min turns info.handedBack = min budget.toNat info.handedBack := by omega
      have hfits : ∀ i ∈ info.reapable turns, ¬ info.Overruns i := by
        intro i hi
        rcases hcond with hwithin | ⟨-, hnone⟩
        · rw [show turns = budget.toNat by omega] at hi
          exact hfits i hi
        · have hlength := length_reapable info turns
          rw [hnone, Nat.min_zero, List.length_eq_zero_iff] at hlength
          rw [hlength] at hi
          cases hi
      obtain ⟨info', es, hrx, -, hwindow, hframes⟩ := h.rx_ok hbusy hturns hfits
      rw [length_reapable] at hrx hwindow hframes
      rw [hreturned.mpr hcond] at hrx
      rw [hmade] at hwindow hframes
      exact reportsWork_of_rx _ _ hrx hwindow hframes

end ReportsWork

/-- In every state that refills, receive polls and engine steps reach, and for every budget:
    the call reports the work it did if and only if the budget is within the busy descriptors
    or there is nothing to report. -/
theorem rxRun_reportsWork_iff {info : SynDpRxInfo} {allocOk : Bool}
    (hsetup : synDpSetupRxDescQueue SynDpRxInfo.zero synDpRxDescSize .ringMode allocOk =
      .ok (0, info)) {as : List RxLabel} {s : RxRun}
    (hrun : run rxStep (.start info) as = some s) {budget : Int} (hbudget : 0 ≤ budget) :
    ReportsWork s.port.info budget ↔ BudgetWithin s.port.info budget :=
  reportsWork_iff (rxRun_inv hsetup hrun).port.ring hbudget

/-- Two buffers are posted, and a good frame arrives in the first. -/
def oneOfTwoReceived : List RxLabel :=
  [.refill [.mapped ⟨0, 2000⟩ 0x1000#32, .mapped ⟨1, 2000⟩ 0x2000#32],
    .dma ⟨0x00400300#32, 0#32, 0#32, 0#32⟩]

theorem rxRun_reportsWork_iff_two : ∃ s, run rxStep (.start emptyRxRing) oneOfTwoReceived = some s ∧
    (ReportsWork s.port.info 2 ↔ BudgetWithin s.port.info 2) := by
  have hsome : (run rxStep (.start emptyRxRing) oneOfTwoReceived).isSome = true := by
    decide +kernel
  obtain ⟨s, hrun⟩ := Option.isSome_iff_exists.mp hsome
  exact ⟨s, hrun, rxRun_reportsWork_iff emptyRxRing_setup hrun (by decide)⟩

/-- Of two busy descriptors one is reaped with budget 64, and the call returns 63. -/
theorem rxRun_reportsWork_64 : ∃ s, run rxStep (.start emptyRxRing) oneOfTwoReceived = some s ∧
    s.port.info.handedBack = 1 ∧ (synDpRx ⟨s.port.info, []⟩ 64).toOption.map Prod.fst = some 63 ∧
      ¬ ReportsWork s.port.info 64 := by
  have hreturns : ((run rxStep (.start emptyRxRing) oneOfTwoReceived).map fun s =>
      (s.port.info.handedBack, (synDpRx ⟨s.port.info, []⟩ 64).toOption.map Prod.fst)) =
        some (1, some 63) := by
    decide +kernel
  rw [Option.map_eq_some_iff] at hreturns
  obtain ⟨s, hrun, hpair⟩ := hreturns
  obtain ⟨hback, hret⟩ := Prod.mk.inj hpair
  refine ⟨s, hrun, hback, hret, ?_⟩
  rintro ⟨⟨info', es, hrx, -, -⟩, -⟩
  rw [hrx, hback] at hret
  cases hret

end NssDp.SynGmacDp
