import NssDp.Misc.Lts
import NssDp.SynGmacDp.IfSteps

/-!
# The interrupt and NAPI of a Synopsys port

The handler disables the interrupts before it schedules the poll, and only a poll that
completes or an open enables them again. A poll may enable them when the port has been closed
behind it, and the handler may disable them when NAPI refuses to be scheduled; neither is seen
once the port is open again, because the last statement of the open enables them after NAPI.
-/

namespace NssDp.SynGmacDp

open Lts

/-- A statement of one of the functions, the start of a poll, or a report of the MAC. -/
inductive IfLabel where
  | open
  | close
  | handleIrq
  | pollBegin
  | pollReturn (workDone budget : Int)
  | pollTail
  | raise (status : BitVec 32)

/-- The functions take their statements in any order between each other. -/
def ifStep (s : SynIf) (a : IfLabel) : Option SynIf :=
  match a with
  | .open => synDpIfOpen s
  | .close => synDpIfClose s
  | .handleIrq => synDpHandleIrq s
  | .pollBegin => s.napi.beginPoll.map fun napi => { s with napi }
  | .pollReturn workDone budget => synDpNapiPollReturn s workDone budget
  | .pollTail => synDpNapiPollTail s
  | .raise status => some { s with mac := { s.mac with dmaStatus := s.mac.dmaStatus ||| status } }

/-- A port that has not been opened yet. -/
def SynIf.start (mac : SynMac) : SynIf := ⟨mac, .added, .closed, none, 0⟩

/-- A poll is scheduled or runs, up to its last statement, or the handler, which has just
    disabled the interrupts, is about to schedule one. -/
def SynIf.PollActive (s : SynIf) : Prop :=
  s.napi.hold = .queued ∨ s.napi.hold = .polled ∨ 0 < s.tails ∨ s.irq = some .napiSchedule

/-- While the port is open and no poll is active, its interrupts are enabled; an open that has
    begun can go on, and ends with them enabled. -/
structure IfServed (s : SynIf) : Prop where
  enabled : s.phase = .opened → ¬ s.PollActive → s.mac.dmaIntEnable = synDmaIntEn
  opens : ∀ pc, s.phase = .opening pc → ∃ t, synDpIfOpen s = some t ∧
    (t.phase = .opened → t.mac.dmaIntEnable = synDmaIntEn)

/-- NAPI is disabled until the third statement of the open. -/
def IfPhase.napiOff : IfPhase → Bool
  | .closed | .opening .enableDmaRx | .opening .enableDmaTx | .opening .napiEnable => true
  | .opening .enableDmaInterrupt | .opened | .closing _ => false

/-- What every step keeps. -/
structure IfInv (s : SynIf) : Prop where
  pending : s.napi.disablePending = true → s.phase = .closing .napiDisableWait
  disabled : s.napi.hold = .disabled ↔ s.phase.napiOff = true
  served : s.phase = .opened → s.PollActive ∨ s.mac.dmaIntEnable = synDmaIntEn

/-- Where the handler was not about to schedule, a poll that is active stays so. -/
theorem PollActive.setIrq {s : SynIf} {mac : SynMac} {irq : Option IrqPc} (h : s.PollActive)
    (hirq : s.irq ≠ some .napiSchedule) : SynIf.PollActive { s with mac, irq } := by
  rcases h with hqueued | hpolled | htail | hschedule
  · exact Or.inl hqueued
  · exact Or.inr (Or.inl hpolled)
  · exact Or.inr (Or.inr (Or.inl htail))
  · exact absurd hschedule hirq

namespace IfInv

variable {s t : SynIf}

theorem start (mac : SynMac) : IfInv (.start mac) := by
  refine ⟨?_, iff_of_true rfl rfl, ?_⟩
  · intro hpending
    cases hpending
  · intro hopened
    cases hopened

/-- A statement of the open or the close that leaves NAPI alone. -/
theorem move (h : IfInv s) {mac : SynMac} {phase : IfPhase}
    (hwait : s.phase ≠ .closing .napiDisableWait) (hoff : phase.napiOff = s.phase.napiOff)
    (henabled : phase = .opened → mac.dmaIntEnable = synDmaIntEn) :
    IfInv { s with mac, phase } := by
  refine ⟨fun hpending => absurd (h.pending hpending) hwait, ?_, fun hopened => ?_⟩
  · rw [hoff]
    exact h.disabled
  · exact Or.inr (henabled hopened)

/-- A statement of open or close that is not the last and leaves NAPI alone. -/
theorem moveInside (h : IfInv s) {mac : SynMac} {old phase : IfPhase} (hphase : s.phase = old)
    (hwait : old ≠ .closing .napiDisableWait) (hoff : phase.napiOff = old.napiOff)
    (hnot : phase ≠ .opened) : IfInv { s with mac, phase } := by
  subst hphase
  exact h.move hwait hoff fun hopened => absurd hopened hnot

theorem openStep (h : IfInv s) (hstep : synDpIfOpen s = some t) : IfInv t := by
  unfold synDpIfOpen at hstep
  split at hstep
  case h_1 hphase =>
    cases hstep
    exact h.moveInside hphase (by decide) rfl (by decide)
  case h_2 hphase =>
    cases hstep
    exact h.moveInside hphase (by decide) rfl (by decide)
  case h_3 hphase =>
    cases hstep
    exact h.moveInside hphase (by decide) rfl (by decide)
  case h_4 hphase =>
    obtain ⟨napi, henable, rfl⟩ := Option.map_eq_some_iff.mp hstep
    obtain ⟨-, rfl⟩ := Napi.enable_eq henable
    refine ⟨?_, iff_of_false NapiHold.noConfusion Bool.noConfusion, fun hopened => by cases hopened⟩
    intro hpending
    have hwait := h.pending hpending
    rw [hphase] at hwait
    cases hwait
  case h_5 hphase =>
    cases hstep
    exact h.move (by rw [hphase]; decide) (by rw [hphase]; rfl) (fun _ => rfl)
  case h_6 => cases hstep
  case h_7 => cases hstep

theorem closeStep (h : IfInv s) (hstep : synDpIfClose s = some t) : IfInv t := by
  unfold synDpIfClose at hstep
  split at hstep
  case h_1 hphase =>
    cases hstep
    exact h.moveInside hphase (by decide) rfl (by decide)
  case h_2 hphase =>
    cases hstep
    exact h.moveInside hphase (by decide) rfl (by decide)
  case h_3 hphase =>
    cases hstep
    exact h.moveInside hphase (by decide) rfl (by decide)
  case h_4 hphase =>
    cases hstep
    exact h.moveInside hphase (by decide) rfl (by decide)
  case h_5 hphase =>
    cases hstep
    have hdisabled := h.disabled
    rw [hphase] at hdisabled
    exact ⟨fun _ => rfl, hdisabled, fun hopened => by cases hopened⟩
  case h_6 =>
    obtain ⟨napi, htake, rfl⟩ := Option.map_eq_some_iff.mp hstep
    obtain ⟨-, rfl⟩ := Napi.takeDisabled_eq htake
    refine ⟨?_, iff_of_true rfl rfl, ?_⟩
    · intro hpending
      cases hpending
    · intro hopened
      cases hopened
  case h_7 => cases hstep
  case h_8 => cases hstep

/-- While the port is open, NAPI is neither disabled nor about to be. -/
theorem napi_enabled (h : IfInv s) (hopened : s.phase = .opened) :
    s.napi.disablePending = false ∧ s.napi.hold ≠ .disabled := by
  constructor
  · rw [← Bool.not_eq_true]
    intro hpending
    have hwait := h.pending hpending
    rw [hopened] at hwait
    cases hwait
  · intro hdisabled
    have hoff := h.disabled.mp hdisabled
    rw [hopened] at hoff
    cases hoff

/-- The handler disables the interrupts; while the port is open, NAPI lets it schedule a poll,
    or one is active. -/
theorem handleIrq (h : IfInv s) (hstep : synDpHandleIrq s = some t) : IfInv t := by
  unfold synDpHandleIrq at hstep
  split at hstep
  case h_1 hirq =>
    split at hstep
    · cases hstep
    · cases hstep
      refine ⟨h.pending, h.disabled, fun hopened => ?_⟩
      exact (h.served hopened).imp_left (PollActive.setIrq · (by rw [hirq]; decide))
  case h_2 hirq =>
    cases hstep
    refine ⟨h.pending, h.disabled, fun hopened => ?_⟩
    exact (h.served hopened).imp_left (PollActive.setIrq · (by rw [hirq]; decide))
  case h_3 =>
    cases hstep
    exact ⟨h.pending, h.disabled, fun _ => Or.inl (Or.inr (Or.inr (Or.inr rfl)))⟩
  case h_4 =>
    cases hstep
    refine ⟨?_, Napi.schedule_disabled_iff.trans h.disabled, ?_⟩
    · intro hpending
      rw [Napi.schedule_disablePending] at hpending
      exact h.pending hpending
    · intro hopened
      obtain ⟨hpending, henabled⟩ := h.napi_enabled hopened
      exact Or.inl ((Napi.schedule_hold hpending henabled).imp_right Or.inl)

/-- An instance that is not disabled may change hands. -/
theorem hold_iff (h : IfInv s) (henabled : s.napi.hold ≠ .disabled) {hold : NapiHold}
    (hnew : hold ≠ .disabled) : hold = .disabled ↔ s.phase.napiOff = true :=
  iff_of_false hnew fun hoff => henabled (h.disabled.mpr hoff)

theorem pollBegin (h : IfInv s) {napi : Napi} (hbegin : s.napi.beginPoll = some napi) :
    IfInv { s with napi } := by
  obtain ⟨hhold, rfl⟩ := Napi.beginPoll_eq hbegin
  refine ⟨h.pending, ?_, fun _ => Or.inl (Or.inr (Or.inl rfl))⟩
  exact h.hold_iff (by rw [hhold]; decide) NapiHold.noConfusion

/-- A poll that completes still has to enable the interrupts; one that does not is scheduled
    again, unless the port is about to close. -/
theorem pollReturn (h : IfInv s) {workDone budget : Int}
    (hstep : synDpNapiPollReturn s workDone budget = some t) : IfInv t := by
  unfold synDpNapiPollReturn at hstep
  split at hstep
  · obtain ⟨napi, hcomplete, rfl⟩ := Option.map_eq_some_iff.mp hstep
    obtain ⟨hhold, rfl⟩ := Napi.complete_eq hcomplete
    refine ⟨h.pending, h.hold_iff (by rw [hhold]; decide) NapiHold.noConfusion, ?_⟩
    exact fun _ => Or.inl (Or.inr (Or.inr (Or.inl (Nat.zero_lt_succ s.tails))))
  · obtain ⟨napi, hexhaust, rfl⟩ := Option.map_eq_some_iff.mp hstep
    obtain ⟨hhold, rfl⟩ := Napi.exhaust_eq hexhaust
    refine ⟨h.pending, h.hold_iff (by rw [hhold]; decide) ?_, ?_⟩
    · split
      · exact NapiHold.noConfusion
      · exact NapiHold.noConfusion
    · intro hopened
      refine Or.inl (Or.inl ?_)
      simp only [(h.napi_enabled hopened).1, Bool.false_eq_true, if_false]

theorem pollTail (h : IfInv s) (hstep : synDpNapiPollTail s = some t) : IfInv t := by
  unfold synDpNapiPollTail at hstep
  split at hstep
  · cases hstep
  · cases hstep
    exact ⟨h.pending, h.disabled, fun _ => Or.inr rfl⟩

theorem step (h : IfInv s) {a : IfLabel} (hstep : ifStep s a = some t) : IfInv t := by
  cases a with
  | «open» => exact h.openStep hstep
  | close => exact h.closeStep hstep
  | handleIrq => exact h.handleIrq hstep
  | pollBegin =>
    obtain ⟨napi, hbegin, rfl⟩ := Option.map_eq_some_iff.mp hstep
    exact h.pollBegin hbegin
  | pollReturn workDone budget => exact h.pollReturn hstep
  | pollTail => exact h.pollTail hstep
  | raise status =>
    cases hstep
    exact ⟨h.pending, h.disabled, h.served⟩

theorem ifServed (h : IfInv s) : IfServed s := by
  refine ⟨fun hopened hidle => (h.served hopened).resolve_left hidle, ?_⟩
  intro pc hphase
  unfold synDpIfOpen
  rw [hphase]
  cases pc with
  | enableDmaRx => exact ⟨_, rfl, fun hopened => by cases hopened⟩
  | enableDmaTx => exact ⟨_, rfl, fun hopened => by cases hopened⟩
  | napiEnable =>
    have hdisabled : s.napi.hold = .disabled := by
      rw [h.disabled, hphase]
      rfl
    refine ⟨_, by simp only [Napi.enable, hdisabled, if_true, Option.map_some]; rfl, ?_⟩
    intro hopened
    cases hopened
  | enableDmaInterrupt => exact ⟨_, rfl, fun _ => rfl⟩

end IfInv

/-- In every state of every run from a closed port: while the port is open and no poll is
    active the interrupts are enabled, and every open can be ended and ends with them enabled. -/
theorem ifRun_served (mac : SynMac) (as : List IfLabel) : Always ifStep IfServed (.start mac) as :=
  always_of_inv (fun _ h => h.ifServed) (fun _ _ _ h hstep => h.step hstep) (IfInv.start mac)

/-- A poll that has called `napi_complete` enables the interrupts of a port that has been closed
    behind it; the handler disables them, and NAPI refuses to be scheduled. -/
example : ((run ifStep (.start ⟨0#32, 0#32, 0#32⟩)
    [.open, .open, .open, .open, .open, .handleIrq, .handleIrq, .handleIrq, .handleIrq, .pollBegin,
      .pollReturn 0 64, .close, .close, .close, .close, .close, .close, .pollTail, .handleIrq,
      .handleIrq, .handleIrq, .handleIrq]).map fun s =>
        (s.phase, s.napi.hold, s.mac.dmaIntEnable)) =
      some (.closed, .disabled, synDmaIntDisable) := by
  decide

end NssDp.SynGmacDp
