import Mathlib.Tactic.Common

/-!
# NAPI, one atomic step at a time

`napi_disable` first announces itself and then waits until no poll is pending, so other code
runs between its two parts. An instance is held (`NAPI_STATE_SCHED`) by the poll list, by the
poll that runs, or by the disable; while a disable is announced (`NAPI_STATE_DISABLE`) nothing
is scheduled, and a poll that has used up its budget is not put back on the list.
-/

namespace NssDp

/-- Who holds `NAPI_STATE_SCHED`. -/
inductive NapiHold where
  | free
  | queued
  | polled
  | disabled
  deriving DecidableEq, Repr

/-- A NAPI instance; `disablePending` is `NAPI_STATE_DISABLE`. -/
structure Napi where
  hold : NapiHold
  disablePending : Bool
  deriving DecidableEq, Repr

namespace Napi

/-- An instance after `netif_napi_add`. -/
def added : Napi := ⟨.disabled, false⟩

/-- `napi_schedule`. -/
def schedule (napi : Napi) : Napi :=
  if napi.hold = .free ∧ napi.disablePending = false then { napi with hold := .queued } else napi

/-- The poll list hands the instance to its poll. -/
def beginPoll (napi : Napi) : Option Napi :=
  if napi.hold = .queued then some { napi with hold := .polled } else none

/-- `napi_complete`, called by the poll. -/
def complete (napi : Napi) : Option Napi :=
  if napi.hold = .polled then some { napi with hold := .free } else none

/-- The poll returns its whole budget: it is put back on the list, or completed where a disable
    is pending. -/
def exhaust (napi : Napi) : Option Napi :=
  if napi.hold = .polled then
    some { napi with hold := if napi.disablePending then .free else .queued }
  else none

/-- `napi_enable`, which panics on an instance that is enabled. -/
def enable (napi : Napi) : Option Napi :=
  if napi.hold = .disabled then some ⟨.free, napi.disablePending⟩ else none

/-- The first part of `napi_disable`. -/
def announceDisable (napi : Napi) : Napi := { napi with disablePending := true }

/-- The second part, once nothing holds the instance. -/
def takeDisabled (napi : Napi) : Option Napi :=
  if napi.hold = .free then some ⟨.disabled, false⟩ else none

variable {napi napi' : Napi}

@[simp] theorem schedule_disablePending : napi.schedule.disablePending = napi.disablePending := by
  unfold schedule
  split
  · rfl
  · rfl

/-- Scheduling neither enables nor disables. -/
theorem schedule_disabled_iff : napi.schedule.hold = .disabled ↔ napi.hold = .disabled := by
  unfold schedule
  split
  · rename_i hfree
    rw [hfree.1]
    exact iff_of_false NapiHold.noConfusion NapiHold.noConfusion
  · exact Iff.rfl

/-- On an enabled instance that is not about to be disabled, a poll is pending afterwards. -/
theorem schedule_hold (hpending : napi.disablePending = false) (henabled : napi.hold ≠ .disabled) :
    napi.schedule.hold = .queued ∨ napi.schedule.hold = .polled := by
  unfold schedule
  cases hhold : napi.hold with
  | free => exact Or.inl (by rw [if_pos ⟨rfl, hpending⟩])
  | queued => exact Or.inl (by rw [if_neg (by rintro ⟨⟨⟩, -⟩), hhold])
  | polled => exact Or.inr (by rw [if_neg (by rintro ⟨⟨⟩, -⟩), hhold])
  | disabled => exact absurd hhold henabled

theorem beginPoll_eq (h : napi.beginPoll = some napi') :
    napi.hold = .queued ∧ napi' = { napi with hold := .polled } := by
  unfold beginPoll at h
  split at h
  case isTrue hhold => exact ⟨hhold, (Option.some.inj h).symm⟩
  case isFalse => cases h

theorem complete_eq (h : napi.complete = some napi') :
    napi.hold = .polled ∧ napi' = { napi with hold := .free } := by
  unfold complete at h
  split at h
  case isTrue hhold => exact ⟨hhold, (Option.some.inj h).symm⟩
  case isFalse => cases h

theorem exhaust_eq (h : napi.exhaust = some napi') : napi.hold = .polled ∧
    napi' = { napi with hold := if napi.disablePending then .free else .queued } := by
  unfold exhaust at h
  split at h
  case isTrue hhold => exact ⟨hhold, (Option.some.inj h).symm⟩
  case isFalse => cases h

theorem enable_eq (h : napi.enable = some napi') :
    napi.hold = .disabled ∧ napi' = ⟨.free, napi.disablePending⟩ := by
  unfold enable at h
  split at h
  case isTrue hhold => exact ⟨hhold, (Option.some.inj h).symm⟩
  case isFalse => cases h

theorem takeDisabled_eq (h : napi.takeDisabled = some napi') :
    napi.hold = .free ∧ napi' = ⟨.disabled, false⟩ := by
  unfold takeDisabled at h
  split at h
  case isTrue hhold => exact ⟨hhold, (Option.some.inj h).symm⟩
  case isFalse => cases h

end Napi

end NssDp
