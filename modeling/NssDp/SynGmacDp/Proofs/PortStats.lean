import NssDp.Misc.Lts
import NssDp.SynGmacDp.DataPlane

/-!
# The ports apart

The entries of `dp_info` in a run of polls, transmits, statistics reads and engine steps on any
ports, with what the polls have read from each MAC. A poll adds what it reads to the entry of
the first port, under the lock of that entry.
-/

namespace NssDp.SynGmacDp

open Lts

/-- A lock of an entry of `dp_info`. -/
inductive DpLock where
  | dataLock (entry : Nat)
  | statsLock (entry : Nat)
  deriving DecidableEq, Repr

/-- The entry a lock belongs to. -/
def DpLock.entry : DpLock → Nat
  | .dataLock entry => entry
  | .statsLock entry => entry

/-- An operation of a port, or a step of its DMA engine. -/
inductive DpLabel where
  | poll (macid : Nat) (env : NapiEnv)
  | xmit (macid : Nat) (skb : SkBuff) (dma : Option (BitVec 32))
  | getStats (macid : Nat)
  | dmaRelease (macid : Nat) (wb : BitVec 32)
  | dmaReceive (macid : Nat) (wb : RxReport)

namespace DpLabel

/-- The port of the step. -/
def macid : DpLabel → Nat
  | .poll macid _ => macid
  | .xmit macid _ _ => macid
  | .getStats macid => macid
  | .dmaRelease macid _ => macid
  | .dmaReceive macid _ => macid

/-- The entry of the port. -/
def entry (a : DpLabel) : Nat := a.macid - 1

/-- The locks that an operation may take: those of its own entry, but for the first of a poll
    (`syn_data_plane.c:41`). -/
def locks (a : DpLabel) : List DpLock :=
  match a with
  | .poll .. => [.statsLock 0, .dataLock a.entry, .statsLock a.entry]
  | .xmit .. => [.dataLock a.entry]
  | .getStats _ => [.statsLock a.entry]
  | .dmaRelease .. => []
  | .dmaReceive .. => []

/-- A poll of a port other than the first. -/
def PollsOther (a : DpLabel) : Prop :=
  match a with
  | .poll macid _ => macid ≠ 1
  | _ => False

/-- A poll of a port other than the first that finds frames missed. -/
def MissesOther (a : DpLabel) : Prop :=
  match a with
  | .poll macid env => macid ≠ 1 ∧ env.missed ≠ 0#64
  | _ => False

end DpLabel

/-- The entries, and for each port the sum of what has been read from its MAC and the counters that
    the last statistics read has copied. -/
structure DpRun where
  dpInfo : Nat → SynDpInfo
  read : Nat → Nat
  copied : Nat → Option (TxStats × RxStats × BitVec 64)

/-- The frames that a poll reads as missed or lost to an overflow. -/
def NapiEnv.missedFrames (env : NapiEnv) : Nat :=
  (synGetRxMissed env.missedReg).toNat + (synGetFifoOverflows env.overflowReg).toNat

/-- No MAC has been read yet. -/
def DpRun.start (dpInfo : Nat → SynDpInfo) : DpRun := ⟨dpInfo, fun _ => 0, fun _ => none⟩

/-- The entry of the port is replaced. -/
def DpRun.setEntry (s : DpRun) (a : DpLabel) (e : SynDpInfo) : DpRun :=
  { s with dpInfo := Function.update s.dpInfo a.entry e }

/-- One step on one of `ports` ports; an operation that stops at an assertion is none. -/
def dpStep (ports : Nat) (s : DpRun) (a : DpLabel) : Option DpRun :=
  if 1 ≤ a.macid ∧ a.macid ≤ ports then
    match a with
    | .poll macid env =>
      match synDpNapiPoll s.dpInfo macid env with
      | .error _ => none
      | .ok r =>
        some { s with
          dpInfo := r.dpInfo
          read := Function.update s.read macid (s.read macid + env.missedFrames) }
    | .xmit _ skb dma =>
      match synDpIfXmit (s.dpInfo a.entry).tx skb dma with
      | .error _ => none
      | .ok r => some (s.setEntry a { s.dpInfo a.entry with tx := r.info })
    | .getStats macid =>
      let stats := synDpIfGetStats s.dpInfo macid
      some { s with copied := Function.update s.copied macid (some stats) }
    | .dmaRelease _ wb =>
      (dmaRelease (s.dpInfo a.entry).tx wb).map fun tx =>
        s.setEntry a { s.dpInfo a.entry with tx }
    | .dmaReceive _ wb =>
      (dmaReceive (s.dpInfo a.entry).rx wb).map fun rx =>
        s.setEntry a { s.dpInfo a.entry with rx }
  else none

/-- The step changes its own entry only. -/
def ChangesOwn (ports : Nat) (s : DpRun) (a : DpLabel) : Prop :=
  ∀ t, dpStep ports s a = some t → ∀ q, q ≠ a.entry → t.dpInfo q = s.dpInfo q

/-- The step changes its own entry only, and takes the locks of no other. -/
def OwnEntryOnly (ports : Nat) (s : DpRun) (a : DpLabel) : Prop :=
  ChangesOwn ports s a ∧ ∀ l ∈ a.locks, l.entry = a.entry

/-- The counter of each port is the sum of what has been read from its own MAC. -/
def MissedOwn (ports : Nat) (s : DpRun) : Prop :=
  ∀ p, 1 ≤ p → p ≤ ports → (s.dpInfo (p - 1)).rxMissed = BitVec.ofNat 64 (s.read p)

section Steps

variable {ports : Nat} {s t : DpRun} {a : DpLabel}

theorem NapiEnv.missed_eq (env : NapiEnv) : env.missed = BitVec.ofNat 64 env.missedFrames := by
  rw [NapiEnv.missedFrames, BitVec.ofNat_add, BitVec.ofNat_toNat, BitVec.ofNat_toNat]
  rfl

/-- The counter of the first entry, after what a poll adds to it. -/
theorem synUpdateMissed_zero (dpInfo : Nat → SynDpInfo) (env : NapiEnv) :
    (synUpdateMissed dpInfo env 0).rxMissed = (dpInfo 0).rxMissed + env.missed := by
  rw [synUpdateMissed, Function.update_self]

theorem synUpdateMissed_ne (dpInfo : Nat → SynDpInfo) (env : NapiEnv) {q : Nat} (hq : q ≠ 0) :
    synUpdateMissed dpInfo env q = dpInfo q := Function.update_of_ne hq _ _

/-- Nothing is missed: the poll adds nothing. -/
theorem synUpdateMissed_none {dpInfo : Nat → SynDpInfo} {env : NapiEnv} (henv : env.missed = 0#64) :
    synUpdateMissed dpInfo env = dpInfo := by
  have hsame : { dpInfo 0 with rxMissed := (dpInfo 0).rxMissed + env.missed } = dpInfo 0 := by
    rw [henv, BitVec.add_zero]
  rw [synUpdateMissed, hsame, Function.update_eq_self]

/-- A poll that returns has replaced the rings of its own entry, after what it added to the
    counter of the first. -/
theorem napiPoll_dpInfo {dpInfo : Nat → SynDpInfo} {macid : Nat} {env : NapiEnv} {r : NapiPoll}
    (hpoll : synDpNapiPoll dpInfo macid env = .ok r) : ∃ tx rx,
      r.dpInfo = Function.update (synUpdateMissed dpInfo env) (macid - 1)
        { synUpdateMissed dpInfo env (macid - 1) with tx, rx } := by
  unfold synDpNapiPoll at hpoll
  simp only at hpoll
  split at hpoll
  · cases hpoll
  · split at hpoll
    · cases hpoll
    · split at hpoll
      · cases hpoll
      · cases hpoll
        exact ⟨_, _, rfl⟩

/-- What a poll leaves in the entries. -/
theorem napiPoll_frame {dpInfo : Nat → SynDpInfo} {macid : Nat} {env : NapiEnv} {r : NapiPoll}
    (hpoll : synDpNapiPoll dpInfo macid env = .ok r) :
    (∀ q, q ≠ macid - 1 → r.dpInfo q = synUpdateMissed dpInfo env q) ∧
      ∀ q, (r.dpInfo q).rxMissed = (synUpdateMissed dpInfo env q).rxMissed := by
  obtain ⟨tx, rx, heq⟩ := napiPoll_dpInfo hpoll
  rw [heq]
  constructor
  · intro q hq
    rw [Function.update_of_ne hq]
  · intro q
    by_cases hq : q = macid - 1
    · rw [hq, Function.update_self]
    · rw [Function.update_of_ne hq]

/-- A poll that is possible. -/
theorem dpStep_poll {macid : Nat} {env : NapiEnv}
    (hstep : dpStep ports s (.poll macid env) = some t) :
    1 ≤ macid ∧ ∃ r, synDpNapiPoll s.dpInfo macid env = .ok r ∧
      t = { s with
        dpInfo := r.dpInfo
        read := Function.update s.read macid (s.read macid + env.missedFrames) } := by
  unfold dpStep at hstep
  split at hstep
  case isFalse => cases hstep
  case isTrue hport =>
    simp only at hstep
    split at hstep
    · cases hstep
    · rename_i r hpoll
      exact ⟨hport.1, r, hpoll, (Option.some.inj hstep).symm⟩

/-- Every other step leaves the readings alone, and replaces the rings of its own entry. -/
theorem dpStep_other (hstep : dpStep ports s a = some t) (ha : ∀ macid env, a ≠ .poll macid env) :
    t.read = s.read ∧ ∃ e : SynDpInfo, e.rxMissed = (s.dpInfo a.entry).rxMissed ∧
      t.dpInfo = Function.update s.dpInfo a.entry e := by
  unfold dpStep at hstep
  split at hstep
  case isFalse => cases hstep
  case isTrue =>
    cases a with
    | poll macid env => exact absurd rfl (ha macid env)
    | xmit macid skb dma =>
      simp only at hstep
      split at hstep
      · cases hstep
      · rename_i r _
        cases hstep
        exact ⟨rfl, { s.dpInfo _ with tx := r.info }, rfl, rfl⟩
    | getStats macid =>
      cases hstep
      exact ⟨rfl, _, rfl, (Function.update_eq_self _ _).symm⟩
    | dmaRelease macid wb =>
      obtain ⟨tx, -, rfl⟩ := Option.map_eq_some_iff.mp hstep
      exact ⟨rfl, { s.dpInfo _ with tx }, rfl, rfl⟩
    | dmaReceive macid wb =>
      obtain ⟨rx, -, rfl⟩ := Option.map_eq_some_iff.mp hstep
      exact ⟨rfl, { s.dpInfo _ with rx }, rfl, rfl⟩

/-- A step changes its own entry only, unless it is the poll of another port than the first
    that finds frames missed. -/
theorem changesOwn_iff (hstep : dpStep ports s a = some t) :
    ChangesOwn ports s a ↔ ¬ a.MissesOther := by
  have hown : ChangesOwn ports s a ↔ ∀ q, q ≠ a.entry → t.dpInfo q = s.dpInfo q := by
    constructor
    · exact fun h => h t hstep
    · intro h u hu
      rwa [← Option.some.inj (hstep.symm.trans hu)]
  rw [hown]
  by_cases hpoll : ∃ macid env, a = .poll macid env
  · obtain ⟨macid, env, rfl⟩ := hpoll
    obtain ⟨hport, r, hr, rfl⟩ := dpStep_poll hstep
    obtain ⟨hframe, hmissed⟩ := napiPoll_frame hr
    constructor
    · rintro h ⟨hmacid, henv⟩
      have hsame : r.dpInfo 0 = s.dpInfo 0 := h 0 (by show 0 ≠ macid - 1; omega)
      have hzero := hmissed 0
      rw [hsame, synUpdateMissed_zero] at hzero
      exact henv (BitVec.self_eq_add_right.mp hzero)
    · intro h q hq
      show r.dpInfo q = s.dpInfo q
      rw [hframe q hq]
      by_cases henv : env.missed = 0#64
      · rw [synUpdateMissed_none henv]
      · have hmacid : macid = 1 := not_not.mp fun hmacid => h ⟨hmacid, henv⟩
        rw [hmacid] at hq
        exact synUpdateMissed_ne _ _ hq
  · obtain ⟨-, e, -, heq⟩ := dpStep_other hstep fun macid env h => hpoll ⟨macid, env, h⟩
    refine iff_of_true ?_ ?_
    · intro q hq
      rw [heq, Function.update_of_ne hq]
    · cases a with
      | poll macid env => exact absurd ⟨macid, env, rfl⟩ hpoll
      | xmit => exact id
      | getStats => exact id
      | dmaRelease => exact id
      | dmaReceive => exact id

/-- A poll takes the lock of the first entry, whatever its port. -/
theorem locks_own_iff (hport : 1 ≤ a.macid) :
    (∀ l ∈ a.locks, l.entry = a.entry) ↔ ¬ a.PollsOther := by
  cases a with
  | poll macid env =>
    have hport : 1 ≤ macid := hport
    have hentry : (DpLabel.poll macid env).entry = macid - 1 := rfl
    have hother : (DpLabel.poll macid env).PollsOther ↔ macid ≠ 1 := Iff.rfl
    rw [hother, DpLabel.locks, hentry, List.forall_mem_cons]
    constructor
    · rintro ⟨hfirst, -⟩
      have hfirst : 0 = macid - 1 := hfirst
      omega
    · intro hmacid
      refine ⟨show 0 = macid - 1 by omega, ?_⟩
      rintro l hl
      rcases List.mem_cons.mp hl with rfl | hl
      · rfl
      · rw [List.mem_singleton.mp hl]
        rfl
  | xmit macid skb dma =>
    refine iff_of_true ?_ id
    intro l hl
    rw [List.mem_singleton.mp hl]
    rfl
  | getStats macid =>
    refine iff_of_true ?_ id
    intro l hl
    rw [List.mem_singleton.mp hl]
    rfl
  | dmaRelease => exact iff_of_true (fun l hl => absurd hl List.not_mem_nil) id
  | dmaReceive => exact iff_of_true (fun l hl => absurd hl List.not_mem_nil) id

theorem port_of_step (hstep : dpStep ports s a = some t) : 1 ≤ a.macid := by
  unfold dpStep at hstep
  split at hstep
  case isTrue hport => exact hport.1
  case isFalse => cases hstep

theorem DpLabel.MissesOther.pollsOther (h : a.MissesOther) : a.PollsOther := by
  cases a with
  | poll macid env => exact h.1
  | xmit => exact h
  | getStats => exact h
  | dmaRelease => exact h
  | dmaReceive => exact h

theorem ownEntryOnly_iff (hstep : dpStep ports s a = some t) :
    OwnEntryOnly ports s a ↔ ¬ a.PollsOther := by
  rw [OwnEntryOnly, changesOwn_iff hstep, locks_own_iff (port_of_step hstep)]
  exact and_iff_right_of_imp fun h hmisses => h hmisses.pollsOther

/-- What a poll adds to the first counter is what it read, where its port is the first or it
    read nothing. -/
theorem missedOwn_step (h : MissedOwn ports s) (ha : ¬ a.MissesOther)
    (hstep : dpStep ports s a = some t) : MissedOwn ports t := by
  intro p hp hports
  by_cases hpoll : ∃ macid env, a = .poll macid env
  · obtain ⟨macid, env, rfl⟩ := hpoll
    obtain ⟨hmacid, r, hr, rfl⟩ := dpStep_poll hstep
    show (r.dpInfo (p - 1)).rxMissed = BitVec.ofNat 64 (Function.update s.read macid _ p)
    rw [(napiPoll_frame hr).2]
    by_cases henv : env.missed = 0#64
    · rw [synUpdateMissed_none henv, h p hp hports]
      by_cases hsame : p = macid
      · rw [hsame, Function.update_self, BitVec.ofNat_add, ← env.missed_eq, henv, BitVec.add_zero]
      · rw [Function.update_of_ne hsame]
    · obtain rfl : macid = 1 := not_not.mp fun hne => ha ⟨hne, henv⟩
      by_cases hsame : p = 1
      · subst hsame
        have hown := h 1 hp hports
        rw [Function.update_self, synUpdateMissed_zero, BitVec.ofNat_add, ← env.missed_eq,
          ← hown]
      · rw [synUpdateMissed_ne _ _ (by omega), Function.update_of_ne hsame]
        exact h p hp hports
  · obtain ⟨hread, e, hmissed, heq⟩ := dpStep_other hstep fun macid env h => hpoll ⟨macid, env, h⟩
    rw [hread, ← h p hp hports, heq]
    by_cases hentry : p - 1 = a.entry
    · rw [hentry, Function.update_self, hmissed]
    · rw [Function.update_of_ne hentry]

end Steps

/-- In a run from zero counters: every operation keeps to its own entry and its locks, and every
    counter is the sum of its own readings, exactly where no port but the first is polled; with
    the locks left out, exactly where no poll of another port finds frames missed. -/
theorem dpRun_apart_iff {ports : Nat} {dpInfo : Nat → SynDpInfo}
    (hzero : ∀ q, (dpInfo q).rxMissed = 0) {as : List DpLabel} {t : DpRun}
    (hrun : run (dpStep ports) (.start dpInfo) as = some t) :
    (StepsMeet (dpStep ports) (OwnEntryOnly ports) (.start dpInfo) as ∧
        Always (dpStep ports) (MissedOwn ports) (.start dpInfo) as ↔ ∀ a ∈ as, ¬ a.PollsOther) ∧
      (StepsMeet (dpStep ports) (ChangesOwn ports) (.start dpInfo) as ∧
        Always (dpStep ports) (MissedOwn ports) (.start dpInfo) as ↔
          ∀ a ∈ as, ¬ a.MissesOther) := by
  have hstart : MissedOwn ports (.start dpInfo) := fun p _ _ => hzero (p - 1)
  have hpolls := stepsMeet_iff_forall (C := OwnEntryOnly ports)
    (fun _ _ _ => ownEntryOnly_iff) hrun
  have hchanges := stepsMeet_iff_forall (C := ChangesOwn ports)
    (fun _ _ _ => changesOwn_iff) hrun
  have hsums (hmisses : ∀ a ∈ as, ¬ a.MissesOther) :
      Always (dpStep ports) (MissedOwn ports) (.start dpInfo) as := by
    refine always_of_stepsMeet (C := ChangesOwn ports) (fun _ h => h) ?_ hstart
      (hchanges.mpr hmisses)
    intro s a t h hown hstep
    exact missedOwn_step h ((changesOwn_iff hstep).mp hown) hstep
  rw [hpolls, hchanges]
  refine ⟨and_iff_left_of_imp ?_, and_iff_left_of_imp hsums⟩
  exact fun h => hsums fun a ha hmisses => h a ha hmisses.pollsOther

/-- A poll of the port that reads one missed frame, with no buffer to refill from. -/
def pollOneMissed (macid : Nat) : DpLabel := .poll macid ⟨64, 1#32, 0#32, []⟩

/-- The first of two ports is polled. -/
theorem dpRun_apart_iff_first : ∃ t,
    run (dpStep 2) (.start fun _ => SynDpInfo.zero) [pollOneMissed 1] = some t ∧
      (StepsMeet (dpStep 2) (OwnEntryOnly 2) (.start fun _ => SynDpInfo.zero) [pollOneMissed 1] ∧
        Always (dpStep 2) (MissedOwn 2) (.start fun _ => SynDpInfo.zero) [pollOneMissed 1] ↔
          ∀ a ∈ [pollOneMissed 1], ¬ a.PollsOther) := by
  have hsome :
      (run (dpStep 2) (.start fun _ => SynDpInfo.zero) [pollOneMissed 1]).isSome = true := by
    decide +kernel
  obtain ⟨t, hrun⟩ := Option.isSome_iff_exists.mp hsome
  exact ⟨t, hrun, (dpRun_apart_iff (fun _ => rfl) hrun).1⟩

/-- A poll of the second port that finds one frame missed counts it for the first. -/
theorem dpRun_apart_second : ∃ t,
    run (dpStep 2) (.start fun _ => SynDpInfo.zero) [pollOneMissed 2] = some t ∧
      t.read 1 = 0 ∧ (t.dpInfo 0).rxMissed = 1 ∧ t.read 2 = 1 ∧ (t.dpInfo 1).rxMissed = 0 ∧
      ¬ OwnEntryOnly 2 (.start fun _ => SynDpInfo.zero) (pollOneMissed 2) ∧ ¬ MissedOwn 2 t := by
  have hcounts : ((run (dpStep 2) (.start fun _ => SynDpInfo.zero) [pollOneMissed 2]).map fun t =>
      (t.read 1, (t.dpInfo 0).rxMissed, t.read 2, (t.dpInfo 1).rxMissed)) = some (0, 1, 1, 0) := by
    decide +kernel
  obtain ⟨t, hrun, hcounts⟩ := Option.map_eq_some_iff.mp hcounts
  simp only [Prod.mk.injEq] at hcounts
  obtain ⟨hread1, hmissed0, hread2, hmissed1⟩ := hcounts
  refine ⟨t, hrun, hread1, hmissed0, hread2, hmissed1, ?_, ?_⟩
  · rintro ⟨hchanges, -⟩
    have hstep : dpStep 2 (.start fun _ => SynDpInfo.zero) (pollOneMissed 2) = some t := by
      obtain ⟨u, hstep, hu⟩ := run_cons_some.mp hrun
      cases hu
      exact hstep
    have hsame : t.dpInfo 0 = SynDpInfo.zero := hchanges t hstep 0 (by decide)
    rw [hsame] at hmissed0
    exact absurd hmissed0 (by decide)
  · intro h
    have hsum := h 1 (by decide) (by decide)
    rw [hread1, hmissed0] at hsum
    exact absurd hsum (by decide)

end NssDp.SynGmacDp
