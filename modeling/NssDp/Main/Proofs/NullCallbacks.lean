import NssDp.Main.NetdevOps
import NssDp.Main.Proofs.InitDone

/-!
# Callbacks that are NULL

An overlay driver may leave members of its table of callbacks NULL. An override rejects the
tables in which a member is missing that it requires, but the driver also calls `init`,
`vsi_assign`, `vsi_unassign` and `get_stats`, which are not required.
-/

namespace NssDp

open Edma Lts

/-- The calls into the driver that may call the data plane of a port. -/
inductive DevOp where
  | port (c : PortCall)
  | changeMtu (p newmtu : Nat) (env : CallEnv)
  | setMacAddress (p macaddr : Nat) (prepare : DevRet) (env : CallEnv)
  | xmit (p : Nat) (skb : SkBuff) (env : XmitEnv) (accept : Bool)
  | rxFlowSteer (p : Nat) (flow : Option RxFlow) (del add : CallEnv)
  | getStats (p : Nat) (env : CallEnv)
  | adjustLink (p : Nat) (link : Bool) (env : CallEnv)

def DevOp.at : DevOp → Nat
  | .port c => c.port
  | .changeMtu p _ _ | .setMacAddress p _ _ _ | .xmit p _ _ _ | .rxFlowSteer p _ _ _
  | .getStats p _ | .adjustLink p _ _ => p

def devOp (plat : Platform) (s : Driver) : DevOp → Except Halt Driver
  | .port c => portCall plat s c
  | .changeMtu p newmtu env => (nssDpChangeMtu plat s p newmtu env).map Prod.snd
  | .setMacAddress p macaddr prepare env =>
    (nssDpSetMacAddress plat s p macaddr prepare env).map Prod.snd
  | .xmit p skb env accept => (nssDpXmit s p skb env accept).map Prod.snd
  | .rxFlowSteer p flow del add => (nssDpRxFlowSteer plat s p flow del add).map Prod.snd
  | .getStats p env => nssDpGetStats plat s p env
  | .adjustLink p link env => nssDpAdjustLink plat s p link env

/-- The calls come in any order. After one that does not return there is no other. -/
def devOpStep (plat : Platform) : Except Halt Driver → DevOp → Option (Except Halt Driver)
  | .ok s, op => if op.at ∈ plat.ports then some (devOp plat s op) else none
  | .error _, _ => none

/-- A call has called a callback that is NULL. -/
def CallsNull {α : Type} (r : Except Halt α) : Prop := ∃ p cb, r = .error (.nullCallback p cb)

section CallsNull

variable {α β : Type} {r : Except Halt α}

@[simp] theorem callsNull_ok {a : α} : ¬ CallsNull (.ok a : Except Halt α) := by
  rintro ⟨p, cb, h⟩
  cases h

@[simp] theorem callsNull_null {p : Nat} {cb : DpCallback} :
    CallsNull (.error (.nullCallback p cb) : Except Halt α) := ⟨p, cb, rfl⟩

@[simp] theorem callsNull_returned {x : Option α} : ¬ CallsNull (returned x) := by
  rintro ⟨p, cb, h⟩
  cases x <;> cases h

@[simp] theorem callsNull_map {f : α → β} : CallsNull (r.map f) ↔ CallsNull r :=
  exists_congr fun _ => exists_congr fun _ => Except.map_eq_error_iff

theorem callsNull_bind {f : α → Except Halt β} :
    CallsNull (r.bind f) ↔ CallsNull r ∨ ∃ a, r = .ok a ∧ CallsNull (f a) := by
  constructor
  · rintro ⟨p, cb, h⟩
    rcases Except.bind_eq_error_iff.mp h with h | ⟨a, ha, h⟩
    · exact Or.inl ⟨p, cb, h⟩
    · exact Or.inr ⟨a, ha, p, cb, h⟩
  · rintro (⟨p, cb, h⟩ | ⟨a, ha, p, cb, h⟩)
    · exact ⟨p, cb, Except.bind_eq_error_iff.mpr (Or.inl h)⟩
    · exact ⟨p, cb, Except.bind_eq_error_iff.mpr (Or.inr ⟨a, ha, h⟩)⟩

theorem callsNull_orReturn {err : DevRet} {r : Except Halt (Bool × Driver)}
    {next : Driver → Except Halt (DevRet × Driver)} :
    CallsNull (orReturn err r next) ↔
      CallsNull r ∨ ∃ m, r = .ok (true, m) ∧ CallsNull (next m) := by
  rw [orReturn, callsNull_bind]
  refine or_congr_right ⟨?_, ?_⟩
  · rintro ⟨⟨ok, m⟩, hr, hnull⟩
    cases ok with
    | true => exact ⟨m, hr, hnull⟩
    | false => exact absurd hnull callsNull_ok
  · rintro ⟨m, hr, hnull⟩
    exact ⟨(true, m), hr, hnull⟩

end CallsNull

/-- The tables of the ports have the members that an override requires. -/
def TablesOk (s : Driver) : Prop := ∀ p, ¬ MissesRequired (s.planes p).ops.missing

/-- `nss_dp_close` does not call `vsi_unassign` where it is NULL. -/
def ClosePresent (plat : Platform) (s : Driver) (p : Nat) (env : CallEnv) : Prop :=
  plat.soc.ppeSupport = true → s.answer plat p env .linkState = true →
    .vsiUnassign ∉ (s.dev p).dataPlaneOps.missing

/-- `nss_dp_open` does not call `init` or `vsi_assign` where they are NULL. -/
def OpenPresent (plat : Platform) (s : Driver) (p : Nat) (env : CallEnv) : Prop :=
  ((s.dev p).initDone = false → .init ∉ (s.dev p).dataPlaneOps.missing) ∧
    (plat.soc.ppeSupport = true → s.initOk plat p env = true →
      .vsiAssign ∉ (s.dev p).dataPlaneOps.missing)

section Present

variable {plat : Platform} {s s' : Driver} {p : Nat} {dpc : DpcPtr} {env : CallEnv}
  {cb : DpCallback}

theorem TablesOk.of_planes (h : TablesOk s) (hplanes : s'.planes = s.planes) : TablesOk s' := by
  intro p
  rw [hplanes]
  exact h p

theorem TablesOk.present (h : TablesOk s) (p : Nat) (hcb : cb ∈ requiredCallbacks) :
    cb ∉ (s.planes p).ops.missing := fun hmiss => h p ⟨cb, hcb, hmiss⟩

theorem callsNull_callback :
    CallsNull (s.callback plat p dpc env cb) ↔ cb ∈ (s.planes p).ops.missing := by
  unfold Driver.callback
  dsimp only
  split
  · rename_i hmiss
    exact iff_of_true callsNull_null hmiss
  · rename_i hmiss
    rw [callsNull_map]
    exact iff_of_false callsNull_returned hmiss

theorem callsNull_ownCallback :
    CallsNull (s.ownCallback plat p env cb) ↔ cb ∈ (s.planes p).ops.missing := callsNull_callback

variable (plat env cb) in
/-- A data plane other than EDMA always answers. -/
theorem ownCallback_other_eq (hops : (s.dev p).dataPlaneOps ≠ .edma)
    (hcb : cb ∉ (s.dev p).dataPlaneOps.missing) :
    ∃ s', s.ownCallback plat p env cb = .ok (env.ok cb, s') ∧ s'.planes = s.planes := by
  have hok : ∃ s', s.ownCallback plat p env cb = .ok (env.ok cb, s') := by
    unfold Driver.ownCallback Driver.callback
    dsimp only
    rw [if_neg hcb]
    cases hcase : (s.dev p).dataPlaneOps with
    | edma => exact absurd hcase hops
    | synGmac | overlay => exact ⟨_, rfl⟩
  obtain ⟨s', hs'⟩ := hok
  exact ⟨s', hs', (callback_called hs').planes⟩

/-- A call that goes on after a callback that is required. -/
theorem not_callsNull_required {err : DevRet} {next : Driver → Except Halt (DevRet × Driver)}
    (h : TablesOk s) (hcb : cb ∈ requiredCallbacks)
    (hnext : ∀ m, TablesOk m → ¬ CallsNull (next m)) :
    ¬ CallsNull (orReturn err (s.ownCallback plat p env cb) next) := by
  rw [callsNull_orReturn, callsNull_ownCallback]
  rintro (hmiss | ⟨m, hm, hnull⟩)
  · exact h.present p hcb hmiss
  · exact hnext m (h.of_planes (callback_called hm).planes) hnull

/-- EDMA has the callbacks that `nss_dp_open` and `nss_dp_close` call. -/
theorem ne_edma_of_missing (hmiss : cb ∈ (s.dev p).dataPlaneOps.missing) (hcb : cb ≠ .getStats) :
    (s.dev p).dataPlaneOps ≠ .edma := by
  intro hedma
  rw [hedma] at hmiss
  exact hcb (List.mem_singleton.mp hmiss)

/-- `nss_dp_close` calls a NULL callback where it gets to a missing `vsi_unassign`. -/
theorem nssDpClose_null (hwf : Wf plat s) (h : TablesOk s) (hp : p ∈ plat.ports) :
    CallsNull (nssDpClose plat s p env) ↔ ¬ ClosePresent plat s p env := by
  unfold nssDpClose
  dsimp only
  have hquiet : Quiet (s.setQueueStopped p true) ((s.setQueueStopped p true).setCarrier p false) :=
    Quiet.setCarrier false
  have hplanes := hquiet.planes.trans (setQueueStopped_planes true)
  have hwf₀ : Wf plat ((s.setQueueStopped p true).setCarrier p false) :=
    hquiet.wf (setQueueStopped_wf hwf true)
  have hanswer : ((s.setQueueStopped p true).setCarrier p false).answer plat p env .linkState =
      s.answer plat p env .linkState := hquiet.answer.trans (setQueueStopped_answer true)
  rw [callsNull_orReturn, callsNull_ownCallback]
  constructor
  · rintro (hmiss | ⟨m, hlink, hnull⟩) hpresent
    · exact (h.of_planes hplanes).present p (by decide) hmiss
    have hlinkOk := (ownCallback_answer hwf₀ hp (by simp) hlink).trans hanswer
    have hplanes' : (m.setLinkState p .down).planes = s.planes :=
      (Quiet.setLinkState .down).planes.trans ((callback_called hlink).planes.trans hplanes)
    rw [callsNull_orReturn] at hnull
    rcases hnull with hnull | ⟨m', hvsi, hnull⟩
    · split at hnull
      · rename_i hppe
        rw [callsNull_ownCallback, hplanes'] at hnull
        exact hpresent hppe hlinkOk.symm hnull
      · exact callsNull_ok hnull
    · have htables : TablesOk m' := by
        split at hvsi
        · exact h.of_planes ((callback_called hvsi).planes.trans hplanes')
        · cases hvsi
          exact h.of_planes hplanes'
      exact not_callsNull_required htables (by decide) (fun _ _ => callsNull_ok) hnull
  · intro hnot
    simp only [ClosePresent, Classical.not_imp, not_not] at hnot
    obtain ⟨hppe, hlinkOk, hmiss⟩ := hnot
    have hops := ne_edma_of_missing hmiss (by simp)
    have hops' : (((s.setQueueStopped p true).setCarrier p false).dev p).dataPlaneOps =
        (s.dev p).dataPlaneOps := congrArg Plane.ops (congrFun hplanes p)
    rw [answer_other hops] at hlinkOk
    obtain ⟨m, hm, hplanes'⟩ := ownCallback_other_eq plat env .linkState
      (by rwa [hops']) ((h.of_planes hplanes).present p (by decide))
    rw [hlinkOk] at hm
    refine Or.inr ⟨m, hm, ?_⟩
    rw [callsNull_orReturn, if_pos hppe, callsNull_ownCallback,
      (Quiet.setLinkState (p := p) .down).planes, hplanes', hplanes]
    exact Or.inl hmiss

theorem initOnce_null :
    CallsNull (initOnce plat s p env) ↔
      (s.dev p).initDone = false ∧ .init ∈ (s.planes p).ops.missing := by
  unfold initOnce
  split
  · rename_i hdone
    rw [hdone]
    exact iff_of_false callsNull_ok fun h => nomatch h.1
  · rename_i hdone
    rw [callsNull_map, callsNull_ownCallback]
    exact ⟨fun hmiss => ⟨Bool.eq_false_of_not_eq_true hdone, hmiss⟩, And.right⟩

variable (plat env) in
/-- The data plane of a port that has no `vsi_assign` is initialised as it answers. -/
theorem initOnce_other_eq (hops : (s.dev p).dataPlaneOps ≠ .edma)
    (hpresent : (s.dev p).initDone = false → .init ∉ (s.dev p).dataPlaneOps.missing) :
    ∃ m, initOnce plat s p env = .ok (s.initOk plat p env, m) ∧ m.planes = s.planes := by
  unfold initOnce
  split
  · rename_i hdone
    rw [Driver.initOk, hdone]
    exact ⟨s, rfl, rfl⟩
  · rename_i hdone
    have hdone' := Bool.eq_false_of_not_eq_true hdone
    obtain ⟨m, hm, hplanes⟩ := ownCallback_other_eq plat env .init hops (hpresent hdone')
    rw [hm, Driver.initOk, hdone', answer_other hops, Bool.false_or]
    refine ⟨_, rfl, ?_⟩
    dsimp only
    split
    · exact (modify_planes rfl rfl).trans hplanes
    · exact hplanes

/-- `nss_dp_open` calls a NULL callback where it gets to a missing `init` or `vsi_assign`. -/
theorem nssDpOpen_null (hwf : Wf plat s) (h : TablesOk s) (hp : p ∈ plat.ports) :
    CallsNull (nssDpOpen plat s p env) ↔ ¬ OpenPresent plat s p env := by
  unfold nssDpOpen
  have hquiet : Quiet s (s.setCarrier p false) := Quiet.setCarrier false
  have hops : ((s.setCarrier p false).dev p).dataPlaneOps = (s.dev p).dataPlaneOps :=
    hquiet.dataPlaneOps p
  have hdone : ((s.setCarrier p false).dev p).initDone = (s.dev p).initDone := hquiet.initDone p
  rw [callsNull_orReturn, initOnce_null, hquiet.planes, hdone]
  constructor
  · rintro (⟨hdone, hmiss⟩ | ⟨m, hinit, hnull⟩) hpresent
    · exact hpresent.1 hdone hmiss
    obtain ⟨hok, hrun, -⟩ := initOnce_run hwf hp hquiet hinit
    have hplanes := (hrun rfl).planes
    rw [callsNull_bind, callsNull_ownCallback, hplanes] at hnull
    rcases hnull with hmiss | ⟨r, hfeatures, hnull⟩
    · exact h.present p (by decide) hmiss
    have hplanes' : (r.2.setUp p true).planes = s.planes :=
      (modify_planes rfl rfl).trans ((callback_called hfeatures).planes.trans hplanes)
    rw [callsNull_orReturn] at hnull
    rcases hnull with hnull | ⟨m', hvsi, hnull⟩
    · split at hnull
      · rename_i hppe
        rw [callsNull_ownCallback, hplanes'] at hnull
        exact hpresent.2 hppe hok.symm hnull
      · exact callsNull_ok hnull
    have htables : TablesOk m' := by
      split at hvsi
      · exact h.of_planes ((callback_called hvsi).planes.trans hplanes')
      · cases hvsi
        exact h.of_planes hplanes'
    -- from here on, `nss_dp_open` calls what an override requires
    refine not_callsNull_required htables (by decide) (fun m₁ h₁ => ?_) hnull
    apply not_callsNull_required h₁ (by decide)
    intro m₂ h₂
    apply not_callsNull_required h₂ (by decide)
    intro m₃ h₃
    have h₄ : TablesOk (m₃.setQueueStopped p false) := h₃.of_planes (setQueueStopped_planes false)
    dsimp only
    split
    · exact callsNull_ok
    · exact not_callsNull_required h₄ (by decide) fun _ _ => callsNull_ok
  · intro hnot
    by_cases hinit : (s.dev p).initDone = false → .init ∉ (s.dev p).dataPlaneOps.missing
    · have hvsi : ¬ (plat.soc.ppeSupport = true → s.initOk plat p env = true →
          .vsiAssign ∉ (s.dev p).dataPlaneOps.missing) := fun hvsi => hnot ⟨hinit, hvsi⟩
      simp only [Classical.not_imp, not_not] at hvsi
      obtain ⟨hppe, hok, hmiss⟩ := hvsi
      have hother := ne_edma_of_missing hmiss (by simp)
      obtain ⟨m, hm, hplanes⟩ := initOnce_other_eq plat env (s := s.setCarrier p false)
        (p := p) (by rwa [hops]) (by rwa [hops, hdone])
      have hok' : (s.setCarrier p false).initOk plat p env = s.initOk plat p env := by
        rw [Driver.initOk, Driver.initOk, hdone, hquiet.answer]
      rw [hok', hok] at hm
      have hplanes' := hplanes.trans hquiet.planes
      have hops' : (m.dev p).dataPlaneOps = (s.dev p).dataPlaneOps :=
        congrArg Plane.ops (congrFun hplanes' p)
      obtain ⟨c, hc, hplanes''⟩ := ownCallback_other_eq plat env
        .setFeatures (by rwa [hops']) ((h.of_planes hplanes').present p (by decide))
      refine Or.inr ⟨m, hm, ?_⟩
      rw [callsNull_bind]
      refine Or.inr ⟨_, hc, ?_⟩
      rw [callsNull_orReturn, if_pos hppe, callsNull_ownCallback]
      refine Or.inl ?_
      rw [Driver.setUp, modify_planes rfl rfl, hplanes'', hplanes']
      exact hmiss
    · simp only [Classical.not_imp, not_not] at hinit
      exact Or.inl hinit

end Present

/-- When a call finds the callbacks it calls. -/
def CallbacksPresent (plat : Platform) (s : Driver) : DevOp → Prop
  | .port (.devOpen p env) => OpenPresent plat s p env
  | .port (.devClose p env) => ClosePresent plat s p env
  | .port (.override p _ missing _ env) =>
    MissesRequired missing ∨ (s.dev p).up = false ∨ ClosePresent plat s p env
  | .port (.start p dpc env) =>
    (s.dev p).up = true ∨ (s.dev p).dpc ≠ dpc ∨ OpenPresent plat s p env
  | .port (.restore p env) => (s.dev p).up = false ∨ ClosePresent plat s p env
  | .getStats p _ =>
    plat.soc.statsFromDataPlane = true → .getStats ∉ (s.dev p).dataPlaneOps.missing
  | .changeMtu _ _ _ | .setMacAddress _ _ _ _ | .xmit _ _ _ _ | .rxFlowSteer _ _ _ _
  | .adjustLink _ _ _ => True

section Ops

variable {plat : Platform} {s s' : Driver} {p : Nat} {env : CallEnv}

theorem stopIfUp_null (hwf : Wf plat s) (h : TablesOk s) (hp : p ∈ plat.ports) :
    CallsNull (stopIfUp plat s p env) ↔ (s.dev p).up = true ∧ ¬ ClosePresent plat s p env := by
  unfold stopIfUp
  split
  · rename_i hup
    rw [callsNull_map, nssDpClose_null hwf h hp]
    exact (and_iff_right hup).symm
  · rename_i hup
    exact iff_of_false callsNull_ok fun h => hup h.1

theorem deinitOnce_not_null {dpc : DpcPtr} (h : TablesOk s) :
    ¬ CallsNull (deinitOnce plat s p dpc env) := by
  unfold deinitOnce
  split
  · rw [callsNull_map, callsNull_callback]
    exact h.present p (by decide)
  · exact callsNull_ok

theorem portCall_null {c : PortCall} (hwf : Wf plat s) (h : TablesOk s)
    (hp : c.port ∈ plat.ports) :
    CallsNull (portCall plat s c) ↔ ¬ CallbacksPresent plat s (.port c) := by
  cases c with
  | devOpen p env => rw [portCall, callsNull_map, nssDpOpen_null (p := p) hwf h hp,
      CallbacksPresent]
  | devClose p env => rw [portCall, callsNull_map, nssDpClose_null (p := p) hwf h hp,
      CallbacksPresent]
  | override p id missing dpc env =>
    rw [portCall, callsNull_map, CallbacksPresent, not_or, not_or, Bool.not_eq_false]
    unfold nssDpOverrideDataPlane
    split
    · rename_i hmiss
      exact iff_of_false callsNull_ok fun hnot => hnot.1 hmiss
    · rename_i hmiss
      rw [callsNull_bind, stopIfUp_null (p := p) hwf h hp]
      constructor
      · rintro (hnull | ⟨m, hm, hnull⟩)
        · exact ⟨hmiss, hnull⟩
        · have htables := h.of_planes (stopIfUp_run hwf hp hm).planes
          rw [callsNull_orReturn] at hnull
          rcases hnull with hnull | ⟨m', -, hnull⟩
          · exact absurd hnull (deinitOnce_not_null htables)
          · exact absurd hnull callsNull_ok
      · exact fun hnot => Or.inl hnot.2
  | start p dpc env =>
    rw [portCall, CallbacksPresent, not_or, not_or, not_not]
    unfold nssDpStartDataPlane
    split
    · rename_i hup
      exact iff_of_false callsNull_ok fun hnot => hnot.1 hup
    rename_i hup
    split
    · rename_i hdpc
      exact iff_of_false callsNull_ok fun hnot => hdpc hnot.2.1
    rename_i hdpc
    rw [callsNull_map, nssDpOpen_null (p := p) hwf h hp]
    exact ⟨fun hnot => ⟨hup, not_not.mp hdpc, hnot⟩, fun hnot => hnot.2.2⟩
  | restore p env =>
    rw [portCall, CallbacksPresent, not_or, Bool.not_eq_false]
    unfold nssDpRestoreDataPlane
    rw [callsNull_map, stopIfUp_null (p := p) hwf h hp]

/-- The other operations call what an override requires, or look first. -/
theorem devOp_null {op : DevOp} (hwf : Wf plat s) (h : TablesOk s) (hp : op.at ∈ plat.ports) :
    CallsNull (devOp plat s op) ↔ ¬ CallbacksPresent plat s op := by
  cases op with
  | port c => exact portCall_null hwf h hp
  | changeMtu p newmtu env =>
    rw [devOp, callsNull_map, CallbacksPresent]
    refine iff_of_false ?_ (not_not_intro trivial)
    exact not_callsNull_required h (by decide) fun _ _ => callsNull_ok
  | setMacAddress p macaddr prepare env =>
    rw [devOp, callsNull_map, CallbacksPresent]
    refine iff_of_false ?_ (not_not_intro trivial)
    unfold nssDpSetMacAddress
    split
    · exact callsNull_ok
    · exact not_callsNull_required h (by decide) fun _ _ => callsNull_ok
  | xmit p skb env accept =>
    rw [devOp, callsNull_map, CallbacksPresent]
    refine iff_of_false ?_ (not_not_intro trivial)
    have hpresent : .xmit ∉ (s.dev p).dataPlaneOps.missing := h.present p (by decide)
    unfold nssDpXmit
    dsimp only
    rw [if_neg hpresent, callsNull_map]
    exact callsNull_returned
  | rxFlowSteer p flow del add =>
    rw [devOp, callsNull_map, CallbacksPresent]
    refine iff_of_false ?_ (not_not_intro trivial)
    unfold nssDpRxFlowSteer
    split
    · exact callsNull_ok
    split
    · exact callsNull_ok
    split
    · exact callsNull_ok
    rename_i hpresent
    rw [callsNull_orReturn, callsNull_ownCallback]
    rintro (hmiss | ⟨m, hm, hnull⟩)
    · exact hpresent hmiss
    · rw [callsNull_orReturn, callsNull_ownCallback, (callback_called hm).planes] at hnull
      rcases hnull with hmiss | ⟨m', -, hnull⟩
      · exact hpresent hmiss
      · exact callsNull_ok hnull
  | getStats p env =>
    rw [devOp, CallbacksPresent, Classical.not_imp, not_not]
    unfold nssDpGetStats
    split
    · rename_i hstats
      rw [callsNull_map, callsNull_ownCallback]
      exact (and_iff_right hstats).symm
    · rename_i hstats
      exact iff_of_false callsNull_ok fun hnot => hstats hnot.1
  | adjustLink p link env =>
    rw [devOp, CallbacksPresent]
    refine iff_of_false ?_ (not_not_intro trivial)
    have hlink : ¬ CallsNull (s.ownCallback plat p env .linkState) := by
      rw [callsNull_ownCallback]
      exact h.present p (by decide)
    unfold nssDpAdjustLink
    dsimp only
    split
    · exact callsNull_ok
    split
    · exact callsNull_ok
    split
    · exact callsNull_ok
    split
    · rwa [callsNull_map]
    · rwa [callsNull_map]

end Ops

/-- What the calls keep of a driver that has not halted. -/
structure OpInv (plat : Platform) (s : Driver) : Prop where
  wf : Wf plat s
  tables : TablesOk s

/-- When a step finds the callbacks it calls. -/
def FindsCallbacks (plat : Platform) : Except Halt Driver → DevOp → Prop
  | .ok s, op => CallbacksPresent plat s op
  | .error _, _ => True

section Steps

variable {plat : Platform} {s s' : Driver} {p : Nat} {env : CallEnv} {op : DevOp}

theorem OpInv.quiet (h : OpInv plat s) (hquiet : Quiet s s') : OpInv plat s' :=
  ⟨hquiet.wf h.wf, h.tables.of_planes hquiet.planes⟩

/-- A data plane is installed that has what is required. -/
theorem TablesOk.update (h : TablesOk s) (plane : Plane)
    (hplane : ¬ MissesRequired plane.ops.missing)
    (hplanes : s'.planes = Function.update s.planes p plane) : TablesOk s' := by
  intro q
  rw [hplanes, Function.update_apply]
  split
  · exact hplane
  · exact h q

theorem halOps_required (soc : Soc) : ¬ MissesRequired soc.halOps.missing := by
  cases soc <;> simp [MissesRequired, requiredCallbacks, Soc.halOps, Soc.ppeSupport,
    DataPlaneOps.missing]

theorem PortRun.tables {c : PortCall} (hrun : PortRun plat s c s') (h : TablesOk s) :
    TablesOk s' := by
  rcases hrun.planes with hplanes | ⟨p, id, missing, dpc, env, -, hmiss, hplanes⟩
    | ⟨p, env, -, hplanes⟩
  · exact h.of_planes hplanes
  · exact h.update ⟨.overlay id missing, dpc⟩ hmiss hplanes
  · exact h.update _ (halOps_required plat.soc) hplanes

/-- The operations besides opening, closing and transmission make quiet calls. -/
theorem orReturn_quiet {err ret : DevRet} {cb : DpCallback}
    {next : Driver → Except Halt (DevRet × Driver)} (hcb : cb.isQuiet = true)
    (hnext : ∀ m, next m = .ok (ret, s') → Quiet m s')
    (h : orReturn err (s.ownCallback plat p env cb) next = .ok (ret, s')) : Quiet s s' := by
  rcases orReturn_eq_ok h with ⟨hcall, -⟩ | ⟨m, hcall, h⟩
  · exact ownCallback_quiet hcb hcall
  · exact (ownCallback_quiet hcb hcall).trans (hnext m h)

theorem devOp_inv (h : OpInv plat s) (hp : op.at ∈ plat.ports) (hop : devOp plat s op = .ok s') :
    OpInv plat s' := by
  cases op with
  | port c =>
    have hrun := portCall_run h.wf hp hop
    exact ⟨hrun.wf h.wf, hrun.tables h.tables⟩
  | changeMtu p newmtu env =>
    obtain ⟨⟨ret, m⟩, hm, rfl⟩ := Except.map_eq_ok_iff.mp hop
    refine h.quiet (orReturn_quiet rfl (fun m' hm' => ?_) hm)
    cases hm'
    exact Quiet.modify (f := fun d => { d with mtu := newmtu }) fun _ => rfl
  | setMacAddress p macaddr prepare env =>
    obtain ⟨⟨ret, m⟩, hm, rfl⟩ := Except.map_eq_ok_iff.mp hop
    unfold nssDpSetMacAddress at hm
    split at hm
    · cases hm
      exact h
    · refine h.quiet (orReturn_quiet rfl (fun m' hm' => ?_) hm)
      cases hm'
      exact Quiet.modify (f := fun d => { d with devAddr := macaddr }) fun _ => rfl
  | xmit p skb env accept =>
    obtain ⟨⟨ret, m⟩, hm, rfl⟩ := Except.map_eq_ok_iff.mp hop
    obtain ⟨ok, heffect⟩ := nssDpXmit_effect hm
    exact ⟨heffect.wf h.wf, h.tables.of_planes heffect.planes⟩
  | rxFlowSteer p flow del add =>
    obtain ⟨⟨ret, m⟩, hm, rfl⟩ := Except.map_eq_ok_iff.mp hop
    unfold nssDpRxFlowSteer at hm
    split at hm
    · cases hm
      exact h
    split at hm
    · cases hm
      exact h
    split at hm
    · cases hm
      exact h
    refine h.quiet (orReturn_quiet rfl (fun m₁ h₁ => ?_) hm)
    refine orReturn_quiet rfl (fun m₂ h₂ => ?_) h₁
    cases h₂
    exact Quiet.refl _
  | getStats p env =>
    have hstats : nssDpGetStats plat s p env = .ok s' := hop
    unfold nssDpGetStats at hstats
    split at hstats
    · obtain ⟨⟨ok, m⟩, hm, rfl⟩ := Except.map_eq_ok_iff.mp hstats
      exact h.quiet (ownCallback_quiet rfl hm)
    · cases hstats
      exact h
  | adjustLink p link env =>
    have hlink : nssDpAdjustLink plat s p link env = .ok s' := hop
    unfold nssDpAdjustLink at hlink
    dsimp only at hlink
    split at hlink
    · cases hlink
      exact h
    split at hlink
    · cases hlink
      exact h
    split at hlink
    · cases hlink
      exact h
    split at hlink
    · obtain ⟨⟨ok, m⟩, hm, rfl⟩ := Except.map_eq_ok_iff.mp hlink
      have hquiet := ownCallback_quiet rfl hm
      split
      · exact h.quiet ((hquiet.trans (Quiet.setLinkState _)).trans (Quiet.setCarrier _))
      · exact h.quiet hquiet
    · obtain ⟨⟨ok, m⟩, hm, rfl⟩ := Except.map_eq_ok_iff.mp hlink
      have hquiet := ownCallback_quiet rfl hm
      split
      · exact h.quiet ((hquiet.trans (Quiet.setLinkState _)).trans (Quiet.setCarrier _))
      · exact h.quiet hquiet

theorem Probed.opInv (h : Probed plat s) : OpInv plat s := by
  refine ⟨h.wf, fun p => ?_⟩
  rw [Driver.planes, h.dataPlaneOps p]
  exact halOps_required plat.soc

/-- A step is a call on a driver that has not halted. -/
theorem devOpStep_eq_some {r r' : Except Halt Driver} :
    devOpStep plat r op = some r' ↔ ∃ s, r = .ok s ∧ op.at ∈ plat.ports ∧ devOp plat s op = r' := by
  cases r with
  | error h => simp [devOpStep]
  | ok s => simp [devOpStep]

end Steps

/-- In every run of calls on the probed ports, with any overlay tables that overrides accept, no
    callback that is NULL is called exactly where every call finds the callbacks it calls. -/
theorem devRun_present_iff (plat : Platform) {s : Driver} (hprobed : Probed plat s)
    {ops : List DevOp} {u : Except Halt Driver}
    (hrun : run (devOpStep plat) (.ok s) ops = some u) :
    Always (devOpStep plat) (fun r => ¬ CallsNull r) (.ok s) ops ↔
      StepsMeet (devOpStep plat) (FindsCallbacks plat) (.ok s) ops := by
  refine always_iff_stepsMeet (I := fun r => ¬ CallsNull r ∧ ∀ s, r = .ok s → OpInv plat s)
    (fun _ h => h.1) ?_ ?_ ⟨callsNull_ok, fun t ht => Except.ok.inj ht ▸ hprobed.opInv⟩ hrun
  · intro r op r' h hstep
    obtain ⟨s, rfl, hp, rfl⟩ := devOpStep_eq_some.mp hstep
    have hinv := h.2 s rfl
    rw [FindsCallbacks, devOp_null hinv.wf hinv.tables hp, not_not]
  · intro r op r' h hstep hnot
    obtain ⟨s, rfl, hp, rfl⟩ := devOpStep_eq_some.mp hstep
    exact ⟨hnot, fun s' hs' => devOp_inv (h.2 s rfl) hp hs'⟩

section Decide

variable (plat : Platform)

instance decidableCallsNull {α : Type} : ∀ r : Except Halt α, Decidable (CallsNull r)
  | .ok _ => isFalse callsNull_ok
  | .error (.nullCallback _ _) => isTrue callsNull_null
  | .error .inCallback => isFalse (by rintro ⟨p, cb, h⟩; cases h)

instance (s : Driver) (p : Nat) (env : CallEnv) : Decidable (ClosePresent plat s p env) :=
  inferInstanceAs (Decidable (_ → _ → _))

instance (s : Driver) (p : Nat) (env : CallEnv) : Decidable (OpenPresent plat s p env) :=
  inferInstanceAs (Decidable (_ ∧ _))

instance decidableCallbacksPresent (s : Driver) : ∀ op, Decidable (CallbacksPresent plat s op)
  | .port (.devOpen p env) => inferInstanceAs (Decidable (OpenPresent plat s p env))
  | .port (.devClose p env) => inferInstanceAs (Decidable (ClosePresent plat s p env))
  | .port (.override p _ missing _ env) => inferInstanceAs (Decidable
      (MissesRequired missing ∨ (s.dev p).up = false ∨ ClosePresent plat s p env))
  | .port (.start p dpc env) => inferInstanceAs (Decidable
      ((s.dev p).up = true ∨ (s.dev p).dpc ≠ dpc ∨ OpenPresent plat s p env))
  | .port (.restore p env) => inferInstanceAs (Decidable
      ((s.dev p).up = false ∨ ClosePresent plat s p env))
  | .getStats p _ => inferInstanceAs (Decidable
      (plat.soc.statsFromDataPlane = true → .getStats ∉ (s.dev p).dataPlaneOps.missing))
  | .changeMtu _ _ _ | .setMacAddress _ _ _ _ | .xmit _ _ _ _ | .rxFlowSteer _ _ _ _
  | .adjustLink _ _ _ => isTrue trivial

instance decidableFindsCallbacks : ∀ r op, Decidable (FindsCallbacks plat r op)
  | .ok s, op => inferInstanceAs (Decidable (CallbacksPresent plat s op))
  | .error _, _ => isTrue trivial

end Decide

/-- An overlay driver without `rx_flow_steer` and `get_stats` takes port 1 over and gives it
    back. -/
def lentPort : List DevOp :=
  [.port (.devOpen 1 allOk),
    .port (.override 1 0 [.rxFlowSteer, .getStats] (.overlay 0 ⟨none⟩) allOk),
    .port (.start 1 (.overlay 0 ⟨none⟩) allOk), .rxFlowSteer 1 (some ⟨0, 1⟩) allOk allOk,
    .getStats 1 allOk, .changeMtu 1 1400 allOk, .setMacAddress 1 7 .ok allOk,
    .adjustLink 1 false allOk, .port (.restore 1 allOk), .port (.devClose 1 allOk)]

theorem devRun_present_iff_lentPort :
    Always (devOpStep ipq807x) (fun r => ¬ CallsNull r) (.ok ipq807xProbed) lentPort := by
  obtain ⟨u, hrun⟩ : ∃ u, run (devOpStep ipq807x) (.ok ipq807xProbed) lentPort = some u :=
    Option.isSome_iff_exists.mp (by decide +kernel)
  exact (devRun_present_iff ipq807x ipq807x_probed hrun).mpr (by decide +kernel)

/-- An overlay driver without `init` takes port 1 over and starts it. -/
def startUninit : List DevOp :=
  [.port (.override 1 0 [.init] (.overlay 0 ⟨none⟩) allOk),
    .port (.start 1 (.overlay 0 ⟨none⟩) allOk)]

/-- The override accepts the table, and `nss_dp_open` calls the missing `init`. -/
theorem startUninit_null : Probed ipq807x ipq807xProbed ∧ ¬ MissesRequired [.init] ∧
    run (devOpStep ipq807x) (.ok ipq807xProbed) startUninit =
      some (.error (.nullCallback 1 .init)) ∧
    ¬ Always (devOpStep ipq807x) (fun r => ¬ CallsNull r) (.ok ipq807xProbed) startUninit :=
  ⟨ipq807x_probed, by decide, rfl, by decide +kernel⟩

end NssDp
