import NssDp.Main.Proofs.InitDone

/-!
# Overrides are clean

An override that succeeds leaves the port down, with the new data plane and nothing of the old;
one that fails leaves the port as it was. `nss_dp_override_data_plane` stops a port that is up
before anything else, ignores the outcome, and trusts the bits `__NSS_DP_UP` and `INIT_DONE`.
-/

namespace NssDp

open Edma History Lts

/-- What an override that succeeds leaves. -/
structure OverrideDone (plat : Platform) (s s' : Driver) (p : Nat) (new : Plane) : Prop where
  plane : s'.planes p = new
  up : (s'.dev p).up = false
  initDone : (s'.dev p).initDone = false
  closed : isOpen p (s.dev p).dataPlaneOps s'.history = false
  deinited : isInit p (s.dev p).dataPlaneOps s'.history = false
  starts : ∀ env, nssDpStartDataPlane plat s' p new.dpc env = (nssDpOpen plat s' p env).map Prod.snd

/-- What an override that fails leaves. -/
structure OverrideUndone (s s' : Driver) (p : Nat) : Prop where
  plane : s'.planes p = s.planes p
  up : (s'.dev p).up = (s.dev p).up
  initDone : (s'.dev p).initDone = (s.dev p).initDone
  features : (s'.dev p).features = (s.dev p).features

def OverrideClean (plat : Platform) (s s' : Driver) (p : Nat) (new : Plane) (ret : DevRet) : Prop :=
  if ret = .ok then OverrideDone plat s s' p new else OverrideUndone s s' p

/-- `nss_dp_close` gets to its end. -/
def Driver.closes (plat : Platform) (s : Driver) (p : Nat) (env : CallEnv) : Bool :=
  s.reachesClose plat p env && s.answer plat p env .close

/-- An override that is not rejected fails in `deinit`. -/
def DeinitFails (plat : Platform) (s : Driver) (p : Nat) (env : CallEnv) : Prop :=
  (s.dev p).initDone = true ∧ s.answer plat p env .deinit = false

/-- When an override leaves one of the two states. -/
def OverrideSafe (plat : Platform) (s : Driver) (p : Nat) (missing : List DpCallback)
    (env : CallEnv) : Prop :=
  MissesRequired missing ∨
    (DeinitFails plat s p env ∧ ((s.dev p).up = true →
      s.closes plat p env = false ∧ (s.dev p).features = ⟨0, 0, 0, 0⟩)) ∨
    (¬ DeinitFails plat s p env ∧ ((s.dev p).up = true → s.closes plat p env = true) ∧
      ((s.dev p).up = false → isOpen p (s.dev p).dataPlaneOps s.history = false) ∧
      ((s.dev p).initDone = false → isInit p (s.dev p).dataPlaneOps s.history = false))

section History

variable {plat : Platform} {s s' m : Driver} {p : Nat} {dpc : DpcPtr} {env : CallEnv}
  {ok : Bool} {ops : DataPlaneOps} {l : List DpEvent}

theorem isOpen_append {es : List DpEvent} (hes : ∀ e ∈ es, e.isOther = true) :
    isOpen p ops (l ++ es) = isOpen p ops l :=
  isOpen_append_of_neither fun e he => neither_of_isOther (hes e he)

theorem isOpen_close : isOpen p ops (l ++ [.call p ops dpc .close ok]) = false := by
  rw [isOpen, latch_concat]
  simp [DpEvent.opens, DpEvent.closes]

theorem isInit_deinit : isInit p ops (l ++ [.call p ops dpc .deinit ok]) = false := by
  rw [isInit, latch_concat]
  simp [DpEvent.inits, DpEvent.deinits]

theorem Quiet.isOpen (h : Quiet s s') : isOpen p ops s'.history = isOpen p ops s.history := by
  obtain ⟨es, hhistory, hes⟩ := h.history
  rw [hhistory]
  exact isOpen_append fun e he => isOther_of_isQuiet (hes e he)

theorem Quiet.isInit (h : Quiet s s') : isInit p ops s'.history = isInit p ops s.history := by
  obtain ⟨es, hhistory, hes⟩ := h.history
  rw [hhistory]
  exact isInit_append fun e he => isUninit_of_isQuiet (hes e he)

/-- A data plane is closed by every `nss_dp_close` that gets as far as its `close`. -/
theorem CloseRun.isOpen (hrun : CloseRun plat s p env s') :
    isOpen p (s.dev p).dataPlaneOps s'.history =
      (isOpen p (s.dev p).dataPlaneOps s.history && !s.reachesClose plat p env) := by
  have hclosed {m c : Driver} {ok : Bool} (hquiet : Quiet (s.setQueueStopped p true) m)
      (hcall : m.ownCallback plat p env .close = .ok (ok, c)) :
      NssDp.isOpen p (s.dev p).dataPlaneOps c.history = false := by
    have hops : (m.dev p).dataPlaneOps = (s.dev p).dataPlaneOps :=
      (hquiet.dataPlaneOps p).trans (setQueueStopped_life_congr true p).1
    rw [(close_effect hcall).history, hops]
    exact isOpen_close
  cases hrun with
  | aborted hreach hquiet =>
    rw [hreach, hquiet.isOpen, Bool.not_false, Bool.and_true]
    rfl
  | failed hreach _ hquiet hcall =>
    rw [hreach, hclosed hquiet hcall, Bool.not_true, Bool.and_false]
  | closed hreach _ hquiet hcall =>
    have hafter := hclosed hquiet hcall
    rw [hreach, Bool.not_true, Bool.and_false]
    exact hafter

theorem CloseRun.isInit (hrun : CloseRun plat s p env s') :
    isInit p ops s'.history = isInit p ops s.history := by
  have hcalled {m c : Driver} {ok : Bool} (hquiet : Quiet (s.setQueueStopped p true) m)
      (hcall : m.ownCallback plat p env .close = .ok (ok, c)) :
      NssDp.isInit p ops c.history = NssDp.isInit p ops s.history := by
    rw [(close_effect hcall).history, isInit_append (by simp [DpEvent.isUninit])]
    exact hquiet.isInit
  cases hrun with
  | aborted _ hquiet => exact hquiet.isInit
  | failed _ _ hquiet hcall => exact hcalled hquiet hcall
  | closed _ _ hquiet hcall =>
    have hafter := hcalled hquiet hcall
    exact hafter

/-- The stop at the beginning of an override. -/
theorem StopRun.isOpen (hrun : StopRun plat s p env s') :
    isOpen p (s.dev p).dataPlaneOps s'.history =
      (isOpen p (s.dev p).dataPlaneOps s.history &&
        !((s.dev p).up && s.reachesClose plat p env)) := by
  cases hrun with
  | notUp hup => rw [hup, Bool.false_and, Bool.not_false, Bool.and_true]
  | stopped hup hclose =>
    rw [hup, Bool.true_and, ← hclose.isOpen]
    rfl

theorem StopRun.isInit (hrun : StopRun plat s p env s') :
    isInit p ops s'.history = isInit p ops s.history := by
  cases hrun with
  | notUp => rfl
  | stopped _ hclose => exact hclose.isInit

theorem StopRun.up (hrun : StopRun plat s p env s') :
    (s'.dev p).up = ((s.dev p).up && !s.closes plat p env) := by
  cases hrun with
  | notUp hup => rw [hup, Bool.false_and]
  | @stopped m hup hclose =>
    have hups := congrFun hclose.ups p
    rw [resetNetdevFeatures_quiet.up, hup, Bool.true_and]
    refine Eq.trans hups ?_
    rw [← Driver.closes]
    cases s.closes plat p env with
    | true => exact Function.update_self _ _ _
    | false => exact hup

/-- The stop resets the features of a port that is up, whatever becomes of it. -/
theorem StopRun.features (hrun : StopRun plat s p env s') :
    (s'.dev p).features = if (s.dev p).up then ⟨0, 0, 0, 0⟩ else (s.dev p).features := by
  cases hrun with
  | notUp hup =>
    rw [hup]
    rfl
  | stopped hup =>
    rw [hup, nssDpResetNetdevFeatures, modify_dev_self]
    rfl

/-- `deinit` leaves the features alone. -/
theorem callback_deinit_features (h : s.callback plat p dpc env .deinit = .ok (ok, s')) :
    (s'.dev p).features = (s.dev p).features := by
  by_cases hops : (s.dev p).dataPlaneOps = .edma
  · obtain ⟨r, hr, -, rfl⟩ := callback_edma hops h
    obtain ⟨e, -, rfl⟩ := Option.map_eq_some_iff.mp hr
    rfl
  · obtain ⟨-, rfl⟩ := callback_other hops h
    rfl

/-- What the middle of an override leaves of a port. -/
structure DeinitEffect (plat : Platform) (s : Driver) (p : Nat) (env : CallEnv) (ok : Bool)
    (s' : Driver) : Prop where
  succeeds : ok = true ↔ ¬ DeinitFails plat s p env
  up : (s'.dev p).up = (s.dev p).up
  initDone : (s'.dev p).initDone = ((s.dev p).initDone && !ok)
  features : (s'.dev p).features = (s.dev p).features
  isOpen : isOpen p (s.dev p).dataPlaneOps s'.history =
    isOpen p (s.dev p).dataPlaneOps s.history
  isInit : isInit p (s.dev p).dataPlaneOps s'.history =
    (isInit p (s.dev p).dataPlaneOps s.history && !(s.dev p).initDone)

theorem deinitOnce_effect (h : deinitOnce plat s p dpc env = .ok (ok, s')) :
    DeinitEffect plat s p env ok s' := by
  rcases deinitOnce_run h with ⟨hdone, rfl, rfl⟩ | ⟨hdone, hok, c, hcall, rfl⟩
  · refine ⟨iff_of_true rfl fun hfails => ?_, rfl, ?_, rfl, rfl, ?_⟩
    · cases hdone.symm.trans hfails.1
    · rw [hdone, Bool.false_and]
    · rw [hdone, Bool.not_false, Bool.and_true]
  have hcalled := callback_called hcall
  have hlife := hcalled.life p
  have hhistory : (if ok = true then c.setInitDone p false else c).history = c.history := by
    split <;> rfl
  refine ⟨?_, ?_, ?_, ?_, ?_, ?_⟩
  · rw [DeinitFails, hok, not_and, Bool.not_eq_false]
    exact ⟨fun hanswer _ => hanswer, fun himp => himp hdone⟩
  · have hup := up_of_life hlife
    split
    · rw [Driver.setInitDone, modify_dev_self]
      exact hup
    · exact hup
  · split
    next htrue =>
      rw [Driver.setInitDone, modify_dev_self, htrue, Bool.not_true, Bool.and_false]
    next hfalse =>
      rw [initDone_of_life hlife, Bool.eq_false_of_not_eq_true hfalse, Bool.not_false,
        Bool.and_true]
  · rw [← callback_deinit_features hcall]
    split
    · rw [Driver.setInitDone, modify_dev_self]
    · rfl
  · rw [hhistory, hcalled.history, List.append_assoc]
    refine isOpen_append fun e he => ?_
    rcases List.mem_append.mp he with hfreed | hlast
    · exact isOther_of_mem_freedBy hfreed
    · rw [List.mem_singleton.mp hlast]
      rfl
  · rw [hhistory, hcalled.history, isInit_deinit, hdone, Bool.not_true, Bool.and_false]

end History

section Override

variable {plat : Platform} {s s' : Driver} {p id : Nat} {missing : List DpCallback} {dpc : DpcPtr}
  {env : CallEnv} {ret : DevRet}

/-- The exits of `nss_dp_override_data_plane`. -/
theorem override_cases (hwf : Wf plat s) (hp : p ∈ plat.ports)
    (h : nssDpOverrideDataPlane plat s p id missing dpc env = .ok (ret, s')) :
    (MissesRequired missing ∧ ret = .failure ∧ s' = s) ∨
      (¬ MissesRequired missing ∧ ∃ m, StopRun plat s p env m ∧
        ((ret = .enomem ∧ deinitOnce plat m p dpc env = .ok (false, s')) ∨
          ∃ c, ret = .ok ∧ deinitOnce plat m p dpc env = .ok (true, c) ∧
            s' = c.install p dpc (.overlay id missing))) := by
  unfold nssDpOverrideDataPlane at h
  split at h
  · rename_i hmiss
    cases h
    exact Or.inl ⟨hmiss, rfl, rfl⟩
  · rename_i hmiss
    obtain ⟨m, hm, h⟩ := Except.bind_eq_ok_iff.mp h
    refine Or.inr ⟨hmiss, m, stopIfUp_run hwf hp hm, ?_⟩
    rcases orReturn_eq_ok h with ⟨hdeinit, hret⟩ | ⟨c, hdeinit, h⟩
    · exact Or.inl ⟨hret, hdeinit⟩
    · cases h
      exact Or.inr ⟨c, rfl, hdeinit, rfl⟩

theorem StopRun.deinitFails {m : Driver} (hstop : StopRun plat s p env m) :
    DeinitFails plat m p env ↔ DeinitFails plat s p env := by
  rw [DeinitFails, DeinitFails, (hstop.frame p).2, hstop.deinit_answer]

/-- An override that fails in `deinit`. -/
theorem undone_iff {m : Driver} (hstop : StopRun plat s p env m)
    (hdeinit : deinitOnce plat m p dpc env = .ok (false, s')) :
    OverrideUndone s s' p ↔ ((s.dev p).up = true →
      s.closes plat p env = false ∧ (s.dev p).features = ⟨0, 0, 0, 0⟩) := by
  have heffect := deinitOnce_effect hdeinit
  have hup : (s'.dev p).up = ((s.dev p).up && !s.closes plat p env) :=
    heffect.up.trans hstop.up
  have hfeatures := heffect.features.trans hstop.features
  constructor
  · intro hundone hwas
    have hup' := hundone.up
    have hfeatures' := hundone.features
    rw [hup, hwas, Bool.true_and, Bool.not_eq_true'] at hup'
    rw [hfeatures, hwas] at hfeatures'
    exact ⟨hup', hfeatures'.symm⟩
  · intro hcond
    have hdone : (s'.dev p).initDone = (s.dev p).initDone := by
      rw [heffect.initDone, (hstop.frame p).2, Bool.not_false, Bool.and_true]
    refine ⟨congrFun ((deinitOnce_planes hdeinit).trans hstop.planes) p, ?_, hdone, ?_⟩
    · rw [hup]
      cases hwas : (s.dev p).up with
      | false => rfl
      | true => rw [(hcond hwas).1]; rfl
    · rw [hfeatures]
      cases hwas : (s.dev p).up with
      | false => rfl
      | true => exact (hcond hwas).2.symm

/-- An override that gets to its end. -/
theorem done_iff {m c : Driver} (hstop : StopRun plat s p env m)
    (hdeinit : deinitOnce plat m p dpc env = .ok (true, c)) {ops : DataPlaneOps} :
    OverrideDone plat s (c.install p dpc ops) p ⟨ops, dpc⟩ ↔
      ((s.dev p).up = true → s.closes plat p env = true) ∧
        ((s.dev p).up = false → isOpen p (s.dev p).dataPlaneOps s.history = false) ∧
        ((s.dev p).initDone = false → isInit p (s.dev p).dataPlaneOps s.history = false) := by
  have heffect := deinitOnce_effect hdeinit
  have hops := (hstop.frame p).1
  have hup : ((c.install p dpc ops).dev p).up = ((s.dev p).up && !s.closes plat p env) := by
    rw [Driver.install, Driver.record, modify_dev_self]
    exact heffect.up.trans hstop.up
  have hdone : ((c.install p dpc ops).dev p).initDone = false := by
    rw [Driver.install, Driver.record, modify_dev_self]
    exact heffect.initDone.trans (Bool.and_false _)
  have hopen : isOpen p (s.dev p).dataPlaneOps (c.install p dpc ops).history =
      (isOpen p (s.dev p).dataPlaneOps s.history &&
        !((s.dev p).up && s.reachesClose plat p env)) := by
    rw [install_history, isOpen_append (by simp [DpEvent.isOther]), ← hstop.isOpen, ← hops]
    exact heffect.isOpen
  have hinit : isInit p (s.dev p).dataPlaneOps (c.install p dpc ops).history =
      (isInit p (s.dev p).dataPlaneOps s.history && !(s.dev p).initDone) := by
    rw [install_history, isInit, latch_append_of_neither (by simp [DpEvent.inits,
      DpEvent.deinits]), ← isInit, ← (hstop.frame p).2, ← hops, heffect.isInit, hstop.isInit]
  constructor
  · intro hdoneAll
    have hup' := hdoneAll.up
    have hclosed := hdoneAll.closed
    have hdeinited := hdoneAll.deinited
    rw [hup] at hup'
    rw [hopen] at hclosed
    rw [hinit] at hdeinited
    refine ⟨fun hwas => ?_, fun hwas => ?_, fun hwas => ?_⟩
    · rwa [hwas, Bool.true_and, Bool.not_eq_false'] at hup'
    · rwa [hwas, Bool.false_and, Bool.not_false, Bool.and_true] at hclosed
    · rwa [hwas, Bool.not_false, Bool.and_true] at hdeinited
  · rintro ⟨hcloses, hclosed, hdeinited⟩
    have hdown : ((c.install p dpc ops).dev p).up = false := by
      rw [hup]
      cases hwas : (s.dev p).up with
      | false => rfl
      | true => rw [hcloses hwas]; rfl
    have hplane : (c.install p dpc ops).planes p = ⟨ops, dpc⟩ := by
      rw [install_planes, Function.update_self]
    refine ⟨hplane, hdown, hdone, ?_, ?_, fun env' => ?_⟩
    · rw [hopen]
      cases hwas : (s.dev p).up with
      | false => rw [hclosed hwas]; rfl
      | true =>
        have hreach := (Bool.and_eq_true_iff.mp (hcloses hwas)).1
        rw [hreach, Bool.true_and, Bool.not_true, Bool.and_false]
    · rw [hinit]
      cases hwas : (s.dev p).initDone with
      | false => rw [hdeinited hwas]; rfl
      | true => rw [Bool.not_true, Bool.and_false]
    · have hdpc : ((c.install p dpc ops).dev p).dpc = dpc := congrArg Plane.dpc hplane
      rw [nssDpStartDataPlane, hdown, hdpc]
      simp

end Override

/-- In every state that a run of opens, closes, overrides, starts and restores reaches, an override
    that returns leaves one of the two states exactly where it is safe. -/
theorem portRun_override_clean_iff (plat : Platform) {s₀ s s' : Driver} (hprobed : Probed plat s₀)
    {cs : List PortCall} (hrun : run (portStep plat) s₀ cs = some s) {p id : Nat}
    {missing : List DpCallback} {dpc : DpcPtr} {env : CallEnv} {ret : DevRet}
    (hp : p ∈ plat.ports)
    (hcall : nssDpOverrideDataPlane plat s p id missing dpc env = .ok (ret, s')) :
    OverrideClean plat s s' p ⟨.overlay id missing, dpc⟩ ret ↔
      OverrideSafe plat s p missing env := by
  have hwf : Wf plat s :=
    run_inv (fun _ _ _ hwf hstep => (portStep_run hwf hstep).2.wf hwf) hprobed.wf hrun
  unfold OverrideClean OverrideSafe
  rcases override_cases hwf hp hcall with
    ⟨hmiss, rfl, rfl⟩ | ⟨hmiss, m, hstop, ⟨rfl, hdeinit⟩ | ⟨c, rfl, hdeinit, rfl⟩⟩
  · rw [if_neg (by simp)]
    exact iff_of_true ⟨rfl, rfl, rfl, rfl⟩ (Or.inl hmiss)
  · have hfails : DeinitFails plat s p env := by
      have hok := (deinitOnce_effect hdeinit).succeeds
      rw [hstop.deinitFails] at hok
      by_contra hnot
      cases hok.mpr hnot
    rw [if_neg (by simp), undone_iff hstop hdeinit]
    constructor
    · exact fun hcond => Or.inr (Or.inl ⟨hfails, hcond⟩)
    · rintro (hmiss' | ⟨-, hcond⟩ | ⟨hnot, -⟩)
      · exact absurd hmiss' hmiss
      · exact hcond
      · exact absurd hfails hnot
  · have hsucceeds : ¬ DeinitFails plat s p env := by
      rw [← hstop.deinitFails]
      exact (deinitOnce_effect hdeinit).succeeds.mp rfl
    rw [if_pos rfl, done_iff hstop hdeinit]
    constructor
    · exact fun hcond => Or.inr (Or.inr ⟨hsucceeds, hcond⟩)
    · rintro (hmiss' | ⟨hfails, -⟩ | ⟨-, hcond⟩)
      · exact absurd hmiss' hmiss
      · exact absurd hfails hsucceeds
      · exact hcond

section Decide

variable (plat : Platform) (s : Driver) (p : Nat) (missing : List DpCallback) (env : CallEnv)

instance : Decidable (DeinitFails plat s p env) := inferInstanceAs (Decidable (_ ∧ _))

instance : Decidable (OverrideSafe plat s p missing env) :=
  inferInstanceAs (Decidable ((∃ cb ∈ requiredCallbacks, cb ∈ missing) ∨ (_ ∧ (_ → _)) ∨
    (_ ∧ (_ → _) ∧ (_ → _) ∧ (_ → _))))

end Decide

/-- An override of port 1 after the calls `cs`. -/
def overrideAfter (cs : List PortCall) (id : Nat) (env : CallEnv) :
    Option (Driver × DevRet × Driver) :=
  (run (portStep ipq807x) ipq807xProbed cs).bind fun s =>
    (nssDpOverrideDataPlane ipq807x s 1 id [] (.overlay id ⟨none⟩) env).toOption.map fun r => (s, r)

theorem overrideAfter_eq_some {cs : List PortCall} {id : Nat} {env : CallEnv} {s s' : Driver}
    {ret : DevRet} (h : overrideAfter cs id env = some (s, ret, s')) :
    run (portStep ipq807x) ipq807xProbed cs = some s ∧
      nssDpOverrideDataPlane ipq807x s 1 id [] (.overlay id ⟨none⟩) env = .ok (ret, s') := by
  obtain ⟨s₁, hrun, h⟩ := Option.bind_eq_some_iff.mp h
  obtain ⟨r, hr, heq⟩ := Option.map_eq_some_iff.mp h
  cases heq
  exact ⟨hrun, Except.toOption_eq_some_iff.mp hr⟩

/-- An overlay driver takes over port 1 while it is up on EDMA. -/
theorem portRun_override_clean_iff_up : ∃ s s',
    run (portStep ipq807x) ipq807xProbed [.devOpen 1 allOk] = some s ∧ (s.dev 1).up = true ∧
      OverrideClean ipq807x s s' 1 ⟨.overlay 0 [], .overlay 0 ⟨none⟩⟩ .ok := by
  have hall : (overrideAfter [.devOpen 1 allOk] 0 allOk).map (fun r =>
      ((r.1.dev 1).up, r.2.1, decide (OverrideSafe ipq807x r.1 1 [] allOk))) =
        some (true, .ok, true) := by
    decide +kernel
  obtain ⟨⟨s, ret, s'⟩, h, heq⟩ := Option.map_eq_some_iff.mp hall
  simp only [Prod.mk.injEq, decide_eq_true_eq] at heq
  obtain ⟨hup, rfl, hsafe⟩ := heq
  obtain ⟨hrun, hcall⟩ := overrideAfter_eq_some h
  exact ⟨s, s', hrun, hup,
    (portRun_override_clean_iff ipq807x ipq807x_probed hrun (by decide) hcall).mpr hsafe⟩

/-- Port 1 runs an overlay driver's data plane. -/
def takenOver : List PortCall :=
  [.devOpen 1 allOk, .override 1 0 [] (.overlay 0 ⟨none⟩) allOk,
    .start 1 (.overlay 0 ⟨none⟩) allOk]

/-- The FAL refuses to take the port out of its VSI: the override succeeds and the port is still
    up. And a data plane that refuses to be deinitialised keeps its port, but the port is down. -/
theorem portRun_override_unclean : Probed ipq807x ipq807xProbed ∧
    (∃ s s', run (portStep ipq807x) ipq807xProbed [.devOpen 1 allOk] = some s ∧
      nssDpOverrideDataPlane ipq807x s 1 0 [] (.overlay 0 ⟨none⟩) { allOk with fal := false } =
        .ok (.ok, s') ∧ (s'.dev 1).up = true ∧
      ¬ OverrideClean ipq807x s s' 1 ⟨.overlay 0 [], .overlay 0 ⟨none⟩⟩ .ok) ∧
    ∃ s s', run (portStep ipq807x) ipq807xProbed takenOver = some s ∧
      nssDpOverrideDataPlane ipq807x s 1 1 [] (.overlay 1 ⟨none⟩)
        { allOk with ok := fun cb => cb ≠ .deinit } = .ok (.enomem, s') ∧
      (s.dev 1).up = true ∧ (s'.dev 1).up = false ∧
      ¬ OverrideClean ipq807x s s' 1 ⟨.overlay 1 [], .overlay 1 ⟨none⟩⟩ .enomem := by
  refine ⟨ipq807x_probed, ?_, ?_⟩
  · have hall : (overrideAfter [.devOpen 1 allOk] 0 { allOk with fal := false }).map (fun r =>
        (r.2.1, (r.2.2.dev 1).up)) = some (.ok, true) := by
      decide +kernel
    obtain ⟨⟨s, ret, s'⟩, h, heq⟩ := Option.map_eq_some_iff.mp hall
    simp only [Prod.mk.injEq] at heq
    obtain ⟨rfl, hup⟩ := heq
    obtain ⟨hrun, hcall⟩ := overrideAfter_eq_some h
    refine ⟨s, s', hrun, hcall, hup, fun hclean => ?_⟩
    rw [OverrideClean, if_pos rfl] at hclean
    cases hup.symm.trans hclean.up
  · have hall : (overrideAfter takenOver 1 { allOk with ok := fun cb => cb ≠ .deinit }).map
        (fun r => ((r.1.dev 1).up, r.2.1, (r.2.2.dev 1).up)) = some (true, .enomem, false) := by
      decide +kernel
    obtain ⟨⟨s, ret, s'⟩, h, heq⟩ := Option.map_eq_some_iff.mp hall
    simp only [Prod.mk.injEq] at heq
    obtain ⟨hup, rfl, hdown⟩ := heq
    obtain ⟨hrun, hcall⟩ := overrideAfter_eq_some h
    refine ⟨s, s', hrun, hcall, hup, hdown, fun hclean => ?_⟩
    rw [OverrideClean, if_neg (by simp)] at hclean
    cases hup.symm.trans (hclean.up.symm.trans hdown)

end NssDp
