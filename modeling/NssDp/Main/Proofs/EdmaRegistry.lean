import NssDp.Main.Proofs.InitDone

/-!
# The registry of EDMA

`edma_if_init` enters a port in the table of net devices and has it ask for the headroom of a
preheader. What becomes of both depends on few steps of the driver's calls, which are those of a
small machine, the registry: every call on a port is one step of it.
-/

namespace NssDp

open Edma History Word

/-- What EDMA keeps of the ports, and what decides whether it is initialised or deinitialised:
    `inited` is kept by the history. -/
@[ext] structure EdmaRegistry where
  headroom : Nat → Nat
  netdevArr : Nat → Option Nat
  inited : Nat → Bool
  initDone : Nat → Bool
  onEdma : Nat → Bool

namespace EdmaRegistry

/-- A port is entered in the table, and given its headroom if the interrupts are granted. -/
def enter (r : EdmaRegistry) (p : Nat) (ok : Bool) : EdmaRegistry :=
  { r with
    headroom := if ok then Function.update r.headroom p (u16 (r.headroom p + edmaTxPrehdrSize))
      else r.headroom
    netdevArr := Function.update r.netdevArr (p - 1) (some p)
    inited := if ok then Function.update r.inited p true else r.inited }

/-- `init` of the data plane of a port. -/
def init (r : EdmaRegistry) (p : Nat) (ok : Bool) : EdmaRegistry :=
  if r.onEdma p then r.enter p ok else r

/-- `deinit` of the data plane of a port. -/
def deinit (r : EdmaRegistry) (p : Nat) : EdmaRegistry :=
  if r.onEdma p then { r with inited := Function.update r.inited p false } else r

def setInitDone (r : EdmaRegistry) (p : Nat) (initDone : Bool) : EdmaRegistry :=
  { r with initDone := Function.update r.initDone p initDone }

/-- The beginning of `nss_dp_open`. -/
def initOnce (r : EdmaRegistry) (p : Nat) (ok : Bool) : EdmaRegistry :=
  if r.initDone p then r else if ok then (r.init p ok).setInitDone p true else r.init p ok

/-- The middle of an override. -/
def deinitOnce (r : EdmaRegistry) (p : Nat) (ok : Bool) : EdmaRegistry :=
  if r.initDone p then if ok then (r.deinit p).setInitDone p false else r.deinit p else r

/-- A data plane is put into a port. -/
def install (r : EdmaRegistry) (p : Nat) (edma : Bool) : EdmaRegistry :=
  { r with onEdma := Function.update r.onEdma p edma }

/-- An override that is not rejected. -/
def override (r : EdmaRegistry) (p : Nat) (ok : Bool) : EdmaRegistry :=
  if !r.initDone p || ok then (r.deinitOnce p ok).install p false else r.deinitOnce p ok

end EdmaRegistry

/-- The registry of a driver. -/
def Driver.registry (s : Driver) : EdmaRegistry where
  headroom p := (s.dev p).netdev.neededHeadroom
  netdevArr := s.edmaHw.netdevArr
  inited p := isInit p .edma s.history
  initDone p := (s.dev p).initDone
  onEdma p := decide ((s.dev p).dataPlaneOps = .edma)

section Callbacks

variable {plat : Platform} {s s' m : Driver} {p q : Nat} {dpc : DpcPtr} {env : CallEnv}
  {cb : DpCallback} {ok : Bool}

/-- A change of a port shows in its entries. -/
theorem modify_registry {f : NssDpDev → NssDpDev} : (s.modify p f).registry =
    { s.registry with
      headroom := Function.update s.registry.headroom p (f (s.dev p)).netdev.neededHeadroom
      initDone := Function.update s.registry.initDone p (f (s.dev p)).initDone
      onEdma := Function.update s.registry.onEdma p
        (decide ((f (s.dev p)).dataPlaneOps = .edma)) } := by
  have happly {α : Type} (g : NssDpDev → α) :
      (fun q => g ((s.modify p f).dev q)) = Function.update (fun q => g (s.dev q)) p
        (g (f (s.dev p))) := by
    funext q
    rw [modify_dev, Function.update_apply]
    split <;> rfl
  ext1
  · exact happly fun d => d.netdev.neededHeadroom
  · rfl
  · rfl
  · exact happly NssDpDev.initDone
  · exact happly fun d => decide (d.dataPlaneOps = .edma)

/-- Changes that the registry does not see. -/
theorem modify_registry_same {f : NssDpDev → NssDpDev}
    (hheadroom : ∀ d, (f d).netdev.neededHeadroom = d.netdev.neededHeadroom)
    (hdone : ∀ d, (f d).initDone = d.initDone) (hops : ∀ d, (f d).dataPlaneOps = d.dataPlaneOps) :
    (s.modify p f).registry = s.registry := by
  rw [modify_registry, hheadroom, hdone, hops]
  ext1
  · exact Function.update_eq_self _ _
  · rfl
  · rfl
  · exact Function.update_eq_self _ _
  · exact Function.update_eq_self _ _

theorem setInitDone_registry (b : Bool) :
    (s.setInitDone p b).registry = s.registry.setInitDone p b := by
  rw [Driver.setInitDone, modify_registry]
  ext1
  · exact Function.update_eq_self _ _
  · rfl
  · rfl
  · rfl
  · exact Function.update_eq_self _ _

theorem install_registry {ops : DataPlaneOps} :
    (s.install p dpc ops).registry = s.registry.install p (decide (ops = .edma)) := by
  have hinited (q : Nat) : isInit q .edma (s.history ++ [.install p (s.dev p).dataPlaneOps ops dpc])
      = isInit q .edma s.history :=
    latch_append_of_neither (by simp [DpEvent.inits, DpEvent.deinits])
  have hmodify := @modify_registry s p fun d => { d with
    dpc
    dataPlaneOps := ops }
  ext1
  · exact (congrArg EdmaRegistry.headroom hmodify).trans (Function.update_eq_self _ _)
  · rfl
  · exact funext hinited
  · exact (congrArg EdmaRegistry.initDone hmodify).trans (Function.update_eq_self _ _)
  · have honEdma := congrArg EdmaRegistry.onEdma hmodify
    exact honEdma

/-- What a call adds to the history. -/
theorem Called.inited (h : Called plat s p dpc cb ok s') (q : Nat) :
    isInit q .edma s'.history =
      ((DpEvent.call p (s.dev p).dataPlaneOps dpc cb ok).inits q .edma ||
        (isInit q .edma s.history &&
          !(DpEvent.call p (s.dev p).dataPlaneOps dpc cb ok).deinits q .edma)) := by
  have hfreed : isInit q .edma (s.history ++ s.freedBy plat (some p) s'.edmaHw) =
      isInit q .edma s.history := isInit_append fun _ he => isUninit_of_mem_freedBy he
  rw [← hfreed, h.history, isInit, latch_concat, ← isInit]

/-- The registry after a call, but for what EDMA changes. -/
theorem Called.registry (h : Called plat s p dpc cb ok s')
    (hheadroom : s'.registry.headroom = s.registry.headroom)
    (harr : s'.edmaHw.netdevArr = s.edmaHw.netdevArr)
    (hinited : ∀ q, isInit q .edma s'.history = isInit q .edma s.history) :
    s'.registry = s.registry := by
  ext1
  · exact hheadroom
  · exact harr
  · exact funext hinited
  · exact h.inits
  · funext q
    exact congrArg (fun ops => decide (ops = .edma)) (h.sameOps q)

/-- A callback of another data plane leaves EDMA's registry alone. -/
theorem callback_registry_other (hops : (s.dev p).dataPlaneOps ≠ .edma)
    (h : s.callback plat p dpc env cb = .ok (ok, s')) : s'.registry = s.registry := by
  have hcalled := callback_called h
  refine hcalled.registry ?_ (congrArg EdmaHw.netdevArr (hcalled.edmaHw hops)) fun q => ?_
  · obtain ⟨-, rfl⟩ := callback_other hops h
    unfold otherDataPlane
    split
    · have hmodify := @modify_registry_same s p (fun d => { d with features := env.features })
        (fun _ => rfl) (fun _ => rfl) fun _ => rfl
      have hheadroom := congrArg EdmaRegistry.headroom hmodify
      exact hheadroom
    · rfl
  · rw [hcalled.inited]
    cases cb <;> simp [DpEvent.inits, DpEvent.deinits, hops.symm]

/-- So does a callback that neither initialises nor deinitialises. -/
theorem callback_registry (hinit : cb ≠ .init) (hdeinit : cb ≠ .deinit)
    (h : s.callback plat p dpc env cb = .ok (ok, s')) : s'.registry = s.registry := by
  by_cases hops : (s.dev p).dataPlaneOps = .edma
  · have hcalled := callback_called h
    have hinited (q : Nat) : isInit q .edma s'.history = isInit q .edma s.history := by
      rw [hcalled.inited]
      cases cb with
      | init => exact absurd rfl hinit
      | deinit => exact absurd rfl hdeinit
      | _ => simp [DpEvent.inits, DpEvent.deinits]
    obtain ⟨r, hr, -, rfl⟩ := callback_edma hops h
    cases cb with
    | init => exact absurd rfl hinit
    | deinit => exact absurd rfl hdeinit
    | «open» =>
      obtain ⟨e, he, rfl⟩ := Option.map_eq_some_iff.mp hr
      exact hcalled.registry rfl (edmaIfOpen_netdevArr he) hinited
    | close =>
      obtain ⟨e, he, rfl⟩ := Option.map_eq_some_iff.mp hr
      exact hcalled.registry rfl (edmaIfClose_netdevArr he) hinited
    | xmit | getStats => cases hr
    | _ =>
      cases hr
      exact hcalled.registry rfl rfl hinited
  · exact callback_registry_other hops h

/-- `init` of the data plane a port has. -/
theorem init_registry (hwf : Wf plat s) (hp : p ∈ plat.ports)
    (h : s.ownCallback plat p env .init = .ok (ok, s')) : s'.registry = s.registry.init p ok := by
  by_cases hops : (s.dev p).dataPlaneOps = .edma
  · have honEdma : s.registry.onEdma p = true := decide_eq_true hops
    have hcalled := callback_called h
    obtain ⟨ret, -, heffect⟩ := ownCallback_init_edma hwf hp hops h
    have hinited : s'.registry.inited =
        if ok then Function.update s.registry.inited p true else s.registry.inited := by
      funext q
      refine (hcalled.inited q).trans ?_
      rw [hops]
      cases ok with
      | false => simp [DpEvent.inits, DpEvent.deinits, Driver.registry]
      | true =>
        rw [if_pos rfl, Function.update_apply]
        by_cases hq : q = p
        · simp [DpEvent.inits, DpEvent.deinits, hq]
        · simp [DpEvent.inits, DpEvent.deinits, Driver.registry, hq]
    have hheadroom : s'.registry.headroom = if ok then
        Function.update s.registry.headroom p (u16 (s.registry.headroom p + edmaTxPrehdrSize))
        else s.registry.headroom := by
      obtain ⟨r, hr, rfl, rfl⟩ := callback_edma hops h
      simp only [nssDpEdmaOps, hwf.dev hp hops, Option.map_some, Option.some.injEq] at hr
      subst hr
      have hmodify := congrArg EdmaRegistry.headroom (@modify_registry s p fun d => { d with
        netdev := (edmaIfInit plat.soc s.edmaHw (s.dev p).netdev env.irq).2.2 })
      refine Eq.trans hmodify ?_
      dsimp only
      rw [edmaIfInit_headroom]
      by_cases hret : (edmaIfInit plat.soc s.edmaHw (s.dev p).netdev env.irq).1 = .success
      · rw [if_pos hret, if_pos (decide_eq_true hret)]
        rfl
      · rw [if_neg hret, if_neg (by simpa using hret)]
        exact Function.update_eq_self _ _
    rw [EdmaRegistry.init, if_pos honEdma]
    ext1
    · exact hheadroom
    · exact heffect.netdevArr
    · exact hinited
    · exact hcalled.inits
    · funext q
      exact congrArg (fun ops => decide (ops = .edma)) (hcalled.sameOps q)
  · have honEdma : s.registry.onEdma p = false := decide_eq_false hops
    rw [EdmaRegistry.init, honEdma, if_neg Bool.false_ne_true]
    exact callback_registry_other hops h

/-- `deinit` of the data plane a port has, whatever context it is given. -/
theorem deinit_registry (h : s.callback plat p dpc env .deinit = .ok (ok, s')) :
    s'.registry = s.registry.deinit p := by
  by_cases hops : (s.dev p).dataPlaneOps = .edma
  · have honEdma : s.registry.onEdma p = true := decide_eq_true hops
    have hcalled := callback_called h
    rw [EdmaRegistry.deinit, if_pos honEdma]
    have hinited : s'.registry.inited = Function.update s.registry.inited p false := by
      funext q
      refine (hcalled.inited q).trans ?_
      rw [hops, Function.update_apply]
      by_cases hq : q = p
      · simp [DpEvent.inits, DpEvent.deinits, hq]
      · simp [DpEvent.inits, DpEvent.deinits, hq]
        rfl
    obtain ⟨r, hr, -, rfl⟩ := callback_edma hops h
    obtain ⟨e, he, rfl⟩ := Option.map_eq_some_iff.mp hr
    ext1
    · rfl
    · exact edmaIfDeinit_netdevArr he
    · exact hinited
    · rfl
    · rfl
  · have honEdma : s.registry.onEdma p = false := decide_eq_false hops
    rw [EdmaRegistry.deinit, honEdma, if_neg Bool.false_ne_true]
    exact callback_registry_other hops h

end Callbacks

section Calls

variable {plat : Platform} {s s' m : Driver} {p : Nat} {dpc : DpcPtr} {env : CallEnv}
  {cb : DpCallback} {ok : Bool} {ret : DevRet}

theorem setCarrier_registry (b : Bool) : (s.setCarrier p b).registry = s.registry :=
  modify_registry_same (f := fun d => { d with netdev := { d.netdev with carrierOk := b } })
    (fun _ => rfl) (fun _ => rfl) fun _ => rfl

theorem setQueueStopped_registry (b : Bool) : (s.setQueueStopped p b).registry = s.registry :=
  modify_registry_same (f := fun d => { d with netdev := { d.netdev with queueStopped := b } })
    (fun _ => rfl) (fun _ => rfl) fun _ => rfl

theorem setRunning_registry (b : Bool) : (s.setRunning p b).registry = s.registry :=
  modify_registry_same (f := fun d => { d with netdev := { d.netdev with running := b } })
    (fun _ => rfl) (fun _ => rfl) fun _ => rfl

theorem setUp_registry (b : Bool) : (s.setUp p b).registry = s.registry :=
  modify_registry_same (fun _ => rfl) (fun _ => rfl) fun _ => rfl

theorem setLinkState_registry (l : NssDpLinkState) :
    (s.setLinkState p l).registry = s.registry :=
  modify_registry_same (fun _ => rfl) (fun _ => rfl) fun _ => rfl

theorem resetNetdevFeatures_registry : (nssDpResetNetdevFeatures s p).registry = s.registry :=
  modify_registry_same (fun _ => rfl) (fun _ => rfl) fun _ => rfl

/-- A call that goes on after a callback of the port, which is neither of the two. -/
theorem orReturn_registry {err : DevRet} {next : Driver → Except Halt (DevRet × Driver)}
    (hinit : cb ≠ .init) (hdeinit : cb ≠ .deinit)
    (hnext : ∀ m, next m = .ok (ret, s') → s'.registry = m.registry)
    (h : orReturn err (s.ownCallback plat p env cb) next = .ok (ret, s')) :
    s'.registry = s.registry := by
  rcases orReturn_eq_ok h with ⟨hcall, -⟩ | ⟨m, hcall, h⟩
  · exact callback_registry hinit hdeinit hcall
  · exact (hnext m h).trans (callback_registry hinit hdeinit hcall)

/-- So it is where the callback is called with PPE support only. -/
theorem orReturn_registry_ppe {err : DevRet} {next : Driver → Except Halt (DevRet × Driver)}
    (hinit : cb ≠ .init) (hdeinit : cb ≠ .deinit)
    (hnext : ∀ m, next m = .ok (ret, s') → s'.registry = m.registry)
    (h : orReturn err (if plat.soc.ppeSupport then s.ownCallback plat p env cb else .ok (true, s))
      next = .ok (ret, s')) : s'.registry = s.registry := by
  split at h
  · exact orReturn_registry hinit hdeinit hnext h
  · exact hnext s h

/-- `nss_dp_close` leaves it alone. -/
theorem nssDpClose_registry (h : nssDpClose plat s p env = .ok (ret, s')) :
    s'.registry = s.registry := by
  unfold nssDpClose at h
  dsimp only at h
  have hstart := (setCarrier_registry (s := s.setQueueStopped p true) (p := p) false).trans
    (setQueueStopped_registry true)
  rw [← hstart]
  refine orReturn_registry (by simp) (by simp) (fun m₁ h => ?_) h
  rw [← setLinkState_registry (s := m₁) (p := p) .down]
  refine orReturn_registry_ppe (by simp) (by simp) (fun m₂ h => ?_) h
  refine orReturn_registry (by simp) (by simp) (fun m₃ h => ?_) h
  cases h
  exact setUp_registry false

theorem stopIfUp_registry (h : stopIfUp plat s p env = .ok s') : s'.registry = s.registry := by
  unfold stopIfUp at h
  split at h
  · obtain ⟨⟨ret, m⟩, hm, rfl⟩ := Except.map_eq_ok_iff.mp h
    exact resetNetdevFeatures_registry.trans (nssDpClose_registry hm)
  · cases h
    rfl

theorem initOnce_registry (hwf : Wf plat s) (hp : p ∈ plat.ports)
    (h : initOnce plat s p env = .ok (ok, s')) :
    s'.registry = s.registry.initOnce p (s.answer plat p env .init) := by
  unfold initOnce at h
  split at h
  · rename_i hdone
    cases h
    exact (if_pos hdone).symm
  · rename_i hdone
    obtain ⟨⟨ok', c⟩, hcall, heq⟩ := Except.map_eq_ok_iff.mp h
    cases heq
    have hnot : ¬ s.registry.initDone p = true := hdone
    have hanswer := ownCallback_answer hwf hp (by simp) hcall
    rw [EdmaRegistry.initOnce, if_neg hnot, ← hanswer, ← init_registry hwf hp hcall]
    split
    · exact setInitDone_registry true
    · rfl

/-- `nss_dp_open` initialises the data plane where it is not. -/
theorem nssDpOpen_registry (hwf : Wf plat s) (hp : p ∈ plat.ports)
    (h : nssDpOpen plat s p env = .ok (ret, s')) :
    s'.registry = s.registry.initOnce p (s.answer plat p env .init) := by
  unfold nssDpOpen at h
  have hcarrier : Quiet s (s.setCarrier p false) := Quiet.setCarrier false
  have hinit {ok : Bool} {m : Driver}
      (hm : initOnce plat (s.setCarrier p false) p env = .ok (ok, m)) :
      m.registry = s.registry.initOnce p (s.answer plat p env .init) := by
    rw [initOnce_registry (hcarrier.wf hwf) hp hm, setCarrier_registry, hcarrier.answer]
  rcases orReturn_eq_ok h with ⟨hm, -⟩ | ⟨m, hm, h⟩
  · exact hinit hm
  obtain ⟨⟨_, m₀⟩, hfeatures, h⟩ := Except.bind_eq_ok_iff.mp h
  rw [← hinit hm, ← callback_registry (by simp) (by simp) hfeatures,
    ← setUp_registry (s := m₀) (p := p) true]
  refine orReturn_registry_ppe (by simp) (by simp) (fun m₁ h => ?_) h
  refine orReturn_registry (by simp) (by simp) (fun m₂ h => ?_) h
  refine orReturn_registry (by simp) (by simp) (fun m₃ h => ?_) h
  refine orReturn_registry (by simp) (by simp) (fun m₄ h => ?_) h
  rw [← setQueueStopped_registry (s := m₄) (p := p) false]
  dsimp only at h
  split at h
  · cases h
    exact setLinkState_registry .down
  · refine orReturn_registry (by simp) (by simp) (fun m₅ h => ?_) h
    cases h
    exact (setCarrier_registry true).trans (setLinkState_registry .up)

theorem deinitOnce_registry (h : deinitOnce plat s p dpc env = .ok (ok, s')) :
    s'.registry = s.registry.deinitOnce p (s.answer plat p env .deinit) := by
  rcases deinitOnce_run h with ⟨hdone, -, rfl⟩ | ⟨hdone, hanswer, c, hcall, rfl⟩
  · exact (if_neg (fun h => Bool.false_ne_true (hdone.symm.trans h))).symm
  · have hdone' : s.registry.initDone p = true := hdone
    rw [EdmaRegistry.deinitOnce, if_pos hdone', ← hanswer, ← deinit_registry hcall]
    split
    · exact setInitDone_registry false
    · rfl

/-- `nss_dp_override_data_plane` deinitialises the data plane where it is initialised. -/
theorem override_registry {id : Nat} {missing : List DpCallback} (hwf : Wf plat s)
    (hp : p ∈ plat.ports) (hmiss : ¬ MissesRequired missing)
    (h : nssDpOverrideDataPlane plat s p id missing dpc env = .ok (ret, s')) :
    s'.registry = s.registry.override p (s.answer plat p env .deinit) := by
  unfold nssDpOverrideDataPlane at h
  split at h
  · exact absurd ‹_› hmiss
  obtain ⟨m, hm, h⟩ := Except.bind_eq_ok_iff.mp h
  have hstop := stopIfUp_run hwf hp hm
  have hanswer : m.answer plat p env .deinit = s.answer plat p env .deinit := hstop.deinit_answer
  have hdeinited {ok : Bool} {c : Driver} (hc : deinitOnce plat m p dpc env = .ok (ok, c)) :
      c.registry = s.registry.deinitOnce p (s.answer plat p env .deinit) := by
    rw [deinitOnce_registry hc, stopIfUp_registry hm, hanswer]
  have hdone : s.registry.initDone p = (m.dev p).initDone := (hstop.frame p).2.symm
  rw [EdmaRegistry.override, hdone, ← hanswer]
  rcases orReturn_eq_ok h with ⟨hc, -⟩ | ⟨c, hc, h⟩
  · rw [hdeinited hc, hanswer]
    rcases deinitOnce_run hc with ⟨-, hok, -⟩ | ⟨hinit, hok, -⟩
    · cases hok
    · rw [← hanswer, ← hok, hinit]
      rfl
  · cases h
    have hends : (!(m.dev p).initDone || m.answer plat p env .deinit) = true := by
      rcases deinitOnce_run hc with ⟨hinit, -⟩ | ⟨-, hok, -⟩
      · rw [hinit, Bool.not_false, Bool.true_or]
      · rw [← hok, Bool.or_true]
    rw [if_pos hends, hanswer, ← hdeinited hc]
    exact install_registry

end Calls

/-- What a call does to the registry. -/
def PortCall.register (plat : Platform) (s : Driver) (r : EdmaRegistry) : PortCall → EdmaRegistry
  | .devOpen p env => r.initOnce p (s.answer plat p env .init)
  | .devClose _ _ => r
  | .override p _ missing _ env =>
    if MissesRequired missing then r else r.override p (s.answer plat p env .deinit)
  | .start p dpc env =>
    if (s.dev p).up = true ∨ (s.dev p).dpc ≠ dpc then r
    else r.initOnce p (s.answer plat p env .init)
  | .restore p _ => r.install p (decide (plat.soc.halOps = .edma))

/-- A call on a port is one step of the registry. -/
theorem portCall_registry {plat : Platform} {s s' : Driver} {c : PortCall} (hwf : Wf plat s)
    (hp : c.port ∈ plat.ports) (h : portCall plat s c = .ok s') :
    s'.registry = c.register plat s s.registry := by
  cases c with
  | devOpen p env =>
    obtain ⟨⟨ret, m⟩, hm, rfl⟩ := Except.map_eq_ok_iff.mp h
    exact (setRunning_registry _).trans (nssDpOpen_registry hwf hp hm)
  | devClose p env =>
    obtain ⟨⟨ret, m⟩, hm, rfl⟩ := Except.map_eq_ok_iff.mp h
    exact (setRunning_registry _).trans (nssDpClose_registry hm)
  | override p id missing dpc env =>
    obtain ⟨⟨ret, m⟩, hm, rfl⟩ := Except.map_eq_ok_iff.mp h
    rw [PortCall.register]
    split
    · rename_i hmiss
      unfold nssDpOverrideDataPlane at hm
      split at hm
      · cases hm
        rfl
      · rename_i hnot
        exact absurd hmiss hnot
    · rename_i hmiss
      exact override_registry hwf hp hmiss hm
  | start p dpc env =>
    simp only [portCall, nssDpStartDataPlane] at h
    rw [PortCall.register]
    split at h
    · rename_i hup
      cases h
      rw [if_pos (Or.inl hup)]
    rename_i hup
    split at h
    · rename_i hdpc
      cases h
      rw [if_pos (Or.inr hdpc)]
    rename_i hdpc
    obtain ⟨⟨ret, m⟩, hm, rfl⟩ := Except.map_eq_ok_iff.mp h
    rw [if_neg (not_or.mpr ⟨hup, hdpc⟩)]
    exact nssDpOpen_registry hwf hp hm
  | restore p env =>
    obtain ⟨m, hm, rfl⟩ := Except.map_eq_ok_iff.mp h
    rw [install_registry, stopIfUp_registry hm]
    rfl

end NssDp
