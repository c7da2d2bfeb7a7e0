import NssDp.Main.Proofs.Calls

/-!
# How the operations of a port end

`nss_dp_open` and `nss_dp_close` stop at the first callback that fails. What they have done by
then depends on a few callbacks only: `init`, `open` and `close`.
-/

namespace NssDp

open Edma

/-- `nss_dp_close` gets as far as the callback `close`. -/
def Driver.reachesClose (plat : Platform) (s : Driver) (p : Nat) (env : CallEnv) : Bool :=
  s.answer plat p env .linkState && (!plat.soc.ppeSupport || s.answer plat p env .vsiUnassign)

/-- `nss_dp_open` finds the data plane initialised or initialises it. -/
def Driver.initOk (plat : Platform) (s : Driver) (p : Nat) (env : CallEnv) : Bool :=
  (s.dev p).initDone || s.answer plat p env .init

/-- `nss_dp_open` gets from an initialised data plane to the callback `open`. -/
def Driver.reachesOpen (plat : Platform) (s : Driver) (p : Nat) (env : CallEnv) : Bool :=
  (!plat.soc.ppeSupport || s.answer plat p env .vsiAssign) && s.answer plat p env .macAddr &&
    s.answer plat p env .changeMtu

/-- How `nss_dp_close` ends. -/
inductive CloseRun (plat : Platform) (s : Driver) (p : Nat) (env : CallEnv) : Driver → Prop where
  | aborted {s' : Driver} (hreach : s.reachesClose plat p env = false)
      (hquiet : Quiet (s.setQueueStopped p true) s') : CloseRun plat s p env s'
  | failed {m c : Driver} (hreach : s.reachesClose plat p env = true)
      (hanswer : s.answer plat p env .close = false)
      (hquiet : Quiet (s.setQueueStopped p true) m)
      (hcall : m.ownCallback plat p env .close = .ok (false, c)) : CloseRun plat s p env c
  | closed {m c : Driver} (hreach : s.reachesClose plat p env = true)
      (hanswer : s.answer plat p env .close = true)
      (hquiet : Quiet (s.setQueueStopped p true) m)
      (hcall : m.ownCallback plat p env .close = .ok (true, c)) :
      CloseRun plat s p env (c.setUp p false)

/-- How `nss_dp_open` gets an initialised data plane. -/
inductive InitRun (plat : Platform) (s : Driver) (p : Nat) (env : CallEnv) : Driver → Prop where
  | done {m : Driver} (hdone : (s.dev p).initDone = true) (hquiet : Quiet s m) :
      InitRun plat s p env m
  | called {m c : Driver} (hdone : (s.dev p).initDone = false) (hquiet : Quiet s m)
      (hcall : m.ownCallback plat p env .init = .ok (true, c)) :
      InitRun plat s p env (c.setInitDone p true)

/-- How `nss_dp_open` ends: the bit `__NSS_DP_UP` is set before the callbacks that may fail. -/
inductive OpenRun (plat : Platform) (s : Driver) (p : Nat) (env : CallEnv) :
    DevRet → Driver → Prop where
  | initFailed {m c : Driver} (hinit : s.initOk plat p env = false) (hquiet : Quiet s m)
      (hcall : m.ownCallback plat p env .init = .ok (false, c)) :
      OpenRun plat s p env .enomem c
  | aborted {m s' : Driver} (hinit : s.initOk plat p env = true) (hrun : InitRun plat s p env m)
      (hreach : s.reachesOpen plat p env = false) (hquiet : Quiet (m.setUp p true) s') :
      OpenRun plat s p env .eagain s'
  | failed {m m' c : Driver} (hinit : s.initOk plat p env = true) (hrun : InitRun plat s p env m)
      (hreach : s.reachesOpen plat p env = true) (hanswer : s.answer plat p env .open = false)
      (hquiet : Quiet (m.setUp p true) m')
      (hcall : m'.ownCallback plat p env .open = .ok (false, c)) : OpenRun plat s p env .eagain c
  | opened {m m' c s' : Driver} {ret : DevRet} (hinit : s.initOk plat p env = true)
      (hrun : InitRun plat s p env m) (hreach : s.reachesOpen plat p env = true)
      (hanswer : s.answer plat p env .open = true) (hquiet : Quiet (m.setUp p true) m')
      (hcall : m'.ownCallback plat p env .open = .ok (true, c))
      (hquiet' : Quiet (c.setQueueStopped p false) s')
      (hret : ret = .ok ↔ ((s.dev p).linkPoll || s.answer plat p env .linkState) = true) :
      OpenRun plat s p env ret s'

section Runs

variable {plat : Platform} {s s' m : Driver} {p : Nat} {env : CallEnv} {cb : DpCallback}

theorem orReturn_eq_ok {err ret : DevRet} {r : Except Halt (Bool × Driver)}
    {next : Driver → Except Halt (DevRet × Driver)} (h : orReturn err r next = .ok (ret, s')) :
    (r = .ok (false, s') ∧ ret = err) ∨ ∃ m, r = .ok (true, m) ∧ next m = .ok (ret, s') := by
  obtain ⟨⟨ok, m⟩, hr, hnext⟩ := Except.bind_eq_ok_iff.mp h
  cases ok with
  | false =>
    cases hnext
    exact Or.inl ⟨hr, rfl⟩
  | true => exact Or.inr ⟨m, hr, hnext⟩

/-- A quiet callback. -/
theorem ownCallback_quiet {ok : Bool} (hcb : cb.isQuiet = true)
    (h : s.ownCallback plat p env cb = .ok (ok, s')) : Quiet s s' := by
  have hcalled := callback_called h
  have hedmaHw : s'.edmaHw = s.edmaHw := by
    by_cases hops : (s.dev p).dataPlaneOps = .edma
    · obtain ⟨r, hr, -, rfl⟩ := callback_edma hops h
      cases cb with
      | init | «open» | close | xmit | deinit => cases hcb
      | getStats => cases hr
      | _ =>
        cases hr
        rfl
    · exact hcalled.edmaHw hops
  refine ⟨hcalled.life, hcalled.ctx, hcalled.commonInitDone, hedmaHw,
    [.call p (s.dev p).dataPlaneOps (s.dev p).dpc cb ok], ?_, fun e he => ?_⟩
  · rw [hcalled.history, hedmaHw, freedBy_of_eq rfl, List.append_nil]
  · rw [List.mem_singleton.mp he]
    exact hcb

/-- A quiet callback on the way from `s` answers what it would have answered in `s`. -/
theorem Quiet.ownCallback {ok : Bool} (hquiet : Quiet s m) (hwf : Wf plat s) (hp : p ∈ plat.ports)
    (hcb : cb.isQuiet = true) (hdone : cb = .vsiAssign → (s.dev p).initDone = true)
    (h : m.ownCallback plat p env cb = .ok (ok, s')) :
    Quiet s s' ∧ ok = s.answer plat p env cb := by
  refine ⟨hquiet.trans (ownCallback_quiet hcb h), ?_⟩
  rw [← hquiet.answer]
  exact ownCallback_answer (hquiet.wf hwf) hp (fun hvsi => (hquiet.initDone p).trans (hdone hvsi)) h

/-- A quiet callback that is only called with PPE support. -/
theorem Quiet.ppeCallback {ok : Bool} (hquiet : Quiet s m) (hwf : Wf plat s) (hp : p ∈ plat.ports)
    (hcb : cb.isQuiet = true) (hdone : cb = .vsiAssign → (s.dev p).initDone = true)
    (h : (if plat.soc.ppeSupport then m.ownCallback plat p env cb else .ok (true, m)) =
      .ok (ok, s')) :
    Quiet s s' ∧ ok = (!plat.soc.ppeSupport || s.answer plat p env cb) := by
  split at h
  · rename_i hppe
    obtain ⟨hquiet', hok⟩ := hquiet.ownCallback hwf hp hcb hdone h
    exact ⟨hquiet', by rw [hok, hppe, Bool.not_true, Bool.false_or]⟩
  · rename_i hppe
    cases h
    rw [Bool.not_eq_true] at hppe
    exact ⟨hquiet, by rw [hppe, Bool.not_false, Bool.true_or]⟩

/-- Nothing else of a port is tied to its data plane. -/
theorem Wf.modify {f : NssDpDev → NssDpDev} (hwf : Wf plat s)
    (hmacid : ∀ d, (f d).netdev.macid = d.netdev.macid) (hdpc : ∀ d, (f d).dpc = d.dpc)
    (hops : ∀ d, (f d).dataPlaneOps = d.dataPlaneOps) : Wf plat (s.modify p f) := by
  refine ⟨fun q => ?_, hwf.ctx, fun q => ?_⟩
  · rw [modify_dev]
    split
    · rename_i h
      rw [hmacid, h, hwf.macid]
    · exact hwf.macid q
  · rw [modify_dev]
    split
    · rename_i h
      rw [hops, hdpc, h]
      exact hwf.edma p
    · exact hwf.edma q

theorem setQueueStopped_wf (hwf : Wf plat s) (b : Bool) : Wf plat (s.setQueueStopped p b) :=
  hwf.modify (f := fun d => { d with netdev := { d.netdev with queueStopped := b } })
    (fun _ => rfl) (fun _ => rfl) fun _ => rfl

theorem setQueueStopped_answer (b : Bool) :
    (s.setQueueStopped p b).answer plat p env cb = s.answer plat p env cb := by
  refine answer_congr ?_ ?_ rfl <;> simp [Driver.setQueueStopped, Driver.modifyNetdev]

/-- `nss_dp_close` ends in one of these ways. -/
theorem nssDpClose_run {ret : DevRet} (hwf : Wf plat s) (hp : p ∈ plat.ports)
    (h : nssDpClose plat s p env = .ok (ret, s')) : CloseRun plat s p env s' := by
  unfold nssDpClose at h
  dsimp only at h
  have hwf₀ : Wf plat (s.setQueueStopped p true) := setQueueStopped_wf hwf true
  have hanswer (cb : DpCallback) :
      (s.setQueueStopped p true).answer plat p env cb = s.answer plat p env cb :=
    setQueueStopped_answer true
  have hstart : Quiet (s.setQueueStopped p true) ((s.setQueueStopped p true).setCarrier p false) :=
    Quiet.setCarrier false
  rcases orReturn_eq_ok h with ⟨hlink, -⟩ | ⟨m₁, hlink, h⟩
  · obtain ⟨hquiet, hok⟩ := hstart.ownCallback hwf₀ hp rfl (by simp) hlink
    rw [hanswer] at hok
    exact .aborted (by rw [Driver.reachesClose, ← hok, Bool.false_and]) hquiet
  obtain ⟨hquiet₁, hok₁⟩ := hstart.ownCallback hwf₀ hp rfl (by simp) hlink
  rw [hanswer] at hok₁
  have hdown := hquiet₁.trans (Quiet.setLinkState (p := p) .down)
  rcases orReturn_eq_ok h with ⟨hvsi, -⟩ | ⟨m₂, hvsi, h⟩
  · obtain ⟨hquiet, hok⟩ := hdown.ppeCallback hwf₀ hp rfl (by simp) hvsi
    rw [hanswer] at hok
    exact .aborted (by rw [Driver.reachesClose, ← hok, Bool.and_false]) hquiet
  obtain ⟨hquiet₂, hok₂⟩ := hdown.ppeCallback hwf₀ hp rfl (by simp) hvsi
  rw [hanswer] at hok₂
  have hreach : s.reachesClose plat p env = true := by
    rw [Driver.reachesClose, ← hok₁, ← hok₂, Bool.and_true]
  have hclose {ok : Bool} {c : Driver} (hc : m₂.ownCallback plat p env .close = .ok (ok, c)) :
      s.answer plat p env .close = ok := by
    rw [ownCallback_answer (hquiet₂.wf hwf₀) hp (by simp) hc, hquiet₂.answer, hanswer]
  rcases orReturn_eq_ok h with ⟨hcall, -⟩ | ⟨c, hcall, h⟩
  · exact .failed hreach (hclose hcall) hquiet₂ hcall
  · cases h
    exact .closed hreach (hclose hcall) hquiet₂ hcall

theorem InitRun.wf (hrun : InitRun plat s p env m) (hwf : Wf plat s) : Wf plat m := by
  cases hrun with
  | done _ hquiet => exact hquiet.wf hwf
  | @called m c _ hquiet hcall =>
    have hwf' := (callback_called hcall).wf (hquiet.wf hwf)
    exact hwf'.modify (fun _ => rfl) (fun _ => rfl) fun _ => rfl

theorem InitRun.initDone (hrun : InitRun plat s p env m) : (m.dev p).initDone = true := by
  cases hrun with
  | done hdone hquiet => rw [hquiet.initDone, hdone]
  | called => simp [Driver.setInitDone]

theorem InitRun.linkPoll (hrun : InitRun plat s p env m) :
    (m.dev p).linkPoll = (s.dev p).linkPoll := by
  cases hrun with
  | done _ hquiet => exact hquiet.linkPoll p
  | called _ hquiet hcall =>
    rw [Driver.setInitDone, modify_dev_self, linkPoll_of_life ((callback_called hcall).life p),
      hquiet.linkPoll]

/-- Initialising a data plane changes its answers only as far as is known beforehand. -/
theorem InitRun.answer (hrun : InitRun plat s p env m) (hwf : Wf plat s) (hp : p ∈ plat.ports)
    (hcb : cb ≠ .init) : m.answer plat p env cb = s.answer plat p env cb := by
  cases hrun with
  | done _ hquiet => exact hquiet.answer
  | @called m c hdone hquiet hcall =>
    have hcalled := callback_called hcall
    have hops : ((c.setInitDone p true).dev p).dataPlaneOps = (s.dev p).dataPlaneOps := by
      rw [← hquiet.dataPlaneOps, ← dataPlaneOps_of_life (hcalled.life p)]
      simp [Driver.setInitDone]
    by_cases hedma : (s.dev p).dataPlaneOps = .edma
    · rw [answer_edma (hops.trans hedma), answer_edma hedma]
      cases cb with
      | init => exact absurd rfl hcb
      | vsiAssign =>
        obtain ⟨ret, -, heffect⟩ := ownCallback_init_edma (hquiet.wf hwf) hp
          ((hquiet.dataPlaneOps p).trans hedma) hcall
        have hfound : (edmaGetPortNumFromNetdev plat.soc c.edmaHw (some p)).isSome = true :=
          edmaGetPortNumFromNetdev_of_setNetdev (Finset.mem_Icc.mp hp) heffect.netdevArr
        simp only [Driver.edmaAnswer, Driver.setInitDone, modify_dev_self, modify_edmaHw, hfound,
          hdone, Bool.not_true, Bool.not_false, Bool.false_or, Bool.true_or]
      | _ => rfl
    · rw [answer_other (by rwa [hops]), answer_other hedma]

/-- The beginning of `nss_dp_open`. -/
theorem initOnce_run {ok : Bool} (hwf : Wf plat s) (hp : p ∈ plat.ports) (hquiet : Quiet s s')
    (h : initOnce plat s' p env = .ok (ok, m)) :
    ok = s.initOk plat p env ∧ (ok = true → InitRun plat s p env m) ∧
      (ok = false → s'.ownCallback plat p env .init = .ok (false, m)) := by
  unfold initOnce at h
  rw [hquiet.initDone] at h
  split at h
  · rename_i hdone
    cases h
    exact ⟨by rw [Driver.initOk, hdone, Bool.true_or], fun _ => .done hdone hquiet, fun h =>
      nomatch h⟩
  · rename_i hdone
    rw [Bool.not_eq_true] at hdone
    obtain ⟨⟨ok', c⟩, hcall, heq⟩ := Except.map_eq_ok_iff.mp h
    cases heq
    have hok := ownCallback_answer (hquiet.wf hwf) hp (by simp) hcall
    rw [hquiet.answer] at hok
    refine ⟨by rw [Driver.initOk, hdone, Bool.false_or, hok], fun h => ?_, fun h => ?_⟩
    · dsimp only at h
      subst h
      exact .called hdone hquiet hcall
    · dsimp only at h
      subst h
      exact hcall

/-- `nss_dp_open` ends in one of these ways. -/
theorem nssDpOpen_run {ret : DevRet} (hwf : Wf plat s) (hp : p ∈ plat.ports)
    (h : nssDpOpen plat s p env = .ok (ret, s')) : OpenRun plat s p env ret s' := by
  unfold nssDpOpen at h
  rcases orReturn_eq_ok h with ⟨hcall, rfl⟩ | ⟨m, hcall, h⟩
  · obtain ⟨hok, -, hinit⟩ := initOnce_run hwf hp (Quiet.setCarrier false) hcall
    exact .initFailed hok.symm (Quiet.setCarrier false) (hinit rfl)
  obtain ⟨hok, hrun, -⟩ := initOnce_run hwf hp (Quiet.setCarrier false) hcall
  have hinit := hok.symm
  have hrun := hrun rfl
  have hwf₀ : Wf plat (m.setUp p true) :=
    (hrun.wf hwf).modify (fun _ => rfl) (fun _ => rfl) fun _ => rfl
  have hdone : ((m.setUp p true).dev p).initDone = true := by
    simp [Driver.setUp, hrun.initDone]
  have hanswer {cb : DpCallback} (hcb : cb ≠ .init) :
      (m.setUp p true).answer plat p env cb = s.answer plat p env cb := by
    rw [← hrun.answer hwf hp hcb]
    exact answer_congr (by simp [Driver.setUp]) (by simp [Driver.setUp]) rfl
  obtain ⟨⟨_, m₀⟩, hfeatures, h⟩ := Except.bind_eq_ok_iff.mp h
  have hquiet₀ := (ownCallback_quiet rfl hfeatures).congr_setUp (p := p) true
  rcases orReturn_eq_ok h with ⟨hvsi, rfl⟩ | ⟨m₁, hvsi, h⟩
  · obtain ⟨hquiet, hok⟩ := hquiet₀.ppeCallback hwf₀ hp rfl (fun _ => hdone) hvsi
    rw [hanswer (by simp)] at hok
    exact .aborted hinit hrun (by rw [Driver.reachesOpen, ← hok]; rfl) hquiet
  obtain ⟨hquiet₁, hok₁⟩ := hquiet₀.ppeCallback hwf₀ hp rfl (fun _ => hdone) hvsi
  rw [hanswer (by simp)] at hok₁
  rcases orReturn_eq_ok h with ⟨hmac, rfl⟩ | ⟨m₂, hmac, h⟩
  · obtain ⟨hquiet, hok⟩ := hquiet₁.ownCallback hwf₀ hp rfl (fun _ => hdone) hmac
    rw [hanswer (by simp)] at hok
    exact .aborted hinit hrun (by rw [Driver.reachesOpen, ← hok, Bool.and_false]; rfl) hquiet
  obtain ⟨hquiet₂, hok₂⟩ := hquiet₁.ownCallback hwf₀ hp rfl (fun _ => hdone) hmac
  rw [hanswer (by simp)] at hok₂
  rcases orReturn_eq_ok h with ⟨hmtu, rfl⟩ | ⟨m₃, hmtu, h⟩
  · obtain ⟨hquiet, hok⟩ := hquiet₂.ownCallback hwf₀ hp rfl (fun _ => hdone) hmtu
    rw [hanswer (by simp)] at hok
    exact .aborted hinit hrun (by rw [Driver.reachesOpen, ← hok, Bool.and_false]) hquiet
  obtain ⟨hquiet₃, hok₃⟩ := hquiet₂.ownCallback hwf₀ hp rfl (fun _ => hdone) hmtu
  rw [hanswer (by simp)] at hok₃
  have hreach : s.reachesOpen plat p env = true := by
    rw [Driver.reachesOpen, ← hok₁, ← hok₂, ← hok₃]
    rfl
  have hopen {ok : Bool} {c : Driver} (hc : m₃.ownCallback plat p env .open = .ok (ok, c)) :
      s.answer plat p env .open = ok := by
    rw [ownCallback_answer (hquiet₃.wf hwf₀) hp (by simp) hc, hquiet₃.answer, hanswer (by simp)]
  rcases orReturn_eq_ok h with ⟨hcall, rfl⟩ | ⟨c, hcall, h⟩
  · exact .failed hinit hrun hreach (hopen hcall) hquiet₃ hcall
  have hcalled := callback_called hcall
  have hwf₄ : Wf plat (c.setQueueStopped p false) :=
    setQueueStopped_wf (hcalled.wf (hquiet₃.wf hwf₀)) false
  have hpoll : ((c.setQueueStopped p false).dev p).linkPoll = (s.dev p).linkPoll := by
    rw [Driver.setQueueStopped, Driver.modifyNetdev, modify_dev_self,
      linkPoll_of_life (hcalled.life p), hquiet₃.linkPoll, Driver.setUp, modify_dev_self,
      hrun.linkPoll]
  have hlinkAnswer {ok : Bool} {c' : Driver}
      (hc : (c.setQueueStopped p false).ownCallback plat p env .linkState = .ok (ok, c')) :
      s.answer plat p env .linkState = ok := by
    have hops : ((c.setQueueStopped p false).dev p).dataPlaneOps =
        ((m.setUp p true).dev p).dataPlaneOps := by
      rw [Driver.setQueueStopped, Driver.modifyNetdev, modify_dev_self,
        dataPlaneOps_of_life (hcalled.life p), hquiet₃.dataPlaneOps]
    rw [ownCallback_answer hwf₄ hp (by simp) hc, ← hanswer (by simp)]
    exact (answer_linkState_congr hops).symm
  dsimp only at h
  split at h
  · rename_i hpolled
    cases h
    refine .opened hinit hrun hreach (hopen hcall) hquiet₃ hcall (Quiet.setLinkState _) ?_
    rw [← hpoll, hpolled, Bool.true_or]
    exact iff_of_true rfl rfl
  rename_i hpolled
  rw [hpoll, Bool.not_eq_true] at hpolled
  rcases orReturn_eq_ok h with ⟨hlink, rfl⟩ | ⟨c', hlink, h⟩
  · refine .opened hinit hrun hreach (hopen hcall) hquiet₃ hcall (ownCallback_quiet rfl hlink) ?_
    rw [hpolled, hlinkAnswer hlink]
    simp
  · cases h
    refine .opened hinit hrun hreach (hopen hcall) hquiet₃ hcall
      (((ownCallback_quiet rfl hlink).trans (Quiet.setLinkState _)).trans (Quiet.setCarrier _)) ?_
    rw [hpolled, hlinkAnswer hlink]
    simp

end Runs

section Bits

variable {plat : Platform} {s s' m : Driver} {p : Nat} {env : CallEnv} {ret : DevRet}

theorem InitRun.ups (hrun : InitRun plat s p env m) : m.ups = s.ups := by
  cases hrun with
  | done _ hquiet => exact hquiet.ups
  | called _ hquiet hcall =>
    exact (modify_ups rfl).trans ((callback_called hcall).ups.trans hquiet.ups)

theorem InitRun.inits (hrun : InitRun plat s p env m) :
    m.inits = Function.update s.inits p true := by
  cases hrun with
  | done hdone hquiet => rw [hquiet.inits, Function.update_eq_self_iff.mpr hdone.symm]
  | called _ hquiet hcall =>
    rw [setInitDone_inits, (callback_called hcall).inits, hquiet.inits]

/-- A port is up once its data plane is initialised, whatever becomes of the rest of
    `nss_dp_open`. -/
theorem OpenRun.ups (hrun : OpenRun plat s p env ret s') :
    s'.ups = if s.initOk plat p env then Function.update s.ups p true else s.ups := by
  cases hrun with
  | initFailed hinit hquiet hcall =>
    rw [hinit, (callback_called hcall).ups, hquiet.ups]
    rfl
  | aborted hinit hrun _ hquiet => rw [hinit, hquiet.ups, setUp_ups, hrun.ups, if_pos rfl]
  | failed hinit hrun _ _ hquiet hcall =>
    rw [hinit, (callback_called hcall).ups, hquiet.ups, setUp_ups, hrun.ups, if_pos rfl]
  | opened hinit hrun _ _ hquiet hcall hquiet' =>
    rw [hinit, hquiet'.ups, setQueueStopped_ups, (callback_called hcall).ups, hquiet.ups, setUp_ups,
      hrun.ups, if_pos rfl]

theorem OpenRun.inits (hrun : OpenRun plat s p env ret s') :
    s'.inits = if s.initOk plat p env then Function.update s.inits p true else s.inits := by
  have hup {m : Driver} : (m.setUp p true).inits = m.inits := modify_inits rfl
  cases hrun with
  | initFailed hinit hquiet hcall =>
    rw [hinit, (callback_called hcall).inits, hquiet.inits]
    rfl
  | aborted hinit hrun _ hquiet => rw [hinit, hquiet.inits, hup, hrun.inits, if_pos rfl]
  | failed hinit hrun _ _ hquiet hcall =>
    rw [hinit, (callback_called hcall).inits, hquiet.inits, hup, hrun.inits, if_pos rfl]
  | opened hinit hrun _ _ hquiet hcall hquiet' =>
    rw [hinit, hquiet'.inits, setQueueStopped_inits, (callback_called hcall).inits, hquiet.inits,
      hup, hrun.inits, if_pos rfl]

theorem CloseRun.ups (hrun : CloseRun plat s p env s') :
    s'.ups = if s.reachesClose plat p env && s.answer plat p env .close then
      Function.update s.ups p false else s.ups := by
  cases hrun with
  | aborted hreach hquiet => rw [hreach, hquiet.ups, setQueueStopped_ups]; rfl
  | failed hreach hanswer hquiet hcall =>
    rw [hreach, hanswer, (callback_called hcall).ups, hquiet.ups, setQueueStopped_ups]
    rfl
  | closed hreach hanswer hquiet hcall =>
    rw [hreach, hanswer, setUp_ups, (callback_called hcall).ups, hquiet.ups, setQueueStopped_ups]
    rfl

theorem CloseRun.inits (hrun : CloseRun plat s p env s') : s'.inits = s.inits := by
  cases hrun with
  | aborted _ hquiet => rw [hquiet.inits, setQueueStopped_inits]
  | failed _ _ hquiet hcall =>
    rw [(callback_called hcall).inits, hquiet.inits, setQueueStopped_inits]
  | closed _ _ hquiet hcall =>
    apply (modify_inits rfl).trans
    rw [(callback_called hcall).inits, hquiet.inits, setQueueStopped_inits]

end Bits

/-- What happens to a port that is up at the beginning of an override or a restore. -/
inductive StopRun (plat : Platform) (s : Driver) (p : Nat) (env : CallEnv) : Driver → Prop where
  | notUp (hup : (s.dev p).up = false) : StopRun plat s p env s
  | stopped {m : Driver} (hup : (s.dev p).up = true) (hrun : CloseRun plat s p env m) :
      StopRun plat s p env (nssDpResetNetdevFeatures m p)

section Frames

variable {plat : Platform} {s s' m : Driver} {p : Nat} {dpc : DpcPtr} {env : CallEnv}

theorem resetNetdevFeatures_quiet : Quiet s (nssDpResetNetdevFeatures s p) :=
  Quiet.modify fun _ => rfl

theorem setQueueStopped_life_congr (b : Bool) (q : Nat) :
    ((s.setQueueStopped p b).dev q).dataPlaneOps = (s.dev q).dataPlaneOps ∧
      ((s.setQueueStopped p b).dev q).initDone = (s.dev q).initDone := by
  simp only [Driver.setQueueStopped, Driver.modifyNetdev, modify_dev]
  split
  · rename_i h
    rw [h]
    exact ⟨rfl, rfl⟩
  · exact ⟨rfl, rfl⟩

theorem setUp_life_congr (b : Bool) (q : Nat) :
    ((s.setUp p b).dev q).dataPlaneOps = (s.dev q).dataPlaneOps ∧
      ((s.setUp p b).dev q).initDone = (s.dev q).initDone := by
  simp only [Driver.setUp, modify_dev]
  split
  · rename_i h
    rw [h]
    exact ⟨rfl, rfl⟩
  · exact ⟨rfl, rfl⟩

/-- Closing leaves the data plane in its place, and initialised. -/
theorem CloseRun.frame (hrun : CloseRun plat s p env s') (q : Nat) :
    (s'.dev q).dataPlaneOps = (s.dev q).dataPlaneOps ∧
      (s'.dev q).initDone = (s.dev q).initDone := by
  obtain ⟨hops, hdone⟩ := setQueueStopped_life_congr (s := s) (p := p) true q
  cases hrun with
  | aborted _ hquiet => exact ⟨(hquiet.dataPlaneOps q).trans hops, (hquiet.initDone q).trans hdone⟩
  | failed _ _ hquiet hcall =>
    have hlife := (callback_called hcall).life q
    exact ⟨(dataPlaneOps_of_life hlife).trans ((hquiet.dataPlaneOps q).trans hops),
      (initDone_of_life hlife).trans ((hquiet.initDone q).trans hdone)⟩
  | @closed m c _ _ hquiet hcall =>
    have hlife := (callback_called hcall).life q
    obtain ⟨hops', hdone'⟩ := setUp_life_congr (s := c) (p := p) false q
    exact ⟨hops'.trans ((dataPlaneOps_of_life hlife).trans ((hquiet.dataPlaneOps q).trans hops)),
      hdone'.trans ((initDone_of_life hlife).trans ((hquiet.initDone q).trans hdone))⟩

theorem StopRun.frame (hrun : StopRun plat s p env s') (q : Nat) :
    (s'.dev q).dataPlaneOps = (s.dev q).dataPlaneOps ∧
      (s'.dev q).initDone = (s.dev q).initDone := by
  cases hrun with
  | notUp => exact ⟨rfl, rfl⟩
  | stopped _ hclose =>
    obtain ⟨hops, hdone⟩ := hclose.frame q
    exact ⟨(resetNetdevFeatures_quiet.dataPlaneOps q).trans hops,
      (resetNetdevFeatures_quiet.initDone q).trans hdone⟩

/-- The answer to `deinit` is not changed by a stop. -/
theorem StopRun.deinit_answer (hrun : StopRun plat s p env s') :
    s'.answer plat p env .deinit = s.answer plat p env .deinit := by
  have hops := (hrun.frame p).1
  by_cases hedma : (s.dev p).dataPlaneOps = .edma
  · rw [answer_edma (hops.trans hedma), answer_edma hedma]
    rfl
  · rw [answer_other (by rwa [hops]), answer_other hedma]

theorem CloseRun.wf (hrun : CloseRun plat s p env s') (hwf : Wf plat s) : Wf plat s' := by
  have hwf₀ : Wf plat (s.setQueueStopped p true) := setQueueStopped_wf hwf true
  cases hrun with
  | aborted _ hquiet => exact hquiet.wf hwf₀
  | failed _ _ hquiet hcall => exact (callback_called hcall).wf (hquiet.wf hwf₀)
  | closed _ _ hquiet hcall =>
    exact ((callback_called hcall).wf (hquiet.wf hwf₀)).modify (fun _ => rfl) (fun _ => rfl)
      fun _ => rfl

theorem OpenRun.wf {ret : DevRet} (hrun : OpenRun plat s p env ret s') (hwf : Wf plat s) :
    Wf plat s' := by
  have hup {m : Driver} (hinit : InitRun plat s p env m) : Wf plat (m.setUp p true) :=
    (hinit.wf hwf).modify (fun _ => rfl) (fun _ => rfl) fun _ => rfl
  cases hrun with
  | initFailed _ hquiet hcall => exact (callback_called hcall).wf (hquiet.wf hwf)
  | aborted _ hinit _ hquiet => exact hquiet.wf (hup hinit)
  | failed _ hinit _ _ hquiet hcall => exact (callback_called hcall).wf (hquiet.wf (hup hinit))
  | opened _ hinit _ _ hquiet hcall hquiet' =>
    exact hquiet'.wf (setQueueStopped_wf ((callback_called hcall).wf (hquiet.wf (hup hinit))) false)

theorem StopRun.wf (hrun : StopRun plat s p env s') (hwf : Wf plat s) : Wf plat s' := by
  cases hrun with
  | notUp => exact hwf
  | stopped _ hclose => exact resetNetdevFeatures_quiet.wf (hclose.wf hwf)

theorem setRunning_wf (hwf : Wf plat s) (b : Bool) : Wf plat (s.setRunning p b) :=
  hwf.modify (f := fun d => { d with netdev := { d.netdev with running := b } })
    (fun _ => rfl) (fun _ => rfl) fun _ => rfl

/-- A data plane is installed that is not EDMA, or with the port's own context. -/
theorem Wf.install (hwf : Wf plat s) {ops : DataPlaneOps}
    (hedma : ops = .edma → dpc = .global (p - 1)) : Wf plat (s.install p dpc ops) := by
  refine ⟨fun q => ?_, hwf.ctx, fun q => ?_⟩
  · rw [Driver.install, Driver.record, modify_dev]
    split
    · rename_i h
      rw [h]
      exact hwf.macid p
    · exact hwf.macid q
  · rw [Driver.install, Driver.record, modify_dev]
    split
    · rename_i h
      rw [h]
      exact hedma
    · exact hwf.edma q

/-- The context that `nss_dp_restore_data_plane` installs with EDMA is the port's own. -/
theorem restore_dpc (h : plat.soc.halOps = .edma) :
    DpcPtr.global (p - plat.soc.startIfnum) = .global (p - 1) := by
  cases hsoc : plat.soc <;> rw [hsoc] at h <;> first | rfl | cases h

theorem stopIfUp_run (hwf : Wf plat s) (hp : p ∈ plat.ports)
    (h : stopIfUp plat s p env = .ok s') : StopRun plat s p env s' := by
  unfold stopIfUp at h
  split at h
  · rename_i hup
    obtain ⟨⟨ret, m⟩, hm, rfl⟩ := Except.map_eq_ok_iff.mp h
    exact .stopped hup (nssDpClose_run hwf hp hm)
  · rename_i hup
    cases h
    exact .notUp (by simpa using hup)

/-- The middle of an override. -/
theorem deinitOnce_run {ok : Bool} (h : deinitOnce plat s p dpc env = .ok (ok, s')) :
    ((s.dev p).initDone = false ∧ ok = true ∧ s' = s) ∨
      ((s.dev p).initDone = true ∧ ok = s.answer plat p env .deinit ∧
        ∃ c, s.callback plat p dpc env .deinit = .ok (ok, c) ∧
          s' = if ok then c.setInitDone p false else c) := by
  unfold deinitOnce at h
  split at h
  · rename_i hdone
    obtain ⟨⟨ok', c⟩, hcall, heq⟩ := Except.map_eq_ok_iff.mp h
    cases heq
    exact Or.inr ⟨hdone, callback_deinit_answer hcall, c, hcall, rfl⟩
  · rename_i hdone
    cases h
    exact Or.inl ⟨by simpa using hdone, rfl, rfl⟩

theorem deinitOnce_wf {ok : Bool} (hwf : Wf plat s)
    (h : deinitOnce plat s p dpc env = .ok (ok, s')) : Wf plat s' := by
  rcases deinitOnce_run h with ⟨-, -, rfl⟩ | ⟨-, -, c, hcall, rfl⟩
  · exact hwf
  · have hwf' := (callback_called hcall).wf hwf
    split
    · exact hwf'.modify (fun _ => rfl) (fun _ => rfl) fun _ => rfl
    · exact hwf'

/-- Whether an override finds a member missing that it requires. -/
def MissesRequired (missing : List DpCallback) : Prop := ∃ cb ∈ requiredCallbacks, cb ∈ missing

/-- How an override ends that is not rejected. -/
inductive OverrideRun (plat : Platform) (s : Driver) (p : Nat) (ops : DataPlaneOps)
    (dpc : DpcPtr) (env : CallEnv) : Driver → Prop where
  | deinitFailed {m c : Driver} (hstop : StopRun plat s p env m)
      (hdeinit : deinitOnce plat m p dpc env = .ok (false, c)) :
      OverrideRun plat s p ops dpc env c
  | installed {m c : Driver} (hstop : StopRun plat s p env m)
      (hdeinit : deinitOnce plat m p dpc env = .ok (true, c)) :
      OverrideRun plat s p ops dpc env (c.install p dpc ops)

theorem nssDpOverride_run {id : Nat} {missing : List DpCallback} {ret : DevRet} (hwf : Wf plat s)
    (hp : p ∈ plat.ports)
    (h : nssDpOverrideDataPlane plat s p id missing dpc env = .ok (ret, s')) :
    (MissesRequired missing ∧ s' = s) ∨
      (¬ MissesRequired missing ∧ OverrideRun plat s p (.overlay id missing) dpc env s') := by
  unfold nssDpOverrideDataPlane at h
  split at h
  · rename_i hmiss
    cases h
    exact Or.inl ⟨hmiss, rfl⟩
  · rename_i hmiss
    refine Or.inr ⟨hmiss, ?_⟩
    obtain ⟨m, hm, h⟩ := Except.bind_eq_ok_iff.mp h
    rcases orReturn_eq_ok h with ⟨hdeinit, -⟩ | ⟨c, hdeinit, h⟩
    · exact .deinitFailed (stopIfUp_run hwf hp hm) hdeinit
    · cases h
      exact .installed (stopIfUp_run hwf hp hm) hdeinit

/-- How a call on a port ends. -/
inductive PortRun (plat : Platform) (s : Driver) : PortCall → Driver → Prop where
  | opened {p : Nat} {env : CallEnv} {ret : DevRet} {m : Driver}
      (hrun : OpenRun plat s p env ret m) :
      PortRun plat s (.devOpen p env) (m.setRunning p (ret = .ok))
  | closed {p : Nat} {env : CallEnv} {m : Driver} (hrun : CloseRun plat s p env m) :
      PortRun plat s (.devClose p env) (m.setRunning p false)
  | rejected {p id : Nat} {missing : List DpCallback} {dpc : DpcPtr} {env : CallEnv}
      (hmiss : MissesRequired missing) : PortRun plat s (.override p id missing dpc env) s
  | overridden {p id : Nat} {missing : List DpCallback} {dpc : DpcPtr} {env : CallEnv}
      {m : Driver} (hmiss : ¬ MissesRequired missing)
      (hrun : OverrideRun plat s p (.overlay id missing) dpc env m) :
      PortRun plat s (.override p id missing dpc env) m
  | ignored {p : Nat} {dpc : DpcPtr} {env : CallEnv}
      (hwhy : (s.dev p).up = true ∨ (s.dev p).dpc ≠ dpc) : PortRun plat s (.start p dpc env) s
  | started {p : Nat} {dpc : DpcPtr} {env : CallEnv} {ret : DevRet} {m : Driver}
      (hup : (s.dev p).up = false) (hdpc : (s.dev p).dpc = dpc)
      (hrun : OpenRun plat s p env ret m) : PortRun plat s (.start p dpc env) m
  | restored {p : Nat} {env : CallEnv} {m : Driver} (hstop : StopRun plat s p env m) :
      PortRun plat s (.restore p env)
        (m.install p (.global (p - plat.soc.startIfnum)) plat.soc.halOps)

theorem portCall_run {c : PortCall} (hwf : Wf plat s) (hp : c.port ∈ plat.ports)
    (h : portCall plat s c = .ok s') : PortRun plat s c s' := by
  cases c with
  | devOpen p env =>
    obtain ⟨⟨ret, m⟩, hm, rfl⟩ := Except.map_eq_ok_iff.mp h
    exact .opened (nssDpOpen_run hwf hp hm)
  | devClose p env =>
    obtain ⟨⟨ret, m⟩, hm, rfl⟩ := Except.map_eq_ok_iff.mp h
    exact .closed (nssDpClose_run hwf hp hm)
  | override p id missing dpc env =>
    obtain ⟨⟨ret, m⟩, hm, rfl⟩ := Except.map_eq_ok_iff.mp h
    rcases nssDpOverride_run hwf hp hm with ⟨hmiss, rfl⟩ | ⟨hmiss, hrun⟩
    · exact .rejected hmiss
    · exact .overridden hmiss hrun
  | start p dpc env =>
    simp only [portCall, nssDpStartDataPlane] at h
    split at h
    · rename_i hup
      cases h
      exact .ignored (Or.inl hup)
    rename_i hup
    split at h
    · rename_i hdpc
      cases h
      exact .ignored (Or.inr hdpc)
    rename_i hdpc
    obtain ⟨⟨ret, m⟩, hm, rfl⟩ := Except.map_eq_ok_iff.mp h
    exact .started (by simpa using hup) (not_not.mp hdpc) (nssDpOpen_run hwf hp hm)
  | restore p env =>
    obtain ⟨m, hm, rfl⟩ := Except.map_eq_ok_iff.mp h
    exact .restored (stopIfUp_run hwf hp hm)

/-- A step is a call that is enabled and returns. -/
theorem portStep_run {c : PortCall} (hwf : Wf plat s) (h : portStep plat s c = some s') :
    c.enabled plat s ∧ PortRun plat s c s' := by
  unfold portStep at h
  split at h
  · rename_i henabled
    exact ⟨henabled, portCall_run hwf henabled.1 (Except.toOption_eq_some_iff.mp h)⟩
  · cases h

/-- Every call on a port keeps EDMA with the ports' own contexts. -/
theorem PortRun.wf {c : PortCall} (hrun : PortRun plat s c s') (hwf : Wf plat s) : Wf plat s' := by
  cases hrun with
  | opened hrun => exact setRunning_wf (hrun.wf hwf) _
  | closed hrun => exact setRunning_wf (hrun.wf hwf) _
  | rejected => exact hwf
  | overridden _ hrun =>
    cases hrun with
    | deinitFailed hstop hdeinit => exact deinitOnce_wf (hstop.wf hwf) hdeinit
    | installed hstop hdeinit =>
      exact (deinitOnce_wf (hstop.wf hwf) hdeinit).install fun h => nomatch h
  | ignored => exact hwf
  | started _ _ hrun => exact hrun.wf hwf
  | restored hstop => exact (hstop.wf hwf).install restore_dpc

end Frames

section Others

variable {plat : Platform} {s s' m : Driver} {p q : Nat} {dpc : DpcPtr} {env : CallEnv}
  {ret : DevRet} {ok : Bool}

theorem setQueueStopped_dev_of_ne (hq : q ≠ p) (b : Bool) :
    (s.setQueueStopped p b).dev q = s.dev q := by
  rw [Driver.setQueueStopped, Driver.modifyNetdev, modify_dev_of_ne hq]

theorem setRunning_dev_of_ne (hq : q ≠ p) (b : Bool) : (s.setRunning p b).dev q = s.dev q := by
  rw [Driver.setRunning, Driver.modifyNetdev, modify_dev_of_ne hq]

theorem install_dev_of_ne (hq : q ≠ p) {ops : DataPlaneOps} :
    (s.install p dpc ops).dev q = s.dev q := by
  rw [Driver.install, Driver.record, modify_dev_of_ne hq]

/-- A call on one port leaves the other ports alone. -/
theorem CloseRun.others (hrun : CloseRun plat s p env s') (hq : q ≠ p) :
    (s'.dev q).life = (s.dev q).life := by
  have hstop : ((s.setQueueStopped p true).dev q).life = (s.dev q).life :=
    congrArg _ (setQueueStopped_dev_of_ne hq true)
  cases hrun with
  | aborted _ hquiet => exact (hquiet.life q).trans hstop
  | failed _ _ hquiet hcall =>
    exact ((callback_called hcall).life q).trans
      ((hquiet.life q).trans hstop)
  | closed _ _ hquiet hcall =>
    apply (congrArg _ (modify_dev_of_ne hq)).trans
    exact ((callback_called hcall).life q).trans ((hquiet.life q).trans hstop)

theorem InitRun.others (hrun : InitRun plat s p env m) (hq : q ≠ p) :
    (m.dev q).life = (s.dev q).life := by
  cases hrun with
  | done _ hquiet => exact hquiet.life q
  | called _ hquiet hcall =>
    apply (congrArg _ (modify_dev_of_ne hq)).trans
    exact ((callback_called hcall).life q).trans (hquiet.life q)

theorem OpenRun.others (hrun : OpenRun plat s p env ret s') (hq : q ≠ p) :
    (s'.dev q).life = (s.dev q).life := by
  have hup {m : Driver} : ((m.setUp p true).dev q).life = (m.dev q).life :=
    congrArg _ (modify_dev_of_ne hq)
  cases hrun with
  | initFailed _ hquiet hcall => exact ((callback_called hcall).life q).trans (hquiet.life q)
  | aborted _ hrun _ hquiet => exact (hquiet.life q).trans (hup.trans (hrun.others hq))
  | failed _ hrun _ _ hquiet hcall =>
    exact ((callback_called hcall).life q).trans
      ((hquiet.life q).trans (hup.trans (hrun.others hq)))
  | opened _ hrun _ _ hquiet hcall hquiet' =>
    refine (hquiet'.life q).trans ((congrArg _ (setQueueStopped_dev_of_ne hq false)).trans ?_)
    exact ((callback_called hcall).life q).trans
      ((hquiet.life q).trans (hup.trans (hrun.others hq)))

theorem StopRun.others (hrun : StopRun plat s p env s') (hq : q ≠ p) :
    (s'.dev q).life = (s.dev q).life := by
  cases hrun with
  | notUp => rfl
  | stopped _ hclose => exact (resetNetdevFeatures_quiet.life q).trans (hclose.others hq)

theorem deinitOnce_others (h : deinitOnce plat s p dpc env = .ok (ok, s')) (hq : q ≠ p) :
    (s'.dev q).life = (s.dev q).life := by
  rcases deinitOnce_run h with ⟨-, -, rfl⟩ | ⟨-, -, c, hcall, rfl⟩
  · rfl
  · refine Eq.trans ?_ ((callback_called hcall).life q)
    split
    · exact congrArg _ (modify_dev_of_ne hq)
    · rfl

theorem PortRun.others {c : PortCall} (hrun : PortRun plat s c s') (hq : q ≠ c.port) :
    (s'.dev q).life = (s.dev q).life := by
  cases hrun with
  | opened hrun => exact (congrArg _ (setRunning_dev_of_ne hq _)).trans (hrun.others hq)
  | closed hrun => exact (congrArg _ (setRunning_dev_of_ne hq _)).trans (hrun.others hq)
  | rejected | ignored => rfl
  | overridden _ hrun =>
    cases hrun with
    | deinitFailed hstop hdeinit => exact (deinitOnce_others hdeinit hq).trans (hstop.others hq)
    | installed hstop hdeinit =>
      apply (congrArg _ (install_dev_of_ne hq)).trans
      exact (deinitOnce_others hdeinit hq).trans (hstop.others hq)
  | started _ _ hrun => exact hrun.others hq
  | restored hstop => exact (congrArg _ (install_dev_of_ne hq)).trans (hstop.others hq)

/-- Closing stops the queue. -/
theorem CloseRun.queueStopped (hrun : CloseRun plat s p env s') :
    (s'.dev p).netdev.queueStopped = true := by
  have hstop : ((s.setQueueStopped p true).dev p).netdev.queueStopped = true := by
    rw [Driver.setQueueStopped, Driver.modifyNetdev, modify_dev_self]
  cases hrun with
  | aborted _ hquiet => rw [queueStopped_of_life (hquiet.life p), hstop]
  | failed _ _ hquiet hcall =>
    rw [queueStopped_of_life ((callback_called hcall).life p), queueStopped_of_life (hquiet.life p),
      hstop]
  | closed _ _ hquiet hcall =>
    rw [Driver.setUp, modify_dev_self, queueStopped_of_life ((callback_called hcall).life p),
      queueStopped_of_life (hquiet.life p), hstop]

/-- An open that does not get to the end of the initialisation changes nothing. -/
theorem OpenRun.life_of_initFailed (hrun : OpenRun plat s p env ret s')
    (hinit : s.initOk plat p env = false) :
    ret = .enomem ∧ (s'.dev p).life = (s.dev p).life := by
  cases hrun with
  | initFailed _ hquiet hcall =>
    exact ⟨rfl, ((callback_called hcall).life p).trans (hquiet.life p)⟩
  | aborted hinit' | failed hinit' | opened hinit' => cases hinit.symm.trans hinit'

end Others

/-! ### Which data planes the ports have -/

/-- The callbacks of a port and the context that is passed to them. -/
structure Plane where
  ops : DataPlaneOps
  dpc : DpcPtr
  deriving DecidableEq

def Driver.planes (s : Driver) : Nat → Plane := fun p => ⟨(s.dev p).dataPlaneOps, (s.dev p).dpc⟩

section Planes

variable {plat : Platform} {s s' m : Driver} {p : Nat} {dpc : DpcPtr} {env : CallEnv}
  {cb : DpCallback} {ret : DevRet} {ok : Bool} {ops : DataPlaneOps} {f : NssDpDev → NssDpDev}

theorem planes_of_life (h : ∀ q, (s'.dev q).life = (s.dev q).life) : s'.planes = s.planes := by
  funext q
  rw [Driver.planes, dataPlaneOps_of_life (h q), dpc_of_life (h q)]
  rfl

theorem Quiet.planes (h : Quiet s s') : s'.planes = s.planes := planes_of_life h.life

theorem Called.planes (h : Called plat s p dpc cb ok s') : s'.planes = s.planes :=
  planes_of_life h.life

theorem modify_planes (hops : (f (s.dev p)).dataPlaneOps = (s.dev p).dataPlaneOps)
    (hdpc : (f (s.dev p)).dpc = (s.dev p).dpc) : (s.modify p f).planes = s.planes := by
  funext q
  rw [Driver.planes, modify_dev]
  split
  · rename_i h
    rw [hops, hdpc, h]
    rfl
  · rfl

theorem setQueueStopped_planes (b : Bool) : (s.setQueueStopped p b).planes = s.planes :=
  modify_planes (f := fun d => { d with netdev := { d.netdev with queueStopped := b } }) rfl rfl

theorem setRunning_planes (b : Bool) : (s.setRunning p b).planes = s.planes :=
  modify_planes (f := fun d => { d with netdev := { d.netdev with running := b } }) rfl rfl

theorem install_planes :
    (s.install p dpc ops).planes = Function.update s.planes p ⟨ops, dpc⟩ := by
  funext q
  rw [Driver.planes, Driver.install, Driver.record, modify_dev, Function.update_apply]
  split <;> rfl

theorem CloseRun.planes (hrun : CloseRun plat s p env s') : s'.planes = s.planes := by
  have hstop : (s.setQueueStopped p true).planes = s.planes := setQueueStopped_planes true
  cases hrun with
  | aborted _ hquiet => exact hquiet.planes.trans hstop
  | failed _ _ hquiet hcall =>
    exact (callback_called hcall).planes.trans
      (hquiet.planes.trans hstop)
  | closed _ _ hquiet hcall =>
    apply (modify_planes rfl rfl).trans
    exact (callback_called hcall).planes.trans (hquiet.planes.trans hstop)

theorem InitRun.planes (hrun : InitRun plat s p env m) : m.planes = s.planes := by
  cases hrun with
  | done _ hquiet => exact hquiet.planes
  | called _ hquiet hcall =>
    exact (modify_planes rfl rfl).trans ((callback_called hcall).planes.trans hquiet.planes)

theorem OpenRun.planes (hrun : OpenRun plat s p env ret s') : s'.planes = s.planes := by
  have hup {m m' : Driver} (hinit : InitRun plat s p env m) (hquiet : Quiet (m.setUp p true) m') :
      m'.planes = s.planes :=
    hquiet.planes.trans ((modify_planes rfl rfl).trans hinit.planes)
  cases hrun with
  | initFailed _ hquiet hcall => exact (callback_called hcall).planes.trans hquiet.planes
  | aborted _ hinit _ hquiet => exact hup hinit hquiet
  | failed _ hinit _ _ hquiet hcall => exact (callback_called hcall).planes.trans (hup hinit hquiet)
  | opened _ hinit _ _ hquiet hcall hquiet' =>
    refine hquiet'.planes.trans ((setQueueStopped_planes false).trans ?_)
    exact (callback_called hcall).planes.trans (hup hinit hquiet)

theorem StopRun.planes (hrun : StopRun plat s p env s') : s'.planes = s.planes := by
  cases hrun with
  | notUp => rfl
  | stopped _ hclose => exact resetNetdevFeatures_quiet.planes.trans hclose.planes

theorem deinitOnce_planes (h : deinitOnce plat s p dpc env = .ok (ok, s')) :
    s'.planes = s.planes := by
  rcases deinitOnce_run h with ⟨-, -, rfl⟩ | ⟨-, -, c, hcall, rfl⟩
  · rfl
  · refine Eq.trans ?_ (callback_called hcall).planes
    split
    · exact modify_planes rfl rfl
    · rfl

/-- A call leaves the data planes in their places, or it is an override that is not rejected or a
    restore. -/
theorem PortRun.planes {c : PortCall} (hrun : PortRun plat s c s') :
    s'.planes = s.planes ∨
      (∃ p id missing dpc env, c = .override p id missing dpc env ∧ ¬ MissesRequired missing ∧
        s'.planes = Function.update s.planes p ⟨.overlay id missing, dpc⟩) ∨
      ∃ p env, c = .restore p env ∧ s'.planes = Function.update s.planes p
        ⟨plat.soc.halOps, .global (p - plat.soc.startIfnum)⟩ := by
  cases hrun with
  | opened hrun => exact Or.inl ((setRunning_planes _).trans hrun.planes)
  | closed hrun => exact Or.inl ((setRunning_planes _).trans hrun.planes)
  | rejected | ignored => exact Or.inl rfl
  | @overridden p id missing dpc env m hmiss hrun =>
    cases hrun with
    | deinitFailed hstop hdeinit => exact Or.inl ((deinitOnce_planes hdeinit).trans hstop.planes)
    | installed hstop hdeinit =>
      refine Or.inr (Or.inl ⟨p, id, missing, dpc, env, rfl, hmiss, ?_⟩)
      rw [install_planes, deinitOnce_planes hdeinit, hstop.planes]
  | started _ _ hrun => exact Or.inl hrun.planes
  | @restored p env m hstop =>
    refine Or.inr (Or.inr ⟨p, env, rfl, ?_⟩)
    rw [install_planes, hstop.planes]

end Planes

/-- A platform with six ports. -/
def ipq807x : Platform := ⟨.ipq807x, BitVec.ofNat 32⟩

/-- The driver on it after all probes. -/
def ipq807xProbed : Driver where
  dev p := {
    netdev := ⟨p, 0, 0, 0, false, true, false⟩
    features := ⟨0, 0, 0, 0⟩
    up := false
    initDone := false
    vsi := p
    mtu := 1500
    devAddr := p
    linkPoll := false
    linkState := .up
    dpc := .global (p - 1)
    dataPlaneOps := .edma }
  dpGlobalDataPlaneCtx i := ⟨some (i + 1)⟩
  commonInitDone := true
  edmaHw := idleEdma
  history := []

theorem ipq807x_probed : Probed ipq807x ipq807xProbed := by
  refine ⟨fun _ => rfl, fun _ => rfl, fun _ => rfl, fun _ => rfl, fun _ => rfl, fun _ => rfl,
    fun p hp => ?_, rfl, rfl, rfl, rfl, rfl, rfl⟩
  have hpos := (Finset.mem_Icc.mp hp).1
  simp only [ipq807xProbed, Nat.sub_add_cancel hpos]

/-- Every callback, FAL call and interrupt request succeeds. -/
def allOk : CallEnv := ⟨fun _ => true, ⟨0, 0, 0, 0⟩, true, grantAll, 0⟩

end NssDp
