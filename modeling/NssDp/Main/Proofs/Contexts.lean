import NssDp.Main.Proofs.InitDone

/-!
# The contexts that callbacks are given

The data plane of a port and the context that is passed to its callbacks are installed together.
An override passes the new context to the `deinit` of the old data plane, and a restore takes the
context of the built-in data plane by another index than the probe.
-/

namespace NssDp

open Edma History Lts

/-- The context that an event installs for port `p` with the data plane `ops`. -/
def DpEvent.installs (p : Nat) (ops : DataPlaneOps) : DpEvent → Option DpcPtr
  | .install q _ new dpc => if p = q ∧ ops = new then some dpc else none
  | _ => none

/-- The context that belongs to a data plane of port `p`: the port's own entry of
    `dp_global_data_plane_ctx` for a built-in one, and for that of an overlay driver what was
    installed with it. -/
def ctxOf (p : Nat) (history : List DpEvent) : DataPlaneOps → Option DpcPtr
  | .edma | .synGmac => some (.global (p - 1))
  | .overlay id missing => latest (DpEvent.installs p (.overlay id missing)) history

/-- A callback is given the context that belongs to its data plane. -/
def CtxOk (pre : List DpEvent) : DpEvent → Prop
  | .call p ops dpc _ _ => ctxOf p pre ops = some dpc
  | _ => True

/-- All callbacks have been given their own contexts. -/
def CtxOrdered (s : Driver) : Prop := OkFrom CtxOk [] s.history

/-- The context that belongs to the data plane a port has, as far as the port tells. -/
def Plane.own (p : Nat) (plane : Plane) : DpcPtr :=
  match plane.ops with
  | .edma | .synGmac => .global (p - 1)
  | .overlay _ _ => plane.dpc

/-- The contexts of overlay drivers are in their places. -/
def CtxTrack (s : Driver) : Prop :=
  ∀ p, ctxOf p s.history (s.planes p).ops = some ((s.planes p).own p)

/-- An event of port `p` while `ops` is its data plane: a callback is given `dpc`, or the rings of
    EDMA are released. -/
def DpEvent.isCallOf (p : Nat) (ops : DataPlaneOps) (dpc : DpcPtr) : DpEvent → Prop
  | .call q ops' dpc' _ _ => q = p ∧ ops' = ops ∧ dpc' = dpc
  | .edmaFreed .. => True
  | .install .. => False

/-- From `s` to `s'`, callbacks of port `p` have been called with `dpc`. -/
structure Calls (s : Driver) (p : Nat) (dpc : DpcPtr) (s' : Driver) : Prop where
  planes : s'.planes = s.planes
  history : ∃ es, s'.history = s.history ++ es ∧ ∀ e ∈ es, e.isCallOf p (s.planes p).ops dpc

/-- So it is, and there is at least one. -/
def CallsSome (s : Driver) (p : Nat) (dpc : DpcPtr) (s' : Driver) : Prop :=
  ∃ m es cb ok, m.planes = s.planes ∧ m.history = s.history ++ es ++
    [.call p (s.planes p).ops dpc cb ok] ∧ (∀ e ∈ es, e.isCallOf p (s.planes p).ops dpc) ∧
    Calls m p dpc s'

section Calls

variable {plat : Platform} {s s' m : Driver} {p : Nat} {dpc : DpcPtr} {env : CallEnv}
  {cb : DpCallback} {ok : Bool}

theorem Calls.of_eq (hplanes : s'.planes = s.planes) (hhistory : s'.history = s.history) :
    Calls s p dpc s' := ⟨hplanes, [], hhistory.trans (List.append_nil _).symm, by simp⟩

theorem Calls.trans (h : Calls s p dpc m) (h' : Calls m p dpc s') : Calls s p dpc s' := by
  obtain ⟨es, hes, hcalls⟩ := h.history
  obtain ⟨es', hes', hcalls'⟩ := h'.history
  refine ⟨h'.planes.trans h.planes, es ++ es', by rw [hes', hes, List.append_assoc], ?_⟩
  intro e he
  rcases List.mem_append.mp he with he | he
  · exact hcalls e he
  · rw [← h.planes]
    exact hcalls' e he

theorem CallsSome.calls (h : CallsSome s p dpc s') : Calls s p dpc s' := by
  obtain ⟨m, es, cb, ok, hplanes, hhistory, hes, hcalls⟩ := h
  refine Calls.trans ⟨hplanes, es ++ [.call p (s.planes p).ops dpc cb ok], ?_, ?_⟩ hcalls
  · rw [hhistory, List.append_assoc]
  · intro e he
    rcases List.mem_append.mp he with he | he
    · exact hes e he
    · rw [List.mem_singleton.mp he]
      exact ⟨rfl, rfl, rfl⟩

theorem CallsSome.trans (h : CallsSome s p dpc m) (h' : Calls m p dpc s') :
    CallsSome s p dpc s' := by
  obtain ⟨m', es, cb, ok, hplanes, hhistory, hes, hcalls⟩ := h
  exact ⟨m', es, cb, ok, hplanes, hhistory, hes, hcalls.trans h'⟩

theorem Calls.trans_some (h : Calls s p dpc m) (h' : CallsSome m p dpc s') :
    CallsSome s p dpc s' := by
  obtain ⟨es, hes, hcalls⟩ := h.history
  obtain ⟨m', es', cb, ok, hplanes, hhistory, hes', hcalls'⟩ := h'
  rw [h.planes] at hplanes hhistory hes'
  refine ⟨m', es ++ es', cb, ok, hplanes, ?_, ?_, hcalls'⟩
  · rw [hhistory, hes, List.append_assoc s.history]
  · intro e he
    rcases List.mem_append.mp he with he | he
    · exact hcalls e he
    · exact hes' e he

theorem freedBy_isCallOf {port : Option Nat} {e : EdmaHw} {ops : DataPlaneOps} :
    ∀ ev ∈ s.freedBy plat port e, ev.isCallOf p ops dpc := by
  intro ev hev
  unfold Driver.freedBy at hev
  split at hev
  · rw [List.mem_singleton.mp hev]
    trivial
  · cases hev

/-- A callback. -/
theorem callback_callsSome (h : s.callback plat p dpc env cb = .ok (ok, s')) :
    CallsSome s p dpc s' := by
  have hcalled := callback_called h
  exact ⟨s', _, cb, ok, hcalled.planes, hcalled.history, freedBy_isCallOf, Calls.of_eq rfl rfl⟩

theorem modify_calls {f : NssDpDev → NssDpDev} {d : DpcPtr}
    (hops : (f (s.dev p)).dataPlaneOps = (s.dev p).dataPlaneOps)
    (hdpc : (f (s.dev p)).dpc = (s.dev p).dpc) : Calls s p d (s.modify p f) :=
  Calls.of_eq (modify_planes hops hdpc) rfl

/-- A call that goes on after a callback of the port, which is given the port's context. -/
theorem orReturn_callsSome {err ret : DevRet} {next : Driver → Except Halt (DevRet × Driver)}
    (hdpc : (s.planes p).dpc = dpc)
    (hnext : ∀ m, (m.planes p).dpc = dpc → next m = .ok (ret, s') → Calls m p dpc s')
    (h : orReturn err (s.ownCallback plat p env cb) next = .ok (ret, s')) :
    CallsSome s p dpc s' := by
  subst hdpc
  rcases orReturn_eq_ok h with ⟨hcall, -⟩ | ⟨m, hcall, h⟩
  · exact callback_callsSome hcall
  · have hcalls := callback_callsSome hcall
    exact hcalls.trans (hnext m (by rw [hcalls.calls.planes]) h)

/-- So it is where the callback is called with PPE support only. -/
theorem orReturn_calls_ppe {err ret : DevRet} {next : Driver → Except Halt (DevRet × Driver)}
    (hdpc : (s.planes p).dpc = dpc)
    (hnext : ∀ m, (m.planes p).dpc = dpc → next m = .ok (ret, s') → Calls m p dpc s')
    (h : orReturn err (if plat.soc.ppeSupport then s.ownCallback plat p env cb else .ok (true, s))
      next = .ok (ret, s')) : Calls s p dpc s' := by
  split at h
  · exact (orReturn_callsSome hdpc hnext h).calls
  · exact hnext s hdpc h

end Calls

section Track

variable {s s' m : Driver} {p : Nat} {dpc : DpcPtr} {ops : DataPlaneOps} {es pre : List DpEvent}

theorem ctxOf_append {d : DpcPtr} (hes : ∀ e ∈ es, e.isCallOf p ops d) (q : Nat)
    (ops' : DataPlaneOps) : ctxOf q (pre ++ es) ops' = ctxOf q pre ops' := by
  cases ops' with
  | edma | synGmac => rfl
  | overlay id missing =>
    apply latest_append_of_none
    intro e he
    have hcall := hes e he
    cases e with
    | call | edmaFreed => rfl
    | install => cases hcall

theorem Calls.track (h : Calls s p dpc s') (htrack : CtxTrack s) : CtxTrack s' := by
  intro q
  obtain ⟨es, hhistory, hes⟩ := h.history
  rw [h.planes, hhistory, ctxOf_append hes]
  exact htrack q

theorem Calls.ordered_of (h : Calls s p dpc s') (hordered : CtxOrdered s') : CtxOrdered s := by
  obtain ⟨es, hhistory, -⟩ := h.history
  exact okFrom_of_prefix ⟨es, hhistory.symm⟩ hordered

/-- Callbacks that are given their own context are in order. -/
theorem Calls.ordered (h : Calls s p dpc s') (htrack : CtxTrack s) (hordered : CtxOrdered s)
    (hown : dpc = (s.planes p).own p) : CtxOrdered s' := by
  obtain ⟨es, hhistory, hes⟩ := h.history
  rw [CtxOrdered, hhistory, okFrom_append]
  refine ⟨hordered, okFrom_of_inv (I := fun l => ctxOf p l (s.planes p).ops = some dpc) ?_ ?_⟩
  · rw [List.nil_append, htrack p, hown]
  · intro e he before hbefore
    constructor
    · cases e with
      | call q ops' dpc' cb ok =>
        obtain ⟨rfl, rfl, rfl⟩ := hes _ he
        exact hbefore
      | install | edmaFreed => trivial
    · have hcall : ∀ a ∈ [e], a.isCallOf p (s.planes p).ops dpc := by
        intro a ha
        rw [List.mem_singleton.mp ha]
        exact hes e he
      rw [ctxOf_append hcall]
      exact hbefore

theorem CallsSome.own (h : CallsSome s p dpc s') (htrack : CtxTrack s) (hordered : CtxOrdered s') :
    dpc = (s.planes p).own p := by
  obtain ⟨m, es, cb, ok, -, hhistory, hes, hcalls⟩ := h
  have hm := hcalls.ordered_of hordered
  rw [CtxOrdered, hhistory, okFrom_concat] at hm
  have hctx : ctxOf p (s.history ++ es) (s.planes p).ops = some dpc := hm.2
  rw [ctxOf_append hes, htrack p] at hctx
  exact (Option.some.inj hctx).symm

/-- Where there is a callback, the context decides. -/
theorem CallsSome.ordered_iff (h : CallsSome s p dpc s') (htrack : CtxTrack s)
    (hordered : CtxOrdered s) : CtxOrdered s' ↔ dpc = (s.planes p).own p :=
  ⟨h.own htrack, h.calls.ordered htrack hordered⟩

theorem install_track (htrack : CtxTrack s) : CtxTrack (s.install p dpc ops) := by
  intro q
  rw [install_planes, install_history, Function.update_apply]
  split
  · rename_i heq
    subst heq
    cases ops with
    | edma | synGmac => rfl
    | overlay id missing => exact latest_concat_of_some (if_pos ⟨rfl, rfl⟩)
  · rename_i hne
    refine Eq.trans ?_ (htrack q)
    cases (s.planes q).ops with
    | edma | synGmac => rfl
    | overlay id missing =>
      apply latest_append_of_none
      intro e he
      rw [List.mem_singleton.mp he]
      exact if_neg fun h => hne h.1

theorem install_ordered_iff : CtxOrdered (s.install p dpc ops) ↔ CtxOrdered s := by
  rw [CtxOrdered, install_history, okFrom_concat]
  exact and_iff_left trivial

end Track

section Functions

variable {plat : Platform} {s s' m : Driver} {p : Nat} {dpc : DpcPtr} {env : CallEnv}
  {cb : DpCallback} {ok : Bool} {ret : DevRet}

/-- `nss_dp_close` passes the context of the port. -/
theorem nssDpClose_callsSome (h : nssDpClose plat s p env = .ok (ret, s')) :
    CallsSome s p (s.dev p).dpc s' := by
  unfold nssDpClose at h
  dsimp only at h
  have hstop : Calls s p (s.dev p).dpc ((s.setQueueStopped p true).setCarrier p false) :=
    Calls.of_eq (((Quiet.setCarrier false).planes).trans (setQueueStopped_planes true)) rfl
  refine hstop.trans_some (orReturn_callsSome ?_ (fun m₁ h₁ hnext => ?_) h)
  · rw [hstop.planes]
    rfl
  have hdown : Calls m₁ p (s.dev p).dpc (m₁.setLinkState p .down) := modify_calls rfl rfl
  refine hdown.trans (orReturn_calls_ppe ?_ (fun m₂ h₂ hnext => ?_) hnext)
  · rw [hdown.planes, h₁]
  refine (orReturn_callsSome h₂ (fun m₃ h₃ hnext => ?_) hnext).calls
  cases hnext
  exact modify_calls rfl rfl

/-- `nss_dp_open` passes the context of the port. -/
theorem nssDpOpen_callsSome (h : nssDpOpen plat s p env = .ok (ret, s')) :
    CallsSome s p (s.dev p).dpc s' := by
  unfold nssDpOpen at h
  have hcarrier : Calls s p (s.dev p).dpc (s.setCarrier p false) :=
    Calls.of_eq (Quiet.setCarrier false).planes rfl
  have hdpc : ((s.setCarrier p false).planes p).dpc = (s.dev p).dpc := by
    rw [hcarrier.planes]
    rfl
  apply hcarrier.trans_some
  have hinit {m : Driver} {ok : Bool}
      (hm : initOnce plat (s.setCarrier p false) p env = .ok (ok, m)) :
      Calls (s.setCarrier p false) p (s.dev p).dpc m ∧
        (ok = false → CallsSome (s.setCarrier p false) p (s.dev p).dpc m) := by
    unfold initOnce at hm
    split at hm
    · cases hm
      exact ⟨Calls.of_eq rfl rfl, fun hok => nomatch hok⟩
    · obtain ⟨⟨ok', c⟩, hc, heq⟩ := Except.map_eq_ok_iff.mp hm
      cases heq
      have hcalls := callback_callsSome hc
      rw [show ((s.setCarrier p false).dev p).dpc = (s.dev p).dpc from hdpc] at hcalls
      split
      · rename_i hok
        exact ⟨hcalls.calls.trans (modify_calls rfl rfl), fun hnot => nomatch hok.symm.trans hnot⟩
      · exact ⟨hcalls.calls, fun _ => hcalls⟩
  rcases orReturn_eq_ok h with ⟨hm, -⟩ | ⟨m, hm, h⟩
  · exact (hinit hm).2 rfl
  have hcalls := (hinit hm).1
  obtain ⟨⟨_, m₀⟩, hfeatures, h⟩ := Except.bind_eq_ok_iff.mp h
  have hm : (m.dev p).dpc = (s.dev p).dpc := by
    have hplane := congrArg Plane.dpc (congrFun hcalls.planes p)
    exact hplane.trans hdpc
  have hsome := callback_callsSome hfeatures
  rw [hm] at hsome
  refine hcalls.trans_some (hsome.trans ?_)
  have hup : Calls m₀ p (s.dev p).dpc (m₀.setUp p true) := modify_calls rfl rfl
  refine hup.trans (orReturn_calls_ppe ?_ (fun m₁ h₁ hnext => ?_) h)
  · rw [hup.planes, hsome.calls.planes]
    exact hm
  refine (orReturn_callsSome h₁ (fun m₂ h₂ hnext => ?_) hnext).calls
  refine (orReturn_callsSome h₂ (fun m₃ h₃ hnext => ?_) hnext).calls
  refine (orReturn_callsSome h₃ (fun m₄ h₄ hnext => ?_) hnext).calls
  have hqueue : Calls m₄ p (s.dev p).dpc (m₄.setQueueStopped p false) :=
    Calls.of_eq (setQueueStopped_planes false) rfl
  apply hqueue.trans
  dsimp only at hnext
  split at hnext
  · cases hnext
    exact modify_calls rfl rfl
  · refine (orReturn_callsSome ?_ (fun m₅ h₅ hnext => ?_) hnext).calls
    · rw [hqueue.planes, h₄]
    · cases hnext
      exact (modify_calls rfl rfl).trans (Calls.of_eq (Quiet.setCarrier true).planes rfl)

end Functions

/-- The context of a port belongs to its data plane. -/
def OwnCtx (s : Driver) (p : Nat) : Prop := (s.dev p).dpc = (s.planes p).own p

/-- When a step gives every callback its own context: that of the port where the port's callbacks
    are called, and the one an override brings where it deinitialises the old data plane. -/
def KeepsCtx (s : Driver) : TrafficCall → Prop
  | .port (.devOpen p _) | .port (.devClose p _) | .xmit p _ _ _ _ => OwnCtx s p
  | .port (.override p _ missing dpc _) => MissesRequired missing ∨
      ((s.dev p).up = true → OwnCtx s p) ∧ ((s.dev p).initDone = true → dpc = (s.planes p).own p)
  | .port (.start p dpc _) => (s.dev p).up = true ∨ (s.dev p).dpc ≠ dpc ∨ OwnCtx s p
  | .port (.restore p _) => (s.dev p).up = true → OwnCtx s p
  | .wake _ => True

section Steps

variable {plat : Platform} {s s' m : Driver} {p : Nat} {dpc : DpcPtr} {env : CallEnv}
  {ok : Bool}

/-- The stop of a port that is up. -/
theorem stopIfUp_ctx (htrack : CtxTrack s) (hordered : CtxOrdered s)
    (h : stopIfUp plat s p env = .ok s') :
    CtxTrack s' ∧ (CtxOrdered s' ↔ ((s.dev p).up = true → OwnCtx s p)) := by
  unfold stopIfUp at h
  split at h
  · rename_i hup
    obtain ⟨⟨ret, m⟩, hm, rfl⟩ := Except.map_eq_ok_iff.mp h
    have hreset : Calls m p (s.dev p).dpc (nssDpResetNetdevFeatures m p) :=
      Calls.of_eq resetNetdevFeatures_quiet.planes rfl
    have hsome := (nssDpClose_callsSome hm).trans hreset
    exact ⟨hsome.calls.track htrack, (hsome.ordered_iff htrack hordered).trans
      ⟨fun hown _ => hown, fun hown => hown hup⟩⟩
  · rename_i hup
    cases h
    exact ⟨htrack, iff_of_true hordered fun h => absurd h hup⟩

/-- The deinitialisation of the old data plane, where there is one to do. -/
theorem deinitOnce_ctx (htrack : CtxTrack s) (h : deinitOnce plat s p dpc env = .ok (ok, s')) :
    CtxTrack s' ∧ (CtxOrdered s' ↔
      CtxOrdered s ∧ ((s.dev p).initDone = true → dpc = (s.planes p).own p)) := by
  rcases deinitOnce_run h with ⟨hdone, -, rfl⟩ | ⟨hdone, -, c, hcall, rfl⟩
  · refine ⟨htrack, (and_iff_left fun h => ?_).symm⟩
    cases hdone.symm.trans h
  · have hsome : CallsSome s p dpc (if ok = true then c.setInitDone p false else c) := by
      apply (callback_callsSome hcall).trans
      split
      · exact modify_calls rfl rfl
      · exact Calls.of_eq rfl rfl
    refine ⟨hsome.calls.track htrack, fun hordered => ?_, fun ⟨hordered, hown⟩ => ?_⟩
    · exact ⟨hsome.calls.ordered_of hordered, fun _ => hsome.own htrack hordered⟩
    · exact hsome.calls.ordered htrack hordered (hown hdone)

theorem portCall_ctx {c : PortCall} (hwf : Wf plat s) (hp : c.port ∈ plat.ports)
    (htrack : CtxTrack s) (hordered : CtxOrdered s) (h : portCall plat s c = .ok s') :
    CtxTrack s' ∧ (CtxOrdered s' ↔ KeepsCtx s (.port c)) := by
  have hrunning (m : Driver) (q : Nat) (b : Bool) {d : DpcPtr} : Calls m q d (m.setRunning q b) :=
    Calls.of_eq (setRunning_planes b) rfl
  cases c with
  | devOpen p env =>
    obtain ⟨⟨ret, m⟩, hm, rfl⟩ := Except.map_eq_ok_iff.mp h
    have hsome := (nssDpOpen_callsSome hm).trans (hrunning m p (ret = .ok))
    exact ⟨hsome.calls.track htrack, hsome.ordered_iff htrack hordered⟩
  | devClose p env =>
    obtain ⟨⟨ret, m⟩, hm, rfl⟩ := Except.map_eq_ok_iff.mp h
    have hsome := (nssDpClose_callsSome hm).trans (hrunning m p false)
    exact ⟨hsome.calls.track htrack, hsome.ordered_iff htrack hordered⟩
  | override p id missing dpc env =>
    obtain ⟨⟨ret, m⟩, hm, rfl⟩ := Except.map_eq_ok_iff.mp h
    unfold nssDpOverrideDataPlane at hm
    split at hm
    · rename_i hmiss
      cases hm
      exact ⟨htrack, iff_of_true hordered (Or.inl hmiss)⟩
    rename_i hmiss
    obtain ⟨m', hm', hm⟩ := Except.bind_eq_ok_iff.mp hm
    have hstop := stopIfUp_run hwf hp hm'
    have hdone : (m'.dev p).initDone = (s.dev p).initDone := (hstop.frame p).2
    obtain ⟨htrack', hstopped⟩ := stopIfUp_ctx htrack hordered hm'
    have hkeeps {c : Driver} {ok : Bool} (hdeinit : deinitOnce plat m' p dpc env = .ok (ok, c)) :
        CtxTrack c ∧ (CtxOrdered c ↔ KeepsCtx s (.port (.override p id missing dpc env))) := by
      obtain ⟨htrack'', hiff⟩ := deinitOnce_ctx htrack' hdeinit
      rw [hstopped, hdone, hstop.planes] at hiff
      exact ⟨htrack'', hiff.trans (or_iff_right hmiss).symm⟩
    rcases orReturn_eq_ok hm with ⟨hdeinit, -⟩ | ⟨c, hdeinit, hm⟩
    · exact hkeeps hdeinit
    · cases hm
      obtain ⟨htrack'', hiff⟩ := hkeeps hdeinit
      exact ⟨install_track htrack'', install_ordered_iff.trans hiff⟩
  | start p dpc env =>
    simp only [NssDp.portCall, nssDpStartDataPlane] at h
    split at h
    · rename_i hup
      cases h
      exact ⟨htrack, iff_of_true hordered (Or.inl hup)⟩
    rename_i hup
    split at h
    · rename_i hdpc
      cases h
      exact ⟨htrack, iff_of_true hordered (Or.inr (Or.inl hdpc))⟩
    rename_i hdpc
    obtain ⟨⟨ret, m⟩, hm, rfl⟩ := Except.map_eq_ok_iff.mp h
    have hsome := nssDpOpen_callsSome hm
    refine ⟨hsome.calls.track htrack, (hsome.ordered_iff htrack hordered).trans ?_⟩
    exact ⟨fun hown => Or.inr (Or.inr hown), fun hkeeps =>
      (hkeeps.resolve_left hup).resolve_left hdpc⟩
  | restore p env =>
    obtain ⟨m, hm, rfl⟩ := Except.map_eq_ok_iff.mp h
    obtain ⟨htrack', hstopped⟩ := stopIfUp_ctx htrack hordered hm
    exact ⟨install_track htrack', install_ordered_iff.trans hstopped⟩

/-- What every step keeps, whether or not it gives every callback its context. -/
structure CtxInv (plat : Platform) (s : Driver) : Prop where
  wf : Wf plat s
  track : CtxTrack s
  ordered : CtxOrdered s

theorem trafficStep_ctx {c : TrafficCall} (h : CtxInv plat s)
    (hstep : trafficStep plat s c = some s') :
    Wf plat s' ∧ CtxTrack s' ∧ (CtxOrdered s' ↔ KeepsCtx s c) := by
  cases c with
  | port c =>
    have hcall : portStep plat s c = some s' := hstep
    obtain ⟨henabled, hrun⟩ := portStep_run h.wf hcall
    rw [portStep, if_pos henabled] at hcall
    exact ⟨hrun.wf h.wf, portCall_ctx h.wf henabled.1 h.track h.ordered
      (Except.toOption_eq_some_iff.mp hcall)⟩
  | xmit p cpu skb env accept =>
    simp only [trafficStep] at hstep
    split at hstep
    · obtain ⟨⟨ret, m⟩, hm, rfl⟩ := Except.map_eq_ok_iff.mp (Except.toOption_eq_some_iff.mp hstep)
      obtain ⟨ok, heffect⟩ := nssDpXmit_effect hm
      have hsome : CallsSome s p (s.dev p).dpc m :=
        ⟨m, [], .xmit, ok, heffect.planes, by rw [heffect.history, List.append_nil]; rfl, by simp,
          Calls.of_eq rfl rfl⟩
      exact ⟨heffect.wf h.wf, hsome.calls.track h.track, hsome.ordered_iff h.track h.ordered⟩
    · cases hstep
  | wake p =>
    simp only [trafficStep] at hstep
    split at hstep
    · cases hstep
      have hcalls : Calls s p (s.dev p).dpc (s.setQueueStopped p false) :=
        Calls.of_eq (setQueueStopped_planes false) rfl
      exact ⟨setQueueStopped_wf h.wf false, hcalls.track h.track, iff_of_true h.ordered trivial⟩
    · cases hstep

theorem Probed.ctxInv (h : Probed plat s) : CtxInv plat s := by
  refine ⟨h.wf, fun p => ?_, ?_⟩
  · rw [Driver.planes, h.dataPlaneOps p, Soc.halOps]
    split <;> rfl
  · rw [CtxOrdered, h.history]
    trivial

end Steps

/-- In every run of opens, closes, overrides, starts, restores and packets on the probed ports,
    every callback is given the context that belongs to its data plane exactly where every step
    keeps to it. -/
theorem ctxRun_own_iff (plat : Platform) {s u : Driver} (hprobed : Probed plat s)
    {cs : List TrafficCall} (hrun : run (trafficStep plat) s cs = some u) :
    Always (trafficStep plat) CtxOrdered s cs ↔ StepsMeet (trafficStep plat) KeepsCtx s cs := by
  refine always_iff_stepsMeet (fun _ h => h.ordered) (fun s c t h hstep => ?_)
    (fun s c t h hstep hordered => ?_) hprobed.ctxInv hrun
  · exact (trafficStep_ctx h hstep).2.2.symm
  · obtain ⟨hwf, htrack, -⟩ := trafficStep_ctx h hstep
    exact ⟨hwf, htrack, hordered⟩

section Decide

variable (s : Driver)

instance decidableIsCtxOk (pre : List DpEvent) : ∀ e, Decidable (CtxOk pre e)
  | .call p ops dpc _ _ => inferInstanceAs (Decidable (ctxOf p pre ops = some dpc))
  | .install .. | .edmaFreed .. => isTrue trivial

instance : Decidable (CtxOrdered s) := inferInstanceAs (Decidable (OkFrom CtxOk [] s.history))

instance (p : Nat) : Decidable (OwnCtx s p) :=
  inferInstanceAs (Decidable ((s.dev p).dpc = (s.planes p).own p))

instance decidableKeepsCtx : ∀ c, Decidable (KeepsCtx s c)
  | .port (.devOpen p _) | .port (.devClose p _) | .xmit p _ _ _ _ =>
    inferInstanceAs (Decidable (OwnCtx s p))
  | .port (.override p _ missing dpc _) => inferInstanceAs (Decidable (MissesRequired missing ∨
      ((s.dev p).up = true → OwnCtx s p) ∧ ((s.dev p).initDone = true → dpc = (s.planes p).own p)))
  | .port (.start p dpc _) =>
    inferInstanceAs (Decidable ((s.dev p).up = true ∨ (s.dev p).dpc ≠ dpc ∨ OwnCtx s p))
  | .port (.restore p _) => inferInstanceAs (Decidable ((s.dev p).up = true → OwnCtx s p))
  | .wake _ => isTrue trivial

end Decide

/-- An overlay driver takes port 1 over before it is opened, and gives it back. -/
def takenFirst : List TrafficCall :=
  [.port (.override 1 0 [] (.overlay 0 ⟨some 1⟩) allOk), .port (.devOpen 1 allOk),
    .xmit 1 0 (packetOf 0 []) ⟨none, 0#32⟩ true, .wake 1, .port (.devClose 1 allOk),
    .port (.start 1 (.overlay 0 ⟨some 1⟩) allOk), .port (.restore 1 allOk)]

theorem ctxRun_own_iff_takenFirst :
    Always (trafficStep ipq807x) CtxOrdered ipq807xProbed takenFirst := by
  obtain ⟨u, hrun⟩ : ∃ u, run (trafficStep ipq807x) ipq807xProbed takenFirst = some u :=
    Option.isSome_iff_exists.mp (by decide +kernel)
  exact (ctxRun_own_iff ipq807x ipq807x_probed hrun).mpr (by decide +kernel)

/-- An overlay driver takes port 1 over after it is opened. -/
def takenOpen : List TrafficCall :=
  [.port (.devOpen 1 allOk), .port (.override 1 0 [] (.overlay 0 ⟨some 1⟩) allOk)]

/-- `init` of EDMA was given the port's own context, and `deinit` is given that of the overlay
    driver. -/
theorem takenOpen_foreign : Probed ipq807x ipq807xProbed ∧
    (∃ t, run (trafficStep ipq807x) ipq807xProbed takenOpen = some t ∧
      .call 1 .edma (.global 0) .init true ∈ t.history ∧
      .call 1 .edma (.overlay 0 ⟨some 1⟩) .deinit true ∈ t.history) ∧
    ¬ Always (trafficStep ipq807x) CtxOrdered ipq807xProbed takenOpen := by
  have hrun : (run (trafficStep ipq807x) ipq807xProbed takenOpen).map (fun t =>
      (decide (DpEvent.call 1 .edma (.global 0) .init true ∈ t.history),
        decide (DpEvent.call 1 .edma (.overlay 0 ⟨some 1⟩) .deinit true ∈ t.history))) =
      some (true, true) := by
    decide +kernel
  obtain ⟨t, ht, heq⟩ := Option.map_eq_some_iff.mp hrun
  simp only [Prod.mk.injEq, decide_eq_true_eq] at heq
  exact ⟨ipq807x_probed, ⟨t, ht, heq⟩, by decide +kernel⟩

end NssDp
