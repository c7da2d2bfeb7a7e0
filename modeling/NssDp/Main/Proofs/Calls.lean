import NssDp.Misc.Except
import NssDp.Edma.Proofs.Callbacks
import NssDp.Edma.Proofs.NapiHandshake
import NssDp.Main.Attach

/-!
# Calls of callbacks

Most callbacks are quiet, they leave alone whether a port is up, initialised or opened. Which
callbacks succeed is known beforehand (`Driver.answer`).
-/

namespace NssDp

open Edma

/-- What the bookkeeping of a port depends on. -/
structure PortLife where
  up : Bool
  initDone : Bool
  dpc : DpcPtr
  dataPlaneOps : DataPlaneOps
  macid : Nat
  queueStopped : Bool
  running : Bool
  linkPoll : Bool

def NssDpDev.life (d : NssDpDev) : PortLife :=
  ⟨d.up, d.initDone, d.dpc, d.dataPlaneOps, d.netdev.macid, d.netdev.queueStopped,
    d.netdev.running, d.linkPoll⟩

section OfLife

variable {d d' : NssDpDev} (h : d'.life = d.life)
include h

theorem up_of_life : d'.up = d.up := by
  have hlife := congrArg PortLife.up h
  exact hlife

theorem initDone_of_life : d'.initDone = d.initDone := by
  have hlife := congrArg PortLife.initDone h
  exact hlife

theorem dpc_of_life : d'.dpc = d.dpc := by
  have hlife := congrArg PortLife.dpc h
  exact hlife

theorem dataPlaneOps_of_life : d'.dataPlaneOps = d.dataPlaneOps := by
  have hlife := congrArg PortLife.dataPlaneOps h
  exact hlife

theorem macid_of_life : d'.netdev.macid = d.netdev.macid := by
  have hlife := congrArg PortLife.macid h
  exact hlife

theorem queueStopped_of_life : d'.netdev.queueStopped = d.netdev.queueStopped := by
  have hlife := congrArg PortLife.queueStopped h
  exact hlife

theorem running_of_life : d'.netdev.running = d.netdev.running := by
  have hlife := congrArg PortLife.running h
  exact hlife

theorem linkPoll_of_life : d'.linkPoll = d.linkPoll := by
  have hlife := congrArg PortLife.linkPoll h
  exact hlife

end OfLife

/-- A callback that begins or ends nothing. -/
def DpCallback.isQuiet : DpCallback → Bool
  | .init | .open | .close | .xmit | .deinit => false
  | _ => true

def DpEvent.isQuiet : DpEvent → Bool
  | .call _ _ _ cb _ => cb.isQuiet
  | _ => false

/-- Only quiet callbacks have been called from `s` to `s'`. -/
structure Quiet (s s' : Driver) : Prop where
  life : ∀ q, (s'.dev q).life = (s.dev q).life
  ctx : s'.dpGlobalDataPlaneCtx = s.dpGlobalDataPlaneCtx
  commonInitDone : s'.commonInitDone = s.commonInitDone
  edmaHw : s'.edmaHw = s.edmaHw
  history : ∃ es, s'.history = s.history ++ es ∧ ∀ e ∈ es, e.isQuiet = true

section Modify

variable {s : Driver} {p : Nat} {f : NssDpDev → NssDpDev}

theorem modify_dev (q : Nat) : (s.modify p f).dev q = if q = p then f (s.dev p) else s.dev q :=
  Function.update_apply _ _ _ _

@[simp] theorem modify_dev_self : (s.modify p f).dev p = f (s.dev p) := by
  rw [modify_dev, if_pos rfl]

theorem modify_dev_of_ne {q : Nat} (h : q ≠ p) : (s.modify p f).dev q = s.dev q := by
  rw [modify_dev, if_neg h]

theorem modify_life (hf : (f (s.dev p)).life = (s.dev p).life) (q : Nat) :
    ((s.modify p f).dev q).life = (s.dev q).life := by
  rw [modify_dev]
  split
  · rename_i h
    rw [h, hf]
  · rfl

@[simp] theorem modify_edmaHw : (s.modify p f).edmaHw = s.edmaHw := rfl

@[simp] theorem modify_history : (s.modify p f).history = s.history := rfl

end Modify

namespace Quiet

variable {s s' s'' : Driver} {p : Nat}

theorem refl (s : Driver) : Quiet s s :=
  ⟨fun _ => rfl, rfl, rfl, rfl, [], (List.append_nil _).symm, by simp⟩

theorem trans (h : Quiet s s') (h' : Quiet s' s'') : Quiet s s'' := by
  refine ⟨fun q => (h'.life q).trans (h.life q), h'.ctx.trans h.ctx,
    h'.commonInitDone.trans h.commonInitDone, h'.edmaHw.trans h.edmaHw, ?_⟩
  obtain ⟨es, hes, hquiet⟩ := h.history
  obtain ⟨es', hes', hquiet'⟩ := h'.history
  refine ⟨es ++ es', by rw [hes', hes, List.append_assoc], fun e he => ?_⟩
  rcases List.mem_append.mp he with he | he
  · exact hquiet e he
  · exact hquiet' e he

theorem modify {f : NssDpDev → NssDpDev} (hf : ∀ d, (f d).life = d.life) :
    Quiet s (s.modify p f) :=
  ⟨modify_life (hf _), rfl, rfl, rfl, [], (List.append_nil _).symm, by simp⟩

theorem modifyNetdev {f : NetDevice → NetDevice} (hmacid : ∀ n, (f n).macid = n.macid)
    (hqueue : ∀ n, (f n).queueStopped = n.queueStopped)
    (hrunning : ∀ n, (f n).running = n.running) :
    Quiet s (s.modifyNetdev p f) := by
  apply modify
  intro d
  simp only [NssDpDev.life, hmacid, hqueue, hrunning]

theorem setCarrier (b : Bool) : Quiet s (s.setCarrier p b) :=
  modifyNetdev (fun _ => rfl) (fun _ => rfl) fun _ => rfl

theorem setLinkState (l : NssDpLinkState) : Quiet s (s.setLinkState p l) := modify fun _ => rfl

theorem record {e : DpEvent} (he : e.isQuiet = true) : Quiet s (s.record e) :=
  ⟨fun _ => rfl, rfl, rfl, rfl, [e], rfl, fun a ha => by rwa [List.mem_singleton.mp ha]⟩

/-- What changes the life of a port in one way does not depend on the rest. -/
theorem congr_modify {f : NssDpDev → NssDpDev} {g : PortLife → PortLife}
    (hf : ∀ d, (f d).life = g d.life) (h : Quiet s s') :
    Quiet (s.modify p f) (s'.modify p f) := by
  refine ⟨fun q => ?_, h.ctx, h.commonInitDone, h.edmaHw, h.history⟩
  rw [modify_dev, modify_dev]
  split
  · rw [hf, hf, h.life]
  · exact h.life q

theorem congr_setUp (h : Quiet s s') (b : Bool) : Quiet (s.setUp p b) (s'.setUp p b) :=
  h.congr_modify (g := fun l => { l with up := b }) fun _ => rfl

theorem up (h : Quiet s s') (q : Nat) : (s'.dev q).up = (s.dev q).up := up_of_life (h.life q)

theorem initDone (h : Quiet s s') (q : Nat) : (s'.dev q).initDone = (s.dev q).initDone :=
  initDone_of_life (h.life q)

theorem dataPlaneOps (h : Quiet s s') (q : Nat) :
    (s'.dev q).dataPlaneOps = (s.dev q).dataPlaneOps := dataPlaneOps_of_life (h.life q)

theorem linkPoll (h : Quiet s s') (q : Nat) : (s'.dev q).linkPoll = (s.dev q).linkPoll :=
  linkPoll_of_life (h.life q)

end Quiet

/-- A callback has been called and has answered `ok`. -/
structure Called (plat : Platform) (s : Driver) (p : Nat) (dpc : DpcPtr) (cb : DpCallback)
    (ok : Bool) (s' : Driver) : Prop where
  life : ∀ q, (s'.dev q).life = (s.dev q).life
  ctx : s'.dpGlobalDataPlaneCtx = s.dpGlobalDataPlaneCtx
  commonInitDone : s'.commonInitDone = s.commonInitDone
  edmaHw : (s.dev p).dataPlaneOps ≠ .edma → s'.edmaHw = s.edmaHw
  history : s'.history =
    s.history ++ s.freedBy plat (some p) s'.edmaHw ++ [.call p (s.dev p).dataPlaneOps dpc cb ok]

section Callback

variable {plat : Platform} {s s' : Driver} {p : Nat} {dpc : DpcPtr} {env : CallEnv}
  {cb : DpCallback} {ok : Bool}

theorem freedBy_of_eq {port : Option Nat} {e : EdmaHw}
    (h : e.edmaInitialized = s.edmaHw.edmaInitialized) : s.freedBy plat port e = [] := by
  rw [Driver.freedBy, h]
  cases s.edmaHw.edmaInitialized <;> rfl

@[simp] theorem returned_eq_ok {α : Type} {x : Option α} {a : α} :
    returned x = .ok a ↔ x = some a := by
  cases x <;> simp [returned]

/-- A callback that returns is not NULL. -/
theorem callback_eq_ok (h : s.callback plat p dpc env cb = .ok (ok, s')) :
    cb ∉ (s.dev p).dataPlaneOps.missing ∧ ∃ r, (match (s.dev p).dataPlaneOps with
      | .edma => (nssDpEdmaOps plat s p (s.ctx dpc) env cb).map fun r =>
          (decide (r.1 = .success), r.2)
      | .synGmac | .overlay .. => some (env.ok cb, otherDataPlane s p env cb)) = some r ∧
      ok = r.1 ∧ s' = r.2.record (.call p (s.dev p).dataPlaneOps dpc cb ok) := by
  unfold Driver.callback at h
  dsimp only at h
  split at h
  · cases h
  · rename_i hmissing
    obtain ⟨r, hr, heq⟩ := Except.map_eq_ok_iff.mp h
    cases heq
    exact ⟨hmissing, r, returned_eq_ok.mp hr, rfl, rfl⟩

theorem callback_edma (hops : (s.dev p).dataPlaneOps = .edma)
    (h : s.callback plat p dpc env cb = .ok (ok, s')) :
    ∃ r, nssDpEdmaOps plat s p (s.ctx dpc) env cb = some r ∧ ok = decide (r.1 = .success) ∧
      s' = r.2.record (.call p .edma dpc cb ok) := by
  obtain ⟨-, r, hr, rfl, rfl⟩ := callback_eq_ok h
  simp only [hops] at hr ⊢
  obtain ⟨r', hr', rfl⟩ := Option.map_eq_some_iff.mp hr
  exact ⟨r', hr', rfl, rfl⟩

theorem callback_other (hops : (s.dev p).dataPlaneOps ≠ .edma)
    (h : s.callback plat p dpc env cb = .ok (ok, s')) :
    ok = env.ok cb ∧
      s' = (otherDataPlane s p env cb).record (.call p (s.dev p).dataPlaneOps dpc cb ok) := by
  obtain ⟨-, r, hr, rfl, rfl⟩ := callback_eq_ok h
  split at hr
  · rename_i hedma
    exact absurd hedma hops
  · cases hr
    exact ⟨rfl, rfl⟩
  · cases hr
    exact ⟨rfl, rfl⟩

/-- A data plane other than EDMA changes nothing but the features of the port. -/
theorem otherDataPlane_quiet : Quiet s (otherDataPlane s p env cb) := by
  unfold otherDataPlane
  split
  · exact Quiet.modify fun _ => rfl
  · exact Quiet.refl s

theorem otherDataPlane_history : (otherDataPlane s p env cb).history = s.history := by
  unfold otherDataPlane
  split <;> rfl

@[simp] theorem record_edmaHw (e : DpEvent) : (s.record e).edmaHw = s.edmaHw := rfl

/-- A call of EDMA that changes no more than the instance. -/
theorem called_of_edmaHw {e : EdmaHw} (hops : (s.dev p).dataPlaneOps = .edma)
    (hinit : e.edmaInitialized = s.edmaHw.edmaInitialized) :
    Called plat s p dpc cb ok ({ s with edmaHw := e }.record (.call p .edma dpc cb ok)) := by
  refine ⟨fun _ => rfl, rfl, rfl, fun h => absurd hops h, ?_⟩
  rw [record_edmaHw, freedBy_of_eq hinit, List.append_nil, hops]
  rfl

theorem callback_called (h : s.callback plat p dpc env cb = .ok (ok, s')) :
    Called plat s p dpc cb ok s' := by
  by_cases hops : (s.dev p).dataPlaneOps = .edma
  · obtain ⟨r, hr, hok, rfl⟩ := callback_edma hops h
    cases cb with
    | init =>
      obtain ⟨q, -, rfl⟩ := Option.map_eq_some_iff.mp hr
      have hinit := @edmaIfInit_initialized plat.soc s.edmaHw (s.dev q).netdev env.irq
      have hlife := modify_life (s := s) (p := q) (f := fun d => { d with netdev := (edmaIfInit
        plat.soc s.edmaHw (s.dev q).netdev env.irq).2.2 }) (by rw [edmaIfInit_netdev]; rfl)
      refine ⟨hlife, rfl, rfl, fun h => absurd hops h, ?_⟩
      rw [record_edmaHw, freedBy_of_eq hinit, List.append_nil, hops]
      rfl
    | «open» =>
      obtain ⟨e, he, rfl⟩ := Option.map_eq_some_iff.mp hr
      exact called_of_edmaHw hops (edmaIfOpen_initialized he)
    | close =>
      obtain ⟨e, he, rfl⟩ := Option.map_eq_some_iff.mp hr
      exact called_of_edmaHw hops (edmaIfClose_effect he).2.edmaInitialized
    | deinit =>
      obtain ⟨e, he, rfl⟩ := Option.map_eq_some_iff.mp hr
      exact ⟨fun _ => rfl, rfl, rfl, fun h => absurd hops h, by rw [hops]; rfl⟩
    | xmit => cases hr
    | getStats => cases hr
    | _ =>
      cases hr
      exact called_of_edmaHw hops rfl
  · obtain ⟨-, rfl⟩ := callback_other hops h
    have hquiet : Quiet s (otherDataPlane s p env cb) := otherDataPlane_quiet
    refine ⟨hquiet.life, hquiet.ctx, hquiet.commonInitDone, fun _ => hquiet.edmaHw, ?_⟩
    rw [record_edmaHw, freedBy_of_eq (congrArg EdmaHw.edmaInitialized hquiet.edmaHw),
      List.append_nil]
    exact congrArg (· ++ _) otherDataPlane_history

end Callback

/-- Which bits `__NSS_DP_UP` are set, and which bits `INIT_DONE`. -/
def Driver.ups (s : Driver) : Nat → Bool := fun p => (s.dev p).up

def Driver.inits (s : Driver) : Nat → Bool := fun p => (s.dev p).initDone

section Bits

variable {plat : Platform} {s s' : Driver} {p : Nat} {dpc : DpcPtr} {cb : DpCallback} {ok : Bool}
  {f : NssDpDev → NssDpDev}

theorem Quiet.ups (h : Quiet s s') : s'.ups = s.ups := funext h.up

theorem Quiet.inits (h : Quiet s s') : s'.inits = s.inits := funext h.initDone

theorem Called.ups (h : Called plat s p dpc cb ok s') : s'.ups = s.ups :=
  funext fun q => up_of_life (h.life q)

theorem Called.inits (h : Called plat s p dpc cb ok s') : s'.inits = s.inits :=
  funext fun q => initDone_of_life (h.life q)

theorem setUp_ups (b : Bool) : (s.setUp p b).ups = Function.update s.ups p b := by
  funext q
  rw [Driver.ups, Driver.setUp, modify_dev, Function.update_apply]
  split <;> rfl

theorem setInitDone_inits (b : Bool) :
    (s.setInitDone p b).inits = Function.update s.inits p b := by
  funext q
  rw [Driver.inits, Driver.setInitDone, modify_dev, Function.update_apply]
  split <;> rfl

theorem modify_ups (hf : (f (s.dev p)).up = (s.dev p).up) : (s.modify p f).ups = s.ups := by
  funext q
  rw [Driver.ups, modify_dev]
  split
  · rename_i h
    rw [hf, h, Driver.ups]
  · rfl

theorem modify_inits (hf : (f (s.dev p)).initDone = (s.dev p).initDone) :
    (s.modify p f).inits = s.inits := by
  funext q
  rw [Driver.inits, modify_dev]
  split
  · rename_i h
    rw [hf, h, Driver.inits]
  · rfl

theorem setQueueStopped_ups (b : Bool) : (s.setQueueStopped p b).ups = s.ups :=
  modify_ups (f := fun d => { d with netdev := { d.netdev with queueStopped := b } }) rfl

theorem setQueueStopped_inits (b : Bool) : (s.setQueueStopped p b).inits = s.inits :=
  modify_inits (f := fun d => { d with netdev := { d.netdev with queueStopped := b } }) rfl

theorem setRunning_ups (b : Bool) : (s.setRunning p b).ups = s.ups :=
  modify_ups (f := fun d => { d with netdev := { d.netdev with running := b } }) rfl

theorem setRunning_inits (b : Bool) : (s.setRunning p b).inits = s.inits :=
  modify_inits (f := fun d => { d with netdev := { d.netdev with running := b } }) rfl

/-- An installed data plane is written down beside the one it replaces. -/
theorem install_history {ops : DataPlaneOps} : (s.install p dpc ops).history =
    s.history ++ [.install p (s.dev p).dataPlaneOps ops dpc] := rfl

theorem install_ups {ops : DataPlaneOps} : (s.install p dpc ops).ups = s.ups :=
  modify_ups (f := fun d => { d with
    dpc
    dataPlaneOps := ops }) rfl

theorem install_inits {ops : DataPlaneOps} : (s.install p dpc ops).inits = s.inits :=
  modify_inits (f := fun d => { d with
    dpc
    dataPlaneOps := ops }) rfl

end Bits

/-- EDMA is the data plane of a port only with the port's own context. -/
structure Wf (plat : Platform) (s : Driver) : Prop where
  macid : ∀ p, (s.dev p).netdev.macid = p
  ctx : ∀ p ∈ plat.ports, s.dpGlobalDataPlaneCtx (p - 1) = ⟨some p⟩
  edma : ∀ p, (s.dev p).dataPlaneOps = .edma → (s.dev p).dpc = .global (p - 1)

/-- Which callbacks of EDMA succeed on a port. Initialising EDMA enters the port in its table of
    net devices. -/
def Driver.edmaAnswer (plat : Platform) (s : Driver) (p : Nat) (env : CallEnv) :
    DpCallback → Bool
  | .init => s.edmaHw.napiAdded || decide (IrqsGranted s.edmaHw env.irq)
  | .vsiAssign =>
    (!(s.dev p).initDone || (edmaGetPortNumFromNetdev plat.soc s.edmaHw (some p)).isSome) && env.fal
  | .vsiUnassign => env.fal
  | _ => true

/-- Which callbacks of the data plane of a port succeed. -/
def Driver.answer (plat : Platform) (s : Driver) (p : Nat) (env : CallEnv) (cb : DpCallback) :
    Bool :=
  if (s.dev p).dataPlaneOps = .edma then s.edmaAnswer plat p env cb else env.ok cb

section Answer

variable {plat : Platform} {s s' : Driver} {p : Nat} {dpc : DpcPtr} {env : CallEnv}
  {cb : DpCallback} {ok : Bool}

theorem Wf.of_life (hwf : Wf plat s) (hlife : ∀ q, (s'.dev q).life = (s.dev q).life)
    (hctx : s'.dpGlobalDataPlaneCtx = s.dpGlobalDataPlaneCtx) : Wf plat s' := by
  refine ⟨fun q => (macid_of_life (hlife q)).trans (hwf.macid q),
    fun q hq => by rw [hctx, hwf.ctx q hq], fun q hops => ?_⟩
  rw [dpc_of_life (hlife q)]
  exact hwf.edma q ((dataPlaneOps_of_life (hlife q)).symm.trans hops)

theorem Probed.wf (h : Probed plat s) : Wf plat s := ⟨h.macid, h.ctx, fun p _ => h.dpc p⟩

theorem Quiet.wf (h : Quiet s s') (hwf : Wf plat s) : Wf plat s' := hwf.of_life h.life h.ctx

theorem Called.wf (h : Called plat s p dpc cb ok s') (hwf : Wf plat s) : Wf plat s' :=
  hwf.of_life h.life h.ctx

/-- The context EDMA is given points to the port's own net device. -/
theorem Wf.dev (hwf : Wf plat s) (hp : p ∈ plat.ports) (hops : (s.dev p).dataPlaneOps = .edma) :
    s.ctx (s.dev p).dpc = ⟨some p⟩ := by
  rw [hwf.edma p hops, Driver.ctx, hwf.ctx p hp]

theorem gmacValid_of_mem (hp : p ∈ plat.ports) : GmacValid plat.soc p := by
  obtain ⟨hlow, hhigh⟩ := Finset.mem_Icc.mp hp
  refine ⟨?_, hhigh⟩
  cases plat.soc <;> simp only [Soc.startIfnum] <;> omega

theorem ownCallback_init_edma (hwf : Wf plat s) (hp : p ∈ plat.ports)
    (hops : (s.dev p).dataPlaneOps = .edma)
    (h : s.ownCallback plat p env .init = .ok (ok, s')) :
    ∃ ret, ok = decide (ret = .success) ∧ IfInitEffect s.edmaHw p env.irq ret s'.edmaHw := by
  obtain ⟨r, hr, hok, rfl⟩ := callback_edma hops h
  simp only [nssDpEdmaOps, hwf.dev hp hops, Option.map_some, Option.some.injEq] at hr
  subst hr
  have hmacid := hwf.macid p
  have hvalid : GmacValid plat.soc (s.dev p).netdev.macid := by
    rw [hmacid]
    exact gmacValid_of_mem hp
  have heffect := @edmaIfInit_effect _ s.edmaHw _ env.irq hvalid
  rw [hmacid] at heffect
  exact ⟨_, hok, heffect⟩

theorem ownCallback_open_edma (hwf : Wf plat s) (hp : p ∈ plat.ports)
    (hops : (s.dev p).dataPlaneOps = .edma)
    (h : s.ownCallback plat p env .open = .ok (ok, s')) :
    ok = true ∧ s'.edmaHw = { s.edmaHw with
      active := s.edmaHw.active + 1
      napi := if s.edmaHw.active = 0 then .idle else s.edmaHw.napi } := by
  obtain ⟨r, hr, hok, rfl⟩ := callback_edma hops h
  obtain ⟨e, he, rfl⟩ := Option.map_eq_some_iff.mp hr
  have heffect := edmaIfOpen_effect (by rw [hwf.dev hp hops]; simp) he
  subst heffect
  exact ⟨hok, rfl⟩

theorem ownCallback_close_edma (hops : (s.dev p).dataPlaneOps = .edma)
    (h : s.ownCallback plat p env .close = .ok (ok, s')) :
    ok = true ∧ IfCloseEffect s.edmaHw s'.edmaHw := by
  obtain ⟨r, hr, hok, rfl⟩ := callback_edma hops h
  obtain ⟨e, he, rfl⟩ := Option.map_eq_some_iff.mp hr
  obtain ⟨hret, heffect⟩ := edmaIfClose_effect he
  rw [hret] at hok
  exact ⟨hok, heffect⟩

theorem callback_deinit_edma (hops : (s.dev p).dataPlaneOps = .edma)
    (h : s.callback plat p dpc env .deinit = .ok (ok, s')) :
    ok = true ∧ IfDeinitEffect plat.soc s.edmaHw s'.edmaHw := by
  obtain ⟨r, hr, hok, rfl⟩ := callback_edma hops h
  obtain ⟨e, he, rfl⟩ := Option.map_eq_some_iff.mp hr
  obtain ⟨hret, heffect⟩ := edmaIfDeinit_effect he
  rw [hret] at hok
  exact ⟨hok, heffect⟩

theorem answer_edma (hops : (s.dev p).dataPlaneOps = .edma) :
    s.answer plat p env cb = s.edmaAnswer plat p env cb := if_pos hops

theorem answer_other (hops : (s.dev p).dataPlaneOps ≠ .edma) :
    s.answer plat p env cb = env.ok cb := if_neg hops

theorem callback_deinit_answer (h : s.callback plat p dpc env .deinit = .ok (ok, s')) :
    ok = s.answer plat p env .deinit := by
  by_cases hops : (s.dev p).dataPlaneOps = .edma
  · rw [(callback_deinit_edma hops h).1, answer_edma hops]
    rfl
  · rw [(callback_other hops h).1, answer_other hops]

theorem ownCallback_answer (hwf : Wf plat s) (hp : p ∈ plat.ports)
    (hdone : cb = .vsiAssign → (s.dev p).initDone = true)
    (h : s.ownCallback plat p env cb = .ok (ok, s')) : ok = s.answer plat p env cb := by
  by_cases hops : (s.dev p).dataPlaneOps = .edma
  · cases cb with
    | init =>
      obtain ⟨ret, hok, heffect⟩ := ownCallback_init_edma hwf hp hops h
      rw [hok, answer_edma hops, Driver.edmaAnswer]
      simp only [heffect.ret, Bool.decide_or, Bool.decide_eq_true]
    | «open» =>
      rw [(ownCallback_open_edma hwf hp hops h).1, answer_edma hops]
      rfl
    | close =>
      rw [(ownCallback_close_edma hops h).1, answer_edma hops]
      rfl
    | deinit => exact callback_deinit_answer h
    | vsiAssign =>
      obtain ⟨r, hr, hok, -⟩ := callback_edma hops h
      cases hr
      rw [hok, answer_edma hops, Driver.edmaAnswer]
      simp only [hwf.dev hp hops, hdone rfl, edmaIfVsiAssign]
      cases edmaGetPortNumFromNetdev plat.soc s.edmaHw (some p) <;> cases env.fal <;> rfl
    | vsiUnassign =>
      obtain ⟨r, hr, hok, -⟩ := callback_edma hops h
      cases hr
      rw [hok, answer_edma hops, Driver.edmaAnswer]
      simp only [edmaIfVsiUnassign]
      cases env.fal <;> rfl
    | xmit | getStats =>
      obtain ⟨r, hr, -⟩ := callback_edma hops h
      cases hr
    | _ =>
      obtain ⟨r, hr, hok, -⟩ := callback_edma hops h
      cases hr
      rw [hok, answer_edma hops]
      rfl
  · rw [(callback_other hops h).1, answer_other hops]

theorem answer_congr (hops : (s'.dev p).dataPlaneOps = (s.dev p).dataPlaneOps)
    (hdone : (s'.dev p).initDone = (s.dev p).initDone) (hedmaHw : s'.edmaHw = s.edmaHw) :
    s'.answer plat p env cb = s.answer plat p env cb := by
  have hedma : s'.edmaAnswer plat p env cb = s.edmaAnswer plat p env cb := by
    cases cb <;> simp only [Driver.edmaAnswer, hedmaHw, hdone]
  rw [Driver.answer, hops, hedma, Driver.answer]

/-- The answer to a change of the link depends on the data plane only. -/
theorem answer_linkState_congr (hops : (s'.dev p).dataPlaneOps = (s.dev p).dataPlaneOps) :
    s'.answer plat p env .linkState = s.answer plat p env .linkState := by
  by_cases hedma : (s.dev p).dataPlaneOps = .edma
  · rw [answer_edma (hops.trans hedma), answer_edma hedma]
    rfl
  · rw [answer_other (by rwa [hops]), answer_other hedma]

/-- Quiet callbacks do not change the answers of the others. -/
theorem Quiet.answer (h : Quiet s s') : s'.answer plat p env cb = s.answer plat p env cb :=
  answer_congr (h.dataPlaneOps p) (h.initDone p) h.edmaHw

end Answer

end NssDp
