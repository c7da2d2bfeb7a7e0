import NssDp.Edma.Proofs.Accesses

/-!
# What the callbacks of EDMA change

The parts of the instance that are shared by the ports: the count of open ports, NAPI, the
count of overrides and whether the instance is initialised.
-/

namespace NssDp.Edma

variable {soc : Soc} {virtToPhys : Nat → BitVec 32} {e : EdmaHw}

/-- `edma_if_init` on a port that can be registered. -/
structure IfInitEffect (e : EdmaHw) (macid : Nat) (env : IrqEnv) (ret : NssDpRet) (e' : EdmaHw) :
    Prop where
  active : e'.active = e.active
  dpOverrideCnt : e'.dpOverrideCnt = e.dpOverrideCnt
  edmaInitialized : e'.edmaInitialized = e.edmaInitialized
  napi : e'.napi = if e.napiAdded then e.napi else .disabled
  netdevArr : e'.netdevArr = (e.setNetdev macid).netdevArr
  ret : ret = .success ↔ e.napiAdded = true ∨ IrqsGranted e env

theorem edmaIfInit_effect {netdev : NetDevice} {env : IrqEnv}
    (hvalid : GmacValid soc netdev.macid) :
    IfInitEffect e netdev.macid env (edmaIfInit soc e netdev env).1
      (edmaIfInit soc e netdev env).2.1 := by
  cases hadded : e.napiAdded with
  | true =>
    obtain ⟨hret, heq⟩ := @edmaIfInit_added _ env _ _ hvalid hadded
    rw [hret, heq]
    exact ⟨rfl, rfl, rfl, by rw [hadded]; rfl, rfl, by simp [hadded]⟩
  | false =>
    have hnapi {n : NapiState} : (if e.napiAdded then n else .disabled) = NapiState.disabled := by
      simp [hadded]
    by_cases hgranted : IrqsGranted e env
    · obtain ⟨hret, heq⟩ := edmaIfInit_granted hvalid hadded hgranted
      obtain ⟨l, hwork, -⟩ := setIrqMasks_ringWork
        ((edmaIrqGet (e.setNetdev netdev.macid).netifNapiAdd env).touch
          ((edmaIrqGet (e.setNetdev netdev.macid).netifNapiAdd env).irqs.map .requestIrq))
      have hdevice := hwork.device
      rw [hret, heq]
      refine ⟨?_, ?_, ?_, ?_, ?_, iff_of_true rfl (Or.inr hgranted)⟩
      · have hactive := congrArg EdmaHw.active hdevice
        exact hactive
      · have hcnt := congrArg EdmaHw.dpOverrideCnt hdevice
        exact hcnt
      · have hinit := congrArg EdmaHw.edmaInitialized hdevice
        exact hinit
      · have hdisabled := congrArg EdmaHw.napi hdevice
        rw [hnapi]
        exact hdisabled
      · have harr := congrArg EdmaHw.netdevArr hdevice
        exact harr
    · obtain ⟨hret, l, heq, -⟩ := edmaIfInit_refused hvalid hadded hgranted
      rw [hret, heq]
      exact ⟨rfl, rfl, rfl, hnapi.symm, rfl,
        iff_of_false (by simp) (not_or.mpr ⟨by simp [hadded], hgranted⟩)⟩

theorem edmaIfInit_initialized {netdev : NetDevice} {env : IrqEnv} :
    (edmaIfInit soc e netdev env).2.1.edmaInitialized = e.edmaInitialized := by
  by_cases hvalid : GmacValid soc netdev.macid
  · exact (edmaIfInit_effect hvalid).edmaInitialized
  · rw [edmaIfInit_rejected hvalid]

theorem edmaIfInit_dpOverrideCnt {netdev : NetDevice} {env : IrqEnv} :
    (edmaIfInit soc e netdev env).2.1.dpOverrideCnt = e.dpOverrideCnt := by
  by_cases hvalid : GmacValid soc netdev.macid
  · exact (edmaIfInit_effect hvalid).dpOverrideCnt
  · rw [edmaIfInit_rejected hvalid]

/-- A port that has been registered is found again. -/
theorem edmaGetPortNumFromNetdev_of_setNetdev {e' : EdmaHw} {p : Nat}
    (hp : 1 ≤ p ∧ p ≤ soc.maxPorts) (h : e'.netdevArr = (e.setNetdev p).netdevArr) :
    (edmaGetPortNumFromNetdev soc e' (some p)).isSome = true := by
  have hentry : e'.netdevArr (p - 1) = some p := by
    rw [h]
    exact Function.update_self _ _ _
  have hfind : ((List.range soc.maxPorts).find? fun i => e'.netdevArr i = some p).isSome = true :=
    List.find?_isSome.mpr ⟨p - 1, List.mem_range.mpr (by omega), by simpa using hentry⟩
  rw [edmaGetPortNumFromNetdev, Option.isSome_map, hfind]

/-- `edma_if_init` changes nothing of the net device but the headroom it asks for. -/
theorem edmaIfInit_netdev (netdev : NetDevice) (env : IrqEnv) :
    (edmaIfInit soc e netdev env).2.2 = { netdev with
      neededHeadroom := (edmaIfInit soc e netdev env).2.2.neededHeadroom } := by
  unfold edmaIfInit
  dsimp only
  split <;> rfl

/-- It asks for more of it on every success. -/
theorem edmaIfInit_headroom (netdev : NetDevice) (env : IrqEnv) :
    (edmaIfInit soc e netdev env).2.2.neededHeadroom =
      if (edmaIfInit soc e netdev env).1 = .success then
        Word.u16 (netdev.neededHeadroom + edmaTxPrehdrSize)
      else netdev.neededHeadroom := by
  unfold edmaIfInit
  dsimp only
  split
  · rfl
  · rfl

/-- Transmission at most stops the queue of the net device, and counts a drop. -/
theorem edmaIfXmit_netdev {netdev : NetDevice} {skb : SkBuff} {env : XmitEnv} {r : IfXmit}
    (h : edmaIfXmit e netdev skb env = .ok r) :
    ∃ stopped dropped, r.netdev = { netdev with
      queueStopped := stopped
      txDropped := dropped } ∧ (netdev.queueStopped = true → stopped = true) := by
  unfold edmaIfXmit at h
  split at h
  · cases h
    exact ⟨_, _, rfl, id⟩
  split at h
  · cases h
  split at h
  · cases h
    exact ⟨_, _, rfl, id⟩
  · cases h
    exact ⟨_, _, rfl, fun _ => rfl⟩
  · cases h
    exact ⟨_, _, rfl, id⟩

theorem edmaIfOpen_effect {dpc : NssDpDataPlaneCtx} {r : NssDpRet × EdmaHw}
    (hdev : dpc.dev ≠ none) (h : edmaIfOpen e dpc = some r) :
    r = (.success, { e with
      active := e.active + 1
      napi := if e.active = 0 then .idle else e.napi }) := by
  rw [edmaIfOpen, if_neg hdev] at h
  dsimp only at h
  split at h
  · rename_i hactive
    cases h
    rw [if_neg hactive]
  · rename_i hactive
    rw [not_not] at hactive
    obtain ⟨napi, hnapi, rfl⟩ := Option.map_eq_some_iff.mp h
    rw [if_pos hactive]
    cases hold : e.napi <;> rw [hold] at hnapi <;> cases hnapi
    rfl

theorem edmaIfOpen_initialized {dpc : NssDpDataPlaneCtx} {r : NssDpRet × EdmaHw}
    (h : edmaIfOpen e dpc = some r) : r.2.edmaInitialized = e.edmaInitialized := by
  by_cases hdev : dpc.dev = none
  · rw [edmaIfOpen, if_pos hdev] at h
    cases h
    rfl
  · rw [edmaIfOpen_effect hdev h]

theorem edmaIfOpen_dpOverrideCnt {dpc : NssDpDataPlaneCtx} {r : NssDpRet × EdmaHw}
    (h : edmaIfOpen e dpc = some r) : r.2.dpOverrideCnt = e.dpOverrideCnt := by
  by_cases hdev : dpc.dev = none
  · rw [edmaIfOpen, if_pos hdev] at h
    cases h
    rfl
  · rw [edmaIfOpen_effect hdev h]

theorem edmaIfOpen_netdevArr {dpc : NssDpDataPlaneCtx} {r : NssDpRet × EdmaHw}
    (h : edmaIfOpen e dpc = some r) : r.2.netdevArr = e.netdevArr := by
  by_cases hdev : dpc.dev = none
  · rw [edmaIfOpen, if_pos hdev] at h
    cases h
    rfl
  · rw [edmaIfOpen_effect hdev h]

/-- What `edma_if_close` does, given that it returns. -/
structure IfCloseEffect (e e' : EdmaHw) : Prop where
  active : e'.active = e.active - 1
  napi : e'.napi = if e.active = 1 then .disabled else e.napi
  dpOverrideCnt : e'.dpOverrideCnt = e.dpOverrideCnt
  edmaInitialized : e'.edmaInitialized = e.edmaInitialized

theorem edmaNapiFinish_device (e : EdmaHw) (workDone budget : Nat) :
    { edmaNapiFinish e workDone budget with napi := .disabled }.device =
      { e with napi := .disabled }.device := by
  unfold edmaNapiFinish
  split
  · obtain ⟨l, hwork⟩ := enableRingIrqs_ringWork { e with napi := e.napi.complete }
    exact congrArg (fun e : EdmaHw => { e with napi := .disabled }) hwork.device
  · rfl

theorem edmaIfClose_effect {workDone : Nat} {r : NssDpRet × EdmaHw}
    (h : edmaIfClose e workDone = some r) : r.1 = .success ∧ IfCloseEffect e r.2 := by
  rw [edmaIfClose] at h
  dsimp only at h
  split at h
  · rename_i hactive
    cases h
    exact ⟨rfl, rfl, by rw [if_neg (by omega)], rfl, rfl⟩
  · rename_i hactive
    obtain ⟨e', he', rfl⟩ := Option.map_eq_some_iff.mp h
    have hone : e.active = 1 := by omega
    refine ⟨rfl, ?_⟩
    cases hnapi : e.napi with
    | disabled =>
      simp only [edmaNapiDisable, hnapi] at he'
      cases he'
    | idle =>
      simp only [edmaNapiDisable, hnapi] at he'
      cases he'
      exact ⟨rfl, by rw [if_pos hone], rfl, rfl⟩
    | scheduled =>
      simp only [edmaNapiDisable, hnapi, Option.some.injEq] at he'
      have hdevice := edmaNapiFinish_device { e with active := e.active - 1 } workDone edmaNapiWork
      rw [hnapi, he'] at hdevice
      refine ⟨?_, ?_, ?_, ?_⟩
      · have hactive := congrArg EdmaHw.active hdevice
        exact hactive
      · have hdisabled := congrArg EdmaHw.napi hdevice
        rw [if_pos hone]
        exact hdisabled
      · have hcnt := congrArg EdmaHw.dpOverrideCnt hdevice
        exact hcnt
      · have hinit := congrArg EdmaHw.edmaInitialized hdevice
        exact hinit

/-- A poll that is waited for leaves the table of net devices alone. -/
theorem edmaNapiDisable_netdevArr {workDone : Nat} {e' : EdmaHw}
    (h : edmaNapiDisable e workDone = some e') : e'.netdevArr = e.netdevArr := by
  cases hnapi : e.napi with
  | disabled =>
    simp only [edmaNapiDisable, hnapi] at h
    cases h
  | idle =>
    simp only [edmaNapiDisable, hnapi] at h
    cases h
    rfl
  | scheduled =>
    simp only [edmaNapiDisable, hnapi, Option.some.injEq] at h
    have hdevice := edmaNapiFinish_device e workDone edmaNapiWork
    rw [h] at hdevice
    have harr := congrArg EdmaHw.netdevArr hdevice
    exact harr

theorem edmaIfClose_netdevArr {workDone : Nat} {r : NssDpRet × EdmaHw}
    (h : edmaIfClose e workDone = some r) : r.2.netdevArr = e.netdevArr := by
  rw [edmaIfClose] at h
  dsimp only at h
  split at h
  · cases h
    rfl
  · obtain ⟨e', he', rfl⟩ := Option.map_eq_some_iff.mp h
    exact edmaNapiDisable_netdevArr (e := { e with active := e.active - 1 }) he'

/-- What `edma_if_deinit` does, given that it returns: the last call of all is the teardown. -/
structure IfDeinitEffect (soc : Soc) (e e' : EdmaHw) : Prop where
  active : e'.active = e.active
  napi : e'.napi = e.napi
  dpOverrideCnt : e'.dpOverrideCnt =
    if e.dpOverrideCnt = soc.maxPorts - 1 then e.dpOverrideCnt else Word.u32 (e.dpOverrideCnt + 1)
  edmaInitialized : e'.edmaInitialized =
    if e.dpOverrideCnt = soc.maxPorts - 1 then false else e.edmaInitialized

theorem edmaIfDeinit_effect {r : NssDpRet × EdmaHw} (h : edmaIfDeinit soc virtToPhys e = some r) :
    r.1 = .success ∧ IfDeinitEffect soc e r.2 := by
  rw [edmaIfDeinit] at h
  split at h
  · rename_i hlast
    obtain ⟨c, hc, rfl⟩ := Option.map_eq_some_iff.mp h
    refine ⟨rfl, ?_⟩
    cases hinit : e.edmaInitialized with
    | true =>
      obtain ⟨hdevice, -⟩ := edmaCleanup_initialized hinit hc
      refine ⟨?_, ?_, ?_, ?_⟩
      · have hactive := congrArg EdmaHw.active hdevice
        exact hactive
      · have hnapi := congrArg EdmaHw.napi hdevice
        exact hnapi
      · have hcnt := congrArg EdmaHw.dpOverrideCnt hdevice
        rw [if_pos hlast]
        exact hcnt
      · have hoff := congrArg EdmaHw.edmaInitialized hdevice
        rw [if_pos hlast]
        exact hoff
    | false =>
      rw [edmaCleanup, if_neg (by simp [hinit])] at hc
      cases hc
      refine ⟨rfl, rfl, ?_, ?_⟩
      · rw [if_pos hlast]
        rfl
      · rw [if_pos hlast]
        exact hinit
  · rename_i hmore
    cases h
    exact ⟨rfl, rfl, rfl, by rw [if_neg hmore], by rw [if_neg hmore]⟩

/-- `edma_if_deinit` leaves the port in the table of net devices. -/
theorem edmaIfDeinit_netdevArr {r : NssDpRet × EdmaHw}
    (h : edmaIfDeinit soc virtToPhys e = some r) : r.2.netdevArr = e.netdevArr := by
  rw [edmaIfDeinit] at h
  split at h
  · obtain ⟨c, hc, rfl⟩ := Option.map_eq_some_iff.mp h
    cases hinit : e.edmaInitialized with
    | true =>
      obtain ⟨hdevice, -⟩ := edmaCleanup_initialized hinit hc
      have harr := congrArg EdmaHw.netdevArr hdevice
      exact harr
    | false =>
      rw [edmaCleanup, if_neg (by simp [hinit])] at hc
      cases hc
      rfl
  · cases h
    rfl

end NssDp.Edma
