import NssDp.Main.Proofs.InitDone

/-!
# When the EDMA rings are freed

`edma_if_deinit` counts its calls, and the call that finds all but one counted frees the rings;
`nss_dp_exit` frees them before the interfaces are stopped. The count is that of the overridden
ports as long as none of them is given back to EDMA.
-/

namespace NssDp

open Edma History Lts

/-- The last data plane put into a port was not EDMA. -/
def isOverridden (p : Nat) (history : List DpEvent) : Bool :=
  latch (fun e => match e with
    | .install q _ new _ => decide (p = q) && decide (new ≠ .edma)
    | _ => false)
  (fun e => match e with
    | .install q _ new _ => decide (p = q) && decide (new = .edma)
    | _ => false) history

/-- The rings are freed while no port is up on EDMA: by the deinitialisation of EDMA on a port only
    when all others have been overridden, and by the exit of the module only when all ports have
    been stopped. -/
def FreedUnused (plat : Platform) (pre : List DpEvent) : DpEvent → Prop
  | .edmaFreed (some p) edmaUp _ =>
    edmaUp = [] ∧ ∀ q ∈ plat.ports, q ≠ p → isOverridden q pre = true
  | .edmaFreed none edmaUp up => edmaUp = [] ∧ up = []
  | _ => True

/-- So it is whenever the rings are freed. -/
def EdmaFreedUnused (plat : Platform) (s : Driver) : Prop := OkFrom (FreedUnused plat) [] s.history

/-- A call that reaches a port, or the exit of the module. -/
inductive ModuleCall where
  | port (c : PortCall)
  | exit (envs : Nat → CallEnv)

/-- The life of the module; nothing follows its exit. -/
def moduleStep (plat : Platform) (s : Driver) (c : ModuleCall) : Option Driver :=
  if s.commonInitDone = false then none
  else
    match c with
    | .port c => portStep plat s c
    | .exit envs => (nssDpExit plat s envs).toOption

/-- EDMA has been deinitialised on the port. -/
def Driver.edmaDeinited (s : Driver) (p : Nat) : Bool := s.history.any (DpEvent.deinits p .edma)

/-- The ports EDMA has been deinitialised on. -/
def Driver.deinitedPorts (plat : Platform) (s : Driver) : Finset Nat :=
  plat.ports.filter fun q => s.edmaDeinited q = true

/-- An override of the port would deinitialise EDMA, which is still there. -/
def Driver.UsesEdma (s : Driver) (p : Nat) : Prop :=
  s.edmaHw.edmaInitialized = true ∧ (s.dev p).dataPlaneOps = .edma ∧ (s.dev p).initDone = true

/-- EDMA is deinitialised on the port for the first time; and if that frees the rings, the port is
    `down`, and none of the others has been given back to EDMA. -/
def Driver.DeinitInOrder (plat : Platform) (s : Driver) (p : Nat) (down : Prop) : Prop :=
  p ∉ s.deinitedPorts plat ∧ (s.edmaHw.dpOverrideCnt = plat.soc.maxPorts - 1 →
    down ∧ ∀ q ∈ s.deinitedPorts plat, (s.dev q).dataPlaneOps ≠ .edma)

/-- Every override that deinitialises EDMA does so in order, where a port that is up has to be
    stopped; and the module does not exit while a port is up, unless the rings are freed. -/
def TeardownInOrder (plat : Platform) (s : Driver) : ModuleCall → Prop
  | .port (.override p _ missing _ env) => ¬ MissesRequired missing → s.UsesEdma p →
    s.DeinitInOrder plat p ((s.dev p).up = false ∨
      (s.reachesClose plat p env && s.answer plat p env .close) = true)
  | .port _ => True
  | .exit _ => s.edmaHw.edmaInitialized = true → s.upPorts plat = []

section Decide

variable (plat : Platform) (s : Driver) (p : Nat)

instance : Decidable (s.UsesEdma p) := inferInstanceAs (Decidable (_ ∧ _ ∧ _))

instance (down : Prop) [Decidable down] : Decidable (s.DeinitInOrder plat p down) :=
  inferInstanceAs (Decidable (_ ∧ (_ → _ ∧ _)))

instance (c : ModuleCall) : Decidable (TeardownInOrder plat s c) :=
  match c with
  | .port (.override p _ missing _ env) =>
    inferInstanceAs (Decidable (¬ (∃ cb ∈ requiredCallbacks, cb ∈ missing) → s.UsesEdma p →
      s.DeinitInOrder plat p ((s.dev p).up = false ∨
        (s.reachesClose plat p env && s.answer plat p env .close) = true)))
  | .port (.devOpen _ _) | .port (.devClose _ _) | .port (.start _ _ _) | .port (.restore _ _) =>
    isTrue trivial
  | .exit _ => inferInstanceAs (Decidable (s.edmaHw.edmaInitialized = true → s.upPorts plat = []))

end Decide

section Kept

/-- EDMA is not deinitialised, no data plane is replaced, and the rings are not freed. -/
def DpEvent.isRoutine : DpEvent → Bool
  | .call _ ops _ .deinit _ => decide (ops ≠ .edma)
  | .call .. => true
  | .install .. | .edmaFreed .. => false

/-- Only routine events have happened from `s` to `s'`. -/
structure Kept (s s' : Driver) : Prop where
  ops : SameOps s s'
  dpOverrideCnt : s'.edmaHw.dpOverrideCnt = s.edmaHw.dpOverrideCnt
  edmaInitialized : s'.edmaHw.edmaInitialized = s.edmaHw.edmaInitialized
  commonInitDone : s'.commonInitDone = s.commonInitDone
  history : ∃ es, s'.history = s.history ++ es ∧ ∀ e ∈ es, e.isRoutine = true

variable {plat : Platform} {s s' s'' m : Driver} {p : Nat} {dpc : DpcPtr} {env : CallEnv}
  {cb : DpCallback} {ok : Bool} {ret : DevRet}

theorem isRoutine_of_isQuiet {e : DpEvent} (he : e.isQuiet = true) : e.isRoutine = true := by
  cases e with
  | call q ops dpc cb ok => cases cb <;> first | rfl | cases he
  | install | edmaFreed => cases he

namespace Kept

theorem refl (s : Driver) : Kept s s :=
  ⟨fun _ => rfl, rfl, rfl, rfl, [], (List.append_nil _).symm, by simp⟩

theorem trans (h : Kept s s') (h' : Kept s' s'') : Kept s s'' := by
  obtain ⟨es, hes, hroutine⟩ := h.history
  obtain ⟨es', hes', hroutine'⟩ := h'.history
  refine ⟨fun q => (h'.ops q).trans (h.ops q), h'.dpOverrideCnt.trans h.dpOverrideCnt,
    h'.edmaInitialized.trans h.edmaInitialized, h'.commonInitDone.trans h.commonInitDone,
    es ++ es', by rw [hes', hes, List.append_assoc], ?_⟩
  intro e he
  rcases List.mem_append.mp he with he | he
  · exact hroutine e he
  · exact hroutine' e he

theorem modify (h : Kept s s') {f : NssDpDev → NssDpDev}
    (hops : ∀ d, (f d).dataPlaneOps = d.dataPlaneOps) : Kept s (s'.modify p f) :=
  h.trans ⟨modify_sameOps (hops _), rfl, rfl, rfl, [], (List.append_nil _).symm, by simp⟩

theorem modifyNetdev (h : Kept s s') (f : NetDevice → NetDevice) :
    Kept s (s'.modifyNetdev p f) := h.modify fun _ => rfl

theorem quiet (h : Kept s s') (hquiet : Quiet s' s'') : Kept s s'' := by
  obtain ⟨es, hes, hquiets⟩ := hquiet.history
  refine h.trans ⟨hquiet.dataPlaneOps, ?_, ?_, hquiet.commonInitDone, es, hes, ?_⟩
  · rw [hquiet.edmaHw]
  · rw [hquiet.edmaHw]
  · exact fun e he => isRoutine_of_isQuiet (hquiets e he)

end Kept

/-- EDMA changes the count of overrides in `deinit` only. -/
theorem callback_dpOverrideCnt (hcb : cb = .deinit → (s.dev p).dataPlaneOps ≠ .edma)
    (h : s.callback plat p dpc env cb = .ok (ok, s')) :
    s'.edmaHw.dpOverrideCnt = s.edmaHw.dpOverrideCnt ∧
      s'.edmaHw.edmaInitialized = s.edmaHw.edmaInitialized := by
  by_cases hops : (s.dev p).dataPlaneOps = .edma
  · obtain ⟨r, hr, -, rfl⟩ := callback_edma hops h
    cases cb with
    | init =>
      obtain ⟨q, -, rfl⟩ := Option.map_eq_some_iff.mp hr
      exact ⟨edmaIfInit_dpOverrideCnt, edmaIfInit_initialized⟩
    | «open» =>
      obtain ⟨e, he, rfl⟩ := Option.map_eq_some_iff.mp hr
      exact ⟨edmaIfOpen_dpOverrideCnt he, edmaIfOpen_initialized he⟩
    | close =>
      obtain ⟨e, he, rfl⟩ := Option.map_eq_some_iff.mp hr
      have heffect := (edmaIfClose_effect he).2
      exact ⟨heffect.dpOverrideCnt, heffect.edmaInitialized⟩
    | deinit => exact absurd hops (hcb rfl)
    | xmit | getStats => cases hr
    | _ =>
      cases hr
      exact ⟨rfl, rfl⟩
  · rw [(callback_called h).edmaHw hops]
    exact ⟨rfl, rfl⟩

/-- A callback that does not deinitialise EDMA. -/
theorem Kept.called (h : Kept s s') (hcb : cb = .deinit → (s'.dev p).dataPlaneOps ≠ .edma)
    (hcall : s'.callback plat p dpc env cb = .ok (ok, s'')) : Kept s s'' := by
  have hcalled := callback_called hcall
  obtain ⟨hcnt, hinit⟩ := callback_dpOverrideCnt hcb hcall
  have hhistory := hcalled.history
  rw [freedBy_of_eq hinit, List.append_nil] at hhistory
  refine h.trans ⟨hcalled.sameOps, hcnt, hinit, hcalled.commonInitDone, _, hhistory, ?_⟩
  intro e he
  rw [List.mem_singleton.mp he]
  cases cb with
  | deinit => exact decide_eq_true (hcb rfl)
  | _ => rfl

theorem CloseRun.kept (hrun : CloseRun plat s p env s') : Kept s s' := by
  have hstop : Kept s (s.setQueueStopped p true) := (Kept.refl s).modifyNetdev _
  cases hrun with
  | aborted _ hquiet => exact hstop.quiet hquiet
  | failed _ _ hquiet hcall =>
    exact (hstop.quiet hquiet).called
      (fun hcb => DpCallback.noConfusion hcb) hcall
  | closed _ _ hquiet hcall =>
    exact ((hstop.quiet hquiet).called (fun hcb => DpCallback.noConfusion hcb) hcall).modify
      fun _ => rfl

theorem InitRun.kept (hrun : InitRun plat s p env m) : Kept s m := by
  cases hrun with
  | done _ hquiet => exact (Kept.refl s).quiet hquiet
  | called _ hquiet hcall =>
    exact (((Kept.refl s).quiet hquiet).called (fun hcb => DpCallback.noConfusion hcb) hcall).modify
      fun _ => rfl

theorem OpenRun.kept (hrun : OpenRun plat s p env ret s') : Kept s s' := by
  have hup {m : Driver} (hinit : InitRun plat s p env m) : Kept s (m.setUp p true) :=
    hinit.kept.modify fun _ => rfl
  cases hrun with
  | initFailed _ hquiet hcall =>
    exact ((Kept.refl s).quiet hquiet).called (fun hcb => DpCallback.noConfusion hcb) hcall
  | aborted _ hinit _ hquiet => exact (hup hinit).quiet hquiet
  | failed _ hinit _ _ hquiet hcall =>
    exact ((hup hinit).quiet hquiet).called (fun hcb => DpCallback.noConfusion hcb) hcall
  | opened _ hinit _ _ hquiet hcall hquiet' =>
    have hopened := ((hup hinit).quiet hquiet).called (fun hcb => DpCallback.noConfusion hcb) hcall
    exact (hopened.modifyNetdev _).quiet hquiet'

theorem StopRun.kept (hrun : StopRun plat s p env s') : Kept s s' := by
  cases hrun with
  | notUp => exact Kept.refl s
  | stopped _ hclose => exact hclose.kept.quiet resetNetdevFeatures_quiet

end Kept

/-- While EDMA is there, its count is that of the ports it was deinitialised on, and the history
    tells which of these are overridden, but for those in `but`. -/
structure BooksBut (plat : Platform) (s : Driver) (but : Finset Nat) : Prop where
  wf : Wf plat s
  ordered : EdmaFreedUnused plat s
  counted : s.edmaHw.edmaInitialized = true →
    s.edmaHw.dpOverrideCnt = (s.deinitedPorts plat).card
  away : s.edmaHw.edmaInitialized = true → ∀ q ∈ s.deinitedPorts plat, q ∉ but →
    isOverridden q s.history = decide ((s.dev q).dataPlaneOps ≠ .edma)

section Books

variable {plat : Platform} {s s' m c : Driver} {p q : Nat} {dpc : DpcPtr} {env : CallEnv}
  {es : List DpEvent} {e : DpEvent}

theorem freedUnused_of_isRoutine {pre : List DpEvent} (he : e.isRoutine = true) :
    FreedUnused plat pre e := by
  cases e with
  | call | install => trivial
  | edmaFreed => cases he

/-- Other events do not change on which ports EDMA was deinitialised. -/
theorem deinitedPorts_append (hhistory : s'.history = s.history ++ es)
    (hes : ∀ e ∈ es, ∀ q, e.deinits q .edma = false) :
    s'.deinitedPorts plat = s.deinitedPorts plat := by
  apply Finset.filter_congr
  intro q _
  have hnone : es.any (DpEvent.deinits q .edma) = false :=
    List.any_eq_false.mpr fun e he => Bool.not_eq_true _ ▸ hes e he q
  rw [Driver.edmaDeinited, hhistory, List.any_append, hnone, Bool.or_false, Driver.edmaDeinited]

/-- The deinitialisation of EDMA on a port adds it to them. -/
theorem deinitedPorts_deinit {ok : Bool} (hp : p ∈ plat.ports)
    (hhistory : s'.history = s.history ++ es ++ [.call p .edma dpc .deinit ok])
    (hes : ∀ e ∈ es, ∀ q, e.deinits q .edma = false) :
    s'.deinitedPorts plat = insert p (s.deinitedPorts plat) := by
  have hdeinited (q : Nat) : s'.edmaDeinited q = (s.edmaDeinited q || decide (q = p)) := by
    have hnone : es.any (DpEvent.deinits q .edma) = false :=
      List.any_eq_false.mpr fun e he => Bool.not_eq_true _ ▸ hes e he q
    rw [Driver.edmaDeinited, hhistory, List.any_append, List.any_append, hnone, Bool.or_false,
      List.any_cons, List.any_nil, Bool.or_false, DpEvent.deinits, decide_eq_true rfl,
      Bool.and_true, Driver.edmaDeinited]
  ext q
  simp only [Driver.deinitedPorts, Finset.mem_insert, Finset.mem_filter, hdeinited,
    Bool.or_eq_true, decide_eq_true_eq]
  constructor
  · rintro ⟨hq, hold | rfl⟩
    · exact Or.inr ⟨hq, hold⟩
    · exact Or.inl rfl
  · rintro (rfl | ⟨hq, hold⟩)
    · exact ⟨hp, Or.inr rfl⟩
    · exact ⟨hq, Or.inl hold⟩

theorem isOverridden_append {pre : List DpEvent}
    (hes : ∀ e ∈ es, ∀ old new dpc, e ≠ .install q old new dpc) :
    isOverridden q (pre ++ es) = isOverridden q pre := by
  apply latch_append_of_neither
  intro e he
  cases e with
  | call | edmaFreed => exact ⟨rfl, rfl⟩
  | install q' old new dpc =>
    have hne : q ≠ q' := by
      rintro rfl
      exact hes _ he old new dpc rfl
    simp only [hne, decide_false, Bool.false_and, and_self]

theorem isOverridden_install {pre : List DpEvent} {old new : DataPlaneOps} :
    isOverridden q (pre ++ [.install q old new dpc]) = decide (new ≠ .edma) := by
  rw [isOverridden, latch_concat]
  by_cases hnew : new = .edma
  · simp [hnew]
  · simp [hnew]

theorem routine_neither (he : e.isRoutine = true) (q : Nat) :
    e.deinits q .edma = false ∧ ∀ old new dpc, e ≠ .install q old new dpc := by
  cases e with
  | call q' ops dpc cb ok =>
    refine ⟨?_, fun _ _ _ => DpEvent.noConfusion⟩
    cases cb with
    | deinit =>
      have hne : ops ≠ .edma := of_decide_eq_true he
      simp only [DpEvent.deinits, Ne.symm hne, decide_false, Bool.and_false]
    | _ => rfl
  | install | edmaFreed => cases he

/-- Routine events do not matter. -/
theorem BooksBut.kept {but : Finset Nat} (h : BooksBut plat s but) (hkept : Kept s s')
    (hwf : Wf plat s') : BooksBut plat s' but := by
  obtain ⟨es, hhistory, hroutine⟩ := hkept.history
  have hdeinited : s'.deinitedPorts plat = s.deinitedPorts plat :=
    deinitedPorts_append hhistory fun e he q => (routine_neither (hroutine e he) q).1
  refine ⟨hwf, ?_, ?_, ?_⟩
  · rw [EdmaFreedUnused, hhistory, okFrom_append]
    exact ⟨h.ordered, okFrom_of_forall fun e he _ => freedUnused_of_isRoutine (hroutine e he)⟩
  · rw [hkept.edmaInitialized, hkept.dpOverrideCnt, hdeinited]
    exact h.counted
  · rw [hkept.edmaInitialized, hdeinited, hhistory]
    intro hinit q hq
    rw [hkept.ops, isOverridden_append fun e he => (routine_neither (hroutine e he) q).2]
    exact h.away hinit q hq

/-- A data plane is put into a port. -/
theorem BooksBut.install {but : Finset Nat} (h : BooksBut plat s but) (hbut : but ⊆ {p})
    {ops : DataPlaneOps} (hwf : Wf plat (s.install p dpc ops)) :
    BooksBut plat (s.install p dpc ops) ∅ := by
  have hdeinited : (s.install p dpc ops).deinitedPorts plat = s.deinitedPorts plat :=
    deinitedPorts_append install_history fun e he q => by
      rw [List.mem_singleton.mp he]
      rfl
  refine ⟨hwf, ?_, ?_, ?_⟩
  · rw [EdmaFreedUnused, install_history, okFrom_concat]
    exact ⟨h.ordered, trivial⟩
  · rw [hdeinited]
    exact h.counted
  · rw [hdeinited, install_history]
    intro hinit q hq _
    rcases eq_or_ne q p with rfl | hne
    · rw [isOverridden_install, Driver.install, Driver.record, modify_dev_self]
    · rw [install_dev_of_ne hne, isOverridden_append]
      · exact h.away hinit q hq fun hmem => hne (Finset.mem_singleton.mp (hbut hmem))
      · intro e he old new dpc heq
        rw [List.mem_singleton.mp he] at heq
        cases heq
        exact hne rfl

/-- Where all but one port are counted, and none of these is back on EDMA, they are overridden. -/
theorem BooksBut.others_away (h : BooksBut plat s ∅) (hp : p ∈ plat.ports)
    (hinit : s.edmaHw.edmaInitialized = true)
    (hlast : s.edmaHw.dpOverrideCnt = plat.soc.maxPorts - 1) {down : Prop}
    (horder : s.DeinitInOrder plat p down) {q : Nat} (hq : q ∈ plat.ports) (hne : q ≠ p) :
    (s.dev q).dataPlaneOps ≠ .edma ∧ isOverridden q s.history = true := by
  have hsub : s.deinitedPorts plat ⊆ plat.ports.erase p := by
    intro r hr
    refine Finset.mem_erase.mpr ⟨?_, (Finset.mem_filter.mp hr).1⟩
    rintro rfl
    exact horder.1 hr
  have hcard : (plat.ports.erase p).card ≤ (s.deinitedPorts plat).card := by
    rw [Finset.card_erase_of_mem hp, ← h.counted hinit, hlast, Platform.ports, Nat.card_Icc,
      Nat.add_sub_cancel]
  have hq' : q ∈ s.deinitedPorts plat := by
    rw [Finset.eq_of_subset_of_card_le hsub hcard]
    exact Finset.mem_erase.mpr ⟨hne, hq⟩
  have haway := (horder.2 hlast).2 q hq'
  refine ⟨haway, ?_⟩
  rw [h.away hinit q hq' (Finset.notMem_empty q)]
  exact decide_eq_true haway

/-- The rings are freed by the deinitialisation of EDMA on the last port, while no port is up on
    EDMA. -/
theorem BooksBut.freedUnused (h : BooksBut plat s ∅) (hp : p ∈ plat.ports)
    (hinit : s.edmaHw.edmaInitialized = true)
    (hlast : s.edmaHw.dpOverrideCnt = plat.soc.maxPorts - 1)
    (horder : s.DeinitInOrder plat p ((s.dev p).up = false)) (up : List Nat) :
    FreedUnused plat s.history (.edmaFreed (some p) (s.edmaUpPorts plat) up) := by
  refine ⟨?_, fun q hq hne => (h.others_away hp hinit hlast horder hq hne).2⟩
  rw [Driver.edmaUpPorts, List.filter_eq_nil_iff]
  intro q hq hedma
  obtain ⟨hrange, hup⟩ := List.mem_filter.mp hq
  rcases eq_or_ne q p with rfl | hne
  · rw [(horder.2 hlast).1] at hup
    cases hup
  · have hport : q ∈ plat.ports := by
      obtain ⟨hlow, hhigh⟩ := List.mem_range'_1.mp hrange
      exact Finset.mem_Icc.mpr ⟨hlow, by omega⟩
    exact (h.others_away hp hinit hlast horder hport hne).1 (of_decide_eq_true hedma)

/-- The rings are freed if they are there before and not after. -/
theorem freedBy_cases (plat : Platform) (s : Driver) (port : Option Nat) (e : EdmaHw) :
    s.freedBy plat port e = [] ∨
      s.edmaHw.edmaInitialized = true ∧ e.edmaInitialized = false ∧
        s.freedBy plat port e = [.edmaFreed port (s.edmaUpPorts plat) (s.upPorts plat)] := by
  unfold Driver.freedBy
  split
  · rename_i hfreed
    rw [Bool.and_eq_true, Bool.not_eq_true'] at hfreed
    exact Or.inr ⟨hfreed.1, hfreed.2, rfl⟩
  · exact Or.inl rfl

/-- A port is counted that was not. -/
theorem BooksBut.counted_insert (h : BooksBut plat s ∅) (hp : p ∈ plat.ports)
    (hfirst : p ∉ s.deinitedPorts plat) (hinit : s.edmaHw.edmaInitialized = true) :
    Word.u32 (s.edmaHw.dpOverrideCnt + 1) = (insert p (s.deinitedPorts plat)).card := by
  have hle : (insert p (s.deinitedPorts plat)).card ≤ plat.ports.card := by
    refine Finset.card_le_card (Finset.insert_subset hp ?_)
    exact Finset.filter_subset _ _
  have hports : plat.ports.card ≤ 6 := by
    rw [Platform.ports, Nat.card_Icc, Nat.add_sub_cancel]
    cases plat.soc <;> simp only [Soc.maxPorts] <;> omega
  rw [h.counted hinit, ← Finset.card_insert_of_notMem hfirst, Word.u32_of_lt (by omega)]

/-- EDMA is deinitialised on a port: the port is counted, or the rings are freed. -/
theorem BooksBut.deinit (h : BooksBut plat s ∅) (hp : p ∈ plat.ports)
    (hops : (s.dev p).dataPlaneOps = .edma)
    (horder : s.edmaHw.edmaInitialized = true → s.DeinitInOrder plat p ((s.dev p).up = false))
    {ok : Bool} (hcall : s.callback plat p dpc env .deinit = .ok (ok, c)) :
    ok = true ∧ BooksBut plat (c.setInitDone p false) {p} := by
  obtain ⟨hok, heffect⟩ := callback_deinit_edma hops hcall
  have hcalled := callback_called hcall
  have hhistory : (c.setInitDone p false).history = _ := hcalled.history
  rw [hops] at hhistory
  have hwf : Wf plat (c.setInitDone p false) :=
    (hcalled.wf h.wf).modify (fun _ => rfl) (fun _ => rfl) fun _ => rfl
  have hinit := heffect.edmaInitialized
  have hcnt := heffect.dpOverrideCnt
  have hfreed := freedBy_cases plat s (some p) c.edmaHw
  have hneither : ∀ e ∈ s.freedBy plat (some p) c.edmaHw, ∀ q,
      e.deinits q .edma = false ∧ ∀ old new dpc, e ≠ .install q old new dpc := by
    intro e he q
    rcases hfreed with hnone | ⟨-, -, hone⟩
    · rw [hnone] at he
      cases he
    · rw [hone, List.mem_singleton] at he
      rw [he]
      exact ⟨rfl, fun _ _ _ => DpEvent.noConfusion⟩
  have hports : (c.setInitDone p false).deinitedPorts plat = insert p (s.deinitedPorts plat) :=
    deinitedPorts_deinit hp hhistory fun e he q => (hneither e he q).1
  -- While the rings stay, the count was not at its end.
  have hstay : c.edmaHw.edmaInitialized = true → s.edmaHw.edmaInitialized = true ∧
      c.edmaHw.dpOverrideCnt = Word.u32 (s.edmaHw.dpOverrideCnt + 1) := by
    intro hthere
    rw [hthere] at hinit
    split at hinit
    · cases hinit
    · rename_i hmore
      rw [if_neg hmore] at hcnt
      exact ⟨hinit.symm, hcnt⟩
  refine ⟨hok, hwf, ?_, ?_, ?_⟩
  · rw [EdmaFreedUnused, hhistory, okFrom_concat, okFrom_append]
    refine ⟨⟨h.ordered, ?_⟩, trivial⟩
    rcases hfreed with hnone | ⟨hbefore, hafter, hone⟩
    · rw [hnone]
      trivial
    · rw [hone]
      have hlast : s.edmaHw.dpOverrideCnt = plat.soc.maxPorts - 1 := by
        by_contra hmore
        rw [if_neg hmore, hafter, hbefore] at hinit
        cases hinit
      exact ⟨h.freedUnused hp hbefore hlast (horder hbefore) _, trivial⟩
  · intro hthere
    obtain ⟨hbefore, hcount⟩ := hstay hthere
    rw [hports]
    exact hcount.trans (h.counted_insert hp (horder hbefore).1 hbefore)
  · intro hthere q hq hbut
    rw [hports] at hq
    have hne : q ≠ p := fun heq => hbut (Finset.mem_singleton.mpr heq)
    have hold := h.away (hstay hthere).1 q (Finset.mem_of_mem_insert_of_ne hq hne)
      (Finset.notMem_empty q)
    rw [Driver.setInitDone, modify_dev_of_ne hne, hcalled.sameOps, ← hold]
    apply (congrArg (isOverridden q) hhistory).trans
    rw [List.append_assoc]
    apply isOverridden_append
    intro e he old new dpc
    rcases List.mem_append.mp he with he | he
    · exact (hneither e he q).2 old new dpc
    · rw [List.mem_singleton.mp he]
      exact DpEvent.noConfusion

theorem BooksBut.mono {but but' : Finset Nat} (h : BooksBut plat s but) (hsub : but ⊆ but') :
    BooksBut plat s but' :=
  ⟨h.wf, h.ordered, h.counted, fun hinit q hq hbut => h.away hinit q hq fun hmem =>
    hbut (hsub hmem)⟩

end Books

section Calls

variable {plat : Platform} {s s' m : Driver} {p : Nat} {dpc : DpcPtr} {env : CallEnv} {ok : Bool}

/-- A stop that gets to its end leaves the port down. -/
theorem StopRun.down (hrun : StopRun plat s p env m) (hstops : (s.dev p).up = false ∨
    (s.reachesClose plat p env && s.answer plat p env .close) = true) : (m.dev p).up = false := by
  cases hrun with
  | notUp hup => exact hup
  | stopped hup hclose =>
    rcases hstops with hdown | hend
    · cases hup.symm.trans hdown
    · have hups := congrFun hclose.ups p
      rw [hend, if_pos rfl, Function.update_self] at hups
      exact (resetNetdevFeatures_quiet.up p).trans hups

theorem Kept.deinitedPorts (h : Kept s m) : m.deinitedPorts plat = s.deinitedPorts plat := by
  obtain ⟨es, hhistory, hroutine⟩ := h.history
  exact deinitedPorts_append hhistory fun e he q => (routine_neither (hroutine e he) q).1

/-- After a stop, EDMA is deinitialised in order if it was to be so before. -/
theorem Kept.deinitInOrder (h : Kept s m) {down down' : Prop} (hdown : down → down')
    (horder : s.DeinitInOrder plat p down) : m.DeinitInOrder plat p down' := by
  rw [Driver.DeinitInOrder, h.deinitedPorts, h.dpOverrideCnt]
  refine ⟨horder.1, fun hlast => ?_⟩
  obtain ⟨hstops, haway⟩ := horder.2 hlast
  refine ⟨hdown hstops, fun q hq => ?_⟩
  rw [h.ops]
  exact haway q hq

/-- The middle of an override. -/
theorem deinitOnce_books (h : BooksBut plat s ∅) (hp : p ∈ plat.ports)
    (horder : s.UsesEdma p → s.DeinitInOrder plat p ((s.dev p).up = false))
    (hdeinit : deinitOnce plat s p dpc env = .ok (ok, s')) :
    BooksBut plat s' (if ok then {p} else ∅) := by
  rcases deinitOnce_run hdeinit with ⟨-, rfl, rfl⟩ | ⟨hdone, -, c, hcall, rfl⟩
  · exact h.mono (Finset.empty_subset _)
  by_cases hops : (s.dev p).dataPlaneOps = .edma
  · obtain ⟨rfl, hbooks⟩ := h.deinit hp hops (fun hinit => horder ⟨hinit, hops, hdone⟩) hcall
    exact hbooks
  · have hkept : Kept s c := (Kept.refl s).called (fun _ => hops) hcall
    have hbooks := h.kept hkept ((callback_called hcall).wf h.wf)
    cases ok with
    | false => exact hbooks
    | true =>
      have hwf : Wf plat (c.setInitDone p false) :=
        hbooks.wf.modify (fun _ => rfl) (fun _ => rfl) fun _ => rfl
      have hdone : Kept s (c.setInitDone p false) := hkept.modify fun _ => rfl
      exact (h.kept hdone hwf).mono (Finset.empty_subset _)

/-- One call on a port. -/
theorem PortRun.books {c : PortCall} (hrun : PortRun plat s c s') (h : BooksBut plat s ∅)
    (hp : c.port ∈ plat.ports) (horder : TeardownInOrder plat s (.port c)) :
    BooksBut plat s' ∅ := by
  have hwf := hrun.wf h.wf
  cases hrun with
  | opened hrun => exact h.kept (hrun.kept.modifyNetdev _) hwf
  | closed hrun => exact h.kept (hrun.kept.modifyNetdev _) hwf
  | rejected | ignored => exact h
  | @overridden p id missing dpc env s' hmiss hrun =>
    have horder' {m : Driver} (hstop : StopRun plat s p env m) (huses : m.UsesEdma p) :
        m.DeinitInOrder plat p ((m.dev p).up = false) := by
      obtain ⟨hops, hdone⟩ := hstop.frame p
      obtain ⟨hinit, hedma, hinitDone⟩ := huses
      refine hstop.kept.deinitInOrder hstop.down (horder hmiss ?_)
      exact ⟨hstop.kept.edmaInitialized.symm.trans hinit, hops.symm.trans hedma,
        hdone.symm.trans hinitDone⟩
    cases hrun with
    | deinitFailed hstop hdeinit =>
      exact deinitOnce_books (h.kept hstop.kept (hstop.wf h.wf)) hp (horder' hstop) hdeinit
    | installed hstop hdeinit =>
      have hbooks := deinitOnce_books (h.kept hstop.kept (hstop.wf h.wf)) hp (horder' hstop) hdeinit
      exact hbooks.install Finset.Subset.rfl hwf
  | started _ _ hrun => exact h.kept hrun.kept hwf
  | restored hstop =>
    exact (h.kept hstop.kept (hstop.wf h.wf)).install (Finset.empty_subset _) hwf

/-- The interfaces are stopped at the end of the module. -/
theorem nssDpRemove_kept {envs : Nat → CallEnv} : ∀ {ps : List Nat} {s s' : Driver},
    (∀ p ∈ ps, p ∈ plat.ports) → Wf plat s → nssDpRemove plat envs s ps = .ok s' → Kept s s' := by
  intro ps
  induction ps with
  | nil =>
    intro s s' _ _ h
    cases h
    exact Kept.refl s
  | cons p ps ih =>
    intro s s' hps hwf h
    obtain ⟨hp, hrest⟩ := List.forall_mem_cons.mp hps
    rw [nssDpRemove] at h
    split at h
    · obtain ⟨⟨ret, m⟩, hclose, hremove⟩ := Except.bind_eq_ok_iff.mp h
      have hrun := nssDpClose_run hwf hp hclose
      have hkept := hrun.kept.modifyNetdev (p := p) fun n => { n with running := false }
      exact hkept.trans (ih hrest (setRunning_wf (hrun.wf hwf) false) hremove)
    · exact ih hrest hwf h

/-- The exit of a module of which no port is up frees the rings unused. -/
theorem nssDpExit_ordered {envs : Nat → CallEnv} (h : BooksBut plat s ∅)
    (hcommon : s.commonInitDone = true)
    (hdown : s.edmaHw.edmaInitialized = true → s.upPorts plat = [])
    (hexit : nssDpExit plat s envs = .ok s') :
    EdmaFreedUnused plat s' ∧ s'.commonInitDone = false := by
  rw [nssDpExit, if_pos hcommon] at hexit
  obtain ⟨m, hm, hremove⟩ := Except.bind_eq_ok_iff.mp hexit
  obtain ⟨c, hc, rfl⟩ := Except.map_eq_ok_iff.mp hm
  have hclean : ∃ e, Wf plat c ∧ c.history = s.history ++ s.freedBy plat none e := by
    unfold nssDpHalCleanup at hc
    split at hc
    · obtain ⟨r, -, rfl⟩ := Except.map_eq_ok_iff.mp hc
      exact ⟨r.1, h.wf.of_life (fun _ => rfl) rfl, rfl⟩
    · cases hc
      exact ⟨s.edmaHw, h.wf, by rw [freedBy_of_eq rfl, List.append_nil]⟩
  obtain ⟨e, hwf, hhistory⟩ := hclean
  have hports : ∀ p ∈ List.range' 1 plat.soc.maxPorts, p ∈ plat.ports := by
    intro p hp
    obtain ⟨hlow, hhigh⟩ := List.mem_range'_1.mp hp
    exact Finset.mem_Icc.mpr ⟨hlow, by omega⟩
  have hwf' : Wf plat { c with commonInitDone := false } := hwf.of_life (fun _ => rfl) rfl
  have hkept := nssDpRemove_kept hports hwf' hremove
  refine ⟨?_, hkept.commonInitDone⟩
  obtain ⟨es, hes, hroutine⟩ := hkept.history
  rw [EdmaFreedUnused, hes]
  have hfreed : OkFrom (FreedUnused plat) [] c.history := by
    rw [hhistory, okFrom_append]
    refine ⟨h.ordered, ?_⟩
    rcases freedBy_cases plat s none e with hnone | ⟨hinit, -, hone⟩
    · rw [hnone]
      trivial
    · rw [hone, Driver.edmaUpPorts, hdown hinit]
      exact ⟨⟨rfl, rfl⟩, trivial⟩
  exact okFrom_append.mpr
    ⟨hfreed, okFrom_of_forall fun e he _ => freedUnused_of_isRoutine (hroutine e he)⟩

end Calls

/-- The books are kept until the exit. -/
structure ModuleInv (plat : Platform) (s : Driver) : Prop where
  ordered : EdmaFreedUnused plat s
  books : s.commonInitDone = true → BooksBut plat s ∅

theorem Probed.moduleInv {plat : Platform} {s : Driver} (h : Probed plat s) : ModuleInv plat s := by
  have hordered : EdmaFreedUnused plat s := by
    rw [EdmaFreedUnused, h.history]
    trivial
  have hnone : s.deinitedPorts plat = ∅ := by
    simp only [Driver.deinitedPorts, Driver.edmaDeinited, h.history, List.any_nil,
      Bool.false_eq_true, Finset.filter_false]
  refine ⟨hordered, fun _ => ⟨h.wf, hordered, fun _ => ?_, fun _ q hq => ?_⟩⟩
  · rw [h.dpOverrideCnt, hnone, Finset.card_empty]
  · rw [hnone] at hq
    exact absurd hq (Finset.notMem_empty q)

theorem ModuleInv.step {plat : Platform} {s s' : Driver} {c : ModuleCall} (h : ModuleInv plat s)
    (horder : TeardownInOrder plat s c) (hstep : moduleStep plat s c = some s') :
    ModuleInv plat s' := by
  unfold moduleStep at hstep
  split at hstep
  · cases hstep
  rename_i hcommon
  have hcommon : s.commonInitDone = true := by simpa using hcommon
  have hbooks := h.books hcommon
  cases c with
  | port c =>
    obtain ⟨henabled, hrun⟩ := portStep_run hbooks.wf hstep
    have hbooks' := hrun.books hbooks henabled.1 horder
    exact ⟨hbooks'.ordered, fun _ => hbooks'⟩
  | exit envs =>
    obtain ⟨hordered, hgone⟩ := nssDpExit_ordered hbooks hcommon horder
      (Except.toOption_eq_some_iff.mp hstep)
    exact ⟨hordered, fun hthere => Bool.noConfusion (hgone.symm.trans hthere)⟩

/-- The rings are freed while no port is up on EDMA, in every run whose steps are in order. -/
theorem moduleRun_freedUnused (plat : Platform) {s : Driver} (hprobed : Probed plat s)
    {calls : List ModuleCall}
    (horder : StepsMeet (moduleStep plat) (TeardownInOrder plat) s calls) :
    Always (moduleStep plat) (EdmaFreedUnused plat) s calls :=
  always_of_stepsMeet (fun _ h => h.ordered) (fun _ _ _ h hC hstep => h.step hC hstep)
    hprobed.moduleInv horder

/-- An overlay driver takes a port over, and gives it back. -/
def takeOver (p : Nat) : ModuleCall := .port (.override p 0 [] (.overlay 0 ⟨some p⟩) allOk)

def giveBack (p : Nat) : ModuleCall := .port (.restore p allOk)

/-- All ports are opened and then taken over, the first of them after it was given back once; then
    the module exits. -/
def takeOverAll : List ModuleCall :=
  (List.range' 1 6).map (fun p => .port (.devOpen p allOk)) ++ [takeOver 1, giveBack 1] ++
    (List.range' 1 6).map takeOver ++ [.exit fun _ => allOk]

theorem moduleRun_freedUnused_takeOverAll :
    Always (moduleStep ipq807x) (EdmaFreedUnused ipq807x) ipq807xProbed takeOverAll ∧
      ∃ t, run (moduleStep ipq807x) ipq807xProbed takeOverAll = some t ∧
        .edmaFreed (some 6) [] [] ∈ t.history := by
  refine ⟨moduleRun_freedUnused ipq807x ipq807x_probed (by decide +kernel), ?_⟩
  have hrun : (run (moduleStep ipq807x) ipq807xProbed takeOverAll).map (fun t =>
      decide (.edmaFreed (some 6) [] [] ∈ t.history)) = some true := by
    decide +kernel
  obtain ⟨t, ht, hmem⟩ := Option.map_eq_some_iff.mp hrun
  exact ⟨t, ht, of_decide_eq_true hmem⟩

/-- Port 2 is open, and an overlay driver takes port 1 over six times. -/
def takeOverAgain : List ModuleCall :=
  [.port (.devOpen 2 allOk), .port (.devOpen 1 allOk)] ++
    (List.replicate 5
      [takeOver 1, .port (.start 1 (.overlay 0 ⟨some 1⟩) allOk), giveBack 1]).flatten ++
    [takeOver 1]

/-- The module exits with a port open. -/
def exitOpen : List ModuleCall := [.port (.devOpen 1 allOk), .exit fun _ => allOk]

/-- A port that is up when the rings are freed. -/
theorem not_freedUnused {plat : Platform} {s : Driver} {port : Option Nat} {q : Nat}
    {edmaUp up : List Nat} (hmem : .edmaFreed port (q :: edmaUp) up ∈ s.history) :
    ¬ EdmaFreedUnused plat s := by
  intro hunused
  obtain ⟨before, hok⟩ := hunused.mem hmem
  cases port with
  | none => exact List.cons_ne_nil _ _ hok.1
  | some p => exact List.cons_ne_nil _ _ hok.1

/-- A port that comes back to EDMA is counted again, so the rings are freed with port 2 in use; and
    the exit of the module frees them before it stops the interfaces. -/
theorem moduleRun_freedInUse : Probed ipq807x ipq807xProbed ∧
    (∃ t, run (moduleStep ipq807x) ipq807xProbed takeOverAgain = some t ∧
      .edmaFreed (some 1) [2] [2] ∈ t.history ∧ ¬ EdmaFreedUnused ipq807x t) ∧
    ∃ t, run (moduleStep ipq807x) ipq807xProbed exitOpen = some t ∧
      .edmaFreed none [1] [1] ∈ t.history ∧ ¬ EdmaFreedUnused ipq807x t := by
  have hagain : (run (moduleStep ipq807x) ipq807xProbed takeOverAgain).map (fun t =>
      decide (.edmaFreed (some 1) [2] [2] ∈ t.history)) = some true := by
    decide +kernel
  have hexit : (run (moduleStep ipq807x) ipq807xProbed exitOpen).map (fun t =>
      decide (.edmaFreed none [1] [1] ∈ t.history)) = some true := by
    decide +kernel
  obtain ⟨t, ht, hmem⟩ := Option.map_eq_some_iff.mp hagain
  obtain ⟨t', ht', hmem'⟩ := Option.map_eq_some_iff.mp hexit
  have hmem := of_decide_eq_true hmem
  have hmem' := of_decide_eq_true hmem'
  exact ⟨ipq807x_probed, ⟨t, ht, hmem, not_freedUnused hmem⟩, t', ht', hmem', not_freedUnused hmem'⟩

end NssDp
