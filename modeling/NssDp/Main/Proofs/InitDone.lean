import NssDp.Misc.Lts
import NssDp.Main.Proofs.LinkState
import NssDp.Main.Proofs.OpenBooks
import NssDp.Main.Proofs.Tracks

/-!
# Data planes are used while initialised

The bit `INIT_DONE` of a port stands for the initialisation of the data plane it has now. An
override deinitialises that data plane before it puts another in its place; a restore does not.
-/

namespace NssDp

open Edma History Lts

/-- `init` of the data plane `ops` has succeeded for port `p`. -/
def DpEvent.inits (p : Nat) (ops : DataPlaneOps) : DpEvent → Bool
  | .call q ops' _ .init ok => decide (p = q) && decide (ops = ops') && ok
  | _ => false

/-- `deinit` of the data plane `ops` has run for port `p`. -/
def DpEvent.deinits (p : Nat) (ops : DataPlaneOps) : DpEvent → Bool
  | .call q ops' _ .deinit _ => decide (p = q) && decide (ops = ops')
  | _ => false

/-- The data plane `ops` is initialised for port `p`: its `init` has succeeded and its `deinit` has
    not run since. -/
def isInit (p : Nat) (ops : DataPlaneOps) (history : List DpEvent) : Bool :=
  latch (DpEvent.inits p ops) (DpEvent.deinits p ops) history

/-- `open` and `xmit` are called on data planes that are initialised, and a data plane that is
    initialised is not replaced by another. -/
def InitOk (pre : List DpEvent) : DpEvent → Prop
  | .call p ops _ .open _ | .call p ops _ .xmit _ => isInit p ops pre = true
  | .install p old new _ => old = new ∨ isInit p old pre = false
  | _ => True

/-- What the driver promises of the bits `INIT_DONE`. -/
structure InitBooks (plat : Platform) (s : Driver) : Prop where
  initDone : ∀ p ∈ plat.ports, (s.dev p).initDone = isInit p (s.dev p).dataPlaneOps s.history
  ordered : OkFrom InitOk [] s.history

/-- What happens to the ports: the calls of `portStep`, the packets the stack sends from a
    processor, and the poll of the data plane, which starts the stopped queue again while the
    carrier is on. -/
inductive TrafficCall where
  | port (c : PortCall)
  | xmit (p cpu : Nat) (skb : SkBuff) (env : XmitEnv) (accept : Bool)
  | wake (p : Nat)

/-- The stack sends from the TX queue `queue` of an interface that is running, unless that queue is
    stopped. The driver stops and starts queue 0 only, and the other queues are never stopped. -/
def NssDpDev.Sends (soc : Soc) (d : NssDpDev) (queue : Nat) : Prop :=
  d.netdev.running = true ∧ queue < soc.cpuNum ∧ (queue = 0 → d.netdev.queueStopped = false)

instance (soc : Soc) (d : NssDpDev) (queue : Nat) : Decidable (d.Sends soc queue) := by
  unfold NssDpDev.Sends
  infer_instance

def trafficStep (plat : Platform) (s : Driver) : TrafficCall → Option Driver
  | .port c => portStep plat s c
  | .xmit p cpu skb env accept =>
    if p ∈ plat.ports ∧ (s.dev p).Sends plat.soc (nssDpSelectQueue cpu) then
      ((nssDpXmit s p { skb with queueMapping := nssDpSelectQueue cpu } env accept).map
        Prod.snd).toOption
    else none
  | .wake p =>
    if p ∈ plat.ports ∧ (s.dev p).netdev.carrierOk = true then some (s.setQueueStopped p false)
    else none

/-- The data planes of the ports with `INIT_DONE` are initialised, and no others. -/
structure InitTrack (s : Driver) : Prop where
  tracks : Tracks DpEvent.inits DpEvent.deinits s s.inits
  ordered : OkFrom InitOk [] s.history

section InitTrack

variable {plat : Platform} {s s' m : Driver} {p : Nat} {dpc : DpcPtr} {env : CallEnv}
  {cb : DpCallback} {ok : Bool} {ret : DevRet}

/-- An event that has nothing to do with the initialisation of a data plane. -/
def DpEvent.isUninit : DpEvent → Bool
  | .call _ _ _ .init ok => !ok
  | .call _ _ _ .open _ | .call _ _ _ .xmit _ | .call _ _ _ .deinit _ | .install .. => false
  | _ => true

theorem neither_of_isUninit {e : DpEvent} (he : e.isUninit = true) (q : Nat) (ops : DataPlaneOps) :
    e.inits q ops = false ∧ e.deinits q ops = false := by
  cases e with
  | call q' ops' dpc cb ok =>
    cases cb with
    | init =>
      cases ok with
      | false => exact ⟨Bool.and_false _, rfl⟩
      | true => cases he
    | «open» | xmit | deinit => cases he
    | _ => exact ⟨rfl, rfl⟩
  | install => cases he
  | edmaFreed => exact ⟨rfl, rfl⟩

theorem initOk_of_isUninit {e : DpEvent} {pre : List DpEvent} (he : e.isUninit = true) :
    InitOk pre e := by
  cases e with
  | call q ops dpc cb ok =>
    cases cb with
    | «open» | xmit => cases he
    | _ => trivial
  | install => cases he
  | edmaFreed => trivial

theorem isUninit_of_isQuiet {e : DpEvent} (he : e.isQuiet = true) : e.isUninit = true := by
  cases e with
  | call q ops dpc cb ok => cases cb <;> first | rfl | cases he
  | install => cases he
  | edmaFreed => rfl

theorem isInit_append {pre es : List DpEvent} {ops : DataPlaneOps}
    (hes : ∀ e ∈ es, e.isUninit = true) : isInit p ops (pre ++ es) = isInit p ops pre :=
  latch_append_of_neither fun e he => neither_of_isUninit (hes e he) p ops

theorem isUninit_of_mem_freedBy {port : Option Nat} {e : EdmaHw} {ev : DpEvent}
    (h : ev ∈ s.freedBy plat port e) : ev.isUninit = true := by
  unfold Driver.freedBy at h
  split at h
  · rw [List.mem_singleton.mp h]
    rfl
  · cases h

namespace InitTrack

theorem isInit_eq (h : InitTrack s) (p : Nat) :
    isInit p (s.dev p).dataPlaneOps s.history = s.inits p := h.tracks.current p

/-- The bits are right where they tell which data planes are initialised. -/
theorem books (h : InitTrack s) : InitBooks plat s := ⟨fun p _ => (h.isInit_eq p).symm, h.ordered⟩

theorem others (h : InitTrack s) (es : List DpEvent) (hes : ∀ e ∈ es, e.isUninit = true)
    (hops : SameOps s s') (hinits : s'.inits = s.inits) (hhistory : s'.history = s.history ++ es) :
    InitTrack s' := by
  refine ⟨?_, ?_⟩
  · rw [hinits]
    exact h.tracks.others es (fun e he q ops => neither_of_isUninit (hes e he) q ops) hops hhistory
  · rw [hhistory, okFrom_append]
    exact ⟨h.ordered, okFrom_of_forall fun e he before => initOk_of_isUninit (hes e he)⟩

theorem quiet (h : InitTrack s) (hquiet : Quiet s s') : InitTrack s' := by
  obtain ⟨es, hhistory, hes⟩ := hquiet.history
  exact h.others es (fun e he => isUninit_of_isQuiet (hes e he)) hquiet.dataPlaneOps hquiet.inits
    hhistory

theorem modify (h : InitTrack s) {f : NssDpDev → NssDpDev}
    (hops : (f (s.dev p)).dataPlaneOps = (s.dev p).dataPlaneOps)
    (hdone : (f (s.dev p)).initDone = (s.dev p).initDone) : InitTrack (s.modify p f) :=
  h.others [] (by simp) (modify_sameOps hops) (modify_inits hdone) (List.append_nil _).symm

theorem setQueueStopped (h : InitTrack s) (b : Bool) : InitTrack (s.setQueueStopped p b) :=
  h.modify (f := fun d => { d with netdev := { d.netdev with queueStopped := b } }) rfl rfl

theorem setRunning (h : InitTrack s) (b : Bool) : InitTrack (s.setRunning p b) :=
  h.modify (f := fun d => { d with netdev := { d.netdev with running := b } }) rfl rfl

/-- After a call, the order of the history depends on the call only. -/
theorem ordered_called (h : InitTrack s) (hcalled : Called plat s p dpc cb ok s')
    (hok : cb = .open ∨ cb = .xmit → s.inits p = true) : OkFrom InitOk [] s'.history := by
  have hfreed : ∀ e ∈ s.freedBy plat (some p) s'.edmaHw, e.isUninit = true :=
    fun _ he => isUninit_of_mem_freedBy he
  rw [hcalled.history, okFrom_concat, okFrom_append]
  refine ⟨⟨h.ordered, okFrom_of_forall fun e he before => initOk_of_isUninit (hfreed e he)⟩, ?_⟩
  have hinit (hcb : cb = .open ∨ cb = .xmit) :
      isInit p (s.dev p).dataPlaneOps (s.history ++ s.freedBy plat (some p) s'.edmaHw) = true := by
    rw [isInit_append hfreed, h.isInit_eq, hok hcb]
  cases cb with
  | «open» => exact hinit (Or.inl rfl)
  | xmit => exact hinit (Or.inr rfl)
  | _ => trivial

/-- A callback that neither initialises nor deinitialises. -/
theorem called (h : InitTrack s) (hcalled : Called plat s p dpc cb ok s')
    (hcb : (cb = .init → ok = false) ∧ cb ≠ .deinit)
    (hok : cb = .open ∨ cb = .xmit → s.inits p = true) : InitTrack s' := by
  refine ⟨?_, h.ordered_called hcalled hok⟩
  rw [hcalled.inits]
  refine h.tracks.called_others (fun _ _ _ _ _ => ⟨rfl, rfl⟩) hcalled fun q ops => ?_
  cases cb with
  | init =>
    rw [hcb.1 rfl]
    exact ⟨Bool.and_false _, rfl⟩
  | deinit => exact absurd rfl hcb.2
  | _ => exact ⟨rfl, rfl⟩

theorem setInitDone_sameOps (b : Bool) : SameOps s (s.setInitDone p b) := modify_sameOps rfl

/-- A data plane is initialised. -/
theorem inits (h : InitTrack s) (hcalled : Called plat s p dpc .init true s') :
    InitTrack (s'.setInitDone p true) := by
  have hordered := h.ordered_called hcalled (by simp)
  refine ⟨?_, hordered⟩
  rw [setInitDone_inits, hcalled.inits]
  refine Tracks.others (s := s') ?_ [] (by simp) (setInitDone_sameOps true)
    (List.append_nil _).symm
  refine h.tracks.called_sets (fun _ _ _ _ _ => ⟨rfl, rfl⟩) hcalled (fun q ops => ?_)
    fun _ _ => rfl
  rw [DpEvent.inits, Bool.and_true]

/-- A data plane is deinitialised: the bit must go. -/
theorem deinits (h : InitTrack s) (hcalled : Called plat s p dpc .deinit ok s') :
    Tracks DpEvent.inits DpEvent.deinits s' (Function.update s.inits p false) ∧
      OkFrom InitOk [] s'.history :=
  ⟨h.tracks.called_resets (fun _ _ _ _ _ => ⟨rfl, rfl⟩) hcalled (fun _ _ => rfl) fun _ _ => rfl,
    h.ordered_called hcalled (by simp)⟩

/-- A data plane that is not initialised is replaced, or one is replaced by itself. -/
theorem installs (h : InitTrack s) {ops : DataPlaneOps}
    (hnot : s.inits p = false ∨ ops = (s.dev p).dataPlaneOps) :
    InitTrack (s.install p dpc ops) := by
  refine ⟨?_, ?_⟩
  · rw [install_inits]
    exact h.tracks.installs (fun _ _ _ _ _ => ⟨rfl, rfl⟩) hnot
  · rw [install_history, okFrom_concat]
    refine ⟨h.ordered, ?_⟩
    rcases hnot with hnot | rfl
    · exact Or.inr ((h.isInit_eq p).trans hnot)
    · exact Or.inl rfl

/-- Replacing another makes the books wrong. -/
theorem installs_wrong (h : InitTrack s) {ops : DataPlaneOps} (hdone : s.inits p = true)
    (hne : ops ≠ (s.dev p).dataPlaneOps) : ¬ InitBooks plat (s.install p dpc ops) :=
    fun hbooks => by
  have hordered := hbooks.ordered
  rw [install_history, okFrom_concat] at hordered
  rcases hordered.2 with heq | hnot
  · exact hne heq.symm
  · rw [h.isInit_eq, hdone] at hnot
    cases hnot

end InitTrack

end InitTrack

section Runs

variable {plat : Platform} {s s' m : Driver} {p : Nat} {dpc : DpcPtr} {env : CallEnv}
  {ok : Bool} {ret : DevRet}

theorem CloseRun.initTrack (hrun : CloseRun plat s p env s') (h : InitTrack s) : InitTrack s' := by
  have hstop := h.setQueueStopped (p := p) true
  cases hrun with
  | aborted _ hquiet => exact hstop.quiet hquiet
  | failed _ _ hquiet hcall =>
    exact (hstop.quiet hquiet).called (callback_called hcall) (by simp) (by simp)
  | closed _ _ hquiet hcall =>
    exact ((hstop.quiet hquiet).called (callback_called hcall) (by simp) (by simp)).modify rfl rfl

theorem InitRun.initTrack (hrun : InitRun plat s p env m) (h : InitTrack s) : InitTrack m := by
  cases hrun with
  | done _ hquiet => exact h.quiet hquiet
  | called _ hquiet hcall => exact (h.quiet hquiet).inits (callback_called hcall)

theorem OpenRun.initTrack (hrun : OpenRun plat s p env ret s') (h : InitTrack s) :
    InitTrack s' := by
  have hup {m : Driver} (hinit : InitRun plat s p env m) : InitTrack (m.setUp p true) :=
    (hinit.initTrack h).modify rfl rfl
  have hdone {m m' : Driver} (hinit : InitRun plat s p env m) (hquiet : Quiet (m.setUp p true) m') :
      m'.inits p = true := by
    rw [hquiet.inits, Driver.setUp, modify_inits rfl, hinit.inits, Function.update_self]
  cases hrun with
  | initFailed _ hquiet hcall =>
    exact (h.quiet hquiet).called (callback_called hcall) (by simp) (by simp)
  | aborted _ hinit _ hquiet => exact (hup hinit).quiet hquiet
  | failed _ hinit _ _ hquiet hcall =>
    exact ((hup hinit).quiet hquiet).called (callback_called hcall) (by simp)
      fun _ => hdone hinit hquiet
  | opened _ hinit _ _ hquiet hcall hquiet' =>
    have hopened := ((hup hinit).quiet hquiet).called (callback_called hcall) (by simp)
      fun _ => hdone hinit hquiet
    exact (hopened.setQueueStopped false).quiet hquiet'

theorem StopRun.initTrack (hrun : StopRun plat s p env s') (h : InitTrack s) : InitTrack s' := by
  cases hrun with
  | notUp => exact h
  | stopped _ hclose => exact (hclose.initTrack h).quiet resetNetdevFeatures_quiet

/-- The middle of an override that gets to its end. -/
theorem deinitOnce_initTrack (h : InitTrack s)
    (hdeinit : deinitOnce plat s p dpc env = .ok (true, s')) :
    InitTrack s' ∧ s'.inits p = false := by
  rcases deinitOnce_run hdeinit with ⟨hdone, -, rfl⟩ | ⟨-, -, c, hcall, rfl⟩
  · exact ⟨h, hdone⟩
  have hcalled := callback_called hcall
  obtain ⟨htracks, hordered⟩ := h.deinits hcalled
  have hinits : (c.setInitDone p false).inits = Function.update s.inits p false := by
    rw [setInitDone_inits, hcalled.inits]
  rw [if_pos rfl]
  refine ⟨⟨?_, hordered⟩, by rw [hinits, Function.update_self]⟩
  rw [hinits]
  exact htracks.others [] (by simp) (InitTrack.setInitDone_sameOps false)
    (List.append_nil _).symm

/-- The middle of an override that fails leaves `INIT_DONE` of a data plane whose `deinit` has
    run. -/
theorem deinitOnce_wrong (h : InitTrack s) (hp : p ∈ plat.ports)
    (hdeinit : deinitOnce plat s p dpc env = .ok (false, s')) :
    s.inits p = true ∧ s.answer plat p env .deinit = false ∧ ¬ InitBooks plat s' := by
  rcases deinitOnce_run hdeinit with ⟨-, hok, -⟩ | ⟨hdone, hanswer, c, hcall, heq⟩
  · cases hok
  rw [if_neg Bool.false_ne_true] at heq
  subst heq
  have hcalled := callback_called hcall
  refine ⟨hdone, hanswer.symm, fun hbooks => ?_⟩
  have hright := hbooks.initDone p hp
  have hdone' : (s'.dev p).initDone = true := (congrFun hcalled.inits p).trans hdone
  have hnot := (h.deinits hcalled).1.current p
  rw [Function.update_self] at hnot
  rw [hdone', isInit, hnot] at hright
  cases hright

/-- When a call on a port keeps the bits `INIT_DONE` true: an override deinitialises the data plane
    if it is initialised, and a restore does not replace one that is. -/
def KeepsInit (plat : Platform) (s : Driver) : PortCall → Prop
  | .override p _ missing _ env => MissesRequired missing ∨ (s.dev p).initDone = false ∨
      s.answer plat p env .deinit = true
  | .restore p _ => (s.dev p).initDone = false ∨ plat.soc.halOps = (s.dev p).dataPlaneOps
  | .devOpen _ _ | .devClose _ _ | .start _ _ _ => True

theorem PortRun.init {c : PortCall} (hrun : PortRun plat s c s') (h : InitTrack s)
    (hp : c.port ∈ plat.ports) :
    (KeepsInit plat s c ∧ InitTrack s') ∨ (¬ KeepsInit plat s c ∧ ¬ InitBooks plat s') := by
  cases hrun with
  | opened hrun => exact Or.inl ⟨trivial, (hrun.initTrack h).setRunning _⟩
  | closed hrun => exact Or.inl ⟨trivial, (hrun.initTrack h).setRunning _⟩
  | rejected hmiss => exact Or.inl ⟨Or.inl hmiss, h⟩
  | @overridden p id missing dpc env m hmiss hrun =>
    have hp' : p ∈ plat.ports := hp
    cases hrun with
    | deinitFailed hstop hdeinit =>
      obtain ⟨hdone, hanswer, hwrong⟩ := deinitOnce_wrong (hstop.initTrack h) hp' hdeinit
      rw [hstop.deinit_answer] at hanswer
      refine Or.inr ⟨fun hkeeps => ?_, hwrong⟩
      rcases hkeeps with hmiss' | hnot | hanswer'
      · exact hmiss hmiss'
      · cases ((hstop.frame _).2.symm.trans hdone).symm.trans hnot
      · cases hanswer.symm.trans hanswer'
    | installed hstop hdeinit =>
      obtain ⟨htrack, hnot⟩ := deinitOnce_initTrack (hstop.initTrack h) hdeinit
      refine Or.inl ⟨Or.inr ?_, htrack.installs (Or.inl hnot)⟩
      rcases deinitOnce_run hdeinit with ⟨hdone, -, -⟩ | ⟨-, hanswer, -⟩
      · exact Or.inl ((hstop.frame _).2.symm.trans hdone)
      · exact Or.inr (hstop.deinit_answer.symm.trans hanswer.symm)
  | ignored => exact Or.inl ⟨trivial, h⟩
  | started _ _ hrun => exact Or.inl ⟨trivial, hrun.initTrack h⟩
  | @restored p env m hstop =>
    have hdone : m.inits p = (s.dev p).initDone := (hstop.frame p).2
    have hops := (hstop.frame p).1
    by_cases hkeeps : KeepsInit plat s (.restore p env)
    · refine Or.inl ⟨hkeeps, (hstop.initTrack h).installs ?_⟩
      exact hkeeps.imp hdone.trans fun heq => heq.trans hops.symm
    · obtain ⟨hinit, hne⟩ := not_or.mp hkeeps
      refine Or.inr ⟨hkeeps, (hstop.initTrack h).installs_wrong ?_ ?_⟩
      · rw [hdone]
        simpa using hinit
      · rwa [hops]

end Runs

/-! ### The packets of the stack -/

/-- What `nss_dp_xmit` does besides handing the packet over: at most it stops the queue. -/
structure XmitEffect (s : Driver) (p : Nat) (ok : Bool) (s' : Driver) : Prop where
  life : ∀ q, ∃ stopped, (s'.dev q).life = { (s.dev q).life with queueStopped := stopped } ∧
    ((s.dev q).netdev.queueStopped = true → stopped = true)
  links : s'.links = s.links
  ctx : s'.dpGlobalDataPlaneCtx = s.dpGlobalDataPlaneCtx
  history : s'.history =
    s.history ++ [.call p (s.dev p).dataPlaneOps (s.dev p).dpc .xmit ok]

/-- The stack may hand packets of queue 0 to the port, now or after a poll. -/
def NssDpDev.mayXmit (d : NssDpDev) : Bool :=
  d.netdev.running && (!d.netdev.queueStopped || d.netdev.carrierOk)

/-- The packets of queue 0 reach ports that are up and initialised only. -/
def XmitReady (s : Driver) : Prop :=
  ∀ q, (s.dev q).mayXmit = true → s.ups q = true ∧ s.inits q = true

structure TrafficInv (plat : Platform) (s : Driver) : Prop where
  wf : Wf plat s
  track : InitTrack s
  ready : XmitReady s

section Traffic

variable {plat : Platform} {s s' m : Driver} {p q : Nat} {dpc : DpcPtr} {env : CallEnv}
  {skb : SkBuff} {accept ok : Bool} {ret : DevRet}

theorem nssDpXmit_effect {env : XmitEnv} {ret : NetdevTx}
    (h : nssDpXmit s p skb env accept = .ok (ret, s')) : ∃ ok, XmitEffect s p ok s' := by
  unfold nssDpXmit at h
  dsimp only at h
  split at h
  · cases h
  obtain ⟨r, hr, heq⟩ := Except.map_eq_ok_iff.mp h
  cases heq
  have hsame : XmitEffect s p (decide (r.1 = .ok))
      (s.record (.call p (s.dev p).dataPlaneOps (s.dev p).dpc .xmit (decide (r.1 = .ok)))) :=
    ⟨fun q => ⟨_, rfl, id⟩, rfl, rfl, rfl⟩
  split at hr
  · obtain ⟨q, -, hq⟩ := Option.bind_eq_some_iff.mp (returned_eq_ok.mp hr)
    obtain ⟨x, hx, rfl⟩ := Option.map_eq_some_iff.mp hq
    obtain ⟨stopped, dropped, hnetdev, hstopped⟩ :=
      edmaIfXmit_netdev (Except.toOption_eq_some_iff.mp hx)
    refine ⟨_, fun q' => ?_, ?_, rfl, rfl⟩
    · refine ⟨(if q' = q then stopped else (s.dev q').netdev.queueStopped), ?_, fun hold => ?_⟩
      · dsimp only [Driver.record, Driver.modifyNetdev]
        rw [modify_dev, hnetdev]
        split
        · rename_i heq
          rw [heq]
          rfl
        · rfl
      · split
        · rename_i heq
          exact hstopped (by rwa [heq] at hold)
        · exact hold
    · refine modify_links (s := s) (f := fun d => { d with netdev := x.netdev }) ?_
      rw [hnetdev]
      rfl
  · cases returned_eq_ok.mp hr
    exact ⟨_, hsame⟩
  · cases returned_eq_ok.mp hr
    exact ⟨_, hsame⟩

/-- The stack may send to a port only as its own life and its link say. -/
theorem mayXmit_congr {d d' : NssDpDev} (hlife : d'.life = d.life) (hlink : d'.link = d.link) :
    d'.mayXmit = d.mayXmit := by
  have hcarrier := congrArg PortLink.carrierOk hlink
  rw [NssDpDev.mayXmit, NssDpDev.mayXmit, running_of_life hlife, queueStopped_of_life hlife]
  exact congrArg _ (congrArg _ hcarrier)

theorem mayXmit_eq_false {d : NssDpDev} (hqueue : d.netdev.queueStopped = true)
    (hcarrier : d.link.carrierOk = false) : d.mayXmit = false := by
  have hcarrier' : d.netdev.carrierOk = false := hcarrier
  rw [NssDpDev.mayXmit, hqueue, hcarrier']
  exact Bool.and_false _

namespace XmitReady

/-- Only the port of the call matters. -/
theorem of_others (h : XmitReady s) (p : Nat)
    (hlife : ∀ q, q ≠ p → (s'.dev q).life = (s.dev q).life)
    (hlinks : ∀ q, q ≠ p → s'.links q = s.links q)
    (hself : (s'.dev p).mayXmit = true → s'.ups p = true ∧ s'.inits p = true) : XmitReady s' := by
  intro q hmay
  rcases eq_or_ne q p with rfl | hne
  · exact hself hmay
  · rw [Driver.ups, Driver.inits, up_of_life (hlife q hne), initDone_of_life (hlife q hne)]
    exact h q ((mayXmit_congr (hlife q hne) (hlinks q hne)).symm.trans hmay)

theorem close (h : XmitReady s) (hwf : Wf plat s) (hp : p ∈ plat.ports)
    (hcall : nssDpClose plat s p env = .ok (ret, s')) :
    XmitReady s' ∧ (s'.dev p).mayXmit = false := by
  have hrun := nssDpClose_run hwf hp hcall
  have hlinks := nssDpClose_links hwf hp hcall
  have hcarrier : (s'.dev p).link.carrierOk = false := by
    have hlink := congrFun hlinks p
    rw [Function.update_self] at hlink
    rw [← Driver.links, hlink]
    rfl
  have hmay := mayXmit_eq_false hrun.queueStopped hcarrier
  refine ⟨h.of_others p (fun q hq => hrun.others hq) (fun q hq => ?_) fun hmay' => ?_, hmay⟩
  · rw [hlinks, Function.update_of_ne hq]
  · cases hmay.symm.trans hmay'

/-- An open leaves a port up and initialised, or without a carrier and its queue as it was. -/
theorem «open» (h : XmitReady s) (hwf : Wf plat s) (hp : p ∈ plat.ports)
    (hnot : (s.dev p).mayXmit = false) (hcall : nssDpOpen plat s p env = .ok (ret, s')) :
    XmitReady s' ∧ (ret = .ok → s'.ups p = true ∧ s'.inits p = true) := by
  have hrun := nssDpOpen_run hwf hp hcall
  have hlinks := nssDpOpen_links hcall
  have hothers : ∀ q, q ≠ p → s'.links q = s.links q := fun q hq => by
    rw [hlinks, Function.update_of_ne hq]
  cases hinit : s.initOk plat p env with
  | true =>
    have hboth : s'.ups p = true ∧ s'.inits p = true := by
      rw [hrun.ups, hrun.inits, hinit, if_pos rfl, if_pos rfl, Function.update_self,
        Function.update_self]
      exact ⟨rfl, rfl⟩
    exact ⟨h.of_others p (fun q hq => hrun.others hq) hothers fun _ => hboth, fun _ => hboth⟩
  | false =>
    obtain ⟨rfl, hlife⟩ := hrun.life_of_initFailed hinit
    have hcarrier : (s'.dev p).netdev.carrierOk = false := by
      have hlink := congrArg PortLink.carrierOk (congrFun hlinks p)
      rw [Function.update_self] at hlink
      exact hlink
    refine ⟨h.of_others p (fun q hq => hrun.others hq) hothers fun hmay => ?_, fun hret =>
      nomatch hret⟩
    rw [NssDpDev.mayXmit, hcarrier, running_of_life hlife, queueStopped_of_life hlife,
      Bool.or_false, Bool.and_eq_true] at hmay
    rw [NssDpDev.mayXmit, hmay.1, hmay.2] at hnot
    cases hnot

/-- Nothing is sent to a port between its stop and the end of an override or a restore. -/
theorem modify (h : XmitReady s) (hnot : (s.dev p).mayXmit = false) {f : NssDpDev → NssDpDev}
    (hf : ∀ d, (f d).mayXmit = d.mayXmit) :
    XmitReady (s.modify p f) ∧ ((s.modify p f).dev p).mayXmit = false := by
  have hself : ((s.modify p f).dev p).mayXmit = false := by rw [modify_dev_self, hf, hnot]
  refine ⟨h.of_others p (fun q hq => ?_) (fun q hq => ?_) fun hmay => ?_, hself⟩
  · rw [modify_dev_of_ne hq]
  · rw [Driver.links, modify_dev_of_ne hq]
    rfl
  · cases hself.symm.trans hmay

theorem stop (h : XmitReady s) (hwf : Wf plat s) (hp : p ∈ plat.ports)
    (hcall : stopIfUp plat s p env = .ok s') : XmitReady s' ∧ (s'.dev p).mayXmit = false := by
  unfold stopIfUp at hcall
  split at hcall
  · obtain ⟨⟨ret, m⟩, hm, rfl⟩ := Except.map_eq_ok_iff.mp hcall
    obtain ⟨hready, hmay⟩ := h.close hwf hp hm
    exact hready.modify hmay fun _ => rfl
  · rename_i hup
    cases hcall
    refine ⟨h, ?_⟩
    rw [← Bool.not_eq_true]
    exact fun hmay => hup (h p hmay).1

theorem deinitOnce (h : XmitReady s) (hnot : (s.dev p).mayXmit = false)
    (hcall : deinitOnce plat s p dpc env = .ok (ok, s')) :
    XmitReady s' ∧ (s'.dev p).mayXmit = false := by
  unfold NssDp.deinitOnce at hcall
  split at hcall
  · obtain ⟨⟨ok', c⟩, hc, heq⟩ := Except.map_eq_ok_iff.mp hcall
    cases heq
    have hlife := (callback_called hc).life
    have hlinks := callback_links hc
    have hself := (mayXmit_congr (hlife p) (congrFun hlinks p)).trans hnot
    have hready : XmitReady c := h.of_others p (fun q _ => hlife q) (fun q _ => congrFun hlinks q)
      fun hmay => by cases hself.symm.trans hmay
    split
    · exact hready.modify hself fun _ => rfl
    · exact ⟨hready, hself⟩
  · cases hcall
    exact ⟨h, hnot⟩

theorem install (h : XmitReady s) (hnot : (s.dev p).mayXmit = false) {ops : DataPlaneOps} :
    XmitReady (s.install p dpc ops) :=
  (h.modify (f := fun d => { d with
    dpc
    dataPlaneOps := ops }) hnot fun _ => rfl).1

/-- The kernel takes a port as closed, or as open where `nss_dp_open` has succeeded. -/
theorem setRunning (h : XmitReady s) {b : Bool}
    (hb : b = true → s.ups p = true ∧ s.inits p = true) :
    XmitReady (s.setRunning p b) := by
  refine h.of_others p (fun q hq => congrArg _ (setRunning_dev_of_ne hq b)) (fun q hq => ?_)
    fun hmay => ?_
  · rw [Driver.links, Driver.links, setRunning_dev_of_ne hq]
  · rw [setRunning_ups, setRunning_inits]
    rw [NssDpDev.mayXmit, Driver.setRunning, Driver.modifyNetdev, modify_dev_self,
      Bool.and_eq_true] at hmay
    exact hb hmay.1

theorem portCall {c : PortCall} (h : XmitReady s) (hwf : Wf plat s) (henabled : c.enabled plat s)
    (hcall : portCall plat s c = .ok s') : XmitReady s' := by
  have hp := henabled.1
  cases c with
  | devOpen p env =>
    obtain ⟨⟨ret, m⟩, hm, rfl⟩ := Except.map_eq_ok_iff.mp hcall
    have hidle : (s.dev p).mayXmit = false := by
      rw [NssDpDev.mayXmit, henabled.2]
      rfl
    obtain ⟨hready, hboth⟩ := h.open hwf hp hidle hm
    exact hready.setRunning fun hret => hboth (of_decide_eq_true hret)
  | devClose p env =>
    obtain ⟨⟨ret, m⟩, hm, rfl⟩ := Except.map_eq_ok_iff.mp hcall
    exact (h.close hwf hp hm).1.setRunning fun hb => nomatch hb
  | override p id missing dpc env =>
    obtain ⟨⟨ret, m⟩, hm, rfl⟩ := Except.map_eq_ok_iff.mp hcall
    unfold nssDpOverrideDataPlane at hm
    split at hm
    · cases hm
      exact h
    obtain ⟨m', hm', hm⟩ := Except.bind_eq_ok_iff.mp hm
    obtain ⟨hready, hnot⟩ := h.stop hwf hp hm'
    rcases orReturn_eq_ok hm with ⟨hdeinit, -⟩ | ⟨c, hdeinit, hm⟩
    · exact (hready.deinitOnce hnot hdeinit).1
    · cases hm
      obtain ⟨hready', hnot'⟩ := hready.deinitOnce hnot hdeinit
      exact hready'.install hnot'
  | start p dpc env =>
    simp only [NssDp.portCall, nssDpStartDataPlane] at hcall
    split at hcall
    · cases hcall
      exact h
    rename_i hup
    split at hcall
    · cases hcall
      exact h
    obtain ⟨⟨ret, m⟩, hm, rfl⟩ := Except.map_eq_ok_iff.mp hcall
    have hidle : (s.dev p).mayXmit = false := by
      rw [← Bool.not_eq_true]
      exact fun hmay => hup (h p hmay).1
    exact (h.open hwf hp hidle hm).1
  | restore p env =>
    obtain ⟨m, hm, rfl⟩ := Except.map_eq_ok_iff.mp hcall
    obtain ⟨hready, hnot⟩ := h.stop hwf hp hm
    exact hready.install hnot

end XmitReady

theorem XmitEffect.wf (h : XmitEffect s p ok s') (hwf : Wf plat s) : Wf plat s' := by
  refine ⟨fun q => ?_, fun q hq => by rw [h.ctx, hwf.ctx q hq], fun q => ?_⟩
  · obtain ⟨stopped, hlife, -⟩ := h.life q
    exact (congrArg PortLife.macid hlife).trans (hwf.macid q)
  · obtain ⟨stopped, hlife, -⟩ := h.life q
    have hops := congrArg PortLife.dataPlaneOps hlife
    have hdpc := congrArg PortLife.dpc hlife
    exact fun hedma => hdpc.trans (hwf.edma q (hops.symm.trans hedma))

theorem XmitEffect.ups (h : XmitEffect s p ok s') : s'.ups = s.ups := by
  funext q
  obtain ⟨stopped, hlife, -⟩ := h.life q
  exact congrArg PortLife.up hlife

theorem XmitEffect.inits (h : XmitEffect s p ok s') : s'.inits = s.inits := by
  funext q
  obtain ⟨stopped, hlife, -⟩ := h.life q
  exact congrArg PortLife.initDone hlife

theorem XmitEffect.sameOps (h : XmitEffect s p ok s') : SameOps s s' := by
  intro q
  obtain ⟨stopped, hlife, -⟩ := h.life q
  exact congrArg PortLife.dataPlaneOps hlife

theorem XmitEffect.planes {ok : Bool} (h : XmitEffect s p ok s') : s'.planes = s.planes := by
  funext q
  obtain ⟨stopped, hlife, -⟩ := h.life q
  have hops : (s'.dev q).dataPlaneOps = (s.dev q).dataPlaneOps :=
    congrArg PortLife.dataPlaneOps hlife
  have hdpc : (s'.dev q).dpc = (s.dev q).dpc := congrArg PortLife.dpc hlife
  rw [Driver.planes, hops, hdpc]
  rfl

theorem XmitEffect.mayXmit (h : XmitEffect s p ok s') (q : Nat)
    (hmay : (s'.dev q).mayXmit = true) : (s.dev q).mayXmit = true := by
  obtain ⟨stopped, hlife, hstopped⟩ := h.life q
  have hrunning : (s'.dev q).netdev.running = (s.dev q).netdev.running :=
    congrArg PortLife.running hlife
  have hqueue : (s'.dev q).netdev.queueStopped = stopped := congrArg PortLife.queueStopped hlife
  have hcarrier : (s'.dev q).netdev.carrierOk = (s.dev q).netdev.carrierOk :=
    congrArg PortLink.carrierOk (congrFun h.links q)
  rw [NssDpDev.mayXmit, hrunning, hqueue, hcarrier] at hmay
  rw [NssDpDev.mayXmit]
  cases hold : (s.dev q).netdev.queueStopped with
  | true => rwa [hstopped hold] at hmay
  | false =>
    rw [Bool.and_eq_true] at hmay
    rw [hmay.1]
    rfl

theorem TrafficInv.xmit (h : TrafficInv plat s) (hdone : (s.dev p).initDone = true)
    (heffect : XmitEffect s p ok s') : TrafficInv plat s' := by
  refine ⟨heffect.wf h.wf, ⟨?_, ?_⟩, fun q hq => ?_⟩
  · rw [heffect.inits]
    refine h.track.tracks.others _ (fun e he q ops => ?_) heffect.sameOps heffect.history
    rw [List.mem_singleton.mp he]
    exact ⟨rfl, rfl⟩
  · rw [heffect.history, okFrom_concat]
    exact ⟨h.track.ordered, (h.track.isInit_eq p).trans hdone⟩
  · rw [heffect.ups, heffect.inits]
    exact h.ready q (heffect.mayXmit q hq)

/-- A packet that reaches a data plane before its `init` makes the books wrong. -/
theorem InitTrack.xmit_wrong (h : InitTrack s) (hdone : (s.dev p).initDone = false)
    (heffect : XmitEffect s p ok s') : ¬ InitBooks plat s' := fun hbooks => by
  have hordered := hbooks.ordered
  rw [heffect.history, okFrom_concat] at hordered
  have hinit : isInit p (s.dev p).dataPlaneOps s.history = true := hordered.2
  cases (hinit.symm.trans (h.isInit_eq p)).trans hdone

/-- The poll starts a queue on which the stack had to wait. -/
theorem TrafficInv.wake (h : TrafficInv plat s) (hcarrier : (s.dev p).netdev.carrierOk = true) :
    TrafficInv plat (s.setQueueStopped p false) := by
  refine ⟨setQueueStopped_wf h.wf false, h.track.setQueueStopped false, ?_⟩
  refine h.ready.of_others p (fun q hq => congrArg _ (setQueueStopped_dev_of_ne hq false))
    (fun q _ => congrFun (setQueueStopped_links false) q) fun hmay => ?_
  rw [setQueueStopped_ups, setQueueStopped_inits]
  apply h.ready p
  rw [NssDpDev.mayXmit, Driver.setQueueStopped, Driver.modifyNetdev, modify_dev_self,
    Bool.and_eq_true] at hmay
  rw [NssDpDev.mayXmit, hmay.1, hcarrier, Bool.or_true]
  rfl

/-- When a step keeps the bits `INIT_DONE` true: packets of queue 0 always do, packets of another
    queue where the bit is set. -/
def KeepsInitDone (plat : Platform) (s : Driver) : TrafficCall → Prop
  | .port c => KeepsInit plat s c
  | .xmit p cpu _ _ _ => nssDpSelectQueue cpu = 0 ∨ (s.dev p).initDone = true
  | .wake _ => True

theorem trafficStep_init {c : TrafficCall} (h : TrafficInv plat s)
    (hstep : trafficStep plat s c = some s') :
    (KeepsInitDone plat s c ∧ TrafficInv plat s') ∨
      (¬ KeepsInitDone plat s c ∧ ¬ InitBooks plat s') := by
  cases c with
  | port c =>
    have hcall : portStep plat s c = some s' := hstep
    obtain ⟨henabled, hrun⟩ := portStep_run h.wf hcall
    rw [portStep, if_pos henabled] at hcall
    have hready := h.ready.portCall h.wf henabled (Except.toOption_eq_some_iff.mp hcall)
    exact (hrun.init h.track henabled.1).imp
      (And.imp_right fun htrack => ⟨hrun.wf h.wf, htrack, hready⟩) id
  | xmit p cpu skb env accept =>
    simp only [trafficStep] at hstep
    split at hstep
    · rename_i hsends
      obtain ⟨-, hrunning, -, hqueue⟩ := hsends
      obtain ⟨⟨ret, m⟩, hm, rfl⟩ := Except.map_eq_ok_iff.mp (Except.toOption_eq_some_iff.mp hstep)
      obtain ⟨ok, heffect⟩ := nssDpXmit_effect hm
      cases hdone : (s.dev p).initDone with
      | true => exact Or.inl ⟨Or.inr hdone, h.xmit hdone heffect⟩
      | false =>
        -- Queue 0 is stopped while the data plane is not initialised.
        have hother : nssDpSelectQueue cpu ≠ 0 := fun hzero => by
          have hmay : (s.dev p).mayXmit = true := by
            rw [NssDpDev.mayXmit, hrunning, hqueue hzero]
            rfl
          cases (h.ready p hmay).2.symm.trans hdone
        refine Or.inr ⟨fun hkeeps => ?_, h.track.xmit_wrong hdone heffect⟩
        cases (hkeeps.resolve_left hother).symm.trans hdone
    · cases hstep
  | wake p =>
    simp only [trafficStep] at hstep
    split at hstep
    · rename_i hcarrier
      cases hstep
      exact Or.inl ⟨trivial, h.wake hcarrier.2⟩
    · cases hstep

theorem Probed.trafficInv (h : Probed plat s) : TrafficInv plat s := by
  refine ⟨h.wf, ⟨fun p ops => ?_, ?_⟩, fun q hmay => ?_⟩
  · rw [h.history, Driver.inits, h.initDone]
    rfl
  · rw [h.history]
    trivial
  · rw [NssDpDev.mayXmit, h.running] at hmay
    cases hmay

end Traffic

/-- In every run of opens, closes, overrides, starts, restores and packets on the probed ports, the
    bits `INIT_DONE` are true and data planes are used while initialised exactly where every call
    keeps them so. -/
theorem trafficRun_init_iff (plat : Platform) {s u : Driver} (hprobed : Probed plat s)
    {cs : List TrafficCall} (hrun : run (trafficStep plat) s cs = some u) :
    Always (trafficStep plat) (InitBooks plat) s cs ↔
      StepsMeet (trafficStep plat) (KeepsInitDone plat) s cs := by
  refine always_iff_stepsMeet (fun _ h => h.track.books) (fun s c t h hstep => ?_)
    (fun s c t h hstep hbooks => ?_) hprobed.trafficInv hrun
  · rcases trafficStep_init h hstep with ⟨hkeeps, hinv⟩ | ⟨hnot, hwrong⟩
    · exact iff_of_true hkeeps hinv.track.books
    · exact iff_of_false hnot hwrong
  · rcases trafficStep_init h hstep with ⟨-, hinv⟩ | ⟨-, hwrong⟩
    · exact hinv
    · exact absurd hbooks hwrong

section Decide

variable (plat : Platform) (s : Driver)

instance decidableInitOk (pre : List DpEvent) : ∀ e, Decidable (InitOk pre e)
  | .call p ops _ .open _ | .call p ops _ .xmit _ =>
    inferInstanceAs (Decidable (isInit p ops pre = true))
  | .install p old new _ => inferInstanceAs (Decidable (old = new ∨ isInit p old pre = false))
  | .call _ _ _ .init _ | .call _ _ _ .close _ | .call _ _ _ .linkState _
  | .call _ _ _ .macAddr _ | .call _ _ _ .changeMtu _ | .call _ _ _ .setFeatures _
  | .call _ _ _ .pauseOnOff _ | .call _ _ _ .vsiAssign _ | .call _ _ _ .vsiUnassign _
  | .call _ _ _ .rxFlowSteer _ | .call _ _ _ .getStats _ | .call _ _ _ .deinit _
  | .edmaFreed _ _ _ => isTrue trivial

instance : Decidable (InitBooks plat s) :=
  decidable_of_iff ((∀ p ∈ plat.ports,
      (s.dev p).initDone = isInit p (s.dev p).dataPlaneOps s.history) ∧
      OkFrom InitOk [] s.history)
    ⟨fun ⟨hdone, hordered⟩ => ⟨hdone, hordered⟩, fun h => ⟨h.initDone, h.ordered⟩⟩

instance decidableKeepsInitDone : ∀ c, Decidable (KeepsInitDone plat s c)
  | .port (.override p _ missing _ env) => inferInstanceAs (Decidable (MissesRequired missing ∨
      (s.dev p).initDone = false ∨ s.answer plat p env .deinit = true))
  | .port (.restore p _) => inferInstanceAs (Decidable
      ((s.dev p).initDone = false ∨ plat.soc.halOps = (s.dev p).dataPlaneOps))
  | .port (.devOpen _ _) | .port (.devClose _ _) | .port (.start _ _ _) | .wake _ => isTrue trivial
  | .xmit p cpu _ _ _ =>
    inferInstanceAs (Decidable (nssDpSelectQueue cpu = 0 ∨ (s.dev p).initDone = true))

end Decide

/-- Port 1 sends a packet of each of two processors through EDMA, an overlay driver takes the port
    over and is handed one, and another overlay driver follows it. -/
def handOver : List TrafficCall :=
  [.port (.devOpen 1 allOk), .xmit 1 0 (packetOf 0 []) ⟨none, 0#32⟩ true,
    .xmit 1 3 (packetOf 1 []) ⟨none, 0#32⟩ true,
    .port (.override 1 0 [] (.overlay 0 ⟨none⟩) allOk), .port (.start 1 (.overlay 0 ⟨none⟩) allOk),
    .xmit 1 0 (packetOf 2 []) ⟨none, 0#32⟩ false, .wake 1,
    .port (.override 1 1 [] (.overlay 1 ⟨none⟩) allOk), .port (.start 1 (.overlay 1 ⟨none⟩) allOk)]

theorem trafficRun_init_iff_handOver :
    Always (trafficStep ipq807x) (InitBooks ipq807x) ipq807xProbed handOver := by
  obtain ⟨u, hrun⟩ : ∃ u, run (trafficStep ipq807x) ipq807xProbed handOver = some u :=
    Option.isSome_iff_exists.mp (by decide +kernel)
  exact (trafficRun_init_iff ipq807x ipq807x_probed hrun).mpr (by decide +kernel)

/-- An overlay driver gives port 1 back, and the kernel closes and opens the interface. -/
def givenBack : List TrafficCall :=
  [.port (.devOpen 1 allOk), .port (.override 1 0 [] (.overlay 0 ⟨none⟩) allOk),
    .port (.start 1 (.overlay 0 ⟨none⟩) allOk), .port (.restore 1 allOk),
    .port (.devClose 1 allOk), .port (.devOpen 1 allOk)]

/-- The data plane of the overlay driver is never deinitialised, and EDMA is opened although it has
    been deinitialised. -/
theorem givenBack_uninit : Probed ipq807x ipq807xProbed ∧
    (∃ t, run (trafficStep ipq807x) ipq807xProbed givenBack = some t ∧
      isInit 1 (.overlay 0 []) t.history = true ∧ (t.dev 1).dataPlaneOps = .edma ∧
      isInit 1 .edma t.history = false ∧ isOpen 1 .edma t.history = true) ∧
    ¬ Always (trafficStep ipq807x) (InitBooks ipq807x) ipq807xProbed givenBack := by
  have hrun : (run (trafficStep ipq807x) ipq807xProbed givenBack).map (fun t =>
      (isInit 1 (.overlay 0 []) t.history, (t.dev 1).dataPlaneOps, isInit 1 .edma t.history,
        isOpen 1 .edma t.history)) = some (true, .edma, false, true) := by
    decide +kernel
  obtain ⟨t, ht, heq⟩ := Option.map_eq_some_iff.mp hrun
  simp only [Prod.mk.injEq] at heq
  exact ⟨ipq807x_probed, ⟨t, ht, heq⟩, by decide +kernel⟩

/-- An overlay driver takes port 1 over while the kernel has the interface open, and the second
    processor sends a packet before the overlay driver starts. -/
def sentEarly : List TrafficCall :=
  [.port (.devOpen 1 allOk), .port (.override 1 0 [] (.overlay 0 ⟨none⟩) allOk),
    .xmit 1 1 (packetOf 0 []) ⟨none, 0#32⟩ true]

-- The override stops queue 0, and the packet of queue 1 reaches a data plane without `init`.
example : (run (trafficStep ipq807x) ipq807xProbed sentEarly).map (fun t =>
    ((t.dev 1).netdev.queueStopped, (t.dev 1).dataPlaneOps, (t.dev 1).initDone,
      decide (InitBooks ipq807x t))) = some (true, .overlay 0 [], false, false) := by
  decide +kernel

end NssDp
