import NssDp.Misc.Lts
import NssDp.Main.NetdevOps
import NssDp.Main.Proofs.Outcomes

/-!
# The link state and the carrier

A port that is up remembers the state of its link, and `nss_dp_adjust_link` returns early where
the PHY has not changed it. The carrier of the net device says the same as long as both are
written together. The value 0 of the memory, before the first event, says that the link is up.
-/

namespace NssDp

open Edma Lts

/-- What is known of the link of a port. -/
structure PortLink where
  carrierOk : Bool
  state : NssDpLinkState
  poll : Bool

def NssDpDev.link (d : NssDpDev) : PortLink := ⟨d.netdev.carrierOk, d.linkState, d.linkPoll⟩

def Driver.links (s : Driver) : Nat → PortLink := fun p => (s.dev p).link

/-- `nss_dp_adjust_link` returns without a call, as the link of the port already is in the state
    of the PHY. -/
def AlreadyThere (d : NssDpDev) (link : Bool) : Prop :=
  d.up = true ∧ ((link = true ∧ d.linkState = .up) ∨ (link = false ∧ d.linkState = .down))

/-- What the driver promises of the links of the ports that are up. -/
structure LinksAgree (plat : Platform) (s : Driver) : Prop where
  carrier : ∀ p ∈ plat.ports, (s.dev p).up = true →
    ((s.dev p).netdev.carrierOk = true ↔ (s.dev p).linkState = .up)
  early : ∀ p ∈ plat.ports, ∀ link, AlreadyThere (s.dev p) link →
    (s.dev p).netdev.carrierOk = link

/-- The calls that change the link of a port, in any order. -/
inductive LinkCall where
  | devOpen (p : Nat) (env : CallEnv)
  | devClose (p : Nat) (env : CallEnv)
  | adjustLink (p : Nat) (link : Bool) (env : CallEnv)

def LinkCall.port : LinkCall → Nat
  | .devOpen p _ | .devClose p _ | .adjustLink p _ _ => p

/-- The driver after one of these calls. -/
def linkStep (plat : Platform) (s : Driver) (c : LinkCall) : Option Driver :=
  if c.port ∈ plat.ports then
    match c with
    | .devOpen p env => ((nssDpOpen plat s p env).map Prod.snd).toOption
    | .devClose p env => ((nssDpClose plat s p env).map Prod.snd).toOption
    | .adjustLink p link env => (nssDpAdjustLink plat s p link env).toOption
  else none

section Links

variable {plat : Platform} {s s' : Driver} {p : Nat} {dpc : DpcPtr} {env : CallEnv}
  {cb : DpCallback} {ok : Bool} {ret : DevRet}

theorem modify_links {f : NssDpDev → NssDpDev} (hf : (f (s.dev p)).link = (s.dev p).link) :
    (s.modify p f).links = s.links := by
  funext q
  rw [Driver.links, modify_dev]
  split
  · rename_i h
    rw [hf, h, Driver.links]
  · rfl

theorem setCarrier_links (b : Bool) : (s.setCarrier p b).links =
    Function.update s.links p { s.links p with carrierOk := b } := by
  funext q
  rw [Driver.links, Driver.setCarrier, Driver.modifyNetdev, modify_dev, Function.update_apply]
  split <;> rfl

theorem setLinkState_links (l : NssDpLinkState) : (s.setLinkState p l).links =
    Function.update s.links p { s.links p with state := l } := by
  funext q
  rw [Driver.links, Driver.setLinkState, modify_dev, Function.update_apply]
  split <;> rfl

theorem setUp_links (b : Bool) : (s.setUp p b).links = s.links := modify_links rfl

theorem setQueueStopped_links (b : Bool) : (s.setQueueStopped p b).links = s.links :=
  modify_links (f := fun d => { d with netdev := { d.netdev with queueStopped := b } }) rfl

/-- No callback touches a link. -/
theorem callback_links (h : s.callback plat p dpc env cb = .ok (ok, s')) : s'.links = s.links := by
  by_cases hops : (s.dev p).dataPlaneOps = .edma
  · obtain ⟨r, hr, -, rfl⟩ := callback_edma hops h
    cases cb with
    | init =>
      obtain ⟨q, -, rfl⟩ := Option.map_eq_some_iff.mp hr
      refine modify_links (s := s) (f := fun d => { d with netdev := (edmaIfInit plat.soc s.edmaHw
        (s.dev q).netdev env.irq).2.2 }) ?_
      rw [edmaIfInit_netdev]
      rfl
    | «open» | close | deinit =>
      obtain ⟨e, -, rfl⟩ := Option.map_eq_some_iff.mp hr
      rfl
    | xmit | getStats => cases hr
    | _ =>
      cases hr
      rfl
  · obtain ⟨-, rfl⟩ := callback_other hops h
    unfold otherDataPlane
    split
    · exact modify_links (s := s) (f := fun d => { d with features := env.features }) rfl
    · rfl

/-- A callback that is only called with PPE support. -/
theorem ppeCallback_links {m : Driver}
    (h : (if plat.soc.ppeSupport then m.ownCallback plat p env cb else .ok (true, m)) =
      .ok (ok, s')) : s'.links = m.links := by
  split at h
  · exact callback_links h
  · cases h
    rfl

theorem initOnce_links (h : initOnce plat s p env = .ok (ok, s')) : s'.links = s.links := by
  unfold initOnce at h
  split at h
  · cases h
    rfl
  · obtain ⟨⟨ok', c⟩, hcall, heq⟩ := Except.map_eq_ok_iff.mp h
    cases heq
    rw [← callback_links hcall]
    split
    · exact modify_links rfl
    · rfl

/-- What `nss_dp_open` leaves of the link: a failure leaves the memory as it was. -/
def openLink (ret : DevRet) (l : PortLink) : PortLink :=
  if ret = .ok then { l with
    carrierOk := !l.poll
    state := if l.poll then .down else .up }
  else { l with carrierOk := false }

theorem openLink_polled {l : PortLink} (h : l.poll = true) :
    openLink .ok l = { l with
      carrierOk := false
      state := .down } := by
  simp [openLink, h]

theorem openLink_unpolled {l : PortLink} (h : l.poll = false) :
    openLink .ok l = { l with
      carrierOk := true
      state := .up } := by
  simp [openLink, h]

theorem nssDpOpen_links (h : nssDpOpen plat s p env = .ok (ret, s')) :
    s'.links = Function.update s.links p (openLink ret (s.links p)) := by
  have hfail {m : Driver} (hm : m.links = (s.setCarrier p false).links) {err : DevRet}
      (herr : err ≠ .ok) : m.links = Function.update s.links p (openLink err (s.links p)) := by
    rw [hm, setCarrier_links, openLink, if_neg herr]
  unfold nssDpOpen at h
  rcases orReturn_eq_ok h with ⟨hcall, rfl⟩ | ⟨m, hcall, h⟩
  · exact hfail (initOnce_links hcall) (by simp)
  have hm := initOnce_links hcall
  obtain ⟨⟨_, m₀⟩, hfeatures, h⟩ := Except.bind_eq_ok_iff.mp h
  have hm₀ : (m₀.setUp p true).links = (s.setCarrier p false).links :=
    (setUp_links true).trans ((callback_links hfeatures).trans hm)
  rcases orReturn_eq_ok h with ⟨hvsi, rfl⟩ | ⟨m₁, hvsi, h⟩
  · exact hfail ((ppeCallback_links hvsi).trans hm₀) (by simp)
  have hm₁ := (ppeCallback_links hvsi).trans hm₀
  rcases orReturn_eq_ok h with ⟨hmac, rfl⟩ | ⟨m₂, hmac, h⟩
  · exact hfail ((callback_links hmac).trans hm₁) (by simp)
  have hm₂ := (callback_links hmac).trans hm₁
  rcases orReturn_eq_ok h with ⟨hmtu, rfl⟩ | ⟨m₃, hmtu, h⟩
  · exact hfail ((callback_links hmtu).trans hm₂) (by simp)
  have hm₃ := (callback_links hmtu).trans hm₂
  rcases orReturn_eq_ok h with ⟨hcall, rfl⟩ | ⟨c, hcall, h⟩
  · exact hfail ((callback_links hcall).trans hm₃) (by simp)
  have hc : (c.setQueueStopped p false).links =
      Function.update s.links p { s.links p with carrierOk := false } := by
    rw [setQueueStopped_links, callback_links hcall, hm₃, setCarrier_links]
  have hpoll : ((c.setQueueStopped p false).dev p).linkPoll = (s.links p).poll := by
    have hlink := congrArg PortLink.poll (congrFun hc p)
    rw [Function.update_self] at hlink
    exact hlink
  dsimp only at h
  rw [hpoll] at h
  split at h
  · rename_i hpolled
    cases h
    rw [setLinkState_links, hc, Function.update_self, Function.update_idem, openLink_polled hpolled]
  rename_i hpolled
  rw [Bool.not_eq_true] at hpolled
  rcases orReturn_eq_ok h with ⟨hlink, rfl⟩ | ⟨c', hlink, h⟩
  · refine hfail ?_ (by simp)
    rw [callback_links hlink, hc, setCarrier_links]
  · cases h
    rw [setCarrier_links, setLinkState_links, callback_links hlink, hc, Function.update_self,
      Function.update_idem, Function.update_self, Function.update_idem, openLink_unpolled hpolled]

/-- What `nss_dp_close` leaves of the link. -/
def closeLink (told : Bool) (l : PortLink) : PortLink :=
  { l with
    carrierOk := false
    state := if told then .down else l.state }

theorem nssDpClose_links (hwf : Wf plat s) (hp : p ∈ plat.ports)
    (h : nssDpClose plat s p env = .ok (ret, s')) :
    s'.links = Function.update s.links p
      (closeLink (s.answer plat p env .linkState) (s.links p)) := by
  have hstart : ((s.setQueueStopped p true).setCarrier p false).links =
      Function.update s.links p { s.links p with carrierOk := false } := by
    rw [setCarrier_links, setQueueStopped_links]
  have hwf₀ : Wf plat ((s.setQueueStopped p true).setCarrier p false) :=
    (Quiet.setCarrier false).wf (setQueueStopped_wf hwf true)
  have hanswer {ok : Bool} {m : Driver} (hc : ((s.setQueueStopped p true).setCarrier p
      false).ownCallback plat p env .linkState = .ok (ok, m)) :
      s.answer plat p env .linkState = ok := by
    rw [ownCallback_answer hwf₀ hp (by simp) hc, (Quiet.setCarrier false).answer,
      setQueueStopped_answer]
  unfold nssDpClose at h
  dsimp only at h
  rcases orReturn_eq_ok h with ⟨hlink, rfl⟩ | ⟨m₁, hlink, h⟩
  · rw [callback_links hlink, hstart, hanswer hlink]
    rfl
  have hm₁ : (m₁.setLinkState p .down).links =
      Function.update s.links p (closeLink true (s.links p)) := by
    rw [setLinkState_links, callback_links hlink, hstart, Function.update_self,
      Function.update_idem]
    rfl
  rw [hanswer hlink, ← hm₁]
  rcases orReturn_eq_ok h with ⟨hvsi, rfl⟩ | ⟨m₂, hvsi, h⟩
  · exact ppeCallback_links hvsi
  rcases orReturn_eq_ok h with ⟨hcall, rfl⟩ | ⟨c, hcall, h⟩
  · exact (callback_links hcall).trans (ppeCallback_links hvsi)
  · cases h
    exact (setUp_links false).trans ((callback_links hcall).trans (ppeCallback_links hvsi))

/-- The carrier says what is remembered. -/
def PortLink.Agrees (l : PortLink) : Prop := l.carrierOk = true ↔ l.state = .up

theorem agrees_off {l : PortLink} (hoff : l.carrierOk = false) : l.Agrees ↔ l.state = .down := by
  rw [PortLink.Agrees, hoff]
  cases l.state <;> simp

theorem linksAgree_iff :
    LinksAgree plat s ↔ ∀ q ∈ plat.ports, s.ups q = true → (s.links q).Agrees := by
  refine ⟨fun h => h.carrier, fun h => ⟨h, fun q hq link hthere => ?_⟩⟩
  have hagrees := h q hq hthere.1
  rcases hthere.2 with ⟨rfl, hstate⟩ | ⟨rfl, hstate⟩
  · exact hagrees.mpr hstate
  · rw [← Bool.not_eq_true]
    intro hcarrier
    cases hstate.symm.trans (hagrees.mp hcarrier)

/-- A call on one port only matters for its link. -/
theorem LinksAgree.update (h : LinksAgree plat s) (hp : p ∈ plat.ports) {b : Bool} {l : PortLink}
    (hups : s'.ups = Function.update s.ups p b) (hlinks : s'.links = Function.update s.links p l) :
    LinksAgree plat s' ↔ (b = true → l.Agrees) := by
  rw [linksAgree_iff, hups, hlinks]
  constructor
  · intro hall
    have hself := hall p hp
    rwa [Function.update_self, Function.update_self] at hself
  · intro hself q hq
    rcases eq_or_ne q p with rfl | hne
    · rwa [Function.update_self, Function.update_self]
    · rw [Function.update_of_ne hne, Function.update_of_ne hne]
      exact linksAgree_iff.mp h q hq

/-- What holds besides along the way: a port that is up is initialised. -/
structure LinkInv (plat : Platform) (s : Driver) : Prop where
  wf : Wf plat s
  inits : ∀ q, s.ups q = true → s.inits q = true
  agree : LinksAgree plat s

/-- When `nss_dp_open` keeps the link state and the carrier together: it goes through to the end,
    or what is remembered is that the link is down. -/
def OpenKeepsLink (plat : Platform) (s : Driver) (p : Nat) (env : CallEnv) : Prop :=
  s.initOk plat p env = true → (s.dev p).linkState = .down ∨
    (s.reachesOpen plat p env = true ∧ s.answer plat p env .open = true ∧
      ((s.dev p).linkPoll || s.answer plat p env .linkState) = true)

/-- When `nss_dp_close` does: a data plane that is told that the link is going down agrees, or the
    link is down. -/
def CloseKeepsLink (plat : Platform) (s : Driver) (p : Nat) (env : CallEnv) : Prop :=
  (s.dev p).up = true → (s.dev p).linkState = .up → s.answer plat p env .linkState = true

def KeepsLink (plat : Platform) (s : Driver) : LinkCall → Prop
  | .devOpen p env => OpenKeepsLink plat s p env
  | .devClose p env => CloseKeepsLink plat s p env
  | .adjustLink _ _ _ => True

theorem openLink_agrees : (openLink ret (s.links p)).Agrees ↔
    ret = .ok ∨ (s.dev p).linkState = .down := by
  by_cases hret : ret = .ok
  · refine iff_of_true ?_ (Or.inl hret)
    subst hret
    cases hpoll : (s.links p).poll with
    | true => simp [openLink_polled hpoll, PortLink.Agrees]
    | false => simp [openLink_unpolled hpoll, PortLink.Agrees]
  · rw [openLink, if_neg hret, agrees_off rfl, or_iff_right hret]
    rfl

theorem open_keepsLink (h : LinkInv plat s) (hp : p ∈ plat.ports)
    (hcall : nssDpOpen plat s p env = .ok (ret, s')) :
    (OpenKeepsLink plat s p env ↔ LinksAgree plat s') ∧
      (LinksAgree plat s' → LinkInv plat s') := by
  have hrun := nssDpOpen_run h.wf hp hcall
  have hlinks := nssDpOpen_links hcall
  have hups := hrun.ups
  have hinits := hrun.inits
  cases hinit : s.initOk plat p env with
  | false =>
    obtain ⟨hdone, -⟩ := Bool.or_eq_false_iff.mp hinit
    have hdown : s.ups p = false := by
      by_contra hup
      have hdone' := h.inits p (by simpa using hup)
      cases hdone.symm.trans hdone'
    rw [hinit, if_neg Bool.false_ne_true] at hups hinits
    have hagree : LinksAgree plat s' := by
      refine (h.agree.update hp (b := false) (l := openLink ret (s.links p)) ?_ hlinks).mpr
        fun hup => nomatch hup
      rw [hups, Function.update_eq_self_iff.mpr hdown.symm]
    refine ⟨iff_of_true (fun hok => ?_) hagree, fun _ => ⟨hrun.wf h.wf, fun q => ?_, hagree⟩⟩
    · rw [hinit] at hok
      cases hok
    · rw [hups, hinits]
      exact h.inits q
  | true =>
    rw [hinit, if_pos rfl] at hups hinits
    refine ⟨?_, fun hagree => ⟨hrun.wf h.wf, fun q => ?_, hagree⟩⟩
    swap
    · rw [hups, hinits]
      rcases eq_or_ne q p with rfl | hne
      · rw [Function.update_self, Function.update_self]
        exact id
      · rw [Function.update_of_ne hne, Function.update_of_ne hne]
        exact h.inits q
    rw [h.agree.update hp hups hlinks, openLink_agrees, OpenKeepsLink, hinit]
    simp only [forall_const]
    rw [or_comm]
    apply or_congr_left
    cases hrun with
    | initFailed hinit' => cases hinit.symm.trans hinit'
    | aborted _ _ hreach => simp [hreach]
    | failed _ _ _ hanswer => simp [hanswer]
    | opened _ _ hreach hanswer _ _ _ hret =>
      rw [hret, hreach, hanswer]
      simp

theorem closeLink_agrees {told : Bool} : (closeLink told (s.links p)).Agrees ↔
    ((s.dev p).linkState = .up → told = true) := by
  rw [agrees_off rfl, closeLink, Driver.links, NssDpDev.link]
  cases told <;> cases (s.dev p).linkState <;> simp

theorem close_keepsLink (h : LinkInv plat s) (hp : p ∈ plat.ports)
    (hcall : nssDpClose plat s p env = .ok (ret, s')) :
    (CloseKeepsLink plat s p env ↔ LinksAgree plat s') ∧
      (LinksAgree plat s' → LinkInv plat s') := by
  have hrun := nssDpClose_run h.wf hp hcall
  have hlinks := nssDpClose_links h.wf hp hcall
  have hups := hrun.ups
  have hinits := hrun.inits
  cases hclosed : s.reachesClose plat p env && s.answer plat p env .close with
  | true =>
    rw [hclosed, if_pos rfl] at hups
    obtain ⟨hreach, -⟩ := (Bool.and_eq_true _ _).mp hclosed
    have hanswer : s.answer plat p env .linkState = true := by
      rw [Driver.reachesClose, Bool.and_eq_true] at hreach
      exact hreach.1
    have hagree := (h.agree.update hp hups hlinks).mpr fun hup => absurd hup Bool.false_ne_true
    refine ⟨iff_of_true (fun _ _ => hanswer) hagree, fun _ => ⟨hrun.wf h.wf, fun q => ?_, hagree⟩⟩
    rw [hups, hinits]
    rcases eq_or_ne q p with rfl | hne
    · rw [Function.update_self]
      intro hup
      exact absurd hup Bool.false_ne_true
    · rw [Function.update_of_ne hne]
      exact h.inits q
  | false =>
    rw [hclosed, if_neg Bool.false_ne_true] at hups
    refine ⟨?_, fun hagree => ⟨hrun.wf h.wf, fun q => ?_, hagree⟩⟩
    swap
    · rw [hups, hinits]
      exact h.inits q
    have hself : s'.ups = Function.update s.ups p (s.ups p) := by
      rw [hups, Function.update_eq_self]
    rw [h.agree.update hp hself hlinks, closeLink_agrees]
    exact Iff.rfl

/-- Where the link changes, its memory and its carrier are written together. -/
theorem LinkInv.moved {m : Driver} {l : NssDpLinkState} {b : Bool} (h : LinkInv plat s)
    (hp : p ∈ plat.ports) (hcall : s.ownCallback plat p env .linkState = .ok (ok, m))
    (hboth : b = true ↔ l = .up) : LinkInv plat ((m.setLinkState p l).setCarrier p b) := by
  have hcalled := callback_called hcall
  have hmoved : Quiet m ((m.setLinkState p l).setCarrier p b) :=
    (Quiet.setLinkState l).trans (Quiet.setCarrier b)
  have hups : ((m.setLinkState p l).setCarrier p b).ups = s.ups := hmoved.ups.trans hcalled.ups
  refine ⟨hmoved.wf (hcalled.wf h.wf), fun q => ?_, ?_⟩
  · rw [hups, hmoved.inits, hcalled.inits]
    exact h.inits q
  · refine (h.agree.update (b := s.ups p) (l := ⟨b, l, (s.links p).poll⟩) hp ?_ ?_).mpr
      fun _ => hboth
    · rw [hups, Function.update_eq_self]
    · rw [setCarrier_links, setLinkState_links, callback_links hcall, Function.update_self,
        Function.update_idem]

theorem LinkInv.called {m : Driver} (h : LinkInv plat s)
    (hcall : s.ownCallback plat p env .linkState = .ok (ok, m)) : LinkInv plat m := by
  have hcalled := callback_called hcall
  refine ⟨hcalled.wf h.wf, fun q => ?_, linksAgree_iff.mpr fun q hq => ?_⟩
  · rw [hcalled.ups, hcalled.inits]
    exact h.inits q
  · rw [hcalled.ups, callback_links hcall]
    exact linksAgree_iff.mp h.agree q hq

theorem adjustLink_inv {link : Bool} (h : LinkInv plat s) (hp : p ∈ plat.ports)
    (hcall : nssDpAdjustLink plat s p link env = .ok s') : LinkInv plat s' := by
  unfold nssDpAdjustLink at hcall
  dsimp only at hcall
  split at hcall
  · cases hcall
    exact h
  split at hcall
  · cases hcall
    exact h
  split at hcall
  · cases hcall
    exact h
  split at hcall
  · obtain ⟨⟨ok, m⟩, hm, rfl⟩ := Except.map_eq_ok_iff.mp hcall
    dsimp only
    split
    · exact h.moved hp hm (by simp)
    · exact h.called hm
  · obtain ⟨⟨ok, m⟩, hm, rfl⟩ := Except.map_eq_ok_iff.mp hcall
    dsimp only
    split
    · exact h.moved hp hm (by simp)
    · exact h.called hm

/-- One call: it keeps the link state and the carrier together exactly where it meets its
    condition. -/
theorem linkStep_keeps {c : LinkCall} (h : LinkInv plat s) (hstep : linkStep plat s c = some s') :
    (KeepsLink plat s c ↔ LinksAgree plat s') ∧ (LinksAgree plat s' → LinkInv plat s') := by
  unfold linkStep at hstep
  split at hstep
  swap
  · cases hstep
  rename_i hp
  cases c with
  | devOpen p env =>
    obtain ⟨⟨ret, m⟩, hm, rfl⟩ := Except.map_eq_ok_iff.mp (Except.toOption_eq_some_iff.mp hstep)
    exact open_keepsLink h hp hm
  | devClose p env =>
    obtain ⟨⟨ret, m⟩, hm, rfl⟩ := Except.map_eq_ok_iff.mp (Except.toOption_eq_some_iff.mp hstep)
    exact close_keepsLink h hp hm
  | adjustLink p link env =>
    have hinv := adjustLink_inv h hp (Except.toOption_eq_some_iff.mp hstep)
    exact ⟨iff_of_true trivial hinv.agree, fun _ => hinv⟩

theorem linkInv_of_down (hwf : Wf plat s) (hdown : ∀ q, (s.dev q).up = false) :
    LinkInv plat s := by
  refine ⟨hwf, fun q hup => ?_, linksAgree_iff.mpr fun q _ hup => ?_⟩
  · rw [Driver.ups, hdown] at hup
    cases hup
  · rw [Driver.ups, hdown] at hup
    cases hup

end Links

/-- In every run of opens, closes and PHY events on ports that are down, as they are when they
    have been probed, the carrier of each port that is up says what is remembered of its link
    exactly where every open and every close meets its condition. -/
theorem linkRun_agrees_iff (plat : Platform) {s u : Driver} (hwf : Wf plat s)
    (hdown : ∀ p, (s.dev p).up = false) {cs : List LinkCall}
    (hrun : run (linkStep plat) s cs = some u) :
    Always (linkStep plat) (LinksAgree plat) s cs ↔
      StepsMeet (linkStep plat) (KeepsLink plat) s cs :=
  always_iff_stepsMeet (fun _ h => h.agree) (fun _ _ _ h hstep => (linkStep_keeps h hstep).1)
    (fun _ _ _ h hstep => (linkStep_keeps h hstep).2) (linkInv_of_down hwf hdown) hrun

section Decide

variable (plat : Platform) (s : Driver)

instance (d : NssDpDev) (link : Bool) : Decidable (AlreadyThere d link) := by
  unfold AlreadyThere
  infer_instance

instance : Decidable (LinksAgree plat s) :=
  decidable_of_iff (∀ q ∈ plat.ports, s.ups q = true →
    ((s.links q).carrierOk = true ↔ (s.links q).state = .up)) linksAgree_iff.symm

instance (p : Nat) (env : CallEnv) : Decidable (OpenKeepsLink plat s p env) := by
  unfold OpenKeepsLink
  infer_instance

instance (p : Nat) (env : CallEnv) : Decidable (CloseKeepsLink plat s p env) := by
  unfold CloseKeepsLink
  infer_instance

instance decidableKeepsLink : ∀ c, Decidable (KeepsLink plat s c)
  | .devOpen p env => inferInstanceAs (Decidable (OpenKeepsLink plat s p env))
  | .devClose p env => inferInstanceAs (Decidable (CloseKeepsLink plat s p env))
  | .adjustLink _ _ _ => isTrue trivial

end Decide

/-- The driver after the probes, with a PHY that is polled on port 1. -/
def polledProbed : Driver := ipq807xProbed.modify 1 fun d => { d with linkPoll := true }

theorem polledProbed_probed : Probed ipq807x polledProbed := by
  have hdev (p : Nat) : (polledProbed.dev p).life = { (ipq807xProbed.dev p).life with
      linkPoll := (polledProbed.dev p).linkPoll } := by
    rw [polledProbed, modify_dev]
    split
    · rename_i h
      rw [h]
      rfl
    · rfl
  obtain ⟨hup, hdone, hrunning, hmacid, hops, hdpc, hctx, hcommon, hactive, hnapi, hadded, hcnt,
    hhistory⟩ := ipq807x_probed
  exact ⟨fun p => (congrArg PortLife.up (hdev p)).trans (hup p),
    fun p => (congrArg PortLife.initDone (hdev p)).trans (hdone p),
    fun p => (congrArg PortLife.running (hdev p)).trans (hrunning p),
    fun p => (congrArg PortLife.macid (hdev p)).trans (hmacid p),
    fun p => (congrArg PortLife.dataPlaneOps (hdev p)).trans (hops p),
    fun p => (congrArg PortLife.dpc (hdev p)).trans (hdpc p), hctx, hcommon, hactive, hnapi, hadded,
    hcnt, hhistory⟩

/-- The port is opened, its PHY comes up, goes down and comes up again, the port is closed, and
    fails to open once. -/
def linkTour : List LinkCall :=
  [.devOpen 1 allOk, .adjustLink 1 true allOk, .adjustLink 1 false allOk, .adjustLink 1 true allOk,
    .devClose 1 allOk, .devOpen 1 { allOk with fal := false }, .adjustLink 1 true allOk]

theorem linkRun_agrees_iff_tour :
    Always (linkStep ipq807x) (LinksAgree ipq807x) polledProbed linkTour := by
  obtain ⟨u, hrun⟩ : ∃ u, run (linkStep ipq807x) polledProbed linkTour = some u :=
    Option.isSome_iff_exists.mp (by decide +kernel)
  exact (linkRun_agrees_iff ipq807x polledProbed_probed.wf polledProbed_probed.up hrun).mpr
    (by decide +kernel)

/-- The first open of the port fails after the port is up. -/
def firstOpenFails : List LinkCall := [.devOpen 1 { allOk with fal := false }]

/-- The PHY comes up, but `nss_dp_adjust_link` takes the link as up already, and the carrier stays
    off. -/
theorem firstOpenFails_dead : Probed ipq807x polledProbed ∧
    (∃ t, run (linkStep ipq807x) polledProbed firstOpenFails = some t ∧
      AlreadyThere (t.dev 1) true ∧ (t.dev 1).netdev.carrierOk = false) ∧
    ¬ Always (linkStep ipq807x) (LinksAgree ipq807x) polledProbed firstOpenFails := by
  have hrun : (run (linkStep ipq807x) polledProbed firstOpenFails).map (fun t =>
      (decide (AlreadyThere (t.dev 1) true), (t.dev 1).netdev.carrierOk)) =
      some (true, false) := by
    decide +kernel
  obtain ⟨t, ht, heq⟩ := Option.map_eq_some_iff.mp hrun
  obtain ⟨hthere, hcarrier⟩ := Prod.mk.inj heq
  exact ⟨polledProbed_probed, ⟨t, ht, of_decide_eq_true hthere, hcarrier⟩, by decide +kernel⟩

end NssDp
