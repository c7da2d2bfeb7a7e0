import NssDp.Misc.Lts
import NssDp.Misc.Except
import NssDp.Main.Probe

/-!
# What a failed probe leaves behind

A probe that fails frees its net device, and by then may have stored it in the context of its
data plane, initialised the MAC and connected the PHY. A removal frees the net devices of all
ports. The question is what still refers to a net device that is freed, and which HAL and PHY
have not been given back.
-/

namespace NssDp.Probe

open Lts

variable {soc : Soc}

/-- Nothing refers to a net device, its HAL has exited if it was initialised, and its PHY has been
    disconnected if it was connected. -/
structure Clean (netdev : Nat) (s : ProbeCtx soc) : Prop where
  nssDp : ∀ i dev, s.nssDp i = some dev → dev.netdev ≠ netdev
  dpcDev : ∀ i, s.dpcDev i ≠ some netdev
  hal : .halExit netdev ∈ s.events ↔ .halInit netdev ∈ s.events
  phy : .phyDisconnect netdev ∈ s.events ↔ .phyConnect netdev ∈ s.events

/-- A net device is registered, and its port is in `dp_global_ctx` under its number. -/
def Registered (netdev : Nat) (s : ProbeCtx soc) : Prop :=
  .registerNetdev netdev ∈ s.events ∧
    ∃ dev, s.nssDp dev.pdata.index = some dev ∧ dev.netdev = netdev

/-- A probe is all or nothing: it returns, with the port registered, or with an error and nothing
    left of the net device. -/
def ProbeClean (s : ProbeCtx soc) (env : ProbeEnv) : Prop :=
  ∃ ret t, nssDpProbe s env = .ok (ret, t) ∧
    ((ret = 0 ∧ Registered s.netdevs t) ∨ (ret ≠ 0 ∧ Clean s.netdevs t))

/-- A removal returns, and has freed every net device with nothing left of it. -/
def RemoveClean (s : ProbeCtx soc) : Prop :=
  ∃ t, nssDpRemove s = .ok t ∧ ∀ n < t.netdevs, .freeNetdev n ∈ t.events ∧ Clean n t

/-- What follows the HAL's `init` succeeds. -/
structure Connects (env : ProbeEnv) (pdata : PlatData soc) : Prop where
  phy : pdata.linkPoll = true → nssDpMdioAttach env.mdio = true ∧ env.phyConnect = true
  vsi : soc.ppeSupport = true → env.vsi.isSome = true
  register : env.registerNetdev = true

/-- What follows `nss_dp_of_get_pdata` succeeds: the build has a HAL of that type, which is
    initialised, and the port is connected and registered. -/
def NothingFails (env : ProbeEnv) (pdata : PlatData soc) : Prop :=
  (∃ ops, nssDpHalGetGmacOps (nssDpHalInit soc) pdata.mactype = .ok (some ops) ∧
    ops.init env.halInit = true) ∧ Connects env pdata

/-- Once there is a net device and `nss_dp_of_get_pdata` accepts the node, nothing fails. -/
def ProbeCleanWhen (soc : Soc) (env : ProbeEnv) : Prop :=
  env.allocEtherdev = true → ∀ pdata : PlatData soc,
    nssDpOfGetPdata soc env.node env.randomAddr = some pdata → NothingFails env pdata

/-- The call is a probe that succeeds. -/
def ProbeSucceeds (s : ProbeCtx soc) (call : BusCall) : Prop :=
  ∃ env t, call = .probe env ∧ nssDpProbe s env = .ok (0, t)

/-- From `s` to `t` the tables are the same, and what has happened is about one net device. -/
structure Extends (netdev : Nat) (s t : ProbeCtx soc) : Prop where
  nssDp : t.nssDp = s.nssDp
  dpcDev : t.dpcDev = s.dpcDev
  netdevs : t.netdevs = s.netdevs
  events : ∃ es, t.events = s.events ++ es ∧ ∀ e ∈ es, e.netdev = netdev

/-- A probe that goes wrong after the HAL has been looked up. -/
def Fails (netdev : Nat) (s : ProbeCtx soc) (r : Except ProbeFault (Int × ProbeCtx soc)) : Prop :=
  (∃ fault, r = .error fault) ∨ ∃ t, r = .ok (eFault, t) ∧ Extends netdev s t

/-- A probe that succeeds. -/
def Done (netdev : Nat) (pdata : PlatData soc) (s : ProbeCtx soc)
    (r : Except ProbeFault (Int × ProbeCtx soc)) : Prop :=
  ∃ dev t, r = .ok (0, t) ∧ dev.netdev = netdev ∧ dev.pdata = pdata ∧
    Extends netdev (s.setNssDp pdata.index (some dev)) t ∧ .registerNetdev netdev ∈ t.events

section Probe

variable {s t u : ProbeCtx soc} {netdev : Nat} {env : ProbeEnv} {pdata : PlatData soc}
  {ops : GmacHal} {r : Except ProbeFault (Int × ProbeCtx soc)}

theorem Extends.refl (netdev : Nat) (s : ProbeCtx soc) : Extends netdev s s :=
  ⟨rfl, rfl, rfl, [], (List.append_nil _).symm, fun _ he => absurd he List.not_mem_nil⟩

theorem Extends.emit (s : ProbeCtx soc) {e : ProbeEvent} (he : e.netdev = netdev) :
    Extends netdev s (s.emit [e]) := by
  refine ⟨rfl, rfl, rfl, [e], rfl, fun e' he' => ?_⟩
  rw [List.mem_singleton.mp he', he]

theorem Extends.trans (h : Extends netdev s t) (h' : Extends netdev t u) : Extends netdev s u := by
  obtain ⟨es, hes, hall⟩ := h.events
  obtain ⟨es', hes', hall'⟩ := h'.events
  refine ⟨h'.nssDp.trans h.nssDp, h'.dpcDev.trans h.dpcDev, h'.netdevs.trans h.netdevs,
    es ++ es', ?_, ?_⟩
  · rw [hes', hes, List.append_assoc]
  · exact fun e he => (List.mem_append.mp he).elim (hall e) (hall' e)

theorem Extends.setNssDp (h : Extends netdev s t) (i : Fin soc.maxPorts)
    (dev : Option (ProbedDev soc)) : Extends netdev (s.setNssDp i dev) (t.setNssDp i dev) := by
  refine ⟨?_, h.dpcDev, h.netdevs, h.events⟩
  rw [ProbeCtx.setNssDp, ProbeCtx.setNssDp, h.nssDp]

/-- The label `fail` frees the net device. -/
theorem Fails.fail (s : ProbeCtx soc) (netdev : Nat) : Fails netdev s (.ok (s.fail netdev)) :=
  Or.inr ⟨_, rfl, Extends.emit s rfl⟩

theorem Fails.of_extends (h : Extends netdev s t) (hfails : Fails netdev t r) :
    Fails netdev s r :=
  hfails.imp_right fun ⟨u, hu, hext⟩ => ⟨u, hu, h.trans hext⟩

theorem Done.of_extends (h : Extends netdev s t) (hdone : Done netdev pdata t r) :
    Done netdev pdata s r := by
  obtain ⟨dev, u, hu, hnetdev, hpdata, hext, hreg⟩ := hdone
  exact ⟨dev, u, hu, hnetdev, hpdata, (h.setNssDp _ _).trans hext, hreg⟩

theorem registerPort_cases (s : ProbeCtx soc) (dev : ProbedDev soc) (ok : Bool) :
    (ok = true ∧ Done dev.netdev dev.pdata s (registerPort s dev ok)) ∨
      (ok = false ∧ Fails dev.netdev s (registerPort s dev ok)) := by
  unfold registerPort
  cases ok with
  | true =>
    have hext : Extends dev.netdev s (s.emit [.registerNetdev dev.netdev]) := Extends.emit s rfl
    refine Or.inl ⟨rfl, dev, _, rfl, rfl, rfl, ?_, ?_⟩
    · obtain ⟨hnssDp, hdpcDev, hnetdevs, hevents⟩ := hext.setNssDp dev.pdata.index (some dev)
      exact ⟨hnssDp, hdpcDev, hnetdevs, hevents⟩
    · exact List.mem_append_right _ (List.mem_singleton_self _)
  | false =>
    refine Or.inr ⟨rfl, ?_⟩
    simp only [Bool.false_eq_true, if_false]
    split
    · exact Fails.of_extends (Extends.emit s rfl) (Fails.fail _ _)
    · exact Or.inl ⟨_, rfl⟩

theorem connectPort_cases (s : ProbeCtx soc) (netdev : Nat) (pdata : PlatData soc) (ops : GmacHal)
    (env : ProbeEnv) :
    (Connects env pdata ∧ Done netdev pdata s (connectPort s netdev pdata ops env)) ∨
      (¬ Connects env pdata ∧ Fails netdev s (connectPort s netdev pdata ops env)) := by
  unfold connectPort
  by_cases hmdio : (pdata.linkPoll && !nssDpMdioAttach env.mdio) = true
  · rw [if_pos hmdio]
    rw [Bool.and_eq_true, Bool.not_eq_true'] at hmdio
    refine Or.inr ⟨fun h => ?_, Fails.fail _ _⟩
    exact Bool.false_ne_true (hmdio.2.symm.trans (h.phy hmdio.1).1)
  rw [if_neg hmdio]
  by_cases hphy : (pdata.linkPoll && !env.phyConnect) = true
  · rw [if_pos hphy]
    rw [Bool.and_eq_true, Bool.not_eq_true'] at hphy
    refine Or.inr ⟨fun h => ?_, Fails.fail _ _⟩
    exact Bool.false_ne_true (hphy.2.symm.trans (h.phy hphy.1).2)
  rw [if_neg hphy]
  have hconnected : pdata.linkPoll = true →
      nssDpMdioAttach env.mdio = true ∧ env.phyConnect = true := by
    intro hpoll
    simpa [hpoll] using And.intro hmdio hphy
  have hext : Extends netdev s (if pdata.linkPoll then s.emit [.phyConnect netdev] else s) := by
    split
    · exact Extends.emit s rfl
    · exact Extends.refl netdev s
  dsimp only
  generalize (if pdata.linkPoll then s.emit [.phyConnect netdev] else s) = m at hext ⊢
  cases hvsi : (if soc.ppeSupport then env.vsi else some 0) with
  | none =>
    refine Or.inr ⟨fun h => ?_, Fails.of_extends hext (Fails.fail _ _)⟩
    split at hvsi
    · next hppe =>
      have hsome := h.vsi hppe
      rw [hvsi] at hsome
      cases hsome
    · cases hvsi
  | some vsi =>
    have hvsi' : soc.ppeSupport = true → env.vsi.isSome = true := by
      intro hppe
      rw [if_pos hppe] at hvsi
      rw [hvsi]
      rfl
    rcases registerPort_cases m ⟨netdev, pdata, soc.halOps, ops, pdata.linkPoll, vsi⟩
        env.registerNetdev with ⟨hreg, hdone⟩ | ⟨hreg, hfails⟩
    · exact Or.inl ⟨⟨hconnected, hvsi', hreg⟩, hdone.of_extends hext⟩
    · refine Or.inr ⟨fun h => ?_, hfails.of_extends hext⟩
      exact Bool.false_ne_true (hreg.symm.trans h.register)

/-- The state in which a probe looks its HAL up: the net device is in its context. -/
def stored (s : ProbeCtx soc) (pdata : PlatData soc) : ProbeCtx soc :=
  { s with netdevs := s.netdevs + 1 }.setDpcDev pdata.index s.netdevs

/-- How a probe ends. -/
theorem nssDpProbe_cases (s : ProbeCtx soc) (env : ProbeEnv) :
    (env.allocEtherdev = false ∧ nssDpProbe s env = .ok (eNoMem, s)) ∨
    (nssDpOfGetPdata soc env.node env.randomAddr = none ∧
      nssDpProbe s env = .ok ({ s with netdevs := s.netdevs + 1 }.fail s.netdevs)) ∨
    (env.allocEtherdev = true ∧ ∃ pdata : PlatData soc,
      nssDpOfGetPdata soc env.node env.randomAddr = some pdata ∧
      ((NothingFails env pdata ∧ Done s.netdevs pdata (stored s pdata) (nssDpProbe s env)) ∨
        (¬ NothingFails env pdata ∧ Fails s.netdevs (stored s pdata) (nssDpProbe s env)))) := by
  unfold nssDpProbe
  cases halloc : env.allocEtherdev with
  | false => exact Or.inl ⟨rfl, rfl⟩
  | true =>
    simp only [Bool.not_true, Bool.false_eq_true, if_false]
    cases hpdata : nssDpOfGetPdata soc env.node env.randomAddr with
    | none => exact Or.inr (Or.inl ⟨rfl, rfl⟩)
    | some pdata =>
      refine Or.inr (Or.inr ⟨trivial, pdata, rfl, ?_⟩)
      simp only [stored]
      generalize ProbeCtx.setDpcDev _ pdata.index s.netdevs = m
      cases hops : nssDpHalGetGmacOps (nssDpHalInit soc) pdata.mactype with
      | error fault =>
        refine Or.inr ⟨?_, Or.inl ⟨fault, rfl⟩⟩
        rintro ⟨⟨ops, hsome, -⟩, -⟩
        cases hops.symm.trans hsome
      | ok found =>
        cases found with
        | none =>
          refine Or.inr ⟨?_, Fails.fail _ _⟩
          rintro ⟨⟨ops, hsome, -⟩, -⟩
          cases hops.symm.trans hsome
        | some ops =>
          have hhal : (∃ o, nssDpHalGetGmacOps (nssDpHalInit soc) pdata.mactype = .ok (some o) ∧
              o.init env.halInit = true) ↔ ops.init env.halInit = true := by
            rw [hops]
            simp
          dsimp only
          rw [NothingFails, hhal]
          by_cases hinit : ops.init env.halInit = true
          · rw [if_pos hinit, and_iff_right hinit]
            have hext : Extends s.netdevs m (m.emit [.halInit s.netdevs]) := Extends.emit m rfl
            exact (connectPort_cases _ _ pdata ops env).imp
              (fun h => ⟨h.1, h.2.of_extends hext⟩) fun h => ⟨h.1, h.2.of_extends hext⟩
          · rw [if_neg hinit]
            exact Or.inr ⟨fun h => hinit h.1, Fails.fail _ _⟩

end Probe

/-- What is in the tables and in the history has been allocated. -/
structure Numbered (s : ProbeCtx soc) : Prop where
  nssDp : ∀ i dev, s.nssDp i = some dev → dev.netdev < s.netdevs
  dpcDev : ∀ i n, s.dpcDev i = some n → n < s.netdevs
  events : ∀ e ∈ s.events, e.netdev < s.netdevs

section Numbered

variable {s t : ProbeCtx soc} {netdev : Nat} {env : ProbeEnv} {pdata : PlatData soc}

theorem Numbered.of_extends (h : Numbered s) (hnetdev : netdev < s.netdevs)
    (hext : Extends netdev s t) : Numbered t := by
  obtain ⟨es, hes, hall⟩ := hext.events
  refine ⟨fun i dev hdev => ?_, fun i n hn => ?_, fun e he => ?_⟩
  · rw [hext.netdevs]
    exact h.nssDp i dev (hext.nssDp ▸ hdev)
  · rw [hext.netdevs]
    exact h.dpcDev i n (hext.dpcDev ▸ hn)
  · rw [hext.netdevs]
    rcases List.mem_append.mp (hes ▸ he) with hold | hnew
    · exact h.events e hold
    · rwa [hall e hnew]

/-- One more net device. -/
theorem Numbered.alloc (h : Numbered s) : Numbered { s with netdevs := s.netdevs + 1 } :=
  ⟨fun i dev hdev => Nat.lt_succ_of_lt (h.nssDp i dev hdev),
    fun i n hn => Nat.lt_succ_of_lt (h.dpcDev i n hn),
    fun e he => Nat.lt_succ_of_lt (h.events e he)⟩

theorem Numbered.stored (h : Numbered s) (pdata : PlatData soc) : Numbered (stored s pdata) := by
  refine ⟨h.alloc.nssDp, fun i n hn => ?_, h.alloc.events⟩
  rw [Probe.stored, ProbeCtx.setDpcDev_dpcDev] at hn
  split at hn
  · cases hn
    exact Nat.lt_succ_self _
  · exact h.alloc.dpcDev i n hn

theorem Numbered.setNssDp (h : Numbered s) (i : Fin soc.maxPorts) {dev : Option (ProbedDev soc)}
    (hdev : ∀ d, dev = some d → d.netdev < s.netdevs) : Numbered (s.setNssDp i dev) := by
  refine ⟨fun j d hd => ?_, h.dpcDev, h.events⟩
  rw [ProbeCtx.setNssDp_nssDp] at hd
  split at hd
  · exact hdev d hd
  · exact h.nssDp j d hd

theorem Numbered.probe (h : Numbered s) {ret : Int} (hprobe : nssDpProbe s env = .ok (ret, t)) :
    Numbered t := by
  rcases nssDpProbe_cases s env with ⟨-, heq⟩ | ⟨-, heq⟩ |
    ⟨-, pdata, -, ⟨-, dev, u, heq, hnetdev, -, hext, -⟩ | ⟨-, ⟨fault, heq⟩ | ⟨u, heq, hext⟩⟩⟩
  · cases heq.symm.trans hprobe
    exact h
  · cases heq.symm.trans hprobe
    exact h.alloc.of_extends (Nat.lt_succ_self _) (Extends.emit _ rfl)
  · cases heq.symm.trans hprobe
    refine ((h.stored pdata).setNssDp pdata.index fun d hd => ?_).of_extends
      (Nat.lt_succ_self _) hext
    rw [← Option.some.inj hd, hnetdev]
    exact Nat.lt_succ_self _
  · cases heq.symm.trans hprobe
  · cases heq.symm.trans hprobe
    exact (h.stored pdata).of_extends (Nat.lt_succ_self _) hext

/-- What a turn of the removal does. -/
theorem removePort_ok {i : Fin soc.maxPorts} (h : removePort s i = .ok t) :
    t = s ∨ ∃ dev m, s.nssDp i = some dev ∧ Extends dev.netdev s m ∧ t = m.setNssDp i none := by
  unfold removePort at h
  cases hdev : s.nssDp i with
  | none =>
    rw [hdev] at h
    cases h
    exact Or.inl rfl
  | some dev =>
    rw [hdev] at h
    dsimp only at h
    split at h
    · cases h
      refine Or.inr ⟨dev, _, rfl, ?_, rfl⟩
      have hphy : Extends dev.netdev s
          (if dev.phydev then s.emit [.phyDisconnect dev.netdev] else s) := by
        split
        · exact Extends.emit s rfl
        · exact Extends.refl _ s
      refine (hphy.trans (Extends.emit _ rfl)).trans ⟨rfl, rfl, rfl, _, rfl, fun e he => ?_⟩
      rcases List.mem_pair.mp he with rfl | rfl <;> rfl
    · cases h

/-- A removal leaves the net devices in their contexts. -/
theorem removeLoop_ok : ∀ {is : List (Fin soc.maxPorts)} {s t : ProbeCtx soc},
    removeLoop s is = .ok t → Numbered s →
      Numbered t ∧ t.dpcDev = s.dpcDev ∧ t.netdevs = s.netdevs := by
  intro is
  induction is with
  | nil =>
    intro s t h hs
    cases h
    exact ⟨hs, rfl, rfl⟩
  | cons i is ih =>
    intro s t h hs
    obtain ⟨m, hm, hrest⟩ := Except.bind_eq_ok_iff.mp h
    rcases removePort_ok hm with rfl | ⟨dev, m', hdev, hext, rfl⟩
    · exact ih hrest hs
    · have hm' : Numbered m' := hs.of_extends (hs.nssDp i dev hdev) hext
      obtain ⟨ht, hdpcDev, hnetdevs⟩ := ih hrest (hm'.setNssDp i fun d hd => by cases hd)
      exact ⟨ht, hdpcDev.trans hext.dpcDev, hnetdevs.trans hext.netdevs⟩

theorem numbered_start : Numbered (.start soc) where
  nssDp := fun _ _ h => nomatch h
  dpcDev := fun _ _ h => nomatch h
  events := fun _ h => absurd h List.not_mem_nil

theorem Numbered.step {call : BusCall} (h : Numbered s) (hstep : busStep s call = some t) :
    Numbered t := by
  cases call with
  | probe env =>
    obtain ⟨r, hr, rfl⟩ := Option.map_eq_some_iff.mp hstep
    exact h.probe (Except.toOption_eq_some_iff.mp hr)
  | remove => exact (removeLoop_ok (Except.toOption_eq_some_iff.mp hstep) h).1

end Numbered

section Clean

variable {s t : ProbeCtx soc} {netdev : Nat} {env : ProbeEnv}

/-- The next net device is not known before it is allocated. -/
theorem Numbered.clean (h : Numbered s) : Clean s.netdevs s := by
  have hnot : ∀ e : ProbeEvent, e.netdev = s.netdevs → e ∉ s.events :=
    fun e he hmem => absurd (h.events e hmem) (by omega)
  refine ⟨fun i dev hdev heq => ?_, fun i hi => ?_, ?_, ?_⟩
  · exact absurd (h.nssDp i dev hdev) (by omega)
  · exact absurd (h.dpcDev i _ hi) (Nat.lt_irrefl _)
  · exact iff_of_false (hnot _ rfl) (hnot _ rfl)
  · exact iff_of_false (hnot _ rfl) (hnot _ rfl)

theorem Clean.freeNetdev (h : Clean netdev s) : Clean netdev (s.emit [.freeNetdev netdev]) := by
  refine ⟨h.nssDp, h.dpcDev, ?_, ?_⟩
  · simpa [ProbeCtx.emit] using h.hal
  · simpa [ProbeCtx.emit] using h.phy

/-- A net device that is in its context is not clean. -/
theorem not_clean {i : Fin soc.maxPorts} (h : s.dpcDev i = some netdev) : ¬ Clean netdev s :=
  fun hclean => hclean.dpcDev i h

theorem stored_dpcDev (s : ProbeCtx soc) (pdata : PlatData soc) :
    (stored s pdata).dpcDev pdata.index = some s.netdevs := by
  rw [stored, ProbeCtx.setDpcDev_dpcDev, if_pos rfl]

/-- A probe that is done has the port registered, and in both tables. -/
theorem Done.registered {pdata : PlatData soc}
    (h : Done netdev pdata s (.ok (0, t))) : Registered netdev t ∧
      ∃ dev, t.nssDp pdata.index = some dev ∧ t.dpcDev = s.dpcDev ∧ t.netdevs = s.netdevs := by
  obtain ⟨dev, u, heq, hnetdev, hpdata, hext, hreg⟩ := h
  cases heq
  have hdev : t.nssDp pdata.index = some dev := by
    rw [hext.nssDp, ProbeCtx.setNssDp_nssDp, if_pos rfl]
  exact ⟨⟨hreg, dev, hpdata.symm ▸ hdev, hnetdev⟩, dev, hdev, hext.dpcDev, hext.netdevs⟩

/-- When a probe is all or nothing. -/
theorem Numbered.probeClean_iff (h : Numbered s) (env : ProbeEnv) :
    ProbeClean s env ↔ ProbeCleanWhen soc env := by
  unfold ProbeClean ProbeCleanWhen
  rcases nssDpProbe_cases s env with ⟨halloc, heq⟩ | ⟨hnone, heq⟩ |
    ⟨halloc, pdata, hpdata, ⟨hnothing, hdone⟩ | ⟨hsome, hfails⟩⟩
  · refine iff_of_true ⟨_, _, heq, Or.inr ⟨by decide, h.clean⟩⟩ ?_
    exact fun halloc' => absurd (halloc.symm.trans halloc') Bool.false_ne_true
  · refine iff_of_true ⟨_, _, heq, Or.inr ⟨by decide, ?_⟩⟩ ?_
    · obtain ⟨hnssDp, hdpcDev, hhal, hphy⟩ := h.clean
      exact Clean.freeNetdev ⟨hnssDp, hdpcDev, hhal, hphy⟩
    · exact fun _ pdata hpdata => by cases hnone.symm.trans hpdata
  · refine iff_of_true ?_ fun _ pdata' hpdata' => ?_
    · obtain ⟨dev, t, heq, -⟩ := id hdone
      exact ⟨0, t, heq, Or.inl ⟨rfl, (heq ▸ hdone).registered.1⟩⟩
    · cases hpdata.symm.trans hpdata'
      exact hnothing
  · refine iff_of_false ?_ fun hall => hsome (hall halloc pdata hpdata)
    rintro ⟨ret, t, heq, hends⟩
    rcases hfails with ⟨fault, herror⟩ | ⟨u, hok, hext⟩
    · cases herror.symm.trans heq
    · cases hok.symm.trans heq
      have hdpcDev : t.dpcDev pdata.index = some s.netdevs := by
        rw [hext.dpcDev, stored_dpcDev]
      rcases hends with ⟨hret, -⟩ | ⟨-, hclean⟩
      · exact absurd hret (by decide)
      · exact not_clean hdpcDev hclean

/-- A port is in both tables. -/
def HasPort (s : ProbeCtx soc) : Prop :=
  ∃ i n, s.dpcDev i = some n ∧ n < s.netdevs

/-- So it is after every probe that succeeds. -/
theorem HasPort.probe (hprobe : nssDpProbe s env = .ok (0, t)) : HasPort t := by
  rcases nssDpProbe_cases s env with ⟨-, heq⟩ | ⟨-, heq⟩ |
    ⟨-, pdata, -, ⟨-, hdone⟩ | ⟨-, ⟨fault, heq⟩ | ⟨u, heq, -⟩⟩⟩
  · cases heq.symm.trans hprobe
  · cases heq.symm.trans hprobe
  · rw [hprobe] at hdone
    obtain ⟨-, dev, -, hdpcDev, hnetdevs⟩ := hdone.registered
    refine ⟨pdata.index, s.netdevs, ?_, ?_⟩
    · rw [hdpcDev, stored_dpcDev]
    · rw [hnetdevs]
      exact Nat.lt_succ_self _
  · cases heq.symm.trans hprobe
  · cases heq.symm.trans hprobe

/-- The removal of a port leaves its net device in its context. -/
theorem HasPort.not_removeClean (h : HasPort s) (hs : Numbered s) : ¬ RemoveClean s := by
  rintro ⟨t, hremove, hclean⟩
  obtain ⟨i, n, hn, hlt⟩ := h
  obtain ⟨-, hdpcDev, hnetdevs⟩ := removeLoop_ok hremove hs
  refine not_clean (?_ : t.dpcDev i = some n) (hclean n (hnetdevs.symm ▸ hlt)).2
  rw [hdpcDev, hn]

/-- Where there is no port, nothing is done. -/
theorem removeLoop_start : ∀ is : List (Fin soc.maxPorts),
    removeLoop (.start soc) is = .ok (.start soc) := by
  intro is
  induction is with
  | nil => rfl
  | cons i is ih => exact ih

theorem removeClean_start : RemoveClean (.start soc) :=
  ⟨_, removeLoop_start _, fun n hn => absurd hn (Nat.not_lt_zero n)⟩

/-- After a run of probes that succeed, and at least one, there is a port. -/
theorem hasPort_of_succeeds : ∀ {calls : List BusCall} {s t : ProbeCtx soc}, Numbered s →
    run busStep s calls = some t → StepsMeet busStep ProbeSucceeds s calls →
      (calls ≠ [] ∨ HasPort s) → HasPort t := by
  intro calls
  induction calls with
  | nil =>
    intro s t _ hrun _ hport
    cases hrun
    exact hport.resolve_left fun hne => hne rfl
  | cons call calls ih =>
    intro s t hs hrun hmeet _
    obtain ⟨m, hm, hrest⟩ := run_cons_some.mp hrun
    rw [stepsMeet_cons_some hm] at hmeet
    obtain ⟨⟨env, m', rfl, hprobe⟩, hmeet'⟩ := hmeet
    have heq : m' = m := by
      rw [busStep, hprobe] at hm
      exact Option.some.inj hm
    rw [heq] at hprobe
    exact ih (hs.step hm) hrest hmeet' (Or.inr (HasPort.probe hprobe))

/-- In every state that probes and removals reach, a probe is all or nothing just when nothing fails
    once the node is accepted; and after probes that all succeed a removal is clean just when there
    were none. -/
theorem busRun_clean_iff {calls : List BusCall} (hrun : run busStep (.start soc) calls = some s) :
    (∀ env, ProbeClean s env ↔ ProbeCleanWhen soc env) ∧
      (StepsMeet busStep ProbeSucceeds (.start soc) calls → (RemoveClean s ↔ calls = [])) := by
  have hs : Numbered s := run_inv (fun _ _ _ hs hstep => Numbered.step hs hstep) numbered_start hrun
  refine ⟨hs.probeClean_iff, fun hmeet => ⟨fun hclean => ?_, ?_⟩⟩
  · by_contra hne
    exact (hasPort_of_succeeds numbered_start hrun hmeet (Or.inl hne)).not_removeClean hs hclean
  · rintro rfl
    cases hrun
    exact removeClean_start

end Clean

/-- A node with a `qcom,id` and a `qcom,mactype`, whose link is polled, and a probe of it in which
    nothing fails. -/
def probeOk (qcomId qcomMactype : BitVec 32) : ProbeEnv where
  allocEtherdev := true
  node := {
    qcomId := some qcomId
    qcomMactype := some qcomMactype
    resource := some (0x39C00000, 0x10000)
    phyMode := 0
    linkPoll := true
    phyMdioAddr := some 7
    forcedSpeed := none
    forcedDuplex := none
    macAddress := none }
  randomAddr := ⟨2, 0, 0, 0, 0, 1⟩
  halInit := ⟨true, true, true, true⟩
  mdio := ⟨some true, false, false, none⟩
  phyConnect := true
  vsi := some 1
  registerNetdev := true

/-- Both ports of IPQ50xx are probed; the first is there when the second is. -/
theorem busRun_clean_iff_probed : ∃ s : ProbeCtx .ipq50xx,
    run busStep (.start .ipq50xx) [.probe (probeOk 1 2)] = some s ∧ ProbeClean s (probeOk 2 2) ∧
      ¬ RemoveClean s := by
  have hrun : ∃ s : ProbeCtx .ipq50xx,
      run busStep (.start .ipq50xx) [.probe (probeOk 1 2)] = some s := ⟨_, rfl⟩
  obtain ⟨s, hrun⟩ := hrun
  obtain ⟨hprobe, hremove⟩ := busRun_clean_iff hrun
  refine ⟨s, hrun, (hprobe _).mpr ?_, fun hclean => ?_⟩
  · rintro - pdata hpdata
    cases hpdata
    exact ⟨⟨.synGmac, rfl, rfl⟩, fun _ => ⟨rfl, rfl⟩, fun _ => rfl, rfl⟩
  · have hsucceeds : StepsMeet busStep ProbeSucceeds (.start .ipq50xx) [.probe (probeOk 1 2)] :=
      ⟨⟨_, _, rfl, rfl⟩, fun _ _ => trivial⟩
    cases (hremove hsucceeds).mp hclean

/-- The PHY cannot be connected: the context keeps the net device that is freed, and the HAL does
    not exit. The net device cannot be registered: the member `exit` of the HAL is NULL. The type of
    the MAC is one past the last: the table is read past its end. And a removal calls a member
    `exit` that is NULL, or leaves the net device in its context. -/
theorem busRun_unclean :
    ¬ ProbeClean (.start .ipq807x) { probeOk 1 0 with phyConnect := false } ∧
    ¬ ProbeClean (.start .ipq807x) { probeOk 1 0 with registerNetdev := false } ∧
    ¬ ProbeClean (.start .ipq807x) (probeOk 1 3) ∧
    (∃ s : ProbeCtx .ipq807x, nssDpProbe (.start _) (probeOk 1 0) = .ok (0, s) ∧
      nssDpRemove s = .error (.nullExit 0)) ∧
    ∃ s t : ProbeCtx .ipq50xx, nssDpProbe (.start _) (probeOk 1 2) = .ok (0, s) ∧
      nssDpRemove s = .ok t ∧ .freeNetdev 0 ∈ t.events ∧ t.dpcDev ⟨0, by decide⟩ = some 0 := by
  refine ⟨?_, ?_, ?_, ⟨_, rfl, rfl⟩, ⟨_, _, rfl, rfl, by decide, rfl⟩⟩
  · rintro ⟨ret, t, heq, ⟨hret, -⟩ | ⟨-, hclean⟩⟩
    · cases heq
      cases hret
    · cases heq
      exact hclean.dpcDev ⟨0, by decide⟩ rfl
  · rintro ⟨ret, t, heq, -⟩
    cases heq
  · rintro ⟨ret, t, heq, -⟩
    cases heq

end NssDp.Probe
