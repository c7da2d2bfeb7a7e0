import NssDp.Edma.Proofs.PollServed
import NssDp.Main.Proofs.EdmaRegistry

/-!
# What `edma_if_deinit` leaves of a port

`edma_if_deinit` takes a port neither out of the table of net devices nor the headroom of the
preheader from it, and an `edma_if_init` that fails leaves its entry behind. So the table and the
headrooms are right as long as EDMA is never taken from a port.
-/

namespace NssDp

open Edma Lts Word

namespace EdmaRegistry

/-- Every port has the headroom it came with, more by the preheader if EDMA is initialised on it,
    and is in the table exactly then. -/
structure Balanced (plat : Platform) (orig : Nat → Nat) (r : EdmaRegistry) : Prop where
  headroom : ∀ p ∈ plat.ports, r.headroom p =
    if r.inited p then u16 (orig p + edmaTxPrehdrSize) else orig p
  netdevArr : ∀ p ∈ plat.ports, r.netdevArr (p - 1) = if r.inited p then some p else none

/-- EDMA is initialised only on ports that use it, which only a SoC with EDMA has. -/
structure Inv (plat : Platform) (orig : Nat → Nat) (r : EdmaRegistry) : Prop
    extends Balanced plat orig r where
  held : ∀ p, r.inited p = true → r.initDone p = true ∧ r.onEdma p = true
  hal : ∀ p, r.onEdma p = true → plat.soc.halOps = .edma

section Steps

variable {plat : Platform} {orig : Nat → Nat} {r r' : EdmaRegistry} {p : Nat} {ok : Bool}

theorem Balanced.congr (h : Balanced plat orig r) (hheadroom : r'.headroom = r.headroom)
    (harr : r'.netdevArr = r.netdevArr) (hinited : r'.inited = r.inited) :
    Balanced plat orig r' := by
  refine ⟨?_, ?_⟩
  · rw [hheadroom, hinited]
    exact h.headroom
  · rw [harr, hinited]
    exact h.netdevArr

/-- The interrupts are granted: the port gets what is its due. -/
theorem Balanced.enter (h : Balanced plat orig r) (hp : p ∈ plat.ports)
    (hnot : r.inited p = false) : Balanced plat orig (r.enter p true) := by
  have hlow : 1 ≤ p := (Finset.mem_Icc.mp hp).1
  refine ⟨fun q hq => ?_, fun q hq => ?_⟩
  · have hold := h.headroom q hq
    simp only [EdmaRegistry.enter, if_true, Function.update_apply]
    by_cases hqp : q = p
    · subst hqp
      rw [hnot] at hold
      simp [hold]
    · simpa [hqp] using hold
  · have hold := h.netdevArr q hq
    simp only [EdmaRegistry.enter, if_true, Function.update_apply]
    by_cases hqp : q = p
    · simp [hqp]
    · have hne : q - 1 ≠ p - 1 := by
        have hlow' := (Finset.mem_Icc.mp hq).1
        omega
      simpa [hqp, hne] using hold

/-- They are refused, and the port stays in the table. -/
theorem not_balanced_enter (hp : p ∈ plat.ports) (hnot : r.inited p = false) :
    ¬ Balanced plat orig (r.enter p false) := by
  intro h
  have harr := h.netdevArr p hp
  simp [EdmaRegistry.enter, hnot] at harr

/-- `nss_dp_open` keeps the balance where there is nothing to initialise in EDMA, or it succeeds. -/
theorem Inv.initOnce (h : Inv plat orig r) (hp : p ∈ plat.ports) :
    ((r.initDone p = true ∨ r.onEdma p = false ∨ ok = true) ↔
      Balanced plat orig (r.initOnce p ok)) ∧
    (Balanced plat orig (r.initOnce p ok) → Inv plat orig (r.initOnce p ok)) := by
  rw [EdmaRegistry.initOnce]
  split
  · rename_i hdone
    exact ⟨iff_of_true (Or.inl hdone) h.toBalanced, fun _ => h⟩
  rename_i hdone
  have hnot : r.inited p = false := by
    by_contra hinited
    exact hdone (h.held p (by simpa using hinited)).1
  have hkept {q : Nat} (hq : r.inited q = true) :
      Function.update r.initDone p true q = true ∧ r.onEdma q = true := by
    have hne : q ≠ p := by
      rintro rfl
      cases hnot.symm.trans hq
    rw [Function.update_of_ne hne]
    exact h.held q hq
  cases honEdma : r.onEdma p with
  | false =>
    have hinit : r.init p ok = r := by rw [EdmaRegistry.init, honEdma, if_neg Bool.false_ne_true]
    rw [hinit]
    split
    · have hbalanced : Balanced plat orig (r.setInitDone p true) :=
        h.toBalanced.congr rfl rfl rfl
      exact ⟨iff_of_true (Or.inr (Or.inl rfl)) hbalanced, fun _ =>
        ⟨hbalanced, fun q hq => hkept hq, h.hal⟩⟩
    · exact ⟨iff_of_true (Or.inr (Or.inl rfl)) h.toBalanced, fun _ => h⟩
  | true =>
    have hinit : r.init p ok = r.enter p ok := if_pos honEdma
    rw [hinit]
    cases ok with
    | true =>
      have hbalanced : Balanced plat orig ((r.enter p true).setInitDone p true) :=
        (h.toBalanced.enter hp hnot).congr rfl rfl rfl
      refine ⟨iff_of_true (Or.inr (Or.inr rfl)) hbalanced, fun _ => ⟨hbalanced, ?_, h.hal⟩⟩
      intro q hq
      rcases eq_or_ne q p with rfl | hne
      · exact ⟨Function.update_self _ _ _, honEdma⟩
      · exact hkept ((Function.update_of_ne hne _ _).symm.trans hq)
    | false =>
      have hbroken : ¬ Balanced plat orig (r.enter p false) := not_balanced_enter hp hnot
      refine ⟨iff_of_false ?_ hbroken, fun hbalanced => absurd hbalanced hbroken⟩
      rintro (hdone' | hedma | hok)
      · exact hdone hdone'
      · cases hedma
      · cases hok

/-- An override changes neither the headroom nor the table, and nothing of the other ports. -/
structure Overridden (r : EdmaRegistry) (p : Nat) (r' : EdmaRegistry) : Prop where
  headroom : r'.headroom = r.headroom
  netdevArr : r'.netdevArr = r.netdevArr
  inited : r'.inited = Function.update r.inited p
    (r.inited p && !(r.initDone p && r.onEdma p))
  initDone : ∀ q, q ≠ p → r'.initDone q = r.initDone q
  onEdma : ∀ q, q ≠ p → r'.onEdma q = r.onEdma q
  hal : r'.onEdma p = true → r.onEdma p = true

/-- `deinit` of EDMA only ends its initialisation. -/
theorem deinit_eq : r.deinit p =
    { r with inited := Function.update r.inited p (r.inited p && !r.onEdma p) } := by
  unfold EdmaRegistry.deinit
  cases r.onEdma p with
  | true => simp
  | false => simp

theorem override_overridden : Overridden r p (r.override p ok) := by
  have hinstalled {r : EdmaRegistry} (h : (r.install p false).onEdma p = true) : False := by
    have hoff : (r.install p false).onEdma p = false := Function.update_self _ _ _
    cases hoff.symm.trans h
  have hothers {r : EdmaRegistry} {q : Nat} (hq : q ≠ p) :
      (r.install p false).onEdma q = r.onEdma q := Function.update_of_ne hq _ _
  cases hdone : r.initDone p with
  | false =>
    have hnew : r.override p ok = r.install p false := by
      simp [EdmaRegistry.override, EdmaRegistry.deinitOnce, hdone]
    rw [hnew]
    refine ⟨rfl, rfl, ?_, fun _ _ => rfl, fun q hq => hothers hq, fun h => (hinstalled h).elim⟩
    rw [hdone, Bool.false_and, Bool.not_false, Bool.and_true, Function.update_eq_self]
    rfl
  | true =>
    have hinited : (r.deinit p).inited =
        Function.update r.inited p (r.inited p && !(r.initDone p && r.onEdma p)) := by
      rw [hdone, Bool.true_and, deinit_eq]
    cases ok with
    | true =>
      have hnew : r.override p true = ((r.deinit p).setInitDone p false).install p false := by
        simp [EdmaRegistry.override, EdmaRegistry.deinitOnce, hdone]
      rw [hnew, deinit_eq]
      rw [deinit_eq] at hinited
      exact ⟨rfl, rfl, hinited, fun q hq => Function.update_of_ne hq _ _, fun q hq => hothers hq,
        fun h => (hinstalled h).elim⟩
    | false =>
      have hnew : r.override p false = r.deinit p := by
        simp [EdmaRegistry.override, EdmaRegistry.deinitOnce, hdone]
      rw [hnew, deinit_eq]
      rw [deinit_eq] at hinited
      exact ⟨rfl, rfl, hinited, fun _ _ => rfl, fun _ _ => rfl, id⟩

/-- It keeps the balance where EDMA is not initialised on the port. -/
theorem Inv.override (h : Inv plat orig r) (hp : p ∈ plat.ports) (hr : Overridden r p r') :
    (r.inited p = false ↔ Balanced plat orig r') ∧ (Balanced plat orig r' → Inv plat orig r') := by
  cases hinited : r.inited p with
  | true =>
    obtain ⟨hdone, honEdma⟩ := h.held p hinited
    have hbroken : ¬ Balanced plat orig r' := by
      intro hbalanced
      have harr := hbalanced.netdevArr p hp
      rw [hr.netdevArr, h.netdevArr p hp, hr.inited, Function.update_self, hinited, hdone,
        honEdma] at harr
      cases harr
    exact ⟨iff_of_false (by simp) hbroken, fun hbalanced => absurd hbalanced hbroken⟩
  | false =>
    have hsame : r'.inited = r.inited := by
      rw [hr.inited, hinited, Bool.false_and, ← hinited, Function.update_eq_self]
    have hbalanced : Balanced plat orig r' := h.toBalanced.congr hr.headroom hr.netdevArr hsame
    refine ⟨iff_of_true rfl hbalanced, fun _ => ⟨hbalanced, fun q hq => ?_, fun q hq => ?_⟩⟩
    · rw [hsame] at hq
      have hne : q ≠ p := by
        rintro rfl
        cases hinited.symm.trans hq
      rw [hr.initDone q hne, hr.onEdma q hne]
      exact h.held q hq
    · rcases eq_or_ne q p with rfl | hne
      · exact h.hal q (hr.hal hq)
      · exact h.hal q ((hr.onEdma q hne).symm.trans hq)

/-- A restore always does. -/
theorem Inv.restore (h : Inv plat orig r) :
    Inv plat orig (r.install p (decide (plat.soc.halOps = .edma))) := by
  refine ⟨h.toBalanced.congr rfl rfl rfl, fun q hq => ?_, fun q hq => ?_⟩
  · obtain ⟨hdone, honEdma⟩ := h.held q hq
    refine ⟨hdone, ?_⟩
    rcases eq_or_ne q p with rfl | hne
    · exact (Function.update_self _ _ _).trans (decide_eq_true (h.hal q honEdma))
    · exact (Function.update_of_ne hne _ _).trans honEdma
  · rcases eq_or_ne q p with rfl | hne
    · exact of_decide_eq_true ((Function.update_self _ _ _).symm.trans hq)
    · exact h.hal q ((Function.update_of_ne hne _ _).symm.trans hq)

end Steps

end EdmaRegistry

/-- Buffers have been handed only to ports that EDMA is initialised on, and only these have had
    their queues started. -/
structure ServesInited (history : List DpEvent) (dev dev' : EdmaPoll) : Prop where
  delivers : ∃ es, dev'.rxEvents = dev.rxEvents ++ es ∧
    ∀ e ∈ es, ∀ p, e.receiver = some p → isInit p .edma history = true
  others : ∀ p, isInit p .edma history = false → dev'.devs p = dev.devs p

/-- What EDMA keeps of a port is there as long as it is initialised on the port, and a poll with
    the table as it is now serves no other ports, however far it has come. -/
structure EdmaUndone (plat : Platform) (orig : Nat → Nat) (s : Driver) : Prop where
  headroom : ∀ p ∈ plat.ports, (s.dev p).netdev.neededHeadroom =
    if isInit p .edma s.history then u16 (orig p + edmaTxPrehdrSize) else orig p
  netdevArr : ∀ p ∈ plat.ports, s.edmaHw.netdevArr (p - 1) =
    if isInit p .edma s.history then some p else none
  poll : ∀ (virtToPhys : Nat → BitVec 32) (budget : Nat) (dev : EdmaPoll)
    (labels : List PollLabel) (t : PollRun), dev.ehw.netdevArr = s.edmaHw.netdevArr →
    run (pollStep plat.soc virtToPhys plat.soc.maxPorts budget) (.start dev) labels = some t →
    ServesInited s.history dev t.dev

/-- `nss_dp_open` runs no `edma_if_init` that fails. -/
def InitSucceeds (s : Driver) (p : Nat) (env : CallEnv) : Prop :=
  (s.dev p).initDone = true ∨ (s.dev p).dataPlaneOps ≠ .edma ∨ s.edmaHw.napiAdded = true ∨
    IrqsGranted s.edmaHw env.irq

/-- When a call leaves nothing of EDMA behind: it runs no `edma_if_init` that fails, and no
    override takes over a port that EDMA is initialised on. -/
def LeavesNothing (s : Driver) : PortCall → Prop
  | .devOpen p env => InitSucceeds s p env
  | .devClose _ _ => True
  | .override p _ missing _ _ => MissesRequired missing ∨ isInit p .edma s.history = false
  | .start p dpc env => (s.dev p).up = true ∨ (s.dev p).dpc ≠ dpc ∨ InitSucceeds s p env
  | .restore _ _ => True

section Runs

variable {plat : Platform} {orig : Nat → Nat} {s s' : Driver} {p : Nat} {env : CallEnv}

/-- The poll follows from the table. -/
theorem edmaUndone_iff : EdmaUndone plat orig s ↔ s.registry.Balanced plat orig := by
  refine ⟨fun h => ⟨h.headroom, h.netdevArr⟩, fun h => ⟨h.headroom, h.netdevArr, ?_⟩⟩
  intro virtToPhys budget dev labels t harr hrun
  have hserves := pollRun_serves hrun
  have hinited {p : Nat} (hreg : dev.ehw.Registered plat.soc.maxPorts p) :
      isInit p .edma s.history = true := by
    obtain ⟨i, hi, hentry⟩ := hreg
    have hold := h.netdevArr (i + 1) (Finset.mem_Icc.mpr ⟨by omega, hi⟩)
    rw [Nat.add_sub_cancel] at hold
    rw [harr] at hentry
    have hboth := hold.symm.trans hentry
    split at hboth
    · rename_i hin
      cases hboth
      exact hin
    · cases hboth
  obtain ⟨es, hes, hto⟩ := hserves.delivers
  refine ⟨⟨es, hes, fun e he p hp => hinited (hto e he p hp)⟩, fun p hnot => ?_⟩
  apply hserves.others
  intro hreg
  cases hnot.symm.trans (hinited hreg)

theorem initSucceeds_iff : InitSucceeds s p env ↔ s.registry.initDone p = true ∨
    s.registry.onEdma p = false ∨ s.answer plat p env .init = true := by
  have hdone : s.registry.initDone p = (s.dev p).initDone := rfl
  rw [InitSucceeds, hdone]
  by_cases hops : (s.dev p).dataPlaneOps = .edma
  · have honEdma : s.registry.onEdma p = true := decide_eq_true hops
    rw [honEdma, answer_edma hops, Driver.edmaAnswer]
    simp [hops]
  · have honEdma : s.registry.onEdma p = false := decide_eq_false hops
    simp [hops, honEdma]

/-- One call on a port. -/
theorem portStep_undone {c : PortCall} (hwf : Wf plat s) (h : s.registry.Inv plat orig)
    (hstep : portStep plat s c = some s') :
    (LeavesNothing s c ↔ EdmaUndone plat orig s') ∧
      (EdmaUndone plat orig s' → s'.registry.Inv plat orig) := by
  rw [edmaUndone_iff]
  unfold portStep at hstep
  split at hstep
  · rename_i henabled
    have hp := henabled.1
    have hcall := Except.toOption_eq_some_iff.mp hstep
    rw [portCall_registry hwf hp hcall]
    cases c with
    | devOpen p env => exact ⟨initSucceeds_iff.trans (h.initOnce hp).1, (h.initOnce hp).2⟩
    | devClose p env => exact ⟨iff_of_true trivial h.toBalanced, fun _ => h⟩
    | override p id missing dpc env =>
      rw [PortCall.register]
      split
      · rename_i hmiss
        exact ⟨iff_of_true (Or.inl hmiss) h.toBalanced, fun _ => h⟩
      · rename_i hmiss
        obtain ⟨hiff, hinv⟩ := h.override hp EdmaRegistry.override_overridden
        exact ⟨(or_iff_right hmiss).trans hiff, hinv⟩
    | start p dpc env =>
      rw [PortCall.register]
      split
      · rename_i hskip
        exact ⟨iff_of_true (or_assoc.mp (Or.inl hskip)) h.toBalanced, fun _ => h⟩
      · rename_i hopens
        obtain ⟨hiff, hinv⟩ := h.initOnce hp
        refine ⟨?_, hinv⟩
        rw [LeavesNothing, ← or_assoc, or_iff_right hopens]
        exact initSucceeds_iff.trans hiff
    | restore p env =>
      have hinv := h.restore (p := p)
      exact ⟨iff_of_true trivial hinv.toBalanced, fun _ => hinv⟩
  · cases hstep

end Runs

/-- In every run of opens, closes, overrides, starts and restores on the probed ports, EDMA keeps
    of a port what is due to it exactly where no call leaves anything behind. -/
theorem portRun_edmaUndone_iff (plat : Platform) {s₀ u : Driver} (hprobed : Probed plat s₀)
    (hempty : ∀ i, s₀.edmaHw.netdevArr i = none) {cs : List PortCall}
    (hrun : run (portStep plat) s₀ cs = some u) :
    Always (portStep plat) (EdmaUndone plat fun p => (s₀.dev p).netdev.neededHeadroom) s₀ cs ↔
      StepsMeet (portStep plat) LeavesNothing s₀ cs := by
  have hstart : s₀.registry.Inv plat fun p => (s₀.dev p).netdev.neededHeadroom := by
    have hnone (p : Nat) : s₀.registry.inited p = false := by
      rw [Driver.registry, hprobed.history]
      rfl
    refine ⟨⟨fun p _ => ?_, fun p _ => ?_⟩, fun p hp => ?_, fun p hp => ?_⟩
    · rw [hnone]
      rfl
    · rw [hnone]
      exact hempty _
    · cases (hnone p).symm.trans hp
    · exact (hprobed.dataPlaneOps p).symm.trans (of_decide_eq_true hp)
  refine always_iff_stepsMeet
    (I := fun s => Wf plat s ∧ s.registry.Inv plat fun p => (s₀.dev p).netdev.neededHeadroom)
    (fun _ h => edmaUndone_iff.mpr h.2.toBalanced) (fun s c t h hstep => ?_)
    (fun s c t h hstep hundone => ?_) ⟨hprobed.wf, hstart⟩ hrun
  · exact (portStep_undone h.1 h.2 hstep).1
  · exact ⟨(portStep_run h.1 hstep).2.wf h.1, (portStep_undone h.1 h.2 hstep).2 hundone⟩

section Decide

variable (s : Driver) (p : Nat) (env : CallEnv)

instance : Decidable (InitSucceeds s p env) := inferInstanceAs (Decidable (_ ∨ _ ∨ _ ∨ _))

instance decidableLeavesNothing : ∀ c, Decidable (LeavesNothing s c)
  | .devOpen p env => inferInstanceAs (Decidable (InitSucceeds s p env))
  | .override p _ missing _ _ =>
    inferInstanceAs (Decidable (MissesRequired missing ∨ isInit p .edma s.history = false))
  | .start p dpc env => inferInstanceAs (Decidable ((s.dev p).up = true ∨ (s.dev p).dpc ≠ dpc ∨
      InitSucceeds s p env))
  | .devClose _ _ | .restore _ _ => isTrue trivial

end Decide

/-- Port 1 is opened and closed, and an overlay driver takes over port 2, which is not open, and
    gives it back. -/
def takenUnopened : List PortCall :=
  [.devOpen 1 allOk, .override 2 0 [] (.overlay 0 ⟨some 2⟩) allOk,
    .start 2 (.overlay 0 ⟨some 2⟩) allOk, .restore 2 allOk, .devClose 1 allOk, .devOpen 1 allOk]

theorem portRun_edmaUndone_iff_takenUnopened :
    Always (portStep ipq807x) (EdmaUndone ipq807x fun _ => 0) ipq807xProbed takenUnopened := by
  obtain ⟨u, hrun⟩ : ∃ u, run (portStep ipq807x) ipq807xProbed takenUnopened = some u :=
    Option.isSome_iff_exists.mp (by decide +kernel)
  exact (portRun_edmaUndone_iff ipq807x ipq807x_probed (fun _ => rfl) hrun).mpr (by decide +kernel)

/-- An overlay driver takes over port 1 after it was open, and gives it back. -/
def takenAndBack : List PortCall :=
  [.devOpen 1 allOk, .devClose 1 allOk, .override 1 0 [] (.overlay 0 ⟨some 1⟩) allOk,
    .restore 1 allOk, .devOpen 1 allOk]

/-- Port 1 is opened, and its interrupts are refused. -/
def openRefused : List PortCall :=
  [.devOpen 1 { allOk with irq := { allOk.irq with requestOk := fun _ => false } }]

/-- What EDMA has of port 1 after some calls: whether it is initialised, the headroom, and the entry
    of the table. -/
def edmaOf (cs : List PortCall) : Option (Bool × Nat × Option Nat) :=
  (run (portStep ipq807x) ipq807xProbed cs).map fun t =>
    (t.registry.inited 1, t.registry.headroom 1, t.registry.netdevArr 0)

/-- A port that is not initialised and still in the table. -/
theorem not_edmaUndone {cs : List PortCall} {headroom : Nat} {orig : Nat → Nat}
    (h : edmaOf cs = some (false, headroom, some 1)) :
    ¬ Always (portStep ipq807x) (EdmaUndone ipq807x orig) ipq807xProbed cs := by
  obtain ⟨t, ht, heq⟩ := Option.map_eq_some_iff.mp h
  simp only [Prod.mk.injEq] at heq
  obtain ⟨hinited, -, harr⟩ := heq
  intro halways
  have hentry := (edmaUndone_iff.mp (halways.last ht)).netdevArr 1 (by decide)
  rw [hinited] at hentry
  cases hentry.symm.trans harr

/-- Port 1 keeps its headroom and its entry when it is taken over, and asks for the headroom again
    when it is given back; a port that `edma_if_init` fails on keeps its entry. -/
theorem takenAndBack_kept : Probed ipq807x ipq807xProbed ∧
    edmaOf (takenAndBack.take 2) = some (true, edmaTxPrehdrSize, some 1) ∧
    edmaOf (takenAndBack.take 3) = some (false, edmaTxPrehdrSize, some 1) ∧
    edmaOf takenAndBack = some (true, 2 * edmaTxPrehdrSize, some 1) ∧
    edmaOf openRefused = some (false, 0, some 1) ∧
    ¬ Always (portStep ipq807x) (EdmaUndone ipq807x fun _ => 0) ipq807xProbed
      (takenAndBack.take 3) ∧
    ¬ Always (portStep ipq807x) (EdmaUndone ipq807x fun _ => 0) ipq807xProbed openRefused := by
  have htaken : edmaOf (takenAndBack.take 3) = some (false, edmaTxPrehdrSize, some 1) := by
    decide +kernel
  have hrefused : edmaOf openRefused = some (false, 0, some 1) := by decide +kernel
  exact ⟨ipq807x_probed, by decide +kernel, htaken, by decide +kernel, hrefused,
    not_edmaUndone htaken, not_edmaUndone hrefused⟩

end NssDp
