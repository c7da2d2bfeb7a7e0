import NssDp.Main.FlowSteer
import NssDp.Main.Proofs.NullCallbacks

/-!
# What is left of the rules

A flow is moved by the deletion of one rule and the addition of another. Where the addition fails
the deletion is not undone, and the flow has no rule.
-/

namespace NssDp.FlowSteer

open Lts

variable {Flow : Type*} [DecidableEq Flow] {rules : Rules Flow} {c : SteerCall Flow}

section Driver

variable {plat : Platform} {s : Driver} {p : Nat} {env : SteerEnv} {del add : CallEnv}

/-- The function answers as it does in the driver, for a data plane other than EDMA. -/
theorem nssDpRxFlowSteer_driver (rules : Rules Flow) (flow : Flow)
    (hops : (s.dev p).dataPlaneOps ≠ .edma)
    (hcb : env.rxFlowSteer = true ↔ .rxFlowSteer ∉ (s.dev p).dataPlaneOps.missing)
    (hdel : del.ok .rxFlowSteer = env.del) (hadd : add.ok .rxFlowSteer = env.add) :
    ∃ s', NssDp.nssDpRxFlowSteer plat s p env.rxFlow del add =
      .ok ((nssDpRxFlowSteer rules flow env).1, s') := by
  unfold NssDp.nssDpRxFlowSteer nssDpRxFlowSteer
  cases env.rxFlow with
  | none => exact ⟨s, rfl⟩
  | some cpus =>
    dsimp only
    split
    · exact ⟨s, rfl⟩
    by_cases hhas : .rxFlowSteer ∈ (s.dev p).dataPlaneOps.missing
    · have hnone : env.rxFlowSteer = false := by
        rw [← Bool.not_eq_true, hcb, not_not]
        exact hhas
      rw [if_pos hhas, if_pos hnone]
      exact ⟨s, rfl⟩
    · rw [if_neg hhas, if_neg (by rw [hcb.mpr hhas]; decide)]
      obtain ⟨m, hm, hplanes⟩ := ownCallback_other_eq plat del _ hops hhas
      have hsame : (m.dev p).dataPlaneOps = (s.dev p).dataPlaneOps :=
        congrArg Plane.ops (congrFun hplanes p)
      obtain ⟨u, hu, -⟩ := ownCallback_other_eq (s := m) plat add _ (hsame ▸ hops) (hsame ▸ hhas)
      cases hdone : env.del with
      | false => exact ⟨m, by simp [orReturn, Except.bind, hm, hdel, hdone, rxFlowSteer]⟩
      | true =>
        refine ⟨u, ?_⟩
        cases hadded : env.add <;>
          simp [orReturn, Except.bind, hm, hu, hdel, hadd, hdone, hadded, rxFlowSteer]

end Driver

/-- The two CPUs differ, the data plane has the callback, the old rule is deleted and the new
    one cannot be added. -/
def AddRefused (env : SteerEnv) : Prop :=
  ∃ cpus, env.rxFlow = some cpus ∧ cpus.rxcpu ≠ cpus.rfscpu ∧ env.rxFlowSteer = true ∧
    env.del = true ∧ env.add = false

/-- What becomes of a request, in a data plane that holds the old rule. -/
inductive Outcome (rules : Rules Flow) (c : SteerCall Flow) : DevRet × Rules Flow → Prop
  /-- The flow goes to the right CPU already. -/
  | same (cpus : RxFlow) (hcpus : c.env.rxFlow = some cpus) (heq : cpus.rxcpu = cpus.rfscpu) :
    Outcome rules c (.ok, rules)
  /-- A table or the callback is missing, or the old rule cannot be deleted. -/
  | refused (ret : DevRet) (hret : ret ≠ .ok) (hkept : ¬ AddRefused c.env) :
    Outcome rules c (ret, rules)
  | moved (cpus : RxFlow) (hcpus : c.env.rxFlow = some cpus) (hkept : ¬ AddRefused c.env) :
    Outcome rules c (.ok, Function.update rules c.flow {cpus.rfscpu})
  | lost (hlost : AddRefused c.env) : Outcome rules c (.eagain, Function.update rules c.flow ∅)

theorem nssDpRxFlowSteer_outcome (h : HoldsOld rules c) :
    Outcome rules c (nssDpRxFlowSteer rules c.flow c.env) := by
  obtain ⟨hold, hrx⟩ := h
  unfold nssDpRxFlowSteer
  cases hflow : c.env.rxFlow with
  | none =>
    refine .refused .einval (by decide) ?_
    rintro ⟨cpus, hcpus, -⟩
    rw [hflow] at hcpus
    cases hcpus
  | some cpus =>
    have hunique : ∀ cpus', c.env.rxFlow = some cpus' → cpus' = cpus := fun cpus' h =>
      Option.some.inj (h.symm.trans hflow)
    dsimp only
    split
    · rename_i heq
      exact .same cpus hflow heq
    rename_i hne
    split
    · rename_i hmissing
      refine .refused .einval (by decide) ?_
      rintro ⟨_, -, -, hhas, -⟩
      rw [hmissing] at hhas
      cases hhas
    rename_i hhas
    have herase : (rules c.flow).erase cpus.rxcpu = ∅ := by
      rw [hold, hrx cpus hflow, Finset.erase_singleton]
    cases hdel : c.env.del with
    | false =>
      refine .refused .eagain (by decide) ?_
      rintro ⟨_, -, -, -, hdone, -⟩
      rw [hdel] at hdone
      cases hdone
    | true =>
      cases hadd : c.env.add with
      | false =>
        have hlost : AddRefused c.env :=
          ⟨cpus, hflow, hne, Bool.eq_true_of_not_eq_false hhas, hdel, hadd⟩
        simpa [rxFlowSteer, herase] using Outcome.lost hlost
      | true =>
        have hkept : ¬ AddRefused c.env := by
          rintro ⟨_, -, -, -, -, hrefused⟩
          rw [hadd] at hrefused
          cases hrefused
        simpa [rxFlowSteer, herase] using Outcome.moved cpus hflow hkept

/-- Where the addition fails, the flow has no rule. -/
theorem no_rule_of_addRefused (h : HoldsOld rules c) (hlost : AddRefused c.env) :
    (nssDpRxFlowSteer rules c.flow c.env).2 c.flow = ∅ := by
  have houtcome := nssDpRxFlowSteer_outcome h
  generalize nssDpRxFlowSteer rules c.flow c.env = r at houtcome
  cases houtcome with
  | same cpus hcpus heq =>
    obtain ⟨cpus', hcpus', hne, -⟩ := hlost
    cases hcpus.symm.trans hcpus'
    exact absurd heq hne
  | refused _ _ hkept => exact absurd hlost hkept
  | moved _ _ hkept => exact absurd hlost hkept
  | lost _ => exact Function.update_self _ _ _

/-- What is to be had of a request: the flow has one rule, which is the new CPU's after success
    with different CPUs and the old CPU's after an error, and no other flow is concerned. -/
structure Steered (rules : Rules Flow) (c : SteerCall Flow) (r : DevRet × Rules Flow) : Prop where
  one : ∃ cpu, r.2 c.flow = {cpu}
  moved : r.1 = .ok → ∀ cpus, c.env.rxFlow = some cpus → cpus.rxcpu ≠ cpus.rfscpu →
    r.2 c.flow = {cpus.rfscpu}
  kept : r.1 ≠ .ok → r.2 c.flow = {c.old}
  others : ∀ flow, flow ≠ c.flow → r.2 flow = rules flow

theorem Steered.of_outcome {r : DevRet × Rules Flow} (h : HoldsOld rules c)
    (houtcome : Outcome rules c r) (hkept : ¬ AddRefused c.env) : Steered rules c r := by
  cases houtcome with
  | same cpus hcpus heq =>
    refine ⟨⟨c.old, h.1⟩, ?_, fun hne => absurd rfl hne, fun _ _ => rfl⟩
    intro _ cpus' hcpus' hne
    cases hcpus.symm.trans hcpus'
    exact absurd heq hne
  | refused ret hret _ =>
    exact ⟨⟨c.old, h.1⟩, fun hok => absurd hok hret, fun _ => h.1, fun _ _ => rfl⟩
  | moved cpus hcpus _ =>
    refine ⟨⟨cpus.rfscpu, Function.update_self _ _ _⟩, ?_, fun hne => absurd rfl hne,
      fun flow hne => Function.update_of_ne hne _ _⟩
    intro _ cpus' hcpus' _
    cases hcpus.symm.trans hcpus'
    exact Function.update_self _ _ _
  | lost hlost => exact absurd hlost hkept

theorem steered_iff (h : HoldsOld rules c) :
    Steered rules c (nssDpRxFlowSteer rules c.flow c.env) ↔ ¬ AddRefused c.env := by
  refine ⟨fun hsteered hlost => ?_, Steered.of_outcome h (nssDpRxFlowSteer_outcome h)⟩
  obtain ⟨cpu, hone⟩ := hsteered.one
  rw [no_rule_of_addRefused h hlost] at hone
  exact absurd hone.symm (Finset.singleton_ne_empty cpu)

/-- Every flow has exactly one rule. -/
def OneRule (rules : Rules Flow) : Prop := ∀ flow, ∃ cpu, rules flow = {cpu}

theorem steerStep_oneRule {t : Rules Flow} (h : OneRule rules)
    (hstep : steerStep rules c = some t) : ¬ AddRefused c.env ↔ OneRule t := by
  unfold steerStep at hstep
  split at hstep
  · rename_i hholds
    cases hstep
    constructor
    · intro hkept flow
      have hsteered := (steered_iff hholds).mpr hkept
      by_cases hflow : flow = c.flow
      · rw [hflow]
        exact hsteered.one
      · rw [hsteered.others flow hflow]
        exact h flow
    · intro hone hlost
      obtain ⟨cpu, hcpu⟩ := hone c.flow
      rw [no_rule_of_addRefused hholds hlost] at hcpu
      exact absurd hcpu.symm (Finset.singleton_ne_empty cpu)
  · cases hstep

/-- One request does what it should, and a run of requests keeps one rule a flow, just where no
    addition fails after its deletion. -/
theorem flowSteer_iff :
    (∀ (rules : Rules Flow) (c : SteerCall Flow), HoldsOld rules c →
      (Steered rules c (nssDpRxFlowSteer rules c.flow c.env) ↔ ¬ AddRefused c.env)) ∧
    (∀ (rules u : Rules Flow) (calls : List (SteerCall Flow)), OneRule rules →
      run steerStep rules calls = some u →
        (Always steerStep OneRule rules calls ↔
          StepsMeet steerStep (fun _ c => ¬ AddRefused c.env) rules calls)) := by
  refine ⟨fun rules c h => steered_iff h, fun rules u calls hone hrun => ?_⟩
  exact always_iff_stepsMeet (fun _ h => h) (fun _ _ _ h hstep => steerStep_oneRule h hstep)
    (fun _ _ _ _ _ h => h) hone hrun

/-- A packet of a flow that goes to CPU 1 and is wanted on CPU 2. -/
def fromCpu1 (del add : Bool) : SteerEnv where
  netdev := true
  dpPriv := true
  rxQueueRecorded := none
  hash := 5#32
  rpsFlowTable _ := some ⟨7#32, fun _ => 1#16⟩
  rpsSockFlowTable := some ⟨7#32, fun _ => 2#32⟩
  rpsCpuMask := 3#32
  rxFlowSteer := true
  del := del
  add := add

/-- A request that cannot delete the old rule, one that is granted, and one for another flow. -/
theorem flowSteer_iff_three :
    Always steerStep OneRule (fun _ : Nat => ({1} : Finset Nat))
      [⟨0, 1, fromCpu1 false true⟩, ⟨0, 1, fromCpu1 true true⟩, ⟨9, 1, fromCpu1 true true⟩] := by
  apply (flowSteer_iff.2 _ _ _ (fun _ => ⟨1, rfl⟩) rfl).mpr
  have hgranted (del : Bool) : ¬ AddRefused (fromCpu1 del true) := by
    rintro ⟨_, _, _, _, _, hadd⟩
    cases hadd
  exact ⟨hgranted _, fun _ _ => ⟨hgranted _, fun _ _ => ⟨hgranted _, fun _ _ => trivial⟩⟩⟩

/-- The old rule is deleted, and the new one is refused. -/
theorem flowSteer_lostRule :
    HoldsOld (fun _ : Nat => ({1} : Finset Nat)) ⟨0, 1, fromCpu1 true false⟩ ∧
      (nssDpRxFlowSteer (fun _ : Nat => ({1} : Finset Nat)) 0 (fromCpu1 true false)).1 = .eagain ∧
        (nssDpRxFlowSteer (fun _ : Nat => ({1} : Finset Nat)) 0 (fromCpu1 true false)).2 0 = ∅ ∧
          ¬ Steered (fun _ : Nat => ({1} : Finset Nat)) ⟨0, 1, fromCpu1 true false⟩
            (nssDpRxFlowSteer (fun _ => {1}) 0 (fromCpu1 true false)) := by
  refine ⟨by decide, rfl, rfl, fun h => ?_⟩
  have hkept : (∅ : Finset Nat) = {1} := h.kept (by decide)
  exact absurd hkept (by decide)

end NssDp.FlowSteer
