import NssDp.Misc.Lts
import NssDp.Main.Numbering
import NssDp.Main.Proofs.Outcomes
import NssDp.Main.Proofs.ProbeClean

/-!
# The numbers of ports agree

The probe and a restore find the context of a port by different indices, and the look-up of a net
device checks its argument by other bounds than it subtracts. They agree where interface numbers
start at one.
-/

namespace NssDp

open Lts

/-- The numbers agree: a port on the built-in data plane has the context the probe gave it, which is
    its own and lies in the array, and a restore would give that back; every number that is not
    rejected leads into the array, and exactly one to each probed port. -/
structure NumbersOk {soc : SocPorts} (s : PortTable soc) : Prop where
  dpc : ∀ macid d, s.dev macid = some d → d.dataPlaneOps = soc.halOps → d.dpc = .global (macid - 1)
  entry : ∀ macid d i, s.dev macid = some d → d.dataPlaneOps = soc.halOps → d.dpc = .global i →
    i < soc.maxPorts
  distinct : ∀ p q d e i, s.dev p = some d → d.dataPlaneOps = soc.halOps → d.dpc = .global i →
    s.dev q = some e → e.dataPlaneOps = soc.halOps → e.dpc = .global i → p = q
  inBounds : ∀ ifNum, ∃ r, nssDpGetNetdevByNssIfNum s ifNum = .ok r
  found : ∀ macid d, s.dev macid = some d →
    ∃! ifNum, nssDpGetNetdevByNssIfNum s ifNum = .ok (some macid)
  restore : ∀ macid d, s.dev macid = some d →
    (s.restore macid).dev macid = some ⟨macid, .global (macid - 1), soc.halOps⟩

/-- What every probed port has. -/
structure NumberInv {soc : SocPorts} (s : PortTable soc) : Prop where
  macid : ∀ macid d, s.dev macid = some d → d.macid = macid ∧ 1 ≤ macid ∧ macid ≤ soc.maxPorts
  dpc : ∀ macid d, s.dev macid = some d → d.dataPlaneOps = soc.halOps → d.dpc = .global (macid - 1)
  nssDp : ∀ i macid, s.nssDp i = some macid ↔ macid = i + 1 ∧ (s.dev macid).isSome = true

section Invariant

variable {soc : SocPorts} {s s' : PortTable soc} {p q : Nat}

theorem nssDpOfGetPdata_eq_true :
    nssDpOfGetPdata soc p = true ↔ 1 ≤ p ∧ p ≤ soc.maxPorts := by
  rw [nssDpOfGetPdata, Bool.not_eq_true', Bool.or_eq_false_iff, decide_eq_false_iff_not,
    decide_eq_false_iff_not]
  omega

theorem setDev_dev (d : PortDev) :
    (s.setDev p d).dev q = if q = p then some d else s.dev q := Function.update_apply _ _ _ _

theorem halOps_ne_overlay {id : Nat} {missing : List DpCallback} :
    .overlay id missing ≠ soc.halOps := by
  unfold SocPorts.halOps
  split <;> simp

theorem NumberInv.empty : NumberInv (PortTable.empty : PortTable soc) := by
  refine ⟨fun macid d h => ?_, fun macid d h => ?_, fun i macid => ⟨fun h => ?_, fun h => ?_⟩⟩
  · cases h
  · cases h
  · cases h
  · cases h.2

/-- A probed port gets another data plane. -/
theorem NumberInv.setDev (h : NumberInv s) {d : PortDev} {dpc : DpcPtr} {ops : DataPlaneOps}
    (hd : s.dev p = some d) (hdpc : ops = soc.halOps → dpc = .global (p - 1)) :
    NumberInv (s.setDev p ⟨d.macid, dpc, ops⟩) := by
  refine ⟨fun q e he => ?_, fun q e he => ?_, fun i q => ?_⟩
  · rw [setDev_dev] at he
    split at he
    · rename_i heq
      subst heq
      cases he
      exact h.macid q d hd
    · exact h.macid q e he
  · rw [setDev_dev] at he
    split at he
    · rename_i heq
      subst heq
      cases he
      exact hdpc
    · exact h.dpc q e he
  · refine (h.nssDp i q).trans (and_congr_right fun _ => ?_)
    rw [setDev_dev]
    split
    · rename_i heq
      rw [heq, hd]
      exact iff_of_true rfl rfl
    · rfl

theorem NumberInv.probe (h : NumberInv s) (hnew : s.dev p = none) (ok : Bool) :
    NumberInv (nssDpProbe s p ok) := by
  unfold nssDpProbe
  split
  · rename_i hok
    obtain ⟨hpos, hle⟩ := nssDpOfGetPdata_eq_true.mp (Bool.and_eq_true_iff.mp hok).1
    refine ⟨fun q e he => ?_, fun q e he => ?_, fun i q => ?_⟩
    · dsimp only at he
      rw [setDev_dev] at he
      split at he
      · rename_i heq
        subst heq
        cases he
        exact ⟨rfl, hpos, hle⟩
      · exact h.macid q e he
    · dsimp only at he
      rw [setDev_dev] at he
      split at he
      · rename_i heq
        subst heq
        cases he
        exact fun _ => rfl
      · exact h.dpc q e he
    · dsimp only
      rw [setDev_dev]
      split
      · rename_i hi
        constructor
        · intro heq
          cases heq
          refine ⟨by omega, ?_⟩
          rw [if_pos rfl]
          rfl
        · rintro ⟨rfl, -⟩
          congr 1
          omega
      · rename_i hi
        rw [h.nssDp i q]
        apply and_congr_right
        intro hq
        rw [if_neg (by omega)]
  · exact h

/-- Where interface numbers start at one, all calls keep the numbers. -/
theorem NumberInv.step (hstart : soc.startIfnum = 1) {c : NumberCall} (h : NumberInv s)
    (hstep : numberStep s c = some s') : NumberInv s' := by
  cases c with
  | probe p ok =>
    simp only [numberStep] at hstep
    split at hstep
    · rename_i hnew
      cases hstep
      exact h.probe hnew ok
    · cases hstep
  | override p id missing dpc =>
    cases hstep
    unfold PortTable.override
    split
    · exact h
    rename_i d hd
    split
    · exact h
    · exact h.setDev hd fun heq => absurd heq halOps_ne_overlay
  | restore p =>
    cases hstep
    unfold PortTable.restore
    split
    · exact h
    rename_i d hd
    apply h.setDev hd
    intro _
    rw [hstart, (h.macid p d hd).1]

end Invariant

section Numbers

variable {soc : SocPorts} {s : PortTable soc} {p : Nat}

/-- With numbers from one, a net device is found by its `macid`. -/
theorem nssDpGetNetdev_of_start (hstart : soc.startIfnum = 1) (ifNum : Int) :
    nssDpGetNetdevByNssIfNum s ifNum =
      .ok (if h : 1 ≤ ifNum ∧ ifNum ≤ soc.maxPorts then
        s.nssDp ⟨(ifNum - 1).toNat, by omega⟩ else none) := by
  have hcast : (soc.startIfnum : Int) = 1 := by omega
  unfold nssDpGetNetdevByNssIfNum
  simp only [hcast]
  split
  · rename_i hreject
    rw [dif_neg (by omega)]
  · rename_i haccept
    rw [dif_pos (by omega), dif_pos (by omega)]

theorem NumberInv.numbersOk (h : NumberInv s) (hstart : soc.startIfnum = 1) : NumbersOk s := by
  refine ⟨h.dpc, fun p d i hd hops hdpc => ?_, fun p q d e i hd hops hdpc he hops' hdpc' => ?_,
    fun ifNum => ⟨_, nssDpGetNetdev_of_start hstart ifNum⟩, fun p d hd => ?_, fun p d hd => ?_⟩
  · have heq := DpcPtr.global.inj (hdpc.symm.trans (h.dpc p d hd hops))
    have hmacid := h.macid p d hd
    omega
  · have hp := DpcPtr.global.inj (hdpc.symm.trans (h.dpc p d hd hops))
    have hq := DpcPtr.global.inj (hdpc'.symm.trans (h.dpc q e he hops'))
    have hmacid := h.macid p d hd
    have hmacid' := h.macid q e he
    omega
  · obtain ⟨-, hpos, hle⟩ := h.macid p d hd
    refine ⟨(p : Int), ?_, fun ifNum hfound => ?_⟩
    · dsimp only
      rw [nssDpGetNetdev_of_start hstart, dif_pos (by omega)]
      congr 1
      refine (h.nssDp _ p).mpr ⟨?_, by rw [hd]; rfl⟩
      dsimp only
      omega
    · dsimp only at hfound
      rw [nssDpGetNetdev_of_start hstart] at hfound
      split at hfound
      · rename_i hrange
        have hslot := ((h.nssDp _ p).mp (Except.ok.inj hfound)).1
        dsimp only at hslot
        omega
      · cases hfound
  · rw [PortTable.restore, hd]
    dsimp only
    rw [setDev_dev, if_pos rfl, hstart, (h.macid p d hd).1]

/-- The last interface number leads past the array where they start at zero. -/
theorem NumbersOk.start (h : NumbersOk s) (hpos : 1 ≤ soc.maxPorts) (hle : soc.startIfnum ≤ 1) :
    soc.startIfnum = 1 := by
  by_contra hne
  have hzero : (soc.startIfnum : Int) = 0 := by omega
  obtain ⟨r, hr⟩ := h.inBounds soc.maxPorts
  unfold nssDpGetNetdevByNssIfNum at hr
  simp only [hzero] at hr
  rw [if_neg (by omega), dif_neg (by omega)] at hr
  cases hr

end Numbers

/-- On every SoC whose interface numbers start at zero or one, the numbers of ports agree in every
    run of probes, overrides and restores exactly where they start at one. -/
theorem numberRun_ok_iff (soc : SocPorts) (hpos : 1 ≤ soc.maxPorts) (hle : soc.startIfnum ≤ 1)
    {cs : List NumberCall} {u : PortTable soc} (hrun : run numberStep PortTable.empty cs = some u) :
    Always numberStep NumbersOk (PortTable.empty : PortTable soc) cs ↔ soc.startIfnum = 1 := by
  constructor
  · intro hall
    exact (hall.last hrun).start hpos hle
  · intro hstart
    exact always_of_inv (I := NumberInv) (fun _ h => h.numbersOk hstart)
      (fun s c t h hstep => h.step hstart hstep) NumberInv.empty

/-- On IPQ807x the numbers agree, whatever is probed. -/
theorem numberRun_ok_iff_ipq807x :
    Always numberStep NumbersOk (PortTable.empty : PortTable Soc.ipq807x.socPorts)
      [.probe 1 true, .probe 7 true, .override 1 0 [] (.overlay 0 ⟨none⟩), .restore 1] := by
  obtain ⟨u, hrun⟩ : ∃ u, run numberStep (PortTable.empty : PortTable Soc.ipq807x.socPorts)
      [.probe 1 true, .probe 7 true, .override 1 0 [] (.overlay 0 ⟨none⟩), .restore 1] = some u :=
    Option.isSome_iff_exists.mp (by decide)
  exact (numberRun_ok_iff Soc.ipq807x.socPorts (by decide) (by decide) hrun).mpr rfl

/-- Both ports of IPQ50xx are probed, taken over and given back. -/
def bothGivenBack : List NumberCall :=
  [.probe 1 true, .probe 2 true, .override 1 0 [] (.overlay 0 ⟨none⟩), .restore 1,
    .override 2 0 [] (.overlay 0 ⟨none⟩), .restore 2]

/-- Then port 1 has the context of port 2, port 2 one past the array, and the interface number 2,
    which is not rejected, leads past the array of ports. -/
theorem bothGivenBack_misnumbered :
    (∃ t, run numberStep (PortTable.empty : PortTable Soc.ipq50xx.socPorts) bothGivenBack = some t ∧
      t.dev 1 = some ⟨1, .global 1, .synGmac⟩ ∧ t.dev 2 = some ⟨2, .global 2, .synGmac⟩ ∧
      nssDpGetNetdevByNssIfNum t 2 = .error 2) ∧
    ¬ Always numberStep NumbersOk (PortTable.empty : PortTable Soc.ipq50xx.socPorts)
      bothGivenBack := by
  refine ⟨⟨_, rfl, rfl, rfl, rfl⟩, fun hall => ?_⟩
  have hstart := hall.1.start (by decide) (by decide)
  cases hstart

/-! ### The ports of the driver -/

/-- The numbers of the ports of a driver, all of which are probed. -/
def Driver.portTable (plat : Platform) (s : Driver) : PortTable plat.soc.socPorts where
  dev p := if p ∈ plat.ports then some ⟨p, (s.planes p).dpc, (s.planes p).ops⟩ else none
  nssDp i := some (i.val + 1)

section Refinement

variable {plat : Platform} {s s' : Driver} {p : Nat} {c : PortCall}

theorem portTable_of_mem (hp : p ∈ plat.ports) :
    (s.portTable plat).dev p = some ⟨p, (s.planes p).dpc, (s.planes p).ops⟩ := if_pos hp

/-- A port gets another data plane. -/
theorem portTable_update (hp : p ∈ plat.ports) {plane : Plane}
    (hplanes : s'.planes = Function.update s.planes p plane) :
    s'.portTable plat = (s.portTable plat).setDev p ⟨p, plane.dpc, plane.ops⟩ := by
  unfold Driver.portTable PortTable.setDev
  congr 1
  funext q
  rw [hplanes, Function.update_apply, Function.update_apply]
  by_cases heq : q = p
  · rw [if_pos heq, if_pos heq, heq, if_pos hp]
  · rw [if_neg heq, if_neg heq]

/-- Every call on a port changes the numbers as one of the calls above does, or not at all. -/
theorem PortRun.numberStep (hrun : PortRun plat s c s') (hp : c.port ∈ plat.ports) :
    s'.portTable plat = s.portTable plat ∨
      ∃ call, NssDp.numberStep (s.portTable plat) call = some (s'.portTable plat) := by
  rcases hrun.planes with hplanes | ⟨p, id, missing, dpc, env, rfl, hmiss, hplanes⟩ |
      ⟨p, env, rfl, hplanes⟩
  · refine Or.inl ?_
    unfold Driver.portTable
    rw [hplanes]
  · have hp' : p ∈ plat.ports := hp
    refine Or.inr ⟨.override p id missing dpc, congrArg some ?_⟩
    rw [portTable_update hp' hplanes]
    unfold PortTable.override
    rw [portTable_of_mem hp']
    exact if_neg hmiss
  · have hp' : p ∈ plat.ports := hp
    refine Or.inr ⟨.restore p, congrArg some ?_⟩
    rw [portTable_update hp' hplanes]
    unfold PortTable.restore
    rw [portTable_of_mem hp']
    rfl

theorem Probed.numberInv (h : Probed plat s) : NumberInv (s.portTable plat) := by
  refine ⟨fun p d hd => ?_, fun p d hd _ => ?_, fun i p => ?_⟩
  · obtain ⟨hp, heq⟩ := Option.ite_none_right_eq_some.mp hd
    cases heq
    exact ⟨rfl, Finset.mem_Icc.mp hp⟩
  · obtain ⟨-, heq⟩ := Option.ite_none_right_eq_some.mp hd
    cases heq
    exact h.dpc p
  · constructor
    · intro hi
      cases hi
      have hp : i.val + 1 ∈ plat.ports := Finset.mem_Icc.mpr ⟨Nat.succ_pos _, i.isLt⟩
      exact ⟨rfl, by rw [portTable_of_mem hp]; rfl⟩
    · rintro ⟨rfl, -⟩
      rfl

/-- With interface numbers from one, the numbers of the ports agree in every run of the driver. -/
theorem portRun_numbersOk (plat : Platform) (hstart : plat.soc.startIfnum = 1)
    (hprobed : Probed plat s) (cs : List PortCall) :
    Always (portStep plat) (fun s => NumbersOk (s.portTable plat)) s cs := by
  refine always_of_inv (I := fun s => Wf plat s ∧ NumberInv (s.portTable plat))
    (fun s h => h.2.numbersOk hstart) (fun s c t h hstep => ?_) ⟨hprobed.wf, hprobed.numberInv⟩
  obtain ⟨henabled, hrun⟩ := portStep_run h.1 hstep
  refine ⟨hrun.wf h.1, ?_⟩
  rcases hrun.numberStep henabled.1 with heq | ⟨call, hcall⟩
  · rw [heq]
    exact h.2
  · exact h.2.step hstart hcall

end Refinement

/-! ### The ports that are probed -/

/-- The numbers of the ports in `dp_global_ctx`, each on the data plane of the SoC. -/
def Probe.ProbeCtx.portTable {soc : Soc} (s : ProbeCtx soc) : PortTable soc.socPorts where
  dev p := if h : 1 ≤ p ∧ p - 1 < soc.maxPorts then
    (s.nssDp ⟨p - 1, h.2⟩).map fun d =>
      ⟨d.pdata.macid.toNat, .global (d.pdata.macid.toNat - 1), soc.socPorts.halOps⟩
    else none
  nssDp i := (s.nssDp i).map fun d => d.pdata.macid.toNat

section Probes

variable {soc : Soc} {s t : Probe.ProbeCtx soc}

theorem portTable_congr (h : t.nssDp = s.nssDp) : t.portTable = s.portTable := by
  unfold Probe.ProbeCtx.portTable
  rw [h]

/-- A port is entered under its number. -/
theorem portTable_setNssDp (s : Probe.ProbeCtx soc) (dev : Probe.ProbedDev soc) :
    (s.setNssDp dev.pdata.index (some dev)).portTable =
      nssDpProbe s.portTable dev.pdata.macid.toNat true := by
  have hpos := dev.pdata.macid_pos
  have hle := dev.pdata.macid_le
  have haccepted : nssDpOfGetPdata soc.socPorts dev.pdata.macid.toNat = true :=
    nssDpOfGetPdata_eq_true.mpr ⟨hpos, hle⟩
  rw [nssDpProbe, haccepted, Bool.true_and, if_pos rfl]
  unfold Probe.ProbeCtx.portTable PortTable.setDev
  congr 1
  · funext p
    dsimp only
    rw [Function.update_apply]
    by_cases hp : p = dev.pdata.macid.toNat
    · rw [if_pos hp, dif_pos ⟨by omega, by omega⟩, Probe.ProbeCtx.setNssDp_nssDp, if_pos]
      · rfl
      · exact Fin.ext (congrArg (· - 1) hp)
    · rw [if_neg hp]
      split
      next hport =>
        rw [Probe.ProbeCtx.setNssDp_nssDp, if_neg]
        intro heq
        have hindex : p - 1 = dev.pdata.macid.toNat - 1 := congrArg Fin.val heq
        omega
      next => rfl
  · refine funext fun (i : Fin soc.maxPorts) => ?_
    dsimp only
    rw [Probe.ProbeCtx.setNssDp_nssDp]
    by_cases hi : i = dev.pdata.index
    · have hval : i.val = dev.pdata.macid.toNat - 1 := congrArg Fin.val hi
      rw [if_pos hi]
      exact (if_pos hval).symm
    · have hval : i.val ≠ dev.pdata.macid.toNat - 1 := fun heq => hi (Fin.ext heq)
      rw [if_neg hi]
      exact (if_neg hval).symm

/-- The `macid` is the property `qcom,id`. -/
theorem qcomId_of_pdata {np : Probe.DeviceNode} {randomAddr : EtherAddr}
    {pdata : Probe.PlatData soc}
    (h : Probe.nssDpOfGetPdata soc np randomAddr = some pdata) : np.qcomId = some pdata.macid := by
  unfold Probe.nssDpOfGetPdata at h
  split at h
  · cases h
  next macid hid =>
  split at h
  · cases h
  split at h
  · split at h
    · cases h
    · cases h
      exact hid
  · cases h

/-- To the numbers a probe that returns does what its node asks for where it succeeds, and nothing
    where it fails. -/
theorem nssDpProbe_portTable {env : Probe.ProbeEnv} {ret : Int}
    (hprobe : Probe.nssDpProbe s env = .ok (ret, t)) :
    t.portTable = nssDpProbe s.portTable (env.node.qcomId.getD 0).toNat (decide (ret = 0)) := by
  have hfailed : ret ≠ 0 → t.nssDp = s.nssDp →
      t.portTable = nssDpProbe s.portTable (env.node.qcomId.getD 0).toNat (decide (ret = 0)) := by
    intro hret hsame
    rw [nssDpProbe, decide_eq_false hret, Bool.and_false, if_neg Bool.false_ne_true]
    exact portTable_congr hsame
  rcases Probe.nssDpProbe_cases s env with ⟨-, heq⟩ | ⟨-, heq⟩ |
    ⟨-, pdata, hpdata, ⟨-, dev, u, heq, -, rfl, hext, -⟩ | ⟨-, ⟨fault, heq⟩ | ⟨u, heq, hext⟩⟩⟩
  · cases heq.symm.trans hprobe
    exact hfailed (by decide) rfl
  · cases heq.symm.trans hprobe
    exact hfailed (by decide) rfl
  · cases heq.symm.trans hprobe
    rw [qcomId_of_pdata hpdata, Option.getD_some, portTable_congr hext.nssDp]
    exact portTable_setNssDp _ dev
  · cases heq.symm.trans hprobe
  · cases heq.symm.trans hprobe
    exact hfailed (by decide) hext.nssDp

/-- So the probe of a port that is new is one of the steps above. -/
theorem nssDpProbe_numberStep {env : Probe.ProbeEnv} {ret : Int}
    (hprobe : Probe.nssDpProbe s env = .ok (ret, t))
    (hnew : s.portTable.dev (env.node.qcomId.getD 0).toNat = none) :
    numberStep s.portTable (.probe (env.node.qcomId.getD 0).toNat (decide (ret = 0))) =
      some t.portTable := by
  rw [numberStep, if_pos hnew, nssDpProbe_portTable hprobe]

end Probes

end NssDp
