import Mathlib.Data.Nat.Find
import NssDp.Edma.DataPlane
import NssDp.Edma.Proofs.TxOwnership

/-!
# The port that a VSI is assigned to

`edma_if_vsi_assign` and `edma_if_vsi_unassign` search the table of net devices alike, but test
what they have found in variables of different signedness.
-/

namespace NssDp.Edma

variable {soc : Soc} {ehw : EdmaHw}

/-- Entry `i` is the first of the table that holds a net device. -/
structure FirstEntry (soc : Soc) (ehw : EdmaHw) (netdev : Option Nat) (i : Nat) : Prop where
  lt : i < soc.maxPorts
  holds : ehw.netdevArr i = netdev
  first : ∀ j < i, ehw.netdevArr j ≠ netdev

/-- A net device is in the table. -/
def InNetdevArr (soc : Soc) (ehw : EdmaHw) (netdev : Option Nat) : Prop :=
  ∃ i < soc.maxPorts, ehw.netdevArr i = netdev

theorem InNetdevArr.exists_first {netdev : Option Nat} (h : InNetdevArr soc ehw netdev) :
    ∃ i, FirstEntry soc ehw netdev i := by
  classical
  refine ⟨Nat.find h, (Nat.find_spec h).1, (Nat.find_spec h).2, fun j hj hholds => ?_⟩
  have hlt : j < soc.maxPorts := hj.trans (Nat.find_spec h).1
  exact Nat.find_min h hj ⟨hlt, hholds⟩

theorem FirstEntry.getPortNum {netdev : Option Nat} {i : Nat} (h : FirstEntry soc ehw netdev i) :
    edmaGetPortNumFromNetdev soc ehw netdev = some (i + 1) := by
  have hfind : (List.range soc.maxPorts).find? (fun i => ehw.netdevArr i = netdev) = some i := by
    rw [List.find?_range_eq_some]
    refine ⟨by simpa using h.holds, List.mem_range.mpr h.lt, fun j hj => ?_⟩
    simpa using h.first j hj
  rw [edmaGetPortNumFromNetdev, hfind]
  rfl

/-- Assigning and unassigning a VSI on a net device, with `fal` and `fal'` for the outcomes of
    the calls into the FAL: these are made for the number of the first entry that holds it,
    and where no entry does there is no call and both fail. -/
structure VsiSamePort (soc : Soc) (ehw : EdmaHw) (dpc : NssDpDataPlaneCtx) (vsi : Nat)
    (fal fal' : Bool) : Prop where
  found : InNetdevArr soc ehw dpc.dev → ∃ port, FirstEntry soc ehw dpc.dev (port - 1) ∧
    1 ≤ port ∧ port ≤ soc.maxPorts ∧
      (edmaIfVsiAssign soc ehw dpc vsi fal).2 = [⟨port, vsi⟩] ∧
        (edmaIfVsiUnassign soc ehw dpc fal').2 = [⟨port, 0xffff⟩]
  missing : ¬ InNetdevArr soc ehw dpc.dev →
    edmaIfVsiAssign soc ehw dpc vsi fal = (.failure, []) ∧
      edmaIfVsiUnassign soc ehw dpc fal' = (.failure, [])

/-- `edma_if_vsi_unassign` calls into the FAL whatever the search has found. -/
theorem edmaIfVsiUnassign_calls (dpc : NssDpDataPlaneCtx) (fal : Bool) :
    (edmaIfVsiUnassign soc ehw dpc fal).2 ≠ [] := List.cons_ne_nil _ _

/-- The two agree on exactly the net devices that are in the table. -/
theorem vsiSamePort_iff (dpc : NssDpDataPlaneCtx) (vsi : Nat) (fal fal' : Bool) :
    VsiSamePort soc ehw dpc vsi fal fal' ↔ InNetdevArr soc ehw dpc.dev := by
  constructor
  · intro h
    by_contra hmissing
    have hnone := (h.missing hmissing).2
    have hcalls := @edmaIfVsiUnassign_calls soc ehw dpc fal'
    rw [hnone] at hcalls
    exact hcalls rfl
  · intro h
    refine ⟨fun _ => ?_, fun hmissing => absurd h hmissing⟩
    obtain ⟨i, hi⟩ := h.exists_first
    have hport := hi.getPortNum
    have hlt := hi.lt
    refine ⟨i + 1, hi, by omega, by omega, ?_, ?_⟩
    · rw [edmaIfVsiAssign, hport]
    · rw [edmaIfVsiUnassign, hport]
      rfl

/-- Before any port is registered the table is empty: unassigning the VSI of a port calls the
    FAL for port 4294967295 and succeeds if that does, while assigning it fails. -/
theorem vsiSamePort_emptyTable :
    edmaIfVsiAssign .ipq807x idleEdma ⟨some 1⟩ 7 true = (.failure, []) ∧
      edmaIfVsiUnassign .ipq807x idleEdma ⟨some 1⟩ true = (.success, [⟨4294967295, 0xffff⟩]) ∧
        ¬ VsiSamePort .ipq807x idleEdma ⟨some 1⟩ 7 true true := by
  refine ⟨rfl, rfl, fun h => ?_⟩
  have hmissing : ¬ InNetdevArr .ipq807x idleEdma (some 1) := by
    rintro ⟨i, -, hholds⟩
    cases hholds
  cases (h.missing hmissing).2

end NssDp.Edma
