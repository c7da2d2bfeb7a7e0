import NssDp.Edma.Cfg
import NssDp.Misc.Pairing

/-!
# What is left of a ring setup that fails

The ring arrays and the descriptors of the rings are acquired and released. The two receive
loops unwind to the first ring, and the two transmit loops one ring further; the arrays are
released where one of them could not be allocated, and never after that.
-/

namespace NssDp.Edma

open Pairing

/-- What the setup acquires: an array, or the descriptors of a ring. -/
inductive RingRes where
  | array (kind : RingKind)
  | desc (kind : RingKind) (ring : Int)
  deriving DecidableEq, Repr

/-- What each operation acquires or releases. -/
def ringAct : RingOp → Act RingRes
  | .kzalloc kind => .acquire (.array kind)
  | .kfree kind => .release (.array kind)
  | .dmaAllocCoherent kind ring => .acquire (.desc kind ring)
  | .cleanup kind ring => .release (.desc kind ring)
  | .assign .. | .mapRxfill .. => .neither

/-- The ring that an operation works on is in the array of its kind. -/
def RingOp.InRange (n : RingKind → Nat) : RingOp → Prop
  | .assign kind ring | .dmaAllocCoherent kind ring | .cleanup kind ring =>
    0 ≤ ring ∧ ring < n kind
  | .mapRxfill rxdesc rxfill => (0 ≤ rxdesc ∧ rxdesc < n .rxdesc) ∧ 0 ≤ rxfill ∧ rxfill < n .rxfill
  | .kzalloc _ | .kfree _ => True

/-- The setup reports the failure, has released all it acquired once each, and has worked on no
    ring outside the arrays. -/
structure Unwound (n : RingKind → Nat) (r : Int × List RingOp) : Prop where
  ret : r.1 = eNoMem
  settled : settle ringAct 0 r.2 = some 0
  inRange : ∀ op ∈ r.2, op.InRange n

/-- An allocation that the setup needs fails. -/
def RingEnv.Fails (n : RingKind → Nat) (env : RingEnv) : Prop :=
  (∃ kind, env.array kind = false) ∨ ∃ kind, ∃ i < n kind, env.desc kind i = false

theorem ringAct_dmaAlloc (kind : RingKind) (i : Nat) :
    ringAct (.dmaAllocCoherent kind i) = .acquire (.desc kind i) := rfl

theorem ringAct_cleanup (kind : RingKind) (i : Nat) :
    ringAct (.cleanup kind i) = .release (.desc kind i) := rfl

section Loops

variable {pre : Nat → List RingOp} {kind : RingKind} {ok : Nat → Bool}

/-- What is done to rings whose setup succeeds. -/
def setupOps (pre : Nat → List RingOp) (kind : RingKind) (rings : List Nat) : List RingOp :=
  rings.flatMap fun i => pre i ++ [.dmaAllocCoherent kind i]

/-- An allocation loop sets up all its rings, or those before the first that fails; by induction
    on the rings to go. -/
theorem setupRings_cases (pre : Nat → List RingOp) (kind : RingKind) (ok : Nat → Bool) :
    ∀ left i, (setupRings pre kind ok left i = (setupOps pre kind (List.range' i left), none) ∧
        ∀ j, i ≤ j → j < i + left → ok j = true) ∨
      ∃ k < left, setupRings pre kind ok left i =
        (setupOps pre kind (List.range' i k) ++ pre (i + k), some (i + k)) ∧
          ok (i + k) = false := by
  intro left
  induction left with
  | zero =>
    intro i
    exact Or.inl ⟨rfl, fun j hle hlt => by omega⟩
  | succ left ih =>
    intro i
    rw [setupRings]
    by_cases hok : ok i = true
    · rw [if_pos hok]
      rcases ih (i + 1) with ⟨hall, hrest⟩ | ⟨k, hk, hfail, hbad⟩
      · refine Or.inl ⟨?_, ?_⟩
        · simp only [hall, setupOps, List.range'_succ, List.flatMap_cons, List.append_assoc,
            List.singleton_append]
        · intro j hle hlt
          rcases Nat.eq_or_lt_of_le hle with rfl | hgt
          · exact hok
          · exact hrest j hgt (by omega)
      · have hindex : i + 1 + k = i + (k + 1) := by omega
        rw [hindex] at hfail hbad
        refine Or.inr ⟨k + 1, by omega, ?_, hbad⟩
        simp only [hfail, setupOps, List.range'_succ, List.flatMap_cons, List.append_assoc,
          List.cons_append, List.nil_append]
    · rw [if_neg hok]
      exact Or.inr ⟨0, by omega, rfl, Bool.eq_false_iff.mpr hok⟩

theorem unwindPre_eq (kind : RingKind) (i : Nat) :
    unwindPre kind i = (List.range i).reverse.map fun j : Nat => RingOp.cleanup kind j := by
  induction i with
  | zero => rfl
  | succ i ih =>
    rw [unwindPre, ih, List.range_succ, List.reverse_append, List.reverse_singleton,
      List.singleton_append, List.map_cons]

/-- The transmit loops do what the receive loops do, and go on to the ring before the first. -/
theorem unwindPost_eq (kind : RingKind) (i : Nat) :
    unwindPost kind i = unwindPre kind i ++ [.cleanup kind (-1)] := by
  induction i with
  | zero => rfl
  | succ i ih => rw [unwindPost, ih, unwindPre, List.cons_append]

/-- The descriptors of rings. -/
def descsOf (kind : RingKind) (rings : List Nat) : Multiset RingRes :=
  (rings.map fun i : Nat => RingRes.desc kind i : List RingRes)

theorem settle_setupOps (hpre : ∀ i, ∀ op ∈ pre i, ringAct op = .neither) (kind : RingKind)
    (held : Multiset RingRes) (rings : List Nat) :
    settle ringAct held (setupOps pre kind rings) = some (descsOf kind rings + held) := by
  induction rings generalizing held with
  | nil =>
    rw [descsOf, List.map_nil, Multiset.coe_nil, Multiset.zero_add]
    rfl
  | cons i rings ih =>
    rw [setupOps, List.flatMap_cons, List.append_assoc,
      settle_append_some (settle_of_neither (hpre i)), List.singleton_append,
      settle_acquire (ringAct_dmaAlloc kind i), ← setupOps, ih, descsOf, descsOf, List.map_cons,
      ← Multiset.cons_coe, Multiset.cons_add, Multiset.add_cons]

/-- The unwinding of a receive loop, and the loops at the labels. -/
theorem settle_unwindPre (kind : RingKind) (held : Multiset RingRes) (i : Nat) :
    settle ringAct (descsOf kind (List.range i) + held) (unwindPre kind i) = some held := by
  have hreverse : descsOf kind (List.range i) = descsOf kind (List.range i).reverse :=
    Multiset.coe_eq_coe.mpr ((List.reverse_perm _).symm.map _)
  rw [unwindPre_eq, hreverse]
  exact settle_map_release (ringAct_cleanup kind) _

theorem settle_cleanupRings (n : RingKind → Nat) (kind : RingKind) (held : Multiset RingRes) :
    settle ringAct (descsOf kind (List.range (n kind)) + held) (cleanupRings n kind) =
      some held :=
  settle_map_release (ringAct_cleanup kind) _

/-- The ring before the first was never set up. -/
theorem settle_unwindPost {kind : RingKind} {held : Multiset RingRes} (i : Nat)
    (hneg : RingRes.desc kind (-1) ∉ held) :
    settle ringAct (descsOf kind (List.range i) + held) (unwindPost kind i) = none := by
  have hact : ringAct (.cleanup kind (-1)) = .release (.desc kind (-1)) := rfl
  rw [unwindPost_eq, settle_append_some (settle_unwindPre kind held i), settle_release hact,
    if_neg hneg]

theorem neg_notMem_descsOf (kind kind' : RingKind) (rings : List Nat) :
    RingRes.desc kind (-1) ∉ descsOf kind' rings := by
  intro hmem
  obtain ⟨i, -, hi⟩ := List.mem_map.mp (Multiset.mem_coe.mp hmem)
  have hring := (RingRes.desc.inj hi).2
  omega

theorem inRange_setupOps {n : RingKind → Nat} (hpre : ∀ i < n kind, ∀ op ∈ pre i, op.InRange n)
    {rings : List Nat} (hrings : ∀ i ∈ rings, i < n kind) :
    ∀ op ∈ setupOps pre kind rings, op.InRange n := by
  intro op hop
  obtain ⟨i, hi, hop⟩ := List.mem_flatMap.mp hop
  rcases List.mem_append.mp hop with hop | hop
  · exact hpre i (hrings i hi) op hop
  · rw [List.mem_singleton.mp hop]
    exact ⟨Int.natCast_nonneg i, Int.ofNat_lt.mpr (hrings i hi)⟩

theorem inRange_cleanups {n : RingKind → Nat} {rings : List Nat}
    (hrings : ∀ i ∈ rings, i < n kind) :
    ∀ op ∈ rings.map fun i : Nat => RingOp.cleanup kind i, op.InRange n := by
  intro op hop
  obtain ⟨i, hi, rfl⟩ := List.mem_map.mp hop
  exact ⟨Int.natCast_nonneg i, Int.ofNat_lt.mpr (hrings i hi)⟩

theorem inRange_cleanupRings (n : RingKind → Nat) (kind : RingKind) :
    ∀ op ∈ cleanupRings n kind, op.InRange n :=
  inRange_cleanups fun _ hi => List.mem_range.mp hi

theorem inRange_unwindPre {n : RingKind → Nat} {i : Nat} (hi : i < n kind) :
    ∀ op ∈ unwindPre kind i, op.InRange n := by
  rw [unwindPre_eq]
  apply inRange_cleanups
  intro j hj
  exact Nat.lt_trans (List.mem_range.mp (List.mem_reverse.mp hj)) hi

end Loops

/-- Where there are RXDESC rings there is an RXFILL ring to share. -/
def Shared (n : RingKind → Nat) : Prop := 0 < n .rxdesc → 0 < n .rxfill

/-- What is done to the first `k` rings of a kind leaves their descriptors held. -/
structure SetsUp (n : RingKind → Nat) (kind : RingKind) (k : Nat) (ops : List RingOp) : Prop where
  settles : ∀ held, settle ringAct held ops = some (descsOf kind (List.range k) + held)
  inRange : Shared n → ∀ op ∈ ops, op.InRange n

/-- What is done to a ring before its allocation acquires nothing, and works on this ring. -/
structure Prepares (n : RingKind → Nat) (kind : RingKind) (pre : Nat → List RingOp) : Prop where
  neither : ∀ i, ∀ op ∈ pre i, ringAct op = .neither
  inRange : Shared n → ∀ i < n kind, ∀ op ∈ pre i, op.InRange n

theorem assignRing_prepares (n : RingKind → Nat) (kind : RingKind) :
    Prepares n kind (assignRing kind) := by
  constructor
  · intro i op hop
    rw [List.mem_singleton.mp hop]
    rfl
  · intro _ i hi op hop
    rw [List.mem_singleton.mp hop]
    exact ⟨Int.natCast_nonneg i, Int.ofNat_lt.mpr hi⟩

theorem assignRxdesc_prepares (n : RingKind → Nat) : Prepares n .rxdesc (assignRxdesc n) := by
  constructor
  · intro i op hop
    rcases List.mem_pair.mp hop with rfl | rfl
    · rfl
    · rfl
  · intro hshared i hi op hop
    have hring : 0 ≤ (i : Int) ∧ (i : Int) < n .rxdesc :=
      ⟨Int.natCast_nonneg i, Int.ofNat_lt.mpr hi⟩
    have hfill : 0 < n .rxfill := hshared (by omega)
    rcases List.mem_pair.mp hop with rfl | rfl
    · exact hring
    · exact ⟨hring, Int.natCast_nonneg _, Int.ofNat_lt.mpr (Nat.mod_lt _ hfill)⟩

/-- The loop over the rings of one kind sets up all of them, or those before the ring that
    fails. -/
theorem setupRings_setsUp {n : RingKind → Nat} {kind : RingKind} {pre : Nat → List RingOp}
    (hpre : Prepares n kind pre) (ok : Nat → Bool) :
    (∃ ops, setupRings pre kind ok (n kind) 0 = (ops, none) ∧ (∀ i < n kind, ok i = true) ∧
        SetsUp n kind (n kind) ops) ∨
      ∃ ops, ∃ i < n kind, setupRings pre kind ok (n kind) 0 = (ops, some i) ∧ ok i = false ∧
        SetsUp n kind i ops := by
  rcases setupRings_cases pre kind ok (n kind) 0 with ⟨hall, hok⟩ | ⟨i, hi, hfail, hbad⟩
  · rw [← List.range_eq_range'] at hall
    refine Or.inl ⟨_, hall, fun i hi => hok i (Nat.zero_le i) (by omega), ?_, ?_⟩
    · exact fun held => settle_setupOps hpre.neither kind held _
    · exact fun hshared => inRange_setupOps (hpre.inRange hshared) fun i hi => List.mem_range.mp hi
  · rw [Nat.zero_add] at hfail hbad
    rw [← List.range_eq_range'] at hfail
    refine Or.inr ⟨_, i, hi, hfail, hbad, ?_, ?_⟩
    · intro held
      rw [settle_append_some (settle_setupOps hpre.neither kind held _)]
      exact settle_of_neither (hpre.neither i)
    · intro hshared op hop
      rcases List.mem_append.mp hop with hop | hop
      · refine inRange_setupOps (hpre.inRange hshared) ?_ op hop
        intro j hj
        exact Nat.lt_trans (List.mem_range.mp hj) hi
      · exact hpre.inRange hshared i hi op hop

/-- Every descriptor allocation of a transmit ring succeeds. -/
def RingEnv.TxOk (n : RingKind → Nat) (env : RingEnv) : Prop :=
  (∀ i < n .txdesc, env.desc .txdesc i = true) ∧ ∀ i < n .txcmpl, env.desc .txcmpl i = true

theorem notMem_add {a : RingRes} {s t : Multiset RingRes} (hs : a ∉ s) (ht : a ∉ t) :
    a ∉ s + t := by
  rw [Multiset.mem_add, not_or]
  exact ⟨hs, ht⟩

/-- The unwinding of a transmit loop releases the ring before the first. -/
theorem mem_unwindPost (kind : RingKind) (i : Nat) :
    RingOp.cleanup kind (-1) ∈ unwindPost kind i := by
  rw [unwindPost_eq]
  exact List.mem_append_right _ (List.mem_singleton.mpr rfl)

/-- The setup succeeds, or a transmit loop fails and releases the ring before the first, or a
    receive loop fails and everything is released. -/
theorem edmaSetupRingResources_cases (n : RingKind → Nat) (env : RingEnv) :
    ((edmaSetupRingResources n env).1 = 0 ∧ (∀ kind, ∀ i < n kind, env.desc kind i = true) ∧
      (Shared n → ∀ op ∈ (edmaSetupRingResources n env).2, op.InRange n)) ∨
    ((edmaSetupRingResources n env).1 = eNoMem ∧ ¬ env.TxOk n ∧
      (∃ kind, .cleanup kind (-1) ∈ (edmaSetupRingResources n env).2) ∧
      ∀ held, (∀ kind, RingRes.desc kind (-1) ∉ held) →
        settle ringAct held (edmaSetupRingResources n env).2 = none) ∨
    ((edmaSetupRingResources n env).1 = eNoMem ∧ env.TxOk n ∧
      (∃ kind, ∃ i < n kind, env.desc kind i = false) ∧
      (∀ held, settle ringAct held (edmaSetupRingResources n env).2 = some held) ∧
      (Shared n → ∀ op ∈ (edmaSetupRingResources n env).2, op.InRange n)) := by
  rcases setupRings_setsUp (assignRing_prepares n .txdesc) (env.desc .txdesc) with
    ⟨txdesc, heq₁, hok₁, h₁⟩ | ⟨txdesc, i, hi, heq₁, hbad, h₁⟩
  swap
  · -- a TXDESC ring fails
    refine Or.inr (Or.inl ?_)
    simp only [edmaSetupRingResources, heq₁]
    refine ⟨trivial, ?_, ⟨.txdesc, List.mem_append_right _ (mem_unwindPost _ _)⟩, ?_⟩
    · intro htx
      rw [htx.1 i hi] at hbad
      cases hbad
    · intro held hneg
      rw [settle_append_some (h₁.settles held)]
      exact settle_unwindPost i (hneg _)
  rcases setupRings_setsUp (assignRing_prepares n .txcmpl) (env.desc .txcmpl) with
    ⟨txcmpl, heq₂, hok₂, h₂⟩ | ⟨txcmpl, i, hi, heq₂, hbad, h₂⟩
  swap
  · -- a TXCMPL ring fails
    refine Or.inr (Or.inl ?_)
    simp only [edmaSetupRingResources, heq₁, heq₂]
    refine ⟨trivial, ?_, ⟨.txcmpl, List.mem_append_left _ (List.mem_append_right _
      (mem_unwindPost _ _))⟩, ?_⟩
    · intro htx
      rw [htx.2 i hi] at hbad
      cases hbad
    · intro held hneg
      apply settle_append_none
      rw [List.append_assoc, settle_append_some (h₁.settles held),
        settle_append_some (h₂.settles _)]
      exact settle_unwindPost i (notMem_add (neg_notMem_descsOf _ _ _) (hneg _))
  have htx : env.TxOk n := ⟨hok₁, hok₂⟩
  rcases setupRings_setsUp (assignRing_prepares n .rxfill) (env.desc .rxfill) with
    ⟨rxfill, heq₃, hok₃, h₃⟩ | ⟨rxfill, i, hi, heq₃, hbad, h₃⟩
  swap
  · -- an RXFILL ring fails
    refine Or.inr (Or.inr ?_)
    simp only [edmaSetupRingResources, heq₁, heq₂, heq₃]
    refine ⟨trivial, htx, ⟨_, i, hi, hbad⟩, ?_, ?_⟩
    · intro held
      simp only [List.append_assoc]
      rw [settle_append_some (h₁.settles held), settle_append_some (h₂.settles _),
        settle_append_some (h₃.settles _), settle_append_some (settle_unwindPre _ _ _),
        settle_append_some (settle_cleanupRings _ _ _)]
      exact settle_cleanupRings _ _ _
    · intro hshared
      simp only [List.forall_mem_append]
      exact ⟨⟨⟨⟨⟨h₁.inRange hshared, h₂.inRange hshared⟩, h₃.inRange hshared⟩,
        inRange_unwindPre hi⟩, inRange_cleanupRings _ _⟩, inRange_cleanupRings _ _⟩
  rcases setupRings_setsUp (assignRxdesc_prepares n) (env.desc .rxdesc) with
    ⟨rxdesc, heq₄, hok₄, h₄⟩ | ⟨rxdesc, i, hi, heq₄, hbad, h₄⟩
  · refine Or.inl ?_
    simp only [edmaSetupRingResources, heq₁, heq₂, heq₃, heq₄]
    refine ⟨trivial, ?_, ?_⟩
    · intro kind
      cases kind with
      | txdesc => exact hok₁
      | txcmpl => exact hok₂
      | rxfill => exact hok₃
      | rxdesc => exact hok₄
    · intro hshared
      simp only [List.forall_mem_append]
      exact ⟨⟨⟨h₁.inRange hshared, h₂.inRange hshared⟩, h₃.inRange hshared⟩, h₄.inRange hshared⟩
  · -- an RXDESC ring fails
    refine Or.inr (Or.inr ?_)
    simp only [edmaSetupRingResources, heq₁, heq₂, heq₃, heq₄]
    refine ⟨trivial, htx, ⟨_, i, hi, hbad⟩, ?_, ?_⟩
    · intro held
      simp only [List.append_assoc]
      rw [settle_append_some (h₁.settles held), settle_append_some (h₂.settles _),
        settle_append_some (h₃.settles _), settle_append_some (h₄.settles _),
        settle_append_some (settle_unwindPre _ _ _),
        settle_append_some (settle_cleanupRings _ _ _),
        settle_append_some (settle_cleanupRings _ _ _)]
      exact settle_cleanupRings _ _ _
    · intro hshared
      simp only [List.forall_mem_append]
      exact ⟨⟨⟨⟨⟨⟨⟨h₁.inRange hshared, h₂.inRange hshared⟩, h₃.inRange hshared⟩,
        h₄.inRange hshared⟩, inRange_unwindPre hi⟩, inRange_cleanupRings _ _⟩,
        inRange_cleanupRings _ _⟩, inRange_cleanupRings _ _⟩

/-- The setup of the rings alone unwinds where a receive ring fails, and only there. -/
theorem edmaSetupRingResources_unwound_iff {n : RingKind → Nat} {env : RingEnv}
    (hfill : 0 < n .rxfill) (hfail : ∃ kind, ∃ i < n kind, env.desc kind i = false) :
    Unwound n (edmaSetupRingResources n env) ↔ env.TxOk n := by
  obtain ⟨kind, i, hi, hbad⟩ := hfail
  rcases edmaSetupRingResources_cases n env with ⟨-, hok, -⟩ | ⟨-, htx, -, hsettle⟩ |
    ⟨hret, htx, -, hsettle, hinRange⟩
  · rw [hok kind i hi] at hbad
    cases hbad
  · refine iff_of_false ?_ htx
    intro h
    have hsettled := h.settled
    rw [hsettle 0 fun _ => Multiset.notMem_zero _] at hsettled
    cases hsettled
  · exact iff_of_true ⟨hret, hsettle 0, hinRange fun _ => hfill⟩ htx

/-- Where an array cannot be allocated, those before it are released. -/
theorem edmaAllocRings_unwound {env : RingEnv} (n : RingKind → Nat)
    (hfail : ∃ kind, env.array kind = false) : Unwound n (edmaAllocRings env) := by
  rw [edmaAllocRings]
  cases hrxfill : env.array .rxfill with
  | false => exact ⟨rfl, rfl, fun op hop => absurd hop List.not_mem_nil⟩
  | true =>
    cases hrxdesc : env.array .rxdesc with
    | false => exact ⟨rfl, rfl, by simp [RingOp.InRange]⟩
    | true =>
      cases htxdesc : env.array .txdesc with
      | false => exact ⟨rfl, rfl, by simp [RingOp.InRange]⟩
      | true =>
        cases htxcmpl : env.array .txcmpl with
        | false => exact ⟨rfl, rfl, by simp [RingOp.InRange]⟩
        | true =>
          obtain ⟨kind, hbad⟩ := hfail
          cases kind with
          | txdesc => exact absurd (htxdesc.symm.trans hbad) (by decide)
          | txcmpl => exact absurd (htxcmpl.symm.trans hbad) (by decide)
          | rxfill => exact absurd (hrxfill.symm.trans hbad) (by decide)
          | rxdesc => exact absurd (hrxdesc.symm.trans hbad) (by decide)

theorem edmaAllocRings_ok {env : RingEnv} (hok : ∀ kind, env.array kind = true) :
    edmaAllocRings env =
      (0, [.kzalloc .rxfill, .kzalloc .rxdesc, .kzalloc .txdesc, .kzalloc .txcmpl]) := by
  simp [edmaAllocRings, hok]

/-- The four arrays. -/
def ringArrays : Multiset RingRes :=
  ↑[RingRes.array .txcmpl, .array .txdesc, .array .rxdesc, .array .rxfill]

/-- For all numbers of rings and every pattern of failing allocations: a failing
    `edma_init_rings` has unwound exactly if and only if an array could not be allocated. -/
theorem edmaInitRings_unwound_iff {n : RingKind → Nat} {env : RingEnv} (hfail : env.Fails n) :
    Unwound n (edmaInitRings n env) ↔ ∃ kind, env.array kind = false := by
  by_cases harray : ∃ kind, env.array kind = false
  · have hunwound := edmaAllocRings_unwound n harray
    have hne : (edmaAllocRings env).1 ≠ 0 := by
      rw [hunwound.ret]
      decide
    refine iff_of_true ?_ harray
    rwa [edmaInitRings, if_pos hne]
  · refine iff_of_false ?_ harray
    have hok : ∀ kind, env.array kind = true := by
      intro kind
      by_contra hbad
      exact harray ⟨kind, Bool.eq_false_iff.mpr hbad⟩
    obtain ⟨kind, i, hi, hbad⟩ := hfail.resolve_left harray
    have hneg : ∀ kind, RingRes.desc kind (-1) ∉ ringArrays := by
      intro kind
      simp [ringArrays]
    intro h
    have hsettled := h.settled
    have hinit : (edmaInitRings n env).2 =
        [.kzalloc .rxfill, .kzalloc .rxdesc, .kzalloc .txdesc, .kzalloc .txcmpl] ++
          (edmaSetupRingResources n env).2 := by
      rw [edmaInitRings, edmaAllocRings_ok hok]
      rfl
    have halloc : settle ringAct 0
        [.kzalloc .rxfill, .kzalloc .rxdesc, .kzalloc .txdesc, .kzalloc .txcmpl] =
          some ringArrays := rfl
    rw [hinit, settle_append_some halloc] at hsettled
    rcases edmaSetupRingResources_cases n env with ⟨-, hdesc, -⟩ | ⟨-, -, -, hsettle⟩ |
      ⟨-, -, -, hsettle, -⟩
    · rw [hdesc kind i hi] at hbad
      cases hbad
    · rw [hsettle _ hneg] at hsettled
      cases hsettled
    · rw [hsettle] at hsettled
      have hcard := congrArg Multiset.card (Option.some.inj hsettled)
      cases hcard

/-- The array of the TXDESC rings fails. -/
def noTxdescArray : RingEnv := ⟨fun kind => kind != .txdesc, fun _ _ => true⟩

theorem edmaInitRings_unwound_iff_array : noTxdescArray.Fails (fun _ => 1) ∧
    (Unwound (fun _ => 1) (edmaInitRings (fun _ => 1) noTxdescArray) ↔
      ∃ kind, noTxdescArray.array kind = false) :=
  ⟨Or.inl ⟨.txdesc, rfl⟩, edmaInitRings_unwound_iff (Or.inl ⟨.txdesc, rfl⟩)⟩

/-- The descriptors of the TXDESC rings fail. -/
def noTxdescDesc : RingEnv := ⟨fun _ => true, fun kind _ => kind != .txdesc⟩

/-- With one ring of each kind, the ring at index -1 is released and the arrays are kept. -/
theorem edmaInitRings_txdesc : noTxdescDesc.Fails (fun _ => 1) ∧
    edmaInitRings (fun _ => 1) noTxdescDesc =
      (eNoMem, [.kzalloc .rxfill, .kzalloc .rxdesc, .kzalloc .txdesc, .kzalloc .txcmpl,
        .assign .txdesc 0, .cleanup .txdesc (-1)]) ∧
    ¬ Unwound (fun _ => 1) (edmaInitRings (fun _ => 1) noTxdescDesc) := by
  refine ⟨Or.inr ⟨.txdesc, 0, by decide, rfl⟩, rfl, ?_⟩
  intro h
  have hinRange := h.inRange (.cleanup .txdesc (-1)) (by decide)
  exact absurd hinRange.1 (by decide)

end NssDp.Edma
