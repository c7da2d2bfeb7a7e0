import NssDp.Edma.DataPlane

/-!
# What `edma_irq_init` and `edma_if_init` do

Either every interrupt is granted, and the masks of the driver's rings are set, or nothing is
written and the interrupts that were granted stay requested. `edma_if_init` asks for
interrupts only until it has been granted them.
-/

namespace NssDp.Edma

variable {ehw : EdmaHw} {env : IrqEnv}

@[simp] theorem touch_nil (ehw : EdmaHw) : ehw.touch [] = ehw := by
  simp [EdmaHw.touch]

theorem touch_touch (ehw : EdmaHw) (xs ys : List EdmaAccess) :
    (ehw.touch xs).touch ys = ehw.touch (xs ++ ys) := by
  simp [EdmaHw.touch]

/-- The interrupts are requested in order up to the first refusal. -/
theorem requestIrqs_eq (env : IrqEnv) (entry : Nat) (ehw : EdmaHw) (irqs : List Nat) :
    ∃ n, (requestIrqs env entry ehw irqs).2 = ehw.touch ((irqs.take n).map .requestIrq) ∧
      ((requestIrqs env entry ehw irqs).1 = true → n = irqs.length) := by
  induction irqs generalizing entry ehw with
  | nil => exact ⟨0, by simp [requestIrqs], fun _ => rfl⟩
  | cons irq irqs ih =>
    rw [requestIrqs]
    split
    · obtain ⟨n, hn, hall⟩ := ih (entry + 1) (ehw.touch [.requestIrq irq])
      refine ⟨n + 1, ?_, fun h => congrArg (· + 1) (hall h)⟩
      rw [hn, touch_touch, List.take_succ_cons, List.map_cons, List.singleton_append]
    · exact ⟨0, by simp, fun h => nomatch h⟩

theorem requestIrqs_ok_iff (env : IrqEnv) (entry : Nat) (ehw : EdmaHw) (irqs : List Nat) :
    (requestIrqs env entry ehw irqs).1 = true ↔
      ∀ k, entry ≤ k → k < entry + irqs.length → env.requestOk k = true := by
  induction irqs generalizing entry ehw with
  | nil =>
    simp only [requestIrqs, List.length_nil, Nat.add_zero, true_iff]
    intro k hle hlt
    omega
  | cons irq irqs ih =>
    rw [requestIrqs]
    split
    · rename_i hfirst
      rw [ih]
      constructor
      · intro h k hle hlt
        rcases Nat.eq_or_lt_of_le hle with rfl | hgt
        · exact hfirst
        · exact h k hgt (by rw [List.length_cons] at hlt; omega)
      · intro h k hle hlt
        exact h k (by omega) (by rw [List.length_cons]; omega)
    · rename_i hfirst
      refine iff_of_false (fun h => nomatch h) fun h => hfirst (h entry (Nat.le_refl _) ?_)
      rw [List.length_cons]
      omega

theorem requestIrqs_granted {entry : Nat} {irqs : List Nat}
    (h : (requestIrqs env entry ehw irqs).1 = true) :
    (requestIrqs env entry ehw irqs).2 = ehw.touch (irqs.map .requestIrq) := by
  obtain ⟨n, hn, hall⟩ := requestIrqs_eq env entry ehw irqs
  rw [hn, hall h, List.take_length]

/-- The state after `edma_irq_init` has been granted all it asked for. -/
def EdmaHw.irqsReady (ehw : EdmaHw) (env : IrqEnv) : EdmaHw :=
  ((edmaIrqGet ehw env).touch ((edmaIrqGet ehw env).irqs.map .requestIrq)).setIrqMasks

/-- Every request that `edma_irq_init` makes is granted. -/
def IrqsGranted (ehw : EdmaHw) (env : IrqEnv) : Prop :=
  ∀ k ≤ ehw.txcmplRings + ehw.rxfillRings + ehw.rxdescRings, env.requestOk k = true

instance (ehw : EdmaHw) (env : IrqEnv) : Decidable (IrqsGranted ehw env) :=
  inferInstanceAs (Decidable (∀ k ≤ _, _))

theorem edmaIrqInit_granted (h : IrqsGranted ehw env) :
    edmaIrqInit ehw env = (true, ehw.irqsReady env) := by
  have htxcmpl (e : EdmaHw) :
      (requestIrqs env 0 e (edmaIrqGet ehw env).txcmplIrqs).1 = true := by
    refine (requestIrqs_ok_iff _ _ _ _).mpr fun k _ hk => h k ?_
    simp only [EdmaHw.txcmplIrqs, edmaIrqGet, List.length_map, List.length_range] at hk
    omega
  have hrxfill (e : EdmaHw) :
      (requestIrqs env ehw.txcmplRings e (edmaIrqGet ehw env).rxfillIrqs).1 = true := by
    refine (requestIrqs_ok_iff _ _ _ _).mpr fun k _ hk => h k ?_
    simp only [EdmaHw.rxfillIrqs, edmaIrqGet, List.length_map, List.length_range] at hk
    omega
  have hrxdesc (e : EdmaHw) : (requestIrqs env (ehw.txcmplRings + ehw.rxfillRings) e
      (edmaIrqGet ehw env).rxdescIrqs).1 = true := by
    refine (requestIrqs_ok_iff _ _ _ _).mpr fun k _ hk => h k ?_
    simp only [EdmaHw.rxdescIrqs, edmaIrqGet, List.length_map, List.length_range] at hk
    omega
  have hmisc := h _ (Nat.le_refl _)
  have hrings : (edmaIrqGet ehw env).txcmplRings = ehw.txcmplRings ∧
      (edmaIrqGet ehw env).rxfillRings = ehw.rxfillRings ∧
      (edmaIrqGet ehw env).rxdescRings = ehw.rxdescRings := ⟨rfl, rfl, rfl⟩
  simp only [edmaIrqInit, hrings, htxcmpl, hrxfill, hrxdesc, hmisc, Bool.true_eq_false, if_false,
    requestIrqs_granted (htxcmpl _), requestIrqs_granted (hrxfill _),
    requestIrqs_granted (hrxdesc _), touch_touch, EdmaHw.irqsReady, EdmaHw.irqs, List.map_append,
    List.map_cons, List.map_nil, List.append_assoc]

/-- Nothing happens but requests of interrupts and failed releases. -/
def OnlyRequests (ehw ehw' : EdmaHw) : Prop :=
  ∃ l, ehw' = ehw.touch l ∧ ∀ a ∈ l, ∃ irq, a = .requestIrq irq ∨ a = .freeIrqOther irq

theorem OnlyRequests.trans {e₁ e₂ e₃ : EdmaHw} (h₁ : OnlyRequests e₁ e₂)
    (h₂ : OnlyRequests e₂ e₃) : OnlyRequests e₁ e₃ := by
  obtain ⟨xs, rfl, hxs⟩ := h₁
  obtain ⟨ys, rfl, hys⟩ := h₂
  refine ⟨xs ++ ys, touch_touch _ _ _, fun a ha => ?_⟩
  rcases List.mem_append.mp ha with ha | ha
  · exact hxs a ha
  · exact hys a ha

theorem requestIrqs_onlyRequests (env : IrqEnv) (entry : Nat) (ehw : EdmaHw) (irqs : List Nat) :
    OnlyRequests ehw (requestIrqs env entry ehw irqs).2 := by
  obtain ⟨n, hn, -⟩ := requestIrqs_eq env entry ehw irqs
  refine ⟨_, hn, fun a ha => ?_⟩
  obtain ⟨irq, _, rfl⟩ := List.mem_map.mp ha
  exact ⟨irq, Or.inl rfl⟩

theorem freeIrqsOther_onlyRequests (ehw : EdmaHw) (irqs : List Nat) :
    OnlyRequests ehw (ehw.freeIrqsOther irqs) := by
  refine ⟨_, rfl, fun a ha => ?_⟩
  obtain ⟨irq, _, rfl⟩ := List.mem_map.mp ha
  exact ⟨irq, Or.inr rfl⟩

/-- Entries of all kinds of rings and the last one. -/
theorem irqsGranted_of_parts {e₁ e₂ e₃ : EdmaHw}
    (h₁ : (requestIrqs env 0 e₁ (edmaIrqGet ehw env).txcmplIrqs).1 = true)
    (h₂ : (requestIrqs env ehw.txcmplRings e₂ (edmaIrqGet ehw env).rxfillIrqs).1 = true)
    (h₃ : (requestIrqs env (ehw.txcmplRings + ehw.rxfillRings) e₃
      (edmaIrqGet ehw env).rxdescIrqs).1 = true)
    (hmisc : env.requestOk (ehw.txcmplRings + ehw.rxfillRings + ehw.rxdescRings) = true) :
    IrqsGranted ehw env := by
  have h₁' := (requestIrqs_ok_iff _ _ _ _).mp h₁
  have h₂' := (requestIrqs_ok_iff _ _ _ _).mp h₂
  have h₃' := (requestIrqs_ok_iff _ _ _ _).mp h₃
  simp only [EdmaHw.txcmplIrqs, EdmaHw.rxfillIrqs, EdmaHw.rxdescIrqs, edmaIrqGet,
    List.length_map, List.length_range] at h₁' h₂' h₃'
  intro k hk
  rcases Nat.lt_or_ge k ehw.txcmplRings with hlt | hge
  · exact h₁' k (Nat.zero_le _) (by omega)
  rcases Nat.lt_or_ge k (ehw.txcmplRings + ehw.rxfillRings) with hlt | hge'
  · exact h₂' k hge hlt
  rcases Nat.eq_or_lt_of_le hk with rfl | hlt
  · exact hmisc
  · exact h₃' k hge' hlt

/-- Where one request is refused, nothing is written and no interrupt is freed. -/
theorem edmaIrqInit_refused (h : ¬ IrqsGranted ehw env) :
    (edmaIrqInit ehw env).1 = false ∧
      OnlyRequests (edmaIrqGet ehw env) (edmaIrqInit ehw env).2 := by
  have htxcmpl := requestIrqs_onlyRequests env 0 (edmaIrqGet ehw env)
    (edmaIrqGet ehw env).txcmplIrqs
  have hrxfill (e : EdmaHw) := requestIrqs_onlyRequests env ehw.txcmplRings e
    (edmaIrqGet ehw env).rxfillIrqs
  have hrxdesc (e : EdmaHw) := requestIrqs_onlyRequests env (ehw.txcmplRings + ehw.rxfillRings) e
    (edmaIrqGet ehw env).rxdescIrqs
  have hfree := freeIrqsOther_onlyRequests
  simp only [edmaIrqInit]
  split
  · exact ⟨rfl, htxcmpl⟩
  rename_i h₁
  split
  · exact ⟨rfl, htxcmpl.trans ((hrxfill _).trans (hfree _ _))⟩
  rename_i h₂
  split
  · exact ⟨rfl, htxcmpl.trans ((hrxfill _).trans ((hrxdesc _).trans
      ((hfree _ _).trans (hfree _ _))))⟩
  rename_i h₃
  split
  · exact ⟨rfl, htxcmpl.trans ((hrxfill _).trans ((hrxdesc _).trans
      ((hfree _ _).trans ((hfree _ _).trans (hfree _ _)))))⟩
  · rename_i hmisc
    rw [Bool.not_eq_false] at h₁ h₂ h₃ hmisc
    exact absurd (irqsGranted_of_parts h₁ h₂ h₃ hmisc) h

/-- The numbers of ports that can be registered with EDMA. -/
def GmacValid (soc : Soc) (macid : Nat) : Prop := soc.startIfnum ≤ macid ∧ macid ≤ soc.maxPorts

instance (soc : Soc) (macid : Nat) : Decidable (GmacValid soc macid) :=
  inferInstanceAs (Decidable (_ ∧ _))

@[simp] theorem setNetdev_napiAdded (ehw : EdmaHw) (macid : Nat) :
    (ehw.setNetdev macid).napiAdded = ehw.napiAdded := rfl

section IfInit

variable {soc : Soc} {netdev : NetDevice}

theorem edmaIfInit_rejected (h : ¬ GmacValid soc netdev.macid) :
    edmaIfInit soc ehw netdev env = (.failure, ehw, netdev) := by
  have hbad : netdev.macid < soc.startIfnum ∨ soc.maxPorts < netdev.macid := by
    rw [GmacValid] at h
    omega
  simp [edmaIfInit, edmaRegisterNetdevice, hbad]

theorem edmaIfInit_added (h : GmacValid soc netdev.macid) (hadded : ehw.napiAdded = true) :
    (edmaIfInit soc ehw netdev env).1 = .success ∧
      (edmaIfInit soc ehw netdev env).2.1 = ehw.setNetdev netdev.macid := by
  have hgood : ¬ (netdev.macid < soc.startIfnum ∨ soc.maxPorts < netdev.macid) := by
    obtain ⟨hlow, hhigh⟩ := h
    omega
  simp [edmaIfInit, edmaRegisterNetdevice, hgood, hadded]

theorem edmaIfInit_granted (h : GmacValid soc netdev.macid) (hadded : ehw.napiAdded = false)
    (hgranted : IrqsGranted ehw env) :
    (edmaIfInit soc ehw netdev env).1 = .success ∧
      (edmaIfInit soc ehw netdev env).2.1 =
        { (ehw.setNetdev netdev.macid).netifNapiAdd.irqsReady env with napiAdded := true } := by
  have hgood : ¬ (netdev.macid < soc.startIfnum ∨ soc.maxPorts < netdev.macid) := by
    obtain ⟨hlow, hhigh⟩ := h
    omega
  have hirq : edmaIrqInit (ehw.setNetdev netdev.macid).netifNapiAdd env =
      (true, (ehw.setNetdev netdev.macid).netifNapiAdd.irqsReady env) :=
    edmaIrqInit_granted hgranted
  simp [edmaIfInit, edmaRegisterNetdevice, hgood, hadded, hirq]

theorem edmaIfInit_refused (h : GmacValid soc netdev.macid) (hadded : ehw.napiAdded = false)
    (hrefused : ¬ IrqsGranted ehw env) :
    (edmaIfInit soc ehw netdev env).1 = .failure ∧
      OnlyRequests (edmaIrqGet (ehw.setNetdev netdev.macid).netifNapiAdd env)
        (edmaIfInit soc ehw netdev env).2.1 := by
  have hgood : ¬ (netdev.macid < soc.startIfnum ∨ soc.maxPorts < netdev.macid) := by
    obtain ⟨hlow, hhigh⟩ := h
    omega
  have hirq : (edmaIrqInit (ehw.setNetdev netdev.macid).netifNapiAdd env).1 = false ∧
      OnlyRequests (edmaIrqGet (ehw.setNetdev netdev.macid).netifNapiAdd env)
        (edmaIrqInit (ehw.setNetdev netdev.macid).netifNapiAdd env).2 :=
    edmaIrqInit_refused hrefused
  simp [edmaIfInit, edmaRegisterNetdevice, hgood, hadded, hirq]

end IfInit

end NssDp.Edma
