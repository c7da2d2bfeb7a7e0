import NssDp.Edma.Proofs.Accesses
import NssDp.Edma.Proofs.TxOwnership
import NssDp.Misc.Lts
import NssDp.Misc.Pairing

/-!
# The books of the interrupt registration

A handler is registered for an interrupt number and a device, and only the same pair removes
it. The failure path of `edma_irq_init` removes handlers of another device, so what has been
registered before a refusal stays. A call that is to be tried again does no harm only where it
is refused at once.
-/

namespace NssDp.Edma

open Lts Pairing

/-- The `dev_id` a handler is registered with: `edma_hw.pdev`, or `&edma_hw.pdev->dev`. -/
inductive IrqDev where
  | pdev
  | dev
  deriving DecidableEq, Repr

/-- What an access does to the registered handlers. -/
def irqAct : EdmaAccess → Act (Nat × IrqDev)
  | .requestIrq irq => .acquire (irq, .pdev)
  | .freeIrq irq => .release (irq, .pdev)
  | .freeIrqOther irq => .release (irq, .dev)
  | _ => .neither

/-- The number of the last entry, that of the misc interrupt. -/
def EdmaHw.miscEntry (ehw : EdmaHw) : Nat := ehw.txcmplRings + ehw.rxfillRings + ehw.rxdescRings

/-- `platform_get_irq` returns a number for every entry. -/
def NumbersObtained (ehw : EdmaHw) (env : IrqEnv) : Prop :=
  ∀ k ≤ ehw.miscEntry, 0 ≤ env.getIrq k

/-- An instance on which `edma_register_netdevice` is tried, with the number of calls of
    `netif_napi_add` and what the call of `edma_irq_init` met that returned 0. -/
structure IrqRun where
  ehw : EdmaHw
  napiAdds : Nat
  granted : Option IrqEnv

/-- The call gets as far as `netif_napi_add`. -/
def AddsNapi (soc : Soc) (ehw : EdmaHw) (netdev : NetDevice) : Prop :=
  GmacValid soc netdev.macid ∧ ehw.napiAdded = false

instance (soc : Soc) (ehw : EdmaHw) (netdev : NetDevice) : Decidable (AddsNapi soc ehw netdev) :=
  inferInstanceAs (Decidable (_ ∧ _))

/-- A call of `edma_register_netdevice`. -/
def irqStep (soc : Soc) (s : IrqRun) (a : NetDevice × IrqEnv) : Option IrqRun :=
  let r := edmaRegisterNetdevice soc s.ehw a.1 a.2
  some {
    ehw := r.2
    napiAdds := if AddsNapi soc s.ehw a.1 then s.napiAdds + 1 else s.napiAdds
    granted := if AddsNapi soc s.ehw a.1 ∧ r.1 = true then some a.2 else s.granted }

/-- The handlers of all rings and the misc handler. -/
def EdmaHw.handlers (ehw : EdmaHw) : Multiset (Nat × IrqDev) :=
  ↑(ehw.irqs.map fun irq => (irq, IrqDev.pdev))

/-- As long as no call has succeeded, every handler that was registered has been removed. After
    one has, every number was obtained and every request granted to it, each ring and the misc
    interrupt have one handler, and NAPI has been added once. -/
structure IrqAllOrNothing (s : IrqRun) : Prop where
  failed : s.ehw.napiAdded = false → settle irqAct 0 s.ehw.log = some 0
  registered : s.ehw.napiAdded = true → (∃ env, s.granted = some env ∧
      NumbersObtained s.ehw env ∧ IrqsGranted s.ehw env) ∧
    settle irqAct 0 s.ehw.log = some s.ehw.handlers ∧ s.napiAdds = 1

/-- A call changes nothing, or is refused its first interrupt, or is the first and obtains and
    is granted all of them. -/
def AttemptOk (soc : Soc) (s : IrqRun) (a : NetDevice × IrqEnv) : Prop :=
  AddsNapi soc s.ehw a.1 → a.2.requestOk 0 = false ∨
    (s.napiAdds = 0 ∧ NumbersObtained s.ehw a.2 ∧ IrqsGranted s.ehw a.2)

section Refused

variable {ehw : EdmaHw} {env : IrqEnv}

/-- `requested` and `freed` are what a refused call has requested, and what it has freed with
    another `dev_id`: nothing where already the first request is refused. -/
structure RefusedWith (env : IrqEnv) (requested freed : List Nat) : Prop where
  some_of_ok : env.requestOk 0 = true → requested ≠ []
  none_of_not : env.requestOk 0 = false → requested = [] ∧ freed = []

/-- A loop of requests that is refused has requested the interrupts before the refusal. -/
theorem requestIrqs_refused (ehw : EdmaHw) {entry : Nat} {irqs : List Nat}
    (h : (requestIrqs env entry ehw irqs).1 = false) : ∃ requested : List Nat,
    (requestIrqs env entry ehw irqs).2 = ehw.touch (requested.map .requestIrq) ∧
      (env.requestOk entry = true → requested ≠ []) ∧
      (env.requestOk entry = false → requested = []) := by
  cases irqs with
  | nil => cases h
  | cons irq irqs =>
    by_cases hfirst : env.requestOk entry = true
    · obtain ⟨n, hn, -⟩ := requestIrqs_eq env (entry + 1) (ehw.touch [.requestIrq irq]) irqs
      refine ⟨irq :: irqs.take n, ?_, fun _ => List.cons_ne_nil _ _, ?_⟩
      · rw [requestIrqs, if_pos hfirst, hn, touch_touch, List.map_cons, List.singleton_append]
      · intro hbad
        rw [hfirst] at hbad
        cases hbad
    · refine ⟨[], ?_, fun hok => absurd hok hfirst, fun _ => rfl⟩
      rw [requestIrqs, if_neg hfirst, List.map_nil, touch_nil]

/-- The first `n` requests are granted. -/
def GrantedUpTo (env : IrqEnv) (n : Nat) : Prop := ∀ k < n, env.requestOk k = true

theorem GrantedUpTo.append {n : Nat} {irqs : List Nat} (hn : GrantedUpTo env n)
    (h : (requestIrqs env n ehw irqs).1 = true) : GrantedUpTo env (n + irqs.length) := by
  have hloop := (requestIrqs_ok_iff _ _ _ _).mp h
  intro k hk
  rcases Nat.lt_or_ge k n with hlt | hge
  · exact hn k hlt
  · exact hloop k hge hk

/-- A refused call that finds `ehw` leaves `ehw'`. -/
def RefusedTo (env : IrqEnv) (ehw ehw' : EdmaHw) : Prop := ∃ requested freed,
  ehw' = ehw.touch (requested.map .requestIrq ++ freed.map .freeIrqOther) ∧
    RefusedWith env requested freed

/-- Loops of requests have been granted the interrupts in `before`, and nothing else has happened
    to `ehw`. -/
structure GrantedTo (env : IrqEnv) (ehw ehw' : EdmaHw) (before : List Nat) : Prop where
  requested : ehw' = ehw.touch (before.map .requestIrq)
  granted : GrantedUpTo env before.length

namespace GrantedTo

variable {ehw' : EdmaHw} {before irqs : List Nat} {entry : Nat}

theorem nil (env : IrqEnv) (ehw : EdmaHw) : GrantedTo env ehw ehw [] :=
  ⟨(touch_nil ehw).symm, fun _ hk => absurd hk (Nat.not_lt_zero _)⟩

/-- One more loop is granted all its requests. -/
theorem loop (h : GrantedTo env ehw ehw' before) (hentry : before.length = entry)
    (hok : (requestIrqs env entry ehw' irqs).1 = true) :
    GrantedTo env ehw (requestIrqs env entry ehw' irqs).2 (before ++ irqs) := by
  subst hentry
  constructor
  · rw [requestIrqs_granted hok, h.requested, touch_touch, List.map_append]
  · rw [List.length_append]
    exact h.granted.append hok

/-- One more loop is refused, and then `freed` is freed. -/
theorem refused (h : GrantedTo env ehw ehw' before) (hentry : before.length = entry)
    (hbad : (requestIrqs env entry ehw' irqs).1 = false) {freed : List Nat}
    (hfreed : before = [] → freed = []) :
    RefusedTo env ehw ((requestIrqs env entry ehw' irqs).2.freeIrqsOther freed) := by
  subst hentry
  obtain ⟨requested, heq, hok, hnone⟩ := requestIrqs_refused _ hbad
  refine ⟨before ++ requested, freed, ?_, ?_, ?_⟩
  · rw [heq, h.requested, EdmaHw.freeIrqsOther, touch_touch, touch_touch, List.map_append,
      List.append_assoc]
  · intro hfirst hnil
    obtain ⟨rfl, rfl⟩ := List.append_eq_nil_iff.mp hnil
    exact hok hfirst rfl
  · intro hfirst
    cases before with
    | nil => exact ⟨hnone hfirst, hfreed rfl⟩
    | cons irq before =>
      rw [h.granted 0 (Nat.succ_pos _)] at hfirst
      cases hfirst

/-- The request for one more interrupt, as a loop over it. -/
theorem refused_one (h : GrantedTo env ehw ehw' before) (hentry : before.length = entry)
    (hbad : env.requestOk entry = false) {freed : List Nat} (hfreed : before = [] → freed = []) :
    RefusedTo env ehw (ehw'.freeIrqsOther freed) := by
  have hone : requestIrqs env entry ehw' [ehw.miscIntr] = (false, ehw') := by
    rw [requestIrqs, if_neg (Bool.eq_false_iff.mp hbad)]
  have hrefused := h.refused hentry (by rw [hone]) hfreed
  rwa [hone] at hrefused

end GrantedTo

theorem freeIrqsOther_append (ehw : EdmaHw) (xs ys : List Nat) :
    (ehw.freeIrqsOther xs).freeIrqsOther ys = ehw.freeIrqsOther (xs ++ ys) := by
  rw [EdmaHw.freeIrqsOther, EdmaHw.freeIrqsOther, EdmaHw.freeIrqsOther, touch_touch,
    List.map_append]

@[simp] theorem txcmplIrqs_length (ehw : EdmaHw) : ehw.txcmplIrqs.length = ehw.txcmplRings := by
  rw [EdmaHw.txcmplIrqs, List.length_map, List.length_range]

@[simp] theorem rxfillIrqs_length (ehw : EdmaHw) : ehw.rxfillIrqs.length = ehw.rxfillRings := by
  rw [EdmaHw.rxfillIrqs, List.length_map, List.length_range]

@[simp] theorem rxdescIrqs_length (ehw : EdmaHw) : ehw.rxdescIrqs.length = ehw.rxdescRings := by
  rw [EdmaHw.rxdescIrqs, List.length_map, List.length_range]

/-- What `edma_irq_init` does where it returns -1: it stops at the first refusal, and frees what
    it has requested before the loop that was refused. -/
theorem edmaIrqInit_refusedTo (h : ¬ IrqsGranted ehw env) :
    (edmaIrqInit ehw env).1 = false ∧
      RefusedTo env (edmaIrqGet ehw env) (edmaIrqInit ehw env).2 := by
  have hstart := GrantedTo.nil env (edmaIrqGet ehw env)
  unfold edmaIrqInit
  simp only
  split
  · rename_i h₁
    have hrefused := hstart.refused rfl h₁ id
    rw [EdmaHw.freeIrqsOther, List.map_nil, touch_nil] at hrefused
    exact ⟨rfl, hrefused⟩
  rename_i h₁
  rw [Bool.not_eq_false] at h₁
  have htxcmpl := hstart.loop rfl h₁
  rw [List.nil_append] at htxcmpl
  split
  · rename_i h₂
    exact ⟨rfl, htxcmpl.refused (by simp) h₂ id⟩
  rename_i h₂
  rw [Bool.not_eq_false] at h₂
  have hrxfill := htxcmpl.loop (by simp) h₂
  split
  · rename_i h₃
    rw [freeIrqsOther_append]
    exact ⟨rfl, hrxfill.refused (by simp) h₃ (by simp +contextual)⟩
  rename_i h₃
  rw [Bool.not_eq_false] at h₃
  have hrxdesc := hrxfill.loop (by simp) h₃
  split
  · rename_i hmisc
    rw [freeIrqsOther_append, freeIrqsOther_append]
    exact ⟨rfl, hrxdesc.refused_one (by simp [Nat.add_assoc]) hmisc (by simp +contextual)⟩
  · rename_i hmisc
    rw [Bool.not_eq_false] at hmisc
    exact absurd (irqsGranted_of_parts h₁ h₂ h₃ hmisc) h

end Refused

section Books

variable {held held' : Multiset (Nat × IrqDev)}

theorem irqAct_requestIrq (irq : Nat) : irqAct (.requestIrq irq) = .acquire (irq, .pdev) := rfl

/-- Handlers that are registered stay, and nothing of the other device is ever removed. -/
theorem settle_refused (hheld : ∀ irq, (irq, IrqDev.dev) ∉ held) (requested freed : List Nat)
    (h : settle irqAct held (requested.map .requestIrq ++ freed.map .freeIrqOther) = some held) :
    requested = [] ∧ freed = [] := by
  rw [settle_append_some (settle_map_acquire irqAct_requestIrq requested)] at h
  cases freed with
  | nil =>
    have hcard := congrArg Multiset.card (Option.some.inj h)
    rw [Multiset.card_add, Multiset.coe_card, List.length_map] at hcard
    exact ⟨List.length_eq_zero_iff.mp (by omega), rfl⟩
  | cons irq freed =>
    have hact : irqAct (.freeIrqOther irq) = .release (irq, .dev) := rfl
    have hnot : (irq, IrqDev.dev) ∉
        (↑(requested.map fun irq => (irq, IrqDev.pdev)) : Multiset (Nat × IrqDev)) + held := by
      rw [Multiset.mem_add, not_or]
      refine ⟨?_, hheld irq⟩
      intro hmem
      obtain ⟨i, -, hi⟩ := List.mem_map.mp (Multiset.mem_coe.mp hmem)
      cases (Prod.mk.inj hi).2
    rw [List.map_cons, settle_release hact, if_neg hnot] at h
    cases h

theorem irqAct_of_isUse {a : EdmaAccess} (h : a.isUse = true) : irqAct a = .neither := by
  cases a with
  | regRead reg => rfl
  | regWrite reg => rfl
  | ringArray => rfl
  | freeDesc kind ring => rfl
  | requestIrq irq => cases h
  | freeIrq irq => cases h
  | freeIrqOther irq => cases h
  | freeRings => cases h
  | iounmap => cases h
  | releaseMemRegion => cases h

end Books

/-- The instance as `edma_irq_init` finds it. -/
def EdmaHw.registering (ehw : EdmaHw) (macid : Nat) : EdmaHw := (ehw.setNetdev macid).netifNapiAdd

section Register

variable {soc : Soc} {ehw : EdmaHw} {netdev : NetDevice} {env : IrqEnv}

/-- A call that does not get to `netif_napi_add` enters the port in the table at most. -/
theorem edmaRegisterNetdevice_other (h : ¬ AddsNapi soc ehw netdev) :
    (edmaRegisterNetdevice soc ehw netdev env).2 = ehw ∨
      (edmaRegisterNetdevice soc ehw netdev env).2 = ehw.setNetdev netdev.macid := by
  unfold edmaRegisterNetdevice
  split
  · exact Or.inl rfl
  · rename_i hvalid
    have hadded : ehw.napiAdded = true := by
      by_contra hnot
      refine h ⟨⟨?_, ?_⟩, Bool.eq_false_iff.mpr hnot⟩
      · omega
      · omega
    simp only [setNetdev_napiAdded, hadded, if_true]
    exact Or.inr trivial

theorem edmaRegisterNetdevice_adds (h : AddsNapi soc ehw netdev) :
    edmaRegisterNetdevice soc ehw netdev env =
      if (edmaIrqInit (ehw.registering netdev.macid) env).1 then
        (true, { (edmaIrqInit (ehw.registering netdev.macid) env).2 with napiAdded := true })
      else (false, (edmaIrqInit (ehw.registering netdev.macid) env).2) := by
  obtain ⟨⟨hlow, hhigh⟩, hadded⟩ := h
  have hvalid : ¬ (netdev.macid < soc.startIfnum ∨ soc.maxPorts < netdev.macid) := by omega
  simp only [edmaRegisterNetdevice, hvalid, if_false, setNetdev_napiAdded, hadded,
    Bool.false_eq_true, EdmaHw.registering]
  rfl

theorem device_handlers (ehw : EdmaHw) : ehw.device.handlers = ehw.handlers := rfl

theorem device_miscEntry (ehw : EdmaHw) : ehw.device.miscEntry = ehw.miscEntry := rfl

/-- The registration of all handlers changes nothing else of the books, and the masks no
    handler. -/
theorem irqsReady_books (hsettle : settle irqAct 0 ehw.log = some 0) :
    settle irqAct 0 (ehw.irqsReady env).log = some (ehw.irqsReady env).handlers ∧
      (ehw.irqsReady env).miscEntry = ehw.miscEntry := by
  obtain ⟨l, hwork, -⟩ := setIrqMasks_ringWork
    ((edmaIrqGet ehw env).touch ((edmaIrqGet ehw env).irqs.map .requestIrq))
  have hhandlers := congrArg EdmaHw.handlers hwork.device
  have hentry := congrArg EdmaHw.miscEntry hwork.device
  rw [device_handlers, device_handlers] at hhandlers
  rw [device_miscEntry, device_miscEntry] at hentry
  rw [EdmaHw.irqsReady, hhandlers, hentry, hwork.log]
  refine ⟨?_, rfl⟩
  have htouch : ((edmaIrqGet ehw env).touch ((edmaIrqGet ehw env).irqs.map .requestIrq)).log =
      ehw.log ++ (edmaIrqGet ehw env).irqs.map .requestIrq := rfl
  rw [htouch, List.append_assoc, settle_append_some hsettle,
    settle_append_some (settle_map_acquire irqAct_requestIrq _), Multiset.add_zero]
  exact settle_of_neither fun a ha => irqAct_of_isUse (hwork.uses a ha)

end Register

namespace IrqAllOrNothing

variable {soc : Soc} {s t : IrqRun} {a : NetDevice × IrqEnv}

/-- A call that does not get to `netif_napi_add` leaves the books alone. -/
theorem step_other (h : IrqAllOrNothing s) (hother : ¬ AddsNapi soc s.ehw a.1)
    (hstep : irqStep soc s a = some t) : IrqAllOrNothing t := by
  cases hstep
  simp only [hother, if_false, false_and]
  rcases @edmaRegisterNetdevice_other soc s.ehw a.1 a.2 hother with heq | heq
  · rw [heq]
    exact ⟨h.failed, h.registered⟩
  · rw [heq]
    exact ⟨h.failed, h.registered⟩

theorem granted_iff (ehw : EdmaHw) (napiAdds : Nat) (env : IrqEnv) :
    IrqAllOrNothing ⟨{ ehw with napiAdded := true }, napiAdds, some env⟩ ↔
      (NumbersObtained ehw env ∧ IrqsGranted ehw env) ∧
        settle irqAct 0 ehw.log = some ehw.handlers ∧ napiAdds = 1 := by
  constructor
  · intro h
    obtain ⟨⟨env', henv, hboth⟩, hrest⟩ := h.registered rfl
    cases henv
    exact ⟨hboth, hrest⟩
  · rintro ⟨hboth, hrest⟩
    refine ⟨?_, fun _ => ⟨⟨env, rfl, hboth⟩, hrest⟩⟩
    intro hnot
    cases hnot

/-- A call that is granted everything leaves the books right if it is the first and has obtained
    every number. -/
theorem step_granted (h : IrqAllOrNothing s) (hadds : AddsNapi soc s.ehw a.1)
    (hgranted : IrqsGranted s.ehw a.2) (hstep : irqStep soc s a = some t) :
    AttemptOk soc s a ↔ IrqAllOrNothing t := by
  have hirq : edmaIrqInit (s.ehw.registering a.1.macid) a.2 =
      (true, (s.ehw.registering a.1.macid).irqsReady a.2) := edmaIrqInit_granted hgranted
  obtain ⟨hsettle, hrings⟩ := @irqsReady_books (s.ehw.registering a.1.macid) a.2
    (h.failed hadds.2)
  have hnumbers : NumbersObtained ((s.ehw.registering a.1.macid).irqsReady a.2) a.2 ↔
      NumbersObtained s.ehw a.2 := by
    rw [NumbersObtained, NumbersObtained, hrings]
    rfl
  have hgranted' : IrqsGranted ((s.ehw.registering a.1.macid).irqsReady a.2) a.2 := by
    intro k hk
    apply hgranted k
    have hle : k ≤ ((s.ehw.registering a.1.macid).irqsReady a.2).miscEntry := hk
    rw [hrings] at hle
    exact hle
  have hfirst : a.2.requestOk 0 = true := hgranted 0 (Nat.zero_le _)
  unfold irqStep at hstep
  simp only [edmaRegisterNetdevice_adds hadds, hirq, if_true, hadds, and_self,
    Option.some.injEq] at hstep
  subst hstep
  rw [granted_iff, hnumbers]
  constructor
  · intro hok
    rcases hok hadds with hbad | ⟨hzero, hobtained, -⟩
    · rw [hfirst] at hbad
      cases hbad
    · exact ⟨⟨hobtained, hgranted'⟩, hsettle, by rw [hzero]⟩
  · rintro ⟨⟨hobtained, -⟩, -, hone⟩ -
    exact Or.inr ⟨Nat.succ.inj hone, hobtained, hgranted⟩

/-- A call that is refused leaves the books right if it is refused its first request. -/
theorem step_refused (h : IrqAllOrNothing s) (hadds : AddsNapi soc s.ehw a.1)
    (hrefused : ¬ IrqsGranted s.ehw a.2) (hstep : irqStep soc s a = some t) :
    AttemptOk soc s a ↔ IrqAllOrNothing t := by
  have hrefused' : ¬ IrqsGranted (s.ehw.registering a.1.macid) a.2 := hrefused
  obtain ⟨hfail, requested, freed, heq, hwith⟩ := edmaIrqInit_refusedTo hrefused'
  have hsettle := h.failed hadds.2
  unfold irqStep at hstep
  simp only [edmaRegisterNetdevice_adds hadds, hfail, Bool.false_eq_true, if_false, hadds,
    and_false, if_true, Option.some.injEq] at hstep
  subst hstep
  rw [heq]
  have hlog : settle irqAct 0 (s.ehw.log ++ (requested.map .requestIrq ++
      freed.map .freeIrqOther)) = settle irqAct 0 (requested.map .requestIrq ++
        freed.map .freeIrqOther) := settle_append_some hsettle
  constructor
  · intro hok
    rcases hok hadds with hfirst | ⟨-, -, hgranted⟩
    · obtain ⟨rfl, rfl⟩ := hwith.none_of_not hfirst
      refine ⟨fun _ => hlog, fun hadded => ?_⟩
      have hnot : s.ehw.napiAdded = true := hadded
      rw [hadds.2] at hnot
      cases hnot
    · exact absurd hgranted hrefused
  · intro ht _
    left
    have hkept := ht.failed hadds.2
    obtain ⟨hnone, -⟩ := @settle_refused 0 (fun _ => Multiset.notMem_zero _) requested
      freed (hlog.symm.trans hkept)
    by_contra hfirst
    exact hwith.some_of_ok (Bool.not_eq_false _ ▸ hfirst) hnone

end IrqAllOrNothing

/-- For all numbers of rings and every sequence of calls of `edma_register_netdevice`, with every
    pattern of missing numbers and refused requests: the registration is all or nothing after
    each of them if and only if every call that gets to NAPI is refused its first request, or is
    the first and obtains and is granted everything. -/
theorem irqRun_allOrNothing_iff {soc : Soc} {ehw : EdmaHw} (hnapi : ehw.napiAdded = false)
    (hlog : ehw.log = []) (as : List (NetDevice × IrqEnv)) :
    Always (irqStep soc) IrqAllOrNothing ⟨ehw, 0, none⟩ as ↔
      StepsMeet (irqStep soc) (AttemptOk soc) ⟨ehw, 0, none⟩ as := by
  have hstart : IrqAllOrNothing ⟨ehw, 0, none⟩ := by
    refine ⟨fun _ => ?_, fun hadded => ?_⟩
    · show settle irqAct 0 ehw.log = some 0
      rw [hlog, settle_nil]
    · have hnot : ehw.napiAdded = true := hadded
      rw [hnapi] at hnot
      cases hnot
  obtain ⟨u, hrun⟩ := run_total (irqStep soc) (fun s a => ⟨_, rfl⟩) ⟨ehw, 0, none⟩ as
  refine always_iff_stepsMeet (fun _ h => h) ?_ (fun _ _ _ _ _ ht => ht) hstart hrun
  intro s a t h hstep
  by_cases hadds : AddsNapi soc s.ehw a.1
  · by_cases hgranted : IrqsGranted s.ehw a.2
    · exact h.step_granted hadds hgranted hstep
    · exact h.step_refused hadds hgranted hstep
  · exact iff_of_true (fun hnot => absurd hnot hadds) (h.step_other hadds hstep)

/-- Numbers for all entries, and the requests that are granted. -/
def irqEnvOf (requestOk : Nat → Bool) : IrqEnv := ⟨fun k => 32 + k, requestOk⟩

/-- A call that is refused its first request, on an instance with one ring of each kind. -/
theorem irqRun_allOrNothing_iff_refused :
    Always (irqStep .ipq807x) IrqAllOrNothing ⟨idleEdma, 0, none⟩
        [(port1Dev, irqEnvOf fun _ => false)] ↔
      StepsMeet (irqStep .ipq807x) (AttemptOk .ipq807x) ⟨idleEdma, 0, none⟩
        [(port1Dev, irqEnvOf fun _ => false)] :=
  irqRun_allOrNothing_iff rfl rfl _

/-- The second request is refused: the first handler stays, and the call for the next port adds
    it and NAPI again. -/
theorem irqRun_secondRefused :
    (∃ s, run (irqStep .ipq807x) ⟨idleEdma, 0, none⟩
        [(port1Dev, irqEnvOf fun k => k == 0)] = some s ∧
      s.ehw.napiAdded = false ∧ s.ehw.log = [.requestIrq 32, .freeIrqOther 32] ∧
      ¬ IrqAllOrNothing s) ∧
    ∃ s, run (irqStep .ipq807x) ⟨idleEdma, 0, none⟩ [(port1Dev, irqEnvOf fun k => k == 0),
        (port1Dev, irqEnvOf fun _ => true)] = some s ∧
      s.ehw.napiAdded = true ∧ s.ehw.log.count (.requestIrq 32) = 2 ∧ s.napiAdds = 2 ∧
      ¬ IrqAllOrNothing s := by
  constructor
  · refine ⟨_, rfl, rfl, rfl, ?_⟩
    intro h
    have hsettle := h.failed rfl
    cases hsettle
  · refine ⟨_, rfl, rfl, by decide, rfl, ?_⟩
    intro h
    have hone := (h.registered rfl).2.2
    cases hone

end NssDp.Edma
