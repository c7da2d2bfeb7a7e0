import Mathlib.Data.List.Count
import NssDp.Misc.History
import NssDp.Misc.Lts
import NssDp.Edma.Proofs.Accesses
import NssDp.Edma.Proofs.NapiHandshake

/-!
# Accesses after the teardown

`edma_cleanup` releases the rings, the interrupts, the register mapping and the memory region
once: the flag `edma_initialized` sees to that. What is called afterwards may still reach the
hardware in three ways, by the cleanup at module exit, by an initialisation that is granted
its interrupts, and by a packet that passes the checks of `edma_if_xmit`.
-/

namespace NssDp.Edma

open History Lts

/-- An access is in order after the accesses `pre`. -/
def AccessOk (pre : List EdmaAccess) : EdmaAccess → Prop
  | .regRead _ | .regWrite _ | .iounmap => .iounmap ∉ pre
  | .ringArray | .freeDesc .. | .freeRings => .freeRings ∉ pre
  | .releaseMemRegion => .releaseMemRegion ∉ pre
  | .freeIrq irq => pre.count (.freeIrq irq) < pre.count (.requestIrq irq)
  | .requestIrq _ | .freeIrqOther _ => True

section AccessOk

variable {pre l : List EdmaAccess}

theorem accessOk_of_isUse {a : EdmaAccess} (ha : a.isUse = true) (hrings : .freeRings ∉ pre)
    (hmap : .iounmap ∉ pre) : AccessOk pre a := by
  cases a <;> first | exact hmap | exact hrings | cases ha

theorem notMem_append_use {a b : EdmaAccess} (ha : a.isUse = true) (hb : b.isUse = false)
    (hpre : b ∉ pre) : b ∉ pre ++ [a] := fun hmem => by
  rcases List.mem_append.mp hmem with hmem | hmem
  · exact hpre hmem
  · rw [List.mem_singleton.mp hmem, ha] at hb
    cases hb

theorem okFrom_uses (huses : ∀ a ∈ l, a.isUse = true) (hrings : .freeRings ∉ pre)
    (hmap : .iounmap ∉ pre) : OkFrom AccessOk pre l := by
  refine okFrom_of_inv (I := fun pre => .freeRings ∉ pre ∧ .iounmap ∉ pre) ⟨hrings, hmap⟩ ?_
  rintro a ha before ⟨hrings, hmap⟩
  have huse := huses a ha
  exact ⟨accessOk_of_isUse huse hrings hmap, notMem_append_use huse rfl hrings,
    notMem_append_use huse rfl hmap⟩

theorem okFrom_requests
    (hl : ∀ a ∈ l, ∃ irq, a = .requestIrq irq ∨ a = .freeIrqOther irq) :
    OkFrom AccessOk pre l := by
  apply okFrom_of_forall
  intro a ha before
  obtain ⟨irq, rfl | rfl⟩ := hl a ha <;> trivial

/-- Interrupts may be freed that have been requested more often than freed. -/
theorem okFrom_freeIrqs {irqs : List Nat} (hirqs : ∀ irq,
    pre.count (.freeIrq irq) + irqs.count irq ≤ pre.count (.requestIrq irq)) :
    OkFrom AccessOk pre (irqs.map .freeIrq) := by
  induction irqs generalizing pre with
  | nil => trivial
  | cons i irqs ih =>
    refine ⟨?_, ih fun irq => ?_⟩
    · have hfirst := hirqs i
      rw [List.count_cons_self] at hfirst
      exact Nat.lt_of_lt_of_le (by omega) hfirst
    · have hrest := hirqs irq
      rcases eq_or_ne i irq with rfl | hne
      · rw [List.count_cons_self] at hrest
        simp only [List.count_append, List.count_singleton_self]
        omega
      · rw [List.count_cons_of_ne hne] at hrest
        simpa [List.count_singleton, hne] using hrest

end AccessOk

/-- The calls that the driver core makes to the data plane, and `edma_cleanup`. -/
inductive EdmaCall where
  | ifInit (netdev : NetDevice) (env : IrqEnv)
  | ifOpen (dpc : NssDpDataPlaneCtx)
  | ifClose (workDone : Nat)
  | ifXmit (netdev : NetDevice) (skb : SkBuff) (env : XmitEnv)
  | ifDeinit
  | cleanup (isDpOverride : Bool)

/-- The instance after a call that returns. -/
def edmaCallStep (soc : Soc) (virtToPhys : Nat → BitVec 32) (ehw : EdmaHw) :
    EdmaCall → Option EdmaHw
  | .ifInit netdev env => some (edmaIfInit soc ehw netdev env).2.1
  | .ifOpen dpc => (edmaIfOpen ehw dpc).map Prod.snd
  | .ifClose workDone => (edmaIfClose ehw workDone).map Prod.snd
  | .ifXmit netdev skb env =>
    match edmaIfXmit ehw netdev skb env with
    | .ok r => some r.ehw
    | .error _ => none
  | .ifDeinit => (edmaIfDeinit soc virtToPhys ehw).map Prod.snd
  | .cleanup isDpOverride => (edmaCleanup virtToPhys ehw isDpOverride).map Prod.fst

/-- The instance after `edma_init` has succeeded. -/
structure EdmaReady (ehw : EdmaHw) : Prop where
  initialized : ehw.edmaInitialized = true
  napiAdded : ehw.napiAdded = false
  napi : ehw.napi ≠ .scheduled
  log : ehw.log = []

/-- What the driver promises: every access so far was in order. -/
def TeardownSafe (ehw : EdmaHw) : Prop := OkFrom AccessOk [] ehw.log

/-- The call is made before the teardown, or does not reach the hardware. -/
def BeforeTeardown (soc : Soc) (ehw : EdmaHw) : EdmaCall → Prop
  | .ifInit netdev env => ehw.edmaInitialized = true ∨
      (netdev.macid < soc.startIfnum ∨ soc.maxPorts < netdev.macid) ∨ ¬ IrqsGranted ehw env
  | .ifXmit netdev skb env =>
    ehw.edmaInitialized = true ∨ edmaIfXmitPrepare netdev skb env = none
  | .cleanup isDpOverride => ehw.edmaInitialized = true ∨ isDpOverride = true
  | _ => True

/-- What every call in order keeps. -/
structure TeardownInv (ehw : EdmaHw) : Prop where
  safe : TeardownSafe ehw
  napi : ehw.napi ≠ .scheduled
  live : ehw.edmaInitialized = true →
    .freeRings ∉ ehw.log ∧ .iounmap ∉ ehw.log ∧ .releaseMemRegion ∉ ehw.log
  torn : ehw.edmaInitialized = false →
    .freeRings ∈ ehw.log ∧ .iounmap ∈ ehw.log ∧ ehw.napiAdded = false
  irqs : ∀ irq, ehw.log.count (.freeIrq irq) + (if ehw.napiAdded then ehw.irqs.count irq else 0) ≤
    ehw.log.count (.requestIrq irq)

theorem count_uses {l : List EdmaAccess} (huses : ∀ a ∈ l, a.isUse = true) (irq : Nat) :
    l.count (.freeIrq irq) = 0 ∧ l.count (.requestIrq irq) = 0 := by
  constructor <;> refine List.count_eq_zero.mpr fun h => ?_
  · have hfree := huses _ h
    cases hfree
  · have hreq := huses _ h
    cases hreq

theorem count_freedIrqs (ehw : EdmaHw) (irq : Nat) :
    ehw.freedIrqs.count (.freeIrq irq) = (if ehw.napiAdded then ehw.irqs.count irq else 0) ∧
      ehw.freedIrqs.count (.requestIrq irq) = 0 := by
  unfold EdmaHw.freedIrqs
  split
  · refine ⟨List.count_map_of_injective _ _ (fun _ _ h => EdmaAccess.freeIrq.inj h) _, ?_⟩
    apply List.count_eq_zero.mpr
    intro h
    obtain ⟨i, _, hi⟩ := List.mem_map.mp h
    cases hi
  · exact ⟨rfl, rfl⟩

theorem notMem_freedIrqs {ehw : EdmaHw} {a : EdmaAccess} (ha : ∀ irq, a ≠ .freeIrq irq) :
    a ∉ ehw.freedIrqs := by
  unfold EdmaHw.freedIrqs
  split
  · intro h
    obtain ⟨irq, _, rfl⟩ := List.mem_map.mp h
    exact ha irq rfl
  · exact List.not_mem_nil

namespace TeardownInv

variable {soc : Soc} {virtToPhys : Nat → BitVec 32} {ehw ehw' : EdmaHw}

theorem start (h : EdmaReady ehw) : TeardownInv ehw := by
  refine ⟨?_, h.napi, fun _ => ?_, fun hinit => ?_, fun irq => ?_⟩
  · rw [TeardownSafe, h.log]
    trivial
  · rw [h.log]
    simp
  · rw [h.initialized] at hinit
    cases hinit
  · simp [h.log, h.napiAdded]

/-- A call that does not use the device. -/
theorem frame (h : TeardownInv ehw) (hinit : ehw'.edmaInitialized = ehw.edmaInitialized)
    (hadded : ehw'.napiAdded = ehw.napiAdded) (hirqs : ehw'.irqs = ehw.irqs)
    (hlog : ehw'.log = ehw.log) (hnapi : ehw'.napi ≠ .scheduled) : TeardownInv ehw' := by
  refine ⟨?_, hnapi, ?_, ?_, ?_⟩
  · rw [TeardownSafe, hlog]
    exact h.safe
  · rw [hinit, hlog]
    exact h.live
  · rw [hinit, hlog, hadded]
    exact h.torn
  · rw [hlog, hadded, hirqs]
    exact h.irqs

/-- Work on the rings before the teardown. -/
theorem ringWork (h : TeardownInv ehw) {l : List EdmaAccess} (hwork : RingWork ehw ehw' l)
    (hlive : ehw.edmaInitialized = true) : TeardownInv ehw' := by
  obtain ⟨hrings, hmap, hregion⟩ := h.live hlive
  have hlive' := hwork.edmaInitialized.trans hlive
  have hnapi : ehw'.napi = ehw.napi := by
    have hdevice := congrArg EdmaHw.napi hwork.device
    exact hdevice
  have hnot {b : EdmaAccess} (hb : b.isUse = false) (hmem : b ∉ ehw.log) : b ∉ ehw'.log := by
    rw [hwork.log, List.mem_append, not_or]
    exact ⟨hmem, fun hin => by rw [hwork.uses b hin] at hb; cases hb⟩
  refine ⟨?_, ?_, fun _ => ⟨hnot rfl hrings, hnot rfl hmap, hnot rfl hregion⟩,
    fun hinit => ?_, fun irq => ?_⟩
  · rw [TeardownSafe, hwork.log, okFrom_append]
    exact ⟨h.safe, okFrom_uses hwork.uses hrings hmap⟩
  · rw [hnapi]
    exact h.napi
  · rw [hlive'] at hinit
    cases hinit
  · obtain ⟨hfree, hreq⟩ := count_uses hwork.uses irq
    rw [hwork.log, List.count_append, List.count_append, hfree, hreq, hwork.napiAdded,
      hwork.irqs]
    exact h.irqs irq

/-- The teardown itself. -/
theorem cleanup (h : TeardownInv ehw) {isDpOverride : Bool} {r : EdmaHw × List KernelEvent}
    (hlive : ehw.edmaInitialized = true)
    (hr : edmaCleanup virtToPhys ehw isDpOverride = some r) : TeardownInv r.1 := by
  obtain ⟨hrings, hmap, hregion⟩ := h.live hlive
  obtain ⟨hdevice, l, l', hlog, hl, hl'⟩ := edmaCleanup_initialized hlive hr
  have hinit : r.1.edmaInitialized = false := by
    have hd := congrArg EdmaHw.edmaInitialized hdevice
    exact hd
  have hadded : r.1.napiAdded = false := by
    have hd := congrArg EdmaHw.napiAdded hdevice
    exact hd
  have hnapi : r.1.napi = ehw.napi := by
    have hd := congrArg EdmaHw.napi hdevice
    exact hd
  have hnot {b : EdmaAccess} (huse : b.isUse = false) (hirq : ∀ irq, b ≠ .freeIrq irq)
      (hmem : b ∉ ehw.log) : b ∉ ehw.log ++ (l ++ ehw.freedIrqs) ∧ b ∉ l' := by
    have hno {k : List EdmaAccess} (hk : ∀ a ∈ k, a.isUse = true) : b ∉ k := fun hin => by
      rw [hk b hin] at huse
      cases huse
    simp only [List.mem_append, not_or]
    exact ⟨⟨hmem, hno hl, notMem_freedIrqs hirq⟩, hno hl'⟩
  obtain ⟨hrings₁, hrings₂⟩ := hnot rfl (by simp) hrings
  obtain ⟨hmap₁, hmap₂⟩ := hnot rfl (by simp) hmap
  obtain ⟨hregion₁, hregion₂⟩ := hnot rfl (by simp) hregion
  refine ⟨?_, ?_, fun h => ?_, fun _ => ⟨?_, ?_, hadded⟩, fun irq => ?_⟩
  · rw [TeardownSafe, hlog, okFrom_append]
    refine ⟨h.safe, ?_⟩
    rw [List.append_assoc, okFrom_append, okFrom_append, okFrom_append]
    refine ⟨⟨okFrom_uses hl hrings hmap, ?_⟩, ?_, ?_⟩
    · unfold EdmaHw.freedIrqs
      split
      · rename_i hadd
        apply okFrom_freeIrqs
        intro irq
        obtain ⟨hfree, hreq⟩ := count_uses hl irq
        have hirqs := h.irqs irq
        rw [if_pos hadd] at hirqs
        simpa only [List.nil_append, List.count_append, hfree, hreq, Nat.add_zero] using hirqs
      · trivial
    · exact okFrom_uses hl' hrings₁ hmap₁
    · simp_all [OkFrom, AccessOk]
  · rw [hnapi]
    exact h.napi
  · rw [hinit] at h
    cases h
  · rw [hlog]
    simp
  · rw [hlog]
    simp
  · obtain ⟨hfree, hreq⟩ := count_uses hl irq
    obtain ⟨hfree', hreq'⟩ := count_uses hl' irq
    obtain ⟨hfreed, hfreed'⟩ := count_freedIrqs ehw irq
    have hirqs := h.irqs irq
    have hrest : ([.freeRings, .iounmap, .releaseMemRegion] : List EdmaAccess).count
        (.freeIrq irq) = 0 ∧ ([.freeRings, .iounmap, .releaseMemRegion] : List EdmaAccess).count
        (.requestIrq irq) = 0 := by simp
    simp only [hlog, hadded, List.count_append, hfree, hreq, hfree', hreq', hfreed, hfreed', hrest]
    simp only [Bool.false_eq_true, if_false]
    omega

/-- Requests of interrupts are in order at any time. -/
theorem requests (h : TeardownInv ehw) (honly : OnlyRequests ehw ehw') : TeardownInv ehw' := by
  obtain ⟨l, rfl, hl⟩ := honly
  have hnot {b : EdmaAccess} (hreq : ∀ irq, b ≠ .requestIrq irq)
    (hfree : ∀ irq, b ≠ .freeIrqOther irq)
      (hmem : b ∉ ehw.log) : b ∉ ehw.log ++ l := fun hin => by
    rcases List.mem_append.mp hin with hin | hin
    · exact hmem hin
    · obtain ⟨irq, rfl | rfl⟩ := hl b hin
      · exact hreq irq rfl
      · exact hfree irq rfl
  refine ⟨?_, h.napi, fun hinit => ?_, fun hinit => ?_, fun irq => ?_⟩
  · exact (okFrom_append).mpr ⟨h.safe, okFrom_requests hl⟩
  · obtain ⟨hrings, hmap, hregion⟩ := h.live hinit
    exact ⟨hnot (by simp) (by simp) hrings, hnot (by simp) (by simp) hmap,
      hnot (by simp) (by simp) hregion⟩
  · obtain ⟨hrings, hmap, hadded⟩ := h.torn hinit
    exact ⟨List.mem_append_left _ hrings, List.mem_append_left _ hmap, hadded⟩
  · have hcount : l.count (.freeIrq irq) = 0 := List.count_eq_zero.mpr fun hin => by
      obtain ⟨i, hi | hi⟩ := hl _ hin <;> cases hi
    have hirqs := h.irqs irq
    change (ehw.log ++ l).count (.freeIrq irq) + (if ehw.napiAdded then ehw.irqs.count irq else 0) ≤
      (ehw.log ++ l).count (.requestIrq irq)
    rw [List.count_append, List.count_append, hcount]
    omega

/-- All interrupts are granted before the teardown, and will be freed by it. -/
theorem granted (h : TeardownInv ehw) (hadded : ehw.napiAdded = false)
    (hlive : ehw.edmaInitialized = true) (env : IrqEnv) :
    TeardownInv { ehw.irqsReady env with napiAdded := true } := by
  obtain ⟨l, hwork, -⟩ := setIrqMasks_ringWork
    ((edmaIrqGet ehw env).touch ((edmaIrqGet ehw env).irqs.map .requestIrq))
  have hdevice := congrArg (fun e : EdmaHw => { e with napiAdded := true }) hwork.device
  have honly : OnlyRequests ehw (ehw.touch ((edmaIrqGet ehw env).irqs.map .requestIrq)) := by
    refine ⟨_, rfl, fun a ha => ?_⟩
    obtain ⟨irq, _, rfl⟩ := List.mem_map.mp ha
    exact ⟨irq, Or.inl rfl⟩
  suffices hbase : TeardownInv { (edmaIrqGet ehw env).touch
      ((edmaIrqGet ehw env).irqs.map .requestIrq) with napiAdded := true } from
    hbase.ringWork ⟨hdevice, hwork.log, hwork.uses⟩ hlive
  obtain ⟨hsafe, hnapi, hno, -, -⟩ := h.requests honly
  refine ⟨hsafe, hnapi, hno, fun hinit => absurd hlive (by simp_all [EdmaHw.touch, edmaIrqGet]),
    fun irq => ?_⟩
  have hirqs := h.irqs irq
  have hfree : ((edmaIrqGet ehw env).irqs.map EdmaAccess.requestIrq).count (.freeIrq irq) = 0 :=
    List.count_eq_zero.mpr fun hin => by
      obtain ⟨i, _, hi⟩ := List.mem_map.mp hin
      cases hi
  have hreq : ((edmaIrqGet ehw env).irqs.map EdmaAccess.requestIrq).count (.requestIrq irq) =
      (edmaIrqGet ehw env).irqs.count irq :=
    List.count_map_of_injective _ _ (fun _ _ h => EdmaAccess.requestIrq.inj h) _
  rw [hadded] at hirqs
  change (ehw.log ++ _).count (.freeIrq irq) + (edmaIrqGet ehw env).irqs.count irq ≤
    (ehw.log ++ _).count (.requestIrq irq)
  rw [List.count_append, List.count_append, hfree, hreq]
  simpa using hirqs

/-- The driver core initialises the data plane on a port: before the teardown it may be granted
    its interrupts, after it not. -/
theorem ifInit (h : TeardownInv ehw) (netdev : NetDevice) (env : IrqEnv)
    (hC : BeforeTeardown soc ehw (.ifInit netdev env)) :
    TeardownInv (edmaIfInit soc ehw netdev env).2.1 := by
  by_cases hvalid : GmacValid soc netdev.macid
  · cases hadded : ehw.napiAdded with
    | true =>
      rw [(edmaIfInit_added hvalid hadded).2]
      exact h.frame rfl rfl rfl rfl h.napi
    | false =>
      have hbase : TeardownInv (ehw.setNetdev netdev.macid).netifNapiAdd :=
        h.frame rfl rfl rfl rfl (by simp [EdmaHw.netifNapiAdd])
      by_cases hgranted : IrqsGranted ehw env
      · have hlive : ehw.edmaInitialized = true := by
          rcases hC with hlive | hbad | hrefused
          · exact hlive
          · obtain ⟨hlow, hhigh⟩ := hvalid
            omega
          · exact absurd hgranted hrefused
        rw [(edmaIfInit_granted hvalid hadded hgranted).2]
        exact hbase.granted hadded hlive env
      · obtain ⟨-, honly⟩ := edmaIfInit_refused hvalid hadded hgranted
        refine requests ?_ honly
        refine ⟨hbase.safe, hbase.napi, hbase.live, hbase.torn, fun irq => ?_⟩
        have hirqs := hbase.irqs irq
        simp_all [edmaIrqGet, EdmaHw.netifNapiAdd, EdmaHw.setNetdev]
  · rw [edmaIfInit_rejected hvalid]
    exact h

theorem ifOpen (h : TeardownInv ehw) {dpc : NssDpDataPlaneCtx} {r : NssDpRet × EdmaHw}
    (hr : edmaIfOpen ehw dpc = some r) : TeardownInv r.2 := by
  unfold edmaIfOpen at hr
  split at hr
  · cases hr
    exact h
  dsimp only at hr
  split at hr
  · cases hr
    exact h.frame rfl rfl rfl rfl h.napi
  · obtain ⟨napi, hnapi, rfl⟩ := Option.map_eq_some_iff.mp hr
    refine h.frame rfl rfl rfl rfl fun hsched => ?_
    dsimp only at hsched
    rw [hsched] at hnapi
    cases hold : ehw.napi <;> simp [hold, NapiState.enable] at hnapi

/-- No poll is scheduled, so a close does not wait for one. -/
theorem ifClose (h : TeardownInv ehw) {workDone : Nat} {r : NssDpRet × EdmaHw}
    (hr : edmaIfClose ehw workDone = some r) : TeardownInv r.2 := by
  unfold edmaIfClose at hr
  dsimp only at hr
  split at hr
  · cases hr
    exact h.frame rfl rfl rfl rfl h.napi
  · obtain ⟨e, he, rfl⟩ := Option.map_eq_some_iff.mp hr
    cases hnapi : ehw.napi with
    | disabled =>
      simp only [edmaNapiDisable, hnapi] at he
      cases he
    | idle =>
      simp only [edmaNapiDisable, hnapi] at he
      cases he
      exact h.frame rfl rfl rfl rfl (by simp)
    | scheduled => exact absurd hnapi h.napi

/-- A cleanup for an override is always in order. -/
theorem cleanupOverride (h : TeardownInv ehw) {r : EdmaHw × List KernelEvent}
    (hr : edmaCleanup virtToPhys ehw true = some r) : TeardownInv r.1 := by
  cases hinit : ehw.edmaInitialized with
  | true => exact h.cleanup hinit hr
  | false =>
    rw [edmaCleanup, if_neg (by simp [hinit])] at hr
    cases hr
    exact h

theorem ifDeinit (h : TeardownInv ehw) {r : NssDpRet × EdmaHw}
    (hr : edmaIfDeinit soc virtToPhys ehw = some r) : TeardownInv r.2 := by
  unfold edmaIfDeinit at hr
  split at hr
  · obtain ⟨c, hc, rfl⟩ := Option.map_eq_some_iff.mp hr
    exact h.cleanupOverride hc
  · cases hr
    exact h.frame rfl rfl rfl rfl h.napi

theorem ifXmit (h : TeardownInv ehw) {netdev : NetDevice} {skb : SkBuff} {env : XmitEnv}
    {r : IfXmit} (hC : BeforeTeardown soc ehw (.ifXmit netdev skb env))
    (hr : edmaIfXmit ehw netdev skb env = .ok r) : TeardownInv r.ehw := by
  rcases edmaIfXmit_ehw hr with ⟨-, heq⟩ | ⟨⟨p, hprep⟩, l, hwork⟩
  · rw [heq]
    exact h
  · rcases hC with hlive | hnone
    · exact h.ringWork hwork hlive
    · rw [hprep] at hnone
      cases hnone

theorem step (h : TeardownInv ehw) {a : EdmaCall} (hC : BeforeTeardown soc ehw a)
    (hstep : edmaCallStep soc virtToPhys ehw a = some ehw') : TeardownInv ehw' := by
  cases a with
  | ifInit netdev env =>
    cases hstep
    exact h.ifInit netdev env hC
  | ifOpen dpc =>
    obtain ⟨r, hr, rfl⟩ := Option.map_eq_some_iff.mp hstep
    exact h.ifOpen hr
  | ifClose workDone =>
    obtain ⟨r, hr, rfl⟩ := Option.map_eq_some_iff.mp hstep
    exact h.ifClose hr
  | ifXmit netdev skb env =>
    simp only [edmaCallStep] at hstep
    split at hstep
    · rename_i r hr
      cases hstep
      exact h.ifXmit hC hr
    · cases hstep
  | ifDeinit =>
    obtain ⟨r, hr, rfl⟩ := Option.map_eq_some_iff.mp hstep
    exact h.ifDeinit hr
  | cleanup isDpOverride =>
    obtain ⟨r, hr, rfl⟩ := Option.map_eq_some_iff.mp hstep
    rcases hC with hlive | rfl
    · exact h.cleanup hlive hr
    · exact h.cleanupOverride hr

/-- An access after the teardown. -/
theorem not_safe {l xs : List EdmaAccess} {a : EdmaAccess} (ha : a ∈ xs)
    (hbad : ∀ before, ¬ AccessOk (l ++ before) a) : ¬ OkFrom AccessOk [] (l ++ xs) :=
    fun hsafe => by
  obtain ⟨before, hok⟩ := ((okFrom_append).mp hsafe).2.mem ha
  exact hbad before hok

/-- A port that is initialised after the teardown, and is granted its interrupts, has their
    masks written. -/
theorem ifInit_unsafe (h : TeardownInv ehw) {netdev : NetDevice} {env : IrqEnv}
    (hC : ¬ BeforeTeardown soc ehw (.ifInit netdev env)) :
    ¬ TeardownSafe (edmaIfInit soc ehw netdev env).2.1 := by
  obtain ⟨hinit, hvalid, hgranted⟩ : ehw.edmaInitialized = false ∧ GmacValid soc netdev.macid ∧
      IrqsGranted ehw env := by
    simp only [BeforeTeardown, not_or, not_lt, not_not, Bool.not_eq_true] at hC
    exact hC
  obtain ⟨-, hmap, hadded⟩ := h.torn hinit
  obtain ⟨l, hwork, hmask⟩ := setIrqMasks_ringWork
    ((edmaIrqGet (ehw.setNetdev netdev.macid).netifNapiAdd env).touch
      ((edmaIrqGet (ehw.setNetdev netdev.macid).netifNapiAdd env).irqs.map .requestIrq))
  have hlog : (edmaIfInit soc ehw netdev env).2.1.log = ehw.log ++
      ((edmaIrqGet (ehw.setNetdev netdev.macid).netifNapiAdd env).irqs.map .requestIrq ++ l) := by
    rw [(edmaIfInit_granted hvalid hadded hgranted).2, ← List.append_assoc]
    exact hwork.log
  rw [TeardownSafe, hlog]
  exact not_safe (List.mem_append_right _ hmask) fun before hok =>
    hok (List.mem_append_left _ hmap)

/-- A packet that gets as far as `edma_ring_xmit` after the teardown. -/
theorem ifXmit_unsafe (h : TeardownInv ehw) {netdev : NetDevice} {skb : SkBuff} {env : XmitEnv}
    {r : IfXmit} (hC : ¬ BeforeTeardown soc ehw (.ifXmit netdev skb env))
    (hr : edmaIfXmit ehw netdev skb env = .ok r) : ¬ TeardownSafe r.ehw := by
  obtain ⟨hinit, hsome⟩ := not_or.mp hC
  obtain ⟨hrings, -, -⟩ := h.torn (Bool.not_eq_true _ ▸ hinit)
  rcases edmaIfXmit_ehw hr with ⟨hnone, -⟩ | ⟨-, l, hwork⟩
  · exact absurd hnone hsome
  · rw [TeardownSafe, hwork.log]
    exact not_safe List.mem_cons_self fun before hok => hok (List.mem_append_left _ hrings)

/-- A second cleanup at module exit disables the port. -/
theorem cleanup_unsafe (h : TeardownInv ehw) {isDpOverride : Bool}
    {r : EdmaHw × List KernelEvent} (hC : ¬ BeforeTeardown soc ehw (.cleanup isDpOverride))
    (hr : edmaCleanup virtToPhys ehw isDpOverride = some r) : ¬ TeardownSafe r.1 := by
  obtain ⟨hinit, hoverride⟩ := not_or.mp hC
  obtain ⟨-, hmap, -⟩ := h.torn (Bool.not_eq_true _ ▸ hinit)
  rw [edmaCleanup, if_neg hinit, if_neg hoverride] at hr
  cases hr
  exact not_safe (List.mem_singleton_self _) fun before hok => hok (List.mem_append_left _ hmap)

/-- A call that is not in order makes an access that is not. -/
theorem step_unsafe (h : TeardownInv ehw) {a : EdmaCall} (hC : ¬ BeforeTeardown soc ehw a)
    (hstep : edmaCallStep soc virtToPhys ehw a = some ehw') : ¬ TeardownSafe ehw' := by
  cases a with
  | ifInit netdev env =>
    cases hstep
    exact h.ifInit_unsafe hC
  | ifXmit netdev skb env =>
    simp only [edmaCallStep] at hstep
    split at hstep
    · rename_i r hr
      cases hstep
      exact h.ifXmit_unsafe hC hr
    · cases hstep
  | cleanup isDpOverride =>
    obtain ⟨r, hr, rfl⟩ := Option.map_eq_some_iff.mp hstep
    exact h.cleanup_unsafe hC hr
  | ifOpen dpc => exact absurd trivial hC
  | ifClose workDone => exact absurd trivial hC
  | ifDeinit => exact absurd trivial hC

end TeardownInv

/-- In every run of calls after a successful `edma_init`, all accesses are in order exactly
    where every call is made before the teardown or does not reach the hardware. -/
theorem edmaRun_safe_iff (soc : Soc) (virtToPhys : Nat → BitVec 32) {ehw u : EdmaHw}
    (hready : EdmaReady ehw) {as : List EdmaCall}
    (hrun : run (edmaCallStep soc virtToPhys) ehw as = some u) :
    Always (edmaCallStep soc virtToPhys) TeardownSafe ehw as ↔
      StepsMeet (edmaCallStep soc virtToPhys) (BeforeTeardown soc) ehw as := by
  have hiff (e : EdmaHw) (a : EdmaCall) (t : EdmaHw) (h : TeardownInv e)
      (hstep : edmaCallStep soc virtToPhys e a = some t) :
      BeforeTeardown soc e a ↔ TeardownSafe t := by
    by_cases hC : BeforeTeardown soc e a
    · exact iff_of_true hC (h.step hC hstep).safe
    · exact iff_of_false hC (h.step_unsafe hC hstep)
  exact always_iff_stepsMeet (fun _ h => h.safe) hiff
    (fun e a t h hstep hsafe => h.step ((hiff e a t h hstep).mpr hsafe) hstep)
    (TeardownInv.start hready) hrun

section Decide

instance (pre : List EdmaAccess) (a : EdmaAccess) : Decidable (AccessOk pre a) := by
  cases a <;> unfold AccessOk <;> infer_instance

instance (ehw : EdmaHw) : Decidable (TeardownSafe ehw) := decidableOkFrom _ _

instance (soc : Soc) (ehw : EdmaHw) (a : EdmaCall) : Decidable (BeforeTeardown soc ehw a) := by
  cases a <;> unfold BeforeTeardown <;> infer_instance

end Decide

theorem idleEdma_ready : EdmaReady idleEdma := ⟨rfl, rfl, by decide, rfl⟩

/-- A frame of 14 bytes is handed to `edma_if_xmit`. -/
def sendFrame (dma : BitVec 32) : EdmaCall :=
  .ifXmit port1Dev (packetOf 0 (List.replicate 14 0#8)) ⟨none, dma⟩

/-- A port is initialised and opened, cannot map its frame, and is closed. -/
def portLife : List EdmaCall :=
  [.ifInit port1Dev grantAll, .ifOpen ⟨some 1⟩, sendFrame 0#32, .ifClose 0]

theorem edmaRun_safe_iff_unload :
    Always (edmaCallStep .ipq807x (BitVec.ofNat 32)) TeardownSafe idleEdma
      (portLife ++ [.cleanup false, .cleanup true]) := by
  obtain ⟨u, hrun⟩ : ∃ u, run (edmaCallStep .ipq807x (BitVec.ofNat 32)) idleEdma
      (portLife ++ [.cleanup false, .cleanup true]) = some u :=
    Option.isSome_iff_exists.mp (by decide +kernel)
  exact (edmaRun_safe_iff .ipq807x (BitVec.ofNat 32) idleEdma_ready hrun).mpr (by decide +kernel)

/-- Six ports are overridden, so the last `edma_if_deinit` tears EDMA down. -/
def overrideAll : List EdmaCall := List.replicate 6 .ifDeinit

/-- After all ports have been overridden, the module is unloaded, a restored port is initialised
    again, or a frame is sent. -/
theorem overrideAll_unsafe :
    EdmaReady idleEdma ∧ (run (edmaCallStep .ipq807x (BitVec.ofNat 32)) idleEdma
      overrideAll).isSome = true ∧
    ¬ Always (edmaCallStep .ipq807x (BitVec.ofNat 32)) TeardownSafe idleEdma
      (overrideAll ++ [.cleanup false]) ∧
    ¬ Always (edmaCallStep .ipq807x (BitVec.ofNat 32)) TeardownSafe idleEdma
      (overrideAll ++ [.ifInit port1Dev grantAll]) ∧
    ¬ Always (edmaCallStep .ipq807x (BitVec.ofNat 32)) TeardownSafe idleEdma
      (overrideAll ++ [sendFrame 32#32]) :=
  ⟨idleEdma_ready, by decide +kernel⟩

end NssDp.Edma
