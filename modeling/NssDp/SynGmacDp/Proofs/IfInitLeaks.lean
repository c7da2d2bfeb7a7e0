import NssDp.Misc.Lts
import NssDp.Misc.Except
import NssDp.Misc.Pairing
import NssDp.SynGmacDp.IfInit
import NssDp.SynGmacDp.Proofs.RxInvariant

/-!
# What failed initialisations leave behind

`nss_dp_open` tries again to initialise a data plane until it succeeds. An attempt that fails
gives nothing back: what it has acquired by then is left, and the flag `napi_added` tells the
next attempt of a part of it only.
-/

namespace NssDp.SynGmacDp

open Lts Pairing

/-- What an initialisation acquires. -/
inductive Resource where
  | irq
  | napi
  | rxRing
  | txRing
  | skb (skb : RxSkb)
  deriving DecidableEq, Repr

def InitCall.act : InitCall → Act Resource
  | .netifNapiAdd => .acquire .napi
  | .requestIrq => .acquire .irq
  | .dmaAllocRx _ => .acquire .rxRing
  | .dmaAllocTx _ => .acquire .txRing
  | .rx (.allocSkb skb) => .acquire (.skb skb)
  | .rx (.devKfreeSkb skb) => .release (.skb skb)
  | _ => .neither

/-- What a port has acquired and not given back. -/
def SynPort.held (s : SynPort) : Option (Multiset Resource) := settle InitCall.act 0 s.calls

/-- An attempt that fails leaves nothing that was not there before it. -/
def LeavesNothing (s : SynPort) (env : InitEnv) : Prop :=
  ∀ t, initStep s env = some t → t.initDone = false → t.held = s.held

/-- How many of each are held, besides buffers. -/
structure Holds (held : Multiset Resource) (irqs napis rxRings txRings : Nat) : Prop where
  irqs : held.count .irq = irqs
  napis : held.count .napi = napis
  rxRings : held.count .rxRing = rxRings
  txRings : held.count .txRing = txRings

/-- A port holds one of each. -/
def HoldsOne (s : SynPort) : Prop := ∃ held, s.held = some held ∧ Holds held 1 1 1 1

/-- NAPI and the interrupt are there, or can be had. -/
def Registers (s : SynPort) (env : InitEnv) : Prop := s.napiAdded = true ∨ env.requestIrq = true

/-- An attempt succeeds. -/
def Succeeds (s : SynPort) (env : InitEnv) : Prop :=
  Registers s env ∧ env.rxDma.isSome = true ∧ env.txDma.isSome = true

/-- An attempt succeeds, or fails at the receive descriptors with NAPI and the interrupt there
    before it. -/
def LeavesNothingWhen (s : SynPort) (env : InitEnv) : Prop :=
  Succeeds s env ∨ (s.napiAdded = true ∧ env.rxDma = none)

/-- An attempt succeeds, or fails at the receive descriptors. -/
def FailsAtRx (s : SynPort) (env : InitEnv) : Prop :=
  Succeeds s env ∨ (Registers s env ∧ env.rxDma = none)

/-- A port that has not been initialised, and holds nothing. -/
structure Uninitialised (s : SynPort) : Prop where
  initDone : s.initDone = false
  napiAdded : s.napiAdded = false
  rxSkbList : ∀ i, s.info.rx.rxSkbList i = none
  calls : s.calls = []

/-- The calls of the first part of `syn_dp_if_init`, where it goes on. -/
def registerCalls (s : SynPort) : List InitCall :=
  if s.napiAdded then [] else [.netifNapiAdd, .requestIrq]

/-- After the calls no more and no less is held, but for buffers. -/
def OnlySkbs (calls : List InitCall) : Prop :=
  ∀ held, ∃ held', settle InitCall.act held calls = some held' ∧
    ∀ r, (∀ skb, r ≠ .skb skb) → held'.count r = held.count r

/-- How an attempt ends. -/
inductive Attempt (s : SynPort) (env : InitEnv) (t : SynPort) : Prop where
  | irqRefused (hadded : s.napiAdded = false) (hirq : env.requestIrq = false)
      (hcalls : t.calls = s.calls ++ [.netifNapiAdd]) (hdone : t.initDone = false)
      (hflag : t.napiAdded = false) (hlist : t.info.rx.rxSkbList = s.info.rx.rxSkbList)
  | rxFailed (hreg : Registers s env) (hrx : env.rxDma = none)
      (hcalls : t.calls = s.calls ++ registerCalls s) (hdone : t.initDone = false)
      (hflag : t.napiAdded = true) (hlist : t.info.rx.rxSkbList = s.info.rx.rxSkbList)
  | txFailed {dma : BitVec 32} (hreg : Registers s env) (hrx : env.rxDma = some dma)
      (htx : env.txDma = none)
      (hcalls : t.calls = s.calls ++ (registerCalls s ++ [.dmaAllocRx dma]))
      (hdone : t.initDone = false) (hflag : t.napiAdded = true)
      (hlist : t.info.rx.rxSkbList = s.info.rx.rxSkbList)
  | succeeded {rxDma txDma : BitVec 32} {refill : List InitCall} (hsucceeds : Succeeds s env)
      (hrefill : OnlySkbs refill)
      (hcalls : t.calls = s.calls ++ (registerCalls s ++ [.dmaAllocRx rxDma, .dmaAllocTx txDma] ++
        refill ++ [.initTxDescBase txDma, .initRxDescBase rxDma]))
      (hdone : t.initDone = true)

section Attempt

variable {s t : SynPort} {env : InitEnv}

theorem onlySkbs_nil : OnlySkbs [] := fun held => ⟨held, rfl, fun _ _ => rfl⟩

theorem OnlySkbs.append {xs ys : List InitCall} (hxs : OnlySkbs xs) (hys : OnlySkbs ys) :
    OnlySkbs (xs ++ ys) := by
  intro held
  obtain ⟨mid, hmid, hcount⟩ := hxs held
  obtain ⟨held', hheld', hcount'⟩ := hys mid
  refine ⟨held', (settle_append_some hmid).trans hheld', fun r hr => ?_⟩
  rw [hcount' r hr, hcount r hr]

theorem onlySkbs_posted (skb : RxSkb) (e : RxEvent) (he : InitCall.act (.rx e) = .neither) :
    OnlySkbs [.rx (.allocSkb skb), .rx e] := by
  intro held
  have halloc : InitCall.act (.rx (.allocSkb skb)) = .acquire (.skb skb) := rfl
  refine ⟨.skb skb ::ₘ held, ?_, fun r hr => Multiset.count_cons_of_ne (hr skb) held⟩
  rw [settle_acquire halloc, settle_neither he, settle_nil]

theorem onlySkbs_freed (skb : RxSkb) :
    OnlySkbs [.rx (.allocSkb skb), .rx (.devKfreeSkb skb)] := by
  intro held
  have halloc : InitCall.act (.rx (.allocSkb skb)) = .acquire (.skb skb) := rfl
  have hfree : InitCall.act (.rx (.devKfreeSkb skb)) = .release (.skb skb) := rfl
  refine ⟨held, ?_, fun _ _ => rfl⟩
  rw [settle_acquire halloc, settle_release hfree, if_pos (Multiset.mem_cons_self _ _),
    Multiset.erase_cons_head, settle_nil]

/-- What the refill of an empty ring allocates is held, or has been freed. -/
theorem refill_onlySkbs {rx : SynDpRxInfo} (h : RxRingInv rx) (allocs : List RxAlloc) :
    ∃ port, synDpRxRefill ⟨rx, []⟩ allocs = .ok port ∧ OnlySkbs (port.events.map .rx) := by
  obtain ⟨port, hport, -, hskbs⟩ := RxRingInv.refill_rule
    (P := fun s => OnlySkbs (s.events.map .rx)) (Q := fun s _ => OnlySkbs (s.events.map .rx))
    (fun s skb dmaAddr _ _ _ hs => by
      rw [List.map_append]
      exact hs.append (onlySkbs_posted skb _ rfl))
    (fun s skb _ _ hs => by
      rw [RxPort.emit, List.map_append]
      exact hs.append (onlySkbs_freed skb))
    (fun _ _ hs => hs) (s := ⟨rx, []⟩) allocs h onlySkbs_nil
  exact ⟨port, hport, hskbs⟩

/-- The first part of `syn_dp_if_init`. -/
theorem register_cases (s : SynPort) (env : InitEnv) :
    (s.napiAdded = false ∧ env.requestIrq = false ∧
      synDpIfRegister s env = (false, s.call [.netifNapiAdd])) ∨
    (Registers s env ∧ ∃ m, synDpIfRegister s env = (true, m) ∧
      m.calls = s.calls ++ registerCalls s ∧ m.napiAdded = true ∧ m.initDone = s.initDone ∧
      m.info = s.info) := by
  unfold synDpIfRegister registerCalls Registers
  cases hadded : s.napiAdded with
  | true => exact Or.inr ⟨Or.inl rfl, s, rfl, (List.append_nil _).symm, hadded, rfl, rfl⟩
  | false =>
    cases hirq : env.requestIrq with
    | true =>
      refine Or.inr ⟨Or.inr rfl, _, rfl, ?_, rfl, rfl, rfl⟩
      simp [SynPort.call]
    | false => exact Or.inl ⟨rfl, rfl, rfl⟩

/-- The two setups run into no assertion with the arguments of `syn_dp_setup_rings`. -/
theorem setupRx_ring (rx : SynDpRxInfo) (ok : Bool) : ∃ rx',
    synDpSetupRxDescQueue rx synDpRxDescSize .ringMode ok = .ok (if ok then 0 else eNoMem, rx') ∧
      rx'.rxSkbList = rx.rxSkbList := by
  cases ok <;> exact ⟨_, rfl, rfl⟩

theorem setupTx_ring (tx : SynDpTxInfo) (ok : Bool) : ∃ tx',
    synDpSetupTxDescQueue tx synDpTxDescSize .ringMode ok =
      .ok (if ok then 0 else eNoMem, tx') := by
  cases ok <;> exact ⟨_, rfl⟩

/-- How `syn_dp_setup_rings` ends. -/
theorem setupRings_cases (hlist : ∀ i, s.info.rx.rxSkbList i = none) (env : InitEnv) :
    (env.rxDma = none ∧ ∃ rx, synDpSetupRings s env =
        .ok (.failure, { s with info := { s.info with rx } }) ∧
        rx.rxSkbList = s.info.rx.rxSkbList) ∨
    (∃ dma, env.rxDma = some dma ∧ env.txDma = none ∧ ∃ rx tx, synDpSetupRings s env =
        .ok (.failure, { s.call [.dmaAllocRx dma] with
          info := { s.info with rx, tx }
          rxDescDma := dma }) ∧
        rx.rxSkbList = s.info.rx.rxSkbList) ∨
    ∃ rxDma txDma refill t, env.rxDma = some rxDma ∧ env.txDma = some txDma ∧
      synDpSetupRings s env = .ok (.success, t) ∧ OnlySkbs refill ∧
      t.calls = s.calls ++ ([.dmaAllocRx rxDma, .dmaAllocTx txDma] ++ refill ++
        [.initTxDescBase txDma, .initRxDescBase rxDma]) := by
  have hne : eNoMem ≠ 0 := by decide
  obtain ⟨rx, hrx, hrxList⟩ := setupRx_ring s.info.rx env.rxDma.isSome
  obtain ⟨tx, htx⟩ := setupTx_ring s.info.tx env.txDma.isSome
  unfold synDpSetupRings
  cases hrxDma : env.rxDma with
  | none =>
    rw [hrxDma, Option.isSome_none] at hrx
    refine Or.inl ⟨rfl, rx, ?_, hrxList⟩
    simp [hrx, hne, SynPort.setRx]
  | some rxDma =>
    rw [hrxDma, Option.isSome_some] at hrx
    have hring : RxRingInv rx := RxRingInv.setup hlist hrx
    cases htxDma : env.txDma with
    | none =>
      rw [htxDma, Option.isSome_none] at htx
      refine Or.inr (Or.inl ⟨rxDma, rfl, rfl, rx, tx, ?_, hrxList⟩)
      simp [hrx, htx, hne, SynPort.setRx, SynPort.setTx, SynPort.call]
    | some txDma =>
      rw [htxDma, Option.isSome_some] at htx
      obtain ⟨port, hport, hskbs⟩ := refill_onlySkbs hring env.allocs
      refine Or.inr (Or.inr ⟨rxDma, txDma, port.events.map .rx, ?_⟩)
      simp only [Option.isSome_some, hrx, htx, if_true, ne_eq, not_true_eq_false, if_false,
        SynPort.setRx, SynPort.setTx, SynPort.call, hport]
      refine ⟨_, trivial, trivial, rfl, hskbs, ?_⟩
      simp only [List.append_assoc, List.cons_append, List.nil_append]

/-- An attempt runs into no assertion, and ends in one of four ways. -/
theorem initStep_attempt (hdone : s.initDone = false)
    (hlist : ∀ i, s.info.rx.rxSkbList i = none) (env : InitEnv) :
    ∃ t, initStep s env = some t ∧ Attempt s env t := by
  unfold initStep synDpIfInit
  simp only [hdone, Bool.false_eq_true, if_false]
  rcases register_cases s env with
    ⟨hadded, hirq, heq⟩ | ⟨hreg, m, heq, hcalls, hflag, hdone', hinfo⟩
  · rw [heq]
    exact ⟨_, rfl, .irqRefused hadded hirq rfl hdone hadded rfl⟩
  rw [hdone] at hdone'
  rw [← hinfo] at hlist
  simp only [heq, if_true]
  rcases setupRings_cases hlist env with
    ⟨hrx, rx, hrings, hrxList⟩ | ⟨dma, hrx, htx, rx, tx, hrings, hrxList⟩ |
      ⟨rxDma, txDma, refill, t, hrx, htx, hrings, hskbs, hcalls'⟩
  · rw [hrings]
    rw [hinfo] at hrxList
    exact ⟨_, rfl, .rxFailed hreg hrx hcalls hdone' hflag hrxList⟩
  · rw [hrings]
    rw [hinfo] at hrxList
    refine ⟨_, rfl, .txFailed hreg hrx htx ?_ hdone' hflag hrxList⟩
    exact (congrArg (· ++ [.dmaAllocRx dma]) hcalls).trans (List.append_assoc _ _ _)
  · rw [hrings]
    rw [hcalls, List.append_assoc, ← List.append_assoc (registerCalls s),
      ← List.append_assoc (registerCalls s)] at hcalls'
    exact ⟨_, rfl, .succeeded ⟨hreg, by rw [hrx]; rfl, by rw [htx]; rfl⟩ hskbs hcalls' rfl⟩

end Attempt

/-- What an uninitialised port holds: what `napi_added` tells of, and `napis` and `rings` more that
    attempts have left behind. -/
structure Leftover (s : SynPort) (napis rings : Nat) : Prop where
  initDone : s.initDone = false
  rxSkbList : ∀ i, s.info.rx.rxSkbList i = none
  held : ∃ held, s.held = some held ∧
    Holds held s.napiAdded.toNat (s.napiAdded.toNat + napis) rings 0

section Leftover

variable {s t : SynPort} {env : InitEnv} {irqs napis rings rxRings txRings : Nat}
  {held held' : Multiset Resource}

theorem Holds.irq (h : Holds held irqs napis rxRings txRings) :
    Holds (.irq ::ₘ held) (irqs + 1) napis rxRings txRings := by
  obtain ⟨rfl, rfl, rfl, rfl⟩ := h
  exact ⟨by simp, by simp, by simp, by simp⟩

theorem Holds.napi (h : Holds held irqs napis rxRings txRings) :
    Holds (.napi ::ₘ held) irqs (napis + 1) rxRings txRings := by
  obtain ⟨rfl, rfl, rfl, rfl⟩ := h
  exact ⟨by simp, by simp, by simp, by simp⟩

theorem Holds.rxRing (h : Holds held irqs napis rxRings txRings) :
    Holds (.rxRing ::ₘ held) irqs napis (rxRings + 1) txRings := by
  obtain ⟨rfl, rfl, rfl, rfl⟩ := h
  exact ⟨by simp, by simp, by simp, by simp⟩

theorem Holds.txRing (h : Holds held irqs napis rxRings txRings) :
    Holds (.txRing ::ₘ held) irqs napis rxRings (txRings + 1) := by
  obtain ⟨rfl, rfl, rfl, rfl⟩ := h
  exact ⟨by simp, by simp, by simp, by simp⟩

/-- Buffers do not matter. -/
theorem Holds.refill (h : Holds held irqs napis rxRings txRings) {calls : List InitCall}
    (hskbs : OnlySkbs calls) : ∃ held', settle InitCall.act held calls = some held' ∧
      Holds held' irqs napis rxRings txRings := by
  obtain ⟨held', hsettle, hcount⟩ := hskbs held
  refine ⟨held', hsettle, ?_, ?_, ?_, ?_⟩
  · rw [hcount _ fun _ => by simp, h.irqs]
  · rw [hcount _ fun _ => by simp, h.napis]
  · rw [hcount _ fun _ => by simp, h.rxRings]
  · rw [hcount _ fun _ => by simp, h.txRings]

theorem Uninitialised.leftover (h : Uninitialised s) : Leftover s 0 0 := by
  refine ⟨h.initDone, h.rxSkbList, 0, ?_, ?_⟩
  · rw [SynPort.held, h.calls, settle_nil]
  · rw [h.napiAdded]
    exact ⟨rfl, rfl, rfl, rfl⟩

theorem held_of_calls {es : List InitCall} (hs : s.held = some held)
    (hcalls : t.calls = s.calls ++ es) (hes : settle InitCall.act held es = some held') :
    t.held = some held' := by
  rw [SynPort.held, hcalls, settle_append_some hs, hes]

/-- More of something is held than before. -/
theorem held_ne {r : Resource} (hs : s.held = some held) (ht : t.held = some held')
    (hne : held'.count r ≠ held.count r) : t.held ≠ s.held := by
  intro heq
  rw [ht, hs] at heq
  exact hne (congrArg _ (Option.some.inj heq))

/-- After the first part of `syn_dp_if_init`, one interrupt and one NAPI instance are told of. -/
theorem settle_registerCalls
    (h : Holds held s.napiAdded.toNat (s.napiAdded.toNat + napis) rings 0) :
    ∃ held', settle InitCall.act held (registerCalls s) = some held' ∧
      Holds held' 1 (1 + napis) rings 0 := by
  unfold registerCalls
  cases hadded : s.napiAdded with
  | true =>
    rw [hadded] at h
    exact ⟨held, rfl, h⟩
  | false =>
    rw [hadded] at h
    have hheld := h.napi.irq
    rw [show Bool.toNat false + 1 = 1 from rfl, show Bool.toNat false + napis + 1 = 1 + napis by
      rw [show Bool.toNat false = 0 from rfl]; omega] at hheld
    exact ⟨_, rfl, hheld⟩

/-- The interrupt is refused: a NAPI instance is left that nothing tells of. -/
theorem Leftover.irqRefused (h : Leftover s napis rings) (hadded : s.napiAdded = false)
    (hcalls : t.calls = s.calls ++ [.netifNapiAdd]) (hdone : t.initDone = false)
    (hflag : t.napiAdded = false) (hlist : t.info.rx.rxSkbList = s.info.rx.rxSkbList) :
    Leftover t (napis + 1) rings ∧ t.held ≠ s.held := by
  obtain ⟨held, hheld, hholds⟩ := h.held
  have hnapi : settle InitCall.act held [.netifNapiAdd] = some (.napi ::ₘ held) := rfl
  have ht := held_of_calls hheld hcalls hnapi
  refine ⟨⟨hdone, fun i => by rw [hlist, h.rxSkbList], _, ht, ?_⟩,
    held_ne hheld ht (r := .napi) (by simp)⟩
  rw [hflag, ← hadded]
  exact hholds.napi

/-- There are no receive descriptors: nothing is left that was not there, where NAPI was. -/
theorem Leftover.rxFailed (h : Leftover s napis rings)
    (hcalls : t.calls = s.calls ++ registerCalls s) (hdone : t.initDone = false)
    (hflag : t.napiAdded = true) (hlist : t.info.rx.rxSkbList = s.info.rx.rxSkbList) :
    Leftover t napis rings ∧ (t.held = s.held ↔ s.napiAdded = true) := by
  obtain ⟨held, hheld, hholds⟩ := h.held
  obtain ⟨held', hsettle, hholds'⟩ := settle_registerCalls hholds
  have ht := held_of_calls hheld hcalls hsettle
  refine ⟨⟨hdone, fun i => by rw [hlist, h.rxSkbList], held', ht, ?_⟩, ?_⟩
  · rw [hflag]
    exact hholds'
  · cases hadded : s.napiAdded with
    | true =>
      refine iff_of_true ?_ rfl
      rw [registerCalls, hadded, if_pos rfl, List.append_nil] at hcalls
      rw [SynPort.held, hcalls]
      rfl
    | false =>
      refine iff_of_false (held_ne hheld ht (r := .irq) ?_) Bool.false_ne_true
      rw [hholds'.irqs, hholds.irqs, hadded]
      decide

/-- There are no transmit descriptors: a receive ring is left that nothing tells of. -/
theorem Leftover.txFailed (h : Leftover s napis rings) {dma : BitVec 32}
    (hcalls : t.calls = s.calls ++ (registerCalls s ++ [.dmaAllocRx dma]))
    (hdone : t.initDone = false) (hflag : t.napiAdded = true)
    (hlist : t.info.rx.rxSkbList = s.info.rx.rxSkbList) :
    Leftover t napis (rings + 1) ∧ t.held ≠ s.held := by
  obtain ⟨held, hheld, hholds⟩ := h.held
  obtain ⟨held', hsettle, hholds'⟩ := settle_registerCalls hholds
  have hafter := hholds'.rxRing
  have ht : t.held = some (.rxRing ::ₘ held') := by
    refine held_of_calls hheld hcalls ?_
    rw [settle_append_some hsettle]
    rfl
  refine ⟨⟨hdone, fun i => by rw [hlist, h.rxSkbList], _, ht, ?_⟩,
    held_ne hheld ht (r := .rxRing) ?_⟩
  · rw [hflag]
    exact hafter
  · rw [hafter.rxRings, hholds.rxRings]
    omega

/-- An attempt that succeeds leaves one of each, and what had been left behind. -/
theorem Leftover.succeeded (h : Leftover s napis rings) {rxDma txDma : BitVec 32}
    {refill : List InitCall} (hrefill : OnlySkbs refill)
    (hcalls : t.calls = s.calls ++ (registerCalls s ++ [.dmaAllocRx rxDma, .dmaAllocTx txDma] ++
      refill ++ [.initTxDescBase txDma, .initRxDescBase rxDma])) :
    HoldsOne t ↔ napis = 0 ∧ rings = 0 := by
  obtain ⟨held, hheld, hholds⟩ := h.held
  obtain ⟨mid, hregister, hmid⟩ := settle_registerCalls hholds
  obtain ⟨held', hsettle, hholds'⟩ := hmid.rxRing.txRing.refill hrefill
  have ht : t.held = some held' := by
    refine held_of_calls hheld hcalls ?_
    have hrings : settle InitCall.act mid [.dmaAllocRx rxDma, .dmaAllocTx txDma] =
        some (.txRing ::ₘ .rxRing ::ₘ mid) := rfl
    rw [List.append_assoc, List.append_assoc, settle_append_some hregister,
      settle_append_some hrings, settle_append_some hsettle]
    rfl
  constructor
  · rintro ⟨one, hone, hholdsOne⟩
    cases ht.symm.trans hone
    have hnapis := hholds'.napis.symm.trans hholdsOne.napis
    have hrings := hholds'.rxRings.symm.trans hholdsOne.rxRings
    exact ⟨by omega, by omega⟩
  · rintro ⟨rfl, rfl⟩
    exact ⟨held', ht, hholds'⟩

/-- Every attempt on an uninitialised port, with what it leaves behind. -/
theorem Leftover.attempt (h : Leftover s napis rings) (env : InitEnv) :
    ∃ t, initStep s env = some t ∧
      ((t.initDone = true ∧ Succeeds s env ∧ (HoldsOne t ↔ napis = 0 ∧ rings = 0)) ∨
      (Registers s env ∧ env.rxDma = none ∧ Leftover t napis rings ∧
        (t.held = s.held ↔ s.napiAdded = true)) ∨
      (¬ FailsAtRx s env ∧ t.held ≠ s.held ∧ ∃ napis' rings', Leftover t napis' rings' ∧
        ¬ (napis' = 0 ∧ rings' = 0))) := by
  obtain ⟨t, hstep, hattempt⟩ := initStep_attempt h.initDone h.rxSkbList env
  refine ⟨t, hstep, ?_⟩
  cases hattempt with
  | irqRefused hadded hirq hcalls hdone hflag hlist =>
    obtain ⟨hleft, hne⟩ := h.irqRefused hadded hcalls hdone hflag hlist
    have hnot : ¬ Registers s env := by
      rw [Registers, hadded, hirq]
      simp
    refine Or.inr (Or.inr ⟨?_, hne, _, _, hleft, by omega⟩)
    exact fun hrx => hrx.elim (fun hsucceeds => hnot hsucceeds.1) fun hfails => hnot hfails.1
  | rxFailed hreg hrx hcalls hdone hflag hlist =>
    exact Or.inr (Or.inl ⟨hreg, hrx, h.rxFailed hcalls hdone hflag hlist⟩)
  | txFailed hreg hrx htx hcalls hdone hflag hlist =>
    obtain ⟨hleft, hne⟩ := h.txFailed hcalls hdone hflag hlist
    refine Or.inr (Or.inr ⟨?_, hne, _, _, hleft, by omega⟩)
    rintro (⟨-, -, htx'⟩ | ⟨-, hrx'⟩)
    · rw [htx] at htx'
      cases htx'
    · cases hrx.symm.trans hrx'
  | succeeded hsucceeds hrefill hcalls hdone =>
    exact Or.inl ⟨hdone, hsucceeds, h.succeeded hrefill hcalls⟩

/-- What an attempt that fails leaves behind, from the outcomes. -/
theorem Leftover.leavesNothing_iff (h : Leftover s napis rings) (env : InitEnv) :
    LeavesNothing s env ↔ LeavesNothingWhen s env := by
  obtain ⟨t, hstep, hends⟩ := h.attempt env
  have hleaves : LeavesNothing s env ↔ (t.initDone = false → t.held = s.held) := by
    rw [LeavesNothing, hstep]
    exact ⟨fun hall => hall t rfl, fun ht u hu => Option.some.inj hu ▸ ht⟩
  rw [hleaves]
  rcases hends with ⟨hdone, hsucceeds, -⟩ | ⟨-, hrx, ht, hheld⟩ | ⟨hfails, hheld, _, _, ht, -⟩
  · refine iff_of_true (fun hnot => ?_) (Or.inl hsucceeds)
    cases hdone.symm.trans hnot
  · have hnot : ¬ Succeeds s env := by
      rintro ⟨-, hsome, -⟩
      rw [hrx] at hsome
      cases hsome
    constructor
    · exact fun hsame => Or.inr ⟨hheld.mp (hsame ht.initDone), hrx⟩
    · rintro (hsucceeds | ⟨hadded, -⟩) -
      · exact absurd hsucceeds hnot
      · exact hheld.mpr hadded
  · refine iff_of_false (fun hsame => hheld (hsame ht.initDone)) fun hwhen => hfails ?_
    exact hwhen.imp_right fun ⟨hadded, hrx⟩ => ⟨Or.inl hadded, hrx⟩

/-- No attempt is made on a port that has been initialised. -/
theorem initRun_done {u : SynPort} {envs : List InitEnv} (hdone : s.initDone = true)
    (hrun : run initStep s envs = some u) : envs = [] ∧ u = s := by
  cases envs with
  | nil => exact ⟨rfl, (Option.some.inj hrun).symm⟩
  | cons env envs =>
    obtain ⟨t, hstep, -⟩ := run_cons_some.mp hrun
    rw [initStep, if_pos hdone] at hstep
    cases hstep

/-- The attempts that leave nothing behind, over a run. -/
theorem Leftover.leaves_iff : ∀ {envs : List InitEnv} {s u : SynPort} {napis rings : Nat},
    Leftover s napis rings → run initStep s envs = some u →
      (StepsMeet initStep LeavesNothing s envs ↔ StepsMeet initStep LeavesNothingWhen s envs) := by
  intro envs
  induction envs with
  | nil => exact fun _ _ => Iff.rfl
  | cons env envs ih =>
    intro s u napis rings h hrun
    obtain ⟨t, hstep, hends⟩ := h.attempt env
    have hrest : run initStep t envs = some u := by rwa [run_cons, hstep] at hrun
    rw [stepsMeet_cons_some hstep, stepsMeet_cons_some hstep]
    refine and_congr (h.leavesNothing_iff env) ?_
    rcases hends with ⟨hdone, -, -⟩ | ⟨-, -, ht, -⟩ | ⟨-, -, _, _, ht, -⟩
    · obtain ⟨rfl, -⟩ := initRun_done hdone hrest
      exact Iff.rfl
    · exact ih ht hrest
    · exact ih ht hrest

/-- What the port holds once an attempt has succeeded. -/
theorem Leftover.holdsOne_iff : ∀ {envs : List InitEnv} {s u : SynPort} {napis rings : Nat},
    Leftover s napis rings → run initStep s envs = some u → u.initDone = true →
      (HoldsOne u ↔ (napis = 0 ∧ rings = 0) ∧ StepsMeet initStep FailsAtRx s envs) := by
  intro envs
  induction envs with
  | nil =>
    intro s u napis rings h hrun hdone
    cases hrun
    cases h.initDone.symm.trans hdone
  | cons env envs ih =>
    intro s u napis rings h hrun hdone
    obtain ⟨t, hstep, hends⟩ := h.attempt env
    have hrest : run initStep t envs = some u := by rwa [run_cons, hstep] at hrun
    rw [stepsMeet_cons_some hstep]
    rcases hends with ⟨hdone', hsucceeds, hone⟩ | ⟨hreg, hrx, ht, -⟩ | ⟨hfails, -, _, _, ht, hmore⟩
    · obtain ⟨rfl, rfl⟩ := initRun_done hdone' hrest
      rw [hone]
      exact (and_iff_left ⟨Or.inl hsucceeds, trivial⟩).symm
    · rw [ih ht hrest hdone]
      exact and_congr_right fun _ => (and_iff_right (Or.inr ⟨hreg, hrx⟩)).symm
    · rw [ih ht hrest hdone]
      exact iff_of_false (fun hboth => hmore hboth.1) fun hboth => hfails hboth.2.1

end Leftover

/-- From a port that holds nothing, over any number of attempts: those that fail leave nothing
    behind just when each fails at the receive descriptors with NAPI and the interrupt there before
    it; and after a success the port holds one of each just when those before it have failed at the
    receive descriptors. -/
theorem initRun_leaks_iff {s u : SynPort} {envs : List InitEnv} (h : Uninitialised s)
    (hrun : run initStep s envs = some u) :
    (StepsMeet initStep LeavesNothing s envs ↔ StepsMeet initStep LeavesNothingWhen s envs) ∧
      (u.initDone = true → (HoldsOne u ↔ StepsMeet initStep FailsAtRx s envs)) := by
  refine ⟨h.leftover.leaves_iff hrun, fun hdone => ?_⟩
  rw [h.leftover.holdsOne_iff hrun hdone]
  exact and_iff_right ⟨rfl, rfl⟩

theorem uninitialised_zero : Uninitialised SynPort.zero := ⟨rfl, rfl, fun _ => rfl, rfl⟩

/-- An initialisation that nothing fails in. -/
def initOk : InitEnv := ⟨true, some 0x1000#32, some 0x2000#32, []⟩

/-- The receive descriptors are refused twice before a success: the port holds one of each, though
    the first failure has left an interrupt and a NAPI instance. -/
theorem initRun_leaks_iff_rxFailed : ∃ u,
    run initStep .zero [{ initOk with rxDma := none }, { initOk with rxDma := none }, initOk] =
      some u ∧ HoldsOne u ∧
    ¬ StepsMeet initStep LeavesNothing .zero
      [{ initOk with rxDma := none }, { initOk with rxDma := none }, initOk] := by
  have hdone : (run initStep .zero
      [{ initOk with rxDma := none }, { initOk with rxDma := none }, initOk]).map
        SynPort.initDone = some true := by
    decide +kernel
  obtain ⟨u, hrun, hinit⟩ := Option.map_eq_some_iff.mp hdone
  obtain ⟨hleaves, hone⟩ := initRun_leaks_iff uninitialised_zero hrun
  refine ⟨u, hrun, (hone hinit).mpr ?_, fun h => ?_⟩
  · refine ⟨Or.inr ⟨Or.inr rfl, rfl⟩, fun s _ => ⟨Or.inr ⟨Or.inr rfl, rfl⟩, fun s _ => ?_⟩⟩
    exact ⟨Or.inl ⟨Or.inr rfl, rfl, rfl⟩, fun _ _ => trivial⟩
  · rcases (hleaves.mp h).1 with hsucceeds | ⟨hadded, -⟩
    · cases hsucceeds.2.1
    · cases hadded

/-- A failed attempt after which more is held has left something. -/
theorem not_leavesNothing {s t : SynPort} {env : InitEnv} (hstep : initStep s env = some t)
    (hdone : t.initDone = false) (hheld : t.held ≠ s.held) : ¬ LeavesNothing s env :=
  fun h => hheld (h t hstep hdone)

theorem not_holdsOne {u : SynPort} {held : Multiset Resource} (hheld : u.held = some held)
    (hmore : held.count .napi ≠ 1 ∨ held.count .rxRing ≠ 1) : ¬ HoldsOne u := by
  rintro ⟨one, hone, hholds⟩
  cases hheld.symm.trans hone
  exact hmore.elim (fun h => h hholds.napis) fun h => h hholds.rxRings

/-- The interrupt is refused, or there are no transmit descriptors: something is left, and a success
    that follows ends with two NAPI instances, or with two receive rings. -/
theorem initRun_leaks : Uninitialised .zero ∧
    (∃ t u, initStep .zero { initOk with requestIrq := false } = some t ∧
      ¬ LeavesNothing .zero { initOk with requestIrq := false } ∧
      initStep t initOk = some u ∧ u.initDone = true ∧
      u.held = some {.txRing, .rxRing, .irq, .napi, .napi} ∧ ¬ HoldsOne u) ∧
    ∃ t u, initStep .zero { initOk with txDma := none } = some t ∧
      ¬ LeavesNothing .zero { initOk with txDma := none } ∧
      initStep t initOk = some u ∧ u.initDone = true ∧
      u.held = some {.txRing, .rxRing, .rxRing, .irq, .napi} ∧ ¬ HoldsOne u := by
  refine ⟨uninitialised_zero, ⟨_, _, rfl, ?_, rfl, rfl, ?held, ?_⟩,
    ⟨_, _, rfl, ?_, rfl, rfl, ?held', ?_⟩⟩
  case held => decide +kernel
  case held' => decide +kernel
  · exact not_leavesNothing rfl rfl (by decide +kernel)
  · refine not_holdsOne (?_ : _ = some {.txRing, .rxRing, .irq, .napi, .napi}) (Or.inl (by decide))
    decide +kernel
  · exact not_leavesNothing rfl rfl (by decide +kernel)
  · refine not_holdsOne (?_ : _ = some {.txRing, .rxRing, .rxRing, .irq, .napi})
      (Or.inr (by decide))
    decide +kernel

end NssDp.SynGmacDp
