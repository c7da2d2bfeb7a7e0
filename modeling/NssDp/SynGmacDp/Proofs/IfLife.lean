import NssDp.Misc.Fifo
import NssDp.Misc.Pairing
import NssDp.SynGmacDp.IfDeinit
import NssDp.SynGmacDp.Proofs.IfInitLeaks

/-!
# What a port holds over its lives

A removal gives back what the flags and words of the port tell of. Of what an attempt to initialise
it acquires, they tell at once or never: what a failed attempt has acquired without a word is lost
for all later lives, and nothing else is.
-/

namespace NssDp.SynGmacDp

open Lts Pairing

/-- What a port holds besides buffers. -/
inductive PortResource where
  | irq
  | napi
  | rxRing (dma : BitVec 32)
  | txRing (dma : BitVec 32)
  deriving DecidableEq, Repr

def LifeCall.act : LifeCall → Act PortResource
  | .init .netifNapiAdd => .acquire .napi
  | .init .requestIrq => .acquire .irq
  | .init (.dmaAllocRx dma) => .acquire (.rxRing dma)
  | .init (.dmaAllocTx dma) => .acquire (.txRing dma)
  | .deinit .freeIrq => .release .irq
  | .deinit .netifNapiDel => .release .napi
  | .deinit (.dmaFreeRx dma) => .release (.rxRing dma)
  | .deinit (.dmaFreeTx dma) => .release (.txRing dma)
  | _ => .neither

/-- What `napi_added` tells of. -/
def SynPort.registered (s : SynPort) : Multiset PortResource :=
  if s.napiAdded then {.irq, .napi} else 0

/-- What `INIT_DONE` and the words of the two rings tell of. -/
def SynPort.rings (s : SynPort) : Multiset PortResource :=
  if s.initDone then {.rxRing s.rxDescDma, .txRing s.txDescDma} else 0

/-- The receive descriptors of an attempt that gets none for transmission. -/
def InitEnv.lostRings (env : InitEnv) : List PortResource :=
  match env.rxDma, env.txDma with
  | some dma, none => [.rxRing dma]
  | _, _ => []

/-- What an attempt acquires without a word: NAPI where the interrupt is refused, and the receive
    descriptors where those for transmission are. -/
def lostBy (s : SynLife) : LifeLabel → List PortResource
  | .attempt env =>
    if s.port.napiAdded = false ∧ env.requestIrq = false then [.napi] else env.lostRings
  | _ => []

/-- What has happened to a port: `lost` is what nothing tells of. -/
structure LifeInv (lost : List PortResource) (s : SynLife) : Prop where
  held : settle LifeCall.act 0 s.calls = some (s.port.rings + s.port.registered + ↑lost)
  irqRequested : s.port.irqRequested = s.port.napiAdded
  initDone : s.port.initDone = true → s.port.napiAdded = true

theorem LifeInv.start : LifeInv [] .start := ⟨rfl, rfl, fun h => h⟩

/-- Calls on buffers do not matter. -/
theorem settle_buffers {β γ : Type*} {f : β → γ} {g : γ → LifeCall}
    (h : ∀ b, (g (f b)).act = .neither) (es : List β) (held : Multiset PortResource) :
    settle LifeCall.act held ((es.map f).map g) = some held := by
  rw [List.map_map]
  apply settle_of_neither
  intro call hcall
  obtain ⟨b, -, rfl⟩ := List.mem_map.mp hcall
  exact h b

/-- The calls of a setup that succeeds. -/
def setupCalls (rxDma txDma : BitVec 32) (events : List RxEvent) : List InitCall :=
  [.dmaAllocRx rxDma, .dmaAllocTx txDma] ++
    (events.map .rx ++ [.initTxDescBase txDma, .initRxDescBase rxDma])

theorem settle_setupCalls (rxDma txDma : BitVec 32) (events : List RxEvent)
    (held : Multiset PortResource) :
    settle LifeCall.act held ((setupCalls rxDma txDma events).map .init) =
      some ({.rxRing rxDma, .txRing txDma} + held) := by
  have halloc : settle LifeCall.act held
      [.init (.dmaAllocRx rxDma), .init (.dmaAllocTx txDma)] =
        some (.txRing txDma ::ₘ .rxRing rxDma ::ₘ held) := rfl
  have hbase (held : Multiset PortResource) : settle LifeCall.act held
      [.init (.initTxDescBase txDma), .init (.initRxDescBase rxDma)] = some held := rfl
  rw [setupCalls, List.map_append, List.map_append]
  refine (settle_append_some halloc).trans ?_
  rw [settle_append_some (settle_buffers (fun _ => rfl) _ _)]
  refine (hbase _).trans (congrArg some ?_)
  rw [Multiset.insert_eq_cons, Multiset.cons_add, Multiset.singleton_add, Multiset.cons_swap]

/-- The first calls of a removal. -/
theorem settle_unregisterCalls (held : Multiset PortResource) :
    settle LifeCall.act (.irq ::ₘ .napi ::ₘ held)
      [.deinit .synchronizeIrq, .deinit .freeIrq, .deinit .netifNapiDel] = some held := by
  have hirq : LifeCall.act (.deinit .freeIrq) = .release .irq := rfl
  have hnapi : LifeCall.act (.deinit .netifNapiDel) = .release .napi := rfl
  rw [settle_neither rfl, settle_release_cons hirq, settle_release_cons hnapi, settle_nil]

/-! The refill does not look at the list of buffers. -/

theorem setRx_list {info info' : SynDpRxInfo} {buffer1 length1 : BitVec 32} {skb : RxSkb}
    (hset : synDpSetRxQptr info buffer1 length1 skb = .ok info') (list : Nat → Option RxSkb) :
    ∃ list', synDpSetRxQptr { info with rxSkbList := list } buffer1 length1 skb =
      .ok { info' with rxSkbList := list' } := by
  unfold synDpSetRxQptr at hset ⊢
  dsimp only at hset ⊢
  split_ifs at hset ⊢
  cases hset
  exact ⟨_, rfl⟩

theorem refillLoop_list : ∀ (emptyCount : Nat) (allocs : List RxAlloc) {s t : RxPort}
    (list : Nat → Option RxSkb), rxRefillLoop emptyCount allocs s = .ok t →
      ∃ t', rxRefillLoop emptyCount allocs { s with info := { s.info with rxSkbList := list } } =
        .ok t' := by
  intro emptyCount
  induction emptyCount with
  | zero =>
    intro allocs s t list _
    exact ⟨{ s with info := { s.info with rxSkbList := list } }, by simp [rxRefillLoop]⟩
  | succ emptyCount ih =>
    intro allocs s t list hloop
    rcases allocs with - | ⟨- | skb | ⟨skb, dmaAddr⟩, allocs⟩
    · exact ⟨_, rfl⟩
    · exact ⟨_, rfl⟩
    · exact ⟨_, rfl⟩
    simp only [rxRefillLoop, RxPort.emit] at hloop ⊢
    split at hloop
    · cases hloop
    · next info' hset =>
      obtain ⟨list', hset'⟩ := setRx_list hset list
      rw [hset']
      exact ih allocs list' hloop

/-- After a setup the refill reaches no assertion, whatever the list has been left with. -/
theorem refill_setup {rx rx' : SynDpRxInfo} {ok : Bool}
    (hsetup : synDpSetupRxDescQueue rx synDpRxDescSize .ringMode ok = .ok (0, rx'))
    (allocs : List RxAlloc) : ∃ port, synDpRxRefill ⟨rx', []⟩ allocs = .ok port := by
  have hcleared : synDpSetupRxDescQueue { rx with rxSkbList := fun _ => none } synDpRxDescSize
      .ringMode true = .ok (0, { rx' with rxSkbList := fun _ => none }) := by
    rw [synDpSetupRxDescQueue_ok hsetup]
    rfl
  have hempty := RxRingInv.setup (fun _ => rfl) hcleared
  obtain ⟨port, hport, -⟩ := RxRingInv.refill_rule (P := fun _ => True) (Q := fun _ _ => True)
    (fun _ _ _ _ _ _ _ => trivial) (fun _ _ _ _ _ => trivial) (fun _ _ _ => trivial)
    (s := ⟨_, []⟩) allocs hempty trivial
  exact refillLoop_list _ allocs rx'.rxSkbList hport

section Attempt

variable {s m t : SynPort} {env : InitEnv}

/-- How the second part of an attempt ends. -/
structure RingsEnd (m : SynPort) (env : InitEnv) (t : SynPort) : Prop where
  napiAdded : t.napiAdded = m.napiAdded
  irqRequested : t.irqRequested = m.irqRequested
  calls : ∃ es, t.calls = m.calls ++ es ∧ ∀ held, settle LifeCall.act held (es.map .init) =
    some (t.rings + (↑env.lostRings + held))

/-- `syn_dp_setup_rings` with the guard of its caller. -/
theorem rings_life (hdone : m.initDone = false) (env : InitEnv) : ∃ r t,
    synDpSetupRings m env = .ok r ∧
      (if r.1 = .success then { r.2 with initDone := true } else r.2) = t ∧
      RingsEnd m env t := by
  have hne : eNoMem ≠ 0 := by decide
  have hfailure : NssDpRet.failure ≠ .success := by decide
  obtain ⟨rx, hrx, -⟩ := setupRx_ring m.info.rx env.rxDma.isSome
  obtain ⟨tx, htx⟩ := setupTx_ring m.info.tx env.txDma.isSome
  unfold synDpSetupRings
  cases hrxDma : env.rxDma with
  | none =>
    rw [hrxDma, Option.isSome_none] at hrx
    refine ⟨(.failure, m.setRx rx none), _, ?_, if_neg hfailure, ?_⟩
    · simp [hrx, hne]
    · refine ⟨rfl, rfl, [], (List.append_nil _).symm, fun held => ?_⟩
      simp [SynPort.rings, SynPort.setRx, hdone, InitEnv.lostRings, hrxDma]
  | some rxDma =>
    rw [hrxDma, Option.isSome_some] at hrx
    cases htxDma : env.txDma with
    | none =>
      rw [htxDma, Option.isSome_none] at htx
      refine ⟨(.failure, (m.setRx rx (some rxDma)).setTx tx none), _, ?_, if_neg hfailure, ?_⟩
      · simp [hrx, htx, hne, SynPort.setRx, SynPort.call]
      · refine ⟨rfl, rfl, [.dmaAllocRx rxDma], rfl, fun held => ?_⟩
        have hlost : env.lostRings = [.rxRing rxDma] := by
          rw [InitEnv.lostRings, hrxDma, htxDma]
        have hrings : ((m.setRx rx (some rxDma)).setTx tx none).rings = 0 := if_neg (by
          simp [SynPort.setRx, SynPort.setTx, SynPort.call, hdone])
        rw [hlost, hrings, Multiset.zero_add]
        rfl
    | some txDma =>
      rw [htxDma, Option.isSome_some] at htx
      obtain ⟨port, hport⟩ := refill_setup hrx env.allocs
      have hlost : env.lostRings = [] := by
        rw [InitEnv.lostRings, hrxDma, htxDma]
      simp only [Option.isSome_some, hrx, htx, if_true, ne_eq, not_true_eq_false, if_false,
        SynPort.setRx, SynPort.setTx, SynPort.call, hport]
      refine ⟨_, _, rfl, if_pos rfl, ?_⟩
      refine ⟨rfl, rfl, setupCalls rxDma txDma port.events, ?_, fun held => ?_⟩
      · simp only [setupCalls, List.append_assoc, List.cons_append, List.nil_append]
      · rw [settle_setupCalls, hlost, SynPort.rings, if_pos rfl, Multiset.coe_nil,
          Multiset.zero_add]

/-- NAPI and the interrupt are there after the first part of an attempt. -/
structure IsRegistered (s m : SynPort) : Prop where
  napiAdded : m.napiAdded = true
  irqRequested : m.irqRequested = true
  initDone : m.initDone = s.initDone
  held : ∀ held, settle LifeCall.act (s.registered + held) (m.calls.map .init) =
    some (m.registered + held)

/-- How the first part of an attempt ends. -/
theorem register_life (hcalls : s.calls = []) (hflags : s.irqRequested = s.napiAdded)
    (env : InitEnv) :
    ((s.napiAdded = false ∧ env.requestIrq = false) ∧
      synDpIfRegister s env = (false, s.call [.netifNapiAdd])) ∨
    (¬ (s.napiAdded = false ∧ env.requestIrq = false) ∧
      ∃ m, synDpIfRegister s env = (true, m) ∧ IsRegistered s m) := by
  unfold synDpIfRegister
  cases hadded : s.napiAdded with
  | true =>
    refine Or.inr ⟨by simp, s, rfl, hadded, hflags.trans hadded, rfl, fun held => ?_⟩
    rw [hcalls]
    rfl
  | false =>
    cases hirq : env.requestIrq with
    | true =>
      refine Or.inr ⟨by simp, _, rfl, rfl, rfl, rfl, fun held => ?_⟩
      have hnone : s.registered = 0 := by
        rw [SynPort.registered, hadded]
        rfl
      simp only [SynPort.call, hcalls]
      rw [hnone, Multiset.zero_add, SynPort.registered, if_pos rfl, Multiset.insert_eq_cons,
        Multiset.cons_add, Multiset.singleton_add]
      rfl
    | false => exact Or.inl ⟨⟨rfl, rfl⟩, rfl⟩

/-- What an attempt leaves, where the calls of the port are those of the attempt. -/
structure AttemptEnd (s : SynPort) (lost : List PortResource) (t : SynPort) : Prop where
  irqRequested : t.irqRequested = t.napiAdded
  initDone : t.initDone = true → t.napiAdded = true
  held : ∀ held, settle LifeCall.act (s.registered + held) (t.calls.map .init) =
    some (t.rings + t.registered + (↑lost + held))

/-- An attempt runs into no assertion, whatever the port has been used for before. -/
theorem attempt_life (hdone : s.initDone = false) (hcalls : s.calls = [])
    (hflags : s.irqRequested = s.napiAdded) (env : InitEnv) :
    ∃ t, initStep s env = some t ∧ AttemptEnd s
      (if s.napiAdded = false ∧ env.requestIrq = false then [.napi] else env.lostRings) t := by
  unfold initStep synDpIfInit
  simp only [hdone, Bool.false_eq_true, if_false]
  rcases register_life hcalls hflags env with ⟨hrefused, heq⟩ | ⟨hrefused, m, heq, hm⟩
  · rw [heq, if_pos hrefused]
    refine ⟨s.call [.netifNapiAdd], rfl, hflags, fun hinit => ?_, fun held => ?_⟩
    · cases hdone.symm.trans hinit
    · have hrings : (s.call [.netifNapiAdd]).rings = 0 := by
        rw [SynPort.rings, SynPort.call, if_neg (by rw [hdone]; exact Bool.false_ne_true)]
      have hregistered : (s.call [.netifNapiAdd]).registered = s.registered := rfl
      have hnapi : (s.call [.netifNapiAdd]).calls = [.netifNapiAdd] := by
        rw [SynPort.call, hcalls]
        rfl
      rw [hrings, hregistered, hnapi, Multiset.zero_add, Multiset.coe_singleton,
        Multiset.singleton_add, Multiset.add_cons]
      rfl
  · obtain ⟨r, t, hr, ht, hend⟩ := rings_life (hm.initDone.trans hdone) env
    obtain ⟨es, hes, hsettle⟩ := hend.calls
    simp only [heq, if_true, hr, if_neg hrefused]
    refine ⟨t, congrArg some ht, ?_, fun _ => hend.napiAdded.trans hm.napiAdded, fun held => ?_⟩
    · rw [hend.irqRequested, hend.napiAdded, hm.napiAdded, hm.irqRequested]
    · have hregistered : t.registered = m.registered := by
        rw [SynPort.registered, hend.napiAdded, SynPort.registered]
      rw [hes, List.map_append, settle_append_some (hm.held held), hsettle, hregistered,
        Multiset.add_assoc, ← Multiset.add_assoc m.registered,
        Multiset.add_comm m.registered ↑env.lostRings, Multiset.add_assoc]

end Attempt

/-- A removal gives back what the port tells of. -/
theorem deinit_life {s : SynPort} (hdone : s.initDone = true) (hadded : s.napiAdded = true)
    (hrequested : s.irqRequested = true) (held : Multiset PortResource) :
    settle LifeCall.act (s.rings + s.registered + held)
        ((synDpIfDeinit s).1.map .deinit) = some held ∧
      (synDpIfDeinit s).2.napiAdded = false ∧ (synDpIfDeinit s).2.irqRequested = false := by
  have hunregister : synDpIfUnregister s = ([.synchronizeIrq, .freeIrq, .netifNapiDel],
      { s with irqRequested := false, napiAdded := false }) := by
    rw [synDpIfUnregister, if_pos hadded, if_pos hrequested]
  have hheld : s.rings + s.registered + held =
      .irq ::ₘ .napi ::ₘ .rxRing s.rxDescDma ::ₘ .txRing s.txDescDma ::ₘ held := by
    rw [SynPort.rings, if_pos hdone, SynPort.registered, if_pos hadded,
      Multiset.add_comm {PortResource.rxRing s.rxDescDma, .txRing s.txDescDma}]
    simp only [Multiset.insert_eq_cons, Multiset.cons_add, Multiset.singleton_add]
  have hrxRing : LifeCall.act (.deinit (.dmaFreeRx s.rxDescDma)) = .release (.rxRing s.rxDescDma) :=
    rfl
  have htxRing : LifeCall.act (.deinit (.dmaFreeTx s.txDescDma)) = .release (.txRing s.txDescDma) :=
    rfl
  simp only [synDpIfDeinit, hunregister, and_self, and_true, SynPort.cleanupCalls, List.map_append,
    List.map_cons, List.map_nil, List.append_assoc]
  rw [hheld]
  refine (settle_append_some (settle_unregisterCalls _)).trans ?_
  rw [settle_append_some (settle_buffers (fun _ => rfl) _ _), List.singleton_append,
    settle_release_cons hrxRing, settle_append_some (settle_buffers (fun _ => rfl) _ _),
    settle_release_cons htxRing, settle_nil]

section Run

variable {lost : List PortResource} {s t : SynLife}

/-- After a removal nothing is told of, and what has been lost is held. -/
theorem LifeInv.deinit (h : LifeInv lost s) (hstep : lifeStep s .deinit = some t) :
    LifeInv lost t ∧ t.port.rings + t.port.registered = 0 := by
  rw [lifeStep] at hstep
  split at hstep
  · next hdone =>
    have ht : t = ⟨{ (synDpIfDeinit s.port).2 with initDone := false },
        s.calls ++ (synDpIfDeinit s.port).1.map .deinit⟩ := (Option.some.inj hstep).symm
    have hadded := h.initDone hdone
    obtain ⟨hheld, hnapi, hirq⟩ := deinit_life hdone hadded (h.irqRequested.trans hadded) ↑lost
    have hgone : t.port.rings + t.port.registered = 0 := by
      rw [ht, SynPort.rings, if_neg Bool.false_ne_true, SynPort.registered, hnapi,
        if_neg Bool.false_ne_true, Multiset.zero_add]
    refine ⟨⟨?_, ?_, fun hnot => ?_⟩, hgone⟩
    · rw [hgone, ht, Multiset.zero_add]
      exact (settle_append_some h.held).trans hheld
    · rw [ht]
      exact hirq.trans hnapi.symm
    · rw [ht] at hnot
      cases hnot
  · cases hstep

/-- What one step does to what is held. -/
theorem LifeInv.step {a : LifeLabel} (h : LifeInv lost s) (hstep : lifeStep s a = some t) :
    LifeInv (lost ++ lostBy s a) t := by
  cases a with
  | attempt env =>
    obtain ⟨port, hport, rfl⟩ := Option.map_eq_some_iff.mp hstep
    have hdone : s.port.initDone = false := by
      by_contra hinit
      rw [initStep, if_pos (Bool.of_not_eq_false hinit)] at hport
      cases hport
    obtain ⟨port', hport', hend⟩ := attempt_life (s := { s.port with calls := [] }) hdone rfl
      h.irqRequested env
    cases hport.symm.trans hport'
    refine ⟨?_, hend.irqRequested, hend.initDone⟩
    have hrings : s.port.rings = 0 := by
      rw [SynPort.rings, hdone]
      rfl
    have hheld := h.held
    rw [hrings, Multiset.zero_add] at hheld
    refine (settle_append_some hheld).trans ((hend.held ↑lost).trans (congrArg some ?_))
    rw [← Multiset.coe_add, Multiset.add_comm (lost : Multiset PortResource)]
    rfl
  | use info =>
    show LifeInv (lost ++ []) t
    rw [lifeStep] at hstep
    split at hstep
    · cases hstep
      rw [List.append_nil]
      exact ⟨h.held, h.irqRequested, h.initDone⟩
    · cases hstep
  | deinit =>
    show LifeInv (lost ++ []) t
    rw [List.append_nil]
    exact (h.deinit hstep).1

theorem lifeRun_inv {as : List LifeLabel} (hrun : run lifeStep .start as = some s) :
    LifeInv (trace lifeStep lostBy .start as) s :=
  run_trace_inv (fun _ _ _ _ h hstep => LifeInv.step h hstep) LifeInv.start hrun

end Run

/-- Two attempts that fail, a success that posts two buffers, a removal, and a success. -/
def twoLives : List LifeLabel :=
  [.attempt { initOk with requestIrq := false }, .attempt { initOk with txDma := none },
    .attempt { initOk with
      allocs := [.mapped ⟨0, 2000⟩ 0x8000#32, .mapped ⟨1, 2000⟩ 0x9000#32] },
    .deinit, .attempt initOk]

end NssDp.SynGmacDp
