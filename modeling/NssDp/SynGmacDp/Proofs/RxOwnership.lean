import NssDp.Misc.Lts
import NssDp.SynGmacDp.Proofs.RxInvariant

/-!
# Who owns a receive buffer of a Synopsys port

Refills, receive polls and the engine interleave. Every buffer the refill has allocated has
left the driver once, to the stack or back to the allocator, or is in one slot of the busy
window: the books say so as one permutation, which each push and each pop keeps. A frame
longer than the room of its buffer stops the kernel in `skb_put`; the ring is whole there too.
-/

namespace NssDp.SynGmacDp

open Lts Cyclic Word

/-- The port; `bug` is the assertion that has stopped the kernel. -/
structure RxRun where
  port : RxPort
  bug : Option SynRxBug

/-- One call or one step of the engine. -/
inductive RxLabel where
  | refill (allocs : List RxAlloc)
  | rx (budget : Int)
  | dma (wb : RxReport)

/-- A port on which nothing has happened. -/
def RxRun.start (info : SynDpRxInfo) : RxRun := ⟨⟨info, []⟩, none⟩

/-- What a call leaves. -/
def RxRun.ofCall : Except RxHalt RxPort → RxRun
  | .ok port => ⟨port, none⟩
  | .error halt => ⟨halt.port, some halt.bug⟩

/-- The allocator hands out no buffer twice: a freed one comes back as another buffer. -/
def FreshAllocs (s : RxPort) (allocs : List RxAlloc) : Prop :=
  ((allocatedSkbs s.events ++ allocs.filterMap RxAlloc.skb).map RxSkb.id).Nodup

instance (s : RxPort) (allocs : List RxAlloc) : Decidable (FreshAllocs s allocs) :=
  inferInstanceAs (Decidable (List.Nodup _))

/-- Nothing runs on after an assertion has failed. -/
def rxStep (s : RxRun) (a : RxLabel) : Option RxRun :=
  if s.bug.isSome then none
  else
    match a with
    | .refill allocs =>
      if FreshAllocs s.port allocs then some (.ofCall (synDpRxRefill s.port allocs)) else none
    | .rx budget => some (.ofCall ((synDpRx s.port budget).map Prod.snd))
    | .dma wb =>
      (dmaReceive s.port.info wb).map fun info => { s with port := { s.port with info } }

/-- The shape of the ring and the ownership of buffers, in the driver's terms. -/
structure RxOwned (s : RxRun) : Prop where
  noBugOn : s.bug = none ∨ s.bug = some .skbOverPanic
  rxNext : s.port.info.rxNext =
    (s.port.info.rxBusy + s.port.info.busyRxDesc) % s.port.info.rxDescCount
  busy_le : s.port.info.busyRxDesc ≤ s.port.info.rxDescCount
  window : ∀ i < s.port.info.rxDescCount,
    ((s.port.info.rxSkbList i).isSome = true ↔ i ∈ s.port.info.busyWindow) ∧
      ((s.port.info.rxDesc i).isDescEmpty = false ↔ i ∈ s.port.info.busyWindow)
  outside : ∀ i < s.port.info.rxDescCount, i ∉ s.port.info.busyWindow →
    (s.port.info.rxDesc i).isDescEmpty = true ∧
      (s.port.info.rxDesc i).isDescOwnedByDma = false
  endOfRing : ∀ i < s.port.info.rxDescCount,
    (s.port.info.rxDesc i).length &&& descRxDescEndOfRing = descRxDescEndOfRing ↔
      i + 1 = s.port.info.rxDescCount
  once : ((leftSkbs s.port.events).map RxSkb.id).Nodup

/-- The buffers of the busy window, oldest first. -/
def postedSkbs (info : SynDpRxInfo) : List RxSkb := info.busyWindow.filterMap info.rxSkbList

/-- A ring whose books balance: what was allocated has left or is posted. -/
structure RxPortInv (s : RxPort) : Prop where
  ring : RxRingInv s.info
  books : (allocatedSkbs s.events).Perm (leftSkbs s.events ++ postedSkbs s.info)
  fresh : FreshAllocs s []

namespace RxRingInv

variable {info : SynDpRxInfo}

theorem postedSkbs_push (h : RxRingInv info) (hroom : info.busyRxDesc < synDpRxDescSize)
    (skb : RxSkb) (dmaAddr : BitVec 32) :
    postedSkbs (pushRx info skb dmaAddr) = postedSkbs info ++ [skb] := by
  have hsame : info.busyWindow.filterMap (pushRx info skb dmaAddr).rxSkbList =
      postedSkbs info := by
    apply List.filterMap_congr
    intro i hi
    exact Function.update_of_ne (ne_of_mem_of_not_mem hi (h.next_notMem hroom)) _ _
  have hnew : (pushRx info skb dmaAddr).rxSkbList info.rxNext = some skb :=
    Function.update_self _ _ _
  rw [postedSkbs, h.busyWindow_push, List.filterMap_append, hsame,
    List.filterMap_cons_some hnew, List.filterMap_nil]

theorem postedSkbs_pop (h : RxRingInv info) (hbusy : 0 < info.busyRxDesc) {skb : RxSkb}
    (hskb : info.rxSkbList info.rxBusy = some skb) :
    postedSkbs info = skb :: postedSkbs (popRx info) := by
  have hsame : (popRx info).busyWindow.filterMap info.rxSkbList = postedSkbs (popRx info) := by
    apply List.filterMap_congr
    intro i hi
    have hne := ne_of_mem_of_not_mem hi (h.base_notMem_pop hbusy)
    exact (Function.update_of_ne hne _ _).symm
  rw [postedSkbs, h.busyWindow_pop hbusy, List.filterMap_cons_some hskb, hsame]

end RxRingInv

theorem FreshAllocs.nil {s : RxPort} {allocs : List RxAlloc} (h : FreshAllocs s allocs) :
    FreshAllocs s [] := by
  rw [FreshAllocs, List.filterMap_nil, List.append_nil]
  exact h.sublist ((List.sublist_append_left _ _).map _)

/-- A buffer that is allocated is one the loop was promised. -/
theorem FreshAllocs.next {s : RxPort} {alloc : RxAlloc} {allocs : List RxAlloc} {skb : RxSkb}
    (h : FreshAllocs s (alloc :: allocs)) (hskb : alloc.skb = some skb) {t : RxPort}
    (ht : allocatedSkbs t.events = allocatedSkbs s.events ++ [skb]) : FreshAllocs t allocs := by
  rw [FreshAllocs, List.filterMap_cons_some hskb] at h
  rw [FreshAllocs, ht, List.append_assoc]
  exact h

namespace RxPortInv

variable {s : RxPort}

/-- A buffer that is allocated and mapped is posted. -/
theorem push (h : RxPortInv s) (hroom : s.info.busyRxDesc < synDpRxDescSize) {skb : RxSkb}
    {dmaAddr : BitVec 32} {allocs : List RxAlloc}
    (hfresh : FreshAllocs s (.mapped skb dmaAddr :: allocs)) (dev : DmaDev) (len : Nat)
    (dir : DmaDir) {t : RxPort}
    (ht : t = ⟨pushRx s.info skb dmaAddr,
      s.events ++ [.allocSkb skb, .dmaMapSingle dev dmaAddr len dir]⟩) :
    RxPortInv t ∧ FreshAllocs t allocs := by
  have hallocated : allocatedSkbs t.events = allocatedSkbs s.events ++ [skb] := by
    rw [ht]
    exact allocatedSkbs_append _ _
  have hleft : leftSkbs t.events = leftSkbs s.events := by
    rw [ht, leftSkbs_append]
    exact List.append_nil _
  have hinfo : t.info = pushRx s.info skb dmaAddr := by rw [ht]
  have hnext := hfresh.next rfl hallocated
  refine ⟨⟨?_, ?_, hnext.nil⟩, hnext⟩
  · rw [hinfo]
    exact h.ring.push hroom skb dmaAddr
  · rw [hallocated, hleft, hinfo, h.ring.postedSkbs_push hroom, ← List.append_assoc]
    exact h.books.append_right [skb]

/-- A buffer that could not be mapped is freed at once. -/
theorem unmapped (h : RxPortInv s) {skb : RxSkb} {allocs : List RxAlloc}
    (hfresh : FreshAllocs s (.noMapping skb :: allocs)) :
    RxPortInv (s.emit [.allocSkb skb, .devKfreeSkb skb]) := by
  have hallocated : allocatedSkbs (s.emit [.allocSkb skb, .devKfreeSkb skb]).events =
      allocatedSkbs s.events ++ [skb] := allocatedSkbs_append _ _
  have hleft : leftSkbs (s.emit [.allocSkb skb, .devKfreeSkb skb]).events =
      leftSkbs s.events ++ [skb] := leftSkbs_append _ _
  refine ⟨h.ring, ?_, (hfresh.next rfl hallocated).nil⟩
  rw [hallocated, hleft, List.append_assoc]
  have hbooks := h.books.append_right [skb]
  rw [List.append_assoc] at hbooks
  exact hbooks.trans (List.perm_append_comm.append_left _)

/-- The refill reaches no assertion, wherever it stops. -/
theorem refill (h : RxPortInv s) {allocs : List RxAlloc} (hfresh : FreshAllocs s allocs) :
    ∃ t, synDpRxRefill s allocs = .ok t ∧ RxPortInv t := by
  obtain ⟨t, heq, -, ht⟩ := RxRingInv.refill_rule
    (Q := fun s allocs => RxPortInv s ∧ FreshAllocs s allocs)
    (fun s skb dmaAddr allocs _ hlt hQ => hQ.1.push hlt hQ.2 .pdev synDpMiniJumboFrameMtu
      .fromDevice rfl)
    (fun s skb allocs _ hQ => hQ.1.unmapped hQ.2) (fun _ _ hQ => hQ.1) allocs h.ring ⟨h, hfresh⟩
  exact ⟨t, heq, ht⟩

variable {es : List RxEvent}

theorem fresh_append (h : RxPortInv s) (hallocated : allocatedSkbs es = []) (info : SynDpRxInfo) :
    FreshAllocs ⟨info, s.events ++ es⟩ [] := by
  rw [FreshAllocs, allocatedSkbs_append, hallocated, List.append_nil]
  exact h.fresh

/-- Counters, and calls that move no buffer. -/
theorem stats (h : RxPortInv s) (es : List RxEvent) (hallocated : allocatedSkbs es = [])
    (hleft : leftSkbs es = []) (stats : RxStats) :
    RxPortInv ⟨{ s.info with stats }, s.events ++ es⟩ := by
  refine ⟨h.ring.stats stats, ?_, h.fresh_append hallocated _⟩
  rw [allocatedSkbs_append, hallocated, leftSkbs_append, hleft, List.append_nil, List.append_nil]
  exact h.books

/-- The oldest buffer leaves the driver, and its slot is cleared. -/
theorem pop (h : RxPortInv s) (hbusy : 0 < s.info.busyRxDesc) {skb : RxSkb}
    (hskb : s.info.rxSkbList s.info.rxBusy = some skb) (hallocated : allocatedSkbs es = [])
    (hleft : leftSkbs es = [skb]) : RxPortInv ⟨popRx s.info, s.events ++ es⟩ := by
  refine ⟨h.ring.pop hbusy, ?_, h.fresh_append hallocated _⟩
  rw [allocatedSkbs_append, hallocated, List.append_nil, leftSkbs_append, hleft,
    List.append_assoc, List.singleton_append, ← h.ring.postedSkbs_pop hbusy hskb]
  exact h.books

/-- A receive poll with any budget. -/
theorem rx (h : RxPortInv s) (budget : Int) :
    (∃ ret t, synDpRx s budget = .ok (ret, t) ∧ RxPortInv t) ∨
      ∃ t, synDpRx s budget = .error ⟨.skbOverPanic, t⟩ ∧ RxPortInv t := by
  have hpop (s : RxPort) (skb : RxSkb) (stats : RxStats) (e : RxEvent) (_ : RxRingInv s.info)
      (hbusy : 0 < s.info.busyRxDesc) (hskb : s.info.rxSkbList s.info.rxBusy = some skb)
      (hallocated : e.allocated = none) (hleft : e.left = some skb) (h : RxPortInv s) :
      RxPortInv ⟨popRx { s.info with stats }, s.events ++ [unmapCall s.info, e]⟩ := by
    have hstats := h.stats [] rfl rfl stats
    rw [List.append_nil] at hstats
    apply hstats.pop hbusy hskb
    · rw [allocatedSkbs, List.filterMap_cons_none rfl, List.filterMap_cons_none hallocated,
        List.filterMap_nil]
    · rw [leftSkbs, List.filterMap_cons_none rfl, List.filterMap_cons_some hleft,
        List.filterMap_nil]
  rcases RxRingInv.rx_rule hpop (fun s stats _ h => h.stats [unmapCall s.info] rfl rfl stats)
    h.ring h budget with ⟨ret, t, heq, -, ht⟩ | ⟨t, heq, -, ht⟩
  · exact Or.inl ⟨ret, t, heq, ht⟩
  · exact Or.inr ⟨t, heq, ht⟩

/-- The engine moves no buffer. -/
theorem receive (h : RxPortInv s) {wb : RxReport} {info' : SynDpRxInfo}
    (hrel : dmaReceive s.info wb = some info') : RxPortInv { s with info := info' } := by
  have hring := h.ring.receive hrel
  obtain ⟨i, _, rfl⟩ := dmaReceive_eq hrel
  exact ⟨hring, h.books, h.fresh⟩

end RxPortInv

/-- What every step keeps. -/
structure RxRunInv (s : RxRun) : Prop where
  port : RxPortInv s.port
  bug : s.bug = none ∨ s.bug = some .skbOverPanic

namespace RxRunInv

variable {s : RxRun}

theorem step (h : RxRunInv s) {a : RxLabel} {t : RxRun} (hstep : rxStep s a = some t) :
    RxRunInv t := by
  unfold rxStep at hstep
  split at hstep
  · cases hstep
  · cases a with
    | refill allocs =>
      simp only at hstep
      split at hstep
      · rename_i hfresh
        obtain ⟨port, heq, hport⟩ := h.port.refill hfresh
        rw [heq] at hstep
        cases hstep
        exact ⟨hport, Or.inl rfl⟩
      · cases hstep
    | rx budget =>
      simp only at hstep
      rcases h.port.rx budget with ⟨ret, port, heq, hport⟩ | ⟨port, heq, hport⟩
      · rw [heq] at hstep
        cases hstep
        exact ⟨hport, Or.inl rfl⟩
      · rw [heq] at hstep
        cases hstep
        exact ⟨hport, Or.inr rfl⟩
    | dma wb =>
      rw [Option.map_eq_some_iff] at hstep
      obtain ⟨info', hrel, rfl⟩ := hstep
      exact ⟨h.port.receive hrel, h.bug⟩

theorem rxOwned (h : RxRunInv s) : RxOwned s := by
  have hring := h.port.ring
  refine ⟨h.bug, ?_, ?_, ?_, ?_, ?_, ?_⟩
  · rw [hring.next, hring.count, slot]
  · rw [hring.count]
    exact hring.busy_le
  · intro i hlt
    rw [hring.count] at hlt
    by_cases hi : i ∈ s.port.info.busyWindow
    · obtain ⟨hsome, hempty⟩ := hring.held i hi
      exact ⟨iff_of_true hsome hi, iff_of_true hempty hi⟩
    · obtain ⟨hnone, hempty, -⟩ := hring.free i hlt hi
      rw [hnone, hempty]
      exact ⟨iff_of_false Bool.false_ne_true hi, iff_of_false Bool.true_eq_false.mp hi⟩
  · intro i hlt hi
    rw [hring.count] at hlt
    exact (hring.free i hlt hi).2
  · rw [hring.count]
    intro i hlt
    rw [hring.eor i hlt]
    split
    · simp [*, synDpRxDescSize]
    · rename_i hne
      refine iff_of_false (by decide) ?_
      unfold synDpRxDescSize at *
      omega
  · have hfresh := h.port.fresh
    rw [FreshAllocs, List.filterMap_nil, List.append_nil,
      (h.port.books.map RxSkb.id).nodup_iff, List.map_append] at hfresh
    exact (List.nodup_append.mp hfresh).1

end RxRunInv

/-- Every run from a set up ring keeps the invariant. -/
theorem rxRun_inv {info : SynDpRxInfo} {allocOk : Bool}
    (hsetup : synDpSetupRxDescQueue SynDpRxInfo.zero synDpRxDescSize .ringMode allocOk =
      .ok (0, info)) {as : List RxLabel} {s : RxRun}
    (hrun : run rxStep (.start info) as = some s) : RxRunInv s := by
  have hskbs : ∀ i, info.rxSkbList i = none := by
    rw [synDpSetupRxDescQueue_ok hsetup]
    exact fun _ => rfl
  have hring := RxRingInv.setup (fun _ => rfl) hsetup
  have hposted : postedSkbs info = [] :=
    List.filterMap_eq_nil_iff.mpr fun i _ => hskbs i
  have hbooks : ([] : List RxSkb).Perm ([] ++ postedSkbs info) := by rw [hposted, List.append_nil]
  have hstart : RxRunInv (.start info) := ⟨⟨hring, hbooks, List.nodup_nil⟩, Or.inl rfl⟩
  exact run_inv (fun _ _ _ h hstep => RxRunInv.step h hstep) hstart hrun

/-- For every run of refills, receive polls and engine steps: the ring keeps its shape, no
    assertion on it fails, and every buffer leaves the driver once at most. -/
theorem rxRun_owned {info : SynDpRxInfo} {allocOk : Bool}
    (hsetup : synDpSetupRxDescQueue SynDpRxInfo.zero synDpRxDescSize .ringMode allocOk =
      .ok (0, info)) {as : List RxLabel} {s : RxRun}
    (hrun : run rxStep (.start info) as = some s) : RxOwned s :=
  (rxRun_inv hsetup hrun).rxOwned

/-- The ring a successful setup leaves. -/
def emptyRxRing : SynDpRxInfo :=
  { SynDpRxInfo.zero with
    rxDescCount := synDpRxDescSize
    rxDesc := rxDescInitRing synDpRxDescSize }

theorem emptyRxRing_setup :
    synDpSetupRxDescQueue SynDpRxInfo.zero synDpRxDescSize .ringMode true =
      .ok (0, emptyRxRing) := rfl

/-- A refill of two buffers that stops where the third cannot be mapped; one good and one bad
    frame, reaped by a poll with budget 0 and one with budget 64; another refill. -/
def goodAndBadFrame : List RxLabel :=
  [.refill [.mapped ⟨0, 2000⟩ 0x1000#32, .mapped ⟨1, 2000⟩ 0x2000#32, .noMapping ⟨2, 2000⟩],
    .dma ⟨0x00400300#32, 0#32, 0#32, 0#32⟩, .dma ⟨0x00008302#32, 0#32, 0#32, 0#32⟩,
    .rx 0, .rx 64, .refill [.mapped ⟨3, 2000⟩ 0x3000#32]]

theorem rxRun_owned_goodAndBad : ∃ s, run rxStep (.start emptyRxRing) goodAndBadFrame = some s ∧
    RxOwned s := by
  have hsome : (run rxStep (.start emptyRxRing) goodAndBadFrame).isSome = true := by
    decide +kernel
  obtain ⟨s, hrun⟩ := Option.isSome_iff_exists.mp hsome
  exact ⟨s, hrun, rxRun_owned emptyRxRing_setup hrun⟩

end NssDp.SynGmacDp
