import NssDp.Misc.Fifo
import NssDp.Misc.Handover
import NssDp.SynGmacDp.Proofs.RxOwnership

/-!
# The order in which a Synopsys port receives

The busy window is in two parts: the descriptors the engine has given back, and behind them
those it owns. A report of the engine moves the first descriptor of the second part to the end
of the first. So a port receives in the order in which it posts buffers, and the report for a
buffer decides by itself what the driver does with it.
-/

namespace NssDp.SynGmacDp

open Lts Cyclic Word Handover

/-- What the driver is to do with a buffer that is reported with `status`. -/
def handOverCall (skb : RxSkb) (status : BitVec 32) : RxEvent :=
  if isRxDescValid status then .napiGroReceive skb (frameLength status) else .devKfreeSkb skb

/-- A buffer that the engine gives back, with its address and the status word. -/
structure RxFill where
  skb : RxSkb
  addr : BitVec 32
  status : BitVec 32
  deriving DecidableEq, Repr

/-- The buffer with its address. -/
def RxFill.buf (fill : RxFill) : RxSkb × BitVec 32 := (fill.skb, fill.addr)

/-- What the driver is to do with the buffer at the address. -/
def RxFill.call (fill : RxFill) : BitVec 32 × RxEvent :=
  (fill.addr, handOverCall fill.skb fill.status)

/-- The buffer is unmapped. -/
def RxFill.unmapCall (fill : RxFill) : RxEvent :=
  .dmaUnmapSingle .netdev fill.addr synDpMiniJumboFrameMtu .fromDevice

/-- A good frame that is longer than its buffer. -/
def RxFill.Overruns (fill : RxFill) : Prop :=
  isRxDescValid fill.status = true ∧ fill.skb.putOverflows (frameLength fill.status) = true

/-- The counters after the report. -/
def RxStats.account (stats : RxStats) (fill : RxFill) : RxStats :=
  if isRxDescValid fill.status then stats.rxGood (frameLength fill.status)
  else stats.rxBad fill.status

namespace SynDpRxInfo

/-- The buffer in a slot, with what its descriptor says. -/
def fillAt (info : SynDpRxInfo) (i : Nat) : Option RxFill :=
  (info.rxSkbList i).map fun skb => ⟨skb, (info.rxDesc i).buffer1, (info.rxDesc i).status⟩

/-- The same with the report that the engine is to write. -/
def filledAt (info : SynDpRxInfo) (wb : RxReport) (i : Nat) : Option RxFill :=
  (info.rxSkbList i).map fun skb =>
    ⟨skb, (info.rxDesc i).buffer1, ((info.rxDesc i).writeBackRx wb).status⟩

/-- The engine owns the descriptor. -/
def ownedByDma (info : SynDpRxInfo) (i : Nat) : Bool := (info.rxDesc i).isDescOwnedByDma

/-- The buffers the engine owns. -/
def postedBufs (info : SynDpRxInfo) : List (RxSkb × BitVec 32) :=
  (kept info.ownedByDma info.fillAt info.busyWindow).map RxFill.buf

/-- The buffers it has given back. -/
def received (info : SynDpRxInfo) : List RxFill :=
  given info.ownedByDma info.fillAt info.busyWindow

/-- What is to be done with the buffers the engine has given back. -/
def receivedCalls (info : SynDpRxInfo) : List (BitVec 32 × RxEvent) :=
  (given info.ownedByDma info.fillAt info.busyWindow).map RxFill.call

end SynDpRxInfo

namespace RxRun

/-- The calls on buffers that a step makes. -/
def shows (s : RxRun) (a : RxLabel) : List RxEvent :=
  match rxStep s a with
  | none => []
  | some t => t.port.events.drop s.port.events.length

/-- The buffers a refill posts. -/
def posts (s : RxRun) (a : RxLabel) : List (RxSkb × BitVec 32) := mappedSkbs (s.shows a)

/-- The buffer the engine gives back with a report. -/
def fills (s : RxRun) : RxLabel → List RxFill
  | .dma wb => ((s.port.info.busyWindow.find? s.port.info.ownedByDma).bind
      (s.port.info.filledAt wb)).toList
  | _ => []

/-- What a poll does with buffers, after it has unmapped them. -/
def hands (s : RxRun) (a : RxLabel) : List (BitVec 32 × RxEvent) := handedSkbs (s.shows a)

/-- All the calls on buffers that a poll makes. -/
def pollCalls (s : RxRun) : RxLabel → List RxEvent
  | .rx budget => s.shows (.rx budget)
  | _ => []

end RxRun

/-- The busy window is in two parts. -/
def SynDpRxInfo.Parted (info : SynDpRxInfo) : Prop :=
  Handover.Parted info.ownedByDma info.busyWindow

namespace SynDpRxInfo.Parted

variable {info info' : SynDpRxInfo}

/-- A buffer that is posted is the engine's, behind all others. -/
theorem push (h : info.Parted) (hring : RxRingInv info) (hroom : info.busyRxDesc < synDpRxDescSize)
    (skb : RxSkb) (dmaAddr : BitVec 32) :
    (pushRx info skb dmaAddr).Parted ∧
      (pushRx info skb dmaAddr).postedBufs = info.postedBufs ++ [(skb, dmaAddr)] ∧
      (pushRx info skb dmaAddr).received = info.received := by
  have hne : ∀ j ∈ info.busyWindow, j ≠ info.rxNext := fun j hj =>
    ne_of_mem_of_not_mem hj (hring.next_notMem hroom)
  have hdesc : ∀ j ∈ info.busyWindow, (pushRx info skb dmaAddr).rxDesc j = info.rxDesc j :=
    fun j hj => Function.update_of_ne (hne j hj) _ _
  have hskb : ∀ j ∈ info.busyWindow, (pushRx info skb dmaAddr).rxSkbList j = info.rxSkbList j :=
    fun j hj => Function.update_of_ne (hne j hj) _ _
  have hnew : (pushRx info skb dmaAddr).rxDesc info.rxNext =
      postedDesc (info.rxDesc info.rxNext) dmaAddr := Function.update_self _ _ _
  have howned : (postedDesc (info.rxDesc info.rxNext) dmaAddr).isDescOwnedByDma = true := by
    rw [DmaDesc.isDescOwnedByDma,
      show (postedDesc (info.rxDesc info.rxNext) dmaAddr).status = descOwnByDma from rfl]
    decide
  obtain ⟨hparted, hkept, hgiven⟩ := Handover.Parted.push (i := info.rxNext)
    (pushRx info skb dmaAddr).ownedByDma info.fillAt (pushRx info skb dmaAddr).fillAt h
    (fun j hj => by rw [ownedByDma, hdesc j hj]; rfl)
    (fun j hj => by rw [fillAt, hdesc j hj, hskb j hj]; rfl)
    (by rw [ownedByDma, hnew]; exact howned)
  rw [← hring.busyWindow_push skb dmaAddr] at hparted hkept hgiven
  refine ⟨hparted, ?_, hgiven⟩
  rw [postedBufs, hkept, List.map_append, fillAt, hnew,
    show (pushRx info skb dmaAddr).rxSkbList info.rxNext = some skb from Function.update_self _ _ _]
  rfl

/-- The first descriptor given back is given up. -/
theorem pop (h : info.Parted) (hring : RxRingInv info) (hbusy : 0 < info.busyRxDesc)
    (howned : (info.rxDesc info.rxBusy).isDescOwnedByDma = false) {skb : RxSkb}
    (hskb : info.rxSkbList info.rxBusy = some skb) (stats : RxStats) :
    (popRx { info with stats }).Parted ∧
      (popRx { info with stats }).postedBufs = info.postedBufs ∧
      info.received = ⟨skb, (info.rxDesc info.rxBusy).buffer1,
        (info.rxDesc info.rxBusy).status⟩ :: (popRx { info with stats }).received := by
  have hwindow : info.busyWindow = info.rxBusy :: (popRx { info with stats }).busyWindow :=
    hring.busyWindow_pop hbusy
  have hnodup := hring.nodup_busyWindow
  rw [SynDpRxInfo.Parted, hwindow] at h
  rw [hwindow, List.nodup_cons] at hnodup
  have hne : ∀ j ∈ (popRx { info with stats }).busyWindow, j ≠ info.rxBusy := fun j hj =>
    ne_of_mem_of_not_mem hj hnodup.1
  have hdesc : ∀ j ∈ (popRx { info with stats }).busyWindow,
      (popRx { info with stats }).rxDesc j = info.rxDesc j :=
    fun j hj => Function.update_of_ne (hne j hj) _ _
  have hskbs : ∀ j ∈ (popRx { info with stats }).busyWindow,
      (popRx { info with stats }).rxSkbList j = info.rxSkbList j :=
    fun j hj => Function.update_of_ne (hne j hj) _ _
  obtain ⟨hparted, hgiven, hkept⟩ := Handover.Parted.pop (popRx { info with stats }).ownedByDma
    info.fillAt (popRx { info with stats }).fillAt h howned
    (fun j hj => by rw [ownedByDma, hdesc j hj]; rfl)
    (fun j hj => by rw [fillAt, hdesc j hj, hskbs j hj]; rfl)
  refine ⟨hparted, ?_, ?_⟩
  · rw [postedBufs, postedBufs, hwindow, hkept]
  · rw [received, hwindow, hgiven, fillAt, hskb]
    rfl

/-- The engine reports on the first descriptor it owns. -/
theorem receive (h : info.Parted) (hring : RxRingInv info) {wb : RxReport}
    (hrel : dmaReceive info wb = some info') :
    ∃ i fill, info.busyWindow.find? info.ownedByDma = some i ∧ info.filledAt wb i = some fill ∧
      info'.Parted ∧ info.postedBufs = fill.buf :: info'.postedBufs ∧
      info'.received = info.received ++ [fill] := by
  rw [dmaReceive, Option.map_eq_some_iff] at hrel
  obtain ⟨i, hfind, hinfo⟩ := hrel
  have hmem : i ∈ info.busyWindow := List.mem_of_find?_eq_some hfind
  obtain ⟨skb, hskb⟩ := Option.isSome_iff_exists.mp (hring.held i hmem).1
  have hdesc : ∀ j, j ≠ i → info'.rxDesc j = info.rxDesc j := by
    intro j hj
    rw [← hinfo]
    exact Function.update_of_ne hj _ _
  have hnew : info'.rxDesc i = (info.rxDesc i).writeBackRx wb := by
    rw [← hinfo]
    exact Function.update_self _ _ _
  have hskbs : info'.rxSkbList = info.rxSkbList := by rw [← hinfo]
  have hwindow : info'.busyWindow = info.busyWindow := by
    rw [← hinfo]
    rfl
  have hback : ((info.rxDesc i).writeBackRx wb).isDescOwnedByDma = false := by
    rw [DmaDesc.isDescOwnedByDma, DmaDesc.writeBackRx, BitVec.and_assoc,
      show ~~~descOwnByDma &&& descOwnByDma = 0#32 by decide, BitVec.and_zero]
    decide
  obtain ⟨hparted, hkept, hgiven⟩ := Handover.Parted.release info'.ownedByDma info.fillAt
    info'.fillAt h hring.nodup_busyWindow hfind
    (fun j hj => by rw [ownedByDma, hdesc j hj]; rfl)
    (fun j hj => by rw [fillAt, hdesc j hj, hskbs]; rfl)
    (by rw [ownedByDma, hnew]; exact hback)
  refine ⟨i, ⟨skb, (info.rxDesc i).buffer1, ((info.rxDesc i).writeBackRx wb).status⟩, hfind,
    by rw [filledAt, hskb]; rfl, by rw [SynDpRxInfo.Parted, hwindow]; exact hparted, ?_, ?_⟩
  · rw [postedBufs, hkept, List.map_append, fillAt, hskb, postedBufs, hwindow]
    rfl
  · rw [received, hwindow, hgiven, fillAt, hskbs, hskb, hnew]
    rfl

end SynDpRxInfo.Parted

/-- The calls of a refill that posts `bufs`. -/
def postCalls (bufs : List (RxSkb × BitVec 32)) : List RxEvent :=
  bufs.flatMap fun buf =>
    [.allocSkb buf.1, .dmaMapSingle .pdev buf.2 synDpMiniJumboFrameMtu .fromDevice]

/-- The calls of a poll that does `calls` with the buffers it unmaps. -/
def handCalls (calls : List (BitVec 32 × RxEvent)) : List RxEvent :=
  calls.flatMap fun call =>
    [.dmaUnmapSingle .netdev call.1 synDpMiniJumboFrameMtu .fromDevice, call.2]

theorem mappedSkbs_postCalls (bufs : List (RxSkb × BitVec 32)) (es : List RxEvent) :
    mappedSkbs (postCalls bufs ++ es) = bufs ++ mappedSkbs es := by
  induction bufs with
  | nil => rfl
  | cons buf bufs ih =>
    rw [postCalls, List.flatMap_cons, List.append_assoc]
    exact congrArg _ ih

theorem handedSkbs_postCalls (bufs : List (RxSkb × BitVec 32)) (es : List RxEvent) :
    handedSkbs (postCalls bufs ++ es) = handedSkbs es := by
  induction bufs with
  | nil => rfl
  | cons buf bufs ih =>
    rw [postCalls, List.flatMap_cons, List.append_assoc]
    exact ih

theorem handedSkbs_handCalls (calls : List (BitVec 32 × RxEvent)) (es : List RxEvent) :
    handedSkbs (handCalls calls ++ es) = calls ++ handedSkbs es := by
  induction calls with
  | nil => rfl
  | cons call calls ih =>
    rw [handCalls, List.flatMap_cons, List.append_assoc]
    exact congrArg _ ih

/-- A poll allocates nothing. -/
theorem mappedSkbs_handCalls {calls : List (BitVec 32 × RxEvent)} {es : List RxEvent}
    (h : ∀ call ∈ calls, call.2.allocated = none) :
    mappedSkbs (handCalls calls ++ es) = mappedSkbs es := by
  induction calls with
  | nil => rfl
  | cons call calls ih =>
    rw [List.forall_mem_cons] at h
    rw [handCalls, List.flatMap_cons, List.append_assoc]
    refine Eq.trans ?_ (ih h.2)
    obtain ⟨addr, e⟩ := call
    cases e with
    | allocSkb => cases h.1
    | _ => rfl

theorem handOverCall_allocated (skb : RxSkb) (status : BitVec 32) :
    (handOverCall skb status).allocated = none := by
  unfold handOverCall
  split <;> rfl

/-- What a call does to the two parts of the window: `bufs` come behind the one, and `fills` are
    taken from the front of the other. -/
structure Passes (s t : RxPort) (bufs : List (RxSkb × BitVec 32)) (fills : List RxFill) :
    Prop where
  split : t.info.Parted
  posted : t.info.postedBufs = s.info.postedBufs ++ bufs
  received : s.info.received = fills ++ t.info.received

/-- What the turns of a poll do, until it returns or up to a frame that does not fit. -/
structure Takes (s t : RxPort) (fills : List RxFill) : Prop where
  passes : Passes s t [] fills
  events : t.events = s.events ++ handCalls (fills.map RxFill.call)
  stats : t.info.stats = fills.foldl RxStats.account s.info.stats
  fit : ∀ fill ∈ fills, ¬ fill.Overruns

/-- What is left of `t` where the turn on the first frame given back stops in `skb_put`. -/
structure Panics (t u : RxPort) (fill : RxFill) : Prop where
  first : ∃ rest, t.info.received = fill :: rest
  overruns : fill.Overruns
  left : u = ⟨{ t.info with stats := t.info.stats.account fill }, t.events ++ [fill.unmapCall]⟩

namespace Takes

variable {s t u : RxPort} {fills : List RxFill}

theorem nil (hsplit : s.info.Parted) : Takes s s [] :=
  ⟨⟨hsplit, (List.append_nil _).symm, rfl⟩, (List.append_nil _).symm, rfl,
    fun _ hfill => absurd hfill List.not_mem_nil⟩

/-- A turn that pops the first frame makes the call that its report asks for, and counts it. -/
theorem pop (h : Takes s t fills) (hring : RxRingInv t.info) (hbusy : 0 < t.info.busyRxDesc)
    (howned : (t.info.rxDesc t.info.rxBusy).isDescOwnedByDma = false) {skb : RxSkb}
    (hskb : t.info.rxSkbList t.info.rxBusy = some skb) {fill : RxFill}
    (hfill : fill = ⟨skb, (t.info.rxDesc t.info.rxBusy).buffer1,
      (t.info.rxDesc t.info.rxBusy).status⟩)
    (hfits : ¬ fill.Overruns) :
    Takes s ⟨popRx { t.info with stats := t.info.stats.account fill },
      t.events ++ [unmapCall t.info, handOverCall fill.skb fill.status]⟩ (fills ++ [fill]) := by
  obtain ⟨hparts, hposted, hreceived⟩ :=
    h.passes.split.pop hring hbusy howned hskb (t.info.stats.account fill)
  refine ⟨⟨hparts, ?_, ?_⟩, ?_, ?_, ?_⟩
  · show (popRx { t.info with stats := _ }).postedBufs = _
    rw [hposted, h.passes.posted]
  · rw [h.passes.received, hreceived, ← hfill, List.append_assoc]
    rfl
  · rw [h.events, hfill, List.map_append, handCalls, handCalls, List.flatMap_append,
      List.append_assoc]
    rfl
  · rw [List.foldl_append, ← h.stats]
    rfl
  · intro f hf
    rcases List.mem_append.mp hf with hf | hf
    · exact h.fit f hf
    · rw [List.mem_singleton.mp hf]
      exact hfits

theorem turn (h : Takes s t fills) (hring : RxRingInv t.info) (hbusy : 0 < t.info.busyRxDesc)
    (howned : (t.info.rxDesc t.info.rxBusy).isDescOwnedByDma = false) (hone : rxOne t = .ok u) :
    ∃ fill, Takes s u (fills ++ [fill]) := by
  obtain ⟨skb, hskb, ⟨hvalid, hput, hone'⟩ | ⟨-, -, hone'⟩ | ⟨hvalid, hone'⟩⟩ :=
    hring.one_turn hbusy rfl
  · cases hone'.symm.trans hone
    refine ⟨⟨skb, (t.info.rxDesc t.info.rxBusy).buffer1, (t.info.rxDesc t.info.rxBusy).status⟩, ?_⟩
    have hpop := h.pop hring hbusy howned hskb rfl fun hover => absurd hover.2 (by simp [hput])
    simpa only [RxStats.account, handOverCall, hvalid, if_true] using hpop
  · cases hone'.symm.trans hone
  · cases hone'.symm.trans hone
    refine ⟨⟨skb, (t.info.rxDesc t.info.rxBusy).buffer1, (t.info.rxDesc t.info.rxBusy).status⟩, ?_⟩
    have hpop := h.pop hring hbusy howned hskb rfl fun hover => absurd hover.1 (by simp [hvalid])
    simpa only [RxStats.account, handOverCall, hvalid, Bool.false_eq_true, if_false] using hpop

theorem panics (h : Takes s t fills) (hring : RxRingInv t.info) (hbusy : 0 < t.info.busyRxDesc)
    (howned : (t.info.rxDesc t.info.rxBusy).isDescOwnedByDma = false)
    (hone : rxOne t = .error ⟨.skbOverPanic, u⟩) : ∃ fill, Panics t u fill := by
  obtain ⟨skb, hskb, ⟨-, -, hone'⟩ | ⟨hvalid, hput, hone'⟩ | ⟨-, hone'⟩⟩ :=
    hring.one_turn hbusy rfl
  · cases hone'.symm.trans hone
  · cases hone'.symm.trans hone
    obtain ⟨-, -, hreceived⟩ := h.passes.split.pop hring hbusy howned hskb t.info.stats
    refine ⟨_, ⟨_, hreceived⟩, ⟨hvalid, hput⟩, ?_⟩
    rw [RxStats.account, if_pos hvalid]
    rfl
  · cases hone'.symm.trans hone

end Takes

namespace RxPortInv

variable {s : RxPort}

/-- What a refill posts comes behind the buffers the engine owns, and it counts nothing. -/
theorem refill_passes (h : RxPortInv s) (hsplit : s.info.Parted)
    (allocs : List RxAlloc) :
    ∃ t bufs es, synDpRxRefill s allocs = .ok t ∧ Passes s t bufs [] ∧
      t.info.stats = s.info.stats ∧ t.events = s.events ++ (postCalls bufs ++ es) ∧
      mappedSkbs es = [] ∧ handedSkbs es = [] := by
  obtain ⟨t, heq, -, bufs, es, hpasses, hstats, hevents, hmapped, hhanded⟩ := RxRingInv.refill_rule
    (P := fun t => ∃ bufs es, Passes s t bufs [] ∧ t.info.stats = s.info.stats ∧
      t.events = s.events ++ (postCalls bufs ++ es) ∧ mappedSkbs es = [] ∧ handedSkbs es = [])
    (Q := fun t _ => ∃ bufs, Passes s t bufs [] ∧ t.info.stats = s.info.stats ∧
      t.events = s.events ++ postCalls bufs)
    (by
      rintro t skb dmaAddr allocs hring hroom
        ⟨bufs, ⟨hparts, hposted, hreceived⟩, hstats, hevents⟩
      obtain ⟨hparts', hposted', hreceived'⟩ := hparts.push hring hroom skb dmaAddr
      refine ⟨bufs ++ [(skb, dmaAddr)], ⟨hparts', ?_, ?_⟩, hstats, ?_⟩
      · show (pushRx t.info skb dmaAddr).postedBufs = _
        rw [hposted', hposted, List.append_assoc]
      · show _ = [] ++ (pushRx t.info skb dmaAddr).received
        rw [hreceived']
        exact hreceived
      · rw [hevents, postCalls, postCalls, List.flatMap_append, List.append_assoc]
        rfl)
    (by
      rintro t skb allocs hring ⟨bufs, hpasses, hstats, hevents⟩
      refine ⟨bufs, [.allocSkb skb, .devKfreeSkb skb], ⟨hpasses.split, hpasses.posted,
        hpasses.received⟩, hstats, ?_, rfl, rfl⟩
      show t.events ++ _ = _
      rw [hevents, List.append_assoc])
    (by
      rintro t allocs ⟨bufs, hpasses, hstats, hevents⟩
      exact ⟨bufs, [], hpasses, hstats, by rw [hevents, List.append_nil], rfl, rfl⟩)
    allocs h.ring
    ⟨[], ⟨hsplit, (List.append_nil _).symm, rfl⟩, rfl, (List.append_nil _).symm⟩
  exact ⟨t, bufs, es, heq, hpasses, hstats, hevents, hmapped, hhanded⟩

/-- What a poll takes is the front of what the engine has given back, whether the poll returns or
    stops in `skb_put`. -/
theorem rx_takes (h : RxPortInv s) (hsplit : s.info.Parted) (budget : Int) :
    (∃ ret t fills, synDpRx s budget = .ok (ret, t) ∧ Takes s t fills) ∨
      ∃ t u fills fill, synDpRx s budget = .error ⟨.skbOverPanic, u⟩ ∧ Takes s t fills ∧
        Panics t u fill := by
  have hturns := RxRingInv.rx_turns (P := fun t => ∃ fills, Takes s t fills)
    (R := fun u => ∃ t fills fill, Takes s t fills ∧ Panics t u fill)
    (fun t u hring hbusy howned ⟨fills, htakes⟩ hone =>
      (htakes.turn hring hbusy howned hone).elim fun fill hfill => ⟨_, hfill⟩)
    (fun t u hring hbusy howned ⟨fills, htakes⟩ hone =>
      (htakes.panics hring hbusy howned hone).elim fun fill hfill =>
        ⟨t, fills, fill, htakes, hfill⟩)
    h.ring ⟨[], .nil hsplit⟩ budget
  rcases hturns with ⟨ret, t, heq, -, fills, htakes⟩ | ⟨u, heq, -, t, fills, fill, htakes, hpanics⟩
  · exact Or.inl ⟨ret, t, fills, heq, htakes⟩
  · exact Or.inr ⟨t, u, fills, fill, heq, htakes, hpanics⟩

end RxPortInv

namespace RxRun

/-- The reports that a poll takes: one for each buffer it hands over. -/
def takes (s : RxRun) : RxLabel → List RxFill
  | .rx budget => s.port.info.received.take (s.hands (.rx budget)).length
  | _ => []

/-- The report at which the kernel has stopped. -/
def panicked (s : RxRun) : List RxFill := if s.bug.isSome then s.port.info.received.take 1 else []

end RxRun

/-- What every step keeps: the window is in two parts, and where the kernel has stopped, the first
    frame given back is longer than its buffer. -/
structure RxOrderInv (s : RxRun) : Prop where
  run : RxRunInv s
  split : s.port.info.Parted
  stopped : s.bug.isSome = true → ∃ fill rest, s.port.info.received = fill :: rest ∧ fill.Overruns

/-- What a step does to the two parts of the window and to the counters, with what it shows. -/
structure RxMoves (s t : RxRun) (a : RxLabel) : Prop where
  next : RxOrderInv t
  posted : s.port.info.postedBufs ++ s.posts a =
    (s.fills a).map RxFill.buf ++ t.port.info.postedBufs
  received : s.port.info.received ++ s.fills a = s.takes a ++ t.port.info.received
  hands : s.hands a = (s.takes a).map RxFill.call
  calls : s.pollCalls a = handCalls (s.hands a) ++ t.panicked.map RxFill.unmapCall
  stats : t.port.info.stats = (s.takes a ++ t.panicked).foldl RxStats.account s.port.info.stats
  fit : ∀ fill ∈ s.takes a, ¬ fill.Overruns

theorem rxShows_eq {s t : RxRun} {a : RxLabel} (hstep : rxStep s a = some t) {es : List RxEvent}
    (hevents : t.port.events = s.port.events ++ es) : s.shows a = es := by
  rw [RxRun.shows, hstep]
  dsimp only
  rw [hevents, List.drop_left]

namespace RxOrderInv

variable {s t : RxRun}

/-- The reports taken are those whose calls are made. -/
theorem takes_eq {budget : Int} {fills rest : List RxFill}
    (hreceived : s.port.info.received = fills ++ rest)
    (hhands : s.hands (.rx budget) = fills.map RxFill.call) : s.takes (.rx budget) = fills := by
  rw [RxRun.takes, hreceived, hhands, List.length_map, List.take_left]

/-- A poll that takes `fills`, and then returns or stops. -/
theorem of_takes (h : RxOrderInv s) {budget : Int} (hstep : rxStep s (.rx budget) = some t)
    {port : RxPort} {fills : List RxFill} (htakes : Takes s.port port fills) {es : List RxEvent}
    (hevents : t.port.events = port.events ++ es) (hstop : es = t.panicked.map RxFill.unmapCall)
    (hes : mappedSkbs es = [] ∧ handedSkbs es = [])
    (hinfo : ∃ stats, t.port.info = { port.info with stats })
    (hstats : t.port.info.stats = t.panicked.foldl RxStats.account port.info.stats)
    (hover : t.bug.isSome = true →
      ∃ fill rest, t.port.info.received = fill :: rest ∧ fill.Overruns) :
    RxMoves s t (.rx budget) := by
  have hcalls : ∀ call ∈ fills.map RxFill.call, call.2.allocated = none := by
    intro call hcall
    obtain ⟨fill, -, rfl⟩ := List.mem_map.mp hcall
    exact handOverCall_allocated _ _
  have hshows : s.shows (.rx budget) = handCalls (fills.map RxFill.call) ++ es := by
    apply rxShows_eq hstep
    rw [hevents, htakes.events, List.append_assoc]
  have hhands : s.hands (.rx budget) = fills.map RxFill.call := by
    rw [RxRun.hands, hshows, handedSkbs_handCalls, hes.2, List.append_nil]
  obtain ⟨stats, hinfo⟩ := hinfo
  have hposted : t.port.info.postedBufs = port.info.postedBufs := by rw [hinfo]; rfl
  have hreceived : t.port.info.received = port.info.received := by rw [hinfo]; rfl
  have htaken := takes_eq htakes.passes.received hhands
  refine ⟨⟨h.run.step hstep, ?_, hover⟩, ?_, ?_, ?_, ?_, ?_, ?_⟩
  · rw [hinfo]
    exact htakes.passes.split
  · rw [RxRun.posts, hshows, mappedSkbs_handCalls hcalls, hes.1, hposted, htakes.passes.posted,
      List.append_nil]
    rfl
  · rw [htaken, hreceived, htakes.passes.received]
    exact List.append_nil _
  · rw [htaken]
    exact hhands
  · rw [hhands, ← hstop]
    exact hshows
  · rw [htaken, hstats, List.foldl_append, htakes.stats]
  · rw [htaken]
    exact htakes.fit

theorem moves (h : RxOrderInv s) {a : RxLabel} (hstep : rxStep s a = some t) : RxMoves s t a := by
  have hport := h.run.port
  have hdoes := hstep
  unfold rxStep at hdoes
  split at hdoes
  · cases hdoes
  · rename_i hbug
    cases a with
    | refill allocs =>
      simp only at hdoes
      split at hdoes
      · obtain ⟨port, bufs, es, heq, hpasses, hstats, hevents, hmapped, hhanded⟩ :=
          hport.refill_passes h.split allocs
        rw [heq] at hdoes
        cases hdoes
        have hshows := rxShows_eq hstep hevents
        refine ⟨⟨h.run.step hstep, hpasses.split, fun hover => by cases hover⟩, ?_, ?_, ?_, ?_, hstats,
          fun _ hfill => absurd hfill List.not_mem_nil⟩
        · rw [RxRun.posts, hshows, mappedSkbs_postCalls, hmapped, List.append_nil]
          exact hpasses.posted.symm
        · exact (List.append_nil _).trans hpasses.received
        · rw [RxRun.hands, hshows, handedSkbs_postCalls, hhanded]
          rfl
        · rw [RxRun.hands, hshows, handedSkbs_postCalls, hhanded]
          rfl
      · cases hdoes
    | rx budget =>
      simp only at hdoes
      rcases hport.rx_takes h.split budget with ⟨ret, port, fills, heq, htakes⟩ |
        ⟨port, u, fills, fill, heq, htakes, ⟨rest, hfirst⟩, hoverruns, rfl⟩
      · rw [heq] at hdoes
        cases hdoes
        exact h.of_takes hstep htakes (List.append_nil _).symm rfl ⟨rfl, rfl⟩ ⟨_, rfl⟩ rfl
          fun hover => by cases hover
      · rw [heq] at hdoes
        cases hdoes
        have hpanicked : (RxRun.ofCall (.error ⟨.skbOverPanic,
            ⟨{ port.info with stats := port.info.stats.account fill },
              port.events ++ [fill.unmapCall]⟩⟩)).panicked = port.info.received.take 1 := rfl
        rw [hfirst] at hpanicked
        exact h.of_takes hstep htakes rfl (congrArg (List.map RxFill.unmapCall) hpanicked.symm)
          ⟨rfl, rfl⟩ ⟨_, rfl⟩
          (congrArg (List.foldl RxStats.account port.info.stats) hpanicked).symm
          fun _ => ⟨fill, rest, hfirst, hoverruns⟩
    | dma wb =>
      obtain ⟨info', hrel, rfl⟩ := Option.map_eq_some_iff.mp hdoes
      obtain ⟨i, fill, hfind, hfill, hparts', hposted, hreceived⟩ :=
        h.split.receive hport.ring hrel
      have hfills : s.fills (.dma wb) = [fill] := by
        rw [RxRun.fills, hfind, Option.bind_some, hfill]
        rfl
      have hshows := rxShows_eq hstep (List.append_nil _).symm
      have hnone : s.bug = none := Option.not_isSome_iff_eq_none.mp hbug
      have hquiet : RxRun.panicked ⟨{ s.port with info := info' }, s.bug⟩ = [] := by
        rw [RxRun.panicked, hnone]
        rfl
      refine ⟨⟨h.run.step hstep, hparts', fun hover => absurd hover hbug⟩, ?_, ?_, ?_, ?_, ?_,
        fun _ hfill => absurd hfill List.not_mem_nil⟩
      · rw [RxRun.posts, hshows, hfills, hposted]
        exact List.append_nil _
      · rw [hfills, hreceived]
        rfl
      · rw [RxRun.hands, hshows]
        rfl
      · rw [RxRun.hands, hshows, hquiet]
        rfl
      · obtain ⟨j, -, rfl⟩ := dmaReceive_eq hrel
        exact (congrArg (List.foldl RxStats.account s.port.info.stats) hquiet).symm

/-- The setup leaves an empty ring. -/
theorem setup {info : SynDpRxInfo} {allocOk : Bool}
    (hsetup : synDpSetupRxDescQueue SynDpRxInfo.zero synDpRxDescSize .ringMode allocOk =
      .ok (0, info)) : RxOrderInv (.start info) ∧ info.busyWindow = [] := by
  have hwindow : info.busyWindow = [] := by
    rw [synDpSetupRxDescQueue_ok hsetup]
    rfl
  have hparted : info.Parted := by
    rw [SynDpRxInfo.Parted, hwindow]
    exact Parted.nil
  exact ⟨⟨rxRun_inv hsetup (run_nil _), hparted, fun hover => by cases hover⟩, hwindow⟩

end RxOrderInv

/-- The engine fills the buffers in the order in which they are posted. -/
theorem posted_fifo : Fifo rxStep RxOrderInv (fun _ _ => True) (fun s => s.port.info.postedBufs)
    RxRun.posts (fun s a => (s.fills a).map RxFill.buf) :=
  ⟨fun _ _ _ h _ hstep => (h.moves hstep).next, fun _ _ _ h _ hstep => (h.moves hstep).posted⟩

/-- The driver takes them in the order in which they are filled. -/
theorem received_fifo : Fifo rxStep RxOrderInv (fun _ _ => True)
    (fun s => s.port.info.received) RxRun.fills RxRun.takes :=
  ⟨fun _ _ _ h _ hstep => (h.moves hstep).next, fun _ _ _ h _ hstep => (h.moves hstep).received⟩

/-- It hands over what it takes. -/
theorem calls_fifo : Fifo rxStep RxOrderInv (fun _ _ => True)
    (fun s => s.port.info.receivedCalls) (fun s a => (s.fills a).map RxFill.call) RxRun.hands := by
  refine ⟨received_fifo.kept, ?_⟩
  intro s a t h hany hstep
  rw [(h.moves hstep).hands]
  exact (received_fifo.map RxFill.call).moves s a t h hany hstep

/-- The addresses pass both parts of the window. -/
theorem addr_fifo : Fifo rxStep RxOrderInv (fun _ _ => True)
    (fun s => s.port.info.receivedCalls.map Prod.fst ++ s.port.info.postedBufs.map Prod.snd)
    (fun s a => (s.posts a).map Prod.snd) (fun s a => (s.hands a).map Prod.fst) := by
  have hposted := posted_fifo.map Prod.snd
  have hreceived := calls_fifo.map Prod.fst
  simp only [List.map_map] at hposted hreceived
  exact hposted.series hreceived

/-- Only the last step of a run can stop the kernel. -/
theorem panicked_step {s t : RxRun} {a : RxLabel} (hstep : rxStep s a = some t) :
    s.panicked = [] := by
  unfold rxStep at hstep
  split at hstep
  · cases hstep
  · rename_i hbug
    rw [RxRun.panicked, if_neg hbug]

theorem calls_run {info : SynDpRxInfo} (hstart : RxOrderInv (.start info)) {as : List RxLabel}
    {s : RxRun} (hrun : run rxStep (.start info) as = some s) :
    trace rxStep RxRun.pollCalls (.start info) as =
      handCalls (trace rxStep RxRun.hands (.start info) as) ++ s.panicked.map RxFill.unmapCall := by
  rw [handCalls, ← trace_hom rfl (fun _ _ => List.flatMap_append)]
  exact run_trace_last (fun s => s.panicked.map RxFill.unmapCall)
    (fun _ _ _ h hstep => (h.moves hstep).next) (fun _ _ _ h hstep => (h.moves hstep).calls)
    (fun _ _ _ hstep => congrArg (List.map RxFill.unmapCall) (panicked_step hstep)) hstart hrun

/-- In every run from a set up ring, whether it goes on or stops in `skb_put`: the engine fills
    buffers in the order in which refills post them; for each report, in their order, a poll
    unmaps the buffer and makes the one call that the report asks for; the addresses that were
    mapped are those unmapped followed by those of the busy window, in this order; and the polls
    make no other calls on buffers, but for unmapping the one at which the kernel stops. -/
theorem rxRun_inOrder {info : SynDpRxInfo} {allocOk : Bool}
    (hsetup : synDpSetupRxDescQueue SynDpRxInfo.zero synDpRxDescSize .ringMode allocOk =
      .ok (0, info)) {as : List RxLabel} {s : RxRun}
    (hrun : run rxStep (.start info) as = some s) :
    trace rxStep RxRun.posts (.start info) as =
        (trace rxStep RxRun.fills (.start info) as).map RxFill.buf ++ s.port.info.postedBufs ∧
      (trace rxStep RxRun.fills (.start info) as).map RxFill.call =
        trace rxStep RxRun.hands (.start info) as ++ s.port.info.receivedCalls ∧
      (trace rxStep RxRun.posts (.start info) as).map Prod.snd =
        (trace rxStep RxRun.hands (.start info) as).map Prod.fst ++
          (s.port.info.receivedCalls.map Prod.fst ++ s.port.info.postedBufs.map Prod.snd) ∧
      trace rxStep RxRun.pollCalls (.start info) as =
        handCalls (trace rxStep RxRun.hands (.start info) as) ++
          s.panicked.map RxFill.unmapCall := by
  obtain ⟨hstart, hbusy⟩ := RxOrderInv.setup hsetup
  have hposted : info.postedBufs = [] := by rw [SynDpRxInfo.postedBufs, hbusy]; rfl
  have hreceived : info.receivedCalls = [] := by rw [SynDpRxInfo.receivedCalls, hbusy]; rfl
  have hany : StepsMeet rxStep (fun _ _ => True) (.start info) as :=
    StepsMeet.of_forall fun _ _ => trivial
  refine ⟨?_, ?_, ?_, ?_⟩
  · have hring := posted_fifo.run hstart hany hrun
    rwa [RxRun.start, hposted, List.nil_append, trace_map] at hring
  · have hring := calls_fifo.run hstart hany hrun
    rwa [RxRun.start, hreceived, List.nil_append, trace_map] at hring
  · have hring := addr_fifo.run hstart hany hrun
    rw [RxRun.start, hposted, hreceived, trace_map, trace_map] at hring
    exact hring
  · exact calls_run hstart hrun

theorem rxRun_inOrder_goodAndBad : ∃ s, run rxStep (.start emptyRxRing) goodAndBadFrame = some s ∧
    (trace rxStep RxRun.fills (.start emptyRxRing) goodAndBadFrame).map RxFill.call =
      trace rxStep RxRun.hands (.start emptyRxRing) goodAndBadFrame ++
        s.port.info.receivedCalls := by
  have hsome : (run rxStep (.start emptyRxRing) goodAndBadFrame).isSome = true := by
    decide +kernel
  obtain ⟨s, hrun⟩ := Option.isSome_iff_exists.mp hsome
  exact ⟨s, hrun, (rxRun_inOrder emptyRxRing_setup hrun).2.1⟩

end NssDp.SynGmacDp
