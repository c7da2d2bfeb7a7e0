import Mathlib.Data.Finset.Card
import NssDp.Misc.History
import NssDp.Misc.Lts
import NssDp.Main.Proofs.Tracks

/-!
# The books about open data planes

The bit `__NSS_DP_UP` of a port and the count `edma_hw.active` are kept beside the data planes
themselves. They agree with what the callbacks `open` and `close` have done as long as these are
called in turn and the bit is set only where `open` succeeds. `nss_dp_open` sets it earlier.
-/

namespace NssDp

open Edma History Lts

/-- `open` of the data plane `ops` has succeeded for port `p`. -/
def DpEvent.opens (p : Nat) (ops : DataPlaneOps) : DpEvent → Bool
  | .call q ops' _ .open ok => decide (q = p) && decide (ops' = ops) && ok
  | _ => false

/-- `close` of the data plane `ops` has run for port `p`. -/
def DpEvent.closes (p : Nat) (ops : DataPlaneOps) : DpEvent → Bool
  | .call q ops' _ .close _ => decide (q = p) && decide (ops' = ops)
  | _ => false

/-- The data plane `ops` is open for port `p`: its `open` has succeeded and its `close` has not run
    since. -/
def isOpen (p : Nat) (ops : DataPlaneOps) (history : List DpEvent) : Bool :=
  latch (DpEvent.opens p ops) (DpEvent.closes p ops) history

/-- `open` is called on data planes that are not open, and `close` on those that are. -/
def OpenOk (pre : List DpEvent) : DpEvent → Prop
  | .call p ops _ .open _ => isOpen p ops pre = false
  | .call p ops _ .close _ => isOpen p ops pre = true
  | _ => True

/-- The ports that use EDMA where those that are `opened` are open. -/
def edmaUsers (plat : Platform) (s : Driver) (opened : Nat → Bool) : Finset Nat :=
  plat.ports.filter fun p => opened p = true ∧ (s.dev p).dataPlaneOps = .edma

/-- What the driver promises of its books. -/
structure OpenBooks (plat : Platform) (s : Driver) : Prop where
  up : ∀ p ∈ plat.ports, (s.dev p).up = isOpen p (s.dev p).dataPlaneOps s.history
  ordered : OkFrom OpenOk [] s.history
  active : s.edmaHw.active = (edmaUsers plat s fun p => (s.dev p).up).card
  napi : s.edmaHw.napi ≠ .disabled ↔ 0 < s.edmaHw.active

/-- The data planes of the ports `opened` are open, and no others. -/
structure Book (plat : Platform) (s : Driver) (opened : Nat → Bool) : Prop where
  open_eq : ∀ p ops,
    isOpen p ops s.history = (opened p && decide (ops = (s.dev p).dataPlaneOps))
  ordered : OkFrom OpenOk [] s.history
  active : s.edmaHw.active = (edmaUsers plat s opened).card
  napi : s.edmaHw.napi ≠ .disabled ↔ 0 < s.edmaHw.active

section Book

variable {plat : Platform} {s s' : Driver} {p : Nat} {dpc : DpcPtr} {env : CallEnv}
  {opened : Nat → Bool} {ok : Bool}

theorem isOpen_append_of_neither {h es : List DpEvent} {ops : DataPlaneOps}
    (hes : ∀ e ∈ es, e.opens p ops = false ∧ e.closes p ops = false) :
    isOpen p ops (h ++ es) = isOpen p ops h := latch_append_of_neither hes

/-- An event that neither opens nor closes anything. -/
def DpEvent.isOther : DpEvent → Bool
  | .call _ _ _ .open _ | .call _ _ _ .close _ => false
  | _ => true

theorem neither_of_isOther {e : DpEvent} {ops : DataPlaneOps} (he : e.isOther = true) :
    e.opens p ops = false ∧ e.closes p ops = false := by
  cases e with
  | call q ops' dpc cb ok => cases cb <;> first | exact ⟨rfl, rfl⟩ | cases he
  | install | edmaFreed => exact ⟨rfl, rfl⟩

theorem openOk_of_isOther {e : DpEvent} {pre : List DpEvent} (he : e.isOther = true) :
    OpenOk pre e := by
  cases e with
  | call q ops' dpc cb ok => cases cb <;> trivial
  | install | edmaFreed => trivial

theorem isOther_of_isQuiet {e : DpEvent} (he : e.isQuiet = true) : e.isOther = true := by
  cases e with
  | call q ops' dpc cb ok => cases cb <;> first | rfl | cases he
  | install | edmaFreed => rfl

theorem isOther_of_mem_freedBy {port : Option Nat} {e : EdmaHw} {ev : DpEvent}
    (h : ev ∈ s.freedBy plat port e) : ev.isOther = true := by
  unfold Driver.freedBy at h
  split at h
  · rw [List.mem_singleton.mp h]
    rfl
  · cases h

theorem opens_open (q : Nat) (ops ops' : DataPlaneOps) :
    DpEvent.opens q ops (.call p ops' dpc .open true) =
      (decide (q = p) && decide (ops = ops')) := by
  simp [DpEvent.opens, eq_comm]

theorem closes_close (q : Nat) (ops ops' : DataPlaneOps) :
    DpEvent.closes q ops (.call p ops' dpc .close ok) =
      (decide (q = p) && decide (ops = ops')) := by
  simp [DpEvent.closes, eq_comm]

theorem edmaUsers_congr (h : SameOps s s') :
    edmaUsers plat s' opened = edmaUsers plat s opened := by
  apply Finset.filter_congr
  intro q _
  rw [h q]

namespace Book

theorem tracks (h : Book plat s opened) : Tracks DpEvent.opens DpEvent.closes s opened := h.open_eq

/-- Events that open or close nothing, and changes of the instance that do not matter. -/
theorem others (h : Book plat s opened) (es : List DpEvent) (hes : ∀ e ∈ es, e.isOther = true)
    (hops : ∀ q, (s'.dev q).dataPlaneOps = (s.dev q).dataPlaneOps)
    (hhistory : s'.history = s.history ++ es) (hactive : s'.edmaHw.active = s.edmaHw.active)
    (hnapi : s'.edmaHw.napi ≠ .disabled ↔ s.edmaHw.napi ≠ .disabled) : Book plat s' opened := by
  refine ⟨?_, ?_, ?_, ?_⟩
  · exact h.tracks.others es (fun e he q ops => neither_of_isOther (hes e he)) hops hhistory
  · rw [hhistory, okFrom_append]
    exact ⟨h.ordered, okFrom_of_forall fun e he before => openOk_of_isOther (hes e he)⟩
  · rw [hactive, h.active, edmaUsers_congr hops]
  · rw [hnapi, hactive]
    exact h.napi

theorem quiet (h : Book plat s opened) (hquiet : Quiet s s') : Book plat s' opened := by
  obtain ⟨es, hhistory, hes⟩ := hquiet.history
  exact h.others es (fun e he => isOther_of_isQuiet (hes e he)) hquiet.dataPlaneOps hhistory
    (by rw [hquiet.edmaHw]) (by rw [hquiet.edmaHw])

theorem modify (h : Book plat s opened) {f : NssDpDev → NssDpDev}
    (hf : (f (s.dev p)).dataPlaneOps = (s.dev p).dataPlaneOps) :
    Book plat (s.modify p f) opened := by
  refine h.others [] (by simp) (fun q => ?_) (List.append_nil _).symm rfl Iff.rfl
  rw [modify_dev]
  split
  · rename_i heq
    rw [hf, heq]
  · rfl

end Book

theorem edmaUsers_of_not_edma {b : Bool} (hops : (s.dev p).dataPlaneOps ≠ .edma) :
    edmaUsers plat s (Function.update opened p b) = edmaUsers plat s opened := by
  apply Finset.filter_congr
  intro q _
  rcases eq_or_ne q p with rfl | hne
  · simp [hops]
  · rw [Function.update_of_ne hne]

theorem edmaUsers_open (hp : p ∈ plat.ports) (hops : (s.dev p).dataPlaneOps = .edma) :
    edmaUsers plat s (Function.update opened p true) = insert p (edmaUsers plat s opened) := by
  ext q
  rcases eq_or_ne q p with rfl | hne
  · simp [edmaUsers, hp, hops]
  · simp [edmaUsers, hne]

theorem edmaUsers_close :
    edmaUsers plat s (Function.update opened p false) = (edmaUsers plat s opened).erase p := by
  ext q
  rcases eq_or_ne q p with rfl | hne
  · simp [edmaUsers]
  · simp [edmaUsers, hne]

/-- The history after a call that leaves the instance initialised or not. -/
theorem Called.history_eq {cb : DpCallback} (h : Called plat s p dpc cb ok s')
    (hinit : s'.edmaHw.edmaInitialized = s.edmaHw.edmaInitialized) :
    s'.history = s.history ++ [.call p (s.dev p).dataPlaneOps dpc cb ok] := by
  rw [h.history, freedBy_of_eq hinit, List.append_nil]

/-- What a callback `open` does to the instance: a port of EDMA is counted, and NAPI is enabled
    with the first. -/
structure OpenEffect (s : Driver) (p : Nat) (s' : Driver) : Prop where
  active : s'.edmaHw.active =
    s.edmaHw.active + if (s.dev p).dataPlaneOps = .edma then 1 else 0
  napi : s'.edmaHw.napi =
    if (s.dev p).dataPlaneOps = .edma ∧ s.edmaHw.active = 0 then .idle else s.edmaHw.napi
  history : s'.history =
    s.history ++ [.call p (s.dev p).dataPlaneOps (s.dev p).dpc .open true]

theorem open_effect (hwf : Wf plat s) (hp : p ∈ plat.ports)
    (h : s.ownCallback plat p env .open = .ok (true, s')) : OpenEffect s p s' := by
  have hcalled := callback_called h
  by_cases hops : (s.dev p).dataPlaneOps = .edma
  · obtain ⟨-, hedmaHw⟩ := ownCallback_open_edma hwf hp hops h
    refine ⟨?_, ?_, hcalled.history_eq (by rw [hedmaHw])⟩
    · rw [hedmaHw, if_pos hops]
    · simp only [hedmaHw, hops, true_and]
  · have hedmaHw := hcalled.edmaHw hops
    refine ⟨?_, ?_, hcalled.history_eq (by rw [hedmaHw])⟩
    · rw [hedmaHw, if_neg hops, add_zero]
    · rw [hedmaHw, if_neg fun h => hops h.1]

/-- A callback `open` that fails is not one of EDMA. -/
theorem open_failed (hwf : Wf plat s) (hp : p ∈ plat.ports)
    (h : s.ownCallback plat p env .open = .ok (false, s')) :
    s'.edmaHw = s.edmaHw ∧ s'.history =
      s.history ++ [.call p (s.dev p).dataPlaneOps (s.dev p).dpc .open false] := by
  have hcalled := callback_called h
  have hops : (s.dev p).dataPlaneOps ≠ .edma := fun hops => by
    cases (ownCallback_open_edma hwf hp hops h).1
  have hedmaHw := hcalled.edmaHw hops
  exact ⟨hedmaHw, hcalled.history_eq (by rw [hedmaHw])⟩

/-- What a callback `close` does to the instance. -/
structure CloseEffect (s : Driver) (p : Nat) (ok : Bool) (s' : Driver) : Prop where
  active : s'.edmaHw.active =
    s.edmaHw.active - if (s.dev p).dataPlaneOps = .edma then 1 else 0
  napi : s'.edmaHw.napi =
    if (s.dev p).dataPlaneOps = .edma ∧ s.edmaHw.active = 1 then .disabled else s.edmaHw.napi
  history : s'.history =
    s.history ++ [.call p (s.dev p).dataPlaneOps (s.dev p).dpc .close ok]

theorem close_effect (h : s.ownCallback plat p env .close = .ok (ok, s')) :
    CloseEffect s p ok s' := by
  have hcalled := callback_called h
  by_cases hops : (s.dev p).dataPlaneOps = .edma
  · obtain ⟨-, heffect⟩ := ownCallback_close_edma hops h
    refine ⟨?_, ?_, hcalled.history_eq heffect.edmaInitialized⟩
    · rw [heffect.active, if_pos hops]
    · simp only [heffect.napi, hops, true_and]
  · have hedmaHw := hcalled.edmaHw hops
    refine ⟨?_, ?_, hcalled.history_eq (by rw [hedmaHw])⟩
    · rw [hedmaHw, if_neg hops, sub_zero]
    · rw [hedmaHw, if_neg fun h => hops h.1]

/-- NAPI is off although a port of EDMA is open. -/
def NapiLost (s : Driver) : Prop := s.edmaHw.napi = .disabled ∧ 0 < s.edmaHw.active

/-- Initialising EDMA adds NAPI, which disables it, only while no port is open. -/
def NapiAddOk (s : Driver) (p : Nat) : Prop :=
  (s.dev p).dataPlaneOps = .edma → s.edmaHw.napiAdded = false → s.edmaHw.active = 0

namespace Book

/-- A data plane that is not open is opened. -/
theorem opens (h : Book plat s opened) (hwf : Wf plat s) (hp : p ∈ plat.ports)
    (hnot : opened p = false) (hcall : s.ownCallback plat p env .open = .ok (true, s')) :
    Book plat s' (Function.update opened p true) := by
  have hcalled := callback_called hcall
  obtain ⟨hactive, hnapi, hhistory⟩ := open_effect hwf hp hcall
  have hbefore : isOpen p (s.dev p).dataPlaneOps s.history = false := by
    rw [h.open_eq, hnot, Bool.false_and]
  refine ⟨?_, ?_, ?_, ?_⟩
  · exact h.tracks.sets (fun q ops => opens_open q ops _) (fun _ _ => rfl) hcalled.sameOps hhistory
  · rw [hhistory, okFrom_concat]
    exact ⟨h.ordered, hbefore⟩
  · rw [edmaUsers_congr hcalled.sameOps, hactive, h.active]
    split
    · rename_i hops
      have hout : p ∉ edmaUsers plat s opened := by simp [edmaUsers, hnot]
      rw [edmaUsers_open hp hops, Finset.card_insert_of_notMem hout]
      omega
    · rename_i hops
      rw [edmaUsers_of_not_edma hops, add_zero]
  · have hold := h.napi
    have hpos : 0 ≤ s.edmaHw.active := by rw [h.active]; exact Int.natCast_nonneg _
    rw [hnapi, hactive]
    by_cases hops : (s.dev p).dataPlaneOps = .edma
    · by_cases hzero : s.edmaHw.active = 0
      · simp [hops, hzero]
      · simp only [hops, hzero, and_false, if_false, if_true, hold]
        omega
    · simp only [hops, false_and, if_false, add_zero]
      exact hold

/-- A data plane that is not open fails to open. -/
theorem openFails (h : Book plat s opened) (hwf : Wf plat s) (hp : p ∈ plat.ports)
    (hnot : opened p = false) (hcall : s.ownCallback plat p env .open = .ok (false, s')) :
    Book plat s' opened := by
  have hcalled := callback_called hcall
  obtain ⟨hedmaHw, hhistory⟩ := open_failed hwf hp hcall
  have hbefore : isOpen p (s.dev p).dataPlaneOps s.history = false := by
    rw [h.open_eq, hnot, Bool.false_and]
  refine ⟨?_, ?_, ?_, ?_⟩
  · exact h.tracks.others _ (by simp [DpEvent.opens, DpEvent.closes]) hcalled.sameOps hhistory
  · rw [hhistory, okFrom_concat]
    exact ⟨h.ordered, hbefore⟩
  · rw [hedmaHw, h.active, edmaUsers_congr hcalled.sameOps]
  · rw [hedmaHw]
    exact h.napi

/-- A data plane that is open is closed, whatever its `close` returns. -/
theorem closes (h : Book plat s opened) (hp : p ∈ plat.ports) (hopen : opened p = true)
    (hcall : s.ownCallback plat p env .close = .ok (ok, s')) :
    Book plat s' (Function.update opened p false) := by
  have hcalled := callback_called hcall
  obtain ⟨hactive, hnapi, hhistory⟩ := close_effect hcall
  have hbefore : isOpen p (s.dev p).dataPlaneOps s.history = true := by
    rw [h.open_eq, hopen, decide_eq_true rfl, Bool.and_self]
  refine ⟨?_, ?_, ?_, ?_⟩
  · exact h.tracks.resets (fun _ _ => rfl) (fun q ops => closes_close q ops _) hcalled.sameOps
      hhistory
  · rw [hhistory, okFrom_concat]
    exact ⟨h.ordered, hbefore⟩
  · rw [edmaUsers_congr hcalled.sameOps, hactive, h.active]
    split
    · rename_i hops
      have hin : p ∈ edmaUsers plat s opened := by simp [edmaUsers, hp, hopen, hops]
      have hpos := Finset.card_pos.mpr ⟨p, hin⟩
      rw [edmaUsers_close, Finset.card_erase_of_mem hin]
      omega
    · rename_i hops
      rw [edmaUsers_of_not_edma hops, sub_zero]
  · have hold := h.napi
    have hpos : 0 ≤ s.edmaHw.active := by rw [h.active]; exact Int.natCast_nonneg _
    rw [hnapi, hactive]
    by_cases hops : (s.dev p).dataPlaneOps = .edma
    · by_cases hone : s.edmaHw.active = 1
      · simp [hops, hone]
      · simp only [hops, hone, and_false, if_false, if_true, hold]
        omega
    · simp only [hops, false_and, if_false, sub_zero]
      exact hold

/-- A data plane is initialised while NAPI may be added. -/
theorem inits (h : Book plat s opened) (hwf : Wf plat s) (hp : p ∈ plat.ports)
    (hadd : NapiAddOk s p) (hcall : s.ownCallback plat p env .init = .ok (ok, s')) :
    Book plat s' opened := by
  have hcalled := callback_called hcall
  by_cases hops : (s.dev p).dataPlaneOps = .edma
  · obtain ⟨ret, -, heffect⟩ := ownCallback_init_edma hwf hp hops hcall
    refine h.others [.call p (s.dev p).dataPlaneOps (s.dev p).dpc .init ok]
      (by simp [DpEvent.isOther]) hcalled.sameOps (hcalled.history_eq heffect.edmaInitialized)
      heffect.active ?_
    rw [heffect.napi]
    split
    · exact Iff.rfl
    · rename_i hadded
      have hzero := hadd hops (by simpa using hadded)
      refine iff_of_false (fun h => h rfl) fun hon => ?_
      have hpos := h.napi.mp hon
      omega
  · have hedmaHw := hcalled.edmaHw hops
    exact h.others [.call p (s.dev p).dataPlaneOps (s.dev p).dpc .init ok]
      (by simp [DpEvent.isOther]) hcalled.sameOps (hcalled.history_eq (by rw [hedmaHw]))
      (by rw [hedmaHw]) (by rw [hedmaHw])

/-- A data plane is initialised while NAPI may not be added. -/
theorem inits_lost (h : Book plat s opened) (hwf : Wf plat s) (hp : p ∈ plat.ports)
    (hadd : ¬ NapiAddOk s p) (hcall : s.ownCallback plat p env .init = .ok (ok, s')) :
    NapiLost s' := by
  simp only [NapiAddOk, Classical.not_imp] at hadd
  obtain ⟨hops, hadded, hne⟩ := hadd
  obtain ⟨ret, -, heffect⟩ := ownCallback_init_edma hwf hp hops hcall
  have hpos : 0 ≤ s.edmaHw.active := by rw [h.active]; exact Int.natCast_nonneg _
  refine ⟨by rw [heffect.napi, hadded]; rfl, ?_⟩
  rw [heffect.active]
  omega

/-- A data plane is deinitialised. -/
theorem deinits (h : Book plat s opened)
    (hcall : s.callback plat p dpc env .deinit = .ok (ok, s')) : Book plat s' opened := by
  have hcalled := callback_called hcall
  have hedmaHw : s'.edmaHw.active = s.edmaHw.active ∧ s'.edmaHw.napi = s.edmaHw.napi := by
    by_cases hops : (s.dev p).dataPlaneOps = .edma
    · obtain ⟨-, heffect⟩ := callback_deinit_edma hops hcall
      exact ⟨heffect.active, heffect.napi⟩
    · rw [hcalled.edmaHw hops]
      exact ⟨rfl, rfl⟩
  refine h.others _ (fun e he => ?_) hcalled.sameOps
    (hcalled.history.trans (List.append_assoc _ _ _)) hedmaHw.1 (by rw [hedmaHw.2])
  rcases List.mem_append.mp he with he | he
  · exact isOther_of_mem_freedBy he
  · rw [List.mem_singleton.mp he]
    rfl

/-- A data plane that is not open is replaced, or one is replaced by itself. -/
theorem installs (h : Book plat s opened) {ops : DataPlaneOps}
    (hnot : opened p = false ∨ ops = (s.dev p).dataPlaneOps) :
    Book plat (s.install p dpc ops) opened := by
  have hdev (q : Nat) : ((s.install p dpc ops).dev q).dataPlaneOps =
      if q = p then ops else (s.dev q).dataPlaneOps := by
    rw [Driver.install, Driver.record, modify_dev]
    split <;> rfl
  refine ⟨?_, ?_, ?_, h.napi⟩
  · exact h.tracks.installs (by simp [DpEvent.opens, DpEvent.closes]) hnot
  · rw [install_history, okFrom_concat]
    exact ⟨h.ordered, trivial⟩
  · have hactive := h.active
    refine hactive.trans (congrArg (fun users : Finset Nat => (users.card : Int)) ?_)
    apply Finset.filter_congr
    intro q _
    rw [hdev]
    split
    · rename_i heq
      subst heq
      rcases hnot with hnot | rfl
      · simp [hnot]
      · rfl
    · rfl

end Book

/-- A call of `open` or `close` out of turn. -/
theorem not_ordered (h : Book plat s opened) {cb : DpCallback}
    (hcb : (cb = .open ∧ opened p = true) ∨ (cb = .close ∧ opened p = false))
    (hhistory : s'.history = s.history ++ [.call p (s.dev p).dataPlaneOps dpc cb ok]) :
    ¬ OkFrom OpenOk [] s'.history := by
  rw [hhistory, okFrom_concat]
  rintro ⟨-, hok⟩
  have hopen : isOpen p (s.dev p).dataPlaneOps s.history = opened p := by
    rw [h.open_eq, decide_eq_true rfl, Bool.and_true]
  rcases hcb with ⟨rfl, hopened⟩ | ⟨rfl, hopened⟩
  · have hclosed : isOpen p (s.dev p).dataPlaneOps s.history = false := hok
    rw [hopen, hopened] at hclosed
    cases hclosed
  · have hclosed : isOpen p (s.dev p).dataPlaneOps s.history = true := hok
    rw [hopen, hopened] at hclosed
    cases hclosed

theorem Book.setQueueStopped (h : Book plat s opened) (b : Bool) :
    Book plat (s.setQueueStopped p b) opened :=
  h.modify (f := fun d => { d with netdev := { d.netdev with queueStopped := b } }) rfl

/-- The books are right where the bits tell which data planes are open. -/
theorem Book.books (h : Book plat s s.ups) : OpenBooks plat s :=
  ⟨fun p _ => by rw [h.open_eq, decide_eq_true rfl, Bool.and_true, Driver.ups], h.ordered, h.active,
    h.napi⟩

/-- They are wrong where the bit of one port does not. -/
theorem Book.not_books (h : Book plat s opened) (hp : p ∈ plat.ports) (hne : s.ups p ≠ opened p) :
    ¬ OpenBooks plat s := fun hbooks => hne <| by
  rw [Driver.ups, hbooks.up p hp, h.open_eq, decide_eq_true rfl, Bool.and_true]

theorem not_books_of_not_ordered {es : List DpEvent} (h : ¬ OkFrom OpenOk [] s.history)
    (hhistory : s'.history = s.history ++ es) : ¬ OpenBooks plat s' := fun hbooks => by
  have hordered := hbooks.ordered
  rw [hhistory, okFrom_append] at hordered
  exact h hordered.1

theorem NapiLost.not_books (h : NapiLost s) : ¬ OpenBooks plat s := fun hbooks =>
  hbooks.napi.mpr h.2 h.1

theorem NapiLost.of_edmaHw (h : NapiLost s) (heq : s'.edmaHw = s.edmaHw) : NapiLost s' := by
  rw [NapiLost, heq]
  exact h

/-- Opening one more port does not bring NAPI back. -/
theorem NapiLost.opens (h : NapiLost s) (hwf : Wf plat s) (hp : p ∈ plat.ports)
    (hcall : s.ownCallback plat p env .open = .ok (ok, s')) : NapiLost s' := by
  cases ok with
  | false => exact h.of_edmaHw (open_failed hwf hp hcall).1
  | true =>
    obtain ⟨hoff, hpos⟩ := h
    obtain ⟨hactive, hnapi, -⟩ := open_effect hwf hp hcall
    rw [NapiLost, hnapi, hactive, if_neg (by omega)]
    refine ⟨hoff, ?_⟩
    split <;> omega

/-- NAPI may be added when `nss_dp_open` initialises the data plane. -/
def InitAddOk (s : Driver) (p : Nat) : Prop := (s.dev p).initDone = false → NapiAddOk s p

theorem Quiet.napiAddOk (h : Quiet s s') : NapiAddOk s' p ↔ NapiAddOk s p := by
  rw [NapiAddOk, NapiAddOk, h.dataPlaneOps, h.edmaHw]

theorem InitRun.book {m : Driver} (hrun : InitRun plat s p env m) (h : Book plat s opened)
    (hwf : Wf plat s) (hp : p ∈ plat.ports) (hadd : InitAddOk s p) : Book plat m opened := by
  cases hrun with
  | done _ hquiet => exact h.quiet hquiet
  | called hdone hquiet hcall =>
    exact ((h.quiet hquiet).inits (hquiet.wf hwf) hp (hquiet.napiAddOk.mpr (hadd hdone))
      hcall).modify rfl

theorem InitRun.lost {m : Driver} (hrun : InitRun plat s p env m) (h : Book plat s opened)
    (hwf : Wf plat s) (hp : p ∈ plat.ports) (hadd : ¬ InitAddOk s p) : NapiLost m := by
  obtain ⟨hdone, hadd⟩ := Classical.not_imp.mp hadd
  cases hrun with
  | done hdone' => rw [hdone] at hdone'; cases hdone'
  | called _ hquiet hcall =>
    have hlost := (h.quiet hquiet).inits_lost (hquiet.wf hwf) hp (mt hquiet.napiAddOk.mp hadd) hcall
    exact hlost.of_edmaHw rfl

/-- When `nss_dp_open` keeps the books: NAPI is not added under open ports, and once the data
    plane is initialised, `open` succeeds on a port that is not up, and is not reached on one
    that is. -/
def OpenMeets (plat : Platform) (s : Driver) (p : Nat) (env : CallEnv) : Prop :=
  InitAddOk s p ∧ (s.initOk plat p env = true →
    if (s.dev p).up then s.reachesOpen plat p env = false
    else s.reachesOpen plat p env = true ∧ s.answer plat p env .open = true)

theorem open_lost {ret : DevRet} (hrun : OpenRun plat s p env ret s') (h : Book plat s opened)
    (hwf : Wf plat s) (hp : p ∈ plat.ports) (hadd : ¬ InitAddOk s p) : NapiLost s' := by
  have hup {m : Driver} (hinit : InitRun plat s p env m) : Wf plat (m.setUp p true) :=
    (hinit.wf hwf).modify (fun _ => rfl) (fun _ => rfl) fun _ => rfl
  cases hrun with
  | initFailed _ hquiet hcall =>
    exact (h.quiet hquiet).inits_lost (hquiet.wf hwf) hp
      (mt hquiet.napiAddOk.mp (Classical.not_imp.mp hadd).2) hcall
  | aborted _ hinit _ hquiet =>
    exact (hinit.lost h hwf hp hadd).of_edmaHw (by rw [hquiet.edmaHw]; rfl)
  | failed _ hinit _ _ hquiet hcall =>
    have hlost := (hinit.lost h hwf hp hadd).of_edmaHw (hquiet.edmaHw.trans rfl)
    exact hlost.opens (hquiet.wf (hup hinit)) hp hcall
  | opened _ hinit _ _ hquiet hcall hquiet' =>
    have hlost := (hinit.lost h hwf hp hadd).of_edmaHw (hquiet.edmaHw.trans rfl)
    exact (hlost.opens (hquiet.wf (hup hinit)) hp hcall).of_edmaHw (by rw [hquiet'.edmaHw]; rfl)

/-- `nss_dp_open` keeps the books, or they are wrong afterwards. -/
theorem open_book {ret : DevRet} (hrun : OpenRun plat s p env ret s') (h : Book plat s s.ups)
    (hwf : Wf plat s) (hp : p ∈ plat.ports) :
    (OpenMeets plat s p env ∧ Book plat s' s'.ups) ∨
      (¬ OpenMeets plat s p env ∧ ¬ OpenBooks plat s') := by
  by_cases hadd : InitAddOk s p
  swap
  · exact Or.inr ⟨fun hmeets => hadd hmeets.1, (open_lost hrun h hwf hp hadd).not_books⟩
  have hbook {m : Driver} (hinit : InitRun plat s p env m) : Book plat (m.setUp p true) s.ups :=
    (hinit.book h hwf hp hadd).modify rfl
  have hwf' {m : Driver} (hinit : InitRun plat s p env m) : Wf plat (m.setUp p true) :=
    (hinit.wf hwf).modify (fun _ => rfl) (fun _ => rfl) fun _ => rfl
  have hups {m m' : Driver} (hinit : InitRun plat s p env m) (hquiet : Quiet (m.setUp p true) m') :
      m'.ups = Function.update s.ups p true := by
    rw [hquiet.ups, setUp_ups, hinit.ups]
  cases hrun with
  | initFailed hinit hquiet hcall =>
    refine Or.inl ⟨⟨hadd, fun hok => ?_⟩, ?_⟩
    · rw [hinit] at hok
      cases hok
    · have hdone : (s.dev p).initDone = false := (Bool.or_eq_false_iff.mp hinit).1
      rw [(callback_called hcall).ups, hquiet.ups]
      exact (h.quiet hquiet).inits (hquiet.wf hwf) hp (hquiet.napiAddOk.mpr (hadd hdone)) hcall
  | aborted hok hinit hreach hquiet =>
    cases hup : (s.dev p).up with
    | true =>
      refine Or.inl ⟨⟨hadd, fun _ => by rw [hup]; exact hreach⟩, ?_⟩
      rw [hups hinit hquiet, Function.update_eq_self_iff.mpr hup.symm]
      exact (hbook hinit).quiet hquiet
    | false =>
      refine Or.inr ⟨fun hmeets => ?_, ((hbook hinit).quiet hquiet).not_books hp ?_⟩
      · have hopen := hmeets.2 hok
        rw [hup] at hopen
        exact absurd hopen.1 (by simp [hreach])
      · rw [hups hinit hquiet, Function.update_self, Driver.ups, hup]
        simp
  | failed hok hinit hreach hanswer hquiet hcall =>
    refine Or.inr ⟨fun hmeets => ?_, ?_⟩
    · have hopen := hmeets.2 hok
      cases hup : (s.dev p).up <;> simp [hup, hreach, hanswer] at hopen
    have hbook' := (hbook hinit).quiet hquiet
    cases hup : (s.dev p).up with
    | true =>
      exact not_books_of_not_ordered (not_ordered hbook' (Or.inl ⟨rfl, hup⟩)
        (open_failed (hquiet.wf (hwf' hinit)) hp hcall).2) (List.append_nil _).symm
    | false =>
      apply (hbook'.openFails (hquiet.wf (hwf' hinit)) hp hup hcall).not_books hp
      rw [(callback_called hcall).ups, hups hinit hquiet, Function.update_self, Driver.ups, hup]
      simp
  | opened hok hinit hreach hanswer hquiet hcall hquiet' =>
    have hbook' := (hbook hinit).quiet hquiet
    have hwf'' := hquiet.wf (hwf' hinit)
    cases hup : (s.dev p).up with
    | true =>
      refine Or.inr ⟨fun hmeets => ?_, ?_⟩
      · have hopen := hmeets.2 hok
        rw [hup] at hopen
        exact absurd hopen (by simp [hreach])
      · obtain ⟨es, hes, -⟩ := hquiet'.history
        exact not_books_of_not_ordered (not_ordered hbook' (Or.inl ⟨rfl, hup⟩)
          (open_effect hwf'' hp hcall).history) hes
    | false =>
      refine Or.inl ⟨⟨hadd, fun _ => ?_⟩, ?_⟩
      · rw [hup]
        exact ⟨hreach, hanswer⟩
      · rw [hquiet'.ups, setQueueStopped_ups, (callback_called hcall).ups, hups hinit hquiet]
        exact ((hbook'.opens hwf'' hp hup hcall).setQueueStopped false).quiet hquiet'

/-- When `nss_dp_close` keeps the books: `close` is reached only on a port that is up, and
    succeeds. -/
def CloseMeets (plat : Platform) (s : Driver) (p : Nat) (env : CallEnv) : Prop :=
  s.reachesClose plat p env = true → (s.dev p).up = true ∧ s.answer plat p env .close = true

/-- How the books stand after closing a port that was up. -/
theorem CloseRun.book (hrun : CloseRun plat s p env s') (h : Book plat s s.ups)
    (hp : p ∈ plat.ports)
    (hup : (s.dev p).up = true) :
    (s.reachesClose plat p env = false ∧ Book plat s' s'.ups ∧ s'.ups p = true) ∨
      (s.reachesClose plat p env = true ∧ s.answer plat p env .close = false ∧
        ∃ opened, Book plat s' opened ∧ opened p = false ∧ s'.ups p = true) ∨
      (s.reachesClose plat p env = true ∧ s.answer plat p env .close = true ∧
        Book plat s' s'.ups ∧ s'.ups p = false) := by
  have hbook := h.setQueueStopped (p := p) true
  cases hrun with
  | aborted hreach hquiet =>
    have hups : s'.ups = s.ups := hquiet.ups.trans (setQueueStopped_ups true)
    refine Or.inl ⟨hreach, ?_, ?_⟩
    · rw [hups]
      exact hbook.quiet hquiet
    · rw [hups]
      exact hup
  | failed hreach hanswer hquiet hcall =>
    have hups : s'.ups = s.ups := (callback_called hcall).ups.trans
      (hquiet.ups.trans (setQueueStopped_ups true))
    refine Or.inr (Or.inl ⟨hreach, hanswer, _, (hbook.quiet hquiet).closes hp hup hcall,
      Function.update_self _ _ _, ?_⟩)
    rw [hups]
    exact hup
  | @closed m c hreach hanswer hquiet hcall =>
    have hups : c.ups = s.ups := (callback_called hcall).ups.trans
      (hquiet.ups.trans (setQueueStopped_ups true))
    refine Or.inr (Or.inr ⟨hreach, hanswer, ?_, ?_⟩)
    · rw [setUp_ups, hups]
      exact ((hbook.quiet hquiet).closes hp hup hcall).modify rfl
    · rw [setUp_ups, Function.update_self]

/-- `nss_dp_close` keeps the books, or they are wrong afterwards. -/
theorem close_book (hrun : CloseRun plat s p env s') (h : Book plat s s.ups) (hp : p ∈ plat.ports) :
    (CloseMeets plat s p env ∧ Book plat s' s'.ups) ∨
      (¬ CloseMeets plat s p env ∧ ¬ OpenBooks plat s') := by
  cases hup : (s.dev p).up with
  | true =>
    rcases hrun.book h hp hup with ⟨hreach, hbook, -⟩ |
      ⟨hreach, hanswer, opened, hbook, hclosed, hup'⟩ | ⟨hreach, hanswer, hbook, -⟩
    · refine Or.inl ⟨fun hreach' => ?_, hbook⟩
      rw [hreach] at hreach'
      cases hreach'
    · refine Or.inr ⟨fun hmeets => ?_, hbook.not_books hp ?_⟩
      · have hclose := (hmeets hreach).2
        rw [hanswer] at hclose
        cases hclose
      · rw [hup', hclosed]
        simp
    · exact Or.inl ⟨fun _ => ⟨hup, hanswer⟩, hbook⟩
  | false =>
    have hbook := h.setQueueStopped (p := p) true
    have hdown : s.reachesClose plat p env = true → ¬ CloseMeets plat s p env := by
      intro hreach hmeets
      have hup' := (hmeets hreach).1
      rw [hup] at hup'
      cases hup'
    cases hrun with
    | aborted hreach hquiet =>
      refine Or.inl ⟨fun hreach' => ?_, ?_⟩
      · rw [hreach] at hreach'
        cases hreach'
      · rw [hquiet.ups, setQueueStopped_ups]
        exact hbook.quiet hquiet
    | failed hreach _ hquiet hcall =>
      refine Or.inr ⟨hdown hreach, ?_⟩
      exact not_books_of_not_ordered (not_ordered (hbook.quiet hquiet) (Or.inr ⟨rfl, hup⟩)
        (close_effect hcall).history) (List.append_nil _).symm
    | closed hreach _ hquiet hcall =>
      refine Or.inr ⟨hdown hreach, ?_⟩
      exact not_books_of_not_ordered (not_ordered (hbook.quiet hquiet) (Or.inr ⟨rfl, hup⟩)
        (close_effect hcall).history) (List.append_nil _).symm

/-- The books after a port has been stopped where it was up: which data planes are open, and
    whether that is what the bits say. -/
theorem StopRun.book (hrun : StopRun plat s p env s') (h : Book plat s s.ups)
    (hp : p ∈ plat.ports) :
    (Book plat s' s'.ups ∧ s'.ups p = false ∧ ((s.dev p).up = true →
        s.reachesClose plat p env = true ∧ s.answer plat p env .close = true)) ∨
      (Book plat s' s'.ups ∧ s'.ups p = true ∧ (s.dev p).up = true ∧
        s.reachesClose plat p env = false) ∨
      (∃ opened, Book plat s' opened ∧ opened p = false ∧ s'.ups p = true ∧ (s.dev p).up = true ∧
        s.reachesClose plat p env = true ∧ s.answer plat p env .close = false) := by
  cases hrun with
  | notUp hup =>
    refine Or.inl ⟨h, hup, fun hup' => ?_⟩
    rw [hup] at hup'
    cases hup'
  | stopped hup hclose =>
    have hreset (m : Driver) : (nssDpResetNetdevFeatures m p).ups = m.ups :=
      resetNetdevFeatures_quiet.ups
    rw [hreset]
    rcases hclose.book h hp hup with ⟨hreach, hbook, hup'⟩ |
      ⟨hreach, hanswer, opened, hbook, hclosed, hup'⟩ | ⟨hreach, hanswer, hbook, hup'⟩
    · exact Or.inr (Or.inl ⟨hbook.quiet resetNetdevFeatures_quiet, hup', hup, hreach⟩)
    · exact Or.inr (Or.inr ⟨opened, hbook.quiet resetNetdevFeatures_quiet, hclosed, hup', hup,
        hreach, hanswer⟩)
    · exact Or.inl ⟨hbook.quiet resetNetdevFeatures_quiet, hup', fun _ => ⟨hreach, hanswer⟩⟩

/-- Replacing a data plane that is open makes the books wrong. -/
theorem Book.install_not_books (h : Book plat s s.ups) (hp : p ∈ plat.ports) (hup : s.ups p = true)
    {ops : DataPlaneOps} (hne : ops ≠ (s.dev p).dataPlaneOps) :
    ¬ OpenBooks plat (s.install p dpc ops) := fun hbooks => by
  have hright := hbooks.up p hp
  have hup' : ((s.install p dpc ops).dev p).up = true := (congrFun install_ups p).trans hup
  have hops : ((s.install p dpc ops).dev p).dataPlaneOps = ops := by
    rw [Driver.install, Driver.record, modify_dev_self]
  rw [hup', hops, install_history,
    isOpen_append_of_neither (by simp [DpEvent.opens, DpEvent.closes]), h.open_eq,
    decide_eq_false hne, Bool.and_false] at hright
  cases hright

theorem deinitOnce_book (h : Book plat s opened)
    (hdeinit : deinitOnce plat s p dpc env = .ok (ok, s')) : Book plat s' opened ∧ s'.ups = s.ups ∧
      (s'.dev p).dataPlaneOps = (s.dev p).dataPlaneOps := by
  rcases deinitOnce_run hdeinit with ⟨-, -, rfl⟩ | ⟨-, -, c, hcall, rfl⟩
  · exact ⟨h, rfl, rfl⟩
  · have hcalled := callback_called hcall
    have hbook := h.deinits hcall
    split
    · exact ⟨hbook.modify rfl, (modify_ups rfl).trans hcalled.ups, by
        simp [Driver.setInitDone, hcalled.sameOps p]⟩
    · exact ⟨hbook, hcalled.ups, hcalled.sameOps p⟩

/-- A port that is up is stopped for good before its data plane becomes `ops`, or stays open
    where the data plane stays. -/
def StopMeets (plat : Platform) (s : Driver) (p : Nat) (env : CallEnv) (stays : Prop) : Prop :=
  (s.dev p).up = true →
    (s.reachesClose plat p env = true ∧ s.answer plat p env .close = true) ∨
      (s.reachesClose plat p env = false ∧ stays)

/-- The data plane of an override stays where its `deinit` fails or it is overridden by
    itself. -/
def OverrideStays (plat : Platform) (s : Driver) (p : Nat) (ops : DataPlaneOps) (env : CallEnv) :
    Prop :=
  ((s.dev p).initDone = true ∧ s.answer plat p env .deinit = false) ∨
    ops = (s.dev p).dataPlaneOps

theorem override_book {ops : DataPlaneOps} (hrun : OverrideRun plat s p ops dpc env s')
    (h : Book plat s s.ups) (hp : p ∈ plat.ports) :
    (StopMeets plat s p env (OverrideStays plat s p ops env) ∧ Book plat s' s'.ups) ∨
      (¬ StopMeets plat s p env (OverrideStays plat s p ops env) ∧ ¬ OpenBooks plat s') := by
  have hnot (hup : (s.dev p).up = true) (hreach : s.reachesClose plat p env = true)
      (hanswer : s.answer plat p env .close = false) :
      ¬ StopMeets plat s p env (OverrideStays plat s p ops env) := fun hmeets => by
    rcases hmeets hup with ⟨-, hanswer'⟩ | ⟨hreach', -⟩
    · rw [hanswer] at hanswer'
      cases hanswer'
    · rw [hreach] at hreach'
      cases hreach'
  cases hrun with
  | @deinitFailed m c hstop hdeinit =>
    rcases hstop.book h hp with ⟨hbook, -, hmeets⟩ | ⟨hbook, -, hup, hreach⟩ |
      ⟨opened, hbook, hclosed, hup', hup, hreach, hanswer⟩
    · obtain ⟨hbook', hups, -⟩ := deinitOnce_book hbook hdeinit
      rw [hups]
      exact Or.inl ⟨fun hup => Or.inl (hmeets hup), hbook'⟩
    · obtain ⟨hbook', hups, -⟩ := deinitOnce_book hbook hdeinit
      rw [hups]
      refine Or.inl ⟨fun _ => Or.inr ⟨hreach, Or.inl ?_⟩, hbook'⟩
      rcases deinitOnce_run hdeinit with ⟨-, hok, -⟩ | ⟨hdone, hok, -⟩
      · cases hok
      · rw [(hstop.frame p).2] at hdone
        rw [hstop.deinit_answer] at hok
        exact ⟨hdone, hok.symm⟩
    · obtain ⟨hbook', hups, -⟩ := deinitOnce_book hbook hdeinit
      refine Or.inr ⟨hnot hup hreach hanswer, hbook'.not_books hp ?_⟩
      rw [hups, hup', hclosed]
      simp
  | @installed m c hstop hdeinit =>
    rcases hstop.book h hp with ⟨hbook, hdown, hmeets⟩ | ⟨hbook, hup', hup, hreach⟩ |
      ⟨opened, hbook, hclosed, hup', hup, hreach, hanswer⟩
    · obtain ⟨hbook', hups, -⟩ := deinitOnce_book hbook hdeinit
      rw [install_ups, hups]
      exact Or.inl ⟨fun hup => Or.inl (hmeets hup), hbook'.installs (Or.inl hdown)⟩
    · obtain ⟨hbook', hups, hops⟩ := deinitOnce_book hbook hdeinit
      have hdone : ¬ ((s.dev p).initDone = true ∧ s.answer plat p env .deinit = false) := by
        rintro ⟨hdone, hanswer⟩
        rcases deinitOnce_run hdeinit with ⟨hdone', -⟩ | ⟨-, hok, -⟩
        · rw [(hstop.frame p).2, hdone] at hdone'
          cases hdone'
        · rw [hstop.deinit_answer, hanswer] at hok
          cases hok
      rw [(hstop.frame p).1] at hops
      by_cases hsame : ops = (s.dev p).dataPlaneOps
      · rw [install_ups, hups]
        exact Or.inl ⟨fun _ => Or.inr ⟨hreach, Or.inr hsame⟩,
          hbook'.installs (Or.inr (hsame.trans hops.symm))⟩
      · refine Or.inr ⟨fun hmeets => ?_, ?_⟩
        · rcases hmeets hup with ⟨hreach', -⟩ | ⟨-, hstays⟩
          · rw [hreach] at hreach'
            cases hreach'
          · exact hstays.elim hdone hsame
        · rw [← hups] at hbook'
          exact hbook'.install_not_books hp ((congrFun hups p).trans hup') (by rwa [hops])
    · obtain ⟨hbook', hups, -⟩ := deinitOnce_book hbook hdeinit
      refine Or.inr ⟨hnot hup hreach hanswer, (hbook'.installs (Or.inl hclosed)).not_books hp ?_⟩
      rw [install_ups, hups, hup', hclosed]
      simp

theorem restore_book {m : Driver} {ops : DataPlaneOps} (hstop : StopRun plat s p env m)
    (h : Book plat s s.ups) (hp : p ∈ plat.ports) :
    (StopMeets plat s p env (ops = (s.dev p).dataPlaneOps) ∧
        Book plat (m.install p dpc ops) (m.install p dpc ops).ups) ∨
      (¬ StopMeets plat s p env (ops = (s.dev p).dataPlaneOps) ∧
        ¬ OpenBooks plat (m.install p dpc ops)) := by
  have hops := (hstop.frame p).1
  rcases hstop.book h hp with ⟨hbook, hdown, hmeets⟩ | ⟨hbook, hup', hup, hreach⟩ |
    ⟨opened, hbook, hclosed, hup', hup, hreach, hanswer⟩
  · rw [install_ups]
    exact Or.inl ⟨fun hup => Or.inl (hmeets hup), hbook.installs (Or.inl hdown)⟩
  · by_cases hsame : ops = (s.dev p).dataPlaneOps
    · rw [install_ups]
      exact Or.inl ⟨fun _ => Or.inr ⟨hreach, hsame⟩,
        hbook.installs (Or.inr (hsame.trans hops.symm))⟩
    · refine Or.inr ⟨fun hmeets => ?_, hbook.install_not_books hp hup' (by rwa [hops])⟩
      rcases hmeets hup with ⟨hreach', -⟩ | ⟨-, hsame'⟩
      · rw [hreach] at hreach'
        cases hreach'
      · exact hsame hsame'
  · refine Or.inr ⟨fun hmeets => ?_, (hbook.installs (Or.inl hclosed)).not_books hp ?_⟩
    · rcases hmeets hup with ⟨-, hanswer'⟩ | ⟨hreach', -⟩
      · rw [hanswer] at hanswer'
        cases hanswer'
      · rw [hreach] at hreach'
        cases hreach'
    · rw [install_ups, hup', hclosed]
      simp

/-- When a call on a port keeps the books. -/
def KeepsBooks (plat : Platform) (s : Driver) : PortCall → Prop
  | .devOpen p env => OpenMeets plat s p env
  | .devClose p env => CloseMeets plat s p env
  | .override p id missing _ env => MissesRequired missing ∨
      StopMeets plat s p env (OverrideStays plat s p (.overlay id missing) env)
  | .start p dpc env => (s.dev p).up = true ∨ (s.dev p).dpc ≠ dpc ∨ OpenMeets plat s p env
  | .restore p env => StopMeets plat s p env (plat.soc.halOps = (s.dev p).dataPlaneOps)

/-- The kernel's own record of an interface does not matter to the books. -/
theorem setRunning_books (b : Bool) : OpenBooks plat (s.setRunning p b) ↔ OpenBooks plat s := by
  have hdev (q : Nat) : ((s.setRunning p b).dev q).up = (s.dev q).up ∧
      ((s.setRunning p b).dev q).dataPlaneOps = (s.dev q).dataPlaneOps := by
    simp only [Driver.setRunning, Driver.modifyNetdev, modify_dev]
    split
    · rename_i h
      rw [h]
      exact ⟨rfl, rfl⟩
    · exact ⟨rfl, rfl⟩
  have husers : (edmaUsers plat (s.setRunning p b) fun q => ((s.setRunning p b).dev q).up) =
      edmaUsers plat s fun q => (s.dev q).up := by
    simp only [edmaUsers, (hdev _).1, (hdev _).2]
  constructor
  · rintro ⟨hup, hordered, hactive, hnapi⟩
    refine ⟨fun q hq => ?_, hordered, by rw [← husers]; exact hactive, hnapi⟩
    rw [← (hdev q).1, ← (hdev q).2]
    exact hup q hq
  · rintro ⟨hup, hordered, hactive, hnapi⟩
    refine ⟨fun q hq => ?_, hordered, by rw [husers]; exact hactive, hnapi⟩
    rw [(hdev q).1, (hdev q).2]
    exact hup q hq

theorem Book.setRunning (h : Book plat s s.ups) (b : Bool) :
    Book plat (s.setRunning p b) (s.setRunning p b).ups := by
  have hups : (s.setRunning p b).ups = s.ups :=
    modify_ups (f := fun d => { d with netdev := { d.netdev with running := b } }) rfl
  rw [hups]
  exact h.modify (f := fun d => { d with netdev := { d.netdev with running := b } }) rfl

/-- A call on a port keeps the books, or they are wrong afterwards. -/
theorem PortRun.book {c : PortCall} (hrun : PortRun plat s c s') (hwf : Wf plat s)
    (h : Book plat s s.ups) (hp : c.port ∈ plat.ports) :
    (KeepsBooks plat s c ∧ Book plat s' s'.ups) ∨
    (¬ KeepsBooks plat s c ∧ ¬ OpenBooks plat s') := by
  cases hrun with
  | opened hrun =>
    rw [setRunning_books]
    exact (open_book hrun h hwf hp).imp (And.imp_right fun h => h.setRunning _) id
  | closed hrun =>
    rw [setRunning_books]
    exact (close_book hrun h hp).imp (And.imp_right fun h => h.setRunning _) id
  | rejected hmiss => exact Or.inl ⟨Or.inl hmiss, h⟩
  | overridden hmiss hrun =>
    exact (override_book hrun h hp).imp (And.imp_left Or.inr)
      (And.imp_left fun hnot hkeeps => hkeeps.elim hmiss hnot)
  | ignored hwhy => exact Or.inl ⟨hwhy.imp_right Or.inl, h⟩
  | started hup hdpc hrun =>
    refine (open_book hrun h hwf hp).imp (And.imp_left fun hmeets => Or.inr (Or.inr hmeets))
      (And.imp_left fun hnot hkeeps => ?_)
    rcases hkeeps with hup' | hdpc' | hmeets
    · rw [hup] at hup'
      cases hup'
    · exact hdpc' hdpc
    · exact hnot hmeets
  | restored hstop => exact restore_book hstop h hp

theorem Probed.book (h : Probed plat s) : Book plat s s.ups := by
  have hups : s.ups = fun _ => false := funext h.up
  rw [hups]
  refine ⟨fun p ops => ?_, ?_, ?_, ?_⟩
  · rw [h.history]
    rfl
  · rw [h.history]
    trivial
  · rw [h.active]
    simp [edmaUsers]
  · simp [h.napi, h.active]

end Book

/-- In every run of opens, closes, overrides, starts and restores on the probed ports, the books
    about open data planes are right throughout exactly where every call keeps them. -/
theorem portRun_books_iff (plat : Platform) {s u : Driver} (hprobed : Probed plat s)
    {cs : List PortCall} (hrun : run (portStep plat) s cs = some u) :
    Always (portStep plat) (OpenBooks plat) s cs ↔
      StepsMeet (portStep plat) (KeepsBooks plat) s cs := by
  refine always_iff_stepsMeet (I := fun s => Wf plat s ∧ Book plat s s.ups)
    (fun _ h => h.2.books) (fun s c t h hstep => ?_) (fun s c t h hstep hbooks => ?_)
    ⟨hprobed.wf, hprobed.book⟩ hrun
  · obtain ⟨henabled, hrun⟩ := portStep_run h.1 hstep
    rcases hrun.book h.1 h.2 henabled.1 with ⟨hkeeps, hbook⟩ | ⟨hnot, hwrong⟩
    · exact iff_of_true hkeeps hbook.books
    · exact iff_of_false hnot hwrong
  · obtain ⟨henabled, hrun⟩ := portStep_run h.1 hstep
    rcases hrun.book h.1 h.2 henabled.1 with ⟨-, hbook⟩ | ⟨-, hwrong⟩
    · exact ⟨hrun.wf h.1, hbook⟩
    · exact absurd hbooks hwrong

section Decide

variable (plat : Platform) (s : Driver) (p : Nat) (env : CallEnv)

instance : Decidable (OpenMeets plat s p env) := by
  unfold OpenMeets InitAddOk NapiAddOk
  infer_instance

instance : Decidable (CloseMeets plat s p env) := by
  unfold CloseMeets
  infer_instance

instance (stays : Prop) [Decidable stays] : Decidable (StopMeets plat s p env stays) := by
  unfold StopMeets
  infer_instance

instance (missing : List DpCallback) : Decidable (MissesRequired missing) := by
  unfold MissesRequired
  infer_instance

instance (ops : DataPlaneOps) : Decidable (OverrideStays plat s p ops env) := by
  unfold OverrideStays
  infer_instance

instance decidableKeepsBooks : ∀ c, Decidable (KeepsBooks plat s c)
  | .devOpen p env => inferInstanceAs (Decidable (OpenMeets plat s p env))
  | .devClose p env => inferInstanceAs (Decidable (CloseMeets plat s p env))
  | .override p id missing _ env => inferInstanceAs (Decidable (MissesRequired missing ∨
      StopMeets plat s p env (OverrideStays plat s p (.overlay id missing) env)))
  | .start p dpc env => inferInstanceAs
      (Decidable ((s.dev p).up = true ∨ (s.dev p).dpc ≠ dpc ∨ OpenMeets plat s p env))
  | .restore p env => inferInstanceAs
      (Decidable (StopMeets plat s p env (plat.soc.halOps = (s.dev p).dataPlaneOps)))

instance (pre : List DpEvent) (e : DpEvent) : Decidable (OpenOk pre e) := by
  unfold OpenOk
  split <;> infer_instance

instance : Decidable (OpenBooks plat s) :=
  decidable_of_iff ((∀ p ∈ plat.ports, (s.dev p).up = isOpen p (s.dev p).dataPlaneOps s.history) ∧
      OkFrom OpenOk [] s.history ∧
      s.edmaHw.active = (edmaUsers plat s fun p => (s.dev p).up).card ∧
      (s.edmaHw.napi ≠ .disabled ↔ 0 < s.edmaHw.active))
    ⟨fun ⟨hup, hordered, hactive, hnapi⟩ => ⟨hup, hordered, hactive, hnapi⟩,
      fun h => ⟨h.up, h.ordered, h.active, h.napi⟩⟩

end Decide

/-- Port 1 is opened on EDMA and taken over by an overlay driver, which starts it; the kernel
    closes it, it is restored and opened again. -/
def overlayTour : List PortCall :=
  [.devOpen 1 allOk, .override 1 0 [] (.overlay 0 ⟨none⟩) allOk,
    .start 1 (.overlay 0 ⟨none⟩) allOk, .devClose 1 allOk, .restore 1 allOk, .devOpen 1 allOk]

theorem portRun_books_iff_tour :
    Always (portStep ipq807x) (OpenBooks ipq807x) ipq807xProbed overlayTour := by
  obtain ⟨u, hrun⟩ : ∃ u, run (portStep ipq807x) ipq807xProbed overlayTour = some u :=
    Option.isSome_iff_exists.mp (by decide +kernel)
  exact (portRun_books_iff ipq807x ipq807x_probed hrun).mpr (by decide +kernel)

/-- The FAL refuses to assign the VSI: `nss_dp_open` fails and the port stays up. -/
def vsiRefused : PortCall := .devOpen 1 { allOk with fal := false }

/-- The port is up although its data plane has never been opened. -/
theorem vsiRefused_up : Probed ipq807x ipq807xProbed ∧
    (∃ t, portStep ipq807x ipq807xProbed vsiRefused = some t ∧ (t.dev 1).up = true ∧
      isOpen 1 .edma t.history = false ∧ t.edmaHw.active = 0) ∧
    ¬ Always (portStep ipq807x) (OpenBooks ipq807x) ipq807xProbed [vsiRefused] := by
  have hstep : (portStep ipq807x ipq807xProbed vsiRefused).map (fun t =>
      ((t.dev 1).up, isOpen 1 .edma t.history, t.edmaHw.active)) = some (true, false, 0) := by
    decide +kernel
  obtain ⟨t, ht, heq⟩ := Option.map_eq_some_iff.mp hstep
  simp only [Prod.mk.injEq] at heq
  exact ⟨ipq807x_probed, ⟨t, ht, heq⟩, by decide +kernel⟩

end NssDp
