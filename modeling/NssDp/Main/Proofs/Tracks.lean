import NssDp.Misc.History
import NssDp.Main.Proofs.Outcomes

/-!
# What the history says of a port's data plane

A data plane may be open for a port, or initialised: something that some callbacks set and
others reset. `Tracks` says for which ports it is set, of the data plane the port has now, and
that it is set of no other.
-/

namespace NssDp

open Edma History

variable {set reset : Nat → DataPlaneOps → DpEvent → Bool} {plat : Platform} {s s' : Driver}
  {p : Nat} {held : Nat → Bool} {e : DpEvent}

/-- What `set` sets and `reset` resets is held by the data planes of the ports `held`, and by no
    others. -/
def Tracks (set reset : Nat → DataPlaneOps → DpEvent → Bool) (s : Driver) (held : Nat → Bool) :
    Prop :=
  ∀ p ops, latch (set p ops) (reset p ops) s.history =
    (held p && decide (ops = (s.dev p).dataPlaneOps))

/-- The data planes stay in their places. -/
def SameOps (s s' : Driver) : Prop := ∀ q, (s'.dev q).dataPlaneOps = (s.dev q).dataPlaneOps

theorem modify_sameOps {f : NssDpDev → NssDpDev}
    (hf : (f (s.dev p)).dataPlaneOps = (s.dev p).dataPlaneOps) : SameOps s (s.modify p f) := by
  intro q
  rw [modify_dev]
  split
  · rename_i heq
    rw [hf, heq]
  · rfl

theorem Called.sameOps {dpc : DpcPtr} {cb : DpCallback} {ok : Bool}
    (h : Called plat s p dpc cb ok s') : SameOps s s' := fun q => dataPlaneOps_of_life (h.life q)

namespace Tracks

theorem current (h : Tracks set reset s held) (p : Nat) :
    latch (set p (s.dev p).dataPlaneOps) (reset p (s.dev p).dataPlaneOps) s.history = held p := by
  rw [h, decide_eq_true rfl, Bool.and_true]

/-- Events that neither set nor reset it. -/
theorem others (h : Tracks set reset s held) (es : List DpEvent)
    (hes : ∀ e ∈ es, ∀ q ops, set q ops e = false ∧ reset q ops e = false) (hops : SameOps s s')
    (hhistory : s'.history = s.history ++ es) : Tracks set reset s' held := fun q ops => by
  rw [hhistory, latch_append_of_neither fun e he => hes e he q ops, hops]
  exact h q ops

/-- It is set of the data plane of a port. -/
theorem sets (h : Tracks set reset s held)
    (hset : ∀ q ops, set q ops e = (decide (q = p) && decide (ops = (s.dev p).dataPlaneOps)))
    (hreset : ∀ q ops, reset q ops e = false) (hops : SameOps s s')
    (hhistory : s'.history = s.history ++ [e]) :
    Tracks set reset s' (Function.update held p true) := fun q ops => by
  rw [hhistory, latch_concat, hset, hreset, h, hops]
  rcases eq_or_ne q p with rfl | hne
  · by_cases hcurrent : ops = (s.dev q).dataPlaneOps
    · simp [hcurrent]
    · simp [hcurrent]
  · simp [hne]

/-- It is reset of the data plane of a port. -/
theorem resets (h : Tracks set reset s held)
    (hset : ∀ q ops, set q ops e = false)
    (hreset : ∀ q ops, reset q ops e = (decide (q = p) && decide (ops = (s.dev p).dataPlaneOps)))
    (hops : SameOps s s') (hhistory : s'.history = s.history ++ [e]) :
    Tracks set reset s' (Function.update held p false) := fun q ops => by
  rw [hhistory, latch_concat, hset, hreset, h, hops]
  rcases eq_or_ne q p with rfl | hne
  · by_cases hcurrent : ops = (s.dev q).dataPlaneOps
    · simp [hcurrent]
    · simp [hcurrent]
  · simp [hne]

/-- A data plane of which it is not set is replaced, or one is replaced by itself. -/
theorem installs (h : Tracks set reset s held) {dpc : DpcPtr} {ops : DataPlaneOps}
    (hinstall : ∀ q ops' old new dpc, set q ops' (.install p old new dpc) = false ∧
      reset q ops' (.install p old new dpc) = false)
    (hnot : held p = false ∨ ops = (s.dev p).dataPlaneOps) :
    Tracks set reset (s.install p dpc ops) held := fun q ops' => by
  rw [install_history, latch_append_of_neither (by simp [hinstall]), h, Driver.install,
    Driver.record, modify_dev]
  split
  · rename_i heq
    subst heq
    rcases hnot with hnot | rfl
    · rw [hnot, Bool.false_and, Bool.false_and]
    · rfl
  · rfl

section Called

variable {s₁ : Driver} {dpc : DpcPtr} {cb : DpCallback} {ok : Bool}
  (hfreed : ∀ q ops port edmaUp up, set q ops (.edmaFreed port edmaUp up) = false ∧
    reset q ops (.edmaFreed port edmaUp up) = false)
include hfreed

/-- The release of the EDMA rings during a call does not matter. -/
theorem freed (h : Tracks set reset s held) (port : Option Nat) (e : EdmaHw)
    (hs₁ : s₁ = { s with history := s.history ++ s.freedBy plat port e }) :
    Tracks set reset s₁ held := by
  subst hs₁
  refine h.others _ (fun ev hev q ops => ?_) (fun _ => rfl) rfl
  unfold Driver.freedBy at hev
  split at hev
  · rw [List.mem_singleton.mp hev]
    exact hfreed q ops _ _ _
  · cases hev

theorem called_others (h : Tracks set reset s held) (hcalled : Called plat s p dpc cb ok s')
    (hneither : ∀ q ops, set q ops (.call p (s.dev p).dataPlaneOps dpc cb ok) = false ∧
      reset q ops (.call p (s.dev p).dataPlaneOps dpc cb ok) = false) :
    Tracks set reset s' held := by
  refine (h.freed hfreed (some p) s'.edmaHw rfl).others _ (fun e he => ?_) hcalled.sameOps
    hcalled.history
  rw [List.mem_singleton.mp he]
  exact hneither

theorem called_sets (h : Tracks set reset s held) (hcalled : Called plat s p dpc cb ok s')
    (hset : ∀ q ops, set q ops (.call p (s.dev p).dataPlaneOps dpc cb ok) =
      (decide (q = p) && decide (ops = (s.dev p).dataPlaneOps)))
    (hreset : ∀ q ops, reset q ops (.call p (s.dev p).dataPlaneOps dpc cb ok) = false) :
    Tracks set reset s' (Function.update held p true) :=
  (h.freed hfreed (some p) s'.edmaHw rfl).sets hset hreset hcalled.sameOps hcalled.history

theorem called_resets (h : Tracks set reset s held) (hcalled : Called plat s p dpc cb ok s')
    (hset : ∀ q ops, set q ops (.call p (s.dev p).dataPlaneOps dpc cb ok) = false)
    (hreset : ∀ q ops, reset q ops (.call p (s.dev p).dataPlaneOps dpc cb ok) =
      (decide (q = p) && decide (ops = (s.dev p).dataPlaneOps))) :
    Tracks set reset s' (Function.update held p false) :=
  (h.freed hfreed (some p) s'.edmaHw rfl).resets hset hreset hcalled.sameOps hcalled.history

end Called

end Tracks

end NssDp
