import NssDp.Misc.Lts

/-!
# What passes through a system

A place of a system holds a list of items; some steps put items in and some take items out.
`Fifo` says that every step appends what enters and takes what leaves off the front, `Pool`
says the same without an order. Either law is about one step. Over a whole run, what was there
and what entered is what left and what is there now, and two places where the one receives
what the other gives up are one place.
-/

namespace Lts

variable {σ α β γ : Type*} {step : σ → α → Option σ}

/-- What the steps of a run show, in order. -/
def trace (step : σ → α → Option σ) (obs : σ → α → List β) : σ → List α → List β
  | _, [] => []
  | s, a :: as =>
    match step s a with
    | none => obs s a
    | some t => obs s a ++ trace step obs t as

@[simp] theorem trace_nil (obs : σ → α → List β) (s : σ) : trace step obs s [] = [] := rfl

theorem trace_cons_some {obs : σ → α → List β} {s t : σ} {a : α} (ht : step s a = some t)
    (as : List α) : trace step obs s (a :: as) = obs s a ++ trace step obs t as := by
  rw [trace, ht]

/-- The trace of what a function makes of lists that goes from lists to their parts. -/
theorem trace_hom {f : List β → List γ} (hnil : f [] = [])
    (happend : ∀ xs ys, f (xs ++ ys) = f xs ++ f ys) (obs : σ → α → List β) (s : σ)
    (as : List α) : trace step (fun s a => f (obs s a)) s as = f (trace step obs s as) := by
  induction as generalizing s with
  | nil => exact hnil.symm
  | cons a as ih =>
    rw [trace, trace]
    cases step s a with
    | none => rfl
    | some t => rw [happend, ← ih t]

/-- The trace of a part of what is shown. -/
theorem trace_map (f : β → γ) (obs : σ → α → List β) (s : σ) (as : List α) :
    trace step (fun s a => (obs s a).map f) s as = (trace step obs s as).map f :=
  trace_hom List.map_nil (fun _ _ => List.map_append) obs s as

/-- The steps that meet `C` keep `I`, and items leave in the order in which they enter. -/
structure Fifo (step : σ → α → Option σ) (I : σ → Prop) (C : σ → α → Prop)
    (contents : σ → List β) (enter leave : σ → α → List β) : Prop where
  kept : ∀ s a t, I s → C s a → step s a = some t → I t
  moves : ∀ s a t, I s → C s a → step s a = some t →
    contents s ++ enter s a = leave s a ++ contents t

/-- The steps that meet `C` keep `I`, and every item that enters is there until it leaves. -/
structure Pool (step : σ → α → Option σ) (I : σ → Prop) (C : σ → α → Prop)
    (contents : σ → List β) (enter leave : σ → α → List β) : Prop where
  kept : ∀ s a t, I s → C s a → step s a = some t → I t
  moves : ∀ s a t, I s → C s a → step s a = some t →
    (contents s ++ enter s a).Perm (leave s a ++ contents t)

/-- Every item that a run shows has a property that each step gives to what it shows. -/
theorem forall_mem_trace {I : σ → Prop} {C : σ → α → Prop} {obs : σ → α → List β} {P : β → Prop}
    (hkept : ∀ s a t, I s → C s a → step s a = some t → I t)
    (hobs : ∀ s a t, I s → C s a → step s a = some t → ∀ x ∈ obs s a, P x) :
    ∀ {as : List α} {s u : σ}, I s → StepsMeet step C s as → run step s as = some u →
      ∀ x ∈ trace step obs s as, P x := by
  intro as
  induction as with
  | nil => exact fun _ _ _ _ hx => absurd hx List.not_mem_nil
  | cons a as ih =>
    intro s u hs hmeet hrun x hx
    obtain ⟨t, ht, hrest⟩ := run_cons_some.mp hrun
    rw [trace_cons_some ht, List.mem_append] at hx
    rcases hx with hx | hx
    · exact hobs s a t hs hmeet.1 ht x hx
    · exact ih (hkept s a t hs hmeet.1 ht) (hmeet.2 t ht) hrest x hx

/-- Steps that show the same show the same in a run. -/
theorem trace_congr {I : σ → Prop} {C : σ → α → Prop} {obs obs' : σ → α → List β}
    (hkept : ∀ s a t, I s → C s a → step s a = some t → I t)
    (hobs : ∀ s a t, I s → C s a → step s a = some t → obs s a = obs' s a) :
    ∀ {as : List α} {s u : σ}, I s → StepsMeet step C s as → run step s as = some u →
      trace step obs s as = trace step obs' s as := by
  intro as
  induction as with
  | nil => exact fun _ _ _ => rfl
  | cons a as ih =>
    intro s u hs hmeet hrun
    obtain ⟨t, ht, hrest⟩ := run_cons_some.mp hrun
    rw [trace_cons_some ht, trace_cons_some ht, hobs s a t hs hmeet.1 ht,
      ih (hkept s a t hs hmeet.1 ht) (hmeet.2 t ht) hrest]

/-- What every step keeps of a state and of all that has been shown before it. -/
theorem run_trace_inv {obs : σ → α → List β} {I : List β → σ → Prop}
    (hstep : ∀ l s a t, I l s → step s a = some t → I (l ++ obs s a) t) :
    ∀ {as : List α} {l : List β} {s u : σ}, I l s → run step s as = some u →
      I (l ++ trace step obs s as) u := by
  intro as
  induction as with
  | nil =>
    intro l s u hl hrun
    cases hrun
    rwa [trace_nil, List.append_nil]
  | cons a as ih =>
    intro l s u hl hrun
    obtain ⟨t, ht, hrest⟩ := run_cons_some.mp hrun
    rw [trace_cons_some ht, ← List.append_assoc]
    exact ih (hstep l s a t hl ht) hrest

/-- What a state makes of all that a run will show from it on is the same at both ends, where each
    step keeps it. -/
theorem run_trace_due {I : σ → Prop} {obs : σ → α → List β} (due : σ → List β → γ)
    (hkept : ∀ s a t, I s → step s a = some t → I t)
    (hdue : ∀ s a t, I s → step s a = some t → ∀ rest, due s (obs s a ++ rest) = due t rest) :
    ∀ {as : List α} {s u : σ}, I s → run step s as = some u →
      due s (trace step obs s as) = due u [] := by
  intro as
  induction as with
  | nil =>
    intro s u _ hrun
    cases hrun
    rfl
  | cons a as ih =>
    intro s u hs hrun
    obtain ⟨t, ht, hrest⟩ := run_cons_some.mp hrun
    rw [trace_cons_some ht, hdue s a t hs ht]
    exact ih (hkept s a t hs ht) hrest

/-- Two observers see the same but for what a state adds, where one that adds something is the
    last. -/
theorem run_trace_last {I : σ → Prop} {obs obs' : σ → α → List β} (rest : σ → List β)
    (hkept : ∀ s a t, I s → step s a = some t → I t)
    (hobs : ∀ s a t, I s → step s a = some t → obs s a = obs' s a ++ rest t)
    (hlast : ∀ s a t, step s a = some t → rest s = []) :
    ∀ {as : List α} {s u : σ}, I s → run step s as = some u →
      rest s ++ trace step obs s as = trace step obs' s as ++ rest u := by
  intro as
  induction as with
  | nil =>
    intro s u _ hrun
    cases hrun
    exact List.append_nil _
  | cons a as ih =>
    intro s u hs hrun
    obtain ⟨t, ht, hrest⟩ := run_cons_some.mp hrun
    rw [trace_cons_some ht, trace_cons_some ht, hlast s a t ht, List.nil_append,
      hobs s a t hs ht, List.append_assoc, ih (hkept s a t hs ht) hrest, List.append_assoc]

/-- A value that every step computes from what it shows is computed from the trace. -/
theorem run_foldl {I : σ → Prop} {C : σ → α → Prop} {obs : σ → α → List β} {val : σ → γ}
    {f : γ → β → γ} (hkept : ∀ s a t, I s → C s a → step s a = some t → I t)
    (hval : ∀ s a t, I s → C s a → step s a = some t → val t = (obs s a).foldl f (val s)) :
    ∀ {as : List α} {s u : σ}, I s → StepsMeet step C s as → run step s as = some u →
      val u = (trace step obs s as).foldl f (val s) := by
  intro as
  induction as with
  | nil =>
    intro s u _ _ hrun
    cases hrun
    rfl
  | cons a as ih =>
    intro s u hs hmeet hrun
    obtain ⟨t, ht, hrest⟩ := run_cons_some.mp hrun
    rw [trace_cons_some ht, List.foldl_append, ← hval s a t hs hmeet.1 ht]
    exact ih (hkept s a t hs hmeet.1 ht) (hmeet.2 t ht) hrest

namespace Fifo

variable {I : σ → Prop} {C : σ → α → Prop} {contents contents' : σ → List β}
variable {enter middle leave : σ → α → List β}

/-- Over a run, what was there and what entered, in order, is what left and what is there. -/
theorem run (h : Fifo step I C contents enter leave) : ∀ {as : List α} {s u : σ}, I s →
    StepsMeet step C s as → Lts.run step s as = some u →
      contents s ++ trace step enter s as = trace step leave s as ++ contents u := by
  intro as
  induction as with
  | nil =>
    intro s u _ _ hrun
    cases hrun
    rw [trace_nil, trace_nil, List.append_nil, List.nil_append]
  | cons a as ih =>
    intro s u hs hmeet hrun
    obtain ⟨t, ht, hrest⟩ := run_cons_some.mp hrun
    rw [trace_cons_some ht, trace_cons_some ht, ← List.append_assoc,
      h.moves s a t hs hmeet.1 ht, List.append_assoc,
      ih (h.kept s a t hs hmeet.1 ht) (hmeet.2 t ht) hrest, List.append_assoc]

/-- Two places in a row. -/
theorem series (h : Fifo step I C contents enter middle)
    (h' : Fifo step I C contents' middle leave) :
    Fifo step I C (fun s => contents' s ++ contents s) enter leave := by
  refine ⟨h.kept, ?_⟩
  intro s a t hs hC ht
  rw [List.append_assoc, h.moves s a t hs hC ht, ← List.append_assoc, h'.moves s a t hs hC ht,
    List.append_assoc]

/-- A part of every item. -/
theorem map (h : Fifo step I C contents enter leave) (f : β → γ) :
    Fifo step I C (fun s => (contents s).map f) (fun s a => (enter s a).map f)
      (fun s a => (leave s a).map f) := by
  refine ⟨h.kept, ?_⟩
  intro s a t hs hC ht
  rw [← List.map_append, h.moves s a t hs hC ht, List.map_append]

theorem toPool (h : Fifo step I C contents enter leave) : Pool step I C contents enter leave :=
  ⟨h.kept, fun s a t hs hC ht => .of_eq (h.moves s a t hs hC ht)⟩

end Fifo

namespace Pool

variable {I : σ → Prop} {C : σ → α → Prop} {contents contents' : σ → List β}
variable {enter middle leave : σ → α → List β}

/-- Over a run, no item is lost and none appears. -/
theorem run (h : Pool step I C contents enter leave) : ∀ {as : List α} {s u : σ}, I s →
    StepsMeet step C s as → Lts.run step s as = some u →
      (contents s ++ trace step enter s as).Perm (trace step leave s as ++ contents u) := by
  intro as
  induction as with
  | nil =>
    intro s u _ _ hrun
    cases hrun
    rw [trace_nil, trace_nil, List.append_nil, List.nil_append]
  | cons a as ih =>
    intro s u hs hmeet hrun
    obtain ⟨t, ht, hrest⟩ := run_cons_some.mp hrun
    rw [trace_cons_some ht, trace_cons_some ht, ← List.append_assoc]
    apply ((h.moves s a t hs hmeet.1 ht).append_right _).trans
    rw [List.append_assoc, List.append_assoc]
    exact (ih (h.kept s a t hs hmeet.1 ht) (hmeet.2 t ht) hrest).append_left _

/-- Two places in a row. -/
theorem series (h : Pool step I C contents enter middle)
    (h' : Pool step I C contents' middle leave) :
    Pool step I C (fun s => contents' s ++ contents s) enter leave := by
  refine ⟨h.kept, ?_⟩
  intro s a t hs hC ht
  rw [List.append_assoc]
  apply ((h.moves s a t hs hC ht).append_left _).trans
  rw [← List.append_assoc, ← List.append_assoc]
  exact (h'.moves s a t hs hC ht).append_right _

end Pool

end Lts
