import NssDp.Misc.Fifo

/-!
# Updates under a lock

Processors update one memory. An update reads a part of the memory and writes it back changed;
the updates that `locked` names do so in two steps, between taking a lock and giving it back, the
others at once. Where no update at once changes what one under the lock reads, a run in which any
number of processors interleave does what their updates do one after another, in the order in
which they write; and every processor makes its own updates in the order it was given them.
-/

namespace Locked

open Lts

variable {ι M V Op : Type*}

/-- Updates: what one reads, and what it makes of the memory and of what it has read. -/
structure Updates (M V Op : Type*) where
  load : Op → M → V
  store : Op → V → M → M
  locked : Op → Bool

/-- An update that nothing comes in between. -/
def Updates.apply (u : Updates M V Op) (mem : M) (op : Op) : M := u.store op (u.load op mem) mem

/-- Where a processor is in its next update. -/
inductive Pc (V : Type*) where
  | idle
  | entered
  | loaded (v : V)
  | stored
  deriving DecidableEq, Repr

/-- A processor with the updates it has still to write. -/
structure Cpu (V Op : Type*) where
  todo : List Op
  pc : Pc V

/-- The memory, the lock and the processors. -/
structure Shared (ι M V Op : Type*) where
  mem : M
  owner : Option ι
  cpu : ι → Cpu V Op

/-- A processor is given more updates, or it goes on. -/
inductive Label (ι Op : Type*) where
  | submit (i : ι) (ops : List Op)
  | next (i : ι)
  deriving DecidableEq, Repr

/-- Nothing is under way. -/
def Shared.start (mem : M) : Shared ι M V Op := ⟨mem, none, fun _ => ⟨[], .idle⟩⟩

variable [DecidableEq ι]

/-- One processor is changed. -/
def Shared.setCpu (s : Shared ι M V Op) (i : ι) (cpu : Cpu V Op) : Shared ι M V Op :=
  { s with cpu := Function.update s.cpu i cpu }

/-- A processor goes on; it waits while another has the lock that it wants. -/
def goOn (u : Updates M V Op) (s : Shared ι M V Op) (i : ι) : Option (Shared ι M V Op) :=
  match s.cpu i with
  | ⟨todo, .stored⟩ => some { s.setCpu i ⟨todo, .idle⟩ with owner := none }
  | ⟨[], _⟩ => none
  | ⟨op :: ops, .idle⟩ =>
    if u.locked op = false then some { s.setCpu i ⟨ops, .idle⟩ with mem := u.apply s.mem op }
    else if s.owner.isSome then none
    else some { s.setCpu i ⟨op :: ops, .entered⟩ with owner := some i }
  | ⟨op :: ops, .entered⟩ => some (s.setCpu i ⟨op :: ops, .loaded (u.load op s.mem)⟩)
  | ⟨op :: ops, .loaded v⟩ => some { s.setCpu i ⟨ops, .stored⟩ with mem := u.store op v s.mem }

/-- A step of the system. -/
def step (u : Updates M V Op) (s : Shared ι M V Op) : Label ι Op → Option (Shared ι M V Op)
  | .submit i ops => some (s.setCpu i { s.cpu i with todo := (s.cpu i).todo ++ ops })
  | .next i => goOn u s i

/-- The update that a step writes, and its processor. -/
def stores (u : Updates M V Op) (s : Shared ι M V Op) : Label ι Op → List (ι × Op)
  | .submit .. => []
  | .next i =>
    match s.cpu i with
    | ⟨op :: _, .idle⟩ => if u.locked op = false then [(i, op)] else []
    | ⟨op :: _, .loaded _⟩ => [(i, op)]
    | _ => []

/-- The updates that a step gives to processor `i`. -/
def submits (i : ι) (_ : Shared ι M V Op) : Label ι Op → List Op
  | .submit j ops => if j = i then ops else []
  | .next _ => []

/-- The updates of processor `i` among those written. -/
def ofCpu (i : ι) (writes : List (ι × Op)) : List Op :=
  (writes.filter fun p => p.1 = i).map Prod.snd

/-- Every update that a step gives out is in `D`. -/
def Gives (D : Op → Prop) (_ : Shared ι M V Op) : Label ι Op → Prop
  | .submit _ ops => ∀ op ∈ ops, D op
  | .next _ => True

/-- No update of `D` that is made at once changes what one under the lock reads. -/
def Updates.Apart (u : Updates M V Op) (D : Op → Prop) : Prop :=
  ∀ op op', D op → D op' → u.locked op = false → u.locked op' = true →
    ∀ mem, u.load op' (u.apply mem op) = u.load op' mem

/-- A processor in an update under the lock has the lock, and what it has read is what it would
    read now. -/
structure CpuInv (u : Updates M V Op) (s : Shared ι M V Op) (i : ι) : Prop where
  holds : (s.cpu i).pc ≠ .idle → s.owner = some i
  busy : (s.cpu i).pc ≠ .idle → (s.cpu i).pc ≠ .stored →
    ∃ op ops, (s.cpu i).todo = op :: ops ∧ u.locked op = true
  fresh : ∀ v op ops, s.cpu i = ⟨op :: ops, .loaded v⟩ → v = u.load op s.mem

/-- The invariant of the system, where all updates are in `D`. -/
structure Inv (u : Updates M V Op) (D : Op → Prop) (s : Shared ι M V Op) : Prop where
  given : ∀ i, ∀ op ∈ (s.cpu i).todo, D op
  cpu : ∀ i, CpuInv u s i

variable {u : Updates M V Op} {D : Op → Prop} {s t : Shared ι M V Op} {a : Label ι Op} {i j : ι}

omit [DecidableEq ι] in
theorem Inv.start (mem : M) : Inv u D (Shared.start mem : Shared ι M V Op) := by
  refine ⟨fun i op hop => absurd hop List.not_mem_nil, fun i => ⟨fun h => absurd rfl h,
    fun h => absurd rfl h, ?_⟩⟩
  exact fun v op ops h => absurd h (by simp [Shared.start])

@[simp] theorem setCpu_self (cpu : Cpu V Op) : (s.setCpu i cpu).cpu i = cpu := by
  simp only [Shared.setCpu, Function.update_self]

theorem setCpu_of_ne (cpu : Cpu V Op) (h : j ≠ i) : (s.setCpu i cpu).cpu j = s.cpu j := by
  simp only [Shared.setCpu, Function.update_of_ne h]

/-- What a processor can do next. -/
inductive Goes (u : Updates M V Op) (s : Shared ι M V Op) (i : ι) :
    List Op → Shared ι M V Op → Prop where
  | unlock (todo : List Op) (h : s.cpu i = ⟨todo, .stored⟩) :
      Goes u s i [] { s.setCpu i ⟨todo, .idle⟩ with owner := none }
  | atOnce (op : Op) (ops : List Op) (h : s.cpu i = ⟨op :: ops, .idle⟩)
      (hplain : u.locked op = false) :
      Goes u s i [op] { s.setCpu i ⟨ops, .idle⟩ with mem := u.apply s.mem op }
  | lock (op : Op) (ops : List Op) (h : s.cpu i = ⟨op :: ops, .idle⟩)
      (hlocked : u.locked op = true) (hfree : s.owner = none) :
      Goes u s i [] { s.setCpu i ⟨op :: ops, .entered⟩ with owner := some i }
  | load (op : Op) (ops : List Op) (h : s.cpu i = ⟨op :: ops, .entered⟩) :
      Goes u s i [] (s.setCpu i ⟨op :: ops, .loaded (u.load op s.mem)⟩)
  | store (op : Op) (ops : List Op) (v : V) (h : s.cpu i = ⟨op :: ops, .loaded v⟩) :
      Goes u s i [op] { s.setCpu i ⟨ops, .stored⟩ with mem := u.store op v s.mem }

theorem goOn_goes (h : goOn u s i = some t) :
    ∃ ops, stores u s (.next i) = ops.map (i, ·) ∧ Goes u s i ops t := by
  rcases hcpu : s.cpu i with ⟨todo, pc⟩
  rw [goOn, hcpu] at h
  rw [stores, hcpu]
  cases pc with
  | stored =>
    cases h
    cases todo <;> exact ⟨[], rfl, .unlock _ hcpu⟩
  | idle =>
    cases todo with
    | nil => cases h
    | cons op ops =>
      dsimp only at h ⊢
      split at h
      next hplain =>
        cases h
        exact ⟨[op], if_pos hplain, .atOnce op ops hcpu hplain⟩
      next hlocked =>
        split at h
        · cases h
        next hfree =>
          cases h
          exact ⟨[], if_neg hlocked, .lock op ops hcpu (by simpa using hlocked)
            (Option.not_isSome_iff_eq_none.mp hfree)⟩
  | entered =>
    cases todo with
    | nil => cases h
    | cons op ops =>
      cases h
      exact ⟨[], rfl, .load op ops hcpu⟩
  | loaded v =>
    cases todo with
    | nil => cases h
    | cons op ops =>
      cases h
      exact ⟨[op], rfl, .store op ops v hcpu⟩

omit [DecidableEq ι] in
/-- A processor that is not in an update under the lock. -/
theorem CpuInv.of_idle (h : (s.cpu i).pc = .idle) : CpuInv u s i := by
  refine ⟨fun hne => absurd h hne, fun hne => absurd h hne, ?_⟩
  intro v op ops hcpu
  rw [hcpu] at h
  cases h

omit [DecidableEq ι] in
/-- A processor stays as it is while another goes on that does not take the lock from it, and
    that does not change what it has read. -/
theorem CpuInv.other (h : CpuInv u s j) (hcpu : t.cpu j = s.cpu j)
    (howner : s.owner = some j → t.owner = some j)
    (hload : ∀ op ∈ (s.cpu j).todo, u.locked op = true → s.owner = some j →
      u.load op t.mem = u.load op s.mem) : CpuInv u t j := by
  refine ⟨?_, ?_, ?_⟩
  · intro hne
    rw [hcpu] at hne
    exact howner (h.holds hne)
  · intro hidle hstored
    rw [hcpu] at hidle hstored ⊢
    exact h.busy hidle hstored
  · intro v op ops hj
    rw [hcpu] at hj
    have hidle : (s.cpu j).pc ≠ .idle := by simp [hj]
    obtain ⟨op', ops', htodo, hlocked⟩ := h.busy hidle (by simp [hj])
    obtain ⟨rfl, rfl⟩ : op = op' ∧ ops = ops' := by
      rw [hj] at htodo
      exact List.cons.inj htodo
    rw [hload op (by simp [htodo]) hlocked (h.holds hidle)]
    exact h.fresh v op ops hj

/-- The processor that goes on. -/
theorem CpuInv.self (h : CpuInv u s i) {ops : List Op} (hgo : Goes u s i ops t) :
    CpuInv u t i := by
  cases hgo with
  | unlock todo hi => exact .of_idle (by simp)
  | atOnce op ops hi hplain => exact .of_idle (by simp)
  | lock op ops hi hlocked hfree =>
    refine ⟨fun _ => rfl, ?_, ?_⟩
    · exact fun _ _ => ⟨op, ops, by simp, hlocked⟩
    · intro v op' ops' hj
      rw [setCpu_self] at hj
      cases hj
  | load op ops hi =>
    have hidle : (s.cpu i).pc ≠ .idle := by simp [hi]
    obtain ⟨op', ops', htodo, hlocked⟩ := h.busy hidle (by simp [hi])
    rw [hi] at htodo
    refine ⟨fun _ => h.holds hidle, ?_, ?_⟩
    · exact fun _ _ => ⟨op', ops', by rw [setCpu_self]; exact htodo, hlocked⟩
    · intro v op' ops' hj
      rw [setCpu_self] at hj
      cases hj
      rfl
  | store op ops v hi =>
    have hidle : (s.cpu i).pc ≠ .idle := by simp [hi]
    refine ⟨fun _ => h.holds hidle, ?_, ?_⟩
    · exact fun _ hstored => absurd (by simp) hstored
    · intro v op' ops' hj
      rw [setCpu_self] at hj
      cases hj

/-- What a processor has to do after a step is part of what it had to do. -/
theorem Goes.todo_subset {ops : List Op} (hgo : Goes u s i ops t) :
    (s.cpu i).todo = ops ++ (t.cpu i).todo ∧ ∀ j ≠ i, t.cpu j = s.cpu j := by
  cases hgo with
  | unlock todo hi => exact ⟨by simp [hi], fun j hj => setCpu_of_ne _ hj⟩
  | atOnce op ops hi => exact ⟨by simp [hi], fun j hj => setCpu_of_ne _ hj⟩
  | lock op ops hi => exact ⟨by simp [hi], fun j hj => setCpu_of_ne _ hj⟩
  | load op ops hi => exact ⟨by simp [hi], fun j hj => setCpu_of_ne _ hj⟩
  | store op ops v hi => exact ⟨by simp [hi], fun j hj => setCpu_of_ne _ hj⟩

/-- A processor is given more to do. -/
theorem CpuInv.submit (h : CpuInv u s j) (i : ι) (ops : List Op) :
    CpuInv u (s.setCpu i { s.cpu i with todo := (s.cpu i).todo ++ ops }) j := by
  rcases eq_or_ne j i with rfl | hj
  · refine ⟨fun hidle => h.holds (by simpa using hidle), ?_, ?_⟩
    · intro hidle hstored
      rw [setCpu_self] at hidle hstored ⊢
      obtain ⟨op, ops', htodo, hlocked⟩ := h.busy hidle hstored
      exact ⟨op, ops' ++ ops, by rw [htodo]; rfl, hlocked⟩
    · intro v op ops' hcpu
      rw [setCpu_self, Cpu.mk.injEq] at hcpu
      obtain ⟨htodo, hpc⟩ := hcpu
      obtain ⟨op', ops'', hold, -⟩ := h.busy (by simp [hpc]) (by simp [hpc])
      rw [hold] at htodo
      cases htodo
      exact h.fresh v op ops'' (by rw [← hold, ← hpc])
  · exact h.other (setCpu_of_ne _ hj) id fun _ _ _ _ => rfl

/-- The invariant after a step of processor `i`. -/
theorem Inv.goes (h : Inv u D s) (happart : u.Apart D) {ops : List Op} (hgo : Goes u s i ops t) :
    Inv u D t := by
  obtain ⟨htodo, hother⟩ := hgo.todo_subset
  refine ⟨?_, ?_⟩
  · intro j op hop
    rcases eq_or_ne j i with rfl | hj
    · exact h.given j op (by rw [htodo]; exact List.mem_append_right _ hop)
    · exact h.given j op (by rwa [hother j hj] at hop)
  · intro j
    rcases eq_or_ne j i with rfl | hj
    · exact (h.cpu j).self hgo
    · have hi := h.cpu i
      have hlock : (s.cpu i).pc ≠ .idle → s.owner ≠ some j := by
        intro hidle howner
        rw [hi.holds hidle] at howner
        exact hj (Option.some.inj howner).symm
      cases hgo with
      | unlock todo hcpu =>
        exact (h.cpu j).other (hother j hj) (fun ho => absurd ho (hlock (by simp [hcpu])))
          fun _ _ _ _ => rfl
      | atOnce op ops hcpu hplain =>
        refine (h.cpu j).other (hother j hj) id ?_
        intro op' hop' hlocked _
        have hD : D op := h.given i op (by simp [hcpu])
        exact happart op op' hD (h.given j op' hop') hplain hlocked s.mem
      | lock op ops hcpu hlocked hfree =>
        refine (h.cpu j).other (hother j hj) ?_ fun _ _ _ _ => rfl
        intro ho
        rw [hfree] at ho
        cases ho
      | load op ops hcpu =>
        exact (h.cpu j).other (hother j hj) id fun _ _ _ _ => rfl
      | store op ops v hcpu =>
        exact (h.cpu j).other (hother j hj) id
          fun _ _ _ ho => absurd ho (hlock (by simp [hcpu]))

/-- A step writes what its update makes of the memory as it is. -/
theorem Inv.mem_goes (h : Inv u D s) {ops : List Op} (hgo : Goes u s i ops t) :
    t.mem = ops.foldl u.apply s.mem := by
  cases hgo with
  | unlock todo hi => rfl
  | atOnce op ops hi hplain => rfl
  | lock op ops hi hlocked hfree => rfl
  | load op ops hi => rfl
  | store op ops v hi =>
    obtain rfl := (h.cpu i).fresh v op ops hi
    rfl

theorem Inv.kept (h : Inv u D s) (happart : u.Apart D) (hgives : Gives D s a)
    (hstep : step u s a = some t) : Inv u D t := by
  cases a with
  | next i =>
    obtain ⟨ops, -, hgo⟩ := goOn_goes hstep
    exact h.goes happart hgo
  | submit i ops =>
    cases hstep
    refine ⟨?_, ?_⟩
    · intro j op hop
      rcases eq_or_ne j i with rfl | hj
      · rw [setCpu_self, List.mem_append] at hop
        rcases hop with hop | hop
        · exact h.given j op hop
        · exact hgives op hop
      · rw [setCpu_of_ne _ hj] at hop
        exact h.given j op hop
    · exact fun j => (h.cpu j).submit i ops

/-- The updates are written one after another, each as if nothing came in between. -/
theorem Inv.mem_step (h : Inv u D s) (hstep : step u s a = some t) :
    t.mem = ((stores u s a).map Prod.snd).foldl u.apply s.mem := by
  cases a with
  | next i =>
    obtain ⟨ops, hstores, hgo⟩ := goOn_goes hstep
    rw [hstores, List.map_map, h.mem_goes hgo]
    exact congrArg (List.foldl u.apply s.mem) (List.map_id ops).symm
  | submit i ops =>
    cases hstep
    rfl

@[simp] theorem ofCpu_self (i : ι) (ops : List Op) : ofCpu i (ops.map (i, ·)) = ops := by
  induction ops with
  | nil => rfl
  | cons op ops ih => simpa [ofCpu] using ih

theorem ofCpu_of_ne (hj : j ≠ i) (ops : List Op) : ofCpu i (ops.map (j, ·)) = [] := by
  simp [ofCpu, List.filter_eq_nil_iff, hj]

/-- What a processor is given and has not written is what it has to do. -/
theorem todo_step (i : ι) (hstep : step u s a = some t) :
    (s.cpu i).todo ++ submits i s a = ofCpu i (stores u s a) ++ (t.cpu i).todo := by
  cases a with
  | submit j ops =>
    cases hstep
    rw [submits, stores]
    rcases eq_or_ne j i with rfl | hj
    · rw [if_pos rfl, setCpu_self]
      rfl
    · rw [if_neg hj, setCpu_of_ne _ hj.symm, List.append_nil]
      rfl
  | next j =>
    obtain ⟨ops, hstores, hgo⟩ := goOn_goes hstep
    obtain ⟨htodo, hother⟩ := hgo.todo_subset
    rw [submits, hstores, List.append_nil]
    rcases eq_or_ne j i with rfl | hj
    · rw [htodo, ofCpu_self]
    · rw [hother i hj.symm, ofCpu_of_ne hj, List.nil_append]

/-- Every processor writes the updates it is given, in their order. -/
theorem cpu_fifo (u : Updates M V Op) (i : ι) :
    Fifo (step u) (fun _ => True) (fun _ _ => True) (fun s => (s.cpu i).todo) (submits i)
      (fun s a => ofCpu i (stores u s a)) :=
  ⟨fun _ _ _ _ _ _ => trivial, fun _ _ _ _ _ hstep => todo_step i hstep⟩

theorem ofCpu_append (i : ι) (ps qs : List (ι × Op)) :
    ofCpu i (ps ++ qs) = ofCpu i ps ++ ofCpu i qs := by
  rw [ofCpu, List.filter_append, List.map_append, ofCpu, ofCpu]

/-- In every run from where nothing is under way, what a processor is given is what it writes and
    what it has still to do, in order. -/
theorem run_cpu (u : Updates M V Op) (i : ι) {mem : M} {as : List (Label ι Op)}
    (hrun : run (step u) (.start mem) as = some t) :
    trace (step u) (submits i) (.start mem) as =
      ofCpu i (trace (step u) (stores u) (.start mem) as) ++ (t.cpu i).todo := by
  rw [← trace_hom (f := ofCpu i) rfl (ofCpu_append i)]
  exact (cpu_fifo u i).run trivial (.of_forall fun _ _ => trivial) hrun

/-- In every run the memory is what the updates make of it one after another, in the order in
    which they are written. -/
theorem run_mem (happart : u.Apart D) {as : List (Label ι Op)} (h : Inv u D s)
    (hgives : StepsMeet (step u) (Gives D) s as) (hrun : run (step u) s as = some t) :
    t.mem = ((trace (step u) (stores u) s as).map Prod.snd).foldl u.apply s.mem := by
  rw [← trace_map]
  exact run_foldl (fun _ _ _ h hC hstep => h.kept happart hC hstep)
    (fun _ _ _ h _ hstep => h.mem_step hstep) h hgives hrun

end Locked
