import Mathlib.Logic.Function.Basic
import Mathlib.Tactic.Common

/-!
# Operations on registers

A register is read and written back with some bits set or cleared, or it is written as a whole.
What a sequence of such operations makes of one bit is what the last of them that assigns the bit
says; a bit that none assigns is as it was.
-/

/-- An operation on a register. -/
inductive RegOp (R : Type*) (w : Nat) where
  | setBits (reg : R) (bits : BitVec w)
  | clearBits (reg : R) (bits : BitVec w)
  | write (reg : R) (val : BitVec w)
  deriving DecidableEq, Repr

/-- A bit of a register. -/
structure RegBit (R : Type*) where
  reg : R
  bit : Nat
  deriving DecidableEq, Repr

namespace RegOp

variable {R : Type*} {w : Nat}

/-- The register of an operation. -/
def reg : RegOp R w → R
  | .setBits r _ | .clearBits r _ | .write r _ => r

/-- What is written, of what was read. -/
def combine : RegOp R w → BitVec w → BitVec w
  | .setBits _ bits, x => bits ||| x
  | .clearBits _ bits, x => ~~~bits &&& x
  | .write _ val, _ => val

/-- Whether the register is read first. -/
def reads : RegOp R w → Bool
  | .setBits .. | .clearBits .. => true
  | .write .. => false

variable [DecidableEq R]

/-- An operation that nothing comes in between. -/
def apply (regs : R → BitVec w) (op : RegOp R w) : R → BitVec w :=
  Function.update regs op.reg (op.combine (regs op.reg))

/-- What an operation makes of a bit of its register, where it assigns it. -/
def assigned : RegOp R w → Nat → Option Bool
  | .setBits _ bits, i => if bits.getLsbD i then some true else none
  | .clearBits _ bits, i => if bits.getLsbD i then some false else none
  | .write _ val, i => some (val.getLsbD i)

/-- The same for a bit of any register. -/
def assigns (op : RegOp R w) (b : RegBit R) : Option Bool :=
  if b.reg = op.reg then op.assigned b.bit else none

omit [DecidableEq R] in
theorem getLsbD_combine (op : RegOp R w) (x : BitVec w) (i : Nat) :
    (op.combine x).getLsbD i = (op.assigned i).getD (x.getLsbD i) := by
  cases op with
  | setBits r bits =>
    rw [combine, assigned, BitVec.getLsbD_or]
    cases bits.getLsbD i <;> simp
  | clearBits r bits =>
    rw [combine, assigned, BitVec.getLsbD_and, BitVec.getLsbD_not]
    by_cases hi : i < w
    · cases bits.getLsbD i <;> simp [hi]
    · rw [BitVec.getLsbD_of_ge bits i (by omega), BitVec.getLsbD_of_ge x i (by omega)]
      simp
  | write r val => rfl

/-- A register that no operation is on. -/
theorem foldl_of_ne {r : R} {ops : List (RegOp R w)} (h : ∀ op ∈ ops, r ≠ op.reg)
    (regs : R → BitVec w) : ops.foldl apply regs r = regs r := by
  induction ops generalizing regs with
  | nil => rfl
  | cons op ops ih =>
    rw [List.forall_mem_cons] at h
    rw [List.foldl_cons, ih h.2, apply, Function.update_of_ne h.1]

/-! Registers that are at places of a memory -/

section Places

variable {S : Type*} [DecidableEq S]

/-- An operation on a register, which is at a place. -/
def applyAt (place : R → S) (mem : S → BitVec w) (op : RegOp R w) : S → BitVec w :=
  Function.update mem (place op.reg) (op.combine (mem (place op.reg)))

variable {place : R → S} {P : R → Prop} {ops : List (RegOp R w)} {mem : S → BitVec w}

/-- Where registers have places of their own, a memory that shows their values goes on to. -/
theorem foldl_applyAt (hplace : ∀ r r', P r → P r' → place r = place r' → r = r')
    (hops : ∀ op ∈ ops, P op.reg) {regs : R → BitVec w} (hmem : ∀ r, P r → mem (place r) = regs r) :
    ∀ r, P r → ops.foldl (applyAt place) mem (place r) = ops.foldl apply regs r := by
  induction ops generalizing mem regs with
  | nil => exact hmem
  | cons op ops ih =>
    rw [List.forall_mem_cons] at hops
    apply ih hops.2
    intro r hr
    rw [applyAt, apply, hmem op.reg hops.1]
    rcases eq_or_ne r op.reg with rfl | hne
    · rw [Function.update_self, Function.update_self]
    · rw [Function.update_of_ne fun heq => hne (hplace r op.reg hr hops.1 heq),
        Function.update_of_ne hne]
      exact hmem r hr

omit [DecidableEq R] in
/-- What is at no place of the registers that are written is as it was. -/
theorem foldl_applyAt_of_ne {p : S} (h : ∀ op ∈ ops, place op.reg ≠ p) :
    ops.foldl (applyAt place) mem p = mem p := by
  induction ops generalizing mem with
  | nil => rfl
  | cons op ops ih =>
    rw [List.forall_mem_cons] at h
    rw [List.foldl_cons, ih h.2, applyAt, Function.update_of_ne h.1.symm]

end Places

end RegOp

namespace RegBit

variable {R : Type*} {w : Nat}

/-- The value of a bit. -/
def get (b : RegBit R) (regs : R → BitVec w) : Bool := (regs b.reg).getLsbD b.bit

variable [DecidableEq R]

/-- What the last operation that assigns a bit makes of it. -/
def lastAssigned (b : RegBit R) : List (RegOp R w) → Option Bool
  | [] => none
  | op :: ops => (b.lastAssigned ops).or (op.assigns b)

variable (b : RegBit R) (regs : R → BitVec w)

theorem get_apply (op : RegOp R w) :
    b.get (RegOp.apply regs op) = (op.assigns b).getD (b.get regs) := by
  by_cases hreg : b.reg = op.reg
  · rw [get, RegOp.apply, hreg, Function.update_self, RegOp.getLsbD_combine, RegOp.assigns,
      if_pos hreg, get, hreg]
  · rw [get, RegOp.apply, Function.update_of_ne hreg, RegOp.assigns, if_neg hreg]
    rfl

theorem get_foldl (ops : List (RegOp R w)) :
    b.get (ops.foldl RegOp.apply regs) = (b.lastAssigned ops).getD (b.get regs) := by
  induction ops generalizing regs with
  | nil => rfl
  | cons op ops ih =>
    rw [List.foldl_cons, ih, get_apply, lastAssigned]
    cases b.lastAssigned ops <;> rfl

end RegBit

/-! The bits that operations are about -/

namespace RegOp

variable {R : Type*} {w : Nat}

/-- The bits that an operation assigns. -/
def bits : RegOp R w → BitVec w
  | .setBits _ bits | .clearBits _ bits => bits
  | .write .. => BitVec.allOnes w

/-- An operation assigns no bits but those of `own`. -/
def Within (own : R → BitVec w) (op : RegOp R w) : Prop := op.bits &&& ~~~own op.reg = 0#w

instance (own : R → BitVec w) (op : RegOp R w) : Decidable (op.Within own) :=
  inferInstanceAs (Decidable (_ = _))

/-- A register may be written where all its bits are own ones. -/
theorem within_write {own : R → BitVec w} {r : R} {val : BitVec w}
    (h : own r = BitVec.allOnes w) : (write r val).Within own := by
  rw [Within, reg, h, BitVec.not_allOnes, BitVec.and_zero]

theorem assigned_eq_none {op : RegOp R w} {i : Nat} (hi : i < w) (h : op.bits.getLsbD i = false) :
    op.assigned i = none := by
  cases op with
  | setBits r bits => exact if_neg (ne_true_of_eq_false h)
  | clearBits r bits => exact if_neg (ne_true_of_eq_false h)
  | write r val =>
    rw [bits, BitVec.getLsbD_allOnes, decide_eq_true hi] at h
    cases h

variable [DecidableEq R]

theorem Within.assigns_eq_none {own : R → BitVec w} {op : RegOp R w} (h : op.Within own)
    {b : RegBit R} (hb : b.bit < w) (hown : (own b.reg).getLsbD b.bit = false) :
    op.assigns b = none := by
  rw [assigns]
  split
  next hreg =>
    apply assigned_eq_none hb
    have hbit := congrArg (fun x => x.getLsbD b.bit) h
    rw [hreg] at hown
    simpa only [BitVec.getLsbD_and, BitVec.getLsbD_not, hown, hb, decide_true, Bool.not_false,
      Bool.true_and, Bool.and_true, BitVec.getLsbD_zero] using hbit
  · rfl

end RegOp

/-- A bit that is not among those of `own` is as it was. -/
theorem RegBit.lastAssigned_within {R : Type*} {w : Nat} [DecidableEq R] {own : R → BitVec w}
    {ops : List (RegOp R w)} (h : ∀ op ∈ ops, op.Within own) {b : RegBit R} (hb : b.bit < w)
    (hown : (own b.reg).getLsbD b.bit = false) : b.lastAssigned ops = none := by
  induction ops with
  | nil => rfl
  | cons op ops ih =>
    rw [List.forall_mem_cons] at h
    rw [lastAssigned, ih h.2, h.1.assigns_eq_none hb hown]
    rfl
