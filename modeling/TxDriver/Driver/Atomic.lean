import Mathlib.Data.BitVec
import Mathlib.Logic.Function.Basic
import TxDriver.Framework.History
import TxDriver.Framework.Transition

/-!
# Atomic counters

The operations of `txd_atomic.c` on one `int`, in any number of threads. An operation is a single
locked instruction; those that test the result read the zero flag of their own thread afterwards,
and other threads may go on in between.
-/

namespace TxDriver

inductive LockedInstr where
  | addl (x : BitVec 32)
  | subl (x : BitVec 32)
  | incl
  | decl
  deriving DecidableEq

def LockedInstr.exec : LockedInstr → BitVec 32 → BitVec 32
  | .addl x, value => value + x
  | .subl x, value => value - x
  | .incl, value => value + 1
  | .decl, value => value - 1

inductive AtomicOp where
  | atomicAdd (incVal : BitVec 32)
  | atomicSub (decVal : BitVec 32)
  | atomicInc
  | atomicDec
  | atomicDecAndTest
  | atomicIncAndTest
  deriving DecidableEq

def AtomicOp.instr : AtomicOp → LockedInstr
  | .atomicAdd incVal => .addl incVal
  | .atomicSub decVal => .subl decVal
  | .atomicInc => .incl
  | .atomicDec => .decl
  | .atomicDecAndTest => .decl
  | .atomicIncAndTest => .decl

/-- The operation goes on with `sete` and returns what it has set. -/
def AtomicOp.tests : AtomicOp → Bool
  | .atomicDecAndTest | .atomicIncAndTest => true
  | .atomicAdd _ | .atomicSub _ | .atomicInc | .atomicDec => false

/-- What the operation adds to the counter according to its name and comment. -/
def AtomicOp.delta : AtomicOp → BitVec 32
  | .atomicAdd incVal => incVal
  | .atomicSub decVal => -decVal
  | .atomicInc => 1
  | .atomicDec => -1
  | .atomicDecAndTest => -1
  | .atomicIncAndTest => 1

def AtomicOp.effect (op : AtomicOp) : BitVec 32 := op.instr.exec 0

theorem AtomicOp.exec_instr (op : AtomicOp) (value : BitVec 32) :
    op.instr.exec value = value + op.effect := by
  cases op <;> simp [AtomicOp.effect, AtomicOp.instr, LockedInstr.exec, sub_eq_add_neg]

/-- One operation is implemented by the instruction of another. -/
theorem AtomicOp.delta_eq_effect_iff (op : AtomicOp) :
    op.delta = op.effect ↔ op ≠ .atomicIncAndTest := by
  cases op with
  | atomicAdd | atomicSub =>
    simp [AtomicOp.delta, AtomicOp.effect, AtomicOp.instr, LockedInstr.exec]
  | atomicInc | atomicDec | atomicDecAndTest | atomicIncAndTest => decide

/-- The counter and, of each thread, the operations that it still has to call, its zero flag, and
the operation whose locked instruction it has executed without having returned. `performed` lists
the locked instructions and `returned` the results of tests, the last one first. -/
structure AtomicState (ι : Type) where
  counter : BitVec 32
  todo : ι → List AtomicOp
  zf : ι → Bool
  calling : ι → Option (Performed ι AtomicOp (BitVec 32))
  performed : List (Performed ι AtomicOp (BitVec 32))
  returned : List (Performed ι AtomicOp (BitVec 32) × Bool)

section Threads

variable {ι : Type} [DecidableEq ι]

def AtomicState.perform (s : AtomicState ι) (t : ι) (op : AtomicOp) (ops : List AtomicOp) :
    AtomicState ι :=
  let left := op.instr.exec s.counter
  { s with
    counter := left
    todo := Function.update s.todo t ops
    zf := Function.update s.zf t (left = 0)
    calling := Function.update s.calling t (if op.tests then some ⟨t, op, left⟩ else none)
    performed := ⟨t, op, left⟩ :: s.performed }

def AtomicState.ret (s : AtomicState ι) (t : ι) (x : Performed ι AtomicOp (BitVec 32)) :
    AtomicState ι :=
  { s with
    calling := Function.update s.calling t none
    returned := (x, s.zf t) :: s.returned }

/-- Threads that go on one at a time, in any order, from the value `v` of the counter. -/
def atomics (ι : Type) [DecidableEq ι] (v : BitVec 32) : TransitionSystem (AtomicState ι) ι where
  init s := s.counter = v ∧ s.performed = [] ∧ s.returned = [] ∧ ∀ t, s.calling t = none
  step t s :=
    match s.calling t, s.todo t with
    | some x, _ => some (s.ret t x)
    | none, op :: ops => some (s.perform t op ops)
    | none, [] => none

/-- After each step the counter had the documented value, and every test that has returned told
whether its own step left zero. -/
structure AtomicState.Accurate (v : BitVec 32) (s : AtomicState ι) : Prop where
  counter : s.counter = v + addedBy AtomicOp.delta s.performed
  history : Leaves AtomicOp.delta v s.performed
  returned : ∀ r ∈ s.returned, r.1 ∈ s.performed ∧ (r.2 = true ↔ r.1.left = 0#32)

structure AtomicState.Traced (v : BitVec 32) (s : AtomicState ι) : Prop where
  counter : s.counter = v + addedBy AtomicOp.effect s.performed
  history : Leaves AtomicOp.effect v s.performed
  calling : ∀ t x, s.calling t = some x → x ∈ s.performed ∧ (s.zf t = true ↔ x.left = 0#32)
  returned : ∀ r ∈ s.returned, r.1 ∈ s.performed ∧ (r.2 = true ↔ r.1.left = 0#32)

variable {v : BitVec 32} {s s' : AtomicState ι} {t : ι} {op : AtomicOp} {ops : List AtomicOp}
  {x : Performed ι AtomicOp (BitVec 32)}

theorem AtomicState.Traced.perform (h : s.Traced v) : (s.perform t op ops).Traced v where
  counter := by
    simp only [AtomicState.perform, addedBy_cons, AtomicOp.exec_instr, h.counter]
    rw [add_assoc, add_comm (addedBy _ _)]
  history := by
    refine ⟨?_, h.history⟩
    simp only [addedBy_cons, AtomicOp.exec_instr, h.counter]
    rw [add_assoc, add_comm (addedBy _ _)]
  calling u x hx := by
    simp only [AtomicState.perform] at hx ⊢
    by_cases hu : u = t
    · subst hu
      rw [Function.update_self] at hx ⊢
      cases htests : op.tests
      · simp [htests] at hx
      · simp only [htests, if_true, Option.some.injEq] at hx
        subst hx
        simp
    · rw [Function.update_of_ne hu] at hx ⊢
      obtain ⟨hmem, hzf⟩ := h.calling u x hx
      exact ⟨List.mem_cons_of_mem _ hmem, hzf⟩
  returned r hr := by
    obtain ⟨hmem, hvalue⟩ := h.returned r hr
    exact ⟨List.mem_cons_of_mem _ hmem, hvalue⟩

theorem AtomicState.Traced.ret (h : s.Traced v) (hx : s.calling t = some x) :
    (s.ret t x).Traced v where
  counter := h.counter
  history := h.history
  calling u y hy := by
    simp only [AtomicState.ret] at hy
    by_cases hu : u = t
    · subst hu
      simp at hy
    · rw [Function.update_of_ne hu] at hy
      exact h.calling u y hy
  returned r hr := by
    rcases List.mem_cons.mp hr with rfl | hr
    · exact h.calling t x hx
    · exact h.returned r hr

theorem AtomicState.Traced.step (h : s.Traced v) (hstep : (atomics ι v).step t s = some s') :
    s'.Traced v := by
  simp only [atomics] at hstep
  cases hcalling : s.calling t with
  | some x =>
    simp only [hcalling, Option.some.injEq] at hstep
    subst hstep
    exact h.ret hcalling
  | none =>
    cases htodo : s.todo t with
    | nil => simp [hcalling, htodo] at hstep
    | cons op ops =>
      simp only [hcalling, htodo, Option.some.injEq] at hstep
      subst hstep
      exact h.perform

/-- The counter is accurate exactly as long as no thread has executed `atomic_inc_and_test`. -/
theorem atomics_accurate_iff (hs : (atomics ι v).Reachable s) :
    s.Accurate v ↔ ∀ x ∈ s.performed, x.op ≠ .atomicIncAndTest := by
  have htraced : s.Traced v := by
    refine hs.invariant ?_ fun t s s' hs hstep => hs.step hstep
    intro s hstart
    rcases hstart with ⟨hcounter, hperformed, hreturned, hcalling⟩
    refine ⟨?_, ?_, ?_, ?_⟩
    · simp [hcounter, hperformed]
    · simp [hperformed, Leaves]
    · simp [hcalling]
    · simp [hreturned]
  have hagree : Leaves AtomicOp.delta v s.performed ↔
      ∀ x ∈ s.performed, x.op ≠ .atomicIncAndTest := by
    simp only [leaves_iff_agree htraced.history, AtomicOp.delta_eq_effect_iff]
  constructor
  · intro h
    exact hagree.mp h.history
  · intro hnone
    have hdelta : ∀ x ∈ s.performed, x.op.delta = x.op.effect :=
      fun x hx => x.op.delta_eq_effect_iff.mpr (hnone x hx)
    refine ⟨?_, hagree.mpr hnone, htraced.returned⟩
    rw [addedBy_congr hdelta, htraced.counter]

end Threads

def AtomicState.fresh {ι : Type} (v : BitVec 32) (todo : ι → List AtomicOp) : AtomicState ι where
  counter := v
  todo := todo
  zf _ := false
  calling _ := none
  performed := []
  returned := []

theorem AtomicState.fresh_reachable {ι : Type} [DecidableEq ι] (v : BitVec 32)
    (todo : ι → List AtomicOp) : (atomics ι v).Reachable (.fresh v todo) :=
  .init ⟨rfl, rfl, rfl, fun _ => rfl⟩

theorem atomics_accurate_dropped :
    ∃ s, (atomics Bool 0).Reachable s ∧ s.returned.map Prod.snd = [true] ∧ s.Accurate 0 := by
  have hresult : ((atomics Bool 0).run [false, true, true]
      (.fresh 0 fun t => if t then [.atomicDecAndTest] else [.atomicInc])).map
        (fun s => (s.returned.map Prod.snd, s.performed.map Performed.op)) =
      some ([true], [.atomicDecAndTest, .atomicInc]) := by
    decide
  obtain ⟨s, hrun, hs⟩ := Option.map_eq_some_iff.mp hresult
  obtain ⟨hreturned, hperformed⟩ := Prod.mk.inj hs
  have hreachable := (AtomicState.fresh_reachable 0 _).run hrun
  refine ⟨s, hreachable, hreturned, (atomics_accurate_iff hreachable).mpr ?_⟩
  intro x hx hop
  have hmem := List.mem_map_of_mem (f := Performed.op) hx
  rw [hperformed, hop] at hmem
  exact absurd hmem (by decide)

/-- A single increment with a test takes the counter from 0 to -1. -/
theorem atomics_inc_and_test :
    ¬∀ (ι : Type) (_ : DecidableEq ι) (v : BitVec 32) (s : AtomicState ι),
      (atomics ι v).Reachable s → s.Accurate v := by
  intro h
  have hstep : (atomics Unit 0).step () (.fresh 0 fun _ => [.atomicIncAndTest]) = some _ := rfl
  have haccurate := h _ _ _ _ ((AtomicState.fresh_reachable 0 _).step () hstep)
  exact absurd haccurate.counter (by decide)

end TxDriver
