import Mathlib.Data.List.Perm.Basic
import TxDriver.Driver.Atomic

/-!
# Exchanges and locks

All operations of `txd_atomic.c` on one `int`, `test_and_set` and `atomic_xchg` among them, and
assignments to it. Every operation is a locked instruction that reads and writes the value at once,
and the rest of its function only looks at the registers of its own thread, whatever the other
threads do meanwhile.
-/

namespace TxDriver

/-- `store` is an assignment of the caller's own, without a lock prefix. -/
inductive IntOp where
  | counting (op : AtomicOp)
  | testAndSet
  | atomicXchg (newval : BitVec 32)
  | store (newval : BitVec 32)
  deriving DecidableEq

structure Registers where
  zf : Bool
  cf : Bool
  eax : BitVec 32

/-- The carry flag after the instruction; `incl` and `decl` leave it alone. -/
def LockedInstr.carry : LockedInstr → BitVec 32 → Bool → Bool
  | .addl x, value, _ => BitVec.uaddOverflow value x
  | .subl x, value, _ => BitVec.usubOverflow value x
  | .incl, _, cf | .decl, _, cf => cf

def IntOp.exec : IntOp → BitVec 32 → BitVec 32
  | .counting op, value => op.instr.exec value
  | .testAndSet, value => value ||| 1
  | .atomicXchg newval, _ => newval
  | .store newval, _ => newval

/-- The registers after the locked instruction; `bts` leaves the old bit in the carry flag. -/
def IntOp.registers : IntOp → BitVec 32 → Registers → Registers
  | .counting op, value, r =>
    { r with zf := op.instr.exec value = 0, cf := op.instr.carry value r.cf }
  | .testAndSet, value, r => { r with cf := value.getLsbD 0 }
  | .atomicXchg _, value, r => { r with eax := value }
  | .store _, _, r => r

/-- What the function returns from the registers: by `sete`, by `setc` and `movzb`, or as it is. -/
def IntOp.result : IntOp → Registers → Option (BitVec 32)
  | .counting op, r => if op.tests then some (if r.zf then 1 else 0) else none
  | .testAndSet, r => some (if r.cf then 1 else 0)
  | .atomicXchg _, r => some r.eax
  | .store _, _ => none

/-- What the operation returns when it finds `value`. -/
def IntOp.returns : IntOp → BitVec 32 → Option (BitVec 32)
  | .counting op, value =>
    if op.tests then some (if op.instr.exec value = 0 then 1 else 0) else none
  | .testAndSet, value => some (if value.getLsbD 0 then 1 else 0)
  | .atomicXchg _, value => some value
  | .store _, _ => none

theorem IntOp.result_registers (op : IntOp) (value : BitVec 32) (r : Registers) :
    op.result (op.registers value r) = op.returns value := by
  cases op <;> simp [IntOp.result, IntOp.registers, IntOp.returns]

theorem IntOp.testAndSet_bit (value : BitVec 32) :
    (IntOp.testAndSet.exec value).getLsbD 0 = true := by
  simp [IntOp.exec]

theorem IntOp.testAndSet_returns_zero {value : BitVec 32} :
    IntOp.testAndSet.returns value = some 0 ↔ value.getLsbD 0 = false := by
  rw [IntOp.returns]
  cases value.getLsbD 0 <;> decide

abbrev Executed (ι : Type) := Observed ι IntOp (BitVec 32)

/-- The value and, of each thread, the operations that it still has to call, its registers, and the
operation whose locked instruction it has executed without having returned. `executed` lists the
locked instructions and `returned` the results, the last one first. -/
structure IntState (ι : Type) where
  value : BitVec 32
  todo : ι → List IntOp
  registers : ι → Registers
  calling : ι → Option (Executed ι)
  executed : List (Executed ι)
  returned : List (Executed ι × Option (BitVec 32))

section Threads

variable {ι : Type} [DecidableEq ι]

def IntState.execute (s : IntState ι) (t : ι) (op : IntOp) (ops : List IntOp) : IntState ι :=
  let x : Executed ι := ⟨t, op, s.value⟩
  { s with
    value := op.exec s.value
    todo := Function.update s.todo t ops
    registers := Function.update s.registers t (op.registers s.value (s.registers t))
    calling := Function.update s.calling t (some x)
    executed := x :: s.executed }

def IntState.ret (s : IntState ι) (t : ι) (x : Executed ι) : IntState ι :=
  { s with
    calling := Function.update s.calling t none
    returned := (x, x.op.result (s.registers t)) :: s.returned }

def exchanges (ι : Type) [DecidableEq ι] (v : BitVec 32) : TransitionSystem (IntState ι) ι where
  init s := s.value = v ∧ s.executed = [] ∧ s.returned = [] ∧ ∀ t, s.calling t = none
  step t s :=
    match s.calling t, s.todo t with
    | some x, _ => some (s.ret t x)
    | none, op :: ops => some (s.execute t op ops)
    | none, [] => none

/-- `pending` are the operations that have not returned, at most one of each thread. -/
structure IntState.Pending (s : IntState ι) (pending : List (Executed ι)) : Prop where
  executed : s.executed.Perm (s.returned.map Prod.fst ++ pending)
  calling : ∀ t, pending.filter (fun x => x.thread = t) = (s.calling t).toList

structure IntState.Ordered (v : BitVec 32) (s : IntState ι) : Prop where
  value : s.value = lastLeft IntOp.exec v s.executed
  history : Follows IntOp.exec v s.executed
  calling : ∀ t x, s.calling t = some x →
    x.thread = t ∧ x.op.result (s.registers t) = x.op.returns x.found
  returned : ∀ r ∈ s.returned, r.2 = r.1.op.returns r.1.found
  pending : ∃ pending, s.Pending pending

variable {v : BitVec 32} {s s' : IntState ι} {t : ι} {op : IntOp} {ops : List IntOp}
  {x : Executed ι} {pending : List (Executed ι)}

theorem IntState.Pending.execute (h : s.Pending pending) (ht : s.calling t = none) :
    (s.execute t op ops).Pending (⟨t, op, s.value⟩ :: pending) where
  executed := (h.executed.cons _).trans List.perm_middle.symm
  calling u := by
    simp only [IntState.execute, List.filter_cons]
    by_cases hu : u = t
    · subst hu
      simp [h.calling, ht]
    · simp [hu, Ne.symm hu, h.calling]

theorem IntState.Pending.ret (h : s.Pending pending) (hx : s.calling t = some x)
    (hthread : x.thread = t) : (s.ret t x).Pending (pending.erase x) where
  executed := by
    have hmem : x ∈ pending.filter fun y => y.thread = t := by
      rw [h.calling, hx]
      exact List.mem_singleton_self x
    have herase := List.perm_cons_erase (List.mem_of_mem_filter hmem)
    exact (h.executed.trans (herase.append_left _)).trans List.perm_middle
  calling u := by
    simp only [IntState.ret]
    rw [← List.erase_filter, h.calling]
    by_cases hu : u = t
    · subst hu
      simp [hx]
    · have hne : x ∉ (s.calling u).toList := by
        intro hm
        rw [← h.calling, List.mem_filter] at hm
        have hthread' : x.thread = u := of_decide_eq_true hm.2
        exact hu (hthread'.symm.trans hthread)
      rw [Function.update_of_ne hu, List.erase_of_not_mem hne]

theorem IntState.Ordered.execute (h : s.Ordered v) (ht : s.calling t = none) :
    (s.execute t op ops).Ordered v where
  value := rfl
  history := ⟨h.value, h.history⟩
  calling u x hx := by
    simp only [IntState.execute] at hx ⊢
    by_cases hu : u = t
    · subst hu
      rw [Function.update_self, Option.some.injEq] at hx
      subst hx
      rw [Function.update_self]
      exact ⟨rfl, op.result_registers _ _⟩
    · rw [Function.update_of_ne hu] at hx ⊢
      exact h.calling u x hx
  returned := h.returned
  pending := by
    obtain ⟨pending, hpending⟩ := h.pending
    exact ⟨_, hpending.execute ht⟩

theorem IntState.Ordered.ret (h : s.Ordered v) (hx : s.calling t = some x) :
    (s.ret t x).Ordered v where
  value := h.value
  history := h.history
  calling u y hy := by
    simp only [IntState.ret] at hy
    by_cases hu : u = t
    · subst hu
      simp at hy
    · rw [Function.update_of_ne hu] at hy
      exact h.calling u y hy
  returned r hr := by
    rcases List.mem_cons.mp hr with rfl | hr
    · exact (h.calling t x hx).2
    · exact h.returned r hr
  pending := by
    obtain ⟨pending, hpending⟩ := h.pending
    exact ⟨_, hpending.ret hx (h.calling t x hx).1⟩

theorem IntState.Ordered.step (h : s.Ordered v) (hstep : (exchanges ι v).step t s = some s') :
    s'.Ordered v := by
  simp only [exchanges] at hstep
  cases hcalling : s.calling t with
  | some x =>
    simp only [hcalling, Option.some.injEq] at hstep
    subst hstep
    exact h.ret hcalling
  | none =>
    cases htodo : s.todo t with
    | nil => simp [hcalling, htodo] at hstep
    | cons op ops =>
      simp only [hcalling, htodo, Option.some.injEq] at hstep
      subst hstep
      exact h.execute hcalling

theorem exchanges_ordered (hs : (exchanges ι v).Reachable s) : s.Ordered v := by
  refine hs.invariant ?_ fun t s s' hs hstep => hs.step hstep
  intro s hstart
  rcases hstart with ⟨hvalue, hexecuted, hreturned, hcalling⟩
  refine ⟨?_, ?_, ?_, ?_, [], ?_, ?_⟩
  · simp [hvalue, hexecuted, lastLeft]
  · simp [hexecuted, Follows]
  · simp [hcalling]
  · simp [hreturned]
  · simp [hexecuted, hreturned]
  · simp [hcalling]

/-- Every operation finds the value that the one executed before it has left, and returns what its
instruction found, whatever other threads do before it has returned. -/
theorem exchanges_atomic (hs : (exchanges ι v).Reachable s) :
    Follows IntOp.exec v s.executed ∧ s.value = lastLeft IntOp.exec v s.executed ∧
      ∀ r ∈ s.returned, r.1 ∈ s.executed ∧ r.2 = r.1.op.returns r.1.found := by
  have h := exchanges_ordered hs
  refine ⟨h.history, h.value, ?_⟩
  intro r hr
  obtain ⟨pending, hpending⟩ := h.pending
  refine ⟨?_, h.returned r hr⟩
  rw [hpending.executed.mem_iff]
  exact List.mem_append_left _ (List.mem_map_of_mem hr)

/-- A `test_and_set` only returns zero when, since each earlier one, another operation has cleared
the bit. -/
theorem testAndSet_exclusive {y : Executed ι} {post mid pre : List (Executed ι)}
    (hs : (exchanges ι v).Reachable s) (hy : (y, some 0) ∈ s.returned)
    (hxop : x.op = .testAndSet) (hyop : y.op = .testAndSet)
    (horder : s.executed = post ++ y :: (mid ++ x :: pre)) :
    ∃ z ∈ mid, z.op ≠ .testAndSet ∧ (z.op.exec z.found).getLsbD 0 = false := by
  obtain ⟨hfollows, _, hreturned⟩ := exchanges_atomic hs
  have hyzero := (hreturned _ hy).2.symm
  rw [hyop, IntOp.testAndSet_returns_zero] at hyzero
  have hxset : ¬(x.op.exec x.found).getLsbD 0 = false := by
    rw [hxop, IntOp.testAndSet_bit]
    decide
  rw [horder] at hfollows
  have hlater : Follows IntOp.exec v (y :: (mid ++ x :: pre)) := hfollows.of_append
  obtain ⟨z, hz, _, hclear⟩ := hlater.between (P := fun value => value.getLsbD 0 = false)
    hxset hyzero
  refine ⟨z, hz, ?_, hclear⟩
  intro hzop
  rw [hzop, IntOp.testAndSet_bit] at hclear
  cases hclear

/-- The value that an exchange puts in the place of the old one. -/
def IntOp.newval : IntOp → Option (BitVec 32)
  | .atomicXchg newval => some newval
  | .counting _ | .testAndSet | .store _ => none

theorem IntState.Pending.eq_nil (h : s.Pending pending) (hidle : ∀ t, s.calling t = none) :
    pending = [] := by
  rw [List.eq_nil_iff_forall_not_mem]
  intro x hx
  have hfilter := h.calling x.thread
  rw [hidle, Option.toList_none, List.filter_eq_nil_iff] at hfilter
  exact hfilter x hx (by simp)

/-- When all calls have returned, exchanges have handed out every value that was put in but the
last one, each of them once. -/
theorem exchanges_conserved (hs : (exchanges ι v).Reachable s) (hidle : ∀ t, s.calling t = none)
    (hops : ∀ x ∈ s.executed, x.op.newval.isSome) :
    (some v :: s.executed.map fun x => x.op.newval).Perm
      (some s.value :: s.returned.map Prod.snd) := by
  have h := exchanges_ordered hs
  have hput : ∀ x ∈ s.executed, x.op.newval = some (x.op.exec x.found) ∧
      x.op.returns x.found = some x.found := by
    intro x hx
    have hsome := hops x hx
    cases hop : x.op with
    | atomicXchg newval => exact ⟨rfl, rfl⟩
    | counting op | testAndSet | store newval =>
      rw [hop] at hsome
      cases hsome
  let put (op : IntOp) : BitVec 32 := op.newval.getD 0
  obtain ⟨pending, hpending⟩ := h.pending
  have hall := hpending.executed
  rw [hpending.eq_nil hidle, List.append_nil] at hall
  have hnew : (s.executed.map fun x => x.op.newval) =
      (s.executed.map fun x => put x.op).map some := by
    rw [List.map_map]
    apply List.map_congr_left
    intro x hx
    show x.op.newval = some (x.op.newval.getD 0)
    rw [(hput x hx).1, Option.getD_some]
  have hold : (s.returned.map Prod.snd).Perm ((s.executed.map Observed.found).map some) := by
    refine List.Perm.trans ?_ ((hall.symm.map Observed.found).map some)
    rw [List.map_map, List.map_map]
    refine .of_eq (List.map_congr_left fun r hr => ?_)
    have hmem : r.1 ∈ s.executed := hall.mem_iff.mpr (List.mem_map_of_mem hr)
    rw [h.returned r hr, (hput _ hmem).2]
    rfl
  have hleft : ∀ x ∈ s.executed, x.op.exec x.found = put x.op := by
    intro x hx
    show _ = x.op.newval.getD 0
    rw [(hput x hx).1, Option.getD_some]
  have hexchanged := h.history.exchanged hleft
  rw [← h.value] at hexchanged
  rw [hnew]
  exact (hexchanged.map some).trans (hold.symm.cons _)

end Threads

def IntState.fresh {ι : Type} (v : BitVec 32) (todo : ι → List IntOp) : IntState ι where
  value := v
  todo := todo
  registers _ := ⟨false, false, 0⟩
  calling _ := none
  executed := []
  returned := []

theorem IntState.fresh_reachable {ι : Type} [DecidableEq ι] (v : BitVec 32)
    (todo : ι → List IntOp) : (exchanges ι v).Reachable (.fresh v todo) :=
  .init ⟨rfl, rfl, rfl, fun _ => rfl⟩

theorem testAndSet_exclusive_released :
    ∃ s, (exchanges Bool 0).Reachable s ∧ s.returned.map Prod.snd = [some 0, none, some 0] ∧
      ∃ z ∈ s.executed, z.op ≠ .testAndSet ∧ (z.op.exec z.found).getLsbD 0 = false := by
  have hresult : ((exchanges Bool 0).run [false, false, false, false, true, true]
      (.fresh 0 fun t => if t then [.testAndSet] else [.testAndSet, .store 0])).map
        (fun s => (s.executed, s.returned)) =
      some ([⟨true, .testAndSet, 0⟩, ⟨false, .store 0, 1⟩, ⟨false, .testAndSet, 0⟩],
        [(⟨true, .testAndSet, 0⟩, some 0), (⟨false, .store 0, 1⟩, none),
          (⟨false, .testAndSet, 0⟩, some 0)]) := by
    decide
  obtain ⟨s, hrun, hs⟩ := Option.map_eq_some_iff.mp hresult
  obtain ⟨hexecuted, hreturned⟩ := Prod.mk.inj hs
  have hreachable := (IntState.fresh_reachable 0 _).run hrun
  have horder : s.executed = [] ++ ⟨true, .testAndSet, 0⟩ ::
      ([⟨false, .store 0, 1⟩] ++ ⟨false, .testAndSet, 0⟩ :: []) := hexecuted
  obtain ⟨z, hz, hchange⟩ := testAndSet_exclusive hreachable (by simp [hreturned]) rfl rfl horder
  refine ⟨s, hreachable, by rw [hreturned]; rfl, z, ?_, hchange⟩
  rw [horder]
  exact List.mem_cons_of_mem _ (List.mem_append_left _ hz)

theorem exchanges_conserved_two :
    ∃ s, (exchanges Bool 5).Reachable s ∧ s.returned.map Prod.snd = [some 5, some 6] ∧
      [some 5, some 7, some 6].Perm (some s.value :: s.returned.map Prod.snd) := by
  have hresult : ((exchanges Bool 5).run [false, true, true, false]
      (.fresh 5 fun t => if t then [.atomicXchg 7] else [.atomicXchg 6])).map
        (fun s => (s.executed, s.returned.map Prod.snd, (s.calling false).isNone,
          (s.calling true).isNone)) =
      some ([⟨true, .atomicXchg 7, 6⟩, ⟨false, .atomicXchg 6, 5⟩], [some 5, some 6], true,
        true) := by
    decide
  obtain ⟨s, hrun, hs⟩ := Option.map_eq_some_iff.mp hresult
  simp only [Prod.mk.injEq, Option.isNone_iff_eq_none] at hs
  obtain ⟨hexecuted, hreturned, hidle, hidle'⟩ := hs
  have hreachable := (IntState.fresh_reachable 5 _).run hrun
  have hconserved := exchanges_conserved hreachable
    (fun t => by cases t; exacts [hidle, hidle']) (by simp [hexecuted, IntOp.newval])
  rw [hexecuted] at hconserved
  exact ⟨s, hreachable, hreturned, hconserved⟩

end TxDriver
