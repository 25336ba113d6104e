import Mathlib.Algebra.BigOperators.Group.List.Basic
import Mathlib.Algebra.Group.Defs

/-!
# Histories of a shared value

Several threads perform operations on one value of an additive group, each of which adds something
to it. A history lists what was performed, the last operation first, with the value that each
operation left. Of two accounts of what the operations add, a history that bears out the one bears
out the other as far as they agree. Where operations do more than add, a history has the value that
each of them found instead.
-/

namespace TxDriver

structure Performed (ι α G : Type) where
  thread : ι
  op : α
  left : G
  deriving DecidableEq

section History

variable {ι α G : Type} [AddLeftCancelMonoid G]

/-- What a history comes to when every operation `op` adds `δ op`. -/
def addedBy (δ : α → G) (log : List (Performed ι α G)) : G := (log.map fun x => δ x.op).sum

/-- Every operation left the value `v` with all that had been added until then. -/
def Leaves (δ : α → G) (v : G) : List (Performed ι α G) → Prop
  | [] => True
  | x :: log => x.left = v + addedBy δ (x :: log) ∧ Leaves δ v log

variable {δ δ' : α → G} {v : G} {log : List (Performed ι α G)}

@[simp] theorem addedBy_nil : addedBy δ ([] : List (Performed ι α G)) = 0 := rfl

@[simp] theorem addedBy_cons (x : Performed ι α G) :
    addedBy δ (x :: log) = δ x.op + addedBy δ log := List.sum_cons

theorem addedBy_congr (h : ∀ x ∈ log, δ' x.op = δ x.op) : addedBy δ' log = addedBy δ log :=
  congrArg List.sum (List.map_congr_left h)

theorem leaves_congr (h : ∀ x ∈ log, δ' x.op = δ x.op) : Leaves δ' v log ↔ Leaves δ v log := by
  induction log with
  | nil => exact Iff.rfl
  | cons x log ih =>
    have hlog : ∀ y ∈ log, δ' y.op = δ y.op := fun y hy => h y (List.mem_cons_of_mem x hy)
    rw [Leaves, Leaves, addedBy_congr h, ih hlog]

end History

/-- Two accounts bear out the same history exactly when they agree on all of its operations. -/
theorem leaves_iff_agree {ι α G : Type} [AddCancelMonoid G] {δ δ' : α → G} {v : G}
    {log : List (Performed ι α G)} (h : Leaves δ v log) :
    Leaves δ' v log ↔ ∀ x ∈ log, δ' x.op = δ x.op := by
  refine ⟨?_, fun hagree => (leaves_congr hagree).mpr h⟩
  induction log with
  | nil => simp
  | cons x log ih =>
    intro h'
    have hlog := ih h.2 h'.2
    have hsum := h'.1.symm.trans h.1
    simp only [addedBy_cons, addedBy_congr hlog] at hsum
    have hx : δ' x.op = δ x.op := add_right_cancel (add_left_cancel hsum)
    exact List.forall_mem_cons.mpr ⟨hx, hlog⟩

structure Observed (ι α V : Type) where
  thread : ι
  op : α
  found : V
  deriving DecidableEq

section Observations

variable {ι α V : Type}

/-- The value after a history that starts from `v`, when the operation `op` turns a value `x` into
`exec op x`. -/
def lastLeft (exec : α → V → V) (v : V) : List (Observed ι α V) → V
  | [] => v
  | x :: _ => exec x.op x.found

/-- Every operation found the value that the one before it had left. -/
def Follows (exec : α → V → V) (v : V) : List (Observed ι α V) → Prop
  | [] => True
  | x :: log => x.found = lastLeft exec v log ∧ Follows exec v log

variable {exec : α → V → V} {v : V} {x y : Observed ι α V}
  {log post mid pre : List (Observed ι α V)}

theorem Follows.of_append (h : Follows exec v (post ++ log)) : Follows exec v log := by
  induction post with
  | nil => exact h
  | cons w post ih => exact ih h.2

/-- What does not hold after one operation and holds before a later one was brought about by an
operation between them. -/
theorem Follows.between {P : V → Prop} (h : Follows exec v (y :: (mid ++ x :: pre)))
    (hx : ¬P (exec x.op x.found)) (hy : P y.found) :
    ∃ z ∈ mid, ¬P z.found ∧ P (exec z.op z.found) := by
  induction mid generalizing y with
  | nil =>
    rw [show y.found = exec x.op x.found from h.1] at hy
    exact absurd hy hx
  | cons w mid ih =>
    rw [show y.found = exec w.op w.found from h.1] at hy
    by_cases hfound : P w.found
    · obtain ⟨z, hz, hchange⟩ := ih h.2 hfound
      exact ⟨z, List.mem_cons_of_mem w hz, hchange⟩
    · exact ⟨w, List.mem_cons_self, hfound, hy⟩

/-- Operations that put a value of their own in the place of the old one neither lose a value nor
find one twice. -/
theorem Follows.exchanged {put : α → V} (h : Follows exec v log)
    (hput : ∀ x ∈ log, exec x.op x.found = put x.op) :
    (v :: log.map fun x => put x.op).Perm (lastLeft exec v log :: log.map Observed.found) := by
  induction log with
  | nil => exact .refl _
  | cons x log ih =>
    have hrest := ih h.2 fun y hy => hput y (List.mem_cons_of_mem x hy)
    rw [← h.1] at hrest
    rw [lastLeft, hput x List.mem_cons_self]
    exact (List.Perm.swap _ _ _).trans (hrest.cons (put x.op))

end Observations

end TxDriver
