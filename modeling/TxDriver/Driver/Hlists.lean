import TxDriver.Framework.Chain
import TxDriver.Driver.Lists

/-!
# Hash lists

The lists of `list.h` with a single pointer in the head. A `struct hlist_node` has a pointer to the
pointer that leads to it, so that no entry has to be treated as the first one. A node that is on no
list may say so, may pretend to be on one, or may have been poisoned.
-/

namespace TxDriver

namespace Hlists

/-- The `first` of all heads, and the `next` and `pprev` of all nodes. -/
abbrev Memory (η α : Type) := Slots WildPointer η α

abbrev Ptr (α : Type) := Pointer WildPointer α

/-- A `struct hlist_node **`. -/
abbrev SlotPtr (η α : Type) := Pointer WildPointer (Slot η α)

abbrev HlistM (η α β : Type) := Exec WildPointer (Memory η α) β

section Functions

variable {η α τ : Type} [DecidableEq η] [DecidableEq α]

def deref : Pointer WildPointer τ → HlistM η α τ
  | .node a => pure a
  | .wild w => Exec.stop (.fault w)

def loadSlot (q : SlotPtr η α) : HlistM η α (Ptr α) := do
  let s ← deref q
  let m ← Exec.get
  pure (m.value s)

def storeSlot (q : SlotPtr η α) (p : Ptr α) : HlistM η α Unit := do
  let s ← deref q
  Exec.modify (·.setValue s p)

/-- `&n->next`. -/
def addrNext (n : Ptr α) : HlistM η α (SlotPtr η α) := do
  let a ← deref n
  pure (.node (.next a))

def loadNext (n : Ptr α) : HlistM η α (Ptr α) := do
  let q ← addrNext n
  loadSlot q

def storeNext (n p : Ptr α) : HlistM η α Unit := do
  let q ← addrNext n
  storeSlot q p

def loadPprev (n : Ptr α) : HlistM η α (SlotPtr η α) := do
  let a ← deref n
  let m ← Exec.get
  pure (m.back a)

def storePprev (n : Ptr α) (q : SlotPtr η α) : HlistM η α Unit := do
  let a ← deref n
  Exec.modify (·.setBack a q)

/-- `if (next) next->pprev = pprev`. -/
def updatePprev (next : Ptr α) (pprev : SlotPtr η α) : HlistM η α Unit :=
  if next = .wild .null then pure ()
  else storePprev next pprev

/-- `&h->first`. -/
def addrFirst (h : η) : SlotPtr η α := .node (.first h)

/-- `INIT_HLIST_HEAD`. -/
def initHlistHead (h : η) : HlistM η α Unit := storeSlot (addrFirst h) (.wild .null)

/-- `INIT_HLIST_NODE`. -/
def initHlistNode (h : Ptr α) : HlistM η α Unit := do
  storeNext h (.wild .null)
  storePprev h (.wild .null)

def hlistUnhashed (h : Ptr α) : HlistM η α Bool := do
  let pprev ← loadPprev h
  pure (pprev = .wild .null)

def hlistEmpty (h : η) : HlistM η α Bool := do
  let first ← loadSlot (addrFirst h)
  pure (first = .wild .null)

/-- `__hlist_del`. -/
def hlistDelNode (n : Ptr α) : HlistM η α Unit := do
  let next ← loadNext n
  let pprev ← loadPprev n
  storeSlot pprev next
  updatePprev next pprev

def hlistDel (n : Ptr α) : HlistM η α Unit := do
  hlistDelNode n
  storeNext n (.wild .listPoison1)
  storePprev n (.wild .listPoison2)

def hlistDelInit (n : Ptr α) : HlistM η α Unit := do
  if ← hlistUnhashed n then pure ()
  else do
    hlistDelNode n
    initHlistNode n

def hlistAddHead (n : Ptr α) (h : η) : HlistM η α Unit := do
  let first ← loadSlot (addrFirst h)
  storeNext n first
  let q ← addrNext n
  updatePprev first q
  storeSlot (addrFirst h) n
  storePprev n (addrFirst h)

def hlistAddBefore (n next : Ptr α) : HlistM η α Unit := do
  let pprev ← loadPprev next
  storePprev n pprev
  storeNext n next
  let q ← addrNext n
  storePprev next q
  let pprev ← loadPprev n
  storeSlot pprev n

/-- The entry is `n`, and what is added behind it is `next`. -/
def hlistAddAfter (n next : Ptr α) : HlistM η α Unit := do
  let after ← loadNext n
  storeNext next after
  storeNext n next
  let q ← addrNext n
  storePprev next q
  let after ← loadNext next
  let q ← addrNext next
  updatePprev after q

def hlistAddFake (n : Ptr α) : HlistM η α Unit := do
  let q ← addrNext n
  storePprev n q

def hlistMoveList (old new : η) : HlistM η α Unit := do
  let first ← loadSlot (addrFirst old)
  storeSlot (addrFirst new) first
  let first ← loadSlot (addrFirst new)
  updatePprev first (addrFirst new)
  storeSlot (addrFirst old) (.wild .null)

end Functions

section Runs

variable {η α : Type} {m : Memory η α} {s : Slot η α} {h old : η} {a e n : α} {l r : List α}
  {p : Ptr α} {q : SlotPtr η α}

@[simp] theorem loadSlot_node : (loadSlot (.node s)).run m = .ok (m.value s, m) := rfl

@[simp] theorem addrNext_node :
    (addrNext (η := η) (.node a)).run m = .ok (.node (.next a), m) := rfl

@[simp] theorem loadNext_node : (loadNext (.node a)).run m = .ok (m.value (.next a), m) := rfl

@[simp] theorem loadPprev_node : (loadPprev (.node a)).run m = .ok (m.back a, m) := rfl

theorem firstOf_eq_null : Pointer.firstOf WildPointer.null l = .wild .null ↔ l = [] := by
  cases l <;> simp [Pointer.firstOf]

variable [DecidableEq α]

@[simp] theorem storePprev_node :
    (storePprev (.node a) q).run m = .ok ((), m.setBack a q) := rfl

variable [DecidableEq η]

@[simp] theorem storeSlot_node : (storeSlot (.node s) p).run m = .ok ((), m.setValue s p) := rfl

@[simp] theorem storeNext_node :
    (storeNext (.node a) p).run m = .ok ((), m.setValue (.next a) p) := rfl

theorem initHlistHead_run :
    (initHlistHead h).run m = .ok ((), m.setValue (.first h) (.wild .null)) := rfl

theorem initHlistNode_run : (initHlistNode (.node a)).run m =
    .ok ((), (m.setValue (.next a) (.wild .null)).setBack a (.wild .null)) := rfl

omit [DecidableEq η] in
theorem updatePprev_nil : (updatePprev (.firstOf .null []) q).run m = .ok ((), m) := rfl

omit [DecidableEq η] in
theorem updatePprev_cons :
    (updatePprev (.firstOf .null (a :: l)) q).run m = .ok ((), m.setBack a q) := rfl

/-- A slot that has been made to lead to the first node of a list becomes what leads to it. -/
theorem updatePprev_connects :
    (updatePprev (.firstOf .null l) (.node s)).run (m.setValue s (.firstOf .null l)) =
      .ok ((), m.connect s (.firstOf .null l)) := by
  cases l with
  | nil => exact updatePprev_nil
  | cons b l => exact updatePprev_cons

theorem hlistUnhashed_run :
    (hlistUnhashed (.node a)).run m = .ok (decide (m.back a = .wild .null), m) := rfl

omit [DecidableEq η] in
theorem hlistEmpty_run (hh : m.value (.first h) = .firstOf .null l) :
    (hlistEmpty h).run m = .ok (decide (l = []), m) := by
  rw [hlistEmpty]
  apply Exec.run_seq (loadSlot_node (s := .first h))
  rw [hh, decide_eq_decide.mpr firstOf_eq_null]
  rfl

theorem hlistDelNode_run (hback : m.back e = .node s)
    (hnext : m.value (.next e) = .firstOf .null r) :
    (hlistDelNode (.node e)).run m = .ok ((), m.connect s (.firstOf .null r)) := by
  rw [hlistDelNode]
  apply Exec.run_seq loadNext_node
  apply Exec.run_seq loadPprev_node
  rw [hback, hnext]
  apply Exec.run_seq storeSlot_node
  exact updatePprev_connects

theorem hlistAddHead_run (hh : m.value (.first h) = .firstOf .null l) :
    (hlistAddHead (.node n) h).run m =
      .ok ((), (m.connect (.next n) (.firstOf .null l)).connect (.first h) (.node n)) := by
  rw [hlistAddHead]
  apply Exec.run_seq (loadSlot_node (s := .first h))
  rw [hh]
  apply Exec.run_seq storeNext_node
  apply Exec.run_seq addrNext_node
  apply Exec.run_seq updatePprev_connects
  rfl

theorem hlistAddBefore_run (hback : m.back e = .node s) (hne : n ≠ e) :
    (hlistAddBefore (.node n) (.node e)).run m =
      .ok ((), (m.connect (.next n) (.node e)).connect s (.node n)) := by
  rw [hlistAddBefore]
  apply Exec.run_seq loadPprev_node
  rw [hback]
  apply Exec.run_seq storePprev_node
  apply Exec.run_seq storeNext_node
  apply Exec.run_seq addrNext_node
  apply Exec.run_seq storePprev_node
  apply Exec.run_seq loadPprev_node
  rw [Slots.setBack_back_of_ne hne, Slots.setValue_back, Slots.setBack_back_self]
  change _ = Except.ok ((), (((m.setValue (.next n) (.node e)).setBack e
    (.node (.next n))).setValue s (.node n)).setBack n (.node s))
  rw [storeSlot_node, Slots.setBack_setValue, Slots.setBack_setValue, Slots.setBack_setValue,
    Slots.setBack_setValue, Slots.setBack_comm hne]

theorem hlistAddAfter_run (hnext : m.value (.next e) = .firstOf .null r) (hne : n ≠ e)
    (hr : n ∉ r) :
    (hlistAddAfter (.node e) (.node n)).run m =
      .ok ((), (m.connect (.next n) (.firstOf .null r)).connect (.next e) (.node n)) := by
  rw [hlistAddAfter]
  apply Exec.run_seq loadNext_node
  apply Exec.run_seq storeNext_node
  apply Exec.run_seq storeNext_node
  apply Exec.run_seq addrNext_node
  apply Exec.run_seq storePprev_node
  apply Exec.run_seq loadNext_node
  apply Exec.run_seq addrNext_node
  have hslot : Slot.next (η := η) n ≠ .next e := fun h => hne (Slot.next.inj h)
  rw [hnext, Slots.setBack_value, Slots.setValue_value_of_ne hslot, Slots.setValue_value_self]
  cases r with
  | nil => rfl
  | cons b r =>
    have hbn : b ≠ n := fun h => hr (h ▸ List.mem_cons_self)
    rw [updatePprev_cons, Slots.setBack_comm hbn.symm]
    rfl

theorem hlistMoveList_run (new : η) (hold : m.value (.first old) = .firstOf .null l) :
    (hlistMoveList old new).run m = .ok ((),
      (m.connect (.first new) (.firstOf .null l)).setValue (.first old) (.wild .null)) := by
  rw [hlistMoveList]
  apply Exec.run_seq (loadSlot_node (s := .first old))
  rw [hold]
  apply Exec.run_seq (storeSlot_node (s := .first new))
  apply Exec.run_seq (loadSlot_node (s := .first new))
  rw [Slots.setValue_value_self]
  apply Exec.run_seq updatePprev_connects
  rfl

end Runs

end Hlists

end TxDriver
