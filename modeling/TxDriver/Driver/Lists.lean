import TxDriver.Framework.Exec
import TxDriver.Framework.Ring

/-!
# Lists

The circular lists of `list.h`. A `struct list_head` is a node, whatever it is embedded in, and a
pointer to one may be wild: null, or one of the two values that `list_del` leaves in an entry.
Following such a pointer is a fault. Every function is a few stores; what they come to in terms
of nodes that follow one another is stated beside it.
-/

namespace TxDriver

/-- `NULL`, `LIST_POISON1` and `LIST_POISON2`. -/
inductive WildPointer where
  | null
  | listPoison1
  | listPoison2
  deriving DecidableEq, Repr

namespace Lists

/-- The `next` and `prev` of all list heads. -/
abbrev Memory (α : Type) := Links WildPointer α

abbrev Ptr (α : Type) := Pointer WildPointer α

abbrev ListM (α β : Type) := Exec WildPointer (Memory α) β

section Functions

variable {α : Type} [DecidableEq α]

def deref : Ptr α → ListM α α
  | .node a => pure a
  | .wild w => Exec.stop (.fault w)

def loadNext (p : Ptr α) : ListM α (Ptr α) := do
  let a ← deref p
  let m ← Exec.get
  pure (m.next a)

def loadPrev (p : Ptr α) : ListM α (Ptr α) := do
  let a ← deref p
  let m ← Exec.get
  pure (m.prev a)

def storeNext (p q : Ptr α) : ListM α Unit := do
  let a ← deref p
  Exec.modify (·.setNext a q)

def storePrev (p q : Ptr α) : ListM α Unit := do
  let a ← deref p
  Exec.modify (·.setPrev a q)

/-- `INIT_LIST_HEAD`. -/
def initListHead (list : Ptr α) : ListM α Unit := do
  storeNext list list
  storePrev list list

/-- `__list_add`. -/
def listAddBetween (new prev next : Ptr α) : ListM α Unit := do
  storePrev next new
  storeNext new next
  storePrev new prev
  storeNext prev new

def listAdd (new head : Ptr α) : ListM α Unit := do
  let next ← loadNext head
  listAddBetween new head next

def listAddTail (new head : Ptr α) : ListM α Unit := do
  let prev ← loadPrev head
  listAddBetween new prev head

/-- `__list_del`. -/
def listDelBetween (prev next : Ptr α) : ListM α Unit := do
  storePrev next prev
  storeNext prev next

/-- `__list_del_entry`. -/
def listDelEntry (entry : Ptr α) : ListM α Unit := do
  let prev ← loadPrev entry
  let next ← loadNext entry
  listDelBetween prev next

def listDel (entry : Ptr α) : ListM α Unit := do
  listDelEntry entry
  storeNext entry (.wild .listPoison1)
  storePrev entry (.wild .listPoison2)

/-- `list_replace`. The neighbours are read back from `new`, and `old->prev` only after the first
of them has been changed. -/
def listReplace (old new : Ptr α) : ListM α Unit := do
  let next ← loadNext old
  storeNext new next
  let next ← loadNext new
  storePrev next new
  let prev ← loadPrev old
  storePrev new prev
  let prev ← loadPrev new
  storeNext prev new

def listReplaceInit (old new : Ptr α) : ListM α Unit := do
  listReplace old new
  initListHead old

def listDelInit (entry : Ptr α) : ListM α Unit := do
  listDelEntry entry
  initListHead entry

def listMove (list head : Ptr α) : ListM α Unit := do
  listDelEntry list
  listAdd list head

def listMoveTail (list head : Ptr α) : ListM α Unit := do
  listDelEntry list
  listAddTail list head

def listIsLast (list head : Ptr α) : ListM α Bool := do
  let next ← loadNext list
  pure (next = head)

def listEmpty (head : Ptr α) : ListM α Bool := do
  let next ← loadNext head
  pure (next = head)

def listEmptyCareful (head : Ptr α) : ListM α Bool := do
  let next ← loadNext head
  if next = head then do
    let prev ← loadPrev head
    pure (next = prev)
  else pure false

def listRotateLeft (head : Ptr α) : ListM α Unit := do
  if ← listEmpty head then pure ()
  else do
    let first ← loadNext head
    listMoveTail first head

def listIsSingular (head : Ptr α) : ListM α Bool := do
  if ← listEmpty head then pure false
  else do
    let next ← loadNext head
    let prev ← loadPrev head
    pure (next = prev)

/-- `__list_cut_position`. -/
def listCutBetween (list head entry : Ptr α) : ListM α Unit := do
  let newFirst ← loadNext entry
  let next ← loadNext head
  storeNext list next
  let next ← loadNext list
  storePrev next list
  storePrev list entry
  storeNext entry list
  storeNext head newFirst
  storePrev newFirst head

/-- The second test of `list_cut_position`: a list of one entry, and another entry is asked for. -/
def cutMisses (head entry : Ptr α) : ListM α Bool := do
  if ← listIsSingular head then do
    let next ← loadNext head
    pure (next ≠ entry ∧ head ≠ entry)
  else pure false

def listCutPosition (list head entry : Ptr α) : ListM α Unit := do
  if ← listEmpty head then pure ()
  else if ← cutMisses head entry then pure ()
  else if entry = head then initListHead list
  else listCutBetween list head entry

/-- `__list_splice`. -/
def listSpliceBetween (list prev next : Ptr α) : ListM α Unit := do
  let first ← loadNext list
  let last ← loadPrev list
  storePrev first prev
  storeNext prev first
  storeNext last next
  storePrev next last

def listSplice (list head : Ptr α) : ListM α Unit := do
  if ← listEmpty list then pure ()
  else do
    let next ← loadNext head
    listSpliceBetween list head next

def listSpliceTail (list head : Ptr α) : ListM α Unit := do
  if ← listEmpty list then pure ()
  else do
    let prev ← loadPrev head
    listSpliceBetween list prev head

def listSpliceInit (list head : Ptr α) : ListM α Unit := do
  if ← listEmpty list then pure ()
  else do
    let next ← loadNext head
    listSpliceBetween list head next
    initListHead list

def listSpliceTailInit (list head : Ptr α) : ListM α Unit := do
  if ← listEmpty list then pure ()
  else do
    let prev ← loadPrev head
    listSpliceBetween list prev head
    initListHead list

end Functions

section Runs

variable {α : Type} {m : Memory α} {a : α}

@[simp] theorem loadNext_node : (loadNext (.node a)).run m = .ok (m.next a, m) := rfl

@[simp] theorem loadPrev_node : (loadPrev (.node a)).run m = .ok (m.prev a, m) := rfl

variable [DecidableEq α] {b e n p h new old list head entry : α} {l l' r : List α}

@[simp] theorem storeNext_node {q : Ptr α} :
    (storeNext (.node a) q).run m = .ok ((), m.setNext a q) := rfl

@[simp] theorem storePrev_node {q : Ptr α} :
    (storePrev (.node a) q).run m = .ok ((), m.setPrev a q) := rfl

theorem initListHead_run : (initListHead (.node a)).run m = .ok ((), m.link a a) := rfl

theorem listAddBetween_run :
    (listAddBetween (.node new) (.node p) (.node n)).run m =
      .ok ((), (m.link new n).link p new) := rfl

theorem listAdd_run (hr : m.Ring h l) :
    (listAdd (.node new) (.node h)).run m =
      .ok ((), (m.link new (l.headD h)).link h new) := by
  rw [listAdd]
  apply Exec.run_seq loadNext_node
  rw [hr.next_head]
  exact listAddBetween_run

theorem listAddTail_run (hr : m.Ring h l) :
    (listAddTail (.node new) (.node h)).run m =
      .ok ((), (m.link new h).link (l.getLastD h) new) := by
  rw [listAddTail]
  apply Exec.run_seq loadPrev_node
  rw [hr.prev_head]
  exact listAddBetween_run

theorem listDelEntry_run (hp : m.prev e = .node p) (hn : m.next e = .node n) :
    (listDelEntry (.node e)).run m = .ok ((), m.link p n) := by
  rw [listDelEntry]
  apply Exec.run_seq loadPrev_node
  apply Exec.run_seq loadNext_node
  rw [hp, hn]
  rfl

theorem listReplace_run (new : α) (hp : m.prev old = .node p) (hn : m.next old = .node n)
    (hne : old ≠ n) :
    (listReplace (.node old) (.node new)).run m = .ok ((), (m.link new n).link p new) := by
  rw [listReplace]
  apply Exec.run_seq loadNext_node
  apply Exec.run_seq storeNext_node
  apply Exec.run_seq loadNext_node
  rw [Links.setNext_next_self, hn]
  apply Exec.run_seq storePrev_node
  apply Exec.run_seq loadPrev_node
  rw [Links.setPrev_prev_of_ne hne, Links.setNext_prev, hp]
  apply Exec.run_seq storePrev_node
  apply Exec.run_seq loadPrev_node
  rw [Links.setPrev_prev_self]
  rfl

/-- Replacing the head of an empty list overwrites its `prev`, and is right about the new one. -/
theorem listReplace_empty (hr : m.Ring old []) :
    (listReplace (.node old) (.node new)).run m = .ok ((), (m.link new old).link new new) := by
  rw [listReplace]
  apply Exec.run_seq loadNext_node
  apply Exec.run_seq storeNext_node
  apply Exec.run_seq loadNext_node
  rw [Links.setNext_next_self, hr.next_head]
  apply Exec.run_seq storePrev_node
  apply Exec.run_seq loadPrev_node
  rw [List.headD_nil, Links.setPrev_prev_self]
  apply Exec.run_seq storePrev_node
  apply Exec.run_seq loadPrev_node
  rw [Links.setPrev_prev_self]
  rfl

theorem listEmpty_run : (listEmpty (.node a)).run m = .ok (decide (m.next a = .node a), m) := rfl

theorem listEmpty_head (hr : m.Ring h l) :
    (listEmpty (.node h)).run m = .ok (decide (l = []), m) := by
  rw [listEmpty_run, decide_eq_decide.mpr hr.next_eq_head_iff]

theorem listEmpty_entry (hr : m.Ring h (l ++ e :: r)) :
    (listEmpty (.node e)).run m = .ok (false, m) := by
  rw [listEmpty_run, decide_eq_false hr.next_entry_ne]

theorem listEmptyCareful_head (hr : m.Ring h l) :
    (listEmptyCareful (.node h)).run m = .ok (decide (l = []), m) := by
  rw [listEmptyCareful]
  apply Exec.run_seq loadNext_node
  by_cases hl : l = []
  · subst hl
    rw [hr.next_head, List.headD_nil, if_pos rfl]
    apply Exec.run_seq loadPrev_node
    rw [hr.prev_head, List.getLastD_nil, decide_eq_true rfl, decide_eq_true rfl]
    rfl
  · rw [if_neg (mt hr.next_eq_head_iff.mp hl), decide_eq_false hl]
    rfl

theorem listEmptyCareful_entry (hr : m.Ring h (l ++ e :: r)) :
    (listEmptyCareful (.node e)).run m = .ok (false, m) := by
  rw [listEmptyCareful]
  apply Exec.run_seq loadNext_node
  rw [if_neg hr.next_entry_ne]
  rfl

theorem listIsSingular_run (hr : m.Ring h l) :
    (listIsSingular (.node h)).run m = .ok (decide (l.length = 1), m) := by
  rw [listIsSingular]
  apply Exec.run_seq (listEmpty_head hr)
  by_cases hl : l = []
  · subst hl
    rfl
  · rw [decide_eq_false hl, if_neg Bool.false_ne_true]
    apply Exec.run_seq loadNext_node
    apply Exec.run_seq loadPrev_node
    rw [decide_eq_decide.mpr (hr.next_eq_prev_iff hl)]
    rfl

theorem cutMisses_run (hr : m.Ring h l) :
    (cutMisses (.node h) (.node e)).run m =
      .ok (decide (l.length = 1 ∧ e ∉ h :: l), m) := by
  rw [cutMisses]
  apply Exec.run_seq (listIsSingular_run hr)
  by_cases hl : l.length = 1
  · obtain ⟨a, rfl⟩ := List.length_eq_one_iff.mp hl
    rw [decide_eq_true hl, if_pos rfl]
    apply Exec.run_seq loadNext_node
    rw [hr.next_head]
    have hiff : (Pointer.node a ≠ (.node e : Ptr α) ∧ Pointer.node h ≠ (.node e : Ptr α)) ↔
        [a].length = 1 ∧ e ∉ [h, a] := by
      simp [eq_comm, and_comm]
    rw [← decide_eq_decide.mpr hiff]
    rfl
  · rw [decide_eq_false hl, decide_eq_false fun h => hl h.1]
    rfl

theorem listSpliceBetween_run (hp : m.prev list = .node b) (hn : m.next list = .node a) :
    (listSpliceBetween (.node list) (.node p) (.node n)).run m =
      .ok ((), (m.link p a).link b n) := by
  rw [listSpliceBetween]
  apply Exec.run_seq loadNext_node
  apply Exec.run_seq loadPrev_node
  rw [hp, hn]
  rfl

theorem listCutBetween_run (list : α) (hn : m.next e = .node n) (ha : m.next h = .node a) :
    (listCutBetween (.node list) (.node h) (.node e)).run m =
      .ok ((), ((m.link list a).link e list).link h n) := by
  rw [listCutBetween]
  apply Exec.run_seq loadNext_node
  apply Exec.run_seq loadNext_node
  apply Exec.run_seq storeNext_node
  apply Exec.run_seq loadNext_node
  rw [Links.setNext_next_self, hn, ha]
  rfl

end Runs

end Lists

end TxDriver
