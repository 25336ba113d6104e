import TxDriver.Framework.Exec
import TxDriver.Framework.Heap
import TxDriver.Driver.OnDisk

/-!
# The process and its platform

The memory and the globals that the driver's functions share, and what they get from outside:
the outcomes of allocations, of the NVMe probe, of the commands and of `pthread_create`. Every
outcome is an arbitrary function of the number of requests made before, so a statement for all
platforms is one for every pattern of outcomes. The allocators of `txd_malloc.c` come last.
-/

namespace TxDriver

abbrev Sector := Fin lbaUnit → Byte

/-- `struct list_head`; a pointer to one is a block and an index into it. -/
structure ListHead where
  next : Option (Addr × Nat)
  prev : Option (Addr × Nat)
  deriving DecidableEq

structure TxdRevokeTable where
  hashSize : BitVec 32
  hashShift : BitVec 32
  hashTable : Option Addr

/-- `struct ctrlr_entry`, without the name it prints. -/
structure CtrlrEntry where
  ctrlr : Addr
  next : Option Addr

structure NsEntry where
  ctrlr : Addr
  ns : Nat
  next : Option Addr
  qpair : Option Nat

/-- The contents of a block. A `ctrlr` block is the SPDK driver's own record of an attached
controller; the bytes of a `buffer` are passed by value. -/
inductive Obj where
  | buffer
  | journal
  | bufferHead (bhBuf : TxdJSuperblock)
  | revokeTable (t : TxdRevokeTable)
  | listHeads (hs : Nat → ListHead)
  | ctrlr
  | ctrlrEntry (e : CtrlrEntry)
  | nsEntry (e : NsEntry)

/-- Memory faults. The first four are misuses of the controller and namespace registries. -/
inductive Fault where
  | nullHead
  | freedEntry (a : Addr)
  | entryFreedTwice (a : Addr)
  | detachedTwice (a : Addr)
  | nullBuffer
  | overrun (a : Addr)
  | freedBlock (a : Addr)
  | freedTwice (a : Addr)
  deriving DecidableEq, Repr

def Fault.OfRegistry : Fault → Prop
  | .nullHead | .freedEntry _ | .entryFreedTwice _ | .detachedTwice _ => True
  | .nullBuffer | .overrun _ | .freedBlock _ | .freedTwice _ => False

/-- A namespace as a probe reports it; `id` is its identity on the machine. -/
structure ReportedNs where
  id : Nat
  active : Bool

/-- An attached controller, by what `spdk_nvme_ctrlr_get_num_ns` and `spdk_nvme_ctrlr_get_ns` say of
it. -/
structure ReportedCtrlr where
  numNs : BitVec 32
  getNs : BitVec 32 → Option ReportedNs

/-- What `spdk_nvme_probe` does: the controllers it attaches, and its return code. -/
structure ProbeReport where
  rc : Int
  ctrlrs : List ReportedCtrlr

/-- How a submitted command ends: after `polls` polls without effect the next one delivers the
status, zero for success. A command that fails leaves `residue` in the buffer of a read and
`torn` in the sectors of a write. -/
structure Completion where
  polls : Nat
  status : Nat
  residue : Bytes
  torn : Nat → Sector

/-- Everything outside the driver, by the number of earlier requests of the same kind. Commands and
releases are given a queue pair, which may be the null pointer. -/
structure Platform where
  allocates : Nat → BitVec 64 → Bool
  probe : Nat → ProbeReport
  allocsQpair : Nat → Bool
  freeQpair : Nat → Option Nat → Int
  accepts : Nat → Option Nat → Bool
  beyond : Nat → Bytes
  completion : Nat → Completion
  pthreadCreate : Nat → Int

/-- Memory, globals and media, with the numbers of requests made so far. `released` lists the
calls of the accounting free functions: the block and the size it was freed with. -/
structure Process where
  heap : Heap Obj
  allocatedMemSize : BitVec 64
  released : List (Addr × BitVec 64)
  gControllers : Option Addr
  gNamespaces : Option Addr
  medium : Nat → Nat → Sector
  requests : Nat
  probes : Nat
  qpairs : Nat
  qpairFrees : Nat
  commands : Nat
  threads : Nat

abbrev Driver (α : Type) := Exec Fault Process α

def Process.start (medium : Nat → Nat → Sector) : Process where
  heap := .empty
  allocatedMemSize := 0
  released := []
  gControllers := none
  gNamespaces := none
  medium := medium
  requests := 0
  probes := 0
  qpairs := 0
  qpairFrees := 0
  commands := 0
  threads := 0

/-- The requests of the given sizes, made one after the other, all succeed. -/
def Platform.Grants (E : Platform) (k : Nat) : List (BitVec 64) → Prop
  | [] => True
  | size :: sizes => E.allocates k size = true ∧ E.Grants (k + 1) sizes

instance Platform.decidableGrants (E : Platform) :
    (k : Nat) → (sizes : List (BitVec 64)) → Decidable (E.Grants k sizes)
  | _, [] => .isTrue trivial
  | k, size :: sizes =>
    have := Platform.decidableGrants E (k + 1) sizes
    inferInstanceAs (Decidable (E.allocates k size = true ∧ E.Grants (k + 1) sizes))

theorem Platform.grants_append {E : Platform} {k : Nat} {xs ys : List (BitVec 64)} :
    E.Grants k (xs ++ ys) ↔ E.Grants k xs ∧ E.Grants (k + xs.length) ys := by
  induction xs generalizing k with
  | nil => simp [Grants]
  | cons x xs ih =>
    rw [List.cons_append, Grants, Grants, ih, List.length_cons, and_assoc]
    rw [show k + 1 + xs.length = k + (xs.length + 1) by omega]

theorem Platform.grants_of_allocates {E : Platform} (h : ∀ k size, E.allocates k size = true)
    (k : Nat) (sizes : List (BitVec 64)) : E.Grants k sizes := by
  induction sizes generalizing k with
  | nil => trivial
  | cons size sizes ih => exact ⟨h k size, ih (k + 1)⟩

/-- One controller with one active namespace, where every request succeeds at once. -/
def Platform.reliable : Platform where
  allocates _ _ := true
  probe _ := ⟨0, [⟨1, fun nsid => if nsid = 1 then some ⟨0, true⟩ else none⟩]⟩
  allocsQpair _ := true
  freeQpair _ _ := 0
  accepts _ _ := true
  beyond _ _ := 0
  completion _ := ⟨0, 0, fun _ => 0, fun _ _ => 0⟩
  pthreadCreate _ := 0

def Process.grant (p : Process) (size : BitVec 64) (obj : Obj) : Process :=
  { p with heap := p.heap.alloc size.toNat obj, requests := p.requests + 1 }

def Process.refuse (p : Process) : Process := { p with requests := p.requests + 1 }

/-- `malloc`, `calloc` and `spdk_dma_zmalloc`: the new block holds `obj`. -/
def allocBlock (E : Platform) (size : BitVec 64) (obj : Obj) : Driver (Option Addr) := fun p =>
  if E.allocates p.requests size then .ok (some p.heap.next, p.grant size obj)
  else .ok (none, p.refuse)

/-- `free` and `spdk_dma_free` of a block. -/
def freeBlock (a : Addr) : Driver Unit := fun p =>
  if p.heap.Live a then .ok ((), { p with heap := p.heap.free a })
  else .error (.fault (.freedTwice a))

def txdZmallocSpdk (E : Platform) (size : BitVec 64) (obj : Obj) : Driver (Option Addr) := do
  match ← allocBlock E size obj with
  | none => pure none
  | some a => do
    Exec.modify fun p => { p with allocatedMemSize := p.allocatedMemSize + size }
    pure (some a)

def txdFreeSpdk (a : Addr) (size : BitVec 64) : Driver Unit := do
  Exec.modify fun p =>
    { p with allocatedMemSize := p.allocatedMemSize - size, released := (a, size) :: p.released }
  freeBlock a

/-- `txd_calloc`: the counter moves before the allocation, and by the size of one element. -/
def txdCalloc (E : Platform) (num size : BitVec 64) (obj : Obj) : Driver (Option Addr) := do
  Exec.modify fun p => { p with allocatedMemSize := p.allocatedMemSize + size }
  allocBlock E (num * size) obj

def txdFree (a : Addr) (size : BitVec 64) : Driver Unit := do
  Exec.modify fun p =>
    { p with allocatedMemSize := p.allocatedMemSize - size, released := (a, size) :: p.released }
  freeBlock a

def Process.grantCounted (p : Process) (size : BitVec 64) (obj : Obj) : Process :=
  { p.grant size obj with allocatedMemSize := p.allocatedMemSize + size }

def Process.freeCounted (p : Process) (a : Addr) (size : BitVec 64) : Process :=
  { p with
    heap := p.heap.free a
    allocatedMemSize := p.allocatedMemSize - size
    released := (a, size) :: p.released }

def Process.store (p : Process) (a : Addr) (obj : Obj) : Process :=
  { p with heap := p.heap.set a obj }

theorem allocBlock_granted {E : Platform} {p : Process} {size : BitVec 64} (obj : Obj)
    (h : E.allocates p.requests size = true) :
    (allocBlock E size obj).run p = .ok (some p.heap.next, p.grant size obj) := if_pos h

theorem allocBlock_refused {E : Platform} {p : Process} {size : BitVec 64} (obj : Obj)
    (h : ¬E.allocates p.requests size = true) :
    (allocBlock E size obj).run p = .ok (none, p.refuse) := if_neg h

theorem freeBlock_live {p : Process} {a : Addr} (h : p.heap.Live a) :
    (freeBlock a).run p = .ok ((), { p with heap := p.heap.free a }) := if_pos h

theorem txdZmallocSpdk_granted {E : Platform} {p : Process} {size : BitVec 64} (obj : Obj)
    (h : E.allocates p.requests size = true) :
    (txdZmallocSpdk E size obj).run p = .ok (some p.heap.next, p.grantCounted size obj) := by
  rw [txdZmallocSpdk]
  apply Exec.run_seq (allocBlock_granted obj h)
  rfl

theorem txdZmallocSpdk_refused {E : Platform} {p : Process} {size : BitVec 64} (obj : Obj)
    (h : ¬E.allocates p.requests size = true) :
    (txdZmallocSpdk E size obj).run p = .ok (none, p.refuse) := by
  rw [txdZmallocSpdk]
  apply Exec.run_seq (allocBlock_refused obj h)
  rfl

theorem txdCalloc_granted {E : Platform} {p : Process} (num size : BitVec 64) (obj : Obj)
    (h : E.allocates p.requests (num * size) = true) :
    (txdCalloc E num size obj).run p = .ok (some p.heap.next,
      { p.grant (num * size) obj with allocatedMemSize := p.allocatedMemSize + size }) := by
  rw [txdCalloc]
  apply Exec.run_seq (Exec.run_modify _ _)
  exact allocBlock_granted _ h

theorem txdCalloc_refused {E : Platform} {p : Process} (num size : BitVec 64) (obj : Obj)
    (h : ¬E.allocates p.requests (num * size) = true) :
    (txdCalloc E num size obj).run p =
      .ok (none, { p.refuse with allocatedMemSize := p.allocatedMemSize + size }) := by
  rw [txdCalloc]
  apply Exec.run_seq (Exec.run_modify _ _)
  exact allocBlock_refused _ h

theorem txdFreeSpdk_live {p : Process} {a : Addr} (size : BitVec 64) (h : p.heap.Live a) :
    (txdFreeSpdk a size).run p = .ok ((), p.freeCounted a size) := by
  rw [txdFreeSpdk]
  apply Exec.run_seq (Exec.run_modify _ _)
  exact freeBlock_live h

theorem txdFree_live {p : Process} {a : Addr} (size : BitVec 64) (h : p.heap.Live a) :
    (txdFree a size).run p = .ok ((), p.freeCounted a size) := by
  rw [txdFree]
  apply Exec.run_seq (Exec.run_modify _ _)
  exact freeBlock_live h

/-- `q` differs from `p` at most in its memory: it has the blocks `as` more, and `extra` bytes
more are accounted for. -/
def Process.Allocates (p q : Process) (as : List Addr) (extra : BitVec 64) : Prop :=
  ∃ heap requests released,
    q = { p with
      heap := heap
      allocatedMemSize := p.allocatedMemSize + extra
      requests := requests
      released := released } ∧
    p.heap.Adds heap as

theorem Process.Allocates.refl (p : Process) : p.Allocates p [] 0#64 :=
  ⟨p.heap, p.requests, p.released, by rw [BitVec.add_zero], .refl _⟩

theorem Process.Allocates.adds {p q : Process} {as : List Addr} {extra : BitVec 64}
    (h : p.Allocates q as extra) : p.heap.Adds q.heap as := by
  obtain ⟨heap, requests, released, rfl, ha⟩ := h
  exact ha

theorem Process.Allocates.refuse {p q : Process} {as : List Addr} {extra : BitVec 64}
    (h : p.Allocates q as extra) : p.Allocates q.refuse as extra := by
  obtain ⟨heap, requests, released, rfl, ha⟩ := h
  exact ⟨heap, requests + 1, released, rfl, ha⟩

theorem Process.Allocates.grantCounted {p q : Process} {as : List Addr} {extra : BitVec 64}
    (h : p.Allocates q as extra) (size : BitVec 64) (obj : Obj) :
    p.Allocates (q.grantCounted size obj) (q.heap.next :: as) (extra + size) := by
  obtain ⟨heap, requests, released, rfl, ha⟩ := h
  refine ⟨heap.alloc size.toNat obj, requests + 1, released, ?_, ha.alloc _ _⟩
  simp only [Process.grantCounted, Process.grant, BitVec.add_assoc]

theorem Process.Allocates.freeCounted {p q : Process} {as : List Addr} {extra : BitVec 64}
    {a : Addr} (h : p.Allocates q as extra) (size : BitVec 64) (hm : a ∈ as) :
    p.Allocates (q.freeCounted a size) (as.erase a) (extra - size) := by
  obtain ⟨heap, requests, released, rfl, ha⟩ := h
  refine ⟨heap.free a, requests, (a, size) :: released, ?_, ha.free hm⟩
  simp only [Process.freeCounted, BitVec.sub_eq_add_neg, BitVec.add_assoc]

theorem Process.Allocates.store {p q : Process} {as : List Addr} {extra : BitVec 64}
    {a : Addr} (h : p.Allocates q as extra) (obj : Obj) (hm : a ∈ as) :
    p.Allocates (q.store a obj) as extra := by
  obtain ⟨heap, requests, released, rfl, ha⟩ := h
  exact ⟨heap.set a obj, requests, released, rfl, ha.set hm obj⟩

/-- Nothing is left of what was allocated. -/
abbrev Process.Restored (p q : Process) : Prop := p.Allocates q [] 0#64

end TxDriver
