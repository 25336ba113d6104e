import Mathlib.Data.BitVec
import TxDriver.Driver.Process
import TxDriver.Framework.Transition

/-!
# Memory accounting

`txd_malloc.c` counts the bytes it hands out. This module has the rest of its functions, the
ledger of what a computation allocates and frees through them, and the account itself: when the
counter is the total size of the live blocks over a whole run.
-/

namespace TxDriver

/-- `spdk_dma_malloc` leaves the contents of the block to the caller, as `obj` does. -/
def txdMallocSpdk (E : Platform) (size : BitVec 64) (obj : Obj) : Driver (Option Addr) :=
  txdZmallocSpdk E size obj

def txdMallocDpdk (E : Platform) (size : BitVec 64) (obj : Obj) : Driver (Option Addr) :=
  txdZmallocSpdk E size obj

def txdZmallocDpdk (E : Platform) (size : BitVec 64) (obj : Obj) : Driver (Option Addr) :=
  txdZmallocSpdk E size obj

def txdCallocDpdk (E : Platform) (num size : BitVec 64) (obj : Obj) : Driver (Option Addr) := do
  match ← allocBlock E (num * size) obj with
  | none => pure none
  | some a => do
    Exec.modify fun p => { p with allocatedMemSize := p.allocatedMemSize + size * num }
    pure (some a)

def txdFreeDpdk (a : Addr) (size : BitVec 64) : Driver Unit := txdFreeSpdk a size

/-- `txd_malloc`: the counter moves before the allocation. -/
def txdMalloc (E : Platform) (size : BitVec 64) (obj : Obj) : Driver (Option Addr) := do
  Exec.modify fun p => { p with allocatedMemSize := p.allocatedMemSize + size }
  allocBlock E size obj

theorem txdCallocDpdk_eq (E : Platform) (num size : BitVec 64) (obj : Obj) :
    txdCallocDpdk E num size obj = txdZmallocSpdk E (num * size) obj := by
  rw [txdCallocDpdk, BitVec.mul_comm size num]
  rfl

/-- `q` is `p` after allocations and frees through the accounting functions alone: `live` lists
the blocks that are left, `freed` those that were freed again, the last one first, each with the
size it was requested with. -/
inductive Process.Ledger (p : Process) :
    Process → List (Addr × BitVec 64) → List (Addr × BitVec 64) → Prop
  | refl : p.Ledger p [] []
  | grant {q : Process} {live freed : List (Addr × BitVec 64)} (h : p.Ledger q live freed)
      (size : BitVec 64) (obj : Obj) :
      p.Ledger (q.grantCounted size obj) ((q.heap.next, size) :: live) freed
  | refuse {q : Process} {live freed : List (Addr × BitVec 64)} (h : p.Ledger q live freed) :
      p.Ledger q.refuse live freed
  | store {q : Process} {live freed : List (Addr × BitVec 64)} {a : Addr} {size : BitVec 64}
      (h : p.Ledger q live freed) (obj : Obj) (hm : (a, size) ∈ live) :
      p.Ledger (q.store a obj) live freed
  | free {q : Process} {live freed : List (Addr × BitVec 64)} {a : Addr} {s : BitVec 64}
      (h : p.Ledger q live freed) (hm : (a, s) ∈ live) :
      p.Ledger (q.freeCounted a s) (live.erase (a, s)) ((a, s) :: freed)

/-- The sizes of a list of blocks together, as the counter adds them up. -/
def totalSize (bs : List (Addr × BitVec 64)) : BitVec 64 := (bs.map Prod.snd).sum

section Ledgers

variable {p q r : Process} {live live' freed freed' : List (Addr × BitVec 64)}

theorem totalSize_erase {b : Addr × BitVec 64} (hm : b ∈ live) :
    totalSize (live.erase b) = totalSize live - b.2 := by
  suffices h : totalSize live = totalSize (live.erase b) + b.2 by
    rw [h, BitVec.add_sub_cancel]
  induction live with
  | nil => exact nomatch hm
  | cons c live ih =>
    by_cases hcb : c = b
    · subst hcb
      rw [List.erase_cons_head, BitVec.add_comm]
      rfl
    · have hm := (List.mem_cons.mp hm).resolve_left fun h => hcb h.symm
      rw [List.erase_cons_tail (by simpa using hcb)]
      change c.2 + totalSize live = c.2 + totalSize (live.erase b) + b.2
      rw [ih hm, BitVec.add_assoc]

theorem map_fst_erase {b : Addr × BitVec 64} (hnd : (live.map Prod.fst).Nodup) (hm : b ∈ live) :
    (live.erase b).map Prod.fst = (live.map Prod.fst).erase b.1 := by
  induction live with
  | nil => exact nomatch hm
  | cons c live ih =>
    obtain ⟨hc, hnd⟩ := List.nodup_cons.mp hnd
    by_cases hcb : c = b
    · subst hcb
      simp
    · have hm := (List.mem_cons.mp hm).resolve_left fun h => hcb h.symm
      have hne : c.1 ≠ b.1 := by
        intro he
        rw [he] at hc
        exact hc (List.mem_map_of_mem hm)
      rw [List.erase_cons_tail (by simpa using hcb), List.map_cons, List.map_cons,
        List.erase_cons_tail (by simpa using hne), ih hnd hm]

theorem Process.Ledger.allocates (h : p.Ledger q live freed) :
    p.Allocates q (live.map Prod.fst) (totalSize live) := by
  induction h with
  | refl => exact .refl p
  | @grant q live _ _ size obj ih =>
    have hgrant := ih.grantCounted size obj
    rw [BitVec.add_comm] at hgrant
    exact hgrant
  | refuse _ ih => exact ih.refuse
  | store _ obj hm ih => exact ih.store obj (List.mem_map_of_mem hm)
  | @free q live _ a size _ hm ih =>
    have hfree := ih.freeCounted size (List.mem_map_of_mem hm)
    rwa [← map_fst_erase ih.adds.nodup hm, ← totalSize_erase hm] at hfree

theorem Process.Ledger.live_of_mem {a : Addr} {size : BitVec 64} (h : p.Ledger q live freed)
    (hm : (a, size) ∈ live) : q.heap.Live a :=
  h.allocates.adds.live a (List.mem_map_of_mem hm)

theorem Process.Ledger.cells {a : Addr} {size : BitVec 64} (h : p.Ledger q live freed)
    (hm : (a, size) ∈ live) : ∃ obj, q.heap.cells a = some (size.toNat, obj) := by
  induction h with
  | refl => exact nomatch hm
  | @grant q _ _ _ size' obj ih =>
    rcases List.mem_cons.mp hm with heq | hm
    · cases heq
      exact ⟨obj, Heap.cells_alloc_self q.heap _ _⟩
    · obtain ⟨obj', hc⟩ := ih hm
      exact ⟨obj', Heap.cells_alloc_of_some _ _ hc⟩
  | refuse _ ih => exact ih hm
  | @store q _ _ x _ _ obj _ ih =>
    obtain ⟨obj', hc⟩ := ih hm
    by_cases hx : a = x
    · subst hx
      exact ⟨obj, Heap.cells_set_self obj hc⟩
    · exact ⟨obj', (Heap.cells_set_of_ne obj hx).trans hc⟩
  | @free q live _ x s h hx ih =>
    obtain ⟨obj, hc⟩ := ih (List.mem_of_mem_erase hm)
    -- the freed block was in the ledger once, so what is left of it is elsewhere
    have hne : a ≠ x := by
      intro heq
      subst heq
      have hnodup := h.allocates.adds.nodup
      have hmem := List.mem_map_of_mem (f := Prod.fst) hm
      rw [map_fst_erase hnodup hx] at hmem
      exact hnodup.not_mem_erase hmem
    exact ⟨obj, (Heap.cells_free_of_ne hne).trans hc⟩

theorem Process.Ledger.free_head {a : Addr} {size : BitVec 64}
    (h : p.Ledger q ((a, size) :: live) freed) :
    p.Ledger (q.freeCounted a size) live ((a, size) :: freed) := by
  have hfree := h.free (List.mem_cons_self ..)
  rwa [List.erase_cons_head] at hfree

theorem Process.Ledger.restored (h : p.Ledger q [] freed) : p.Restored q := h.allocates

theorem Process.Ledger.trans (h : p.Ledger q live freed) (h' : q.Ledger r live' freed') :
    p.Ledger r (live' ++ live) (freed' ++ freed) := by
  induction h' with
  | refl => exact h
  | grant _ size obj ih => exact ih.grant size obj
  | refuse _ ih => exact ih.refuse
  | store _ obj hm ih => exact ih.store obj (List.mem_append_left _ hm)
  | free _ hm ih =>
    have hfree := ih.free (List.mem_append_left _ hm)
    rwa [List.erase_append_left _ hm] at hfree

theorem Process.Ledger.released (h : p.Ledger q live freed) :
    q.released = freed ++ p.released := by
  induction h with
  | refl => rfl
  | grant _ _ _ ih | refuse _ ih | store _ _ _ ih => exact ih
  | free _ _ ih => exact congrArg _ ih

theorem Process.Ledger.perm (h : p.Ledger q live freed) :
    ((live ++ freed).map Prod.fst).Perm (List.range' p.heap.next (q.heap.next - p.heap.next)) := by
  induction h with
  | refl => simp
  | @grant q live freed h size obj ih =>
    have hle : p.heap.next ≤ q.heap.next := h.allocates.adds.next_le
    have hlast : p.heap.next + (q.heap.next - p.heap.next) = q.heap.next :=
      Nat.add_sub_of_le hle
    change (q.heap.next :: _).Perm (List.range' p.heap.next (q.heap.next + 1 - p.heap.next))
    rw [Nat.sub_add_comm hle, List.range'_1_concat, hlast]
    exact (ih.cons _).trans (List.perm_append_singleton _ _).symm
  | refuse _ ih | store _ _ _ ih => exact ih
  | @free q live freed a size _ hm ih =>
    refine List.Perm.trans (List.Perm.map _ ?_) ih
    refine List.perm_middle.trans ?_
    exact ((List.perm_cons_erase hm).append_right freed).symm

/-- `q` is `p` again: each block allocated since was freed once, with its own size, and memory
and counter are as before. -/
structure Process.Unwound (p q : Process) (freed : List (Addr × BitVec 64)) : Prop where
  ledger : p.Ledger q [] freed
  released : q.released = freed ++ p.released
  once : (freed.map Prod.fst).Perm (List.range' p.heap.next (q.heap.next - p.heap.next))
  cells : q.heap.cells = p.heap.cells
  counter : q.allocatedMemSize = p.allocatedMemSize

theorem Process.Ledger.unwound (h : p.Ledger q [] freed) : p.Unwound q freed := by
  obtain ⟨heap, requests, released, heq, hadds⟩ := h.allocates
  refine ⟨h, h.released, h.perm, h.allocates.adds.cells_eq, ?_⟩
  rw [heq]
  exact BitVec.add_zero _

end Ledgers

/-- The counter is the total size of the live blocks, so every one of them can be freed without
a wrap, and it is back at its start when none is left. -/
structure Process.Accounted (p : Process) : Prop where
  counter : p.allocatedMemSize = BitVec.ofNat 64 p.heap.liveBytes
  exact : p.heap.liveBytes < 2 ^ 64 → p.allocatedMemSize.toNat = p.heap.liveBytes
  covers : p.heap.liveBytes < 2 ^ 64 →
    ∀ a n obj, p.heap.cells a = some (n, obj) → n ≤ p.allocatedMemSize.toNat
  settled : (∀ a, p.heap.cells a = none) → p.allocatedMemSize = 0#64

inductive MemCall where
  | mallocSpdk (size : BitVec 64)
  | zmallocSpdk (size : BitVec 64)
  | freeSpdk (a : Addr) (size : BitVec 64)
  | mallocDpdk (size : BitVec 64)
  | zmallocDpdk (size : BitVec 64)
  | callocDpdk (num size : BitVec 64)
  | freeDpdk (a : Addr) (size : BitVec 64)
  | malloc (size : BitVec 64)
  | calloc (num size : BitVec 64)
  | free (a : Addr) (size : BitVec 64)

def keepBlock (x : Driver (Option Addr)) : Driver Unit := do
  let _ ← x
  pure ()

def MemCall.run (E : Platform) : MemCall → Driver Unit
  | .mallocSpdk size => keepBlock (txdMallocSpdk E size .buffer)
  | .zmallocSpdk size => keepBlock (txdZmallocSpdk E size .buffer)
  | .freeSpdk a size => txdFreeSpdk a size
  | .mallocDpdk size => keepBlock (txdMallocDpdk E size .buffer)
  | .zmallocDpdk size => keepBlock (txdZmallocDpdk E size .buffer)
  | .callocDpdk num size => keepBlock (txdCallocDpdk E num size .buffer)
  | .freeDpdk a size => txdFreeDpdk a size
  | .malloc size => keepBlock (txdMalloc E size .buffer)
  | .calloc num size => keepBlock (txdCalloc E num size .buffer)
  | .free a size => txdFree a size

/-- What a caller owes: products do not overflow, and only a live block is freed, with its whole
size. -/
def MemCall.Legal (c : MemCall) (p : Process) : Prop :=
  match c with
  | .callocDpdk num size | .calloc num size => num.toNat * size.toNat < 2 ^ 64
  | .freeSpdk a size | .freeDpdk a size | .free a size =>
    (p.heap.cells a).map Prod.fst = some size.toNat
  | _ => True

/-- The call moves the counter by the bytes that it allocates: `txd_malloc` and `txd_calloc` do
so when they are granted, and the latter for one element only. -/
def MemCall.Counted (E : Platform) (c : MemCall) (p : Process) : Prop :=
  match c with
  | .malloc size => size = 0#64 ∨ E.allocates p.requests size = true
  | .calloc num size => size = 0#64 ∨ (E.allocates p.requests (num * size) = true ∧ num = 1#64)
  | _ => True

instance MemCall.decidableLegal (c : MemCall) (p : Process) : Decidable (c.Legal p) :=
  match c with
  | .callocDpdk num size | .calloc num size =>
    inferInstanceAs (Decidable (num.toNat * size.toNat < 2 ^ 64))
  | .freeSpdk a size | .freeDpdk a size | .free a size =>
    inferInstanceAs (Decidable ((p.heap.cells a).map Prod.fst = some size.toNat))
  | .mallocSpdk _ | .zmallocSpdk _ | .mallocDpdk _ | .zmallocDpdk _ | .malloc _ => .isTrue trivial

instance MemCall.decidableCounted (E : Platform) (c : MemCall) (p : Process) :
    Decidable (c.Counted E p) :=
  match c with
  | .malloc size => inferInstanceAs (Decidable (size = 0#64 ∨ E.allocates p.requests size = true))
  | .calloc num size =>
    inferInstanceAs
      (Decidable (size = 0#64 ∨ (E.allocates p.requests (num * size) = true ∧ num = 1#64)))
  | .mallocSpdk _ | .zmallocSpdk _ | .freeSpdk _ _ | .mallocDpdk _ | .zmallocDpdk _
  | .callocDpdk _ _ | .freeDpdk _ _ | .free _ _ => .isTrue trivial

/-- Legal calls of the functions of `txd_malloc.c`, from the start of the process. -/
def accounting (E : Platform) (medium : Nat → Nat → Sector) : TransitionSystem Process MemCall where
  init p := p = .start medium
  step c p := if c.Legal p then ((c.run E).run p).toOption.map Prod.snd else none

/-- By how much the counter is above the bytes that are live. -/
def Process.drift (p : Process) : BitVec 64 :=
  p.allocatedMemSize - BitVec.ofNat 64 p.heap.liveBytes

def MemCall.drift (E : Platform) (c : MemCall) (p : Process) : BitVec 64 :=
  match c with
  | .malloc size => if E.allocates p.requests size then 0#64 else size
  | .calloc num size => if E.allocates p.requests (num * size) then size - num * size else size
  | _ => 0#64

section Account

variable {E : Platform} {medium : Nat → Nat → Sector} {p q : Process} {c : MemCall} {a : Addr}
  {size : BitVec 64}

theorem drift_eq_zero_iff :
    p.drift = 0#64 ↔ p.allocatedMemSize = BitVec.ofNat 64 p.heap.liveBytes := by
  rw [Process.drift]
  bv_omega

theorem accounted_iff : p.Accounted ↔ p.drift = 0#64 := by
  rw [drift_eq_zero_iff]
  constructor
  · intro h
    exact h.counter
  · intro hcounter
    have hexact (hlt : p.heap.liveBytes < 2 ^ 64) :
        p.allocatedMemSize.toNat = p.heap.liveBytes := by
      rw [hcounter, BitVec.toNat_ofNat, Nat.mod_eq_of_lt hlt]
    refine ⟨hcounter, hexact, ?_, ?_⟩
    · intro hlt a n obj hc
      rw [hexact hlt]
      exact Heap.size_le_liveBytes hc
    · intro hdead
      rw [hcounter, Heap.liveBytes_of_dead hdead]

theorem drift_grant (p : Process) (size : BitVec 64) (obj : Obj) :
    (p.grant size obj).drift = p.drift - size := by
  change p.allocatedMemSize - BitVec.ofNat 64 (p.heap.alloc size.toNat obj).liveBytes = _
  rw [Heap.liveBytes_alloc, BitVec.ofNat_add, BitVec.ofNat_toNat, BitVec.setWidth_eq,
    Process.drift]
  bv_omega

theorem drift_grantCounted (p : Process) (size : BitVec 64) (obj : Obj) :
    (p.grantCounted size obj).drift = p.drift := by
  have hgrant := drift_grant p size obj
  change p.allocatedMemSize + size - BitVec.ofNat 64 (p.heap.alloc size.toNat obj).liveBytes = _
  change p.allocatedMemSize - BitVec.ofNat 64 (p.heap.alloc size.toNat obj).liveBytes = _ at hgrant
  bv_omega

theorem drift_freeCounted (h : (p.heap.cells a).map Prod.fst = some size.toNat) :
    (p.freeCounted a size).drift = p.drift := by
  obtain ⟨⟨n, obj⟩, hc, rfl⟩ := Option.map_eq_some_iff.mp h
  have hfree := Heap.liveBytes_free hc
  change p.allocatedMemSize - size - BitVec.ofNat 64 (p.heap.free a).liveBytes = _
  rw [Process.drift, ← hfree, BitVec.ofNat_add, BitVec.ofNat_toNat, BitVec.setWidth_eq]
  bv_omega

theorem keepBlock_run {x : Driver (Option Addr)} {res : Option Addr} (h : x.run p = .ok (res, q)) :
    (keepBlock x).run p = .ok ((), q) := by
  rw [keepBlock]
  apply Exec.run_seq h
  rfl

theorem txdZmallocSpdk_drift (p : Process) (size : BitVec 64) :
    ∃ q, (keepBlock (txdZmallocSpdk E size .buffer)).run p = .ok ((), q) ∧ q.drift = p.drift := by
  by_cases hg : E.allocates p.requests size = true
  · exact ⟨_, keepBlock_run (txdZmallocSpdk_granted _ hg), drift_grantCounted p size .buffer⟩
  · exact ⟨_, keepBlock_run (txdZmallocSpdk_refused _ hg), rfl⟩

theorem txdFreeSpdk_drift (h : (p.heap.cells a).map Prod.fst = some size.toNat) :
    ∃ q, (txdFreeSpdk a size).run p = .ok ((), q) ∧ q.drift = p.drift := by
  have hlive : p.heap.Live a := by
    obtain ⟨c, hc, _⟩ := Option.map_eq_some_iff.mp h
    simp [Heap.Live, hc]
  exact ⟨_, txdFreeSpdk_live size hlive, drift_freeCounted h⟩

theorem countFirst_drift (p : Process) (x y : BitVec 64) :
    ∃ q, (keepBlock (do
        Exec.modify fun p => { p with allocatedMemSize := p.allocatedMemSize + x }
        allocBlock E y .buffer)).run p = .ok ((), q) ∧
      q.drift = p.drift + if E.allocates p.requests y then x - y else x := by
  let p' : Process := { p with allocatedMemSize := p.allocatedMemSize + x }
  have hp' : p'.drift = p.drift + x := by
    change p.allocatedMemSize + x - BitVec.ofNat 64 p.heap.liveBytes = _
    rw [Process.drift]
    bv_omega
  by_cases hg : E.allocates p.requests y = true
  · have hrun := allocBlock_granted (p := p') .buffer hg
    refine ⟨p'.grant y .buffer, keepBlock_run (Exec.run_seq (Exec.run_modify _ p) hrun), ?_⟩
    rw [drift_grant, hp', if_pos hg]
    bv_omega
  · have hrun := allocBlock_refused (p := p') .buffer hg
    refine ⟨p'.refuse, keepBlock_run (Exec.run_seq (Exec.run_modify _ p) hrun), ?_⟩
    rw [if_neg hg]
    exact hp'

theorem MemCall.run_drift (E : Platform) (h : c.Legal p) :
    ∃ q, (c.run E).run p = .ok ((), q) ∧ q.drift = p.drift + c.drift E p := by
  cases c with
  | mallocSpdk size | zmallocSpdk size | mallocDpdk size | zmallocDpdk size =>
    obtain ⟨q, hrun, hq⟩ := txdZmallocSpdk_drift (E := E) p size
    exact ⟨q, hrun, hq.trans (BitVec.add_zero _).symm⟩
  | callocDpdk num size =>
    obtain ⟨q, hrun, hq⟩ := txdZmallocSpdk_drift (E := E) p (num * size)
    refine ⟨q, ?_, hq.trans (BitVec.add_zero _).symm⟩
    rw [MemCall.run, txdCallocDpdk_eq]
    exact hrun
  | freeSpdk a size | freeDpdk a size | free a size =>
    obtain ⟨q, hrun, hq⟩ := txdFreeSpdk_drift h
    exact ⟨q, hrun, hq.trans (BitVec.add_zero _).symm⟩
  | malloc size =>
    obtain ⟨q, hrun, hq⟩ := countFirst_drift (E := E) p size size
    refine ⟨q, hrun, ?_⟩
    rw [hq, BitVec.sub_self]
    rfl
  | calloc num size =>
    obtain ⟨q, hrun, hq⟩ := countFirst_drift (E := E) p size (num * size)
    exact ⟨q, hrun, hq⟩

/-- Without overflow, several elements only have the size of one when there is nothing in them. -/
theorem sub_mul_eq_zero_iff {num size : BitVec 64} (h : num.toNat * size.toNat < 2 ^ 64) :
    size - num * size = 0#64 ↔ size = 0#64 ∨ num = 1#64 := by
  have hmul : (num * size).toNat = num.toNat * size.toNat := by
    rw [BitVec.toNat_mul, Nat.mod_eq_of_lt h]
  have heq : size - num * size = 0#64 ↔ size = num * size := by
    bv_omega
  rw [heq, eq_comm, ← BitVec.toNat_inj, hmul]
  by_cases hsize : size = 0#64
  · simp [hsize]
  · have hne : size.toNat ≠ 0 := fun h0 => hsize (BitVec.eq_of_toNat_eq h0)
    rw [Nat.mul_eq_right hne, or_iff_right hsize]
    exact BitVec.toNat_inj (y := 1#64)

/-- A legal call leaves the drift alone exactly when it is counted. -/
theorem MemCall.drift_eq_zero_iff (E : Platform) (h : c.Legal p) :
    c.drift E p = 0#64 ↔ c.Counted E p := by
  cases c with
  | malloc size =>
    change (if E.allocates p.requests size then 0#64 else size) = 0#64 ↔ _ ∨ _
    split <;> simp [*]
  | calloc num size =>
    change (if E.allocates p.requests (num * size) then size - num * size else size) = 0#64 ↔ _ ∨ _
    split
    · simp [*, sub_mul_eq_zero_iff h]
    · simp [*]
  | mallocSpdk | zmallocSpdk | freeSpdk | mallocDpdk | zmallocDpdk | callocDpdk | freeDpdk
  | free => exact iff_of_true rfl trivial

theorem MemCall.step (E : Platform) (medium : Nat → Nat → Sector) (h : c.Legal p) :
    ∃ q, (accounting E medium).step c p = some q ∧ q.drift = p.drift + c.drift E p := by
  obtain ⟨q, hrun, hq⟩ := c.run_drift E h
  refine ⟨q, ?_, hq⟩
  change (if c.Legal p then ((c.run E).run p).toOption.map Prod.snd else none) = some q
  rw [if_pos h, hrun]
  rfl

theorem MemCall.legal_of_step (h : (accounting E medium).step c p = some q) : c.Legal p := by
  by_contra hn
  change (if c.Legal p then _ else none) = some q at h
  rw [if_neg hn] at h
  cases h

/-- As long as every call is counted, the counter is right; the first call that is not puts it
wrong. -/
theorem accounted_counted (hp : ((accounting E medium).guard (MemCall.Counted E)).Reachable p) :
    p.Accounted ∧ ∀ c : MemCall, c.Legal p →
      ∃ q, (accounting E medium).step c p = some q ∧ (q.Accounted ↔ c.Counted E p) := by
  have hdrift : p.drift = 0#64 := by
    refine hp.invariant (P := fun p => p.drift = 0#64) ?_ ?_
    · intro s hs
      subst hs
      exact drift_eq_zero_iff.mpr rfl
    · intro c s s' hs hstep
      obtain ⟨hcounted, hstep⟩ := TransitionSystem.guard_step_eq_some.mp hstep
      have hlegal := MemCall.legal_of_step hstep
      obtain ⟨q, hq, hdrift⟩ := c.step E medium hlegal
      rw [hstep] at hq
      cases hq
      rw [hdrift, hs, (c.drift_eq_zero_iff E hlegal).mpr hcounted]
      rfl
  refine ⟨accounted_iff.mpr hdrift, ?_⟩
  intro c hlegal
  obtain ⟨q, hstep, hq⟩ := c.step E medium hlegal
  refine ⟨q, hstep, ?_⟩
  rw [accounted_iff, hq, hdrift, BitVec.zero_add, c.drift_eq_zero_iff E hlegal]

end Account

theorem accounted_counted_calloc :
    ∃ p, ((accounting .reliable fun _ _ _ => 0).guard (MemCall.Counted .reliable)).Reachable p ∧
      p.heap.liveBytes = 64 ∧ p.Accounted := by
  have hstep : ((accounting .reliable fun _ _ _ => 0).guard (MemCall.Counted .reliable)).step
      (.calloc 1 64) (.start fun _ _ _ => 0) = some _ := rfl
  have hp := TransitionSystem.Reachable.step _ (.init rfl) hstep
  exact ⟨_, hp, rfl, (accounted_counted hp).1⟩

/-- Two elements of 64 bytes are counted as one. -/
theorem accounted_calloc_two :
    ¬∀ (E : Platform) (medium : Nat → Nat → Sector) (p : Process),
      (accounting E medium).Reachable p → p.Accounted := by
  intro h
  have hstep : (accounting .reliable fun _ _ _ => 0).step (.calloc 2 64) (.start fun _ _ _ => 0) =
      some _ := rfl
  have hp := TransitionSystem.Reachable.step _ (.init rfl) hstep
  exact absurd (h _ _ _ hp).counter (by decide)

end TxDriver
