import Mathlib.Data.Nat.Log
import TxDriver.Driver.Accounting
import TxDriver.Driver.Journal

/-!
# Revoke tables

`txd_revoke.c`: a journal owns two hash tables, each a block with its size and a block with its
buckets. A table is built bucket by bucket and may only be destroyed when all its buckets are
empty lists; the second table is torn down with the first when it cannot be built.
-/

namespace TxDriver

def enomem : Int := 12

/-- `INIT_LIST_HEAD`: an empty circular list. -/
def initListHead (head : Addr × Nat) : ListHead := ⟨some head, some head⟩

def listEmpty (head : Addr × Nat) (l : ListHead) : Bool := l.next = some head

def bucketBytes (hashSize : BitVec 32) : BitVec 64 := hashSize.signExtend 64 * sizeofListHead

/-- The number of rounds of a loop that counts an `int` up from zero to `hashSize`. -/
def rounds (hashSize : BitVec 32) : Nat := hashSize.toInt.toNat

/-- `while ((tmp >>= 1UL) != 0UL) shift++;`, which never ends on a negative `tmp`. -/
def hashShift : Nat → BitVec 32 → BitVec 32 → Except (Stop Fault) (BitVec 32)
  | 0, _, _ => .error .hang
  | fuel + 1, tmp, shift =>
    let tmp := tmp.sshiftRight 1
    if tmp ≠ 0 then hashShift fuel tmp (shift + 1) else .ok shift

def initListHeads (table : Addr) : Nat → Nat → (Nat → ListHead) → Nat → ListHead
  | 0, _, hs => hs
  | n + 1, tmp, hs =>
    initListHeads table n (tmp + 1) fun i => if i = tmp then initListHead (table, tmp) else hs i

def assertListsEmpty (table : Addr) (hs : Nat → ListHead) : Nat → Nat → Driver Unit
  | 0, _ => pure ()
  | n + 1, i => do
    Exec.assert (listEmpty (table, i) (hs i))
    assertListsEmpty table hs n (i + 1)

def loadTable (a : Addr) : Driver TxdRevokeTable := fun p =>
  match p.heap.cells a with
  | some (_, .revokeTable t) => .ok (t, p)
  | _ => .error (.fault (.freedBlock a))

def loadListHeads (a : Option Addr) : Driver (Addr × (Nat → ListHead)) := fun p =>
  match a with
  | none => .error (.fault .nullBuffer)
  | some a =>
    match p.heap.cells a with
    | some (_, .listHeads hs) => .ok ((a, hs), p)
    | _ => .error (.fault (.freedBlock a))

def storeBlock (a : Addr) (obj : Obj) : Driver Unit := fun p =>
  if p.heap.Live a then .ok ((), p.store a obj) else .error (.fault (.freedBlock a))

def txdJournalInitRevokeTable (E : Platform) (hashSize : BitVec 32) : Driver (Option Addr) := do
  match ← txdZmallocSpdk E sizeofTxdRevokeTable (.revokeTable ⟨0, 0, none⟩) with
  | none => pure none
  | some table => do
    let shift ← Exec.lift (hashShift 32 hashSize 0)
    storeBlock table (.revokeTable ⟨hashSize, shift, none⟩)
    match ← txdZmallocSpdk E (bucketBytes hashSize) (.listHeads fun _ => ⟨none, none⟩) with
    | none => do
      txdFreeSpdk table sizeofTxdRevokeTable
      pure none
    | some hashTable => do
      storeBlock table (.revokeTable ⟨hashSize, shift, some hashTable⟩)
      storeBlock hashTable
        (.listHeads (initListHeads hashTable (rounds hashSize) 0 fun _ => ⟨none, none⟩))
      pure (some table)

def txdJournalDestroyRevokeTable (table : Addr) : Driver Unit := do
  let t ← loadTable table
  let (hashTable, hs) ← loadListHeads t.hashTable
  assertListsEmpty hashTable hs (rounds t.hashSize) 0
  txdFreeSpdk hashTable (sizeofListHead * t.hashSize.signExtend 64)
  txdFreeSpdk table sizeofTxdRevokeTable

def txdJournalDestroyRevokeTable? : Option Addr → Driver Unit
  | none => pure ()
  | some table => txdJournalDestroyRevokeTable table

/-- `txd_journal_destroy_revoke`: both table pointers keep their values. -/
def txdJournalDestroyRevoke (j : TxdJournal) : Driver TxdJournal := do
  let j := { j with jRevoke := none }
  txdJournalDestroyRevokeTable? j.jRevokeTable0
  txdJournalDestroyRevokeTable? j.jRevokeTable1
  pure j

def txdJournalInitRevoke (E : Platform) (j : TxdJournal) (hashSize : BitVec 32) :
    Driver (Int × TxdJournal) := do
  let table0 ← txdJournalInitRevokeTable E hashSize
  let j := { j with jRevokeTable0 := table0 }
  match table0 with
  | none => pure (-enomem, j)
  | some a => do
    let table1 ← txdJournalInitRevokeTable E hashSize
    let j := { j with jRevokeTable1 := table1 }
    match table1 with
    | none => do
      txdJournalDestroyRevokeTable a
      pure (-enomem, { j with jRevokeTable0 := none })
    | some _ => pure (0, { j with jRevoke := table1 })

theorem initListHeads_apply (table : Addr) (n tmp : Nat) (hs : Nat → ListHead) (i : Nat) :
    initListHeads table n tmp hs i =
      if tmp ≤ i ∧ i < tmp + n then initListHead (table, i) else hs i := by
  induction n generalizing tmp hs with
  | zero =>
    rw [if_neg (by omega)]
    rfl
  | succ n ih =>
    rw [initListHeads, ih]
    by_cases hi : i = tmp
    · subst i
      rw [if_neg (by omega), if_pos rfl, if_pos (by omega)]
    · rw [if_neg hi]
      by_cases hr : tmp + 1 ≤ i ∧ i < tmp + 1 + n
      · rw [if_pos hr, if_pos (by omega)]
      · rw [if_neg hr, if_neg (by omega)]

theorem assertListsEmpty_run {table : Addr} {hs : Nat → ListHead} (n i : Nat) (p : Process)
    (h : ∀ k, i ≤ k → k < i + n → listEmpty (table, k) (hs k) = true) :
    (assertListsEmpty table hs n i).run p = .ok ((), p) := by
  induction n generalizing i with
  | zero => rfl
  | succ n ih =>
    rw [assertListsEmpty, h i (by omega) (by omega)]
    apply Exec.run_seq (Exec.run_assert_true p)
    apply ih
    intro k hlo hhi
    exact h k (by omega) (by omega)

/-- On a positive `tmp` the loop ends, and has counted its binary digits after the first. -/
theorem hashShift_eq (fuel : Nat) (tmp shift : BitVec 32) (hpos : 0 < tmp.toNat)
    (hsign : tmp.toNat < 2 ^ 31) (hfuel : tmp.toNat < 2 ^ fuel) :
    hashShift fuel tmp shift = .ok (shift + BitVec.ofNat 32 (Nat.log 2 tmp.toNat)) := by
  induction fuel generalizing tmp shift with
  | zero => omega
  | succ fuel ih =>
    have hhalf : (tmp.sshiftRight 1).toNat = tmp.toNat / 2 := by
      rw [BitVec.toNat_sshiftRight_of_msb_false (BitVec.msb_eq_false_iff_two_mul_lt.mpr (by omega))]
      rfl
    rw [hashShift]
    by_cases htwo : 2 ≤ tmp.toNat
    · have hne : tmp.sshiftRight 1 ≠ 0 := by
        intro h0
        have hzero : (tmp.sshiftRight 1).toNat = 0 := by rw [h0]; rfl
        omega
      have hlog : Nat.log 2 tmp.toNat = Nat.log 2 (tmp.toNat / 2) + 1 :=
        Nat.log_of_one_lt_of_le (by decide) htwo
      rw [Nat.pow_succ] at hfuel
      rw [if_pos hne, ih _ _ (by omega) (by omega) (by omega), hhalf, hlog, BitVec.ofNat_add,
        BitVec.add_assoc, BitVec.add_comm 1]
      rfl
    · have hzero : tmp.sshiftRight 1 = 0 := by
        apply BitVec.eq_of_toNat_eq
        rw [hhalf]
        change _ = 0
        omega
      rw [if_neg (not_not_intro hzero), Nat.log_of_lt (by omega)]
      exact congrArg Except.ok (BitVec.add_zero shift).symm

/-- `shift` is the logarithm of the number of buckets, exact for a power of two. -/
structure ShiftOf (hashSize shift : BitVec 32) : Prop where
  lower : 2 ^ shift.toNat ≤ rounds hashSize
  upper : rounds hashSize < 2 ^ (shift.toNat + 1)
  exact : ∀ k, rounds hashSize = 2 ^ k → 2 ^ shift.toNat = rounds hashSize

theorem rounds_eq {hashSize : BitVec 32} (hpos : 0 < hashSize.toInt) :
    rounds hashSize = hashSize.toNat ∧ 0 < hashSize.toNat ∧ hashSize.toNat < 2 ^ 31 := by
  have hlt := hashSize.isLt
  rw [rounds]
  rw [BitVec.toInt_eq_toNat_cond] at hpos ⊢
  split at hpos <;> omega

theorem hashShift_shiftOf {hashSize : BitVec 32} (hpos : 0 < hashSize.toInt) :
    ∃ shift, hashShift 32 hashSize 0 = .ok shift ∧ ShiftOf hashSize shift := by
  obtain ⟨hrounds, hne, hlt⟩ := rounds_eq hpos
  have hrun := hashShift_eq 32 hashSize 0 hne hlt (by omega)
  have hlog : Nat.log 2 hashSize.toNat < 31 := Nat.log_lt_of_lt_pow hne.ne' hlt
  have hshift : (0 + BitVec.ofNat 32 (Nat.log 2 hashSize.toNat)).toNat =
      Nat.log 2 hashSize.toNat := by
    rw [BitVec.ofNat_eq_ofNat, BitVec.zero_add, BitVec.toNat_ofNat, Nat.mod_eq_of_lt (by omega)]
  refine ⟨_, hrun, ?_, ?_, ?_⟩
  · rw [hshift, hrounds]
    exact Nat.pow_log_le_self 2 hne.ne'
  · rw [hshift, hrounds]
    exact Nat.lt_pow_succ_log_self (by decide) _
  · intro k hk
    rw [hrounds] at hk
    rw [hshift, hrounds, hk, Nat.log_pow (by decide)]

theorem bucketBytes_toNat {hashSize : BitVec 32} (hpos : 0 < hashSize.toInt) :
    (bucketBytes hashSize).toNat = rounds hashSize * sizeofListHead.toNat := by
  obtain ⟨hrounds, _, hlt⟩ := rounds_eq hpos
  rw [bucketBytes, BitVec.toNat_mul, toNat_signExtend_of_lt hlt, hrounds]
  change _ * 16 % 2 ^ 64 = _ * 16
  omega

/-- `t` is a live table of `hashSize` buckets, which live in `b` and are all empty lists. -/
structure Process.TableAt (p : Process) (t b : Addr) (hashSize shift : BitVec 32) : Prop where
  table : p.heap.cells t =
    some (sizeofTxdRevokeTable.toNat, .revokeTable ⟨hashSize, shift, some b⟩)
  buckets : ∃ hs, p.heap.cells b = some ((bucketBytes hashSize).toNat, .listHeads hs) ∧
    ∀ i < rounds hashSize, hs i = initListHead (b, i)

def Process.freeTable (p : Process) (t b : Addr) (hashSize : BitVec 32) : Process :=
  (p.freeCounted b (bucketBytes hashSize)).freeCounted t sizeofTxdRevokeTable

section Tables

variable {E : Platform} {p q : Process} {t b : Addr} {hashSize shift : BitVec 32}

theorem Process.TableAt.mono (h : p.TableAt t b hashSize shift)
    (ht : q.heap.cells t = p.heap.cells t) (hb : q.heap.cells b = p.heap.cells b) :
    q.TableAt t b hashSize shift :=
  ⟨ht.trans h.table, by rw [hb]; exact h.buckets⟩

theorem Process.TableAt.ne (h : p.TableAt t b hashSize shift) : t ≠ b := by
  intro heq
  subst heq
  obtain ⟨hs, hb, _⟩ := h.buckets
  rw [h.table] at hb
  injection hb with hb
  injection hb with _ hb
  exact nomatch hb

theorem storeBlock_live {a : Addr} (obj : Obj) (h : p.heap.Live a) :
    (storeBlock a obj).run p = .ok ((), p.store a obj) := if_pos h

theorem txdJournalInitRevokeTable_granted (hshift : hashShift 32 hashSize 0 = .ok shift)
    (hg : E.Grants p.requests [sizeofTxdRevokeTable, bucketBytes hashSize]) :
    ∃ q, (txdJournalInitRevokeTable E hashSize).run p = .ok (some p.heap.next, q) ∧
      p.Ledger q [(p.heap.next + 1, bucketBytes hashSize), (p.heap.next, sizeofTxdRevokeTable)] [] ∧
      q.TableAt p.heap.next (p.heap.next + 1) hashSize shift ∧
      q.heap.next = p.heap.next + 2 ∧ q.requests = p.requests + 2 := by
  let n := p.heap.next
  let p₁ := p.grantCounted sizeofTxdRevokeTable (.revokeTable ⟨0, 0, none⟩)
  let p₂ := p₁.store n (.revokeTable ⟨hashSize, shift, none⟩)
  let p₃ := p₂.grantCounted (bucketBytes hashSize) (.listHeads fun _ => ⟨none, none⟩)
  let p₄ := p₃.store n (.revokeTable ⟨hashSize, shift, some (n + 1)⟩)
  let hs := initListHeads (n + 1) (rounds hashSize) 0 fun _ => ⟨none, none⟩
  let p₅ := p₄.store (n + 1) (.listHeads hs)
  have ht : (n, sizeofTxdRevokeTable) ∈ [(n, sizeofTxdRevokeTable)] := List.mem_cons_self ..
  have ht' : (n, sizeofTxdRevokeTable) ∈
      [(n + 1, bucketBytes hashSize), (n, sizeofTxdRevokeTable)] := List.mem_cons_of_mem _ ht
  have hb : (n + 1, bucketBytes hashSize) ∈
      [(n + 1, bucketBytes hashSize), (n, sizeofTxdRevokeTable)] := List.mem_cons_self ..
  have h₁ : p.Ledger p₁ [(n, sizeofTxdRevokeTable)] [] := Process.Ledger.refl.grant _ _
  have h₂ : p.Ledger p₂ [(n, sizeofTxdRevokeTable)] [] := h₁.store _ ht
  have h₃ : p.Ledger p₃ [(n + 1, bucketBytes hashSize), (n, sizeofTxdRevokeTable)] [] :=
    h₂.grant _ _
  have h₄ : p.Ledger p₄ [(n + 1, bucketBytes hashSize), (n, sizeofTxdRevokeTable)] [] :=
    h₃.store _ ht'
  refine ⟨p₅, ?_, h₄.store _ hb, ?_, rfl, rfl⟩
  · rw [txdJournalInitRevokeTable]
    apply Exec.run_seq (txdZmallocSpdk_granted _ hg.1)
    rw [hshift]
    apply Exec.run_seq (Exec.run_lift_ok _ _)
    apply Exec.run_seq (storeBlock_live _ (h₁.live_of_mem ht))
    apply Exec.run_seq (txdZmallocSpdk_granted _ hg.2.1)
    apply Exec.run_seq (storeBlock_live _ (h₃.live_of_mem ht'))
    exact Exec.run_bind_ok _ (storeBlock_live _ (h₄.live_of_mem hb))
  · have hn : n ≠ n + 1 := Nat.ne_of_lt (Nat.lt_succ_self n)
    have c₂ : p₂.heap.cells n =
        some (sizeofTxdRevokeTable.toNat, .revokeTable ⟨hashSize, shift, none⟩) :=
      Heap.cells_set_self _ (Heap.cells_alloc_self p.heap _ _)
    have c₃ : p₃.heap.cells n =
        some (sizeofTxdRevokeTable.toNat, .revokeTable ⟨hashSize, shift, none⟩) :=
      Heap.cells_alloc_of_some _ _ c₂
    have d₃ : p₃.heap.cells (n + 1) =
        some ((bucketBytes hashSize).toNat, .listHeads fun _ => ⟨none, none⟩) :=
      Heap.cells_alloc_self p₂.heap _ _
    have d₄ : p₄.heap.cells (n + 1) =
        some ((bucketBytes hashSize).toNat, .listHeads fun _ => ⟨none, none⟩) :=
      (Heap.cells_set_of_ne _ hn.symm).trans d₃
    refine ⟨(Heap.cells_set_of_ne _ hn).trans (Heap.cells_set_self _ c₃), hs,
      Heap.cells_set_self _ d₄, ?_⟩
    intro i hi
    exact (initListHeads_apply _ _ _ _ _).trans (if_pos ⟨Nat.zero_le i, by omega⟩)

theorem txdJournalInitRevokeTable_refused (hshift : hashShift 32 hashSize 0 = .ok shift)
    (hg : ¬E.Grants p.requests [sizeofTxdRevokeTable, bucketBytes hashSize]) :
    ∃ q freed, (txdJournalInitRevokeTable E hashSize).run p = .ok (none, q) ∧
      p.Ledger q [] freed := by
  by_cases hg₁ : E.allocates p.requests sizeofTxdRevokeTable = true
  · let n := p.heap.next
    let p₁ := p.grantCounted sizeofTxdRevokeTable (.revokeTable ⟨0, 0, none⟩)
    let p₂ := p₁.store n (.revokeTable ⟨hashSize, shift, none⟩)
    have hg₂ : ¬E.allocates p₂.requests (bucketBytes hashSize) = true :=
      fun h => hg ⟨hg₁, h, trivial⟩
    have ht : (n, sizeofTxdRevokeTable) ∈ [(n, sizeofTxdRevokeTable)] := List.mem_cons_self ..
    have h₁ : p.Ledger p₁ [(n, sizeofTxdRevokeTable)] [] := Process.Ledger.refl.grant _ _
    have h₂ : p.Ledger p₂.refuse [(n, sizeofTxdRevokeTable)] [] := (h₁.store _ ht).refuse
    refine ⟨p₂.refuse.freeCounted n sizeofTxdRevokeTable, _, ?_, h₂.free_head⟩
    rw [txdJournalInitRevokeTable]
    apply Exec.run_seq (txdZmallocSpdk_granted _ hg₁)
    rw [hshift]
    apply Exec.run_seq (Exec.run_lift_ok _ _)
    apply Exec.run_seq (storeBlock_live _ (h₁.live_of_mem ht))
    apply Exec.run_seq (txdZmallocSpdk_refused _ hg₂)
    exact Exec.run_bind_ok _ (txdFreeSpdk_live _ (h₂.live_of_mem ht))
  · refine ⟨p.refuse, [], ?_, Process.Ledger.refl.refuse⟩
    rw [txdJournalInitRevokeTable]
    apply Exec.run_seq (txdZmallocSpdk_refused _ hg₁)
    rfl

theorem txdJournalDestroyRevokeTable_run (h : p.TableAt t b hashSize shift) :
    (txdJournalDestroyRevokeTable t).run p = .ok ((), p.freeTable t b hashSize) := by
  obtain ⟨hs, hb, hempty⟩ := h.buckets
  have hload : (loadTable t).run p = .ok (⟨hashSize, shift, some b⟩, p) := by
    simp only [loadTable, Exec.run, h.table]
  have hheads : (loadListHeads (some b)).run p = .ok ((b, hs), p) := by
    simp only [loadListHeads, Exec.run, hb]
  have hassert : (assertListsEmpty b hs (rounds hashSize) 0).run p = .ok ((), p) := by
    apply assertListsEmpty_run
    intro k _ hk
    rw [hempty k (by omega)]
    simp [listEmpty, initListHead]
  have hlive : (p.freeCounted b (bucketBytes hashSize)).heap.Live t := by
    rw [Heap.Live, Process.freeCounted, Heap.cells_free_of_ne h.ne, h.table]
    rfl
  have hbytes : sizeofListHead * hashSize.signExtend 64 = bucketBytes hashSize :=
    BitVec.mul_comm _ _
  rw [txdJournalDestroyRevokeTable]
  apply Exec.run_seq hload
  apply Exec.run_seq hheads
  apply Exec.run_seq hassert
  rw [hbytes]
  apply Exec.run_seq (txdFreeSpdk_live _ (by simp [Heap.Live, hb]))
  exact txdFreeSpdk_live _ hlive

end Tables

def revokeRequests (hashSize : BitVec 32) : List (BitVec 64) :=
  [sizeofTxdRevokeTable, bucketBytes hashSize, sizeofTxdRevokeTable, bucketBytes hashSize]

/-- The blocks of both tables when they are built from address `n` on, the last one first. -/
def revokeBlocks (n : Addr) (hashSize : BitVec 32) : List (Addr × BitVec 64) :=
  [(n + 3, bucketBytes hashSize), (n + 2, sizeofTxdRevokeTable),
    (n + 1, bucketBytes hashSize), (n, sizeofTxdRevokeTable)]

section Journals

variable {E : Platform} {p q : Process} {hashSize shift : BitVec 32} {n : Addr}
  {live freed : List (Addr × BitVec 64)}

theorem Process.Ledger.freeTables
    (h : p.Ledger q (revokeBlocks n hashSize ++ live) freed) :
    ∃ freed', p.Ledger ((q.freeTable n (n + 1) hashSize).freeTable (n + 2) (n + 3) hashSize)
      live freed' := by
  have h₁ := h.free (a := n + 1) (s := bucketBytes hashSize) (by simp [revokeBlocks])
  have h₂ := h₁.free (a := n) (s := sizeofTxdRevokeTable) (by simp [revokeBlocks])
  have herase : ((revokeBlocks n hashSize ++ live).erase (n + 1, bucketBytes hashSize)).erase
      (n, sizeofTxdRevokeTable) =
        (n + 3, bucketBytes hashSize) :: (n + 2, sizeofTxdRevokeTable) :: live := by
    simp [revokeBlocks]
  rw [herase] at h₂
  exact ⟨_, h₂.free_head.free_head⟩

theorem Process.Ledger.freeTables_all (h : p.Ledger q (revokeBlocks n hashSize) freed) :
    ∃ freed', p.Ledger ((q.freeTable n (n + 1) hashSize).freeTable (n + 2) (n + 3) hashSize)
      [] freed' := by
  rw [← List.append_nil (revokeBlocks n hashSize)] at h
  exact h.freeTables

theorem txdJournalInitRevoke_granted (j : TxdJournal)
    (hshift : hashShift 32 hashSize 0 = .ok shift)
    (hg : E.Grants p.requests (revokeRequests hashSize)) :
    let n := p.heap.next
    ∃ q, (txdJournalInitRevoke E j hashSize).run p =
        .ok ((0, { j with
          jRevokeTable0 := some n
          jRevokeTable1 := some (n + 2)
          jRevoke := some (n + 2) }), q) ∧
      p.Ledger q (revokeBlocks n hashSize) [] ∧
      q.TableAt n (n + 1) hashSize shift ∧ q.TableAt (n + 2) (n + 3) hashSize shift ∧
      q.heap.next = n + 4 ∧ q.requests = p.requests + 4 := by
  intro n
  obtain ⟨q₁, hrun₁, hl₁, ht₁, hnext₁, hreq₁⟩ :=
    txdJournalInitRevokeTable_granted hshift ⟨hg.1, hg.2.1, trivial⟩
  have hg₂ : E.Grants q₁.requests [sizeofTxdRevokeTable, bucketBytes hashSize] := by
    rw [hreq₁]
    exact hg.2.2
  obtain ⟨q₂, hrun₂, hl₂, ht₂, hnext₂, hreq₂⟩ := txdJournalInitRevokeTable_granted hshift hg₂
  rw [hnext₁] at hrun₂ hl₂ ht₂ hnext₂
  have hkept (a : Addr) (ha : a < n + 2) : q₂.heap.cells a = q₁.heap.cells a := by
    apply hl₂.allocates.adds.grows.same
    rw [hnext₁]
    exact ha
  refine ⟨q₂, ?_, hl₁.trans hl₂, ?_, ht₂, hnext₂, by rw [hreq₂, hreq₁]⟩
  · rw [txdJournalInitRevoke]
    apply Exec.run_seq hrun₁
    apply Exec.run_seq hrun₂
    rfl
  · exact ht₁.mono (hkept n (Nat.lt_add_of_pos_right (by decide)))
      (hkept (n + 1) (Nat.lt_succ_self _))

/-- Revoke tables that cannot both be built leave nothing behind. The pointer to the second one
is only assigned when the first one could be built. -/
theorem txdJournalInitRevoke_refused (j : TxdJournal)
    (hshift : hashShift 32 hashSize 0 = .ok shift)
    (hg : ¬E.Grants p.requests (revokeRequests hashSize)) :
    ∃ q freed, (txdJournalInitRevoke E j hashSize).run p =
        .ok ((-enomem, { j with
          jRevokeTable0 := none
          jRevokeTable1 :=
            if E.Grants p.requests [sizeofTxdRevokeTable, bucketBytes hashSize] then none
            else j.jRevokeTable1 }), q) ∧
      p.Ledger q [] freed := by
  by_cases hg₁ : E.Grants p.requests [sizeofTxdRevokeTable, bucketBytes hashSize]
  · obtain ⟨q₁, hrun₁, hl₁, ht₁, hnext₁, hreq₁⟩ := txdJournalInitRevokeTable_granted hshift hg₁
    have hg₂ : ¬E.Grants q₁.requests [sizeofTxdRevokeTable, bucketBytes hashSize] := by
      rw [hreq₁]
      intro h
      exact hg ⟨hg₁.1, hg₁.2.1, h⟩
    obtain ⟨q₂, freed, hrun₂, hl₂⟩ := txdJournalInitRevokeTable_refused hshift hg₂
    have hcells := hl₂.restored.adds.cells_eq
    have ht₂ : q₂.TableAt p.heap.next (p.heap.next + 1) hashSize shift :=
      ht₁.mono (congrFun hcells _) (congrFun hcells _)
    refine ⟨_, _, ?_, (hl₁.trans hl₂).free_head.free_head⟩
    rw [txdJournalInitRevoke, if_pos hg₁]
    apply Exec.run_seq hrun₁
    apply Exec.run_seq hrun₂
    exact Exec.run_bind_ok _ (txdJournalDestroyRevokeTable_run ht₂)
  · obtain ⟨q, freed, hrun, hl⟩ := txdJournalInitRevokeTable_refused hshift hg₁
    refine ⟨q, freed, ?_, hl⟩
    rw [txdJournalInitRevoke, if_neg hg₁]
    apply Exec.run_seq hrun
    rfl

theorem txdJournalDestroyRevoke_none {j : TxdJournal} (h₀ : j.jRevokeTable0 = none)
    (h₁ : j.jRevokeTable1 = none) (p : Process) :
    (txdJournalDestroyRevoke j).run p = .ok ({ j with jRevoke := none }, p) := by
  simp only [txdJournalDestroyRevoke, h₀, h₁, txdJournalDestroyRevokeTable?]
  rfl

theorem txdJournalDestroyRevoke_run {t₀ b₀ t₁ b₁ : Addr} {j : TxdJournal}
    (hj₀ : j.jRevokeTable0 = some t₀) (hj₁ : j.jRevokeTable1 = some t₁)
    (h₀ : p.TableAt t₀ b₀ hashSize shift) (h₁ : p.TableAt t₁ b₁ hashSize shift)
    (hd : [t₁, b₁, t₀, b₀].Nodup) :
    (txdJournalDestroyRevoke j).run p =
      .ok ({ j with jRevoke := none },
        (p.freeTable t₀ b₀ hashSize).freeTable t₁ b₁ hashSize) := by
  let q := p.freeTable t₀ b₀ hashSize
  simp only [List.nodup_cons, List.mem_cons, List.not_mem_nil, or_false, not_or] at hd
  obtain ⟨⟨_, htt, htb⟩, ⟨hbt, hbb⟩, _⟩ := hd
  have hkept (a : Addr) (hat : a ≠ t₀) (hab : a ≠ b₀) : q.heap.cells a = p.heap.cells a :=
    (Heap.cells_free_of_ne hat).trans (Heap.cells_free_of_ne hab)
  have h₁' : q.TableAt t₁ b₁ hashSize shift := h₁.mono (hkept t₁ htt htb) (hkept b₁ hbt hbb)
  rw [txdJournalDestroyRevoke]
  simp only [hj₀, hj₁, txdJournalDestroyRevokeTable?]
  apply Exec.run_seq (txdJournalDestroyRevokeTable_run h₀)
  exact Exec.run_bind_ok _ (txdJournalDestroyRevokeTable_run h₁')

/-- What `txd_journal_init_revoke` leaves of the journal and of the process `p`: two tables that
can be destroyed again, or nothing. -/
structure RevokeTables (p : Process) (j : TxdJournal) (hashSize : BitVec 32) (q : Process)
    (j' : TxdJournal) : Prop where
  tables : ∃ shift t₀ b₀ t₁ b₁, ShiftOf hashSize shift ∧ [t₁, b₁, t₀, b₀].Nodup ∧
    q.TableAt t₀ b₀ hashSize shift ∧ q.TableAt t₁ b₁ hashSize shift ∧
    j' = { j with jRevokeTable0 := some t₀, jRevokeTable1 := some t₁, jRevoke := some t₁ }
  room : (bucketBytes hashSize).toNat = rounds hashSize * sizeofListHead.toNat
  destroy : ∃ r freed, (txdJournalDestroyRevoke j').run q = .ok ({ j' with jRevoke := none }, r) ∧
    p.Unwound r freed

structure RevokeRefused (p : Process) (q : Process) (j' : TxdJournal) : Prop where
  table0 : j'.jRevokeTable0 = none
  unwound : ∃ freed, p.Unwound q freed

/-- Tables of any positive size are built and can be torn down when their blocks are granted, and
nothing is left of them when one is refused. -/
theorem txdJournalInitRevoke_tables (E : Platform) (p : Process) (j : TxdJournal)
    (hpos : 0 < hashSize.toInt) :
    ∃ res j' q, (txdJournalInitRevoke E j hashSize).run p = .ok ((res, j'), q) ∧
      ((E.Grants p.requests (revokeRequests hashSize) ∧ res = 0 ∧ RevokeTables p j hashSize q j') ∨
        (¬E.Grants p.requests (revokeRequests hashSize) ∧ res = -enomem ∧
          RevokeRefused p q j')) := by
  obtain ⟨shift, hshift, hlog⟩ := hashShift_shiftOf hpos
  by_cases hg : E.Grants p.requests (revokeRequests hashSize)
  · obtain ⟨q, hrun, hl, ht₀, ht₁, _, _⟩ := txdJournalInitRevoke_granted j hshift hg
    have hnodup : [p.heap.next + 2, p.heap.next + 3, p.heap.next, p.heap.next + 1].Nodup := by
      simp
    obtain ⟨freed, hfree⟩ := hl.freeTables_all
    refine ⟨_, _, q, hrun,
      Or.inl ⟨hg, rfl, ?_, bucketBytes_toNat hpos, _, freed, ?_, hfree.unwound⟩⟩
    · exact ⟨shift, _, _, _, _, hlog, hnodup, ht₀, ht₁, rfl⟩
    · exact txdJournalDestroyRevoke_run rfl rfl ht₀ ht₁ hnodup
  · obtain ⟨q, freed, hrun, hl⟩ := txdJournalInitRevoke_refused j hshift hg
    exact ⟨_, _, q, hrun, Or.inr ⟨hg, rfl, rfl, freed, hl.unwound⟩⟩

theorem txdJournalInitRevoke_tables_default :
    ∃ j' q, (txdJournalInitRevoke .reliable (.zeroed 0 (.formatted 4096))
        journalRevokeDefaultHash).run (.start fun _ _ _ => 0) = .ok ((0, j'), q) ∧
      RevokeTables (.start fun _ _ _ => 0) (.zeroed 0 (.formatted 4096))
        journalRevokeDefaultHash q j' := by
  obtain ⟨res, j', q, hrun, ⟨_, rfl, htables⟩ | ⟨hrefused, _⟩⟩ :=
    txdJournalInitRevoke_tables .reliable (.start fun _ _ _ => 0) (.zeroed 0 (.formatted 4096))
      (by decide : 0 < journalRevokeDefaultHash.toInt)
  · exact ⟨j', q, hrun, htables⟩
  · exact absurd (Platform.grants_of_allocates (fun _ _ => rfl) _ _) hrefused

end Journals

end TxDriver
