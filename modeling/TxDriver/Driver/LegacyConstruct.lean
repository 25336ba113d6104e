import TxDriver.Driver.Construct

/-!
# The first generation of journal construction

`txdriver_revoke.c` and the construction of `txdriver_journal.c`. They make the same requests in
the same order as `txd_revoke.c` and `txd_journal.c`, of `calloc` in place of the accounting
allocators, and share one label for all failures, which frees everything but the buffer head.
-/

namespace TxDriver

/-- `j` with its blocks at other addresses. -/
def TxdJournal.rename (f : Addr → Addr) (j : TxdJournal) : TxdJournal :=
  { j with
    self := f j.self
    jSbBuffer := j.jSbBuffer.map f
    jRevoke := j.jRevoke.map f
    jRevokeTable0 := j.jRevokeTable0.map f
    jRevokeTable1 := j.jRevokeTable1.map f
    jWbuf := j.jWbuf.map f }

namespace Legacy

/-- `calloc`. A product that wraps is up to the platform, like every other request. -/
def calloc (E : Platform) (num size : BitVec 64) (obj : Obj) : Driver (Option Addr) :=
  allocBlock E (num * size) obj

/-- `free`, which ignores a null pointer. -/
def free : Option Addr → Driver Unit
  | none => pure ()
  | some a => freeBlock a

def txdJournalInitRevokeTable (E : Platform) (hashSize : BitVec 32) : Driver (Option Addr) := do
  match ← calloc E 1 sizeofTxdRevokeTable (.revokeTable ⟨0, 0, none⟩) with
  | none => pure none
  | some table => do
    let shift ← Exec.lift (hashShift 32 hashSize 0)
    storeBlock table (.revokeTable ⟨hashSize, shift, none⟩)
    match ← calloc E 1 (bucketBytes hashSize) (.listHeads fun _ => ⟨none, none⟩) with
    | none => do
      free (some table)
      pure none
    | some hashTable => do
      storeBlock table (.revokeTable ⟨hashSize, shift, some hashTable⟩)
      storeBlock hashTable
        (.listHeads (initListHeads hashTable (rounds hashSize) 0 fun _ => ⟨none, none⟩))
      pure (some table)

def txdJournalDestroyRevokeTable (table : Addr) : Driver Unit := do
  let t ← loadTable table
  let (hashTable, hs) ← loadListHeads t.hashTable
  assertListsEmpty hashTable hs (rounds t.hashSize) 0
  free (some hashTable)
  free (some table)

def txdJournalDestroyRevokeTable? : Option Addr → Driver Unit
  | none => pure ()
  | some table => txdJournalDestroyRevokeTable table

def txdJournalDestroyRevoke (j : TxdJournal) : Driver TxdJournal := do
  let j := { j with jRevoke := none }
  txdJournalDestroyRevokeTable? j.jRevokeTable0
  txdJournalDestroyRevokeTable? j.jRevokeTable1
  pure j

/-- `txd_journal_init_revoke`, with an assertion that `txd_revoke.c` does not have. -/
def txdJournalInitRevoke (E : Platform) (j : TxdJournal) (hashSize : BitVec 32) :
    Driver (Int × TxdJournal) := do
  Exec.assert (j.jRevokeTable0 = none)
  let table0 ← txdJournalInitRevokeTable E hashSize
  let j := { j with jRevokeTable0 := table0 }
  match table0 with
  | none => pure (-enomem, j)
  | some a => do
    let table1 ← txdJournalInitRevokeTable E hashSize
    let j := { j with jRevokeTable1 := table1 }
    match table1 with
    | none => do
      txdJournalDestroyRevokeTable a
      pure (-enomem, { j with jRevokeTable0 := none })
    | some _ => pure (0, { j with jRevoke := table1 })

/-- `init_wait_queue`, which leaves `condition` as it is. -/
def initWaitQueue (wq : WaitQueue) : WaitQueue := wq

def initCommonOut (j : TxdJournal) : Driver (Option TxdJournal) := do
  free j.jWbuf
  let j ← txdJournalDestroyRevoke j
  free (some j.self)
  pure none

def initCommonLocks (journal : Addr) (jSb : TxdJSuperblock) : TxdJournal :=
  let j := TxdJournal.zeroed journal jSb
  { j with
    jWaitTransactionLocked := initWaitQueue j.jWaitTransactionLocked
    jWaitDoneCommit := initWaitQueue j.jWaitDoneCommit
    jWaitCommit := initWaitQueue j.jWaitCommit
    jWaitUpdates := initWaitQueue j.jWaitUpdates
    jWaitReserved := initWaitQueue j.jWaitReserved
    jCommitInterval := txdTimeIntCommit
    jMinBatchTime := txdTimeMinBatch
    jMaxBatchTime := txdTimeMaxBatch
    jReservedCredits := 0
    jFlags := txdAbort }

/-- `txd_journal_init_common`. The fields copied from the superblock are those of
`txd_journal.c`. -/
def txdJournalInitCommon (E : Platform) (jSb : TxdJSuperblock) : Driver (Option TxdJournal) := do
  match ← calloc E 1 sizeofTxdJournalPtr .journal with
  | none => pure none
  | some journal => do
    match ← calloc E 1 sizeofTxdBufferHead (.bufferHead jSb) with
    | none => initCommonOut (.zeroed journal jSb)
    | some txdBh => do
      let (err, j) ←
        txdJournalInitRevoke E (initCommonLocks journal jSb) journalRevokeDefaultHash
      if err ≠ 0 then initCommonOut j
      else do
        let j := initCommonFields j jSb
        let wbuf ← calloc E (j.jWbufsize.signExtend 64) sizeofPtr .buffer
        let j := { j with jWbuf := wbuf }
        match wbuf with
        | none => initCommonOut j
        | some _ => pure (some { j with jSbBuffer := some txdBh, jSuperblock := jSb })

def txdGetJournal (E : Platform) (jSb : TxdJSuperblock) : Driver (Option TxdJournal) := do
  match ← txdJournalInitCommon E jSb with
  | none => pure none
  | some j => pure (some { j with
      jCommitInterval := txdJCommitInterval
      jMinBatchTime := txdJMinBatchTime
      jMaxBatchTime := txdJMaxBatchTime })

/-- The same blocks with the same contents, after as many requests. The counter and the calls of
the accounting free functions may differ. -/
structure SameMemory (p p' : Process) : Prop where
  heap : p'.heap = p.heap
  requests : p'.requests = p.requests

theorem SameMemory.eq {p p' : Process} (h : SameMemory p p') :
    p' = { p' with heap := p.heap, requests := p.requests } := by
  cases p'
  rw [← h.heap, ← h.requests]

section Simulations

variable {E : Platform}

theorem calloc_simulates {num size size' : BitVec 64} (h : num * size = size') (obj : Obj) :
    Exec.Simulates SameMemory (txdZmallocSpdk E size' obj) (calloc E num size obj) := by
  subst h
  intro p p' hp
  rw [hp.eq]
  by_cases hg : E.allocates p.requests (num * size) = true
  · rw [txdZmallocSpdk_granted obj hg]
    exact ⟨_, if_pos hg, rfl, rfl⟩
  · rw [txdZmallocSpdk_refused obj hg]
    exact ⟨_, if_neg hg, rfl, rfl⟩

theorem free_simulates (a : Addr) (size : BitVec 64) :
    Exec.Simulates SameMemory (txdFreeSpdk a size) (free (some a)) := by
  intro p p' hp
  rw [hp.eq]
  by_cases hlive : p.heap.Live a
  · rw [txdFreeSpdk_live size hlive]
    exact ⟨_, if_pos hlive, rfl, rfl⟩
  · have hrun : (txdFreeSpdk a size).run p = .error (.fault (.freedTwice a)) := by
      rw [txdFreeSpdk]
      apply Exec.run_seq (Exec.run_modify _ _)
      exact if_neg hlive
    rw [hrun]
    exact if_neg hlive

theorem storeBlock_simulates (a : Addr) (obj : Obj) :
    Exec.Simulates SameMemory (storeBlock a obj) (storeBlock a obj) := by
  intro p p' hp
  rw [hp.eq]
  by_cases hlive : p.heap.Live a
  · rw [storeBlock_live obj hlive]
    exact ⟨_, if_pos hlive, rfl, rfl⟩
  · rw [show (storeBlock a obj).run p = .error (.fault (.freedBlock a)) from if_neg hlive]
    exact if_neg hlive

theorem reads_simulates {α : Type} {x : Driver α}
    (h : ∀ p p' : Process, p'.heap = p.heap → x.run p' = (x.run p).map fun r => (r.1, p')) :
    Exec.Simulates SameMemory x x := by
  intro p p' hp
  have hself := h p p rfl
  rw [h p p' hp.heap]
  cases hx : x.run p with
  | error e => rfl
  | ok r =>
    rw [hx] at hself
    injection hself with hself
    rw [hself]
    exact ⟨p', rfl, hp⟩

theorem loadTable_simulates (a : Addr) : Exec.Simulates SameMemory (loadTable a) (loadTable a) := by
  apply reads_simulates
  intro p p' hheap
  simp only [Exec.run, loadTable, hheap]
  split <;> rfl

theorem loadListHeads_simulates (a : Option Addr) :
    Exec.Simulates SameMemory (loadListHeads a) (loadListHeads a) := by
  apply reads_simulates
  intro p p' hheap
  cases a with
  | none => rfl
  | some a =>
    simp only [Exec.run, loadListHeads, hheap]
    split <;> rfl

theorem assertListsEmpty_simulates (table : Addr) (hs : Nat → ListHead) (n i : Nat) :
    Exec.Simulates SameMemory (assertListsEmpty table hs n i) (assertListsEmpty table hs n i) := by
  induction n generalizing i with
  | zero => exact .pure ()
  | succ n ih => exact (Exec.Simulates.assert _).bind fun _ => ih (i + 1)

theorem initRevokeTable_simulates (hashSize : BitVec 32) :
    Exec.Simulates SameMemory (TxDriver.txdJournalInitRevokeTable E hashSize)
      (txdJournalInitRevokeTable E hashSize) := by
  refine (calloc_simulates (BitVec.one_mul _) _).bind ?_
  intro table
  cases table with
  | none => exact .pure none
  | some table =>
    refine (Exec.Simulates.lift _).bind ?_
    intro shift
    refine (storeBlock_simulates _ _).bind ?_
    intro _
    refine (calloc_simulates (BitVec.one_mul _) _).bind ?_
    intro hashTable
    cases hashTable with
    | none => exact (free_simulates _ _).bind fun _ => .pure none
    | some hashTable =>
      refine (storeBlock_simulates _ _).bind ?_
      intro _
      exact (storeBlock_simulates _ _).bind fun _ => .pure _

theorem destroyRevokeTable_simulates (table : Addr) :
    Exec.Simulates SameMemory (TxDriver.txdJournalDestroyRevokeTable table)
      (txdJournalDestroyRevokeTable table) := by
  refine (loadTable_simulates table).bind ?_
  intro t
  refine (loadListHeads_simulates _).bind ?_
  intro heads
  refine (assertListsEmpty_simulates _ _ _ _).bind ?_
  intro _
  exact (free_simulates _ _).bind fun _ => free_simulates _ _

theorem destroyRevokeTable?_simulates (table : Option Addr) :
    Exec.Simulates SameMemory (TxDriver.txdJournalDestroyRevokeTable? table)
      (txdJournalDestroyRevokeTable? table) := by
  cases table with
  | none => exact .pure ()
  | some table => exact destroyRevokeTable_simulates table

theorem destroyRevoke_simulates (j : TxdJournal) :
    Exec.Simulates SameMemory (TxDriver.txdJournalDestroyRevoke j) (txdJournalDestroyRevoke j) := by
  refine (destroyRevokeTable?_simulates _).bind ?_
  intro _
  exact (destroyRevokeTable?_simulates _).bind fun _ => .pure _

/-- On a journal without a first table the assertion holds, and both functions do the same. -/
theorem initRevoke_simulates {j : TxdJournal} (hj : j.jRevokeTable0 = none) (hashSize : BitVec 32) :
    Exec.Simulates SameMemory (TxDriver.txdJournalInitRevoke E j hashSize)
      (txdJournalInitRevoke E j hashSize) := by
  rw [TxDriver.txdJournalInitRevoke, txdJournalInitRevoke, decide_eq_true hj, Exec.assert_true_bind]
  refine (initRevokeTable_simulates hashSize).bind ?_
  intro table0
  cases table0 with
  | none => exact .pure _
  | some a =>
    refine (initRevokeTable_simulates hashSize).bind ?_
    intro table1
    cases table1 with
    | none => exact (destroyRevokeTable_simulates a).bind fun _ => .pure _
    | some b => exact .pure _

end Simulations

section Construction

variable {E : Platform} {p q r : Process} {jSb : TxdJSuperblock}

/-- Behind the shared label the buffer of tags is a null pointer, and the revoke tables and the
journal are freed. -/
theorem initCommonOut_run {j j' : TxdJournal} (hw : j.jWbuf = none)
    (hdestroy : (txdJournalDestroyRevoke j).run q = .ok (j', r)) (hlive : r.heap.Live j'.self) :
    (initCommonOut j).run q = .ok (none, { r with heap := r.heap.free j'.self }) := by
  rw [initCommonOut, hw]
  apply Exec.run_seq (show (free none).run q = .ok ((), q) from rfl)
  apply Exec.run_seq hdestroy
  exact Exec.run_bind_ok _ (freeBlock_live hlive)

theorem destroyRevoke_none {j : TxdJournal} (h₀ : j.jRevokeTable0 = none)
    (h₁ : j.jRevokeTable1 = none) (q : Process) :
    (txdJournalDestroyRevoke j).run q = .ok ({ j with jRevoke := none }, q) := by
  simp only [txdJournalDestroyRevoke, h₀, h₁, txdJournalDestroyRevokeTable?]
  rfl

theorem callocs_granted (jSb : TxdJSuperblock)
    (hg₁ : E.allocates p.requests sizeofTxdJournalPtr = true)
    (hg₂ : E.allocates (p.requests + 1) sizeofTxdBufferHead = true) :
    ∃ q₁ q₂, (calloc E 1 sizeofTxdJournalPtr .journal).run p = .ok (some p.heap.next, q₁) ∧
      (calloc E 1 sizeofTxdBufferHead (.bufferHead jSb)).run q₁ =
        .ok (some (p.heap.next + 1), q₂) ∧
      SameMemory (p.withBufferHead jSb) q₂ := by
  obtain ⟨q₁, hc₁, hs₁⟩ := (calloc_simulates (BitVec.one_mul _) .journal).ok ⟨rfl, rfl⟩
    (txdZmallocSpdk_granted (p := p) _ hg₁)
  obtain ⟨q₂, hc₂, hs₂⟩ := (calloc_simulates (BitVec.one_mul _) (.bufferHead jSb)).ok hs₁
    (txdZmallocSpdk_granted (p := p.grantCounted sizeofTxdJournalPtr .journal) _ hg₂)
  exact ⟨q₁, q₂, hc₁, hc₂, hs₂⟩

theorem txdGetJournal_none (h : (txdJournalInitCommon E jSb).run p = .ok (none, q)) :
    (txdGetJournal E jSb).run p = .ok (none, q) := by
  rw [txdGetJournal]
  apply Exec.run_seq h
  rfl

theorem txdGetJournal_granted (hg : E.Grants p.requests (journalRequests jSb)) :
    ∃ q, (txdGetJournal E jSb).run p =
        .ok (some (TxdJournal.describedBy p.heap.next jSb), q) ∧
      p.heap.Adds q.heap (journalBlocks p.heap.next) := by
  obtain ⟨hg₁, hg₂, hg₃, hg₄⟩ := grants_journalRequests.mp hg
  let n := p.heap.next
  obtain ⟨p₃, hrun₃, hl₃, _, _, hnext₃, hreq₃⟩ := initCommon_tables jSb hg₃
  rw [← hreq₃] at hg₄
  have hl := hl₃.grant (wbufBytes (tagsPerBlock jSb.sBlocksize)) .buffer
  rw [hnext₃] at hl
  obtain ⟨q₁, q₂, hc₁, hc₂, hs₂⟩ := callocs_granted jSb hg₁ hg₂
  obtain ⟨q₃, hc₃, hs₃⟩ := (initRevoke_simulates rfl journalRevokeDefaultHash).ok hs₂ hrun₃
  obtain ⟨q₄, hc₄, hs₄⟩ := (calloc_simulates rfl .buffer).ok hs₃
    (txdZmallocSpdk_granted (p := p₃) _ hg₄)
  refine ⟨q₄, ?_, ?_⟩
  · have hrun : (txdJournalInitCommon E jSb).run p =
        .ok (some (TxdJournal.initialised n jSb), q₄) := by
      rw [txdJournalInitCommon]
      apply Exec.run_seq hc₁
      apply Exec.run_seq hc₂
      apply Exec.run_seq hc₃
      apply Exec.run_seq hc₄
      rw [hnext₃]
      rfl
    rw [txdGetJournal]
    apply Exec.run_seq hrun
    rfl
  · rw [hs₄.heap]
    exact hl.allocates.adds

theorem txdGetJournal_unstarted
    (hg : ¬E.Grants p.requests [sizeofTxdJournalPtr, sizeofTxdBufferHead]) :
    ∃ q, (txdGetJournal E jSb).run p = .ok (none, q) ∧ p.heap.Adds q.heap [] := by
  let n := p.heap.next
  let p₁ := p.grantCounted sizeofTxdJournalPtr .journal
  by_cases hg₁ : E.allocates p.requests sizeofTxdJournalPtr = true
  · have hg₂ : ¬E.allocates p₁.requests sizeofTxdBufferHead = true :=
      fun h => hg ⟨hg₁, h, trivial⟩
    obtain ⟨q₁, hc₁, hs₁⟩ := (calloc_simulates (BitVec.one_mul _) .journal).ok ⟨rfl, rfl⟩
      (txdZmallocSpdk_granted (p := p) _ hg₁)
    obtain ⟨q₂, hc₂, hs₂⟩ := (calloc_simulates (BitVec.one_mul _) (.bufferHead jSb)).ok hs₁
      (txdZmallocSpdk_refused (p := p₁) _ hg₂)
    have hadds : p.heap.Adds q₂.heap [n] := by
      rw [hs₂.heap]
      exact (Heap.Adds.refl p.heap).alloc _ _
    refine ⟨{ q₂ with heap := q₂.heap.free n }, txdGetJournal_none ?_, ?_⟩
    · rw [txdJournalInitCommon]
      apply Exec.run_seq hc₁
      apply Exec.run_seq hc₂
      exact initCommonOut_run rfl (destroyRevoke_none rfl rfl q₂) (hadds.live n (by simp))
    · simpa using hadds.free (List.mem_singleton_self n)
  · obtain ⟨q₁, hc₁, hs₁⟩ := (calloc_simulates (BitVec.one_mul _) .journal).ok ⟨rfl, rfl⟩
      (txdZmallocSpdk_refused (p := p) _ hg₁)
    refine ⟨q₁, txdGetJournal_none ?_, ?_⟩
    · rw [txdJournalInitCommon]
      apply Exec.run_seq hc₁
      rfl
    · rw [hs₁.heap]
      exact .refl p.heap

theorem SameMemory.leaves_bufferHead {n : Addr} {freed : List (Addr × BitVec 64)}
    (h : SameMemory r q)
    (hl : p.Ledger r [(n + 1, sizeofTxdBufferHead), (n, sizeofTxdJournalPtr)] freed) :
    q.heap.Live n ∧ p.heap.Adds (q.heap.free n) [n + 1] := by
  have hadds : p.heap.Adds q.heap [n + 1, n] := by
    rw [h.heap]
    exact hl.allocates.adds
  refine ⟨hadds.live n (by simp), ?_⟩
  have hfree := hadds.free (x := n) (by simp)
  simpa using hfree

theorem txdGetJournal_leaks (hg₁₂ : E.Grants p.requests [sizeofTxdJournalPtr, sizeofTxdBufferHead])
    (hg : ¬E.Grants p.requests (journalRequests jSb)) :
    ∃ q, (txdGetJournal E jSb).run p = .ok (none, q) ∧
      p.heap.Adds q.heap [p.heap.next + 1] := by
  obtain ⟨hg₁, hg₂, _⟩ := id hg₁₂
  let n := p.heap.next
  obtain ⟨q₁, q₂, hc₁, hc₂, hs₂⟩ := callocs_granted jSb hg₁ hg₂
  by_cases hg₃ : E.Grants (p.requests + 2) (revokeRequests journalRevokeDefaultHash)
  · obtain ⟨p₃, hrun₃, hl₃, ht₀, ht₁, _, hreq₃⟩ := initCommon_tables jSb hg₃
    have hg₄ : ¬E.allocates p₃.requests (wbufBytes (tagsPerBlock jSb.sBlocksize)) = true := by
      rw [hreq₃]
      exact fun hg₄ => hg (grants_journalRequests.mpr ⟨hg₁, hg₂, hg₃, hg₄⟩)
    let j := initCommonFields { initCommonLocks n jSb with
      jRevokeTable0 := some (n + 2), jRevokeTable1 := some (n + 4), jRevoke := some (n + 4) } jSb
    obtain ⟨freed, hfree⟩ := hl₃.refuse.freeTables
    have ht₀' : p₃.refuse.TableAt (n + 2) (n + 3) journalRevokeDefaultHash 8 := ht₀.mono rfl rfl
    have ht₁' : p₃.refuse.TableAt (n + 4) (n + 5) journalRevokeDefaultHash 8 := ht₁.mono rfl rfl
    have hdestroy := txdJournalDestroyRevoke_run (j := j) rfl rfl ht₀' ht₁' (by simp)
    obtain ⟨q₃, hc₃, hs₃⟩ := (initRevoke_simulates rfl journalRevokeDefaultHash).ok hs₂ hrun₃
    obtain ⟨q₄, hc₄, hs₄⟩ := (calloc_simulates rfl .buffer).ok hs₃
      (txdZmallocSpdk_refused (p := p₃) _ hg₄)
    obtain ⟨q₅, hc₅, hs₅⟩ := (destroyRevoke_simulates j).ok hs₄ hdestroy
    obtain ⟨hlive, hadds⟩ := hs₅.leaves_bufferHead hfree
    refine ⟨{ q₅ with heap := q₅.heap.free n }, txdGetJournal_none ?_, hadds⟩
    rw [txdJournalInitCommon]
    apply Exec.run_seq hc₁
    apply Exec.run_seq hc₂
    apply Exec.run_seq hc₃
    apply Exec.run_seq hc₄
    exact initCommonOut_run rfl hc₅ hlive
  · obtain ⟨p₃, freed, hrun₃, hl₃⟩ := initCommon_noTables jSb hg₃
    obtain ⟨q₃, hc₃, hs₃⟩ := (initRevoke_simulates rfl journalRevokeDefaultHash).ok hs₂ hrun₃
    obtain ⟨hlive, hadds⟩ := hs₃.leaves_bufferHead hl₃
    refine ⟨{ q₃ with heap := q₃.heap.free n }, txdGetJournal_none ?_, hadds⟩
    rw [txdJournalInitCommon]
    apply Exec.run_seq hc₁
    apply Exec.run_seq hc₂
    apply Exec.run_seq hc₃
    exact initCommonOut_run rfl (destroyRevoke_none rfl rfl q₃) hlive

end Construction

/-- From `p` both generations return nothing and leave the live blocks of `p`, or both return
journals that are the same up to the addresses of their blocks, with as many new blocks. -/
inductive ConstructionsAgree (E : Platform) (p : Process) (jSb : TxdJSuperblock) : Prop
  | nothing {q q' : Process} (current : (TxDriver.txdGetJournal E jSb).run p = .ok (none, q))
      (legacy : (txdGetJournal E jSb).run p = .ok (none, q'))
      (left : q.heap.liveBlocks = p.heap.liveBlocks)
      (left' : q'.heap.liveBlocks = p.heap.liveBlocks)
  | journals {j j' : TxdJournal} {q q' : Process} {f : Addr → Addr}
      (current : (TxDriver.txdGetJournal E jSb).run p = .ok (some j, q))
      (legacy : (txdGetJournal E jSb).run p = .ok (some j', q'))
      (injective : f.Injective) (renamed : j' = j.rename f)
      (added : (q'.heap.liveBlocks \ p.heap.liveBlocks).card =
        (q.heap.liveBlocks \ p.heap.liveBlocks).card)

theorem rename_id (j : TxdJournal) : j.rename id = j := by
  simp [TxdJournal.rename]

def refusingTables : Platform :=
  { Platform.reliable with allocates := fun k _ => k ≠ 2 }

/-- The buffer head of the older generation outlives its journal. -/
theorem not_constructionsAgree :
    ¬ConstructionsAgree refusingTables (.start fun _ _ _ => 0) (.formatted 4096) := by
  have hrun : ((txdGetJournal refusingTables (.formatted 4096)).run
      (.start fun _ _ _ => 0)).toOption.map (fun r => (r.1.isSome, decide (r.2.heap.Live 1))) =
        some (false, true) := by
    decide +kernel
  intro h
  cases h with
  | nothing _ legacy _ left' =>
    rw [legacy] at hrun
    simp only [Except.toOption, Option.map_some, Option.some.injEq, Prod.mk.injEq,
      decide_eq_true_eq] at hrun
    have hlive := Heap.mem_liveBlocks.mpr hrun.2
    rw [left'] at hlive
    exact absurd (Heap.mem_liveBlocks.mp hlive) (by decide)
  | journals _ legacy =>
    rw [legacy] at hrun
    cases hrun

/-- The generations agree exactly when all seven requests are granted or one of the first two is
refused. -/
theorem constructionsAgree_iff (E : Platform) (p : Process) (jSb : TxdJSuperblock) :
    ConstructionsAgree E p jSb ↔
      E.Grants p.requests (journalRequests jSb) ∨
        ¬E.Grants p.requests [sizeofTxdJournalPtr, sizeofTxdBufferHead] := by
  constructor
  · intro h
    by_contra hn
    rw [not_or, not_not] at hn
    obtain ⟨q, hrun, hadds⟩ := txdGetJournal_leaks hn.2 hn.1
    cases h with
    | nothing _ legacy _ left' =>
      rw [hrun] at legacy
      cases legacy
      have hm : p.heap.next + 1 ∈ q.heap.liveBlocks :=
        Heap.mem_liveBlocks.mpr (hadds.live _ (List.mem_singleton_self _))
      rw [left'] at hm
      exact Nat.not_succ_lt_self (Heap.mem_liveBlocks.mp hm).lt_next
    | journals _ legacy =>
      rw [hrun] at legacy
      cases legacy
  · intro h
    rcases h with hg | hg
    · obtain ⟨q, hrun, ha⟩ := TxDriver.txdGetJournal_granted hg
      obtain ⟨q', hrun', hadds'⟩ := txdGetJournal_granted hg
      refine .journals hrun hrun' Function.injective_id (rename_id _).symm ?_
      rw [hadds'.liveBlocks_sdiff, ha.adds.liveBlocks_sdiff]
    · have hall : ¬E.Grants p.requests (journalRequests jSb) :=
        fun h => hg (Platform.grants_append.mp h).1
      obtain ⟨q, hrun, ha⟩ := txdGetJournal_refused hall
      obtain ⟨q', hrun', hadds'⟩ := txdGetJournal_unstarted hg
      refine .nothing hrun hrun' ?_ ?_
      · simpa using ha.adds.liveBlocks
      · simpa using hadds'.liveBlocks

end Legacy

end TxDriver
