import TxDriver.Driver.Revoke

/-!
# Journal construction

`txd_journal_init_common` and `txd_get_journal`: seven allocations with three exits, each of
which frees what was allocated before it. Construction returns the journal that the superblock
describes exactly when all seven are granted, and otherwise leaves the heap as it was.
-/

namespace TxDriver

/-- `j_blocksize / sizeof(txd_journal_block_tag_t)`: an `int` divided by a `size_t` and stored
in an `int`. -/
def tagsPerBlock (blocksize : BitVec 32) : BitVec 32 :=
  (blocksize.signExtend 64 / sizeofTxdJournalBlockTag).setWidth 32

def wbufBytes (n : BitVec 32) : BitVec 64 := n.signExtend 64 * sizeofPtr

def initWaitQueue : WaitQueue := ⟨0⟩

def initCommonOut1 (journal : Addr) : Driver (Option TxdJournal) := do
  txdFreeSpdk journal sizeofTxdJournalPtr
  pure none

/-- The label `out2`, which falls through to `out1`. -/
def initCommonOut2 (journal txdBh : Addr) : Driver (Option TxdJournal) := do
  txdFreeSpdk txdBh sizeofTxdBufferHead
  initCommonOut1 journal

/-- The label `out3`, which falls through to `out2`. -/
def initCommonOut3 (j : TxdJournal) (txdBh : Addr) : Driver (Option TxdJournal) := do
  let j ← txdJournalDestroyRevoke j
  initCommonOut2 j.self txdBh

def initCommonLocks (journal : Addr) (jSb : TxdJSuperblock) : TxdJournal :=
  { TxdJournal.zeroed journal jSb with
    jWaitTransactionLocked := initWaitQueue
    jWaitDoneCommit := initWaitQueue
    jWaitCommit := initWaitQueue
    jWaitUpdates := initWaitQueue
    jWaitReserved := initWaitQueue
    jCommitInterval := txdTimeIntCommit
    jMinBatchTime := txdTimeMinBatch
    jMaxBatchTime := txdTimeMaxBatch
    jReservedCredits := 0
    jFlags := txdAbort }

def initCommonFields (j : TxdJournal) (jSb : TxdJSuperblock) : TxdJournal :=
  { j with
    jBlkOffset := jSb.sFirst.setWidth 64
    jMaxlen := jSb.sMaxlen
    jBlocksize := jSb.sBlocksize
    jTailSequence := jSb.sSequence
    jTail := jSb.sStart.setWidth 64
    jFirst := jSb.sFirst.setWidth 64
    jLast := jSb.sMaxlen.setWidth 64
    jErrno := jSb.sErrno
    jWbufsize := tagsPerBlock jSb.sBlocksize }

/-- `txd_journal_init_common`. The buffer head's `bh_buf`, assigned right after the allocation,
is the superblock it is allocated with here. -/
def txdJournalInitCommon (E : Platform) (jSb : TxdJSuperblock) : Driver (Option TxdJournal) := do
  match ← txdZmallocSpdk E sizeofTxdJournalPtr .journal with
  | none => pure none
  | some journal => do
    match ← txdZmallocSpdk E sizeofTxdBufferHead (.bufferHead jSb) with
    | none => initCommonOut1 journal
    | some txdBh => do
      let (err, j) ←
        txdJournalInitRevoke E (initCommonLocks journal jSb) journalRevokeDefaultHash
      if err ≠ 0 then initCommonOut2 journal txdBh
      else do
        let j := initCommonFields j jSb
        match ← txdZmallocSpdk E (wbufBytes j.jWbufsize) .buffer with
        | none => initCommonOut3 j txdBh
        | some wbuf =>
          pure (some { j with jWbuf := some wbuf, jSbBuffer := some txdBh, jSuperblock := jSb })

def txdGetJournal (E : Platform) (jSb : TxdJSuperblock) : Driver (Option TxdJournal) := do
  match ← txdJournalInitCommon E jSb with
  | none => pure none
  | some j => pure (some { j with
      jCommitInterval := txdJCommitInterval
      jMinBatchTime := txdJMinBatchTime
      jMaxBatchTime := txdJMaxBatchTime })

def journalRequests (jSb : TxdJSuperblock) : List (BitVec 64) :=
  [sizeofTxdJournalPtr, sizeofTxdBufferHead] ++
    (revokeRequests journalRevokeDefaultHash ++ [wbufBytes (tagsPerBlock jSb.sBlocksize)])

/-- The blocks of a journal built from address `n` on, the last one first. -/
def journalBlocks (n : Addr) : List Addr := [n + 6, n + 5, n + 4, n + 3, n + 2, n + 1, n]

def journalLedger (n : Addr) (jSb : TxdJSuperblock) : List (Addr × BitVec 64) :=
  (n + 6, wbufBytes (tagsPerBlock jSb.sBlocksize)) ::
    (revokeBlocks (n + 2) journalRevokeDefaultHash ++
      [(n + 1, sizeofTxdBufferHead), (n, sizeofTxdJournalPtr)])

/-- The journal that `jSb` describes, its blocks at the addresses from `n` on. -/
def TxdJournal.describedBy (n : Addr) (jSb : TxdJSuperblock) : TxdJournal :=
  { initCommonFields (initCommonLocks n jSb) jSb with
    jRevokeTable0 := some (n + 2)
    jRevokeTable1 := some (n + 4)
    jRevoke := some (n + 4)
    jWbuf := some (n + 6)
    jSbBuffer := some (n + 1)
    jCommitInterval := txdJCommitInterval
    jMinBatchTime := txdJMinBatchTime
    jMaxBatchTime := txdJMaxBatchTime }

theorem hashShift_default : hashShift 32 journalRevokeDefaultHash 0 = .ok 8 := by decide

/-- The journal before `txd_get_journal` assigns its times. -/
def TxdJournal.initialised (n : Addr) (jSb : TxdJSuperblock) : TxdJournal :=
  { initCommonFields (initCommonLocks n jSb) jSb with
    jRevokeTable0 := some (n + 2)
    jRevokeTable1 := some (n + 4)
    jRevoke := some (n + 4)
    jWbuf := some (n + 6)
    jSbBuffer := some (n + 1) }

/-- Every block of the journal is at the end of one of its pointers. -/
structure TxdJournal.Owns (j : TxdJournal) (q : Process) (bh t₀ b₀ t₁ b₁ wbuf : Addr) : Prop where
  bufferHead : j.jSbBuffer = some bh
  table0 : j.jRevokeTable0 = some t₀
  buckets0 : q.TableAt t₀ b₀ journalRevokeDefaultHash 8
  table1 : j.jRevokeTable1 = some t₁
  buckets1 : q.TableAt t₁ b₁ journalRevokeDefaultHash 8
  wbuf : j.jWbuf = some wbuf

section Construction

variable {E : Platform} {p q : Process} {jSb : TxdJSuperblock} {n : Addr}
  {freed : List (Addr × BitVec 64)}

private theorem initCommonOut1_unwinds (h : p.Ledger q [(n, sizeofTxdJournalPtr)] freed) :
    ∃ r freed', (initCommonOut1 n).run q = .ok (none, r) ∧ p.Ledger r [] freed' := by
  refine ⟨_, _, ?_, h.free_head⟩
  rw [initCommonOut1]
  apply Exec.run_seq (txdFreeSpdk_live _ (h.live_of_mem (List.mem_cons_self ..)))
  rfl

private theorem initCommonOut2_unwinds
    (h : p.Ledger q [(n + 1, sizeofTxdBufferHead), (n, sizeofTxdJournalPtr)] freed) :
    ∃ r freed', (initCommonOut2 n (n + 1)).run q = .ok (none, r) ∧ p.Ledger r [] freed' := by
  obtain ⟨r, freed', hrun, hr⟩ := initCommonOut1_unwinds h.free_head
  refine ⟨r, freed', ?_, hr⟩
  rw [initCommonOut2]
  apply Exec.run_seq (txdFreeSpdk_live _ (h.live_of_mem (List.mem_cons_self ..)))
  exact hrun

private theorem initCommonOut3_unwinds {j : TxdJournal} (hself : j.self = n)
    (hj₀ : j.jRevokeTable0 = some (n + 2)) (hj₁ : j.jRevokeTable1 = some (n + 4))
    (h : p.Ledger q (revokeBlocks (n + 2) journalRevokeDefaultHash ++
      [(n + 1, sizeofTxdBufferHead), (n, sizeofTxdJournalPtr)]) freed)
    (h₀ : q.TableAt (n + 2) (n + 3) journalRevokeDefaultHash 8)
    (h₁ : q.TableAt (n + 4) (n + 5) journalRevokeDefaultHash 8) :
    ∃ r freed', (initCommonOut3 j (n + 1)).run q = .ok (none, r) ∧ p.Ledger r [] freed' := by
  obtain ⟨freed', hfree⟩ := h.freeTables
  obtain ⟨r, freed'', hrun, hr⟩ := initCommonOut2_unwinds hfree
  refine ⟨r, freed'', ?_, hr⟩
  rw [initCommonOut3]
  apply Exec.run_seq (txdJournalDestroyRevoke_run hj₀ hj₁ h₀ h₁ (by simp))
  rw [hself]
  exact hrun

theorem grants_journalRequests {k : Nat} :
    E.Grants k (journalRequests jSb) ↔
      E.allocates k sizeofTxdJournalPtr = true ∧ E.allocates (k + 1) sizeofTxdBufferHead = true ∧
        E.Grants (k + 2) (revokeRequests journalRevokeDefaultHash) ∧
        E.allocates (k + 6) (wbufBytes (tagsPerBlock jSb.sBlocksize)) = true := by
  rw [journalRequests, Platform.grants_append, Platform.grants_append]
  simp only [Platform.Grants, and_true, and_assoc, List.length_cons, List.length_nil,
    revokeRequests]

def Process.withBufferHead (p : Process) (jSb : TxdJSuperblock) : Process :=
  (p.grantCounted sizeofTxdJournalPtr .journal).grantCounted sizeofTxdBufferHead (.bufferHead jSb)

theorem withBufferHead_ledger (p : Process) (jSb : TxdJSuperblock) :
    p.Ledger (p.withBufferHead jSb)
      [(p.heap.next + 1, sizeofTxdBufferHead), (p.heap.next, sizeofTxdJournalPtr)] [] :=
  (Process.Ledger.refl.grant _ _).grant _ _

theorem initCommon_tables (jSb : TxdJSuperblock)
    (hg : E.Grants (p.requests + 2) (revokeRequests journalRevokeDefaultHash)) :
    let n := p.heap.next
    ∃ q, (txdJournalInitRevoke E (initCommonLocks n jSb) journalRevokeDefaultHash).run
        (p.withBufferHead jSb) =
        .ok ((0, { initCommonLocks n jSb with
          jRevokeTable0 := some (n + 2)
          jRevokeTable1 := some (n + 4)
          jRevoke := some (n + 4) }), q) ∧
      p.Ledger q (revokeBlocks (n + 2) journalRevokeDefaultHash ++
        [(n + 1, sizeofTxdBufferHead), (n, sizeofTxdJournalPtr)]) [] ∧
      q.TableAt (n + 2) (n + 3) journalRevokeDefaultHash 8 ∧
      q.TableAt (n + 4) (n + 5) journalRevokeDefaultHash 8 ∧
      q.heap.next = n + 6 ∧ q.requests = p.requests + 6 := by
  intro n
  obtain ⟨q, hrun, hl, ht₀, ht₁, hnext, hreq⟩ := txdJournalInitRevoke_granted
    (p := p.withBufferHead jSb) (initCommonLocks n jSb) hashShift_default hg
  exact ⟨q, hrun, (withBufferHead_ledger p jSb).trans hl, ht₀, ht₁, hnext, hreq⟩

theorem initCommon_noTables (jSb : TxdJSuperblock)
    (hg : ¬E.Grants (p.requests + 2) (revokeRequests journalRevokeDefaultHash)) :
    let n := p.heap.next
    ∃ q freed, (txdJournalInitRevoke E (initCommonLocks n jSb) journalRevokeDefaultHash).run
        (p.withBufferHead jSb) = .ok ((-enomem, initCommonLocks n jSb), q) ∧
      p.Ledger q [(n + 1, sizeofTxdBufferHead), (n, sizeofTxdJournalPtr)] freed := by
  intro n
  obtain ⟨q, freed, hrun, hl⟩ := txdJournalInitRevoke_refused
    (p := p.withBufferHead jSb) (initCommonLocks n jSb) hashShift_default hg
  refine ⟨q, _, ?_, (withBufferHead_ledger p jSb).trans hl⟩
  rw [hrun]
  split <;> rfl

theorem txdJournalInitCommon_granted (hg : E.Grants p.requests (journalRequests jSb)) :
    ∃ q, (txdJournalInitCommon E jSb).run p =
        .ok (some (TxdJournal.initialised p.heap.next jSb), q) ∧
      p.Ledger q (journalLedger p.heap.next jSb) [] ∧
      q.TableAt (p.heap.next + 2) (p.heap.next + 3) journalRevokeDefaultHash 8 ∧
      q.TableAt (p.heap.next + 4) (p.heap.next + 5) journalRevokeDefaultHash 8 := by
  obtain ⟨hg₁, hg₂, hg₃, hg₄⟩ := grants_journalRequests.mp hg
  let n := p.heap.next
  let p₁ := p.grantCounted sizeofTxdJournalPtr .journal
  obtain ⟨p₃, hrun₃, hl₃, ht₀, ht₁, hnext₃, hreq₃⟩ := initCommon_tables jSb hg₃
  let p₄ := p₃.grantCounted (wbufBytes (tagsPerBlock jSb.sBlocksize)) .buffer
  rw [← hreq₃] at hg₄
  have hl := hl₃.grant (wbufBytes (tagsPerBlock jSb.sBlocksize)) .buffer
  rw [hnext₃] at hl
  have hkept (a : Addr) (ha : a < p₃.heap.next) : p₄.heap.cells a = p₃.heap.cells a :=
    Heap.cells_alloc_of_ne _ _ (Nat.ne_of_lt ha)
  have hlt (k : Nat) (hk : k < 6) : n + k < p₃.heap.next := by
    rw [hnext₃]
    exact Nat.add_lt_add_left hk n
  refine ⟨p₄, ?_, hl, ht₀.mono (hkept _ (hlt 2 (by decide))) (hkept _ (hlt 3 (by decide))),
    ht₁.mono (hkept _ (hlt 4 (by decide))) (hkept _ (hlt 5 (by decide)))⟩
  rw [txdJournalInitCommon]
  apply Exec.run_seq (txdZmallocSpdk_granted _ hg₁)
  apply Exec.run_seq (txdZmallocSpdk_granted (p := p₁) _ hg₂)
  apply Exec.run_seq hrun₃
  apply Exec.run_seq (txdZmallocSpdk_granted (p := p₃) _ hg₄)
  rw [hnext₃]
  rfl

theorem txdJournalInitCommon_refused (hg : ¬E.Grants p.requests (journalRequests jSb)) :
    ∃ q freed, (txdJournalInitCommon E jSb).run p = .ok (none, q) ∧ p.Ledger q [] freed := by
  rw [grants_journalRequests] at hg
  let n := p.heap.next
  let p₁ := p.grantCounted sizeofTxdJournalPtr .journal
  have hl₁ : p.Ledger p₁ [(n, sizeofTxdJournalPtr)] [] := Process.Ledger.refl.grant _ _
  rw [txdJournalInitCommon]
  by_cases hg₁ : E.allocates p.requests sizeofTxdJournalPtr = true
  swap
  · refine ⟨p.refuse, [], ?_, Process.Ledger.refl.refuse⟩
    apply Exec.run_seq (txdZmallocSpdk_refused _ hg₁)
    rfl
  by_cases hg₂ : E.allocates p₁.requests sizeofTxdBufferHead = true
  swap
  · obtain ⟨q, freed, hrun, hq⟩ := initCommonOut1_unwinds hl₁.refuse
    refine ⟨q, freed, ?_, hq⟩
    apply Exec.run_seq (txdZmallocSpdk_granted _ hg₁)
    apply Exec.run_seq (txdZmallocSpdk_refused (p := p₁) _ hg₂)
    exact hrun
  by_cases hg₃ : E.Grants (p.requests + 2) (revokeRequests journalRevokeDefaultHash)
  swap
  · obtain ⟨p₃, freed, hrun₃, hl₃⟩ := initCommon_noTables jSb hg₃
    obtain ⟨q, freed', hrun, hq⟩ := initCommonOut2_unwinds hl₃
    refine ⟨q, freed', ?_, hq⟩
    apply Exec.run_seq (txdZmallocSpdk_granted _ hg₁)
    apply Exec.run_seq (txdZmallocSpdk_granted (p := p₁) _ hg₂)
    apply Exec.run_seq hrun₃
    exact hrun
  obtain ⟨p₃, hrun₃, hl₃, ht₀, ht₁, hnext₃, hreq₃⟩ := initCommon_tables jSb hg₃
  have hg₄ : ¬E.allocates p₃.requests (wbufBytes (tagsPerBlock jSb.sBlocksize)) = true := by
    rw [hreq₃]
    exact fun hg₄ => hg ⟨hg₁, hg₂, hg₃, hg₄⟩
  let j := initCommonFields { initCommonLocks n jSb with
    jRevokeTable0 := some (n + 2), jRevokeTable1 := some (n + 4), jRevoke := some (n + 4) } jSb
  have hout : ∃ r freed, (initCommonOut3 j (n + 1)).run p₃.refuse = .ok (none, r) ∧
      p.Ledger r [] freed :=
    initCommonOut3_unwinds rfl rfl rfl hl₃.refuse (ht₀.mono rfl rfl) (ht₁.mono rfl rfl)
  obtain ⟨q, freed, hrun, hq⟩ := hout
  refine ⟨q, freed, ?_, hq⟩
  apply Exec.run_seq (txdZmallocSpdk_granted _ hg₁)
  apply Exec.run_seq (txdZmallocSpdk_granted (p := p₁) _ hg₂)
  apply Exec.run_seq hrun₃
  apply Exec.run_seq (txdZmallocSpdk_refused (p := p₃) _ hg₄)
  exact hrun

/-- A journal comes with exactly its seven blocks when all of them are granted, and not at all when
one is refused. -/
theorem txdJournalInitCommon_allOrNothing (E : Platform) (p : Process) (jSb : TxdJSuperblock) :
    (E.Grants p.requests (journalRequests jSb) ∧
      ∃ j q bh t₀ b₀ t₁ b₁ wbuf, (txdJournalInitCommon E jSb).run p = .ok (some j, q) ∧
        j.Owns q bh t₀ b₀ t₁ b₁ wbuf ∧
        p.heap.Adds q.heap [wbuf, b₁, t₁, b₀, t₀, bh, j.self]) ∨
      (¬E.Grants p.requests (journalRequests jSb) ∧
        ∃ q freed, (txdJournalInitCommon E jSb).run p = .ok (none, q) ∧ p.Unwound q freed) := by
  by_cases hg : E.Grants p.requests (journalRequests jSb)
  · obtain ⟨q, hrun, hl, ht₀, ht₁⟩ := txdJournalInitCommon_granted hg
    exact Or.inl ⟨hg, _, q, _, _, _, _, _, _, hrun, ⟨rfl, rfl, ht₀, rfl, ht₁, rfl⟩,
      hl.allocates.adds⟩
  · obtain ⟨q, freed, hrun, hl⟩ := txdJournalInitCommon_refused hg
    exact Or.inr ⟨hg, q, freed, hrun, hl.unwound⟩

theorem txdGetJournal_ledger (hg : E.Grants p.requests (journalRequests jSb)) :
    ∃ q, (txdGetJournal E jSb).run p =
        .ok (some (TxdJournal.describedBy p.heap.next jSb), q) ∧
      p.Ledger q (journalLedger p.heap.next jSb) [] := by
  obtain ⟨q, hrun, hl, _, _⟩ := txdJournalInitCommon_granted hg
  refine ⟨q, ?_, hl⟩
  rw [txdGetJournal]
  apply Exec.run_seq hrun
  rfl

theorem txdGetJournal_granted (hg : E.Grants p.requests (journalRequests jSb)) :
    ∃ q, (txdGetJournal E jSb).run p =
        .ok (some (TxdJournal.describedBy p.heap.next jSb), q) ∧
      p.Allocates q (journalBlocks p.heap.next) (totalSize (journalLedger p.heap.next jSb)) := by
  obtain ⟨q, hrun, hl⟩ := txdGetJournal_ledger hg
  exact ⟨q, hrun, hl.allocates⟩

theorem txdGetJournal_refused (hg : ¬E.Grants p.requests (journalRequests jSb)) :
    ∃ q, (txdGetJournal E jSb).run p = .ok (none, q) ∧ p.Restored q := by
  obtain ⟨q, freed, hrun, hl⟩ := txdJournalInitCommon_refused hg
  refine ⟨q, ?_, hl.restored⟩
  rw [txdGetJournal]
  apply Exec.run_seq hrun
  rfl

theorem txdGetJournal_cases (E : Platform) (p : Process) (jSb : TxdJSuperblock) :
    (∃ q, (txdGetJournal E jSb).run p = .ok (none, q) ∧ p.Restored q) ∨
      ∃ q extra, (txdGetJournal E jSb).run p =
          .ok (some (TxdJournal.describedBy p.heap.next jSb), q) ∧
        p.Allocates q (journalBlocks p.heap.next) extra := by
  by_cases hg : E.Grants p.requests (journalRequests jSb)
  · obtain ⟨q, hrun, ha⟩ := txdGetJournal_granted hg
    exact Or.inr ⟨q, _, hrun, ha⟩
  · exact Or.inl (txdGetJournal_refused hg)

theorem tagsPerBlock_toNat (s : BitVec 32) :
    (tagsPerBlock s).toNat = (s.signExtend 64).toNat / 64 % 2 ^ 32 := by
  simp [tagsPerBlock, sizeofTxdJournalBlockTag]

theorem wbufBytes_toNat (n : BitVec 32) :
    (wbufBytes n).toNat = (n.signExtend 64).toNat * 8 % 2 ^ 64 := by
  simp [wbufBytes, sizeofPtr]

theorem tagsPerBlock_of_lt {s : BitVec 32} (h : s.toNat < 2 ^ 31) :
    (tagsPerBlock s).toNat = s.toNat / 64 := by
  rw [tagsPerBlock_toNat, toNat_signExtend_of_lt h]
  omega

/-- As a `size_t` the negative block size is huge, and truncating the quotient makes it negative
again. -/
theorem tagsPerBlock_of_ge {s : BitVec 32} (h : 2 ^ 31 ≤ s.toNat) :
    (tagsPerBlock s).toNat = 2 ^ 32 - 2 ^ 26 + s.toNat / 64 := by
  have hs := s.isLt
  rw [tagsPerBlock_toNat, toNat_signExtend_of_ge h]
  omega

theorem wbufBytes_of_lt {s : BitVec 32} (h : s.toNat < 2 ^ 31) :
    (wbufBytes (tagsPerBlock s)).toNat = s.toNat / 64 * 8 := by
  have htags := tagsPerBlock_of_lt h
  rw [wbufBytes_toNat, toNat_signExtend_of_lt (by omega), htags]
  omega

theorem wbufBytes_of_ge {s : BitVec 32} (h : 2 ^ 31 ≤ s.toNat) :
    2 ^ 63 < (wbufBytes (tagsPerBlock s)).toNat := by
  have hs := s.isLt
  have htags := tagsPerBlock_of_ge h
  rw [wbufBytes_toNat, toNat_signExtend_of_ge (by omega), htags]
  omega

/-- The tag capacity of `j` fits the block size on disk and the block that `j_wbuf` points at. -/
structure TxdJournal.TagCapacity (j : TxdJournal) (jSb : TxdJSuperblock) (q : Process) : Prop where
  blocksize : j.jBlocksize = jSb.sBlocksize
  positive : 0 < j.jBlocksize.toInt
  sameValue : j.jBlocksize.toInt = jSb.sBlocksize.toNat
  capacity : j.jWbufsize.toInt = (jSb.sBlocksize.toNat / sizeofTxdJournalBlockTag.toNat : Nat)
  one_le : 1 ≤ j.jWbufsize.toInt
  bounded : j.jWbufsize.toInt < 2 ^ 25
  request : (wbufBytes j.jWbufsize).toNat = j.jWbufsize.toNat * sizeofPtr.toNat
  wbuf : ∃ a obj, j.jWbuf = some a ∧
    q.heap.cells a = some (j.jWbufsize.toNat * sizeofPtr.toNat, obj)

theorem describedBy_tagCapacity (hl : p.Ledger q (journalLedger n jSb) freed)
    (hlo : 64 ≤ jSb.sBlocksize.toNat) (hhi : jSb.sBlocksize.toNat < 2 ^ 31) :
    (TxdJournal.describedBy n jSb).TagCapacity jSb q := by
  have htags := tagsPerBlock_of_lt hhi
  have hbytes : (wbufBytes (tagsPerBlock jSb.sBlocksize)).toNat =
      (tagsPerBlock jSb.sBlocksize).toNat * sizeofPtr.toNat := by
    rw [wbufBytes_of_lt hhi, htags]
    rfl
  have hvalue : jSb.sBlocksize.toInt = jSb.sBlocksize.toNat :=
    BitVec.toInt_eq_toNat_of_lt (by omega)
  have hcount : (tagsPerBlock jSb.sBlocksize).toInt = (jSb.sBlocksize.toNat / 64 : Nat) := by
    rw [BitVec.toInt_eq_toNat_of_lt (by omega), htags]
  obtain ⟨obj, hcell⟩ := hl.cells (List.mem_cons_self ..)
  rw [hbytes] at hcell
  refine ⟨rfl, ?_, hvalue, hcount, ?_, ?_, hbytes, n + 6, obj, rfl, hcell⟩
  · change 0 < jSb.sBlocksize.toInt
    omega
  · change 1 ≤ (tagsPerBlock jSb.sBlocksize).toInt
    omega
  · change (tagsPerBlock jSb.sBlocksize).toInt < 2 ^ 25
    omega

/-- An allocator that refuses empty and huge requests stops every block size that has no sound
tag capacity. -/
theorem txdGetJournal_tagCapacity (hzero : ∀ k, E.allocates k 0#64 = false)
    (hhuge : ∀ k size, 2 ^ 63 < size.toNat → E.allocates k size = false) (p : Process)
    (jSb : TxdJSuperblock) :
    (∀ j q, (txdGetJournal E jSb).run p = .ok (some j, q) → j.TagCapacity jSb q) ∧
      (jSb.sBlocksize.toNat < 64 ∨ 2 ^ 31 ≤ jSb.sBlocksize.toNat →
        ∃ q, (txdGetJournal E jSb).run p = .ok (none, q)) := by
  have hbad (hs : jSb.sBlocksize.toNat < 64 ∨ 2 ^ 31 ≤ jSb.sBlocksize.toNat) :
      ¬E.Grants p.requests (journalRequests jSb) := by
    intro hg
    obtain ⟨_, _, _, hwbuf⟩ := grants_journalRequests.mp hg
    rcases hs with hs | hs
    · have hempty : wbufBytes (tagsPerBlock jSb.sBlocksize) = 0#64 := by
        apply BitVec.eq_of_toNat_eq
        rw [wbufBytes_of_lt (by omega)]
        change _ = 0
        omega
      rw [hempty, hzero] at hwbuf
      cases hwbuf
    · rw [hhuge _ _ (wbufBytes_of_ge hs)] at hwbuf
      cases hwbuf
  constructor
  · intro j q hrun
    by_cases hg : E.Grants p.requests (journalRequests jSb)
    · obtain ⟨q', hrun', hl⟩ := txdGetJournal_ledger hg
      rw [hrun'] at hrun
      cases hrun
      refine describedBy_tagCapacity hl ?_ ?_
      · by_contra hs
        exact hbad (Or.inl (by omega)) hg
      · by_contra hs
        exact hbad (Or.inr (by omega)) hg
    · obtain ⟨q', hrun', _⟩ := txdGetJournal_refused hg
      rw [hrun'] at hrun
      cases hrun
  · intro hs
    obtain ⟨q, hrun, _⟩ := txdGetJournal_refused (hbad hs)
    exact ⟨q, hrun⟩

def Platform.bounded : Platform :=
  { Platform.reliable with allocates := fun _ size => size ≠ 0#64 && size.toNat ≤ 2 ^ 63 }

theorem bounded_zero (k : Nat) : Platform.bounded.allocates k 0#64 = false := rfl

theorem bounded_huge (k : Nat) (size : BitVec 64) (h : 2 ^ 63 < size.toNat) :
    Platform.bounded.allocates k size = false := by
  have hle : ¬size.toNat ≤ 2 ^ 63 := Nat.not_le_of_gt h
  show (size ≠ 0#64 && size.toNat ≤ 2 ^ 63 : Bool) = false
  rw [decide_eq_false hle, Bool.and_false]

theorem txdGetJournal_tagCapacity_formatted :
    ∃ j q, (txdGetJournal .bounded (.formatted 4096)).run (.start fun _ _ _ => 0) =
        .ok (some j, q) ∧ j.TagCapacity (.formatted 4096) q := by
  have hg : Platform.bounded.Grants (Process.start fun _ _ _ => 0).requests
      (journalRequests (.formatted 4096)) := by decide
  obtain ⟨q, hrun, _⟩ := txdGetJournal_ledger hg
  exact ⟨_, q, hrun, (txdGetJournal_tagCapacity bounded_zero bounded_huge _ _).1 _ q hrun⟩

end Construction

end TxDriver
