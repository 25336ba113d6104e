import TxDriver.Driver.Construct

/-!
# Loading a journal

`txd_journal_load` recovers a journal, resets its log to an empty one and starts the commit
thread. Each function is given with the C widths of its fields; the log geometry that the reset
leaves, and the agreement between the journal and its superblock, follow from one equation that
describes every outcome of a load.
-/

namespace TxDriver

/-- `txd_journal_recover`, a stub that reports success. -/
def txdJournalRecover (_j : TxdJournal) : Int := txdSuccess

def txdJournalNeedRecovery (_j : TxdJournal) : Int := txdTrue

def txdWipeJournalLog (_j : TxdJournal) : Int := txdFail

/-- `txd_journal_update_sb_log_tail`: its body is compiled out. -/
def txdJournalUpdateSbLogTail (j : TxdJournal) (_tailTid : BitVec 32) (_tailBlock : BitVec 64)
    (_writeOp : BitVec 32) : Int × TxdJournal := (txdFail, j)

/-- `while (wq->condition) pthread_cond_wait(…)`: the condition is cleared by the commit thread
when there is one. -/
def waitForCommitThread (created : Bool) (wq : WaitQueue) : Except (Stop Fault) WaitQueue :=
  if wq.condition = 0 then .ok wq
  else if created then .ok { wq with condition := 0 }
  else .error .hang

/-- `txd_journal_start_thread`, where `pthread_create` returns `r`. -/
def txdJournalStartThread (r : Int) (j : TxdJournal) : Except (Stop Fault) (Int × TxdJournal) :=
  let j := { j with jWaitDoneCommit := { j.jWaitDoneCommit with condition := 1 } }
  if r = txdFail then .ok (r, j)
  else do
    let wq ← waitForCommitThread (r = 0) j.jWaitDoneCommit
    .ok (txdSuccess, { j with jWaitDoneCommit := { wq with condition := wq.condition + 1 } })

def resetFields (first last : BitVec 64) (j : TxdJournal) : TxdJournal :=
  { j with
    jFirst := first
    jLast := last
    jHead := first
    jTail := first
    jFree := last - first
    jTailSequence := j.jTransactionSequence
    jCommitSequence := j.jTransactionSequence - 1
    jCommitRequest := j.jTransactionSequence - 1
    jMaxTransactionBuffers := j.jMaxlen / 4 }

def resetTailUpdate (j : TxdJournal) : Int × TxdJournal :=
  txdJournalUpdateSbLogTail j j.jTailSequence j.jTail reqFua

/-- The end of `txd_journal_reset` before the thread is started, with the result of the log-tail
update if there is one. -/
def resetTailUpdated (j : TxdJournal) : Option Int × TxdJournal :=
  if j.jSuperblock.sStart = 0 then (none, { j with jFlags := j.jFlags ||| txdFlushed })
  else
    let (ret, j) := resetTailUpdate j
    (some ret, j)

/-- The reset drops that result. -/
def resetTail (j : TxdJournal) : TxdJournal := (resetTailUpdated j).2

def txdJournalReset (r : Int) (j : TxdJournal) : Except (Stop Fault) (Int × TxdJournal) :=
  let first := j.jSuperblock.sFirst.setWidth 64
  let last := j.jSuperblock.sMaxlen.setWidth 64
  if first + txdMinJournalBlocks > last + 1 then .ok (txdFail, j)
  else txdJournalStartThread r (resetTail (resetFields first last j))

/-- `txd_journal_load` over any recovery routine. -/
def txdJournalLoadWith (recover : TxdJournal → Int) (r : Int) (j : TxdJournal) :
    Except (Stop Fault) (Int × TxdJournal) :=
  if recover j ≠ 0 then .ok (txdFail, j)
  else if j.jFailedCommit ≠ 0 then .ok (txdFail, j)
  else do
    let (err, j) ← txdJournalReset r j
    if err ≠ 0 then .ok (txdFail, j)
    else .ok (txdSuccess, { j with jFlags := (j.jFlags &&& ~~~txdAbort) ||| txdLoaded })

def txdJournalLoad (r : Int) (j : TxdJournal) : Except (Stop Fault) (Int × TxdJournal) :=
  txdJournalLoadWith txdJournalRecover r j

/-- The length test, over the unbounded integers. -/
def TxdJSuperblock.LongEnough (sb : TxdJSuperblock) : Prop :=
  sb.sFirst.toNat + 1023 ≤ sb.sMaxlen.toNat

instance (sb : TxdJSuperblock) : Decidable sb.LongEnough :=
  inferInstanceAs (Decidable (_ ≤ _))

/-- The journal after a reset, whether or not its thread was created. -/
def TxdJournal.afterReset (j : TxdJournal) : TxdJournal :=
  { resetTail (resetFields (j.jSuperblock.sFirst.setWidth 64)
      (j.jSuperblock.sMaxlen.setWidth 64) j) with jWaitDoneCommit := ⟨1⟩ }

def TxdJournal.afterLoad (j : TxdJournal) : TxdJournal :=
  { j.afterReset with jFlags := (j.afterReset.jFlags &&& ~~~txdAbort) ||| txdLoaded }

/-- In 64 bits the length test cannot wrap. -/
theorem lengthTest_iff (sb : TxdJSuperblock) :
    sb.sFirst.setWidth 64 + txdMinJournalBlocks > sb.sMaxlen.setWidth 64 + 1 ↔ ¬sb.LongEnough := by
  have hfirst := sb.sFirst.isLt
  have hlast := sb.sMaxlen.isLt
  have hleft : (sb.sFirst.setWidth 64 + txdMinJournalBlocks).toNat = sb.sFirst.toNat + 1024 := by
    rw [BitVec.toNat_add, toNat_widened]
    change (_ + 1024) % 2 ^ 64 = _
    omega
  have hright : (sb.sMaxlen.setWidth 64 + 1).toNat = sb.sMaxlen.toNat + 1 := by
    rw [BitVec.toNat_add, toNat_widened]
    change (_ + 1) % 2 ^ 64 = _
    omega
  rw [gt_iff_lt, BitVec.lt_def, hleft, hright, TxdJSuperblock.LongEnough]
  omega

theorem txdJournalStartThread_eq (r : Int) (j : TxdJournal) :
    txdJournalStartThread r j =
      if r = 0 then .ok (txdSuccess, { j with jWaitDoneCommit := ⟨1⟩ })
      else if r = txdFail then .ok (txdFail, { j with jWaitDoneCommit := ⟨1⟩ })
      else .error .hang := by
  by_cases h0 : r = 0
  · subst r
    rfl
  · by_cases h1 : r = txdFail
    · subst r
      rfl
    · rw [if_neg h0, if_neg h1]
      simp only [txdJournalStartThread, if_neg h1, waitForCommitThread, h0]
      rfl

theorem txdJournalReset_short {r : Int} {j : TxdJournal} (h : ¬j.jSuperblock.LongEnough) :
    txdJournalReset r j = .ok (txdFail, j) := by
  have hshort := (lengthTest_iff j.jSuperblock).mpr h
  simp only [txdJournalReset]
  rw [if_pos hshort]

theorem txdJournalReset_long {r : Int} {j : TxdJournal} (h : j.jSuperblock.LongEnough) :
    txdJournalReset r j =
      if r = 0 then .ok (txdSuccess, j.afterReset)
      else if r = txdFail then .ok (txdFail, j.afterReset)
      else .error .hang := by
  rw [txdJournalReset, if_neg (mt (lengthTest_iff _).mp (not_not_intro h)),
    txdJournalStartThread_eq]
  rfl

/-- Every outcome of a load: an early failure leaves the journal alone; afterwards the result
code of `pthread_create` decides between success, failure and an endless wait. -/
theorem txdJournalLoadWith_eq (recover : TxdJournal → Int) (r : Int) (j : TxdJournal) :
    txdJournalLoadWith recover r j =
      if recover j ≠ 0 ∨ j.jFailedCommit ≠ 0 ∨ ¬j.jSuperblock.LongEnough then .ok (txdFail, j)
      else if r = 0 then .ok (txdSuccess, j.afterLoad)
      else if r = txdFail then .ok (txdFail, j.afterReset)
      else .error .hang := by
  by_cases hrec : recover j = 0
  swap
  · rw [txdJournalLoadWith, if_pos hrec, if_pos (Or.inl hrec)]
  by_cases hfc : j.jFailedCommit = 0
  swap
  · rw [txdJournalLoadWith, if_neg (not_not_intro hrec), if_pos hfc, if_pos (Or.inr (Or.inl hfc))]
  rw [txdJournalLoadWith, if_neg (not_not_intro hrec), if_neg (not_not_intro hfc)]
  by_cases hlen : j.jSuperblock.LongEnough
  · rw [if_neg (by simp [hrec, hfc, hlen]), txdJournalReset_long hlen]
    by_cases h0 : r = 0
    · rw [if_pos h0, if_pos h0]
      rfl
    · rw [if_neg h0, if_neg h0]
      by_cases h1 : r = txdFail
      · rw [if_pos h1]
        rfl
      · rw [if_neg h1]
        rfl
  · rw [if_pos (by simp [hlen]), txdJournalReset_short hlen]
    rfl

theorem txdJournalLoadWith_success_iff {recover : TxdJournal → Int} {r : Int}
    {j j' : TxdJournal} :
    txdJournalLoadWith recover r j = .ok (txdSuccess, j') ↔
      (recover j = 0 ∧ j.jFailedCommit = 0 ∧ j.jSuperblock.LongEnough ∧ r = 0) ∧
        j' = j.afterLoad := by
  rw [txdJournalLoadWith_eq]
  by_cases hearly : recover j ≠ 0 ∨ j.jFailedCommit ≠ 0 ∨ ¬j.jSuperblock.LongEnough
  · have hnot : ¬(recover j = 0 ∧ j.jFailedCommit = 0 ∧ j.jSuperblock.LongEnough ∧ r = 0) := by
      tauto
    rw [if_pos hearly]
    refine iff_of_false ?_ fun h => hnot h.1
    simp [txdFail, txdSuccess]
  · rw [if_neg hearly]
    simp only [ne_eq, not_or, not_not] at hearly
    obtain ⟨hrec, hfc, hlen⟩ := hearly
    by_cases h0 : r = 0
    · simp [hrec, hfc, hlen, h0, eq_comm]
    · rw [if_neg h0]
      by_cases h1 : r = txdFail
      · simp [h1, txdFail, txdSuccess]
      · simp [h0, h1]

theorem txdJournalLoadWith_stop {recover : TxdJournal → Int} {r : Int} {j : TxdJournal}
    {s : Stop Fault} (h : txdJournalLoadWith recover r j = .error s) : s = .hang := by
  rw [txdJournalLoadWith_eq] at h
  split at h
  · cases h
  split at h
  · cases h
  split at h
  · cases h
  · cases h
    rfl

theorem txdJournalLoad_success_iff {r : Int} {j j' : TxdJournal} :
    txdJournalLoad r j = .ok (txdSuccess, j') ↔
      (j.jFailedCommit = 0 ∧ j.jSuperblock.LongEnough ∧ r = 0) ∧ j' = j.afterLoad := by
  rw [txdJournalLoad, txdJournalLoadWith_success_iff]
  simp [txdJournalRecover, txdSuccess]

theorem afterLoad_jSuperblock (j : TxdJournal) : j.afterLoad.jSuperblock = j.jSuperblock := by
  rw [TxdJournal.afterLoad, TxdJournal.afterReset, resetTail, resetTailUpdated]
  split <;> rfl

theorem txdJournalLoadWith_jSuperblock {recover : TxdJournal → Int} {r err : Int}
    {j j' : TxdJournal} (h : txdJournalLoadWith recover r j = .ok (err, j')) :
    j'.jSuperblock = j.jSuperblock := by
  rw [txdJournalLoadWith_eq] at h
  split at h
  · cases h
    rfl
  · split at h
    · cases h
      exact afterLoad_jSuperblock j
    · split at h
      · cases h
        exact afterLoad_jSuperblock j
      · cases h

theorem resetTail_eq (j : TxdJournal) :
    resetTail j = { j with
      jFlags := if j.jSuperblock.sStart = 0 then j.jFlags ||| txdFlushed else j.jFlags } := by
  rw [resetTail, resetTailUpdated]
  split <;> rfl

theorem afterLoad_jFlags_loaded (j : TxdJournal) :
    j.afterLoad.jFlags &&& txdLoaded = txdLoaded := or_flag_and _ _

theorem afterLoad_jFlags_abort (j : TxdJournal) : j.afterLoad.jFlags &&& txdAbort = 0 := by
  change ((j.afterReset.jFlags &&& ~~~txdAbort) ||| txdLoaded) &&& txdAbort = 0
  rw [or_flag_and_of_disjoint _ _ _ (by decide)]
  exact and_not_flag_and _ _

theorem afterLoad_jFlags_flushed {j : TxdJournal} (h : j.jSuperblock.sStart = 0) :
    j.afterLoad.jFlags &&& txdFlushed = txdFlushed := by
  change ((j.afterReset.jFlags &&& ~~~txdAbort) ||| txdLoaded) &&& txdFlushed = txdFlushed
  rw [or_flag_and_of_disjoint _ _ _ (by decide), and_not_flag_and_of_disjoint _ _ _ (by decide)]
  rw [TxdJournal.afterReset, resetTail_eq]
  change (if j.jSuperblock.sStart = 0 then _ else _) &&& txdFlushed = txdFlushed
  rw [if_pos h]
  exact or_flag_and _ _

theorem afterLoad_eq (j : TxdJournal) :
    j.afterLoad = { resetFields (j.jSuperblock.sFirst.setWidth 64)
        (j.jSuperblock.sMaxlen.setWidth 64) j with
      jWaitDoneCommit := ⟨1⟩
      jFlags := j.afterLoad.jFlags } := by
  rw [TxdJournal.afterLoad, TxdJournal.afterReset, resetTail_eq]

end TxDriver
