import Mathlib.Order.Interval.Finset.Nat
import TxDriver.Driver.Load

/-!
# What a load leaves behind

The journal that a load leaves, for every superblock it may be built from: the log region, the
agreement of its tail with the superblock, the transaction ids, and what is left of the journal
when the commit thread cannot be created.
-/

namespace TxDriver

/-- What a reset makes of `j`: an empty log of all the blocks from `jFirst` to `jLast`. -/
structure ResetGeometry (j j' : TxdJournal) : Prop where
  ordered : j.jSuperblock.sFirst ≤ j.jSuperblock.sMaxlen
  first : j'.jFirst.toNat = j.jSuperblock.sFirst.toNat
  last : j'.jLast.toNat = j.jSuperblock.sMaxlen.toNat
  free : j'.jFree.toNat = (Finset.Ico j'.jFirst.toNat j'.jLast.toNat).card
  free_le : 1023 ≤ j'.jFree.toNat
  head : j'.jHead = j'.jFirst
  tail : j'.jTail = j'.jFirst
  buffers : j'.jMaxTransactionBuffers.toInt = (j.jMaxlen.toNat / 4 : Nat)
  buffers_nonneg : 0 ≤ j'.jMaxTransactionBuffers.toInt
  tail_sequence : j'.jTailSequence = j.jTransactionSequence
  commit_sequence : j'.jCommitSequence = j.jTransactionSequence - 1
  commit_request : j'.jCommitRequest = j.jTransactionSequence - 1
  flushed : j'.jFlags &&& txdFlushed ≠ 0 ↔
    j.jFlags &&& txdFlushed ≠ 0 ∨ j.jSuperblock.sStart = 0
  flags : j'.jFlags &&& ~~~txdFlushed = j.jFlags &&& ~~~txdFlushed
  -- among what is kept are `jMaxlen` and `jTransactionSequence`
  rest : j' = { j with
    jFirst := j'.jFirst
    jLast := j'.jLast
    jHead := j'.jHead
    jTail := j'.jTail
    jFree := j'.jFree
    jTailSequence := j'.jTailSequence
    jCommitSequence := j'.jCommitSequence
    jCommitRequest := j'.jCommitRequest
    jMaxTransactionBuffers := j'.jMaxTransactionBuffers
    jFlags := j'.jFlags
    jWaitDoneCommit := j'.jWaitDoneCommit }

theorem quarter_toInt (n : BitVec 32) : (n / 4).toInt = (n.toNat / 4 : Nat) := by
  have hlt := n.isLt
  have hquarter : (n / 4).toNat = n.toNat / 4 := BitVec.toNat_udiv
  rw [BitVec.toInt_eq_toNat_of_lt (by omega), hquarter]

theorem afterReset_geometry {j : TxdJournal} (hlong : j.jSuperblock.LongEnough) :
    ResetGeometry j j.afterReset := by
  rw [TxdJSuperblock.LongEnough] at hlong
  have hfirst := toNat_widened j.jSuperblock.sFirst
  have hlast := toNat_widened j.jSuperblock.sMaxlen
  have hfree : (j.jSuperblock.sMaxlen.setWidth 64 - j.jSuperblock.sFirst.setWidth 64).toNat =
      j.jSuperblock.sMaxlen.toNat - j.jSuperblock.sFirst.toNat := toNat_widened_sub (by omega)
  rw [TxdJournal.afterReset, resetTail_eq]
  refine ⟨?_, hfirst, hlast, ?_, ?_, rfl, rfl, quarter_toInt _, ?_, rfl, rfl, rfl, ?_, ?_, rfl⟩
  · rw [BitVec.le_def]
    omega
  · rw [Nat.card_Ico]
    exact hfree.trans (congrArg₂ _ hlast.symm hfirst.symm)
  · have hroom : 1023 ≤ j.jSuperblock.sMaxlen.toNat - j.jSuperblock.sFirst.toNat := by omega
    exact hroom.trans_eq hfree.symm
  · exact (Int.natCast_nonneg _).trans_eq (quarter_toInt _).symm
  · change (if j.jSuperblock.sStart = 0 then j.jFlags ||| txdFlushed else j.jFlags) &&& _ ≠ 0 ↔ _
    by_cases hstart : j.jSuperblock.sStart = 0
    · rw [if_pos hstart, or_flag_and]
      exact iff_of_true (by decide) (Or.inr hstart)
    · rw [if_neg hstart, or_iff_left hstart]
  · change (if j.jSuperblock.sStart = 0 then j.jFlags ||| txdFlushed else j.jFlags) &&& _ = _
    split
    · exact or_flag_and_not _ _
    · rfl

/-- A reset succeeds exactly on a journal that is long enough, and leaves an empty log; it does
not touch a journal that is too short. -/
theorem txdJournalReset_geometry (j : TxdJournal) :
    ((∃ j', txdJournalReset 0 j = .ok (txdSuccess, j')) ↔ j.jSuperblock.LongEnough) ∧
      (∀ j', txdJournalReset 0 j = .ok (txdSuccess, j') → ResetGeometry j j') ∧
      (¬j.jSuperblock.LongEnough → ∀ r, txdJournalReset r j = .ok (txdFail, j)) := by
  have hshort (r : Int) (h : ¬j.jSuperblock.LongEnough) : txdJournalReset r j = .ok (txdFail, j) :=
    txdJournalReset_short h
  have hlong (h : j.jSuperblock.LongEnough) :
      txdJournalReset 0 j = .ok (txdSuccess, j.afterReset) := by
    rw [txdJournalReset_long h, if_pos rfl]
  have hsuccess (j' : TxdJournal) (hj' : txdJournalReset 0 j = .ok (txdSuccess, j')) :
      j.jSuperblock.LongEnough := by
    by_contra h
    rw [hshort 0 h] at hj'
    cases hj'
  refine ⟨⟨?_, fun h => ⟨_, hlong h⟩⟩, ?_, fun h r => hshort r h⟩
  · intro hok
    rcases hok with ⟨j', hj'⟩
    exact hsuccess j' hj'
  · intro j' hj'
    have h := hsuccess j' hj'
    rw [hlong h] at hj'
    cases hj'
    exact afterReset_geometry h

section Built

variable {E : Platform} {p q : Process} {sb : TxdJSuperblock} {j j' : TxdJournal} {r : Int}
  {txdSize : BitVec 32}

theorem txdGetJournal_eq_some (h : (txdGetJournal E sb).run p = .ok (some j, q)) :
    j = TxdJournal.describedBy p.heap.next sb := by
  rcases txdGetJournal_cases E p sb with ⟨q', hnone, _⟩ | ⟨q', extra, hsome, _⟩
  · rw [hnone] at h
    cases h
  · rw [hsome] at h
    cases h
    rfl

/-- A successful load of a journal built from `sb`, its next transaction id set to `seq`. -/
theorem txdJournalLoad_built (seq : BitVec 32)
    (hget : (txdGetJournal E sb).run p = .ok (some j, q))
    (hload : txdJournalLoad r { j with jTransactionSequence := seq } = .ok (txdSuccess, j')) :
    sb.LongEnough ∧ j' = TxdJournal.afterLoad
      { TxdJournal.describedBy p.heap.next sb with jTransactionSequence := seq } := by
  have hj := txdGetJournal_eq_some hget
  subst hj
  obtain ⟨⟨_, hlong, _⟩, hj'⟩ := txdJournalLoad_success_iff.mp hload
  exact ⟨hlong, hj'⟩

/-- Head and tail lie in a log that ends with the area and starts out empty. -/
structure TxdJournal.LogBounds (j : TxdJournal) (txdSize : BitVec 32) : Prop where
  tail : j.jFirst ≤ j.jTail ∧ j.jTail < j.jLast
  head : j.jFirst ≤ j.jHead ∧ j.jHead < j.jLast
  free : j.jFree = j.jLast - j.jFirst
  last : j.jLast = j.jMaxlen.setWidth 64 ∧ j.jMaxlen = txdSize
  buffers_pos : 0 < j.jMaxTransactionBuffers.toInt

/-- The log also leaves block 0 alone and has room for a maximal transaction. -/
structure TxdJournal.LogRegion (j : TxdJournal) (txdSize : BitVec 32) : Prop
    extends j.LogBounds txdSize where
  first_pos : 1 ≤ j.jFirst
  buffers_le : j.jMaxTransactionBuffers.setWidth 64 ≤ j.jFree

theorem resetFields_logBounds (hlong : sb.LongEnough) (hsize : sb.sMaxlen = txdSize)
    (hmaxlen : j.jMaxlen = sb.sMaxlen) :
    (resetFields (sb.sFirst.setWidth 64) (sb.sMaxlen.setWidth 64) j).LogBounds txdSize := by
  rw [TxdJSuperblock.LongEnough] at hlong
  have hlt : sb.sFirst.setWidth 64 < sb.sMaxlen.setWidth 64 := by
    rw [BitVec.lt_def, toNat_widened, toNat_widened]
    omega
  have hquarter : 0 < (sb.sMaxlen / 4).toInt := by
    rw [quarter_toInt]
    omega
  refine ⟨⟨BitVec.le_refl _, hlt⟩, ⟨BitVec.le_refl _, hlt⟩, rfl, ⟨?_, ?_⟩, ?_⟩
  · change sb.sMaxlen.setWidth 64 = j.jMaxlen.setWidth 64
    rw [hmaxlen]
  · change j.jMaxlen = txdSize
    rw [hmaxlen, hsize]
  · change 0 < (j.jMaxlen / 4).toInt
    rw [hmaxlen]
    exact hquarter

/-- The log excludes block 0 exactly when the superblock says so, and holds a maximal transaction
exactly when a quarter of the area fits behind its first block. -/
theorem txdJournalLoad_region (hchk : chkTxdSb sb txdSize = 0)
    (hget : (txdGetJournal E sb).run p = .ok (some j, q))
    (hload : txdJournalLoad r j = .ok (txdSuccess, j')) :
    j'.LogBounds txdSize ∧
      (1 ≤ j'.jFirst ↔ sb.sFirst ≠ 0) ∧
      (j'.jMaxTransactionBuffers.setWidth 64 ≤ j'.jFree ↔
        sb.sFirst.toNat + txdSize.toNat / 4 ≤ txdSize.toNat) := by
  obtain ⟨hlong, hj'⟩ := txdJournalLoad_built j.jTransactionSequence hget hload
  have hsize := (chkTxdSb_eq_zero.mp hchk).2
  subst hj' txdSize
  rw [afterLoad_eq]
  have hbounds := resetFields_logBounds hlong rfl (j := { TxdJournal.describedBy p.heap.next sb with
    jTransactionSequence := j.jTransactionSequence }) rfl
  refine ⟨⟨hbounds.tail, hbounds.head, hbounds.free, hbounds.last, hbounds.buffers_pos⟩, ?_, ?_⟩
  · change 1 ≤ sb.sFirst.setWidth 64 ↔ sb.sFirst ≠ 0
    rw [BitVec.le_def, toNat_widened, ne_eq, ← BitVec.toNat_inj]
    exact Nat.one_le_iff_ne_zero
  · change (sb.sMaxlen / 4).setWidth 64 ≤ sb.sMaxlen.setWidth 64 - sb.sFirst.setWidth 64 ↔ _
    rw [TxdJSuperblock.LongEnough] at hlong
    rw [BitVec.le_def, toNat_widened_sub (by omega), toNat_widened, BitVec.toNat_udiv]
    change sb.sMaxlen.toNat / 4 ≤ _ ↔ _
    omega

end Built

theorem load_reliable (sb : TxdJSuperblock) (hlong : sb.LongEnough) :
    ∃ q, (txdGetJournal .reliable sb).run (.start fun _ _ _ => 0) =
        .ok (some (TxdJournal.describedBy 0 sb), q) ∧
      ∀ seq, txdJournalLoad 0
          { TxdJournal.describedBy 0 sb with jTransactionSequence := seq } =
        .ok (txdSuccess, TxdJournal.afterLoad
          { TxdJournal.describedBy 0 sb with jTransactionSequence := seq }) := by
  have hgrants := Platform.grants_of_allocates (E := .reliable) (fun _ _ => rfl) 0
    (journalRequests sb)
  obtain ⟨q, hget, _⟩ := txdGetJournal_granted (p := .start fun _ _ _ => 0) hgrants
  refine ⟨q, hget, ?_⟩
  intro seq
  exact txdJournalLoad_success_iff.mpr ⟨⟨rfl, hlong, rfl⟩, rfl⟩

theorem txdJournalLoad_region_formatted :
    (TxdJournal.afterLoad (TxdJournal.describedBy 0 (.formatted 4096))).LogBounds 4096 := by
  obtain ⟨q, hget, hload⟩ := load_reliable (.formatted 4096) (by decide)
  exact (txdJournalLoad_region (by decide) hget (hload 0)).1

/-- A superblock may name its own block as the first one of the log. -/
theorem txdJournalLoad_block_zero :
    ¬∀ (E : Platform) (p q : Process) (sb : TxdJSuperblock) (txdSize : BitVec 32) (r : Int)
        (j j' : TxdJournal), chkTxdSb sb txdSize = 0 →
      (txdGetJournal E sb).run p = .ok (some j, q) →
      txdJournalLoad r j = .ok (txdSuccess, j') → j'.LogRegion txdSize := by
  intro h
  obtain ⟨q, hget, hload⟩ := load_reliable
    { TxdJSuperblock.formatted 4096 with sFirst := 0 } (by decide)
  have hregion := h _ _ q _ 4096 0 _ _ (by decide) hget (hload 0)
  exact absurd hregion.first_pos (by decide)

/-- No block of the log lies beyond an area of `txdSize` bytes. -/
def TxdJournal.LogInside (j : TxdJournal) (txdSize : BitVec 32) : Prop :=
  ∀ b, j.jFirst.toNat ≤ b → b < j.jLast.toNat → (b + 1) * j.jBlocksize.toNat ≤ txdSize.toNat

/-- The size that is documented in bytes is taken for a number of blocks, so the last block of
the log lies beyond every area that is long enough to be loaded. -/
theorem load_formatted_beyond {E : Platform} {p q : Process} {txdSize : BitVec 32}
    {j j' : TxdJournal} {r : Int} (hget : (txdGetJournal E (.formatted txdSize)).run p =
      .ok (some j, q)) (hload : txdJournalLoad r j = .ok (txdSuccess, j')) :
    chkTxdSb (.formatted txdSize) txdSize = 0 ∧ ¬j'.LogInside txdSize := by
  obtain ⟨hlong, hj'⟩ := txdJournalLoad_built j.jTransactionSequence hget hload
  change (1#32).toNat + 1023 ≤ txdSize.toNat at hlong
  have hfirst : j'.jFirst.toNat = 1 := by
    rw [hj', afterLoad_eq]
    rfl
  have hlast : j'.jLast.toNat = txdSize.toNat := by
    rw [hj', afterLoad_eq]
    exact toNat_widened txdSize
  have hblocksize : j'.jBlocksize = blkSize := by
    rw [hj', afterLoad_eq]
    rfl
  refine ⟨chkTxdSb_eq_zero.mpr ⟨rfl, rfl⟩, ?_⟩
  intro hinside
  have hbeyond := hinside (txdSize.toNat - 1) (by omega) (by omega)
  rw [hblocksize] at hbeyond
  change (txdSize.toNat - 1 + 1) * 4096 ≤ txdSize.toNat at hbeyond
  omega

theorem load_formatted_beyond_4096 :
    ¬(TxdJournal.afterLoad (TxdJournal.describedBy 0 (.formatted 4096))).LogInside 4096 := by
  obtain ⟨q, hget, hload⟩ := load_reliable (.formatted 4096) (by decide)
  exact (load_formatted_beyond hget (hload 0)).2

theorem load_formatted_1024 :
    ¬∀ (E : Platform) (p q : Process) (txdSize : BitVec 32) (r : Int) (j j' : TxdJournal),
      chkTxdSb (.formatted txdSize) txdSize = 0 →
      (txdGetJournal E (.formatted txdSize)).run p = .ok (some j, q) →
      txdJournalLoad r j = .ok (txdSuccess, j') → j'.LogInside txdSize := by
  intro h
  obtain ⟨q, hget, hload⟩ := load_reliable (.formatted 1024) (by decide)
  have hinside := h _ _ q 1024 0 _ _ (by decide) hget (hload 0)
  have hfirst := hinside 1 (by decide) (by decide)
  exact absurd hfirst (by decide)

section Agreement

variable {E : Platform} {p q : Process} {sb : TxdJSuperblock} {j j' : TxdJournal} {r : Int}
  {txdSize seq : BitVec 32}

/-- The superblock says that the log is empty, or it names the tail of `j'` and the update that
the load of `j` requested has succeeded. -/
def TailAgreement (j j' : TxdJournal) : Prop :=
  (j'.jSuperblock.sStart = 0 ∧ j'.jFlags &&& txdFlushed ≠ 0) ∨
    (j'.jSuperblock.sSequence = j'.jTailSequence ∧
      j'.jSuperblock.sStart.setWidth 64 = j'.jTail ∧
      (resetTailUpdated (resetFields (j.jSuperblock.sFirst.setWidth 64)
        (j.jSuperblock.sMaxlen.setWidth 64) j)).1 = some txdSuccess)

theorem resetTailUpdated_fst (j : TxdJournal) : (resetTailUpdated j).1 ≠ some txdSuccess := by
  rw [resetTailUpdated]
  split
  · simp
  · change some txdFail ≠ some txdSuccess
    decide

theorem txdJournalLoad_tail (hget : (txdGetJournal E sb).run p = .ok (some j, q))
    (hload : txdJournalLoad r { j with jTransactionSequence := seq } = .ok (txdSuccess, j')) :
    TailAgreement { j with jTransactionSequence := seq } j' ↔ sb.sStart = 0 := by
  obtain ⟨_, hj'⟩ := txdJournalLoad_built seq hget hload
  subst hj'
  constructor
  · intro htail
    rcases htail with ⟨hstart, _⟩ | ⟨_, _, hupdate⟩
    · rw [afterLoad_eq] at hstart
      exact hstart
    · exact absurd hupdate (resetTailUpdated_fst _)
  · intro hstart
    refine Or.inl ⟨?_, ?_⟩
    · rw [afterLoad_eq]
      exact hstart
    · rw [afterLoad_jFlags_flushed (j := { TxdJournal.describedBy p.heap.next sb with
        jTransactionSequence := seq }) hstart]
      decide

theorem txdJournalLoad_tail_formatted :
    TailAgreement { TxdJournal.describedBy 0 (.formatted 4096) with jTransactionSequence := 7 }
      (TxdJournal.afterLoad
        { TxdJournal.describedBy 0 (.formatted 4096) with jTransactionSequence := 7 }) := by
  obtain ⟨q, hget, hload⟩ := load_reliable (.formatted 4096) (by decide)
  exact (txdJournalLoad_tail hget (hload 7)).mpr rfl

/-- A log that starts at block 5 stays so in the superblock. -/
theorem txdJournalLoad_tail_stale :
    ¬∀ (E : Platform) (p q : Process) (sb : TxdJSuperblock) (seq : BitVec 32) (r : Int)
        (j j' : TxdJournal), (txdGetJournal E sb).run p = .ok (some j, q) →
      txdJournalLoad r { j with jTransactionSequence := seq } = .ok (txdSuccess, j') →
      TailAgreement { j with jTransactionSequence := seq } j' := by
  intro h
  obtain ⟨q, hget, hload⟩ := load_reliable
    { TxdJSuperblock.formatted 4096 with sStart := 5, sSequence := 9 } (by decide)
  have hagree := h _ _ q _ 0 0 _ _ hget (hload 0)
  exact absurd hagree (by unfold TailAgreement; decide)

/-- No id of `j` precedes `sequence` in modular order, and the last commit is the one before the
next transaction. -/
structure TxdJournal.IdsFrom (j : TxdJournal) (sequence : BitVec 32) : Prop where
  next : 0 ≤ (j.jTransactionSequence - sequence).toInt
  tail : 0 ≤ (j.jTailSequence - sequence).toInt
  commit : j.jCommitSequence = j.jTransactionSequence - 1
  request : j.jCommitRequest = j.jTransactionSequence - 1

theorem zero_sub_toInt_nonneg (s : BitVec 32) :
    0 ≤ (0 - s).toInt ↔ s = 0 ∨ 0x80000000#32 < s := by
  have hlt := s.isLt
  rw [BitVec.toInt_eq_toNat_cond, BitVec.toNat_sub, ← BitVec.toNat_inj, BitVec.lt_def]
  simp only [BitVec.ofNat_eq_ofNat, BitVec.toNat_ofNat]
  split <;> omega

/-- The ids restart at zero, whatever the superblock says. -/
theorem txdJournalLoad_ids (hget : (txdGetJournal E sb).run p = .ok (some j, q))
    (hload : txdJournalLoad r j = .ok (txdSuccess, j')) :
    j'.IdsFrom sb.sSequence ↔ sb.sSequence = 0 ∨ 0x80000000#32 < sb.sSequence := by
  obtain ⟨_, hj'⟩ := txdJournalLoad_built j.jTransactionSequence hget hload
  have hzero : j.jTransactionSequence = 0 := by
    rw [txdGetJournal_eq_some hget]
    rfl
  rw [← zero_sub_toInt_nonneg]
  subst hj'
  rw [afterLoad_eq, hzero]
  constructor
  · intro h
    exact h.next
  · intro h
    exact ⟨h, h, rfl, rfl⟩

theorem txdJournalLoad_ids_formatted :
    (TxdJournal.afterLoad (TxdJournal.describedBy 0 (.formatted 4096))).IdsFrom 0 := by
  obtain ⟨q, hget, hload⟩ := load_reliable (.formatted 4096) (by decide)
  exact (txdJournalLoad_ids hget (hload 0)).mpr (Or.inl rfl)

theorem txdJournalLoad_ids_reused :
    ¬∀ (E : Platform) (p q : Process) (sb : TxdJSuperblock) (txdSize : BitVec 32) (r : Int)
        (j j' : TxdJournal), chkTxdSb sb txdSize = 0 →
      (txdGetJournal E sb).run p = .ok (some j, q) →
      txdJournalLoad r j = .ok (txdSuccess, j') → j'.IdsFrom sb.sSequence := by
  intro h
  obtain ⟨q, hget, hload⟩ := load_reliable
    { TxdJSuperblock.formatted 4096 with sSequence := 9 } (by decide)
  have hids := h _ _ q _ 4096 0 _ _ (by decide) hget (hload 0)
  exact absurd hids.next (by decide)

end Agreement

/-- Every field that a reset assigns already has the value it would get. -/
structure TxdJournal.Settled (j : TxdJournal) : Prop where
  first : j.jFirst = j.jSuperblock.sFirst.setWidth 64
  last : j.jLast = j.jSuperblock.sMaxlen.setWidth 64
  head : j.jHead = j.jSuperblock.sFirst.setWidth 64
  tail : j.jTail = j.jSuperblock.sFirst.setWidth 64
  free : j.jFree = j.jSuperblock.sMaxlen.setWidth 64 - j.jSuperblock.sFirst.setWidth 64
  tail_sequence : j.jTailSequence = j.jTransactionSequence
  commit_sequence : j.jCommitSequence = j.jTransactionSequence - 1
  commit_request : j.jCommitRequest = j.jTransactionSequence - 1
  buffers : j.jMaxTransactionBuffers = j.jMaxlen / 4
  flushed : j.jSuperblock.sStart = 0 → j.jFlags ||| txdFlushed = j.jFlags
  waiting : j.jWaitDoneCommit.condition = 1

theorem afterReset_eq_self_iff (j : TxdJournal) : j.afterReset = j ↔ j.Settled := by
  rw [TxdJournal.afterReset, resetTail_eq]
  constructor
  · intro h
    refine ⟨?_, ?_, ?_, ?_, ?_, ?_, ?_, ?_, ?_, ?_, ?_⟩
    · exact (congrArg TxdJournal.jFirst h).symm
    · exact (congrArg TxdJournal.jLast h).symm
    · exact (congrArg TxdJournal.jHead h).symm
    · exact (congrArg TxdJournal.jTail h).symm
    · exact (congrArg TxdJournal.jFree h).symm
    · exact (congrArg TxdJournal.jTailSequence h).symm
    · exact (congrArg TxdJournal.jCommitSequence h).symm
    · exact (congrArg TxdJournal.jCommitRequest h).symm
    · exact (congrArg TxdJournal.jMaxTransactionBuffers h).symm
    · intro hstart
      have hflags := congrArg TxdJournal.jFlags h
      change (if j.jSuperblock.sStart = 0 then j.jFlags ||| txdFlushed else j.jFlags) = _ at hflags
      rwa [if_pos hstart] at hflags
    · exact (congrArg (fun k => k.jWaitDoneCommit.condition) h).symm
  · intro h
    have hflags : (if j.jSuperblock.sStart = 0 then j.jFlags ||| txdFlushed else j.jFlags) =
        j.jFlags := by
      split
      · exact h.flushed ‹_›
      · rfl
    have hwait : j.jWaitDoneCommit = ⟨1⟩ := congrArg WaitQueue.mk h.waiting
    apply TxdJournal.ext <;> try rfl
    · exact hflags
    · exact hwait.symm
    · exact h.head.symm
    · exact h.tail.symm
    · exact h.free.symm
    · exact h.first.symm
    · exact h.last.symm
    · exact h.tail_sequence.symm
    · exact h.commit_sequence.symm
    · exact h.commit_request.symm
    · exact h.buffers.symm

/-- A load returns, succeeds only with a commit thread, and changes nothing when it fails. -/
structure LoadAllOrNothing (recover : TxdJournal → Int) (r : Int) (j : TxdJournal) : Prop where
  returns : txdJournalLoadWith recover r j ≠ .error .hang
  success : ∀ j', txdJournalLoadWith recover r j = .ok (txdSuccess, j') → r = 0
  failure : ∀ j', txdJournalLoadWith recover r j = .ok (txdFail, j') → j' = j

theorem LoadAllOrNothing.of_fail {recover : TxdJournal → Int} {r : Int} {j : TxdJournal}
    (h : txdJournalLoadWith recover r j = .ok (txdFail, j)) : LoadAllOrNothing recover r j where
  returns := by
    rw [h]
    exact nofun
  success j' hj' := by
    rw [h] at hj'
    cases hj'
  failure j' hj' := by
    rw [h] at hj'
    cases hj'
    rfl

theorem txdJournalLoadWith_allOrNothing (recover : TxdJournal → Int) (r : Int) (j : TxdJournal) :
    LoadAllOrNothing recover r j ↔
      r = 0 ∨ recover j ≠ 0 ∨ j.jFailedCommit ≠ 0 ∨ ¬j.jSuperblock.LongEnough ∨
        (r = 1 ∧ j.Settled) := by
  have hcases := txdJournalLoadWith_eq recover r j
  by_cases hearly : recover j ≠ 0 ∨ j.jFailedCommit ≠ 0 ∨ ¬j.jSuperblock.LongEnough
  · rw [if_pos hearly] at hcases
    exact iff_of_true (.of_fail hcases) (by tauto)
  rw [if_neg hearly] at hcases
  by_cases h0 : r = 0
  · rw [if_pos h0] at hcases
    refine iff_of_true ⟨?_, fun _ _ => h0, ?_⟩ (Or.inl h0)
    · rw [hcases]
      exact nofun
    · intro j' hj'
      rw [hcases] at hj'
      cases hj'
  rw [if_neg h0] at hcases
  have hsettled : (r = 0 ∨ recover j ≠ 0 ∨ j.jFailedCommit ≠ 0 ∨ ¬j.jSuperblock.LongEnough ∨
      (r = 1 ∧ j.Settled)) ↔ r = 1 ∧ j.Settled := by
    tauto
  rw [hsettled]
  by_cases h1 : r = txdFail
  · rw [if_pos h1] at hcases
    constructor
    · intro h
      exact ⟨h1, (afterReset_eq_self_iff j).mp (h.failure _ hcases)⟩
    · intro hassigned
      rcases hassigned with ⟨_, hj⟩
      rw [(afterReset_eq_self_iff j).mpr hj] at hcases
      exact .of_fail hcases
  · rw [if_neg h1] at hcases
    refine iff_of_false ?_ fun h => h1 h.1
    intro h
    exact h.returns hcases

/-- `EAGAIN`, as any code other than 0 and 1, is taken for success. -/
theorem txdJournalLoad_waits_forever :
    ¬∀ (recover : TxdJournal → Int) (r : Int) (j : TxdJournal), LoadAllOrNothing recover r j := by
  intro h
  have hhang : txdJournalLoadWith txdJournalRecover 11
      (TxdJournal.describedBy 0 (.formatted 4096)) = .error .hang := by
    rw [txdJournalLoadWith_eq, if_neg (by decide), if_neg (by decide), if_neg (by decide)]
  exact (h txdJournalRecover 11 _).returns hhang

end TxDriver
