import TxDriver.Driver.LegacyApi
import TxDriver.Driver.LegacyConstruct
import TxDriver.Driver.Media

/-!
# Runs of the first generation

`tx_begin` of `txdriver_api.c` to its end, and sequences of calls. Its load never succeeds, so every
call of `tx_begin` that returns has torn the registries down and has no journal to hand out. The
format writes to the device, and what it has written there is what `txd_api.c` opens.
-/

namespace TxDriver

/-- All of the process but its memory. -/
def Process.elsewhere (p : Process) : Process :=
  { p with heap := .empty, allocatedMemSize := 0, requests := 0, released := [] }

namespace Legacy

/-- `txd_journal_recover`, a stub that reports failure. -/
def txdJournalRecover (_j : TxdJournal) : Int := txdFail

def txdJournalNeedRecovery (_j : TxdJournal) : Int := txdTrue

def txdWipeJournalLog (_j : TxdJournal) : Int := txdFail

def txdJournalDestroy (_j : TxdJournal) : Int := txdFail

def txdJournalReset (_j : TxdJournal) : Int := txdFail

/-- `txd_journal_load` over any recovery routine. -/
def txdJournalLoadWith (recover : TxdJournal → Int) (j : TxdJournal) : Int × TxdJournal :=
  if recover j ≠ 0 then (txdFail, j)
  else if j.jFailedCommit ≠ 0 then (txdFail, j)
  else if txdJournalReset j ≠ 0 then (txdFail, j)
  else (txdSuccess, { j with jFlags := (j.jFlags &&& ~~~txdAbort) ||| txdLoaded })

/-- The label `out` of `tx_begin`, which does what `out1` of `txd_api.c` does. -/
def beginOut (E : Platform) : Driver (Option TxdJournal) := beginOut1 E

/-- `tx_begin` from the check of the superblock on; `err` is the result of the read. -/
def beginChecked (recover : TxdJournal → Int) (E : Platform) (err : Int) (jSb : TxdJSuperblock)
    (txdSize : BitVec 32) : Driver (Option TxdJournal) := do
  if chkTxdSb jSb txdSize = 0 then do
    match ← txdGetJournal E jSb with
    | none => beginOut E
    | some journal => do
      let err := if txdJournalNeedRecovery journal = 0 then txdWipeJournalLog journal else err
      let loaded := if err = 0 then txdJournalLoadWith recover journal else (err, journal)
      if loaded.1 ≠ 0 then do
        let _err := txdJournalDestroy loaded.2
        beginOut E
      else pure (some loaded.2)
  else beginOut E

/-- `tx_begin` over any recovery routine. The buffer is used without a test. -/
def txBeginWith (recover : TxdJournal → Int) (E : Platform) (txdAddr : BitVec 64)
    (txdSize : BitVec 32) : Driver (Option TxdJournal) := do
  match ← allocBlock E (1 * sizeofTxdJSuperblock) .buffer with
  | none => do
    let _ ← spdkRead E (beginParams txdAddr)
    Exec.stop (.fault .nullBuffer)
  | some _ => do
    let (err, bytes) ← spdkRead E (beginParams txdAddr)
    Exec.assert (err ≠ txdFail)
    beginChecked recover E err (.ofBytes bytes) txdSize

def txBegin (E : Platform) (txdAddr : BitVec 64) (txdSize : BitVec 32) :
    Driver (Option TxdJournal) :=
  txBeginWith txdJournalRecover E txdAddr txdSize

def perform (recover : TxdJournal → Int) (E : Platform) : Call → Driver Result
  | .format txdAddr txdSize => do
    let err ← txFormat E txdAddr txdSize
    pure (.formatted err)
  | .begin txdAddr txdSize => do
    let journal ← txBeginWith recover E txdAddr txdSize
    pure (.began journal)

section Memory

variable {E : Platform}

theorem allocBlock_elsewhere (size : BitVec 64) (obj : Obj) :
    Exec.Fixes Process.elsewhere (allocBlock E size obj) := by
  intro p a q h
  by_cases hg : E.allocates p.requests size = true
  · rw [allocBlock_granted obj hg] at h
    cases h
    rfl
  · rw [allocBlock_refused obj hg] at h
    cases h
    rfl

theorem free_elsewhere (a : Option Addr) : Exec.Fixes Process.elsewhere (free a) := by
  cases a with
  | none => exact .pure
  | some a =>
    intro p _ q h
    by_cases hlive : p.heap.Live a
    · rw [free, freeBlock_live hlive] at h
      cases h
      rfl
    · rw [show (free (some a)).run p = _ from if_neg hlive] at h
      cases h

theorem storeBlock_elsewhere (a : Addr) (obj : Obj) :
    Exec.Fixes Process.elsewhere (storeBlock a obj) := by
  intro p _ q h
  by_cases hlive : p.heap.Live a
  · rw [storeBlock_live obj hlive] at h
    cases h
    rfl
  · rw [show (storeBlock a obj).run p = _ from if_neg hlive] at h
    cases h

theorem loadTable_elsewhere (a : Addr) : Exec.Fixes Process.elsewhere (loadTable a) := by
  intro p t q h
  simp only [Exec.run, loadTable] at h
  split at h
  · cases h
    rfl
  · cases h

theorem loadListHeads_elsewhere (a : Option Addr) :
    Exec.Fixes Process.elsewhere (loadListHeads a) := by
  intro p t q h
  simp only [Exec.run, loadListHeads] at h
  split at h
  · cases h
  · split at h
    · cases h
      rfl
    · cases h

theorem assertListsEmpty_elsewhere (table : Addr) (hs : Nat → ListHead) (n i : Nat) :
    Exec.Fixes Process.elsewhere (assertListsEmpty table hs n i) := by
  induction n generalizing i with
  | zero => exact .pure
  | succ n ih => exact .bind .assert fun _ => ih (i + 1)

theorem txdJournalInitRevokeTable_elsewhere (hashSize : BitVec 32) :
    Exec.Fixes Process.elsewhere (txdJournalInitRevokeTable E hashSize) := by
  rw [txdJournalInitRevokeTable]
  refine .bind (allocBlock_elsewhere _ _) fun table => ?_
  cases table with
  | none => exact .pure
  | some table =>
    refine .bind .lift fun shift => .bind (storeBlock_elsewhere _ _) fun _ => ?_
    refine .bind (allocBlock_elsewhere _ _) fun hashTable => ?_
    cases hashTable with
    | none => exact .bind (free_elsewhere _) fun _ => .pure
    | some hashTable =>
      exact .bind (storeBlock_elsewhere _ _) fun _ =>
        .bind (storeBlock_elsewhere _ _) fun _ => .pure

theorem txdJournalDestroyRevokeTable_elsewhere (table : Addr) :
    Exec.Fixes Process.elsewhere (txdJournalDestroyRevokeTable table) := by
  rw [txdJournalDestroyRevokeTable]
  refine .bind (loadTable_elsewhere table) fun t => .bind (loadListHeads_elsewhere _) fun r => ?_
  rcases r with ⟨hashTable, hs⟩
  refine .bind (assertListsEmpty_elsewhere _ _ _ _) fun _ => ?_
  exact .bind (free_elsewhere _) fun _ => free_elsewhere _

theorem txdJournalDestroyRevoke_elsewhere (j : TxdJournal) :
    Exec.Fixes Process.elsewhere (txdJournalDestroyRevoke j) := by
  have htable : ∀ table, Exec.Fixes Process.elsewhere (txdJournalDestroyRevokeTable? table) := by
    intro table
    cases table with
    | none => exact .pure
    | some table => exact txdJournalDestroyRevokeTable_elsewhere table
  exact .bind (htable _) fun _ => .bind (htable _) fun _ => .pure

theorem txdJournalInitRevoke_elsewhere (j : TxdJournal) (hashSize : BitVec 32) :
    Exec.Fixes Process.elsewhere (txdJournalInitRevoke E j hashSize) := by
  rw [txdJournalInitRevoke]
  refine .bind .assert fun _ => .bind (txdJournalInitRevokeTable_elsewhere _) fun table => ?_
  cases table with
  | none => exact .pure
  | some a =>
    refine .bind (txdJournalInitRevokeTable_elsewhere _) fun table => ?_
    cases table with
    | none => exact .bind (txdJournalDestroyRevokeTable_elsewhere a) fun _ => .pure
    | some b => exact .pure

theorem initCommonOut_elsewhere (j : TxdJournal) :
    Exec.Fixes Process.elsewhere (initCommonOut j) :=
  .bind (free_elsewhere _) fun _ => .bind (txdJournalDestroyRevoke_elsewhere j) fun _ =>
    .bind (free_elsewhere _) fun _ => .pure

theorem txdGetJournal_elsewhere (jSb : TxdJSuperblock) :
    Exec.Fixes Process.elsewhere (txdGetJournal E jSb) := by
  have hcommon : Exec.Fixes Process.elsewhere (txdJournalInitCommon E jSb) := by
    rw [txdJournalInitCommon]
    refine .bind (allocBlock_elsewhere _ _) fun journal => ?_
    cases journal with
    | none => exact .pure
    | some journal =>
      refine .bind (allocBlock_elsewhere _ _) fun txdBh => ?_
      cases txdBh with
      | none => exact initCommonOut_elsewhere _
      | some txdBh =>
        refine .bind (txdJournalInitRevoke_elsewhere _ _) fun r => ?_
        rcases r with ⟨err, j⟩
        dsimp only
        split
        · exact initCommonOut_elsewhere _
        · refine .bind (allocBlock_elsewhere _ _) fun wbuf => ?_
          cases wbuf with
          | none => exact initCommonOut_elsewhere _
          | some wbuf => exact .pure
  refine .bind hcommon fun j => ?_
  cases j with
  | none => exact .pure
  | some j => exact .pure

end Memory

section Returns

variable {E : Platform} {p q r : Process} {recover : TxdJournal → Int} {txdAddr : BitVec 64}
  {txdSize : BitVec 32}

structure Undisturbed (p q : Process) : Prop where
  keeps : p.Keeps q
  medium : q.medium = p.medium

theorem Undisturbed.trans (h : Undisturbed p q) (h' : Undisturbed q r) : Undisturbed p r :=
  ⟨h.keeps.trans h'.keeps, h'.medium.trans h.medium⟩

theorem undisturbed_of_elsewhere (h : q.elsewhere = p.elsewhere) (hg : p.heap.Grows q.heap) :
    Undisturbed p q := by
  have hnamespaces := congrArg Process.gNamespaces h
  have hcontrollers := congrArg Process.gControllers h
  have hmedium := congrArg Process.medium h
  exact ⟨⟨hg, hnamespaces, hcontrollers⟩, hmedium⟩

theorem allocBlock_undisturbed {size : BitVec 64} {obj : Obj} {a : Option Addr}
    (h : (allocBlock E size obj).run p = .ok (a, q)) : Undisturbed p q := by
  apply undisturbed_of_elsewhere (allocBlock_elsewhere size obj p a q h)
  by_cases hg : E.allocates p.requests size = true
  · rw [allocBlock_granted obj hg] at h
    cases h
    exact Heap.grows_alloc _ _ _
  · rw [allocBlock_refused obj hg] at h
    cases h
    exact .refl _

theorem spdkRead_undisturbed {params : TxdParams} {res : Int × Bytes}
    (h : (spdkRead E params).run p = .ok (res, q)) : Undisturbed p q := by
  have hs := spdkRead_submits h
  obtain ⟨a, e, ha⟩ := hs.head
  rw [spdkRead_submitted params ha hs.buffer (hs.accepts ha)] at h
  cases h
  exact ⟨⟨(afterCommand_adds p params.bytes).grows, rfl, rfl⟩, rfl⟩

theorem txdGetJournal_undisturbed {jSb : TxdJSuperblock} {j : Option TxdJournal}
    (h : (txdGetJournal E jSb).run p = .ok (j, q)) : Undisturbed p q := by
  apply undisturbed_of_elsewhere (txdGetJournal_elsewhere jSb p j q h)
  have hadds : ∃ as, p.heap.Adds q.heap as := by
    by_cases hg : E.Grants p.requests (journalRequests jSb)
    · obtain ⟨q', hrun, hadds⟩ := txdGetJournal_granted hg
      rw [hrun] at h
      cases h
      exact ⟨_, hadds⟩
    by_cases hstart : E.Grants p.requests [sizeofTxdJournalPtr, sizeofTxdBufferHead]
    · obtain ⟨q', hrun, hadds⟩ := txdGetJournal_leaks hstart hg
      rw [hrun] at h
      cases h
      exact ⟨_, hadds⟩
    · have hunstarted : ∃ q, (txdGetJournal E jSb).run p = .ok (none, q) ∧
          p.heap.Adds q.heap [] := txdGetJournal_unstarted hstart
      obtain ⟨q', hrun, hadds⟩ := hunstarted
      rw [hrun] at h
      cases h
      exact ⟨_, hadds⟩
  exact hadds.choose_spec.grows

theorem txdJournalLoadWith_fails (recover : TxdJournal → Int) (j : TxdJournal) :
    (txdJournalLoadWith recover j).1 = txdFail := by
  rw [txdJournalLoadWith]
  split
  · rfl
  · split <;> rfl

theorem beginChecked_returns {jSb : TxdJSuperblock} {res : Option TxdJournal}
    (h : (beginChecked recover E txdSuccess jSb txdSize).run p = .ok (res, q)) :
    ∃ r, Undisturbed p r ∧ (beginOut1 E).run r = .ok (res, q) := by
  rw [beginChecked] at h
  split at h
  · obtain ⟨j, r, hjournal, h⟩ := Exec.run_bind_eq_ok.mp h
    refine ⟨r, txdGetJournal_undisturbed hjournal, ?_⟩
    cases j with
    | none => exact h
    | some j =>
      have hfails : (txdJournalLoadWith recover j).1 ≠ 0 := by
        rw [txdJournalLoadWith_fails]
        decide
      have herr : (if txdJournalNeedRecovery j = 0 then txdWipeJournalLog j else txdSuccess) = 0 :=
        rfl
      simp only [herr, if_true, if_pos hfails] at h
      exact h
  · exact ⟨p, ⟨⟨.refl _, rfl, rfl⟩, rfl⟩, h⟩

theorem txBegin_returns {res : Option TxdJournal}
    (h : (txBeginWith recover E txdAddr txdSize).run p = .ok (res, q)) :
    ∃ r, Undisturbed p r ∧ (beginOut1 E).run r = .ok (res, q) := by
  rw [txBeginWith] at h
  obtain ⟨buf, p₁, halloc, h⟩ := Exec.run_bind_eq_ok.mp h
  cases buf with
  | none =>
    obtain ⟨_, _, _, h⟩ := Exec.run_bind_eq_ok.mp h
    cases h
  | some buf =>
    obtain ⟨⟨err, bytes⟩, p₂, hread, h⟩ := Exec.run_bind_eq_ok.mp h
    have hs := spdkRead_submits hread
    obtain ⟨a, e, ha⟩ := hs.head
    have hsuccess := hread
    rw [spdkRead_submitted _ ha hs.buffer (hs.accepts ha)] at hsuccess
    cases hsuccess
    rw [Exec.run_bind_ok _ (assert_decide_true (by decide) _)] at h
    obtain ⟨r, hr, hout⟩ := beginChecked_returns h
    exact ⟨r, ((allocBlock_undisturbed halloc).trans (spdkRead_undisturbed hread)).trans hr, hout⟩

/-- A `tx_begin` that returns has nothing to hand out, and leaves registries that dangle where they
did not before. -/
theorem txBegin_tearsDown {res : Option TxdJournal}
    (h : (txBeginWith recover E txdAddr txdSize).run p = .ok (res, q)) :
    res = none ∧ ¬p.Dangling ∧ q.Dangling := by
  obtain ⟨r, hr, hout⟩ := txBegin_returns h
  refine ⟨beginOut1_none hout, ?_⟩
  by_cases hlive : r.HeadLive
  swap
  · obtain ⟨f, hfault, _⟩ := beginOut1_headless (E := E) hlive
    rw [hfault] at hout
    cases hout
  by_cases hdown : CanTearDown E r
  swap
  · obtain ⟨s, hstop⟩ := beginOut1_stops hlive hdown
    rw [hstop] at hout
    cases hout
  obtain ⟨r', hrun, _, _, hdangling⟩ := beginOut1_tearsDown hlive hdown
  rw [hrun] at hout
  cases hout
  exact ⟨fun hd => (hr.keeps.dangling hd).not_registered hdown.2, hdangling⟩

theorem spdkWrite_returns {params : TxdParams} {rc : Int}
    (h : (spdkWrite E params).run p = .ok (rc, q)) :
    p.Keeps q ∧ ∃ a e, p.Head a e ∧ q.medium = writtenMedium E p e params := by
  have hs := spdkWrite_submits h
  obtain ⟨a, e, ha⟩ := hs.head
  rw [spdkWrite_submitted params ha hs.buffer (hs.accepts ha)] at h
  cases h
  exact ⟨⟨(afterCommand_adds p params.bytes).grows, rfl, rfl⟩, a, e, ha, rfl⟩

theorem txFormat_returns {err : Int} (h : (txFormat E txdAddr txdSize).run p = .ok (err, q)) :
    ∃ r, (p.Dangling → r.Dangling) ∧ r.medium = p.medium ∧
      sizeofTxdJSuperblock ≤ formatBufSize txdSize ∧
      (spdkWrite E (formatParams txdAddr txdSize)).run r = .ok (err, q) := by
  rw [txFormat] at h
  obtain ⟨rc, p₁, hinit, h⟩ := Exec.run_bind_eq_ok.mp h
  by_cases hrc : rc = txdFail
  · rw [Exec.run_bind_error _ (assert_decide_false (not_not_intro hrc) _)] at h
    cases h
  rw [Exec.run_bind_ok _ (assert_decide_true hrc _)] at h
  have hext := afterProbe_extends p E
  rw [← spdkInit_returns hinit hrc] at hext
  by_cases hlive : p₁.HeadLive
  swap
  · obtain ⟨f, hfault, _⟩ := spdkAllocQpair_fault (E := E) hlive
    rw [Exec.run_bind_error _ hfault] at h
    cases h
  obtain ⟨a, e, ha⟩ := hlive
  rw [Exec.run_bind_ok _ (spdkAllocQpair_run ha)] at h
  obtain ⟨_, p₂, hassert, h⟩ := Exec.run_bind_eq_ok.mp h
  have hp₂ : p₂ = p₁.setQpair a e _ := Exec.Fixes.assert (f := id) _ _ _ hassert
  obtain ⟨buf, p₃, halloc, h⟩ := Exec.run_bind_eq_ok.mp h
  have hkept := allocBlock_undisturbed halloc
  rw [hp₂] at hkept
  have hwrite : sizeofTxdJSuperblock ≤ formatBufSize txdSize ∧
      (spdkWrite E (formatParams txdAddr txdSize)).run p₃ = .ok (err, q) := by
    cases buf with
    | none => cases h
    | some buf =>
      dsimp only at h
      split at h
      · cases h
      · exact ⟨BitVec.not_lt.mp ‹_›, h⟩
  refine ⟨p₃, ?_, ?_, hwrite⟩
  · intro hd
    exact hkept.keeps.dangling (setQpair_dangling ha _ (hext.dangling hd))
  · rw [hkept.medium]
    change p₁.medium = p.medium
    rw [hext.rest]

theorem txFormat_dangling {err : Int} (hd : p.Dangling)
    (h : (txFormat E txdAddr txdSize).run p = .ok (err, q)) : q.Dangling := by
  obtain ⟨r, hr, _, _, hwrite⟩ := txFormat_returns h
  exact (spdkWrite_returns hwrite).1.dangling (hr hd)

end Returns

def covers (l : Nat) : Call → Prop
  | .format txdAddr txdSize =>
    txdAddr.toNat / lbaUnit ≤ l ∧ l < txdAddr.toNat / lbaUnit + txdSize.toNat / lbaUnit
  | .begin _ _ => False

def isBegin : Call → Bool
  | .begin _ _ => true
  | .format _ _ => false

section Runs

variable {E : Platform} {p q : Process} {recover : TxdJournal → Int} {c : Call} {cs : List Call}
  {res : Result} {log : List (Call × Result)} {ns l : Nat}

theorem traced_dangling (hd : p.Dangling)
    (h : (Exec.traced (perform recover E) cs).run p = .ok (log, q)) : cs.countP isBegin = 0 := by
  induction cs generalizing p log with
  | nil => rfl
  | cons c cs ih =>
    obtain ⟨res, r, log', hc, hcs, rfl⟩ := Exec.traced_cons h
    cases c with
    | format txdAddr txdSize =>
      obtain ⟨err, _, hformat, hr⟩ := Exec.run_bind_eq_ok.mp hc
      cases hr
      exact ih (txFormat_dangling hd hformat) hcs
    | begin txdAddr txdSize =>
      obtain ⟨j, _, hbegin, hr⟩ := Exec.run_bind_eq_ok.mp hc
      exact absurd hd (txBegin_tearsDown hbegin).2.1

theorem traced_begin_once (h : (Exec.traced (perform recover E) cs).run p = .ok (log, q)) :
    cs.countP isBegin ≤ 1 := by
  induction cs generalizing p log with
  | nil => exact Nat.zero_le 1
  | cons c cs ih =>
    obtain ⟨res, r, log', hc, hcs, rfl⟩ := Exec.traced_cons h
    cases c with
    | format txdAddr txdSize => exact ih hcs
    | begin txdAddr txdSize =>
      obtain ⟨j, _, hbegin, hr⟩ := Exec.run_bind_eq_ok.mp hc
      cases hr
      have hrest := traced_dangling (txBegin_tearsDown hbegin).2.2 hcs
      rw [List.countP_cons_of_pos rfl, hrest]

/-- Whatever the platform and the recovery routine do, no run hands out a journal, and at most one
`tx_begin` of a run returns. -/
theorem traced_noJournal (h : (Exec.traced (perform recover E) cs).run p = .ok (log, q)) :
    (∀ x ∈ log, ∀ j, x.2 ≠ .began (some j)) ∧ cs.countP isBegin ≤ 1 := by
  refine ⟨?_, traced_begin_once h⟩
  have hstep : ∀ c ∈ cs, ∀ s r s', True → (perform recover E c).run s = .ok (r, s') →
      True ∧ ∀ j, r ≠ Result.began (some j) := by
    intro c _ s r s' _ hrun
    refine ⟨trivial, ?_⟩
    cases c with
    | format txdAddr txdSize =>
      obtain ⟨err, _, _, hr⟩ := Exec.run_bind_eq_ok.mp hrun
      cases hr
      intro j hj
      cases hj
    | begin txdAddr txdSize =>
      obtain ⟨j, _, hbegin, hr⟩ := Exec.run_bind_eq_ok.mp hrun
      cases hr
      rw [(txBegin_tearsDown hbegin).1]
      intro j hj
      cases hj
  exact (Exec.traced_invariant hstep trivial h).2

theorem perform_frame (hl : ¬covers l c) (h : (perform recover E c).run p = .ok (res, q))
    (ns : Nat) : q.medium ns l = p.medium ns l := by
  cases c with
  | format txdAddr txdSize =>
    obtain ⟨err, r, hformat, hr⟩ := Exec.run_bind_eq_ok.mp h
    cases hr
    obtain ⟨r, _, hmedium, _, hwrite⟩ := txFormat_returns hformat
    obtain ⟨_, a, e, _, hwritten⟩ := spdkWrite_returns hwrite
    rw [hwritten, ← hmedium, writtenMedium, writeSectors, if_neg]
    intro hin
    rw [formatParams_lba, formatParams_lbaCount] at hin
    exact hl hin.2
  | begin txdAddr txdSize =>
    obtain ⟨j, r, hbegin, hr⟩ := Exec.run_bind_eq_ok.mp h
    cases hr
    obtain ⟨r, hundisturbed, hout⟩ := txBegin_returns hbegin
    rw [beginOut1_medium r _ _ hout, hundisturbed.medium]

/-- A run changes no sector that it does not format. -/
theorem traced_frame (hl : ∀ c ∈ cs, ¬covers l c)
    (h : (Exec.traced (perform recover E) cs).run p = .ok (log, q)) (ns : Nat) :
    q.medium ns l = p.medium ns l := by
  have hstep : ∀ c ∈ cs, ∀ s r s', s.medium ns l = p.medium ns l →
      (perform recover E c).run s = .ok (r, s') → s'.medium ns l = p.medium ns l ∧ True :=
    fun c hc s r s' hs hrun => ⟨(perform_frame (hl c hc) hrun ns).trans hs, trivial⟩
  exact (Exec.traced_invariant hstep rfl h).1

end Runs

section Generations

variable {E E' : Platform} {p q : Process} {recover : TxdJournal → Int} {cs ds : List Call}
  {log : List (Call × Result)} {ns : Nat} {txdAddr : BitVec 64} {txdSize : BitVec 32}

theorem superblockAt_congr {medium medium' : Nat → Sector} {lba : BitVec 64}
    (h : medium' lba.toNat = medium lba.toNat) :
    superblockAt medium' lba = superblockAt medium lba := by
  apply TxdJSuperblock.ofBytes_congr
  intro k hk
  have hlt : k < lbaUnit := Nat.lt_trans hk (by decide)
  rw [readSectors, readSectors, Nat.div_eq_of_lt hlt, Nat.add_zero, h]

/-- The last format of a sector leaves its superblock there for the rest of the run. -/
theorem traced_formatted (hE : E.Cooperative)
    (hns : ∀ k, (attachIds (E.probe k).ctrlrs).getLast? = some ns) (hsize : lbaUnit ≤ txdSize.toNat)
    (hds : ∀ c ∈ ds, ¬covers (txdAddr.toNat / lbaUnit) c)
    (h : (Exec.traced (perform recover E) (cs ++ .format txdAddr txdSize :: ds)).run p =
      .ok (log, q)) :
    superblockAt (q.medium ns) (formatParams txdAddr txdSize).lba = .formatted txdSize := by
  obtain ⟨_, p₁, _, _, hrest, _⟩ := Exec.traced_append h
  obtain ⟨_, p₂, _, hcall, hlater, _⟩ := Exec.traced_cons hrest
  obtain ⟨err, _, hformat, hr⟩ := Exec.run_bind_eq_ok.mp hcall
  cases hr
  obtain ⟨_, _, _, hfits, _⟩ := txFormat_returns hformat
  obtain ⟨p₃, a, e, hrun, _, _, hsb⟩ := txFormat_writes txdAddr hE (hns p₁.probes) hsize hfits
  rw [hrun] at hformat
  cases hformat
  rw [← hsb]
  apply superblockAt_congr
  apply traced_frame _ hlater
  rw [formatParams_lba]
  exact hds

/-- An area that a run of the first generation has formatted last can be formatted and opened by
the second one in a process of its own. -/
theorem formatted_roundTrip (hE : E.Cooperative) (hE' : E'.Cooperative)
    (hns : ∀ k, (attachIds (E.probe k).ctrlrs).getLast? = some ns)
    (hns' : (attachIds (E'.probe 0).ctrlrs).getLast? = some ns) (hsize : 1024 ≤ txdSize.toNat)
    (hds : ∀ c ∈ ds, ¬covers (txdAddr.toNat / lbaUnit) c)
    (h : (Exec.traced (perform recover E) (cs ++ .format txdAddr txdSize :: ds)).run p =
      .ok (log, q)) :
    ∃ r j s, (TxDriver.txFormat E' (formatParams txdAddr txdSize).lba txdSize).run
        (.start q.medium) = .ok (txdSuccess, r) ∧
      (TxDriver.txBegin E' (formatParams txdAddr txdSize).lba txdSize).run r = .ok (some j, s) ∧
      j.Opened txdSize := by
  have hsector : lbaUnit ≤ txdSize.toNat := Nat.le_trans (by decide) hsize
  have hsb := traced_formatted hE hns hsector hds h
  obtain ⟨r, a, e, hformat, ha, he, hmedium⟩ :=
    txFormat_cooperative (p := .start q.medium) (formatParams txdAddr txdSize).lba txdSize hE' hns'
  have hfresh : (superblockAt (r.medium e.ns) (formatParams txdAddr txdSize).lba).Formatted
      txdSize := by
    rw [hmedium, he]
    change (superblockAt (q.medium ns) _).Formatted txdSize
    rw [hsb]
    exact ⟨rfl, rfl, rfl, rfl, rfl, rfl, rfl, rfl⟩
  obtain ⟨j, s, hbegin, hopened⟩ := txBegin_opens hE' ha hfresh hsize
  exact ⟨r, j, s, hformat, hbegin, hopened⟩

end Generations

theorem reliable_returns : ∃ log q, (Exec.traced (perform txdJournalRecover .reliable)
    [.format 0 1024, .begin 0 1024]).run (.start fun _ _ _ => 0) = .ok (log, q) := by
  have hreturns : ((Exec.traced (perform txdJournalRecover .reliable)
      [.format 0 1024, .begin 0 1024]).run (.start fun _ _ _ => 0)).toOption.isSome = true := by
    decide +kernel
  cases hrun : (Exec.traced (perform txdJournalRecover .reliable)
      [.format 0 1024, .begin 0 1024]).run (.start fun _ _ _ => 0) with
  | error s =>
    rw [hrun] at hreturns
    cases hreturns
  | ok r => exact ⟨r.1, r.2, rfl⟩

theorem traced_noJournal_blank : ∃ log q, (Exec.traced (perform txdJournalRecover .reliable)
      [.format 0 1024, .begin 0 1024]).run (.start fun _ _ _ => 0) = .ok (log, q) ∧
    ∀ x ∈ log, ∀ j, x.2 ≠ .began (some j) := by
  obtain ⟨log, q, hrun⟩ := reliable_returns
  exact ⟨log, q, hrun, (traced_noJournal hrun).1⟩

theorem traced_frame_blank : ∃ log q, (Exec.traced (perform txdJournalRecover .reliable)
      [.format 0 1024, .begin 0 1024]).run (.start fun _ _ _ => 0) = .ok (log, q) ∧
    q.medium 0 2 = fun _ => 0 := by
  obtain ⟨log, q, hrun⟩ := reliable_returns
  refine ⟨log, q, hrun, traced_frame ?_ hrun 0⟩
  simp [covers, lbaUnit]

theorem formatted_roundTrip_blank : ∃ log q, (Exec.traced (perform txdJournalRecover .reliable)
      [.format 0 1024, .begin 0 1024]).run (.start fun _ _ _ => 0) = .ok (log, q) ∧
    ∃ r j s, (TxDriver.txFormat .reliable 0 1024).run (.start q.medium) = .ok (txdSuccess, r) ∧
      (TxDriver.txBegin .reliable 0 1024).run r = .ok (some j, s) ∧ j.Opened 1024 := by
  obtain ⟨log, q, hrun⟩ := reliable_returns
  have hlater : ∀ c ∈ [Call.begin 0 1024], ¬covers ((0 : BitVec 64).toNat / lbaUnit) c := by
    simp [covers]
  have hlast : (Exec.traced (perform txdJournalRecover .reliable)
      ([] ++ .format 0 1024 :: [.begin 0 1024])).run (.start fun _ _ _ => 0) = .ok (log, q) := hrun
  have htrip := formatted_roundTrip reliable_cooperative reliable_cooperative reliable_front
    (reliable_front 0) (by decide) hlater hlast
  exact ⟨log, q, hrun, htrip⟩

end Legacy

end TxDriver
