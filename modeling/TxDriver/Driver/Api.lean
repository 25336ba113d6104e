import TxDriver.Driver.Io
import TxDriver.Driver.Load

/-!
# Format and begin

`tx_format` and `tx_begin` of `txd_api.c`, and every way in which each of them can end: the values
returned, the registries left behind, and the reasons for which the process stops.
-/

namespace TxDriver

def txdJournalDestroy (_j : TxdJournal) : Int := txdFail

def formatParams (txdAddr : BitVec 64) (txdSize : BitVec 32) : TxdParams where
  buf := (TxdJSuperblock.formatted txdSize).store fun _ => 0
  bufSize := sizeofTxdJSuperblock.setWidth 32
  bufAlign := clSize
  lba := txdAddr
  lbaCount := 1

def beginParams (txdAddr : BitVec 64) : TxdParams where
  buf _ := 0
  bufSize := sizeofTxdJSuperblock.setWidth 32
  bufAlign := clSize
  lba := txdAddr
  lbaCount := 1

/-- `tx_format`. The assertion after the allocation is that of `init_journal_header`; the
parameters are never handed to a write. -/
def txFormat (E : Platform) (txdAddr : BitVec 64) (txdSize : BitVec 32) : Driver Int := do
  let err ← spdkInit E
  Exec.assert (err ≠ txdFail)
  let err ← spdkAllocQpair E
  Exec.assert (err ≠ txdFail)
  match ← txdZmallocSpdk E sizeofTxdJSuperblock .buffer with
  | none => Exec.stop .assertion
  | some buf => do
    let _params := formatParams txdAddr txdSize
    txdFreeSpdk buf sizeofTxdJSuperblock
    pure err

def beginOut1 (E : Platform) : Driver (Option TxdJournal) := do
  let err ← spdkFree E
  Exec.assert (err ≠ txdFail)
  cleanup
  pure none

/-- The label `out2`, which falls through to `out1`. -/
def beginOut2 (E : Platform) (buf : Addr) : Driver (Option TxdJournal) := do
  txdFree buf sizeofTxdJSuperblock
  beginOut1 E

/-- The call of `txd_journal_load`, whose result is dropped. -/
def beginLoad (recover : TxdJournal → Int) (E : Platform) (j : TxdJournal) :
    Driver (Option TxdJournal) := do
  let p ← Exec.get
  Exec.modify fun p => { p with threads := p.threads + 1 }
  let (_, j) ← Exec.lift (txdJournalLoadWith recover (E.pthreadCreate p.threads) j)
  pure (some j)

/-- `tx_begin` from the check of the superblock on; `err` is the result of the read. -/
def beginChecked (recover : TxdJournal → Int) (E : Platform) (buf : Addr) (err : Int)
    (jSb : TxdJSuperblock) (txdSize : BitVec 32) : Driver (Option TxdJournal) := do
  if chkTxdSb jSb txdSize = 0 then do
    match ← txdGetJournal E jSb with
    | none => beginOut2 E buf
    | some journal => do
      let err := if txdJournalNeedRecovery journal = 0 then txdWipeJournalLog journal else err
      if err = txdFail then do
        let _err := txdJournalDestroy journal
        beginOut2 E buf
      else beginLoad recover E journal
  else beginOut2 E buf

def beginRead (recover : TxdJournal → Int) (E : Platform) (buf : Addr) (txdAddr : BitVec 64)
    (txdSize : BitVec 32) : Driver (Option TxdJournal) := do
  let (err, bytes) ← spdkRead E (beginParams txdAddr)
  if err = txdFail then beginOut2 E buf
  else beginChecked recover E buf err (.ofBytes bytes) txdSize

def txBeginWith (recover : TxdJournal → Int) (E : Platform) (txdAddr : BitVec 64)
    (txdSize : BitVec 32) : Driver (Option TxdJournal) := do
  match ← txdCalloc E 1 sizeofTxdJSuperblock .buffer with
  | none => beginOut1 E
  | some buf => beginRead recover E buf txdAddr txdSize

def txBegin (E : Platform) (txdAddr : BitVec 64) (txdSize : BitVec 32) :
    Driver (Option TxdJournal) :=
  txBeginWith txdJournalRecover E txdAddr txdSize

/-- The registries of `p` are those of `q` too. -/
structure Process.Keeps (p q : Process) : Prop where
  grows : p.heap.Grows q.heap
  namespaces : q.gNamespaces = p.gNamespaces
  controllers : q.gControllers = p.gControllers

/-- The blocks and registries of `q` are exactly those of `p`. -/
structure Process.SameRegistries (p q : Process) : Prop where
  adds : p.heap.Adds q.heap []
  namespaces : q.gNamespaces = p.gNamespaces
  controllers : q.gControllers = p.gControllers
  frees : q.qpairFrees = p.qpairFrees

section Kept

variable {p q r : Process}

theorem Process.Keeps.trans (h : p.Keeps q) (h' : q.Keeps r) : p.Keeps r where
  grows := h.grows.trans h'.grows
  namespaces := h'.namespaces.trans h.namespaces
  controllers := h'.controllers.trans h.controllers

theorem Process.Keeps.headLive (h : p.Keeps q) (hl : p.HeadLive) : q.HeadLive := by
  obtain ⟨a, e, ha⟩ := hl
  exact ⟨a, e, ha.mono h.namespaces h.grows⟩

theorem Process.Keeps.headDead (h : p.Keeps q) (hd : p.HeadDead) : q.HeadDead :=
  hd.mono h.namespaces h.grows

theorem Process.Keeps.registered (h : p.Keeps q) (hr : p.Registered) : q.Registered := by
  obtain ⟨ns, cs, hns, hcs, ha⟩ := hr
  refine ⟨ns, cs, ?_, ?_, ha.mono fun _ _ => h.grows.kept⟩
  · rw [h.namespaces]
    exact hns.mono fun _ _ _ => h.grows.kept
  · rw [h.controllers]
    exact hcs.mono fun _ _ _ => h.grows.kept

theorem Process.Keeps.dangling (h : p.Keeps q) (hd : p.Dangling) : q.Dangling := by
  rw [Process.Dangling, h.namespaces]
  exact hd.grows h.grows

theorem Process.SameRegistries.trans (h : p.SameRegistries q) (h' : q.SameRegistries r) :
    p.SameRegistries r where
  adds := h.adds.trans h'.adds
  namespaces := h'.namespaces.trans h.namespaces
  controllers := h'.controllers.trans h.controllers
  frees := h'.frees.trans h.frees

theorem Process.Restored.sameRegistries (h : p.Restored q) : p.SameRegistries q := by
  have hadds := h.adds
  obtain ⟨heap, requests, released, rfl, _⟩ := h
  exact ⟨hadds, rfl, rfl, rfl⟩

theorem Process.SameRegistries.keeps (h : p.SameRegistries q) : p.Keeps q where
  grows := h.adds.grows
  namespaces := h.namespaces
  controllers := h.controllers

theorem Process.SameRegistries.headQpair (h : p.SameRegistries q) :
    q.headQpair = p.headQpair := headQpair_congr h.namespaces h.adds.cells_eq

theorem Process.SameRegistries.headLive_iff (h : p.SameRegistries q) :
    q.HeadLive ↔ p.HeadLive := by
  simp only [Process.HeadLive, Process.Head, h.namespaces, h.adds.cells_eq]

theorem Process.SameRegistries.registered_iff (h : p.SameRegistries q) :
    q.Registered ↔ p.Registered := by
  refine ⟨?_, h.keeps.registered⟩
  intro hr
  rcases hr with ⟨ns, cs, hns, hcs, ha⟩
  have hback (x : Addr) (c : Nat × Obj) (hc : q.heap.cells x = some c) :
      p.heap.cells x = some c := by
    rw [← h.adds.cells_eq, hc]
  rw [h.namespaces] at hns
  rw [h.controllers] at hcs
  exact ⟨ns, cs, hns.mono fun x _ => hback x, hcs.mono fun x _ => hback x, ha.mono hback⟩

end Kept

/-- The failure exit of `tx_begin` gets through: the registries are intact, and the result of
releasing the queue pair is not the one that is asserted not to come. -/
def CanTearDown (E : Platform) (p : Process) : Prop :=
  E.freeQpair p.qpairFrees p.headQpair ≠ txdFail ∧ p.Registered

section Begin

variable {E : Platform} {p q : Process} {a buf : Addr} {e : NsEntry}
  (recover : TxdJournal → Int) (txdAddr : BitVec 64) (txdSize : BitVec 32)

theorem assert_decide_true {c : Prop} [Decidable c] (h : c) (p : Process) :
    (Exec.assert (decide c) : Driver Unit).run p = .ok ((), p) := by
  rw [decide_eq_true h]
  rfl

theorem assert_decide_false {c : Prop} [Decidable c] (h : ¬c) (p : Process) :
    (Exec.assert (decide c) : Driver Unit).run p = .error .assertion := by
  rw [decide_eq_false h]
  rfl

theorem beginOut1_tearsDown (h : p.HeadLive) (hd : CanTearDown E p) :
    ∃ q, (beginOut1 E).run p = .ok (none, q) ∧ q.gControllers = p.gControllers ∧ q.HeadDead ∧
      q.Dangling := by
  obtain ⟨a, e, ha⟩ := h
  obtain ⟨hfree, hr⟩ := hd
  rw [ha.headQpair] at hfree
  have hr' : p.freeQpair.Registered := hr
  obtain ⟨heap, hcleanup, hnext, hdead⟩ := cleanup_registered hr'
  obtain ⟨hhead, n, hc⟩ := id ha
  have hlive : p.heap.Live a := by
    rw [Heap.Live, hc]
    rfl
  have hold : a < heap.next := by
    rw [hnext]
    exact hlive.lt_next
  refine ⟨{ p.freeQpair with heap := heap }, ?_, rfl, ?_, ?_⟩
  · rw [beginOut1]
    apply Exec.run_seq (spdkFree_run ha)
    apply Exec.run_seq (assert_decide_true hfree _)
    apply Exec.run_seq hcleanup
    rfl
  · intro x hx
    rw [show p.freeQpair.gNamespaces = some a from hhead] at hx
    cases hx
    exact ⟨hold, hdead a hhead⟩
  · rw [Process.Dangling, show p.freeQpair.gNamespaces = some a from hhead]
    exact .dead hold (hdead a hhead)

theorem beginOut1_asserts (h : p.HeadLive)
    (hfree : E.freeQpair p.qpairFrees p.headQpair = txdFail) :
    (beginOut1 E).run p = .error .assertion := by
  obtain ⟨a, e, ha⟩ := h
  rw [ha.headQpair] at hfree
  rw [beginOut1]
  apply Exec.run_seq (spdkFree_run ha)
  exact Exec.run_bind_error _ (assert_decide_false (not_not_intro hfree) _)

theorem beginOut1_faults (h : p.HeadLive)
    (hfree : E.freeQpair p.qpairFrees p.headQpair ≠ txdFail)
    (hr : ¬p.Registered) : ∃ f, (beginOut1 E).run p = .error (.fault f) ∧ f.OfRegistry := by
  obtain ⟨a, e, ha⟩ := h
  rw [ha.headQpair] at hfree
  have hr' : ¬p.freeQpair.Registered := hr
  obtain ⟨f, hfault, hf⟩ := cleanup_fault hr'
  refine ⟨f, ?_, hf⟩
  rw [beginOut1]
  apply Exec.run_seq (spdkFree_run ha)
  apply Exec.run_seq (assert_decide_true hfree _)
  exact Exec.run_bind_error _ hfault

theorem beginOut1_stops (h : p.HeadLive) (hd : ¬CanTearDown E p) :
    ∃ s, (beginOut1 E).run p = .error s := by
  by_cases hfree : E.freeQpair p.qpairFrees p.headQpair = txdFail
  · exact ⟨.assertion, beginOut1_asserts h hfree⟩
  · obtain ⟨f, hfault, _⟩ := beginOut1_faults h hfree fun hr => hd ⟨hfree, hr⟩
    exact ⟨.fault f, hfault⟩

theorem beginOut1_headless (h : ¬p.HeadLive) :
    ∃ f, (beginOut1 E).run p = .error (.fault f) ∧ f.OfRegistry := by
  obtain ⟨f, hfault, hf⟩ := spdkFree_fault h
  exact ⟨f, Exec.run_bind_error _ hfault, hf⟩

theorem beginOut1_none {res : Option TxdJournal} (h : (beginOut1 E).run p = .ok (res, q)) :
    res = none := by
  obtain ⟨_, _, _, h⟩ := Exec.run_bind_eq_ok.mp h
  obtain ⟨_, _, _, h⟩ := Exec.run_bind_eq_ok.mp h
  obtain ⟨_, _, _, h⟩ := Exec.run_bind_eq_ok.mp h
  cases h
  rfl

theorem txBegin_refused (hg : ¬E.allocates p.requests (1 * sizeofTxdJSuperblock) = true) :
    ∃ q, p.SameRegistries q ∧
      (txBeginWith recover E txdAddr txdSize).run p = (beginOut1 E).run q := by
  let q : Process :=
    { p.refuse with allocatedMemSize := p.allocatedMemSize + sizeofTxdJSuperblock }
  refine ⟨q, ⟨.refl _, rfl, rfl, rfl⟩, ?_⟩
  rw [txBeginWith]
  apply Exec.run_seq (txdCalloc_refused 1 _ _ hg)
  rfl

def Process.beginBuffer (p : Process) : Process :=
  { p.grant (1 * sizeofTxdJSuperblock) .buffer with
    allocatedMemSize := p.allocatedMemSize + sizeofTxdJSuperblock }

theorem beginBuffer_keeps (p : Process) : p.Keeps p.beginBuffer where
  grows := Heap.grows_alloc _ _ _
  namespaces := rfl
  controllers := rfl

theorem txBegin_granted (hg : E.allocates p.requests (1 * sizeofTxdJSuperblock) = true) :
    (txBeginWith recover E txdAddr txdSize).run p =
      (beginRead recover E p.heap.next txdAddr txdSize).run p.beginBuffer := by
  rw [txBeginWith]
  apply Exec.run_seq (txdCalloc_granted 1 _ _ hg)
  rfl

theorem beginOut2_run (h : p.beginBuffer.SameRegistries q) :
    ∃ r, p.SameRegistries r ∧ (beginOut2 E p.heap.next).run q = (beginOut1 E).run r := by
  have hadds := (((Heap.Adds.refl p.heap).alloc _ Obj.buffer).trans h.adds)
  have hmem : p.heap.next ∈ [] ++ [p.heap.next] := List.mem_cons_self ..
  have hfree := hadds.free hmem
  rw [List.nil_append, List.erase_cons_head] at hfree
  refine ⟨q.freeCounted p.heap.next sizeofTxdJSuperblock,
    ⟨hfree, h.namespaces, h.controllers, h.frees⟩, ?_⟩
  rw [beginOut2]
  exact Exec.run_bind_ok _ (txdFree_live _ (hadds.live _ hmem))

/-- The superblock that the next command delivers to `tx_begin` from the namespace of `e`. -/
def deviceSuperblock (E : Platform) (p : Process) (e : NsEntry) (txdAddr : BitVec 64) :
    TxdJSuperblock :=
  .ofBytes (readPayload E p e (beginParams txdAddr))

theorem beginParams_bytes (txdAddr : BitVec 64) :
    (beginParams txdAddr).bytes = sizeofTxdJSuperblock := rfl

theorem ofBytes_memcpy (dst src : Bytes) :
    TxdJSuperblock.ofBytes (memcpy dst src sizeofTxdJSuperblock.toNat) = .ofBytes src := by
  apply TxdJSuperblock.ofBytes_congr
  intro k hk
  have hlt : k < sizeofTxdJSuperblock.toNat := Nat.lt_trans hk (by decide)
  rw [memcpy, if_pos hlt]

def Process.beginRead (p : Process) : Process :=
  p.beginBuffer.afterCommand sizeofTxdJSuperblock

theorem beginRead_same (p : Process) : p.beginBuffer.SameRegistries p.beginRead where
  adds := afterCommand_adds _ _
  namespaces := rfl
  controllers := rfl
  frees := rfl

structure BeginReads (E : Platform) (p : Process) : Prop where
  buffer : E.allocates p.requests (1 * sizeofTxdJSuperblock) = true
  dma : E.allocates (p.requests + 1) sizeofTxdJSuperblock = true
  accepted : E.accepts p.commands p.headQpair = true

def BeginAccepts (E : Platform) (p : Process) (sb : TxdJSuperblock) (txdSize : BitVec 32) : Prop :=
  chkTxdSb sb txdSize = 0 ∧ E.Grants (p.requests + 2) (journalRequests sb)

theorem txBegin_reads (h : p.Head a e) (hb : BeginReads E p) :
    (txBeginWith recover E txdAddr txdSize).run p =
      (beginChecked recover E p.heap.next txdSuccess (deviceSuperblock E p e txdAddr) txdSize).run
        p.beginRead := by
  have hhead : p.beginBuffer.Head a e := h.mono rfl (beginBuffer_keeps p).grows
  have hacc : E.accepts p.commands e.qpair = true := by
    rw [← h.headQpair]
    exact hb.accepted
  have hread := spdkRead_submitted (p := p.beginBuffer) (beginParams txdAddr) hhead hb.dma hacc
  have hsb := ofBytes_memcpy (beginParams txdAddr).buf
    (readPayload E p.beginBuffer e (beginParams txdAddr))
  rw [txBegin_granted recover txdAddr txdSize hb.buffer, TxDriver.beginRead]
  apply Exec.run_seq hread
  change Exec.run (if txdSuccess = txdFail then _ else _) _ = _
  rw [if_neg (by decide), beginParams_bytes, hsb]
  rfl

theorem txBegin_rejected (h : p.Head a e) (hb : BeginReads E p)
    (hn : ¬BeginAccepts E p (deviceSuperblock E p e txdAddr) txdSize) :
    ∃ q, p.SameRegistries q ∧
      (txBeginWith recover E txdAddr txdSize).run p = (beginOut1 E).run q := by
  rw [txBegin_reads recover txdAddr txdSize h hb, beginChecked]
  by_cases hchk : chkTxdSb (deviceSuperblock E p e txdAddr) txdSize = 0
  · have hg : ¬E.Grants p.beginRead.requests
        (journalRequests (deviceSuperblock E p e txdAddr)) := fun hg => hn ⟨hchk, hg⟩
    obtain ⟨q, hrun, hq⟩ := txdGetJournal_refused hg
    have hsame := (beginRead_same p).trans hq.sameRegistries
    obtain ⟨r, hr, hout⟩ := beginOut2_run hsame
    refine ⟨r, hr, ?_⟩
    rw [if_pos hchk]
    apply Exec.run_seq hrun
    exact hout
  · rw [if_neg hchk]
    exact beginOut2_run (beginRead_same p)

/-- Otherwise `tx_begin` hands out the journal, whatever the load returned. -/
theorem txBegin_built (h : p.Head a e) (hb : BeginReads E p)
    (hacc : BeginAccepts E p (deviceSuperblock E p e txdAddr) txdSize) :
    ∃ n q, p.Keeps q ∧ (txBeginWith recover E txdAddr txdSize).run p =
      match txdJournalLoadWith recover (E.pthreadCreate p.threads)
        (.describedBy n (deviceSuperblock E p e txdAddr)) with
      | .ok (_, j) => .ok (some j, q)
      | .error s => .error s := by
  obtain ⟨hchk, hg⟩ := hacc
  obtain ⟨q, hrun, hq⟩ := txdGetJournal_granted (p := p.beginRead) hg
  obtain ⟨heap, requests, released, heq, hadds⟩ := id hq
  have hthreads : q.threads = p.threads := by
    rw [heq]
    rfl
  refine ⟨p.beginRead.heap.next, { q with threads := q.threads + 1 }, ?_, ?_⟩
  · apply ((beginBuffer_keeps p).trans (beginRead_same p).keeps).trans
    refine ⟨hq.adds.grows, ?_, ?_⟩
    · rw [heq]
    · rw [heq]
  · rw [txBegin_reads recover txdAddr txdSize h hb, beginChecked, if_pos hchk]
    apply Exec.run_seq hrun
    change Exec.run (if txdSuccess = txdFail then _ else _) q = _
    rw [if_neg (by decide), beginLoad]
    apply Exec.run_seq (Exec.run_get q)
    apply Exec.run_seq (Exec.run_modify _ q)
    rw [hthreads]
    cases txdJournalLoadWith recover (E.pthreadCreate p.threads) _ with
    | error s => rfl
    | ok r => rfl

theorem txBegin_unread (h : p.Head a e)
    (hbuf : E.allocates p.requests (1 * sizeofTxdJSuperblock) = true)
    (hn : ¬(E.allocates (p.requests + 1) sizeofTxdJSuperblock = true ∧
      E.accepts p.commands p.headQpair = true)) :
    (txBeginWith recover E txdAddr txdSize).run p = .error (.exit 1) ∨
      (txBeginWith recover E txdAddr txdSize).run p = .error (.fault .nullBuffer) := by
  have hhead : p.beginBuffer.Head a e := h.mono rfl (beginBuffer_keeps p).grows
  rw [h.headQpair] at hn
  rw [txBegin_granted recover txdAddr txdSize hbuf, TxDriver.beginRead]
  rcases spdkRead_stops (beginParams txdAddr) hhead hn with hstop | hstop
  · exact Or.inl (Exec.run_bind_error _ hstop)
  · exact Or.inr (Exec.run_bind_error _ hstop)

theorem txBegin_unread_stops (h : p.Head a e)
    (hbuf : E.allocates p.requests (1 * sizeofTxdJSuperblock) = true)
    (hn : ¬(E.allocates (p.requests + 1) sizeofTxdJSuperblock = true ∧
      E.accepts p.commands p.headQpair = true)) :
    ∃ s, (txBeginWith recover E txdAddr txdSize).run p = .error s := by
  rcases txBegin_unread recover txdAddr txdSize h hbuf hn with hstop | hstop
  · exact ⟨_, hstop⟩
  · exact ⟨_, hstop⟩

/-- `tx_begin` has no journal to hand out, and goes to its failure exit. -/
def BeginFails (E : Platform) (p : Process) (txdAddr : BitVec 64) (txdSize : BitVec 32) : Prop :=
  ∃ a e, p.Head a e ∧
    (¬E.allocates p.requests (1 * sizeofTxdJSuperblock) = true ∨
      BeginReads E p ∧ ¬BeginAccepts E p (deviceSuperblock E p e txdAddr) txdSize)

theorem txBegin_fails (h : BeginFails E p txdAddr txdSize) :
    ∃ q, p.SameRegistries q ∧
      (txBeginWith recover E txdAddr txdSize).run p = (beginOut1 E).run q := by
  obtain ⟨a, e, ha, hbuf | ⟨hb, hn⟩⟩ := h
  · exact txBegin_refused recover txdAddr txdSize hbuf
  · exact txBegin_rejected recover txdAddr txdSize ha hb hn

theorem begin_cases (h : p.Head a e) :
    BeginFails E p txdAddr txdSize ∨
      (E.allocates p.requests (1 * sizeofTxdJSuperblock) = true ∧
        ¬(E.allocates (p.requests + 1) sizeofTxdJSuperblock = true ∧
          E.accepts p.commands p.headQpair = true)) ∨
      (BeginReads E p ∧ BeginAccepts E p (deviceSuperblock E p e txdAddr) txdSize) := by
  by_cases hbuf : E.allocates p.requests (1 * sizeofTxdJSuperblock) = true
  swap
  · exact Or.inl ⟨a, e, h, Or.inl hbuf⟩
  by_cases hread : E.allocates (p.requests + 1) sizeofTxdJSuperblock = true ∧
      E.accepts p.commands p.headQpair = true
  swap
  · exact Or.inr (Or.inl ⟨hbuf, hread⟩)
  have hb : BeginReads E p := ⟨hbuf, hread.1, hread.2⟩
  by_cases hacc : BeginAccepts E p (deviceSuperblock E p e txdAddr) txdSize
  · exact Or.inr (Or.inr ⟨hb, hacc⟩)
  · exact Or.inl ⟨a, e, h, Or.inr ⟨hb, hacc⟩⟩

theorem not_beginFails_of_accepts (h : p.Head a e) (hb : BeginReads E p)
    (hacc : BeginAccepts E p (deviceSuperblock E p e txdAddr) txdSize) :
    ¬BeginFails E p txdAddr txdSize := by
  intro hfail
  rcases hfail with ⟨a', e', ha', hbuf | ⟨_, hn⟩⟩
  · exact hbuf hb.buffer
  · rw [h.unique ha'] at hn
    exact hn hacc

theorem BeginFails.reads (h : BeginFails E p txdAddr txdSize)
    (hbuf : E.allocates p.requests (1 * sizeofTxdJSuperblock) = true) : BeginReads E p := by
  obtain ⟨_, _, _, hn | ⟨hb, _⟩⟩ := h
  · exact absurd hbuf hn
  · exact hb

theorem txBegin_headless (h : ¬p.HeadLive) :
    ∃ f, (txBeginWith recover E txdAddr txdSize).run p = .error (.fault f) ∧ f.OfRegistry := by
  by_cases hbuf : E.allocates p.requests (1 * sizeofTxdJSuperblock) = true
  · have hhead : ¬p.beginBuffer.HeadLive :=
      fun hl => h (headLive_of_grant (p := p) (1 * sizeofTxdJSuperblock) hl)
    obtain ⟨f, hfault, hf⟩ := spdkRead_fault (beginParams txdAddr) hhead
    refine ⟨f, ?_, hf⟩
    rw [txBegin_granted recover txdAddr txdSize hbuf, TxDriver.beginRead]
    exact Exec.run_bind_error _ hfault
  · obtain ⟨q, hsame, hrun⟩ := txBegin_refused recover txdAddr txdSize hbuf
    rw [hrun]
    exact beginOut1_headless fun hq => h (hsame.headLive_iff.mp hq)

theorem txFormat_stopped {s : Stop Fault} (hinit : (spdkInit E).run p = .error s) :
    (txFormat E txdAddr txdSize).run p = .error s := by
  rw [txFormat, Exec.run_bind_error _ hinit]

theorem txFormat_uninitialised (hinit : (spdkInit E).run p = .ok (txdFail, q)) :
    (txFormat E txdAddr txdSize).run p = .error .assertion := by
  rw [txFormat]
  apply Exec.run_seq hinit
  exact Exec.run_bind_error _ (assert_decide_false (not_not_intro rfl) q)

theorem txFormat_headless (hinit : (spdkInit E).run p = .ok (txdSuccess, q)) (h : ¬q.HeadLive) :
    ∃ f, (txFormat E txdAddr txdSize).run p = .error (.fault f) ∧ f.OfRegistry := by
  obtain ⟨f, hfault, hf⟩ := spdkAllocQpair_fault (E := E) h
  refine ⟨f, ?_, hf⟩
  rw [txFormat]
  apply Exec.run_seq hinit
  apply Exec.run_seq (assert_decide_true (by decide) q)
  exact Exec.run_bind_error _ hfault

theorem txFormat_granted (hinit : (spdkInit E).run p = .ok (txdSuccess, q)) (h : q.Head a e)
    (hqpair : E.allocsQpair q.qpairs = true)
    (hbuf : E.allocates q.requests sizeofTxdJSuperblock = true) :
    ∃ r, (txFormat E txdAddr txdSize).run p = .ok (txdSuccess, r) ∧
      (q.setQpair a e (some q.qpairs)).SameRegistries r ∧ r.medium = q.medium := by
  let q₁ := q.setQpair a e (some q.qpairs)
  let q₂ := q₁.grantCounted sizeofTxdJSuperblock .buffer
  have halloc := spdkAllocQpair_run (E := E) h
  rw [if_pos hqpair, if_pos hqpair] at halloc
  have hl : q₁.Ledger q₂ [(q₁.heap.next, sizeofTxdJSuperblock)] [] :=
    Process.Ledger.refl.grant _ _
  have hlive : q₂.heap.Live q₁.heap.next := hl.live_of_mem (List.mem_cons_self ..)
  refine ⟨q₂.freeCounted q₁.heap.next sizeofTxdJSuperblock, ?_,
    ⟨hl.free_head.restored.adds, rfl, rfl, rfl⟩, rfl⟩
  rw [txFormat]
  apply Exec.run_seq hinit
  apply Exec.run_seq (assert_decide_true (by decide) q)
  apply Exec.run_seq halloc
  apply Exec.run_seq (assert_decide_true (by decide) q₁)
  apply Exec.run_seq (txdZmallocSpdk_granted (p := q₁) _ hbuf)
  apply Exec.run_seq (txdFreeSpdk_live _ hlive)
  rfl

theorem txFormat_denied (hinit : (spdkInit E).run p = .ok (txdSuccess, q)) (h : q.Head a e)
    (hn : ¬(E.allocsQpair q.qpairs = true ∧
      E.allocates q.requests sizeofTxdJSuperblock = true)) :
    (txFormat E txdAddr txdSize).run p = .error .assertion := by
  rw [txFormat]
  apply Exec.run_seq hinit
  apply Exec.run_seq (assert_decide_true (by decide) q)
  apply Exec.run_seq (spdkAllocQpair_run h)
  by_cases hqpair : E.allocsQpair q.qpairs = true
  · have hbuf : ¬E.allocates q.requests sizeofTxdJSuperblock = true := fun hbuf => hn ⟨hqpair, hbuf⟩
    rw [if_pos hqpair, if_pos hqpair]
    apply Exec.run_seq (assert_decide_true (by decide) _)
    apply Exec.run_seq (txdZmallocSpdk_refused (p := q.setQpair a e _) _ hbuf)
    rfl
  · rw [if_neg hqpair, if_neg hqpair]
    exact Exec.run_bind_error _ (assert_decide_false (by decide) _)

end Begin

end TxDriver
