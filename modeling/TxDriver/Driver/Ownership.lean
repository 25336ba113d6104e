import TxDriver.Driver.Media
import TxDriver.Driver.ProbeCleanup

/-!
# Blocks over a run

The blocks of the process are those of the registries and all others. What extends the registries
or tears them down spares the others, so a journal that has been handed out stays as it is, and what
a run leaves behind outside the registries can be counted.
-/

namespace TxDriver

def Obj.ofRegistry : Obj → Bool
  | .ctrlr | .ctrlrEntry _ | .nsEntry _ => true
  | .buffer | .journal | .bufferHead _ | .revokeTable _ | .listHeads _ => false

/-- The entries of the registries and the attached controllers. -/
def Process.registry (p : Process) : Heap Obj := p.heap.filter Obj.ofRegistry

/-- All other blocks. -/
def Process.data (p : Process) : Heap Obj := p.heap.filter fun b => !b.ofRegistry

def Process.Spares (p q : Process) : Prop := p.data.Adds q.data []

instance : Std.Refl Process.Spares := ⟨fun _ => .refl _⟩

instance : IsTrans Process Process.Spares := ⟨fun _ _ _ h h' => h.trans h'⟩

section Registries

variable {E : Platform} {p q : Process} {ns cs as : List Addr} {pairs : List (Addr × Nat)}
  {a : Addr} {e : NsEntry}

theorem registry_live {n : Nat} {b : Obj} (h : p.heap.cells a = some (n, b)) :
    p.registry.Live a ↔ b.ofRegistry = true := Heap.live_filter h

theorem data_live {n : Nat} {b : Obj} (h : p.heap.cells a = some (n, b)) :
    p.data.Live a ↔ b.ofRegistry = false := by
  rw [Process.data, Heap.live_filter h, Bool.not_eq_true']

theorem data_dead (h : p.registry.Live a) : ¬p.data.Live a := by
  obtain ⟨c, hc⟩ := Option.isSome_iff_exists.mp (Heap.live_of_filter h)
  rw [registry_live hc] at h
  rw [data_live hc, h]
  exact Bool.noConfusion

theorem nsLink_registry {l : List Addr} {g : Option Addr} (h : Heap.Chain nsLink p.heap g l)
    (ha : a ∈ l) : p.registry.Live a := by
  obtain ⟨n, b, _, hc, hlink⟩ := h.live ha
  rw [registry_live hc]
  cases b <;> first | rfl | cases hlink

theorem ctrlrLink_registry {l : List Addr} {g : Option Addr} (h : Heap.Chain ctrlrLink p.heap g l)
    (ha : a ∈ l) : p.registry.Live a := by
  obtain ⟨n, b, _, hc, hlink⟩ := h.live ha
  rw [registry_live hc]
  cases b <;> first | rfl | cases hlink

theorem ctrlrBlocks_registry (h : Attached p.heap cs) {g : Option Addr}
    (hcs : Heap.Chain ctrlrLink p.heap g cs) (ha : a ∈ ctrlrBlocks p.heap cs) :
    p.registry.Live a := by
  obtain ⟨x, hx, ha⟩ := List.mem_flatMap.mp ha
  rcases List.mem_append.mp ha with hof | hself
  · obtain ⟨n, hc⟩ := h.cell hx (Option.mem_toList.mp hof)
    exact (registry_live hc).mpr rfl
  · rw [List.mem_singleton.mp hself]
    exact ctrlrLink_registry hcs hx

theorem allocBlock_spares (size : BitVec 64) {obj : Obj} (hobj : obj.ofRegistry = true) :
    Exec.Within Process.Spares (allocBlock E size obj) := by
  intro p a q h
  by_cases hg : E.allocates p.requests size = true
  · rw [allocBlock_granted obj hg] at h
    cases h
    refine ((Heap.Adds.refl p.heap).alloc size.toNat obj).filter_nil ?_
    simp [Heap.live_filter (Heap.cells_alloc_self _ _ _), hobj]
  · rw [allocBlock_refused obj hg] at h
    cases h
    exact .refl _

theorem newCtrlr_spares : Exec.Within Process.Spares newCtrlr := by
  intro p a q h
  cases h
  refine ((Heap.Adds.refl p.heap).alloc 0 Obj.ctrlr).filter_nil ?_
  simp [Heap.live_filter (Heap.cells_alloc_self _ _ _), Obj.ofRegistry]

theorem registerNs_spares (ctrlr : Addr) (ns : ReportedNs) :
    Exec.Within Process.Spares (registerNs E ctrlr ns) := by
  rw [registerNs]
  split
  · refine .bind .get fun p => .bind (allocBlock_spares _ rfl) fun entry => ?_
    cases entry with
    | none => exact .stop
    | some entry => exact .modify fun _ => .refl _
  · exact .pure

theorem registerFrom_spares (ctrlr : Addr) (c : ReportedCtrlr) (rounds : Nat) (nsid : BitVec 32) :
    Exec.Within Process.Spares (registerFrom E ctrlr c rounds nsid) := by
  induction rounds generalizing nsid with
  | zero => exact .stop
  | succ rounds ih =>
    rw [registerFrom]
    split
    · cases c.getNs nsid with
      | none => exact ih _
      | some ns => exact .bind (registerNs_spares ctrlr ns) fun _ => ih _
    · exact .pure

theorem attachCb_spares (ctrlr : Addr) (c : ReportedCtrlr) :
    Exec.Within Process.Spares (attachCb E ctrlr c) := by
  refine .bind .get fun p => .bind (allocBlock_spares _ rfl) fun entry => ?_
  cases entry with
  | none => exact .stop
  | some entry => exact .bind (.modify fun _ => .refl _) fun _ => registerFrom_spares ctrlr c _ _

theorem attachAll_spares (ctrlrs : List ReportedCtrlr) :
    Exec.Within Process.Spares (attachAll E ctrlrs) := by
  induction ctrlrs with
  | nil => exact .pure
  | cons c ctrlrs ih =>
    exact .bind newCtrlr_spares fun ctrlr => .bind (attachCb_spares ctrlr c) fun _ => ih

theorem spdkNvmeProbe_spares : Exec.Within Process.Spares (spdkNvmeProbe E) :=
  .bind .get fun _ => .bind (.modify fun _ => .refl _) fun _ =>
    .bind (attachAll_spares _) fun _ => .pure

theorem cleanup_spares : Exec.Within Process.Spares cleanup := by
  intro p _ q h
  by_cases hr : p.Registered
  swap
  · obtain ⟨f, hfault, _⟩ := cleanup_fault hr
    rw [hfault] at h
    cases h
  obtain ⟨ns, cs, hns, hcs, ha⟩ := hr
  rw [cleanup_chains hns hcs ha] at h
  cases h
  apply Heap.filter_freeAll
  intro a hm
  apply data_dead
  rcases List.mem_append.mp hm with hm | hm
  · exact nsLink_registry hns hm
  · exact ctrlrBlocks_registry ha hcs hm

theorem spdkInit_spares : Exec.Within Process.Spares (spdkInit E) := by
  rw [spdkInit]
  refine .bind spdkNvmeProbe_spares fun rc => ?_
  split
  · exact .bind cleanup_spares fun _ => .pure
  · refine .bind .get fun p => ?_
    split
    · exact .bind cleanup_spares fun _ => .pure
    · exact .pure

theorem setQpair_spares (h : p.Head a e) (qpair : Option Nat) :
    p.Spares (p.setQpair a e qpair) := by
  obtain ⟨_, n, hc⟩ := h
  exact Heap.filter_set hc rfl rfl

theorem loadHead_spares : Exec.Within Process.Spares loadHead := by
  intro p a q h
  have hq : q = p := loadHead_fixes (f := id) p a q h
  rw [hq]
  exact .refl _

theorem spdkAllocQpair_spares : Exec.Within Process.Spares (spdkAllocQpair E) := by
  intro p _ q h
  by_cases hlive : p.HeadLive
  · obtain ⟨a, e, ha⟩ := hlive
    rw [spdkAllocQpair_run ha] at h
    cases h
    exact setQpair_spares ha _
  · obtain ⟨f, hfault, _⟩ := spdkAllocQpair_fault (E := E) hlive
    rw [hfault] at h
    cases h

theorem spdkFree_spares : Exec.Within Process.Spares (spdkFree E) :=
  .bind loadHead_spares fun _ => .bind .get fun _ => .bind (.modify fun _ => .refl _) fun _ => .pure

theorem beginOut1_spares : Exec.Within Process.Spares (beginOut1 E) :=
  .bind spdkFree_spares fun _ => .bind .assert fun _ => .bind cleanup_spares fun _ => .pure

theorem formatBuffer_restores (err : Int) (size : BitVec 64) :
    Exec.Within Process.Restored (do
      match ← txdZmallocSpdk E size .buffer with
      | none => Exec.stop .assertion
      | some buf => do
        txdFreeSpdk buf size
        pure err : Driver Int) := by
  intro p _ q h
  by_cases hg : E.allocates p.requests size = true
  · rw [Exec.run_bind_ok _ (txdZmallocSpdk_granted _ hg)] at h
    have hl : p.Ledger (p.grantCounted size .buffer) [(p.heap.next, size)] [] :=
      Process.Ledger.refl.grant _ _
    have hlive := hl.live_of_mem List.mem_cons_self
    dsimp only at h
    rw [Exec.run_bind_ok _ (txdFreeSpdk_live size hlive)] at h
    cases h
    exact hl.free_head.restored
  · rw [Exec.run_bind_ok _ (txdZmallocSpdk_refused _ hg)] at h
    cases h

theorem sameRegistries_spares (h : p.SameRegistries q) : p.Spares q := h.adds.filter_nil (by simp)

theorem txFormat_spares (txdAddr : BitVec 64) (txdSize : BitVec 32) :
    Exec.Within Process.Spares (txFormat E txdAddr txdSize) := by
  refine .bind spdkInit_spares fun err => .bind .assert fun _ => ?_
  refine .bind spdkAllocQpair_spares fun err => .bind .assert fun _ => ?_
  intro p rc q h
  exact sameRegistries_spares (formatBuffer_restores err _ p rc q h).sameRegistries

end Registries

/-- The seven blocks of the journal are live and of the sizes requested, and the buffer head, the
revoke tables and their buckets hold what they were built with. The journal's own block and the tag
buffer have no contents here: the fields of the journal are `j` itself, and no code writes tags. -/
structure TxdJournal.Intact (j : TxdJournal) (q : Process) : Prop where
  journal : q.heap.cells j.self = some (sizeofTxdJournalPtr.toNat, .journal)
  bufferHead : q.heap.cells (j.self + 1) =
    some (sizeofTxdBufferHead.toNat, .bufferHead j.jSuperblock)
  wbuf : q.heap.cells (j.self + 6) = some ((wbufBytes j.jWbufsize).toNat, .buffer)
  owns : j.Owns q (j.self + 1) (j.self + 2) (j.self + 3) (j.self + 4) (j.self + 5) (j.self + 6)

/-- The pointers to the blocks, and what the sizes and contents of these depend on. -/
structure TxdJournal.SameBlocks (j j' : TxdJournal) : Prop where
  self : j'.self = j.self
  superblock : j'.jSuperblock = j.jSuperblock
  sbBuffer : j'.jSbBuffer = j.jSbBuffer
  table0 : j'.jRevokeTable0 = j.jRevokeTable0
  table1 : j'.jRevokeTable1 = j.jRevokeTable1
  wbuf : j'.jWbuf = j.jWbuf
  wbufsize : j'.jWbufsize = j.jWbufsize

section Journals

variable {E : Platform} {p q : Process} {j j' : TxdJournal} {as : List Addr} {a : Addr}
  {txdAddr : BitVec 64} {txdSize : BitVec 32}

theorem afterReset_sameBlocks (j : TxdJournal) : j.SameBlocks j.afterReset := by
  rw [TxdJournal.afterReset, resetTail_eq]
  exact ⟨rfl, rfl, rfl, rfl, rfl, rfl, rfl⟩

theorem load_sameBlocks {recover : TxdJournal → Int} {r err : Int}
    (h : txdJournalLoadWith recover r j = .ok (err, j')) : j.SameBlocks j' := by
  rw [txdJournalLoadWith_eq] at h
  have hreset := afterReset_sameBlocks j
  split at h
  · cases h
    exact ⟨rfl, rfl, rfl, rfl, rfl, rfl, rfl⟩
  · split at h
    · cases h
      exact ⟨hreset.self, hreset.superblock, hreset.sbBuffer, hreset.table0, hreset.table1,
        hreset.wbuf, hreset.wbufsize⟩
    · split at h
      · cases h
        exact hreset
      · cases h

theorem TxdJournal.Intact.same (h : j.Intact q) (hs : j.SameBlocks j') : j'.Intact q := by
  obtain ⟨hself, hsb, hbh, ht₀, ht₁, hwbuf, hsize⟩ := hs
  refine ⟨?_, ?_, ?_, ?_⟩
  · rw [hself]
    exact h.journal
  · rw [hself, hsb]
    exact h.bufferHead
  · rw [hself, hsize]
    exact h.wbuf
  · rw [hself]
    exact ⟨hbh.trans h.owns.bufferHead, ht₀.trans h.owns.table0, h.owns.buckets0,
      ht₁.trans h.owns.table1, h.owns.buckets1, hwbuf.trans h.owns.wbuf⟩

theorem data_kept {n : Nat} {b : Obj} (h : p.data.Adds q.data as) (hb : b.ofRegistry = false)
    (hc : p.heap.cells a = some (n, b)) : q.heap.cells a = some (n, b) := by
  have hdata : p.data.cells a = some (n, b) := Heap.cells_filter_eq_some.mpr ⟨hc, by simp [hb]⟩
  exact (Heap.cells_filter_eq_some.mp (h.grows.kept hdata)).1

theorem TableAt.kept {t b : Addr} {hashSize shift : BitVec 32} (h : p.TableAt t b hashSize shift)
    (hadds : p.data.Adds q.data as) : q.TableAt t b hashSize shift := by
  obtain ⟨hs, hb, hempty⟩ := h.buckets
  exact ⟨data_kept hadds rfl h.table, hs, data_kept hadds rfl hb, hempty⟩

theorem TxdJournal.Intact.kept (h : j.Intact p) (hadds : p.data.Adds q.data as) : j.Intact q where
  journal := data_kept hadds rfl h.journal
  bufferHead := data_kept hadds rfl h.bufferHead
  wbuf := data_kept hadds rfl h.wbuf
  owns := ⟨h.owns.bufferHead, h.owns.table0, TableAt.kept h.owns.buckets0 hadds, h.owns.table1,
    TableAt.kept h.owns.buckets1 hadds, h.owns.wbuf⟩

theorem TxdJournal.Intact.data (h : j.Intact q) (ha : a ∈ journalBlocks j.self) :
    q.data.Live a := by
  obtain ⟨_, hb₀, _⟩ := h.owns.buckets0.buckets
  obtain ⟨_, hb₁, _⟩ := h.owns.buckets1.buckets
  simp only [journalBlocks, List.mem_cons, List.not_mem_nil, or_false] at ha
  rcases ha with rfl | rfl | rfl | rfl | rfl | rfl | rfl
  · exact (data_live h.wbuf).mpr rfl
  · exact (data_live hb₁).mpr rfl
  · exact (data_live h.owns.buckets1.table).mpr rfl
  · exact (data_live hb₀).mpr rfl
  · exact (data_live h.owns.buckets0.table).mpr rfl
  · exact (data_live h.bufferHead).mpr rfl
  · exact (data_live h.journal).mpr rfl

theorem txdGetJournal_intact {jSb : TxdJSuperblock}
    (hg : E.Grants p.requests (journalRequests jSb)) :
    ∃ q, (txdGetJournal E jSb).run p = .ok (some (.describedBy p.heap.next jSb), q) ∧
      p.Allocates q (journalBlocks p.heap.next) (totalSize (journalLedger p.heap.next jSb)) ∧
      (TxdJournal.describedBy p.heap.next jSb).Intact q := by
  obtain ⟨hg₁, hg₂, hg₃, hg₄⟩ := grants_journalRequests.mp hg
  let n := p.heap.next
  let p₁ := p.grantCounted sizeofTxdJournalPtr .journal
  obtain ⟨p₃, hrun₃, hl₃, ht₀, ht₁, hnext₃, hreq₃⟩ := txdJournalInitRevoke_granted
    (p := p.withBufferHead jSb) (initCommonLocks n jSb) hashShift_default hg₃
  have hnext : p₃.heap.next = n + 6 := hnext₃
  have hreq : p₃.requests = p.requests + 6 := hreq₃
  let p₄ := p₃.grantCounted (wbufBytes (tagsPerBlock jSb.sBlocksize)) .buffer
  rw [← hreq] at hg₄
  have hl := ((withBufferHead_ledger p jSb).trans hl₃).grant
    (wbufBytes (tagsPerBlock jSb.sBlocksize)) .buffer
  rw [hnext] at hl
  have hgrows : p₃.heap.Grows p₄.heap := Heap.grows_alloc _ _ _
  have hkept : (p.withBufferHead jSb).heap.Grows p₄.heap := hl₃.allocates.adds.grows.trans hgrows
  have hjournal : (p.withBufferHead jSb).heap.cells n =
      some (sizeofTxdJournalPtr.toNat, .journal) :=
    Heap.cells_alloc_of_some _ _ (Heap.cells_alloc_self _ _ _)
  have hbufferHead : (p.withBufferHead jSb).heap.cells (n + 1) =
      some (sizeofTxdBufferHead.toNat, .bufferHead jSb) := Heap.cells_alloc_self p₁.heap _ _
  have hwbuf : p₄.heap.cells p₃.heap.next = some (_, .buffer) := Heap.cells_alloc_self p₃.heap _ _
  rw [hnext] at hwbuf
  obtain ⟨hs₀, hb₀, hempty₀⟩ := ht₀.buckets
  obtain ⟨hs₁, hb₁, hempty₁⟩ := ht₁.buckets
  refine ⟨p₄, ?_, hl.allocates, hkept.kept hjournal, hkept.kept hbufferHead, hwbuf,
    rfl, rfl, ⟨hgrows.kept ht₀.table, hs₀, hgrows.kept hb₀, hempty₀⟩, rfl,
    ⟨hgrows.kept ht₁.table, hs₁, hgrows.kept hb₁, hempty₁⟩, rfl⟩
  have hcommon : (txdJournalInitCommon E jSb).run p = .ok (some (.initialised n jSb), p₄) := by
    rw [txdJournalInitCommon]
    apply Exec.run_seq (txdZmallocSpdk_granted _ hg₁)
    apply Exec.run_seq (txdZmallocSpdk_granted (p := p₁) _ hg₂)
    apply Exec.run_seq hrun₃
    apply Exec.run_seq (txdZmallocSpdk_granted (p := p₃) _ hg₄)
    rw [hnext]
    rfl
  rw [txdGetJournal]
  apply Exec.run_seq hcommon
  rfl

end Journals

def Result.journal : Result → Option TxdJournal
  | .formatted _ => none
  | .began journal => journal

/-- The journals that a run has handed out. -/
def handed (log : List (Call × Result)) : List TxdJournal := log.filterMap fun x => x.2.journal

/-- What is left in memory for a journal: its own blocks, and the buffer that `tx_begin` read the
superblock into. -/
def TxdJournal.leaves (j : TxdJournal) : List Addr := journalBlocks j.self ++ [j.self - 2]

section Calls

variable {E : Platform} {p q : Process} {j : TxdJournal} {txdAddr : BitVec 64}
  {txdSize : BitVec 32}

theorem beginBuffer_cell (p : Process) :
    p.beginBuffer.heap.cells p.heap.next = some (sizeofTxdJSuperblock.toNat, .buffer) :=
  Heap.cells_alloc_self _ _ _

structure TxdJournal.HandedOut (j : TxdJournal) (p q : Process) : Prop where
  adds : p.heap.Adds q.heap j.leaves
  intact : j.Intact q
  buffer : q.heap.cells (j.self - 2) = some (sizeofTxdJSuperblock.toNat, .buffer)
  keeps : p.Keeps q
  probes : q.probes = p.probes
  counter : q.allocatedMemSize =
    p.allocatedMemSize + sizeofTxdJSuperblock + totalSize (journalLedger j.self j.jSuperblock)
  wbufsize : j.jWbufsize = tagsPerBlock j.jSuperblock.sBlocksize

theorem txBegin_handsOut (h : (txBegin E txdAddr txdSize).run p = .ok (some j, q)) :
    j.HandedOut p q := by
  by_cases hlive : p.HeadLive
  swap
  · obtain ⟨f, hfault, _⟩ := txBegin_headless (E := E) txdJournalRecover txdAddr txdSize hlive
    rw [txBegin, hfault] at h
    cases h
  obtain ⟨a, e, ha⟩ := hlive
  obtain ⟨hreads, hchk, hg⟩ := txBegin_some ha h
  obtain ⟨r, hrun, halloc, hbuilt⟩ := txdGetJournal_intact (p := p.beginRead) hg
  rw [txBegin, txBegin_reads _ _ _ ha hreads, beginChecked, if_pos hchk, Exec.run_bind_ok _ hrun]
    at h
  change Exec.run (if txdSuccess = txdFail then _ else _) r = _ at h
  rw [if_neg (by decide), beginLoad, Exec.run_bind_ok _ (Exec.run_get r),
    Exec.run_bind_ok _ (Exec.run_modify _ r)] at h
  cases hload : txdJournalLoadWith txdJournalRecover (E.pthreadCreate r.threads)
      (.describedBy p.beginRead.heap.next (deviceSuperblock E p e txdAddr)) with
  | error s =>
    rw [hload] at h
    cases h
  | ok res =>
    rw [hload] at h
    cases h
    have hsame := load_sameBlocks hload
    have hself : res.2.self = p.heap.next + 2 := hsame.self
    have hsb : res.2.jSuperblock = deviceSuperblock E p e txdAddr := hsame.superblock
    have hbuffer : p.heap.Adds p.beginBuffer.heap [p.heap.next] :=
      (Heap.Adds.refl p.heap).alloc _ _
    have hadds := (hbuffer.trans (beginRead_same p).adds).trans halloc.adds
    have hleaves : res.2.leaves = journalBlocks p.beginRead.heap.next ++ ([] ++ [p.heap.next]) := by
      rw [TxdJournal.leaves, hself]
      rfl
    rw [← hleaves] at hadds
    have hgrows := (beginRead_same p).adds.grows.trans halloc.adds.grows
    obtain ⟨heap, requests, released, rfl, _⟩ := halloc
    refine ⟨hadds, (hbuilt.same hsame).kept (Heap.Adds.refl _), ?_, ⟨hadds.grows, rfl, rfl⟩, rfl,
      ?_, ?_⟩
    · rw [hself]
      exact hgrows.kept (beginBuffer_cell p)
    · rw [hself, hsb]
      rfl
    · rw [hsb]
      exact hsame.wbufsize

theorem TxdJournal.HandedOut.data {a : Addr} (h : j.HandedOut p q) (ha : a ∈ j.leaves) :
    q.data.Live a := by
  rcases List.mem_append.mp ha with ha | ha
  · exact h.intact.data ha
  · rw [List.mem_singleton.mp ha]
    exact (data_live h.buffer).mpr rfl

theorem TxdJournal.HandedOut.dataAdds (h : j.HandedOut p q) : p.data.Adds q.data j.leaves :=
  h.adds.filter fun _ => h.data

theorem txBegin_none_exit (h : (txBegin E txdAddr txdSize).run p = .ok (none, q)) :
    ∃ r, p.SameRegistries r ∧ (beginOut1 E).run r = .ok (none, q) := by
  by_cases hlive : p.HeadLive
  swap
  · obtain ⟨f, hfault, _⟩ := txBegin_headless (E := E) txdJournalRecover txdAddr txdSize hlive
    rw [txBegin, hfault] at h
    cases h
  obtain ⟨a, e, ha⟩ := hlive
  rw [txBegin] at h
  rcases begin_cases txdAddr txdSize ha with hfail | ⟨hbuf, hn⟩ | ⟨hb, hacc⟩
  · obtain ⟨r, hr, hrun⟩ := txBegin_fails txdJournalRecover txdAddr txdSize hfail
    rw [hrun] at h
    exact ⟨r, hr, h⟩
  · obtain ⟨s, hstop⟩ := txBegin_unread_stops txdJournalRecover txdAddr txdSize ha hbuf hn
    rw [hstop] at h
    cases h
  · obtain ⟨n, r, _, hrun⟩ := txBegin_built txdJournalRecover txdAddr txdSize ha hb hacc
    rw [hrun] at h
    split at h <;> cases h

theorem txBegin_none_spares (h : (txBegin E txdAddr txdSize).run p = .ok (none, q)) :
    p.Spares q := by
  obtain ⟨r, hsame, hout⟩ := txBegin_none_exit h
  exact (sameRegistries_spares hsame).trans (beginOut1_spares r none q hout)

theorem Call.perform_adds {c : Call} {res : Result} (h : (c.perform E).run p = .ok (res, q)) :
    p.data.Adds q.data (res.journal.toList.flatMap TxdJournal.leaves) ∧
      ∀ j, res.journal = some j → j.Intact q := by
  cases c with
  | format txdAddr txdSize =>
    obtain ⟨err, r, hformat, hr⟩ := Exec.run_bind_eq_ok.mp h
    cases hr
    refine ⟨txFormat_spares txdAddr txdSize p err q hformat, ?_⟩
    intro j hj
    cases hj
  | begin txdAddr txdSize =>
    obtain ⟨journal, r, hbegin, hr⟩ := Exec.run_bind_eq_ok.mp h
    cases hr
    cases journal with
    | none =>
      refine ⟨txBegin_none_spares hbegin, ?_⟩
      intro j hj
      cases hj
    | some j =>
      have hq := txBegin_handsOut hbegin
      have hleaves : (Result.began (some j)).journal.toList.flatMap TxdJournal.leaves = j.leaves :=
        List.flatMap_singleton ..
      rw [hleaves]
      refine ⟨hq.dataAdds, ?_⟩
      intro j' hj
      cases hj
      exact hq.intact

end Calls

section Runs

variable {E : Platform} {p q : Process} {cs : List Call} {log : List (Call × Result)}

theorem handed_cons (x : Call × Result) (log : List (Call × Result)) :
    handed (x :: log) = x.2.journal.toList ++ handed log := by
  rw [handed, List.filterMap_cons]
  cases x.2.journal <;> rfl

theorem traced_adds (h : (Exec.traced (Call.perform E) cs).run p = .ok (log, q)) :
    p.data.Adds q.data ((handed log).flatMap TxdJournal.leaves) ∧
      ∀ j ∈ handed log, j.Intact q := by
  induction cs generalizing p log with
  | nil =>
    cases h
    exact ⟨.refl _, fun j hj => absurd hj List.not_mem_nil⟩
  | cons c cs ih =>
    obtain ⟨res, r, log', hc, hcs, rfl⟩ := Exec.traced_cons h
    obtain ⟨hadds, hintact⟩ := Call.perform_adds hc
    obtain ⟨hrest, hlater⟩ := ih hcs
    rw [handed_cons, List.flatMap_append]
    refine ⟨(hadds.trans hrest).perm List.perm_append_comm, ?_⟩
    intro j hj
    rcases List.mem_append.mp hj with hj | hj
    · exact (hintact j (Option.mem_toList.mp hj)).kept hrest
    · exact hlater j hj

theorem length_leaves (js : List TxdJournal) :
    (js.flatMap TxdJournal.leaves).length = 8 * js.length := by
  induction js with
  | nil => rfl
  | cons j js ih =>
    rw [List.flatMap_cons, List.length_append, ih, List.length_cons]
    change 8 + _ = _
    omega

/-- Each journal costs eight blocks; nothing else is left behind outside the registries. -/
theorem traced_blocks (h : (Exec.traced (Call.perform E) cs).run p = .ok (log, q)) :
    (∀ a, q.data.Live a ↔ a ∈ (handed log).flatMap TxdJournal.leaves ∨ p.data.Live a) ∧
      q.data.liveBlocks.card = p.data.liveBlocks.card + 8 * (handed log).length := by
  obtain ⟨hadds, _⟩ := traced_adds h
  refine ⟨fun a => hadds.live_iff, ?_⟩
  rw [hadds.card_liveBlocks, length_leaves]

end Runs

theorem traced_blocks_formatted :
    ∃ log q, (Exec.traced (Call.perform .reliable) [.format 0 1024, .begin 0 1024]).run
        (.start (mediumOf (.formatted 1024))) = .ok (log, q) ∧ q.data.liveBlocks.card = 8 := by
  obtain ⟨j, q, hrun⟩ := reliable_opens
  obtain ⟨_, hcard⟩ := traced_blocks hrun
  exact ⟨_, q, hrun, hcard⟩

end TxDriver
