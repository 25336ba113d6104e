import TxDriver.Driver.Api
import TxDriver.Driver.LoadOutcomes

/-!
# The contracts of format and begin

What a caller may expect of `tx_format`, `tx_begin` and the commands below them, each with the
exact condition under which the driver keeps it: a formatted area can be opened, a journal that
is handed out has been loaded, and the result of a command is that of the device.
-/

namespace TxDriver

structure TxdJSuperblock.Formatted (sb : TxdJSuperblock) (txdSize : BitVec 32) : Prop where
  signature : sb.sHeader.txdSignature = sigTxd
  blocktype : sb.sHeader.txdBlocktype = sigSuperBlock
  blocksize : sb.sBlocksize = blkSize
  maxlen : sb.sMaxlen = txdSize
  first : sb.sFirst = 1
  sequence : sb.sSequence = 0
  start : sb.sStart = 0
  errno : sb.sErrno = 0

def superblockAt (medium : Nat → Sector) (lba : BitVec 64) : TxdJSuperblock :=
  .ofBytes (readSectors medium lba.toNat 1)

/-- Everything outside the driver does what it is asked to. -/
structure Platform.Cooperative (E : Platform) : Prop where
  allocates : ∀ k size, E.allocates k size = true
  probe : ∀ k, (E.probe k).rc = 0
  ends : ∀ k, ∀ c ∈ (E.probe k).ctrlrs, ¬c.Overflows
  allocsQpair : ∀ k, E.allocsQpair k = true
  accepts : ∀ k qpair, E.accepts k qpair = true
  completes : ∀ k, (E.completion k).status = 0
  pthreadCreate : ∀ k, E.pthreadCreate k = 0

/-- The namespace at the head of the registry after the next probe. -/
def Platform.frontNs (E : Platform) (p : Process) : Option Nat :=
  (attachIds (E.probe p.probes).ctrlrs).getLast?

structure TxdJournal.Opened (j : TxdJournal) (txdSize : BitVec 32) : Prop where
  superblock : j.jSuperblock.Formatted txdSize
  loaded : j.jFlags &&& txdLoaded = txdLoaded
  flushed : j.jFlags &&& txdFlushed = txdFlushed
  abort : j.jFlags &&& txdAbort = 0

/-- After a successful format, `tx_begin` opens the area. -/
def RoundTrip (E : Platform) (p : Process) (txdAddr : BitVec 64) (txdSize : BitVec 32) : Prop :=
  ∀ q, (txFormat E txdAddr txdSize).run p = .ok (txdSuccess, q) →
    ∃ j r, (txBegin E txdAddr txdSize).run q = .ok (some j, r) ∧ j.Opened txdSize

section RoundTrips

variable {E : Platform} {p q : Process} {ns : Nat} {txdAddr : BitVec 64} {txdSize : BitVec 32}

theorem spdkInit_cooperative (hE : E.Cooperative) (hns : E.frontNs p = some ns) :
    ∃ q a e, (spdkInit E).run p = .ok (txdSuccess, q) ∧ q.Head a e ∧ e.ns = ns ∧
      q.medium = p.medium := by
  have hctrlrs : (E.probe p.probes).ctrlrs ≠ [] := by
    intro hnil
    rw [Platform.frontNs, hnil] at hns
    cases hns
  obtain ⟨q, hinit, hext, _⟩ := spdkInit_success
    ⟨Platform.grants_of_allocates hE.allocates _ _, hE.ends _⟩ (hE.probe _) (Or.inr hctrlrs)
  have hhead := hext.head
  rw [Platform.frontNs] at hns
  rw [hns] at hhead
  obtain ⟨a, e, ha, he⟩ := hhead
  refine ⟨q, a, e, hinit, ha, he, ?_⟩
  rw [hext.rest]

theorem txFormat_cooperative (txdAddr : BitVec 64) (txdSize : BitVec 32) (hE : E.Cooperative)
    (hns : E.frontNs p = some ns) :
    ∃ q a e, (txFormat E txdAddr txdSize).run p = .ok (txdSuccess, q) ∧ q.Head a e ∧ e.ns = ns ∧
      q.medium = p.medium := by
  obtain ⟨q, a, e, hinit, ha, he, hmedium⟩ := spdkInit_cooperative hE hns
  obtain ⟨r, hrun, hsame, hkept⟩ := txFormat_granted txdAddr txdSize hinit ha
    (hE.allocsQpair _) (hE.allocates _ _)
  have hhead : r.Head a { e with qpair := some q.qpairs } :=
    (setQpair_head ha _).mono hsame.namespaces hsame.keeps.grows
  exact ⟨r, a, _, hrun, hhead, he, hkept.trans hmedium⟩

theorem deviceSuperblock_completed {e : NsEntry} (hE : E.Cooperative) :
    deviceSuperblock E q e txdAddr = superblockAt (q.medium e.ns) txdAddr := by
  rw [deviceSuperblock, readPayload, if_pos (hE.completes _)]
  rfl

theorem beginReads_cooperative (hE : E.Cooperative) : BeginReads E q :=
  ⟨hE.allocates _ _, hE.allocates _ _, hE.accepts _ _⟩

theorem txBegin_some {a : Addr} {e : NsEntry} {j : TxdJournal} {r : Process} (h : q.Head a e)
    (hrun : (txBegin E txdAddr txdSize).run q = .ok (some j, r)) :
    BeginReads E q ∧ BeginAccepts E q (deviceSuperblock E q e txdAddr) txdSize := by
  rw [txBegin] at hrun
  rcases begin_cases txdAddr txdSize h with hfail | ⟨hbuf, hn⟩ | hok
  · obtain ⟨r, _, hout⟩ := txBegin_fails txdJournalRecover txdAddr txdSize hfail
    rw [hout] at hrun
    cases beginOut1_none hrun
  · obtain ⟨s, hstop⟩ := txBegin_unread_stops txdJournalRecover txdAddr txdSize h hbuf hn
    rw [hstop] at hrun
    cases hrun
  · exact hok

theorem txBegin_superblock {a : Addr} {e : NsEntry} {j : TxdJournal} {r : Process}
    (hE : E.Cooperative) (h : q.Head a e)
    (hrun : (txBegin E txdAddr txdSize).run q = .ok (some j, r)) :
    j.jSuperblock = superblockAt (q.medium e.ns) txdAddr := by
  obtain ⟨hreads, hok⟩ := txBegin_some h hrun
  obtain ⟨n, q', _, hbuilt⟩ := txBegin_built txdJournalRecover txdAddr txdSize h hreads hok
  rw [txBegin, hbuilt] at hrun
  cases hload : txdJournalLoadWith txdJournalRecover (E.pthreadCreate q.threads)
      (.describedBy n (deviceSuperblock E q e txdAddr)) with
  | error s =>
    rw [hload] at hrun
    cases hrun
  | ok res =>
    rw [hload] at hrun
    cases hrun
    rw [txdJournalLoadWith_jSuperblock hload, ← deviceSuperblock_completed hE]
    rfl

/-- What `tx_begin` opens after a format was on the device before the format. -/
theorem roundTrip_superblock (hE : E.Cooperative) (hns : E.frontNs p = some ns)
    (h : RoundTrip E p txdAddr txdSize) :
    (superblockAt (p.medium ns) txdAddr).Formatted txdSize := by
  obtain ⟨q, a, e, hformat, hhead, he, hmedium⟩ := txFormat_cooperative txdAddr txdSize hE hns
  obtain ⟨j, r, hbegin, hopened⟩ := h q hformat
  have hsb := txBegin_superblock hE hhead hbegin
  rw [he, hmedium] at hsb
  rw [← hsb]
  exact hopened.superblock

theorem TxdJSuperblock.Formatted.longEnough {sb : TxdJSuperblock} (h : sb.Formatted txdSize)
    (hsize : 1024 ≤ txdSize.toNat) : sb.LongEnough := by
  rw [TxdJSuperblock.LongEnough, h.first, h.maxlen]
  change 1 + 1023 ≤ txdSize.toNat
  omega

/-- A format can be followed by a successful `tx_begin` exactly when the area had been formatted
before. -/
theorem format_begin_roundTrip (hE : E.Cooperative) (hns : E.frontNs p = some ns)
    (hsize : 1024 ≤ txdSize.toNat) :
    RoundTrip E p txdAddr txdSize ↔ (superblockAt (p.medium ns) txdAddr).Formatted txdSize := by
  refine ⟨roundTrip_superblock hE hns, ?_⟩
  intro hsb q hformat
  obtain ⟨q', a, e, hformat', hhead, he, hmedium⟩ := txFormat_cooperative txdAddr txdSize hE hns
  rw [hformat'] at hformat
  cases hformat
  have hdevice : deviceSuperblock E q e txdAddr = superblockAt (p.medium ns) txdAddr := by
    rw [deviceSuperblock_completed hE, he, hmedium]
  have hchk : chkTxdSb (deviceSuperblock E q e txdAddr) txdSize = 0 := by
    rw [hdevice]
    exact chkTxdSb_eq_zero.mpr ⟨hsb.signature, hsb.maxlen⟩
  obtain ⟨n, r, _, hbuilt⟩ := txBegin_built txdJournalRecover txdAddr txdSize hhead
    (beginReads_cooperative hE) ⟨hchk, Platform.grants_of_allocates hE.allocates _ _⟩
  rw [hdevice] at hbuilt
  have hload : txdJournalLoadWith txdJournalRecover (E.pthreadCreate q.threads)
      (.describedBy n (superblockAt (p.medium ns) txdAddr)) =
        .ok (txdSuccess, TxdJournal.afterLoad
          (.describedBy n (superblockAt (p.medium ns) txdAddr))) :=
    txdJournalLoadWith_success_iff.mpr
      ⟨⟨rfl, rfl, hsb.longEnough hsize, hE.pthreadCreate q.threads⟩, rfl⟩
  rw [hload] at hbuilt
  refine ⟨_, r, hbuilt, ?_, afterLoad_jFlags_loaded _, ?_, afterLoad_jFlags_abort _⟩
  · rw [afterLoad_jSuperblock]
    exact hsb
  · exact afterLoad_jFlags_flushed hsb.start

end RoundTrips

def mediumOf (sb : TxdJSuperblock) : Nat → Nat → Sector := fun _ _ =>
  sectorsOf (sb.store fun _ => 0) 0

theorem superblockAt_mediumOf (sb : TxdJSuperblock) (ns : Nat) (lba : BitVec 64) :
    superblockAt (mediumOf sb ns) lba = sb := by
  rw [superblockAt]
  refine Eq.trans ?_ (TxdJSuperblock.ofBytes_store (fun _ => 0) sb)
  apply TxdJSuperblock.ofBytes_congr
  intro k hk
  have hlt : k < lbaUnit := Nat.lt_trans hk (by decide)
  have hin : k < lbaUnit * 1 := by omega
  rw [readSectors, if_pos hin]
  change sb.store (fun _ => 0) (lbaUnit * 0 + k % lbaUnit) = sb.store (fun _ => 0) k
  rw [Nat.mod_eq_of_lt hlt, Nat.mul_zero, Nat.zero_add]

theorem reliable_cooperative : Platform.reliable.Cooperative where
  allocates _ _ := rfl
  probe _ := rfl
  ends _ := (by decide : ∀ c ∈ (Platform.reliable.probe 0).ctrlrs, ¬c.Overflows)
  allocsQpair _ := rfl
  accepts _ _ := rfl
  completes _ := rfl
  pthreadCreate _ := rfl

theorem reliable_front (k : Nat) :
    (attachIds (Platform.reliable.probe k).ctrlrs).getLast? = some 0 := rfl

theorem reliable_freeQpair (k : Nat) (qpair : Option Nat) :
    Platform.reliable.freeQpair k qpair ≠ txdFail := by
  change (0 : Int) ≠ txdFail
  decide

theorem format_begin_roundTrip_formatted :
    RoundTrip .reliable (.start (mediumOf (.formatted 1024))) 0 1024 := by
  have hns : Platform.reliable.frontNs (.start (mediumOf (.formatted 1024))) = some 0 := rfl
  refine (format_begin_roundTrip reliable_cooperative hns (by decide)).mpr ?_
  change (superblockAt (mediumOf (.formatted 1024) 0) 0).Formatted 1024
  rw [superblockAt_mediumOf]
  exact ⟨rfl, rfl, rfl, rfl, rfl, rfl, rfl, rfl⟩

/-- On a blank device nothing can be opened after a format. -/
theorem format_begin_blank :
    ¬∀ (E : Platform) (p : Process) (ns : Nat) (txdAddr : BitVec 64) (txdSize : BitVec 32),
      E.Cooperative → E.frontNs p = some ns → 1024 ≤ txdSize.toNat →
        RoundTrip E p txdAddr txdSize := by
  intro h
  have htrip := h .reliable (.start fun _ _ _ => 0) 0 0 1024 reliable_cooperative rfl (by decide)
  have hns : Platform.reliable.frontNs (.start fun _ _ _ => 0) = some 0 := rfl
  have hsb := roundTrip_superblock reliable_cooperative hns htrip
  exact absurd hsb.signature (by decide)

/-- The journal has been loaded: its log is empty and not without blocks. -/
structure TxdJournal.Loaded (j : TxdJournal) : Prop where
  loaded : j.jFlags &&& txdLoaded = txdLoaded
  abort : j.jFlags &&& txdAbort = 0
  head : j.jHead = j.jFirst
  tail : j.jTail = j.jFirst
  nonempty : j.jFirst < j.jLast
  free : j.jFree = j.jLast - j.jFirst

/-- `tx_begin` returns, with a loaded journal or none; `outcome` is that of the recovery. -/
def BeginContract (outcome : Int) (E : Platform) (p : Process) (txdAddr : BitVec 64)
    (txdSize : BitVec 32) : Prop :=
  ∃ res q, (txBeginWith (fun _ => outcome) E txdAddr txdSize).run p = .ok (res, q) ∧
    ∀ j, res = some j → j.Loaded

/-- Either `tx_begin` fails before it has a journal, and can take its failure exit, or nothing
fails until the journal has been loaded. -/
def BeginHolds (outcome : Int) (E : Platform) (p : Process) (txdAddr : BitVec 64)
    (txdSize : BitVec 32) : Prop :=
  (BeginFails E p txdAddr txdSize ∧ CanTearDown E p) ∨
    ∃ a e, p.Head a e ∧ BeginReads E p ∧
      BeginAccepts E p (deviceSuperblock E p e txdAddr) txdSize ∧
      outcome = 0 ∧ (deviceSuperblock E p e txdAddr).LongEnough ∧ E.pthreadCreate p.threads = 0

section Begin

variable {E : Platform} {p q : Process} {a : Addr} {e : NsEntry} {n : Addr} {outcome r : Int}
  {sb : TxdJSuperblock} {txdAddr : BitVec 64} {txdSize : BitVec 32}

theorem afterLoad_loaded (hlong : sb.LongEnough) :
    (TxdJournal.afterLoad (.describedBy n sb)).Loaded := by
  have hbounds := resetFields_logBounds hlong rfl (j := .describedBy n sb) rfl
  have hlt := Nat.lt_of_le_of_lt (BitVec.le_def.mp hbounds.tail.1) (BitVec.lt_def.mp hbounds.tail.2)
  rw [afterLoad_eq]
  exact ⟨afterLoad_jFlags_loaded _, afterLoad_jFlags_abort _, rfl, rfl, BitVec.lt_def.mpr hlt, rfl⟩

theorem not_loaded_of_flags {j : TxdJournal} (h : j.jFlags &&& txdLoaded = 0) : ¬j.Loaded := by
  intro hloaded
  have heq := h.symm.trans hloaded.loaded
  exact absurd heq (by decide)

theorem describedBy_jFlags (n : Addr) (sb : TxdJSuperblock) :
    (TxdJournal.describedBy n sb).jFlags = txdAbort := rfl

theorem afterReset_jFlags (n : Addr) (sb : TxdJSuperblock) :
    (TxdJournal.afterReset (.describedBy n sb)).jFlags &&& txdLoaded = 0 := by
  rw [TxdJournal.afterReset, resetTail_eq]
  change (if sb.sStart = 0 then txdAbort ||| txdFlushed else txdAbort) &&& txdLoaded = 0
  split <;> decide

theorem load_loaded_iff :
    (∃ err j, txdJournalLoadWith (fun _ => outcome) r (.describedBy n sb) = .ok (err, j) ∧
      j.Loaded) ↔ outcome = 0 ∧ sb.LongEnough ∧ r = 0 := by
  have hcases := txdJournalLoadWith_eq (fun _ => outcome) r (.describedBy n sb)
  constructor
  · intro hloads
    rcases hloads with ⟨err, j, hload, hj⟩
    rw [hload] at hcases
    split at hcases
    · cases hcases
      have hflags : (TxdJournal.describedBy n sb).jFlags &&& txdLoaded = 0 := by
        rw [describedBy_jFlags]
        decide
      exact absurd hj (not_loaded_of_flags hflags)
    · rename_i hearly
      simp only [ne_eq, not_or, not_not] at hearly
      obtain ⟨hrec, _, hlong⟩ := hearly
      split at hcases
      · exact ⟨hrec, hlong, ‹_›⟩
      · split at hcases
        · cases hcases
          exact absurd hj (not_loaded_of_flags (afterReset_jFlags n sb))
        · cases hcases
  · intro hgood
    rcases hgood with ⟨hrec, hlong, hr⟩
    exact ⟨_, _, txdJournalLoadWith_success_iff.mpr ⟨⟨hrec, rfl, hlong, hr⟩, rfl⟩,
      afterLoad_loaded hlong⟩

theorem beginContract_built (h : p.Head a e) (hb : BeginReads E p)
    (hacc : BeginAccepts E p (deviceSuperblock E p e txdAddr) txdSize) :
    BeginContract outcome E p txdAddr txdSize ↔
      outcome = 0 ∧ (deviceSuperblock E p e txdAddr).LongEnough ∧
        E.pthreadCreate p.threads = 0 := by
  obtain ⟨n, q, _, hbuilt⟩ :=
    txBegin_built (fun _ => outcome) txdAddr txdSize h hb hacc
  rw [← load_loaded_iff (n := n), BeginContract, hbuilt]
  cases hload : txdJournalLoadWith (fun _ => outcome) (E.pthreadCreate p.threads)
      (.describedBy n (deviceSuperblock E p e txdAddr)) with
  | error s => simp
  | ok res =>
    obtain ⟨err, j⟩ := res
    constructor
    · intro hcontract
      rcases hcontract with ⟨res, q', hrun, hres⟩
      cases hrun
      exact ⟨err, j, rfl, hres j rfl⟩
    · intro hloads
      rcases hloads with ⟨err', j', hok, hj⟩
      cases hok
      refine ⟨some j, q, rfl, ?_⟩
      intro j' hj'
      cases hj'
      exact hj

theorem beginContract_failing (h : p.Head a e) (hsame : p.SameRegistries q)
    (hrun : (txBeginWith (fun _ => outcome) E txdAddr txdSize).run p = (beginOut1 E).run q) :
    BeginContract outcome E p txdAddr txdSize ↔ CanTearDown E p := by
  have hlive : q.HeadLive := hsame.keeps.headLive ⟨a, e, h⟩
  have hiff : CanTearDown E p ↔ CanTearDown E q := by
    rw [CanTearDown, CanTearDown, hsame.frees, hsame.headQpair]
    exact and_congr_right fun _ => hsame.registered_iff.symm
  rw [BeginContract, hrun, hiff]
  constructor
  · intro hcontract
    rcases hcontract with ⟨res, r, hres, _⟩
    by_contra hd
    obtain ⟨s, hstop⟩ := beginOut1_stops hlive hd
    rw [hstop] at hres
    cases hres
  · intro hd
    obtain ⟨r, hnone, _⟩ := beginOut1_tearsDown hlive hd
    refine ⟨none, r, hnone, ?_⟩
    intro j hj
    cases hj

/-- The contract of `tx_begin`, for every platform and every state of the process. -/
theorem txBegin_contract_iff :
    BeginContract outcome E p txdAddr txdSize ↔ BeginHolds outcome E p txdAddr txdSize := by
  by_cases hlive : p.HeadLive
  swap
  · apply iff_of_false
    · intro hcontract
      rcases hcontract with ⟨res, q, hrun, _⟩
      obtain ⟨f, hfault, _⟩ := txBegin_headless (fun _ => outcome) txdAddr txdSize (E := E) hlive
      rw [hfault] at hrun
      cases hrun
    · intro hholds
      rcases hholds with ⟨⟨a, e, ha, _⟩, _⟩ | ⟨a, e, ha, _⟩
      · exact hlive ⟨a, e, ha⟩
      · exact hlive ⟨a, e, ha⟩
  obtain ⟨a, e, ha⟩ := hlive
  rcases begin_cases txdAddr txdSize ha with hfail | ⟨hbuf, hn⟩ | ⟨hb, hacc⟩
  · obtain ⟨q, hsame, hrun⟩ := txBegin_fails (fun _ => outcome) txdAddr txdSize hfail
    rw [beginContract_failing ha hsame hrun]
    constructor
    · intro hd
      exact Or.inl ⟨hfail, hd⟩
    · intro hholds
      rcases hholds with ⟨_, hd⟩ | ⟨a', e', ha', hb, hacc, _⟩
      · exact hd
      · exact absurd hfail (not_beginFails_of_accepts txdAddr txdSize ha' hb hacc)
  · apply iff_of_false
    · intro hcontract
      rcases hcontract with ⟨res, q, hrun, _⟩
      obtain ⟨s, hstop⟩ := txBegin_unread_stops (fun _ => outcome) txdAddr txdSize ha hbuf hn
      rw [hstop] at hrun
      cases hrun
    · intro hholds
      rcases hholds with ⟨hfail, _⟩ | ⟨_, _, _, hb, _⟩
      · have hb := hfail.reads txdAddr txdSize hbuf
        exact hn ⟨hb.dma, hb.accepted⟩
      · exact hn ⟨hb.dma, hb.accepted⟩
  · rw [beginContract_built ha hb hacc]
    constructor
    · intro hload
      exact Or.inr ⟨a, e, ha, hb, hacc, hload⟩
    · intro hholds
      rcases hholds with ⟨hfail, _⟩ | ⟨a', e', ha', _, _, hload⟩
      · exact absurd hfail (not_beginFails_of_accepts txdAddr txdSize ha hb hacc)
      · rwa [ha.unique ha'] at hload

end Begin

def Process.attached (medium : Nat → Nat → Sector) : Process :=
  ((Process.start medium).pushCtrlr.pushNs 0 0).setQpair 2 ⟨0, 0, none, none⟩ (some 0)

theorem attached_head (medium : Nat → Nat → Sector) :
    ∃ a e, (Process.attached medium).Head a e ∧ e.ns = 0 ∧ e.qpair = some 0 :=
  ⟨2, _, setQpair_head ⟨rfl, _, pushNs_entry (Process.start medium).pushCtrlr 0 0⟩ (some 0), rfl,
    rfl⟩

/-- An area that is too short to be loaded is handed out all the same. -/
theorem txBegin_contract_short :
    ¬∀ (outcome : Int) (E : Platform) (p : Process) (txdAddr : BitVec 64) (txdSize : BitVec 32),
      BeginContract outcome E p txdAddr txdSize := by
  intro h
  obtain ⟨a, e, ha, _⟩ := attached_head (mediumOf (.formatted 512))
  have hsb : deviceSuperblock .reliable (.attached (mediumOf (.formatted 512))) e 0 =
      .formatted 512 := by
    rw [deviceSuperblock_completed reliable_cooperative]
    exact superblockAt_mediumOf _ e.ns _
  have hacc : BeginAccepts .reliable (.attached (mediumOf (.formatted 512)))
      (deviceSuperblock .reliable (.attached (mediumOf (.formatted 512))) e 0) 512 := by
    rw [hsb]
    exact ⟨by decide, Platform.grants_of_allocates (fun _ _ => rfl) _ _⟩
  have hcontract := h 0 .reliable (.attached (mediumOf (.formatted 512))) 0 512
  rw [beginContract_built ha (beginReads_cooperative reliable_cooperative) hacc, hsb] at hcontract
  exact absurd hcontract.2.1 (by decide)

/-- Of all the blocks of a journal only a superblock passes the check, and `tx_begin` builds a
journal from nothing else that a device delivers. -/
structure SuperblockOnly (blkType : TxdType) (tid : BitVec 32) (rest : Bytes)
    (txdSize : BitVec 32) : Prop where
  check : chkTxdSb (.ofBytes (journalBlock blkType tid rest)) txdSize = txdSuccess →
    blkType = .superBlock
  begin : ∀ E p a e txdAddr j q, p.Head a e →
    (∀ k < sizeofTxdJSuperblock.toNat,
      readPayload E p e (beginParams txdAddr) k = journalBlock blkType tid rest k) →
    (txBegin E txdAddr txdSize).run p = .ok (some j, q) → blkType = .superBlock

/-- The type of a block is never looked at: another one is rejected exactly when its bytes 16 to
19 happen to differ from the size. -/
theorem superblockOnly_iff (blkType : TxdType) (tid : BitVec 32) (rest : Bytes)
    (txdSize : BitVec 32) :
    SuperblockOnly blkType tid rest txdSize ↔
      blkType = .superBlock ∨ load32 rest 16 ≠ txdSize := by
  constructor
  · intro h
    by_cases heq : load32 rest 16 = txdSize
    · exact Or.inl (h.check (chkTxdSb_journalBlock.mpr heq))
    · exact Or.inr heq
  · intro h
    rcases h with htype | hne
    · exact ⟨fun _ => htype, fun _ _ _ _ _ _ _ _ _ _ => htype⟩
    · refine ⟨fun hchk => absurd (chkTxdSb_journalBlock.mp hchk) hne, ?_⟩
      intro E p a e txdAddr j q ha hblock hrun
      have hchk := (txBegin_some ha hrun).2.1
      have hsb : deviceSuperblock E p e txdAddr = .ofBytes (journalBlock blkType tid rest) :=
        TxdJSuperblock.ofBytes_congr fun k hk => hblock k (Nat.lt_trans hk (by decide))
      rw [hsb] at hchk
      exact absurd (chkTxdSb_journalBlock.mp hchk) hne

/-- A transaction that is committed at second 1500000000 leaves a superblock of an area of that
size. -/
theorem superblockOnly_commit :
    ¬∀ (blkType : TxdType) (tid : BitVec 32) (rest : Bytes) (txdSize : BitVec 32),
      SuperblockOnly blkType tid rest txdSize := by
  intro h
  have honly := h .commitBlock 7 (commitFields (fun _ => 0) 1500000000 0) 1500000000
  exact absurd (honly.check (chkTxdSb_commitBlock.mpr rfl)) (by decide)

/-- A write and a read return, and their results tell whether the next command succeeds. A failed
read leaves the caller's buffer alone, and `tx_begin` takes its failure exit after one. -/
structure IoReflects (E : Platform) (p : Process) (params : TxdParams) (txdAddr : BitVec 64)
    (txdSize : BitVec 32) : Prop where
  write : ∃ rc q, (spdkWrite E params).run p = .ok (rc, q) ∧
    (rc = txdSuccess ↔ (E.completion p.commands).status = 0) ∧
      (rc = txdFail ↔ (E.completion p.commands).status ≠ 0)
  read : ∃ rc buf q, (spdkRead E params).run p = .ok ((rc, buf), q) ∧
    (rc = txdSuccess ↔ (E.completion p.commands).status = 0) ∧
      (rc = txdFail ↔ (E.completion p.commands).status ≠ 0) ∧
      ((E.completion p.commands).status ≠ 0 → buf = params.buf)
  begin : Submitted E p (beginParams txdAddr).bytes →
    ∃ rc bytes q, (spdkRead E (beginParams txdAddr)).run p = .ok ((rc, bytes), q) ∧
      ((E.completion p.commands).status ≠ 0 → ∀ recover buf,
        (beginRead recover E buf txdAddr txdSize).run p = (beginOut2 E buf).run q)

/-- Results reflect the device exactly for the commands that succeed. -/
theorem ioReflects_iff {E : Platform} {p : Process} {params : TxdParams} {txdAddr : BitVec 64}
    {txdSize : BitVec 32} (hs : Submitted E p params.bytes) :
    IoReflects E p params txdAddr txdSize ↔ (E.completion p.commands).status = 0 := by
  obtain ⟨a, e, ha⟩ := hs.head
  have hwrite := spdkWrite_submitted params ha hs.buffer (hs.accepts ha)
  have hread := spdkRead_submitted params ha hs.buffer (hs.accepts ha)
  constructor
  · intro h
    obtain ⟨rc, q, hrun, hrc, _⟩ := h.write
    rw [hwrite] at hrun
    cases hrun
    exact hrc.mp rfl
  · intro hok
    have hsuccess : txdSuccess = txdSuccess ↔ (E.completion p.commands).status = 0 :=
      iff_of_true rfl hok
    have hfail : txdSuccess = txdFail ↔ (E.completion p.commands).status ≠ 0 :=
      iff_of_false (by decide) (not_not_intro hok)
    refine ⟨⟨_, _, hwrite, hsuccess, hfail⟩, ⟨_, _, _, hread, hsuccess, hfail, ?_⟩, ?_⟩
    · intro hstatus
      exact absurd hok hstatus
    · intro hb
      refine ⟨_, _, _, spdkRead_submitted (beginParams txdAddr) ha hb.buffer (hb.accepts ha), ?_⟩
      intro hstatus
      exact absurd hok hstatus

theorem ioReflects_reliable :
    IoReflects .reliable (.attached fun _ _ _ => 0) (beginParams 0) 0 1024 := by
  obtain ⟨a, e, ha, _⟩ := attached_head fun _ _ _ => 0
  exact (ioReflects_iff ⟨⟨a, e, ha⟩, rfl, rfl⟩).mpr rfl

/-- A write that fails with status 1 is reported as a success. -/
theorem ioReflects_lost :
    ¬∀ (E : Platform) (p : Process) (params : TxdParams) (txdAddr : BitVec 64)
        (txdSize : BitVec 32), Submitted E p params.bytes →
      IoReflects E p params txdAddr txdSize := by
  intro h
  let E : Platform :=
    { Platform.reliable with completion := fun _ => ⟨0, 1, fun _ => 0, fun _ _ => 0⟩ }
  obtain ⟨a, e, ha, _⟩ := attached_head fun _ _ _ => 0
  have hreflects := h E (.attached fun _ _ _ => 0) (beginParams 0) 0 1024 ⟨⟨a, e, ha⟩, rfl, rfl⟩
  obtain ⟨rc, q, hrun, hrc, _⟩ := hreflects.write
  rw [spdkWrite_submitted (E := E) (beginParams 0) ha rfl rfl] at hrun
  cases hrun
  exact absurd (hrc.mp rfl) (by decide)

end TxDriver
