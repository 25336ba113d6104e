import TxDriver.Driver.Lifecycle

/-!
# The media over a run

No call of the interface writes to a device, whatever the platform does. What `tx_begin` finds is
what was there before the process started.
-/

namespace TxDriver

inductive Result where
  | formatted (err : Int)
  | began (journal : Option TxdJournal)

def Call.perform (E : Platform) : Call → Driver Result
  | .format txdAddr txdSize => do
    let err ← txFormat E txdAddr txdSize
    pure (.formatted err)
  | .begin txdAddr txdSize => do
    let journal ← txBegin E txdAddr txdSize
    pure (.began journal)

section Media

variable {E : Platform} {p q : Process}

theorem allocBlock_medium (size : BitVec 64) (obj : Obj) :
    Exec.Fixes Process.medium (allocBlock E size obj) := by
  intro p a q h
  by_cases hg : E.allocates p.requests size = true
  · rw [allocBlock_granted obj hg] at h
    cases h
    rfl
  · rw [allocBlock_refused obj hg] at h
    cases h
    rfl

theorem freeBlock_fixes {τ : Type} {f : Process → τ}
    (hf : ∀ p heap, f { p with heap := heap } = f p)
    (a : Addr) : Exec.Fixes f (freeBlock a) := by
  intro p _ q h
  by_cases hlive : p.heap.Live a
  · rw [freeBlock_live hlive] at h
    cases h
    exact hf p _
  · rw [show (freeBlock a).run p = _ from if_neg hlive] at h
    cases h

theorem txdZmallocSpdk_medium (size : BitVec 64) (obj : Obj) :
    Exec.Fixes Process.medium (txdZmallocSpdk E size obj) := by
  rw [txdZmallocSpdk]
  refine .bind (allocBlock_medium size obj) fun r => ?_
  cases r with
  | none => exact .pure
  | some a => exact .bind (.modify fun _ => rfl) fun _ => .pure

theorem txdCalloc_medium (num size : BitVec 64) (obj : Obj) :
    Exec.Fixes Process.medium (txdCalloc E num size obj) :=
  .bind (.modify fun _ => rfl) fun _ => allocBlock_medium _ obj

theorem txdFree_medium (a : Addr) (size : BitVec 64) :
    Exec.Fixes Process.medium (txdFree a size) :=
  .bind (.modify fun _ => rfl) fun _ => freeBlock_fixes (fun _ _ => rfl) a

theorem txdFreeSpdk_medium (a : Addr) (size : BitVec 64) :
    Exec.Fixes Process.medium (txdFreeSpdk a size) :=
  .bind (.modify fun _ => rfl) fun _ => freeBlock_fixes (fun _ _ => rfl) a

theorem cleanup_fixes {τ : Type} {f : Process → τ}
    (hf : ∀ p heap, f { p with heap := heap } = f p) :
    Exec.Fixes f cleanup := by
  intro p _ q h
  by_cases hr : p.Registered
  · obtain ⟨heap, hrun, _⟩ := cleanup_registered hr
    rw [hrun] at h
    cases h
    exact hf p heap
  · obtain ⟨s, hfault, _⟩ := cleanup_fault hr
    rw [hfault] at h
    cases h

theorem cleanup_medium : Exec.Fixes Process.medium cleanup := cleanup_fixes fun _ _ => rfl

theorem spdkNvmeProbe_medium : Exec.Fixes Process.medium (spdkNvmeProbe E) := by
  intro p _ q h
  by_cases hg : E.Attaches p.requests (E.probe p.probes).ctrlrs
  · rw [spdkNvmeProbe_granted hg] at h
    cases h
    rw [(afterProbe_extends p E).rest]
  · obtain ⟨s, hstop, _⟩ := spdkNvmeProbe_stops hg
    rw [hstop] at h
    cases h

theorem spdkInit_medium : Exec.Fixes Process.medium (spdkInit E) := by
  rw [spdkInit]
  refine .bind spdkNvmeProbe_medium fun rc => ?_
  split
  · exact .bind cleanup_medium fun _ => .pure
  · refine .bind .get fun p => ?_
    split
    · exact .bind cleanup_medium fun _ => .pure
    · exact .pure

theorem spdkInit_returns {rc : Int} (h : (spdkInit E).run p = .ok (rc, q)) (hrc : rc ≠ txdFail) :
    q = p.afterProbe E := by
  rw [spdkInit] at h
  obtain ⟨rc', p₁, hprobe, h⟩ := Exec.run_bind_eq_ok.mp h
  by_cases hg : E.Attaches p.requests (E.probe p.probes).ctrlrs
  swap
  · obtain ⟨s, hstop, _⟩ := spdkNvmeProbe_stops hg
    rw [hstop] at hprobe
    cases hprobe
  rw [spdkNvmeProbe_granted hg] at hprobe
  cases hprobe
  -- either way through `cleanup` returns a failure
  have hclean : ∀ {s : Process}, (cleanup >>= fun _ => pure txdFail : Driver Int).run s =
      .ok (rc, q) → False := by
    intro s hs
    obtain ⟨_, _, _, hs⟩ := Exec.run_bind_eq_ok.mp hs
    cases hs
    exact hrc rfl
  split at h
  · exact (hclean h).elim
  · rw [Exec.run_bind_ok _ (Exec.run_get _)] at h
    split at h
    · exact (hclean h).elim
    · cases h
      rfl

theorem loadHead_fixes {τ : Type} {f : Process → τ} : Exec.Fixes f loadHead := by
  intro p _ q h
  by_cases hlive : p.HeadLive
  · obtain ⟨a, e, ha⟩ := hlive
    rw [loadHead_run ha] at h
    cases h
    rfl
  · obtain ⟨s, hfault, _⟩ := loadHead_fault hlive
    rw [hfault] at h
    cases h

theorem spdkAllocQpair_medium : Exec.Fixes Process.medium (spdkAllocQpair E) :=
  .bind loadHead_fixes fun _ => .bind .get fun _ => .bind (.modify fun _ => rfl) fun _ => .pure

theorem spdkFree_medium : Exec.Fixes Process.medium (spdkFree E) :=
  .bind loadHead_fixes fun _ => .bind .get fun _ => .bind (.modify fun _ => rfl) fun _ => .pure

theorem spdkRead_medium (params : TxdParams) :
    Exec.Fixes Process.medium (spdkRead E params) := by
  intro p _ q h
  have hs := spdkRead_submits h
  obtain ⟨a, e, ha⟩ := hs.head
  rw [spdkRead_submitted params ha hs.buffer (hs.accepts ha)] at h
  cases h
  rfl

theorem txdGetJournal_medium (jSb : TxdJSuperblock) :
    Exec.Fixes Process.medium (txdGetJournal E jSb) := by
  intro p _ q h
  by_cases hg : E.Grants p.requests (journalRequests jSb)
  · obtain ⟨r, hrun, heap, requests, released, rfl, _⟩ := txdGetJournal_granted (p := p) hg
    rw [hrun] at h
    cases h
    rfl
  · obtain ⟨r, hrun, heap, requests, released, rfl, _⟩ := txdGetJournal_refused (p := p) hg
    rw [hrun] at h
    cases h
    rfl

theorem txFormat_medium (txdAddr : BitVec 64) (txdSize : BitVec 32) :
    Exec.Fixes Process.medium (txFormat E txdAddr txdSize) := by
  rw [txFormat]
  refine .bind spdkInit_medium fun err => .bind .assert fun _ => ?_
  refine .bind spdkAllocQpair_medium fun err => .bind .assert fun _ => ?_
  refine .bind (txdZmallocSpdk_medium _ _) fun r => ?_
  cases r with
  | none => exact .stop
  | some buf => exact .bind (txdFreeSpdk_medium buf _) fun _ => .pure

theorem beginOut1_medium : Exec.Fixes Process.medium (beginOut1 E) :=
  .bind spdkFree_medium fun _ => .bind .assert fun _ => .bind cleanup_medium fun _ => .pure

theorem beginOut2_medium (buf : Addr) : Exec.Fixes Process.medium (beginOut2 E buf) :=
  .bind (txdFree_medium buf _) fun _ => beginOut1_medium

theorem beginLoad_medium (recover : TxdJournal → Int) (j : TxdJournal) :
    Exec.Fixes Process.medium (beginLoad recover E j) :=
  .bind .get fun _ => .bind (.modify fun _ => rfl) fun _ => .bind .lift fun _ => .pure

theorem txBegin_medium (txdAddr : BitVec 64) (txdSize : BitVec 32) :
    Exec.Fixes Process.medium (txBegin E txdAddr txdSize) := by
  rw [txBegin, txBeginWith]
  refine .bind (txdCalloc_medium _ _ _) fun buf => ?_
  cases buf with
  | none => exact beginOut1_medium
  | some buf =>
    refine .bind (spdkRead_medium _) fun r => ?_
    rcases r with ⟨err, bytes⟩
    dsimp only
    split
    · exact beginOut2_medium buf
    · rw [beginChecked]
      split
      · refine .bind (txdGetJournal_medium _) fun j => ?_
        cases j with
        | none => exact beginOut2_medium buf
        | some j =>
          dsimp only
          split
          · exact beginOut2_medium buf
          · exact beginLoad_medium _ j
      · exact beginOut2_medium buf

theorem Call.perform_medium (c : Call) : Exec.Fixes Process.medium (c.perform E) := by
  cases c with
  | format txdAddr txdSize => exact .bind (txFormat_medium txdAddr txdSize) fun _ => .pure
  | begin txdAddr txdSize => exact .bind (txBegin_medium txdAddr txdSize) fun _ => .pure

variable {cs : List Call} {log : List (Call × Result)}

/-- On every platform and from every state, a run leaves all sectors as they are. -/
theorem traced_medium (h : (Exec.traced (Call.perform E) cs).run p = .ok (log, q)) :
    q.medium = p.medium := by
  have hinv := Exec.traced_invariant (P := fun r => r.medium = p.medium) (Q := fun _ _ => True)
    (fun c _ s r s' hs hrun => ⟨(Call.perform_medium c s r s' hrun).trans hs, trivial⟩) rfl h
  exact hinv.1

end Media

section Superblocks

variable {E : Platform} {p q : Process} {ns : Nat} {medium : Nat → Nat → Sector}
  {txdAddr : BitVec 64} {txdSize : BitVec 32}

/-- The media are those that the process started with, and only `ns` is ever at the head. -/
structure Process.Untouched (p : Process) (medium : Nat → Nat → Sector) (ns : Nat) : Prop where
  medium : p.medium = medium
  head : ∀ a e, p.Head a e → e.ns = ns

theorem Process.HeadDead.untouched (h : p.HeadDead) (hm : p.medium = medium) :
    p.Untouched medium ns :=
  ⟨hm, fun a e ha => absurd ⟨a, e, ha⟩ h.not_headLive⟩

theorem txFormat_untouched (hE : E.Cooperative) (hns : E.frontNs p = some ns) {err : Int}
    (hp : p.medium = medium) (h : (txFormat E txdAddr txdSize).run p = .ok (err, q)) :
    q.Untouched medium ns := by
  obtain ⟨r, a, e, hrun, ha, he, hmedium⟩ := txFormat_cooperative txdAddr txdSize hE hns
  rw [hrun] at h
  cases h
  refine ⟨hmedium.trans hp, ?_⟩
  intro a' e' ha'
  rw [ha.unique ha', he]

theorem beginOut1_headDead {res : Option TxdJournal} (h : (beginOut1 E).run p = .ok (res, q)) :
    q.HeadDead := by
  by_cases hlive : p.HeadLive
  swap
  · obtain ⟨f, hfault, _⟩ := beginOut1_headless (E := E) hlive
    rw [hfault] at h
    cases h
  by_cases hdown : CanTearDown E p
  · obtain ⟨r, hrun, _, hdead, _⟩ := beginOut1_tearsDown hlive hdown
    rw [hrun] at h
    cases h
    exact hdead
  · obtain ⟨s, hstop⟩ := beginOut1_stops hlive hdown
    rw [hstop] at h
    cases h

theorem txBegin_untouched (hE : E.Cooperative) (hp : p.Untouched medium ns)
    {res : Option TxdJournal} (h : (txBegin E txdAddr txdSize).run p = .ok (res, q)) :
    q.Untouched medium ns ∧
      ∀ j, res = some j → j.jSuperblock = superblockAt (medium ns) txdAddr := by
  have hmedium : q.medium = medium := (txBegin_medium txdAddr txdSize p res q h).trans hp.medium
  by_cases hlive : p.HeadLive
  swap
  · obtain ⟨f, hfault, _⟩ := txBegin_headless (E := E) txdJournalRecover txdAddr txdSize hlive
    rw [txBegin, hfault] at h
    cases h
  obtain ⟨a, e, ha⟩ := hlive
  refine ⟨?_, ?_⟩
  · rcases begin_cases txdAddr txdSize ha with hfail | ⟨hbuf, hn⟩ | ⟨hb, hacc⟩
    · obtain ⟨r, _, hrun⟩ := txBegin_fails txdJournalRecover txdAddr txdSize hfail
      rw [txBegin, hrun] at h
      exact (beginOut1_headDead h).untouched hmedium
    · obtain ⟨s, hstop⟩ := txBegin_unread_stops txdJournalRecover txdAddr txdSize ha hbuf hn
      rw [txBegin, hstop] at h
      cases h
    · obtain ⟨n, r, hkeeps, hrun⟩ := txBegin_built txdJournalRecover txdAddr txdSize ha hb hacc
      rw [txBegin, hrun] at h
      have hq : r = q := by
        cases hload : txdJournalLoadWith txdJournalRecover (E.pthreadCreate p.threads)
            (.describedBy n (deviceSuperblock E p e txdAddr)) with
        | error s =>
          rw [hload] at h
          cases h
        | ok res =>
          rw [hload] at h
          cases h
          rfl
      refine ⟨hmedium, fun a' e' ha' => ?_⟩
      rw [← hq] at ha'
      have hkept : r.Head a e := ha.mono hkeeps.namespaces hkeeps.grows
      rw [hkept.unique ha']
      exact hp.head a e ha
  · intro j hj
    rw [hj] at h
    rw [txBegin_superblock hE ha h, hp.medium, hp.head a e ha]

/-- `tx_begin` opens every area that the device has a fresh superblock of. -/
theorem txBegin_opens {a : Addr} {e : NsEntry} (hE : E.Cooperative) (h : p.Head a e)
    (hsb : (superblockAt (p.medium e.ns) txdAddr).Formatted txdSize)
    (hsize : 1024 ≤ txdSize.toNat) :
    ∃ j q, (txBegin E txdAddr txdSize).run p = .ok (some j, q) ∧ j.Opened txdSize := by
  have hdevice : deviceSuperblock E p e txdAddr = superblockAt (p.medium e.ns) txdAddr :=
    deviceSuperblock_completed hE
  have hchk : chkTxdSb (deviceSuperblock E p e txdAddr) txdSize = 0 := by
    rw [hdevice]
    exact chkTxdSb_eq_zero.mpr ⟨hsb.signature, hsb.maxlen⟩
  obtain ⟨n, q, _, hbuilt⟩ := txBegin_built txdJournalRecover txdAddr txdSize h
    (beginReads_cooperative hE) ⟨hchk, Platform.grants_of_allocates hE.allocates _ _⟩
  rw [hdevice] at hbuilt
  have hload : txdJournalLoadWith txdJournalRecover (E.pthreadCreate p.threads)
      (.describedBy n (superblockAt (p.medium e.ns) txdAddr)) =
        .ok (txdSuccess, TxdJournal.afterLoad
          (.describedBy n (superblockAt (p.medium e.ns) txdAddr))) :=
    txdJournalLoadWith_success_iff.mpr
      ⟨⟨rfl, rfl, hsb.longEnough hsize, hE.pthreadCreate p.threads⟩, rfl⟩
  rw [hload] at hbuilt
  refine ⟨_, q, hbuilt, ?_, afterLoad_jFlags_loaded _, ?_, afterLoad_jFlags_abort _⟩
  · rw [afterLoad_jSuperblock]
    exact hsb
  · exact afterLoad_jFlags_flushed hsb.start

def Call.Describes (medium : Nat → Sector) (c : Call) (r : Result) : Prop :=
  ∀ txdAddr txdSize j, c = .begin txdAddr txdSize → r = .began (some j) →
    j.jSuperblock = superblockAt medium txdAddr

end Superblocks

theorem reliable_opens : ∃ j q, (Exec.traced (Call.perform .reliable) [.format 0 1024,
    .begin 0 1024]).run (.start (mediumOf (.formatted 1024))) =
      .ok ([(.format 0 1024, .formatted txdSuccess), (.begin 0 1024, .began (some j))], q) := by
  obtain ⟨p, a, e, hformat, ha, he, hmedium⟩ :=
    txFormat_cooperative (p := .start (mediumOf (.formatted 1024))) 0 1024 reliable_cooperative
      (reliable_front 0)
  have hsb : (superblockAt (p.medium e.ns) 0).Formatted 1024 := by
    rw [hmedium, he]
    change (superblockAt (mediumOf (.formatted 1024) 0) 0).Formatted 1024
    rw [superblockAt_mediumOf]
    exact ⟨rfl, rfl, rfl, rfl, rfl, rfl, rfl, rfl⟩
  obtain ⟨j, q, hbegin, _⟩ := txBegin_opens reliable_cooperative ha hsb (by decide)
  refine ⟨j, q, ?_⟩
  apply Exec.run_seq (show (Call.perform .reliable (.format 0 1024)).run _ = _ from
    Exec.run_seq hformat rfl)
  apply Exec.run_seq (Exec.run_seq (show (Call.perform .reliable (.begin 0 1024)).run p = _ from
    Exec.run_seq hbegin rfl) rfl)
  rfl

theorem traced_medium_formatted :
    ∃ log q, (Exec.traced (Call.perform .reliable) [.format 0 1024, .begin 0 1024]).run
      (.start (mediumOf (.formatted 1024))) = .ok (log, q) ∧
        q.medium = mediumOf (.formatted 1024) := by
  obtain ⟨j, q, hrun⟩ := reliable_opens
  exact ⟨_, q, hrun, traced_medium hrun⟩

end TxDriver
