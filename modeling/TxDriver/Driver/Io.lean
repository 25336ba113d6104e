import TxDriver.Driver.Probe

/-!
# Reads and writes

`spdk_write` and `spdk_read`: a command is submitted from a DMA buffer on the head of the
namespace registry and polled for until its callback has run. The callbacks free the buffer, and
that of a read copies it to the caller first; neither looks at the completion.
-/

namespace TxDriver

/-- `TXD_PARAMS`; the caller's buffer is given by its bytes. -/
structure TxdParams where
  buf : Bytes
  bufSize : BitVec 32
  bufAlign : BitVec 32
  lba : BitVec 64
  lbaCount : BitVec 32

def TxdParams.bytes (params : TxdParams) : BitVec 64 := params.bufSize.signExtend 64

theorem lbaUnit_pos : 0 < lbaUnit := by decide

/-- What a read of `count` sectors leaves in a zeroed buffer. -/
def readSectors (medium : Nat → Sector) (lba count : Nat) : Bytes := fun k =>
  if k < lbaUnit * count then medium (lba + k / lbaUnit) ⟨k % lbaUnit, Nat.mod_lt k lbaUnit_pos⟩
  else 0

def sectorsOf (m : Bytes) (i : Nat) : Sector := fun k => m (lbaUnit * i + k)

def writeSectors (medium : Nat → Nat → Sector) (ns lba count : Nat) (sectors : Nat → Sector) :
    Nat → Nat → Sector := fun id l =>
  if id = ns ∧ lba ≤ l ∧ l < lba + count then sectors (l - lba) else medium id l

theorem readSectors_writeSectors (medium : Nat → Nat → Sector) (ns lba : Nat) {n count : Nat}
    (m : Bytes) (h : n ≤ count) (k : Nat) :
    readSectors (writeSectors medium ns lba count (sectorsOf m) ns) lba n k =
      if k < lbaUnit * n then m k else 0 := by
  by_cases hk : k < lbaUnit * n
  · have hin : lba + k / lbaUnit < lba + count :=
      Nat.add_lt_add_left ((Nat.div_lt_of_lt_mul hk).trans_le h) lba
    rw [readSectors, if_pos hk, if_pos hk, writeSectors, if_pos ⟨rfl, Nat.le_add_right _ _, hin⟩,
      Nat.add_sub_cancel_left, sectorsOf, Nat.div_add_mod]
  · rw [readSectors, if_neg hk, if_neg hk]

/-- `spdk_nvme_ns_cmd_read` and `spdk_nvme_ns_cmd_write`, with the driver's check of the result. -/
def submit (E : Platform) (qpair : Option Nat) : Driver Completion := do
  let p ← Exec.get
  Exec.modify fun p => { p with commands := p.commands + 1 }
  if E.accepts p.commands qpair then pure (E.completion p.commands) else Exec.stop (.exit 1)

/-- `while (!sequence.is_completed) spdk_nvme_qpair_process_completions(…)`, where `complete` is
delivered after `polls` polls; each of them reads the queue pair from the entry. -/
def pollUntilCompleted {α : Type} (entry : Addr) (complete : Driver α) : Nat → Driver α
  | 0 => do
    let _ ← loadNsEntry entry
    complete
  | polls + 1 => do
    let _ ← loadNsEntry entry
    pollUntilCompleted entry complete polls

def writeComplete (buf : Addr) : Driver Unit := freeBlock buf

/-- `read_complete`: the caller's buffer after it, when the DMA buffer holds `payload`. -/
def readComplete (buf : Option Addr) (payload bufUser : Bytes) (bufSize : BitVec 64) :
    Driver Bytes :=
  match buf with
  | none => Exec.stop (.fault .nullBuffer)
  | some a => do
    freeBlock a
    pure (memcpy bufUser payload bufSize.toNat)

/-- The end of a write: what the device does to its sectors, and the callback. -/
def deliverWrite (c : Completion) (buf : Addr) (ns : Nat) (params : TxdParams) (payload : Bytes) :
    Driver Unit := do
  let sectors := if c.status = 0 then sectorsOf payload else c.torn
  Exec.modify fun p =>
    { p with medium := writeSectors p.medium ns params.lba.toNat params.lbaCount.toNat sectors }
  writeComplete buf

/-- The end of a read: what the device does to the DMA buffer, and the callback. -/
def deliverRead (c : Completion) (buf : Option Addr) (ns : Nat) (params : TxdParams) :
    Driver Bytes := do
  let p ← Exec.get
  let sectors := readSectors (p.medium ns) params.lba.toNat params.lbaCount.toNat
  readComplete buf (if c.status = 0 then sectors else c.residue) params.buf params.bytes

def spdkWrite (E : Platform) (params : TxdParams) : Driver Int := do
  match ← allocBlock E params.bytes .buffer with
  | none => Exec.stop (.fault .nullBuffer)
  | some buf => do
    let (a, e) ← loadHead
    let p ← Exec.get
    let payload := memcpy (E.beyond p.commands) params.buf params.bytes.toNat
    let c ← submit E e.qpair
    pollUntilCompleted a (deliverWrite c buf e.ns params payload) c.polls
    pure txdSuccess

/-- `spdk_read`, with the contents of the caller's buffer afterwards. -/
def spdkRead (E : Platform) (params : TxdParams) : Driver (Int × Bytes) := do
  let buf ← allocBlock E params.bytes .buffer
  let (a, e) ← loadHead
  let c ← submit E e.qpair
  let bufUser ← pollUntilCompleted a (deliverRead c buf e.ns params) c.polls
  pure (txdSuccess, bufUser)

section Commands

variable {E : Platform} {p : Process} {a : Addr} {e : NsEntry}

theorem pollUntilCompleted_run {α : Type} (complete : Driver α) (polls : Nat)
    (h : p.Head a e) : (pollUntilCompleted a complete polls).run p = complete.run p := by
  obtain ⟨_, n, hc⟩ := h
  have hload : (loadNsEntry a).run p = .ok (e, p) := by
    simp only [loadNsEntry, Exec.run, hc]
  induction polls with
  | zero => rw [pollUntilCompleted, Exec.run_bind_ok _ hload]
  | succ polls ih => rw [pollUntilCompleted, Exec.run_bind_ok _ hload, ih]

/-- A command of `size` bytes gets its buffer, finds its namespace and is accepted. -/
structure Submitted (E : Platform) (p : Process) (size : BitVec 64) : Prop where
  head : p.HeadLive
  buffer : E.allocates p.requests size = true
  accepted : E.accepts p.commands p.headQpair = true

theorem Submitted.accepts {size : BitVec 64} (hs : Submitted E p size) (h : p.Head a e) :
    E.accepts p.commands e.qpair = true := by
  rw [← h.headQpair]
  exact hs.accepted

/-- The bytes that the next command delivers into its buffer when it is a read. -/
def readPayload (E : Platform) (p : Process) (e : NsEntry) (params : TxdParams) : Bytes :=
  if (E.completion p.commands).status = 0 then
    readSectors (p.medium e.ns) params.lba.toNat params.lbaCount.toNat
  else (E.completion p.commands).residue

def Process.inFlight (p : Process) (size : BitVec 64) : Process :=
  { p.grant size .buffer with commands := p.commands + 1 }

/-- The process after the next command, when it leaves the media alone. -/
def Process.afterCommand (p : Process) (size : BitVec 64) : Process :=
  { p.inFlight size with heap := (p.heap.alloc size.toNat .buffer).free p.heap.next }

theorem afterCommand_adds (p : Process) (size : BitVec 64) :
    p.heap.Adds (p.afterCommand size).heap [] := by
  have hadds := (Heap.Adds.refl p.heap).alloc size.toNat Obj.buffer
  have hfree := hadds.free (List.mem_cons_self ..)
  rwa [List.erase_cons_head] at hfree

theorem Process.Head.grant (h : p.Head a e) (size : BitVec 64) (obj : Obj) :
    (p.grant size obj).Head a e :=
  h.mono rfl (Heap.grows_alloc _ _ _)

theorem headLive_of_grant (size : BitVec 64) (h : (p.grant size .buffer).HeadLive) :
    p.HeadLive := by
  obtain ⟨a, e, hg, n, hc⟩ := h
  refine ⟨a, e, hg, n, ?_⟩
  change (p.heap.alloc _ _).cells a = _ at hc
  by_cases ha : a = p.heap.next
  · subst ha
    rw [Heap.cells_alloc_self] at hc
    cases hc
  · rwa [Heap.cells_alloc_of_ne _ _ ha] at hc

theorem submit_accepted {qpair : Option Nat} (h : E.accepts p.commands qpair = true) :
    (submit E qpair).run p =
      .ok (E.completion p.commands, { p with commands := p.commands + 1 }) := by
  rw [submit]
  apply Exec.run_seq (Exec.run_get p)
  apply Exec.run_seq (Exec.run_modify _ _)
  rw [if_pos h]
  rfl

theorem submit_rejected {qpair : Option Nat} (h : ¬E.accepts p.commands qpair = true) :
    (submit E qpair).run p = .error (.exit 1) := by
  rw [submit]
  apply Exec.run_seq (Exec.run_get p)
  apply Exec.run_seq (Exec.run_modify _ _)
  rw [if_neg h]
  rfl

theorem inFlight_live (p : Process) (size : BitVec 64) :
    (p.inFlight size).heap.Live p.heap.next := by
  rw [Heap.Live]
  change ((p.heap.alloc size.toNat Obj.buffer).cells p.heap.next).isSome
  rw [Heap.cells_alloc_self]
  rfl

theorem submit_inFlight {qpair : Option Nat} (size : BitVec 64)
    (h : E.accepts p.commands qpair = true) :
    (submit E qpair).run (p.grant size .buffer) = .ok (E.completion p.commands, p.inFlight size) :=
  submit_accepted (p := p.grant size .buffer) h

/-- A read returns success with whatever its buffer held, however the command ended. -/
theorem spdkRead_submitted (params : TxdParams) (h : p.Head a e)
    (hg : E.allocates p.requests params.bytes = true) (hacc : E.accepts p.commands e.qpair = true) :
    (spdkRead E params).run p =
      .ok ((txdSuccess, memcpy params.buf (readPayload E p e params) params.bytes.toNat),
        p.afterCommand params.bytes) := by
  have hhead : (p.inFlight params.bytes).Head a e := h.grant params.bytes .buffer
  have hfree : (freeBlock p.heap.next).run (p.inFlight params.bytes) =
      .ok ((), p.afterCommand params.bytes) := freeBlock_live (inFlight_live p params.bytes)
  have hcomplete : (deliverRead (E.completion p.commands) (some p.heap.next) e.ns params).run
      (p.inFlight params.bytes) =
        .ok (memcpy params.buf (readPayload E p e params) params.bytes.toNat,
          p.afterCommand params.bytes) := by
    rw [deliverRead]
    apply Exec.run_seq (Exec.run_get _)
    rw [readComplete]
    apply Exec.run_seq hfree
    rfl
  rw [spdkRead]
  apply Exec.run_seq (allocBlock_granted _ hg)
  apply Exec.run_seq (loadHead_run (h.grant params.bytes .buffer))
  apply Exec.run_seq (submit_inFlight params.bytes hacc)
  apply Exec.run_seq ((pollUntilCompleted_run _ _ hhead).trans hcomplete)
  rfl

def writtenMedium (E : Platform) (p : Process) (e : NsEntry) (params : TxdParams) :
    Nat → Nat → Sector :=
  writeSectors p.medium e.ns params.lba.toNat params.lbaCount.toNat
    (if (E.completion p.commands).status = 0 then
      sectorsOf (memcpy (E.beyond p.commands) params.buf params.bytes.toNat)
    else (E.completion p.commands).torn)

theorem spdkWrite_submitted (params : TxdParams) (h : p.Head a e)
    (hg : E.allocates p.requests params.bytes = true) (hacc : E.accepts p.commands e.qpair = true) :
    (spdkWrite E params).run p =
      .ok (txdSuccess, { p.afterCommand params.bytes with
        medium := writtenMedium E p e params }) := by
  have hhead : (p.inFlight params.bytes).Head a e := h.grant params.bytes .buffer
  have hcomplete : (deliverWrite (E.completion p.commands) p.heap.next e.ns params
      (memcpy (E.beyond p.commands) params.buf params.bytes.toNat)).run (p.inFlight params.bytes) =
        .ok ((), { p.afterCommand params.bytes with medium := writtenMedium E p e params }) := by
    rw [deliverWrite]
    apply Exec.run_seq (Exec.run_modify _ _)
    exact freeBlock_live (inFlight_live p params.bytes)
  rw [spdkWrite]
  apply Exec.run_seq (allocBlock_granted _ hg)
  apply Exec.run_seq (loadHead_run (h.grant params.bytes .buffer))
  apply Exec.run_seq (Exec.run_get _)
  apply Exec.run_seq (submit_inFlight params.bytes hacc)
  apply Exec.run_seq ((pollUntilCompleted_run _ _ hhead).trans hcomplete)
  rfl

theorem spdkRead_fault (params : TxdParams) (h : ¬p.HeadLive) :
    ∃ f, (spdkRead E params).run p = .error (.fault f) ∧ f.OfRegistry := by
  rw [spdkRead]
  by_cases hg : E.allocates p.requests params.bytes = true
  · have hdead : ¬(p.grant params.bytes .buffer).HeadLive := mt (headLive_of_grant _) h
    obtain ⟨f, hfault, hf⟩ := loadHead_fault hdead
    exact ⟨f, Exec.run_seq (allocBlock_granted _ hg) (Exec.run_bind_error _ hfault), hf⟩
  · have hdead : ¬p.refuse.HeadLive := h
    obtain ⟨f, hfault, hf⟩ := loadHead_fault hdead
    exact ⟨f, Exec.run_seq (allocBlock_refused _ hg) (Exec.run_bind_error _ hfault), hf⟩

theorem spdkRead_stops (params : TxdParams) (h : p.Head a e)
    (hn : ¬(E.allocates p.requests params.bytes = true ∧
      E.accepts p.commands e.qpair = true)) :
    (spdkRead E params).run p = .error (.exit 1) ∨
      (spdkRead E params).run p = .error (.fault .nullBuffer) := by
  rw [spdkRead]
  by_cases hg : E.allocates p.requests params.bytes = true
  · have hacc : ¬E.accepts p.commands e.qpair = true := fun hacc => hn ⟨hg, hacc⟩
    left
    apply Exec.run_seq (allocBlock_granted _ hg)
    apply Exec.run_seq (loadHead_run (h.grant params.bytes .buffer))
    exact Exec.run_bind_error _ (submit_rejected (p := p.grant params.bytes .buffer) hacc)
  · have hhead : p.refuse.Head a e := h.mono rfl (.refl _)
    by_cases hacc : E.accepts p.commands e.qpair = true
    · right
      have hhead' : Process.Head { p.refuse with commands := p.commands + 1 } a e := hhead
      apply Exec.run_seq (allocBlock_refused _ hg)
      apply Exec.run_seq (loadHead_run hhead)
      apply Exec.run_seq (submit_accepted (p := p.refuse) hacc)
      apply Exec.run_bind_error
      exact (pollUntilCompleted_run _ _ hhead').trans rfl
    · left
      apply Exec.run_seq (allocBlock_refused _ hg)
      apply Exec.run_seq (loadHead_run hhead)
      exact Exec.run_bind_error _ (submit_rejected (p := p.refuse) hacc)

theorem spdkWrite_submits {params : TxdParams} {rc : Int} {q : Process}
    (h : (spdkWrite E params).run p = .ok (rc, q)) : Submitted E p params.bytes := by
  rw [spdkWrite] at h
  by_cases hg : E.allocates p.requests params.bytes = true
  swap
  · rw [Exec.run_bind_ok _ (allocBlock_refused _ hg)] at h
    cases h
  rw [Exec.run_bind_ok _ (allocBlock_granted _ hg)] at h
  by_cases hlive : p.HeadLive
  swap
  · have hdead : ¬(p.grant params.bytes .buffer).HeadLive := mt (headLive_of_grant _) hlive
    obtain ⟨f, hfault, _⟩ := loadHead_fault hdead
    rw [Exec.run_bind_error _ hfault] at h
    cases h
  refine ⟨hlive, hg, ?_⟩
  by_contra hacc
  obtain ⟨a, e, ha⟩ := hlive
  rw [ha.headQpair] at hacc
  rw [Exec.run_bind_ok _ (loadHead_run (ha.grant params.bytes .buffer)),
    Exec.run_bind_ok _ (Exec.run_get _),
    Exec.run_bind_error _ (submit_rejected (p := p.grant params.bytes .buffer) hacc)] at h
  cases h

theorem spdkRead_submits {params : TxdParams} {res : Int × Bytes} {q : Process}
    (h : (spdkRead E params).run p = .ok (res, q)) : Submitted E p params.bytes := by
  by_cases hlive : p.HeadLive
  swap
  · obtain ⟨f, hfault, _⟩ := spdkRead_fault (E := E) params hlive
    rw [hfault] at h
    cases h
  obtain ⟨a, e, ha⟩ := hlive
  by_contra hn
  have hn' : ¬(E.allocates p.requests params.bytes = true ∧
      E.accepts p.commands e.qpair = true) := by
    rw [← ha.headQpair]
    exact fun hgranted => hn ⟨⟨a, e, ha⟩, hgranted.1, hgranted.2⟩
  rcases spdkRead_stops params ha hn' with hstop | hstop
  · rw [hstop] at h
    cases h
  · rw [hstop] at h
    cases h

end Commands

end TxDriver
