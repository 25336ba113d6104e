import TxDriver.Driver.Contracts

/-!
# The first generation of the interface

`tx_format` and `tx_begin` of `txdriver_api.c`, with the requests that they build from the address
and the size of an area. Below them `txdriver_spdk.c` differs from `txd_spdk.c` in its options and
messages only, so the same model serves both.
-/

namespace TxDriver

/-- Both ends of the request lie within the bytes of the area. -/
structure TxdParams.InArea (params : TxdParams) (txdAddr : BitVec 64) (txdSize : BitVec 32) :
    Prop where
  start : txdAddr.toNat ≤ params.lba.toNat * lbaUnit
  finish : (params.lba.toNat + params.lbaCount.toNat) * lbaUnit ≤ txdAddr.toNat + txdSize.toNat

/-- The request reads or writes at least one sector, and neither it nor its copy runs out of the
buffers, of which the caller's has `userBytes` bytes. -/
structure TxdParams.Fits (params : TxdParams) (userBytes : Nat) : Prop where
  user : params.bytes.toNat ≤ userBytes
  sector : lbaUnit ≤ params.lbaCount.toNat * lbaUnit
  dma : params.lbaCount.toNat * lbaUnit ≤ params.bytes.toNat

theorem TxdParams.not_fits {params : TxdParams} {userBytes : Nat}
    (h : params.bytes = sizeofTxdJSuperblock) : ¬params.Fits userBytes := by
  intro hfits
  have hsector := hfits.sector.trans hfits.dma
  rw [h] at hsector
  exact absurd hsector (by decide)

namespace Legacy

/-- The size of the buffer of `tx_format`, a product of 32-bit values. -/
def formatBufSize (txdSize : BitVec 32) : BitVec 64 :=
  (txdSize * BitVec.ofNat 32 lbaUnit).setWidth 64

def formatParams (txdAddr : BitVec 64) (txdSize : BitVec 32) : TxdParams where
  buf := (TxdJSuperblock.formatted txdSize).store fun _ => 0
  bufSize := sizeofTxdJSuperblock.setWidth 32
  bufAlign := clSize
  lba := txdAddr / BitVec.ofNat 64 lbaUnit
  lbaCount := txdSize / BitVec.ofNat 32 lbaUnit

def beginParams (txdAddr : BitVec 64) : TxdParams where
  buf _ := 0
  bufSize := sizeofTxdJSuperblock.setWidth 32
  bufAlign := clSize
  lba := txdAddr
  lbaCount := 1

/-- `do_format`, without its messages. -/
def doFormat (E : Platform) (params : TxdParams) : Driver Int := spdkWrite E params

/-- `tx_format`. The superblock is written to the buffer whether or not it fits. -/
def txFormat (E : Platform) (txdAddr : BitVec 64) (txdSize : BitVec 32) : Driver Int := do
  let err ← spdkInit E
  Exec.assert (err ≠ txdFail)
  let err ← spdkAllocQpair E
  Exec.assert (err ≠ txdFail)
  match ← allocBlock E (formatBufSize txdSize) .buffer with
  | none => Exec.stop .assertion
  | some buf =>
    if formatBufSize txdSize < sizeofTxdJSuperblock then Exec.stop (.fault (.overrun buf))
    else doFormat E (formatParams txdAddr txdSize)

/-- `tx_begin` up to the superblock that it checks. The buffer is used without a test. -/
def beginSuperblock (E : Platform) (txdAddr : BitVec 64) : Driver TxdJSuperblock := do
  match ← allocBlock E (1 * sizeofTxdJSuperblock) .buffer with
  | none => do
    let _ ← spdkRead E (beginParams txdAddr)
    Exec.stop (.fault .nullBuffer)
  | some _ => do
    let (err, bytes) ← spdkRead E (beginParams txdAddr)
    Exec.assert (err ≠ txdFail)
    pure (.ofBytes bytes)

/-- The format and both versions of `tx_begin` put the superblock into the same sector, and no
request leaves the area. -/
structure SameSectors (txdAddr : BitVec 64) (txdSize : BitVec 32) : Prop where
  begin : (beginParams txdAddr).lba = (formatParams txdAddr txdSize).lba
  currentBegin : (TxDriver.beginParams txdAddr).lba = (formatParams txdAddr txdSize).lba
  inside : ∀ params ∈ [formatParams txdAddr txdSize, beginParams txdAddr,
    TxDriver.beginParams txdAddr], params.InArea txdAddr txdSize

section Sectors

variable {txdAddr : BitVec 64} {txdSize : BitVec 32}

theorem formatParams_lba (txdAddr : BitVec 64) (txdSize : BitVec 32) :
    (formatParams txdAddr txdSize).lba.toNat = txdAddr.toNat / lbaUnit := BitVec.toNat_udiv

theorem formatParams_lbaCount (txdAddr : BitVec 64) (txdSize : BitVec 32) :
    (formatParams txdAddr txdSize).lbaCount.toNat = txdSize.toNat / lbaUnit := BitVec.toNat_udiv

theorem formatParams_inArea (haddr : lbaUnit ∣ txdAddr.toNat) :
    (formatParams txdAddr txdSize).InArea txdAddr txdSize := by
  have hlba : txdAddr.toNat / lbaUnit * lbaUnit = txdAddr.toNat := Nat.div_mul_cancel haddr
  constructor
  · rw [formatParams_lba, hlba]
  · rw [formatParams_lba, formatParams_lbaCount, Nat.add_mul, hlba]
    exact Nat.add_le_add_left (Nat.div_mul_le_self _ _) _

theorem eq_formatParams_lba_iff :
    txdAddr = (formatParams txdAddr txdSize).lba ↔ txdAddr = 0 := by
  rw [← BitVec.toNat_inj, formatParams_lba, ← BitVec.toNat_inj]
  change _ = _ / 512 ↔ _ = 0
  omega

theorem sameSectors_iff (haddr : lbaUnit ∣ txdAddr.toNat) (hsize : lbaUnit ≤ txdSize.toNat) :
    SameSectors txdAddr txdSize ↔ txdAddr = 0 := by
  constructor
  · intro h
    exact eq_formatParams_lba_iff.mp h.begin
  · intro hzero
    have hlba : txdAddr = (formatParams txdAddr txdSize).lba := eq_formatParams_lba_iff.mpr hzero
    have hread : (beginParams txdAddr).InArea txdAddr txdSize := by
      subst hzero
      refine ⟨Nat.le_refl _, ?_⟩
      change (0 + 1) * lbaUnit ≤ 0 + txdSize.toNat
      omega
    refine ⟨hlba, hlba, ?_⟩
    intro params hm
    simp only [List.mem_cons, List.not_mem_nil, or_false] at hm
    rcases hm with rfl | rfl | rfl
    · exact formatParams_inArea haddr
    · exact hread
    · exact hread

theorem sameSectors_zero : SameSectors 0 1024 :=
  (sameSectors_iff (by decide) (by decide)).mpr rfl

/-- An area that starts at the second sector is formatted there and read from sector 512. -/
theorem sameSectors_second :
    ¬∀ (txdAddr : BitVec 64) (txdSize : BitVec 32), lbaUnit ∣ txdAddr.toNat →
      lbaUnit ≤ txdSize.toNat → SameSectors txdAddr txdSize := by
  intro h
  have hsame := h 512 1024 (by decide) (by decide)
  exact absurd (eq_formatParams_lba_iff.mp hsame.begin) (by decide)

end Sectors

/-- The requests of `tx_format` and of both versions of `tx_begin`, each with the size of the
buffer that is allocated for it. -/
def requests (txdAddr : BitVec 64) (txdSize : BitVec 32) : List (TxdParams × Nat) :=
  [(formatParams txdAddr txdSize, (formatBufSize txdSize).toNat),
    (beginParams txdAddr, (1 * sizeofTxdJSuperblock).toNat),
    (TxDriver.beginParams txdAddr, (1 * sizeofTxdJSuperblock).toNat)]

def RequestsFit (txdAddr : BitVec 64) (txdSize : BitVec 32) : Prop :=
  ∀ r ∈ requests txdAddr txdSize, r.1.Fits r.2

section Lengths

variable {txdAddr : BitVec 64} {txdSize : BitVec 32}

theorem requests_bytes {r : TxdParams × Nat} (hr : r ∈ requests txdAddr txdSize) :
    r.1.bytes = sizeofTxdJSuperblock := by
  simp only [requests, List.mem_cons, List.not_mem_nil, or_false] at hr
  rcases hr with rfl | rfl | rfl <;> rfl

/-- Each size of an area breaks one of the lengths of its format: the buffer has room for the
superblock unless the product wraps to zero, and a request of a sector or more does not fit into
the superblock's 64 bytes. -/
theorem formatParams_lengths (txdAddr : BitVec 64) (txdSize : BitVec 32) :
    let params := formatParams txdAddr txdSize
    (params.bytes.toNat ≤ (formatBufSize txdSize).toNat ↔ ¬2 ^ 23 ∣ txdSize.toNat) ∧
      (lbaUnit ≤ params.lbaCount.toNat * lbaUnit ↔ lbaUnit ≤ txdSize.toNat) ∧
      (params.lbaCount.toNat * lbaUnit ≤ params.bytes.toNat ↔ txdSize.toNat < lbaUnit) := by
  intro params
  have hlt := txdSize.isLt
  have hcount : params.lbaCount.toNat = txdSize.toNat / lbaUnit := formatParams_lbaCount _ _
  have hbytes : params.bytes.toNat = 64 := rfl
  rw [hcount, hbytes, formatBufSize, toNat_widened, BitVec.toNat_mul]
  change (64 ≤ txdSize.toNat * 512 % 2 ^ 32 ↔ _) ∧ (512 ≤ _ / 512 * 512 ↔ 512 ≤ _) ∧
    (_ / 512 * 512 ≤ _ ↔ _ < 512)
  omega

/-- No request fits, whatever the address and the size of the area. -/
theorem requests_unfit (txdAddr : BitVec 64) (txdSize : BitVec 32) :
    ¬RequestsFit txdAddr txdSize ∧
      ∀ r ∈ requests txdAddr txdSize, ¬r.1.Fits r.2 := by
  have hnone (r : TxdParams × Nat) (hr : r ∈ requests txdAddr txdSize) : ¬r.1.Fits r.2 :=
    TxdParams.not_fits (requests_bytes hr)
  refine ⟨?_, hnone⟩
  intro hfit
  have hhead : (formatParams txdAddr txdSize, (formatBufSize txdSize).toNat) ∈
      requests txdAddr txdSize := List.mem_cons_self ..
  exact hnone _ hhead (hfit _ hhead)

theorem requestsFit_1024 :
    ¬∀ (txdAddr : BitVec 64) (txdSize : BitVec 32), RequestsFit txdAddr txdSize := by
  intro h
  have hbegin := h 0 1024 (beginParams 0, (1 * sizeofTxdJSuperblock).toNat) (by simp [requests])
  exact absurd hbegin.dma (by decide)

end Lengths

section Commands

variable {E : Platform} {p q : Process} {a : Addr} {e : NsEntry} {ns : Nat}
  {txdAddr : BitVec 64} {txdSize : BitVec 32}

theorem superblockAt_written (hE : E.Cooperative) (params : TxdParams)
    (hcount : 0 < params.lbaCount.toNat) (hbytes : 36 ≤ params.bytes.toNat) :
    superblockAt (writtenMedium E p e params e.ns) params.lba = .ofBytes params.buf := by
  apply TxdJSuperblock.ofBytes_congr
  intro k hk
  have hin : k < lbaUnit * 1 := Nat.lt_trans hk (by decide)
  rw [writtenMedium, if_pos (hE.completes _), readSectors_writeSectors _ _ _ _ hcount, if_pos hin,
    memcpy, if_pos (Nat.lt_of_lt_of_le hk hbytes)]

theorem txFormat_writes (txdAddr : BitVec 64) (hE : E.Cooperative) (hns : E.frontNs p = some ns)
    (hsize : lbaUnit ≤ txdSize.toNat) (hfits : sizeofTxdJSuperblock ≤ formatBufSize txdSize) :
    ∃ q a e, (txFormat E txdAddr txdSize).run p = .ok (txdSuccess, q) ∧ q.Head a e ∧ e.ns = ns ∧
      superblockAt (q.medium ns) (formatParams txdAddr txdSize).lba = .formatted txdSize := by
  obtain ⟨q, a, e, hinit, ha, rfl, _⟩ := spdkInit_cooperative hE hns
  let q₁ := q.setQpair a e (some q.qpairs)
  let q₂ := q₁.grant (formatBufSize txdSize) .buffer
  let params := formatParams txdAddr txdSize
  have halloc := spdkAllocQpair_run (E := E) ha
  rw [if_pos (hE.allocsQpair _), if_pos (hE.allocsQpair _)] at halloc
  have hhead : q₂.Head a { e with qpair := some q.qpairs } := (setQpair_head ha _).grant _ _
  have hwrite := spdkWrite_submitted params hhead (hE.allocates _ _) (hE.accepts _ _)
  have hcount : 0 < params.lbaCount.toNat := by
    rw [formatParams_lbaCount]
    exact Nat.div_pos hsize lbaUnit_pos
  let q₃ : Process := { q₂.afterCommand params.bytes with
    medium := writtenMedium E q₂ { e with qpair := some q.qpairs } params }
  have hhead' : q₃.Head a { e with qpair := some q.qpairs } :=
    hhead.mono rfl (afterCommand_adds q₂ params.bytes).grows
  refine ⟨q₃, a, _, ?_, hhead', rfl, ?_⟩
  · rw [txFormat]
    apply Exec.run_seq hinit
    apply Exec.run_seq (assert_decide_true (by decide) q)
    apply Exec.run_seq halloc
    apply Exec.run_seq (assert_decide_true (by decide) q₁)
    apply Exec.run_seq (allocBlock_granted (p := q₁) _ (hE.allocates _ _))
    simp only [if_neg (BitVec.not_lt.mpr hfits)]
    exact hwrite
  · have hbytes : 36 ≤ params.bytes.toNat := by
      show 36 ≤ sizeofTxdJSuperblock.toNat
      decide
    rw [show (formatParams txdAddr txdSize).lba = params.lba from rfl]
    exact (superblockAt_written hE params hcount hbytes).trans (TxdJSuperblock.ofBytes_store _ _)

theorem beginSuperblock_reads (txdAddr : BitVec 64) (hE : E.Cooperative) (h : q.Head a e) :
    ∃ r, (beginSuperblock E txdAddr).run q =
      .ok (superblockAt (q.medium e.ns) (beginParams txdAddr).lba, r) := by
  let q₁ := q.grant (1 * sizeofTxdJSuperblock) .buffer
  have hhead : q₁.Head a e := h.grant _ _
  have hread := spdkRead_submitted (beginParams txdAddr) hhead (hE.allocates _ _) (hE.accepts _ _)
  refine ⟨q₁.afterCommand (beginParams txdAddr).bytes, ?_⟩
  rw [beginSuperblock]
  apply Exec.run_seq (allocBlock_granted _ (hE.allocates _ _))
  apply Exec.run_seq hread
  apply Exec.run_seq (assert_decide_true (by decide) _)
  change Except.ok (TxdJSuperblock.ofBytes (memcpy _ _ sizeofTxdJSuperblock.toNat), _) = _
  rw [ofBytes_memcpy, readPayload, if_pos (hE.completes _)]
  rfl

/-- Where the sectors agree, `tx_begin` reads what the format wrote. -/
theorem format_beginSuperblock (hE : E.Cooperative) (hns : E.frontNs p = some ns)
    (hsize : lbaUnit ≤ txdSize.toNat) (hfits : sizeofTxdJSuperblock ≤ formatBufSize txdSize)
    (hsame : SameSectors txdAddr txdSize) :
    ∃ q r, (txFormat E txdAddr txdSize).run p = .ok (txdSuccess, q) ∧
      (beginSuperblock E txdAddr).run q = .ok (.formatted txdSize, r) := by
  obtain ⟨q, a, e, hformat, hhead, rfl, hsb⟩ := txFormat_writes txdAddr hE hns hsize hfits
  obtain ⟨r, hread⟩ := beginSuperblock_reads txdAddr hE hhead
  rw [hsame.begin, hsb] at hread
  exact ⟨q, r, hformat, hread⟩

end Commands

end Legacy

end TxDriver
