import TxDriver.Driver.Contracts

/-!
# Writing and reading back

A write copies `buf_size` bytes into its DMA buffer and moves `lba_count` sectors from there; a
read moves the sectors back and copies `buf_size` bytes. The two lengths are independent, so what
a reader gets of a buffer that is longer than its sectors is not all that was written.
-/

namespace TxDriver

def TxdParams.SectorsFit (params : TxdParams) : Prop :=
  ((lbaUnit * params.lbaCount.toNat : Nat) : Int) ≤ params.bufSize.toInt

structure TxdParams.SameRequest (params params' : TxdParams) : Prop where
  lba : params'.lba = params.lba
  lbaCount : params'.lbaCount = params.lbaCount
  bufSize : params'.bufSize = params.bufSize

/-- What the reader of `params'` finds in its buffer after `params` was written: the sectors, then
zeros, and from the end of the copy on its own bytes. -/
structure Delivered (params params' : TxdParams) (bytes : Bytes) : Prop where
  transferred : ∀ k < lbaUnit * params.lbaCount.toNat, bytes k = params.buf k
  zeroed : ∀ k < params.bytes.toNat, lbaUnit * params.lbaCount.toNat ≤ k → bytes k = 0
  kept : ∀ k, params.bytes.toNat ≤ k → bytes k = params'.buf k

def DeliveredWhole (params : TxdParams) (bytes : Bytes) : Prop :=
  ∀ k < params.bytes.toNat, bytes k = params.buf k

/-- The media of `p` and `q` differ in the sectors of `params` on `ns` at most. -/
def OnlyWrites (ns : Nat) (params : TxdParams) (p q : Process) : Prop :=
  ∀ id l, ¬(id = ns ∧ params.lba.toNat ≤ l ∧ l < params.lba.toNat + params.lbaCount.toNat) →
    q.medium id l = p.medium id l

section Transfers

variable {E : Platform} {p q r : Process} {params params' : TxdParams} {rc : Int}
  {bytes : Bytes}

theorem TxdParams.SectorsFit.le_bytes (h : params.SectorsFit) :
    lbaUnit * params.lbaCount.toNat ≤ params.bytes.toNat := by
  rw [TxdParams.SectorsFit] at h
  have hbytes : params.bytes.toInt = params.bufSize.toInt :=
    BitVec.toInt_signExtend_of_le (by decide)
  have hlt := params.bytes.isLt
  rw [BitVec.toInt_eq_toNat_cond] at hbytes
  split at hbytes <;> omega

theorem Delivered.whole_iff (h : Delivered params params' bytes) :
    DeliveredWhole params bytes ↔
      ∀ k < params.bytes.toNat, lbaUnit * params.lbaCount.toNat ≤ k → params.buf k = 0 := by
  constructor
  · intro hwhole k hk hlo
    rw [← hwhole k hk, h.zeroed k hk hlo]
  · intro htail k hk
    by_cases hin : k < lbaUnit * params.lbaCount.toNat
    · exact h.transferred k hin
    · rw [h.zeroed k hk (by omega), htail k hk (by omega)]

theorem spdkWrite_ok (hstatus : (E.completion p.commands).status = 0)
    (h : (spdkWrite E params).run p = .ok (rc, q)) :
    ∃ a e, p.Head a e ∧ q.Head a e ∧
      q.medium = writeSectors p.medium e.ns params.lba.toNat params.lbaCount.toNat
        (sectorsOf (memcpy (E.beyond p.commands) params.buf params.bytes.toNat)) := by
  have hs := spdkWrite_submits h
  obtain ⟨a, e, ha⟩ := hs.head
  rw [spdkWrite_submitted params ha hs.buffer (hs.accepts ha)] at h
  cases h
  refine ⟨a, e, ha, ha.mono rfl (afterCommand_adds p params.bytes).grows, ?_⟩
  change writtenMedium E p e params = _
  rw [writtenMedium, if_pos hstatus]

theorem spdkRead_ok {a : Addr} {e : NsEntry} (ha : q.Head a e)
    (hstatus : (E.completion q.commands).status = 0) (hs : Submitted E q params'.bytes) :
    ∃ r, (spdkRead E params').run q = .ok ((txdSuccess, memcpy params'.buf
        (readSectors (q.medium e.ns) params'.lba.toNat params'.lbaCount.toNat)
        params'.bytes.toNat), r) ∧ r.medium = q.medium := by
  have hrun := spdkRead_submitted params' ha hs.buffer (hs.accepts ha)
  rw [readPayload, if_pos hstatus] at hrun
  exact ⟨_, hrun, rfl⟩

theorem delivered_of_written {medium : Nat → Nat → Sector} {ns : Nat} {beyond : Bytes}
    (hsame : params.SameRequest params') (hfit : params.SectorsFit) :
    Delivered params params' (memcpy params'.buf
      (readSectors (writeSectors medium ns params.lba.toNat params.lbaCount.toNat
        (sectorsOf (memcpy beyond params.buf params.bytes.toNat)) ns)
        params'.lba.toNat params'.lbaCount.toNat) params'.bytes.toNat) := by
  have hle := hfit.le_bytes
  have hbytes : params'.bytes = params.bytes := by
    rw [TxdParams.bytes, hsame.bufSize, TxdParams.bytes]
  rw [hsame.lba, hsame.lbaCount, hbytes]
  refine ⟨?_, ?_, ?_⟩
  · intro k hk
    have hcopied : k < params.bytes.toNat := Nat.lt_of_lt_of_le hk hle
    rw [memcpy, if_pos hcopied, readSectors_writeSectors _ _ _ _ (Nat.le_refl _), if_pos hk,
      memcpy, if_pos hcopied]
  · intro k hcopied hk
    rw [memcpy, if_pos hcopied, readSectors_writeSectors _ _ _ _ (Nat.le_refl _),
      if_neg (Nat.not_lt.mpr hk)]
  · intro k hk
    rw [memcpy, if_neg (Nat.not_lt.mpr hk)]

/-- A reader gets back the sectors that were written, and all that was written exactly when the
rest of it is zero; no other sector changes. -/
theorem write_read_delivers (hfit : params.SectorsFit) (hsame : params.SameRequest params')
    (hwrite : (spdkWrite E params).run p = .ok (txdSuccess, q))
    (hread : Submitted E q params'.bytes)
    (hp : (E.completion p.commands).status = 0) (hq : (E.completion q.commands).status = 0) :
    ∃ bytes r, (spdkRead E params').run q = .ok ((txdSuccess, bytes), r) ∧
      Delivered params params' bytes ∧
      (DeliveredWhole params bytes ↔
        ∀ k < params.bytes.toNat, lbaUnit * params.lbaCount.toNat ≤ k → params.buf k = 0) ∧
      ∃ a e, p.Head a e ∧ OnlyWrites e.ns params p r := by
  obtain ⟨a, e, ha, ha', hmedium⟩ := spdkWrite_ok hp hwrite
  obtain ⟨r, hrun, hr⟩ := spdkRead_ok ha' hq hread
  have hdelivered : Delivered params params' (memcpy params'.buf
      (readSectors (q.medium e.ns) params'.lba.toNat params'.lbaCount.toNat)
      params'.bytes.toNat) := by
    rw [hmedium]
    exact delivered_of_written hsame hfit
  refine ⟨_, r, hrun, hdelivered, hdelivered.whole_iff, a, e, ha, ?_⟩
  intro id l hout
  rw [hr, hmedium, writeSectors, if_neg hout]

end Transfers

/-- A page with the byte `b` everywhere, of which one sector is transferred. -/
def onePage (b : Byte) : TxdParams := ⟨fun _ => b, 0x1000, 0x1000, 1, 1⟩

theorem onePage_written (b : Byte) :
    ∃ q, (spdkWrite .reliable (onePage b)).run (.attached fun _ _ _ => 0) = .ok (txdSuccess, q) ∧
      Submitted .reliable q (onePage 0).bytes := by
  obtain ⟨a, e, ha, _⟩ := attached_head fun _ _ _ => 0
  have ha' : ((Process.attached fun _ _ _ => 0).afterCommand (onePage b).bytes).Head a e :=
    ha.mono rfl (afterCommand_adds _ (onePage b).bytes).grows
  exact ⟨_, spdkWrite_submitted (E := .reliable) (onePage b) ha rfl rfl, ⟨a, e, ha'⟩, rfl, rfl⟩

theorem onePage_fits (b : Byte) : (onePage b).SectorsFit := by
  change ((512 * 1 : Nat) : Int) ≤ (0x1000#32).toInt
  decide

theorem onePage_same (b c : Byte) : (onePage b).SameRequest (onePage c) := ⟨rfl, rfl, rfl⟩

theorem write_read_delivers_page :
    ∃ q r bytes, (spdkWrite .reliable (onePage 7)).run (.attached fun _ _ _ => 0) =
        .ok (txdSuccess, q) ∧
      (spdkRead .reliable (onePage 0)).run q = .ok ((txdSuccess, bytes), r) ∧
      Delivered (onePage 7) (onePage 0) bytes := by
  obtain ⟨q, hwrite, hread⟩ := onePage_written 7
  obtain ⟨bytes, r, hrun, hdelivered, _⟩ :=
    write_read_delivers (onePage_fits 7) (onePage_same 7 0) hwrite hread rfl rfl
  exact ⟨q, r, bytes, hwrite, hrun, hdelivered⟩

theorem write_read_page_lost :
    ¬∀ (E : Platform) (p q : Process) (params params' : TxdParams),
      1 ≤ params.lbaCount → params.SectorsFit → params.SameRequest params' →
      (spdkWrite E params).run p = .ok (txdSuccess, q) → Submitted E q params'.bytes →
      (E.completion p.commands).status = 0 → (E.completion q.commands).status = 0 →
      ∃ bytes r, (spdkRead E params').run q = .ok ((txdSuccess, bytes), r) ∧
        DeliveredWhole params bytes := by
  intro h
  obtain ⟨q, hwrite, hread⟩ := onePage_written 7
  obtain ⟨bytes, r, hrun, hwhole⟩ := h .reliable _ q _ _ (by decide) (onePage_fits 7)
    (onePage_same 7 0) hwrite hread rfl rfl
  obtain ⟨a, e, _, ha, hmedium⟩ := spdkWrite_ok rfl hwrite
  obtain ⟨r', hrun', _⟩ := spdkRead_ok ha rfl hread
  rw [hrun'] at hrun
  cases hrun
  have hdelivered : Delivered (onePage 7) (onePage 0) (memcpy (onePage 0).buf
      (readSectors (q.medium e.ns) (onePage 0).lba.toNat (onePage 0).lbaCount.toNat)
      (onePage 0).bytes.toNat) := by
    rw [hmedium]
    exact delivered_of_written (onePage_same 7 0) (onePage_fits 7)
  have htail := hdelivered.whole_iff.mp hwhole 512 (by decide) (by decide)
  exact absurd htail (by decide)

end TxDriver
