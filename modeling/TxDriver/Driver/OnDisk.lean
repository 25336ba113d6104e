import TxDriver.Framework.Words

/-!
# On-disk structures

The layout of `ondisk.h`: the header that every journal block carries and the superblock, both
overlaid on the bytes of a block, with the functions that fill and check them.
-/

namespace TxDriver

def txdSuccess : Int := 0
def txdFail : Int := 1
def txdTrue : Int := 1

def lbaUnit : Nat := 0x0200
def blkSize : BitVec 32 := 0x1000#32
def clSize : BitVec 32 := 64#32
def txdMinJournalBlocks : BitVec 64 := 1024#64

def sigTxd : BitVec 32 := 0x00484a53#32
def sigDescriptorBlock : BitVec 32 := 0x45445854#32
def sigCommitBlock : BitVec 32 := 0x54435854#32
def sigSuperBlock : BitVec 32 := 0x42535854#32
def sigRevokeBlock : BitVec 32 := 0x56525854#32

inductive TxdType where
  | descriptorBlock
  | commitBlock
  | superBlock
  | revokeBlock
  deriving DecidableEq, Repr

/-- `txd_j_header_t`: the first twelve bytes of a journal block. -/
structure TxdJHeader where
  txdSignature : BitVec 32
  txdBlocktype : BitVec 32
  txdTId : BitVec 32
  deriving DecidableEq, Repr

/-- `txd_j_superblock_t` without its padding. -/
structure TxdJSuperblock where
  sHeader : TxdJHeader
  sBlocksize : BitVec 32
  sMaxlen : BitVec 32
  sFirst : BitVec 32
  sSequence : BitVec 32
  sStart : BitVec 32
  sErrno : BitVec 32
  deriving DecidableEq, Repr

def sizeofTxdJSuperblock : BitVec 64 := 64#64

def TxdType.signature : TxdType → BitVec 32
  | .descriptorBlock => sigDescriptorBlock
  | .commitBlock => sigCommitBlock
  | .superBlock => sigSuperBlock
  | .revokeBlock => sigRevokeBlock

/-- `init_journal_header`: every field of the header is assigned. -/
def initJournalHeader (blkType : TxdType) (tid : BitVec 32) : TxdJHeader where
  txdSignature := sigTxd
  txdBlocktype := blkType.signature
  txdTId := tid

def TxdJHeader.ofBytes (m : Bytes) : TxdJHeader where
  txdSignature := load32 m 0
  txdBlocktype := load32 m 4
  txdTId := load32 m 8

def TxdJHeader.store (m : Bytes) (h : TxdJHeader) : Bytes :=
  store32 (store32 (store32 m 0 h.txdSignature) 4 h.txdBlocktype) 8 h.txdTId

/-- The superblock that a block's bytes hold: the cast of a `char *` to
`txd_j_superblock_t *`. -/
def TxdJSuperblock.ofBytes (m : Bytes) : TxdJSuperblock where
  sHeader := .ofBytes m
  sBlocksize := load32 m 12
  sMaxlen := load32 m 16
  sFirst := load32 m 20
  sSequence := load32 m 24
  sStart := load32 m 28
  sErrno := load32 m 32

/-- The bytes after the fields of a superblock were assigned through such a pointer. -/
def TxdJSuperblock.store (m : Bytes) (sb : TxdJSuperblock) : Bytes :=
  store32 (store32 (store32 (store32 (store32 (store32 (sb.sHeader.store m)
    12 sb.sBlocksize) 16 sb.sMaxlen) 20 sb.sFirst) 24 sb.sSequence) 28 sb.sStart) 32 sb.sErrno

/-- A block of the journal: a header that `init_journal_header` has filled, and the bytes of
`rest` after it. -/
def journalBlock (blkType : TxdType) (tid : BitVec 32) (rest : Bytes) : Bytes :=
  (initJournalHeader blkType tid).store rest

/-- The fields of `txd_j_commit_header_t` behind its header; `h_commit_sec` is aligned to eight
bytes. -/
def commitFields (m : Bytes) (hCommitSec : BitVec 64) (hCommitNsec : BitVec 32) : Bytes :=
  store32 (store32 (store32 m 16 (hCommitSec.setWidth 32)) 20
    ((hCommitSec >>> 32).setWidth 32)) 24 hCommitNsec

/-- The superblock whose fields `tx_format` assigns. -/
def TxdJSuperblock.formatted (txdSize : BitVec 32) : TxdJSuperblock where
  sHeader := initJournalHeader .superBlock 0
  sBlocksize := blkSize
  sMaxlen := txdSize
  sFirst := 1
  sSequence := 0
  sStart := 0
  sErrno := 0

def chkTxdSb (sb : TxdJSuperblock) (txdSize : BitVec 32) : Int :=
  if sb.sHeader.txdSignature = sigTxd ∧ sb.sMaxlen = txdSize then txdSuccess else txdFail

theorem chkTxdSb_eq_zero {sb : TxdJSuperblock} {txdSize : BitVec 32} :
    chkTxdSb sb txdSize = 0 ↔ sb.sHeader.txdSignature = sigTxd ∧ sb.sMaxlen = txdSize := by
  unfold chkTxdSb
  split
  · simp [txdSuccess, *]
  · simp [txdFail, *]

@[simp] theorem TxdJHeader.ofBytes_store (m : Bytes) (h : TxdJHeader) :
    TxdJHeader.ofBytes (h.store m) = h := by
  simp [TxdJHeader.ofBytes, TxdJHeader.store, load32_store32_of_disjoint]

theorem load32_header_store (m : Bytes) (h : TxdJHeader) {off : Nat} (hoff : 12 ≤ off) :
    load32 (h.store m) off = load32 m off := by
  rw [TxdJHeader.store, load32_store32_of_disjoint _ _ (by omega),
    load32_store32_of_disjoint _ _ (by omega), load32_store32_of_disjoint _ _ (by omega)]

/-- A block of any type passes the check when its bytes 16 to 19 hold the size. -/
theorem chkTxdSb_journalBlock {blkType : TxdType} {tid txdSize : BitVec 32} {rest : Bytes} :
    chkTxdSb (.ofBytes (journalBlock blkType tid rest)) txdSize = 0 ↔
      load32 rest 16 = txdSize := by
  have hheader : TxdJHeader.ofBytes (journalBlock blkType tid rest) =
      initJournalHeader blkType tid := TxdJHeader.ofBytes_store _ _
  have hmaxlen : load32 (journalBlock blkType tid rest) 16 = load32 rest 16 :=
    load32_header_store _ _ (by decide)
  rw [chkTxdSb_eq_zero, TxdJSuperblock.ofBytes, hheader, hmaxlen]
  exact and_iff_right rfl

/-- In a commit block these bytes hold the low half of the second of the commit. -/
theorem chkTxdSb_commitBlock {tid txdSize nsec : BitVec 32} {sec : BitVec 64} {m : Bytes} :
    chkTxdSb (.ofBytes (journalBlock .commitBlock tid (commitFields m sec nsec))) txdSize = 0 ↔
      sec.setWidth 32 = txdSize := by
  rw [chkTxdSb_journalBlock]
  simp [commitFields, load32_store32_of_disjoint]

@[simp] theorem TxdJSuperblock.ofBytes_store (m : Bytes) (sb : TxdJSuperblock) :
    TxdJSuperblock.ofBytes (sb.store m) = sb := by
  simp [TxdJSuperblock.ofBytes, TxdJSuperblock.store, TxdJHeader.ofBytes, TxdJHeader.store,
    load32_store32_of_disjoint]

/-- A superblock is read from its first 36 bytes alone. -/
theorem TxdJSuperblock.ofBytes_congr {m m' : Bytes} (h : ∀ k, k < 36 → m k = m' k) :
    TxdJSuperblock.ofBytes m = TxdJSuperblock.ofBytes m' := by
  have hload (off : Nat) (ho : off + 4 ≤ 36) : load32 m off = load32 m' off :=
    load32_congr fun k _ hk => h k (by omega)
  simp only [TxdJSuperblock.ofBytes, TxdJHeader.ofBytes]
  rw [hload 0 (by omega), hload 4 (by omega), hload 8 (by omega), hload 12 (by omega),
    hload 16 (by omega), hload 20 (by omega), hload 24 (by omega), hload 28 (by omega),
    hload 32 (by omega)]

end TxDriver
