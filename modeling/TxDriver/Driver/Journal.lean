import TxDriver.Driver.Process

/-!
# The journal record

The fields of `struct txd_journal_s` that the driver reads or assigns, with their C widths, its
flags, and the constants of its construction. Locks are left out: only the handshake with the
commit thread contends for one, and it has its own model.
-/

namespace TxDriver

def txdAbort : BitVec 64 := 0x002#64
def txdFlushed : BitVec 64 := 0x008#64
def txdLoaded : BitVec 64 := 0x010#64

def txdTimeIntCommit : BitVec 64 := 5#64
def txdTimeMinBatch : BitVec 32 := 0#32
def txdTimeMaxBatch : BitVec 32 := 15000#32
def txdJCommitInterval : BitVec 64 := 5#64
def txdJMinBatchTime : BitVec 32 := 0#32
def txdJMaxBatchTime : BitVec 32 := 15000#32

def journalRevokeDefaultHash : BitVec 32 := 256#32
def reqFua : BitVec 32 := 0x20000#32

def sizeofTxdJournalPtr : BitVec 64 := 8#64
def sizeofTxdBufferHead : BitVec 64 := 40#64
def sizeofTxdRevokeTable : BitVec 64 := 16#64
def sizeofListHead : BitVec 64 := 16#64
def sizeofTxdJournalBlockTag : BitVec 64 := 64#64
def sizeofPtr : BitVec 64 := 8#64

/-- `wait_queue_t`: its condition. -/
structure WaitQueue where
  condition : Int
  deriving DecidableEq, Repr

/-- `struct txd_journal_s`. `jSuperblock` is the superblock that the pointer leads to. -/
structure TxdJournal where
  self : Addr
  jFlags : BitVec 64
  jErrno : BitVec 32
  jSbBuffer : Option Addr
  jSuperblock : TxdJSuperblock
  jWaitTransactionLocked : WaitQueue
  jWaitDoneCommit : WaitQueue
  jWaitCommit : WaitQueue
  jWaitUpdates : WaitQueue
  jWaitReserved : WaitQueue
  jHead : BitVec 64
  jTail : BitVec 64
  jFree : BitVec 64
  jFirst : BitVec 64
  jLast : BitVec 64
  jBlocksize : BitVec 32
  jBlkOffset : BitVec 64
  jMaxlen : BitVec 32
  jReservedCredits : BitVec 32
  jTailSequence : BitVec 32
  jTransactionSequence : BitVec 32
  jCommitSequence : BitVec 32
  jCommitRequest : BitVec 32
  jMaxTransactionBuffers : BitVec 32
  jCommitInterval : BitVec 64
  jRevoke : Option Addr
  jRevokeTable0 : Option Addr
  jRevokeTable1 : Option Addr
  jWbuf : Option Addr
  jWbufsize : BitVec 32
  jMinBatchTime : BitVec 32
  jMaxBatchTime : BitVec 32
  jFailedCommit : BitVec 32
  deriving DecidableEq, Repr

attribute [ext] TxdJournal

/-- A freshly allocated journal: every field is zero. Its block is requested with the size of a
pointer; the record is kept apart from the block, as if the block had room for all of it. -/
def TxdJournal.zeroed (self : Addr) (sb : TxdJSuperblock) : TxdJournal where
  self := self
  jFlags := 0
  jErrno := 0
  jSbBuffer := none
  jSuperblock := sb
  jWaitTransactionLocked := ⟨0⟩
  jWaitDoneCommit := ⟨0⟩
  jWaitCommit := ⟨0⟩
  jWaitUpdates := ⟨0⟩
  jWaitReserved := ⟨0⟩
  jHead := 0
  jTail := 0
  jFree := 0
  jFirst := 0
  jLast := 0
  jBlocksize := 0
  jBlkOffset := 0
  jMaxlen := 0
  jReservedCredits := 0
  jTailSequence := 0
  jTransactionSequence := 0
  jCommitSequence := 0
  jCommitRequest := 0
  jMaxTransactionBuffers := 0
  jCommitInterval := 0
  jRevoke := none
  jRevokeTable0 := none
  jRevokeTable1 := none
  jWbuf := none
  jWbufsize := 0
  jMinBatchTime := 0
  jMaxBatchTime := 0
  jFailedCommit := 0

end TxDriver
