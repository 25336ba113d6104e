import Mathlib.Tactic.IntervalCases
import TxDriver.Driver.ListRuns
import TxDriver.Driver.Revoke

/-!
# Revoke tables in use

The buckets of a revoke table are heads of the lists of `list.h`, and records are linked into them
and out again by any program of calls. The table can be destroyed afterwards exactly when every
bucket has been emptied.
-/

namespace TxDriver

/-- A pointer as the block of a table has it, where a wild pointer is as good as none. -/
def ofPtr : Lists.Ptr (Addr × Nat) → Option (Addr × Nat)
  | .node a => some a
  | .wild _ => none

def bucketsOf (m : Lists.Memory (Addr × Nat)) (b : Addr) (i : Nat) : ListHead :=
  ⟨ofPtr (m.next (b, i)), ofPtr (m.prev (b, i))⟩

def newBuckets (b : Addr) (n : Nat) : Contents (Addr × Nat) := fun k =>
  if k.1 = b ∧ k.2 < n then some [] else none

/-- A program over a new table that keeps to the comments of the header, and after which the
buckets still are heads of lists. -/
structure BucketProgram (b : Addr) (n : Nat) (cs : List (Lists.Call (Addr × Nat))) : Prop where
  allowed : Lists.AllowedAll (newBuckets b n) cs
  heads : ∀ i < n, (Lists.afterAll (newBuckets b n) cs).Head (b, i)

def BucketsEmptied (b : Addr) (n : Nat) (cs : List (Lists.Call (Addr × Nat))) : Prop :=
  ∀ i < n, Lists.afterAll (newBuckets b n) cs (b, i) = some []

section Buckets

variable {m : Lists.Memory (Addr × Nat)} {b : Addr} {n i : Nat} {l : List (Addr × Nat)}

theorem ofPtr_eq_some {p : Lists.Ptr (Addr × Nat)} {a : Addr × Nat} :
    ofPtr p = some a ↔ p = .node a := by
  cases p <;> simp [ofPtr]

theorem bucketsOf_eq_initListHead :
    bucketsOf m b i = initListHead (b, i) ↔ m.Linked (b, i) (b, i) := by
  simp only [bucketsOf, initListHead, ListHead.mk.injEq, ofPtr_eq_some]
  exact ⟨fun h => ⟨h.1, h.2⟩, fun h => ⟨h.next, h.prev⟩⟩

theorem listEmpty_bucketsOf (hr : m.Ring (b, i) l) :
    listEmpty (b, i) (bucketsOf m b i) = true ↔ l = [] := by
  rw [← hr.next_eq_head_iff, ← ofPtr_eq_some]
  exact decide_eq_true_iff

theorem newBuckets_eq_some {k : Addr × Nat} :
    newBuckets b n k = some l ↔ (k.1 = b ∧ k.2 < n) ∧ l = [] := by
  rw [newBuckets]
  split <;> simp_all [eq_comm]

theorem newBuckets_holds (h : ∀ i < n, bucketsOf m b i = initListHead (b, i)) :
    m.Holds (newBuckets b n) where
  ring {k l} hk := by
    obtain ⟨⟨rfl, hi⟩, rfl⟩ := newBuckets_eq_some.mp hk
    have hself := bucketsOf_eq_initListHead.mp (h k.2 hi)
    exact ⟨by simpa using hself, by simp⟩
  apart {k l x} hk hx := by
    obtain ⟨_, rfl⟩ := newBuckets_eq_some.mp hk
    intro k' l' hne hk'
    obtain ⟨_, rfl⟩ := newBuckets_eq_some.mp hk'
    rw [List.mem_singleton] at hx ⊢
    rw [hx]
    exact hne.symm

end Buckets

theorem assertListsEmpty_stops {table : Addr} {hs : Nat → ListHead} (n i : Nat) (p : Process)
    (h : ∃ k, i ≤ k ∧ k < i + n ∧ ¬listEmpty (table, k) (hs k) = true) :
    (assertListsEmpty table hs n i).run p = .error .assertion := by
  induction n generalizing i with
  | zero =>
    obtain ⟨k, hlo, hhi, _⟩ := h
    omega
  | succ n ih =>
    obtain ⟨k, hlo, hhi, hne⟩ := h
    rw [assertListsEmpty]
    cases hi : listEmpty (table, i) (hs i) with
    | false => rfl
    | true =>
      have hki : k ≠ i := fun hki => hne (hki ▸ hi)
      apply Exec.run_seq (Exec.run_assert_true p)
      exact ih (i + 1) ⟨k, by omega, by omega, hne⟩

section Tables

variable {E : Platform} {p : Process} {t b : Addr} {hashSize shift : BitVec 32}
  {hs : Nat → ListHead}

theorem Process.TableAt.store (h : p.TableAt t b hashSize shift)
    (hempty : ∀ i < rounds hashSize, hs i = initListHead (b, i)) :
    (p.store b (.listHeads hs)).TableAt t b hashSize shift := by
  obtain ⟨_, hb, _⟩ := h.buckets
  exact ⟨(Heap.cells_set_of_ne _ h.ne).trans h.table, hs, Heap.cells_set_self _ hb, hempty⟩

theorem txdJournalDestroyRevokeTable_asserts (h : p.TableAt t b hashSize shift)
    (hused : ∃ i < rounds hashSize, ¬listEmpty (b, i) (hs i) = true) :
    (txdJournalDestroyRevokeTable t).run (p.store b (.listHeads hs)) = .error .assertion := by
  let q := p.store b (.listHeads hs)
  obtain ⟨_, hb, _⟩ := h.buckets
  obtain ⟨i, hi, hne⟩ := hused
  have ht : q.heap.cells t = _ := (Heap.cells_set_of_ne _ h.ne).trans h.table
  have hcells : q.heap.cells b = some (_, .listHeads hs) := Heap.cells_set_self _ hb
  have hload : (loadTable t).run q = .ok (⟨hashSize, shift, some b⟩, q) := by
    simp only [loadTable, Exec.run, ht]
  have hheads : (loadListHeads (some b)).run q = .ok ((b, hs), q) := by
    simp only [loadListHeads, Exec.run, hcells]
  rw [txdJournalDestroyRevokeTable]
  apply Exec.run_seq hload
  apply Exec.run_seq hheads
  apply Exec.run_bind_error
  have hlast : i < 0 + rounds hashSize := by omega
  exact assertListsEmpty_stops _ 0 q ⟨i, Nat.zero_le i, hlast, hne⟩

/-- Whatever is linked into a new table and out of it, nothing is left of the table once it is
destroyed, and it is destroyed exactly when each of its lists has become empty again. -/
theorem revokeTable_used (hpos : 0 < hashSize.toInt)
    (hg : E.Grants p.requests [sizeofTxdRevokeTable, bucketBytes hashSize]) :
    let t := p.heap.next
    let b := t + 1
    let n := rounds hashSize
    ∃ q hs, (txdJournalInitRevokeTable E hashSize).run p = .ok (some t, q) ∧
      q.heap.cells b = some ((bucketBytes hashSize).toNat, .listHeads hs) ∧
      ∀ m cs, (∀ i < n, bucketsOf m b i = hs i) → BucketProgram b n cs →
        ∃ m', (Lists.runCalls cs).run m = .ok (Lists.answers (newBuckets b n) cs, m') ∧
          (¬BucketsEmptied b n cs →
            (txdJournalDestroyRevokeTable t).run (q.store b (.listHeads (bucketsOf m' b))) =
              .error .assertion) ∧
          (BucketsEmptied b n cs → ∃ r freed,
            (txdJournalDestroyRevokeTable t).run (q.store b (.listHeads (bucketsOf m' b))) =
              .ok ((), r) ∧ p.Unwound r freed) := by
  intro t b n
  obtain ⟨shift, hshift, _⟩ := hashShift_shiftOf hpos
  obtain ⟨q, hrun, hledger, htable, _, _⟩ := txdJournalInitRevokeTable_granted hshift hg
  obtain ⟨hs, hb, hinit⟩ := htable.buckets
  refine ⟨q, hs, hrun, hb, ?_⟩
  intro m cs hm hcs
  have hnew : m.Holds (newBuckets b n) :=
    newBuckets_holds fun i hi => (hm i hi).trans (hinit i hi)
  obtain ⟨m', hcalls, hm', _⟩ := Lists.runCalls_refines hcs.allowed m hnew
  refine ⟨m', hcalls, ?_, ?_⟩
  · intro hused
    apply txdJournalDestroyRevokeTable_asserts htable
    rw [BucketsEmptied] at hused
    push Not at hused
    obtain ⟨i, hi, hne⟩ := hused
    obtain ⟨l, hl⟩ := hcs.heads i hi
    refine ⟨i, hi, ?_⟩
    rw [listEmpty_bucketsOf (hm'.ring hl)]
    intro hnil
    exact hne (hnil ▸ hl)
  · intro hempty
    have hempty' : ∀ i < n, bucketsOf m' b i = initListHead (b, i) := by
      intro i hi
      have hring := hm'.ring (hempty i hi)
      exact bucketsOf_eq_initListHead.mpr (by simpa using hring.path)
    have hstored := hledger.store (.listHeads (bucketsOf m' b)) (List.mem_cons_self ..)
    exact ⟨_, _, txdJournalDestroyRevokeTable_run (htable.store hempty'),
      hstored.free_head.free_head.unwound⟩

end Tables

/-- A record goes into one bucket, is moved to the other and taken out again. -/
def recordMoved : List (Lists.Call (Addr × Nat)) :=
  [.listAdd (7, 0) (1, 0), .listMove (7, 0) (1, 1), .listDelInit (7, 0)]

theorem recordMoved_bucketProgram : BucketProgram 1 2 recordMoved where
  allowed := by
    refine ⟨⟨?_, by decide, [], rfl⟩, ⟨.inl ⟨(1, 0), [(7, 0)], rfl, by decide⟩, by decide, [], rfl⟩,
      .inl ⟨(1, 1), [(7, 0)], rfl, by decide⟩, trivial⟩
    intro k l _ hk hmem
    obtain ⟨⟨hb, _⟩, rfl⟩ := newBuckets_eq_some.mp hk
    rw [← List.mem_singleton.mp hmem] at hb
    exact absurd hb (by decide)
  heads i hi := by
    interval_cases i
    · exact ⟨[], rfl⟩
    · exact ⟨[], rfl⟩

theorem revokeTable_used_moved :
    ∃ (q : Process) (hs : Nat → ListHead),
      (txdJournalInitRevokeTable .reliable 2).run (.start fun _ _ _ => 0) = .ok (some 0, q) ∧
        ∀ m, (∀ i < 2, bucketsOf m 1 i = hs i) →
          ∃ m' r, (Lists.runCalls recordMoved).run m = .ok ([none, none, none], m') ∧
            (txdJournalDestroyRevokeTable 0).run (q.store 1 (.listHeads (bucketsOf m' 1))) =
              .ok ((), r) := by
  have hpos : 0 < (2 : BitVec 32).toInt := by decide
  obtain ⟨q, hs, hrun, _, hused⟩ := revokeTable_used (E := .reliable) (p := .start fun _ _ _ => 0)
    hpos ⟨rfl, rfl, trivial⟩
  refine ⟨q, hs, hrun, ?_⟩
  intro m hm
  obtain ⟨m', hcalls, _, hdestroy⟩ := hused m recordMoved hm recordMoved_bucketProgram
  have hempty : BucketsEmptied 1 2 recordMoved := by
    intro i hi
    interval_cases i <;> rfl
  obtain ⟨r, _, hok, _⟩ := hdestroy hempty
  exact ⟨m', r, hcalls, hok⟩

end TxDriver
