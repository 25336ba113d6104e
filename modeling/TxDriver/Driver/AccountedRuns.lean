import TxDriver.Driver.RegistryRuns

/-!
# Accounting over a run

The registries are allocated past the counter, and every other block goes through it. So it is the
size of all other live blocks together, from the first call on, until a `tx_begin` is refused the
buffer that `txd_calloc` has already counted.
-/

namespace TxDriver

/-- What the counter has more than the live blocks outside the registries. -/
def Process.surplus (p : Process) : BitVec 64 :=
  p.allocatedMemSize - BitVec.ofNat 64 p.data.liveBytes

section Steps

variable {E : Platform} {p q : Process} {j : TxdJournal} {txdAddr : BitVec 64}
  {txdSize : BitVec 32}

theorem spares_surplus {n : BitVec 64} (h : p.Spares q)
    (hcounter : q.allocatedMemSize = p.allocatedMemSize + n) : q.surplus = p.surplus + n := by
  have hbytes := h.liveBytes
  rw [List.toFinset_nil, Finset.sum_empty, Nat.add_zero] at hbytes
  rw [Process.surplus, Process.surplus, hbytes, hcounter, BitVec.sub_eq_add_neg,
    BitVec.sub_eq_add_neg]
  ac_rfl

theorem beginOut1_counter : Exec.Fixes Process.allocatedMemSize (beginOut1 E) :=
  .bind (.bind loadHead_fixes fun _ => .bind .get fun _ => .bind (.modify fun _ => rfl) fun _ =>
    .pure)
    fun _ => .bind .assert fun _ => .bind (cleanup_fixes fun _ _ => rfl) fun _ => .pure

theorem txFormat_counter (txdAddr : BitVec 64) (txdSize : BitVec 32) :
    Exec.Fixes Process.allocatedMemSize (txFormat E txdAddr txdSize) := by
  intro p err q h
  obtain ⟨a, e, qpair, _, heap, requests, released, rfl, _⟩ := txFormat_returns h
  change (p.afterProbe E).allocatedMemSize + 0#64 = _
  rw [BitVec.add_zero, (afterProbe_extends p E).rest]

theorem sizeAt_data {n : Nat} {b : Obj} {a : Addr} (hb : b.ofRegistry = false)
    (hc : q.heap.cells a = some (n, b)) : q.data.sizeAt a = n :=
  Heap.sizeAt_of_some (Heap.cells_filter_eq_some.mpr ⟨hc, by simp [hb]⟩)

theorem handedOut_surplus (h : j.HandedOut p q) : q.surplus = p.surplus := by
  obtain ⟨_, hb₀, _⟩ := h.intact.owns.buckets0.buckets
  obtain ⟨_, hb₁, _⟩ := h.intact.owns.buckets1.buckets
  have hbytes := h.dataAdds.liveBytes
  rw [List.sum_toFinset _ h.adds.nodup] at hbytes
  simp only [TxdJournal.leaves, journalBlocks, List.cons_append, List.nil_append, List.map_cons,
    List.map_nil, List.sum_cons, List.sum_nil, sizeAt_data rfl h.intact.wbuf, sizeAt_data rfl hb₀,
    sizeAt_data rfl hb₁, sizeAt_data rfl h.intact.owns.buckets0.table,
    sizeAt_data rfl h.intact.owns.buckets1.table, sizeAt_data rfl h.intact.bufferHead,
    sizeAt_data rfl h.intact.journal, sizeAt_data rfl h.buffer] at hbytes
  have hgrown : BitVec.ofNat 64 q.data.liveBytes = BitVec.ofNat 64 p.data.liveBytes +
      (totalSize (journalLedger j.self j.jSuperblock) + sizeofTxdJSuperblock) := by
    rw [hbytes, h.wbufsize]
    simp only [totalSize, journalLedger, revokeBlocks, List.cons_append, List.nil_append,
      List.map_cons, List.map_nil, List.sum_cons, List.sum_nil, BitVec.ofNat_add,
      BitVec.ofNat_toNat, BitVec.setWidth_eq]
    simp only [BitVec.add_assoc, BitVec.ofNat_eq_ofNat, BitVec.add_zero]
  have hcancel (a b s t : BitVec 64) : a + s + t - (b + (t + s)) = a - b := by bv_omega
  rw [Process.surplus, Process.surplus, hgrown, h.counter, hcancel]

theorem beginOut2_counter {buf : Addr} {res : Option TxdJournal}
    (h : (beginOut2 E buf).run p = .ok (res, q)) :
    q.allocatedMemSize = p.allocatedMemSize - sizeofTxdJSuperblock := by
  obtain ⟨_, r, hfree, hout⟩ := Exec.run_bind_eq_ok.mp h
  obtain ⟨_, r', hcount, hblock⟩ := Exec.run_bind_eq_ok.mp hfree
  cases hcount
  rw [beginOut1_counter r res q hout]
  exact freeBlock_fixes (fun _ _ => rfl) buf _ _ r hblock

/-- A `tx_begin` that fails returns what it has counted, unless it was refused its buffer. -/
theorem txBegin_none_counter (h : (txBegin E txdAddr txdSize).run p = .ok (none, q)) :
    q.allocatedMemSize = p.allocatedMemSize +
      if E.allocates p.requests (1 * sizeofTxdJSuperblock) then 0#64
        else sizeofTxdJSuperblock := by
  by_cases hbuf : E.allocates p.requests (1 * sizeofTxdJSuperblock) = true
  swap
  · rw [txBegin, txBeginWith, Exec.run_bind_ok _ (txdCalloc_refused 1 _ _ hbuf)] at h
    rw [if_neg hbuf]
    exact beginOut1_counter _ none q h
  have hread : p.beginRead.allocatedMemSize = p.allocatedMemSize + sizeofTxdJSuperblock := rfl
  rw [if_pos hbuf, BitVec.add_zero]
  -- from here on the counter is put back by the label that frees the buffer
  have hout {r : Process} (hr : r.allocatedMemSize = p.beginRead.allocatedMemSize)
      (h : (beginOut2 E p.heap.next).run r = .ok (none, q)) :
      q.allocatedMemSize = p.allocatedMemSize := by
    rw [beginOut2_counter h, hr, hread, BitVec.add_sub_cancel]
  by_cases hlive : p.HeadLive
  swap
  · obtain ⟨f, hfault, _⟩ := txBegin_headless (E := E) txdJournalRecover txdAddr txdSize hlive
    rw [txBegin, hfault] at h
    cases h
  obtain ⟨a, e, ha⟩ := hlive
  rw [txBegin] at h
  rcases begin_cases txdAddr txdSize ha with hfail | ⟨_, hn⟩ | ⟨hb, hacc⟩
  · have hreads := BeginFails.reads txdAddr txdSize hfail hbuf
    rw [txBegin_reads _ _ _ ha hreads, beginChecked] at h
    by_cases hchk : chkTxdSb (deviceSuperblock E p e txdAddr) txdSize = 0
    · have hg : ¬E.Grants p.beginRead.requests
          (journalRequests (deviceSuperblock E p e txdAddr)) :=
        fun hg => not_beginFails_of_accepts txdAddr txdSize ha hreads ⟨hchk, hg⟩ hfail
      obtain ⟨r, hrun, hr⟩ := txdGetJournal_refused hg
      rw [if_pos hchk, Exec.run_bind_ok _ hrun] at h
      obtain ⟨heap, requests, released, rfl, _⟩ := hr
      exact hout (BitVec.add_zero _) h
    · rw [if_neg hchk] at h
      exact hout rfl h
  · obtain ⟨s, hstop⟩ := txBegin_unread_stops txdJournalRecover txdAddr txdSize ha hbuf hn
    rw [hstop] at h
    cases h
  · obtain ⟨n, r, _, hrun⟩ := txBegin_built txdJournalRecover txdAddr txdSize ha hb hacc
    rw [hrun] at h
    split at h <;> cases h

end Steps

def Call.Refused (E : Platform) (p : Process) : Call → Prop
  | .format _ _ => False
  | .begin _ _ => ¬E.allocates p.requests (1 * sizeofTxdJSuperblock) = true

def BufferRefused (E : Platform) (p : Process) : List Call → Prop
  | [] => False
  | c :: cs => c.Refused E p ∨
    ∃ res q, (c.perform E).run p = .ok (res, q) ∧ BufferRefused E q cs

section Runs

variable {E : Platform} {p q : Process} {c : Call} {cs : List Call} {res : Result}
  {log : List (Call × Result)}

theorem bufferRefused_cons (h : (c.perform E).run p = .ok (res, q)) :
    BufferRefused E p (c :: cs) ↔ c.Refused E p ∨ BufferRefused E q cs := by
  refine or_congr_right ⟨?_, fun hcs => ⟨res, q, h, hcs⟩⟩
  rintro ⟨res', q', h', hcs⟩
  rw [h] at h'
  cases h'
  exact hcs

theorem Call.perform_surplus (h : (c.perform E).run p = .ok (res, q)) (hc : ¬c.Refused E p) :
    q.surplus = p.surplus := by
  cases c with
  | format txdAddr txdSize =>
    obtain ⟨err, r, hformat, hr⟩ := Exec.run_bind_eq_ok.mp h
    cases hr
    have hcounter := txFormat_counter txdAddr txdSize p err q hformat
    rw [spares_surplus (n := 0#64) (txFormat_spares txdAddr txdSize p err q hformat)
      (hcounter.trans (BitVec.add_zero _).symm), BitVec.add_zero]
  | begin txdAddr txdSize =>
    obtain ⟨journal, r, hbegin, hr⟩ := Exec.run_bind_eq_ok.mp h
    cases hr
    cases journal with
    | none =>
      have hcounter := txBegin_none_counter hbegin
      rw [if_pos (not_not.mp hc)] at hcounter
      rw [spares_surplus (txBegin_none_spares hbegin) hcounter, BitVec.add_zero]
    | some j => exact handedOut_surplus (txBegin_handsOut hbegin)

/-- A call without its buffer returns nothing, tears the registries down and leaves 64 bytes too
many on the counter. -/
theorem Call.perform_refused (h : (c.perform E).run p = .ok (res, q)) (hc : c.Refused E p) :
    q.surplus = p.surplus + sizeofTxdJSuperblock ∧ ¬p.Dangling ∧ q.Dangling := by
  cases c with
  | format txdAddr txdSize => exact absurd hc id
  | begin txdAddr txdSize =>
    obtain ⟨journal, r, hbegin, hr⟩ := Exec.run_bind_eq_ok.mp h
    cases hr
    cases journal with
    | none =>
      have hcounter := txBegin_none_counter hbegin
      rw [if_neg hc] at hcounter
      exact ⟨spares_surplus (txBegin_none_spares hbegin) hcounter, txBegin_tearsDown hbegin⟩
    | some j =>
      by_cases hlive : p.HeadLive
      · obtain ⟨a, e, ha⟩ := hlive
        exact absurd (txBegin_some ha hbegin).1.buffer hc
      · obtain ⟨f, hfault, _⟩ := txBegin_headless (E := E) txdJournalRecover txdAddr txdSize hlive
        rw [txBegin, hfault] at hbegin
        cases hbegin

theorem traced_notRefused (hd : p.Dangling)
    (h : (Exec.traced (Call.perform E) cs).run p = .ok (log, q)) : ¬BufferRefused E p cs := by
  induction cs generalizing p log with
  | nil => exact id
  | cons c cs ih =>
    obtain ⟨res, r, log', hc, hcs, rfl⟩ := Exec.traced_cons h
    rw [bufferRefused_cons hc, not_or]
    exact ⟨fun hrefused => (Call.perform_refused hc hrefused).2.1 hd,
      ih (Call.perform_dangling hd hc) hcs⟩

theorem traced_surplus (h : (Exec.traced (Call.perform E) cs).run p = .ok (log, q)) :
    (¬BufferRefused E p cs → q.surplus = p.surplus) ∧
      (BufferRefused E p cs → q.surplus = p.surplus + sizeofTxdJSuperblock) := by
  induction cs generalizing p log with
  | nil =>
    cases h
    exact ⟨fun _ => rfl, fun hno => absurd hno id⟩
  | cons c cs ih =>
    obtain ⟨res, r, log', hc, hcs, rfl⟩ := Exec.traced_cons h
    rw [bufferRefused_cons hc]
    obtain ⟨hkeeps, hadds⟩ := ih hcs
    by_cases hrefused : c.Refused E p
    · obtain ⟨hsurplus, _, hd⟩ := Call.perform_refused hc hrefused
      refine ⟨fun hno => absurd (Or.inl hrefused) hno, fun _ => ?_⟩
      rw [hkeeps (traced_notRefused hd hcs), hsurplus]
    · have hsurplus := Call.perform_surplus hc hrefused
      rw [← hsurplus]
      exact ⟨fun hno => hkeeps fun hcs => hno (Or.inr hcs),
        fun hsome => hadds (hsome.resolve_left hrefused)⟩

theorem start_surplus (medium : Nat → Nat → Sector) : (Process.start medium).surplus = 0#64 := by
  have hbytes : (Process.start medium).data.liveBytes = 0 := Heap.liveBytes_of_dead fun _ => rfl
  rw [Process.surplus, hbytes]
  change (0 : BitVec 64) - BitVec.ofNat 64 0 = 0#64
  decide

/-- From a fresh process on, the counter is the size of all live blocks outside the registries,
unless a `tx_begin` has been refused its buffer; then it is 64 bytes more for the rest of the
run. -/
theorem traced_accounted {medium : Nat → Nat → Sector}
    (h : (Exec.traced (Call.perform E) cs).run (.start medium) = .ok (log, q)) :
    (¬BufferRefused E (.start medium) cs →
        q.allocatedMemSize = BitVec.ofNat 64 q.data.liveBytes) ∧
      (BufferRefused E (.start medium) cs →
        q.allocatedMemSize = BitVec.ofNat 64 q.data.liveBytes + sizeofTxdJSuperblock) := by
  have hsurplus : q.allocatedMemSize = BitVec.ofNat 64 q.data.liveBytes + q.surplus := by
    rw [Process.surplus, BitVec.add_comm, BitVec.sub_add_cancel]
  obtain ⟨hkeeps, hadds⟩ := traced_surplus h
  rw [start_surplus] at hkeeps hadds
  refine ⟨?_, ?_⟩
  · intro hno
    rw [hsurplus, hkeeps hno, BitVec.add_zero]
  · intro hsome
    rw [hsurplus, hadds hsome, BitVec.zero_add]

end Runs

theorem traced_accounted_formatted :
    ∃ log q, (Exec.traced (Call.perform .reliable) [.format 0 1024, .begin 0 1024]).run
        (.start (mediumOf (.formatted 1024))) = .ok (log, q) ∧
      q.allocatedMemSize = BitVec.ofNat 64 q.data.liveBytes := by
  obtain ⟨j, q, hrun⟩ := reliable_opens
  refine ⟨_, q, hrun, (traced_accounted hrun).1 ?_⟩
  rintro (hformat | ⟨_, _, _, hbegin | ⟨_, _, _, hnil⟩⟩)
  · exact hformat
  · exact hbegin rfl
  · exact hnil

end TxDriver
