import TxDriver.Driver.Probe

/-!
# A probe and its cleanup

The registries as the two lists that they stand for. `attach_cb` puts the controller in front of
one list and its active namespaces, the last one first, in front of the other. `cleanup` frees
the entries of both lists and detaches the controllers, so after a probe that started with empty
registries nothing of it is left.
-/

namespace TxDriver

def nsOf (h : Heap Obj) (a : Addr) : Option (Addr × Nat) :=
  match h.cells a with
  | some (_, .nsEntry e) => some (e.ctrlr, e.ns)
  | _ => none

/-- The active namespaces that are visited on the controllers `as`, in the order of their
discovery. -/
def discovered (as : List Addr) (ctrlrs : List ReportedCtrlr) : List (Addr × Nat) :=
  (as.zip ctrlrs).flatMap fun c => (activeIds c.2.visited).map fun id => (c.1, id)

/-- An `int` can count the namespaces of the controller. -/
def ReportedCtrlr.Counted (c : ReportedCtrlr) : Prop := c.numNs.toNat < intMax

instance (c : ReportedCtrlr) : Decidable c.Counted := inferInstanceAs (Decidable (_ < _))

def ReportedCtrlr.namespaces (c : ReportedCtrlr) : List (Option ReportedNs) :=
  (List.range' 1 c.numNs.toNat).map fun nsid => c.getNs (.ofNat 32 nsid)

/-- The present, active namespaces of the controllers `as`, each with its controller. -/
def namespacesOf (as : List Addr) (ctrlrs : List ReportedCtrlr) : List (Addr × Nat) :=
  (as.zip ctrlrs).flatMap fun c => (activeIds c.2.namespaces).map fun id => (c.1, id)

/-- The registries of `p`, from their heads: the entries `ns` with the controllers and namespaces
`pairs`, and the entries `cs` with the attached controllers `as`. -/
structure Process.Holds (p : Process) (ns : List Addr) (pairs : List (Addr × Nat))
    (cs as : List Addr) : Prop where
  namespaces : Heap.Chain nsLink p.heap p.gNamespaces ns
  pairs : ns.map (nsOf p.heap) = pairs.map some
  controllers : Heap.Chain ctrlrLink p.heap p.gControllers cs
  owners : cs.map (ctrlrOf p.heap) = as.map some
  live : ∀ c ∈ as, ∃ n, p.heap.cells c = some (n, .ctrlr)
  distinct : as.Nodup

section Holding

variable {E : Platform} {p q : Process} {ns cs as : List Addr} {pairs : List (Addr × Nat)}

theorem ReportedCtrlr.Counted.count_eq {c : ReportedCtrlr} (h : c.Counted) :
    c.count = c.numNs.toNat := by
  rw [ReportedCtrlr.Counted, intMax] at h
  rw [ReportedCtrlr.count, BitVec.toInt_eq_toNat_of_lt (by omega), Int.toNat_natCast]

theorem ReportedCtrlr.Counted.visited_eq {c : ReportedCtrlr} (h : c.Counted) :
    c.visited = c.namespaces := by
  rw [visited, visitedFrom, h.count_eq]
  rfl

theorem ReportedCtrlr.Counted.ends {c : ReportedCtrlr} (h : c.Counted) : ¬c.Overflows := by
  rw [ReportedCtrlr.Overflows, h.count_eq]
  exact Nat.ne_of_lt h

theorem discovered_eq {ctrlrs : List ReportedCtrlr} (h : ∀ c ∈ ctrlrs, c.Counted) :
    discovered as ctrlrs = namespacesOf as ctrlrs := by
  apply List.flatMap_congr
  intro c hc
  rw [(h c.2 (List.of_mem_zip hc).2).visited_eq]

theorem nsOf_entry {h : Heap Obj} {a : Addr} {n : Nat} {e : NsEntry}
    (ha : h.cells a = some (n, .nsEntry e)) : nsOf h a = some (e.ctrlr, e.ns) := by
  simp only [nsOf, ha]

theorem Process.holds_empty (hn : p.gNamespaces = none) (hc : p.gControllers = none) :
    p.Holds [] [] [] [] where
  namespaces := by
    rw [hn]
    exact .nil
  pairs := rfl
  controllers := by
    rw [hc]
    exact .nil
  owners := rfl
  live := by simp
  distinct := List.nodup_nil

theorem Process.Holds.grows (h : p.Holds ns pairs cs as) (hg : p.heap.Grows q.heap) :
    Heap.Chain nsLink q.heap p.gNamespaces ns ∧ ns.map (nsOf q.heap) = pairs.map some ∧
      Heap.Chain ctrlrLink q.heap p.gControllers cs ∧ cs.map (ctrlrOf q.heap) = as.map some ∧
      ∀ c ∈ as, ∃ n, q.heap.cells c = some (n, .ctrlr) := by
  have hsame {link : Obj → Option (Option Addr)} {g : Option Addr} {l : List Addr} {a : Addr}
      (hl : Heap.Chain link p.heap g l) (ha : a ∈ l) : q.heap.cells a = p.heap.cells a := by
    obtain ⟨n, b, _, hc, _⟩ := hl.live ha
    rw [hc, hg.kept hc]
  refine ⟨h.namespaces.mono fun _ _ _ => hg.kept, ?_, h.controllers.mono fun _ _ _ => hg.kept,
    ?_, ?_⟩
  · rw [← h.pairs]
    apply List.map_congr_left
    intro a ha
    simp only [nsOf, hsame h.namespaces ha]
  · rw [← h.owners]
    apply List.map_congr_left
    intro a ha
    simp only [ctrlrOf, hsame h.controllers ha]
  · intro c hc
    obtain ⟨n, hcell⟩ := h.live c hc
    exact ⟨n, hg.kept hcell⟩

theorem Process.Holds.attached (h : p.Holds ns pairs cs as) : Attached p.heap cs where
  live a ha := by
    have hm : ctrlrOf p.heap a ∈ as.map some := by
      rw [← h.owners]
      exact List.mem_map_of_mem ha
    obtain ⟨c, hc, hof⟩ := List.mem_map.mp hm
    obtain ⟨n, hcell⟩ := h.live c hc
    exact ⟨c, n, hof.symm, hcell⟩
  distinct := by
    rw [h.owners]
    exact h.distinct.map (Option.some_injective _)

theorem ctrlrBlocks_perm {h : Heap Obj} (ho : cs.map (ctrlrOf h) = as.map some) :
    (ctrlrBlocks h cs).Perm (cs ++ as) := by
  induction cs generalizing as with
  | nil =>
    cases as with
    | nil => exact .refl _
    | cons c as => cases ho
  | cons a cs ih =>
    cases as with
    | nil => cases ho
    | cons c as =>
      obtain ⟨hof, ho⟩ := List.cons_eq_cons.mp ho
      rw [ctrlrBlocks_cons hof]
      have hperm := ih ho
      rw [List.perm_iff_count] at hperm ⊢
      intro x
      have hx := hperm x
      simp only [List.cons_append, List.count_cons, List.count_append] at hx ⊢
      omega

theorem Process.Holds.pushNs (h : p.Holds ns pairs cs as) (ctrlr : Addr) (id : Nat) :
    (p.pushNs ctrlr id).Holds (p.heap.next :: ns) ((ctrlr, id) :: pairs) cs as := by
  have hself := pushNs_entry p ctrlr id
  obtain ⟨hns, hpairs, hcs, howners, hlive⟩ := h.grows (pushNs_grows p ctrlr id)
  refine ⟨.cons hself rfl hns, ?_, hcs, howners, hlive, h.distinct⟩
  rw [List.map_cons, List.map_cons, hpairs, nsOf_entry hself]

theorem Process.Holds.pushCtrlr (h : p.Holds ns pairs cs as) :
    p.pushCtrlr.Holds ns pairs ((p.heap.next + 1) :: cs) (p.heap.next :: as) := by
  have hself := pushCtrlr_entry p
  obtain ⟨hns, hpairs, hcs, howners, hlive⟩ := h.grows (pushCtrlr_grows p)
  refine ⟨hns, hpairs, .cons hself rfl hcs, ?_, ?_, ?_⟩
  · rw [List.map_cons, List.map_cons, howners, ctrlrOf_entry hself]
  · intro c hc
    rcases List.mem_cons.mp hc with rfl | hc
    · exact ⟨0, pushCtrlr_ctrlr p⟩
    · exact hlive c hc
  · refine List.nodup_cons.mpr ⟨?_, h.distinct⟩
    intro hm
    obtain ⟨n, hcell⟩ := h.live _ hm
    rw [p.heap.fresh _ (Nat.le_refl _)] at hcell
    cases hcell

theorem Process.Holds.pushAll (h : p.Holds ns pairs cs as) (ctrlr : Addr) (ids : List Nat) :
    ∃ new, (p.pushAll ctrlr ids).Holds (new ++ ns) ((ids.map (ctrlr, ·)).reverse ++ pairs) cs as ∧
      p.heap.Adds (p.pushAll ctrlr ids).heap new := by
  induction ids generalizing p ns pairs with
  | nil => exact ⟨[], h, .refl _⟩
  | cons id ids ih =>
    obtain ⟨new, hnew, hadds⟩ := ih (h.pushNs ctrlr id)
    refine ⟨new ++ [p.heap.next], ?_, ((Heap.Adds.refl p.heap).alloc _ _).trans hadds⟩
    simpa using hnew

/-- A probe puts the entries for what it discovers in front of those that there are, and adds no
other block than these and the controllers, which are attached in the order of their addresses. -/
theorem Process.Holds.probed (h : p.Holds ns pairs cs as)
    (ctrlrs : List ReportedCtrlr) :
    ∃ ns' cs' as', as'.length = ctrlrs.length ∧ as'.Pairwise (· < ·) ∧
      (p.probed ctrlrs).Holds (ns' ++ ns) ((discovered as' ctrlrs).reverse ++ pairs) (cs' ++ cs)
        (as'.reverse ++ as) ∧
      p.heap.Adds (p.probed ctrlrs).heap (ns' ++ (cs' ++ as')) := by
  induction ctrlrs generalizing p ns pairs cs as with
  | nil => exact ⟨[], [], [], rfl, .nil, h, .refl _⟩
  | cons c ctrlrs ih =>
    let p₁ := p.pushCtrlr.pushAll p.heap.next (activeIds c.visited)
    obtain ⟨new, h₁, hadds₁⟩ := h.pushCtrlr.pushAll p.heap.next (activeIds c.visited)
    obtain ⟨ns', cs', as', hlen, hsorted, hq, hadds⟩ := ih h₁
    have hpush : p.heap.Adds p.pushCtrlr.heap [p.heap.next + 1, p.heap.next] :=
      ((Heap.Adds.refl p.heap).alloc _ _).alloc _ _
    refine ⟨ns' ++ new, cs' ++ [p.heap.next + 1], p.heap.next :: as', ?_, ?_, ?_, ?_⟩
    · simp [hlen]
    · refine List.pairwise_cons.mpr ⟨?_, hsorted⟩
      intro a ha
      have hle : p₁.heap.next ≤ a := hadds.new a (by simp [ha])
      have hlt : p.heap.next + 2 ≤ p₁.heap.next := hadds₁.next_le
      exact Nat.lt_of_lt_of_le (Nat.lt_of_lt_of_le (by simp) hlt) hle
    · simpa [discovered] using hq
    · refine ((hpush.trans hadds₁).trans hadds).perm ?_
      rw [List.perm_iff_count]
      intro x
      simp only [List.count_append, List.count_cons, List.count_nil]
      omega

/-- After a probe from empty registries, `cleanup` frees exactly the blocks of the probe, the
controllers' included. -/
theorem probed_cleanup (hn : p.gNamespaces = none) (hc : p.gControllers = none)
    (ctrlrs : List ReportedCtrlr) :
    let q := p.probed ctrlrs
    ∃ ns cs as freed, as.length = ctrlrs.length ∧ as.Pairwise (· < ·) ∧
      q.Holds ns (discovered as ctrlrs).reverse cs as.reverse ∧
      p.heap.Adds q.heap (ns ++ (cs ++ as)) ∧
      cleanup.run q = .ok ((), { q with heap := q.heap.freeAll freed }) ∧
      freed.Perm (ns ++ (cs ++ as)) ∧ freed.Nodup ∧
      (q.heap.freeAll freed).cells = p.heap.cells := by
  intro q
  obtain ⟨ns, cs, as, hlen, hsorted, hq, hadds⟩ := (Process.holds_empty hn hc).probed ctrlrs
  simp only [List.append_nil] at hq
  have hperm : (ns ++ ctrlrBlocks q.heap cs).Perm (ns ++ (cs ++ as)) := by
    refine List.Perm.append_left ns ?_
    exact (ctrlrBlocks_perm hq.owners).trans (as.reverse_perm.append_left cs)
  refine ⟨ns, cs, as, ns ++ ctrlrBlocks q.heap cs, hlen, hsorted, hq, hadds,
    cleanup_chains hq.namespaces hq.controllers hq.attached, hperm,
    hperm.nodup_iff.mpr hadds.nodup, (hadds.perm hperm.symm).cells_freeAll⟩

/-- A first initialisation that fails leaves no block behind. -/
theorem spdkInit_unwinds (hn : p.gNamespaces = none) (hc : p.gControllers = none)
    (hg : E.Attaches p.requests (E.probe p.probes).ctrlrs)
    (hfail : (E.probe p.probes).rc ≠ 0 ∨ (E.probe p.probes).ctrlrs = []) :
    ∃ q, (spdkInit E).run p = .ok (txdFail, q) ∧ q.heap.cells = p.heap.cells := by
  obtain ⟨_, _, _, freed, _, _, _, _, hrun, _, _, hcells⟩ :=
    probed_cleanup (p := { p with probes := p.probes + 1 }) hn hc (E.probe p.probes).ctrlrs
  refine ⟨{ p.afterProbe E with heap := (p.afterProbe E).heap.freeAll freed }, ?_, hcells⟩
  rw [spdkInit_cleanup hg (hfail.imp_right fun h => ⟨hc, h⟩)]
  apply Exec.run_seq hrun
  rfl

/-- From empty registries, a probe whose requests are granted leaves one entry for each attached
controller and one for each of its active namespaces with an id in `1 .. num_ns`, in reverse order,
and no other new block. `cleanup` then returns and has freed exactly these blocks, the controllers'
included: each of them once, since a second free or detach would have been a fault. -/
theorem attachAll_cleanup {ctrlrs : List ReportedCtrlr}
    (hn : p.gNamespaces = none) (hc : p.gControllers = none)
    (hcounted : ∀ c ∈ ctrlrs, c.Counted) (hg : E.Grants p.requests (attachRequests ctrlrs)) :
    ∃ q ns cs as freed, (attachAll E ctrlrs).run p = .ok ((), q) ∧
      as.length = ctrlrs.length ∧ as.Pairwise (· < ·) ∧
      q.Holds ns (namespacesOf as ctrlrs).reverse cs as.reverse ∧
      p.heap.Adds q.heap (ns ++ (cs ++ as)) ∧
      cleanup.run q = .ok ((), { q with heap := q.heap.freeAll freed }) ∧
      freed.Perm (ns ++ (cs ++ as)) ∧ freed.Nodup ∧
      (q.heap.freeAll freed).cells = p.heap.cells := by
  obtain ⟨ns, cs, as, freed, hprobed⟩ := probed_cleanup hn hc ctrlrs
  rw [discovered_eq hcounted] at hprobed
  have hends (c : ReportedCtrlr) (hc : c ∈ ctrlrs) : ¬c.Overflows := (hcounted c hc).ends
  exact ⟨p.probed ctrlrs, ns, cs, as, freed, attachAll_granted ⟨hg, hends⟩, hprobed⟩

def ReportedCtrlr.ofList (nss : List (Option ReportedNs)) : ReportedCtrlr where
  numNs := .ofNat 32 nss.length
  getNs nsid := if nsid = 0 then none else nss.getD (nsid.toNat - 1) none

theorem attachAll_cleanup_mixed :
    let ctrlrs := [ReportedCtrlr.ofList [none, some ⟨0, false⟩, some ⟨1, true⟩], .ofList [],
      .ofList [some ⟨2, true⟩, none, some ⟨3, true⟩]]
    ∃ q ns cs as freed,
      (attachAll .reliable ctrlrs).run (Process.start fun _ _ _ => 0) = .ok ((), q) ∧
      as.length = 3 ∧ as.Pairwise (· < ·) ∧
      q.Holds ns (namespacesOf as ctrlrs).reverse cs as.reverse ∧
      (Process.start fun _ _ _ => 0).heap.Adds q.heap (ns ++ (cs ++ as)) ∧
      cleanup.run q = .ok ((), { q with heap := q.heap.freeAll freed }) ∧
      freed.Perm (ns ++ (cs ++ as)) ∧ freed.Nodup ∧
      (q.heap.freeAll freed).cells = (Process.start fun _ _ _ => 0).heap.cells := by
  intro ctrlrs
  have hcounted : ∀ c ∈ ctrlrs, c.Counted := by decide
  exact attachAll_cleanup rfl rfl hcounted (Platform.grants_of_allocates (fun _ _ => rfl) _ _)

/-- A count of 2 ^ 31 is a negative `int`: none of the namespaces is registered. -/
theorem attachAll_uncounted :
    ¬∀ (E : Platform) (p : Process) (ctrlrs : List ReportedCtrlr), p.gNamespaces = none →
      p.gControllers = none → E.Grants p.requests (attachRequests ctrlrs) →
      ∃ q ns cs as, (attachAll E ctrlrs).run p = .ok ((), q) ∧ as.length = ctrlrs.length ∧
        q.Holds ns (namespacesOf as ctrlrs).reverse cs as.reverse := by
  intro h
  let c : ReportedCtrlr := ⟨0x80000000, fun nsid => if nsid = 1 then some ⟨0, true⟩ else none⟩
  have hvisited : c.visited = [] := c.visitedFrom_nil (by decide)
  obtain ⟨q, ns, cs, as, hrun, hlen, hholds⟩ := h .reliable (.start fun _ _ _ => 0) [c] rfl rfl
    (Platform.grants_of_allocates (fun _ _ => rfl) _ _)
  have hends : ∀ c' ∈ [c], ¬c'.Overflows := by decide
  have hattaches : Platform.reliable.Attaches 0 [c] :=
    ⟨Platform.grants_of_allocates (fun _ _ => rfl) _ _, hends⟩
  rw [attachAll_granted (p := .start fun _ _ _ => 0) hattaches, probed_cons, hvisited] at hrun
  cases hrun
  have hchain := hholds.namespaces
  have hpairs := hholds.pairs
  cases hchain
  obtain ⟨a, rfl⟩ := List.length_eq_one_iff.mp hlen
  have hnss : c.namespaces = some ⟨0, true⟩ :: (List.range' 2 intMax).map fun nsid =>
      c.getNs (.ofNat 32 nsid) := by
    rw [ReportedCtrlr.namespaces, show c.numNs.toNat = intMax + 1 from rfl, List.range'_succ]
    rfl
  simp [namespacesOf, hnss, activeIds] at hpairs

end Holding

end TxDriver
