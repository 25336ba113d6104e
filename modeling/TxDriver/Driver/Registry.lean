import TxDriver.Driver.Process

/-!
# The controller and namespace registries

The part of `txd_spdk.c` that keeps `g_controllers` and `g_namespaces`: two linked lists that a
probe extends at the front, that `cleanup` frees, and whose heads `cleanup` leaves as they are.
-/

namespace TxDriver

def sizeofCtrlrEntry : BitVec 64 := 1040#64
def sizeofNsEntry : BitVec 64 := 32#64

def loadNsEntry (a : Addr) : Driver NsEntry := fun p =>
  match p.heap.cells a with
  | some (_, .nsEntry e) => .ok (e, p)
  | _ => .error (.fault (.freedEntry a))

def loadCtrlrEntry (a : Addr) : Driver CtrlrEntry := fun p =>
  match p.heap.cells a with
  | some (_, .ctrlrEntry e) => .ok (e, p)
  | _ => .error (.fault (.freedEntry a))

/-- `*g_namespaces`, with its address. -/
def loadHead : Driver (Addr × NsEntry) := do
  let p ← Exec.get
  match p.gNamespaces with
  | none => Exec.stop (.fault .nullHead)
  | some a => do
    let e ← loadNsEntry a
    pure (a, e)

/-- `register_ns`. A new entry has no queue pair yet. -/
def registerNs (E : Platform) (ctrlr : Addr) (ns : ReportedNs) : Driver Unit :=
  if ns.active then do
    let p ← Exec.get
    match ← allocBlock E sizeofNsEntry (.nsEntry ⟨ctrlr, ns.id, p.gNamespaces, none⟩) with
    | none => Exec.stop (.exit 1)
    | some entry => Exec.modify fun p => { p with gNamespaces := some entry }
  else pure ()

def intMax : Nat := 2147483647

/-- `for (nsid = 1; nsid <= num_ns; nsid++)`, from `nsid` on. Both are of type `int`. -/
def registerFrom (E : Platform) (ctrlr : Addr) (c : ReportedCtrlr) : Nat → BitVec 32 → Driver Unit
  -- the increment of `INT_MAX` overflows, and the condition has not failed for any `int`
  | 0, _ => Exec.stop .hang
  | rounds + 1, nsid =>
    if nsid.sle c.numNs then
      match c.getNs nsid with
      | none => registerFrom E ctrlr c rounds (nsid + 1)
      | some ns => do
        registerNs E ctrlr ns
        registerFrom E ctrlr c rounds (nsid + 1)
    else pure ()

/-- The loop of `attach_cb` over the namespaces of a controller. -/
def registerAll (E : Platform) (ctrlr : Addr) (c : ReportedCtrlr) : Driver Unit :=
  registerFrom E ctrlr c intMax 1

def attachCb (E : Platform) (ctrlr : Addr) (c : ReportedCtrlr) : Driver Unit := do
  let p ← Exec.get
  match ← allocBlock E sizeofCtrlrEntry (.ctrlrEntry ⟨ctrlr, p.gControllers⟩) with
  | none => Exec.stop (.exit 1)
  | some entry => do
    Exec.modify fun p => { p with gControllers := some entry }
    registerAll E ctrlr c

/-- SPDK's own record of a controller that it attaches. -/
def newCtrlr : Driver Addr := fun p =>
  .ok (p.heap.next, { p with heap := p.heap.alloc 0 .ctrlr })

def attachAll (E : Platform) : List ReportedCtrlr → Driver Unit
  | [] => pure ()
  | c :: ctrlrs => do
    let ctrlr ← newCtrlr
    attachCb E ctrlr c
    attachAll E ctrlrs

/-- `spdk_nvme_probe` with the callbacks of the driver. -/
def spdkNvmeProbe (E : Platform) : Driver Int := do
  let p ← Exec.get
  Exec.modify fun p => { p with probes := p.probes + 1 }
  attachAll E (E.probe p.probes).ctrlrs
  pure (E.probe p.probes).rc

def freeEntry (a : Addr) : Driver Unit := fun p =>
  if p.heap.Live a then .ok ((), { p with heap := p.heap.free a })
  else .error (.fault (.entryFreedTwice a))

def spdkNvmeDetach (ctrlr : Addr) : Driver Unit := fun p =>
  match p.heap.cells ctrlr with
  | some (_, .ctrlr) => .ok ((), { p with heap := p.heap.free ctrlr })
  | _ => .error (.fault (.detachedTwice ctrlr))

/-- The first loop of `cleanup`. Every round frees a block, so no list can exhaust a `fuel` above
the number of blocks. -/
def freeNsEntries : Nat → Option Addr → Driver Unit
  | _, none => pure ()
  | 0, some _ => Exec.stop .hang
  | fuel + 1, some a => do
    let e ← loadNsEntry a
    freeEntry a
    freeNsEntries fuel e.next

def detachCtrlrEntries : Nat → Option Addr → Driver Unit
  | _, none => pure ()
  | 0, some _ => Exec.stop .hang
  | fuel + 1, some a => do
    let e ← loadCtrlrEntry a
    spdkNvmeDetach e.ctrlr
    freeEntry a
    detachCtrlrEntries fuel e.next

def cleanup : Driver Unit := do
  let p ← Exec.get
  freeNsEntries (p.heap.next + 1) p.gNamespaces
  detachCtrlrEntries (p.heap.next + 1) p.gControllers

/-- `spdk_init`. The result of `spdk_env_init` is dropped there; what a failure of it does to the
probe is up to the platform. -/
def spdkInit (E : Platform) : Driver Int := do
  let rc ← spdkNvmeProbe E
  if rc ≠ 0 then do
    cleanup
    pure txdFail
  else do
    let p ← Exec.get
    if p.gControllers = none then do
      cleanup
      pure txdFail
    else pure txdSuccess

def spdkAllocQpair (E : Platform) : Driver Int := do
  let (a, e) ← loadHead
  let p ← Exec.get
  let qpair := if E.allocsQpair p.qpairs then some p.qpairs else none
  Exec.modify fun p =>
    { p with qpairs := p.qpairs + 1, heap := p.heap.set a (.nsEntry { e with qpair := qpair }) }
  pure (if qpair = none then txdFail else txdSuccess)

def spdkFree (E : Platform) : Driver Int := do
  let (_, e) ← loadHead
  let p ← Exec.get
  Exec.modify fun p => { p with qpairFrees := p.qpairFrees + 1 }
  pure (E.freeQpair p.qpairFrees e.qpair)

def nsLink : Obj → Option (Option Addr)
  | .nsEntry e => some e.next
  | _ => none

def ctrlrLink : Obj → Option (Option Addr)
  | .ctrlrEntry e => some e.next
  | _ => none

def ctrlrOf (h : Heap Obj) (a : Addr) : Option Addr :=
  match h.cells a with
  | some (_, .ctrlrEntry e) => some e.ctrlr
  | _ => none

/-- The blocks of a list of entries, in the order of the second loop of `cleanup`. -/
def ctrlrBlocks (h : Heap Obj) (cs : List Addr) : List Addr :=
  cs.flatMap fun a => (ctrlrOf h a).toList ++ [a]

/-- The entries `cs` name attached controllers, each its own. -/
structure Attached (h : Heap Obj) (cs : List Addr) : Prop where
  live : ∀ a ∈ cs, ∃ c n, ctrlrOf h a = some c ∧ h.cells c = some (n, .ctrlr)
  distinct : (cs.map (ctrlrOf h)).Nodup

section Controllers

variable {h h' : Heap Obj} {cs : List Addr} {a c : Addr}

theorem ctrlrOf_entry {n : Nat} {e : CtrlrEntry} (ha : h.cells a = some (n, .ctrlrEntry e)) :
    ctrlrOf h a = some e.ctrlr := by
  simp only [ctrlrOf, ha]

theorem ctrlrOf_eq_some (ha : ctrlrOf h a = some c) :
    ∃ n e, h.cells a = some (n, .ctrlrEntry e) ∧ e.ctrlr = c := by
  simp only [ctrlrOf] at ha
  split at ha
  · rename_i n e hc
    exact ⟨n, e, hc, Option.some.inj ha⟩
  · cases ha

theorem ctrlrOf_mono (hk : ∀ x c, h.cells x = some c → h'.cells x = some c)
    (ha : ctrlrOf h a = some c) : ctrlrOf h' a = some c := by
  obtain ⟨n, e, hc, he⟩ := ctrlrOf_eq_some ha
  rw [ctrlrOf_entry (hk _ _ hc), he]

theorem ctrlrBlocks_cons (ha : ctrlrOf h a = some c) :
    ctrlrBlocks h (a :: cs) = c :: a :: ctrlrBlocks h cs := by
  simp [ctrlrBlocks, ha]

theorem ctrlrBlocks_congr (hk : ∀ x ∈ cs, h'.cells x = h.cells x) :
    ctrlrBlocks h' cs = ctrlrBlocks h cs := by
  apply List.flatMap_congr
  intro x hx
  rw [ctrlrOf, ctrlrOf, hk x hx]

theorem nsLink_of_ctrlrLink {b : Obj} {g : Option Addr} (hb : ctrlrLink b = some g) :
    nsLink b = none := by
  cases b <;> first | rfl | exact nomatch hb

theorem ne_ctrlr {n m : Nat} {e : CtrlrEntry} (ha : h.cells a = some (n, .ctrlrEntry e))
    (hc : h.cells c = some (m, .ctrlr)) : a ≠ c := by
  intro heq
  subst heq
  rw [ha] at hc
  cases hc

theorem Attached.tail (ha : Attached h (a :: cs)) : Attached h cs where
  live x hx := ha.live x (List.mem_cons_of_mem _ hx)
  distinct := (List.nodup_cons.mp ha.distinct).2

theorem Attached.cell_mono (ha : Attached h cs)
    (hk : ∀ x c, h.cells x = some c → h'.cells x = some c) (hx : a ∈ cs)
    (hof : ctrlrOf h' a = some c) : ∃ n, h.cells c = some (n, .ctrlr) := by
  obtain ⟨c', n, hof', hc⟩ := ha.live a hx
  have hsame := ctrlrOf_mono hk hof'
  rw [hof] at hsame
  cases hsame
  exact ⟨n, hc⟩

theorem Attached.cell (ha : Attached h cs) (hx : a ∈ cs) (hof : ctrlrOf h a = some c) :
    ∃ n, h.cells c = some (n, .ctrlr) := ha.cell_mono (fun _ _ hc => hc) hx hof

theorem Attached.cons {m : Nat} (ha : Attached h cs) (hof : ctrlrOf h a = some c)
    (hc : h.cells c = some (m, .ctrlr)) (hnew : ∀ x ∈ cs, ctrlrOf h x ≠ some c) :
    Attached h (a :: cs) where
  live x hx := by
    rcases List.mem_cons.mp hx with rfl | hx
    · exact ⟨c, m, hof, hc⟩
    · exact ha.live x hx
  distinct := by
    rw [List.map_cons, List.nodup_cons]
    refine ⟨?_, ha.distinct⟩
    intro hm
    obtain ⟨x, hx, hxc⟩ := List.mem_map.mp hm
    exact hnew x hx (hxc.trans hof)

theorem Attached.of_kept (ha : Attached h cs) (hk : ∀ x ∈ cs, h'.cells x = h.cells x)
    (hc : ∀ x ∈ cs, ∀ c, ctrlrOf h x = some c → h'.cells c = h.cells c) : Attached h' cs := by
  have hof (x : Addr) (hx : x ∈ cs) : ctrlrOf h' x = ctrlrOf h x := by
    simp only [ctrlrOf, hk x hx]
  refine ⟨?_, ?_⟩
  · intro x hx
    obtain ⟨c, n, hxc, hcell⟩ := ha.live x hx
    exact ⟨c, n, (hof x hx).trans hxc, (hc x hx c hxc).trans hcell⟩
  · rw [List.map_congr_left hof]
    exact ha.distinct

theorem Attached.mono (ha : Attached h cs)
    (hk : ∀ x c, h.cells x = some c → h'.cells x = some c) : Attached h' cs := by
  refine ha.of_kept ?_ ?_
  · intro x hx
    obtain ⟨c, n, hxc, _⟩ := ha.live x hx
    obtain ⟨k, e, hcell, _⟩ := ctrlrOf_eq_some hxc
    rw [hcell, hk x _ hcell]
  · intro x hx c hxc
    obtain ⟨n, hcell⟩ := ha.cell hx hxc
    rw [hcell, hk c _ hcell]

theorem Attached.detach {n m : Nat} {e : CtrlrEntry} (ha : Attached h (a :: cs)) (hn : a ∉ cs)
    (hcell : h.cells a = some (n, .ctrlrEntry e)) (hc : h.cells e.ctrlr = some (m, .ctrlr)) :
    (∀ x ∈ cs, ((h.free e.ctrlr).free a).cells x = h.cells x) ∧
      Attached ((h.free e.ctrlr).free a) cs := by
  have hkept (x : Addr) (hx : x ∈ cs) : ((h.free e.ctrlr).free a).cells x = h.cells x := by
    have hxa : x ≠ a := fun h => hn (h ▸ hx)
    obtain ⟨c, _, hof, _⟩ := ha.live x (List.mem_cons_of_mem _ hx)
    obtain ⟨k, e', hxcell, _⟩ := ctrlrOf_eq_some hof
    have hxc : x ≠ e.ctrlr := ne_ctrlr hxcell hc
    rw [Heap.cells_free_of_ne hxa, Heap.cells_free_of_ne hxc]
  have hdistinct := ha.distinct
  rw [List.map_cons, List.nodup_cons, ctrlrOf_entry hcell] at hdistinct
  refine ⟨hkept, ha.tail.of_kept hkept ?_⟩
  intro x hx c hof
  obtain ⟨k, hc'⟩ := ha.tail.cell hx hof
  have hca : a ≠ c := ne_ctrlr hcell hc'
  have hcc : c ≠ e.ctrlr := by
    intro heq
    subst heq
    exact hdistinct.1 (List.mem_map.mpr ⟨x, hx, hof⟩)
  rw [Heap.cells_free_of_ne hca.symm, Heap.cells_free_of_ne hcc]

end Controllers

/-- Both registries are lists of live entries, down to their ends. -/
def Process.Registered (p : Process) : Prop :=
  ∃ ns cs, Heap.Chain nsLink p.heap p.gNamespaces ns ∧
    Heap.Chain ctrlrLink p.heap p.gControllers cs ∧ Attached p.heap cs

/-- The namespace registry runs into a freed entry. -/
def Process.Dangling (p : Process) : Prop := Heap.Dangling nsLink p.heap p.gNamespaces

theorem Process.Dangling.not_registered {p : Process} (h : p.Dangling) : ¬p.Registered := by
  intro hr
  rcases hr with ⟨_, _, hns, _⟩
  exact h.not_chain hns

def Process.Head (p : Process) (a : Addr) (e : NsEntry) : Prop :=
  p.gNamespaces = some a ∧ ∃ n, p.heap.cells a = some (n, .nsEntry e)

def Process.HeadLive (p : Process) : Prop := ∃ a e, p.Head a e

def Process.headQpair (p : Process) : Option Nat :=
  match p.gNamespaces with
  | none => none
  | some a =>
    match p.heap.cells a with
    | some (_, .nsEntry e) => e.qpair
    | _ => none

/-- The head is null or points at a freed entry. -/
def Process.HeadDead (p : Process) : Prop :=
  ∀ a, p.gNamespaces = some a → a < p.heap.next ∧ p.heap.cells a = none

theorem Process.HeadDead.not_headLive {p : Process} (h : p.HeadDead) : ¬p.HeadLive := by
  intro hlive
  rcases hlive with ⟨a, e, hg, n, hc⟩
  rw [(h a hg).2] at hc
  cases hc

theorem loadNsEntry_cases (p : Process) (a : Addr) :
    (∃ n e, p.heap.cells a = some (n, .nsEntry e) ∧ (loadNsEntry a).run p = .ok (e, p)) ∨
      (loadNsEntry a).run p = .error (.fault (.freedEntry a)) := by
  simp only [loadNsEntry, Exec.run]
  split
  · rename_i n e hc
    exact Or.inl ⟨n, e, hc, rfl⟩
  · exact Or.inr rfl

theorem loadCtrlrEntry_cases (p : Process) (a : Addr) :
    (∃ n e, p.heap.cells a = some (n, .ctrlrEntry e) ∧ (loadCtrlrEntry a).run p = .ok (e, p)) ∨
      (loadCtrlrEntry a).run p = .error (.fault (.freedEntry a)) := by
  simp only [loadCtrlrEntry, Exec.run]
  split
  · rename_i n e hc
    exact Or.inl ⟨n, e, hc, rfl⟩
  · exact Or.inr rfl

theorem spdkNvmeDetach_cases (p : Process) (c : Addr) :
    (∃ n, p.heap.cells c = some (n, .ctrlr) ∧
        (spdkNvmeDetach c).run p = .ok ((), { p with heap := p.heap.free c })) ∨
      (spdkNvmeDetach c).run p = .error (.fault (.detachedTwice c)) := by
  simp only [spdkNvmeDetach, Exec.run]
  split
  · rename_i n hc
    exact Or.inl ⟨n, hc, rfl⟩
  · exact Or.inr rfl

theorem freeEntry_live {p : Process} {a : Addr} (h : p.heap.Live a) :
    (freeEntry a).run p = .ok ((), { p with heap := p.heap.free a }) := if_pos h

section Heads

variable {p q : Process} {a : Addr} {e : NsEntry}

theorem Process.Head.unique {a' : Addr} {e' : NsEntry} (h : p.Head a e) (h' : p.Head a' e') :
    e' = e := by
  obtain ⟨hg, n, hc⟩ := h
  obtain ⟨hg', n', hc'⟩ := h'
  rw [hg] at hg'
  cases hg'
  rw [hc] at hc'
  cases hc'
  rfl

theorem Process.Head.headQpair (h : p.Head a e) : p.headQpair = e.qpair := by
  obtain ⟨hg, n, hc⟩ := h
  simp only [Process.headQpair, hg, hc]

theorem headQpair_congr (hg : q.gNamespaces = p.gNamespaces) (hc : q.heap.cells = p.heap.cells) :
    q.headQpair = p.headQpair := by
  simp only [Process.headQpair, hg, hc]

theorem loadHead_run (h : p.Head a e) : loadHead.run p = .ok ((a, e), p) := by
  obtain ⟨hg, n, hc⟩ := h
  have hload : (loadNsEntry a).run p = .ok (e, p) := by
    simp only [loadNsEntry, Exec.run, hc]
  rw [loadHead]
  apply Exec.run_seq (Exec.run_get p)
  simp only [hg]
  apply Exec.run_seq hload
  rfl

theorem loadHead_fault (h : ¬p.HeadLive) :
    ∃ f, loadHead.run p = .error (.fault f) ∧ f.OfRegistry := by
  rw [loadHead, Exec.run_bind_ok _ (Exec.run_get p)]
  cases hg : p.gNamespaces with
  | none => exact ⟨.nullHead, rfl, trivial⟩
  | some a =>
    rcases loadNsEntry_cases p a with ⟨n, e, hc, _⟩ | hfault
    · exact absurd ⟨a, e, hg, n, hc⟩ h
    · exact ⟨.freedEntry a, Exec.run_bind_error _ hfault, trivial⟩

end Heads

section Teardown

variable {p q : Process} {g : Option Addr} {fuel : Nat}

theorem freeNsEntries_succ {a : Addr} {n : Nat} {e : NsEntry}
    (h : p.heap.cells a = some (n, .nsEntry e)) :
    (freeNsEntries (fuel + 1) (some a)).run p =
      (freeNsEntries fuel e.next).run { p with heap := p.heap.free a } := by
  have hload : (loadNsEntry a).run p = .ok (e, p) := by
    simp only [loadNsEntry, Exec.run, h]
  have hlive : p.heap.Live a := by
    rw [Heap.Live, h]
    rfl
  rw [freeNsEntries]
  apply Exec.run_seq hload
  exact Exec.run_bind_ok _ (freeEntry_live hlive)

theorem freeNsEntries_chain {l : List Addr} (hl : Heap.Chain nsLink p.heap g l)
    (hf : l.length ≤ fuel) :
    (freeNsEntries fuel g).run p = .ok ((), { p with heap := p.heap.freeAll l }) := by
  induction l generalizing p g fuel with
  | nil =>
    cases hl
    rw [freeNsEntries]
    rfl
  | cons a l ih =>
    have hnodup := hl.nodup
    rw [List.nodup_cons] at hnodup
    cases hl with
    | @cons _ n b g' _ cell step rest =>
    cases b with
    | nsEntry e =>
      cases step
      cases fuel with
      | zero => exact absurd hf (Nat.not_succ_le_zero _)
      | succ fuel =>
        rw [freeNsEntries_succ cell]
        apply ih (p := { p with heap := p.heap.free a })
        · apply rest.mono
          intro x hx c hc
          have hne : x ≠ a := fun h => hnodup.1 (h ▸ hx)
          rw [Heap.cells_free_of_ne hne, hc]
        · exact Nat.le_of_succ_le_succ hf
    | _ => exact nomatch step

/-- Only a list of live entries is freed without a fault, and no loop runs forever. -/
theorem freeNsEntries_cases (hf : p.heap.liveBlocks.card < fuel) :
    (∃ l, Heap.Chain nsLink p.heap g l) ∨
      ∃ f, (freeNsEntries fuel g).run p = .error (.fault f) ∧ f.OfRegistry := by
  induction fuel generalizing p g with
  | zero => exact absurd hf (Nat.not_lt_zero _)
  | succ fuel ih =>
    cases g with
    | none => exact Or.inl ⟨[], .nil⟩
    | some a =>
      rcases loadNsEntry_cases p a with ⟨n, e, hc, _⟩ | hfault
      · have hlive : p.heap.Live a := by
          rw [Heap.Live, hc]
          rfl
        have hfewer : (p.heap.free a).liveBlocks.card < fuel :=
          Nat.lt_of_lt_of_le (Heap.card_liveBlocks_free hlive) (Nat.le_of_lt_succ hf)
        rw [freeNsEntries_succ hc]
        rcases ih (p := { p with heap := p.heap.free a }) (g := e.next) hfewer with ⟨l, hl⟩ | hfault
        · refine Or.inl ⟨a :: l, .cons hc rfl (hl.mono ?_)⟩
          intro x _ c hx
          exact Heap.cells_free_le hx
        · exact Or.inr hfault
      · refine Or.inr ⟨.freedEntry a, ?_, trivial⟩
        rw [freeNsEntries, Exec.run_bind_error _ hfault]

theorem detachCtrlrEntries_succ {a : Addr} {n m : Nat} {e : CtrlrEntry}
    (h : p.heap.cells a = some (n, .ctrlrEntry e)) (hc : p.heap.cells e.ctrlr = some (m, .ctrlr)) :
    (detachCtrlrEntries (fuel + 1) (some a)).run p =
      (detachCtrlrEntries fuel e.next).run
        { p with heap := (p.heap.free e.ctrlr).free a } := by
  have hload : (loadCtrlrEntry a).run p = .ok (e, p) := by
    simp only [loadCtrlrEntry, Exec.run, h]
  have hdetach : (spdkNvmeDetach e.ctrlr).run p =
      .ok ((), { p with heap := p.heap.free e.ctrlr }) := by
    simp only [spdkNvmeDetach, Exec.run, hc]
  have hne : a ≠ e.ctrlr := ne_ctrlr h hc
  have hlive : (p.heap.free e.ctrlr).Live a := by
    rw [Heap.Live, Heap.cells_free_of_ne hne, h]
    rfl
  rw [detachCtrlrEntries]
  apply Exec.run_seq hload
  apply Exec.run_seq hdetach
  exact Exec.run_bind_ok _ (freeEntry_live hlive)

theorem detachCtrlrEntries_chain {l : List Addr} (hl : Heap.Chain ctrlrLink p.heap g l)
    (ha : Attached p.heap l) (hf : l.length ≤ fuel) :
    (detachCtrlrEntries fuel g).run p =
      .ok ((), { p with heap := p.heap.freeAll (ctrlrBlocks p.heap l) }) := by
  induction l generalizing p g fuel with
  | nil =>
    cases hl
    rw [detachCtrlrEntries]
    rfl
  | cons a l ih =>
    have hnodup := hl.nodup
    rw [List.nodup_cons] at hnodup
    cases hl with
    | @cons _ n b g' _ cell step rest =>
    cases b with
    | ctrlrEntry e =>
      cases step
      obtain ⟨c, m, hof, hc⟩ := ha.live a (List.mem_cons_self ..)
      rw [ctrlrOf_entry cell] at hof
      cases hof
      cases fuel with
      | zero => exact absurd hf (Nat.not_succ_le_zero _)
      | succ fuel =>
        obtain ⟨hkept, htail⟩ := ha.detach hnodup.1 cell hc
        have hrest : Heap.Chain ctrlrLink ((p.heap.free e.ctrlr).free a) e.next l := by
          apply rest.mono
          intro x hx c hxc
          exact (hkept x hx).trans hxc
        rw [detachCtrlrEntries_succ cell hc,
          ih (p := { p with heap := (p.heap.free e.ctrlr).free a }) hrest htail
            (Nat.le_of_succ_le_succ hf),
          ctrlrBlocks_cons (ctrlrOf_entry cell), ctrlrBlocks_congr hkept]
        rfl
    | _ => exact nomatch step

theorem detachCtrlrEntries_cases (hf : p.heap.liveBlocks.card < fuel) :
    (∃ l, Heap.Chain ctrlrLink p.heap g l ∧ Attached p.heap l) ∨
      ∃ f, (detachCtrlrEntries fuel g).run p = .error (.fault f) ∧ f.OfRegistry := by
  induction fuel generalizing p g with
  | zero => exact absurd hf (Nat.not_lt_zero _)
  | succ fuel ih =>
    cases g with
    | none => exact Or.inl ⟨[], .nil, nofun, List.nodup_nil⟩
    | some a =>
      rcases loadCtrlrEntry_cases p a with ⟨n, e, hcell, hload⟩ | hfault
      swap
      · refine Or.inr ⟨.freedEntry a, ?_, trivial⟩
        rw [detachCtrlrEntries, Exec.run_bind_error _ hfault]
      rcases spdkNvmeDetach_cases p e.ctrlr with ⟨m, hc, _⟩ | hfault
      swap
      · refine Or.inr ⟨.detachedTwice e.ctrlr, ?_, trivial⟩
        rw [detachCtrlrEntries]
        apply Exec.run_seq hload
        rw [Exec.run_bind_error _ hfault]
      have hne : a ≠ e.ctrlr := ne_ctrlr hcell hc
      have hlive : p.heap.Live e.ctrlr := by
        rw [Heap.Live, hc]
        rfl
      have hlive' : (p.heap.free e.ctrlr).Live a := by
        rw [Heap.Live, Heap.cells_free_of_ne hne, hcell]
        rfl
      have hfewer : ((p.heap.free e.ctrlr).free a).liveBlocks.card < fuel := by
        have h₁ := Heap.card_liveBlocks_free hlive
        have h₂ := Heap.card_liveBlocks_free hlive'
        omega
      have hback (x : Addr) (c : Nat × Obj)
          (hx : ((p.heap.free e.ctrlr).free a).cells x = some c) : p.heap.cells x = some c :=
        Heap.cells_free_le (Heap.cells_free_le hx)
      rw [detachCtrlrEntries_succ hcell hc]
      rcases ih (p := { p with heap := (p.heap.free e.ctrlr).free a }) (g := e.next) hfewer with
        ⟨l, hl, ha⟩ | hfault
      swap
      · exact Or.inr hfault
      refine Or.inl ⟨a :: l, .cons hcell rfl (hl.mono fun x _ => hback x), ?_⟩
      refine (ha.mono hback).cons (ctrlrOf_entry hcell) hc ?_
      intro x hx hof
      obtain ⟨k, hcx⟩ := ha.cell_mono hback hx hof
      have hdead := Heap.cells_free_le hcx
      rw [Heap.cells_free_self] at hdead
      cases hdead

/-- `cleanup` frees the entries of both registries and detaches the controllers. A second free of
one of them would be a fault. -/
theorem cleanup_chains {ns cs : List Addr} (hns : Heap.Chain nsLink p.heap p.gNamespaces ns)
    (hcs : Heap.Chain ctrlrLink p.heap p.gControllers cs) (ha : Attached p.heap cs) :
    cleanup.run p =
      .ok ((), { p with heap := p.heap.freeAll (ns ++ ctrlrBlocks p.heap cs) }) := by
  have hlen : ns.length ≤ p.heap.next + 1 := Nat.le_succ_of_le hns.length_le
  have hlen' : cs.length ≤ p.heap.next + 1 := Nat.le_succ_of_le hcs.length_le
  have hkept {x : Addr} {k : Nat} {b : Obj} (hx : p.heap.cells x = some (k, b))
      (hb : nsLink b = none) : (p.heap.freeAll ns).cells x = p.heap.cells x := by
    apply Heap.cells_freeAll_of_not_mem
    intro hm
    obtain ⟨n, b', q, hc, hlink⟩ := hns.live hm
    rw [hx] at hc
    cases hc
    rw [hb] at hlink
    cases hlink
  have hentry (x : Addr) (hx : x ∈ cs) : (p.heap.freeAll ns).cells x = p.heap.cells x := by
    obtain ⟨n, b, q, hc, hlink⟩ := hcs.live hx
    exact hkept hc (nsLink_of_ctrlrLink hlink)
  have hcs' : Heap.Chain ctrlrLink (p.heap.freeAll ns) p.gControllers cs := by
    apply hcs.mono
    intro x hx c hc
    rw [hentry x hx, hc]
  have ha' : Attached (p.heap.freeAll ns) cs := by
    refine ha.of_kept hentry ?_
    intro x hx c hof
    obtain ⟨n, hc⟩ := ha.cell hx hof
    exact hkept hc rfl
  rw [cleanup]
  apply Exec.run_seq (Exec.run_get p)
  apply Exec.run_seq (freeNsEntries_chain hns hlen)
  rw [detachCtrlrEntries_chain (p := { p with heap := p.heap.freeAll ns }) hcs' ha' hlen',
    ctrlrBlocks_congr hentry, Heap.freeAll_append]

/-- Intact registries are torn down; the head is left pointing at a freed block. -/
theorem cleanup_registered (h : p.Registered) :
    ∃ heap, cleanup.run p = .ok ((), { p with heap := heap }) ∧ heap.next = p.heap.next ∧
      ∀ a, p.gNamespaces = some a → heap.cells a = none := by
  obtain ⟨ns, cs, hns, hcs, ha⟩ := h
  refine ⟨_, cleanup_chains hns hcs ha, Heap.next_freeAll _ _, ?_⟩
  intro a hhead
  rw [hhead] at hns
  cases hns
  exact Heap.cells_freeAll_of_mem (List.mem_cons_self ..)

theorem cleanup_fault (h : ¬p.Registered) :
    ∃ f, cleanup.run p = .error (.fault f) ∧ f.OfRegistry := by
  have hcard : p.heap.liveBlocks.card < p.heap.next + 1 :=
    Nat.lt_succ_of_le (Heap.card_liveBlocks_le _)
  rw [cleanup, Exec.run_bind_ok _ (Exec.run_get p)]
  rcases freeNsEntries_cases (p := p) (g := p.gNamespaces) hcard with ⟨ns, hns⟩ | ⟨f, hfault, hf⟩
  swap
  · exact ⟨f, Exec.run_bind_error _ hfault, hf⟩
  have hcard' : (p.heap.freeAll ns).liveBlocks.card < p.heap.next + 1 := by
    have hle := Heap.card_liveBlocks_le (p.heap.freeAll ns)
    rw [Heap.next_freeAll] at hle
    exact Nat.lt_succ_of_le hle
  rw [Exec.run_bind_ok _ (freeNsEntries_chain hns (Nat.le_succ_of_le hns.length_le))]
  rcases detachCtrlrEntries_cases (p := { p with heap := p.heap.freeAll ns })
    (g := p.gControllers) hcard' with ⟨cs, hcs, ha⟩ | hfault
  · have hback (x : Addr) (c : Nat × Obj) (hx : (p.heap.freeAll ns).cells x = some c) :
        p.heap.cells x = some c := Heap.cells_freeAll_le hx
    exact absurd ⟨ns, cs, hns, hcs.mono fun x _ => hback x, ha.mono hback⟩ h
  · exact hfault

end Teardown

end TxDriver
