import TxDriver.Driver.Registry

/-!
# Probing for controllers

What a probe does to the registries. When every entry can be allocated and the loops over the
namespaces end, the registries are extended at their fronts and stay intact if they were; the last
active namespace that is reported becomes the head. Otherwise the probe does not return.
-/

namespace TxDriver

def activeIds (nss : List (Option ReportedNs)) : List Nat :=
  nss.filterMap fun ns => ns.bind fun ns => if ns.active then some ns.id else none

def nsRequests (nss : List (Option ReportedNs)) : List (BitVec 64) :=
  (activeIds nss).map fun _ => sizeofNsEntry

/-- The last id that the loop of `attach_cb` visits: the count as an `int`, and zero for a negative
one. -/
def ReportedCtrlr.count (c : ReportedCtrlr) : Nat := c.numNs.toInt.toNat

def ReportedCtrlr.visitedFrom (c : ReportedCtrlr) (nsid : Nat) : List (Option ReportedNs) :=
  (List.range' nsid (c.count + 1 - nsid)).map fun nsid => c.getNs (.ofNat 32 nsid)

def ReportedCtrlr.visited (c : ReportedCtrlr) : List (Option ReportedNs) := c.visitedFrom 1

/-- No `int` is above the count. -/
def ReportedCtrlr.Overflows (c : ReportedCtrlr) : Prop := c.count = intMax

instance (c : ReportedCtrlr) : Decidable c.Overflows := inferInstanceAs (Decidable (_ = _))

def attachIds (ctrlrs : List ReportedCtrlr) : List Nat :=
  ctrlrs.flatMap fun c => activeIds c.visited

def attachRequests (ctrlrs : List ReportedCtrlr) : List (BitVec 64) :=
  ctrlrs.flatMap fun c => sizeofCtrlrEntry :: nsRequests c.visited

/-- A probe that attaches `ctrlrs` gets its entries, and its loops end. -/
def Platform.Attaches (E : Platform) (k : Nat) (ctrlrs : List ReportedCtrlr) : Prop :=
  E.Grants k (attachRequests ctrlrs) ∧ ∀ c ∈ ctrlrs, ¬c.Overflows

/-- `q` is `p` with further entries at the fronts of its registries; `ids` are the namespaces
among them. -/
structure Process.Extends (p q : Process) (ids : List Nat) : Prop where
  grows : p.heap.Grows q.heap
  registered : p.Registered → q.Registered
  dangling : p.Dangling → q.Dangling
  head : match ids.getLast? with
    | none => q.gNamespaces = p.gNamespaces
    | some id => ∃ a e, q.Head a e ∧ e.ns = id
  controllers : p.gControllers ≠ none → q.gControllers ≠ none
  rest : q = { p with
    heap := q.heap
    gControllers := q.gControllers
    gNamespaces := q.gNamespaces
    requests := q.requests
    probes := q.probes }

section Extensions

variable {E : Platform} {p q r : Process} {ids ids' : List Nat}

theorem Process.Head.mono {a : Addr} {e : NsEntry} (h : p.Head a e)
    (hg : q.gNamespaces = p.gNamespaces) (hh : p.heap.Grows q.heap) : q.Head a e := by
  obtain ⟨hp, n, hc⟩ := h
  exact ⟨hg.trans hp, n, hh.kept hc⟩

theorem Process.HeadDead.mono (h : p.HeadDead) (hg : q.gNamespaces = p.gNamespaces)
    (hh : p.heap.Grows q.heap) : q.HeadDead := by
  intro a ha
  obtain ⟨hlt, hdead⟩ := h a (hg.symm.trans ha)
  exact ⟨Nat.lt_of_lt_of_le hlt hh.next_le, (hh.same a hlt).trans hdead⟩

theorem Process.Extends.refl (p : Process) : p.Extends p [] where
  grows := .refl p.heap
  registered h := h
  dangling h := h
  head := rfl
  controllers h := h
  rest := rfl

theorem Process.Extends.trans (h : p.Extends q ids) (h' : q.Extends r ids') :
    p.Extends r (ids ++ ids') where
  grows := h.grows.trans h'.grows
  registered hr := h'.registered (h.registered hr)
  dangling hd := h'.dangling (h.dangling hd)
  head := by
    have hhead := h.head
    have hhead' := h'.head
    rw [List.getLast?_append]
    cases hlast' : ids'.getLast? with
    | some id =>
      rw [hlast'] at hhead'
      exact hhead'
    | none =>
      rw [hlast'] at hhead'
      cases hlast : ids.getLast? with
      | none =>
        rw [hlast] at hhead
        exact hhead'.trans hhead
      | some id =>
        rw [hlast] at hhead
        obtain ⟨a, e, ha, he⟩ := hhead
        exact ⟨a, e, ha.mono hhead' h'.grows, he⟩
  controllers hc := h'.controllers (h.controllers hc)
  rest := by
    rw [h'.rest, h.rest]

theorem Process.Extends.headLive (h : p.Extends q ids) (hl : p.HeadLive ∨ ids ≠ []) :
    q.HeadLive := by
  have hhead := h.head
  cases hlast : ids.getLast? with
  | some id =>
    rw [hlast] at hhead
    obtain ⟨a, e, ha, _⟩ := hhead
    exact ⟨a, e, ha⟩
  | none =>
    rw [hlast] at hhead
    rcases hl with ⟨a, e, ha⟩ | hne
    · exact ⟨a, e, ha.mono hhead h.grows⟩
    · exact absurd (List.getLast?_eq_none_iff.mp hlast) hne

theorem Process.Extends.headDead (h : p.Extends q []) (hd : p.HeadDead) : q.HeadDead :=
  hd.mono h.head h.grows

def Process.pushNs (p : Process) (ctrlr : Addr) (id : Nat) : Process :=
  { p.grant sizeofNsEntry (.nsEntry ⟨ctrlr, id, p.gNamespaces, none⟩) with
    gNamespaces := some p.heap.next }

theorem pushNs_grows (p : Process) (ctrlr : Addr) (id : Nat) :
    p.heap.Grows (p.pushNs ctrlr id).heap := Heap.grows_alloc _ _ _

theorem pushNs_entry (p : Process) (ctrlr : Addr) (id : Nat) :
    (p.pushNs ctrlr id).heap.cells p.heap.next =
      some (sizeofNsEntry.toNat, .nsEntry ⟨ctrlr, id, p.gNamespaces, none⟩) :=
  Heap.cells_alloc_self _ _ _

theorem pushNs_extends (p : Process) (ctrlr : Addr) (id : Nat) :
    p.Extends (p.pushNs ctrlr id) [id] := by
  have hgrows := pushNs_grows p ctrlr id
  have hself := pushNs_entry p ctrlr id
  refine ⟨hgrows, ?_, ?_, ?_, fun h => h, rfl⟩
  · intro hr
    rcases hr with ⟨ns, cs, hns, hcs, ha⟩
    have hns' := hns.mono fun _ _ _ => hgrows.kept
    have hcs' := hcs.mono fun _ _ _ => hgrows.kept
    exact ⟨p.heap.next :: ns, cs, .cons hself rfl hns', hcs', ha.mono fun _ _ => hgrows.kept⟩
  · intro hd
    exact .cons hself rfl (hd.grows hgrows)
  · exact ⟨p.heap.next, _, ⟨rfl, _, hself⟩, rfl⟩

def Process.attachCtrlr (p : Process) : Process := { p with heap := p.heap.alloc 0 .ctrlr }

def Process.pushCtrlr (p : Process) : Process :=
  { p.attachCtrlr.grant sizeofCtrlrEntry (.ctrlrEntry ⟨p.heap.next, p.gControllers⟩) with
    gControllers := some (p.heap.next + 1) }

theorem pushCtrlr_grows (p : Process) : p.heap.Grows p.pushCtrlr.heap :=
  (Heap.grows_alloc _ _ _).trans (Heap.grows_alloc _ _ _)

theorem pushCtrlr_ctrlr (p : Process) :
    p.pushCtrlr.heap.cells p.heap.next = some (0, .ctrlr) :=
  Heap.cells_alloc_of_some _ _ (Heap.cells_alloc_self p.heap 0 .ctrlr)

theorem pushCtrlr_entry (p : Process) :
    p.pushCtrlr.heap.cells (p.heap.next + 1) =
      some (sizeofCtrlrEntry.toNat, .ctrlrEntry ⟨p.heap.next, p.gControllers⟩) :=
  Heap.cells_alloc_self (p.heap.alloc 0 .ctrlr) _ _

theorem pushCtrlr_extends (p : Process) : p.Extends p.pushCtrlr [] := by
  have hgrows := pushCtrlr_grows p
  have hself := pushCtrlr_entry p
  refine ⟨hgrows, ?_, fun hd => hd.grows hgrows, rfl, fun _ => nofun, rfl⟩
  intro hr
  rcases hr with ⟨ns, cs, hns, hcs, ha⟩
  have hns' := hns.mono fun _ _ _ => hgrows.kept
  have hcs' := hcs.mono fun _ _ _ => hgrows.kept
  refine ⟨ns, (p.heap.next + 1) :: cs, hns', .cons hself rfl hcs', ?_⟩
  refine (ha.mono fun _ _ => hgrows.kept).cons (ctrlrOf_entry hself) (pushCtrlr_ctrlr p) ?_
  -- the block of the new controller is fresh, so no older entry names it
  intro x hx hof
  obtain ⟨n, hc⟩ := ha.cell_mono (fun _ _ => hgrows.kept) hx hof
  rw [p.heap.fresh _ (Nat.le_refl _)] at hc
  cases hc

def Process.pushAll (p : Process) (ctrlr : Addr) (ids : List Nat) : Process :=
  ids.foldl (fun p id => p.pushNs ctrlr id) p

def Process.probed (p : Process) (ctrlrs : List ReportedCtrlr) : Process :=
  ctrlrs.foldl (fun p c => p.pushCtrlr.pushAll p.heap.next (activeIds c.visited)) p

@[simp] theorem pushAll_cons (p : Process) (ctrlr : Addr) (id : Nat) (ids : List Nat) :
    p.pushAll ctrlr (id :: ids) = (p.pushNs ctrlr id).pushAll ctrlr ids := rfl

@[simp] theorem probed_cons (p : Process) (c : ReportedCtrlr) (ctrlrs : List ReportedCtrlr) :
    p.probed (c :: ctrlrs) =
      (p.pushCtrlr.pushAll p.heap.next (activeIds c.visited)).probed ctrlrs := rfl

theorem pushAll_requests (p : Process) (ctrlr : Addr) (ids : List Nat) :
    (p.pushAll ctrlr ids).requests = p.requests + ids.length := by
  induction ids generalizing p with
  | nil => rfl
  | cons id ids ih =>
    rw [pushAll_cons, ih, List.length_cons]
    change p.requests + 1 + _ = _
    omega

theorem pushAll_extends (p : Process) (ctrlr : Addr) (ids : List Nat) :
    p.Extends (p.pushAll ctrlr ids) ids := by
  induction ids generalizing p with
  | nil => exact .refl p
  | cons id ids ih => exact (pushNs_extends p ctrlr id).trans (ih _)

theorem probed_extends (p : Process) (ctrlrs : List ReportedCtrlr) :
    p.Extends (p.probed ctrlrs) (attachIds ctrlrs) := by
  induction ctrlrs generalizing p with
  | nil => exact .refl p
  | cons c ctrlrs ih =>
    have hattach := (pushCtrlr_extends p).trans
      (pushAll_extends _ p.heap.next (activeIds c.visited))
    exact hattach.trans (ih _)

theorem probed_gControllers (p : Process) {ctrlrs : List ReportedCtrlr}
    (h : ctrlrs ≠ []) : (p.probed ctrlrs).gControllers ≠ none := by
  cases ctrlrs with
  | nil => exact absurd rfl h
  | cons c ctrlrs =>
    have hrest := (pushAll_extends p.pushCtrlr p.heap.next (activeIds c.visited)).trans
      (probed_extends _ ctrlrs)
    exact hrest.controllers nofun

theorem registerNs_inactive (ctrlr : Addr) {ns : ReportedNs} (h : ns.active = false) :
    registerNs E ctrlr ns = pure () := by
  rw [registerNs, h]
  rfl

theorem registerNs_granted (ctrlr : Addr) {ns : ReportedNs} (h : ns.active = true)
    (hg : E.allocates p.requests sizeofNsEntry = true) :
    (registerNs E ctrlr ns).run p = .ok ((), p.pushNs ctrlr ns.id) := by
  rw [registerNs, if_pos h]
  apply Exec.run_seq (Exec.run_get p)
  apply Exec.run_seq (allocBlock_granted _ hg)
  rfl

theorem registerNs_refused (ctrlr : Addr) {ns : ReportedNs} (h : ns.active = true)
    (hg : ¬E.allocates p.requests sizeofNsEntry = true) :
    (registerNs E ctrlr ns).run p = .error (.exit 1) := by
  rw [registerNs, if_pos h]
  apply Exec.run_seq (Exec.run_get p)
  apply Exec.run_seq (allocBlock_refused _ hg)
  rfl

theorem activeIds_cons_inactive {ns : ReportedNs} (nss : List (Option ReportedNs))
    (h : ns.active = false) : activeIds (some ns :: nss) = activeIds nss := by
  simp [activeIds, h]

theorem activeIds_cons_active {ns : ReportedNs} (nss : List (Option ReportedNs))
    (h : ns.active = true) : activeIds (some ns :: nss) = ns.id :: activeIds nss := by
  simp [activeIds, h]

/-- The rounds of the loop of `attach_cb` for the answers `nss`. -/
def registerEach (E : Platform) (ctrlr : Addr) : List (Option ReportedNs) → Driver Unit
  | [] => pure ()
  | none :: nss => registerEach E ctrlr nss
  | some ns :: nss => do
    registerNs E ctrlr ns
    registerEach E ctrlr nss

theorem registerEach_granted (ctrlr : Addr) {nss : List (Option ReportedNs)}
    (hg : E.Grants p.requests (nsRequests nss)) :
    (registerEach E ctrlr nss).run p = .ok ((), p.pushAll ctrlr (activeIds nss)) := by
  induction nss generalizing p with
  | nil => rfl
  | cons ns nss ih =>
    cases ns with
    | none => exact ih hg
    | some ns =>
      cases hactive : ns.active with
      | false =>
        rw [nsRequests, activeIds_cons_inactive nss hactive] at hg
        rw [activeIds_cons_inactive nss hactive, registerEach, registerNs_inactive ctrlr hactive]
        exact ih hg
      | true =>
        rw [nsRequests, activeIds_cons_active nss hactive] at hg
        rw [activeIds_cons_active nss hactive, registerEach]
        apply Exec.run_seq (registerNs_granted ctrlr hactive hg.1)
        exact ih (p := p.pushNs ctrlr ns.id) hg.2

theorem registerEach_refused (ctrlr : Addr) {nss : List (Option ReportedNs)}
    (hg : ¬E.Grants p.requests (nsRequests nss)) :
    (registerEach E ctrlr nss).run p = .error (.exit 1) := by
  induction nss generalizing p with
  | nil => exact absurd trivial hg
  | cons ns nss ih =>
    cases ns with
    | none => exact ih hg
    | some ns =>
      cases hactive : ns.active with
      | false =>
        rw [registerEach, registerNs_inactive ctrlr hactive]
        rw [nsRequests, activeIds_cons_inactive nss hactive] at hg
        exact ih hg
      | true =>
        rw [nsRequests, activeIds_cons_active nss hactive] at hg
        rw [registerEach]
        by_cases hg₁ : E.allocates p.requests sizeofNsEntry = true
        · apply Exec.run_seq (registerNs_granted ctrlr hactive hg₁)
          exact ih (p := p.pushNs ctrlr ns.id) fun h => hg ⟨hg₁, h⟩
        · exact Exec.run_bind_error _ (registerNs_refused ctrlr hactive hg₁)

theorem ReportedCtrlr.count_le (c : ReportedCtrlr) : c.count ≤ intMax := by
  have hlt := BitVec.toInt_lt (x := c.numNs)
  rw [count, intMax]
  omega

/-- The condition of the loop, for an id that an `int` can hold. -/
theorem ReportedCtrlr.sle_numNs (c : ReportedCtrlr) {nsid : Nat} (hpos : 0 < nsid)
    (hint : nsid ≤ intMax) : (BitVec.ofNat 32 nsid).sle c.numNs = decide (nsid ≤ c.count) := by
  have hnat : (BitVec.ofNat 32 nsid).toNat = nsid :=
    Nat.mod_eq_of_lt (Nat.lt_of_le_of_lt hint (by decide))
  have htoInt : (BitVec.ofNat 32 nsid).toInt = nsid := by
    rw [BitVec.toInt_eq_toNat_of_lt, hnat]
    rw [intMax] at hint
    omega
  rw [BitVec.sle, htoInt, count]
  congr 1
  apply propext
  omega

theorem ReportedCtrlr.visitedFrom_cons (c : ReportedCtrlr) {nsid : Nat} (h : nsid ≤ c.count) :
    c.visitedFrom nsid = c.getNs (.ofNat 32 nsid) :: c.visitedFrom (nsid + 1) := by
  have hlen : c.count + 1 - nsid = (c.count + 1 - (nsid + 1)) + 1 := by omega
  rw [visitedFrom, hlen, List.range'_succ, List.map_cons]
  rfl

theorem ReportedCtrlr.visitedFrom_nil (c : ReportedCtrlr) {nsid : Nat} (h : c.count < nsid) :
    c.visitedFrom nsid = [] := by
  rw [visitedFrom, Nat.sub_eq_zero_of_le h]
  rfl

/-- The loop makes a round for each id up to the count, and ends unless that is `INT_MAX`. -/
theorem registerFrom_eq (ctrlr : Addr) (c : ReportedCtrlr) {nsid rounds : Nat} (hpos : 0 < nsid)
    (hle : nsid ≤ c.count + 1) (hrounds : nsid + rounds = intMax + 1) :
    registerFrom E ctrlr c rounds (.ofNat 32 nsid) =
      registerEach E ctrlr (c.visitedFrom nsid) >>= fun _ =>
        if c.Overflows then Exec.stop .hang else pure () := by
  have hcount := c.count_le
  induction rounds generalizing nsid with
  | zero =>
    have hover : c.Overflows := by
      rw [ReportedCtrlr.Overflows]
      omega
    rw [c.visitedFrom_nil (by omega), if_pos hover]
    rfl
  | succ rounds ih =>
    rw [registerFrom, c.sle_numNs hpos (by omega)]
    by_cases hin : nsid ≤ c.count
    · have hnext : BitVec.ofNat 32 nsid + 1 = .ofNat 32 (nsid + 1) := by
        rw [BitVec.ofNat_add]
        rfl
      have hrest : registerFrom E ctrlr c rounds (.ofNat 32 (nsid + 1)) = _ :=
        ih (Nat.succ_pos _) (by omega) (by omega)
      rw [if_pos (decide_eq_true hin), hnext, c.visitedFrom_cons hin]
      cases c.getNs (.ofNat 32 nsid) with
      | none => exact hrest
      | some ns =>
        simp only [registerEach, Exec.bind_bind, hrest]
    · have hends : ¬c.Overflows := by
        rw [ReportedCtrlr.Overflows]
        omega
      rw [if_neg (by simp [hin]), c.visitedFrom_nil (by omega), if_neg hends]
      rfl

theorem registerAll_eq (ctrlr : Addr) (c : ReportedCtrlr) :
    registerAll E ctrlr c = registerEach E ctrlr c.visited >>= fun _ =>
      if c.Overflows then Exec.stop .hang else pure () :=
  registerFrom_eq ctrlr c Nat.one_pos (Nat.le_add_left ..) rfl

theorem registerAll_granted (ctrlr : Addr) {c : ReportedCtrlr}
    (hg : E.Grants p.requests (nsRequests c.visited)) (hends : ¬c.Overflows) :
    (registerAll E ctrlr c).run p = .ok ((), p.pushAll ctrlr (activeIds c.visited)) := by
  rw [registerAll_eq]
  apply Exec.run_seq (registerEach_granted ctrlr hg)
  rw [if_neg hends]
  rfl

theorem registerAll_stops (ctrlr : Addr) {c : ReportedCtrlr}
    (hn : ¬(E.Grants p.requests (nsRequests c.visited) ∧ ¬c.Overflows)) :
    ∃ s, (registerAll E ctrlr c).run p = .error s ∧ (s = .exit 1 ∨ s = .hang) := by
  rw [registerAll_eq]
  by_cases hg : E.Grants p.requests (nsRequests c.visited)
  · have hover : c.Overflows := by
      by_contra hends
      exact hn ⟨hg, hends⟩
    refine ⟨.hang, ?_, Or.inr rfl⟩
    apply Exec.run_seq (registerEach_granted ctrlr hg)
    rw [if_pos hover]
    rfl
  · exact ⟨.exit 1, Exec.run_bind_error _ (registerEach_refused ctrlr hg), Or.inl rfl⟩

theorem newCtrlr_run (p : Process) : newCtrlr.run p = .ok (p.heap.next, p.attachCtrlr) := rfl

theorem attachCb_granted (c : ReportedCtrlr)
    (hg : E.allocates p.requests sizeofCtrlrEntry = true) :
    (attachCb E p.heap.next c).run p.attachCtrlr =
      (registerAll E p.heap.next c).run p.pushCtrlr := by
  rw [attachCb]
  apply Exec.run_seq (Exec.run_get _)
  apply Exec.run_seq (allocBlock_granted (p := p.attachCtrlr) _ hg)
  rfl

theorem attachCb_refused (c : ReportedCtrlr)
    (hg : ¬E.allocates p.requests sizeofCtrlrEntry = true) :
    (attachCb E p.heap.next c).run p.attachCtrlr = .error (.exit 1) := by
  rw [attachCb]
  apply Exec.run_seq (Exec.run_get _)
  apply Exec.run_seq (allocBlock_refused (p := p.attachCtrlr) _ hg)
  rfl

theorem attaches_cons {k : Nat} {c : ReportedCtrlr} {ctrlrs : List ReportedCtrlr} :
    E.Attaches k (c :: ctrlrs) ↔
      E.allocates k sizeofCtrlrEntry = true ∧
        (E.Grants (k + 1) (nsRequests c.visited) ∧ ¬c.Overflows) ∧
        E.Attaches (k + 1 + (activeIds c.visited).length) ctrlrs := by
  rw [Platform.Attaches, Platform.Attaches, attachRequests, List.flatMap_cons, List.cons_append,
    Platform.Grants, Platform.grants_append, nsRequests, List.length_map, List.forall_mem_cons]
  constructor
  · intro h
    rcases h with ⟨⟨hentry, hns, hrest⟩, hends, hends'⟩
    exact ⟨hentry, ⟨hns, hends⟩, hrest, hends'⟩
  · intro h
    rcases h with ⟨hentry, ⟨hns, hends⟩, hrest, hends'⟩
    exact ⟨⟨hentry, hns, hrest⟩, hends, hends'⟩

theorem attachAll_granted {ctrlrs : List ReportedCtrlr} (hg : E.Attaches p.requests ctrlrs) :
    (attachAll E ctrlrs).run p = .ok ((), p.probed ctrlrs) := by
  induction ctrlrs generalizing p with
  | nil => rfl
  | cons c ctrlrs ih =>
    obtain ⟨hg₁, ⟨hg₂, hends⟩, hg₃⟩ := attaches_cons.mp hg
    rw [attachAll]
    apply Exec.run_seq (newCtrlr_run p)
    apply Exec.run_seq ((attachCb_granted c hg₁).trans (registerAll_granted _ hg₂ hends))
    apply ih
    rw [pushAll_requests]
    exact hg₃

theorem attachAll_stops {ctrlrs : List ReportedCtrlr} (hg : ¬E.Attaches p.requests ctrlrs) :
    ∃ s, (attachAll E ctrlrs).run p = .error s ∧ (s = .exit 1 ∨ s = .hang) := by
  induction ctrlrs generalizing p with
  | nil => exact absurd ⟨trivial, nofun⟩ hg
  | cons c ctrlrs ih =>
    rw [attaches_cons] at hg
    rw [attachAll, Exec.run_bind_ok _ (newCtrlr_run p)]
    by_cases hg₁ : E.allocates p.requests sizeofCtrlrEntry = true
    swap
    · exact ⟨.exit 1, Exec.run_bind_error _ (attachCb_refused c hg₁), Or.inl rfl⟩
    by_cases hg₂ : E.Grants (p.requests + 1) (nsRequests c.visited) ∧ ¬c.Overflows
    · have hcb := (attachCb_granted c hg₁).trans (registerAll_granted _ hg₂.1 hg₂.2)
      rw [Exec.run_bind_ok _ hcb]
      apply ih
      intro hg₃
      rw [pushAll_requests] at hg₃
      exact hg ⟨hg₁, hg₂, hg₃⟩
    · obtain ⟨s, hstop, hs⟩ := registerAll_stops (p := p.pushCtrlr) p.heap.next hg₂
      exact ⟨s, Exec.run_bind_error _ ((attachCb_granted c hg₁).trans hstop), hs⟩

def Process.afterProbe (p : Process) (E : Platform) : Process :=
  { p with probes := p.probes + 1 }.probed (E.probe p.probes).ctrlrs

theorem afterProbe_extends (p : Process) (E : Platform) :
    p.Extends (p.afterProbe E) (attachIds (E.probe p.probes).ctrlrs) := by
  have h : { p with probes := p.probes + 1 }.Extends (p.afterProbe E)
      (attachIds (E.probe p.probes).ctrlrs) := probed_extends _ _
  refine ⟨h.grows, h.registered, h.dangling, h.head, h.controllers, ?_⟩
  rw [h.rest]

theorem afterProbe_gControllers (p : Process) (E : Platform) :
    (p.afterProbe E).gControllers = none ↔
      p.gControllers = none ∧ (E.probe p.probes).ctrlrs = [] := by
  constructor
  · intro h
    refine ⟨?_, ?_⟩
    · by_contra hc
      exact (afterProbe_extends p E).controllers hc h
    · by_contra hctrlrs
      exact probed_gControllers _ hctrlrs h
  · intro h
    rw [Process.afterProbe, h.2]
    exact h.1

theorem spdkNvmeProbe_granted
    (hg : E.Attaches p.requests (E.probe p.probes).ctrlrs) :
    (spdkNvmeProbe E).run p = .ok ((E.probe p.probes).rc, p.afterProbe E) := by
  rw [spdkNvmeProbe]
  apply Exec.run_seq (Exec.run_get p)
  apply Exec.run_seq (Exec.run_modify _ _)
  apply Exec.run_seq (attachAll_granted (p := { p with probes := p.probes + 1 }) hg)
  rfl

theorem spdkNvmeProbe_stops (hg : ¬E.Attaches p.requests (E.probe p.probes).ctrlrs) :
    ∃ s, (spdkNvmeProbe E).run p = .error s ∧ (s = .exit 1 ∨ s = .hang) := by
  obtain ⟨s, hstop, hs⟩ := attachAll_stops (p := { p with probes := p.probes + 1 }) hg
  refine ⟨s, ?_, hs⟩
  rw [spdkNvmeProbe]
  apply Exec.run_seq (Exec.run_get p)
  apply Exec.run_seq (Exec.run_modify _ _)
  exact Exec.run_bind_error _ hstop

/-- A probe that attaches a controller, or finds the pointer to earlier ones set, succeeds. -/
theorem spdkInit_success
    (hg : E.Attaches p.requests (E.probe p.probes).ctrlrs)
    (hrc : (E.probe p.probes).rc = 0)
    (hc : p.gControllers ≠ none ∨ (E.probe p.probes).ctrlrs ≠ []) :
    ∃ q, (spdkInit E).run p = .ok (txdSuccess, q) ∧
      p.Extends q (attachIds (E.probe p.probes).ctrlrs) ∧ q.gControllers ≠ none := by
  have hcontrollers : (p.afterProbe E).gControllers ≠ none := by
    rw [Ne, afterProbe_gControllers, not_and_or]
    exact hc
  refine ⟨p.afterProbe E, ?_, afterProbe_extends p E, hcontrollers⟩
  rw [spdkInit]
  apply Exec.run_seq (spdkNvmeProbe_granted hg)
  rw [if_neg (not_not_intro hrc)]
  apply Exec.run_seq (Exec.run_get _)
  rw [if_neg hcontrollers]
  rfl

theorem spdkInit_cleanup
    (hg : E.Attaches p.requests (E.probe p.probes).ctrlrs)
    (hfail : (E.probe p.probes).rc ≠ 0 ∨
      (p.gControllers = none ∧ (E.probe p.probes).ctrlrs = [])) :
    (spdkInit E).run p = (cleanup >>= fun _ => pure txdFail : Driver Int).run (p.afterProbe E) := by
  rw [spdkInit]
  apply Exec.run_seq (spdkNvmeProbe_granted hg)
  by_cases hrc : (E.probe p.probes).rc = 0
  · have hnone := (afterProbe_gControllers p E).mpr (hfail.resolve_left (not_not_intro hrc))
    rw [if_neg (not_not_intro hrc)]
    apply Exec.run_seq (Exec.run_get _)
    rw [if_pos hnone]
  · rw [if_pos hrc]

theorem spdkInit_fail
    (hg : E.Attaches p.requests (E.probe p.probes).ctrlrs)
    (hfail : (E.probe p.probes).rc ≠ 0 ∨
      (p.gControllers = none ∧ (E.probe p.probes).ctrlrs = []))
    (hr : p.Registered) : ∃ q, (spdkInit E).run p = .ok (txdFail, q) := by
  obtain ⟨heap, hcleanup, _⟩ := cleanup_registered ((afterProbe_extends p E).registered hr)
  refine ⟨{ p.afterProbe E with heap := heap }, ?_⟩
  rw [spdkInit_cleanup hg hfail]
  apply Exec.run_seq hcleanup
  rfl

theorem spdkInit_fault
    (hg : E.Attaches p.requests (E.probe p.probes).ctrlrs)
    (hfail : (E.probe p.probes).rc ≠ 0 ∨
      (p.gControllers = none ∧ (E.probe p.probes).ctrlrs = []))
    (hd : p.Dangling) : ∃ f, (spdkInit E).run p = .error (.fault f) ∧ f.OfRegistry := by
  have hbroken := ((afterProbe_extends p E).dangling hd).not_registered
  obtain ⟨f, hfault, hf⟩ := cleanup_fault hbroken
  refine ⟨f, ?_, hf⟩
  rw [spdkInit_cleanup hg hfail]
  exact Exec.run_bind_error _ hfault

def Process.setQpair (p : Process) (a : Addr) (e : NsEntry) (qpair : Option Nat) : Process :=
  { p with qpairs := p.qpairs + 1, heap := p.heap.set a (.nsEntry { e with qpair := qpair }) }

variable {a : Addr} {e : NsEntry}

theorem spdkAllocQpair_run (h : p.Head a e) :
    (spdkAllocQpair E).run p =
      .ok (if E.allocsQpair p.qpairs then txdSuccess else txdFail,
        p.setQpair a e (if E.allocsQpair p.qpairs then some p.qpairs else none)) := by
  rw [spdkAllocQpair]
  apply Exec.run_seq (loadHead_run h)
  apply Exec.run_seq (Exec.run_get p)
  apply Exec.run_seq (Exec.run_modify _ _)
  cases E.allocsQpair p.qpairs <;> rfl

theorem spdkAllocQpair_fault (h : ¬p.HeadLive) :
    ∃ f, (spdkAllocQpair E).run p = .error (.fault f) ∧ f.OfRegistry := by
  obtain ⟨f, hfault, hf⟩ := loadHead_fault h
  exact ⟨f, Exec.run_bind_error _ hfault, hf⟩

theorem setQpair_head (h : p.Head a e) (qpair : Option Nat) :
    (p.setQpair a e qpair).Head a { e with qpair := qpair } := by
  obtain ⟨hg, n, hc⟩ := h
  exact ⟨hg, n, Heap.cells_set_self _ hc⟩

theorem setQpair_dangling (h : p.Head a e) (qpair : Option Nat) (hd : p.Dangling) :
    (p.setQpair a e qpair).Dangling := by
  obtain ⟨_, n, hc⟩ := h
  exact hd.set hc rfl

theorem setQpair_registered (h : p.Head a e) (qpair : Option Nat) (hr : p.Registered) :
    (p.setQpair a e qpair).Registered := by
  obtain ⟨_, n, hc⟩ := h
  obtain ⟨ns, cs, hns, hcs, ha⟩ := hr
  have hkept {x : Addr} {k : Nat} {b : Obj} (hx : p.heap.cells x = some (k, b))
      (hb : nsLink b = none) : (p.setQpair a e qpair).heap.cells x = p.heap.cells x := by
    apply Heap.cells_set_of_ne
    intro heq
    subst heq
    rw [hc] at hx
    cases hx
    cases hb
  have hentry (x : Addr) (hx : x ∈ cs) :
      (p.setQpair a e qpair).heap.cells x = p.heap.cells x := by
    obtain ⟨k, b, g, hcell, hlink⟩ := hcs.live hx
    exact hkept hcell (nsLink_of_ctrlrLink hlink)
  refine ⟨ns, cs, hns.set hc rfl, ?_, ?_⟩
  · apply hcs.mono
    intro x hx c hcell
    rw [hentry x hx, hcell]
  · refine ha.of_kept hentry ?_
    intro x hx c hof
    obtain ⟨k, hcell⟩ := ha.cell hx hof
    exact hkept hcell rfl

def Process.freeQpair (p : Process) : Process := { p with qpairFrees := p.qpairFrees + 1 }

theorem spdkFree_run (h : p.Head a e) :
    (spdkFree E).run p = .ok (E.freeQpair p.qpairFrees e.qpair, p.freeQpair) := by
  rw [spdkFree]
  apply Exec.run_seq (loadHead_run h)
  rfl

theorem spdkFree_fault (h : ¬p.HeadLive) :
    ∃ f, (spdkFree E).run p = .error (.fault f) ∧ f.OfRegistry := by
  obtain ⟨f, hfault, hf⟩ := loadHead_fault h
  exact ⟨f, Exec.run_bind_error _ hfault, hf⟩

end Extensions

end TxDriver
