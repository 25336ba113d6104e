import TxDriver.Driver.Ownership
import TxDriver.Driver.Sessions

/-!
# The registries over a run

Until a `tx_begin` fails, the registries hold what all the formats of the run have found. The
failure exit frees all of it, so that of the process nothing is left but the blocks of its journals.
-/

namespace TxDriver

def Process.Registers (p : Process) (ctrlrs : List ReportedCtrlr) : Prop :=
  ∃ ns cs as, as.length = ctrlrs.length ∧
    p.Holds ns (discovered as ctrlrs).reverse cs as.reverse ∧
    ∀ a, p.registry.Live a ↔ a ∈ ns ∨ a ∈ cs ∨ a ∈ as

section Registration

variable {E : Platform} {p q : Process} {ns cs as as' : List Addr} {pairs : List (Addr × Nat)}
  {ctrlrs ctrlrs' : List ReportedCtrlr} {a : Addr} {e : NsEntry}
  {txdAddr : BitVec 64} {txdSize : BitVec 32}

theorem discovered_append (h : as.length = ctrlrs.length) :
    discovered (as ++ as') (ctrlrs ++ ctrlrs') =
      discovered as ctrlrs ++ discovered as' ctrlrs' := by
  rw [discovered, List.zip_append h, List.flatMap_append]
  rfl

theorem probed_probes (p : Process) (ctrlrs : List ReportedCtrlr) :
    (p.probed ctrlrs).probes = p.probes := by
  have hpush (p : Process) (ctrlr : Addr) (ids : List Nat) :
      (p.pushAll ctrlr ids).probes = p.probes := by
    induction ids generalizing p with
    | nil => rfl
    | cons id ids ih => exact ih _
  induction ctrlrs generalizing p with
  | nil => rfl
  | cons c ctrlrs ih =>
    rw [probed_cons, ih, hpush]
    rfl

theorem Process.Holds.registry (h : p.Holds ns pairs cs as) (ha : a ∈ ns ∨ a ∈ cs ∨ a ∈ as) :
    p.registry.Live a := by
  rcases ha with ha | ha | ha
  · exact nsLink_registry h.namespaces ha
  · exact ctrlrLink_registry h.controllers ha
  · obtain ⟨n, hc⟩ := h.live a ha
    exact (registry_live hc).mpr rfl

theorem Process.Holds.keeps (h : p.Holds ns pairs cs as) (hk : p.Keeps q) :
    q.Holds ns pairs cs as := by
  obtain ⟨hns, hpairs, hcs, howners, hlive⟩ := h.grows hk.grows
  rw [← hk.namespaces] at hns
  rw [← hk.controllers] at hcs
  exact ⟨hns, hpairs, hcs, howners, hlive, h.distinct⟩

theorem setQpair_cells_of_ne {x : Addr} (hx : x ≠ a) (qpair : Option Nat) :
    (p.setQpair a e qpair).heap.cells x = p.heap.cells x := Heap.cells_set_of_ne _ hx

theorem Process.Holds.setQpair (h : p.Holds ns pairs cs as) (ha : p.Head a e) (qpair : Option Nat) :
    (p.setQpair a e qpair).Holds ns pairs cs as := by
  obtain ⟨_, n, hc⟩ := ha
  have hkept {x : Addr} {k : Nat} {b : Obj} (hx : p.heap.cells x = some (k, b))
      (hb : nsLink b = none) : (p.setQpair a e qpair).heap.cells x = p.heap.cells x := by
    apply setQpair_cells_of_ne
    intro heq
    subst heq
    rw [hc] at hx
    cases hx
    cases hb
  have hself : (p.setQpair a e qpair).heap.cells a = some (n, .nsEntry { e with qpair := qpair }) :=
    Heap.cells_set_self _ hc
  have hentry (x : Addr) (hx : x ∈ cs) :
      (p.setQpair a e qpair).heap.cells x = p.heap.cells x := by
    obtain ⟨k, b, g, hcell, hlink⟩ := h.controllers.live hx
    exact hkept hcell (nsLink_of_ctrlrLink hlink)
  have hns (x : Addr) : nsOf (p.setQpair a e qpair).heap x = nsOf p.heap x := by
    by_cases hx : x = a
    · subst hx
      rw [nsOf_entry hc, nsOf_entry hself]
    · simp only [nsOf, setQpair_cells_of_ne hx]
  refine ⟨h.namespaces.set hc rfl, ?_, ?_, ?_, ?_, h.distinct⟩
  · rw [← h.pairs]
    exact List.map_congr_left fun x _ => hns x
  · apply h.controllers.mono
    intro x hx c hcell
    rw [hentry x hx, hcell]
  · rw [← h.owners]
    apply List.map_congr_left
    intro x hx
    rw [ctrlrOf, ctrlrOf, hentry x hx]
  · intro c hcm
    obtain ⟨k, hcell⟩ := h.live c hcm
    exact ⟨k, (hkept hcell rfl).trans hcell⟩

theorem setQpair_registry (h : p.Head a e) (qpair : Option Nat) (x : Addr) :
    (p.setQpair a e qpair).registry.Live x ↔ p.registry.Live x := by
  obtain ⟨_, n, hc⟩ := h
  have hself : (p.setQpair a e qpair).heap.cells a = some (n, .nsEntry { e with qpair := qpair }) :=
    Heap.cells_set_self _ hc
  by_cases hx : x = a
  · subst hx
    rw [registry_live hc, registry_live hself]
    rfl
  · have hcells : (p.setQpair a e qpair).registry.cells x = p.registry.cells x :=
      Heap.cells_filter_congr (setQpair_cells_of_ne hx qpair)
    rw [Heap.Live, Heap.Live, hcells]

theorem Process.Registers.keeps (h : p.Registers ctrlrs) (hk : p.Keeps q)
    (hr : ∀ a, q.registry.Live a ↔ p.registry.Live a) : q.Registers ctrlrs := by
  obtain ⟨ns, cs, as, hlen, hholds, hlive⟩ := h
  exact ⟨ns, cs, as, hlen, hholds.keeps hk, fun a => (hr a).trans (hlive a)⟩

theorem Process.Registers.same (h : p.Registers ctrlrs) (hs : p.SameRegistries q) :
    q.Registers ctrlrs := by
  have hregistry : p.registry.Adds q.registry [] := hs.adds.filter_nil (by simp)
  refine h.keeps hs.keeps ?_
  simp [hregistry.live_iff]

theorem Process.Registers.afterProbe (h : p.Registers ctrlrs) (E : Platform) :
    (p.afterProbe E).Registers (ctrlrs ++ (E.probe p.probes).ctrlrs) := by
  obtain ⟨ns, cs, as, hlen, hholds, hlive⟩ := h
  have hcounted : { p with probes := p.probes + 1 }.Holds ns (discovered as ctrlrs).reverse cs
      as.reverse :=
    ⟨hholds.namespaces, hholds.pairs, hholds.controllers, hholds.owners, hholds.live,
      hholds.distinct⟩
  obtain ⟨ns', cs', as', hlen', _, hq, hadds⟩ := hcounted.probed (E.probe p.probes).ctrlrs
  have hnew : p.registry.Adds (p.afterProbe E).registry (ns' ++ (cs' ++ as')) := by
    apply hadds.filter
    intro a ha
    apply hq.registry
    simp only [List.mem_append, List.mem_reverse] at ha ⊢
    tauto
  refine ⟨ns' ++ ns, cs' ++ cs, as ++ as', ?_, ?_, ?_⟩
  · rw [List.length_append, List.length_append, hlen, hlen']
  · rw [discovered_append hlen, List.reverse_append, List.reverse_append]
    exact hq
  · intro a
    rw [hnew.live_iff, hlive]
    simp only [List.mem_append]
    tauto

theorem txFormat_returns {err : Int} (h : (txFormat E txdAddr txdSize).run p = .ok (err, q)) :
    ∃ a e qpair, (p.afterProbe E).Head a e ∧ ((p.afterProbe E).setQpair a e qpair).Restored q := by
  rw [txFormat] at h
  obtain ⟨rc, r, hinit, h⟩ := Exec.run_bind_eq_ok.mp h
  by_cases hrc : rc = txdFail
  · rw [Exec.run_bind_error _ (assert_decide_false (not_not_intro hrc) _)] at h
    cases h
  rw [Exec.run_bind_ok _ (assert_decide_true hrc _)] at h
  have hr := spdkInit_returns hinit hrc
  subst hr
  by_cases hlive : (p.afterProbe E).HeadLive
  swap
  · obtain ⟨f, hfault, _⟩ := spdkAllocQpair_fault (E := E) hlive
    rw [Exec.run_bind_error _ hfault] at h
    cases h
  obtain ⟨a, e, ha⟩ := hlive
  rw [Exec.run_bind_ok _ (spdkAllocQpair_run ha)] at h
  obtain ⟨_, r, hassert, h⟩ := Exec.run_bind_eq_ok.mp h
  have hr : r = (p.afterProbe E).setQpair a e _ := Exec.Fixes.assert (f := id) _ _ _ hassert
  have hrestored : r.Restored q := formatBuffer_restores _ _ r err q h
  rw [hr] at hrestored
  exact ⟨a, e, _, ha, hrestored⟩

theorem txFormat_registers {err : Int} (hp : p.Registers ctrlrs)
    (h : (txFormat E txdAddr txdSize).run p = .ok (err, q)) :
    q.Registers (ctrlrs ++ (E.probe p.probes).ctrlrs) ∧ q.probes = p.probes + 1 := by
  obtain ⟨a, e, qpair, ha, hq⟩ := txFormat_returns h
  obtain ⟨ns, cs, as, hlen, hholds, hlive⟩ := hp.afterProbe E
  have hset : ((p.afterProbe E).setQpair a e qpair).Registers
      (ctrlrs ++ (E.probe p.probes).ctrlrs) :=
    ⟨ns, cs, as, hlen, hholds.setQpair ha qpair, fun x =>
      (setQpair_registry ha qpair x).trans (hlive x)⟩
  refine ⟨hset.same hq.sameRegistries, ?_⟩
  obtain ⟨heap, requests, released, rfl, _⟩ := hq
  exact probed_probes { p with probes := p.probes + 1 } _

theorem txBegin_registers {j : TxdJournal} (hp : p.Registers ctrlrs)
    (h : (txBegin E txdAddr txdSize).run p = .ok (some j, q)) :
    q.Registers ctrlrs ∧ q.probes = p.probes := by
  have hq := txBegin_handsOut h
  have hregistry : p.registry.Adds q.registry [] :=
    hq.adds.filter_nil fun a ha hr => data_dead hr (hq.data ha)
  refine ⟨hp.keeps hq.keeps ?_, hq.probes⟩
  simp [hregistry.live_iff]

theorem beginOut1_unregisters {res : Option TxdJournal} (hp : p.Registers ctrlrs)
    (h : (beginOut1 E).run p = .ok (res, q)) (a : Addr) : ¬q.registry.Live a := by
  obtain ⟨ns, cs, as, _, hholds, hlive⟩ := hp
  by_cases hhead : p.HeadLive
  swap
  · obtain ⟨f, hfault, _⟩ := beginOut1_headless (E := E) hhead
    rw [hfault] at h
    cases h
  obtain ⟨x, e, hx⟩ := hhead
  have hrun : cleanup.run p.freeQpair =
      .ok ((), { p.freeQpair with heap := p.heap.freeAll (ns ++ ctrlrBlocks p.heap cs) }) :=
    cleanup_chains (p := p.freeQpair) hholds.namespaces hholds.controllers hholds.attached
  rw [beginOut1, Exec.run_bind_ok _ (spdkFree_run hx)] at h
  obtain ⟨_, r, hassert, h⟩ := Exec.run_bind_eq_ok.mp h
  have hr : r = p.freeQpair := Exec.Fixes.assert (f := id) _ _ _ hassert
  rw [hr, Exec.run_bind_ok _ hrun] at h
  cases h
  intro ha
  have hfreed : a ∉ ns ++ ctrlrBlocks p.heap cs ∧ p.registry.Live a :=
    Heap.live_of_filter_freeAll ha
  obtain ⟨hmem, hold⟩ := hfreed
  rw [List.mem_append, (ctrlrBlocks_perm hholds.owners).mem_iff, List.mem_append, List.mem_reverse]
    at hmem
  exact hmem ((hlive a).mp hold)

end Registration

def Call.isFormat : Call → Bool
  | .format _ _ => true
  | .begin _ _ => false

/-- The controllers that the first `n` probes attach. -/
def Platform.found (E : Platform) (n : Nat) : List ReportedCtrlr :=
  (List.range n).flatMap fun k => (E.probe k).ctrlrs

section Registered

variable {E : Platform} {p q : Process} {medium : Nat → Nat → Sector} {cs : List Call} {c : Call}
  {log : List (Call × Result)} {ctrlrs : List ReportedCtrlr}

theorem start_registers (medium : Nat → Nat → Sector) : (Process.start medium).Registers [] := by
  refine ⟨[], [], [], rfl, Process.holds_empty rfl rfl, ?_⟩
  intro a
  simp [Heap.Live, Process.registry, Process.start, Heap.empty, Heap.filter]

theorem traced_registers (hp : p.Registers ctrlrs)
    (hno : ∀ x ∈ log, x.2 ≠ .began none)
    (h : (Exec.traced (Call.perform E) cs).run p = .ok (log, q)) :
    q.Registers (ctrlrs ++
      (List.range' p.probes (cs.countP Call.isFormat)).flatMap fun k => (E.probe k).ctrlrs) := by
  induction cs generalizing p log ctrlrs with
  | nil =>
    cases h
    simpa using hp
  | cons c cs ih =>
    obtain ⟨res, r, log', hc, hcs, rfl⟩ := Exec.traced_cons h
    have hlater : ∀ x ∈ log', x.2 ≠ .began none :=
      fun x hx => hno x (List.mem_cons_of_mem _ hx)
    cases c with
    | format txdAddr txdSize =>
      obtain ⟨err, r, hformat, hr⟩ := Exec.run_bind_eq_ok.mp hc
      cases hr
      obtain ⟨hr, hprobes⟩ := txFormat_registers hp hformat
      have hrest := ih hr hlater hcs
      rw [hprobes, List.append_assoc] at hrest
      rw [List.countP_cons_of_pos rfl, List.range'_succ, List.flatMap_cons]
      exact hrest
    | begin txdAddr txdSize =>
      obtain ⟨journal, r, hbegin, hr⟩ := Exec.run_bind_eq_ok.mp hc
      cases hr
      cases journal with
      | none => exact absurd rfl (hno _ List.mem_cons_self)
      | some j =>
        obtain ⟨hr, hprobes⟩ := txBegin_registers hp hbegin
        have hrest := ih hr hlater hcs
        rw [hprobes] at hrest
        rw [List.countP_cons_of_neg (by simp [Call.isFormat])]
        exact hrest

/-- As long as no `tx_begin` has failed, the registries hold one entry for each controller that any
format has attached and one for each of its active namespaces with an id in `1 .. num_ns`, in
reverse order of discovery, and no other block is one of theirs. -/
theorem traced_registries (hcounted : ∀ k, ∀ c ∈ (E.probe k).ctrlrs, c.Counted)
    (hno : ∀ x ∈ log, x.2 ≠ .began none)
    (h : (Exec.traced (Call.perform E) cs).run (.start medium) = .ok (log, q)) :
    ∃ ns entries as, as.length = (E.found (cs.countP Call.isFormat)).length ∧
      q.Holds ns (namespacesOf as (E.found (cs.countP Call.isFormat))).reverse entries
        as.reverse ∧
      ∀ a, q.registry.Live a ↔ a ∈ ns ∨ a ∈ entries ∨ a ∈ as := by
  have hq : q.Registers (E.found (cs.countP Call.isFormat)) := by
    have hq := traced_registers (start_registers medium) hno h
    rw [List.nil_append] at hq
    rwa [Platform.found, List.range_eq_range']
  obtain ⟨ns, entries, as, hlen, hholds, hlive⟩ := hq
  have hfound : ∀ c ∈ E.found (cs.countP Call.isFormat), c.Counted := by
    intro c hc
    obtain ⟨k, _, hk⟩ := List.mem_flatMap.mp hc
    exact hcounted k c hk
  rw [discovered_eq hfound] at hholds
  exact ⟨ns, entries, as, hlen, hholds, hlive⟩

theorem txBegin_tearsDown {txdAddr : BitVec 64} {txdSize : BitVec 32}
    (h : (txBegin E txdAddr txdSize).run p = .ok (none, q)) : ¬p.Dangling ∧ q.Dangling := by
  obtain ⟨r, hr, hout⟩ := txBegin_none_exit h
  by_cases hlive : r.HeadLive
  swap
  · obtain ⟨f, hfault, _⟩ := beginOut1_headless (E := E) hlive
    rw [hfault] at hout
    cases hout
  by_cases hdown : CanTearDown E r
  swap
  · obtain ⟨s, hstop⟩ := beginOut1_stops hlive hdown
    rw [hstop] at hout
    cases hout
  obtain ⟨r', hrun, _, _, hdangling⟩ := beginOut1_tearsDown hlive hdown
  rw [hrun] at hout
  cases hout
  exact ⟨fun hd => (hr.keeps.dangling hd).not_registered hdown.2, hdangling⟩

theorem Call.perform_dangling (hd : p.Dangling) {res : Result}
    (h : (c.perform E).run p = .ok (res, q)) : q.Dangling := by
  cases c with
  | format txdAddr txdSize =>
    obtain ⟨err, r, hformat, hr⟩ := Exec.run_bind_eq_ok.mp h
    cases hr
    obtain ⟨a, e, qpair, ha, hrestored⟩ := txFormat_returns hformat
    have hprobed := (afterProbe_extends p E).dangling hd
    exact hrestored.sameRegistries.keeps.dangling (setQpair_dangling ha qpair hprobed)
  | begin txdAddr txdSize =>
    obtain ⟨journal, r, hbegin, hr⟩ := Exec.run_bind_eq_ok.mp h
    cases hr
    cases journal with
    | none => exact (txBegin_tearsDown hbegin).2
    | some j => exact (txBegin_handsOut hbegin).keeps.dangling hd

theorem traced_dangling {x : Call × Result} (hx : x ∈ log) (hfails : x.2 = .began none)
    (h : (Exec.traced (Call.perform E) cs).run p = .ok (log, q)) : q.Dangling := by
  induction cs generalizing p log with
  | nil =>
    cases h
    cases hx
  | cons c cs ih =>
    obtain ⟨res, r, log', hc, hcs, rfl⟩ := Exec.traced_cons h
    rcases List.mem_cons.mp hx with rfl | hx
    · have hr : r.Dangling := by
        cases c with
        | format txdAddr txdSize =>
          obtain ⟨err, _, _, heq⟩ := Exec.run_bind_eq_ok.mp hc
          cases heq
          cases hfails
        | begin txdAddr txdSize =>
          obtain ⟨journal, _, hbegin, heq⟩ := Exec.run_bind_eq_ok.mp hc
          cases heq
          cases hfails
          exact (txBegin_tearsDown hbegin).2
      have hkept : q.Dangling ∧ ∀ x ∈ log', True :=
        Exec.traced_invariant (P := Process.Dangling) (Q := fun _ _ => True)
          (fun c _ s b s' hs hrun => ⟨Call.perform_dangling hs hrun, trivial⟩) hr hcs
      exact hkept.1
    · exact ih hx hcs

/-- When a run ends with a `tx_begin` that fails, the blocks of its journals and their read buffers
are all that is left of the process. -/
theorem traced_tornDown (hlast : log.getLast? = some (c, .began none))
    (h : (Exec.traced (Call.perform E) cs).run (.start medium) = .ok (log, q)) :
    (∀ a, q.heap.Live a ↔ a ∈ (handed log).flatMap TxdJournal.leaves) ∧
      q.heap.liveBlocks.card = 8 * (handed log).length := by
  obtain ⟨hadds, _⟩ := traced_adds h
  obtain ⟨log', rfl⟩ := List.getLast?_eq_some_iff.mp hlast
  obtain ⟨cs', r, hbefore, hc⟩ := Exec.traced_concat h
  have hunregistered : ∀ a, ¬q.registry.Live a := by
    cases c with
    | format txdAddr txdSize =>
      obtain ⟨err, _, _, heq⟩ := Exec.run_bind_eq_ok.mp hc
      cases heq
    | begin txdAddr txdSize =>
      obtain ⟨journal, _, hbegin, heq⟩ := Exec.run_bind_eq_ok.mp hc
      cases heq
      have hno : ∀ x ∈ log', x.2 ≠ .began none :=
        fun x hx hfails => (txBegin_tearsDown hbegin).1 (traced_dangling hx hfails hbefore)
      have hr := traced_registers (start_registers medium) hno hbefore
      obtain ⟨r', hsame, hout⟩ := txBegin_none_exit hbegin
      exact beginOut1_unregisters (hr.same hsame) hout
  have hblocks : q.data.liveBlocks = q.heap.liveBlocks := Heap.liveBlocks_filter_not hunregistered
  have hstart : (Process.start medium).data.liveBlocks = ∅ := rfl
  refine ⟨?_, ?_⟩
  · intro a
    rw [← Heap.mem_liveBlocks, ← hblocks, hadds.liveBlocks, hstart, Finset.empty_union,
      List.mem_toFinset]
  · rw [← hblocks, hadds.card_liveBlocks, hstart, Finset.card_empty, Nat.zero_add, length_leaves]

end Registered

/-- Two controllers on the first probe, and one on each later one: each time the namespace found
last is the same. -/
def Platform.plugged : Platform where
  __ := Platform.reliable
  probe k := ⟨0, if k = 0 then [.ofList [some ⟨2, true⟩, none, some ⟨1, false⟩],
      .ofList [some ⟨0, true⟩]]
    else [.ofList [some ⟨0, true⟩]]⟩

theorem plugged_counted (k : Nat) : ∀ c ∈ (Platform.plugged.probe k).ctrlrs, c.Counted := by
  by_cases hk : k = 0
  · subst hk
    decide
  · simp only [Platform.plugged, if_neg hk]
    decide

theorem plugged_cooperative : Platform.plugged.Cooperative where
  allocates _ _ := rfl
  probe _ := rfl
  ends k c hc := (plugged_counted k c hc).ends
  allocsQpair _ := rfl
  accepts _ _ := rfl
  completes _ := rfl
  pthreadCreate _ := rfl

theorem plugged_front (k : Nat) :
    (attachIds (Platform.plugged.probe k).ctrlrs).getLast? = some 0 := by
  by_cases hk : k = 0
  · subst hk
    rfl
  · simp only [Platform.plugged, if_neg hk]
    rfl

theorem sessions_begin_formatted {s : Session} (hlive : s.live = true) (ns : Nat) :
    (sessions (mediumOf (.formatted 1024) ns)).step s (.begin 0 1024) =
      some (.opened (.formatted 1024) true, s) := by
  have hchk : chkTxdSb (.formatted 1024) 1024 = 0 := by decide
  have hlong : (TxdJSuperblock.formatted 1024).LongEnough := by decide
  simp only [sessions, superblockAt_mediumOf, if_pos hlive, if_pos hchk, decide_eq_true hlong]

theorem Result.outcome_refused {r : Result} (h : r.outcome = .refused) : r = .began none := by
  rcases r with _ | _ | _ <;> simp_all [Result.outcome]

theorem traced_registries_plugged : ∃ log q ns entries as,
    (Exec.traced (Call.perform .plugged) [.format 0 1024, .begin 0 1024, .format 0 1024]).run
        (.start (mediumOf (.formatted 1024))) = .ok (log, q) ∧
      as.length = 3 ∧
      q.Holds ns (namespacesOf as (Platform.plugged.found 2)).reverse entries as.reverse := by
  have hstep : (sessions (mediumOf (.formatted 1024) 0)).run ⟨false, false⟩
      [.format 0 1024, .begin 0 1024, .format 0 1024] =
        some ([.formatted, .opened (.formatted 1024) true, .formatted], ⟨true, false⟩) := by
    rw [Machine.run_cons_step _ rfl, Machine.run_cons_step _ (sessions_begin_formatted rfl 0)]
    rfl
  obtain ⟨log, q, hrun, hlog⟩ :=
    traced_returns plugged_cooperative reliable_freeQpair plugged_front hstep
  have hno : ∀ x ∈ log, x.2 ≠ .began none := by
    intro x hx hfails
    have hmem := List.mem_map_of_mem (f := fun x => x.2.outcome) hx
    rw [hlog, hfails] at hmem
    simp [Result.outcome] at hmem
  obtain ⟨ns, entries, as, hlen, hholds, _⟩ := traced_registries plugged_counted hno hrun
  exact ⟨log, q, ns, entries, as, hrun, hlen, hholds⟩

/-- One journal is handed out, and an area of twice the size is refused. -/
theorem traced_tornDown_second :
    ∃ log q, (Exec.traced (Call.perform .reliable)
        [.format 0 1024, .begin 0 1024, .begin 0 2048]).run
          (.start (mediumOf (.formatted 1024))) = .ok (log, q) ∧
      (handed log).length = 1 ∧ q.heap.liveBlocks.card = 8 := by
  have hrefused : (sessions (mediumOf (.formatted 1024) 0)).step ⟨true, false⟩ (.begin 0 2048) =
      some (.refused, ⟨false, true⟩) := by
    have hchk : chkTxdSb (.formatted 1024) 2048 ≠ 0 := by decide
    simp only [sessions, superblockAt_mediumOf, if_neg hchk]
    rfl
  have hstep : (sessions (mediumOf (.formatted 1024) 0)).run ⟨false, false⟩
      [.format 0 1024, .begin 0 1024, .begin 0 2048] =
        some ([.formatted, .opened (.formatted 1024) true, .refused], ⟨false, true⟩) := by
    rw [Machine.run_cons_step _ rfl, Machine.run_cons_step _ (sessions_begin_formatted rfl 0),
      Machine.run_cons_step _ hrefused]
    rfl
  obtain ⟨log, q, hrun, hlog⟩ :=
    traced_returns reliable_cooperative reliable_freeQpair reliable_front hstep
  obtain ⟨⟨c, r⟩, log, rfl, hc, hlog⟩ := List.map_eq_cons_iff.mp hlog
  obtain ⟨⟨c', r'⟩, log, rfl, hc', hlog⟩ := List.map_eq_cons_iff.mp hlog
  obtain ⟨⟨c'', r''⟩, log, rfl, hc'', hlog⟩ := List.map_eq_cons_iff.mp hlog
  obtain rfl := List.map_eq_nil_iff.mp hlog
  have hfails : r'' = .began none := Result.outcome_refused hc''
  subst hfails
  have hhanded : (handed [(c, r), (c', r'), (c'', .began none)]).length = 1 := by
    rcases r with _ | _ | j <;> rcases r' with _ | _ | j' <;>
      simp_all [Result.outcome, handed, Result.journal]
  refine ⟨_, q, hrun, hhanded, ?_⟩
  rw [(traced_tornDown rfl hrun).2, hhanded]

end TxDriver
