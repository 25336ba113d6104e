import TxDriver.Driver.Revoke

/-!
# The life of the revoke tables

A journal's tables over any sequence of `txd_journal_init_revoke` and `txd_journal_destroy_revoke`.
Three pointers of the journal lead to them, and destroying the tables clears one of the three. What
the other two mean afterwards is a matter of the calls made since, which a stage keeps track of:
the tables are as good as they should be as long as none is destroyed through a stale pointer.
-/

namespace TxDriver

inductive RevokeCall where
  | init (hashSize : BitVec 32)
  | destroy

def RevokeCall.run (E : Platform) (j : TxdJournal) : RevokeCall → Driver TxdJournal
  | .init hashSize => do
    let (_, j) ← txdJournalInitRevoke E j hashSize
    pure j
  | .destroy => txdJournalDestroyRevoke j

/-- The calls made so far have left no tables and no pointers to any, live tables, or pointers to
tables that have been destroyed. -/
inductive RevokeStage where
  | absent
  | live
  | stale
  deriving DecidableEq

/-- `start` is the process before the first call. -/
structure RevokeState where
  start : Process
  process : Process
  journal : TxdJournal
  stage : RevokeStage

/-- The first table is assigned by every initialisation, the second one only when the first could
be built. -/
def RevokeCall.after (E : Platform) (s : RevokeState) : RevokeCall → RevokeStage
  | .init hashSize =>
    if E.Grants s.process.requests (revokeRequests hashSize) then .live
    else if E.Grants s.process.requests [sizeofTxdRevokeTable, bucketBytes hashSize] then .absent
    else s.stage
  | .destroy => if s.stage = .live then .stale else s.stage

def TxdJournal.PointsTo (j : TxdJournal) (t : Addr) : Prop :=
  j.jRevokeTable0 = some t ∨ j.jRevokeTable1 = some t

def RevokeState.NoTableLive (s : RevokeState) : Prop :=
  (∀ t ∈ s.journal.jRevokeTable0, ¬s.process.heap.Live t) ∧
    ∀ t ∈ s.journal.jRevokeTable1, ¬s.process.heap.Live t

instance (s : RevokeState) : Decidable s.NoTableLive :=
  inferInstanceAs (Decidable (_ ∧ _))

/-- Tables are built of a positive size, and only when none is live. -/
def RevokeCall.Legal (c : RevokeCall) (s : RevokeState) : Prop :=
  match c with
  | .init hashSize => 0 < hashSize.toInt ∧ s.NoTableLive
  | .destroy => True

instance RevokeCall.decidableLegal (c : RevokeCall) (s : RevokeState) : Decidable (c.Legal s) :=
  match c with
  | .init hashSize => inferInstanceAs (Decidable (0 < hashSize.toInt ∧ s.NoTableLive))
  | .destroy => .isTrue trivial

/-- Tables are not destroyed through pointers that an earlier destruction has left. -/
def RevokeCall.InOrder (c : RevokeCall) (s : RevokeState) : Prop :=
  match c with
  | .init _ => True
  | .destroy => s.stage ≠ .stale

instance RevokeCall.decidableInOrder (c : RevokeCall) (s : RevokeState) :
    Decidable (c.InOrder s) :=
  match c with
  | .init _ => .isTrue trivial
  | .destroy => inferInstanceAs (Decidable (s.stage ≠ .stale))

/-- Legal calls for one journal; a call that stops the process has no successor. -/
def revokeLifecycle (E : Platform) : TransitionSystem RevokeState RevokeCall where
  init s := s.process = s.start ∧ s.stage = .absent ∧ s.journal.jRevoke = none ∧
    s.journal.jRevokeTable0 = none ∧ s.journal.jRevokeTable1 = none
  step c s :=
    if c.Legal s then
      match (c.run E s.journal).run s.process with
      | .ok (j, q) => some { s with process := q, journal := j, stage := c.after E s }
      | .error _ => none
    else none

/-- Every block that was allocated and not freed is a table of the journal or the buckets of one,
`j_revoke` is a table of the journal, and no block was freed twice. -/
structure RevokeState.Sound (s : RevokeState) : Prop where
  revoke : ∀ t, s.journal.jRevoke = some t → s.journal.PointsTo t ∧
    ∃ b hashSize shift, s.process.TableAt t b hashSize shift
  reachable : ∀ a, s.start.heap.next ≤ a → s.process.heap.Live a →
    ∃ t b hashSize shift, s.journal.PointsTo t ∧ s.process.TableAt t b hashSize shift ∧
      (a = t ∨ a = b)
  once : ∃ freed, s.process.released = freed ++ s.start.released ∧ (freed.map Prod.fst).Nodup

inductive RevokeState.Known (s : RevokeState) : Prop
  | absent {freed : List (Addr × BitVec 64)} (stage : s.stage = .absent)
      (revoke : s.journal.jRevoke = none) (table0 : s.journal.jRevokeTable0 = none)
      (table1 : s.journal.jRevokeTable1 = none) (ledger : s.start.Ledger s.process [] freed)
  | live {n : Addr} {hashSize shift : BitVec 32} {freed : List (Addr × BitVec 64)}
      (stage : s.stage = .live) (revoke : s.journal.jRevoke = some (n + 2))
      (table0 : s.journal.jRevokeTable0 = some n) (table1 : s.journal.jRevokeTable1 = some (n + 2))
      (buckets0 : s.process.TableAt n (n + 1) hashSize shift)
      (buckets1 : s.process.TableAt (n + 2) (n + 3) hashSize shift)
      (ledger : s.start.Ledger s.process (revokeBlocks n hashSize) freed)
  | stale {t : Addr} {freed : List (Addr × BitVec 64)} (stage : s.stage = .stale)
      (revoke : s.journal.jRevoke = none)
      (table0 : ∀ t ∈ s.journal.jRevokeTable0, s.process.heap.cells t = none)
      (table1 : s.journal.jRevokeTable1 = some t) (dead : s.process.heap.cells t = none)
      (ledger : s.start.Ledger s.process [] freed)

section Stages

variable {E : Platform} {s s' : RevokeState} {c : RevokeCall} {p : Process} {j : TxdJournal}
  {t b : Addr} {hashSize shift : BitVec 32} {blocks freed : List (Addr × BitVec 64)}

theorem Process.TableAt.live (h : p.TableAt t b hashSize shift) : p.heap.Live t := by
  rw [Heap.Live, h.table]
  rfl

theorem Process.Ledger.released_once (h : s.start.Ledger s.process blocks freed) :
    ∃ freed, s.process.released = freed ++ s.start.released ∧ (freed.map Prod.fst).Nodup := by
  refine ⟨freed, h.released, ?_⟩
  have hnodup := h.perm.nodup_iff.mpr List.nodup_range'
  rw [List.map_append] at hnodup
  exact hnodup.of_append_right

theorem Process.Ledger.mem_of_live (h : s.start.Ledger s.process blocks freed)
    (hnew : s.start.heap.next ≤ t) (ht : s.process.heap.Live t) : t ∈ blocks.map Prod.fst := by
  by_contra hn
  rw [Heap.Live, h.allocates.adds.kept t hn, s.start.heap.fresh t hnew] at ht
  cases ht

theorem RevokeState.Known.sound (h : s.Known) : s.Sound := by
  cases h with
  | absent _ hrevoke _ _ hl | stale _ hrevoke _ _ _ hl =>
    refine ⟨?_, ?_, hl.released_once⟩
    · intro t ht
      rw [hrevoke] at ht
      cases ht
    · intro a hnew ha
      exact nomatch hl.mem_of_live hnew ha
  | @live n hashSize shift _ _ hrevoke htable₀ htable₁ hb₀ hb₁ hl =>
    refine ⟨?_, ?_, hl.released_once⟩
    · intro t ht
      rw [hrevoke] at ht
      cases ht
      exact ⟨Or.inr htable₁, _, _, _, hb₁⟩
    · intro a hnew ha
      have hmem := hl.mem_of_live hnew ha
      simp only [revokeBlocks, List.map_cons, List.map_nil, List.mem_cons, List.not_mem_nil,
        or_false] at hmem
      rcases hmem with ha | ha | ha | ha
      · exact ⟨_, _, _, _, Or.inr htable₁, hb₁, Or.inr ha⟩
      · exact ⟨_, _, _, _, Or.inr htable₁, hb₁, Or.inl ha⟩
      · exact ⟨_, _, _, _, Or.inl htable₀, hb₀, Or.inr ha⟩
      · exact ⟨_, _, _, _, Or.inl htable₀, hb₀, Or.inl ha⟩

theorem RevokeState.Known.init (h : s.Known) (hlegal : (RevokeCall.init hashSize).Legal s) :
    ∃ j q, ((RevokeCall.init hashSize).run E s.journal).run s.process = .ok (j, q) ∧
      ({ s with process := q, journal := j, stage := (RevokeCall.init hashSize).after E s } :
        RevokeState).Known := by
  obtain ⟨hpos, hdead₀, _⟩ := hlegal
  obtain ⟨shift, hshift, _⟩ := hashShift_shiftOf hpos
  obtain ⟨freed, hl, hrevoke⟩ :
      ∃ freed, s.start.Ledger s.process [] freed ∧ s.journal.jRevoke = none := by
    cases h with
    | absent _ hrevoke _ _ hl | stale _ hrevoke _ _ _ hl => exact ⟨_, hl, hrevoke⟩
    | live _ _ htable₀ _ hb₀ _ _ => exact absurd hb₀.live (hdead₀ _ htable₀)
  rw [RevokeCall.run, RevokeCall.after]
  by_cases hg : E.Grants s.process.requests (revokeRequests hashSize)
  · obtain ⟨q, hrun, hq, hb₀, hb₁, _, _⟩ := txdJournalInitRevoke_granted s.journal hshift hg
    refine ⟨_, q, Exec.run_bind_ok _ hrun, ?_⟩
    rw [if_pos hg]
    exact .live rfl rfl rfl rfl hb₀ hb₁ (hl.trans hq)
  · obtain ⟨q, freed', hrun, hq⟩ := txdJournalInitRevoke_refused s.journal hshift hg
    have hcells := hq.allocates.adds.cells_eq
    refine ⟨_, q, Exec.run_bind_ok _ hrun, ?_⟩
    rw [if_neg hg]
    by_cases hg₁ : E.Grants s.process.requests [sizeofTxdRevokeTable, bucketBytes hashSize]
    · rw [if_pos hg₁, if_pos hg₁]
      exact .absent rfl hrevoke rfl rfl (hl.trans hq)
    · rw [if_neg hg₁, if_neg hg₁]
      cases h with
      | absent hstage _ _ htable₁ _ => exact .absent hstage hrevoke rfl htable₁ (hl.trans hq)
      | stale hstage _ _ htable₁ hdead _ =>
        exact .stale hstage hrevoke nofun htable₁ ((congrFun hcells _).trans hdead) (hl.trans hq)
      | live _ _ htable₀ _ hb₀ _ _ => exact absurd hb₀.live (hdead₀ _ htable₀)

theorem RevokeState.Known.destroy (h : s.Known) (horder : s.stage ≠ .stale) :
    ∃ j q, (RevokeCall.destroy.run E s.journal).run s.process = .ok (j, q) ∧
      ({ s with process := q, journal := j, stage := RevokeCall.destroy.after E s } :
        RevokeState).Known := by
  rw [RevokeCall.run, RevokeCall.after]
  cases h with
  | absent hstage _ htable₀ htable₁ hl =>
    refine ⟨_, _, txdJournalDestroyRevoke_none htable₀ htable₁ _, ?_⟩
    rw [if_neg (by rw [hstage]; decide)]
    exact .absent hstage rfl htable₀ htable₁ hl
  | @live n hashSize shift freed hstage _ htable₀ htable₁ hb₀ hb₁ hl =>
    obtain ⟨freed', hfree⟩ := hl.freeTables_all
    refine ⟨_, _, txdJournalDestroyRevoke_run htable₀ htable₁ hb₀ hb₁ (by simp), ?_⟩
    rw [if_pos hstage]
    have hdead (t : Addr) (ht : s.start.heap.next ≤ t) :
        ((s.process.freeTable n (n + 1) hashSize).freeTable (n + 2) (n + 3)
          hashSize).heap.cells t = none := by
      rw [hfree.allocates.adds.cells_eq]
      exact s.start.heap.fresh t ht
    have hnew (t : Addr) (ht : t ∈ (revokeBlocks n hashSize).map Prod.fst) :
        s.start.heap.next ≤ t := hl.allocates.adds.new t ht
    refine .stale rfl rfl ?_ htable₁ (hdead _ (hnew _ (by simp [revokeBlocks]))) hfree
    intro t ht
    rw [htable₀] at ht
    cases ht
    exact hdead n (hnew n (by simp [revokeBlocks]))
  | stale hstage _ _ _ _ _ => exact absurd hstage horder

theorem txdJournalDestroyRevokeTable_dead (ht : p.heap.cells t = none) :
    (txdJournalDestroyRevokeTable t).run p = .error (.fault (.freedBlock t)) := by
  rw [txdJournalDestroyRevokeTable]
  apply Exec.run_bind_error
  simp only [loadTable, Exec.run, ht]

/-- A pointer that an earlier destruction has left leads into freed memory. -/
theorem RevokeState.Known.destroy_stale (h : s.Known) (hstage : s.stage = .stale) :
    ∃ a, (RevokeCall.destroy.run E s.journal).run s.process =
      .error (.fault (.freedBlock a)) := by
  cases h with
  | absent habsent _ _ _ _ => rw [hstage] at habsent; cases habsent
  | live hlive _ _ _ _ _ _ => rw [hstage] at hlive; cases hlive
  | @stale t _ _ _ htable₀ htable₁ hdead _ =>
    rw [RevokeCall.run, txdJournalDestroyRevoke]
    cases hj : s.journal.jRevokeTable0 with
    | none =>
      simp only [htable₁, txdJournalDestroyRevokeTable?]
      exact ⟨t, Exec.run_seq rfl
        (Exec.run_bind_error _ (txdJournalDestroyRevokeTable_dead hdead))⟩
    | some a =>
      simp only [txdJournalDestroyRevokeTable?]
      exact ⟨a, Exec.run_bind_error _ (txdJournalDestroyRevokeTable_dead (htable₀ a hj))⟩

theorem revokeLifecycle_step {q : Process} (hlegal : c.Legal s)
    (hrun : (c.run E s.journal).run s.process = .ok (j, q)) :
    (revokeLifecycle E).step c s =
      some { s with process := q, journal := j, stage := c.after E s } := by
  simp only [revokeLifecycle, if_pos hlegal, hrun]

theorem revokeLifecycle_legal (h : (revokeLifecycle E).step c s = some s') : c.Legal s := by
  by_contra hn
  simp only [revokeLifecycle, if_neg hn] at h
  cases h

theorem RevokeState.Known.step (h : s.Known) (hlegal : c.Legal s) (horder : c.InOrder s) :
    ∃ s', (revokeLifecycle E).step c s = some s' ∧ s'.Known := by
  have hcall : ∃ j q, (c.run E s.journal).run s.process = .ok (j, q) ∧
      ({ s with process := q, journal := j, stage := c.after E s } : RevokeState).Known := by
    cases c with
    | init hashSize => exact h.init hlegal
    | destroy => exact h.destroy horder
  obtain ⟨j, q, hrun, hknown⟩ := hcall
  exact ⟨_, revokeLifecycle_step hlegal hrun, hknown⟩

theorem RevokeState.Known.inOrder (h : s.Known) (hstep : (revokeLifecycle E).step c s = some s') :
    c.InOrder s := by
  cases c with
  | init hashSize => exact trivial
  | destroy =>
    intro hstage
    obtain ⟨a, hfault⟩ := h.destroy_stale (E := E) hstage
    simp only [revokeLifecycle, hfault, ite_self] at hstep
    cases hstep

/-- As long as every call is in order the tables are sound; the first call that is not goes
wrong. -/
theorem revokeTables_sound
    (hs : ((revokeLifecycle E).guard RevokeCall.InOrder).Reachable s) :
    s.Sound ∧ ∀ c : RevokeCall, c.Legal s →
      ((∃ s', (revokeLifecycle E).step c s = some s' ∧ s'.Sound) ↔ c.InOrder s) := by
  have hknown : s.Known := by
    refine hs.invariant ?_ ?_
    · intro s hstart
      rcases hstart with ⟨hprocess, hstage, hrevoke, htable₀, htable₁⟩
      have hl : s.start.Ledger s.process [] [] := by
        rw [hprocess]
        exact .refl
      exact .absent hstage hrevoke htable₀ htable₁ hl
    · intro c s s' hs hstep
      obtain ⟨horder, hstep⟩ := TransitionSystem.guard_step_eq_some.mp hstep
      obtain ⟨t, ht, hknown⟩ := hs.step (revokeLifecycle_legal hstep) horder
      rw [hstep] at ht
      cases ht
      exact hknown
  refine ⟨hknown.sound, ?_⟩
  intro c hlegal
  constructor
  · intro hok
    rcases hok with ⟨s', hstep, _⟩
    exact hknown.inOrder hstep
  · intro horder
    obtain ⟨s', hstep, hs'⟩ := hknown.step hlegal horder
    exact ⟨s', hstep, hs'.sound⟩

end Stages

def RevokeState.fresh : RevokeState where
  start := .start fun _ _ _ => 0
  process := .start fun _ _ _ => 0
  journal := .zeroed 0 (.formatted 4096)
  stage := .absent

theorem revokeTables_sound_destroyed :
    ∃ s, ((revokeLifecycle .reliable).guard RevokeCall.InOrder).Reachable s ∧ s.Sound ∧
      ¬∃ s', (revokeLifecycle .reliable).step .destroy s = some s' ∧ s'.Sound := by
  have hstage : (((revokeLifecycle .reliable).guard RevokeCall.InOrder).run [.init 1, .destroy]
      .fresh).map RevokeState.stage = some .stale := by
    decide +kernel
  obtain ⟨s, hrun, hstale⟩ := Option.map_eq_some_iff.mp hstage
  have hstart : ((revokeLifecycle .reliable).guard RevokeCall.InOrder).Reachable .fresh :=
    .init ⟨rfl, rfl, rfl, rfl, rfl⟩
  have hs := hstart.run hrun
  exact ⟨s, hs, (revokeTables_sound hs).1,
    fun h => ((revokeTables_sound hs).2 .destroy trivial).mp h hstale⟩

theorem revokeTables_destroyed_twice :
    ¬∀ (E : Platform) (s : RevokeState), (revokeLifecycle E).Reachable s →
      s.Sound ∧ ∀ c : RevokeCall, c.Legal s → ∃ s', (revokeLifecycle E).step c s = some s' := by
  intro h
  have hagain : ((revokeLifecycle .reliable).run [.init 1, .destroy] .fresh).map
      (fun s => ((revokeLifecycle .reliable).step .destroy s).isSome) = some false := by
    decide +kernel
  obtain ⟨s, hrun, hstop⟩ := Option.map_eq_some_iff.mp hagain
  have hstart : (revokeLifecycle .reliable).Reachable .fresh := .init ⟨rfl, rfl, rfl, rfl, rfl⟩
  obtain ⟨s', hstep⟩ := (h _ _ (hstart.run hrun)).2 .destroy trivial
  rw [hstep] at hstop
  cases hstop

end TxDriver
