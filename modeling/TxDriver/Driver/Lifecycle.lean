import TxDriver.Driver.Contracts

/-!
# Sequences of calls

The registries over a whole run. What a caller has to know about them is three facts about the
calls made so far. The conditions on a further call are stated with these, and a run misuses a
registry exactly when one of its calls does not meet them.
-/

namespace TxDriver

inductive Call where
  | format (txdAddr : BitVec 64) (txdSize : BitVec 32)
  | begin (txdAddr : BitVec 64) (txdSize : BitVec 32)

def Call.run (E : Platform) : Call → Driver Unit
  | .format txdAddr txdSize => do
    let _ ← txFormat E txdAddr txdSize
    pure ()
  | .begin txdAddr txdSize => do
    let _ ← txBegin E txdAddr txdSize
    pure ()

def runCalls (E : Platform) : List Call → Driver Unit
  | [] => pure ()
  | c :: cs => do
    c.run E
    runCalls E cs

/-- No call of the run follows a null or dangling pointer of a registry, frees an entry twice or
detaches a controller twice. -/
def RegistriesSafe (E : Platform) (medium : Nat → Nat → Sector) (cs : List Call) : Prop :=
  ∀ f, (runCalls E cs).run (.start medium) = .error (.fault f) → ¬f.OfRegistry

/-- What the calls made so far mean for the registries: a format has returned, one has returned
since the last teardown, and the registries have been torn down. -/
structure Lifecycle where
  formatted : Prop
  live : Prop
  tornDown : Prop

namespace Lifecycle

def fresh : Lifecycle := ⟨False, False, False⟩

/-- The driver takes the probe for a failure: it reports one, or no controller is known. -/
def ProbeFails (L : Lifecycle) (R : ProbeReport) : Prop :=
  R.rc ≠ 0 ∨ (¬L.formatted ∧ R.ctrlrs = [])

def afterFormat (L : Lifecycle) : Lifecycle := ⟨True, True, L.tornDown⟩

def afterBegin (L : Lifecycle) (fails : Prop) : Lifecycle :=
  ⟨L.formatted, L.live ∧ ¬fails, L.tornDown ∨ fails⟩

end Lifecycle

def Call.after (E : Platform) (p : Process) (L : Lifecycle) : Call → Lifecycle
  | .format _ _ => L.afterFormat
  | .begin txdAddr txdSize => L.afterBegin (BeginFails E p txdAddr txdSize)

/-- The probe finds an active namespace unless one is still registered, and does not fail after a
teardown. A probe that does not return ends the run before either matters. -/
def FormatAllowed (E : Platform) (p : Process) (L : Lifecycle) : Prop :=
  E.Attaches p.requests (E.probe p.probes).ctrlrs →
    (L.ProbeFails (E.probe p.probes) → ¬L.tornDown) ∧
      (¬L.ProbeFails (E.probe p.probes) → L.live ∨ attachIds (E.probe p.probes).ctrlrs ≠ [])

/-- A format has returned since the last teardown, and there is no second teardown. -/
def BeginAllowed (E : Platform) (p : Process) (L : Lifecycle) (txdAddr : BitVec 64)
    (txdSize : BitVec 32) : Prop :=
  L.live ∧ (BeginFails E p txdAddr txdSize →
    E.freeQpair p.qpairFrees p.headQpair ≠ txdFail → ¬L.tornDown)

def Call.Allowed (E : Platform) (p : Process) (L : Lifecycle) : Call → Prop
  | .format _ _ => FormatAllowed E p L
  | .begin txdAddr txdSize => BeginAllowed E p L txdAddr txdSize

/-- Every call that the run comes to is in order. -/
def Disciplined (E : Platform) (p : Process) (L : Lifecycle) : List Call → Prop
  | [] => True
  | c :: cs => c.Allowed E p L ∧
    ∀ q, (c.run E).run p = .ok ((), q) → Disciplined E q (c.after E p L) cs

structure Lifecycle.Describes (L : Lifecycle) (p : Process) : Prop where
  formatted : L.formatted ↔ p.gControllers ≠ none
  live : L.live → p.HeadLive
  dead : ¬L.live → p.HeadDead
  intact : ¬L.tornDown → p.Registered
  broken : L.tornDown → p.Dangling

/-- The process has stopped, and not for a misuse of a registry. -/
def Stop.NotOfRegistry (s : Stop Fault) : Prop := ∀ f, s = .fault f → ¬f.OfRegistry

theorem exit_notOfRegistry (code : Int) : (Stop.exit code).NotOfRegistry := by
  intro f hf
  cases hf

theorem assertion_notOfRegistry : Stop.assertion.NotOfRegistry := by
  intro f hf
  cases hf

theorem hang_notOfRegistry : Stop.hang.NotOfRegistry := by
  intro f hf
  cases hf

theorem start_describes (medium : Nat → Nat → Sector) :
    Lifecycle.fresh.Describes (.start medium) where
  formatted := ⟨False.elim, fun h => h rfl⟩
  live := False.elim
  dead _ := by
    intro a ha
    cases ha
  intact _ := ⟨[], [], .nil, .nil, nofun, List.nodup_nil⟩
  broken := False.elim

section Steps

variable {E : Platform} {p q : Process} {L : Lifecycle} {txdAddr : BitVec 64}
  {txdSize : BitVec 32}

theorem Lifecycle.Describes.probeFails (hL : L.Describes p) (R : ProbeReport) :
    L.ProbeFails R ↔ R.rc ≠ 0 ∨ (p.gControllers = none ∧ R.ctrlrs = []) := by
  rw [Lifecycle.ProbeFails, hL.formatted, not_not]

theorem Lifecycle.Describes.keeps (hL : L.Describes p) (h : p.Keeps q) : L.Describes q where
  formatted := by
    rw [h.controllers]
    exact hL.formatted
  live hl := h.headLive (hL.live hl)
  dead hd := h.headDead (hL.dead hd)
  intact hi := h.registered (hL.intact hi)
  broken hb := h.dangling (hL.broken hb)

theorem Lifecycle.Describes.afterBegin {fails : Prop} (hL : L.Describes p) (h : ¬fails) :
    (L.afterBegin fails).Describes p where
  formatted := hL.formatted
  live hl := hL.live hl.1
  dead hd := hL.dead fun hl => hd ⟨hl, h⟩
  intact hi := hL.intact fun ht => hi (Or.inl ht)
  broken hb := hL.broken (hb.resolve_right h)

theorem Lifecycle.Describes.spdkInit (hL : L.Describes p)
    (hg : E.Attaches p.requests (E.probe p.probes).ctrlrs)
    (hprobe : ¬L.ProbeFails (E.probe p.probes)) :
    ∃ q, (TxDriver.spdkInit E).run p = .ok (txdSuccess, q) ∧
      p.Extends q (attachIds (E.probe p.probes).ctrlrs) ∧ q.gControllers ≠ none := by
  have hfound := mt (hL.probeFails _).mpr hprobe
  rw [not_or, not_not, not_and_or] at hfound
  exact spdkInit_success hg hfound.1 hfound.2

theorem txFormat_ensures (hL : L.Describes p) (hok : FormatAllowed E p L) :
    Exec.Ensures (Eq p) (txFormat E txdAddr txdSize) (fun _ q => L.afterFormat.Describes q)
      Stop.NotOfRegistry := by
  by_cases hg : E.Attaches p.requests (E.probe p.probes).ctrlrs
  swap
  · obtain ⟨s, hstop, hs⟩ := spdkNvmeProbe_stops hg
    have hinit : (spdkInit E).run p = .error s := by
      rw [spdkInit, Exec.run_bind_error _ hstop]
    apply Exec.Ensures.of_error (txFormat_stopped txdAddr txdSize hinit)
    rcases hs with rfl | rfl
    · exact exit_notOfRegistry 1
    · exact hang_notOfRegistry
  obtain ⟨hfails, hfinds⟩ := hok hg
  by_cases hprobe : L.ProbeFails (E.probe p.probes)
  · obtain ⟨q, hinit⟩ := spdkInit_fail hg ((hL.probeFails _).mp hprobe)
      (hL.intact (hfails hprobe))
    exact .of_error (txFormat_uninitialised txdAddr txdSize hinit) assertion_notOfRegistry
  obtain ⟨q, hinit, hext, hsome⟩ := hL.spdkInit hg hprobe
  obtain ⟨a, e, ha⟩ := hext.headLive ((hfinds hprobe).imp_left hL.live)
  by_cases hgot : E.allocsQpair q.qpairs = true ∧
      E.allocates q.requests sizeofTxdJSuperblock = true
  swap
  · exact .of_error (txFormat_denied txdAddr txdSize hinit ha hgot) assertion_notOfRegistry
  obtain ⟨r, hrun, hsame, _⟩ := txFormat_granted txdAddr txdSize hinit ha hgot.1 hgot.2
  apply Exec.Ensures.of_ok hrun
  refine ⟨?_, ?_, fun h => absurd trivial h, ?_, ?_⟩
  · rw [hsame.controllers]
    exact iff_of_true trivial hsome
  · intro _
    exact hsame.keeps.headLive ⟨a, _, setQpair_head ha _⟩
  · intro hintact
    exact hsame.keeps.registered (setQpair_registered ha _ (hext.registered (hL.intact hintact)))
  · intro hbroken
    exact hsame.keeps.dangling (setQpair_dangling ha _ (hext.dangling (hL.broken hbroken)))

theorem txBegin_ensures (hL : L.Describes p) (hok : BeginAllowed E p L txdAddr txdSize) :
    Exec.Ensures (Eq p) (txBegin E txdAddr txdSize)
      (fun _ q => (L.afterBegin (BeginFails E p txdAddr txdSize)).Describes q)
      Stop.NotOfRegistry := by
  obtain ⟨hlive, honce⟩ := hok
  obtain ⟨a, e, ha⟩ := hL.live hlive
  rcases begin_cases txdAddr txdSize ha with hfail | ⟨hbuf, hn⟩ | ⟨hb, hacc⟩
  · obtain ⟨q, hsame, hrun⟩ := txBegin_fails txdJournalRecover txdAddr txdSize hfail
    have hlive' : q.HeadLive := hsame.keeps.headLive ⟨a, e, ha⟩
    by_cases hfree : E.freeQpair q.qpairFrees q.headQpair = txdFail
    · exact .of_error (hrun.trans (beginOut1_asserts hlive' hfree)) assertion_notOfRegistry
    have honce' : ¬L.tornDown := by
      rw [hsame.frees, hsame.headQpair] at hfree
      exact honce hfail hfree
    obtain ⟨r, hnone, hcontrollers, hdead, hdangling⟩ :=
      beginOut1_tearsDown hlive' ⟨hfree, hsame.keeps.registered (hL.intact honce')⟩
    apply Exec.Ensures.of_ok (hrun.trans hnone)
    refine ⟨?_, fun h => absurd hfail h.2, fun _ => hdead, fun h => absurd (Or.inr hfail) h,
      fun _ => hdangling⟩
    rw [hcontrollers, hsame.controllers]
    exact hL.formatted
  · rcases txBegin_unread txdJournalRecover txdAddr txdSize ha hbuf hn with hstop | hstop
    · exact .of_error hstop (exit_notOfRegistry 1)
    · apply Exec.Ensures.of_error hstop
      intro f hf
      cases hf
      exact id
  · obtain ⟨n, q, hkeeps, hrun⟩ := txBegin_built txdJournalRecover txdAddr txdSize ha hb hacc
    have hnot := not_beginFails_of_accepts txdAddr txdSize ha hb hacc
    cases hload : txdJournalLoadWith txdJournalRecover (E.pthreadCreate p.threads)
        (.describedBy n (deviceSuperblock E p e txdAddr)) with
    | error s =>
      rw [hload, txdJournalLoadWith_stop hload] at hrun
      exact .of_error hrun hang_notOfRegistry
    | ok res =>
      rw [hload] at hrun
      exact .of_ok hrun ((hL.keeps hkeeps).afterBegin hnot)

theorem Call.ensures {c : Call} (hL : L.Describes p) (hok : c.Allowed E p L) :
    Exec.Ensures (Eq p) (c.run E) (fun _ q => (c.after E p L).Describes q)
      Stop.NotOfRegistry := by
  cases c with
  | format txdAddr txdSize =>
    apply Exec.Ensures.bind (txFormat_ensures hL hok)
    intro _
    exact .pure fun _ hq => hq
  | begin txdAddr txdSize =>
    apply Exec.Ensures.bind (txBegin_ensures hL hok)
    intro _
    exact .pure fun _ hq => hq

theorem runCalls_ensures (E : Platform) (cs : List Call) :
    Exec.Ensures (fun p => ∃ L, Lifecycle.Describes L p ∧ Disciplined E p L cs) (runCalls E cs)
      (fun _ q => ∃ L, Lifecycle.Describes L q) Stop.NotOfRegistry := by
  induction cs with
  | nil =>
    apply Exec.Ensures.pure
    intro p hknown
    rcases hknown with ⟨L, hL, _⟩
    exact ⟨L, hL⟩
  | cons c cs ih =>
    refine Exec.Ensures.bind ?_ fun _ => ih
    intro p hknown
    rcases hknown with ⟨L, hL, hok, hrest⟩
    have hcall := Call.ensures hL hok p rfl
    cases hrun : (c.run E).run p with
    | error s =>
      rw [hrun] at hcall
      exact hcall
    | ok res =>
      rw [hrun] at hcall
      exact ⟨_, hcall, hrest _ hrun⟩

theorem txFormat_faults (txdAddr : BitVec 64) (txdSize : BitVec 32) (hL : L.Describes p)
    (hno : ¬FormatAllowed E p L) :
    ∃ f, (txFormat E txdAddr txdSize).run p = .error (.fault f) ∧ f.OfRegistry := by
  rw [FormatAllowed, Classical.not_imp, not_and_or, Classical.not_imp, not_not,
    Classical.not_imp] at hno
  obtain ⟨hg, ⟨hprobe, htorn⟩ | ⟨hprobe, hnone⟩⟩ := hno
  · obtain ⟨f, hfault, hf⟩ := spdkInit_fault hg ((hL.probeFails _).mp hprobe) (hL.broken htorn)
    exact ⟨f, txFormat_stopped txdAddr txdSize hfault, hf⟩
  · rw [not_or, not_not] at hnone
    obtain ⟨q, hinit, hext, _⟩ := hL.spdkInit hg hprobe
    rw [hnone.2] at hext
    exact txFormat_headless txdAddr txdSize hinit (hext.headDead (hL.dead hnone.1)).not_headLive

theorem txBegin_faults (hL : L.Describes p) (hno : ¬BeginAllowed E p L txdAddr txdSize) :
    ∃ f, (txBegin E txdAddr txdSize).run p = .error (.fault f) ∧ f.OfRegistry := by
  by_cases hlive : L.live
  swap
  · exact txBegin_headless txdJournalRecover txdAddr txdSize (hL.dead hlive).not_headLive
  have hagain : BeginFails E p txdAddr txdSize ∧
      E.freeQpair p.qpairFrees p.headQpair ≠ txdFail ∧ L.tornDown := by
    by_contra h
    exact hno ⟨hlive, fun hfail hfree htorn => h ⟨hfail, hfree, htorn⟩⟩
  obtain ⟨hfail, hfree, htorn⟩ := hagain
  obtain ⟨q, hsame, hrun⟩ := txBegin_fails txdJournalRecover txdAddr txdSize hfail
  rw [← hsame.frees, ← hsame.headQpair] at hfree
  obtain ⟨f, hfault, hf⟩ := beginOut1_faults (hsame.keeps.headLive (hL.live hlive)) hfree
    (hsame.keeps.dangling (hL.broken htorn)).not_registered
  exact ⟨f, hrun.trans hfault, hf⟩

theorem Call.faults {c : Call} (hL : L.Describes p) (hno : ¬c.Allowed E p L) :
    ∃ f, (c.run E).run p = .error (.fault f) ∧ f.OfRegistry := by
  cases c with
  | format txdAddr txdSize =>
    obtain ⟨f, hfault, hf⟩ := txFormat_faults txdAddr txdSize hL hno
    exact ⟨f, Exec.run_bind_error _ hfault, hf⟩
  | begin txdAddr txdSize =>
    obtain ⟨f, hfault, hf⟩ := txBegin_faults hL hno
    exact ⟨f, Exec.run_bind_error _ hfault, hf⟩

/-- A run misuses a registry at its first call that is not in order. -/
theorem runCalls_faults {cs : List Call} (hL : L.Describes p) (hno : ¬Disciplined E p L cs) :
    ∃ f, (runCalls E cs).run p = .error (.fault f) ∧ f.OfRegistry := by
  induction cs generalizing p L with
  | nil => exact absurd trivial hno
  | cons c cs ih =>
    rw [runCalls]
    by_cases hok : c.Allowed E p L
    swap
    · obtain ⟨f, hfault, hf⟩ := Call.faults hL hok
      exact ⟨f, Exec.run_bind_error _ hfault, hf⟩
    have hlater : ∃ q, (c.run E).run p = .ok ((), q) ∧ ¬Disciplined E q (c.after E p L) cs := by
      by_contra h
      exact hno ⟨hok, fun q hrun => by_contra fun hq => h ⟨q, hrun, hq⟩⟩
    obtain ⟨q, hrun, hq⟩ := hlater
    have hcall := Call.ensures hL hok p rfl
    rw [hrun] at hcall
    obtain ⟨f, hfault, hf⟩ := ih hcall hq
    exact ⟨f, (Exec.run_bind_ok _ hrun).trans hfault, hf⟩

end Steps

/-- A run from a fresh process is safe exactly when its calls are in order. -/
theorem registriesSafe_iff (E : Platform) (medium : Nat → Nat → Sector) (cs : List Call) :
    RegistriesSafe E medium cs ↔ Disciplined E (.start medium) .fresh cs := by
  constructor
  · intro hsafe
    by_contra hno
    obtain ⟨f, hfault, hf⟩ := runCalls_faults (start_describes medium) hno
    exact hsafe f hfault hf
  · intro hruns f hfault
    exact (runCalls_ensures E cs).stops ⟨_, start_describes medium, hruns⟩ hfault f rfl

/-- A format followed by a `tx_begin` is in order when the probe finds an active namespace. -/
example : Disciplined .reliable (.start fun _ _ _ => 0) .fresh [.format 0 1024, .begin 0 1024] := by
  have hids : attachIds (Platform.reliable.probe 0).ctrlrs ≠ [] := by decide
  refine ⟨fun _ => ⟨fun _ => id, fun _ => Or.inr hids⟩, ?_⟩
  intro q _
  exact ⟨⟨trivial, fun _ _ => id⟩, fun _ _ => trivial⟩

theorem registriesSafe_begin_first :
    ¬∀ (E : Platform) (medium : Nat → Nat → Sector) (cs : List Call),
      RegistriesSafe E medium cs := by
  intro h
  have hno : ¬BeginAllowed .reliable (.start fun _ _ _ => 0) .fresh 0 1024 := fun hok => hok.1
  obtain ⟨f, hfault, hf⟩ := txBegin_faults (start_describes _) hno
  have hcall : (Call.run .reliable (.begin 0 1024)).run (.start fun _ _ _ => 0) =
      .error (.fault f) := Exec.run_bind_error _ hfault
  exact h .reliable (fun _ _ _ => 0) [.begin 0 1024] f (Exec.run_bind_error _ hcall) hf

end TxDriver
