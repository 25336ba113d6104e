import TxDriver.Framework.Machine
import TxDriver.Driver.Media

/-!
# What the interface is for

The calls as a caller sees them on a platform that does what it is asked to: an area can be opened
when the device holds a superblock for it, and the first area that is refused closes the session for
good. The driver implements this machine; where it is stuck, the driver misuses a registry.
-/

namespace TxDriver

/-- A format has been made since the last teardown, and there has been a teardown. -/
structure Session where
  live : Bool
  tornDown : Bool

inductive Outcome where
  | formatted
  | opened (jSb : TxdJSuperblock) (loaded : Bool)
  | refused

/-- The sessions on a namespace with the sectors `medium`. -/
def sessions (medium : Nat → Sector) : Machine Session Call Outcome where
  step s
    | .format _ _ => some (.formatted, ⟨true, s.tornDown⟩)
    | .begin txdAddr txdSize =>
      let jSb := superblockAt medium txdAddr
      if s.live then
        if chkTxdSb jSb txdSize = 0 then some (.opened jSb (decide jSb.LongEnough), s)
        else if s.tornDown then none
        else some (.refused, ⟨false, true⟩)
      else none

def Result.outcome : Result → Outcome
  | .formatted _ => .formatted
  | .began none => .refused
  | .began (some j) => .opened j.jSuperblock (decide (j.jFlags &&& txdLoaded = txdLoaded))

def Stop.OfRegistry (s : Stop Fault) : Prop := ∃ f, s = .fault f ∧ f.OfRegistry

structure Session.Describes (s : Session) (medium : Nat → Nat → Sector) (ns : Nat) (p : Process) :
    Prop where
  registries : ∃ formatted, Lifecycle.Describes ⟨formatted, s.live = true, s.tornDown = true⟩ p
  media : p.Untouched medium ns

section Implementation

variable {E : Platform} {p q : Process} {s : Session} {medium : Nat → Nat → Sector} {ns : Nat}
  {txdAddr : BitVec 64} {txdSize : BitVec 32}

theorem format_implemented (hE : E.Cooperative)
    (hns : ∀ k, (attachIds (E.probe k).ctrlrs).getLast? = some ns) (hs : s.Describes medium ns p) :
    ∃ q, (txFormat E txdAddr txdSize).run p = .ok (txdSuccess, q) ∧
      Session.Describes ⟨true, s.tornDown⟩ medium ns q := by
  obtain ⟨⟨formatted, hL⟩, hmedia⟩ := hs
  obtain ⟨q, _, _, hrun, _⟩ := txFormat_cooperative (p := p) txdAddr txdSize hE (hns p.probes)
  have hids : attachIds (E.probe p.probes).ctrlrs ≠ [] := by
    intro hnil
    have hlast := hns p.probes
    rw [hnil] at hlast
    cases hlast
  have hsucceeds : ¬Lifecycle.ProbeFails ⟨formatted, s.live = true, s.tornDown = true⟩
      (E.probe p.probes) := by
    rintro (hrc | ⟨_, hnone⟩)
    · exact hrc (hE.probe p.probes)
    · rw [hnone] at hids
      exact hids rfl
  have hok : FormatAllowed E p ⟨formatted, s.live = true, s.tornDown = true⟩ :=
    fun _ => ⟨fun hfails => absurd hfails hsucceeds, fun _ => Or.inr hids⟩
  have hensures : Exec.Ensures (Eq p) (txFormat E txdAddr txdSize)
      (fun _ q => (Lifecycle.afterFormat _).Describes q) Stop.NotOfRegistry :=
    txFormat_ensures hL hok
  have hq := hensures p rfl
  rw [hrun] at hq
  refine ⟨q, hrun, ⟨True, ?_⟩, txFormat_untouched hE (hns p.probes) hmedia.medium hrun⟩
  exact ⟨hq.formatted, fun _ => hq.live trivial, fun hd => absurd rfl hd, hq.intact, hq.broken⟩

/-- An area whose superblock passes the check is opened; whether its journal is loaded depends on
the length of the area alone. -/
theorem begin_accepted (hE : E.Cooperative) (hs : s.Describes medium ns p) (hlive : s.live = true)
    (hchk : chkTxdSb (superblockAt (medium ns) txdAddr) txdSize = 0) :
    ∃ j q, (txBegin E txdAddr txdSize).run p = .ok (some j, q) ∧
      (Result.began (some j)).outcome = .opened (superblockAt (medium ns) txdAddr)
        (decide (superblockAt (medium ns) txdAddr).LongEnough) ∧ s.Describes medium ns q := by
  obtain ⟨⟨formatted, hL⟩, hmedia⟩ := hs
  obtain ⟨a, e, ha⟩ := hL.live hlive
  have hdevice : deviceSuperblock E p e txdAddr = superblockAt (medium ns) txdAddr := by
    rw [deviceSuperblock_completed hE, hmedia.medium, hmedia.head a e ha]
  have hacc : BeginAccepts E p (deviceSuperblock E p e txdAddr) txdSize := by
    rw [hdevice]
    exact ⟨hchk, Platform.grants_of_allocates hE.allocates _ _⟩
  obtain ⟨n, q, hkeeps, hbuilt⟩ := txBegin_built txdJournalRecover txdAddr txdSize ha
    (beginReads_cooperative hE) hacc
  rw [hdevice] at hbuilt
  have hopens : ∃ j, (txBegin E txdAddr txdSize).run p = .ok (some j, q) ∧
      (j.jFlags &&& txdLoaded = txdLoaded ↔ (superblockAt (medium ns) txdAddr).LongEnough) := by
    by_cases hlong : (superblockAt (medium ns) txdAddr).LongEnough
    · have hload : txdJournalLoadWith txdJournalRecover (E.pthreadCreate p.threads)
          (.describedBy n (superblockAt (medium ns) txdAddr)) =
            .ok (txdSuccess, TxdJournal.afterLoad
              (.describedBy n (superblockAt (medium ns) txdAddr))) :=
        txdJournalLoadWith_success_iff.mpr ⟨⟨rfl, rfl, hlong, hE.pthreadCreate p.threads⟩, rfl⟩
      rw [hload] at hbuilt
      exact ⟨_, hbuilt, iff_of_true (afterLoad_jFlags_loaded _) hlong⟩
    · have hload := txdJournalLoadWith_eq txdJournalRecover (E.pthreadCreate p.threads)
        (.describedBy n (superblockAt (medium ns) txdAddr))
      have hshort : ¬(TxdJournal.describedBy n
          (superblockAt (medium ns) txdAddr)).jSuperblock.LongEnough := hlong
      rw [if_pos (Or.inr (Or.inr hshort))] at hload
      rw [hload] at hbuilt
      refine ⟨_, hbuilt, iff_of_false ?_ hlong⟩
      rw [describedBy_jFlags]
      decide
  obtain ⟨j, hrun, hflags⟩ := hopens
  obtain ⟨huntouched, hsb⟩ := txBegin_untouched hE hmedia hrun
  refine ⟨j, q, hrun, ?_, ⟨formatted, hL.keeps hkeeps⟩, huntouched⟩
  rw [Result.outcome, hsb j rfl, decide_eq_decide.mpr hflags]

theorem begin_fails (hE : E.Cooperative) (hs : s.Describes medium ns p) (hlive : s.live = true)
    (hchk : chkTxdSb (superblockAt (medium ns) txdAddr) txdSize ≠ 0) :
    BeginFails E p txdAddr txdSize := by
  obtain ⟨⟨formatted, hL⟩, hmedia⟩ := hs
  obtain ⟨a, e, ha⟩ := hL.live hlive
  refine ⟨a, e, ha, Or.inr ⟨beginReads_cooperative hE, ?_⟩⟩
  intro hacc
  rw [deviceSuperblock_completed hE, hmedia.medium, hmedia.head a e ha] at hacc
  exact hchk hacc.1

theorem begin_refused (hE : E.Cooperative) (hfree : ∀ k qpair, E.freeQpair k qpair ≠ txdFail)
    (hs : s.Describes medium ns p) (hlive : s.live = true) (htorn : s.tornDown = false)
    (hchk : chkTxdSb (superblockAt (medium ns) txdAddr) txdSize ≠ 0) :
    ∃ q, (txBegin E txdAddr txdSize).run p = .ok (none, q) ∧
      Session.Describes ⟨false, true⟩ medium ns q := by
  have hfails := begin_fails hE hs hlive hchk
  obtain ⟨⟨formatted, hL⟩, hmedia⟩ := hs
  have hintact : ¬s.tornDown = true := by simp [htorn]
  have hok : BeginAllowed E p ⟨formatted, s.live = true, s.tornDown = true⟩ txdAddr txdSize :=
    ⟨hlive, fun _ _ => hintact⟩
  have hensures := txBegin_ensures hL hok p rfl
  obtain ⟨r, hsame, hout⟩ := txBegin_fails txdJournalRecover txdAddr txdSize hfails
  obtain ⟨q, hrun, _⟩ := beginOut1_tearsDown (hsame.keeps.headLive (hL.live hlive))
    ⟨hfree r.qpairFrees r.headQpair, hsame.keeps.registered (hL.intact hintact)⟩
  have hbegin : (txBegin E txdAddr txdSize).run p = .ok (none, q) := hout.trans hrun
  rw [hbegin] at hensures
  refine ⟨q, hbegin, ⟨formatted, ?_⟩, (txBegin_untouched hE hmedia hbegin).1⟩
  exact ⟨hensures.formatted, fun hl => Bool.noConfusion hl,
    fun _ => hensures.dead fun hl => hl.2 hfails, fun hi => absurd rfl hi,
    fun _ => hensures.broken (Or.inr hfails)⟩

/-- Every step of a session is a call that returns, and every call beyond the end of the session
misuses a registry. -/
theorem sessions_implemented (hE : E.Cooperative) (hfree : ∀ k qpair, E.freeQpair k qpair ≠ txdFail)
    (hns : ∀ k, (attachIds (E.probe k).ctrlrs).getLast? = some ns) :
    (sessions (medium ns)).ImplementedBy (fun s p => s.Describes medium ns p) (Call.perform E)
      Result.outcome Stop.OfRegistry := by
  intro s p c hs
  cases c with
  | format txdAddr txdSize =>
    have hformat : ∃ q, (txFormat E txdAddr txdSize).run p = .ok (txdSuccess, q) ∧
        Session.Describes ⟨true, s.tornDown⟩ medium ns q := format_implemented hE hns hs
    obtain ⟨q, hrun, hq⟩ := hformat
    exact ⟨.formatted txdSuccess, q, Exec.run_seq hrun rfl, rfl, hq⟩
  | begin txdAddr txdSize =>
    have hstuck {f : Fault} (hfault : (txBegin E txdAddr txdSize).run p = .error (.fault f))
        (hf : f.OfRegistry) : ∃ e, (Call.perform E (.begin txdAddr txdSize)).run p = .error e ∧
          Stop.OfRegistry e := ⟨.fault f, Exec.run_bind_error _ hfault, f, rfl, hf⟩
    by_cases hlive : s.live = true
    swap
    · obtain ⟨⟨formatted, hL⟩, _⟩ := hs
      have hno : ¬BeginAllowed E p ⟨formatted, s.live = true, s.tornDown = true⟩ txdAddr txdSize :=
        fun hok => hlive hok.1
      obtain ⟨f, hfault, hf⟩ := txBegin_faults hL hno
      simp only [sessions, if_neg hlive]
      exact hstuck hfault hf
    simp only [sessions, if_pos hlive]
    by_cases hchk : chkTxdSb (superblockAt (medium ns) txdAddr) txdSize = 0
    · obtain ⟨j, q, hrun, hview, hq⟩ := begin_accepted hE hs hlive hchk
      rw [if_pos hchk]
      exact ⟨.began (some j), q, Exec.run_seq hrun rfl, hview, hq⟩
    rw [if_neg hchk]
    cases htorn : s.tornDown with
    | false =>
      obtain ⟨q, hrun, hq⟩ := begin_refused hE hfree hs hlive htorn hchk
      exact ⟨.began none, q, Exec.run_seq hrun rfl, rfl, hq⟩
    | true =>
      have hfails := begin_fails hE hs hlive hchk
      obtain ⟨⟨formatted, hL⟩, _⟩ := hs
      have hno : ¬BeginAllowed E p ⟨formatted, s.live = true, s.tornDown = true⟩ txdAddr txdSize :=
        fun hok => hok.2 hfails (hfree p.qpairFrees p.headQpair) htorn
      obtain ⟨f, hfault, hf⟩ := txBegin_faults hL hno
      exact hstuck hfault hf

theorem start_session (medium : Nat → Nat → Sector) (ns : Nat) :
    Session.Describes ⟨false, false⟩ medium ns (.start medium) where
  registries := by
    have hL := start_describes medium
    exact ⟨False, hL.formatted, fun hl => Bool.noConfusion hl, fun _ => hL.dead id,
      fun _ => hL.intact id, fun ht => Bool.noConfusion ht⟩
  media := ⟨rfl, fun _ _ ha => nomatch ha.1⟩

theorem traced_returns (hE : E.Cooperative) (hfree : ∀ k qpair, E.freeQpair k qpair ≠ txdFail)
    (hns : ∀ k, (attachIds (E.probe k).ctrlrs).getLast? = some ns) {cs : List Call}
    {os : List Outcome} (h : (sessions (medium ns)).run ⟨false, false⟩ cs = some (os, s)) :
    ∃ log q, (Exec.traced (Call.perform E) cs).run (.start medium) = .ok (log, q) ∧
      log.map (fun x => x.2.outcome) = os := by
  have hruns := (sessions_implemented hE hfree hns).traced cs (start_session medium ns)
  rw [h] at hruns
  obtain ⟨log, q, hrun, hlog, _⟩ := hruns
  exact ⟨log, q, hrun, hlog⟩

end Implementation

end TxDriver
