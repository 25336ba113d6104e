import Mathlib.Logic.Function.Basic
import TxDriver.Driver.Load
import TxDriver.Framework.Transition

/-!
# The commit-thread handshake

`txd_journal_start_thread` and `txd_journald` as a transition system: one caller that starts
thread after thread on one journal, and all the threads started so far. Every mutex, condition
variable, store and thread step is one action. `pthread_create` of call `k` returns `create k`.
-/

namespace TxDriver

/-- The next step of `txd_journal_start_thread`. A caller that waits on `wq_cnd` needs a wakeup
and then the mutex. -/
inductive CallerPc where
  | outside
  | setFlag
  | create
  | lock
  | test
  | wait
  | waiting (woken : Bool)
  | increment
  | unlock
  deriving DecidableEq, Repr

inductive JournaldPc where
  | absent
  | lock
  | store
  | signal
  | unlock
  | sleep
  | done
  deriving DecidableEq, Repr

inductive Party where
  | caller
  | journald (k : Nat)
  deriving DecidableEq, Repr

inductive HandshakeAction where
  | caller
  | journald (k : Nat)
  | spuriousWakeup
  deriving DecidableEq, Repr

/-- `wq->condition`, the owner of `wq_mtx`, and where everyone stands. The current call has
number `calls`, and so has its thread. -/
structure Handshake where
  condition : Int
  owner : Option Party
  caller : CallerPc
  calls : Nat
  threads : Nat → JournaldPc

namespace Handshake

variable {create : Nat → Int} {s s' : Handshake}

def acquire (s : Handshake) (p : Party) : Option Handshake :=
  if s.owner = none then some { s with owner := some p } else none

def moveThread (s : Handshake) (k : Nat) (pc : JournaldPc) : Handshake :=
  { s with threads := Function.update s.threads k pc }

def leave (s : Handshake) : Handshake := { s with caller := .outside, calls := s.calls + 1 }

def callerStep (create : Nat → Int) (s : Handshake) : Option Handshake :=
  match s.caller with
  | .outside => some { s with caller := .setFlag }
  | .setFlag => some { s with condition := 1, caller := .create }
  | .create =>
    if create s.calls = txdFail then some s.leave
    else if create s.calls = 0 then some { s.moveThread s.calls .lock with caller := .lock }
    else some { s with caller := .lock }
  | .lock | .waiting true => (s.acquire .caller).map fun s => { s with caller := .test }
  | .test => some { s with caller := if s.condition ≠ 0 then .wait else .increment }
  | .wait => some { s with owner := none, caller := .waiting false }
  | .waiting false => none
  | .increment => some { s with condition := s.condition + 1, caller := .unlock }
  | .unlock => some { s.leave with owner := none }

def journaldStep (k : Nat) (s : Handshake) : Option Handshake :=
  match s.threads k with
  | .absent | .done => none
  | .lock => (s.acquire (.journald k)).map fun s => s.moveThread k .store
  | .store => some { s.moveThread k .signal with condition := 0 }
  | .signal => some { s.moveThread k .unlock with
      caller := if s.caller = .waiting false then .waiting true else s.caller }
  | .unlock => some { s.moveThread k .sleep with owner := none }
  | .sleep => some (s.moveThread k .done)

def step (create : Nat → Int) : HandshakeAction → Handshake → Option Handshake
  | .caller, s => callerStep create s
  | .journald k, s => journaldStep k s
  | .spuriousWakeup, s =>
    if s.caller = .waiting false then some { s with caller := .waiting true } else none

end Handshake

/-- Any number of calls on a journal whose wait queue has been initialised. -/
def handshake (create : Nat → Int) : TransitionSystem Handshake HandshakeAction where
  init s := s.owner = none ∧ s.caller = .outside ∧ s.calls = 0 ∧ ∀ k, s.threads k = .absent
  step := Handshake.step create

def CallerPc.holds : CallerPc → Bool
  | .test | .wait | .increment | .unlock => true
  | _ => false

def JournaldPc.holds : JournaldPc → Bool
  | .store | .signal | .unlock => true
  | _ => false

def JournaldPc.stored : JournaldPc → Bool
  | .absent | .lock | .store => false
  | _ => true

def JournaldPc.signalled : JournaldPc → Bool
  | .absent | .lock | .store | .signal => false
  | _ => true

def JournaldPc.over : JournaldPc → Bool
  | .absent | .sleep | .done => true
  | _ => false

/-- What the caller may rely on, given the thread `t` of its call and the flag. -/
def CallerPc.Knows (created : Bool) (t : JournaldPc) (condition : Int) : CallerPc → Prop
  | .outside | .setFlag => t = .absent
  | .create => t = .absent ∧ condition = 1
  | .lock | .test | .waiting true =>
    (t = .absent ↔ created = false) ∧ condition = if t.stored then 0 else 1
  | .wait => (t = .absent ↔ created = false) ∧ t.stored = false ∧ condition = 1
  | .waiting false =>
    (t = .absent ↔ created = false) ∧ t.signalled = false ∧ condition = if t.stored then 0 else 1
  | .increment => created ∧ t.over ∧ t.stored ∧ condition = 0
  | .unlock => created ∧ t.over ∧ t.stored ∧ condition = 1

def mutexOwner (k : Nat) (c : CallerPc) (t : JournaldPc) : Option Party :=
  match c.holds, t.holds with
  | true, _ => some .caller
  | false, true => some (.journald k)
  | false, false => none

theorem mutexOwner_eq_none {k : Nat} {c : CallerPc} {t : JournaldPc} :
    mutexOwner k c t = none ↔ c.holds = false ∧ t.holds = false := by
  rw [mutexOwner]
  cases c.holds <;> cases t.holds <;> simp

theorem mutexOwner_journald {k : Nat} {c : CallerPc} {t : JournaldPc} (hc : c.holds = false)
    (ht : t.holds = true) : mutexOwner k c t = some (.journald k) := by
  rw [mutexOwner, hc, ht]

section Knowledge

variable {created : Bool} {c : CallerPc} {t t' : JournaldPc} {n : Int}

theorem CallerPc.Knows.move (h : c.Knows created t n) (hstored : t'.stored = t.stored)
    (hsignalled : t'.signalled = t.signalled) (hover : t.over → t'.over)
    (ht : t ≠ .absent) (ht' : t' ≠ .absent) : c.Knows created t' n := by
  have hcreated (h : t = .absent ↔ created = false) : t' = .absent ↔ created = false :=
    iff_of_false ht' fun hc => ht (h.mpr hc)
  cases c with
  | outside | setFlag => exact absurd h ht
  | create => exact absurd h.1 ht
  | lock | test => exact ⟨hcreated h.1, by rw [hstored]; exact h.2⟩
  | wait => exact ⟨hcreated h.1, hstored.trans h.2.1, h.2.2⟩
  | waiting woken =>
    cases woken with
    | true => exact ⟨hcreated h.1, by rw [hstored]; exact h.2⟩
    | false => exact ⟨hcreated h.1, hsignalled.trans h.2.1, by rw [hstored]; exact h.2.2⟩
  | increment | unlock => exact ⟨h.1, hover h.2.1, hstored.trans h.2.2.1, h.2.2.2⟩

theorem CallerPc.Knows.store (h : c.Knows created .store n) (hc : c.holds = false) :
    c.Knows created .signal 0 := by
  have hcreated (h : JournaldPc.store = .absent ↔ created = false) :
      JournaldPc.signal = .absent ↔ created = false :=
    iff_of_false nofun fun hc => nomatch h.mpr hc
  cases c with
  | outside | setFlag => exact nomatch h
  | create => exact nomatch h.1
  | lock => exact ⟨hcreated h.1, rfl⟩
  | waiting woken =>
    cases woken with
    | true => exact ⟨hcreated h.1, rfl⟩
    | false => exact ⟨hcreated h.1, rfl, rfl⟩
  | test | wait | increment | unlock => exact nomatch hc

theorem CallerPc.Knows.signal (h : c.Knows created .signal n) (hc : c.holds = false) :
    (if c = .waiting false then .waiting true else c).Knows created .unlock n := by
  have hcreated (h : JournaldPc.signal = .absent ↔ created = false) :
      JournaldPc.unlock = .absent ↔ created = false :=
    iff_of_false nofun fun hc => nomatch h.mpr hc
  cases c with
  | outside | setFlag => exact nomatch h
  | create => exact nomatch h.1
  | lock => exact ⟨hcreated h.1, h.2⟩
  | waiting woken =>
    cases woken with
    | true => exact ⟨hcreated h.1, h.2⟩
    | false => exact ⟨hcreated h.1, h.2.2⟩
  | test | wait | increment | unlock => exact nomatch hc

end Knowledge

namespace Handshake

/-- Threads of other calls are out of the way, so only the caller and the thread of the current
call share the mutex. -/
structure Inv (create : Nat → Int) (s : Handshake) : Prop where
  earlier : ∀ k, k < s.calls → (s.threads k).over
  later : ∀ k, s.calls < k → s.threads k = .absent
  owner_eq : s.owner = mutexOwner s.calls s.caller (s.threads s.calls)
  exclusive : s.caller.holds = false ∨ (s.threads s.calls).holds = false
  knows : s.caller.Knows (create s.calls = 0) (s.threads s.calls) s.condition

variable {create : Nat → Int} {s s' : Handshake}

theorem Inv.init (h : (handshake create).init s) : Inv create s := by
  obtain ⟨howner, hcaller, hcalls, hthreads⟩ := h
  have habsent := hthreads s.calls
  refine ⟨?_, fun k _ => hthreads k, ?_, ?_, ?_⟩
  · intro k _
    rw [hthreads k]
    rfl
  · rw [howner, hcaller, habsent]
    rfl
  · rw [hcaller]
    exact Or.inl rfl
  · rw [hcaller]
    exact habsent

theorem acquire_eq_some {p : Party} (h : s.acquire p = some s') :
    s.owner = none ∧ s' = { s with owner := some p } := by
  rw [acquire] at h
  split at h
  · exact ⟨‹_›, (Option.some.inj h).symm⟩
  · cases h

theorem Inv.over_of_ne (hs : Inv create s) {k : Nat} (h : k ≠ s.calls) : (s.threads k).over := by
  rcases Nat.lt_or_gt_of_ne h with hlt | hgt
  · exact hs.earlier k hlt
  · rw [hs.later k hgt]
    rfl

theorem Inv.stay (hs : Inv create s) (t : JournaldPc) (hcalls : s'.calls = s.calls)
    (hthreads : s'.threads = Function.update s.threads s.calls t)
    (howner : s'.owner = mutexOwner s.calls s'.caller t)
    (hexclusive : s'.caller.holds = false ∨ t.holds = false)
    (hknows : s'.caller.Knows (create s.calls = 0) t s'.condition) : Inv create s' := by
  have hself : s'.threads s.calls = t := by
    rw [hthreads, Function.update_self]
  refine ⟨?_, ?_, ?_, ?_, ?_⟩
  · intro k hk
    rw [hcalls] at hk
    rw [hthreads, Function.update_of_ne (Nat.ne_of_lt hk)]
    exact hs.earlier k hk
  · intro k hk
    rw [hcalls] at hk
    rw [hthreads, Function.update_of_ne (Nat.ne_of_gt hk)]
    exact hs.later k hk
  · rw [hcalls, hself]
    exact howner
  · rw [hcalls, hself]
    exact hexclusive
  · rw [hcalls, hself]
    exact hknows

theorem Inv.stay' (hs : Inv create s) (hcalls : s'.calls = s.calls)
    (hthreads : s'.threads = s.threads)
    (howner : s'.owner = mutexOwner s.calls s'.caller (s.threads s.calls))
    (hexclusive : s'.caller.holds = false ∨ (s.threads s.calls).holds = false)
    (hknows : s'.caller.Knows (create s.calls = 0) (s.threads s.calls) s'.condition) :
    Inv create s' := by
  refine hs.stay (s.threads s.calls) hcalls ?_ howner hexclusive hknows
  rw [Function.update_eq_self]
  exact hthreads

theorem Inv.leave (hs : Inv create s) (hover : (s.threads s.calls).over) (hfree : s'.owner = none)
    (hs' : s' = { s.leave with owner := s'.owner }) : Inv create s' := by
  have hnext : s.threads (s.calls + 1) = .absent := hs.later _ (Nat.lt_succ_self _)
  rw [hs', hfree]
  refine ⟨?_, fun k hk => hs.later k (Nat.lt_of_succ_lt hk), ?_, Or.inl rfl, hnext⟩
  · intro k hk
    rcases Nat.lt_succ_iff_lt_or_eq.mp hk with hlt | heq
    · exact hs.earlier k hlt
    · change (s.threads k).over
      rw [heq]
      exact hover
  · change none = mutexOwner (s.calls + 1) .outside (s.threads (s.calls + 1))
    rw [hnext]
    rfl

theorem Inv.spuriousWakeup (hs : Inv create s)
    (h : step create .spuriousWakeup s = some s') : Inv create s' := by
  rw [step] at h
  split at h
  · rename_i hwaiting
    cases h
    have hknows := hs.knows
    have howner := hs.owner_eq
    rw [hwaiting] at hknows howner
    exact hs.stay' rfl rfl howner (Or.inl rfl) ⟨hknows.1, hknows.2.2⟩
  · cases h

theorem Inv.callerAcquire (hs : Inv create s)
    (h : (s.acquire .caller).map (fun s => { s with caller := .test }) = some s')
    (hknows : CallerPc.lock.Knows (create s.calls = 0) (s.threads s.calls) s.condition) :
    Inv create s' := by
  obtain ⟨t, hacquire, ht⟩ := Option.map_eq_some_iff.mp h
  obtain ⟨howner, hs'⟩ := acquire_eq_some hacquire
  subst hs' ht
  have hfree := mutexOwner_eq_none.mp (hs.owner_eq.symm.trans howner)
  exact hs.stay' rfl rfl rfl (Or.inr hfree.2) hknows

/-- What the caller sees when it tests the flag inside its critical section. -/
theorem Inv.test (hs : Inv create s) (hcaller : s.caller = .test) :
    (if s.condition ≠ 0 then CallerPc.wait else CallerPc.increment).Knows (create s.calls = 0)
      (s.threads s.calls) s.condition := by
  have hknows := hs.knows
  have hexclusive := hs.exclusive
  rw [hcaller] at hknows hexclusive
  obtain ⟨hcreated, hflag⟩ := hknows
  have hfree : (s.threads s.calls).holds = false := hexclusive.resolve_left (by decide)
  cases hstored : (s.threads s.calls).stored with
  | false =>
    rw [hstored] at hflag
    rw [if_pos (by rw [hflag]; decide)]
    exact ⟨hcreated, hstored, hflag⟩
  | true =>
    rw [hstored] at hflag
    rw [if_neg (by rw [hflag]; decide)]
    have hpresent : s.threads s.calls ≠ .absent := by
      intro habsent
      rw [habsent] at hstored
      cases hstored
    refine ⟨?_, ?_, hstored, hflag⟩
    · exact Bool.not_eq_false _ ▸ mt hcreated.mpr hpresent
    · revert hfree hstored
      cases s.threads s.calls <;> decide

theorem Inv.callerStep (hs : Inv create s) (h : callerStep create s = some s') :
    Inv create s' := by
  have hknows := hs.knows
  have howner := hs.owner_eq
  have hexclusive := hs.exclusive
  cases hcaller : s.caller with
  | outside =>
    simp only [Handshake.callerStep, hcaller] at h
    cases h
    rw [hcaller] at hknows howner
    exact hs.stay' rfl rfl howner (Or.inl rfl) hknows
  | setFlag =>
    simp only [Handshake.callerStep, hcaller] at h
    cases h
    rw [hcaller] at hknows howner
    exact hs.stay' rfl rfl howner (Or.inl rfl) ⟨hknows, rfl⟩
  | create =>
    simp only [Handshake.callerStep, hcaller] at h
    rw [hcaller] at hknows howner
    obtain ⟨habsent, hcondition⟩ := hknows
    rw [habsent] at howner
    split at h
    · cases h
      exact hs.leave (by rw [habsent]; rfl) howner rfl
    · split at h
      · rename_i hzero
        cases h
        exact hs.stay .lock rfl rfl howner (Or.inl rfl)
          ⟨iff_of_false nofun (by simp [hzero]), hcondition⟩
      · rename_i hzero
        cases h
        refine hs.stay' rfl rfl ?_ (Or.inl rfl) ⟨iff_of_true habsent (by simpa using hzero), ?_⟩
        · rw [habsent]
          exact howner
        · rw [habsent]
          exact hcondition
  | lock =>
    simp only [Handshake.callerStep, hcaller] at h
    rw [hcaller] at hknows
    exact hs.callerAcquire h hknows
  | test =>
    have htest := hs.test hcaller
    simp only [Handshake.callerStep, hcaller] at h
    cases h
    rw [hcaller] at howner hexclusive
    refine hs.stay' rfl rfl ?_ (Or.inr (hexclusive.resolve_left (by decide))) htest
    rw [howner]
    change _ = mutexOwner _ (if s.condition ≠ 0 then CallerPc.wait else CallerPc.increment) _
    split <;> rfl
  | wait =>
    simp only [Handshake.callerStep, hcaller] at h
    cases h
    rw [hcaller] at hknows hexclusive
    have hfree := hexclusive.resolve_left (by decide)
    obtain ⟨hcreated, hstored, hcondition⟩ := hknows
    refine hs.stay' rfl rfl ?_ (Or.inl rfl) ⟨hcreated, ?_, ?_⟩
    · exact (mutexOwner_eq_none.mpr ⟨rfl, hfree⟩).symm
    · revert hstored
      cases s.threads s.calls <;> decide
    · rw [hstored]
      exact hcondition
  | waiting woken =>
    cases woken with
    | false =>
      simp only [Handshake.callerStep, hcaller] at h
      cases h
    | true =>
      simp only [Handshake.callerStep, hcaller] at h
      rw [hcaller] at hknows
      exact hs.callerAcquire h hknows
  | increment =>
    simp only [Handshake.callerStep, hcaller] at h
    cases h
    rw [hcaller] at hknows howner hexclusive
    obtain ⟨hcreated, hover, hstored, hcondition⟩ := hknows
    refine hs.stay' rfl rfl howner hexclusive ⟨hcreated, hover, hstored, ?_⟩
    change s.condition + 1 = 1
    rw [hcondition]
    rfl
  | unlock =>
    simp only [Handshake.callerStep, hcaller] at h
    cases h
    rw [hcaller] at hknows
    exact hs.leave hknows.2.1 rfl rfl

theorem Inv.journaldStep_current (hs : Inv create s)
    (h : journaldStep s.calls s = some s') : Inv create s' := by
  have hknows := hs.knows
  have howner := hs.owner_eq
  have hexclusive := hs.exclusive
  cases hthread : s.threads s.calls with
  | absent | done =>
    simp only [journaldStep, hthread] at h
    cases h
  | lock =>
    simp only [journaldStep, hthread] at h
    obtain ⟨t, hacquire, ht⟩ := Option.map_eq_some_iff.mp h
    obtain ⟨hnone, hs'⟩ := acquire_eq_some hacquire
    subst hs' ht
    have hfree := (mutexOwner_eq_none.mp (howner.symm.trans hnone)).1
    rw [hthread] at hknows
    exact hs.stay .store rfl rfl (mutexOwner_journald hfree rfl).symm (Or.inl hfree)
      (hknows.move rfl rfl nofun nofun nofun)
  | store =>
    simp only [journaldStep, hthread] at h
    cases h
    rw [hthread] at hknows howner hexclusive
    have hfree := hexclusive.resolve_right nofun
    rw [mutexOwner_journald hfree rfl] at howner
    exact hs.stay .signal rfl rfl (howner.trans (mutexOwner_journald hfree rfl).symm)
      (Or.inl hfree) (hknows.store hfree)
  | signal =>
    simp only [journaldStep, hthread] at h
    cases h
    rw [hthread] at hknows howner hexclusive
    have hfree := hexclusive.resolve_right nofun
    have hfree' : (if s.caller = .waiting false then CallerPc.waiting true else s.caller).holds =
        false := by
      split
      · rfl
      · exact hfree
    rw [mutexOwner_journald hfree rfl] at howner
    exact hs.stay .unlock rfl rfl (howner.trans (mutexOwner_journald hfree' rfl).symm)
      (Or.inl hfree') (hknows.signal hfree)
  | unlock =>
    simp only [journaldStep, hthread] at h
    cases h
    rw [hthread] at hknows hexclusive
    have hfree := hexclusive.resolve_right nofun
    exact hs.stay .sleep rfl rfl (mutexOwner_eq_none.mpr ⟨hfree, rfl⟩).symm (Or.inl hfree)
      (hknows.move rfl rfl nofun nofun nofun)
  | sleep =>
    simp only [journaldStep, hthread] at h
    cases h
    rw [hthread] at hknows howner
    exact hs.stay .done rfl rfl howner (Or.inr rfl)
      (hknows.move rfl rfl (fun _ => rfl) nofun nofun)

/-- A thread of an earlier call can only end its sleep. -/
theorem Inv.journaldStep_other (hs : Inv create s) {k : Nat} (hk : k ≠ s.calls)
    (h : journaldStep k s = some s') : Inv create s' := by
  have hover := hs.over_of_ne hk
  have hsleep : s.threads k = .sleep := by
    revert h hover
    rw [journaldStep]
    cases s.threads k <;> simp [JournaldPc.over]
  simp only [journaldStep, hsleep] at h
  cases h
  have hself : Function.update s.threads k .done s.calls = s.threads s.calls :=
    Function.update_of_ne hk.symm _ _
  refine ⟨?_, ?_, ?_, ?_, ?_⟩
  · intro i hi
    change (Function.update s.threads k .done i).over
    rw [Function.update_apply]
    split
    · rfl
    · exact hs.earlier i hi
  · intro i hi
    have hlater := hs.later i hi
    have hik : i ≠ k := by
      intro heq
      subst heq
      rw [hlater] at hsleep
      cases hsleep
    exact (Function.update_of_ne hik _ _).trans hlater
  · change s.owner = mutexOwner s.calls s.caller (Function.update s.threads k .done s.calls)
    rw [hself]
    exact hs.owner_eq
  · change _ ∨ (Function.update s.threads k .done s.calls).holds = false
    rw [hself]
    exact hs.exclusive
  · change s.caller.Knows _ (Function.update s.threads k .done s.calls) s.condition
    rw [hself]
    exact hs.knows

theorem Inv.step (a : HandshakeAction) (hs : Inv create s) (h : step create a s = some s') :
    Inv create s' := by
  cases a with
  | caller => exact hs.callerStep h
  | spuriousWakeup => exact hs.spuriousWakeup h
  | journald k =>
    by_cases hk : k = s.calls
    · subst hk
      exact hs.journaldStep_current h
    · exact hs.journaldStep_other hk h

theorem Inv.of_reachable (hs : (handshake create).Reachable s) : Inv create s :=
  hs.invariant (fun _ => Inv.init) fun a _ _ => Inv.step a

/-- The caller's next step ends the current call. -/
def Returns (create : Nat → Int) (s s' : Handshake) : Prop :=
  step create .caller s = some s' ∧ s.caller ≠ .outside ∧ s'.caller = .outside

/-- A call returns from its failure exit, or with its thread acknowledged. -/
theorem Inv.returns (hs : Inv create s) (h : Returns create s s') :
    (create s.calls = txdFail ∧ s' = s.leave ∧ s.condition = 1) ∨
      (create s.calls = 0 ∧ s' = { s.leave with owner := none } ∧
        (s.threads s.calls).stored ∧ s.condition = 1) := by
  obtain ⟨hstep, houtside, hreturned⟩ := h
  have hknows := hs.knows
  change Handshake.callerStep create s = some s' at hstep
  cases hcaller : s.caller with
  | outside => exact absurd hcaller houtside
  | create =>
    simp only [Handshake.callerStep, hcaller] at hstep
    rw [hcaller] at hknows
    split at hstep
    · rename_i hfail
      cases hstep
      exact Or.inl ⟨hfail, rfl, hknows.2⟩
    · split at hstep
      · cases hstep
        cases hreturned
      · cases hstep
        cases hreturned
  | unlock =>
    simp only [Handshake.callerStep, hcaller] at hstep
    cases hstep
    rw [hcaller] at hknows
    obtain ⟨hcreated, _, hstored, hcondition⟩ := hknows
    exact Or.inr ⟨by simpa using hcreated, rfl, hstored, hcondition⟩
  | lock =>
    simp only [Handshake.callerStep, hcaller] at hstep
    obtain ⟨t, _, ht⟩ := Option.map_eq_some_iff.mp hstep
    rw [← ht] at hreturned
    cases hreturned
  | test =>
    simp only [Handshake.callerStep, hcaller] at hstep
    cases hstep
    change (if s.condition ≠ 0 then CallerPc.wait else CallerPc.increment) = .outside at hreturned
    split at hreturned <;> cases hreturned
  | waiting woken =>
    cases woken with
    | false =>
      simp only [Handshake.callerStep, hcaller] at hstep
      cases hstep
    | true =>
      simp only [Handshake.callerStep, hcaller] at hstep
      obtain ⟨t, _, ht⟩ := Option.map_eq_some_iff.mp hstep
      rw [← ht] at hreturned
      cases hreturned
  | setFlag | wait | increment =>
    simp only [Handshake.callerStep, hcaller] at hstep
    cases hstep
    cases hreturned

theorem journaldStep_of_holds {k : Nat} (h : (s.threads k).holds) :
    ∃ s', journaldStep k s = some s' := by
  rw [journaldStep]
  revert h
  cases s.threads k <;> simp [JournaldPc.holds]

/-- Whoever wants the mutex can take it, or the thread that has it can move on. -/
theorem Inv.acquire_or_step (hs : Inv create s) (hfree : s.caller.holds = false) (p : Party) :
    (∃ s', s.acquire p = some s') ∨ ∃ s', journaldStep s.calls s = some s' := by
  cases hthread : (s.threads s.calls).holds with
  | true => exact Or.inr (journaldStep_of_holds hthread)
  | false =>
    have hnone : s.owner = none := hs.owner_eq.trans (mutexOwner_eq_none.mpr ⟨hfree, hthread⟩)
    exact Or.inl ⟨_, if_pos hnone⟩

/-- The caller or the thread of its call can move on, and no spurious wakeup is needed. -/
theorem Inv.progress (hs : Inv create s) (hcreate : create s.calls = 0) :
    ∃ a s', (a = .caller ∨ a = .journald s.calls) ∧ Handshake.step create a s = some s' := by
  have hknows := hs.knows
  suffices h : (∃ s', Handshake.callerStep create s = some s') ∨
      ∃ s', journaldStep s.calls s = some s' by
    rcases h with ⟨s', hstep⟩ | ⟨s', hstep⟩
    · exact ⟨.caller, s', Or.inl rfl, hstep⟩
    · exact ⟨.journald s.calls, s', Or.inr rfl, hstep⟩
  have hacquire (hfree : s.caller.holds = false)
      (hstep : Handshake.callerStep create s =
        (s.acquire .caller).map fun s => { s with caller := .test }) :
      (∃ s', Handshake.callerStep create s = some s') ∨
        ∃ s', journaldStep s.calls s = some s' := by
    rcases hs.acquire_or_step hfree .caller with ⟨t, ht⟩ | hthread
    · exact Or.inl ⟨_, by rw [hstep, ht]; rfl⟩
    · exact Or.inr hthread
  cases hcaller : s.caller with
  | outside | setFlag | test | wait | increment | unlock =>
    simp only [Handshake.callerStep, hcaller]
    exact Or.inl ⟨_, rfl⟩
  | create =>
    simp only [Handshake.callerStep, hcaller, hcreate]
    exact Or.inl ⟨_, rfl⟩
  | lock =>
    apply hacquire
    · simp only [Handshake.callerStep, hcaller]
    · rw [hcaller]
      rfl
  | waiting woken =>
    cases woken with
    | true =>
      apply hacquire
      · simp only [Handshake.callerStep, hcaller]
      · rw [hcaller]
        rfl
    | false =>
      right
      rw [hcaller] at hknows
      obtain ⟨hcreated, hsignalled, _⟩ := hknows
      cases hthread : s.threads s.calls with
      | absent => simp [hthread, hcreate] at hcreated
      | lock =>
        rcases hs.acquire_or_step (by rw [hcaller]; rfl) (.journald s.calls) with ⟨t, ht⟩ | hstep
        · simp only [journaldStep, hthread, ht]
          exact ⟨_, rfl⟩
        · exact hstep
      | store | signal =>
        simp only [journaldStep, hthread]
        exact ⟨_, rfl⟩
      | unlock | sleep | done =>
        rw [hthread] at hsignalled
        cases hsignalled

/-- The handshake refines `txd_journal_start_thread` as one step: a call that returns does so with
the same result and flag. -/
theorem txdJournalStartThread_refined (hs : (handshake create).Reachable s)
    (h : Returns create s s') (j : TxdJournal) :
    txdJournalStartThread (create s.calls) j =
      .ok (if create s.calls = 0 then txdSuccess else txdFail,
        { j with jWaitDoneCommit := ⟨s'.condition⟩ }) := by
  rw [txdJournalStartThread_eq]
  rcases (Inv.of_reachable hs).returns h with ⟨hfail, hs', hcondition⟩ | ⟨hzero, hs', _, hcondition⟩
  · have hnonzero : create s.calls ≠ 0 := by
      rw [hfail]
      decide
    have hleave : s'.condition = 1 := by
      rw [hs']
      exact hcondition
    rw [if_neg hnonzero, if_pos hfail, if_neg hnonzero, hleave]
  · have hleave : s'.condition = 1 := by
      rw [hs']
      exact hcondition
    rw [if_pos hzero, if_pos hzero, hleave]

/-- Where the one step hangs, no interleaving lets the call return. -/
theorem not_returns_of_hang (hs : (handshake create).Reachable s) {j : TxdJournal}
    (h : txdJournalStartThread (create s.calls) j = .error .hang) : ¬Returns create s s' := by
  intro hreturns
  rw [txdJournalStartThread_refined hs hreturns] at h
  cases h

end Handshake

section StartThread

variable {create : Nat → Int} {s : Handshake}

/-- A call returns only after its own thread has stored the flag, with the flag set again and the
mutex released; a caller without a wakeup waits for a thread that has yet to signal; and somebody
can always move on. -/
theorem txdJournalStartThread_handshake (hcreate : ∀ k, create k = 0)
    (hs : (handshake create).Reachable s) :
    (∀ s', Handshake.Returns create s s' → (s.threads s.calls).stored ∧
      s'.condition = 1 ∧ s'.owner ≠ some .caller) ∧
    (∀ woken, s.caller = .waiting woken →
      (s.threads s.calls ≠ .absent ∧ (s.threads s.calls).signalled = false) ∨ woken) ∧
    ∃ a s', (a = .caller ∨ a = .journald s.calls) ∧ Handshake.step create a s = some s' := by
  have hinv := Handshake.Inv.of_reachable hs
  refine ⟨?_, ?_, hinv.progress (hcreate _)⟩
  · intro s' hreturns
    rcases hinv.returns hreturns with ⟨hfail, _⟩ | ⟨_, hs', hstored, hcondition⟩
    · rw [hcreate] at hfail
      cases hfail
    · rw [hs']
      exact ⟨hstored, hcondition, nofun⟩
  · intro woken hwaiting
    cases woken with
    | true => exact Or.inr rfl
    | false =>
      have hknows := hinv.knows
      rw [hwaiting] at hknows
      obtain ⟨hcreated, hsignalled, _⟩ := hknows
      refine Or.inl ⟨?_, hsignalled⟩
      intro habsent
      simpa [hcreate] using hcreated.mp habsent

end StartThread

def Handshake.start : Handshake := ⟨initWaitQueue.condition, none, .outside, 0, fun _ => .absent⟩

/-- A first call whose thread signals before the caller takes the mutex. -/
def Handshake.earlySignal : List HandshakeAction :=
  [.caller, .caller, .caller, .journald 0, .journald 0, .journald 0, .journald 0,
    .caller, .caller, .caller, .caller]

/-- A second call that waits, is woken up for no reason, and waits again. -/
def Handshake.waits : List HandshakeAction :=
  [.caller, .caller, .caller, .caller, .caller, .caller, .spuriousWakeup, .caller, .caller, .caller]

def Handshake.signalled : List HandshakeAction :=
  [.journald 1, .journald 1, .journald 1, .journald 1, .caller, .caller, .caller]

theorem txdJournalStartThread_handshake_twice :
    ∃ w s s', (handshake fun _ => 0).run (Handshake.earlySignal ++ Handshake.waits)
        Handshake.start = some w ∧
      w.caller = .waiting false ∧ (w.threads 1).signalled = false ∧
      (handshake fun _ => 0).run Handshake.signalled w = some s ∧
      Handshake.Returns (fun _ => 0) s s' ∧ s.calls = 1 ∧ s'.condition = 1 := by
  have hstart : (handshake fun _ => 0).Reachable Handshake.start :=
    .init ⟨rfl, rfl, rfl, fun _ => rfl⟩
  let w := ((handshake fun _ => 0).run (Handshake.earlySignal ++ Handshake.waits)
    Handshake.start).get rfl
  have hrun : (handshake fun _ => 0).run (Handshake.earlySignal ++ Handshake.waits)
      Handshake.start = some w := rfl
  have hrun' : (handshake fun _ => 0).run Handshake.signalled w = some _ := rfl
  have hwaits := txdJournalStartThread_handshake (fun _ => rfl) (hstart.run hrun)
  have hcall := txdJournalStartThread_handshake (fun _ => rfl) ((hstart.run hrun).run hrun')
  refine ⟨w, _, _, hrun, rfl, ?_, hrun', ⟨rfl, CallerPc.noConfusion, rfl⟩, rfl, ?_⟩
  · rcases hwaits.2.1 false rfl with ⟨_, hsignalled⟩ | hwoken
    · exact hsignalled
    · cases hwoken
  · exact (hcall.1 _ ⟨rfl, CallerPc.noConfusion, rfl⟩).2.1

end TxDriver
