import Mathlib.Logic.Basic

/-!
# Transition systems

A system whose steps are chosen by an environment: an action that is not enabled in a state has
no successor there. Safety results about every interleaving are proved with `invariant`.
-/

namespace TxDriver

structure TransitionSystem (σ α : Type) where
  init : σ → Prop
  step : α → σ → Option σ

namespace TransitionSystem

variable {σ α : Type} {T : TransitionSystem σ α} {s t : σ}

inductive Reachable (T : TransitionSystem σ α) : σ → Prop
  | init {s : σ} (start : T.init s) : Reachable T s
  | step {s s' : σ} (a : α) (before : Reachable T s) (taken : T.step a s = some s') :
      Reachable T s'

/-- What holds at the start and survives every step holds in every reachable state. -/
theorem Reachable.invariant {P : σ → Prop} (hinit : ∀ s, T.init s → P s)
    (hstep : ∀ a s s', P s → T.step a s = some s' → P s') (hs : T.Reachable s) : P s := by
  induction hs with
  | init start => exact hinit _ start
  | step a _ taken ih => exact hstep a _ _ ih taken

/-- The state after a sequence of actions, when all of them are enabled in turn. -/
def run (T : TransitionSystem σ α) : List α → σ → Option σ
  | [], s => some s
  | a :: as, s => (T.step a s).bind (T.run as)

theorem Reachable.run {as : List α} (hs : T.Reachable s) (hrun : T.run as s = some t) :
    T.Reachable t := by
  induction as generalizing s with
  | nil =>
    cases hrun
    exact hs
  | cons a as ih =>
    obtain ⟨s', hstep, hrest⟩ := Option.bind_eq_some_iff.mp hrun
    exact ih (.step a hs hstep) hrest

/-- The steps of `T` that `ok` allows. -/
def guard (T : TransitionSystem σ α) (ok : α → σ → Prop) [∀ a s, Decidable (ok a s)] :
    TransitionSystem σ α where
  init := T.init
  step a s := if ok a s then T.step a s else none

theorem guard_step_eq_some {ok : α → σ → Prop} [∀ a s, Decidable (ok a s)] {a : α} :
    (T.guard ok).step a s = some t ↔ ok a s ∧ T.step a s = some t := by
  change (if ok a s then T.step a s else none) = some t ↔ _
  split <;> simp [*]

end TransitionSystem

end TxDriver
