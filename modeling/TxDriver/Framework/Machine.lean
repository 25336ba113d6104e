import TxDriver.Framework.Exec

/-!
# Abstract machines

A machine takes one input after the other, answers each of them, and may get stuck. A family of
computations implements it when every step of the machine is a return with a matching result, and
every way to get stuck a stop of the expected kind; so do the runs then.
-/

namespace TxDriver

/-- From a state, an input leads to an answer and a new state, or the machine is stuck. -/
structure Machine (σ ι ω : Type) where
  step : σ → ι → Option (ω × σ)

namespace Machine

variable {σ ι ω τ φ β : Type} {M : Machine σ ι ω}

def run (M : Machine σ ι ω) : σ → List ι → Option (List ω × σ)
  | s, [] => some ([], s)
  | s, i :: is =>
    (M.step s i).bind fun r => (M.run r.2 is).map fun rest => (r.1 :: rest.1, rest.2)

theorem run_cons_stuck {s : σ} {i : ι} (is : List ι) (h : M.step s i = none) :
    M.run s (i :: is) = none := by
  rw [run, h]
  rfl

theorem run_cons_step {s s' : σ} {i : ι} {o : ω} (is : List ι) (h : M.step s i = some (o, s')) :
    M.run s (i :: is) = (M.run s' is).map fun r => (o :: r.1, r.2) := by
  rw [run, h]
  rfl

/-- Related states take the same steps, where `view` is what the machine answers for a result; where
the machine is stuck, the computation stops for a reason in `bad`. -/
def ImplementedBy (M : Machine σ ι ω) (R : σ → τ → Prop) (f : ι → Exec φ τ β) (view : β → ω)
    (bad : Stop φ → Prop) : Prop :=
  ∀ s t i, R s t →
    match M.step s i with
    | some (o, s') => ∃ b t', (f i).run t = .ok (b, t') ∧ view b = o ∧ R s' t'
    | none => ∃ e, (f i).run t = .error e ∧ bad e

/-- What a machine is implemented by does over whole runs what the machine does. -/
theorem ImplementedBy.traced {R : σ → τ → Prop} {f : ι → Exec φ τ β} {view : β → ω}
    {bad : Stop φ → Prop} (h : M.ImplementedBy R f view bad) (is : List ι) {s : σ} {t : τ}
    (ht : R s t) :
    match M.run s is with
    | some (os, s') => ∃ log t', (Exec.traced f is).run t = .ok (log, t') ∧
        log.map (fun x => view x.2) = os ∧ R s' t'
    | none => ∃ e, (Exec.traced f is).run t = .error e ∧ bad e := by
  induction is generalizing s t with
  | nil => exact ⟨[], t, rfl, rfl, ht⟩
  | cons i is ih =>
    have hstep := h s t i ht
    cases hs : M.step s i with
    | none =>
      rw [hs] at hstep
      obtain ⟨e, hrun, he⟩ := hstep
      rw [run_cons_stuck is hs]
      exact ⟨e, Exec.run_bind_error _ hrun, he⟩
    | some r =>
      rw [hs] at hstep
      obtain ⟨b, t', hrun, hview, ht'⟩ := hstep
      have hrest := ih ht'
      rw [run_cons_step is hs]
      cases hr : M.run r.2 is with
      | none =>
        rw [hr] at hrest
        obtain ⟨e, hstop, he⟩ := hrest
        exact ⟨e, Exec.run_seq hrun (Exec.run_bind_error _ hstop), he⟩
      | some rest =>
        rw [hr] at hrest
        obtain ⟨log, t'', hruns, hlog, ht''⟩ := hrest
        refine ⟨(i, b) :: log, t'', Exec.run_seq hrun (Exec.run_seq hruns rfl), ?_, ht''⟩
        rw [List.map_cons, hview, hlog]

end Machine

end TxDriver
