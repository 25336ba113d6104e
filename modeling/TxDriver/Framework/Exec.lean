import Mathlib.Logic.Basic
import Mathlib.Order.Defs.Unbundled

/-!
# Computations that may stop

A C function called in a state either returns a value to its caller or stops the program:
a failed assertion, a call of `exit`, a memory fault, or a loop that never ends. This module
gives such computations their monad, the equations of its operations, and a three-way
specification: precondition, postcondition of a return, condition on a stop. Two computations
that keep their states related step by step are compared by `Simulates`, `Fixes` says what part of
the state a computation leaves alone, and `Within` what states it leads to. A run of calls is a
`traced` list of them.
-/

namespace TxDriver

/-- How a computation ends when it does not return to its caller. -/
inductive Stop (φ : Type) where
  | assertion
  | exit (status : Int)
  | fault (reason : φ)
  | hang
  deriving DecidableEq, Repr

/-- A computation over the state `σ` that returns an `α` or stops. -/
def Exec (φ σ α : Type) : Type := σ → Except (Stop φ) (α × σ)

namespace Exec

variable {φ σ α β : Type}

instance : Monad (Exec φ σ) where
  pure a := fun s => .ok (a, s)
  bind x f := fun s =>
    match x s with
    | .ok (a, s') => f a s'
    | .error e => .error e

def run (x : Exec φ σ α) (s : σ) : Except (Stop φ) (α × σ) := x s

def stop (e : Stop φ) : Exec φ σ α := fun _ => .error e

def get : Exec φ σ σ := fun s => .ok (s, s)

def modify (f : σ → σ) : Exec φ σ Unit := fun s => .ok ((), f s)

def assert (b : Bool) : Exec φ σ Unit := if b then pure () else stop .assertion

def lift (r : Except (Stop φ) α) : Exec φ σ α := fun s => r.map (·, s)

theorem run_bind (x : Exec φ σ α) (f : α → Exec φ σ β) (s : σ) :
    (x >>= f).run s =
      match x.run s with
      | .ok (a, s') => (f a).run s'
      | .error e => .error e := rfl

@[simp] theorem run_get (s : σ) : (get : Exec φ σ σ).run s = .ok (s, s) := rfl

@[simp] theorem run_modify (f : σ → σ) (s : σ) :
    (modify f : Exec φ σ Unit).run s = .ok ((), f s) := rfl

@[simp] theorem run_assert_true (s : σ) :
    (assert true : Exec φ σ Unit).run s = .ok ((), s) := rfl

theorem assert_true_bind (f : Unit → Exec φ σ α) : (assert true >>= f) = f () := rfl

@[simp] theorem run_lift_ok (a : α) (s : σ) :
    (lift (.ok a) : Exec φ σ α).run s = .ok (a, s) := rfl

theorem bind_bind {γ : Type} (x : Exec φ σ α) (f : α → Exec φ σ β) (g : β → Exec φ σ γ) :
    (x >>= f) >>= g = x >>= fun a => f a >>= g := by
  funext s
  change ((x >>= f) >>= g).run s = (x >>= fun a => f a >>= g).run s
  rw [run_bind, run_bind, run_bind]
  cases x.run s <;> rfl

theorem run_bind_ok {x : Exec φ σ α} {s s' : σ} {a : α} (f : α → Exec φ σ β)
    (h : x.run s = .ok (a, s')) : (x >>= f).run s = (f a).run s' := by
  rw [run_bind, h]

theorem run_seq {x : Exec φ σ α} {f : α → Exec φ σ β} {s s' : σ} {a : α}
    {r : Except (Stop φ) (β × σ)} (hx : x.run s = .ok (a, s')) (hf : (f a).run s' = r) :
    (x >>= f).run s = r := by
  rw [run_bind_ok f hx, hf]

theorem run_bind_error {x : Exec φ σ α} {s : σ} {e : Stop φ} (f : α → Exec φ σ β)
    (h : x.run s = .error e) : (x >>= f).run s = .error e := by
  rw [run_bind, h]

theorem run_bind_eq_ok {x : Exec φ σ α} {f : α → Exec φ σ β} {s t : σ} {b : β} :
    (x >>= f).run s = .ok (b, t) ↔
      ∃ a s', x.run s = .ok (a, s') ∧ (f a).run s' = .ok (b, t) := by
  rw [run_bind]
  cases h : x.run s with
  | error e => simp
  | ok r =>
    obtain ⟨a, s'⟩ := r
    constructor
    · intro hf
      exact ⟨a, s', rfl, hf⟩
    · intro hseq
      rcases hseq with ⟨a', t', he, hf⟩
      cases he
      exact hf

/-- From a state with `P`, `x` returns with `Q` or stops for a reason that `R` allows. -/
def Ensures (P : σ → Prop) (x : Exec φ σ α) (Q : α → σ → Prop) (R : Stop φ → Prop) : Prop :=
  ∀ s, P s →
    match x.run s with
    | .ok (a, s') => Q a s'
    | .error e => R e

section Rules

variable {P : σ → Prop} {Q : α → σ → Prop} {R : Stop φ → Prop}

theorem Ensures.pure {a : α} (h : ∀ s, P s → Q a s) : Ensures P (pure a) Q R :=
  fun s hs => h s hs

theorem Ensures.bind {x : Exec φ σ α} {f : α → Exec φ σ β} {Q' : β → σ → Prop}
    (hx : Ensures P x Q R) (hf : ∀ a, Ensures (Q a) (f a) Q' R) :
    Ensures P (x >>= f) Q' R := by
  intro s hs
  have h := hx s hs
  rw [run_bind]
  cases hr : x.run s with
  | error e => simpa only [hr] using h
  | ok r =>
    rw [hr] at h
    exact hf r.1 r.2 h

theorem Ensures.of_ok {x : Exec φ σ α} {s s' : σ} {a : α} (h : x.run s = .ok (a, s'))
    (hq : Q a s') : Ensures (Eq s) x Q R := by
  intro t ht
  subst ht
  rw [h]
  exact hq

theorem Ensures.of_error {x : Exec φ σ α} {s : σ} {e : Stop φ} (h : x.run s = .error e)
    (he : R e) : Ensures (Eq s) x Q R := by
  intro t ht
  subst ht
  rw [h]
  exact he

theorem Ensures.stops {x : Exec φ σ α} {s : σ} {e : Stop φ} (h : Ensures P x Q R) (hs : P s)
    (he : x.run s = .error e) : R e := by
  have hx := h s hs
  rw [he] at hx
  exact hx

end Rules

/-- From related states, `y` returns what `x` returns, in related states again, and stops when `x`
stops and for the same reason. -/
def Simulates {τ : Type} (R : σ → τ → Prop) (x : Exec φ σ α) (y : Exec φ τ α) : Prop :=
  ∀ s t, R s t →
    match x.run s with
    | .ok (a, s') => ∃ t', y.run t = .ok (a, t') ∧ R s' t'
    | .error e => y.run t = .error e

section Simulations

variable {τ : Type} {R : σ → τ → Prop}

theorem Simulates.pure (a : α) : Simulates R (pure a : Exec φ σ α) (pure a) :=
  fun _ t h => ⟨t, rfl, h⟩

theorem Simulates.bind {x : Exec φ σ α} {y : Exec φ τ α} {f : α → Exec φ σ β}
    {g : α → Exec φ τ β} (hx : Simulates R x y) (hf : ∀ a, Simulates R (f a) (g a)) :
    Simulates R (x >>= f) (y >>= g) := by
  intro s t h
  have hx := hx s t h
  rw [run_bind]
  cases hr : x.run s with
  | error e =>
    rw [hr] at hx
    exact run_bind_error g hx
  | ok r =>
    rw [hr] at hx
    obtain ⟨t', ht, h'⟩ := hx
    rw [run_bind_ok g ht]
    exact hf r.1 r.2 t' h'

theorem Simulates.lift (r : Except (Stop φ) α) :
    Simulates R (lift r : Exec φ σ α) (lift r) := by
  intro s t h
  cases r with
  | error e => rfl
  | ok a => exact ⟨t, rfl, h⟩

theorem Simulates.assert (b : Bool) : Simulates R (assert b : Exec φ σ Unit) (assert b) := by
  intro s t h
  cases b with
  | false => rfl
  | true => exact ⟨t, rfl, h⟩

theorem Simulates.ok {x : Exec φ σ α} {y : Exec φ τ α} {s s' : σ} {t : τ} {a : α}
    (hxy : Simulates R x y) (h : R s t) (hx : x.run s = .ok (a, s')) :
    ∃ t', y.run t = .ok (a, t') ∧ R s' t' := by
  have hy := hxy s t h
  rwa [hx] at hy

end Simulations

/-- Where `x` returns, it has left the part `f` of the state as it was. -/
def Fixes {τ : Type} (f : σ → τ) (x : Exec φ σ α) : Prop :=
  ∀ s a s', x.run s = .ok (a, s') → f s' = f s

section Frames

variable {τ : Type} {f : σ → τ} {x : Exec φ σ α}

theorem Fixes.pure {a : α} : Fixes f (pure a : Exec φ σ α) := by
  intro s b s' h
  cases h
  rfl

theorem Fixes.stop {e : Stop φ} : Fixes f (stop e : Exec φ σ α) := fun _ _ _ h => nomatch h

theorem Fixes.get : Fixes f (get : Exec φ σ σ) := by
  intro s b s' h
  cases h
  rfl

theorem Fixes.modify {g : σ → σ} (h : ∀ s, f (g s) = f s) :
    Fixes f (modify g : Exec φ σ Unit) := by
  intro s b s' hrun
  cases hrun
  exact h s

theorem Fixes.assert {b : Bool} : Fixes f (assert b : Exec φ σ Unit) := by
  cases b with
  | false => exact .stop
  | true => exact .pure

theorem Fixes.lift {r : Except (Stop φ) α} : Fixes f (lift r : Exec φ σ α) := by
  cases r with
  | error e => exact .stop
  | ok a => exact .pure

theorem Fixes.bind {g : α → Exec φ σ β} (hx : Fixes f x) (hg : ∀ a, Fixes f (g a)) :
    Fixes f (x >>= g) := by
  intro s b t h
  obtain ⟨a, s', hrun, hrest⟩ := run_bind_eq_ok.mp h
  exact (hg a s' b t hrest).trans (hx s a s' hrun)

end Frames

/-- Where `x` returns, it has led to a state that `R` allows. -/
def Within (R : σ → σ → Prop) (x : Exec φ σ α) : Prop :=
  ∀ s a s', x.run s = .ok (a, s') → R s s'

section Transitions

variable {R : σ → σ → Prop} {x : Exec φ σ α}

theorem Within.stop {e : Stop φ} : Within R (stop e : Exec φ σ α) := fun _ _ _ h => nomatch h

theorem Within.modify {g : σ → σ} (h : ∀ s, R s (g s)) : Within R (modify g : Exec φ σ Unit) := by
  intro s b s' hrun
  cases hrun
  exact h s

theorem Within.bind [IsTrans σ R] {g : α → Exec φ σ β} (hx : Within R x)
    (hg : ∀ a, Within R (g a)) : Within R (x >>= g) := by
  intro s b t h
  obtain ⟨a, s', hrun, hrest⟩ := run_bind_eq_ok.mp h
  exact IsTrans.trans _ _ _ (hx s a s' hrun) (hg a s' b t hrest)

variable [Std.Refl R]

theorem Within.pure {a : α} : Within R (pure a : Exec φ σ α) := by
  intro s b s' h
  cases h
  exact Std.Refl.refl s

theorem Within.get : Within R (get : Exec φ σ σ) := by
  intro s b s' h
  cases h
  exact Std.Refl.refl s

theorem Within.assert {b : Bool} : Within R (assert b : Exec φ σ Unit) := by
  cases b with
  | false => exact .stop
  | true => exact .pure

end Transitions

/-- `f` for one call after the other, with a record of the results. -/
def traced {γ : Type} (f : γ → Exec φ σ β) : List γ → Exec φ σ (List (γ × β))
  | [] => Pure.pure []
  | c :: cs => do
    let b ← f c
    let log ← traced f cs
    Pure.pure ((c, b) :: log)

section Traces

variable {γ : Type} {f : γ → Exec φ σ β} {c : γ} {cs ds : List γ} {log : List (γ × β)} {s t : σ}

theorem traced_cons (h : (traced f (c :: cs)).run s = .ok (log, t)) :
    ∃ b s' log', (f c).run s = .ok (b, s') ∧ (traced f cs).run s' = .ok (log', t) ∧
      log = (c, b) :: log' := by
  obtain ⟨b, s', hc, h⟩ := run_bind_eq_ok.mp h
  obtain ⟨log', t', hcs, h⟩ := run_bind_eq_ok.mp h
  cases h
  exact ⟨b, s', log', hc, hcs, rfl⟩

theorem traced_append (h : (traced f (cs ++ ds)).run s = .ok (log, t)) :
    ∃ log₁ s' log₂, (traced f cs).run s = .ok (log₁, s') ∧
      (traced f ds).run s' = .ok (log₂, t) ∧ log = log₁ ++ log₂ := by
  induction cs generalizing s log with
  | nil => exact ⟨[], s, log, rfl, h, rfl⟩
  | cons c cs ih =>
    obtain ⟨b, s₁, log', hc, hcs, rfl⟩ := traced_cons h
    obtain ⟨log₁, s', log₂, h₁, h₂, rfl⟩ := ih hcs
    exact ⟨(c, b) :: log₁, s', log₂, run_seq hc (run_seq h₁ rfl), h₂, rfl⟩

theorem traced_concat {b : β} (h : (traced f cs).run s = .ok (log ++ [(c, b)], t)) :
    ∃ cs' s', (traced f cs').run s = .ok (log, s') ∧ (f c).run s' = .ok (b, t) := by
  induction log generalizing s cs with
  | nil =>
    cases cs with
    | nil => cases h
    | cons d cs =>
      obtain ⟨b', s', log', hd, hcs, heq⟩ := traced_cons h
      cases heq
      cases cs with
      | nil =>
        cases hcs
        exact ⟨[], s, rfl, hd⟩
      | cons d' cs =>
        obtain ⟨_, _, _, _, _, hnil⟩ := traced_cons hcs
        cases hnil
  | cons x log ih =>
    cases cs with
    | nil => cases h
    | cons d cs =>
      obtain ⟨b', s', log', hd, hcs, heq⟩ := traced_cons h
      cases heq
      obtain ⟨cs', s'', hcs', hc⟩ := ih hcs
      exact ⟨d :: cs', s'', run_seq hd (run_seq hcs' rfl), hc⟩

/-- What every call of a run keeps holds after the run, and with it what it brings about. -/
theorem traced_invariant {P : σ → Prop} {Q : γ → β → Prop}
    (hstep : ∀ c ∈ cs, ∀ s b s', P s → (f c).run s = .ok (b, s') → P s' ∧ Q c b) (hs : P s)
    (h : (traced f cs).run s = .ok (log, t)) : P t ∧ ∀ x ∈ log, Q x.1 x.2 := by
  induction cs generalizing s log with
  | nil =>
    cases h
    exact ⟨hs, nofun⟩
  | cons c cs ih =>
    obtain ⟨b, s', log', hc, hcs, rfl⟩ := traced_cons h
    obtain ⟨hs', hb⟩ := hstep c List.mem_cons_self s b s' hs hc
    have hrest := ih (fun d hd => hstep d (List.mem_cons_of_mem c hd)) hs' hcs
    exact ⟨hrest.1, List.forall_mem_cons.mpr ⟨hb, hrest.2⟩⟩

end Traces

end Exec

end TxDriver
