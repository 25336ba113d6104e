import Mathlib.Data.List.Rotate
import TxDriver.Driver.Lists

/-!
# Programs over lists

Any number of lists in one memory and any sequence of calls of `list.h` on them. What the calls
mean is said on plain lists, one for each head; what they ask for is what the comments of the
header ask for, in those terms. A program that keeps to it never follows a wild pointer, and the
plain lists give every answer it gets.
-/

namespace TxDriver

namespace Lists

inductive Call (α : Type) where
  | initListHead (list : α)
  | listAdd (new head : α)
  | listAddTail (new head : α)
  | listDel (entry : α)
  | listDelInit (entry : α)
  | listReplace (old new : α)
  | listReplaceInit (old new : α)
  | listMove (list head : α)
  | listMoveTail (list head : α)
  | listRotateLeft (head : α)
  | listCutPosition (list head entry : α)
  | listSplice (list head : α)
  | listSpliceTail (list head : α)
  | listSpliceInit (list head : α)
  | listSpliceTailInit (list head : α)
  | listIsLast (list head : α)
  | listEmpty (head : α)
  | listEmptyCareful (head : α)
  | listIsSingular (head : α)

/-- What a call returns; the functions without a result return nothing. -/
abbrev Answer := Option Bool

section Calls

variable {α : Type} [DecidableEq α]

def answering (x : ListM α Bool) : ListM α Answer := do
  let b ← x
  pure (some b)

def silent (x : ListM α Unit) : ListM α Answer := do
  x
  pure none

def Call.run : Call α → ListM α Answer
  | .initListHead list => silent (Lists.initListHead (.node list))
  | .listAdd new head => silent (Lists.listAdd (.node new) (.node head))
  | .listAddTail new head => silent (Lists.listAddTail (.node new) (.node head))
  | .listDel entry => silent (Lists.listDel (.node entry))
  | .listDelInit entry => silent (Lists.listDelInit (.node entry))
  | .listReplace old new => silent (Lists.listReplace (.node old) (.node new))
  | .listReplaceInit old new => silent (Lists.listReplaceInit (.node old) (.node new))
  | .listMove list head => silent (Lists.listMove (.node list) (.node head))
  | .listMoveTail list head => silent (Lists.listMoveTail (.node list) (.node head))
  | .listRotateLeft head => silent (Lists.listRotateLeft (.node head))
  | .listCutPosition list head entry =>
    silent (Lists.listCutPosition (.node list) (.node head) (.node entry))
  | .listSplice list head => silent (Lists.listSplice (.node list) (.node head))
  | .listSpliceTail list head => silent (Lists.listSpliceTail (.node list) (.node head))
  | .listSpliceInit list head => silent (Lists.listSpliceInit (.node list) (.node head))
  | .listSpliceTailInit list head => silent (Lists.listSpliceTailInit (.node list) (.node head))
  | .listIsLast list head => answering (Lists.listIsLast (.node list) (.node head))
  | .listEmpty head => answering (Lists.listEmpty (.node head))
  | .listEmptyCareful head => answering (Lists.listEmptyCareful (.node head))
  | .listIsSingular head => answering (Lists.listIsSingular (.node head))

def runCalls : List (Call α) → ListM α (List Answer)
  | [] => pure []
  | c :: cs => do
    let a ← c.run
    let as ← runCalls cs
    pure (a :: as)

/-- The entries of `l` up to and including `entry`, and those behind it. -/
def cutAt (entry : α) (l : List α) : List α × List α := l.splitAt (l.idxOf entry + 1)

/-- `list_cut_position` leaves an empty list alone, and a list of one entry when asked for another
one; `list` keeps what it had then. -/
def cutPosition (C : Contents α) (list head entry : α) : Contents α :=
  match C head with
  | none => C
  | some l =>
    if l = [] ∨ l.length = 1 ∧ entry ∉ head :: l then C
    else if entry = head then C.set list []
    else ((C.forget list).set head (cutAt entry l).2).set list (cutAt entry l).1

/-- A list that was spliced without being initialised again is no list any more. -/
def spliced (C : Contents α) (list : α) : Contents α :=
  if C list = some [] then C else C.forget list

def Call.after (C : Contents α) : Call α → Contents α
  | .initListHead list => C.set list []
  | .listAdd new head => (C.forget new).modify head (new :: ·)
  | .listAddTail new head => (C.forget new).modify head (· ++ [new])
  | .listDel entry => C.detach entry
  | .listDelInit entry => (C.detach entry).set entry []
  | .listReplace old new => C.replace old new
  | .listReplaceInit old new => (C.replace old new).set old []
  | .listMove list head => (C.detach list).modify head (list :: ·)
  | .listMoveTail list head => (C.detach list).modify head (· ++ [list])
  | .listRotateLeft head => C.modify head (·.rotate 1)
  | .listCutPosition list head entry => cutPosition C list head entry
  | .listSplice list head => (spliced C list).modify head ((C list).getD [] ++ ·)
  | .listSpliceTail list head => (spliced C list).modify head (· ++ (C list).getD [])
  | .listSpliceInit list head => (C.set list []).modify head ((C list).getD [] ++ ·)
  | .listSpliceTailInit list head => (C.set list []).modify head (· ++ (C list).getD [])
  | .listIsLast .. | .listEmpty _ | .listEmptyCareful _ | .listIsSingular _ => C

def Call.answer (C : Contents α) : Call α → Answer
  | .listIsLast list head => some (((C head).map (·.getLastD head)) = some list)
  | .listEmpty head => some (C head = some [])
  | .listEmptyCareful head => some (C head = some [])
  | .listIsSingular head => some ((C head).map List.length = some 1)
  | _ => none

/-- What a caller has to see to. A head that is added to a list or initialised may have had a list
of its own, which is lost; an entry may be taken out of a list or be an empty list itself. -/
def Call.Allowed (C : Contents α) : Call α → Prop
  | .initListHead list => C.Unlinked list
  | .listAdd new head | .listAddTail new head => C.Unlinked new ∧ new ≠ head ∧ C.Head head
  | .listDel entry | .listDelInit entry => C.Entry entry ∨ C entry = some []
  | .listReplace old new | .listReplaceInit old new =>
    C.Unlinked new ∧ old ≠ new ∧ ((C.forget new).Entry old ∨ C.Head old)
  | .listMove list head | .listMoveTail list head =>
    (C.Entry list ∨ C list = some []) ∧ list ≠ head ∧ C.Head head
  | .listRotateLeft head => C.Head head
  | .listCutPosition list head entry =>
    C.Unlinked list ∧ list ≠ head ∧ ∃ l, C head = some l ∧ (entry ∈ head :: l ∨ l.length ≤ 1)
  | .listSplice list head | .listSpliceTail list head | .listSpliceInit list head
  | .listSpliceTailInit list head => list ≠ head ∧ C.Head list ∧ C.Head head
  | .listIsLast list head => ∃ l, C head = some l ∧ list ∈ head :: l
  | .listEmpty head | .listEmptyCareful head => C.Entry head ∨ C.Head head
  | .listIsSingular head => C.Head head

instance Call.decidableAllowed [Fintype α] (C : Contents α) :
    (c : Call α) → Decidable (c.Allowed C)
  | .initListHead list => inferInstanceAs (Decidable (C.Unlinked list))
  | .listAdd new head | .listAddTail new head =>
    inferInstanceAs (Decidable (C.Unlinked new ∧ new ≠ head ∧ C.Head head))
  | .listDel entry | .listDelInit entry =>
    inferInstanceAs (Decidable (C.Entry entry ∨ C entry = some []))
  | .listReplace old new | .listReplaceInit old new =>
    inferInstanceAs
      (Decidable (C.Unlinked new ∧ old ≠ new ∧ ((C.forget new).Entry old ∨ C.Head old)))
  | .listMove list head | .listMoveTail list head =>
    inferInstanceAs (Decidable ((C.Entry list ∨ C list = some []) ∧ list ≠ head ∧ C.Head head))
  | .listRotateLeft head | .listIsSingular head => inferInstanceAs (Decidable (C.Head head))
  | .listCutPosition list head entry =>
    inferInstanceAs (Decidable (C.Unlinked list ∧ list ≠ head ∧
      ∃ l ∈ C head, entry ∈ head :: l ∨ l.length ≤ 1))
  | .listSplice list head | .listSpliceTail list head | .listSpliceInit list head
  | .listSpliceTailInit list head =>
    inferInstanceAs (Decidable (list ≠ head ∧ C.Head list ∧ C.Head head))
  | .listIsLast list head => inferInstanceAs (Decidable (∃ l ∈ C head, list ∈ head :: l))
  | .listEmpty head | .listEmptyCareful head =>
    inferInstanceAs (Decidable (C.Entry head ∨ C.Head head))

def answers (C : Contents α) : List (Call α) → List Answer
  | [] => []
  | c :: cs => c.answer C :: answers (c.after C) cs

def afterAll (C : Contents α) : List (Call α) → Contents α
  | [] => C
  | c :: cs => afterAll (c.after C) cs

def AllowedAll (C : Contents α) : List (Call α) → Prop
  | [] => True
  | c :: cs => c.Allowed C ∧ AllowedAll (c.after C) cs

instance decidableAllowedAll [Fintype α] :
    (C : Contents α) → (cs : List (Call α)) → Decidable (AllowedAll C cs)
  | _, [] => .isTrue trivial
  | C, c :: cs =>
    have := decidableAllowedAll (c.after C) cs
    inferInstanceAs (Decidable (c.Allowed C ∧ AllowedAll (c.after C) cs))

end Calls

/-- From every memory with the lists `C`, `x` returns `b` and leaves the lists `C'`. What is on no
list and not among `args` stays on no list and keeps its pointers. -/
def Refines {α β : Type} (C : Contents α) (x : ListM α β) (b : β) (C' : Contents α)
    (args : List α) : Prop :=
  ∀ m : Memory α, m.Holds C → ∃ m', x.run m = .ok (b, m') ∧ m'.Holds C' ∧
    ∀ y, C.Free y → y ∉ args → C'.Free y ∧ m'.next y = m.next y ∧ m'.prev y = m.prev y

section Rules

variable {α β γ : Type} {C C' D : Contents α} {x : ListM α β} {b : β} {c : γ} {args : List α}

theorem Refines.seq {f : β → ListM α γ} (hx : Refines C x b C' args)
    (hf : Refines C' (f b) c D args) : Refines C (x >>= f) c D args := by
  intro m hm
  obtain ⟨m₁, hrun₁, hm₁, hkeep₁⟩ := hx m hm
  obtain ⟨m₂, hrun₂, hm₂, hkeep₂⟩ := hf m₁ hm₁
  refine ⟨m₂, Exec.run_seq hrun₁ hrun₂, hm₂, ?_⟩
  intro y hy hargs
  obtain ⟨hfree₁, hnext₁, hprev₁⟩ := hkeep₁ y hy hargs
  obtain ⟨hfree₂, hnext₂, hprev₂⟩ := hkeep₂ y hfree₁ hargs
  exact ⟨hfree₂, hnext₂.trans hnext₁, hprev₂.trans hprev₁⟩

theorem Refines.mono {args' : List α} (hx : Refines C x b C' args) (hsub : args ⊆ args') :
    Refines C x b C' args' := by
  intro m hm
  obtain ⟨m', hrun, hm', hkeep⟩ := hx m hm
  exact ⟨m', hrun, hm', fun y hy hargs => hkeep y hy fun hm => hargs (hsub hm)⟩

/-- Two ways to the same lists end in the same memory when they change no other nodes. -/
theorem Refines.same_memory {y : ListM α γ} {args' : List α} {m : Memory α}
    (hx : Refines C x b D args) (hy : Refines C y c D args') (hfree : ∀ a, D.Free a → C.Free a)
    (hargs : ∀ a ∈ args, ¬D.Free a) (hargs' : ∀ a ∈ args', ¬D.Free a) (hm : m.Holds C) :
    ∃ m', x.run m = .ok (b, m') ∧ y.run m = .ok (c, m') ∧ m'.Holds D := by
  obtain ⟨m₁, hrun₁, hm₁, hkeep₁⟩ := hx m hm
  obtain ⟨m₂, hrun₂, hm₂, hkeep₂⟩ := hy m hm
  have hsame : ∀ a, m₁.next a = m₂.next a ∧ m₁.prev a = m₂.prev a := by
    intro a
    by_cases ha : D.Free a
    · obtain ⟨_, hnext₁, hprev₁⟩ := hkeep₁ a (hfree a ha) fun h => hargs a h ha
      obtain ⟨_, hnext₂, hprev₂⟩ := hkeep₂ a (hfree a ha) fun h => hargs' a h ha
      exact ⟨hnext₁.trans hnext₂.symm, hprev₁.trans hprev₂.symm⟩
    · simp only [Contents.Free, not_forall, not_not] at ha
      obtain ⟨k, l, hk, hmem⟩ := ha
      exact (hm₁.ring hk).unique (hm₂.ring hk) hmem
  have heq : m₁ = m₂ := by
    cases m₁
    cases m₂
    exact congrArg₂ Links.mk (funext fun a => (hsame a).1) (funext fun a => (hsame a).2)
  subst heq
  exact ⟨m₁, hrun₁, hrun₂, hm₁⟩

theorem Refines.read (h : ∀ m : Memory α, m.Holds C → x.run m = .ok (b, m)) :
    Refines C x b C args :=
  fun m hm => ⟨m, h m hm, hm, fun _ hy _ => ⟨hy, rfl, rfl⟩⟩

theorem Refines.pure : Refines C (pure b : ListM α β) b C args := .read fun _ _ => rfl

theorem Refines.off
    (hx : ∀ m : Memory α, m.Holds C → ∃ m', x.run m = .ok (b, m') ∧ m.Off m' args)
    (hfree : ∀ y ∈ args, C.Free y) : Refines C x b C args := by
  intro m hm
  obtain ⟨m', hrun, hoff⟩ := hx m hm
  exact ⟨m', hrun, hm.off hoff hfree, fun y hy hya => ⟨hy, hoff y hya⟩⟩

variable [DecidableEq α] {h k : α} {l r : List α}

/-- `y` may be given to the list of `h` once that of `k` is forgotten, and was an argument if it
was on no list. -/
def Usable (C : Contents α) (k h : α) (args : List α) (y : α) : Prop :=
  (C.forget k).Private h y ∧ (y ∈ args ∨ ¬C.Free y)

theorem usable_own {m : Memory α} (hm : m.Holds C) (hh : C h = some l) {y : α}
    (hy : y ∈ h :: l) : Usable C k h args y :=
  ⟨(hm.apart hh hy).forget, .inr (Contents.not_free hh hy)⟩

theorem usable_other {m : Memory α} (hm : m.Holds C) (hk : C k = some l) {y : α}
    (hy : y ∈ k :: l) : Usable C k h args y :=
  ⟨(hm.apart hk hy).of_forget, .inr (Contents.not_free hk hy)⟩

theorem usable_new (hk : C.Unlinked k) (hmem : k ∈ args) : Usable C k h args k :=
  ⟨hk.of_forget, .inl hmem⟩

theorem Refines.set
    (hx : ∀ m : Memory α, m.Holds C → ∃ m', x.run m = .ok (b, m') ∧ m'.Ring h l ∧ m.Off m' r)
    (hsub : h :: l ⊆ r) (huse : ∀ m : Memory α, m.Holds C → ∀ y ∈ r, Usable C k h args y) :
    Refines C x b ((C.forget k).set h l) args := by
  intro m hm
  obtain ⟨m', hrun, hr, hoff⟩ := hx m hm
  refine ⟨m', hrun, (hm.forget k).set hr hoff hsub fun y hy => (huse m hm y hy).1, ?_⟩
  intro y hy hya
  have hyr : y ∉ r := fun hmem => (huse m hm y hmem).2.elim hya fun hfree => hfree hy
  refine ⟨?_, hoff y hyr⟩
  intro k' l' hk'
  rcases Contents.set_eq_some.mp hk' with ⟨rfl, rfl⟩ | ⟨_, hk'⟩
  · exact fun hmem => hyr (hsub hmem)
  · exact hy k' l' (Contents.forget_eq_some.mp hk').2

end Rules

section Functions

variable {α : Type} [DecidableEq α] {C : Contents α} {h k e new old list head entry : α}
  {l r u : List α}

theorem initListHead_refines (hu : C.Unlinked h) :
    Refines C (Lists.initListHead (.node h)) () (C.set h []) [h] := by
  rw [← Contents.forget_set]
  refine .set (r := [h]) ?_ (by simp) ?_
  · intro m _
    exact ⟨_, initListHead_run, Links.ring_init, Links.Off.refl.link (by simp) (by simp)⟩
  · intro m hm y hy
    rw [List.mem_singleton.mp hy]
    exact usable_new hu (by simp)

theorem insert_off {m : Memory α} (hm : m.Holds C) (hnew : C.Unlinked new) (hne : new ≠ head)
    (hl : C head = some (l ++ r)) :
    ((m.link new (r.headD head)).link (l.getLastD head) new).Ring head (l ++ new :: r) ∧
      m.Off ((m.link new (r.headD head)).link (l.getLastD head) new)
        (new :: head :: (l ++ r)) := by
  have hring := hm.ring hl
  have hout : new ∉ head :: (l ++ r) := hnew head _ hne.symm hl
  have hnodup : (head :: (l ++ new :: r)).Nodup := by
    have hn := hring.nodup
    grind
  have hnext : r.headD head ∈ new :: head :: (l ++ r) :=
    Links.headD_mem_of_subset (by grind)
  have hprev : l.getLastD head ∈ new :: head :: (l ++ r) :=
    Links.getLastD_mem_of_subset (by grind)
  exact ⟨.insert hring.paths.1 hring.paths.2 hnodup,
    (Links.Off.refl.link (by simp) hnext).link hprev (by simp)⟩

theorem usable_insert {m : Memory α} (hm : m.Holds C) (hnew : C.Unlinked new)
    (hl : C head = some l) : ∀ y ∈ new :: head :: l, Usable C new head [new] y := by
  intro y hy
  rcases List.mem_cons.mp hy with rfl | hy
  · exact usable_new hnew (by simp)
  · exact usable_own hm hl hy

theorem listAdd_refines (hnew : C.Unlinked new) (hne : new ≠ head) (hl : C head = some l) :
    Refines C (Lists.listAdd (.node new) (.node head)) () ((C.forget new).set head (new :: l))
      [new] := by
  refine .set (r := new :: head :: l) ?_ (by grind) fun m hm => usable_insert hm hnew hl
  intro m hm
  obtain ⟨hring, hoff⟩ := insert_off (l := []) hm hnew hne hl
  exact ⟨_, listAdd_run (hm.ring hl), hring, hoff⟩

theorem listAddTail_refines (hnew : C.Unlinked new) (hne : new ≠ head) (hl : C head = some l) :
    Refines C (Lists.listAddTail (.node new) (.node head)) ()
      ((C.forget new).set head (l ++ [new])) [new] := by
  refine .set (r := new :: head :: l) ?_ (by grind) fun m hm => usable_insert hm hnew hl
  intro m hm
  obtain ⟨hring, hoff⟩ := insert_off (r := []) hm hnew hne (by simpa using hl)
  rw [List.append_nil] at hoff
  exact ⟨_, listAddTail_run (hm.ring hl), hring, hoff⟩

theorem listDelEntry_refines (he : C.Entry e ∨ C e = some []) :
    Refines C (Lists.listDelEntry (.node e)) () (C.detach e) [e] := by
  intro m hm
  rcases he with ⟨k, u, hk, hmem⟩ | he
  · obtain ⟨l, r, rfl⟩ := List.append_of_mem hmem
    rw [hm.detach_entry hk, ← Contents.forget_set]
    refine Refines.set (r := k :: (l ++ e :: r)) ?_ (by grind) ?_ m hm
    · intro m hm
      have hring := hm.ring hk
      refine ⟨_, listDelEntry_run hring.prev_entry hring.next_entry, hring.remove, ?_⟩
      have hprev : l.getLastD k ∈ k :: (l ++ e :: r) :=
        Links.getLastD_mem_of_subset (by grind)
      have hnext : r.headD k ∈ k :: (l ++ e :: r) :=
        Links.headD_mem_of_subset (by grind)
      exact Links.Off.refl.link hprev hnext
    · exact fun m hm y hy => usable_own hm hk hy
  · rw [hm.detach_head he]
    have hring := hm.ring he
    have hoff : m.Off (m.link e e) [e] := Links.Off.refl.link (by simp) (by simp)
    have hfree : ∀ y ∈ [e], (C.forget e).Free y := by
      intro y hy
      rw [List.mem_singleton.mp hy]
      exact (hm.apart he List.mem_cons_self).free_forget
    refine ⟨_, listDelEntry_run hring.prev_head hring.next_head, (hm.forget e).off hoff hfree, ?_⟩
    exact fun y hy hya => ⟨hy.forget, hoff y hya⟩

theorem Refines.after_detach {β : Type} {f : Unit → ListM α β} {b : β} {D : Contents α}
    (he : C.Entry e ∨ C e = some [])
    (hf : (C.detach e).Free e → Refines (C.detach e) (f ()) b D [e]) :
    Refines C (Lists.listDelEntry (.node e) >>= f) b D [e] := by
  intro m hm
  exact (listDelEntry_refines he).seq (hf hm.free_detach) m hm

theorem listDel_refines (he : C.Entry e ∨ C e = some []) :
    Refines C (Lists.listDel (.node e)) () (C.detach e) [e] := by
  refine .after_detach he fun hfree => .off ?_ (by simpa using hfree)
  intro m _
  exact ⟨_, rfl, (Links.Off.refl.setNext (by simp)).setPrev (by simp)⟩

theorem listDelInit_refines (he : C.Entry e ∨ C e = some []) :
    Refines C (Lists.listDelInit (.node e)) () ((C.detach e).set e []) [e] :=
  .after_detach he fun hfree => initListHead_refines (hfree.private e)

theorem listMove_refines (he : C.Entry e ∨ C e = some []) (hne : e ≠ head)
    (hl : C head = some l) :
    Refines C (Lists.listMove (.node e) (.node head)) ()
      ((C.detach e).modify head (e :: ·)) [e] := by
  have hl' := Contents.detach_of_ne hne hl
  rw [Contents.modify_some hl', ← Contents.forget_none (C := C.detach e) Contents.detach_self]
  exact .after_detach he fun hfree => listAdd_refines (hfree.private e) hne hl'

theorem listMoveTail_refines (he : C.Entry e ∨ C e = some []) (hne : e ≠ head)
    (hl : C head = some l) :
    Refines C (Lists.listMoveTail (.node e) (.node head)) ()
      ((C.detach e).modify head (· ++ [e])) [e] := by
  have hl' := Contents.detach_of_ne hne hl
  rw [Contents.modify_some hl', ← Contents.forget_none (C := C.detach e) Contents.detach_self]
  exact .after_detach he fun hfree => listAddTail_refines (hfree.private e) hne hl'

theorem listReplace_refines_entry (hk : C k = some (l ++ old :: r)) (hne : k ≠ new)
    (hnew : C.Unlinked new) :
    Refines C (Lists.listReplace (.node old) (.node new)) () (C.replace old new) [new] := by
  intro m hm
  rw [hm.replace_entry hk hne hnew]
  refine Refines.set (r := new :: k :: (l ++ old :: r)) ?_ (by grind)
    (fun m hm => usable_insert hm hnew hk) m hm
  intro m hm
  have hring := hm.ring hk
  have hrun := listReplace_run new hring.prev_entry hring.next_entry fun he =>
    hring.next_entry_ne (hring.next_entry.trans (congrArg Pointer.node he.symm))
  have hnodup : (k :: (l ++ new :: r)).Nodup := by
    have hn := hring.nodup
    have hout := hnew k _ hne hk
    grind
  have hprev : l.getLastD k ∈ new :: k :: (l ++ old :: r) :=
    Links.getLastD_mem_of_subset (by grind)
  have hnext : r.headD k ∈ new :: k :: (l ++ old :: r) :=
    Links.headD_mem_of_subset (by grind)
  have hpaths := hring.paths
  rw [List.append_cons] at hring
  exact ⟨_, hrun, .insert hpaths.1 hring.paths.2 hnodup,
    (Links.Off.refl.link (by simp) hnext).link hprev (by simp)⟩

theorem listReplace_refines_head (hl : C old = some l) (hne : old ≠ new)
    (hnew : C.Unlinked new) :
    Refines C (Lists.listReplace (.node old) (.node new)) () (C.replace old new) [new] := by
  intro m hm
  rw [hm.replace_head hl hne]
  refine Refines.set (r := new :: old :: l) ?_ (by grind) ?_ m hm
  · intro m hm
    have hring := hm.ring hl
    by_cases hempty : l = []
    · subst hempty
      exact ⟨_, listReplace_empty hring, Links.ring_init,
        (Links.Off.refl.link (by simp) (by simp)).link (by simp) (by simp)⟩
    · have hold : old ≠ l.headD old := by
        intro he
        exact hempty (hring.next_eq_head_iff.mp (hring.next_head.trans (congrArg _ he.symm)))
      have hrun := listReplace_run new hring.prev_head hring.next_head hold
      rw [Links.headD_of_ne_nil hempty old new, Links.getLastD_of_ne_nil hempty old new] at hrun
      have hpath := (Links.Ring.paths (r := []) (by simpa using hring)).1
      have hnodup : (new :: l).Nodup := by
        have hn := hring.nodup
        have hout := hnew old l hne hl
        grind
      refine ⟨_, hrun, .enclose hpath.tail hempty hnodup, ?_⟩
      have hnext : l.headD new ∈ new :: old :: l :=
        Links.headD_mem_of_subset (by grind)
      have hprev : l.getLastD new ∈ new :: old :: l :=
        Links.getLastD_mem_of_subset (by grind)
      exact (Links.Off.refl.link (by simp) hnext).link hprev (by simp)
  · intro m hm y hy
    rcases List.mem_cons.mp hy with rfl | hy
    · exact ⟨hnew.forget, .inl (by simp)⟩
    · exact usable_other hm hl hy

theorem listReplace_refines (hnew : C.Unlinked new) (hne : old ≠ new)
    (hold : (C.forget new).Entry old ∨ C.Head old) :
    Refines C (Lists.listReplace (.node old) (.node new)) () (C.replace old new) [new] := by
  rcases hold with ⟨k, u, hk, hmem⟩ | ⟨l, hl⟩
  · obtain ⟨hkn, hk⟩ := Contents.forget_eq_some.mp hk
    obtain ⟨l, r, rfl⟩ := List.append_of_mem hmem
    exact listReplace_refines_entry hk hkn hnew
  · exact listReplace_refines_head hl hne hnew

theorem listReplaceInit_refines (hnew : C.Unlinked new) (hne : old ≠ new)
    (hold : (C.forget new).Entry old ∨ C.Head old) :
    Refines C (Lists.listReplaceInit (.node old) (.node new)) () ((C.replace old new).set old [])
      [old, new] := by
  intro m hm
  refine Refines.seq ((listReplace_refines hnew hne hold).mono (by simp)) ?_ m hm
  exact (initListHead_refines ((hm.free_replace hne).private old)).mono (by simp)

theorem listEmpty_refines (hl : C head = some l) :
    Refines C (Lists.listEmpty (.node head)) (decide (l = [])) C [] :=
  .read fun _ hm => listEmpty_head (hm.ring hl)

omit [DecidableEq α] in
theorem loadNext_refines (hl : C head = some l) :
    Refines C (loadNext (.node head)) (.node (l.headD head)) C [] :=
  .read fun m hm => by rw [loadNext_node, (hm.ring hl).next_head]

omit [DecidableEq α] in
theorem loadPrev_refines (hl : C head = some l) :
    Refines C (loadPrev (.node head)) (.node (l.getLastD head)) C [] :=
  .read fun m hm => by rw [loadPrev_node, (hm.ring hl).prev_head]

omit [DecidableEq α] in
theorem loadNext_refines_entry (hh : C h = some (l ++ e :: r)) :
    Refines C (loadNext (.node e)) (.node (r.headD h)) C [] :=
  .read fun m hm => by rw [loadNext_node, (hm.ring hh).next_entry]

omit [DecidableEq α] in
theorem loadPrev_refines_entry (hh : C h = some (l ++ e :: r)) :
    Refines C (loadPrev (.node e)) (.node (l.getLastD h)) C [] :=
  .read fun m hm => by rw [loadPrev_node, (hm.ring hh).prev_entry]

theorem listRotateLeft_refines (hl : C head = some l) :
    Refines C (Lists.listRotateLeft (.node head)) () (C.modify head (·.rotate 1)) [] := by
  rw [Contents.modify_some hl]
  refine .seq (listEmpty_refines hl) ?_
  cases l with
  | nil =>
    rw [List.rotate_nil, Contents.set_same hl]
    exact .pure
  | cons a l =>
    refine .seq (loadNext_refines hl) ?_
    intro m hm
    have hne : a ≠ head := fun ha => (hm.ring hl).notMem (ha ▸ List.mem_cons_self)
    have hafter : (C.detach a).modify head (· ++ [a]) = C.set head ((a :: l).rotate 1) := by
      rw [hm.detach_entry (l := []) hl, Contents.modify_some Contents.set_self, Contents.set_set]
      simp
    obtain ⟨m', hrun, hm', hkeep⟩ := listMoveTail_refines (.inl ⟨head, _, hl, by simp⟩) hne hl m hm
    rw [hafter] at hm' hkeep
    refine ⟨m', hrun, hm', fun y hy _ => hkeep y hy ?_⟩
    intro hya
    rw [List.mem_singleton.mp hya] at hy
    exact Contents.not_free hl (by simp) hy

theorem listSpliceBetween_refines (hlist : C list = some u) (hne : u ≠ [])
    (hhead : C head = some (l ++ r)) (hlh : list ≠ head) :
    Refines C (listSpliceBetween (.node list) (.node (l.getLastD head)) (.node (r.headD head))) ()
      ((C.forget list).set head (l ++ u ++ r)) [] := by
  refine .set (r := list :: (u ++ head :: (l ++ r))) ?_ (by grind) ?_
  · intro m hm
    have hrl := hm.ring hlist
    have hrh := hm.ring hhead
    have hrun := listSpliceBetween_run (p := l.getLastD head) (n := r.headD head) hrl.prev_head
      hrl.next_head
    rw [Links.headD_of_ne_nil hne list head, Links.getLastD_of_ne_nil hne list head] at hrun
    have hpath := (Links.Ring.paths (r := []) (by simpa using hrl)).1
    have hnodup : (head :: (l ++ u ++ r)).Nodup := by
      have hapart : ∀ x ∈ list :: u, x ∉ head :: (l ++ r) := fun x hx =>
        hm.apart hlist hx head _ hlh.symm hhead
      have hnl := hrl.nodup
      have hnh := hrh.nodup
      grind
    refine ⟨_, hrun, .splice hrh.paths.1 hpath.tail hrh.paths.2 hne hnodup, ?_⟩
    have hp : l.getLastD head ∈ list :: (u ++ head :: (l ++ r)) :=
      Links.getLastD_mem_of_subset (by grind)
    have ha : u.headD head ∈ list :: (u ++ head :: (l ++ r)) :=
      Links.headD_mem_of_subset (by grind)
    have hb : u.getLastD head ∈ list :: (u ++ head :: (l ++ r)) :=
      Links.getLastD_mem_of_subset (by grind)
    have hn : r.headD head ∈ list :: (u ++ head :: (l ++ r)) :=
      Links.headD_mem_of_subset (by grind)
    exact (Links.Off.refl.link hp ha).link hb hn
  · intro m hm y hy
    rw [← List.cons_append] at hy
    rcases List.mem_append.mp hy with hy | hy
    · exact usable_other hm hlist hy
    · exact usable_own hm hhead hy

theorem Refines.spliced_init {x : ListM α Unit} {D : List α} (hlist : C list = some u)
    (hhead : C head = some l) (hlh : list ≠ head) (hsub : D ⊆ l ++ u)
    (hx : Refines C x () ((C.forget list).set head D) []) :
    Refines C (x >>= fun _ => Lists.initListHead (.node list)) () ((C.set list []).set head D)
      [list] := by
  intro m hm
  have hinit : ((C.set list []).set head D) = ((C.forget list).set head D).set list [] := by
    rw [Contents.forget_set_comm hlh]
    exact Contents.set_comm hlh.symm
  have hunlinked : ((C.forget list).set head D).Unlinked list := by
    refine ((hm.apart hlist List.mem_cons_self).forget).set ?_
    have hnl := (hm.ring hlist).notMem
    have hnh := hm.apart hlist List.mem_cons_self head l hlh.symm hhead
    grind
  rw [hinit]
  exact Refines.seq (hx.mono (by simp)) (initListHead_refines hunlinked) m hm

section Splices

variable (hlist : C list = some u) (hhead : C head = some l) (hlh : list ≠ head)
include hlist hhead hlh

theorem listSplice_refines :
    Refines C (Lists.listSplice (.node list) (.node head)) ()
      ((spliced C list).modify head (u ++ ·)) [] := by
  refine .seq (listEmpty_refines hlist) ?_
  by_cases hu : u = []
  · subst hu
    rw [spliced, if_pos hlist, Contents.modify_some hhead, List.nil_append,
      Contents.set_same hhead]
    exact .pure
  · have hne : C list ≠ some [] := by simpa [hlist] using hu
    rw [spliced, if_neg hne, Contents.modify_some ((Contents.forget_of_ne hlh.symm).trans hhead),
      decide_eq_false hu, if_neg Bool.false_ne_true]
    exact .seq (loadNext_refines hhead) (listSpliceBetween_refines (l := []) hlist hu hhead hlh)

theorem listSpliceTail_refines :
    Refines C (Lists.listSpliceTail (.node list) (.node head)) ()
      ((spliced C list).modify head (· ++ u)) [] := by
  refine .seq (listEmpty_refines hlist) ?_
  by_cases hu : u = []
  · subst hu
    rw [spliced, if_pos hlist, Contents.modify_some hhead, List.append_nil,
      Contents.set_same hhead]
    exact .pure
  · have hne : C list ≠ some [] := by simpa [hlist] using hu
    have hsplice := listSpliceBetween_refines (r := []) hlist hu (by simpa using hhead) hlh
    rw [List.append_nil] at hsplice
    rw [spliced, if_neg hne, Contents.modify_some ((Contents.forget_of_ne hlh.symm).trans hhead),
      decide_eq_false hu, if_neg Bool.false_ne_true]
    exact .seq (loadPrev_refines hhead) hsplice

theorem listSpliceInit_refines :
    Refines C (Lists.listSpliceInit (.node list) (.node head)) ()
      ((C.set list []).modify head (u ++ ·)) [list] := by
  rw [Contents.modify_some ((Contents.set_of_ne hlh.symm).trans hhead)]
  refine .seq ((listEmpty_refines hlist).mono (by simp)) ?_
  by_cases hu : u = []
  · subst hu
    rw [List.nil_append, Contents.set_same hlist, Contents.set_same hhead]
    exact .pure
  · rw [decide_eq_false hu, if_neg Bool.false_ne_true]
    refine .seq ((loadNext_refines hhead).mono (by simp)) ?_
    refine .spliced_init hlist hhead hlh (by grind) ?_
    exact listSpliceBetween_refines (l := []) hlist hu hhead hlh

theorem listSpliceTailInit_refines :
    Refines C (Lists.listSpliceTailInit (.node list) (.node head)) ()
      ((C.set list []).modify head (· ++ u)) [list] := by
  rw [Contents.modify_some ((Contents.set_of_ne hlh.symm).trans hhead)]
  refine .seq ((listEmpty_refines hlist).mono (by simp)) ?_
  by_cases hu : u = []
  · subst hu
    rw [List.append_nil, Contents.set_same hlist, Contents.set_same hhead]
    exact .pure
  · have hsplice := listSpliceBetween_refines (r := []) hlist hu (by simpa using hhead) hlh
    rw [List.append_nil] at hsplice
    rw [decide_eq_false hu, if_neg Bool.false_ne_true]
    refine .seq ((loadPrev_refines hhead).mono (by simp)) ?_
    exact .spliced_init hlist hhead hlh (by simp) hsplice

end Splices

theorem listCutBetween_refines (hhead : C head = some (l ++ entry :: r)) (hlh : list ≠ head)
    (hlist : C.Unlinked list) :
    Refines C (listCutBetween (.node list) (.node head) (.node entry)) ()
      (((C.forget list).set head r).set list (l ++ [entry])) [list] := by
  intro m hm
  have hring := hm.ring hhead
  have hout : list ∉ head :: (l ++ entry :: r) := hlist head _ hlh.symm hhead
  have hfirst : (l ++ entry :: r).headD head ∈ list :: head :: (l ++ entry :: r) :=
    Links.headD_mem_of_subset (by grind)
  have hnext : r.headD head ∈ list :: head :: (l ++ entry :: r) :=
    Links.headD_mem_of_subset (by grind)
  have hoff := ((Links.Off.refl.link (m := m) (x := list) (by simp) hfirst).link (x := entry)
    (y := list) (by simp) (by simp)).link (x := head) (by simp) hnext
  obtain ⟨hfront, hback⟩ := hring.cut hout
  have hholds := (hm.forget list).set hback hoff (by grind) ?_
  · refine ⟨_, listCutBetween_run list hring.next_entry hring.next_head,
      hholds.set hfront .refl (List.Subset.refl _) ?_, ?_⟩
    · intro y hy k u hne hk
      have hn := hring.nodup
      rcases Contents.set_eq_some.mp hk with ⟨rfl, rfl⟩ | ⟨hkh, hk⟩
      · grind
      · rcases List.mem_cons.mp hy with rfl | hy
        · exact hlist k u hne (Contents.forget_eq_some.mp hk).2
        · exact hm.apart hhead (by grind) k u hkh (Contents.forget_eq_some.mp hk).2
    · intro y hy hya
      have hyh := hy head _ hhead
      refine ⟨?_, hoff y (by grind)⟩
      intro k u hk
      rcases Contents.set_eq_some.mp hk with ⟨rfl, rfl⟩ | ⟨_, hk⟩
      · grind
      · rcases Contents.set_eq_some.mp hk with ⟨rfl, rfl⟩ | ⟨_, hk⟩
        · grind
        · exact hy k u (Contents.forget_eq_some.mp hk).2
  · intro y hy
    rcases List.mem_cons.mp hy with rfl | hy
    · exact hlist.of_forget
    · exact (hm.apart hhead hy).forget

theorem cutAt_append (hl : entry ∉ l) : cutAt entry (l ++ entry :: r) = (l ++ [entry], r) := by
  have hidx : (l ++ entry :: r).idxOf entry = l.length := by
    rw [List.idxOf_append_of_notMem hl, List.idxOf_cons_self, Nat.add_zero]
  rw [cutAt, hidx, List.splitAt_eq, List.append_cons, ← List.length_concat (a := entry),
    List.concat_eq_append, List.take_left, List.drop_left]

theorem listCutPosition_refines (hlist : C.Unlinked list) (hlh : list ≠ head)
    (hl : C head = some l) (he : entry ∈ head :: l ∨ l.length ≤ 1) :
    Refines C (Lists.listCutPosition (.node list) (.node head) (.node entry)) ()
      (cutPosition C list head entry) [list] := by
  rw [cutPosition, hl]
  refine .seq ((listEmpty_refines hl).mono (by simp)) ?_
  by_cases hempty : l = []
  · rw [decide_eq_true hempty, if_pos rfl]
    simp only [hempty, true_or, if_true]
    exact .pure
  · rw [decide_eq_false hempty, if_neg Bool.false_ne_true]
    refine .seq (.read fun m hm => cutMisses_run (hm.ring hl)) ?_
    by_cases hmiss : l.length = 1 ∧ entry ∉ head :: l
    · rw [decide_eq_true hmiss, if_pos rfl]
      simp only [hmiss, hempty, not_false_eq_true, and_self, or_true, if_true]
      exact .pure
    · have hmem : entry ∈ head :: l := by
        by_contra hno
        have hlen := he.resolve_left hno
        have hpos := List.length_pos_iff.mpr hempty
        exact hmiss ⟨by omega, hno⟩
      rw [decide_eq_false hmiss, if_neg Bool.false_ne_true]
      simp only [hmiss, hempty, or_self, if_false, Pointer.node.injEq]
      by_cases hhead : entry = head
      · rw [if_pos hhead, if_pos hhead]
        exact initListHead_refines hlist
      · rw [if_neg hhead, if_neg hhead]
        obtain ⟨u, r, rfl⟩ := List.append_of_mem (List.mem_of_ne_of_mem hhead hmem)
        intro m hm
        have hn := (hm.ring hl).nodup
        rw [cutAt_append (by grind)]
        exact listCutBetween_refines hl hlh hlist m hm

theorem empty_refines_of (f : Ptr α → ListM α Bool)
    (hhead : ∀ (m : Memory α) l, m.Ring head l → (f (.node head)).run m = .ok (decide (l = []), m))
    (hentry : ∀ (m : Memory α) h l r, m.Ring h (l ++ head :: r) →
      (f (.node head)).run m = .ok (false, m))
    (hlinked : C.Entry head ∨ C.Head head) :
    Refines C (f (.node head)) (decide (C head = some [])) C [] := by
  intro m hm
  refine Refines.read (fun m hm => ?_) m hm
  rcases hlinked with ⟨k, u, hk, hmem⟩ | ⟨l, hl⟩
  · obtain ⟨l, r, rfl⟩ := List.append_of_mem hmem
    rw [hentry m k l r (hm.ring hk), hm.entry_none hk hmem]
    rfl
  · rw [hhead m l (hm.ring hl), hl]
    simp

theorem listIsLast_refines (hl : C head = some l) (hmem : e ∈ head :: l) :
    Refines C (Lists.listIsLast (.node e) (.node head))
      (decide ((C head).map (·.getLastD head) = some e)) C [] := by
  refine .read fun m hm => ?_
  have hring := hm.ring hl
  have hiff : m.next e = .node head ↔ (C head).map (·.getLastD head) = some e := by
    rw [hring.next_eq_node_head_iff hmem, hl, Option.map_some, Option.some_inj]
  rw [← decide_eq_decide.mpr hiff]
  rfl

theorem listIsSingular_refines (hl : C head = some l) :
    Refines C (Lists.listIsSingular (.node head))
      (decide ((C head).map List.length = some 1)) C [] := by
  refine .read fun m hm => ?_
  rw [listIsSingular_run (hm.ring hl), hl]
  simp

end Functions

section Programs

variable {α : Type} [DecidableEq α] {C : Contents α} {args : List α}

def Call.nodes : Call α → List α
  | .initListHead x | .listDel x | .listDelInit x | .listRotateLeft x | .listEmpty x
  | .listEmptyCareful x | .listIsSingular x => [x]
  | .listAdd x y | .listAddTail x y | .listReplace x y | .listReplaceInit x y | .listMove x y
  | .listMoveTail x y | .listSplice x y | .listSpliceTail x y | .listSpliceInit x y
  | .listSpliceTailInit x y | .listIsLast x y => [x, y]
  | .listCutPosition x y z => [x, y, z]

omit [DecidableEq α] in
theorem Refines.silent {x : ListM α Unit} {C' : Contents α} (hx : Refines C x () C' args) :
    Refines C (silent x) none C' args := hx.seq .pure

omit [DecidableEq α] in
theorem Refines.answering {x : ListM α Bool} {b : Bool} (hx : Refines C x b C args) :
    Refines C (answering x) (some b) C args := hx.seq .pure

theorem Call.refines {c : Call α} (hok : c.Allowed C) :
    Refines C c.run (c.answer C) (c.after C) c.nodes := by
  cases c with
  | initListHead list => exact (initListHead_refines hok).silent
  | listAdd new head =>
    obtain ⟨hnew, hne, l, hl⟩ := hok
    rw [Call.after, Contents.modify_some ((Contents.forget_of_ne hne.symm).trans hl)]
    exact ((listAdd_refines hnew hne hl).mono (by simp [Call.nodes])).silent
  | listAddTail new head =>
    obtain ⟨hnew, hne, l, hl⟩ := hok
    rw [Call.after, Contents.modify_some ((Contents.forget_of_ne hne.symm).trans hl)]
    exact ((listAddTail_refines hnew hne hl).mono (by simp [Call.nodes])).silent
  | listDel entry => exact (listDel_refines hok).silent
  | listDelInit entry => exact (listDelInit_refines hok).silent
  | listReplace old new =>
    obtain ⟨hnew, hne, hold⟩ := hok
    exact ((listReplace_refines hnew hne hold).mono (by simp [Call.nodes])).silent
  | listReplaceInit old new =>
    obtain ⟨hnew, hne, hold⟩ := hok
    exact (listReplaceInit_refines hnew hne hold).silent
  | listMove list head =>
    obtain ⟨hlist, hne, l, hl⟩ := hok
    exact ((listMove_refines hlist hne hl).mono (by simp [Call.nodes])).silent
  | listMoveTail list head =>
    obtain ⟨hlist, hne, l, hl⟩ := hok
    exact ((listMoveTail_refines hlist hne hl).mono (by simp [Call.nodes])).silent
  | listRotateLeft head =>
    obtain ⟨l, hl⟩ := hok
    exact ((listRotateLeft_refines hl).mono (by simp)).silent
  | listCutPosition list head entry =>
    obtain ⟨hlist, hne, l, hl, he⟩ := hok
    exact ((listCutPosition_refines hlist hne hl he).mono (by simp [Call.nodes])).silent
  | listSplice list head =>
    obtain ⟨hne, ⟨u, hu⟩, l, hl⟩ := hok
    rw [Call.after, hu]
    exact ((listSplice_refines hu hl hne).mono (by simp)).silent
  | listSpliceTail list head =>
    obtain ⟨hne, ⟨u, hu⟩, l, hl⟩ := hok
    rw [Call.after, hu]
    exact ((listSpliceTail_refines hu hl hne).mono (by simp)).silent
  | listSpliceInit list head =>
    obtain ⟨hne, ⟨u, hu⟩, l, hl⟩ := hok
    rw [Call.after, hu]
    exact ((listSpliceInit_refines hu hl hne).mono (by simp [Call.nodes])).silent
  | listSpliceTailInit list head =>
    obtain ⟨hne, ⟨u, hu⟩, l, hl⟩ := hok
    rw [Call.after, hu]
    exact ((listSpliceTailInit_refines hu hl hne).mono (by simp [Call.nodes])).silent
  | listIsLast list head =>
    obtain ⟨l, hl, hmem⟩ := hok
    exact ((listIsLast_refines hl hmem).mono (by simp)).answering
  | listEmpty head =>
    exact ((empty_refines_of Lists.listEmpty (fun _ _ => listEmpty_head)
      (fun _ _ _ _ => listEmpty_entry) hok).mono (by simp)).answering
  | listEmptyCareful head =>
    exact ((empty_refines_of Lists.listEmptyCareful (fun _ _ => listEmptyCareful_head)
      (fun _ _ _ _ => listEmptyCareful_entry) hok).mono (by simp)).answering
  | listIsSingular head =>
    obtain ⟨l, hl⟩ := hok
    exact ((listIsSingular_refines hl).mono (by simp)).answering

theorem runCalls_refines {cs : List (Call α)} (hok : AllowedAll C cs) :
    Refines C (runCalls cs) (answers C cs) (afterAll C cs) (cs.flatMap Call.nodes) := by
  induction cs generalizing C with
  | nil => exact .pure
  | cons c cs ih =>
    have hcall := (Call.refines hok.1).mono (List.subset_append_left _ (cs.flatMap Call.nodes))
    have hrest := (ih hok.2).mono (List.subset_append_right c.nodes _)
    exact hcall.seq (hrest.seq .pure)

variable {m : Memory α} {cs : List (Call α)} {c : Call α} {e : α}

/-- In every program that keeps to the comments of the header no wild pointer is followed, the
plain lists give all the answers, and each of them can be read off its ring in both directions. -/
theorem runCalls_answers (hm : m.Holds C) (hok : AllowedAll C cs) :
    ∃ m', (runCalls cs).run m = .ok (answers C cs, m') ∧ m'.Holds (afterAll C cs) := by
  obtain ⟨m', hrun, hm', _⟩ := runCalls_refines hok m hm
  exact ⟨m', hrun, hm'⟩

def zeroed (α : Type) : Memory α := ⟨fun _ => .wild .null, fun _ => .wild .null⟩

theorem runCalls_answers_moved :
    ∃ m', (runCalls [.initListHead 0, .initListHead 1, .listAdd 2 0, .listAddTail 3 0,
        .listMove 2 1, .listSpliceTailInit 1 0, .listIsLast 2 0, .listEmpty 1]).run
        (zeroed (Fin 4)) = .ok ([none, none, none, none, none, none, some true, some true], m') ∧
      m'.Ring 0 [3, 2] := by
  have hok : AllowedAll (fun _ : Fin 4 => none) [.initListHead 0, .initListHead 1, .listAdd 2 0,
      .listAddTail 3 0, .listMove 2 1, .listSpliceTailInit 1 0, .listIsLast 2 0,
      .listEmpty 1] := by
    decide
  obtain ⟨m', hrun, hm'⟩ := runCalls_answers (m := zeroed (Fin 4)) .empty hok
  exact ⟨m', hrun, hm'.ring rfl⟩

/-- The node that the call takes from its list or replaces. -/
def Call.removed : Call α → Option α
  | .listDel e | .listDelInit e | .listReplace e _ | .listReplaceInit e _ | .listMove e _
  | .listMoveTail e _ => some e
  | _ => none

/-- The pointers that `list_del` leaves in an entry. -/
def Poisoned (m : Memory α) (e : α) : Prop :=
  m.next e = .wild .listPoison1 ∧ m.prev e = .wild .listPoison2

theorem listDel_poisons (hm : m.Holds C) (he : C.Entry e ∨ C e = some []) :
    ∃ m', (Lists.listDel (.node e)).run m = .ok ((), m') ∧ m'.Holds (C.detach e) ∧
      (C.detach e).Free e ∧ Poisoned m' e := by
  obtain ⟨m₁, hrun, hm₁, _⟩ := listDelEntry_refines he m hm
  have hfree : (C.detach e).Free e := hm.free_detach
  refine ⟨_, Exec.run_seq hrun rfl, hm₁.off (l := [e]) ?_ (by simpa using hfree), hfree, ?_⟩
  · exact (Links.Off.refl.setNext (by simp)).setPrev (by simp)
  · exact ⟨Links.setNext_next_self, Links.setPrev_prev_self⟩

theorem Call.removed_poisoned (hc : c.removed = some e) (he : Poisoned m e) :
    c.run.run m = .error (.fault .listPoison1) := by
  have hentry : (listDelEntry (.node e)).run m = .error (.fault .listPoison1) := by
    rw [listDelEntry]
    apply Exec.run_seq loadPrev_node
    apply Exec.run_seq loadNext_node
    rw [he.1]
    rfl
  have hreplace : ∀ x, (Lists.listReplace (.node e) (.node x)).run m =
      .error (.fault .listPoison1) := by
    intro x
    rw [Lists.listReplace]
    apply Exec.run_seq loadNext_node
    apply Exec.run_seq storeNext_node
    apply Exec.run_seq loadNext_node
    rw [Links.setNext_next_self, he.1]
    rfl
  cases c with
  | listDel x | listDelInit x | listMove x y | listMoveTail x y =>
    cases hc
    exact Exec.run_bind_error _ (Exec.run_bind_error _ hentry)
  | listReplace x y =>
    cases hc
    exact Exec.run_bind_error _ (hreplace y)
  | listReplaceInit x y =>
    cases hc
    exact Exec.run_bind_error _ (Exec.run_bind_error _ (hreplace y))
  | _ => cases hc

/-- An entry that `list_del` has removed is not removed again unnoticed, whatever is done to other
nodes in between. -/
theorem removed_twice (hm : m.Holds C) (he : C.Entry e ∨ C e = some [])
    (hok : AllowedAll (C.detach e) cs) (hcs : e ∉ cs.flatMap Call.nodes)
    (hc : c.removed = some e) :
    (runCalls [.listDel e] >>= fun _ => runCalls cs >>= fun _ => c.run).run m =
      .error (.fault .listPoison1) := by
  obtain ⟨m₁, hdel, hm₁, hfree, hpoison⟩ := listDel_poisons hm he
  obtain ⟨m₂, hrun, _, hkeep⟩ := runCalls_refines hok m₁ hm₁
  obtain ⟨_, hnext, hprev⟩ := hkeep e hfree hcs
  have hfirst : (runCalls [Call.listDel e]).run m = .ok ([none], m₁) :=
    Exec.run_seq (Exec.run_seq hdel rfl) rfl
  apply Exec.run_seq hfirst
  apply Exec.run_seq hrun
  exact Call.removed_poisoned hc ⟨hnext.trans hpoison.1, hprev.trans hpoison.2⟩

end Programs

theorem removed_twice_reinitialised :
    (runCalls [Call.listDel (0 : Fin 2)] >>= fun _ => runCalls [.initListHead 1] >>= fun _ =>
        (Call.listMove 0 1).run).run ((zeroed (Fin 2)).link 0 0) =
      .error (.fault .listPoison1) := by
  have hm : ((zeroed (Fin 2)).link 0 0).Holds (Contents.set (fun _ => none) 0 []) :=
    Links.Holds.empty.set Links.ring_init (Links.Off.refl.link (l := [0]) (by simp) (by simp))
      (by simp) (by decide)
  exact removed_twice hm (.inr rfl) (by decide) (by decide) rfl

end Lists

end TxDriver
