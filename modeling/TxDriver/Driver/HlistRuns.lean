import TxDriver.Driver.Hlists
import TxDriver.Driver.ListRuns

/-!
# Programs over hash lists

Any number of hash lists in one memory and any sequence of calls on them. What the calls mean is
said on plain lists, one for each head, and on what a node off every list says of itself.
-/

namespace TxDriver

namespace Hlists

/-- What a node that is on no list says of itself: that it is on none, that it is on one, or that
`hlist_del` has taken it from one. -/
inductive Detached where
  | unhashed
  | fake
  | poisoned
  deriving DecidableEq

def Detached.next {α : Type} : Detached → Ptr α
  | .unhashed | .fake => .wild .null
  | .poisoned => .wild .listPoison1

def Detached.pprev {η α : Type} (a : α) : Detached → SlotPtr η α
  | .unhashed => .wild .null
  | .fake => .node (.next a)
  | .poisoned => .wild .listPoison2

/-- The lists, and what is known of nodes that are on none. -/
structure Contents (η α : Type) where
  lists : Chained η α
  detached : α → Option Detached

inductive Call (η α : Type) where
  | initHlistHead (h : η)
  | initHlistNode (h : α)
  | hlistUnhashed (h : α)
  | hlistEmpty (h : η)
  | hlistDel (n : α)
  | hlistDelInit (n : α)
  | hlistAddHead (n : α) (h : η)
  | hlistAddBefore (n next : α)
  | hlistAddAfter (n next : α)
  | hlistAddFake (n : α)
  | hlistMoveList (old new : η)

section Calls

variable {η α : Type} [DecidableEq η] [DecidableEq α]

def answering (x : HlistM η α Bool) : HlistM η α Lists.Answer := do
  let b ← x
  pure (some b)

def silent (x : HlistM η α Unit) : HlistM η α Lists.Answer := do
  x
  pure none

def Call.run : Call η α → HlistM η α Lists.Answer
  | .initHlistHead h => silent (Hlists.initHlistHead h)
  | .initHlistNode h => silent (Hlists.initHlistNode (.node h))
  | .hlistUnhashed h => answering (Hlists.hlistUnhashed (.node h))
  | .hlistEmpty h => answering (Hlists.hlistEmpty h)
  | .hlistDel n => silent (Hlists.hlistDel (.node n))
  | .hlistDelInit n => silent (Hlists.hlistDelInit (.node n))
  | .hlistAddHead n h => silent (Hlists.hlistAddHead (.node n) h)
  | .hlistAddBefore n next => silent (Hlists.hlistAddBefore (.node n) (.node next))
  | .hlistAddAfter n next => silent (Hlists.hlistAddAfter (.node n) (.node next))
  | .hlistAddFake n => silent (Hlists.hlistAddFake (.node n))
  | .hlistMoveList old new => silent (Hlists.hlistMoveList old new)

def runCalls : List (Call η α) → HlistM η α (List Lists.Answer)
  | [] => pure []
  | c :: cs => do
    let a ← c.run
    let as ← runCalls cs
    pure (a :: as)

def insertBefore (n next : α) (l : List α) : List α :=
  l.flatMap fun a => if a = next then [n, a] else [a]

def insertAfter (n next : α) (l : List α) : List α :=
  l.flatMap fun a => if a = n then [a, next] else [a]

namespace Contents

def mark (C : Contents η α) (a : α) (d : Detached) : Contents η α :=
  { C with detached := Function.update C.detached a (some d) }

def forget (C : Contents η α) (a : α) : Contents η α :=
  { C with detached := Function.update C.detached a none }

def set (C : Contents η α) (h : η) (l : List α) : Contents η α :=
  { C with lists := C.lists.set h l }

def edit (C : Contents η α) (f : List α → List α) : Contents η α :=
  { C with lists := C.lists.edit f }

end Contents

def Call.after (C : Contents η α) : Call η α → Contents η α
  | .initHlistHead h => C.set h []
  | .initHlistNode h => C.mark h .unhashed
  | .hlistUnhashed _ | .hlistEmpty _ => C
  | .hlistDel n => (C.edit (·.erase n)).mark n .poisoned
  | .hlistDelInit n => (C.edit (·.erase n)).mark n .unhashed
  | .hlistAddHead n h => (C.forget n).set h (n :: (C.lists h).getD [])
  | .hlistAddBefore n next => (C.forget n).edit (insertBefore n next)
  | .hlistAddAfter n next => (C.forget next).edit (insertAfter n next)
  | .hlistAddFake n => C.mark n .fake
  | .hlistMoveList old new => (C.set new ((C.lists old).getD [])).set old []

def Call.answer (C : Contents η α) : Call η α → Lists.Answer
  | .hlistUnhashed h => some (C.detached h = some .unhashed)
  | .hlistEmpty h => some (C.lists h = some [])
  | _ => none

/-- What a caller has to see to. A head that is initialised or moved to may have had a list, which
is lost. A node is made to look like an entry only when it says that it is on no list: `hlist_del`
also follows its `next`. -/
def Call.Allowed (C : Contents η α) : Call η α → Prop
  | .initHlistHead _ => True
  | .initHlistNode h => ¬C.lists.On h
  | .hlistUnhashed h => C.lists.On h ∨ (C.detached h).isSome
  | .hlistEmpty h => C.lists.Head h
  | .hlistDel n => C.lists.On n ∨ C.detached n = some .fake
  | .hlistDelInit n =>
    C.lists.On n ∨ C.detached n = some .fake ∨ C.detached n = some .unhashed
  | .hlistAddHead n h => ¬C.lists.On n ∧ C.lists.Head h
  | .hlistAddBefore n next => ¬C.lists.On n ∧ C.lists.On next
  | .hlistAddAfter n next => C.lists.On n ∧ ¬C.lists.On next
  | .hlistAddFake n => C.detached n = some .unhashed ∨ C.detached n = some .fake
  | .hlistMoveList old new => old ≠ new ∧ C.lists.Head old

instance Call.decidableAllowed [Fintype η] (C : Contents η α) :
    (c : Call η α) → Decidable (c.Allowed C)
  | .initHlistHead _ => .isTrue trivial
  | .initHlistNode h => inferInstanceAs (Decidable (¬C.lists.On h))
  | .hlistUnhashed h => inferInstanceAs (Decidable (C.lists.On h ∨ (C.detached h).isSome = true))
  | .hlistEmpty h => inferInstanceAs (Decidable (C.lists.Head h))
  | .hlistDel n => inferInstanceAs (Decidable (C.lists.On n ∨ C.detached n = some .fake))
  | .hlistDelInit n => inferInstanceAs
      (Decidable (C.lists.On n ∨ C.detached n = some .fake ∨ C.detached n = some .unhashed))
  | .hlistAddHead n h => inferInstanceAs (Decidable (¬C.lists.On n ∧ C.lists.Head h))
  | .hlistAddBefore n next => inferInstanceAs (Decidable (¬C.lists.On n ∧ C.lists.On next))
  | .hlistAddAfter n next => inferInstanceAs (Decidable (C.lists.On n ∧ ¬C.lists.On next))
  | .hlistAddFake n =>
    inferInstanceAs (Decidable (C.detached n = some .unhashed ∨ C.detached n = some .fake))
  | .hlistMoveList old new => inferInstanceAs (Decidable (old ≠ new ∧ C.lists.Head old))

def answers (C : Contents η α) : List (Call η α) → List Lists.Answer
  | [] => []
  | c :: cs => c.answer C :: answers (c.after C) cs

def afterAll (C : Contents η α) : List (Call η α) → Contents η α
  | [] => C
  | c :: cs => afterAll (c.after C) cs

def AllowedAll (C : Contents η α) : List (Call η α) → Prop
  | [] => True
  | c :: cs => c.Allowed C ∧ AllowedAll (c.after C) cs

instance decidableAllowedAll [Fintype η] :
    (C : Contents η α) → (cs : List (Call η α)) → Decidable (AllowedAll C cs)
  | _, [] => .isTrue trivial
  | C, c :: cs =>
    have := decidableAllowedAll (c.after C) cs
    inferInstanceAs (Decidable (c.Allowed C ∧ AllowedAll (c.after C) cs))

end Calls

section Insertions

variable {α : Type} [DecidableEq α] {n e : α} {l r : List α}

omit [DecidableEq α] in
theorem flatMap_singleton_of_notMem {f : α → List α} (hf : ∀ a, a ≠ e → f a = [a]) (he : e ∉ l) :
    l.flatMap f = l := by
  induction l with
  | nil => rfl
  | cons a l ih =>
    rw [List.mem_cons, not_or] at he
    rw [List.flatMap_cons, hf a (Ne.symm he.1), ih he.2]
    rfl

theorem insertBefore_of_notMem (he : e ∉ l) : insertBefore n e l = l :=
  flatMap_singleton_of_notMem (fun _ ha => if_neg ha) he

theorem insertAfter_of_notMem (he : e ∉ l) : insertAfter e n l = l :=
  flatMap_singleton_of_notMem (fun _ ha => if_neg ha) he

theorem insertBefore_append (hl : e ∉ l) (hr : e ∉ r) :
    insertBefore n e (l ++ e :: r) = l ++ n :: e :: r := by
  have hfront := insertBefore_of_notMem (n := n) hl
  have hback := insertBefore_of_notMem (n := n) hr
  rw [insertBefore] at hfront hback ⊢
  rw [List.flatMap_append, List.flatMap_cons, hfront, hback, if_pos rfl]
  rfl

theorem insertAfter_append (hl : e ∉ l) (hr : e ∉ r) :
    insertAfter e n (l ++ e :: r) = l ++ e :: n :: r := by
  have hfront := insertAfter_of_notMem (n := n) hl
  have hback := insertAfter_of_notMem (n := n) hr
  rw [insertAfter] at hfront hback ⊢
  rw [List.flatMap_append, List.flatMap_cons, hfront, hback, if_pos rfl]
  rfl

end Insertions

structure Holds {η α : Type} (m : Memory η α) (C : Contents η α) : Prop where
  lists : m.Holds .null C.lists
  off : ∀ {a d}, C.detached a = some d → ¬C.lists.On a
  next : ∀ {a d}, C.detached a = some d → m.value (.next a) = d.next
  pprev : ∀ {a d}, C.detached a = some d → m.back a = d.pprev a

/-- From every memory with the contents `C`, `x` returns `b` and leaves the contents `C'`. -/
def Refines {η α β : Type} (C : Contents η α) (x : HlistM η α β) (b : β) (C' : Contents η α) :
    Prop :=
  ∀ m, Holds m C → ∃ m', x.run m = .ok (b, m') ∧ Holds m' C'

section Rules

variable {η α β γ : Type} {m m' : Memory η α} {C C' D : Contents η α} {x : HlistM η α β} {b : β}
  {c : γ} {h : η} {a e n : α} {d : Detached} {l r as : List α}

theorem Refines.seq {f : β → HlistM η α γ} (hx : Refines C x b C') (hf : Refines C' (f b) c D) :
    Refines C (x >>= f) c D := by
  intro m hm
  obtain ⟨m₁, hrun₁, hm₁⟩ := hx m hm
  obtain ⟨m₂, hrun₂, hm₂⟩ := hf m₁ hm₁
  exact ⟨m₂, Exec.run_seq hrun₁ hrun₂, hm₂⟩

theorem Refines.read (h : ∀ m, Holds m C → x.run m = .ok (b, m)) : Refines C x b C :=
  fun m hm => ⟨m, h m hm, hm⟩

theorem Refines.pure : Refines C (pure b : HlistM η α β) b C := .read fun _ _ => rfl

theorem Holds.next_null (hm : Holds m C) (he : C.detached e = some .fake) :
    m.value (.next e) = .firstOf .null [] := hm.next he

theorem Holds.detached_none (hm : Holds m C) (ha : C.lists.On a) : C.detached a = none := by
  rw [Option.eq_none_iff_forall_ne_some]
  exact fun d hd => hm.off hd ha

/-- An unhashed node is told from all others by its `pprev`. -/
theorem Holds.back_eq_null_iff (hm : Holds m C) (ha : C.lists.On a ∨ (C.detached a).isSome) :
    m.back a = .wild .null ↔ C.detached a = some .unhashed := by
  rcases ha with ⟨h, l, hl, hmem⟩ | ha
  · obtain ⟨u, r, rfl⟩ := List.append_of_mem hmem
    rw [(hm.lists.chain hl).back_entry, hm.detached_none ⟨h, _, hl, hmem⟩]
    simp
  · obtain ⟨d, hd⟩ := Option.isSome_iff_exists.mp ha
    rw [hm.pprev hd, hd]
    cases d <;> simp [Detached.pprev]

variable [DecidableEq α]

theorem Contents.mark_same (ha : C.detached a = some d) : C.mark a d = C := by
  refine congrArg (Contents.mk C.lists) ?_
  rw [← ha]
  exact Function.update_eq_self ..

theorem Contents.forget_detached_self : (C.forget a).detached a = none := Function.update_self ..

theorem Contents.mark_detached_self : (C.mark a d).detached a = some d := Function.update_self ..

theorem Contents.mark_detached_of_ne (hne : a ≠ e) : (C.mark e d).detached a = C.detached a :=
  Function.update_of_ne hne ..

theorem Contents.forget_detached_of_ne (hne : a ≠ e) :
    (C.forget e).detached a = C.detached a := Function.update_of_ne hne ..

theorem Contents.of_forget (ha : (C.forget e).detached a = some d) : C.detached a = some d := by
  by_cases hae : a = e
  · rw [hae, forget_detached_self] at ha
    cases ha
  · rwa [forget_detached_of_ne hae] at ha

theorem Holds.forget (hm : Holds m C) (a : α) : Holds m (C.forget a) where
  lists := hm.lists
  off hd := hm.off (Contents.of_forget hd)
  next hd := hm.next (Contents.of_forget hd)
  pprev hd := hm.pprev (Contents.of_forget hd)

theorem Holds.mark (hm : Holds m C) (he : ¬C.lists.On e) (hoff : m.Off m' [] [e])
    (hnext : m'.value (.next e) = d.next) (hpprev : m'.back e = d.pprev e) :
    Holds m' (C.mark e d) where
  lists := hm.lists.off hoff (by simpa using he)
  off {a d'} ha := by
    by_cases hae : a = e
    · exact hae ▸ he
    · rw [Contents.mark_detached_of_ne hae] at ha
      exact hm.off ha
  next {a d'} ha := by
    by_cases hae : a = e
    · rw [hae, Contents.mark_detached_self] at ha
      cases ha
      exact hae ▸ hnext
    · rw [Contents.mark_detached_of_ne hae] at ha
      rw [hoff.value (.next a) (mt List.mem_singleton.mp hae), hm.next ha]
  pprev {a d'} ha := by
    by_cases hae : a = e
    · rw [hae, Contents.mark_detached_self] at ha
      cases ha
      exact hae ▸ hpprev
    · rw [Contents.mark_detached_of_ne hae] at ha
      rw [hoff.back a (mt List.mem_singleton.mp hae), hm.pprev ha]

omit [DecidableEq α] in
variable [DecidableEq η] in
/-- One list is changed, with nodes that are on no other list and of which nothing is said. -/
theorem Holds.set (hm : Holds m C) (hc : m'.Chain .null (.first h) l) (hn : l.Nodup)
    (hoff : m.Off m' [h] as) (hsub : l ⊆ as) (hown : ∀ a ∈ as, C.lists.Private h a)
    (hsilent : ∀ a ∈ as, C.detached a = none) : Holds m' (C.set h l) := by
  have hout {a : α} {d : Detached} (ha : C.detached a = some d) : a ∉ as := by
    intro hmem
    rw [hsilent a hmem] at ha
    cases ha
  refine ⟨hm.lists.set hc hn hoff hsub hown, ?_, ?_, ?_⟩
  · intro a d ha ⟨k, u, hk, hmem⟩
    rcases Chained.set_eq_some.mp hk with ⟨rfl, rfl⟩ | ⟨_, hk⟩
    · exact hout ha (hsub hmem)
    · exact hm.off ha ⟨k, u, hk, hmem⟩
  · intro a d ha
    rw [hoff.value (.next a) (hout ha), hm.next ha]
  · intro a d ha
    rw [hoff.back a (hout ha), hm.pprev ha]

end Rules

section Functions

variable {η α : Type} [DecidableEq η] [DecidableEq α] {m m' : Memory η α} {C : Contents η α}
  {h old new : η} {e n : α} {d : Detached} {l r : List α}

theorem initHlistHead_refines : Refines C (Hlists.initHlistHead h) () (C.set h []) := by
  intro m hm
  have hoff : m.Off (m.setValue (.first h) (.wild .null)) [h] [] :=
    Slots.Off.refl.setValue (List.mem_singleton_self h)
  exact ⟨_, initHlistHead_run, hm.set Slots.setValue_value_self .nil hoff (by simp) (by simp)
    (by simp)⟩

theorem Refines.mark {x : HlistM η α Unit} (he : ¬C.lists.On e)
    (hx : ∀ m : Memory η α, x.run m =
      .ok ((), (m.setValue (.next e) d.next).setBack e (d.pprev e))) :
    Refines C x () (C.mark e d) := by
  intro m hm
  have hin : (Slot.next (η := η) e).Among [] [e] := List.mem_singleton_self e
  refine ⟨_, hx m, hm.mark he ?_ ?_ Slots.setBack_back_self⟩
  · exact (Slots.Off.refl.setValue hin).setBack (List.mem_singleton_self e)
  · rw [Slots.setBack_value, Slots.setValue_value_self]

theorem initHlistNode_refines (he : ¬C.lists.On e) :
    Refines C (Hlists.initHlistNode (.node e)) () (C.mark e .unhashed) :=
  .mark he fun _ => initHlistNode_run

theorem Holds.insert (hm : Holds m C) (hn : ¬C.lists.On n) (hl : C.lists h = some (l ++ r)) :
    Holds ((m.connect (.next n) (.firstOf .null r)).connect ((Slot.first h).last l) (.node n))
      ((C.forget n).set h (l ++ n :: r)) := by
  have hnodup : (l ++ n :: r).Nodup := by
    have hold := hm.lists.nodup hl
    have hout : n ∉ l ++ r := fun hmem => hn ⟨h, _, hl, hmem⟩
    grind
  have hchain := hm.lists.chain hl
  refine (hm.forget n).set (hchain.insert (Slot.nodup_first hnodup)) hnodup ?_
    (List.Subset.refl _) ?_ ?_
  · refine (Slots.Off.refl.connect ?_ fun a ha => ?_).connect Slot.last_among fun a ha => ?_
    · exact List.mem_append_right l List.mem_cons_self
    · exact List.mem_append_right l (List.mem_cons_of_mem n (Slots.mem_of_firstOf ha))
    · exact List.mem_append_right l (Pointer.node.inj ha ▸ List.mem_cons_self)
  · intro a ha
    by_cases han : a = n
    · exact han ▸ Chained.private_of_not_on hn h
    · exact hm.lists.apart hl (by simpa [han] using ha)
  · intro a ha
    by_cases han : a = n
    · exact han ▸ Contents.forget_detached_self
    · have hon : C.lists.On a := ⟨h, _, hl, by simpa [han] using ha⟩
      rw [Contents.forget_detached_of_ne han, hm.detached_none hon]

theorem Holds.remove (hm : Holds m C) (hl : C.lists h = some (l ++ e :: r)) :
    Holds (m.connect ((Slot.first h).last l) (.firstOf .null r)) (C.set h (l ++ r)) := by
  have hnodup := hm.lists.nodup hl
  have hsub : l ++ r ⊆ l ++ e :: r := by simp
  refine hm.set ((hm.lists.chain hl).remove (Slot.nodup_first hnodup)) (hnodup.sublist (by simp))
    (Slots.Off.refl.connect Slot.last_among fun a ha => ?_) hsub ?_ ?_
  · exact List.mem_append_right l (List.mem_cons_of_mem e (Slots.mem_of_firstOf ha))
  · exact fun a ha => hm.lists.apart hl ha
  · exact fun a ha => hm.detached_none ⟨h, _, hl, ha⟩

theorem Holds.edit_erase (hm : Holds m C) (hl : C.lists h = some (l ++ e :: r)) :
    C.edit (·.erase e) = C.set h (l ++ r) := by
  have he : e ∉ l := by
    have hn := hm.lists.nodup hl
    grind
  refine congrArg (Contents.mk · C.detached)
    (hm.lists.edit_eq_set hl (fun u hu => List.erase_of_not_mem hu) ?_)
  rw [List.erase_append_right _ he, List.erase_cons_head]

omit [DecidableEq η] in
theorem Holds.not_on_erase (hm : Holds m C) : ¬(C.edit (·.erase e)).lists.On e := by
  intro ⟨k, l, hk, hmem⟩
  obtain ⟨u, hu, rfl⟩ := Option.map_eq_some_iff.mp hk
  exact ((hm.lists.nodup hu).mem_erase_iff.mp hmem).1 rfl

omit [DecidableEq η] in
theorem edit_erase_of_not_on (he : ¬C.lists.On e) : C.edit (·.erase e) = C := by
  refine congrArg (Contents.mk · C.detached) (funext fun k => ?_)
  cases hk : C.lists k with
  | none => exact congrArg (Option.map _) hk
  | some u =>
    rw [Chained.edit, hk, Option.map_some, List.erase_of_not_mem fun hm => he ⟨k, u, hk, hm⟩]

theorem hlistDelNode_refines (he : C.lists.On e ∨ C.detached e = some .fake) :
    Refines C (hlistDelNode (.node e)) () (C.edit (·.erase e)) := by
  intro m hm
  rcases he with ⟨h, u, hl, hmem⟩ | he
  · obtain ⟨l, r, rfl⟩ := List.append_of_mem hmem
    have hchain := hm.lists.chain hl
    rw [hm.edit_erase hl]
    exact ⟨_, hlistDelNode_run hchain.back_entry hchain.value_next, hm.remove hl⟩
  · rw [edit_erase_of_not_on (hm.off he)]
    have hoff : m.Off (m.connect (.next e) (.firstOf .null [])) [] [e] :=
      Slots.Off.refl.setValue (List.mem_singleton_self e)
    have hmark := hm.mark (hm.off he) hoff (Slots.connect_value_self) (hm.pprev he)
    rw [Contents.mark_same he] at hmark
    exact ⟨_, hlistDelNode_run (hm.pprev he) (hm.next_null he), hmark⟩

theorem Refines.after_del {f : Unit → HlistM η α Unit}
    (he : C.lists.On e ∨ C.detached e = some .fake)
    (hf : ∀ m : Memory η α, (f ()).run m =
      .ok ((), (m.setValue (.next e) d.next).setBack e (d.pprev e))) :
    Refines C (hlistDelNode (.node e) >>= f) () ((C.edit (·.erase e)).mark e d) := by
  intro m hm
  exact (hlistDelNode_refines he).seq (.mark hm.not_on_erase hf) m hm

theorem hlistDel_refines (he : C.lists.On e ∨ C.detached e = some .fake) :
    Refines C (Hlists.hlistDel (.node e)) () ((C.edit (·.erase e)).mark e .poisoned) :=
  .after_del he fun _ => rfl

theorem hlistUnhashed_refines (he : C.lists.On e ∨ (C.detached e).isSome) :
    Refines C (Hlists.hlistUnhashed (.node e)) (decide (C.detached e = some .unhashed)) C := by
  refine .read fun m hm => ?_
  rw [hlistUnhashed_run, decide_eq_decide.mpr (hm.back_eq_null_iff he)]

theorem hlistDelInit_refines
    (he : C.lists.On e ∨ C.detached e = some .fake ∨ C.detached e = some .unhashed) :
    Refines C (Hlists.hlistDelInit (.node e)) () ((C.edit (·.erase e)).mark e .unhashed) := by
  intro m hm
  have hknown : C.lists.On e ∨ (C.detached e).isSome := by
    rcases he with hon | he | he
    · exact Or.inl hon
    · exact Or.inr (by simp [he])
    · exact Or.inr (by simp [he])
  refine Refines.seq (hlistUnhashed_refines hknown) ?_ m hm
  by_cases hun : C.detached e = some .unhashed
  · rw [decide_eq_true hun, if_pos rfl, edit_erase_of_not_on (hm.off hun), Contents.mark_same hun]
    exact .pure
  · rw [decide_eq_false hun, if_neg Bool.false_ne_true]
    refine .after_del ?_ fun _ => initHlistNode_run
    rcases he with hon | he | he
    · exact Or.inl hon
    · exact Or.inr he
    · exact absurd he hun

theorem hlistAddHead_refines (hn : ¬C.lists.On n) (hl : C.lists h = some l) :
    Refines C (Hlists.hlistAddHead (.node n) h) () ((C.forget n).set h (n :: l)) := by
  intro m hm
  have hfirst := Slots.Chain.value_last (l := []) (hm.lists.chain hl)
  exact ⟨_, hlistAddHead_run hfirst, hm.insert (l := []) hn hl⟩

theorem hlistAddBefore_refines (hn : ¬C.lists.On n) (he : C.lists.On e) :
    Refines C (Hlists.hlistAddBefore (.node n) (.node e)) ()
      ((C.forget n).edit (insertBefore n e)) := by
  intro m hm
  have hne : n ≠ e := fun h => hn (h ▸ he)
  obtain ⟨h, u, hl, hmem⟩ := he
  obtain ⟨l, r, rfl⟩ := List.append_of_mem hmem
  have hnodup := hm.lists.nodup hl
  have hedit : (C.forget n).edit (insertBefore n e) = (C.forget n).set h (l ++ n :: e :: r) := by
    refine congrArg (Contents.mk · (C.forget n).detached)
      (hm.lists.edit_eq_set hl (fun _ => insertBefore_of_notMem) ?_)
    exact insertBefore_append (by grind) (by grind)
  rw [hedit]
  exact ⟨_, hlistAddBefore_run (hm.lists.chain hl).back_entry hne, hm.insert hn hl⟩

theorem hlistAddAfter_refines (he : C.lists.On e) (hn : ¬C.lists.On n) :
    Refines C (Hlists.hlistAddAfter (.node e) (.node n)) ()
      ((C.forget n).edit (insertAfter e n)) := by
  intro m hm
  have hne : n ≠ e := fun h => hn (h ▸ he)
  obtain ⟨h, u, hl, hmem⟩ := he
  obtain ⟨l, r, rfl⟩ := List.append_of_mem hmem
  have hnodup := hm.lists.nodup hl
  have hedit : (C.forget n).edit (insertAfter e n) = (C.forget n).set h (l ++ e :: n :: r) := by
    refine congrArg (Contents.mk · (C.forget n).detached)
      (hm.lists.edit_eq_set hl (fun _ => insertAfter_of_notMem) ?_)
    exact insertAfter_append (by grind) (by grind)
  have hout : n ∉ r := fun hr => hn ⟨h, _, hl, by simp [hr]⟩
  have hrun := hlistAddAfter_run (hm.lists.chain hl).value_next hne hout
  rw [List.append_cons] at hl
  have hins := hm.insert hn hl
  rw [Slot.last_concat, ← List.append_cons] at hins
  rw [hedit]
  exact ⟨_, hrun, hins⟩

omit [DecidableEq η] in
theorem hlistAddFake_refines
    (he : C.detached e = some .unhashed ∨ C.detached e = some .fake) :
    Refines C (Hlists.hlistAddFake (.node e)) () (C.mark e .fake) := by
  intro m hm
  have hoff : m.Off (m.setBack e (.node (.next e))) [] [e] :=
    Slots.Off.refl.setBack (List.mem_singleton_self e)
  have hnext : m.value (.next e) = .wild .null := he.elim (hm.next ·) (hm.next ·)
  have hout : ¬C.lists.On e := he.elim (hm.off ·) (hm.off ·)
  exact ⟨_, rfl, hm.mark hout hoff hnext Slots.setBack_back_self⟩

omit [DecidableEq α] in
theorem Contents.set_comm (hne : old ≠ new) :
    (C.set new r).set old l = (C.set old l).set new r :=
  congrArg (Contents.mk · C.detached) (Function.update_comm hne.symm ..)

omit [DecidableEq α] in
theorem Contents.set_set : (C.set h r).set h l = C.set h l :=
  congrArg (Contents.mk · C.detached) Chained.set_set

omit [DecidableEq α] in
theorem Contents.set_same (hl : C.lists h = some l) : C.set h l = C :=
  congrArg (Contents.mk · C.detached) (Chained.set_same hl)

theorem hlistMoveList_refines (hne : old ≠ new) (hl : C.lists old = some l) :
    Refines C (Hlists.hlistMoveList old new) () ((C.set new l).set old []) := by
  intro m hm
  have hchain := hm.lists.chain hl
  have hempty : m.Off (m.setValue (.first old) (.wild .null)) [old] [] :=
    Slots.Off.refl.setValue (List.mem_singleton_self old)
  have hold : Holds (m.setValue (.first old) (.wild .null)) (C.set old []) :=
    hm.set Slots.setValue_value_self .nil hempty (by simp) (by simp) (by simp)
  have hmoved := Slots.Chain.join (s := .first new) (l := []) trivial
    ((Slots.Chain.tail (l := []) hchain).off hempty (by simp))
    (Slot.nodup_first (hm.lists.nodup hl))
  have hnew := hold.set hmoved (hm.lists.nodup hl)
    (Slots.Off.refl.connect (List.mem_singleton_self new) fun _ => Slots.mem_of_firstOf)
    (List.Subset.refl l) ?_ ?_
  · have hslot : Slot.first (α := α) new ≠ .first old := fun h => hne (Slot.first.inj h).symm
    have hrun := hlistMoveList_run new (Slots.Chain.value_last (l := []) hchain)
    rw [Slots.setValue_connect hslot] at hrun
    rw [Contents.set_comm hne]
    exact ⟨_, hrun, hnew⟩
  · intro a ha k u _ hk
    rcases Chained.set_eq_some.mp hk with ⟨rfl, rfl⟩ | ⟨hko, hk⟩
    · exact List.not_mem_nil
    · exact hm.lists.apart hl ha k u hko hk
  · exact fun a ha => hm.detached_none ⟨old, l, hl, ha⟩

end Functions

section Programs

variable {η α : Type} [DecidableEq η] [DecidableEq α] {m : Memory η α} {C : Contents η α}
  {c : Call η α} {cs : List (Call η α)} {e : α}

omit [DecidableEq η] [DecidableEq α] in
theorem Refines.silent {x : HlistM η α Unit} {C' : Contents η α} (hx : Refines C x () C') :
    Refines C (silent x) none C' := hx.seq .pure

omit [DecidableEq η] [DecidableEq α] in
theorem Refines.answering {x : HlistM η α Bool} {b : Bool} (hx : Refines C x b C) :
    Refines C (answering x) (some b) C := hx.seq .pure

theorem Call.refines (hok : c.Allowed C) : Refines C c.run (c.answer C) (c.after C) := by
  cases c with
  | initHlistHead h => exact initHlistHead_refines.silent
  | initHlistNode h => exact (initHlistNode_refines hok).silent
  | hlistUnhashed h => exact (hlistUnhashed_refines hok).answering
  | hlistEmpty h =>
    obtain ⟨l, hl⟩ := hok
    have hempty : Refines C (Hlists.hlistEmpty h) (decide (C.lists h = some [])) C := by
      refine .read fun m hm => ?_
      have hfirst := Slots.Chain.value_last (l := []) (hm.lists.chain hl)
      rw [hlistEmpty_run hfirst, hl]
      simp
    exact hempty.answering
  | hlistDel n => exact (hlistDel_refines hok).silent
  | hlistDelInit n => exact (hlistDelInit_refines hok).silent
  | hlistAddHead n h =>
    obtain ⟨hn, l, hl⟩ := hok
    rw [Call.after, hl]
    exact (hlistAddHead_refines hn hl).silent
  | hlistAddBefore n next => exact (hlistAddBefore_refines hok.1 hok.2).silent
  | hlistAddAfter n next => exact (hlistAddAfter_refines hok.1 hok.2).silent
  | hlistAddFake n => exact (hlistAddFake_refines hok).silent
  | hlistMoveList old new =>
    obtain ⟨hne, l, hl⟩ := hok
    rw [Call.after, hl]
    exact (hlistMoveList_refines hne hl).silent

theorem runCalls_refines (hok : AllowedAll C cs) :
    Refines C (runCalls cs) (answers C cs) (afterAll C cs) := by
  induction cs generalizing C with
  | nil => exact .pure
  | cons c cs ih => exact (Call.refines hok.1).seq ((ih hok.2).seq .pure)

/-- In every program that keeps to what is allowed no wild pointer is followed, the plain lists give
all the answers, and the memory contains them in the end. -/
theorem hlistCalls_answers (hm : Holds m C) (hok : AllowedAll C cs) :
    ∃ m', (runCalls cs).run m = .ok (answers C cs, m') ∧ Holds m' (afterAll C cs) :=
  runCalls_refines hok m hm

def zeroed (η α : Type) : Memory η α := ⟨fun _ => .wild .null, fun _ => .wild .null⟩

def unused (η α : Type) : Contents η α := ⟨fun _ => none, fun _ => none⟩

omit [DecidableEq η] [DecidableEq α] in
theorem holds_unused : Holds m (unused η α) := ⟨.empty, nofun, nofun, nofun⟩

theorem hlistCalls_answers_moved :
    ∃ m', (runCalls [.initHlistHead 0, .hlistAddHead 1 0, .hlistAddBefore 0 1,
        .hlistAddAfter 1 2, .hlistDelInit 1, .hlistMoveList 0 1, .hlistUnhashed 1,
        .hlistEmpty 0]).run (zeroed (Fin 2) (Fin 3)) =
          .ok ([none, none, none, none, none, none, some true, some true], m') ∧
      m'.Chain .null (.first 1) [0, 2] := by
  have hok : AllowedAll (unused (Fin 2) (Fin 3)) [.initHlistHead 0, .hlistAddHead 1 0,
      .hlistAddBefore 0 1, .hlistAddAfter 1 2, .hlistDelInit 1, .hlistMoveList 0 1,
      .hlistUnhashed 1, .hlistEmpty 0] := by
    decide
  obtain ⟨m', hrun, hm'⟩ := hlistCalls_answers (m := zeroed (Fin 2) (Fin 3)) holds_unused hok
  exact ⟨m', hrun, hm'.lists.chain rfl⟩

def Call.nodes : Call η α → List α
  | .initHlistHead _ | .hlistEmpty _ | .hlistMoveList .. => []
  | .initHlistNode n | .hlistUnhashed n | .hlistDel n | .hlistDelInit n | .hlistAddHead n _
  | .hlistAddFake n => [n]
  | .hlistAddBefore x y | .hlistAddAfter x y => [x, y]

/-- What a node says of itself is changed only by calls that are given it. -/
theorem Call.after_detached (he : e ∉ c.nodes) : (c.after C).detached e = C.detached e := by
  cases c with
  | initHlistHead h | hlistEmpty h | hlistUnhashed n | hlistMoveList h k => rfl
  | initHlistNode n | hlistDel n | hlistDelInit n | hlistAddFake n =>
    exact Contents.mark_detached_of_ne (mt List.mem_singleton.mpr he)
  | hlistAddHead n h => exact Contents.forget_detached_of_ne (mt List.mem_singleton.mpr he)
  | hlistAddBefore n x =>
    exact Contents.forget_detached_of_ne fun h => he (h ▸ List.mem_cons_self)
  | hlistAddAfter x n =>
    exact Contents.forget_detached_of_ne fun h => he (h ▸ List.mem_cons_of_mem x List.mem_cons_self)

theorem afterAll_detached (he : e ∉ cs.flatMap Call.nodes) :
    (afterAll C cs).detached e = C.detached e := by
  induction cs generalizing C with
  | nil => rfl
  | cons c cs ih =>
    rw [List.flatMap_cons, List.mem_append, not_or] at he
    exact (ih he.2).trans (Call.after_detached he.1)

theorem hlistDelNode_faults {w : WildPointer} (hback : m.back e = .wild w) :
    (hlistDelNode (.node e)).run m = .error (.fault w) := by
  rw [hlistDelNode]
  apply Exec.run_seq loadNext_node
  apply Exec.run_seq loadPprev_node
  rw [hback]
  rfl

theorem hlistDel_faults {w : WildPointer} (hback : m.back e = .wild w) :
    (Hlists.hlistDel (.node e)).run m = .error (.fault w) :=
  Exec.run_bind_error _ (hlistDelNode_faults hback)

theorem hlistUnhashed_eq (hback : m.back e ≠ .wild .null) :
    (Hlists.hlistUnhashed (.node e)).run m = .ok (false, m) := by
  rw [hlistUnhashed_run, decide_eq_false hback]

theorem hlistDelInit_faults (hback : m.back e = .wild .listPoison2) :
    (Hlists.hlistDelInit (.node e)).run m = .error (.fault .listPoison2) := by
  rw [Hlists.hlistDelInit]
  apply Exec.run_seq (hlistUnhashed_eq (by simp [hback]))
  exact Exec.run_bind_error _ (hlistDelNode_faults hback)

theorem hlistDelInit_unhashed (hback : m.back e = .wild .null) :
    (Hlists.hlistDelInit (.node e)).run m = .ok ((), m) := by
  rw [Hlists.hlistDelInit]
  apply Exec.run_seq hlistUnhashed_run
  rw [decide_eq_true hback]
  rfl

/-- A poisoned node that is made to look like an entry is taken for one with a next entry. -/
theorem hlistAddFake_poisoned (hnext : m.value (.next e) = .wild .listPoison1) :
    (Hlists.hlistAddFake (.node e) >>= fun _ => Hlists.hlistDel (.node e)).run m =
      .error (.fault .listPoison1) := by
  have hfake : (Hlists.hlistAddFake (.node e)).run m =
      .ok ((), m.setBack e (.node (.next e))) := rfl
  apply Exec.run_seq hfake
  have hnode : (hlistDelNode (.node e)).run (m.setBack e (.node (.next e))) =
      .error (.fault .listPoison1) := by
    rw [hlistDelNode]
    apply Exec.run_seq loadNext_node
    apply Exec.run_seq loadPprev_node
    rw [Slots.setBack_back_self, Slots.setBack_value, hnext]
    rfl
  exact Exec.run_bind_error _ hnode

/-- Whatever is done to other nodes in between, an entry that `hlist_del` has taken out is not taken
out again unnoticed, not even when it has been made to look like an entry; one that `hlist_del_init`
has taken out can be taken out again the same way only, which does nothing. -/
theorem removed_again (hm : Holds m C) (hcs : e ∉ cs.flatMap Call.nodes) :
    (AllowedAll C (.hlistDel e :: cs) →
      ∃ as m', (runCalls (.hlistDel e :: cs)).run m = .ok (as, m') ∧
        (Hlists.hlistDel (.node e)).run m' = .error (.fault .listPoison2) ∧
        (Hlists.hlistDelInit (.node e)).run m' = .error (.fault .listPoison2) ∧
        (Hlists.hlistAddFake (.node e) >>= fun _ => Hlists.hlistDel (.node e)).run m' =
          .error (.fault .listPoison1)) ∧
    (AllowedAll C (.hlistDelInit e :: cs) →
      ∃ as m', (runCalls (.hlistDelInit e :: cs)).run m = .ok (as, m') ∧
        (Hlists.hlistDel (.node e)).run m' = .error (.fault .null) ∧
        (Hlists.hlistDelInit (.node e)).run m' = .ok ((), m')) := by
  refine ⟨?_, ?_⟩
  · intro hok
    obtain ⟨m', hrun, hm'⟩ := runCalls_refines hok m hm
    have hpoisoned : (afterAll C (.hlistDel e :: cs)).detached e = some .poisoned :=
      (afterAll_detached hcs).trans Contents.mark_detached_self
    have hback := hm'.pprev hpoisoned
    exact ⟨_, m', hrun, hlistDel_faults hback, hlistDelInit_faults hback,
      hlistAddFake_poisoned (hm'.next hpoisoned)⟩
  · intro hok
    obtain ⟨m', hrun, hm'⟩ := runCalls_refines hok m hm
    have hunhashed : (afterAll C (.hlistDelInit e :: cs)).detached e = some .unhashed :=
      (afterAll_detached hcs).trans Contents.mark_detached_self
    have hback := hm'.pprev hunhashed
    exact ⟨_, m', hrun, hlistDel_faults hback, hlistDelInit_unhashed hback⟩

end Programs

theorem removed_again_initialised :
    ∃ as m', (runCalls [Call.hlistDel (0 : Fin 2), .initHlistHead (0 : Fin 2),
        .hlistAddHead 1 0]).run ((zeroed (Fin 2) (Fin 2)).setBack 0 (.node (.next 0))) =
          .ok (as, m') ∧
      (Hlists.hlistDel (.node 0)).run m' = .error (.fault .listPoison2) := by
  have hm : Holds ((zeroed (Fin 2) (Fin 2)).setBack 0 (.node (.next 0)))
      ((unused (Fin 2) (Fin 2)).mark 0 .fake) :=
    holds_unused.mark (by decide) (Slots.Off.refl.setBack (List.mem_singleton_self 0)) rfl
      Slots.setBack_back_self
  have hcs : (0 : Fin 2) ∉
      [Call.initHlistHead (0 : Fin 2), .hlistAddHead 1 0].flatMap Call.nodes := by
    decide
  obtain ⟨as, m', hrun, hdel, _⟩ := (removed_again hm hcs).1 (by decide)
  exact ⟨as, m', hrun, hdel⟩

end Hlists

end TxDriver
