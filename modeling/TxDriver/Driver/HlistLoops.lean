import TxDriver.Driver.HlistRuns
import TxDriver.Driver.ListLoops

/-!
# Loops over hash lists

The iteration macros for hash lists, over any body. They end at a null pointer, so a plain loop
whose body takes its entry out ends there too when the entry has been initialised again.
-/

namespace TxDriver

namespace Hlists

section Loops

variable {η α β : Type} [DecidableEq η] [DecidableEq α]

/-- The plain loops. Those over entries have a `prefetch`; an entry stands for what it is embedded
in. The results of the body are returned in the order of the visits. -/
def forEachFrom (prefetch : Ptr α → HlistM η α Unit) (body : Ptr α → HlistM η α β) :
    Nat → Ptr α → HlistM η α (List β)
  | 0, _ => Exec.stop .hang
  | fuel + 1, pos => do
    if pos = .wild .null then pure []
    else do
      prefetch pos
      let b ← body pos
      let next ← loadNext pos
      let bs ← forEachFrom prefetch body fuel next
      pure (b :: bs)

def noPrefetch (_pos : Ptr α) : HlistM η α Unit := pure ()

def prefetchNext (pos : Ptr α) : HlistM η α Unit := do
  let _prefetch ← loadNext pos
  pure ()

def hlistForEach (body : Ptr α → HlistM η α β) (head : η) (fuel : Nat) : HlistM η α (List β) := do
  let pos ← loadSlot (addrFirst head)
  forEachFrom noPrefetch body fuel pos

def hlistForEachEntry (body : Ptr α → HlistM η α β) (head : η) (fuel : Nat) :
    HlistM η α (List β) := do
  let pos ← loadSlot (addrFirst head)
  forEachFrom prefetchNext body fuel pos

def forEachSafeFrom (body : Ptr α → HlistM η α β) : Nat → Ptr α → HlistM η α (List β)
  | 0, _ => Exec.stop .hang
  | fuel + 1, pos => do
    if pos = .wild .null then pure []
    else do
      let n ← loadNext pos
      let b ← body pos
      let bs ← forEachSafeFrom body fuel n
      pure (b :: bs)

/-- `hlist_for_each_safe` and `hlist_for_each_entry_safe`. -/
def hlistForEachSafe (body : Ptr α → HlistM η α β) (head : η) (fuel : Nat) :
    HlistM η α (List β) := do
  let pos ← loadSlot (addrFirst head)
  forEachSafeFrom body fuel pos

end Loops

section Visits

variable {η α : Type} [DecidableEq η] [DecidableEq α] {m : Memory η α} {C : Contents η α} {h : η}
  {a e : α} {l r : List α} {fuel : Nat} {cs : List (Call η α)}

def visit (pos : Ptr α) : HlistM η α (Ptr α) := pure pos

def twoLists : List (Call (Fin 3) (Fin 3)) :=
  [.initHlistHead 0, .initHlistHead 1, .hlistAddHead 1 0, .hlistAddHead 0 0, .hlistAddHead 2 1]

theorem twoLists_allowed : AllowedAll (unused _ _) twoLists := by decide

end Visits

section Rules

variable {η α β : Type} [DecidableEq α] {body : Ptr α → HlistM η α β} {b : α → β}
  {D : List α → Contents η α} {l : List α} {fuel : Nat}

/-- A safe loop over `l`, where `D rest` are the contents when `rest` is still to be visited. The
body may do what it likes with the entry. -/
theorem forEachSafeFrom_refines
    (hload : ∀ e rest, e :: rest <:+ l →
      Refines (D (e :: rest)) (loadNext (.node e)) (.firstOf .null rest) (D (e :: rest)))
    (hbody : ∀ e rest, e :: rest <:+ l →
      Refines (D (e :: rest)) (body (.node e)) (b e) (D rest))
    (hfuel : l.length < fuel) :
    Refines (D l) (forEachSafeFrom body fuel (.firstOf .null l)) (l.map b) (D []) := by
  induction l generalizing fuel with
  | nil =>
    match fuel, hfuel with
    | fuel + 1, _ => exact .pure
  | cons e l ih =>
    match fuel, hfuel with
    | fuel + 1, hfuel =>
      have hrest := ih (fun e' r h => hload e' r (h.trans (List.suffix_cons e l)))
        (fun e' r h => hbody e' r (h.trans (List.suffix_cons e l))) (Nat.lt_of_succ_lt_succ hfuel)
      rw [forEachSafeFrom, if_neg (by simp [Pointer.firstOf])]
      refine (hload e l List.suffix_rfl).seq ?_
      exact (hbody e l List.suffix_rfl).seq (hrest.seq .pure)

omit [DecidableEq α] in
theorem loadFirst_refines {C : Contents η α} {h : η} (hl : C.lists h = some l) :
    Refines C (loadSlot (addrFirst h)) (.firstOf .null l) C := by
  refine .read fun m hm => ?_
  have hfirst := Slots.Chain.value_last (l := []) (hm.lists.chain hl)
  rw [Slot.last_nil] at hfirst
  rw [addrFirst, loadSlot_node, hfirst]

omit [DecidableEq α] in
theorem loadNext_refines {C : Contents η α} {h : η} {e : α} {r : List α}
    (hl : C.lists h = some (l ++ e :: r)) :
    Refines C (loadNext (.node e)) (.firstOf .null r) C :=
  .read fun m hm => by rw [loadNext_node, (hm.lists.chain hl).value_next]

theorem hlistForEachSafe_refines {h : η} (hstart : (D l).lists h = some l)
    (hD : ∀ rest, rest <:+ l → ∃ k, (D rest).lists h = some (k ++ rest))
    (hbody : ∀ e rest, e :: rest <:+ l →
      Refines (D (e :: rest)) (body (.node e)) (b e) (D rest))
    (hfuel : l.length < fuel) :
    Refines (D l) (hlistForEachSafe body h fuel) (l.map b) (D []) := by
  refine (loadFirst_refines hstart).seq (forEachSafeFrom_refines ?_ hbody hfuel)
  intro e rest hsuffix
  obtain ⟨k, hk⟩ := hD (e :: rest) hsuffix
  exact loadNext_refines hk

end Rules

section Removal

variable {η α : Type} [DecidableEq η] [DecidableEq α] {m : Memory η α} {C : Contents η α} {h : η}
  {e : α} {d : Detached} {k l r : List α} {fuel : Nat} {p : α → Bool}
  {del : Ptr α → HlistM η α Unit}

def delWhen (del : Ptr α → HlistM η α Unit) (b : Bool) (pos : Ptr α) : HlistM η α Unit :=
  if b then del pos else pure ()

def delIf (del : Ptr α → HlistM η α Unit) (p : α → Bool) (pos : Ptr α) : HlistM η α α := do
  let e ← deref pos
  delWhen del (p e) pos
  pure e

/-- `del` takes out an entry and leaves it in the state `d`. -/
def TakesOut (del : Ptr α → HlistM η α Unit) (d : Detached) : Prop :=
  ∀ (C : Contents η α) (e : α), C.lists.On e →
    Refines C (del (.node e)) () ((C.edit (·.erase e)).mark e d)

theorem hlistDel_takesOut : TakesOut (Hlists.hlistDel (η := η) (α := α)) .poisoned :=
  fun _ _ he => hlistDel_refines (Or.inl he)

theorem hlistDelInit_takesOut : TakesOut (Hlists.hlistDelInit (η := η) (α := α)) .unhashed :=
  fun _ _ he => hlistDelInit_refines (Or.inl he)

/-- The list of `h` is `l`, and what satisfies `p` among `out` has been taken out of it. -/
def Contents.takenOut (C : Contents η α) (h : η) (l out : List α) (p : α → Bool) (d : Detached) :
    Contents η α where
  lists := C.lists.set h l
  detached a := if a ∈ out ∧ p a then some d else C.detached a

theorem takenOut_nil (hl : C.lists h = some l) : C.takenOut h l [] p d = C := by
  simp [Contents.takenOut, Chained.set_same hl]

theorem takenOut_step (hm : Holds m (C.takenOut h (k.filter (fun e => !p e) ++ e :: r) k p d))
    (hp : p e = true) :
    ((C.takenOut h (k.filter (fun e => !p e) ++ e :: r) k p d).edit (·.erase e)).mark e d =
      C.takenOut h ((k ++ [e]).filter (fun e => !p e) ++ r) (k ++ [e]) p d := by
  have hlists : (C.takenOut h (k.filter (fun e => !p e) ++ e :: r) k p d).lists h =
      some (k.filter (fun e => !p e) ++ e :: r) := Chained.set_self
  rw [hm.edit_erase hlists]
  refine congrArg₂ Contents.mk ?_ (funext fun a => ?_)
  · rw [List.filter_append, Lists.filter_singleton, if_pos hp, List.append_nil]
    exact Chained.set_set
  · by_cases hae : a = e
    · rw [hae, Function.update_self, if_pos ⟨by simp, hp⟩]
    · have hiff : a ∈ k ++ [e] ↔ a ∈ k := by simp [hae]
      rw [Function.update_of_ne hae]
      simp only [Contents.set, Contents.takenOut, hiff]

theorem takenOut_skip (hp : ¬p e = true) :
    C.takenOut h (k.filter (fun e => !p e) ++ e :: r) k p d =
      C.takenOut h ((k ++ [e]).filter (fun e => !p e) ++ r) (k ++ [e]) p d := by
  refine congrArg₂ Contents.mk ?_ (funext fun a => ?_)
  · rw [List.filter_append, Lists.filter_singleton, if_neg hp, List.append_assoc]
    rfl
  · by_cases hae : a = e
    · rw [hae, if_neg fun h => hp h.2, if_neg fun h => hp h.2]
    · have hiff : a ∈ k ++ [e] ↔ a ∈ k := by simp [hae]
      simp only [hiff]

theorem hlistForEachSafe_takesOut (hdel : TakesOut del d) (hl : C.lists h = some l)
    (hfuel : l.length < fuel) :
    Refines C (hlistForEachSafe (delIf del p) h fuel) l
      (C.takenOut h (l.filter fun e => !p e) l p d) := by
  let D (rest : List α) : Contents η α :=
    C.takenOut h ((Lists.visited l rest).filter (fun e => !p e) ++ rest) (Lists.visited l rest) p d
  have hstart : D l = C := by
    simp only [D, Lists.visited_self, List.filter_nil, List.nil_append]
    exact takenOut_nil hl
  have hfinish : D [] = C.takenOut h (l.filter fun e => !p e) l p d := by simp [D]
  suffices hloop : Refines (D l) (hlistForEachSafe (delIf del p) h fuel) (l.map id) (D []) by
    rwa [hstart, hfinish, List.map_id] at hloop
  refine hlistForEachSafe_refines (by rw [hstart, hl]) (fun rest _ => ⟨_, Chained.set_self⟩)
    ?_ hfuel
  intro e rest hsuffix
  obtain ⟨k, rfl⟩ := hsuffix
  have hcons : (D (e :: rest)).lists h = some (k.filter (fun e => !p e) ++ e :: rest) := by
    simp only [D, Lists.visited_append]
    exact Chained.set_self
  have hon : (D (e :: rest)).lists.On e := ⟨h, _, hcons, by simp⟩
  rw [delIf]
  refine .seq (b := e) (.read fun _ _ => rfl) (.seq (b := ()) ?_ .pure)
  rw [delWhen]
  by_cases hp : p e = true
  · intro m hm
    have hstep := hdel (D (e :: rest)) e hon m hm
    simp only [D, Lists.visited_append] at hm hstep
    rw [takenOut_step hm hp] at hstep
    simp only [D, Lists.visited_append_cons]
    rw [if_pos hp]
    exact hstep
  · simp only [D, Lists.visited_append, Lists.visited_append_cons]
    rw [if_neg hp, takenOut_skip hp]
    exact .pure

/-- A safe loop that takes out what satisfies `p` comes to every entry once. It leaves the other
entries on the list, in their order, and what it has taken out in the state that the removal leaves
it in. -/
theorem hlistSafeLoops_remove (hm : Holds m C) (hl : C.lists h = some l) (hfuel : l.length < fuel) :
    (∃ m', (hlistForEachSafe (delIf hlistDel p) h fuel).run m = .ok (l, m') ∧
      Holds m' (C.takenOut h (l.filter fun e => !p e) l p .poisoned)) ∧
    ∃ m', (hlistForEachSafe (delIf hlistDelInit p) h fuel).run m = .ok (l, m') ∧
      Holds m' (C.takenOut h (l.filter fun e => !p e) l p .unhashed) := by
  obtain ⟨m₁, hrun₁, hm₁⟩ := hlistForEachSafe_takesOut (p := p) hlistDel_takesOut hl hfuel m hm
  obtain ⟨m₂, hrun₂, hm₂⟩ := hlistForEachSafe_takesOut (p := p) hlistDelInit_takesOut hl hfuel m hm
  exact ⟨⟨m₁, hrun₁, hm₁⟩, m₂, hrun₂, hm₂⟩

theorem twoLists_hold :
    ∃ m : Memory (Fin 3) (Fin 3), Holds m (afterAll (unused _ _) twoLists) := by
  obtain ⟨m, _, hm⟩ := runCalls_refines twoLists_allowed (zeroed (Fin 3) (Fin 3)) holds_unused
  exact ⟨m, hm⟩

theorem twoLists_first : (afterAll (unused _ _) twoLists).lists 0 = some [0, 1] := rfl

theorem hlistSafeLoops_remove_first :
    ∃ m m' : Memory (Fin 3) (Fin 3),
      (hlistForEachSafe (delIf hlistDel (· = 0)) 0 3).run m = .ok ([0, 1], m') ∧
        m'.Chain .null (.first 0) [1] := by
  obtain ⟨m, hm⟩ := twoLists_hold
  obtain ⟨⟨m', hrun, hm'⟩, _⟩ := hlistSafeLoops_remove (p := (· = 0)) hm twoLists_first
    (show 2 < 3 by decide)
  exact ⟨m, m', hrun, hm'.lists.chain rfl⟩

theorem forEachFrom_del {prefetch : Ptr α → HlistM η α Unit} (fuel : Nat) (hdel : TakesOut del d)
    (hprefetch : (prefetch (.node e)).run m = .ok ((), m)) (hm : Holds m C)
    (hl : C.lists h = some (e :: l)) :
    ∃ m', Holds m' ((C.set h l).mark e d) ∧
      (forEachFrom prefetch del (fuel + 1) (.node e)).run m =
        (forEachFrom prefetch del fuel d.next >>= fun as => pure (() :: as)).run m' := by
  have hon : C.lists.On e := ⟨h, _, hl, List.mem_cons_self⟩
  obtain ⟨m', hrun, hm'⟩ := hdel C e hon m hm
  rw [hm.edit_erase (l := []) hl] at hm'
  refine ⟨m', hm', ?_⟩
  rw [forEachFrom, if_neg (by simp)]
  apply Exec.run_seq hprefetch
  apply Exec.run_seq hrun
  apply Exec.run_seq loadNext_node
  rw [hm'.next Contents.mark_detached_self]

/-- A plain loop that takes out its entry follows what the removal has left in it: a poison value,
or a null pointer, at which it ends as if the list were finished. -/
theorem hlistPlainLoops_stop (fuel : Nat) (hm : Holds m C) (hl : C.lists h = some (e :: l)) :
    (hlistForEach hlistDel h (fuel + 2)).run m = .error (.fault .listPoison1) ∧
      (hlistForEachEntry hlistDel h (fuel + 2)).run m = .error (.fault .listPoison1) ∧
      (∃ m', (hlistForEach hlistDelInit h (fuel + 2)).run m = .ok ([()], m') ∧
        Holds m' ((C.set h l).mark e .unhashed)) ∧
      ∃ m', (hlistForEachEntry hlistDelInit h (fuel + 2)).run m = .ok ([()], m') ∧
        Holds m' ((C.set h l).mark e .unhashed) := by
  have hfirst := Slots.Chain.value_last (l := []) (hm.lists.chain hl)
  rw [Slot.last_nil] at hfirst
  have hstart (f : Ptr α → HlistM η α (List Unit)) :
      (loadSlot (addrFirst h) >>= f).run m = (f (.node e)).run m := by
    apply Exec.run_seq loadSlot_node
    rw [hfirst]
    rfl
  have hpass : (noPrefetch (η := η) (.node e)).run m = .ok ((), m) := rfl
  have hprefetch : (prefetchNext (η := η) (.node e)).run m = .ok ((), m) := rfl
  refine ⟨(hstart _).trans ?_, (hstart _).trans ?_, ?_, ?_⟩
  · obtain ⟨m', _, hrun⟩ := forEachFrom_del (fuel + 1) hlistDel_takesOut hpass hm hl
    exact hrun.trans rfl
  · obtain ⟨m', _, hrun⟩ := forEachFrom_del (fuel + 1) hlistDel_takesOut hprefetch hm hl
    exact hrun.trans rfl
  · obtain ⟨m', hm', hrun⟩ := forEachFrom_del (fuel + 1) hlistDelInit_takesOut hpass hm hl
    exact ⟨m', (hstart _).trans (hrun.trans rfl), hm'⟩
  · obtain ⟨m', hm', hrun⟩ :=
      forEachFrom_del (fuel + 1) hlistDelInit_takesOut hprefetch hm hl
    exact ⟨m', (hstart _).trans (hrun.trans rfl), hm'⟩

theorem hlistPlainLoops_stop_first :
    ∃ m m' : Memory (Fin 3) (Fin 3), (hlistForEach hlistDelInit 0 2).run m = .ok ([()], m') ∧
      m'.Chain .null (.first 0) [1] := by
  obtain ⟨m, hm⟩ := twoLists_hold
  have hstop := hlistPlainLoops_stop 0 hm twoLists_first
  obtain ⟨m', hrun, hm'⟩ := hstop.2.2.1
  exact ⟨m, m', hrun, hm'.lists.chain rfl⟩

end Removal

section Moving

variable {η α : Type} [DecidableEq η] [DecidableEq α] {m : Memory η α} {C : Contents η α}
  {old new tmp : η} {e : α} {l r u : List α} {fuel : Nat}

/-- The body of a loop that moves entries to the front of another list. -/
def moveTo (new : η) (pos : Ptr α) : HlistM η α Unit := do
  hlistDel pos
  hlistAddHead pos new

theorem moveTo_refines (hne : old ≠ new) (hl : C.lists old = some (e :: r))
    (hu : C.lists new = some u) :
    Refines C (moveTo new (.node e)) () ((C.set old r).set new (e :: u)) := by
  intro m hm
  have hold : C.lists.On e := ⟨old, _, hl, List.mem_cons_self⟩
  have hnew : (C.set old r).lists new = some u := (Chained.set_of_ne hne.symm).trans hu
  have hsilent : C.detached e = none := hm.detached_none hold
  have hout : ¬((C.set old r).mark e .poisoned).lists.On e := by
    have hgone := hm.not_on_erase (e := e)
    rwa [hm.edit_erase (l := []) hl] at hgone
  have hforget : ((C.set old r).mark e .poisoned).forget e = C.set old r := by
    refine congrArg (Contents.mk _) (funext fun a => ?_)
    by_cases hae : a = e
    · rw [hae, Function.update_self]
      exact hsilent.symm
    · rw [Function.update_of_ne hae]
      exact Contents.mark_detached_of_ne hae
  have hdel := hlistDel_refines (Or.inl hold)
  rw [hm.edit_erase (l := []) hl, List.nil_append] at hdel
  have hadd := hlistAddHead_refines hout hnew
  rw [hforget] at hadd
  exact hdel.seq hadd m hm

omit [DecidableEq α] in
theorem Contents.set_again {a b c d : List α} (hne : old ≠ new) :
    (((C.set old a).set new b).set old c).set new d = (C.set old c).set new d := by
  rw [Contents.set_comm hne, Contents.set_set, Contents.set_set]

/-- Moved one by one to the front, the entries arrive in the opposite order. -/
theorem moveTo_loop (hne : old ≠ new) (hl : C.lists old = some l) (hu : C.lists new = some u)
    (hfuel : l.length < fuel) :
    Refines C (hlistForEachSafe (moveTo new) old fuel) (l.map fun _ => ())
      ((C.set old []).set new (l.reverse ++ u)) := by
  let D (rest : List α) : Contents η α :=
    (C.set old rest).set new ((Lists.visited l rest).reverse ++ u)
  have hrest (rest : List α) : (D rest).lists old = some rest :=
    (Chained.set_of_ne hne).trans Chained.set_self
  have hstart : D l = C := by
    simp only [D, Lists.visited_self, List.reverse_nil, List.nil_append]
    rw [Contents.set_same hl, Contents.set_same hu]
  have hfinish : D [] = (C.set old []).set new (l.reverse ++ u) := by simp [D]
  rw [← hfinish, show Refines C = Refines (D l) by rw [hstart]]
  refine hlistForEachSafe_refines (hrest l) (fun rest _ => ⟨[], hrest rest⟩) ?_ hfuel
  intro e rest hsuffix
  obtain ⟨k, rfl⟩ := hsuffix
  have hmove := moveTo_refines hne (hrest (e :: rest)) Chained.set_self
  rw [Contents.set_again hne] at hmove
  simpa [D, Lists.visited_append_cons] using hmove

/-- Moving the entries one by one to a third list, and from there on, is moving the list. -/
theorem hlistMoves_agree (hm : Holds m C) (hold : C.lists old = some l)
    (htmp : C.lists tmp = some []) (hnew : C.lists new = some []) (hot : old ≠ tmp)
    (htn : tmp ≠ new) (hon : old ≠ new) (hfuel : l.length < fuel) :
    (∃ m', (hlistMoveList old new).run m = .ok ((), m') ∧ Holds m' ((C.set old []).set new l)) ∧
    ∃ as m', (hlistForEachSafe (moveTo tmp) old fuel >>= fun _ =>
        hlistForEachSafe (moveTo new) tmp fuel).run m = .ok (as, m') ∧
      Holds m' ((C.set old []).set new l) := by
  have hlist := hlistMoveList_refines hon hold
  rw [Contents.set_comm hon] at hlist
  refine ⟨hlist m hm, ?_⟩
  have hfirst := moveTo_loop hot hold htmp hfuel
  have htmp' : (C.set old []).lists tmp = some [] := (Chained.set_of_ne hot.symm).trans htmp
  have hnew' : ((C.set old []).set tmp l.reverse).lists new = some [] :=
    (Chained.set_of_ne htn.symm).trans ((Chained.set_of_ne hon.symm).trans hnew)
  have hsecond := moveTo_loop (l := l.reverse) htn Chained.set_self hnew' (by simpa using hfuel)
  rw [List.append_nil] at hfirst hsecond
  rw [List.reverse_reverse, Contents.set_set, Contents.set_same htmp'] at hsecond
  have hboth := hfirst.seq (f := fun _ => hlistForEachSafe (moveTo new) tmp fuel) hsecond
  obtain ⟨m', hrun, hm'⟩ := hboth m hm
  exact ⟨_, m', hrun, hm'⟩

theorem hlistMoves_agree_two :
    ∃ (m m' : Memory (Fin 3) (Fin 3)) (as : List Unit),
      (hlistForEachSafe (moveTo 1) 0 3 >>= fun _ => hlistForEachSafe (moveTo 2) 1 3).run m =
          .ok (as, m') ∧ m'.Chain .null (.first 2) [0, 1] := by
  have hok : AllowedAll (unused (Fin 3) (Fin 3)) [.initHlistHead 0, .initHlistHead 1,
      .initHlistHead 2, .hlistAddHead 1 0, .hlistAddHead 0 0] := by
    decide
  obtain ⟨m, _, hm⟩ := runCalls_refines hok (zeroed (Fin 3) (Fin 3)) holds_unused
  obtain ⟨_, as, m', hrun, hm'⟩ := hlistMoves_agree (l := [0, 1]) hm rfl rfl rfl
    (show (0 : Fin 3) ≠ 1 by decide) (show (1 : Fin 3) ≠ 2 by decide) (by decide)
    (show 2 < 3 by decide)
  exact ⟨m, m', as, hrun, hm'.lists.chain rfl⟩

end Moving

end Hlists

end TxDriver
