import TxDriver.Driver.ListRuns

/-!
# Loops over lists

The iteration macros of `list.h`, forwards and backwards, over any body. A plain loop reads the
next entry after the body and needs the present one to be still there; a safe loop has read it
before, and the body may take the present entry out of the list, or put it into another one.
-/

namespace TxDriver

namespace Lists

section Loops

variable {α β : Type} [DecidableEq α]

/-- The plain loops. `load` is the field that the loop follows; its argument is read again for
`prefetch`. The results of the body are returned in the order of the visits. -/
def forEachFrom (load : Ptr α → ListM α (Ptr α)) (body : Ptr α → ListM α β) (head : Ptr α) :
    Nat → Ptr α → ListM α (List β)
  | 0, _ => Exec.stop .hang
  | fuel + 1, pos => do
    let _prefetch ← load pos
    if pos = head then pure []
    else do
      let b ← body pos
      let next ← load pos
      let bs ← forEachFrom load body head fuel next
      pure (b :: bs)

def listForEach (body : Ptr α → ListM α β) (head : Ptr α) (fuel : Nat) : ListM α (List β) := do
  let pos ← loadNext head
  forEachFrom loadNext body head fuel pos

def listForEachPrev (body : Ptr α → ListM α β) (head : Ptr α) (fuel : Nat) :
    ListM α (List β) := do
  let pos ← loadPrev head
  forEachFrom loadPrev body head fuel pos

/-- The safe loops, of which one has a `prefetch`. -/
def forEachSafeFrom (load : Ptr α → ListM α (Ptr α)) (prefetch : Ptr α → ListM α Unit)
    (body : Ptr α → ListM α β) (head : Ptr α) : Nat → Ptr α → Ptr α → ListM α (List β)
  | 0, _, _ => Exec.stop .hang
  | fuel + 1, pos, n => do
    prefetch pos
    if pos = head then pure []
    else do
      let b ← body pos
      let n' ← load n
      let bs ← forEachSafeFrom load prefetch body head fuel n n'
      pure (b :: bs)

def listForEachSafe (body : Ptr α → ListM α β) (head : Ptr α) (fuel : Nat) :
    ListM α (List β) := do
  let pos ← loadNext head
  let n ← loadNext pos
  forEachSafeFrom loadNext (fun _ => pure ()) body head fuel pos n

def prefetchPrev (pos : Ptr α) : ListM α Unit := do
  let _prefetch ← loadPrev pos
  pure ()

def listForEachPrevSafe (body : Ptr α → ListM α β) (head : Ptr α) (fuel : Nat) :
    ListM α (List β) := do
  let pos ← loadPrev head
  let n ← loadPrev pos
  forEachSafeFrom loadPrev prefetchPrev body head fuel pos n

end Loops

section Rules

variable {α β : Type} [DecidableEq α] {load : Ptr α → ListM α (Ptr α)}
  {prefetch : Ptr α → ListM α Unit} {body : Ptr α → ListM α β} {b : α → β} {head : α}
  {D : List α → Contents α} {l rest args : List α} {fuel : Nat}

omit [DecidableEq α] in
theorem node_headD_eq_iff (hl : head ∉ rest) :
    Pointer.node (rest.headD head) = (.node head : Ptr α) ↔ rest = [] := by
  cases rest with
  | nil => simp
  | cons e rest =>
    have hne : e ≠ head := fun h => hl (h ▸ List.mem_cons_self)
    simp [hne]

/-- A plain loop over `l`, where `D rest` are the lists when `rest` is still to be visited. -/
theorem forEachFrom_refines (hl : head ∉ l)
    (hend : ∃ q, Refines (D []) (load (.node head)) q (D []) args)
    (hload : ∀ e rest, e :: rest <:+ l →
      (∃ q, Refines (D (e :: rest)) (load (.node e)) q (D (e :: rest)) args) ∧
      Refines (D rest) (load (.node e)) (.node (rest.headD head)) (D rest) args)
    (hbody : ∀ e rest, e :: rest <:+ l →
      Refines (D (e :: rest)) (body (.node e)) (b e) (D rest) args)
    (hfuel : l.length < fuel) :
    Refines (D l) (forEachFrom load body (.node head) fuel (.node (l.headD head))) (l.map b)
      (D []) args := by
  induction l generalizing fuel with
  | nil =>
    obtain ⟨q, hq⟩ := hend
    match fuel, hfuel with
    | fuel + 1, _ =>
      rw [forEachFrom, if_pos ((node_headD_eq_iff hl).mpr rfl)]
      exact hq.seq .pure
  | cons e l ih =>
    match fuel, hfuel with
    | fuel + 1, hfuel =>
      obtain ⟨⟨q, hq⟩, hnext⟩ := hload e l List.suffix_rfl
      have hrest := ih (fun h => hl (List.mem_cons_of_mem e h))
        (fun e' r h => hload e' r (h.trans (List.suffix_cons e l)))
        (fun e' r h => hbody e' r (h.trans (List.suffix_cons e l))) (Nat.lt_of_succ_lt_succ hfuel)
      have hne : Pointer.node e ≠ (.node head : Ptr α) := fun h =>
        hl (Pointer.node.inj h ▸ List.mem_cons_self)
      rw [forEachFrom]
      refine hq.seq ?_
      rw [List.headD_cons, if_neg hne]
      exact (hbody e l List.suffix_rfl).seq (hnext.seq (hrest.seq .pure))

theorem forEachSafeFrom_refines (hl : head ∉ l)
    (hprefetch : ∀ rest, rest <:+ l →
      Refines (D rest) (prefetch (.node (rest.headD head))) () (D rest) args)
    (hend : ∃ q, Refines (D []) (load (.node head)) q (D []) args)
    (hload : ∀ e rest, e :: rest <:+ l →
      Refines (D (e :: rest)) (load (.node e)) (.node (rest.headD head)) (D (e :: rest)) args)
    (hbody : ∀ e rest, e :: rest <:+ l →
      Refines (D (e :: rest)) (body (.node e)) (b e) (D rest) args)
    (hfuel : l.length < fuel) :
    Refines (D l)
      (load (.node (l.headD head)) >>=
        forEachSafeFrom load prefetch body (.node head) fuel (.node (l.headD head)))
      (l.map b) (D []) args := by
  induction l generalizing fuel with
  | nil =>
    obtain ⟨q, hq⟩ := hend
    match fuel, hfuel with
    | fuel + 1, _ =>
      refine hq.seq ?_
      rw [forEachSafeFrom, if_pos ((node_headD_eq_iff hl).mpr rfl)]
      exact (hprefetch [] List.suffix_rfl).seq .pure
  | cons e l ih =>
    match fuel, hfuel with
    | fuel + 1, hfuel =>
      have hrest := ih (fun h => hl (List.mem_cons_of_mem e h))
        (fun r h => hprefetch r (h.trans (List.suffix_cons e l)))
        (fun e' r h => hload e' r (h.trans (List.suffix_cons e l)))
        (fun e' r h => hbody e' r (h.trans (List.suffix_cons e l))) (Nat.lt_of_succ_lt_succ hfuel)
      have hne : Pointer.node e ≠ (.node head : Ptr α) := fun h =>
        hl (Pointer.node.inj h ▸ List.mem_cons_self)
      refine (hload e l List.suffix_rfl).seq ?_
      rw [forEachSafeFrom]
      refine (hprefetch (e :: l) List.suffix_rfl).seq ?_
      rw [List.headD_cons, if_neg hne]
      refine (hbody e l List.suffix_rfl).seq ?_
      have hseq := hrest.seq (f := fun bs => pure (b e :: bs)) .pure
      rwa [Exec.bind_bind] at hseq

omit [DecidableEq α] in
theorem getLastD_reverse (l : List α) : l.reverse.getLastD head = l.headD head := by
  cases l with
  | nil => rfl
  | cons e l => rw [List.reverse_cons, List.getLastD_concat, List.headD_cons]

theorem listForEach_refines (hl : head ∉ l) (hD : ∀ rest, rest <:+ l → D rest head = some l)
    (hbody : ∀ e rest, e :: rest <:+ l →
      Refines (D (e :: rest)) (body (.node e)) (b e) (D rest) args)
    (hfuel : l.length < fuel) :
    Refines (D l) (listForEach body (.node head) fuel) (l.map b) (D []) args := by
  refine ((loadNext_refines (hD l List.suffix_rfl)).mono (by simp)).seq ?_
  refine forEachFrom_refines hl ?_ ?_ hbody hfuel
  · exact ⟨_, (loadNext_refines (hD [] (List.nil_suffix))).mono (by simp)⟩
  · intro e rest hsuffix
    have hrest := hD rest ((List.suffix_cons e rest).trans hsuffix)
    have hcons := hD (e :: rest) hsuffix
    obtain ⟨k, rfl⟩ := hsuffix
    exact ⟨⟨_, (loadNext_refines_entry hcons).mono (by simp)⟩,
      (loadNext_refines_entry hrest).mono (by simp)⟩

theorem listForEachPrev_refines (hl : head ∉ l)
    (hD : ∀ rest, rest <:+ l → D rest head = some l.reverse)
    (hbody : ∀ e rest, e :: rest <:+ l →
      Refines (D (e :: rest)) (body (.node e)) (b e) (D rest) args)
    (hfuel : l.length < fuel) :
    Refines (D l) (listForEachPrev body (.node head) fuel) (l.map b) (D []) args := by
  have hstart := loadPrev_refines (hD l List.suffix_rfl)
  rw [getLastD_reverse] at hstart
  refine (hstart.mono (by simp)).seq (forEachFrom_refines hl ?_ ?_ hbody hfuel)
  · exact ⟨_, (loadPrev_refines (hD [] (List.nil_suffix))).mono (by simp)⟩
  · intro e rest hsuffix
    have hrest := hD rest ((List.suffix_cons e rest).trans hsuffix)
    have hcons := hD (e :: rest) hsuffix
    obtain ⟨k, rfl⟩ := hsuffix
    rw [List.reverse_append, List.reverse_cons, List.append_assoc, List.singleton_append]
      at hrest hcons
    have hload := loadPrev_refines_entry hrest
    rw [getLastD_reverse] at hload
    exact ⟨⟨_, (loadPrev_refines_entry hcons).mono (by simp)⟩, hload.mono (by simp)⟩

theorem listForEachSafe_refines (hl : head ∉ l) (hstart : D l head = some l)
    (hD : ∀ rest, rest <:+ l → ∃ k, D rest head = some (k ++ rest))
    (hbody : ∀ e rest, e :: rest <:+ l →
      Refines (D (e :: rest)) (body (.node e)) (b e) (D rest) args)
    (hfuel : l.length < fuel) :
    Refines (D l) (listForEachSafe body (.node head) fuel) (l.map b) (D []) args := by
  obtain ⟨k, hk⟩ := hD [] List.nil_suffix
  refine ((loadNext_refines hstart).mono (by simp)).seq ?_
  refine forEachSafeFrom_refines hl (fun _ _ => .pure) ?_ ?_ hbody hfuel
  · exact ⟨_, (loadNext_refines hk).mono (by simp)⟩
  · intro e rest hsuffix
    obtain ⟨k, hk⟩ := hD (e :: rest) hsuffix
    exact (loadNext_refines_entry hk).mono (by simp)

theorem listForEachPrevSafe_refines (hl : head ∉ l) (hstart : D l head = some l.reverse)
    (hD : ∀ rest, rest <:+ l → ∃ k, D rest head = some (rest.reverse ++ k))
    (hbody : ∀ e rest, e :: rest <:+ l →
      Refines (D (e :: rest)) (body (.node e)) (b e) (D rest) args)
    (hfuel : l.length < fuel) :
    Refines (D l) (listForEachPrevSafe body (.node head) fuel) (l.map b) (D []) args := by
  have hend : ∃ q, Refines (D []) (loadPrev (.node head)) q (D []) args := by
    obtain ⟨k, hk⟩ := hD [] List.nil_suffix
    exact ⟨_, (loadPrev_refines hk).mono (by simp)⟩
  have hload : ∀ e rest, e :: rest <:+ l → Refines (D (e :: rest)) (loadPrev (.node e))
      (.node (rest.headD head)) (D (e :: rest)) args := by
    intro e rest hsuffix
    obtain ⟨k, hk⟩ := hD (e :: rest) hsuffix
    rw [List.reverse_cons, List.append_assoc, List.singleton_append] at hk
    have hload := loadPrev_refines_entry hk
    rw [getLastD_reverse] at hload
    exact hload.mono (by simp)
  have hfirst := loadPrev_refines hstart
  rw [getLastD_reverse] at hfirst
  refine (hfirst.mono (by simp)).seq (forEachSafeFrom_refines hl ?_ hend hload hbody hfuel)
  intro rest hsuffix
  cases rest with
  | nil =>
    obtain ⟨q, hq⟩ := hend
    exact hq.seq .pure
  | cons e rest => exact (hload e rest hsuffix).seq .pure

end Rules

section Visits

variable {α : Type} [DecidableEq α] {C : Contents α} {head : α} {l : List α} {fuel : Nat}

def visit (pos : Ptr α) : ListM α (Ptr α) := pure pos

theorem loops_refine {m : Memory α} (hm : m.Holds C) (hl : C head = some l)
    (hfuel : l.length < fuel) :
    Refines C (listForEach visit (.node head) fuel) (l.map .node) C [] ∧
      Refines C (listForEachSafe visit (.node head) fuel) (l.map .node) C [] ∧
      Refines C (listForEachPrev visit (.node head) fuel) (l.reverse.map .node) C [] ∧
      Refines C (listForEachPrevSafe visit (.node head) fuel) (l.reverse.map .node) C [] := by
  have hnot : head ∉ l := (hm.ring hl).notMem
  have hnot' : head ∉ l.reverse := by simpa using hnot
  have hfuel' : l.reverse.length < fuel := by simpa using hfuel
  have hsuffix : ∀ rest, rest <:+ l.reverse → ∃ k, C head = some (rest.reverse ++ k) := by
    intro rest hrest
    obtain ⟨k, hk⟩ := hrest
    refine ⟨k.reverse, ?_⟩
    rw [hl, ← List.reverse_append, hk, List.reverse_reverse]
  refine ⟨?_, ?_, ?_, ?_⟩
  · exact listForEach_refines (D := fun _ => C) hnot (fun _ _ => hl) (fun _ _ _ => .pure) hfuel
  · refine listForEachSafe_refines (D := fun _ => C) hnot hl ?_ (fun _ _ _ => .pure) hfuel
    intro rest hrest
    obtain ⟨k, rfl⟩ := hrest
    exact ⟨k, hl⟩
  · refine listForEachPrev_refines (D := fun _ => C) hnot' (fun _ _ => ?_) (fun _ _ _ => .pure)
      hfuel'
    rw [List.reverse_reverse, hl]
  · refine listForEachPrevSafe_refines (D := fun _ => C) hnot' ?_ hsuffix (fun _ _ _ => .pure)
      hfuel'
    rw [List.reverse_reverse, hl]

def ReadOnly {β : Type} (x : ListM α β) : Prop :=
  ∀ ⦃m b m'⦄, x.run m = .ok (b, m') → m' = m

omit [DecidableEq α] in
theorem ReadOnly.pure {β : Type} (b : β) : ReadOnly (pure b : ListM α β) := by
  intro m _ m' hrun
  cases hrun
  rfl

omit [DecidableEq α] in
theorem ReadOnly.bind {β γ : Type} {x : ListM α β} {f : β → ListM α γ} (hx : ReadOnly x)
    (hf : ∀ b, ReadOnly (f b)) : ReadOnly (x >>= f) := by
  intro m c m' hrun
  obtain ⟨b, m₁, hrun₁, hrun₂⟩ := Exec.run_bind_eq_ok.mp hrun
  rw [hf b hrun₂, hx hrun₁]

omit [DecidableEq α] in
theorem deref_readOnly (p : Ptr α) : ReadOnly (deref p) := by
  cases p with
  | node a => exact .pure a
  | wild w => exact nofun

omit [DecidableEq α] in
theorem loadNext_readOnly (p : Ptr α) : ReadOnly (loadNext p) :=
  (deref_readOnly p).bind fun a => by
    intro m _ m' hrun
    cases hrun
    rfl

omit [DecidableEq α] in
theorem loadPrev_readOnly (p : Ptr α) : ReadOnly (loadPrev p) :=
  (deref_readOnly p).bind fun a => by
    intro m _ m' hrun
    cases hrun
    rfl

theorem forEachFrom_readOnly {load : Ptr α → ListM α (Ptr α)} (hload : ∀ p, ReadOnly (load p))
    (head : Ptr α) (fuel : Nat) (pos : Ptr α) :
    ReadOnly (forEachFrom load visit head fuel pos) := by
  induction fuel generalizing pos with
  | zero => exact nofun
  | succ fuel ih =>
    refine (hload pos).bind fun _ => ?_
    split
    · exact .pure []
    · exact .bind (.pure pos) fun _ => .bind (hload pos) fun next =>
        .bind (ih next) fun _ => .pure _

theorem forEachSafeFrom_readOnly {load : Ptr α → ListM α (Ptr α)}
    {prefetch : Ptr α → ListM α Unit} (hload : ∀ p, ReadOnly (load p))
    (hprefetch : ∀ p, ReadOnly (prefetch p)) (head : Ptr α) (fuel : Nat) (pos n : Ptr α) :
    ReadOnly (forEachSafeFrom load prefetch visit head fuel pos n) := by
  induction fuel generalizing pos n with
  | zero => exact nofun
  | succ fuel ih =>
    refine (hprefetch pos).bind fun _ => ?_
    split
    · exact .pure []
    · exact .bind (.pure pos) fun _ => .bind (hload n) fun next =>
        .bind (ih n next) fun _ => .pure _

omit [DecidableEq α] in
theorem Refines.run_readOnly {β : Type} {x : ListM α β} {b : β} {m : Memory α}
    (hx : Refines C x b C []) (hread : ReadOnly x) (hm : m.Holds C) :
    x.run m = .ok (b, m) := by
  obtain ⟨m', hrun, _⟩ := hx m hm
  rw [hrun, hread hrun]

/-- After every program, the forward loops visit the entries of a list in their order and the
backward loops in the opposite one, each of them once. -/
theorem loops_visit {m : Memory α} {cs : List (Call α)} (hm : m.Holds C) (hok : AllowedAll C cs)
    (hl : afterAll C cs head = some l) (hfuel : l.length < fuel) :
    ∃ m', (runCalls cs).run m = .ok (answers C cs, m') ∧
      (listForEach visit (.node head) fuel).run m' = .ok (l.map .node, m') ∧
      (listForEachSafe visit (.node head) fuel).run m' = .ok (l.map .node, m') ∧
      (listForEachPrev visit (.node head) fuel).run m' = .ok (l.reverse.map .node, m') ∧
      (listForEachPrevSafe visit (.node head) fuel).run m' = .ok (l.reverse.map .node, m') := by
  obtain ⟨m', hrun, hm', _⟩ := runCalls_refines hok m hm
  obtain ⟨h₁, h₂, h₃, h₄⟩ := loops_refine hm' hl hfuel
  refine ⟨m', hrun, h₁.run_readOnly ?_ hm', h₂.run_readOnly ?_ hm', h₃.run_readOnly ?_ hm',
    h₄.run_readOnly ?_ hm'⟩
  · exact (loadNext_readOnly _).bind fun _ => forEachFrom_readOnly loadNext_readOnly _ _ _
  · exact (loadNext_readOnly _).bind fun _ => (loadNext_readOnly _).bind fun _ =>
      forEachSafeFrom_readOnly loadNext_readOnly (fun _ => .pure ()) _ _ _ _
  · exact (loadPrev_readOnly _).bind fun _ => forEachFrom_readOnly loadPrev_readOnly _ _ _
  · exact (loadPrev_readOnly _).bind fun _ => (loadPrev_readOnly _).bind fun _ =>
      forEachSafeFrom_readOnly loadPrev_readOnly
        (fun p => (loadPrev_readOnly p).bind fun _ => .pure ()) _ _ _ _

theorem loops_visit_two :
    ∃ m : Memory (Fin 3), (listForEach visit (.node 0) 3).run m = .ok ([.node 1, .node 2], m) ∧
      (listForEachPrev visit (.node 0) 3).run m = .ok ([.node 2, .node 1], m) := by
  have hok : AllowedAll (fun _ : Fin 3 => none)
      [.initListHead 0, .listAddTail 1 0, .listAddTail 2 0] := by
    decide
  have hl : afterAll (fun _ => none)
      [Call.initListHead 0, .listAddTail 1 0, .listAddTail 2 0] (0 : Fin 3) = some [1, 2] := rfl
  obtain ⟨m, _, hnext, _, hprev, _⟩ := loops_visit (m := zeroed (Fin 3)) .empty hok hl
    (show 2 < 3 by decide)
  exact ⟨m, hnext, hprev⟩

def twoLists : List (Call (Fin 5)) :=
  [.initListHead 0, .initListHead 1, .listAdd 3 0, .listAdd 2 0, .listAdd 4 1]

theorem twoLists_first : afterAll (fun _ => none) twoLists 0 = some [2, 3] := rfl

theorem twoLists_second : afterAll (fun _ => none) twoLists 1 = some [4] := rfl

theorem twoLists_hold : ∃ m : Memory (Fin 5), m.Holds (afterAll (fun _ => none) twoLists) := by
  have hok : AllowedAll (fun _ => none) twoLists := by decide
  obtain ⟨m, _, hm, _⟩ := runCalls_refines hok (zeroed (Fin 5)) .empty
  exact ⟨m, hm⟩

end Visits

section Removal

variable {α : Type} [DecidableEq α] {C : Contents α} {head other : α} {l u : List α} {fuel : Nat}
  {p : α → Bool}

def delWhen (b : Bool) (pos : Ptr α) : ListM α Unit := if b then listDel pos else pure ()

def delIf (p : α → Bool) (pos : Ptr α) : ListM α α := do
  let e ← deref pos
  delWhen (p e) pos
  pure e

theorem delIf_refines {e : α} {k r : List α} (hl : C head = some (k ++ e :: r)) :
    Refines C (delIf p (.node e)) e
      (C.set head (k ++ (if p e then [] else [e]) ++ r)) [e] := by
  have hdel : Refines C (delWhen (p e) (.node e)) ()
      (C.set head (k ++ (if p e then [] else [e]) ++ r)) [e] := by
    rw [delWhen]
    by_cases hp : p e = true
    · intro m hm
      rw [if_pos hp, if_pos hp, List.append_nil, ← hm.detach_entry hl]
      exact listDel_refines (.inl ⟨head, _, hl, by simp⟩) m hm
    · rw [if_neg hp, if_neg hp, List.append_assoc, List.singleton_append, Contents.set_same hl]
      exact .pure
  rw [delIf]
  exact .seq (b := e) (.read fun _ _ => rfl) (hdel.seq .pure)

def visited (l rest : List α) : List α := l.take (l.length - rest.length)

omit [DecidableEq α] in
@[simp] theorem visited_append (k rest : List α) : visited (k ++ rest) rest = k := by
  simp [visited]

omit [DecidableEq α] in
@[simp] theorem visited_self : visited l l = [] := by simp [visited]

omit [DecidableEq α] in
@[simp] theorem visited_nil : visited l [] = l := by simp [visited]

omit [DecidableEq α] in
theorem visited_append_cons (k : List α) (e : α) (rest : List α) :
    visited (k ++ e :: rest) rest = k ++ [e] := by
  rw [List.append_cons, visited_append]

omit [DecidableEq α] in
theorem filter_singleton (p : α → Bool) (e : α) :
    [e].filter (fun e => !p e) = if p e then [] else [e] := by
  cases hp : p e <;> simp [hp]

theorem listForEachSafe_removes (hl : C head = some l) (hnot : head ∉ l)
    (hfuel : l.length < fuel) :
    Refines C (listForEachSafe (delIf p) (.node head) fuel) l
      (C.set head (l.filter fun e => !p e)) l := by
  let D (rest : List α) : Contents α :=
    C.set head ((visited l rest).filter (fun e => !p e) ++ rest)
  have hstart : D l = C := by simp [D, Contents.set_same hl]
  have hfinish : D [] = C.set head (l.filter fun e => !p e) := by simp [D]
  suffices hloop : Refines (D l) (listForEachSafe (delIf p) (.node head) fuel) (l.map id)
      (D []) l by
    rwa [hstart, hfinish, List.map_id] at hloop
  refine listForEachSafe_refines hnot (by rw [hstart, hl]) (fun rest _ => ⟨_, Contents.set_self⟩)
    ?_ hfuel
  intro e rest hsuffix
  obtain ⟨k, rfl⟩ := hsuffix
  have hdel := delIf_refines (p := p) (C := D (e :: rest)) Contents.set_self
  rw [Contents.set_set, visited_append] at hdel
  simp only [D, visited_append_cons, List.filter_append, filter_singleton]
  exact hdel.mono (by simp)

theorem listForEachPrevSafe_removes (hl : C head = some l) (hnot : head ∉ l)
    (hfuel : l.length < fuel) :
    Refines C (listForEachPrevSafe (delIf p) (.node head) fuel) l.reverse
      (C.set head (l.filter fun e => !p e)) l := by
  let D (rest : List α) : Contents α :=
    C.set head (rest.reverse ++ (visited l.reverse rest).reverse.filter (fun e => !p e))
  have hstart : D l.reverse = C := by simp [D, Contents.set_same hl]
  have hfinish : D [] = C.set head (l.filter fun e => !p e) := by simp [D]
  suffices hloop : Refines (D l.reverse) (listForEachPrevSafe (delIf p) (.node head) fuel)
      (l.reverse.map id) (D []) l by
    rwa [hstart, hfinish, List.map_id] at hloop
  refine listForEachPrevSafe_refines (by simpa using hnot) ?_
    (fun rest _ => ⟨_, Contents.set_self⟩) ?_ (by simpa using hfuel)
  · rw [hstart, List.reverse_reverse, hl]
  · intro e rest hsuffix
    obtain ⟨k, hk⟩ := hsuffix
    have hcons : D (e :: rest) head =
        some (rest.reverse ++ e :: k.reverse.filter (fun e => !p e)) := by
      simp [D, ← hk]
    have hdel := delIf_refines (p := p) hcons
    have hrest : D rest = C.set head (rest.reverse ++ (if p e then [] else [e]) ++
        k.reverse.filter (fun e => !p e)) := by
      simp only [D, ← hk, visited_append_cons, List.reverse_append, List.filter_append,
        List.reverse_singleton, filter_singleton, List.append_assoc]
    have hmem : e ∈ l := List.mem_reverse.mp (by simp [← hk])
    rw [show ∀ r, (D (e :: rest)).set head r = C.set head r from fun _ => Contents.set_set] at hdel
    rw [hrest]
    exact hdel.mono (by simpa using hmem)

/-- A safe loop comes to every entry once, in either direction, and removes what satisfies `p` and
nothing else. -/
theorem safe_loops_remove {m : Memory α} (hm : m.Holds C) (hl : C head = some l)
    (hfuel : l.length < fuel) :
    (∃ m', (listForEachSafe (delIf p) (.node head) fuel).run m = .ok (l, m') ∧
      m'.Holds (C.set head (l.filter fun e => !p e))) ∧
    ∃ m', (listForEachPrevSafe (delIf p) (.node head) fuel).run m = .ok (l.reverse, m') ∧
      m'.Holds (C.set head (l.filter fun e => !p e)) := by
  have hnot : head ∉ l := (hm.ring hl).notMem
  obtain ⟨m₁, hrun₁, hm₁, _⟩ := listForEachSafe_removes (p := p) hl hnot hfuel m hm
  obtain ⟨m₂, hrun₂, hm₂, _⟩ := listForEachPrevSafe_removes (p := p) hl hnot hfuel m hm
  exact ⟨⟨m₁, hrun₁, hm₁⟩, m₂, hrun₂, hm₂⟩

theorem safe_loops_remove_first :
    ∃ m m' : Memory (Fin 5),
      (listForEachSafe (delIf (· = 2)) (.node 0) 3).run m = .ok ([2, 3], m') ∧ m'.Ring 0 [3] := by
  obtain ⟨m, hm⟩ := twoLists_hold
  obtain ⟨⟨m', hrun, hm'⟩, _⟩ := safe_loops_remove (p := (· = 2)) hm twoLists_first
    (show 2 < 3 by decide)
  exact ⟨m, m', hrun, hm'.ring rfl⟩

/-- A plain loop that removes its entry follows what `list_del` has left in it. -/
theorem plain_loops_fault {m : Memory α} (hm : m.Holds C) (hl : C head = some l) (hne : l ≠ []) :
    (listForEach listDel (.node head) (fuel + 2)).run m = .error (.fault .listPoison1) ∧
      (listForEachPrev listDel (.node head) (fuel + 2)).run m = .error (.fault .listPoison2) := by
  have hloop : ∀ (load : Ptr α → ListM α (Ptr α)) (w : WildPointer) (e : α), e ∈ l →
      (∀ m : Memory α, ∃ q, (load (.node e)).run m = .ok (q, m)) →
      (∀ m : Memory α, Poisoned m e → (load (.node e)).run m = .ok (.wild w, m)) →
      (∀ m : Memory α, (load (.wild w)).run m = .error (.fault w)) →
      (forEachFrom load listDel (.node head) (fuel + 2) (.node e)).run m =
        .error (.fault w) := by
    intro load w e he hpre hload hwild
    obtain ⟨q, hq⟩ := hpre m
    obtain ⟨m', hdel, _, _, hpoison⟩ := listDel_poisons hm (.inl ⟨head, l, hl, he⟩)
    have hhead : Pointer.node e ≠ (.node head : Ptr α) := fun h =>
      (hm.ring hl).notMem (Pointer.node.inj h ▸ he)
    rw [forEachFrom]
    apply Exec.run_seq hq
    rw [if_neg hhead]
    apply Exec.run_seq hdel
    apply Exec.run_seq (hload m' hpoison)
    exact Exec.run_bind_error _ (Exec.run_bind_error _ (hwild m'))
  constructor
  · rw [listForEach]
    apply Exec.run_seq loadNext_node
    rw [(hm.ring hl).next_head]
    refine hloop loadNext .listPoison1 _ ?_ (fun m => ⟨_, loadNext_node⟩) ?_ fun _ => rfl
    · cases l with
      | nil => exact absurd rfl hne
      | cons a l => simp
    · intro m hpoison
      rw [loadNext_node, hpoison.1]
  · rw [listForEachPrev]
    apply Exec.run_seq loadPrev_node
    rw [(hm.ring hl).prev_head]
    refine hloop loadPrev .listPoison2 _ ?_ (fun m => ⟨_, loadPrev_node⟩) ?_ fun _ => rfl
    · rcases List.eq_nil_or_concat l with rfl | ⟨l, a, rfl⟩
      · exact absurd rfl hne
      · rw [List.concat_eq_append, List.getLastD_concat]
        simp
    · intro m hpoison
      rw [loadPrev_node, hpoison.2]

theorem plain_loops_fault_first :
    ∃ m : Memory (Fin 5),
      (listForEach listDel (.node 0) 3).run m = .error (.fault .listPoison1) := by
  obtain ⟨m, hm⟩ := twoLists_hold
  exact ⟨m, (plain_loops_fault hm twoLists_first (List.cons_ne_nil _ _)).1⟩

end Removal

section Moves

variable {α : Type} [DecidableEq α] {C : Contents α} {head other : α} {l u : List α} {fuel : Nat}

/-- `move` takes an entry out of its list and puts it into the list of `other`, as `put` says. -/
def Moves (move : Ptr α → Ptr α → ListM α Unit) (put : α → List α → List α) : Prop :=
  ∀ {C : Contents α} {e head : α} {l : List α}, C.Entry e ∨ C e = some [] → e ≠ head →
    C head = some l →
    Refines C (move (.node e) (.node head)) () ((C.detach e).modify head (put e)) [e]

variable {move : Ptr α → Ptr α → ListM α Unit} {put : α → List α → List α}

theorem Moves.round {D : Contents α} {e : α} {k r : List α} (hmove : Moves move put)
    (hne : head ≠ other) (hhead : D head = some (k ++ e :: r)) (hother : D other = some u) :
    Refines D (move (.node e) (.node other)) ()
      ((D.set head (k ++ r)).set other (put e u)) [e] := by
  intro m hm
  have he : e ≠ other := by
    intro heq
    have hnone := hm.entry_none (e := e) hhead (by simp)
    rw [heq, hother] at hnone
    cases hnone
  have hother' : D.set head (k ++ r) other = some u := (Contents.set_of_ne hne.symm).trans hother
  have hround := hmove (.inl ⟨head, _, hhead, by simp⟩) he hother
  rw [hm.detach_entry hhead, Contents.modify_some hother'] at hround
  exact hround m hm

/-- Both lists once the entries `k` have been moved, in this order. -/
def moved (C : Contents α) (head other : α) (put : α → List α → List α) (k r u : List α) :
    Contents α :=
  (C.set head r).set other (k.foldl (fun u e => put e u) u)

theorem Moves.round_moved {e : α} {k d r : List α} (hmove : Moves move put) (hne : head ≠ other) :
    Refines (moved C head other put k (d ++ e :: r) u) (move (.node e) (.node other)) ()
      (moved C head other put (k ++ [e]) (d ++ r) u) [e] := by
  have hhead : moved C head other put k (d ++ e :: r) u head = some (d ++ e :: r) :=
    (Contents.set_of_ne hne).trans Contents.set_self
  have hround := hmove.round hne hhead Contents.set_self
  rw [moved, Contents.set_comm hne, Contents.set_set, Contents.set_set] at hround
  rw [moved, moved, List.foldl_append]
  exact hround

theorem moved_start (hhead : C head = some l) (hother : C other = some u) :
    moved C head other put [] l u = C := by
  rw [moved, Contents.set_same hhead, List.foldl_nil, Contents.set_same hother]

theorem moved_head (hne : head ≠ other) {k r : List α} :
    moved C head other put k r u head = some r :=
  (Contents.set_of_ne hne).trans Contents.set_self

theorem Moves.listForEachSafe (hmove : Moves move put) (hne : head ≠ other)
    (hhead : C head = some l) (hother : C other = some u) (hnot : head ∉ l)
    (hfuel : l.length < fuel) :
    Refines C (listForEachSafe (fun pos => move pos (.node other)) (.node head) fuel)
      (l.map fun _ => ()) (moved C head other put l [] u) l := by
  let D (rest : List α) : Contents α := moved C head other put (visited l rest) rest u
  have hloop : Refines (D l)
      (Lists.listForEachSafe (fun pos => move pos (.node other)) (.node head) fuel)
      (l.map fun _ => ()) (D []) l :=
    listForEachSafe_refines hnot (moved_head hne) (fun rest _ => ⟨[], moved_head hne⟩) ?_ hfuel
  · simp only [D, visited_self, visited_nil, moved_start hhead hother] at hloop
    exact hloop
  · intro e rest hsuffix
    obtain ⟨k, rfl⟩ := hsuffix
    simp only [D, visited_append, visited_append_cons]
    exact (hmove.round_moved (d := []) hne).mono (by simp)

theorem Moves.listForEachPrevSafe (hmove : Moves move put) (hne : head ≠ other)
    (hhead : C head = some l) (hother : C other = some u) (hnot : head ∉ l)
    (hfuel : l.length < fuel) :
    Refines C (listForEachPrevSafe (fun pos => move pos (.node other)) (.node head) fuel)
      (l.reverse.map fun _ => ()) (moved C head other put l.reverse [] u) l := by
  let D (rest : List α) : Contents α :=
    moved C head other put (visited l.reverse rest) rest.reverse u
  have hloop : Refines (D l.reverse)
      (Lists.listForEachPrevSafe (fun pos => move pos (.node other)) (.node head) fuel)
      (l.reverse.map fun _ => ()) (D []) l :=
    listForEachPrevSafe_refines (by simpa using hnot) (moved_head hne)
      (fun rest _ => ⟨[], (moved_head hne).trans (by rw [List.append_nil])⟩) ?_
      (by simpa using hfuel)
  · simp only [D, visited_self, visited_nil, List.reverse_reverse, List.reverse_nil,
      moved_start hhead hother] at hloop
    exact hloop
  · intro e rest hsuffix
    obtain ⟨k, hk⟩ := hsuffix
    have hround := hmove.round_moved (C := C) (e := e) (k := k) (d := rest.reverse) (r := [])
      (u := u) hne
    have hmem : e ∈ l := List.mem_reverse.mp (by simp [← hk])
    rw [List.append_nil] at hround
    simp only [D, ← hk, visited_append, visited_append_cons, List.reverse_cons]
    exact hround.mono (by simpa using hmem)

theorem moved_of_ne {k : α} (hk : k ≠ head) (hk' : k ≠ other) {v r : List α} :
    moved C head other put v r u k = C k :=
  (Contents.set_of_ne hk').trans (Contents.set_of_ne hk)

theorem moved_all {p : α → List α → List α} (hne : head ≠ other) (hhead : C head = some l)
    (hother : C other = some u) {v : List α}
    (hperm : ∀ a, a ∈ l ∨ a ∈ u → a ∈ v.foldl (fun u e => p e u) u) :
    (∀ a, (moved C head other p v [] u).Free a → C.Free a) ∧
      (∀ a ∈ l, ¬(moved C head other p v [] u).Free a) ∧
      ¬(moved C head other p v [] u).Free head := by
  have hl : moved C head other p v [] u head = some [] := moved_head hne
  have hu : moved C head other p v [] u other = some (v.foldl (fun u e => p e u) u) :=
    Contents.set_self
  refine ⟨?_, ?_, Contents.not_free hl List.mem_cons_self⟩
  · intro a ha k r hk hmem
    by_cases hkh : k = head
    · subst hkh
      rw [hhead] at hk
      cases hk
      rcases List.mem_cons.mp hmem with rfl | hmem
      · exact ha a _ hl List.mem_cons_self
      · exact ha other _ hu (List.mem_cons_of_mem _ (hperm a (.inl hmem)))
    · by_cases hko : k = other
      · subst hko
        rw [hother] at hk
        cases hk
        rcases List.mem_cons.mp hmem with rfl | hmem
        · exact ha a _ hu List.mem_cons_self
        · exact ha k _ hu (List.mem_cons_of_mem _ (hperm a (.inr hmem)))
      · exact ha k r ((moved_of_ne hkh hko).trans hk) hmem
  · intro a ha
    exact Contents.not_free hu (List.mem_cons_of_mem _ (hperm a (.inl ha)))

/-- The loops that move every entry of one list to another, with `list_move_tail` forwards and with
`list_move` backwards, do exactly what the functions do that splice the list; with `list_move`
forwards they reverse it. -/
theorem moving_loops {m : Memory α} (hm : m.Holds C) (hhead : C head = some l)
    (hother : C other = some u) (hne : head ≠ other) (hfuel : l.length < fuel) :
    (∃ r m', (Lists.listForEachSafe (fun pos => listMoveTail pos (.node other)) (.node head)
        fuel).run m = .ok (r, m') ∧
      (listSpliceTailInit (.node head) (.node other)).run m = .ok ((), m') ∧
      m'.Holds ((C.set head []).set other (u ++ l))) ∧
    (∃ r m', (Lists.listForEachPrevSafe (fun pos => listMove pos (.node other)) (.node head)
        fuel).run m = .ok (r, m') ∧
      (listSpliceInit (.node head) (.node other)).run m = .ok ((), m') ∧
      m'.Holds ((C.set head []).set other (l ++ u))) ∧
    ∃ r m', (Lists.listForEachSafe (fun pos => listMove pos (.node other)) (.node head)
        fuel).run m = .ok (r, m') ∧
      m'.Holds ((C.set head []).set other (l.reverse ++ u)) := by
  have hnot : head ∉ l := (hm.ring hhead).notMem
  have hother' : C.set head [] other = some u := (Contents.set_of_ne hne.symm).trans hother
  have hmove : Moves (α := α) listMove (· :: ·) := listMove_refines
  have hmoveTail : Moves (α := α) listMoveTail fun e u => u ++ [e] := listMoveTail_refines
  have htail : l.foldl (fun u e => u ++ [e]) u = u ++ l := by simp [← List.flatMap_def]
  have hhead' : l.reverse.foldl (fun u e => e :: u) u = l ++ u := by simp
  have hreversed : l.foldl (fun u e => e :: u) u = l.reverse ++ u := by simp
  refine ⟨?_, ?_, ?_⟩
  · have hloop := hmoveTail.listForEachSafe hne hhead hother hnot hfuel
    have hsplice := listSpliceTailInit_refines hhead hother hne
    obtain ⟨hfree, hargs, hargs'⟩ := moved_all (p := fun e u => u ++ [e]) (v := l) hne hhead
      hother (by simp [htail, or_comm])
    rw [Contents.modify_some hother'] at hsplice
    rw [moved, htail] at hloop hfree hargs hargs'
    obtain ⟨m', hrun, hrun', hm'⟩ :=
      hloop.same_memory hsplice hfree hargs (by simpa using hargs') hm
    exact ⟨_, m', hrun, hrun', hm'⟩
  · have hloop := hmove.listForEachPrevSafe hne hhead hother hnot hfuel
    have hsplice := listSpliceInit_refines hhead hother hne
    obtain ⟨hfree, hargs, hargs'⟩ := moved_all (p := (· :: ·)) (v := l.reverse) hne hhead
      hother (by simp [hhead'])
    rw [Contents.modify_some hother'] at hsplice
    rw [moved, hhead'] at hloop hfree hargs hargs'
    obtain ⟨m', hrun, hrun', hm'⟩ :=
      hloop.same_memory hsplice hfree hargs (by simpa using hargs') hm
    exact ⟨_, m', hrun, hrun', hm'⟩
  · obtain ⟨m', hrun, hm', _⟩ := hmove.listForEachSafe hne hhead hother hnot hfuel m hm
    rw [moved, hreversed] at hm'
    exact ⟨_, m', hrun, hm'⟩

theorem moving_loops_two :
    ∃ (m m' : Memory (Fin 5)),
      (listSpliceTailInit (.node 0) (.node 1)).run m = .ok ((), m') ∧ m'.Ring 1 [4, 2, 3] := by
  obtain ⟨m, hm⟩ := twoLists_hold
  obtain ⟨⟨_, m', _, hrun, hm'⟩, _⟩ := moving_loops hm twoLists_first twoLists_second
    (by decide) (show 2 < 3 by decide)
  exact ⟨m, m', hrun, hm'.ring rfl⟩

end Moves

end Lists

end TxDriver
