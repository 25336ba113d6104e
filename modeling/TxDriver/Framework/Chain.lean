import TxDriver.Framework.Ring

/-!
# Lists that end in a null pointer

A pointer to a node is kept in a slot, that of a head or that of another node, and every node has
a pointer back to the slot that leads to it. All that is ever done to the pointers is to let a slot
lead to a node and the node back to the slot: two parts of a list are joined that way. Lists
without common nodes share a memory; `Holds` says what all of them contain.
-/

namespace TxDriver

/-- Where a pointer to a node is kept. -/
inductive Slot (η α : Type) where
  | first (h : η)
  | next (a : α)
  deriving DecidableEq

structure Slots (ω η α : Type) where
  value : Slot η α → Pointer ω α
  back : α → Pointer ω (Slot η α)

/-- What a slot holds when the nodes of the list come next. -/
def Pointer.firstOf {ω α : Type} (null : ω) : List α → Pointer ω α
  | [] => .wild null
  | a :: _ => .node a

namespace Slot

variable {η α : Type}

def last : Slot η α → List α → Slot η α
  | s, [] => s
  | _, a :: l => (Slot.next a).last l

/-- The slots that lead to the nodes of the list. -/
def leading : Slot η α → List α → List (Slot η α)
  | _, [] => []
  | s, a :: l => s :: (Slot.next a).leading l

def Among (hs : List η) (as : List α) : Slot η α → Prop
  | .first h => h ∈ hs
  | .next a => a ∈ as

variable {s t : Slot η α} {h : η} {a : α} {l r : List α}

@[simp] theorem last_nil : s.last [] = s := rfl

theorem last_append : s.last (l ++ r) = (s.last l).last r := by
  induction l generalizing s with
  | nil => rfl
  | cons a l ih => exact ih

@[simp] theorem last_concat : s.last (l ++ [a]) = .next a := by
  rw [last_append]
  rfl

theorem leading_concat_last : s.leading l ++ [s.last l] = s :: l.map .next := by
  induction l generalizing s with
  | nil => rfl
  | cons a l ih => simp [leading, last, ih]

theorem leading_subset : s.leading l ⊆ s :: l.map .next := by
  rw [← leading_concat_last]
  exact List.subset_append_left _ _

theorem last_mem : s.last l ∈ s :: l.map .next := by
  rw [← leading_concat_last]
  simp

theorem last_notMem_leading (hn : (s :: l.map .next).Nodup) : s.last l ∉ s.leading l := by
  rw [← leading_concat_last] at hn
  exact fun hm => (List.nodup_append.mp hn).2.2 _ hm _ (by simp) rfl

theorem nodup_first (hl : l.Nodup) : (Slot.first h :: l.map .next).Nodup :=
  List.nodup_cons.mpr ⟨by simp, hl.map fun _ _ => Slot.next.inj⟩

theorem last_among : ((Slot.first h).last l).Among [h] (l ++ r) := by
  have hmem := last_mem (s := Slot.first h) (l := l)
  rcases List.mem_cons.mp hmem with hs | hs
  · rw [hs]
    exact List.mem_singleton_self h
  · obtain ⟨a, ha, hs⟩ := List.mem_map.mp hs
    rw [← hs]
    exact List.mem_append_left r ha

end Slot

namespace Slots

section Shapes

variable {ω η α : Type}

/-- From `s` on the nodes of `l` follow one another. -/
def Path (m : Slots ω η α) : Slot η α → List α → Prop
  | _, [] => True
  | s, a :: l => m.value s = .node a ∧ m.back a = .node s ∧ m.Path (.next a) l

/-- From `s` on the nodes of `l` follow one another, and no others. -/
def Chain (m : Slots ω η α) (null : ω) : Slot η α → List α → Prop
  | s, [] => m.value s = .wild null
  | s, a :: l => m.value s = .node a ∧ m.back a = .node s ∧ m.Chain null (.next a) l

/-- From its first node on the nodes of `l` follow one another, and no others. -/
def Tail (m : Slots ω η α) (null : ω) : List α → Prop
  | [] => True
  | a :: l => m.Chain null (.next a) l

/-- `m'` differs from `m` at these heads and nodes only. -/
structure Off (m m' : Slots ω η α) (hs : List η) (as : List α) : Prop where
  value : ∀ s : Slot η α, ¬s.Among hs as → m'.value s = m.value s
  back : ∀ a ∉ as, m'.back a = m.back a

variable {m m' : Slots ω η α} {null : ω} {s : Slot η α} {h : η} {e : α} {l r as : List α}
  {hs : List η}

theorem Off.refl : m.Off m hs as := ⟨fun _ _ => rfl, fun _ _ => rfl⟩

theorem chain_append :
    m.Chain null s (l ++ r) ↔ m.Path s l ∧ m.Chain null (s.last l) r := by
  induction l generalizing s with
  | nil => simp [Path]
  | cons a l ih => simp [Path, Chain, Slot.last, ih, and_assoc]

theorem Chain.value_last (hc : m.Chain null s (l ++ r)) :
    m.value (s.last l) = .firstOf null r := by
  obtain ⟨_, hr⟩ := chain_append.mp hc
  cases r with
  | nil => exact hr
  | cons a r => exact hr.1

theorem Chain.value_next (hc : m.Chain null s (l ++ e :: r)) :
    m.value (.next e) = .firstOf null r := by
  rw [List.append_cons] at hc
  have hvalue := hc.value_last
  rwa [Slot.last_concat] at hvalue

theorem Chain.back_entry (hc : m.Chain null s (l ++ e :: r)) : m.back e = .node (s.last l) :=
  (chain_append.mp hc).2.2.1

theorem Chain.tail (hc : m.Chain null s (l ++ r)) : m.Tail null r := by
  obtain ⟨_, hr⟩ := chain_append.mp hc
  cases r with
  | nil => trivial
  | cons a r => exact hr.2.2

theorem Chain.off (hc : m.Chain null s l) (hoff : m.Off m' hs as) (hstart : ¬s.Among hs as)
    (hdis : ∀ a ∈ l, a ∉ as) : m'.Chain null s l := by
  induction l generalizing s with
  | nil => exact (hoff.value s hstart).trans hc
  | cons a l ih =>
    obtain ⟨hvalue, hback, hrest⟩ := hc
    have ha : a ∉ as := hdis a List.mem_cons_self
    refine ⟨(hoff.value s hstart).trans hvalue, (hoff.back a ha).trans hback, ih hrest ha ?_⟩
    exact fun b hb => hdis b (List.mem_cons_of_mem a hb)

theorem Tail.off (ht : m.Tail null l) (hoff : m.Off m' hs as) (hdis : ∀ a ∈ l, a ∉ as) :
    m'.Tail null l := by
  cases l with
  | nil => trivial
  | cons a l =>
    have ha : ¬(Slot.next (η := η) a).Among hs as := hdis a List.mem_cons_self
    exact Chain.off ht hoff ha fun b hb => hdis b (List.mem_cons_of_mem a hb)

theorem mem_of_firstOf (he : Pointer.firstOf null r = .node e) : e ∈ r := by
  cases r with
  | nil => cases he
  | cons b r =>
    cases he
    exact List.mem_cons_self

theorem firstOf_ne_node (he : e ∉ r) : Pointer.firstOf null r ≠ .node e := mt mem_of_firstOf he

end Shapes

section Changes

variable {ω η α : Type} [DecidableEq α]

def setBack (m : Slots ω η α) (a : α) (q : Pointer ω (Slot η α)) : Slots ω η α :=
  { m with back := Function.update m.back a q }

variable {m m' : Slots ω η α} {null : ω} {s t : Slot η α} {h : η} {a b e new : α}
  {l r as : List α} {hs : List η} {p : Pointer ω α} {q : Pointer ω (Slot η α)}

@[simp] theorem setBack_back_self : (m.setBack a q).back a = q := Function.update_self ..

@[simp] theorem setBack_back_of_ne (hb : b ≠ a) : (m.setBack a q).back b = m.back b :=
  Function.update_of_ne hb ..

@[simp] theorem setBack_value : (m.setBack a q).value = m.value := rfl

theorem setBack_comm {q' : Pointer ω (Slot η α)} (hne : a ≠ b) :
    (m.setBack a q).setBack b q' = (m.setBack b q').setBack a q :=
  congrArg (Slots.mk m.value) (Function.update_comm hne ..)

theorem Off.setBack (hoff : m.Off m' hs as) (ha : a ∈ as) : m.Off (m'.setBack a q) hs as := by
  refine ⟨hoff.value, fun b hb => ?_⟩
  have hne : b ≠ a := fun h => hb (h ▸ ha)
  rw [setBack_back_of_ne hne, hoff.back b hb]

variable [DecidableEq η]

def setValue (m : Slots ω η α) (s : Slot η α) (p : Pointer ω α) : Slots ω η α :=
  { m with value := Function.update m.value s p }

/-- Lets `s` lead to where `p` does, and the node there back to `s`. -/
def connect (m : Slots ω η α) (s : Slot η α) : Pointer ω α → Slots ω η α
  | .node a => (m.setValue s (.node a)).setBack a (.node s)
  | .wild w => m.setValue s (.wild w)

@[simp] theorem setValue_value_self : (m.setValue s p).value s = p := Function.update_self ..

@[simp] theorem setValue_value_of_ne (ht : t ≠ s) : (m.setValue s p).value t = m.value t :=
  Function.update_of_ne ht ..

@[simp] theorem setValue_back : (m.setValue s p).back = m.back := rfl

theorem setBack_setValue : (m.setBack a q).setValue s p = (m.setValue s p).setBack a q := rfl

@[simp] theorem connect_value_self : (m.connect s p).value s = p := by
  cases p <;> simp [connect]

@[simp] theorem connect_value_of_ne (ht : t ≠ s) : (m.connect s p).value t = m.value t := by
  cases p <;> simp [connect, ht]

@[simp] theorem connect_back_self : (m.connect s (.node a)).back a = .node s := by
  simp [connect]

@[simp] theorem connect_back_of_ne (hb : p ≠ .node b) : (m.connect s p).back b = m.back b := by
  cases p with
  | node a =>
    have hba : b ≠ a := fun h => hb (h ▸ rfl)
    simp [connect, hba]
  | wild w => rfl

theorem setValue_connect {p' : Pointer ω α} (hne : s ≠ t) :
    (m.connect s p).setValue t p' = (m.setValue t p').connect s p := by
  have hvalue := Function.update_comm hne p p' m.value
  cases p with
  | node a => exact congrArg (Slots.mk · _) hvalue
  | wild w => exact congrArg (Slots.mk · _) hvalue

theorem Off.setValue (hoff : m.Off m' hs as) (hin : s.Among hs as) :
    m.Off (m'.setValue s p) hs as := by
  refine ⟨fun t ht => ?_, hoff.back⟩
  have hne : t ≠ s := fun h => ht (h ▸ hin)
  rw [setValue_value_of_ne hne, hoff.value t ht]

theorem Off.connect (hoff : m.Off m' hs as) (hin : s.Among hs as)
    (hp : ∀ a, p = .node a → a ∈ as) : m.Off (m'.connect s p) hs as := by
  cases p with
  | node a => exact (hoff.setValue hin).setBack (hp a rfl)
  | wild w => exact hoff.setValue hin

theorem Path.connect (hl : m.Path s l) (ht : t ∉ s.leading l) (hp : ∀ a ∈ l, p ≠ .node a) :
    (m.connect t p).Path s l := by
  induction l generalizing s with
  | nil => trivial
  | cons a l ih =>
    obtain ⟨hvalue, hback, hrest⟩ := hl
    rw [Slot.leading, List.mem_cons, not_or] at ht
    refine ⟨?_, ?_, ih hrest ht.2 fun b hb => hp b (List.mem_cons_of_mem a hb)⟩
    · rw [connect_value_of_ne (Ne.symm ht.1), hvalue]
    · rw [connect_back_of_ne (hp a List.mem_cons_self), hback]

theorem Chain.connect (hl : m.Chain null s l) (ht : t ∉ s :: l.map .next)
    (hp : ∀ a ∈ l, p ≠ .node a) : (m.connect t p).Chain null s l := by
  induction l generalizing s with
  | nil =>
    have hne : s ≠ t := fun h => ht (h ▸ List.mem_cons_self)
    exact (connect_value_of_ne hne).trans hl
  | cons a l ih =>
    obtain ⟨hvalue, hback, hrest⟩ := hl
    rw [List.mem_cons, not_or] at ht
    refine ⟨?_, ?_, ih hrest ht.2 fun b hb => hp b (List.mem_cons_of_mem a hb)⟩
    · rw [connect_value_of_ne (Ne.symm ht.1), hvalue]
    · rw [connect_back_of_ne (hp a List.mem_cons_self), hback]

theorem Chain.join (hl : m.Path s l) (hr : m.Tail null r)
    (hn : (s :: (l ++ r).map .next).Nodup) :
    (m.connect (s.last l) (.firstOf null r)).Chain null s (l ++ r) := by
  rw [List.map_append, ← List.cons_append] at hn
  obtain ⟨hnl, hnr, hapart⟩ := List.nodup_append.mp hn
  refine chain_append.mpr ⟨hl.connect (Slot.last_notMem_leading hnl) ?_, ?_⟩
  · intro a ha
    refine firstOf_ne_node fun har => ?_
    exact hapart (.next a) (by simp [ha]) (.next a) (by simp [har]) rfl
  · cases r with
    | nil => exact connect_value_self
    | cons b r =>
      refine ⟨connect_value_self, connect_back_self, Chain.connect hr ?_ ?_⟩
      · exact fun hm => hapart _ Slot.last_mem _ hm rfl
      · intro a ha hab
        exact (List.nodup_cons.mp hnr).1 (by simpa [Pointer.node.inj hab] using ha)

theorem Chain.remove (hc : m.Chain null s (l ++ e :: r))
    (hn : (s :: (l ++ e :: r).map .next).Nodup) :
    (m.connect (s.last l) (.firstOf null r)).Chain null s (l ++ r) := by
  have hsub : (s :: (l ++ r).map .next).Nodup := hn.sublist (by simp)
  obtain ⟨hl, _⟩ := chain_append.mp hc
  rw [List.append_cons] at hc
  exact .join hl hc.tail hsub

theorem Chain.insert (hc : m.Chain null s (l ++ r))
    (hn : (s :: (l ++ new :: r).map .next).Nodup) :
    ((m.connect (.next new) (.firstOf null r)).connect (s.last l) (.node new)).Chain null s
      (l ++ new :: r) := by
  have hn' := hn
  rw [List.map_append, ← List.cons_append] at hn'
  obtain ⟨_, hnr, hapart⟩ := List.nodup_append.mp hn'
  have htail : (m.connect (.next new) (.firstOf null r)).Chain null (.next new) r :=
    .join (l := []) trivial hc.tail hnr
  refine .join (r := new :: r) ((chain_append.mp hc).1.connect ?_ ?_) htail hn
  · exact fun hm => hapart _ (Slot.leading_subset hm) (.next new) (by simp) rfl
  · intro a ha
    refine firstOf_ne_node fun har => ?_
    exact hapart (.next a) (by simp [ha]) (.next a) (by simp [har]) rfl

end Changes

end Slots

/-- What the lists of a memory contain, by their heads. -/
abbrev Chained (η α : Type) := η → Option (List α)

namespace Chained

variable {η α : Type}

def Head (C : Chained η α) (h : η) : Prop := ∃ l, C h = some l

def On (C : Chained η α) (a : α) : Prop := ∃ h l, C h = some l ∧ a ∈ l

/-- `a` is on no list but that of `h`. -/
def Private (C : Chained η α) (h : η) (a : α) : Prop := ∀ k l, k ≠ h → C k = some l → a ∉ l

instance decidableHead (C : Chained η α) (h : η) : Decidable (C.Head h) :=
  decidable_of_iff ((C h).isSome = true) Option.isSome_iff_exists

instance decidableOn [Fintype η] [DecidableEq α] (C : Chained η α) (a : α) : Decidable (C.On a) :=
  inferInstanceAs (Decidable (∃ h, ∃ l ∈ C h, a ∈ l))

def edit (C : Chained η α) (f : List α → List α) : Chained η α := fun h => (C h).map f

variable [DecidableEq η]

def set (C : Chained η α) (h : η) (l : List α) : Chained η α := Function.update C h (some l)

end Chained

/-- The lists of the memory are those of `C`, and no node is on two of them or twice on one. -/
structure Slots.Holds {ω η α : Type} (m : Slots ω η α) (null : ω) (C : Chained η α) : Prop where
  chain : ∀ {h l}, C h = some l → m.Chain null (.first h) l
  nodup : ∀ {h l}, C h = some l → l.Nodup
  apart : ∀ {h l a}, C h = some l → a ∈ l → C.Private h a

section Holds

variable {ω η α : Type} {m m' : Slots ω η α} {null : ω} {C : Chained η α} {h k : η} {a e : α}
  {l r as v : List α} {f : List α → List α}

theorem Slots.Holds.empty : m.Holds null fun _ => none := ⟨nofun, nofun, nofun⟩

theorem Slots.Holds.off (hC : m.Holds null C) (hoff : m.Off m' [] as) (has : ∀ a ∈ as, ¬C.On a) :
    m'.Holds null C where
  chain {_ l} hk := (hC.chain hk).off hoff List.not_mem_nil fun a ha hm => has a hm ⟨_, l, hk, ha⟩
  nodup := hC.nodup
  apart := hC.apart

theorem Chained.private_of_not_on (ha : ¬C.On a) (h : η) : C.Private h a :=
  fun k l _ hk hm => ha ⟨k, l, hk, hm⟩

variable [DecidableEq η]

@[simp] theorem Chained.set_self : C.set h l h = some l := Function.update_self ..

@[simp] theorem Chained.set_of_ne (hk : k ≠ h) : C.set h l k = C k := Function.update_of_ne hk ..

theorem Chained.set_eq_some :
    C.set h l k = some r ↔ k = h ∧ l = r ∨ k ≠ h ∧ C k = some r := by
  by_cases hkh : k = h <;> simp [hkh]

theorem Chained.set_set : (C.set h r).set h l = C.set h l := Function.update_idem ..

theorem Chained.set_same (hh : C h = some l) : C.set h l = C := by
  rw [set, ← hh]
  exact Function.update_eq_self ..

theorem Slots.Holds.set (hC : m.Holds null C) (hc : m'.Chain null (.first h) l) (hn : l.Nodup)
    (hoff : m.Off m' [h] as) (hsub : l ⊆ as) (hown : ∀ a ∈ as, C.Private h a) :
    m'.Holds null (C.set h l) where
  chain {k u} hk := by
    rcases Chained.set_eq_some.mp hk with ⟨rfl, rfl⟩ | ⟨hne, hk⟩
    · exact hc
    · exact (hC.chain hk).off hoff (mt List.mem_singleton.mp hne) fun a ha hm =>
        hown a hm k u hne hk ha
  nodup {k u} hk := by
    rcases Chained.set_eq_some.mp hk with ⟨rfl, rfl⟩ | ⟨_, hk⟩
    · exact hn
    · exact hC.nodup hk
  apart {k u a} hk ha k' v hne hk' hm := by
    rcases Chained.set_eq_some.mp hk with ⟨rfl, rfl⟩ | ⟨hkh, hold⟩
    · rw [Chained.set_of_ne hne] at hk'
      exact hown a (hsub ha) k' v hne hk' hm
    · rcases Chained.set_eq_some.mp hk' with ⟨rfl, rfl⟩ | ⟨_, hold'⟩
      · exact hown a (hsub hm) k u hne.symm hold ha
      · exact hC.apart hold ha k' v hne hold' hm

theorem Slots.Holds.edit_eq_set (hC : m.Holds null C) (hh : C h = some (l ++ e :: r))
    (hf : ∀ u, e ∉ u → f u = u) (hv : f (l ++ e :: r) = v) : C.edit f = C.set h v := by
  funext k
  rw [Chained.edit]
  by_cases hkh : k = h
  · rw [hkh, hh, Chained.set_self, Option.map_some, hv]
  · rw [Chained.set_of_ne hkh]
    cases hk : C k with
    | none => rfl
    | some u => rw [Option.map_some, hf u (hC.apart hh (by simp) k u hkh hk)]

end Holds

end TxDriver
