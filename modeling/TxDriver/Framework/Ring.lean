import Mathlib.Data.Fintype.Basic
import Mathlib.Data.List.Chain
import Mathlib.Data.List.Infix
import Mathlib.Data.List.Nodup
import Mathlib.Logic.Function.Basic

/-!
# Circular doubly linked lists

Nodes with a pointer in each direction. A pointer leads to a node or is one of the wild values
that no node has. All that is ever done to the pointers is to let one node follow another: paths
are taken apart and joined again that way, and a ring is a path from its head back to it. Rings
without common nodes share a memory; `Holds` says what all of them contain.
-/

namespace TxDriver

inductive Pointer (ω α : Type) where
  | node (a : α)
  | wild (w : ω)
  deriving DecidableEq

structure Links (ω α : Type) where
  next : α → Pointer ω α
  prev : α → Pointer ω α

namespace Links

section Ends

variable {α : Type} {h x y : α} {l r : List α}

theorem notMem_dropLast_of_nodup (hl : l.Nodup) (hx : x ∈ l.getLast?) : x ∉ l.dropLast := by
  rw [← List.dropLast_append_getLast? x hx] at hl
  exact fun hm => (List.nodup_append.mp hl).2.2 x hm x (by simp) rfl

theorem notMem_tail_of_nodup (hl : l.Nodup) (hy : y ∈ l.head?) : y ∉ l.tail := by
  cases l with
  | nil => cases hy
  | cons a l =>
    cases hy
    exact (List.nodup_cons.mp hl).1

theorem getLastD_mem_getLast? (h : α) (l : List α) : l.getLastD h ∈ (h :: l).getLast? := by
  rw [List.getLast?_cons, List.getLastD_eq_getLast?]
  rfl

theorem headD_mem_head? (h : α) (l : List α) : l.headD h ∈ (l ++ [h]).head? := by
  cases l <;> rfl

theorem headD_mem (h : α) (l : List α) : l.headD h ∈ l ++ [h] :=
  List.mem_of_mem_head? (headD_mem_head? h l)

theorem getLastD_mem_of_subset (hs : h :: l ⊆ r) : l.getLastD h ∈ r := hs List.getLastD_mem_cons

theorem headD_mem_of_subset (hs : h :: l ⊆ r) : l.headD h ∈ r :=
  hs (by simpa [or_comm] using headD_mem h l)

theorem nodup_concat_of_nodup_cons (hl : (h :: l).Nodup) : (l ++ [h]).Nodup := by
  rw [List.nodup_append_comm]
  exact hl

theorem getLastD_notMem_dropLast (hl : (h :: l).Nodup) : l.getLastD h ∉ (h :: l).dropLast :=
  notMem_dropLast_of_nodup hl (getLastD_mem_getLast? h l)

theorem headD_notMem_tail (hl : (h :: l).Nodup) : l.headD h ∉ (l ++ [h]).tail :=
  notMem_tail_of_nodup (nodup_concat_of_nodup_cons hl) (headD_mem_head? h l)

theorem getLastD_notMem (hl : (h :: (l ++ r)).Nodup) : l.getLastD h ∉ r := by
  rw [← List.cons_append] at hl
  exact fun hm => (List.nodup_append.mp hl).2.2 _ List.getLastD_mem_cons _ hm rfl

theorem headD_notMem (hl : (h :: (l ++ r)).Nodup) : r.headD h ∉ l := by
  have hl' := nodup_concat_of_nodup_cons hl
  rw [List.append_assoc] at hl'
  exact fun hm => (List.nodup_append.mp hl').2.2 _ hm _ (headD_mem h r) rfl

theorem headD_of_ne_nil (hl : l ≠ []) (x y : α) : l.headD x = l.headD y := by
  cases l with
  | nil => exact absurd rfl hl
  | cons a l => rfl

theorem getLastD_of_ne_nil (hl : l ≠ []) (x y : α) : l.getLastD x = l.getLastD y := by
  cases l with
  | nil => exact absurd rfl hl
  | cons a l => rfl

theorem getLastD_append (hl : r ≠ []) : (l ++ r).getLastD h = r.getLastD h := by
  rcases List.eq_nil_or_concat r with rfl | ⟨u, a, rfl⟩
  · exact absurd rfl hl
  · rw [List.concat_eq_append, ← List.append_assoc, List.getLastD_concat, List.getLastD_concat]

end Ends

section Shapes

variable {ω α : Type}

/-- `b` follows `a`, and both know it. -/
structure Linked (m : Links ω α) (a b : α) : Prop where
  next : m.next a = .node b
  prev : m.prev b = .node a

abbrev Path (m : Links ω α) (l : List α) : Prop := l.IsChain m.Linked

/-- From `h` on the nodes of `l` follow one another, and `h` follows the last of them. -/
structure Ring (m : Links ω α) (h : α) (l : List α) : Prop where
  path : m.Path (h :: (l ++ [h]))
  nodup : (h :: l).Nodup

variable {m m' : Links ω α} {h e : α} {l r : List α}

/-- `m'` differs from `m` at nodes of `l` only. -/
def Off (m m' : Links ω α) (l : List α) : Prop :=
  ∀ x ∉ l, m'.next x = m.next x ∧ m'.prev x = m.prev x

theorem Off.refl : m.Off m l := fun _ _ => ⟨rfl, rfl⟩

theorem Ring.off (hr : m.Ring h l) (hoff : m.Off m' r) (hdis : ∀ x ∈ h :: l, x ∉ r) :
    m'.Ring h l := by
  have hpath : m'.Path (h :: (l ++ [h])) := by
    refine hr.path.imp_of_mem_imp ?_
    intro a b ha hb hab
    have hmem : ∀ x ∈ h :: (l ++ [h]), x ∉ r := fun x hx => hdis x (by simpa [or_comm] using hx)
    exact ⟨(hoff a (hmem a ha)).1.trans hab.next, (hoff b (hmem b hb)).2.trans hab.prev⟩
  exact ⟨hpath, hr.nodup⟩

theorem Ring.notMem (hr : m.Ring h l) : h ∉ l := (List.nodup_cons.mp hr.nodup).1

theorem Ring.paths (hr : m.Ring h (l ++ r)) : m.Path (h :: l) ∧ m.Path (r ++ [h]) := by
  have hp := hr.path
  rw [List.append_assoc, ← List.cons_append] at hp
  exact ⟨hp.left_of_append, hp.right_of_append⟩

theorem Ring.linked (hr : m.Ring h (l ++ r)) : m.Linked (l.getLastD h) (r.headD h) := by
  have hp := hr.path
  rw [List.append_assoc, ← List.cons_append] at hp
  exact (List.isChain_append.mp hp).2.2 _ (getLastD_mem_getLast? h l) _ (headD_mem_head? h r)

theorem Ring.next_head (hr : m.Ring h l) : m.next h = .node (l.headD h) :=
  (Ring.linked (l := []) hr).next

theorem Ring.prev_head (hr : m.Ring h l) : m.prev h = .node (l.getLastD h) := by
  rw [← List.append_nil l] at hr
  exact hr.linked.prev

theorem Ring.next_entry (hr : m.Ring h (l ++ e :: r)) : m.next e = .node (r.headD h) := by
  rw [List.append_cons] at hr
  have hnext := hr.linked.next
  rwa [List.getLastD_concat] at hnext

theorem Ring.prev_entry (hr : m.Ring h (l ++ e :: r)) : m.prev e = .node (l.getLastD h) :=
  hr.linked.prev

/-- A ring determines the pointers of its nodes. -/
theorem Ring.unique {x : α} (hr : m.Ring h l) (hr' : m'.Ring h l) (hx : x ∈ h :: l) :
    m.next x = m'.next x ∧ m.prev x = m'.prev x := by
  rcases List.mem_cons.mp hx with rfl | hx
  · exact ⟨hr.next_head.trans hr'.next_head.symm, hr.prev_head.trans hr'.prev_head.symm⟩
  · obtain ⟨u, r, rfl⟩ := List.append_of_mem hx
    exact ⟨hr.next_entry.trans hr'.next_entry.symm, hr.prev_entry.trans hr'.prev_entry.symm⟩

theorem Ring.next_eq_head_iff (hr : m.Ring h l) : m.next h = .node h ↔ l = [] := by
  rw [hr.next_head, Pointer.node.injEq]
  cases l with
  | nil => simp
  | cons a l => simpa using fun ha : a = h => hr.notMem (ha ▸ List.mem_cons_self)

theorem Ring.next_entry_ne (hr : m.Ring h (l ++ e :: r)) : m.next e ≠ .node e := by
  rw [hr.next_entry, ne_eq, Pointer.node.injEq]
  intro he
  have hn := hr.nodup
  have hmem := headD_mem h r
  grind

theorem Ring.next_eq_node_head_iff (hr : m.Ring h l) (he : e ∈ h :: l) :
    m.next e = .node h ↔ l.getLastD h = e := by
  have hn := hr.nodup
  rcases List.mem_cons.mp he with rfl | he
  · rw [hr.next_eq_head_iff]
    have hlast := List.getLastD_mem_cons (l := l) (a := e)
    cases l <;> grind
  · obtain ⟨u, r, rfl⟩ := List.append_of_mem he
    rw [hr.next_entry, Pointer.node.injEq, getLastD_append (List.cons_ne_nil e r),
      List.getLastD_cons]
    have hlast := List.getLastD_mem_cons (l := r) (a := e)
    cases r <;> grind

theorem Ring.next_eq_prev_iff (hr : m.Ring h l) (hne : l ≠ []) :
    m.next h = m.prev h ↔ l.length = 1 := by
  rw [hr.next_head, hr.prev_head, Pointer.node.injEq]
  match l, hne with
  | [a], _ => simp
  | a :: b :: l, _ =>
    have hn := hr.nodup
    have hmem := List.getLastD_mem_cons (l := l) (a := b)
    simp only [List.headD_cons, List.getLastD_cons, List.length_cons]
    grind

end Shapes

section Changes

variable {ω α : Type} [DecidableEq α]

def setNext (m : Links ω α) (a : α) (p : Pointer ω α) : Links ω α :=
  { m with next := Function.update m.next a p }

def setPrev (m : Links ω α) (a : α) (p : Pointer ω α) : Links ω α :=
  { m with prev := Function.update m.prev a p }

def link (m : Links ω α) (x y : α) : Links ω α := (m.setPrev y (.node x)).setNext x (.node y)

variable {m m' : Links ω α} {a b h x y new : α} {l r mid u v : List α} {p : Pointer ω α}

@[simp] theorem setNext_next_self : (m.setNext a p).next a = p := Function.update_self ..

@[simp] theorem setNext_next_of_ne (hb : b ≠ a) : (m.setNext a p).next b = m.next b :=
  Function.update_of_ne hb ..

@[simp] theorem setNext_prev : (m.setNext a p).prev = m.prev := rfl

@[simp] theorem setPrev_prev_self : (m.setPrev a p).prev a = p := Function.update_self ..

@[simp] theorem setPrev_prev_of_ne (hb : b ≠ a) : (m.setPrev a p).prev b = m.prev b :=
  Function.update_of_ne hb ..

@[simp] theorem setPrev_next : (m.setPrev a p).next = m.next := rfl

@[simp] theorem link_next_self : (m.link x y).next x = .node y := setNext_next_self

@[simp] theorem link_next_of_ne (ha : a ≠ x) : (m.link x y).next a = m.next a :=
  setNext_next_of_ne ha

@[simp] theorem link_prev_self : (m.link x y).prev y = .node x := setPrev_prev_self

@[simp] theorem link_prev_of_ne (ha : a ≠ y) : (m.link x y).prev a = m.prev a :=
  setPrev_prev_of_ne ha

theorem linked_link_self : (m.link x y).Linked x y := ⟨link_next_self, link_prev_self⟩

theorem Linked.link (hl : m.Linked a b) (hx : a ≠ x) (hy : b ≠ y) : (m.link x y).Linked a b where
  next := (link_next_of_ne hx).trans hl.next
  prev := (link_prev_of_ne hy).trans hl.prev

theorem Off.setNext (hoff : m.Off m' l) (ha : a ∈ l) : m.Off (m'.setNext a p) l := fun x hx =>
  ⟨(setNext_next_of_ne (ne_of_mem_of_not_mem ha hx).symm).trans (hoff x hx).1, (hoff x hx).2⟩

theorem Off.setPrev (hoff : m.Off m' l) (ha : a ∈ l) : m.Off (m'.setPrev a p) l := fun x hx =>
  ⟨(hoff x hx).1, (setPrev_prev_of_ne (ne_of_mem_of_not_mem ha hx).symm).trans (hoff x hx).2⟩

theorem Off.link (hoff : m.Off m' l) (hx : x ∈ l) (hy : y ∈ l) : m.Off (m'.link x y) l :=
  (hoff.setPrev hy).setNext hx

/-- A path does not see what follows a node that it only ends in, nor what precedes one that it
only starts from. -/
theorem Path.link (hl : m.Path l) (hx : x ∉ l.dropLast) (hy : y ∉ l.tail) :
    (m.link x y).Path l := by
  induction hl with
  | nil => exact .nil
  | singleton a => exact .singleton a
  | @cons_cons a b l hab _ ih =>
    rw [List.dropLast_cons_cons, List.mem_cons, not_or] at hx
    rw [List.tail_cons] at hy
    refine .cons_cons (hab.link (Ne.symm hx.1) ?_) (ih hx.2 ?_)
    · exact fun hb => hy (hb ▸ List.mem_cons_self)
    · exact fun hm => hy (List.mem_of_mem_tail hm)

theorem Path.link_of_notMem (hl : m.Path l) (hx : x ∉ l) (hy : y ∉ l) : (m.link x y).Path l :=
  hl.link (fun hm => hx (List.mem_of_mem_dropLast hm)) fun hm => hy (List.mem_of_mem_tail hm)

/-- Two paths are joined by letting the first node of the second follow the last one of the
first. -/
theorem Path.append (hu : m.Path u) (hv : m.Path v) (hx : x ∈ u.getLast?) (hy : y ∈ v.head?)
    (hxu : x ∉ u.dropLast) (hxv : x ∉ v.dropLast) (hyu : y ∉ u.tail) (hyv : y ∉ v.tail) :
    (m.link x y).Path (u ++ v) := by
  refine List.isChain_append.mpr ⟨hu.link hxu hyu, hv.link hxv hyv, ?_⟩
  intro a ha b hb
  rw [Option.mem_unique ha hx, Option.mem_unique hb hy]
  exact linked_link_self

theorem Ring.close (hu : m.Path (h :: l)) (hv : m.Path (r ++ [h]))
    (hl : (h :: (l ++ r)).Nodup) :
    (m.link (l.getLastD h) (r.headD h)).Ring h (l ++ r) := by
  refine ⟨?_, hl⟩
  rw [List.append_assoc, ← List.cons_append]
  refine hu.append hv (getLastD_mem_getLast? h l) (headD_mem_head? h r)
    (getLastD_notMem_dropLast (hl.sublist (by simp))) ?_ (headD_notMem hl)
    (headD_notMem_tail (hl.sublist (by simp)))
  rw [List.dropLast_concat]
  exact getLastD_notMem hl

theorem ring_init : (m.link h h).Ring h [] :=
  Ring.close (l := []) (r := []) (.singleton h) (.singleton h) (by simp)

theorem Ring.remove {e : α} (hr : m.Ring h (l ++ e :: r)) :
    (m.link (l.getLastD h) (r.headD h)).Ring h (l ++ r) := by
  refine .close hr.paths.1 ?_ (hr.nodup.sublist (by simp))
  rw [List.append_cons] at hr
  exact hr.paths.2

theorem Ring.insert (hu : m.Path (h :: l)) (hv : m.Path (r ++ [h]))
    (hl : (h :: (l ++ new :: r)).Nodup) :
    ((m.link new (r.headD h)).link (l.getLastD h) new).Ring h (l ++ new :: r) := by
  have hl' : (h :: (l ++ r)).Nodup := hl.sublist (by simp)
  have hnew : new ∉ h :: (l ++ r) := by grind
  have hv' : (m.link new (r.headD h)).Path (new :: (r ++ [h])) := by
    have hdrop : new ∉ (r ++ [h]).dropLast := by
      rw [List.dropLast_concat]
      exact fun hm => hnew (by simp [hm])
    exact Path.append (.singleton new) hv (Option.mem_some_self new) (headD_mem_head? h r)
      List.not_mem_nil hdrop List.not_mem_nil (headD_notMem_tail (hl'.sublist (by simp)))
  have hu' : (m.link new (r.headD h)).Path (h :: l) := by
    refine hu.link (fun hm => hnew ?_) (headD_notMem hl')
    rw [← List.cons_append]
    exact List.mem_append_left _ (List.mem_of_mem_dropLast hm)
  exact .close (r := new :: r) hu' hv' hl

theorem Ring.enclose (hp : m.Path l) (hne : l ≠ []) (hl : (new :: l).Nodup) :
    ((m.link new (l.headD new)).link (l.getLastD new) new).Ring new l := by
  have hnew : new ∉ l := (List.nodup_cons.mp hl).1
  have hfirst : l.headD new ∈ l.head? := by
    cases l with
    | nil => exact absurd rfl hne
    | cons a l => rfl
  have hp' : (m.link new (l.headD new)).Path (new :: l) :=
    Path.append (.singleton new) hp (Option.mem_some_self new) hfirst List.not_mem_nil
      (fun hm => hnew (List.mem_of_mem_dropLast hm)) List.not_mem_nil
      (notMem_tail_of_nodup hl.of_cons hfirst)
  have hr := Ring.close (r := []) hp' (.singleton new) (by simpa using hl)
  rwa [List.append_nil] at hr

theorem Ring.splice (hu : m.Path (h :: l)) (hm : m.Path mid) (hv : m.Path (r ++ [h]))
    (hne : mid ≠ []) (hl : (h :: (l ++ mid ++ r)).Nodup) :
    ((m.link (l.getLastD h) (mid.headD h)).link (mid.getLastD h) (r.headD h)).Ring h
      (l ++ mid ++ r) := by
  have hfirst : mid.headD h ∈ mid.head? := by
    cases mid with
    | nil => exact absurd rfl hne
    | cons a l => rfl
  have hlm : (h :: (l ++ mid)).Nodup := hl.sublist (by simp)
  have hl' : (h :: (l ++ (mid ++ r))).Nodup := by rwa [← List.append_assoc]
  have hmem : mid.headD h ∈ mid := List.mem_of_mem_head? hfirst
  have hout : mid.headD h ∉ l ∧ mid.headD h ∉ r ++ [h] := by grind
  have hu' : (m.link (l.getLastD h) (mid.headD h)).Path (h :: (l ++ mid)) := by
    refine hu.append hm (getLastD_mem_getLast? h l) hfirst
      (getLastD_notMem_dropLast (hl.sublist (by simp))) ?_ ?_
      (notMem_tail_of_nodup (hlm.of_cons.sublist (by simp)) hfirst)
    · exact fun hx => getLastD_notMem hlm (List.mem_of_mem_dropLast hx)
    · exact hout.1
  have hv' : (m.link (l.getLastD h) (mid.headD h)).Path (r ++ [h]) := by
    refine hv.link ?_ fun hx => hout.2 (List.mem_of_mem_tail hx)
    rw [List.dropLast_concat]
    exact fun hx => getLastD_notMem hl' (List.mem_append_right _ hx)
  have hr := Ring.close hu' hv' hl
  rwa [getLastD_append hne] at hr

/-- A ring is cut behind an entry: what precedes gets a head of its own, and the old head is
followed by what comes after. -/
theorem Ring.cut {e : α} (hr : m.Ring h (l ++ e :: r)) (hnew : new ∉ h :: (l ++ e :: r)) :
    (((m.link new ((l ++ e :: r).headD h)).link e new).link h (r.headD h)).Ring new (l ++ [e]) ∧
      (((m.link new ((l ++ e :: r).headD h)).link e new).link h (r.headD h)).Ring h r := by
  have hn := hr.nodup
  have hfirst : (l ++ e :: r).headD h = (l ++ [e]).headD new := by
    cases l <;> rfl
  have hmem : (l ++ [e]).headD new ∈ l ++ [e] := by
    cases l <;> simp
  rw [List.append_cons] at hr
  have hpath : m.Path (l ++ [e]) := hr.paths.1.tail
  have hfront := Ring.enclose hpath (by simp) (show (new :: (l ++ [e])).Nodup by grind)
  rw [List.getLastD_concat, ← hfirst] at hfront
  have hback : ((m.link new ((l ++ e :: r).headD h)).link e new).Path (r ++ [h]) := by
    rw [hfirst]
    exact (hr.paths.2.link_of_notMem (by grind) (by grind)).link_of_notMem (by grind) (by grind)
  refine ⟨hfront.off (r := h :: r) (Off.refl.link (by simp) ?_) (by grind), ?_⟩
  · exact headD_mem_of_subset (List.Subset.refl _)
  · exact .close (l := []) (.singleton h) hback (by grind)

end Changes

end Links

/-- What the rings of a memory contain, by their heads. -/
abbrev Contents (α : Type) := α → Option (List α)

namespace Contents

variable {α : Type}

/-- `x` is on no ring but that of `h`. -/
def Private (C : Contents α) (h x : α) : Prop := ∀ k l, k ≠ h → C k = some l → x ∉ k :: l

def Free (C : Contents α) (x : α) : Prop := ∀ k l, C k = some l → x ∉ k :: l

/-- `x` is on no ring but its own. -/
abbrev Unlinked (C : Contents α) (x : α) : Prop := C.Private x x

def Head (C : Contents α) (h : α) : Prop := ∃ l, C h = some l

def Entry (C : Contents α) (x : α) : Prop := ∃ k l, C k = some l ∧ x ∈ l

section Decisions

variable [Fintype α] [DecidableEq α] (C : Contents α) (h x : α)

instance decidablePrivate : Decidable (C.Private h x) :=
  decidable_of_iff (∀ k, k ≠ h → ∀ l ∈ C k, x ∉ k :: l)
    ⟨fun hp k l hne hk => hp k hne l hk, fun hp k hne l hk => hp k l hne hk⟩

instance decidableEntry : Decidable (C.Entry x) :=
  inferInstanceAs (Decidable (∃ k, ∃ l ∈ C k, x ∈ l))

end Decisions

instance decidableHead (C : Contents α) (h : α) : Decidable (C.Head h) :=
  decidable_of_iff ((C h).isSome = true) Option.isSome_iff_exists

variable [DecidableEq α]

def forget (C : Contents α) (h : α) : Contents α := Function.update C h none

def set (C : Contents α) (h : α) (l : List α) : Contents α := Function.update C h (some l)

def modify (C : Contents α) (h : α) (f : List α → List α) : Contents α :=
  Function.update C h ((C h).map f)

def detach (C : Contents α) (e : α) : Contents α := fun k =>
  if k = e then none else (C k).map (·.erase e)

/-- With `new` in the place of `old`, be it an entry or a head. -/
def replace (C : Contents α) (old new : α) : Contents α := fun k =>
  if k = new then C old
  else if k = old then none
  else (C k).map fun l => l.map fun x => if x = old then new else x

end Contents

/-- The rings of the memory are those of `C`, and no two of them have a node in common. -/
structure Links.Holds {ω α : Type} (m : Links ω α) (C : Contents α) : Prop where
  ring : ∀ {h l}, C h = some l → m.Ring h l
  apart : ∀ {h l x}, C h = some l → x ∈ h :: l → C.Private h x

section Holds

variable {ω α : Type} {m m' : Links ω α} {C : Contents α} {h k x e new : α} {l r : List α}
  {f : List α → List α}

theorem Links.Holds.empty : m.Holds fun _ => none := ⟨nofun, nofun⟩

theorem Contents.Free.private (hx : C.Free x) (h : α) : C.Private h x := fun k l _ hk => hx k l hk

theorem Contents.not_free (hh : C h = some l) (hx : x ∈ h :: l) : ¬C.Free x :=
  fun hfree => hfree h l hh hx

theorem Links.Holds.off (hC : m.Holds C) (hoff : m.Off m' l) (hl : ∀ x ∈ l, C.Free x) :
    m'.Holds C where
  ring {_ _} hk := (hC.ring hk).off hoff fun x hx hm => hl x hm _ _ hk hx
  apart := hC.apart

theorem Links.Holds.entry_none (hC : m.Holds C) (hk : C k = some l) (he : e ∈ l) : C e = none := by
  rw [Option.eq_none_iff_forall_ne_some]
  intro r hr
  have hne : k ≠ e := fun hke => (hC.ring hk).notMem (hke ▸ he)
  exact hC.apart hr List.mem_cons_self k l hne hk (List.mem_cons_of_mem k he)

variable [DecidableEq α]

@[simp] theorem Contents.forget_self : C.forget h h = none := Function.update_self ..

@[simp] theorem Contents.forget_of_ne (hk : k ≠ h) : C.forget h k = C k :=
  Function.update_of_ne hk ..

@[simp] theorem Contents.set_self : C.set h l h = some l := Function.update_self ..

@[simp] theorem Contents.set_of_ne (hk : k ≠ h) : C.set h l k = C k := Function.update_of_ne hk ..

theorem Contents.modify_some (hh : C h = some l) : C.modify h f = C.set h (f l) := by
  rw [modify, hh]
  rfl

theorem Contents.forget_eq_some : C.forget h k = some l ↔ k ≠ h ∧ C k = some l := by
  by_cases hkh : k = h <;> simp [hkh]

theorem Contents.set_eq_some :
    C.set h l k = some r ↔ k = h ∧ l = r ∨ k ≠ h ∧ C k = some r := by
  by_cases hkh : k = h <;> simp [hkh]

theorem Contents.forget_set : (C.forget h).set h l = C.set h l := Function.update_idem ..

theorem Contents.set_comm (hne : h ≠ k) : (C.set k r).set h l = (C.set h l).set k r :=
  Function.update_comm hne.symm ..

theorem Contents.forget_set_comm (hne : h ≠ k) :
    ((C.forget h).set k r).set h l = (C.set k r).set h l := by
  rw [set_comm hne, forget_set, set_comm hne.symm]

theorem Contents.set_set : (C.set h r).set h l = C.set h l := Function.update_idem ..

theorem Contents.set_same (hh : C h = some l) : C.set h l = C := by
  rw [set, ← hh]
  exact Function.update_eq_self ..

theorem Contents.forget_none (hh : C h = none) : C.forget h = C := by
  rw [forget, ← hh]
  exact Function.update_eq_self ..

theorem Contents.Private.forget (hx : C.Private h x) : (C.forget k).Private h x :=
  fun k' l hne hk' => hx k' l hne (forget_eq_some.mp hk').2

theorem Contents.Private.of_forget (hx : C.Private k x) : (C.forget k).Private h x :=
  fun k' l _ hk' => hx k' l (forget_eq_some.mp hk').1 (forget_eq_some.mp hk').2

theorem Contents.Private.free_forget (hx : C.Unlinked x) : (C.forget x).Free x :=
  fun k l hk => hx k l (forget_eq_some.mp hk).1 (forget_eq_some.mp hk).2

theorem Contents.Free.forget (hx : C.Free x) : (C.forget k).Free x :=
  fun h l hh => hx h l (forget_eq_some.mp hh).2

theorem Contents.Private.set (hx : C.Private h x) (hr : x ∉ k :: r) :
    (C.set k r).Private h x := by
  intro k' l hne hk'
  rcases set_eq_some.mp hk' with ⟨rfl, rfl⟩ | ⟨_, hk'⟩
  · exact hr
  · exact hx k' l hne hk'

theorem Links.Holds.forget (hC : m.Holds C) (h : α) : m.Holds (C.forget h) where
  ring hk := hC.ring (Contents.forget_eq_some.mp hk).2
  apart hk hx := (hC.apart (Contents.forget_eq_some.mp hk).2 hx).forget

/-- One ring is changed, with nodes that are on no other ring. -/
theorem Links.Holds.set (hC : m.Holds C) (hr : m'.Ring h l) (hoff : m.Off m' r)
    (hsub : h :: l ⊆ r) (hown : ∀ x ∈ r, C.Private h x) : m'.Holds (C.set h l) where
  ring {k u} hk := by
    rcases Contents.set_eq_some.mp hk with ⟨rfl, rfl⟩ | ⟨hne, hk⟩
    · exact hr
    · exact (hC.ring hk).off hoff fun x hx hm => hown x hm k u hne hk hx
  apart {k u x} hk hx := by
    rcases Contents.set_eq_some.mp hk with ⟨rfl, rfl⟩ | ⟨hne, hk⟩
    · intro k' v hne' hk' hx'
      rw [Contents.set_of_ne hne'] at hk'
      exact hown x (hsub hx) k' v hne' hk' hx'
    · refine (hC.apart hk hx).set fun hm => ?_
      exact hown x (hsub hm) k u hne hk hx

theorem Links.Holds.detach_entry (hC : m.Holds C) (hh : C h = some (l ++ e :: r)) :
    C.detach e = C.set h (l ++ r) := by
  have hring := hC.ring hh
  have he : e ∉ l := by
    have hn := hring.nodup
    grind
  funext k
  rw [Contents.detach]
  by_cases hkh : k = h
  · subst hkh
    have hne : k ≠ e := fun hke => hring.notMem (by simp [hke])
    rw [if_neg hne, hh, Contents.set_self, Option.map_some, List.erase_append_right _ he,
      List.erase_cons_head]
  · rw [Contents.set_of_ne hkh]
    by_cases hke : k = e
    · rw [if_pos hke, hke, hC.entry_none hh (by simp)]
    · rw [if_neg hke]
      cases hk : C k with
      | none => rfl
      | some u =>
        have hu : e ∉ u := fun hm => hC.apart hh (List.mem_cons_of_mem _ (by simp)) k u hkh hk
          (List.mem_cons_of_mem _ hm)
        rw [Option.map_some, List.erase_of_not_mem hu]

theorem Links.Holds.detach_head (hC : m.Holds C) (he : C e = some l) :
    C.detach e = C.forget e := by
  funext k
  rw [Contents.detach]
  by_cases hke : k = e
  · rw [if_pos hke, hke, Contents.forget_self]
  · rw [if_neg hke, Contents.forget_of_ne hke]
    cases hk : C k with
    | none => rfl
    | some u =>
      have hu : e ∉ u := fun hm => hC.apart he List.mem_cons_self k u hke hk
        (List.mem_cons_of_mem _ hm)
      rw [Option.map_some, List.erase_of_not_mem hu]

theorem Contents.detach_self : C.detach e e = none := if_pos rfl

theorem Contents.detach_of_ne (hne : e ≠ h) (hh : C h = some l) :
    C.detach e h = some (l.erase e) := by
  rw [detach, if_neg hne.symm, hh, Option.map_some]

theorem Links.Holds.free_detach (hC : m.Holds C) : (C.detach e).Free e := by
  intro k l hk hm
  have hke : k ≠ e := by
    intro hke
    rw [hke, Contents.detach_self] at hk
    cases hk
  rw [Contents.detach, if_neg hke] at hk
  obtain ⟨r, hr, rfl⟩ := Option.map_eq_some_iff.mp hk
  rcases List.mem_cons.mp hm with rfl | hm
  · exact hke rfl
  · exact ((hC.ring hr).nodup.of_cons.mem_erase_iff.mp hm).1 rfl

theorem Links.Holds.free_replace (hC : m.Holds C) (hne : e ≠ new) : (C.replace e new).Free e := by
  intro k l hk
  rw [Contents.replace] at hk
  split at hk
  · next hkn =>
    have hn := (hC.ring hk).notMem
    simp [hkn, hne, hn]
  · split at hk
    · cases hk
    · next hke =>
      obtain ⟨u, _, rfl⟩ := Option.map_eq_some_iff.mp hk
      simp only [List.mem_cons, List.mem_map, not_or]
      refine ⟨Ne.symm hke, ?_⟩
      intro hx
      rcases hx with ⟨x, _, hx⟩
      split at hx
      · exact hne hx.symm
      · contradiction

theorem Links.Holds.replace_entry (hC : m.Holds C) (hh : C h = some (l ++ e :: r)) (hne : h ≠ new)
    (hnew : C.Unlinked new) : C.replace e new = (C.forget new).set h (l ++ new :: r) := by
  have hring := hC.ring hh
  have hnone := hC.entry_none (e := e) hh (by simp)
  have hid : ∀ u : List α, e ∉ u → (u.map fun x => if x = e then new else x) = u := by
    intro u hu
    refine (List.map_congr_left fun x hx => if_neg ?_).trans (List.map_id u)
    exact fun hxe => hu (hxe ▸ hx)
  have hl : e ∉ l ∧ e ∉ r := by
    have hn := hring.nodup
    grind
  funext k
  rw [Contents.replace]
  by_cases hkn : k = new
  · subst hkn
    rw [if_pos rfl, hnone, Contents.set_of_ne hne.symm, Contents.forget_self]
  · rw [if_neg hkn]
    by_cases hkh : k = h
    · subst hkh
      have hke : k ≠ e := fun hke => hring.notMem (by simp [hke])
      rw [if_neg hke, hh, Contents.set_self, Option.map_some, List.map_append, List.map_cons,
        if_pos rfl, hid l hl.1, hid r hl.2]
    · rw [Contents.set_of_ne hkh, Contents.forget_of_ne hkn]
      by_cases hke : k = e
      · rw [if_pos hke, hke, hnone]
      · rw [if_neg hke]
        cases hk : C k with
        | none => rfl
        | some u =>
          have hu : e ∉ u := fun hm => hC.apart hh (List.mem_cons_of_mem _ (by simp)) k u hkh hk
            (List.mem_cons_of_mem _ hm)
          rw [Option.map_some, hid u hu]

theorem Links.Holds.replace_head (hC : m.Holds C) (he : C e = some l) (hne : e ≠ new) :
    C.replace e new = (C.forget e).set new l := by
  funext k
  rw [Contents.replace]
  by_cases hkn : k = new
  · subst hkn
    rw [if_pos rfl, he, Contents.set_self]
  · rw [if_neg hkn, Contents.set_of_ne hkn]
    by_cases hke : k = e
    · rw [if_pos hke, hke, Contents.forget_self]
    · rw [if_neg hke, Contents.forget_of_ne hke]
      cases hk : C k with
      | none => rfl
      | some u =>
        have hu : e ∉ u := fun hm => hC.apart he List.mem_cons_self k u hke hk
          (List.mem_cons_of_mem _ hm)
        refine congrArg some ((List.map_congr_left fun x hx => if_neg ?_).trans (List.map_id u))
        exact fun hxe => hu (hxe ▸ hx)

end Holds

end TxDriver
