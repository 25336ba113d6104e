import Mathlib.Algebra.BigOperators.Group.Finset.Basic
import Mathlib.Algebra.Order.BigOperators.Group.Finset
import Mathlib.Data.Finset.Card
import Mathlib.Data.List.Nodup
import Mathlib.Data.List.Infix

/-!
# Allocated blocks

A heap maps the address of every live block to its size and its contents. A new block gets an
address that no block has had before, so a pointer to a freed block never becomes valid again
and a second free of a block is visible. Built on it are the later heaps (`Grows`), the blocks a
computation has added (`Adds`), the blocks of one kind (`filter`), the linked lists that run
through the blocks (`Chain`) and those that run into a freed one (`Dangling`).
-/

namespace TxDriver

abbrev Addr := Nat

/-- Live blocks with their sizes and contents; no block has an address from `next` on. -/
structure Heap (β : Type) where
  cells : Addr → Option (Nat × β)
  next : Addr
  fresh : ∀ a, next ≤ a → cells a = none

namespace Heap

variable {β : Type}

def empty : Heap β := ⟨fun _ => none, 0, fun _ _ => rfl⟩

def alloc (h : Heap β) (size : Nat) (b : β) : Heap β where
  cells a := if a = h.next then some (size, b) else h.cells a
  next := h.next + 1
  fresh a ha := by
    rw [if_neg (Nat.ne_of_gt ha)]
    exact h.fresh a (Nat.le_of_succ_le ha)

def free (h : Heap β) (a : Addr) : Heap β where
  cells x := if x = a then none else h.cells x
  next := h.next
  fresh x hx := by
    split
    · rfl
    · exact h.fresh x hx

/-- New contents for a live block; a dead address stays dead. -/
def set (h : Heap β) (a : Addr) (b : β) : Heap β where
  cells x := if x = a then (h.cells a).map fun c => (c.1, b) else h.cells x
  next := h.next
  fresh x hx := by
    split
    · subst x
      rw [h.fresh _ hx]
      rfl
    · exact h.fresh x hx

def Live (h : Heap β) (a : Addr) : Prop := (h.cells a).isSome

instance (h : Heap β) (a : Addr) : Decidable (h.Live a) :=
  inferInstanceAs (Decidable ((h.cells a).isSome = true))

theorem Live.lt_next {h : Heap β} {a : Addr} (ha : h.Live a) : a < h.next := by
  by_contra hn
  have hf := h.fresh a (Nat.le_of_not_lt hn)
  simp [Live, hf] at ha

@[simp] theorem cells_alloc_self (h : Heap β) (n : Nat) (b : β) :
    (h.alloc n b).cells h.next = some (n, b) := by simp [alloc]

theorem cells_alloc_of_ne {h : Heap β} {a : Addr} (n : Nat) (b : β) (ha : a ≠ h.next) :
    (h.alloc n b).cells a = h.cells a := by simp [alloc, ha]

theorem cells_alloc_of_some {h : Heap β} {a : Addr} {c : Nat × β} (n : Nat) (b : β)
    (ha : h.cells a = some c) : (h.alloc n b).cells a = some c := by
  have hl : h.Live a := by simp [Live, ha]
  rw [cells_alloc_of_ne n b (Nat.ne_of_lt hl.lt_next), ha]

@[simp] theorem cells_free_self (h : Heap β) (a : Addr) : (h.free a).cells a = none := by
  simp [free]

theorem cells_free_of_ne {h : Heap β} {a x : Addr} (hx : x ≠ a) :
    (h.free a).cells x = h.cells x := by simp [free, hx]

theorem cells_free_le {h : Heap β} {a x : Addr} {c : Nat × β}
    (hx : (h.free a).cells x = some c) : h.cells x = some c := by
  by_cases he : x = a
  · subst x
    simp at hx
  · rwa [cells_free_of_ne he] at hx

theorem cells_free_of_dead {h : Heap β} {x : Addr} (a : Addr) (hx : h.cells x = none) :
    (h.free a).cells x = none := by
  rw [Option.eq_none_iff_forall_not_mem]
  intro c hc
  have hlive := cells_free_le hc
  rw [hx] at hlive
  cases hlive

@[simp] theorem cells_set_of_ne {h : Heap β} {a x : Addr} (b : β) (hx : x ≠ a) :
    (h.set a b).cells x = h.cells x := by simp [set, hx]

theorem cells_set_self {h : Heap β} {a : Addr} {c : Nat × β} (b : β) (ha : h.cells a = some c) :
    (h.set a b).cells a = some (c.1, b) := by simp [set, ha]

/-- The live blocks, as many as a loop that frees one in every round can have rounds. -/
def liveBlocks (h : Heap β) : Finset Addr := (Finset.range h.next).filter h.Live

theorem mem_liveBlocks {h : Heap β} {a : Addr} : a ∈ h.liveBlocks ↔ h.Live a := by
  simp only [liveBlocks, Finset.mem_filter, Finset.mem_range]
  exact ⟨fun ha => ha.2, fun ha => ⟨ha.lt_next, ha⟩⟩

theorem card_liveBlocks_le (h : Heap β) : h.liveBlocks.card ≤ h.next := by
  have hle := Finset.card_filter_le (Finset.range h.next) h.Live
  rwa [Finset.card_range] at hle

theorem card_liveBlocks_free {h : Heap β} {a : Addr} (ha : h.Live a) :
    (h.free a).liveBlocks.card < h.liveBlocks.card := by
  apply Finset.card_lt_card
  refine ⟨?_, ?_⟩
  · intro x hx
    obtain ⟨hlt, hlive⟩ := Finset.mem_filter.mp hx
    refine Finset.mem_filter.mpr ⟨hlt, ?_⟩
    obtain ⟨c, hc⟩ := Option.isSome_iff_exists.mp hlive
    exact Option.isSome_iff_exists.mpr ⟨c, cells_free_le hc⟩
  · intro hsub
    have hmem := hsub (Finset.mem_filter.mpr ⟨Finset.mem_range.mpr ha.lt_next, ha⟩)
    have hdead := (Finset.mem_filter.mp hmem).2
    rw [Live, cells_free_self] at hdead
    exact nomatch hdead

def freeAll (h : Heap β) (l : List Addr) : Heap β := l.foldl free h

theorem next_freeAll (h : Heap β) (l : List Addr) : (h.freeAll l).next = h.next := by
  induction l generalizing h with
  | nil => rfl
  | cons a l ih => exact ih (h.free a)

theorem cells_freeAll_of_not_mem {h : Heap β} {l : List Addr} {x : Addr} (hx : x ∉ l) :
    (h.freeAll l).cells x = h.cells x := by
  induction l generalizing h with
  | nil => rfl
  | cons a l ih =>
    rw [List.mem_cons, not_or] at hx
    exact (ih hx.2).trans (cells_free_of_ne hx.1)

theorem cells_freeAll_of_mem {h : Heap β} {l : List Addr} {x : Addr} (hx : x ∈ l) :
    (h.freeAll l).cells x = none := by
  have hdead {k : Heap β} (l : List Addr) (hk : k.cells x = none) :
      (k.freeAll l).cells x = none := by
    induction l generalizing k with
    | nil => exact hk
    | cons a l ih => exact ih (cells_free_of_dead a hk)
  induction l generalizing h with
  | nil => exact nomatch hx
  | cons a l ih =>
    rcases List.mem_cons.mp hx with rfl | hx
    · exact hdead l (cells_free_self h x)
    · exact ih hx

theorem cells_freeAll_le {h : Heap β} {l : List Addr} {x : Addr} {c : Nat × β}
    (hx : (h.freeAll l).cells x = some c) : h.cells x = some c := by
  induction l generalizing h with
  | nil => exact hx
  | cons a l ih => exact cells_free_le (ih hx)

theorem freeAll_append (h : Heap β) (l l' : List Addr) :
    h.freeAll (l ++ l') = (h.freeAll l).freeAll l' := List.foldl_append

def sizeAt (h : Heap β) (a : Addr) : Nat := ((h.cells a).map Prod.fst).getD 0

def liveBytes (h : Heap β) : Nat := ∑ a ∈ Finset.range h.next, h.sizeAt a

theorem sizeAt_of_some {h : Heap β} {a : Addr} {n : Nat} {b : β} (ha : h.cells a = some (n, b)) :
    h.sizeAt a = n := by
  simp [sizeAt, ha]

theorem liveBytes_of_dead {h : Heap β} (hd : ∀ a, h.cells a = none) : h.liveBytes = 0 := by
  apply Finset.sum_eq_zero
  intro a _
  simp [sizeAt, hd a]

theorem liveBytes_alloc (h : Heap β) (n : Nat) (b : β) :
    (h.alloc n b).liveBytes = h.liveBytes + n := by
  have hold : ∀ a ∈ Finset.range h.next, (h.alloc n b).sizeAt a = h.sizeAt a := by
    intro a ha
    rw [sizeAt, cells_alloc_of_ne n b (Nat.ne_of_lt (Finset.mem_range.mp ha)), sizeAt]
  have hnew : (h.alloc n b).sizeAt h.next = n := sizeAt_of_some (cells_alloc_self h n b)
  change ∑ a ∈ Finset.range (h.next + 1), (h.alloc n b).sizeAt a = _
  rw [Finset.sum_range_succ, Finset.sum_congr rfl hold, hnew, liveBytes]

theorem liveBytes_free {h : Heap β} {a : Addr} {n : Nat} {b : β} (ha : h.cells a = some (n, b)) :
    (h.free a).liveBytes + n = h.liveBytes := by
  have hlive : h.Live a := by simp [Live, ha]
  have hmem : a ∈ Finset.range h.next := Finset.mem_range.mpr hlive.lt_next
  have hother : ∀ x ∈ (Finset.range h.next).erase a, (h.free a).sizeAt x = h.sizeAt x := by
    intro x hx
    rw [sizeAt, cells_free_of_ne (Finset.ne_of_mem_erase hx), sizeAt]
  have hfreed : (h.free a).sizeAt a = 0 := by simp [sizeAt]
  change ∑ x ∈ Finset.range h.next, (h.free a).sizeAt x + n = _
  rw [← Finset.add_sum_erase _ _ hmem, Finset.sum_congr rfl hother, hfreed, Nat.zero_add,
    Nat.add_comm, ← sizeAt_of_some ha, Finset.add_sum_erase _ _ hmem, liveBytes]

theorem size_le_liveBytes {h : Heap β} {a : Addr} {n : Nat} {b : β}
    (ha : h.cells a = some (n, b)) : n ≤ h.liveBytes := by
  rw [← liveBytes_free ha]
  exact Nat.le_add_left _ _

/-- `h'` is later than `h` and has the blocks of `h` as they were; freed blocks stay dead. -/
structure Grows (h h' : Heap β) : Prop where
  next_le : h.next ≤ h'.next
  same : ∀ a < h.next, h'.cells a = h.cells a

theorem Grows.refl (h : Heap β) : Grows h h where
  next_le := Nat.le_refl _
  same _ _ := rfl

theorem Grows.trans {h h' h'' : Heap β} (hg : Grows h h') (hg' : Grows h' h'') : Grows h h'' where
  next_le := Nat.le_trans hg.next_le hg'.next_le
  same a ha := by
    rw [hg'.same a (Nat.lt_of_lt_of_le ha hg.next_le), hg.same a ha]

theorem grows_alloc (h : Heap β) (n : Nat) (b : β) : Grows h (h.alloc n b) where
  next_le := Nat.le_succ _
  same _ ha := cells_alloc_of_ne n b (Nat.ne_of_lt ha)

theorem Grows.kept {h h' : Heap β} {a : Addr} {c : Nat × β} (hg : Grows h h')
    (hc : h.cells a = some c) : h'.cells a = some c := by
  have hl : h.Live a := by simp [Live, hc]
  rw [hg.same a hl.lt_next, hc]

/-- `h'` is `h` with new live blocks at the addresses `as` and no other change. -/
structure Adds (h h' : Heap β) (as : List Addr) : Prop where
  kept : ∀ a, a ∉ as → h'.cells a = h.cells a
  new : ∀ a ∈ as, h.next ≤ a
  live : ∀ a ∈ as, h'.Live a
  nodup : as.Nodup
  next_le : h.next ≤ h'.next

theorem Adds.refl (h : Heap β) : Adds h h [] where
  kept _ _ := rfl
  new _ ha := nomatch ha
  live _ ha := nomatch ha
  nodup := List.nodup_nil
  next_le := Nat.le_refl _

theorem Adds.alloc {h h' : Heap β} {as : List Addr} (ha : Adds h h' as) (n : Nat) (b : β) :
    Adds h (h'.alloc n b) (h'.next :: as) where
  kept a hn := by
    rw [List.mem_cons, not_or] at hn
    rw [cells_alloc_of_ne n b hn.1]
    exact ha.kept a hn.2
  new a hm := by
    rcases List.mem_cons.mp hm with rfl | hm
    · exact ha.next_le
    · exact ha.new a hm
  live a hm := by
    rcases List.mem_cons.mp hm with rfl | hm
    · simp [Live]
    · have hl := ha.live a hm
      rw [Live, cells_alloc_of_ne n b (Nat.ne_of_lt hl.lt_next)]
      exact hl
  nodup := List.nodup_cons.mpr ⟨fun hm => Nat.lt_irrefl _ (ha.live _ hm).lt_next, ha.nodup⟩
  next_le := Nat.le_succ_of_le ha.next_le

theorem Adds.free {h h' : Heap β} {as : List Addr} {x : Addr} (ha : Adds h h' as)
    (hx : x ∈ as) : Adds h (h'.free x) (as.erase x) where
  kept a hn := by
    by_cases he : a = x
    · subst a
      rw [cells_free_self, h.fresh x (ha.new x hx)]
    · rw [cells_free_of_ne he]
      exact ha.kept a fun hm => hn ((List.mem_erase_of_ne he).mpr hm)
  new a hm := ha.new a (List.mem_of_mem_erase hm)
  live a hm := by
    have hm' := (ha.nodup.mem_erase_iff).mp hm
    rw [Live, cells_free_of_ne hm'.1]
    exact ha.live a hm'.2
  nodup := ha.nodup.erase x
  next_le := ha.next_le

theorem Adds.set {h h' : Heap β} {as : List Addr} {x : Addr} (ha : Adds h h' as) (hx : x ∈ as)
    (b : β) : Adds h (h'.set x b) as where
  kept a hn := by
    have he : a ≠ x := fun h => hn (h ▸ hx)
    rw [cells_set_of_ne b he]
    exact ha.kept a hn
  new := ha.new
  live a hm := by
    by_cases he : a = x
    · subst a
      simpa [Live, Heap.set] using ha.live x hx
    · rw [Live, cells_set_of_ne b he]
      exact ha.live a hm
  nodup := ha.nodup
  next_le := ha.next_le

theorem Adds.trans {h h' h'' : Heap β} {as bs : List Addr} (ha : Adds h h' as)
    (hb : Adds h' h'' bs) : Adds h h'' (bs ++ as) where
  kept a hn := by
    rw [List.mem_append, not_or] at hn
    rw [hb.kept a hn.1, ha.kept a hn.2]
  new a hm := by
    rcases List.mem_append.mp hm with hm | hm
    · exact Nat.le_trans ha.next_le (hb.new a hm)
    · exact ha.new a hm
  live a hm := by
    by_cases hmb : a ∈ bs
    · exact hb.live a hmb
    · rw [Live, hb.kept a hmb]
      exact ha.live a ((List.mem_append.mp hm).resolve_left hmb)
  nodup := by
    refine hb.nodup.append ha.nodup ?_
    intro a hmb hma
    have hl := ha.live a hma
    rw [Live, h'.fresh a (hb.new a hmb)] at hl
    exact nomatch hl
  next_le := Nat.le_trans ha.next_le hb.next_le

theorem Adds.cells_eq {h h' : Heap β} (ha : Adds h h' []) : h'.cells = h.cells :=
  funext fun a => ha.kept a List.not_mem_nil

theorem Adds.perm {h h' : Heap β} {as bs : List Addr} (ha : Adds h h' as) (hp : as.Perm bs) :
    Adds h h' bs where
  kept a hn := ha.kept a fun hm => hn (hp.mem_iff.mp hm)
  new a hm := ha.new a (hp.mem_iff.mpr hm)
  live a hm := ha.live a (hp.mem_iff.mpr hm)
  nodup := hp.nodup_iff.mp ha.nodup
  next_le := ha.next_le

theorem Adds.cells_freeAll {h h' : Heap β} {as : List Addr} (ha : Adds h h' as) :
    (h'.freeAll as).cells = h.cells := by
  funext a
  by_cases hm : a ∈ as
  · rw [cells_freeAll_of_mem hm, h.fresh a (ha.new a hm)]
  · rw [cells_freeAll_of_not_mem hm, ha.kept a hm]

theorem Adds.liveBlocks {h h' : Heap β} {as : List Addr} (ha : Adds h h' as) :
    h'.liveBlocks = h.liveBlocks ∪ as.toFinset := by
  ext a
  rw [Finset.mem_union, mem_liveBlocks, mem_liveBlocks, List.mem_toFinset]
  by_cases hm : a ∈ as
  · simp [hm, ha.live a hm]
  · simp [hm, Live, ha.kept a hm]

theorem Adds.liveBlocks_sdiff {h h' : Heap β} {as : List Addr} (ha : Adds h h' as) :
    h'.liveBlocks \ h.liveBlocks = as.toFinset := by
  rw [ha.liveBlocks, Finset.union_sdiff_left, Finset.sdiff_eq_self_iff_disjoint,
    Finset.disjoint_left]
  intro a hm hlive
  exact Nat.not_le_of_gt (mem_liveBlocks.mp hlive).lt_next (ha.new a (List.mem_toFinset.mp hm))

theorem Adds.disjoint {h h' : Heap β} {as : List Addr} (ha : Adds h h' as) :
    Disjoint h.liveBlocks as.toFinset := by
  rw [← ha.liveBlocks_sdiff]
  exact Finset.disjoint_sdiff

theorem Adds.card_liveBlocks {h h' : Heap β} {as : List Addr} (ha : Adds h h' as) :
    h'.liveBlocks.card = h.liveBlocks.card + as.length := by
  rw [ha.liveBlocks, Finset.card_union_of_disjoint ha.disjoint,
    List.toFinset_card_of_nodup ha.nodup]

theorem Adds.live_iff {h h' : Heap β} {as : List Addr} {a : Addr} (ha : Adds h h' as) :
    h'.Live a ↔ a ∈ as ∨ h.Live a := by
  rw [← mem_liveBlocks, ha.liveBlocks, Finset.mem_union, List.mem_toFinset, mem_liveBlocks, or_comm]

theorem Adds.grows {h h' : Heap β} {as : List Addr} (ha : Adds h h' as) : Grows h h' where
  next_le := ha.next_le
  same a hlt := ha.kept a fun hm => Nat.not_le_of_gt hlt (ha.new a hm)

theorem liveBytes_eq_sum (h : Heap β) : h.liveBytes = ∑ a ∈ h.liveBlocks, h.sizeAt a := by
  refine (Finset.sum_subset (Finset.filter_subset _ _) ?_).symm
  intro a _ ha
  have hdead : ¬h.Live a := fun hlive => ha (mem_liveBlocks.mpr hlive)
  have hcell : h.cells a = none := by simpa [Live] using hdead
  simp [sizeAt, hcell]

theorem Adds.liveBytes {h h' : Heap β} {as : List Addr} (ha : Adds h h' as) :
    h'.liveBytes = h.liveBytes + ∑ a ∈ as.toFinset, h'.sizeAt a := by
  have hold : ∀ a ∈ h.liveBlocks, h'.sizeAt a = h.sizeAt a := by
    intro a hlive
    rw [sizeAt, sizeAt, ha.grows.same a (mem_liveBlocks.mp hlive).lt_next]
  rw [liveBytes_eq_sum, ha.liveBlocks, Finset.sum_union ha.disjoint, Finset.sum_congr rfl hold,
    ← liveBytes_eq_sum]

def filter (h : Heap β) (kind : β → Bool) : Heap β where
  cells a := (h.cells a).filter fun c => kind c.2
  next := h.next
  fresh a ha := by
    rw [h.fresh a ha]
    rfl

section Kinds

variable {h h' : Heap β} {kind : β → Bool} {as : List Addr} {a : Addr}

theorem cells_filter_eq_some {n : Nat} {b : β} :
    (h.filter kind).cells a = some (n, b) ↔ h.cells a = some (n, b) ∧ kind b = true :=
  Option.filter_eq_some_iff

theorem live_filter {n : Nat} {b : β} (ha : h.cells a = some (n, b)) :
    (h.filter kind).Live a ↔ kind b = true := by
  simp [Live, filter, ha]

theorem live_of_filter (ha : (h.filter kind).Live a) : h.Live a := by
  obtain ⟨c, hc⟩ := Option.isSome_iff_exists.mp ha
  rw [Live, (cells_filter_eq_some.mp hc).1]
  rfl

theorem cells_filter_congr (ha : h'.cells a = h.cells a) :
    (h'.filter kind).cells a = (h.filter kind).cells a := congrArg (Option.filter _) ha

theorem cells_filter_of_not_live (ha : ¬(h.filter kind).Live a) :
    (h.filter kind).cells a = none := by
  simpa [Live] using ha

theorem Adds.filter (ha : Adds h h' as) (hk : ∀ a ∈ as, (h'.filter kind).Live a) :
    Adds (h.filter kind) (h'.filter kind) as where
  kept a hn := cells_filter_congr (ha.kept a hn)
  new := ha.new
  live := hk
  nodup := ha.nodup
  next_le := ha.next_le

theorem Adds.filter_nil (ha : Adds h h' as) (hk : ∀ a ∈ as, ¬(h'.filter kind).Live a) :
    Adds (h.filter kind) (h'.filter kind) [] where
  kept a _ := by
    by_cases hm : a ∈ as
    · rw [cells_filter_of_not_live (hk a hm), (h.filter kind).fresh a (ha.new a hm)]
    · exact cells_filter_congr (ha.kept a hm)
  new _ hm := nomatch hm
  live _ hm := nomatch hm
  nodup := List.nodup_nil
  next_le := ha.next_le

theorem filter_freeAll (l : List Addr) (hl : ∀ a ∈ l, ¬(h.filter kind).Live a) :
    Adds (h.filter kind) ((h.freeAll l).filter kind) [] where
  kept a _ := by
    by_cases hm : a ∈ l
    · rw [cells_filter_of_not_live (hl a hm)]
      exact congrArg (Option.filter _) (cells_freeAll_of_mem hm)
    · exact cells_filter_congr (cells_freeAll_of_not_mem hm)
  new _ hm := nomatch hm
  live _ hm := nomatch hm
  nodup := List.nodup_nil
  next_le := Nat.le_of_eq (next_freeAll h l).symm

theorem live_of_filter_freeAll {l : List Addr} (ha : ((h.freeAll l).filter kind).Live a) :
    a ∉ l ∧ (h.filter kind).Live a := by
  have hm : a ∉ l := by
    intro hm
    have hlive := live_of_filter ha
    rw [Live, cells_freeAll_of_mem hm] at hlive
    cases hlive
  refine ⟨hm, ?_⟩
  rw [Live, ← cells_filter_congr (cells_freeAll_of_not_mem hm)]
  exact ha

theorem filter_set {n : Nat} {b b' : β} (ha : h.cells a = some (n, b)) (hb : kind b = false)
    (hb' : kind b' = false) : Adds (h.filter kind) ((h.set a b').filter kind) [] where
  kept x _ := by
    by_cases hx : x = a
    · subst hx
      have hold : ¬(h.filter kind).Live x := by simp [live_filter ha, hb]
      have hnew : ¬((h.set x b').filter kind).Live x := by
        simp [live_filter (cells_set_self b' ha), hb']
      rw [cells_filter_of_not_live hold, cells_filter_of_not_live hnew]
    · exact cells_filter_congr (cells_set_of_ne b' hx)
  new _ hm := nomatch hm
  live _ hm := nomatch hm
  nodup := List.nodup_nil
  next_le := Nat.le_refl _

theorem liveBlocks_filter_not (hk : ∀ a, ¬(h.filter kind).Live a) :
    (h.filter fun b => !kind b).liveBlocks = h.liveBlocks := by
  ext a
  rw [mem_liveBlocks, mem_liveBlocks]
  refine ⟨live_of_filter, ?_⟩
  intro ha
  obtain ⟨c, hc⟩ := Option.isSome_iff_exists.mp ha
  have hnot := hk a
  rw [live_filter hc] at hnot
  simpa [live_filter hc] using hnot

end Kinds

/-- `l` lists the blocks of the linked list that starts at a pointer; `link` gives the next
pointer of a block, or nothing when the block is no element of such a list. -/
inductive Chain (link : β → Option (Option Addr)) (h : Heap β) : Option Addr → List Addr → Prop
  | nil : Chain link h none []
  | cons {a : Addr} {n : Nat} {b : β} {p : Option Addr} {l : List Addr}
      (cell : h.cells a = some (n, b)) (step : link b = some p) (rest : Chain link h p l) :
      Chain link h (some a) (a :: l)

variable {link : β → Option (Option Addr)}

theorem Chain.unique {h : Heap β} {p : Option Addr} {l l' : List Addr}
    (hl : Chain link h p l) (hl' : Chain link h p l') : l = l' := by
  induction hl generalizing l' with
  | nil => cases hl'; rfl
  | cons cell step _ ih =>
    cases hl' with
    | cons cell' step' rest' =>
      rw [cell] at cell'
      cases cell'
      rw [step] at step'
      cases step'
      rw [ih rest']

theorem Chain.suffix_of_mem {h : Heap β} {p : Option Addr} {l : List Addr} {a : Addr}
    (hl : Chain link h p l) (ha : a ∈ l) : ∃ t, Chain link h (some a) (a :: t) ∧ a :: t <:+ l := by
  induction hl with
  | nil => exact nomatch ha
  | @cons x n b p t cell step rest ih =>
    rcases List.mem_cons.mp ha with rfl | ha
    · exact ⟨t, .cons cell step rest, List.suffix_refl _⟩
    · obtain ⟨u, hu, hs⟩ := ih ha
      exact ⟨u, hu, hs.trans (List.suffix_cons x t)⟩

theorem Chain.nodup {h : Heap β} {p : Option Addr} {l : List Addr} (hl : Chain link h p l) :
    l.Nodup := by
  induction hl with
  | nil => exact List.nodup_nil
  | @cons a n b p t cell step rest ih =>
    refine List.nodup_cons.mpr ⟨?_, ih⟩
    intro hm
    obtain ⟨u, hu, hs⟩ := rest.suffix_of_mem hm
    have he := hu.unique (.cons cell step rest)
    have hlen := hs.length_le
    rw [he, List.length_cons] at hlen
    omega

theorem Chain.live {h : Heap β} {p : Option Addr} {l : List Addr} {a : Addr}
    (hl : Chain link h p l) (ha : a ∈ l) : ∃ n b q, h.cells a = some (n, b) ∧ link b = some q := by
  obtain ⟨t, ht, _⟩ := hl.suffix_of_mem ha
  cases ht with
  | @cons _ n b q _ cell step _ => exact ⟨n, b, q, cell, step⟩

theorem Chain.mono {h h' : Heap β} {p : Option Addr} {l : List Addr} (hl : Chain link h p l)
    (hk : ∀ a ∈ l, ∀ c, h.cells a = some c → h'.cells a = some c) : Chain link h' p l := by
  induction hl with
  | nil => exact .nil
  | cons cell step _ ih =>
    refine .cons (hk _ (by simp) _ cell) step (ih ?_)
    intro a ha
    exact hk a (by simp [ha])

theorem Chain.set {h : Heap β} {p : Option Addr} {l : List Addr} {a : Addr} {n : Nat} {b b' : β}
    (hl : Chain link h p l) (ha : h.cells a = some (n, b)) (hlink : link b' = link b) :
    Chain link (h.set a b') p l := by
  induction hl with
  | nil => exact .nil
  | @cons x m c q t cell step _ ih =>
    by_cases hx : x = a
    · subst hx
      rw [ha] at cell
      cases cell
      exact .cons (cells_set_self b' ha) (hlink.trans step) ih
    · exact .cons ((cells_set_of_ne b' hx).trans cell) step ih

theorem Chain.length_le {h : Heap β} {p : Option Addr} {l : List Addr} (hl : Chain link h p l) :
    l.length ≤ h.next := by
  have hsub : l.toFinset ⊆ Finset.range h.next := by
    intro a ha
    obtain ⟨n, b, q, hc, _⟩ := hl.live (List.mem_toFinset.mp ha)
    exact Finset.mem_range.mpr (Live.lt_next (by simp [Live, hc]))
  have hc := Finset.card_le_card hsub
  rwa [List.toFinset_card_of_nodup hl.nodup, Finset.card_range] at hc

/-- The list that starts at a pointer runs into a freed block. -/
inductive Dangling (link : β → Option (Option Addr)) (h : Heap β) : Option Addr → Prop
  | dead {a : Addr} (old : a < h.next) (freed : h.cells a = none) : Dangling link h (some a)
  | cons {a : Addr} {n : Nat} {b : β} {p : Option Addr} (cell : h.cells a = some (n, b))
      (step : link b = some p) (rest : Dangling link h p) : Dangling link h (some a)

theorem Dangling.not_chain {h : Heap β} {p : Option Addr} {l : List Addr}
    (hd : Dangling link h p) : ¬Chain link h p l := by
  induction hd generalizing l with
  | dead _ freed =>
    intro hl
    cases hl with
    | cons cell =>
      rw [freed] at cell
      cases cell
  | cons cell step _ ih =>
    intro hl
    cases hl with
    | cons cell' step' rest' =>
      rw [cell] at cell'
      cases cell'
      rw [step] at step'
      cases step'
      exact ih rest'

theorem Dangling.grows {h h' : Heap β} {p : Option Addr} (hd : Dangling link h p)
    (hg : Grows h h') : Dangling link h' p := by
  induction hd with
  | dead old freed => exact .dead (Nat.lt_of_lt_of_le old hg.next_le) ((hg.same _ old).trans freed)
  | cons cell step _ ih => exact .cons (hg.kept cell) step ih

theorem Dangling.set {h : Heap β} {p : Option Addr} {a : Addr} {n : Nat} {b b' : β}
    (hd : Dangling link h p) (ha : h.cells a = some (n, b)) (hlink : link b' = link b) :
    Dangling link (h.set a b') p := by
  induction hd with
  | @dead x old freed =>
    have hx : x ≠ a := by
      intro heq
      subst heq
      rw [ha] at freed
      cases freed
    exact .dead old ((cells_set_of_ne b' hx).trans freed)
  | @cons x m c q cell step _ ih =>
    by_cases hx : x = a
    · subst hx
      rw [ha] at cell
      cases cell
      exact .cons (cells_set_self b' ha) (hlink.trans step) ih
    · exact .cons ((cells_set_of_ne b' hx).trans cell) step ih

end Heap

end TxDriver
