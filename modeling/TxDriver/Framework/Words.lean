import Mathlib.Data.BitVec

/-!
# Machine words in memory

Memory is seen from a pointer: byte `k` of a `Bytes` is the byte at offset `k`. This module
reads and writes little-endian 32-bit words there, copies memory, and states what setting and
clearing a flag does to a word of flags.
-/

namespace TxDriver

abbrev Byte := BitVec 8

abbrev Bytes := Nat → Byte

/-- The little-endian 32-bit word at offset `off`. -/
def load32 (m : Bytes) (off : Nat) : BitVec 32 :=
  m (off + 3) ++ (m (off + 2) ++ (m (off + 1) ++ m off))

def store32 (m : Bytes) (off : Nat) (v : BitVec 32) : Bytes :=
  fun k => if off ≤ k ∧ k < off + 4 then v.extractLsb' (8 * (k - off)) 8 else m k

/-- The C `memcpy`: the first `n` bytes of `dst` become those of `src`. -/
def memcpy (dst src : Bytes) (n : Nat) : Bytes := fun k => if k < n then src k else dst k

@[simp] theorem load32_store32_self (m : Bytes) (off : Nat) (v : BitVec 32) :
    load32 (store32 m off v) off = v := by
  have hbyte (i : Nat) (hi : i < 4) :
      store32 m off v (off + i) = v.extractLsb' (8 * i) 8 := by
    simp only [store32]
    rw [if_pos (by omega), Nat.add_sub_cancel_left]
  have h0 : store32 m off v off = v.extractLsb' 0 8 := hbyte 0 (by decide)
  simp only [load32, hbyte 1 (by decide), hbyte 2 (by decide), hbyte 3 (by decide), h0]
  rw [BitVec.extractLsb'_append_extractLsb'_eq_extractLsb' (by rfl),
    BitVec.extractLsb'_append_extractLsb'_eq_extractLsb' (by rfl),
    BitVec.extractLsb'_append_extractLsb'_eq_extractLsb' (by rfl)]
  exact BitVec.extractLsb'_eq_self

theorem load32_congr {m m' : Bytes} {off : Nat} (h : ∀ k, off ≤ k → k < off + 4 → m k = m' k) :
    load32 m off = load32 m' off := by
  simp only [load32]
  rw [h off (by omega) (by omega), h (off + 1) (by omega) (by omega),
    h (off + 2) (by omega) (by omega), h (off + 3) (by omega) (by omega)]

theorem load32_store32_of_disjoint (m : Bytes) {off off' : Nat} (v : BitVec 32)
    (h : off + 4 ≤ off' ∨ off' + 4 ≤ off) : load32 (store32 m off' v) off = load32 m off := by
  apply load32_congr
  intro k hlo hhi
  exact if_neg (by omega)

theorem toNat_widened (x : BitVec 32) : (x.setWidth 64).toNat = x.toNat := by
  have hx := x.isLt
  rw [BitVec.toNat_setWidth, Nat.mod_eq_of_lt (by omega)]

/-- A non-negative `int` keeps its value as a `size_t`; a negative one gets close to the top. -/
theorem toNat_signExtend_of_lt {x : BitVec 32} (h : x.toNat < 2 ^ 31) :
    (x.signExtend 64).toNat = x.toNat := by
  have hmsb : x.msb = false := BitVec.msb_eq_false_iff_two_mul_lt.mpr (by omega)
  rw [BitVec.signExtend_eq_setWidth_of_msb_false hmsb, toNat_widened]

theorem toNat_signExtend_of_ge {x : BitVec 32} (h : 2 ^ 31 ≤ x.toNat) :
    (x.signExtend 64).toNat = 2 ^ 64 - 2 ^ 32 + x.toNat := by
  have hmsb : x.msb = true := BitVec.msb_eq_true_iff_two_mul_ge.mpr (by omega)
  rw [BitVec.toNat_signExtend, toNat_widened, hmsb, if_pos rfl, Nat.add_comm]

theorem toNat_widened_sub {x y : BitVec 32} (h : x.toNat ≤ y.toNat) :
    (y.setWidth 64 - x.setWidth 64).toNat = y.toNat - x.toNat := by
  rw [BitVec.toNat_sub_of_le (by rwa [BitVec.le_def, toNat_widened, toNat_widened]),
    toNat_widened, toNat_widened]

section Flags

variable {w : Nat} (x f g : BitVec w)

@[simp] theorem or_flag_and : (x ||| f) &&& f = f := by
  ext i hi
  simp only [BitVec.getElem_and, BitVec.getElem_or]
  cases x[i] <;> cases f[i] <;> rfl

@[simp] theorem and_not_flag_and : (x &&& ~~~f) &&& f = 0#w := by
  ext i hi
  simp only [BitVec.getElem_and, BitVec.getElem_not, BitVec.getElem_zero]
  cases x[i] <;> cases f[i] <;> rfl

@[simp] theorem or_flag_and_not : (x ||| f) &&& ~~~f = x &&& ~~~f := by
  ext i hi
  simp only [BitVec.getElem_and, BitVec.getElem_or, BitVec.getElem_not]
  cases x[i] <;> cases f[i] <;> rfl

theorem or_flag_and_of_disjoint (h : g &&& f = 0#w) : (x ||| g) &&& f = x &&& f := by
  rw [BitVec.and_or_distrib_right, h, BitVec.or_zero]

theorem and_not_flag_and_of_disjoint (h : g &&& f = 0#w) : (x &&& ~~~g) &&& f = x &&& f := by
  ext i hi
  have hi' := congrArg (fun y => y[i]) h
  simp only [BitVec.getElem_and, BitVec.getElem_zero] at hi'
  simp only [BitVec.getElem_and, BitVec.getElem_not]
  revert hi'
  cases x[i] <;> cases f[i] <;> cases g[i] <;> decide

end Flags

end TxDriver
