import Mathlib.Algebra.Group.Int.Defs
import Mathlib.Algebra.Group.Nat.Defs
import Mathlib.Data.List.Basic
import Mathlib.Data.List.TakeWhile

/-! Byte strings: little-endian words, strings that end at their first zero byte and
fixed-size buffers that start out zeroed. -/

abbrev Bytes := List UInt8

namespace Bytes

def littleEndian : Nat → Nat → Bytes
  | 0, _ => []
  | k + 1, n => UInt8.ofNat n :: littleEndian k (n / 256)

def toNat : Bytes → Nat
  | [] => 0
  | b :: rest => b.toNat + 256 * toNat rest

@[simp] theorem littleEndian_length (k n : Nat) : (littleEndian k n).length = k := by
  induction k generalizing n with
  | zero => rfl
  | succ k ih => simp [littleEndian, ih]

theorem toNat_littleEndian (k n : Nat) (small : n < 256 ^ k) : toNat (littleEndian k n) = n := by
  induction k generalizing n with
  | zero => simp at small; simp [littleEndian, toNat, small]
  | succ k ih =>
    have high : n / 256 < 256 ^ k := by
      rw [Nat.pow_succ] at small
      omega
    simp only [littleEndian, toNat, ih _ high, UInt8.toNat_ofNat']
    omega

theorem littleEndian_drop (k n i : Nat) :
    (littleEndian k n).drop i = littleEndian (k - i) (n / 256 ^ i) := by
  induction i generalizing k n with
  | zero => simp
  | succ i ih =>
    cases k with
    | zero => simp [littleEndian]
    | succ k =>
      simp only [littleEndian, List.drop_succ_cons, ih, Nat.succ_sub_succ_eq_sub, Nat.pow_succ]
      rw [Nat.div_div_eq_div_mul, Nat.mul_comm 256]

theorem littleEndian_append (k l n : Nat) :
    littleEndian k n ++ littleEndian l (n / 256 ^ k) = littleEndian (k + l) n := by
  induction k generalizing n with
  | zero => simp [littleEndian]
  | succ k ih =>
    have next := ih (n / 256)
    rw [Nat.div_div_eq_div_mul, Nat.mul_comm 256, ← Nat.pow_succ] at next
    rw [Nat.succ_add, littleEndian, littleEndian, List.cons_append, next]

/-- What `strlen` and `%s` see of a string: everything before the first zero byte. -/
def cString (s : Bytes) : Bytes := s.takeWhile (· ≠ 0)

theorem cString_subset (s : Bytes) : cString s ⊆ s :=
  fun _ member => (List.takeWhile_sublist _).subset member

theorem zero_notMem_cString (s : Bytes) : 0 ∉ cString s := fun zero => by
  simpa using List.mem_takeWhile_imp zero

theorem cString_of_whole {s : Bytes} (whole : 0 ∉ s) : cString s = s := by
  apply List.takeWhile_eq_self_iff.mpr
  intro c member
  exact decide_eq_true fun zero => whole (zero ▸ member)

/-- The first `n` bytes of a zeroed buffer into which `s` was copied. -/
def padded (n : Nat) (s : Bytes) : Bytes := s.take n ++ List.replicate (n - s.length) 0

@[simp] theorem padded_length (n : Nat) (s : Bytes) : (padded n s).length = n := by
  simp only [padded, List.length_append, List.length_take, List.length_replicate]
  omega

def text (s : String) : Bytes := s.toByteArray.data.toList

end Bytes

/-! Slots of a wire format. A read takes what it needs from the front of the bytes
that are left, or finds nothing and leaves its destination as it was. -/
namespace Wire

structure Slot (A : Type) where
  write : A → Bytes
  read : Bytes → Option A × Bytes

namespace Slot

variable {A : Type}

def Carries (f : Slot A) (a : A) : Prop := ∀ rest, f.read (f.write a ++ rest) = (some a, rest)

def readOr (f : Slot A) (old : A) (data : Bytes) : A × Bytes :=
  let (a, rest) := f.read data
  (a.getD old, rest)

theorem Carries.readOr {f : Slot A} {a : A} (carries : f.Carries a) (old : A) (rest : Bytes) :
    f.readOr old (f.write a ++ rest) = (a, rest) := by
  simp only [Slot.readOr, carries rest, Option.getD_some]

def find (f : Slot A) (data : Bytes) : Option (A × Bytes) :=
  match f.read data with
  | (some a, rest) => some (a, rest)
  | (none, _) => none

theorem readOr_of_find {f : Slot A} {data rest : Bytes} {a : A}
    (found : f.find data = some (a, rest)) (old : A) : f.readOr old data = (a, rest) := by
  unfold find at found
  split at found
  · rename_i read
    cases found
    rw [Slot.readOr, read]
    rfl
  · cases found

theorem Carries.find {f : Slot A} {a : A} (carries : f.Carries a) (rest : Bytes) :
    f.find (f.write a ++ rest) = some (a, rest) := by
  rw [Slot.find, carries rest]

end Slot
end Wire
