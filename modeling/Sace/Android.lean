import Sace.Encoding

/-! The format with which the Parcel of Android meets ParcelFormat: words of four bytes,
the least significant first, and everything else padded to whole words. Strings are
restricted to ASCII, where UTF-8 and UTF-16 have the same code units. -/
namespace Sace.Android
open Wire

def word (n : Nat) : Bytes := Bytes.littleEndian 4 n

def readWord (data : Bytes) : Option Nat × Bytes :=
  if 4 ≤ data.length then (some (Bytes.toNat (data.take 4)), data.drop 4) else (none, data)

@[simp] theorem word_length (n : Nat) : (word n).length = 4 := Bytes.littleEndian_length 4 n

theorem readWord_word {n : Nat} (small : n < 2 ^ 32) (rest : Bytes) :
    readWord (word n ++ rest) = (some n, rest) := by
  have value : Bytes.toNat (word n) = n := Bytes.toNat_littleEndian 4 n (by simpa using small)
  have take : (word n ++ rest).take 4 = word n := by
    rw [List.take_append_of_le_length (by simp), List.take_of_length_le (by simp)]
  have drop : (word n ++ rest).drop 4 = rest := by
    rw [List.drop_append_of_le_length (by simp), List.drop_of_length_le (by simp), List.nil_append]
  simp [readWord, take, drop, value]

/-- The zeros behind `n` bytes. -/
def padding (n : Nat) : Nat := (4 - n % 4) % 4

def raw (bs : Bytes) : Bytes := bs ++ List.replicate (padding bs.length) 0

def readRaw (n : Nat) (data : Bytes) : Option (Bytes × Bytes) :=
  if n < 2 ^ 31 ∧ n + padding n ≤ data.length then
    some (data.take n, data.drop (n + padding n))
  else none

theorem readRaw_raw {bs : Bytes} (rest : Bytes) (small : bs.length < 2 ^ 31) :
    readRaw bs.length (raw bs ++ rest) = some (bs, rest) := by
  have size : (raw bs).length = bs.length + padding bs.length := by simp [raw]
  have room : bs.length + padding bs.length ≤ (raw bs ++ rest).length := by simp [size]
  have drop : (raw bs ++ rest).drop (bs.length + padding bs.length) = rest := by
    rw [← size, List.drop_left]
  have take : (raw bs ++ rest).take bs.length = bs := by
    rw [raw, List.append_assoc, List.take_left]
  simp only [readRaw, small, room, and_self, if_true, drop, take]

def utf16Units (s : Str) : Bytes := s.flatMap fun c => [c, 0]

def fromUnits : Bytes → Option Str
  | [] => some []
  | [_] => none
  | low :: high :: rest =>
    if high = 0 ∧ low < 128 then (fromUnits rest).map (low :: ·) else none

theorem fromUnits_utf16Units {s : Str} (ascii : ∀ c ∈ s, c < 128) :
    fromUnits (utf16Units s) = some s := by
  induction s with
  | nil => rfl
  | cons c s ih =>
    have tail := ih fun d member => ascii d (List.mem_cons_of_mem _ member)
    have head := ascii c List.mem_cons_self
    simp only [utf16Units] at tail
    simp [utf16Units, fromUnits, head, tail]

theorem utf16Units_length (s : Str) : (utf16Units s).length = 2 * s.length := by
  induction s with
  | nil => rfl
  | cons c s ih =>
    simp only [utf16Units, List.flatMap_cons, List.length_append, List.length_cons,
      List.length_nil] at ih ⊢
    omega

def writeString (s : Str) : Bytes := word s.length ++ raw (utf16Units s ++ [0, 0])

def readString (data : Bytes) : Option Str × Bytes :=
  match readWord data with
  | (none, rest) => (none, rest)
  | (some n, rest) =>
    match readRaw (2 * n + 2) rest with
    | none => (none, rest)
    | some (units, rest) => (fromUnits (units.take (2 * n)), rest)

/-- ASCII, and short enough for a Parcel. -/
def Ascii (s : Str) : Prop := s.length < 2 ^ 30 - 1 ∧ ∀ c ∈ s, c < 128

instance (s : Str) : Decidable (Ascii s) := inferInstanceAs (Decidable (_ ∧ _))

theorem readString_carries {s : Str} (ascii : Ascii s) :
    Slot.Carries ⟨writeString, readString⟩ s := by
  intro rest
  have units := utf16Units_length s
  have size : (utf16Units s ++ [0, 0]).length = 2 * s.length + 2 := by simp [units]
  have bound := ascii.1
  have small : (utf16Units s ++ [0, 0]).length < 2 ^ 31 := by omega
  have body := readRaw_raw rest small
  rw [size] at body
  have take : (utf16Units s ++ [0, 0]).take (2 * s.length) = utf16Units s := by
    rw [← units, List.take_left]
  simp only [readString, writeString, List.append_assoc, readWord_word (n := s.length) (by omega),
    body, take, fromUnits_utf16Units ascii.2]

/-- A vector is resized before its strings are read: what is missing stays empty. -/
def readStrings : Nat → Bytes → List Str × Bytes
  | 0, data => ([], data)
  | n + 1, data =>
    match readString data with
    | (none, rest) => (List.replicate (n + 1) [], rest)
    | (some s, rest) =>
      let (ss, rest) := readStrings n rest
      (s :: ss, rest)

def writeVector (ss : List Str) : Bytes := word ss.length ++ ss.flatMap writeString

def readVector (data : Bytes) : Option (List Str) × Bytes :=
  match readWord data with
  | (none, rest) => (none, rest)
  | (some n, rest) =>
    if n < 2 ^ 31 then
      let (ss, rest) := readStrings n rest
      (some ss, rest)
    else (none, rest)

theorem readStrings_all {ss : List Str} (ascii : ∀ s ∈ ss, Ascii s) (rest : Bytes) :
    readStrings ss.length (ss.flatMap writeString ++ rest) = (ss, rest) := by
  induction ss with
  | nil => rfl
  | cons s ss ih =>
    have head := readString_carries (ascii s List.mem_cons_self)
    have tail := ih fun t member => ascii t (List.mem_cons_of_mem _ member)
    simp only [Slot.Carries] at head
    simp only [List.length_cons, List.flatMap_cons, List.append_assoc, readStrings, head, tail]

theorem readVector_carries {ss : List Str} (few : ss.length < 2 ^ 31)
    (ascii : ∀ s ∈ ss, Ascii s) : Slot.Carries ⟨writeVector, readVector⟩ ss := by
  intro rest
  simp only [readVector, writeVector, List.append_assoc,
    readWord_word (n := ss.length) (by omega), few, if_true, readStrings_all ascii]

def uint32 : Slot UInt32 where
  write n := word n.toNat
  read data := let (n, rest) := readWord data; (n.map UInt32.ofNat, rest)

/-- A byte travels as a sign-extended word. -/
def byte : Slot UInt8 where
  write b := word (if b < 128 then b.toNat else 2 ^ 32 - 256 + b.toNat)
  read data := let (n, rest) := readWord data; (n.map UInt8.ofNat, rest)

def bool : Slot Bool where
  write b := word b.toNat
  read data := let (n, rest) := readWord data; (n.map (· ≠ 0), rest)

def uint64 : Slot UInt64 where
  write n := Bytes.littleEndian 8 n.toNat
  read data :=
    if 8 ≤ data.length then (some (UInt64.ofNat (Bytes.toNat (data.take 8))), data.drop 8)
    else (none, data)

/-- A descriptor is written as an object of 24 bytes, and no object is found in bytes that
came through a socket. -/
def fd : Slot Int where
  write n := word 0x66642a85 ++ word 0x17f ++ word (n % 2 ^ 32).toNat ++ word 0 ++ word 0 ++ word 0
  read data := (none, data)

theorem uint64_carries (n : UInt64) : uint64.Carries n := by
  intro rest
  have value : Bytes.toNat (Bytes.littleEndian 8 n.toNat) = n.toNat :=
    Bytes.toNat_littleEndian 8 n.toNat (by simpa using n.toNat_lt)
  have take : (Bytes.littleEndian 8 n.toNat ++ rest).take 8 = Bytes.littleEndian 8 n.toNat := by
    rw [List.take_append_of_le_length (by simp), List.take_of_length_le (by simp)]
  have drop : (Bytes.littleEndian 8 n.toNat ++ rest).drop 8 = rest := by
    rw [List.drop_append_of_le_length (by simp), List.drop_of_length_le (by simp), List.nil_append]
  simp [uint64, take, drop, value]

theorem byte_carries (b : UInt8) : byte.Carries b := by
  intro rest
  have bound := b.toNat_lt
  simp only [byte]
  split
  · rw [readWord_word (by omega)]
    simp
  · rename_i high
    have low : 128 ≤ b.toNat := by
      simpa [UInt8.lt_iff_toNat_lt] using high
    rw [readWord_word (by omega)]
    simp only [Option.map_some, Prod.mk.injEq, Option.some.injEq, and_true]
    rw [← UInt8.toNat_inj, UInt8.toNat_ofNat']
    omega

def parcel : ParcelFormat where
  uint32 := uint32
  uint64 := uint64
  byte := byte
  bool := bool
  text := Ascii
  utf16 := ⟨writeString, readString⟩
  utf16Vector := ⟨writeVector, readVector⟩
  raw := raw
  readRaw := readRaw
  fd := fd
  uint32_carries n rest := by simp [uint32, readWord_word n.toNat_lt]
  uint32_width n := word_length _
  uint64_carries := uint64_carries
  uint64_width n := Bytes.littleEndian_length 8 _
  byte_width b := word_length _
  byte_carries := byte_carries
  bool_carries b rest := by cases b <;> simp [bool, readWord_word]
  ascii_text _ short ascii := ⟨Nat.lt_trans short (by decide), ascii⟩
  utf16_carries _ ascii := readString_carries ascii
  utf16Vector_carries _ few ascii := readVector_carries few ascii
  raw_carries _ rest small := readRaw_raw rest small

end Sace.Android
