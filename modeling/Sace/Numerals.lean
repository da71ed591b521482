import Mathlib.Data.List.Induction
import Mathlib.Tactic.Ring
import Sace.Params

/-! Decimal numerals in text, and what an extraction reads of them. -/
namespace Sace

/-! ### Digits -/

theorem digit_range {c : UInt8} (digit : isDigit c) : 48 ≤ c.toNat ∧ c.toNat ≤ 57 := by
  simp only [isDigit, Bool.and_eq_true, decide_eq_true_eq, UInt8.le_iff_toNat_le] at digit
  exact digit

theorem digit_not_alpha {c : UInt8} (digit : isDigit c) : isAlpha c = false := by
  have range := digit_range digit
  simp only [isAlpha, Bool.or_eq_false_iff, Bool.and_eq_false_iff, decide_eq_false_iff_not,
    UInt8.le_iff_toNat_le]
  have a : (65 : UInt8).toNat = 65 := rfl
  have b : (97 : UInt8).toNat = 97 := rfl
  omega

theorem digit_not_space {c : UInt8} (digit : isDigit c) : isSpace c = false := by
  have range := digit_range digit
  simp only [isSpace, Bool.or_eq_false_iff, Bool.and_eq_false_iff, decide_eq_false_iff_not,
    UInt8.le_iff_toNat_le]
  have a : (13 : UInt8).toNat = 13 := rfl
  refine ⟨?_, by omega⟩
  rintro rfl
  exact absurd range (by decide)

theorem splitSign_digit {c : UInt8} (digit : isDigit c) (rest : Str) :
    splitSign (c :: rest) = (false, c :: rest) := by
  have range := digit_range digit
  unfold splitSign
  split
  · rename_i same
    cases same
    exact absurd range (by decide)
  · rename_i same
    cases same
    exact absurd range (by decide)
  · rfl

theorem skip_digit {c : UInt8} (digit : isDigit c) (rest : Str) :
    (c :: rest).dropWhile isSpace = c :: rest := by
  rw [List.dropWhile_cons_of_neg]
  simp [digit_not_space digit]

def decimalFrom (n : Nat) (digits : Str) : Nat :=
  digits.foldl (fun n c => 10 * n + (c.toNat - 48)) n

theorem decimal_append (first second : Str) :
    decimal (first ++ second) = decimalFrom (decimal first) second := by
  rw [decimal, List.foldl_append]
  rfl

theorem decimalFrom_eq (n : Nat) (digits : Str) :
    decimalFrom n digits = n * 10 ^ digits.length + decimal digits := by
  induction digits using List.reverseRecOn with
  | nil => simp [decimalFrom, decimal]
  | append_singleton digits c ih =>
    have step : ∀ m,
        decimalFrom m (digits ++ [c]) = 10 * decimalFrom m digits + (c.toNat - 48) := by
      intro m
      simp [decimalFrom]
    have last : decimal (digits ++ [c]) = 10 * decimal digits + (c.toNat - 48) := step 0
    rw [step, ih, last, List.length_append, List.length_singleton, Nat.pow_succ]
    ring

def digits (n : Nat) : Str := (Nat.toDigits 10 n).map fun c => UInt8.ofNat c.toNat

theorem digit_code {c : Char} (digit : c.isDigit) : 48 ≤ c.toNat ∧ c.toNat ≤ 57 := by
  simp only [Char.isDigit, Bool.and_eq_true, decide_eq_true_eq, ge_iff_le,
    UInt32.le_iff_toNat_le] at digit
  exact digit

theorem digits_digit {n : Nat} : ∀ c ∈ digits n, isDigit c := by
  intro c member
  obtain ⟨char, digit, rfl⟩ := List.mem_map.mp member
  have range := digit_code (Nat.isDigit_of_mem_toDigits (by decide) (by decide) digit)
  have value : (UInt8.ofNat char.toNat).toNat = char.toNat := by
    rw [UInt8.toNat_ofNat']
    omega
  simp only [isDigit, Bool.and_eq_true, decide_eq_true_eq, UInt8.le_iff_toNat_le, value]
  exact range

theorem digits_ne_nil (n : Nat) : digits n ≠ [] := by
  unfold digits
  intro empty
  exact Nat.toDigits_ne_nil (List.map_eq_nil_iff.mp empty)

theorem decimal_digits (n : Nat) : decimal (digits n) = n := by
  have same : ∀ (chars : List Char) (m : Nat), (∀ c ∈ chars, c.isDigit) →
      decimalFrom m (chars.map fun c => UInt8.ofNat c.toNat) = Nat.ofDigitChars 10 chars m := by
    intro chars
    induction chars with
    | nil =>
      intro m _
      simp [decimalFrom]
    | cons c chars ih =>
      intro m all
      have range := digit_code (all c List.mem_cons_self)
      have value : (UInt8.ofNat c.toNat).toNat = c.toNat := by
        rw [UInt8.toNat_ofNat']
        omega
      rw [Nat.ofDigitChars_cons, ← ih _ fun d member => all d (List.mem_cons_of_mem _ member)]
      simp only [decimalFrom, List.map_cons, List.foldl_cons, value]
      rfl
  have all : ∀ c ∈ Nat.toDigits 10 n, c.isDigit :=
    fun c member => Nat.isDigit_of_mem_toDigits (by decide) (by decide) member
  calc decimal (digits n) = Nat.ofDigitChars 10 (Nat.toDigits 10 n) 0 := same _ 0 all
    _ = n := Nat.ofDigitChars_ten_toDigits

theorem digits_length_pos (n : Nat) : 0 < (digits n).length :=
  List.length_pos_iff.mpr (digits_ne_nil n)

/-! ### Extraction -/

/-- White space, a sign, digits and something else: what `>>` reads, whatever the variable held. -/
theorem extract_signed {A : Type} (store : Bool → Nat → A × Bool) (zero old : A)
    {stream : InStream} (good : stream.eof = false ∧ stream.fail = false) {negative : Bool}
    {number rest : Str}
    (split : splitSign (stream.rest.dropWhile isSpace) = (negative, number ++ rest))
    (some_ : number ≠ []) (all : ∀ c ∈ number, isDigit c)
    (stop : ∀ c ∈ rest.head?, isDigit c = false) :
    stream.extract store zero old = ((store negative (decimal number)).1,
      { rest, eof := rest = [], fail := !(store negative (decimal number)).2 }) := by
  have taken : (number ++ rest).takeWhile isDigit = number := by
    rw [List.takeWhile_append_of_pos all]
    cases rest with
    | nil => simp
    | cons c rest => simp [stop c rfl]
  have dropped : (number ++ rest).dropWhile isDigit = rest := by
    rw [List.dropWhile_append_of_pos all]
    cases rest with
    | nil => rfl
    | cons c rest => simp [stop c rfl]
  have filled : stream.rest.dropWhile isSpace ≠ [] := by
    intro empty
    rw [empty] at split
    have nothing : [] = number ++ rest := (Prod.mk.inj split).2
    exact some_ (List.append_eq_nil_iff.mp nothing.symm).1
  unfold InStream.extract
  simp only [good.1, good.2, Bool.or_self, Bool.false_eq_true, if_false, if_neg filled, split,
    taken, if_neg some_, dropped]

theorem extract_number {A : Type} (store : Bool → Nat → A × Bool) (zero old : A)
    {negative : Bool} {number rest : Str} (some_ : number ≠ [])
    (all : ∀ c ∈ number, isDigit c) (stop : ∀ c ∈ rest.head?, isDigit c = false) :
    InStream.extract store zero old
        { rest := (if negative then [45] else []) ++ (number ++ rest) } =
      ((store negative (decimal number)).1,
        { rest, eof := rest = [], fail := !(store negative (decimal number)).2 }) := by
  apply extract_signed store zero old ⟨rfl, rfl⟩ _ some_ all stop
  cases negative with
  | true => rfl
  | false =>
    obtain ⟨c, number, rfl⟩ := List.exists_cons_of_ne_nil some_
    have digit := all c List.mem_cons_self
    simp only [Bool.false_eq_true, if_false, List.nil_append, List.cons_append]
    rw [skip_digit digit]
    exact splitSign_digit digit _

end Sace
