import Sace.Event.Reload

/-! next_token with its indexes: the signed index of the trim, the index that both loops over
the line share, and the erases, which throw when they begin past the end. -/
namespace Sace.SaceEvent.Tokens

inductive TokenState where
  | text
  | empty
  | err
  deriving DecidableEq

/-- An erase that throws out_of_range, an index past the end of the string, an int that is too
small for its value. -/
inductive TokenFault where
  | outOfRange
  | outOfBounds
  | overflow
  deriving DecidableEq

abbrev Tokenizer := Except TokenFault

def charAt (line : Str) (i : Nat) : Tokenizer UInt8 :=
  match (line)[i]? with
  | some c => .ok c
  | none => .error .outOfBounds

/-- `line.erase(pos, n)`; a negative int is past the end of every string. -/
def erase (line : Str) (pos : Int) (n : Nat) : Tokenizer Str :=
  if 0 ≤ pos ∧ pos ≤ line.length then .ok (line.take pos.toNat ++ line.drop (pos.toNat + n))
  else .error .outOfRange

def lastIndex (line : Str) : Tokenizer Int :=
  let size := (line.length : Int).bmod (2 ^ 32)
  if size = -2 ^ 31 then .error .overflow else .ok (size - 1)

def skipSpaces (line : Str) : Nat → Tokenizer Int
  | 0 => return -1
  | k + 1 => do
    if isSpace (← charAt line k) then skipSpaces line k else return k

def trimIndex (line : Str) : Tokenizer Int := do
  let j ← lastIndex line
  if 0 ≤ j then skipSpaces line (j.toNat + 1) else return j

def pushQuoted (line : Str) (i : Nat) : Tokenizer Str :=
  if i < line.length then do
    let c ← charAt line i
    if c = 34 then return []
    else do
      let pushed ← pushQuoted line (i + 1)
      return c :: pushed
  else return []
termination_by line.length - i

/-- The loop over `i`; none is TOKEN_ERR. -/
def pushToken (line : Str) (i : Nat) (token : Str) : Tokenizer (Option Str) :=
  if i < line.length then do
    let c ← charAt line i
    if c = 34 then do
      let pushed ← pushQuoted line i
      if line.length ≤ i + pushed.length then return none
      else pushToken line (i + pushed.length + 1) (token ++ 34 :: (pushed ++ [34]))
    else if c = 92 then pushToken line (i + 1) (token ++ [92])
    else if c = 9 ∨ c = 32 ∨ c = 10 then return some token
    else pushToken line (i + 1) (token ++ [c])
  else return some token
termination_by line.length - i

/-- `next_token`: its answer, and `line` and `token` afterwards. -/
def nextToken (line token : Str) : Tokenizer (TokenState × Str × Str) := do
  let j ← trimIndex line
  let line ← erase line j line.length
  if line = [] then return (.empty, line, token)
  else
    match ← pushToken line 0 [] with
    | none => return (.err, line, token)
    | some str =>
      let line ← erase line 0 str.length
      return (.text, line, str)

/-! ### What is asked for -/

/-- A space, a tab or a newline with an even number of quotes before it. -/
def Breaks (t : Str) (k : Nat) : Prop :=
  ∃ c, t[k]? = some c ∧ isBlank c = true ∧ (t.take k).count 34 % 2 = 0

/-- The longest prefix that ends before the first blank outside quotes. -/
def IsToken (t token : Str) : Prop :=
  token <+: t ∧ (∀ k < token.length, ¬ Breaks t k) ∧
    (token.length = t.length ∨ Breaks t token.length)

/-- The quote that is open at the end was opened before any blank outside quotes. -/
def Unterminated (t : Str) : Prop := (∀ k, ¬ Breaks t k) ∧ t.count 34 % 2 = 1

/-- The call returns; a token and the rest of the line make up the trimmed line, and a quote
that is not closed is an error. -/
def TokenRight (line token : Str) : Prop :=
  ∃ state rest out, nextToken line token = .ok (state, rest, out) ∧
    (state = .text → IsToken (trimRight line) out ∧ out ++ rest = trimRight line) ∧
    (Unterminated (trimRight line) → state = .err)

/-! ### The loops -/

variable {line token : Str}

@[simp] theorem ok_then {A B : Type} (a : A) (f : A → Tokenizer B) :
    (Except.ok a : Tokenizer A) >>= f = f a := rfl

theorem charAt_of_lt {i : Nat} (inside : i < line.length) : charAt line i = .ok (line)[i] := by
  simp [charAt, inside]

theorem trimRight_concat (line : Str) (c : UInt8) :
    trimRight (line ++ [c]) = if isSpace c then trimRight line else line ++ [c] := by
  simp only [trimRight, List.reverse_append, List.reverse_singleton, List.singleton_append,
    List.dropWhile_cons]
  split <;> simp

theorem skipSpaces_eq {k : Nat} (inside : k ≤ line.length) :
    skipSpaces line k = .ok ((trimRight (line.take k)).length - 1) := by
  induction k with
  | zero => rfl
  | succ k ih =>
    have before := Nat.le_of_lt inside
    have one : line.take (k + 1) = line.take k ++ [(line)[k]] := by simp
    rw [skipSpaces, charAt_of_lt inside, ok_then, one, trimRight_concat]
    split
    · exact ih before
    · simp only [List.length_append, List.length_take_of_le before, List.length_singleton]
      exact congrArg Except.ok (by omega)

theorem pushQuoted_quote {i : Nat} (inside : i < line.length) (quote : (line)[i] = 34) :
    pushQuoted line i = .ok [] := by
  rw [pushQuoted, if_pos inside, charAt_of_lt inside, quote]
  rfl

/-- Both loops together double every quote up to the first blank; no quote is ever open. -/
theorem pushToken_eq (line : Str) (i : Nat) (token : Str) :
    pushToken line i token = .ok (some (token ++ scanToken (line.drop i))) := by
  induction left : line.length - i generalizing i token with
  | zero =>
    have past : line.length ≤ i := by omega
    rw [pushToken, if_neg (by omega), List.drop_eq_nil_of_le past, scanToken, List.append_nil]
    rfl
  | succ n ih =>
    have inside : i < line.length := by omega
    have next := fun pushed => ih (i + 1) (token ++ pushed) (by omega)
    rw [pushToken, if_pos inside, charAt_of_lt inside, ok_then, List.drop_eq_getElem_cons inside,
      scanToken]
    generalize at_i : (line)[i] = c
    by_cases quote : c = 34
    · rw [if_pos quote, if_pos quote, pushQuoted_quote inside (at_i.trans quote), ok_then,
        List.length_nil, if_neg (by omega)]
      simpa using next [34, 34]
    · rw [if_neg quote, if_neg quote]
      by_cases backslash : c = 92
      · have solid : ¬ isBlank c = true := by
          rw [backslash]
          decide
        rw [if_pos backslash, if_neg solid, next, backslash]
        simp
      · rw [if_neg backslash]
        by_cases blank : c = 9 ∨ c = 32 ∨ c = 10
        · have blank' : isBlank c = true := by simpa [isBlank, or_assoc] using blank
          rw [if_pos blank, if_pos blank', List.append_nil]
          rfl
        · have solid : ¬ isBlank c = true := by simpa [isBlank, or_assoc] using blank
          rw [if_neg blank, if_neg solid, next]
          simp

/-! ### The call -/

def scanned (line : Str) : Str := trimRight (line.take (line.length % 2 ^ 32))

def Signed (line : Str) : Prop := line.length % 2 ^ 32 < 2 ^ 31

instance (line : Str) : Decidable (Signed line) := inferInstanceAs (Decidable (_ < _))

theorem trimRight_mono {xs ys : Str} (part : xs <+: ys) : trimRight xs <+: trimRight ys := by
  obtain ⟨zs, rfl⟩ := part
  unfold trimRight
  rw [List.reverse_append, List.dropWhile_append]
  split
  · exact List.prefix_refl _
  · rw [List.reverse_append, List.reverse_reverse]
    exact (trimRight_begins xs).trans (List.prefix_append ..)

theorem scanned_begins (line : Str) : scanned line <+: trimRight line :=
  trimRight_mono (List.take_prefix ..)

theorem lastIndex_eq (signed : Signed line) :
    lastIndex line = .ok ((line.length % 2 ^ 32 : Nat) - 1) := by
  unfold Signed at signed
  have size : (line.length : Int).bmod (2 ^ 32) = (line.length % 2 ^ 32 : Nat) := by
    rw [Int.bmod_def]
    split <;> omega
  unfold lastIndex
  rw [size]
  exact if_neg (by omega)

theorem trimIndex_eq (signed : Signed line) :
    trimIndex line = .ok ((scanned line).length - 1) := by
  rw [trimIndex, lastIndex_eq signed, ok_then]
  by_cases filled : 0 < line.length % 2 ^ 32
  · have k : ((line.length % 2 ^ 32 : Nat) - 1 : Int).toNat + 1 = line.length % 2 ^ 32 := by omega
    rw [if_pos (by omega), k]
    exact skipSpaces_eq (Nat.mod_le ..)
  · have none : line.length % 2 ^ 32 = 0 := by omega
    rw [if_neg (by omega), scanned, none]
    rfl

/-- A size that is a negative int overflows, or the index stays negative. -/
theorem trimIndex_unsigned (unsigned : ¬ Signed line) :
    trimIndex line = .error .overflow ∨ ∃ j < 0, trimIndex line = .ok j := by
  unfold Signed at unsigned
  have size : (line.length : Int).bmod (2 ^ 32) = (line.length % 2 ^ 32 : Nat) - 2 ^ 32 := by
    rw [Int.bmod_def]
    split <;> omega
  by_cases least : line.length % 2 ^ 32 = 2 ^ 31
  · left
    have last : lastIndex line = .error .overflow := by
      unfold lastIndex
      rw [size]
      exact if_pos (by omega)
    rw [trimIndex, last]
    rfl
  · right
    have last : lastIndex line = .ok ((line.length % 2 ^ 32 : Nat) - 2 ^ 32 - 1) := by
      unfold lastIndex
      rw [size]
      exact if_neg (by omega)
    refine ⟨(line.length % 2 ^ 32 : Nat) - 2 ^ 32 - 1, by omega, ?_⟩
    rw [trimIndex, last, ok_then, if_neg (by omega)]
    rfl

theorem erase_negative {j : Int} (negative : j < 0) (n : Nat) :
    erase line j n = .error .outOfRange :=
  if_neg (by omega)

theorem erase_front (line : Str) (n : Nat) : erase line 0 n = .ok (line.drop n) := by
  simp [erase]

/-- The erase takes the last character that is no space with it. -/
theorem erase_scanned (filled : scanned line ≠ []) :
    erase line ((scanned line).length - 1) line.length = .ok (scanned line).dropLast := by
  have begins : scanned line <+: line := (trimRight_begins _).trans (List.take_prefix ..)
  have long := List.length_pos_iff.mpr filled
  have short := begins.length_le
  have index : ((scanned line).length - 1 : Int).toNat = (scanned line).length - 1 := by omega
  have front : line.take ((scanned line).length - 1) = (scanned line).dropLast := by
    have same := List.prefix_iff_eq_take.mp begins
    rw [List.dropLast_eq_take]
    conv_rhs => rw [same, List.take_take]
    rw [List.length_take]
    congr 1
    omega
  rw [erase, if_pos (by omega), index, front, List.drop_eq_nil_of_le (by omega), List.append_nil]

theorem nextToken_eq (signed : Signed line) (filled : scanned line ≠ []) (token : Str) :
    nextToken line token = .ok (if (scanned line).dropLast = [] then (.empty, [], token)
      else (.text, (scanned line).dropLast.drop (scanToken (scanned line).dropLast).length,
        scanToken (scanned line).dropLast)) := by
  rw [nextToken, trimIndex_eq signed, ok_then, erase_scanned filled, ok_then]
  split
  · rename_i empty
    rw [empty]
    rfl
  · rw [pushToken_eq, ok_then]
    simp [erase_front]

theorem nextToken_faults (unreached : ¬ (Signed line ∧ scanned line ≠ [])) (token : Str) :
    ∃ fault, nextToken line token = .error fault := by
  have thrown : ∀ j < 0, trimIndex line = .ok j →
      nextToken line token = .error .outOfRange := by
    intro j negative at_j
    rw [nextToken, at_j, ok_then, erase_negative negative]
    rfl
  by_cases signed : Signed line
  · have empty : scanned line = [] := by
      by_contra filled
      exact unreached ⟨signed, filled⟩
    refine ⟨_, thrown (-1) (by omega) ?_⟩
    rw [trimIndex_eq signed, empty]
    rfl
  · rcases trimIndex_unsigned signed with overflow | ⟨j, negative, at_j⟩
    · refine ⟨.overflow, ?_⟩
      rw [nextToken, overflow]
      rfl
    · exact ⟨_, thrown j negative at_j⟩

/-! ### Where the call is right -/

def Plain (a : Str) : Prop := ∀ c ∈ a, c ≠ 34 ∧ isBlank c = false

/-- The line is a single character, or a word and quotes that the doubling makes up for: the
call returns, and what it returns is right. -/
def Settled (line : Str) : Prop :=
  Signed line ∧ scanned line ≠ [] ∧
    ((scanned line).length = 1 ∧ ¬ Unterminated (trimRight line) ∨
      ∃ (a : Str) (k : Nat), Plain a ∧ 0 < k ∧
        (scanned line).dropLast = a ++ List.replicate k 34 ∧
        trimRight line = a ++ List.replicate (2 * k) 34)

theorem scanToken_quotes (k : Nat) :
    scanToken (List.replicate k 34) = List.replicate (2 * k) 34 := by
  induction k with
  | zero => rfl
  | succ k ih => rw [List.replicate_succ, scanToken, if_pos rfl, ih, Nat.mul_succ]; rfl

theorem scanToken_word {a : Str} (plain : Plain a) (k : Nat) :
    scanToken (a ++ List.replicate k 34) = a ++ List.replicate (2 * k) 34 := by
  induction a with
  | nil => exact scanToken_quotes k
  | cons c a ih =>
    obtain ⟨quote, solid⟩ := plain c List.mem_cons_self
    have tail := ih fun d member => plain d (List.mem_cons_of_mem _ member)
    rw [List.cons_append, scanToken, if_neg quote, if_neg (by simp [solid]), tail,
      List.cons_append]

/-- Behind a doubled quote only quotes can go on like the text itself. -/
theorem quotes_of_prefix {rest : Str} {n : Nat} (some : 0 < n)
    (part : rest <+: List.replicate n 34 ++ scanToken rest) : ∃ k, rest = List.replicate k 34 := by
  induction rest generalizing n with
  | nil => exact ⟨0, rfl⟩
  | cons c rest ih =>
    obtain ⟨n, rfl⟩ := Nat.exists_eq_succ_of_ne_zero (Nat.ne_of_gt some)
    obtain ⟨rfl, part⟩ := List.cons_prefix_cons.mp part
    rw [scanToken, if_pos rfl] at part
    have longer : List.replicate n 34 ++ 34 :: 34 :: scanToken rest =
        List.replicate (n + 2) 34 ++ scanToken rest := by
      rw [List.replicate_add, List.append_assoc]
      rfl
    have onward : rest <+: List.replicate (n + 2) 34 ++ scanToken rest := by
      rw [← longer]
      exact part
    obtain ⟨k, rfl⟩ := ih (Nat.succ_pos _) onward
    exact ⟨k + 1, rfl⟩

theorem word_of_prefix {u : Str} (part : u <+: scanToken u)
    (longer : u.length < (scanToken u).length) :
    ∃ (a : Str) (k : Nat), Plain a ∧ 0 < k ∧ u = a ++ List.replicate k 34 := by
  induction u with
  | nil => cases longer
  | cons c rest ih =>
    unfold scanToken at part longer
    split at part
    · rename_i quote
      obtain ⟨-, part⟩ := List.cons_prefix_cons.mp part
      obtain ⟨k, rfl⟩ := quotes_of_prefix (n := 1) Nat.one_pos part
      exact ⟨[], k + 1, (fun _ no => by cases no), Nat.succ_pos _, by rw [quote]; rfl⟩
    · rename_i quote
      split at part
      · cases List.prefix_nil.mp part
      · rename_i solid
        rw [if_neg quote, if_neg solid, List.length_cons, List.length_cons] at longer
        obtain ⟨-, part⟩ := List.cons_prefix_cons.mp part
        obtain ⟨a, k, plain, some, rfl⟩ := ih part (by omega)
        refine ⟨c :: a, k, fun d member => ?_, some, rfl⟩
        rcases List.mem_cons.mp member with rfl | member
        · exact ⟨quote, by simpa using solid⟩
        · exact plain d member

theorem solid_word {a : Str} (plain : Plain a) (k : Nat) :
    ∀ c ∈ a ++ List.replicate k 34, isBlank c = false := by
  intro c member
  rcases List.mem_append.mp member with member | member
  · exact (plain c member).2
  · rw [List.eq_of_mem_replicate member]
    rfl

theorem not_breaks {t : Str} (solid : ∀ c ∈ t, isBlank c = false) (k : Nat) : ¬ Breaks t k := by
  rintro ⟨c, at_k, blank, -⟩
  rw [solid c (List.mem_of_getElem? at_k)] at blank
  cases blank

theorem isToken_whole {t : Str} (solid : ∀ c ∈ t, isBlank c = false) : IsToken t t :=
  ⟨List.prefix_refl t, fun k _ => not_breaks solid k, .inl rfl⟩

theorem count_word {a : Str} (plain : Plain a) (k : Nat) :
    (a ++ List.replicate k 34).count 34 = k := by
  have none : a.count 34 = 0 := List.count_eq_zero.mpr fun member => (plain 34 member).1 rfl
  rw [List.count_append, none, List.count_replicate_self, Nat.zero_add]

/-- What is left when the last character is gone gives the line back only by doubled quotes. -/
theorem token_whole_iff {u t : Str} (part : u <+: t) (shorter : u.length < t.length) :
    IsToken t (scanToken u) ∧ scanToken u ++ u.drop (scanToken u).length = t ↔
      ∃ (a : Str) (k : Nat), Plain a ∧ 0 < k ∧ u = a ++ List.replicate k 34 ∧
        t = a ++ List.replicate (2 * k) 34 := by
  constructor
  · rintro ⟨-, whole⟩
    have size := congrArg List.length whole
    rw [List.length_append, List.length_drop] at size
    have same : scanToken u = t := by
      rwa [List.drop_eq_nil_of_le (by omega), List.append_nil] at whole
    rw [← same] at part shorter
    obtain ⟨a, k, plain, some, eq⟩ := word_of_prefix part shorter
    refine ⟨a, k, plain, some, eq, ?_⟩
    rw [← same, eq, scanToken_word plain]
  · rintro ⟨a, k, plain, some, rfl, rfl⟩
    rw [scanToken_word plain, List.drop_eq_nil_of_le (by simp; omega), List.append_nil]
    exact ⟨isToken_whole (solid_word plain _), rfl⟩

theorem dropLast_begins (line : Str) : (scanned line).dropLast <+: trimRight line :=
  (List.dropLast_prefix _).trans (scanned_begins line)

theorem dropLast_shorter (filled : scanned line ≠ []) :
    (scanned line).dropLast.length < (trimRight line).length := by
  have within := (scanned_begins line).length_le
  have long := List.length_pos_iff.mpr filled
  rw [List.length_dropLast]
  omega

theorem settled_of_right (right : TokenRight line token) : Settled line := by
  obtain ⟨state, rest, out, done, text, err⟩ := right
  have reaches : Signed line ∧ scanned line ≠ [] := by
    by_contra unreached
    obtain ⟨fault, failed⟩ := nextToken_faults unreached token
    rw [failed] at done
    cases done
  obtain ⟨signed, filled⟩ := reaches
  refine ⟨signed, filled, ?_⟩
  rw [nextToken_eq signed filled] at done
  split at done
  · rename_i empty
    cases done
    have size := congrArg List.length empty
    have long := List.length_pos_iff.mpr filled
    rw [List.length_dropLast, List.length_nil] at size
    refine .inl ⟨by omega, fun unterminated => ?_⟩
    cases err unterminated
  · cases done
    exact .inr ((token_whole_iff (dropLast_begins line) (dropLast_shorter filled)).mp (text rfl))

theorem Settled.right (settled : Settled line) (token : Str) : TokenRight line token := by
  obtain ⟨signed, filled, single | word⟩ := settled
  · have empty : (scanned line).dropLast = [] := by
      apply List.eq_nil_of_length_eq_zero
      rw [List.length_dropLast, single.1]
    refine ⟨.empty, [], token, ?_, fun text => ?_, fun unterminated => ?_⟩
    · rw [nextToken_eq signed filled, if_pos empty]
    · cases text
    · exact absurd unterminated single.2
  · have whole := (token_whole_iff (dropLast_begins line) (dropLast_shorter filled)).mpr word
    obtain ⟨a, k, plain, some, left, trimmed⟩ := word
    have more : (scanned line).dropLast ≠ [] := by
      rw [left]
      simp
      omega
    refine ⟨.text, _, _, (nextToken_eq signed filled token).trans (by rw [if_neg more]),
      fun _ => whole, ?_⟩
    rintro ⟨-, odd⟩
    rw [trimmed, count_word plain] at odd
    omega

/-- The call is right about exactly the lines that the erase and the doubling leave right. -/
theorem tokenRight_iff (line token : Str) : TokenRight line token ↔ Settled line := by
  constructor
  · exact settled_of_right
  · intro settled
    exact settled.right token

/-- The last letter of the line is lost. -/
theorem tokenRight_shortened : ¬ ∀ line token, TokenRight line token := by
  intro right
  obtain ⟨state, rest, out, done, text, -⟩ := right (str "test ping") []
  rw [nextToken_eq (by decide) (by decide)] at done
  cases done
  exact absurd (text rfl).2 (by decide)

end Sace.SaceEvent.Tokens
