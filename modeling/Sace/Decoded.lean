import Mathlib.Data.List.Count
import Sace.Numerals

/-! What user and group strings mean, and what parseCommandParams makes of them. -/
namespace Sace

def numeral (s : Str) : Option UInt32 :=
  if s ≠ [] ∧ s.all isDigit ∧ decimal s < 2 ^ 32 then some (UInt32.ofNat (decimal s))
  else none

def decoding (env : ParseEnv) (s : Str) : Option UInt32 :=
  match numeral s with
  | some id => some id
  | none => if s = [] then none else env.getpwnam (Bytes.cString s)

/-- What `decode_uid` finds; it does not depend on what the output parameter held. -/
def decoded (env : ParseEnv) (s : Str) : Option UInt32 :=
  if (decodeUid env s 0).1 then some (decodeUid env s 0).2 else none

def StartsAlpha (s : Str) : Prop := ∃ c rest, s = c :: rest ∧ isAlpha c

instance (s : Str) : Decidable (StartsAlpha s) :=
  match s with
  | [] => .isFalse fun ⟨_, _, no, _⟩ => nomatch no
  | c :: rest => @decidable_of_iff _ (isAlpha c = true) ⟨fun alpha => ⟨c, rest, rfl, alpha⟩,
      fun ⟨_, _, eq, alpha⟩ => (List.cons.inj eq).1 ▸ alpha⟩ inferInstance

/-- The strings that are read right. Beside them a string that is neither a name nor a numeral
below 2^32 is read by strtoul, as far as its digits go and cut to 32 bits. -/
def Legible (env : ParseEnv) (s : Str) : Prop :=
  s = [] ∨ StartsAlpha s ∨ (numeral s).isSome ∨
    if (strtoul s).2 then env.getpwnam (Bytes.cString s) = none
    else env.getpwnam (Bytes.cString s) = some (strtoul s).1.toUInt32

/-! ### One string -/

/-- strtoul reads a string of digits to its end. -/
theorem strtoul_digits {s : Str} (digits : ∀ c ∈ s, isDigit c) (small : decimal s < 2 ^ 64) :
    strtoul s = (UInt64.ofNat (decimal s), false) := by
  have whole : Bytes.cString s = s := by
    apply Bytes.cString_of_whole
    intro zero
    exact absurd (digit_range (digits 0 zero)) (by decide)
  have split : splitSign (s.dropWhile isSpace) = (false, s) := by
    cases s with
    | nil => rfl
    | cons c rest =>
      have digit := digits c List.mem_cons_self
      rw [skip_digit digit, splitSign_digit digit]
  have taken : s.takeWhile isDigit = s := List.takeWhile_eq_self_iff.mpr digits
  unfold strtoul
  rw [whole, split]
  dsimp only
  rw [taken, if_neg (by omega)]
  rfl

theorem decoded_name {env : ParseEnv} {s : Str} (alpha : StartsAlpha s) :
    decoded env s = env.getpwnam (Bytes.cString s) := by
  obtain ⟨c, rest, rfl, alpha⟩ := alpha
  simp only [decoded, decodeUid, alpha, if_true]
  cases env.getpwnam (Bytes.cString (c :: rest)) with
  | none => rfl
  | some id => rfl

theorem decoded_other {env : ParseEnv} {s : Str} (some_ : s ≠ []) (other : ¬ StartsAlpha s) :
    decoded env s = if (strtoul s).2 then none else some (strtoul s).1.toUInt32 := by
  cases s with
  | nil => exact absurd rfl some_
  | cons c rest =>
    have notAlpha : ¬ isAlpha c := fun alpha => other ⟨c, rest, rfl, alpha⟩
    simp only [decoded, decodeUid, notAlpha]
    cases (strtoul (c :: rest)).2 <;> rfl

theorem numeral_some {s : Str} {id : UInt32} (is : numeral s = some id) :
    s ≠ [] ∧ (∀ c ∈ s, isDigit c) ∧ decimal s < 2 ^ 32 ∧ id = UInt32.ofNat (decimal s) := by
  unfold numeral at is
  split at is
  · rename_i all
    exact ⟨all.1, List.all_eq_true.mp all.2.1, all.2.2, (Option.some.inj is).symm⟩
  · cases is

theorem alpha_not_numeral {s : Str} (alpha : StartsAlpha s) : numeral s = none := by
  cases is : numeral s with
  | none => rfl
  | some id =>
    obtain ⟨c, rest, rfl, alpha⟩ := alpha
    obtain ⟨-, digits, -, -⟩ := numeral_some is
    rw [digit_not_alpha (digits c List.mem_cons_self)] at alpha
    cases alpha

theorem numeral_not_alpha {s : Str} {id : UInt32} (is : numeral s = some id) :
    ¬ StartsAlpha s := by
  intro alpha
  rw [alpha_not_numeral alpha] at is
  cases is

theorem decoded_numeral {env : ParseEnv} {s : Str} {id : UInt32} (is : numeral s = some id) :
    decoded env s = some id := by
  obtain ⟨some_, digits, small, rfl⟩ := numeral_some is
  rw [decoded_other some_ (numeral_not_alpha is), strtoul_digits digits (by omega),
    if_neg (by simp)]
  congr 1
  apply UInt32.toNat_inj.mp
  simp

/-- `decode_uid` finds what a string means exactly when the string is legible. -/
theorem decoded_iff (env : ParseEnv) (s : Str) :
    decoded env s = decoding env s ↔ Legible env s := by
  unfold decoding Legible
  by_cases empty : s = []
  · subst empty
    simp [decoded, decodeUid, numeral]
  by_cases alpha : StartsAlpha s
  · simp [decoded_name alpha, alpha_not_numeral alpha, empty, alpha]
  cases is : numeral s with
  | some id => simp [decoded_numeral is]
  | none =>
    rw [decoded_other empty alpha]
    simp only [empty, alpha, Option.isSome_none, Bool.false_eq_true, false_or, if_false]
    split
    · exact eq_comm
    · exact eq_comm

/-! ### The supplementary groups -/

def undecodable (env : ParseEnv) (s : Str) : Bool := (decoding env s).isNone

/-- What a legible string leaves in the output parameter: its id, or the ULONG_MAX of a numeral
that strtoul finds out of range; the empty string and an unknown name leave the old value. -/
def stored (env : ParseEnv) (s : Str) : Option UInt32 :=
  match decoding env s with
  | some id => some id
  | none => if s = [] ∨ StartsAlpha s then none else some 0xFFFFFFFF

/-- As many strings are undecodable as are decodable, and what was stored last when the k-th
undecodable one has been read is the id of the k-th decodable one. -/
def Echoed (env : ParseEnv) (gids : List Str) (suppGid : UInt32) : Prop :=
  gids.countP (undecodable env) = (gids.filterMap (decoding env)).length ∧
  ∀ before g after, gids = before ++ g :: after → undecodable env g →
    (gids.filterMap (decoding env))[before.countP (undecodable env)]? =
      some (((before ++ [g]).filterMap (stored env)).getLastD suppGid)

theorem strtoul_range {s : Str} (range : (strtoul s).2) :
    (strtoul s).1.toUInt32 = 0xFFFFFFFF := by
  unfold strtoul at range ⊢
  dsimp only at range ⊢
  split at range
  · rename_i large
    rw [if_pos large]
    rfl
  · cases range

theorem decodeUid_legible {env : ParseEnv} {s : Str} (legible : Legible env s) (uid : UInt32) :
    decodeUid env s uid = (!undecodable env s, (stored env s).getD uid) := by
  have found := (decoded_iff env s).mpr legible
  unfold undecodable stored
  rw [← found]
  by_cases alpha : StartsAlpha s
  · rw [decoded_name alpha]
    obtain ⟨c, rest, rfl, first⟩ := alpha
    have again : StartsAlpha (c :: rest) := ⟨c, rest, rfl, first⟩
    simp only [decodeUid, first, if_true]
    cases env.getpwnam (Bytes.cString (c :: rest)) with
    | none => simp [again]
    | some id => rfl
  cases s with
  | nil => simp [decoded, decodeUid]
  | cons c rest =>
    have first : ¬ isAlpha c := fun first => alpha ⟨c, rest, rfl, first⟩
    rw [decoded_other (List.cons_ne_nil _ _) alpha]
    simp only [decodeUid, first]
    cases range : (strtoul (c :: rest)).2 with
    | false => simp
    | true => simp [alpha, strtoul_range range]

theorem parseSuppGids_cons {env : ParseEnv} {g : Str} (legible : Legible env g)
    (rest : List Str) (suppGid : UInt32) :
    parseSuppGids env (g :: rest) suppGid =
      if undecodable env g then
        (stored env g).getD suppGid :: parseSuppGids env rest ((stored env g).getD suppGid)
      else parseSuppGids env rest ((stored env g).getD suppGid) := by
  rw [parseSuppGids, decodeUid_legible legible]
  dsimp only
  cases undecodable env g <;> rfl

theorem parseSuppGids_length {env : ParseEnv} {gids : List Str}
    (legible : ∀ g ∈ gids, Legible env g) (suppGid : UInt32) :
    (parseSuppGids env gids suppGid).length = gids.countP (undecodable env) := by
  induction gids generalizing suppGid with
  | nil => rfl
  | cons g rest ih =>
    have others : ∀ g ∈ rest, Legible env g :=
      fun other member => legible other (List.mem_cons_of_mem _ member)
    rw [parseSuppGids_cons (legible g List.mem_cons_self), List.countP_cons]
    split
    · rw [List.length_cons, ih others]
    · rw [ih others, Nat.add_zero]

theorem getLastD_stored (env : ParseEnv) (g : Str) (rest : List Str) (suppGid : UInt32) :
    ((g :: rest).filterMap (stored env)).getLastD suppGid =
      (rest.filterMap (stored env)).getLastD ((stored env g).getD suppGid) := by
  cases store : stored env g with
  | none => rw [List.filterMap_cons_none store, Option.getD_none]
  | some id => rw [List.filterMap_cons_some store, List.getLastD_cons, Option.getD_some]

theorem parseSuppGids_at {env : ParseEnv} {before after : List Str} {g : Str}
    (legible : ∀ h ∈ before ++ g :: after, Legible env h) (undecoded : undecodable env g)
    (suppGid : UInt32) :
    (parseSuppGids env (before ++ g :: after) suppGid)[before.countP (undecodable env)]? =
      some (((before ++ [g]).filterMap (stored env)).getLastD suppGid) := by
  induction before generalizing suppGid with
  | nil =>
    rw [List.nil_append, parseSuppGids_cons (legible g List.mem_cons_self), if_pos undecoded,
      List.nil_append, getLastD_stored]
    rfl
  | cons b before ih =>
    have others : ∀ h ∈ before ++ g :: after, Legible env h :=
      fun other member => legible other (List.mem_cons_of_mem _ member)
    rw [List.cons_append, parseSuppGids_cons (legible b List.mem_cons_self), List.countP_cons,
      List.cons_append, getLastD_stored, ← ih others]
    split
    · rfl
    · rfl

/-- Every place up to the count is that of an element that counts. -/
theorem countP_split {A : Type} (p : A → Bool) {xs : List A} {k : Nat} (inside : k < xs.countP p) :
    ∃ before x after, xs = before ++ x :: after ∧ p x ∧ before.countP p = k := by
  induction xs generalizing k with
  | nil => cases inside
  | cons x xs ih =>
    rw [List.countP_cons] at inside
    by_cases here : p x
    · cases k with
      | zero => exact ⟨[], x, xs, rfl, here, rfl⟩
      | succ k =>
        rw [if_pos here] at inside
        obtain ⟨before, y, after, rfl, counts, at_⟩ := ih (Nat.lt_of_succ_lt_succ inside)
        exact ⟨x :: before, y, after, rfl, counts, by simp [here, at_]⟩
    · rw [if_neg here, Nat.add_zero] at inside
      obtain ⟨before, y, after, rfl, counts, at_⟩ := ih inside
      exact ⟨x :: before, y, after, rfl, counts, by simp [here, at_]⟩

/-- The inverted test gives the ids after all exactly when the old values make up for it. -/
theorem parseSuppGids_iff {env : ParseEnv} {gids : List Str}
    (legible : ∀ g ∈ gids, Legible env g) (suppGid : UInt32) :
    parseSuppGids env gids suppGid = gids.filterMap (decoding env) ↔
      Echoed env gids suppGid := by
  constructor
  · intro same
    constructor
    · rw [← same, parseSuppGids_length legible]
    · rintro before g after rfl undecoded
      rw [← same]
      exact parseSuppGids_at legible undecoded suppGid
  · rintro ⟨count, echo⟩
    apply List.ext_getElem?
    intro k
    by_cases inside : k < gids.countP (undecodable env)
    · obtain ⟨before, g, after, split, undecoded, rfl⟩ := countP_split _ inside
      rw [echo before g after split undecoded]
      subst split
      exact parseSuppGids_at legible undecoded suppGid
    · rw [List.getElem?_eq_none, List.getElem?_eq_none]
      · omega
      · rw [parseSuppGids_length legible]
        omega

/-! ### The parameters -/

/-- The strings are decoded to what they mean, and the parameters hold these ids. -/
structure DecodedAs (env : ParseEnv) (params : SaceCommandParams) : Prop where
  strings : ∀ s ∈ params.uid :: params.gid :: params.suppGids, decoded env s = decoding env s
  uid : (parseCommandParams env params).uid = (decoding env params.uid).getD DEF_UID
  gid : (parseCommandParams env params).gid = (decoding env params.gid).getD DEF_GID
  suppGids : (parseCommandParams env params).suppGids =
    params.suppGids.filterMap (decoding env)

theorem parsed_id (env : ParseEnv) (s : Str) (default_ : UInt32) :
    (if (decodeUid env s 0).1 then (decodeUid env s 0).2 else default_) =
      (decoded env s).getD default_ := by
  unfold decoded
  split <;> rfl

/-- The parameters hold what the strings mean exactly when every string is legible and the
supplementary groups come out in spite of the inverted test. -/
theorem decodedAs_iff (env : ParseEnv) (params : SaceCommandParams) :
    DecodedAs env params ↔
      (∀ s ∈ params.uid :: params.gid :: params.suppGids, Legible env s) ∧
        Echoed env params.suppGids env.suppGid := by
  have strings : (∀ s ∈ params.uid :: params.gid :: params.suppGids,
      decoded env s = decoding env s) ↔
      ∀ s ∈ params.uid :: params.gid :: params.suppGids, Legible env s := by
    constructor
    · intro all s member
      exact (decoded_iff env s).mp (all s member)
    · intro all s member
      exact (decoded_iff env s).mpr (all s member)
  constructor
  · intro right
    have legible := strings.mp right.strings
    refine ⟨legible, (parseSuppGids_iff (fun g member => legible g ?_) _).mp right.suppGids⟩
    exact List.mem_cons_of_mem _ (List.mem_cons_of_mem _ member)
  · rintro ⟨legible, echoed⟩
    have same := strings.mpr legible
    constructor
    · exact same
    · rw [← same params.uid List.mem_cons_self]
      exact parsed_id env params.uid DEF_UID
    · rw [← same params.gid (List.mem_cons_of_mem _ List.mem_cons_self)]
      exact parsed_id env params.gid DEF_GID
    · refine (parseSuppGids_iff (fun g member => legible g ?_) _).mpr echoed
      exact List.mem_cons_of_mem _ (List.mem_cons_of_mem _ member)

/-- A user id that does not fit becomes root. -/
theorem large_uid_root : ¬ ∀ env params, DecodedAs env params := by
  intro all
  have right := (all .empty { uid := str "4294967296" }).uid
  have root : (parseCommandParams .empty { uid := str "4294967296" }).uid = 0 := by
    decide +kernel
  have unknown : decoding .empty (str "4294967296") = none := by decide +kernel
  rw [root, unknown] at right
  exact absurd right (by decide)

end Sace
