import Sace.Event.Ini
import Sace.Numerals

/-! Limits as text: add_rlimits writes three numbers to a stream with nothing between them, and
parseCommandParams reads three numbers from what was written. -/
namespace Sace

structure RlimitCall where
  rlimit : Int32
  soft : Int32
  hard : Int32

/-- `in_stream<<rlimit<<soft<<hard` -/
def RlimitCall.text (call : RlimitCall) : Str :=
  toDecimal call.rlimit.toInt ++ (toDecimal call.soft.toInt ++ toDecimal call.hard.toInt)

def SaceCommandParams.addRlimits (params : SaceCommandParams) (call : RlimitCall) :
    SaceCommandParams :=
  { params with rlimits := params.rlimits ++ [call.text] }

def rlimT (x : Int32) : UInt64 := UInt64.ofInt x.toInt

def RlimitCall.limit (call : RlimitCall) : Rlimit :=
  ⟨call.rlimit.toInt, rlimT call.soft, rlimT call.hard⟩

/-! ### Numbers -/

theorem toDecimal_eq (n : Int) :
    toDecimal n = (if decide (n < 0) then [45] else []) ++ digits n.natAbs := by
  unfold toDecimal
  by_cases negative : n < 0
  · simp only [negative, if_true, decide_true]
    rfl
  · simp only [negative, if_false, decide_false, Bool.false_eq_true]
    rfl

theorem int_range (x : Int32) : -2 ^ 31 ≤ x.toInt ∧ x.toInt < 2 ^ 31 :=
  ⟨x.le_toInt, x.toInt_lt⟩

theorem digits_short (x : Int32) : (digits x.toInt.natAbs).length ≤ 10 := by
  have range := int_range x
  rw [digits, List.length_map, Nat.length_toDigits_le_iff (by decide) (by decide)]
  omega

theorem storeInt_int (x : Int32) :
    storeInt (decide (x.toInt < 0)) x.toInt.natAbs = (x.toInt, true) := by
  have range := int_range x
  unfold storeInt
  by_cases negative : x.toInt < 0
  · rw [if_pos (decide_eq_true negative), if_pos (by omega)]
    exact Prod.ext (by dsimp only; omega) rfl
  · rw [if_neg (by simpa using negative), if_pos (by omega)]
    exact Prod.ext (by dsimp only; omega) rfl

theorem ofInt_small {n : Nat} (small : n < 2 ^ 64) : UInt64.ofInt n = UInt64.ofNat n := by
  unfold UInt64.ofInt
  congr 1
  omega

theorem rlimT_neg {x : Int32} (negative : x.toInt < 0) :
    rlimT x = 0 - UInt64.ofNat x.toInt.natAbs := by
  have range := int_range x
  have value : x.toInt = -(x.toInt.natAbs : Int) := by omega
  have small := @ofInt_small x.toInt.natAbs (by omega)
  rw [rlimT, value, UInt64.ofInt_neg, Int.natAbs_neg, Int.natAbs_natCast, small,
    UInt64.zero_sub]

theorem rlimT_neg_toNat {x : Int32} (negative : x.toInt < 0) :
    (rlimT x).toNat = 2 ^ 64 - x.toInt.natAbs := by
  have range := int_range x
  have size : UInt64.size = 2 ^ 64 := rfl
  rw [rlimT_neg negative, UInt64.zero_sub, UInt64.toNat_neg,
    UInt64.toNat_ofNat_of_lt' (by omega), Nat.mod_eq_of_lt]
  · rfl
  · omega

theorem rlimT_pos_toNat {x : Int32} (positive : 0 ≤ x.toInt) :
    (rlimT x).toNat = x.toInt.natAbs := by
  have range := int_range x
  have size : UInt64.size = 2 ^ 64 := rfl
  have value : x.toInt = (x.toInt.natAbs : Int) := by omega
  rw [rlimT, value, ofInt_small (by omega), UInt64.toNat_ofNat_of_lt']
  · rfl
  · omega

theorem storeRlim_neg {x : Int32} (negative : x.toInt < 0) :
    storeRlim true x.toInt.natAbs = (rlimT x, true) := by
  have range := int_range x
  unfold storeRlim
  rw [if_neg (by omega), rlimT_neg negative]
  rfl

/-! ### One string -/

def readLimit (text : Str) (resource : Int) (cur max : UInt64) : Rlimit :=
  let (resource, stream) := InStream.extract storeInt 0 resource { rest := text }
  let (cur, stream) := stream.extract storeRlim 0 cur
  let (max, _) := stream.extract storeRlim 0 max
  ⟨resource, cur, max⟩

theorem parseRlimits_cons (text : Str) (rest : List Str) (resource : Int) (cur max : UInt64) :
    parseRlimits (text :: rest) resource cur max =
      readLimit text resource cur max ::
        parseRlimits rest (readLimit text resource cur max).resource
          (readLimit text resource cur max).cur (readLimit text resource cur max).max := rfl

/-- The numeral of a negative number begins with its sign. -/
theorem toDecimal_neg {n : Int} (negative : n < 0) : toDecimal n = 45 :: digits n.natAbs := by
  rw [toDecimal_eq, if_pos (decide_eq_true negative)]
  rfl

theorem toDecimal_pos {n : Int} (positive : 0 ≤ n) : toDecimal n = digits n.natAbs := by
  rw [toDecimal_eq, if_neg (by simpa using positive)]
  rfl

theorem stop_negative {n : Int} (negative : n < 0) :
    ∀ c ∈ (toDecimal n).head?, isDigit c = false := by
  intro c head
  rw [toDecimal_neg negative] at head
  cases Option.some.inj head
  rfl

/-- A number is read as it was written where a sign follows it. -/
theorem extract_resource (x : Int32) (rest : Str) (old : Int) :
    InStream.extract storeInt 0 old { rest := toDecimal x.toInt ++ (45 :: rest) } =
      (x.toInt, { rest := 45 :: rest }) := by
  have stop : ∀ c ∈ (45 :: rest : Str).head?, isDigit c = false := by
    intro c first
    cases Option.some.inj first
    rfl
  rw [toDecimal_eq, List.append_assoc,
    extract_number storeInt 0 old (digits_ne_nil _) digits_digit stop, decimal_digits, storeInt_int]
  rfl

theorem extract_negative {x : Int32} (negative : x.toInt < 0) {rest : Str}
    (stop : ∀ c ∈ rest.head?, isDigit c = false) (old : UInt64) :
    InStream.extract storeRlim 0 old { rest := toDecimal x.toInt ++ rest } =
      (rlimT x, { rest, eof := rest = [] }) := by
  rw [toDecimal_eq, List.append_assoc,
    extract_number storeRlim 0 old (digits_ne_nil _) digits_digit stop, decimal_digits,
    decide_eq_true negative, storeRlim_neg negative]
  rfl

theorem extract_last {x : Int32} (negative : x.toInt < 0) (old : UInt64) :
    InStream.extract storeRlim 0 old { rest := toDecimal x.toInt } =
      (rlimT x, { rest := [], eof := true }) := by
  have last := @extract_negative x negative [] (by simp) old
  rw [List.append_nil] at last
  exact last

/-- A negative soft limit: its sign ends the resource. -/
theorem readLimit_soft {call : RlimitCall} (negative : call.soft.toInt < 0) (resource : Int)
    (cur max : UInt64) : readLimit call.text resource cur max =
      let soft := InStream.extract storeRlim 0 cur
        { rest := toDecimal call.soft.toInt ++ toDecimal call.hard.toInt }
      ⟨call.rlimit.toInt, soft.1, (soft.2.extract storeRlim 0 max).1⟩ := by
  have first : toDecimal call.soft.toInt ++ toDecimal call.hard.toInt =
      45 :: (digits call.soft.toInt.natAbs ++ toDecimal call.hard.toInt) := by
    rw [toDecimal_neg negative]
    rfl
  unfold readLimit RlimitCall.text
  rw [first, extract_resource]

/-- Both limits negative: the signs separate the numbers. -/
theorem readLimit_negative {call : RlimitCall} (soft : call.soft.toInt < 0)
    (hard : call.hard.toInt < 0) (resource : Int) (cur max : UInt64) :
    readLimit call.text resource cur max = call.limit := by
  have more : toDecimal call.hard.toInt ≠ [] := by
    rw [toDecimal_neg hard]
    exact List.cons_ne_nil _ _
  rw [readLimit_soft soft, extract_negative soft (stop_negative hard), decide_eq_false more]
  dsimp only
  rw [extract_last hard]
  rfl

/-- A stream that is at its end or has failed leaves the variable alone. -/
theorem extract_ended {A : Type} (store : Bool → Nat → A × Bool) (zero old : A)
    {stream : InStream} (ended : stream.eof ∨ stream.fail) :
    (stream.extract store zero old).1 = old := by
  unfold InStream.extract
  rw [if_pos (by simpa using ended)]

theorem extract_failed {A : Type} (store : Bool → Nat → A × Bool) (zero old : A)
    {stream : InStream} (ended : stream.eof ∨ stream.fail) :
    (stream.extract store zero old).2.fail = true := by
  unfold InStream.extract
  rw [if_pos (by simpa using ended)]

theorem digits_append {m n : Nat} : ∀ c ∈ digits m ++ digits n, isDigit c := by
  intro c member
  rcases List.mem_append.mp member with first | second
  · exact digits_digit c first
  · exact digits_digit c second

/-- The digits of the hard limit run on behind those of a negative soft limit. -/
theorem extract_both {soft hard : Int32} (negative : soft.toInt < 0) (positive : 0 ≤ hard.toInt)
    (old : UInt64) : InStream.extract storeRlim 0 old
      { rest := toDecimal soft.toInt ++ toDecimal hard.toInt } =
        let number := digits soft.toInt.natAbs ++ digits hard.toInt.natAbs
        ((storeRlim true (decimal number)).1,
          { rest := [], eof := true, fail := !(storeRlim true (decimal number)).2 }) := by
  have some_ : digits soft.toInt.natAbs ++ digits hard.toInt.natAbs ≠ [] := by simp [digits_ne_nil]
  have read := @extract_number UInt64 storeRlim 0 old true _ [] some_ digits_append (by simp)
  have text : toDecimal soft.toInt ++ toDecimal hard.toInt = (if true then [45] else []) ++
      (digits soft.toInt.natAbs ++ digits hard.toInt.natAbs ++ []) := by
    rw [toDecimal_neg negative, toDecimal_pos positive]
    simp
  rw [text, read]
  rfl

theorem extract_joined {soft hard : Int32} (negative : soft.toInt < 0) (positive : 0 ≤ hard.toInt)
    (old : UInt64) :
    (InStream.extract storeRlim 0 old
      { rest := toDecimal soft.toInt ++ toDecimal hard.toInt }).1 ≠ rlimT soft := by
  have first := int_range soft
  have second := int_range hard
  rw [extract_both negative positive]
  dsimp only
  rw [decimal_append, decimalFrom_eq, decimal_digits, decimal_digits]
  -- ten times the soft limit at least, and for a soft limit of -1 still below 2^64
  have length := digits_length_pos hard.toInt.natAbs
  have short := digits_short hard
  have low : 10 ≤ 10 ^ (digits hard.toInt.natAbs).length :=
    Nat.le_self_pow (by omega) 10
  have high : 10 ^ (digits hard.toInt.natAbs).length ≤ 10 ^ 10 :=
    Nat.pow_le_pow_right (by decide) short
  generalize 10 ^ (digits hard.toInt.natAbs).length = power at low high
  have large : 10 * soft.toInt.natAbs ≤ soft.toInt.natAbs * power := by
    rw [Nat.mul_comm]
    exact Nat.mul_le_mul_left _ low
  intro same
  have value := congrArg UInt64.toNat same
  rw [rlimT_neg_toNat negative] at value
  unfold storeRlim at value
  by_cases beyond : 2 ^ 64 ≤ soft.toInt.natAbs * power + hard.toInt.natAbs
  · rw [if_pos beyond] at value
    have all : 2 ^ 64 - 1 = 2 ^ 64 - soft.toInt.natAbs := value
    have one : soft.toInt.natAbs = 1 := by omega
    rw [one] at beyond
    omega
  · have size : UInt64.size = 2 ^ 64 := rfl
    rw [if_neg beyond, if_pos rfl, UInt64.zero_sub, UInt64.toNat_neg,
      UInt64.toNat_ofNat_of_lt' (Nat.lt_of_not_le beyond), Nat.mod_eq_of_lt (by omega)] at value
    omega

/-- The digits of a soft limit that is not negative run on behind those of the resource. -/
theorem extract_run {call : RlimitCall} (positive : 0 ≤ call.soft.toInt) (old : Int) :
    ∃ value bad, InStream.extract storeInt 0 old { rest := call.text } = (value,
      { rest := if call.hard.toInt < 0 then toDecimal call.hard.toInt else [],
        eof := decide (0 ≤ call.hard.toInt), fail := bad }) := by
  unfold RlimitCall.text
  rw [toDecimal_eq call.rlimit.toInt, List.append_assoc, toDecimal_pos positive,
    ← List.append_assoc (digits _)]
  by_cases minus : call.hard.toInt < 0
  · have some_ : digits call.rlimit.toInt.natAbs ++ digits call.soft.toInt.natAbs ≠ [] := by
      simp [digits_ne_nil]
    have more : toDecimal call.hard.toInt ≠ [] := by
      rw [toDecimal_neg minus]
      exact List.cons_ne_nil _ _
    have back : ¬ 0 ≤ call.hard.toInt := by omega
    rw [extract_number storeInt 0 old some_ digits_append (stop_negative minus), if_pos minus,
      decide_eq_false more, decide_eq_false back]
    exact ⟨_, _, rfl⟩
  · have all : ∀ c ∈ digits call.rlimit.toInt.natAbs ++ digits call.soft.toInt.natAbs ++
        digits call.hard.toInt.natAbs, isDigit c := by
      intro c member
      rcases List.mem_append.mp member with first | last
      · exact digits_append c first
      · exact digits_digit c last
    have read := @extract_number Int storeInt 0 old (decide (call.rlimit.toInt < 0)) _ []
      (by simp [digits_ne_nil]) all (by simp)
    rw [List.append_nil] at read
    rw [toDecimal_pos (by omega : 0 ≤ call.hard.toInt), read, if_neg minus,
      decide_eq_true (by omega : 0 ≤ call.hard.toInt)]
    exact ⟨_, _, rfl⟩

/-- Unless both limits are negative the soft limit comes out wrong, when the variable did not
hold it by accident. -/
theorem readLimit_joined {call : RlimitCall}
    (joined : ¬ (call.soft.toInt < 0 ∧ call.hard.toInt < 0))
    (resource : Int) {cur : UInt64} (apart : 2 ^ 31 ≤ cur.toNat) (max : UInt64) :
    (readLimit call.text resource cur max).cur ≠ rlimT call.soft := by
  have soft := int_range call.soft
  have hard := int_range call.hard
  by_cases negative : call.soft.toInt < 0
  · have positive : 0 ≤ call.hard.toInt := by omega
    rw [readLimit_soft negative]
    exact extract_joined negative positive cur
  · have positive : 0 ≤ call.soft.toInt := by omega
    have old : cur ≠ rlimT call.soft := by
      rintro rfl
      rw [rlimT_pos_toNat positive] at apart
      omega
    obtain ⟨value, bad, run⟩ := extract_run positive resource
    unfold readLimit
    rw [run]
    dsimp only
    by_cases minus : call.hard.toInt < 0
    · rw [if_pos minus, decide_eq_false (by omega : ¬ 0 ≤ call.hard.toInt)]
      cases bad with
      | true =>
        rw [extract_ended storeRlim 0 cur (.inr rfl)]
        exact old
      | false =>
        rw [extract_last minus]
        intro same
        have value := congrArg UInt64.toNat same
        rw [rlimT_neg_toNat minus, rlimT_pos_toNat positive] at value
        omega
    · rw [decide_eq_true (by omega : 0 ≤ call.hard.toInt),
        extract_ended storeRlim 0 cur (.inl rfl)]
      exact old

/-- Unless both limits are negative no number is left for the hard limit. -/
theorem readLimit_hard {call : RlimitCall} (joined : ¬ (call.soft.toInt < 0 ∧ call.hard.toInt < 0))
    (resource : Int) (cur max : UInt64) : (readLimit call.text resource cur max).max = max := by
  by_cases negative : call.soft.toInt < 0
  · rw [readLimit_soft negative, extract_both negative (by omega)]
    exact extract_ended storeRlim 0 max (.inl rfl)
  · obtain ⟨value, bad, run⟩ := extract_run (by omega : 0 ≤ call.soft.toInt) resource
    unfold readLimit
    rw [run]
    dsimp only
    apply extract_ended storeRlim 0 max
    by_cases minus : call.hard.toInt < 0
    · rw [if_pos minus, decide_eq_false (by omega : ¬ 0 ≤ call.hard.toInt)]
      cases bad with
      | true => exact .inr (extract_failed storeRlim 0 cur (.inr rfl))
      | false => exact .inl (congrArg (fun result => result.2.eof) (extract_last minus cur))
    · exact .inr (extract_failed storeRlim 0 cur (.inl (decide_eq_true (by omega))))

/-! ### A sequence of calls -/

def addAll (params : SaceCommandParams) (calls : List RlimitCall) : SaceCommandParams :=
  calls.foldl SaceCommandParams.addRlimits params

theorem addAll_eq (params : SaceCommandParams) (calls : List RlimitCall) :
    addAll params calls =
      { params with rlimits := params.rlimits ++ calls.map RlimitCall.text } := by
  induction calls generalizing params with
  | nil => simp [addAll]
  | cons call calls ih =>
    rw [addAll, List.foldl_cons]
    refine (ih _).trans ?_
    simp [SaceCommandParams.addRlimits]

/-- The limits are those of the calls, whatever the variables of the loop hold when it starts,
and so they are when the parameters have been written to a Parcel and read from it. -/
structure LimitsKept (params : SaceCommandParams) (calls : List RlimitCall) : Prop where
  parsed : ∀ env, (parseCommandParams env (addAll params calls)).rlimits =
    calls.map RlimitCall.limit
  carried : ∀ (F : ParcelFormat) (old : SaceCommandParams) (rest : Bytes) (env : ParseEnv),
    params.Text F → calls.length < 2 ^ 31 →
      (parseCommandParams env (old.readFromParcel F
        (((addAll params calls).writeToParcel F (.ended [])).data ++ rest)).1).rlimits =
          calls.map RlimitCall.limit

theorem parse_negative {calls : List RlimitCall}
    (negative : ∀ call ∈ calls, call.soft.toInt < 0 ∧ call.hard.toInt < 0) (resource : Int)
    (cur max : UInt64) : parseRlimits (calls.map RlimitCall.text) resource cur max =
      calls.map RlimitCall.limit := by
  induction calls generalizing resource cur max with
  | nil => rfl
  | cons call calls ih =>
    obtain ⟨soft, hard⟩ := negative call List.mem_cons_self
    have rest : ∀ other ∈ calls, other.soft.toInt < 0 ∧ other.hard.toInt < 0 :=
      fun other member => negative other (List.mem_cons_of_mem _ member)
    rw [List.map_cons, parseRlimits_cons, readLimit_negative soft hard, ih rest, List.map_cons]

/-- What a right turn leaves in the variable for the soft limit is no accident for the next. -/
theorem negative_of_parse {calls : List RlimitCall} (resource : Int) {cur : UInt64}
    (apart : 2 ^ 31 ≤ cur.toNat) (max : UInt64)
    (right : parseRlimits (calls.map RlimitCall.text) resource cur max =
      calls.map RlimitCall.limit) :
    ∀ call ∈ calls, call.soft.toInt < 0 ∧ call.hard.toInt < 0 := by
  induction calls generalizing resource cur max with
  | nil =>
    intro call member
    cases member
  | cons call calls ih =>
    rw [List.map_cons, parseRlimits_cons, List.map_cons, List.cons.injEq] at right
    obtain ⟨here, rest⟩ := right
    have both : call.soft.toInt < 0 ∧ call.hard.toInt < 0 := by
      by_contra joined
      exact readLimit_joined joined resource apart max (congrArg Rlimit.cur here)
    have range := int_range call.soft
    have next : 2 ^ 31 ≤ (readLimit call.text resource cur max).cur.toNat := by
      have value := congrArg (fun limit => limit.cur.toNat) here
      rw [value, RlimitCall.limit, rlimT_neg_toNat both.1]
      omega
    intro other member
    rcases List.mem_cons.mp member with rfl | member
    · exact both
    · exact ih _ next _ rest other member

theorem toDecimal_ascii (x : Int32) :
    (toDecimal x.toInt).length ≤ 11 ∧ ∀ c ∈ toDecimal x.toInt, c < 128 := by
  have short := digits_short x
  have ascii : ∀ c ∈ digits x.toInt.natAbs, c < 128 := by
    intro c member
    have code := digit_range (digits_digit c member)
    rw [UInt8.lt_iff_toNat_lt]
    have top : (128 : UInt8).toNat = 128 := rfl
    omega
  by_cases negative : x.toInt < 0
  · rw [toDecimal_neg negative, List.length_cons]
    refine ⟨by omega, fun c member => ?_⟩
    rcases List.mem_cons.mp member with rfl | member
    · decide
    · exact ascii c member
  · rw [toDecimal_pos (by omega)]
    exact ⟨by omega, ascii⟩

theorem text_ascii (call : RlimitCall) : call.text.length < 2 ^ 16 ∧ ∀ c ∈ call.text, c < 128 := by
  have resource := toDecimal_ascii call.rlimit
  have soft := toDecimal_ascii call.soft
  have hard := toDecimal_ascii call.hard
  unfold RlimitCall.text
  constructor
  · rw [List.length_append, List.length_append]
    omega
  · intro c member
    rcases List.mem_append.mp member with member | member
    · exact resource.2 c member
    rcases List.mem_append.mp member with member | member
    · exact soft.2 c member
    · exact hard.2 c member

/-- The limits come out as they went in exactly when all of them are negative. -/
theorem limitsKept_iff {params : SaceCommandParams} (fresh : params.rlimits = [])
    (calls : List RlimitCall) : LimitsKept params calls ↔
      ∀ call ∈ calls, call.soft.toInt < 0 ∧ call.hard.toInt < 0 := by
  have texts : (addAll params calls).rlimits = calls.map RlimitCall.text := by
    rw [addAll_eq, fresh]
    rfl
  constructor
  · intro kept
    have right := kept.parsed { ParseEnv.empty with rlimCur := 2 ^ 63 }
    rw [parseCommandParams, texts] at right
    exact negative_of_parse _ (by decide +kernel) _ right
  · intro negative
    have parsed : ∀ env, (parseCommandParams env (addAll params calls)).rlimits =
        calls.map RlimitCall.limit := by
      intro env
      rw [parseCommandParams, texts]
      exact parse_negative negative ..
    refine ⟨parsed, fun F old rest env valid small => ?_⟩
    have valid : (addAll params calls).Text F := by
      rw [addAll_eq, fresh]
      refine ⟨valid.uid, valid.gid, valid.seclabel, valid.suppGids, ?_, fun s member => ?_⟩
      · rw [List.nil_append, List.length_map]
        exact small
      · obtain ⟨call, -, rfl⟩ := List.mem_map.mp member
        exact F.ascii_text _ (text_ascii call).1 (text_ascii call).2
    rw [SaceCommandParams.writeToParcel_ended, Parcel.ended_data, List.nil_append,
      SaceCommandParams.readFromParcel_body F valid]
    exact parsed env

/-- `RLIM_INFINITY` for the stack, and other negative limits for files and core. -/
theorem unlimited_kept : LimitsKept {} [⟨7, -1, -1⟩, ⟨4, -1, -2⟩, ⟨3, -1, -1⟩, ⟨7, -2, -1⟩] :=
  (limitsKept_iff rfl _).mpr (by decide)

/-- A limit of 100 files, 200 at most. -/
theorem files_lost : ¬ ∀ params : SaceCommandParams, params.rlimits = [] →
    ∀ calls, LimitsKept params calls := by
  intro all
  have right := (all {} rfl [⟨7, 100, 200⟩]).parsed .empty
  have wrong : (parseCommandParams .empty (addAll {} [⟨7, 100, 200⟩])).rlimits =
      [⟨7100200, 0, 0⟩] := by decide +kernel
  rw [wrong] at right
  exact absurd (congrArg (fun limits => limits.map Rlimit.resource) right) (by decide)

end Sace
