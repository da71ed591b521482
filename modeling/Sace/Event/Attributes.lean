import Sace.Event.Words
import Sace.Limits

/-! The attribute lines of a service: what each of them is to change in the parameters, and what
parse_service_attr changes. -/
namespace Sace

/-- A line of the service format. The limits are kept as they are written. -/
inductive ServiceAttr where
  | user (uid : Str)
  | group (gid : Str)
  | groups (gids : List Str)
  | seclabel (seclabel : Str)
  | capability (names : List Str)
  | property (name value : Str)
  | boot (flag : Bool)
  | rlimits (name hard soft : Str)

def signed (s : Str) : Option Int :=
  let (negative, number) := splitSign s
  if number ≠ [] ∧ number.all isDigit then
    some (if negative then -(decimal number : Int) else decimal number)
  else none

namespace ServiceAttr

def words : ServiceAttr → List Str
  | user uid => [str "user", uid]
  | group gid => [str "group", gid]
  | groups gids => str "groups" :: gids
  | seclabel label => [str "seclabel", label]
  | capability names => str "capability" :: names
  | property name value => [str "trigger", str "property:" ++ name ++ str "=" ++ value]
  | boot flag => [str "trigger", str "boot", if flag then str "true" else str "false"]
  | rlimits name hard soft => [str "rlimits", name, hard, soft]

/-- The operands are there, and those of a limit are a known name and two numbers. -/
def Documented : ServiceAttr → Prop
  | groups gids => gids ≠ []
  | capability names => names ≠ []
  | rlimits name hard soft =>
    (∃ entry ∈ SaceEvent.rlimitMap, str entry.1 = name) ∧ (signed hard).isSome ∧
      (signed soft).isSome
  | _ => True

/-- The field of the attribute is changed as the line says, and nothing else. A limit is there
when parseCommandParams reads it, whatever its variables hold before. -/
def Done (attr : ServiceAttr) (params after : SaceEventParams) : Prop :=
  match attr with
  | user uid => after = { params with uid }
  | group gid => after = { params with gid }
  | groups gids => after = { params with suppGids := params.suppGids ++ gids }
  | seclabel label => after = { params with seclabel := label }
  | capability names =>
    after = { params with capabilities := after.capabilities } ∧
      ∀ i, after.capabilities.getLsbD i = true ↔ params.capabilities.getLsbD i = true ∨
        ∃ name ∈ names, SaceEvent.parseCapabilityName name = some i
  | property name value =>
    after = { params with
      propertyKey := params.propertyKey ++ [name]
      propertyValue := params.propertyValue ++ [value] }
  | boot flag => after = { params with boot := flag }
  | rlimits name hard soft =>
    ∃ entry, after = { params with rlimits := params.rlimits ++ [entry] } ∧
      ∃ hardLimit softLimit, signed hard = some hardLimit ∧ signed soft = some softLimit ∧
        ∀ resource cur max, readLimit entry resource cur max =
          ⟨SaceEvent.parseRlimitsName name, UInt64.ofInt softLimit, UInt64.ofInt hardLimit⟩

def Heard (attr : ServiceAttr) (line : Str) (params : SaceEventParams) : Prop :=
  match attr with
  | user _ | group _ | seclabel _ => SaceEvent.EndsBlank line
  | groups _ | property _ _ => False
  | capability names =>
    SaceEvent.EndsBlank line ∨ ∀ last ∈ names.getLast?, ∀ i,
      SaceEvent.parseCapabilityName last = some i → params.capabilities.getLsbD i = true ∨
        ∃ name ∈ names.dropLast, SaceEvent.parseCapabilityName name = some i
  | boot flag => flag = true
  | rlimits _ hard soft =>
    ∃ limit, signed hard = some limit ∧ signed soft = some limit ∧ -2 ^ 31 ≤ limit ∧ limit < 0

end ServiceAttr

namespace SaceEvent

/-- What parse_event_from_ini passes on of a line that a newline ends. -/
def delivered (line : Str) : Str := trimSpaceChar (line ++ [0])

/-- The zero of getline is in the last operand, or it is one more. -/
def lastOperand (line last : Str) : List Str :=
  if EndsBlank line then [last, [0]] else [last ++ [0]]

theorem delivered_words {line tag last : Str} (operands : List Str)
    (written : lineWords line = tag :: (operands ++ [last])) :
    lineWords (delivered line) = tag :: (operands ++ lastOperand line last) := by
  rw [delivered, lineWords_trimmed, lastOperand]
  rcases lineWords_zero (by rw [written]; exact List.cons_ne_nil _ _) with
    ⟨blank, ended⟩ | ⟨filled, front, word, split, ended⟩
  · rw [ended, written, if_pos blank]
    simp
  · rw [written, ← List.cons_append] at split
    obtain ⟨rfl, same⟩ := List.append_inj' split rfl
    cases same
    rw [ended, if_neg filled]
    rfl

theorem word_tag {line tag : Str} {operands : List Str} (some_ : operands ≠ [])
    (written : lineWords line = tag :: operands) :
    ∃ rest, word { rest := line } = some (tag, { rest }) ∧ lineWords rest = operands := by
  obtain ⟨rest, read, left⟩ := word_some (sound_rest line) written
  have more : rest ≠ [] := by
    rintro rfl
    exact some_ left.symm
  rw [decide_eq_false more] at read
  exact ⟨rest, read, left⟩

/-! ### Reading a line -/

def operand (line value : Str) : Str := if EndsBlank line then value else value ++ [0]

theorem operand_own {line value : Str} : operand line value = value ↔ EndsBlank line := by
  unfold operand
  split
  · rename_i blank
    exact ⟨fun _ => blank, fun _ => rfl⟩
  · rename_i filled
    simp [filled]

theorem lastOperand_first (line last : Str) :
    ∃ others, lastOperand line last = operand line last :: others := by
  unfold lastOperand operand
  split
  · exact ⟨_, rfl⟩
  · exact ⟨_, rfl⟩

section
variable {text : Str} (params : SaceEventParams)

theorem word_operand {tag value : Str} {others : List Str}
    (written : lineWords text = tag :: value :: others) :
    ∃ rest next, word { rest := text } = some (tag, { rest }) ∧
      word { rest } = some (value, { rest := next, eof := next = [] }) ∧
        lineWords next = others := by
  obtain ⟨rest, read, left⟩ := word_tag (List.cons_ne_nil _ _) written
  obtain ⟨next, second, last⟩ := word_some (sound_rest rest) left
  exact ⟨rest, next, read, second, last⟩

theorem words_operands {tag : Str} {operands : List Str} (some_ : operands ≠ [])
    (written : lineWords text = tag :: operands) :
    ∃ rest, word { rest := text } = some (tag, { rest }) ∧
      words text.length { rest } = operands := by
  obtain ⟨rest, read, left⟩ := word_tag some_ written
  refine ⟨rest, read, ?_⟩
  have enough := lineWords_length text
  rw [written, List.length_cons, ← left] at enough
  rw [words_all (sound_rest rest) (by dsimp only; omega), left]

theorem parse_user {uid : Str} {others : List Str}
    (written : lineWords text = str "user" :: uid :: others) :
    parseServiceAttr text params = { params with uid } := by
  obtain ⟨rest, next, first, second, -⟩ := word_operand written
  unfold parseServiceAttr
  rw [first]
  simp +decide only [second, if_false, if_true]

theorem parse_group {gid : Str} {others : List Str}
    (written : lineWords text = str "group" :: gid :: others) :
    parseServiceAttr text params = { params with gid } := by
  obtain ⟨rest, next, first, second, -⟩ := word_operand written
  unfold parseServiceAttr
  rw [first]
  simp +decide only [second, if_false, if_true]

theorem parse_seclabel {label : Str} {others : List Str}
    (written : lineWords text = str "seclabel" :: label :: others) :
    parseServiceAttr text params = { params with seclabel := label } := by
  obtain ⟨rest, next, first, second, -⟩ := word_operand written
  unfold parseServiceAttr
  rw [first]
  simp +decide only [second, if_false, if_true]

theorem parse_capability {names : List Str} (some_ : names ≠ [])
    (written : lineWords text = str "capability" :: names) :
    parseServiceAttr text params =
      { params with capabilities := names.foldl setCapability params.capabilities } := by
  obtain ⟨rest, first, all⟩ := words_operands some_ written
  unfold parseServiceAttr
  rw [first]
  simp +decide only [all, if_false, if_true]

theorem parse_groups {gids : List Str} (some_ : gids ≠ [])
    (written : lineWords text = str "groups" :: gids) :
    parseServiceAttr text params = { params with suppGids := params.suppGids ++ gids } := by
  obtain ⟨rest, first, all⟩ := words_operands some_ written
  unfold parseServiceAttr
  rw [first]
  simp +decide only [all, if_false, if_true]

theorem parse_trigger {value : Str} {others : List Str}
    (written : lineWords text = str "trigger" :: value :: others) :
    parseServiceAttr text params = parseTrigger value params := by
  obtain ⟨rest, next, first, second, -⟩ := word_operand written
  unfold parseServiceAttr
  rw [first]
  simp +decide only [second, if_false, if_true]

end

/-! ### Triggers -/

theorem dropWhile_reaches {p : UInt8 → Bool} {c : UInt8} (stop : p c = false) (front tail : Str) :
    tail.length < ((front ++ c :: tail).dropWhile p).length := by
  induction front with
  | nil => simp [stop]
  | cons d front ih =>
    rw [List.cons_append, List.dropWhile_cons]
    split
    · exact ih
    · simp only [List.length_cons, List.length_append]
      omega

/-- The value that is recorded has the equals sign at least in front of the value's own text. -/
theorem parse_property (params : SaceEventParams) (name value : Str) :
    ∃ key longer, parseTrigger (str "property:" ++ name ++ str "=" ++ value) params =
        { params with
          propertyKey := params.propertyKey ++ [key]
          propertyValue := params.propertyValue ++ [longer] } ∧ value.length < longer.length := by
  have reaches := dropWhile_reaches (p := (· ≠ 61)) (c := 61) rfl (58 :: name) value
  have text : str "property:" ++ name ++ str "=" ++ value =
      str "property" ++ (58 :: name ++ 61 :: value) := by
    have property : str "property:" = str "property" ++ [58] := rfl
    have equal : str "=" = [61] := rfl
    rw [property, equal]
    simp
  have colon : (str "property" ++ (58 :: name ++ 61 :: value)).dropWhile (· ≠ 58) =
      58 :: name ++ 61 :: value := by
    rfl
  rw [text]
  unfold parseTrigger
  dsimp only
  rw [if_pos (List.isPrefixOf_iff_prefix.mpr (List.prefix_append _ _)), colon, if_neg]
  · exact ⟨_, _, rfl, reaches⟩
  · rw [Bool.or_eq_true, decide_eq_true_eq, decide_eq_true_eq]
    rintro (no | no)
    · cases no
    · rw [no] at reaches
      cases reaches

theorem parse_boot (params : SaceEventParams) :
    parseTrigger (str "boot") params = { params with boot := true } := rfl

/-! ### Capabilities -/

theorem parseCapabilityName_zero {name : Str} (zero : 0 ∈ name) :
    parseCapabilityName name = none := by
  have whole : ∀ known ∈ capNames, 0 ∉ str known := by decide +kernel
  apply List.findIdx?_eq_none_iff.mpr
  intro known member
  rw [decide_eq_false_iff_not]
  rintro rfl
  exact whole known member zero

theorem parseCapabilityName_lt {name : Str} {i : Nat} (known : parseCapabilityName name = some i) :
    i < CAP_LAST_CAP + 1 := by
  obtain ⟨inside, -⟩ := List.findIdx?_eq_some_iff_getElem.mp known
  exact inside

theorem setCapability_bit (capabilities : CapSet) (name : Str) (i : Nat) :
    (setCapability capabilities name).getLsbD i = true ↔
      capabilities.getLsbD i = true ∨ parseCapabilityName name = some i := by
  unfold setCapability
  cases known : parseCapabilityName name with
  | none => simp
  | some cap =>
    have small := parseCapabilityName_lt known
    have one : ((1 <<< cap : Nat) : CapSet).getLsbD i = true ↔ cap = i := by
      have bit : ((1 <<< cap : Nat) : CapSet).getLsbD i =
          (decide (i < CAP_LAST_CAP + 1) && (1 <<< cap).testBit i) := BitVec.getLsbD_ofNat _ _ _
      rw [bit, Nat.one_shiftLeft, Nat.testBit_two_pow, Bool.and_eq_true, decide_eq_true_eq,
        decide_eq_true_eq]
      omega
    rw [BitVec.getLsbD_or, Bool.or_eq_true, one, Option.some.injEq]

theorem setCapability_bits (capabilities : CapSet) (names : List Str) (i : Nat) :
    (names.foldl setCapability capabilities).getLsbD i = true ↔
      capabilities.getLsbD i = true ∨ ∃ name ∈ names, parseCapabilityName name = some i := by
  induction names generalizing capabilities with
  | nil => simp
  | cons name names ih => simp [ih, setCapability_bit, or_assoc]

/-! ### Limits -/

theorem splitSign_append {word number : Str} {negative : Bool}
    (split : splitSign word = (negative, number)) (some_ : number ≠ []) (rest : Str) :
    splitSign (word ++ rest) = (negative, number ++ rest) := by
  unfold splitSign at split
  split at split
  · cases split
    rfl
  · cases split
    rfl
  · rename_i minus plus
    cases split
    obtain ⟨c, tail, rfl⟩ := List.exists_cons_of_ne_nil some_
    rw [List.cons_append]
    unfold splitSign
    split
    · rename_i same
      cases same
      exact absurd rfl (minus tail)
    · rename_i same
      cases same
      exact absurd rfl (plus tail)
    · rfl

theorem signed_some {word : Str} {n : Int} (value : signed word = some n) :
    ∃ negative number, splitSign word = (negative, number) ∧ number ≠ [] ∧
      (∀ c ∈ number, isDigit c) ∧
        n = if negative then -(decimal number : Int) else decimal number := by
  unfold signed at value
  dsimp only at value
  split at value
  · rename_i digits
    cases value
    exact ⟨_, _, rfl, digits.1, List.all_eq_true.mp digits.2, rfl⟩
  · cases value

/-- A number that is a word, or the begin of one. -/
theorem extract_word {A : Type} (store : Bool → Nat → A × Bool) (zero old : A)
    (rest : Str) {word tail : Str} {others : List Str} {negative : Bool} {number : Str}
    (split : splitSign word = (negative, number)) (some_ : number ≠ [])
    (all : ∀ c ∈ number, isDigit c) (stop : ∀ c ∈ tail.head?, isDigit c = false)
    (written : lineWords rest = (word ++ tail) :: others) :
    ∃ left, InStream.extract store zero old { rest } = ((store negative (decimal number)).1,
        { rest := tail ++ left, eof := tail ++ left = [],
          fail := !(store negative (decimal number)).2 }) ∧ lineWords left = others := by
  have begins : rest.dropWhile isSpace ≠ [] := by
    intro empty
    rw [lineWords_nil.mpr empty] at written
    cases written
  rw [lineWords_first begins] at written
  obtain ⟨first, left⟩ := List.cons.inj written
  refine ⟨_, ?_, left⟩
  have whole := List.takeWhile_append_dropWhile (p := fun c => !isSpace c)
    (l := rest.dropWhile isSpace)
  apply extract_signed store zero old ⟨rfl, rfl⟩ _ some_ all
  · intro c head
    cases tail with
    | cons d tail => exact stop c head
    | nil =>
      rw [List.nil_append] at head
      have space := List.head?_dropWhile_not (fun c => !isSpace c) (rest.dropWhile isSpace)
      rw [Option.mem_def.mp head] at space
      have blank : (!isSpace c) = false := space
      rw [← Bool.not_eq_true]
      intro digit
      rw [digit_not_space digit] at blank
      cases blank
  · have cut := splitSign_append split some_ (tail ++
      (rest.dropWhile isSpace).dropWhile fun c => !isSpace c)
    rw [← List.append_assoc, ← first, whole] at cut
    exact cut

def IntRange (n : Int) : Prop := -2 ^ 31 ≤ n ∧ n < 2 ^ 31

instance (n : Int) : Decidable (IntRange n) := inferInstanceAs (Decidable (_ ∧ _))

theorem storeInt_signed {negative : Bool} {number : Nat} {n : Int}
    (value : n = if negative then -(number : Int) else number) :
    (storeInt negative number).2 = decide (IntRange n) ∧
      (IntRange n → (storeInt negative number).1 = n) := by
  unfold storeInt IntRange
  cases negative with
  | true =>
    rw [if_pos rfl] at value ⊢
    by_cases fits : number ≤ 2 ^ 31
    · rw [if_pos fits]
      exact ⟨(decide_eq_true (by omega)).symm, fun _ => value.symm⟩
    · rw [if_neg fits]
      exact ⟨(decide_eq_false (by omega)).symm, fun range => absurd range (by omega)⟩
  | false =>
    rw [if_neg Bool.false_ne_true] at value ⊢
    by_cases fits : number < 2 ^ 31
    · rw [if_pos fits]
      exact ⟨(decide_eq_true (by omega)).symm, fun _ => value.symm⟩
    · rw [if_neg fits]
      exact ⟨(decide_eq_false (by omega)).symm, fun range => absurd range (by omega)⟩

/-- A number that is a word, read into an int. -/
theorem extract_int (old : Int) (rest tail : Str) {word : Str} {others : List Str} {n : Int}
    (value : signed word = some n) (stop : ∀ c ∈ tail.head?, isDigit c = false)
    (written : lineWords rest = (word ++ tail) :: others) :
    ∃ x left, InStream.extract storeInt 0 old { rest } = (x,
        { rest := tail ++ left, eof := tail ++ left = [], fail := !decide (IntRange n) }) ∧
      (IntRange n → x = n) ∧ lineWords left = others := by
  obtain ⟨negative, number, split, some_, all, eq⟩ := signed_some value
  obtain ⟨left, read, behind⟩ := extract_word storeInt 0 old rest split some_ all stop written
  obtain ⟨inRange, own⟩ := storeInt_signed eq
  rw [inRange] at read
  exact ⟨_, left, read, own, behind⟩

theorem parse_rlimits (params : SaceEventParams) (tail : Str) {text name hard soft : Str}
    {others : List Str} {hardLimit softLimit : Int} (hardValue : signed hard = some hardLimit)
    (softValue : signed soft = some softLimit) (stop : ∀ c ∈ tail.head?, isDigit c = false)
    (written : lineWords text = str "rlimits" :: name :: hard :: (soft ++ tail) :: others) :
    parseServiceAttr text params = if IntRange hardLimit ∧ IntRange softLimit then
      { params with
        rlimits := params.rlimits ++ [toDecimal (parseRlimitsName name) ++
          toDecimal hardLimit ++ toDecimal softLimit] }
    else params := by
  obtain ⟨rest, next, first, second, left⟩ := word_operand written
  have more : next ≠ [] := by
    rintro rfl
    cases left
  rw [decide_eq_false more] at second
  obtain ⟨x, behind, third, hardOwn, left⟩ := extract_int 0 next [] hardValue
    (by simp) (by rw [List.append_nil]; exact left)
  have goesOn : behind ≠ [] := by
    rintro rfl
    cases left
  rw [List.nil_append, decide_eq_false goesOn] at third
  unfold parseServiceAttr
  rw [first]
  simp +decide only [second, third, if_false, if_true]
  by_cases hardFits : IntRange hardLimit
  · obtain ⟨y, last, fourth, softOwn, -⟩ := extract_int 0 behind tail softValue stop left
    rw [decide_eq_true hardFits, Bool.not_true, fourth, hardOwn hardFits]
    by_cases softFits : IntRange softLimit
    · simp [hardFits, softFits, softOwn softFits]
    · simp [softFits]
  · rw [decide_eq_false hardFits]
    simp [InStream.extract, hardFits]

theorem parseRlimitsName_range (name : Str) : IntRange (parseRlimitsName name) := by
  have small : ∀ entry ∈ rlimitMap, IntRange entry.2 := by decide
  unfold parseRlimitsName
  cases found : rlimitMap.find? fun entry => str entry.1 = name with
  | none => exact (by decide : IntRange (-1))
  | some entry => exact small entry (List.mem_of_find?_eq_some found)

theorem int_of_range {n : Int} (range : IntRange n) : ∃ x : Int32, x.toInt = n :=
  ⟨Int32.ofInt n, Int32.toInt_ofInt_of_le range.1 range.2⟩

/-- parse_service_attr passes the hard limit where add_rlimits takes the soft one. -/
theorem entry_read {resource hard soft : Int} (resourceFits : IntRange resource)
    (hardFits : IntRange hard) (softFits : IntRange soft) :
    (∀ old cur max, readLimit (toDecimal resource ++ toDecimal hard ++ toDecimal soft) old cur max =
      ⟨resource, UInt64.ofInt soft, UInt64.ofInt hard⟩) ↔ hard = soft ∧ hard < 0 := by
  obtain ⟨r, rfl⟩ := int_of_range resourceFits
  obtain ⟨h, rfl⟩ := int_of_range hardFits
  obtain ⟨s, rfl⟩ := int_of_range softFits
  have text : toDecimal r.toInt ++ toDecimal h.toInt ++ toDecimal s.toInt =
      RlimitCall.text ⟨r, h, s⟩ := List.append_assoc ..
  rw [text]
  constructor
  · intro read
    have both : h.toInt < 0 ∧ s.toInt < 0 := by
      by_contra joined
      have zero := @readLimit_hard ⟨r, h, s⟩ joined 0 0 0
      have one := @readLimit_hard ⟨r, h, s⟩ joined 0 0 1
      rw [read] at zero one
      exact absurd (zero.symm.trans one) (by decide)
    have own := @readLimit_negative ⟨r, h, s⟩ both.1 both.2 0 0 0
    rw [read] at own
    have cur : rlimT s = rlimT h := congrArg Rlimit.cur own
    have value := congrArg UInt64.toNat cur
    rw [rlimT_neg_toNat both.1, rlimT_neg_toNat both.2] at value
    have low := int_range h
    have least := int_range s
    exact ⟨by omega, both.1⟩
  · rintro ⟨same, negative⟩ old cur max
    rw [@readLimit_negative ⟨r, h, s⟩ negative (same ▸ negative)]
    rw [RlimitCall.limit, rlimT, rlimT, same]

/-! ### The lines that have their effect -/

theorem done_rlimits {params : SaceEventParams} {line name hard soft : Str}
    (written : lineWords line = [str "rlimits", name, hard, soft])
    (hardNumber : (signed hard).isSome) (softNumber : (signed soft).isSome) :
    (ServiceAttr.rlimits name hard soft).Done params (parseServiceAttr (delivered line) params) ↔
      (ServiceAttr.rlimits name hard soft).Heard line params := by
  obtain ⟨h, hardValue⟩ := Option.isSome_iff_exists.mp hardNumber
  obtain ⟨s, softValue⟩ := Option.isSome_iff_exists.mp softNumber
  have words := delivered_words [name, hard] written
  have effect : parseServiceAttr (delivered line) params = if IntRange h ∧ IntRange s then
      { params with
        rlimits := params.rlimits ++ [toDecimal (parseRlimitsName name) ++
          toDecimal h ++ toDecimal s] }
      else params := by
    unfold lastOperand at words
    split at words
    · exact parse_rlimits params [] hardValue softValue (by simp)
        (by rw [List.append_nil]; exact words)
    · exact parse_rlimits params [0] hardValue softValue
        (fun c zero => by cases Option.some.inj zero; rfl) words
  rw [effect]
  constructor
  · rintro ⟨entry, after, h', s', hardSame, softSame, read⟩
    cases hardValue.symm.trans hardSame
    cases softValue.symm.trans softSame
    split at after
    · rename_i fits
      have entries := congrArg (fun after => after.rlimits) after
      have own := List.singleton_inj.mp (List.append_cancel_left entries)
      rw [← own] at read
      obtain ⟨rfl, negative⟩ := (entry_read (parseRlimitsName_range name) fits.1 fits.2).mp read
      exact ⟨h, hardValue, softValue, fits.1.1, negative⟩
    · have entries := congrArg (fun after => after.rlimits.length) after
      simp at entries
  · rintro ⟨limit, hardSame, softSame, low, negative⟩
    cases hardValue.symm.trans hardSame
    cases softValue.symm.trans softSame
    have fits : IntRange h := ⟨low, by omega⟩
    rw [if_pos ⟨fits, fits⟩]
    exact ⟨_, rfl, h, h, hardValue, softValue,
      (entry_read (parseRlimitsName_range name) fits fits).mpr ⟨rfl, negative⟩⟩

theorem delivered_single {line tag value : Str} (written : lineWords line = [tag, value]) :
    ∃ others, lineWords (delivered line) = tag :: operand line value :: others := by
  obtain ⟨others, last⟩ := lastOperand_first line value
  have words := delivered_words [] written
  rw [last] at words
  exact ⟨others, words⟩

/-- What is stored as it was read is the value itself exactly when no zero was read with it. -/
theorem operand_stored_iff {line value : Str} {store : Str → SaceEventParams}
    {field : SaceEventParams → Str} (own : ∀ text, field (store text) = text) :
    store (operand line value) = store value ↔ EndsBlank line := by
  constructor
  · intro done
    have same := congrArg field done
    rw [own, own] at same
    exact operand_own.mp same
  · intro blank
    rw [operand_own.mpr blank]

theorem done_property {params : SaceEventParams} {line name value : Str}
    (written : lineWords line = (ServiceAttr.property name value).words) :
    ¬ (ServiceAttr.property name value).Done params
      (parseServiceAttr (delivered line) params) := by
  intro done
  obtain ⟨others, words⟩ := delivered_single written
  have text : operand line (str "property:" ++ name ++ str "=" ++ value) =
      str "property:" ++ name ++ str "=" ++ operand line value := by
    unfold operand
    split
    · rfl
    · exact List.append_assoc ..
  rw [text] at words
  obtain ⟨key, longer, effect, long⟩ := parse_property params name (operand line value)
  have least : value.length ≤ (operand line value).length := by
    unfold operand
    split
    · exact Nat.le_refl _
    · simp
  rw [ServiceAttr.Done, parse_trigger params words, effect] at done
  have values := congrArg (fun after => after.propertyValue) done
  rw [List.singleton_inj.mp (List.append_cancel_left values)] at long
  omega

theorem done_groups {params : SaceEventParams} {line : Str} {gids : List Str}
    (written : lineWords line = (ServiceAttr.groups gids).words) (some_ : gids ≠ []) :
    ¬ (ServiceAttr.groups gids).Done params (parseServiceAttr (delivered line) params) := by
  intro done
  obtain ⟨front, last, rfl⟩ := (List.eq_nil_or_concat' gids).resolve_left some_
  obtain ⟨others, final⟩ := lastOperand_first line last
  have words := delivered_words _ written
  rw [ServiceAttr.Done, parse_groups params (by rw [final]; simp) words] at done
  have gids := List.append_cancel_left
    (List.append_cancel_left (congrArg (fun after => after.suppGids) done))
  unfold lastOperand at gids
  split at gids
  · cases gids
  · simp at gids

theorem done_capability {params : SaceEventParams} {line : Str} {names : List Str}
    (written : lineWords line = (ServiceAttr.capability names).words) (some_ : names ≠ []) :
    (ServiceAttr.capability names).Done params (parseServiceAttr (delivered line) params) ↔
      (ServiceAttr.capability names).Heard line params := by
  obtain ⟨front, last, rfl⟩ := (List.eq_nil_or_concat' names).resolve_left some_
  obtain ⟨others, final⟩ := lastOperand_first line last
  have words := delivered_words _ written
  rw [ServiceAttr.Done, ServiceAttr.Heard, parse_capability params (by rw [final]; simp) words]
  dsimp only
  have unknown : parseCapabilityName [0] = none := parseCapabilityName_zero List.mem_cons_self
  have longer : parseCapabilityName (last ++ [0]) = none := parseCapabilityName_zero (by simp)
  simp only [setCapability_bits, List.getLast?_concat, List.dropLast_concat, true_and]
  unfold lastOperand
  by_cases blank : EndsBlank line
  · rw [if_pos blank]
    simp [blank, unknown, or_and_right, exists_or]
  · rw [if_neg blank]
    simp only [blank, false_or, Option.mem_def, Option.some.injEq, forall_eq', List.mem_append,
      List.mem_singleton, or_and_right, exists_or, exists_eq_left, longer, reduceCtorEq, or_false]
    apply forall_congr'
    intro i
    constructor
    · intro same known
      exact same.mpr (.inr (.inr known))
    · intro heard
      constructor
      · exact Or.imp_right Or.inl
      · rintro (old | front | known)
        · exact .inl old
        · exact .inr front
        · exact heard known

theorem attrDone_iff {attr : ServiceAttr} {line : Str} (written : lineWords line = attr.words)
    (documented : attr.Documented) (params : SaceEventParams) :
    attr.Done params (parseServiceAttr (delivered line) params) ↔ attr.Heard line params := by
  cases attr with
  | user uid =>
    obtain ⟨others, words⟩ := delivered_single written
    rw [parse_user params words]
    exact @operand_stored_iff line uid (fun uid => { params with uid }) (·.uid) fun _ => rfl
  | group gid =>
    obtain ⟨others, words⟩ := delivered_single written
    rw [parse_group params words]
    exact @operand_stored_iff line gid (fun gid => { params with gid }) (·.gid) fun _ => rfl
  | seclabel label =>
    obtain ⟨others, words⟩ := delivered_single written
    rw [parse_seclabel params words]
    exact @operand_stored_iff line label (fun seclabel => { params with seclabel }) (·.seclabel)
      fun _ => rfl
  | groups gids => exact iff_of_false (done_groups written documented) id
  | capability names => exact done_capability written documented
  | property name value => exact iff_of_false (done_property written) id
  | boot flag =>
    have words := delivered_words [str "boot"] written
    rw [parse_trigger params words, parse_boot]
    constructor
    · intro done
      exact (congrArg (fun after : SaceEventParams => after.boot) done).symm
    · intro heard
      cases heard
      rfl
  | rlimits name hard soft => exact done_rlimits written documented.2.1 documented.2.2

/-- The same negative number twice. -/
theorem unlimited_done :
    (ServiceAttr.rlimits (str "NOFILE") (str "-1") (str "-1")).Done {}
      (parseServiceAttr (delivered (str "  rlimits NOFILE -1 -1")) {}) :=
  (@attrDone_iff (.rlimits (str "NOFILE") (str "-1") (str "-1")) (str "  rlimits NOFILE -1 -1")
    (by decide +kernel) ⟨⟨("NOFILE", 7), by decide, rfl⟩, by decide +kernel, by decide +kernel⟩
    {}).mpr ⟨-1, by decide +kernel, by decide +kernel, by decide, by decide⟩

theorem system_misread :
    let attr := ServiceAttr.user (str "system")
    lineWords (str "  user system") = attr.words ∧ attr.Documented ∧
      ¬ attr.Done {} (parseServiceAttr (delivered (str "  user system")) {}) := by
  refine ⟨by decide +kernel, trivial, fun done => ?_⟩
  have uid := congrArg (fun after => after.uid) done
  exact absurd uid (by decide +kernel)

end SaceEvent
end Sace
