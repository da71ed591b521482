import Sace.Android
import Sace.Reader.Reads

/-! Which byte strings are complete encodings of a command: the reads of
SaceCommand::readFromParcel once more, stopping at the first that does not find its field. -/
namespace Sace

/-- The vector read together with its status: a vector is resized before its strings are read,
so the destination alone does not tell whether they were there. -/
structure ParcelFormat.Status (F : ParcelFormat) where
  utf16Vector : Bytes → Option (List Str × Bytes)
  stored : ∀ data ss rest, utf16Vector data = some (ss, rest) →
    F.utf16Vector.read data = (some ss, rest)
  carries : ∀ ss rest, ss.length < 2 ^ 31 → (∀ s ∈ ss, F.text s) →
    utf16Vector (F.utf16Vector.write ss ++ rest) = some (ss, rest)

variable (F : ParcelFormat) (S : F.Status)

theorem ParcelFormat.Status.readOr {F : ParcelFormat} (S : F.Status) {data rest : Bytes}
    {ss : List Str} (found : S.utf16Vector data = some (ss, rest)) (old : List Str) :
    F.utf16Vector.readOr old data = (ss, rest) := by
  rw [Wire.Slot.readOr, S.stored data ss rest found]
  rfl

namespace SaceCommandParams

def parse (data : Bytes) : Option (SaceCommandParams × Bytes) := do
  let (uid, rest) ← F.utf16.find data
  let (gid, rest) ← F.utf16.find rest
  let (suppGids, rest) ← S.utf16Vector rest
  let (seclabel, rest) ← F.utf16.find rest
  let (capabilities, rest) ← F.uint64.find rest
  let (rlimits, rest) ← S.utf16Vector rest
  return ({ uid, gid, suppGids, rlimits, seclabel
            capabilities := BitVec.ofNat _ capabilities.toNat }, rest)

theorem readFromParcel_of_parse {data rest : Bytes} {params : SaceCommandParams}
    (parsed : parse F S data = some (params, rest)) (old : SaceCommandParams) :
    old.readFromParcel F data = (params, rest) := by
  simp only [parse, Option.bind_eq_bind, Option.bind_eq_some_iff, Prod.exists] at parsed
  obtain ⟨uid, r1, h1, gid, r2, h2, suppGids, r3, h3, seclabel, r4, h4, capabilities, r5, h5,
    rlimits, r6, h6, done⟩ := parsed
  cases Option.some.inj done
  simp only [readFromParcel, Wire.Slot.readOr_of_find h1, Wire.Slot.readOr_of_find h2,
    S.readOr h3, Wire.Slot.readOr_of_find h4, Wire.Slot.readOr_of_find h5, S.readOr h6]

theorem parse_body {params : SaceCommandParams} (valid : params.Text F) (rest : Bytes) :
    parse F S (params.body F ++ rest) = some (params, rest) := by
  simp only [parse, body, List.append_assoc, (F.utf16_carries _ valid.uid).find,
    (F.utf16_carries _ valid.gid).find, S.carries _ _ valid.suppGids.1 valid.suppGids.2,
    (F.utf16_carries _ valid.seclabel).find, (F.uint64_carries _).find,
    S.carries _ _ valid.rlimits.1 valid.rlimits.2, Option.bind_eq_bind, Option.bind_some,
    capabilities_carried]
  rfl

end SaceCommandParams

namespace SaceEventParams

def parse (data : Bytes) : Option (SaceEventParams × Bytes) := do
  let (base, rest) ← SaceCommandParams.parse F S data
  let (boot, rest) ← F.bool.find rest
  let (propertyKey, rest) ← S.utf16Vector rest
  let (propertyValue, rest) ← S.utf16Vector rest
  return ({ toSaceCommandParams := base, propertyKey, propertyValue, boot }, rest)

theorem readFromParcel_of_parse {data rest : Bytes} {params : SaceEventParams}
    (parsed : parse F S data = some (params, rest)) (old : SaceEventParams) :
    old.readFromParcel F data = (params, rest) := by
  simp only [parse, Option.bind_eq_bind, Option.bind_eq_some_iff, Prod.exists] at parsed
  obtain ⟨base, r1, h1, boot, r2, h2, keys, r3, h3, values, r4, h4, done⟩ := parsed
  cases Option.some.inj done
  simp only [readFromParcel, SaceCommandParams.readFromParcel_of_parse F S h1,
    Wire.Slot.readOr_of_find h2, S.readOr h3, S.readOr h4]

theorem parse_body {params : SaceEventParams} (valid : params.Text F) (rest : Bytes) :
    parse F S (params.body F ++ rest) = some (params, rest) := by
  simp only [parse, body, List.append_assoc, SaceCommandParams.parse_body F S valid.base,
    (F.bool_carries _).find, S.carries _ _ valid.keys.1 valid.keys.2,
    S.carries _ _ valid.values.1 valid.values.2, Option.bind_eq_bind, Option.bind_some]
  rfl

end SaceEventParams

namespace SaceCommand

def parseExtra (n : UInt32) (data : Bytes) : Option (Bytes × Bytes) :=
  if n.toNat ≤ EXTRA_BUFER_LEN then F.readRaw n.toNat data else none

def parseParams (type : SaceCommandType) (data : Bytes) : Option (Option ParamsObject × Bytes) := do
  let (present, rest) ← F.bool.find data
  if present then
    if type = .event then
      let (params, rest) ← SaceEventParams.parse F S rest
      return (some (.event params), rest)
    else
      let (params, rest) ← SaceCommandParams.parse F S rest
      return (some (.command params), rest)
  else return (none, rest)

def parseSubType (c : SaceCommand) (type : SaceCommandType) (data : Bytes) :
    Option ((UInt8 × UInt8) × Bytes) :=
  if knownType type then do
    let (subType, rest) ← F.byte.find data
    let (subFlags, rest) ← F.byte.find rest
    return ((subType, subFlags), rest)
  else some ((c.subType, c.subFlags), data)

def parse (c : SaceCommand) (data : Bytes) : Option (SaceCommand × Bytes) := do
  let (len, rest) ← F.uint32.find data
  let (type, rest) ← F.byte.find rest
  let (sequence, rest) ← F.uint32.find rest
  let (label, rest) ← F.uint64.find rest
  let (name, rest) ← F.utf16.find rest
  let (command, rest) ← F.utf16.find rest
  let (extraLen, rest) ← F.uint32.find rest
  let (extra, rest) ← parseExtra F extraLen rest
  let ((subType, subFlags), rest) ← c.parseSubType F ⟨type⟩ rest
  let (commandParams, rest) ← parseParams F S ⟨type⟩ rest
  return ({ len, type := ⟨type⟩, sequence, label, name, command, commandParams, extra, extraLen
            subType, subFlags }, rest)

/-- The string is one encoding from its first byte to its last, of the length that it says. -/
def Complete (c : SaceCommand) (temp : Bytes) : Prop :=
  ∃ decoded, c.parse F S temp = some (decoded, []) ∧ decoded.len.toNat = temp.length

theorem readParams_of_parse {type : SaceCommandType} {data rest : Bytes}
    {params : Option ParamsObject} (parsed : parseParams F S type data = some (params, rest)) :
    readParams F type data = params := by
  simp only [parseParams, Option.bind_eq_bind, Option.bind_eq_some_iff, Prod.exists] at parsed
  obtain ⟨present, r1, h1, parsed⟩ := parsed
  simp only [readParams, Wire.Slot.readOr_of_find h1]
  cases present with
  | false =>
    cases parsed
    rfl
  | true =>
    simp only [if_true] at parsed ⊢
    split at parsed
    · rename_i event
      obtain ⟨⟨object, r2⟩, h2, parsed⟩ := Option.bind_eq_some_iff.mp parsed
      cases parsed
      simp only [event, if_true, SaceEventParams.readFromParcel_of_parse F S h2]
    · rename_i plain
      obtain ⟨⟨object, r2⟩, h2, parsed⟩ := Option.bind_eq_some_iff.mp parsed
      cases parsed
      simp only [plain, if_false, SaceCommandParams.readFromParcel_of_parse F S h2]

theorem readFromParcel_of_parse {c decoded : SaceCommand} {data rest : Bytes}
    (parsed : c.parse F S data = some (decoded, rest)) :
    (c.readFromParcel F data).result = .ok decoded := by
  simp only [parse, Option.bind_eq_bind, Option.bind_eq_some_iff, Prod.exists] at parsed
  obtain ⟨len, r1, h1, type, r2, h2, sequence, r3, h3, label, r4, h4, name, r5, h5, command, r6, h6,
    extraLen, r7, h7, extra, r8, h8, subType, subFlags, r9, h9, commandParams, r10, h10,
    done⟩ := parsed
  cases Option.some.inj done
  have params := readParams_of_parse F S h10
  simp only [parseExtra, Option.ite_none_right_eq_some] at h8
  have extraRead : readExtra F extraLen r7 =
      ⟨[.copy extraLen.toNat EXTRA_BUFER_LEN], .ok (extra, r8)⟩ := by
    simp only [readExtra, h8.2, memcpy_of_le h8.1]
    rw [Traced.bind_of_ok rfl]
    rfl
  simp only [readFromParcel, SaceCommandHeader.readFromParcel, Wire.Slot.readOr_of_find h1,
    Wire.Slot.readOr_of_find h2, Wire.Slot.readOr_of_find h3, Wire.Slot.readOr_of_find h4,
    Wire.Slot.readOr_of_find h5, Wire.Slot.readOr_of_find h6, Wire.Slot.readOr_of_find h7,
    extraRead]
  rw [Traced.bind_of_ok rfl]
  unfold parseSubType at h9
  split at h9
  · rename_i known
    simp only [Option.bind_eq_bind, Option.bind_eq_some_iff, Prod.exists] at h9
    obtain ⟨_, r11, h11, _, r12, h12, done⟩ := h9
    cases Option.some.inj done
    simp only [known, if_true, Wire.Slot.readOr_of_find h11, Wire.Slot.readOr_of_find h12, params,
      Traced.pure_result]
  · rename_i unknown
    cases h9
    simp only [Bool.eq_false_iff.mpr unknown, Bool.false_eq_true, if_false, params,
      Traced.pure_result]

theorem parseParams_body {type : SaceCommandType} {params : Option ParamsObject}
    (valid : ∀ object, params = some object → object.Text F)
    (kinds : ∀ object, params = some object →
      (type = .event ↔ ∃ derived, object = .event derived)) :
    parseParams F S type (paramsBody F params) = some (params, []) := by
  cases params with
  | none =>
    have carried := (F.bool_carries false).find []
    rw [List.append_nil] at carried
    simp only [parseParams, paramsBody, carried, Option.bind_eq_bind, Option.bind_some,
      Bool.false_eq_true, if_false]
    rfl
  | some object =>
    have text := valid object rfl
    have kind := kinds object rfl
    simp only [parseParams, paramsBody, (F.bool_carries true).find, Option.bind_eq_bind,
      Option.bind_some, if_true]
    cases object with
    | command base =>
      have plain : type ≠ .event := fun event => by
        obtain ⟨_, no⟩ := kind.mp event
        cases no
      have read := @SaceCommandParams.parse_body F S base text []
      rw [List.append_nil] at read
      simp only [plain, if_false, ParamsObject.body, read, Option.bind_some]
      rfl
    | event derived =>
      have event : type = .event := kind.mpr ⟨derived, rfl⟩
      have read := @SaceEventParams.parse_body F S derived text []
      rw [List.append_nil] at read
      simp only [event, if_true, ParamsObject.body, read, Option.bind_some]
      rfl

/-- What a client writes is complete, if its parameters are of the class of its type. -/
theorem parse_encode {c : SaceCommand} (valid : c.WellFormed F)
    (kinds : ∀ object, c.commandParams = some object →
      (c.type = .event ↔ ∃ derived, object = .event derived)) (fresh : SaceCommand) :
    fresh.parse F S (c.encode F) = some ({ c with
      len := UInt32.ofNat (c.encode F).length
      extra := Bytes.padded c.extraLen.toNat c.extra }, []) := by
  have params := parseParams_body F S valid.params kinds
  have size : (Bytes.padded c.extraLen.toNat c.extra).length = c.extraLen.toNat :=
    Bytes.padded_length _ _
  have raw := F.raw_carries (Bytes.padded c.extraLen.toNat c.extra)
    (F.byte.write c.subType ++ (F.byte.write c.subFlags ++ paramsBody F c.commandParams))
    (by rw [size]; exact Nat.lt_of_le_of_lt valid.extraLen (by decide))
  rw [size] at raw
  simp only [encode_length]
  simp only [parse, encode_eq, body, valid.type, if_true, List.append_assoc,
    (F.uint32_carries _).find, (F.byte_carries _).find, (F.uint64_carries _).find,
    (F.utf16_carries _ valid.name).find, (F.utf16_carries _ valid.command).find, parseExtra,
    valid.extraLen, raw, parseSubType, params, Option.bind_eq_bind, Option.bind_some,
    Option.pure_def]

theorem encode_complete {c : SaceCommand} (valid : c.WellFormed F)
    (kinds : ∀ object, c.commandParams = some object →
      (c.type = .event ↔ ∃ derived, object = .event derived))
    (short : (c.encode F).length < 2 ^ 32) (fresh : SaceCommand) :
    fresh.Complete F S (c.encode F) :=
  ⟨_, parse_encode F S valid kinds fresh, UInt32.toNat_ofNat_of_lt' short⟩

end SaceCommand

namespace SaceSocketReader

/-- A string that is not a complete encoding is rejected, and no command is passed on. -/
def Guarded (saceCmd : SaceCommand) (temp : Bytes) : Prop :=
  (∀ decoded, (recvCommand F saceCmd temp).result = .ok (some decoded) →
    saceCmd.Complete F S temp) ∧
  (¬ saceCmd.Complete F S temp → recvCommand F saceCmd temp = pure none)

theorem recvCommand_passes {saceCmd decoded : SaceCommand} {temp : Bytes}
    (accepted : Accepted F temp) (parsed : saceCmd.parse F S temp = some (decoded, [])) :
    (recvCommand F saceCmd temp).result = .ok (some decoded) := by
  rw [recvCommand_accepted F accepted, Traced.bind_ok]
  exact ⟨decoded, SaceCommand.readFromParcel_of_parse F S parsed, rfl⟩

/-- The bytes behind the length are not looked at. -/
theorem accepted_any {len : UInt32} {body : Bytes} (fits : len.toNat ≤ 4 + body.length)
    (long : 5 ≤ body.length) : Accepted F (F.uint32.write len ++ body) := by
  have size : (F.uint32.write len ++ body).length = 4 + body.length := by
    rw [List.length_append, F.uint32_width]
  have header : (SaceCommandHeader.readFromParcel F (F.uint32.write len ++ body)).1.len = len := by
    simp only [SaceCommandHeader.readFromParcel, (F.uint32_carries _).readOr]
  constructor
  · rw [size]
    exact Nat.add_le_add_left long 4
  · rw [header, size]
    exact fits

/-- Nothing behind the two tests rejects. -/
theorem Guarded.complete {F : ParcelFormat} {S : F.Status} {saceCmd : SaceCommand} {temp : Bytes}
    (guarded : Guarded F S saceCmd temp) (accepted : Accepted F temp) :
    saceCmd.Complete F S temp := by
  by_contra incomplete
  have result := congrArg Traced.result (guarded.2 incomplete)
  rw [recvCommand_accepted F accepted, Traced.pure_result, Traced.bind_ok] at result
  obtain ⟨_, _, no⟩ := result
  cases no

/-- Only a string that the two tests of its length turn away, or that is complete, is treated as
it should be. -/
theorem guarded_iff (saceCmd : SaceCommand) (temp : Bytes) :
    Guarded F S saceCmd temp ↔
      (temp.length < SaceCommandHeader.parcelSize ∨
        temp.length < (SaceCommandHeader.readFromParcel F temp).1.len.toNat) ∨
      saceCmd.Complete F S temp := by
  have turned : (temp.length < SaceCommandHeader.parcelSize ∨
      temp.length < (SaceCommandHeader.readFromParcel F temp).1.len.toNat) ↔
        ¬ Accepted F temp := by
    rw [Accepted, not_and_or, Nat.not_le, Nat.not_le]
  rw [turned]
  constructor
  · intro guarded
    exact or_iff_not_imp_left.mpr fun accepted =>
      guarded.complete (not_not.mp accepted)
  · rintro (dropped | complete)
    · have rejected := recvCommand_dropped F dropped saceCmd
      refine ⟨fun decoded passed => ?_, fun _ => rejected⟩
      rw [rejected] at passed
      cases passed
    · exact ⟨fun _ _ => complete, fun incomplete => absurd complete incomplete⟩

end SaceSocketReader

/-! Nine zero bytes from a client. -/

namespace Android

/-- The vector read stops at the first string that is not there. -/
def allStrings : Nat → Bytes → Option (List Str × Bytes)
  | 0, data => some ([], data)
  | n + 1, data =>
    match readString data with
    | (none, _) => none
    | (some s, rest) => (allStrings n rest).map fun (ss, rest) => (s :: ss, rest)

def vectorStatus (data : Bytes) : Option (List Str × Bytes) :=
  match readWord data with
  | (none, _) => none
  | (some n, rest) => if n < 2 ^ 31 then allStrings n rest else none

theorem readStrings_of_all {n : Nat} {data rest : Bytes} {ss : List Str}
    (found : allStrings n data = some (ss, rest)) : readStrings n data = (ss, rest) := by
  induction n generalizing data ss rest with
  | zero =>
    cases found
    rfl
  | succ n ih =>
    unfold allStrings at found
    unfold readStrings
    cases read : readString data with
    | mk first after =>
      rw [read] at found
      cases first with
      | none => cases found
      | some s =>
        simp only [Option.map_eq_some_iff, Prod.exists] at found
        obtain ⟨tail, rest', found, done⟩ := found
        cases done
        simp only [ih found]

theorem allStrings_written {ss : List Str} (ascii : ∀ s ∈ ss, Ascii s) (rest : Bytes) :
    allStrings ss.length (ss.flatMap writeString ++ rest) = some (ss, rest) := by
  induction ss with
  | nil => rfl
  | cons s ss ih =>
    have head := readString_carries (ascii s List.mem_cons_self)
    have tail := ih fun t member => ascii t (List.mem_cons_of_mem _ member)
    simp only [Wire.Slot.Carries] at head
    simp only [List.length_cons, List.flatMap_cons, List.append_assoc, allStrings, head, tail,
      Option.map_some]

theorem vectorStatus_stored {data rest : Bytes} {ss : List Str}
    (found : vectorStatus data = some (ss, rest)) : readVector data = (some ss, rest) := by
  unfold vectorStatus at found
  unfold readVector
  cases read : readWord data with
  | mk first after =>
    rw [read] at found
    cases first with
    | none => cases found
    | some n =>
      dsimp only at found ⊢
      split at found
      · rename_i few
        simp only [few, if_true, readStrings_of_all found]
      · cases found

theorem vectorStatus_written {ss : List Str} (few : ss.length < 2 ^ 31)
    (ascii : ∀ s ∈ ss, Ascii s) (rest : Bytes) :
    vectorStatus (writeVector ss ++ rest) = some (ss, rest) := by
  rw [writeVector, List.append_assoc, vectorStatus, readWord_word (n := ss.length) (by omega)]
  simp only [few, if_true, allStrings_written ascii]

def status : parcel.Status where
  utf16Vector := vectorStatus
  stored _ _ _ found := vectorStatus_stored found
  carries _ rest few ascii := vectorStatus_written few ascii rest

end Android

namespace SaceSocketReader

def nineZeros : Bytes := List.replicate 9 0

/-- Not even the sequence of the header is there. -/
theorem nineZeros_incomplete (saceCmd : SaceCommand) :
    ¬ saceCmd.Complete Android.parcel Android.status nineZeros := by
  rintro ⟨decoded, parsed, _⟩
  have none : saceCmd.parse Android.parcel Android.status nineZeros = none := rfl
  rw [none] at parsed
  cases parsed

theorem nineZeros_passed : ¬ ∀ (saceCmd : SaceCommand) (temp : Bytes),
    Guarded Android.parcel Android.status saceCmd temp := by
  intro guarded
  let saceCmd := SaceCommand.init (str "1:1") 1
  have accepted : Accepted Android.parcel nineZeros := ⟨by decide, by decide⟩
  exact nineZeros_incomplete saceCmd ((guarded saceCmd nineZeros).complete accepted)

end SaceSocketReader
end Sace
