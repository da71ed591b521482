import Sace.Parcel

/-! SaceTypes: how commands, results and responses are written to a Parcel and read from
the bytes that arrived. -/
namespace Sace

variable (F : ParcelFormat)

namespace ParamsObject

def writeToParcel (object : ParamsObject) (parcel : Parcel) : Parcel :=
  match object with
  | .command params => params.writeToParcel F parcel
  | .event params => params.writeToParcel F parcel

def body : ParamsObject → Bytes
  | .command params => params.body F
  | .event params => params.body F

def Text : ParamsObject → Prop
  | .command params => params.Text F
  | .event params => params.Text F

@[simp] theorem writeToParcel_ended (object : ParamsObject) (data : Bytes) :
    object.writeToParcel F (.ended data) = .ended (data ++ object.body F) := by
  cases object <;> simp [writeToParcel, body]

end ParamsObject

/-! ### SaceCommand -/

namespace SaceCommandHeader

def parcelSize : Nat := 4 * 2 + 1

structure Header where
  len : UInt32
  type : SaceCommandType
  sequence : UInt32

def readFromParcel (data : Bytes) : Header × Bytes :=
  let (len, rest) := F.uint32.readOr 0 data
  let (type, rest) := F.byte.readOr 0 rest
  let (sequence, rest) := F.uint32.readOr 0 rest
  (⟨len, ⟨type⟩, sequence⟩, rest)

end SaceCommandHeader

namespace SaceCommand

/-- The types for which the sub-type bytes travel. -/
def knownType (type : SaceCommandType) : Bool :=
  type = .normal || type = .service || type = .event

def reserveSpace (c : SaceCommand) (data : Parcel) : Parcel :=
  let p := data.put (F.uint32.write 0)
  let p := p.put (F.byte.write c.type.byte)
  p.put (F.uint32.write c.sequence)

def writeParams (params : Option ParamsObject) (data : Parcel) : Parcel :=
  match params with
  | some params => params.writeToParcel F (data.put (F.bool.write true))
  | none => data.put (F.bool.write false)

/-- The three branches over the type write the same two bytes of the union. -/
def writeToParcel (c : SaceCommand) (data : Parcel) : Parcel :=
  let p := c.reserveSpace F data
  let p := p.put (F.uint64.write c.label)
  let p := p.put (F.utf16.write c.name)
  let p := p.put (F.utf16.write c.command)
  let p := p.put (F.uint32.write c.extraLen)
  let p := p.put (F.raw (Bytes.padded c.extraLen.toNat c.extra))
  let p := if knownType c.type then
      (p.put (F.byte.write c.subType)).put (F.byte.write c.subFlags)
    else p
  writeLength F (writeParams F c.commandParams p)

/-- `data->read(extra, extraLen)`: nothing is copied when the bytes are not there. -/
def readExtra (n : UInt32) (data : Bytes) : Exec (Bytes × Bytes) :=
  match F.readRaw n.toNat data with
  | none => return ([], data)
  | some (extra, rest) => do
    memcpy n.toNat EXTRA_BUFER_LEN
    return (extra, rest)

theorem readExtra_raw {n : UInt32} (fits : n.toNat ≤ EXTRA_BUFER_LEN) (extra rest : Bytes) :
    readExtra F n (F.raw (Bytes.padded n.toNat extra) ++ rest) =
      ⟨[.copy n.toNat EXTRA_BUFER_LEN], .ok (Bytes.padded n.toNat extra, rest)⟩ := by
  have size : (Bytes.padded n.toNat extra).length = n.toNat := Bytes.padded_length _ _
  have raw := F.raw_carries (Bytes.padded n.toNat extra) rest
    (by rw [size]; exact Nat.lt_of_le_of_lt fits (by decide))
  rw [size] at raw
  simp only [readExtra, raw, memcpy_of_le fits]
  rw [Traced.bind_of_ok rfl]
  rfl

/-- The parameters at the end of a command; the class is chosen by the command's type. -/
def readParams (type : SaceCommandType) (data : Bytes) : Option ParamsObject :=
  let (present, rest) := F.bool.readOr false data
  if present then
    if type = .event then some (.event (SaceEventParams.readFromParcel F {} rest).1)
    else some (.command (SaceCommandParams.readFromParcel F {} rest).1)
  else none

def readFromParcel (c : SaceCommand) (data : Bytes) : Exec SaceCommand := do
  let (header, rest) := SaceCommandHeader.readFromParcel F data
  let (label, rest) := F.uint64.readOr 0 rest
  let (name, rest) := F.utf16.readOr c.name rest
  let (command, rest) := F.utf16.readOr c.command rest
  let (extraLen, rest) := F.uint32.readOr 0 rest
  let (extra, rest) ← readExtra F extraLen rest
  let (subType, subFlags, rest) : UInt8 × UInt8 × Bytes :=
    if knownType header.type then
      let (subType, rest) := F.byte.readOr 0 rest
      let (subFlags, rest) := F.byte.readOr 0 rest
      (subType, subFlags, rest)
    else (c.subType, c.subFlags, rest)
  return { len := header.len, type := header.type, sequence := header.sequence, label, name, command
           commandParams := readParams F header.type rest, extra, extraLen, subType, subFlags }

def paramsBody : Option ParamsObject → Bytes
  | some params => F.bool.write true ++ params.body F
  | none => F.bool.write false

def body (c : SaceCommand) : Bytes :=
  F.byte.write c.type.byte ++ (F.uint32.write c.sequence ++ (F.uint64.write c.label ++
    (F.utf16.write c.name ++ (F.utf16.write c.command ++ (F.uint32.write c.extraLen ++
      (F.raw (Bytes.padded c.extraLen.toNat c.extra) ++
        ((if knownType c.type then F.byte.write c.subType ++ F.byte.write c.subFlags else []) ++
          paramsBody F c.commandParams)))))))

def encode (c : SaceCommand) : Bytes := (c.writeToParcel F {}).data

@[simp] theorem writeParams_ended (params : Option ParamsObject) (data : Bytes) :
    writeParams F params (.ended data) = .ended (data ++ paramsBody F params) := by
  cases params <;> simp [writeParams, paramsBody]

theorem encode_eq (c : SaceCommand) :
    c.encode F = F.uint32.write (UInt32.ofNat (4 + (c.body F).length)) ++ c.body F := by
  have start : ({} : Parcel) = .ended [] := rfl
  rw [← writeLength_ended F 0, encode, writeToParcel, reserveSpace, start]
  by_cases known : knownType c.type <;> simp [known, body]

theorem encode_length (c : SaceCommand) : (c.encode F).length = 4 + (c.body F).length := by
  rw [encode_eq, List.length_append, F.uint32_width]

/-- A command that the client library can build: one of the three types, at most the
buffer's worth of extra bytes, strings that travel, and for an event event parameters.
The buffer is zero behind `extra`. -/
structure WellFormed (c : SaceCommand) : Prop where
  type : knownType c.type
  name : F.text c.name
  command : F.text c.command
  extraLen : c.extraLen.toNat ≤ EXTRA_BUFER_LEN
  params : ∀ params, c.commandParams = some params → params.Text F
  eventParams : c.type = .event → ∀ params, c.commandParams ≠ some (.command params)

def paramsOnWire (type : SaceCommandType) : ParamsObject → ParamsObject
  | .event params => if type = .event then .event params else .command params.toSaceCommandParams
  | .command params => .command params

/-- The command as its encoding describes it: with the length that was filled in, with all
of its extra bytes, and with parameters of the class that its type stands for. -/
def onWire (c : SaceCommand) : SaceCommand :=
  { c with
    len := UInt32.ofNat (c.encode F).length
    extra := Bytes.padded c.extraLen.toNat c.extra
    commandParams := c.commandParams.map (paramsOnWire c.type) }

theorem readParams_body {type : SaceCommandType} {params : Option ParamsObject}
    (valid : ∀ object, params = some object → object.Text F)
    (event : type = .event → ∀ base, params ≠ some (.command base)) :
    readParams F type (paramsBody F params) = params.map (paramsOnWire type) := by
  unfold readParams paramsBody
  cases params with
  | none =>
    have carried := (F.bool_carries false).readOr false []
    rw [List.append_nil] at carried
    simp only [carried, Bool.false_eq_true, if_false, Option.map_none]
  | some object =>
    have text := valid object rfl
    simp only [(F.bool_carries true).readOr, if_true, Option.map_some]
    cases object with
    | command base =>
      have plain : type ≠ .event := fun kind => event kind base rfl
      have text : base.Text F := text
      have read := SaceCommandParams.readFromParcel_body F text {} []
      rw [List.append_nil] at read
      simp only [plain, if_false, ParamsObject.body, read, paramsOnWire]
    | event derived =>
      have text : derived.Text F := text
      by_cases kind : type = .event
      · have read := SaceEventParams.readFromParcel_body F text {} []
        rw [List.append_nil] at read
        simp only [kind, if_true, ParamsObject.body, read, paramsOnWire]
      · simp only [kind, if_false, ParamsObject.body, SaceEventParams.body,
          SaceCommandParams.readFromParcel_body F text.base, paramsOnWire]

theorem readFromParcel_encode {c : SaceCommand} (valid : c.WellFormed F) (fresh : SaceCommand) :
    fresh.readFromParcel F (c.encode F) =
      ⟨[.copy c.extraLen.toNat EXTRA_BUFER_LEN], .ok (c.onWire F)⟩ := by
  have params := readParams_body F valid.params valid.eventParams
  have bytes : c.encode F = F.uint32.write (c.onWire F).len ++ c.body F := by
    rw [encode_eq, onWire, encode_length]
  simp only [readFromParcel, SaceCommandHeader.readFromParcel, bytes, body, List.append_assoc,
    (F.uint32_carries _).readOr, (F.byte_carries _).readOr, (F.uint64_carries _).readOr,
    (F.utf16_carries _ valid.name).readOr, (F.utf16_carries _ valid.command).readOr,
    readExtra_raw F valid.extraLen, valid.type, if_true]
  rw [Traced.bind_of_ok rfl]
  simp only [(F.byte_carries _).readOr, params, Traced.pure_trace, Traced.pure_result,
    List.append_nil]
  rfl

end SaceCommand
/-! ### SaceResult and SaceStatusResponse -/

namespace SaceResultHeader

def parcelSize : Nat := 4 + 1 + 8

structure Header where
  len : UInt32
  type : SaceResultHeaderType
  label : UInt64

def reserveSpace (type : SaceResultHeaderType) (label : UInt64) (data : Parcel) : Parcel :=
  let p := data.put (F.uint32.write 0)
  let p := p.put (F.byte.write type.byte)
  p.put (F.uint64.write label)

def readFromParcel (data : Bytes) : Header × Bytes :=
  let (len, rest) := F.uint32.readOr 0 data
  let (type, rest) := F.byte.readOr 0 rest
  let (label, rest) := F.uint64.readOr 0 rest
  (⟨len, ⟨type⟩, label⟩, rest)

theorem readFromParcel_header (len : UInt32) (type : SaceResultHeaderType) (label : UInt64)
    (rest : Bytes) :
    readFromParcel F (F.uint32.write len ++
      (F.byte.write type.byte ++ (F.uint64.write label ++ rest))) =
        (⟨len, type, label⟩, rest) := by
  simp only [readFromParcel, (F.uint32_carries _).readOr,
    (F.byte_carries _).readOr, (F.uint64_carries _).readOr]

end SaceResultHeader

namespace SaceResult

def writeToParcel (r : SaceResult) (data : Parcel) : Parcel :=
  let p := SaceResultHeader.reserveSpace F r.type r.label data
  let p := p.put (F.uint32.write r.sequence)
  let p := p.put (F.utf16.write r.name)
  let p := p.put (F.byte.write r.resultType.byte)
  let p := p.put (F.byte.write r.resultStatus.byte)
  let p := p.put (F.uint32.write r.resultExtraLen)
  let p := p.put (F.raw (Bytes.padded r.resultExtraLen.toNat r.resultExtra))
  let p := if r.resultType = .fd then p.put (F.fd.write (r.resultFd.getD 0)) else p
  writeLength F p

def readFromParcel (r : SaceResult) (data : Bytes) : Exec SaceResult := do
  let (header, rest) := SaceResultHeader.readFromParcel F data
  let (sequence, rest) := F.uint32.readOr 0 rest
  let (name, rest) := F.utf16.readOr r.name rest
  let (resultType, rest) := F.byte.readOr 0 rest
  let (resultStatus, rest) := F.byte.readOr 0 rest
  let (resultExtraLen, rest) := F.uint32.readOr 0 rest
  let (resultExtra, rest) ← SaceCommand.readExtra F resultExtraLen rest
  return { len := header.len, type := header.type, label := header.label, sequence, name
           resultType := ⟨resultType⟩, resultStatus := ⟨resultStatus⟩, resultExtra, resultExtraLen
           resultFd := if resultType = SaceResultType.fd.byte then (F.fd.read rest).1
             else r.resultFd }

def body (r : SaceResult) : Bytes :=
  F.byte.write r.type.byte ++ (F.uint64.write r.label ++ (F.uint32.write r.sequence ++
    (F.utf16.write r.name ++ (F.byte.write r.resultType.byte ++
      (F.byte.write r.resultStatus.byte ++ (F.uint32.write r.resultExtraLen ++
        (F.raw (Bytes.padded r.resultExtraLen.toNat r.resultExtra) ++
          if r.resultType = .fd then F.fd.write (r.resultFd.getD 0) else [])))))))

def encode (r : SaceResult) : Bytes := (r.writeToParcel F {}).data

theorem encode_eq (r : SaceResult) :
    r.encode F = F.uint32.write (UInt32.ofNat (4 + (r.body F).length)) ++ r.body F := by
  have start : ({} : Parcel) = .ended [] := rfl
  rw [← writeLength_ended F 0, encode, writeToParcel, SaceResultHeader.reserveSpace, start]
  by_cases fd : r.resultType = .fd <;> simp [fd, body]

theorem encode_length (r : SaceResult) : (r.encode F).length = 4 + (r.body F).length := by
  rw [encode_eq, List.length_append, F.uint32_width]

structure WellFormed (r : SaceResult) : Prop where
  type : r.type = .normal
  name : F.text r.name
  extraLen : r.resultExtraLen.toNat ≤ EXTRA_BUFER_LEN

def onWire (r : SaceResult) : SaceResult :=
  { r with
    len := UInt32.ofNat (r.encode F).length
    resultExtra := Bytes.padded r.resultExtraLen.toNat r.resultExtra
    resultFd := none }

theorem readFromParcel_encode {r : SaceResult} (valid : r.WellFormed F) (fresh : SaceResult) :
    ∃ fd, fresh.readFromParcel F (r.encode F) =
      ⟨[.copy r.resultExtraLen.toNat EXTRA_BUFER_LEN],
        .ok { r.onWire F with resultFd := fd }⟩ := by
  have bytes : r.encode F = F.uint32.write (r.onWire F).len ++ r.body F := by
    rw [encode_eq, onWire, encode_length]
  refine ⟨?_, ?_⟩
  rotate_left
  · simp only [readFromParcel, SaceResultHeader.readFromParcel, bytes, body,
      (F.uint32_carries _).readOr, (F.byte_carries _).readOr, (F.uint64_carries _).readOr,
      (F.utf16_carries _ valid.name).readOr,
      SaceCommand.readExtra_raw F valid.extraLen]
    rw [Traced.bind_of_ok rfl]
    rfl

/-- Bytes behind a result that carries no descriptor are not looked at. -/
theorem readFromParcel_append {r : SaceResult} (valid : r.WellFormed F)
    (plain : r.resultType ≠ .fd) (fresh : SaceResult) (rest : Bytes) :
    fresh.readFromParcel F (r.encode F ++ rest) =
      ⟨[.copy r.resultExtraLen.toNat EXTRA_BUFER_LEN],
        .ok { r.onWire F with resultFd := fresh.resultFd }⟩ := by
  have bytes : r.encode F = F.uint32.write (r.onWire F).len ++ r.body F := by
    rw [encode_eq, onWire, encode_length]
  have byte : r.resultType.byte ≠ SaceResultType.fd.byte :=
    fun same => plain (congrArg SaceResultType.mk same)
  simp only [readFromParcel, SaceResultHeader.readFromParcel, bytes, body, List.append_assoc,
    (F.uint32_carries _).readOr, (F.byte_carries _).readOr, (F.uint64_carries _).readOr,
    (F.utf16_carries _ valid.name).readOr, SaceCommand.readExtra_raw F valid.extraLen]
  rw [Traced.bind_of_ok rfl]
  simp only [byte, if_false]
  rfl

end SaceResult

namespace SaceStatusResponse

def writeToParcel (r : SaceStatusResponse) (data : Parcel) : Parcel :=
  let p := SaceResultHeader.reserveSpace F r.headerType r.label data
  let p := p.put (F.utf16.write r.name)
  let p := p.put (F.byte.write r.type.byte)
  let p := p.put (F.byte.write r.status.byte)
  let p := p.put (F.uint32.write r.extraLen)
  let p := p.put (F.raw (Bytes.padded r.extraLen.toNat r.extra))
  writeLength F p

def readFromParcel (r : SaceStatusResponse) (data : Bytes) : Exec SaceStatusResponse := do
  let (header, rest) := SaceResultHeader.readFromParcel F data
  let (name, rest) := F.utf16.readOr r.name rest
  let (type, rest) := F.byte.readOr 0 rest
  let (status, rest) := F.byte.readOr 0 rest
  let (extraLen, rest) := F.uint32.readOr 0 rest
  let (extra, _) ← SaceCommand.readExtra F extraLen rest
  return { len := header.len, headerType := header.type, label := header.label, name
           type := ⟨type⟩, status := ⟨status⟩, extra, extraLen }

def body (r : SaceStatusResponse) : Bytes :=
  F.byte.write r.headerType.byte ++ (F.uint64.write r.label ++ (F.utf16.write r.name ++
    (F.byte.write r.type.byte ++ (F.byte.write r.status.byte ++ (F.uint32.write r.extraLen ++
      F.raw (Bytes.padded r.extraLen.toNat r.extra))))))

def encode (r : SaceStatusResponse) : Bytes := (r.writeToParcel F {}).data

theorem encode_eq (r : SaceStatusResponse) :
    r.encode F = F.uint32.write (UInt32.ofNat (4 + (r.body F).length)) ++ r.body F := by
  have start : ({} : Parcel) = .ended [] := rfl
  rw [← writeLength_ended F 0, encode, writeToParcel, SaceResultHeader.reserveSpace, start]
  simp [body]

theorem encode_length (r : SaceStatusResponse) : (r.encode F).length = 4 + (r.body F).length := by
  rw [encode_eq, List.length_append, F.uint32_width]

structure WellFormed (r : SaceStatusResponse) : Prop where
  type : r.headerType = .response
  name : F.text r.name
  extraLen : r.extraLen.toNat ≤ EXTRA_BUFER_LEN

def onWire (r : SaceStatusResponse) : SaceStatusResponse :=
  { r with
    len := UInt32.ofNat (r.encode F).length
    extra := Bytes.padded r.extraLen.toNat r.extra }

theorem readFromParcel_append {r : SaceStatusResponse} (valid : r.WellFormed F)
    (fresh : SaceStatusResponse) (rest : Bytes) :
    fresh.readFromParcel F (r.encode F ++ rest) =
      ⟨[.copy r.extraLen.toNat EXTRA_BUFER_LEN], .ok (r.onWire F)⟩ := by
  have bytes : r.encode F = F.uint32.write (r.onWire F).len ++ r.body F := by
    rw [encode_eq, onWire, encode_length]
  simp only [readFromParcel, SaceResultHeader.readFromParcel, bytes, body, List.append_assoc,
    (F.uint32_carries _).readOr, (F.byte_carries _).readOr, (F.uint64_carries _).readOr,
    (F.utf16_carries _ valid.name).readOr, SaceCommand.readExtra_raw F valid.extraLen]
  rw [Traced.bind_of_ok rfl]
  rfl

theorem readFromParcel_encode {r : SaceStatusResponse} (valid : r.WellFormed F)
    (fresh : SaceStatusResponse) :
    fresh.readFromParcel F (r.encode F) =
      ⟨[.copy r.extraLen.toNat EXTRA_BUFER_LEN], .ok (r.onWire F)⟩ := by
  have read := readFromParcel_append F valid fresh []
  rwa [List.append_nil] at read

end SaceStatusResponse
end Sace
