import Sace.Event.Pipe
import Sace.Reader.Streams

/-! What is written to a Parcel comes back field by field, in the class it was written from. -/
namespace Sace

variable (F : ParcelFormat)

/-- The command that was read has the fields of the one that was written. Of event parameters
that travel with another command's type the base class comes back. -/
structure SaceCommand.ReadBack (c out : SaceCommand) : Prop where
  type : out.type = c.type
  sequence : out.sequence = c.sequence
  label : out.label = c.label
  name : out.name = c.name
  command : out.command = c.command
  extraLen : out.extraLen = c.extraLen
  extra : out.extra = Bytes.padded c.extraLen.toNat c.extra
  subType : out.subType = c.subType
  subFlags : out.subFlags = c.subFlags
  event : c.type = .event → out.commandParams = c.commandParams
  base : c.type ≠ .event → out.commandParams = c.commandParams.map fun p => .command p.base
  len : out.len = UInt32.ofNat (c.encode F).length

structure SaceResult.ReadBack (r out : SaceResult) : Prop where
  type : out.type = r.type
  label : out.label = r.label
  sequence : out.sequence = r.sequence
  name : out.name = r.name
  resultType : out.resultType = r.resultType
  resultStatus : out.resultStatus = r.resultStatus
  resultExtraLen : out.resultExtraLen = r.resultExtraLen
  resultExtra : out.resultExtra = Bytes.padded r.resultExtraLen.toNat r.resultExtra
  len : out.len = UInt32.ofNat (r.encode F).length

structure SaceStatusResponse.ReadBack (r out : SaceStatusResponse) : Prop where
  headerType : out.headerType = r.headerType
  label : out.label = r.label
  name : out.name = r.name
  type : out.type = r.type
  status : out.status = r.status
  extraLen : out.extraLen = r.extraLen
  extra : out.extra = Bytes.padded r.extraLen.toNat r.extra
  len : out.len = UInt32.ofNat (r.encode F).length

theorem paramsOnWire_plain {type : SaceCommandType} (plain : type ≠ .event)
    (object : ParamsObject) : SaceCommand.paramsOnWire type object = .command object.base := by
  cases object with
  | command params => rfl
  | event params => exact if_neg plain

theorem paramsOnWire_event {params : Option ParamsObject}
    (event : ∀ base, params ≠ some (.command base)) :
    params.map (SaceCommand.paramsOnWire .event) = params := by
  cases params with
  | none => rfl
  | some object =>
    cases object with
    | command base => exact absurd rfl (event base)
    | event derived => simp [SaceCommand.paramsOnWire]

theorem command_back {c : SaceCommand} (valid : c.WellFormed F) : c.ReadBack F (c.onWire F) where
  type := rfl
  sequence := rfl
  label := rfl
  name := rfl
  command := rfl
  extraLen := rfl
  extra := rfl
  subType := rfl
  subFlags := rfl
  event := fun kind => by
    rw [SaceCommand.onWire, kind]
    exact paramsOnWire_event (valid.eventParams kind)
  base := fun plain =>
    congrArg (Option.map · c.commandParams) (funext (paramsOnWire_plain plain))
  len := rfl

/-- Commands, results that carry no descriptor and status responses come back as they were,
with the Parcel's size for a length; and the type in the header makes the receiver of results
and responses read the class that was written. -/
theorem round_trip :
    (∀ (c : SaceCommand) (name : Str) (sequence : UInt32), c.WellFormed F →
      ∃ out, ((SaceCommand.init name sequence).readFromParcel F (c.encode F)).result = .ok out ∧
        c.ReadBack F out) ∧
    (∀ r : SaceResult, r.WellFormed F → r.resultType ≠ .fd →
      ∃ out, (SaceResult.readFromParcel F {} (r.encode F)).result = .ok out ∧ r.ReadBack F out ∧
        (readNotice F (r.encode F)).value = some (some (.result out)) ∧
        ((r.encode F).length < 2 ^ 32 → ∀ control,
          (SaceSocketSender.recvThread F ⟨r.encode F, control⟩).result =
            .ok (some (.result { out with resultFd := some (control.getD (-1)) })))) ∧
    ∀ r : SaceStatusResponse, r.WellFormed F →
      ∃ out, (SaceStatusResponse.readFromParcel F {} (r.encode F)).result = .ok out ∧
        r.ReadBack F out ∧
        (readNotice F (r.encode F)).value = some (some (.response out)) ∧
        ((r.encode F).length < 2 ^ 32 → ∀ control,
          (SaceSocketSender.recvThread F ⟨r.encode F, control⟩).result =
            .ok (some (.response out))) := by
  refine ⟨fun c name sequence valid => ?_, fun r valid plain => ?_, fun r valid => ?_⟩
  · exact ⟨c.onWire F, by rw [SaceCommand.readFromParcel_encode F valid], command_back F valid⟩
  · have read := SaceResult.readFromParcel_append F valid plain {} []
    have notice := @EventPipe.readNotice_append F (.result r) ⟨valid, plain⟩ []
    rw [List.append_nil] at read notice
    refine ⟨r.onWire F, by rw [read]; rfl, ?_, notice, fun small control => ?_⟩
    · exact ⟨rfl, rfl, rfl, rfl, rfl, rfl, rfl, rfl, rfl⟩
    · exact SaceSocketSender.recvThread_result F valid small control
  · have notice := @EventPipe.readNotice_append F (.response r) valid []
    rw [List.append_nil] at notice
    refine ⟨r.onWire F, by rw [SaceStatusResponse.readFromParcel_encode F valid], ?_, notice,
      fun small control => SaceSocketSender.recvThread_response F valid small control⟩
    exact ⟨rfl, rfl, rfl, rfl, rfl, rfl, rfl, rfl⟩

theorem query_back : ∃ out,
    ((SaceCommand.init (str "1:1") 1).readFromParcel Android.parcel
      (queryCommand.encode Android.parcel)).result = .ok out ∧
    queryCommand.ReadBack Android.parcel out :=
  (round_trip Android.parcel).1 queryCommand (str "1:1") 1 queryCommand_valid.1

end Sace
