import Sace.Reader.Streams

/-! Reads that return more than one message. What stands first in the bytes of a read is handled,
and nothing of what stands behind it. -/
namespace Sace
open Framing SaceSocketReader SaceSocketSender

variable (F : ParcelFormat)

/-! ### Bytes behind a message -/

theorem SaceCommand.readParams_append {type : SaceCommandType} {params : Option ParamsObject}
    (valid : ∀ object, params = some object → object.Text F)
    (event : type = .event → ∀ base, params ≠ some (.command base)) (rest : Bytes) :
    readParams F type (paramsBody F params ++ rest) = params.map (paramsOnWire type) := by
  unfold readParams paramsBody
  cases params with
  | none =>
    simp only [(F.bool_carries false).readOr, Bool.false_eq_true, if_false, Option.map_none]
  | some object =>
    have text := valid object rfl
    simp only [List.append_assoc, (F.bool_carries true).readOr, if_true, Option.map_some]
    cases object with
    | command base =>
      have plain : type ≠ .event := fun kind => event kind base rfl
      have text : base.Text F := text
      simp only [plain, if_false, ParamsObject.body, paramsOnWire,
        SaceCommandParams.readFromParcel_body F text]
    | event derived =>
      have text : derived.Text F := text
      by_cases kind : type = .event
      · simp only [kind, if_true, ParamsObject.body, paramsOnWire,
          SaceEventParams.readFromParcel_body F text]
      · simp only [kind, if_false, ParamsObject.body, SaceEventParams.body, List.append_assoc,
          SaceCommandParams.readFromParcel_body F text.base, paramsOnWire]

theorem SaceCommand.readFromParcel_append {c : SaceCommand} (valid : c.WellFormed F)
    (fresh : SaceCommand) (rest : Bytes) :
    fresh.readFromParcel F (c.encode F ++ rest) =
      ⟨[.copy c.extraLen.toNat EXTRA_BUFER_LEN], .ok (c.onWire F)⟩ := by
  have params := readParams_append F valid.params valid.eventParams rest
  have bytes : c.encode F = F.uint32.write (c.onWire F).len ++ c.body F := by
    rw [encode_eq, onWire, encode_length]
  simp only [readFromParcel, SaceCommandHeader.readFromParcel, bytes, body, List.append_assoc,
    (F.uint32_carries _).readOr, (F.byte_carries _).readOr, (F.uint64_carries _).readOr,
    (F.utf16_carries _ valid.name).readOr, (F.utf16_carries _ valid.command).readOr,
    readExtra_raw F valid.extraLen, valid.type, if_true]
  rw [Traced.bind_of_ok rfl]
  simp only [(F.byte_carries _).readOr, params, Traced.pure_trace, Traced.pure_result,
    List.append_nil]
  rfl

theorem SaceResult.readFromParcel_front {r : SaceResult} (valid : r.WellFormed F)
    (fresh : SaceResult) (rest : Bytes) : ∃ fd, fresh.readFromParcel F (r.encode F ++ rest) =
      ⟨[.copy r.resultExtraLen.toNat EXTRA_BUFER_LEN],
        .ok { r.onWire F with resultFd := fd }⟩ := by
  have bytes : r.encode F = F.uint32.write (r.onWire F).len ++ r.body F := by
    rw [encode_eq, onWire, encode_length]
  refine ⟨?_, ?_⟩
  rotate_left
  · simp only [readFromParcel, SaceResultHeader.readFromParcel, bytes, body, List.append_assoc,
      (F.uint32_carries _).readOr, (F.byte_carries _).readOr, (F.uint64_carries _).readOr,
      (F.utf16_carries _ valid.name).readOr, SaceCommand.readExtra_raw F valid.extraLen]
    rw [Traced.bind_of_ok rfl]
    rfl

/-! ### One read -/

theorem recvCommand_front {c : SaceCommand} (valid : c.WellFormed F)
    (small : (c.encode F).length < 2 ^ 32) (fresh : SaceCommand) (rest : Bytes) :
    (recvCommand F fresh (c.encode F ++ rest)).result = .ok (some (c.onWire F)) := by
  have size := c.encode_length F
  have header : (SaceCommandHeader.readFromParcel F (c.encode F ++ rest)).1.len =
      UInt32.ofNat (c.encode F).length := by
    rw [size, SaceCommand.encode_eq, List.append_assoc]
    simp only [SaceCommandHeader.readFromParcel, (F.uint32_carries _).readOr]
  have long : ¬ (c.encode F ++ rest).length < SaceCommandHeader.parcelSize := by
    simp only [size, SaceCommand.body, List.length_append, F.byte_width, F.uint32_width,
      SaceCommandHeader.parcelSize]
    omega
  have whole : ¬ (c.encode F ++ rest).length <
      (SaceCommandHeader.readFromParcel F (c.encode F ++ rest)).1.len.toNat := by
    rw [header, UInt32.toNat_ofNat_of_lt' small, List.length_append]
    omega
  simp only [recvCommand, long, if_false, whole, SaceCommand.readFromParcel_append F valid]
  rfl

theorem SaceSocketSender.Handed.header_front (h : Handed) (valid : h.WellFormed F) (rest : Bytes) :
    let header := (SaceResultHeader.readFromParcel F (h.encode F ++ rest)).1
    header.len = UInt32.ofNat (h.encode F).length ∧
      header.type = match h with
        | .result _ => .normal
        | .response _ => .response := by
  cases h with
  | result r =>
    have valid : r.WellFormed F := valid
    simp only [Handed.encode, SaceResult.encode_eq, SaceResult.body, List.append_assoc,
      SaceResultHeader.readFromParcel_header, valid.type, and_true]
    simp only [List.length_append, F.uint32_width]
  | response r =>
    have valid : r.WellFormed F := valid
    simp only [Handed.encode, SaceStatusResponse.encode_eq, SaceStatusResponse.body,
      List.append_assoc, SaceResultHeader.readFromParcel_header, valid.type, and_true]
    simp only [List.length_append, F.uint32_width]

theorem recvThread_front {h : Handed} (valid : h.WellFormed F)
    (small : (h.encode F).length < 2 ^ 32) (rest : Bytes) (control : Option Int) :
    (recvThread F ⟨h.encode F ++ rest, control⟩).result.map (Option.map Handed.withoutFd) =
      .ok (some (h.onWire F)) := by
  obtain ⟨len, kind⟩ := h.header_front F valid rest
  have long : ¬ (h.encode F ++ rest).length < SaceResultHeader.parcelSize := by
    cases h <;>
    · simp only [Handed.encode, SaceResult.encode_length, SaceStatusResponse.encode_length,
        SaceResult.body, SaceStatusResponse.body, List.length_append, F.byte_width,
        F.uint64_width, SaceResultHeader.parcelSize]
      omega
  have whole : ¬ (h.encode F ++ rest).length <
      (SaceResultHeader.readFromParcel F (h.encode F ++ rest)).1.len.toNat := by
    rw [len, UInt32.toNat_ofNat_of_lt' small, List.length_append]
    omega
  cases h with
  | result r =>
    obtain ⟨fd, read⟩ := SaceResult.readFromParcel_front F valid {} rest
    simp only [Handed.encode] at long kind whole ⊢
    simp only [recvThread, long, if_false, kind, if_true, whole, read]
    rfl
  | response r =>
    have other : SaceResultHeaderType.response ≠ .normal := by decide
    have read := SaceStatusResponse.readFromParcel_append F valid {} rest
    simp only [Handed.encode] at long kind whole ⊢
    simp only [recvThread, long, if_false, kind, other, if_true, whole, read]
    rfl

/-! ### Both directions -/

def StartsWith {S : Type} (encode : S → Bytes) (bytes : Bytes) (s : S) : Prop :=
  ∃ rest, bytes = encode s ++ rest

/-- Of the bytes of a read that starts with a whole message, just this message is handled, in
either direction and in any number of reads; what stands behind it is lost. -/
theorem streams_front (fresh : SaceCommand) :
    (∀ cmds chunks, (∀ c ∈ cmds, c.WellFormed F ∧ (c.encode F).length < 2 ^ 32) →
      List.Forall₂ (StartsWith (SaceCommand.encode F)) chunks cmds →
        handled F fresh chunks = .ok (cmds.map (SaceCommand.onWire F))) ∧
    ∀ sent chunks, (∀ h ∈ sent, h.WellFormed F ∧ (h.encode F).length < 2 ^ 32) →
      List.Forall₂ (fun msg h => StartsWith (Handed.encode F) (Received.buf msg) h) chunks sent →
        handed F chunks = .ok (sent.map (Handed.onWire F)) := by
  constructor
  · intro cmds chunks valid starts
    have front : ∀ chunk, ∀ c ∈ cmds, ∀ rest, id chunk = c.encode F ++ rest →
        (recvCommand F fresh chunk).result = .ok (some (c.onWire F)) := by
      rintro chunk c member rest rfl
      exact recvCommand_front F (valid c member).1 (valid c member).2 fresh rest
    exact delivered_front front starts
  · intro sent chunks valid starts
    have front : ∀ msg, ∀ h ∈ sent, ∀ rest, Received.buf msg = h.encode F ++ rest →
        (recvThread F msg).result.map (Option.map Handed.withoutFd) =
          .ok (some (h.onWire F)) := by
      rintro ⟨buf, control⟩ h member rest rfl
      exact recvThread_front F (valid h member).1 (valid h member).2 rest control
    exact delivered_front front starts

/-- One read returns two commands, and one two results. -/
theorem together_front :
    handled Android.parcel (.init (str "1:1") 1)
      [queryCommand.encode Android.parcel ++ queryCommand.encode Android.parcel] =
        .ok [queryCommand.onWire Android.parcel] ∧
    handed Android.parcel
      [⟨failedResult.encode Android.parcel ++ failedResult.encode Android.parcel, none⟩] =
        .ok [.result (failedResult.onWire Android.parcel)] := by
  obtain ⟨commands, results⟩ := streams_front Android.parcel (.init (str "1:1") 1)
  refine ⟨commands [queryCommand] _ ?_ ?_, results [.result failedResult] _ ?_ ?_⟩
  · exact fun c member => List.mem_singleton.mp member ▸ queryCommand_valid
  · exact .cons ⟨_, rfl⟩ .nil
  · exact fun h member => List.mem_singleton.mp member ▸ failedResult_valid
  · exact .cons ⟨_, rfl⟩ .nil

end Sace
