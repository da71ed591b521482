import Sace.Android
import Sace.Library.Framing
import Sace.Reader.Socket
import Sace.Sender.Calls

/-! Byte streams between client and server, cut anywhere. Neither side keeps bytes from one
read to the next. -/
namespace Sace
open Framing

variable (F : ParcelFormat)

/-! ### Commands to the server -/

namespace SaceSocketReader

theorem readFromParcel_len {fresh c : SaceCommand} {data : Bytes}
    (read : (fresh.readFromParcel F data).result = .ok c) :
    c.len = (SaceCommandHeader.readFromParcel F data).1.len := by
  simp only [SaceCommand.readFromParcel, Traced.bind_ok, Traced.pure_result] at read
  obtain ⟨_, _, done⟩ := read
  cases done
  rfl

theorem recvCommand_len {fresh c : SaceCommand} {temp : Bytes}
    (passed : (recvCommand F fresh temp).result = .ok (some c)) : c.len.toNat ≤ temp.length := by
  simp only [recvCommand] at passed
  split at passed
  · cases passed
  · split at passed
    · cases passed
    · rename_i long
      simp only [Traced.bind_ok, Traced.pure_result] at passed
      obtain ⟨c', read, done⟩ := passed
      cases done
      rw [readFromParcel_len F read]
      exact Nat.le_of_not_lt long

theorem header_encode (c : SaceCommand) :
    (SaceCommandHeader.readFromParcel F (c.encode F)).1.len =
      UInt32.ofNat (c.encode F).length := by
  rw [SaceCommand.encode_length, SaceCommand.encode_eq]
  simp only [SaceCommandHeader.readFromParcel, (F.uint32_carries _).readOr]

theorem recvCommand_encode {c : SaceCommand} (valid : c.WellFormed F)
    (small : (c.encode F).length < 2 ^ 32) (fresh : SaceCommand) :
    (recvCommand F fresh (c.encode F)).result = .ok (some (c.onWire F)) := by
  have long : ¬ (c.encode F).length < SaceCommandHeader.parcelSize := by
    simp only [SaceCommand.encode_length, SaceCommand.body, List.length_append, F.byte_width,
      F.uint32_width, SaceCommandHeader.parcelSize]
    omega
  have whole : ¬ (c.encode F).length <
      (SaceCommandHeader.readFromParcel F (c.encode F)).1.len.toNat := by
    rw [header_encode, UInt32.toNat_ofNat_of_lt' small]
    exact Nat.lt_irrefl _
  simp only [recvCommand, long, if_false, whole, SaceCommand.readFromParcel_encode F valid]
  rfl

def handled (fresh : SaceCommand) (chunks : List Bytes) : Except Fault (List SaceCommand) :=
  delivered (fun temp => (recvCommand F fresh temp).result) chunks

theorem handled_iff {fresh : SaceCommand} {cmds : List SaceCommand} {chunks : List Bytes}
    (valid : ∀ c ∈ cmds, c.WellFormed F ∧ (c.encode F).length < 2 ^ 32)
    (cut : CutInto id (SaceCommand.encode F) MAX_SOCKET_BUF cmds chunks) :
    handled F fresh chunks = .ok (cmds.map (SaceCommand.onWire F)) ↔
      chunks = cmds.map (SaceCommand.encode F) := by
  have exact : handled F fresh chunks = .ok (cmds.map (SaceCommand.onWire F)) ↔
      chunks.map id = cmds.map (SaceCommand.encode F) := delivered_iff cut
    (fun chunk c member whole => by
      rw [show chunk = c.encode F from whole]
      exact recvCommand_encode F (valid c member).1 (valid c member).2 fresh)
    (fun chunk _ c member received => by
      have bound := recvCommand_len F received
      rwa [SaceCommand.onWire, UInt32.toNat_ofNat_of_lt' (valid c member).2] at bound)
  rwa [List.map_id] at exact

end SaceSocketReader

/-! ### Results and responses to the client -/

namespace SaceSocketSender

namespace Handed

def encode : Handed → Bytes
  | .result r => r.encode F
  | .response r => r.encode F

def WellFormed : Handed → Prop
  | .result r => r.WellFormed F
  | .response r => r.WellFormed F

def onWire : Handed → Handed
  | .result r => .result (r.onWire F)
  | .response r => .response (r.onWire F)

def withoutFd : Handed → Handed
  | .result r => .result { r with resultFd := none }
  | .response r => .response r

def len : Handed → UInt32
  | .result r => r.len
  | .response r => r.len

theorem onWire_len {h : Handed} (small : (h.encode F).length < 2 ^ 32) :
    (h.onWire F).len.toNat = (h.encode F).length := by
  cases h <;> exact UInt32.toNat_ofNat_of_lt' small

@[simp] theorem withoutFd_len (h : Handed) : h.withoutFd.len = h.len := by cases h <;> rfl

end Handed

theorem result_len {fresh r : SaceResult} {data : Bytes}
    (read : (fresh.readFromParcel F data).result = .ok r) :
    r.len = (SaceResultHeader.readFromParcel F data).1.len := by
  simp only [SaceResult.readFromParcel, Traced.bind_ok, Traced.pure_result] at read
  obtain ⟨_, _, done⟩ := read
  cases done
  rfl

theorem response_len {fresh r : SaceStatusResponse} {data : Bytes}
    (read : (fresh.readFromParcel F data).result = .ok r) :
    r.len = (SaceResultHeader.readFromParcel F data).1.len := by
  simp only [SaceStatusResponse.readFromParcel, Traced.bind_ok, Traced.pure_result] at read
  obtain ⟨_, _, done⟩ := read
  cases done
  rfl

theorem recvThread_len {msg : Received} {h : Handed}
    (passed : (recvThread F msg).result = .ok (some h)) : h.len.toNat ≤ msg.buf.length := by
  simp only [recvThread] at passed
  split at passed
  · cases passed
  · split at passed
    · split at passed
      · cases passed
      · rename_i long
        simp only [Traced.bind_ok, Traced.pure_result] at passed
        obtain ⟨r, read, done⟩ := passed
        cases done
        simp only [Handed.len, result_len F read]
        exact Nat.le_of_not_lt long
    · split at passed
      · split at passed
        · cases passed
        · rename_i long
          simp only [Traced.bind_ok, Traced.pure_result] at passed
          obtain ⟨r, read, done⟩ := passed
          cases done
          simp only [Handed.len, response_len F read]
          exact Nat.le_of_not_lt long
      · cases passed

theorem header_result (r : SaceResult) :
    (SaceResultHeader.readFromParcel F (r.encode F)).1 =
      ⟨UInt32.ofNat (r.encode F).length, r.type, r.label⟩ := by
  rw [SaceResult.encode_length, SaceResult.encode_eq, SaceResult.body,
    SaceResultHeader.readFromParcel_header]

theorem header_response (r : SaceStatusResponse) :
    (SaceResultHeader.readFromParcel F (r.encode F)).1 =
      ⟨UInt32.ofNat (r.encode F).length, r.headerType, r.label⟩ := by
  rw [SaceStatusResponse.encode_length, SaceStatusResponse.encode_eq, SaceStatusResponse.body,
    SaceResultHeader.readFromParcel_header]

theorem recvThread_result {r : SaceResult} (valid : r.WellFormed F)
    (small : (r.encode F).length < 2 ^ 32) (control : Option Int) :
    (recvThread F ⟨r.encode F, control⟩).result =
      .ok (some (.result { r.onWire F with resultFd := some (control.getD (-1)) })) := by
  have long : ¬ (r.encode F).length < SaceResultHeader.parcelSize := by
    simp only [SaceResult.encode_length, SaceResult.body, List.length_append, F.byte_width,
      F.uint64_width, SaceResultHeader.parcelSize]
    omega
  have whole : ¬ (r.encode F).length <
      (SaceResultHeader.readFromParcel F (r.encode F)).1.len.toNat := by
    rw [header_result, UInt32.toNat_ofNat_of_lt' small]
    exact Nat.lt_irrefl _
  have kind : (SaceResultHeader.readFromParcel F (r.encode F)).1.type = .normal := by
    rw [header_result, valid.type]
  obtain ⟨fd, read⟩ := SaceResult.readFromParcel_encode F valid {}
  simp only [recvThread, long, if_false, kind, if_true, whole, read]
  rfl

theorem recvThread_response {r : SaceStatusResponse} (valid : r.WellFormed F)
    (small : (r.encode F).length < 2 ^ 32) (control : Option Int) :
    (recvThread F ⟨r.encode F, control⟩).result = .ok (some (.response (r.onWire F))) := by
  have long : ¬ (r.encode F).length < SaceResultHeader.parcelSize := by
    simp only [SaceStatusResponse.encode_length, SaceStatusResponse.body, List.length_append,
      F.byte_width, F.uint64_width, SaceResultHeader.parcelSize]
    omega
  have whole : ¬ (r.encode F).length <
      (SaceResultHeader.readFromParcel F (r.encode F)).1.len.toNat := by
    rw [header_response, UInt32.toNat_ofNat_of_lt' small]
    exact Nat.lt_irrefl _
  have kind : (SaceResultHeader.readFromParcel F (r.encode F)).1.type = .response := by
    rw [header_response, valid.type]
  have other : SaceResultHeaderType.response ≠ .normal := by decide
  simp only [recvThread, long, if_false, kind, other, if_true, whole,
    SaceStatusResponse.readFromParcel_encode F valid]
  rfl

/-- What the receive thread hands on, with descriptor numbers left out. -/
def handed (chunks : List Received) : Except Fault (List Handed) :=
  delivered (fun msg => (recvThread F msg).result.map (Option.map Handed.withoutFd)) chunks

theorem handed_iff {sent : List Handed} {chunks : List Received}
    (valid : ∀ h ∈ sent, h.WellFormed F ∧ (h.encode F).length < 2 ^ 32)
    (cut : CutInto Received.buf (Handed.encode F) SACE_RESULT_BUF_SIZE sent chunks) :
    handed F chunks = .ok (sent.map (Handed.onWire F)) ↔
      chunks.map Received.buf = sent.map (Handed.encode F) := by
  refine delivered_iff cut ?_ ?_
  · rintro ⟨buf, control⟩ h member rfl
    obtain ⟨valid, small⟩ := valid h member
    cases h with
    | result r =>
      simp only [Handed.encode, recvThread_result F valid small, Except.map, Option.map_some]
      rfl
    | response r =>
      simp only [Handed.encode, recvThread_response F valid small, Except.map, Option.map_some]
      rfl
  · intro msg _ h member received
    cases passed : (recvThread F msg).result with
    | error e => rw [passed] at received; cases received
    | ok out =>
      rw [passed] at received
      cases out with
      | none => cases received
      | some h' =>
        have same : h'.withoutFd = h.onWire F := by
          simpa [Except.map] using received
        have bound := recvThread_len F passed
        rwa [← Handed.withoutFd_len, same, Handed.onWire_len F (valid h member).2] at bound

end SaceSocketSender
/-! ### Both directions -/

open SaceSocketReader SaceSocketSender

/-- In either direction messages arrive once and in order exactly when every read returns
one whole message. -/
theorem streams_iff (fresh : SaceCommand) :
    (∀ cmds chunks, (∀ c ∈ cmds, c.WellFormed F ∧ (c.encode F).length < 2 ^ 32) →
      CutInto id (SaceCommand.encode F) MAX_SOCKET_BUF cmds chunks →
        (handled F fresh chunks = .ok (cmds.map (SaceCommand.onWire F)) ↔
          chunks = cmds.map (SaceCommand.encode F))) ∧
    ∀ sent chunks, (∀ h ∈ sent, h.WellFormed F ∧ (h.encode F).length < 2 ^ 32) →
      CutInto Received.buf (Handed.encode F) SACE_RESULT_BUF_SIZE sent chunks →
        (handed F chunks = .ok (sent.map (Handed.onWire F)) ↔
          chunks.map Received.buf = sent.map (Handed.encode F)) :=
  ⟨fun _ _ valid cut => handled_iff F valid cut, fun _ _ valid cut => handed_iff F valid cut⟩

/-! Two messages that one read returns together. -/

def queryCommand : SaceCommand :=
  { type := .service, sequence := 7, name := str "svc", command := SERVICE_GET_BY_NAME
    subType := SaceServiceCommandType.info.byte }

def failedResult : SaceResult := { sequence := 7, name := str "svc", resultStatus := .fail }

theorem queryCommand_valid : queryCommand.WellFormed Android.parcel ∧
    (queryCommand.encode Android.parcel).length < 2 ^ 32 := by
  refine ⟨?_, by decide +kernel⟩
  exact
    { type := by decide
      name := show Android.Ascii _ by decide +kernel
      command := show Android.Ascii _ by decide +kernel
      extraLen := by decide
      params := fun _ none => by cases none
      eventParams := fun _ _ none => by cases none }

theorem failedResult_valid : failedResult.WellFormed Android.parcel ∧
    (failedResult.encode Android.parcel).length < 2 ^ 32 := by
  refine ⟨?_, by decide +kernel⟩
  exact { type := rfl, name := show Android.Ascii _ by decide +kernel, extraLen := by decide }

theorem one_read_each :
    handled Android.parcel (.init (str "1:1") 1) [queryCommand.encode Android.parcel] =
      .ok [queryCommand.onWire Android.parcel] ∧
    handed Android.parcel [⟨failedResult.encode Android.parcel, none⟩] =
      .ok [.result (failedResult.onWire Android.parcel)] := by
  obtain ⟨commands, results⟩ := streams_iff Android.parcel (.init (str "1:1") 1)
  refine ⟨(commands [queryCommand] _ ?_ ⟨by simp, ?_⟩).mpr rfl,
    (results [.result failedResult] [⟨failedResult.encode Android.parcel, none⟩] ?_
      ⟨by simp [Handed.encode], ?_⟩).mpr rfl⟩
  · intro c member
    exact List.mem_singleton.mp member ▸ queryCommand_valid
  · intro chunk member
    exact List.mem_singleton.mp member ▸ by decide +kernel
  · intro h member
    exact List.mem_singleton.mp member ▸ failedResult_valid
  · intro chunk member
    exact List.mem_singleton.mp member ▸ by decide +kernel

theorem together_lost :
    (¬ ∀ F fresh cmds chunks, (∀ c ∈ cmds, c.WellFormed F ∧ (c.encode F).length < 2 ^ 32) →
      CutInto id (SaceCommand.encode F) MAX_SOCKET_BUF cmds chunks →
        handled F fresh chunks = .ok (cmds.map (SaceCommand.onWire F))) ∧
    ¬ ∀ F sent chunks, (∀ h ∈ sent, h.WellFormed F ∧ (h.encode F).length < 2 ^ 32) →
      CutInto Received.buf (Handed.encode F) SACE_RESULT_BUF_SIZE sent chunks →
        handed F chunks = .ok (sent.map (Handed.onWire F)) := by
  constructor
  · intro inOrder
    have valid : ∀ c ∈ [queryCommand, queryCommand], c.WellFormed Android.parcel ∧
        (c.encode Android.parcel).length < 2 ^ 32 := by
      intro c member
      have : c = queryCommand := by simpa using member
      exact this ▸ queryCommand_valid
    let both := queryCommand.encode Android.parcel ++ queryCommand.encode Android.parcel
    have cut : CutInto id (SaceCommand.encode Android.parcel) MAX_SOCKET_BUF
        [queryCommand, queryCommand] [both] :=
      ⟨by simp [both], fun chunk member => List.mem_singleton.mp member ▸ by decide +kernel⟩
    have whole := (handled_iff Android.parcel valid cut).mp
      (inOrder Android.parcel (.init (str "1:1") 1) _ _ valid cut)
    exact absurd (congrArg List.length whole) (by decide)
  · intro inOrder
    have valid : ∀ h ∈ [Handed.result failedResult, .result failedResult],
        h.WellFormed Android.parcel ∧ (h.encode Android.parcel).length < 2 ^ 32 := by
      intro h member
      have : h = .result failedResult := by simpa using member
      exact this ▸ failedResult_valid
    let both := failedResult.encode Android.parcel ++ failedResult.encode Android.parcel
    have cut : CutInto Received.buf (Handed.encode Android.parcel) SACE_RESULT_BUF_SIZE
        [.result failedResult, .result failedResult] [⟨both, none⟩] :=
      ⟨by simp [both, Handed.encode],
        fun chunk member => List.mem_singleton.mp member ▸ by decide +kernel⟩
    have whole := (handed_iff Android.parcel valid cut).mp (inOrder Android.parcel _ _ valid cut)
    exact absurd (congrArg List.length whole) (by decide)

end Sace
