import Sace.Reader.Bounds
import Sace.Server.Steps

/-! One read from a client, from its bytes to the turns of the executors: where every copy
on the way stays inside its destination. -/
namespace Sace

/-! ### Decoding -/

namespace SaceCommand
variable (F : ParcelFormat)

def extraField (data : Bytes) : UInt32 × Bytes :=
  let (_, rest) := SaceCommandHeader.readFromParcel F data
  let (_, rest) := F.uint64.readOr 0 rest
  let (_, rest) := F.utf16.readOr [] rest
  let (_, rest) := F.utf16.readOr [] rest
  F.uint32.readOr 0 rest

/-- The extra bytes that a command announces, when it has them, have room. -/
def ExtraReadFits (data : Bytes) : Prop :=
  F.readRaw (extraField F data).1.toNat (extraField F data).2 ≠ none →
    (extraField F data).1.toNat ≤ EXTRA_BUFER_LEN

/-- The command that the bytes describe, whatever there is room for. -/
def described (c : SaceCommand) (data : Bytes) : SaceCommand :=
  let (header, rest) := SaceCommandHeader.readFromParcel F data
  let (label, rest) := F.uint64.readOr 0 rest
  let (name, rest) := F.utf16.readOr c.name rest
  let (command, rest) := F.utf16.readOr c.command rest
  let (extraLen, rest) := F.uint32.readOr 0 rest
  let (extra, rest) := (F.readRaw extraLen.toNat rest).getD ([], rest)
  let (subType, subFlags, rest) : UInt8 × UInt8 × Bytes :=
    if knownType header.type then
      let (subType, rest) := F.byte.readOr 0 rest
      let (subFlags, rest) := F.byte.readOr 0 rest
      (subType, subFlags, rest)
    else (c.subType, c.subFlags, rest)
  { len := header.len, type := header.type, sequence := header.sequence, label, name, command
    commandParams := readParams F header.type rest, extra, extraLen, subType, subFlags }

theorem readOr_rest {A : Type} (field : Wire.Slot A) (a b : A) (data : Bytes) :
    (field.readOr a data).2 = (field.readOr b data).2 := rfl

theorem readExtra_safe (n : UInt32) (data : Bytes) :
    Safe (readExtra F n data) ↔
      (F.readRaw n.toNat data ≠ none → n.toNat ≤ EXTRA_BUFER_LEN) := by
  unfold readExtra
  split
  · rename_i none
    simp [none]
  · rename_i extra rest some
    rw [safe_after_memcpy]
    simp [some]

theorem readExtra_ok {n : UInt32} {data : Bytes}
    (fits : F.readRaw n.toNat data ≠ none → n.toNat ≤ EXTRA_BUFER_LEN) :
    (readExtra F n data).result = .ok ((F.readRaw n.toNat data).getD ([], data)) := by
  unfold readExtra
  split
  · rename_i none
    simp [none]
  · rename_i extra rest some
    rw [memcpy_of_le (fits (by simp [some])), Traced.bind_of_ok rfl, some]
    rfl

theorem extraField_eq (c : SaceCommand) (data : Bytes) :
    extraField F data = F.uint32.readOr 0 (F.utf16.readOr c.command (F.utf16.readOr c.name
      (F.uint64.readOr 0 (SaceCommandHeader.readFromParcel F data).2).2).2).2 := by
  rw [readOr_rest F.utf16 c.command [], readOr_rest F.utf16 c.name []]
  rfl

theorem readFromParcel_safe (c : SaceCommand) (data : Bytes) :
    Safe (c.readFromParcel F data) ↔ ExtraReadFits F data := by
  rw [ExtraReadFits, extraField_eq F c, ← readExtra_safe, readFromParcel]
  simp only [safe_bind, safe_pure, implies_true, and_true]

theorem readFromParcel_described {c : SaceCommand} {data : Bytes} (fits : ExtraReadFits F data) :
    (c.readFromParcel F data).result = .ok (c.described F data) := by
  rw [ExtraReadFits, extraField_eq F c] at fits
  rw [readFromParcel]
  simp only
  rw [Traced.bind_of_ok (readExtra_ok F fits)]
  rfl

end SaceCommand

namespace SaceSocketReader
variable (F : ParcelFormat)

/-- The two checks of a read on its length. -/
def Accepted (temp : Bytes) : Prop :=
  SaceCommandHeader.parcelSize ≤ temp.length ∧
    (SaceCommandHeader.readFromParcel F temp).1.len.toNat ≤ temp.length

theorem recvCommand_accepted {temp : Bytes} (accepted : Accepted F temp) (saceCmd : SaceCommand) :
    recvCommand F saceCmd temp = (do return some (← saceCmd.readFromParcel F temp)) := by
  simp only [recvCommand, Nat.not_lt.mpr accepted.1, Nat.not_lt.mpr accepted.2, if_false]

theorem recvCommand_dropped {temp : Bytes} (dropped : ¬ Accepted F temp) (saceCmd : SaceCommand) :
    recvCommand F saceCmd temp = pure none := by
  unfold recvCommand
  by_cases short : temp.length < SaceCommandHeader.parcelSize
  · rw [if_pos short]
  · rw [if_neg short]
    have : temp.length < (SaceCommandHeader.readFromParcel F temp).1.len.toNat := by
      by_contra long
      exact dropped ⟨Nat.not_lt.mp short, Nat.not_lt.mp long⟩
    simp only [this, if_true]

end SaceSocketReader

/-! ### The executors' turns -/

namespace Server

/-- What has to fit for a command that an executor takes: in the request, in the file that
is written behind it, and in the START of an event that it sets off. -/
def CommandFits (server : Server) (writer : SaceWriter) (saceCmd : SaceCommand)
    (answers : Answers) : Prop :=
  (saceCmd.type = .service → server.mExit .service = false →
    server.service.CommandFits saceCmd) ∧
  (saceCmd.type = .event → server.mExit .event = false →
    server.event.ExtraFits saceCmd answers.eventEnv ∧
    server.event.EventsFit saceCmd writer answers.eventEnv ∧
    (server.event.StartsAtOnce saceCmd answers.eventEnv → server.mExit .service = false →
      server.service.CommandFits (serviceCommand saceCmd)))

theorem service_safe {server : Server} {msg : SaceReaderMessage} {answers : Answers}
    (kind : msg.msgHandler = .service) :
    Safe (server.handleMessage msg answers) ↔
      (server.mExit .service = false → server.service.CommandFits msg.msgCmd) := by
  unfold handleMessage excute
  rw [kind]
  cases server.mExit .service with
  | true => simp
  | false => simp [safe_bind, SaceServiceExcutor.excuteNormal_safe]

theorem commandFits_of_ne {s : SaceServiceExcutor} {saceCmd : SaceCommand}
    (other : saceCmd.serviceCmdType ≠ .start) : s.CommandFits saceCmd :=
  fun kind => absurd kind other

theorem turns_silent {server : Server} {msg : SaceReaderMessage} {answers : Answers}
    (silent : Traced.Every (fun effect => ∀ message, effect ≠ .post message)
      (server.handleMessage msg answers)) :
    (∀ w ∈ server.turns msg answers, w.Fits) ↔ Safe (server.handleMessage msg answers) := by
  simp only [turns, posted_nil silent, List.flatMap_nil, List.append_nil]
  rfl

theorem event_turns {server : Server} {msg : SaceReaderMessage} {answers : Answers}
    (kind : msg.msgHandler = .event) (open_ : server.mExit .event = false) :
    (∀ w ∈ server.turns msg answers, w.Fits) ↔
      server.event.ExtraFits msg.msgCmd answers.eventEnv ∧
      server.event.EventsFit msg.msgCmd msg.msgWriter answers.eventEnv ∧
      (server.event.StartsAtOnce msg.msgCmd answers.eventEnv → server.mExit .service = false →
        server.service.CommandFits (serviceCommand msg.msgCmd)) := by
  let turn := server.handleMessage msg answers
  let after := turn.value.getD server
  have excuted : turn = server.excute msg answers := by
    simp only [turn, handleMessage, kind, open_, Bool.false_eq_true, if_false]
  have trace : turn.trace = (server.event.excuteNormal msg answers.eventEnv).trace := by
    rw [excuted, excute, kind]
    exact congrArg Traced.trace (Traced.bind_pure_eq _ _)
  have rest : after.service = server.service ∧ after.mExit = server.mExit := by
    cases done : turn.value with
    | none => simp [after, done]
    | some t =>
      simp only [after, done, Option.getD_some]
      exact event_turn kind (excuted ▸ Traced.value_eq_some.mp done)
  have safe : (∀ w ∈ turn.trace, w.Fits) ↔
      server.event.ExtraFits msg.msgCmd answers.eventEnv ∧
        server.event.EventsFit msg.msgCmd msg.msgWriter answers.eventEnv := by
    rw [trace]
    exact SaceEvent.excuteNormal_safe
  have follows : (∀ w ∈ server.turns msg answers, w.Fits) ↔ (∀ w ∈ turn.trace, w.Fits) ∧
      ∀ next ∈ posted turn.trace, Safe (after.handleMessage (after.message next) answers) := by
    simp only [turns, List.mem_append, List.mem_flatMap, or_imp, forall_and, forall_exists_index,
      and_imp]
    exact and_congr_right fun _ => ⟨fun h next member w sent => h w next member sent,
      fun h w next member sent => h next member w sent⟩
  rw [follows, safe, and_assoc]
  refine and_congr_right fun extra => and_congr_right fun events => ⟨fun all now running => ?_,
    fun start next member => ?_⟩
  · have here : .post (.message (server.event.eventMsg (serviceCommand msg.msgCmd))) ∈
        turn.trace := by
      rw [trace, SaceEvent.excuteNormal, Traced.mem_bind]
      exact .inl (SaceEvent.start_posted now (extra.2.1 now.1 now.2.1 now.2.2))
    have fits := (service_safe rfl).mp (all _ (mem_posted.mpr here))
    rw [rest.1, rest.2] at fits
    exact fits running
  · have among : server.event.Posts msg.msgCmd msg.msgWriter answers.eventEnv next := by
      have sent := mem_posted.mp member
      rw [trace] at sent
      exact SaceEvent.excuteNormal_every (P := fun effect => ∀ message, effect = .post message →
        server.event.Posts msg.msgCmd msg.msgWriter answers.eventEnv message)
        (by simp) (fun _ among message eq => Effect.post.inj eq ▸ among) (by simp) _ sent next rfl
    cases among with
    | stop =>
      exact (service_safe rfl).mpr fun _ =>
        commandFits_of_ne (show SaceServiceCommandType.stop ≠ .start by decide)
    | info =>
      exact (service_safe rfl).mpr fun _ =>
        commandFits_of_ne (show SaceServiceCommandType.info ≠ .start by decide)
    | start now =>
      apply (service_safe rfl).mpr
      intro running
      rw [rest.1]
      rw [rest.2] at running
      exact start now running

theorem turns_safe (server : Server) (climsg : SaceSocketReader.ClientSocket)
    (saceCmd : SaceCommand) (answers : Answers) :
    (∀ w ∈ server.turns (commandMsg climsg saceCmd) answers, w.Fits) ↔
      server.CommandFits climsg.writer saceCmd answers := by
  have serviceEvent : SaceCommandType.service ≠ .event := by decide
  have eventService : SaceCommandType.event ≠ .service := by decide
  unfold CommandFits
  by_cases exits : server.mExit (typeCmdToMsg saceCmd.type) = true
  · have dropped : server.handleMessage (commandMsg climsg saceCmd) answers = pure server := by
      simp only [handleMessage, commandMsg, exits, if_true]
    rw [turns_silent (by rw [dropped]; exact Traced.every_pure _), dropped]
    refine iff_of_true (safe_pure _) ⟨fun kind open_ => ?_, fun kind open_ => ?_⟩
    · simp [kind, open_] at exits
    · simp [kind, open_] at exits
  rw [Bool.not_eq_true] at exits
  by_cases event : saceCmd.type = .event
  · rw [event, typeCmdToMsg_event] at exits
    rw [event_turns (by simp [commandMsg, event]) exits]
    simp only [event, eventService, false_implies, true_and, exits, forall_const, commandMsg]
  by_cases service : saceCmd.type = .service
  · rw [service, typeCmdToMsg_service] at exits
    have kind : (commandMsg climsg saceCmd).msgHandler = .service := by simp [commandMsg, service]
    have silent : Traced.Every (fun effect => ∀ message, effect ≠ .post message)
        (server.handleMessage (commandMsg climsg saceCmd) answers) := by
      simp only [handleMessage, kind, exits, Bool.false_eq_true, if_false, excute]
      rw [Traced.every_bind]
      refine ⟨?_, fun _ _ => Traced.every_pure _⟩
      exact SaceServiceExcutor.excuteNormal_every (by simp) (by simp) (by simp) (by simp) (by simp)
    rw [turns_silent silent, service_safe kind]
    simp only [service, serviceEvent, false_implies, and_true, forall_const, commandMsg]
  · have kind : (commandMsg climsg saceCmd).msgHandler = .normal ∨
        (commandMsg climsg saceCmd).msgHandler = .unkown := by
      by_cases normal : saceCmd.type = .normal
      · exact .inl (by simp [commandMsg, normal])
      · exact .inr (typeCmdToMsg_other normal service event)
    rw [turns_silent (handleMessage_every kind (by simp) (by simp) (by simp))]
    simp only [service, event, false_implies, and_self, iff_true]
    exact handleMessage_every kind (fun _ _ => trivial) (fun _ _ => trivial) fun _ _ => trivial

end Server

/-- No copy that a read sets off leaves its destination exactly when the extra bytes of an
accepted command have room and, for an authorised client, the command fits the executors. -/
theorem read_safe_iff (F : ParcelFormat) (server : Server)
    (climsg : SaceSocketReader.ClientSocket) (saceCmd : SaceCommand) (temp : Bytes)
    (answers : Answers) :
    (∀ w ∈ server.readEffects F climsg saceCmd temp answers, w.Fits) ↔
      (SaceSocketReader.Accepted F temp → SaceCommand.ExtraReadFits F temp ∧
        (securedByUidPid climsg.client.uid climsg.client.pid = true →
          server.CommandFits climsg.writer (saceCmd.described F temp) answers)) := by
  unfold Server.readEffects
  by_cases accepted : SaceSocketReader.Accepted F temp
  · have decode : Safe (SaceSocketReader.recvCommand F saceCmd temp) ↔
        SaceCommand.ExtraReadFits F temp := by
      rw [SaceSocketReader.recvCommand_accepted F accepted, safe_bind,
        SaceCommand.readFromParcel_safe]
      exact and_iff_left fun _ _ => safe_pure _
    simp only [accepted, forall_const, List.mem_append, or_imp, forall_and]
    refine (and_congr_left' decode).trans (and_congr_right fun room => ?_)
    rw [SaceSocketReader.recvCommand_accepted F accepted,
      Traced.bind_of_ok (SaceCommand.readFromParcel_described F room)]
    simp only [Traced.pure_result, SaceSocketReader.handleSocketMsg]
    split
    · rename_i secured
      simp only [secured, forall_const]
      have turn := server.turns_safe climsg (saceCmd.described F temp) answers
      simpa [Server.commandMsg, posted, unposted, Server.message] using turn
    · rename_i refused
      simp [refused, posted, unposted, Effect.Fits]
  · rw [SaceSocketReader.recvCommand_dropped F accepted]
    simp [accepted]

/-! A client that is not authorised announces one extra byte more than there is room for,
and brings it. -/

def largeExtra : Bytes :=
  SaceCommand.encode Android.parcel { sequence := 1, name := str "200:200", extraLen := 257 }

theorem large_extra_overruns :
    ¬ ∀ (server : Server) (climsg : SaceSocketReader.ClientSocket) (saceCmd : SaceCommand)
      (temp : Bytes) (answers : Answers), temp.length ≤ SaceSocketReader.MAX_SOCKET_BUF →
        ∀ w ∈ server.readEffects Android.parcel climsg saceCmd temp answers, w.Fits := by
  intro safe
  have size : largeExtra.length ≤ SaceSocketReader.MAX_SOCKET_BUF := by decide +kernel
  have overrun : .copy 257 EXTRA_BUFER_LEN ∈ (SaceSocketReader.recvCommand Android.parcel
      (.init [] 0) largeExtra).trace := by
    decide +kernel
  have fits := safe .idle shellSocket (.init [] 0) largeExtra .quiet size _
    (List.mem_append_left _ overrun)
  exact absurd fits (show ¬ 257 ≤ 256 by decide)

end Sace
