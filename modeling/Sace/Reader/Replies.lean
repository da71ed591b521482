import Sace.Normal.Steps
import Sace.Saced.Reach

/-! What a client gets back for a command: exactly one result, with the command's sequence,
or not. -/
namespace Sace

def resultTo (writer : SaceWriter) : Effect → Option SaceResult
  | .sendResult wr result => if wr = writer then some result else none
  | _ => none

def resultsTo (writer : SaceWriter) (trace : List Effect) : List SaceResult :=
  trace.filterMap (resultTo writer)

/-- One result for the command, and it is the one that the client waits for. -/
def Replied {A : Type} (writer : SaceWriter) (saceCmd : SaceCommand) (handled : Exec A) : Prop :=
  ∃ result, resultsTo writer handled.trace = [result] ∧ result.sequence = saceCmd.sequence

def Silent {A : Type} (x : Exec A) : Prop :=
  Traced.Every (fun effect => ∀ wr result, effect ≠ .sendResult wr result) x

section Replied
variable {A B : Type} {writer : SaceWriter} {saceCmd : SaceCommand}

theorem silent_results {x : Exec A} (silent : Silent x) : resultsTo writer x.trace = [] := by
  apply List.filterMap_eq_nil_iff.mpr
  intro effect member
  cases effect with
  | sendResult wr result => exact absurd rfl (silent _ member wr result)
  | _ => rfl

theorem silent_not_replied {x : Exec A} (silent : Silent x) : ¬ Replied writer saceCmd x := by
  rintro ⟨result, sent, _⟩
  rw [silent_results silent] at sent
  cases sent

theorem replied_of_trace {x : Exec A} {y : Exec B} (same : x.trace = y.trace) :
    Replied writer saceCmd x ↔ Replied writer saceCmd y := by
  unfold Replied
  rw [same]

theorem replied_after {x : Exec A} {f : A → Exec B} (silent : Silent x) :
    Replied writer saceCmd (x >>= f) ↔
      ∃ a, x.result = .ok a ∧ Replied writer saceCmd (f a) := by
  cases done : x.result with
  | ok a =>
    simp only [Traced.bind_of_ok done, Except.ok.injEq, exists_eq_left']
    unfold Replied resultsTo
    rw [List.filterMap_append, ← resultsTo, silent_results silent, List.nil_append]
  | error e =>
    simp only [Traced.bind_of_error done, reduceCtorEq, false_and, exists_false, iff_false]
    exact silent_not_replied (x := x) silent

theorem replied_send {result : SaceResult} {f : Unit → Exec B}
    (sequence : result.sequence = saceCmd.sequence) (silent : Silent (f ())) :
    Replied writer saceCmd (Traced.emit (.sendResult writer result) >>= f) := by
  refine ⟨result, ?_, sequence⟩
  have here : resultTo writer (.sendResult writer result) = some result := if_pos rfl
  rw [Traced.emit_then, resultsTo, List.filterMap_cons_some here, ← resultsTo,
    silent_results silent]

theorem replied_map {x : Exec A} {f : A → B} :
    Replied writer saceCmd (x >>= fun a => pure (f a)) ↔ Replied writer saceCmd x :=
  replied_of_trace (by rw [Traced.bind_pure_eq])

theorem replied_single {result : SaceResult} {out : Except Fault A} :
    Replied writer saceCmd ⟨[.sendResult writer result], out⟩ ↔
      result.sequence = saceCmd.sequence := by
  have sent : resultsTo writer [.sendResult writer result] = [result] :=
    List.filterMap_cons_some (if_pos rfl)
  simp [Replied, sent]

end Replied

/-! ### The normal executor -/

theorem pcloseLoop_error {pid : Int} {waitTime : Nat} {answers : List WaitAnswer} {e : Fault}
    (stopped : (pcloseLoop pid waitTime answers).result = .error e) : e = .waiting := by
  induction answers generalizing waitTime with
  | nil =>
    cases stopped
    rfl
  | cons answer answers ih =>
    cases answer with
    | failed errno => cases stopped
    | reaped status => cases stopped
    | running =>
      simp only [pcloseLoop] at stopped
      split at stopped
      · rw [Traced.emit_then] at stopped
        exact ih stopped
      · split at stopped
        · cases stopped
        · exact ih stopped

namespace SaceNormalExcutor

theorem closeCmd_ends {s : SaceNormalExcutor} {label : UInt64} {cmdInfo : CommandInfo}
    {wait : Int → List WaitAnswer}
    (ended : (s.closeCmd label cmdInfo wait).result ≠ .error .waiting) :
    ∃ t, (s.closeCmd label cmdInfo wait).result = .ok t := by
  cases closed : (s.closeCmd label cmdInfo wait).result with
  | ok t => exact ⟨t, rfl⟩
  | error e =>
    refine absurd ?_ ended
    rw [closed]
    cases pclosed : (sacePclose s.pidlist cmdInfo.fd wait).result with
    | ok out =>
      simp only [closeCmd, Popens.closeCmd, Popens.pclose, Traced.bind_of_ok pclosed] at closed
      cases closed
    | error e' =>
      simp only [closeCmd, Popens.closeCmd, Popens.pclose, Traced.bind_of_error pclosed] at closed
      cases closed
      unfold sacePclose at pclosed
      split at pclosed
      · cases pclosed
      split at pclosed
      · cases pclosed
      · rename_i cur _
        cases loop : (pcloseLoop cur.2 0 (wait cur.2)).result with
        | ok pstat =>
          rw [Traced.bind_of_ok loop] at pclosed
          cases pclosed
        | error e'' =>
          rw [Traced.bind_of_error loop] at pclosed
          cases pclosed
          rw [pcloseLoop_error loop]

theorem closeCmd_silent (s : SaceNormalExcutor) (label : UInt64) (cmdInfo : CommandInfo)
    (wait : Int → List WaitAnswer) : Silent (s.closeCmd label cmdInfo wait) :=
  Popens.closeCmd_every (pclose_every (by simp) · · wait) s label cmdInfo

/-- A START and a CLOSE are answered; a DESTROY and an unknown sub-type are not. -/
theorem excuteNormal_replied {s : SaceNormalExcutor} (msg : SaceReaderMessage) {env : ParseEnv}
    {answers : PopenAnswers} {wait : Int → List WaitAnswer}
    (ended : (s.excuteNormal msg env answers wait).result ≠ .error .waiting) :
    Replied msg.msgWriter msg.msgCmd (s.excuteNormal msg env answers wait) ↔
      msg.msgCmd.normalCmdType = .start ∨ msg.msgCmd.normalCmdType = .close := by
  unfold excuteNormal Popens.excuteNormal at ended ⊢
  split
  · rename_i start
    refine iff_of_true ?_ (.inl start)
    unfold startNormalCmd
    dsimp only
    split
    · exact replied_send rfl (Traced.every_pure _)
    · refine (replied_after ((Traced.every_emit _).mpr (by simp))).mpr ⟨(), rfl, ?_⟩
      exact replied_send rfl (Traced.every_pure _)
  rename_i notStart
  simp only [notStart, if_false] at ended
  split
  · rename_i close
    refine iff_of_true ?_ (.inr close)
    simp only [close, if_true] at ended
    unfold Popens.closeNormalCmd at ended ⊢
    dsimp only at ended ⊢
    split
    · exact replied_send rfl (Traced.every_pure _)
    · rename_i cmdInfo found
      simp only [found] at ended
      have closes : (Popens.closeCmd s msg.msgCmd.label cmdInfo wait).result ≠ .error .waiting :=
        fun waiting => ended (by rw [Traced.bind_of_error waiting])
      obtain ⟨t, closed⟩ := closeCmd_ends closes
      refine (replied_after (closeCmd_silent _ _ _ _)).mpr ⟨t, closed, ?_⟩
      exact replied_send rfl (Traced.every_pure _)
  rename_i notClose
  refine iff_of_false ?_ (not_or.mpr ⟨notStart, notClose⟩)
  split
  · exact silent_not_replied (destroyNormalCmd_every (by simp) s msg wait)
  · exact silent_not_replied (x := (pure s : Exec SaceNormalExcutor)) (Traced.every_pure _)

end SaceNormalExcutor

/-! ### The service executor -/

/-- Every request that does not overrun the buffer of a START is answered. -/
theorem SaceServiceExcutor.excuteNormal_replied {s : SaceServiceExcutor} (owned : s.Owned)
    (msg : SaceReaderMessage) {env : ParseEnv} {answers : StartAnswers} {wait : Nat → WaitAnswer} :
    Replied msg.msgWriter msg.msgCmd (s.excuteNormal msg env answers wait) ↔ s.Fits msg := by
  have silent : Silent (s.request msg env answers) :=
    request_every (by simp) (by simp) (by simp)
  rw [excuteNormal, replied_after silent, ← request_completes owned]
  constructor
  · rintro ⟨out, requested, _⟩
    exact ⟨out, requested⟩
  · rintro ⟨⟨t, result⟩, requested⟩
    exact ⟨(t, result), requested, replied_send (request_answers requested).1.1
      (monitor_every (by simp) t wait)⟩

/-! ### The executor of events -/

namespace SaceEvent

/-- The two lines and the rlimits of an event can be written. -/
def LineWrites (cmd : SaceCommand) : Prop :=
  ∀ object, cmd.commandParams = some object →
    nameLine cmd ≤ INI_BUFFER_LEN ∧ userLine object.base ≤ INI_BUFFER_LEN ∧
      rlimitsReadable object.base

/-- The configuration file can be written, or is not. -/
def FileWrites (e : SaceEvent) (env : EventEnv) : Prop :=
  env.iniOpens → ∀ event ∈ e.eventList, LineWrites event.cmd

theorem writeEvents_ok {events : List EventService}
    (given : ∀ event ∈ events, event.cmd.commandParams ≠ none) :
    (writeEvents events).result = .ok () ↔ ∀ event ∈ events, LineWrites event.cmd := by
  induction events with
  | nil => simp [writeEvents]
  | cons event rest ih =>
    have tail := ih fun other member => given other (List.mem_cons_of_mem _ member)
    obtain ⟨object, params⟩ := Option.ne_none_iff_exists'.mp (given event List.mem_cons_self)
    have here : LineWrites event.cmd ↔ nameLine event.cmd ≤ INI_BUFFER_LEN ∧
        userLine object.base ≤ INI_BUFFER_LEN ∧ rlimitsReadable object.base := by
      simp only [LineWrites, params, Option.some.injEq, forall_eq']
    simp only [writeEvents, params, List.forall_mem_cons, here, ← tail]
    by_cases name : nameLine event.cmd ≤ INI_BUFFER_LEN
    · by_cases user : userLine object.base ≤ INI_BUFFER_LEN
      · rw [memcpy_of_le name, Traced.bind_of_ok rfl, memcpy_of_le user, Traced.bind_of_ok rfl]
        cases rlimitsReadable object.base <;> simp [name, user]
      · rw [memcpy_of_le name, Traced.bind_of_ok rfl, memcpy_of_lt (Nat.lt_of_not_le user),
          Traced.bind_of_error rfl]
        simp [user]
    · rw [memcpy_of_lt (Nat.lt_of_not_le name), Traced.bind_of_error rfl]
      simp [name]

theorem Stored.given {e : SaceEvent} (stored : Stored e) :
    ∀ event ∈ e.eventList, event.cmd.commandParams ≠ none := by
  intro event member
  obtain ⟨n, id, found, held⟩ := mem_eventList.mp member
  obtain ⟨service, params, there, eq⟩ := stored n id found
  cases held.symm.trans there
  simp [eq]

theorem writeIniFile_ok {e : SaceEvent} (stored : Stored e) (env : EventEnv) :
    (e.writeIniFile env).result = .ok () ↔ e.FileWrites env := by
  unfold writeIniFile FileWrites
  cases env.iniOpens with
  | false => simp
  | true => simpa using writeEvents_ok stored.given

def Answers (env : EventEnv) (x : Exec (SaceEvent × Outcome)) : Prop :=
  ∃ t outcome, x.result = .ok (t, outcome) ∧ outcome ≠ .forwarded ∧
    ∀ status, outcome = .done status → (t.writeIniFile env).result = .ok ()

theorem writeIniFile_silent (e : SaceEvent) (env : EventEnv) : Silent (e.writeIniFile env) := by
  unfold writeIniFile
  split
  · exact writeEvents_every (by simp) _
  · exact Traced.every_pure _

theorem excuteNormal_answers {e : SaceEvent} {msg : SaceReaderMessage} {env : EventEnv} :
    Replied msg.msgWriter msg.msgCmd (e.excuteNormal msg env) ↔
      Answers env (e.request msg.msgCmd msg.msgWriter env) := by
  have silent : Silent (e.request msg.msgCmd msg.msgWriter env) :=
    request_every (by simp) (by simp)
  rw [excuteNormal, replied_after silent]
  constructor
  · rintro ⟨⟨t, outcome⟩, requested, replied⟩
    refine ⟨t, outcome, requested, ?_, ?_⟩
    · rintro rfl
      exact silent_not_replied (x := (pure t : Exec SaceEvent)) (Traced.every_pure _) replied
    · rintro status rfl
      obtain ⟨_, written, _⟩ := (replied_after (writeIniFile_silent t env)).mp replied
      exact written
  · rintro ⟨t, outcome, requested, answered, written⟩
    refine ⟨(t, outcome), requested, ?_⟩
    cases outcome with
    | done status =>
      refine (replied_after (writeIniFile_silent t env)).mpr ⟨(), written status rfl, ?_⟩
      exact replied_send rfl (Traced.every_pure _)
    | err status => exact replied_send rfl (Traced.every_pure _)
    | forwarded => exact absurd rfl answered

section Answers
variable {env : EventEnv}

theorem answers_done (t : SaceEvent) (status : SaceResultStatus) :
    Answers env (pure (t, .done status)) ↔ (t.writeIniFile env).result = .ok () := by
  simp [Answers]

theorem answers_err (t : SaceEvent) (status : SaceResultStatus) :
    Answers env (pure (t, .err status)) := by
  simp [Answers]

theorem answers_memcpy {size capacity : Nat} {rest : Exec (SaceEvent × Outcome)} :
    Answers env (memcpy size capacity >>= fun _ => rest) ↔ size ≤ capacity ∧ Answers env rest := by
  by_cases fits : size ≤ capacity
  · have goes : (memcpy size capacity >>= fun _ => rest).result = rest.result := by
      rw [memcpy_of_le fits, Traced.bind_of_ok rfl]
    simp only [Answers, goes, fits, true_and]
  · have stops : (memcpy size capacity >>= fun _ => rest).result = .error .overflow := by
      rw [memcpy_of_lt (Nat.lt_of_not_le fits), Traced.bind_of_error rfl]
    simp [Answers, stops, fits]

theorem answers_fault (e : Fault) : ¬ Answers env (Traced.fault e) := by
  simp [Answers]

end Answers

/-- When a request is answered: what it copies fits, its parameters can be read, and the
configuration file can be written where that comes before the answer. -/
def Replies (e : SaceEvent) (saceCmd : SaceCommand) (writer : SaceWriter) (env : EventEnv) : Prop :=
  if saceCmd.eventType = .del then
    saceCmd.extraLen.toNat ≤ 1 ∧
      (saceCmd.name ∈ e.events → (e.deleted saceCmd writer).FileWrites env)
  else if saceCmd.eventType = .add then
    saceCmd.name ∉ e.events → ∃ triggers, eventTriggers saceCmd.commandParams = pure triggers ∧
      (triggers ≠ [] →
        ((triggeredAny env.properties triggers).1 → saceCmd.extraLen.toNat ≤ EXTRA_BUFER_LEN) ∧
        (e.added saceCmd triggers false).FileWrites env)
  else if saceCmd.eventType = .info then True
  else e.FileWrites env

theorem added_fileWrites (e : SaceEvent) (saceCmd : SaceCommand) (ts us : List Trigger)
    (b c : Bool) (env : EventEnv) :
    (e.added saceCmd ts b).FileWrites env ↔ (e.added saceCmd us c).FileWrites env := by
  have cmds : ∀ f : SaceEvent, f.FileWrites env ↔
      (env.iniOpens → ∀ cmd ∈ f.eventList.map EventService.cmd, LineWrites cmd) := fun f => by
    simp only [FileWrites, List.forall_mem_map]
  rw [cmds, cmds, added_cmds e saceCmd ts us b c]

theorem delEvent_answers {e : SaceEvent} (stored : Stored e) {saceCmd : SaceCommand}
    {writer : SaceWriter} {env : EventEnv} :
    Answers env (e.delEvent saceCmd writer) ↔ saceCmd.extraLen.toNat ≤ 1 ∧
      (saceCmd.name ∈ e.events → (e.deleted saceCmd writer).FileWrites env) := by
  by_cases there : saceCmd.name ∈ e.events
  · rw [delEvent_some there, answers_memcpy]
    apply and_congr_right
    intro _
    have goes : Answers env (Traced.emitAll (e.deletePosts saceCmd) >>= fun _ =>
        pure (e.deleted saceCmd writer, .done .ok)) ↔
          Answers env (pure (e.deleted saceCmd writer, .done .ok)) := Iff.rfl
    rw [goes, answers_done, writeIniFile_ok (stored.change (.deleted there))]
    simp only [there, forall_const]
  · rw [delEvent_none there, answers_memcpy]
    simp only [answers_err, there, false_implies]

theorem addEvent_answers {e : SaceEvent} (stored : Stored e) {saceCmd : SaceCommand}
    (writer : SaceWriter) {env : EventEnv} :
    Answers env (e.addEvent saceCmd env) ↔ (saceCmd.name ∉ e.events →
      ∃ triggers, eventTriggers saceCmd.commandParams = pure triggers ∧ (triggers ≠ [] →
        ((triggeredAny env.properties triggers).1 → saceCmd.extraLen.toNat ≤ EXTRA_BUFER_LEN) ∧
        (e.added saceCmd triggers false).FileWrites env)) := by
  by_cases taken : saceCmd.name ∈ e.events
  · rw [addEvent_taken taken]
    simp only [answers_err, taken, not_true_eq_false, false_implies]
  simp only [taken, not_false_eq_true, forall_const]
  rcases eventTriggers_cases saceCmd.commandParams with ⟨triggers, given⟩ | bad
  · have only : ∀ P : List Trigger → Prop, (∃ ts, eventTriggers saceCmd.commandParams = pure ts ∧
        P ts) ↔ P triggers := by
      refine fun P => ⟨?_, fun holds => ⟨triggers, given, holds⟩⟩
      rintro ⟨ts, same, holds⟩
      cases Except.ok.inj (congrArg Traced.result (given.symm.trans same))
      exact holds
    rw [only]
    by_cases empty : triggers = []
    · subst empty
      rw [addEvent_none taken given]
      simp [answers_err]
    · rw [addEvent_some taken given empty]
      have kept : ∀ started ts, Stored (e.added saceCmd ts started) := fun started ts =>
        stored.change (show Change e saceCmd writer _ from .added started taken given empty)
      simp only [empty, not_false_eq_true, ne_eq, forall_const]
      split
      · rename_i fires
        have goes : Answers env (Traced.emit (.post (.message (e.eventMsg
            (serviceCommand saceCmd)))) >>= fun _ => pure
              (e.added saceCmd (triggeredAny env.properties triggers).2 true, .done .ok)) ↔
            Answers env (pure
              (e.added saceCmd (triggeredAny env.properties triggers).2 true, .done .ok)) := Iff.rfl
        rw [answers_memcpy, goes, answers_done, writeIniFile_ok (kept _ _),
          added_fileWrites e saceCmd _ triggers true false]
        simp only [fires, forall_const]
      · rename_i unfired
        rw [answers_done, writeIniFile_ok (kept _ _),
          added_fileWrites e saceCmd _ triggers false false]
        simp only [unfired, Bool.false_eq_true, false_implies, true_and]
  · rw [addEvent_fault taken bad]
    apply iff_of_false (answers_fault _)
    rintro ⟨triggers, given, _⟩
    rw [bad] at given
    cases congrArg Traced.result given

/-- An event request that is not forwarded is answered exactly when it gets to its end. -/
theorem excuteNormal_replied {e : SaceEvent} (stored : Stored e) (msg : SaceReaderMessage)
    {env : EventEnv} (other : ¬ (msg.msgCmd.eventType = .info ∧
      msg.msgCmd.name ∈ e.runningEvents)) :
    Replied msg.msgWriter msg.msgCmd (e.excuteNormal msg env) ↔
      e.Replies msg.msgCmd msg.msgWriter env := by
  rw [excuteNormal_answers, request, Replies]
  split
  · exact delEvent_answers stored
  split
  · exact addEvent_answers stored msg.msgWriter
  split
  · rename_i info
    rw [infoEvent_refused fun _ there => other ⟨info, there⟩]
    exact iff_of_true (answers_err _ _) trivial
  · rw [answers_done, writeIniFile_ok stored]

end SaceEvent

/-! ### The daemon -/

/-- When a client gets its reply. Refused commands are answered with the sequence 0. -/
def Server.Replies (server : Server) (climsg : SaceSocketReader.ClientSocket)
    (saceCmd : SaceCommand) (answers : Answers) : Prop :=
  if securedByUidPid climsg.client.uid climsg.client.pid then
    server.mExit (typeCmdToMsg saceCmd.type) = false ∧
    (saceCmd.type = .normal ∧ (saceCmd.normalCmdType = .start ∨ saceCmd.normalCmdType = .close) ∨
      saceCmd.type = .service ∧ server.service.Fits (commandMsg climsg saceCmd) ∨
      saceCmd.type = .event ∧ server.event.Replies saceCmd climsg.writer answers.eventEnv)
  else saceCmd.sequence = 0

namespace Server

theorem dropped_not_replied {server : Server} {writer : SaceWriter} {saceCmd : SaceCommand} :
    ¬ Replied writer saceCmd (pure server : Exec Server) :=
  silent_not_replied (Traced.every_pure _)

theorem excute_replied {server : Server} (owned : server.service.Owned)
    (stored : server.event.Stored) {climsg : SaceSocketReader.ClientSocket}
    {saceCmd : SaceCommand} {answers : Answers}
    (other : ¬ (saceCmd.type = .event ∧ saceCmd.eventType = .info ∧
      saceCmd.name ∈ server.event.runningEvents))
    (ended : (server.excute (commandMsg climsg saceCmd) answers).result ≠ .error .waiting) :
    Replied climsg.writer saceCmd (server.excute (commandMsg climsg saceCmd) answers) ↔
      (saceCmd.type = .normal ∧ (saceCmd.normalCmdType = .start ∨ saceCmd.normalCmdType = .close) ∨
        saceCmd.type = .service ∧ server.service.Fits (commandMsg climsg saceCmd) ∨
        saceCmd.type = .event ∧
          server.event.Replies saceCmd climsg.writer answers.eventEnv) := by
  have normalService : SaceCommandType.normal ≠ .service := by decide
  have normalEvent : SaceCommandType.normal ≠ .event := by decide
  have serviceEvent : SaceCommandType.service ≠ .event := by decide
  by_cases normal : saceCmd.type = .normal
  · have turn : server.excute (commandMsg climsg saceCmd) answers = (do
        let normal ← server.normal.excuteNormal (commandMsg climsg saceCmd) answers.env
          answers.popen answers.pclose
        return { server with normal }) := by
      simp only [excute, commandMsg, normal, typeCmdToMsg_normal]
    rw [turn] at ended ⊢
    rw [Traced.bind_pure_eq] at ended
    rw [replied_map]
    simp only [normal, true_and, normalService, normalEvent, false_and, or_false]
    exact SaceNormalExcutor.excuteNormal_replied (commandMsg climsg saceCmd) fun waiting =>
      ended (by simp only [waiting, Except.map])
  by_cases service : saceCmd.type = .service
  · have turn : server.excute (commandMsg climsg saceCmd) answers = (do
        let service ← server.service.excuteNormal (commandMsg climsg saceCmd) answers.env
          answers.start answers.wait
        return { server with service }) := by
      simp only [excute, commandMsg, service, typeCmdToMsg_service]
    rw [turn, replied_map]
    simp only [service, normalService.symm, serviceEvent, false_and, true_and, false_or, or_false]
    exact SaceServiceExcutor.excuteNormal_replied owned (commandMsg climsg saceCmd)
  by_cases event : saceCmd.type = .event
  · have turn : server.excute (commandMsg climsg saceCmd) answers = (do
        let event ← server.event.excuteNormal (commandMsg climsg saceCmd) answers.eventEnv
        return { server with event }) := by
      simp only [excute, commandMsg, event, typeCmdToMsg_event]
    rw [turn, replied_map]
    simp only [event, normalEvent.symm, serviceEvent.symm, false_and, true_and, false_or]
    exact SaceEvent.excuteNormal_replied stored (commandMsg climsg saceCmd) fun info =>
      other ⟨event, info⟩
  · have turn : server.excute (commandMsg climsg saceCmd) answers = pure server := by
      simp only [excute, commandMsg, typeCmdToMsg_other normal service event]
    rw [turn]
    simp only [normal, service, event, false_and, or_self, iff_false]
    exact dropped_not_replied

theorem handleCommand_replied {server : Server} (owned : server.service.Owned)
    (stored : server.event.Stored) {climsg : SaceSocketReader.ClientSocket}
    {saceCmd : SaceCommand} {answers : Answers}
    (other : ¬ (saceCmd.type = .event ∧ saceCmd.eventType = .info ∧
      saceCmd.name ∈ server.event.runningEvents))
    (ended : (server.handleCommand climsg saceCmd answers).result ≠ .error .waiting) :
    Replied climsg.writer saceCmd (server.handleCommand climsg saceCmd answers) ↔
      server.Replies climsg saceCmd answers := by
  unfold Replies
  split
  · rename_i secured
    rw [handleCommand_secured secured] at ended ⊢
    unfold handleMessage at ended ⊢
    cases exits : server.mExit (commandMsg climsg saceCmd).msgHandler with
    | true =>
      have drops : server.mExit (typeCmdToMsg saceCmd.type) = true := exits
      simp only [if_true, drops, Bool.true_eq_false, false_and, iff_false]
      exact dropped_not_replied
    | false =>
      have takes : server.mExit (typeCmdToMsg saceCmd.type) = false := exits
      simp only [exits, Bool.false_eq_true, if_false] at ended
      simp only [Bool.false_eq_true, if_false, takes, true_and]
      exact excute_replied owned stored other ended
  · rename_i refused
    rw [handleCommand_refused (Bool.not_eq_true _ ▸ refused), replied_single]
    exact eq_comm

end Server

/-- Whatever the daemon has done before, a command is answered by exactly one result with
its sequence in these cases and in no others. -/
theorem replied_iff {event : SaceEvent} (loaded : event.Loaded) {d : Saced}
    (reached : Runs.Reached Saced.step Saced.Provided (.start event) d)
    {climsg : SaceSocketReader.ClientSocket} {saceCmd : SaceCommand} {answers : Answers}
    (other : ¬ (saceCmd.type = .event ∧ saceCmd.eventType = .info ∧
      saceCmd.name ∈ d.server.event.runningEvents))
    (ended : (d.server.handleCommand climsg saceCmd answers).result ≠ .error .waiting) :
    Replied climsg.writer saceCmd (d.server.handleCommand climsg saceCmd answers) ↔
      d.server.Replies climsg saceCmd answers :=
  Server.handleCommand_replied (Saced.reached_sound loaded reached).1
    (Saced.reached_sound loaded reached).2 other ended

/-! A client asks for a service that is not there, first an authorised one. -/

def askCommand : SaceCommand :=
  { type := .service, sequence := 7, name := str "svc", command := SERVICE_GET_BY_NAME
    subType := SaceServiceCommandType.info.byte }

theorem ask_replied :
    Replied systemSocket.writer askCommand
      (Server.idle.handleCommand systemSocket askCommand .quiet) := by
  refine (replied_iff SaceEvent.bare_loaded .start ?_ ?_).mpr ?_
  · intro info
    exact absurd info.1 (by decide)
  · intro waiting
    cases waiting
  · exact ⟨rfl, .inr (.inl ⟨rfl, fun kind => absurd kind (by decide)⟩)⟩

theorem refused_unanswered :
    ¬ ∀ (event : SaceEvent), event.Loaded → ∀ d,
      Runs.Reached Saced.step Saced.Provided (.start event) d →
        ∀ (climsg : SaceSocketReader.ClientSocket) (saceCmd : SaceCommand) (answers : Answers),
          ¬ (saceCmd.type = .event ∧ saceCmd.eventType = .info ∧
            saceCmd.name ∈ d.server.event.runningEvents) →
          (d.server.handleCommand climsg saceCmd answers).result ≠ .error .waiting →
            Replied climsg.writer saceCmd (d.server.handleCommand climsg saceCmd answers) := by
  intro answered
  have refused : Server.idle.handleCommand shellSocket askCommand .quiet =
      ⟨[.sendResult shellSocket.writer resultBySecure], .ok .idle⟩ :=
    Server.handleCommand_refused (by decide)
  have replied := answered .bare SaceEvent.bare_loaded _ .start shellSocket askCommand .quiet
    (fun info => absurd info.1 (by decide)) (fun waiting => by
      cases (congrArg Traced.result refused).symm.trans waiting)
  have zero : resultBySecure.sequence = askCommand.sequence :=
    replied_single.mp (refused ▸ replied)
  exact absurd zero (by decide)

end Sace
