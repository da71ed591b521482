import Sace.Saced.Starting
import Sace.Sender.Calls

/-! What the daemon sends to one of its connections: at most one result for each command that
came in on it, under the sequence of that command. -/
namespace Sace

/-- Whether an executor sends a result for the message. -/
def SaceReaderMessage.answered (msg : SaceReaderMessage) : Bool :=
  match msg.msgHandler with
  | .unkown => false
  | .normal => msg.msgCmd.normalCmdType = .start || msg.msgCmd.normalCmdType = .close
  | .service | .event => true

/-- A message whose answer goes to the connection `fd` under this sequence. -/
def Posted.owes (fd : Int) (sequence : UInt32) : Posted → Bool
  | .message msg =>
    msg.msgWriter.channel = .socket fd && msg.msgCmd.sequence = sequence && msg.answered
  | .stopMsg => false

/-- A result on the connection under the sequence, or a message that may be answered by one. -/
def Effect.owes (fd : Int) (sequence : UInt32) : Effect → Bool
  | .post message => message.owes fd sequence
  | .sendResult writer result => writer.channel = .socket fd && result.sequence = sequence
  | _ => false

def resultsOn (fd : Int) (trace : List Effect) : List SaceResult :=
  trace.filterMap fun
    | .sendResult writer result => if writer.channel = .socket fd then some result else none
    | _ => none

theorem owes_count (fd : Int) (sequence : UInt32) (trace : List Effect) :
    trace.countP (Effect.owes fd sequence) =
      (posted trace).countP (Posted.owes fd sequence) +
        (resultsOn fd trace).countP (·.sequence = sequence) := by
  induction trace with
  | nil => rfl
  | cons effect rest ih =>
    cases effect with
    | post message =>
      have posts : posted (.post message :: rest) = message :: posted rest := rfl
      have results : resultsOn fd (.post message :: rest) = resultsOn fd rest := rfl
      have same : Effect.owes fd sequence (.post message) = message.owes fd sequence := rfl
      rw [posts, results, List.countP_cons, List.countP_cons, ih, same]
      omega
    | sendResult writer result =>
      have posts : posted (.sendResult writer result :: rest) = posted rest := rfl
      by_cases here : writer.channel = .socket fd
      · have results : resultsOn fd (.sendResult writer result :: rest) =
            result :: resultsOn fd rest := by simp [resultsOn, here]
        rw [posts, results, List.countP_cons, List.countP_cons, ih]
        simp only [Effect.owes, here, decide_true, Bool.true_and]
        omega
      · have results : resultsOn fd (.sendResult writer result :: rest) = resultsOn fd rest := by
          simp [resultsOn, here]
        rw [posts, results, List.countP_cons, ih]
        simp [Effect.owes, here]
    | _ => exact ih

theorem SaceWriter.not_piped {writer : SaceWriter} {fd : Int}
    (socket : writer.channel = .socket fd) : writer.piped = false := by
  simp only [piped, socket]

section
variable {fd : Int} {sequence : UInt32}

theorem SaceReaderMessage.owes_sent {msg : SaceReaderMessage} {result : SaceResult}
    (answered : msg.answered = true) (own : result.sequence = msg.msgCmd.sequence) :
    Effect.owes fd sequence (.sendResult msg.msgWriter result) = true →
      (Posted.message msg).owes fd sequence = true := by
  simp only [Effect.owes, Posted.owes, own, answered, Bool.and_true]
  exact id

theorem SaceNormalExcutor.excuteNormal_once (s : SaceNormalExcutor) {msg : SaceReaderMessage}
    (handler : msg.msgHandler = .normal) {env : ParseEnv} {answers : PopenAnswers}
    {wait : Int → List WaitAnswer} :
    Traced.Once (Effect.owes fd sequence) ((Posted.message msg).owes fd sequence = true)
      (s.excuteNormal msg env answers wait) := by
  unfold excuteNormal Popens.excuteNormal
  split
  · rename_i start
    have answered : msg.answered = true := by simp [SaceReaderMessage.answered, handler, start]
    unfold startNormalCmd
    split
    · exact .bind_left (Traced.once_emit (msg.owes_sent answered rfl)) fun _ _ =>
        Traced.every_pure _
    · refine .bind_right ((Traced.every_emit _).mpr rfl) fun _ _ => ?_
      exact .bind_left (Traced.once_emit (msg.owes_sent answered rfl)) fun _ _ =>
        Traced.every_pure _
  split
  · rename_i close
    have answered : msg.answered = true := by simp [SaceReaderMessage.answered, handler, close]
    unfold Popens.closeNormalCmd
    dsimp only
    split
    · exact .bind_left (Traced.once_emit (msg.owes_sent answered rfl)) fun _ _ =>
        Traced.every_pure _
    · refine .bind_right (Popens.closeCmd_every (pclose_every (fun _ _ => rfl) · · wait) s _ _)
        fun _ _ => ?_
      exact .bind_left (Traced.once_emit (msg.owes_sent answered rfl)) fun _ _ =>
        Traced.every_pure _
  split
  · exact Traced.once_of_never (destroyNormalCmd_every (fun _ _ => rfl) s msg wait)
  · exact Traced.once_of_never (Traced.every_pure _)

theorem SaceEvent.excuteNormal_owes {e : SaceEvent} (piped : e.eventWriter.piped = true)
    {msg : SaceReaderMessage} (handler : msg.msgHandler = .event) {env : EventEnv} :
    Traced.Once (Effect.owes fd sequence) ((Posted.message msg).owes fd sequence = true)
      (e.excuteNormal msg env) := by
  have own (msgCmd : SaceCommand) :
      Effect.owes fd sequence (.post (.message (e.eventMsg msgCmd))) = false := by
    have pipe : e.eventWriter.channel ≠ .socket fd := fun socket => by
      rw [SaceWriter.not_piped socket] at piped
      cases piped
    simp [Effect.owes, Posted.owes, eventMsg, pipe]
  have answered : msg.answered = true := by simp [SaceReaderMessage.answered, handler]
  rw [excuteNormal_eq]
  refine .bind_right (request_every (fun _ _ => rfl) fun message among => ?_) fun out _ => ?_
  · cases among with
    | stop => rfl
    | info =>
      rw [eventMsg_addWriters]
      exact own _
    | start now => exact own _
  · obtain ⟨t, outcome⟩ := out
    cases outcome with
    | done status =>
      refine .bind_right (writeIniFile_every (fun _ _ => rfl) t env) fun _ _ => ?_
      exact .bind_left (Traced.once_emit (msg.owes_sent answered rfl)) fun _ _ =>
        Traced.every_pure _
    | err status =>
      exact .bind_left (Traced.once_emit (msg.owes_sent answered rfl)) fun _ _ =>
        Traced.every_pure _
    | forwarded => exact Traced.once_of_never (Traced.every_pure _)

theorem Server.serve_once {server : Server} (piped : server.event.eventWriter.piped = true)
    {msg : SaceReaderMessage} {answers : Answers} :
    Traced.Once (Effect.owes fd sequence) ((Posted.message msg).owes fd sequence = true)
      (server.serve msg answers) := by
  unfold serve
  split
  · exact Traced.once_of_never (Traced.every_pure _)
  split
  · rename_i handler
    have answered : msg.answered = true := by simp [SaceReaderMessage.answered, handler]
    refine .bind_right (SaceServiceExcutor.request_every (fun _ _ => rfl) (fun _ _ => rfl)
      fun _ _ => rfl) fun out requested => ?_
    have own := (SaceServiceExcutor.request_answers requested).1.1
    exact .bind_left (Traced.once_emit (msg.owes_sent answered own)) fun _ _ =>
      Traced.every_pure _
  · rename_i other
    unfold excute
    split
    · exact Traced.once_of_never (Traced.every_pure _)
    · rename_i handler
      exact (SaceNormalExcutor.excuteNormal_once _ handler).then_pure _
    · rename_i kind
      exact absurd kind other
    · rename_i handler
      exact (SaceEvent.excuteNormal_owes piped handler).then_pure _

end

structure Link where
  slot : Nat
  fd : Int
  client : SaceClientIdentifier

namespace Link

def climsg (l : Link) : SaceSocketReader.ClientSocket :=
  { fd := l.fd, client := l.client, writer := ⟨.socket l.fd, l.client.pid⟩ }

def secured (l : Link) : Bool := securedByUidPid l.client.uid l.client.pid

def own (l : Link) : Saced.Input → Bool
  | .command slot _ => slot = l.slot
  | .hangup slot => slot = l.slot
  | _ => false

def Apart (l : Link) (climsg : SaceSocketReader.ClientSocket) : Prop :=
  0 ≤ climsg.fd → climsg.fd ≠ l.fd ∧ climsg.writer.channel ≠ .socket l.fd

/-- The connection is open, and it is the only one on its descriptor. -/
structure Holds (l : Link) (d : Saced) : Prop where
  positive : 0 < l.fd
  there : d.mClients[l.slot]? = some l.climsg
  others : ∀ (j : Nat) climsg, d.mClients[j]? = some climsg → j ≠ l.slot → l.Apart climsg
  listed : l.fd ∈ d.conns

/-- What a step takes away that may be answered on the connection under the sequence. -/
def Answers (l : Link) (d : Saced) (sequence : UInt32) : Saced.Input → Prop
  | .command slot saceCmd => slot = l.slot ∧
      SaceSocketSender.replySequence l.secured saceCmd = sequence
  | .take kind _ => ∃ posted, d.next kind = some posted ∧ posted.owes l.fd sequence = true
  | _ => False

variable {l : Link} {d : Saced}

theorem Holds.elsewhere (holds : l.Holds d) {slot : Nat}
    {climsg : SaceSocketReader.ClientSocket} (taken : d.client slot = some climsg)
    (other : slot ≠ l.slot) : climsg.fd ≠ l.fd ∧ climsg.writer.channel ≠ .socket l.fd := by
  obtain ⟨found, open_⟩ := Option.filter_eq_some_iff.mp taken
  exact holds.others slot climsg found other (by simpa using open_)

theorem Holds.mine (holds : l.Holds d) {climsg : SaceSocketReader.ClientSocket}
    (taken : d.client l.slot = some climsg) : climsg = l.climsg :=
  Option.some.inj ((Option.filter_eq_some_iff.mp taken).1.symm.trans holds.there)

/-- A command that comes in on the connection may be answered there, another one may not. -/
theorem Holds.command_owes (holds : l.Holds d) {slot : Nat}
    {climsg : SaceSocketReader.ClientSocket} (taken : d.client slot = some climsg)
    (saceCmd : SaceCommand) (sequence : UInt32) :
    Traced.Once (Effect.owes l.fd sequence) (l.Answers d sequence (.command slot saceCmd))
      (SaceSocketReader.handleSocketMsg climsg saceCmd) := by
  by_cases own : slot = l.slot
  · subst own
    cases holds.mine taken
    unfold SaceSocketReader.handleSocketMsg
    split
    · rename_i authorised
      refine Traced.once_emit fun owes => ⟨rfl, ?_⟩
      have secured : l.secured = true := authorised
      simp only [Effect.owes, Posted.owes, Bool.and_eq_true, decide_eq_true_eq] at owes
      simp [SaceSocketSender.replySequence, secured, owes.1.2]
    · rename_i refused
      refine Traced.once_emit fun owes => ⟨rfl, ?_⟩
      have secured : l.secured = false := (Bool.not_eq_true _).mp refused
      simp only [Effect.owes, Bool.and_eq_true, decide_eq_true_eq] at owes
      simp [SaceSocketSender.replySequence, secured, ← owes.2, resultBySecure]
  · have apart := (holds.elsewhere taken own).2
    apply Traced.once_of_never
    unfold SaceSocketReader.handleSocketMsg
    split
    · exact (Traced.every_emit _).mpr (by simp [Effect.owes, Posted.owes, apart])
    · exact (Traced.every_emit _).mpr (by simp [Effect.owes, apart])

/-- One step sends or posts at most one thing that is answered on the connection. -/
theorem Holds.turn_owes (holds : l.Holds d) (starting : Saced.Starting d)
    {input : Saced.Input} (stays : ∀ slot, input = .hangup slot → slot ≠ l.slot)
    (sequence : UInt32) :
    Traced.Once (Effect.owes l.fd sequence) (l.Answers d sequence input) (d.turn input) := by
  have piped := starting.writer
  have eventPost (msgCmd : SaceCommand) :
      Effect.owes l.fd sequence (.post (.message (d.server.event.eventMsg msgCmd))) = false := by
    have pipe : d.server.event.eventWriter.channel ≠ .socket l.fd := fun socket => by
      rw [SaceWriter.not_piped socket] at piped
      cases piped
    simp [Effect.owes, Posted.owes, SaceEvent.eventMsg, pipe]
  have turned := d.turned input
  generalize d.turn input = x at turned
  cases turned with
  | same | idle | snapshot | uninitNormal => exact Traced.once_of_never (Traced.every_pure _)
  | @command slot climsg saceCmd taken =>
    exact (holds.command_owes taken saceCmd sequence).then_pure _
  | @hangup slot climsg taken =>
    have apart := (holds.elsewhere taken (stays slot rfl)).2
    exact (Traced.once_of_never ((Traced.every_emit _).mpr
      (by simp [Effect.owes, Posted.owes, apart]))).then_pure _
  | transaction authority =>
    exact (Traced.once_of_never ((Traced.every_emit _).mpr rfl)).then_pure _
  | @take kind answers posted found =>
    refine (Server.serve_once piped).weaken fun owes => ⟨posted, found, ?_⟩
    cases posted with
    | message msg => exact owes
    | stopMsg => cases owes
  | monitor =>
    exact (Traced.once_of_never
      (SaceServiceExcutor.monitor_every (fun _ _ => rfl) _ _)).then_pure _
  | @trigger listed properties id found =>
    exact (Traced.once_of_never
      (SaceEvent.pollEvent_every (fun _ _ => rfl) eventPost _ _)).then_pure _
  | restartEvent found listed => simp [starting.restart] at listed
  | @read more notice head =>
    apply Traced.Once.then_pure
    apply Traced.once_of_never
    cases notice with
    | response response => exact SaceEvent.handleResponse_every fun _ => rfl
    | result result =>
      rcases SaceEvent.handleResult_plain (e := d.server.event)
          (starting.unheard.pipe result (List.mem_of_head? head)) with passed | ⟨_, id, again⟩
      · rw [SaceEvent.handleNotice, passed, SaceEvent.passResult, starting.idle.writers,
          Traced.every_bind]
        exact ⟨by simp, fun _ _ => Traced.every_pure _⟩
      · rw [SaceEvent.handleNotice, again]
        exact SaceEvent.startEvent_every (fun _ _ => rfl) eventPost _
  | @uninitService wait =>
    exact (Traced.once_of_never (SaceServiceExcutor.onUninit_every (fun _ _ => rfl)
      (fun _ _ => rfl) _ wait)).then_pure _
  | destroyService =>
    exact (Traced.once_of_never (SaceServiceExcutor.destroy_every (fun _ _ => rfl)
      (fun _ _ => rfl) _)).then_pure _
  | uninitEvent =>
    rw [SaceEvent.onUninit_silent starting.idle.running]
    exact (Traced.once_of_never (Traced.every_pure _)).then_pure _

def pending (l : Link) (d : Saced) (sequence : UInt32) : Nat :=
  d.queue.countP (Posted.owes l.fd sequence)

def due (l : Link) (sequence : UInt32) : Saced.Input → Nat
  | .command slot saceCmd =>
    if slot = l.slot ∧ SaceSocketSender.replySequence l.secured saceCmd = sequence then 1 else 0
  | _ => 0

/-- What is on its way to the connection after a step was so before or has just come in. -/
theorem Holds.turn_pending (holds : l.Holds d) (starting : Saced.Starting d)
    {input : Saced.Input} (stays : ∀ slot, input = .hangup slot → slot ≠ l.slot)
    (sequence : UInt32) :
    l.pending (d.prepare input) sequence +
        (d.turn input).trace.countP (Effect.owes l.fd sequence) ≤
      l.pending d sequence + l.due sequence input := by
  have once := holds.turn_owes starting stays sequence
  have fewer : l.pending (d.prepare input) sequence ≤ l.pending d sequence := by
    cases input with
    | take kind answers =>
      simp only [Saced.prepare]
      split
      · exact Nat.le_refl _
      · exact List.erase_sublist.countP_le
    | hangup slot =>
      simp only [Saced.prepare, Saced.close]
      split <;> exact Nat.le_refl _
    | _ => exact Nat.le_refl _
  by_cases none : (d.turn input).trace.countP (Effect.owes l.fd sequence) = 0
  · omega
  obtain ⟨effect, member, owes⟩ := List.countP_pos_iff.mp (Nat.pos_of_ne_zero none)
  have answers := once.only effect member owes
  have one := once.once
  cases input with
  | command slot saceCmd =>
    have due : l.due sequence (.command slot saceCmd) = 1 := if_pos answers
    omega
  | take kind given =>
    obtain ⟨posted, found, owes⟩ := answers
    have erased := (List.perm_cons_erase (Saced.next_mem found).1).countP_eq
      (Posted.owes l.fd sequence)
    rw [List.countP_cons_of_pos owes] at erased
    have prepared : l.pending (d.prepare (.take kind given)) sequence =
        (d.queue.erase posted).countP (Posted.owes l.fd sequence) := by
      simp only [Saced.prepare, found, pending]
    have before : l.pending d sequence = d.queue.countP (Posted.owes l.fd sequence) := rfl
    omega
  | _ => exact answers.elim

theorem Holds.set (holds : l.Holds d) {i : Nat} {new : SaceSocketReader.ClientSocket}
    (other : i ≠ l.slot) (apart : l.Apart new) {conns : Table Int SaceClientIdentifier}
    (listed : l.fd ∈ conns) :
    l.Holds { d with mClients := d.mClients.set i new, conns } where
  positive := holds.positive
  there := (List.getElem?_set_ne other).trans holds.there
  others j climsg found elsewhere := by
    by_cases here : i = j
    · subst here
      obtain ⟨inside, same⟩ := List.getElem?_eq_some_iff.mp found
      rw [← same, List.getElem_set_self]
      exact apart
    · exact holds.others j climsg ((List.getElem?_set_ne here).symm.trans found) elsewhere
  listed := listed

theorem Holds.prepared (holds : l.Holds d) {input : Saced.Input} (provided : d.Provided input)
    (stays : ∀ slot, input = .hangup slot → slot ≠ l.slot) : l.Holds (d.prepare input) := by
  cases input with
  | accept fd client full =>
    have apart : fd ≠ l.fd := by
      rintro rfl
      exact provided.2 holds.listed
    have listed : l.fd ∈ if full then d.conns.erase fd else d.conns.insert fd client := by
      split
      · exact Table.mem_erase.mpr ⟨apart, holds.listed⟩
      · exact Std.ExtTreeMap.mem_insert.mpr (.inr holds.listed)
    simp only [Saced.prepare, Saced.accept]
    cases free : d.mClients.findIdx? (·.fd < 0) with
    | none => exact ⟨holds.positive, holds.there, holds.others, listed⟩
    | some i =>
      have other : i ≠ l.slot := by
        rintro rfl
        obtain ⟨inside, closed, -⟩ := List.findIdx?_eq_some_iff_getElem.mp free
        have same := (List.getElem?_eq_some_iff.mp holds.there).2
        rw [same, decide_eq_true_eq] at closed
        exact absurd holds.positive (Int.not_lt.mpr closed.le)
      exact holds.set other (fun _ => ⟨apart, fun same => apart (Channel.socket.inj same)⟩) listed
  | hangup slot =>
    simp only [Saced.prepare, Saced.close]
    split
    · exact holds
    · rename_i climsg taken
      have apart := holds.elsewhere taken (stays slot rfl)
      refine holds.set (stays slot rfl) (fun nonneg => ?_)
        (Table.mem_erase.mpr ⟨apart.1, holds.listed⟩)
      exact absurd nonneg (Int.not_le.mpr (Int.negSucc_lt_zero 0))
  | take kind answers =>
    simp only [Saced.prepare]
    split <;> exact ⟨holds.positive, holds.there, holds.others, holds.listed⟩
  | _ => exact ⟨holds.positive, holds.there, holds.others, holds.listed⟩

end Link
end Sace
