import Sace.Event.Steps
import Sace.Normal.Steps
import Sace.Normal.Tracked
import Sace.Server
import Sace.Service.Steps

/-! Requests that are answered with anything but OK: what the executors have done by then. -/
namespace Sace

/-- The three executors, the normal one with the descriptors of its pipes. -/
structure Executors where
  normal : PipedExcutor
  service : SaceServiceExcutor
  event : SaceEvent

/-- What the allocator, the kernel and the surroundings answer to one request: pipe2, malloc and
vfork in `system`, fork in `start`. -/
structure Oracle where
  env : ParseEnv
  address : UInt64
  system : PopenSystem
  pclose : Int → List WaitAnswer
  start : StartAnswers
  eventEnv : EventEnv

/-- A request, without the monitor pass behind one to the service executor. -/
def Executors.handle (s : Executors) (msg : SaceReaderMessage) (oracle : Oracle) :
    Exec Executors :=
  match msg.msgHandler with
  | .unkown => return s
  | .normal => do
    let normal ← s.normal.excuteNormal
      ⟨msg, oracle.env, oracle.address, oracle.system, oracle.pclose⟩
    return { s with normal }
  | .service => do
    let (service, result) ← s.service.request msg oracle.env oracle.start
    Traced.emit (.sendResult msg.msgWriter result)
    return { s with service }
  | .event => do
    let event ← s.event.excuteNormal msg oracle.eventEnv
    return { s with event }

/-- No signal is sent, no child made, nothing posted and nobody told of an end. -/
def Effect.Harmless : Effect → Prop
  | .sendResult _ _ | .copy _ _ => True
  | _ => False

def Refuses {A : Type} (x : Exec A) : Prop :=
  ∃ wr result, .sendResult wr result ∈ x.trace ∧ result.resultStatus ≠ .ok

def Effect.Granted : Effect → Prop
  | .sendResult _ result => result.resultStatus = .ok
  | _ => True

/-- The computation ends where it began and has done nothing that counts. -/
structure Unchanged {A : Type} (x : Exec A) (a : A) : Prop where
  state : x.result = .ok a
  harmless : Traced.Every Effect.Harmless x

theorem not_refuses_of_granted {A : Type} {x : Exec A}
    (granted : Traced.Every Effect.Granted x) : ¬ Refuses x := by
  rintro ⟨wr, result, sent, refused⟩
  exact refused (granted _ sent)

theorem granted_then {A : Type} {wr : SaceWriter} {result : SaceResult}
    (ok : result.resultStatus = .ok) (a : A) :
    Traced.Every Effect.Granted
      (Traced.emit (.sendResult wr result) >>= fun _ => pure a : Exec A) :=
  Traced.every_bind.mpr ⟨(Traced.every_emit _).mpr ok, fun _ _ => Traced.every_pure _⟩

theorem Unchanged.then {A B : Type} {x : Exec A} {a : A} (unchanged : Unchanged x a)
    (f : A → B) : Unchanged (x >>= fun a => pure (f a)) (f a) where
  state := Traced.bind_ok.mpr ⟨a, unchanged.state, rfl⟩
  harmless := unchanged.harmless.then_pure f

theorem refuses_then {A B : Type} {x : Exec A} {f : A → B}
    (refuses : Refuses (x >>= fun a => pure (f a))) : Refuses x := by
  obtain ⟨wr, result, sent, refused⟩ := refuses
  rw [Traced.bind_pure_eq] at sent
  exact ⟨wr, result, sent, refused⟩

/-! ### The normal executor -/

namespace PipedExcutor

def GivesPipes (system : PopenSystem) : Prop :=
  ∀ pdes0 pdes1, system.pipe2 = some (pdes0, pdes1) → pdes0 ≠ pdes1 ∧ 0 ≤ pdes0 ∧ 0 ≤ pdes1

theorem startNormalCmd_refused {s : PipedExcutor} {msg : SaceReaderMessage} {env : ParseEnv}
    {address : UInt64} {system : PopenSystem} (gives : GivesPipes system)
    (refuses : Refuses (s.startNormalCmd msg env address system)) :
    Unchanged (s.startNormalCmd msg env address system) s := by
  have popened := @sacePopen_cases s.pipes msg.msgCmd.flags system
    fun pdes0 pdes1 piped => (gives pdes0 pdes1 piped).1
  rcases popened with failed | ⟨pdes0, pdes1, fd, pid, piped, kept, opened⟩
  · have answered : s.popen msg address system = ⟨address, -1, 0⟩ := by rw [popen, failed]
    rw [startNormalCmd, failed, answered, SaceNormalExcutor.startNormalCmd,
      if_pos (show (-1 : Int) < 0 by decide)]
    refine ⟨rfl, fun effect sent => ?_⟩
    cases List.mem_singleton.mp sent
    trivial
  · obtain ⟨_, low, high⟩ := gives pdes0 pdes1 piped
    have answered : s.popen msg address system = ⟨address, fd, pid⟩ := by rw [popen, opened]
    have positive : ¬ fd < 0 := by rcases kept with rfl | rfl <;> omega
    apply absurd refuses
    apply not_refuses_of_granted
    rw [startNormalCmd, answered, SaceNormalExcutor.startNormalCmd, if_neg positive]
    apply Traced.Every.then_pure
    rw [Traced.every_bind, Traced.every_emit]
    exact ⟨trivial, fun _ _ => granted_then rfl _⟩

theorem pclose_granted (wait : Int → List WaitAnswer) (s : PipedExcutor) (fd : Int) :
    Traced.Every Effect.Granted (Popens.pclose s fd wait) := by
  apply Traced.Every.then_pure
  unfold sacePcloseEnds
  split
  · exact Traced.every_pure _
  · split
    · exact Traced.every_pure _
    · exact (pcloseLoop_every (fun _ _ => trivial) _ _ _).then_pure _

theorem closeNormalCmd_refused {s : PipedExcutor} {msg : SaceReaderMessage}
    {wait : Int → List WaitAnswer} (refuses : Refuses (Popens.closeNormalCmd s msg wait)) :
    Unchanged (Popens.closeNormalCmd s msg wait) s := by
  unfold Popens.closeNormalCmd at refuses ⊢
  dsimp only at refuses ⊢
  cases found : (Popens.tables s).mSeqCmd[msg.msgCmd.label]? with
  | none =>
    refine ⟨rfl, fun effect sent => ?_⟩
    cases List.mem_singleton.mp sent
    trivial
  | some cmdInfo =>
    rw [found] at refuses
    apply absurd refuses
    apply not_refuses_of_granted
    rw [Traced.every_bind]
    exact ⟨Popens.closeCmd_every (pclose_granted wait) _ _ _, fun _ _ => granted_then rfl _⟩

theorem excuteNormal_refused {s : PipedExcutor} {r : Request} (gives : GivesPipes r.system)
    (refuses : Refuses (s.excuteNormal r)) : Unchanged (s.excuteNormal r) s := by
  unfold excuteNormal Popens.excuteNormal at refuses ⊢
  split at refuses
  · rename_i start
    rw [if_pos start]
    exact startNormalCmd_refused gives refuses
  · rename_i start
    rw [if_neg start]
    split at refuses
    · rename_i close
      rw [if_pos close]
      exact closeNormalCmd_refused refuses
    · rename_i close
      rw [if_neg close]
      split at refuses
      · exact absurd refuses (not_refuses_of_granted
          (Popens.destroyNormalCmd_every (pclose_granted r.wait) s r.msg))
      · exact absurd refuses (not_refuses_of_granted (Traced.every_pure _))

end PipedExcutor

/-! ### The service executor -/

namespace SaceServiceExcutor

def Declines (x : Exec (SaceServiceExcutor × SaceResult)) (s : SaceServiceExcutor) : Prop :=
  ∀ t result, x.result = .ok (t, result) → result.resultStatus ≠ .ok →
    t = s ∧ Traced.Every Effect.Harmless x

theorem declines_pure (s : SaceServiceExcutor) (result : SaceResult) :
    Declines (pure (s, result)) s := by
  intro t declined done _
  cases done
  exact ⟨rfl, Traced.every_pure _⟩

theorem declines_answered {s t : SaceServiceExcutor} {effect : Effect} {result : SaceResult}
    (ok : result.resultStatus = .ok) :
    Declines (Traced.emit effect >>= fun _ => pure (t, result)) s := by
  intro u declined done refused
  cases done
  exact absurd ok refused

theorem startService_declines (s : SaceServiceExcutor) (saceCmd : SaceCommand)
    (writer : SaceWriter) (env : ParseEnv) (answers : StartAnswers) (result : SaceResult) :
    Declines (s.startService saceCmd writer env answers result) s := by
  by_cases taken : saceCmd.name ∈ s.mNameService
  · rw [startService_taken taken]
    exact declines_pure _ _
  · rw [startService_free taken]
    intro t refused done declined
    obtain ⟨_, copied, done⟩ := Traced.bind_ok.mp done
    split at done
    · cases done
      exact absurd rfl declined
    · rename_i failed
      cases done
      refine ⟨rfl, ?_⟩
      rw [Traced.every_bind, if_neg failed]
      refine ⟨?_, fun _ _ => Traced.every_pure _⟩
      rw [memcpyString, Traced.every_bind, Traced.every_emit]
      exact ⟨trivial, fun _ _ => by split <;> simp⟩

theorem request_declines (s : SaceServiceExcutor) (msg : SaceReaderMessage) (env : ParseEnv)
    (answers : StartAnswers) : Declines (s.request msg env answers) s := by
  have branch := @request_branch s msg env answers
  generalize s.request msg env answers = out at branch ⊢
  cases branch with
  | start => exact startService_declines _ _ _ _ _ _
  | nothing | ended | unpaused | unresumed => exact declines_pure _ _
  | stop | pause | restart => exact declines_answered rfl
  | dangling =>
    intro t result done
    cases done
  | query =>
    intro t result done declined
    cases done
    exact absurd rfl declined

end SaceServiceExcutor

/-! ### The event executor -/

namespace SaceEvent

theorem delEvent_refuses {e t : SaceEvent} {saceCmd : SaceCommand} {writer : SaceWriter}
    {outcome : Outcome} (done : (e.delEvent saceCmd writer).result = .ok (t, outcome))
    (refused : outcome ≠ .done .ok) :
    t = e ∧ Traced.Every Effect.Harmless (e.delEvent saceCmd writer) := by
  by_cases there : saceCmd.name ∈ e.events
  · rw [delEvent_some there, Traced.bind_ok] at done
    obtain ⟨_, _, done⟩ := done
    cases done
    exact absurd rfl refused
  · rw [delEvent_none there] at done ⊢
    obtain ⟨_, _, done⟩ := Traced.bind_ok.mp done
    cases done
    exact ⟨rfl, (memcpy_every trivial).then_pure _⟩

theorem addEvent_refuses {e t : SaceEvent} {saceCmd : SaceCommand} {env : EventEnv}
    {outcome : Outcome} (done : (e.addEvent saceCmd env).result = .ok (t, outcome))
    (refused : outcome ≠ .done .ok) :
    t = e ∧ Traced.Every Effect.Harmless (e.addEvent saceCmd env) := by
  by_cases taken : saceCmd.name ∈ e.events
  · rw [addEvent_taken taken] at done ⊢
    cases done
    exact ⟨rfl, Traced.every_pure _⟩
  rcases eventTriggers_cases saceCmd.commandParams with ⟨triggers, given⟩ | bad
  · by_cases empty : triggers = []
    · subst empty
      rw [addEvent_none taken given] at done ⊢
      cases done
      exact ⟨rfl, Traced.every_pure _⟩
    · rw [addEvent_some taken given empty] at done
      split at done
      · obtain ⟨_, _, done⟩ := Traced.bind_ok.mp done
        cases done
        exact absurd rfl refused
      · cases done
        exact absurd rfl refused
  · rw [addEvent_fault taken bad] at done
    cases done

theorem infoEvent_refuses {e t : SaceEvent} {saceCmd : SaceCommand} {writer : SaceWriter}
    {outcome : Outcome} (done : (e.infoEvent saceCmd writer).result = .ok (t, outcome))
    (refused : outcome ≠ .forwarded) :
    t = e ∧ Traced.Every Effect.Harmless (e.infoEvent saceCmd writer) := by
  by_cases running : saceCmd.command = SERVICE_GET_BY_NAME ∧ saceCmd.name ∈ e.runningEvents
  · rw [infoEvent_running running.1 running.2] at done
    obtain ⟨_, _, done⟩ := Traced.bind_ok.mp done
    cases done
    exact absurd rfl refused
  · rw [infoEvent_refused (not_and.mp running)] at done ⊢
    cases done
    exact ⟨rfl, Traced.every_pure _⟩

/-- A request that is not answered OK leaves everything as it was. A DEL whose extra bytes
overrun the flag does not get to its answer. -/
theorem request_refused {e t : SaceEvent} {saceCmd : SaceCommand} {writer : SaceWriter}
    {env : EventEnv} {outcome : Outcome}
    (done : (e.request saceCmd writer env).result = .ok (t, outcome))
    (refused : outcome ≠ .done .ok ∧ outcome ≠ .forwarded) :
    t = e ∧ Traced.Every Effect.Harmless (e.request saceCmd writer env) := by
  unfold request at done ⊢
  split at done
  · rename_i kind
    rw [if_pos kind]
    exact delEvent_refuses done refused.1
  rename_i del
  rw [if_neg del]
  split at done
  · rename_i kind
    rw [if_pos kind]
    exact addEvent_refuses done refused.1
  rename_i add
  rw [if_neg add]
  split at done
  · rename_i kind
    rw [if_pos kind]
    exact infoEvent_refuses done refused.2
  · rename_i info
    rw [if_neg info]
    cases done
    exact ⟨rfl, Traced.every_pure _⟩

/-- Before its answer a request sends nobody a result. -/
theorem request_granted (e : SaceEvent) (saceCmd : SaceCommand) (writer : SaceWriter)
    (env : EventEnv) : Traced.Every Effect.Granted (e.request saceCmd writer env) :=
  request_every (fun _ _ => trivial) fun _ _ => trivial

theorem finish_refused {e : SaceEvent} {outcome : Outcome} {msg : SaceReaderMessage}
    {env : EventEnv} (refuses : Refuses (finish msg env (e, outcome))) :
    (outcome ≠ .done .ok ∧ outcome ≠ .forwarded) ∧ Unchanged (finish msg env (e, outcome)) e := by
  have harmless : Traced.Every Effect.Harmless (finish msg env (e, outcome)) :=
    finish_every (fun _ _ => trivial) (fun _ => trivial) _
  obtain ⟨wr, result, sent, refused⟩ := refuses
  cases outcome with
  | done status =>
    rw [finish, Traced.mem_bind] at sent
    rcases sent with written | ⟨_, written, sent⟩
    · exact absurd (writeIniFile_every (fun _ _ => trivial) e env _ written :
        Effect.Granted (.sendResult wr result)) refused
    · cases List.mem_singleton.mp sent
      refine ⟨⟨fun same => ?_, by simp⟩, ?_, harmless⟩
      · cases same
        exact refused rfl
      · exact Traced.bind_ok.mpr ⟨_, written, rfl⟩
  | err status => exact ⟨⟨by simp, by simp⟩, rfl, harmless⟩
  | forwarded => cases sent

theorem excuteNormal_refused {e : SaceEvent} {msg : SaceReaderMessage} {env : EventEnv}
    (refuses : Refuses (e.excuteNormal msg env)) : Unchanged (e.excuteNormal msg env) e := by
  rw [excuteNormal_eq] at refuses ⊢
  obtain ⟨wr, result, sent, refused⟩ := refuses
  rcases Traced.mem_bind.mp sent with early | ⟨⟨t, outcome⟩, requested, sent⟩
  · exact absurd (request_granted e msg.msgCmd msg.msgWriter env _ early :
      Effect.Granted (.sendResult wr result)) refused
  · obtain ⟨declined, finished⟩ := finish_refused ⟨wr, result, sent, refused⟩
    obtain ⟨rfl, harmless⟩ := request_refused requested declined
    refine ⟨Traced.bind_ok.mpr ⟨_, requested, finished.state⟩, ?_⟩
    rw [Traced.every_bind]
    refine ⟨harmless, fun out done => ?_⟩
    cases requested.symm.trans done
    exact finished.harmless

end SaceEvent

/-! ### All of them -/

theorem SaceServiceExcutor.request_granted (s : SaceServiceExcutor) (msg : SaceReaderMessage)
    (env : ParseEnv) (answers : StartAnswers) :
    Traced.Every Effect.Granted (s.request msg env answers) :=
  request_every (fun _ _ => trivial) (fun _ _ => trivial) fun _ _ => trivial

/-- A request that is answered with anything but OK leaves the executors as they were and has
sent no signal. -/
theorem refused_unchanged {s : Executors} {msg : SaceReaderMessage} {oracle : Oracle}
    (gives : PipedExcutor.GivesPipes oracle.system) (refuses : Refuses (s.handle msg oracle)) :
    Unchanged (s.handle msg oracle) s := by
  unfold Executors.handle at refuses ⊢
  cases kind : msg.msgHandler with
  | unkown => exact ⟨rfl, Traced.every_pure _⟩
  | normal =>
    simp only [kind] at refuses
    exact (PipedExcutor.excuteNormal_refused gives (refuses_then refuses)).then _
  | event =>
    simp only [kind] at refuses
    exact (SaceEvent.excuteNormal_refused (refuses_then refuses)).then _
  | service =>
    simp only [kind] at refuses
    obtain ⟨wr, answer, sent, refused⟩ := refuses
    rcases Traced.mem_bind.mp sent with early | ⟨⟨t, result⟩, requested, sent⟩
    · exact absurd (s.service.request_granted msg oracle.env oracle.start _ early :
        Effect.Granted (.sendResult wr answer)) refused
    · cases List.mem_singleton.mp sent
      obtain ⟨rfl, harmless⟩ := s.service.request_declines msg oracle.env oracle.start
        t result requested refused
      refine ⟨Traced.bind_ok.mpr ⟨_, requested, rfl⟩, ?_⟩
      rw [Traced.every_bind]
      refine ⟨harmless, fun out _ effect sent => ?_⟩
      cases List.mem_singleton.mp sent
      trivial

/-! A service and a command are started; then another service is to be, when no process can be
had. -/

def startMsg (name : String) : SaceReaderMessage :=
  { msgHandler := .service
    msgCmd :=
      { type := .service, sequence := 7, name := str name, command := str "sleep 1"
        subType := SaceServiceCommandType.start.byte }
    msgWriter := ⟨.socket 5, 200⟩
    msgClient := ⟨1000, 200⟩ }

def granting : Oracle :=
  { env := .empty
    address := 16
    system := { pipe2 := some (8, 9), malloc := true, vfork := some 301 }
    pclose := fun _ => []
    start := { address := 16, fork := 300, localtime := str "2026_0101_000000" }
    eventEnv := { properties := fun _ => [], iniOpens := false } }

def nothingLeft : Oracle :=
  { granting with
    system := { pipe2 := none, malloc := false, vfork := none }
    start := { address := 32, fork := -1, localtime := [] } }

def atRest : Executors := { normal := {}, service := {}, event := SaceEvent.bare }

def atWork : Option Executors :=
  [startMsg "a", (PipedExcutor.startBy ⟨1000, 200⟩ 8 16 8).msg].foldlM
    (fun s msg => (s.handle msg granting).value) atRest

theorem atWork_unchanged : ∃ s, atWork = some s ∧ s.service.mRunningService = [16] ∧
    s.normal.opened = [8] ∧ Unchanged (s.handle (startMsg "b") nothingLeft) s := by
  have last : atWork.map (fun s => (s.service.mRunningService, s.normal.opened,
      decide (.sendResult (startMsg "b").msgWriter (initialResult (startMsg "b").msgCmd) ∈
        (s.handle (startMsg "b") nothingLeft).trace))) = some ([16], [8], true) := by
    decide +kernel
  obtain ⟨s, worked, eq⟩ := Option.map_eq_some_iff.mp last
  simp only [Prod.mk.injEq, decide_eq_true_eq] at eq
  obtain ⟨running, opened, sent⟩ := eq
  refine ⟨s, worked, running, opened, refused_unchanged ?_ ⟨_, _, sent, by decide⟩⟩
  intro pdes0 pdes1 piped
  cases piped

end Sace
