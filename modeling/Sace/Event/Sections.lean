import Sace.Event.Threads

/-! What a section of one of the threads changes, and which STARTs it posts. -/
namespace Sace

def started (trace : List Effect) : List Str :=
  trace.filterMap fun
    | .post (.message msg) =>
      if msg.msgCmd.serviceCmdType = .start then some msg.msgCmd.name else none
    | _ => none

theorem mem_started {trace : List Effect} {name : Str} : name ∈ started trace ↔
    ∃ msg, .post (.message msg) ∈ trace ∧ msg.msgCmd.serviceCmdType = .start ∧
      msg.msgCmd.name = name := by
  simp only [started, List.mem_filterMap]
  constructor
  · rintro ⟨effect, member, eq⟩
    split at eq
    · rename_i msg
      obtain ⟨start, named⟩ := Option.ite_none_right_eq_some.mp eq
      exact ⟨msg, member, start, Option.some.inj named⟩
    · cases eq
  · rintro ⟨msg, member, start, rfl⟩
    exact ⟨_, member, if_pos start⟩

def Effect.Postless : Effect → Prop
  | .post _ => False
  | _ => True

theorem started_nil {A : Type} {x : Exec A} (none : Traced.Every Effect.Postless x) (name : Str) :
    name ∉ started x.trace := by
  intro member
  obtain ⟨msg, posted, _⟩ := mem_started.mp member
  exact none _ posted

theorem posted_postless {A : Type} {x : Exec A} (none : Traced.Every Effect.Postless x) :
    posted x.trace = [] :=
  posted_nil fun _ member message posts => by
    subst posts
    exact none _ member

def Dels (saceCmd : SaceCommand) : Prop :=
  saceCmd.eventType = .del ∧ SaceEvent.stopFlag saceCmd = true

instance (saceCmd : SaceCommand) : Decidable (Dels saceCmd) := inferInstanceAs (Decidable (_ ∧ _))

def ExcutorPlace.closes : ExcutorPlace → Option Str
  | .stop msg _ => some msg.msgCmd.name
  | .reply msg _ _ => if Dels msg.msgCmd then some msg.msgCmd.name else none
  | _ => none

def ExcutorPlace.adds : ExcutorPlace → Option Str
  | .start msg _ _ | .post msg _ _ | .insert msg _ _ => some msg.msgCmd.name
  | _ => none

def ExcutorPlace.Neutral : ExcutorPlace → Prop
  | .free | .running _ | .info _ | .infoPost _ | .err .. => True
  | _ => False

theorem ExcutorPlace.Neutral.closes {place : ExcutorPlace} (neutral : place.Neutral) (name : Str) :
    place.closes ≠ some name := by
  cases place with
  | free | running | info | infoPost | err => nofun
  | erase | stop | start | post | insert | reply => exact neutral.elim

namespace SaceEvent

def nameOf (e : SaceEvent) (id : Nat) : Option Str :=
  ((e.services[id]?).map EventService.cmd).map SaceCommand.name

/-- The event that the monitor thread is in start_event for. -/
def startsAt (e : SaceEvent) : MonitorPlace → Option Str
  | .start id | .post id => e.nameOf id
  | _ => none

variable {e t : SaceEvent}

theorem cmd_same (same : SameEvents e t) (id : Nat) :
    (t.services[id]?).map EventService.cmd = (e.services[id]?).map EventService.cmd := by
  have cmds := congrArg (·[id]?) same.cmds
  simpa only [List.getElem?_map] using cmds

theorem nameOf_same (same : SameEvents e t) (id : Nat) : t.nameOf id = e.nameOf id := by
  rw [nameOf, cmd_same same, nameOf]

theorem startsAt_same (same : SameEvents e t) (place : MonitorPlace) :
    t.startsAt place = e.startsAt place := by
  cases place with
  | start id => exact nameOf_same same id
  | post id => exact nameOf_same same id
  | _ => rfl

/-- An appended Service is the one of the new id, and no other event has it. -/
theorem startsAt_append {service : EventService} {place : MonitorPlace} {name : Str}
    (starts : ({ e with services := e.services ++ [service] } : SaceEvent).startsAt place =
      some name) : e.startsAt place = some name ∨ service.cmd.name = name := by
  have either (id : Nat) (named : (((e.services ++ [service])[id]?).map EventService.cmd).map
      SaceCommand.name = some name) : e.nameOf id = some name ∨ service.cmd.name = name := by
    by_cases inside : id < e.services.length
    · rw [List.getElem?_append_left inside] at named
      exact .inl named
    · rw [List.getElem?_append_right (Nat.le_of_not_lt inside)] at named
      obtain ⟨cmd, found, rfl⟩ := Option.map_eq_some_iff.mp named
      obtain ⟨last, held, rfl⟩ := Option.map_eq_some_iff.mp found
      cases List.mem_singleton.mp (List.mem_of_getElem? held)
      exact .inr rfl
  cases place with
  | start id => exact either id starts
  | post id => exact either id starts
  | free | label | pass | restart | finish => cases starts

theorem startSection_ok {id : Nat} (done : (e.startSection id).result = .ok t) :
    ∃ name, t = { e with startingEvents := e.startingEvents.insert name } := by
  simp only [startSection, Traced.bind_ok] at done
  obtain ⟨service, _, _, _, done⟩ := done
  cases done
  exact ⟨_, rfl⟩

theorem takeTrigger_ok {properties : Str → Str} {id : Nat} {place : MonitorPlace}
    (done : (e.takeTrigger properties id).result = .ok (t, place)) :
    SameEvents e t ∧ t.runningEvents = e.runningEvents ∧ t.failedEvents = e.failedEvents ∧
      (place = .free ∨ place = .start id ∧ ∃ service, e.services[id]? = some service ∧
        (triggeredAny properties service.triggers).1 = true) := by
  simp only [takeTrigger, Traced.bind_ok, Prod.exists] at done
  obtain ⟨fired, polled, polls, done⟩ := done
  have same := pollTriggers_same polls
  simp only [pollTriggers, Traced.bind_ok] at polls
  obtain ⟨service, held, polls⟩ := polls
  cases polls
  cases done
  refine ⟨same, rfl, rfl, ?_⟩
  split
  · rename_i fires
    exact .inr ⟨rfl, service, service_ok.mp held, fires⟩
  · exact .inl rfl

/-- handle_result starts an event again only while it is listed. -/
theorem takeNotice_ok {notice : Notice} {place : MonitorPlace}
    (done : (e.takeNotice notice).result = .ok (t, place)) :
    t = e ∧ ((∃ result, place = .pass result) ∨ (∃ response, place = .finish response) ∨
      (∃ response, place = .restart response) ∨
      (∃ result, place = .label result ∧ notice = .result result ∧ result.resultType = .label) ∨
      ∃ (id : Nat) (name : Str), place = .start id ∧ e.events[name]? = some id) := by
  cases notice with
  | result result =>
    simp only [takeNotice] at done
    split at done
    · cases done
      exact ⟨rfl, .inl ⟨result, rfl⟩⟩
    split at done
    · split at done
      · rename_i id found
        cases done
        exact ⟨rfl, .inr (.inr (.inr (.inr ⟨id, _, rfl, found⟩)))⟩
      · cases done
        exact ⟨rfl, .inl ⟨result, rfl⟩⟩
    split at done
    · rename_i label
      obtain ⟨_, _, done⟩ := Traced.bind_ok.mp done
      cases done
      exact ⟨rfl, .inr (.inr (.inr (.inl ⟨result, rfl, rfl, label⟩)))⟩
    · cases done
      exact ⟨rfl, .inl ⟨result, rfl⟩⟩
  | response response =>
    simp only [takeNotice] at done
    split at done
    · cases done
      exact ⟨rfl, .inr (.inl ⟨response, rfl⟩)⟩
    split at done
    · cases done
      exact ⟨rfl, .inr (.inr (.inl ⟨response, rfl⟩))⟩
    · cases done
      exact ⟨rfl, .inr (.inl ⟨response, rfl⟩)⟩

/-- A section of the monitor thread that enters no label changes neither what the events are nor
lets one run, and the thread goes on with the start that it is in or with none. -/
theorem monitorSection_ok {place next : MonitorPlace}
    (done : (e.monitorSection place).result = .ok (t, next))
    (plain : ∀ result, place ≠ .label result) :
    SameEvents e t ∧
      (∀ (name : Str) (label : UInt64), t.runningEvents[name]? = some label →
        e.runningEvents[name]? = some label) ∧
      (∀ result, next ≠ .label result) ∧ (e.startsAt next = none ∨
        e.startsAt next = e.startsAt place) := by
  have kept (running : t.runningEvents = e.runningEvents) (name : Str) (label : UInt64)
      (runs : t.runningEvents[name]? = some label) : e.runningEvents[name]? = some label :=
    running ▸ runs
  cases place with
  | free =>
    cases done
    exact ⟨.refl e, fun _ _ => id, nofun, .inl rfl⟩
  | start id =>
    obtain ⟨u, entered, done⟩ := Traced.bind_ok.mp done
    obtain ⟨name, rfl⟩ := startSection_ok entered
    cases done
    exact ⟨⟨rfl, rfl, rfl⟩, fun _ _ runs => runs, nofun, .inr rfl⟩
  | post id =>
    obtain ⟨_, _, done⟩ := Traced.bind_ok.mp done
    cases done
    exact ⟨.refl e, fun _ _ runs => runs, nofun, .inl rfl⟩
  | label result => exact absurd rfl (plain result)
  | pass result =>
    obtain ⟨u, passed, done⟩ := Traced.bind_ok.mp done
    cases passResult_ok passed
    cases done
    exact ⟨.refl _, fun _ _ runs => runs, nofun, .inl rfl⟩
  | restart response =>
    obtain ⟨⟨u, restarted⟩, asked, done⟩ := Traced.bind_ok.mp done
    cases done
    have same : SameEvents e t ∧ t.runningEvents = e.runningEvents := by
      unfold restartEvent at asked
      split at asked
      · cases asked
        exact ⟨.refl _, rfl⟩
      · obtain ⟨_, _, asked⟩ := Traced.bind_ok.mp asked
        split at asked <;> cases asked <;> exact ⟨⟨rfl, rfl, rfl⟩, rfl⟩
    refine ⟨same.1, kept same.2, ?_, ?_⟩
    · intro result
      split <;> nofun
    · split <;> exact .inl rfl
  | finish response =>
    obtain ⟨u, passed, done⟩ := Traced.bind_ok.mp done
    cases passResponse_ok passed
    cases done
    exact ⟨⟨rfl, rfl, rfl⟩, fun name label runs => ((Table.erase_some ..).mp runs).2, nofun,
      .inl rfl⟩

theorem stopEvent_ok {label : UInt64} {sequence : UInt32}
    (done : (e.stopEvent label sequence).result = .ok t) :
    SameEvents e t ∧ t.runningEvents = e.runningEvents := by
  obtain ⟨_, _, done⟩ := Traced.bind_ok.mp done
  cases done
  exact ⟨⟨rfl, rfl, rfl⟩, rfl⟩

theorem stopSection_ok {msg : SaceReaderMessage} {env : EventEnv} {place : ExcutorPlace}
    (done : (e.excutorSection (.stop msg env)).result = .ok (t, place)) :
    SameEvents e t ∧ t.runningEvents = e.runningEvents ∧ place = .reply msg env .ok := by
  simp only [excutorSection] at done
  split at done
  · obtain ⟨u, stopped, done⟩ := Traced.bind_ok.mp done
    obtain ⟨same, running⟩ := stopEvent_ok stopped
    cases done
    exact ⟨same.trans (addWriters_same ..), (addWriters_running ..).trans running, rfl⟩
  · cases done
    exact ⟨.refl e, rfl, rfl⟩

theorem neutralSection_ok {place next : ExcutorPlace} (neutral : place.Neutral)
    (done : (e.excutorSection place).result = .ok (t, next)) :
    SameEvents e t ∧ t.runningEvents = e.runningEvents ∧ next.Neutral := by
  cases place with
  | free =>
    cases done
    exact ⟨.refl e, rfl, trivial⟩
  | running msg =>
    simp only [excutorSection] at done
    split at done
    · cases done
      exact ⟨.refl e, rfl, trivial⟩
    · obtain ⟨_, _, done⟩ := Traced.bind_ok.mp done
      cases done
      exact ⟨.refl e, rfl, trivial⟩
  | info msg =>
    cases done
    exact ⟨addWriters_same .., addWriters_running .., trivial⟩
  | infoPost msg =>
    obtain ⟨_, _, done⟩ := Traced.bind_ok.mp done
    cases done
    exact ⟨.refl e, rfl, trivial⟩
  | err msg status =>
    obtain ⟨_, _, done⟩ := Traced.bind_ok.mp done
    cases done
    exact ⟨.refl e, rfl, trivial⟩
  | erase | stop | start | post | insert | reply => exact neutral.elim

theorem takeRequest_ok {msg : SaceReaderMessage} {env : EventEnv} {place : ExcutorPlace}
    (done : (e.takeRequest msg env).result = .ok (t, place)) :
    t = e ∧ (place = .erase msg env ∧ msg.msgCmd.eventType = .del ∧ msg.msgCmd.name ∈ e.events ∨
      (∃ status, place = .err msg status) ∨ place = .running msg ∨
      place = .reply msg env .fail ∧ msg.msgCmd.eventType ≠ .del) ∨
    msg.msgCmd.eventType = .add ∧
      (∃ triggers, t = { e with services := e.services ++ [⟨triggers, msg.msgCmd⟩] }) ∧
      (place = .start msg env e.services.length ∧ e.StartsAtOnce msg.msgCmd env ∨
        place = .insert msg env e.services.length) := by
  simp only [takeRequest] at done
  split at done
  · rename_i kind
    obtain ⟨_, _, done⟩ := Traced.bind_ok.mp done
    cases done
    split
    · rename_i there
      exact .inl ⟨rfl, .inl ⟨rfl, kind, there⟩⟩
    · exact .inl ⟨rfl, .inr (.inl ⟨_, rfl⟩)⟩
  rename_i other
  split at done
  · rename_i kind
    split at done
    · cases done
      exact .inl ⟨rfl, .inr (.inl ⟨_, rfl⟩)⟩
    rename_i free
    obtain ⟨triggers, parsed, done⟩ := Traced.bind_ok.mp done
    have given : eventTriggers msg.msgCmd.commandParams = pure triggers := by
      rcases eventTriggers_cases msg.msgCmd.commandParams with ⟨found, given⟩ | bad
      · rw [given] at parsed
        cases parsed
        exact given
      · rw [bad] at parsed
        cases parsed
    split at done
    · cases done
      exact .inl ⟨rfl, .inr (.inl ⟨_, rfl⟩)⟩
    · simp only [pollTriggers, service, List.getElem?_concat_length, Traced.pure_then] at done
      cases done
      refine .inr ⟨kind, ⟨(triggeredAny env.properties triggers).2, by simp⟩, ?_⟩
      split
      · rename_i fires
        exact .inl ⟨rfl, kind, free, triggers, given, fires⟩
      · exact .inr rfl
  split at done
  · cases done
    split
    · exact .inl ⟨rfl, .inr (.inr (.inl rfl))⟩
    · exact .inl ⟨rfl, .inr (.inl ⟨_, rfl⟩)⟩
  · cases done
    exact .inl ⟨rfl, .inr (.inr (.inr ⟨rfl, other⟩))⟩

/-! ### What the sections post -/

theorem memcpy_postless (size capacity : Nat) :
    Traced.Every Effect.Postless (memcpy size capacity) :=
  memcpy_every trivial

theorem startSection_postless (e : SaceEvent) (id : Nat) :
    Traced.Every Effect.Postless (e.startSection id) := by
  rw [startSection, Traced.every_bind]
  refine ⟨service_every e id, fun service _ => ?_⟩
  rw [Traced.every_bind, cloneServiceCommand]
  exact ⟨(memcpy_postless _ _).then_pure _, fun _ _ => Traced.every_pure _⟩

theorem startPost_started {id : Nat} {name : Str}
    (member : name ∈ started (e.startPost id).trace) : e.nameOf id = some name := by
  obtain ⟨msg, posted, _, rfl⟩ := mem_started.mp member
  rw [startPost, Traced.mem_bind] at posted
  rcases posted with inside | ⟨service, found, posted⟩
  · exact absurd inside (by unfold SaceEvent.service; split <;> simp)
  · have held := service_ok.mp found
    simp only [Traced.emit_trace, List.mem_singleton, Effect.post.injEq, Posted.message.injEq]
      at posted
    subst posted
    rw [nameOf, held]
    rfl

theorem startPost_starts {id : Nat} {name : Str} (named : e.nameOf id = some name) :
    name ∈ started (e.startPost id).trace := by
  obtain ⟨cmd, found, rfl⟩ := Option.map_eq_some_iff.mp named
  obtain ⟨service, held, rfl⟩ := Option.map_eq_some_iff.mp found
  simp only [startPost, SaceEvent.service, held, Traced.pure_then]
  exact mem_started.mpr ⟨_, List.mem_singleton_self _, rfl, rfl⟩

theorem takeTrigger_postless (e : SaceEvent) (properties : Str → Str) (id : Nat) :
    Traced.Every Effect.Postless (e.takeTrigger properties id) := by
  rw [takeTrigger, Traced.every_bind, pollTriggers, Traced.every_bind]
  exact ⟨⟨service_every e id, fun _ _ => Traced.every_pure _⟩, fun _ _ => Traced.every_pure _⟩

theorem takeNotice_postless (e : SaceEvent) (notice : Notice) :
    Traced.Every Effect.Postless (e.takeNotice notice) := by
  cases notice with
  | result result =>
    simp only [takeNotice]
    split
    · exact Traced.every_pure _
    split
    · split <;> exact Traced.every_pure _
    split
    · exact (memcpy_postless _ _).then_pure _
    · exact Traced.every_pure _
  | response response =>
    simp only [takeNotice]
    split
    · exact Traced.every_pure _
    split <;> exact Traced.every_pure _

/-- Of the sections of the monitor thread only that of start_event posts. -/
theorem monitorSection_postless {place : MonitorPlace} (other : ∀ id, place ≠ .post id) :
    Traced.Every Effect.Postless (e.monitorSection place) := by
  cases place with
  | free => exact Traced.every_pure _
  | start id => exact (startSection_postless e id).then_pure _
  | post id => exact absurd rfl (other id)
  | label result => exact Traced.every_pure _
  | pass result => exact (passResult_every fun _ => trivial).then_pure _
  | restart response =>
    refine Traced.Every.then_pure ?_ _
    unfold restartEvent
    split
    · exact Traced.every_pure _
    · rw [Traced.every_bind]
      exact ⟨service_every e _, fun _ _ => by split <;> exact Traced.every_pure _⟩
  | finish response => exact (passResponse_every fun _ => trivial).then_pure _

theorem monitorSection_started {place : MonitorPlace} {name : Str}
    (member : name ∈ started (e.monitorSection place).trace) : e.startsAt place = some name := by
  have never (other : ∀ id, place ≠ .post id) : e.startsAt place = some name :=
    absurd member (started_nil (monitorSection_postless other) name)
  cases place with
  | post id =>
    rw [monitorSection, Traced.bind_pure_eq] at member
    exact startPost_started member
  | free | start | label | pass | restart | finish => exact never (by simp)

theorem takeRequest_postless (e : SaceEvent) (msg : SaceReaderMessage) (env : EventEnv) :
    Traced.Every Effect.Postless (e.takeRequest msg env) := by
  unfold takeRequest
  dsimp only
  split
  · exact (memcpy_postless _ _).then_pure _
  split
  · split
    · exact Traced.every_pure _
    rcases eventTriggers_cases msg.msgCmd.commandParams with ⟨triggers, given⟩ | bad
    · rw [given, Traced.pure_then]
      split
      · exact Traced.every_pure _
      · rw [pollTriggers, Traced.every_bind, Traced.every_bind]
        exact ⟨⟨service_every _ _, fun _ _ => Traced.every_pure _⟩, fun _ _ => Traced.every_pure _⟩
    · rw [bad, Traced.fault_then]
      exact Traced.every_fault _
  split <;> exact Traced.every_pure _

/-- The sections of the executor's thread that post nothing. -/
theorem excutorSection_postless {place : ExcutorPlace}
    (starts : ∀ msg env id, place ≠ .post msg env id) (asks : ∀ msg, place ≠ .infoPost msg)
    (stops : ∀ msg env, place = .stop msg env → msg.msgCmd.name ∉ e.runningEvents) :
    Traced.Every Effect.Postless (e.excutorSection place) := by
  cases place with
  | free => exact Traced.every_pure _
  | erase msg env => exact Traced.every_pure _
  | stop msg env =>
    rw [excutorSection, Std.ExtTreeMap.getElem?_eq_none (stops msg env rfl)]
    exact Traced.every_pure _
  | start msg env id => exact (startSection_postless e id).then_pure _
  | post msg env id => exact absurd rfl (starts msg env id)
  | insert msg env id => exact Traced.every_pure _
  | running msg =>
    simp only [excutorSection]
    split
    · exact Traced.every_pure _
    · rw [cloneServiceCommand, Traced.bind_assoc]
      exact (memcpy_postless _ _).then_pure _
  | info msg => exact Traced.every_pure _
  | infoPost msg => exact absurd rfl (asks msg)
  | reply msg env status =>
    rw [excutorSection, Traced.every_bind]
    exact ⟨writeIniFile_every (fun _ _ => trivial) e env,
      fun _ _ => ((Traced.every_emit _).mpr trivial).then_pure _⟩
  | err msg status => exact ((Traced.every_emit _).mpr trivial).then_pure _

theorem excutorSection_started {place : ExcutorPlace} {name : Str}
    (member : name ∈ started (e.excutorSection place).trace) :
    ∃ msg env id, place = .post msg env id ∧ e.nameOf id = some name := by
  have never (starts : ∀ msg env id, place ≠ .post msg env id) (asks : ∀ msg, place ≠ .infoPost msg)
      (stops : ∀ msg env, place ≠ .stop msg env) :
      ∃ msg env id, place = .post msg env id ∧ e.nameOf id = some name :=
    absurd member (started_nil
      (excutorSection_postless starts asks fun msg env eq => absurd eq (stops msg env)) name)
  cases place with
  | stop msg env =>
    -- the stop message is no START, whatever it stops
    simp only [excutorSection] at member
    split at member
    · rw [stopEvent, Traced.bind_assoc, Traced.emit_then] at member
      cases member
    · cases member
  | post msg env id =>
    rw [excutorSection, Traced.bind_pure_eq] at member
    exact ⟨msg, env, id, rfl, startPost_started member⟩
  | infoPost msg =>
    obtain ⟨sent, posts, start, _⟩ := mem_started.mp member
    rw [excutorSection, Traced.bind_pure_eq, Traced.emit_trace, List.mem_singleton,
      Effect.post.injEq, Posted.message.injEq] at posts
    have info : sent.msgCmd.serviceCmdType = .info := posts ▸ rfl
    exact absurd (info.symm.trans start) (by decide)
  | free | erase | start | insert | running | info | reply | err =>
    exact never (by simp) (by simp) (by simp)

theorem excutorSection_silent {place : ExcutorPlace}
    (other : ∀ msg env id, place ≠ .post msg env id) (name : Str) :
    name ∉ started (e.excutorSection place).trace := by
  intro member
  obtain ⟨msg, env, id, posts, _⟩ := excutorSection_started member
  exact other msg env id posts

end SaceEvent

end Sace
