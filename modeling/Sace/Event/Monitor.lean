import Sace.Event.Handover

/-! The head of the loop of event_monitor_thread, which starts events, and what the notices and
the requests in between do to the containers. -/
namespace Sace

def Notice.name : Notice → Str
  | .result r => r.name
  | .response r => r.name

namespace SaceEvent

/-- The loop over the snapshot of the events; a property may have another value each time. -/
def pollAll (properties : Str → Str → Str) : List (Str × Nat) → SaceEvent → Exec SaceEvent
  | [], e => return e
  | (name, id) :: rest, e => do
    let e ← e.pollEvent (properties name) id
    pollAll properties rest e

def restartAll (cmds : Table Str Nat) : List Str → SaceEvent → Exec SaceEvent
  | [], e => return e
  | name :: rest, e =>
    match cmds[name]? with
    | none => restartAll cmds rest e
    | some id => do
      let e ← e.startEvent id
      restartAll cmds rest e

/-- One turn of the loop of event_monitor_thread up to its select. -/
def monitorTop (e : SaceEvent) (properties : Str → Str → Str) : Exec SaceEvent := do
  let cmds := e.events
  let restart := e.failedEvents
  let e ← pollAll properties cmds.toList { e with failedEvents := ∅ }
  restartAll cmds restart.toList e

def StartOf (name : Str) : Effect → Prop
  | .post (.message msg) =>
    msg.msgHandler = .service ∧ msg.msgCmd.serviceCmdType = .start ∧ msg.msgCmd.name = name
  | _ => False

instance (name : Str) : DecidablePred (StartOf name)
  | .post (.message _) => inferInstanceAs (Decidable (_ ∧ _ ∧ _))
  | .post .stopMsg => inferInstanceAs (Decidable False)
  | .sendResult .. | .sendResponse .. | .kill .. | .spawn .. | .copy .. =>
    inferInstanceAs (Decidable False)

def Starts {A : Type} (name : Str) (x : Exec A) : Prop := ∃ effect ∈ x.trace, StartOf name effect

instance {A : Type} (name : Str) (x : Exec A) : Decidable (Starts name x) :=
  inferInstanceAs (Decidable (∃ effect ∈ x.trace, _))

def Named (e : SaceEvent) : Prop := e.Each fun name cmd => cmd.name = name

structure Supervises (e : SaceEvent) (name : Str) (id : Nat) : Prop where
  named : e.Named
  events : e.events[name]? = some id
  restart : ∀ service, e.services[id]? = some service → service.cmd.eventFlags = .restart

def Fires (e : SaceEvent) (properties : Str → Str) (id : Nat) : Prop :=
  ∃ service, e.services[id]? = some service ∧ (triggeredAny properties service.triggers).1 = true

structure Aside (name : Str) (id : Nat) (e t : SaceEvent) : Prop where
  supervises : e.Supervises name id → t.Supervises name id
  running : t.runningEvents[name]? = e.runningEvents[name]?
  failed : name ∈ t.failedEvents ↔ name ∈ e.failedEvents
  starting : name ∈ e.startingEvents → name ∈ t.startingEvents

theorem Named.name {e : SaceEvent} (named : e.Named) {name : Str} {id : Nat}
    {service : EventService} (listed : e.events[name]? = some id)
    (held : e.services[id]? = some service) : service.cmd.name = name := by
  obtain ⟨_, held', eq⟩ := named name id listed
  rw [held] at held'
  cases held'
  exact eq

theorem bare_named : bare.Named := fun n id found => by simp [bare] at found

/-- No two events share a Service. -/
theorem Named.only {e : SaceEvent} (named : e.Named) {name other : Str} {id : Nat}
    (listed : e.events[name]? = some id) (also : e.events[other]? = some id) : other = name := by
  obtain ⟨service, held, eq⟩ := named name id listed
  exact (named.name also held).symm.trans eq

theorem Supervises.same {e t : SaceEvent} {name : Str} {id : Nat}
    (supervises : e.Supervises name id) (same : SameEvents e t) : t.Supervises name id where
  named := supervises.named.same same
  events := by rw [same.events]; exact supervises.events
  restart := by
    intro service held
    have back : SameEvents t e := ⟨same.events.symm, same.cmds.symm, same.writer.symm⟩
    obtain ⟨before, held', cmd⟩ := back.service held
    rw [← cmd]
    exact supervises.restart before held'

theorem Aside.refl (name : Str) (id : Nat) (e : SaceEvent) : Aside name id e e :=
  ⟨fun supervises => supervises, rfl, .rfl, fun member => member⟩

theorem Aside.trans {name : Str} {id : Nat} {e t u : SaceEvent} (first : Aside name id e t)
    (second : Aside name id t u) : Aside name id e u where
  supervises := second.supervises ∘ first.supervises
  running := second.running.trans first.running
  failed := second.failed.trans first.failed
  starting := second.starting ∘ first.starting

theorem Aside.of_same {name : Str} {id : Nat} {e t : SaceEvent} (same : SameEvents e t)
    (running : t.runningEvents = e.runningEvents) (failed : t.failedEvents = e.failedEvents)
    (starting : t.startingEvents = e.startingEvents) : Aside name id e t where
  supervises := fun supervises => supervises.same same
  running := by rw [running]
  failed := by rw [failed]
  starting := by rw [starting]; exact fun member => member

/-! ### Starting -/

theorem startEvent_ok {e t : SaceEvent} {id : Nat} (done : (e.startEvent id).result = .ok t) :
    ∃ service, e.services[id]? = some service ∧
      t = { e with startingEvents := e.startingEvents.insert service.cmd.name } ∧
      Starts service.cmd.name (e.startEvent id) := by
  simp only [startEvent, Traced.bind_ok] at done
  obtain ⟨service, found, msgCmd, cloned, _, _, done⟩ := done
  cases done
  refine ⟨service, service_ok.mp found, rfl, ?_⟩
  obtain ⟨_, _, msg⟩ := Traced.bind_ok.mp cloned
  cases msg
  refine ⟨.post (.message (e.eventMsg (serviceCommand service.cmd))), ?_, rfl, rfl, rfl⟩
  simp only [startEvent, Traced.mem_bind]
  refine .inr ⟨service, found, .inr ⟨_, cloned, ?_⟩⟩
  simp

theorem startEvent_starts {e : SaceEvent} {id : Nat} {name : Str}
    (starts : Starts name (e.startEvent id)) :
    ∃ service, e.services[id]? = some service ∧ service.cmd.name = name := by
  let P (effect : Effect) : Prop := StartOf name effect →
    ∃ service, e.services[id]? = some service ∧ service.cmd.name = name
  have every : Traced.Every P (e.startEvent id) := by
    rw [startEvent, Traced.every_bind]
    refine ⟨service_every e id, fun service found => ?_⟩
    rw [cloneServiceCommand, Traced.every_bind, Traced.every_bind]
    refine ⟨⟨memcpy_every ?_, fun _ _ => Traced.every_pure _⟩, fun msgCmd cloned => ?_⟩
    · intro no
      exact no.elim
    · rw [Traced.every_bind, Traced.every_emit]
      refine ⟨?_, fun _ _ => Traced.every_pure _⟩
      rintro ⟨-, -, named⟩
      obtain ⟨_, _, done⟩ := Traced.bind_ok.mp cloned
      cases done
      exact ⟨service, service_ok.mp found, named⟩
  obtain ⟨effect, member, start⟩ := starts
  exact every effect member start

theorem starts_bind {A B : Type} {name : Str} {x : Exec A} {f : A → Exec B} :
    Starts name (x >>= f) ↔ Starts name x ∨ ∃ a, x.result = .ok a ∧ Starts name (f a) := by
  simp only [Starts, Traced.mem_bind]
  constructor
  · rintro ⟨effect, here | ⟨a, done, later⟩, start⟩
    · exact .inl ⟨effect, here, start⟩
    · exact .inr ⟨a, done, effect, later, start⟩
  · rintro (⟨effect, here, start⟩ | ⟨a, done, effect, later, start⟩)
    · exact ⟨effect, .inl here, start⟩
    · exact ⟨effect, .inr ⟨a, done, later⟩, start⟩

@[simp] theorem starts_pure {A : Type} (name : Str) (a : A) :
    ¬ Starts name (pure a : Exec A) := by
  rintro ⟨_, member, _⟩
  cases member

theorem startEvent_aside {e t : SaceEvent} {i : Nat} (name : Str) (id : Nat)
    (done : (e.startEvent i).result = .ok t) : Aside name id e t := by
  have same := startEvent_same done
  obtain ⟨service, held, rfl, -⟩ := startEvent_ok done
  exact ⟨fun supervises => supervises.same same, rfl, .rfl, fun member =>
    Std.ExtTreeSet.mem_insert.mpr (.inr member)⟩

/-! ### Polling -/

theorem triggered_quiet {properties : Str → Str} {tg : Trigger}
    (quiet : (tg.triggered properties).1 = false) : (tg.triggered properties).2 = tg := by
  cases tg with
  | boot hasTriggered =>
    cases hasTriggered with
    | true => rfl
    | false => cases quiet
  | property name value lastValue =>
    unfold Trigger.triggered at quiet ⊢
    dsimp only at quiet ⊢
    split at quiet
    · rename_i unset
      rw [if_pos unset]
    · rename_i set
      rw [if_neg set]
      split at quiet
      · rename_i here
        rw [if_pos here]
        split at quiet
        · rename_i seen
          rw [if_pos seen]
        · cases quiet
      · rename_i elsewhere
        rw [if_neg elsewhere]

theorem triggeredAny_quiet {properties : Str → Str} {triggers : List Trigger}
    (quiet : (triggeredAny properties triggers).1 = false) :
    (triggeredAny properties triggers).2 = triggers := by
  induction triggers with
  | nil => rfl
  | cons tg rest ih =>
    unfold triggeredAny at quiet ⊢
    dsimp only at quiet ⊢
    split at quiet
    · cases quiet
    · rename_i unfired
      have own := triggered_quiet (by simpa using unfired)
      rw [if_neg unfired, own, ih quiet]

theorem pollEvent_quiet {e t : SaceEvent} {properties : Str → Str} {i id : Nat}
    (quiet : i = id → ¬ e.Fires properties i) (done : (e.pollEvent properties i).result = .ok t) :
    t.services[id]? = e.services[id]? := by
  obtain ⟨service, held, ended⟩ := pollEvent_ok done
  have kept : (e.polled properties i service).services[id]? = e.services[id]? := by
    by_cases here : i = id
    · subst here
      have unfired : (triggeredAny properties service.triggers).1 = false :=
        Bool.eq_false_iff.mpr fun fires => quiet rfl ⟨service, held, fires⟩
      rw [polled_self held, triggeredAny_quiet unfired, held]
    · exact List.getElem?_set_ne here
  rcases ended with started | rfl
  · obtain ⟨_, _, rfl, _⟩ := startEvent_ok started
    exact kept
  · exact kept

theorem pollEvent_aside {e t : SaceEvent} {properties : Str → Str} {i : Nat} (name : Str)
    (id : Nat) (done : (e.pollEvent properties i).result = .ok t) : Aside name id e t := by
  have same := pollEvent_same done
  obtain ⟨service, _, started | rfl⟩ := pollEvent_ok done
  · have started := startEvent_aside name id started
    exact ⟨fun supervises => supervises.same same, started.running, started.failed,
      started.starting⟩
  · exact ⟨fun supervises => supervises.same same, rfl, .rfl, fun member => member⟩

theorem pollEvent_starts {e : SaceEvent} {properties : Str → Str} {i : Nat} {name : Str}
    (starts : Starts name (e.pollEvent properties i)) :
    e.Fires properties i ∧ ∃ service, e.services[i]? = some service ∧ service.cmd.name = name := by
  cases held : e.services[i]? with
  | none =>
    rw [pollEvent_dangling held] at starts
    obtain ⟨effect, member, start⟩ := starts
    cases member
  | some service =>
    rw [pollEvent_held held] at starts
    split at starts
    · rename_i fires
      obtain ⟨after, there, named⟩ := startEvent_starts starts
      rw [polled_self held, Option.some.injEq] at there
      exact ⟨⟨service, held, fires⟩, service, rfl, by rw [← named, ← there]⟩
    · exact absurd starts (starts_pure _ _)

theorem pollEvent_fires {e t : SaceEvent} {properties : Str → Str} {i : Nat} {name : Str}
    (fires : e.Fires properties i)
    (named : ∀ service, e.services[i]? = some service → service.cmd.name = name)
    (done : (e.pollEvent properties i).result = .ok t) :
    Starts name (e.pollEvent properties i) ∧ name ∈ t.startingEvents := by
  obtain ⟨service, held, fired⟩ := fires
  rw [pollEvent_held held, if_pos fired] at done ⊢
  obtain ⟨after, there, eq, starts⟩ := startEvent_ok done
  rw [polled_self held, Option.some.injEq] at there
  have own : after.cmd.name = name := by
    rw [← there]
    exact named service held
  constructor
  · rw [← own]
    exact starts
  · rw [eq, ← own]
    exact Std.ExtTreeSet.mem_insert_self

theorem pollAll_aside {properties : Str → Str → Str} {cmds : List (Str × Nat)} {e t : SaceEvent}
    (name : Str) (id : Nat) (done : (pollAll properties cmds e).result = .ok t) :
    Aside name id e t := by
  induction cmds generalizing e with
  | nil =>
    cases done
    exact .refl name id _
  | cons entry rest ih =>
    obtain ⟨u, polled, done⟩ := Traced.bind_ok.mp done
    exact (pollEvent_aside name id polled).trans (ih done)

theorem pollAll_same {properties : Str → Str → Str} {cmds : List (Str × Nat)} {e t : SaceEvent}
    (done : (pollAll properties cmds e).result = .ok t) : SameEvents e t := by
  induction cmds generalizing e with
  | nil =>
    cases done
    exact .refl _
  | cons entry rest ih =>
    obtain ⟨u, polled, done⟩ := Traced.bind_ok.mp done
    exact (pollEvent_same polled).trans (ih done)

/-- The polls start an event exactly when its triggers fire. -/
theorem pollAll_ok {properties : Str → Str → Str} {cmds : List (Str × Nat)} {e t : SaceEvent}
    {name : Str} {id : Nat} (supervises : e.Supervises name id)
    (listed : ∀ entry ∈ cmds, e.events[entry.1]? = some entry.2)
    (done : (pollAll properties cmds e).result = .ok t) :
    (Starts name (pollAll properties cmds e) → e.Fires (properties name) id) ∧
      ((name, id) ∈ cmds → e.Fires (properties name) id →
        Starts name (pollAll properties cmds e) ∧ name ∈ t.startingEvents) := by
  induction cmds generalizing e with
  | nil => exact ⟨fun starts => absurd starts (starts_pure _ _), fun no => by cases no⟩
  | cons entry rest ih =>
    obtain ⟨n, i⟩ := entry
    have here : e.events[n]? = some i := listed _ List.mem_cons_self
    obtain ⟨u, polled, done⟩ := Traced.bind_ok.mp done
    have kept := pollEvent_same polled
    have later := ih (supervises.same kept)
      (fun entry member => kept.events ▸ listed entry (List.mem_cons_of_mem _ member)) done
    have aside := pollAll_aside name id done
    have named (own : n = name) (service : EventService) (held : e.services[i]? = some service) :
        service.cmd.name = name := own ▸ supervises.named.name here held
    rw [pollAll, starts_bind]
    by_cases fires : n = name ∧ e.Fires (properties n) i
    · -- its own turn, in which it fires
      obtain ⟨rfl, fires⟩ := fires
      rw [supervises.events] at here
      cases here
      obtain ⟨starts, started⟩ := pollEvent_fires fires (named rfl) polled
      exact ⟨fun _ => fires, fun _ _ => ⟨.inl starts, aside.starting started⟩⟩
    · have quiet : i = id → ¬ e.Fires (properties n) i := by
        rintro rfl own
        cases supervises.named.only supervises.events here
        exact fires ⟨rfl, own⟩
      have same : u.Fires (properties name) id ↔ e.Fires (properties name) id := by
        simp only [Fires, pollEvent_quiet quiet polled]
      constructor
      · rintro (starts | ⟨v, polled', starts⟩)
        · obtain ⟨own, service, held, named⟩ := pollEvent_starts starts
          have eq := (supervises.named.name here held).symm.trans named
          exact absurd ⟨eq, own⟩ fires
        · rw [polled] at polled'
          cases polled'
          exact same.mp (later.1 starts)
      · intro member own
        rcases List.mem_cons.mp member with eq | member
        · cases eq
          exact absurd ⟨rfl, own⟩ fires
        · obtain ⟨starts, started⟩ := later.2 member (same.mpr own)
          exact ⟨.inr ⟨u, polled, starts⟩, started⟩

/-! ### Restarting -/

theorem restartAll_ok {cmds : Table Str Nat} {names : List Str} {e t : SaceEvent} {name : Str}
    {id : Nat} (supervises : e.Supervises name id) (snapshot : cmds = e.events)
    (done : (restartAll cmds names e).result = .ok t) :
    Aside name id e t ∧ (Starts name (restartAll cmds names e) ↔ name ∈ names) ∧
      (name ∈ names → name ∈ t.startingEvents) := by
  induction names generalizing e with
  | nil =>
    cases done
    exact ⟨.refl name id _, iff_of_false (starts_pure _ _) List.not_mem_nil, fun no => by cases no⟩
  | cons n rest ih =>
    unfold restartAll at done ⊢
    cases found : cmds[n]? with
    | none =>
      have other : name ≠ n := by
        rintro rfl
        rw [snapshot, supervises.events] at found
        cases found
      rw [found] at done
      simpa only [List.mem_cons, other, false_or] using ih supervises snapshot done
    | some i =>
      rw [found] at done
      obtain ⟨u, started, done⟩ := Traced.bind_ok.mp done
      obtain ⟨service, held, eq, starts⟩ := startEvent_ok started
      have same := startEvent_same started
      have named : service.cmd.name = n :=
        supervises.named.name (snapshot ▸ found) held
      obtain ⟨later, posted, listed⟩ :=
        ih (supervises.same same) (snapshot.trans same.events.symm) done
      refine ⟨(startEvent_aside name id started).trans later, ?_, ?_⟩
      · rw [starts_bind, List.mem_cons]
        constructor
        · rintro (first | ⟨v, started', second⟩)
          · obtain ⟨service', held', named'⟩ := startEvent_starts first
            rw [held] at held'
            cases held'
            exact .inl (named'.symm.trans named)
          · rw [started] at started'
            cases started'
            exact .inr (posted.mp second)
        · rintro (rfl | member)
          · rw [named] at starts
            exact .inl starts
          · exact .inr ⟨u, started, posted.mpr member⟩
      · intro member
        rcases List.mem_cons.mp member with rfl | member
        · apply later.starting
          rw [eq, named]
          exact Std.ExtTreeSet.mem_insert_self
        · exact listed member

/-- The head of the loop starts an event exactly when its triggers fire or it is to be
restarted. -/
theorem monitorTop_ok {e t : SaceEvent} {properties : Str → Str → Str} {name : Str} {id : Nat}
    (supervises : e.Supervises name id) (done : (e.monitorTop properties).result = .ok t) :
    Aside name id { e with failedEvents := ∅ } t ∧
      (Starts name (e.monitorTop properties) ↔
        e.Fires (properties name) id ∨ name ∈ e.failedEvents) ∧
      (Starts name (e.monitorTop properties) → name ∈ t.startingEvents) := by
  obtain ⟨u, polled, done⟩ := Traced.bind_ok.mp done
  have cleared : SaceEvent.Supervises { e with failedEvents := ∅ } name id :=
    ⟨supervises.named, supervises.events, supervises.restart⟩
  have listed : ∀ entry ∈ e.events.toList, e.events[entry.1]? = some entry.2 :=
    fun entry member => Std.ExtTreeMap.mem_toList_iff_getElem?_eq_some.mp member
  have own : (name, id) ∈ e.events.toList :=
    Std.ExtTreeMap.mem_toList_iff_getElem?_eq_some.mpr supervises.events
  obtain ⟨fired, fires⟩ := pollAll_ok cleared listed polled
  have first := pollAll_aside name id polled
  have same := pollAll_same polled
  obtain ⟨second, posted, started⟩ := restartAll_ok (cleared.same same) same.events.symm done
  have forward : Starts name (e.monitorTop properties) →
      e.Fires (properties name) id ∨ name ∈ e.failedEvents := by
    rw [monitorTop, starts_bind]
    rintro (starts | ⟨v, polled', starts⟩)
    · exact .inl (fired starts)
    · rw [polled] at polled'
      cases polled'
      exact .inr (Std.ExtTreeSet.mem_toList.mp (posted.mp starts))
  refine ⟨first.trans second, ⟨forward, ?_⟩, fun starts => ?_⟩
  · rw [monitorTop, starts_bind]
    rintro (own' | member)
    · exact .inl (fires own own').1
    · exact .inr ⟨u, polled, posted.mpr (Std.ExtTreeSet.mem_toList.mpr member)⟩
  · rcases forward starts with own' | member
    · exact second.starting (fires own own').2
    · exact started (Std.ExtTreeSet.mem_toList.mpr member)

/-! ### Notices and requests -/

theorem passResponse_ok {e t : SaceEvent} {response : SaceStatusResponse}
    (done : (e.passResponse response).result = .ok t) :
    t = { e with
      runningEvents := e.runningEvents.erase response.name
      writers := e.writers.erase response.name } := by
  simp only [passResponse, Traced.bind_ok] at done
  obtain ⟨_, _, done⟩ := done
  cases done
  rfl

/-- A response about a killed service: either it is to be restarted, or its label is not the one
in running_events, which is then forgotten. -/
theorem handleResponse_signal {e t : SaceEvent} {response : SaceStatusResponse} {id : Nat}
    (supervises : e.Supervises response.name id) (signal : response.status = .signal)
    (done : (e.handleResponse response).result = .ok t) :
    (e.runningEvents[response.name]? = some response.label ∧
      t = { e with failedEvents := e.failedEvents.insert response.name }) ∨
    (e.runningEvents[response.name]? ≠ some response.label ∧
      t = { e with
        runningEvents := e.runningEvents.erase response.name
        writers := e.writers.erase response.name }) := by
  unfold handleResponse at done
  by_cases same : e.runningEvents[response.name]? = some response.label
  · obtain ⟨service, held, _⟩ := supervises.named _ _ supervises.events
    have flag := supervises.restart service held
    have restart : (e.restartEvent response.name).result =
        .ok ({ e with failedEvents := e.failedEvents.insert response.name }, true) := by
      simp only [restartEvent, supervises.events, Traced.bind_ok]
      refine ⟨service, service_ok.mpr held, ?_⟩
      rw [if_pos flag]
      rfl
    rw [if_neg (not_not.mpr same), if_pos signal, Traced.bind_ok] at done
    obtain ⟨⟨u, restarted⟩, asked, done⟩ := done
    rw [restart] at asked
    cases asked
    cases done
    exact .inl ⟨same, rfl⟩
  · rw [if_pos same] at done
    exact .inr ⟨same, passResponse_ok done⟩

def givenLabel (result : SaceResult) : UInt64 :=
  UInt64.ofNat (Bytes.toNat (Bytes.padded 8 result.resultExtra))

theorem handleResult_label {e t : SaceEvent} {result : SaceResult}
    (starting : result.name ∈ e.startingEvents) (ok : result.resultStatus = .ok)
    (type : result.resultType = .label) (done : (e.handleResult result).result = .ok t) :
    t = { e with
      startingEvents := e.startingEvents.erase result.name
      runningEvents := e.runningEvents.insertIfNew result.name (givenLabel result) } := by
  unfold handleResult at done
  rw [if_neg (not_not.mpr starting), if_neg (not_not.mpr ok), if_pos type, Traced.bind_ok] at done
  obtain ⟨_, _, done⟩ := done
  exact passResult_ok done

theorem handleResponse_aside {e t : SaceEvent} {response : SaceStatusResponse} {name : Str}
    (id : Nat) (other : response.name ≠ name) (done : (e.handleResponse response).result = .ok t) :
    Aside name id e t := by
  have passed (u : SaceEvent) (done : (u.passResponse response).result = .ok t) :
      Aside name id u t := by
    have same := passResponse_same done
    cases passResponse_ok done
    refine ⟨fun supervises => supervises.same same, ?_, .rfl, fun member => member⟩
    simp [Std.ExtTreeMap.getElem?_erase, other]
  unfold handleResponse at done
  split at done
  · exact passed e done
  split at done
  · rw [Traced.bind_ok] at done
    obtain ⟨⟨u, restarted⟩, asked, done⟩ := done
    unfold restartEvent at asked
    split at asked
    · cases asked
      exact passed e done
    · rw [Traced.bind_ok] at asked
      obtain ⟨_, _, asked⟩ := asked
      split at asked
      · cases asked
        cases done
        refine ⟨fun supervises => supervises.same ⟨rfl, rfl, rfl⟩, rfl, ?_, fun member => member⟩
        simp [Std.ExtTreeSet.mem_insert, other]
      · cases asked
        exact passed e done
  · exact passed e done

theorem handleResult_aside {e t : SaceEvent} {result : SaceResult} {name : Str} (id : Nat)
    (other : result.name ≠ name) (done : (e.handleResult result).result = .ok t) :
    Aside name id e t := by
  have same := handleResult_same done
  unfold handleResult at done
  split at done
  · cases passResult_ok done
    exact .refl name id e
  split at done
  · split at done
    · exact startEvent_aside name id done
    · cases passResult_ok done
      exact .refl name id e
  split at done
  · rw [Traced.bind_ok] at done
    obtain ⟨_, _, done⟩ := done
    cases passResult_ok done
    refine ⟨fun supervises => supervises.same same, ?_, .rfl, fun member => ?_⟩
    · simp [Std.ExtTreeMap.getElem?_insertIfNew, other]
    · exact Std.ExtTreeSet.mem_erase.mpr ⟨by simpa using other, member⟩
  · cases passResult_ok done
    exact .refl name id e

theorem handleNotice_aside {e t : SaceEvent} {notice : Notice} {name : Str} (id : Nat)
    (other : notice.name ≠ name) (done : (e.handleNotice notice).result = .ok t) :
    Aside name id e t := by
  cases notice with
  | result result => exact handleResult_aside id other done
  | response response => exact handleResponse_aside id other done

theorem addWriters_containers (e : SaceEvent) (name : Str) (writer : SaceWriter) :
    (e.addWriters name writer).runningEvents = e.runningEvents ∧
      (e.addWriters name writer).failedEvents = e.failedEvents ∧
      (e.addWriters name writer).startingEvents = e.startingEvents := by
  obtain ⟨writers, eq⟩ := addWriters_eq e name writer
  rw [eq]
  exact ⟨rfl, rfl, rfl⟩

theorem deleted_containers (e : SaceEvent) (saceCmd : SaceCommand) (writer : SaceWriter) :
    (e.deleted saceCmd writer).runningEvents = e.runningEvents ∧
      (e.deleted saceCmd writer).failedEvents = e.failedEvents ∧
      (e.deleted saceCmd writer).startingEvents = e.startingEvents := by
  unfold deleted
  dsimp only
  split
  · exact addWriters_containers _ _ _
  · exact ⟨rfl, rfl, rfl⟩

theorem change_aside {e t : SaceEvent} {saceCmd : SaceCommand} {writer : SaceWriter} {name : Str}
    (id : Nat) (change : Change e saceCmd writer t) (there : name ∈ t.events) :
    Aside name id e t := by
  cases change with
  | same => exact .refl name id e
  | asked =>
    obtain ⟨running, failed, starting⟩ := addWriters_containers e saceCmd.name writer
    exact .of_same (addWriters_same e _ _) running failed starting
  | deleted present =>
    obtain ⟨running, failed, starting⟩ := deleted_containers e saceCmd writer
    have rest : Aside name id { e with events := e.events.erase saceCmd.name } _ :=
      .of_same (deleted_same e saceCmd writer) running failed starting
    have other : saceCmd.name ≠ name := by
      rintro rfl
      rw [(deleted_same e saceCmd writer).events] at there
      simp at there
    refine ⟨fun supervises => rest.supervises ⟨?_, ?_, supervises.restart⟩, rest.running,
      rest.failed, rest.starting⟩
    · intro n i found
      exact supervises.named n i ((Table.erase_some ..).mp found).2
    · exact (Table.erase_some ..).mpr ⟨other, supervises.events⟩
  | @added given triggers started free parsed some =>
    refine ⟨fun supervises => ?_, rfl, .rfl, fun member => ?_⟩
    · obtain ⟨service, held, _⟩ := supervises.named _ _ supervises.events
      have inside : id < e.services.length := (List.getElem?_eq_some_iff.mp held).1
      have change : Change e saceCmd writer (e.added saceCmd triggers started) :=
        .added started free parsed some
      have grown := supervises.named.change change fun _ _ => rfl
      refine ⟨grown, Table.insertIfNew_keeps supervises.events, fun service held => ?_⟩
      exact supervises.restart service (by
        simpa [SaceEvent.added, List.getElem?_append_left inside] using held)
    · dsimp only [SaceEvent.added]
      split
      · exact Std.ExtTreeSet.mem_insert.mpr (.inr member)
      · exact member

inductive Work where
  | request (msg : SaceReaderMessage) (env : EventEnv)
  | snapshot
  | poll (properties : Str → Str) (id : Nat)
  | restart (id : Nat)
  | notice (notice : Notice)

def work (e : SaceEvent) : Work → Exec SaceEvent
  | .request msg env => e.excuteNormal msg env
  | .snapshot => return { e with failedEvents := ∅ }
  | .poll properties id => e.pollEvent properties id
  | .restart id => e.startEvent id
  | .notice notice => e.handleNotice notice

end SaceEvent
end Sace
