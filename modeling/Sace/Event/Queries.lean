import Sace.Event.Monitor

/-! INFO requests to SaceEvent: they are forwarded to the service executor, and the results are
passed on to the writers that are listed under the event's name. -/
namespace Sace

def told (trace : List Effect) : List (SaceWriter × SaceResult) :=
  trace.filterMap fun
    | .sendResult wr result => some (wr, result)
    | _ => none

theorem mem_told {trace : List Effect} {wr : SaceWriter} {result : SaceResult} :
    (wr, result) ∈ told trace ↔ .sendResult wr result ∈ trace := by
  simp only [told, List.mem_filterMap]
  constructor
  · rintro ⟨effect, member, eq⟩
    split at eq
    · cases eq
      exact member
    · cases eq
  · intro member
    exact ⟨_, member, rfl⟩

theorem told_nil {A : Type} {x : Exec A}
    (none : Traced.Every (fun effect => ∀ wr result, effect ≠ .sendResult wr result) x) :
    told x.trace = [] := by
  apply List.filterMap_eq_nil_iff.mpr
  intro effect member
  cases effect with
  | sendResult wr result => exact absurd rfl (none _ member wr result)
  | _ => rfl

namespace SaceEvent

def waiting (e : SaceEvent) (name : Str) : List SaceWriter := (e.writers[name]?).getD []

def Forwards (e : SaceEvent) (saceCmd : SaceCommand) : Prop :=
  saceCmd.eventType = .info ∧ saceCmd.command = SERVICE_GET_BY_NAME ∧
    saceCmd.name ∈ e.runningEvents

def Stops (e : SaceEvent) (saceCmd : SaceCommand) : Prop :=
  saceCmd.eventType = .del ∧ stopFlag saceCmd ∧ saceCmd.name ∈ e.events ∧
    saceCmd.name ∈ e.runningEvents

/-- A result for which handle_result starts the event again instead of passing it on. -/
def Retries (e : SaceEvent) (result : SaceResult) : Prop :=
  result.name ∈ e.startingEvents ∧ result.resultStatus ≠ .ok ∧ result.name ∈ e.events

def Restarts (e : SaceEvent) (response : SaceStatusResponse) : Prop :=
  e.runningEvents[response.name]? = some response.label ∧ response.status = .signal ∧
    ∃ id service, e.events[response.name]? = some id ∧ e.services[id]? = some service ∧
      service.cmd.eventFlags = .restart

instance (e : SaceEvent) (saceCmd : SaceCommand) : Decidable (e.Forwards saceCmd) :=
  inferInstanceAs (Decidable (_ ∧ _))

instance (e : SaceEvent) (saceCmd : SaceCommand) : Decidable (e.Stops saceCmd) :=
  inferInstanceAs (Decidable (_ ∧ _))

instance (e : SaceEvent) (result : SaceResult) : Decidable (e.Retries result) :=
  inferInstanceAs (Decidable (_ ∧ _))

variable {e t : SaceEvent}

theorem waiting_same (writers : t.writers = e.writers) : t.waiting = e.waiting := by
  funext name
  rw [waiting, writers, waiting]

theorem waiting_addWriters (e : SaceEvent) (name other : Str) (wr : SaceWriter) :
    (e.addWriters name wr).waiting other =
      if name = other ∧ ¬ (e.waiting name).any (·.same wr) then e.waiting name ++ [wr]
      else e.waiting other := by
  unfold addWriters
  cases found : e.writers[name]? with
  | none =>
    by_cases here : name = other
    · subst here
      simp [waiting, found]
    · simp [waiting, Std.ExtTreeMap.getElem?_insert, here]
  | some wrs =>
    have listed : e.waiting name = wrs := by simp only [waiting, found, Option.getD_some]
    rw [listed]
    dsimp only
    by_cases known : wrs.any (·.same wr)
    · rw [if_pos known, if_neg fun new => new.2 known]
    · rw [if_neg known]
      by_cases here : name = other
      · subst here
        rw [if_pos ⟨rfl, known⟩]
        simp [waiting]
      · rw [if_neg fun both => here both.1]
        simp [waiting, Std.ExtTreeMap.getElem?_insert, here]

/-- add_writers looks at the writers alone. -/
theorem addWriters_writers (writers : t.writers = e.writers) (name : Str) (wr : SaceWriter) :
    (t.addWriters name wr).writers = (e.addWriters name wr).writers := by
  unfold addWriters
  rw [writers]
  split
  · rfl
  · split
    · exact writers
    · rfl

theorem startEvent_writers {id : Nat} (done : (e.startEvent id).result = .ok t) :
    t.writers = e.writers := by
  obtain ⟨_, _, rfl, _⟩ := startEvent_ok done
  rfl

theorem pollEvent_writers {properties : Str → Str} {id : Nat}
    (done : (e.pollEvent properties id).result = .ok t) : t.writers = e.writers := by
  obtain ⟨service, _, started | rfl⟩ := pollEvent_ok done
  · rw [startEvent_writers started]
    rfl
  · rfl

theorem deleted_writers {saceCmd : SaceCommand} (writer : SaceWriter)
    (kind : saceCmd.eventType = .del) (there : saceCmd.name ∈ e.events) :
    (e.deleted saceCmd writer).writers =
      if e.Stops saceCmd then (e.addWriters saceCmd.name writer).writers else e.writers := by
  cases stop : stopFlag saceCmd with
  | false => simp [Stops, deleted, stop]
  | true =>
    cases running : e.runningEvents[saceCmd.name]? with
    | none =>
      have idle : saceCmd.name ∉ e.runningEvents := Table.notMem_of_none running
      simp [Stops, deleted, idle]
    | some label =>
      have runs : saceCmd.name ∈ e.runningEvents := Table.mem_of_some running
      rw [if_pos ⟨kind, stop, there, runs⟩]
      simp only [deleted, stop, running]
      exact addWriters_writers (by rfl) _ _

/-- Only an INFO that is forwarded and a DEL that stops the service list the client's writer. -/
theorem request_writers_eq {saceCmd : SaceCommand} {writer : SaceWriter} {env : EventEnv}
    {outcome : Outcome} (done : (e.request saceCmd writer env).result = .ok (t, outcome)) :
    t.writers = if e.Forwards saceCmd ∨ e.Stops saceCmd
      then (e.addWriters saceCmd.name writer).writers else e.writers := by
  have other {kind : SaceEventType} (is : saceCmd.eventType = kind) (info : kind ≠ .info)
      (del : kind ≠ .del) (same : t.writers = e.writers) : t.writers =
        if e.Forwards saceCmd ∨ e.Stops saceCmd
        then (e.addWriters saceCmd.name writer).writers else e.writers := by
    rw [if_neg]
    · exact same
    · rintro (forwards | stops)
      · exact info (is.symm.trans forwards.1)
      · exact del (is.symm.trans stops.1)
  unfold request at done
  split at done
  · rename_i kind
    have still : ¬ e.Forwards saceCmd := fun forwards =>
      absurd (kind.symm.trans forwards.1) (by decide)
    simp only [still, false_or]
    rcases delEvent_change done with ⟨absent, rfl, _⟩ | ⟨there, rfl, _⟩
    · rw [if_neg fun stops => absent stops.2.2.1]
    · exact deleted_writers writer kind there
  split at done
  · rename_i kind
    apply other kind (by decide) (by decide)
    rcases addEvent_change done with rfl | ⟨_, _, _, _, _, _, rfl⟩ <;> rfl
  split at done
  · rename_i kind
    have still : ¬ e.Stops saceCmd := fun stops => absurd (kind.symm.trans stops.1) (by decide)
    by_cases forwards : e.Forwards saceCmd
    · rw [if_pos (.inl forwards)]
      rw [infoEvent_running forwards.2.1 forwards.2.2, Traced.bind_ok] at done
      obtain ⟨_, _, done⟩ := done
      cases done
      rfl
    · rw [if_neg (not_or.mpr ⟨forwards, still⟩)]
      rw [infoEvent_refused fun byName running => forwards ⟨kind, byName, running⟩] at done
      cases done
      rfl
  · rename_i del _ info
    cases done
    exact other rfl info del rfl

/-! ### What is passed on -/

theorem passResult_told (result : SaceResult) : told (e.passResult result).trace =
    (e.waiting result.name).map fun wr => (wr, result) := by
  simp only [passResult, Traced.emitAll_then, Traced.pure_trace, List.append_nil, told,
    List.filterMap_map]
  exact List.filterMap_eq_map ▸ rfl

theorem startEvent_told (e : SaceEvent) (id : Nat) : told (e.startEvent id).trace = [] :=
  told_nil (startEvent_every (by simp) (by simp) id)

/-- What handle_result does with a result: it goes to every writer that waits for the event,
unless the event is started again. -/
theorem handleResult_told {result : SaceResult} (done : (e.handleResult result).result = .ok t) :
    told (e.handleResult result).trace =
      if e.Retries result then [] else (e.waiting result.name).map fun wr => (wr, result) := by
  unfold handleResult at done ⊢
  split at done
  · rename_i absent
    rw [if_pos absent, if_neg fun retries => absent retries.1, passResult_told]
  rename_i starting
  rw [if_neg starting]
  have starting := not_not.mp starting
  split at done
  · rename_i failed
    rw [if_pos failed]
    cases found : e.events[result.name]? with
    | some id =>
      have there : result.name ∈ e.events := Table.mem_of_some found
      rw [if_pos ⟨starting, failed, there⟩]
      exact startEvent_told e id
    | none =>
      have gone : result.name ∉ e.events := Table.notMem_of_none found
      rw [if_neg fun retries => gone retries.2.2]
      exact passResult_told result
  rename_i ok
  have last : ¬ e.Retries result := fun retries => ok retries.2.1
  rw [if_neg ok, if_neg last]
  split at done
  · rename_i label
    rw [if_pos label]
    obtain ⟨_, copied, _⟩ := Traced.bind_ok.mp done
    rw [memcpy_of_le (memcpy_fits copied), Traced.bind_of_ok rfl]
    exact passResult_told result
  · rename_i plain
    rw [if_neg plain]
    exact passResult_told result

theorem handleResult_writers {result : SaceResult} (done : (e.handleResult result).result = .ok t) :
    t.writers = e.writers := by
  unfold handleResult at done
  split at done
  · rw [passResult_ok done]
  split at done
  · split at done
    · exact startEvent_writers done
    · rw [passResult_ok done]
  split at done
  · obtain ⟨_, _, done⟩ := Traced.bind_ok.mp done
    rw [passResult_ok done]
  · rw [passResult_ok done]

theorem restartEvent_ok {name : Str} {restarted : Bool}
    (done : (e.restartEvent name).result = .ok (t, restarted)) : t.writers = e.writers ∧
      (restarted = true ↔ ∃ id service, e.events[name]? = some id ∧
        e.services[id]? = some service ∧ service.cmd.eventFlags = .restart) := by
  unfold restartEvent at done
  split at done
  · rename_i absent
    cases done
    simp [absent]
  · rename_i id found
    obtain ⟨service, held, done⟩ := Traced.bind_ok.mp done
    have held := service_ok.mp held
    split at done
    · rename_i flag
      cases done
      exact ⟨rfl, iff_of_true rfl ⟨id, service, found, held, flag⟩⟩
    · rename_i other
      cases done
      refine ⟨rfl, iff_of_false (by decide) ?_⟩
      rintro ⟨id', service', found', held', flag⟩
      cases found.symm.trans found'
      cases held.symm.trans held'
      exact other flag

/-- A response is passed on and the list of writers ends, unless the event is restarted. -/
theorem handleResponse_writers {response : SaceStatusResponse}
    (done : (e.handleResponse response).result = .ok t) :
    e.Restarts response ∧ t.writers = e.writers ∨
      ¬ e.Restarts response ∧ t.writers = e.writers.erase response.name := by
  unfold handleResponse at done
  split at done
  · rename_i stopped
    rw [passResponse_ok done]
    exact .inr ⟨fun restarts => stopped restarts.1, rfl⟩
  rename_i running
  have running := not_not.mp running
  split at done
  · rename_i signal
    obtain ⟨⟨u, restarted⟩, asked, done⟩ := Traced.bind_ok.mp done
    obtain ⟨same, iff⟩ := restartEvent_ok asked
    dsimp only at done
    split at done
    · rename_i restarts
      cases done
      exact .inl ⟨⟨running, signal, iff.mp restarts⟩, same⟩
    · rename_i ends
      rw [passResponse_ok done]
      exact .inr ⟨fun restarts => ends (iff.mpr restarts.2.2), by rw [same]⟩
  · rename_i plain
    rw [passResponse_ok done]
    exact .inr ⟨fun restarts => plain restarts.2.1, rfl⟩

/-- What excuteNormal answers itself goes to the client that asks, under its own sequence, and
not for a request that was forwarded. -/
theorem excuteNormal_told {msg : SaceReaderMessage} {env : EventEnv} {wr : SaceWriter}
    {result : SaceResult} (sent : (wr, result) ∈ told (e.excuteNormal msg env).trace) :
    wr = msg.msgWriter ∧ result.sequence = msg.msgCmd.sequence ∧ ¬ e.Forwards msg.msgCmd := by
  have sent := mem_told.mp sent
  have own : Traced.Every (fun effect => ∀ wr result, effect = .sendResult wr result →
      wr = msg.msgWriter ∧ result.sequence = msg.msgCmd.sequence) (e.excuteNormal msg env) := by
    apply excuteNormal_every
    · simp
    · simp
    · intro status wr result same
      cases same
      exact ⟨rfl, rfl⟩
  obtain ⟨writer, sequence⟩ := own _ sent wr result rfl
  refine ⟨writer, sequence, fun forwards => ?_⟩
  have branch : e.request msg.msgCmd msg.msgWriter env = e.infoEvent msg.msgCmd msg.msgWriter := by
    simp [request, forwards.1, SaceEventType.info, SaceEventType.del, SaceEventType.add]
  have silent : Traced.Every (fun effect => ∀ wr result, effect ≠ .sendResult wr result)
      (e.excuteNormal msg env) := by
    rw [excuteNormal_eq, branch, Traced.every_bind]
    refine ⟨infoEvent_every (by simp) (by simp), fun out done => ?_⟩
    rw [infoEvent_running forwards.2.1 forwards.2.2, Traced.bind_ok] at done
    obtain ⟨_, _, done⟩ := done
    cases done
    exact Traced.every_pure _
  exact silent _ sent wr result rfl

end SaceEvent

structure Query where
  writer : SaceWriter
  saceCmd : SaceCommand

/-- A result that handle_result got, of a query or of a START, and what it sent then. -/
structure Passed where
  query : Option Query
  result : SaceResult
  sent : List (SaceWriter × SaceResult)

/-- The result of a query went to its own writer and nowhere else, any other result nowhere. -/
structure Passed.Right (passed : Passed) : Prop where
  sent : passed.sent = passed.query.toList.map fun query => (query.writer, passed.result)
  sequence : ∀ query ∈ passed.query, passed.result.sequence = query.saceCmd.sequence

/-- SaceEvent with the queries whose results it has yet to get. All queries that were forwarded
and all that handle_result did with results are kept beside them. -/
structure Queries where
  event : SaceEvent
  pending : List Query := []
  forwarded : List Query := []
  passed : List Passed := []

namespace Queries

/-- A turn of one of SaceEvent's threads, in which a result is one of a START; or handle_result
gets the result of the query at a position. -/
inductive Input where
  | work (work : SaceEvent.Work)
  | answer (i : Nat) (result : SaceResult)

def asked (s : Queries) : SaceEvent.Work → List Query
  | .request msg _ => if s.event.Forwards msg.msgCmd then [⟨msg.msgWriter, msg.msgCmd⟩] else []
  | _ => []

def passes (s : Queries) (query : Option Query) (result : SaceResult) : Passed :=
  ⟨query, result, told (s.event.handleResult result).trace⟩

def noted (s : Queries) : Input → List Passed
  | .work (.notice (.result result)) => [s.passes none result]
  | .work _ => []
  | .answer i result => (s.pending[i]?).toList.map fun query => s.passes (some query) result

/-- The service executor answers a query under the query's name and sequence. -/
def step (s : Queries) (input : Input) : Option Queries :=
  match input with
  | .work work =>
    (s.event.work work).value.map fun event =>
      { event
        pending := s.pending ++ s.asked work
        forwarded := s.forwarded ++ s.asked work
        passed := s.passed ++ s.noted input }
  | .answer i result =>
    match s.pending[i]? with
    | none => none
    | some query =>
      if result.name = query.saceCmd.name ∧ result.sequence = query.saceCmd.sequence then
        (s.event.handleResult result).value.map fun event =>
          { s with event, pending := s.pending.eraseIdx i, passed := s.passed ++ s.noted input }
      else none

def Right (s : Queries) : Prop := ∀ passed ∈ s.passed, passed.Right

/-- The result of a query comes when the query's writer is the only one that waits, and the result
of a START when none waits, except for a result after which the event is started again. -/
def Own (s : Queries) : Input → Prop
  | .work (.notice (.result result)) =>
    s.event.Retries result ∨ s.event.waiting result.name = []
  | .work _ => True
  | .answer i result => ¬ s.event.Retries result ∧
    ∀ query, s.pending[i]? = some query → s.event.waiting query.saceCmd.name = [query.writer]

def Unasked (s : Queries) (name : Str) : Prop := ∀ query ∈ s.pending, query.saceCmd.name ≠ name

/-- A client asks about a service or stops it only when no other waits for it, or stops it when
no query is pending; and what ends the list of writers comes when no query is pending. -/
def Alone (s : Queries) : Input → Prop
  | .work (.request msg _) =>
    (s.event.Forwards msg.msgCmd → s.event.waiting msg.msgCmd.name = [] ∨
      s.event.waiting msg.msgCmd.name = [msg.msgWriter]) ∧
    (s.event.Stops msg.msgCmd → s.Unasked msg.msgCmd.name ∨
      s.event.waiting msg.msgCmd.name = [msg.msgWriter])
  | .work (.notice (.response response)) => s.event.Restarts response ∨ s.Unasked response.name
  | .work (.notice (.result result)) =>
    s.event.Retries result ∨ s.event.waiting result.name = []
  | .work _ => True
  | .answer _ result => ¬ s.event.Retries result

/-- Whoever has a query pending is the only one that waits. -/
def Single (s : Queries) : Prop :=
  ∀ query ∈ s.pending, s.event.waiting query.saceCmd.name = [query.writer]

variable {s t : Queries} {input : Input}

theorem step_passed (moved : s.step input = some t) : t.passed = s.passed ++ s.noted input := by
  cases input with
  | work work =>
    obtain ⟨event, _, rfl⟩ := Option.map_eq_some_iff.mp moved
    rfl
  | answer i result =>
    simp only [step] at moved
    split at moved
    · cases moved
    · simp only [Option.ite_none_right_eq_some, Option.map_eq_some_iff] at moved
      obtain ⟨_, event, _, rfl⟩ := moved
      rfl

theorem work_own_iff {work : SaceEvent.Work} (moved : s.step (.work work) = some t) :
    s.Own (.work work) ↔ ∀ passed ∈ s.noted (.work work), passed.Right := by
  cases work with
  | notice notice =>
    cases notice with
    | response response => exact iff_of_true trivial (List.forall_mem_nil _)
    | result result =>
      simp only [step, Option.map_eq_some_iff, Traced.value_eq_some] at moved
      obtain ⟨event, done, _⟩ := moved
      have sent := SaceEvent.handleResult_told done
      simp only [Own, noted, List.forall_mem_singleton]
      constructor
      · intro own
        refine ⟨?_, fun _ => nofun⟩
        simp only [passes, sent, Option.toList_none, List.map_nil, ite_eq_left_iff,
          List.map_eq_nil_iff]
        intro passed
        exact own.resolve_left passed
      · intro right
        have none := right.sent
        simp only [passes, sent, Option.toList_none, List.map_nil, ite_eq_left_iff,
          List.map_eq_nil_iff] at none
        exact or_iff_not_imp_left.mpr none
  | _ => exact iff_of_true trivial (List.forall_mem_nil _)

theorem answer_own_iff {i : Nat} {result : SaceResult}
    (moved : s.step (.answer i result) = some t) :
    s.Own (.answer i result) ↔ ∀ passed ∈ s.noted (.answer i result), passed.Right := by
  simp only [step] at moved
  split at moved
  · cases moved
  · rename_i query found
    simp only [Option.ite_none_right_eq_some, Option.map_eq_some_iff, Traced.value_eq_some] at moved
    obtain ⟨⟨name, sequence⟩, event, done, _⟩ := moved
    have sent := SaceEvent.handleResult_told done
    simp only [Own, noted, found, Option.toList_some, List.map_cons, List.map_nil,
      List.forall_mem_singleton, Option.some.injEq, forall_eq']
    constructor
    · rintro ⟨passed, waits⟩
      refine ⟨?_, fun other same => ?_⟩
      · simp only [passes, sent, if_neg passed, name, waits, Option.toList_some, List.map_cons,
          List.map_nil]
      · cases same
        exact sequence
    · intro right
      have only := right.sent
      simp only [passes, sent, Option.toList_some, List.map_cons, List.map_nil] at only
      by_cases retries : s.event.Retries result
      · rw [if_pos retries] at only
        cases only
      · rw [if_neg retries, name] at only
        refine ⟨retries, ?_⟩
        obtain ⟨wr, listed, same⟩ := List.map_eq_singleton_iff.mp only
        cases same
        exact listed

def Accounted (s : Queries) : Prop :=
  s.forwarded.Perm (s.pending ++ s.passed.filterMap Passed.query)

theorem step_accounted (accounted : s.Accounted) (moved : s.step input = some t) :
    t.Accounted := by
  cases input with
  | work work =>
    obtain ⟨event, _, rfl⟩ := Option.map_eq_some_iff.mp moved
    have none : (s.noted (.work work)).filterMap Passed.query = [] := by
      cases work with
      | notice notice => cases notice <;> rfl
      | _ => rfl
    simp only [Accounted, List.filterMap_append, none, List.append_nil]
    apply (accounted.append_right _).trans
    rw [List.append_assoc, List.append_assoc]
    exact List.perm_append_comm.append_left _
  | answer i result =>
    simp only [step] at moved
    split at moved
    · cases moved
    · rename_i query found
      simp only [Option.ite_none_right_eq_some, Option.map_eq_some_iff] at moved
      obtain ⟨_, event, _, rfl⟩ := moved
      obtain ⟨inside, here⟩ := List.getElem?_eq_some_iff.mp found
      have back := (List.getElem_cons_eraseIdx_perm inside).symm
      rw [here] at back
      simp only [Accounted, noted, found, Option.toList_some, List.map_cons, List.map_nil,
        List.filterMap_append]
      refine accounted.trans ((back.append_right _).trans ?_)
      exact List.perm_middle.symm.trans ((List.perm_append_singleton _ _).symm.append_left _)

/-- What a step passes on is right just when the step meets the condition. -/
theorem own_iff (moved : s.step input = some t) :
    s.Own input ↔ ∀ passed ∈ s.noted input, passed.Right := by
  cases input with
  | work work => exact work_own_iff moved
  | answer i result => exact answer_own_iff moved

theorem step_right (right : s.Right) (own : s.Own input) (moved : s.step input = some t) :
    t.Right := by
  intro passed member
  rw [step_passed moved] at member
  rcases List.mem_append.mp member with before | new
  · exact right passed before
  · exact (own_iff moved).mp own passed new

theorem step_wrong (other : ¬ s.Own input) (moved : s.step input = some t) : ¬ t.Right := by
  intro right
  refine other ((own_iff moved).mpr fun passed new => right passed ?_)
  rw [step_passed moved]
  exact List.mem_append_right _ new

theorem step_lasting (wrong : ¬ s.Right) (moved : s.step input = some t) : ¬ t.Right := by
  intro right
  refine wrong fun passed before => right passed ?_
  rw [step_passed moved]
  exact List.mem_append_left _ before

/-! ### Clients that ask alone -/

theorem Single.same {event : SaceEvent} {pending forwarded : List Query} {passed : List Passed}
    (single : s.Single) (fewer : ∀ query ∈ pending, query ∈ s.pending)
    (writers : event.writers = s.event.writers) :
    (Queries.mk event pending forwarded passed).Single := by
  intro query member
  rw [SaceEvent.waiting_same writers]
  exact single query (fewer query member)

theorem waiting_kept {e : SaceEvent} {name other : Str} {wr : SaceWriter}
    (known : name ≠ other ∨ e.waiting name = [wr]) :
    (e.addWriters name wr).waiting other = e.waiting other := by
  rw [SaceEvent.waiting_addWriters, if_neg]
  rintro ⟨here, new⟩
  rcases known with other | listed
  · exact other here
  · exact new (by simp [listed, SaceWriter.same])

theorem waiting_own {e : SaceEvent} {name : Str} {wr : SaceWriter}
    (free : e.waiting name = [] ∨ e.waiting name = [wr]) :
    (e.addWriters name wr).waiting name = [wr] := by
  rcases free with empty | listed
  · rw [SaceEvent.waiting_addWriters, if_pos ⟨rfl, by simp [empty]⟩, empty, List.nil_append]
  · rw [waiting_kept (.inr listed), listed]

theorem request_single {msg : SaceReaderMessage} {env : EventEnv} (single : s.Single)
    (alone : s.Alone (.work (.request msg env)))
    (moved : s.step (.work (.request msg env)) = some t) : t.Single := by
  obtain ⟨forwards, stops⟩ := alone
  obtain ⟨event, done, rfl⟩ := Option.map_eq_some_iff.mp moved
  obtain ⟨_, requested⟩ := SaceEvent.excuteNormal_request (Traced.value_eq_some.mp done)
  have writers := SaceEvent.request_writers_eq requested
  -- those who have asked before go on waiting alone
  have before : ∀ query ∈ s.pending, event.waiting query.saceCmd.name = [query.writer] := by
    intro query member
    have own := single query member
    rw [← own]
    split at writers
    · rename_i lists
      rw [SaceEvent.waiting_same writers]
      apply waiting_kept
      by_cases here : msg.msgCmd.name = query.saceCmd.name
      · rw [← here] at own
        rcases lists with asks | ends
        · refine .inr ((forwards asks).resolve_left fun empty => ?_)
          cases empty.symm.trans own
        · exact .inr ((stops ends).resolve_left fun unasked => unasked query member here.symm)
      · exact .inl here
    · rw [SaceEvent.waiting_same writers]
  intro query member
  rcases List.mem_append.mp member with old | new
  · exact before query old
  · simp only [asked, List.mem_ite_nil_right, List.mem_singleton] at new
    obtain ⟨asks, rfl⟩ := new
    rw [if_pos (.inl asks)] at writers
    rw [SaceEvent.waiting_same writers]
    exact waiting_own (forwards asks)

theorem response_single {response : SaceStatusResponse} (single : s.Single)
    (alone : s.Alone (.work (.notice (.response response))))
    (moved : s.step (.work (.notice (.response response))) = some t) : t.Single := by
  obtain ⟨event, done, rfl⟩ := Option.map_eq_some_iff.mp moved
  rcases SaceEvent.handleResponse_writers (Traced.value_eq_some.mp done) with
    ⟨_, writers⟩ | ⟨passes, writers⟩
  · exact single.same (by simp [asked]) writers
  · intro query member
    have old : query ∈ s.pending := by simpa [asked] using member
    have other := alone.resolve_left passes query old
    rw [← single query old]
    simp only [SaceEvent.waiting, writers, Std.ExtTreeMap.getElem?_erase,
      Std.LawfulEqOrd.compare_eq_iff_eq, other.symm, if_false]

theorem step_single (single : s.Single) (alone : s.Alone input) (moved : s.step input = some t) :
    t.Single := by
  cases input with
  | answer i result =>
    simp only [step] at moved
    split at moved
    · cases moved
    · simp only [Option.ite_none_right_eq_some, Option.map_eq_some_iff,
        Traced.value_eq_some] at moved
      obtain ⟨_, event, done, rfl⟩ := moved
      exact single.same (fun _ => List.mem_of_mem_eraseIdx) (SaceEvent.handleResult_writers done)
  | work work =>
    have same {event : SaceEvent} (plain : s.asked work = [])
        (writers : event.writers = s.event.writers) : (Queries.mk event (s.pending ++ s.asked work)
          (s.forwarded ++ s.asked work) (s.passed ++ s.noted (.work work))).Single :=
      single.same (by simp [plain]) writers
    cases work with
    | request msg env => exact request_single single alone moved
    | notice notice =>
      cases notice with
      | response response => exact response_single single alone moved
      | result result =>
        obtain ⟨event, done, rfl⟩ := Option.map_eq_some_iff.mp moved
        exact same rfl (SaceEvent.handleResult_writers (Traced.value_eq_some.mp done))
    | snapshot =>
      cases moved
      exact same rfl rfl
    | poll properties id =>
      obtain ⟨event, done, rfl⟩ := Option.map_eq_some_iff.mp moved
      exact same rfl (SaceEvent.pollEvent_writers (Traced.value_eq_some.mp done))
    | restart id =>
      obtain ⟨event, done, rfl⟩ := Option.map_eq_some_iff.mp moved
      exact same rfl (SaceEvent.startEvent_writers (Traced.value_eq_some.mp done))

theorem Alone.own (single : s.Single) (alone : s.Alone input) : s.Own input := by
  cases input with
  | answer i result => exact ⟨alone, fun query found => single query (List.mem_of_getElem? found)⟩
  | work work =>
    cases work with
    | notice notice =>
      cases notice with
      | response response => trivial
      | result result => exact alone
    | _ => trivial

theorem admitted_own {inputs : List Input} (single : s.Single)
    (alone : Runs.Admitted step Alone s inputs) : Runs.Admitted step Own s inputs := by
  induction inputs generalizing s with
  | nil => trivial
  | cons input rest ih =>
    exact ⟨alone.1.own single, fun t moved =>
      ih (step_single single alone.1 moved) (alone.2 t moved)⟩

/-- Every query waits for its result or has got one. All results so far went where they belong
just when every result came while its own writer was the only one to wait; which is so when
clients ask alone. What SaceEvent answers itself goes to the client that asks. -/
theorem ran_answered (e : SaceEvent) {inputs : List Input}
    (ran : Runs.run step { event := e } inputs = some t) :
    t.forwarded.Perm (t.pending ++ t.passed.filterMap Passed.query) ∧
    (t.Right ↔ Runs.Admitted step Own { event := e } inputs) ∧
    (Runs.Admitted step Alone { event := e } inputs → t.Right) ∧
    ∀ msg env wr result, (wr, result) ∈ told (t.event.excuteNormal msg env).trace →
      wr = msg.msgWriter ∧ result.sequence = msg.msgCmd.sequence ∧
        ¬ t.event.Forwards msg.msgCmd := by
  have iff : t.Right ↔ Runs.Admitted step Own { event := e } inputs := by
    rcases Runs.run_decided (fun _ _ _ => step_right) (fun _ _ _ _ => step_wrong)
      (fun _ _ _ => step_lasting) ran (List.forall_mem_nil _) with ⟨own, right⟩ | ⟨other, wrong⟩
    · exact iff_of_true right own
    · exact iff_of_false wrong other
  have accounted : t.Accounted := Runs.run_lasting (fun _ _ _ => step_accounted) ran (.refl [])
  refine ⟨accounted, iff, fun alone => iff.mpr (admitted_own (fun _ => nofun) alone), ?_⟩
  intro msg env wr result sent
  exact SaceEvent.excuteNormal_told sent

def info (sequence : UInt32) : SaceCommand :=
  { SaceCommand.init (str "svc") sequence with
    type := .event, subType := SaceEventType.info.byte, command := SERVICE_GET_BY_NAME }

def infoMsg (sequence : UInt32) (client : Int) : SaceReaderMessage :=
  { msgHandler := .event
    msgCmd := info sequence
    msgWriter := ⟨.socket client, client⟩
    msgClient := ⟨1000, client⟩ }

def infoResult (sequence : UInt32) : SaceResult :=
  { initialResult (info sequence) with resultStatus := .ok, resultType := .extra }

def svcRunning : SaceEvent := { SaceEvent.bare with runningEvents := {(str "svc", 7)} }

def quietEnv : EventEnv := { properties := fun _ => [], iniOpens := true }

theorem one_answered : ∃ t, Runs.run step { event := svcRunning }
    [.work (.request (infoMsg 1 5) quietEnv), .answer 0 (infoResult 1)] = some t ∧
      (t.Right ↔ Runs.Admitted step Own { event := svcRunning }
        [.work (.request (infoMsg 1 5) quietEnv), .answer 0 (infoResult 1)]) :=
  ⟨_, rfl, (ran_answered svcRunning rfl).2.1⟩

/-- Two clients ask about "svc", and the first result goes to both. -/
theorem first_to_both : ∃ t, Runs.run step { event := svcRunning }
    [.work (.request (infoMsg 1 5) quietEnv), .work (.request (infoMsg 2 6) quietEnv),
      .answer 0 (infoResult 1)] = some t ∧
      t.passed.map Passed.sent =
        [[(⟨.socket 5, 5⟩, infoResult 1), (⟨.socket 6, 6⟩, infoResult 1)]] ∧ ¬ t.Right := by
  refine ⟨_, rfl, rfl, fun right => ?_⟩
  have only := (right _ List.mem_cons_self).sent
  cases only

end Queries
end Sace
