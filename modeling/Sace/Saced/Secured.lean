import Sace.Library.Purge
import Sace.Normal.Owners
import Sace.Saced.Steps

/-! What clients without authority can do to the executors. The uid is checked before a command
is posted, but not before the DESTROY of a client that has disconnected. -/
namespace Sace

def SaceClientIdentifier.secured (client : SaceClientIdentifier) : Bool :=
  securedByUidPid client.uid client.pid

namespace Saced

/-- A call of one of the two handlers, for the client that was accepted on `fd`, or anything
that the threads do. -/
inductive Activity where
  | handleSocketMsg (fd : Int) (client : SaceClientIdentifier) (saceCmd : SaceCommand)
  | handleSocketClose (fd : Int) (client : SaceClientIdentifier)
  | thread (input : Input)

def act (d : Saced) : Activity → Option Saced
  | .handleSocketMsg fd client saceCmd =>
    let climsg := { fd, client, writer := ⟨.socket fd, client.pid⟩ }
    some (d.deliver d.server (SaceSocketReader.handleSocketMsg climsg saceCmd).trace)
  | .handleSocketClose fd client =>
    let climsg := { fd := -1, client, writer := ⟨.socket fd, client.pid⟩ }
    some (d.deliver d.server (SaceSocketReader.handleSocketClose climsg).trace)
  | .thread input => d.step input

def foreign : Posted → Bool
  | .message msg => msg.msgHandler = .normal && !msg.msgClient.secured
  | .stopMsg => false

/-- The calls for clients without authority, and the turns of the normal executor that are
spent on what such calls posted. -/
def hidden (d : Saced) : Activity → Bool
  | .handleSocketMsg _ client _ => !client.secured
  | .handleSocketClose _ client => !client.secured
  | .thread (.take .normal _) => (d.next .normal).any foreign
  | .thread _ => false

/-- Clients without authority own no command, and all that they have in the queue for the
normal executor are requests to destroy their commands. -/
structure Secured (d : Saced) : Prop where
  owners : ∀ (client : SaceClientIdentifier) (labels : List UInt64),
    d.server.normal.mClientCmd[client]? = some labels → client.secured = true
  queue : ∀ msg, .message msg ∈ d.queue → foreign (.message msg) = true →
    msg.msgCmd.normalCmdType = .destroy

/-! ### What reaches the queue -/

def Guarded (message : Posted) : Prop :=
  ∀ msg, message = .message msg → foreign message = true → msg.msgCmd.normalCmdType = .destroy

def Guards (effect : Effect) : Prop := ∀ message, effect = .post message → Guarded message

theorem guards_event (e : SaceEvent) (msgCmd : SaceCommand) :
    Guards (.post (.message (e.eventMsg msgCmd))) := by
  rintro _ eq msg rfl own
  cases eq
  cases own

theorem guards_stop : Guards (.post .stopMsg) := by
  rintro _ eq msg rfl
  cases eq

theorem guards_client {msg : SaceReaderMessage} (authority : msg.msgClient.secured = true) :
    Guards (.post (.message msg)) := by
  rintro _ eq msg' rfl own
  cases eq
  simp [foreign, authority] at own

theorem guards_close (climsg : SaceSocketReader.ClientSocket) :
    Traced.Every Guards (SaceSocketReader.handleSocketClose climsg) := by
  refine (Traced.every_emit _).mpr ?_
  rintro _ eq msg rfl -
  cases eq
  rfl

theorem guards_msg (climsg : SaceSocketReader.ClientSocket) (saceCmd : SaceCommand) :
    Traced.Every Guards (SaceSocketReader.handleSocketMsg climsg saceCmd) := by
  unfold SaceSocketReader.handleSocketMsg
  split
  · rename_i authority
    exact (Traced.every_emit _).mpr (guards_client authority)
  · exact (Traced.every_emit _).mpr fun _ eq => by cases eq

theorem turn_guards (d : Saced) (input : Input) : Traced.Every Guards (d.turn input) := by
  have kill : ∀ pid signal, Guards (.kill pid signal) := fun _ _ _ eq => by cases eq
  have spawn : ∀ pid params, Guards (.spawn pid params) := fun _ _ _ eq => by cases eq
  have copy : ∀ size capacity, Guards (.copy size capacity) := fun _ _ _ eq => by cases eq
  have respond : ∀ wr response, Guards (.sendResponse wr response) := fun _ _ _ eq => by cases eq
  have send : ∀ wr result, Guards (.sendResult wr result) := fun _ _ _ eq => by cases eq
  have event := guards_event d.server.event
  have turned := d.turned input
  generalize d.turn input = x at turned
  cases turned with
  | same | idle | snapshot | uninitNormal => exact Traced.every_pure _
  | take found => exact Server.serve_every kill spawn copy (fun _ _ => send _ _) event guards_stop
  | command taken => exact (guards_msg _ _).then_pure _
  | hangup taken => exact (guards_close _).then_pure _
  | transaction authority =>
    apply Traced.Every.then_pure
    exact (Traced.every_emit _).mpr (guards_client authority)
  | monitor => exact (SaceServiceExcutor.monitor_every respond _ _).then_pure _
  | trigger found => exact (SaceEvent.pollEvent_every copy event _ _).then_pure _
  | restartEvent found listed => exact (SaceEvent.startEvent_every copy event _).then_pure _
  | @read _ notice head =>
    apply Traced.Every.then_pure
    cases notice with
    | result result => exact SaceEvent.handleResult_every copy event fun wr => send wr result
    | response response => exact SaceEvent.handleResponse_every fun wr => respond wr response
  | @uninitService wait => exact (SaceServiceExcutor.onUninit_every kill respond _ wait).then_pure _
  | destroyService => exact (SaceServiceExcutor.destroy_every kill respond _).then_pure _
  | uninitEvent => exact (SaceEvent.stopAll_every guards_stop _ _).then_pure _

/-! ### The clients that own commands -/

theorem excuteNormal_clients {s t : SaceNormalExcutor} {msg : SaceReaderMessage} {env : ParseEnv}
    {answers : PopenAnswers} {wait : Int → List WaitAnswer}
    (done : (s.excuteNormal msg env answers wait).result = .ok t)
    {client : SaceClientIdentifier} {labels : List UInt64}
    (entry : t.mClientCmd[client]? = some labels) :
    (∃ before, s.mClientCmd[client]? = some before) ∨
      msg.msgCmd.normalCmdType = .start ∧ client = msg.msgClient := by
  obtain ⟨u, moved, same⟩ : ∃ u : OwnedExcutor,
      OwnedExcutor.step { s with } ⟨msg, env, answers, wait⟩ = some u ∧
        u.mClientCmd = t.mClientCmd :=
    ⟨_, Option.map_eq_some_iff.mpr ⟨t, Traced.value_eq_some.mpr done, rfl⟩, rfl⟩
  rw [← same] at entry
  cases OwnedExcutor.step_outcome moved with
  | start starts cmdInfo label seq clients starters =>
    rw [clients, Table.insert_some] at entry
    rcases entry with ⟨here, -⟩ | ⟨-, entry⟩
    · exact .inr ⟨starts.1, here.symm⟩
    · exact .inl ⟨_, entry⟩
  | close close cmdInfo found seq clients starters =>
    rw [clients, OwnedExcutor.removed] at entry
    split at entry
    · exact .inl ⟨_, entry⟩
    split at entry
    · exact .inl ⟨_, ((Table.erase_some ..).mp entry).2⟩
    · rename_i before found _
      rcases (Table.insert_some ..).mp entry with ⟨rfl, -⟩ | ⟨-, entry⟩
      · exact .inl ⟨before, found⟩
      · exact .inl ⟨_, entry⟩
  | destroy destroy labels found seq clients starters =>
    rw [clients, Table.erase_some] at entry
    exact .inl ⟨_, entry.2⟩
  | nothing unfound seq clients starters =>
    rw [clients] at entry
    exact .inl ⟨_, entry⟩

theorem serve_normal {server t : Server} {msg : SaceReaderMessage} {answers : Answers}
    (done : (server.serve msg answers).result = .ok t) :
    t.normal = server.normal ∨ msg.msgHandler = .normal ∧
      (server.normal.excuteNormal msg answers.env answers.popen answers.pclose).result =
        .ok t.normal := by
  unfold Server.serve at done
  split at done
  · cases done
    exact .inl rfl
  split at done
  · simp only [Traced.bind_ok, Traced.emit_then, Prod.exists] at done
    obtain ⟨_, _, _, done⟩ := done
    cases done
    exact .inl rfl
  · unfold Server.excute at done
    split at done
    · cases done
      exact .inl rfl
    · rename_i kind
      obtain ⟨normal, turn, done⟩ := Traced.bind_ok.mp done
      cases done
      exact .inr ⟨kind, turn⟩
    · obtain ⟨_, _, done⟩ := Traced.bind_ok.mp done
      cases done
      exact .inl rfl
    · obtain ⟨_, _, done⟩ := Traced.bind_ok.mp done
      cases done
      exact .inl rfl

/-- Only a message that is taken can change the normal executor. -/
theorem turn_normal {d : Saced} {input : Input} {server : Server}
    (done : (d.turn input).result = .ok server) :
    server.normal = d.server.normal ∨ ∃ kind answers posted, input = .take kind answers ∧
      d.next kind = some posted ∧
      (d.server.serve (d.server.message posted) answers).result = .ok server := by
  have after {A : Type} {x : Exec A} {f : A → Server}
      (done : (x >>= fun a => pure (f a)).result = .ok server)
      (kept : ∀ a, (f a).normal = d.server.normal) : server.normal = d.server.normal := by
    obtain ⟨a, -, done⟩ := Traced.bind_ok.mp done
    cases done
    exact kept a
  have turned := d.turned input
  generalize d.turn input = x at turned done
  cases turned with
  | same | idle | snapshot | uninitNormal =>
    cases done
    exact .inl rfl
  | take found => exact .inr ⟨_, _, _, rfl, found, done⟩
  | command | hangup | transaction | monitor | trigger | restartEvent | read | uninitService
  | destroyService | uninitEvent => exact .inl (after done fun _ => rfl)

theorem Secured.deliver {d e : Saced} {A : Type} {x : Exec A} {server : Server}
    (secured : d.Secured) (taken : ∀ posted ∈ e.queue, posted ∈ d.queue)
    (guards : Traced.Every Guards x)
    (owners : ∀ (client : SaceClientIdentifier) (labels : List UInt64),
      server.normal.mClientCmd[client]? = some labels → client.secured = true) :
    (e.deliver server x.trace).Secured where
  owners := owners
  queue := by
    intro msg member own
    rcases List.mem_append.mp member with member | member
    · exact secured.queue msg (taken _ member) own
    · exact guards _ (mem_posted.mp member) _ rfl msg rfl own

theorem Secured.step {d t : Saced} {input : Input} (secured : d.Secured)
    (moved : d.step input = some t) : t.Secured := by
  obtain ⟨server, done, rfl⟩ := step_eq_some.mp moved
  apply secured.deliver prepare_queue (turn_guards d input)
  intro client labels entry
  rcases turn_normal done with same | ⟨kind, answers, posted, -, found, served⟩
  · rw [same] at entry
    exact secured.owners client labels entry
  rcases serve_normal served with same | ⟨normal, excuted⟩
  · rw [same] at entry
    exact secured.owners client labels entry
  rcases excuteNormal_clients excuted entry with ⟨before, old⟩ | ⟨start, rfl⟩
  · exact secured.owners client before old
  cases posted with
  | stopMsg => cases normal
  | message msg =>
    by_contra own
    have destroy := secured.queue msg (next_mem found).1 (by
      have handler : msg.msgHandler = .normal := normal
      simpa [foreign, handler, Server.message] using own)
    rw [show (d.server.message (.message msg)).msgCmd = msg.msgCmd from rfl, destroy] at start
    cases start

theorem Secured.act {d t : Saced} {activity : Activity} (secured : d.Secured)
    (moved : d.act activity = some t) : t.Secured := by
  cases activity with
  | handleSocketMsg fd client saceCmd =>
    cases Option.some.inj moved
    exact secured.deliver (fun _ member => member) (guards_msg _ _) secured.owners
  | handleSocketClose fd client =>
    cases Option.some.inj moved
    exact secured.deliver (fun _ member => member) (guards_close _) secured.owners
  | thread input => exact secured.step moved

/-! ### Two runs side by side -/

/-- Two daemons that differ in what clients without authority have in the queue. -/
structure Alike (d e : Saced) : Prop where
  rest : { d with queue := [] } = { e with queue := [] }
  queue : d.queue.filter (!foreign ·) = e.queue.filter (!foreign ·)
  left : d.Secured
  right : e.Secured

theorem Alike.server {d e : Saced} (alike : Alike d e) : d.server = e.server := by
  have same := congrArg Saced.server alike.rest
  exact same

theorem find?_kept {A : Type} {p q : A → Bool} {xs : List A}
    (kept : (xs.find? p).any (fun x => !q x) = false) : (xs.filter q).find? p = xs.find? p := by
  induction xs with
  | nil => rfl
  | cons x xs ih =>
    cases here : p x with
    | true =>
      rw [List.find?_cons_of_pos here] at kept ⊢
      have keep : q x = true := by simpa using kept
      rw [List.filter_cons_of_pos keep, List.find?_cons_of_pos here]
    | false =>
      have past : ¬ p x = true := by simp [here]
      rw [List.find?_cons_of_neg past] at kept ⊢
      by_cases keep : q x = true
      · rw [List.filter_cons_of_pos keep, List.find?_cons_of_neg past, ih kept]
      · rw [List.filter_cons_of_neg keep, ih kept]

theorem next_other {d : Saced} {kind : SaceMessageHandlerType} (other : kind ≠ .normal) :
    (d.next kind).any foreign = false := by
  cases found : d.next kind with
  | none => rfl
  | some posted =>
    obtain ⟨-, handler⟩ := next_mem found
    cases posted with
    | stopMsg => rfl
    | message msg =>
      have handler : msg.msgHandler = kind := handler
      simp [foreign, handler, other]

theorem Alike.next {d e : Saced} (alike : Alike d e) {kind : SaceMessageHandlerType}
    (seen : (d.next kind).any foreign = false) (seen' : (e.next kind).any foreign = false) :
    d.next kind = e.next kind := by
  have first := find?_kept (q := (!foreign ·)) (by simpa [Saced.next] using seen)
  have second := find?_kept (q := (!foreign ·)) (by simpa [Saced.next] using seen')
  rw [alike.queue, alike.server] at first
  unfold Saced.next
  rw [alike.server]
  exact first.symm.trans second

theorem turn_eq {d e : Saced} (rest : { d with queue := [] } = { e with queue := [] })
    {input : Input}
    (next : ∀ kind answers, input = .take kind answers → d.next kind = e.next kind) :
    d.turn input = e.turn input ∧
      { d.prepare input with queue := [] } = { e.prepare input with queue := [] } := by
  obtain ⟨server, mClients, conns, queue, pipe, cmds, restart⟩ := d
  obtain ⟨server', mClients', conns', queue', pipe', cmds', restart'⟩ := e
  simp only [mk.injEq, true_and] at rest
  obtain ⟨rfl, rfl, rfl, rfl, rfl, rfl⟩ := rest
  cases input with
  | take kind answers =>
    have same := next kind answers rfl
    simp only [turn, prepare, same, true_and]
    split <;> rfl
  | hangup slot =>
    refine ⟨rfl, ?_⟩
    simp only [prepare, close, client]
    split <;> rfl
  | _ => exact ⟨rfl, rfl⟩

theorem filter_prepare {d : Saced} {input : Input} :
    (d.prepare input).queue.filter (!foreign ·) = match input with
      | .take kind _ => match d.next kind with
        | none => d.queue.filter (!foreign ·)
        | some posted => (d.queue.filter (!foreign ·)).erase posted
      | _ => d.queue.filter (!foreign ·) := by
  cases input with
  | take kind answers =>
    simp only [prepare]
    cases d.next kind with
    | none => rfl
    | some posted => exact List.erase_filter.symm
  | hangup slot =>
    simp only [prepare, close]
    split <;> rfl
  | _ => rfl

theorem Alike.step {d e d' e' : Saced} {input : Input} (alike : Alike d e)
    (seen : d.hidden (.thread input) = false) (seen' : e.hidden (.thread input) = false)
    (moved : d.step input = some d') (moved' : e.step input = some e') : Alike d' e' := by
  have next : ∀ kind answers, input = .take kind answers → d.next kind = e.next kind := by
    rintro kind answers rfl
    by_cases normal : kind = .normal
    · subst normal
      exact alike.next seen seen'
    · exact alike.next (next_other normal) (next_other normal)
  obtain ⟨turn, prepared⟩ := turn_eq alike.rest next
  have queue : (d.prepare input).queue.filter (!foreign ·) =
      (e.prepare input).queue.filter (!foreign ·) := by
    rw [filter_prepare, filter_prepare]
    cases input with
    | take kind answers => simp only [next kind answers rfl, alike.queue]
    | _ => exact alike.queue
  refine ⟨?_, ?_, alike.left.step moved, alike.right.step moved'⟩
  · obtain ⟨server, done, rfl⟩ := step_eq_some.mp moved
    obtain ⟨server', done', rfl⟩ := step_eq_some.mp moved'
    rw [← turn] at done' ⊢
    cases done.symm.trans done'
    simp only [mk.injEq] at prepared
    simp [deliver, prepared]
  · obtain ⟨server, done, rfl⟩ := step_eq_some.mp moved
    obtain ⟨server', done', rfl⟩ := step_eq_some.mp moved'
    simp only [deliver, List.filter_append, queue, turn]

/-- What a client without authority has in the queue does nothing when its turn comes. -/
theorem Secured.serve_foreign {d : Saced} (secured : d.Secured) {posted : Posted}
    (found : d.next .normal = some posted) (own : foreign posted = true) (answers : Answers) :
    d.server.serve (d.server.message posted) answers = pure d.server := by
  cases posted with
  | stopMsg => cases own
  | message msg =>
    have destroy := secured.queue msg (next_mem found).1 own
    have normal : msg.msgHandler = .normal := (next_mem found).2
    have unowned : d.server.normal.mClientCmd[msg.msgClient]? = none := by
      by_contra owns
      obtain ⟨labels, entry⟩ := Option.ne_none_iff_exists'.mp owns
      simp [foreign, secured.owners _ labels entry] at own
    have start : msg.msgCmd.normalCmdType ≠ .start := by
      rw [destroy]
      decide
    have close : msg.msgCmd.normalCmdType ≠ .close := by
      rw [destroy]
      decide
    have still : d.server.normal.excuteNormal msg answers.env answers.popen answers.pclose =
        pure d.server.normal := by
      rw [SaceNormalExcutor.excuteNormal, Popens.excuteNormal, if_neg start, if_neg close,
        if_pos destroy, Popens.destroyNormalCmd,
        show Popens.tables d.server.normal = d.server.normal from rfl, unowned]
    simp only [Server.message, Server.serve, normal, Server.excute, still, Traced.pure_then,
      ite_self]

/-- A client without authority posts requests to destroy its commands and nothing else. -/
theorem foreign_msg {fd : Int} {client : SaceClientIdentifier} (own : client.secured = false)
    (writer : SaceWriter) (saceCmd : SaceCommand) :
    posted (SaceSocketReader.handleSocketMsg ⟨fd, client, writer⟩ saceCmd).trace = [] := by
  have refused : securedByUidPid client.uid client.pid = false := own
  simp [SaceSocketReader.handleSocketMsg, refused, posted]

theorem deliver_alike {d e : Saced} {trace : List Effect} (alike : Alike d e)
    (secured : (d.deliver d.server trace).Secured)
    (unseen : (posted trace).filter (!foreign ·) = []) (unpiped : piped trace = []) :
    Alike (d.deliver d.server trace) e where
  rest := by
    rw [← alike.rest]
    simp [deliver, unpiped]
  queue := by
    rw [← alike.queue]
    simp only [deliver, List.filter_append, unseen, List.append_nil]
  left := secured
  right := alike.right

theorem hidden_alike {d e d' : Saced} {activity : Activity} (alike : Alike d e)
    (hides : d.hidden activity = true) (moved : d.act activity = some d') : Alike d' e := by
  have secured := alike.left.act moved
  cases activity with
  | handleSocketMsg fd client saceCmd =>
    have own : client.secured = false := by simpa [hidden] using hides
    cases Option.some.inj moved
    refine deliver_alike alike secured ?_ ?_
    · rw [foreign_msg own]
      rfl
    · have refused : securedByUidPid client.uid client.pid = false := own
      simp [SaceSocketReader.handleSocketMsg, refused, piped]
  | handleSocketClose fd client =>
    have own : client.secured = false := by simpa [hidden] using hides
    cases Option.some.inj moved
    refine deliver_alike alike secured ?_ rfl
    simp [SaceSocketReader.handleSocketClose, posted, foreign, own]
  | thread input =>
    obtain ⟨kind, answers, rfl⟩ : ∃ kind answers, input = .take kind answers := by
      cases input with
      | take kind answers => exact ⟨kind, answers, rfl⟩
      | _ => cases hides
    have normal : kind = .normal := by
      cases kind with
      | normal => rfl
      | _ => cases hides
    subst normal
    obtain ⟨taken, found, own⟩ := (Option.any_eq_true ..).mp hides
    have idle := alike.left.serve_foreign found own answers
    have turn : d.turn (.take .normal answers) = pure d.server := by simpa only [turn, found]
    obtain ⟨server, done, rfl⟩ := step_eq_some.mp moved
    rw [turn] at done secured ⊢
    cases done
    have queue := @filter_prepare d (.take .normal answers)
    simp only [found] at queue
    have unseen : taken ∉ d.queue.filter (!foreign ·) := by simp [own]
    rw [List.erase_of_not_mem unseen] at queue
    refine ⟨?_, ?_, secured, alike.right⟩
    · rw [← alike.rest]
      simp [deliver, prepare, found, piped]
    · rw [← alike.queue, ← queue]
      simp [deliver, posted]

theorem unwinding : Purge.Unwinding act hidden Alike where
  symm alike := ⟨alike.rest.symm, alike.queue.symm, alike.right, alike.left⟩
  skip alike hides moved := hidden_alike alike hides moved
  follow := by
    intro d e d' e' activity alike seen seen' moved moved'
    cases activity with
    | thread input => exact alike.step seen seen' moved moved'
    | _ =>
      have left := alike.left.act moved
      have right := alike.right.act moved'
      cases Option.some.inj moved
      cases Option.some.inj moved'
      refine ⟨?_, ?_, left, right⟩
      · obtain ⟨server, mClients, conns, queue, pipe, cmds, restart⟩ := d
        obtain ⟨server', mClients', conns', queue', pipe', cmds', restart'⟩ := e
        have rest := alike.rest
        simp only [mk.injEq, true_and] at rest
        obtain ⟨rfl, rfl, rfl, rfl, rfl, rfl⟩ := rest
        rfl
      · simp only [deliver, List.filter_append, alike.queue]

/-- Two runs that are the same without the calls for clients without authority, and without the
turns that only handle what such calls have posted, leave the executors in the same state. -/
theorem unauthorised_same {event : SaceEvent} {xs ys : List Activity} {d e : Saced}
    (ran : Runs.run act (start event) xs = some d) (ran' : Runs.run act (start event) ys = some e)
    (purged : Purge.purge act hidden (start event) xs = Purge.purge act hidden (start event) ys) :
    d.server = e.server := by
  have secured : (start event).Secured :=
    ⟨fun client labels entry => by simp [start] at entry, fun msg member => by cases member⟩
  exact (unwinding.runs ⟨rfl, rfl, secured, secured⟩ ran ran' purged).server

def shellVisit : List Activity :=
  [.handleSocketMsg 5 ⟨2000, 200⟩ { sequence := 7, name := str "200:0", command := str "ls" },
    .handleSocketClose 5 ⟨2000, 200⟩, .thread (.take .normal .quiet)]

theorem shell_same : ∃ d, Runs.run act (start .bare) shellVisit = some d ∧
    d.server = (start .bare).server :=
  ⟨_, rfl, @unauthorised_same _ _ [] _ _ rfl rfl rfl⟩

end Saced
end Sace
