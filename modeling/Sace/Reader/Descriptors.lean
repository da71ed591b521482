import Sace.Saced.Reach

/-! Which connections the responses of the service executor go to. A writer keeps the number
of its descriptor, whoever has that number later. -/
namespace Sace

/-! ### Objects and their writers through the passes -/

namespace SaceServiceExcutor

def Inherits (s t : SaceServiceExcutor) : Prop :=
  ∀ (p : UInt64) (after : ServiceInfo), t.heap[p]? = some after →
    ∃ before, s.heap[p]? = some before ∧ before.identity = after.identity

theorem Inherits.refl (s : SaceServiceExcutor) : Inherits s s :=
  fun _ after live => ⟨after, live, rfl⟩

theorem Inherits.trans {s t u : SaceServiceExcutor} (first : Inherits s t)
    (second : Inherits t u) : Inherits s u := by
  intro p after live
  obtain ⟨between, held, same⟩ := second p after live
  obtain ⟨before, found, same'⟩ := first p between held
  exact ⟨before, found, same'.trans same⟩

theorem SameObjects.inherits {s t : SaceServiceExcutor} (same : SameObjects s t) : Inherits s t :=
  fun _ _ live => same.back live

theorem erased_inherits {s t : SaceServiceExcutor} {p : UInt64} (heap : t.heap = s.heap.erase p) :
    Inherits s t := by
  intro q after live
  rw [heap] at live
  exact ⟨after, ((Table.erase_some ..).mp live).2, rfl⟩

theorem collectLoop_inherits {gc : List Nat} {s t : SaceServiceExcutor}
    (done : (collectLoop gc s).result = .ok t) : Inherits s t := by
  induction gc generalizing s with
  | nil =>
    cases done
    exact .refl _
  | cons i gc ih =>
    unfold collectLoop at done
    split at done
    · cases done
    · rename_i p _
      obtain ⟨sveInfo, _, rest⟩ := Traced.bind_ok.mp done
      exact (erased_inherits (t := s.remove i p sveInfo) rfl).trans (ih rest)

theorem monitor_inherits {s t : SaceServiceExcutor} {wait : Nat → WaitAnswer}
    (done : (s.monitorServiceStatus wait).result = .ok t) : Inherits s t := by
  simp only [monitorServiceStatus, Traced.bind_ok, Prod.exists] at done
  obtain ⟨polled, gc, loop, collected⟩ := done
  exact (pollLoop_same loop).inherits.trans (collectLoop_inherits collected)

theorem killAll_inherits {ps : List UInt64} {s t : SaceServiceExcutor}
    (done : (killAll ps s).result = .ok t) : Inherits s t := by
  induction ps generalizing s with
  | nil =>
    cases done
    exact .refl _
  | cons p rest ih =>
    simp only [killAll, Traced.bind_ok] at done
    obtain ⟨_, _, _, _, _, _, done⟩ := done
    exact (erased_inherits (p := p) rfl).trans (ih done)

theorem destroy_inherits {s t : SaceServiceExcutor} (done : s.destroy.result = .ok t) :
    Inherits s t := by
  obtain ⟨killed, all, emptied⟩ := Traced.bind_ok.mp done
  cases emptied
  intro p after live
  exact killAll_inherits all p after live

theorem sentTo_of_inherits {s t : SaceServiceExcutor} (inherits : Inherits s t) {effect : Effect}
    (sent : SentTo t effect) : SentTo s effect := by
  obtain ⟨p, after, wr, response, live, member, label, eq⟩ := sent
  obtain ⟨before, held, identity⟩ := inherits p after live
  simp only [ServiceInfo.identity, Prod.mk.injEq] at identity
  exact ⟨p, before, wr, response, held, identity.2.2.2 ▸ member, label.trans identity.1.symm, eq⟩

theorem killAll_sends {ps : List UInt64} {s : SaceServiceExcutor} {wr : SaceWriter}
    {response : SaceStatusResponse} (sent : .sendResponse wr response ∈ (killAll ps s).trace) :
    SentTo s (.sendResponse wr response) := by
  induction ps generalizing s with
  | nil => cases sent
  | cons p rest ih =>
    simp only [killAll, Traced.mem_bind, deref_trace, List.not_mem_nil, false_or,
      Traced.emit_trace, List.mem_singleton, reduceCtorEq] at sent
    obtain ⟨sveInfo, live, _, _, here | ⟨_, _, later⟩⟩ := sent
    · obtain ⟨_, member, eq⟩ := List.mem_map.mp here
      cases eq
      exact ⟨p, sveInfo, wr, _, deref_ok.mp live, member, rfl, rfl⟩
    · exact sentTo_of_inherits (erased_inherits (p := p) rfl) (ih later)

theorem interruptAll_kills (s : SaceServiceExcutor) (ps : List UInt64) :
    Traced.Every (fun effect => ∃ pid, effect = .kill pid SIGINT) (s.interruptAll ps) := by
  induction ps with
  | nil => exact Traced.every_pure _
  | cons p rest ih =>
    refine deref_every s p fun sveInfo _ => ?_
    rw [Traced.every_bind, Traced.every_emit]
    exact ⟨⟨_, rfl⟩, fun _ _ => ih⟩

end SaceServiceExcutor

/-! ### The daemon and whom its services are for -/

/-- The daemon, and for each service object the clients whose START created it or whose INFO
found it. -/
structure Audited where
  saced : Saced
  entitled : Table UInt64 (List SaceClientIdentifier) := ∅

namespace Audited
open Saced (Input)

def entitledTo (a : Audited) (p : UInt64) : List SaceClientIdentifier := (a.entitled[p]?).getD []

def entitle (a : Audited) (msg : SaceReaderMessage) (answers : StartAnswers)
    (result : SaceResult) : Table UInt64 (List SaceClientIdentifier) :=
  if result.resultStatus ≠ .ok then a.entitled
  else if msg.msgCmd.serviceCmdType = .start then
    a.entitled.insert answers.address [msg.msgClient]
  else if msg.msgCmd.serviceCmdType = .info then
    match a.saced.server.service.mNameService[msg.msgCmd.name]? with
    | some p => a.entitled.insert p (msg.msgClient :: a.entitledTo p)
    | none => a.entitled
  else a.entitled

def requested (a : Audited) : Input → Option (SaceReaderMessage × Answers × SaceResult)
  | .take .service answers =>
    if a.saced.server.mExit .service then none
    else (a.saced.next .service).bind fun posted =>
      let msg := a.saced.server.message posted
      (a.saced.server.service.request msg answers.env answers.start).value.map fun out =>
        (msg, answers, out.2)
  | _ => none

def step (a : Audited) (input : Input) : Option Audited :=
  (a.saced.step input).map fun saced =>
    { saced
      entitled := match a.requested input with
        | some (msg, answers, result) => a.entitle msg answers.start result
        | none => a.entitled }

def start (event : SaceEvent) : Audited := { saced := .start event }

def Enlists (msg : SaceReaderMessage) : Prop :=
  msg.msgHandler = .service ∧
    (msg.msgCmd.serviceCmdType = .start ∨ msg.msgCmd.serviceCmdType = .info)

/-- A descriptor is closed when neither a service object nor a waiting START or INFO has a
writer for it, and a new connection is closed at once only when it has no slot. -/
def Careful (a : Audited) : Input → Prop
  | .accept _ _ full => full = true → ∀ climsg ∈ a.saced.mClients, 0 ≤ climsg.fd
  | .hangup slot => ∀ climsg, a.saced.client slot = some climsg →
      (∀ (p : UInt64) (sveInfo : ServiceInfo), a.saced.server.service.heap[p]? = some sveInfo →
        ∀ wr ∈ sveInfo.writer, wr.channel ≠ .socket climsg.fd) ∧
      ∀ msg, .message msg ∈ a.saced.queue → Enlists msg →
        msg.msgWriter.channel ≠ .socket climsg.fd
  | _ => True

def Responds : Input → Prop
  | .take .service _ => True
  | .monitor _ => True
  | .uninitService _ => True
  | .destroyService => True
  | _ => False

/-- Every response of the step that leaves on a descriptor is about a service object that the
process at the other end is entitled to. -/
def RightlySent (a : Audited) (input : Input) : Prop :=
  ∀ fd mId response, .sendResponse ⟨.socket fd, mId⟩ response ∈ (a.saced.turn input).trace →
    ∃ (p : UInt64) (sveInfo : ServiceInfo), a.saced.server.service.heap[p]? = some sveInfo ∧
      response.label = sveInfo.label ∧
      ∃ client ∈ a.entitledTo p, a.saced.conns[fd]? = some client

/-! ### The invariant -/

def Connected (conns : Table Int SaceClientIdentifier) (writer : SaceWriter)
    (clients : List SaceClientIdentifier) : Prop :=
  ∀ fd, writer.channel = .socket fd → ∃ client ∈ clients, conns[fd]? = some client

/-- Slots, waiting requests and service objects have writers for open connections of their
own clients, and no two slots share a descriptor. -/
structure Sound (a : Audited) : Prop where
  slots : ∀ slot climsg, a.saced.client slot = some climsg →
    climsg.writer.channel = .socket climsg.fd ∧ a.saced.conns[climsg.fd]? = some climsg.client
  distinct : ∀ slot other climsg climsg', a.saced.client slot = some climsg →
    a.saced.client other = some climsg' → climsg.fd = climsg'.fd → slot = other
  queue : ∀ msg, .message msg ∈ a.saced.queue → Enlists msg →
    Connected a.saced.conns msg.msgWriter [msg.msgClient]
  services : ∀ (p : UInt64) (sveInfo : ServiceInfo),
    a.saced.server.service.heap[p]? = some sveInfo →
      ∀ wr ∈ sveInfo.writer, Connected a.saced.conns wr (a.entitledTo p)
  pipe : ∀ fd, a.saced.server.event.eventWriter.channel ≠ .socket fd

theorem take_silent {d : Saced} {answers : Answers} {wr : SaceWriter}
    (response : SaceStatusResponse) :
    .sendResponse wr response ∉ (d.turn (.take .service answers)).trace := by
  intro sent
  simp only [Saced.turn] at sent
  split at sent
  · cases sent
  · rename_i posted found
    have handler : (d.server.message posted).msgHandler = .service := (Saced.next_mem found).2
    unfold Server.serve at sent
    split at sent
    · cases sent
    · rw [handler] at sent
      simp only [Traced.mem_bind, Traced.emit_trace, Traced.pure_trace, List.mem_singleton,
        List.not_mem_nil, reduceCtorEq, and_false, exists_false, or_false] at sent
      have every : Traced.Every (fun effect => effect ≠ .sendResponse wr response)
          (d.server.service.request (d.server.message posted) answers.env answers.start) :=
        SaceServiceExcutor.request_every (by simp) (by simp) (by simp)
      exact every _ sent rfl

theorem Sound.rightly {a : Audited} (sound : Sound a) {input : Input} (responds : Responds input) :
    RightlySent a input := by
  intro fd mId response sent
  have from_ : SaceServiceExcutor.SentTo a.saced.server.service
      (.sendResponse ⟨.socket fd, mId⟩ response) := by
    cases input with
    | take kind answers =>
      cases kind with
      | service => exact absurd sent (take_silent _)
      | _ => exact responds.elim
    | monitor wait =>
      simp only [Saced.turn] at sent
      split at sent
      · cases sent
      · rw [Traced.bind_pure_eq] at sent
        exact SaceServiceExcutor.monitor_sends sent
    | uninitService wait =>
      simp only [Saced.turn, Traced.bind_pure_eq, SaceServiceExcutor.onUninit,
        Traced.mem_bind] at sent
      rcases sent with interrupted | ⟨_, _, passed⟩
      · obtain ⟨_, kill⟩ := SaceServiceExcutor.interruptAll_kills _ _ _ interrupted
        cases kill
      · exact SaceServiceExcutor.monitor_sends passed
    | destroyService =>
      simp only [Saced.turn] at sent
      split at sent
      · simp only [Traced.bind_pure_eq, SaceServiceExcutor.destroy] at sent
        exact SaceServiceExcutor.killAll_sends sent
      · cases sent
    | _ => exact responds.elim
  obtain ⟨p, sveInfo, wr, response', live, member, label, eq⟩ := from_
  cases eq
  exact ⟨p, sveInfo, live, label, sound.services p sveInfo live _ member fd rfl⟩

theorem Connected.mono {conns conns' : Table Int SaceClientIdentifier} {writer : SaceWriter}
    {clients clients' : List SaceClientIdentifier} (connected : Connected conns writer clients)
    (open_ : ∀ fd client, writer.channel = .socket fd → conns[fd]? = some client →
      conns'[fd]? = some client) (more : clients ⊆ clients') :
    Connected conns' writer clients' := by
  intro fd channel
  obtain ⟨client, member, found⟩ := connected fd channel
  exact ⟨client, more member, open_ fd client channel found⟩

theorem connected_elsewhere {conns : Table Int SaceClientIdentifier} {writer : SaceWriter}
    {clients : List SaceClientIdentifier} (elsewhere : ∀ fd, writer.channel ≠ .socket fd) :
    Connected conns writer clients := fun fd channel => absurd channel (elsewhere fd)

theorem prepare_take (d : Saced) (kind : SaceMessageHandlerType) (answers : Answers) :
    (d.prepare (.take kind answers)).client = d.client ∧
      (d.prepare (.take kind answers)).conns = d.conns := by
  simp only [Saced.prepare]
  split <;> exact ⟨rfl, rfl⟩

theorem prepare_conns {d : Saced} {input : Input} (provided : d.Provided input) {fd : Int}
    {client : SaceClientIdentifier} (open_ : d.conns[fd]? = some client)
    (kept : ∀ slot climsg, input = .hangup slot → d.client slot = some climsg → climsg.fd ≠ fd) :
    (d.prepare input).conns[fd]? = some client := by
  cases input with
  | accept fd' client' full =>
    have other : fd' ≠ fd := by
      rintro rfl
      exact provided.2 (Table.mem_of_some open_)
    simp only [Saced.prepare, Saced.accept]
    cases full with
    | true => exact (Table.erase_some ..).mpr ⟨other, open_⟩
    | false => exact (Table.insert_some ..).mpr (.inr ⟨other, open_⟩)
  | hangup slot =>
    simp only [Saced.prepare, Saced.close]
    split
    · exact open_
    · rename_i climsg taken
      exact (Table.erase_some ..).mpr ⟨kept slot climsg rfl taken, open_⟩
  | take kind answers => rwa [(prepare_take ..).2]
  | _ => exact open_

theorem client_eq_some {d : Saced} {slot : Nat} {climsg : SaceSocketReader.ClientSocket} :
    d.client slot = some climsg ↔ d.mClients[slot]? = some climsg ∧ 0 ≤ climsg.fd := by
  simp [Saced.client, Option.filter_eq_some_iff]

theorem accept_client {d : Saced} {fd : Int} {who : SaceClientIdentifier} {full : Bool}
    {slot : Nat} {climsg : SaceSocketReader.ClientSocket}
    (taken : (d.accept fd who full).client slot = some climsg) :
    d.client slot = some climsg ∨
      climsg = { fd, client := who, writer := ⟨.socket fd, who.pid⟩ } ∧
        d.mClients.findIdx? (·.fd < 0) = some slot := by
  rw [client_eq_some] at taken ⊢
  obtain ⟨held, inUse⟩ := taken
  simp only [Saced.accept] at held
  split at held
  · rename_i i free
    by_cases here : i = slot
    · subst here
      rw [List.getElem?_set] at held
      simp only [if_true] at held
      split at held
      · cases held
        exact .inr ⟨rfl, free⟩
      · cases held
    · rw [List.getElem?_set_ne here] at held
      exact .inl ⟨held, inUse⟩
  · exact .inl ⟨held, inUse⟩

theorem close_client {d : Saced} {slot other : Nat} {climsg : SaceSocketReader.ClientSocket}
    (taken : (d.close slot).client other = some climsg) :
    d.client other = some climsg ∧ (d.client slot ≠ none → other ≠ slot) := by
  unfold Saced.close at taken
  split at taken
  · rename_i none
    exact ⟨taken, fun some => absurd none some⟩
  · rename_i old held
    rw [client_eq_some] at taken
    obtain ⟨held', inUse⟩ := taken
    simp only at held'
    by_cases here : slot = other
    · subst here
      rw [List.getElem?_set] at held'
      simp only [if_true] at held'
      split at held'
      · cases held'
        cases inUse
      · cases held'
    · rw [List.getElem?_set_ne here] at held'
      exact ⟨client_eq_some.mpr ⟨held', inUse⟩, fun _ same => here same.symm⟩

/-! ### One step -/

section Step
variable {a : Audited} {input : Input}

theorem Sound.prepared_slots (sound : Sound a) (provided : a.saced.Provided input)
    (careful : a.Careful input) {slot : Nat} {climsg : SaceSocketReader.ClientSocket}
    (taken : (a.saced.prepare input).client slot = some climsg) :
    climsg.writer.channel = .socket climsg.fd ∧
      (a.saced.prepare input).conns[climsg.fd]? = some climsg.client := by
  have old (there : a.saced.client slot = some climsg)
      (kept : ∀ i other, input = .hangup i → a.saced.client i = some other →
        other.fd ≠ climsg.fd) : climsg.writer.channel = .socket climsg.fd ∧
          (a.saced.prepare input).conns[climsg.fd]? = some climsg.client :=
    ⟨(sound.slots slot climsg there).1,
      prepare_conns provided (sound.slots slot climsg there).2 kept⟩
  cases input with
  | accept fd who full =>
    rcases accept_client taken with there | ⟨rfl, free⟩
    · exact old there (by simp)
    · refine ⟨rfl, ?_⟩
      have open_ : full = false := by
        by_contra closed
        obtain ⟨here, unused, _⟩ := List.findIdx?_eq_some_iff_getElem.mp free
        have inUse := careful (by simpa using closed) _ (List.getElem_mem here)
        exact absurd (of_decide_eq_true unused) (Int.not_lt.mpr inUse)
      simp [Saced.prepare, Saced.accept, open_]
  | hangup i =>
    obtain ⟨there, apart⟩ := close_client taken
    apply old there
    intro j other same held sameFd
    cases same
    exact apart (by simp [held]) (sound.distinct i slot other climsg held there sameFd).symm
  | take kind answers =>
    rw [(prepare_take ..).1] at taken
    exact old taken (by simp)
  | _ => exact old taken (by simp)

theorem Sound.prepared_distinct (sound : Sound a) (provided : a.saced.Provided input)
    {slot other : Nat} {climsg climsg' : SaceSocketReader.ClientSocket}
    (taken : (a.saced.prepare input).client slot = some climsg)
    (taken' : (a.saced.prepare input).client other = some climsg')
    (same : climsg.fd = climsg'.fd) : slot = other := by
  cases input with
  | accept fd who full =>
    have apart : ∀ i c, a.saced.client i = some c → c.fd ≠ fd := by
      rintro i c there rfl
      exact provided.2 (Table.mem_of_some (sound.slots i c there).2)
    rcases accept_client taken with there | ⟨rfl, free⟩
    · rcases accept_client taken' with there' | ⟨rfl, _⟩
      · exact sound.distinct _ _ _ _ there there' same
      · exact absurd same (apart _ _ there)
    · rcases accept_client taken' with there' | ⟨rfl, free'⟩
      · exact absurd same.symm (apart _ _ there')
      · exact Option.some.inj (free.symm.trans free')
  | hangup i =>
    exact sound.distinct _ _ _ _ (close_client taken).1 (close_client taken').1 same
  | take kind answers =>
    rw [(prepare_take ..).1] at taken taken'
    exact sound.distinct _ _ _ _ taken taken' same
  | _ => exact sound.distinct _ _ _ _ taken taken' same

theorem Sound.posted_connected (sound : Sound a) {msg : SaceReaderMessage}
    (member : .message msg ∈ posted (a.saced.turn input).trace) (enlists : Enlists msg) :
    Connected (a.saced.prepare input).conns msg.msgWriter [msg.msgClient] := by
  have sent := mem_posted.mp member
  have among : Connected a.saced.conns msg.msgWriter [msg.msgClient] := by
    have every := Saced.turn_every (d := a.saced)
      (P := fun effect => ∀ msg, effect = .post (.message msg) → Enlists msg →
        Connected a.saced.conns msg.msgWriter [msg.msgClient])
      (fun _ _ _ no => nomatch no) (fun _ _ _ no => nomatch no) (fun _ _ _ no => nomatch no)
      (fun _ _ _ no => nomatch no) (fun message may msg eq enlists => ?_)
      (fun _ _ _ _ no => nomatch no) input
    · exact every _ sent msg rfl enlists
    · cases eq
      cases may with
      | @command slot climsg saceCmd taken =>
        obtain ⟨channel, open_⟩ := sound.slots slot climsg taken
        intro fd at_
        cases channel.symm.trans at_
        exact ⟨_, List.mem_singleton.mpr rfl, open_⟩
      | close climsg => cases enlists.1
      | transaction id client saceCmd => exact connected_elsewhere fun _ no => nomatch no
      | event msgCmd => exact connected_elsewhere sound.pipe
  cases input with
  | accept fd who full => cases member
  | hangup slot =>
    simp only [Saced.turn] at sent
    split at sent
    · cases sent
    · cases List.mem_singleton.mp sent
      cases enlists.1
  | take kind answers => rwa [(prepare_take ..).2]
  | _ => exact among

theorem serve_other {server t : Server} {msg : SaceReaderMessage} {answers : Answers}
    (other : msg.msgHandler ≠ .service) (done : (server.serve msg answers).result = .ok t) :
    t.service = server.service := by
  unfold Server.serve at done
  split at done
  · cases done
    rfl
  split at done
  · rename_i kind
    exact absurd kind other
  · unfold Server.excute at done
    split at done
    · cases done
      rfl
    · obtain ⟨_, _, done⟩ := Traced.bind_ok.mp done
      cases done
      rfl
    · rename_i kind
      exact absurd kind other
    · obtain ⟨_, _, done⟩ := Traced.bind_ok.mp done
      cases done
      rfl

theorem requested_none (other : ∀ answers, input ≠ .take .service answers) :
    a.requested input = none := by
  unfold requested
  split
  · exact absurd rfl (other _)
  · rfl

theorem requested_other {kind : SaceMessageHandlerType} {answers : Answers}
    (other : kind ≠ .service) : a.requested (.take kind answers) = none :=
  requested_none fun _ eq => other (by cases eq; rfl)

/-- A step executes a service request, or it leaves no object with new writers. -/
theorem requested_cases {server : Server} (ran : (a.saced.turn input).result = .ok server) :
    (∃ posted answers result, posted ∈ a.saced.queue ∧
      (a.saced.server.message posted).msgHandler = .service ∧ input = .take .service answers ∧
      a.requested input = some (a.saced.server.message posted, answers, result) ∧
      (a.saced.server.service.request (a.saced.server.message posted) answers.env
        answers.start).result = .ok (server.service, result)) ∨
    a.requested input = none ∧ a.saced.server.service.Inherits server.service := by
  have turned := a.saced.turned input
  generalize a.saced.turn input = x at turned ran
  cases turned with
  | @take kind answers posted found =>
    obtain ⟨queued, handler⟩ := Saced.next_mem found
    by_cases service : kind = .service
    · subst service
      unfold Server.serve at ran
      rw [handler] at ran
      cases exits : a.saced.server.mExit .service with
      | true =>
        simp only [exits, if_true] at ran
        cases ran
        exact .inr ⟨by simp [requested, exits], .refl _⟩
      | false =>
        simp only [exits, Bool.false_eq_true, if_false, Traced.bind_ok, Prod.exists] at ran
        obtain ⟨service, result, served, _, _, done⟩ := ran
        cases done
        refine .inl ⟨posted, answers, result, queued, handler, rfl, ?_, served⟩
        simp [requested, exits, found, Traced.value_eq_some.mpr served]
    · have kept := serve_other (fun is => service (handler.symm.trans is)) ran
      exact .inr ⟨requested_other service, kept ▸ .refl _⟩
  | @idle kind answers none =>
    cases ran
    refine .inr ⟨?_, .refl _⟩
    by_cases service : kind = .service
    · subst service
      simp [requested, none]
    · exact requested_other service
  | same other =>
    cases ran
    exact .inr ⟨requested_none fun answers eq => other _ _ eq, .refl _⟩
  | monitor =>
    obtain ⟨service, done, ran⟩ := Traced.bind_ok.mp ran
    cases ran
    exact .inr ⟨rfl, SaceServiceExcutor.monitor_inherits done⟩
  | uninitService =>
    obtain ⟨service, done, ran⟩ := Traced.bind_ok.mp ran
    cases ran
    rw [SaceServiceExcutor.onUninit, Traced.bind_ok] at done
    obtain ⟨_, _, passed⟩ := done
    exact .inr ⟨rfl, SaceServiceExcutor.monitor_inherits passed⟩
  | destroyService =>
    obtain ⟨service, done, ran⟩ := Traced.bind_ok.mp ran
    cases ran
    exact .inr ⟨rfl, SaceServiceExcutor.destroy_inherits done⟩
  | snapshot | uninitNormal =>
    cases ran
    exact .inr ⟨rfl, .refl _⟩
  | command | hangup | transaction | trigger | restartEvent | read | uninitEvent =>
    obtain ⟨_, _, ran⟩ := Traced.bind_ok.mp ran
    cases ran
    exact .inr ⟨rfl, .refl _⟩

theorem mem_addWriter {sveInfo : ServiceInfo} {writer wr : SaceWriter}
    (member : wr ∈ (sveInfo.addWriter writer).writer) : wr ∈ sveInfo.writer ∨ wr = writer := by
  unfold ServiceInfo.addWriter at member
  split at member
  · exact .inl member
  · simpa using member

theorem entitle_keeps {msg : SaceReaderMessage} {answers : StartAnswers} {result : SaceResult}
    {p : UInt64} (other : p ≠ answers.address) :
    a.entitledTo p ⊆ ((a.entitle msg answers result)[p]?).getD [] := by
  unfold entitle
  split
  · exact List.Subset.refl _
  split
  · rw [Std.ExtTreeMap.getElem?_insert]
    simp only [Std.LawfulEqCmp.compare_eq_iff_eq, other.symm, if_false]
    exact List.Subset.refl _
  split
  · split
    · rename_i q found
      rw [Std.ExtTreeMap.getElem?_insert]
      split
      · rename_i same
        cases Std.LawfulEqCmp.compare_eq_iff_eq.mp same
        exact List.subset_cons_self _ _
      · exact List.Subset.refl _
    · exact List.Subset.refl _
  · exact List.Subset.refl _

theorem Sound.change_connected (sound : Sound a) {msg : SaceReaderMessage}
    (handler : msg.msgHandler = .service)
    (client : Enlists msg → Connected a.saced.conns msg.msgWriter [msg.msgClient])
    {answers : StartAnswers} (fresh : answers.address ∉ a.saced.server.service.heap)
    {t : SaceServiceExcutor} {result : SaceResult}
    (change : a.saced.server.service.Change msg answers t result)
    {p : UInt64} {sveInfo : ServiceInfo} (live : t.heap[p]? = some sveInfo) {wr : SaceWriter}
    (member : wr ∈ sveInfo.writer) :
    Connected a.saced.conns wr (((a.entitle msg answers result)[p]?).getD []) := by
  have old {before : ServiceInfo} (held : a.saced.server.service.heap[p]? = some before)
      (there : wr ∈ before.writer) :
      Connected a.saced.conns wr (((a.entitle msg answers result)[p]?).getD []) := by
    refine (sound.services p before held wr there).mono (fun _ _ _ found => found) ?_
    apply entitle_keeps
    rintro rfl
    exact fresh (Table.mem_of_some held)
  cases change with
  | same status => exact old live member
  | start kind new forked =>
    rcases (Table.insert_some ..).mp live with ⟨rfl, rfl⟩ | ⟨_, held⟩
    · have only : wr = msg.msgWriter := by
        simpa using (mem_addWriter member)
      have mine : ((a.entitle msg answers (SaceServiceExcutor.startedResult msg.msgCmd
          (SaceServiceExcutor.newService msg.msgCmd msg.msgWriter answers)))[answers.address]?).getD
            [] = [msg.msgClient] := by
        simp [entitle, kind, SaceServiceExcutor.startedResult]
      rw [only, mine]
      exact client ⟨handler, .inl kind⟩
    · exact old held member
  | restate state held =>
    rcases (Table.insert_some ..).mp live with ⟨rfl, rfl⟩ | ⟨_, held'⟩
    · exact old held member
    · exact old held' member
  | restart kind found held paused =>
    rcases (Table.insert_some ..).mp live with ⟨rfl, rfl⟩ | ⟨_, held'⟩
    · exact old held member
    · exact old held' member
  | query kind found held =>
    rcases (Table.insert_some ..).mp live with ⟨rfl, rfl⟩ | ⟨_, held'⟩
    · rcases mem_addWriter member with there | rfl
      · exact old held there
      · refine (client ⟨handler, .inr kind⟩).mono (fun _ _ _ found => found) ?_
        have notStart : SaceServiceCommandType.info ≠ .start := by decide
        simp [entitle, kind, found, notStart, SaceServiceExcutor.infoResult]
    · exact old held' member

theorem Connected.prepared {writer : SaceWriter} {clients : List SaceClientIdentifier}
    (connected : Connected a.saced.conns writer clients) (provided : a.saced.Provided input)
    (kept : ∀ slot climsg, input = .hangup slot → a.saced.client slot = some climsg →
      writer.channel ≠ .socket climsg.fd) :
    Connected (a.saced.prepare input).conns writer clients := by
  refine connected.mono (fun fd client channel open_ => ?_) (List.Subset.refl _)
  apply prepare_conns provided open_
  intro slot climsg same taken sameFd
  exact kept slot climsg same taken (sameFd ▸ channel)

theorem Sound.stepped_services (sound : Sound a) (provided : a.saced.Provided input)
    (careful : a.Careful input) {b : Audited} (moved : a.step input = some b) {p : UInt64}
    {sveInfo : ServiceInfo} (live : b.saced.server.service.heap[p]? = some sveInfo)
    {wr : SaceWriter} (member : wr ∈ sveInfo.writer) :
    Connected b.saced.conns wr (b.entitledTo p) := by
  obtain ⟨d, stepped, rfl⟩ := Option.map_eq_some_iff.mp moved
  obtain ⟨server, ran, rfl⟩ := Saced.step_eq_some.mp stepped
  rcases requested_cases ran with ⟨posted, answers, result, queued, handler, rfl, asked, done⟩ |
    ⟨none, inherits⟩
  · have client : Enlists (a.saced.server.message posted) → Connected a.saced.conns
        (a.saced.server.message posted).msgWriter [(a.saced.server.message posted).msgClient] := by
      cases posted with
      | message msg => exact sound.queue msg queued
      | stopMsg => exact fun _ => connected_elsewhere fun _ no => nomatch no
    have connected := sound.change_connected handler client provided
      (SaceServiceExcutor.request_change done) live member
    simp only [entitledTo, asked]
    simpa only [Saced.deliver, prepare_take] using connected
  · obtain ⟨before, held, identity⟩ := inherits p sveInfo live
    simp only [ServiceInfo.identity, Prod.mk.injEq] at identity
    have there : wr ∈ before.writer := identity.2.2.2 ▸ member
    have connected := sound.services p before held wr there
    simp only [entitledTo, none]
    apply connected.prepared provided
    intro slot climsg same taken
    subst same
    exact (careful climsg taken).1 p before held wr there

theorem Sound.step (sound : Sound a) (provided : a.saced.Provided input)
    (careful : a.Careful input) {b : Audited} (moved : a.step input = some b) : Sound b := by
  have services (p : UInt64) (sveInfo : ServiceInfo)
      (live : b.saced.server.service.heap[p]? = some sveInfo) (wr : SaceWriter)
      (member : wr ∈ sveInfo.writer) : Connected b.saced.conns wr (b.entitledTo p) :=
    sound.stepped_services provided careful moved live member
  obtain ⟨d, stepped, rfl⟩ := Option.map_eq_some_iff.mp moved
  obtain ⟨server, ran, rfl⟩ := Saced.step_eq_some.mp stepped
  refine ⟨fun _ _ taken => sound.prepared_slots provided careful taken,
    fun _ _ _ _ taken taken' => sound.prepared_distinct provided taken taken',
    fun msg queued enlists => ?_, services, fun fd channel => ?_⟩
  · rcases List.mem_append.mp queued with old | new
    · have there : .message msg ∈ a.saced.queue := Saced.prepare_queue _ old
      apply (sound.queue msg there enlists).prepared provided
      intro slot climsg same taken
      subst same
      exact (careful climsg taken).2 msg there enlists
    · exact sound.posted_connected new enlists
  · have kept : server.event.eventWriter = a.saced.server.event.eventWriter :=
      (Saced.turn_moved provided ran).2.writer
    exact sound.pipe fd (kept ▸ channel)

end Step

theorem start_sound {event : SaceEvent} (loaded : event.Loaded) : Sound (start event) := by
  have noSlot (slot : Nat) (climsg : SaceSocketReader.ClientSocket) :
      (Saced.start event).client slot ≠ some climsg := by
    intro taken
    obtain ⟨held, inUse⟩ := client_eq_some.mp taken
    cases List.eq_of_mem_replicate (List.mem_of_getElem? held)
    cases inUse
  obtain ⟨pipeFd, pipe⟩ := loaded.pipe
  exact
    { slots slot climsg taken := absurd taken (noSlot slot climsg)
      distinct slot _ climsg _ taken := absurd taken (noSlot slot climsg)
      queue _ queued := nomatch queued
      services p sveInfo live := by simp [start, Saced.start] at live
      pipe fd channel := nomatch pipe.symm.trans channel }

/-- In runs whose steps are careful, every response goes to a client that started the service
or asked for it. -/
theorem reached_rightly {event : SaceEvent} (loaded : event.Loaded) {a : Audited}
    (reached : Runs.Reached step (fun a input => a.saced.Provided input ∧ a.Careful input)
      (start event) a) {input : Input} (responds : Responds input) : a.RightlySent input := by
  have sound : Sound a := reached.invariant (start_sound loaded)
    fun a input b sound allowed moved => sound.step allowed.1 allowed.2 moved
  exact sound.rightly responds

/-! A client starts a service, which ends. -/

def startCommand : SaceCommand :=
  { type := .service, sequence := 7, name := str "svc", command := str "sleep 1"
    subType := SaceServiceCommandType.start.byte }

def startSleep : List Input :=
  [.accept 5 ⟨1000, 200⟩ false, .command 0 startCommand, .take .service .quiet]

def sleepEnds : Input := .monitor fun _ => .reaped 0

def sleepEnded : SaceStatusResponse :=
  { type := .service, extraLen := 4, label := sequenceToLabel 7 16, name := str "svc"
    status := .exit, extra := [0, 0, 0, 0] }

theorem startSleep_admitted : Runs.Admitted step
    (fun a input => a.saced.Provided input ∧ a.Careful input) (start .bare) startSleep := by
  refine ⟨⟨⟨by decide, by simp [start, Saced.start]⟩, fun no => nomatch no⟩, fun a accepted =>
    ⟨⟨trivial, trivial⟩, fun b moved => ⟨⟨?_, trivial⟩, fun _ _ => trivial⟩⟩⟩
  have ran : Runs.run step (start .bare) (startSleep.take 2) = some b := by
    simp [startSleep, Runs.run, accepted, moved]
  have unused : (Runs.run step (start .bare) (startSleep.take 2)).map (fun a =>
      decide (Answers.quiet.start.address ∈ a.saced.server.service.heap)) = some false := by
    decide +kernel
  rw [ran] at unused
  exact of_decide_eq_false (Option.some.inj unused)

/-- The response goes to the client, which is still there. -/
theorem sleep_ended : ∃ a : Audited,
    .sendResponse ⟨.socket 5, 200⟩ sleepEnded ∈ (a.saced.turn sleepEnds).trace ∧
      a.RightlySent sleepEnds := by
  have sent : (Runs.run step (start .bare) startSleep).map (fun a =>
      decide (.sendResponse ⟨.socket 5, 200⟩ sleepEnded ∈ (a.saced.turn sleepEnds).trace)) =
        some true := by decide +kernel
  obtain ⟨a, ran, sent⟩ := Option.map_eq_some_iff.mp sent
  exact ⟨a, of_decide_eq_true sent, reached_rightly SaceEvent.bare_loaded
    (Runs.run_reached startSleep_admitted ran) trivial⟩

def comesAnother : List Input := [.hangup 0, .accept 5 ⟨1000, 201⟩ false]

theorem comesAnother_admitted : Runs.Admitted step (fun a input => a.saced.Provided input)
    (start .bare) (startSleep ++ comesAnother) := by
  refine (startSleep_admitted.weaken fun _ _ => And.left).append fun a ran =>
    ⟨trivial, fun b moved => ⟨⟨by decide, ?_⟩, fun _ _ => trivial⟩⟩
  have closed : (Runs.run step (start .bare) (startSleep ++ [.hangup 0])).map (fun a =>
      decide ((5 : Int) ∈ a.saced.conns)) = some false := by decide +kernel
  rw [Runs.run_append, ran, Option.bind_some, Runs.run, moved] at closed
  exact of_decide_eq_false (Option.some.inj closed)

theorem sent_to_another : ¬ ∀ (event : SaceEvent) (a : Audited) (input : Input), event.Loaded →
    Runs.Reached step (fun a input => a.saced.Provided input) (start event) a →
      Responds input → a.RightlySent input := by
  intro rightly
  have facts : (Runs.run step (start .bare) (startSleep ++ comesAnother)).map (fun a =>
      (decide (.sendResponse ⟨.socket 5, 200⟩ sleepEnded ∈ (a.saced.turn sleepEnds).trace),
        a.saced.conns[(5 : Int)]?, a.entitledTo 16, a.saced.server.service.heap.keys)) =
      some (true, some ⟨1000, 201⟩, [⟨1000, 200⟩], [16]) := by decide +kernel
  obtain ⟨a, ran, facts⟩ := Option.map_eq_some_iff.mp facts
  simp only [Prod.mk.injEq, decide_eq_true_eq] at facts
  obtain ⟨sent, another, starter, only⟩ := facts
  obtain ⟨p, sveInfo, live, _, client, entitled, at_⟩ := rightly .bare a sleepEnds
    SaceEvent.bare_loaded (Runs.run_reached comesAnother_admitted ran) trivial 5 200 sleepEnded sent
  have here : p ∈ a.saced.server.service.heap.keys :=
    Std.ExtTreeMap.mem_keys.mpr (Table.mem_of_some live)
  rw [only] at here
  cases List.mem_singleton.mp here
  rw [starter] at entitled
  cases List.mem_singleton.mp entitled
  cases another.symm.trans at_

end Audited
end Sace
