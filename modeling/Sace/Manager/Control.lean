import Sace.Event.Steps
import Sace.Manager.Checks
import Sace.Service.Labels

/-! One SaceServiceObj and the server: its calls one after the other, the work that the service
executor does between them, and the responses about services that have ended. -/
namespace Sace

def responseToError (status : SaceResponseStatus) : ErrorCode :=
  if status = .exit ∨ status = .signal then .exit
  else if status = .user then .exitUser
  else .unknown

namespace SaceServiceObj

def getState (own : Str) (sequence : UInt32) (obj : SaceServiceObj) :
    Except SaceException (Option SaceCommand) :=
  if obj.mError = .exit then .error (.remote (obj.name ++ str " Exit Abnormally"))
  else if obj.mError = .exitUser then
    .error (.invalidOperation (obj.name ++ str " Has Exit By User"))
  else .ok (some
    { SaceCommand.init own sequence with
      type := .service
      label := obj.label
      sequence := labelToSequence obj.label
      subType := SaceServiceCommandType.info.byte
      command := SERVICE_GET_BY_LABEL })

inductive Operation where
  | stop | pause | restart | getState
  deriving DecidableEq

def Operation.command : Operation → Str → UInt32 → SaceServiceObj →
    Except SaceException (Option SaceCommand)
  | .stop => SaceServiceObj.stop
  | .pause => SaceServiceObj.pause
  | .restart => SaceServiceObj.restart
  | .getState => SaceServiceObj.getState

end SaceServiceObj

/-- A call under way: its command is on the way to the server, or the answer back. -/
inductive Controlled.Pending where
  | sent (mCmd : SaceCommand)
  | answered (mRlt : SaceResult)

/-- The service executor and one object of a client, which checkService makes. `told` are the
responses that have been sent, and `labels` the labels that services and the object have got so
far. -/
structure Controlled where
  service : SaceServiceExcutor := {}
  checking : Option (SaceManager.Check × SaceManager.CheckStage) := none
  obj : Option SaceServiceObj := none
  sender : Bool := false
  call : Option Controlled.Pending := none
  told : List SaceStatusResponse := []
  labels : List UInt64 := []

namespace Controlled

open SaceServiceExcutor SaceServiceObj
open SaceManager (Check CheckStage Checked)

inductive Input where
  /-- The server does something for others. -/
  | serve (task : Work)
  | check (c : Check)
  /-- A command of checkService is answered, by SaceEvent itself or by the service executor. -/
  | refuse
  | answer (writer : SaceWriter) (client : SaceClientIdentifier) (env : ParseEnv)
      (answers : StartAnswers)
  | call (op : Operation) (own : Str) (sequence : UInt32)
  | handle (writer : SaceWriter) (client : SaceClientIdentifier) (env : ParseEnv)
      (answers : StartAnswers)
  | reply
  | hear (i : Nat)

/-- What a command of checkService comes to in the service executor: SaceEvent forwards that of
queryEventService when it knows the event as running. -/
def forwarded (mCmd : SaceCommand) : CheckStage → SaceCommand
  | .event => SaceEvent.infoCommand mCmd
  | _ => mCmd

def asked (d : Controlled) : Option SaceCommand :=
  d.checking.bind fun (c, stage) => (c.command stage).map fun mCmd => forwarded mCmd stage

def checked (d : Controlled) (c : Check) (stage : CheckStage) (mRlt : SaceResult) :
    Option Controlled :=
  (c.answered mRlt stage).value.map fun
    | .asks next => { d with checking := some (c, next) }
    | .entered sve =>
      { d with
        checking := none
        obj := some sve
        sender := true
        labels := d.labels ++ [sve.label] }
    | .failed sve _ =>
      { d with checking := none, obj := some sve, labels := d.labels ++ [sve.label] }

/-- An object that stands for an error has no sender: a call that would send ends the process. -/
def step (d : Controlled) : Input → Option Controlled
  | .serve task => (d.service.work task).value.map fun service =>
    { d with
      service
      told := d.told ++ SaceServiceExcutor.told (d.service.work task).trace
      labels := d.labels ++ givenBy task }
  | .check c =>
    if d.obj.isSome || d.checking.isSome then none
    else some { d with checking := some (c, .normal) }
  | .refuse =>
    match d.checking with
    | some (c, .event) => (c.command .event).bind fun mCmd =>
      d.checked c .event { initialResult mCmd with resultStatus := .fail }
    | _ => none
  | .answer writer client env answers =>
    match d.checking, d.asked with
    | some (c, stage), some mCmd =>
      let msg : SaceReaderMessage := ⟨.service, mCmd, writer, client⟩
      (d.service.request msg env answers).value.bind fun (service, mRlt) =>
        { d with service, labels := d.labels ++ given msg answers }.checked c stage mRlt
    | _, _ => none
  | .call op own sequence =>
    match d.obj, d.call with
    | some obj, none =>
      match op.command own sequence obj with
      | .error _ => some d
      | .ok none => some d
      | .ok (some mCmd) => if d.sender then some { d with call := some (.sent mCmd) } else none
    | _, _ => none
  | .handle writer client env answers =>
    match d.call with
    | some (.sent mCmd) =>
      (d.service.request ⟨.service, mCmd, writer, client⟩ env answers).value.map
        fun (service, mRlt) => { d with service, call := some (.answered mRlt) }
    | _ => none
  | .reply =>
    match d.obj, d.call with
    | some obj, some (.answered mRlt) =>
      some { d with obj := some (obj.operated mRlt).1, call := none }
    | _, _ => none
  | .hear i =>
    match d.obj, d.told[i]? with
    | some obj, some response =>
      some { d with
        told := d.told.eraseIdx i
        obj := some (if response.label = obj.label then
          { obj with mError := responseToError response.status } else obj) }
    | _, _ => none

/-- The allocator gives an unused address. -/
def Provided (d : Controlled) : Input → Prop
  | .serve task => d.service.Fresh task
  | .answer _ _ _ answers => ∀ mCmd, d.asked = some mCmd → mCmd.serviceCmdType = .start →
      answers.address ∉ d.service.heap
  | _ => True

/-- pause is handled when the service is not PAUSED, restart when it is not RUNNING, getState
when it is neither; no label is given away twice, and that of the object that two queries have
left is no service's when the START fails. -/
def Careful (d : Controlled) : Input → Prop
  | .serve task => ∀ l ∈ givenBy task, l ∉ d.labels
  | .answer writer client _ answers => ∀ mCmd, d.asked = some mCmd →
      (∀ l ∈ given ⟨.service, mCmd, writer, client⟩ answers, l ∉ d.labels) ∧
      ∀ c sve failed, d.checking = some (c, .start sve failed) →
        ¬ d.service.Adds ⟨.service, mCmd, writer, client⟩ answers → sve.label ∉ d.labels
  | .handle _ _ _ _ => ∀ mCmd, d.call = some (.sent mCmd) →
      ∀ (p : UInt64) (sveInfo : ServiceInfo), d.service.heap[p]? = some sveInfo →
        sveInfo.label = mCmd.label →
          (mCmd.serviceCmdType = .pause → sveInfo.state ≠ .paused) ∧
          (mCmd.serviceCmdType = .restart → sveInfo.state ≠ .running) ∧
          (mCmd.serviceCmdType = .info → ¬ sveInfo.Active)
  | _ => True

structure About (mCmd : SaceCommand) (label : UInt64) : Prop where
  label : mCmd.label = label
  kind : mCmd.serviceCmdType = .stop ∨ mCmd.serviceCmdType = .pause ∨
    mCmd.serviceCmdType = .restart ∨
      mCmd.serviceCmdType = .info ∧ mCmd.command = SERVICE_GET_BY_LABEL

/-- While its service may still be active the object has been told nothing but OK. -/
structure Trusted (d : Controlled) : Prop where
  kept : d.service.Kept d.labels
  quiet : d.obj = none → d.call = none
  checking : ∀ under, d.checking = some under → d.obj = none
  told : ∀ response ∈ d.told, response.label ∈ d.labels ∧ d.service.Over response.label
  held : ∀ obj, d.obj = some obj →
    obj.label ∈ d.labels ∧ (obj.mError = .ok ∨ d.service.Over obj.label)
  sent : ∀ obj mCmd, d.obj = some obj → d.call = some (.sent mCmd) → About mCmd obj.label
  answered : ∀ obj mRlt, d.obj = some obj → d.call = some (.answered mRlt) →
    mRlt.resultStatus = .ok ∨ d.service.Over obj.label

theorem operate_about {cmdType : SaceServiceCommandType} {blank own : Str} {sequence : UInt32}
    {obj : SaceServiceObj} {mCmd : SaceCommand}
    (sends : obj.operate cmdType blank own sequence = .ok (some mCmd)) :
    mCmd.label = obj.label ∧ mCmd.serviceCmdType = cmdType := by
  unfold operate at sends
  dsimp only at sends
  repeat' split at sends
  all_goals cases sends
  exact ⟨rfl, rfl⟩

theorem command_about {op : Operation} {own : Str} {sequence : UInt32} {obj : SaceServiceObj}
    {mCmd : SaceCommand} (sends : op.command own sequence obj = .ok (some mCmd)) :
    About mCmd obj.label := by
  cases op with
  | stop => exact ⟨(operate_about sends).1, .inl (operate_about sends).2⟩
  | pause => exact ⟨(operate_about sends).1, .inr (.inl (operate_about sends).2)⟩
  | restart => exact ⟨(operate_about sends).1, .inr (.inr (.inl (operate_about sends).2))⟩
  | getState =>
    simp only [Operation.command, getState] at sends
    repeat' split at sends
    all_goals cases sends
    exact ⟨rfl, .inr (.inr (.inr ⟨rfl, rfl⟩))⟩

/-- An object without an error goes on with every call. -/
theorem command_of_ok {obj : SaceServiceObj} (fine : obj.mError = .ok) (op : Operation)
    (own : Str) (sequence : UInt32) : ∃ mCmd, op.command own sequence obj = .ok mCmd := by
  have goes (cmdType : SaceServiceCommandType) (blank : Str) :
      ∃ mCmd, obj.operate cmdType blank own sequence = .ok mCmd := by
    by_cases unlabelled : obj.label = 0
    · exact ⟨none, by simp [operate, fine, unlabelled]⟩
    · simp [operate, fine, unlabelled]
  cases op with
  | stop => exact goes _ _
  | pause => exact goes _ _
  | restart => exact goes _ _
  | getState => simp [Operation.command, getState, fine]

/-! ### What the handlers answer -/

section Handlers

variable {s t : SaceServiceExcutor} {labels : List UInt64} {msg : SaceReaderMessage}
variable {env : ParseEnv} {answers : StartAnswers} {mRlt : SaceResult}

theorem over_of_missing (kept : s.Kept labels) {label : UInt64}
    (missing : s.mSeqService[label]? = none) : s.Over label := by
  intro p sveInfo held own
  have found := (kept.indexed p sveInfo held).1
  rw [own, missing] at found
  cases found

theorem over_of_found (kept : s.Kept labels) {label p : UInt64} {sveInfo : ServiceInfo}
    (found : s.mSeqService[label]? = some p) (live : s.heap[p]? = some sveInfo)
    (idle : ¬ sveInfo.Active) : s.Over label := by
  intro q info held own
  have here := (kept.indexed q info held).1
  rw [own, found] at here
  cases here
  cases live.symm.trans held
  exact idle

theorem found_label (kept : s.Kept labels) {label p : UInt64} {sveInfo : ServiceInfo}
    (found : s.mSeqService[label]? = some p) (live : s.heap[p]? = some sveInfo) :
    sveInfo.label = label := by
  obtain ⟨info, held, own⟩ := kept.owned.seq label p found
  cases live.symm.trans held
  exact own

/-- A STOP, PAUSE or RESTART is not answered OK only when it finds no service, a service that
is no more, or one that is PAUSED or RUNNING as it asks for. -/
theorem signal_answers (kept : s.Kept labels)
    (kind : msg.msgCmd.serviceCmdType ∈
      [SaceServiceCommandType.stop, SaceServiceCommandType.pause, SaceServiceCommandType.restart])
    (careful : ∀ (p : UInt64) (sveInfo : ServiceInfo), s.heap[p]? = some sveInfo →
      sveInfo.label = msg.msgCmd.label →
        (msg.msgCmd.serviceCmdType = .pause → sveInfo.state ≠ .paused) ∧
        (msg.msgCmd.serviceCmdType = .restart → sveInfo.state ≠ .running))
    (done : (s.request msg env answers).result = .ok (t, mRlt)) :
    mRlt.resultStatus = .ok ∨ s.Over msg.msgCmd.label := by
  have branch := @request_branch s msg env answers
  generalize s.request msg env answers = out at branch done
  cases branch with
  | start start =>
    rw [start] at kind
    exact absurd kind (by decide)
  | query info =>
    rw [info] at kind
    exact absurd kind (by decide)
  | nothing _ missing => exact .inr (over_of_missing kept (missing kind))
  | dangling => cases done
  | ended | stop | pause | restart =>
    cases done
    exact .inl rfl
  | unpaused pause found live other =>
    have free := (careful _ _ live (found_label kept found live)).1 pause
    exact .inr (over_of_found kept found live fun active => active.elim other free)
  | unresumed restart found live other =>
    have free := (careful _ _ live (found_label kept found live)).2 restart
    exact .inr (over_of_found kept found live fun active => active.elim free other)

/-- The three answers other than OK are given about services that are not active. -/
theorem handled (kept : s.Kept labels) {label : UInt64} (about : About msg.msgCmd label)
    (careful : ∀ (p : UInt64) (sveInfo : ServiceInfo), s.heap[p]? = some sveInfo →
      sveInfo.label = msg.msgCmd.label →
        (msg.msgCmd.serviceCmdType = .pause → sveInfo.state ≠ .paused) ∧
        (msg.msgCmd.serviceCmdType = .restart → sveInfo.state ≠ .running) ∧
        (msg.msgCmd.serviceCmdType = .info → ¬ sveInfo.Active))
    (done : (s.request msg env answers).result = .ok (t, mRlt)) :
    mRlt.resultStatus = .ok ∨ s.Over label := by
  rw [← about.label]
  have fine (p : UInt64) (sveInfo : ServiceInfo) (held : s.heap[p]? = some sveInfo)
      (own : sveInfo.label = msg.msgCmd.label) :
      (msg.msgCmd.serviceCmdType = .pause → sveInfo.state ≠ .paused) ∧
        (msg.msgCmd.serviceCmdType = .restart → sveInfo.state ≠ .running) :=
    ⟨(careful p sveInfo held own).1, (careful p sveInfo held own).2.1⟩
  rcases about.kind with stop | pause | restart | ⟨info, _⟩
  · exact signal_answers kept (by rw [stop]; decide) fine done
  · exact signal_answers kept (by rw [pause]; decide) fine done
  · exact signal_answers kept (by rw [restart]; decide) fine done
  · exact .inr fun p sveInfo held own => (careful p sveInfo held own).2.2 info

end Handlers

/-! ### The run -/

theorem about_given {msg : SaceReaderMessage} {answers : StartAnswers} {label : UInt64}
    (about : About msg.msgCmd label) : given msg answers = [] := by
  apply if_neg
  rcases about.kind with kind | kind | kind | ⟨kind, _⟩ <;> rw [kind] <;> decide

theorem trusted_start : Trusted {} where
  kept := Kept.empty
  quiet _ := rfl
  checking _ none := nomatch none
  told _ member := nomatch member
  held _ none := nomatch none
  sent _ _ none := nomatch none
  answered _ _ none := nomatch none

/-- The server's own work changes nothing that the object relies on. -/
theorem Trusted.served {d : Controlled} (trusted : Trusted d) {t : SaceServiceExcutor}
    {told : List SaceStatusResponse} {labels : List UInt64}
    (kept : t.Kept (d.labels ++ labels))
    (lasts : ∀ l ∈ d.labels, d.service.Over l → t.Over l)
    (tells : ∀ response ∈ told, response ∈ d.told ∨
      response.label ∈ d.labels ∧ t.Over response.label) :
    Trusted { d with service := t, told, labels := d.labels ++ labels } where
  kept := kept
  quiet := trusted.quiet
  checking := trusted.checking
  told response member := by
    rcases tells response member with old | ⟨known, ended⟩
    · obtain ⟨known, ended⟩ := trusted.told response old
      exact ⟨List.mem_append_left _ known, lasts _ known ended⟩
    · exact ⟨List.mem_append_left _ known, ended⟩
  held obj here := by
    obtain ⟨known, fine⟩ := trusted.held obj here
    exact ⟨List.mem_append_left _ known, fine.imp id (lasts _ known)⟩
  sent := trusted.sent
  answered obj mRlt here back :=
    (trusted.answered obj mRlt here back).imp id (lasts _ (trusted.held obj here).1)

/-- The object that checkService returns is entered without an error, or its label is nobody's. -/
theorem Trusted.checked {d e : Controlled} (trusted : Trusted d) {c : Check} {stage : CheckStage}
    {mRlt : SaceResult} (under : d.checking = some (c, stage))
    (nobody : ∀ sve failed, stage = .start sve failed → mRlt.resultStatus ≠ .ok →
      d.service.Over sve.label)
    (moved : d.checked c stage mRlt = some e) : Trusted e := by
  have objless := trusted.checking _ under
  have idle := trusted.quiet objless
  have returns (sve : SaceServiceObj) (sender : Bool)
      (fine : sve.mError = .ok ∨ d.service.Over sve.label) :
      Trusted { d with
        checking := none, obj := some sve, sender, labels := d.labels ++ [sve.label] } := {
    kept := trusted.kept.wider (List.subset_append_left ..)
    quiet := fun none => nomatch none
    checking := fun _ none => nomatch none
    told := fun response member =>
      ⟨List.mem_append_left _ (trusted.told response member).1, (trusted.told response member).2⟩
    held := fun obj here => by
      cases here
      exact ⟨List.mem_append_right _ (List.mem_singleton.mpr rfl), fine⟩
    sent := fun _ _ _ sent => nomatch idle.symm.trans sent
    answered := fun _ _ _ back => nomatch idle.symm.trans back }
  obtain ⟨out, done, rfl⟩ := Option.map_eq_some_iff.mp moved
  have done := Traced.value_eq_some.mp done
  cases out with
  | asks next =>
    exact ⟨trusted.kept, trusted.quiet, fun _ _ => objless, trusted.told, trusted.held,
      trusted.sent, trusted.answered⟩
  | entered sve => exact returns sve true (.inl (Check.answered_entered done))
  | failed sve error =>
    obtain ⟨rfl, refused⟩ := Check.answered_failed done
    exact returns sve d.sender (.inr (nobody sve error rfl refused))

theorem answer_trusted {d e : Controlled} (trusted : Trusted d) {writer : SaceWriter}
    {client : SaceClientIdentifier} {env : ParseEnv} {answers : StartAnswers}
    (provided : Provided d (.answer writer client env answers))
    (careful : Careful d (.answer writer client env answers))
    (moved : step d (.answer writer client env answers) = some e) : Trusted e := by
  simp only [step] at moved
  split at moved
  · rename_i c stage mCmd under asks
    obtain ⟨⟨t, mRlt⟩, done, moved⟩ := Option.bind_eq_some_iff.mp moved
    have done := Traced.value_eq_some.mp done
    have new := (careful mCmd asks).1
    have kept := trusted.kept.change (provided mCmd asks) new (request_change done)
    have lasts : ∀ l ∈ d.labels, d.service.Over l → t.Over l := fun l known ended =>
      over_request known new done ended
    have served := trusted.served kept lasts fun _ member => .inl member
    refine served.checked under (fun sve failed at_start refused => ?_) moved
    subst at_start
    have start : mCmd.serviceCmdType = .start := by
      rw [asked, under] at asks
      obtain ⟨sent, found, rfl⟩ := Option.map_eq_some_iff.mp asks
      obtain ⟨cmd, _, rfl⟩ := Option.map_eq_some_iff.mp found
      rfl
    obtain ⟨unforked, rfl, _⟩ := (start_cases start done).resolve_right fun started =>
      refused (congrArg SaceResult.resultStatus started.2.2)
    intro p sveInfo held own
    have unused := (careful mCmd asks).2 c sve failed under unforked
    exact absurd (own ▸ trusted.kept.known p sveInfo held) unused
  · cases moved

theorem refuse_trusted {d e : Controlled} (trusted : Trusted d) (moved : step d .refuse = some e) :
    Trusted e := by
  simp only [step] at moved
  split at moved
  · rename_i c under
    obtain ⟨mCmd, _, moved⟩ := Option.bind_eq_some_iff.mp moved
    exact trusted.checked under (fun _ _ other => nomatch other) moved
  · cases moved

theorem handle_trusted {d e : Controlled} (trusted : Trusted d) {writer : SaceWriter}
    {client : SaceClientIdentifier} {env : ParseEnv} {answers : StartAnswers}
    (careful : Careful d (.handle writer client env answers))
    (moved : step d (.handle writer client env answers) = some e) : Trusted e := by
  simp only [step] at moved
  split at moved
  · rename_i mCmd sent
    obtain ⟨⟨t, mRlt⟩, done, rfl⟩ := Option.map_eq_some_iff.mp moved
    have done := Traced.value_eq_some.mp done
    cases here : d.obj with
    | none => cases (trusted.quiet here).symm.trans sent
    | some obj =>
      have about : About mCmd obj.label := trusted.sent obj mCmd here sent
      have none : given ⟨.service, mCmd, writer, client⟩ answers = [] := about_given about
      have new : ∀ l ∈ given ⟨.service, mCmd, writer, client⟩ answers, l ∉ d.labels := by
        rw [none]
        intro l member
        exact nomatch member
      have kept := trusted.kept.change (fun kind => ?_) new (request_change done)
      have lasts : ∀ l ∈ d.labels, d.service.Over l → t.Over l := fun l known ended =>
        over_request known new done ended
      rw [none, List.append_nil] at kept
      refine ⟨kept, fun objless => (nomatch objless),
        fun under check => (nomatch (trusted.checking under check).symm.trans here),
        fun response member => ?_, fun other same => ?_, fun _ _ _ none => (nomatch none),
        fun other result same back => ?_⟩
      · obtain ⟨known, ended⟩ := trusted.told response member
        exact ⟨known, lasts _ known ended⟩
      · cases same
        obtain ⟨known, fine⟩ := trusted.held obj here
        exact ⟨known, fine.imp id (lasts _ known)⟩
      · cases same
        cases back
        exact (handled trusted.kept about (careful mCmd sent) done).imp id
          (lasts _ (trusted.held obj here).1)
      · rcases about.kind with other | other | other | ⟨other, _⟩ <;>
          exact absurd (kind.symm.trans other) (by decide)
  · cases moved

theorem call_trusted {d e : Controlled} (trusted : Trusted d) {op : Operation} {own : Str}
    {sequence : UInt32} (moved : step d (.call op own sequence) = some e) : Trusted e := by
  simp only [step] at moved
  split at moved
  · rename_i obj here idle
    split at moved
    · cases moved
      exact trusted
    · cases moved
      exact trusted
    · rename_i mCmd sends
      split at moved
      · cases moved
        refine ⟨trusted.kept, fun none => ?_, trusted.checking, trusted.told, trusted.held,
          fun other sent same call => ?_, fun _ _ _ none => (by cases none)⟩
        · cases here.symm.trans none
        · cases here.symm.trans same
          cases call
          exact command_about sends
      · cases moved
  · cases moved

theorem reply_trusted {d e : Controlled} (trusted : Trusted d) (moved : step d .reply = some e) :
    Trusted e := by
  simp only [step] at moved
  split at moved
  · rename_i obj mRlt here back
    cases moved
    refine ⟨trusted.kept, fun _ => rfl,
      fun under check => (nomatch (trusted.checking under check).symm.trans here), trusted.told,
      fun after same => ?_, fun _ _ _ none => (by cases none), fun _ _ _ none => (by cases none)⟩
    cases same
    refine ⟨(trusted.held obj here).1, ?_⟩
    rcases trusted.answered obj mRlt here back with ok | ended
    · exact .inl (by simp [operated, resultToError, ok])
    · exact .inr ended
  · cases moved

theorem hear_trusted {d e : Controlled} (trusted : Trusted d) {i : Nat}
    (moved : step d (.hear i) = some e) : Trusted e := by
  simp only [step] at moved
  split at moved
  · rename_i obj response here found
    cases moved
    obtain ⟨known, fine⟩ := trusted.held obj here
    refine ⟨trusted.kept, fun none => (by cases none),
      fun under check => (nomatch (trusted.checking under check).symm.trans here),
      fun other member => ?_, fun after same => ?_, fun after mCmd same sent => ?_,
      fun after mRlt same back => ?_⟩
    · exact trusted.told other (List.mem_of_mem_eraseIdx member)
    · cases same
      split
      · rename_i label
        have ended := (trusted.told response (List.mem_of_getElem? found)).2
        exact ⟨known, .inr (label ▸ ended)⟩
      · exact ⟨known, fine⟩
    · cases same
      have about := trusted.sent obj mCmd here sent
      split <;> exact about
    · cases same
      have fine := trusted.answered obj mRlt here back
      split <;> exact fine
  · cases moved

theorem step_trusted {d e : Controlled} (trusted : Trusted d) {input : Input}
    (provided : Provided d input) (careful : Careful d input) (moved : step d input = some e) :
    Trusted e := by
  cases input with
  | serve task =>
    obtain ⟨t, done, rfl⟩ := Option.map_eq_some_iff.mp moved
    obtain ⟨kept, lasts, tells⟩ :=
      trusted.kept.worked provided careful (Traced.value_eq_some.mp done)
    refine trusted.served kept lasts fun response member => ?_
    exact (List.mem_append.mp member).imp id (tells response)
  | check c =>
    simp only [step] at moved
    split at moved
    · cases moved
    · rename_i free
      cases moved
      have objless : d.obj = none := by
        simp only [Bool.or_eq_true, not_or, Option.not_isSome_iff_eq_none] at free
        exact free.1
      exact ⟨trusted.kept, trusted.quiet, fun _ _ => objless, trusted.told, trusted.held,
        trusted.sent, trusted.answered⟩
  | refuse => exact refuse_trusted trusted moved
  | answer writer client env answers => exact answer_trusted trusted provided careful moved
  | call op own sequence => exact call_trusted trusted moved
  | handle writer client env answers => exact handle_trusted trusted careful moved
  | reply => exact reply_trusted trusted moved
  | hear i => exact hear_trusted trusted moved

/-- In careful runs the object of a service that is RUNNING or PAUSED refuses no call. -/
theorem reached_controls {d : Controlled}
    (reached : Runs.Reached step (fun d input => Provided d input ∧ Careful d input) {} d)
    {obj : SaceServiceObj} (held : d.obj = some obj) {p : UInt64} {sveInfo : ServiceInfo}
    (live : d.service.heap[p]? = some sveInfo) (label : sveInfo.label = obj.label)
    (active : sveInfo.state = .running ∨ sveInfo.state = .paused) :
    (obj.mError ≠ .exit ∧ obj.mError ≠ .exitUser) ∧
      ∀ op own sequence, ∃ mCmd, Operation.command op own sequence obj = .ok mCmd := by
  have trusted : Trusted d := reached.invariant trusted_start
    fun d input e trusted allowed moved => step_trusted trusted allowed.1 allowed.2 moved
  have fine : obj.mError = .ok := (trusted.held obj held).2.resolve_right
    fun ended => ended p sveInfo live label active
  exact ⟨by simp [fine], command_of_ok fine⟩

/-! checkService starts a service, and the object is used while it runs. -/

def svcCheck : Check :=
  { own := str "200:200"
    sequence := fun i => UInt32.ofNat (5 + i)
    info := fun _ => []
    name := str "svc"
    cmd := some (str "sleep 1")
    param := none }

def svcMsg : SaceReaderMessage :=
  { msgHandler := .service
    msgCmd := SaceManager.checkServiceCmd (str "200:200") 7 (str "svc") (str "sleep 1") none
    msgWriter := ⟨.socket 5, 200⟩
    msgClient := ⟨1000, 200⟩ }

def svcInfo : ServiceInfo := newService svcMsg.msgCmd svcMsg.msgWriter forked

def svcObj : SaceServiceObj := ⟨svcInfo.label, str "svc", str "sleep 1", .ok⟩

def svcStarted : Controlled :=
  { service := ({} : SaceServiceExcutor).add 16 svcInfo
    obj := some svcObj
    sender := true
    labels := [svcInfo.label, svcInfo.label] }

def pauseCmd : SaceCommand :=
  { SaceCommand.init (str "200:200") 8 with
    label := svcInfo.label
    sequence := labelToSequence svcInfo.label
    type := .service
    subType := SaceServiceCommandType.pause.byte }

def svcMissed : SaceServiceObj :=
  { name := str "svc", command := str "svc", label := sequenceToLabel 6 0, mError := .exitUser }

/-- Both queries fail, and the START succeeds. -/
theorem svc_started :
    Runs.Reached step (fun d input => Provided d input ∧ Careful d input) {} svcStarted := by
  let answer : Input := .answer ⟨.socket 5, 200⟩ ⟨1000, 200⟩ .empty forked
  have unstarted (d : Controlled) (nothing : d.service.heap = ∅) (unnamed : d.labels = []) :
      Provided d answer ∧ Careful d answer := by
    refine ⟨fun _ _ _ => ?_, fun _ _ => ⟨fun _ _ => ?_, fun _ _ _ _ _ => ?_⟩⟩
    · rw [nothing]
      decide
    · rw [unnamed]
      exact List.not_mem_nil
    · rw [unnamed]
      exact List.not_mem_nil
  have called : Runs.Reached step (fun d input => Provided d input ∧ Careful d input) {}
      { checking := some (svcCheck, .normal) } :=
    Runs.Reached.start.next (a := Input.check svcCheck) ⟨trivial, trivial⟩ (by rfl)
  have unfound := called.next (t := { checking := some (svcCheck, .event) }) (a := answer)
    (unstarted _ rfl rfl) (by rfl)
  have missed := unfound.next (a := Input.refuse)
    (t := { checking := some (svcCheck, .start svcMissed (fun none => nomatch none)) })
    ⟨trivial, trivial⟩ (by rfl)
  exact missed.next (a := answer) (unstarted _ rfl rfl) (by rfl)

theorem svc_paused_controls : ∃ d obj, Runs.run step svcStarted
      [.call .pause (str "200:200") 8, .handle ⟨.socket 5, 200⟩ ⟨1000, 200⟩ .empty forked,
        .reply] = some d ∧ d.obj = some obj ∧
    (obj.mError ≠ .exit ∧ obj.mError ≠ .exitUser) ∧
      ∀ op own sequence, ∃ mCmd, Operation.command op own sequence obj = .ok mCmd := by
  let asked : Controlled := { svcStarted with call := some (.sent pauseCmd) }
  have second := svc_started.next (t := asked) (a := Input.call .pause (str "200:200") 8)
    ⟨trivial, trivial⟩ (by rfl)
  let paused : SaceServiceExcutor := svcStarted.service.store 16 { svcInfo with state := .paused }
  let back : Controlled :=
    { asked with
      service := paused
      call := some (.answered { initialResult pauseCmd with resultStatus := .ok }) }
  have third := second.next (t := back)
    (a := Input.handle ⟨.socket 5, 200⟩ ⟨1000, 200⟩ .empty forked) ⟨trivial, ?_⟩ (by rfl)
  · have last := third.next (t := { back with call := none }) (a := Input.reply)
      ⟨trivial, trivial⟩ (by rfl)
    have live : paused.heap[(16 : UInt64)]? = some { svcInfo with state := .paused } := by
      simp [paused, store]
    exact ⟨_, svcObj, by rfl, rfl, reached_controls last rfl live rfl (.inr rfl)⟩
  · intro mCmd sent p sveInfo live label
    cases sent
    rcases (Table.insert_some ..).mp live with ⟨_, rfl⟩ | ⟨_, live⟩
    · decide
    · simp at live

/-- getState on a service that is RUNNING: the object is told that it has ended. -/
theorem asked_state_refuses : ¬ ∀ (d : Controlled) (obj : SaceServiceObj),
    Runs.Reached step Provided {} d → d.obj = some obj →
      ∀ (p : UInt64) (sveInfo : ServiceInfo), d.service.heap[p]? = some sveInfo →
        sveInfo.label = obj.label → sveInfo.state = .running ∨ sveInfo.state = .paused →
          obj.mError ≠ .exit ∧ obj.mError ≠ .exitUser := by
  intro untold
  let inputs : List Input := [.call .getState (str "200:200") 8,
    .handle ⟨.socket 5, 200⟩ ⟨1000, 200⟩ .empty forked, .reply]
  have last : (Runs.run step svcStarted inputs).map
      (fun d => (d.obj, d.service.heap[(16 : UInt64)]?)) =
        some (some { svcObj with mError := .exitUser }, some svcInfo) := by rfl
  obtain ⟨d, ran, eq⟩ := Option.map_eq_some_iff.mp last
  simp only [Prod.mk.injEq] at eq
  have admitted : Runs.Admitted step Provided svcStarted inputs :=
    ⟨trivial, fun _ _ => ⟨trivial, fun _ _ => ⟨trivial, fun _ _ => trivial⟩⟩⟩
  have reached := (svc_started.weaken fun _ _ both => both.1).trans (Runs.run_reached admitted ran)
  exact (untold d _ reached eq.1 16 svcInfo eq.2 rfl (.inl rfl)).2 rfl

end Controlled
end Sace
