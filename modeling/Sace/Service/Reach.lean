import Sace.Service.Monitor

/-! Runs of the service executor: requests and monitor passes in any order. -/
namespace Sace.SaceServiceExcutor

/-! ### Entries own their objects -/

/-- Every table entry leads to a live object that carries the entry's key. Unlike
`TablesAgree` this survives every step, a second listing of a service included. -/
structure Owned (s : SaceServiceExcutor) : Prop where
  seq : ∀ l p : UInt64, s.mSeqService[l]? = some p →
    ∃ sveInfo, s.heap[p]? = some sveInfo ∧ sveInfo.label = l
  names : ∀ (n : Str) (p : UInt64), s.mNameService[n]? = some p →
    ∃ sveInfo, s.heap[p]? = some sveInfo ∧ sveInfo.name = n

theorem TablesAgree.owned {s : SaceServiceExcutor} (agree : TablesAgree s) : Owned s where
  seq l p found := by
    obtain ⟨sveInfo, live⟩ := agree.held (agree.seq_listed found)
    exact ⟨sveInfo, live, agree.seqKey l p sveInfo found live⟩
  names n p found := by
    obtain ⟨sveInfo, live⟩ := agree.held (agree.name_listed found)
    exact ⟨sveInfo, live, agree.nameKey n p sveInfo found live⟩

/-- The only copy of a request is that of a START: its command has to fit. -/
def Fits (s : SaceServiceExcutor) (msg : SaceReaderMessage) : Prop :=
  msg.msgCmd.serviceCmdType = .start → msg.msgCmd.name ∉ s.mNameService →
    msg.msgCmd.command.length ≤ CMD_BUFFER_LEN

instance (s : SaceServiceExcutor) (msg : SaceReaderMessage) : Decidable (s.Fits msg) :=
  inferInstanceAs (Decidable (_ → _ → _))

theorem start_completes {s : SaceServiceExcutor} {saceCmd : SaceCommand} {writer : SaceWriter}
    {env : ParseEnv} {answers : StartAnswers} {result : SaceResult} :
    (∃ out, (s.startService saceCmd writer env answers result).result = .ok out) ↔
      (saceCmd.name ∉ s.mNameService → saceCmd.command.length ≤ CMD_BUFFER_LEN) := by
  by_cases taken : saceCmd.name ∈ s.mNameService
  · simp [startService_taken taken, taken]
  · rw [startService_free taken]
    by_cases fits : saceCmd.command.length ≤ CMD_BUFFER_LEN
    · simp only [memcpyString_of_le fits, taken, fits, not_false_eq_true, forall_const, iff_true]
      by_cases forked : 0 < answers.fork
      · simp only [forked, if_true, Traced.emit_then, Traced.pure_result]
        exact ⟨_, rfl⟩
      · simp only [forked, if_false]
        exact ⟨_, rfl⟩
    · rw [memcpyString_of_lt (Nat.lt_of_not_le fits), Traced.bind_of_error rfl]
      simp [taken, fits]

/-- A request over owned tables faults only in the copy of a START. -/
theorem request_completes {s : SaceServiceExcutor} (owned : Owned s) {msg : SaceReaderMessage}
    {env : ParseEnv} {answers : StartAnswers} :
    (∃ out, (s.request msg env answers).result = .ok out) ↔ s.Fits msg := by
  have branch := @request_branch s msg env answers
  generalize s.request msg env answers = out at branch ⊢
  by_cases kind : msg.msgCmd.serviceCmdType = .start
  · cases branch with
    | start => simp only [start_completes, Fits, kind, forall_const]
    | nothing unstarted | dangling unstarted => exact absurd kind unstarted
    | ended other | stop other | unpaused other | pause other | unresumed other | restart other
    | query other =>
      rw [kind] at other
      exact absurd other (by decide)
  · refine iff_of_true ?_ fun start => absurd start kind
    cases branch with
    | start start => exact absurd start kind
    | dangling _ found dead =>
      rcases found with found | found
      · obtain ⟨sveInfo, live, _⟩ := owned.seq _ _ found
        rw [dead] at live
        cases live
      · obtain ⟨sveInfo, live, _⟩ := owned.names _ _ found
        rw [dead] at live
        cases live
    | nothing | ended | stop | unpaused | pause | unresumed | restart | query => exact ⟨_, rfl⟩

/-! ### Requests and passes keep the entries owned -/

theorem Owned.empty : Owned {} where
  seq l p found := by simp at found
  names n p found := by simp at found

theorem Owned.same {s t : SaceServiceExcutor} (owned : Owned s) (objects : SameObjects s t) :
    Owned t where
  seq l p found := by
    rw [objects.seq] at found
    obtain ⟨before, live, label⟩ := owned.seq l p found
    obtain ⟨after, held, identity⟩ := objects.forth live
    exact ⟨after, held, (congrArg Prod.fst identity).trans label⟩
  names n p found := by
    rw [objects.names] at found
    obtain ⟨before, live, name⟩ := owned.names n p found
    obtain ⟨after, held, identity⟩ := objects.forth live
    exact ⟨after, held, (congrArg (fun parts => parts.2.1) identity).trans name⟩

theorem Owned.stored {s : SaceServiceExcutor} (owned : Owned s) {p : UInt64}
    {before after : ServiceInfo} (live : s.heap[p]? = some before)
    (label : after.label = before.label) (name : after.name = before.name) :
    Owned (s.store p after) where
  seq l q found := by
    obtain ⟨sveInfo, held, key⟩ := owned.seq l q found
    by_cases here : p = q
    · subst here
      cases held.symm.trans live
      exact ⟨after, by simp [store], label.trans key⟩
    · exact ⟨sveInfo, (Table.insert_some ..).mpr (.inr ⟨here, held⟩), key⟩
  names n q found := by
    obtain ⟨sveInfo, held, key⟩ := owned.names n q found
    by_cases here : p = q
    · subst here
      cases held.symm.trans live
      exact ⟨after, by simp [store], name.trans key⟩
    · exact ⟨sveInfo, (Table.insert_some ..).mpr (.inr ⟨here, held⟩), key⟩

theorem Owned.added {s : SaceServiceExcutor} (owned : Owned s) {p : UInt64}
    {sveInfo : ServiceInfo} (fresh : p ∉ s.heap) (free : sveInfo.name ∉ s.mNameService) :
    Owned (s.add p sveInfo) where
  seq l q found := by
    have elsewhere : ∀ old : UInt64, old ∈ s.heap → p ≠ old :=
      fun old there here => fresh (here ▸ there)
    have kept : s.mSeqService[l]? = some q → ∃ info,
        (s.add p sveInfo).heap[q]? = some info ∧ info.label = l := fun old => by
      obtain ⟨info, held, key⟩ := owned.seq l q old
      have there : q ∈ s.heap := Table.mem_of_some held
      exact ⟨info, (Table.insert_some ..).mpr (.inr ⟨elsewhere q there, held⟩), key⟩
    cases taken : s.mSeqService[sveInfo.label]? with
    | none =>
      rcases (Table.insertIfNew_some taken l p q).mp found with ⟨rfl, rfl⟩ | old
      · exact ⟨sveInfo, by simp [add], rfl⟩
      · exact kept old
    | some other =>
      have there : sveInfo.label ∈ s.mSeqService :=
        Table.mem_of_some taken
      apply kept
      simp only [add, Std.ExtTreeMap.getElem?_insertIfNew, there, not_true_eq_false, and_false,
        if_false] at found
      exact found
  names n q found := by
    have new : s.mNameService[sveInfo.name]? = none := Std.ExtTreeMap.getElem?_eq_none free
    rcases (Table.insertIfNew_some new n p q).mp found with ⟨rfl, rfl⟩ | old
    · exact ⟨sveInfo, by simp [add], rfl⟩
    · obtain ⟨info, held, key⟩ := owned.names n q old
      have elsewhere : p ≠ q := by
        rintro rfl
        exact fresh (Table.mem_of_some held)
      exact ⟨info, (Table.insert_some ..).mpr (.inr ⟨elsewhere, held⟩), key⟩

theorem Owned.removed {s : SaceServiceExcutor} (owned : Owned s) {i : Nat} {p : UInt64}
    {sveInfo : ServiceInfo} (live : s.heap[p]? = some sveInfo) : Owned (s.remove i p sveInfo) where
  seq l q found := by
    obtain ⟨other, old⟩ := (Table.erase_some ..).mp found
    obtain ⟨info, held, key⟩ := owned.seq l q old
    refine ⟨info, (Table.erase_some ..).mpr ⟨?_, held⟩, key⟩
    rintro rfl
    cases held.symm.trans live
    exact other key
  names n q found := by
    obtain ⟨other, old⟩ := (Table.erase_some ..).mp found
    obtain ⟨info, held, key⟩ := owned.names n q old
    refine ⟨info, (Table.erase_some ..).mpr ⟨?_, held⟩, key⟩
    rintro rfl
    cases held.symm.trans live
    exact other key

theorem addWriter_identity (sveInfo : ServiceInfo) (wr : SaceWriter) :
    (sveInfo.addWriter wr).label = sveInfo.label ∧ (sveInfo.addWriter wr).name = sveInfo.name := by
  unfold ServiceInfo.addWriter
  split <;> exact ⟨rfl, rfl⟩

theorem newService_name (saceCmd : SaceCommand) (writer : SaceWriter) (answers : StartAnswers) :
    (newService saceCmd writer answers).name = saceCmd.name := (addWriter_identity _ _).2

theorem newService_label (saceCmd : SaceCommand) (writer : SaceWriter) (answers : StartAnswers) :
    (newService saceCmd writer answers).label =
      sequenceToLabel saceCmd.sequence answers.address := (addWriter_identity _ _).1

theorem Owned.change {s t : SaceServiceExcutor} {msg : SaceReaderMessage}
    {answers : StartAnswers} {result : SaceResult} (owned : Owned s)
    (fresh : msg.msgCmd.serviceCmdType = .start → answers.address ∉ s.heap)
    (change : Change s msg answers t result) : Owned t := by
  cases change with
  | same status => exact owned
  | start kind new forked =>
    exact owned.added (fresh kind) (by rwa [newService_name])
  | restate state live => exact owned.stored live rfl rfl
  | @restart p sveInfo kind found live paused =>
    have stored : Owned (s.store p { sveInfo with state := .running }) :=
      owned.stored live rfl rfl
    exact ⟨stored.seq, stored.names⟩
  | query kind found live =>
    exact owned.stored live (addWriter_identity _ _).1 (addWriter_identity _ _).2

theorem Owned.collected {gc : List Nat} {s t : SaceServiceExcutor} (owned : Owned s)
    (done : (collectLoop gc s).result = .ok t) : Owned t := by
  induction gc generalizing s with
  | nil =>
    cases done
    exact owned
  | cons i gc ih =>
    unfold collectLoop at done
    split at done
    · cases done
    · obtain ⟨sveInfo, live, rest⟩ := Traced.bind_ok.mp done
      exact ih (owned.removed (deref_ok.mp live)) rest

theorem Owned.monitored {s t : SaceServiceExcutor} {wait : Nat → WaitAnswer} (owned : Owned s)
    (done : (s.monitorServiceStatus wait).result = .ok t) : Owned t := by
  simp only [monitorServiceStatus, Traced.bind_ok, Prod.exists] at done
  obtain ⟨polled, gc, loop, collected⟩ := done
  exact (owned.same (pollLoop_same loop)).collected collected

/-! ### The run -/

/-- What the environment supplies to one step. `excuteNormal` takes both steps, one after
the other; the timer takes the second alone. -/
inductive Input where
  | request (msg : SaceReaderMessage) (env : ParseEnv) (answers : StartAnswers)
  | monitor (wait : Nat → WaitAnswer)

def step (s : SaceServiceExcutor) : Input → Option SaceServiceExcutor
  | .request msg env answers => (s.request msg env answers).value.map Prod.fst
  | .monitor wait => (s.monitorServiceStatus wait).value

theorem excuteNormal_steps {s t : SaceServiceExcutor} {msg : SaceReaderMessage} {env : ParseEnv}
    {answers : StartAnswers} {wait : Nat → WaitAnswer} :
    (s.excuteNormal msg env answers wait).value = some t ↔
      Runs.run step s [.request msg env answers, .monitor wait] = some t := by
  simp only [excuteNormal, Traced.value_eq_some, Traced.bind_ok, Traced.emit_then, Runs.run, step,
    Option.bind_eq_some_iff, Option.map_eq_some_iff, Prod.exists, Option.some.injEq]
  constructor
  · rintro ⟨u, result, requested, passed⟩
    exact ⟨u, ⟨u, result, requested, rfl⟩, t, passed, rfl⟩
  · rintro ⟨u, ⟨_, result, requested, rfl⟩, _, passed, rfl⟩
    exact ⟨_, result, requested, passed⟩

/-- The allocator answers with an unused address, and a START gets a label that no live
service holds. -/
def Provided (s : SaceServiceExcutor) : Input → Prop
  | .request msg _ answers => msg.msgCmd.serviceCmdType = .start →
      answers.address ∉ s.heap ∧ ∀ (p : UInt64) (sveInfo : ServiceInfo),
        s.heap[p]? = some sveInfo →
          sveInfo.label ≠ (newService msg.msgCmd msg.msgWriter answers).label
  | .monitor _ => True

/-- A RESTART finds its service in a state other than PAUSED, a START that is not refused
has a command that fits, and no saved position overruns the vector. -/
def Careful (s : SaceServiceExcutor) : Input → Prop
  | .request msg _ _ => s.Fits msg ∧
      (msg.msgCmd.serviceCmdType = .restart → ∀ (p : UInt64) (sveInfo : ServiceInfo),
        s.mSeqService[msg.msgCmd.label]? = some p → s.heap[p]? = some sveInfo →
          sveInfo.state ≠ .paused)
  | .monitor wait => Erasure.Inside (s.endedPositions wait) s.mRunningService.length

instance (s : SaceServiceExcutor) : (input : Input) → Decidable (s.Provided input)
  | .request msg _ answers =>
    have := Table.decidableForall s.heap fun _ sveInfo =>
      sveInfo.label ≠ (newService msg.msgCmd msg.msgWriter answers).label
    inferInstanceAs (Decidable (_ → _ ∧ _))
  | .monitor _ => inferInstanceAs (Decidable True)

instance (s : SaceServiceExcutor) : (input : Input) → Decidable (s.Careful input)
  | .request msg _ _ =>
    have : Decidable (∀ (p : UInt64) (sveInfo : ServiceInfo),
        s.mSeqService[msg.msgCmd.label]? = some p → s.heap[p]? = some sveInfo →
          sveInfo.state ≠ .paused) :=
      decidable_of_iff (∀ sveInfo ∈ (s.mSeqService[msg.msgCmd.label]?).bind (s.heap[·]?),
        sveInfo.state ≠ .paused) <| by
        simp only [Option.mem_def, Option.bind_eq_some_iff, forall_exists_index, and_imp]
        exact forall_comm
    inferInstanceAs (Decidable (_ ∧ (_ → _)))
  | .monitor wait => inferInstanceAs (Decidable (Erasure.Inside _ _))

theorem step_request {s t : SaceServiceExcutor} {msg : SaceReaderMessage} {env : ParseEnv}
    {answers : StartAnswers} :
    step s (.request msg env answers) = some t ↔
      ∃ result, (s.request msg env answers).result = .ok (t, result) := by
  simp [step, Option.map_eq_some_iff, Traced.value_eq_some]

theorem TablesAgree.stored {s : SaceServiceExcutor} (agree : TablesAgree s) {p : UInt64}
    {before after : ServiceInfo} (live : s.heap[p]? = some before)
    (label : after.label = before.label) (name : after.name = before.name) :
    TablesAgree (s.store p after) where
  distinct := agree.distinct
  live q listed := Std.ExtTreeMap.mem_insert.mpr (Or.inr (agree.live q listed))
  seqValues := agree.seqValues
  nameValues := agree.nameValues
  seqKey l q sveInfo found held := by
    rcases (Table.insert_some ..).mp held with ⟨rfl, rfl⟩ | ⟨_, held⟩
    · exact label.trans (agree.seqKey l p before found live)
    · exact agree.seqKey l q sveInfo found held
  nameKey n q sveInfo found held := by
    rcases (Table.insert_some ..).mp held with ⟨rfl, rfl⟩ | ⟨_, held⟩
    · exact name.trans (agree.nameKey n p before found live)
    · exact agree.nameKey n q sveInfo found held

theorem change_agrees {s t : SaceServiceExcutor} {msg : SaceReaderMessage} {env : ParseEnv}
    {answers : StartAnswers} (agree : TablesAgree s)
    (provided : s.Provided (.request msg env answers))
    (careful : s.Careful (.request msg env answers)) {result : SaceResult}
    (change : Change s msg answers t result) :
    TablesAgree t := by
  cases change with
  | same status => exact agree
  | start kind new forked =>
    obtain ⟨fresh, unheld⟩ := provided kind
    refine agree.added fresh (fun taken => ?_) ?_
    · obtain ⟨p, found⟩ := Table.some_of_mem taken
      obtain ⟨sveInfo, live, label⟩ := agree.owned.seq _ p found
      exact unheld p sveInfo live label
    · rwa [newService_name]
  | restate state live => exact agree.stored live rfl rfl
  | restart kind found live paused => exact absurd paused (careful.2 kind _ _ found live)
  | query kind found live =>
    exact agree.stored live (addWriter_identity _ _).1 (addWriter_identity _ _).2

/-- A RESTART of a paused service lists it a second time. -/
theorem restart_repeats {s : SaceServiceExcutor} (agree : TablesAgree s)
    {msg : SaceReaderMessage} {env : ParseEnv} {answers : StartAnswers} {p : UInt64}
    {sveInfo : ServiceInfo} (kind : msg.msgCmd.serviceCmdType = .restart)
    (found : s.mSeqService[msg.msgCmd.label]? = some p) (live : s.heap[p]? = some sveInfo)
    (paused : sveInfo.state = .paused) {t : SaceServiceExcutor}
    (moved : step s (.request msg env answers) = some t) : ¬ TablesAgree t := by
  obtain ⟨result, done⟩ := step_request.mp moved
  have branch : s.request msg env answers =
      s.restartService msg.msgCmd (initialResult msg.msgCmd) := by
    simp [request, kind, SaceServiceCommandType.restart, SaceServiceCommandType.start,
      SaceServiceCommandType.stop, SaceServiceCommandType.pause]
  rw [branch] at done
  simp only [restartService, found, deref_of_live live, Traced.pure_then, paused, if_true,
    Traced.emit_then, Traced.pure_result, Except.ok.injEq, Prod.mk.injEq] at done
  obtain ⟨rfl, _⟩ := done
  intro agreeT
  have twice := agreeT.distinct
  simp only [store, List.nodup_append] at twice
  exact twice.2.2 p (agree.seq_listed found) p (List.mem_singleton.mpr rfl) rfl

/-- From agreeing indexes, a step goes on and keeps them agreeing exactly when it is careful. -/
theorem step_agrees_iff {s : SaceServiceExcutor} (agree : TablesAgree s) {input : Input}
    (provided : s.Provided input) :
    (∃ t, step s input = some t ∧ TablesAgree t) ↔ s.Careful input := by
  cases input with
  | request msg env answers =>
    constructor
    · rintro ⟨t, moved, agreeT⟩
      obtain ⟨result, done⟩ := step_request.mp moved
      refine ⟨(request_completes agree.owned).mp ⟨_, done⟩,
        fun kind p sveInfo found live paused => ?_⟩
      exact restart_repeats agree kind found live paused moved agreeT
    · intro careful
      obtain ⟨⟨t, result⟩, done⟩ : ∃ out, (s.request msg env answers).result = .ok out :=
        (request_completes agree.owned).mpr careful.1
      exact ⟨t, step_request.mpr ⟨result, done⟩,
        change_agrees agree provided careful (request_change done)⟩
  | monitor wait =>
    simp only [step, Careful, Traced.value_eq_some, ← Erasure.eraseSaved_isSome_iff]
    constructor
    · rintro ⟨t, done, _⟩
      cases hit : Erasure.eraseSaved (s.endedPositions wait) s.mRunningService with
      | none => cases (monitor_stops agree hit).symm.trans done
      | some out => rfl
    · intro inside
      obtain ⟨out, hit⟩ := Option.isSome_iff_exists.mp inside
      obtain ⟨_, t, _, _, agreeT, done⟩ := monitor_erases agree hit
      exact ⟨t, done, agreeT⟩

/-- Runs of careful steps keep the three indexes in agreement, and none of their steps
breaks off. -/
theorem reached_agrees {s : SaceServiceExcutor}
    (reached : Runs.Reached step (fun s input => s.Provided input ∧ s.Careful input) {} s) :
    TablesAgree s ∧ ∀ input, s.Provided input → s.Careful input → (step s input).isSome := by
  have agree : TablesAgree s := by
    apply reached.invariant empty_agrees
    intro s input t agree allowed moved
    obtain ⟨u, moved', agreeU⟩ := (step_agrees_iff agree allowed.1).mpr allowed.2
    cases moved.symm.trans moved'
    exact agreeU
  refine ⟨agree, fun input provided careful => ?_⟩
  obtain ⟨t, moved, _⟩ := (step_agrees_iff agree provided).mpr careful
  exact Option.isSome_iff_exists.mpr ⟨t, moved⟩

/-! A client starts a service, pauses it and restarts it. -/

def clientMsg (subType : SaceServiceCommandType) (label : UInt64) : SaceReaderMessage :=
  { msgHandler := .service
    msgCmd :=
      { type := .service, sequence := 7, label, name := str "svc", command := str "sleep 1"
        subType := subType.byte }
    msgWriter := ⟨.socket 5, 200⟩
    msgClient := ⟨1000, 200⟩ }

def forked : StartAnswers := { address := 16, fork := 300, localtime := str "2026_0101_000000" }

/-- Two services are started and the first is paused; the second ends. -/
def secondEnds : List Input :=
  let second : SaceReaderMessage :=
    { clientMsg .start 0 with
      msgCmd := { (clientMsg .start 0).msgCmd with sequence := 8, name := str "db" } }
  [.request (clientMsg .start 0) .empty forked, .monitor fun _ => .running,
    .request second .empty { forked with address := 32, fork := 301 }, .monitor fun _ => .running,
    .request (clientMsg .pause (sequenceToLabel 7 16)) .empty forked,
    .monitor fun i => if i = 1 then .reaped 0 else .running]

theorem secondEnds_agrees : ∃ s, Runs.run step {} secondEnds = some s ∧
    s.mRunningService = [16] ∧ TablesAgree s ∧
    ∀ input, s.Provided input → s.Careful input → (step s input).isSome := by
  have last : (Runs.run step {} secondEnds).map (·.mRunningService) = some [16] := by
    decide +kernel
  have admitted : Runs.Admitted step (fun s input => s.Provided input ∧ s.Careful input) {}
      secondEnds := by
    decide +kernel
  obtain ⟨s, ran, listed⟩ := Option.map_eq_some_iff.mp last
  exact ⟨s, ran, listed, reached_agrees (Runs.run_reached admitted ran)⟩

/-- START, PAUSE and RESTART, each followed by its monitor pass. -/
def pauseAndRestart : List Input :=
  [.request (clientMsg .start 0) .empty forked, .monitor fun _ => .running,
    .request (clientMsg .pause (sequenceToLabel 7 16)) .empty forked, .monitor fun _ => .running,
    .request (clientMsg .restart (sequenceToLabel 7 16)) .empty forked,
    .monitor fun _ => .running]

theorem restart_disagrees :
    ¬ ∀ s, Runs.Reached step Provided {} s → TablesAgree s := by
  intro agrees
  have last : (Runs.run step {} pauseAndRestart).map (·.mRunningService) = some [16, 16] := by
    decide +kernel
  have admitted : Runs.Admitted step Provided {} pauseAndRestart := by decide +kernel
  obtain ⟨s, ran, twice⟩ := Option.map_eq_some_iff.mp last
  have distinct := (agrees s (Runs.run_reached admitted ran)).distinct
  rw [twice] at distinct
  exact absurd distinct (by decide)

end Sace.SaceServiceExcutor
