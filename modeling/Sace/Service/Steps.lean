import Sace.Service.Excutor

/-! What a request and a monitor pass of the service executor can do to its state. -/
namespace Sace

def ServiceInfo.Active (sveInfo : ServiceInfo) : Prop :=
  sveInfo.state = .running ∨ sveInfo.state = .paused

instance (sveInfo : ServiceInfo) : Decidable sveInfo.Active :=
  inferInstanceAs (Decidable (_ ∨ _))

namespace SaceServiceExcutor

theorem deref_of_live {s : SaceServiceExcutor} {p : UInt64} {sveInfo : ServiceInfo}
    (live : s.heap[p]? = some sveInfo) : s.deref p = pure sveInfo := by
  simp only [deref, live]

theorem deref_ok {s : SaceServiceExcutor} {p : UInt64} {sveInfo : ServiceInfo} :
    (s.deref p).result = .ok sveInfo ↔ s.heap[p]? = some sveInfo := by
  unfold deref
  cases s.heap[p]? <;> simp

@[simp] theorem deref_trace (s : SaceServiceExcutor) (p : UInt64) : (s.deref p).trace = [] := by
  unfold deref
  cases s.heap[p]? <;> rfl

def startedResult (saceCmd : SaceCommand) (sveInfo : ServiceInfo) : SaceResult :=
  { initialResult saceCmd with
    resultStatus := .ok
    resultType := .none
    label := sveInfo.label
    resultExtra := Bytes.littleEndian 8 sveInfo.label.toNat
    resultExtraLen := 8 }

def infoResult (saceCmd : SaceCommand) (sveInfo : ServiceInfo) : SaceResult :=
  { initialResult saceCmd with
    resultExtra := sveInfo.infoBytes.take EXTRA_BUFER_LEN
    resultExtraLen := UInt32.ofNat (sveInfo.infoBytes.take EXTRA_BUFER_LEN).length
    resultStatus := .ok
    resultType := .extra }

inductive Change (s : SaceServiceExcutor) (msg : SaceReaderMessage) (answers : StartAnswers) :
    SaceServiceExcutor → SaceResult → Prop
  | same (status : SaceResultStatus) :
      Change s msg answers s { initialResult msg.msgCmd with resultStatus := status }
  | start (kind : msg.msgCmd.serviceCmdType = .start)
      (new : msg.msgCmd.name ∉ s.mNameService) (forked : 0 < answers.fork) :
      Change s msg answers
        (s.add answers.address (newService msg.msgCmd msg.msgWriter answers))
        (startedResult msg.msgCmd (newService msg.msgCmd msg.msgWriter answers))
  | restate {p : UInt64} {sveInfo : ServiceInfo} (state : ServiceState)
      (live : s.heap[p]? = some sveInfo) :
      Change s msg answers (s.store p { sveInfo with state })
        { initialResult msg.msgCmd with resultStatus := .ok }
  | restart {p : UInt64} {sveInfo : ServiceInfo} (kind : msg.msgCmd.serviceCmdType = .restart)
      (found : s.mSeqService[msg.msgCmd.label]? = some p)
      (live : s.heap[p]? = some sveInfo) (paused : sveInfo.state = .paused) :
      Change s msg answers
        { s.store p { sveInfo with state := .running } with
          mRunningService := s.mRunningService ++ [p] }
        { initialResult msg.msgCmd with resultStatus := .ok }
  | query {p : UInt64} {sveInfo : ServiceInfo} (kind : msg.msgCmd.serviceCmdType = .info)
      (found : s.mNameService[msg.msgCmd.name]? = some p) (live : s.heap[p]? = some sveInfo) :
      Change s msg answers (s.store p (sveInfo.addWriter msg.msgWriter))
        (infoResult msg.msgCmd sveInfo)

/-! ### The branches -/

theorem startService_taken {s : SaceServiceExcutor} {saceCmd : SaceCommand}
    (taken : saceCmd.name ∈ s.mNameService) (writer : SaceWriter) (env : ParseEnv)
    (answers : StartAnswers) (result : SaceResult) :
    s.startService saceCmd writer env answers result =
      pure (s, { result with resultStatus := .exists_ }) := by
  simp only [startService, taken, if_true]

theorem startService_free {s : SaceServiceExcutor} {saceCmd : SaceCommand}
    (free : saceCmd.name ∉ s.mNameService) (writer : SaceWriter) (env : ParseEnv)
    (answers : StartAnswers) (result : SaceResult) :
    s.startService saceCmd writer env answers result = (do
      memcpyString saceCmd.command.length CMD_BUFFER_LEN
      if 0 < answers.fork then
        Traced.emit (.spawn answers.fork
          (saceCmd.commandParams.map fun p => parseCommandParams env p.base))
        return (s.add answers.address (newService saceCmd writer answers),
          { result with
            resultStatus := .ok
            resultType := .none
            label := (newService saceCmd writer answers).label
            resultExtra := Bytes.littleEndian 8 (newService saceCmd writer answers).label.toNat
            resultExtraLen := 8 })
      else return (s, result)) := by
  simp only [startService, free, if_false]

theorem start_change {s t : SaceServiceExcutor} {msg : SaceReaderMessage} {env : ParseEnv}
    {answers : StartAnswers} {result : SaceResult}
    (kind : msg.msgCmd.serviceCmdType = .start)
    (done : (s.startService msg.msgCmd msg.msgWriter env answers
      (initialResult msg.msgCmd)).result = .ok (t, result)) : Change s msg answers t result := by
  by_cases taken : msg.msgCmd.name ∈ s.mNameService
  · rw [startService_taken taken] at done
    cases done
    exact .same _
  · rw [startService_free taken, Traced.bind_ok] at done
    obtain ⟨_, _, done⟩ := done
    split at done
    · rename_i forked
      simp only [Traced.emit_then, Traced.pure_result] at done
      cases done
      exact .start kind taken forked
    · cases done
      exact .same _

/-- Every computation that a request can come down to, with the tests that lead there. -/
inductive Branch (s : SaceServiceExcutor) (msg : SaceReaderMessage) (env : ParseEnv)
    (answers : StartAnswers) : Exec (SaceServiceExcutor × SaceResult) → Prop
  | start (kind : msg.msgCmd.serviceCmdType = .start) :
      Branch s msg env answers (s.startService msg.msgCmd msg.msgWriter env answers
        (initialResult msg.msgCmd))
  | nothing (unstarted : msg.msgCmd.serviceCmdType ≠ .start)
      (missing : msg.msgCmd.serviceCmdType ∈
          [SaceServiceCommandType.stop, SaceServiceCommandType.pause,
            SaceServiceCommandType.restart] →
        s.mSeqService[msg.msgCmd.label]? = none) :
      Branch s msg env answers (pure (s, initialResult msg.msgCmd))
  | dangling {p : UInt64} (unstarted : msg.msgCmd.serviceCmdType ≠ .start)
      (found : s.mSeqService[msg.msgCmd.label]? = some p ∨
        s.mNameService[msg.msgCmd.name]? = some p) (dead : s.heap[p]? = none) :
      Branch s msg env answers (Traced.fault .useAfterFree)
  | ended {p : UInt64} {sveInfo : ServiceInfo} (kind : msg.msgCmd.serviceCmdType = .stop)
      (found : s.mSeqService[msg.msgCmd.label]? = some p) (live : s.heap[p]? = some sveInfo)
      (ended : ¬ sveInfo.Active) :
      Branch s msg env answers (pure (s, { initialResult msg.msgCmd with resultStatus := .ok }))
  | stop {p : UInt64} {sveInfo : ServiceInfo} (kind : msg.msgCmd.serviceCmdType = .stop)
      (found : s.mSeqService[msg.msgCmd.label]? = some p) (live : s.heap[p]? = some sveInfo)
      (active : sveInfo.Active) :
      Branch s msg env answers (do
        Traced.emit (.kill sveInfo.pid SIGTERM)
        return (s.store p { sveInfo with state := .finishingUser },
          { initialResult msg.msgCmd with resultStatus := .ok }))
  | unpaused {p : UInt64} {sveInfo : ServiceInfo} (kind : msg.msgCmd.serviceCmdType = .pause)
      (found : s.mSeqService[msg.msgCmd.label]? = some p) (live : s.heap[p]? = some sveInfo)
      (other : sveInfo.state ≠ .running) :
      Branch s msg env answers (pure (s, initialResult msg.msgCmd))
  | pause {p : UInt64} {sveInfo : ServiceInfo} (kind : msg.msgCmd.serviceCmdType = .pause)
      (found : s.mSeqService[msg.msgCmd.label]? = some p) (live : s.heap[p]? = some sveInfo)
      (running : sveInfo.state = .running) :
      Branch s msg env answers (do
        Traced.emit (.kill sveInfo.pid SIGSTOP)
        return (s.store p { sveInfo with state := .paused },
          { initialResult msg.msgCmd with resultStatus := .ok }))
  | unresumed {p : UInt64} {sveInfo : ServiceInfo}
      (kind : msg.msgCmd.serviceCmdType = .restart)
      (found : s.mSeqService[msg.msgCmd.label]? = some p) (live : s.heap[p]? = some sveInfo)
      (other : sveInfo.state ≠ .paused) :
      Branch s msg env answers (pure (s, initialResult msg.msgCmd))
  | restart {p : UInt64} {sveInfo : ServiceInfo} (kind : msg.msgCmd.serviceCmdType = .restart)
      (found : s.mSeqService[msg.msgCmd.label]? = some p) (live : s.heap[p]? = some sveInfo)
      (paused : sveInfo.state = .paused) :
      Branch s msg env answers (do
        Traced.emit (.kill sveInfo.pid SIGCONT)
        return ({ s.store p { sveInfo with state := .running } with
            mRunningService := s.mRunningService ++ [p] },
          { initialResult msg.msgCmd with resultStatus := .ok }))
  | query {p : UInt64} {sveInfo : ServiceInfo} (kind : msg.msgCmd.serviceCmdType = .info)
      (found : s.mNameService[msg.msgCmd.name]? = some p) (live : s.heap[p]? = some sveInfo) :
      Branch s msg env answers (pure (s.store p (sveInfo.addWriter msg.msgWriter),
        infoResult msg.msgCmd sveInfo))

section Branches
variable {s t : SaceServiceExcutor} {msg : SaceReaderMessage} {env : ParseEnv}
variable {answers : StartAnswers} {result : SaceResult}
variable {out : Exec (SaceServiceExcutor × SaceResult)}

theorem deref_of_dead {p : UInt64} (dead : s.heap[p]? = none) :
    s.deref p = Traced.fault .useAfterFree := by
  simp only [deref, dead]

theorem stop_branch (kind : msg.msgCmd.serviceCmdType = .stop) :
    Branch s msg env answers (s.stopService msg.msgCmd (initialResult msg.msgCmd)) := by
  have unstarted : msg.msgCmd.serviceCmdType ≠ .start := by
    rw [kind]
    decide
  unfold stopService
  split
  · rename_i missing
    exact .nothing unstarted fun _ => missing
  · rename_i p found
    cases live : s.heap[p]? with
    | none =>
      rw [deref_of_dead live, Traced.fault_then]
      exact .dangling unstarted (.inl found) live
    | some sveInfo =>
      rw [deref_of_live live, Traced.pure_then]
      split
      · rename_i ended
        exact .ended kind found live fun active => active.elim ended.1 ended.2
      · rename_i active
        apply Branch.stop kind found live
        by_contra neither
        exact active (not_or.mp neither)

theorem pause_branch (kind : msg.msgCmd.serviceCmdType = .pause) :
    Branch s msg env answers (s.pauseService msg.msgCmd (initialResult msg.msgCmd)) := by
  have unstarted : msg.msgCmd.serviceCmdType ≠ .start := by
    rw [kind]
    decide
  unfold pauseService
  split
  · rename_i missing
    exact .nothing unstarted fun _ => missing
  · rename_i p found
    cases live : s.heap[p]? with
    | none =>
      rw [deref_of_dead live, Traced.fault_then]
      exact .dangling unstarted (.inl found) live
    | some sveInfo =>
      rw [deref_of_live live, Traced.pure_then]
      split
      · rename_i running
        exact .pause kind found live running
      · rename_i other
        exact .unpaused kind found live other

theorem restart_branch (kind : msg.msgCmd.serviceCmdType = .restart) :
    Branch s msg env answers (s.restartService msg.msgCmd (initialResult msg.msgCmd)) := by
  have unstarted : msg.msgCmd.serviceCmdType ≠ .start := by
    rw [kind]
    decide
  unfold restartService
  split
  · rename_i missing
    exact .nothing unstarted fun _ => missing
  · rename_i p found
    cases live : s.heap[p]? with
    | none =>
      rw [deref_of_dead live, Traced.fault_then]
      exact .dangling unstarted (.inl found) live
    | some sveInfo =>
      rw [deref_of_live live, Traced.pure_then]
      split
      · rename_i paused
        exact .restart kind found live paused
      · rename_i other
        exact .unresumed kind found live other

theorem info_branch (kind : msg.msgCmd.serviceCmdType = .info) :
    Branch s msg env answers (s.handleServiceInfo msg.msgCmd msg.msgWriter
      (initialResult msg.msgCmd)) := by
  have unstarted : msg.msgCmd.serviceCmdType ≠ .start := by
    rw [kind]
    decide
  have nothing : Branch s msg env answers (pure (s, initialResult msg.msgCmd)) := by
    apply Branch.nothing unstarted
    rw [kind]
    intro signal
    exact absurd signal (by decide)
  unfold handleServiceInfo
  split
  · split
    · exact nothing
    · rename_i p found
      cases live : s.heap[p]? with
      | none =>
        rw [deref_of_dead live, Traced.fault_then]
        exact .dangling unstarted (.inr found) live
      | some sveInfo =>
        rw [deref_of_live live, Traced.pure_then]
        split
        · exact nothing
        · exact .query kind found live
  · exact nothing

theorem request_branch : Branch s msg env answers (s.request msg env answers) := by
  unfold request
  dsimp only
  split
  · rename_i kind
    exact .start kind
  rename_i unstarted
  split
  · rename_i kind
    exact stop_branch kind
  rename_i unstopped
  split
  · rename_i kind
    exact pause_branch kind
  rename_i unpaused
  split
  · rename_i kind
    exact restart_branch kind
  rename_i unresumed
  split
  · rename_i kind
    exact info_branch kind
  · exact .nothing unstarted fun signal => by simp [unstopped, unpaused, unresumed] at signal

theorem Branch.change (branch : Branch s msg env answers out)
    (done : out.result = .ok (t, result)) : Change s msg answers t result := by
  cases branch with
  | start kind => exact start_change kind done
  | dangling => cases done
  | nothing | ended | unpaused | unresumed =>
    cases done
    exact .same _
  | stop _ _ live =>
    cases done
    exact .restate .finishingUser live
  | pause _ _ live =>
    cases done
    exact .restate .paused live
  | restart kind found live paused =>
    cases done
    exact .restart kind found live paused
  | query kind found live =>
    cases done
    exact .query kind found live

theorem request_change (done : (s.request msg env answers).result = .ok (t, result)) :
    Change s msg answers t result :=
  request_branch.change done

end Branches

def ActiveBefore (s t : SaceServiceExcutor) : Prop :=
  ∀ (p : UInt64) (after : ServiceInfo), t.heap[p]? = some after → after.Active →
    ∃ before, s.heap[p]? = some before ∧ before.label = after.label ∧ before.Active

theorem activeBefore_refl (s : SaceServiceExcutor) : ActiveBefore s s :=
  fun _ after held active => ⟨after, held, rfl, active⟩

theorem activeBefore_store {s : SaceServiceExcutor} {p : UInt64} {before after : ServiceInfo}
    (live : s.heap[p]? = some before) (label : before.label = after.label)
    (kept : after.Active → before.Active) : ActiveBefore s (s.store p after) := by
  intro q info held active
  rcases (Table.insert_some ..).mp held with ⟨rfl, rfl⟩ | ⟨_, held⟩
  · exact ⟨before, live, label, kept active⟩
  · exact ⟨info, held, rfl, active⟩

/-- Only a START makes a service active that was not. -/
theorem request_active {s t : SaceServiceExcutor} {msg : SaceReaderMessage} {env : ParseEnv}
    {answers : StartAnswers} {result : SaceResult} (other : msg.msgCmd.serviceCmdType ≠ .start)
    (done : (s.request msg env answers).result = .ok (t, result)) : ActiveBefore s t := by
  have branch := @request_branch s msg env answers
  generalize s.request msg env answers = out at branch done
  cases branch with
  | start kind => exact absurd kind other
  | dangling => cases done
  | nothing | ended | unpaused | unresumed =>
    cases done
    exact activeBefore_refl _
  | stop _ _ live active =>
    cases done
    exact activeBefore_store live rfl fun _ => active
  | pause _ _ live running =>
    cases done
    exact activeBefore_store live rfl fun _ => .inl running
  | restart _ _ live paused =>
    cases done
    exact activeBefore_store live rfl fun _ => .inr paused
  | query _ _ live =>
    cases done
    have same (wr : SaceWriter) {sveInfo : ServiceInfo} :
        (sveInfo.addWriter wr).label = sveInfo.label ∧
          (sveInfo.addWriter wr).state = sveInfo.state := by
      unfold ServiceInfo.addWriter
      split <;> exact ⟨rfl, rfl⟩
    apply activeBefore_store live (same _).1.symm
    intro active
    simpa only [ServiceInfo.Active, (same _).2] using active

/-- The answer is about the request, and it is never of the type LABEL. -/
theorem request_answers {s t : SaceServiceExcutor} {msg : SaceReaderMessage} {env : ParseEnv}
    {answers : StartAnswers} {result : SaceResult}
    (done : (s.request msg env answers).result = .ok (t, result)) :
    result.Answers msg.msgCmd ∧ result.name = msg.msgCmd.name := by
  have extra : SaceResultType.extra ≠ .label := by decide
  have none : SaceResultType.none ≠ .label := by decide
  cases request_change done <;> exact ⟨⟨rfl, by assumption⟩, rfl⟩

/-! ### The effects of a request -/

section Effects
variable {P : Effect → Prop}

theorem deref_every {A : Type} (s : SaceServiceExcutor) (p : UInt64) {f : ServiceInfo → Exec A}
    (next : ∀ sveInfo, s.heap[p]? = some sveInfo → Traced.Every P (f sveInfo)) :
    Traced.Every P (s.deref p >>= f) :=
  Traced.every_bind.mpr
    ⟨by simp [Traced.Every], fun sveInfo live => next sveInfo (deref_ok.mp live)⟩

theorem startService_every {s : SaceServiceExcutor} {saceCmd : SaceCommand} {writer : SaceWriter}
    {env : ParseEnv} {answers : StartAnswers} {result : SaceResult}
    (spawn : ∀ pid params, P (.spawn pid params))
    (copy : saceCmd.name ∉ s.mNameService →
      P (.copy (saceCmd.command.length + 1) CMD_BUFFER_LEN)) :
    Traced.Every P (s.startService saceCmd writer env answers result) := by
  by_cases taken : saceCmd.name ∈ s.mNameService
  · rw [startService_taken taken]
    exact Traced.every_pure _
  · rw [startService_free taken, Traced.every_bind]
    refine ⟨?_, fun _ _ => ?_⟩
    · rw [memcpyString, Traced.every_bind, Traced.every_emit]
      exact ⟨copy taken, fun _ _ => by split <;> simp⟩
    · split
      · simpa [Traced.Every] using spawn _ _
      · exact Traced.every_pure _

/-- A request signals only the processes of live objects. -/
theorem request_live_every {s : SaceServiceExcutor} {msg : SaceReaderMessage} {env : ParseEnv}
    {answers : StartAnswers} (kill : ∀ (p : UInt64) (sveInfo : ServiceInfo) (signal : Nat),
      s.heap[p]? = some sveInfo → P (.kill sveInfo.pid signal))
    (spawn : ∀ pid params, P (.spawn pid params))
    (copy : msg.msgCmd.serviceCmdType = .start → msg.msgCmd.name ∉ s.mNameService →
      P (.copy (msg.msgCmd.command.length + 1) CMD_BUFFER_LEN)) :
    Traced.Every P (s.request msg env answers) := by
  have branch := @request_branch s msg env answers
  generalize s.request msg env answers = out at branch
  cases branch with
  | start kind => exact startService_every spawn (copy kind)
  | nothing | ended | unpaused | unresumed | query => exact Traced.every_pure _
  | dangling => simp [Traced.Every]
  | stop _ _ live | pause _ _ live | restart _ _ live =>
    simpa [Traced.Every] using kill _ _ _ live

theorem request_every {s : SaceServiceExcutor} {msg : SaceReaderMessage} {env : ParseEnv}
    {answers : StartAnswers} (kill : ∀ pid signal, P (.kill pid signal))
    (spawn : ∀ pid params, P (.spawn pid params))
    (copy : msg.msgCmd.serviceCmdType = .start → msg.msgCmd.name ∉ s.mNameService →
      P (.copy (msg.msgCmd.command.length + 1) CMD_BUFFER_LEN)) :
    Traced.Every P (s.request msg env answers) :=
  request_live_every (fun _ _ _ _ => kill _ _) spawn copy

end Effects

theorem request_copy {s : SaceServiceExcutor} {msg : SaceReaderMessage} {env : ParseEnv}
    {answers : StartAnswers} (kind : msg.msgCmd.serviceCmdType = .start)
    (free : msg.msgCmd.name ∉ s.mNameService) :
    .copy (msg.msgCmd.command.length + 1) CMD_BUFFER_LEN ∈ (s.request msg env answers).trace := by
  simp only [request, kind, if_true, startService_free free, Traced.mem_bind, memcpyString,
    Traced.emit_trace, List.mem_singleton, true_or]

/-! ### The monitor pass -/

end SaceServiceExcutor

def ServiceInfo.identity (sveInfo : ServiceInfo) : UInt64 × Str × Int × List SaceWriter :=
  (sveInfo.label, sveInfo.name, sveInfo.pid, sveInfo.writer)

namespace SaceServiceExcutor

theorem pollService_identity (sveInfo : ServiceInfo) (answer : WaitAnswer) :
    (pollService sveInfo answer).sveInfo.identity = sveInfo.identity := by
  unfold pollService
  split
  · cases answer <;> rfl
  · rfl

structure SameObjects (s t : SaceServiceExcutor) : Prop where
  running : t.mRunningService = s.mRunningService
  seq : t.mSeqService = s.mSeqService
  names : t.mNameService = s.mNameService
  objects : ∀ p : UInt64,
    (t.heap[p]?).map ServiceInfo.identity = (s.heap[p]?).map ServiceInfo.identity

theorem SameObjects.refl (s : SaceServiceExcutor) : SameObjects s s := ⟨rfl, rfl, rfl, fun _ => rfl⟩

theorem SameObjects.trans {s t u : SaceServiceExcutor} (first : SameObjects s t)
    (second : SameObjects t u) : SameObjects s u :=
  ⟨second.running.trans first.running, second.seq.trans first.seq,
    second.names.trans first.names, fun p => (second.objects p).trans (first.objects p)⟩

theorem SameObjects.back {s t : SaceServiceExcutor} (same : SameObjects s t) {p : UInt64}
    {after : ServiceInfo} (live : t.heap[p]? = some after) :
    ∃ before, s.heap[p]? = some before ∧ before.identity = after.identity := by
  have h := same.objects p
  rw [live, Option.map_some, eq_comm, Option.map_eq_some_iff] at h
  exact h

theorem SameObjects.forth {s t : SaceServiceExcutor} (same : SameObjects s t) {p : UInt64}
    {before : ServiceInfo} (live : s.heap[p]? = some before) :
    ∃ after, t.heap[p]? = some after ∧ after.identity = before.identity := by
  have h := same.objects p
  rw [live, Option.map_some, Option.map_eq_some_iff] at h
  exact h

theorem SameObjects.pid {s t : SaceServiceExcutor} (same : SameObjects s t) (p : UInt64)
    (after : ServiceInfo) (live : t.heap[p]? = some after) :
    ∃ before, s.heap[p]? = some before ∧ before.pid = after.pid := by
  obtain ⟨before, held, identity⟩ := same.back live
  simp only [ServiceInfo.identity, Prod.mk.injEq] at identity
  exact ⟨before, held, identity.2.2.1⟩

theorem SameObjects.listed {s t : SaceServiceExcutor} (same : SameObjects s t)
    (listed : ∀ p ∈ s.mRunningService, p ∈ s.heap) : ∀ p ∈ t.mRunningService, p ∈ t.heap := by
  intro p member
  obtain ⟨before, live⟩ := Table.some_of_mem (listed p (same.running ▸ member))
  obtain ⟨after, held, _⟩ := same.forth live
  exact Table.mem_of_some held

theorem store_same {s : SaceServiceExcutor} {p : UInt64} {before after : ServiceInfo}
    (live : s.heap[p]? = some before) (same : after.identity = before.identity) :
    SameObjects s (s.store p after) := by
  refine ⟨rfl, rfl, rfl, fun q => ?_⟩
  by_cases h : p = q
  · subst h
    simp [store, live, same]
  · simp [store, Std.ExtTreeMap.getElem?_insert, h]

/-- What a write does not change, the object at every address has from before. -/
theorem store_back {K : Type} (part : ServiceInfo → K) {s : SaceServiceExcutor} {p : UInt64}
    {before after : ServiceInfo} (live : s.heap[p]? = some before)
    (own : part after = part before) (q : UInt64) (sveInfo : ServiceInfo)
    (held : (s.store p after).heap[q]? = some sveInfo) :
    ∃ info, s.heap[q]? = some info ∧ part info = part sveInfo := by
  rcases (Table.insert_some ..).mp held with ⟨rfl, rfl⟩ | ⟨_, held⟩
  · exact ⟨before, live, own.symm⟩
  · exact ⟨sveInfo, held, rfl⟩

theorem pollLoop_same {wait : Nat → WaitAnswer} {i : Nat} {ps : List UInt64}
    {s t : SaceServiceExcutor} {gc : List Nat}
    (done : (pollLoop wait i ps s).result = .ok (t, gc)) : SameObjects s t := by
  induction ps generalizing i s gc with
  | nil =>
    cases done
    exact .refl _
  | cons p rest ih =>
    simp only [pollLoop, Traced.bind_ok] at done
    obtain ⟨sveInfo, live, _, _, ⟨t', gc'⟩, tail, done⟩ := done
    cases done
    exact (store_same (deref_ok.mp live) (pollService_identity _ _)).trans (ih tail)

theorem reaped_ended (sveInfo : ServiceInfo) (status : UInt32) :
    (reaped sveInfo status).sveInfo.state.monitored = false := by
  simp only [reaped]
  split
  · split <;> rfl
  · split
    · split <;> rfl
    · rfl

theorem told_ended {sveInfo : ServiceInfo} {answer : WaitAnswer} {response : SaceStatusResponse}
    (told : (pollService sveInfo answer).response = some response) :
    (pollService sveInfo answer).sveInfo.state.monitored = false := by
  unfold pollService at told ⊢
  split
  · rename_i monitored
    cases answer with
    | running => simp [monitored] at told
    | failed errno => simp [monitored] at told
    | reaped status => exact reaped_ended sveInfo status
  · rename_i other
    simp [other] at told

theorem monitored_polled {sveInfo : ServiceInfo} {answer : WaitAnswer}
    (asked : (pollService sveInfo answer).sveInfo.state.monitored) :
    (pollService sveInfo answer).sveInfo = sveInfo := by
  unfold pollService at asked ⊢
  split
  · rename_i monitored
    cases answer with
    | running => rfl
    | failed errno => rfl
    | reaped status =>
      rw [if_pos monitored] at asked
      exact absurd asked (by simp [reaped_ended])
  · rfl

/-- What the loop leaves in a monitored state it has not touched. -/
theorem pollLoop_monitored {wait : Nat → WaitAnswer} {i : Nat} {ps : List UInt64}
    {s t : SaceServiceExcutor} {gc : List Nat}
    (done : (pollLoop wait i ps s).result = .ok (t, gc)) {q : UInt64} {after : ServiceInfo}
    (held : t.heap[q]? = some after) (asked : after.state.monitored) :
    s.heap[q]? = some after := by
  induction ps generalizing i s gc with
  | nil =>
    cases done
    exact held
  | cons p rest ih =>
    simp only [pollLoop, Traced.bind_ok] at done
    obtain ⟨sveInfo, live, _, _, ⟨t', gc'⟩, tail, done⟩ := done
    cases done
    rcases (Table.insert_some ..).mp (ih tail) with ⟨rfl, rfl⟩ | ⟨_, before⟩
    · rw [monitored_polled asked]
      exact deref_ok.mp live
    · exact before

/-- Whether the turn at this entry of `mRunningService` saves its position, as the state
before the pass tells. -/
def saves (s : SaceServiceExcutor) (wait : Nat → WaitAnswer) (entry : UInt64 × Nat) : Bool :=
  (s.heap[entry.1]?).any fun sveInfo => (pollService sveInfo (wait entry.2)).saved

def responsesAt (s : SaceServiceExcutor) (wait : Nat → WaitAnswer) (entry : UInt64 × Nat) :
    List Effect :=
  match s.heap[entry.1]? with
  | none => []
  | some sveInfo => (sveInfo.sendPolled (pollService sveInfo (wait entry.2)).response).trace

theorem sendPolled_eq (sveInfo : ServiceInfo) (response : Option SaceStatusResponse) :
    sveInfo.sendPolled response = ⟨(sveInfo.sendPolled response).trace, .ok ()⟩ := by
  cases response <;> rfl

theorem saves_store_of_ne {s : SaceServiceExcutor} {p : UInt64} {sveInfo : ServiceInfo}
    {wait : Nat → WaitAnswer} {entry : UInt64 × Nat} (other : p ≠ entry.1) :
    saves (s.store p sveInfo) wait entry = saves s wait entry := by
  simp [saves, store, Std.ExtTreeMap.getElem?_insert, other]

theorem responsesAt_store_of_ne {s : SaceServiceExcutor} {p : UInt64} {sveInfo : ServiceInfo}
    {wait : Nat → WaitAnswer} {entry : UInt64 × Nat} (other : p ≠ entry.1) :
    responsesAt (s.store p sveInfo) wait entry = responsesAt s wait entry := by
  simp [responsesAt, store, Std.ExtTreeMap.getElem?_insert, other]

/-- Over distinct live objects the loop sees every object as it was before the pass. -/
theorem pollLoop_cons {s : SaceServiceExcutor} {p : UInt64} {sveInfo : ServiceInfo}
    (live : s.heap[p]? = some sveInfo) (wait : Nat → WaitAnswer) (i : Nat) (ps : List UInt64) :
    pollLoop wait i (p :: ps) s = (do
      sveInfo.sendPolled (pollService sveInfo (wait i)).response
      let out ← pollLoop wait (i + 1) ps (s.store p (pollService sveInfo (wait i)).sveInfo)
      return (out.1, if (pollService sveInfo (wait i)).saved then i :: out.2 else out.2)) := by
  rw [pollLoop, deref_of_live live, Traced.pure_then]

theorem pollLoop_distinct (wait : Nat → WaitAnswer) (i : Nat) (ps : List UInt64)
    (s : SaceServiceExcutor) (distinct : ps.Nodup) (live : ∀ p ∈ ps, p ∈ s.heap) :
    ∃ t, pollLoop wait i ps s = ⟨(ps.zipIdx i).flatMap (responsesAt s wait),
      .ok (t, ((ps.zipIdx i).filter (saves s wait)).map Prod.snd)⟩ ∧ SameObjects s t := by
  induction ps generalizing i s with
  | nil => exact ⟨s, rfl, .refl s⟩
  | cons p rest ih =>
    obtain ⟨sveInfo, held⟩ : ∃ sveInfo, s.heap[p]? = some sveInfo :=
      Table.some_of_mem (live p List.mem_cons_self)
    have fresh := (List.nodup_cons.mp distinct).1
    let polled := pollService sveInfo (wait i)
    obtain ⟨t, loop, same⟩ := ih (i + 1) (s.store p polled.sveInfo) (List.nodup_cons.mp distinct).2
      (fun q hq => by
        have := live q (List.mem_cons_of_mem _ hq)
        simp [store, this])
    have others : ∀ entry ∈ rest.zipIdx (i + 1), p ≠ entry.1 := by
      rintro ⟨q, j⟩ member rfl
      exact fresh (List.fst_mem_of_mem_zipIdx member)
    have saved : (rest.zipIdx (i + 1)).filter (saves (s.store p polled.sveInfo) wait) =
        (rest.zipIdx (i + 1)).filter (saves s wait) :=
      List.filter_congr fun entry member => saves_store_of_ne (others entry member)
    have sent : (rest.zipIdx (i + 1)).flatMap (responsesAt (s.store p polled.sveInfo) wait) =
        (rest.zipIdx (i + 1)).flatMap (responsesAt s wait) :=
      List.flatMap_congr fun entry member => responsesAt_store_of_ne (others entry member)
    refine ⟨t, ?_, (store_same held (pollService_identity _ _)).trans same⟩
    have here : saves s wait (p, i) = polled.saved := by simp [saves, held, polled]
    have now : responsesAt s wait (p, i) = (sveInfo.sendPolled polled.response).trace := by
      simp only [responsesAt, held, polled]
    rw [pollLoop_cons held, sendPolled_eq, loop, Traced.bind_of_ok rfl, Traced.bind_of_ok rfl]
    simp only [List.zipIdx_cons, List.flatMap_cons, List.filter_cons, here, now, saved, sent,
      Traced.pure_trace, Traced.pure_result, List.append_nil]
    cases polled.saved <;> rfl

@[simp] theorem collectLoop_trace (gc : List Nat) (s : SaceServiceExcutor) :
    (collectLoop gc s).trace = [] := by
  induction gc generalizing s with
  | nil => rfl
  | cons i gc ih =>
    unfold collectLoop
    split
    · rfl
    · rename_i p _
      cases live : s.heap[p]? with
      | none => simp only [deref, live, Traced.fault_then, Traced.fault_trace]
      | some sveInfo => rw [deref_of_live live, Traced.pure_then, ih]

theorem pollService_response {sveInfo : ServiceInfo} {answer : WaitAnswer}
    {response : SaceStatusResponse} (sent : (pollService sveInfo answer).response = some response) :
    response.label = sveInfo.label := by
  unfold pollService at sent
  split at sent
  · cases answer with
    | running => cases sent
    | failed errno => cases sent
    | reaped status =>
      simp only [reaped, Option.some.injEq] at sent
      subst sent
      split
      · rfl
      · split
        · split <;> rfl
        · rfl
  · cases sent

/-- A response goes to a writer of a live object and carries that object's label. -/
def SentTo (s : SaceServiceExcutor) (effect : Effect) : Prop :=
  ∃ (p : UInt64) (sveInfo : ServiceInfo) (wr : SaceWriter) (response : SaceStatusResponse),
    s.heap[p]? = some sveInfo ∧ wr ∈ sveInfo.writer ∧ response.label = sveInfo.label ∧
      effect = .sendResponse wr response

theorem sentTo_of_same {s t : SaceServiceExcutor} (same : SameObjects s t) {effect : Effect}
    (sent : SentTo t effect) : SentTo s effect := by
  obtain ⟨p, after, wr, response, live, member, label, eq⟩ := sent
  obtain ⟨before, held, identity⟩ := same.back live
  simp only [ServiceInfo.identity, Prod.mk.injEq] at identity
  exact ⟨p, before, wr, response, held, identity.2.2.2 ▸ member, label.trans identity.1.symm, eq⟩

theorem sendPolled_sends {s : SaceServiceExcutor} {p : UInt64} {sveInfo : ServiceInfo}
    {answer : WaitAnswer} (live : s.heap[p]? = some sveInfo) {effect : Effect}
    (sent : effect ∈ (sveInfo.sendPolled (pollService sveInfo answer).response).trace) :
    SentTo s effect := by
  cases h : (pollService sveInfo answer).response with
  | none => simp [h, ServiceInfo.sendPolled] at sent
  | some response =>
    simp only [h, ServiceInfo.sendPolled, ServiceInfo.sendResponse, Traced.emitAll_trace,
      List.mem_map] at sent
    obtain ⟨wr, member, rfl⟩ := sent
    exact ⟨p, sveInfo, wr, response, live, member, pollService_response h, rfl⟩

theorem pollLoop_sends {wait : Nat → WaitAnswer} {i : Nat} {ps : List UInt64}
    {s : SaceServiceExcutor} {effect : Effect} (sent : effect ∈ (pollLoop wait i ps s).trace) :
    SentTo s effect := by
  induction ps generalizing i s with
  | nil => simp [pollLoop] at sent
  | cons p rest ih =>
    simp only [pollLoop, Traced.mem_bind, deref_trace, List.not_mem_nil, false_or,
      Traced.pure_trace, and_false, exists_false, or_false] at sent
    obtain ⟨sveInfo, live, sent | ⟨_, _, sent⟩⟩ := sent
    · exact sendPolled_sends (deref_ok.mp live) sent
    · exact sentTo_of_same (store_same (deref_ok.mp live) (pollService_identity _ _)) (ih sent)

theorem monitor_sends {s : SaceServiceExcutor} {wait : Nat → WaitAnswer} {effect : Effect}
    (sent : effect ∈ (s.monitorServiceStatus wait).trace) : SentTo s effect := by
  simp only [monitorServiceStatus, Traced.mem_bind, collectLoop_trace, List.not_mem_nil,
    and_false, exists_false, or_false] at sent
  exact pollLoop_sends sent

/-! ### The effects of passes and turns -/

section Effects
variable {P : Effect → Prop} (kill : ∀ pid signal, P (.kill pid signal))
variable (respond : ∀ wr response, P (.sendResponse wr response))
include respond

theorem monitor_every (s : SaceServiceExcutor) (wait : Nat → WaitAnswer) :
    Traced.Every P (s.monitorServiceStatus wait) := by
  intro effect sent
  obtain ⟨_, _, _, _, _, _, _, rfl⟩ := monitor_sends sent
  exact respond _ _

include kill

theorem onUninit_every (s : SaceServiceExcutor) (wait : Nat → WaitAnswer) :
    Traced.Every P (s.onUninit wait) := by
  have loop : ∀ ps, Traced.Every P (s.interruptAll ps) := by
    intro ps
    induction ps with
    | nil => exact Traced.every_pure _
    | cons p rest ih =>
      refine deref_every s p fun sveInfo _ => ?_
      rw [Traced.every_bind, Traced.every_emit]
      exact ⟨kill _ _, fun _ _ => ih⟩
  rw [onUninit, Traced.every_bind]
  exact ⟨loop _, fun _ _ => monitor_every respond s wait⟩

theorem destroy_every (s : SaceServiceExcutor) : Traced.Every P s.destroy := by
  have loop : ∀ ps s, Traced.Every P (killAll ps s) := by
    intro ps
    induction ps with
    | nil => exact fun _ => Traced.every_pure _
    | cons p rest ih =>
      refine fun s => deref_every s p fun sveInfo _ => ?_
      rw [Traced.every_bind, Traced.every_emit]
      refine ⟨kill _ _, fun _ _ => ?_⟩
      rw [Traced.every_bind]
      refine ⟨fun effect sent => ?_, fun _ _ => ih _⟩
      obtain ⟨wr, _, rfl⟩ := List.mem_map.mp sent
      exact respond _ _
  rw [destroy, Traced.every_bind]
  exact ⟨loop _ _, fun _ _ => Traced.every_pure _⟩

/-- What a turn leads to. No result is of the type LABEL. -/
theorem excuteNormal_every {s : SaceServiceExcutor} {msg : SaceReaderMessage} {env : ParseEnv}
    {answers : StartAnswers} {wait : Nat → WaitAnswer} (spawn : ∀ pid params, P (.spawn pid params))
    (copy : ∀ size capacity, P (.copy size capacity))
    (send : ∀ result, result.Answers msg.msgCmd → P (.sendResult msg.msgWriter result)) :
    Traced.Every P (s.excuteNormal msg env answers wait) := by
  rw [excuteNormal, Traced.every_bind]
  refine ⟨request_every kill spawn fun _ _ => copy _ _, fun out requested => ?_⟩
  rw [Traced.every_bind, Traced.every_emit]
  exact ⟨send _ (request_answers requested).1, fun _ _ => monitor_every respond _ wait⟩

end Effects

end SaceServiceExcutor
end Sace
