import Sace.Normal.Destroyed
import Sace.Normal.Jobs

/-! The normal executor, with its three indexes, the list of sace_popen and the descriptors, does
what the register of the jobs says. -/
namespace Sace

open OwnedExcutor (Holds labelsOf removed)
open PipedExcutor (Request commandsOf)

/-- A sace_popen that keeps the given end of its pipe, or has changed nothing. -/
theorem sacePopen_opened (pipes : Pipes) (flags : SaceCommandFlags) {system : PopenSystem}
    (apart : ∀ pdes0 pdes1, system.pipe2 = some (pdes0, pdes1) → pdes0 ≠ pdes1) :
    sacePopen pipes flags system = match Jobs.opened flags system with
      | none => (pipes, -1, 0)
      | some (fd, pid) => (⟨(fd, pid) :: pipes.pidlist, fd :: pipes.opened⟩, fd, pid) := by
  unfold sacePopen Jobs.opened
  cases piped : system.pipe2 with
  | none => rfl
  | some ends =>
    obtain ⟨pdes0, pdes1⟩ := ends
    have both : (({ pipes with opened := pdes0 :: pdes1 :: pipes.opened } : Pipes).close
        pdes0).close pdes1 = pipes := by simp [Pipes.close]
    cases system.malloc with
    | false => simp [both]
    | true =>
      cases system.vfork with
      | none => simp [both]
      | some pid =>
        by_cases output : flags = .output
        · simp [output, Pipes.close]
        · simp [output, Pipes.close, List.erase_cons_tail, apart pdes0 pdes1 piped]

namespace PipedExcutor

theorem Tracked.closeAll_eq (client : SaceClientIdentifier) (wait : Int → List WaitAnswer)
    {cmdInfos : List CommandInfo} {s : PipedExcutor} (tracked : s.Tracked) (once : cmdInfos.Nodup)
    (live : ∀ cmdInfo ∈ cmdInfos, cmdInfo ∈ s.mRunningCmd) :
    ∃ t : PipedExcutor, PipedExcutor.closeAll wait cmdInfos s =
      (Jobs.ended wait (cmdInfos.map fun c => (client, c)) >>= fun _ => pure t) := by
  induction cmdInfos generalizing s with
  | nil => exact ⟨s, rfl⟩
  | cons cmdInfo rest ih =>
    obtain ⟨fresh, once⟩ := List.nodup_cons.mp once
    obtain ⟨u, trackedU, running, _, _, closes⟩ :=
      tracked.closeCmd_eq (live cmdInfo List.mem_cons_self)
    obtain ⟨t, closed⟩ := ih trackedU once fun other there => by
      rw [running]
      refine (List.mem_erase_of_ne ?_).mpr (live other (List.mem_cons_of_mem _ there))
      rintro rfl
      exact fresh there
    refine ⟨t, ?_⟩
    rw [PipedExcutor.closeAll, closes, Traced.bind_assoc]
    simp only [Traced.pure_then, closed, List.map_cons, Jobs.ended, Traced.bind_assoc]

end PipedExcutor

namespace StartedExcutor

/-- The jobs of the register are the listed commands, each with the client that started it, and
what a client's list finds are the client's jobs in the order of their start. -/
structure Represents (s : StartedExcutor) (r : Jobs) : Prop where
  started : s.Started
  running : s.mRunningCmd = r.records.map (·.2)
  clients : ∀ job ∈ r.records, s.starters[job.2.label]? = some job.1
  order : ∀ client, commandsOf s.toPipedExcutor client =
    (r.records.filter fun job => job.1 = client).map (·.2)

section Steps
variable {s t : StartedExcutor} {r u : Jobs}

theorem Represents.byKey (rep : Represents s r) (label : UInt64) :
    (r.byKey label).map (·.2) = s.mSeqCmd[label]? := by
  refine Option.ext fun cmdInfo => ?_
  rw [rep.started.tracked.labels, rep.running, Option.map_eq_some_iff, List.mem_map]
  constructor
  · rintro ⟨job, found, rfl⟩
    obtain ⟨member, own⟩ := Register.byKey_eq_some.mp found
    exact ⟨⟨job, member, rfl⟩, own⟩
  · rintro ⟨⟨job, member, rfl⟩, own⟩
    exact ⟨job, Register.byKey_eq_some.mpr ⟨member, own⟩, rfl⟩

/-- What a list of labels finds when the table has lost some of them. -/
theorem found_left {labels : List UInt64} {gone : CommandInfo → Bool}
    (left : ∀ (label : UInt64) (cmdInfo : CommandInfo), t.mSeqCmd[label]? = some cmdInfo ↔
      s.mSeqCmd[label]? = some cmdInfo ∧ gone cmdInfo = false) :
    labels.filterMap (t.mSeqCmd[·]?) = (labels.filterMap (s.mSeqCmd[·]?)).filter (!gone ·) := by
  rw [List.filter_filterMap]
  refine List.filterMap_congr fun label _ => Option.ext fun cmdInfo => ?_
  rw [left, Option.filter_eq_some_iff]
  simp

/-- A command is added behind the others. -/
theorem Represents.added (rep : Represents s r) (started : t.Started)
    {client : SaceClientIdentifier} {cmdInfo : CommandInfo}
    (new : s.starters[cmdInfo.label]? = none)
    (running : t.mRunningCmd = s.mRunningCmd ++ [cmdInfo])
    (seq : t.mSeqCmd = s.mSeqCmd.insertIfNew cmdInfo.label cmdInfo)
    (clients : t.mClientCmd =
      s.mClientCmd.insert client (labelsOf s.toSaceNormalExcutor client ++ [cmdInfo.label]))
    (starters : t.starters = s.starters.insert cmdInfo.label client)
    (entered : u.records = r.records ++ [(client, cmdInfo)]) : Represents t u := by
  have free : s.mSeqCmd[cmdInfo.label]? = none := by
    cases found : s.mSeqCmd[cmdInfo.label]? with
    | none => rfl
    | some other =>
      obtain ⟨_, starter, recorded, _⟩ := rep.started.of_found found
      cases new.symm.trans recorded
  have old : ∀ client, ∀ label ∈ labelsOf s.toSaceNormalExcutor client,
      t.mSeqCmd[label]? = s.mSeqCmd[label]? := by
    intro other label member
    have apart : cmdInfo.label ≠ label := by
      rintro rfl
      cases new.symm.trans (rep.started.own_label member)
    refine Option.ext fun info => ?_
    rw [seq, Table.insertIfNew_some free]
    simp [apart]
  refine ⟨started, by rw [running, rep.running, entered, List.map_append]; rfl, ?_, ?_⟩
  · intro job member
    rw [entered, List.mem_append, List.mem_singleton] at member
    rw [starters, Table.insert_some]
    rcases member with before | rfl
    · have recorded := rep.clients job before
      refine .inr ⟨fun same => ?_, recorded⟩
      rw [← same, new] at recorded
      cases recorded
    · exact .inl ⟨rfl, rfl⟩
  · intro other
    have before := rep.order other
    rw [commandsOf] at before ⊢
    rw [labelsOf_added clients, entered, List.filter_append, List.map_append, ← before]
    by_cases here : other = client
    · subst here
      have last : t.mSeqCmd[cmdInfo.label]? = some cmdInfo := by
        rw [seq, Table.insertIfNew_some free]
        exact .inl ⟨rfl, rfl⟩
      rw [if_pos rfl, List.filterMap_append, List.filterMap_congr (old other)]
      simp [last]
    · rw [if_neg here, List.filterMap_congr (old other)]
      simp [Ne.symm here]

/-- Some commands go. A label that leaves a client's list with them finds nothing any more. -/
theorem Represents.left (rep : Represents s r) (started : t.Started) (gone : CommandInfo → Bool)
    {stays : Job → Bool} (same : ∀ job ∈ r.records, stays job = !gone job.2)
    (running : t.mRunningCmd = s.mRunningCmd.filter (!gone ·))
    (left : ∀ (label : UInt64) (cmdInfo : CommandInfo), t.mSeqCmd[label]? = some cmdInfo ↔
      s.mSeqCmd[label]? = some cmdInfo ∧ gone cmdInfo = false)
    (lists : ∀ client, (labelsOf t.toSaceNormalExcutor client).filterMap (t.mSeqCmd[·]?) =
      (labelsOf s.toSaceNormalExcutor client).filterMap (t.mSeqCmd[·]?))
    (starters : t.starters = s.starters) : Represents t (r.keep stays) where
  started := started
  running := by
    rw [running, rep.running, List.filter_map, Register.keep_records]
    exact congrArg _ (List.filter_congr fun job member => (same job member).symm)
  clients job member := by
    rw [Register.keep_records, List.mem_filter] at member
    rw [starters]
    exact rep.clients job member.1
  order client := by
    have before := rep.order client
    rw [commandsOf] at before ⊢
    rw [lists, found_left left, before, List.filter_map, List.filter_filter, Register.keep_records,
      List.filter_filter]
    refine congrArg _ (List.filter_congr fun job member => ?_)
    simp [same job member, Bool.and_comm]

/-- A command goes, and with it its label from the list of whoever has closed it. -/
theorem Represents.closed (rep : Represents s r) (started : t.Started) {job : Job}
    (member : job ∈ r.records) {client : SaceClientIdentifier}
    (running : t.mRunningCmd = s.mRunningCmd.erase job.2)
    (seq : t.mSeqCmd = s.mSeqCmd.erase job.2.label)
    (clients : t.mClientCmd = removed s.mClientCmd client job.2.label)
    (starters : t.starters = s.starters) :
    Represents t (r.keep fun other => other.2.label ≠ job.2.label) := by
  have listed : job.2 ∈ s.mRunningCmd := by
    rw [rep.running]
    exact List.mem_map_of_mem member
  have once : s.mRunningCmd.Nodup := .of_map _ rep.started.tracked.running
  have unfound : t.mSeqCmd[job.2.label]? = none := by simp [seq]
  refine rep.left started (fun cmdInfo => cmdInfo.label = job.2.label) (fun _ _ => by simp)
    ?_ ?_ ?_ starters
  · rw [running, once.erase_eq_filter]
    refine List.filter_congr fun other there => ?_
    have unique : other.label = job.2.label → other = job.2 := fun same =>
      Option.some.inj (((rep.started.tracked.labels _ _).mpr ⟨there, same⟩).symm.trans
        ((rep.started.tracked.labels _ _).mpr ⟨listed, rfl⟩))
    rw [Bool.eq_iff_iff, bne_iff_ne, Bool.not_eq_true', decide_eq_false_iff_not]
    exact ⟨fun other same => other (unique same), fun other same => other (congrArg _ same)⟩
  · intro label cmdInfo
    rw [seq, Table.erase_some, decide_eq_false_iff_not, and_comm]
    refine and_congr_right fun entry => ?_
    rw [((rep.started.tracked.labels _ _).mp entry).2]
    exact ne_comm
  · intro other
    rw [labelsOf_removed clients]
    split
    · rename_i here
      subst here
      rw [(rep.started.once other).erase_eq_filter, List.filterMap_filter]
      refine List.filterMap_congr fun label _ => ?_
      by_cases same : label = job.2.label
      · simp [same, unfound]
      · simp [same]
    · rfl

/-- The commands that a client has started go, and its list with them. -/
theorem Represents.destroyed (rep : Represents s r) (started : t.Started)
    {client : SaceClientIdentifier}
    (running : t.mRunningCmd = s.mRunningCmd.filter
      fun cmdInfo => s.starters[cmdInfo.label]? ≠ some client)
    (clients : t.mClientCmd = s.mClientCmd.erase client) (starters : t.starters = s.starters) :
    Represents t (r.keep fun job => job.1 ≠ client) := by
  have left : ∀ (label : UInt64) (cmdInfo : CommandInfo), t.mSeqCmd[label]? = some cmdInfo ↔
      s.mSeqCmd[label]? = some cmdInfo ∧ s.starters[cmdInfo.label]? ≠ some client := by
    intro label cmdInfo
    rw [started.tracked.labels, running, List.mem_filter, rep.started.tracked.labels,
      decide_eq_true_iff]
    exact and_right_comm
  refine rep.left started (fun cmdInfo => s.starters[cmdInfo.label]? = some client)
    (fun job member => ?_) ?_ (fun label cmdInfo => ?_) (fun other => ?_) starters
  · simp [rep.clients job member]
  · rw [running]
    exact List.filter_congr fun _ _ => by simp
  · rw [left, decide_eq_false_iff_not]
  · rw [labelsOf_erased clients]
    split
    · rename_i here
      subst here
      refine (List.filterMap_eq_nil_iff.mpr fun label member => ?_).symm
      cases found : t.mSeqCmd[label]? with
      | none => rfl
      | some cmdInfo =>
        obtain ⟨before, stays⟩ := (left label cmdInfo).mp found
        have own := ((rep.started.tracked.labels _ _).mp before).2
        exact absurd (rep.started.own_label member) (own ▸ stays)
    · rfl

end Steps

/-! ### Requests -/

section Requests
variable {s t : StartedExcutor} {r : Jobs} {q : Request}

theorem popen_kept {fd pid : Int} (provided : s.Provided q)
    (start : q.msg.msgCmd.normalCmdType = .start)
    (opened : Jobs.opened q.msg.msgCmd.flags q.system = some (fd, pid)) :
    0 ≤ fd ∧ s.popen q.msg q.address q.system = ⟨q.address, fd, pid⟩ ∧
      sacePopen s.pipes q.msg.msgCmd.flags q.system =
        (⟨(fd, pid) :: s.pidlist, fd :: s.opened⟩, fd, pid) := by
  obtain ⟨_, ends⟩ := provided.1 start
  have popen := sacePopen_opened s.pipes q.msg.msgCmd.flags
    fun pdes0 pdes1 piped => (ends pdes0 pdes1 piped).1
  rw [opened] at popen
  refine ⟨?_, by rw [PipedExcutor.popen, popen], popen⟩
  unfold Jobs.opened at opened
  split at opened
  · rename_i pdes0 pdes1 pid' piped _ _
    obtain ⟨_, positive0, positive1, _⟩ := ends pdes0 pdes1 piped
    cases opened
    split <;> assumption
  · cases opened

theorem excuteNormal_refused (provided : s.Provided q)
    (start : q.msg.msgCmd.normalCmdType = .start)
    (opened : Jobs.opened q.msg.msgCmd.flags q.system = none) :
    ¬ (s.asked q).Starts ∧ s.toPipedExcutor.excuteNormal q =
      ⟨[.sendResult q.msg.msgWriter
        { Jobs.result q with resultStatus := .fail, resultType := .start }],
        .ok s.toPipedExcutor⟩ := by
  obtain ⟨_, ends⟩ := provided.1 start
  have popen := sacePopen_opened s.pipes q.msg.msgCmd.flags
    fun pdes0 pdes1 piped => (ends pdes0 pdes1 piped).1
  rw [opened] at popen
  constructor
  · rw [OwnedExcutor.Request.Starts, asked, PipedExcutor.popen, popen]
    simp
  · rw [PipedExcutor.excuteNormal, Popens.excuteNormal, if_pos start,
      PipedExcutor.startNormalCmd, PipedExcutor.popen, popen]
    rfl

theorem excuteNormal_opened {fd pid : Int} (provided : s.Provided q)
    (start : q.msg.msgCmd.normalCmdType = .start)
    (opened : Jobs.opened q.msg.msgCmd.flags q.system = some (fd, pid)) :
    ∃ t : PipedExcutor, t.mRunningCmd = s.mRunningCmd ++ [q.cmdInfo fd pid] ∧
      t.mSeqCmd = s.mSeqCmd.insertIfNew (q.cmdInfo fd pid).label (q.cmdInfo fd pid) ∧
      t.mClientCmd = s.mClientCmd.insert q.msg.msgClient
        (labelsOf s.toSaceNormalExcutor q.msg.msgClient ++ [(q.cmdInfo fd pid).label]) ∧
      s.toPipedExcutor.excuteNormal q =
        ⟨[.spawn pid (q.msg.msgCmd.commandParams.map fun p => parseCommandParams q.env p.base),
          .sendResult q.msg.msgWriter
            { Jobs.result q with
              resultType := .fd
              resultStatus := .ok
              label := (q.cmdInfo fd pid).label
              resultFd := some fd }], .ok t⟩ := by
  obtain ⟨positive, answers, popen⟩ := popen_kept provided start opened
  rw [PipedExcutor.excuteNormal, Popens.excuteNormal, if_pos start, PipedExcutor.startNormalCmd,
    answers, popen, SaceNormalExcutor.startNormalCmd]
  dsimp only
  rw [if_neg (by omega)]
  refine ⟨_, rfl, rfl, ?_, rfl⟩
  unfold labelsOf
  dsimp only
  cases s.mClientCmd[q.msg.msgClient]? <;> rfl

theorem Represents.start (rep : Represents s r) (provided : s.Provided q)
    (start : q.msg.msgCmd.normalCmdType = .start) (moved : s.step q = some t) :
    ∃ u, r.request q = some ((s.toPipedExcutor.excuteNormal q).trace, u) ∧ Represents t u := by
  obtain ⟨v, value, rfl⟩ := Option.map_eq_some_iff.mp moved
  have started := step_started rep.started provided moved
  cases opened : Jobs.opened q.msg.msgCmd.flags q.system with
  | none =>
    obtain ⟨unstarted, refused⟩ := excuteNormal_refused provided start opened
    rw [refused] at value ⊢
    cases value
    rw [if_neg unstarted]
    exact ⟨r, by simp only [Jobs.request, start, if_true, opened], rep⟩
  | some ends =>
    obtain ⟨fd, pid⟩ := ends
    obtain ⟨positive, answers, _⟩ := popen_kept provided start opened
    obtain ⟨w, running, seq, clients, done⟩ := excuteNormal_opened provided start opened
    rw [done] at value ⊢
    cases value
    have starts : (s.asked q).Starts := by
      refine ⟨start, ?_⟩
      rw [asked, answers]
      exact positive
    have same : (s.asked q).label = (q.cmdInfo fd pid).label := by
      rw [OwnedExcutor.Request.label, asked, answers]
      rfl
    have new := provided.2 starts
    rw [same] at new
    have unkeyed : r.byKey (q.cmdInfo fd pid).label = none := by
      cases found : r.byKey (q.cmdInfo fd pid).label with
      | none => rfl
      | some job =>
        obtain ⟨member, own⟩ := Register.byKey_eq_some.mp found
        have recorded := rep.clients job member
        rw [own, new] at recorded
        cases recorded
    have unnamed : r.byName (q.cmdInfo fd pid).address = none := by
      rw [Register.byName_eq_none, List.mem_map]
      rintro ⟨job, member, taken⟩
      refine (provided.1 start).1 job.2 ?_ taken
      rw [rep.running]
      exact List.mem_map_of_mem member
    obtain ⟨u, entered, records⟩ := Register.enter_free (x := (q.msg.msgClient, q.cmdInfo fd pid))
      unkeyed unnamed
    refine ⟨u, ?_, rep.added started new running seq clients ?_ records⟩
    · simp only [Jobs.request, start, if_true, opened, entered, Option.map_some]
    · rw [if_pos starts, same]

theorem Represents.close (rep : Represents s r) (provided : s.Provided q)
    (close : q.msg.msgCmd.normalCmdType = .close) (moved : s.step q = some t) :
    ∃ u, r.request q = some ((s.toPipedExcutor.excuteNormal q).trace, u) ∧ Represents t u := by
  obtain ⟨v, value, rfl⟩ := Option.map_eq_some_iff.mp moved
  have started := step_started rep.started provided moved
  have unstarted : ¬ (s.asked q).Starts := fun starts => by
    have := close.symm.trans starts.1
    contradiction
  rw [if_neg unstarted] at started ⊢
  rw [PipedExcutor.excuteNormal, Popens.excuteNormal, if_neg (by rw [close]; decide), if_pos close,
    Popens.closeNormalCmd, show Popens.tables s.toPipedExcutor = s.toSaceNormalExcutor from rfl]
    at value ⊢
  rw [Jobs.request, if_neg (by rw [close]; decide), if_pos close]
  have keyed := rep.byKey q.msg.msgCmd.label
  cases found : r.byKey q.msg.msgCmd.label with
  | none =>
    rw [found] at keyed
    rw [← keyed] at value ⊢
    cases value
    exact ⟨r, rfl, rep⟩
  | some job =>
    rw [found] at keyed
    obtain ⟨member, own⟩ := Register.byKey_eq_some.mp found
    have listed : job.2 ∈ s.mRunningCmd := by
      rw [rep.running]
      exact List.mem_map_of_mem member
    obtain ⟨u, tracked, running, seq, clients, closes⟩ :=
      rep.started.tracked.closeCmd_eq listed
    simp only [own, PipedExcutor.closeCmd] at closes
    rw [← keyed] at value ⊢
    simp only [Option.map_some, closes, Traced.bind_assoc, Traced.pure_then] at value ⊢
    cases waited : (pcloseLoop job.2.pid 0 (q.wait job.2.pid)).result with
    | error fault =>
      rw [Traced.bind_of_error waited] at value
      cases value
    | ok pstat =>
      rw [Traced.bind_of_ok waited] at value ⊢
      cases value
      refine ⟨r.keep fun other => other.2.label ≠ job.2.label, ?_,
        rep.closed started member running seq (congrArg (removed · _ _) clients) rfl⟩
      have ends : Jobs.ended q.wait [job] =
          ⟨(pcloseLoop job.2.pid 0 (q.wait job.2.pid)).trace, .ok ()⟩ := by
        simp [Jobs.ended, Traced.bind_of_ok waited]
      rw [ends]
      rfl

theorem Represents.destroy (rep : Represents s r) (provided : s.Provided q)
    (destroy : q.msg.msgCmd.normalCmdType = .destroy) (moved : s.step q = some t) :
    ∃ u, r.request q = some ((s.toPipedExcutor.excuteNormal q).trace, u) ∧ Represents t u := by
  have started := step_started rep.started provided moved
  obtain ⟨_, clients, running⟩ := rep.started.destroyed destroy moved
  obtain ⟨v, value, rfl⟩ := Option.map_eq_some_iff.mp moved
  have unstarted : ¬ (s.asked q).Starts := fun starts => by
    have := destroy.symm.trans starts.1
    contradiction
  rw [if_neg unstarted] at started ⊢
  have after := rep.destroyed started running clients rfl
  obtain ⟨u, closed⟩ := rep.started.tracked.closeAll_eq q.msg.msgClient q.wait
    (rep.started.commandsOf_nodup q.msg.msgClient)
    fun cmdInfo here => (rep.started.mem_commandsOf.mp here).1
  have mine : (commandsOf s.toPipedExcutor q.msg.msgClient).map (fun c => (q.msg.msgClient, c)) =
      r.records.filter fun job => job.1 = q.msg.msgClient := by
    rw [rep.order, List.map_map]
    refine (List.map_congr_left fun job member => ?_).trans (List.map_id _)
    have own : job.1 = q.msg.msgClient := by simpa using (List.mem_filter.mp member).2
    simp [← own]
  rw [mine] at closed
  rw [rep.started.excuteNormal_destroy destroy, closed, Traced.bind_assoc] at value ⊢
  rw [Jobs.request, if_neg (by rw [destroy]; decide), if_neg (by rw [destroy]; decide),
    if_pos destroy]
  cases ended :
      (Jobs.ended q.wait (r.records.filter fun job => job.1 = q.msg.msgClient)).result with
  | error fault =>
    rw [Traced.bind_of_error ended] at value
    cases value
  | ok done =>
    refine ⟨r.keep fun job => job.1 ≠ q.msg.msgClient, ?_, after⟩
    rw [Traced.bind_of_ok ended]
    simp [Traced.value_eq_some.mpr ended]

/-- A request does what the register says, and the register says what is listed afterwards. -/
theorem Represents.request (rep : Represents s r) (provided : s.Provided q)
    (moved : s.step q = some t) :
    ∃ u, r.request q = some ((s.toPipedExcutor.excuteNormal q).trace, u) ∧ Represents t u := by
  by_cases start : q.msg.msgCmd.normalCmdType = .start
  · exact rep.start provided start moved
  by_cases close : q.msg.msgCmd.normalCmdType = .close
  · exact rep.close provided close moved
  by_cases destroy : q.msg.msgCmd.normalCmdType = .destroy
  · exact rep.destroy provided destroy moved
  obtain ⟨v, value, rfl⟩ := Option.map_eq_some_iff.mp moved
  have unstarted : ¬ (s.asked q).Starts := fun starts => start starts.1
  rw [PipedExcutor.excuteNormal, Popens.excuteNormal, if_neg start, if_neg close,
    if_neg destroy] at value ⊢
  cases value
  rw [if_neg unstarted]
  exact ⟨r, by rw [Jobs.request, if_neg start, if_neg close, if_neg destroy]; rfl, rep⟩

end Requests

end StartedExcutor

/-! ### Every run -/

structure LoggedExcutor where
  executor : StartedExcutor := {}
  log : List Effect := []

structure LoggedJobs where
  jobs : Jobs := .empty
  log : List Effect := []

def LoggedJobs.step (d : LoggedJobs) (task : Jobs.Task) : Option LoggedJobs :=
  (d.jobs.act task).map fun (trace, jobs) => { jobs, log := d.log ++ trace }

namespace LoggedExcutor

open Jobs (Task)
open StartedExcutor (Represents)

def work (s : StartedExcutor) : Task → Option (List Effect × StartedExcutor)
  | .request q => (s.step q).map fun t => ((s.toPipedExcutor.excuteNormal q).trace, t)
  | .interrupt => some (s.onUninit.trace, s)

def step (d : LoggedExcutor) (task : Task) : Option LoggedExcutor :=
  (work d.executor task).map fun (trace, executor) => { executor, log := d.log ++ trace }

def Provided (d : LoggedExcutor) : Task → Prop
  | .request q => d.executor.Provided q
  | .interrupt => True

instance (d : LoggedExcutor) : ∀ task, Decidable (d.Provided task)
  | .request q => inferInstanceAs (Decidable (d.executor.Provided q))
  | .interrupt => .isTrue trivial

theorem work_follows {s t : StartedExcutor} {r : Jobs} {task : Task} {trace : List Effect}
    (rep : Represents s r) (provided : Provided ⟨s, []⟩ task)
    (moved : work s task = some (trace, t)) :
    ∃ u, r.act task = some (trace, u) ∧ Represents t u := by
  cases task with
  | request q =>
    obtain ⟨t', stepped, same⟩ := Option.map_eq_some_iff.mp moved
    cases same
    exact rep.request provided stepped
  | interrupt =>
    cases Option.some.inj moved
    refine ⟨r, ?_, rep⟩
    simp [Jobs.act, SaceNormalExcutor.onUninit, rep.running]

def leaving : List Task :=
  StartedExcutor.history.map .request ++
    [.request (StartedExcutor.destroyBy ⟨1000, 200⟩), .interrupt]

end LoggedExcutor
end Sace
