import Sace.Library.Notices
import Sace.Service.Refines

/-! Everybody who has asked the service executor about a service is told once that it has
ended, and nobody is told before. -/
namespace Sace

theorem ServiceInfo.addWriter_writer (sveInfo : ServiceInfo) (wr : SaceWriter) :
    (sveInfo.addWriter wr).writer =
      if wr.mId ∈ sveInfo.writer.map SaceWriter.mId then sveInfo.writer
      else sveInfo.writer ++ [wr] := by
  have known : sveInfo.writer.any (·.same wr) = true ↔
      wr.mId ∈ sveInfo.writer.map SaceWriter.mId := by
    simp [SaceWriter.same]
  unfold addWriter
  by_cases there : wr.mId ∈ sveInfo.writer.map SaceWriter.mId
  · rw [if_pos (known.mpr there), if_pos there]
  · rw [if_neg (fun any => there (known.mp any)), if_neg there]

namespace SaceServiceExcutor

theorem newService_writer (saceCmd : SaceCommand) (writer : SaceWriter)
    (answers : StartAnswers) : (newService saceCmd writer answers).writer = [writer] := rfl

theorem responses_append (first second : List Effect) :
    responses (first ++ second) = responses first ++ responses second := by
  simp [responses]

theorem responses_sent (sveInfo : ServiceInfo) {response : SaceStatusResponse}
    (label : response.label = sveInfo.label) :
    responses (sveInfo.writer.map fun wr => .sendResponse wr response) =
      sveInfo.writer.map fun wr => (wr, sveInfo.label) := by
  simp [responses, label, List.filterMap_map]

/-- A response goes with the end of a service. -/
theorem pollService_spoken (sveInfo : ServiceInfo) (answer : WaitAnswer)
    (spoken : (pollService sveInfo answer).response.isSome) :
    (pollService sveInfo answer).saved = true := by
  unfold pollService at spoken ⊢
  split
  · rename_i asked
    rw [if_pos asked] at spoken
    cases answer with
    | running => cases spoken
    | reaped status => rfl
    | failed errno => cases spoken
  · rename_i unasked
    rw [if_neg unasked] at spoken
    cases spoken

end SaceServiceExcutor

namespace Services

open SaceServiceExcutor Notices

def ending (wait : UInt64 → WaitAnswer) (sveInfo : ServiceInfo) : Ending :=
  if gone wait sveInfo then
    if (pollService sveInfo (wait sveInfo.label)).response.isSome then .told else .silent
  else .stays

def after (b : Board UInt64 SaceWriter) (ops : List (Op UInt64 SaceWriter)) :
    Board UInt64 SaceWriter :=
  ops.foldl (Board.step SaceWriter.mId) b

@[simp] theorem after_nil (b : Board UInt64 SaceWriter) : after b [] = b := rfl

@[simp] theorem after_singleton (b : Board UInt64 SaceWriter) (op : Op UInt64 SaceWriter) :
    after b [op] = b.step SaceWriter.mId op := rfl

def notes (r : Services) : Task → List (Op UInt64 SaceWriter)
  | .request msg _ answers =>
    let saceCmd := msg.msgCmd
    if saceCmd.serviceCmdType = .start then
      if r.byName saceCmd.name = none ∧ 0 < answers.fork then
        [.begin (sequenceToLabel saceCmd.sequence answers.address) msg.msgWriter]
      else []
    else if saceCmd.serviceCmdType = .info ∧ saceCmd.command = SERVICE_GET_BY_NAME then
      match r.byName saceCmd.name with
      | none => []
      | some sveInfo =>
        if sveInfo.flags = saceCmd.serviceFlags then
          [.join sveInfo.label msg.msgWriter]
        else []
    else []
  | .pass wait => r.records.filterMap fun x => (ending wait x).op x.label
  | .interrupt => []
  | .destroy => r.records.filterMap fun x => Ending.told.op x.label

/-- The board has the services as its topics, their writers as the audiences and the responses
as the notices. -/
structure Noted (r : Services) (log : List Effect) (b : Board UInt64 SaceWriter) : Prop where
  audience : ∀ l, b.audience l = (r.byKey l).map (·.writer)
  notices : b.notices = responses log

variable {r t : Services} {log : List Effect} {b : Board UInt64 SaceWriter}

theorem Noted.heard (noted : Noted r log b) {sveInfo : ServiceInfo} (there : sveInfo ∈ r.records) :
    b.audience sveInfo.label = some sveInfo.writer := by
  rw [noted.audience, Register.byKey_eq_some.mpr ⟨there, rfl⟩]
  rfl

theorem Noted.ended (noted : Noted r log b) (ending : ServiceInfo → Ending) :
    Ended ServiceInfo.label (·.writer) ending r.records b
      (after b (r.records.filterMap fun x => (ending x).op x.label)) :=
  Notices.ended SaceWriter.mId ending r.keys fun _ there => noted.heard there

theorem Noted.silent_request (noted : Noted r log b) {trace : List Effect}
    (none : SaceServiceExcutor.responses trace = []) : Noted r (log ++ trace) b where
  audience := noted.audience
  notices := by rw [responses_append, none, List.append_nil, noted.notices]

/-- A change of a service that leaves its writers alone. -/
theorem Noted.changed (noted : Noted r log b) {k : UInt64} {f : ServiceInfo → ServiceInfo}
    (same : ∀ x : ServiceInfo, (f x).label = x.label ∧ (f x).name = x.name)
    (writers : ∀ x, (f x).writer = x.writer) : Noted (r.change k f same) log b where
  audience l := by
    rw [Register.byKey_change, noted.audience, Option.map_map]
    refine congrArg (Option.map · (r.byKey l)) (funext fun x => ?_)
    simp only [Function.comp]
    split
    · exact (writers x).symm
    · rfl
  notices := noted.notices

theorem Noted.entered (noted : Noted r log b) {sveInfo : ServiceInfo} {wr : SaceWriter}
    (entered : r.enter sveInfo = some t) (only : sveInfo.writer = [wr]) :
    Noted t log (b.step SaceWriter.mId (.begin sveInfo.label wr)) where
  audience l := by
    rw [Register.byKey_enter entered]
    by_cases here : sveInfo.label = l
    · subst here
      simp [Board.step, only]
    · simp [Board.step, here, Ne.symm here, noted.audience]
  notices := noted.notices

theorem Noted.subscribed (noted : Noted r log b) {sveInfo : ServiceInfo} (wr : SaceWriter)
    (there : sveInfo ∈ r.records) :
    Noted (r.subscribe sveInfo wr) log (b.step SaceWriter.mId (.join sveInfo.label wr)) := by
  have heard := noted.heard there
  have member : r.byKey sveInfo.label = some sveInfo := Register.byKey_eq_some.mpr ⟨there, rfl⟩
  constructor
  · intro l
    rw [subscribe, Register.byKey_change]
    by_cases here : l = sveInfo.label
    · subst here
      simp [Board.step, heard, member, ServiceInfo.addWriter_writer]
    · cases found : r.byKey l with
      | none => simp [Board.step, heard, here, noted.audience, found]
      | some x =>
        have own : x.label ≠ sveInfo.label := (Register.byKey_eq_some.mp found).2 ▸ here
        simp [Board.step, heard, here, noted.audience, found, own]
  · simp only [Board.step, heard, noted.notices]

/-- Some services go, and the writers of those that are told of are sent their responses. -/
theorem Noted.left (noted : Noted r log b) (ending : ServiceInfo → Ending)
    {told : ServiceInfo → List Effect}
    (tells : ∀ x ∈ r.records, SaceServiceExcutor.responses (told x) =
      if ending x = .told then x.writer.map fun wr => (wr, x.label) else [])
    (stays : ∀ x, t.byKey x = (r.byKey x).filter fun x => ending x = .stays) :
    Noted t (log ++ r.records.flatMap told)
      (after b (r.records.filterMap fun x => (ending x).op x.label)) := by
  have left := noted.ended ending
  constructor
  · intro l
    rw [left.audience, stays, noted.audience]
    cases found : r.byKey l with
    | none => simp
    | some x =>
      obtain ⟨member, own⟩ := Register.byKey_eq_some.mp found
      by_cases still : ending x = .stays
      · have none : ¬ ∃ y ∈ r.records, y.label = l ∧ ending y ≠ .stays := by
          rintro ⟨y, there, label, ends⟩
          rw [r.key_unique there member (label.trans own.symm)] at ends
          exact ends still
        simp [none, still]
      · rw [if_pos ⟨x, member, own, still⟩]
        simp [still]
  · rw [left.notices, noted.notices, responses_append]
    refine congrArg _ ?_
    simp only [SaceServiceExcutor.responses, responses, List.filterMap_flatMap]
    exact List.flatMap_congr fun x there => (tells x there).symm

theorem Noted.signalled (noted : Noted r log b) (sveInfo : ServiceInfo) (number : Nat)
    (state : ServiceState) (result : SaceResult) :
    Noted (r.signal sveInfo number state result).2.1
      (log ++ (r.signal sveInfo number state result).1) b :=
  have changed : Noted (r.signal sveInfo number state result).2.1 log b :=
    noted.changed (f := fun x => { x with state }) (fun _ => ⟨rfl, rfl⟩) fun _ => rfl
  changed.silent_request rfl

section
variable {msg : SaceReaderMessage} {env : ParseEnv} {answers : StartAnswers} {trace : List Effect}
  {result : SaceResult}

theorem Noted.started (noted : Noted r log b) (start : msg.msgCmd.serviceCmdType = .start)
    (done : r.request msg env answers = some (trace, t, result)) :
    Noted t (log ++ trace) (after b (r.notes (.request msg env answers))) := by
  simp only [request, start, if_true] at done
  simp only [notes, start, if_true]
  cases named : r.byName msg.msgCmd.name with
  | some sveInfo =>
    rw [named] at done
    cases done
    exact noted.silent_request rfl
  | none =>
    rw [named] at done
    dsimp only at done
    split at done
    · rename_i forked
      obtain ⟨u, entered, eq⟩ := Option.map_eq_some_iff.mp done
      cases eq
      rw [if_pos ⟨rfl, forked⟩, after_singleton,
        ← newService_label msg.msgCmd msg.msgWriter answers]
      exact (noted.entered entered (newService_writer ..)).silent_request rfl
    · rename_i unforked
      cases done
      rw [if_neg fun both => unforked both.2]
      exact noted.silent_request rfl

theorem Noted.informed (noted : Noted r log b) (info : msg.msgCmd.serviceCmdType = .info)
    (byName : msg.msgCmd.command = SERVICE_GET_BY_NAME)
    (done : r.request msg env answers = some (trace, t, result)) :
    Noted t (log ++ trace) (after b (r.notes (.request msg env answers))) := by
  have same : Noted r (log ++ []) b := noted.silent_request rfl
  have other (kind : SaceServiceCommandType) (differs : kind ≠ .info) :
      msg.msgCmd.serviceCmdType ≠ kind := fun own => differs (own.symm.trans info)
  simp only [request, other .start (by decide), other .stop (by decide), other .pause (by decide),
    other .restart (by decide), if_false, if_pos (And.intro info byName)] at done
  simp only [notes, other .start (by decide), if_false, if_pos (And.intro info byName)]
  cases named : r.byName msg.msgCmd.name with
  | none =>
    rw [named] at done
    cases done
    exact same
  | some sveInfo =>
    rw [named] at done
    dsimp only at done ⊢
    split at done
    · rename_i flags
      cases done
      rw [if_pos flags]
      have there := (Register.byName_eq_some.mp named).1
      exact (noted.subscribed msg.msgWriter there).silent_request rfl
    · rename_i flags
      cases done
      rw [if_neg flags]
      exact same

/-- STOP, PAUSE and RESTART either signal a service or do nothing. -/
theorem Noted.signals (noted : Noted r log b) (x : Option ServiceInfo) (P : ServiceInfo → Prop)
    [DecidablePred P] (number : Nat) (state : ServiceState) (initial absent idle : SaceResult)
    (done : (match x with
      | none => some ([], r, absent)
      | some sveInfo =>
        if P sveInfo then some (r.signal sveInfo number state initial)
        else some ([], r, idle)) = some (trace, t, result)) : Noted t (log ++ trace) b := by
  split at done
  · cases done
    exact noted.silent_request rfl
  · split at done
    · cases done
      exact noted.signalled _ _ _ initial
    · cases done
      exact noted.silent_request rfl

theorem Noted.requested (noted : Noted r log b)
    (done : r.request msg env answers = some (trace, t, result)) :
    Noted t (log ++ trace) (after b (r.notes (.request msg env answers))) := by
  by_cases start : msg.msgCmd.serviceCmdType = .start
  · exact noted.started start done
  by_cases info : msg.msgCmd.serviceCmdType = .info ∧ msg.msgCmd.command = SERVICE_GET_BY_NAME
  · exact noted.informed info.1 info.2 done
  simp only [request, start, info, if_false] at done
  simp only [notes, start, info, if_false]
  split at done
  · exact noted.signals _ _ _ _ _ _ _ done
  split at done
  · exact noted.signals _ _ _ _ _ _ _ done
  split at done
  · exact noted.signals _ _ _ _ _ _ _ done
  · cases done
    exact noted.silent_request rfl

end

theorem ending_silent (wait : UInt64 → WaitAnswer) (sveInfo : ServiceInfo) :
    ending wait sveInfo = .silent ↔
      sveInfo.state.monitored ∧ wait sveInfo.label = .failed ECHILD := by
  unfold ending gone pollService
  by_cases asked : sveInfo.state.monitored
  · cases answer : wait sveInfo.label with
    | running => simp [asked]
    | reaped status => simp [asked, reaped]
    | failed errno => by_cases child : errno = ECHILD <;> simp [asked, child]
  · simp [asked]

theorem ending_stays (wait : UInt64 → WaitAnswer) (sveInfo : ServiceInfo) :
    ending wait sveInfo = .stays ↔ gone wait sveInfo = false := by
  unfold ending
  cases gone wait sveInfo
  · simp
  · simp only [if_true, Bool.true_eq_false, iff_false]
    split <;> simp

/-- The response goes to the writers of a service that was reaped. -/
theorem told_responses (wait : UInt64 → WaitAnswer) (sveInfo : ServiceInfo) :
    SaceServiceExcutor.responses (told wait sveInfo) =
      if ending wait sveInfo = .told then sveInfo.writer.map fun wr => (wr, sveInfo.label)
      else [] := by
  have spoken := pollService_spoken sveInfo (wait sveInfo.label)
  cases sent : (pollService sveInfo (wait sveInfo.label)).response with
  | none =>
    have quiet : ending wait sveInfo ≠ .told := by
      unfold ending
      split <;> simp [sent]
    rw [if_neg quiet, told, sent]
    rfl
  | some response =>
    rw [sent] at spoken
    have ends : ending wait sveInfo = .told := by
      simp [ending, gone, sent, spoken rfl]
    rw [if_pos ends, told, sent]
    exact responses_sent sveInfo (pollService_response sent)

theorem Noted.act (noted : Noted r log b) {task : Task} {trace : List Effect}
    (done : r.act task = some (trace, t)) :
    Noted t (log ++ trace) (after b (r.notes task)) := by
  cases task with
  | request msg env answers =>
    obtain ⟨⟨sent, u, result⟩, requested, eq⟩ := Option.map_eq_some_iff.mp done
    cases eq
    rw [← List.append_assoc]
    exact (noted.requested requested).silent_request rfl
  | pass wait =>
    cases done
    refine noted.left _ (fun x _ => told_responses wait x) fun l => ?_
    rw [Register.byKey_keep]
    refine congrArg (Option.filter · _) (funext fun x => ?_)
    by_cases still : gone wait x = false
    · simp [still, (ending_stays wait x).mpr still]
    · simp [still, mt (ending_stays wait x).mp still]
  | interrupt =>
    cases done
    refine noted.silent_request ?_
    rw [responses, List.filterMap_map]
    exact List.filterMap_eq_nil_iff.mpr fun _ _ => rfl
  | destroy =>
    cases done
    refine noted.left (fun _ => .told) (fun x _ => ?_) fun l => ?_
    · exact responses_sent x rfl
    · cases r.byKey l <;> rfl

end Services

namespace SaceServiceExcutor

open Notices

/-! ### The account of a run -/

/-- Who gets the executor's word that it will be told of a service's end: who has started it and
who has been given its description. -/
def asks (s : SaceServiceExcutor) : Work → List (SaceWriter × UInt64)
  | .request msg _ answers =>
    let saceCmd := msg.msgCmd
    if saceCmd.serviceCmdType = .start then
      if saceCmd.name ∉ s.mNameService ∧ 0 < answers.fork then
        [(msg.msgWriter, sequenceToLabel saceCmd.sequence answers.address)]
      else []
    else if saceCmd.serviceCmdType = .info ∧ saceCmd.command = SERVICE_GET_BY_NAME then
      match (s.mNameService[saceCmd.name]?).bind fun p => s.heap[p]? with
      | none => []
      | some sveInfo =>
        if sveInfo.flags = saceCmd.serviceFlags then [(msg.msgWriter, sveInfo.label)] else []
    else []
  | _ => []

/-- The services that a pass takes out without a word: their processes are somebody else's. -/
def silenced (s : SaceServiceExcutor) : Work → List UInt64
  | .monitor wait => s.mRunningService.zipIdx.filterMap fun entry =>
    match s.answered wait entry with
    | some (sveInfo, .failed errno) => if errno = ECHILD then some sveInfo.label else none
    | _ => none
  | _ => []

structure Ledger extends Logged where
  asked : List (SaceWriter × UInt64) := []
  silent : List UInt64 := []

namespace Ledger

def step (d : Ledger) (input : Work) : Option Ledger :=
  (d.toLogged.step input).map fun done =>
    { done with
      asked := d.asked ++ d.service.asks input
      silent := d.service.silenced input ++ d.silent }

def Fresh (d : Ledger) : Work → Prop
  | .request msg _ answers => msg.msgCmd.serviceCmdType = .start →
      ∀ a ∈ d.asked, a.2 ≠ sequenceToLabel msg.msgCmd.sequence answers.address
  | _ => True

instance (d : Ledger) : (input : Work) → Decidable (d.Fresh input)
  | .request _ _ _ => inferInstanceAs (Decidable (_ → ∀ a ∈ d.asked, _ ≠ _))
  | .monitor _ | .interrupt | .destroy => inferInstanceAs (Decidable True)

def Allowed (d : Ledger) (input : Work) : Prop :=
  d.toLogged.Provided input ∧ d.toLogged.Tidy input ∧ d.Fresh input

instance (d : Ledger) (input : Work) : Decidable (d.Allowed input) :=
  inferInstanceAs (Decidable (_ ∧ _ ∧ _))

end Ledger

section Account
variable {s : SaceServiceExcutor} {ps : List UInt64} {r : Services} {b : Board UInt64 SaceWriter}
variable {log : List Effect} {wait : Nat → WaitAnswer}

theorem notes_asked (rep : Represents s ps r) (noted : Services.Noted r log b) (input : Work) :
    (Services.after b (r.notes (s.taskOf input))).asked =
      b.asked ++ s.asks input := by
  cases input with
  | request msg env answers =>
    simp only [taskOf, Services.notes, asks]
    split
    · cases entry : s.mNameService[msg.msgCmd.name]? with
      | none =>
        simp only [rep.unnamed entry, Table.notMem_of_none entry, not_false_eq_true, true_and]
        split
        · rfl
        · exact (List.append_nil _).symm
      | some p =>
        obtain ⟨sveInfo, _, _, named⟩ := rep.named entry
        simp [named, Table.mem_of_some entry]
    split
    · cases entry : s.mNameService[msg.msgCmd.name]? with
      | none => simp [rep.unnamed entry]
      | some p =>
        obtain ⟨sveInfo, _, live, named⟩ := rep.named entry
        have heard := noted.heard (Register.byName_eq_some.mp named).1
        simp only [named, Option.bind_some, live]
        split
        · simp [Board.step, heard]
        · exact (List.append_nil _).symm
    · exact (List.append_nil _).symm
  | monitor wait =>
    exact (noted.ended (Services.ending (s.answersOf wait))).asked.trans (List.append_nil _).symm
  | interrupt => exact (List.append_nil _).symm
  | destroy =>
    exact (noted.ended fun _ => .told).asked.trans (List.append_nil _).symm

theorem mem_silenced {l : UInt64} : l ∈ s.silenced (.monitor wait) ↔ ∃ i p sveInfo,
    s.mRunningService[i]? = some p ∧ s.heap[p]? = some sveInfo ∧
      sveInfo.state.monitored ∧ wait i = .failed ECHILD ∧ sveInfo.label = l := by
  simp only [silenced, List.mem_filterMap]
  constructor
  · rintro ⟨⟨p, i⟩, entry, out⟩
    split at out
    · rename_i sveInfo errno found
      obtain ⟨x, live, found⟩ := Option.bind_eq_some_iff.mp found
      split at found
      · rename_i asked
        obtain ⟨rfl, answer⟩ := Prod.mk.inj (Option.some.inj found)
        split at out
        · rename_i gone
          exact ⟨i, p, x, List.mem_zipIdx_iff_getElem?.mp entry, live, asked, gone ▸ answer,
            Option.some.inj out⟩
        · cases out
      · cases found
    · cases out
  · rintro ⟨i, p, sveInfo, at_, live, asked, answer, label⟩
    refine ⟨(p, i), List.mem_zipIdx_iff_getElem?.mpr at_, ?_⟩
    simp [answered, live, asked, answer, label]

theorem notes_silent (rep : Represents s ps r) (noted : Services.Noted r log b) {d : Logged}
    (own : d.service = s) {input : Work} (tidy : d.Tidy input) (l : UInt64) :
    l ∈ (Services.after b (r.notes (s.taskOf input))).silent ↔
      l ∈ s.silenced input ++ b.silent := by
  subst own
  cases input with
  | request msg env answers =>
    simp only [taskOf, Services.notes, silenced, List.nil_append]
    split
    · split <;> rfl
    split
    · cases r.byName msg.msgCmd.name with
      | none => rfl
      | some sveInfo =>
        dsimp only
        split
        · simp only [Services.after_singleton, Board.step]
          split <;> rfl
        · rfl
    · rfl
  | monitor wait =>
    rw [taskOf, Services.notes, (noted.ended _).silent, List.mem_append, or_comm, mem_silenced]
    refine or_congr_left ⟨?_, ?_⟩
    · rintro ⟨x, there, label, ends⟩
      obtain ⟨p, member, live⟩ := rep.mem_records.mp there
      rw [Services.ending_silent, rep.answersOf_eq member live] at ends
      exact ⟨_, p, x, idxOf_at (rep.order.subset member), live, ends.1, ends.2, label⟩
    · rintro ⟨i, p, x, at_, live, asked, answer, label⟩
      have member := rep.listed p (List.mem_of_getElem? at_)
      have ends : d.service.endedAt wait (p, i) = true := by
        simp [endedAt, answered, live, asked, answer, ended]
      have once := tidy.2 p (Erasure.mem_chosen.mpr ⟨i, at_, ends⟩)
      refine ⟨x, rep.mem_records.mpr ⟨p, member, live⟩, label, ?_⟩
      rw [Services.ending_silent, rep.answersOf_eq member live, Erasure.idxOf_once at_ once]
      exact ⟨asked, answer⟩
  | interrupt => simp [taskOf, Services.notes, silenced]
  | destroy =>
    rw [taskOf, Services.notes, (noted.ended fun _ => .told).silent]
    simp [silenced]

structure Accounted (d : Ledger) (r : Services) (b : Board UInt64 SaceWriter) : Prop where
  refines : Refines d.service r
  noted : Services.Noted r d.log b
  told : Told SaceWriter.mId b
  asked : b.asked = d.asked
  silent : ∀ l, l ∈ b.silent ↔ l ∈ d.silent

theorem Accounted.told_after {d : Ledger} (kept : Accounted d r b) {input : Work}
    (fresh : d.Fresh input) :
    Told SaceWriter.mId (Services.after b (r.notes (d.service.taskOf input))) := by
  have ends {xs : List ServiceInfo} {ending : ServiceInfo → Ending} :
      ∀ op ∈ xs.filterMap fun x => (ending x).op x.label, ∀ t (wr : SaceWriter),
        op ≠ .begin t wr := by
    rintro op there t s rfl
    obtain ⟨x, _, how⟩ := List.mem_filterMap.mp there
    cases ends : ending x <;> rw [ends] at how <;> cases how
  cases input with
  | request msg env answers =>
    simp only [taskOf, Services.notes]
    split
    · rename_i start
      split
      · refine kept.told.begin fun wr member => ?_
        rw [kept.asked] at member
        exact fresh start _ member rfl
      · exact kept.told
    split
    · cases r.byName msg.msgCmd.name with
      | none => exact kept.told
      | some sveInfo =>
        dsimp only
        split
        · exact kept.told.join ..
        · exact kept.told
    · exact kept.told
  | monitor wait => exact kept.told.steps ends
  | interrupt => exact kept.told
  | destroy => exact kept.told.steps ends

theorem Accounted.step {d e : Ledger} (kept : Accounted d r b) {input : Work}
    (allowed : d.Allowed input) (moved : d.step input = some e) : ∃ u c, Accounted e u c := by
  obtain ⟨done, logged, rfl⟩ := Option.map_eq_some_iff.mp moved
  obtain ⟨t, worked, rfl⟩ := Option.map_eq_some_iff.mp logged
  obtain ⟨u, acted, refines⟩ := work_follows kept.refines allowed.1 allowed.2.1
    (Traced.value_eq_some.mp worked)
  obtain ⟨ps, rep⟩ := kept.refines
  refine ⟨u, _, refines, kept.noted.act acted, kept.told_after allowed.2.2, ?_, fun l => ?_⟩
  · rw [notes_asked rep kept.noted, kept.asked]
  · rw [notes_silent rep kept.noted rfl allowed.2.1, List.mem_append, kept.silent, List.mem_append]

end Account

end SaceServiceExcutor
end Sace
