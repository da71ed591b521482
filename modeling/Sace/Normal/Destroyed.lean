import Sace.Normal.Owners
import Sace.Normal.Tracked
import Sace.Normal.Waits

/-! What a DESTROY ends when any client may have closed any command. A CLOSE by another client
leaves the label behind in the starter's list; a label is given once, so that the label that
was left finds no command any more. -/
namespace Sace

open OwnedExcutor (Holds labelsOf removed)

namespace PipedExcutor

def closeAll (wait : Int → List WaitAnswer) : List CommandInfo → PipedExcutor → Exec PipedExcutor
  | [], s => return s
  | cmdInfo :: cmdInfos, s => do
    let s ← s.closeCmd cmdInfo.label cmdInfo wait
    closeAll wait cmdInfos s

/-- The commands that the labels in a client's list find, in the order of the list. -/
def commandsOf (s : PipedExcutor) (client : SaceClientIdentifier) : List CommandInfo :=
  (labelsOf s.toSaceNormalExcutor client).filterMap (s.mSeqCmd[·]?)

/-- A label that finds nothing is passed over; each other one finds its own command. -/
theorem destroyLoop_closeAll (wait : Int → List WaitAnswer) {labels : List UInt64}
    (once : labels.Nodup) {s : PipedExcutor}
    (keys : ∀ (label : UInt64) (cmdInfo : CommandInfo),
      s.mSeqCmd[label]? = some cmdInfo → cmdInfo.label = label) :
    destroyLoop wait labels s = closeAll wait (labels.filterMap (s.mSeqCmd[·]?)) s := by
  induction labels generalizing s with
  | nil => rfl
  | cons label labels ih =>
    obtain ⟨out, once⟩ := List.nodup_cons.mp once
    cases found : s.mSeqCmd[label]? with
    | none =>
      rw [List.filterMap_cons_none found]
      exact (Popens.destroyLoop_none found).trans (ih once keys)
    | some cmdInfo =>
      have same : ∀ u : PipedExcutor, u.mSeqCmd = s.mSeqCmd.erase label →
          destroyLoop wait labels u = closeAll wait (labels.filterMap (s.mSeqCmd[·]?)) u := by
        intro u erased
        have found : ∀ other ∈ labels, u.mSeqCmd[other]? = s.mSeqCmd[other]? := by
          intro other member
          apply Option.ext
          intro info
          rw [erased, Table.erase_some]
          constructor
          · intro both
            exact both.2
          · intro entry
            refine ⟨?_, entry⟩
            rintro rfl
            exact out member
        rw [← List.filterMap_congr found]
        apply ih once
        intro other info entry
        rw [erased, Table.erase_some] at entry
        exact keys other info entry.2
      rw [List.filterMap_cons_some found, closeAll, keys label cmdInfo found]
      refine (Popens.destroyLoop_some found).trans ?_
      change s.closeCmd label cmdInfo wait >>= destroyLoop wait labels = _
      simp only [closeCmd_ends, Traced.bind_assoc, Traced.pure_then]
      congr 1
      funext closed
      exact same _ rfl

/-- Closing a command that is listed waits for its process and for nothing else. -/
theorem Tracked.closeCmd_eq {s : PipedExcutor} {cmdInfo : CommandInfo} (tracked : s.Tracked)
    (listed : cmdInfo ∈ s.mRunningCmd) : ∃ t : PipedExcutor, t.Tracked ∧
      t.mRunningCmd = s.mRunningCmd.erase cmdInfo ∧ t.mSeqCmd = s.mSeqCmd.erase cmdInfo.label ∧
      t.mClientCmd = s.mClientCmd ∧ ∀ wait, s.closeCmd cmdInfo.label cmdInfo wait =
        (pcloseLoop cmdInfo.pid 0 (wait cmdInfo.pid) >>= fun _ => pure t) := by
  have positive : 0 ≤ cmdInfo.fd :=
    tracked.valid _ (tracked.ends.mem_iff.mp (List.mem_map_of_mem listed))
  have found := (tracked.labels cmdInfo.label cmdInfo).mpr ⟨listed, rfl⟩
  obtain ⟨t, closes⟩ : ∃ t, ∀ wait, s.closeCmd cmdInfo.label cmdInfo wait =
      (pcloseLoop cmdInfo.pid 0 (wait cmdInfo.pid) >>= fun _ => pure t) := by
    refine ⟨{ s with
      mRunningCmd := s.mRunningCmd.eraseP (·.address = cmdInfo.address)
      mSeqCmd := s.mSeqCmd.erase cmdInfo.label
      pidlist := s.pidlist.erase (cmdInfo.fd, cmdInfo.pid)
      opened := s.opened.erase cmdInfo.fd }, fun wait => ?_⟩
    rw [PipedExcutor.closeCmd_ends, sacePcloseEnds, if_neg (by omega),
      show s.pipes.pidlist = s.pidlist from rfl, tracked.find?_eq listed, Traced.bind_assoc]
    rfl
  -- the state behind it is the same for every wait, so one that ends tells what it is
  have done : (s.closeCmd cmdInfo.label cmdInfo fun _ => [.reaped 0]).result = .ok t := by
    rw [closes]
    rfl
  have after := tracked.closeCmd_cases found done
  exact ⟨t, tracked.closeCmd found done, congrArg (·.mRunningCmd) after,
    congrArg (·.mSeqCmd) after, congrArg (·.mClientCmd) after, closes⟩

/-- The commands have been closed when each of their processes has ended. -/
theorem Tracked.closeAll_completes {wait : Int → List WaitAnswer} {cmdInfos : List CommandInfo}
    {s : PipedExcutor} (tracked : s.Tracked) (once : cmdInfos.Nodup)
    (live : ∀ cmdInfo ∈ cmdInfos, cmdInfo ∈ s.mRunningCmd) :
    (∃ t, (PipedExcutor.closeAll wait cmdInfos s).result = .ok t) ↔
      ∀ cmdInfo ∈ cmdInfos, ∃ answer ∈ wait cmdInfo.pid, answer ≠ .running := by
  induction cmdInfos generalizing s with
  | nil => exact ⟨fun _ _ none => (nomatch none), fun _ => ⟨s, rfl⟩⟩
  | cons cmdInfo rest ih =>
    obtain ⟨fresh, once⟩ := List.nodup_cons.mp once
    obtain ⟨u, trackedU, running, _, _, closes⟩ :=
      tracked.closeCmd_eq (live cmdInfo List.mem_cons_self)
    have rest_live : ∀ other ∈ rest, other ∈ u.mRunningCmd := by
      intro other there
      rw [running]
      refine (List.mem_erase_of_ne ?_).mpr (live other (List.mem_cons_of_mem _ there))
      rintro rfl
      exact fresh there
    rw [List.forall_mem_cons, ← ih trackedU once rest_live, ← @pcloseLoop_completes cmdInfo.pid 0,
      PipedExcutor.closeAll, closes, Traced.bind_assoc]
    simp only [Traced.pure_then]
    constructor
    · rintro ⟨t, done⟩
      obtain ⟨status, ended, closed⟩ := Traced.bind_ok.mp done
      exact ⟨⟨status, ended⟩, t, closed⟩
    · rintro ⟨⟨status, ended⟩, t, closed⟩
      exact ⟨t, Traced.bind_ok.mpr ⟨status, ended, closed⟩⟩

/-- What is left when the commands have been closed. -/
theorem Tracked.closeAll {wait : Int → List WaitAnswer} {cmdInfos : List CommandInfo}
    {s t : PipedExcutor} (tracked : s.Tracked) (once : cmdInfos.Nodup)
    (live : ∀ cmdInfo ∈ cmdInfos, cmdInfo ∈ s.mRunningCmd)
    (done : (closeAll wait cmdInfos s).result = .ok t) :
    t.Tracked ∧ t.mRunningCmd = s.mRunningCmd.filter (· ∉ cmdInfos) ∧
      t.mClientCmd = s.mClientCmd := by
  induction cmdInfos generalizing s with
  | nil =>
    cases done
    simp [tracked]
  | cons cmdInfo cmdInfos ih =>
    obtain ⟨out, once⟩ := List.nodup_cons.mp once
    obtain ⟨u, closed, done⟩ := Traced.bind_ok.mp done
    have listed := live cmdInfo List.mem_cons_self
    have found := (tracked.labels cmdInfo.label cmdInfo).mpr ⟨listed, rfl⟩
    have after := tracked.closeCmd_cases found closed
    have nodup := List.Nodup.of_map _ tracked.running
    have running : u.mRunningCmd = s.mRunningCmd.filter (· ≠ cmdInfo) := by
      rw [after]
      refine (nodup.erase_eq_filter cmdInfo).trans (List.filter_congr fun other _ => ?_)
      rw [Bool.eq_iff_iff, bne_iff_ne, decide_eq_true_iff]
    have rest : ∀ other ∈ cmdInfos, other ∈ u.mRunningCmd := by
      intro other member
      rw [running, List.mem_filter]
      refine ⟨live other (List.mem_cons_of_mem _ member), decide_eq_true ?_⟩
      rintro rfl
      exact out member
    obtain ⟨tracked', left, clients⟩ := ih (tracked.closeCmd found closed) once rest done
    refine ⟨tracked', ?_, clients.trans (by rw [after])⟩
    rw [left, running, List.filter_filter]
    apply List.filter_congr
    intro other _
    rw [Bool.eq_iff_iff]
    simp [and_comm]

end PipedExcutor

/-- The executor over its pipes and, for every label that a START has given, the client that
sent it. -/
structure StartedExcutor extends PipedExcutor where
  starters : Table UInt64 SaceClientIdentifier := ∅

namespace StartedExcutor
open PipedExcutor (Request closeAll commandsOf startBy closeBy)

def owned (s : StartedExcutor) : OwnedExcutor :=
  { s.toSaceNormalExcutor with starters := s.starters }

def asked (s : StartedExcutor) (r : Request) : OwnedExcutor.Request :=
  { msg := r.msg, env := r.env, answers := s.popen r.msg r.address r.system, wait := r.wait }

def step (s : StartedExcutor) (r : Request) : Option StartedExcutor :=
  (s.toPipedExcutor.excuteNormal r).value.map fun t =>
    { t with starters :=
        if (s.asked r).Starts then s.starters.insert (s.asked r).label r.msg.msgClient
        else s.starters }

/-- `new` and pipe2 give what is not in use, and no label is given to two STARTs. -/
def Provided (s : StartedExcutor) (r : Request) : Prop :=
  (r.msg.msgCmd.normalCmdType = .start →
    (∀ cmdInfo ∈ s.mRunningCmd, cmdInfo.address ≠ r.address) ∧
    ∀ pdes0 pdes1, r.system.pipe2 = some (pdes0, pdes1) →
      pdes0 ≠ pdes1 ∧ 0 ≤ pdes0 ∧ 0 ≤ pdes1 ∧ pdes0 ∉ s.opened ∧ pdes1 ∉ s.opened) ∧
  ((s.asked r).Starts → s.starters[(s.asked r).label]? = none)

instance (s : StartedExcutor) (r : Request) : Decidable (s.Provided r) :=
  inferInstanceAs (Decidable ((_ → _ ∧ _) ∧ (_ → _)))

/-- Every live command stands in the list of the client that started it; what else stands in
a list was started by the same client and is live no more. -/
structure Started (s : StartedExcutor) : Prop where
  tracked : s.toPipedExcutor.Tracked
  listed : ∀ cmdInfo ∈ s.mRunningCmd, ∃ client, s.starters[cmdInfo.label]? = some client ∧
    Holds s.toSaceNormalExcutor client cmdInfo.label
  own : ∀ client label, Holds s.toSaceNormalExcutor client label →
    s.starters[label]? = some client
  once : ∀ client, (labelsOf s.toSaceNormalExcutor client).Nodup

/-! ### One request -/

theorem Started.provided {s : StartedExcutor} {r : Request} (started : s.Started)
    (provided : s.Provided r) (done : r.msg.msgCmd.normalCmdType = .start → (s.asked r).Starts) :
    s.toPipedExcutor.Provided r := by
  intro start
  obtain ⟨addresses, ends⟩ := provided.1 start
  refine ⟨addresses, ?_, ends⟩
  have new := provided.2 (done start)
  cases found : s.mSeqCmd[sequenceToLabel r.msg.msgCmd.sequence r.address]? with
  | none => rfl
  | some cmdInfo =>
    obtain ⟨running, label⟩ := (started.tracked.labels _ _).mp found
    obtain ⟨client, recorded, -⟩ := started.listed cmdInfo running
    rw [label] at recorded
    exact absurd (new.symm.trans recorded) (by simp)

/-- A START without a pipe or without a process leaves everything as it was. -/
theorem refused_pipes {s : StartedExcutor} {r : Request} {u : PipedExcutor}
    (provided : s.Provided r) (start : r.msg.msgCmd.normalCmdType = .start)
    (refused : ¬ (s.asked r).Starts)
    (done : (s.toPipedExcutor.excuteNormal r).result = .ok u) : u = s.toPipedExcutor := by
  obtain ⟨-, ends⟩ := provided.1 start
  have popen := @PipedExcutor.sacePopen_cases s.pipes r.msg.msgCmd.flags r.system
    fun pdes0 pdes1 piped => (ends pdes0 pdes1 piped).1
  rw [PipedExcutor.excuteNormal, Popens.excuteNormal, if_pos start, PipedExcutor.startNormalCmd,
    Traced.bind_ok] at done
  obtain ⟨normal, opened, done⟩ := done
  rcases popen with failed | ⟨pdes0, pdes1, fd, pid, piped, kept, popened⟩
  · rw [PipedExcutor.popen, failed, SaceNormalExcutor.startNormalCmd] at opened
    rw [failed] at done
    cases opened
    cases done
    rfl
  · obtain ⟨-, positive0, positive1, -, -⟩ := ends pdes0 pdes1 piped
    refine absurd ⟨start, ?_⟩ refused
    rw [asked, PipedExcutor.popen, popened]
    rcases kept with rfl | rfl <;> assumption

theorem step_cases {s t : StartedExcutor} {r : Request} (started : s.Started)
    (provided : s.Provided r) (moved : s.step r = some t) :
    t = s ∨ t.toPipedExcutor.Tracked ∧ OwnedExcutor.Outcome s.owned (s.asked r) t.owned := by
  obtain ⟨u, value, rfl⟩ := Option.map_eq_some_iff.mp moved
  have done := Traced.value_eq_some.mp value
  by_cases starts : r.msg.msgCmd.normalCmdType = .start → (s.asked r).Starts
  · have provided := started.provided provided starts
    have normal := PipedExcutor.excuteNormal_normal provided
    refine .inr ⟨PipedExcutor.excuteNormal_tracked started.tracked provided done,
      OwnedExcutor.step_outcome ?_⟩
    have same : (s.owned.excuteNormal r.msg r.env (s.popen r.msg r.address r.system)
        r.wait).result = .ok u.toSaceNormalExcutor := by
      rw [owned, ← normal, Traced.bind_ok]
      exact ⟨u, done, rfl⟩
    exact Option.map_eq_some_iff.mpr ⟨_, Traced.value_eq_some.mpr same, rfl⟩
  · obtain ⟨start, refused⟩ := Classical.not_imp.mp starts
    left
    rw [refused_pipes provided start refused done, if_neg refused]

/-! ### The lists after a request -/

section Lists
variable {s t : SaceNormalExcutor} {client : SaceClientIdentifier} {label : UInt64}

theorem labelsOf_added
    (clients : t.mClientCmd = s.mClientCmd.insert client (labelsOf s client ++ [label]))
    (other : SaceClientIdentifier) : labelsOf t other =
      if other = client then labelsOf s client ++ [label] else labelsOf s other := by
  by_cases here : other = client
  · subst here
    simp [labelsOf, clients]
  · simp [labelsOf, clients, Std.ExtTreeMap.getElem?_insert, here, Ne.symm here]

theorem labelsOf_removed (clients : t.mClientCmd = removed s.mClientCmd client label)
    (other : SaceClientIdentifier) : labelsOf t other =
      if other = client then (labelsOf s client).erase label else labelsOf s other := by
  unfold labelsOf
  rw [clients]
  unfold removed
  by_cases here : other = client
  · subst here
    cases found : s.mClientCmd[other]? with
    | none => simp [found]
    | some labels =>
      by_cases last : labels.erase label = []
      · simp [last]
      · simp [last]
  · cases s.mClientCmd[client]? with
    | none => simp [here]
    | some labels =>
      by_cases last : labels.erase label = []
      · simp [last, Std.ExtTreeMap.getElem?_erase, here, Ne.symm here]
      · simp [last, Std.ExtTreeMap.getElem?_insert, here, Ne.symm here]

theorem labelsOf_erased (clients : t.mClientCmd = s.mClientCmd.erase client)
    (other : SaceClientIdentifier) :
    labelsOf t other = if other = client then [] else labelsOf s other := by
  by_cases here : other = client
  · subst here
    simp [labelsOf, clients]
  · simp [labelsOf, clients, Std.ExtTreeMap.getElem?_erase, here, Ne.symm here]

end Lists

/-! ### Every run -/

/-- A command that is live after a request is found by its label. -/
theorem live_found {t : StartedExcutor} (tracked : t.toPipedExcutor.Tracked)
    {cmdInfo : CommandInfo} (live : cmdInfo ∈ t.mRunningCmd) :
    t.owned.mSeqCmd[cmdInfo.label]? = some cmdInfo :=
  (tracked.labels _ _).mpr ⟨live, rfl⟩

theorem Started.of_found {s : StartedExcutor} (started : s.Started) {label : UInt64}
    {cmdInfo : CommandInfo} (found : s.owned.mSeqCmd[label]? = some cmdInfo) :
    cmdInfo.label = label ∧ ∃ client, s.starters[label]? = some client ∧
      label ∈ labelsOf s.toSaceNormalExcutor client := by
  obtain ⟨running, rfl⟩ := (started.tracked.labels _ _).mp found
  obtain ⟨client, recorded, held⟩ := started.listed cmdInfo running
  exact ⟨rfl, client, recorded, OwnedExcutor.mem_labelsOf.mpr held⟩

theorem Started.own_label {s : StartedExcutor} (started : s.Started)
    {client : SaceClientIdentifier} {label : UInt64}
    (member : label ∈ labelsOf s.toSaceNormalExcutor client) :
    s.starters[label]? = some client :=
  started.own client label (OwnedExcutor.mem_labelsOf.mp member)

/-- The invariant, with the lists instead of what they hold. -/
theorem Started.of_lists {t : StartedExcutor} (tracked : t.toPipedExcutor.Tracked)
    (listed : ∀ (cmdInfo : CommandInfo), t.owned.mSeqCmd[cmdInfo.label]? = some cmdInfo →
      ∃ client, t.starters[cmdInfo.label]? = some client ∧
        cmdInfo.label ∈ labelsOf t.toSaceNormalExcutor client)
    (own : ∀ client, ∀ label ∈ labelsOf t.toSaceNormalExcutor client,
      t.starters[label]? = some client)
    (once : ∀ client, (labelsOf t.toSaceNormalExcutor client).Nodup) : t.Started where
  tracked := tracked
  listed := by
    intro cmdInfo live
    obtain ⟨client, recorded, member⟩ := listed cmdInfo (live_found tracked live)
    exact ⟨client, recorded, OwnedExcutor.mem_labelsOf.mp member⟩
  own := by
    intro client label held
    exact own client label (OwnedExcutor.mem_labelsOf.mpr held)
  once := once

section Kept
variable {s t : StartedExcutor} {client : SaceClientIdentifier} {label : UInt64}

theorem Started.start {cmdInfo : CommandInfo} (started : s.Started)
    (tracked : t.toPipedExcutor.Tracked) (new : s.starters[label]? = none)
    (seq : t.mSeqCmd = s.mSeqCmd.insertIfNew label cmdInfo)
    (clients : t.mClientCmd =
      s.mClientCmd.insert client (labelsOf s.toSaceNormalExcutor client ++ [label]))
    (starters : t.starters = s.starters.insert label client) : t.Started := by
  have added := labelsOf_added clients
  have old : ∀ (other : UInt64) (starter : SaceClientIdentifier),
      s.starters[other]? = some starter → t.starters[other]? = some starter := by
    intro other starter before
    rw [starters, Table.insert_some]
    refine .inr ⟨?_, before⟩
    rintro rfl
    rw [new] at before
    cases before
  have recorded : t.starters[label]? = some client := by simp [starters]
  apply Started.of_lists tracked
  · intro info found
    rw [owned, seq] at found
    rcases Table.of_insertIfNew_some found with ⟨same, rfl⟩ | found
    · refine ⟨client, by rw [← same]; exact recorded, ?_⟩
      rw [added, if_pos rfl, ← same]
      exact List.mem_append_right _ (List.mem_singleton_self _)
    · obtain ⟨-, starter, before, member⟩ := started.of_found found
      refine ⟨starter, old _ _ before, ?_⟩
      rw [added]
      split
      · rename_i here
        subst here
        exact List.mem_append_left _ member
      · exact member
  · intro other held member
    rw [added] at member
    split at member
    · rename_i here
      subst here
      rcases List.mem_append.mp member with member | last
      · exact old _ _ (started.own_label member)
      · cases List.mem_singleton.mp last
        exact recorded
    · exact old _ _ (started.own_label member)
  · intro other
    rw [added]
    split
    · refine List.nodup_append.mpr ⟨started.once _, List.nodup_singleton _, ?_⟩
      rintro held member _ last rfl
      cases List.mem_singleton.mp last
      have before := started.own_label member
      rw [new] at before
      cases before
    · exact started.once other

theorem Started.close (started : s.Started) (tracked : t.toPipedExcutor.Tracked)
    (seq : t.mSeqCmd = s.mSeqCmd.erase label)
    (clients : t.mClientCmd = removed s.mClientCmd client label)
    (starters : t.starters = s.starters) : t.Started := by
  have left := labelsOf_removed clients
  apply Started.of_lists tracked
  · intro info entry
    rw [owned, seq, Table.erase_some] at entry
    obtain ⟨ne, entry⟩ := entry
    obtain ⟨-, starter, recorded, member⟩ := started.of_found entry
    refine ⟨starter, by rw [starters]; exact recorded, ?_⟩
    rw [left]
    split
    · rename_i here
      subst here
      exact (List.mem_erase_of_ne (Ne.symm ne)).mpr member
    · exact member
  · intro other held member
    rw [left] at member
    rw [starters]
    split at member
    · rename_i here
      subst here
      exact started.own_label (List.mem_of_mem_erase member)
    · exact started.own_label member
  · intro other
    rw [left]
    split
    · exact (started.once _).erase _
    · exact started.once other

theorem Started.destroy (started : s.Started) (tracked : t.toPipedExcutor.Tracked)
    (seq : ∀ (held : UInt64) (cmdInfo : CommandInfo), t.mSeqCmd[held]? = some cmdInfo →
      held ∉ labelsOf s.toSaceNormalExcutor client ∧ s.mSeqCmd[held]? = some cmdInfo)
    (clients : t.mClientCmd = s.mClientCmd.erase client)
    (starters : t.starters = s.starters) : t.Started := by
  have left := labelsOf_erased clients
  apply Started.of_lists tracked
  · intro info entry
    obtain ⟨out, entry⟩ := seq _ _ entry
    obtain ⟨-, starter, recorded, member⟩ := started.of_found entry
    refine ⟨starter, by rw [starters]; exact recorded, ?_⟩
    rw [left, if_neg]
    · exact member
    · rintro rfl
      exact out member
  · intro other held member
    rw [left] at member
    rw [starters]
    split at member
    · cases member
    · exact started.own_label member
  · intro other
    rw [left]
    split
    · exact List.nodup_nil
    · exact started.once other

theorem Started.unchanged (started : s.Started) (tracked : t.toPipedExcutor.Tracked)
    (seq : t.mSeqCmd = s.mSeqCmd) (clients : t.mClientCmd = s.mClientCmd)
    (starters : t.starters = s.starters) : t.Started := by
  have same : ∀ other, labelsOf t.toSaceNormalExcutor other =
      labelsOf s.toSaceNormalExcutor other := by
    intro other
    rw [labelsOf, labelsOf, clients]
  apply Started.of_lists tracked
  · intro info entry
    rw [owned, seq] at entry
    obtain ⟨-, starter, recorded, member⟩ := started.of_found entry
    refine ⟨starter, by rw [starters]; exact recorded, ?_⟩
    rw [same]
    exact member
  · intro other held member
    rw [same] at member
    rw [starters]
    exact started.own_label member
  · intro other
    rw [same]
    exact started.once other

end Kept

theorem step_started {s t : StartedExcutor} {r : Request} (started : s.Started)
    (provided : s.Provided r) (moved : s.step r = some t) : t.Started := by
  rcases step_cases started provided moved with rfl | ⟨tracked, outcome⟩
  · exact started
  cases outcome with
  | start starts cmdInfo label seq clients starters =>
    exact started.start tracked (provided.2 starts) seq clients starters
  | close close cmdInfo found seq clients starters =>
    rw [(started.of_found found).1] at clients
    exact started.close tracked seq clients starters
  | destroy destroy labels found seq clients starters =>
    have mine : labelsOf s.toSaceNormalExcutor r.msg.msgClient = labels := by
      have entry : s.mClientCmd[r.msg.msgClient]? = some labels := found
      rw [labelsOf, entry, Option.getD_some]
    apply started.destroy tracked ?_ clients starters
    intro held cmdInfo entry
    have both := (seq held cmdInfo).mp entry
    rw [← mine] at both
    exact both
  | nothing unfound seq clients starters =>
    exact started.unchanged tracked seq clients starters

theorem empty_started : Started {} := by
  apply Started.of_lists PipedExcutor.empty_tracked
  · intro cmdInfo entry
    simp [owned] at entry
  · intro client label member
    simp [labelsOf] at member
  · intro client
    simp [labelsOf]

theorem reached_started {s : StartedExcutor} (reached : Runs.Reached step Provided {} s) :
    s.Started :=
  reached.invariant empty_started fun _ _ _ started provided moved =>
    step_started started provided moved

/-! ### The commands of one client -/

theorem Started.mem_commandsOf {s : StartedExcutor} (started : s.Started)
    {client : SaceClientIdentifier} {cmdInfo : CommandInfo} :
    cmdInfo ∈ commandsOf s.toPipedExcutor client ↔
      cmdInfo ∈ s.mRunningCmd ∧ s.starters[cmdInfo.label]? = some client := by
  rw [commandsOf, List.mem_filterMap]
  constructor
  · rintro ⟨label, member, found⟩
    obtain ⟨running, rfl⟩ := (started.tracked.labels _ _).mp found
    exact ⟨running, started.own_label member⟩
  · rintro ⟨running, recorded⟩
    have found := live_found started.tracked running
    obtain ⟨-, starter, recorded', member⟩ := started.of_found found
    cases Option.some.inj (recorded.symm.trans recorded')
    exact ⟨cmdInfo.label, member, found⟩

theorem Started.commandsOf_nodup {s : StartedExcutor} (started : s.Started)
    (client : SaceClientIdentifier) : (commandsOf s.toPipedExcutor client).Nodup := by
  apply (started.once client).filterMap
  intro label other cmdInfo found found'
  have first := (started.tracked.labels _ _).mp found
  have second := (started.tracked.labels _ _).mp found'
  exact first.2.symm.trans second.2

theorem Started.destroyNormalCmd {s : StartedExcutor} (started : s.Started)
    (msg : SaceReaderMessage) (wait : Int → List WaitAnswer) :
    s.toPipedExcutor.destroyNormalCmd msg wait =
      closeAll wait (commandsOf s.toPipedExcutor msg.msgClient) s.toPipedExcutor >>= fun t =>
        pure { t with mClientCmd := t.mClientCmd.erase msg.msgClient } := by
  have keys : ∀ (label : UInt64) (cmdInfo : CommandInfo),
      s.mSeqCmd[label]? = some cmdInfo → cmdInfo.label = label := by
    intro label cmdInfo found
    exact (started.of_found found).1
  unfold PipedExcutor.destroyNormalCmd Popens.destroyNormalCmd
  rw [show Popens.tables s.toPipedExcutor = s.toSaceNormalExcutor from rfl]
  cases found : s.mClientCmd[msg.msgClient]? with
  | none =>
    have nothing : commandsOf s.toPipedExcutor msg.msgClient = [] := by
      rw [commandsOf, labelsOf, found]
      rfl
    have absent : s.mClientCmd.erase msg.msgClient = s.mClientCmd := by
      apply Std.ExtTreeMap.ext_getElem?
      intro other
      rw [Std.ExtTreeMap.getElem?_erase]
      split
      · rename_i same
        cases Std.LawfulEqOrd.compare_eq_iff_eq.mp same
        exact found.symm
      · rfl
    rw [nothing]
    dsimp only [closeAll]
    rw [Traced.pure_then, absent]
  | some labels =>
    have mine : labelsOf s.toSaceNormalExcutor msg.msgClient = labels := by
      rw [labelsOf, found, Option.getD_some]
    have once := started.once msg.msgClient
    rw [mine] at once
    rw [commandsOf, mine, ← PipedExcutor.destroyLoop_closeAll wait once keys]
    rfl

theorem Started.excuteNormal_destroy {s : StartedExcutor} (started : s.Started) {r : Request}
    (destroy : r.msg.msgCmd.normalCmdType = .destroy) :
    s.toPipedExcutor.excuteNormal r =
      closeAll r.wait (commandsOf s.toPipedExcutor r.msg.msgClient) s.toPipedExcutor >>= fun t =>
        pure { t with mClientCmd := t.mClientCmd.erase r.msg.msgClient } := by
  have notStart : r.msg.msgCmd.normalCmdType ≠ .start := by
    rw [destroy]
    decide
  have notClose : r.msg.msgCmd.normalCmdType ≠ .close := by
    rw [destroy]
    decide
  rw [PipedExcutor.excuteNormal, Popens.excuteNormal, if_neg notStart, if_neg notClose,
    if_pos destroy]
  exact started.destroyNormalCmd r.msg r.wait

/-- What a DESTROY that has closed its commands leaves. -/
theorem Started.destroyed {s t : StartedExcutor} (started : s.Started) {r : Request}
    (destroy : r.msg.msgCmd.normalCmdType = .destroy) (moved : s.step r = some t) :
    (∀ (label : UInt64) (cmdInfo : CommandInfo), t.mSeqCmd[label]? = some cmdInfo ↔
        cmdInfo ∈ t.mRunningCmd ∧ cmdInfo.label = label) ∧
      t.mClientCmd = s.mClientCmd.erase r.msg.msgClient ∧
      t.mRunningCmd = s.mRunningCmd.filter
        (fun cmdInfo => s.starters[cmdInfo.label]? ≠ some r.msg.msgClient) := by
  obtain ⟨u, value, rfl⟩ := Option.map_eq_some_iff.mp moved
  rw [started.excuteNormal_destroy destroy, Traced.value_eq_some, Traced.bind_ok] at value
  obtain ⟨v, closed, done⟩ := value
  obtain ⟨tracked, running, clients⟩ := started.tracked.closeAll
    (started.commandsOf_nodup r.msg.msgClient)
    (fun cmdInfo here => (started.mem_commandsOf.mp here).1) closed
  cases done
  refine ⟨tracked.labels, by rw [clients], ?_⟩
  rw [running]
  apply List.filter_congr
  intro cmdInfo live
  rw [Bool.eq_iff_iff, decide_eq_true_iff, decide_eq_true_iff, started.mem_commandsOf]
  simp [live]

theorem Started.destroy_completes {s : StartedExcutor} (started : s.Started) {r : Request}
    (destroy : r.msg.msgCmd.normalCmdType = .destroy) :
    (∃ t, s.step r = some t) ↔ ∀ cmdInfo ∈ commandsOf s.toPipedExcutor r.msg.msgClient,
      ∃ answer ∈ r.wait cmdInfo.pid, answer ≠ .running := by
  rw [← started.tracked.closeAll_completes (started.commandsOf_nodup r.msg.msgClient)
    fun cmdInfo here => (started.mem_commandsOf.mp here).1]
  simp only [step, started.excuteNormal_destroy destroy]
  constructor
  · rintro ⟨t, moved⟩
    obtain ⟨u, value, _⟩ := Option.map_eq_some_iff.mp moved
    obtain ⟨v, closed, _⟩ := Traced.bind_ok.mp (Traced.value_eq_some.mp value)
    exact ⟨v, closed⟩
  · rintro ⟨v, closed⟩
    rw [Traced.bind_of_ok closed]
    exact ⟨_, rfl⟩

/-- A DESTROY hands the live commands that its client started to sace_pclose, each once, and
removes these and no others, whoever has closed which commands before. It ends when waitpid
answers once for each of them that the process does not run any more. -/
theorem destroy_exact {s : StartedExcutor} (reached : Runs.Reached step Provided {} s)
    {r : Request} (destroy : r.msg.msgCmd.normalCmdType = .destroy) :
    let client := r.msg.msgClient
    let cmdInfos := commandsOf s.toPipedExcutor client
    cmdInfos.Nodup ∧
    (∀ cmdInfo, cmdInfo ∈ cmdInfos ↔
      cmdInfo ∈ s.mRunningCmd ∧ s.starters[cmdInfo.label]? = some client) ∧
    s.toPipedExcutor.excuteNormal r = (closeAll r.wait cmdInfos s.toPipedExcutor >>= fun t =>
      pure { t with mClientCmd := t.mClientCmd.erase client }) ∧
    ((∃ t, s.step r = some t) ↔
      ∀ cmdInfo ∈ cmdInfos, ∃ answer ∈ r.wait cmdInfo.pid, answer ≠ .running) ∧
    ∀ t, s.step r = some t →
      t.mRunningCmd = s.mRunningCmd.filter
        (fun cmdInfo => s.starters[cmdInfo.label]? ≠ some client) ∧
      (∀ (label : UInt64) (cmdInfo : CommandInfo), t.mSeqCmd[label]? = some cmdInfo ↔
        s.mSeqCmd[label]? = some cmdInfo ∧ s.starters[label]? ≠ some client) ∧
      t.mClientCmd = s.mClientCmd.erase client := by
  intro client cmdInfos
  have started := reached_started reached
  refine ⟨started.commandsOf_nodup client, fun _ => started.mem_commandsOf,
    started.excuteNormal_destroy destroy, started.destroy_completes destroy, fun t moved => ?_⟩
  obtain ⟨labels, clients, left⟩ := started.destroyed destroy moved
  refine ⟨left, fun label cmdInfo => ?_, clients⟩
  have after := labels label cmdInfo
  rw [left, List.mem_filter, decide_eq_true_iff] at after
  rw [started.tracked.labels, after]
  constructor
  · rintro ⟨⟨live, other⟩, rfl⟩
    exact ⟨⟨live, rfl⟩, other⟩
  · rintro ⟨⟨live, rfl⟩, other⟩
    exact ⟨⟨live, other⟩, rfl⟩

/-! Two clients start a command each and a third closes the first one's; the first one starts
another and leaves. -/

def destroyBy (client : SaceClientIdentifier) : Request :=
  { startBy client 10 64 12 with
    msg :=
      { msgHandler := .normal
        msgCmd := { sequence := 10, name := str "200:2"
                    subType := SaceNormalCommandType.destroy.byte }
        msgWriter := ⟨.socket 5, client.pid⟩
        msgClient := client } }

def history : List Request :=
  [startBy ⟨1000, 200⟩ 7 16 8, startBy ⟨1000, 300⟩ 7 32 10,
    closeBy ⟨0, 100⟩ (sequenceToLabel 7 16), startBy ⟨1000, 200⟩ 8 48 8]

theorem history_left : ∃ s t : StartedExcutor, Runs.Reached step Provided {} s ∧
    s.step (destroyBy ⟨1000, 200⟩) = some t ∧
    s.mRunningCmd.map (·.label) = [sequenceToLabel 7 32, sequenceToLabel 8 48] ∧
    t.mRunningCmd = s.mRunningCmd.filter
      (fun cmdInfo => s.starters[cmdInfo.label]? ≠ some ⟨1000, 200⟩) ∧
    t.mRunningCmd.map (·.label) = [sequenceToLabel 7 32] := by
  have labels : (Runs.run step {} history).map (fun s => s.mRunningCmd.map (·.label)) =
      some [sequenceToLabel 7 32, sequenceToLabel 8 48] := by decide +kernel
  obtain ⟨s, ran, before⟩ := Option.map_eq_some_iff.mp labels
  have reached : Runs.Reached step Provided {} s :=
    Runs.run_reached (by decide +kernel) ran
  have left : ((Runs.run step {} history).bind (step · (destroyBy ⟨1000, 200⟩))).map
      (fun t => t.mRunningCmd.map (·.label)) = some [sequenceToLabel 7 32] := by decide +kernel
  rw [ran, Option.bind_some] at left
  obtain ⟨t, moved, after⟩ := Option.map_eq_some_iff.mp left
  obtain ⟨-, -, -, -, exact_⟩ := destroy_exact reached (r := destroyBy ⟨1000, 200⟩) rfl
  exact ⟨s, t, reached, moved, before, (exact_ t moved).1, after⟩

end StartedExcutor
end Sace
