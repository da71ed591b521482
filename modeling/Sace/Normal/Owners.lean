import Sace.Library.Runs
import Sace.Normal.Steps

/-! Which client's list a label of the normal executor stands in. The lists are kept by the
client that sends a request, the commands are found by label alone. -/
namespace Sace

/-- The executor and, for every label that a START has given, the client that sent it. The
executor itself does not record the client. -/
structure OwnedExcutor extends SaceNormalExcutor where
  starters : Table UInt64 SaceClientIdentifier := ∅

namespace OwnedExcutor

structure Request where
  msg : SaceReaderMessage
  env : ParseEnv
  answers : PopenAnswers
  wait : Int → List WaitAnswer

def Request.label (r : Request) : UInt64 :=
  sequenceToLabel r.msg.msgCmd.sequence r.answers.address

def Request.Starts (r : Request) : Prop :=
  r.msg.msgCmd.normalCmdType = .start ∧ 0 ≤ r.answers.fd

instance (r : Request) : Decidable r.Starts := inferInstanceAs (Decidable (_ ∧ _))

def step (s : OwnedExcutor) (r : Request) : Option OwnedExcutor :=
  (s.toSaceNormalExcutor.excuteNormal r.msg r.env r.answers r.wait).value.map fun t =>
    { t with starters :=
        if r.Starts then s.starters.insert r.label r.msg.msgClient else s.starters }

/-- The label that a START gives is in use for no command. -/
def Provided (s : OwnedExcutor) (r : Request) : Prop :=
  r.Starts → s.mSeqCmd[r.label]? = none

/-- A CLOSE that finds its command comes from the client that started it. -/
def Careful (s : OwnedExcutor) (r : Request) : Prop :=
  r.msg.msgCmd.normalCmdType = .close → ∀ cmdInfo, s.mSeqCmd[r.msg.msgCmd.label]? = some cmdInfo →
    s.starters[r.msg.msgCmd.label]? = some r.msg.msgClient

def Holds (s : SaceNormalExcutor) (client : SaceClientIdentifier) (label : UInt64) : Prop :=
  ∃ labels, s.mClientCmd[client]? = some labels ∧ label ∈ labels

/-- The clients' lists hold the labels of the live commands, each once and in the list of the
client that started the command, and no list is empty. -/
structure Owned (s : OwnedExcutor) : Prop where
  keys : ∀ (label : UInt64) (cmdInfo : CommandInfo),
    s.mSeqCmd[label]? = some cmdInfo → cmdInfo.label = label
  live : ∀ client label, Holds s.toSaceNormalExcutor client label →
    ∃ cmdInfo, s.mSeqCmd[label]? = some cmdInfo
  owner : ∀ (label : UInt64) (cmdInfo : CommandInfo), s.mSeqCmd[label]? = some cmdInfo →
    ∃ client, s.starters[label]? = some client ∧
      ∀ other, Holds s.toSaceNormalExcutor other label ↔ other = client
  once : ∀ (client : SaceClientIdentifier) (labels : List UInt64),
    s.mClientCmd[client]? = some labels → labels.Nodup
  nonempty : ∀ (client : SaceClientIdentifier) (labels : List UInt64),
    s.mClientCmd[client]? = some labels → labels ≠ []

/-! ### What a request does to the two tables -/

theorem closeCmd_tables {s t : SaceNormalExcutor} {label : UInt64} {cmdInfo : CommandInfo}
    {wait : Int → List WaitAnswer} (done : (s.closeCmd label cmdInfo wait).result = .ok t) :
    t.mSeqCmd = s.mSeqCmd.erase label ∧ t.mClientCmd = s.mClientCmd := by
  obtain ⟨_, rfl⟩ := SaceNormalExcutor.closeCmd_ok done
  exact ⟨rfl, rfl⟩

theorem destroyLoop_tables {wait : Int → List WaitAnswer} {labels : List UInt64}
    {s t : SaceNormalExcutor}
    (done : (SaceNormalExcutor.destroyLoop wait labels s).result = .ok t) :
    (∀ (label : UInt64) (cmdInfo : CommandInfo), t.mSeqCmd[label]? = some cmdInfo ↔
      label ∉ labels ∧ s.mSeqCmd[label]? = some cmdInfo) ∧ t.mClientCmd = s.mClientCmd := by
  induction labels generalizing s with
  | nil =>
    cases done
    simp
  | cons label labels ih =>
    unfold SaceNormalExcutor.destroyLoop Popens.destroyLoop at done
    split at done
    · rename_i absent
      obtain ⟨seq, clients⟩ := ih done
      refine ⟨fun other cmdInfo => ?_, clients⟩
      rw [seq, List.mem_cons, not_or]
      constructor
      · rintro ⟨out, entry⟩
        refine ⟨⟨?_, out⟩, entry⟩
        rintro rfl
        cases absent.symm.trans entry
      · rintro ⟨⟨-, out⟩, entry⟩
        exact ⟨out, entry⟩
    · obtain ⟨u, closed, done⟩ := Traced.bind_ok.mp done
      obtain ⟨erased, same⟩ := closeCmd_tables closed
      obtain ⟨seq, clients⟩ := ih done
      refine ⟨fun other cmdInfo => ?_, clients.trans same⟩
      rw [seq, erased, Table.erase_some, List.mem_cons, not_or]
      constructor
      · rintro ⟨out, ne, entry⟩
        exact ⟨⟨Ne.symm ne, out⟩, entry⟩
      · rintro ⟨⟨ne, out⟩, entry⟩
        exact ⟨out, Ne.symm ne, entry⟩

def labelsOf (s : SaceNormalExcutor) (client : SaceClientIdentifier) : List UInt64 :=
  (s.mClientCmd[client]?).getD []

/-- The lists after a CLOSE of a client's label; an empty list is not kept. -/
def removed (clients : Table SaceClientIdentifier (List UInt64)) (client : SaceClientIdentifier)
    (label : UInt64) : Table SaceClientIdentifier (List UInt64) :=
  match clients[client]? with
  | none => clients
  | some labels =>
    if labels.erase label = [] then clients.erase client
    else clients.insert client (labels.erase label)

theorem removed_some {clients : Table SaceClientIdentifier (List UInt64)}
    {client other : SaceClientIdentifier} {label : UInt64} {labels : List UInt64}
    (nonempty : ∀ (c : SaceClientIdentifier) (l : List UInt64), clients[c]? = some l → l ≠ []) :
    (removed clients client label)[other]? = some labels ↔ labels ≠ [] ∧
      ∃ before, clients[other]? = some before ∧
        labels = if other = client then before.erase label else before := by
  have kept : clients[other]? = some labels → labels ≠ [] := nonempty other labels
  unfold removed
  split
  · rename_i absent
    by_cases here : other = client
    · subst here
      simp [absent]
    · simpa [here] using kept
  · rename_i before found
    by_cases here : other = client
    · subst here
      split
      · rename_i last
        simp only [Table.erase_some, ne_eq, not_true_eq_false, false_and, false_iff, not_and,
          if_true]
        rintro left ⟨_, found', rfl⟩
        rw [found] at found'
        cases found'
        exact left last
      · rename_i left
        simp only [Table.insert_some, true_and, not_true_eq_false, ne_eq, false_and, or_false,
          found, Option.some.injEq, exists_eq_left', if_true]
        constructor
        · rintro rfl
          exact ⟨left, rfl⟩
        · intro both
          exact both.2.symm
    · have ne : client ≠ other := Ne.symm here
      split
      · simpa [Table.erase_some, ne, here] using kept
      · simpa [Table.insert_some, ne, here] using kept

inductive Outcome (s : OwnedExcutor) (r : Request) (t : OwnedExcutor) : Prop
  | start (starts : r.Starts) (cmdInfo : CommandInfo) (label : cmdInfo.label = r.label)
      (seq : t.mSeqCmd = s.mSeqCmd.insertIfNew r.label cmdInfo)
      (clients : t.mClientCmd = s.mClientCmd.insert r.msg.msgClient
        (labelsOf s.toSaceNormalExcutor r.msg.msgClient ++ [r.label]))
      (starters : t.starters = s.starters.insert r.label r.msg.msgClient)
  | close (close : r.msg.msgCmd.normalCmdType = .close) (cmdInfo : CommandInfo)
      (found : s.mSeqCmd[r.msg.msgCmd.label]? = some cmdInfo)
      (seq : t.mSeqCmd = s.mSeqCmd.erase r.msg.msgCmd.label)
      (clients : t.mClientCmd = removed s.mClientCmd r.msg.msgClient cmdInfo.label)
      (starters : t.starters = s.starters)
  | destroy (destroy : r.msg.msgCmd.normalCmdType = .destroy) (labels : List UInt64)
      (found : s.mClientCmd[r.msg.msgClient]? = some labels)
      (seq : ∀ (label : UInt64) (cmdInfo : CommandInfo), t.mSeqCmd[label]? = some cmdInfo ↔
        label ∉ labels ∧ s.mSeqCmd[label]? = some cmdInfo)
      (clients : t.mClientCmd = s.mClientCmd.erase r.msg.msgClient)
      (starters : t.starters = s.starters)
  | nothing (unfound : r.msg.msgCmd.normalCmdType = .close →
        s.mSeqCmd[r.msg.msgCmd.label]? = none)
      (seq : t.mSeqCmd = s.mSeqCmd) (clients : t.mClientCmd = s.mClientCmd)
      (starters : t.starters = s.starters)

theorem step_outcome {s t : OwnedExcutor} {r : Request} (moved : s.step r = some t) :
    Outcome s r t := by
  obtain ⟨u, value, rfl⟩ := Option.map_eq_some_iff.mp moved
  have done := Traced.value_eq_some.mp value
  have other (kind : r.msg.msgCmd.normalCmdType ≠ .start) :
      (if r.Starts then s.starters.insert r.label r.msg.msgClient else s.starters) = s.starters :=
    if_neg fun starts => kind starts.1
  cases Popens.excuteNormal_done done with
  | start kind started =>
    unfold SaceNormalExcutor.startNormalCmd at started
    dsimp only at started
    split at started
    · rename_i failed
      have refused : ¬ r.Starts := fun starts => by have := starts.2; omega
      cases started
      refine .nothing (fun close => ?_) rfl rfl (by simp [refused])
      rw [kind] at close
      cases close
    · rename_i given
      have starts : r.Starts := ⟨kind, by omega⟩
      cases started
      refine .start starts _ rfl rfl ?_ (by simp [starts])
      unfold labelsOf
      dsimp only
      cases s.mClientCmd[r.msg.msgClient]? <;> rfl
  | unfound kind absent same =>
    cases same
    exact .nothing (fun _ => absent) rfl rfl (other (by rw [kind]; decide))
  | close kind cmdInfo v found closed ended =>
    obtain ⟨erased, same⟩ := closeCmd_tables closed
    cases ended
    exact .close kind cmdInfo found erased (congrArg (removed · _ _) same)
      (other (by rw [kind]; decide))
  | destroy kind labels v found destroyed ended =>
    obtain ⟨seq, same⟩ := destroyLoop_tables destroyed
    cases ended
    refine .destroy kind labels found seq ?_ (other (by rw [kind]; decide))
    exact congrArg (Std.ExtTreeMap.erase · _) same
  | nothing start close same =>
    cases same
    exact .nothing (fun kind => absurd kind close) rfl rfl (other start)

/-! ### Ownership step by step -/

theorem mem_labelsOf {s : SaceNormalExcutor} {client : SaceClientIdentifier} {label : UInt64} :
    label ∈ labelsOf s client ↔ Holds s client label := by
  unfold labelsOf Holds
  cases s.mClientCmd[client]? <;> simp

theorem Owned.labelsOf_nodup {s : OwnedExcutor} (owned : s.Owned) (client : SaceClientIdentifier) :
    (labelsOf s.toSaceNormalExcutor client).Nodup := by
  unfold labelsOf
  cases found : s.mClientCmd[client]? with
  | none => exact List.nodup_nil
  | some labels => exact owned.once client labels found

/-- What is held after a START. -/
theorem holds_added {s t : OwnedExcutor} {client : SaceClientIdentifier} {label : UInt64}
    (clients : t.mClientCmd =
      s.mClientCmd.insert client (labelsOf s.toSaceNormalExcutor client ++ [label]))
    (other : SaceClientIdentifier) (held : UInt64) :
    Holds t.toSaceNormalExcutor other held ↔
      Holds s.toSaceNormalExcutor other held ∨ (other = client ∧ held = label) := by
  by_cases here : other = client
  · subst here
    simp [Holds, clients, mem_labelsOf]
  · simp [Holds, clients, Table.insert_some, here, Ne.symm here]

theorem Owned.start {s t : OwnedExcutor} {client : SaceClientIdentifier} {cmdInfo : CommandInfo}
    (owned : s.Owned) (new : s.mSeqCmd[cmdInfo.label]? = none)
    (seq : t.mSeqCmd = s.mSeqCmd.insertIfNew cmdInfo.label cmdInfo)
    (clients : t.mClientCmd =
      s.mClientCmd.insert client (labelsOf s.toSaceNormalExcutor client ++ [cmdInfo.label]))
    (starters : t.starters = s.starters.insert cmdInfo.label client) : t.Owned := by
  have unheld : ∀ other, ¬ Holds s.toSaceNormalExcutor other cmdInfo.label := by
    intro other held
    obtain ⟨_, entry⟩ := owned.live other _ held
    rw [new] at entry
    cases entry
  have holds := holds_added clients
  constructor
  · intro label info entry
    rw [seq, Table.insertIfNew_some new] at entry
    rcases entry with ⟨rfl, rfl⟩ | entry
    · rfl
    · exact owned.keys label info entry
  · intro other label held
    rcases (holds other label).mp held with held | ⟨-, rfl⟩
    · obtain ⟨info, entry⟩ := owned.live other label held
      exact ⟨info, by rw [seq]; exact Table.insertIfNew_keeps entry⟩
    · exact ⟨cmdInfo, by rw [seq, Table.insertIfNew_some new]; exact .inl ⟨rfl, rfl⟩⟩
  · intro label info entry
    rw [seq, Table.insertIfNew_some new] at entry
    rcases entry with ⟨rfl, rfl⟩ | entry
    · refine ⟨client, by rw [starters, Table.insert_some]; exact .inl ⟨rfl, rfl⟩, fun other => ?_⟩
      rw [holds]
      simp [unheld]
    · obtain ⟨owner, starter, only⟩ := owned.owner label info entry
      have ne : cmdInfo.label ≠ label := by
        rintro rfl
        rw [new] at entry
        cases entry
      refine ⟨owner, by rw [starters, Table.insert_some]; exact .inr ⟨ne, starter⟩,
        fun other => ?_⟩
      rw [holds, only]
      simp [Ne.symm ne]
  · intro other labels entry
    rw [clients, Table.insert_some] at entry
    rcases entry with ⟨rfl, rfl⟩ | ⟨-, entry⟩
    · refine List.nodup_append.mpr ⟨owned.labelsOf_nodup client, List.nodup_singleton _, ?_⟩
      rintro label member _ last rfl
      cases List.mem_singleton.mp last
      exact unheld client (mem_labelsOf.mp member)
    · exact owned.once other labels entry
  · intro other labels entry
    rw [clients, Table.insert_some] at entry
    rcases entry with ⟨rfl, rfl⟩ | ⟨-, entry⟩
    · simp
    · exact owned.nonempty other labels entry

theorem Owned.holds_removed {s t : OwnedExcutor} {client : SaceClientIdentifier} {label : UInt64}
    (owned : s.Owned) (clients : t.mClientCmd = removed s.mClientCmd client label)
    (other : SaceClientIdentifier) (held : UInt64) :
    Holds t.toSaceNormalExcutor other held ↔
      Holds s.toSaceNormalExcutor other held ∧ ¬ (other = client ∧ held = label) := by
  simp only [Holds, clients, removed_some owned.nonempty]
  constructor
  · rintro ⟨labels, ⟨-, before, found, rfl⟩, member⟩
    split at member
    · rename_i here
      have nodup := owned.once other before found
      refine ⟨⟨before, found, List.mem_of_mem_erase member⟩, ?_⟩
      rintro ⟨-, rfl⟩
      exact nodup.not_mem_erase member
    · rename_i here
      exact ⟨⟨before, found, member⟩, fun both => here both.1⟩
  · rintro ⟨⟨before, found, member⟩, kept⟩
    have still : held ∈ if other = client then before.erase label else before := by
      split
      · rename_i here
        refine (List.mem_erase_of_ne ?_).mpr member
        rintro rfl
        exact kept ⟨here, rfl⟩
      · exact member
    exact ⟨_, ⟨List.ne_nil_of_mem still, before, found, rfl⟩, still⟩

theorem Owned.close {s t : OwnedExcutor} {client : SaceClientIdentifier} {label : UInt64}
    (owned : s.Owned) (starter : s.starters[label]? = some client)
    (seq : t.mSeqCmd = s.mSeqCmd.erase label)
    (clients : t.mClientCmd = removed s.mClientCmd client label)
    (starters : t.starters = s.starters) : t.Owned := by
  have holds := owned.holds_removed clients
  constructor
  · intro other info entry
    rw [seq, Table.erase_some] at entry
    exact owned.keys other info entry.2
  · intro other held member
    obtain ⟨before, kept⟩ := (holds other held).mp member
    obtain ⟨info, entry⟩ := owned.live other held before
    refine ⟨info, ?_⟩
    rw [seq, Table.erase_some]
    refine ⟨?_, entry⟩
    rintro rfl
    obtain ⟨owner, recorded, only⟩ := owned.owner _ info entry
    rw [starter] at recorded
    cases recorded
    exact kept ⟨(only other).mp before, rfl⟩
  · intro other info entry
    rw [seq, Table.erase_some] at entry
    obtain ⟨ne, entry⟩ := entry
    obtain ⟨owner, recorded, only⟩ := owned.owner other info entry
    refine ⟨owner, by rw [starters]; exact recorded, fun third => ?_⟩
    rw [holds, only]
    simp [Ne.symm ne]
  · intro other labels entry
    rw [clients, removed_some owned.nonempty] at entry
    obtain ⟨-, before, found, rfl⟩ := entry
    split
    · exact (owned.once other before found).erase _
    · exact owned.once other before found
  · intro other labels entry
    rw [clients, removed_some owned.nonempty] at entry
    exact entry.1

theorem Owned.close_foreign {s t : OwnedExcutor} {client : SaceClientIdentifier} {label : UInt64}
    (owned : s.Owned) (starter : s.starters[label]? ≠ some client)
    (live : ∃ cmdInfo, s.mSeqCmd[label]? = some cmdInfo)
    (seq : t.mSeqCmd = s.mSeqCmd.erase label)
    (clients : t.mClientCmd = removed s.mClientCmd client label) : ¬ t.Owned := by
  obtain ⟨info, entry⟩ := live
  obtain ⟨owner, recorded, only⟩ := owned.owner label info entry
  have other : owner ≠ client := by
    rintro rfl
    exact starter recorded
  have stale : Holds t.toSaceNormalExcutor owner label :=
    (owned.holds_removed clients owner label).mpr
      ⟨(only owner).mpr rfl, fun both => other both.1⟩
  intro after
  obtain ⟨info', entry'⟩ := after.live owner label stale
  rw [seq, Table.erase_some] at entry'
  exact entry'.1 rfl

theorem Owned.destroy {s t : OwnedExcutor} {client : SaceClientIdentifier} {labels : List UInt64}
    (owned : s.Owned) (found : s.mClientCmd[client]? = some labels)
    (seq : ∀ (label : UInt64) (cmdInfo : CommandInfo), t.mSeqCmd[label]? = some cmdInfo ↔
      label ∉ labels ∧ s.mSeqCmd[label]? = some cmdInfo)
    (clients : t.mClientCmd = s.mClientCmd.erase client)
    (starters : t.starters = s.starters) : t.Owned := by
  have list : ∀ (other : SaceClientIdentifier) (labels : List UInt64),
      t.mClientCmd[other]? = some labels ↔ client ≠ other ∧ s.mClientCmd[other]? = some labels := by
    intro other labels
    rw [clients, Table.erase_some]
  have holds : ∀ other label, Holds t.toSaceNormalExcutor other label ↔
      client ≠ other ∧ Holds s.toSaceNormalExcutor other label := by
    intro other label
    simp only [Holds, list]
    constructor
    · rintro ⟨labels, ⟨ne, entry⟩, member⟩
      exact ⟨ne, labels, entry, member⟩
    · rintro ⟨ne, labels, entry, member⟩
      exact ⟨labels, ⟨ne, entry⟩, member⟩
  have mine : ∀ label, label ∈ labels ↔ Holds s.toSaceNormalExcutor client label := by
    intro label
    simp [Holds, found]
  constructor
  · intro label info entry
    exact owned.keys label info ((seq label info).mp entry).2
  · intro other label held
    obtain ⟨ne, before⟩ := (holds other label).mp held
    obtain ⟨info, entry⟩ := owned.live other label before
    refine ⟨info, (seq label info).mpr ⟨?_, entry⟩⟩
    rw [mine]
    intro also
    obtain ⟨owner, -, only⟩ := owned.owner label info entry
    exact ne (((only client).mp also).trans ((only other).mp before).symm)
  · intro label info entry
    obtain ⟨out, entry⟩ := (seq label info).mp entry
    obtain ⟨owner, recorded, only⟩ := owned.owner label info entry
    refine ⟨owner, by rw [starters]; exact recorded, fun other => ?_⟩
    rw [holds, only]
    refine ⟨And.right, fun same => ⟨?_, same⟩⟩
    rintro rfl
    exact out ((mine label).mpr ((only client).mpr same))
  · intro other labels entry
    exact owned.once other labels ((list other labels).mp entry).2
  · intro other labels entry
    exact owned.nonempty other labels ((list other labels).mp entry).2

theorem Owned.unchanged {s t : OwnedExcutor} (owned : s.Owned) (seq : t.mSeqCmd = s.mSeqCmd)
    (clients : t.mClientCmd = s.mClientCmd) (starters : t.starters = s.starters) : t.Owned := by
  obtain ⟨keys, live, owner, once, nonempty⟩ := owned
  constructor
  · rwa [seq]
  · simpa only [Holds, seq, clients] using live
  · simpa only [Holds, seq, clients, starters] using owner
  · rwa [clients]
  · rwa [clients]

/-- A completed request keeps ownership exactly when it is careful. -/
theorem step_owned_iff {s t : OwnedExcutor} {r : Request} (owned : s.Owned)
    (provided : s.Provided r) (moved : s.step r = some t) : t.Owned ↔ s.Careful r := by
  cases step_outcome moved with
  | start starts cmdInfo label seq clients starters =>
    have careful : s.Careful r := by
      intro close
      rw [starts.1] at close
      cases close
    rw [← label] at seq clients starters
    have new := provided starts
    rw [← label] at new
    exact iff_of_true (owned.start new seq clients starters) careful
  | close close cmdInfo found seq clients starters =>
    rw [owned.keys _ _ found] at clients
    constructor
    · intro after _ _ _
      by_contra foreign
      exact owned.close_foreign foreign ⟨cmdInfo, found⟩ seq clients after
    · intro careful
      exact owned.close (careful close cmdInfo found) seq clients starters
  | destroy destroy labels found seq clients starters =>
    have careful : s.Careful r := by
      intro close
      rw [destroy] at close
      cases close
    exact iff_of_true (owned.destroy found seq clients starters) careful
  | nothing unfound seq clients starters =>
    have careful : s.Careful r := by
      intro close cmdInfo found
      rw [unfound close] at found
      cases found
    exact iff_of_true (owned.unchanged seq clients starters) careful

theorem empty_owned : Owned {} where
  keys := by simp
  live := by simp [Holds]
  owner := by simp
  once := by simp
  nonempty := by simp

/-- As long as every CLOSE that finds its command comes from the client that started it, the
clients' lists say who owns which command. -/
theorem reached_owned {s : OwnedExcutor}
    (reached : Runs.Reached step (fun s r => s.Provided r ∧ s.Careful r) {} s) : s.Owned :=
  reached.invariant empty_owned fun _ _ _ owned admitted moved =>
    (step_owned_iff owned admitted.1 moved).mpr admitted.2

/-! A client starts a command; it or another one closes it. -/

def startRequest : Request where
  msg :=
    { msgHandler := .normal
      msgCmd := { sequence := 7, name := str "200:0", command := str "ls" }
      msgWriter := ⟨.socket 5, 200⟩
      msgClient := ⟨1000, 200⟩ }
  env := .empty
  answers := { address := 16, fd := 8, pid := 300 }
  wait := fun _ => []

def closeRequest (client : SaceClientIdentifier) : Request where
  msg :=
    { msgHandler := .normal
      msgCmd :=
        { sequence := 8, label := startRequest.label, name := str "200:1"
          subType := SaceNormalCommandType.close.byte }
      msgWriter := ⟨.socket 6, client.pid⟩
      msgClient := client }
  env := .empty
  answers := { address := 32, fd := 9, pid := 301 }
  wait := fun _ => [.reaped 0]

def closing (client : SaceClientIdentifier) : Option OwnedExcutor :=
  Runs.run step {} [startRequest, closeRequest client]

theorem closing_reached {client : SaceClientIdentifier} {s : OwnedExcutor}
    (ran : closing client = some s) : Runs.Reached step Provided {} s := by
  have admitted : Runs.Admitted step Provided {} [startRequest, closeRequest client] := by
    constructor
    · intro _
      simp
    · refine fun t _ => ⟨fun starts => ?_, fun _ _ => trivial⟩
      cases starts.1
  exact Runs.run_reached admitted ran

theorem closed_owned : ∃ s : OwnedExcutor, closing startRequest.msg.msgClient = some s ∧
    s.Owned := by
  have recorded : (step {} startRequest).map (·.starters[startRequest.label]?) =
      some (some startRequest.msg.msgClient) := by decide
  have some_ : (closing startRequest.msg.msgClient).isSome := by decide
  obtain ⟨s, ran⟩ := Option.isSome_iff_exists.mp some_
  refine ⟨s, ran, reached_owned (Runs.run_reached ?_ ran)⟩
  constructor
  · refine ⟨fun _ => by simp, fun close => ?_⟩
    cases close
  · intro t started
    refine ⟨⟨fun starts => ?_, fun _ _ _ => ?_⟩, fun _ _ => trivial⟩
    · cases starts.1
    · rw [started] at recorded
      exact Option.some.inj recorded

/-- The other client's CLOSE takes the command away and leaves its label with the first. -/
theorem foreign_close : ∃ s : OwnedExcutor, Runs.Reached step Provided {} s ∧
    ∃ client label, Holds s.toSaceNormalExcutor client label ∧ s.mSeqCmd[label]? = none := by
  have lists : (closing ⟨0, 100⟩).map (fun s => (s.mSeqCmd[startRequest.label]?,
      s.mClientCmd[startRequest.msg.msgClient]?)) = some (none, some [startRequest.label]) := by
    decide
  obtain ⟨s, ran, both⟩ := Option.map_eq_some_iff.mp lists
  rw [Prod.mk.injEq] at both
  exact ⟨s, closing_reached ran, startRequest.msg.msgClient, startRequest.label,
    ⟨_, both.2, List.mem_singleton_self _⟩, both.1⟩

end OwnedExcutor
end Sace
