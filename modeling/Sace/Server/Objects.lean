import Sace.Normal.Listed
import Sace.Server
import Sace.Service.Live
import Sace.Service.Reach

/-! The services and commands of the server. They are objects of one heap, and tables and
requests know them by labels that hold half of their addresses. -/
namespace Sace

structure LabelledExcutors where
  service : SaceServiceExcutor := {}
  normal : SaceNormalExcutor := {}

namespace LabelledExcutors

inductive Task where
  | service (work : SaceServiceExcutor.Work)
  | normal (r : OwnedExcutor.Request)

def step (x : LabelledExcutors) : Task → Option LabelledExcutors
  | .service work => (x.service.work work).value.map fun service => { x with service }
  | .normal r =>
    (x.normal.excuteNormal r.msg r.env r.answers r.wait).value.map fun normal =>
      { x with normal }

def live (x : LabelledExcutors) : List (UInt64 × UInt64) :=
  x.service.live ++ x.normal.mRunningCmd.map fun cmdInfo => (cmdInfo.address, cmdInfo.label)

def adds (x : LabelledExcutors) : Task → Option (UInt32 × UInt64)
  | .service work => x.service.adds work
  | .normal r => if r.Starts then some (r.msg.msgCmd.sequence, r.answers.address) else none

def Distinct (x : LabelledExcutors) : Prop := ∀ a ∈ x.live, ∀ b ∈ x.live, a.2 = b.2 → a.1 = b.1

/-- The insertion of a new object by its label finds no entry in its way. -/
def Vacant (x : LabelledExcutors) : Task → Prop
  | .service work => ∀ new ∈ x.service.adds work,
      sequenceToLabel new.1 new.2 ∉ x.service.mSeqService
  | .normal r => r.Starts → r.label ∉ x.normal.mSeqCmd

/-- The allocator answers with an address at which no live object lies. -/
def Provided (x : LabelledExcutors) (task : Task) : Prop :=
  ∀ new ∈ x.adds task, ∀ a ∈ x.live, a.1 ≠ new.2

/-- No live object with the sequence of a new one has the lower half of its address. -/
def Apart (x : LabelledExcutors) (task : Task) : Prop :=
  ∀ new ∈ x.adds task, ∀ a ∈ x.live,
    labelToSequence a.2 = new.1 → a.1.toUInt32 ≠ new.2.toUInt32

/-- Tables that are right, and labels made of sequences and of the addresses they lead to. -/
structure Ordered (x : LabelledExcutors) : Prop where
  owned : x.service.Owned
  indexed : x.service.Indexed
  listed : x.normal.Listed
  carried : ∀ a ∈ x.live, sequenceToLabel (labelToSequence a.2) a.1 = a.2
  distinct : x.Distinct

variable {x y : LabelledExcutors} {task : Task}

theorem provided_iff :
    ((x.adds task).all fun new => x.live.all fun a => a.1 ≠ new.2) = true ↔ x.Provided task := by
  simp only [Provided, Option.all_eq_true, List.all_eq_true, decide_eq_true_eq, Option.mem_def]

theorem apart_iff :
    ((x.adds task).all fun new => x.live.all fun a =>
      labelToSequence a.2 ≠ new.1 || a.1.toUInt32 ≠ new.2.toUInt32) = true ↔ x.Apart task := by
  simp only [Apart, Option.all_eq_true, List.all_eq_true, Bool.or_eq_true, decide_eq_true_eq,
    Option.mem_def, ← imp_iff_not_or]

instance : Decidable (x.Provided task) := decidable_of_iff _ provided_iff

instance : Decidable (x.Apart task) := decidable_of_iff _ apart_iff

theorem mem_live {a : UInt64 × UInt64} : a ∈ x.live ↔ a ∈ x.service.live ∨
    ∃ cmdInfo ∈ x.normal.mRunningCmd, (cmdInfo.address, cmdInfo.label) = a := by
  simp only [live, List.mem_append, List.mem_map]

theorem Ordered.empty : Ordered {} where
  owned := .empty
  indexed := SaceServiceExcutor.Kept.empty.indexed
  listed := .empty
  carried := by simp [live, SaceServiceExcutor.live]
  distinct := by simp [Distinct, live, SaceServiceExcutor.live]

/-! ### One step -/

/-- What a live object's label is equal to. -/
theorem Ordered.carries (ordered : x.Ordered) {a : UInt64 × UInt64} (member : a ∈ x.live)
    (sequence : UInt32) (p : UInt64) :
    a.2 = sequenceToLabel sequence p ↔
      labelToSequence a.2 = sequence ∧ a.1.toUInt32 = p.toUInt32 := by
  have same := @sequenceToLabel_eq_iff (labelToSequence a.2) sequence a.1 p
  rwa [ordered.carried a member] at same

theorem Ordered.unused_iff (ordered : x.Ordered) : x.Apart task ↔
    ∀ new ∈ x.adds task, ∀ a ∈ x.live, a.2 ≠ sequenceToLabel new.1 new.2 := by
  constructor
  · intro apart new adds a member same
    obtain ⟨sequence, half⟩ := (ordered.carries member _ _).mp same
    exact apart new adds a member sequence half
  · intro unused new adds a member sequence half
    exact unused new adds a member ((ordered.carries member _ _).mpr ⟨sequence, half⟩)

theorem Ordered.vacant (ordered : x.Ordered) (apart : x.Apart task) : x.Vacant task := by
  have unused := ordered.unused_iff.mp apart
  cases task with
  | service work =>
    intro new adds taken
    obtain ⟨p, found⟩ := Table.some_of_mem taken
    obtain ⟨sveInfo, held, label⟩ := ordered.owned.seq _ p found
    exact unused new adds (p, _)
      (mem_live.mpr (.inl (SaceServiceExcutor.mem_live.mpr ⟨sveInfo, held, label⟩))) rfl
  | normal r =>
    intro starts taken
    obtain ⟨cmdInfo, found⟩ := Table.some_of_mem taken
    obtain ⟨running, label⟩ := (ordered.listed.labels _ _).mp found
    exact unused (_, r.answers.address) (by simp [adds, starts]) _
      (mem_live.mpr (.inr ⟨cmdInfo, running, rfl⟩)) label

/-- After a step the live objects are those from before, and the one that it has entered. -/
theorem step_live (listed : x.normal.Listed) (moved : x.step task = some y)
    {a : UInt64 × UInt64} (member : a ∈ y.live) :
    a ∈ x.live ∨ ∃ new ∈ x.adds task, a = (new.2, sequenceToLabel new.1 new.2) := by
  cases task with
  | service work =>
    obtain ⟨t, value, rfl⟩ := Option.map_eq_some_iff.mp moved
    have done := Traced.value_eq_some.mp value
    rcases mem_live.mp member with member | running
    · cases enters : x.service.adds work with
      | none =>
        have older := SaceServiceExcutor.work_older enters done
        exact .inl (mem_live.mpr (.inl (older.subset member)))
      | some new =>
        obtain ⟨sveInfo, label, -, rfl⟩ := SaceServiceExcutor.work_adds enters done
        obtain ⟨info, held, own⟩ := SaceServiceExcutor.mem_live.mp member
        rcases (Table.insert_some ..).mp held with ⟨here, rfl⟩ | ⟨_, held⟩
        · exact .inr ⟨new, enters, Prod.ext here.symm (own.symm.trans label)⟩
        · exact .inl (mem_live.mpr (.inl (SaceServiceExcutor.mem_live.mpr ⟨info, held, own⟩)))
    · exact .inl (mem_live.mpr (.inr running))
  | normal r =>
    obtain ⟨t, value, rfl⟩ := Option.map_eq_some_iff.mp moved
    have done := Traced.value_eq_some.mp value
    rcases mem_live.mp member with member | ⟨cmdInfo, running, rfl⟩
    · exact .inl (mem_live.mpr (.inl member))
    · by_cases starts : r.Starts
      · rw [(OwnedExcutor.Request.excuteNormal_starts starts done).1, List.mem_append,
          List.mem_singleton] at running
        rcases running with running | rfl
        · exact .inl (mem_live.mpr (.inr ⟨cmdInfo, running, rfl⟩))
        · exact .inr ⟨(r.msg.msgCmd.sequence, r.answers.address), by simp [adds, starts], rfl⟩
      · have fewer := (OwnedExcutor.Request.excuteNormal_lists listed starts done).2
        exact .inl (mem_live.mpr (.inr ⟨cmdInfo, fewer running, rfl⟩))

theorem step_added (moved : x.step task = some y) {new : UInt32 × UInt64}
    (enters : new ∈ x.adds task) : (new.2, sequenceToLabel new.1 new.2) ∈ y.live ∧
      ∀ a ∈ x.live, a.1 ≠ new.2 → a ∈ y.live := by
  cases task with
  | service work =>
    obtain ⟨t, value, rfl⟩ := Option.map_eq_some_iff.mp moved
    obtain ⟨sveInfo, label, -, rfl⟩ :=
      SaceServiceExcutor.work_adds enters (Traced.value_eq_some.mp value)
    have held : ∀ (q : UInt64) (info : ServiceInfo),
        (new.2 = q ∧ sveInfo = info) ∨ (new.2 ≠ q ∧ x.service.heap[q]? = some info) →
          (q, info.label) ∈ (x.service.add new.2 sveInfo).live := fun q info held =>
      SaceServiceExcutor.mem_live.mpr ⟨info, (Table.insert_some ..).mpr held, rfl⟩
    refine ⟨mem_live.mpr (.inl (label ▸ held _ _ (.inl ⟨rfl, rfl⟩))), fun a member other => ?_⟩
    rcases mem_live.mp member with member | running
    · obtain ⟨info, was, own⟩ := SaceServiceExcutor.mem_live.mp member
      have still := held a.1 info (.inr ⟨Ne.symm other, was⟩)
      rw [own] at still
      exact mem_live.mpr (.inl still)
    · exact mem_live.mpr (.inr running)
  | normal r =>
    obtain ⟨t, value, rfl⟩ := Option.map_eq_some_iff.mp moved
    simp only [adds, Option.mem_def, Option.ite_none_right_eq_some, Option.some.injEq] at enters
    obtain ⟨starts, rfl⟩ := enters
    have after := (OwnedExcutor.Request.excuteNormal_starts starts
      (Traced.value_eq_some.mp value)).1
    have running : r.cmdInfo ∈ t.mRunningCmd := by simp [after]
    refine ⟨mem_live.mpr (.inr ⟨r.cmdInfo, running, rfl⟩), fun a member _ => ?_⟩
    rcases mem_live.mp member with held | ⟨cmdInfo, running, own⟩
    · exact mem_live.mpr (.inl held)
    · exact mem_live.mpr (.inr ⟨cmdInfo, after ▸ List.mem_append_left _ running, own⟩)

theorem Ordered.worked (ordered : x.Ordered) {work : SaceServiceExcutor.Work}
    {t : SaceServiceExcutor} (provided : x.Provided (.service work))
    (vacant : x.Vacant (.service work)) (done : (x.service.work work).result = .ok t) :
    t.Owned ∧ t.Indexed := by
  apply ordered.indexed.worked ordered.owned _ _ done
  · intro sequence p enters held
    obtain ⟨sveInfo, held⟩ := Table.some_of_mem held
    have member : (p, sveInfo.label) ∈ x.live :=
      mem_live.mpr (.inl (SaceServiceExcutor.mem_live.mpr ⟨sveInfo, held, rfl⟩))
    exact provided (sequence, p) enters _ member rfl
  · intro sequence p enters
    exact Std.ExtTreeMap.getElem?_eq_none (vacant (sequence, p) enters)

theorem Ordered.excuted (ordered : x.Ordered) {r : OwnedExcutor.Request}
    {t : SaceNormalExcutor} (provided : x.Provided (.normal r)) (vacant : x.Vacant (.normal r))
    (done : (x.normal.excuteNormal r.msg r.env r.answers r.wait).result = .ok t) : t.Listed := by
  by_cases starts : r.Starts
  · obtain ⟨running, seq⟩ := OwnedExcutor.Request.excuteNormal_starts starts done
    have address : ∀ other ∈ x.normal.mRunningCmd, other.address ≠ r.cmdInfo.address := by
      intro other member
      have enters : (r.msg.msgCmd.sequence, r.answers.address) ∈ x.adds (.normal r) := by
        simp [adds, starts]
      exact provided _ enters (other.address, other.label)
        (mem_live.mpr (.inr ⟨other, member, rfl⟩))
    have free : x.normal.mSeqCmd[r.cmdInfo.label]? = none :=
      Std.ExtTreeMap.getElem?_eq_none (vacant starts)
    exact ordered.listed.added address free running seq
  · exact (OwnedExcutor.Request.excuteNormal_lists ordered.listed starts done).1

/-- One step keeps the labels apart when the new object is apart from the live ones. -/
theorem Ordered.step (ordered : x.Ordered) (provided : x.Provided task) (apart : x.Apart task)
    (moved : x.step task = some y) : y.Ordered := by
  have live := fun a => @step_live x y task ordered.listed moved a
  have unused := ordered.unused_iff.mp apart
  have vacant := ordered.vacant apart
  have tables : y.service.Owned ∧ y.service.Indexed ∧ y.normal.Listed := by
    cases task with
    | service work =>
      obtain ⟨t, value, rfl⟩ := Option.map_eq_some_iff.mp moved
      have after := ordered.worked provided vacant (Traced.value_eq_some.mp value)
      exact ⟨after.1, after.2, ordered.listed⟩
    | normal r =>
      obtain ⟨t, value, rfl⟩ := Option.map_eq_some_iff.mp moved
      exact ⟨ordered.owned, ordered.indexed,
        ordered.excuted provided vacant (Traced.value_eq_some.mp value)⟩
  refine ⟨tables.1, tables.2.1, tables.2.2, fun a member => ?_, fun a here b there same => ?_⟩
  · rcases live a member with old | ⟨new, _, rfl⟩
    · exact ordered.carried a old
    · rw [labelToSequence_sequenceToLabel]
  · rcases live a here with oldA | ⟨new, enters, rfl⟩ <;>
      rcases live b there with oldB | ⟨other, enters', rfl⟩
    · exact ordered.distinct a oldA b oldB same
    · exact absurd same (unused other enters' a oldA)
    · exact absurd same.symm (unused new enters b oldB)
    · cases Option.some.inj (enters.symm.trans enters')
      rfl

/-- A new object with the sequence and the lower half of a live one's address gets its label. -/
theorem Ordered.apart_of_distinct (ordered : x.Ordered) (provided : x.Provided task)
    (moved : x.step task = some y) (distinct : y.Distinct) : x.Apart task := by
  apply ordered.unused_iff.mpr
  intro new enters a member same
  obtain ⟨entered, others⟩ := step_added moved enters
  have elsewhere := provided new enters a member
  exact elsewhere (distinct a (others a member elsewhere) _ entered same)

theorem reached_ordered
    (reached : Runs.Reached step (fun x task => x.Provided task ∧ x.Apart task) {} x) :
    x.Ordered :=
  reached.invariant .empty fun _ _ _ ordered allowed moved =>
    ordered.step allowed.1 allowed.2 moved

/-- A label gives its sequence back, and two labels tell two addresses apart exactly when the
sequences or the lower halves do. As long as new objects differ so from the live ones, all live
labels are distinct and every insertion finds its key free; the first that does not breaks this. -/
theorem labels_distinct_iff (s s' : UInt32) (p p' : UInt64)
    (reached : Runs.Reached step (fun x task => x.Provided task ∧ x.Apart task) {} x) :
    (labelToSequence (sequenceToLabel s p) = s ∧
        (sequenceToLabel s p = sequenceToLabel s' p' → p = p') ↔
      (s = s' → p.toUInt32 = p'.toUInt32 → p = p')) ∧
    x.Distinct ∧
    ∀ (task : Task) (y : LabelledExcutors), x.Provided task → x.step task = some y →
      (x.Vacant task ∧ y.Distinct ↔ x.Apart task) := by
  have ordered := reached_ordered reached
  refine ⟨?_, ordered.distinct, fun task y provided moved => ?_⟩
  · rw [sequenceToLabel_eq_iff, and_imp]
    simp [labelToSequence_sequenceToLabel]
  · constructor
    · rintro ⟨-, distinct⟩
      exact ordered.apart_of_distinct provided moved distinct
    · intro apart
      exact ⟨ordered.vacant apart, (ordered.step provided apart moved).distinct⟩

/-! Services and a command that all have the sequence 7. -/

open SaceServiceExcutor (clientMsg forked)

def startService (name : String) (address : UInt64) : Task :=
  .service (.request
    { clientMsg .start 0 with msgCmd := { (clientMsg .start 0).msgCmd with name := str name } }
    .empty { forked with address })

def startCommand (address : UInt64) : Task :=
  .normal
    { msg :=
        { msgHandler := .normal
          msgCmd := { sequence := 7, name := str "200:0", command := str "ls" }
          msgWriter := ⟨.socket 5, 200⟩
          msgClient := ⟨1000, 200⟩ }
      env := .empty
      answers := { address, fd := 8, pid := 301 }
      wait := fun _ => [] }

def apartStarts : List Task := [startService "svc" 0x100000010, startCommand 0x100000020]

theorem starts_distinct : ∃ x, Runs.run step {} apartStarts = some x ∧
    sequenceToLabel 7 0x100000010 ≠ sequenceToLabel 7 0x100000020 ∧
    x.live = [(0x100000010, 0x1000000007), (0x100000020, 0x2000000007)] ∧ x.Distinct ∧
    ∀ y, x.step (startService "other" 0x200000020) = some y →
      ¬ (x.Vacant (startService "other" 0x200000020) ∧ y.Distinct) := by
  have lives : (Runs.run step {} apartStarts).map (fun x => (x.live,
      decide (x.Provided (startService "other" 0x200000020)),
      decide (x.Apart (startService "other" 0x200000020)))) =
      some ([(0x100000010, 0x1000000007), (0x100000020, 0x2000000007)], true, false) := by
    decide +kernel
  obtain ⟨x, ran, shown⟩ := Option.map_eq_some_iff.mp lives
  simp only [Prod.mk.injEq, decide_eq_true_eq, decide_eq_false_iff_not] at shown
  obtain ⟨live, provided, near⟩ := shown
  obtain ⟨labels, distinct, steps⟩ := labels_distinct_iff 7 7 0x100000010 0x100000020
    (Runs.run_reached (by decide +kernel) ran)
  refine ⟨x, ran, fun same => ?_, live, distinct,
    fun y moved => (steps _ y provided moved).not.mpr near⟩
  exact absurd ((labels.mpr fun _ half => absurd half (by decide)).2 same) (by decide)

/-- The upper halves of the two addresses are all that tells them apart. -/
def nearStarts : List Task := [startService "svc" 0x100000010, startService "other" 0x200000010]

theorem labels_collide :
    (¬ ∀ (s s' : UInt32) (p p' : UInt64), labelToSequence (sequenceToLabel s p) = s ∧
      (sequenceToLabel s p = sequenceToLabel s' p' → p = p')) ∧
    ¬ ∀ x, Runs.Reached step Provided {} x → x.Distinct := by
  constructor
  · intro apart
    have same := (apart 7 7 0x100000010 0x200000010).2 (by decide)
    exact absurd same (by decide)
  · intro unique
    have lives : (Runs.run step {} nearStarts).map live =
        some [(0x100000010, 0x1000000007), (0x200000010, 0x1000000007)] := by decide +kernel
    obtain ⟨x, ran, live⟩ := Option.map_eq_some_iff.mp lives
    have distinct := unique x (Runs.run_reached (by decide +kernel) ran)
    unfold Distinct at distinct
    rw [live] at distinct
    exact absurd (distinct (0x100000010, 0x1000000007) (by simp) (0x200000010, 0x1000000007)
      (by simp) rfl) (by decide)

end LabelledExcutors

end Sace
