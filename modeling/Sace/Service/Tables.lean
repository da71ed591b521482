import Sace.Service.Steps
import Sace.Library.Erasure
import Sace.Library.Runs

/-! The three indexes of the service executor: the vector of running services, the
table by label and the table by name. -/
namespace Sace.SaceServiceExcutor

/-- The indexes list the same live objects, the vector none of them twice and each table
under the object's own key. -/
structure TablesAgree (s : SaceServiceExcutor) : Prop where
  distinct : s.mRunningService.Nodup
  live : ∀ p ∈ s.mRunningService, p ∈ s.heap
  seqValues : ∀ p : UInt64, (∃ l : UInt64, s.mSeqService[l]? = some p) ↔ p ∈ s.mRunningService
  nameValues : ∀ p : UInt64, (∃ n : Str, s.mNameService[n]? = some p) ↔ p ∈ s.mRunningService
  seqKey : ∀ (l p : UInt64) (sveInfo : ServiceInfo),
    s.mSeqService[l]? = some p → s.heap[p]? = some sveInfo → sveInfo.label = l
  nameKey : ∀ (n : Str) (p : UInt64) (sveInfo : ServiceInfo),
    s.mNameService[n]? = some p → s.heap[p]? = some sveInfo → sveInfo.name = n

theorem empty_agrees : TablesAgree {} := by
  constructor <;> simp

namespace TablesAgree

variable {s t : SaceServiceExcutor}

theorem held (agree : TablesAgree s) {p : UInt64} (listed : p ∈ s.mRunningService) :
    ∃ sveInfo, s.heap[p]? = some sveInfo :=
  Table.some_of_mem (agree.live p listed)

theorem seq_listed (agree : TablesAgree s) {l p : UInt64} (found : s.mSeqService[l]? = some p) :
    p ∈ s.mRunningService := (agree.seqValues p).mp ⟨l, found⟩

theorem name_listed (agree : TablesAgree s) {n : Str} {p : UInt64}
    (found : s.mNameService[n]? = some p) : p ∈ s.mRunningService :=
  (agree.nameValues p).mp ⟨n, found⟩

theorem of_same (agree : TablesAgree s) (same : SameObjects s t) : TablesAgree t where
  distinct := same.running ▸ agree.distinct
  live p listed := by
    obtain ⟨before, held⟩ := agree.held (same.running ▸ listed)
    obtain ⟨after, held, _⟩ := same.forth held
    exact Table.mem_of_some held
  seqValues p := by rw [same.seq, same.running]; exact agree.seqValues p
  nameValues p := by rw [same.names, same.running]; exact agree.nameValues p
  seqKey l p after found held := by
    obtain ⟨before, live, identity⟩ := same.back held
    simp only [ServiceInfo.identity, Prod.mk.injEq] at identity
    exact identity.1 ▸ agree.seqKey l p before (same.seq ▸ found) live
  nameKey n p after found held := by
    obtain ⟨before, live, identity⟩ := same.back held
    simp only [ServiceInfo.identity, Prod.mk.injEq] at identity
    exact identity.2.1 ▸ agree.nameKey n p before (same.names ▸ found) live

theorem added (agree : TablesAgree s) {p : UInt64} {sveInfo : ServiceInfo} (fresh : p ∉ s.heap)
    (label : sveInfo.label ∉ s.mSeqService) (name : sveInfo.name ∉ s.mNameService) :
    TablesAgree (s.add p sveInfo) := by
  have unlisted : p ∉ s.mRunningService := fun listed => fresh (agree.live p listed)
  have newLabel : s.mSeqService[sveInfo.label]? = none :=
    Std.ExtTreeMap.getElem?_eq_none label
  have newName : s.mNameService[sveInfo.name]? = none :=
    Std.ExtTreeMap.getElem?_eq_none name
  constructor
  · simp only [SaceServiceExcutor.add, List.nodup_append, agree.distinct, true_and]
    simp only [List.nodup_singleton, List.mem_singleton, true_and]
    rintro q listed _ rfl rfl
    exact unlisted listed
  · intro q listed
    apply Std.ExtTreeMap.mem_insert.mpr
    rcases List.mem_append.mp listed with old | new
    · exact Or.inr (agree.live q old)
    · exact Or.inl (by simp [List.mem_singleton.mp new])
  · intro q
    simp only [SaceServiceExcutor.add, Table.insertIfNew_some newLabel, List.mem_append,
      List.mem_singleton, ← agree.seqValues q, exists_or, exists_eq_left']
    rw [or_comm, eq_comm]
  · intro q
    simp only [SaceServiceExcutor.add, Table.insertIfNew_some newName, List.mem_append,
      List.mem_singleton, ← agree.nameValues q, exists_or, exists_eq_left']
    rw [or_comm, eq_comm]
  · intro l q other found live
    simp only [SaceServiceExcutor.add, Table.insertIfNew_some newLabel] at found
    simp only [SaceServiceExcutor.add, Table.insert_some] at live
    rcases found with ⟨rfl, rfl⟩ | found
    · rcases live with ⟨_, rfl⟩ | ⟨other, _⟩
      · rfl
      · exact absurd rfl other
    · rcases live with ⟨rfl, _⟩ | ⟨_, live⟩
      · exact absurd (agree.seq_listed found) unlisted
      · exact agree.seqKey l q other found live
  · intro n q other found live
    simp only [SaceServiceExcutor.add, Table.insertIfNew_some newName] at found
    simp only [SaceServiceExcutor.add, Table.insert_some] at live
    rcases found with ⟨rfl, rfl⟩ | found
    · rcases live with ⟨_, rfl⟩ | ⟨other, _⟩
      · rfl
      · exact absurd rfl other
    · rcases live with ⟨rfl, _⟩ | ⟨_, live⟩
      · exact absurd (agree.name_listed found) unlisted
      · exact agree.nameKey n q other found live

theorem seq_label (agree : TablesAgree s) {l p q : UInt64} {sveInfo : ServiceInfo}
    (listed : p ∈ s.mRunningService) (live : s.heap[p]? = some sveInfo)
    (found : s.mSeqService[l]? = some q) : sveInfo.label = l ↔ q = p := by
  constructor
  · rintro rfl
    obtain ⟨l, own⟩ := (agree.seqValues p).mpr listed
    cases agree.seqKey l p sveInfo own live
    exact Option.some.inj (found.symm.trans own)
  · rintro rfl
    exact agree.seqKey l q sveInfo found live

theorem name_name (agree : TablesAgree s) {n : Str} {p q : UInt64} {sveInfo : ServiceInfo}
    (listed : p ∈ s.mRunningService) (live : s.heap[p]? = some sveInfo)
    (found : s.mNameService[n]? = some q) : sveInfo.name = n ↔ q = p := by
  constructor
  · rintro rfl
    obtain ⟨n, own⟩ := (agree.nameValues p).mpr listed
    cases agree.nameKey n p sveInfo own live
    exact Option.some.inj (found.symm.trans own)
  · rintro rfl
    exact agree.nameKey n q sveInfo found live

theorem removed_seq (agree : TablesAgree s) {i : Nat} {p : UInt64} {sveInfo : ServiceInfo}
    (listed : p ∈ s.mRunningService) (live : s.heap[p]? = some sveInfo) (l q : UInt64) :
    (s.remove i p sveInfo).mSeqService[l]? = some q ↔ q ≠ p ∧ s.mSeqService[l]? = some q := by
  simp only [SaceServiceExcutor.remove, Table.erase_some]
  exact and_congr_left fun found => (agree.seq_label listed live found).not

theorem removed_names (agree : TablesAgree s) {i : Nat} {p : UInt64} {sveInfo : ServiceInfo}
    (listed : p ∈ s.mRunningService) (live : s.heap[p]? = some sveInfo) (n : Str) (q : UInt64) :
    (s.remove i p sveInfo).mNameService[n]? = some q ↔ q ≠ p ∧ s.mNameService[n]? = some q := by
  simp only [SaceServiceExcutor.remove, Table.erase_some]
  exact and_congr_left fun found => (agree.name_name listed live found).not

theorem removed (agree : TablesAgree s) {i : Nat} {p : UInt64} {sveInfo : ServiceInfo}
    (at_ : s.mRunningService[i]? = some p) (held : s.heap[p]? = some sveInfo) :
    TablesAgree (s.remove i p sveInfo) := by
  obtain ⟨bound, rfl⟩ := List.getElem?_eq_some_iff.mp at_
  have listed := List.getElem_mem bound
  have left : ∀ q, q ∈ (s.remove i s.mRunningService[i] sveInfo).mRunningService ↔
      q ≠ s.mRunningService[i] ∧ q ∈ s.mRunningService := by
    intro q
    rw [SaceServiceExcutor.remove, ← agree.distinct.erase_getElem i bound,
      agree.distinct.mem_erase_iff]
  constructor
  · exact agree.distinct.eraseIdx i
  · intro q hq
    have old := (left q).mp hq
    simp [SaceServiceExcutor.remove, Ne.symm old.1, agree.live q old.2]
  · intro q
    simp only [left, ← agree.seqValues q, agree.removed_seq listed held, exists_and_left]
  · intro q
    simp only [left, ← agree.nameValues q, agree.removed_names listed held, exists_and_left]
  · intro l q other found live
    simp only [SaceServiceExcutor.remove, Table.erase_some] at found live
    exact agree.seqKey l q other found.2 live.2
  · intro n q other found live
    simp only [SaceServiceExcutor.remove, Table.erase_some] at found live
    exact agree.nameKey n q other found.2 live.2

end TablesAgree

/-! ### The collecting loop -/

/-- `t` is `s` without the objects in `erased`, in every index and in the heap. -/
structure Collected (s t : SaceServiceExcutor) (erased left : List UInt64) : Prop where
  running : t.mRunningService = left
  seq : ∀ l p : UInt64, t.mSeqService[l]? = some p ↔ p ∉ erased ∧ s.mSeqService[l]? = some p
  names : ∀ (n : Str) (p : UInt64),
    t.mNameService[n]? = some p ↔ p ∉ erased ∧ s.mNameService[n]? = some p
  objects : ∀ (p : UInt64) (sveInfo : ServiceInfo),
    t.heap[p]? = some sveInfo ↔ p ∉ erased ∧ s.heap[p]? = some sveInfo

/-- Over agreeing indexes the loop erases the entries that the saved positions hit, and
only an overrun position stops it. -/
theorem collectLoop_erases {s : SaceServiceExcutor} (agree : TablesAgree s) {gc : List Nat}
    {erased left : List UInt64}
    (hit : Erasure.eraseSaved gc s.mRunningService = some (erased, left)) :
    ∃ t, collectLoop gc s = pure t ∧ TablesAgree t ∧ Collected s t erased left := by
  induction gc generalizing s erased left with
  | nil =>
    cases Option.some.inj hit
    exact ⟨s, rfl, agree, ⟨rfl, by simp, by simp, by simp⟩⟩
  | cons i gc ih =>
    obtain ⟨p, rest, left', at_, tail, eq⟩ := Erasure.eraseSaved_cons.mp hit
    cases eq
    have listed := List.mem_of_getElem? at_
    obtain ⟨sveInfo, live⟩ := agree.held listed
    obtain ⟨t, loop, agreeT, collected⟩ := ih (agree.removed at_ live) tail
    refine ⟨t, ?_, agreeT, collected.running, fun l q => ?_, fun n q => ?_, fun q other => ?_⟩
    · simp only [collectLoop, at_, deref_of_live live, Traced.pure_then, loop]
    · rw [collected.seq, agree.removed_seq listed live, List.mem_cons, not_or]
      exact ⟨fun h => ⟨⟨h.2.1, h.1⟩, h.2.2⟩, fun h => ⟨h.1.2, h.1.1, h.2⟩⟩
    · rw [collected.names, agree.removed_names listed live, List.mem_cons, not_or]
      exact ⟨fun h => ⟨⟨h.2.1, h.1⟩, h.2.2⟩, fun h => ⟨h.1.2, h.1.1, h.2⟩⟩
    · rw [collected.objects, remove, Table.erase_some, List.mem_cons, not_or]
      exact ⟨fun h => ⟨⟨Ne.symm h.2.1, h.1⟩, h.2.2⟩, fun h => ⟨h.1.2, Ne.symm h.1.1, h.2⟩⟩

theorem collectLoop_stops {s : SaceServiceExcutor} (agree : TablesAgree s) {gc : List Nat}
    (missed : Erasure.eraseSaved gc s.mRunningService = none) :
    (collectLoop gc s).result = .error .outOfBounds := by
  induction gc generalizing s with
  | nil => cases missed
  | cons i gc ih =>
    cases at_ : s.mRunningService[i]? with
    | none => simp only [collectLoop, at_, Traced.fault_result]
    | some p =>
      obtain ⟨sveInfo, live⟩ := agree.held (List.mem_of_getElem? at_)
      have tail : Erasure.eraseSaved gc (s.remove i p sveInfo).mRunningService = none := by
        cases h : Erasure.eraseSaved gc (s.remove i p sveInfo).mRunningService with
        | none => rfl
        | some out =>
          exact absurd (missed.symm.trans
            (Erasure.eraseSaved_cons.mpr ⟨p, out.1, out.2, at_, h, rfl⟩)) (by simp)
      simp only [collectLoop, at_, deref_of_live live, Traced.pure_then]
      exact ih (agree.removed at_ live) tail

end Sace.SaceServiceExcutor
