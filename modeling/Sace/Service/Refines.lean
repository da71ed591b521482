import Sace.Service.Works
import Sace.Service.Register

/-! The service executor, with its pointers and its three tables, does what the register of the
services says. -/
namespace Sace

namespace SaceServiceExcutor

/-- `ps` are the listed services without repetitions, in the order of their start, and the
register has the objects that they point to. -/
structure Represents (s : SaceServiceExcutor) (ps : List UInt64) (r : Services) : Prop where
  distinct : ps.Nodup
  order : ps.Sublist s.mRunningService
  listed : ∀ p ∈ s.mRunningService, p ∈ ps
  live : ∀ p ∈ ps, p ∈ s.heap
  records : r.records = ps.filterMap fun p => s.heap[p]?
  seq : ∀ l p : UInt64, s.mSeqService[l]? = some p ↔
    p ∈ ps ∧ ∃ sveInfo, s.heap[p]? = some sveInfo ∧ sveInfo.label = l
  names : ∀ (n : Str) (p : UInt64), s.mNameService[n]? = some p ↔
    p ∈ ps ∧ ∃ sveInfo, s.heap[p]? = some sveInfo ∧ sveInfo.name = n

def Refines (s : SaceServiceExcutor) (r : Services) : Prop := ∃ ps, Represents s ps r

namespace Represents

variable {s : SaceServiceExcutor} {ps : List UInt64} {r : Services}

theorem mem_records (rep : Represents s ps r) {sveInfo : ServiceInfo} :
    sveInfo ∈ r.records ↔ ∃ p ∈ ps, s.heap[p]? = some sveInfo := by
  rw [rep.records, List.mem_filterMap]

theorem found (rep : Represents s ps r) {l p : UInt64} (entry : s.mSeqService[l]? = some p) :
    ∃ sveInfo, p ∈ ps ∧ s.heap[p]? = some sveInfo ∧ r.byKey l = some sveInfo := by
  obtain ⟨member, sveInfo, live, label⟩ := (rep.seq l p).mp entry
  exact ⟨sveInfo, member, live,
    Register.byKey_eq_some.mpr ⟨rep.mem_records.mpr ⟨p, member, live⟩, label⟩⟩

theorem missing (rep : Represents s ps r) {l : UInt64} (none : s.mSeqService[l]? = none) :
    r.byKey l = .none := by
  rw [Register.byKey_eq_none, List.mem_map]
  rintro ⟨sveInfo, member, label⟩
  obtain ⟨p, listed, live⟩ := rep.mem_records.mp member
  rw [(rep.seq l p).mpr ⟨listed, sveInfo, live, label⟩] at none
  cases none

theorem named (rep : Represents s ps r) {n : Str} {p : UInt64}
    (entry : s.mNameService[n]? = some p) :
    ∃ sveInfo, p ∈ ps ∧ s.heap[p]? = some sveInfo ∧ r.byName n = some sveInfo := by
  obtain ⟨member, sveInfo, live, name⟩ := (rep.names n p).mp entry
  exact ⟨sveInfo, member, live,
    Register.byName_eq_some.mpr ⟨rep.mem_records.mpr ⟨p, member, live⟩, name⟩⟩

theorem unnamed (rep : Represents s ps r) {n : Str} (none : s.mNameService[n]? = none) :
    r.byName n = .none := by
  rw [Register.byName_eq_none, List.mem_map]
  rintro ⟨sveInfo, member, name⟩
  obtain ⟨p, listed, live⟩ := rep.mem_records.mp member
  rw [(rep.names n p).mpr ⟨listed, sveInfo, live, name⟩] at none
  cases none

/-- Two of the services with one label are one service. -/
theorem same_label (rep : Represents s ps r) {p q : UInt64} {a b : ServiceInfo} (first : p ∈ ps)
    (second : q ∈ ps) (liveA : s.heap[p]? = some a) (liveB : s.heap[q]? = some b)
    (same : a.label = b.label) : p = q := by
  have entryA := (rep.seq a.label p).mpr ⟨first, a, liveA, rfl⟩
  have entryB := (rep.seq a.label q).mpr ⟨second, b, liveB, same.symm⟩
  exact Option.some.inj (entryA.symm.trans entryB)

theorem same_name (rep : Represents s ps r) {p q : UInt64} {a b : ServiceInfo} (first : p ∈ ps)
    (second : q ∈ ps) (liveA : s.heap[p]? = some a) (liveB : s.heap[q]? = some b)
    (same : a.name = b.name) : p = q := by
  have entryA := (rep.names a.name p).mpr ⟨first, a, liveA, rfl⟩
  have entryB := (rep.names a.name q).mpr ⟨second, b, liveB, same.symm⟩
  exact Option.some.inj (entryA.symm.trans entryB)

theorem empty : Represents {} [] .empty where
  distinct := List.nodup_nil
  order := .slnil
  listed p member := nomatch member
  live p member := nomatch member
  records := rfl
  seq l p := by simp
  names n p := by simp

/-! ### What the pieces of work do to the representation -/

theorem stored (rep : Represents s ps r) {p : UInt64} {sveInfo : ServiceInfo} (member : p ∈ ps)
    (live : s.heap[p]? = some sveInfo) {f : ServiceInfo → ServiceInfo}
    (same : ∀ x : ServiceInfo, (f x).label = x.label ∧ (f x).name = x.name) :
    Represents (s.store p (f sveInfo)) ps (r.change sveInfo.label f same) where
  distinct := rep.distinct
  order := rep.order
  listed := rep.listed
  live q there := Std.ExtTreeMap.mem_insert.mpr (.inr (rep.live q there))
  records := by
    simp only [Register.change, rep.records, List.map_filterMap]
    refine List.filterMap_congr fun q there => ?_
    by_cases here : p = q
    · subst here
      simp [store, live]
    · simp only [store, Std.ExtTreeMap.getElem?_insert,
        Std.LawfulEqOrd.compare_eq_iff_eq, here, if_false]
      cases held : s.heap[q]? with
      | none => rfl
      | some info =>
        have other : info.label ≠ sveInfo.label := fun own =>
          here (rep.same_label member there live held own.symm)
        simp [other]
  seq l q := by
    rw [show (s.store p (f sveInfo)).mSeqService = s.mSeqService from rfl, rep.seq]
    refine and_congr_right fun _ => ?_
    by_cases here : p = q
    · subst here
      simp [store, live, same]
    · simp [store, Std.ExtTreeMap.getElem?_insert, here]
  names n q := by
    rw [show (s.store p (f sveInfo)).mNameService = s.mNameService from rfl, rep.names]
    refine and_congr_right fun _ => ?_
    by_cases here : p = q
    · subst here
      simp [store, live, same]
    · simp [store, Std.ExtTreeMap.getElem?_insert, here]

/-- A second listing of a service is not seen in the register. -/
theorem relisted (rep : Represents s ps r) {p : UInt64} (member : p ∈ ps) :
    Represents { s with mRunningService := s.mRunningService ++ [p] } ps r where
  distinct := rep.distinct
  order := rep.order.trans (List.sublist_append_left _ _)
  listed q there := by
    rcases List.mem_append.mp there with old | new
    · exact rep.listed q old
    · exact List.mem_singleton.mp new ▸ member
  live := rep.live
  records := rep.records
  seq := rep.seq
  names := rep.names

theorem added (rep : Represents s ps r) {p : UInt64} {sveInfo : ServiceInfo} (fresh : p ∉ s.heap)
    (label : s.mSeqService[sveInfo.label]? = none) (name : s.mNameService[sveInfo.name]? = none)
    {t : Services} (entered : t.records = r.records ++ [sveInfo]) :
    Represents (s.add p sveInfo) (ps ++ [p]) t := by
  have unlisted : p ∉ ps := fun member => fresh (rep.live p member)
  have elsewhere : ∀ q ∈ ps, p ≠ q := fun q member here => unlisted (here ▸ member)
  have old : ∀ q ∈ ps, (s.add p sveInfo).heap[q]? = s.heap[q]? := fun q member => by
    simp [add, Std.ExtTreeMap.getElem?_insert, elsewhere q member]
  have new : (s.add p sveInfo).heap[p]? = some sveInfo := by simp [add]
  constructor
  · rw [List.nodup_append]
    refine ⟨rep.distinct, List.nodup_singleton _, fun q member o single same => ?_⟩
    exact elsewhere q member ((List.mem_singleton.mp single).symm.trans same.symm)
  · exact rep.order.append_right [p]
  · intro q there
    rcases List.mem_append.mp there with listed | single
    · exact List.mem_append_left _ (rep.listed q listed)
    · exact List.mem_append_right _ single
  · intro q there
    apply Std.ExtTreeMap.mem_insert.mpr
    rcases List.mem_append.mp there with member | single
    · exact .inr (rep.live q member)
    · exact .inl (by simp [List.mem_singleton.mp single])
  · rw [entered, rep.records, List.filterMap_append, List.filterMap_congr old]
    simp [new]
  · intro l q
    simp only [add, Table.insertIfNew_some label, List.mem_append, List.mem_singleton]
    constructor
    · rintro (⟨rfl, rfl⟩ | entry)
      · exact ⟨.inr rfl, sveInfo, new, rfl⟩
      · obtain ⟨member, held⟩ := (rep.seq l q).mp entry
        exact ⟨.inl member, (old q member).symm ▸ held⟩
    · rintro ⟨member | rfl, info, held, own⟩
      · exact .inr ((rep.seq l q).mpr ⟨member, info, (old q member).symm.trans held, own⟩)
      · rw [show (Std.ExtTreeMap.insert s.heap q sveInfo)[q]? = some sveInfo from new] at held
        cases held
        exact .inl ⟨own, rfl⟩
  · intro n q
    simp only [add, Table.insertIfNew_some name, List.mem_append, List.mem_singleton]
    constructor
    · rintro (⟨rfl, rfl⟩ | entry)
      · exact ⟨.inr rfl, sveInfo, new, rfl⟩
      · obtain ⟨member, held⟩ := (rep.names n q).mp entry
        exact ⟨.inl member, (old q member).symm ▸ held⟩
    · rintro ⟨member | rfl, info, held, own⟩
      · exact .inr ((rep.names n q).mpr ⟨member, info, (old q member).symm.trans held, own⟩)
      · rw [show (Std.ExtTreeMap.insert s.heap q sveInfo)[q]? = some sveInfo from new] at held
        cases held
        exact .inl ⟨own, rfl⟩

/-- A service that is listed once is taken out. -/
theorem removed (rep : Represents s ps r) {i : Nat} {p : UInt64} {sveInfo : ServiceInfo}
    (at_ : s.mRunningService[i]? = some p) (once : s.mRunningService.count p = 1)
    (live : s.heap[p]? = some sveInfo) {gone : ServiceInfo → Bool} (own : gone sveInfo = true)
    (others : ∀ x ∈ r.records, gone x = true → x = sveInfo) :
    Represents (s.remove i p sveInfo) (ps.erase p) (r.keep fun x => !gone x) := by
  have member := rep.listed p (List.mem_of_getElem? at_)
  have left : ∀ q, q ∈ ps.erase p ↔ q ≠ p ∧ q ∈ ps := fun q => rep.distinct.mem_erase_iff
  have old : ∀ q ∈ ps.erase p, (s.heap.erase p)[q]? = s.heap[q]? := fun q there => by
    simp [Std.ExtTreeMap.getElem?_erase, Ne.symm ((left q).mp there).1]
  have running : (s.remove i p sveInfo).mRunningService = s.mRunningService.erase p :=
    (List.erase_eq_eraseIdx_of_idxOf (Erasure.idxOf_once at_ once)).symm
  have label : ∀ q ∈ ps, ∀ x, s.heap[q]? = some x → (x.label = sveInfo.label ↔ q = p) := by
    intro q there x held
    refine ⟨rep.same_label there member held live, ?_⟩
    rintro rfl
    cases held.symm.trans live
    rfl
  have name : ∀ q ∈ ps, ∀ x, s.heap[q]? = some x → (x.name = sveInfo.name ↔ q = p) := by
    intro q there x held
    refine ⟨rep.same_name there member held live, ?_⟩
    rintro rfl
    cases held.symm.trans live
    rfl
  constructor
  · exact rep.distinct.erase p
  · rw [running]
    exact rep.order.erase p
  · intro q there
    rw [running] at there
    refine (left q).mpr ⟨?_, rep.listed q (List.mem_of_mem_erase there)⟩
    rintro rfl
    have more := List.count_pos_iff.mpr there
    rw [List.count_erase_self, once] at more
    omega
  · intro q there
    obtain ⟨other, there⟩ := (left q).mp there
    exact Table.mem_erase.mpr ⟨other.symm, rep.live q there⟩
  · rw [Register.keep_records, rep.records,
      show (s.remove i p sveInfo).heap = s.heap.erase p from rfl,
      List.filterMap_congr old, rep.distinct.erase_eq_filter, List.filterMap_filter,
      List.filter_filterMap]
    refine List.filterMap_congr fun q there => ?_
    cases held : s.heap[q]? with
    | none => simp
    | some x =>
      by_cases here : q = p
      · subst here
        cases held.symm.trans live
        simp [own]
      · have stays : gone x = false := by
          by_contra ends
          have same := others x (rep.mem_records.mpr ⟨q, there, held⟩) (by simpa using ends)
          exact here ((label q there x held).mp (same ▸ rfl))
        simp [here, stays]
  · intro l q
    simp only [remove, Table.erase_some, rep.seq, left]
    constructor
    · rintro ⟨other, there, x, held, own⟩
      have apart : q ≠ p := fun here => other (own ▸ ((label q there x held).mpr here).symm)
      exact ⟨⟨apart, there⟩, x, ⟨apart.symm, held⟩, own⟩
    · rintro ⟨⟨apart, there⟩, x, ⟨_, held⟩, own⟩
      exact ⟨fun same => apart ((label q there x held).mp (own.trans same.symm)), there, x, held,
        own⟩
  · intro n q
    simp only [remove, Table.erase_some, rep.names, left]
    constructor
    · rintro ⟨other, there, x, held, own⟩
      have apart : q ≠ p := fun here => other (own ▸ ((name q there x held).mpr here).symm)
      exact ⟨⟨apart, there⟩, x, ⟨apart.symm, held⟩, own⟩
    · rintro ⟨⟨apart, there⟩, x, ⟨_, held⟩, own⟩
      exact ⟨fun same => apart ((name q there x held).mp (own.trans same.symm)), there, x, held,
        own⟩

end Represents

/-! ### A pass that finds at most one service ended -/

section Pass
variable {s : SaceServiceExcutor} {wait : Nat → WaitAnswer}

theorem store_self {p : UInt64} {sveInfo : ServiceInfo} (live : s.heap[p]? = some sveInfo) :
    s.store p sveInfo = s := by
  have same : s.heap.insert p sveInfo = s.heap := by
    refine Std.ExtTreeMap.ext_getElem? fun q => ?_
    rw [Std.ExtTreeMap.getElem?_insert]
    split
    · rename_i here
      rw [← Std.LawfulEqOrd.compare_eq_iff_eq.mp here, live]
    · rfl
  simp only [store, same]

/-- Who has not ended is passed over. -/
theorem polled_quiet {p : UInt64} {i : Nat} {sveInfo : ServiceInfo}
    (live : s.heap[p]? = some sveInfo) (quiet : s.endedAt wait (p, i) = false) :
    pollService sveInfo (wait i) = { sveInfo } := by
  simp only [endedAt, answered, live, Option.bind_some] at quiet
  unfold pollService
  split
  · rename_i asked
    simp only [asked, if_true, Option.any_some] at quiet
    cases answer : wait i with
    | running => rfl
    | reaped status => simp [answer, ended] at quiet
    | failed errno =>
      simp only [answer, ended] at quiet
      simp only [quiet]
  · rfl

theorem pollLoop_quiet {i : Nat} {ps : List UInt64} (live : ∀ p ∈ ps, p ∈ s.heap)
    (quiet : ∀ entry ∈ ps.zipIdx i, s.endedAt wait entry = false) :
    pollLoop wait i ps s = pure (s, []) := by
  induction ps generalizing i with
  | nil => rfl
  | cons p rest ih =>
    obtain ⟨sveInfo, held⟩ := Table.some_of_mem (live p List.mem_cons_self)
    rw [List.zipIdx_cons, List.forall_mem_cons] at quiet
    simp only [pollLoop, deref_of_live held, Traced.pure_then, polled_quiet held quiet.1,
      ServiceInfo.sendPolled, store_self held, Bool.false_eq_true, if_false]
    rw [ih (fun q later => live q (List.mem_cons_of_mem _ later)) quiet.2, Traced.pure_then]

/-- The loop over a list of which one entry has ended. -/
theorem pollLoop_single {i j : Nat} {p : UInt64} {ps : List UInt64} {sveInfo : ServiceInfo}
    (live : ∀ q ∈ ps, q ∈ s.heap) (held : s.heap[p]? = some sveInfo)
    (single : (ps.zipIdx i).filter (s.endedAt wait) = [(p, j)]) :
    pollLoop wait i ps s =
      ⟨(sveInfo.sendPolled (pollService sveInfo (wait j)).response).trace,
        .ok (s.store p (pollService sveInfo (wait j)).sveInfo, [j])⟩ := by
  induction ps generalizing i with
  | nil => cases single
  | cons q rest ih =>
    have later : ∀ r ∈ rest, r ∈ s.heap := fun r there => live r (List.mem_cons_of_mem _ there)
    obtain ⟨info, liveQ⟩ := Table.some_of_mem (live q List.mem_cons_self)
    rw [List.zipIdx_cons, List.filter_cons] at single
    by_cases here : s.endedAt wait (q, i) = true
    · -- the entry itself: what follows it has not ended, before the turn or after it
      rw [if_pos here, List.cons.injEq] at single
      obtain ⟨own, none⟩ := single
      cases own
      cases held.symm.trans liveQ
      have saved : (pollService sveInfo (wait j)).saved = true := by
        rw [← saves_eq_endedAt] at here
        simpa [saves, held] using here
      have quiet : ∀ entry ∈ rest.zipIdx (j + 1),
          (s.store p (pollService sveInfo (wait j)).sveInfo).endedAt wait entry = false := by
        intro entry there
        by_contra ends
        have before := endedAt_of_store held entry (by simpa using ends)
        exact List.filter_eq_nil_iff.mp none entry there before
      have still : ∀ r ∈ rest, r ∈ (s.store p (pollService sveInfo (wait j)).sveInfo).heap :=
        fun r there => Std.ExtTreeMap.mem_insert.mpr (.inr (later r there))
      simp only [pollLoop, deref_of_live held, Traced.pure_then, pollLoop_quiet still quiet, saved,
        if_true]
      rw [sendPolled_eq, Traced.bind_of_ok rfl]
      simp
    · rw [if_neg here] at single
      have quiet := polled_quiet liveQ (by simpa using here)
      have silent : info.sendPolled none = pure () := rfl
      simp only [pollLoop, deref_of_live liveQ, Traced.pure_then, quiet, silent,
        store_self liveQ, Bool.false_eq_true, if_false]
      rw [ih later single, Traced.bind_of_ok rfl]
      simp

end Pass

/-! ### Requests -/

/-- A computation that completes does what the register says, and leaves what it leaves. -/
def Follows (out : Exec (SaceServiceExcutor × SaceResult))
    (spec : Option (List Effect × Services × SaceResult)) : Prop :=
  ∀ t result, out.result = .ok (t, result) →
    ∃ r, spec = some (out.trace, r, result) ∧ Refines t r

section Requests
variable {s : SaceServiceExcutor} {ps : List UInt64} {r : Services} {saceCmd : SaceCommand}
variable {writer : SaceWriter} {env : ParseEnv} {answers : StartAnswers} {result : SaceResult}

theorem follows_pure (rep : Represents s ps r) :
    Follows (pure (s, result)) (some ([], r, result)) := by
  rintro t answer done
  cases done
  exact ⟨r, rfl, ps, rep⟩

theorem follows_signal (rep : Represents s ps r) {p : UInt64} {sveInfo : ServiceInfo}
    (member : p ∈ ps) (live : s.heap[p]? = some sveInfo) (number : Nat) (state : ServiceState) :
    Follows (do
      Traced.emit (.kill sveInfo.pid number)
      return (s.store p { sveInfo with state }, { result with resultStatus := .ok }))
      (some (r.signal sveInfo number state result)) := by
  rintro t answer done
  cases done
  exact ⟨_, rfl, ps, rep.stored member live (f := fun x => { x with state })
    fun _ => ⟨rfl, rfl⟩⟩

theorem start_follows (rep : Represents s ps r) (kind : saceCmd.serviceCmdType = .start)
    (fresh : answers.address ∉ s.heap)
    (free : sequenceToLabel saceCmd.sequence answers.address ∉ s.mSeqService)
    {msg : SaceReaderMessage} (cmd : msg.msgCmd = saceCmd) :
    Follows (s.startService saceCmd msg.msgWriter env answers (initialResult saceCmd))
      (r.request msg env answers) := by
  subst cmd
  intro t answer done
  simp only [Services.request, kind, if_true]
  cases taken : s.mNameService[msg.msgCmd.name]? with
  | some p =>
    obtain ⟨sveInfo, _, _, named⟩ := rep.named taken
    rw [startService_taken (Table.mem_of_some taken)] at done ⊢
    cases done
    exact ⟨r, by rw [named]; rfl, ps, rep⟩
  | none =>
    rw [rep.unnamed taken]
    rw [startService_free (Table.notMem_of_none taken)] at done ⊢
    obtain ⟨_, copied, done⟩ := Traced.bind_ok.mp done
    have fits : msg.msgCmd.command.length ≤ CMD_BUFFER_LEN := by
      by_contra long
      rw [memcpyString_of_lt (Nat.lt_of_not_le long)] at copied
      cases copied
    rw [memcpyString_of_le fits, Traced.bind_of_ok rfl]
    split at done
    · rename_i forked
      cases done
      have label := newService_label msg.msgCmd msg.msgWriter answers
      have name := newService_name msg.msgCmd msg.msgWriter answers
      have unlabelled :
          s.mSeqService[(newService msg.msgCmd msg.msgWriter answers).label]? = none := by
        rw [label]
        exact Std.ExtTreeMap.getElem?_eq_none free
      have unnamed :
          s.mNameService[(newService msg.msgCmd msg.msgWriter answers).name]? = none := by
        rw [name, taken]
      obtain ⟨t, entered, records⟩ :=
        Register.enter_free (rep.missing unlabelled) (rep.unnamed unnamed)
      refine ⟨t, ?_, _, rep.added fresh unlabelled unnamed records⟩
      simp only [forked, if_true, entered]
      rfl
    · rename_i unforked
      cases done
      exact ⟨r, by simp only [unforked, if_false]; rfl, ps, rep⟩

theorem stop_follows (rep : Represents s ps r) :
    Follows (s.stopService saceCmd result) (match r.byKey saceCmd.label with
      | none => some ([], r, result)
      | some sveInfo =>
        if sveInfo.Active then some (r.signal sveInfo SIGTERM .finishingUser result)
        else some ([], r, { result with resultStatus := .ok })) := by
  unfold stopService
  cases entry : s.mSeqService[saceCmd.label]? with
  | none =>
    rw [rep.missing entry]
    exact follows_pure rep
  | some p =>
    obtain ⟨sveInfo, member, live, found⟩ := rep.found entry
    simp only [found, deref_of_live live, Traced.pure_then]
    by_cases active : sveInfo.Active
    · have stops : ¬ (sveInfo.state ≠ .running ∧ sveInfo.state ≠ .paused) := fun other =>
        active.elim other.1 other.2
      rw [if_pos active, if_neg stops]
      exact follows_signal rep member live _ _
    · rw [if_neg active, if_pos (not_or.mp active)]
      exact follows_pure rep

theorem pause_follows (rep : Represents s ps r) :
    Follows (s.pauseService saceCmd result) (match r.byKey saceCmd.label with
      | none => some ([], r, result)
      | some sveInfo =>
        if sveInfo.state = .running then some (r.signal sveInfo SIGSTOP .paused result)
        else some ([], r, result)) := by
  unfold pauseService
  cases entry : s.mSeqService[saceCmd.label]? with
  | none =>
    rw [rep.missing entry]
    exact follows_pure rep
  | some p =>
    obtain ⟨sveInfo, member, live, found⟩ := rep.found entry
    simp only [found, deref_of_live live, Traced.pure_then]
    split
    · exact follows_signal rep member live _ _
    · exact follows_pure rep

theorem restart_follows (rep : Represents s ps r) :
    Follows (s.restartService saceCmd result) (match r.byKey saceCmd.label with
      | none => some ([], r, result)
      | some sveInfo =>
        if sveInfo.state = .paused then some (r.signal sveInfo SIGCONT .running result)
        else some ([], r, result)) := by
  unfold restartService
  cases entry : s.mSeqService[saceCmd.label]? with
  | none =>
    rw [rep.missing entry]
    exact follows_pure rep
  | some p =>
    obtain ⟨sveInfo, member, live, found⟩ := rep.found entry
    simp only [found, deref_of_live live, Traced.pure_then]
    split
    · rintro t answer done
      cases done
      exact ⟨_, rfl, ps, (rep.stored member live (f := fun x => { x with state := .running })
        fun _ => ⟨rfl, rfl⟩).relisted member⟩
    · exact follows_pure rep

theorem info_follows (rep : Represents s ps r) :
    Follows (s.handleServiceInfo saceCmd writer (initialResult saceCmd))
      (if saceCmd.command = SERVICE_GET_BY_NAME then
        match r.byName saceCmd.name with
        | none => some ([], r, initialResult saceCmd)
        | some sveInfo =>
          if sveInfo.flags = saceCmd.serviceFlags then
            some ([], r.subscribe sveInfo writer, infoResult saceCmd sveInfo)
          else some ([], r, initialResult saceCmd)
      else some ([], r, initialResult saceCmd)) := by
  unfold handleServiceInfo
  split
  · cases entry : s.mNameService[saceCmd.name]? with
    | none =>
      rw [rep.unnamed entry]
      exact follows_pure rep
    | some p =>
      obtain ⟨sveInfo, member, live, found⟩ := rep.named entry
      simp only [found, deref_of_live live, Traced.pure_then, ne_eq, ite_not]
      split
      · rintro t answer done
        cases done
        exact ⟨_, rfl, ps, rep.stored member live fun x => addWriter_identity x writer⟩
      · exact follows_pure rep
  · exact follows_pure rep

theorem request_follows (rep : Represents s ps r) {msg : SaceReaderMessage}
    (unused : msg.msgCmd.serviceCmdType = .start → answers.address ∉ s.heap ∧
      sequenceToLabel msg.msgCmd.sequence answers.address ∉ s.mSeqService) :
    Follows (s.request msg env answers) (r.request msg env answers) := by
  unfold request
  dsimp only
  split
  · rename_i kind
    exact start_follows rep kind (unused kind).1 (unused kind).2 rfl
  rename_i unstarted
  simp only [Services.request, unstarted, if_false]
  split
  · exact stop_follows rep
  split
  · exact pause_follows rep
  split
  · exact restart_follows rep
  by_cases info : msg.msgCmd.serviceCmdType = .info
  · simp only [info, if_true, true_and]
    exact info_follows rep
  · simp only [info, if_false, false_and]
    exact follows_pure rep

end Requests

/-! ### Passes -/

/-- What a pass answers for a label: what it answers at the place where the service is listed. -/
def answersOf (s : SaceServiceExcutor) (wait : Nat → WaitAnswer) (label : UInt64) : WaitAnswer :=
  match s.mSeqService[label]? with
  | some p => wait (s.mRunningService.idxOf p)
  | none => .running

section Passes
variable {s t : SaceServiceExcutor} {ps : List UInt64} {r : Services} {wait : Nat → WaitAnswer}

theorem Represents.answersOf_eq (rep : Represents s ps r) {p : UInt64} {sveInfo : ServiceInfo}
    (member : p ∈ ps) (live : s.heap[p]? = some sveInfo) :
    s.answersOf wait sveInfo.label = wait (s.mRunningService.idxOf p) := by
  simp only [answersOf, (rep.seq _ p).mpr ⟨member, sveInfo, live, rfl⟩]

theorem idxOf_at {p : UInt64} (listed : p ∈ s.mRunningService) :
    s.mRunningService[s.mRunningService.idxOf p]? = some p := by
  rw [List.getElem?_eq_getElem (List.idxOf_lt_length_iff.mpr listed), List.getElem_idxOf]

/-- A service that has not ended is neither taken out of the register nor spoken of. -/
theorem Represents.polled_quiet (rep : Represents s ps r) {p : UInt64} {sveInfo : ServiceInfo}
    (member : p ∈ ps) (live : s.heap[p]? = some sveInfo)
    (quiet : s.endedAt wait (p, s.mRunningService.idxOf p) = false) :
    Services.gone (s.answersOf wait) sveInfo = false ∧
      Services.told (s.answersOf wait) sveInfo = [] := by
  simp only [Services.gone, Services.told, rep.answersOf_eq member live,
    SaceServiceExcutor.polled_quiet live quiet]
  exact ⟨trivial, rfl⟩

theorem store_remove {i : Nat} {p : UInt64} {before after : ServiceInfo}
    (same : after.identity = before.identity) :
    (s.store p after).remove i p after = s.remove i p before := by
  simp only [ServiceInfo.identity, Prod.mk.injEq] at same
  have erased : (s.heap.insert p after).erase p = s.heap.erase p := by
    refine Std.ExtTreeMap.ext_getElem? fun q => ?_
    simp only [Std.ExtTreeMap.getElem?_erase, Std.ExtTreeMap.getElem?_insert]
    split <;> rfl
  simp only [remove, store, same.1, same.2.1, erased]

theorem Represents.quiet_follows (rep : Represents s ps r)
    (entries : s.mRunningService.zipIdx.filter (s.endedAt wait) = [])
    (done : (s.monitorServiceStatus wait).result = .ok t) :
    r.records.flatMap (Services.told (s.answersOf wait)) = (s.monitorServiceStatus wait).trace ∧
      Refines t (r.keep fun x => !Services.gone (s.answersOf wait) x) := by
  have live : ∀ p ∈ s.mRunningService, p ∈ s.heap := fun p there => rep.live p (rep.listed p there)
  have quiet : ∀ entry ∈ s.mRunningService.zipIdx, s.endedAt wait entry = false := by
    intro entry there
    simpa using List.filter_eq_nil_iff.mp entries entry there
  have still : ∀ x ∈ r.records, Services.gone (s.answersOf wait) x = false ∧
      Services.told (s.answersOf wait) x = [] := by
    intro x there
    obtain ⟨p, member, held⟩ := rep.mem_records.mp there
    have listed := rep.order.subset member
    exact rep.polled_quiet member held
      (quiet _ (List.mem_zipIdx_iff_getElem?.mpr (idxOf_at listed)))
  rw [monitorServiceStatus, pollLoop_quiet live quiet, Traced.pure_then] at done ⊢
  cases done
  refine ⟨?_, ps, ?_⟩
  · rw [List.flatMap_eq_nil_iff.mpr fun x there => (still x there).2]
    rfl
  · rw [Register.keep_all fun x there => by simp [(still x there).1]]
    exact rep

theorem Represents.single_follows (rep : Represents s ps r) {p : UInt64} {i : Nat}
    (entries : s.mRunningService.zipIdx.filter (s.endedAt wait) = [(p, i)])
    (once : s.mRunningService.count p = 1)
    (done : (s.monitorServiceStatus wait).result = .ok t) :
    r.records.flatMap (Services.told (s.answersOf wait)) = (s.monitorServiceStatus wait).trace ∧
      Refines t (r.keep fun x => !Services.gone (s.answersOf wait) x) := by
  have live : ∀ p ∈ s.mRunningService, p ∈ s.heap := fun p there => rep.live p (rep.listed p there)
  have there : (p, i) ∈ s.mRunningService.zipIdx.filter (s.endedAt wait) := by
    rw [entries]
    exact List.mem_singleton_self _
  obtain ⟨entry, ends⟩ := List.mem_filter.mp there
  have at_ : s.mRunningService[i]? = some p := List.mem_zipIdx_iff_getElem?.mp entry
  have listed := List.mem_of_getElem? at_
  have place := Erasure.idxOf_once at_ once
  have member := rep.listed p listed
  obtain ⟨sveInfo, held⟩ := Table.some_of_mem (live p listed)
  have answer : s.answersOf wait sveInfo.label = wait i := by
    rw [rep.answersOf_eq member held, place]
  have saved : (pollService sveInfo (wait i)).saved = true := by
    rw [← saves_eq_endedAt] at ends
    simpa [saves, held] using ends
  have others : ∀ x ∈ r.records, x ≠ sveInfo → Services.gone (s.answersOf wait) x = false ∧
      Services.told (s.answersOf wait) x = [] := by
    intro x inside other
    obtain ⟨q, memberQ, heldQ⟩ := rep.mem_records.mp inside
    refine rep.polled_quiet memberQ heldQ ?_
    by_contra endsQ
    have hit : (q, s.mRunningService.idxOf q) ∈
        s.mRunningService.zipIdx.filter (s.endedAt wait) :=
      List.mem_filter.mpr ⟨List.mem_zipIdx_iff_getElem?.mpr
        (idxOf_at (rep.order.subset memberQ)), by simpa using endsQ⟩
    rw [entries, List.mem_singleton, Prod.mk.injEq] at hit
    rw [hit.1, held] at heldQ
    exact other (Option.some.inj heldQ).symm
  have inside : sveInfo ∈ r.records := rep.mem_records.mpr ⟨p, member, held⟩
  rw [monitorServiceStatus, pollLoop_single live held entries, Traced.bind_of_ok rfl] at done ⊢
  have new : (s.store p (pollService sveInfo (wait i)).sveInfo).heap[p]? =
      some (pollService sveInfo (wait i)).sveInfo := by simp [store]
  have again :
      (s.store p (pollService sveInfo (wait i)).sveInfo).mRunningService[i]? = some p := at_
  simp only [collectLoop, again, deref_of_live new, Traced.pure_then] at done ⊢
  cases done
  refine ⟨?_, ps.erase p, ?_⟩
  · rw [Register.flatMap_single inside fun x there other => (others x there other).2]
    simp [Services.told, answer]
  · rw [store_remove (pollService_identity sveInfo (wait i))]
    refine rep.removed at_ once held (by rw [Services.gone, answer, saved]) fun x there ends => ?_
    by_contra other
    rw [(others x there other).1] at ends
    cases ends

theorem pass_follows (rep : Represents s ps r) (few : (s.endedServices wait).length ≤ 1)
    (single : ∀ p ∈ s.endedServices wait, s.mRunningService.count p = 1)
    (done : (s.monitorServiceStatus wait).result = .ok t) :
    r.records.flatMap (Services.told (s.answersOf wait)) = (s.monitorServiceStatus wait).trace ∧
      Refines t (r.keep fun x => !Services.gone (s.answersOf wait) x) := by
  cases entries : s.mRunningService.zipIdx.filter (s.endedAt wait) with
  | nil => exact rep.quiet_follows entries done
  | cons entry rest =>
    obtain ⟨p, i⟩ := entry
    obtain rfl : rest = [] := by
      simp only [endedServices, Erasure.chosen, entries, List.map_cons, List.length_cons,
        List.length_map] at few
      exact List.length_eq_zero_iff.mp (by omega)
    have there : (p, i) ∈ s.mRunningService.zipIdx.filter (s.endedAt wait) := by
      rw [entries]
      exact List.mem_singleton_self _
    obtain ⟨entry, ends⟩ := List.mem_filter.mp there
    have at_ : s.mRunningService[i]? = some p := List.mem_zipIdx_iff_getElem?.mp entry
    exact rep.single_follows entries (single p (Erasure.mem_chosen.mpr ⟨i, at_, ends⟩)) done

/-! ### The shutdown -/

theorem Represents.running (rep : Represents s ps r) (distinct : s.mRunningService.Nodup) :
    ps = s.mRunningService :=
  rep.order.eq_of_length (Nat.le_antisymm rep.order.length_le
    (List.subperm_of_subset distinct rep.listed).length_le)

theorem interruptAll_eq {ps : List UInt64} (live : ∀ p ∈ ps, p ∈ s.heap) :
    s.interruptAll ps = ⟨(ps.filterMap fun p => s.heap[p]?).map fun x => .kill x.pid SIGINT,
      .ok ()⟩ := by
  induction ps with
  | nil => rfl
  | cons p rest ih =>
    obtain ⟨sveInfo, held⟩ := Table.some_of_mem (live p List.mem_cons_self)
    rw [interruptAll, deref_of_live held, Traced.pure_then, Traced.emit_then,
      ih fun q later => live q (List.mem_cons_of_mem _ later), List.filterMap_cons_some held]
    rfl

theorem killAll_eq {ps : List UInt64} {s : SaceServiceExcutor} (distinct : ps.Nodup)
    (live : ∀ p ∈ ps, p ∈ s.heap) : ∃ t, killAll ps s =
      ⟨(ps.filterMap fun p => s.heap[p]?).flatMap Services.killed, .ok t⟩ := by
  induction ps generalizing s with
  | nil => exact ⟨s, rfl⟩
  | cons p rest ih =>
    obtain ⟨sveInfo, held⟩ := Table.some_of_mem (live p List.mem_cons_self)
    obtain ⟨fresh, distinct⟩ := List.nodup_cons.mp distinct
    have apart : ∀ q ∈ rest, p ≠ q := fun q later same => fresh (same ▸ later)
    have left : ∀ q ∈ rest, (s.heap.erase p)[q]? = s.heap[q]? := fun q later => by
      simp [Std.ExtTreeMap.getElem?_erase, apart q later]
    obtain ⟨t, done⟩ := ih (s := { s with heap := s.heap.erase p }) distinct fun q later =>
      Table.mem_erase.mpr ⟨apart q later, live q (List.mem_cons_of_mem _ later)⟩
    refine ⟨t, ?_⟩
    rw [killAll, deref_of_live held, Traced.pure_then, Traced.emit_then,
      ServiceInfo.sendResponse, Traced.emitAll_then, done, List.filterMap_congr left,
      List.filterMap_cons_some held]
    rfl

theorem destroy_follows (rep : Represents s ps r) (distinct : s.mRunningService.Nodup)
    (done : s.destroy.result = .ok t) :
    r.records.flatMap Services.killed = s.destroy.trace ∧ Refines t .empty := by
  obtain ⟨u, killed⟩ := killAll_eq distinct fun p there => rep.live p (rep.listed p there)
  rw [destroy, killed, Traced.bind_of_ok rfl] at done ⊢
  cases done
  refine ⟨?_, [], ?_⟩
  · rw [rep.records, rep.running distinct]
    simp
  · constructor <;> simp [Register.empty]

end Passes

/-! ### Runs -/

structure Logged where
  service : SaceServiceExcutor := {}
  log : List Effect := []

namespace Logged

def step (d : Logged) (input : Work) : Option Logged :=
  (d.service.work input).value.map fun service =>
    { service, log := d.log ++ (d.service.work input).trace }

/-- A START gets an address at which nothing lies and a label that is not in the table. -/
def Provided (d : Logged) : Work → Prop
  | .request msg _ answers => msg.msgCmd.serviceCmdType = .start →
      answers.address ∉ d.service.heap ∧
        sequenceToLabel msg.msgCmd.sequence answers.address ∉ d.service.mSeqService
  | _ => True

/-- A pass finds at most one service ended, and that one listed once; the shutdown finds no
service listed twice. -/
def Tidy (d : Logged) : Work → Prop
  | .request _ _ _ => True
  | .monitor wait => (d.service.endedServices wait).length ≤ 1 ∧
      ∀ p ∈ d.service.endedServices wait, d.service.mRunningService.count p = 1
  | .interrupt | .destroy => d.service.mRunningService.Nodup

instance (d : Logged) : (input : Work) → Decidable (d.Provided input)
  | .request _ _ _ => inferInstanceAs (Decidable (_ → _ ∧ _))
  | .monitor _ | .interrupt | .destroy => inferInstanceAs (Decidable True)

instance (d : Logged) : (input : Work) → Decidable (d.Tidy input)
  | .request _ _ _ => inferInstanceAs (Decidable True)
  | .monitor _ =>
    -- The list is gone through, not the numbers that a word can hold.
    have := List.decidableBAll (d.service.mRunningService.count · = 1)
    inferInstanceAs (Decidable (_ ∧ _))
  | .interrupt | .destroy => inferInstanceAs (Decidable (List.Nodup _))

end Logged

end SaceServiceExcutor

structure Registered where
  services : Services := .empty
  log : List Effect := []

namespace Registered

def step (d : Registered) (task : Services.Task) : Option Registered :=
  (d.services.act task).map fun (trace, services) => { services, log := d.log ++ trace }

end Registered

namespace SaceServiceExcutor

def taskOf (s : SaceServiceExcutor) : Work → Services.Task
  | .request msg env answers => .request msg env answers
  | .monitor wait => .pass (s.answersOf wait)
  | .interrupt => .interrupt
  | .destroy => .destroy

theorem work_follows {d : Logged} {r : Services} (refines : Refines d.service r) {input : Work}
    (provided : d.Provided input) (tidy : d.Tidy input) {t : SaceServiceExcutor}
    (done : (d.service.work input).result = .ok t) :
    ∃ u, r.act (d.service.taskOf input) = some ((d.service.work input).trace, u) ∧
      Refines t u := by
  obtain ⟨ps, rep⟩ := refines
  cases input with
  | request msg env answers =>
    obtain ⟨result, requested⟩ := request_work done
    obtain ⟨u, spec, after⟩ := request_follows rep provided t result requested
    refine ⟨u, ?_, after⟩
    simp only [taskOf, Services.act, spec, Option.map_some, work, Traced.bind_of_ok requested,
      Traced.emit_then, Traced.pure_trace]
  | monitor wait =>
    obtain ⟨told, after⟩ := pass_follows rep tidy.1 tidy.2 done
    exact ⟨_, by rw [taskOf, Services.act, told]; rfl, after⟩
  | interrupt =>
    have all := interruptAll_eq (s := d.service) fun p there => rep.live p (rep.listed p there)
    rw [work, all, Traced.bind_of_ok rfl] at done ⊢
    cases done
    refine ⟨r, ?_, ps, rep⟩
    rw [taskOf, Services.act, rep.records, rep.running tidy]
    simp
  | destroy =>
    obtain ⟨told, after⟩ := destroy_follows rep tidy done
    exact ⟨_, by rw [taskOf, Services.act, told]; rfl, after⟩

theorem Logged.step_follows {d e : Logged} {x : Registered} {input : Work}
    (related : Refines d.service x.services ∧ d.log = x.log)
    (allowed : d.Provided input ∧ d.Tidy input) (moved : d.step input = some e) :
    ∃ y, x.step (d.service.taskOf input) = some y ∧
      Refines e.service y.services ∧ e.log = y.log := by
  obtain ⟨t, done, rfl⟩ := Option.map_eq_some_iff.mp moved
  obtain ⟨u, acted, after⟩ := work_follows related.1 allowed.1 allowed.2
    (Traced.value_eq_some.mp done)
  refine ⟨⟨u, x.log ++ (d.service.work input).trace⟩, ?_, after, ?_⟩
  · simp only [Registered.step, acted, Option.map_some]
  · rw [← related.2]

end SaceServiceExcutor
end Sace
