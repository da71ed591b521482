import Sace.Service.Labels

/-! The live services with their addresses and labels. Only a START that enters its service into
the tables adds to them. -/
namespace Sace.SaceServiceExcutor

def live (s : SaceServiceExcutor) : List (UInt64 × UInt64) :=
  s.heap.toList.map fun entry => (entry.1, entry.2.label)

variable {s t : SaceServiceExcutor} {p label : UInt64}

theorem mem_live : (p, label) ∈ s.live ↔
    ∃ sveInfo, s.heap[p]? = some sveInfo ∧ sveInfo.label = label := by
  simp only [live, List.mem_map, Prod.exists, Prod.mk.injEq,
    Std.ExtTreeMap.mem_toList_iff_getElem?_eq_some]
  constructor
  · rintro ⟨_, sveInfo, held, rfl, label⟩
    exact ⟨sveInfo, held, label⟩
  · rintro ⟨sveInfo, held, label⟩
    exact ⟨p, sveInfo, held, rfl, label⟩

theorem Older.subset (older : Older s t) : t.live ⊆ s.live := by
  rintro ⟨p, label⟩ member
  obtain ⟨sveInfo, held, own⟩ := mem_live.mp member
  obtain ⟨before, was, same⟩ := older p sveInfo held
  exact mem_live.mpr ⟨before, was, same.trans own⟩

theorem Older.refl (s : SaceServiceExcutor) : Older s s :=
  fun _ sveInfo held => ⟨sveInfo, held, rfl⟩

theorem change_older {msg : SaceReaderMessage} {answers : StartAnswers} {result : SaceResult}
    (other : msg.msgCmd.serviceCmdType ≠ .start) (change : Change s msg answers t result) :
    Older s t := by
  cases change with
  | same status => exact .refl s
  | start kind => exact absurd kind other
  | restate state held => exact store_back ServiceInfo.label held rfl
  | @restart p sveInfo kind found held paused =>
    have stored : Older s (s.store p { sveInfo with state := .running }) :=
      store_back ServiceInfo.label held rfl
    exact stored
  | query kind found held =>
    exact store_back ServiceInfo.label held (addWriter_identity _ _).1

theorem request_older {msg : SaceReaderMessage} {env : ParseEnv} {answers : StartAnswers}
    {result : SaceResult} (other : ¬ s.Adds msg answers)
    (done : (s.request msg env answers).result = .ok (t, result)) : Older s t := by
  by_cases kind : msg.msgCmd.serviceCmdType = .start
  · rcases start_cases kind done with ⟨-, rfl, -⟩ | ⟨adds, -⟩
    · exact .refl t
    · exact absurd adds other
  · exact change_older kind (request_change done)

theorem monitor_older {wait : Nat → WaitAnswer}
    (done : (s.monitorServiceStatus wait).result = .ok t) : Older s t := by
  obtain ⟨⟨u, gc⟩, loop, collected⟩ := Traced.bind_ok.mp done
  intro p sveInfo held
  exact pollLoop_older loop p sveInfo (collectLoop_older collected held)

theorem destroy_older (done : s.destroy.result = .ok t) : Older s t := by
  obtain ⟨u, killed, emptied⟩ := Traced.bind_ok.mp done
  cases emptied
  intro p sveInfo held
  exact ⟨sveInfo, ((killAll_told killed).1 p sveInfo held).1, rfl⟩

/-! ### All the work -/

def adds (s : SaceServiceExcutor) : Work → Option (UInt32 × UInt64)
  | .request msg _ answers =>
    if s.Adds msg answers then some (msg.msgCmd.sequence, answers.address) else none
  | _ => none

theorem work_older {task : Work} (none : s.adds task = none)
    (done : (s.work task).result = .ok t) : Older s t := by
  cases task with
  | request msg env answers =>
    obtain ⟨⟨u, result⟩, requested, rest⟩ := Traced.bind_ok.mp done
    cases rest
    exact request_older (by simpa [adds] using none) requested
  | monitor wait => exact monitor_older done
  | interrupt =>
    obtain ⟨_, _, rest⟩ := Traced.bind_ok.mp done
    cases rest
    exact .refl s
  | destroy => exact destroy_older done

theorem work_adds {task : Work} {sequence : UInt32} (adds : s.adds task = some (sequence, p))
    (done : (s.work task).result = .ok t) :
    ∃ sveInfo, sveInfo.label = sequenceToLabel sequence p ∧ sveInfo.name ∉ s.mNameService ∧
      t = s.add p sveInfo := by
  cases task with
  | request msg env answers =>
    obtain ⟨⟨u, result⟩, requested, rest⟩ := Traced.bind_ok.mp done
    cases rest
    simp only [SaceServiceExcutor.adds, Option.ite_none_right_eq_some, Option.some.injEq,
      Prod.mk.injEq] at adds
    obtain ⟨enters, rfl, rfl⟩ := adds
    rcases start_cases enters.1 requested with ⟨refused, -⟩ | ⟨-, rfl, -⟩
    · exact absurd enters refused
    · exact ⟨_, newService_label _ _ _, newService_name .. ▸ enters.2.1, rfl⟩
  | monitor | interrupt | destroy => cases adds

theorem Indexed.kept (indexed : s.Indexed) (owned : s.Owned) : Kept s (s.live.map Prod.snd) where
  owned := owned
  indexed := indexed
  known _ sveInfo held := List.mem_map_of_mem (f := Prod.snd) (mem_live.mpr ⟨sveInfo, held, rfl⟩)

theorem Kept.rest {task : Work} {labels : List UInt64} (kept : Kept s labels)
    (none : s.adds task = none) (done : (s.work task).result = .ok t) : t.Owned ∧ t.Indexed := by
  cases task with
  | request msg env answers =>
    obtain ⟨⟨u, result⟩, requested, rest⟩ := Traced.bind_ok.mp done
    cases rest
    by_cases kind : msg.msgCmd.serviceCmdType = .start
    · rcases start_cases kind requested with ⟨-, rfl, -⟩ | ⟨enters, -⟩
      · exact ⟨kept.owned, kept.indexed⟩
      · exact absurd enters (by simpa [adds] using none)
    · have after := kept.change (fun start => absurd start kind) (by simp [given, kind])
        (request_change requested)
      exact ⟨after.owned, after.indexed⟩
  | monitor wait =>
    have after := (kept.monitored done).1
    exact ⟨after.owned, after.indexed⟩
  | interrupt =>
    obtain ⟨_, _, rest⟩ := Traced.bind_ok.mp done
    cases rest
    exact ⟨kept.owned, kept.indexed⟩
  | destroy =>
    have after := (kept.destroyed done).1
    exact ⟨after.owned, after.indexed⟩

/-- The tables stay right as long as the address and the label of a new service are in use for
no other. -/
theorem Indexed.worked {task : Work} (indexed : s.Indexed) (owned : s.Owned)
    (fresh : ∀ sequence p, s.adds task = some (sequence, p) → p ∉ s.heap)
    (free : ∀ sequence p, s.adds task = some (sequence, p) →
      s.mSeqService[sequenceToLabel sequence p]? = none)
    (done : (s.work task).result = .ok t) : t.Owned ∧ t.Indexed := by
  have kept := indexed.kept owned
  cases enters : s.adds task with
  | none => exact kept.rest enters done
  | some new =>
    obtain ⟨sveInfo, label, name, rfl⟩ := work_adds enters done
    have unused : sveInfo.label ∉ s.live.map Prod.snd := by
      intro used
      obtain ⟨⟨q, other⟩, member, same⟩ := List.mem_map.mp used
      obtain ⟨info, held, own⟩ := mem_live.mp member
      have found := (indexed q info held).1
      rw [own, show other = sveInfo.label from same, label, free _ _ enters] at found
      cases found
    have after := kept.added (fresh _ _ enters) name unused
    exact ⟨after.owned, after.indexed⟩

end Sace.SaceServiceExcutor
