import Mathlib.Data.List.Nodup
import Sace.Library.Erasure
import Sace.Normal.Owners

/-! The vector of running commands and the table by label: both hold the same commands. -/
namespace Sace
namespace SaceNormalExcutor

/-- The table holds the commands of the vector under their labels, and no two of them lie at
one address. -/
structure Listed (s : SaceNormalExcutor) : Prop where
  running : (s.mRunningCmd.map (·.address)).Nodup
  labels : ∀ (label : UInt64) (cmdInfo : CommandInfo),
    s.mSeqCmd[label]? = some cmdInfo ↔ cmdInfo ∈ s.mRunningCmd ∧ cmdInfo.label = label

variable {s t : SaceNormalExcutor} {label : UInt64} {cmdInfo : CommandInfo}
  {wait : Int → List WaitAnswer}

theorem Listed.empty : Listed {} where
  running := List.nodup_nil
  labels := by simp

theorem Listed.same (listed : s.Listed) (running : t.mRunningCmd = s.mRunningCmd)
    (seq : t.mSeqCmd = s.mSeqCmd) : t.Listed where
  running := running ▸ listed.running
  labels := by
    rw [running, seq]
    exact listed.labels

theorem Listed.removed (listed : s.Listed) (found : s.mSeqCmd[label]? = some cmdInfo)
    (running : t.mRunningCmd = s.mRunningCmd.erase cmdInfo)
    (seq : t.mSeqCmd = s.mSeqCmd.erase label) : t.Listed where
  running := by
    rw [running]
    exact listed.running.sublist (List.erase_sublist.map _)
  labels := by
    have once : cmdInfo ∉ s.mRunningCmd.erase cmdInfo :=
      (List.Nodup.of_map _ listed.running).not_mem_erase
    obtain ⟨-, rfl⟩ := (listed.labels _ _).mp found
    intro label other
    rw [running, seq, Table.erase_some, listed.labels]
    constructor
    · rintro ⟨ne, member, rfl⟩
      refine ⟨(List.mem_erase_of_ne ?_).mpr member, rfl⟩
      rintro rfl
      exact ne rfl
    · rintro ⟨member, rfl⟩
      have before := List.mem_of_mem_erase member
      refine ⟨?_, before, rfl⟩
      intro same
      have here := (listed.labels _ _).mpr ⟨before, same.symm⟩
      rw [found] at here
      cases here
      exact once member

theorem Listed.added (listed : s.Listed)
    (address : ∀ other ∈ s.mRunningCmd, other.address ≠ cmdInfo.address)
    (free : s.mSeqCmd[cmdInfo.label]? = none)
    (running : t.mRunningCmd = s.mRunningCmd ++ [cmdInfo])
    (seq : t.mSeqCmd = s.mSeqCmd.insertIfNew cmdInfo.label cmdInfo) : t.Listed where
  running := by
    have last := List.perm_append_singleton cmdInfo s.mRunningCmd
    rw [running, (last.map _).nodup_iff, List.map_cons, List.nodup_cons]
    refine ⟨?_, listed.running⟩
    rw [List.mem_map]
    rintro ⟨other, member, same⟩
    exact address other member same
  labels := by
    intro other info
    rw [running, seq, Table.insertIfNew_some free, listed.labels, List.mem_append,
      List.mem_singleton]
    constructor
    · rintro (⟨rfl, rfl⟩ | ⟨member, rfl⟩)
      · exact ⟨.inr rfl, rfl⟩
      · exact ⟨.inl member, rfl⟩
    · rintro ⟨member | rfl, rfl⟩
      · exact .inr ⟨member, rfl⟩
      · exact .inl ⟨rfl, rfl⟩

/-! ### Requests -/

theorem Listed.closeCmd (listed : s.Listed) (found : s.mSeqCmd[label]? = some cmdInfo)
    (done : (s.closeCmd label cmdInfo wait).result = .ok t) :
    t.Listed ∧ t.mRunningCmd ⊆ s.mRunningCmd := by
  have member := ((listed.labels _ _).mp found).1
  obtain ⟨_, rfl⟩ := SaceNormalExcutor.closeCmd_ok done
  have erased := Erasure.eraseP_key listed.running member
  exact ⟨listed.removed found erased rfl, erased ▸ List.erase_subset⟩

theorem Listed.destroyLoop {labels : List UInt64} (listed : s.Listed)
    (done : (destroyLoop wait labels s).result = .ok t) :
    t.Listed ∧ t.mRunningCmd ⊆ s.mRunningCmd := by
  refine Popens.destroyLoop_keeps (P := fun t => t.Listed ∧ t.mRunningCmd ⊆ s.mRunningCmd)
    ⟨listed, List.Subset.refl _⟩ ?_ done
  rintro u v label cmdInfo ⟨listed, fewer⟩ found closed
  obtain ⟨listed, fewest⟩ := listed.closeCmd found closed
  exact ⟨listed, List.Subset.trans fewest fewer⟩

end SaceNormalExcutor

namespace OwnedExcutor.Request

def cmdInfo (r : Request) : CommandInfo :=
  { address := r.answers.address
    fd := r.answers.fd
    cmdLine := r.msg.msgCmd.command
    label := r.label
    writer := r.msg.msgWriter
    pid := r.answers.pid }

variable {s t : SaceNormalExcutor} {r : Request}

theorem excuteNormal_starts (starts : r.Starts)
    (done : (s.excuteNormal r.msg r.env r.answers r.wait).result = .ok t) :
    t.mRunningCmd = s.mRunningCmd ++ [r.cmdInfo] ∧
      t.mSeqCmd = s.mSeqCmd.insertIfNew r.label r.cmdInfo := by
  have given : ¬ r.answers.fd < 0 := by
    have := starts.2
    omega
  rw [SaceNormalExcutor.excuteNormal, Popens.excuteNormal, if_pos starts.1,
    SaceNormalExcutor.startNormalCmd] at done
  dsimp only at done
  rw [if_neg given] at done
  cases done
  exact ⟨rfl, rfl⟩

theorem excuteNormal_lists (listed : s.Listed) (other : ¬ r.Starts)
    (done : (s.excuteNormal r.msg r.env r.answers r.wait).result = .ok t) :
    t.Listed ∧ t.mRunningCmd ⊆ s.mRunningCmd := by
  cases Popens.excuteNormal_done done with
  | start kind started =>
    have failed : r.answers.fd < 0 := Int.not_le.mp fun given => other ⟨kind, given⟩
    rw [SaceNormalExcutor.startNormalCmd] at started
    dsimp only at started
    rw [if_pos failed] at started
    cases started
    exact ⟨listed, List.Subset.refl _⟩
  | unfound _ _ same | nothing _ _ same =>
    cases same
    exact ⟨listed, List.Subset.refl _⟩
  | close _ cmdInfo u found closed ended =>
    obtain ⟨kept, fewer⟩ := listed.closeCmd found closed
    cases ended
    exact ⟨kept.same rfl rfl, fewer⟩
  | destroy _ labels u found destroyed ended =>
    obtain ⟨kept, fewer⟩ := listed.destroyLoop destroyed
    cases ended
    exact ⟨kept.same rfl rfl, fewer⟩

end OwnedExcutor.Request
end Sace
