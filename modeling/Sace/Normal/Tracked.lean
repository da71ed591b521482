import Sace.Normal.Listed
import Sace.Normal.Popen

/-! The lists, the table and the open descriptors of the normal executor stay in step. -/
namespace Sace

namespace PipedExcutor

/-- The commands of the four indexes and the open pipe ends are the same ones. -/
structure Tracked (s : PipedExcutor) : Prop where
  running : (s.mRunningCmd.map (·.address)).Nodup
  labels : ∀ (label : UInt64) (cmdInfo : CommandInfo),
    s.mSeqCmd[label]? = some cmdInfo ↔ cmdInfo ∈ s.mRunningCmd ∧ cmdInfo.label = label
  nodes : (s.mRunningCmd.map fun cmdInfo => (cmdInfo.fd, cmdInfo.pid)).Perm s.pidlist
  ends : (s.mRunningCmd.map (·.fd)).Perm s.opened
  distinct : s.opened.Nodup
  valid : ∀ fd ∈ s.opened, 0 ≤ fd

/-- `new` and pipe2 give what is not in use, and the label of a START is not in use. -/
def Provided (s : PipedExcutor) (r : Request) : Prop :=
  r.msg.msgCmd.normalCmdType = .start →
    (∀ cmdInfo ∈ s.mRunningCmd, cmdInfo.address ≠ r.address) ∧
    s.mSeqCmd[sequenceToLabel r.msg.msgCmd.sequence r.address]? = none ∧
    ∀ pdes0 pdes1, r.system.pipe2 = some (pdes0, pdes1) →
      pdes0 ≠ pdes1 ∧ 0 ≤ pdes0 ∧ 0 ≤ pdes1 ∧ pdes0 ∉ s.opened ∧ pdes1 ∉ s.opened

instance decidableEnds (system : PopenSystem) (opened : List Int) :
    Decidable (∀ pdes0 pdes1, system.pipe2 = some (pdes0, pdes1) →
      pdes0 ≠ pdes1 ∧ 0 ≤ pdes0 ∧ 0 ≤ pdes1 ∧ pdes0 ∉ opened ∧ pdes1 ∉ opened) :=
  decidable_of_iff (∀ ends ∈ system.pipe2, ends.1 ≠ ends.2 ∧ 0 ≤ ends.1 ∧ 0 ≤ ends.2 ∧
    ends.1 ∉ opened ∧ ends.2 ∉ opened) Prod.forall

instance (s : PipedExcutor) (r : Request) : Decidable (s.Provided r) :=
  inferInstanceAs (Decidable (_ → _ ∧ _ ∧ _))

def step (s : PipedExcutor) (r : Request) : Option PipedExcutor := (s.excuteNormal r).value

/-- A sace_popen fails and leaves both lists as they were, or adds one node and its end. -/
theorem sacePopen_cases {pipes : Pipes} {flags : SaceCommandFlags} {system : PopenSystem}
    (apart : ∀ pdes0 pdes1, system.pipe2 = some (pdes0, pdes1) → pdes0 ≠ pdes1) :
    sacePopen pipes flags system = (pipes, -1, 0) ∨
    ∃ pdes0 pdes1 fd pid, system.pipe2 = some (pdes0, pdes1) ∧ (fd = pdes0 ∨ fd = pdes1) ∧
      sacePopen pipes flags system =
        (⟨(fd, pid) :: pipes.pidlist, fd :: pipes.opened⟩, fd, pid) := by
  unfold sacePopen
  split
  · exact .inl rfl
  · rename_i pdes0 pdes1 piped
    have both : (({ pipes with opened := pdes0 :: pdes1 :: pipes.opened } : Pipes).close
        pdes0).close pdes1 = pipes := by simp [Pipes.close]
    dsimp only
    split
    · exact .inl (by rw [both])
    · split
      · exact .inl (by rw [both])
      · rename_i pid _
        by_cases output : flags = .output
        · refine .inr ⟨pdes0, pdes1, pdes1, pid, piped, .inr rfl, ?_⟩
          simp [output, Pipes.close]
        · refine .inr ⟨pdes0, pdes1, pdes0, pid, piped, .inl rfl, ?_⟩
          simp [output, Pipes.close, List.erase_cons_tail, apart pdes0 pdes1 piped]

theorem Tracked.listed {s : PipedExcutor} (tracked : s.Tracked) : s.toSaceNormalExcutor.Listed :=
  ⟨tracked.running, tracked.labels⟩

theorem Tracked.find?_eq {s : PipedExcutor} (tracked : s.Tracked) {cmdInfo : CommandInfo}
    (listed : cmdInfo ∈ s.mRunningCmd) :
    s.pidlist.find? (·.1 = cmdInfo.fd) = some (cmdInfo.fd, cmdInfo.pid) := by
  have nodes := tracked.nodes
  have node : (cmdInfo.fd, cmdInfo.pid) ∈ s.pidlist :=
    nodes.mem_iff.mp (List.mem_map_of_mem (f := fun c => (c.fd, c.pid)) listed)
  have keys : (s.pidlist.map Prod.fst).Nodup := by
    have ends := (nodes.map Prod.fst).symm
    rw [List.map_map] at ends
    exact (ends.trans tracked.ends).nodup_iff.mpr tracked.distinct
  cases found : s.pidlist.find? (·.1 = cmdInfo.fd) with
  | none => simpa using List.find?_eq_none.mp found _ node
  | some cur =>
    have key : cur.1 = cmdInfo.fd := by simpa using List.find?_some found
    exact congrArg some (List.inj_on_of_nodup_map keys (List.mem_of_find?_eq_some found) node key)

theorem Tracked.closeCmd_cases {s t : PipedExcutor} {label : UInt64} {cmdInfo : CommandInfo}
    {wait : Int → List WaitAnswer} (tracked : s.Tracked)
    (found : s.mSeqCmd[label]? = some cmdInfo)
    (done : (s.closeCmd label cmdInfo wait).result = .ok t) :
    t = { s with
      mRunningCmd := s.mRunningCmd.erase cmdInfo
      mSeqCmd := s.mSeqCmd.erase label
      pidlist := s.pidlist.erase (cmdInfo.fd, cmdInfo.pid)
      opened := s.opened.erase cmdInfo.fd } := by
  have listed := ((tracked.labels _ _).mp found).1
  have opened : 0 ≤ cmdInfo.fd :=
    tracked.valid _ (tracked.ends.mem_iff.mp (List.mem_map_of_mem listed))
  rw [← Erasure.eraseP_key tracked.running listed]
  rw [closeCmd_ends] at done
  obtain ⟨⟨pipes, pstat⟩, closed, done⟩ := Traced.bind_ok.mp done
  rw [sacePcloseEnds, if_neg (by omega), show s.pipes.pidlist = s.pidlist from rfl,
    tracked.find?_eq listed, Traced.bind_ok] at closed
  obtain ⟨_, _, closed⟩ := closed
  cases closed
  exact (Except.ok.inj done).symm

theorem Tracked.closeCmd {s t : PipedExcutor} {label : UInt64} {cmdInfo : CommandInfo}
    {wait : Int → List WaitAnswer} (tracked : s.Tracked)
    (found : s.mSeqCmd[label]? = some cmdInfo)
    (done : (s.closeCmd label cmdInfo wait).result = .ok t) : t.Tracked := by
  cases tracked.closeCmd_cases found done
  obtain ⟨listed, rfl⟩ := (tracked.labels _ _).mp found
  have out := List.perm_cons_erase listed
  have lists := tracked.listed.removed (t := { s.toSaceNormalExcutor with
    mRunningCmd := s.mRunningCmd.erase cmdInfo
    mSeqCmd := s.mSeqCmd.erase cmdInfo.label }) found rfl rfl
  constructor
  · exact lists.running
  · exact lists.labels
  · have nodes := (out.map _).symm.trans tracked.nodes
    simpa using nodes.erase (cmdInfo.fd, cmdInfo.pid)
  · have ends := (out.map _).symm.trans tracked.ends
    simpa using ends.erase cmdInfo.fd
  · exact tracked.distinct.erase _
  · intro fd member
    exact tracked.valid fd (List.mem_of_mem_erase member)

theorem Tracked.clients {s : PipedExcutor} (tracked : s.Tracked)
    (mClientCmd : Table SaceClientIdentifier (List UInt64)) :
    { s with mClientCmd }.Tracked := ⟨tracked.running, tracked.labels, tracked.nodes,
      tracked.ends, tracked.distinct, tracked.valid⟩

theorem Tracked.add {s : PipedExcutor} (tracked : s.Tracked) {cmdInfo : CommandInfo}
    (address : ∀ other ∈ s.mRunningCmd, other.address ≠ cmdInfo.address)
    (label : s.mSeqCmd[cmdInfo.label]? = none) (positive : 0 ≤ cmdInfo.fd)
    (closed : cmdInfo.fd ∉ s.opened) :
    { s with
      mRunningCmd := s.mRunningCmd ++ [cmdInfo]
      mSeqCmd := s.mSeqCmd.insertIfNew cmdInfo.label cmdInfo
      pidlist := (cmdInfo.fd, cmdInfo.pid) :: s.pidlist
      opened := cmdInfo.fd :: s.opened }.Tracked := by
  have last := List.perm_append_singleton cmdInfo s.mRunningCmd
  have lists := tracked.listed.added (t := { s.toSaceNormalExcutor with
    mRunningCmd := s.mRunningCmd ++ [cmdInfo]
    mSeqCmd := s.mSeqCmd.insertIfNew cmdInfo.label cmdInfo }) address label rfl rfl
  constructor
  · exact lists.running
  · exact lists.labels
  · exact (last.map _).trans (tracked.nodes.cons _)
  · exact (last.map _).trans (tracked.ends.cons _)
  · exact List.nodup_cons.mpr ⟨closed, tracked.distinct⟩
  · intro fd member
    rcases List.mem_cons.mp member with rfl | member
    · exact positive
    · exact tracked.valid fd member

theorem startNormalCmd_tracked {s t : PipedExcutor} {r : Request} (tracked : s.Tracked)
    (provided : s.Provided r) (start : r.msg.msgCmd.normalCmdType = .start)
    (done : (s.startNormalCmd r.msg r.env r.address r.system).result = .ok t) : t.Tracked := by
  obtain ⟨address, label, ends⟩ := provided start
  have popen := @sacePopen_cases s.pipes r.msg.msgCmd.flags r.system
    fun pdes0 pdes1 piped => (ends pdes0 pdes1 piped).1
  rw [startNormalCmd, Traced.bind_ok] at done
  obtain ⟨normal, started, done⟩ := done
  cases done
  rcases popen with failed | ⟨pdes0, pdes1, fd, pid, piped, kept, opened⟩
  · rw [PipedExcutor.popen, failed, SaceNormalExcutor.startNormalCmd] at started
    rw [failed]
    cases started
    exact tracked
  · obtain ⟨-, positive0, positive1, closed0, closed1⟩ := ends pdes0 pdes1 piped
    have positive : 0 ≤ fd := by rcases kept with rfl | rfl <;> assumption
    have closed : fd ∉ s.opened := by rcases kept with rfl | rfl <;> assumption
    rw [PipedExcutor.popen, opened, SaceNormalExcutor.startNormalCmd] at started
    dsimp only at started
    rw [if_neg (by omega)] at started
    rw [opened]
    cases started
    exact (tracked.add address label positive closed).clients _

theorem destroyLoop_tracked {wait : Int → List WaitAnswer} {labels : List UInt64}
    {s t : PipedExcutor} (tracked : s.Tracked)
    (done : (destroyLoop wait labels s).result = .ok t) : t.Tracked :=
  Popens.destroyLoop_keeps tracked (fun _ _ _ _ kept found closed => kept.closeCmd found closed)
    done

theorem excuteNormal_tracked {s t : PipedExcutor} {r : Request} (tracked : s.Tracked)
    (provided : s.Provided r) (done : (s.excuteNormal r).result = .ok t) : t.Tracked := by
  cases Popens.excuteNormal_done done with
  | start kind started => exact startNormalCmd_tracked tracked provided kind started
  | unfound _ _ same | nothing _ _ same => exact same ▸ tracked
  | close _ cmdInfo u found closed ended =>
    cases ended
    exact (tracked.closeCmd found closed).clients _
  | destroy _ labels u found destroyed ended =>
    cases ended
    exact (destroyLoop_tracked tracked destroyed).clients _

/-! ### The executor under the descriptors -/

theorem sacePcloseEnds_pidlist (pipes : Pipes) (fd : Int) (wait : Int → List WaitAnswer) :
    (sacePcloseEnds pipes fd wait >>= fun closed => pure (closed.1.pidlist, closed.2)) =
      sacePclose pipes.pidlist fd wait := by
  unfold sacePcloseEnds sacePclose
  split
  · rfl
  · cases pipes.pidlist.find? (·.1 = fd) with
    | none => rfl
    | some cur =>
      dsimp only
      rw [Traced.bind_assoc]
      rfl

theorem normal_view : Popens.View PipedExcutor.toSaceNormalExcutor where
  tables _ := rfl
  update _ _ := rfl
  pclose s fd wait := by
    have ends := sacePcloseEnds_pidlist s.pipes fd wait
    simp only [Popens.pclose, Traced.bind_assoc, Traced.pure_then] at ends ⊢
    rw [show s.pidlist = s.pipes.pidlist from rfl, ← ends, Traced.bind_assoc]
    rfl

theorem startNormalCmd_normal {s : PipedExcutor} {r : Request} (provided : s.Provided r)
    (start : r.msg.msgCmd.normalCmdType = .start) :
    (s.startNormalCmd r.msg r.env r.address r.system >>= fun t => pure t.toSaceNormalExcutor) =
      s.toSaceNormalExcutor.startNormalCmd r.msg r.env (s.popen r.msg r.address r.system) := by
  obtain ⟨-, -, ends⟩ := provided start
  have popen := @sacePopen_cases s.pipes r.msg.msgCmd.flags r.system
    fun pdes0 pdes1 piped => (ends pdes0 pdes1 piped).1
  rw [startNormalCmd, Traced.bind_assoc]
  rcases popen with failed | ⟨pdes0, pdes1, fd, pid, piped, kept, opened⟩
  · rw [PipedExcutor.popen, failed]
    rfl
  · obtain ⟨-, positive0, positive1, -, -⟩ := ends pdes0 pdes1 piped
    have positive : ¬ fd < 0 := by rcases kept with rfl | rfl <;> omega
    rw [PipedExcutor.popen, opened]
    simp only [SaceNormalExcutor.startNormalCmd, if_neg positive]
    rfl

/-- Without its descriptors it does what the executor does on what sace_popen answers. -/
theorem excuteNormal_normal {s : PipedExcutor} {r : Request} (provided : s.Provided r) :
    (s.excuteNormal r >>= fun t => pure t.toSaceNormalExcutor) =
      s.toSaceNormalExcutor.excuteNormal r.msg r.env (s.popen r.msg r.address r.system)
        r.wait := by
  exact (normal_view.excuteNormal (fun kind => (startNormalCmd_normal provided kind).symm) _).symm

theorem empty_tracked : Tracked {} where
  running := List.nodup_nil
  labels := by simp
  nodes := .refl _
  ends := .refl _
  distinct := List.nodup_nil
  valid := by simp

/-- In every state that requests reach the indexes list the same commands, each once, and the
open pipe ends are the commands' own. -/
theorem reached_tracked {s : PipedExcutor} (reached : Runs.Reached step Provided {} s) :
    s.Tracked :=
  reached.invariant empty_tracked fun _ _ _ tracked provided moved =>
    excuteNormal_tracked tracked provided (Traced.value_eq_some.mp moved)

/-! A START for which no process can be had, two that open their pipes, and a CLOSE. -/

def startBy (client : SaceClientIdentifier) (sequence : UInt32) (address : UInt64) (fd : Int) :
    Request where
  msg :=
    { msgHandler := .normal
      msgCmd := { sequence, name := str "200:0", command := str "ls" }
      msgWriter := ⟨.socket 5, client.pid⟩
      msgClient := client }
  env := .empty
  address := address
  system := { pipe2 := some (fd, fd + 1), malloc := true, vfork := some (fd + 300) }
  wait := fun _ => [.reaped 0]

def closeBy (client : SaceClientIdentifier) (label : UInt64) : Request :=
  { startBy client 9 64 12 with
    msg :=
      { msgHandler := .normal
        msgCmd :=
          { sequence := 9, label, name := str "200:1"
            subType := SaceNormalCommandType.close.byte }
        msgWriter := ⟨.socket 6, client.pid⟩
        msgClient := client } }

def openAndClose : List Request :=
  [{ startBy ⟨1000, 200⟩ 7 16 8 with
      system := { pipe2 := some (8, 9), malloc := true, vfork := none } },
    startBy ⟨1000, 200⟩ 7 16 8, startBy ⟨1000, 300⟩ 7 32 10,
    closeBy ⟨1000, 200⟩ (sequenceToLabel 7 16)]

theorem openAndClose_tracked :
    ∃ s, Runs.run step {} openAndClose = some s ∧ s.opened = [10] ∧ s.Tracked := by
  have last : (Runs.run step {} openAndClose).map (·.opened) = some [10] := by decide +kernel
  obtain ⟨s, ran, opened⟩ := Option.map_eq_some_iff.mp last
  have admitted : Runs.Admitted step Provided {} openAndClose := by decide +kernel
  exact ⟨s, ran, opened, reached_tracked (Runs.run_reached admitted ran)⟩

end PipedExcutor
end Sace
