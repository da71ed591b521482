import Sace.Normal.Excutor

/-! What the requests to the normal executor do. -/
namespace Sace

/-! ### What a request that comes to its end has done -/

namespace Popens

variable {S : Type} [Popens S] {s t : S} {msg : SaceReaderMessage} {start : Exec S}
variable {wait : Int → List WaitAnswer}

inductive Done (s : S) (msg : SaceReaderMessage) (start : Exec S) (wait : Int → List WaitAnswer)
    (t : S) : Prop
  | start (kind : msg.msgCmd.normalCmdType = .start) (started : start.result = .ok t)
  | unfound (kind : msg.msgCmd.normalCmdType = .close)
      (absent : (tables s).mSeqCmd[msg.msgCmd.label]? = none) (same : t = s)
  | close (kind : msg.msgCmd.normalCmdType = .close) (cmdInfo : CommandInfo) (u : S)
      (found : (tables s).mSeqCmd[msg.msgCmd.label]? = some cmdInfo)
      (closed : (closeCmd s msg.msgCmd.label cmdInfo wait).result = .ok u)
      (ended : t = update u fun normal =>
        { normal with mClientCmd := match (tables u).mClientCmd[msg.msgClient]? with
            | none => (tables u).mClientCmd
            | some labels =>
              if labels.erase cmdInfo.label = [] then (tables u).mClientCmd.erase msg.msgClient
              else (tables u).mClientCmd.insert msg.msgClient (labels.erase cmdInfo.label) })
  | destroy (kind : msg.msgCmd.normalCmdType = .destroy) (labels : List UInt64) (u : S)
      (found : (tables s).mClientCmd[msg.msgClient]? = some labels)
      (destroyed : (destroyLoop wait labels s).result = .ok u)
      (ended : t = update u fun normal =>
        { normal with mClientCmd := normal.mClientCmd.erase msg.msgClient })
  | nothing (start : msg.msgCmd.normalCmdType ≠ .start) (close : msg.msgCmd.normalCmdType ≠ .close)
      (same : t = s)

theorem excuteNormal_done (done : (excuteNormal s msg start wait).result = .ok t) :
    Done s msg start wait t := by
  unfold excuteNormal at done
  split at done
  · rename_i kind
    exact .start kind done
  rename_i notStart
  split at done
  · rename_i kind
    unfold closeNormalCmd at done
    dsimp only at done
    split at done
    · rename_i absent
      cases done
      exact .unfound kind absent rfl
    · rename_i cmdInfo found
      obtain ⟨u, closed, done⟩ := Traced.bind_ok.mp done
      cases done
      exact .close kind cmdInfo u found closed rfl
  rename_i notClose
  split at done
  · rename_i kind
    unfold destroyNormalCmd at done
    split at done
    · cases done
      exact .nothing notStart notClose rfl
    · rename_i labels found
      obtain ⟨u, destroyed, done⟩ := Traced.bind_ok.mp done
      cases done
      exact .destroy kind labels u found destroyed rfl
  · cases done
    exact .nothing notStart notClose rfl

theorem destroyLoop_none {label : UInt64} {labels : List UInt64}
    (absent : (tables s).mSeqCmd[label]? = none) :
    destroyLoop wait (label :: labels) s = destroyLoop wait labels s := by
  rw [destroyLoop, absent]

theorem destroyLoop_some {label : UInt64} {labels : List UInt64} {cmdInfo : CommandInfo}
    (found : (tables s).mSeqCmd[label]? = some cmdInfo) :
    destroyLoop wait (label :: labels) s =
      closeCmd s label cmdInfo wait >>= destroyLoop wait labels := by
  rw [destroyLoop, found]

/-- What every closing keeps the loop over a client's labels keeps. -/
theorem destroyLoop_keeps {P : S → Prop} {labels : List UInt64} (kept : P s)
    (closes : ∀ (s t : S) (label : UInt64) (cmdInfo : CommandInfo), P s →
      (tables s).mSeqCmd[label]? = some cmdInfo →
      (closeCmd s label cmdInfo wait).result = .ok t → P t)
    (done : (destroyLoop wait labels s).result = .ok t) : P t := by
  induction labels generalizing s with
  | nil =>
    cases done
    exact kept
  | cons label labels ih =>
    unfold destroyLoop at done
    split at done
    · exact ih kept done
    · rename_i cmdInfo found
      obtain ⟨u, closed, done⟩ := Traced.bind_ok.mp done
      exact ih (closes s u label cmdInfo kept found closed) done

/-! ### The executor seen without what else a state holds -/

/-- A view that keeps the tables and what sace_pclose does. -/
structure View {T : Type} [Popens T] (view : S → T) : Prop where
  tables : ∀ s, tables (view s) = tables s
  update : ∀ s change, update (view s) change = view (update s change)
  pclose : ∀ (s : S) fd wait, pclose (view s) fd wait =
    Popens.pclose s fd wait >>= fun closed => pure (view closed.1, closed.2)

namespace View

variable {T : Type} [Popens T] {view : S → T} (same : View view)
include same

theorem closeCmd (s : S) (label : UInt64) (cmdInfo : CommandInfo) (wait : Int → List WaitAnswer) :
    Popens.closeCmd (view s) label cmdInfo wait =
      Popens.closeCmd s label cmdInfo wait >>= fun t => pure (view t) := by
  unfold Popens.closeCmd
  simp only [same.pclose, same.update, Traced.bind_assoc, Traced.pure_then]

theorem closeNormalCmd (s : S) (msg : SaceReaderMessage) (wait : Int → List WaitAnswer) :
    Popens.closeNormalCmd (view s) msg wait =
      Popens.closeNormalCmd s msg wait >>= fun t => pure (view t) := by
  unfold Popens.closeNormalCmd
  dsimp only
  rw [same.tables]
  cases (Popens.tables s).mSeqCmd[msg.msgCmd.label]? with
  | none => rfl
  | some cmdInfo =>
    simp only [same.closeCmd, same.tables, same.update, Traced.bind_assoc, Traced.pure_then]

theorem destroyLoop (wait : Int → List WaitAnswer) (labels : List UInt64) (s : S) :
    Popens.destroyLoop wait labels (view s) =
      Popens.destroyLoop wait labels s >>= fun t => pure (view t) := by
  induction labels generalizing s with
  | nil => rfl
  | cons label labels ih =>
    unfold Popens.destroyLoop
    rw [same.tables]
    cases (Popens.tables s).mSeqCmd[label]? with
    | none => exact ih s
    | some cmdInfo => simp only [same.closeCmd, ih, Traced.bind_assoc, Traced.pure_then]

theorem destroyNormalCmd (s : S) (msg : SaceReaderMessage) (wait : Int → List WaitAnswer) :
    Popens.destroyNormalCmd (view s) msg wait =
      Popens.destroyNormalCmd s msg wait >>= fun t => pure (view t) := by
  unfold Popens.destroyNormalCmd
  rw [same.tables]
  cases (Popens.tables s).mClientCmd[msg.msgClient]? with
  | none => rfl
  | some labels =>
    simp only [same.destroyLoop, same.update, Traced.bind_assoc, Traced.pure_then]

theorem excuteNormal {s : S} {msg : SaceReaderMessage} {start : Exec S} {start' : Exec T}
    (starts : msg.msgCmd.normalCmdType = .start → start' = start >>= fun t => pure (view t))
    (wait : Int → List WaitAnswer) : Popens.excuteNormal (view s) msg start' wait =
      Popens.excuteNormal s msg start wait >>= fun t => pure (view t) := by
  unfold Popens.excuteNormal
  split
  · rename_i kind
    exact starts kind
  split
  · exact same.closeNormalCmd s msg wait
  split
  · exact same.destroyNormalCmd s msg wait
  · rfl

end View
end Popens

namespace SaceNormalExcutor

theorem closeCmd_ok {s t : SaceNormalExcutor} {label : UInt64} {cmdInfo : CommandInfo}
    {wait : Int → List WaitAnswer} (done : (s.closeCmd label cmdInfo wait).result = .ok t) :
    ∃ pidlist, t = { s with
      mRunningCmd := s.mRunningCmd.eraseP (·.address = cmdInfo.address)
      mSeqCmd := s.mSeqCmd.erase label
      pidlist } := by
  obtain ⟨⟨u, _⟩, closed, done⟩ := Traced.bind_ok.mp done
  obtain ⟨⟨pidlist, _⟩, _, closed⟩ := Traced.bind_ok.mp closed
  cases closed
  cases done
  exact ⟨pidlist, rfl⟩

end SaceNormalExcutor

/-! ### The effects of a request -/

section Effects
variable {P : Effect → Prop} (kill : ∀ pid signal, P (.kill pid signal))

section Kill
include kill

theorem pcloseLoop_every (pid : Int) (waitTime : Nat) (answers : List WaitAnswer) :
    Traced.Every P (pcloseLoop pid waitTime answers) := by
  induction answers generalizing waitTime with
  | nil => exact Traced.every_fault _
  | cons answer answers ih =>
    cases answer with
    | failed errno => exact Traced.every_pure _
    | reaped status => exact Traced.every_pure _
    | running =>
      simp only [pcloseLoop]
      split
      · rw [Traced.every_bind, Traced.every_emit]
        exact ⟨kill _ _, fun _ _ => ih _⟩
      · split
        · exact Traced.every_pure _
        · exact ih _

end Kill

namespace Popens

variable {S : Type} [Popens S] {wait : Int → List WaitAnswer}
variable (pcloses : ∀ (s : S) (fd : Int), Traced.Every P (pclose s fd wait))
include pcloses

theorem closeCmd_every (s : S) (label : UInt64) (cmdInfo : CommandInfo) :
    Traced.Every P (closeCmd s label cmdInfo wait) := by
  rw [closeCmd, Traced.every_bind]
  exact ⟨pcloses s _, fun _ _ => Traced.every_pure _⟩

theorem destroyLoop_every (labels : List UInt64) (s : S) :
    Traced.Every P (destroyLoop wait labels s) := by
  induction labels generalizing s with
  | nil => exact Traced.every_pure _
  | cons label labels ih =>
    unfold destroyLoop
    split
    · exact ih s
    · rw [Traced.every_bind]
      exact ⟨closeCmd_every pcloses s _ _, fun _ _ => ih _⟩

theorem destroyNormalCmd_every (s : S) (msg : SaceReaderMessage) :
    Traced.Every P (destroyNormalCmd s msg wait) := by
  unfold destroyNormalCmd
  split
  · exact Traced.every_pure _
  · rw [Traced.every_bind]
    exact ⟨destroyLoop_every pcloses _ s, fun _ _ => Traced.every_pure _⟩

theorem closeNormalCmd_every (s : S) (msg : SaceReaderMessage)
    (send : ∀ result, result.Answers msg.msgCmd → P (.sendResult msg.msgWriter result)) :
    Traced.Every P (closeNormalCmd s msg wait) := by
  have close : SaceResultType.close ≠ .label := by decide
  unfold closeNormalCmd
  dsimp only
  split
  · simpa [Traced.Every] using send _ ⟨rfl, close⟩
  · rw [Traced.every_bind]
    refine ⟨closeCmd_every pcloses s _ _, fun _ _ => ?_⟩
    rw [Traced.every_bind, Traced.every_emit]
    exact ⟨send _ ⟨rfl, close⟩, fun _ _ => Traced.every_pure _⟩

end Popens

namespace SaceNormalExcutor
include kill

theorem pclose_every (s : SaceNormalExcutor) (fd : Int) (wait : Int → List WaitAnswer) :
    Traced.Every P (Popens.pclose s fd wait) := by
  apply Traced.Every.then_pure
  unfold sacePclose
  split
  · exact Traced.every_pure _
  · split
    · exact Traced.every_pure _
    · exact (pcloseLoop_every kill _ _ _).then_pure _

theorem destroyNormalCmd_every (s : SaceNormalExcutor) (saceMsg : SaceReaderMessage)
    (wait : Int → List WaitAnswer) : Traced.Every P (s.destroyNormalCmd saceMsg wait) :=
  Popens.destroyNormalCmd_every (pclose_every kill · · wait) s saceMsg

theorem excuteNormal_every (s : SaceNormalExcutor) (msg : SaceReaderMessage) (env : ParseEnv)
    (answers : PopenAnswers) (wait : Int → List WaitAnswer)
    (spawn : ∀ pid params, P (.spawn pid params))
    (send : ∀ result, result.Answers msg.msgCmd → P (.sendResult msg.msgWriter result)) :
    Traced.Every P (s.excuteNormal msg env answers wait) := by
  have start : SaceResultType.start ≠ .label := by decide
  have fd : SaceResultType.fd ≠ .label := by decide
  unfold excuteNormal Popens.excuteNormal
  split
  · unfold startNormalCmd
    split
    · simpa [Traced.Every] using send _ ⟨rfl, start⟩
    · simpa [Traced.Every, spawn] using send _ ⟨rfl, fd⟩
  split
  · exact Popens.closeNormalCmd_every (pclose_every kill · · wait) s msg send
  split
  · exact destroyNormalCmd_every kill s msg wait
  · exact Traced.every_pure _

end SaceNormalExcutor
end Effects
end Sace
