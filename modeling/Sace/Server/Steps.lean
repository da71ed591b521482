import Sace.Event.Steps
import Sace.Normal.Steps
import Sace.Server
import Sace.Service.Steps

/-! What the turns of the executors lead to, seen from the dispatcher. -/
namespace Sace

theorem mem_posted {trace : List Effect} {message : Posted} :
    message ∈ posted trace ↔ .post message ∈ trace := by
  simp only [posted, List.mem_filterMap]
  constructor
  · rintro ⟨effect, member, eq⟩
    split at eq
    · cases eq
      exact member
    · cases eq
  · intro member
    exact ⟨_, member, rfl⟩

theorem posted_nil {A : Type} {x : Exec A}
    (none : Traced.Every (fun effect => ∀ message, effect ≠ .post message) x) :
    posted x.trace = [] := by
  apply List.filterMap_eq_nil_iff.mpr
  intro effect member
  cases effect with
  | post message => exact absurd rfl (none _ member message)
  | _ => rfl

namespace Server

theorem event_turn {server t : Server} {msg : SaceReaderMessage} {answers : Answers}
    (kind : msg.msgHandler = .event) (done : (server.excute msg answers).result = .ok t) :
    t.service = server.service ∧ t.mExit = server.mExit := by
  simp only [excute, kind, Traced.bind_ok, Traced.pure_result, Except.ok.injEq] at done
  obtain ⟨event, _, rfl⟩ := done
  exact ⟨rfl, rfl⟩

theorem excute_every {P : Effect → Prop} {server : Server} {msg : SaceReaderMessage}
    {answers : Answers} (kind : msg.msgHandler = .normal ∨ msg.msgHandler = .unkown)
    (kill : ∀ pid signal, P (.kill pid signal)) (spawn : ∀ pid params, P (.spawn pid params))
    (send : ∀ result, result.Answers msg.msgCmd → P (.sendResult msg.msgWriter result)) :
    Traced.Every P (server.excute msg answers) := by
  unfold excute
  rcases kind with normal | unkown
  · rw [normal, Traced.every_bind]
    exact ⟨SaceNormalExcutor.excuteNormal_every kill _ _ _ _ _ spawn send,
      fun _ _ => Traced.every_pure _⟩
  · rw [unkown]
    exact Traced.every_pure _

theorem handleMessage_every {P : Effect → Prop} {server : Server} {msg : SaceReaderMessage}
    {answers : Answers} (kind : msg.msgHandler = .normal ∨ msg.msgHandler = .unkown)
    (kill : ∀ pid signal, P (.kill pid signal)) (spawn : ∀ pid params, P (.spawn pid params))
    (send : ∀ result, result.Answers msg.msgCmd → P (.sendResult msg.msgWriter result)) :
    Traced.Every P (server.handleMessage msg answers) := by
  unfold handleMessage
  split
  · exact Traced.every_pure _
  · exact excute_every kind kill spawn send

end Server
end Sace
