import Sace.Event.Pipe

/-! Machines that keep the event pipe as a list of messages, and the bytes that are really in it:
a read takes at most the buffer's worth of them, and where it cuts a message the next one begins
in the middle. -/
namespace Sace
open SaceSocketSender (SACE_RESULT_BUF_SIZE)

/-- A machine with the event pipe: `reads` are its own inputs for a read, and `read` is the one
that passes on the first message of the pipe. The bytes replace them. -/
structure PipeMachine (S A : Type) where
  step : S → A → Option S
  pipe : S → List Notice
  withPipe : S → List Notice → S
  selects : S → Bool
  reads : A → Bool
  read : A

/-- The machine over the bytes. The pipe of `base` are the messages of which nothing was read. -/
structure Bytewise (S : Type) where
  base : S
  bytes : Bytes := []

namespace Bytewise
variable {S A : Type} (F : ParcelFormat) (m : PipeMachine S A)

inductive Input (A : Type) where
  | other (input : A)
  | read (size : Nat)

def unread : List Notice → Nat → List Notice
  | [], _ => []
  | notice :: rest, left =>
    if ((notice :: rest).flatMap (Notice.encode F)).length ≤ left then notice :: rest
    else unread rest left

/-- What has come to the messages `before` since. -/
def written (before after : List Notice) : Bytes :=
  (after.drop before.length).flatMap (Notice.encode F)

def step (w : Bytewise S) : Input A → Option (Bytewise S)
  | .other input =>
    if m.reads input then none
    else (m.step w.base input).map fun base =>
      { base, bytes := w.bytes ++ written F (m.pipe w.base) (m.pipe base) }
  | .read size =>
    if m.selects w.base ∧ 0 < size ∧ size ≤ SACE_RESULT_BUF_SIZE ∧ size ≤ w.bytes.length then
      let bytes := w.bytes.drop size
      let left := unread F (m.pipe w.base) bytes.length
      (readNotice F (w.bytes.take size)).value.bind fun
        | none => some { base := m.withPipe w.base left, bytes }
        | some notice => (m.step (m.withPipe w.base (notice :: left)) m.read).map fun base =>
          { base, bytes := bytes ++ written F left (m.pipe base) }
    else none

/-- A read of `size` bytes begins with a whole message: nothing is left of one that an earlier read
has cut, and this read does not cut its first. -/
def Begins (w : Bytewise S) (size : Nat) : Prop :=
  w.bytes = (m.pipe w.base).flatMap (Notice.encode F) ∧ ∃ notice rest,
    m.pipe w.base = notice :: rest ∧ notice.WellFormed F ∧ (notice.encode F).length ≤ size

def Allowed (ok : S → A → Prop) (w : Bytewise S) : Input A → Prop
  | .other input => ok w.base input
  | .read size => Begins F m w size

/-- A property of the machine that holds over the bytes as well: it survives the admitted steps, a
message that comes as its bytes carry it, and messages that are lost behind the first. -/
structure Keeps (ok : S → A → Prop) (P : S → Prop) : Prop where
  moves : ∀ s a t, P s → ok s a → m.step s a = some t → P t
  reads : ∀ s, ok s m.read
  same : ∀ s, P s → P (m.withPipe s (m.pipe s))
  onWire : ∀ s notice rest, P (m.withPipe s (notice :: rest)) →
    P (m.withPipe s (notice.onWire F :: rest))
  lost : ∀ s notice rest k, P (m.withPipe s (notice :: rest)) →
    P (m.withPipe s (notice :: rest.drop k))

theorem unread_drop (pipe : List Notice) (left : Nat) : ∃ k, unread F pipe left = pipe.drop k := by
  induction pipe with
  | nil => exact ⟨0, rfl⟩
  | cons notice rest ih =>
    unfold unread
    split
    · exact ⟨0, rfl⟩
    · obtain ⟨k, dropped⟩ := ih
      exact ⟨k + 1, dropped⟩

/-- Where a read begins with a whole message, it is the first message that is passed on, and of
those behind it the first may be lost. -/
theorem begins_read {w : Bytewise S} {size : Nat} (begins : Begins F m w size) (pos : 0 < size) :
    ∃ notice rest k, m.pipe w.base = notice :: rest ∧
      (readNotice F (w.bytes.take size)).value = some (some (notice.onWire F)) ∧
      unread F (m.pipe w.base) (w.bytes.drop size).length = rest.drop k := by
  obtain ⟨bytes, notice, rest, pipe, valid, whole⟩ := begins
  have front : w.bytes = notice.encode F ++ rest.flatMap (Notice.encode F) := by
    rw [bytes, pipe, List.flatMap_cons]
  have taken : w.bytes.take size = notice.encode F ++
      (rest.flatMap (Notice.encode F)).take (size - (notice.encode F).length) := by
    rw [front, List.take_append, List.take_of_length_le whole]
  obtain ⟨k, dropped⟩ := unread_drop F rest (w.bytes.drop size).length
  refine ⟨notice, rest, k, pipe, ?_, ?_⟩
  · rw [taken]
    exact EventPipe.readNotice_append F valid _
  · have longer : ¬ ((notice :: rest).flatMap (Notice.encode F)).length ≤
        (w.bytes.drop size).length := by
      have some_ := notice.encode_pos F
      rw [← pipe, ← bytes, List.length_drop]
      have all := congrArg List.length front
      rw [List.length_append] at all
      omega
    rw [pipe, unread, if_neg longer, dropped]

variable {F m}

theorem Keeps.moved {ok : S → A → Prop} {P : S → Prop} (keeps : Keeps F m ok P)
    {w v : Bytewise S} {input : Input A} (kept : P w.base) (allowed : Allowed F m ok w input)
    (moved : w.step F m input = some v) : P v.base := by
  cases input with
  | other input =>
    simp only [step] at moved
    split at moved
    · cases moved
    · obtain ⟨base, next, rfl⟩ := Option.map_eq_some_iff.mp moved
      exact keeps.moves _ _ _ kept allowed next
  | read size =>
    simp only [step] at moved
    split at moved
    · rename_i able
      obtain ⟨notice, rest, k, pipe, decoded, left⟩ := begins_read F m allowed able.2.1
      simp only [decoded, Option.bind_some, left] at moved
      obtain ⟨base, next, rfl⟩ := Option.map_eq_some_iff.mp moved
      have front : P (m.withPipe w.base (notice :: rest)) := pipe ▸ keeps.same _ kept
      exact keeps.moves _ _ _ (keeps.onWire _ _ _ (keeps.lost _ _ _ k front)) (keeps.reads _) next
    · cases moved

/-- What the steps of the machine keep holds in every state that it reaches over the bytes with
reads that begin with whole messages. -/
theorem Keeps.reached {ok : S → A → Prop} {P : S → Prop} (keeps : Keeps F m ok P) {start : S}
    (initial : P start) {w : Bytewise S}
    (reached : Runs.Reached (step F m) (Allowed F m ok) { base := start } w) : P w.base :=
  reached.invariant (I := fun w => P w.base) initial
    fun _ _ _ kept allowed moved => keeps.moved kept allowed moved

/-- Without reads the bytes have no say. -/
theorem admitted_others {ok : S → A → Prop} {w : Bytewise S} {inputs : List A}
    (admitted : Runs.Admitted m.step ok w.base inputs) :
    Runs.Admitted (step F m) (Allowed F m ok) w (inputs.map Input.other) := by
  induction inputs generalizing w with
  | nil => trivial
  | cons input rest ih =>
    refine ⟨admitted.1, fun v moved => ih ?_⟩
    simp only [step] at moved
    split at moved
    · cases moved
    · obtain ⟨base, next, rfl⟩ := Option.map_eq_some_iff.mp moved
      exact admitted.2 base next

end Bytewise
end Sace
