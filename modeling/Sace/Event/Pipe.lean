import Sace.Android
import Sace.Saced
import Sace.Sender.Calls

/-! The event pipe as bytes: SaceEventWriter writes whole messages into it, and
event_monitor_thread reads whatever is there and decodes one message of it. -/
namespace Sace
open SaceSocketSender (SACE_RESULT_BUF_SIZE)

variable (F : ParcelFormat)

namespace Notice

def encode : Notice → Bytes
  | .result r => r.encode F
  | .response r => r.encode F

/-- A result or response that the service executor can build; it sends no descriptor here. -/
def WellFormed : Notice → Prop
  | .result r => r.WellFormed F ∧ r.resultType ≠ .fd
  | .response r => r.WellFormed F

def onWire : Notice → Notice
  | .result r => .result (r.onWire F)
  | .response r => .response (r.onWire F)

theorem encode_pos (notice : Notice) : 0 < (notice.encode F).length := by
  cases notice with
  | result r =>
    rw [encode, SaceResult.encode_length]
    omega
  | response r =>
    rw [encode, SaceStatusResponse.encode_length]
    omega

end Notice

/-- What event_monitor_thread makes of the bytes of one read: the message that it passes to a
handle_result, if the type in the header is one that it knows. -/
def readNotice (buf : Bytes) : Exec (Option Notice) := do
  let headerRslt := (SaceResultHeader.readFromParcel F buf).1
  if headerRslt.type = .normal then
    let rslt ← SaceResult.readFromParcel F {} buf
    return some (.result rslt)
  else if headerRslt.type = .response then
    let response ← SaceStatusResponse.readFromParcel F {} buf
    return some (.response response)
  else return none

/-- The pipe, with all that was written to it and all that was passed to a handle_result. -/
structure EventPipe where
  bytes : Bytes := []
  written : List Notice := []
  handled : List Notice := []

namespace EventPipe

inductive Step where
  | write (notice : Notice)
  | read (size : Nat)

/-- A read returns some of what is in the pipe, up to the size of the buffer. -/
def step (p : EventPipe) : Step → Option EventPipe
  | .write notice => some { p with
      bytes := p.bytes ++ notice.encode F
      written := p.written ++ [notice] }
  | .read size =>
    if 0 < size ∧ size ≤ SACE_RESULT_BUF_SIZE ∧ size ≤ p.bytes.length then do
      let notice ← (readNotice F (p.bytes.take size)).value
      some { p with
        bytes := p.bytes.drop size
        handled := p.handled ++ notice.toList }
    else none

def unread (p : EventPipe) : List Notice := p.written.drop p.handled.length

def Provided : Step → Prop
  | .write notice => notice.WellFormed F
  | .read _ => True

/-- A read returns the next message, all of it and nothing else. -/
def Whole (p : EventPipe) : Step → Prop
  | .write _ => True
  | .read size => ∃ notice rest, p.unread = notice :: rest ∧ size = (notice.encode F).length

structure Kept (p : EventPipe) : Prop where
  valid : ∀ notice ∈ p.written, notice.WellFormed F
  handled : p.handled = (p.written.take p.handled.length).map (Notice.onWire F)
  bytes : p.bytes = p.unread.flatMap (Notice.encode F)

/-- Whatever follows it, the message that a read begins with is decoded. -/
theorem readNotice_append {notice : Notice} (valid : notice.WellFormed F) (rest : Bytes) :
    (readNotice F (notice.encode F ++ rest)).value = some (some (notice.onWire F)) := by
  rw [Traced.value_eq_some]
  have other : SaceResultHeaderType.response ≠ .normal := by decide
  cases notice with
  | result r =>
    obtain ⟨valid, plain⟩ := valid
    have header : (SaceResultHeader.readFromParcel F (r.encode F ++ rest)).1.type = .normal := by
      rw [SaceResult.encode_eq, SaceResult.body, List.append_assoc, List.append_assoc,
        List.append_assoc, SaceResultHeader.readFromParcel_header, valid.type]
    simp only [readNotice, Notice.encode, header, if_true,
      SaceResult.readFromParcel_append F valid plain]
    rfl
  | response r =>
    have header : (SaceResultHeader.readFromParcel F (r.encode F ++ rest)).1.type = .response := by
      have type := SaceStatusResponse.WellFormed.type valid
      rw [SaceStatusResponse.encode_eq, SaceStatusResponse.body, List.append_assoc,
        List.append_assoc, List.append_assoc, SaceResultHeader.readFromParcel_header, type]
    simp only [readNotice, Notice.encode, header, other, if_false, if_true,
      SaceStatusResponse.readFromParcel_append F valid]
    rfl

variable {F}

theorem write_kept {p : EventPipe} {notice : Notice} (kept : Kept F p)
    (valid : notice.WellFormed F) : Kept F { p with
      bytes := p.bytes ++ notice.encode F
      written := p.written ++ [notice] } := by
  have handled := kept.handled
  have short : p.handled.length ≤ p.written.length := by
    have lengths := congrArg List.length handled
    rw [List.length_map, List.length_take] at lengths
    omega
  constructor
  · intro other member
    rcases List.mem_append.mp member with member | member
    · exact kept.valid other member
    · cases List.mem_singleton.mp member
      exact valid
  · rw [List.take_append_of_le_length short]
    exact handled
  · have unread : ({ p with
        bytes := p.bytes ++ notice.encode F
        written := p.written ++ [notice] } : EventPipe).unread = p.unread ++ [notice] := by
      rw [EventPipe.unread, List.drop_append_of_le_length short]
      rfl
    rw [unread, List.flatMap_append, ← kept.bytes]
    simp

theorem unread_next {p : EventPipe} {notice : Notice} {rest : List Notice}
    (unread : p.unread = notice :: rest) : p.written.drop (p.handled.length + 1) = rest := by
  rw [← List.tail_drop, show p.written.drop p.handled.length = p.unread from rfl, unread,
    List.tail_cons]

theorem whole_kept {p : EventPipe} {notice : Notice} {rest : List Notice} (kept : Kept F p)
    (unread : p.unread = notice :: rest) :
    Kept F { p with
      bytes := p.bytes.drop (notice.encode F).length
      handled := p.handled ++ [notice.onWire F] } := by
  have next := unread_next unread
  have taken : p.written.take (p.handled.length + 1) =
      p.written.take p.handled.length ++ [notice] := by
    have split := List.take_append_drop p.handled.length p.written
    rw [show p.written.drop p.handled.length = p.unread from rfl, unread] at split
    have length : (p.written.take p.handled.length).length = p.handled.length := by
      have lengths := congrArg List.length kept.handled
      rw [List.length_map] at lengths
      exact lengths.symm
    conv_lhs => rw [← split]
    rw [List.take_append, length]
    simp [List.take_take]
  constructor
  · exact kept.valid
  · rw [List.length_append, List.length_singleton, taken, List.map_append, ← kept.handled]
    rfl
  · have bytes := kept.bytes
    rw [unread, List.flatMap_cons] at bytes
    simp only [EventPipe.unread, List.length_append, List.length_singleton, next, bytes,
      List.drop_left]

/-- A read keeps what is in the pipe and what was passed on together exactly when it returns
one whole message. -/
theorem read_kept_iff {p q : EventPipe} {size : Nat} (kept : Kept F p)
    (moved : p.step F (.read size) = some q) : Kept F q ↔ Whole F p (.read size) := by
  simp only [step, Option.ite_none_right_eq_some, Option.bind_eq_bind,
    Option.bind_eq_some_iff] at moved
  obtain ⟨⟨pos, small, there⟩, out, read, moved⟩ := moved
  cases moved
  constructor
  · intro after
    have lengths := congrArg List.length kept.bytes
    have left := congrArg List.length after.bytes
    rw [List.length_drop] at left
    cases unread : p.unread with
    | nil =>
      rw [unread, List.flatMap_nil, List.length_nil] at lengths
      omega
    | cons notice rest =>
      refine ⟨notice, rest, unread, ?_⟩
      cases out with
      | none =>
        simp only [EventPipe.unread, Option.toList_none, List.append_nil] at left
        simp only [EventPipe.unread] at lengths
        omega
      | some passed =>
        simp only [EventPipe.unread, Option.toList_some, List.length_append,
          List.length_singleton, unread_next unread] at left
        rw [unread, List.flatMap_cons, List.length_append] at lengths
        omega
  · rintro ⟨notice, rest, unread, rfl⟩
    have valid : notice.WellFormed F := by
      refine kept.valid notice (List.mem_of_mem_drop (i := p.handled.length) ?_)
      rw [show p.written.drop p.handled.length = p.unread from rfl, unread]
      exact List.mem_cons_self
    have bytes := kept.bytes
    rw [unread, List.flatMap_cons] at bytes
    have whole := readNotice_append F valid []
    rw [List.append_nil] at whole
    rw [bytes, List.take_left, whole] at read
    cases read
    exact whole_kept kept unread

theorem step_kept {p q : EventPipe} {a : Step} (kept : Kept F p) (provided : Provided F a)
    (whole : Whole F p a) (moved : p.step F a = some q) : Kept F q := by
  cases a with
  | write notice =>
    cases moved
    exact write_kept kept provided
  | read size => exact (read_kept_iff kept moved).mpr whole

/-- What was passed on is what was written, in its order and as far as it was passed on, and
when the pipe is empty it is all of it. -/
def Delivered (F : ParcelFormat) (p : EventPipe) : Prop :=
  p.handled <+: p.written.map (Notice.onWire F) ∧
    (p.bytes = [] → p.handled = p.written.map (Notice.onWire F))

theorem Kept.delivered {p : EventPipe} (kept : Kept F p) : Delivered F p := by
  constructor
  · rw [kept.handled]
    exact (List.take_prefix _ _).map _
  · intro empty
    have unread : p.unread = [] := by
      cases unread : p.unread with
      | nil => rfl
      | cons notice rest =>
        have bytes := congrArg List.length kept.bytes
        have pos := notice.encode_pos F
        rw [unread, empty, List.flatMap_cons, List.length_append, List.length_nil] at bytes
        omega
    rw [kept.handled, List.take_of_length_le (List.drop_eq_nil_iff.mp unread)]

theorem empty_kept : Kept F {} where
  valid := by simp
  handled := rfl
  bytes := rfl

variable (F) in
/-- As long as every read returns one whole message, each is passed on once and in order. -/
theorem reached_delivered {p : EventPipe}
    (reached : Runs.Reached (step F) (fun p a => Provided F a ∧ Whole F p a) {} p) :
    Delivered F p :=
  Kept.delivered (reached.invariant empty_kept fun _ _ _ kept admitted moved =>
    step_kept kept admitted.1 admitted.2 moved)

/-! A service starts and another one does, before the pipe is read again. -/

def startedNotice : Notice :=
  .result { label := 7, sequence := 7, name := str "svc", resultType := .label }

theorem startedNotice_valid : startedNotice.WellFormed Android.parcel := by
  refine ⟨?_, by decide⟩
  exact { type := rfl, name := show Android.Ascii _ by decide +kernel, extraLen := by decide }

def twoStarted (size : Nat) : List Step :=
  [.write startedNotice, .write startedNotice, .read size]

theorem twoStarted_reached {size : Nat} {p : EventPipe}
    (ran : Runs.run (step Android.parcel) {} (twoStarted size) = some p) :
    Runs.Reached (step Android.parcel) (fun _ => Provided Android.parcel) {} p := by
  refine Runs.run_reached ?_ ran
  exact ⟨startedNotice_valid, fun _ _ => ⟨startedNotice_valid, fun _ _ => ⟨trivial, fun _ _ =>
    trivial⟩⟩⟩

theorem one_delivered : ∃ p : EventPipe,
    Runs.run (step Android.parcel) {}
      [.write startedNotice, .read (startedNotice.encode Android.parcel).length] = some p ∧
    Delivered Android.parcel p := by
  have runs : (Runs.run (step Android.parcel) {}
      [.write startedNotice, .read (startedNotice.encode Android.parcel).length]).isSome := by
    decide +kernel
  obtain ⟨p, ran⟩ := Option.isSome_iff_exists.mp runs
  refine ⟨p, ran, reached_delivered Android.parcel (Runs.run_reached ?_ ran)⟩
  refine ⟨⟨startedNotice_valid, trivial⟩, fun t written => ⟨⟨trivial, ?_⟩, fun _ _ => trivial⟩⟩
  cases Option.some.inj written
  exact ⟨startedNotice, [], rfl, rfl⟩

/-- Both messages are in one read, and the second is gone. -/
theorem two_lost : ∃ p : EventPipe,
    Runs.Reached (step Android.parcel) (fun _ => Provided Android.parcel) {} p ∧
      ¬ Delivered Android.parcel p := by
  have counts : (Runs.run (step Android.parcel) {} (twoStarted 88)).map
      (fun p => (p.bytes, p.handled.length, p.written.length)) = some ([], 1, 2) := by
    decide +kernel
  obtain ⟨p, ran, counts⟩ := Option.map_eq_some_iff.mp counts
  simp only [Prod.mk.injEq] at counts
  obtain ⟨empty, handled, written⟩ := counts
  refine ⟨p, twoStarted_reached ran, fun delivered => ?_⟩
  have lengths := congrArg List.length (delivered.2 empty)
  rw [List.length_map, handled, written] at lengths
  cases lengths

end EventPipe
end Sace
