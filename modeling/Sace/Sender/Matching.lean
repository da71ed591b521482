import Sace.Android
import Sace.Manager.Objects
import Sace.Saced.Steps
import Sace.Sender.Calls

/-! Whether a call gets the reply to its own command. A result is found by its sequence alone:
replies that nobody has taken, and commands that are not answered yet, keep theirs occupied. -/
namespace Sace.SaceSocketSender

/-- The sequence is that of a result in the map or on its way, or of one that the server still
owes; `origin` is the call whose command it answers. -/
def Outstanding (secured : Bool) (s : SaceSocketSender) (sequence : UInt32)
    (origin : Option Nat) : Prop :=
  (∃ i ∈ s.asked, ∃ call, s.calls[i]? = some call ∧
    replySequence secured call.cmd = sequence ∧ some i = origin) ∨
  (∃ reply ∈ s.replies, reply.result.sequence = sequence ∧ reply.call = origin) ∨
  ∃ reply, s.mResult[sequence]? = some reply ∧ reply.call = origin

/-- No result with the sequence is in the map, on its way or to come. -/
def Free (secured : Bool) (s : SaceSocketSender) (sequence : UInt32) : Prop :=
  (∀ i ∈ s.asked, ∀ call ∈ s.calls[i]?, replySequence secured call.cmd ≠ sequence) ∧
  (∀ reply ∈ s.replies, reply.result.sequence ≠ sequence) ∧ sequence ∉ s.mResult

instance (secured : Bool) (s : SaceSocketSender) (sequence : UInt32) :
    Decidable (s.Free secured sequence) :=
  inferInstanceAs (Decidable (_ ∧ _ ∧ _))

/-- When a call begins, its sequence is free and nobody waits for the sequence of its answer;
nobody waits for the sequence of a result that answers no command. -/
def Careful (F : ParcelFormat) (secured : Bool) (s : SaceSocketSender) : Input → Prop
  | .call cmd ready ret => (s.Loops F cmd ready ret → s.Free secured cmd.sequence) ∧
      (s.Writes ready ret → ¬ s.Busy (replySequence secured cmd))
  | .passOn result => ¬ s.Busy result.sequence
  | _ => True

instance (F : ParcelFormat) (secured : Bool) (s : SaceSocketSender) :
    DecidablePred (s.Careful F secured) := fun
  | .call .. => inferInstanceAs (Decidable ((_ → _) ∧ (_ → _)))
  | .passOn _ => inferInstanceAs (Decidable (¬ _))
  | .enter _ | .deadline _ | .unblock .. | .recheck _ | .reply .. | .unanswered _ | .handle _
  | .lost _ => .isTrue trivial

theorem Free.not_outstanding {secured : Bool} {s : SaceSocketSender} {sequence : UInt32}
    (free : s.Free secured sequence) (origin : Option Nat) :
    ¬ s.Outstanding secured sequence origin := by
  rintro (⟨i, owed, call, held, same, _⟩ | ⟨reply, sent, same, _⟩ | ⟨reply, entry, _⟩)
  · exact free.1 i owed call held same
  · exact free.2.1 reply sent same
  · exact free.2.2 (Table.mem_of_some entry)

/-- What calls under way may find is their own, and so is what calls have returned. -/
structure Matched (secured : Bool) (s : SaceSocketSender) : Prop where
  asked : ∀ i ∈ s.asked, i < s.calls.length
  own : ∀ sequence origin, s.Outstanding secured sequence origin → ∀ (i : Nat) call,
    s.calls[i]? = some call → call.place.underWay = true → call.cmd.sequence = sequence →
      origin = some i
  returned : ∀ (i : Nat) call reply, s.calls[i]? = some call → call.place = .returned reply →
    reply.call = some i

section Step
variable {F : ParcelFormat} {secured : Bool} {s t : SaceSocketSender} {input : Input}

theorem Turns.cmd {i : Nat} {old call : Call} (turn : Turns s i input old call) :
    call.cmd = old.cmd := by
  cases turn <;> rfl

theorem step_cmd (moved : s.step F input = some t) {i : Nat} {call : Call}
    (held : t.calls[i]? = some call) (old : i < s.calls.length) :
    ∃ before, s.calls[i]? = some before ∧ before.cmd = call.cmd := by
  rcases step_calls moved held with ⟨before, there, turn⟩ | ⟨new, _⟩
  · exact ⟨before, there, turn.cmd.symm⟩
  · omega

theorem step_asked (moved : s.step F input = some t) {i : Nat} (owed : i ∈ t.asked) :
    i ∈ s.asked ∨ ∃ cmd ready ret, input = .call cmd ready ret ∧ s.Writes ready ret ∧
      i = s.calls.length := by
  cases step_cases moved with
  | call begins calls mResult replies asked =>
    rcases asked with same | ⟨writes, more⟩
    · exact .inl (same ▸ owed)
    · rw [more] at owed
      rcases List.mem_append.mp owed with old | new
      · exact .inl old
      · exact .inr ⟨_, _, _, rfl, writes, List.mem_singleton.mp new⟩
  | reply | unanswered => exact .inl (List.mem_of_mem_eraseIdx owed)
  | _ => exact .inl owed

theorem step_replies (moved : s.step F input = some t) {reply : Reply}
    (sent : reply ∈ t.replies) : reply ∈ s.replies ∨
      (∃ k i, input = .reply k reply.result ∧ s.asked[k]? = some i ∧ reply.call = some i) ∨
      input = .passOn reply.result := by
  cases step_cases moved with
  | call begins calls mResult replies => exact .inl (replies ▸ sent)
  | reply owed =>
    rcases List.mem_append.mp sent with old | new
    · exact .inl old
    · cases List.mem_singleton.mp new
      exact .inr (.inl ⟨_, _, rfl, owed, rfl⟩)
  | passOn =>
    rcases List.mem_append.mp sent with old | new
    · exact .inl old
    · cases List.mem_singleton.mp new
      exact .inr (.inr rfl)
  | handle | lost => exact .inl (List.mem_of_mem_eraseIdx sent)
  | _ => exact .inl sent

/-- What is outstanding was so before, or is the answer that a new command will get, or is
passed on. -/
theorem Matched.step_outstanding (matched : Matched secured s)
    (provided : s.Provided secured input) (moved : s.step F input = some t) {sequence : UInt32}
    {origin : Option Nat} (out : t.Outstanding secured sequence origin) :
    s.Outstanding secured sequence origin ∨
      (∃ cmd ready ret, input = .call cmd ready ret ∧ s.Writes ready ret ∧
        replySequence secured cmd = sequence ∧ some s.calls.length = origin) ∨
      ∃ result, input = .passOn result ∧ result.sequence = sequence := by
  rcases out with ⟨i, owed, call, held, rfl, rfl⟩ | ⟨reply, sent, rfl, rfl⟩ | ⟨reply, entry, rfl⟩
  · rcases step_asked moved owed with old | ⟨cmd, ready, ret, rfl, writes, rfl⟩
    · obtain ⟨before, there, cmd⟩ := step_cmd moved held (matched.asked i old)
      exact .inl (.inl ⟨i, old, before, there, by rw [cmd], rfl⟩)
    · obtain ⟨new, begins, calls, _⟩ := excuteCommand_cases moved
      have mine : call.cmd = cmd := by
        rw [calls, List.getElem?_concat_length, Option.some.injEq] at held
        subst held
        cases begins <;> rfl
      exact .inr (.inl ⟨cmd, ready, ret, rfl, writes, by rw [mine], rfl⟩)
  · rcases step_replies moved sent with old | ⟨k, i, rfl, owed, call⟩ | rfl
    · exact .inl (.inr (.inl ⟨reply, old, rfl, rfl⟩))
    · have inside := matched.asked i (List.mem_of_getElem? owed)
      have held := List.getElem?_eq_getElem inside
      have sequence := provided i owed _ held
      exact .inl (.inl ⟨i, List.mem_of_getElem? owed, _, held, sequence.symm, call.symm⟩)
    · exact .inr (.inr ⟨_, rfl, rfl⟩)
  · rcases step_results moved entry with old | ⟨k, rfl, came, rfl⟩
    · exact .inl (.inr (.inr ⟨reply, old, rfl⟩))
    · exact .inl (.inr (.inl ⟨reply, List.mem_of_getElem? came, rfl, rfl⟩))

theorem Matched.step_own (matched : Matched secured s) (provided : s.Provided secured input)
    (careful : s.Careful F secured input) (moved : s.step F input = some t)
    {sequence : UInt32} {origin : Option Nat} (out : t.Outstanding secured sequence origin)
    {i : Nat} {call : Call} (held : t.calls[i]? = some call)
    (underWay : call.place.underWay = true) (same : call.cmd.sequence = sequence) :
    origin = some i := by
  have busy {old : Call} (there : s.calls[i]? = some old) (way : old.place.underWay = true)
      (cmd : old.cmd = call.cmd) : s.Busy sequence :=
    ⟨old, List.mem_of_getElem? there, way, cmd ▸ same⟩
  rcases step_underWay moved held underWay with
    ⟨old, there, way, cmd⟩ | ⟨last, ready, ret, rfl, loops⟩
  · rcases matched.step_outstanding provided moved out with
      before | ⟨_, _, _, rfl, writes, rfl, _⟩ | ⟨result, rfl, rfl⟩
    · exact matched.own sequence origin before i old there way (cmd ▸ same)
    · exact absurd (busy there way cmd) (careful.2 writes)
    · exact absurd (busy there way cmd) careful
  · rcases matched.step_outstanding provided moved out with before | ⟨_, _, _, _, _, _, rfl⟩ |
      ⟨_, no, _⟩
    · exact absurd before (same ▸ (careful.1 loops).not_outstanding origin)
    · rw [last]
    · cases no

theorem Matched.step_returned (matched : Matched secured s) (moved : s.step F input = some t)
    {i : Nat} {call : Call} {reply : Reply} (held : t.calls[i]? = some call)
    (back : call.place = .returned reply) : reply.call = some i := by
  rcases step_calls moved held with ⟨old, there, turn⟩ | ⟨_, begins⟩
  · cases turn with
    | kept elsewhere | deadline => exact matched.returned i _ reply there back
    | enter looping | spurious waiting | fails waiting | missed woken none => cases back
    | found woken entry =>
      cases back
      exact matched.own _ _ (.inr (.inr ⟨reply, entry, rfl⟩)) i _ there (by rw [woken]; rfl) rfl
    | hear came =>
      simp only [hear] at back
      split at back
      · cases back
      · exact matched.returned i _ reply there back
  · cases begins <;> cases back

theorem Matched.step (matched : Matched secured s) (provided : s.Provided secured input)
    (careful : s.Careful F secured input) (moved : s.step F input = some t) :
    Matched secured t where
  asked i owed := by
    obtain ⟨longer, more⟩ := step_length moved
    rcases step_asked moved owed with old | ⟨cmd, ready, ret, call, _, rfl⟩
    · exact (matched.asked i old).trans_le longer
    · exact more cmd ready ret call
  own _ _ out _ _ held underWay same :=
    matched.step_own provided careful moved out held underWay same
  returned _ _ _ held back := matched.step_returned moved held back

end Step

/-- In careful runs a call returns no result but the reply to its own command. -/
theorem reached_matched {F : ParcelFormat} {secured : Bool} {s : SaceSocketSender}
    (reached : Runs.Reached (step F)
      (fun s input => s.Provided secured input ∧ s.Careful F secured input) {} s)
    {i : Nat} {call : Call} {reply : Reply} (held : s.calls[i]? = some call)
    (back : call.place = .returned reply) : reply.call = some i := by
  have initial : Matched secured {} := by
    refine ⟨fun _ owed => (nomatch owed), fun _ _ _ _ _ held => (nomatch held),
      fun _ _ _ held => (nomatch held)⟩
  have matched : Matched secured s := reached.invariant initial
    fun s input t matched allowed moved => matched.step allowed.1 allowed.2 moved
  exact matched.returned i call reply held back

/-! A service is paused, and stopped when that has timed out. -/

def service : SaceServiceObj :=
  { label := sequenceToLabel 7 16, name := str "svc", command := str "sleep 1" }

def operation (cmdType : SaceServiceCommandType) (sequence : UInt32) : SaceCommand :=
  { SaceCommand.init (str "100:101") sequence with
    label := service.label
    sequence := 7
    type := .service
    subType := cmdType.byte }

def operates (cmdType : SaceServiceCommandType) (sequence : UInt32) : Input :=
  let cmd := operation cmdType sequence
  .call cmd true (cmd.encode Android.parcel).length

def paused : SaceResult :=
  { initialResult (operation .pause 8) with resultStatus := .ok }

example : service.pause (str "100:101") 8 = .ok (some (operation .pause 8)) ∧
    (service.operated (waitResult (operation .pause 8) ETIMEDOUT)).1.stop (str "100:101") 9 =
      .ok (some (operation .stop 9)) := by decide +kernel

def answersPause : List Input :=
  [operates .pause 8, .enter 0, .reply 0 paused, .handle 0, .recheck 0]

/-- The answer to the first command comes when the second is waiting. -/
def answersLate : List Input :=
  [operates .pause 8, .enter 0, .deadline 0, .unblock 0 ETIMEDOUT,
    operates .stop 9, .enter 1, .reply 0 paused, .handle 0, .recheck 1]

theorem pause_matched : ∃ (s : SaceSocketSender) (call : Call) (reply : Reply),
    s.calls[0]? = some call ∧ call.place = .returned reply ∧ reply.call = some 0 := by
  have admitted : Runs.Admitted (step Android.parcel) (fun s input => s.Provided true input ∧
      s.Careful Android.parcel true input) {} answersPause := by decide +kernel
  have last : (Runs.run (step Android.parcel) {} answersPause).map (·.calls) = some
      [⟨operation .pause 8, .returned ⟨paused, some 0⟩, false, some paused⟩] := by
    decide +kernel
  obtain ⟨s, ran, calls⟩ := Option.map_eq_some_iff.mp last
  have held : s.calls[0]? = some
      ⟨operation .pause 8, .returned ⟨paused, some 0⟩, false, some paused⟩ := by
    rw [calls]
    rfl
  exact ⟨s, _, _, held, rfl, reached_matched (Runs.run_reached admitted ran) held rfl⟩

theorem stop_gets_pause : ¬ ∀ (s : SaceSocketSender) (i : Nat) (call : Call) (reply : Reply),
    Runs.Reached (step Android.parcel) (fun s input => s.Provided true input) {} s →
    s.calls[i]? = some call → call.place = .returned reply → reply.call = some i := by
  intro own
  have admitted : Runs.Admitted (step Android.parcel) (fun s input => s.Provided true input)
      {} answersLate := by decide +kernel
  have last : (Runs.run (step Android.parcel) {} answersLate).map (·.calls[1]?) = some (some
      ⟨operation .stop 9, .returned ⟨paused, some 0⟩, false, some paused⟩) := by
    decide +kernel
  obtain ⟨s, ran, held⟩ := Option.map_eq_some_iff.mp last
  cases own s 1 _ _ (Runs.run_reached admitted ran) held rfl

end Sace.SaceSocketSender
