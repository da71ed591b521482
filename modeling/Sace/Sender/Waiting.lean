import Sace.Android
import Sace.Sender.Calls

/-! Whether a call gets the result that handle_result has stored for it. The loop of
excuteCommand waits before it looks: a result that comes while the thread is not on the
condition variable is found only when something else wakes it. -/
namespace Sace.SaceSocketSender

def Unshared (s : SaceSocketSender) : Input → Prop
  | .call cmd _ _ => ¬ s.Busy cmd.sequence
  | _ => True

/-- No result is there before the loop, and none comes while its call is between two waits. -/
def Watched (F : ParcelFormat) (s : SaceSocketSender) : Input → Prop
  | .call cmd ready ret => s.Loops F cmd ready ret → s.mResult[cmd.sequence]? = none
  | .handle k => ∀ reply ∈ s.replies[k]?, ∀ call ∈ s.calls,
      call.cmd.sequence = reply.result.sequence → call.late = false → call.place ≠ .looping
  | _ => True

instance (s : SaceSocketSender) : DecidablePred s.Unshared := fun
  | .call .. => inferInstanceAs (Decidable (¬ _))
  | .enter _ | .deadline _ | .unblock .. | .recheck _ | .reply .. | .unanswered _ | .passOn _
  | .handle _ | .lost _ => .isTrue trivial

instance (F : ParcelFormat) (s : SaceSocketSender) : DecidablePred (s.Watched F) := fun
  | .call .. => inferInstanceAs (Decidable (_ → _))
  | .handle _ => inferInstanceAs (Decidable (∀ reply ∈ _, _))
  | .enter _ | .deadline _ | .unblock .. | .recheck _ | .reply .. | .unanswered _ | .passOn _
  | .lost _ => .isTrue trivial

def Returns (F : ParcelFormat) (s : SaceSocketSender) (i : Nat) (call : Call)
    (result : SaceResult) : Prop :=
  (∃ reply, call.place = .returned reply ∧ reply.result = result) ∨
    ∃ t reply, s.step F (.recheck i) = some t ∧
      t.calls[i]? = some { call with place := .returned reply } ∧ reply.result = result

def Holds (s : SaceSocketSender) (call : Call) (result : SaceResult) : Prop :=
  (∃ reply, call.place = .returned reply ∧ reply.result = result) ∨
    call.place = .woken ∧ ∃ reply, s.mResult[call.cmd.sequence]? = some reply ∧
      reply.result = result

structure Heard (s : SaceSocketSender) : Prop where
  distinct : ∀ (i j : Nat) call other, s.calls[i]? = some call → s.calls[j]? = some other →
    call.place.underWay = true → other.place.underWay = true →
      call.cmd.sequence = other.cmd.sequence → i = j
  heard : ∀ (i : Nat) call result, s.calls[i]? = some call → call.stored = some result →
    s.Holds call result

section Step
variable {F : ParcelFormat} {s t : SaceSocketSender} {input : Input}

theorem Heard.step_distinct (heard : Heard s) (unshared : s.Unshared input)
    (moved : s.step F input = some t) {i j : Nat} {call other : Call}
    (held : t.calls[i]? = some call) (held' : t.calls[j]? = some other)
    (underWay : call.place.underWay = true) (underWay' : other.place.underWay = true)
    (same : call.cmd.sequence = other.cmd.sequence) : i = j := by
  rcases step_underWay moved held underWay with ⟨old, there, way, cmd⟩ | ⟨last, _, _, rfl, _⟩
  · rcases step_underWay moved held' underWay' with ⟨old', there', way', cmd'⟩ | ⟨_, _, _, rfl, _⟩
    · exact heard.distinct i j old old' there there' way way' (by rw [cmd, cmd', same])
    · exact absurd ⟨old, List.mem_of_getElem? there, way, by rw [cmd, same]⟩ unshared
  · rcases step_underWay moved held' underWay' with ⟨old', there', way', cmd'⟩ | ⟨last', _⟩
    · exact absurd ⟨old', List.mem_of_getElem? there', way', by rw [cmd', same]⟩ unshared
    · exact last.trans last'.symm

/-- A call that is not at its own test keeps what it has, whatever the others take. -/
theorem Heard.keeps (heard : Heard s) (moved : s.step F input = some t) {i : Nat} {call : Call}
    (held : s.calls[i]? = some call) (elsewhere : input ≠ .recheck i) {result : SaceResult}
    (holds : s.Holds call result) : t.Holds call result := by
  rcases holds with returned | ⟨woken, reply, entry, eq⟩
  · exact .inl returned
  · refine .inr ⟨woken, reply, ?_, eq⟩
    rcases step_keeps moved entry with kept | ⟨j, other, rfl, held', woken', same⟩
    · exact kept
    · have mine : j = i := heard.distinct j i other call held' held (by rw [woken']; rfl)
        (by rw [woken]; rfl) same
      exact absurd (mine ▸ rfl) elsewhere

/-- After a broadcast a call holds what it had, or the result that is now in the map. -/
theorem Heard.hears (heard : Heard s) {k i : Nat} (watched : s.Watched F (.handle k))
    (moved : s.step F (.handle k) = some t) {old call : Call} {result : SaceResult}
    (held : s.calls[i]? = some old) (held' : t.calls[i]? = some call)
    (stored : call.stored = some result) : t.Holds call result := by
  cases step_cases moved with
  | @handle _ reply came =>
    simp only [handleResult, List.getElem?_map, held, Option.map_some, Option.some.injEq] at held'
    subst held'
    simp only [hear] at stored
    split at stored
    · rename_i mine
      simp only [Bool.and_eq_true, Bool.not_eq_true', beq_iff_eq] at mine
      obtain ⟨⟨underWay, inTime⟩, same⟩ := mine
      have waits : old.place = .waiting ∨ old.place = .woken := by
        have elsewhere := watched reply came old (List.mem_of_getElem? held) same inTime
        cases place : old.place <;> simp_all [Place.underWay]
      obtain ⟨first, entry⟩ := Table.insertIfNew_self s.mResult reply.result.sequence reply
      rw [entry] at stored
      refine .inr ⟨?_, first, (congrArg (_[·]?) same).trans entry, Option.some.inj stored⟩
      rcases waits with waiting | woken
      · simp [hear, waiting]
      · simp [hear, woken]
    · rcases heard.heard i old result held stored with ⟨reply, back, eq⟩ | ⟨woken, first, entry, eq⟩
      · exact .inl ⟨reply, by simp [hear, back], eq⟩
      · exact .inr ⟨by simp [hear, woken], first, Table.insertIfNew_keeps entry, eq⟩

theorem Heard.step_heard (heard : Heard s) (watched : s.Watched F input)
    (moved : s.step F input = some t) {i : Nat} {call : Call} {result : SaceResult}
    (held : t.calls[i]? = some call) (stored : call.stored = some result) :
    t.Holds call result := by
  rcases step_calls moved held with ⟨old, there, turn⟩ | ⟨_, begins⟩
  · cases turn with
    | kept elsewhere =>
      exact heard.keeps moved there elsewhere (heard.heard i _ result there stored)
    | enter looping =>
      rcases heard.heard i _ result there stored with ⟨_, back, _⟩ | ⟨woken, _⟩
      · cases looping.symm.trans back
      · cases looping.symm.trans woken
    | deadline =>
      exact heard.keeps moved there (fun no => nomatch no) (heard.heard i _ result there stored)
    | spurious waiting | fails waiting =>
      rcases heard.heard i _ result there stored with ⟨_, back, _⟩ | ⟨woken, _⟩
      · cases waiting.symm.trans back
      · cases waiting.symm.trans woken
    | found woken entry =>
      rcases heard.heard i _ result there stored with ⟨_, back, _⟩ | ⟨_, first, found, eq⟩
      · cases woken.symm.trans back
      · cases entry.symm.trans found
        exact .inl ⟨_, rfl, eq⟩
    | missed woken none =>
      rcases heard.heard i _ result there stored with ⟨_, back, _⟩ | ⟨_, first, found, _⟩
      · cases woken.symm.trans back
      · cases none.symm.trans found
    | hear came => exact heard.hears watched moved there held stored
  · cases begins with
    | loops loops =>
      rw [watched loops] at stored
      cases stored
    | fails => cases stored

theorem Heard.step (heard : Heard s) (unshared : s.Unshared input) (watched : s.Watched F input)
    (moved : s.step F input = some t) : Heard t where
  distinct _ _ _ _ held held' := heard.step_distinct unshared moved held held'
  heard _ _ _ held stored := heard.step_heard watched moved held stored

end Step

/-- In runs in which no result slips past a waiting call, every call returns what was stored
for it in time. -/
theorem reached_returns {F : ParcelFormat} {secured : Bool} {s : SaceSocketSender}
    (reached : Runs.Reached (step F)
      (fun s input => s.Provided secured input ∧ s.Unshared input ∧ s.Watched F input) {} s)
    {i : Nat} {call : Call} {result : SaceResult} (held : s.calls[i]? = some call)
    (stored : call.stored = some result) : s.Returns F i call result := by
  have initial : Heard {} :=
    ⟨fun _ _ _ _ held => (nomatch held), fun _ _ _ held => (nomatch held)⟩
  have heard : Heard s := reached.invariant initial
    fun s input t heard allowed moved => heard.step allowed.2.1 allowed.2.2 moved
  rcases heard.heard i call result held stored with returned | ⟨woken, reply, entry, eq⟩
  · exact .inl returned
  · refine .inr ⟨s.recheck i call.cmd, reply, ?_, ?_, eq⟩
    · simp [SaceSocketSender.step, held, woken]
    · simp [recheck, entry, goto, update, held]

/-! A client asks for a service, and the server answers. -/

def askService : SaceCommand :=
  { type := .service, sequence := 7, name := str "svc"
    subType := SaceServiceCommandType.info.byte }

def notFound : SaceResult := initialResult askService

def asksService : Input :=
  .call askService true (askService.encode Android.parcel).length

def answeredWaiting : List Input := [asksService, .enter 0, .reply 0 notFound, .handle 0]

def answeredBefore : List Input :=
  [asksService, .reply 0 notFound, .handle 0, .enter 0, .deadline 0, .unblock 0 ETIMEDOUT]

theorem waiting_returns : ∃ (s : SaceSocketSender) (call : Call),
    s.calls[0]? = some call ∧ call.stored = some notFound ∧
      s.Returns Android.parcel 0 call notFound := by
  have admitted : Runs.Admitted (step Android.parcel) (fun s input => s.Provided true input ∧
      s.Unshared input ∧ s.Watched Android.parcel input) {} answeredWaiting := by decide +kernel
  have last : (Runs.run (step Android.parcel) {} answeredWaiting).map (·.calls) =
      some [⟨askService, .woken, false, some notFound⟩] := by decide +kernel
  obtain ⟨s, ran, calls⟩ := Option.map_eq_some_iff.mp last
  have held : s.calls[0]? = some ⟨askService, .woken, false, some notFound⟩ := by rw [calls]; rfl
  exact ⟨s, _, held, rfl, reached_returns (Runs.run_reached admitted ran) held rfl⟩

theorem before_times_out : ¬ ∀ (s : SaceSocketSender) (i : Nat) (call : Call)
    (result : SaceResult), Runs.Reached (step Android.parcel)
      (fun s input => s.Provided true input ∧ s.Unshared input) {} s →
    s.calls[i]? = some call → call.stored = some result →
      s.Returns Android.parcel i call result := by
  intro returns
  have admitted : Runs.Admitted (step Android.parcel) (fun s input => s.Provided true input ∧
      s.Unshared input) {} answeredBefore := by decide +kernel
  have last : (Runs.run (step Android.parcel) {} answeredBefore).map (·.calls) = some
      [⟨askService, .failed (waitResult askService ETIMEDOUT), true, some notFound⟩] := by
    decide +kernel
  obtain ⟨s, ran, calls⟩ := Option.map_eq_some_iff.mp last
  have held : s.calls[0]? = some
      ⟨askService, .failed (waitResult askService ETIMEDOUT), true, some notFound⟩ := by
    rw [calls]; rfl
  rcases returns s 0 _ notFound (Runs.run_reached admitted ran) held rfl with
    ⟨reply, back, _⟩ | ⟨t, reply, moved, _⟩
  · cases back
  · simp [step, held] at moved

end Sace.SaceSocketSender
