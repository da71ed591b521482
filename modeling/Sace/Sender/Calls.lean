import Sace.Library.Runs
import Sace.Encoding

/-! SaceSocketSender: the threads in excuteCommand, the receive thread in handleResult, and
the results that the server sends. A thread runs alone between two of the calls that may
block it or let others run; `syncMutex` makes each such stretch one step. -/
namespace Sace

/-- A result from the server and, which the program does not know, the call whose command it
answers. SaceEvent also passes on results that answer no command of a client. -/
structure Reply where
  result : SaceResult
  call : Option Nat
  deriving DecidableEq

/-- Where a thread is in excuteCommand: before the lock of its loop, in the timed wait, behind
it with a return value of 0, or at the end with or without a result out of `mResult`. -/
inductive Place where
  | looping
  | waiting
  | woken
  | returned (reply : Reply)
  | failed (result : SaceResult)
  deriving DecidableEq

namespace Place

def underWay : Place → Bool
  | .looping | .waiting | .woken => true
  | .returned _ | .failed _ => false

def blocked : Place → Bool
  | .waiting | .woken => true
  | _ => false

end Place

/-- A call of excuteCommand. Whether its deadline has passed and which result handle_result has
stored for it before that are no part of the program. -/
structure Call where
  cmd : SaceCommand
  place : Place
  late : Bool := false
  stored : Option SaceResult := none
  deriving DecidableEq

/-- `asked` are the calls whose commands the server has and may still answer, `replies` the
results that have not come to handle_result. -/
structure SaceSocketSender where
  initlized : Bool := false
  mResult : Table UInt32 Reply := ∅
  calls : List Call := []
  asked : List Nat := []
  replies : List Reply := []

namespace SaceSocketSender

def ETIMEDOUT : Int := 110

def failResult (cmd : SaceCommand) : SaceResult :=
  { resultType := .none, resultStatus := .fail, sequence := cmd.sequence }

def waitResult (cmd : SaceCommand) (ret : Int) : SaceResult :=
  { failResult cmd with resultStatus := if ret = ETIMEDOUT then .timeout else .fail }

/-! ### The steps -/

def begin_ (s : SaceSocketSender) (call : Call) : SaceSocketSender :=
  { s with calls := s.calls ++ [call] }

def update (s : SaceSocketSender) (i : Nat) (f : Call → Call) : SaceSocketSender :=
  { s with calls := s.calls.modify i f }

def goto (s : SaceSocketSender) (i : Nat) (place : Place) : SaceSocketSender :=
  s.update i fun call => { call with place }

/-- The condition variable and the mutex must not be destroyed under a thread that is blocked
on them. -/
def uninit (s : SaceSocketSender) : Option SaceSocketSender :=
  if s.calls.any (·.place.blocked) then none else some { s with initlized := false }

/-- excuteCommand up to its loop; `ready` is what init returns and `ret` what write does. -/
def excuteCommand (F : ParcelFormat) (s : SaceSocketSender) (cmd : SaceCommand) (ready : Bool)
    (ret : Int) : Option SaceSocketSender :=
  let fails : Call := { cmd, place := .failed (failResult cmd) }
  if !s.initlized && !ready then some (s.begin_ fails)
  else
    let s := { s with initlized := true }
    if ret ≤ 0 then s.uninit.map (·.begin_ fails)
    else
      let asked := s.asked ++ [s.calls.length]
      if ret ≠ (cmd.encode F).length then some { s.begin_ fails with asked }
      else
        let stored := s.mResult[cmd.sequence]?.map Reply.result
        some { s.begin_ { cmd, place := .looping, stored } with asked }

def recheck (s : SaceSocketSender) (i : Nat) (cmd : SaceCommand) : SaceSocketSender :=
  match s.mResult[cmd.sequence]? with
  | some reply => { s.goto i (.returned reply) with mResult := s.mResult.erase cmd.sequence }
  | none => s.goto i .looping

/-- A call when handle_result broadcasts, having seen to it that `mResult` has an entry under
`sequence`. -/
def hear (mResult : Table UInt32 Reply) (sequence : UInt32) (call : Call) : Call :=
  { call with
    place := if call.place = .waiting then .woken else call.place
    stored :=
      if call.place.underWay && !call.late && call.cmd.sequence == sequence then
        mResult[sequence]?.map Reply.result
      else call.stored }

def handleResult (s : SaceSocketSender) (reply : Reply) : SaceSocketSender :=
  let mResult := s.mResult.insertIfNew reply.result.sequence reply
  { s with mResult, calls := s.calls.map (hear mResult reply.result.sequence) }

inductive Input where
  | call (cmd : SaceCommand) (ready : Bool) (ret : Int)
  /-- Lock and wait. -/
  | enter (i : Nat)
  | deadline (i : Nat)
  /-- The wait ends with `ret`, but not through a broadcast. -/
  | unblock (i : Nat) (ret : Int)
  | recheck (i : Nat)
  | reply (k : Nat) (result : SaceResult)
  /-- The server handles a command and sends no result, or goes away. -/
  | unanswered (k : Nat)
  | passOn (result : SaceResult)
  | handle (k : Nat)
  | lost (k : Nat)

/-- There is no next state where a thread is not at the step, and where it would use a mutex
that is destroyed. -/
def step (F : ParcelFormat) (s : SaceSocketSender) : Input → Option SaceSocketSender
  | .call cmd ready ret => s.excuteCommand F cmd ready ret
  | .enter i =>
    if s.initlized ∧ (s.calls[i]?).map Call.place = some .looping then
      some (s.goto i .waiting)
    else none
  | .deadline i => some (s.update i fun call => { call with late := true })
  | .unblock i ret => do
    let call ← s.calls[i]?
    if call.place = .waiting then
      some (s.goto i (if ret = 0 then .woken else .failed (waitResult call.cmd ret)))
    else none
  | .recheck i => do
    let call ← s.calls[i]?
    if call.place = .woken then some (s.recheck i call.cmd) else none
  | .reply k result => do
    let i ← s.asked[k]?
    some { s with asked := s.asked.eraseIdx k, replies := s.replies ++ [⟨result, some i⟩] }
  | .unanswered k => some { s with asked := s.asked.eraseIdx k }
  | .passOn result => some { s with replies := s.replies ++ [⟨result, none⟩] }
  | .handle k => do
    let reply ← s.replies[k]?
    if s.initlized then
      some { s.handleResult reply with replies := s.replies.eraseIdx k }
    else none
  | .lost k => some { s with replies := s.replies.eraseIdx k }

def replySequence (secured : Bool) (cmd : SaceCommand) : UInt32 :=
  if secured then cmd.sequence else 0

/-- A wait times out only after its deadline, and a reply has the sequence of its command
unless the client is not authorised. -/
def Provided (secured : Bool) (s : SaceSocketSender) : Input → Prop
  | .unblock i ret => ret = ETIMEDOUT → ∀ call ∈ s.calls[i]?, call.late = true
  | .reply k result => ∀ i ∈ s.asked[k]?, ∀ call ∈ s.calls[i]?,
      result.sequence = replySequence secured call.cmd
  | _ => True

instance (secured : Bool) (s : SaceSocketSender) : DecidablePred (s.Provided secured) := fun
  | .unblock .. => inferInstanceAs (Decidable (_ → _))
  | .reply .. => inferInstanceAs (Decidable (∀ i ∈ _, _))
  | .call .. | .enter _ | .deadline _ | .recheck _ | .unanswered _ | .passOn _ | .handle _
  | .lost _ => .isTrue trivial

def Writes (s : SaceSocketSender) (ready : Bool) (ret : Int) : Prop :=
  (s.initlized || ready) = true ∧ 0 < ret

def Loops (F : ParcelFormat) (s : SaceSocketSender) (cmd : SaceCommand) (ready : Bool)
    (ret : Int) : Prop :=
  s.Writes ready ret ∧ ret = (cmd.encode F).length

def Busy (s : SaceSocketSender) (sequence : UInt32) : Prop :=
  ∃ call ∈ s.calls, call.place.underWay = true ∧ call.cmd.sequence = sequence

instance (s : SaceSocketSender) (ready : Bool) (ret : Int) : Decidable (s.Writes ready ret) :=
  inferInstanceAs (Decidable (_ ∧ _))

instance (F : ParcelFormat) (s : SaceSocketSender) (cmd : SaceCommand) (ready : Bool)
    (ret : Int) : Decidable (s.Loops F cmd ready ret) :=
  inferInstanceAs (Decidable (_ ∧ _))

instance (s : SaceSocketSender) (sequence : UInt32) : Decidable (s.Busy sequence) :=
  inferInstanceAs (Decidable (∃ call ∈ _, _))

/-! ### What a step does -/

inductive Turns (s : SaceSocketSender) (i : Nat) : Input → Call → Call → Prop
  | kept {input : Input} {call : Call} (elsewhere : input ≠ .recheck i) :
      Turns s i input call call
  | enter {call : Call} (there : call.place = .looping) :
      Turns s i (.enter i) call { call with place := .waiting }
  | deadline {call : Call} : Turns s i (.deadline i) call { call with late := true }
  | spurious {call : Call} (there : call.place = .waiting) :
      Turns s i (.unblock i 0) call { call with place := .woken }
  | fails {call : Call} {ret : Int} (there : call.place = .waiting) :
      Turns s i (.unblock i ret) call { call with place := .failed (waitResult call.cmd ret) }
  | found {call : Call} {reply : Reply} (there : call.place = .woken)
      (entry : s.mResult[call.cmd.sequence]? = some reply) :
      Turns s i (.recheck i) call { call with place := .returned reply }
  | missed {call : Call} (there : call.place = .woken)
      (none : s.mResult[call.cmd.sequence]? = none) :
      Turns s i (.recheck i) call { call with place := .looping }
  | hear {call : Call} {k : Nat} {reply : Reply} (came : s.replies[k]? = some reply) :
      Turns s i (.handle k) call
        (hear (s.mResult.insertIfNew reply.result.sequence reply) reply.result.sequence call)

inductive Begins (F : ParcelFormat) (s : SaceSocketSender) : Input → Call → Prop
  | loops {cmd : SaceCommand} {ready : Bool} {ret : Int} (loops : s.Loops F cmd ready ret) :
      Begins F s (.call cmd ready ret)
        { cmd, place := .looping, stored := s.mResult[cmd.sequence]?.map Reply.result }
  | fails {cmd : SaceCommand} {ready : Bool} {ret : Int} :
      Begins F s (.call cmd ready ret) { cmd, place := .failed (failResult cmd) }

section Step
variable {F : ParcelFormat} {s t : SaceSocketSender} {input : Input}

theorem update_some {i j : Nat} {f : Call → Call} {call : Call}
    (held : (s.update i f).calls[j]? = some call) :
    ∃ old, s.calls[j]? = some old ∧ call = if i = j then f old else old := by
  simp only [update, List.getElem?_modify, Option.map_eq_map, Option.map_eq_some_iff] at held
  obtain ⟨old, there, eq⟩ := held
  exact ⟨old, there, eq.symm⟩

theorem begin_some {new call : Call} {i : Nat}
    (held : (s.begin_ new).calls[i]? = some call) :
    s.calls[i]? = some call ∨ i = s.calls.length ∧ call = new := by
  rw [begin_, List.getElem?_append] at held
  split at held
  · exact .inl held
  · rename_i outside
    obtain ⟨here, eq⟩ := List.getElem?_eq_some_iff.mp held
    have last : i - s.calls.length = 0 := by simpa using here
    exact .inr ⟨by omega, by simpa [last] using eq.symm⟩

theorem excuteCommand_cases {cmd : SaceCommand} {ready : Bool} {ret : Int}
    (done : s.excuteCommand F cmd ready ret = some t) : ∃ call,
      Begins F s (.call cmd ready ret) call ∧ t.calls = s.calls ++ [call] ∧
      t.mResult = s.mResult ∧ t.replies = s.replies ∧
      (t.asked = s.asked ∨ s.Writes ready ret ∧ t.asked = s.asked ++ [s.calls.length]) := by
  unfold excuteCommand at done
  dsimp only at done
  split at done
  · cases done
    exact ⟨_, .fails, rfl, rfl, rfl, .inl rfl⟩
  rename_i usable
  have usable : (s.initlized || ready) = true := by grind
  split at done
  · obtain ⟨u, closed, rfl⟩ := Option.map_eq_some_iff.mp done
    unfold uninit at closed
    split at closed
    · cases closed
    · cases closed
      exact ⟨_, .fails, rfl, rfl, rfl, .inl rfl⟩
  rename_i positive
  have writes : s.Writes ready ret := ⟨usable, by omega⟩
  split at done
  · cases done
    exact ⟨_, .fails, rfl, rfl, rfl, .inr ⟨writes, rfl⟩⟩
  · rename_i whole
    cases done
    exact ⟨_, .loops ⟨writes, by simpa using whole⟩, rfl, rfl, rfl, .inr ⟨writes, rfl⟩⟩

inductive Stepped (F : ParcelFormat) (s : SaceSocketSender) : Input → SaceSocketSender → Prop
  | call {cmd : SaceCommand} {ready : Bool} {ret : Int} {t : SaceSocketSender} {call : Call}
      (begins : Begins F s (.call cmd ready ret) call) (calls : t.calls = s.calls ++ [call])
      (mResult : t.mResult = s.mResult) (replies : t.replies = s.replies)
      (asked : t.asked = s.asked ∨
        s.Writes ready ret ∧ t.asked = s.asked ++ [s.calls.length]) :
      Stepped F s (.call cmd ready ret) t
  | enter {i : Nat} {call : Call} (held : s.calls[i]? = some call)
      (looping : call.place = .looping) : Stepped F s (.enter i) (s.goto i .waiting)
  | deadline {i : Nat} :
      Stepped F s (.deadline i) (s.update i fun call => { call with late := true })
  | spurious {i : Nat} {call : Call} (held : s.calls[i]? = some call)
      (waiting : call.place = .waiting) : Stepped F s (.unblock i 0) (s.goto i .woken)
  | fails {i : Nat} {ret : Int} {call : Call} (held : s.calls[i]? = some call)
      (waiting : call.place = .waiting) :
      Stepped F s (.unblock i ret) (s.goto i (.failed (waitResult call.cmd ret)))
  | found {i : Nat} {call : Call} {reply : Reply} (held : s.calls[i]? = some call)
      (woken : call.place = .woken) (entry : s.mResult[call.cmd.sequence]? = some reply) :
      Stepped F s (.recheck i)
        { s.goto i (.returned reply) with mResult := s.mResult.erase call.cmd.sequence }
  | missed {i : Nat} {call : Call} (held : s.calls[i]? = some call)
      (woken : call.place = .woken) (none : s.mResult[call.cmd.sequence]? = none) :
      Stepped F s (.recheck i) (s.goto i .looping)
  | reply {k i : Nat} {result : SaceResult} (owed : s.asked[k]? = some i) :
      Stepped F s (.reply k result)
        { s with asked := s.asked.eraseIdx k, replies := s.replies ++ [⟨result, some i⟩] }
  | unanswered {k : Nat} :
      Stepped F s (.unanswered k) { s with asked := s.asked.eraseIdx k }
  | passOn {result : SaceResult} :
      Stepped F s (.passOn result) { s with replies := s.replies ++ [⟨result, none⟩] }
  | handle {k : Nat} {reply : Reply} (came : s.replies[k]? = some reply) :
      Stepped F s (.handle k) { s.handleResult reply with replies := s.replies.eraseIdx k }
  | lost {k : Nat} : Stepped F s (.lost k) { s with replies := s.replies.eraseIdx k }

theorem step_cases (moved : s.step F input = some t) : Stepped F s input t := by
  cases input with
  | call cmd ready ret =>
    obtain ⟨call, begins, calls, mResult, replies, asked⟩ := excuteCommand_cases moved
    exact .call begins calls mResult replies asked
  | enter i =>
    simp only [step] at moved
    split at moved
    · rename_i enabled
      cases moved
      obtain ⟨call, held, looping⟩ := Option.map_eq_some_iff.mp enabled.2
      exact .enter held looping
    · cases moved
  | unblock i ret =>
    simp only [step, Option.bind_eq_bind, Option.bind_eq_some_iff] at moved
    obtain ⟨call, held, moved⟩ := moved
    split at moved
    · rename_i waiting
      cases moved
      split
      · rename_i zero
        exact zero ▸ .spurious held waiting
      · exact .fails held waiting
    · cases moved
  | recheck i =>
    simp only [step, Option.bind_eq_bind, Option.bind_eq_some_iff] at moved
    obtain ⟨call, held, moved⟩ := moved
    split at moved
    · rename_i woken
      cases moved
      unfold recheck
      split
      · rename_i reply entry
        exact .found held woken entry
      · rename_i none
        exact .missed held woken none
    · cases moved
  | reply k result =>
    simp only [step, Option.bind_eq_bind, Option.bind_eq_some_iff] at moved
    obtain ⟨i, owed, moved⟩ := moved
    cases moved
    exact .reply owed
  | handle k =>
    simp only [step, Option.bind_eq_bind, Option.bind_eq_some_iff] at moved
    obtain ⟨reply, came, moved⟩ := moved
    split at moved
    · cases moved
      exact .handle came
    · cases moved
  | deadline i =>
    cases moved
    exact .deadline
  | unanswered k =>
    cases moved
    exact .unanswered
  | passOn result =>
    cases moved
    exact .passOn
  | lost k =>
    cases moved
    exact .lost

theorem goto_turns {i j : Nat} {place : Place} {call new : Call}
    (held : s.calls[i]? = some call) (held' : (s.goto i place).calls[j]? = some new)
    (elsewhere : i ≠ j → input ≠ .recheck j)
    (turn : Turns s i input call { call with place }) :
    ∃ old, s.calls[j]? = some old ∧ Turns s j input old new := by
  obtain ⟨old, there, rfl⟩ := update_some held'
  refine ⟨old, there, ?_⟩
  split
  · rename_i here
    subst here
    cases held.symm.trans there
    exact turn
  · rename_i apart
    exact .kept (elsewhere apart)

/-- Every call after a step is one that there was, after its turn, or has just begun. -/
theorem step_calls (moved : s.step F input = some t) {j : Nat} {call : Call}
    (held' : t.calls[j]? = some call) :
    (∃ old, s.calls[j]? = some old ∧ Turns s j input old call) ∨
      j = s.calls.length ∧ Begins F s input call := by
  have others {i : Nat} : i ≠ j → Input.recheck i ≠ .recheck j := by
    rintro apart ⟨⟩
    exact apart rfl
  cases step_cases moved with
  | call begins calls =>
    rw [calls] at held'
    rcases begin_some (s := s) held' with there | ⟨last, rfl⟩
    · exact .inl ⟨call, there, .kept fun no => nomatch no⟩
    · exact .inr ⟨last, begins⟩
  | enter held looping =>
    exact .inl (goto_turns held held' (fun _ no => nomatch no) (.enter looping))
  | deadline =>
    obtain ⟨old, there, rfl⟩ := update_some held'
    refine .inl ⟨old, there, ?_⟩
    split
    · rename_i here
      exact here ▸ .deadline
    · exact .kept fun no => nomatch no
  | spurious held waiting =>
    exact .inl (goto_turns held held' (fun _ no => nomatch no) (.spurious waiting))
  | fails held waiting =>
    exact .inl (goto_turns held held' (fun _ no => nomatch no) (.fails waiting))
  | found held woken entry => exact .inl (goto_turns held held' others (.found woken entry))
  | missed held woken none => exact .inl (goto_turns held held' others (.missed woken none))
  | handle came =>
    simp only [handleResult, List.getElem?_map, Option.map_eq_some_iff] at held'
    obtain ⟨old, there, rfl⟩ := held'
    exact .inl ⟨old, there, .hear came⟩
  | reply | unanswered | passOn | lost =>
    exact .inl ⟨call, held', .kept fun no => nomatch no⟩

theorem step_length (moved : s.step F input = some t) :
    s.calls.length ≤ t.calls.length ∧
      ∀ cmd ready ret, input = .call cmd ready ret → s.calls.length < t.calls.length := by
  cases step_cases moved with
  | call begins calls => simp [calls]
  | _ => simp [goto, update, handleResult]

theorem step_results (moved : s.step F input = some t) {q : UInt32} {reply : Reply}
    (entry : t.mResult[q]? = some reply) : s.mResult[q]? = some reply ∨
      ∃ k, input = .handle k ∧ s.replies[k]? = some reply ∧ reply.result.sequence = q := by
  cases step_cases moved with
  | call begins calls mResult => exact .inl (mResult ▸ entry)
  | found => exact .inl ((Table.erase_some ..).mp entry).2
  | handle came =>
    rcases Table.of_insertIfNew_some entry with ⟨rfl, rfl⟩ | old
    · exact .inr ⟨_, rfl, came, rfl⟩
    · exact .inl old
  | _ => exact .inl entry

/-- A result stays in the map until a call under its sequence takes it. -/
theorem step_keeps (moved : s.step F input = some t) {q : UInt32} {reply : Reply}
    (entry : s.mResult[q]? = some reply) :
    t.mResult[q]? = some reply ∨ ∃ i call, input = .recheck i ∧ s.calls[i]? = some call ∧
      call.place = .woken ∧ call.cmd.sequence = q := by
  cases step_cases moved with
  | call begins calls mResult => exact .inl (mResult ▸ entry)
  | @found i call _ held woken =>
    by_cases mine : call.cmd.sequence = q
    · exact .inr ⟨i, call, rfl, held, woken, mine⟩
    · exact .inl ((Table.erase_some ..).mpr ⟨mine, entry⟩)
  | handle => exact .inl (Table.insertIfNew_keeps entry)
  | _ => exact .inl entry

theorem step_underWay (moved : s.step F input = some t) {i : Nat} {call : Call}
    (held : t.calls[i]? = some call) (underWay : call.place.underWay = true) :
    (∃ old, s.calls[i]? = some old ∧ old.place.underWay = true ∧ old.cmd = call.cmd) ∨
      i = s.calls.length ∧ ∃ ready ret, input = .call call.cmd ready ret ∧
        s.Loops F call.cmd ready ret := by
  rcases step_calls moved held with ⟨old, there, turn⟩ | ⟨last, begins⟩
  · refine .inl ⟨old, there, ?_⟩
    cases turn with
    | kept elsewhere => exact ⟨underWay, rfl⟩
    | enter there => exact ⟨by rw [there]; rfl, rfl⟩
    | deadline => exact ⟨underWay, rfl⟩
    | spurious there => exact ⟨by rw [there]; rfl, rfl⟩
    | fails there => cases underWay
    | found there entry => cases underWay
    | missed there none => exact ⟨by rw [there]; rfl, rfl⟩
    | hear came =>
      refine ⟨?_, rfl⟩
      simp only [hear] at underWay
      split at underWay
      · rename_i waiting
        rw [waiting]
        rfl
      · exact underWay
  · refine .inr ⟨last, ?_⟩
    cases begins with
    | loops loops => exact ⟨_, _, rfl, loops⟩
    | fails => cases underWay

end Step

/-! ### recv_thread_run: the bytes of one recvmsg -/

def SACE_RESULT_BUF_SIZE : Nat := 1024

inductive Handed where
  | result (result : SaceResult)
  | response (response : SaceStatusResponse)
  deriving DecidableEq

/-- One recvmsg: its bytes and the descriptor in its control message, if there is one. -/
structure Received where
  buf : Bytes
  control : Option Int

def recvThread (F : ParcelFormat) (msg : Received) : Exec (Option Handed) := do
  if msg.buf.length < SaceResultHeader.parcelSize then return none
  let headerRslt := (SaceResultHeader.readFromParcel F msg.buf).1
  if headerRslt.type = .normal then
    if msg.buf.length < headerRslt.len.toNat then return none
    let rslt ← SaceResult.readFromParcel F {} msg.buf
    return some (.result { rslt with resultFd := some (msg.control.getD (-1)) })
  else if headerRslt.type = .response then
    if msg.buf.length < headerRslt.len.toNat then return none
    let response ← SaceStatusResponse.readFromParcel F {} msg.buf
    return some (.response response)
  else return none

end SaceSocketSender
end Sace
