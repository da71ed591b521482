import Sace.Service.Watched

/-! The calls of the service executor. While no two of them overlap each is a run of the worker
that makes it, with the same effects. -/
namespace Sace.Watched

open Runs SaceServiceExcutor

/-! ### A pass that nobody interrupts -/

theorem moved_self {d : Watched} {who : Worker} {x : Place} (at_ : d.place who = x) :
    { d.moved x who with service := d.service, reaped := d.reaped } = d := by
  subst at_
  cases who <;> rfl

theorem polled_here {d : Watched} {who : Worker} {it : Nat} {gc : List Nat} {p : UInt64}
    {sveInfo : ServiceInfo} (at_ : d.place who = .polling it gc)
    (here : d.service.mRunningService[it]? = some p) (live : d.service.heap[p]? = some sveInfo)
    (answer : WaitAnswer) :
    ∃ reaped, Performs turn d (sveInfo.sendPolled (pollService sveInfo answer).response).trace
      { d.moved (.polling (it + 1)
          (if (pollService sveInfo answer).saved then gc ++ [it] else gc)) who with
        service := d.service.store p (pollService sveInfo answer).sveInfo, reaped } := by
  have turned : turn d (.poll who answer) = some (d.polled who it gc answer) := by
    simp only [turn, at_]
  simp only [polled, here, deref_of_live live, Traced.pure_then] at turned
  rw [sendPolled_eq, Traced.bind_of_ok rfl] at turned
  simp only [Traced.pure_trace, List.append_nil] at turned
  exact ⟨_, Performs.one turned rfl⟩

theorem polls_perform {who : Worker} {wait : Nat → WaitAnswer} {ps : List UInt64} {it : Nat}
    {d : Watched} {gc more : List Nat} {t : SaceServiceExcutor}
    (at_ : d.place who = .polling it gc) (left : d.service.mRunningService.drop it = ps)
    (done : (pollLoop wait it ps d.service).result = .ok (t, more)) :
    ∃ reaped, Performs turn d (pollLoop wait it ps d.service).trace
      { d.moved (.polling (it + ps.length) (gc ++ more)) who with service := t, reaped } := by
  induction ps generalizing it d gc more with
  | nil =>
    cases done
    refine ⟨d.reaped, ?_⟩
    rw [List.append_nil]
    change Performs turn d []
      { d.moved (.polling it gc) who with service := d.service, reaped := d.reaped }
    rw [moved_self at_]
    exact .nothing
  | cons p rest ih =>
    have here : d.service.mRunningService[it]? = some p := by
      rw [← List.head?_drop, left]
      rfl
    have behind : d.service.mRunningService.drop (it + 1) = rest := by
      rw [← List.tail_drop, left]
      rfl
    obtain ⟨sveInfo, held, _⟩ := Traced.bind_ok.mp done
    have live := deref_ok.mp held
    rw [pollLoop_cons live, sendPolled_eq, Traced.bind_of_ok rfl] at done ⊢
    obtain ⟨⟨u, later⟩, loop, done⟩ := Traced.bind_ok.mp done
    cases done
    obtain ⟨reaped, polled⟩ := polled_here at_ here live (wait it)
    let turned : Watched :=
      { d.moved (.polling (it + 1)
          (if (pollService sveInfo (wait it)).saved then gc ++ [it] else gc)) who with
        service := d.service.store p (pollService sveInfo (wait it)).sveInfo, reaped }
    have place : turned.place who = .polling (it + 1)
        (if (pollService sveInfo (wait it)).saved then gc ++ [it] else gc) := by
      cases who <;> rfl
    obtain ⟨after, ran⟩ := @ih (it + 1) turned _ later place behind loop
    refine ⟨after, ?_⟩
    have all : (if (pollService sveInfo (wait it)).saved then gc ++ [it] else gc) ++ later =
        gc ++ if (pollService sveInfo (wait it)).saved then it :: later else later := by
      split <;> simp
    have both := polled.trans ran
    rw [all, Nat.add_assoc, Nat.add_comm 1] at both
    rw [Traced.bind_pure_eq]
    cases who <;> exact both

theorem collects_perform {who : Worker} {gc : List Nat} {d : Watched} {t : SaceServiceExcutor}
    (at_ : d.place who = .collecting gc) (done : (collectLoop gc d.service).result = .ok t) :
    Performs turn d [] { d.moved who.back who with service := t, reaped := d.reaped } := by
  induction gc generalizing d with
  | nil =>
    cases done
    have turned : turn d (.collect who) = some (pure (d.moved who.back who)) := by
      simp only [turn, at_, collected]
    have last := Performs.one turned rfl
    cases who <;> exact last
  | cons i gc ih =>
    simp only [collectLoop] at done
    split at done
    · cases done
    · rename_i p here
      obtain ⟨sveInfo, held, done⟩ := Traced.bind_ok.mp done
      have turned : turn d (.collect who) = some (pure
          { d.moved (.collecting gc) who with service := d.service.remove i p sveInfo }) := by
        simp only [turn, at_, collected, here, deref_of_live (deref_ok.mp held),
          Traced.pure_then]
      have rest := @ih { d.moved (.collecting gc) who with
        service := d.service.remove i p sveInfo } (by cases who <;> rfl) done
      have both := Performs.next turned rfl rest
      cases who <;> exact both

/-- A pass that begins and goes on alone does what monitor_service_status does. -/
theorem monitor_performs {who : Worker} {d : Watched} {wait : Nat → WaitAnswer}
    {t : SaceServiceExcutor} (at_ : d.place who = .polling 0 [])
    (done : (d.service.monitorServiceStatus wait).result = .ok t) :
    ∃ reaped, Performs turn d (d.service.monitorServiceStatus wait).trace
      { d.moved who.back who with service := t, reaped } := by
  obtain ⟨⟨u, gc⟩, loop, erased⟩ := Traced.bind_ok.mp done
  obtain ⟨reaped, polls⟩ := polls_perform at_ rfl loop
  let polled : Watched :=
    { d.moved (.polling (0 + d.service.mRunningService.length) ([] ++ gc)) who with
      service := u, reaped }
  have place : polled.place who = .polling (0 + d.service.mRunningService.length) gc := by
    cases who <;> rfl
  have ended : polled.service.mRunningService[0 + d.service.mRunningService.length]? = none := by
    rw [show polled.service.mRunningService = d.service.mRunningService from
      (pollLoop_same loop).running]
    simp
  have turned : turn polled (.poll who .running) = some (pure (polled.moved (.collecting gc) who)) := by
    simp only [turn, place, Watched.polled, ended]
  have collects := @collects_perform who gc (polled.moved (.collecting gc) who) t
    (by cases who <;> rfl) (by cases who <;> exact erased)
  have all := polls.trans (.next turned rfl collects)
  rw [monitorServiceStatus, Traced.bind_of_ok loop, collectLoop_trace]
  refine ⟨reaped, ?_⟩
  cases who <;> exact all

/-! ### The calls -/

theorem request_performs {d : Watched} {msg : SaceReaderMessage} {env : ParseEnv}
    {answers : StartAnswers} {t : SaceServiceExcutor} (at_ : d.thread = .outside)
    (done : (d.service.work (.request msg env answers)).result = .ok t) :
    ∃ reaped, Performs turn d (d.service.work (.request msg env answers)).trace
      { d with service := t, thread := .polling 0 [], reaped } := by
  cases signals : d.service.signalled msg.msgCmd with
  | some p =>
    rw [work, request_signals signals, Traced.bind_assoc] at done ⊢
    obtain ⟨u, killed, same⟩ := Traced.bind_ok.mp done
    cases same
    have found : turn d (.request msg env answers) =
        some (pure { d with thread := .signalling msg p }) := by
      simp only [turn, at_, signals]
    have kills : turn { d with thread := .signalling msg p } .signal =
        some ⟨(d.service.signalService msg.msgCmd.serviceCmdType p).trace ++
          [.sendResult msg.msgWriter { initialResult msg.msgCmd with resultStatus := .ok }],
          .ok { d with service := t, thread := .polling 0 [] }⟩ := by
      simp only [turn, Traced.bind_of_ok killed]
      rfl
    refine ⟨d.reaped, ?_⟩
    rw [Traced.bind_of_ok killed]
    exact .next found rfl (.one kills rfl)
  | none =>
    have turned : turn d (.request msg env answers) =
        some ⟨(d.service.work (.request msg env answers)).trace, .ok { d with
          service := t
          thread := .polling 0 []
          reaped := d.reaped.filter fun pid =>
            !(d.service.work (.request msg env answers)).trace.any (·.spawns pid) }⟩ := by
      simp only [turn, at_, signals, Traced.bind_of_ok done, Traced.pure_trace, List.append_nil]
      rfl
    exact ⟨_, .one turned rfl⟩

/-- A turn of the executor's thread, from the request to the end of the pass. -/
theorem excuteNormal_performs {d : Watched} {msg : SaceReaderMessage} {env : ParseEnv}
    {answers : StartAnswers} {wait : Nat → WaitAnswer} {t : SaceServiceExcutor}
    (at_ : d.thread = .outside)
    (done : (d.service.excuteNormal msg env answers wait).result = .ok t) :
    ∃ reaped, Performs turn d (d.service.excuteNormal msg env answers wait).trace
      { d with service := t, reaped } := by
  rw [excuteNormal_works] at done ⊢
  obtain ⟨u, requested, passed⟩ := Traced.bind_ok.mp done
  obtain ⟨before, requests⟩ := request_performs at_ requested
  obtain ⟨reaped, passes⟩ := @monitor_performs .thread
    { d with service := u, thread := .polling 0 [], reaped := before } wait t rfl passed
  have back : { d with service := t, reaped } =
      ({ d with service := t, thread := .outside, reaped } : Watched) := by
    rw [← at_]
  rw [Traced.bind_of_ok requested]
  refine ⟨reaped, ?_⟩
  rw [back]
  exact requests.trans passes

theorem interrupts_perform {d : Watched} {ps : List UInt64} {it : Nat}
    (at_ : d.main = .interrupting it) (left : d.service.mRunningService.drop it = ps)
    (done : (d.service.interruptAll ps).result = .ok ()) :
    Performs turn d (d.service.interruptAll ps).trace { d with main := .polling 0 [] } := by
  induction ps generalizing it d with
  | nil =>
    have ended : d.service.mRunningService[it]? = none := by
      rw [← List.head?_drop, left]
      rfl
    have turned : turn d .interrupt = some (pure { d with main := .polling 0 [] }) := by
      simp only [turn, at_, ended]
    exact .one turned rfl
  | cons p rest ih =>
    have here : d.service.mRunningService[it]? = some p := by
      rw [← List.head?_drop, left]
      rfl
    have behind : d.service.mRunningService.drop (it + 1) = rest := by
      rw [← List.tail_drop, left]
      rfl
    rw [interruptAll] at done ⊢
    obtain ⟨sveInfo, held, done⟩ := Traced.bind_ok.mp done
    obtain ⟨_, _, done⟩ := Traced.bind_ok.mp done
    have turned : turn d .interrupt = some ⟨[.kill sveInfo.pid SIGINT],
        .ok { d with main := .interrupting (it + 1) }⟩ := by
      simp only [turn, at_, here, deref_of_live (deref_ok.mp held), Traced.pure_then]
      rfl
    have later := @ih { d with main := .interrupting (it + 1) } (it + 1) rfl behind done
    rw [deref_of_live (deref_ok.mp held), Traced.pure_then, Traced.emit_then]
    exact .next turned rfl later

theorem onUninit_performs {d : Watched} {wait : Nat → WaitAnswer} {t : SaceServiceExcutor}
    (at_ : d.main = .outside) (done : (d.service.onUninit wait).result = .ok t) :
    ∃ reaped, Performs turn d (d.service.onUninit wait).trace
      { d with main := .stopped, service := t, reaped } := by
  rw [onUninit_works] at done ⊢
  obtain ⟨_, interrupted, passed⟩ := Traced.bind_ok.mp done
  obtain ⟨_, signalled, same⟩ := Traced.bind_ok.mp interrupted
  cases same
  have begun : turn d .uninit = some (pure { d with main := .interrupting 0 }) := by
    simp only [turn, at_]
  have interrupts := @interrupts_perform { d with main := .interrupting 0 }
    d.service.mRunningService 0 rfl rfl signalled
  obtain ⟨reaped, passes⟩ := @monitor_performs .main { d with main := .polling 0 [] } wait t rfl
    passed
  have sent : (d.service.work .interrupt).trace =
      (d.service.interruptAll d.service.mRunningService).trace := by
    rw [work, Traced.bind_pure_eq]
  rw [Traced.bind_of_ok interrupted, sent]
  exact ⟨reaped, .next begun rfl (interrupts.trans passes)⟩

end Sace.Watched

namespace Sace

/-- The service executor when each of its calls is over before the next begins. -/
structure Uninterrupted where
  service : SaceServiceExcutor := {}
  uninit : Bool := false
  joined : Bool := false

namespace Uninterrupted

inductive Call where
  | excuteNormal (msg : SaceReaderMessage) (env : ParseEnv) (answers : StartAnswers)
      (wait : Nat → WaitAnswer)
  | excuteTimeout (wait : Nat → WaitAnswer)
  | onUninit (wait : Nat → WaitAnswer)
  /-- destroy_excute_thread has joined the executor's thread. -/
  | join
  | destroy

def turn (c : Uninterrupted) : Call → Option (Exec Uninterrupted)
  | .excuteNormal msg env answers wait =>
    if c.joined then none
    else some do return { c with service := ← c.service.excuteNormal msg env answers wait }
  | .excuteTimeout wait =>
    if c.joined then none
    else some do return { c with service := ← c.service.monitorServiceStatus wait }
  | .onUninit wait =>
    if c.uninit then none
    else some do return { c with service := ← c.service.onUninit wait, uninit := true }
  | .join => if c.uninit ∧ ¬ c.joined then some (pure { c with joined := true }) else none
  | .destroy =>
    if c.uninit ∧ c.joined then some do return { c with service := ← c.service.destroy } else none

/-- Between two calls both workers are outside, or where they have ended. -/
structure Seen (c : Uninterrupted) (d : Watched) : Prop where
  service : d.service = c.service
  thread : d.thread = if c.joined then .stopped else .outside
  main : d.main = if c.uninit then .stopped else .outside

variable {c t : Uninterrupted} {d : Watched}

theorem Seen.outside (seen : c.Seen d) (joined : ¬ c.joined = true) : d.thread = .outside := by
  rw [seen.thread, if_neg joined]

theorem Seen.turn {call : Call} {out : Exec Uninterrupted} (seen : c.Seen d)
    (turned : c.turn call = some out) (done : out.result = .ok t) :
    ∃ e, Runs.Performs Watched.turn d out.trace e ∧ t.Seen e := by
  cases call with
  | excuteNormal msg env answers wait =>
    obtain ⟨joined, turned⟩ := Option.ite_none_left_eq_some.mp turned
    cases turned
    obtain ⟨service, called, ended⟩ := Traced.bind_ok.mp done
    cases ended
    rw [← seen.service] at called
    obtain ⟨reaped, performs⟩ := Watched.excuteNormal_performs (seen.outside joined) called
    rw [Traced.bind_pure_eq, ← seen.service]
    exact ⟨_, performs, rfl, seen.thread, seen.main⟩
  | excuteTimeout wait =>
    obtain ⟨joined, turned⟩ := Option.ite_none_left_eq_some.mp turned
    cases turned
    obtain ⟨service, called, ended⟩ := Traced.bind_ok.mp done
    cases ended
    rw [← seen.service] at called
    have begun : d.turn .timeout = some (pure { d with thread := .polling 0 [] }) := by
      simp only [Watched.turn, seen.outside joined]
    obtain ⟨reaped, passes⟩ := @Watched.monitor_performs .thread
      { d with thread := .polling 0 [] } wait service rfl called
    rw [Traced.bind_pure_eq, ← seen.service]
    refine ⟨_, .next begun rfl passes, rfl, ?_, seen.main⟩
    show Watched.Place.outside = _
    rw [if_neg joined]
  | onUninit wait =>
    obtain ⟨before, turned⟩ := Option.ite_none_left_eq_some.mp turned
    cases turned
    obtain ⟨service, called, ended⟩ := Traced.bind_ok.mp done
    cases ended
    rw [← seen.service] at called
    have outside : d.main = .outside := by rw [seen.main, if_neg before]
    obtain ⟨reaped, performs⟩ := Watched.onUninit_performs outside called
    rw [Traced.bind_pure_eq, ← seen.service]
    exact ⟨_, performs, rfl, seen.thread, rfl⟩
  | join =>
    obtain ⟨⟨uninit, joined⟩, turned⟩ := Option.ite_none_right_eq_some.mp turned
    cases turned
    cases done
    have stopped : d.main = .stopped := by rw [seen.main, if_pos uninit]
    have leaves : d.turn .leave = some (pure { d with thread := .stopped }) := by
      simp only [Watched.turn, seen.outside joined, stopped]
    exact ⟨_, .one leaves rfl, seen.service, rfl, seen.main⟩
  | destroy =>
    obtain ⟨⟨uninit, joined⟩, turned⟩ := Option.ite_none_right_eq_some.mp turned
    cases turned
    obtain ⟨service, called, ended⟩ := Traced.bind_ok.mp done
    cases ended
    have thread : d.thread = .stopped := by rw [seen.thread, if_pos joined]
    have main : d.main = .stopped := by rw [seen.main, if_pos uninit]
    have destroys : d.turn .destroy = some ⟨c.service.destroy.trace, .ok { d with service }⟩ := by
      rw [← seen.service] at called ⊢
      simp only [Watched.turn, thread, main, SaceServiceExcutor.work, Traced.bind_of_ok called,
        Traced.pure_trace, List.append_nil]
      rfl
    rw [Traced.bind_pure_eq]
    exact ⟨_, .one destroys rfl, rfl, seen.thread, seen.main⟩

/-- What the service executor does with calls that do not overlap, the two workers can do: the same
effects in the same order, and the same services at the end. -/
theorem performs_watched {trace : List Effect} (performs : Runs.Performs turn {} trace c) :
    ∃ d, Runs.Performs Watched.turn {} trace d ∧
      Runs.Reached Watched.step (fun _ _ => True) {} d ∧ c.Seen d := by
  have start : Seen {} {} := ⟨rfl, rfl, rfl⟩
  obtain ⟨d, watched, seen⟩ :=
    performs.matched (fun _ _ _ _ _ seen turned done => seen.turn turned done) start
  exact ⟨d, watched, watched.reached, seen⟩

/-- Two services are started, the pass behind the second START finds the first one ended, and the
other is still there when the executor is shut down. -/
def startAndShutdown : List Call :=
  [.excuteNormal (Watched.startMsg "a") .empty (Watched.startAnswers 16 301) fun _ => .running,
    .excuteNormal (Watched.startMsg "b") .empty (Watched.startAnswers 32 302) fun i =>
      if i = 0 then .reaped 0 else .running,
    .onUninit fun _ => .running, .join, .destroy]

theorem startAndShutdown_watched : ∃ trace c d,
    Runs.perform turn {} startAndShutdown = some (trace, c) ∧
    Effect.kill 302 SIGINT ∈ trace ∧ Effect.kill 301 SIGINT ∉ trace ∧
    Runs.Performs Watched.turn {} trace d ∧
    Runs.Reached Watched.step (fun _ _ => True) {} d ∧ c.Seen d := by
  have kills : (Runs.perform turn {} startAndShutdown).map (fun out =>
      (decide (Effect.kill 302 SIGINT ∈ out.1), decide (Effect.kill 301 SIGINT ∈ out.1))) =
        some (true, false) := by decide +kernel
  obtain ⟨⟨trace, c⟩, ran, kills⟩ := Option.map_eq_some_iff.mp kills
  simp only [Prod.mk.injEq, decide_eq_true_eq, decide_eq_false_iff_not] at kills
  obtain ⟨d, watched⟩ := performs_watched (Runs.perform_performs ran)
  exact ⟨trace, c, d, ran, kills.1, kills.2, watched⟩

end Uninterrupted
end Sace
