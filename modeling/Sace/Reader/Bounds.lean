import Sace.Android
import Sace.Event.Steps
import Sace.Normal.Steps
import Sace.Server
import Sace.Service.Steps

/-! Copies to destinations of fixed size, on every path from the bytes of a client. -/
namespace Sace

/-- A copy stays inside its destination; nothing is asked of other effects. -/
def Effect.Fits : Effect → Prop
  | .copy size capacity => size ≤ capacity
  | _ => True

def Safe {A : Type} (x : Exec A) : Prop := Traced.Every Effect.Fits x

@[simp] theorem safe_pure {A : Type} (a : A) : Safe (pure a : Exec A) := Traced.every_pure a

@[simp] theorem safe_fault {A : Type} (e : Fault) : Safe (Traced.fault e : Exec A) :=
  Traced.every_fault e

@[simp] theorem safe_emit (w : Effect) : Safe (Traced.emit w : Exec Unit) ↔ w.Fits :=
  Traced.every_emit w

theorem safe_bind {A B : Type} {x : Exec A} {f : A → Exec B} :
    Safe (x >>= f) ↔ Safe x ∧ ∀ a, x.result = .ok a → Safe (f a) := Traced.every_bind

@[simp] theorem safe_mk {A : Type} (trace : List Effect) (result : Except Fault A) :
    Safe (⟨trace, result⟩ : Exec A) ↔ ∀ w ∈ trace, w.Fits := Iff.rfl

theorem safe_emit_then {B : Type} (w : Effect) (f : Unit → Exec B) :
    Safe (Traced.emit w >>= f) ↔ w.Fits ∧ Safe (f ()) := by
  rw [safe_bind, safe_emit]
  exact and_congr_right fun _ => ⟨fun next => next () rfl, fun next _ _ => next⟩

theorem safe_memcpy {size capacity : Nat} : Safe (memcpy size capacity) ↔ size ≤ capacity := by
  rw [memcpy, safe_bind, safe_emit]
  constructor
  · exact And.left
  · intro fits
    exact ⟨fits, fun _ _ => by simp [Nat.not_lt.mpr fits]⟩

theorem safe_after_memcpy {A : Type} {size capacity : Nat} {rest : Exec A} :
    Safe (memcpy size capacity >>= fun _ => rest) ↔ size ≤ capacity ∧ Safe rest := by
  rw [safe_bind, safe_memcpy]
  constructor
  · rintro ⟨fits, next⟩
    exact ⟨fits, next () (by rw [memcpy_of_le fits])⟩
  · rintro ⟨fits, next⟩
    exact ⟨fits, fun _ _ => next⟩

/-! ### The executor of services -/

namespace SaceServiceExcutor

/-- The command of a START that is not refused fits `cmd` with its terminating zero. -/
def CommandFits (s : SaceServiceExcutor) (saceCmd : SaceCommand) : Prop :=
  saceCmd.serviceCmdType = .start → saceCmd.name ∉ s.mNameService →
    saceCmd.command.length + 1 ≤ CMD_BUFFER_LEN

theorem request_safe {s : SaceServiceExcutor} {msg : SaceReaderMessage} {env : ParseEnv}
    {answers : StartAnswers} :
    Safe (s.request msg env answers) ↔ s.CommandFits msg.msgCmd := by
  constructor
  · intro safe kind free
    exact safe _ (request_copy kind free)
  · intro fits
    exact request_every (fun _ _ => trivial) (fun _ _ => trivial) fits

theorem monitor_safe (s : SaceServiceExcutor) (wait : Nat → WaitAnswer) :
    Safe (s.monitorServiceStatus wait) := monitor_every (fun _ _ => trivial) s wait

theorem excuteNormal_safe {s : SaceServiceExcutor} {msg : SaceReaderMessage} {env : ParseEnv}
    {answers : StartAnswers} {wait : Nat → WaitAnswer} :
    Safe (s.excuteNormal msg env answers wait) ↔ s.CommandFits msg.msgCmd := by
  rw [excuteNormal, safe_bind, request_safe, and_iff_left_iff_imp]
  intro _ out _
  exact (safe_emit_then _ _).mpr ⟨trivial, monitor_safe out.1 wait⟩

end SaceServiceExcutor

/-! ### The executor of events -/

namespace SaceEvent

/-- The two formatted lines of every event fit the buffer, up to an event whose rlimits
cannot be read. -/
def LinesFit : List EventService → Prop
  | [] => True
  | event :: rest => ∀ object, event.cmd.commandParams = some object →
      nameLine event.cmd ≤ INI_BUFFER_LEN ∧ userLine object.base ≤ INI_BUFFER_LEN ∧
        (rlimitsReadable object.base → LinesFit rest)

theorem writeEvents_safe (events : List EventService) :
    Safe (writeEvents events) ↔ LinesFit events := by
  induction events with
  | nil => simp [writeEvents, LinesFit]
  | cons event rest ih =>
    unfold writeEvents LinesFit
    cases event.cmd.commandParams with
    | none => simp
    | some object =>
      simp only [safe_after_memcpy, Option.some.injEq, forall_eq']
      cases rlimitsReadable object.base <;> simp [ih]

/-- The lines for the events of `e` fit, if they are written at all. -/
def FileFits (e : SaceEvent) (env : EventEnv) : Prop := env.iniOpens → LinesFit e.eventList

theorem writeIniFile_safe (e : SaceEvent) (env : EventEnv) :
    Safe (e.writeIniFile env) ↔ e.FileFits env := by
  unfold writeIniFile FileFits
  cases env.iniOpens <;> simp [writeEvents_safe]

def ExtraFits (e : SaceEvent) (saceCmd : SaceCommand) (env : EventEnv) : Prop :=
  (saceCmd.eventType = .del → saceCmd.extraLen.toNat ≤ 1) ∧
  (saceCmd.eventType = .add → saceCmd.name ∉ e.events → firesAtOnce saceCmd env →
    saceCmd.extraLen.toNat ≤ EXTRA_BUFER_LEN) ∧
  (saceCmd.eventType = .info → saceCmd.command = SERVICE_GET_BY_NAME →
    saceCmd.name ∈ e.runningEvents → saceCmd.extraLen.toNat ≤ EXTRA_BUFER_LEN)

def EventsFit (e : SaceEvent) (saceCmd : SaceCommand) (writer : SaceWriter) (env : EventEnv) :
    Prop :=
  if saceCmd.eventType = .del then
    saceCmd.name ∈ e.events → (e.deleted saceCmd writer).FileFits env
  else if saceCmd.eventType = .add then
    saceCmd.name ∉ e.events → ∀ triggers, eventTriggers saceCmd.commandParams = pure triggers →
      triggers ≠ [] → (e.added saceCmd triggers false).FileFits env
  else if saceCmd.eventType = .info then True
  else e.FileFits env

theorem linesFit_congr {xs ys : List EventService}
    (same : xs.map EventService.cmd = ys.map EventService.cmd) : LinesFit xs ↔ LinesFit ys := by
  induction xs generalizing ys with
  | nil =>
    cases List.map_eq_nil_iff.mp same.symm
    rfl
  | cons x xs ih =>
    obtain ⟨y, ys, rfl, head, tail⟩ := List.map_eq_cons_iff.mp same.symm
    unfold LinesFit
    rw [head, ih tail.symm]

theorem added_fileFits (e : SaceEvent) (saceCmd : SaceCommand) (ts us : List Trigger)
    (b c : Bool) (env : EventEnv) :
    (e.added saceCmd ts b).FileFits env ↔ (e.added saceCmd us c).FileFits env := by
  unfold FileFits
  exact imp_congr_right fun _ => linesFit_congr (added_cmds e saceCmd ts us b c)

def RequestFits (env : EventEnv) (x : Exec (SaceEvent × Outcome)) : Prop :=
  Safe x ∧ ∀ t status, x.result = .ok (t, .done status) → t.FileFits env

section RequestFits
variable {env : EventEnv}

theorem requestFits_done (t : SaceEvent) (status : SaceResultStatus) :
    RequestFits env (pure (t, .done status)) ↔ t.FileFits env := by
  simp [RequestFits]

theorem requestFits_other {t : SaceEvent} {outcome : Outcome}
    (other : ∀ status, outcome ≠ .done status) : RequestFits env (pure (t, outcome)) := by
  refine ⟨safe_pure _, fun u status done => ?_⟩
  cases done
  exact absurd rfl (other status)

theorem requestFits_fault (e : Fault) : RequestFits env (Traced.fault e) := by
  simp [RequestFits]

theorem requestFits_memcpy {size capacity : Nat} {rest : Exec (SaceEvent × Outcome)} :
    RequestFits env (memcpy size capacity >>= fun _ => rest) ↔
      size ≤ capacity ∧ RequestFits env rest := by
  rw [RequestFits, safe_after_memcpy, and_assoc]
  refine and_congr_right fun fits => and_congr_right fun _ => ?_
  rw [memcpy_of_le fits, Traced.bind_of_ok rfl]

theorem requestFits_emitAll {ws : List Effect} (fit : ∀ w ∈ ws, w.Fits)
    {rest : Exec (SaceEvent × Outcome)} :
    RequestFits env (Traced.emitAll ws >>= fun _ => rest) ↔ RequestFits env rest := by
  rw [Traced.emitAll_then]
  unfold RequestFits Safe Traced.Every
  simp only [List.mem_append, or_imp, forall_and]
  rw [and_iff_right (a := ∀ w ∈ ws, w.Fits) fit]

end RequestFits

theorem deletePosts_fit (e : SaceEvent) (saceCmd : SaceCommand) :
    ∀ w ∈ e.deletePosts saceCmd, w.Fits := by
  unfold deletePosts
  split <;> simp [Effect.Fits]

theorem delEvent_fits {e : SaceEvent} {saceCmd : SaceCommand} {writer : SaceWriter}
    {env : EventEnv} :
    RequestFits env (e.delEvent saceCmd writer) ↔ saceCmd.extraLen.toNat ≤ 1 ∧
      (saceCmd.name ∈ e.events → (e.deleted saceCmd writer).FileFits env) := by
  by_cases there : saceCmd.name ∈ e.events
  · rw [delEvent_some there, requestFits_memcpy, requestFits_emitAll (deletePosts_fit e saceCmd)]
    simp only [requestFits_done, there, forall_const]
  · simp only [delEvent, there, not_false_eq_true, if_true, requestFits_memcpy, false_implies,
      and_true, and_iff_left_iff_imp]
    intro _
    exact requestFits_other (by simp)

theorem addEvent_fits {e : SaceEvent} {saceCmd : SaceCommand} {env : EventEnv} :
    RequestFits env (e.addEvent saceCmd env) ↔ (saceCmd.name ∉ e.events →
      (firesAtOnce saceCmd env → saceCmd.extraLen.toNat ≤ EXTRA_BUFER_LEN) ∧
      ∀ triggers, eventTriggers saceCmd.commandParams = pure triggers → triggers ≠ [] →
        (e.added saceCmd triggers false).FileFits env) := by
  by_cases taken : saceCmd.name ∈ e.events
  · rw [addEvent_taken taken]
    simp only [taken, not_true_eq_false, false_implies, iff_true]
    exact requestFits_other (by simp)
  have distinct : ∀ ts us : List Trigger, (pure ts : Exec (List Trigger)) = pure us → ts = us :=
    fun ts us same => Except.ok.inj (congrArg Traced.result same)
  rcases eventTriggers_cases saceCmd.commandParams with ⟨triggers, given⟩ | bad
  · simp only [taken, not_false_eq_true, forall_const, firesAtOnce, given]
    by_cases empty : triggers = []
    · subst empty
      rw [addEvent_none taken given]
      refine iff_of_true (requestFits_other (by simp)) ⟨?_, fun ts same some => ?_⟩
      · rintro ⟨ts, same, fires⟩
        cases distinct _ _ same
        cases fires
      · exact absurd (distinct _ _ same).symm some
    · rw [addEvent_some taken given empty]
      have all : (∀ ts, (pure triggers : Exec (List Trigger)) = pure ts → ts ≠ [] →
          (e.added saceCmd ts false).FileFits env) ↔
            (e.added saceCmd triggers false).FileFits env := by
        refine ⟨fun h => h triggers rfl empty, fun h ts same _ => ?_⟩
        cases distinct _ _ same
        exact h
      rw [all]
      by_cases fires : (triggeredAny env.properties triggers).1 = true
      · have fired : (∃ ts, (pure triggers : Exec (List Trigger)) = pure ts ∧
            (triggeredAny env.properties ts).1 = true) := ⟨triggers, rfl, fires⟩
        simp only [fires, if_true, fired, forall_const, requestFits_memcpy]
        rw [← added_fileFits e saceCmd _ triggers true false]
        apply and_congr_right
        intro _
        exact (requestFits_emitAll (List.forall_mem_singleton.mpr (by simp [Effect.Fits]))).trans
          (requestFits_done _ _)
      · have unfired : ¬ ∃ ts, (pure triggers : Exec (List Trigger)) = pure ts ∧
            (triggeredAny env.properties ts).1 = true := by
          rintro ⟨ts, same, fired⟩
          cases distinct _ _ same
          exact fires fired
        simp only [fires, Bool.false_eq_true, if_false, unfired, false_implies, true_and,
          requestFits_done]
        exact added_fileFits e saceCmd _ triggers false false env
  · rw [addEvent_fault taken bad]
    refine iff_of_true (requestFits_fault _) fun _ => ⟨?_, fun ts same => ?_⟩
    · rintro ⟨ts, same, _⟩
      rw [bad] at same
      cases congrArg Traced.result same
    · rw [bad] at same
      cases congrArg Traced.result same

theorem infoEvent_fits {e : SaceEvent} {saceCmd : SaceCommand} {writer : SaceWriter}
    {env : EventEnv} :
    RequestFits env (e.infoEvent saceCmd writer) ↔ (saceCmd.command = SERVICE_GET_BY_NAME →
      saceCmd.name ∈ e.runningEvents → saceCmd.extraLen.toNat ≤ EXTRA_BUFER_LEN) := by
  by_cases running : saceCmd.command = SERVICE_GET_BY_NAME ∧ saceCmd.name ∈ e.runningEvents
  · rw [infoEvent_running running.1 running.2, requestFits_memcpy]
    simp only [running.1, running.2, forall_const, and_iff_left_iff_imp]
    intro _
    exact (requestFits_emitAll (List.forall_mem_singleton.mpr (by simp [Effect.Fits]))).mpr
      (requestFits_other (by simp))
  · rw [infoEvent_refused (not_and.mp running)]
    exact iff_of_true (requestFits_other (by simp))
      fun byName there => absurd ⟨byName, there⟩ running

theorem excuteNormal_safe {e : SaceEvent} {msg : SaceReaderMessage} {env : EventEnv} :
    Safe (e.excuteNormal msg env) ↔
      e.ExtraFits msg.msgCmd env ∧ e.EventsFit msg.msgCmd msg.msgWriter env := by
  have split : Safe (e.excuteNormal msg env) ↔
      RequestFits env (e.request msg.msgCmd msg.msgWriter env) := by
    rw [excuteNormal, safe_bind]
    refine and_congr_right fun _ => ⟨fun next t status done => ?_, ?_⟩
    · have safe := next _ done
      simp only [safe_bind, writeIniFile_safe] at safe
      exact safe.1
    · rintro fits ⟨t, outcome⟩ done
      cases outcome with
      | done status =>
        simp only [safe_bind, writeIniFile_safe]
        exact ⟨fits t status done, fun _ _ => by simp [Effect.Fits]⟩
      | err status => simp [Effect.Fits]
      | forwarded => exact safe_pure _
  have addDel : SaceEventType.add ≠ .del := by decide
  have infoDel : SaceEventType.info ≠ .del := by decide
  have infoAdd : SaceEventType.info ≠ .add := by decide
  rw [split, request, ExtraFits, EventsFit]
  by_cases del : msg.msgCmd.eventType = .del
  · simp only [del, if_true, delEvent_fits, addDel.symm, infoDel.symm, false_implies, and_true,
      forall_const]
  by_cases add : msg.msgCmd.eventType = .add
  · simp only [add, addDel, if_false, if_true, addEvent_fits, infoAdd.symm, false_implies,
      and_true, true_and, forall_const, imp_and]
  by_cases info : msg.msgCmd.eventType = .info
  · simp only [info, infoDel, infoAdd, if_false, if_true, infoEvent_fits, false_implies, true_and,
      and_true, forall_const]
  · simp only [del, add, info, if_false, requestFits_done, false_implies, true_and]

end SaceEvent
end Sace
