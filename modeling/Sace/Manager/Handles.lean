import Sace.Library.Runs
import Sace.Library.Tables
import Sace.Manager.Control

/-! The objects that checkService returns, and how they hear that their service has ended. -/
namespace Sace

/-- SaceManager with the calls of checkService under way and the objects that its callers have
made, by number. `fresh` have been made and not put into `mServices` yet, `bare` have no sender;
of the objects in `stopping` a caller waits for the answer to a STOP, for those in `leaving` the
callback is still to come. -/
structure SaceManager where
  mServices : Table UInt64 Nat := ∅
  checking : List (Sace.SaceManager.Check × Sace.SaceManager.CheckStage) := []
  objs : List SaceServiceObj := []
  fresh : List Nat := []
  bare : List Nat := []
  returned : List Nat := []
  stopping : List Nat := []
  leaving : List Nat := []
  processed : List UInt64 := []

namespace SaceManager

open SaceServiceObj

inductive Input where
  | check (c : Check)
  /-- The command that a call of checkService waits for is answered. -/
  | checked (i : Nat) (mRlt : SaceResult)
  | register (i : Nat)
  | stop (i : Nat) (own : Str) (sequence : UInt32)
  | answered (i : Nat) (mRlt : SaceResult)
  | callback (i : Nat)
  | onResponse (response : SaceStatusResponse)

/-- The sections between two uses of `mMutex` or of the connection. An object that was made for
an error is returned at once. -/
def step (s : SaceManager) : Input → Option SaceManager
  | .check c => some { s with checking := s.checking ++ [(c, .normal)] }
  | .checked i mRlt =>
    match s.checking[i]? with
    | none => none
    | some (c, stage) => (c.answered mRlt stage).value.map fun
      | .asks next => { s with checking := s.checking.set i (c, next) }
      | .entered sve =>
        { s with
          checking := s.checking.eraseIdx i
          objs := s.objs ++ [sve]
          fresh := s.objs.length :: s.fresh }
      | .failed sve _ =>
        { s with
          checking := s.checking.eraseIdx i
          objs := s.objs ++ [sve]
          bare := s.objs.length :: s.bare
          returned := s.objs.length :: s.returned }
  | .register i =>
    match s.objs[i]? with
    | none => none
    | some sve =>
      if i ∈ s.fresh then
        some { s with
          mServices := s.mServices.insertIfNew sve.label i
          fresh := s.fresh.erase i
          returned := i :: s.returned }
      else none
  | .stop i own sequence =>
    match s.objs[i]? with
    | none => none
    | some sve =>
      if i ∈ s.returned then
        match sve.stop own sequence with
        | .error _ => some s
        | .ok none => some s
        | .ok (some _) => if i ∈ s.bare then none else some { s with stopping := i :: s.stopping }
      else none
  | .answered i mRlt =>
    if i ∈ s.stopping then
      some { s with
        objs := s.objs.modify i fun obj => (obj.operated mRlt).1
        stopping := s.stopping.erase i
        leaving := i :: s.leaving }
    else none
  | .callback i =>
    match s.objs[i]? with
    | none => none
    | some sve =>
      if i ∈ s.leaving then
        some { s with mServices := s.mServices.erase sve.label, leaving := s.leaving.erase i }
      else none
  | .onResponse response =>
    if response.type = .service then
      match s.mServices[response.label]? with
      | none => some { s with processed := response.label :: s.processed }
      | some i =>
        some { s with
          objs := s.objs.modify i fun sveObj =>
            { sveObj with mError := responseToError response.status }
          mServices := s.mServices.erase response.label
          processed := response.label :: s.processed }
    else some s

/-- No returned object reports OK about a label whose response has been processed. -/
def Reports (s : SaceManager) : Prop :=
  ∀ i ∈ s.returned, ∀ obj, s.objs[i]? = some obj → obj.label ∈ s.processed → obj.mError ≠ .ok

/-- checkService enters its object when none is registered for the label and no response for it
has been processed; the answer OK to a stop is noted while the object is registered; the
callback takes out no object that reports OK. -/
def Careful (s : SaceManager) : Input → Prop
  | .register i => ∀ obj, s.objs[i]? = some obj →
      obj.label ∉ s.mServices ∧ obj.label ∉ s.processed
  | .answered i mRlt => mRlt.resultStatus = .ok → ∀ obj, s.objs[i]? = some obj →
      s.mServices[obj.label]? = some i
  | .callback i => ∀ obj, s.objs[i]? = some obj → ∀ j other,
      s.mServices[obj.label]? = some j → s.objs[j]? = some other → other.mError ≠ .ok
  | _ => True

/-- A returned object that reports OK is the one that a response will find. -/
structure Found (s : SaceManager) : Prop where
  made : ∀ i ∈ s.returned, i < s.objs.length
  entries : ∀ (l : UInt64) (i : Nat), s.mServices[l]? = some i →
    l ∉ s.processed ∧ ∃ obj, s.objs[i]? = some obj ∧ obj.label = l
  registered : ∀ i ∈ s.returned, ∀ obj, s.objs[i]? = some obj → obj.mError = .ok →
    s.mServices[obj.label]? = some i

theorem found_start : Found {} where
  made _ none := nomatch none
  entries l i none := by simp at none
  registered _ none := nomatch none

theorem Found.reports {s : SaceManager} (found : Found s) : s.Reports := by
  intro i returned obj here processed fine
  exact (found.entries _ i (found.registered i returned obj here fine)).1 processed

theorem responseToError_ne_ok (status : SaceResponseStatus) : responseToError status ≠ .ok := by
  unfold responseToError
  split
  · decide
  · split <;> decide

/-! ### What each step keeps -/

theorem Found.grown {s : SaceManager} (found : Found s) {obj : SaceServiceObj}
    {checking : List (Check × CheckStage)} {fresh bare returned : List Nat}
    (back : ∀ i ∈ returned, i ∈ s.returned ∨ i = s.objs.length ∧ obj.mError ≠ .ok) :
    Found { s with checking, objs := s.objs ++ [obj], fresh, bare, returned } where
  made i member := by
    simp only [List.length_append, List.length_singleton]
    rcases back i member with old | ⟨rfl, _⟩
    · have := found.made i old
      omega
    · omega
  entries l i entry := by
    obtain ⟨unheard, other, here, own⟩ := found.entries l i entry
    obtain ⟨bound, _⟩ := List.getElem?_eq_some_iff.mp here
    exact ⟨unheard, other, by rw [List.getElem?_append_left bound, here], own⟩
  registered i member other here fine := by
    rcases back i member with old | ⟨rfl, failed⟩
    · rw [List.getElem?_append_left (found.made i old)] at here
      exact found.registered i old other here fine
    · rw [List.getElem?_concat_length] at here
      cases here
      exact absurd fine failed

/-- An error noted in one object; if it is OK, the object has to be registered. -/
theorem Found.noted {s : SaceManager} (found : Found s) (i : Nat) {code : ErrorCode}
    {stopping leaving : List Nat}
    (registered : code = .ok → ∀ obj, s.objs[i]? = some obj → s.mServices[obj.label]? = some i) :
    Found { s with
      objs := s.objs.modify i fun obj => { obj with mError := code }
      stopping, leaving } where
  made j member := by simpa using found.made j member
  entries l j entry := by
    obtain ⟨unheard, other, here, own⟩ := found.entries l j entry
    refine ⟨unheard, if i = j then { other with mError := code } else other, ?_, ?_⟩
    · rw [List.getElem?_modify, here]
      split <;> rfl
    · split <;> exact own
  registered j member other here fine := by
    rw [List.getElem?_modify] at here
    obtain ⟨obj, old, rfl⟩ := Option.map_eq_some_iff.mp here
    by_cases same : i = j
    · subst same
      rw [if_pos rfl] at fine ⊢
      exact registered fine obj old
    · rw [if_neg same] at fine ⊢
      exact found.registered j member obj old fine

theorem Found.entered {s : SaceManager} (found : Found s) {i : Nat} {sve : SaceServiceObj}
    (here : s.objs[i]? = some sve) (vacant : sve.label ∉ s.mServices)
    (unheard : sve.label ∉ s.processed) (fresh : List Nat) :
    Found { s with
      mServices := s.mServices.insertIfNew sve.label i
      fresh
      returned := i :: s.returned } where
  made j member := by
    rcases List.mem_cons.mp member with rfl | old
    · exact (List.getElem?_eq_some_iff.mp here).1
    · exact found.made j old
  entries l j entry := by
    rcases Table.of_insertIfNew_some entry with ⟨rfl, rfl⟩ | old
    · exact ⟨unheard, sve, here, rfl⟩
    · exact found.entries l j old
  registered j member other there fine := by
    rcases List.mem_cons.mp member with rfl | old
    · cases here.symm.trans there
      have new : s.mServices[sve.label]? = none := Std.ExtTreeMap.getElem?_eq_none vacant
      exact (Table.insertIfNew_some new ..).mpr (.inl ⟨rfl, rfl⟩)
    · exact Table.insertIfNew_keeps (found.registered j old other there fine)

theorem Found.erased {s : SaceManager} (found : Found s) {label : UInt64}
    {leaving : List Nat} (failed : ∀ j other, s.mServices[label]? = some j →
      s.objs[j]? = some other → other.mError ≠ .ok) :
    Found { s with mServices := s.mServices.erase label, leaving } where
  made := found.made
  entries l j entry := found.entries l j ((Table.erase_some ..).mp entry).2
  registered j member other there fine := by
    have entry := found.registered j member other there fine
    refine (Table.erase_some ..).mpr ⟨fun same => ?_, entry⟩
    exact failed j other (same ▸ entry) there fine

/-- When no returned object with the label reports OK, its response may be processed. -/
theorem Found.heard {s : SaceManager} (found : Found s) {label : UInt64}
    (gone : s.mServices[label]? = none) :
    Found { s with processed := label :: s.processed } where
  made := found.made
  entries l j entry := by
    obtain ⟨unheard, obj, here, own⟩ := found.entries l j entry
    refine ⟨fun member => ?_, obj, here, own⟩
    rcases List.mem_cons.mp member with rfl | old
    · cases gone.symm.trans entry
    · exact unheard old
  registered := found.registered

theorem onResponse_found {s t : SaceManager} (found : Found s) {response : SaceStatusResponse}
    (moved : step s (.onResponse response) = some t) : Found t := by
  simp only [step] at moved
  split at moved
  · split at moved
    · rename_i gone
      cases moved
      exact found.heard gone
    · rename_i i entry
      cases moved
      -- the error is set first: then the entry is no longer of an object that reports OK
      let objs := s.objs.modify i fun sveObj =>
        { sveObj with mError := responseToError response.status }
      have noted : Found { s with objs } :=
        found.noted i fun ok => absurd ok (responseToError_ne_ok _)
      have failed : ∀ j other, s.mServices[response.label]? = some j →
          objs[j]? = some other → other.mError ≠ .ok := by
        intro j other same there
        cases entry.symm.trans same
        rw [List.getElem?_modify] at there
        obtain ⟨obj, _, rfl⟩ := Option.map_eq_some_iff.mp there
        rw [if_pos rfl]
        exact responseToError_ne_ok _
      have erased : Found { s with objs, mServices := s.mServices.erase response.label } :=
        noted.erased failed
      exact erased.heard Std.ExtTreeMap.getElem?_erase_self
  · cases moved
    exact found

theorem step_found {s t : SaceManager} (found : Found s) {input : Input}
    (careful : Careful s input) (moved : step s input = some t) : Found t := by
  cases input with
  | check c =>
    cases moved
    exact ⟨found.made, found.entries, found.registered⟩
  | checked i mRlt =>
    simp only [step] at moved
    split at moved
    · cases moved
    · obtain ⟨out, _, rfl⟩ := Option.map_eq_some_iff.mp moved
      cases out with
      | asks next => exact ⟨found.made, found.entries, found.registered⟩
      | entered sve => exact found.grown fun i member => .inl member
      | failed sve error =>
        apply found.grown
        intro i member
        rcases List.mem_cons.mp member with rfl | old
        · exact .inr ⟨rfl, error⟩
        · exact .inl old
  | register i =>
    simp only [step] at moved
    split at moved
    · cases moved
    · rename_i sve here
      split at moved
      · cases moved
        exact found.entered here (careful sve here).1 (careful sve here).2 _
      · cases moved
  | stop i own sequence =>
    simp only [step] at moved
    repeat' split at moved
    all_goals cases moved
    all_goals exact ⟨found.made, found.entries, found.registered⟩
  | answered i mRlt =>
    simp only [step] at moved
    split at moved
    · cases moved
      exact found.noted i fun ok obj here => careful (resultToError_ok.mp ok) obj here
    · cases moved
  | callback i =>
    simp only [step] at moved
    split at moved
    · cases moved
    · rename_i sve here
      split at moved
      · cases moved
        exact found.erased (careful sve here)
      · cases moved
  | onResponse response => exact onResponse_found found moved

/-- In careful runs every object that checkService returns hears of its service's end. -/
theorem reached_reports {s : SaceManager} (reached : Runs.Reached step Careful {} s) :
    s.Reports := by
  have found : Found s := reached.invariant found_start
    fun s input t found careful moved => step_found found careful moved
  exact found.reports

/-! One thread starts a service, another finds it, and the service ends. -/

open Controlled (svcCheck svcMsg svcInfo svcObj)

def unnamed (mCmd : SaceCommand) : SaceResult :=
  { initialResult mCmd with resultStatus := .fail }

/-- The first call of checkService starts the service, the second finds it. -/
def svcStarting : List Input :=
  [.check svcCheck, .checked 0 (unnamed (queryServiceCmd svcCheck.own 5 svcCheck.name)),
    .checked 0 (unnamed (queryEventServiceCmd svcCheck.own 6 svcCheck.name)),
    .checked 0 (SaceServiceExcutor.startedResult svcMsg.msgCmd svcInfo), .register 0]

def svcFinding : List Input :=
  let found : Check :=
    { svcCheck with own := str "200:201", info := fun _ => List.replicate SERVICE_INFO_LEN 0 }
  [.check found, .checked 0
    (SaceServiceExcutor.infoResult (queryServiceCmd found.own 5 found.name) svcInfo), .register 1]

def svcEnded : SaceStatusResponse :=
  { type := .service, status := .exit, label := svcInfo.label, name := str "svc" }

theorem one_hears : ∃ s, Runs.run step {} (svcStarting ++ [.onResponse svcEnded]) = some s ∧
    s.returned = [0] ∧ s.processed = [svcInfo.label] ∧ s.Reports := by
  have admitted : Runs.Admitted step Careful {} (svcStarting.take 4) :=
    ⟨trivial, fun _ _ => ⟨trivial, fun _ _ => ⟨trivial, fun _ _ => ⟨trivial, fun _ _ => trivial⟩⟩⟩⟩
  have made : Runs.Reached step Careful {} { objs := [svcObj], fresh := [0] } :=
    Runs.run_reached admitted (by rfl)
  have entered := made.next (a := Input.register 0) (t :=
    { objs := [svcObj], mServices := (∅ : Table UInt64 Nat).insertIfNew svcInfo.label 0
      returned := [0] }) ?_ (by rfl)
  · have heard := entered.next (a := Input.onResponse svcEnded) (t :=
      { objs := [{ svcObj with mError := .exit }], returned := [0], processed := [svcInfo.label] })
      trivial (by rfl)
    exact ⟨_, by rfl, rfl, rfl, reached_reports heard⟩
  · intro other here
    cases here
    exact ⟨by simp, by simp⟩

/-- The object of the second thread does not replace the first in `mServices`: it goes on
reporting OK. -/
theorem second_unheard : ¬ ∀ s, Runs.Reached step (fun _ _ => True) {} s → s.Reports := by
  intro heard
  let inputs : List Input := svcStarting ++ svcFinding ++ [.onResponse svcEnded]
  have last : (Runs.run step {} inputs).map (fun s => (s.returned, s.processed,
      s.objs[1]?.map fun obj => (obj.label, obj.mError))) =
        some ([1, 0], [svcInfo.label], some (svcInfo.label, .ok)) := by decide +kernel
  obtain ⟨s, ran, eq⟩ := Option.map_eq_some_iff.mp last
  simp only [Prod.mk.injEq, Option.map_eq_some_iff] at eq
  obtain ⟨returned, processed, obj, here, label, fine⟩ := eq
  have reports := heard s (Runs.run_reached (Runs.admitted_of_all (fun _ _ => trivial) _) ran)
  refine reports 1 ?_ obj here ?_ fine
  · rw [returned]
    exact List.mem_cons_self
  · rw [processed, label]
    exact List.mem_cons_self

end SaceManager
end Sace
