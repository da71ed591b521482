import Sace.Manager.Guards

/-! The command objects of a client: who holds them, and who closes their descriptors. -/
namespace Sace

namespace SaceCommandObj

def Closes (obj : SaceCommandObj) : Prop := ¬ Refused obj.mError ∧ 0 ≤ obj.fd

instance (obj : SaceCommandObj) : Decidable obj.Closes := inferInstanceAs (Decidable (_ ∧ _))

def shut (obj : SaceCommandObj) (fresh : SaceCommand) : ObjCall SaceCommandObj := do
  Traced.emit (.fsync obj.fd)
  Traced.emit (.close obj.fd)
  excuteThrough obj.sender (obj.closeCommand fresh)
  return { obj with fd := -1 }

def setError (obj : SaceCommandObj) (code : ErrorCode) : SaceCommandObj :=
  { obj with mError := code }

theorem close_phases (obj : SaceCommandObj) (fresh : SaceCommand) (mRlt : SaceResult) :
    obj.close fresh mRlt =
      if obj.Closes then do
        let obj ← obj.shut fresh
        Traced.emit (.callback .normal obj.label)
        return obj.setError (resultToError mRlt.resultStatus)
      else pure obj := by
  by_cases refused : Refused obj.mError
  · have quiet : ¬ obj.Closes := fun closes => closes.1 refused
    rw [if_neg quiet]
    exact if_pos refused
  by_cases negative : obj.fd < 0
  · have quiet : ¬ obj.Closes := fun closes => absurd closes.2 (Int.not_le.mpr negative)
    rw [if_neg quiet]
    exact (if_neg refused).trans (if_pos negative)
  · rw [if_pos ⟨refused, Int.not_lt.mp negative⟩, shut]
    simp only [Traced.bind_assoc, Traced.pure_then]
    exact (if_neg refused).trans (if_neg negative)

end SaceCommandObj

/-- SaceManager with the objects of runCommand, by number. `fresh` are not in `mCommands` yet;
`held` are the references of the callers. In calls of close the objects in `checked` have passed
the tests, those in `closing` wait for the answer, and for those in `leaving` the callback is
still to come. `heard` are the objects that a response has reached, `gone` the destroyed ones. -/
structure SaceManager.Commands where
  mCommands : Table UInt64 Nat := ∅
  objs : List SaceCommandObj := []
  fresh : List Nat := []
  held : List Nat := []
  checked : List Nat := []
  closing : List Nat := []
  leaving : List Nat := []
  heard : List Nat := []
  gone : List Nat := []
  log : List (Nat × ObjEffect) := []

namespace SaceManager.Commands
open SaceCommandObj

inductive Input where
  | run (m : Caller) (cmd : Str) (param : Option ParamsObject) (in_ : Bool) (memory : Int × Bool)
  | register (i : Nat)
  | copy (i : Nat)
  | drop (i : Nat)
  | read (i : Nat) (len : Nat)
  | write (i : Nat) (buf : Bytes)
  | close (i : Nat)
  | shut (i : Nat) (fresh : SaceCommand)
  | answered (i : Nat) (mRlt : SaceResult)
  | callback (i : Nat)
  | onResponse (response : SaceStatusResponse)
  | destroy (i : Nat) (fresh : SaceCommand) (mRlt : SaceResult)

def called (s : Commands) (i : Nat) (call : ObjCall SaceCommandObj) : Option Commands :=
  call.value.map fun obj =>
    { s with objs := s.objs.set i obj, log := s.log ++ call.trace.map fun effect => (i, effect) }

def Unreferenced (s : Commands) (i : Nat) (obj : SaceCommandObj) : Prop :=
  (i ∉ s.fresh ∧ i ∉ s.held ∧ i ∉ s.checked ∧ i ∉ s.closing ∧ i ∉ s.leaving) ∧
    s.mCommands[obj.label]? ≠ some i ∧ i ∉ s.gone

instance (s : Commands) (i : Nat) (obj : SaceCommandObj) : Decidable (s.Unreferenced i obj) :=
  inferInstanceAs (Decidable (_ ∧ _))

def forget (s : Commands) (effects : List ObjEffect) : Commands :=
  { s with mCommands := effects.foldl (fun mCommands effect =>
      match effect with
      | .callback _ label => mCommands.erase label
      | _ => mCommands) s.mCommands }

/-- The sections between two uses of a mutex or of the connection. The destructor is a call of
close that nobody else can see. -/
def step (s : Commands) : Input → Option Commands
  | .run m cmd param in_ memory =>
    let cmdObj := m.runCommand cmd param in_ memory
    let s' := { s with objs := s.objs ++ [cmdObj] }
    some (if cmdObj.sender then { s' with fresh := s.objs.length :: s.fresh }
      else { s' with held := s.objs.length :: s.held })
  | .register i => do
    let cmdObj ← s.objs[i]?
    if i ∈ s.fresh then
      some { s with
        mCommands := s.mCommands.insertIfNew cmdObj.label i
        fresh := s.fresh.erase i
        held := i :: s.held }
    else none
  | .copy i => if i ∈ s.held then some { s with held := i :: s.held } else none
  | .drop i => if i ∈ s.held then some { s with held := s.held.erase i } else none
  | .read i len => do
    let cmdObj ← s.objs[i]?
    if i ∈ s.held then s.called i (cmdObj.operate (.read len)) else none
  | .write i buf => do
    let cmdObj ← s.objs[i]?
    if i ∈ s.held then s.called i (cmdObj.operate (.write buf)) else none
  | .close i => do
    let cmdObj ← s.objs[i]?
    if i ∈ s.held then
      some (if cmdObj.Closes then { s with checked := i :: s.checked } else s)
    else none
  | .shut i fresh => do
    let cmdObj ← s.objs[i]?
    if i ∈ s.checked then
      Commands.called { s with checked := s.checked.erase i, closing := i :: s.closing } i
        (cmdObj.shut fresh)
    else none
  | .answered i mRlt =>
    if i ∈ s.closing then
      some { s with
        objs := s.objs.modify i fun cmdObj => cmdObj.setError (resultToError mRlt.resultStatus)
        closing := s.closing.erase i
        leaving := i :: s.leaving }
    else none
  | .callback i => do
    let cmdObj ← s.objs[i]?
    if i ∈ s.leaving then
      some { s with
        mCommands := s.mCommands.erase cmdObj.label
        leaving := s.leaving.erase i
        log := s.log ++ [(i, .callback .normal cmdObj.label)] }
    else none
  | .onResponse response =>
    if response.type = .normal then
      match s.mCommands[response.label]? with
      | none => some s
      | some i =>
        some { s with
          objs := s.objs.modify i fun cmdObj =>
            cmdObj.setError (responseToError response.status)
          mCommands := s.mCommands.erase response.label
          heard := i :: s.heard }
    else some s
  | .destroy i fresh mRlt => do
    let cmdObj ← s.objs[i]?
    let call := cmdObj.close fresh mRlt
    if s.Unreferenced i cmdObj then
      (Commands.called { s with gone := i :: s.gone } i call).map (·.forget call.trace)
    else none

/-- A START that succeeds brings a descriptor and a label that no other command has had; two
threads do not close one object at the same time. -/
def Provided (s : Commands) : Input → Prop
  | .run m cmd param in_ memory =>
    let cmdObj := m.runCommand cmd param in_ memory
    cmdObj.sender = true → 0 ≤ cmdObj.fd ∧
      ∀ other ∈ s.objs, other.sender = true → other.label ≠ cmdObj.label
  | .close i => i ∉ s.checked
  | _ => True

instance (s : Commands) : DecidablePred s.Provided := fun
  | .run .. => inferInstanceAs (Decidable (_ → _ ∧ ∀ other ∈ s.objs, _ → _))
  | .close _ => inferInstanceAs (Decidable (¬ _))
  | .register _ | .copy _ | .drop _ | .read .. | .write .. | .shut .. | .answered .. | .callback _
  | .onResponse _ | .destroy .. => .isTrue trivial

/-! ### Descriptors -/

end SaceManager.Commands

def ObjEffect.ends (told : Bool) : ObjEffect → Bool
  | .close _ => !told
  | .excute _ => told
  | _ => false

namespace SaceManager.Commands
open SaceCommandObj

def times (s : Commands) (told : Bool) (i : Nat) : Nat :=
  s.log.countP fun entry => entry.1 = i && entry.2.ends told

/-- Every object of a successful START is in the hands of `mCommands` while its descriptor is
open, unless a response has come for it. -/
structure Kept (s : Commands) : Prop where
  labels : ∀ (i j : Nat) obj other, s.objs[i]? = some obj → s.objs[j]? = some other →
    obj.sender = true → other.sender = true → obj.label = other.label → i = j
  entries : ∀ (l : UInt64) (i : Nat), s.mCommands[l]? = some i →
    i ∉ s.fresh ∧ ∃ obj, s.objs[i]? = some obj ∧ obj.sender = true ∧ obj.label = l
  distinct : s.fresh.Nodup
  fresh : ∀ i ∈ s.fresh, ∃ obj, s.objs[i]? = some obj ∧ obj.sender = true
  once : s.checked.Nodup
  checked : ∀ i ∈ s.checked, ∃ obj, s.objs[i]? = some obj ∧ 0 ≤ obj.fd
  ended : ∀ i, i ∈ s.closing ∨ i ∈ s.leaving →
    ∃ obj, s.objs[i]? = some obj ∧ obj.sender = true ∧ obj.fd < 0
  listed : ∀ (i : Nat) obj, s.objs[i]? = some obj → obj.sender = true → 0 ≤ obj.fd →
    i ∈ s.fresh ∨ s.mCommands[obj.label]? = some i ∨ i ∈ s.heard
  heard : ∀ i ∈ s.heard, ∃ obj, s.objs[i]? = some obj ∧ (obj.fd < 0 ∨ Refused obj.mError)
  gone : ∀ i ∈ s.gone, ∃ obj, s.objs[i]? = some obj ∧
    (obj.sender = true → 0 ≤ obj.fd → i ∈ s.heard)
  failed : ∀ (i : Nat) obj, s.objs[i]? = some obj → obj.sender = false →
    Refused obj.mError ∨ obj.mError = .timeout
  log : ∀ entry ∈ s.log, entry.1 < s.objs.length
  ends : ∀ (told : Bool) (i : Nat) obj, s.objs[i]? = some obj → obj.sender = true →
    s.times told i = if obj.fd < 0 then 1 else 0

section
variable {s t : Commands} {i : Nat}

theorem kept_start : Kept {} where
  labels _ _ _ _ none := nomatch none
  entries l i none := by simp at none
  distinct := .nil
  fresh _ none := nomatch none
  once := .nil
  checked _ none := nomatch none
  ended _ none := by simp at none
  listed _ _ none := nomatch none
  heard _ none := nomatch none
  gone _ none := nomatch none
  failed _ _ none := nomatch none
  log _ none := nomatch none
  ends _ _ _ none := nomatch none

theorem concat_some {objs : List SaceCommandObj} {new obj : SaceCommandObj} {i : Nat}
    (held : (objs ++ [new])[i]? = some obj) :
    objs[i]? = some obj ∨ i = objs.length ∧ obj = new := by
  rw [List.getElem?_append] at held
  split at held
  · exact .inl held
  · rename_i outside
    obtain ⟨here, same⟩ := List.getElem?_eq_some_iff.mp held
    have last : i - objs.length = 0 := by simpa using here
    exact .inr ⟨by omega, by simpa [last] using same.symm⟩

theorem old_some {objs : List SaceCommandObj} {obj : SaceCommandObj} {i : Nat}
    (held : objs[i]? = some obj) (new : SaceCommandObj) : (objs ++ [new])[i]? = some obj := by
  rw [List.getElem?_append_left (List.getElem?_eq_some_iff.mp held).1]
  exact held

theorem concat_exists {objs : List SaceCommandObj} {P : SaceCommandObj → Prop} {i : Nat}
    (held : ∃ obj, objs[i]? = some obj ∧ P obj) (new : SaceCommandObj) :
    ∃ obj, (objs ++ [new])[i]? = some obj ∧ P obj := by
  obtain ⟨obj, held, property⟩ := held
  exact ⟨obj, old_some held new, property⟩

theorem concat_labels (kept : Kept s) {new : SaceCommandObj}
    (unique : new.sender = true → ∀ other ∈ s.objs, other.sender = true →
      other.label ≠ new.label) {i j : Nat} {obj other : SaceCommandObj}
    (here : (s.objs ++ [new])[i]? = some obj) (there : (s.objs ++ [new])[j]? = some other)
    (real : obj.sender = true) (also : other.sender = true) (same : obj.label = other.label) :
    i = j := by
  rcases concat_some here with first | ⟨rfl, rfl⟩
  · rcases concat_some there with second | ⟨rfl, rfl⟩
    · exact kept.labels i j obj other first second real also same
    · exact absurd same (unique also obj (List.mem_of_getElem? first) real)
  · rcases concat_some there with second | ⟨rfl, rfl⟩
    · exact absurd same.symm (unique real other (List.mem_of_getElem? second) also)
    · rfl

/-- An object that has just been made has done nothing. -/
theorem Kept.unused (kept : Kept s) (told : Bool) : s.times told s.objs.length = 0 := by
  refine List.countP_eq_zero.mpr fun entry member => ?_
  simp [Nat.ne_of_lt (kept.log entry member)]

theorem Kept.failed_run (kept : Kept s) {new : SaceCommandObj}
    (error : new.sender = false → Refused new.mError ∨ new.mError = .timeout)
    (unreal : new.sender = false) (held : List Nat) :
    Kept { s with objs := s.objs ++ [new], held } where
  labels i j obj other here there :=
    concat_labels kept (fun real => absurd (unreal.symm.trans real) Bool.false_ne_true) here there
  entries l i entry := (kept.entries l i entry).imp_right fun held => concat_exists held new
  distinct := kept.distinct
  fresh i member := concat_exists (kept.fresh i member) new
  once := kept.once
  checked i member := concat_exists (kept.checked i member) new
  ended i member := concat_exists (kept.ended i member) new
  listed i obj found real open_ := by
    rcases concat_some found with found | ⟨_, rfl⟩
    · exact kept.listed i obj found real open_
    · exact absurd (unreal.symm.trans real) Bool.false_ne_true
  heard i member := concat_exists (kept.heard i member) new
  gone i member := concat_exists (kept.gone i member) new
  failed i obj found other := by
    rcases concat_some found with found | ⟨_, rfl⟩
    · exact kept.failed i obj found other
    · exact error other
  log entry member := by
    rw [List.length_append]
    exact Nat.lt_add_right _ (kept.log entry member)
  ends told i obj found real := by
    rcases concat_some found with found | ⟨_, rfl⟩
    · exact kept.ends told i obj found real
    · exact absurd (unreal.symm.trans real) Bool.false_ne_true

theorem Kept.started_run (kept : Kept s) {new : SaceCommandObj} (real : new.sender = true)
    (open_ : 0 ≤ new.fd)
    (unique : ∀ other ∈ s.objs, other.sender = true → other.label ≠ new.label) :
    Kept { s with objs := s.objs ++ [new], fresh := s.objs.length :: s.fresh } where
  labels i j obj other here there := concat_labels kept (fun _ => unique) here there
  entries l i entry := by
    obtain ⟨old, obj, held, property⟩ := kept.entries l i entry
    have apart : i ≠ s.objs.length := Nat.ne_of_lt (List.getElem?_eq_some_iff.mp held).1
    exact ⟨List.not_mem_cons_of_ne_of_not_mem apart old, concat_exists ⟨obj, held, property⟩ new⟩
  distinct := by
    refine List.nodup_cons.mpr ⟨fun member => ?_, kept.distinct⟩
    obtain ⟨obj, held, _⟩ := kept.fresh _ member
    exact absurd (List.getElem?_eq_some_iff.mp held).1 (Nat.lt_irrefl _)
  fresh i member := by
    rcases List.mem_cons.mp member with rfl | old
    · exact ⟨new, List.getElem?_concat_length, real⟩
    · exact concat_exists (kept.fresh i old) new
  once := kept.once
  checked i member := concat_exists (kept.checked i member) new
  ended i member := concat_exists (kept.ended i member) new
  listed i obj found also opened := by
    rcases concat_some found with found | ⟨rfl, _⟩
    · exact (kept.listed i obj found also opened).imp_left (List.mem_cons_of_mem _)
    · exact .inl List.mem_cons_self
  heard i member := concat_exists (kept.heard i member) new
  gone i member := concat_exists (kept.gone i member) new
  failed i obj found other := by
    rcases concat_some found with found | ⟨_, rfl⟩
    · exact kept.failed i obj found other
    · exact absurd (other.symm.trans real) Bool.false_ne_true
  log entry member := by
    rw [List.length_append]
    exact Nat.lt_add_right _ (kept.log entry member)
  ends told i obj found also := by
    rcases concat_some found with found | ⟨rfl, rfl⟩
    · exact kept.ends told i obj found also
    · rw [if_neg (Int.not_lt.mpr open_)]
      exact kept.unused told

theorem Kept.run (kept : Kept s) {m : Caller} {cmd : Str} {param : Option ParamsObject}
    {in_ : Bool} {memory : Int × Bool} (provided : s.Provided (.run m cmd param in_ memory))
    (moved : s.step (.run m cmd param in_ memory) = some t) : Kept t := by
  have error := @runCommand_error m cmd param in_ memory
  simp only [step, Option.some.injEq] at moved
  simp only [Provided] at provided
  generalize m.runCommand cmd param in_ memory = new at provided moved error
  cases sender : new.sender with
  | false =>
    rw [sender, if_neg Bool.false_ne_true] at moved
    exact moved ▸ kept.failed_run error sender _
  | true =>
    rw [sender, if_pos rfl] at moved
    obtain ⟨open_, unique⟩ := provided sender
    exact moved ▸ kept.started_run sender open_ unique

theorem modify_some {objs : List SaceCommandObj} {f : SaceCommandObj → SaceCommandObj}
    {i j : Nat} {obj : SaceCommandObj} (held : (objs.modify i f)[j]? = some obj) :
    ∃ old, objs[j]? = some old ∧ obj = if i = j then f old else old := by
  simp only [List.getElem?_modify, Option.map_eq_map, Option.map_eq_some_iff] at held
  obtain ⟨old, there, same⟩ := held
  exact ⟨old, there, same.symm⟩

theorem modified {objs : List SaceCommandObj} {j : Nat} {obj : SaceCommandObj}
    (held : objs[j]? = some obj) (i : Nat) (f : SaceCommandObj → SaceCommandObj) :
    (objs.modify i f)[j]? = some (if i = j then f obj else obj) := by
  rw [List.getElem?_modify, held]
  rfl

/-- A new error for an object that is closed, or one that all calls refuse. -/
theorem Kept.setError (kept : Kept s) (i : Nat) (code : ErrorCode)
    (started : ∃ obj, s.objs[i]? = some obj ∧ obj.sender = true)
    (harmless : (∃ obj, s.objs[i]? = some obj ∧ obj.fd < 0) ∨ Refused code) :
    Kept { s with objs := s.objs.modify i fun cmdObj => cmdObj.setError code } := by
  have shape (obj : SaceCommandObj) (j : Nat) :
      let new := if i = j then obj.setError code else obj
      new.label = obj.label ∧ new.sender = obj.sender ∧ new.fd = obj.fd := by
    dsimp only
    split <;> exact ⟨rfl, rfl, rfl⟩
  have size : (s.objs.modify i fun cmdObj => cmdObj.setError code).length = s.objs.length :=
    List.length_modify ..
  constructor
  · intro j k obj other here there real also same
    obtain ⟨obj, first, rfl⟩ := modify_some here
    obtain ⟨other, second, rfl⟩ := modify_some there
    rw [(shape _ _).2.1] at real also
    rw [(shape _ _).1, (shape _ _).1] at same
    exact kept.labels j k obj other first second real also same
  · intro l j entry
    obtain ⟨old, obj, held, real, label⟩ := kept.entries l j entry
    exact ⟨old, _, modified held i _, (shape obj j).2.1.trans real, (shape obj j).1.trans label⟩
  · exact kept.distinct
  · intro j member
    obtain ⟨obj, held, real⟩ := kept.fresh j member
    exact ⟨_, modified held i _, (shape obj j).2.1.trans real⟩
  · exact kept.once
  · intro j member
    obtain ⟨obj, held, open_⟩ := kept.checked j member
    exact ⟨_, modified held i _, (shape obj j).2.2 ▸ open_⟩
  · intro j member
    obtain ⟨obj, held, real, closed⟩ := kept.ended j member
    exact ⟨_, modified held i _, (shape obj j).2.1.trans real, (shape obj j).2.2 ▸ closed⟩
  · intro j obj held real open_
    obtain ⟨obj, before, rfl⟩ := modify_some held
    rw [(shape _ _).2.1] at real
    rw [(shape _ _).2.2] at open_
    rw [(shape _ _).1]
    exact kept.listed j obj before real open_
  · intro j member
    obtain ⟨obj, held, quiet⟩ := kept.heard j member
    refine ⟨_, modified held i _, ?_⟩
    by_cases here : i = j
    · subst here
      rw [if_pos rfl]
      rcases harmless with ⟨other, there, closed⟩ | refused
      · cases held.symm.trans there
        exact .inl closed
      · exact .inr refused
    · rw [if_neg here]
      exact quiet
  · intro j member
    obtain ⟨obj, held, noted⟩ := kept.gone j member
    refine ⟨_, modified held i _, fun real open_ => noted ?_ ?_⟩
    · exact (shape obj j).2.1.symm.trans real
    · exact (shape obj j).2.2 ▸ open_
  · intro j obj held other
    obtain ⟨obj, before, rfl⟩ := modify_some held
    rw [(shape _ _).2.1] at other
    have apart : i ≠ j := by
      rintro rfl
      obtain ⟨_, there, real⟩ := started
      cases before.symm.trans there
      exact Bool.false_ne_true (other.symm.trans real)
    rw [if_neg apart]
    exact kept.failed j obj before other
  · exact fun entry member => size ▸ kept.log entry member
  · intro told j obj held real
    obtain ⟨obj, before, rfl⟩ := modify_some held
    rw [(shape _ _).2.1] at real
    rw [(shape _ _).2.2]
    exact kept.ends told j obj before real

/-- The one object under a label. -/
theorem Kept.owner (kept : Kept s) {l : UInt64} {i j : Nat} {obj : SaceCommandObj}
    (entry : s.mCommands[l]? = some i) (held : s.objs[j]? = some obj) (real : obj.sender = true)
    (label : obj.label = l) : j = i := by
  obtain ⟨_, other, there, also, same⟩ := kept.entries l i entry
  exact kept.labels j i obj other held there real also (label.trans same.symm)

theorem responseToError_refused (status : SaceResponseStatus) :
    Refused (responseToError status) := by
  unfold responseToError
  split
  · exact .inl rfl
  · split
    · exact .inr (.inl rfl)
    · exact .inr (.inr rfl)

theorem Kept.onResponse (kept : Kept s) {response : SaceStatusResponse}
    (moved : s.step (.onResponse response) = some t) : Kept t := by
  simp only [step] at moved
  split at moved
  · split at moved
    · cases moved
      exact kept
    · rename_i i entry
      cases moved
      obtain ⟨_, started, there, real, _⟩ := kept.entries _ i entry
      have told := kept.setError i _ ⟨started, there, real⟩
        (.inr (responseToError_refused response.status))
      have known : ∃ obj, (s.objs.modify i fun cmdObj =>
          cmdObj.setError (responseToError response.status))[i]? = some obj ∧
            Refused obj.mError := by
        obtain ⟨_, obj, held, _⟩ := kept.entries _ i entry
        refine ⟨_, modified held i _, ?_⟩
        rw [if_pos rfl]
        exact responseToError_refused response.status
      refine ⟨told.labels, fun l j there => ?_, told.distinct, told.fresh, told.once, told.checked,
        told.ended, fun j obj held real open_ => ?_, fun j member => ?_, fun j member => ?_,
        told.failed, told.log, told.ends⟩
      · exact told.entries l j ((Table.erase_some ..).mp there).2
      · rcases told.listed j obj held real open_ with fresh | listed | heard
        · exact .inl fresh
        · by_cases here : response.label = obj.label
          · have same := told.owner entry held real here.symm
            exact .inr (.inr (same ▸ List.mem_cons_self))
          · exact .inr (.inl ((Table.erase_some ..).mpr ⟨here, listed⟩))
        · exact .inr (.inr (List.mem_cons_of_mem _ heard))
      · rcases List.mem_cons.mp member with rfl | old
        · obtain ⟨obj, held, refused⟩ := known
          exact ⟨obj, held, .inr refused⟩
        · exact told.heard j old
      · obtain ⟨obj, held, noted⟩ := told.gone j member
        exact ⟨obj, held, fun real open_ => List.mem_cons_of_mem _ (noted real open_)⟩
  · cases moved
    exact kept

theorem Kept.answered (kept : Kept s) {mRlt : SaceResult}
    (moved : s.step (.answered i mRlt) = some t) : Kept t := by
  simp only [step] at moved
  split at moved
  · rename_i closing
    cases moved
    obtain ⟨obj, held, real, closed⟩ := kept.ended i (.inl closing)
    have told := kept.setError i (resultToError mRlt.resultStatus) ⟨obj, held, real⟩
      (.inl ⟨obj, held, closed⟩)
    refine ⟨told.labels, told.entries, told.distinct, told.fresh, told.once, told.checked,
      fun j member => told.ended j ?_, told.listed, told.heard, told.gone, told.failed, told.log,
      told.ends⟩
    rcases member with closing' | leaving
    · exact .inl (List.mem_of_mem_erase closing')
    · rcases List.mem_cons.mp leaving with rfl | old
      · exact .inl closing
      · exact .inr old
  · cases moved

/-- An entry in the log that ends nothing. -/
theorem Kept.noted (kept : Kept s) {obj : SaceCommandObj} (held : s.objs[i]? = some obj)
    (effects : List ObjEffect) (other : ∀ effect ∈ effects, ∀ told, effect.ends told = false) :
    Kept { s with log := s.log ++ effects.map fun effect => (i, effect) } := by
  refine ⟨kept.labels, kept.entries, kept.distinct, kept.fresh, kept.once, kept.checked,
    kept.ended, kept.listed, kept.heard, kept.gone, kept.failed, fun entry member => ?_,
    fun told j obj held real => ?_⟩
  · rcases List.mem_append.mp member with old | new
    · exact kept.log entry old
    · obtain ⟨effect, _, rfl⟩ := List.mem_map.mp new
      exact (List.getElem?_eq_some_iff.mp held).1
  · have none : (effects.map fun effect => (i, effect)).countP
        (fun entry => entry.1 = j && entry.2.ends told) = 0 := by
      refine List.countP_eq_zero.mpr fun entry member => ?_
      obtain ⟨effect, among, rfl⟩ := List.mem_map.mp member
      simp [other effect among told]
    rw [times, List.countP_append, none]
    exact kept.ends told j obj held real

theorem Kept.callback (kept : Kept s) (moved : s.step (.callback i) = some t) : Kept t := by
  simp only [step, Option.bind_eq_bind, Option.bind_eq_some_iff] at moved
  obtain ⟨obj, held, moved⟩ := moved
  split at moved
  · rename_i leaving
    cases moved
    obtain ⟨_, there, real, closed⟩ := kept.ended i (.inr leaving)
    cases held.symm.trans there
    have noted := kept.noted held [.callback .normal obj.label]
      fun effect member told => by cases List.mem_singleton.mp member; rfl
    refine ⟨noted.labels, fun l j entry => ?_, noted.distinct, noted.fresh, noted.once,
      noted.checked, fun j member => noted.ended j ?_, fun j other here also open_ => ?_,
      noted.heard, noted.gone, noted.failed, noted.log, noted.ends⟩
    · exact noted.entries l j ((Table.erase_some ..).mp entry).2
    · exact member.imp id List.mem_of_mem_erase
    · rcases noted.listed j other here also open_ with fresh | listed | heard
      · exact .inl fresh
      · refine .inr (.inl ((Table.erase_some ..).mpr ⟨fun same => ?_, listed⟩))
        have one := kept.labels i j obj other held here real also same
        subst one
        cases held.symm.trans here
        exact absurd open_ (Int.not_le.mpr closed)
      · exact .inr (.inr heard)
  · cases moved

theorem Kept.register (kept : Kept s) (moved : s.step (.register i) = some t) : Kept t := by
  simp only [step, Option.bind_eq_bind, Option.bind_eq_some_iff] at moved
  obtain ⟨obj, held, moved⟩ := moved
  split at moved
  · rename_i waiting
    cases moved
    obtain ⟨_, there, real⟩ := kept.fresh i waiting
    cases held.symm.trans there
    have new : s.mCommands[obj.label]? = none := by
      refine Option.eq_none_iff_forall_ne_some.mpr fun j entry => ?_
      have same := kept.owner entry held real rfl
      exact (kept.entries _ j entry).1 (same ▸ waiting)
    refine ⟨kept.labels, fun l j entry => ?_, kept.distinct.erase _, fun j member =>
      kept.fresh j (List.mem_of_mem_erase member), kept.once, kept.checked, kept.ended,
      fun j other here also open_ => ?_, kept.heard, kept.gone, kept.failed, kept.log, kept.ends⟩
    · rcases (Table.insertIfNew_some new ..).mp entry with ⟨rfl, rfl⟩ | old
      · exact ⟨kept.distinct.not_mem_erase, obj, held, real, rfl⟩
      · obtain ⟨before, rest⟩ := kept.entries l j old
        exact ⟨fun member => before (List.mem_of_mem_erase member), rest⟩
    · rcases kept.listed j other here also open_ with fresh | listed | heard
      · by_cases same : j = i
        · subst same
          cases held.symm.trans here
          exact .inr (.inl ((Table.insertIfNew_some new ..).mpr (.inl ⟨rfl, rfl⟩)))
        · exact .inl ((List.mem_erase_of_ne same).mpr fresh)
      · exact .inr (.inl ((Table.insertIfNew_some new ..).mpr (.inr listed)))
      · exact .inr (.inr heard)
  · cases moved

theorem Kept.close (kept : Kept s) (provided : s.Provided (.close i))
    (moved : s.step (.close i) = some t) : Kept t := by
  simp only [step, Option.bind_eq_bind, Option.bind_eq_some_iff] at moved
  obtain ⟨obj, held, moved⟩ := moved
  split at moved
  · split at moved
    · rename_i closes
      cases moved
      refine ⟨kept.labels, kept.entries, kept.distinct, kept.fresh,
        List.nodup_cons.mpr ⟨provided, kept.once⟩, fun j member => ?_, kept.ended, kept.listed,
        kept.heard, kept.gone, kept.failed, kept.log, kept.ends⟩
      rcases List.mem_cons.mp member with rfl | old
      · exact ⟨obj, held, closes.2⟩
      · exact kept.checked j old
    · cases moved
      exact kept
  · cases moved

theorem operate_uses (obj : SaceCommandObj) {op : Operation}
    (other : ∀ fresh mRlt, op ≠ .close fresh mRlt) :
    Traced.Every (fun effect => ∀ told, effect.ends told = false) (obj.operate op) ∧
      ∀ after, (obj.operate op).result = .ok after → after = obj := by
  cases op with
  | read len =>
    refine ⟨Traced.Every.then_pure ?_ _, fun after done => ?_⟩
    · unfold SaceCommandObj.read
      split
      · exact Traced.every_pure _
      · split
        · exact Traced.every_pure _
        · exact ((Traced.every_emit _).mpr fun _ => rfl).then_pure _
    · obtain ⟨_, _, done⟩ := Traced.bind_ok.mp done
      cases done
      rfl
  | write buf =>
    refine ⟨Traced.Every.then_pure ?_ _, fun after done => ?_⟩
    · unfold SaceCommandObj.write
      split
      · exact Traced.every_pure _
      · split
        · exact Traced.every_pure _
        · exact ((Traced.every_emit _).mpr fun _ => rfl).then_pure _
    · obtain ⟨_, _, done⟩ := Traced.bind_ok.mp done
      cases done
      rfl
  | close fresh mRlt => exact absurd rfl (other fresh mRlt)

theorem set_same {obj : SaceCommandObj} (held : s.objs[i]? = some obj) :
    s.objs.set i obj = s.objs := by
  obtain ⟨inside, rfl⟩ := List.getElem?_eq_some_iff.mp held
  exact List.set_getElem_self inside

theorem Kept.used (kept : Kept s) {obj : SaceCommandObj} {op : Operation}
    (held : s.objs[i]? = some obj) (other : ∀ fresh mRlt, op ≠ .close fresh mRlt)
    (moved : s.called i (obj.operate op) = some t) : Kept t := by
  obtain ⟨quiet, same⟩ := operate_uses obj other
  obtain ⟨after, done, rfl⟩ := Option.map_eq_some_iff.mp moved
  cases same after (Traced.value_eq_some.mp done)
  rw [set_same held]
  exact kept.noted held _ quiet

theorem shut_ok {obj after : SaceCommandObj} {fresh : SaceCommand}
    (done : (obj.shut fresh).result = .ok after) :
    obj.sender = true ∧ after = { obj with fd := -1 } ∧
      (obj.shut fresh).trace =
        [.fsync obj.fd, .close obj.fd, .excute (obj.closeCommand fresh)] := by
  unfold shut excuteThrough at done ⊢
  cases sender : obj.sender with
  | false => simp [sender, Traced.bind_def, Traced.emit, Traced.fault] at done
  | true =>
    simp [sender, Traced.bind_def, Traced.emit] at done ⊢
    exact done.symm

theorem others_none (effects : List ObjEffect) (told : Bool) {i j : Nat} (other : j ≠ i) :
    (effects.map fun effect => (i, effect)).countP
      (fun entry => entry.1 = j && entry.2.ends told) = 0 := by
  refine List.countP_eq_zero.mpr fun entry member => ?_
  obtain ⟨effect, _, rfl⟩ := List.mem_map.mp member
  simp [other.symm]

section Shut
variable {obj : SaceCommandObj}

def closed (objs : List SaceCommandObj) (i : Nat) (obj : SaceCommandObj) : List SaceCommandObj :=
  objs.set i { obj with fd := -1 }

theorem closed_self (held : s.objs[i]? = some obj) :
    (closed s.objs i obj)[i]? = some { obj with fd := -1 } :=
  List.getElem?_set_self (List.getElem?_eq_some_iff.mp held).1

theorem closed_other {j : Nat} (other : j ≠ i) :
    (closed s.objs i obj)[j]? = s.objs[j]? :=
  List.getElem?_set_ne other.symm

/-- What an object was before. -/
theorem closed_before (held : s.objs[i]? = some obj) {j : Nat} {new : SaceCommandObj}
    (found : (closed s.objs i obj)[j]? = some new) :
    ∃ old, s.objs[j]? = some old ∧ old.label = new.label ∧ old.sender = new.sender ∧
      (j ≠ i ∧ old = new ∨ j = i ∧ new.fd < 0) := by
  by_cases here : j = i
  · subst here
    cases (closed_self held).symm.trans found
    exact ⟨obj, held, rfl, rfl, .inr ⟨rfl, Int.negSucc_lt_zero 0⟩⟩
  · exact ⟨new, (closed_other here).symm.trans found, rfl, rfl, .inl ⟨here, rfl⟩⟩

theorem closed_still (held : s.objs[i]? = some obj) {j : Nat} {P : SaceCommandObj → Prop}
    (new : P { obj with fd := -1 }) (old : ∃ obj, s.objs[j]? = some obj ∧ P obj) :
    ∃ obj', (closed s.objs i obj)[j]? = some obj' ∧ P obj' := by
  by_cases here : j = i
  · subst here
    exact ⟨_, closed_self held, new⟩
  · obtain ⟨other, found, property⟩ := old
    exact ⟨other, (closed_other here).trans found, property⟩

/-- The one CLOSE of the object and the one time that its descriptor is closed. -/
theorem Kept.shut_ends (kept : Kept s) (held : s.objs[i]? = some obj) (real : obj.sender = true)
    (open_ : 0 ≤ obj.fd) (command : SaceCommand) (told : Bool) {j : Nat} {new : SaceCommandObj}
    (found : (closed s.objs i obj)[j]? = some new) (also : new.sender = true) :
    (s.log ++ [ObjEffect.fsync obj.fd, .close obj.fd, .excute command].map
        fun effect => (i, effect)).countP (fun entry => entry.1 = j && entry.2.ends told) =
      if new.fd < 0 then 1 else 0 := by
  rw [List.countP_append]
  by_cases here : j = i
  · subst here
    cases (closed_self held).symm.trans found
    have none := kept.ends told j obj held real
    have negative : (-1 : Int) < 0 := Int.negSucc_lt_zero 0
    rw [if_neg (Int.not_lt.mpr open_)] at none
    rw [show List.countP _ s.log = s.times told j from rfl, none, if_pos negative]
    cases told <;> simp [ObjEffect.ends]
  · rw [others_none _ told here]
    exact kept.ends told j new ((closed_other here).symm.trans found) also

theorem Kept.shut (kept : Kept s) {fresh : SaceCommand}
    (moved : s.step (.shut i fresh) = some t) : Kept t := by
  simp only [step, Option.bind_eq_bind, Option.bind_eq_some_iff] at moved
  obtain ⟨obj, held, moved⟩ := moved
  split at moved
  swap
  · cases moved
  rename_i checked
  obtain ⟨after, done, rfl⟩ := Option.map_eq_some_iff.mp moved
  obtain ⟨real, rfl, trace⟩ := shut_ok (Traced.value_eq_some.mp done)
  obtain ⟨_, there, open_⟩ := kept.checked i checked
  cases held.symm.trans there
  rw [trace]
  have negative : (-1 : Int) < 0 := Int.negSucc_lt_zero 0
  constructor
  · intro j k one two here there real also same
    obtain ⟨one', first, label, sender, _⟩ := closed_before held here
    obtain ⟨two', second, label', sender', _⟩ := closed_before held there
    exact kept.labels j k one' two' first second (sender.trans real) (sender'.trans also)
      (label.trans (same.trans label'.symm))
  · intro l j entry
    obtain ⟨old, other, found, also, label⟩ := kept.entries l j entry
    refine ⟨old, ?_⟩
    by_cases here : j = i
    · subst here
      cases held.symm.trans found
      exact ⟨_, closed_self held, also, label⟩
    · exact ⟨other, (closed_other here).trans found, also, label⟩
  · exact kept.distinct
  · exact fun j member => closed_still held real (kept.fresh j member)
  · exact kept.once.erase _
  · intro j member
    have other : j ≠ i := by
      rintro rfl
      exact kept.once.not_mem_erase member
    obtain ⟨old, found, open_⟩ := kept.checked j (List.mem_of_mem_erase member)
    exact ⟨old, (closed_other other).trans found, open_⟩
  · intro j member
    by_cases here : j = i
    · subst here
      exact ⟨_, closed_self held, real, negative⟩
    · refine closed_still held ⟨real, negative⟩ (kept.ended j (member.imp (fun closing => ?_) id))
      exact (List.mem_cons.mp closing).resolve_left here
  · intro j new found also open_
    obtain ⟨old, held', label, sender, ⟨_, rfl⟩ | ⟨_, closed⟩⟩ := closed_before held found
    · exact kept.listed j old held' also open_
    · exact absurd open_ (Int.not_le.mpr closed)
  · exact fun j member => closed_still held (.inl negative) (kept.heard j member)
  · intro j member
    exact closed_still held (fun _ open_ => absurd open_ (Int.not_le.mpr negative))
      (kept.gone j member)
  · intro j new found other
    obtain ⟨old, held', label, sender, ⟨_, rfl⟩ | ⟨rfl, _⟩⟩ := closed_before held found
    · exact kept.failed j old held' other
    · cases held.symm.trans held'
      exact absurd (other.symm.trans (sender.symm.trans real)) Bool.false_ne_true
  · intro entry member
    rw [List.length_set]
    rcases List.mem_append.mp member with old | new
    · exact kept.log entry old
    · obtain ⟨effect, _, rfl⟩ := List.mem_map.mp new
      exact (List.getElem?_eq_some_iff.mp held).1
  · exact fun told j new found also => kept.shut_ends held real open_ _ told found also

end Shut

/-- Of the objects that nobody refers to, only one of a START that timed out is not quiet. -/
theorem Kept.destroyed_closes (kept : Kept s) {obj : SaceCommandObj}
    (held : s.objs[i]? = some obj) (unreferenced : s.Unreferenced i obj) :
    obj.Closes ↔ obj.sender = false ∧ obj.mError = .timeout ∧ 0 ≤ obj.fd := by
  constructor
  · intro closes
    have error : obj.sender = false := by
      by_contra real
      rw [Bool.not_eq_false] at real
      rcases kept.listed i obj held real closes.2 with fresh | listed | heard
      · exact unreferenced.1.1 fresh
      · exact unreferenced.2.1 listed
      · obtain ⟨_, there, other⟩ := kept.heard i heard
        cases held.symm.trans there
        rcases other with closed | refused
        · exact absurd closes.2 (Int.not_le.mpr closed)
        · exact closes.1 refused
    exact ⟨error, (kept.failed i obj held error).resolve_left closes.1, closes.2⟩
  · rintro ⟨_, late, open_⟩
    exact ⟨by simp [Refused, late], open_⟩

theorem destroy_step {obj : SaceCommandObj} (held : s.objs[i]? = some obj)
    (unreferenced : s.Unreferenced i obj) (quiet : ¬ obj.Closes) (fresh : SaceCommand)
    (mRlt : SaceResult) :
    s.step (.destroy i fresh mRlt) = some { s with gone := i :: s.gone } := by
  have silent : obj.close fresh mRlt = pure obj := by rw [close_phases, if_neg quiet]
  simp only [step, held, Option.bind_eq_bind, Option.bind_some, if_pos unreferenced, silent]
  simp [called, forget, set_same held, Traced.value, Except.toOption]

theorem close_null {obj : SaceCommandObj} (closes : obj.Closes) (error : obj.sender = false)
    (fresh : SaceCommand) (mRlt : SaceResult) : obj.close fresh mRlt =
      ⟨[.fsync obj.fd, .close obj.fd, .excute (obj.closeCommand fresh)], .error .nullPointer⟩ := by
  rw [close_phases, if_pos closes, shut, excuteThrough, error]
  rfl

theorem destroy_quiet (kept : Kept s) {fresh : SaceCommand} {mRlt : SaceResult}
    (moved : s.step (.destroy i fresh mRlt) = some t) :
    ∃ obj, s.objs[i]? = some obj ∧ s.Unreferenced i obj ∧ t = { s with gone := i :: s.gone } := by
  have stepped := moved
  simp only [step, Option.bind_eq_bind, Option.bind_eq_some_iff] at moved
  obtain ⟨obj, held, moved⟩ := moved
  split at moved
  swap
  · cases moved
  rename_i unreferenced
  refine ⟨obj, held, unreferenced, ?_⟩
  by_cases closes : obj.Closes
  · have error := ((kept.destroyed_closes held unreferenced).mp closes).1
    rw [close_null closes error] at moved
    cases moved
  · rw [destroy_step held unreferenced closes, Option.some.injEq] at stepped
    exact stepped.symm

theorem Kept.destroy (kept : Kept s) {fresh : SaceCommand} {mRlt : SaceResult}
    (moved : s.step (.destroy i fresh mRlt) = some t) : Kept t := by
  obtain ⟨obj, held, unreferenced, rfl⟩ := destroy_quiet kept moved
  refine ⟨kept.labels, kept.entries, kept.distinct, kept.fresh, kept.once, kept.checked,
    kept.ended, kept.listed, kept.heard, fun j member => ?_, kept.failed, kept.log, kept.ends⟩
  rcases List.mem_cons.mp member with rfl | old
  · refine ⟨obj, held, fun real open_ => ?_⟩
    rcases kept.listed j obj held real open_ with fresh | listed | heard
    · exact absurd fresh unreferenced.1.1
    · exact absurd listed unreferenced.2.1
    · exact heard
  · exact kept.gone j old

theorem Kept.step (kept : Kept s) {input : Input} (provided : s.Provided input)
    (moved : s.step input = some t) : Kept t := by
  cases input with
  | run m cmd param in_ memory => exact kept.run provided moved
  | register i => exact kept.register moved
  | copy i | drop i =>
    simp only [Commands.step] at moved
    split at moved
    · cases moved
      exact ⟨kept.labels, kept.entries, kept.distinct, kept.fresh, kept.once, kept.checked,
        kept.ended, kept.listed, kept.heard, kept.gone, kept.failed, kept.log, kept.ends⟩
    · cases moved
  | read i len | write i buf =>
    simp only [Commands.step, Option.bind_eq_bind, Option.bind_eq_some_iff] at moved
    obtain ⟨obj, held, moved⟩ := moved
    split at moved
    · exact kept.used held (fun _ _ no => by cases no) moved
    · cases moved
  | close i => exact kept.close provided moved
  | shut i fresh => exact kept.shut moved
  | answered i mRlt => exact kept.answered moved
  | callback i => exact kept.callback moved
  | onResponse response => exact kept.onResponse moved
  | destroy i fresh mRlt => exact kept.destroy moved

/-- The descriptor of a successful START is closed once at most, with one CLOSE to the server,
and by a call of close. A destroyed object whose descriptor is still open is one that a response
has reached before it was closed, and close refuses it from then on. Destroying an object does
nothing, unless its START has timed out and its memory holds a descriptor: this one is closed,
whosever it is, and then the sender is missing. -/
theorem reached_accounted (reached : Runs.Reached Commands.step Provided {} s) :
    (∀ (i : Nat) obj, s.objs[i]? = some obj → obj.sender = true →
      (∀ told, s.times told i = if obj.fd < 0 then 1 else 0) ∧
        (i ∈ s.gone → 0 ≤ obj.fd → i ∈ s.heard ∧ Refused obj.mError)) ∧
      ∀ (i : Nat) obj fresh mRlt, s.objs[i]? = some obj → s.Unreferenced i obj →
        if obj.sender = false ∧ obj.mError = .timeout ∧ 0 ≤ obj.fd then
          obj.close fresh mRlt = ⟨[.fsync obj.fd, .close obj.fd,
            .excute (obj.closeCommand fresh)], .error .nullPointer⟩
        else s.step (.destroy i fresh mRlt) = some { s with gone := i :: s.gone } := by
  have kept : Kept s := reached.invariant kept_start
    fun _ _ _ kept provided moved => kept.step provided moved
  refine ⟨fun i obj held real => ⟨fun told => kept.ends told i obj held real,
    fun destroyed open_ => ?_⟩, fun i obj fresh mRlt held unreferenced => ?_⟩
  · obtain ⟨_, there, noted⟩ := kept.gone i destroyed
    cases held.symm.trans there
    have heard := noted real open_
    obtain ⟨_, there, other⟩ := kept.heard i heard
    cases held.symm.trans there
    exact ⟨heard, other.resolve_left (Int.not_lt.mpr open_)⟩
  · have closes := kept.destroyed_closes held unreferenced
    split
    · rename_i late
      exact close_null (closes.mpr late) late.1 fresh mRlt
    · rename_i quiet
      exact destroy_step held unreferenced (mt closes.mp quiet) fresh mRlt

/-! A command that the server ends before its owner has closed it, and one whose START is not
answered in time. -/

def startsCommand : Caller :=
  { Caller.refused with excuteCommand := fun cmd =>
      { initialResult cmd with
        resultStatus := .ok, resultType := .fd, label := sequenceToLabel 7 16,
        resultFd := some 5 } }

def timesOut : Caller :=
  { Caller.refused with excuteCommand := fun _ => { resultStatus := .timeout } }

def started : List Input :=
  [.run startsCommand (str "id") none true (-1, false), .register 0]

def leaves : List Input :=
  started ++ [.read 0 16, .run timesOut (str "id") none true (5, true), .drop 1, .onResponse
    { type := .normal, label := sequenceToLabel 7 16, status := .signal }, .drop 0,
    .destroy 0 (.init (str "200:200") 8) {}]

theorem leaves_open : ∃ s : Commands, Runs.run step {} leaves = some s ∧
    (∃ obj, s.objs[0]? = some obj ∧ obj.fd = 5 ∧ s.times false 0 = 0 ∧ 0 ∈ s.heard) ∧
    ∃ obj, s.objs[1]? = some obj ∧ ∀ fresh mRlt, .close 5 ∈ (obj.close fresh mRlt).trace := by
  have admitted : Runs.Admitted step Provided {} leaves := by decide +kernel
  have some_ : (Runs.run step {} leaves).isSome = true := by decide +kernel
  obtain ⟨s, ran⟩ := Option.isSome_iff_exists.mp some_
  have first : (Runs.run step {} leaves).bind (fun s => s.objs[0]?.map fun obj =>
      decide (obj.sender = true ∧ obj.fd = 5 ∧ 0 ∈ s.gone)) = some true := by decide +kernel
  have second : (Runs.run step {} leaves).bind (fun s => s.objs[1]?.map fun obj =>
      decide (s.Unreferenced 1 obj ∧ obj.sender = false ∧ obj.mError = .timeout ∧ obj.fd = 5)) =
        some true := by decide +kernel
  rw [ran, Option.bind_some, Option.map_eq_some_iff] at first second
  simp only [decide_eq_true_eq] at first second
  obtain ⟨obj, held, real, open_, gone⟩ := first
  obtain ⟨late, found, unreferenced, error, timeout, left⟩ := second
  obtain ⟨started, destroyed⟩ := reached_accounted (Runs.run_reached admitted ran)
  refine ⟨s, ran, ⟨obj, held, open_, ?_, ?_⟩, late, found, fun fresh mRlt => ?_⟩
  · rw [(started 0 obj held real).1, open_]
    rfl
  · exact ((started 0 obj held real).2 gone (by rw [open_]; decide)).1
  · have closes := destroyed 1 late fresh mRlt found unreferenced
    rw [if_pos ⟨error, timeout, by rw [left]; decide⟩] at closes
    rw [closes, left]
    simp

/-- Two threads that close one object at the same time both pass the tests. -/
example : (Runs.run step {} (started ++ [.copy 0, .close 0, .close 0,
    .shut 0 (.init (str "200:200") 8), .shut 0 (.init (str "200:201") 9)])).map (·.times false 0) =
      some 2 := by decide +kernel

end
end SaceManager.Commands
end Sace
