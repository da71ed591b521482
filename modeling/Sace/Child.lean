import Sace.Params

/-! What a child does between fork and exec, over a kernel that lets it change its ids only
with the capability for that. -/
namespace Sace

def CAP_SETGID : Nat := 6
def CAP_SETUID : Nat := 7
def SIGHUP : Nat := 1

/-- What the kernel keeps about a process. `limits` are the calls of setrlimit, `comm` and
`pdeathsig` what prctl was given. -/
structure Process where
  uid : UInt32
  gid : UInt32
  groups : List UInt32
  permitted : CapSet
  effective : CapSet
  limits : List Rlimit := []
  execcon : Str := []
  comm : Str := []
  pdeathsig : Nat := 0
  deriving DecidableEq

/-- Whether the kernel does what a call asks for when the caller is entitled to it. -/
structure Kernel where
  capSetProc : Bool := true
  setgid : Bool := true
  setgroups : Bool := true
  setuid : Bool := true
  setexeccon : Bool := true

namespace Process

def has (p : Process) (cap : Nat) : Bool := p.effective.getLsbD cap

/-- A call that sets an id, or the list of groups: what is set afterwards and the return value. -/
def changeId {A : Type} [DecidableEq A] (grants entitled : Bool) (old new : A) : A × Int :=
  if grants ∧ (entitled ∨ old = new) then (new, 0) else (old, -1)

def setgid (kernel : Kernel) (p : Process) (gid : UInt32) : Process × Int :=
  let (gid, ret) := changeId kernel.setgid (p.has CAP_SETGID) p.gid gid
  ({ p with gid }, ret)

def setgroups (kernel : Kernel) (p : Process) (groups : List UInt32) : Process × Int :=
  let (groups, ret) := changeId kernel.setgroups (p.has CAP_SETGID) p.groups groups
  ({ p with groups }, ret)

def setuid (kernel : Kernel) (p : Process) (uid : UInt32) : Process × Int :=
  let (uid, ret) := changeId kernel.setuid (p.has CAP_SETUID) p.uid uid
  ({ p with uid }, ret)

def capSetProc (kernel : Kernel) (p : Process) (caps : CapSet) : Process × Int :=
  if kernel.capSetProc then ({ p with permitted := caps, effective := caps }, 0) else (p, -1)

def setexeccon (kernel : Kernel) (p : Process) (seclabel : Str) : Process × Int :=
  if kernel.setexeccon then ({ p with execcon := seclabel }, 0) else (p, -1)

end Process

/-! ### handle_child_params -/

/-- `cap_set_flag` for one capability, in the permitted and the effective set alike. -/
def capSetFlag (caps : CapSet) (cap : Nat) : CapSet := caps ||| BitVec.twoPow _ cap

def keptFlags (toKeep : CapSet) : Nat → CapSet
  | 0 => 0
  | n + 1 =>
    if toKeep.getLsbD n then capSetFlag (keptFlags toKeep n) n else keptFlags toKeep n

/-- A failure is logged and ignored. -/
def setProcCapability (kernel : Kernel) (p : Process) (toKeep : CapSet) : Process :=
  (p.capSetProc kernel (keptFlags toKeep (CAP_LAST_CAP + 1))).1

/-- The capabilities are a bitset, whose `size()` is never 0. The tests of the calls' results
are the wrong way round and only decide what is logged. -/
def handleChildParams (kernel : Kernel) (p : Process) : Option CommandParams → Process
  | none => p
  | some params =>
    let p := { p with limits := p.limits ++ params.rlimits }
    let p := setProcCapability kernel p params.capabilities
    let p := if 0 < params.gid then (p.setgid kernel params.gid).1 else p
    let p := if 0 < params.suppGids.length then (p.setgroups kernel params.suppGids).1 else p
    let p := if 0 < params.uid then (p.setuid kernel params.uid).1 else p
    if params.seclabel ≠ [] then (p.setexeccon kernel params.seclabel).1 else p

def childExec (kernel : Kernel) (param : Option CommandParams) (name cmd : Str) (p : Process) :
    Process × List Str :=
  let p := handleChildParams kernel p param
  ({ p with comm := name, pdeathsig := SIGHUP }, [str "sh", str "-c", cmd])

theorem keptFlags_getLsbD (toKeep : CapSet) (n i : Nat) :
    (keptFlags toKeep n).getLsbD i = (decide (i < n) && toKeep.getLsbD i) := by
  induction n with
  | zero => simp [keptFlags]
  | succ n ih =>
    unfold keptFlags
    by_cases same : i = n
    · subst same
      cases bit : toKeep.getLsbD i with
      | false => simp [ih, bit]
      | true =>
        have inside : i < CAP_LAST_CAP + 1 := BitVec.lt_of_getLsbD bit
        simp [capSetFlag, inside]
    · have below : i < n + 1 ↔ i < n := by omega
      split
      · simp [capSetFlag, ih, below, Ne.symm same, BitVec.getLsbD_twoPow]
      · simp [ih, below]

/-- The loop rebuilds the set that is to be kept. -/
theorem keptFlags_all (toKeep : CapSet) : keptFlags toKeep (CAP_LAST_CAP + 1) = toKeep := by
  apply BitVec.eq_of_getLsbD_eq
  intro i inside
  rw [keptFlags_getLsbD, decide_eq_true inside, Bool.true_and]

/-! ### The ids with which the child enters exec -/

namespace Process

structure Dropped (params : CommandParams) (p : Process) : Prop where
  uid : 0 < params.uid → p.uid = params.uid
  gid : 0 < params.gid → p.gid = params.gid
  groups : 0 < params.suppGids.length → p.groups = params.suppGids

/-- The capabilities in effect once set_proc_capability is done. -/
def kept (kernel : Kernel) (params : CommandParams) (p : Process) : CapSet :=
  if kernel.capSetProc then params.capabilities else p.effective

/-- Every id that is asked for is the process's own, or the capability to change it is among
those that are kept and the kernel makes the change. -/
structure Entitled (kernel : Kernel) (params : CommandParams) (p : Process) : Prop where
  uid : 0 < params.uid → p.uid ≠ params.uid →
    kernel.setuid = true ∧ (kept kernel params p).getLsbD CAP_SETUID = true
  gid : 0 < params.gid → p.gid ≠ params.gid →
    kernel.setgid = true ∧ (kept kernel params p).getLsbD CAP_SETGID = true
  groups : 0 < params.suppGids.length → p.groups ≠ params.suppGids →
    kernel.setgroups = true ∧ (kept kernel params p).getLsbD CAP_SETGID = true

theorem changeId_new {A : Type} [DecidableEq A] {grants entitled : Bool} {old new : A} :
    (changeId grants entitled old new).1 = new ↔
      (old ≠ new → grants = true ∧ entitled = true) := by
  unfold changeId
  split
  · rename_i granted
    simp only [true_iff]
    intro other
    exact ⟨granted.1, granted.2.resolve_right other⟩
  · rename_i refused
    constructor
    · intro same other
      exact absurd same other
    · intro able
      by_contra other
      obtain ⟨grants, entitled⟩ := able other
      exact refused ⟨grants, .inl entitled⟩

section
variable (kernel : Kernel) (p : Process) (params : CommandParams)

theorem setProcCapability_effective : (setProcCapability kernel p params.capabilities).effective =
    kept kernel params p := by
  unfold setProcCapability capSetProc kept
  rw [keptFlags_all]
  split <;> rfl

@[simp] theorem setProcCapability_ids (toKeep : CapSet) :
    (setProcCapability kernel p toKeep).uid = p.uid ∧
    (setProcCapability kernel p toKeep).gid = p.gid ∧
    (setProcCapability kernel p toKeep).groups = p.groups := by
  unfold setProcCapability capSetProc
  split <;> simp

@[simp] theorem setexeccon_ids (seclabel : Str) :
    (p.setexeccon kernel seclabel).1.uid = p.uid ∧
    (p.setexeccon kernel seclabel).1.gid = p.gid ∧
    (p.setexeccon kernel seclabel).1.groups = p.groups := by
  unfold setexeccon
  split <;> simp

/-- Each id is set by its own call, with the capabilities that set_proc_capability left. -/
theorem handleChildParams_ids :
    (handleChildParams kernel p (some params)).uid =
      (if 0 < params.uid then
        (changeId kernel.setuid ((kept kernel params p).getLsbD CAP_SETUID) p.uid params.uid).1
      else p.uid) ∧
    (handleChildParams kernel p (some params)).gid =
      (if 0 < params.gid then
        (changeId kernel.setgid ((kept kernel params p).getLsbD CAP_SETGID) p.gid params.gid).1
      else p.gid) ∧
    (handleChildParams kernel p (some params)).groups =
      (if 0 < params.suppGids.length then
        (changeId kernel.setgroups ((kept kernel params p).getLsbD CAP_SETGID) p.groups
          params.suppGids).1
      else p.groups) := by
  have effective : (setProcCapability kernel { p with limits := p.limits ++ params.rlimits }
      params.capabilities).effective = kept kernel params p :=
    setProcCapability_effective kernel _ params
  simp [handleChildParams, setuid, setgid, setgroups, has, apply_ite Process.uid,
    apply_ite Process.gid, apply_ite Process.groups, apply_ite Process.effective, effective]

end

/-- The child enters exec with the ids it was to have exactly when it was entitled to them. -/
theorem child_dropped_iff (kernel : Kernel) (params : CommandParams) (name cmd : Str)
    (p : Process) :
    Dropped params (childExec kernel (some params) name cmd p).1 ↔ Entitled kernel params p := by
  obtain ⟨uid, gid, groups⟩ := handleChildParams_ids kernel p params
  have sameUid : (childExec kernel (some params) name cmd p).1.uid =
    (handleChildParams kernel p (some params)).uid := rfl
  have sameGid : (childExec kernel (some params) name cmd p).1.gid =
    (handleChildParams kernel p (some params)).gid := rfl
  have sameGroups : (childExec kernel (some params) name cmd p).1.groups =
    (handleChildParams kernel p (some params)).groups := rfl
  rw [uid] at sameUid
  rw [gid] at sameGid
  rw [groups] at sameGroups
  constructor
  · intro dropped
    refine ⟨fun asked => ?_, fun asked => ?_, fun asked => ?_⟩
    · have set := dropped.uid asked
      rw [sameUid, if_pos asked] at set
      exact changeId_new.mp set
    · have set := dropped.gid asked
      rw [sameGid, if_pos asked] at set
      exact changeId_new.mp set
    · have set := dropped.groups asked
      rw [sameGroups, if_pos asked] at set
      exact changeId_new.mp set
  · intro entitled
    refine ⟨fun asked => ?_, fun asked => ?_, fun asked => ?_⟩
    · rw [sameUid, if_pos asked]
      exact changeId_new.mpr (entitled.uid asked)
    · rw [sameGid, if_pos asked]
      exact changeId_new.mpr (entitled.gid asked)
    · rw [sameGroups, if_pos asked]
      exact changeId_new.mpr (entitled.groups asked)

/-! The server runs as root, and the default parameters of a service ask for the user system. -/

def rootProcess : Process :=
  { uid := AID_ROOT, gid := AID_ROOT, groups := [], permitted := BitVec.allOnes _
    effective := BitVec.allOnes _ }

def systemParams : CommandParams :=
  parseCommandParams .empty { uid := str "1000", gid := str "1000" }

/-- The child goes on as root. -/
theorem child_stays_root :
    ¬ ∀ (kernel : Kernel) (params : CommandParams) (name cmd : Str) (p : Process),
      Dropped params (childExec kernel (some params) name cmd p).1 := by
  intro drops
  have dropped := (drops {} systemParams (str "svc") (str "sleep 1") rootProcess).uid (by decide)
  exact absurd dropped (by decide)

end Process
end Sace
