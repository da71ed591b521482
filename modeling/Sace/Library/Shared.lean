import Mathlib.Data.List.Infix
import Sace.Library.Runs

/-! Posting by reference: every message in flight is a pointer to one cell, which the poster
overwrites before it posts again. A receiver sees what the cell holds when it reads. -/

/-- A message is `waiting` until it is taken and `held` until it is read. After the receiver has
closed, messages are no longer taken. -/
structure Shared (L : Type) where
  cell : L
  waiting : Nat := 0
  held : Nat := 0
  closed : Bool := false
  called : List L := []
  processed : List L := []

namespace Shared

variable {L : Type}

inductive Event (L : Type) where
  | post (l : L)
  | lose
  | take
  | read
  | close

def step (s : Shared L) : Event L → Option (Shared L)
  | .post l =>
    some { s with cell := l, waiting := s.waiting + 1, called := s.called ++ [l] }
  | .lose => if 0 < s.waiting then some { s with waiting := s.waiting - 1 } else none
  | .take =>
    if ¬ s.closed ∧ 0 < s.waiting then
      some { s with waiting := s.waiting - 1, held := s.held + 1 }
    else none
  | .read =>
    if 0 < s.held then
      some { s with held := s.held - 1, processed := s.processed ++ [s.cell] }
    else none
  | .close => some { s with closed := true }

def outstanding (s : Shared L) : Nat := s.waiting + s.held

/-- The cell is overwritten only with what it holds or when nothing is in flight, no message is
lost, and the receiver closes only when nothing waits and nothing is posted any more. -/
def Careful (s : Shared L) : Event L → Prop
  | .post l => s.closed = false ∧ (s.outstanding = 0 ∨ s.cell = l)
  | .lose => False
  | .close => s.waiting = 0
  | _ => True

/-- The cell holds what was posted last, and not more is read or in flight than was posted. -/
structure Base (s : Shared L) : Prop where
  length : s.processed.length + s.outstanding ≤ s.called.length
  last : ∀ l, s.called.getLast? = some l → s.cell = l

/-- What is in flight was posted with what the cell holds. -/
structure Good (s : Shared L) : Prop where
  called : s.called = s.processed ++ List.replicate s.outstanding s.cell
  closed : s.closed = true → s.waiting = 0

/-- Something was read wrongly, is lost, can no longer be taken, or will be read wrongly. -/
inductive Bad (s : Shared L) : Prop
  | misread (differs : ¬ s.processed <+: s.called)
  | lost (fewer : s.processed.length + s.outstanding < s.called.length)
  | stuck (closed : s.closed = true) (left : 0 < s.waiting)
  | overwritten {i : Nat} {l : L} (due : s.processed.length ≤ i) (posted : s.called[i]? = some l)
      (differs : l ≠ s.cell)

variable {s t : Shared L} {event : Event L}

theorem Base.step (base : Base s) (moved : s.step event = some t) : Base t := by
  have length := base.length
  have last := base.last
  cases event with
  | post l =>
    cases moved
    refine ⟨?_, ?_⟩
    · simp only [outstanding, List.length_append, List.length_singleton] at length ⊢
      omega
    · intro m posted
      simpa using posted
  | lose =>
    simp only [Shared.step, Option.ite_none_right_eq_some] at moved
    obtain ⟨positive, moved⟩ := moved
    cases moved
    refine ⟨?_, last⟩
    simp only [outstanding] at length ⊢
    omega
  | take =>
    simp only [Shared.step, Option.ite_none_right_eq_some] at moved
    obtain ⟨⟨_, positive⟩, moved⟩ := moved
    cases moved
    refine ⟨?_, last⟩
    simp only [outstanding] at length ⊢
    omega
  | read =>
    simp only [Shared.step, Option.ite_none_right_eq_some] at moved
    obtain ⟨positive, moved⟩ := moved
    cases moved
    refine ⟨?_, last⟩
    simp only [outstanding, List.length_append, List.length_singleton] at length ⊢
    omega
  | close =>
    cases moved
    exact ⟨length, last⟩

theorem Good.step (good : Good s) (careful : s.Careful event) (moved : s.step event = some t) :
    Good t := by
  have called := good.called
  cases event with
  | post l =>
    cases moved
    obtain ⟨opened, free⟩ := careful
    refine ⟨?_, fun closed => absurd (opened.symm.trans closed) (by decide)⟩
    have next : s.waiting + 1 + s.held = s.outstanding + 1 := by
      simp only [outstanding]
      omega
    simp only [outstanding] at next ⊢
    rw [called, next, List.append_assoc, List.replicate_succ']
    rcases free with empty | same
    · simp only [outstanding] at empty ⊢
      simp [empty]
    · rw [same]
      rfl
  | lose => exact careful.elim
  | take =>
    simp only [Shared.step, Option.ite_none_right_eq_some] at moved
    obtain ⟨⟨opened, positive⟩, moved⟩ := moved
    cases moved
    refine ⟨?_, fun closed => absurd closed opened⟩
    have same : s.waiting - 1 + (s.held + 1) = s.outstanding := by
      simp only [outstanding]
      omega
    simpa only [outstanding, same] using called
  | read =>
    simp only [Shared.step, Option.ite_none_right_eq_some] at moved
    obtain ⟨positive, moved⟩ := moved
    cases moved
    refine ⟨?_, good.closed⟩
    have next : s.outstanding = s.waiting + (s.held - 1) + 1 := by
      simp only [outstanding]
      omega
    simp only [outstanding] at next called ⊢
    rw [called, next, List.replicate_succ, List.append_assoc]
    rfl
  | close =>
    cases moved
    exact ⟨called, fun _ => careful⟩

theorem Good.careless (good : Good s) (careless : ¬ s.Careful event)
    (moved : s.step event = some t) : Bad t := by
  cases event with
  | post l =>
    cases moved
    by_cases closed : s.closed = true
    · exact .stuck closed (Nat.succ_pos _)
    · have opened : s.closed = false := Bool.not_eq_true _ ▸ closed
      have taken : ¬ (s.outstanding = 0 ∨ s.cell = l) := fun free => careless ⟨opened, free⟩
      obtain ⟨positive, differs⟩ := not_or.mp taken
      -- the oldest message in flight was posted with the old content
      obtain ⟨n, next⟩ := Nat.exists_eq_succ_of_ne_zero positive
      refine .overwritten (i := s.processed.length) (l := s.cell) (Nat.le_refl _) ?_ differs
      simp [good.called, next, List.replicate_succ]
  | lose =>
    have length := congrArg List.length good.called
    simp only [Shared.step, Option.ite_none_right_eq_some] at moved
    obtain ⟨positive, moved⟩ := moved
    cases moved
    apply Bad.lost
    simp only [outstanding, List.length_append, List.length_replicate] at length ⊢
    omega
  | take => exact absurd trivial careless
  | read => exact absurd trivial careless
  | close =>
    cases moved
    exact .stuck rfl (Nat.pos_of_ne_zero careless)

/-- A wrong cell stays wrong: whatever is posted next, it differs from what was due before or
from what was posted last. -/
theorem Bad.post {i : Nat} {m : L} (base : Base s) (due : s.processed.length ≤ i)
    (posted : s.called[i]? = some m) (differs : m ≠ s.cell) (l : L) :
    Bad { s with cell := l, waiting := s.waiting + 1, called := s.called ++ [l] } := by
  obtain ⟨inside, _⟩ := List.getElem?_eq_some_iff.mp posted
  by_cases same : m = l
  · have called : s.called ≠ [] :=
      List.ne_nil_of_length_pos (Nat.lt_of_le_of_lt (Nat.zero_le i) inside)
    have last := base.last _ (List.getLast?_eq_some_getLast called)
    apply Bad.overwritten (i := s.called.length - 1) (l := s.cell)
    · show s.processed.length ≤ _
      omega
    · show (s.called ++ [l])[s.called.length - 1]? = some s.cell
      rw [List.getElem?_append_left (by omega), ← List.getLast?_eq_getElem?,
        List.getLast?_eq_some_getLast called, last]
    · intro back
      exact differs (same.trans back.symm)
  · refine Bad.overwritten (i := i) (l := m) due ?_ same
    show (s.called ++ [l])[i]? = some m
    rw [List.getElem?_append_left inside, posted]

theorem Bad.read {i : Nat} {m : L} (due : s.processed.length ≤ i) (posted : s.called[i]? = some m)
    (differs : m ≠ s.cell) :
    Bad { s with held := s.held - 1, processed := s.processed ++ [s.cell] } := by
  by_cases next : i = s.processed.length
  · apply Bad.misread
    rintro ⟨rest, whole⟩
    apply differs
    have there : (s.processed ++ [s.cell] ++ rest)[i]? = some s.cell := by
      rw [next, List.getElem?_append_left (by simp), List.getElem?_concat_length]
    exact Option.some.inj (posted.symm.trans ((congrArg (·[i]?) whole).symm.trans there))
  · refine .overwritten (i := i) (l := m) ?_ posted differs
    simp only [List.length_append, List.length_singleton]
    omega

theorem Bad.step (base : Base s) (bad : Bad s) (moved : s.step event = some t) : Bad t := by
  have length := base.length
  cases event with
  | post l =>
    cases moved
    cases bad with
    | misread differs =>
      refine .misread fun whole => differs ?_
      exact List.prefix_of_prefix_length_le whole (List.prefix_append _ _) (by omega)
    | lost fewer =>
      apply Bad.lost
      simp only [outstanding, List.length_append, List.length_singleton] at fewer ⊢
      omega
    | stuck closed left => exact .stuck closed (Nat.succ_pos _)
    | overwritten due posted differs => exact .post base due posted differs l
  | lose =>
    simp only [Shared.step, Option.ite_none_right_eq_some] at moved
    obtain ⟨positive, moved⟩ := moved
    cases moved
    apply Bad.lost
    simp only [outstanding] at length ⊢
    omega
  | take =>
    simp only [Shared.step, Option.ite_none_right_eq_some] at moved
    obtain ⟨⟨opened, positive⟩, moved⟩ := moved
    cases moved
    cases bad with
    | misread differs => exact .misread differs
    | lost fewer =>
      apply Bad.lost
      simp only [outstanding] at fewer ⊢
      omega
    | stuck closed left => exact absurd closed opened
    | overwritten due posted differs => exact .overwritten due posted differs
  | read =>
    simp only [Shared.step, Option.ite_none_right_eq_some] at moved
    obtain ⟨positive, moved⟩ := moved
    cases moved
    cases bad with
    | misread differs =>
      refine .misread fun whole => differs ?_
      exact (List.prefix_append _ _).trans whole
    | lost fewer =>
      apply Bad.lost
      simp only [outstanding, List.length_append, List.length_singleton] at fewer ⊢
      omega
    | stuck closed left => exact .stuck closed left
    | overwritten due posted differs => exact .read due posted differs
  | close =>
    cases moved
    cases bad with
    | misread differs => exact .misread differs
    | lost fewer => exact .lost fewer
    | stuck closed left => exact .stuck rfl left
    | overwritten due posted differs => exact .overwritten due posted differs

/-- When nothing is in flight any more, what was read tells whether anything went wrong. -/
theorem Good.exact (good : Good s) (none : s.outstanding = 0) : s.processed = s.called := by
  have called := good.called
  rw [none, List.replicate_zero, List.append_nil] at called
  exact called.symm

theorem Bad.inexact (bad : Bad s) (none : s.outstanding = 0) : s.processed ≠ s.called := by
  intro same
  have length := congrArg List.length same
  cases bad with
  | misread differs => exact differs (same ▸ List.prefix_refl _)
  | lost fewer => omega
  | stuck closed left =>
    simp only [outstanding] at none
    omega
  | overwritten due posted differs =>
    obtain ⟨inside, _⟩ := List.getElem?_eq_some_iff.mp posted
    omega

end Shared
