import Mathlib.Data.List.Nodup
import Mathlib.Data.List.Perm.Basic

/-! Erasing at saved positions. The positions are taken while the list is scanned and
used afterwards, one by one, on a list that every erasure shortens. -/
namespace Erasure

variable {A : Type}

def eraseSaved : List Nat → List A → Option (List A × List A)
  | [], xs => some ([], xs)
  | p :: ps, xs => do
    let x ← xs[p]?
    let (erased, left) ← eraseSaved ps (xs.eraseIdx p)
    return (x :: erased, left)

/-- No saved position has moved past the end when its turn comes. -/
def Inside (ps : List Nat) (n : Nat) : Prop := ∀ i (h : i < ps.length), ps[i] + i < n

instance (ps : List Nat) (n : Nat) : Decidable (Inside ps n) :=
  inferInstanceAs (Decidable (∀ i (h : i < ps.length), ps[i] + i < n))

theorem inside_cons {p : Nat} {ps : List Nat} {n : Nat} :
    Inside (p :: ps) n ↔ p < n ∧ Inside ps (n - 1) := by
  constructor
  · intro h
    have head := h 0 (by simp)
    refine ⟨by simpa using head, fun i hi => ?_⟩
    have next := h (i + 1) (by simpa using hi)
    simp only [List.getElem_cons_succ] at next
    omega
  · rintro ⟨head, tail⟩ i hi
    cases i with
    | zero => simpa using head
    | succ i =>
      have next := tail i (by simpa using hi)
      simp only [List.getElem_cons_succ]
      omega

theorem eraseSaved_cons {p : Nat} {ps : List Nat} {xs : List A} {out : List A × List A} :
    eraseSaved (p :: ps) xs = some out ↔ ∃ x erased left,
      xs[p]? = some x ∧ eraseSaved ps (xs.eraseIdx p) = some (erased, left) ∧
        out = (x :: erased, left) := by
  simp only [eraseSaved, Option.bind_eq_bind, Option.bind_eq_some_iff, Prod.exists]
  constructor
  · rintro ⟨x, hx, erased, left, tail, h⟩
    exact ⟨x, erased, left, hx, tail, (Option.some.inj h).symm⟩
  · rintro ⟨x, erased, left, hx, tail, rfl⟩
    exact ⟨x, hx, erased, left, tail, rfl⟩

theorem eraseSaved_isSome_iff (ps : List Nat) (xs : List A) :
    (eraseSaved ps xs).isSome ↔ Inside ps xs.length := by
  induction ps generalizing xs with
  | nil => simp [eraseSaved, Inside]
  | cons p ps ih =>
    rw [inside_cons]
    by_cases bound : p < xs.length
    · have short := ih (xs.eraseIdx p)
      rw [List.length_eraseIdx_of_lt bound] at short
      simp only [bound, true_and, ← short, Option.isSome_iff_exists, eraseSaved_cons]
      constructor
      · rintro ⟨_, _, erased, left, _, tail, _⟩
        exact ⟨_, tail⟩
      · rintro ⟨⟨erased, left⟩, tail⟩
        exact ⟨_, xs[p], erased, left, List.getElem?_eq_getElem bound, tail, rfl⟩
    · simp [eraseSaved, bound]

theorem eraseSaved_perm {ps : List Nat} {xs erased left : List A}
    (done : eraseSaved ps xs = some (erased, left)) : xs.Perm (erased ++ left) := by
  induction ps generalizing xs erased left with
  | nil =>
    cases Option.some.inj done
    exact .refl _
  | cons p ps ih =>
    obtain ⟨x, rest, left', hx, tail, eq⟩ := eraseSaved_cons.mp done
    cases eq
    obtain ⟨bound, rfl⟩ := List.getElem?_eq_some_iff.mp hx
    have moved : xs.Perm (xs[p] :: xs.eraseIdx p) := (List.getElem_cons_eraseIdx_perm bound).symm
    exact moved.trans ((ih tail).cons _)

/-- With increasing positions the `i`-th erasure hits the element that stood `i` places
after the position that was saved for it. -/
theorem eraseSaved_shift {ps : List Nat} {xs erased left : List A} (sorted : ps.Pairwise (· < ·))
    (done : eraseSaved ps xs = some (erased, left)) (i : Nat) (h : i < ps.length) :
    erased[i]? = xs[ps[i] + i]? := by
  induction ps generalizing xs erased left i with
  | nil => simp at h
  | cons p ps ih =>
    obtain ⟨x, rest, left', hx, tail, eq⟩ := eraseSaved_cons.mp done
    cases eq
    cases i with
    | zero => simpa using hx.symm
    | succ i =>
      have bound : i < ps.length := by simpa using h
      have later : p < ps[i] := (List.pairwise_cons.mp sorted).1 _ (List.getElem_mem bound)
      have step := ih (List.pairwise_cons.mp sorted).2 tail i bound
      simp only [List.getElem?_cons_succ, List.getElem_cons_succ, step]
      rw [List.getElem?_eraseIdx_of_ge (by omega)]
      exact congrArg (fun k => xs[k]?) (by omega)

def saved (f : A × Nat → Bool) (xs : List A) : List Nat := (xs.zipIdx.filter f).map Prod.snd

def chosen (f : A × Nat → Bool) (xs : List A) : List A := (xs.zipIdx.filter f).map Prod.fst
def passed (f : A × Nat → Bool) (xs : List A) : List A :=
  (xs.zipIdx.filter fun entry => !f entry).map Prod.fst

variable {f : A × Nat → Bool} {xs : List A}

theorem mem_saved {p : Nat} : p ∈ saved f xs ↔ ∃ x, xs[p]? = some x ∧ f (x, p) := by
  simp [saved, List.mem_zipIdx_iff_getElem?]

theorem mem_chosen {x : A} : x ∈ chosen f xs ↔ ∃ p, xs[p]? = some x ∧ f (x, p) := by
  simp [chosen, List.mem_zipIdx_iff_getElem?]

theorem saved_sorted (f : A × Nat → Bool) (xs : List A) : (saved f xs).Pairwise (· < ·) := by
  have all : (xs.zipIdx.map Prod.snd).Pairwise (· < ·) := by
    rw [List.zipIdx_map_snd]
    exact List.pairwise_lt_range'
  exact all.sublist (List.filter_sublist.map Prod.snd)

theorem chosen_append_passed (f : A × Nat → Bool) (xs : List A) :
    (chosen f xs ++ passed f xs).Perm xs := by
  have split := (List.filter_append_perm f xs.zipIdx).map Prod.fst
  rwa [List.map_append, List.zipIdx_map_fst] at split

theorem filter_index_ne (xs : List A) (n i : Nat) :
    ((xs.zipIdx n).filter fun entry => entry.2 ≠ n + i).map Prod.fst = xs.eraseIdx i := by
  induction xs generalizing n i with
  | nil => rfl
  | cons x xs ih =>
    cases i with
    | zero =>
      have rest : (xs.zipIdx (n + 1)).filter (fun entry => entry.2 ≠ n) = xs.zipIdx (n + 1) := by
        apply List.filter_eq_self.mpr
        intro entry member
        have := List.le_snd_of_mem_zipIdx member
        simp only [ne_eq, decide_not, Bool.not_eq_true', decide_eq_false_iff_not]
        omega
      simp only [List.zipIdx_cons, Nat.add_zero, List.filter_cons, ne_eq, not_true_eq_false,
        decide_false, Bool.false_eq_true, if_false]
      rw [rest, List.zipIdx_map_fst, List.eraseIdx_cons_zero]
    | succ i =>
      have here : n ≠ n + (i + 1) := by omega
      have tail := ih (n + 1) i
      rw [Nat.add_right_comm, Nat.add_assoc] at tail
      simp only [List.zipIdx_cons, List.filter_cons, ne_eq, here, not_false_eq_true, decide_true,
        if_true, List.map_cons, List.eraseIdx_cons_succ, tail]

/-- A single saved position is still right when it is used. -/
theorem eraseSaved_single (few : (saved f xs).length ≤ 1) :
    eraseSaved (saved f xs) xs = some (chosen f xs, passed f xs) := by
  match h : xs.zipIdx.filter f with
  | [] =>
    have none_chosen : ∀ entry ∈ xs.zipIdx, (!f entry) = true := by
      intro entry member
      have := List.filter_eq_nil_iff.mp h entry member
      simpa using this
    simp only [saved, chosen, passed, h, List.map_nil, eraseSaved,
      List.filter_eq_self.mpr none_chosen, List.zipIdx_map_fst]
  | [(x, i)] =>
    have member : (x, i) ∈ xs.zipIdx.filter f := by simp [h]
    obtain ⟨at_, hit⟩ := List.mem_filter.mp member
    rw [List.mem_zipIdx_iff_getElem?] at at_
    have only : xs.zipIdx.filter (fun entry => !f entry) =
        xs.zipIdx.filter fun entry => entry.2 ≠ 0 + i := by
      apply List.filter_congr
      intro entry listed
      rw [Nat.zero_add, Bool.eq_iff_iff]
      simp only [Bool.not_eq_true', decide_eq_true_eq]
      constructor
      · rintro missed rfl
        have same : entry = (x, entry.2) := by
          rw [List.mem_zipIdx_iff_getElem?, at_] at listed
          exact Prod.ext (Option.some.inj listed).symm rfl
        rw [same, hit] at missed
        cases missed
      · intro other
        by_contra chosen
        have : entry ∈ xs.zipIdx.filter f := List.mem_filter.mpr ⟨listed, by simpa using chosen⟩
        rw [h, List.mem_singleton] at this
        exact other (by rw [this])
    have left : passed f xs = xs.eraseIdx i := by
      rw [passed, only, filter_index_ne]
    rw [left]
    simp only [saved, chosen, h, List.map_cons, List.map_nil]
    exact eraseSaved_cons.mpr ⟨x, [], xs.eraseIdx i, at_, rfl, rfl⟩
  | _ :: _ :: _ =>
    simp only [saved, h, List.map_cons, List.length_cons] at few
    omega

/-- Two or more saved positions always hit something that was not chosen. -/
theorem eraseSaved_exact_iff (distinct : xs.Nodup) :
    (∃ erased, eraseSaved (saved f xs) xs = some (erased, passed f xs)) ↔
      (saved f xs).length ≤ 1 := by
  refine ⟨?_, fun few => ⟨_, eraseSaved_single few⟩⟩
  rintro ⟨erased, done⟩
  by_contra many
  have bound : (saved f xs).length - 1 < (saved f xs).length := by omega
  have moved : erased.Perm (chosen f xs) := by
    have all := (eraseSaved_perm done).symm.trans (chosen_append_passed f xs).symm
    exact (List.perm_append_right_iff _).mp all
  let last := (saved f xs)[(saved f xs).length - 1]
  have inside := (eraseSaved_isSome_iff _ _).mp (Option.isSome_iff_exists.mpr ⟨_, done⟩) _ bound
  have shifted := eraseSaved_shift (saved_sorted f xs) done _ bound
  have hit : xs[last + ((saved f xs).length - 1)] ∈ erased :=
    List.mem_of_getElem? (shifted.trans (List.getElem?_eq_getElem inside))
  obtain ⟨p, at_, chosen⟩ := mem_chosen.mp (moved.mem_iff.mp hit)
  obtain ⟨pBound, same⟩ := List.getElem?_eq_some_iff.mp at_
  have place : p = last + ((saved f xs).length - 1) := distinct.getElem_inj_iff.mp same
  obtain ⟨j, jBound, rfl⟩ := List.getElem_of_mem (mem_saved.mpr ⟨_, at_, chosen⟩)
  have before : (saved f xs)[j] ≤ last := by
    rcases Nat.lt_or_ge j ((saved f xs).length - 1) with early | late
    · exact Nat.le_of_lt (List.pairwise_iff_getElem.mp (saved_sorted f xs) _ _ jBound bound early)
    · have : j = (saved f xs).length - 1 := by omega
      exact Nat.le_of_eq (by simp only [last, this])
  omega

/-! ### Erasing by a key -/

variable {K : Type} [DecidableEq A] [DecidableEq K]

theorem eraseP_key {key : A → K} {xs : List A} {a : A} (keys : (xs.map key).Nodup)
    (member : a ∈ xs) : xs.eraseP (fun x => decide (key x = key a)) = xs.erase a := by
  induction xs with
  | nil => cases member
  | cons x xs ih =>
    rw [List.map_cons, List.nodup_cons] at keys
    by_cases here : x = a
    · simp [here]
    · have later : a ∈ xs := (List.mem_cons.mp member).resolve_left (Ne.symm here)
      have other : key x ≠ key a := fun same => keys.1 (same ▸ List.mem_map_of_mem later)
      rw [List.eraseP_cons_of_neg (by simpa using other),
        List.erase_cons_tail (by simpa using here), ih keys.2 later]

theorem idxOf_once {xs : List A} {i : Nat} {a : A} (here : xs[i]? = some a)
    (once : xs.count a = 1) : xs.idxOf a = i := by
  induction xs generalizing i with
  | nil => simp at here
  | cons x xs ih =>
    cases i with
    | zero =>
      rw [List.getElem?_cons_zero, Option.some.injEq] at here
      rw [here, List.idxOf_cons_self]
    | succ i =>
      rw [List.getElem?_cons_succ] at here
      have later := List.count_pos_iff.mpr (List.mem_of_getElem? here)
      have other : x ≠ a := by
        rintro rfl
        rw [List.count_cons_self] at once
        omega
      rw [List.idxOf_cons_ne _ other, ih here (by rwa [List.count_cons_of_ne other] at once)]

end Erasure
