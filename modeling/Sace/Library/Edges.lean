import Mathlib.Data.List.Basic

/-! Yes or no answers to a sequence of observations. An edge detector says yes where the
observations enter a target; a latch says yes where they first hit it and never again. -/
namespace Edges

variable {A : Type} {hit : A → Bool}

/-- The answer to an observation is yes exactly when it is due after those before it. -/
def Matches (due : List A → A → Prop) (observations : List A) (answers : List Bool) : Prop :=
  answers.length = observations.length ∧
    ∀ before v after, observations = before ++ v :: after →
      (answers[before.length]? = some true ↔ due before v)

/-- `inside` tells whether the observation before the list hits the target. -/
def rising (hit : A → Bool) : Bool → List A → List Bool
  | _, [] => []
  | inside, v :: rest => (hit v && !inside) :: rising hit (hit v) rest

/-- `fired` tells whether the latch has said yes before. -/
def latched (hit : A → Bool) : Bool → List A → List Bool
  | _, [] => []
  | fired, v :: rest => (hit v && !fired) :: latched hit (fired || hit v) rest

/-- The target is left and entered again. -/
def Returns (hit : A → Bool) (observations : List A) : Prop :=
  List.Sublist [true, false, true] (observations.map hit)

instance (observations : List A) : Decidable (Returns hit observations) :=
  inferInstanceAs (Decidable (List.Sublist _ _))

theorem Matches.unique {due : List A → A → Prop} {observations : List A} {first second : List Bool}
    (one : Matches due observations first) (other : Matches due observations second) :
    first = second := by
  have long : first.length = second.length := one.1.trans other.1.symm
  apply List.ext_getElem long
  intro k below below'
  have inside : k < observations.length := one.1 ▸ below
  have parts : observations =
      observations.take k ++ observations[k] :: observations.drop (k + 1) := by simp
  have at_k : (observations.take k).length = k := List.length_take_of_le (Nat.le_of_lt inside)
  have same := (one.2 _ _ _ parts).trans (other.2 _ _ _ parts).symm
  rw [at_k, List.getElem?_eq_getElem below, List.getElem?_eq_getElem below'] at same
  exact Bool.eq_iff_iff.mpr (by simpa using same)

@[simp] theorem rising_length (inside : Bool) (observations : List A) :
    (rising hit inside observations).length = observations.length := by
  induction observations generalizing inside with
  | nil => rfl
  | cons v rest ih => simp [rising, ih]

theorem rising_at (inside : Bool) (before : List A) (v : A) (after : List A) :
    (rising hit inside (before ++ v :: after))[before.length]? =
      some (hit v && !(before.getLast?.map hit).getD inside) := by
  induction before generalizing inside with
  | nil => simp [rising]
  | cons u before ih =>
    simp only [List.cons_append, rising, List.length_cons, List.getElem?_cons_succ, ih]
    cases before with
    | nil => simp
    | cons w before => simp only [List.getLast?_cons, Option.map_some, Option.getD_some]

theorem rising_matches (observations : List A) :
    Matches (fun before v => hit v = true ∧ ∀ u, before.getLast? = some u → hit u = false)
      observations (rising hit false observations) := by
  constructor
  · simp
  · intro before v after parts
    rw [parts, rising_at]
    cases last : before.getLast? <;> simp [last]

/-! ### A latch against an edge detector -/

theorem latched_fired (observations : List A) :
    latched hit true observations = List.replicate observations.length false := by
  induction observations with
  | nil => rfl
  | cons v rest ih => simp [latched, ih, List.replicate_succ]

theorem latched_missed {observations : List A} (missed : ∀ v ∈ observations, hit v = false)
    (fired : Bool) : latched hit fired observations = List.replicate observations.length false := by
  induction observations generalizing fired with
  | nil => rfl
  | cons v rest ih =>
    have first : hit v = false := missed v (by simp)
    simp [latched, first, ih (fun u mem => missed u (by simp [mem])), List.replicate_succ]

theorem latched_quiet_iff (observations : List A) :
    latched hit false observations = List.replicate observations.length false ↔
      ∀ v ∈ observations, hit v = false := by
  induction observations with
  | nil => simp [latched]
  | cons v rest ih => cases first : hit v <;> simp [latched, first, ih, List.replicate_succ]

theorem rising_outside_iff (observations : List A) :
    rising hit false observations = List.replicate observations.length false ↔
      ∀ v ∈ observations, hit v = false := by
  induction observations with
  | nil => simp [rising]
  | cons v rest ih => cases first : hit v <;> simp_all [rising, List.replicate_succ]

theorem rising_inside_iff (observations : List A) :
    rising hit true observations = List.replicate observations.length false ↔
      ¬ List.Sublist [false, true] (observations.map hit) := by
  induction observations with
  | nil => simp [rising]
  | cons v rest ih =>
    cases first : hit v with
    | true => simp [rising, first, ih, List.replicate_succ, List.sublist_cons_iff]
    | false => simp [rising, first, rising_outside_iff, List.replicate_succ]

/-- A latch is an edge detector as long as the target, once left, is not entered again. -/
theorem latched_eq_rising_iff (observations : List A) :
    latched hit false observations = rising hit false observations ↔
      ¬ Returns hit observations := by
  unfold Returns
  induction observations with
  | nil => simp [latched, rising]
  | cons v rest ih =>
    cases first : hit v with
    | true =>
      have quiet := @rising_inside_iff _ hit rest
      simp [latched, rising, first, latched_fired, ← quiet, eq_comm]
    | false => simp [latched, rising, first, ih, List.sublist_cons_iff]

end Edges
