import Sace.Event.Excutor
import Sace.Library.Edges

/-! Property triggers called again and again. A trigger remembers the value at which it has
fired, and no other value that it sees: it latches where an edge of the property is asked for. -/
namespace Sace

def observed (name : Str) (properties : Str → Str) : Str :=
  Bytes.cString (properties (Bytes.cString name))

def Trigger.answers : Trigger → List (Str → Str) → List Bool
  | _, [] => []
  | tg, properties :: rest =>
    (tg.triggered properties).1 :: Trigger.answers (tg.triggered properties).2 rest

def entered (value v : Str) : Bool := v ≠ [] ∧ v = value

/-- The answer is yes exactly when the observed value is not empty and equal to the trigger's
and the value observed before, if there is one, was another. -/
def EdgeLaw (value : Str) (observations : List Str) (answers : List Bool) : Prop :=
  Edges.Matches (fun before v => v ≠ [] ∧ v = value ∧ before.getLast? ≠ some value)
    observations answers

/-- A value that strcmp sees whole is not entered again after it was left. Of a value with a
zero in it strcmp sees the part before the zero, and that part is never observed. -/
def Unreturned (value : Str) (observations : List Str) : Prop :=
  if 0 ∈ value then ∀ v ∈ observations, entered (Bytes.cString value) v = false
  else ¬ Edges.Returns (entered value) observations

instance (value : Str) (observations : List Str) : Decidable (Unreturned value observations) :=
  inferInstanceAs (Decidable (ite _ _ _))

namespace Trigger

variable {name value last : Str} {properties : Str → Str}

/-- At its value a trigger says yes unless it remembers it, and remembers it afterwards. -/
theorem property_triggered :
    (Trigger.property name value last).triggered properties =
      if entered (Bytes.cString value) (observed name properties) then
        (!decide (last = Bytes.cString value), .property name value (Bytes.cString value))
      else (false, .property name value last) := by
  have read : Bytes.cString (properties (Bytes.cString name)) = observed name properties := rfl
  simp only [triggered, read]
  by_cases empty : observed name properties = []
  · simp [entered, empty]
  · by_cases same : Bytes.cString value = observed name properties
    · by_cases stored : last = observed name properties <;> simp [entered, empty, same, stored]
    · simp [entered, empty, same, Ne.symm same]

/-- Whatever the trigger remembers, it latches. -/
theorem answers_latched (name value last : Str) (sequence : List (Str → Str)) :
    (Trigger.property name value last).answers sequence =
      Edges.latched (entered (Bytes.cString value)) (last = Bytes.cString value)
        (sequence.map (observed name)) := by
  induction sequence generalizing last with
  | nil => rfl
  | cons properties rest ih =>
    rw [answers, property_triggered, List.map_cons, Edges.latched]
    cases entered (Bytes.cString value) (observed name properties) <;> simp [ih]

end Trigger

theorem edgeLaw_iff (value : Str) (observations : List Str) (answers : List Bool) :
    EdgeLaw value observations answers ↔
      answers = Edges.rising (entered value) false observations := by
  have rises : EdgeLaw value observations (Edges.rising (entered value) false observations) := by
    obtain ⟨long, due⟩ := @Edges.rising_matches _ (entered value) observations
    refine ⟨long, fun before v after parts => (due before v after parts).trans ?_⟩
    simp only [entered, decide_eq_true_eq, decide_eq_false_iff_not]
    constructor
    · rintro ⟨⟨full, rfl⟩, left⟩
      exact ⟨full, rfl, fun again => left v again ⟨full, rfl⟩⟩
    · rintro ⟨full, rfl, left⟩
      exact ⟨⟨full, rfl⟩, fun u previous same => left (same.2 ▸ previous)⟩
  constructor
  · intro law
    exact law.unique rises
  · rintro rfl
    exact rises

/-- A new trigger has stored nothing, and nothing is no value that it fires at. -/
theorem fresh_answers (name value : Str) (sequence : List (Str → Str)) :
    (Trigger.property name value []).answers sequence =
      Edges.latched (entered (Bytes.cString value)) false (sequence.map (observed name)) := by
  rw [Trigger.answers_latched]
  by_cases empty : [] = Bytes.cString value
  · have missed : ∀ v ∈ sequence.map (observed name), entered (Bytes.cString value) v = false := by
      simp +contextual [entered, ← empty]
    rw [Edges.latched_missed missed, Edges.latched_missed missed]
  · rw [decide_eq_false empty]

theorem observed_ne {value : Str} (zero : 0 ∈ value) (name : Str) (sequence : List (Str → Str)) :
    ∀ v ∈ sequence.map (observed name), entered value v = false := by
  intro v mem
  obtain ⟨properties, -, rfl⟩ := List.mem_map.mp mem
  have whole : 0 ∉ observed name properties := Bytes.zero_notMem_cString _
  simp only [entered, decide_eq_false_iff_not]
  rintro ⟨-, same⟩
  exact whole (same ▸ zero)

/-- Over any sequence of observations the answers of a new trigger follow the edges exactly as
long as the value is not entered again. -/
theorem triggered_edges_iff (name value : Str) (sequence : List (Str → Str)) :
    EdgeLaw value (sequence.map (observed name))
        ((Trigger.property name value []).answers sequence) ↔
      Unreturned value (sequence.map (observed name)) := by
  rw [edgeLaw_iff, fresh_answers, Unreturned]
  split_ifs with zero
  · rw [(Edges.rising_outside_iff _).mpr (observed_ne zero name sequence), Edges.latched_quiet_iff]
  · rw [Bytes.cString_of_whole zero, Edges.latched_eq_rising_iff]

/-- The property leaves its value and gets it back. -/
theorem triggered_edges_returned :
    ¬ ∀ (name value : Str) (sequence : List (Str → Str)),
      EdgeLaw value (sequence.map (observed name))
        ((Trigger.property name value []).answers sequence) := by
  intro law
  have third := ((law (str "p") (str "1") [fun _ => str "1", fun _ => str "0", fun _ => str "1"]).2
    [str "1", str "0"] (str "1") [] (by decide)).mpr (by decide)
  revert third
  decide

end Sace
