import Mathlib.Data.List.Basic
import Sace.Library.Traced

/-! Runs of a system whose steps may be refused. The steps are a function of the
state and of what the environment supplies; a step without a next state ends the run.
`allowed` singles out the environments that a statement is about. -/
namespace Runs

variable {S A : Type}

inductive Reached (step : S → A → Option S) (allowed : S → A → Prop) (start : S) : S → Prop
  | start : Reached step allowed start start
  | next {s t : S} {a : A} : Reached step allowed start s → allowed s a → step s a = some t →
      Reached step allowed start t

variable {step : S → A → Option S} {allowed : S → A → Prop} {start : S}

/-- What holds at the start and is kept by every admitted step holds in every state reached. -/
theorem Reached.invariant {I : S → Prop} (initial : I start)
    (kept : ∀ s a t, I s → allowed s a → step s a = some t → I t)
    {s : S} (reached : Reached step allowed start s) : I s := by
  induction reached with
  | start => exact initial
  | next _ admitted moved ih => exact kept _ _ _ ih admitted moved

theorem Reached.weaken {wider : S → A → Prop} (weaker : ∀ s a, allowed s a → wider s a)
    {s : S} (reached : Reached step allowed start s) : Reached step wider start s := by
  induction reached with
  | start => exact .start
  | next _ admitted moved ih => exact .next ih (weaker _ _ admitted) moved

theorem Reached.trans {s t : S} (first : Reached step allowed start s)
    (second : Reached step allowed s t) : Reached step allowed start t := by
  induction second with
  | start => exact first
  | next _ admitted moved ih => exact .next ih admitted moved

/-- Where each admitted step of one system is matched by a run of another, which may be empty,
whatever the first reaches is represented by something that the second reaches. -/
theorem Reached.matched {T B : Type} {move : T → B → Option T} {granted : T → B → Prop}
    {first : T} {R : S → T → Prop} (initial : R start first)
    (matched : ∀ s a s' t, R s t → allowed s a → step s a = some s' →
      ∃ t', Reached move granted t t' ∧ R s' t')
    {s : S} (reached : Reached step allowed start s) :
    ∃ t, Reached move granted first t ∧ R s t := by
  induction reached with
  | start => exact ⟨first, .start, initial⟩
  | next _ admitted moved ih =>
    obtain ⟨t, before, represented⟩ := ih
    obtain ⟨t', other, after⟩ := matched _ _ _ t represented admitted moved
    exact ⟨t', before.trans other, after⟩

/-- The same where every step is matched by one step. -/
theorem Reached.simulated {T B : Type} {move : T → B → Option T} {granted : T → B → Prop}
    {first : T} {R : S → T → Prop} (initial : R start first)
    (matched : ∀ s a s' t, R s t → allowed s a → step s a = some s' →
      ∃ b t', granted t b ∧ move t b = some t' ∧ R s' t')
    {s : S} (reached : Reached step allowed start s) : ∃ t, Reached move granted first t ∧ R s t :=
  reached.matched initial fun s a s' t related admitted moved => by
    obtain ⟨b, t', able, other, after⟩ := matched s a s' t related admitted moved
    exact ⟨t', Reached.start.next able other, after⟩

def run (step : S → A → Option S) : S → List A → Option S
  | s, [] => some s
  | s, a :: rest => (step s a).bind fun t => run step t rest

/-- Every step of the listed run is admitted where it is taken. -/
def Admitted (step : S → A → Option S) (allowed : S → A → Prop) : S → List A → Prop
  | _, [] => True
  | s, a :: rest => allowed s a ∧ ∀ t, step s a = some t → Admitted step allowed t rest

instance admittedDecidable [∀ s a, Decidable (allowed s a)] :
    ∀ (inputs : List A) (s : S), Decidable (Admitted step allowed s inputs)
  | [], _ => .isTrue trivial
  | a :: rest, s =>
    have : Decidable (∀ t, step s a = some t → Admitted step allowed t rest) :=
      match step s a with
      | none => .isTrue fun _ no => nomatch no
      | some t => @decidable_of_iff _ _ ⟨fun rest _ eq => Option.some.inj eq ▸ rest,
          fun all => all t rfl⟩ (admittedDecidable rest t)
    inferInstanceAs (Decidable (allowed s a ∧ _))

theorem run_append (first second : List A) :
    run step start (first ++ second) = (run step start first).bind fun s => run step s second := by
  induction first generalizing start with
  | nil => rfl
  | cons a rest ih =>
    simp only [List.cons_append, run, Option.bind_assoc]
    exact congrArg _ (funext fun t => ih)

theorem Admitted.append {first second : List A} (before : Admitted step allowed start first)
    (after : ∀ s, run step start first = some s → Admitted step allowed s second) :
    Admitted step allowed start (first ++ second) := by
  induction first generalizing start with
  | nil => exact after start rfl
  | cons a rest ih =>
    refine ⟨before.1, fun t moved => ih (before.2 t moved) fun s ran => after s ?_⟩
    simp only [run, moved, Option.bind_some, ran]

theorem Admitted.weaken {wider : S → A → Prop} (weaker : ∀ s a, allowed s a → wider s a)
    {inputs : List A} (admitted : Admitted step allowed start inputs) :
    Admitted step wider start inputs := by
  induction inputs generalizing start with
  | nil => trivial
  | cons a rest ih => exact ⟨weaker _ _ admitted.1, fun t moved => ih (admitted.2 t moved)⟩

/-- Where every environment is admitted, every listed run is. -/
theorem admitted_of_all (all : ∀ s a, allowed s a) (inputs : List A) :
    Admitted step allowed start inputs := by
  induction inputs generalizing start with
  | nil => trivial
  | cons a rest ih => exact ⟨all _ _, fun _ _ => ih⟩

theorem run_reached {inputs : List A} {s : S} (admitted : Admitted step allowed start inputs)
    (ran : run step start inputs = some s) : Reached step allowed start s := by
  induction inputs generalizing start with
  | nil =>
    cases Option.some.inj ran
    exact .start
  | cons a rest ih =>
    simp only [run, Option.bind_eq_some_iff] at ran
    obtain ⟨t, moved, tail⟩ := ran
    exact (Reached.next .start admitted.1 moved).trans (ih (admitted.2 t moved) tail)

theorem run_lasting {I : S → Prop} (lasting : ∀ s a t, I s → step s a = some t → I t)
    {inputs : List A} {t : S} (ran : run step start inputs = some t) (initial : I start) : I t := by
  induction inputs generalizing start with
  | nil =>
    cases Option.some.inj ran
    exact initial
  | cons a rest ih =>
    simp only [run, Option.bind_eq_some_iff] at ran
    obtain ⟨s, moved, tail⟩ := ran
    exact ih tail (lasting _ _ _ initial moved)

/-- Where one step that is not admitted spoils the state for good, the last state of a run tells
whether all its steps were admitted. -/
theorem run_decided {Good Bad : S → Prop}
    (kept : ∀ s a t, Good s → allowed s a → step s a = some t → Good t)
    (spoiled : ∀ s a t, Good s → ¬ allowed s a → step s a = some t → Bad t)
    (lasting : ∀ s a t, Bad s → step s a = some t → Bad t)
    {inputs : List A} {t : S} (ran : run step start inputs = some t) (initial : Good start) :
    Admitted step allowed start inputs ∧ Good t ∨ ¬ Admitted step allowed start inputs ∧ Bad t := by
  induction inputs generalizing start with
  | nil =>
    cases Option.some.inj ran
    exact .inl ⟨trivial, initial⟩
  | cons a rest ih =>
    simp only [run, Option.bind_eq_some_iff] at ran
    obtain ⟨s, moved, tail⟩ := ran
    by_cases admitted : allowed start a
    · rcases ih tail (kept _ _ _ initial admitted moved) with ⟨all, good⟩ | ⟨not_all, bad⟩
      · refine .inl ⟨⟨admitted, fun u other => ?_⟩, good⟩
        cases Option.some.inj (moved.symm.trans other)
        exact all
      · exact .inr ⟨fun all => not_all (all.2 s moved), bad⟩
    · have bad := spoiled _ _ _ initial admitted moved
      exact .inr ⟨fun all => admitted all.1, run_lasting lasting tail bad⟩

/-! ### Runs that leave a trace -/

section Traces
variable {W E : Type}

/-- Turns that complete, one after the other, with all that they have done. A turn can be refused
where it does not fit the state. -/
inductive Performs (turn : S → A → Option (Traced W E S)) : S → List W → S → Prop
  | nothing {s : S} : Performs turn s [] s
  | next {s t u : S} {a : A} {out : Traced W E S} {trace : List W} : turn s a = some out →
      out.result = .ok t → Performs turn t trace u → Performs turn s (out.trace ++ trace) u

variable {turn : S → A → Option (Traced W E S)} {s t u : S} {trace rest : List W}

theorem Performs.one {a : A} {out : Traced W E S} (turned : turn s a = some out)
    (done : out.result = .ok t) : Performs turn s out.trace t := by
  have last := Performs.next turned done .nothing
  rwa [List.append_nil] at last

theorem Performs.trans (first : Performs turn s trace t) (second : Performs turn t rest u) :
    Performs turn s (trace ++ rest) u := by
  induction first with
  | nothing => exact second
  | next turned done _ ih =>
    rw [List.append_assoc]
    exact .next turned done (ih second)

theorem Performs.reached (performs : Performs turn s trace t) :
    Reached (fun s a => (turn s a).bind Traced.value) (fun _ _ => True) s t := by
  induction performs with
  | nothing => exact .start
  | @next s t u a out trace turned done _ ih =>
    have moved : (turn s a).bind Traced.value = some t := by
      rw [turned, Option.bind_some, Traced.value_eq_some.mpr done]
    exact Reached.trans (.next .start trivial moved) ih

def perform (turn : S → A → Option (Traced W E S)) : S → List A → Option (List W × S)
  | s, [] => some ([], s)
  | s, a :: rest => (turn s a).bind fun out => out.value.bind fun t =>
    (perform turn t rest).map fun later => (out.trace ++ later.1, later.2)

theorem perform_performs {inputs : List A} (ran : perform turn s inputs = some (trace, t)) :
    Performs turn s trace t := by
  induction inputs generalizing s trace with
  | nil =>
    cases ran
    exact .nothing
  | cons a inputs ih =>
    simp only [perform, Option.bind_eq_some_iff, Option.map_eq_some_iff] at ran
    obtain ⟨out, turned, u, done, ⟨rest, v⟩, later, same⟩ := ran
    cases same
    exact .next turned (Traced.value_eq_some.mp done) (ih later)

/-- Where each turn of one system is a run of another that does the same, so is each run. -/
theorem Performs.matched {T B : Type} {move : T → B → Option (Traced W E T)} {R : S → T → Prop}
    (matched : ∀ s a out t x, R s x → turn s a = some out → out.result = .ok t →
      ∃ y, Performs move x out.trace y ∧ R t y)
    (performs : Performs turn s trace t) {x : T} (related : R s x) :
    ∃ y, Performs move x trace y ∧ R t y := by
  induction performs generalizing x with
  | nothing => exact ⟨x, .nothing, related⟩
  | next turned done _ ih =>
    obtain ⟨y, first, related⟩ := matched _ _ _ _ x related turned done
    obtain ⟨z, second, related⟩ := ih related
    exact ⟨z, first.trans second, related⟩

end Traces

end Runs
