import Sace.Library.Runs

/-! Two runs that differ only in hidden steps. Which steps are hidden may depend on the state
they are taken in. -/
namespace Purge

variable {S A : Type}

/-- What is left of a run without its hidden steps. -/
def purge (step : S → A → Option S) (hidden : S → A → Bool) : S → List A → List A
  | _, [] => []
  | s, a :: rest =>
    let left := match step s a with
      | none => []
      | some t => purge step hidden t rest
    if hidden s a then left else a :: left

variable {step : S → A → Option S} {hidden : S → A → Bool} {alike : S → S → Prop}

/-- Hidden steps lead to states that look alike, and what is not hidden does the same in
states that look alike. -/
structure Unwinding (step : S → A → Option S) (hidden : S → A → Bool)
    (alike : S → S → Prop) : Prop where
  symm : ∀ {s t}, alike s t → alike t s
  skip : ∀ {s t s' a}, alike s t → hidden s a = true → step s a = some s' → alike s' t
  follow : ∀ {s t s' t' a}, alike s t → hidden s a = false → hidden t a = false →
    step s a = some s' → step t a = some t' → alike s' t'

theorem purge_hidden {s t : S} {a : A} {rest : List A} (hides : hidden s a = true)
    (moved : step s a = some t) :
    purge step hidden s (a :: rest) = purge step hidden t rest := by
  simp [purge, hides, moved]

theorem purge_seen {s t : S} {a : A} {rest : List A} (seen : hidden s a = false)
    (moved : step s a = some t) :
    purge step hidden s (a :: rest) = a :: purge step hidden t rest := by
  simp [purge, seen, moved]

/-- A run leads through hidden steps to its first one that is not hidden, or to its end. -/
theorem Unwinding.first (unwinding : Unwinding step hidden alike) {s t t' : S} {ys : List A}
    (same : alike s t) (ran : Runs.run step t ys = some t') :
    (purge step hidden t ys = [] ∧ alike s t') ∨
    ∃ u u' b rest, alike s u ∧ hidden u b = false ∧ step u b = some u' ∧
      Runs.run step u' rest = some t' ∧
      purge step hidden t ys = b :: purge step hidden u' rest := by
  induction ys generalizing t with
  | nil =>
    cases Option.some.inj ran
    exact .inl ⟨rfl, same⟩
  | cons b rest ih =>
    obtain ⟨u, moved, tail⟩ := Option.bind_eq_some_iff.mp ran
    cases hides : hidden t b with
    | true =>
      rw [purge_hidden hides moved]
      exact ih (unwinding.symm (unwinding.skip (unwinding.symm same) hides moved)) tail
    | false =>
      exact .inr ⟨t, u, b, rest, same, hides, moved, tail, purge_seen hides moved⟩

/-- Runs with the same steps that are not hidden end in states that look alike. -/
theorem Unwinding.runs (unwinding : Unwinding step hidden alike) {s t s' t' : S}
    {xs ys : List A} (same : alike s t) (ran : Runs.run step s xs = some s')
    (ran' : Runs.run step t ys = some t')
    (purged : purge step hidden s xs = purge step hidden t ys) : alike s' t' := by
  induction xs generalizing s t ys with
  | nil =>
    cases Option.some.inj ran
    rcases unwinding.first same ran' with ⟨-, end_⟩ | ⟨u, u', b, rest, -, -, -, -, eq⟩
    · exact end_
    · rw [eq] at purged
      cases purged
  | cons a xs ih =>
    obtain ⟨u, moved, tail⟩ := Option.bind_eq_some_iff.mp ran
    cases hides : hidden s a with
    | true =>
      rw [purge_hidden hides moved] at purged
      exact ih (unwinding.skip same hides moved) tail ran' purged
    | false =>
      rw [purge_seen hides moved] at purged
      rcases unwinding.first same ran' with ⟨eq, -⟩ | ⟨v, v', b, rest, same', seen, moved', tail',
        eq⟩
      · rw [eq] at purged
        cases purged
      · rw [eq] at purged
        obtain ⟨rfl, left⟩ := List.cons.inj purged
        exact ih (unwinding.follow same' hides seen moved moved') tail tail' left

end Purge
