import Mathlib.Data.List.Basic

/-! Computations that leave a trace and may stop with a fault. What was done
before the fault stays in the trace: a message that has left is not called back. -/

structure Traced (W E A : Type) where
  trace : List W
  result : Except E A

namespace Traced

variable {W E A B C : Type}

def emit (w : W) : Traced W E Unit := ⟨[w], .ok ()⟩
def emitAll (ws : List W) : Traced W E Unit := ⟨ws, .ok ()⟩
def fault (e : E) : Traced W E A := ⟨[], .error e⟩

instance : Monad (Traced W E) where
  pure a := ⟨[], .ok a⟩
  bind x f := match x.result with
    | .ok a => ⟨x.trace ++ (f a).trace, (f a).result⟩
    | .error e => ⟨x.trace, .error e⟩

def value (x : Traced W E A) : Option A := x.result.toOption

@[simp] theorem pure_trace (a : A) : (pure a : Traced W E A).trace = [] := rfl
@[simp] theorem pure_result (a : A) : (pure a : Traced W E A).result = .ok a := rfl
@[simp] theorem emit_trace (w : W) : (emit w : Traced W E Unit).trace = [w] := rfl
@[simp] theorem emit_result (w : W) : (emit w : Traced W E Unit).result = .ok () := rfl
@[simp] theorem emitAll_trace (ws : List W) : (emitAll ws : Traced W E Unit).trace = ws := rfl
@[simp] theorem emitAll_result (ws : List W) : (emitAll ws : Traced W E Unit).result = .ok () := rfl
@[simp] theorem fault_trace (e : E) : (fault e : Traced W E A).trace = [] := rfl
@[simp] theorem fault_result (e : E) : (fault e : Traced W E A).result = .error e := rfl

theorem bind_def (x : Traced W E A) (f : A → Traced W E B) :
    x >>= f = match x.result with
      | .ok a => ⟨x.trace ++ (f a).trace, (f a).result⟩
      | .error e => ⟨x.trace, .error e⟩ := rfl

theorem bind_of_ok {x : Traced W E A} {a : A} (h : x.result = .ok a) (f : A → Traced W E B) :
    x >>= f = ⟨x.trace ++ (f a).trace, (f a).result⟩ := by
  simp only [bind_def, h]

theorem bind_of_error {x : Traced W E A} {e : E} (h : x.result = .error e)
    (f : A → Traced W E B) : x >>= f = ⟨x.trace, .error e⟩ := by
  simp only [bind_def, h]

@[simp] theorem pure_then (a : A) (f : A → Traced W E B) : pure a >>= f = f a := by
  simp [bind_def]

@[simp] theorem emit_then (w : W) (f : Unit → Traced W E B) :
    emit w >>= f = ⟨w :: (f ()).trace, (f ()).result⟩ := by simp [bind_def]

@[simp] theorem emitAll_then (ws : List W) (f : Unit → Traced W E B) :
    emitAll ws >>= f = ⟨ws ++ (f ()).trace, (f ()).result⟩ := by simp [bind_def]

@[simp] theorem fault_then (e : E) (f : A → Traced W E B) :
    (fault e : Traced W E A) >>= f = fault e := by simp [bind_def, fault]

theorem bind_ok {x : Traced W E A} {f : A → Traced W E B} {b : B} :
    (x >>= f).result = .ok b ↔ ∃ a, x.result = .ok a ∧ (f a).result = .ok b := by
  cases h : x.result with
  | ok a => simp [bind_of_ok h]
  | error e => simp [bind_of_error h]

theorem mem_bind {x : Traced W E A} {f : A → Traced W E B} {w : W} :
    w ∈ (x >>= f).trace ↔ w ∈ x.trace ∨ ∃ a, x.result = .ok a ∧ w ∈ (f a).trace := by
  cases h : x.result with
  | ok a => simp [bind_of_ok h]
  | error e => simp [bind_of_error h]

theorem bind_assoc (x : Traced W E A) (f : A → Traced W E B) (g : B → Traced W E C) :
    (x >>= f) >>= g = x >>= fun a => f a >>= g := by
  cases first : x.result with
  | error e => rw [bind_of_error first, bind_of_error first, bind_of_error rfl]
  | ok a =>
    rw [bind_of_ok first, bind_of_ok first]
    cases second : (f a).result with
    | error e => rw [bind_of_error rfl, bind_of_error second]
    | ok b => rw [bind_of_ok rfl, bind_of_ok second, List.append_assoc]

theorem value_eq_some {x : Traced W E A} {a : A} : x.value = some a ↔ x.result = .ok a := by
  unfold value
  cases x.result <;> simp [Except.toOption]

@[simp] theorem then_pure (x : Traced W E A) : (x >>= fun a => pure a) = x := by
  cases x with | mk trace result => cases result <;> simp [bind_def]

theorem bind_pure_eq (x : Traced W E A) (f : A → B) :
    (x >>= fun a => pure (f a)) = ⟨x.trace, x.result.map f⟩ := by
  cases x with | mk trace result => cases result <;> simp [bind_def, Except.map]

/-! ### A property of everything that was done -/

def Every (P : W → Prop) (x : Traced W E A) : Prop := ∀ w ∈ x.trace, P w

variable {P : W → Prop}

@[simp] theorem every_pure (a : A) : Every P (pure a : Traced W E A) := by simp [Every]

@[simp] theorem every_fault (e : E) : Every P (fault e : Traced W E A) := by simp [Every]

@[simp] theorem every_emit (w : W) : Every P (emit w : Traced W E Unit) ↔ P w := by simp [Every]

@[simp] theorem every_emitAll (ws : List W) :
    Every P (emitAll ws : Traced W E Unit) ↔ ∀ w ∈ ws, P w := by simp [Every]

theorem every_bind {x : Traced W E A} {f : A → Traced W E B} :
    Every P (x >>= f) ↔ Every P x ∧ ∀ a, x.result = .ok a → Every P (f a) := by
  simp only [Every, mem_bind]
  constructor
  · intro all
    exact ⟨fun w here => all w (.inl here),
      fun a done w later => all w (.inr ⟨a, done, later⟩)⟩
  · rintro ⟨first, second⟩ w (here | ⟨a, done, later⟩)
    · exact first w here
    · exact second a done w later

theorem Every.then_pure {x : Traced W E A} (every : Every P x) (f : A → B) :
    Every P (x >>= fun a => pure (f a)) :=
  every_bind.mpr ⟨every, fun _ _ => every_pure _⟩

/-- Steps that either change nothing or do something else than `P`: a run of them does nothing
but `P` exactly when all of them change nothing. -/
theorem every_foldlM {S : Type} {s : S} {step : S → A → Traced W E S} {quiet : A → Prop}
    (still : ∀ a, quiet a → step s a = pure s)
    (loud : ∀ a, ¬ quiet a → ∃ w ∈ (step s a).trace, ¬ P w) (steps : List A) :
    Every P (steps.foldlM step s) ↔ ∀ a ∈ steps, quiet a := by
  induction steps with
  | nil => simp [Every]
  | cons a rest ih =>
    rw [List.foldlM_cons, List.forall_mem_cons]
    by_cases same : quiet a
    · rw [still a same, pure_then, ih, and_iff_right same]
    · obtain ⟨w, done, other⟩ := loud a same
      exact iff_of_false (fun all => other (all w (mem_bind.mpr (.inl done)))) fun all => same all.1

/-! ### What is done at most once -/

/-- Of the things that `p` is about at most one is done, and only if `C` holds. -/
structure Once (p : W → Bool) (C : Prop) (x : Traced W E A) : Prop where
  once : x.trace.countP p ≤ 1
  only : ∀ w ∈ x.trace, p w = true → C

variable {p : W → Bool} {C D : Prop}

theorem once_of_never {x : Traced W E A} (never : Every (fun w => p w = false) x) :
    Once p C x where
  once := by
    have zero : x.trace.countP p = 0 := by
      apply List.countP_eq_zero.mpr
      intro w member
      simp [never w member]
    omega
  only w member here := by simp [never w member] at here

theorem once_emit {w : W} (only : p w = true → C) : Once p C (emit w : Traced W E Unit) where
  once := List.countP_le_length
  only v member here := by
    cases List.mem_singleton.mp member
    exact only here

theorem Once.weaken {x : Traced W E A} (once : Once p C x) (weaker : C → D) : Once p D x :=
  ⟨once.once, fun w member here => weaker (once.only w member here)⟩

theorem Once.bind_left {x : Traced W E A} {f : A → Traced W E B} (first : Once p C x)
    (never : ∀ a, x.result = .ok a → Every (fun w => p w = false) (f a)) : Once p C (x >>= f) where
  once := by
    cases done : x.result with
    | error e =>
      rw [bind_of_error done]
      exact first.once
    | ok a =>
      have zero : (f a).trace.countP p = 0 := by
        apply List.countP_eq_zero.mpr
        intro w member
        simp [never a done w member]
      rw [bind_of_ok done]
      simp only [List.countP_append, zero, Nat.add_zero]
      exact first.once
  only w member here := by
    rcases mem_bind.mp member with member | ⟨a, done, member⟩
    · exact first.only w member here
    · simp [never a done w member] at here

theorem Once.then_pure {x : Traced W E A} (once : Once p C x) (f : A → B) :
    Once p C (x >>= fun a => pure (f a)) :=
  once.bind_left fun _ _ => every_pure _

theorem Once.bind_right {x : Traced W E A} {f : A → Traced W E B}
    (never : Every (fun w => p w = false) x) (second : ∀ a, x.result = .ok a → Once p C (f a)) :
    Once p C (x >>= f) where
  once := by
    have zero : x.trace.countP p = 0 := by
      apply List.countP_eq_zero.mpr
      intro w member
      simp [never w member]
    cases done : x.result with
    | error e =>
      rw [bind_of_error done]
      simp only [zero, Nat.zero_le]
    | ok a =>
      rw [bind_of_ok done]
      simp only [List.countP_append, zero, Nat.zero_add]
      exact (second a done).once
  only w member here := by
    rcases mem_bind.mp member with member | ⟨a, done, member⟩
    · simp [never w member] at here
    · exact (second a done).only w member here

end Traced
