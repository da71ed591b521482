import Mathlib.Data.List.Nodup
import Mathlib.Logic.Function.Basic

/-! Boards of topics. Subscribers ask about a topic while it is open, and when it is closed each
of those on its list is told once. Subscribers who count as the same person are listed once: the
first of them is. -/
namespace Notices

structure Board (T S : Type) where
  audience : T → Option (List S) := fun _ => none
  asked : List (S × T) := []
  silent : List T := []
  notices : List (S × T) := []

inductive Op (T S : Type) where
  | begin (t : T) (s : S)
  | join (t : T) (s : S)
  | close (t : T)
  /-- The topic is closed, and nobody is told. -/
  | drop (t : T)
  deriving DecidableEq

variable {T S P : Type} [DecidableEq T] [DecidableEq S] [DecidableEq P] {person : S → P}

def Board.step (person : S → P) (b : Board T S) : Op T S → Board T S
  | .begin t s =>
    { b with
      audience := Function.update b.audience t (some [s])
      asked := b.asked ++ [(s, t)] }
  | .join t s =>
    match b.audience t with
    | none => b
    | some heard =>
      { b with
        audience := Function.update b.audience t
          (some (if person s ∈ heard.map person then heard else heard ++ [s]))
        asked := b.asked ++ [(s, t)] }
  | .close t =>
    { b with
      audience := Function.update b.audience t none
      notices := b.notices ++ ((b.audience t).getD []).map fun s => (s, t) }
  | .drop t =>
    { b with
      audience := Function.update b.audience t none
      silent := if (b.audience t).isSome then t :: b.silent else b.silent }

def Fresh (b : Board T S) : Op T S → Prop
  | .begin t _ => ∀ s, (s, t) ∉ b.asked
  | _ => True

/-! ### The first to ask -/

/-- Of those who count as the same person this one has asked first about the topic. -/
def First (person : S → P) (asked : List (S × T)) (s : S) (t : T) : Prop :=
  asked.find? (fun a => person a.1 = person s ∧ a.2 = t) = some (s, t)

instance (asked : List (S × T)) (s : S) (t : T) : Decidable (First person asked s t) :=
  inferInstanceAs (Decidable (_ = _))

section First
variable {asked : List (S × T)} {s r : S} {t u : T}

omit [DecidableEq S] in
theorem First.mem (first : First person asked s t) : (s, t) ∈ asked :=
  List.mem_of_find?_eq_some first

omit [DecidableEq S] in
/-- Whoever asks, the first to ask counts as the same person. -/
theorem exists_first (member : (s, t) ∈ asked) :
    ∃ r, person r = person s ∧ First person asked r t := by
  have found : (asked.find? fun a => person a.1 = person s ∧ a.2 = t).isSome :=
    List.find?_isSome.mpr ⟨(s, t), member, by simp⟩
  obtain ⟨⟨r, u⟩, found⟩ := Option.isSome_iff_exists.mp found
  obtain ⟨same, rfl⟩ : person r = person s ∧ u = t := by simpa using List.find?_some found
  exact ⟨r, same, by rw [First, same]; exact found⟩

omit [DecidableEq S] in
theorem first_append : First person (asked ++ [(s, t)]) r u ↔ First person asked r u ∨
    r = s ∧ u = t ∧ ∀ a ∈ asked, ¬ (person a.1 = person s ∧ a.2 = t) := by
  unfold First
  rw [List.find?_append]
  cases found : asked.find? fun a => person a.1 = person r ∧ a.2 = u with
  | some a =>
    rw [Option.some_or]
    refine ⟨.inl, fun either => either.resolve_right ?_⟩
    rintro ⟨rfl, rfl, nobody⟩
    have same : person a.1 = person r ∧ a.2 = u := by simpa using List.find?_some found
    exact nobody a (List.mem_of_find?_eq_some found) same
  | none =>
    have nobody : ∀ a ∈ asked, ¬ (person a.1 = person r ∧ a.2 = u) := fun a member =>
      by simpa using List.find?_eq_none.mp found a member
    simp only [Option.none_or, reduceCtorEq, false_or, List.find?_singleton]
    constructor
    · intro last
      split at last
      · cases last
        exact ⟨rfl, rfl, nobody⟩
      · cases last
    · rintro ⟨rfl, rfl, _⟩
      simp

end First

/-- The list of an open topic are those who have asked first, each once. When a topic is closed
they have been told once, unless nobody was. -/
structure Told (person : S → P) (b : Board T S) : Prop where
  distinct : ∀ t heard, b.audience t = some heard → (heard.map person).Nodup
  heard : ∀ t heard, b.audience t = some heard → ∀ s, s ∈ heard ↔ First person b.asked s t
  known : ∀ t, b.audience t ≠ none → ∃ s, (s, t) ∈ b.asked
  silent : ∀ t ∈ b.silent, (∃ s, (s, t) ∈ b.asked) ∧ b.audience t = none
  notices : ∀ s t, b.notices.count (s, t) =
    if First person b.asked s t ∧ b.audience t = none ∧ t ∉ b.silent then 1 else 0

variable {b : Board T S}

theorem Told.begin (told : Told person b) {t : T} {s : S} (fresh : ∀ s, (s, t) ∉ b.asked) :
    Told person (b.step person (.begin t s)) where
  distinct u heard found := by
    simp only [Board.step, Function.update_apply] at found
    split at found
    · cases found
      exact List.nodup_singleton _
    · exact told.distinct u heard found
  heard u heard found r := by
    simp only [Board.step, Function.update_apply, first_append] at found ⊢
    split at found
    · rename_i here
      cases found
      have unasked : ∀ a ∈ b.asked, ¬ (person a.1 = person s ∧ a.2 = t) :=
        fun a member both => fresh a.1 (both.2 ▸ member)
      have new : ¬ First person b.asked r t := fun first => fresh r first.mem
      rw [here, List.mem_singleton]
      exact ⟨fun same => .inr ⟨same, rfl, unasked⟩, fun either => (either.resolve_left new).1⟩
    · rename_i other
      rw [told.heard u heard found r]
      simp [other]
  known u found := by
    simp only [Board.step, Function.update_apply] at found
    split at found
    · rename_i here
      exact ⟨s, List.mem_append_right _ (List.mem_singleton.mpr (here ▸ rfl))⟩
    · obtain ⟨r, old⟩ := told.known u found
      exact ⟨r, List.mem_append_left _ old⟩
  silent u member := by
    obtain ⟨⟨r, old⟩, closed⟩ := told.silent u member
    have other : u ≠ t := fun same => fresh r (same ▸ old)
    exact ⟨⟨r, List.mem_append_left _ old⟩, by simp [Board.step, other, closed]⟩
  notices r u := by
    simp only [Board.step, told.notices r u, Function.update_apply, first_append]
    by_cases here : u = t
    · have new : ¬ First person b.asked r u := fun first => fresh r (here ▸ first.mem)
      simp [here, here ▸ new]
    · simp [here]

/-- On the list of an open topic is everybody who has asked about it, if only as the person that
another has been before. -/
theorem Told.listed (told : Told person b) {t : T} {heard : List S}
    (audience : b.audience t = some heard) (s : S) :
    person s ∈ heard.map person ↔ ∃ a ∈ b.asked, person a.1 = person s ∧ a.2 = t := by
  rw [List.mem_map]
  constructor
  · rintro ⟨r, there, same⟩
    exact ⟨(r, t), ((told.heard t heard audience r).mp there).mem, same, rfl⟩
  · rintro ⟨⟨q, _⟩, asked, same, rfl⟩
    obtain ⟨r, own, first⟩ := @exists_first _ _ _ _ _ person _ _ _ asked
    exact ⟨r, (told.heard _ heard audience r).mpr first, own.trans same⟩

theorem Told.joined (told : Told person b) {t : T} {heard : List S}
    (audience : b.audience t = some heard) (s r : S) :
    r ∈ (if person s ∈ heard.map person then heard else heard ++ [s]) ↔
      First person (b.asked ++ [(s, t)]) r t := by
  have listed := told.listed audience s
  rw [first_append, ← told.heard t heard audience r]
  by_cases there : person s ∈ heard.map person
  · have old := listed.mp there
    simp only [there, if_true]
    refine ⟨.inl, fun either => either.resolve_right ?_⟩
    rintro ⟨_, _, nobody⟩
    obtain ⟨a, member, both⟩ := old
    exact nobody a member both
  · have new : ∀ a ∈ b.asked, ¬ (person a.1 = person s ∧ a.2 = t) :=
      fun a member both => there (listed.mpr ⟨a, member, both⟩)
    simp only [there, if_false, List.mem_append, List.mem_singleton, true_and]
    exact or_congr_right ⟨fun same => ⟨same, new⟩, And.left⟩

theorem Told.join (told : Told person b) (t : T) (s : S) :
    Told person (b.step person (.join t s)) := by
  cases audience : b.audience t with
  | none => simpa only [Board.step, audience] using told
  | some heard =>
    have elsewhere : ∀ u, u ≠ t → Function.update b.audience t
        (some (if person s ∈ heard.map person then heard else heard ++ [s])) u = b.audience u :=
      fun u other => Function.update_of_ne other _ _
    constructor
    · intro u list found
      simp only [Board.step, audience] at found
      by_cases here : u = t
      · subst here
        rw [Function.update_self, Option.some.injEq] at found
        subst found
        have distinct := told.distinct u heard audience
        split
        · exact distinct
        · rename_i new
          simp only [List.map_append, List.map_cons, List.map_nil, List.nodup_append, distinct,
            List.nodup_singleton, true_and, List.mem_singleton]
          rintro r there _ rfl rfl
          exact new there
      · rw [elsewhere u here] at found
        exact told.distinct u list found
    · intro u list found r
      simp only [Board.step, audience] at found ⊢
      by_cases here : u = t
      · subst here
        rw [Function.update_self, Option.some.injEq] at found
        subst found
        exact told.joined audience s r
      · rw [elsewhere u here] at found
        rw [told.heard u list found r, first_append]
        simp [here]
    · intro u found
      simp only [Board.step, audience] at found ⊢
      by_cases here : u = t
      · subst here
        exact ⟨s, List.mem_append_right _ List.mem_cons_self⟩
      · rw [elsewhere u here] at found
        obtain ⟨r, old⟩ := told.known u found
        exact ⟨r, List.mem_append_left _ old⟩
    · intro u member
      simp only [Board.step, audience] at member ⊢
      obtain ⟨⟨r, old⟩, closed⟩ := told.silent u member
      have other : u ≠ t := by
        rintro rfl
        rw [closed] at audience
        cases audience
      exact ⟨⟨r, List.mem_append_left _ old⟩, (elsewhere u other).trans closed⟩
    · intro r u
      simp only [Board.step, audience, told.notices r u, first_append]
      by_cases here : u = t
      · subst here
        simp [audience]
      · simp [here]

omit [DecidableEq S] in
/-- What both ways of closing a topic leave as it was. -/
theorem audience_of_closed {t u : T} {heard : List S}
    (found : Function.update b.audience t none u = some heard) :
    u ≠ t ∧ b.audience u = some heard := by
  rw [Function.update_apply] at found
  split at found
  · cases found
  · rename_i other
    exact ⟨other, found⟩

theorem Told.close (told : Told person b) (t : T) : Told person (b.step person (.close t)) where
  distinct u heard found := told.distinct u heard (audience_of_closed found).2
  heard u heard found := told.heard u heard (audience_of_closed found).2
  known u found := by
    obtain ⟨heard, audience⟩ := Option.ne_none_iff_exists'.mp found
    exact told.known u (by simp [(audience_of_closed audience).2])
  silent u member := by
    obtain ⟨old, closed⟩ := told.silent u member
    refine ⟨old, ?_⟩
    simp only [Board.step, Function.update_apply, closed, ite_self]
  notices r u := by
    have mapped (heard : List S) : (heard.map fun s => (s, t)).count (r, u) =
        if u = t then heard.count r else 0 := by
      by_cases here : u = t
      · subst here
        rw [if_pos rfl]
        induction heard with
        | nil => rfl
        | cons s rest ih => simp [List.count_cons, ih]
      · rw [if_neg here, List.count_eq_zero]
        intro member
        obtain ⟨s, _, same⟩ := List.mem_map.mp member
        exact here (Prod.mk.inj same).2.symm
    simp only [Board.step, List.count_append, told.notices r u, mapped, Function.update_apply]
    by_cases here : u = t
    · subst here
      cases audience : b.audience u with
      | none => simp
      | some heard =>
        have unsilent : u ∉ b.silent := fun member => by
          rw [(told.silent u member).2] at audience
          cases audience
        have members := told.heard u heard audience r
        have distinct := List.Nodup.of_map person (told.distinct u heard audience)
        simp [← members, unsilent, distinct.count]
    · simp [here]

theorem Told.drop (told : Told person b) (t : T) : Told person (b.step person (.drop t)) where
  distinct u heard found := told.distinct u heard (audience_of_closed found).2
  heard u heard found := told.heard u heard (audience_of_closed found).2
  known u found := by
    obtain ⟨heard, audience⟩ := Option.ne_none_iff_exists'.mp found
    exact told.known u (by simp [(audience_of_closed audience).2])
  silent u member := by
    simp only [Board.step] at member ⊢
    by_cases here : u = t
    · subst here
      refine ⟨?_, Function.update_self ..⟩
      split at member
      · rename_i open_
        exact told.known u (Option.isSome_iff_ne_none.mp open_)
      · exact (told.silent u member).1
    · have old : u ∈ b.silent := by
        split at member
        · exact (List.mem_cons.mp member).resolve_left here
        · exact member
      rw [Function.update_of_ne here]
      exact told.silent u old
  notices r u := by
    rw [show (b.step person (.drop t)).notices = b.notices from rfl, told.notices r u]
    by_cases here : u = t
    · subst here
      by_cases closed : b.audience u = none
      · simp [Board.step, closed]
      · simp [Board.step, closed, Option.isSome_iff_ne_none]
    · by_cases there : (b.audience t).isSome <;> simp [Board.step, here, there]

/-- Every step at which no topic is begun a second time keeps the account. -/
theorem Told.step (told : Told person b) {op : Op T S} (fresh : Fresh b op) :
    Told person (b.step person op) := by
  cases op with
  | begin t s => exact told.begin fresh
  | join t s => exact told.join t s
  | close t => exact told.close t
  | drop t => exact told.drop t

/-! ### Several topics at once -/

inductive Ending where
  | stays
  | told
  | silent
  deriving DecidableEq

def Ending.op (t : T) : Ending → Option (Op T S)
  | .stays => none
  | .told => some (.close t)
  | .silent => some (.drop t)

theorem Told.steps (told : Told person b) {ops : List (Op T S)}
    (ends : ∀ op ∈ ops, ∀ t s, op ≠ .begin t s) :
    Told person (ops.foldl (Board.step person) b) := by
  induction ops generalizing b with
  | nil => exact told
  | cons op rest ih =>
    refine ih (told.step ?_) fun op later => ends op (List.mem_cons_of_mem _ later)
    cases op with
    | begin t s => exact absurd rfl (ends _ List.mem_cons_self t s)
    | join t s => trivial
    | close t => trivial
    | drop t => trivial

/-- What is left of the board and what has been told when some of the topics in a list have
ended. -/
structure Ended {R : Type} (key : R → T) (heard : R → List S) (ending : R → Ending)
    (xs : List R) (b c : Board T S) : Prop where
  audience : ∀ t, c.audience t =
    if ∃ x ∈ xs, key x = t ∧ ending x ≠ .stays then none else b.audience t
  notices : c.notices = b.notices ++ xs.flatMap fun x =>
    if ending x = .told then (heard x).map fun s => (s, key x) else []
  asked : c.asked = b.asked
  silent : ∀ t, t ∈ c.silent ↔ t ∈ b.silent ∨ ∃ x ∈ xs, key x = t ∧ ending x = .silent

omit [DecidableEq S] in
variable (person) in
theorem ended {R : Type} {key : R → T} {heard : R → List S} (ending : R → Ending) {xs : List R}
    (keys : (xs.map key).Nodup) (known : ∀ x ∈ xs, b.audience (key x) = some (heard x)) :
    Ended key heard ending xs b
      ((xs.filterMap fun x => (ending x).op (key x)).foldl (Board.step person) b) := by
  induction xs generalizing b with
  | nil => constructor <;> simp
  | cons x rest ih =>
    obtain ⟨fresh, keys⟩ := List.nodup_cons.mp keys
    have here := known x List.mem_cons_self
    have later : ∀ y ∈ rest, y ∈ x :: rest := fun y there => List.mem_cons_of_mem _ there
    have apart : ∀ y ∈ rest, key y ≠ key x := fun y there same =>
      fresh (same ▸ List.mem_map_of_mem there)
    cases how : ending x with
    | stays =>
      have rest := ih keys fun y there => known y (later y there)
      rw [List.filterMap_cons_none (by rw [how]; rfl)]
      generalize List.foldl (Board.step person) b _ = c at rest ⊢
      constructor
      · simp [rest.audience, how]
      · simp [rest.notices, how]
      · exact rest.asked
      · simp [rest.silent, how]
    | told =>
      have rest := ih (b := b.step person (.close (key x))) keys fun y there => by
        simp [Board.step, apart y there, known y (later y there)]
      rw [List.filterMap_cons_some (by rw [how]; rfl), List.foldl_cons]
      generalize List.foldl (Board.step person) (b.step person (.close (key x))) _ = c at rest ⊢
      constructor
      · intro t
        by_cases same : t = key x
        · simp [rest.audience, Board.step, how, same]
        · simp [rest.audience, Board.step, how, same, Ne.symm same]
      · simp [rest.notices, how, Board.step, here]
      · exact rest.asked
      · simp [rest.silent, how, Board.step]
    | silent =>
      have rest := ih (b := b.step person (.drop (key x))) keys fun y there => by
        simp [Board.step, apart y there, known y (later y there)]
      rw [List.filterMap_cons_some (by rw [how]; rfl), List.foldl_cons]
      generalize List.foldl (Board.step person) (b.step person (.drop (key x))) _ = c at rest ⊢
      constructor
      · intro t
        by_cases same : t = key x
        · simp [rest.audience, Board.step, how, same]
        · simp [rest.audience, Board.step, how, same, Ne.symm same]
      · simp [rest.notices, how, Board.step]
      · exact rest.asked
      · intro t
        simp [rest.silent, how, Board.step, here, eq_comm, or_left_comm, or_assoc]

end Notices
