import Mathlib.Data.List.Nodup

/-! Registers: records in the order of their entry, no two with one key or with one name. -/

structure Register {R K N : Type} (key : R → K) (name : R → N) where
  records : List R
  keys : (records.map key).Nodup
  names : (records.map name).Nodup

namespace Register

variable {R K N : Type} {key : R → K} {name : R → N}

@[ext] theorem ext {r t : Register key name} (same : r.records = t.records) : r = t := by
  cases r
  cases t
  cases same
  rfl

def empty : Register key name := ⟨[], List.nodup_nil, List.nodup_nil⟩

theorem key_unique (r : Register key name) {x y : R} (first : x ∈ r.records)
    (second : y ∈ r.records) (same : key x = key y) : x = y :=
  List.inj_on_of_nodup_map r.keys first second same

theorem name_unique (r : Register key name) {x y : R} (first : x ∈ r.records)
    (second : y ∈ r.records) (same : name x = name y) : x = y :=
  List.inj_on_of_nodup_map r.names first second same

def keep (r : Register key name) (p : R → Bool) : Register key name where
  records := r.records.filter p
  keys := r.keys.sublist (List.filter_sublist.map key)
  names := r.names.sublist (List.filter_sublist.map name)

@[simp] theorem keep_records (r : Register key name) (p : R → Bool) :
    (r.keep p).records = r.records.filter p := rfl

theorem keep_all {r : Register key name} {p : R → Bool} (all : ∀ x ∈ r.records, p x = true) :
    r.keep p = r :=
  ext (List.filter_eq_self.mpr all)

/-- What is said of one record only. -/
theorem flatMap_single {B : Type} {r : Register key name} {x : R} {f : R → List B}
    (member : x ∈ r.records) (others : ∀ y ∈ r.records, y ≠ x → f y = []) :
    r.records.flatMap f = f x := by
  obtain ⟨before, after, eq⟩ := List.append_of_mem member
  have apart := List.nodup_middle.mp (eq ▸ r.keys.of_map)
  rw [List.nodup_cons, List.mem_append, not_or] at apart
  rw [eq] at others ⊢
  have first : before.flatMap f = [] := List.flatMap_eq_nil_iff.mpr fun y there =>
    others y (List.mem_append_left _ there) fun same => apart.1.1 (same ▸ there)
  have second : after.flatMap f = [] := List.flatMap_eq_nil_iff.mpr fun y there =>
    others y (List.mem_append_right _ (List.mem_cons_of_mem _ there))
      fun same => apart.1.2 (same ▸ there)
  rw [List.flatMap_append, List.flatMap_cons, first, second, List.append_nil, List.nil_append]

section Lookup
variable [DecidableEq K] {k : K} {x : R}

def byKey (r : Register key name) (k : K) : Option R := r.records.find? fun x => key x = k

theorem byKey_eq_some {r : Register key name} :
    r.byKey k = some x ↔ x ∈ r.records ∧ key x = k := by
  constructor
  · intro found
    exact ⟨List.mem_of_find?_eq_some found, by simpa using List.find?_some found⟩
  · rintro ⟨member, rfl⟩
    cases found : r.byKey (key x) with
    | none => simpa using List.find?_eq_none.mp found x member
    | some y =>
      have own : key y = key x := by simpa using List.find?_some found
      rw [r.key_unique (List.mem_of_find?_eq_some found) member own]

theorem byKey_eq_none {r : Register key name} : r.byKey k = none ↔ k ∉ r.records.map key := by
  rw [byKey, List.find?_eq_none, List.mem_map]
  simp

def change (r : Register key name) (k : K) (f : R → R)
    (same : ∀ x, key (f x) = key x ∧ name (f x) = name x) : Register key name where
  records := r.records.map fun x => if key x = k then f x else x
  keys := by
    rw [List.map_map, List.map_congr_left (g := key)]
    · exact r.keys
    · intro x _
      simp only [Function.comp]
      split
      · exact (same x).1
      · rfl
  names := by
    rw [List.map_map, List.map_congr_left (g := name)]
    · exact r.names
    · intro x _
      simp only [Function.comp]
      split
      · exact (same x).2
      · rfl

theorem byKey_change {r : Register key name} {f : R → R}
    {same : ∀ x, key (f x) = key x ∧ name (f x) = name x} (l : K) :
    (r.change k f same).byKey l = (r.byKey l).map fun x => if key x = k then f x else x := by
  have keyed : ∀ x, key (if key x = k then f x else x) = key x := fun x => by
    split
    · exact (same x).1
    · rfl
  simp only [byKey, change, List.find?_map, Function.comp_def, keyed]

theorem byKey_keep {r : Register key name} (p : R → Bool) (l : K) :
    (r.keep p).byKey l = (r.byKey l).filter p := by
  refine Option.ext fun x => ?_
  simp only [byKey_eq_some, keep_records, List.mem_filter, Option.filter_eq_some_iff]
  exact and_right_comm

end Lookup

section Names
variable [DecidableEq N] {n : N} {x : R}

def byName (r : Register key name) (n : N) : Option R := r.records.find? fun x => name x = n

theorem byName_eq_some {r : Register key name} :
    r.byName n = some x ↔ x ∈ r.records ∧ name x = n := by
  constructor
  · intro found
    exact ⟨List.mem_of_find?_eq_some found, by simpa using List.find?_some found⟩
  · rintro ⟨member, rfl⟩
    cases found : r.byName (name x) with
    | none => simpa using List.find?_eq_none.mp found x member
    | some y =>
      have own : name y = name x := by simpa using List.find?_some found
      rw [r.name_unique (List.mem_of_find?_eq_some found) member own]

theorem byName_eq_none {r : Register key name} : r.byName n = none ↔ n ∉ r.records.map name := by
  rw [byName, List.find?_eq_none, List.mem_map]
  simp

end Names

section Entries
variable [DecidableEq K] [DecidableEq N] {x : R}

def enter (r : Register key name) (x : R) : Option (Register key name) :=
  if free : key x ∉ r.records.map key ∧ name x ∉ r.records.map name then
    some
      { records := r.records ++ [x]
        keys := by
          rw [List.map_append, List.nodup_append]
          refine ⟨r.keys, List.nodup_singleton _, fun k old l new same => free.1 ?_⟩
          rwa [← List.mem_singleton.mp new, ← same]
        names := by
          rw [List.map_append, List.nodup_append]
          refine ⟨r.names, List.nodup_singleton _, fun k old l new same => free.2 ?_⟩
          rwa [← List.mem_singleton.mp new, ← same] }
  else none

theorem enter_free {r : Register key name} (unkeyed : r.byKey (key x) = none)
    (unnamed : r.byName (name x) = none) :
    ∃ t, r.enter x = some t ∧ t.records = r.records ++ [x] :=
  ⟨_, dif_pos ⟨byKey_eq_none.mp unkeyed, byName_eq_none.mp unnamed⟩, rfl⟩

theorem enter_some {r t : Register key name} (entered : r.enter x = some t) :
    t.records = r.records ++ [x] ∧ r.byKey (key x) = none ∧ r.byName (name x) = none := by
  unfold enter at entered
  split at entered
  · rename_i free
    cases entered
    exact ⟨rfl, byKey_eq_none.mpr free.1, byName_eq_none.mpr free.2⟩
  · cases entered

theorem byKey_enter {r t : Register key name} (entered : r.enter x = some t) (l : K) :
    t.byKey l = if key x = l then some x else r.byKey l := by
  obtain ⟨records, free, _⟩ := enter_some entered
  refine Option.ext fun y => ?_
  rw [byKey_eq_some, records, List.mem_append, List.mem_singleton]
  split
  · rename_i here
    subst here
    rw [Option.some.injEq]
    constructor
    · rintro ⟨old | rfl, own⟩
      · exact absurd (byKey_eq_some.mpr ⟨old, own⟩) (by simp [free])
      · rfl
    · rintro rfl
      exact ⟨.inr rfl, rfl⟩
  · rename_i other
    rw [byKey_eq_some]
    constructor
    · rintro ⟨old | rfl, own⟩
      · exact ⟨old, own⟩
      · exact absurd own other
    · rintro ⟨old, own⟩
      exact ⟨.inl old, own⟩

end Entries

end Register
