import Mathlib.Data.List.Basic
import Mathlib.Data.List.Sort

/-- Ordered tables with extensional equality. `insertIfNew` leaves an entry that
exists alone, `insert` replaces it. -/
abbrev Table (K V : Type) [Ord K] := Std.ExtTreeMap K V compare

namespace Table

variable {K V : Type} [Ord K] [Std.TransOrd K]

theorem some_of_mem {t : Table K V} {k : K} (member : k ∈ t) : ∃ v, t[k]? = some v :=
  Option.isSome_iff_exists.mp (Std.ExtTreeMap.mem_iff_isSome_getElem?.mp member)

theorem mem_of_some {t : Table K V} {k : K} {v : V} (entry : t[k]? = some v) : k ∈ t :=
  Std.ExtTreeMap.mem_iff_isSome_getElem?.mpr (Option.isSome_of_eq_some entry)

theorem notMem_of_none {t : Table K V} {k : K} (absent : t[k]? = none) : k ∉ t := fun member => by
  obtain ⟨v, entry⟩ := some_of_mem member
  rw [absent] at entry
  cases entry

variable [Std.LawfulEqOrd K]

theorem erase_some (t : Table K V) (k a : K) (v : V) :
    (t.erase k)[a]? = some v ↔ k ≠ a ∧ t[a]? = some v := by
  simp [Std.ExtTreeMap.getElem?_erase]

theorem insert_some (t : Table K V) (k a : K) (v w : V) :
    (t.insert k v)[a]? = some w ↔ (k = a ∧ v = w) ∨ (k ≠ a ∧ t[a]? = some w) := by
  by_cases h : k = a <;> simp [Std.ExtTreeMap.getElem?_insert, h]

theorem insertIfNew_some {t : Table K V} {k : K} (new : t[k]? = none) (a : K) (v w : V) :
    (t.insertIfNew k v)[a]? = some w ↔ (k = a ∧ v = w) ∨ t[a]? = some w := by
  have absent : k ∉ t := notMem_of_none new
  rw [Std.ExtTreeMap.getElem?_insertIfNew]
  by_cases h : k = a
  · subst h
    simp [absent]
  · simp [h]

theorem of_insertIfNew_some {t : Table K V} {k a : K} {v w : V}
    (entry : (t.insertIfNew k v)[a]? = some w) : (k = a ∧ v = w) ∨ t[a]? = some w := by
  rw [Std.ExtTreeMap.getElem?_insertIfNew] at entry
  split at entry
  · rename_i new
    exact .inl ⟨Std.LawfulEqOrd.compare_eq_iff_eq.mp new.1, Option.some.inj entry⟩
  · exact .inr entry

instance decidableForall (t : Table K V) (P : K → V → Prop) [∀ k v, Decidable (P k v)] :
    Decidable (∀ k v, t[k]? = some v → P k v) :=
  decidable_of_iff (∀ entry ∈ t.toList, P entry.1 entry.2) <| by
    simp only [Prod.forall, Std.ExtTreeMap.mem_toList_iff_getElem?_eq_some]

theorem mem_erase {t : Table K V} {k a : K} : a ∈ t.erase k ↔ k ≠ a ∧ a ∈ t := by
  rw [Std.ExtTreeMap.mem_erase, ne_eq, Std.LawfulEqOrd.compare_eq_iff_eq]

theorem mem_insertIfNew {t : Table K V} {k a : K} {v : V} :
    a ∈ t.insertIfNew k v ↔ k = a ∨ a ∈ t := by
  rw [Std.ExtTreeMap.mem_insertIfNew, Std.LawfulEqOrd.compare_eq_iff_eq]

theorem insertIfNew_keeps {t : Table K V} {k a : K} {v w : V} (entry : t[a]? = some w) :
    (t.insertIfNew k v)[a]? = some w := by
  rw [Std.ExtTreeMap.getElem?_insertIfNew, if_neg, entry]
  rintro ⟨same, new⟩
  cases Std.LawfulEqOrd.compare_eq_iff_eq.mp same
  exact new (mem_of_some entry)

theorem insertIfNew_self (t : Table K V) (k : K) (v : V) :
    ∃ w, (t.insertIfNew k v)[k]? = some w := by
  cases entry : t[k]? with
  | none => exact ⟨v, (insertIfNew_some entry ..).mpr (.inl ⟨rfl, rfl⟩)⟩
  | some w => exact ⟨w, insertIfNew_keeps entry⟩

end Table

namespace Names

variable {K : Type} [Ord K] [Std.TransOrd K] [Std.LawfulEqOrd K]

theorem mem_insert {t : Std.ExtTreeSet K compare} {k a : K} : a ∈ t.insert k ↔ k = a ∨ a ∈ t := by
  rw [Std.ExtTreeSet.mem_insert, Std.LawfulEqOrd.compare_eq_iff_eq]

theorem mem_erase {t : Std.ExtTreeSet K compare} {k a : K} :
    a ∈ t.erase k ↔ k ≠ a ∧ a ∈ t := by
  rw [Std.ExtTreeSet.mem_erase, ne_eq, Std.LawfulEqOrd.compare_eq_iff_eq]

end Names
