import Sace.Library.Bytes

/-! A receiver that looks at every chunk of a byte stream on its own and keeps nothing
between two chunks. -/
namespace Framing

variable {C S M E : Type}

/-- What reaches the application, chunk by chunk, until a chunk breaks the receiver. -/
def delivered (receive : C → Except E (Option M)) : List C → Except E (List M)
  | [] => .ok []
  | chunk :: chunks => do
    let m ← receive chunk
    let ms ← delivered receive chunks
    return m.toList ++ ms

/-- The stream of what was sent, cut into chunks of one to `limit` bytes. -/
structure CutInto (content : C → Bytes) (encode : S → Bytes) (limit : Nat) (sent : List S)
    (chunks : List C) : Prop where
  stream : chunks.flatMap content = sent.flatMap encode
  sizes : ∀ chunk ∈ chunks, 1 ≤ (content chunk).length ∧ (content chunk).length ≤ limit

variable {receive : C → Except E (Option M)} {content : C → Bytes}
  {encode : S → Bytes} {arrive : S → M}

theorem delivered_cons {chunk : C} {chunks : List C} {ms : List M} :
    delivered receive (chunk :: chunks) = .ok ms ↔ ∃ m rest, receive chunk = .ok m ∧
      delivered receive chunks = .ok rest ∧ ms = m.toList ++ rest := by
  simp only [delivered]
  cases receive chunk with
  | error e => simp [bind, Except.bind]
  | ok m =>
    cases delivered receive chunks with
    | error e => simp [bind, Except.bind]
    | ok rest => simp [bind, Except.bind, pure, Except.pure, eq_comm]

theorem delivered_whole {chunks : List C} {sent : List S}
    (whole : ∀ chunk, ∀ s ∈ sent, content chunk = encode s → receive chunk = .ok (some (arrive s)))
    (cut : chunks.map content = sent.map encode) :
    delivered receive chunks = .ok (sent.map arrive) := by
  induction sent generalizing chunks with
  | nil =>
    cases List.map_eq_nil_iff.mp cut
    rfl
  | cons s sent ih =>
    obtain ⟨chunk, rest, rfl, here, tail⟩ := List.map_eq_cons_iff.mp cut
    refine delivered_cons.mpr ⟨some (arrive s), sent.map arrive,
      whole chunk s List.mem_cons_self here, ?_, rfl⟩
    exact ih (fun c other member => whole c other (List.mem_cons_of_mem _ member)) tail

/-- Where a receiver takes what stands first in a chunk, whatever follows it, every chunk that
starts with a message yields this message and no other. -/
theorem delivered_front {chunks : List C} {sent : List S}
    (front : ∀ chunk, ∀ s ∈ sent, ∀ rest, content chunk = encode s ++ rest →
      receive chunk = .ok (some (arrive s)))
    (starts : List.Forall₂ (fun chunk s => ∃ rest, content chunk = encode s ++ rest) chunks sent) :
    delivered receive chunks = .ok (sent.map arrive) := by
  induction starts with
  | nil => rfl
  | cons first _ ih =>
    obtain ⟨rest, eq⟩ := first
    refine delivered_cons.mpr ⟨_, _, front _ _ List.mem_cons_self rest eq, ?_, rfl⟩
    exact ih fun chunk s member => front chunk s (List.mem_cons_of_mem _ member)

theorem delivered_lengths {chunks : List C} {sent : List S}
    (nonempty : ∀ chunk ∈ chunks, content chunk ≠ [])
    (bounded : ∀ chunk ∈ chunks, ∀ s ∈ sent, receive chunk = .ok (some (arrive s)) →
      (encode s).length ≤ (content chunk).length)
    (done : delivered receive chunks = .ok (sent.map arrive)) :
    (sent.flatMap encode).length ≤ (chunks.flatMap content).length ∧
      ((chunks.flatMap content).length ≤ (sent.flatMap encode).length →
        chunks.map (fun chunk => (content chunk).length) =
          sent.map fun s => (encode s).length) := by
  induction chunks generalizing sent with
  | nil =>
    cases List.map_eq_nil_iff.mp (Except.ok.inj done).symm
    simp
  | cons chunk chunks ih =>
    obtain ⟨m, rest, received, tail, split⟩ := delivered_cons.mp done
    have nonemptyTail := fun c member => nonempty c (List.mem_cons_of_mem chunk member)
    cases m with
    | none =>
      rw [Option.toList_none, List.nil_append] at split
      obtain ⟨shorter, _⟩ := ih nonemptyTail
        (fun c member => bounded c (List.mem_cons_of_mem _ member)) (split ▸ tail)
      have some_byte : 0 < (content chunk).length :=
        List.length_pos_of_ne_nil (nonempty chunk List.mem_cons_self)
      simp only [List.flatMap_cons, List.length_append]
      exact ⟨by omega, fun full => by omega⟩
    | some m =>
      obtain ⟨s, sent', rfl, rfl, rfl⟩ := List.map_eq_cons_iff.mp split
      obtain ⟨shorter, same⟩ := ih nonemptyTail (fun c member other inside =>
        bounded c (List.mem_cons_of_mem _ member) other (List.mem_cons_of_mem _ inside)) tail
      have fits := bounded chunk List.mem_cons_self s List.mem_cons_self received
      simp only [List.flatMap_cons, List.length_append, List.map_cons, List.cons.injEq]
      exact ⟨by omega, fun full => ⟨by omega, same (by omega)⟩⟩

/-- Messages come through a cut stream exactly when no chunk holds more or less than one. -/
theorem delivered_iff {limit : Nat} {chunks : List C} {sent : List S}
    (cut : CutInto content encode limit sent chunks)
    (whole : ∀ chunk, ∀ s ∈ sent, content chunk = encode s → receive chunk = .ok (some (arrive s)))
    (bounded : ∀ chunk ∈ chunks, ∀ s ∈ sent, receive chunk = .ok (some (arrive s)) →
      (encode s).length ≤ (content chunk).length) :
    delivered receive chunks = .ok (sent.map arrive) ↔
      chunks.map content = sent.map encode := by
  constructor
  · intro done
    have nonempty : ∀ chunk ∈ chunks, content chunk ≠ [] := fun chunk member =>
      List.length_pos_iff.mp (cut.sizes chunk member).1
    have lengths := (delivered_lengths nonempty bounded done).2
      (Nat.le_of_eq (congrArg List.length cut.stream))
    refine List.eq_iff_flatten_eq.mpr
      ⟨by rw [← List.flatMap_def, cut.stream, List.flatMap_def], ?_⟩
    rw [List.map_map, List.map_map]
    exact lengths
  · exact delivered_whole whole

end Framing
