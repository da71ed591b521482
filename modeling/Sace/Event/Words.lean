import Sace.Event.Restored

/-! The words of a line: what the extraction operators read of it one after the other, and what
the zero that getline counts does to the last of them. -/
namespace Sace
namespace SaceEvent

def lineWords (line : Str) : List Str := (line.splitOnP isSpace).filter (· ≠ [])

def EndsBlank (line : Str) : Prop := ∃ c ∈ line.getLast?, isSpace c

instance (line : Str) : Decidable (EndsBlank line) :=
  decidable_of_iff (line.getLast?.any isSpace) (by simp [EndsBlank, Option.any_eq_true])

def Solid (word : Str) : Prop := ∀ c ∈ word, isSpace c = false

/-! ### Taking words off a line -/

theorem lineWords_space {c : UInt8} (space : isSpace c) (front rest : Str) :
    lineWords (front ++ c :: rest) = lineWords front ++ lineWords rest := by
  rw [lineWords, List.splitOnP_append_cons front rest space, List.filter_append]
  rfl

theorem lineWords_solid {word : Str} (some_ : word ≠ []) (solid : Solid word) :
    lineWords word = [word] := by
  rw [lineWords, List.splitOnP_eq_singleton solid]
  simp [some_]

theorem lineWords_skip (line : Str) : lineWords (line.dropWhile isSpace) = lineWords line := by
  induction line with
  | nil => rfl
  | cons c rest ih =>
    by_cases space : isSpace c
    · have split := lineWords_space space [] rest
      rw [List.nil_append] at split
      rw [List.dropWhile_cons_of_pos space, ih, split]
      rfl
    · rw [List.dropWhile_cons_of_neg space]

/-- A line that begins with a word: the word, and the words behind it. -/
theorem lineWords_first {line : Str} (begins : line.dropWhile isSpace ≠ []) :
    lineWords line = (line.dropWhile isSpace).takeWhile (fun c => !isSpace c) ::
      lineWords ((line.dropWhile isSpace).dropWhile fun c => !isSpace c) := by
  have head := List.head_dropWhile_not isSpace begins
  rw [← lineWords_skip]
  generalize line.dropWhile isSpace = text at begins head
  obtain ⟨c, tail, rfl⟩ := List.exists_cons_of_ne_nil begins
  have solid : Solid ((c :: tail).takeWhile fun c => !isSpace c) := by
    intro d member
    simpa using List.mem_takeWhile_imp member
  have some_ : (c :: tail).takeWhile (fun c => !isSpace c) ≠ [] := by
    rw [List.takeWhile_cons_of_pos (by simpa using head)]
    exact List.cons_ne_nil _ _
  have whole := List.takeWhile_append_dropWhile (p := fun c => !isSpace c) (l := c :: tail)
  cases rest : (c :: tail).dropWhile fun c => !isSpace c with
  | nil =>
    rw [rest, List.append_nil] at whole
    rw [whole] at some_ solid ⊢
    rw [lineWords_solid some_ solid]
    rfl
  | cons d rest' =>
    have space : isSpace d := by
      have next := List.head_dropWhile_not (fun c => !isSpace c) (l := c :: tail) (by simp [rest])
      simpa [rest] using next
    have split := lineWords_space space [] rest'
    have joined := lineWords_space space ((c :: tail).takeWhile fun c => !isSpace c) rest'
    rw [List.nil_append] at split
    rw [← rest, whole, lineWords_solid some_ solid] at joined
    rw [joined, split]
    rfl

theorem lineWords_nil {line : Str} : lineWords line = [] ↔ line.dropWhile isSpace = [] := by
  constructor
  · intro none
    by_contra begins
    rw [lineWords_first begins] at none
    cases none
  · intro empty
    rw [← lineWords_skip, empty]
    rfl

theorem lineWords_length (line : Str) : (lineWords line).length ≤ line.length := by
  induction size : line.length using Nat.strong_induction_on generalizing line with
  | _ n ih =>
    by_cases begins : line.dropWhile isSpace = []
    · rw [lineWords_nil.mpr begins]
      exact Nat.zero_le n
    · have head := List.head_dropWhile_not isSpace begins
      have shorter := (List.dropWhile_sublist isSpace (l := line)).length_le
      rw [lineWords_first begins, List.length_cons]
      generalize line.dropWhile isSpace = text at begins head shorter
      obtain ⟨c, tail, rfl⟩ := List.exists_cons_of_ne_nil begins
      rw [List.dropWhile_cons_of_pos (by simpa using head)]
      have left := (List.dropWhile_sublist (fun c => !isSpace c) (l := tail)).length_le
      rw [List.length_cons] at shorter
      have rest := ih _ (by omega) (tail.dropWhile fun c => !isSpace c) rfl
      omega

/-! ### Reading words -/

def Sound (stream : InStream) : Prop := stream.fail = false ∧ (stream.eof = true → stream.rest = [])

theorem sound_rest (rest : Str) : Sound { rest } := ⟨rfl, by simp⟩

theorem word_some {stream : InStream} (sound : Sound stream) {first : Str} {others : List Str}
    (here : lineWords stream.rest = first :: others) :
    ∃ rest, word stream = some (first, { rest, eof := rest = [] }) ∧ lineWords rest = others := by
  have begins : stream.rest.dropWhile isSpace ≠ [] := by
    intro empty
    rw [lineWords_nil.mpr empty] at here
    cases here
  have good : (stream.eof || stream.fail) = false := by
    rw [sound.1, Bool.or_false, ← Bool.not_eq_true]
    intro ended
    rw [sound.2 ended] at begins
    exact begins rfl
  rw [lineWords_first begins] at here
  obtain ⟨rfl, rfl⟩ := List.cons.inj here
  refine ⟨_, ?_, rfl⟩
  unfold word
  rw [good]
  simp only [Bool.false_eq_true, if_false, if_neg begins]

theorem words_all {fuel : Nat} {stream : InStream} (sound : Sound stream)
    (enough : (lineWords stream.rest).length ≤ fuel) :
    words fuel stream = lineWords stream.rest := by
  induction fuel generalizing stream with
  | zero =>
    rw [List.eq_nil_of_length_eq_zero (by omega : (lineWords stream.rest).length = 0)]
    rfl
  | succ fuel ih =>
    unfold words
    cases here : lineWords stream.rest with
    | nil =>
      have none : word stream = none := by
        unfold word
        simp [lineWords_nil.mp here]
      rw [none]
    | cons first others =>
      obtain ⟨rest, read, left⟩ := word_some sound here
      rw [here, List.length_cons] at enough
      rw [read]
      dsimp only
      rw [ih ⟨rfl, by simp⟩ (by rw [left]; omega), left]

/-! ### The zero behind the line -/

theorem solid_zero {word : Str} (solid : Solid word) : Solid (word ++ [0]) := by
  intro c member
  rcases List.mem_append.mp member with old | zero
  · exact solid c old
  · rw [List.mem_singleton.mp zero]
    rfl

theorem Solid.not_endsBlank {line : Str} (solid : Solid line) : ¬ EndsBlank line := by
  rintro ⟨c, final, space⟩
  rw [solid c (List.mem_of_getLast? final)] at space
  cases space

/-- A line without white space, or the part behind its last white space. -/
theorem solid_or_split (line : Str) : Solid line ∨
    ∃ front c last, line = front ++ c :: last ∧ isSpace c = true ∧ Solid last := by
  induction line with
  | nil =>
    left
    intro c no
    cases no
  | cons c rest ih =>
    rcases ih with solid | ⟨front, d, last, rfl, space, solid⟩
    · by_cases space : isSpace c
      · exact .inr ⟨[], c, rest, rfl, space, solid⟩
      · left
        intro d member
        rcases List.mem_cons.mp member with rfl | later
        · exact Bool.eq_false_iff.mpr space
        · exact solid d later
    · exact .inr ⟨c :: front, d, last, rfl, space, solid⟩

/-- The zero is a word of its own behind white space, else it belongs to the last word. -/
theorem lineWords_zero {line : Str} (some_ : lineWords line ≠ []) :
    (EndsBlank line ∧ lineWords (line ++ [0]) = lineWords line ++ [[0]]) ∨
      (¬ EndsBlank line ∧ ∃ front last, lineWords line = front ++ [last] ∧
        lineWords (line ++ [0]) = front ++ [last ++ [0]]) := by
  rcases solid_or_split line with solid | ⟨front, c, last, rfl, space, solid⟩
  · have filled : line ≠ [] := by
      rintro rfl
      exact some_ rfl
    exact .inr ⟨solid.not_endsBlank, [], line, lineWords_solid filled solid,
      lineWords_solid (by simp) (solid_zero solid)⟩
  · rw [List.append_assoc, List.cons_append, lineWords_space space, lineWords_space space]
    by_cases empty : last = []
    · subst empty
      have zero : lineWords [0] = [[0]] := rfl
      have none : lineWords [] = [] := rfl
      left
      constructor
      · exact ⟨c, by simp, space⟩
      · rw [List.nil_append, zero, none, List.append_nil]
    · right
      constructor
      · rintro ⟨d, final, blank⟩
        rw [List.getLast?_append_of_ne_nil _ (List.cons_ne_nil _ _),
          List.getLast?_cons_of_ne_nil empty] at final
        exact solid.not_endsBlank ⟨d, final, blank⟩
      · exact ⟨lineWords front, last, by rw [lineWords_solid empty solid],
          by rw [lineWords_solid (by simp) (solid_zero solid)]⟩

theorem lineWords_trimmed (line : Str) :
    lineWords (trimSpaceChar (line ++ [0])) = lineWords (line ++ [0]) := by
  rw [trimSpaceChar, dropWhile_zero, trimRight_zero, ← dropWhile_zero, lineWords_skip]

end SaceEvent
end Sace
