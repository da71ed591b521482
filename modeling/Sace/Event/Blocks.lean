import Sace.Event.Restored

/-! The services that a configuration file describes, block by block, and whether read_ini_file
makes events of just these. -/
namespace Sace
namespace SaceEvent

/-! ### What the file says -/

def iniLines (text : Str) : List Str := text.splitOn 10

def blankLine (line : Str) : Bool := line.all isSpace

def commentLine (line : Str) : Bool := (line.dropWhile isSpace).head? = some 35

/-- "service_name service_cmd": the first word, and what follows behind the separating blanks. -/
def serviceHeader (line : Str) : Option (Str × Str) :=
  let line := line.dropWhile isSpace
  let name := line.takeWhile fun c => !isSpace c
  let command := (line.dropWhile fun c => !isSpace c).dropWhile isSpace
  if name = [] ∨ command = [] then none else some (name, command)

/-- The stretches between blank lines, each line with its number. -/
def blocks (text : Str) : List (List (Str × Nat)) :=
  (iniLines text).zipIdx.splitOnP fun line => blankLine line.1

/-- The line of a block that has to be its header, with the name and the command in it. -/
def blockService (block : List (Str × Nat)) : Option (Nat × Str × Str) := do
  let (line, k) ← block.find? fun line => !commentLine line.1
  let header ← serviceHeader line
  some (k, header)

def iniServices (text : Str) : List (Nat × Str × Str) := (blocks text).filterMap blockService

/-! ### What the code makes of it -/

/-- The lines that take the parser from PARSE_NONE to PARSE_SERVICE. The first line has the
number `k`. -/
def headersFrom (fresh : SaceCommand) (k : Nat) : List Str → IniState → List (Nat × Str × Str)
  | [], _ => []
  | line :: rest, s =>
    match parseEventFromIni fresh s line with
    | none => []
    | some t =>
      match s.parsing, t.parsing with
      | none, some p => (k, p.cmd.name, p.cmd.command) :: headersFrom fresh (k + 1) rest t
      | _, _ => headersFrom fresh (k + 1) rest t

/-- Each service is read from its own line, no other line begins one, and the events that are
added are those of the services. -/
structure ReadRight (fresh : SaceCommand) (text : Str) : Prop where
  headers : headersFrom fresh 0 (readLines [] text) {} = iniServices text
  events : ∃ table, readIniFile fresh text = some table ∧ ∀ n command : Str,
    (∃ event, table[n]? = some event ∧ event.cmd.command = command) ↔
      ∃ k, (k, n, command) ∈ iniServices text

/-! ### Lines, as they are and as getline stores them -/

/-- A line that was begun is not shorter when it ends. -/
theorem splitOnPPrepend_first (p : UInt8 → Bool) (text line : Str) :
    ∃ l ∈ text.splitOnPPrepend p line, line.length ≤ l.length := by
  induction text generalizing line with
  | nil => exact ⟨line.reverse, by simp, by simp⟩
  | cons c rest ih =>
    cases ends : p c with
    | true =>
      rw [List.splitOnPPrepend_cons_pos ends]
      exact ⟨line.reverse, List.mem_cons_self, by simp⟩
    | false =>
      rw [List.splitOnPPrepend_cons_neg ends]
      obtain ⟨l, member, longer⟩ := ih (c :: line)
      rw [List.length_cons] at longer
      exact ⟨l, member, by omega⟩

theorem readLines_line {line text stored : Str} {k : Nat}
    (short : ∀ l ∈ text.splitOnPPrepend (· == 10) line.reverse, l.length < INI_BUFFER_LEN - 1)
    (read : (readLines line text)[k]? = some stored) :
    ∃ l, (text.splitOnPPrepend (· == 10) line.reverse)[k]? = some l ∧
      (stored = l ++ [0] ∨ stored = l) := by
  induction text generalizing line k with
  | nil =>
    rw [List.splitOnPPrepend_nil, List.reverse_reverse]
    unfold readLines at read
    split at read
    · cases read
    · cases k with
      | zero => exact ⟨line, rfl, .inr (Option.some.inj read).symm⟩
      | succ k => cases read
  | cons c rest ih =>
    unfold readLines at read
    by_cases newline : c = 10
    · rw [if_pos newline] at read
      rw [List.splitOnPPrepend_cons_pos (by simpa using newline), List.reverse_reverse] at short ⊢
      cases k with
      | zero => exact ⟨line, rfl, .inl (Option.some.inj read).symm⟩
      | succ k =>
        exact @ih [] k (fun l member => short l (List.mem_cons_of_mem _ member)) read
    · have joined : c :: line.reverse = (line ++ [c]).reverse := by simp
      rw [List.splitOnPPrepend_cons_neg (by simpa using newline), joined] at short ⊢
      obtain ⟨l, member, longer⟩ := splitOnPPrepend_first (· == 10) rest (line ++ [c]).reverse
      have fits := short l member
      simp only [List.length_reverse, List.length_append, List.length_singleton] at longer
      rw [if_neg newline, if_neg (by omega)] at read
      exact ih short read

theorem stored_line {text stored : Str} {k : Nat}
    (short : ∀ line ∈ iniLines text, line.length < INI_BUFFER_LEN - 1)
    (read : (readLines [] text)[k]? = some stored) :
    ∃ line, (iniLines text)[k]? = some line ∧ (stored = line ++ [0] ∨ stored = line) :=
  @readLines_line [] text stored k short read

/-- What next_token scans is a beginning of the line without its leading blanks. -/
theorem lineText_stored {line stored : Str} (same : stored = line ++ [0] ∨ stored = line) :
    lineText stored <+: line.dropWhile isSpace := by
  rcases same with rfl | rfl
  · simp [lineText_ended]
  · exact (lineText_begins _).trans (trimRight_begins _)

/-- Where the code finds the right name, its command begins with the blank behind the name. -/
theorem serviceHeader_missed {line stored name command : Str}
    (same : stored = line ++ [0] ∨ stored = line)
    (header : lineHeader stored = some (name, command)) :
    serviceHeader line ≠ some (name, command) := by
  intro right
  obtain ⟨-, -, -, cut, more⟩ := lineHeader_some.mp header
  unfold serviceHeader at right
  dsimp only at right
  split at right
  · cases right
  · obtain ⟨first, behind⟩ := Prod.mk.inj (Option.some.inj right)
    obtain ⟨rest, text⟩ := lineText_stored same
    have whole := List.takeWhile_append_dropWhile (p := fun c => !isSpace c)
      (l := line.dropWhile isSpace)
    rw [first] at whole
    obtain ⟨c, tail, eq⟩ := List.exists_cons_of_ne_nil more
    have left : (line.dropWhile isSpace).dropWhile (fun c => !isSpace c) = c :: (tail ++
        rest.drop (name.length - (lineText stored).length)) := by
      have cutLine := congrArg (List.drop name.length) whole
      rw [List.drop_left, ← text, List.drop_append, ← cut, eq] at cutLine
      rw [text] at cutLine
      exact cutLine
    have blank : isSpace c = true := by
      have head := List.head_dropWhile_not (fun c => !isSpace c) (l := line.dropWhile isSpace)
        (by rw [left]; simp)
      simpa only [left, List.head_cons, Bool.not_eq_false'] using head
    have solid : isSpace c = false := by
      have head := List.head_dropWhile_not isSpace (l := (line.dropWhile isSpace).dropWhile
        fun c => !isSpace c) (by rw [behind, eq]; simp)
      simpa only [behind, eq, List.head_cons] using head
    rw [blank] at solid
    cases solid

/-! ### The services and their lines -/

theorem mem_splitOnPPrepend {A : Type} {p : A → Bool} {list part : List A} (begun : List A) {a : A}
    (among : part ∈ list.splitOnPPrepend p begun) (member : a ∈ part) : a ∈ begun ∨ a ∈ list := by
  induction list generalizing begun with
  | nil =>
    rw [List.splitOnPPrepend_nil, List.mem_singleton] at among
    rw [among, List.mem_reverse] at member
    exact .inl member
  | cons b rest ih =>
    cases ends : p b with
    | true =>
      rw [List.splitOnPPrepend_cons_pos ends] at among
      rcases List.mem_cons.mp among with rfl | later
      · exact .inl (List.mem_reverse.mp member)
      · rcases ih [] later with no | later
        · cases no
        · exact .inr (List.mem_cons_of_mem _ later)
    | false =>
      rw [List.splitOnPPrepend_cons_neg ends] at among
      rcases ih _ among with old | later
      · rcases List.mem_cons.mp old with rfl | old
        · exact .inr List.mem_cons_self
        · exact .inl old
      · exact .inr (List.mem_cons_of_mem _ later)

theorem mem_iniServices {text : Str} {k : Nat} {name command : Str}
    (service : (k, name, command) ∈ iniServices text) :
    ∃ line, (iniLines text)[k]? = some line ∧ serviceHeader line = some (name, command) := by
  obtain ⟨block, among, header⟩ := List.mem_filterMap.mp service
  obtain ⟨⟨line, i⟩, first, header⟩ := Option.bind_eq_some_iff.mp header
  obtain ⟨found, parsed, header⟩ := Option.bind_eq_some_iff.mp header
  cases header
  refine ⟨line, ?_, parsed⟩
  rcases mem_splitOnPPrepend [] among (List.mem_of_find?_eq_some first) with no | listed
  · cases no
  · exact List.mem_zipIdx_iff_getElem?.mp listed

/-! ### The headers that the code finds -/

section
variable {fresh : SaceCommand}

theorem parseEvent_idle {s : IniState} (idle : s.parsing = none) (line : Str) :
    parseEventFromIni fresh s line = some
      (match lineHeader line with
      | none => s
      | some (name, command) =>
        { s with parsing := some { cmd := { fresh with name, command } } }) := by
  unfold parseEventFromIni lineHeader
  dsimp only
  by_cases ended : trimSpaceChar line = [] ∨ trimSpaceChar line = [0]
  · rw [if_pos ended, if_pos (ended.imp_right .inl), finishEvent, idle]
  · rw [if_neg ended, idle]
    by_cases comment : (trimSpaceChar line).head? = some 35
    · rw [if_pos comment, if_pos (.inr (.inr comment))]
    · rw [if_neg comment, if_neg (by simpa [comment] using ended)]
      cases parseHeader (trimSpaceChar line) with
      | none => rfl
      | some header => rfl

theorem mem_headersFrom {lines : List Str} {j k : Nat} {s : IniState} {name command : Str}
    (taken : (k, name, command) ∈ headersFrom fresh j lines s) :
    ∃ i line, k = j + i ∧ lines[i]? = some line ∧ lineHeader line = some (name, command) := by
  induction lines generalizing j s with
  | nil => cases taken
  | cons line rest ih =>
    have later {t : IniState} (taken : (k, name, command) ∈ headersFrom fresh (j + 1) rest t) :
        ∃ i stored, k = j + i ∧ (line :: rest)[i]? = some stored ∧
          lineHeader stored = some (name, command) := by
      obtain ⟨i, stored, rfl, found, header⟩ := ih taken
      exact ⟨i + 1, stored, by omega, found, header⟩
    unfold headersFrom at taken
    split at taken
    · cases taken
    · rename_i t done
      split at taken
      · rename_i p idle begun
        rcases List.mem_cons.mp taken with own | taken
        · cases own
          rw [parseEvent_idle idle] at done
          split at done
          · cases done
            rw [idle] at begun
            cases begun
          · rename_i header
            cases done
            cases begun
            exact ⟨0, line, rfl, rfl, header⟩
        · exact later taken
      · exact later taken

theorem headersFrom_nil {lines : List Str} {j : Nat} {s : IniState} (idle : s.parsing = none) :
    headersFrom fresh j lines s = [] ↔ ∀ line ∈ lines, lineHeader line = none := by
  induction lines generalizing j s with
  | nil => simp [headersFrom]
  | cons line rest ih =>
    rw [headersFrom, parseEvent_idle idle, idle, List.forall_mem_cons]
    cases header : lineHeader line with
    | none =>
      dsimp only
      rw [idle, ih idle]
      simp
    | some header => simp

theorem parseLines_idle {lines : List Str} {s : IniState} (idle : s.parsing = none)
    (plain : ∀ line ∈ lines, lineHeader line = none) : parseLines fresh lines s = some s := by
  induction lines with
  | nil => rfl
  | cons line rest ih =>
    rw [parseLines, parseEvent_idle idle, plain line List.mem_cons_self]
    exact ih fun other member => plain other (List.mem_cons_of_mem _ member)

/-- No line that is taken for a header gives the name and the command of a service. -/
theorem ReadRight.plain {text : Str} (right : ReadRight fresh text)
    (short : ∀ line ∈ iniLines text, line.length < INI_BUFFER_LEN - 1) :
    ∀ line ∈ readLines [] text, lineHeader line = none := by
  apply (@headersFrom_nil fresh _ 0 {} rfl).mp
  apply List.eq_nil_iff_forall_not_mem.mpr
  rintro ⟨k, name, command⟩ taken
  obtain ⟨i, stored, eq, read, header⟩ := mem_headersFrom taken
  rw [right.headers] at taken
  obtain ⟨line, own, service⟩ := mem_iniServices taken
  obtain ⟨other, listed, same⟩ := stored_line short read
  rw [eq, Nat.zero_add, listed] at own
  cases own
  exact serviceHeader_missed same header service

theorem ReadRight.nothing {text : Str} (right : ReadRight fresh text)
    (short : ∀ line ∈ iniLines text, line.length < INI_BUFFER_LEN - 1) : iniServices text = [] := by
  rw [← right.headers]
  exact (headersFrom_nil rfl).mpr (right.plain short)

theorem readRight_iff {text : Str}
    (short : ∀ line ∈ iniLines text, line.length < INI_BUFFER_LEN - 1) :
    ReadRight fresh text ↔
      iniServices text = [] ∧ ∀ line ∈ readLines [] text, lineHeader line = none := by
  constructor
  · intro right
    exact ⟨right.nothing short, right.plain short⟩
  · rintro ⟨nothing, plain⟩
    have read : readIniFile fresh text = some ∅ := by
      rw [readIniFile, parseLines_idle rfl plain]
      rfl
    refine ⟨?_, ∅, read, fun n command => ?_⟩
    · rw [nothing]
      exact (headersFrom_nil rfl).mpr plain
    · rw [nothing]
      simp

end

/-- A comment and a line of one word: neither is a service, and neither is taken for one. -/
theorem lonely_plain : ReadRight { sequence := 1, name := [] } (str "# services\n\n  lonely\n") :=
  (readRight_iff (by decide +kernel)).mpr ⟨by decide +kernel, by decide +kernel⟩

theorem ping_missed :
    let text := str "test ping\n  user system\n"
    (∀ line ∈ iniLines text, line.length < INI_BUFFER_LEN - 1) ∧
      ((iniServices text).map fun service => service.2.1).Nodup ∧
      ¬ ReadRight { sequence := 1, name := [] } text := by
  refine ⟨by decide +kernel, by decide +kernel, fun right => ?_⟩
  have nothing := right.nothing (by decide +kernel)
  exact absurd nothing (by decide +kernel)

end SaceEvent
end Sace
