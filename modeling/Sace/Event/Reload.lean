import Sace.Event.Lines

/-! What SaceEvent makes of the lines of its configuration file, whoever has written it. -/
namespace Sace
namespace SaceEvent

/-! ### One line -/

def lineHeader (line : Str) : Option (Str × Str) :=
  let line := trimSpaceChar line
  if line = [] ∨ line = [0] ∨ line.head? = some 35 then none else parseHeader line

/-- What a line does: nothing, the end of an event, one attribute, or the start of an event. -/
theorem parseEvent_cases {fresh : SaceCommand} {s t : IniState} {line : Str}
    (done : parseEventFromIni fresh s line = some t) :
    t = s ∨
    (∃ p triggers, s.parsing = some p ∧ parseEventParams p.params = some triggers ∧
      t = { events := s.events.insertIfNew p.cmd.name
              ⟨triggers, { p.cmd with commandParams := some (.event p.params) }⟩ }) ∨
    (∃ p, s.parsing = some p ∧
      t = { s with parsing := some { p with
              params := parseServiceAttr (trimSpaceChar line) p.params } }) ∨
    (s.parsing = none ∧ ∃ name command, lineHeader line = some (name, command) ∧
      t = { s with parsing := some { cmd := { fresh with name, command } } }) := by
  unfold parseEventFromIni at done
  dsimp only at done
  split at done
  · unfold finishEvent at done
    cases parsing : s.parsing with
    | none =>
      rw [parsing] at done
      cases done
      exact .inl rfl
    | some p =>
      rw [parsing] at done
      obtain ⟨triggers, parsed, rfl⟩ := Option.map_eq_some_iff.mp done
      exact .inr (.inl ⟨p, triggers, rfl, parsed, rfl⟩)
  · rename_i filled
    split at done
    · cases done
      exact .inl rfl
    · rename_i plain
      have header : lineHeader line = parseHeader (trimSpaceChar line) := by
        rw [lineHeader, if_neg]
        rintro (empty | zero | comment)
        · exact filled (.inl empty)
        · exact filled (.inr zero)
        · exact plain comment
      cases parsing : s.parsing with
      | some p =>
        rw [parsing] at done
        cases done
        exact .inr (.inr (.inl ⟨p, rfl, rfl⟩))
      | none =>
        rw [parsing] at done
        cases parsed : parseHeader (trimSpaceChar line) with
        | none =>
          rw [parsed] at done
          cases done
          exact .inl rfl
        | some entry =>
          rw [parsed] at done
          cases done
          exact .inr (.inr (.inr ⟨rfl, entry.1, entry.2, header.trans parsed, rfl⟩))

theorem parseLines_invariant {fresh : SaceCommand} {I : IniState → Prop} {lines : List Str}
    (kept : ∀ line ∈ lines, ∀ s t, I s → parseEventFromIni fresh s line = some t → I t)
    {s t : IniState} (initial : I s) (done : parseLines fresh lines s = some t) : I t := by
  induction lines generalizing s with
  | nil =>
    cases done
    exact initial
  | cons line rest ih =>
    obtain ⟨u, first, done⟩ := Option.bind_eq_some_iff.mp done
    exact ih (fun other member => kept other (List.mem_cons_of_mem _ member))
      (kept line List.mem_cons_self s u initial first) done

/-! ### Where names and commands come from -/

/-- Every event, and the one that is being read, began with one of the lines. -/
structure Headed (lines : List Str) (s : IniState) : Prop where
  events : ∀ (n : Str) (event : EventService), s.events[n]? = some event →
    ∃ line ∈ lines, lineHeader line = some (n, event.cmd.command)
  parsing : ∀ p, s.parsing = some p →
    ∃ line ∈ lines, lineHeader line = some (p.cmd.name, p.cmd.command)

theorem Headed.line {fresh : SaceCommand} {lines : List Str} {s t : IniState} {line : Str}
    (headed : Headed lines s) (among : line ∈ lines ∨ lineHeader line = none)
    (done : parseEventFromIni fresh s line = some t) : Headed lines t := by
  rcases parseEvent_cases done with rfl | ⟨p, triggers, parsing, -, rfl⟩ | ⟨p, parsing, rfl⟩ |
    ⟨-, name, command, header, rfl⟩
  · exact headed
  · refine ⟨fun n event found => ?_, by simp⟩
    rcases Table.of_insertIfNew_some found with ⟨rfl, rfl⟩ | old
    · exact headed.parsing p parsing
    · exact headed.events n event old
  · refine ⟨headed.events, fun q eq => ?_⟩
    cases eq
    exact headed.parsing p parsing
  · refine ⟨headed.events, fun q eq => ?_⟩
    cases eq
    rcases among with member | none
    · exact ⟨line, member, header⟩
    · rw [none] at header
      cases header

theorem lineHeader_nil : lineHeader [] = none := rfl

theorem read_headed {fresh : SaceCommand} {text : Str} {table : Table Str EventService}
    (read : readIniFile fresh text = some table) {n : Str} {event : EventService}
    (found : table[n]? = some event) :
    ∃ line ∈ readLines [] text, lineHeader line = some (n, event.cmd.command) := by
  obtain ⟨s, lines, read⟩ := Option.bind_eq_some_iff.mp read
  obtain ⟨t, last, read⟩ := Option.bind_eq_some_iff.mp read
  cases read
  have start : Headed (readLines [] text) {} := ⟨fun n event found => by simp at found, by simp⟩
  have before := parseLines_invariant
    (fun line member _ _ headed done => Headed.line headed (.inl member) done) start lines
  exact (before.line (.inr lineHeader_nil) last).events n event found

/-! ### An event that was begun is kept -/

def Begun (n command : Str) (s : IniState) : Prop :=
  (∃ event, s.events[n]? = some event ∧ event.cmd.command = command) ∨
    s.events[n]? = none ∧ ∃ p, s.parsing = some p ∧ p.cmd.name = n ∧ p.cmd.command = command

theorem Begun.line {fresh : SaceCommand} {n command : Str} {s t : IniState} {line : Str}
    (begun : Begun n command s) (done : parseEventFromIni fresh s line = some t) :
    Begun n command t := by
  rcases parseEvent_cases done with rfl | ⟨p, triggers, parsing, -, rfl⟩ | ⟨p, parsing, rfl⟩ |
    ⟨idle, name, _, _, rfl⟩
  · exact begun
  · rcases begun with ⟨event, found, eq⟩ | ⟨absent, q, own, rfl, eq⟩
    · exact .inl ⟨event, Table.insertIfNew_keeps found, eq⟩
    · rw [parsing] at own
      cases own
      exact .inl ⟨_, (Table.insertIfNew_some absent ..).mpr (.inl ⟨rfl, rfl⟩), eq⟩
  · rcases begun with ⟨event, found, eq⟩ | ⟨absent, q, own, rfl, eq⟩
    · exact .inl ⟨event, found, eq⟩
    · rw [parsing] at own
      cases own
      exact .inr ⟨absent, _, rfl, rfl, eq⟩
  · rcases begun with ⟨event, found, eq⟩ | ⟨absent, q, own, _⟩
    · exact .inl ⟨event, found, eq⟩
    · rw [idle] at own
      cases own

theorem read_first {fresh : SaceCommand} {text line : Str} {rest : List Str}
    {table : Table Str EventService} (lines : readLines [] text = line :: rest) {n command : Str}
    (header : lineHeader line = some (n, command))
    (read : readIniFile fresh text = some table) :
    ∃ event, table[n]? = some event ∧ event.cmd.command = command := by
  obtain ⟨s, parsed, read⟩ := Option.bind_eq_some_iff.mp read
  obtain ⟨t, last, read⟩ := Option.bind_eq_some_iff.mp read
  cases read
  rw [lines] at parsed
  obtain ⟨u, first, parsed⟩ := Option.bind_eq_some_iff.mp parsed
  have start : Begun n command u := by
    unfold lineHeader at header
    dsimp only at header
    split at header
    · cases header
    · rename_i filled
      obtain ⟨nonempty, nonzero, plain⟩ : trimSpaceChar line ≠ [] ∧ trimSpaceChar line ≠ [0] ∧
          (trimSpaceChar line).head? ≠ some 35 := by simpa only [not_or] using filled
      simp only [parseEventFromIni, nonempty, nonzero, plain, or_self, if_false, header] at first
      cases first
      exact .inr ⟨by simp, _, rfl, rfl, rfl⟩
  have before := parseLines_invariant
    (fun line _ _ _ begun done => Begun.line begun done) start parsed
  -- the call with the empty line behind the loop ends what is still being read
  have ended : finishEvent s = some t := last
  rcases before with ⟨event, found, eq⟩ | ⟨absent, p, own, rfl, eq⟩
  · unfold finishEvent at ended
    split at ended
    · cases ended
      exact ⟨event, found, eq⟩
    · obtain ⟨triggers, _, rfl⟩ := Option.map_eq_some_iff.mp ended
      exact ⟨event, Table.insertIfNew_keeps found, eq⟩
  · rw [finishEvent, own] at ended
    obtain ⟨triggers, _, rfl⟩ := Option.map_eq_some_iff.mp ended
    exact ⟨_, (Table.insertIfNew_some absent ..).mpr (.inl ⟨rfl, rfl⟩), eq⟩

/-! ### Nothing that is read has a newline -/

theorem readLines_flat {line text : Str} (flat : Flat line) :
    ∀ found ∈ readLines line text, Flat found := by
  induction text generalizing line with
  | nil =>
    unfold readLines
    split
    · intro _ no
      cases no
    · intro found member
      cases List.mem_singleton.mp member
      exact flat
  | cons c rest ih =>
    unfold readLines
    split
    · intro found member
      rcases List.mem_cons.mp member with rfl | member
      · simpa [Flat] using flat
      · exact ih (by simp [Flat]) found member
    · rename_i other
      split
      · intro found member
        cases List.mem_singleton.mp member
        exact flat
      · apply ih
        have apart : (10 : UInt8) ≠ c := fun eq => other eq.symm
        simpa [Flat, apart] using flat

theorem trimRight_subset (line : Str) : trimRight line ⊆ line := by
  intro c member
  have kept := (List.dropWhile_sublist isSpace).subset (List.mem_reverse.mp member)
  exact List.mem_reverse.mp kept

theorem trimSpaceChar_subset (line : Str) : trimSpaceChar line ⊆ line := fun _ member =>
  (List.dropWhile_sublist isSpace).subset (trimRight_subset _ member)

theorem parseHeader_subset {line name command : Str}
    (parsed : parseHeader line = some (name, command)) : command ⊆ line := by
  unfold parseHeader nextToken at parsed
  dsimp only at parsed
  split at parsed
  · cases parsed
  · rename_i token rest found
    split at found
    · cases found
    · cases found
      split at parsed
      · cases parsed
      · cases parsed
        intro c member
        exact trimRight_subset _
          ((List.dropLast_sublist _).subset ((List.drop_sublist ..).subset member))

theorem lineHeader_flat {line name command : Str} (flat : Flat line)
    (header : lineHeader line = some (name, command)) : Flat command := by
  unfold lineHeader at header
  dsimp only at header
  split at header
  · cases header
  · exact (flat.of_subset (trimSpaceChar_subset line)).of_subset (parseHeader_subset header)

theorem word_subset {stream after : InStream} {value : Str}
    (read : word stream = some (value, after)) :
    value ⊆ stream.rest ∧ after.rest ⊆ stream.rest := by
  unfold word at read
  split at read
  · cases read
  · dsimp only at read
    split at read
    · cases read
    · cases read
      exact ⟨fun c member => (List.dropWhile_sublist _).subset
          ((List.takeWhile_sublist _).subset member),
        fun c member => (List.dropWhile_sublist _).subset
          ((List.dropWhile_sublist _).subset member)⟩

theorem words_subset {fuel : Nat} {stream : InStream} :
    ∀ value ∈ words fuel stream, value ⊆ stream.rest := by
  induction fuel generalizing stream with
  | zero => exact fun _ no => by cases no
  | succ fuel ih =>
    intro value member
    unfold words at member
    split at member
    · cases member
    · rename_i first after read
      have subset := word_subset read
      rcases List.mem_cons.mp member with rfl | member
      · exact subset.1
      · intro c inside
        exact subset.2 (ih value member inside)

structure FlatParams (params : SaceEventParams) : Prop where
  uid : Flat params.uid
  gid : Flat params.gid
  seclabel : Flat params.seclabel
  suppGids : ∀ gp ∈ params.suppGids, Flat gp
  keys : ∀ key ∈ params.propertyKey, Flat key
  values : ∀ value ∈ params.propertyValue, Flat value

theorem parseTrigger_flat {strValue : Str} {params : SaceEventParams} (value : Flat strValue)
    (flat : FlatParams params) : FlatParams (parseTrigger strValue params) := by
  unfold parseTrigger
  split
  · dsimp only
    split
    · exact flat
    · refine { flat with keys := fun key member => ?_, values := fun key member => ?_ }
      · rcases List.mem_append.mp member with old | new
        · exact flat.keys key old
        · cases List.mem_singleton.mp new
          exact value.of_subset fun c member => (List.dropWhile_sublist _).subset
            ((List.takeWhile_sublist _).subset member)
      · rcases List.mem_append.mp member with old | new
        · exact flat.values key old
        · cases List.mem_singleton.mp new
          exact value.of_subset fun c member => (List.dropWhile_sublist _).subset
            ((List.dropWhile_sublist _).subset member)
  · split
    · exact { flat with }
    · exact flat

theorem parseServiceAttr_flat {line : Str} {params : SaceEventParams} (inLine : Flat line)
    (flat : FlatParams params) : FlatParams (parseServiceAttr line params) := by
  unfold parseServiceAttr
  split
  · exact flat
  · rename_i tag stream read
    have rest : Flat stream.rest := inLine.of_subset (word_subset read).2
    have next {value : Str} {after : InStream} (read : word stream = some (value, after)) :
        Flat value := rest.of_subset (word_subset read).1
    split
    · exact flat
    split
    · split
      · exact flat
      · rename_i read
        exact { flat with uid := next read }
    split
    · split
      · exact flat
      · rename_i read
        exact { flat with gid := next read }
    split
    · split
      · exact flat
      · rename_i read
        exact { flat with seclabel := next read }
    split
    · exact { flat with }
    split
    · refine { flat with suppGids := fun gp member => ?_ }
      rcases List.mem_append.mp member with old | new
      · exact flat.suppGids gp old
      · exact rest.of_subset (words_subset gp new)
    split
    · split
      · exact flat
      · rename_i read
        exact parseTrigger_flat (next read) flat
    split
    · split
      · exact flat
      · dsimp only
        split
        · exact flat
        · exact { flat with }
    · exact flat

theorem flatEvent_of_params {p : Parsing} {triggers : List Trigger} (command : Flat p.cmd.command)
    (flat : FlatParams p.params) (parsed : parseEventParams p.params = some triggers) :
    FlatEvent (EventService.configured
      ⟨triggers, { p.cmd with commandParams := some (.event p.params) }⟩) := by
  refine ⟨command, ?_, ?_, ?_, ?_, fun name value member => ?_⟩
  · rintro _ ⟨⟩
    exact flat.uid
  · rintro _ ⟨⟩
    exact flat.gid
  · rintro _ ⟨⟩
    exact flat.seclabel
  · rintro _ ⟨⟩
    exact flat.suppGids
  · obtain ⟨tg, inside, source⟩ := List.mem_map.mp member
    unfold parseEventParams at parsed
    split at parsed
    · cases parsed
    · cases parsed
      rcases List.mem_append.mp inside with property | boot
      · obtain ⟨kv, paired, rfl⟩ := List.mem_map.mp property
        cases source
        exact ⟨flat.keys _ (List.of_mem_zip paired).1, flat.values _ (List.of_mem_zip paired).2⟩
      · split at boot
        · cases List.mem_singleton.mp boot
          cases source
        · cases boot

structure FlatState (s : IniState) : Prop where
  events : ∀ (n : Str) (event : EventService), s.events[n]? = some event →
    FlatEvent event.configured
  parsing : ∀ p, s.parsing = some p → Flat p.cmd.command ∧ FlatParams p.params

theorem FlatState.line {fresh : SaceCommand} {s t : IniState} {line : Str} (flat : FlatState s)
    (inLine : Flat line) (done : parseEventFromIni fresh s line = some t) : FlatState t := by
  rcases parseEvent_cases done with rfl | ⟨p, triggers, parsing, parsed, rfl⟩ | ⟨p, parsing, rfl⟩ |
    ⟨-, name, command, header, rfl⟩
  · exact flat
  · obtain ⟨command, params⟩ := flat.parsing p parsing
    refine ⟨fun n event found => ?_, by simp⟩
    rcases Table.of_insertIfNew_some found with ⟨rfl, rfl⟩ | old
    · exact flatEvent_of_params command params parsed
    · exact flat.events n event old
  · obtain ⟨command, params⟩ := flat.parsing p parsing
    refine ⟨flat.events, fun q eq => ?_⟩
    cases eq
    exact ⟨command, parseServiceAttr_flat (inLine.of_subset (trimSpaceChar_subset _)) params⟩
  · refine ⟨flat.events, fun q eq => ?_⟩
    cases eq
    exact ⟨lineHeader_flat inLine header, by simp [Flat], by simp [Flat], by simp [Flat], by simp,
      by simp, by simp⟩

theorem read_flat {fresh : SaceCommand} {text : Str} {table : Table Str EventService}
    (read : readIniFile fresh text = some table) {n : Str} {event : EventService}
    (found : table[n]? = some event) : FlatEvent event.configured := by
  obtain ⟨s, lines, read⟩ := Option.bind_eq_some_iff.mp read
  obtain ⟨t, last, read⟩ := Option.bind_eq_some_iff.mp read
  cases read
  have start : FlatState {} := ⟨fun n event found => by simp at found, by simp⟩
  have nothing : Flat [] := by simp [Flat]
  have before := parseLines_invariant
    (fun line member _ _ flat done => FlatState.line flat (readLines_flat nothing line member) done)
    start lines
  exact (before.line nothing last).events n event found

/-! ### The names that can be read -/

def lineText (line : Str) : Str := (trimRight (trimSpaceChar line)).dropLast

theorem lineHeader_some {line name command : Str} :
    lineHeader line = some (name, command) ↔
      lineText line ≠ [] ∧ (trimSpaceChar line).head? ≠ some 35 ∧ name = scanToken (lineText line) ∧
        command = (lineText line).drop name.length ∧ command ≠ [] := by
  constructor
  · intro header
    unfold lineHeader at header
    dsimp only at header
    split at header
    · cases header
    · rename_i filled
      have plain : (trimSpaceChar line).head? ≠ some 35 := fun eq => filled (.inr (.inr eq))
      unfold parseHeader nextToken at header
      dsimp only at header
      by_cases nothing : (trimRight (trimSpaceChar line)).dropLast = []
      · simp [nothing] at header
      · simp only [nothing, if_false] at header
        split at header
        · cases header
        · rename_i more
          cases header
          exact ⟨nothing, plain, rfl, rfl, more⟩
  · rintro ⟨kept, plain, rfl, rfl, more⟩
    have filled : ¬(trimSpaceChar line = [] ∨ trimSpaceChar line = [0] ∨
        (trimSpaceChar line).head? = some 35) := by
      rintro (empty | zero | comment)
      · exact kept (by simp [lineText, empty, trimRight])
      · exact kept (by rw [lineText, zero]; decide)
      · exact plain comment
    unfold lineHeader parseHeader nextToken
    simp only [lineText] at kept more
    simp only [filled, kept, if_false]
    exact if_neg more

theorem trimRight_begins (line : Str) : trimRight line <+: line := by
  have suffix := List.dropWhile_suffix (l := line.reverse) isSpace
  have turned := List.reverse_prefix.mpr suffix
  rwa [List.reverse_reverse] at turned

theorem lineText_begins (line : Str) : lineText line <+: trimSpaceChar line :=
  (List.dropLast_prefix _).trans (trimRight_begins _)

theorem scanToken_begins {c : UInt8} (solid : isBlank c = false) (rest : Str) :
    ∃ tail, scanToken (c :: rest) = c :: tail := by
  unfold scanToken
  by_cases quote : c = 34
  · exact ⟨_, by rw [if_pos quote, quote]⟩
  · exact ⟨_, by rw [if_neg quote, if_neg (by simp [solid])]⟩

theorem scanToken_solid (s : Str) : ∀ c ∈ scanToken s, isBlank c = false := by
  induction s with
  | nil => exact fun _ no => by cases no
  | cons c rest ih =>
    unfold scanToken
    split
    · intro d member
      rcases List.mem_cons.mp member with rfl | member
      · rfl
      · rcases List.mem_cons.mp member with rfl | member
        · rfl
        · exact ih d member
    · split
      · intro _ no
        cases no
      · rename_i solid
        intro d member
        rcases List.mem_cons.mp member with rfl | member
        · simpa using solid
        · exact ih d member

structure Readable (n : Str) : Prop where
  begins : ∃ c rest, n = c :: rest ∧ isSpace c = false ∧ c ≠ 35
  solid : ∀ c ∈ n, isBlank c = false

theorem isBlank_of_solid {c : UInt8} (solid : isSpace c = false) : isBlank c = false := by
  rw [← Bool.not_eq_true]
  intro blank
  simp only [isBlank, Bool.or_eq_true, decide_eq_true_eq] at blank
  rcases blank with (rfl | rfl) | rfl
  · cases solid
  · cases solid
  · cases solid

theorem lineHeader_readable {line name command : Str}
    (header : lineHeader line = some (name, command)) : Readable name := by
  obtain ⟨kept, plain, rfl, -, -⟩ := lineHeader_some.mp header
  refine ⟨?_, scanToken_solid _⟩
  obtain ⟨c, rest, eq⟩ := List.exists_cons_of_ne_nil kept
  obtain ⟨more, trimmed⟩ := lineText_begins line
  rw [eq, List.cons_append] at trimmed
  obtain ⟨behind, dropped⟩ := trimRight_begins (line.dropWhile isSpace)
  have left : line.dropWhile isSpace = c :: (rest ++ more ++ behind) := by
    rw [← dropped, ← List.cons_append, trimmed]
    rfl
  have solid : isSpace c = false := by
    have head := List.head_dropWhile_not isSpace (by rw [left]; simp)
    simpa only [left, List.head_cons] using head
  obtain ⟨tail, scanned⟩ := scanToken_begins (isBlank_of_solid solid) rest
  refine ⟨c, tail, eq ▸ scanned, solid, ?_⟩
  rintro rfl
  exact plain (by rw [← trimmed, List.head?_cons])

end SaceEvent
end Sace
