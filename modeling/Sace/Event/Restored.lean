import Sace.Event.Reload
import Sace.Event.Monitor

/-! Whether SaceEvent finds its events again: what it reads from the file that it has written. -/
namespace Sace
namespace SaceEvent

/-- The file is written to its end, and what is read from it are the same events. -/
def RoundTrips (signed : Bool) (fresh : SaceCommand) (e : SaceEvent) : Prop :=
  (writeEvents e.eventList).result = .ok () ∧
    ∃ table, readIniFile fresh (iniText signed e.eventList) = some table ∧
      ∀ n : Str, (table[n]?).map EventService.configured =
        (e.events[n]?).bind fun id => (e.services[id]?).map EventService.configured

/-! ### The names that are written -/

/-- The token of a line that goes on behind a blank is in what stands before the blank. -/
theorem scanToken_within {s tag rest : Str} (part : s <+: tag ++ 32 :: rest) :
    scanToken s ⊆ tag := by
  induction s generalizing tag with
  | nil => exact fun _ no => by cases no
  | cons c more ih =>
    cases tag with
    | nil =>
      obtain ⟨rfl, -⟩ := List.cons_prefix_cons.mp part
      intro _ no
      cases no
    | cons d tag =>
      obtain ⟨rfl, inner⟩ := List.cons_prefix_cons.mp part
      have onward : scanToken more ⊆ c :: tag := fun _ member =>
        List.mem_cons_of_mem _ (ih inner member)
      unfold scanToken
      split
      · rename_i quote
        have own : 34 ∈ c :: tag := by simp [quote]
        exact List.cons_subset.mpr ⟨own, List.cons_subset.mpr ⟨own, onward⟩⟩
      · split
        · intro _ no
          cases no
        · exact List.cons_subset.mpr ⟨List.mem_cons_self, onward⟩

/-- The zero that getline counts is no white space, so that nothing is trimmed before it. -/
theorem dropWhile_zero (text : Str) :
    (text ++ [0]).dropWhile isSpace = text.dropWhile isSpace ++ [0] := by
  rw [List.dropWhile_append]
  split
  · rename_i empty
    rw [List.isEmpty_iff.mp empty]
    rfl
  · rfl

theorem trimRight_zero (text : Str) : trimRight (text ++ [0]) = text ++ [0] := by
  have zero : isSpace 0 = false := rfl
  simp [trimRight, zero]

theorem lineText_ended (text : Str) : lineText (text ++ [0]) = text.dropWhile isSpace := by
  rw [lineText, trimSpaceChar, dropWhile_zero, trimRight_zero, trimRight_zero, List.dropLast_concat]

theorem tag_plain {tag : Str} (known : tag ∈ tags) :
    tag.dropWhile isSpace = tag ∧ tag ≠ [] ∧ 0 ∉ tag ∧ 34 ∉ tag := by
  have all : ∀ tag ∈ tags, tag.dropWhile isSpace = tag ∧ tag ≠ [] ∧ 0 ∉ tag ∧ 34 ∉ tag := by
    decide +kernel
  exact all tag known

/-- A name that is read comes from a tag or from the first line of an event. -/
theorem written_name {services : List EventService} {line name command : Str}
    (written : Written services line) (header : lineHeader line = some (name, command)) :
    (∃ tag ∈ tags, name ⊆ tag) ∨
      ∃ event ∈ services, name = scanToken ((headerText event.cmd).dropWhile isSpace) := by
  obtain ⟨kept, -, rfl, -, -⟩ := lineHeader_some.mp header
  rcases written with rfl | ⟨event, among, rfl⟩ | ⟨tag, known, rest, rfl⟩
  · exact absurd (lineText_ended []) kept
  · exact .inr ⟨event, among, by rw [lineText_ended]⟩
  · obtain ⟨solid, nonempty, -, -⟩ := tag_plain known
    have left : (tagText tag ++ rest).dropWhile isSpace = tag ++ 32 :: rest := by
      have blanks : tagText tag ++ rest = 32 :: 32 :: (tag ++ 32 :: rest) := by
        simp only [tagText, show str "  " = [32, 32] from rfl, show str " " = [32] from rfl,
          List.append_assoc, List.cons_append, List.nil_append]
      rw [blanks, List.dropWhile_cons_of_pos rfl, List.dropWhile_cons_of_pos rfl,
        List.dropWhile_append, solid, if_neg (by simpa using nonempty)]
    have part : lineText (tagText tag ++ rest) <+: tag ++ 32 :: rest := by
      rw [← left]
      exact (lineText_begins _).trans (trimRight_begins _)
    exact .inl ⟨tag, known, scanToken_within part⟩

theorem header_left {cmd : SaceCommand} (readable : Readable cmd.name) (whole : 0 ∉ cmd.name) :
    (headerText cmd).dropWhile isSpace = cmd.name ++ 32 :: Bytes.cString cmd.command := by
  obtain ⟨c, rest, eq, solid, -⟩ := readable.begins
  rw [headerText, Bytes.cString_of_whole whole, eq, List.cons_append,
    List.dropWhile_cons_of_neg (by simp [solid])]
  rfl

/-- A quote is doubled. -/
theorem scanToken_count {n : Str} (solid : ∀ c ∈ n, isBlank c = false) (rest : Str) :
    (scanToken (n ++ 32 :: rest)).count 34 = 2 * n.count 34 := by
  induction n with
  | nil => rfl
  | cons c n ih =>
    have tail := ih fun d member => solid d (List.mem_cons_of_mem _ member)
    have blank : ¬ isBlank c = true := by simp [solid c List.mem_cons_self]
    rw [List.cons_append, scanToken]
    by_cases quote : c = 34
    · rw [if_pos quote, quote, List.count_cons_self, List.count_cons_self, List.count_cons_self,
        tail]
      omega
    · rw [if_neg quote, if_neg blank, List.count_cons_of_ne quote, List.count_cons_of_ne quote,
        tail]

theorem scanToken_plain {n : Str} (solid : ∀ c ∈ n, isBlank c = false) (plain : 34 ∉ n)
    (rest : Str) : scanToken (n ++ 32 :: rest) = n := by
  induction n with
  | nil => rfl
  | cons c n ih =>
    have other : ¬ c = 34 := fun eq => plain (eq ▸ List.mem_cons_self)
    have blank : ¬ isBlank c = true := by simp [solid c List.mem_cons_self]
    rw [List.cons_append, scanToken, if_neg other, if_neg blank]
    rw [ih (fun d member => solid d (List.mem_cons_of_mem _ member))
      fun member => plain (List.mem_cons_of_mem _ member)]

/-! ### Events that are found again -/

section
variable {signed : Bool} {fresh : SaceCommand} {e : SaceEvent}

theorem RoundTrips.found (trips : RoundTrips signed fresh e) {n : Str} {id : Nat}
    {service : EventService} (listed : e.events[n]? = some id)
    (held : e.services[id]? = some service) :
    ∃ (table : Table Str EventService) (event : EventService),
      readIniFile fresh (iniText signed e.eventList) = some table ∧ table[n]? = some event ∧
        event.configured = service.configured := by
  obtain ⟨-, table, read, same⟩ := trips
  have own := same n
  rw [listed, Option.bind_some, held, Option.map_some] at own
  obtain ⟨event, found, eq⟩ := Option.map_eq_some_iff.mp own
  exact ⟨table, event, read, found, eq⟩

theorem RoundTrips.flat (trips : RoundTrips signed fresh e) (named : e.Named) :
    FlatEvents e.eventList := by
  intro event member
  obtain ⟨n, id, listed, held⟩ := mem_eventList.mp member
  obtain ⟨table, other, read, found, same⟩ := trips.found listed held
  obtain ⟨line, -, header⟩ := read_headed read found
  refine ⟨fun newline => ?_, same ▸ read_flat read found⟩
  rw [named.name listed held] at newline
  cases (lineHeader_readable header).solid 10 newline

theorem RoundTrips.name_of (trips : RoundTrips signed fresh e) (named : e.Named) {n : Str}
    {id : Nat} (listed : e.events[n]? = some id) :
    Readable n ∧ ((∃ tag ∈ tags, n ⊆ tag) ∨
      ∃ event ∈ e.eventList, n = scanToken ((headerText event.cmd).dropWhile isSpace)) := by
  obtain ⟨service, held, -⟩ := named n id listed
  obtain ⟨table, event, read, found, -⟩ := trips.found listed held
  obtain ⟨line, member, header⟩ := read_headed read found
  exact ⟨lineHeader_readable header,
    written_name (iniText_lines (trips.flat named) trips.1 line member) header⟩

theorem scanToken_subset (s : Str) : scanToken s ⊆ s :=
  scanToken_within (List.prefix_append s [32])

theorem RoundTrips.whole (trips : RoundTrips signed fresh e) (named : e.Named) {n : Str} {id : Nat}
    (listed : e.events[n]? = some id) : 0 ∉ n := by
  intro zero
  rcases (trips.name_of named listed).2 with ⟨tag, known, subset⟩ | ⟨event, -, rfl⟩
  · exact (tag_plain known).2.2.1 (subset zero)
  · have inside := (List.dropWhile_sublist _).subset (scanToken_subset _ zero)
    simp only [headerText, List.mem_append] at inside
    rcases inside with name | blank | command
    · exact Bytes.zero_notMem_cString _ name
    · exact absurd blank (by decide)
    · exact Bytes.zero_notMem_cString _ command

/-- No name has a quote: the one with the fewest could not come from any. -/
theorem RoundTrips.plain (trips : RoundTrips signed fresh e) (named : e.Named) {n : Str} {id : Nat}
    (listed : e.events[n]? = some id) : 34 ∉ n := by
  induction count : n.count 34 using Nat.strong_induction_on generalizing n id with
  | _ k ih =>
    intro quoted
    have positive := List.count_pos_iff.mpr quoted
    rcases (trips.name_of named listed).2 with ⟨tag, known, subset⟩ | ⟨event, member, scanned⟩
    · exact (tag_plain known).2.2.2 (subset quoted)
    · obtain ⟨m, other, there, held⟩ := mem_eventList.mp member
      have own := named.name there held
      have readable : Readable event.cmd.name := own ▸ (trips.name_of named there).1
      have whole : 0 ∉ event.cmd.name := own ▸ trips.whole named there
      rw [header_left readable whole, own] at scanned
      have twice := scanToken_count (own ▸ readable.solid) (Bytes.cString event.cmd.command)
      rw [← scanned] at twice
      have fewer := ih (m.count 34) (by omega) there rfl
      rw [List.count_eq_zero.mpr fewer] at twice
      omega

theorem command_grows (command : Str) : command ≠ 32 :: Bytes.cString command := by
  induction command with
  | nil => exact fun no => by cases no
  | cons c rest ih =>
    intro eq
    obtain ⟨rfl, tail⟩ := List.cons.inj eq
    exact ih tail

/-- A name that is the first token of its own line is read with the rest of that line. -/
theorem lineHeader_own {cmd : SaceCommand} (readable : Readable cmd.name) (whole : 0 ∉ cmd.name)
    (plain : 34 ∉ cmd.name) :
    lineHeader (headerText cmd ++ [0]) = some (cmd.name, 32 :: Bytes.cString cmd.command) := by
  have scanned := scanToken_plain readable.solid plain (Bytes.cString cmd.command)
  have text : lineText (headerText cmd ++ [0]) = cmd.name ++ 32 :: Bytes.cString cmd.command :=
    (lineText_ended _).trans (header_left readable whole)
  obtain ⟨more, kept⟩ := lineText_begins (headerText cmd ++ [0])
  obtain ⟨c, tail, eq, -, comment⟩ := readable.begins
  rw [lineHeader_some, text, scanned]
  refine ⟨by simp, ?_, rfl, by rw [List.drop_left], by simp⟩
  rw [← kept, text, eq]
  simpa using comment

/-- The first event of the file is read with a command that begins with a blank. -/
theorem not_roundTrips (named : e.Named) {event : EventService} {rest : List EventService}
    (list : e.eventList = event :: rest) : ¬ RoundTrips signed fresh e := by
  intro trips
  have member : event ∈ e.eventList := by rw [list]; exact List.mem_cons_self
  obtain ⟨n, id, listed, held⟩ := mem_eventList.mp member
  obtain rfl := named.name listed held
  have header := lineHeader_own (trips.name_of named listed).1 (trips.whole named listed)
    (trips.plain named listed)
  obtain ⟨table, other, read, found, same⟩ := trips.found listed held
  have flat := trips.flat named
  have written := trips.1
  rw [list] at read flat written
  obtain ⟨_, _, _, onward⟩ := writeEvents_cons written
  have later : ∀ line ∈ readLines [] (iniText signed rest), Written rest line :=
    iniText_lines (fun _ after => flat _ (List.mem_cons_of_mem _ after)) onward
  obtain ⟨lines, split, -⟩ := iniText_cons_lines flat written later
  obtain ⟨first, also, command⟩ := read_first split header read
  rw [found] at also
  cases also
  have kept : other.cmd.command = event.cmd.command := congrArg Configured.command same
  exact command_grows event.cmd.command (kept.symm.trans command)

theorem eventList_nil (named : e.Named) (nothing : e.eventList = []) : e.events = ∅ := by
  apply Std.ExtTreeMap.ext_getElem?
  intro n
  rw [Std.ExtTreeMap.getElem?_empty]
  cases listed : e.events[n]? with
  | none => rfl
  | some id =>
    obtain ⟨service, held, -⟩ := named n id listed
    have member := mem_eventList.mpr ⟨n, id, listed, held⟩
    rw [nothing] at member
    cases member

theorem roundTrips_iff (named : e.Named) : RoundTrips signed fresh e ↔ e.events = ∅ := by
  constructor
  · intro trips
    cases list : e.eventList with
    | nil => exact eventList_nil named list
    | cons event rest => exact absurd trips (not_roundTrips named list)
  · intro empty
    have nothing : e.eventList = [] := by
      unfold eventList
      rw [empty]
      rfl
    refine ⟨by rw [nothing]; rfl, ∅, by rw [nothing]; rfl, fun n => ?_⟩
    rw [empty, Std.ExtTreeMap.getElem?_empty, Std.ExtTreeMap.getElem?_empty]
    rfl

end

end SaceEvent
end Sace
