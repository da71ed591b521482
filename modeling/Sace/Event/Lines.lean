import Sace.Event.Ini

/-! The lines of the configuration file: how the text that SaceEvent writes falls into the lines
that it reads. -/
namespace Sace

def Trigger.source : Trigger → Option (Str × Str)
  | .property name value _ => some (name, value)
  | .boot _ => none

/-- What the file is to keep of an event. -/
structure Configured where
  command : Str
  params : Option SaceCommandParams
  triggers : List (Option (Str × Str))

def EventService.configured (event : EventService) : Configured where
  command := event.cmd.command
  params := event.cmd.commandParams.map ParamsObject.base
  triggers := event.triggers.map Trigger.source

namespace SaceEvent

def Flat (s : Str) : Prop := 10 ∉ s

theorem Flat.of_subset {s t : Str} (flat : Flat t) (subset : s ⊆ t) : Flat s :=
  fun member => flat (subset member)

/-- No newline is in what the file is to keep of an event, but in its rlimits. -/
structure FlatEvent (event : Configured) : Prop where
  command : Flat event.command
  uid : ∀ params ∈ event.params, Flat params.uid
  gid : ∀ params ∈ event.params, Flat params.gid
  seclabel : ∀ params ∈ event.params, Flat params.seclabel
  suppGids : ∀ params ∈ event.params, ∀ gp ∈ params.suppGids, Flat gp
  triggers : ∀ name value, some (name, value) ∈ event.triggers → Flat name ∧ Flat value

theorem readLines_append {line q : Str} (flat : Flat q)
    (fits : line.length + q.length ≤ INI_BUFFER_LEN - 1) (text : Str) :
    readLines line (q ++ text) = readLines (line ++ q) text := by
  induction q generalizing line with
  | nil => rw [List.nil_append, List.append_nil]
  | cons c rest ih =>
    rw [List.length_cons] at fits
    have other : ¬ c = 10 := fun eq => flat (eq ▸ List.mem_cons_self)
    have room : ¬ line.length = INI_BUFFER_LEN - 1 := by omega
    have tail : Flat rest := fun member => flat (List.mem_cons_of_mem _ member)
    rw [List.cons_append, readLines, if_neg other, if_neg room, ih tail, List.append_assoc,
      List.singleton_append]
    rw [List.length_append, List.length_singleton]
    omega

/-- A line that was begun goes on with the text, and the lines behind it are the text's own. -/
theorem readLines_begun {line other text found : Str} (shorter : other.length ≤ line.length)
    (fits : line.length ≤ INI_BUFFER_LEN - 1) (member : found ∈ readLines line text) :
    line <+: found ∨ found ∈ readLines other text := by
  induction text generalizing line other with
  | nil =>
    unfold readLines at member
    split at member
    · cases member
    · cases List.mem_singleton.mp member
      exact .inl (List.prefix_refl _)
  | cons c rest ih =>
    unfold readLines at member ⊢
    by_cases newline : c = 10
    · rw [if_pos newline] at member ⊢
      rcases List.mem_cons.mp member with rfl | member
      · exact .inl (List.prefix_append ..)
      · exact .inr (List.mem_cons_of_mem _ member)
    · rw [if_neg newline] at member ⊢
      by_cases full : line.length = INI_BUFFER_LEN - 1
      · rw [if_pos full] at member
        cases List.mem_singleton.mp member
        exact .inl (List.prefix_refl _)
      · rw [if_neg full] at member
        have room : ¬ other.length = INI_BUFFER_LEN - 1 := by omega
        have grown : (line ++ [c]).length ≤ INI_BUFFER_LEN - 1 := by
          rw [List.length_append, List.length_singleton]
          omega
        rw [if_neg room]
        have still : (other ++ [c]).length ≤ (line ++ [c]).length := by simpa using shorter
        rcases ih still grown member with onward | later
        · exact .inl ((List.prefix_append ..).trans onward)
        · exact .inr later

theorem readLines_across {line q text found : Str} (flat : Flat q)
    (fits : line.length ≤ INI_BUFFER_LEN - 1) (member : found ∈ readLines line (q ++ text)) :
    line <+: found ∨ found ∈ readLines [] text := by
  induction q generalizing line with
  | nil => exact readLines_begun (Nat.zero_le _) fits member
  | cons c rest ih =>
    have other : ¬ c = 10 := fun eq => flat (eq ▸ List.mem_cons_self)
    have tail : Flat rest := fun member => flat (List.mem_cons_of_mem _ member)
    rw [List.cons_append, readLines, if_neg other] at member
    split at member
    · cases List.mem_singleton.mp member
      exact .inl (List.prefix_refl _)
    · rename_i room
      have grown : (line ++ [c]).length ≤ INI_BUFFER_LEN - 1 := by
        rw [List.length_append, List.length_singleton]
        omega
      rcases ih tail grown member with onward | later
      · exact .inl ((List.prefix_append ..).trans onward)
      · exact .inr later

def tags : List Str :=
  [str "user", str "group", str "seclabel", str "capability", str "groups", str "rlimits",
    str "trigger"]

def tagText (tag : Str) : Str := str "  " ++ (tag ++ str " ")

/-- A line of the file: an empty one, the first of an event, or one that begins with a tag. -/
def Written (services : List EventService) (line : Str) : Prop :=
  line = [0] ∨ (∃ event ∈ services, line = headerText event.cmd ++ [0]) ∨
    ∃ tag ∈ tags, tagText tag <+: line

variable {services : List EventService}

theorem lines_newline {text : Str} (rest : ∀ line ∈ readLines [] text, Written services line) :
    ∀ line ∈ readLines [] (str "\n" ++ text), Written services line := by
  intro line member
  rw [show str "\n" = [10] from rfl, List.singleton_append, readLines, if_pos rfl] at member
  rcases List.mem_cons.mp member with rfl | member
  · exact .inl rfl
  · exact rest line member

theorem tagText_flat {tag : Str} (known : tag ∈ tags) :
    Flat (tagText tag) ∧ (tagText tag).length ≤ INI_BUFFER_LEN - 1 := by
  have all : ∀ tag ∈ tags, Flat (tagText tag) ∧ (tagText tag).length ≤ INI_BUFFER_LEN - 1 := by
    simp only [Flat]
    decide +kernel
  exact all tag known

theorem lines_tagged {tag q text : Str} (known : tag ∈ tags) (flat : Flat q)
    (rest : ∀ line ∈ readLines [] text, Written services line) :
    ∀ line ∈ readLines [] (tagText tag ++ (q ++ text)), Written services line := by
  intro line member
  obtain ⟨own, short⟩ := tagText_flat known
  rw [readLines_append own (by simpa using short), List.nil_append] at member
  rcases readLines_across flat short member with begun | later
  · exact .inr (.inr ⟨tag, known, begun⟩)
  · exact rest line later

theorem lines_attr {tag value text : Str} (known : tag ∈ tags) (flat : Flat value)
    (rest : ∀ line ∈ readLines [] text, Written services line) :
    ∀ line ∈ readLines [] (attrText tag value ++ text), Written services line := by
  have short : Flat (Bytes.cString value) :=
    flat.of_subset (Bytes.cString_subset value)
  have same : attrText tag value ++ text = tagText tag ++ (Bytes.cString value ++ text) := by
    simp only [attrText, tagText, List.append_assoc]
  rw [same]
  exact lines_tagged known short rest

theorem toDecimal_flat (n : Int) : Flat (toDecimal n) := by
  have digits : Flat ((Nat.toDigits 10 n.natAbs).map fun c => UInt8.ofNat c.toNat) := by
    intro member
    obtain ⟨c, digit, eq⟩ := List.mem_map.mp member
    have range := Nat.isDigit_of_mem_toDigits (by decide) (by decide) digit
    simp only [Char.isDigit, Bool.and_eq_true, decide_eq_true_eq, ge_iff_le,
      UInt32.le_iff_toNat_le] at range
    have low : 48 ≤ c.toNat := range.1
    have high : c.toNat ≤ 57 := range.2
    have value := congrArg UInt8.toNat eq
    rw [UInt8.toNat_ofNat'] at value
    have ten : (10 : UInt8).toNat = 10 := rfl
    omega
  unfold toDecimal
  dsimp only
  split
  · intro member
    rcases List.mem_append.mp member with sign | digit
    · exact absurd sign (by decide)
    · exact digits digit
  · exact digits

theorem lines_capability {text : Str} (capabilities : CapSet)
    (rest : ∀ line ∈ readLines [] text, Written services line) :
    ∀ line ∈ readLines [] (capabilityText capabilities ++ text), Written services line := by
  unfold capabilityText
  split
  · have same : str "  capability " = tagText (str "capability") := by decide +kernel
    rw [same, List.append_assoc]
    exact lines_tagged (by decide +kernel) (toDecimal_flat _) rest
  · exact rest

theorem lines_groups {text : Str} {suppGids : List Str} (flat : ∀ gp ∈ suppGids, Flat gp)
    (rest : ∀ line ∈ readLines [] text, Written services line) :
    ∀ line ∈ readLines [] (groupsText suppGids ++ text), Written services line := by
  unfold groupsText
  split
  · have same : str "  groups " = tagText (str "groups") := by decide +kernel
    have names : Flat (suppGids.flatMap fun gp => gp ++ str " ") := by
      intro member
      obtain ⟨gp, among, inside⟩ := List.mem_flatMap.mp member
      rcases List.mem_append.mp inside with own | blank
      · exact flat gp among own
      · exact absurd blank (by decide)
    rw [same, List.append_assoc, List.append_assoc]
    exact lines_tagged (by decide +kernel) names (lines_newline rest)
  · exact rest

theorem lines_rlimits {text : Str} (signed : Bool) (rlimits : List Str)
    (rest : ∀ line ∈ readLines [] text, Written services line) :
    ∀ line ∈ readLines [] (rlimitsText signed rlimits ++ text), Written services line := by
  induction rlimits with
  | nil => exact rest
  | cons rlms more ih =>
    have same : str "  rlimits " = tagText (str "rlimits") := by decide +kernel
    have blank : Flat (str " ") := by simp only [Flat]; decide
    have both {a b : Str} (first : Flat a) (second : Flat b) : Flat (a ++ b) := fun member =>
      (List.mem_append.mp member).elim first second
    have numbers := both (both (both (both (both
      (toDecimal_flat (charValue signed (rlms.getD 0 0))) blank)
      (toDecimal_flat (charValue signed (rlms.getD 1 0)))) blank)
      (toDecimal_flat (charValue signed (rlms.getD 2 0)))) blank
    have split : rlimitsText signed (rlms :: more) ++ text =
        tagText (str "rlimits") ++ ((toDecimal (charValue signed (rlms.getD 0 0)) ++ str " " ++
          toDecimal (charValue signed (rlms.getD 1 0)) ++ str " " ++
          toDecimal (charValue signed (rlms.getD 2 0)) ++ str " ") ++
            (rlimitsText signed more ++ text)) := by
      simp only [rlimitsText, List.flatMap_cons, same, List.append_assoc]
    rw [split]
    exact lines_tagged (by decide +kernel) numbers ih

theorem toStr_flat {tg : Trigger}
    (flat : ∀ name value, tg.source = some (name, value) → Flat name ∧ Flat value) :
    Flat tg.toStr := by
  cases tg with
  | boot hasTriggered => simp only [Flat, Trigger.toStr]; decide
  | property name value lastValue =>
    obtain ⟨own, other⟩ := flat name value rfl
    intro member
    simp only [Trigger.toStr, List.mem_append] at member
    rcases member with ((constant | member) | equals) | member
    · exact absurd constant (by decide)
    · exact own member
    · exact absurd equals (by decide)
    · exact other member

theorem lines_triggers {text : Str} {triggers : List Trigger}
    (flat : ∀ tg ∈ triggers, Flat tg.toStr)
    (rest : ∀ line ∈ readLines [] text, Written services line) :
    ∀ line ∈ readLines [] (triggersText triggers ++ text), Written services line := by
  induction triggers with
  | nil => exact rest
  | cons tg more ih =>
    have same : str "  trigger " = tagText (str "trigger") := by decide +kernel
    have split : triggersText (tg :: more) ++ text =
        tagText (str "trigger") ++ (tg.toStr ++ (str "\n" ++ (triggersText more ++ text))) := by
      simp only [triggersText, List.flatMap_cons, same, List.append_assoc]
    have tail := ih fun other member => flat other (List.mem_cons_of_mem _ member)
    rw [split]
    exact lines_tagged (by decide +kernel) (flat tg List.mem_cons_self) (lines_newline tail)

theorem headerText_flat {cmd : SaceCommand} (name : Flat cmd.name) (command : Flat cmd.command) :
    Flat (headerText cmd) := by
  intro member
  simp only [headerText, List.mem_append] at member
  rcases member with member | blank | member
  · exact name (Bytes.cString_subset _ member)
  · exact absurd blank (by decide)
  · exact command (Bytes.cString_subset _ member)

theorem readLines_header {event : EventService} {text : Str} (name : Flat event.cmd.name)
    (command : Flat event.cmd.command) (fits : nameLine event.cmd ≤ INI_BUFFER_LEN) :
    readLines [] (headerText event.cmd ++ (str "\n" ++ text)) =
      (headerText event.cmd ++ [0]) :: readLines [] text := by
  have short : ([] : Str).length + (headerText event.cmd).length ≤ INI_BUFFER_LEN - 1 := by
    have blank : (str " ").length = 1 := rfl
    simp only [headerText, List.length_append, List.length_nil, blank]
    unfold nameLine at fits
    omega
  rw [readLines_append (headerText_flat name command) short, List.nil_append,
    show str "\n" = [10] from rfl, List.singleton_append, readLines, if_pos rfl]

theorem eventText_lines {signed : Bool} {event : EventService} {params : SaceCommandParams}
    {text : Str} (name : Flat event.cmd.name)
    (flat : FlatEvent event.configured) (own : params ∈ event.configured.params)
    (fits : nameLine event.cmd ≤ INI_BUFFER_LEN)
    (rest : ∀ line ∈ readLines [] text, Written services line) :
    ∃ lines, readLines [] (eventText signed event params ++ text) =
        (headerText event.cmd ++ [0]) :: lines ∧ ∀ line ∈ lines, Written services line := by
  have triggers : ∀ tg ∈ event.triggers, Flat tg.toStr := fun tg member =>
    toStr_flat fun name value source => flat.triggers name value
      (List.mem_map.mpr ⟨tg, member, source⟩)
  simp only [eventText, List.append_assoc]
  refine ⟨_, readLines_header name flat.command fits, ?_⟩
  refine lines_attr (by decide +kernel) (flat.uid params own) (lines_newline ?_)
  refine lines_attr (by decide +kernel) (flat.gid params own) (lines_newline ?_)
  refine lines_attr (by decide +kernel) (flat.seclabel params own) (lines_newline ?_)
  refine lines_capability _ (lines_groups (flat.suppGids params own) (lines_rlimits signed _ ?_))
  exact lines_triggers triggers (lines_newline rest)

theorem writeEvents_cons {event : EventService} {rest : List EventService}
    (written : (writeEvents (event :: rest)).result = .ok ()) :
    ∃ object, event.cmd.commandParams = some object ∧ nameLine event.cmd ≤ INI_BUFFER_LEN ∧
      (writeEvents rest).result = .ok () := by
  unfold writeEvents at written
  cases own : event.cmd.commandParams with
  | none =>
    rw [own] at written
    cases written
  | some object =>
    rw [own] at written
    obtain ⟨_, name, written⟩ := Traced.bind_ok.mp written
    obtain ⟨_, user, written⟩ := Traced.bind_ok.mp written
    refine ⟨object, rfl, memcpy_fits name, ?_⟩
    split at written
    · exact written
    · cases written

def FlatEvents (events : List EventService) : Prop :=
  ∀ event ∈ events, Flat event.cmd.name ∧ FlatEvent event.configured

theorem iniText_cons_lines {signed : Bool} {event : EventService} {rest : List EventService}
    (flat : FlatEvents (event :: rest))
    (written : (writeEvents (event :: rest)).result = .ok ())
    (later : ∀ line ∈ readLines [] (iniText signed rest), Written services line) :
    ∃ lines, readLines [] (iniText signed (event :: rest)) =
        (headerText event.cmd ++ [0]) :: lines ∧ ∀ line ∈ lines, Written services line := by
  obtain ⟨object, own, fits, -⟩ := writeEvents_cons written
  obtain ⟨name, kept⟩ := flat event List.mem_cons_self
  have params : object.base ∈ event.configured.params := by simp [EventService.configured, own]
  rw [iniText, own]
  exact eventText_lines name kept params fits later

theorem iniText_lines {signed : Bool} {events : List EventService} (flat : FlatEvents events)
    (written : (writeEvents events).result = .ok ()) :
    ∀ line ∈ readLines [] (iniText signed events), Written events line := by
  have all (part : List EventService) (among : part ⊆ events)
      (written : (writeEvents part).result = .ok ()) :
      ∀ line ∈ readLines [] (iniText signed part), Written events line := by
    induction part with
    | nil => exact fun _ no => by cases no
    | cons event rest ih =>
      obtain ⟨_, _, _, onward⟩ := writeEvents_cons written
      have later := ih (fun _ member => among (List.mem_cons_of_mem _ member)) onward
      obtain ⟨lines, eq, others⟩ := iniText_cons_lines (fun _ member => flat _ (among member))
        written later
      rw [eq]
      intro line member
      rcases List.mem_cons.mp member with rfl | member
      · exact .inr (.inl ⟨event, among List.mem_cons_self, rfl⟩)
      · exact others line member
  exact all events (fun _ member => member) written

end SaceEvent
end Sace
