import Sace.Saced.Reach

/-! The configuration file of SaceEvent: the text that write_ini_file leaves in it, and
read_ini_file, which makes events of its lines. -/
namespace Sace

/-! ### Writing -/

def toDecimal (n : Int) : Str :=
  let digits := (Nat.toDigits 10 n.natAbs).map fun c => UInt8.ofNat c.toNat
  if n < 0 then str "-" ++ digits else digits

def charValue (signed : Bool) (c : UInt8) : Int :=
  if signed && 128 ≤ c then c.toNat - 256 else c.toNat

def Trigger.toStr : Trigger → Str
  | .property name value _ => str "property:" ++ name ++ str "=" ++ value
  | .boot _ => str "boot"

namespace SaceEvent

def headerText (cmd : SaceCommand) : Str :=
  Bytes.cString cmd.name ++ (str " " ++ Bytes.cString cmd.command)

def attrText (tag value : Str) : Str := str "  " ++ tag ++ str " " ++ Bytes.cString value

/-- No newline is written behind the number. -/
def capabilityText (capabilities : CapSet) : Str :=
  if 0 < capabilities.toNat then str "  capability " ++ toDecimal capabilities.toNat else []

def groupsText (suppGids : List Str) : Str :=
  if suppGids ≠ [] then
    str "  groups " ++ suppGids.flatMap (fun gp => gp ++ str " ") ++ str "\n"
  else []

/-- The first three characters of every string, as numbers, without a newline. -/
def rlimitsText (signed : Bool) (rlimits : List Str) : Str :=
  rlimits.flatMap fun rlms =>
    let at_ (i : Nat) := toDecimal (charValue signed (rlms.getD i 0))
    str "  rlimits " ++ (at_ 0 ++ str " " ++ at_ 1 ++ str " " ++ at_ 2 ++ str " ")

def triggersText (triggers : List Trigger) : Str :=
  triggers.flatMap fun tg => str "  trigger " ++ tg.toStr ++ str "\n"

def eventText (signed : Bool) (event : EventService) (params : SaceCommandParams) : Str :=
  headerText event.cmd ++ (str "\n" ++ (attrText (str "user") params.uid ++ (str "\n" ++
    (attrText (str "group") params.gid ++ (str "\n" ++
      (attrText (str "seclabel") params.seclabel ++ (str "\n" ++
        (capabilityText params.capabilities ++ (groupsText params.suppGids ++
          (rlimitsText signed params.rlimits ++
            (triggersText event.triggers ++ str "\n")))))))))))

/-- The file that `writeEvents` leaves when it gets to its end. -/
def iniText (signed : Bool) : List EventService → Str
  | [] => []
  | event :: rest =>
    match event.cmd.commandParams with
    | none => []
    | some object => eventText signed event object.base ++ iniText signed rest

/-! ### Reading -/

/-- The calls of getline with the buffer of 128 bytes. The zero that replaces a newline is
counted; a line that does not fit is the last. `line` is what the current call has stored. -/
def readLines (line : Str) : Str → List Str
  | [] => if line = [] then [] else [line]
  | c :: rest =>
    if c = 10 then (line ++ [0]) :: readLines [] rest
    else if line.length = INI_BUFFER_LEN - 1 then [line]
    else readLines (line ++ [c]) rest

def trimRight (line : Str) : Str := (line.reverse.dropWhile isSpace).reverse

def trimSpaceChar (line : Str) : Str := trimRight (line.dropWhile isSpace)

def isBlank (c : UInt8) : Bool := c = 9 || c = 32 || c = 10

/-- The loop of next_token. At a quote the inner loop stops at once, and a second one is pushed. -/
def scanToken : Str → Str
  | [] => []
  | c :: rest =>
    if c = 34 then 34 :: 34 :: scanToken rest
    else if isBlank c then []
    else c :: scanToken rest

/-- `next_token`: the token and what is left of the line. The erase that is to trim the line on
the right begins with its last character that is no space. -/
def nextToken (line : Str) : Option (Str × Str) :=
  let line := (trimRight line).dropLast
  if line = [] then none
  else
    let token := scanToken line
    some (token, line.drop token.length)

def capNames : List String :=
  ["CHOWN", "DAC_OVERRIDE", "DAC_READ_SEARCH", "FOWNER", "FSETID", "KILL", "SETGID", "SETUID",
   "SETPCAP", "LINUX_IMMUTABLE", "NET_BIND_SERVICE", "NET_BROADCAST", "NET_ADMIN", "NET_RAW",
   "IPC_LOCK", "IPC_OWNER", "SYS_MODULE", "SYS_RAWIO", "SYS_CHROOT", "SYS_PTRACE", "SYS_PACCT",
   "SYS_ADMIN", "SYS_BOOT", "SYS_NICE", "SYS_RESOURCE", "SYS_TIME", "SYS_TTY_CONFIG", "MKNOD",
   "LEASE", "AUDIT_WRITE", "AUDIT_CONTROL", "SETFCAP", "MAC_OVERRIDE", "MAC_ADMIN", "SYSLOG",
   "WAKE_ALARM", "BLOCK_SUSPEND", "AUDIT_READ"]

/-- `parse_capability_name`: the kernel numbers the names of cap_map in this order. -/
def parseCapabilityName (name : Str) : Option Nat := capNames.findIdx? (str · = name)

def rlimitMap : List (String × Int) :=
  [("AS", 9), ("CORE", 4), ("CPU", 0), ("DATA", 2), ("FSIZE", 1), ("LOCKS", 10), ("MEMLOCK", 8),
   ("MSGQUEUE", 12), ("NICE", 13), ("NOFILE", 7), ("NPROC", 6), ("RTPRIO", 14),
   ("SIGPENDING", 11), ("STACK", 3)]

def parseRlimitsName (name : Str) : Int :=
  ((rlimitMap.find? fun entry => str entry.1 = name).map Prod.snd).getD (-1)

def word (stream : InStream) : Option (Str × InStream) :=
  if stream.eof || stream.fail then none
  else
    let skipped := stream.rest.dropWhile isSpace
    if skipped = [] then none
    else
      let rest := skipped.dropWhile fun c => !isSpace c
      some (skipped.takeWhile fun c => !isSpace c, { rest, eof := rest = [] })

/-- The loops that read words until the stream fails; `fuel` bounds their turns. -/
def words : Nat → InStream → List Str
  | 0, _ => []
  | fuel + 1, stream =>
    match word stream with
    | none => []
    | some (strValue, stream) => strValue :: words fuel stream

def setCapability (capabilities : CapSet) (name : Str) : CapSet :=
  match parseCapabilityName name with
  | none => capabilities
  | some cap => capabilities ||| (1 <<< cap)

/-- The branch for the tag "trigger". The positions that are found are those of the colon and
of the equals sign themselves. -/
def parseTrigger (strValue : Str) (params : SaceEventParams) : SaceEventParams :=
  if (str "property").isPrefixOf strValue then
    let fromColon := strValue.dropWhile (· ≠ 58)
    let fromEqual := fromColon.dropWhile (· ≠ 61)
    if fromColon = [] || fromEqual = [] then params
    else { params with
      propertyKey := params.propertyKey ++ [fromColon.takeWhile (· ≠ 61)]
      propertyValue := params.propertyValue ++ [fromEqual] }
  else if (str "boot").isPrefixOf strValue then { params with boot := true }
  else params

def parseServiceAttr (line : Str) (params : SaceEventParams) : SaceEventParams :=
  match word { rest := line } with
  | none => params
  | some (tag, stream) =>
    if stream.eof then params
    else if tag = str "user" then
      match word stream with
      | none => params
      | some (uid, _) => { params with uid }
    else if tag = str "group" then
      match word stream with
      | none => params
      | some (gid, _) => { params with gid }
    else if tag = str "seclabel" then
      match word stream with
      | none => params
      | some (seclabel, _) => { params with seclabel }
    else if tag = str "capability" then
      { params with
        capabilities := (words line.length stream).foldl setCapability params.capabilities }
    else if tag = str "groups" then
      { params with suppGids := params.suppGids ++ words line.length stream }
    else if tag = str "trigger" then
      match word stream with
      | none => params
      | some (strValue, _) => parseTrigger strValue params
    else if tag = str "rlimits" then
      match word stream with
      | none => params
      | some (rlmName, stream) =>
        let (rlmHard, stream) := stream.extract storeInt 0 0
        let (rlmSoft, stream) := stream.extract storeInt 0 0
        if stream.fail then params
        else { params with
          rlimits := params.rlimits ++ [toDecimal (parseRlimitsName rlmName) ++
            toDecimal rlmHard ++ toDecimal rlmSoft] }
    else params

/-- `parse_command` and its parameters, in the state PARSE_SERVICE. -/
structure Parsing where
  cmd : SaceCommand
  params : SaceEventParams := {}

structure IniState where
  parsing : Option Parsing := none
  events : Table Str EventService := ∅

def finishEvent (s : IniState) : Option IniState :=
  match s.parsing with
  | none => some s
  | some p =>
    (parseEventParams p.params).map fun triggers =>
      { events := s.events.insertIfNew p.cmd.name
          ⟨triggers, { p.cmd with commandParams := some (.event p.params) }⟩ }

def parseHeader (line : Str) : Option (Str × Str) :=
  match nextToken line with
  | none => none
  | some (serviceName, line) => if line = [] then none else some (serviceName, line)

/-- `parse_event_from_ini`; `fresh` is the newly constructed command. None stands for a read
past the end of the property values. -/
def parseEventFromIni (fresh : SaceCommand) (s : IniState) (lineToken : Str) : Option IniState :=
  let line := trimSpaceChar lineToken
  if line = [] ∨ line = [0] then finishEvent s
  else if line.head? = some 35 then some s
  else match s.parsing with
    | some p => some { s with parsing := some { p with params := parseServiceAttr line p.params } }
    | none =>
      match parseHeader line with
      | none => some s
      | some (name, command) =>
        some { s with parsing := some { cmd := { fresh with name, command } } }

def parseLines (fresh : SaceCommand) : List Str → IniState → Option IniState
  | [], s => some s
  | line :: rest, s => do
    let s ← parseEventFromIni fresh s line
    parseLines fresh rest s

def readIniFile (fresh : SaceCommand) (text : Str) : Option (Table Str EventService) := do
  let s ← parseLines fresh (readLines [] text) {}
  let s ← parseEventFromIni fresh s []
  some s.events

end SaceEvent
end Sace
