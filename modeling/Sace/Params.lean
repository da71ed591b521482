import Sace.Library.Bytes

/-! SaceParams: the user friendly parameters that travel with a command and what a
child is given after parsing them. -/
namespace Sace

/-- A std::string: any bytes, counted as `size()` counts them. -/
abbrev Str := Bytes

abbrev str (s : String) : Str := Bytes.text s

def AID_ROOT : UInt32 := 0
def AID_SYSTEM : UInt32 := 1000
def DEF_UID : UInt32 := AID_SYSTEM
def DEF_GID : UInt32 := AID_SYSTEM

/-- The last capability of the server's capability table is AUDIT_READ. -/
def CAP_LAST_CAP : Nat := 37

abbrev CapSet := BitVec (CAP_LAST_CAP + 1)

structure SaceCommandParams where
  uid : Str := []
  gid : Str := []
  suppGids : List Str := []
  rlimits : List Str := []
  seclabel : Str := []
  capabilities : CapSet := 0
  deriving DecidableEq

/-- SaceEventParams extends SaceCommandParams; its constructor sets `boot`. -/
structure SaceEventParams extends SaceCommandParams where
  propertyKey : List Str := []
  propertyValue : List Str := []
  boot : Bool := true
  deriving DecidableEq

/-- What a `shared_ptr<SaceCommandParams>` points to, its dynamic class included. -/
inductive ParamsObject where
  | command (params : SaceCommandParams)
  | event (params : SaceEventParams)
  deriving DecidableEq

def ParamsObject.base : ParamsObject → SaceCommandParams
  | .command params => params
  | .event params => params.toSaceCommandParams

structure Rlimit where
  resource : Int
  cur : UInt64
  max : UInt64
  deriving DecidableEq

structure CommandParams where
  uid : UInt32
  gid : UInt32
  suppGids : List UInt32
  rlimits : List Rlimit
  seclabel : Str
  capabilities : CapSet
  deriving DecidableEq

/-! Numbers in text, as strtoul and the stream extraction operators read them. -/

def isSpace (c : UInt8) : Bool := c = 32 || (9 ≤ c && c ≤ 13)
def isDigit (c : UInt8) : Bool := 48 ≤ c && c ≤ 57
def isAlpha (c : UInt8) : Bool := (65 ≤ c && c ≤ 90) || (97 ≤ c && c ≤ 122)

def decimal (digits : Str) : Nat := digits.foldl (fun n c => 10 * n + (c.toNat - 48)) 0

def splitSign : Str → Bool × Str
  | 45 :: rest => (true, rest)
  | 43 :: rest => (false, rest)
  | s => (false, s)

/-- `strtoul(s, nullptr, 10)`: the value and whether errno was set. Without digits
the value is 0 and errno stays; out of range it is ULONG_MAX with ERANGE. -/
def strtoul (s : Str) : UInt64 × Bool :=
  let (negative, rest) := splitSign ((Bytes.cString s).dropWhile isSpace)
  let n := decimal (rest.takeWhile isDigit)
  if 2 ^ 64 ≤ n then (UInt64.ofNat (2 ^ 64 - 1), true)
  else (if negative then 0 - UInt64.ofNat n else UInt64.ofNat n, false)

/-- A stringstream that is read with `>>`: the rest of its text and its state bits. -/
structure InStream where
  rest : Str
  eof : Bool := false
  fail : Bool := false

/-- What an integer type stores for a sign and a decimal number, and whether it was in range. -/
def storeInt (negative : Bool) (n : Nat) : Int × Bool :=
  if negative then if n ≤ 2 ^ 31 then (-n, true) else (-2 ^ 31, false)
  else if n < 2 ^ 31 then (n, true) else (2 ^ 31 - 1, false)

/-- `rlim_t` is unsigned: a negative numeral wraps around. -/
def storeRlim (negative : Bool) (n : Nat) : UInt64 × Bool :=
  if 2 ^ 64 ≤ n then (UInt64.ofNat (2 ^ 64 - 1), false)
  else (if negative then 0 - UInt64.ofNat n else UInt64.ofNat n, true)

/-- `stream >> x`. The old value stays when the stream is not good before the extraction
or holds nothing but white space, and zero is stored when no digits are found. -/
def InStream.extract {A : Type} (store : Bool → Nat → A × Bool) (zero old : A)
    (stream : InStream) : A × InStream :=
  if stream.eof || stream.fail then (old, { stream with fail := true })
  else
    let skipped := stream.rest.dropWhile isSpace
    if skipped = [] then (old, { rest := [], eof := true, fail := true })
    else
      let (negative, unsigned) := splitSign skipped
      let digits := unsigned.takeWhile isDigit
      let rest := unsigned.dropWhile isDigit
      if digits = [] then (zero, { rest, eof := rest = [], fail := true })
      else
        let (value, inRange) := store negative (decimal digits)
        (value, { rest, eof := rest = [], fail := !inRange })

/-- What the server process supplies to a parse: the password database, and the
contents of locals that the code declares without a value. -/
structure ParseEnv where
  getpwnam : Str → Option UInt32
  suppGid : UInt32
  resource : Int
  rlimCur : UInt64
  rlimMax : UInt64

/-- No user is known, and the locals happen to be zero. -/
def ParseEnv.empty : ParseEnv :=
  { getpwnam := fun _ => none, suppGid := 0, resource := 0, rlimCur := 0, rlimMax := 0 }

def decodeUid (env : ParseEnv) (uidStr : Str) (uid : UInt32) : Bool × UInt32 :=
  match uidStr with
  | [] => (false, uid)
  | c :: _ =>
    if isAlpha c then
      match env.getpwnam (Bytes.cString uidStr) with
      | none => (false, uid)
      | some pwUid => (true, pwUid)
    else
      let (value, errno) := strtoul uidStr
      (!errno, value.toUInt32)

/-- The loop over `supp_gids`. The list gets an entry when the decoding fails; `suppGid`
lives outside the loop and keeps its value from one turn to the next. -/
def parseSuppGids (env : ParseEnv) : List Str → UInt32 → List UInt32
  | [], _ => []
  | g :: rest, suppGid =>
    let (decoded, suppGid) := decodeUid env g suppGid
    if decoded then parseSuppGids env rest suppGid
    else suppGid :: parseSuppGids env rest suppGid

/-- The loop over `rlimits`, with the locals that outlive a turn. -/
def parseRlimits : List Str → Int → UInt64 → UInt64 → List Rlimit
  | [], _, _, _ => []
  | rls :: rest, resource, cur, max =>
    let (resource, stream) := InStream.extract storeInt 0 resource { rest := rls }
    let (cur, stream) := stream.extract storeRlim 0 cur
    let (max, _) := stream.extract storeRlim 0 max
    ⟨resource, cur, max⟩ :: parseRlimits rest resource cur max

def parseCommandParams (env : ParseEnv) (params : SaceCommandParams) : CommandParams :=
  let (uidOk, uid) := decodeUid env params.uid 0
  let (gidOk, gid) := decodeUid env params.gid 0
  { seclabel := params.seclabel
    capabilities := params.capabilities
    uid := if uidOk then uid else DEF_UID
    gid := if gidOk then gid else DEF_GID
    suppGids := parseSuppGids env params.suppGids env.suppGid
    rlimits := parseRlimits params.rlimits env.resource env.rlimCur env.rlimMax }

/-! Triggers of events. -/

inductive Trigger where
  | property (name value lastValue : Str)
  | boot (hasTriggered : Bool)
  deriving DecidableEq

/-- One call of `triggered()`: its answer and the trigger afterwards. `properties` is what
`property_get` stores, the empty string for a property that is not set. -/
def Trigger.triggered (properties : Str → Str) : Trigger → Bool × Trigger
  | .property name value lastValue =>
    let current := Bytes.cString (properties (Bytes.cString name))
    if current = [] then (false, .property name value lastValue)
    else if Bytes.cString value = current then
      if lastValue = current then (false, .property name value lastValue)
      else (true, .property name value current)
    else (false, .property name value lastValue)
  | .boot hasTriggered => (!hasTriggered, .boot true)

/-- `parseEventParams`: a trigger for each property pair, then the boot trigger. The loop
runs over the keys, and a key without a value is a read past the end of the values. -/
def parseEventParams (params : SaceEventParams) : Option (List Trigger) :=
  if params.propertyValue.length < params.propertyKey.length then none
  else some ((params.propertyKey.zip params.propertyValue).map (fun kv => .property kv.1 kv.2 []) ++
    if params.boot then [.boot false] else [])

end Sace
