import Sace.Android
import Sace.Normal.Excutor
import Sace.Service.Steps

/-! SaceManager's entry points that start a child, and the parameters that the child is
given on the server. -/
namespace Sace

namespace SaceManager

def cmdParam : ParamsObject :=
  .command { uid := str "0", gid := str "0", seclabel := str "u:r:su:s0" }

def serviceParam : ParamsObject :=
  .event { uid := str "1000", gid := str "1000", seclabel := str "u:r:system_server:s0" }

/-- The choice that runCommand and checkService make: a parameter that is given is
replaced by the default, and one that is not given stays absent. -/
def chosenParam (param : Option ParamsObject) (default_ : ParamsObject) : Option ParamsObject :=
  if param.isNone then param else some default_

def runCommand (own : Str) (sequence : UInt32) (cmd : Str) (param : Option ParamsObject)
    (in_ : Bool) : SaceCommand :=
  { SaceCommand.init own sequence with
    type := .normal
    subType := SaceNormalCommandType.start.byte
    command := cmd
    subFlags := if in_ then SaceCommandFlags.input.byte else SaceCommandFlags.output.byte
    commandParams := chosenParam param cmdParam }

def checkServiceCmd (own : Str) (sequence : UInt32) (name cmd : Str)
    (param : Option ParamsObject) : SaceCommand :=
  { SaceCommand.init own sequence with
    type := .service
    subType := SaceServiceCommandType.start.byte
    subFlags := SaceServiceFlags.normal.byte
    name
    command := cmd
    commandParams := chosenParam param serviceParam }

end SaceManager

open SaceManager

variable (F : ParcelFormat)

def runOnServer (fresh : SaceCommand) (bytes : Bytes) (climsg : SaceWriter × SaceClientIdentifier)
    (s : SaceNormalExcutor) (env : ParseEnv) (answers : PopenAnswers)
    (wait : Int → List WaitAnswer) : Exec SaceNormalExcutor := do
  let saceCmd ← fresh.readFromParcel F bytes
  s.excuteNormal ⟨.normal, saceCmd, climsg.1, climsg.2⟩ env answers wait

def serveOnServer (fresh : SaceCommand) (bytes : Bytes)
    (climsg : SaceWriter × SaceClientIdentifier) (s : SaceServiceExcutor) (env : ParseEnv)
    (answers : StartAnswers) (wait : Nat → WaitAnswer) : Exec SaceServiceExcutor := do
  let saceCmd ← fresh.readFromParcel F bytes
  s.excuteNormal ⟨.service, saceCmd, climsg.1, climsg.2⟩ env answers wait

def children (trace : List Effect) : List (Option CommandParams) :=
  trace.filterMap fun
    | .spawn _ params => some params
    | _ => none

theorem mem_children {trace : List Effect} {params : Option CommandParams} :
    params ∈ children trace ↔ ∃ pid, .spawn pid params ∈ trace := by
  simp only [children, List.mem_filterMap]
  constructor
  · rintro ⟨effect, member, found⟩
    cases effect <;> simp only [reduceCtorEq, Option.some.injEq] at found
    subst found
    exact ⟨_, member⟩
  · rintro ⟨pid, member⟩
    exact ⟨_, member, rfl⟩

/-! ### The children of one message -/

theorem start_children {s : SaceNormalExcutor} {msg : SaceReaderMessage} {env : ParseEnv}
    {answers : PopenAnswers} {params : Option CommandParams}
    (started : params ∈ children (s.startNormalCmd msg env answers).trace) :
    params = msg.msgCmd.commandParams.map fun p => parseCommandParams env p.base := by
  unfold SaceNormalExcutor.startNormalCmd at started
  by_cases failed : answers.fd < 0
  · simp [failed, children] at started
  · simpa [failed, children] using started

theorem request_children {s : SaceServiceExcutor} {msg : SaceReaderMessage} {env : ParseEnv}
    {answers : StartAnswers} {params : Option CommandParams}
    (kind : msg.msgCmd.serviceCmdType = .start)
    (started : params ∈ children (s.request msg env answers).trace) :
    params = msg.msgCmd.commandParams.map fun p => parseCommandParams env p.base := by
  simp only [SaceServiceExcutor.request, kind, if_true] at started
  by_cases taken : msg.msgCmd.name ∈ s.mNameService
  · simp [SaceServiceExcutor.startService_taken taken, children] at started
  · rw [SaceServiceExcutor.startService_free taken] at started
    by_cases fits : msg.msgCmd.command.length ≤ CMD_BUFFER_LEN
    · rw [memcpyString_of_le fits, Traced.bind_of_ok rfl] at started
      by_cases forked : 0 < answers.fork
      · simpa [forked, children] using started
      · simp [forked, children] at started
    · rw [memcpyString_of_lt (Nat.lt_of_not_le fits), Traced.bind_of_error rfl] at started
      simp [children] at started

theorem monitor_children (s : SaceServiceExcutor) (wait : Nat → WaitAnswer) :
    children (s.monitorServiceStatus wait).trace = [] := by
  apply List.eq_nil_iff_forall_not_mem.mpr
  intro params started
  obtain ⟨pid, member⟩ := mem_children.mp started
  obtain ⟨_, _, _, _, _, _, _, same⟩ := SaceServiceExcutor.monitor_sends member
  cases same

theorem excuteNormal_children {s : SaceServiceExcutor} {msg : SaceReaderMessage} {env : ParseEnv}
    {answers : StartAnswers} {wait : Nat → WaitAnswer} {params : Option CommandParams}
    (kind : msg.msgCmd.serviceCmdType = .start)
    (started : params ∈ children (s.excuteNormal msg env answers wait).trace) :
    params = msg.msgCmd.commandParams.map fun p => parseCommandParams env p.base := by
  obtain ⟨pid, member⟩ := mem_children.mp started
  simp only [SaceServiceExcutor.excuteNormal, Traced.mem_bind, Traced.emit_then,
    List.mem_cons, reduceCtorEq, false_or] at member
  rcases member with here | ⟨out, _, later⟩
  · exact request_children kind (mem_children.mpr ⟨pid, here⟩)
  · have none := monitor_children out.1 wait
    have : params ∈ children (out.1.monitorServiceStatus wait).trace :=
      mem_children.mpr ⟨pid, later⟩
    rw [none] at this
    cases this

/-! ### From the manager to the child -/

theorem cmdParam_text : cmdParam.Text F := by
  have ascii := F.ascii_text
  exact ⟨ascii _ (by decide +kernel) (by decide +kernel),
    ascii _ (by decide +kernel) (by decide +kernel),
    ascii _ (by decide +kernel) (by decide +kernel), by simp, by simp⟩

theorem serviceParam_text : serviceParam.Text F := by
  have ascii := F.ascii_text
  exact ⟨⟨ascii _ (by decide +kernel) (by decide +kernel),
    ascii _ (by decide +kernel) (by decide +kernel),
    ascii _ (by decide +kernel) (by decide +kernel), by simp, by simp⟩, by simp, by simp⟩

theorem chosenParam_text {param : Option ParamsObject} {default_ : ParamsObject}
    (text : default_.Text F) (object : ParamsObject)
    (chosen : chosenParam param default_ = some object) : object.Text F := by
  cases param with
  | none => cases chosen
  | some _ =>
    cases Option.some.inj chosen
    exact text

theorem paramsOnWire_base (type : SaceCommandType) (object : ParamsObject) :
    (SaceCommand.paramsOnWire type object).base = object.base := by
  cases object with
  | command params => rfl
  | event params =>
    simp only [SaceCommand.paramsOnWire]
    split <;> rfl

theorem runCommand_valid {own : Str} {sequence : UInt32} {cmd : Str}
    {param : Option ParamsObject} {in_ : Bool} (name : F.text own) (command : F.text cmd) :
    (runCommand own sequence cmd param in_).WellFormed F where
  type := rfl
  name := name
  command := command
  extraLen := Nat.zero_le _
  params := chosenParam_text F (cmdParam_text F)
  eventParams kind := absurd kind (by decide : SaceCommandType.normal ≠ .event)

theorem checkService_valid {own : Str} {sequence : UInt32} {service cmd : Str}
    {param : Option ParamsObject} (name : F.text service) (command : F.text cmd) :
    (checkServiceCmd own sequence service cmd param).WellFormed F where
  type := rfl
  name := name
  command := command
  extraLen := Nat.zero_le _
  params := chosenParam_text F (serviceParam_text F)
  eventParams kind := absurd kind (by decide : SaceCommandType.service ≠ .event)

theorem runCommand_children {own cmd : Str} {sequence : UInt32} {param : Option ParamsObject}
    {in_ : Bool} {fresh : SaceCommand} {climsg : SaceWriter × SaceClientIdentifier}
    {s : SaceNormalExcutor} {env : ParseEnv} {answers : PopenAnswers}
    {wait : Int → List WaitAnswer} {params : Option CommandParams}
    (valid : (runCommand own sequence cmd param in_).WellFormed F)
    (started : params ∈ children (runOnServer F fresh
      ((runCommand own sequence cmd param in_).encode F) climsg s env answers wait).trace) :
    params = (chosenParam param cmdParam).map fun p => parseCommandParams env p.base := by
  rw [runOnServer, SaceCommand.readFromParcel_encode F valid, Traced.bind_of_ok rfl] at started
  have given : params = ((runCommand own sequence cmd param in_).onWire F).commandParams.map
      fun p => parseCommandParams env p.base := start_children started
  rw [given]
  simp only [SaceCommand.onWire, runCommand, Option.map_map, Function.comp_def, paramsOnWire_base]

theorem checkService_children {own service cmd : Str} {sequence : UInt32}
    {param : Option ParamsObject} {fresh : SaceCommand}
    {climsg : SaceWriter × SaceClientIdentifier} {s : SaceServiceExcutor} {env : ParseEnv}
    {answers : StartAnswers} {wait : Nat → WaitAnswer} {params : Option CommandParams}
    (valid : (checkServiceCmd own sequence service cmd param).WellFormed F)
    (started : params ∈ children
      (serveOnServer F fresh ((checkServiceCmd own sequence service cmd param).encode F) climsg s
        env answers wait).trace) :
    params = (chosenParam param serviceParam).map fun p => parseCommandParams env p.base := by
  rw [serveOnServer, SaceCommand.readFromParcel_encode F valid, Traced.bind_of_ok rfl] at started
  have given : params =
      ((checkServiceCmd own sequence service cmd param).onWire F).commandParams.map
        fun p => parseCommandParams env p.base := excuteNormal_children rfl started
  rw [given]
  simp only [SaceCommand.onWire, checkServiceCmd, Option.map_map, Function.comp_def,
    paramsOnWire_base]

theorem chosenParam_wanted {param : Option ParamsObject} {default_ : ParamsObject}
    {env : ParseEnv} :
    ((chosenParam param default_).map fun p => parseCommandParams env p.base) =
        some (parseCommandParams env (param.getD default_).base) ↔
      ∃ p, param = some p ∧
        parseCommandParams env p.base = parseCommandParams env default_.base := by
  cases param with
  | none => simp [chosenParam]
  | some p => simp [chosenParam, eq_comm]

/-- A child gets the caller's parameters exactly when they are given and parse to what the
default parses to. -/
theorem child_params_iff {own : Str} (ownText : F.text own) {cmd : Str} (cmdText : F.text cmd)
    (sequence : UInt32) (param : Option ParamsObject) (fresh : SaceCommand)
    (climsg : SaceWriter × SaceClientIdentifier) (env : ParseEnv) :
    (∀ in_ s answers wait, ∀ params ∈ children (runOnServer F fresh
        ((runCommand own sequence cmd param in_).encode F) climsg s env answers wait).trace,
      (params = some (parseCommandParams env (param.getD cmdParam).base) ↔
        ∃ p, param = some p ∧
          parseCommandParams env p.base = parseCommandParams env cmdParam.base)) ∧
    ∀ name, F.text name → ∀ s answers wait, ∀ params ∈ children (serveOnServer F fresh
        ((checkServiceCmd own sequence name cmd param).encode F) climsg s env answers wait).trace,
      (params = some (parseCommandParams env (param.getD serviceParam).base) ↔
        ∃ p, param = some p ∧
          parseCommandParams env p.base = parseCommandParams env serviceParam.base) := by
  constructor
  · intro in_ s answers wait params started
    rw [runCommand_children F (runCommand_valid F ownText cmdText) started]
    exact chosenParam_wanted
  · intro name nameText s answers wait params started
    rw [checkService_children F (checkService_valid F nameText cmdText) started]
    exact chosenParam_wanted

/-! A caller asks for uid 2000. -/

def shellParam : ParamsObject := .command { uid := str "2000", gid := str "2000" }

def systemClient : SaceWriter × SaceClientIdentifier := (⟨.socket 5, 200⟩, ⟨1000, 200⟩)

/-- The server's side of runCommand("id", param), with a process that can be had. -/
def runId (param : Option ParamsObject) : Exec SaceNormalExcutor :=
  runOnServer Android.parcel (.init (str "9:9") 1)
    ((runCommand (str "200:200") 7 (str "id") param true).encode Android.parcel) systemClient {}
    .empty ⟨16, 8, 300⟩ fun _ => []

theorem runId_valid (param : Option ParamsObject) :
    (runCommand (str "200:200") 7 (str "id") param true).WellFormed Android.parcel :=
  runCommand_valid _ (show Android.Ascii _ by decide +kernel)
    (show Android.Ascii _ by decide +kernel)

theorem runId_starts (param : Option ParamsObject) :
    ∃ params, params ∈ children (runId param).trace := by
  rw [runId, runOnServer, SaceCommand.readFromParcel_encode _ (runId_valid param),
    Traced.bind_of_ok rfl]
  exact ⟨_, List.mem_singleton.mpr rfl⟩

theorem default_params_kept :
    ∃ params ∈ children (runId (some cmdParam)).trace,
      params = some (parseCommandParams .empty cmdParam.base) := by
  obtain ⟨params, started⟩ := runId_starts (some cmdParam)
  have both := child_params_iff Android.parcel
    (show Android.Ascii (str "200:200") by decide +kernel)
    (show Android.Ascii (str "id") by decide +kernel) 7
    (some cmdParam) (.init (str "9:9") 1) systemClient .empty
  exact ⟨params, started, (both.1 true {} _ _ params started).mpr ⟨cmdParam, rfl, rfl⟩⟩

/-- The child runs as root, although the caller asked for another uid. -/
theorem shell_params_lost : ¬ ∀ (F : ParcelFormat) (own cmd : Str), F.text own → F.text cmd →
    ∀ (sequence : UInt32) (param : Option ParamsObject) (fresh : SaceCommand)
      (climsg : SaceWriter × SaceClientIdentifier) (env : ParseEnv),
      (∀ in_ s answers wait, ∀ params ∈ children (runOnServer F fresh
          ((runCommand own sequence cmd param in_).encode F) climsg s env answers wait).trace,
        params = some (parseCommandParams env (param.getD cmdParam).base)) ∧
      ∀ name, F.text name → ∀ s answers wait, ∀ params ∈ children (serveOnServer F fresh
          ((checkServiceCmd own sequence name cmd param).encode F) climsg s env answers wait).trace,
        params = some (parseCommandParams env (param.getD serviceParam).base) := by
  intro carried
  obtain ⟨params, started⟩ := runId_starts (some shellParam)
  have wanted := (carried Android.parcel (str "200:200") (str "id")
    (show Android.Ascii _ by decide +kernel) (show Android.Ascii _ by decide +kernel) 7
    (some shellParam) (.init (str "9:9") 1) systemClient .empty).1 true {} _ _ params started
  have given := runCommand_children _ (runId_valid (some shellParam)) started
  rw [wanted] at given
  exact absurd (congrArg (Option.map CommandParams.uid) given) (by decide)

end Sace
