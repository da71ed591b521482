import Sace.Reader.Accepts
import Sace.Reader.Reads
import Sace.Server.Steps

/-! recv_data_or_connection as a whole: select, and then a new connection or one read from every
client that is ready. To the rest of the daemon a call is the connection, the commands and the
hangups that it has found, one after the other. -/
namespace Sace

/-- `mSockFd` is the listening socket, -1 before there is one. -/
structure SaceSocketReader where
  mSockFd : Int := -1
  mClients : List SaceSocketReader.ClientSocket

namespace SaceSocketReader

structure SetupAnswers where
  socketId : Int
  listen : Int

/-- What the calls of one pass answer. `isSet` is what select leaves of its set and `i` what the
memory of the index holds. A read without bytes is one at the end of the stream or a failed one;
the others are given at most MAX_SOCKET_BUF. -/
structure PassAnswers where
  select : Int
  isSet : Int → Bool
  fstat : Int → Int
  setup : SetupAnswers
  clientFd : Int
  cred : SaceClientIdentifier
  i : Int32
  read : Nat → Bytes
  saceCmd : Nat → SaceCommand

/-- The socket is kept when the new one cannot be had; one that listen refuses stays open. -/
def setupSocket (r : SaceSocketReader) (answers : SetupAnswers) : SaceSocketReader × Int :=
  if answers.socketId < 0 then (r, 1)
  else if answers.listen < 0 then (r, 1)
  else ({ r with mSockFd := answers.socketId }, 0)

@[simp] theorem setupSocket_mClients (r : SaceSocketReader) (answers : SetupAnswers) :
    (r.setupSocket answers).1.mClients = r.mClients := by
  unfold setupSocket
  split
  · rfl
  · split <;> rfl

def watched (r : SaceSocketReader) : List Int :=
  (if 0 ≤ r.mSockFd then [r.mSockFd] else []) ++ (r.mClients.map (·.fd)).filter fun fd => 0 < fd

def isReady (fds : List Int) (answers : PassAnswers) (fd : Int) : Bool :=
  fd ∈ fds && answers.isSet fd

/-- A loop over the slots. `body` returns the slot, and the descriptors that it has closed. -/
def eachClient (body : Nat → ClientSocket → Exec (ClientSocket × List Int)) :
    Nat → List ClientSocket → Exec (List ClientSocket × List Int)
  | _, [] => return ([], [])
  | i, climsg :: rest => do
    let (climsg, closed) ← body i climsg
    let (rest, later) ← eachClient body (i + 1) rest
    return (climsg :: rest, closed ++ later)

def closeClient (climsg : ClientSocket) : Exec (ClientSocket × List Int) := do
  handleSocketClose { climsg with fd := -1 }
  return ({ climsg with fd := -1 }, [climsg.fd])

/-- After a failed select: a client whose descriptor is not open any more. -/
def dropClient (answers : PassAnswers) (_ : Nat) (climsg : ClientSocket) :
    Exec (ClientSocket × List Int) :=
  if 0 < climsg.fd ∧ answers.fstat climsg.fd < 0 then closeClient climsg
  else return (climsg, [])

def readClient (F : ParcelFormat) (fds : List Int) (answers : PassAnswers) (i : Nat)
    (climsg : ClientSocket) : Exec (ClientSocket × List Int) :=
  if climsg.fd < 0 ∨ isReady fds answers climsg.fd = false then return (climsg, [])
  else if answers.read i = [] then closeClient climsg
  else do
    recvData F climsg (answers.saceCmd i) (answers.read i)
    return (climsg, [])

/-- What a pass leaves and whether it returns true. `reopened` is a new listening socket. -/
structure Received where
  reader : SaceSocketReader
  reopened : Bool := false
  accepted : Option (Int × SaceClientIdentifier) := none
  closed : List Int := []
  again : Bool := true

/-- The rest of recv_data_or_connection, once select has been given the set `fds`. -/
def recvSelected (F : ParcelFormat) (r : SaceSocketReader) (fds : List Int)
    (answers : PassAnswers) : Exec Received :=
  if answers.select = 0 then return { reader := r }
  else if answers.select < 0 then do
    let (mClients, closed) ← eachClient (dropClient answers) 0 r.mClients
    let r := { r with mClients }
    if answers.fstat r.mSockFd < 0 then
      let (r, failed) := r.setupSocket answers.setup
      return { reader := r, reopened := failed = 0, closed }
    else return { reader := r, closed }
  else if isReady fds answers r.mSockFd then
    if answers.clientFd < 0 then return { reader := r }
    else
      let after := recvConnection r.mClients answers.clientFd answers.cred answers.i
      return { reader := { r with mClients := after.mClients }
               accepted := some (answers.clientFd, answers.cred)
               closed := after.closed }
  else do
    let (mClients, closed) ← eachClient (readClient F fds answers) 0 r.mClients
    return { reader := { r with mClients }, closed }

def recvDataOrConnection (F : ParcelFormat) (r : SaceSocketReader) (answers : PassAnswers) :
    Exec Received :=
  if r.watched = [] then return { reader := r, again := false }
  else recvSelected F r r.watched answers

end SaceSocketReader

/-! ### The daemon with its reader -/

/-- What is seen outside of the thread that does it. -/
def leaving (trace : List Effect) : List Effect :=
  trace.filter fun
    | .copy _ _ => false
    | _ => true

structure LoggedSaced where
  daemon : Saced
  log : List Effect := []

namespace LoggedSaced

def step (h : LoggedSaced) (input : Saced.Input) : Option LoggedSaced :=
  (h.daemon.turn input).value.map fun server =>
    { daemon := (h.daemon.prepare input).deliver server (h.daemon.turn input).trace
      log := h.log ++ (h.daemon.turn input).trace }

def Provided (h : LoggedSaced) (input : Saced.Input) : Prop := h.daemon.Provided input

end LoggedSaced

structure Listening extends LoggedSaced where
  mSockFd : Int := -1

namespace Listening
open SaceSocketReader

/-- The calls of recv_data_or_connection stand for the steps of the reader. -/
inductive Input where
  | pass (answers : PassAnswers)
  | other (input : Saced.Input)

def others : Saced.Input → Bool
  | .accept .. | .command .. | .hangup _ => false
  | _ => true

def reader (l : Listening) : SaceSocketReader := ⟨l.mSockFd, l.daemon.mClients⟩

def connections (received : Received) (conns : Table Int SaceClientIdentifier) :
    Table Int SaceClientIdentifier :=
  received.closed.foldl (fun conns fd => conns.erase fd) <|
    match received.accepted with
    | some (fd, client) => conns.insert fd client
    | none => conns

def receive (d : Saced) (received : Received) (trace : List Effect) : Saced :=
  { d with
    mClients := received.reader.mClients
    conns := connections received d.conns }.deliver d.server trace

variable (F : ParcelFormat)

def step (l : Listening) : Input → Option Listening
  | .pass answers =>
    let pass := recvDataOrConnection F l.reader answers
    pass.value.map fun received =>
      { daemon := receive l.daemon received pass.trace
        log := l.log ++ pass.trace
        mSockFd := received.reader.mSockFd }
  | .other input =>
    if others input then (l.toLoggedSaced.step input).map fun h => { l with toLoggedSaced := h }
    else none

/-- The descriptor of a new connection is positive and belongs to no other connection. -/
def Provided (l : Listening) : Input → Prop
  | .pass answers => 0 ≤ answers.clientFd → 0 < answers.clientFd ∧ answers.clientFd ∉ l.daemon.conns
  | .other input => l.daemon.Provided input

instance (l : Listening) : (input : Input) → Decidable (l.Provided input)
  | .pass answers => inferInstanceAs (Decidable (0 ≤ answers.clientFd →
      0 < answers.clientFd ∧ answers.clientFd ∉ l.daemon.conns))
  | .other input => inferInstanceAs (Decidable (l.daemon.Provided input))

def start (event : SaceEvent) (mSockFd : Int) : Listening :=
  { daemon := Saced.start event, mSockFd }

end Listening

/-! ### A pass as steps of the daemon -/

section Passes
open SaceSocketReader

/-- Some steps of the daemon have left these slots, have closed the descriptors and have done
what is seen of the trace. -/
structure Heard (h : LoggedSaced) (mClients : List ClientSocket) (closed : List Int)
    (trace : List Effect) (t : LoggedSaced) : Prop where
  reached : Runs.Reached LoggedSaced.step LoggedSaced.Provided h t
  daemon : t.daemon = { h.daemon with
    mClients
    conns := closed.foldl (fun conns fd => conns.erase fd) h.daemon.conns }.deliver
      h.daemon.server trace
  log : leaving t.log = leaving h.log ++ leaving trace

theorem Heard.nothing (h : LoggedSaced) : Heard h h.daemon.mClients [] [] h where
  reached := .start
  daemon := by simp [Saced.deliver, posted, piped]
  log := by simp [leaving]

theorem Heard.trans {h t u : LoggedSaced} {mClients mClients' : List ClientSocket}
    {closed closed' : List Int} {trace trace' : List Effect}
    (first : Heard h mClients closed trace t) (second : Heard t mClients' closed' trace' u) :
    Heard h mClients' (closed ++ closed') (trace ++ trace') u where
  reached := first.reached.trans second.reached
  daemon := by
    rw [second.daemon, first.daemon]
    simp [Saced.deliver, List.foldl_append, posted_append, piped_append]
  log := by
    rw [second.log, first.log, leaving, leaving, leaving, leaving, List.filter_append]
    simp

/-- Copying is not seen. -/
theorem Heard.copied (h : LoggedSaced) {trace : List Effect}
    (copies : ∀ effect ∈ trace, ∃ size capacity, effect = .copy size capacity) :
    Heard h h.daemon.mClients [] trace h := by
  have posted : posted trace = [] := List.filterMap_eq_nil_iff.mpr fun effect member => by
    obtain ⟨size, capacity, rfl⟩ := copies effect member
    rfl
  have piped : piped trace = [] := List.filterMap_eq_nil_iff.mpr fun effect member => by
    obtain ⟨size, capacity, rfl⟩ := copies effect member
    rfl
  have left : leaving trace = [] := List.filter_eq_nil_iff.mpr fun effect member => by
    obtain ⟨size, capacity, rfl⟩ := copies effect member
    simp
  refine ⟨.start, ?_, ?_⟩
  · simp [Saced.deliver, posted, piped]
  · rw [left, List.append_nil]

theorem Heard.single {h : LoggedSaced} (input : Saced.Input) {mClients : List ClientSocket}
    {closed : List Int} {trace : List Effect} (provided : h.daemon.Provided input)
    (turn : h.daemon.turn input = ⟨trace, .ok h.daemon.server⟩)
    (prepared : h.daemon.prepare input = { h.daemon with
      mClients
      conns := closed.foldl (fun conns fd => conns.erase fd) h.daemon.conns }) :
    ∃ t, Heard h mClients closed trace t := by
  refine ⟨⟨(h.daemon.prepare input).deliver h.daemon.server trace, h.log ++ trace⟩,
    .next .start provided ?_, by rw [prepared], List.filter_append ..⟩
  simp only [LoggedSaced.step, turn]
  rfl

theorem client_at {d : Saced} {before rest : List ClientSocket} {climsg : ClientSocket}
    (slots : d.mClients = before ++ climsg :: rest) (opened : 0 ≤ climsg.fd) :
    d.client before.length = some climsg := by
  simp [Saced.client, slots, opened]

theorem closeClient_heard {h : LoggedSaced} {before rest : List ClientSocket}
    {climsg : ClientSocket} (slots : h.daemon.mClients = before ++ climsg :: rest)
    (opened : 0 ≤ climsg.fd) :
    ∃ t, Heard h (before ++ { climsg with fd := -1 } :: rest) [climsg.fd]
      (closeClient climsg).trace t := by
  have here := client_at slots opened
  refine Heard.single (.hangup before.length) trivial ?_ ?_
  · simp only [Saced.turn, here]
    rfl
  · simp [Saced.prepare, Saced.close, here, slots]

theorem recvCommand_copies (F : ParcelFormat) (saceCmd : SaceCommand) (temp : Bytes) :
    Traced.Every (fun effect => ∃ size capacity, effect = .copy size capacity)
      (recvCommand F saceCmd temp) := by
  by_cases accepted : Accepted F temp
  · rw [recvCommand_accepted F accepted]
    refine Traced.Every.then_pure ?_ _
    unfold SaceCommand.readFromParcel
    refine Traced.every_bind.mpr ⟨?_, fun _ _ => Traced.every_pure _⟩
    unfold SaceCommand.readExtra
    split
    · exact Traced.every_pure _
    · exact Traced.every_bind.mpr ⟨memcpy_every ⟨_, _, rfl⟩, fun _ _ => Traced.every_pure _⟩
  · rw [recvCommand_dropped F accepted]
    exact Traced.every_pure _

/-- The bytes of a read are a command for the daemon or nothing. -/
theorem recvData_heard {F : ParcelFormat} {h : LoggedSaced} {before rest : List ClientSocket}
    {climsg : ClientSocket} {saceCmd : SaceCommand} {temp : Bytes}
    (slots : h.daemon.mClients = before ++ climsg :: rest) (opened : 0 ≤ climsg.fd)
    (done : (recvData F climsg saceCmd temp).result = .ok ()) :
    ∃ t, Heard h h.daemon.mClients [] (recvData F climsg saceCmd temp).trace t := by
  obtain ⟨decoded, received, _⟩ := Traced.bind_ok.mp done
  have copied := Heard.copied h (recvCommand_copies F saceCmd temp)
  rw [recvData, Traced.bind_of_ok received]
  cases decoded with
  | none => exact ⟨h, by simpa using copied⟩
  | some command =>
    have here := client_at slots opened
    have turn : h.daemon.turn (.command before.length command) =
        ⟨(handleSocketMsg climsg command).trace, .ok h.daemon.server⟩ := by
      simp only [Saced.turn, here]
      unfold handleSocketMsg
      split <;> rfl
    obtain ⟨t, heard⟩ : ∃ t, Heard h h.daemon.mClients []
        (handleSocketMsg climsg command).trace t :=
      Heard.single (.command before.length command) trivial turn rfl
    exact ⟨t, copied.trans heard⟩

/-- A slot of the loop is left as `body` says, by steps of the daemon. -/
def Follows (body : Nat → ClientSocket → Exec (ClientSocket × List Int)) : Prop :=
  ∀ (h : LoggedSaced) (before rest : List ClientSocket) (climsg slot : ClientSocket)
    (closed : List Int), h.daemon.mClients = before ++ climsg :: rest →
    (body before.length climsg).result = .ok (slot, closed) →
    ∃ t, Heard h (before ++ slot :: rest) closed (body before.length climsg).trace t

theorem closeClient_follows {h : LoggedSaced} {before rest : List ClientSocket}
    {climsg slot : ClientSocket} {closed : List Int}
    (slots : h.daemon.mClients = before ++ climsg :: rest) (opened : 0 ≤ climsg.fd)
    (done : (closeClient climsg).result = .ok (slot, closed)) :
    ∃ t, Heard h (before ++ slot :: rest) closed (closeClient climsg).trace t := by
  cases done
  exact closeClient_heard slots opened

theorem dropClient_follows (answers : PassAnswers) : Follows (dropClient answers) := by
  intro h before rest climsg slot closed slots done
  unfold dropClient at done ⊢
  split at done
  · rename_i gone
    rw [if_pos gone]
    exact closeClient_follows slots (Int.le_of_lt gone.1) done
  · rename_i stays
    cases done
    rw [if_neg stays, ← slots]
    exact ⟨h, .nothing h⟩

theorem readClient_follows (F : ParcelFormat) (fds : List Int) (answers : PassAnswers) :
    Follows (readClient F fds answers) := by
  intro h before rest climsg slot closed slots done
  unfold readClient at done ⊢
  split at done
  · rename_i quiet
    cases done
    rw [if_pos quiet, ← slots]
    exact ⟨h, .nothing h⟩
  rename_i ready
  have opened : 0 ≤ climsg.fd := Int.not_lt.mp fun free => ready (.inl free)
  rw [if_neg ready]
  split at done
  · rename_i ended
    rw [if_pos ended]
    exact closeClient_follows slots opened done
  · rename_i bytes
    rw [if_neg bytes]
    obtain ⟨_, received, same⟩ := Traced.bind_ok.mp done
    cases same
    rw [Traced.bind_of_ok received, ← slots]
    simpa using recvData_heard slots opened received

/-- The loop, from the slot behind `before` on. -/
theorem eachClient_follows {body : Nat → ClientSocket → Exec (ClientSocket × List Int)}
    (follows : Follows body) (before : List ClientSocket) {rest left : List ClientSocket}
    {closed : List Int} {h : LoggedSaced} (slots : h.daemon.mClients = before ++ rest)
    (done : (eachClient body before.length rest).result = .ok (left, closed)) :
    ∃ t, Heard h (before ++ left) closed (eachClient body before.length rest).trace t := by
  induction rest generalizing before left closed h with
  | nil =>
    cases done
    rw [← slots]
    exact ⟨h, .nothing h⟩
  | cons climsg rest ih =>
    obtain ⟨⟨slot, first⟩, this, done⟩ := Traced.bind_ok.mp done
    obtain ⟨⟨slots', later⟩, others, same⟩ := Traced.bind_ok.mp done
    cases same
    obtain ⟨t, heard⟩ := follows h before rest climsg slot first slots this
    have size : before.length + 1 = (before ++ [slot]).length := by simp
    rw [eachClient, Traced.bind_of_ok this, size]
    rw [size] at others
    have next : t.daemon.mClients = (before ++ [slot]) ++ rest := by
      rw [heard.daemon]
      simp [Saced.deliver]
    obtain ⟨u, after⟩ := ih _ next others
    refine ⟨u, ?_⟩
    dsimp only
    rw [Traced.bind_of_ok others]
    have both := heard.trans after
    simpa using both

structure Follow (h : LoggedSaced) (received : Received) (trace : List Effect)
    (t : LoggedSaced) : Prop where
  reached : Runs.Reached LoggedSaced.step LoggedSaced.Provided h t
  daemon : t.daemon = Listening.receive h.daemon received trace
  log : leaving t.log = leaving h.log ++ leaving trace

theorem Heard.follow {h t : LoggedSaced} {reader : SaceSocketReader}
    {mClients : List ClientSocket} {closed : List Int} {trace : List Effect}
    {reopened again : Bool} (heard : Heard h mClients closed trace t)
    (slots : reader.mClients = mClients) :
    Follow h { reader, reopened, closed, again } trace t where
  reached := heard.reached
  daemon := by rw [heard.daemon, Listening.receive, Listening.connections, slots]
  log := heard.log

theorem accept_follow {h : LoggedSaced} {r : SaceSocketReader} {answers : PassAnswers}
    (slots : r.mClients = h.daemon.mClients) (opened : 0 < answers.clientFd)
    (new : answers.clientFd ∉ h.daemon.conns) :
    let after := recvConnection r.mClients answers.clientFd answers.cred answers.i
    ∃ t, Follow h
      { reader := { r with mClients := after.mClients }
        accepted := some (answers.clientFd, answers.cred)
        closed := after.closed } [] t := by
  intro after
  let full := decide ((MAX_CLIENT_NUM : Int) ≤ answers.i.toInt)
  have stored : h.daemon.accept answers.clientFd answers.cred full =
      { h.daemon with
        mClients := after.mClients
        conns := after.closed.foldl (fun conns fd => conns.erase fd)
          (h.daemon.conns.insert answers.clientFd answers.cred) } := by
    have slotted := storeClient_findIdx r.mClients answers.clientFd answers.cred
    rw [slots] at slotted
    simp only [Saced.accept, after, recvConnection_opened (Int.le_of_lt opened), slots, slotted,
      connected]
    congr 1
    by_cases closing : (MAX_CLIENT_NUM : Int) ≤ answers.i.toInt
    · have lost : full = true := decide_eq_true closing
      rw [lost, if_pos rfl, if_pos closing]
      refine Std.ExtTreeMap.ext_getElem? fun fd => ?_
      by_cases here : answers.clientFd = fd
      · simp [here]
      · simp [Std.ExtTreeMap.getElem?_erase, Std.ExtTreeMap.getElem?_insert, here]
    · have kept : full = false := decide_eq_false closing
      rw [kept, if_neg closing]
      rfl
  refine ⟨⟨h.daemon.accept answers.clientFd answers.cred full, h.log⟩, ?_, ?_, ?_⟩
  · refine .next (a := .accept answers.clientFd answers.cred full) .start ⟨opened, new⟩ ?_
    simp [LoggedSaced.step, Saced.turn, Saced.prepare, Traced.value, Except.toOption,
      Saced.deliver, posted, piped]
    rfl
  · rw [stored]
    simp [Listening.receive, Listening.connections, Saced.deliver, posted, piped]
  · simp [leaving]

theorem selected_follows {F : ParcelFormat} {h : LoggedSaced} {r : SaceSocketReader}
    {fds : List Int} {answers : PassAnswers} {received : Received}
    (slots : r.mClients = h.daemon.mClients)
    (provided : 0 ≤ answers.clientFd → 0 < answers.clientFd ∧ answers.clientFd ∉ h.daemon.conns)
    (done : (recvSelected F r fds answers).result = .ok received) :
    ∃ t, Follow h received (recvSelected F r fds answers).trace t := by
  have nothing : ∃ t, Follow h { reader := r } [] t := ⟨h, (Heard.nothing h).follow slots⟩
  unfold recvSelected at done ⊢
  split at done
  · rename_i timeout
    cases done
    rw [if_pos timeout]
    exact nothing
  rename_i woken
  rw [if_neg woken]
  split at done
  · rename_i failed
    rw [if_pos failed]
    obtain ⟨⟨mClients, closed⟩, dropped, done⟩ := Traced.bind_ok.mp done
    rw [Traced.bind_of_ok dropped]
    obtain ⟨t, heard⟩ := eachClient_follows (dropClient_follows answers) [] slots.symm dropped
    dsimp only at done ⊢
    split at done
    · rename_i gone
      cases done
      simp only [if_pos gone, Traced.pure_trace, List.append_nil]
      exact ⟨t, heard.follow (setupSocket_mClients _ _)⟩
    · rename_i open_
      cases done
      simp only [if_neg open_, Traced.pure_trace, List.append_nil]
      exact ⟨t, heard.follow rfl⟩
  rename_i some
  rw [if_neg some]
  split at done
  · rename_i incoming
    rw [if_pos incoming]
    split at done
    · rename_i refused
      cases done
      rw [if_pos refused]
      exact nothing
    · rename_i opened
      cases done
      rw [if_neg opened]
      obtain ⟨positive, new⟩ := provided (Int.not_lt.mp opened)
      exact accept_follow slots positive new
  · rename_i quiet
    rw [if_neg quiet]
    obtain ⟨⟨mClients, closed⟩, read, done⟩ := Traced.bind_ok.mp done
    cases done
    rw [Traced.bind_of_ok read]
    obtain ⟨t, heard⟩ := eachClient_follows (readClient_follows F fds answers) [] slots.symm read
    simp only [Traced.pure_trace, List.append_nil]
    exact ⟨t, heard.follow rfl⟩

theorem pass_follows {F : ParcelFormat} {h : LoggedSaced} {r : SaceSocketReader}
    {answers : PassAnswers} {received : Received} (slots : r.mClients = h.daemon.mClients)
    (provided : 0 ≤ answers.clientFd → 0 < answers.clientFd ∧ answers.clientFd ∉ h.daemon.conns)
    (done : (recvDataOrConnection F r answers).result = .ok received) :
    ∃ t, Follow h received (recvDataOrConnection F r answers).trace t := by
  unfold recvDataOrConnection at done ⊢
  split at done
  · rename_i blind
    cases done
    rw [if_pos blind]
    exact ⟨h, (Heard.nothing h).follow slots⟩
  · rename_i watching
    rw [if_neg watching]
    exact selected_follows slots provided done

end Passes

namespace Listening
open SaceSocketReader
variable {F : ParcelFormat}

theorem step_follows {l m : Listening} {h : LoggedSaced} {input : Input}
    (same : l.daemon = h.daemon ∧ leaving l.log = leaving h.log) (provided : l.Provided input)
    (moved : l.step F input = some m) :
    ∃ t, Runs.Reached LoggedSaced.step LoggedSaced.Provided h t ∧
      m.daemon = t.daemon ∧ leaving m.log = leaving t.log := by
  cases input with
  | pass answers =>
    obtain ⟨received, value, rfl⟩ := Option.map_eq_some_iff.mp moved
    have slots : l.reader.mClients = h.daemon.mClients := congrArg (·.mClients) same.1
    have fresh : 0 ≤ answers.clientFd →
        0 < answers.clientFd ∧ answers.clientFd ∉ h.daemon.conns := same.1 ▸ provided
    obtain ⟨t, follow⟩ := pass_follows slots fresh (Traced.value_eq_some.mp value)
    refine ⟨t, follow.reached, ?_, ?_⟩
    · rw [follow.daemon, ← same.1]
    · rw [follow.log, ← same.2]
      exact List.filter_append ..
  | other input =>
    simp only [step, Option.ite_none_right_eq_some, Option.map_eq_some_iff] at moved
    obtain ⟨_, u, stepped, rfl⟩ := moved
    obtain ⟨server, value, rfl⟩ := Option.map_eq_some_iff.mp stepped
    have able : h.daemon.Provided input := by
      rw [← same.1]
      exact provided
    rw [same.1] at value
    refine ⟨_, .next .start able (Option.map_eq_some_iff.mpr ⟨server, value, rfl⟩), ?_, ?_⟩
    · rw [same.1]
    · simp only [leaving, List.filter_append, same.1]
      exact congrArg (· ++ _) same.2

/-- Whatever calls of recv_data_or_connection there are between the other steps, the daemon is in
a state that connections, commands and hangups one by one lead to, and has done what these do. -/
theorem reached_steps {event : SaceEvent} {mSockFd : Int} {l : Listening}
    (reached : Runs.Reached (step F) Provided (start event mSockFd) l) :
    ∃ log, Runs.Reached LoggedSaced.step LoggedSaced.Provided ⟨Saced.start event, []⟩
      ⟨l.daemon, log⟩ ∧ leaving log = leaving l.log := by
  have matched : ∃ h, Runs.Reached LoggedSaced.step LoggedSaced.Provided
      ⟨Saced.start event, []⟩ h ∧ l.daemon = h.daemon ∧ leaving l.log = leaving h.log := by
    refine reached.matched
      (R := fun l (h : LoggedSaced) => l.daemon = h.daemon ∧ leaving l.log = leaving h.log) ?_
      fun l input m h same provided moved => step_follows same provided moved
    exact ⟨rfl, rfl⟩
  obtain ⟨⟨daemon, log⟩, steps, rfl, same⟩ := matched
  exact ⟨log, steps, same.symm⟩

def incoming (fd : Int) (pid : Int) : PassAnswers :=
  { select := 1
    isSet := fun other => other = 3
    fstat := fun _ => 0
    setup := ⟨3, 0⟩
    clientFd := fd
    cred := ⟨1000, pid⟩
    i := 0
    read := fun _ => []
    saceCmd := fun _ => .init [] 0 }

def bothReady : PassAnswers :=
  { incoming 9 0 with
    select := 2
    isSet := fun fd => 6 < fd
    read := fun slot =>
      if slot = 0 then (SaceCommand.init (str "200:0") 1).encode Android.parcel else [] }

def twoClients : List Input := [.pass (incoming 7 200), .pass (incoming 8 300), .pass bothReady]

theorem twoClients_steps : ∃ l, Runs.run (step Android.parcel) (start .bare 3) twoClients =
      some l ∧ l.daemon.queue.length = 2 ∧
    ∃ log, Runs.Reached LoggedSaced.step LoggedSaced.Provided ⟨Saced.start .bare, []⟩
      ⟨l.daemon, log⟩ ∧ leaving log = leaving l.log := by
  have posted : (Runs.run (step Android.parcel) (start .bare 3) twoClients).map
    (·.daemon.queue.length) = some 2 := by decide +kernel
  obtain ⟨l, ran, size⟩ := Option.map_eq_some_iff.mp posted
  exact ⟨l, ran, size, reached_steps (Runs.run_reached (by decide +kernel) ran)⟩

end Listening
end Sace
