import Sace.Reader.Coalesced
import Sace.Saced.Answered
import Sace.Sender.Matching

/-! A client process and the daemon on the two ends of one connection. What the model of the
client alone takes for granted about the results that it gets, the daemon sees to. -/
namespace Sace

namespace SaceSocketSender

def Waits (secured : Bool) (s : SaceSocketSender) (sequence : UInt32) (i : Nat) : Bool :=
  (s.calls[i]?).any fun call => replySequence secured call.cmd = sequence

def owed (secured : Bool) (s : SaceSocketSender) (sequence : UInt32) : Nat :=
  s.asked.countP (s.Waits secured sequence)

/-- How a result counts: as the answer to the first command that it fits, or to none. -/
def answer (secured : Bool) (s : SaceSocketSender) (result : SaceResult) : Input :=
  match s.asked.findIdx? (s.Waits secured result.sequence) with
  | some k => .reply k result
  | none => .passOn result

def hearAll (F : ParcelFormat) (secured : Bool) (s : SaceSocketSender)
    (results : List SaceResult) : Option SaceSocketSender :=
  results.foldlM (fun s result => s.step F (s.answer secured (result.onWire F))) s

def inside : Input → Bool
  | .reply .. | .unanswered _ | .passOn _ => false
  | _ => true

/-- Nothing is asked of the server but what `Provided` says, and every result is an answer. -/
def Granted (secured : Bool) (s : SaceSocketSender) (input : Input) : Prop :=
  s.Provided secured input ∧ ∀ result, input ≠ .passOn result

section
variable {F : ParcelFormat} {secured : Bool} {s t : SaceSocketSender} {input : Input}
variable {sequence : UInt32}

theorem answer_reply {result : SaceResult} (waits : 0 < s.owed secured result.sequence) :
    ∃ k i, s.answer secured result = .reply k result ∧ s.asked[k]? = some i ∧
      s.Waits secured result.sequence i = true := by
  obtain ⟨i, asked, fits⟩ := List.countP_pos_iff.mp waits
  cases found : s.asked.findIdx? (s.Waits secured result.sequence) with
  | none =>
    rw [List.findIdx?_eq_none_iff] at found
    exact absurd fits (by simp [found i asked])
  | some k =>
    obtain ⟨inside, fits, -⟩ := List.findIdx?_eq_some_iff_getElem.mp found
    exact ⟨k, s.asked[k], by rw [answer, found], List.getElem?_eq_getElem inside, fits⟩

theorem waits_iff {i : Nat} (fits : s.Waits secured sequence i = true) (other : UInt32) :
    s.Waits secured other i = decide (sequence = other) := by
  unfold Waits at fits ⊢
  obtain ⟨call, held, same⟩ := (Option.any_eq_true ..).mp fits
  rw [held, Option.any_some, ← of_decide_eq_true same]

/-- Results that are all owed are heard as answers. -/
theorem hearAll_granted {results : List SaceResult}
    (enough : ∀ q, results.countP (·.sequence = q) ≤ s.owed secured q)
    (heard : s.hearAll F secured results = some t) :
    Runs.Reached (step F) (Granted secured) s t ∧ t.calls = s.calls ∧
      t.asked.Sublist s.asked ∧
      ∀ q, t.owed secured q + results.countP (·.sequence = q) = s.owed secured q := by
  induction results generalizing s with
  | nil =>
    cases heard
    exact ⟨.start, rfl, .refl _, fun _ => rfl⟩
  | cons result rest ih =>
    simp only [hearAll, List.foldlM_cons, Option.bind_eq_bind, Option.bind_eq_some_iff] at heard
    obtain ⟨u, first, later⟩ := heard
    have waits : 0 < s.owed secured (result.onWire F).sequence := by
      have some := enough result.sequence
      simp only [List.countP_cons, decide_true, if_true] at some
      exact Nat.lt_of_lt_of_le (Nat.succ_pos _) some
    obtain ⟨k, i, reply, asked, fits⟩ := answer_reply waits
    obtain ⟨inside, rfl⟩ := List.getElem?_eq_some_iff.mp asked
    have moved := first
    rw [reply] at moved
    simp only [step, asked, Option.bind_eq_bind, Option.bind_some, Option.some.injEq] at moved
    subst moved
    have split (q : UInt32) : s.owed secured q = (s.asked.eraseIdx k).countP (s.Waits secured q) +
        if (result.onWire F).sequence = q then 1 else 0 := by
      have count := (List.getElem_cons_eraseIdx_perm inside).countP_eq (s.Waits secured q)
      rw [List.countP_cons, waits_iff fits q] at count
      simpa [owed] using count.symm
    have same : (result.onWire F).sequence = result.sequence := rfl
    rw [same] at split
    have less (q : UInt32) : rest.countP (·.sequence = q) ≤
        (s.asked.eraseIdx k).countP (s.Waits secured q) := by
      have some := enough q
      simp only [split q, List.countP_cons, decide_eq_true_eq] at some
      omega
    obtain ⟨onward, calls, fewer, counts⟩ := ih (by exact less) later
    refine ⟨?_, calls, fewer.trans (List.eraseIdx_sublist _ _), fun q => ?_⟩
    · refine (Runs.Reached.start.next ⟨?_, fun _ no => ?_⟩ first).trans onward
      · rw [reply]
        intro j here call held
        rw [asked, Option.mem_some_iff] at here
        subst here
        obtain ⟨before, there, own⟩ := (Option.any_eq_true ..).mp fits
        rw [Option.mem_def, there, Option.some.injEq] at held
        exact held ▸ (of_decide_eq_true own).symm
      · rw [reply] at no
        cases no
    · have tail : _ + _ = (s.asked.eraseIdx k).countP (s.Waits secured q) := counts q
      simp only [split q, List.countP_cons, decide_eq_true_eq]
      omega

theorem step_waits (moved : s.step F input = some t) {i : Nat} (old : i < s.calls.length) :
    t.Waits secured sequence i = s.Waits secured sequence i := by
  have held := List.getElem?_eq_getElem (old.trans_le (step_length moved).1)
  obtain ⟨before, there, same⟩ := step_cmd moved held old
  simp only [Waits, held, there, Option.any_some, same]

theorem step_asked_same (own : inside input = true) (moved : s.step F input = some t)
    (other : ∀ cmd ready ret, input ≠ .call cmd ready ret) : t.asked = s.asked := by
  cases step_cases moved with
  | call => exact absurd rfl (other _ _ _)
  | reply | unanswered | passOn => cases own
  | _ => rfl

theorem excuteCommand_asked {cmd : SaceCommand} {ready : Bool} {ret : Int}
    (done : s.excuteCommand F cmd ready ret = some t) :
    t.asked = if s.Writes ready ret then s.asked ++ [s.calls.length] else s.asked := by
  unfold excuteCommand at done
  dsimp only at done
  split at done
  · rename_i unusable
    cases done
    rw [if_neg fun writes => by simp_all [Writes]]
    rfl
  rename_i usable
  have usable : (s.initlized || ready) = true := by grind
  split at done
  · obtain ⟨u, closed, rfl⟩ := Option.map_eq_some_iff.mp done
    unfold uninit at closed
    split at closed
    · cases closed
    · cases closed
      rename_i nothing _
      rw [if_neg fun writes => absurd writes.2 (Int.not_lt.mpr nothing)]
      rfl
  rename_i positive
  have writes : s.Writes ready ret := ⟨usable, Int.not_le.mp positive⟩
  rw [if_pos writes]
  split at done <;>
  · cases done
    rfl

end
end SaceSocketSender

/-- `sent` are the commands that the client has written and the daemon has not read. -/
structure Connected where
  daemon : Saced
  client : SaceSocketSender := {}
  sent : List SaceCommand := []

namespace Connected
open SaceSocketReader

/-- A step of one of the two, or a read of the connection by the daemon, which gets `more` whole
commands behind the first. -/
inductive Input where
  | client (input : SaceSocketSender.Input)
  | read (fresh : SaceCommand) (more : Nat)
  | daemon (input : Saced.Input)

def serve (F : ParcelFormat) (l : Link) (c : Connected) (input : Saced.Input) :
    Option Connected := do
  let daemon ← c.daemon.step input
  let client ← c.client.hearAll F l.secured (resultsOn l.fd (c.daemon.turn input).trace)
  return { c with daemon, client }

def write (c : Connected) : SaceSocketSender.Input → List SaceCommand
  | .call cmd ready ret => if c.client.Writes ready ret then c.sent ++ [cmd] else c.sent
  | _ => c.sent

def chunk (F : ParcelFormat) (cmd : SaceCommand) (rest : List SaceCommand) (more : Nat) : Bytes :=
  (cmd :: rest.take more).flatMap (·.encode F)

def step (F : ParcelFormat) (l : Link) (c : Connected) : Input → Option Connected
  | .client input =>
    if SaceSocketSender.inside input then
      (c.client.step F input).map fun client => { c with client, sent := c.write input }
    else none
  | .read fresh more =>
    match c.sent with
    | [] => none
    | cmd :: rest =>
      let c := { c with sent := rest.drop more }
      match (recvCommand F fresh (chunk F cmd rest more)).result with
      | .ok (some saceCmd) => c.serve F l (.command l.slot saceCmd)
      | .ok none => some c
      | .error _ => none
  | .daemon input => if l.own input then none else c.serve F l input

/-- The connection lasts: a call that can write at all writes its whole command, which another
process can read. -/
def Provided (F : ParcelFormat) (l : Link) (c : Connected) : Input → Prop
  | .client input => c.client.Provided l.secured input ∧
      ∀ cmd ready ret, input = .call cmd ready ret → (c.client.initlized || ready) = true →
        cmd.WellFormed F ∧ ret = (cmd.encode F).length ∧ (cmd.encode F).length ≤ MAX_SOCKET_BUF
  | .read _ more => ∀ cmd rest, c.sent = cmd :: rest →
      (chunk F cmd rest more).length ≤ MAX_SOCKET_BUF
  | .daemon input => c.daemon.Provided input

def unread (l : Link) (sent : List SaceCommand) (sequence : UInt32) : Nat :=
  sent.countP fun cmd => SaceSocketSender.replySequence l.secured cmd = sequence

/-- What is on its way to the daemon or in its queue is answered no more often than the client
has asked. -/
structure Served (F : ParcelFormat) (l : Link) (c : Connected) : Prop where
  holds : l.Holds c.daemon
  starting : Saced.Starting c.daemon
  valid : ∀ cmd ∈ c.sent, cmd.WellFormed F
  asked : ∀ i ∈ c.client.asked, i < c.client.calls.length
  enough : ∀ q, unread l c.sent q + l.pending c.daemon q ≤ c.client.owed l.secured q

section
variable {F : ParcelFormat} {l : Link} {c t : Connected}

theorem Served.serve (served : Served F l c) {input : Saced.Input} (sent : List SaceCommand)
    (provided : c.daemon.Provided input)
    (stays : ∀ slot, input = .hangup slot → slot ≠ l.slot)
    (valid : ∀ cmd ∈ sent, cmd.WellFormed F)
    (room : ∀ q, unread l sent q + l.due q input ≤ unread l c.sent q)
    (moved : { c with sent }.serve F l input = some t) :
    Served F l t ∧ Runs.Reached (SaceSocketSender.step F)
      (SaceSocketSender.Granted l.secured) c.client t.client := by
  simp only [Connected.serve, Option.bind_eq_bind, Option.bind_eq_some_iff] at moved
  obtain ⟨daemon, stepped, client, heard, moved⟩ := moved
  cases moved
  have starting := served.starting.step provided stepped
  obtain ⟨server, ran, rfl⟩ := Saced.step_eq_some.mp stepped
  have turn (q : UInt32) :
      l.pending ((c.daemon.prepare input).deliver server (c.daemon.turn input).trace) q +
        (resultsOn l.fd (c.daemon.turn input).trace).countP (·.sequence = q) + unread l sent q ≤
          c.client.owed l.secured q := by
    have pending := served.holds.turn_pending served.starting stays q
    have split : l.pending ((c.daemon.prepare input).deliver server
        (c.daemon.turn input).trace) q = l.pending (c.daemon.prepare input) q +
          (posted (c.daemon.turn input).trace).countP (Posted.owes l.fd q) := List.countP_append
    have enough := served.enough q
    have room := room q
    rw [owes_count] at pending
    omega
  obtain ⟨answered, calls, fewer, counts⟩ := SaceSocketSender.hearAll_granted
    (fun q => by have turn := turn q; omega) heard
  have holds := served.holds.prepared provided stays
  refine ⟨⟨⟨holds.positive, holds.there, holds.others, holds.listed⟩, starting, valid,
    fun i member => ?_, fun q => ?_⟩, answered⟩
  · rw [calls]
    exact served.asked i (fewer.subset member)
  · have turn := turn q
    have counts := counts q
    dsimp only at counts ⊢
    omega

/-- A step of the client leaves the calls that the daemon still owes an answer as they are. -/
theorem Served.waits (served : Served F l c) {input : SaceSocketSender.Input}
    {client : SaceSocketSender} (stepped : c.client.step F input = some client) (q : UInt32) :
    c.client.asked.countP (client.Waits l.secured q) = c.client.owed l.secured q :=
  List.countP_congr fun i member => by
    rw [SaceSocketSender.step_waits stepped (served.asked i member)]

/-- The client has written nothing. -/
theorem Served.unwritten (served : Served F l c) {input : SaceSocketSender.Input}
    {client : SaceSocketSender} (stepped : c.client.step F input = some client)
    (asked : client.asked = c.client.asked) (sent : c.write input = c.sent) :
    Served F l { c with client, sent := c.write input } := by
  have longer := (SaceSocketSender.step_length stepped).1
  refine ⟨served.holds, served.starting, sent ▸ served.valid, fun i member => ?_, fun q => ?_⟩
  · exact (served.asked i (asked ▸ member)).trans_le longer
  · have owed : client.owed l.secured q = c.client.owed l.secured q := by
      rw [SaceSocketSender.owed, asked]
      exact served.waits stepped q
    rw [owed, sent]
    exact served.enough q

/-- The client has written a command, and waits for its answer. -/
theorem Served.written (served : Served F l c) {cmd : SaceCommand} {ready : Bool} {ret : Int}
    {client : SaceSocketSender} (valid : cmd.WellFormed F) (writes : c.client.Writes ready ret)
    (stepped : c.client.step F (.call cmd ready ret) = some client) :
    Served F l { c with client, sent := c.write (.call cmd ready ret) } := by
  have asked := SaceSocketSender.excuteCommand_asked stepped
  rw [if_pos writes] at asked
  have sent : c.write (.call cmd ready ret) = c.sent ++ [cmd] := if_pos writes
  obtain ⟨new, begins, calls, -⟩ := SaceSocketSender.excuteCommand_cases stepped
  have last (q : UInt32) : client.Waits l.secured q c.client.calls.length =
      decide (SaceSocketSender.replySequence l.secured cmd = q) := by
    rw [SaceSocketSender.Waits, calls, List.getElem?_concat_length, Option.any_some]
    cases begins <;> rfl
  refine ⟨served.holds, served.starting, fun other member => ?_, fun i member => ?_,
    fun q => ?_⟩
  · rw [sent] at member
    rcases List.mem_append.mp member with old | new
    · exact served.valid other old
    · cases List.mem_singleton.mp new
      exact valid
  · rw [asked] at member
    rcases List.mem_append.mp member with old | new
    · exact (served.asked i old).trans_le (SaceSocketSender.step_length stepped).1
    · cases List.mem_singleton.mp new
      simp only [calls, List.length_append, List.length_singleton]
      omega
  · have enough := served.enough q
    have owed : client.owed l.secured q = c.client.owed l.secured q +
        if SaceSocketSender.replySequence l.secured cmd = q then 1 else 0 := by
      rw [SaceSocketSender.owed, asked, List.countP_append, served.waits stepped q,
        List.countP_singleton, last q]
      simp only [decide_eq_true_eq]
    have more : unread l (c.sent ++ [cmd]) q = unread l c.sent q +
        if SaceSocketSender.replySequence l.secured cmd = q then 1 else 0 := by
      rw [unread, List.countP_append, List.countP_singleton]
      simp only [decide_eq_true_eq]
      rfl
    rw [sent, owed, more]
    dsimp only
    omega

theorem Served.client (served : Served F l c) {input : SaceSocketSender.Input}
    (provided : Provided F l c (.client input)) (moved : c.step F l (.client input) = some t) :
    Served F l t ∧ Runs.Reached (SaceSocketSender.step F)
      (SaceSocketSender.Granted l.secured) c.client t.client := by
  simp only [step] at moved
  split at moved
  swap
  · cases moved
  rename_i own
  obtain ⟨client, stepped, rfl⟩ := Option.map_eq_some_iff.mp moved
  have granted : SaceSocketSender.Granted l.secured c.client input := by
    refine ⟨provided.1, ?_⟩
    rintro result rfl
    cases own
  refine ⟨?_, Runs.Reached.start.next granted stepped⟩
  by_cases call : ∃ cmd ready ret, input = .call cmd ready ret
  · obtain ⟨cmd, ready, ret, rfl⟩ := call
    by_cases writes : c.client.Writes ready ret
    · exact served.written (provided.2 cmd ready ret rfl writes.1).1 writes stepped
    · have asked := SaceSocketSender.excuteCommand_asked stepped
      rw [if_neg writes] at asked
      exact served.unwritten stepped asked (if_neg writes)
  · push Not at call
    have sent : c.write input = c.sent := by
      cases input with
      | call cmd ready ret => exact absurd rfl (call cmd ready ret)
      | _ => rfl
    exact served.unwritten stepped (SaceSocketSender.step_asked_same own stepped call) sent

theorem recv_chunk {cmd : SaceCommand} {rest : List SaceCommand} {more : Nat}
    (valid : cmd.WellFormed F) (fits : (chunk F cmd rest more).length ≤ MAX_SOCKET_BUF)
    (fresh : SaceCommand) :
    (recvCommand F fresh (chunk F cmd rest more)).result = .ok (some (cmd.onWire F)) := by
  have small : (cmd.encode F).length < 2 ^ 32 := by
    simp only [chunk, List.flatMap_cons, List.length_append, MAX_SOCKET_BUF] at fits
    omega
  rw [chunk, List.flatMap_cons]
  exact recvCommand_front F valid small fresh _

theorem Served.step (served : Served F l c) {input : Input} (provided : Provided F l c input)
    (moved : c.step F l input = some t) :
    Served F l t ∧ Runs.Reached (SaceSocketSender.step F)
      (SaceSocketSender.Granted l.secured) c.client t.client := by
  cases input with
  | client input => exact served.client provided moved
  | read fresh more =>
    simp only [Connected.step] at moved
    split at moved
    · cases moved
    rename_i cmd rest waiting
    have among : cmd ∈ c.sent := by rw [waiting]; exact List.mem_cons_self
    rw [recv_chunk (served.valid cmd among) (provided cmd rest waiting) fresh] at moved
    have later : (rest.drop more).Sublist rest := List.drop_sublist _ _
    have provided : c.daemon.Provided (.command l.slot (cmd.onWire F)) := trivial
    refine served.serve (rest.drop more) provided (fun _ no => by cases no)
      (fun other member => served.valid other ?_) (fun q => ?_) moved
    · rw [waiting]
      exact List.mem_cons_of_mem _ (later.subset member)
    · have fewer : unread l (rest.drop more) q ≤ unread l rest q := later.countP_le
      have first : unread l c.sent q = unread l rest q +
          l.due q (.command l.slot (cmd.onWire F)) := by
        rw [waiting, unread, List.countP_cons]
        simp only [decide_eq_true_eq, Link.due, true_and]
        rfl
      omega
  | daemon input =>
    simp only [Connected.step] at moved
    split at moved
    · cases moved
    rename_i other
    refine served.serve c.sent provided ?_ served.valid (fun q => ?_) moved
    · rintro slot rfl same
      exact other (decide_eq_true same)
    · have none : l.due q input = 0 := by
        cases input with
        | command slot saceCmd => exact if_neg fun both => other (decide_eq_true both.1)
        | _ => rfl
      omega

end

def asks : List Input :=
  [.client (.call queryCommand true (queryCommand.encode Android.parcel).length),
    .read (.init (str "1:1") 1) 0, .daemon (.take .service .quiet), .client (.enter 0),
    .client (.handle 0), .client (.recheck 0)]

def refusal : SaceResult :=
  SaceResult.onWire Android.parcel { initialResult queryCommand with resultStatus := .fail }

end Connected
end Sace
