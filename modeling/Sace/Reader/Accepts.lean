import Sace.Saced

/-! A connection that comes in: the slot that it gets, and the test of an index that nothing has
been stored in. -/
namespace Sace
namespace SaceSocketReader

structure Connecting where
  mClients : List ClientSocket
  closed : List Int

def connected (clientFd : Int) (cred : SaceClientIdentifier) : ClientSocket :=
  { fd := clientFd, client := cred, writer := ⟨.socket clientFd, cred.pid⟩ }

/-- The loop over the slots. It breaks at the first that is free. -/
def storeClient (clientFd : Int) (cred : SaceClientIdentifier) :
    List ClientSocket → List ClientSocket
  | [] => []
  | climsg :: rest =>
    if climsg.fd < 0 then connected clientFd cred :: rest
    else climsg :: storeClient clientFd cred rest

/-- The branch of recv_data_or_connection for a new connection. The loop has an index of its own,
so that `i` is still what its memory held. -/
def recvConnection (mClients : List ClientSocket) (clientFd : Int) (cred : SaceClientIdentifier)
    (i : Int32) : Connecting :=
  if clientFd < 0 then { mClients, closed := [] }
  else
    { mClients := storeClient clientFd cred mClients
      closed := if (MAX_CLIENT_NUM : Int) ≤ i.toInt then [clientFd] else [] }

def Room (mClients : List ClientSocket) : Prop := ∃ climsg ∈ mClients, climsg.fd < 0

instance (mClients : List ClientSocket) : Decidable (Room mClients) :=
  inferInstanceAs (Decidable (∃ climsg ∈ mClients, climsg.fd < 0))

/-- The connection gets a free slot and stays open, or there is none and it is closed. -/
def Settled (mClients : List ClientSocket) (clientFd : Int) (cred : SaceClientIdentifier)
    (after : Connecting) : Prop :=
  if Room mClients then
    (∃ slot climsg, mClients[slot]? = some climsg ∧ climsg.fd < 0 ∧
      after.mClients = mClients.set slot (connected clientFd cred)) ∧ clientFd ∉ after.closed
  else after.mClients = mClients ∧ clientFd ∈ after.closed

/-! ### The loop -/

theorem storeClient_room {mClients : List ClientSocket} (room : Room mClients) (clientFd : Int)
    (cred : SaceClientIdentifier) :
    ∃ slot climsg, mClients[slot]? = some climsg ∧ climsg.fd < 0 ∧
      storeClient clientFd cred mClients = mClients.set slot (connected clientFd cred) := by
  induction mClients with
  | nil =>
    obtain ⟨climsg, member, -⟩ := room
    cases member
  | cons climsg rest ih =>
    unfold storeClient
    by_cases free : climsg.fd < 0
    · exact ⟨0, climsg, rfl, free, if_pos free⟩
    · obtain ⟨other, member, open_⟩ := room
      have later : Room rest := by
        rcases List.mem_cons.mp member with rfl | member
        · exact absurd open_ free
        · exact ⟨other, member, open_⟩
      obtain ⟨slot, found, held, empty, stored⟩ := ih later
      refine ⟨slot + 1, found, held, empty, ?_⟩
      rw [if_neg free, stored, List.set_cons_succ]

theorem storeClient_full {mClients : List ClientSocket} (full : ¬ Room mClients) (clientFd : Int)
    (cred : SaceClientIdentifier) : storeClient clientFd cred mClients = mClients := by
  induction mClients with
  | nil => rfl
  | cons climsg rest ih =>
    have taken : ¬ climsg.fd < 0 := fun free => full ⟨climsg, List.mem_cons_self, free⟩
    have later : ¬ Room rest := fun ⟨other, member, free⟩ =>
      full ⟨other, List.mem_cons_of_mem _ member, free⟩
    rw [storeClient, if_neg taken, ih later]

theorem storeClient_findIdx (mClients : List ClientSocket) (clientFd : Int)
    (cred : SaceClientIdentifier) : storeClient clientFd cred mClients =
      match mClients.findIdx? (·.fd < 0) with
      | some slot => mClients.set slot (connected clientFd cred)
      | none => mClients := by
  induction mClients with
  | nil => rfl
  | cons climsg rest ih =>
    rw [storeClient, List.findIdx?_cons]
    by_cases free : climsg.fd < 0
    · rw [if_pos free, decide_eq_true free, if_pos rfl]
      rfl
    · rw [if_neg free, decide_eq_false free, if_neg Bool.false_ne_true, ih]
      cases rest.findIdx? fun climsg => decide (climsg.fd < 0) with
      | none => rfl
      | some slot => rfl

theorem recvConnection_opened {clientFd : Int} (opened : 0 ≤ clientFd)
    (mClients : List ClientSocket) (cred : SaceClientIdentifier) (i : Int32) :
    recvConnection mClients clientFd cred i =
      { mClients := storeClient clientFd cred mClients
        closed := if (MAX_CLIENT_NUM : Int) ≤ i.toInt then [clientFd] else [] } :=
  if_neg (Int.not_lt.mpr opened)

/-- The daemon's step for a connection is this branch, with what the test of `i` yields. -/
theorem accept_recvConnection (d : Saced) {fd : Int} (opened : 0 ≤ fd)
    (cred : SaceClientIdentifier) (i : Int32) :
    (d.accept fd cred (decide ((MAX_CLIENT_NUM : Int) ≤ i.toInt))).mClients =
        (recvConnection d.mClients fd cred i).mClients ∧
      (fd ∈ (d.accept fd cred (decide ((MAX_CLIENT_NUM : Int) ≤ i.toInt))).conns ↔
        fd ∉ (recvConnection d.mClients fd cred i).closed) := by
  rw [recvConnection_opened opened]
  constructor
  · exact (storeClient_findIdx d.mClients fd cred).symm
  · by_cases large : (MAX_CLIENT_NUM : Int) ≤ i.toInt
    · simp [Saced.accept, large]
    · simp [Saced.accept, large]

/-- The value of `i` decides: it has to be below the bound exactly when a slot is free. -/
theorem settled_iff {clientFd : Int} (opened : 0 ≤ clientFd) (mClients : List ClientSocket)
    (cred : SaceClientIdentifier) (i : Int32) :
    Settled mClients clientFd cred (recvConnection mClients clientFd cred i) ↔
      (Room mClients ↔ i.toInt < MAX_CLIENT_NUM) := by
  rw [recvConnection_opened opened, Settled]
  have test : (MAX_CLIENT_NUM : Int) ≤ i.toInt ↔ ¬ i.toInt < MAX_CLIENT_NUM := Int.not_lt.symm
  by_cases room : Room mClients
  · rw [if_pos room, and_iff_right (storeClient_room room clientFd cred), iff_true_left room]
    by_cases small : i.toInt < MAX_CLIENT_NUM
    · simp [test, small]
    · simp [test, small]
  · rw [if_neg room, and_iff_right (storeClient_full room clientFd cred), iff_false_left room]
    by_cases small : i.toInt < MAX_CLIENT_NUM
    · simp [test, small]
    · simp [test, small]

def noClients : List ClientSocket :=
  List.replicate MAX_CLIENT_NUM { client := ⟨4294967295, -1⟩, writer := ⟨.none, -1⟩ }

theorem first_settled :
    Settled noClients 7 ⟨1000, 200⟩ (recvConnection noClients 7 ⟨1000, 200⟩ 0) :=
  (settled_iff (by decide) noClients ⟨1000, 200⟩ 0).mpr
    (iff_of_true ⟨_, List.mem_cons_self, by decide⟩ (by decide))

/-- The descriptor that has just been stored is closed. -/
theorem first_closed :
    ¬ Settled noClients 7 ⟨1000, 200⟩ (recvConnection noClients 7 ⟨1000, 200⟩ 40) := by
  have room : Room noClients := ⟨_, List.mem_cons_self, by decide⟩
  rw [Settled, if_pos room]
  rintro ⟨-, open_⟩
  exact open_ (by decide)

end SaceSocketReader
end Sace
