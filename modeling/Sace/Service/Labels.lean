import Sace.Service.Works

/-! Labels: which service a label leads to, and that a service told to have ended is not active
again. -/
namespace Sace.SaceServiceExcutor

def Indexed (s : SaceServiceExcutor) : Prop :=
  ∀ (p : UInt64) (sveInfo : ServiceInfo), s.heap[p]? = some sveInfo →
    s.mSeqService[sveInfo.label]? = some p ∧ p ∈ s.mRunningService

/-- No service with the label is RUNNING or PAUSED. -/
def Over (s : SaceServiceExcutor) (label : UInt64) : Prop :=
  ∀ (p : UInt64) (sveInfo : ServiceInfo), s.heap[p]? = some sveInfo → sveInfo.label = label →
    ¬ sveInfo.Active

structure Kept (s : SaceServiceExcutor) (labels : List UInt64) : Prop where
  owned : s.Owned
  indexed : s.Indexed
  known : ∀ (p : UInt64) (sveInfo : ServiceInfo), s.heap[p]? = some sveInfo →
    sveInfo.label ∈ labels

variable {s t : SaceServiceExcutor} {labels : List UInt64}

theorem Indexed.single (indexed : s.Indexed) {p q : UInt64} {a b : ServiceInfo}
    (heldA : s.heap[p]? = some a) (heldB : s.heap[q]? = some b) (same : a.label = b.label) :
    p = q :=
  Option.some.inj ((indexed p a heldA).1.symm.trans (same ▸ (indexed q b heldB).1))

theorem Over.before {label : UInt64} (ended : Over s label) (before : ActiveBefore s t) :
    Over t label := by
  intro p after held own active
  obtain ⟨info, live, same, wasActive⟩ := before p after held active
  exact ended p info live (same.trans own) wasActive

theorem Kept.empty : Kept {} [] where
  owned := Owned.empty
  indexed p sveInfo held := by simp at held
  known p sveInfo held := by simp at held

theorem Kept.wider {more : List UInt64} (kept : Kept s labels) (wider : labels ⊆ more) :
    Kept s more :=
  ⟨kept.owned, kept.indexed, fun p info held => wider (kept.known p info held)⟩

/-! ### Requests -/

def given (msg : SaceReaderMessage) (answers : StartAnswers) : List UInt64 :=
  if msg.msgCmd.serviceCmdType = .start then
    [(newService msg.msgCmd msg.msgWriter answers).label] else []

theorem Indexed.stored (indexed : s.Indexed) {p : UInt64} {before after : ServiceInfo}
    (live : s.heap[p]? = some before) (label : after.label = before.label) :
    (s.store p after).Indexed := by
  intro q info held
  rcases (Table.insert_some ..).mp held with ⟨rfl, rfl⟩ | ⟨_, held⟩
  · rw [label]
    exact indexed p before live
  · exact indexed q info held

theorem known_stored (known : ∀ (p : UInt64) (sveInfo : ServiceInfo),
      s.heap[p]? = some sveInfo → sveInfo.label ∈ labels) {p : UInt64} {before after : ServiceInfo}
    (live : s.heap[p]? = some before) (label : after.label = before.label) (q : UInt64)
    (sveInfo : ServiceInfo) (held : (s.store p after).heap[q]? = some sveInfo) :
    sveInfo.label ∈ labels := by
  obtain ⟨info, was, same⟩ := store_back ServiceInfo.label live label q sveInfo held
  exact same ▸ known q info was

theorem Kept.added (kept : Kept s labels) {p : UInt64} {sveInfo : ServiceInfo}
    (fresh : p ∉ s.heap) (free : sveInfo.name ∉ s.mNameService) (new : sveInfo.label ∉ labels) :
    Kept (s.add p sveInfo) (labels ++ [sveInfo.label]) where
  owned := kept.owned.added fresh free
  indexed q info held := by
    have unused : s.mSeqService[sveInfo.label]? = none := by
      cases found : s.mSeqService[sveInfo.label]? with
      | none => rfl
      | some r =>
        obtain ⟨other, live, own⟩ := kept.owned.seq _ r found
        exact absurd (own ▸ kept.known r other live) new
    simp only [add, Table.insertIfNew_some unused, List.mem_append, List.mem_singleton]
    rcases (Table.insert_some ..).mp held with ⟨rfl, rfl⟩ | ⟨_, held⟩
    · exact ⟨.inl ⟨rfl, rfl⟩, .inr rfl⟩
    · obtain ⟨found, listed⟩ := kept.indexed q info held
      exact ⟨.inr found, .inl listed⟩
  known q info held := by
    rcases (Table.insert_some ..).mp held with ⟨rfl, rfl⟩ | ⟨_, held⟩
    · exact List.mem_append_right _ (List.mem_singleton_self _)
    · exact List.mem_append_left _ (kept.known q info held)

theorem Kept.change {msg : SaceReaderMessage} {answers : StartAnswers} {result : SaceResult}
    (kept : Kept s labels)
    (fresh : msg.msgCmd.serviceCmdType = .start → answers.address ∉ s.heap)
    (new : ∀ l ∈ given msg answers, l ∉ labels) (change : Change s msg answers t result) :
    Kept t (labels ++ given msg answers) := by
  have owned : t.Owned := kept.owned.change fresh change
  have more : ∀ {p : UInt64} {info : ServiceInfo}, s.heap[p]? = some info →
      info.label ∈ labels ++ given msg answers := fun held =>
    List.mem_append_left _ (kept.known _ _ held)
  cases change with
  | same status => exact ⟨owned, kept.indexed, fun p info held => more held⟩
  | start kind name forked =>
    have gives : given msg answers = [(newService msg.msgCmd msg.msgWriter answers).label] :=
      if_pos kind
    rw [gives]
    apply kept.added (fresh kind) (by rwa [newService_name])
    exact new _ (gives ▸ List.mem_singleton_self _)
  | restate state live =>
    exact ⟨owned, kept.indexed.stored live rfl, known_stored (fun _ _ => more) live rfl⟩
  | @restart p sveInfo kind found live paused =>
    refine ⟨owned, fun q info held => ?_, known_stored (fun _ _ => more) live rfl⟩
    have stored : (s.store p { sveInfo with state := .running }).Indexed :=
      kept.indexed.stored live rfl
    obtain ⟨own, listed⟩ := stored q info held
    exact ⟨own, List.mem_append_left _ listed⟩
  | @query p sveInfo kind found live =>
    have label := (addWriter_identity sveInfo msg.msgWriter).1
    exact ⟨owned, kept.indexed.stored live label, known_stored (fun _ _ => more) live label⟩

def Adds (s : SaceServiceExcutor) (msg : SaceReaderMessage) (answers : StartAnswers) : Prop :=
  msg.msgCmd.serviceCmdType = .start ∧ msg.msgCmd.name ∉ s.mNameService ∧ 0 < answers.fork

instance (s : SaceServiceExcutor) (msg : SaceReaderMessage) (answers : StartAnswers) :
    Decidable (s.Adds msg answers) := inferInstanceAs (Decidable (_ ∧ _ ∧ _))

theorem start_cases {msg : SaceReaderMessage} {env : ParseEnv} {answers : StartAnswers}
    {result : SaceResult} (kind : msg.msgCmd.serviceCmdType = .start)
    (done : (s.request msg env answers).result = .ok (t, result)) :
    ¬ s.Adds msg answers ∧ t = s ∧ result.resultStatus ≠ .ok ∨
      s.Adds msg answers ∧
        t = s.add answers.address (newService msg.msgCmd msg.msgWriter answers) ∧
        result = startedResult msg.msgCmd (newService msg.msgCmd msg.msgWriter answers) := by
  simp only [request, kind, if_true] at done
  by_cases taken : msg.msgCmd.name ∈ s.mNameService
  · rw [startService_taken taken] at done
    cases done
    refine .inl ⟨fun adds => adds.2.1 taken, rfl, ?_⟩
    intro same
    cases same
  · rw [startService_free taken] at done
    obtain ⟨_, _, done⟩ := Traced.bind_ok.mp done
    split at done
    · rename_i forked
      cases done
      exact .inr ⟨⟨kind, taken, forked⟩, rfl, rfl⟩
    · rename_i unforked
      cases done
      refine .inl ⟨fun adds => unforked adds.2.2, rfl, ?_⟩
      intro same
      cases same

theorem start_adds {msg : SaceReaderMessage} {env : ParseEnv} {answers : StartAnswers}
    {result : SaceResult} (kind : msg.msgCmd.serviceCmdType = .start)
    (done : (s.request msg env answers).result = .ok (t, result)) :
    t = s ∧ result.resultStatus ≠ .ok ∨
      t = s.add answers.address (newService msg.msgCmd msg.msgWriter answers) ∧
        result = startedResult msg.msgCmd (newService msg.msgCmd msg.msgWriter answers) := by
  rcases start_cases kind done with ⟨-, refused⟩ | ⟨-, added⟩
  · exact .inl refused
  · exact .inr added

/-- A START does not bring back a label that was given away before. -/
theorem over_request {msg : SaceReaderMessage} {env : ParseEnv} {answers : StartAnswers}
    {result : SaceResult} {label : UInt64} (given_ : label ∈ labels)
    (new : ∀ l ∈ given msg answers, l ∉ labels)
    (done : (s.request msg env answers).result = .ok (t, result)) (ended : Over s label) :
    Over t label := by
  by_cases kind : msg.msgCmd.serviceCmdType = .start
  · rcases start_adds kind done with ⟨rfl, _⟩ | ⟨rfl, _⟩
    · exact ended
    · intro p info held own active
      rcases (Table.insert_some ..).mp held with ⟨_, rfl⟩ | ⟨_, held⟩
      · refine new label ?_ given_
        rw [given, if_pos kind, ← own]
        exact List.mem_singleton_self _
      · exact ended p info held own active
  · exact ended.before (request_active kind done)

/-! ### Passes and the shutdown -/

def told (trace : List Effect) : List SaceStatusResponse :=
  trace.filterMap fun
    | .sendResponse _ response => some response
    | _ => none

theorem mem_told {trace : List Effect} {response : SaceStatusResponse} :
    response ∈ told trace ↔ ∃ wr, .sendResponse wr response ∈ trace := by
  simp only [told, List.mem_filterMap]
  constructor
  · rintro ⟨effect, member, found⟩
    cases effect <;> simp only [reduceCtorEq, Option.some.injEq] at found
    subst found
    exact ⟨_, member⟩
  · rintro ⟨wr, member⟩
    exact ⟨_, member, rfl⟩

/-- A response is about a service that is in no monitored state when the loop is over. -/
theorem pollLoop_told {wait : Nat → WaitAnswer} {i : Nat} {ps : List UInt64} {gc : List Nat}
    (done : (pollLoop wait i ps s).result = .ok (t, gc)) {wr : SaceWriter}
    {response : SaceStatusResponse}
    (sent : .sendResponse wr response ∈ (pollLoop wait i ps s).trace) :
    ∃ (p : UInt64) (before : ServiceInfo), s.heap[p]? = some before ∧
      response.label = before.label ∧
      ∀ after, t.heap[p]? = some after → after.state.monitored = false := by
  induction ps generalizing i s gc with
  | nil => cases sent
  | cons p rest ih =>
    simp only [pollLoop, Traced.bind_ok] at done
    obtain ⟨sveInfo, live, _, _, ⟨t', gc'⟩, tail, done⟩ := done
    cases done
    have held := deref_ok.mp live
    simp only [pollLoop, Traced.mem_bind, deref_trace, List.not_mem_nil, false_or,
      Traced.pure_trace, and_false, exists_false, or_false] at sent
    obtain ⟨info, again, sent | ⟨_, _, sent⟩⟩ := sent
    · cases live.symm.trans again
      cases told : (pollService sveInfo (wait i)).response with
      | none => simp [told, ServiceInfo.sendPolled] at sent
      | some polled =>
        simp only [told, ServiceInfo.sendPolled, ServiceInfo.sendResponse, Traced.emitAll_trace,
          List.mem_map] at sent
        obtain ⟨wr, member, same⟩ := sent
        cases same
        refine ⟨p, sveInfo, held, pollService_response told, fun after later => ?_⟩
        by_contra asked
        rw [Bool.not_eq_false] at asked
        rcases (Table.insert_some ..).mp (pollLoop_monitored tail later asked) with
          ⟨_, rfl⟩ | ⟨other, _⟩
        · rw [told_ended told] at asked
          cases asked
        · exact other rfl
    · cases live.symm.trans again
      obtain ⟨q, before, was, label, ended⟩ := ih tail sent
      obtain ⟨older, live, identity⟩ :=
        (store_same held (pollService_identity sveInfo (wait i))).back was
      simp only [ServiceInfo.identity, Prod.mk.injEq] at identity
      exact ⟨q, older, live, label.trans identity.1.symm, ended⟩

theorem collectLoop_older {gc : List Nat} (done : (collectLoop gc s).result = .ok t) {q : UInt64}
    {sveInfo : ServiceInfo} (held : t.heap[q]? = some sveInfo) : s.heap[q]? = some sveInfo := by
  induction gc generalizing s with
  | nil =>
    cases done
    exact held
  | cons i gc ih =>
    unfold collectLoop at done
    split at done
    · cases done
    · obtain ⟨info, live, rest⟩ := Traced.bind_ok.mp done
      exact ((Table.erase_some ..).mp (ih rest)).2

theorem Indexed.collected {gc : List Nat} (indexed : s.Indexed)
    (done : (collectLoop gc s).result = .ok t) : t.Indexed := by
  induction gc generalizing s with
  | nil =>
    cases done
    exact indexed
  | cons i gc ih =>
    unfold collectLoop at done
    split at done
    · cases done
    · rename_i p at_
      obtain ⟨info, live, rest⟩ := Traced.bind_ok.mp done
      have live := deref_ok.mp live
      refine ih (fun q other held => ?_) rest
      obtain ⟨different, held⟩ := (Table.erase_some ..).mp held
      obtain ⟨found, listed⟩ := indexed q other held
      refine ⟨(Table.erase_some ..).mpr ⟨fun same => ?_, found⟩, ?_⟩
      · exact different (indexed.single live held same)
      · -- only the entry at `i` goes, and it is another service's
        obtain ⟨j, bound, here⟩ := List.getElem_of_mem listed
        have entry : s.mRunningService[j]? = some q := List.getElem?_eq_some_iff.mpr ⟨bound, here⟩
        refine List.mem_eraseIdx_iff_getElem?.mpr ⟨j, ?_, entry⟩
        rintro rfl
        exact different (Option.some.inj (at_.symm.trans entry))

def Older (s t : SaceServiceExcutor) : Prop :=
  ∀ (p : UInt64) (sveInfo : ServiceInfo), t.heap[p]? = some sveInfo →
    ∃ before, s.heap[p]? = some before ∧ before.label = sveInfo.label

theorem pollLoop_older {wait : Nat → WaitAnswer} {i : Nat} {ps : List UInt64} {gc : List Nat}
    (loop : (pollLoop wait i ps s).result = .ok (t, gc)) : Older s t := by
  intro p sveInfo held
  obtain ⟨before, live, identity⟩ := (pollLoop_same loop).back held
  exact ⟨before, live, congrArg Prod.fst identity⟩

/-- A pass keeps the labels in order, and whom it tells of has ended for good. -/
theorem Kept.monitored {wait : Nat → WaitAnswer} (kept : Kept s labels)
    (done : (s.monitorServiceStatus wait).result = .ok t) :
    Kept t labels ∧ ActiveBefore s t ∧
      ∀ response ∈ told (s.monitorServiceStatus wait).trace,
        response.label ∈ labels ∧ Over t response.label := by
  have owned := kept.owned.monitored done
  obtain ⟨⟨u, gc⟩, loop, collected⟩ := Traced.bind_ok.mp done
  have same := pollLoop_same loop
  have older := pollLoop_older loop
  have indexed : u.Indexed := by
    intro p sveInfo held
    obtain ⟨before, live, label⟩ := older p sveInfo held
    rw [same.seq, same.running, ← label]
    exact kept.indexed p before live
  refine ⟨⟨owned, indexed.collected collected, fun p sveInfo held => ?_⟩,
    fun p after held active => ?_, fun response member => ?_⟩
  · obtain ⟨before, live, label⟩ := older p sveInfo (collectLoop_older collected held)
    exact label ▸ kept.known p before live
  · refine ⟨after, pollLoop_monitored loop (collectLoop_older collected held) ?_, rfl, active⟩
    rcases active with running | paused
    · simp [running, ServiceState.monitored]
    · simp [paused, ServiceState.monitored]
  · obtain ⟨wr, sent⟩ := mem_told.mp member
    rw [monitorServiceStatus, Traced.bind_of_ok loop, List.mem_append, collectLoop_trace] at sent
    obtain ⟨p, before, live, label, ended⟩ :=
      pollLoop_told loop (sent.resolve_right List.not_mem_nil)
    refine ⟨label ▸ kept.known p before live, fun q info held own active => ?_⟩
    have held := collectLoop_older collected held
    obtain ⟨first, was, sameLabel⟩ := older q info held
    cases kept.indexed.single was live (sameLabel.trans (own.trans label))
    have none := ended info held
    rcases active with running | paused
    · simp [running, ServiceState.monitored] at none
    · simp [paused, ServiceState.monitored] at none

theorem killAll_told {ps : List UInt64} (done : (killAll ps s).result = .ok t) :
    (∀ (p : UInt64) (sveInfo : ServiceInfo), t.heap[p]? = some sveInfo →
      s.heap[p]? = some sveInfo ∧ p ∉ ps) ∧
    ∀ response ∈ told (killAll ps s).trace, ∃ (p : UInt64) (sveInfo : ServiceInfo),
      p ∈ ps ∧ s.heap[p]? = some sveInfo ∧ response.label = sveInfo.label := by
  induction ps generalizing s with
  | nil =>
    cases done
    exact ⟨fun p sveInfo held => ⟨held, List.not_mem_nil⟩, fun response member => nomatch member⟩
  | cons p rest ih =>
    obtain ⟨sveInfo, live, done⟩ := Traced.bind_ok.mp done
    have live := deref_ok.mp live
    obtain ⟨_, _, done⟩ := Traced.bind_ok.mp done
    obtain ⟨_, _, done⟩ := Traced.bind_ok.mp done
    obtain ⟨older, tells⟩ := ih done
    constructor
    · intro q info held
      obtain ⟨held, later⟩ := older q info held
      obtain ⟨other, held⟩ := (Table.erase_some ..).mp held
      refine ⟨held, fun listed => ?_⟩
      rcases List.mem_cons.mp listed with same | listed
      · exact other same.symm
      · exact later listed
    · intro response member
      obtain ⟨wr, sent⟩ := mem_told.mp member
      rw [killAll, deref_of_live live, Traced.pure_then, Traced.emit_then,
        ServiceInfo.sendResponse, Traced.emitAll_then] at sent
      simp only [List.mem_cons, reduceCtorEq, false_or, List.mem_append, List.mem_map] at sent
      rcases sent with ⟨_, _, same⟩ | sent
      · cases same
        exact ⟨p, sveInfo, List.mem_cons_self, live, rfl⟩
      · obtain ⟨q, info, later, held, label⟩ := tells response (mem_told.mpr ⟨wr, sent⟩)
        exact ⟨q, info, List.mem_cons_of_mem _ later, ((Table.erase_some ..).mp held).2, label⟩

theorem Kept.destroyed (kept : Kept s labels) (done : s.destroy.result = .ok t) :
    Kept t labels ∧ ActiveBefore s t ∧
      ∀ response ∈ told s.destroy.trace, response.label ∈ labels ∧ Over t response.label := by
  obtain ⟨u, killed, emptied⟩ := Traced.bind_ok.mp done
  cases emptied
  obtain ⟨older, tells⟩ := killAll_told killed
  have none : ∀ (p : UInt64) (sveInfo : ServiceInfo), u.heap[p]? ≠ some sveInfo := by
    intro p sveInfo held
    obtain ⟨live, unlisted⟩ := older p sveInfo held
    exact unlisted (kept.indexed p sveInfo live).2
  refine ⟨⟨⟨fun l p found => by simp at found, fun n p found => by simp at found⟩,
    fun p sveInfo held => absurd held (none p sveInfo),
    fun p sveInfo held => absurd held (none p sveInfo)⟩,
    fun p after held => absurd held (none p after), fun response member => ?_⟩
  rw [destroy, Traced.bind_of_ok killed, Traced.pure_trace, List.append_nil] at member
  obtain ⟨p, sveInfo, _, live, label⟩ := tells response member
  exact ⟨label ▸ kept.known p sveInfo live, fun q info held => absurd held (none q info)⟩

/-! ### All the work -/

def givenBy : Work → List UInt64
  | .request msg _ answers => given msg answers
  | _ => []

def Fresh (s : SaceServiceExcutor) : Work → Prop
  | .request msg _ answers => msg.msgCmd.serviceCmdType = .start → answers.address ∉ s.heap
  | _ => True

theorem interruptAll_told (s : SaceServiceExcutor) (ps : List UInt64) :
    told (s.interruptAll ps).trace = [] := by
  apply List.eq_nil_iff_forall_not_mem.mpr
  intro response member
  obtain ⟨wr, sent⟩ := mem_told.mp member
  induction ps with
  | nil => cases sent
  | cons p rest ih =>
    rw [interruptAll, Traced.mem_bind, deref_trace] at sent
    obtain ⟨sveInfo, _, sent⟩ := sent.resolve_left List.not_mem_nil
    rw [Traced.emit_then, List.mem_cons] at sent
    exact ih (mem_told.mpr ⟨wr, sent.resolve_left (by simp)⟩) (sent.resolve_left (by simp))

theorem request_told (s : SaceServiceExcutor) (msg : SaceReaderMessage) (env : ParseEnv)
    (answers : StartAnswers) : told (s.work (.request msg env answers)).trace = [] := by
  apply List.eq_nil_iff_forall_not_mem.mpr
  intro response member
  obtain ⟨wr, sent⟩ := mem_told.mp member
  have silent : Traced.Every (fun effect => effect ≠ .sendResponse wr response)
      (s.request msg env answers) := request_every (by simp) (by simp) (by simp)
  rcases Traced.mem_bind.mp sent with sent | ⟨out, _, sent⟩
  · exact silent _ sent rfl
  · simp at sent

/-- Work keeps the labels in order; a service that is over stays so, and whom the work tells
of is over. -/
theorem Kept.worked {task : Work} (kept : Kept s labels) (fresh : s.Fresh task)
    (new : ∀ l ∈ givenBy task, l ∉ labels) (done : (s.work task).result = .ok t) :
    Kept t (labels ++ givenBy task) ∧ (∀ l ∈ labels, Over s l → Over t l) ∧
      ∀ response ∈ told (s.work task).trace, response.label ∈ labels ∧ Over t response.label := by
  cases task with
  | request msg env answers =>
    rw [request_told]
    obtain ⟨⟨u, result⟩, requested, rest⟩ := Traced.bind_ok.mp done
    cases rest
    exact ⟨kept.change fresh new (request_change requested),
      fun l member ended => over_request member new requested ended,
      fun response member => nomatch member⟩
  | monitor wait =>
    obtain ⟨keptT, before, tells⟩ := kept.monitored done
    exact ⟨keptT.wider (List.subset_append_left ..), fun l _ ended => ended.before before, tells⟩
  | interrupt =>
    obtain ⟨_, interrupted, rest⟩ := Traced.bind_ok.mp done
    cases rest
    refine ⟨kept.wider (List.subset_append_left ..), fun l _ ended => ended, ?_⟩
    rw [work, Traced.bind_of_ok interrupted, Traced.pure_trace, List.append_nil,
      interruptAll_told]
    intro response member
    exact nomatch member
  | destroy =>
    obtain ⟨keptT, before, tells⟩ := kept.destroyed done
    exact ⟨keptT.wider (List.subset_append_left ..), fun l _ ended => ended.before before, tells⟩

end Sace.SaceServiceExcutor
