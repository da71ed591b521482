import Sace.Service.Watched

/-! Signals and reaped children: whom the executor's kill can reach. -/
namespace Sace.Watched

open SaceServiceExcutor

/-! ### What a run keeps -/

/-- Listed services are live, no two live ones have one pid, and a live one that has been reaped
is the one that a pass has saved, which is listed once. -/
structure Sound (s : SaceServiceExcutor) (reaped : List Int) (gc : List Nat) : Prop where
  listed : ∀ p ∈ s.mRunningService, p ∈ s.heap
  owned : s.Owned
  apart : ∀ (p q : UInt64) (a b : ServiceInfo), s.heap[p]? = some a → s.heap[q]? = some b →
    a.pid = b.pid → p = q
  alive : ∀ (p : UInt64) (sveInfo : ServiceInfo), s.heap[p]? = some sveInfo →
    sveInfo.pid ∈ reaped → ∃ i, gc = [i] ∧ s.mRunningService[i]? = some p
  marked : gc = [] ∨ ∃ i p, gc = [i] ∧ s.mRunningService[i]? = some p ∧
    s.mRunningService.count p = 1

variable {s t : SaceServiceExcutor} {reaped after : List Int} {gc : List Nat}

theorem Sound.unreaped (sound : Sound s reaped []) {p : UInt64} {sveInfo : ServiceInfo}
    (live : s.heap[p]? = some sveInfo) : sveInfo.pid ∉ reaped := fun member => by
  obtain ⟨i, none, _⟩ := sound.alive p sveInfo live member
  cases none

/-- Nothing new is in the heap, and nothing that is left in it has been reaped since. -/
theorem Sound.older (sound : Sound s reaped []) (listed : ∀ p ∈ t.mRunningService, p ∈ t.heap)
    (owned : t.Owned)
    (old : ∀ (p : UInt64) (sveInfo : ServiceInfo), t.heap[p]? = some sveInfo →
      ∃ info, s.heap[p]? = some info ∧ info.pid = sveInfo.pid)
    (fewer : ∀ pid ∈ after, pid ∈ reaped) : Sound t after [] where
  listed := listed
  owned := owned
  apart p q a b heldA heldB same := by
    obtain ⟨first, liveA, ownA⟩ := old p a heldA
    obtain ⟨second, liveB, ownB⟩ := old q b heldB
    exact sound.apart p q first second liveA liveB (ownA.trans (same.trans ownB.symm))
  alive p sveInfo held member := by
    obtain ⟨info, live, own⟩ := old p sveInfo held
    exact absurd (own ▸ fewer _ member) (sound.unreaped live)
  marked := .inl rfl

theorem Sound.added {p : UInt64} {sveInfo : ServiceInfo} (sound : Sound s reaped [])
    (fresh : p ∉ s.heap) (free : sveInfo.name ∉ s.mNameService)
    (own : ∀ (q : UInt64) (info : ServiceInfo), s.heap[q]? = some info → info.pid ≠ sveInfo.pid)
    (fewer : ∀ pid ∈ after, pid ∈ reaped ∧ pid ≠ sveInfo.pid) :
    Sound (s.add p sveInfo) after [] where
  listed q member := by
    apply Std.ExtTreeMap.mem_insert.mpr
    rcases List.mem_append.mp member with old | new
    · exact .inr (sound.listed q old)
    · exact .inl (by simp [List.mem_singleton.mp new])
  owned := sound.owned.added fresh free
  apart q r a b heldA heldB same := by
    rcases (Table.insert_some ..).mp heldA with ⟨rfl, rfl⟩ | ⟨_, heldA⟩
    · rcases (Table.insert_some ..).mp heldB with ⟨rfl, rfl⟩ | ⟨_, heldB⟩
      · rfl
      · exact absurd same.symm (own r b heldB)
    · rcases (Table.insert_some ..).mp heldB with ⟨rfl, rfl⟩ | ⟨_, heldB⟩
      · exact absurd same (own q a heldA)
      · exact sound.apart q r a b heldA heldB same
  alive q info held member := by
    rcases (Table.insert_some ..).mp held with ⟨rfl, rfl⟩ | ⟨_, held⟩
    · exact absurd rfl (fewer _ member).2
    · exact absurd (fewer _ member).1 (sound.unreaped held)
  marked := .inl rfl

/-- An object is written to; its pid stays, and it may be listed once more. -/
theorem Sound.restated {p : UInt64} {before : ServiceInfo} (sound : Sound s reaped [])
    (live : s.heap[p]? = some before) (info : ServiceInfo)
    (same : info.identity = before.identity) {running : List UInt64}
    (listed : ∀ q ∈ running, q ∈ s.mRunningService ∨ q = p) :
    Sound { s.store p info with mRunningService := running } reaped [] := by
  have owned : (s.store p info).Owned := sound.owned.same (store_same live same)
  refine sound.older (fun q member => ?_) ⟨owned.seq, owned.names⟩
    (store_back ServiceInfo.pid live (congrArg (fun parts => parts.2.2.1) same))
    fun _ member => member
  apply Std.ExtTreeMap.mem_insert.mpr
  rcases listed q member with old | rfl
  · exact .inr (sound.listed q old)
  · exact .inl (by simp)

theorem Sound.changed {d : Watched} (sound : Sound d.service d.reaped [])
    {msg : SaceReaderMessage} {env : ParseEnv} {answers : StartAnswers} {result : SaceResult}
    (provided : Provided d (.request msg env answers)) (fewer : ∀ pid ∈ after, pid ∈ d.reaped)
    (change : Change d.service msg answers t result)
    (spawned : msg.msgCmd.serviceCmdType = .start → msg.msgCmd.name ∉ d.service.mNameService →
      0 < answers.fork → ∀ pid ∈ after, pid ≠ answers.fork) : Sound t after [] := by
  have owned : t.Owned := sound.owned.change (fun kind => (provided kind).1) change
  have stored : ∀ {p : UInt64} (sveInfo : ServiceInfo), ∀ q ∈ d.service.mRunningService,
      q ∈ (d.service.store p sveInfo).heap := fun sveInfo q member =>
    Std.ExtTreeMap.mem_insert.mpr (.inr (sound.listed q member))
  cases change with
  | same status =>
    exact sound.older sound.listed owned (fun p info held => ⟨info, held, rfl⟩) fewer
  | start kind new forked =>
    obtain ⟨fresh, unused⟩ := provided kind
    refine sound.added fresh (by rwa [newService_name]) ?_ ?_
    · rw [newService_pid]
      exact fun q info held => unused q info held (sound.unreaped held)
    · rw [newService_pid]
      intro pid member
      exact ⟨fewer pid member, spawned kind new forked pid member⟩
  | restate state live =>
    exact sound.older (stored _) owned (store_back ServiceInfo.pid live rfl) fewer
  | @restart p sveInfo kind found live paused =>
    refine sound.older (fun q member => ?_) owned (store_back ServiceInfo.pid live rfl) fewer
    rcases List.mem_append.mp member with old | new
    · exact stored _ q old
    · exact Std.ExtTreeMap.mem_insert.mpr (.inl (by simp [List.mem_singleton.mp new]))
  | query kind found live =>
    exact sound.older (stored _) owned (store_back ServiceInfo.pid live (addWriter_pid _ _)) fewer

/-- A handler's kill reaches its object, and no other. -/
theorem signalService_sound (sound : Sound s reaped []) {cmdType : SaceServiceCommandType}
    {p : UInt64} (held : p ∈ s.heap) :
    ∃ t sveInfo signal, s.heap[p]? = some sveInfo ∧ Sound t reaped [] ∧
      s.signalService cmdType p = ⟨[.kill sveInfo.pid signal], .ok t⟩ := by
  obtain ⟨sveInfo, live⟩ := Table.some_of_mem held
  have stays : ∀ q ∈ s.mRunningService, q ∈ s.mRunningService ∨ q = p := fun q old => .inl old
  simp only [signalService, deref_of_live live, Traced.pure_then]
  by_cases stop : cmdType = .stop
  · rw [if_pos stop]
    exact ⟨_, sveInfo, _, live,
      sound.restated live { sveInfo with state := .finishingUser } rfl stays, rfl⟩
  rw [if_neg stop]
  by_cases pause : cmdType = .pause
  · rw [if_pos pause]
    exact ⟨_, sveInfo, _, live, sound.restated live { sveInfo with state := .paused } rfl stays,
      rfl⟩
  · rw [if_neg pause]
    have longer : ∀ q ∈ s.mRunningService ++ [p], q ∈ s.mRunningService ∨ q = p :=
      fun q member => by simpa using member
    exact ⟨_, sveInfo, _, live, sound.restated live { sveInfo with state := .running } rfl longer,
      rfl⟩

/-- A turn of the polling loop saves the service that it reaps. -/
theorem Sound.polled (sound : Sound s reaped gc) {it : Nat} {p : UInt64} {sveInfo : ServiceInfo}
    {answer : WaitAnswer} (here : s.mRunningService[it]? = some p)
    (live : s.heap[p]? = some sveInfo)
    (tidy : (pollService sveInfo answer).saved → gc = [] ∧ s.mRunningService.count p = 1) :
    Sound (s.store p (pollService sveInfo answer).sveInfo)
      (if (pollService sveInfo answer).response.isSome then reaped ++ [sveInfo.pid] else reaped)
      (if (pollService sveInfo answer).saved then gc ++ [it] else gc) := by
  have same : SameObjects s (s.store p (pollService sveInfo answer).sveInfo) :=
    store_same live (pollService_identity sveInfo answer)
  have apart : ∀ (q r : UInt64) (a b : ServiceInfo),
      (s.store p (pollService sveInfo answer).sveInfo).heap[q]? = some a →
        (s.store p (pollService sveInfo answer).sveInfo).heap[r]? = some b →
          a.pid = b.pid → q = r := by
    intro q r a b heldA heldB own
    obtain ⟨first, liveA, ownA⟩ := same.pid q a heldA
    obtain ⟨second, liveB, ownB⟩ := same.pid r b heldB
    exact sound.apart q r first second liveA liveB (ownA.trans (own.trans ownB.symm))
  refine ⟨same.listed sound.listed, sound.owned.same same, apart, fun q info held member => ?_, ?_⟩
  · obtain ⟨before, liveQ, own⟩ := same.pid q info held
    rw [← own] at member
    by_cases saved : (pollService sveInfo answer).saved
    · obtain ⟨rfl, once⟩ := tidy saved
      refine ⟨it, by rw [if_pos saved]; rfl, ?_⟩
      have reapedHere : before.pid = sveInfo.pid := by
        split at member
        · rcases List.mem_append.mp member with old | new
          · exact absurd old (sound.unreaped liveQ)
          · exact List.mem_singleton.mp new
        · exact absurd member (sound.unreaped liveQ)
      exact sound.apart q p before sveInfo liveQ live reapedHere ▸ here
    · have quiet : ¬ (pollService sveInfo answer).response.isSome := fun told =>
        saved (saved_of_response told)
      rw [if_neg quiet] at member
      obtain ⟨i, only, there⟩ := sound.alive q before liveQ member
      exact ⟨i, by rw [if_neg saved, only], there⟩
  · by_cases saved : (pollService sveInfo answer).saved
    · obtain ⟨rfl, once⟩ := tidy saved
      exact .inr ⟨it, p, by rw [if_pos saved]; rfl, here, once⟩
    · rw [if_neg saved]
      exact sound.marked

theorem eraseIdx_gone {ps : List UInt64} {i : Nat} {p : UInt64} (here : ps[i]? = some p)
    (once : ps.count p = 1) : p ∉ ps.eraseIdx i := by
  obtain ⟨bound, rfl⟩ := List.getElem?_eq_some_iff.mp here
  have counted := (List.getElem_cons_eraseIdx_perm bound).count_eq ps[i]
  rw [List.count_cons_self, once] at counted
  apply List.count_eq_zero.mp
  omega

/-- The erase takes the saved service out of everything. -/
theorem Sound.collected {i : Nat} (sound : Sound s reaped (i :: gc)) :
    gc = [] ∧ ∃ p sveInfo, s.mRunningService[i]? = some p ∧ s.heap[p]? = some sveInfo ∧
      Sound (s.remove i p sveInfo) reaped [] := by
  obtain none | ⟨_, p, only, here, once⟩ := sound.marked
  · cases none
  cases only
  obtain ⟨sveInfo, live⟩ := Table.some_of_mem (sound.listed p (List.mem_of_getElem? here))
  have gone : p ∉ (s.remove i p sveInfo).mRunningService := eraseIdx_gone here once
  have left : ∀ (q : UInt64) (info : ServiceInfo), (s.remove i p sveInfo).heap[q]? = some info →
      p ≠ q ∧ s.heap[q]? = some info := fun q info held => (Table.erase_some ..).mp held
  refine ⟨rfl, p, sveInfo, here, live, fun q member => ?_, sound.owned.removed live,
    fun q r a b heldA heldB => sound.apart q r a b (left q a heldA).2 (left r b heldB).2,
    fun q info held member => ?_, .inl rfl⟩
  · apply Table.mem_erase.mpr
    exact ⟨fun same => gone (same ▸ member), sound.listed q (List.mem_of_mem_eraseIdx member)⟩
  · obtain ⟨other, held⟩ := left q info held
    obtain ⟨j, only, there⟩ := sound.alive q info held member
    cases only
    cases here.symm.trans there
    exact absurd rfl other

/-- Only one of the workers is inside, and what is saved is its own. -/
structure Unreaped (d : Watched) : Prop where
  sound : Sound d.service d.reaped (d.thread.saved ++ d.main.saved)
  alone : d.thread.inside = false ∨ d.main.inside = false
  held : ∀ msg p, d.thread = .signalling msg p → p ∈ d.service.heap

theorem saved_of_outside {place : Place} (outside : place.inside = false) : place.saved = [] := by
  cases place with
  | outside | stopped | signalling | interrupting => rfl
  | polling | collecting => cases outside

namespace Unreaped

variable {d : Watched} {who : Worker}

/-- Nobody has saved anything while nobody is in a pass. -/
theorem idle (kept : Unreaped d) (thread : d.thread.saved = []) (main : d.main.saved = []) :
    Sound d.service d.reaped [] := by
  have sound := kept.sound
  rw [thread, main] at sound
  exact sound

theorem own (kept : Unreaped d) (inside : (d.place who).inside = true) :
    Sound d.service d.reaped (d.place who).saved := by
  have sound := kept.sound
  cases who with
  | thread =>
    have other : d.main.inside = false := kept.alone.resolve_left fun out => by
      cases out.symm.trans inside
    rw [saved_of_outside other, List.append_nil] at sound
    exact sound
  | main =>
    have other : d.thread.inside = false := kept.alone.resolve_right fun out => by
      cases out.symm.trans inside
    rw [saved_of_outside other] at sound
    exact sound

/-- The worker that is inside goes on. -/
theorem moved (kept : Unreaped d) (inside : (d.place who).inside = true) (place : Place)
    (loops : ∀ msg p, place ≠ .signalling msg p) (sound : Sound s reaped place.saved) :
    Unreaped { d.moved place who with service := s, reaped } := by
  cases who with
  | thread =>
    have other : d.main.inside = false := kept.alone.resolve_left fun out => by
      cases out.symm.trans inside
    refine ⟨?_, .inr other, fun msg p at_ => absurd at_ (loops msg p)⟩
    simpa [Watched.moved, saved_of_outside other] using sound
  | main =>
    have other : d.thread.inside = false := kept.alone.resolve_right fun out => by
      cases out.symm.trans inside
    refine ⟨?_, .inl other, fun msg p at_ => ?_⟩
    · simpa [Watched.moved, saved_of_outside other] using sound
    · rw [show d.thread = .signalling msg p from at_] at other
      cases other

theorem goes (kept : Unreaped d) (inside : (d.place who).inside = true) (place : Place)
    (loops : ∀ msg p, place ≠ .signalling msg p) (sound : Sound d.service d.reaped place.saved) :
    Unreaped (d.moved place who) := by
  have moved := kept.moved inside place loops sound
  cases who <;> exact moved

end Unreaped

structure Fine (d : Watched) (input : Input) (out : Exec Watched) : Prop where
  kills : ∀ pid signal, .kill pid signal ∈ out.trace → pid ∉ d.reaped
  live : out.result ≠ .error .useAfterFree
  kept : Provided d input → ∀ e, out.result = .ok e → Unreaped e

theorem fine_pure {d e : Watched} {input : Input} (kept : Unreaped e) :
    Fine d input (pure e) where
  kills _ _ sent := nomatch sent
  live wrong := nomatch wrong
  kept _ _ done := Except.ok.inj done ▸ kept

theorem polled_fine {d : Watched} (kept : Unreaped d) {who : Worker} {it : Nat}
    {answer : WaitAnswer} (at_ : d.place who = .polling it gc)
    (tidy : Tidy d (.poll who answer)) : Fine d (.poll who answer) (d.polled who it gc answer) := by
  have inside : (d.place who).inside = true := by rw [at_]; rfl
  have sound := kept.own inside
  rw [at_] at sound
  unfold polled
  split
  · exact fine_pure (kept.goes inside _ (fun _ _ other => by cases other) sound)
  · rename_i p here
    obtain ⟨sveInfo, live⟩ := Table.some_of_mem (sound.listed p (List.mem_of_getElem? here))
    rw [deref_of_live live, Traced.pure_then]
    dsimp only
    rw [sendPolled_eq, Traced.bind_of_ok rfl]
    refine ⟨fun pid signal sent => ?_, fun wrong => (nomatch wrong), fun _ e done => ?_⟩
    · rw [Traced.pure_trace, List.append_nil] at sent
      obtain ⟨_, _, _, _, _, _, _, other⟩ := sendPolled_sends live sent
      cases other
    · cases done
      exact kept.moved inside _ (fun _ _ other => by cases other)
        (sound.polled here live (by rw [Tidy, at_] at tidy; exact tidy p here sveInfo live))

theorem collected_fine {d : Watched} (kept : Unreaped d) {who : Worker}
    (at_ : d.place who = .collecting gc) :
    Fine d (.collect who) (d.collected who gc) := by
  have inside : (d.place who).inside = true := by rw [at_]; rfl
  have sound := kept.own inside
  rw [at_] at sound
  cases gc with
  | nil =>
    refine fine_pure (kept.goes inside _ (fun _ _ other => ?_) ?_)
    · cases who <;> cases other
    · cases who <;> exact sound
  | cons i gc =>
    obtain ⟨rfl, p, sveInfo, here, live, left⟩ := sound.collected
    simp only [collected, here, deref_of_live live, Traced.pure_then]
    have moved := kept.moved inside (.collecting []) (fun _ _ other => by cases other) left
    cases who <;> exact fine_pure moved

theorem request_spares (sound : Sound s reaped []) {msg : SaceReaderMessage} {env : ParseEnv}
    {answers : StartAnswers} {pid : Int} {signal : Nat}
    (sent : .kill pid signal ∈ (s.work (.request msg env answers)).trace) : pid ∉ reaped := by
  have spared : Traced.Every (fun effect => ∀ pid signal, effect = .kill pid signal →
      pid ∉ reaped) (s.request msg env answers) := by
    apply request_live_every
    · rintro p sveInfo _ live _ _ ⟨rfl, rfl⟩
      exact sound.unreaped live
    · rintro _ _ _ _ ⟨⟩
    · rintro _ _ _ _ ⟨⟩
  rcases Traced.mem_bind.mp sent with sent | ⟨out, _, sent⟩
  · exact spared _ sent pid signal rfl
  · simp at sent

theorem request_fine {d : Watched} (kept : Unreaped d) {msg : SaceReaderMessage}
    {env : ParseEnv} {answers : StartAnswers} (at_ : d.thread = .outside)
    (tidy : Tidy d (.request msg env answers)) {out : Exec Watched}
    (turned : d.turn (.request msg env answers) = some out) :
    Fine d (.request msg env answers) out := by
  have sound : Sound d.service d.reaped [] :=
    kept.idle (by rw [at_]; rfl) (saved_of_outside tidy)
  have alone : d.main.saved = [] := saved_of_outside tidy
  simp only [turn, at_] at turned
  split at turned
  · rename_i p signals
    cases turned
    obtain ⟨_, sveInfo, live, _⟩ := signalled_some.mp signals
    refine fine_pure ⟨?_, .inr tidy, fun _ _ same => ?_⟩
    · rw [alone]
      exact sound
    · cases same
      exact Table.mem_of_some live
  · cases turned
    refine ⟨fun pid signal sent => ?_, fun wrong => ?_, fun provided e done => ?_⟩
    · rw [Traced.bind_pure_eq] at sent
      exact request_spares sound sent
    · rw [Traced.bind_pure_eq] at wrong
      cases done : (d.service.work (.request msg env answers)).result with
      | ok t => simp [done, Except.map] at wrong
      | error fault =>
        simp only [done, Except.map, Except.error.injEq] at wrong
        exact request_faults sound.owned msg env answers (wrong ▸ done)
    · obtain ⟨t, worked, done⟩ := Traced.bind_ok.mp done
      cases done
      obtain ⟨result, requested⟩ := request_work worked
      refine ⟨?_, .inr tidy, fun _ _ same => by cases same⟩
      rw [alone]
      refine sound.changed provided (fun pid member => ?_) (request_change requested)
        fun kind new forked pid member same => ?_
      · exact (List.mem_filter.mp member).1
      · have spawned := start_spawns kind new forked requested
        have unspawned := (List.mem_filter.mp member).2
        subst same
        rw [work, Traced.bind_of_ok requested, List.any_append, spawned] at unspawned
        cases unspawned
  · contradiction

theorem signal_fine {d : Watched} (kept : Unreaped d) {msg : SaceReaderMessage} {p : UInt64}
    (at_ : d.thread = .signalling msg p) :
    Fine d .signal (do
      let service ← d.service.signalService msg.msgCmd.serviceCmdType p
      Traced.emit (.sendResult msg.msgWriter
        { initialResult msg.msgCmd with resultStatus := .ok })
      return { d with service, thread := .polling 0 [] }) := by
  have inside : (d.place .thread).inside = true := by rw [place, at_]; rfl
  have sound := kept.own inside
  rw [place, at_] at sound
  obtain ⟨t, sveInfo, signal, live, left, done⟩ :=
    signalService_sound sound (kept.held msg p at_)
  rw [done, Traced.bind_of_ok rfl, Traced.emit_then]
  refine ⟨fun pid signal sent => ?_, fun wrong => (nomatch wrong), fun _ e ended => ?_⟩
  · simp only [List.cons_append, List.nil_append, List.mem_cons, Traced.pure_trace] at sent
    rcases sent with same | same | none
    · cases same
      exact sound.unreaped live
    · cases same
    · cases none
  · cases ended
    exact kept.moved inside (.polling 0 []) (fun _ _ other => by cases other) left

theorem interrupt_fine {d : Watched} (kept : Unreaped d) {it : Nat} {p : UInt64}
    (at_ : d.main = .interrupting it) (here : d.service.mRunningService[it]? = some p) :
    Fine d .interrupt (do
      let sveInfo ← d.service.deref p
      Traced.emit (.kill sveInfo.pid SIGINT)
      return { d with main := .interrupting (it + 1) }) := by
  have inside : (d.place .main).inside = true := by rw [place, at_]; rfl
  have sound := kept.own inside
  rw [place, at_] at sound
  obtain ⟨sveInfo, live⟩ := Table.some_of_mem (sound.listed p (List.mem_of_getElem? here))
  rw [deref_of_live live, Traced.pure_then, Traced.emit_then]
  refine ⟨fun pid signal sent => ?_, fun wrong => (nomatch wrong), fun _ e ended => ?_⟩
  · cases List.mem_singleton.mp sent
    exact sound.unreaped live
  · cases ended
    exact kept.goes inside (.interrupting (it + 1)) (fun _ _ other => by cases other) sound

theorem destroy_fine {d : Watched} (kept : Unreaped d) (thread : d.thread = .stopped)
    (main : d.main = .stopped) (distinct : d.service.mRunningService.Nodup) :
    Fine d .destroy (d.service.work .destroy >>= fun service => pure { d with service }) := by
  have sound : Sound d.service d.reaped [] :=
    kept.idle (by rw [thread]; rfl) (by rw [main]; rfl)
  obtain ⟨t, done, left, kills⟩ := killAll_live distinct sound.listed
  rw [work, destroy, Traced.bind_of_ok done, Traced.bind_of_ok rfl]
  simp only [Traced.pure_trace, Traced.pure_result, List.append_nil]
  refine ⟨fun pid signal sent => ?_, fun wrong => (by cases wrong), fun _ e ended => ?_⟩
  · obtain ⟨p, sveInfo, live, own⟩ := kills pid signal sent
    exact own ▸ sound.unreaped live
  · cases ended
    refine ⟨?_, kept.alone, fun msg p same => by cases thread.symm.trans same⟩
    rw [thread, main]
    refine sound.older (fun p member => by simp at member) ?_
      (fun p info held => ⟨info, left p info held, rfl⟩) fun _ member => member
    exact ⟨fun l p found => by simp at found, fun n p found => by simp at found⟩

theorem turn_fine {d : Watched} (kept : Unreaped d) {input : Input} (tidy : Tidy d input)
    {out : Exec Watched} (turned : d.turn input = some out) : Fine d input out := by
  cases input with
  | request msg env answers =>
    cases at_ : d.thread with
    | outside => exact request_fine kept at_ tidy turned
    | _ => simp [turn, at_] at turned
  | signal =>
    simp only [turn] at turned
    split at turned
    · rename_i msg p at_
      cases turned
      exact signal_fine kept at_
    · cases turned
  | timeout =>
    simp only [turn] at turned
    split at turned
    · rename_i at_
      cases turned
      refine fine_pure ⟨?_, .inr tidy, fun _ _ other => by cases other⟩
      have sound := kept.sound
      rw [at_] at sound
      exact sound
    · cases turned
  | uninit =>
    simp only [turn] at turned
    split at turned
    · rename_i at_
      cases turned
      refine fine_pure ⟨?_, .inl tidy, kept.held⟩
      have sound := kept.sound
      rw [at_] at sound
      exact sound
    · cases turned
  | interrupt =>
    simp only [turn] at turned
    split at turned
    · rename_i it at_
      split at turned
      · cases turned
        have inside : (d.place .main).inside = true := by rw [place, at_]; rfl
        have sound := kept.own inside
        rw [place, at_] at sound
        exact fine_pure (kept.goes inside (.polling 0 []) (fun _ _ other => by cases other) sound)
      · rename_i p here
        cases turned
        exact interrupt_fine kept at_ here
    · cases turned
  | poll who answer =>
    simp only [turn] at turned
    split at turned
    · cases turned
      exact polled_fine kept ‹_› tidy
    · cases turned
  | collect who =>
    simp only [turn] at turned
    split at turned
    · cases turned
      exact collected_fine kept ‹_›
    · cases turned
  | leave =>
    simp only [turn] at turned
    split at turned
    · rename_i thread main
      cases turned
      refine fine_pure ⟨?_, .inl rfl, fun _ _ other => by cases other⟩
      have sound := kept.sound
      rw [thread] at sound
      exact sound
    · cases turned
  | destroy =>
    simp only [turn] at turned
    split at turned
    · rename_i thread main
      cases turned
      exact destroy_fine kept thread main tidy
    · cases turned

theorem unreaped_start : Unreaped {} where
  sound :=
    { listed := fun p member => nomatch member
      owned := Owned.empty
      apart := fun p q a b held => by simp at held
      alive := fun p sveInfo held => by simp at held
      marked := .inl rfl }
  alone := .inl rfl
  held _ _ other := nomatch other

theorem step_unreaped {d e : Watched} (kept : Unreaped d) {input : Input}
    (provided : Provided d input) (tidy : Tidy d input) (moved : step d input = some e) :
    Unreaped e := by
  obtain ⟨out, turned, done⟩ := Option.bind_eq_some_iff.mp moved
  exact (turn_fine kept tidy turned).kept provided e (Traced.value_eq_some.mp done)

/-- In runs of tidy steps every turn signals only children that have not been reaped. -/
theorem reached_aimed {d : Watched}
    (reached : Runs.Reached step (fun d input => Provided d input ∧ Tidy d input) {} d)
    {input : Input} (tidy : Tidy d input) : Aimed d input := by
  have kept : Unreaped d := reached.invariant unreaped_start
    fun d input e kept allowed moved => step_unreaped kept allowed.1 allowed.2 moved
  exact ⟨fun out turned => (turn_fine kept tidy turned).kills,
    fun out turned => (turn_fine kept tidy turned).live⟩

/-! Services are started and end; then the executor is shut down. -/

/-- The steps of a pass over `listed` services that saves `saved` of them. -/
def pass (who : Worker) (wait : Nat → WaitAnswer) (listed saved : Nat) : List Input :=
  (List.range' 0 listed).map (fun i => .poll who (wait i)) ++
    .poll who .running :: List.replicate (saved + 1) (.collect who)

/-- A turn in which the pass over `listed` services finds those at `ends` ended. -/
def turnInputs (msg : SaceReaderMessage) (answers : StartAnswers) (listed : Nat)
    (ends : List Nat) : List Input :=
  .request msg .empty answers ::
    pass .thread (fun i => if i ∈ ends then .reaped 0 else .running) listed ends.length

def svcShutdown : List Input :=
  turnInputs (startMsg "a") (startAnswers 16 301) 1 [] ++
    turnInputs (startMsg "b") (startAnswers 32 302) 2 [0] ++ [.uninit]

theorem svcShutdown_admitted :
    Runs.Admitted step (fun d input => Provided d input ∧ Tidy d input) {} svcShutdown := by
  decide +kernel

theorem first_ended_aimed : ∃ d out, Runs.run step {} svcShutdown = some d ∧
    d.turn .interrupt = some out ∧ d.reaped = [301] ∧ out.trace = [.kill 302 SIGINT] ∧
      Aimed d .interrupt := by
  have last : (Runs.run step {} svcShutdown).map (fun d => (d.reaped,
      (d.turn .interrupt).map (·.trace))) = some ([301], some [.kill 302 SIGINT]) := by
    decide +kernel
  obtain ⟨d, ran, eq⟩ := Option.map_eq_some_iff.mp last
  simp only [Prod.mk.injEq] at eq
  obtain ⟨out, turned, trace⟩ := Option.map_eq_some_iff.mp eq.2
  exact ⟨d, out, ran, turned, eq.1, trace,
    reached_aimed (Runs.run_reached svcShutdown_admitted ran) trivial⟩

/-- Of three services the first two end in one pass. The second is reaped and stays listed:
onUninit signals its pid. -/
def twoEnd : List Input :=
  turnInputs (startMsg "a") (startAnswers 16 301) 1 [] ++
    turnInputs (startMsg "b") (startAnswers 32 302) 2 [] ++
    turnInputs (startMsg "c") (startAnswers 48 303) 3 [0, 1] ++ [.uninit]

theorem reaped_signalled : ¬ ∀ (d : Watched) (input : Input),
    Runs.Reached step Provided {} d → Provided d input → Aimed d input := by
  intro spared
  have last : (Runs.run step {} twoEnd).map (fun d => (d.reaped,
      (d.turn .interrupt).map (·.trace))) = some ([301, 302], some [.kill 302 SIGINT]) := by
    decide +kernel
  have admitted : Runs.Admitted step Provided {} twoEnd := by decide +kernel
  obtain ⟨d, ran, eq⟩ := Option.map_eq_some_iff.mp last
  simp only [Prod.mk.injEq] at eq
  obtain ⟨out, turned, trace⟩ := Option.map_eq_some_iff.mp eq.2
  have aimed := spared d .interrupt (Runs.run_reached admitted ran) trivial
  apply aimed.kills out turned 302 SIGINT
  · rw [trace]
    exact List.mem_cons_self
  · rw [eq.1]
    decide

/-- A service that the executor's thread has just reaped is signalled by onUninit. -/
example : (Runs.run step {} (turnInputs (startMsg "a") (startAnswers 16 301) 1 [] ++
    [.timeout, .poll .thread (.reaped 0), .uninit])).map (fun d => (d.reaped,
      (d.turn .interrupt).map (·.trace))) = some ([301], some [.kill 301 SIGINT]) := by
  decide +kernel

end Sace.Watched
