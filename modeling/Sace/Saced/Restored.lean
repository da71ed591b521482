import Sace.Event.Restored

/-! The configuration file over the runs of saced: which maps of events come back from it. -/
namespace Sace
namespace Saced

/-- Every event is listed under the name of its command. -/
theorem reached_named {event : SaceEvent} (named : event.Named) {d : Saced}
    (reached : Runs.Reached step Provided (start event) d) : d.server.event.Named := by
  let kept (d : Saced) : Prop := d.server.event.Named
  have initial : kept (start event) := named
  apply reached.invariant initial
  intro s input t held provided moved
  obtain ⟨server, ran, rfl⟩ := step_eq_some.mp moved
  obtain ⟨service, event⟩ := turn_moved provided ran
  exact SaceEvent.Each.moved held event fun _ _ _ => rfl

/-- Only the map without events comes back from the configuration file. -/
theorem reached_roundTrips {event : SaceEvent} (named : event.Named) {d : Saced}
    (reached : Runs.Reached step Provided (start event) d) (signed : Bool) (fresh : SaceCommand) :
    SaceEvent.RoundTrips signed fresh d.server.event ↔ d.server.event.events = ∅ :=
  SaceEvent.roundTrips_iff (reached_named named reached)

/-! The ADD of a boot event, whose command is read back with a blank in front. -/

theorem boot_reached : ∃ d, Runs.run step (start .bare) addBoot = some d ∧
    Runs.Reached step Provided (start .bare) d := by
  have ran : (Runs.run step (start .bare) addBoot).isSome := by decide +kernel
  obtain ⟨d, ran⟩ := Option.isSome_iff_exists.mp ran
  have admitted : Runs.Admitted step Provided (start .bare) addBoot := by decide +kernel
  exact ⟨d, ran, Runs.run_reached admitted ran⟩

theorem boot_lost : ∃ d, Runs.run step (start .bare) addBoot = some d ∧
    ¬ SaceEvent.RoundTrips true (SaceCommand.init [] 8) d.server.event := by
  obtain ⟨d, ran, reached⟩ := boot_reached
  refine ⟨d, ran, fun trips => ?_⟩
  have empty :=
    (reached_roundTrips SaceEvent.bare_named reached true (SaceCommand.init [] 8)).mp trips
  have count : (Runs.run step (start .bare) addBoot).map (·.server.event.events.size) =
      some 1 := by decide +kernel
  rw [ran, Option.map_some, empty] at count
  cases count

theorem sleep_changed : ¬ ∀ (event : SaceEvent) (d : Saced) (signed : Bool) (fresh : SaceCommand),
    event.Named → Runs.Reached step Provided (start event) d →
    (∀ n ∈ d.server.event.events, ∀ c ∈ n, isSpace c = false) →
    d.server.event.RoundTrips signed fresh := by
  intro restored
  obtain ⟨d, ran, reached⟩ := boot_reached
  have names : (Runs.run step (start .bare) addBoot).map (fun d =>
      d.server.event.events.keys.all (·.all (!isSpace ·))) = some true := by decide +kernel
  have command : (Runs.run step (start .bare) addBoot).map (fun d =>
      ((SaceEvent.readIniFile (SaceCommand.init [] 8)
        (SaceEvent.iniText true d.server.event.eventList)).bind fun table =>
          table[str "svc"]?).map (·.cmd.command)) = some (some (str " sleep 1")) := by
    decide +kernel
  have written : (Runs.run step (start .bare) addBoot).map (fun d =>
      (d.server.event.events[str "svc"]?).bind fun id =>
        (d.server.event.services[id]?).map (·.cmd.command)) = some (some (str "sleep 1")) := by
    decide +kernel
  rw [ran, Option.map_some, Option.some.injEq] at names command written
  have solid (n : Str) (member : n ∈ d.server.event.events) (c : UInt8) (inside : c ∈ n) :
      isSpace c = false := by
    have all := List.all_eq_true.mp names n (Std.ExtTreeMap.mem_keys.mpr member)
    simpa using List.all_eq_true.mp all c inside
  obtain ⟨-, table, read, same⟩ :=
    restored .bare d true (SaceCommand.init [] 8) SaceEvent.bare_named reached solid
  rw [read, Option.bind_some] at command
  have commands := congrArg (Option.map Configured.command) (same (str "svc"))
  simp only [Option.map_bind, Option.map_map, Function.comp_def, EventService.configured,
    command, written] at commands
  exact absurd commands (by decide)

end Saced
end Sace
