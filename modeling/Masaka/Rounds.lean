import Masaka.CleanSession
import Masaka.Identifiers
import Masaka.Monitor

/-!
The rounds of the identifier counter. What is handed out is what a counter shows that
starts with 1, goes on by one from each identifier to the next, and starts again when
the session is cleared: whoever reads the log can tell the next identifier from it.
-/
namespace Masaka.Rounds
open Effect Runs Monitor MqttProtocolHandler LawfulHandler

variable {H P E : Type}

/-- The counter, which refuses every identifier but the next. -/
def step (next : Pid) : Event P → Option Pid
  | .handed_out pid => if pid = next then some next.next else none
  | .cleared => some .default
  | _ => some next

/-- Without a clear, the counter goes on by what is handed out. -/
theorem read_handed {next next' : Pid} {events : List (Event P)} (accepted : read step next events = some next')
    (never : .cleared ∉ events) : next' = Pid.next^[(handed events).length] next := by
  induction events generalizing next with
  | nil =>
    cases accepted
    rfl
  | cons event rest ih =>
    obtain ⟨there, stepped, later⟩ := Option.bind_eq_some_iff.mp accepted
    have goes := ih later fun member => never (List.mem_cons_of_mem _ member)
    cases event with
    | cleared => exact absurd List.mem_cons_self never
    | handed_out pid =>
      simp only [step] at stepped
      split at stepped <;> cases stepped
      exact goes
    | _ =>
      cases stepped
      exact goes

/-- An event that does not concern the counter. -/
theorem step_over {next : Pid} {event : Event P} (kept : ∀ pid, event ≠ .handed_out pid) (never : event ≠ .cleared) :
    step next event = some next := by
  cases event with
  | handed_out pid => exact absurd rfl (kept pid)
  | cleared => exact absurd rfl never
  | _ => rfl

section
variable [MqttProtocolHandler H P E] [LawfulHandler H P E]

/-- The session counts along with its acts. -/
theorem act_counts {config : ClientConfig} {grant : Grant} {v : View P} {act : Act P}
    (allowed : act.Allowed H config grant v) :
    read step v.session.next_pid act.events = some (act.session v.session).next_pid := by
  -- Acts that hand out nothing.
  have aside : act.takes = none → act ≠ .clear → read step v.session.next_pid act.events = some v.session.next_pid :=
    fun nothing other => read_over fun event member => by
      refine step_over (fun pid same => ?_) fun same => other (CleanSession.act_cleared allowed (same ▸ member))
      have given : pid ∈ handed act.events := List.mem_filterMap.mpr ⟨event, member, by rw [same]⟩
      rw [allowed.handed, nothing] at given
      cases given
  cases act with
  | hand_out pid =>
    obtain ⟨-, rfl⟩ := allowed
    simp [Act.events, step]
    rfl
  | accept pid message =>
    obtain ⟨-, rfl, -⟩ := allowed
    simp [Act.events, step]
    rfl
  | clear => rfl
  | add pid topic_filter qos =>
    rw [aside rfl (by simp)]
    exact congrArg some (congrArg (·.1) (SessionState.add_subscription_untouched pid topic_filter qos v.session)).symm
  | confirm pid codes =>
    rw [aside rfl (by simp)]
    exact congrArg some (congrArg (·.1) (SessionState.confirm_subscription_untouched pid codes v.session)).symm
  | remove order topic_filter =>
    rw [aside rfl (by simp)]
    exact congrArg some (congrArg (·.1) (SessionState.remove_subscription_untouched topic_filter order v.session)).symm
  | transmit | release | note | complete | retry | finish | state | link => exact aside rfl (by simp)

end

section
variable [Codec V3.Packet MqttProtoError] [Codec V5.Packet ErrorV5] {v : Version}

/-- The log of every client is counted, and tells its next identifier. -/
theorem reachable_counts {c : Client v} (reachable : c.Reachable) :
    read step .default c.protocol_engine.log = some c.session_state.next_pid :=
  reachable.invariant (I := fun _ view => read step .default view.log = some view.session.next_pid) (fun _ _ => rfl)
    (fun _ _ _ counts => counts) fun _ _ _ _ allowed counts => read_join counts (act_counts allowed)

/-- Between two hand-outs of the same identifier the session was cleared, or the counter went whole rounds. -/
theorem handed_out_apart {c : Client v} (reachable : c.Reachable) {before between after : List (Event v.Packet)} {pid : Pid}
    (log : c.protocol_engine.log = before ++ .handed_out pid :: between ++ .handed_out pid :: after) :
    .cleared ∈ between ∨ 65535 ∣ (handed between).length + 1 := by
  refine or_iff_not_imp_left.mpr fun never => ?_
  have accepted := reachable_counts reachable
  rw [log, List.append_assoc, List.cons_append] at accepted
  obtain ⟨here, next, -, first, rest⟩ := read_event accepted
  obtain ⟨there, last, later, second, -⟩ := read_event rest
  have gone := read_handed later never
  simp only [step] at first second
  split at first <;> cases first
  split at second <;> cases second
  rename_i same same'
  subst same
  -- The counter shows the identifier again after one step for it and one for each that was handed out in between.
  have back : Pid.next^[(handed between).length + 1] pid = pid := by
    rw [Function.iterate_succ_apply, ← gone, same']
  have value := Identifiers.next_iterate ((handed between).length + 1) pid
  rw [back] at value
  have := pid.pos
  have := pid.bound
  omega

end

section
local instance : Codec V3.Packet MqttProtoError := Wire.v3Codec
local instance : Codec V5.Packet ErrorV5 := Wire.v5Codec

/-- A client that connects twice, each time for a message. -/
def restarted : Client .v3 := Client.run (MqttClient.new (.obliging true []) {} {})
  [⟨.connect, .obliging true [.Connack ⟨false, 0⟩]⟩, ⟨.publish "a" [1] ⟨.Level1, false⟩, .obliging true []⟩,
    ⟨.disconnect, .obliging true []⟩, ⟨.connect, .obliging true [.Connack ⟨false, 0⟩]⟩,
    ⟨.publish "b" [2] ⟨.Level1, false⟩, .obliging true []⟩]

/-- What is logged between the two messages. -/
def between : List (Event V3.Packet) := (restarted.protocol_engine.log.drop 9).take 21

theorem restarted_reachable : restarted.Reachable := ⟨_, (), _, _, rfl⟩

theorem handed_out_apart_cleared : .cleared ∈ between ∨ 65535 ∣ (handed between).length + 1 := by
  have log : restarted.protocol_engine.log = restarted.protocol_engine.log.take 8 ++
      .handed_out .default :: between ++ .handed_out .default :: restarted.protocol_engine.log.drop 31 := by decide +kernel
  exact handed_out_apart restarted_reachable log

end

end Masaka.Rounds
