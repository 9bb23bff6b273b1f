import Masaka.History
import Masaka.KeepAlive

/-!
The spacing of retransmissions. A pass sends a message again when it is stamped five seconds
ago, and stamps it; a message that is sent again after a connect is not stamped.
-/
namespace Masaka.Spacing
open Effect Tables MqttProtocolEngine History

/-- The transmissions are spaced, and a message with retries left is stamped no earlier than each of them. -/
structure Spaced (known : List (Sender × Nat)) (stored : Option InflightMessage) : Prop where
  apart : known.Pairwise fun first second => first.2 + RETRY_TIMEOUT_MS ≤ second.2
  stamped : ∀ message, stored = some message → message.retry_count < MAX_RETRY_COUNT →
    ∀ sent ∈ known, sent.2 ≤ message.timestamp

theorem Spaced.retries {known : List (Sender × Nat)} {message : InflightMessage} {time : Nat}
    (spaced : Spaced known (some message)) (due : retries time message = true) :
    ∀ sent ∈ known, sent.2 + RETRY_TIMEOUT_MS ≤ time := by
  intro sent member
  rw [MqttProtocolEngine.retries, Bool.and_eq_true, decide_eq_true_eq, decide_eq_true_eq] at due
  have before := spaced.stamped message rfl due.2 sent member
  have positive : 0 < RETRY_TIMEOUT_MS := by decide
  omega

/-- A message with retries left is stamped no earlier than it is resumed. -/
def Current (time : Nat) (message : InflightMessage) : Prop :=
  message.retry_count < MAX_RETRY_COUNT → time ≤ message.timestamp

theorem spaced_ledger : Ledger on_connection Current False Spaced where
  begins := on_connection_begins
  nothing := ⟨List.Pairwise.nil, by simp⟩
  lost _ _ spaced := ⟨spaced.apart, by simp⟩
  opened _ _ _ _ := ⟨List.Pairwise.nil, by simp [note, on_connection]⟩
  stored _ _ := ⟨List.Pairwise.nil, by simp⟩
  published _ _ := ⟨List.pairwise_singleton _ _, by simp⟩
  resumed pid known message time current _ := by
    refine ⟨List.pairwise_singleton _ _, ?_⟩
    intro other same left sent member
    obtain rfl : message = other := Option.some.inj same
    obtain rfl := List.mem_singleton.mp member
    exact current left
  counted _ known message time due spaced := by
    refine ⟨spaced.apart, ?_⟩
    intro other same _ sent member
    obtain rfl : Retries.counted time message = other := Option.some.inj same
    exact (Nat.le_add_right _ _).trans (spaced.retries due sent member)
  retried known message time due spaced := by
    refine ⟨List.pairwise_append.mpr ⟨spaced.apart, List.pairwise_singleton _ _, ?_⟩, ?_⟩
    · intro first member second last
      rw [List.mem_singleton.mp last]
      exact spaced.retries due first member
    · intro other same _ sent member
      obtain rfl : Retries.counted time message = other := Option.some.inj same
      rcases List.mem_append.mp member with before | last
      · exact (Nat.le_add_right _ _).trans (spaced.retries due sent before)
      · rw [List.mem_singleton.mp last]
        exact Nat.le_refl time

section
variable [Codec V5.Packet ErrorV5] [Codec V3.Packet MqttProtoError] {v : Version}

/-- The transmissions of each message on each connection are spaced, in a run that resumes no message
    with retries left that is stamped earlier than the CONNACK arrived. -/
theorem spaced_run (world : World v.Packet v.Error) (setup : v.Setup) (config : ClientConfig) (calls : List (Call v))
    (current : Runs.Along step (fun s call => ResumesOnly Current s.2 call) (start world setup config) calls) (pid : Pid) :
    (transmissions on_connection pid (Runs.run step (start world setup config) calls).1).Pairwise
      fun first second => first.2 + RETRY_TIMEOUT_MS ≤ second.2 := by
  have along : Runs.Along step (fun s call => ResumesOnly Current s.2 call ∧ (False → Unfaltering s.2 call))
      (start world setup config) calls := Runs.along_mono (fun _ _ resumes => ⟨resumes, False.elim⟩) current
  exact ((spaced_ledger.holds_run world setup config along).2 pid).apart

end

/-! ### A message that is resumed -/

section
local instance : Codec V3.Packet MqttProtoError := Wire.v3Codec
local instance : Codec V5.Packet ErrorV5 := Wire.v5Codec

/-- The clock shows one time, and the broker sends a packet. -/
def at_time (time : Nat) (packet : V3.Packet) : World V3.Packet MqttProtoError :=
  { World.obliging true [packet] with now := fun _ => time }

/-- A message is published, resumed after the connection was lost, and sent again by a poll. -/
def resuming (connected polled : Nat) : List (Call .v3) :=
  [⟨.connect, at_time 0 (.Connack ⟨false, 0⟩)⟩, ⟨.publish "a" [1] ⟨.Level1, false⟩, .obliging true []⟩,
    ⟨.disconnect, .obliging true []⟩, ⟨.connect, at_time connected (.Connack ⟨true, 0⟩)⟩, ⟨.poll, at_time polled .Pingresp⟩]

theorem spaced_resuming : (transmissions on_connection .default (Runs.run step
      (start (v := .v3) (.obliging true []) () { clean_session := false }) (resuming 0 5000)).1).Pairwise
    fun first second => first.2 + RETRY_TIMEOUT_MS ≤ second.2 := by
  refine spaced_run _ _ _ (resuming 0 5000) ⟨?_, ?_, ?_, ?_, ?_, trivial⟩ .default
  · exact fun _ pid message _ _ => Nat.zero_le _
  · exact fun resumes => resumes.elim
  · exact fun resumes => resumes.elim
  · exact fun _ pid message _ _ => Nat.zero_le _
  · exact fun resumes => resumes.elim

/-- A message that was resumed is sent again a millisecond later. -/
theorem resumed_early : ¬ ∀ (world : World V3.Packet MqttProtoError) (config : ClientConfig) (calls : List (Call .v3))
    (pid : Pid), KeepAlive.Monotone (Runs.run step (start (v := .v3) world () config) calls).2.protocol_engine.log →
    (transmissions on_connection pid (Runs.run step (start (v := .v3) world () config) calls).1).Pairwise
      fun first second => first.2 + RETRY_TIMEOUT_MS ≤ second.2 := by
  intro spaced
  have apart := spaced (.obliging true []) { clean_session := false } (resuming 10000 10001) .default (by decide +kernel)
  rw [show transmissions on_connection .default (Runs.run step (start (v := .v3) (.obliging true []) ()
    { clean_session := false }) (resuming 10000 10001)).1 = [(.resume, 10000), (.retry, 10001)] by decide +kernel] at apart
  exact absurd apart (by decide)

end

end Masaka.Spacing
