import Masaka.Attempts

/-!
The delays before the attempts to reconnect. From one failure to the next a delay
grows by the multiplier up to the maximum; only the first delay is not compared with
the maximum.
-/
namespace Masaka.Backoff
open Effect Runs Attempts

/-- No delay exceeds the maximum, and none is shorter than the one before. -/
structure BacksOff (config : ReconnectConfig) (waits : List UInt32) : Prop where
  bounded : ∀ ms ∈ waits, ms ≤ config.max_interval_ms
  growing : waits.IsChain (· ≤ ·)

theorem BacksOff.nil (config : ReconnectConfig) : BacksOff config [] := ⟨by simp, .nil⟩

/-- The product of an interval and a multiplier of at least 1, in 32 bits, is at least the interval. -/
theorem product_ge {multiplier : ℚ} (grows : 1 ≤ multiplier) (ms : UInt32) :
    ms.toNat ≤ min (ms.toNat * multiplier).floor.toNat (2 ^ 32 - 1) := by
  have top := ms.toNat_lt
  have product : (ms.toNat : ℚ) ≤ ms.toNat * multiplier := le_mul_of_one_le_right (by positivity) grows
  have whole : (ms.toNat : ℤ) ≤ (ms.toNat * multiplier).floor := Rat.le_floor_iff.mpr (by exact_mod_cast product)
  omega

/-- An interval within the bounds is followed by one that is at least as long, and within them as well. -/
theorem next_interval_spec {config : ReconnectConfig} (grows : 1 ≤ config.backoff_multiplier)
    (initial : config.initial_interval_ms ≤ config.max_interval_ms) {ms : UInt32} (bounded : ms ≤ config.max_interval_ms) :
    ms ≤ MqttClient.next_interval config ms ∧ MqttClient.next_interval config ms ≤ config.max_interval_ms := by
  unfold MqttClient.next_interval
  by_cases first : ms = 0
  · rw [if_pos first, first]
    exact ⟨UInt32.zero_le, initial⟩
  · rw [if_neg first]
    have product := product_ge grows ms
    generalize taken : UInt32.ofNat (min (ms.toNat * config.backoff_multiplier).floor.toNat (2 ^ 32 - 1)) = next
    have longer : ms ≤ next := by
      rw [← taken, UInt32.le_iff_toNat_le, UInt32.toNat_ofNat', Nat.mod_eq_of_lt (by omega)]
      exact product
    by_cases within : next ≤ config.max_interval_ms
    · rw [show min next config.max_interval_ms = next from if_pos within]
      exact ⟨longer, within⟩
    · rw [show min next config.max_interval_ms = config.max_interval_ms from if_neg within]
      exact ⟨bounded, UInt32.le_refl _⟩

section
variable [Codec V3.Packet MqttProtoError] [Codec V5.Packet ErrorV5] {v : Version}

/-- A client, with the delays since a CONNECT was last accepted. -/
def step (s : Client v × List UInt32) (call : Call v) : Client v × List UInt32 :=
  (s.1.after call, if accepts s.1 call then [] else s.2 ++ delays (s.1.events call))

/-- The interval is the last delay, and the delays back off. -/
structure Backs (config : ReconnectConfig) (s : Client v × List UInt32) : Prop where
  idle : s.1.Idle
  same : s.1.config.reconnect = config
  interval : s.1.reconnect_interval_ms = s.2.getLastD 0
  backs : BacksOff config s.2

omit [Codec V3.Packet MqttProtoError] [Codec V5.Packet ErrorV5] in
/-- One more delay, after the last one. -/
theorem BacksOff.delay {config : ReconnectConfig} (grows : 1 ≤ config.backoff_multiplier)
    (initial : config.initial_interval_ms ≤ config.max_interval_ms) {waits : List UInt32} (backs : BacksOff config waits) :
    BacksOff config (waits ++ [MqttClient.next_interval config (waits.getLastD 0)]) := by
  have last : waits.getLastD 0 ≤ config.max_interval_ms := by
    rw [List.getLastD_eq_getLast?]
    cases ends : waits.getLast? with
    | none => exact UInt32.zero_le
    | some ms => exact backs.bounded ms (List.mem_of_getLast? ends)
  obtain ⟨longer, within⟩ := next_interval_spec grows initial last
  refine ⟨fun ms member => ?_, backs.growing.append (.singleton _) ?_⟩
  · rcases List.mem_append.mp member with before | new
    · exact backs.bounded ms before
    · rw [List.mem_singleton.mp new]
      exact within
  · intro ms ends next first
    rw [List.head?_singleton, Option.mem_some_iff] at first
    have final : waits.getLastD 0 = ms := by
      rw [List.getLastD_eq_getLast?, Option.mem_def.mp ends]
      rfl
    rw [final] at longer first
    rw [← first]
    exact longer

/-- The delays since a CONNECT was last accepted, with that of one more call. -/
def waits (s : Client v × List UInt32) (call : Call v) : List UInt32 := s.2 ++ delays (s.1.events call)

theorem Backs.waits {config : ReconnectConfig} (grows : 1 ≤ config.backoff_multiplier)
    (initial : config.initial_interval_ms ≤ config.max_interval_ms) {s : Client v × List UInt32} (backs : Backs config s)
    (call : Call v) : BacksOff config (waits s call) := by
  obtain ⟨idle, rfl, last, backs⟩ := backs
  rw [Backoff.waits]
  rcases (call_tallied idle call).begins with none | ⟨-, one⟩
  · rw [none, List.append_nil]
    exact backs
  · rw [one, Attempts.interval, last]
    exact backs.delay grows initial

theorem Backs.step {config : ReconnectConfig} (grows : 1 ≤ config.backoff_multiplier)
    (initial : config.initial_interval_ms ≤ config.max_interval_ms) {s : Client v × List UInt32} (backs : Backs config s)
    (call : Call v) : Backs config (step s call) := by
  obtain ⟨idle', config', -⟩ := Client.call_path backs.idle call
  have tallied := call_tallied backs.idle call
  have longer := backs.waits grows initial call
  rw [Backoff.waits] at longer
  suffices after : (s.1.after call).reconnect_interval_ms =
      (if accepts s.1 call then [] else s.2 ++ delays (s.1.events call)).getLastD 0 ∧
        BacksOff config (if accepts s.1 call then [] else s.2 ++ delays (s.1.events call)) from
    ⟨idle', (congrArg (·.reconnect) config').trans backs.same, after.1, after.2⟩
  rw [tallied.interval]
  cases accepts s.1 call with
  | true => exact ⟨rfl, .nil _⟩
  | false =>
    refine ⟨?_, longer⟩
    simp only [Bool.false_eq_true, if_false]
    rcases tallied.begins with none | ⟨-, one⟩
    · rw [none, List.append_nil]
      exact backs.interval
    · rw [one, List.getLastD_concat]
      rfl

/-- Reconnecting is disabled, and there has been no delay. -/
structure Quiescent (s : Client v × List UInt32) : Prop where
  idle : s.1.Idle
  disabled : s.1.config.reconnect.enabled = false
  none : s.2 = []

theorem Quiescent.delays {s : Client v × List UInt32} (quiescent : Quiescent s) (call : Call v) :
    delays (s.1.events call) = [] := by
  rcases (call_tallied quiescent.idle call).begins with none | ⟨⟨enabled, -⟩, -⟩
  · exact none
  · cases quiescent.disabled.symm.trans enabled

theorem Quiescent.step {s : Client v × List UInt32} (quiescent : Quiescent s) (call : Call v) : Quiescent (step s call) := by
  obtain ⟨idle, config, -⟩ := Client.call_path quiescent.idle call
  refine ⟨idle, (congrArg (·.reconnect.enabled) config).trans quiescent.disabled, ?_⟩
  rw [Backoff.step, quiescent.delays call, quiescent.none]
  exact ite_self _

end

/-! ### A maximum below the initial interval -/

section
local instance : Codec V3.Packet MqttProtoError := Wire.v3Codec
local instance : Codec V5.Packet ErrorV5 := Wire.v5Codec

/-- A maximum of half a second, with the initial interval of a second. -/
def half_second : ClientConfig := { reconnect := { max_interval_ms := 500 } }

/-- A reconnect whose CONNECT the broker refuses. -/
def refused : Call .v3 := ⟨.reconnect, .obliging true [.Connack ⟨false, 5⟩]⟩

end

end Masaka.Backoff
