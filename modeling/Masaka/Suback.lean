import Masaka.Subscriptions

/-!
The return codes of a SUBACK. Only the first code is looked at, and it goes to the
one record that the identifier has: that of the last filter.
-/
namespace Masaka.Suback
open Effect Tables Runs Subscriptions

/-- The code has reached the filter: it has an active record and is an active topic,
    or it has a failed record and is not. -/
def Reached (s : InMemorySession) (topic_filter : TopicFilter) (return_code : UInt8) : Prop :=
  if return_code ≤ 2 then
    (∃ pid record, s.subscriptions.lookup pid = some record ∧ record.topic_filter = topic_filter ∧
      record.state = .Active) ∧ topic_filter ∈ s.active_topics
  else
    (∃ pid record, s.subscriptions.lookup pid = some record ∧ record.topic_filter = topic_filter ∧
      record.state = .Failed) ∧ topic_filter ∉ s.active_topics

theorem Reached.recorded {s : InMemorySession} {topic_filter : TopicFilter} {return_code : UInt8}
    (reached : Reached s topic_filter return_code) : Recorded s topic_filter := by
  unfold Reached at reached
  split at reached <;>
  · obtain ⟨⟨pid, record, stored, rfl, -⟩, -⟩ := reached
    exact ⟨pid, by rw [filter_at, stored]; rfl⟩

/-- Since the first state, the identifier has kept its record, and the filters were
    neither recorded anew nor made active. -/
def Untouched (pid : Pid) (filters : List TopicFilter) (s s' : InMemorySession) : Prop :=
  s'.subscriptions.lookup pid = s.subscriptions.lookup pid ∧ ∀ topic_filter ∈ filters,
    (∀ p, filter_at s' p = some topic_filter → filter_at s p = some topic_filter) ∧
      (topic_filter ∈ s'.active_topics → topic_filter ∈ s.active_topics)

theorem Untouched.refl (pid : Pid) (filters : List TopicFilter) (s : InMemorySession) : Untouched pid filters s s :=
  ⟨rfl, fun _ _ => ⟨fun _ held => held, id⟩⟩

/-- The code of the only filter under an identifier. -/
theorem reached_single {s : InMemorySession} {pid : Pid} {topic_filter : TopicFilter}
    (recorded : filter_at s pid = some topic_filter) (inactive : topic_filter ∉ s.active_topics) (return_code : UInt8) :
    Reached (SessionState.confirm_subscription pid [return_code] s).2 topic_filter return_code ↔
      (return_code ≤ 2 → len s.active_topics < s.sub_capacity) := by
  obtain ⟨record, stored, rfl⟩ := Option.map_eq_some_iff.mp recorded
  simp only [SessionState.confirm_subscription, stored, List.head?_cons, Reached]
  by_cases granted : return_code ≤ 2
  · simp only [granted, if_true, forall_const]
    by_cases room : len s.active_topics < s.sub_capacity
    · simp only [room, if_true, iff_true]
      exact ⟨⟨pid, _, AList.lookup_insert _, rfl, rfl⟩, (AList.mem_insert _).mpr (.inl rfl)⟩
    · simp only [room, if_false, iff_false]
      exact fun reached => inactive reached.2
  · simp only [granted, if_false, false_implies, iff_true]
    exact ⟨⟨pid, _, AList.lookup_insert _, rfl, rfl⟩, inactive⟩

section
variable [Codec V3.Packet MqttProtoError] [Codec V5.Packet ErrorV5] {v : Version}

/-- After a call that subscribes to new filters, the codes of its SUBACK reach all of
    them exactly if there is at most one, and room for it if it is granted. -/
theorem codes_reach_iff {c : Client v} (reachable : c.Reachable) {call : Call v} (distinct : call.op.filters.Nodup)
    (new : ∀ topic_filter ∈ call.op.filters,
      ¬ Recorded c.session_state topic_filter ∧ topic_filter ∉ c.session_state.active_topics)
    (returned : (c.call call).1.isOk = true) {s : InMemorySession}
    (untouched : Untouched c.session_state.next_pid call.op.filters (c.after call).session_state s)
    {return_codes : List UInt8} (count : return_codes.length = call.op.filters.length) :
    (∀ entry ∈ call.op.filters.zip return_codes, Reached
      (SessionState.confirm_subscription c.session_state.next_pid return_codes s).2 entry.1 entry.2) ↔
        call.op.filters.length ≤ 1 ∧ ∀ return_code, return_codes.head? = some return_code → return_code ≤ 2 →
          len s.active_topics < s.sub_capacity := by
  by_cases subscribes : call.op.filters = []
  · rw [subscribes] at count ⊢
    cases return_codes with
    | nil => simp
    | cons code rest => cases count
  have added : Added c.session_state.next_pid call.op.filters c.session_state (c.call call).1.isOk
      (c.after call).session_state := op_added (c := c.withWorld call.world) subscribes reachable.idle
  generalize call.op.filters = filters at *
  have newest : filter_at s c.session_state.next_pid = filters.getLast? := by
    rw [filter_at, untouched.1, ← filter_at, added.added returned, List.getLast?_eq_some_getLast subscribes]
    rfl
  have inactive : ∀ f ∈ filters, f ∉ s.active_topics := fun f member active =>
    (new f member).2 (added.active ▸ (untouched.2 f member).2 active)
  -- No other identifier has a record of a filter of the request.
  have only : ∀ f ∈ filters, ∀ p, filter_at s p = some f → p = c.session_state.next_pid := by
    intro f member p held
    by_contra other
    exact (new f member).1 ⟨p, (added.other p other).symm.trans ((untouched.2 f member).1 p held)⟩
  obtain _ | ⟨f, rest⟩ := filters
  · exact absurd rfl subscribes
  obtain _ | ⟨code, codes⟩ := return_codes
  · cases count
  obtain _ | ⟨g, rest⟩ := rest
  · obtain rfl : codes = [] := List.length_eq_zero_iff.mp (Nat.succ.inj count)
    have single := reached_single (newest.trans rfl) (inactive f List.mem_cons_self) code
    simpa using single
  · refine ⟨fun reached => ?_, fun short => absurd short.1 (by simp)⟩
    -- The first filter has lost its record to the last one.
    obtain ⟨p, held⟩ := (reached (f, code) List.mem_cons_self).recorded
    rw [show filter_at _ p = filter_at s p from SessionState.confirm_subscription_filters ..] at held
    obtain rfl := only f List.mem_cons_self p held
    have last : f ∈ g :: rest := List.mem_of_getLast? (by rw [← held, newest]; rfl)
    exact absurd last (List.nodup_cons.mp distinct).1

end

/-! ### Two filters -/

section
local instance : Codec V3.Packet MqttProtoError := Wire.v3Codec
local instance : Codec V5.Packet ErrorV5 := Wire.v5Codec

def connected : Client .v3 := Client.run (MqttClient.new (.obliging true []) (Version.handler .v3 ()) {})
  [⟨.connect, .obliging true [.Connack ⟨false, 0⟩]⟩]
theorem connected_reachable : connected.Reachable := ⟨_, (), _, _, rfl⟩

def subscribing (filters : List TopicFilter) : Call .v3 :=
  ⟨.subscribe_multiple (filters.map fun topic_filter => (topic_filter, .Level1)), .obliging true []⟩

theorem codes_reach_single :
    (∀ entry ∈ ["a"].zip [1], Reached (SessionState.confirm_subscription connected.session_state.next_pid [1]
      (connected.after (subscribing ["a"])).session_state).2 entry.1 entry.2) ↔
        ["a"].length ≤ 1 ∧ ∀ return_code, [(1 : UInt8)].head? = some return_code → return_code ≤ 2 →
          len (connected.after (subscribing ["a"])).session_state.active_topics <
            (connected.after (subscribing ["a"])).session_state.sub_capacity :=
  @codes_reach_iff _ _ .v3 connected connected_reachable (subscribing ["a"]) (by decide) (by decide +kernel)
    (by decide +kernel) _ (.refl _ _ _) [1] rfl

/-- Of two filters that are granted, the first stays without a record. -/
theorem code_misses : ¬ ∀ (c : Client .v3) (call : Call .v3) (return_codes : List UInt8), c.Reachable →
    call.op.filters.Nodup →
    (∀ topic_filter ∈ call.op.filters,
      ¬ Recorded c.session_state topic_filter ∧ topic_filter ∉ c.session_state.active_topics) →
    (c.call call).1.isOk = true → return_codes.length = call.op.filters.length →
    ∀ entry ∈ call.op.filters.zip return_codes, Reached (SessionState.confirm_subscription c.session_state.next_pid
      return_codes (c.after call).session_state).2 entry.1 entry.2 := by
  intro reach
  have reached := reach connected (subscribing ["a", "b"]) [0, 0] connected_reachable (by decide) (by decide +kernel)
    (by decide +kernel) rfl ("a", 0) (by decide)
  exact absurd reached.recorded (by decide +kernel)

end

end Masaka.Suback
