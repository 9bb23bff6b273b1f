import Masaka.Subscriptions

/-!
The limit of subscriptions. The table counts its records, one for each identifier;
the filters that are subscribed to are more than that once a record stands for two.
-/
namespace Masaka.Capacity
open Effect Tables Runs MqttProtocolHandler LawfulHandler MqttProtocolEngine Sending Subscriptions
open MqttClient (engine engineSession)

/-- Every record of a request finds room in the table: the first one, and the others once
    the identifier has its record. -/
def Room (s : InMemorySession) (filters : List TopicFilter) : Prop :=
  filters ≠ [] ∧ len s.subscriptions < s.sub_capacity ∧
    (1 < filters.length → s.next_pid ∉ s.subscriptions → len s.subscriptions + 1 < s.sub_capacity)

/-- The table finds room for a request whose filters, with those subscribed to before, are too many. -/
def Miscounts (s : InMemorySession) (held filters : List TopicFilter) : Prop :=
  Room s filters ∧ s.sub_capacity < (filters ++ held).toFinset.card

/-- The filters of the records under other identifiers than the next. -/
def elsewhere (s : InMemorySession) : Finset TopicFilter :=
  ((s.subscriptions.keys.erase s.next_pid).filterMap (filter_at s)).toFinset

theorem mem_elsewhere {s : InMemorySession} {pid : Pid} {topic_filter : TopicFilter} (other : pid ≠ s.next_pid)
    (recorded : filter_at s pid = some topic_filter) : topic_filter ∈ elsewhere s := by
  rw [elsewhere, List.mem_toFinset, List.mem_filterMap]
  refine ⟨pid, (List.mem_erase_of_ne other).mpr ?_, recorded⟩
  obtain ⟨record, stored, -⟩ := Option.map_eq_some_iff.mp recorded
  exact AList.mem_keys.mp (mem_iff_lookup.mpr ⟨record, stored⟩)

/-- With one more record they fit, if the table has room. -/
theorem elsewhere_card {s : InMemorySession} (room : len s.subscriptions < s.sub_capacity) :
    (elsewhere s).card + 1 ≤ s.sub_capacity := by
  have distinct := List.toFinset_card_le ((s.subscriptions.keys.erase s.next_pid).filterMap (filter_at s))
  have mapped := List.length_filterMap_le (filter_at s) (s.subscriptions.keys.erase s.next_pid)
  have erased := List.length_erase_le (a := s.next_pid) (l := s.subscriptions.keys)
  rw [elsewhere]
  rw [len] at room
  omega

/-- A request that replaces nothing does not go beyond what the table counts. -/
theorem counts_right {s : InMemorySession} {held filters : List TopicFilter} (recorded : ∀ f ∈ held, Recorded s f)
    (replaces : ReplacesNothing s filters) : ¬ Miscounts s held filters := by
  rintro ⟨⟨nonempty, room, -⟩, beyond⟩
  obtain ⟨last, ends⟩ : ∃ last, filters.getLast? = some last := ⟨_, List.getLast?_eq_some_getLast nonempty⟩
  have within : (filters ++ held).toFinset ⊆ insert last (elsewhere s) := by
    intro f member
    have placed : f = last ∨ ∃ pid, pid ≠ s.next_pid ∧ filter_at s pid = some f := by
      rcases List.mem_append.mp (List.mem_toFinset.mp member) with new | kept
      · exact replaces last ends f (.inl new)
      · obtain ⟨pid, stored⟩ := recorded f kept
        by_cases here : pid = s.next_pid
        · exact replaces last ends f (.inr (here ▸ stored))
        · exact .inr ⟨pid, here, stored⟩
    rcases placed with rfl | ⟨pid, other, stored⟩
    · exact Finset.mem_insert_self _ _
    · exact Finset.mem_insert_of_mem (mem_elsewhere other stored)
  have fits := elsewhere_card room
  have size := (Finset.card_le_card within).trans (Finset.card_insert_le _ _)
  omega

/-! ### What a request that succeeds tells -/

section
variable {H P E α : Type}

theorem add_subscriptions_room (pid : Pid) {subscriptions : List (TopicFilter × QoS)} (nonempty : subscriptions ≠ [])
    (c : MqttClient H P E) : wp (MqttClient.add_subscriptions pid subscriptions) c fun r _ => r.isOk = true →
      len c.session_state.subscriptions < c.session_state.sub_capacity ∧ (1 < subscriptions.length →
        pid ∉ c.session_state.subscriptions → len c.session_state.subscriptions + 1 < c.session_state.sub_capacity) := by
  refine wp_mono (add_subscriptions_ends pid nonempty c) fun r c' outcome returned => ?_
  obtain ⟨⟨rfl, fits⟩ | ⟨rfl, unfit⟩, -⟩ := outcome
  · exact fits
  · cases returned

end

section
variable [Codec V3.Packet MqttProtoError] [Codec V5.Packet ErrorV5] {v : Version}

/-- A request that succeeds has found room. -/
theorem op_room {c : Client v} {op : Op v} (subscribes : op.filters ≠ []) (idle : c.Idle) :
    wp op.perform c fun r _ => r.isOk = true → Room c.session_state op.filters := by
  refine op_subscribes (Q := fun succeeded _ => succeeded = true → Room c.session_state op.filters) subscribes idle
    (fun _ _ failed => by cases failed) fun subscriptions c' listed same => ?_
  have nonempty : subscriptions ≠ [] := by
    rintro rfl
    exact subscribes listed.symm
  refine wp_mono (add_subscriptions_room c.session_state.next_pid nonempty c') fun r _ room returned => ?_
  have fits := room returned
  rw [same] at fits
  refine ⟨subscribes, fits.1, fun several => fits.2 ?_⟩
  rw [← listed, List.length_map] at several
  exact several

/-- A call that does not miscount keeps the limit. -/
theorem held_card {c : Client v} (idle : c.Idle) {call : Call v} {held : List TopicFilter}
    (counts : ¬ Miscounts c.session_state held call.op.filters) (bounded : held.toFinset.card ≤ c.session_state.sub_capacity) :
    (held_after c held call).toFinset.card ≤ c.session_state.sub_capacity := by
  have fewer : (c.call call).1.isOk = false ∨ call.op.filters = [] → (held_after c held call).toFinset ⊆ held.toFinset := by
    intro nothing f member
    rw [List.mem_toFinset, mem_held_after] at member
    rw [List.mem_toFinset]
    rcases member with ⟨returned, new⟩ | ⟨kept, -⟩
    · rcases nothing with failed | none
      · cases failed.symm.trans returned
      · rw [none] at new
        cases new
    · exact kept
  by_cases adds : call.op.filters = []
  · exact (Finset.card_le_card (fewer (.inr adds))).trans bounded
  cases outcome : (c.call call).1.isOk with
  | false => exact (Finset.card_le_card (fewer (.inl outcome))).trans bounded
  | true =>
    have room : Room c.session_state call.op.filters := op_room (c := c.withWorld call.world) adds idle outcome
    have fits : (call.op.filters ++ held).toFinset.card ≤ c.session_state.sub_capacity := by
      by_contra beyond
      exact counts ⟨room, Nat.not_le.mp beyond⟩
    refine (Finset.card_le_card fun f member => ?_).trans fits
    rw [List.mem_toFinset, mem_held_after] at member
    rw [List.mem_toFinset, List.mem_append]
    exact member.imp And.right And.left

/-- The capacity of a session stays. -/
theorem capacity {c : Client v} (reachable : c.Reachable) : c.session_state.sub_capacity = c.config.max_subscriptions := by
  refine reachable.invariant (I := fun config view => view.session.sub_capacity = config.max_subscriptions)
    (fun _ _ => rfl) (fun _ _ _ same => same) fun config grant view act allowed same => ?_
  refine Eq.trans ?_ same
  change (act.session view.session).sub_capacity = view.session.sub_capacity
  cases act with
  | add pid topic_filter qos =>
    simp only [Act.session, SessionState.add_subscription]
    split <;> rfl
  | confirm pid codes =>
    simp only [Act.session, SessionState.confirm_subscription]
    split
    · split
      · split <;> rfl
      · rfl
    · rfl
  | remove order topic_filter =>
    simp only [Act.session, SessionState.remove_subscription]
    split <;> rfl
  | _ => rfl

/-- As long as the table finds room for no request with too many filters, there are no
    more filters than the capacity; and it does not as long as no request replaces the
    only record of a filter. -/
theorem held_bounded (world : World v.Packet v.Error) (setup : v.Setup) (config : ClientConfig) (calls : List (Call v)) :
    let start : Client v × List TopicFilter := (MqttClient.new world (v.handler setup) config, [])
    (Along step (fun s call => ¬ Miscounts s.1.session_state s.2 call.op.filters) start calls →
      (run step start calls).2.toFinset.card ≤ config.max_subscriptions) ∧
    (Along step (fun s call => ReplacesNothing s.1.session_state call.op.filters) start calls →
      Along step (fun s call => ¬ Miscounts s.1.session_state s.2 call.op.filters) start calls) := by
  intro start
  have reachable : start.1.Reachable := ⟨world, setup, config, [], rfl⟩
  constructor
  · intro counts
    have bounded := Runs.invariant (I := fun s : Client v × List TopicFilter => s.1.Reachable ∧
      s.1.config = config ∧ s.2.toFinset.card ≤ s.1.session_state.sub_capacity) (fun s call holds counts => ?_)
      ⟨reachable, rfl, Nat.zero_le _⟩ counts
    · obtain ⟨reachable, same, card⟩ := bounded
      rw [capacity reachable, same] at card
      exact card
    · obtain ⟨reachable, same, card⟩ := holds
      have kept : (s.1.after call).config = s.1.config := (s.1.call_path reachable.idle call).2.1
      refine ⟨reachable.after call, kept.trans same, ?_⟩
      change (held_after s.1 s.2 call).toFinset.card ≤ (s.1.after call).session_state.sub_capacity
      rw [capacity (reachable.after call), kept, ← capacity reachable]
      exact held_card reachable.idle counts card
  · refine along_imp (I := fun s : Client v × List TopicFilter => s.1.Idle ∧ ∀ f ∈ s.2, Recorded s.1.session_state f)
      (fun s call holds replaces => ?_) (fun s call holds replaces => counts_right holds.2 replaces)
      ⟨reachable.idle, fun f member => (by cases member)⟩
    exact ⟨(s.1.call_path holds.1 call).1, held_call holds.1 holds.2 replaces⟩

end

/-! ### Two filters under one identifier -/

section
local instance : Codec V3.Packet MqttProtoError := Wire.v3Codec
local instance : Codec V5.Packet ErrorV5 := Wire.v5Codec

/-- Room for two subscriptions. -/
def config : ClientConfig := { max_subscriptions := 2 }

def start : Client .v3 × List TopicFilter := (MqttClient.new (.obliging true []) (Version.handler .v3 ()) config, [])
def two : Call .v3 := ⟨.subscribe_multiple [("a", .Level1), ("b", .Level1)], .obliging true []⟩
def one : Call .v3 := ⟨.subscribe "c" .Level1, .obliging true []⟩

theorem held_bounded_two : (run step start [connecting, two]).2.toFinset.card ≤ 2 := by
  refine (held_bounded (v := .v3) (.obliging true []) () config [connecting, two]).1 ⟨?_, ?_, trivial⟩
  · rintro ⟨⟨nonempty, -⟩, -⟩
    exact nonempty rfl
  · rintro ⟨-, beyond⟩
    exact absurd beyond (by decide +kernel)

/-- Two filters take one record, and a third one finds room. -/
theorem capacity_exceeded : ¬ ∀ (world : World V3.Packet MqttProtoError) (config : ClientConfig) (calls : List (Call .v3)),
    (run step ((MqttClient.new world (Version.handler .v3 ()) config : Client .v3), []) calls).2.toFinset.card ≤
      config.max_subscriptions := by
  intro bounded
  have three := bounded (.obliging true []) config [connecting, two, one]
  exact absurd three (by decide +kernel)

end

end Masaka.Capacity
