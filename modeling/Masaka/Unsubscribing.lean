import Masaka.Subscriptions

/-!
Unsubscribing. A filter may have a record under several identifiers; each time it is
unsubscribed from, one of them goes.
-/
namespace Masaka.Unsubscribing
open Effect Tables Runs MqttProtocolHandler LawfulHandler MqttProtocolEngine Subscriptions
open MqttClient (engine engineSession)

/-- The number of records that the filter has. -/
def copies (s : InMemorySession) (topic_filter : TopicFilter) : Nat :=
  s.subscriptions.keys.countP fun pid => filter_at s pid = some topic_filter

theorem copies_pos {s : InMemorySession} {topic_filter : TopicFilter} : 0 < copies s topic_filter ↔ Recorded s topic_filter := by
  rw [copies, List.countP_pos_iff, recorded_iff]
  simp only [decide_eq_true_eq]

theorem copies_records {s s' : InMemorySession} (same : records s' = records s) (f : TopicFilter) : copies s' f = copies s f := by
  have keys : s'.subscriptions = s.subscriptions := congrArg Prod.fst same
  rw [copies, copies, keys]
  simp only [filter_at_records same]

/-- The filters are forgotten: none has a record or is active. -/
def Absent (filters : List TopicFilter) (s : InMemorySession) : Prop :=
  ∀ topic_filter ∈ filters, ¬ Recorded s topic_filter ∧ topic_filter ∉ s.active_topics

/-- Each filter has no more records than it is listed, and is not active without a record. -/
def Removable (s : InMemorySession) (filters : List TopicFilter) : Prop :=
  ∀ topic_filter ∈ filters, copies s topic_filter ≤ filters.count topic_filter ∧
    (topic_filter ∈ s.active_topics → Recorded s topic_filter)

instance (s : InMemorySession) (filters : List TopicFilter) : Decidable (Removable s filters) :=
  inferInstanceAs (Decidable (∀ _ ∈ _, _))

/-- What unsubscribing from the filters makes of the session. -/
structure Removed (filters : List TopicFilter) (s s' : InMemorySession) : Prop where
  copies : ∀ f, copies s' f = copies s f - filters.count f
  active : ∀ f, f ∈ s'.active_topics ↔ f ∈ s.active_topics ∧ ¬ (f ∈ filters ∧ Recorded s f)

theorem Removed.of_records {filters : List TopicFilter} {s t s' : InMemorySession} (removed : Removed filters t s')
    (same : records t = records s) : Removed filters s s' := by
  have recorded : ∀ f, Recorded t f ↔ Recorded s f := fun f => exists_congr fun pid => by rw [filter_at_records same]
  have active : t.active_topics = s.active_topics := congrArg Prod.snd same
  refine ⟨fun f => ?_, fun f => ?_⟩
  · rw [removed.copies, copies_records same]
  · rw [removed.active, active, recorded]

/-- The filters are forgotten exactly if they could be. -/
theorem Removed.absent_iff {filters : List TopicFilter} {s s' : InMemorySession} (removed : Removed filters s s') :
    Absent filters s' ↔ Removable s filters := by
  refine forall_congr' fun f => forall_congr' fun listed => and_congr ?_ ?_
  · rw [← copies_pos, removed.copies]
    omega
  · rw [removed.active]
    simp only [listed, true_and, not_and, not_not]

/-! ### One filter -/

section
variable {s : InMemorySession} {pid : Pid} {topic_filter : TopicFilter}

/-- Without one of its records, a filter has one less, and another filter has as many. -/
theorem copies_erase (stored : filter_at s pid = some topic_filter) (active_topics : HashSet TopicFilter) (f : TopicFilter) :
    copies { s with subscriptions := s.subscriptions.erase pid, active_topics := active_topics } f =
      copies s f - [topic_filter].count f := by
  have listed : pid ∈ s.subscriptions.keys := by
    obtain ⟨record, found, -⟩ := Option.map_eq_some_iff.mp stored
    exact AList.mem_keys.mp (mem_iff_lookup.mpr ⟨record, found⟩)
  have others : (s.subscriptions.keys.erase pid).countP (fun p => filter_at
      { s with subscriptions := s.subscriptions.erase pid, active_topics := active_topics } p = some f) =
        (s.subscriptions.keys.erase pid).countP fun p => filter_at s p = some f := by
    refine List.countP_congr fun p member => ?_
    have other : p ≠ pid := ((List.Nodup.mem_erase_iff s.subscriptions.nodupKeys).mp member).1
    simp only [filter_at, AList.lookup_erase_ne other]
    rfl
  have all : copies s f = [topic_filter].count f + (s.subscriptions.keys.erase pid).countP fun p => filter_at s p = some f := by
    rw [copies, (List.perm_cons_erase listed).countP_eq, List.countP_cons, stored, Nat.add_comm]
    simp [List.count_cons]
  rw [copies, AList.keys_erase, others, all, Nat.add_sub_cancel_left]

/-- One filter is removed: it loses a record, and is not active if it had one. -/
theorem remove_subscription_removed (order : IterOrder Pid) (topic_filter : TopicFilter) (s : InMemorySession) :
    Removed [topic_filter] s (SessionState.remove_subscription order topic_filter s).2 := by
  rw [SessionState.remove_subscription]
  cases found : s.find_subscription_pid order topic_filter with
  | none =>
    have unrecorded : ¬ Recorded s topic_filter := by
      rintro ⟨pid, stored⟩
      obtain ⟨record, stored, same⟩ := Option.map_eq_some_iff.mp stored
      have unfound := List.find?_eq_none.mp (Option.map_eq_none_iff.mp found) (pid, record) (mem_iter.mpr stored)
      exact unfound (decide_eq_true same)
    refine ⟨fun f => ?_, fun f => ?_⟩
    · by_cases same : f = topic_filter
      · subst same
        have none : copies s f = 0 := Nat.eq_zero_of_not_pos fun some => unrecorded (copies_pos.mp some)
        rw [none, Nat.zero_sub]
      · rw [List.count_eq_zero_of_not_mem (by simpa using same), Nat.sub_zero]
    · constructor
      · intro active
        refine ⟨active, ?_⟩
        rintro ⟨listed, recorded⟩
        exact unrecorded (List.mem_singleton.mp listed ▸ recorded)
      · exact And.left
  | some pid =>
    obtain ⟨record, stored, rfl⟩ := InMemorySession.find_subscription_pid_some found
    have held : filter_at s pid = some record.topic_filter := by rw [filter_at, stored]; rfl
    refine ⟨copies_erase held _, fun f => ?_⟩
    change f ∈ s.active_topics.erase record.topic_filter ↔ _
    rw [AList.mem_erase, List.mem_singleton]
    constructor
    · rintro ⟨other, active⟩
      exact ⟨active, fun same => other same.1⟩
    · rintro ⟨active, unlisted⟩
      refine ⟨?_, active⟩
      rintro rfl
      exact unlisted ⟨rfl, pid, held⟩

end

/-- One filter more. -/
theorem Removed.cons {topic_filter : TopicFilter} {rest : List TopicFilter} {s t s' : InMemorySession}
    (first : Removed [topic_filter] s t) (later : Removed rest t s') : Removed (topic_filter :: rest) s s' := by
  refine ⟨fun f => ?_, fun f => ?_⟩
  · rw [later.copies, first.copies, List.count_cons, List.count_cons, List.count_nil]
    omega
  · rw [later.active, first.active, ← copies_pos, ← copies_pos, first.copies, List.mem_cons]
    by_cases same : f = topic_filter
    · subst same
      simp
      omega
    · have others : [topic_filter].count f = 0 := List.count_eq_zero_of_not_mem (by simpa using same)
      rw [others]
      simp [same]

section
variable {H P E : Type}

theorem remove_local_subscriptions_removed (topic_filters : List TopicFilter) (c : MqttClient H P E) :
    wp (MqttClient.remove_local_subscriptions topic_filters) c fun _ c' =>
      Removed topic_filters c.session_state c'.session_state := by
  induction topic_filters generalizing c with
  | nil =>
    refine ⟨fun f => rfl, fun f => ?_⟩
    change f ∈ c.session_state.active_topics ↔ _
    simp
  | cons topic_filter rest ih =>
    change wp (MqttClient.remove_local_subscription topic_filter >>= fun _ =>
      MqttClient.remove_local_subscriptions rest) c _
    rw [wp_bind, MqttClient.remove_local_subscription, wp_modify]
    refine wp_mono (ih _) fun _ c' later => ?_
    exact (remove_subscription_removed c.protocol_engine.world.order topic_filter c.session_state).cons later

end

section
variable [Codec V3.Packet MqttProtoError] [Codec V5.Packet ErrorV5] {v : Version} {c : Client v}

/-- Unsubscribing that succeeds removes a record of each filter. -/
theorem op_removed (op : Op v) (idle : c.Idle) : wp op.perform c fun r c' =>
    op.removes ≠ [] → r.isOk = true → Removed op.removes c.session_state c'.session_state := by
  cases op with
  | unsubscribe topic_filter =>
    let After (succeeded : Bool) (s : InMemorySession) : Prop :=
      [topic_filter] ≠ [] → succeeded = true → Removed [topic_filter] c.session_state s
    refine reply_spec (Q := After) (whenConnected_spec (fun _ failed => by cases failed) ?_)
    refine unsubscribe_spec _ idle (fun _ _ _ failed => by cases failed) fun c' same _ _ => ?_
    refine (remove_subscription_removed c'.protocol_engine.world.order topic_filter c'.session_state).of_records ?_
    rw [same]
    rfl
  | unsubscribe_multiple topic_filters =>
    let After (succeeded : Bool) (s : InMemorySession) : Prop :=
      topic_filters ≠ [] → succeeded = true → Removed topic_filters c.session_state s
    refine reply_spec (Q := After) (whenConnected_spec (fun _ failed => by cases failed) ?_)
    cases topic_filters with
    | nil => exact fun some => absurd rfl some
    | cons topic_filter rest =>
      refine unsubscribe_spec _ idle (fun _ _ _ failed => by cases failed) fun c' same => ?_
      refine wp_mono (remove_local_subscriptions_removed _ c') fun r c'' removed _ _ => removed.of_records ?_
      rw [same]
      rfl
  | _ => exact fun none => absurd rfl none

omit [Codec V3.Packet MqttProtoError] [Codec V5.Packet ErrorV5] in
/-- An act that adds no record of the filters leaves them forgotten. -/
theorem absent_act {H P E : Type} [MqttProtocolHandler H P E] [LawfulHandler H P E] {config : ClientConfig}
    {grant : Grant} {view : View P} {act : Act P} (allowed : act.Allowed H config grant view) {filters : List TopicFilter}
    (adds : ∀ f ∈ filters, f ∉ grant.addable) (absent : Absent filters view.session) :
    Absent filters (act.session view.session) := by
  intro f listed
  obtain ⟨unrecorded, inactive⟩ := absent f listed
  cases act with
  | add pid topic_filter qos =>
    by_cases room : len view.session.subscriptions < view.session.sub_capacity
    · simp only [Act.session, SessionState.add_subscription_room _ _ _ _ room]
      refine ⟨?_, inactive⟩
      rintro ⟨p, held⟩
      rw [filter_at, lookup_insert_if] at held
      split at held
      · cases held
        exact adds _ listed allowed.2.1
      · exact unrecorded ⟨p, held⟩
    · simp only [Act.session, SessionState.add_subscription_full _ _ _ _ room]
      exact ⟨unrecorded, inactive⟩
  | confirm pid return_codes =>
    refine ⟨?_, ?_⟩
    · rintro ⟨p, held⟩
      exact unrecorded ⟨p, (SessionState.confirm_subscription_filters pid return_codes view.session p).symm.trans held⟩
    · intro active
      -- A topic becomes active only with the record that it has.
      simp only [Act.session, SessionState.confirm_subscription] at active
      split at active
      · rename_i subscription return_code stored code
        split at active
        · split at active
          · rcases (AList.mem_insert _).mp active with rfl | before
            · exact unrecorded ⟨pid, by rw [filter_at, stored]; rfl⟩
            · exact inactive before
          · exact inactive active
        · exact inactive active
      · exact inactive active
  | remove order topic_filter =>
    have removed := remove_subscription_removed order topic_filter view.session
    refine ⟨?_, fun active => inactive ((removed.active f).mp active).1⟩
    rintro recorded
    have pos := copies_pos.mpr recorded
    have none : copies view.session f = 0 := Nat.eq_zero_of_not_pos fun some => unrecorded (copies_pos.mp some)
    change 0 < copies (SessionState.remove_subscription order topic_filter view.session).2 f at pos
    rw [removed.copies, none] at pos
    omega
  | clear =>
    refine ⟨?_, AList.notMem_empty f⟩
    rintro ⟨p, held⟩
    cases (congrArg (Option.map SubscriptionInfo.topic_filter) (AList.lookup_empty p)).symm.trans held
  | _ => exact ⟨unrecorded, inactive⟩

/-- A call that does not subscribe to the filters leaves them forgotten. -/
theorem absent_call (idle : c.Idle) {call : Call v} {filters : List TopicFilter}
    (adds : ∀ f ∈ filters, f ∉ call.op.filters) (absent : Absent filters c.session_state) :
    Absent filters (c.after call).session_state :=
  Client.after_invariant (I := fun view => Absent filters view.session) idle (fun _ _ absent => absent)
    (fun _ _ allowed absent => absent_act allowed adds absent) absent

/-- After the call no record and no active topic has one of the filters that it
    unsubscribes from, until they are subscribed to again. -/
def Forgets (c : Client v) (call : Call v) : Prop :=
  ∀ later : List (Call v), (∀ next ∈ later, ∀ f ∈ call.op.removes, f ∉ next.op.filters) →
    Absent call.op.removes ((c.after call).run later).session_state

/-- Unsubscribing forgets the filters exactly if no filter has more records than it is
    listed, or is active without one. -/
theorem forgets_iff (reachable : c.Reachable) {call : Call v} (returned : (c.call call).1.isOk = true) :
    Forgets c call ↔ Removable c.session_state call.op.removes := by
  by_cases unsubscribes : call.op.removes = []
  · rw [Forgets, unsubscribes]
    exact iff_of_true (fun _ _ _ listed => absurd listed List.not_mem_nil) fun _ listed => absurd listed List.not_mem_nil
  have removed : Removed call.op.removes c.session_state (c.after call).session_state :=
    op_removed (c := c.withWorld call.world) call.op reachable.idle unsubscribes returned
  rw [← removed.absent_iff]
  constructor
  · intro forgets
    exact forgets [] (by simp)
  · intro absent later others
    refine (Runs.invariant (I := fun c : Client v => c.Idle ∧ Absent call.op.removes c.session_state)
      (fun c next holds adds => ⟨(c.call_path holds.1 next).1, absent_call holds.1 adds holds.2⟩)
      ⟨(reachable.after call).idle, absent⟩ (along_forall others _)).2

end

/-! ### A filter that was subscribed to twice -/

section
local instance : Codec V3.Packet MqttProtoError := Wire.v3Codec
local instance : Codec V5.Packet ErrorV5 := Wire.v5Codec

/-- A client that has subscribed to a filter at each of the levels. -/
def subscribed (levels : List QoS) : Client .v3 := new_client.run
  (connecting :: levels.map fun qos => ⟨.subscribe "a" qos, .obliging true []⟩)

def unsubscribing : Call .v3 := ⟨.unsubscribe "a", .obliging true []⟩

theorem subscribed_reachable (levels : List QoS) : (subscribed levels).Reachable := ⟨_, (), _, _, rfl⟩

theorem forgets_once : Forgets (subscribed [.Level1]) unsubscribing ↔ Removable (subscribed [.Level1]).session_state ["a"] :=
  forgets_iff (subscribed_reachable _) (by decide +kernel)

/-- Of two records of a filter, one stays. -/
theorem remembers : ¬ ∀ (c : Client .v3) (call : Call .v3), c.Reachable → (c.call call).1.isOk = true → Forgets c call := by
  intro forgets
  have absent := forgets (subscribed [.Level0, .Level1]) unsubscribing (subscribed_reachable _) (by decide +kernel)
    [] (by simp) "a" (by decide)
  have recorded : Recorded ((subscribed [.Level0, .Level1]).after unsubscribing).session_state "a" := by decide +kernel
  exact absent.1 recorded

end

end Masaka.Unsubscribing
