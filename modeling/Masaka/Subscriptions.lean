import Masaka.Operations
import Masaka.Wire

/-!
The records of subscriptions. All filters of a request are recorded under its
identifier, where each record replaces the one before; so a filter keeps a record
only if it is the last of its request, or has one under another identifier.
-/
namespace Masaka.Subscriptions
open Effect Tables Runs MqttProtocolHandler LawfulHandler MqttProtocolEngine Sending
open MqttClient (engine engineSession)

/-- The filter that is recorded under an identifier. -/
def filter_at (s : InMemorySession) (pid : Pid) : Option TopicFilter := (s.subscriptions.lookup pid).map (·.topic_filter)

/-- The filter has a record. -/
def Recorded (s : InMemorySession) (topic_filter : TopicFilter) : Prop := ∃ pid, filter_at s pid = some topic_filter

theorem recorded_iff {s : InMemorySession} {topic_filter : TopicFilter} :
    Recorded s topic_filter ↔ ∃ pid ∈ s.subscriptions.keys, filter_at s pid = some topic_filter := by
  refine ⟨?_, Exists.imp fun _ => And.right⟩
  rintro ⟨pid, held⟩
  refine ⟨pid, ?_, held⟩
  obtain ⟨record, stored, -⟩ := Option.map_eq_some_iff.mp held
  exact AList.mem_keys.mp (mem_iff_lookup.mpr ⟨record, stored⟩)

instance (s : InMemorySession) (topic_filter : TopicFilter) : Decidable (Recorded s topic_filter) :=
  decidable_of_iff _ recorded_iff.symm

/-- Every filter of the request but the last, and the filter that the identifier of the
    request is recorded for, is the last filter or has a record under another identifier. -/
def ReplacesNothing (s : InMemorySession) (filters : List TopicFilter) : Prop :=
  ∀ last, filters.getLast? = some last → ∀ topic_filter,
    topic_filter ∈ filters ∨ filter_at s s.next_pid = some topic_filter →
      topic_filter = last ∨ ∃ pid, pid ≠ s.next_pid ∧ filter_at s pid = some topic_filter

/-- Nothing is replaced by one filter under an identifier that has no record. -/
theorem replaces_nothing_single {s : InMemorySession} (free : filter_at s s.next_pid = none) (topic_filter : TopicFilter) :
    ReplacesNothing s [topic_filter] := by
  rintro last ends other (new | held)
  · cases ends
    exact .inl (List.mem_singleton.mp new)
  · cases free.symm.trans held

theorem replaces_nothing_nil (s : InMemorySession) : ReplacesNothing s [] := fun _ ends => by cases ends

/-- What a request has made of the records: those of other identifiers are as before,
    and the identifier has the last filter, or its old record if the request failed.
    No topic becomes active. -/
structure Added (pid : Pid) (filters : List TopicFilter) (s : InMemorySession) (succeeded : Bool)
    (s' : InMemorySession) : Prop where
  other : ∀ p, p ≠ pid → filter_at s' p = filter_at s p
  added : succeeded = true → filter_at s' pid = filters.getLast?.or (filter_at s pid)
  failed : succeeded = false → ∀ topic_filter, filter_at s pid = some topic_filter → filter_at s' pid = some topic_filter
  active : s'.active_topics = s.active_topics

/-- The part of a session that requests change. -/
def records (s : InMemorySession) : HashMap Pid SubscriptionInfo × HashSet TopicFilter := (s.subscriptions, s.active_topics)

theorem filter_at_records {s s' : InMemorySession} (same : records s' = records s) (pid : Pid) :
    filter_at s' pid = filter_at s pid := by
  rw [filter_at, filter_at, show s'.subscriptions = s.subscriptions from congrArg Prod.fst same]

section
variable {pid : Pid} {filters : List TopicFilter} {s s' t : InMemorySession} {succeeded : Bool}

/-- A request that stopped before it added a record, or had none to add. -/
theorem Added.nothing (same : records s' = records s) (stopped : filters = [] ∨ succeeded = false) :
    Added pid filters s succeeded s' := by
  have unchanged := filter_at_records same
  refine ⟨fun p _ => unchanged p, fun returned => ?_, fun _ _ held => (unchanged pid).trans held, congrArg Prod.snd same⟩
  rcases stopped with rfl | halted
  · rw [unchanged, List.getLast?_nil, Option.none_or]
  · cases halted.symm.trans returned

theorem Added.after (added : Added pid filters s' succeeded t) (same : records s' = records s) :
    Added pid filters s succeeded t := by
  have unchanged := filter_at_records same
  refine ⟨fun p different => (added.other p different).trans (unchanged p), fun returned => ?_, fun halted f held => ?_,
    added.active.trans (congrArg Prod.snd same)⟩
  · rw [added.added returned, unchanged]
  · exact added.failed halted f ((unchanged pid).trans held)

end

section
variable {H P E α β : Type}

/-- The records of a request are added if every one finds room, and refused by the table otherwise. -/
theorem add_subscriptions_ends (pid : Pid) {subscriptions : List (TopicFilter × QoS)} (nonempty : subscriptions ≠ [])
    (c : MqttClient H P E) : wp (MqttClient.add_subscriptions pid subscriptions) c fun r c' =>
      let fits := len c.session_state.subscriptions < c.session_state.sub_capacity ∧ (1 < subscriptions.length →
        pid ∉ c.session_state.subscriptions → len c.session_state.subscriptions + 1 < c.session_state.sub_capacity)
      (r = .ok () ∧ fits ∨ r = .error (.err .Internal) ∧ ¬ fits) ∧ c'.protocol_engine = c.protocol_engine := by
  induction subscriptions generalizing c with
  | nil => exact absurd rfl nonempty
  | cons entry rest ih =>
    change wp (MqttClient.trySession (SessionState.add_subscription pid entry.1 entry.2) >>= fun _ =>
      MqttClient.add_subscriptions pid rest) c _
    rw [wp_bind, wp, Operations.exec_trySession]
    by_cases room : len c.session_state.subscriptions < c.session_state.sub_capacity
    swap
    · rw [SessionState.add_subscription_full _ _ _ _ room]
      exact ⟨.inr ⟨rfl, fun fits => room fits.1⟩, rfl⟩
    rw [SessionState.add_subscription_room _ _ _ _ room]
    cases rest with
    | nil => exact ⟨.inl ⟨rfl, room, fun several => absurd several (Nat.lt_irrefl 1)⟩, rfl⟩
    | cons second rest =>
      refine wp_mono (ih (by simp) _) fun r c' outcome => ?_
      obtain ⟨ends, same⟩ := outcome
      -- The identifier has its record now, so only the first of the others could have found no room.
      have present : pid ∈ c.session_state.subscriptions.insert pid ⟨entry.1, entry.2, .Pending, 0⟩ :=
        (AList.mem_insert _).mpr (.inl rfl)
      refine ⟨ends.imp (And.imp_right fun fits => ⟨room, fun _ absent => ?_⟩) (And.imp_right fun unfit fits => unfit ?_),
        same⟩
      · have still := fits.1
        rw [len_insert_absent absent] at still
        exact still
      · refine ⟨?_, fun _ absent => absurd present absent⟩
        by_cases stored : pid ∈ c.session_state.subscriptions
        · rw [len_insert stored]
          exact room
        · rw [len_insert_absent stored]
          exact fits.2 (by simp) stored

/-- The records of a request, one after the other. -/
theorem add_subscriptions_spec (pid : Pid) (subscriptions : List (TopicFilter × QoS)) (c : MqttClient H P E) :
    wp (MqttClient.add_subscriptions pid subscriptions) c fun r c' =>
      Added pid (subscriptions.map Prod.fst) c.session_state r.isOk c'.session_state ∧
        (len c.session_state.subscriptions < c.session_state.sub_capacity →
          pid ∈ c.session_state.subscriptions → r = .ok ⟨⟩) := by
  induction subscriptions generalizing c with
  | nil => exact ⟨.nothing rfl (.inl rfl), fun _ _ => rfl⟩
  | cons entry rest ih =>
    change wp (MqttClient.trySession (SessionState.add_subscription pid entry.1 entry.2) >>= fun _ =>
      MqttClient.add_subscriptions pid rest) c _
    rw [wp_bind, wp, Operations.exec_trySession]
    by_cases room : len c.session_state.subscriptions < c.session_state.sub_capacity
    · rw [SessionState.add_subscription_room _ _ _ _ room]
      refine wp_mono (ih _) fun r c' next => ?_
      obtain ⟨added, succeeds⟩ := next
      have first : ∀ p, filter_at { c.session_state with
          subscriptions := c.session_state.subscriptions.insert pid ⟨entry.1, entry.2, .Pending, 0⟩ } p =
            if p = pid then some entry.1 else filter_at c.session_state p := fun p => by
        simp only [filter_at, lookup_insert_if]
        split <;> rfl
      -- Once the identifier has a record, no filter finds the table full.
      have still : pid ∈ c.session_state.subscriptions → r = .ok ⟨⟩ := fun present =>
        succeeds (by exact (len_insert present _).trans_lt room) ((AList.mem_insert _).mpr (.inl rfl))
      refine ⟨⟨fun p different => ?_, fun returned => ?_, fun halted f held => ?_, added.active⟩,
        fun _ => still⟩
      · exact (added.other p different).trans ((first p).trans (if_neg different))
      · rw [added.added returned, first, if_pos rfl, List.map_cons, List.getLast?_cons]
        cases (rest.map Prod.fst).getLast? <;> rfl
      · obtain ⟨record, stored, -⟩ := Option.map_eq_some_iff.mp held
        rw [still (mem_iff_lookup.mpr ⟨record, stored⟩)] at halted
        cases halted
    · rw [SessionState.add_subscription_full _ _ _ _ room]
      exact ⟨.nothing rfl (.inr rfl), fun enough => absurd enough room⟩

/-- The check of a request that is made first. -/
theorem whenConnected_spec {request : ClientM H P E Unit} {c : MqttClient H P E}
    {Q : Except (Halt MqttError) Unit → MqttClient H P E → Prop} (refused : Q (.error (.err .InvalidState)) c)
    (next : wp request c Q) : wp (MqttClient.whenConnected request) c Q := by
  rw [MqttClient.whenConnected, wp_bind, wp_get]
  by_cases connected : c.state.connection_state = .Connected
  · simp only [connected, ne_eq, not_true_eq_false, if_false]
    exact next
  · simp only [connected, ne_eq, not_false_eq_true, if_true]
    exact refused

theorem remove_local_subscriptions_ok (topic_filters : List TopicFilter) (c : MqttClient H P E) :
    (exec (MqttClient.remove_local_subscriptions topic_filters) c).1 = .ok ⟨⟩ := by
  induction topic_filters generalizing c with
  | nil => rfl
  | cons topic_filter rest ih => exact ih _

variable [MqttProtocolHandler H P E]

/-- A request that takes an identifier and is sent: the rest sees the session with the next identifier. -/
theorem request_spec {create : Pid → Except E P} {into_error : E → MqttError} {rest : Pid → ClientM H P E α}
    {c : MqttClient H P E} (idle : c.Idle) {Q : Except (Halt MqttError) α → MqttClient H P E → Prop}
    (stop : ∀ h c', c'.session_state = (SessionState.next_pid c.session_state).2 → Q (.error h) c')
    (next : ∀ c', c'.session_state = (SessionState.next_pid c.session_state).2 →
      wp (rest c.session_state.next_pid) c' Q) :
    wp (zoom engineSession next_pid >>= fun pid => ofExcept into_error (create pid) >>= fun packet =>
      zoom engine (send_packet packet) >>= fun _ => rest pid) c Q := by
  rw [wp_bind, wp, Operations.exec_next_pid]
  refine wp_ofExcept_bind (fun packet _ => ?_) fun _ _ => stop _ _ rfl
  rw [wp_bind, wp_zoom]
  refine wp_mono (send_packet_spec packet (by exact idle)) fun r e sent => ?_
  cases r with
  | error h => exact stop h _ rfl
  | ok _ => exact next _ rfl

/-- A request for records: it is refused, or it takes the next identifier and adds them. -/
theorem subscribing_spec {create : Pid → Except E P} {into_error : E → MqttError} {c : MqttClient H P E} (idle : c.Idle)
    {Q : Bool → InMemorySession → Prop} (stopped : ∀ s', records s' = records c.session_state → Q false s')
    {rest : Pid → ClientM H P E PUnit} (adds : ∀ c', c'.session_state = (SessionState.next_pid c.session_state).2 →
      wp (rest c.session_state.next_pid) c' fun r c'' => Q r.isOk c''.session_state) :
    wp (zoom engineSession next_pid >>= fun pid => ofExcept into_error (create pid) >>= fun packet =>
      zoom engine (send_packet packet) >>= fun _ => rest pid) c fun r c' => Q r.isOk c'.session_state :=
  request_spec idle (fun h c' same => stopped _ (by rw [same]; rfl)) adds

theorem subscribe_spec (subscriptions : List (TopicFilter × QoS)) {rest : Pid → ClientM H P E PUnit}
    {c : MqttClient H P E} (idle : c.Idle) {Q : Bool → InMemorySession → Prop}
    (stopped : ∀ s', records s' = records c.session_state → Q false s')
    (adds : ∀ c', c'.session_state = (SessionState.next_pid c.session_state).2 →
      wp (rest c.session_state.next_pid) c' fun r c'' => Q r.isOk c''.session_state) :
    wp (zoom engineSession (subscribe (H := H) subscriptions) >>= rest) c fun r c' => Q r.isOk c'.session_state := by
  simp only [MqttProtocolEngine.subscribe, zoom_bind, zoom_get, zoom_ite, zoom_fail, zoom_ofExcept,
    Operations.zoom_first, zoom_pure, bind_assoc, pure_bind]
  rw [wp_bind, wp_get]
  by_cases connected : c.protocol_engine.connected = true
  · simp only [MqttClient.engineSession_get, connected, Bool.not_true, Bool.false_eq_true, if_false, bind_assoc, pure_bind]
    exact subscribing_spec idle stopped adds
  · simp only [MqttClient.engineSession_get, connected, Bool.not_false, if_true]
    exact stopped _ rfl

theorem unsubscribe_spec (topic_filters : List TopicFilter) {rest : Pid → ClientM H P E PUnit} {c : MqttClient H P E}
    (idle : c.Idle) {Q : Bool → InMemorySession → Prop} (stopped : ∀ s', records s' = records c.session_state → Q false s')
    (removes : ∀ c', c'.session_state = (SessionState.next_pid c.session_state).2 →
      wp (rest c.session_state.next_pid) c' fun r c'' => Q r.isOk c''.session_state) :
    wp (zoom engineSession (unsubscribe (H := H) topic_filters) >>= rest) c fun r c' => Q r.isOk c'.session_state := by
  simp only [MqttProtocolEngine.unsubscribe, zoom_bind, zoom_get, zoom_ite, zoom_fail, zoom_ofExcept,
    Operations.zoom_first, zoom_pure, bind_assoc, pure_bind]
  rw [wp_bind, wp_get]
  by_cases connected : c.protocol_engine.connected = true
  · simp only [MqttClient.engineSession_get, connected, Bool.not_true, Bool.false_eq_true, if_false, bind_assoc, pure_bind]
    exact subscribing_spec idle stopped removes
  · simp only [MqttClient.engineSession_get, connected, Bool.not_false, if_true]
    exact stopped _ rfl

end

section
variable [Codec V3.Packet MqttProtoError] [Codec V5.Packet ErrorV5] {v : Version} {c : Client v}

omit [Codec V3.Packet MqttProtoError] [Codec V5.Packet ErrorV5] in
theorem reply_spec {request : ClientM v.Handler v.Packet v.Error Unit} {Q : Bool → InMemorySession → Prop}
    (spec : wp request c fun r c' => Q r.isOk c'.session_state) :
    wp (request >>= fun _ => pure Reply.unit) c fun r c' => Q r.isOk c'.session_state := by
  rw [wp_bind]
  refine wp_mono spec fun r c' holds => ?_
  cases r <;> exact holds

/-- Subscribing is refused, or it adds its records under the next identifier. -/
theorem op_subscribes {op : Op v} (subscribes : op.filters ≠ []) (idle : c.Idle) {Q : Bool → InMemorySession → Prop}
    (stopped : ∀ s', records s' = records c.session_state → Q false s')
    (adds : ∀ subscriptions (c' : Client v), subscriptions.map Prod.fst = op.filters →
      c'.session_state = (SessionState.next_pid c.session_state).2 →
      wp (MqttClient.add_subscriptions c.session_state.next_pid subscriptions) c' fun r c'' => Q r.isOk c''.session_state) :
    wp op.perform c fun r c' => Q r.isOk c'.session_state := by
  cases op with
  | subscribe topic_filter qos =>
    refine reply_spec (whenConnected_spec (stopped _ rfl) (subscribe_spec _ idle stopped fun c' same => ?_))
    have one : MqttClient.add_subscriptions c.session_state.next_pid [(topic_filter, qos)] =
        (MqttClient.trySession (SessionState.add_subscription c.session_state.next_pid topic_filter qos) :
          ClientM v.Handler v.Packet v.Error Unit) := bind_pure_unit
    rw [← one]
    exact adds _ c' rfl same
  | subscribe_multiple subscriptions =>
    refine reply_spec (whenConnected_spec (stopped _ rfl) ?_)
    cases subscriptions with
    | nil => exact absurd rfl subscribes
    | cons entry rest => exact subscribe_spec _ idle stopped fun c' same => adds _ c' rfl same
  | subscribe_v5 subscriptions config =>
    refine reply_spec (whenConnected_spec (stopped _ rfl) ?_)
    cases subscriptions with
    | nil => exact absurd rfl subscribes
    | cons entry rest => exact subscribing_spec idle stopped fun c' same => adds _ c' rfl same
  | _ => exact absurd rfl subscribes

/-- What subscribing makes of the records. -/
theorem op_added {op : Op v} (subscribes : op.filters ≠ []) (idle : c.Idle) : wp op.perform c fun r c' =>
    Added c.session_state.next_pid op.filters c.session_state r.isOk c'.session_state := by
  refine op_subscribes subscribes idle (fun s' same => .nothing same (.inr rfl)) fun subscriptions c' listed same => ?_
  have kept : records c'.session_state = records c.session_state := by rw [same]; rfl
  rw [← listed]
  exact wp_mono (add_subscriptions_spec _ subscriptions c') fun r c'' added => added.1.after kept

/-- An operation that fails removes no record. -/
theorem op_unsubscribes {op : Op v} (removes : op.removes ≠ []) (idle : c.Idle) : wp op.perform c fun r c' =>
    r.isOk = false → c'.session_state.subscriptions = c.session_state.subscriptions := by
  let Same (succeeded : Bool) (s : InMemorySession) : Prop :=
    succeeded = false → s.subscriptions = c.session_state.subscriptions
  cases op with
  | unsubscribe topic_filter =>
    refine reply_spec (Q := Same) (whenConnected_spec (fun _ => rfl) ?_)
    exact unsubscribe_spec [topic_filter] idle (fun s' same _ => congrArg Prod.fst same) fun c' _ failed => by cases failed
  | unsubscribe_multiple topic_filters =>
    refine reply_spec (Q := Same) (whenConnected_spec (fun _ => rfl) ?_)
    cases topic_filters with
    | nil => exact absurd rfl removes
    | cons topic_filter rest =>
      refine unsubscribe_spec _ idle (fun s' same _ => congrArg Prod.fst same) fun c' _ failed => ?_
      rw [remove_local_subscriptions_ok] at failed
      cases failed
  | _ => exact absurd rfl removes

omit [Codec V3.Packet MqttProtoError] [Codec V5.Packet ErrorV5] in
/-- An act that adds no record keeps that of a filter, unless it may remove it. -/
theorem recorded_act {H P E : Type} [MqttProtocolHandler H P E] [LawfulHandler H P E] {config : ClientConfig}
    {grant : Grant} {view : View P} {act : Act P} (allowed : act.Allowed H config grant view) (adds : grant.addable = [])
    {topic_filter : TopicFilter} (recorded : Recorded view.session topic_filter) :
    Recorded (act.session view.session) topic_filter ∨ topic_filter ∈ grant.removable ∨ .cleared ∈ act.events := by
  obtain ⟨pid, held⟩ := recorded
  cases act with
  | add taken other qos =>
    have member := allowed.2.1
    rw [adds] at member
    cases member
  | confirm taken codes =>
    exact .inl ⟨pid, (SessionState.confirm_subscription_filters taken codes view.session pid).trans held⟩
  | remove order other =>
    rcases SessionState.remove_subscription_lookup other order view.session pid with same | ⟨-, record, stored, filter⟩
    · exact .inl ⟨pid, (congrArg (Option.map SubscriptionInfo.topic_filter) same).trans held⟩
    · rw [filter_at, stored] at held
      cases held
      exact .inr (.inl (show record.topic_filter ∈ grant.removable from filter.symm ▸ allowed))
  | clear => exact .inr (.inr (List.mem_singleton_self _))
  | _ => exact .inl ⟨pid, held⟩

/-- A call that subscribes to nothing keeps the record of a filter, unless it may remove it. -/
theorem recorded_call (idle : c.Idle) {call : Call v} (adds : call.op.filters = []) {topic_filter : TopicFilter}
    (recorded : Recorded c.session_state topic_filter) :
    Recorded (c.after call).session_state topic_filter ∨ topic_filter ∈ call.op.removes ∨ .cleared ∈ c.events call := by
  have after : ∃ more, (c.after call).view.log = c.protocol_engine.log ++ more ∧
      (Recorded (c.after call).view.session topic_filter ∨ topic_filter ∈ call.op.removes ∨ Event.cleared ∈ more) := by
    refine Client.after_invariant (I := fun view => ∃ more, view.log = c.protocol_engine.log ++ more ∧
      (Recorded view.session topic_filter ∨ topic_filter ∈ call.op.removes ∨ Event.cleared ∈ more)) idle
      (fun _ _ holds => holds) (fun view act allowed holds => ?_) ⟨[], (List.append_nil _).symm, .inl recorded⟩
    obtain ⟨more, log, kept⟩ := holds
    refine ⟨more ++ act.events, by rw [← List.append_assoc, ← log]; rfl, ?_⟩
    rcases kept with recorded | removed | cleared
    · exact (recorded_act allowed adds recorded).imp_right (.imp_right (List.mem_append_right _))
    · exact .inr (.inl removed)
    · exact .inr (.inr (List.mem_append_left _ cleared))
  obtain ⟨more, log, kept⟩ := after
  have events : c.events call = more := by
    rw [Client.events, show (c.after call).protocol_engine.log = _ from log, List.drop_left]
  rw [events]
  exact kept

/-! ### Runs -/

/-- The session was cleared. -/
def clears {P : Type} : Event P → Bool
  | .cleared => true
  | _ => false

/-- The filters that must have a record after a call: those that were subscribed to,
    but for those that were unsubscribed from or cleared since. -/
def held_after (c : Client v) (held : List TopicFilter) (call : Call v) : List TopicFilter :=
  let kept := if (c.events call).any clears then [] else held
  if (c.call call).1.isOk then call.op.filters ++ kept.filter (· ∉ call.op.removes) else kept

/-- A client, with the filters that must have a record. -/
def step (s : Client v × List TopicFilter) (call : Call v) : Client v × List TopicFilter :=
  (s.1.after call, held_after s.1 s.2 call)

theorem mem_held_after {held : List TopicFilter} {call : Call v} {topic_filter : TopicFilter} :
    topic_filter ∈ held_after c held call ↔
      (c.call call).1.isOk = true ∧ topic_filter ∈ call.op.filters ∨
        topic_filter ∈ held ∧ (c.events call).any clears = false ∧
          ((c.call call).1.isOk = true → topic_filter ∉ call.op.removes) := by
  rw [held_after]
  cases (c.events call).any clears <;> cases (c.call call).1.isOk <;> simp

theorem held_call (idle : c.Idle) {call : Call v} {held : List TopicFilter}
    (recorded : ∀ f ∈ held, Recorded c.session_state f) (replaces : ReplacesNothing c.session_state call.op.filters) :
    ∀ f ∈ held_after c held call, Recorded (c.after call).session_state f := by
  intro f member
  rw [mem_held_after] at member
  by_cases adds : call.op.filters = []
  · rw [adds] at member
    obtain ⟨kept, uncleared, unremoved⟩ := member.resolve_left fun new => List.not_mem_nil new.2
    rcases recorded_call idle adds (recorded f kept) with still | removed | cleared
    · exact still
    · -- Only an operation that succeeds removes records.
      cases outcome : (c.call call).1.isOk with
      | true => exact absurd removed (unremoved outcome)
      | false =>
        obtain ⟨pid, before⟩ := recorded f kept
        have same := op_unsubscribes (c := c.withWorld call.world) (List.ne_nil_of_mem removed) idle outcome
        refine ⟨pid, ?_⟩
        rw [filter_at, show (c.after call).session_state.subscriptions = c.session_state.subscriptions from same]
        exact before
    · have : (c.events call).any clears = true := List.any_eq_true.mpr ⟨_, cleared, rfl⟩
      rw [uncleared] at this
      cases this
  · have added : Added c.session_state.next_pid call.op.filters c.session_state (c.call call).1.isOk
        (c.after call).session_state := op_added (c := c.withWorld call.world) adds idle
    obtain ⟨last, ends⟩ : ∃ last, call.op.filters.getLast? = some last := ⟨_, List.getLast?_eq_some_getLast adds⟩
    have newest : (c.call call).1.isOk = true → Recorded (c.after call).session_state last := fun returned =>
      ⟨_, (added.added returned).trans (by rw [ends]; rfl)⟩
    have elsewhere : (∃ pid, pid ≠ c.session_state.next_pid ∧ filter_at c.session_state pid = some f) →
        Recorded (c.after call).session_state f := Exists.imp fun pid held => (added.other pid held.1).trans held.2
    rcases member with ⟨returned, new⟩ | ⟨kept, -⟩
    · rcases replaces last ends f (.inl new) with rfl | other
      · exact newest returned
      · exact elsewhere other
    · obtain ⟨pid, before⟩ := recorded f kept
      by_cases here : pid = c.session_state.next_pid
      · subst here
        cases outcome : (c.call call).1.isOk with
        | true =>
          rcases replaces last ends f (.inr before) with rfl | other
          · exact newest outcome
          · exact elsewhere other
        | false => exact ⟨_, added.failed outcome f before⟩
      · exact elsewhere ⟨pid, here, before⟩

/-- As long as no request replaces the only record of a filter, every filter that was
    subscribed to has a record. -/
theorem held_recorded (world : World v.Packet v.Error) (setup : v.Setup) (config : ClientConfig) {calls : List (Call v)}
    (replaces : Along step (fun s call => ReplacesNothing s.1.session_state call.op.filters)
      (MqttClient.new world (v.handler setup) config, []) calls) :
    let s := run step (MqttClient.new world (v.handler setup) config, []) calls
    ∀ topic_filter ∈ s.2, Recorded s.1.session_state topic_filter := by
  refine (Runs.invariant (I := fun s : Client v × List TopicFilter => s.1.Idle ∧ ∀ f ∈ s.2, Recorded s.1.session_state f)
    (fun s call holds replaces => ⟨(s.1.call_path holds.1 call).1, held_call holds.1 holds.2 replaces⟩)
    ⟨MqttClient.new_idle .., by simp⟩ replaces).2

end

/-! ### Two filters in one request -/

section
local instance : Codec V3.Packet MqttProtoError := Wire.v3Codec
local instance : Codec V5.Packet ErrorV5 := Wire.v5Codec

def new_client : Client .v3 := MqttClient.new (.obliging true []) (Version.handler .v3 ()) {}
def connecting : Call .v3 := ⟨.connect, .obliging true [.Connack ⟨false, 0⟩]⟩

/-- Two filters are subscribed to, one by one, and the first is unsubscribed from. -/
def one_by_one : List (Call .v3) :=
  [connecting, ⟨.subscribe "a" .Level1, .obliging true []⟩, ⟨.subscribe "b" .Level1, .obliging true []⟩,
    ⟨.unsubscribe "a", .obliging true []⟩]

theorem held_recorded_one_by_one : (run step (new_client, []) one_by_one).2 = ["b"] ∧
    ∀ topic_filter ∈ (run step (new_client, []) one_by_one).2,
      Recorded (run step (new_client, []) one_by_one).1.session_state topic_filter :=
  ⟨by decide +kernel, held_recorded (v := .v3) _ () _ ⟨replaces_nothing_nil _,
    replaces_nothing_single (by decide +kernel) _, replaces_nothing_single (by decide +kernel) _, replaces_nothing_nil _,
    trivial⟩⟩

/-- Of two filters that are subscribed to at once, the first has no record. -/
theorem record_lost : ¬ ∀ (world : World V3.Packet MqttProtoError) (config : ClientConfig) (calls : List (Call .v3)),
    let s := run step ((MqttClient.new world (Version.handler .v3 ()) config : Client .v3), []) calls
    ∀ topic_filter ∈ s.2, Recorded s.1.session_state topic_filter := by
  intro recorded
  let s := run step (new_client, []) [connecting, ⟨.subscribe_multiple [("a", .Level1), ("b", .Level1)], .obliging true []⟩]
  have lost : ¬ Recorded s.1.session_state "a" := by decide +kernel
  exact lost (recorded (.obliging true []) {} _ "a" (by decide +kernel))

end

end Masaka.Subscriptions
