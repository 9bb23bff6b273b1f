import Masaka.ActiveTopics

/-!
A SUBACK that arrives again. The record becomes active before the active topics are
asked for room, and they are asked for room even if they have the filter already.
-/
namespace Masaka.Confirming
open Effect Tables

/-- The two sessions hold the same; the order in which their tables list it does not matter. -/
structure Same (s t : InMemorySession) : Prop where
  untouched : SessionState.untouched t = SessionState.untouched s
  capacity : t.sub_capacity = s.sub_capacity
  subscriptions : ∀ pid, t.subscriptions.lookup pid = s.subscriptions.lookup pid
  active : ∀ topic_filter, topic_filter ∈ t.active_topics ↔ topic_filter ∈ s.active_topics

theorem Same.refl (s : InMemorySession) : Same s s := ⟨rfl, rfl, fun _ => rfl, fun _ => Iff.rfl⟩

/-- Confirming twice comes to the same as confirming once, and a confirmation that fails changes nothing. -/
structure Harmless (s : InMemorySession) (pid : Pid) (return_codes : List UInt8) : Prop where
  same : Same (SessionState.confirm_subscription pid return_codes s).2
    (SessionState.confirm_subscription pid return_codes (SessionState.confirm_subscription pid return_codes s).2).2
  repeats : (SessionState.confirm_subscription pid return_codes s).1 = .ok () →
    (SessionState.confirm_subscription pid return_codes (SessionState.confirm_subscription pid return_codes s).2).1 = .ok ()
  failed : ∀ err, (SessionState.confirm_subscription pid return_codes s).1 = .error err →
    Same s (SessionState.confirm_subscription pid return_codes s).2

/-- If the first return code accepts the record of the identifier, then the active topics have room
    for its filter even after it has been put in, or they have no room and the record is active already. -/
def Fits (s : InMemorySession) (pid : Pid) (return_codes : List UInt8) : Prop :=
  ∀ record, s.subscriptions.lookup pid = some record → ∀ return_code, return_codes.head? = some return_code →
    return_code ≤ 2 → if len s.active_topics < s.sub_capacity
      then record.topic_filter ∈ s.active_topics ∨ len s.active_topics + 1 < s.sub_capacity
      else record.state = .Active

section
variable {s : InMemorySession} {pid : Pid} {return_codes : List UInt8}

/-- Writing the record of an identifier once more does not change what the table holds. -/
theorem insert_again {subscriptions : HashMap Pid SubscriptionInfo} (record written : SubscriptionInfo) (p : Pid) :
    ((subscriptions.insert pid record).insert pid written).lookup p = (subscriptions.insert pid written).lookup p := by
  rw [AList.insert_insert]

theorem insert_stored {subscriptions : HashMap Pid SubscriptionInfo} {record : SubscriptionInfo}
    (stored : subscriptions.lookup pid = some record) (p : Pid) :
    (subscriptions.insert pid record).lookup p = subscriptions.lookup p := by
  rw [lookup_insert_if]
  split
  · rename_i same
    rw [same, stored]
  · rfl

/-- A filter that is listed already takes no more room. -/
theorem len_listed {active : HashSet TopicFilter} {topic_filter : TopicFilter} :
    len (active.insert topic_filter ()) = if topic_filter ∈ active then len active else len active + 1 := by
  split
  · rename_i listed
    exact len_insert listed ()
  · rename_i unlisted
    exact len_insert_absent unlisted ()

/-- What does nothing to the session is harmless. -/
theorem harmless_idle (idle : SessionState.confirm_subscription pid return_codes s = (.ok (), s)) :
    Harmless s pid return_codes := by
  constructor
  · rw [idle, idle]
    exact Same.refl s
  · intro _
    rw [idle, idle]
  · intro err failed
    rw [idle] at failed
    cases failed

/-- A rejected record is rejected again. -/
theorem harmless_rejected {record : SubscriptionInfo} {return_code : UInt8}
    (stored : s.subscriptions.lookup pid = some record)
    (code : return_codes.head? = some return_code) (rejected : ¬ return_code ≤ 2) :
    Harmless s pid return_codes := by
  have once : SessionState.confirm_subscription pid return_codes s =
      (.ok (), { s with subscriptions := s.subscriptions.insert pid { record with state := .Failed } }) := by
    simp only [SessionState.confirm_subscription, stored, code, rejected, if_false]
  have twice : SessionState.confirm_subscription pid return_codes (SessionState.confirm_subscription pid return_codes s).2 =
      (.ok (), { s with subscriptions := (s.subscriptions.insert pid { record with state := .Failed }).insert pid
                          { record with state := .Failed } }) := by
    rw [once]
    simp only [SessionState.confirm_subscription, AList.lookup_insert, code, rejected, if_false]
  constructor
  · rw [twice, once]
    exact ⟨rfl, rfl, insert_again _ _, fun _ => Iff.rfl⟩
  · intro _
    rw [twice]
  · intro err failed
    rw [once] at failed
    cases failed

/-- An accepted record whose filter finds room. -/
theorem harmless_room {record : SubscriptionInfo} {return_code : UInt8} (stored : s.subscriptions.lookup pid = some record)
    (code : return_codes.head? = some return_code) (accepted : return_code ≤ 2)
    (room : len s.active_topics < s.sub_capacity) : Harmless s pid return_codes ↔
      record.topic_filter ∈ s.active_topics ∨ len s.active_topics + 1 < s.sub_capacity := by
  have once : SessionState.confirm_subscription pid return_codes s = (.ok (), { s with
      subscriptions := s.subscriptions.insert pid { record with state := .Active }
      active_topics := s.active_topics.insert record.topic_filter () }) := by
    simp only [SessionState.confirm_subscription, stored, code, accepted, room, if_true]
  have still : len (s.active_topics.insert record.topic_filter ()) < s.sub_capacity ↔
      record.topic_filter ∈ s.active_topics ∨ len s.active_topics + 1 < s.sub_capacity := by
    rw [len_listed]
    by_cases listed : record.topic_filter ∈ s.active_topics
    · simp only [listed, if_true, true_or, iff_true]
      exact room
    · simp only [listed, if_false, false_or]
  rw [← still]
  constructor
  · intro harmless
    by_contra full
    have repeated := harmless.repeats (by rw [once])
    rw [once] at repeated
    simp only [SessionState.confirm_subscription, AList.lookup_insert, code, accepted, full, if_true, if_false] at repeated
    cases repeated
  · intro enough
    have twice : SessionState.confirm_subscription pid return_codes
        (SessionState.confirm_subscription pid return_codes s).2 = (.ok (), { s with
          subscriptions := (s.subscriptions.insert pid { record with state := .Active }).insert pid
            { record with state := .Active }
          active_topics := (s.active_topics.insert record.topic_filter ()).insert record.topic_filter () }) := by
      rw [once]
      simp only [SessionState.confirm_subscription, AList.lookup_insert, code, accepted, enough, if_true]
    constructor
    · rw [twice, once]
      refine ⟨rfl, rfl, insert_again _ _, fun f => ?_⟩
      simp only [AList.mem_insert, or_self_left]
    · intro _
      rw [twice]
    · intro err failed
      rw [once] at failed
      cases failed

/-- An accepted record whose filter finds no room, even if it is listed already. -/
theorem harmless_full {record : SubscriptionInfo} {return_code : UInt8} (stored : s.subscriptions.lookup pid = some record)
    (code : return_codes.head? = some return_code) (accepted : return_code ≤ 2)
    (full : ¬ len s.active_topics < s.sub_capacity) : Harmless s pid return_codes ↔ record.state = .Active := by
  have once : SessionState.confirm_subscription pid return_codes s =
      (.error .Internal, { s with subscriptions := s.subscriptions.insert pid { record with state := .Active } }) := by
    simp only [SessionState.confirm_subscription, stored, code, accepted, full, if_true, if_false]
  have twice : SessionState.confirm_subscription pid return_codes (SessionState.confirm_subscription pid return_codes s).2 =
      (.error .Internal, { s with
        subscriptions := (s.subscriptions.insert pid { record with state := .Active }).insert pid
          { record with state := .Active } }) := by
    rw [once]
    simp only [SessionState.confirm_subscription, AList.lookup_insert, code, accepted, full, if_true, if_false]
  constructor
  · intro harmless
    have same := (harmless.failed .Internal (by rw [once])).subscriptions pid
    rw [once, AList.lookup_insert, stored] at same
    exact congrArg SubscriptionInfo.state (Option.some.inj same).symm
  · intro active
    have written : { record with state := .Active } = record := by rw [← active]
    constructor
    · rw [twice, once]
      exact ⟨rfl, rfl, insert_again _ _, fun _ => Iff.rfl⟩
    · intro granted
      rw [once] at granted
      cases granted
    · intro err _
      rw [once, written]
      exact ⟨rfl, rfl, insert_stored stored, fun _ => Iff.rfl⟩

/-- A repeated confirmation is harmless exactly if what it accepts fits. -/
theorem harmless_iff (s : InMemorySession) (pid : Pid) (return_codes : List UInt8) :
    Harmless s pid return_codes ↔ Fits s pid return_codes := by
  cases stored : s.subscriptions.lookup pid with
  | none =>
    refine iff_of_true (harmless_idle ?_) ?_
    · simp only [SessionState.confirm_subscription, stored]
    · intro record found
      cases stored.symm.trans found
  | some record =>
    cases code : return_codes.head? with
    | none =>
      refine iff_of_true (harmless_idle ?_) ?_
      · simp only [SessionState.confirm_subscription, stored, code]
      · intro _ _ return_code found
        cases code.symm.trans found
    | some return_code =>
      simp only [Fits, stored, code, Option.some.injEq, forall_eq']
      by_cases accepted : return_code ≤ 2
      swap
      · exact iff_of_true (harmless_rejected stored code accepted) fun granted => absurd granted accepted
      by_cases room : len s.active_topics < s.sub_capacity
      · simp only [accepted, room, if_true, true_imp_iff]
        exact harmless_room stored code accepted room
      · simp only [accepted, room, if_false, true_imp_iff]
        exact harmless_full stored code accepted room

end

/-! ### A table of one filter -/

section
local instance : Codec V3.Packet MqttProtoError := Wire.v3Codec
local instance : Codec V5.Packet ErrorV5 := Wire.v5Codec

/-- A client that may have one subscription has it, and it is confirmed. -/
def confirmed : Client .v3 := Client.run
  (MqttClient.new (.obliging true []) (Version.handler .v3 ()) { max_subscriptions := 1 })
  [⟨.connect, .obliging true [.Connack ⟨false, 0⟩]⟩, ⟨.subscribe "a" .Level1, .obliging true []⟩]

/-- The same SUBACK succeeds once and fails then. -/
theorem repeated_fails : ¬ ∀ c : Client .v3, c.Reachable → ∀ pid return_codes,
    Harmless c.session_state pid return_codes := by
  intro harmless
  have granted : (SessionState.confirm_subscription .default [0] confirmed.session_state).1 = .ok () := by decide +kernel
  have refused : (SessionState.confirm_subscription .default [0]
      (SessionState.confirm_subscription .default [0] confirmed.session_state).2).1 = .error .Internal := by decide +kernel
  have reachable : confirmed.Reachable := ⟨_, (), _, _, rfl⟩
  cases refused.symm.trans ((harmless confirmed reachable .default [0]).repeats granted)

end

end Masaka.Confirming
