import Masaka.Config
import Masaka.Tables

/-!
The session that a client keeps in memory: the publishes and PUBRELs that wait
for an acknowledgment, the subscriptions, and the next packet identifier.
-/
namespace Masaka
open Tables

/-- A QoS 1 or QoS 2 message that waits for its acknowledgment. -/
structure InflightMessage where
  topic : TopicName
  qos : QoS
  retain : Bool
  payload : Bytes
  retry_count : Nat
  timestamp : Nat
  deriving DecidableEq

inductive SubscriptionState where
  | Pending
  | Active
  | Unsubscribing
  | Failed
  deriving DecidableEq

structure SubscriptionInfo where
  topic_filter : TopicFilter
  qos : QoS
  state : SubscriptionState
  retry_count : Nat
  deriving DecidableEq

structure InMemorySession where
  next_pid : Pid
  pending_publishes : HashMap Pid InflightMessage
  pending_pubrels : HashSet Pid
  subscriptions : HashMap Pid SubscriptionInfo
  active_topics : HashSet TopicFilter
  sub_capacity : Nat
  deriving DecidableEq

namespace InMemorySession

/-- `InMemorySession::new`. -/
def new (sub_capacity : Nat) : InMemorySession where
  next_pid := Pid.default
  pending_publishes := ∅
  pending_pubrels := ∅
  subscriptions := ∅
  active_topics := ∅
  sub_capacity := sub_capacity

/-- The first record of the iteration that has the filter. -/
def find_subscription_pid (o : IterOrder Pid) (topic_filter : TopicFilter) (s : InMemorySession) : Option Pid :=
  ((iter o s.subscriptions).find? fun entry => entry.2.topic_filter = topic_filter).map Prod.fst

theorem find_subscription_pid_some {o : IterOrder Pid} {topic_filter : TopicFilter} {s : InMemorySession} {pid : Pid}
    (found : s.find_subscription_pid o topic_filter = some pid) :
    ∃ record, s.subscriptions.lookup pid = some record ∧ record.topic_filter = topic_filter := by
  obtain ⟨entry, first, rfl⟩ := Option.map_eq_some_iff.mp found
  exact ⟨entry.2, mem_iter.mp (List.mem_of_find?_eq_some first), by simpa using List.find?_some first⟩

end InMemorySession

/-! ### The operations of `SessionState`

An operation that changes the session returns what it leaves; one that iterates
over a table takes the order of the iteration. -/
namespace SessionState

/-- Hands out the counter's identifier, without a look at the tables. -/
def next_pid (s : InMemorySession) : Pid × InMemorySession :=
  (s.next_pid, { s with next_pid := s.next_pid.next })

def store_outgoing_publish (pid : Pid) (message : InflightMessage) (s : InMemorySession) :
    Except MqttError Unit × InMemorySession :=
  (.ok (), { s with pending_publishes := s.pending_publishes.insert pid message })

/-- A stored message, with what writing through the reference makes of the session. -/
def get_outgoing_publish_mut (pid : Pid) (s : InMemorySession) :
    Option (InflightMessage × (InflightMessage → InMemorySession)) :=
  (s.pending_publishes.lookup pid).map fun message =>
    (message, fun written => { s with pending_publishes := s.pending_publishes.insert pid written })

def complete_outgoing_publish (pid : Pid) (s : InMemorySession) : Option InflightMessage × InMemorySession :=
  (s.pending_publishes.lookup pid, { s with pending_publishes := s.pending_publishes.erase pid })

def pending_outgoing_publishes (o : IterOrder Pid) (s : InMemorySession) : List (Pid × InflightMessage) :=
  iter o s.pending_publishes

def store_outgoing_pubrel (pid : Pid) (s : InMemorySession) : Except MqttError Unit × InMemorySession :=
  (.ok (), { s with pending_pubrels := s.pending_pubrels.insert pid () })

def complete_outgoing_pubrel (pid : Pid) (s : InMemorySession) : Option Pid × InMemorySession :=
  ((s.pending_pubrels.lookup pid).map fun _ => pid, { s with pending_pubrels := s.pending_pubrels.erase pid })

def pending_outgoing_pubrels (o : IterOrder Pid) (s : InMemorySession) : List Pid :=
  (iter o s.pending_pubrels).map Prod.fst

/-- One record for each identifier: a later filter under the same identifier replaces the record. -/
def add_subscription (pid : Pid) (topic_filter : TopicFilter) (qos : QoS) (s : InMemorySession) :
    Except MqttError Unit × InMemorySession :=
  if len s.subscriptions ≥ s.sub_capacity then (.error .Internal, s)
  else
    (.ok (), { s with subscriptions := s.subscriptions.insert pid
                        { topic_filter := topic_filter, qos := qos, state := .Pending, retry_count := 0 } })

/-- Only the first return code counts. When the active topics are full the
    record has already been made active. -/
def confirm_subscription (pid : Pid) (return_codes : List UInt8) (s : InMemorySession) :
    Except MqttError Unit × InMemorySession :=
  match s.subscriptions.lookup pid, return_codes.head? with
  | some subscription, some return_code =>
    if return_code ≤ 2 then
      let s' := { s with subscriptions := s.subscriptions.insert pid { subscription with state := .Active } }
      if len s.active_topics < s.sub_capacity then
        (.ok (), { s' with active_topics := s.active_topics.insert subscription.topic_filter () })
      else (.error .Internal, s')
    else
      (.ok (), { s with subscriptions := s.subscriptions.insert pid { subscription with state := .Failed } })
  | _, _ => (.ok (), s)

def remove_subscription (o : IterOrder Pid) (topic_filter : TopicFilter) (s : InMemorySession) :
    Option SubscriptionInfo × InMemorySession :=
  match s.find_subscription_pid o topic_filter with
  | some pid =>
    (s.subscriptions.lookup pid,
      { s with subscriptions := s.subscriptions.erase pid, active_topics := s.active_topics.erase topic_filter })
  | none => (none, s)

/-- The capacity stays. -/
def clear (s : InMemorySession) : InMemorySession :=
  { s with next_pid := Pid.default, pending_publishes := ∅, subscriptions := ∅, active_topics := ∅,
           pending_pubrels := ∅ }

section
variable (pid : Pid) (topic_filter : TopicFilter) (qos : QoS) (codes : List UInt8) (o : IterOrder Pid)
  (s : InMemorySession)

/-- The part of a session that subscriptions do not touch. -/
def untouched (s : InMemorySession) : Pid × HashMap Pid InflightMessage × HashSet Pid :=
  (s.next_pid, s.pending_publishes, s.pending_pubrels)

/-- The tables of the handshakes. -/
def handshakes (s : InMemorySession) : HashMap Pid InflightMessage × HashSet Pid := (s.pending_publishes, s.pending_pubrels)

theorem handshakes_untouched {s s' : InMemorySession} (same : untouched s' = untouched s) : handshakes s' = handshakes s :=
  congrArg Prod.snd same

theorem add_subscription_room (room : len s.subscriptions < s.sub_capacity) :
    add_subscription pid topic_filter qos s = (.ok (), { s with
      subscriptions := s.subscriptions.insert pid ⟨topic_filter, qos, .Pending, 0⟩ }) := by
  rw [add_subscription, if_neg (Nat.not_le.mpr room)]
theorem add_subscription_full (full : ¬ len s.subscriptions < s.sub_capacity) :
    add_subscription pid topic_filter qos s = (.error .Internal, s) := by
  rw [add_subscription, if_pos (Nat.not_lt.mp full)]

theorem add_subscription_untouched : untouched (add_subscription pid topic_filter qos s).2 = untouched s := by
  unfold add_subscription
  split <;> rfl
theorem confirm_subscription_untouched : untouched (confirm_subscription pid codes s).2 = untouched s := by
  unfold confirm_subscription
  split
  · split
    · dsimp only; split <;> rfl
    · rfl
  · rfl
theorem remove_subscription_untouched : untouched (remove_subscription o topic_filter s).2 = untouched s := by
  unfold remove_subscription
  split <;> rfl

theorem add_subscription_lookup {p : Pid} (other : p ≠ pid) :
    (add_subscription pid topic_filter qos s).2.subscriptions.lookup p = s.subscriptions.lookup p := by
  unfold add_subscription
  split
  · rfl
  · exact AList.lookup_insert_ne other

/-- Removing takes away one record of the filter, if there is one. -/
theorem remove_subscription_lookup (p : Pid) : let removed := (remove_subscription o topic_filter s).2
    removed.subscriptions.lookup p = s.subscriptions.lookup p ∨ removed.subscriptions.lookup p = none ∧
      ∃ record, s.subscriptions.lookup p = some record ∧ record.topic_filter = topic_filter := by
  cases found : s.find_subscription_pid o topic_filter with
  | none => simp [remove_subscription, found]
  | some pid =>
    simp only [remove_subscription, found, lookup_erase_if]
    split
    · rename_i same
      subst same
      exact .inr ⟨rfl, InMemorySession.find_subscription_pid_some found⟩
    · exact .inl rfl

/-- Confirming changes at most the state of a record. -/
theorem confirm_subscription_filters (p : Pid) :
    ((confirm_subscription pid codes s).2.subscriptions.lookup p).map (·.topic_filter) =
      (s.subscriptions.lookup p).map (·.topic_filter) := by
  cases record : s.subscriptions.lookup pid with
  | none => simp only [confirm_subscription, record]
  | some subscription =>
    have written : ∀ state, ((s.subscriptions.insert pid { subscription with state := state }).lookup p).map
        (·.topic_filter) = (s.subscriptions.lookup p).map (·.topic_filter) := by
      intro state
      rw [lookup_insert_if]
      split
      · rename_i same; rw [same, record]; rfl
      · rfl
    cases code : codes.head? with
    | none => simp only [confirm_subscription, record, code]
    | some return_code =>
      simp only [confirm_subscription, record, code]
      split
      · split <;> exact written _
      · exact written _

end

end SessionState

end Masaka
