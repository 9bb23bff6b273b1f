import Masaka.Operations
import Masaka.Wire

/-!
The active topics and the active records. The two are kept apart, and each operation
of the session changes them by what it finds under one identifier; so they agree only
as long as no active record is overwritten, rejected or left behind.
-/
namespace Masaka.ActiveTopics
open Effect Tables Runs

/-- The operations of a session that concern subscriptions, with their arguments. -/
inductive SessionOp where
  | next_pid
  | add_subscription (pid : Pid) (topic_filter : TopicFilter) (qos : QoS)
  | confirm_subscription (pid : Pid) (return_codes : List UInt8)
  | remove_subscription (order : IterOrder Pid) (topic_filter : TopicFilter)
  | clear

/-- The session that an operation leaves, whether it succeeds or not. -/
def step (s : InMemorySession) : SessionOp → InMemorySession
  | .next_pid => (SessionState.next_pid s).2
  | .add_subscription pid topic_filter qos => (SessionState.add_subscription pid topic_filter qos s).2
  | .confirm_subscription pid return_codes => (SessionState.confirm_subscription pid return_codes s).2
  | .remove_subscription order topic_filter => (SessionState.remove_subscription order topic_filter s).2
  | .clear => SessionState.clear s

/-- The record is one of the filter and active. -/
def Holds (record : SubscriptionInfo) (topic_filter : TopicFilter) : Prop :=
  record.topic_filter = topic_filter ∧ record.state = .Active

/-- Some record of the filter is active. -/
def Active (subscriptions : HashMap Pid SubscriptionInfo) (topic_filter : TopicFilter) : Prop :=
  ∃ pid record, subscriptions.lookup pid = some record ∧ Holds record topic_filter

/-- Some record of the filter is active that has another identifier. -/
def Elsewhere (subscriptions : HashMap Pid SubscriptionInfo) (pid : Pid) (topic_filter : TopicFilter) : Prop :=
  ∃ p record, p ≠ pid ∧ subscriptions.lookup p = some record ∧ Holds record topic_filter

/-- The active topics are the filters of the active records. -/
def Agrees (s : InMemorySession) : Prop :=
  ∀ topic_filter, topic_filter ∈ s.active_topics ↔ Active s.subscriptions topic_filter

section
variable {subscriptions : HashMap Pid SubscriptionInfo} {pid : Pid} {record : SubscriptionInfo} {topic_filter : TopicFilter}

/-- Active under the identifier, or under another one. -/
theorem active_iff (pid : Pid) : Active subscriptions topic_filter ↔
    (∃ record, subscriptions.lookup pid = some record ∧ Holds record topic_filter) ∨
      Elsewhere subscriptions pid topic_filter := by
  constructor
  · rintro ⟨p, record, stored, holds⟩
    by_cases here : p = pid
    · exact .inl ⟨record, here ▸ stored, holds⟩
    · exact .inr ⟨p, record, here, stored, holds⟩
  · rintro (⟨record, stored, holds⟩ | ⟨p, record, -, stored, holds⟩)
    · exact ⟨pid, record, stored, holds⟩
    · exact ⟨p, record, stored, holds⟩

theorem active_insert : Active (subscriptions.insert pid record) topic_filter ↔
    Holds record topic_filter ∨ Elsewhere subscriptions pid topic_filter := by
  constructor
  · rintro ⟨p, found, stored, holds⟩
    rw [lookup_insert_if] at stored
    split at stored
    · cases stored
      exact .inl holds
    · rename_i other
      exact .inr ⟨p, found, other, stored, holds⟩
  · rintro (holds | ⟨p, found, other, stored, holds⟩)
    · exact ⟨pid, record, AList.lookup_insert _, holds⟩
    · exact ⟨p, found, (AList.lookup_insert_ne other).trans stored, holds⟩

theorem active_erase : Active (subscriptions.erase pid) topic_filter ↔ Elsewhere subscriptions pid topic_filter := by
  constructor
  · rintro ⟨p, found, stored, holds⟩
    rw [lookup_erase_if] at stored
    split at stored
    · cases stored
    · rename_i other
      exact ⟨p, found, other, stored, holds⟩
  · rintro ⟨p, found, other, stored, holds⟩
    exact ⟨p, found, (AList.lookup_erase_ne other).trans stored, holds⟩

/-- The identifier does not have the only active record of a filter. -/
def Spared (subscriptions : HashMap Pid SubscriptionInfo) (pid : Pid) : Prop :=
  ∀ record, subscriptions.lookup pid = some record → record.state = .Active →
    Elsewhere subscriptions pid record.topic_filter

/-- Without the record of an identifier, the same filters are active if it is spared. -/
theorem spared_iff : (∀ f, Active subscriptions f ↔ Elsewhere subscriptions pid f) ↔ Spared subscriptions pid := by
  constructor
  · intro same record stored active
    exact (same record.topic_filter).mp ⟨pid, record, stored, rfl, active⟩
  · intro spared f
    rw [active_iff pid]
    constructor
    · rintro (⟨record, stored, rfl, active⟩ | elsewhere)
      · exact spared record stored active
      · exact elsewhere
    · exact .inr

end

/-- The operation leaves no active record overwritten, rejected or behind: a record is
    added or rejected only where the identifier does not have the only active record of a
    filter, confirmed only where its filter finds room among the active topics, and removed
    only when it is the only active one of its filter. -/
def Preserves (s : InMemorySession) : SessionOp → Prop
  | .next_pid | .clear => True
  | .add_subscription pid _ _ => len s.subscriptions < s.sub_capacity → Spared s.subscriptions pid
  | .confirm_subscription pid return_codes => ∀ record, s.subscriptions.lookup pid = some record →
      ∀ return_code, return_codes.head? = some return_code →
        if return_code ≤ 2 then len s.active_topics < s.sub_capacity ∨ record.topic_filter ∈ s.active_topics
        else Spared s.subscriptions pid
  | .remove_subscription order topic_filter => ∀ pid,
      s.find_subscription_pid order topic_filter = some pid → ¬ Elsewhere s.subscriptions pid topic_filter

section
variable {s : InMemorySession}

/-- What takes the place of a record without being active. -/
theorem agrees_replaced (agrees : Agrees s) (pid : Pid) (record : SubscriptionInfo) (inactive : record.state ≠ .Active) :
    Agrees { s with subscriptions := s.subscriptions.insert pid record } ↔ Spared s.subscriptions pid := by
  rw [← spared_iff, Agrees]
  refine forall_congr' fun f => ?_
  have unheld : ¬ Holds record f := fun holds => inactive holds.2
  simp only [active_insert, unheld, false_or, agrees f]

theorem agrees_add (agrees : Agrees s) (pid : Pid) (topic_filter : TopicFilter) (qos : QoS) :
    Agrees (SessionState.add_subscription pid topic_filter qos s).2 ↔
      (len s.subscriptions < s.sub_capacity → Spared s.subscriptions pid) := by
  by_cases room : len s.subscriptions < s.sub_capacity
  · rw [SessionState.add_subscription_room _ _ _ _ room, agrees_replaced agrees _ _ (by simp)]
    simp only [room, true_imp_iff]
  · rw [SessionState.add_subscription_full _ _ _ _ room]
    simp only [agrees, room, false_imp_iff]

theorem agrees_confirm (agrees : Agrees s) (pid : Pid) (return_codes : List UInt8) :
    Agrees (SessionState.confirm_subscription pid return_codes s).2 ↔
      Preserves s (.confirm_subscription pid return_codes) := by
  rw [Preserves]
  cases stored : s.subscriptions.lookup pid with
  | none => simp only [SessionState.confirm_subscription, stored, agrees]; simp
  | some record =>
    cases code : return_codes.head? with
    | none => simp only [SessionState.confirm_subscription, stored, code, agrees]; simp
    | some return_code =>
      simp only [SessionState.confirm_subscription, stored, code, Option.some.injEq, forall_eq']
      by_cases granted : return_code ≤ 2
      swap
      · simp only [granted, if_false]
        exact agrees_replaced agrees pid { record with state := .Failed } (by simp)
      simp only [granted, if_true]
      -- The record becomes active, and so its filter is the only one that is active now if it was not.
      have active : ∀ f, Active (s.subscriptions.insert pid { record with state := .Active }) f ↔
          record.topic_filter = f ∨ f ∈ s.active_topics := by
        intro f
        rw [active_insert, agrees f, active_iff pid]
        constructor
        · rintro (⟨same, -⟩ | elsewhere)
          · exact .inl same
          · exact .inr (.inr elsewhere)
        · rintro (same | ⟨found, stored', same, -⟩ | elsewhere)
          · exact .inl ⟨same, rfl⟩
          · cases stored.symm.trans stored'
            exact .inl ⟨same, rfl⟩
          · exact .inr elsewhere
      by_cases room : len s.active_topics < s.sub_capacity
      · simp only [room, if_true, true_or, iff_true]
        intro f
        rw [active, AList.mem_insert, eq_comm]
      · simp only [room, if_false, false_or]
        constructor
        · intro after
          exact (after record.topic_filter).mpr ((active _).mpr (.inl rfl))
        · intro present f
          rw [active]
          constructor
          · exact .inr
          · rintro (rfl | listed)
            · exact present
            · exact listed

theorem agrees_remove (agrees : Agrees s) (order : IterOrder Pid) (topic_filter : TopicFilter) :
    Agrees (SessionState.remove_subscription order topic_filter s).2 ↔
      Preserves s (.remove_subscription order topic_filter) := by
  rw [Preserves, SessionState.remove_subscription]
  cases found : s.find_subscription_pid order topic_filter with
  | none => simp [agrees]
  | some pid =>
    obtain ⟨record, stored, rfl⟩ := InMemorySession.find_subscription_pid_some found
    simp only [Option.some.injEq, forall_eq']
    constructor
    · intro after elsewhere
      have listed := (after record.topic_filter).mpr (active_erase.mpr elsewhere)
      exact (AList.mem_erase.mp listed).1 rfl
    · intro last f
      rw [active_erase, AList.mem_erase, agrees f, active_iff pid]
      constructor
      · rintro ⟨other, ⟨found, stored', same, -⟩ | elsewhere⟩
        · cases stored.symm.trans stored'
          exact absurd same.symm other
        · exact elsewhere
      · intro elsewhere
        refine ⟨?_, .inr elsewhere⟩
        rintro rfl
        exact last elsewhere

/-- An operation keeps the agreement exactly under its condition. -/
theorem agrees_step (agrees : Agrees s) (op : SessionOp) : Agrees (step s op) ↔ Preserves s op := by
  cases op with
  | next_pid => exact iff_of_true agrees trivial
  | clear =>
    refine iff_of_true (fun f => iff_of_false (AList.notMem_empty f) ?_) trivial
    rintro ⟨pid, record, stored, -⟩
    cases (AList.lookup_empty pid).symm.trans stored
  | add_subscription pid topic_filter qos => exact agrees_add agrees pid topic_filter qos
  | confirm_subscription pid return_codes => exact agrees_confirm agrees pid return_codes
  | remove_subscription order topic_filter => exact agrees_remove agrees order topic_filter

end

theorem new_agrees (sub_capacity : Nat) : Agrees (.new sub_capacity) := by
  intro f
  refine iff_of_false (AList.notMem_empty f) ?_
  rintro ⟨pid, record, stored, -⟩
  cases (AList.lookup_empty pid).symm.trans stored

/-! ### The operations that a client issues -/

/-- The part of a session that these operations read. -/
def tables (s : InMemorySession) : Pid × HashMap Pid SubscriptionInfo × HashSet TopicFilter × Nat :=
  (s.next_pid, s.subscriptions, s.active_topics, s.sub_capacity)

theorem agrees_tables {s t : InMemorySession} (same : tables t = tables s) : Agrees t ↔ Agrees s := by
  cases s
  cases t
  cases same
  exact Iff.rfl

theorem step_tables {s t : InMemorySession} (same : tables t = tables s) (op : SessionOp) :
    tables (step t op) = tables (step s op) := by
  cases s
  cases t
  cases same
  cases op with
  | next_pid | clear => rfl
  | add_subscription pid topic_filter qos =>
    simp only [step, SessionState.add_subscription]
    split <;> rfl
  | confirm_subscription pid return_codes =>
    simp only [step, SessionState.confirm_subscription]
    split
    · split
      · split <;> rfl
      · rfl
    · rfl
  | remove_subscription order topic_filter =>
    simp only [step, SessionState.remove_subscription, InMemorySession.find_subscription_pid]
    split <;> rfl

/-- A record is added under the identifier that was handed out last. -/
def Issued (s : InMemorySession) : SessionOp → Prop
  | .add_subscription pid _ _ => s.next_pid = pid.next
  | _ => True

section
variable {H P E : Type} [MqttProtocolHandler H P E] [LawfulHandler H P E]

/-- An act of a client is at most one of the operations. -/
theorem act_issued {config : ClientConfig} {grant : Grant} {view : View P} {act : Act P}
    (allowed : act.Allowed H config grant view) : tables (act.session view.session) = tables view.session ∨
      ∃ op, Issued view.session op ∧ tables (act.session view.session) = tables (step view.session op) := by
  cases act with
  | hand_out pid => exact .inr ⟨.next_pid, trivial, rfl⟩
  | accept pid message => exact .inr ⟨.next_pid, trivial, rfl⟩
  | add pid topic_filter qos => exact .inr ⟨.add_subscription pid topic_filter qos, allowed.2.2.2, rfl⟩
  | confirm pid return_codes => exact .inr ⟨.confirm_subscription pid return_codes, trivial, rfl⟩
  | remove order topic_filter => exact .inr ⟨.remove_subscription order topic_filter, trivial, rfl⟩
  | clear => exact .inr ⟨.clear, trivial, rfl⟩
  | _ => exact .inl rfl

end

section
variable [Codec V3.Packet MqttProtoError] [Codec V5.Packet ErrorV5] {v : Version}

/-- The subscriptions of a client are those of a session after some of the operations. -/
theorem session_issued {c : Client v} (reachable : c.Reachable) :
    ∃ ops, Along step Issued (.new c.config.max_subscriptions) ops ∧
      tables c.session_state = tables (run step (.new c.config.max_subscriptions) ops) := by
  refine reachable.invariant (I := fun config view => ∃ ops, Along step Issued (.new config.max_subscriptions) ops ∧
    tables view.session = tables (run step (.new config.max_subscriptions) ops)) (fun _ _ => ⟨[], trivial, rfl⟩)
    (fun _ _ _ issued => issued) fun config grant view act allowed issued => ?_
  obtain ⟨ops, along, same⟩ := issued
  rcases act_issued allowed with unchanged | ⟨op, issued, changed⟩
  · exact ⟨ops, along, unchanged.trans same⟩
  · refine ⟨ops ++ [op], along_append.mpr ⟨along, ?_, trivial⟩, ?_⟩
    · cases op with
      | add_subscription pid topic_filter qos => exact (congrArg Prod.fst same).symm.trans issued
      | _ => trivial
    · rw [run_append]
      exact changed.trans (step_tables same op)

/-- The two agree in every state of a run exactly if every operation meets its condition; and a client
    has what such a run makes of a new session, and so they agree for it if its operations do. -/
theorem agrees_along_iff :
    (∀ (sub_capacity : Nat) (ops : List SessionOp), Along step (fun s op => Agrees (step s op)) (.new sub_capacity) ops ↔
      Along step Preserves (.new sub_capacity) ops) ∧
    ∀ c : Client v, c.Reachable → ∃ ops, Along step Issued (.new c.config.max_subscriptions) ops ∧
      tables c.session_state = tables (run step (.new c.config.max_subscriptions) ops) ∧
      (Along step Preserves (.new c.config.max_subscriptions) ops → Agrees c.session_state) := by
  refine ⟨fun sub_capacity => along_iff (new_agrees sub_capacity) fun _ op agrees => agrees_step agrees op,
    fun c reachable => ?_⟩
  obtain ⟨ops, issued, same⟩ := session_issued reachable
  refine ⟨ops, issued, same, fun preserves => (agrees_tables same).mpr ?_⟩
  exact invariant (I := Agrees) (fun _ op agrees each => (agrees_step agrees op).mpr each) (new_agrees _) preserves

end

/-! ### A second SUBACK -/

section
local instance : Codec V3.Packet MqttProtoError := Wire.v3Codec
local instance : Codec V5.Packet ErrorV5 := Wire.v5Codec

/-- A client that has subscribed to a filter. -/
def subscribed : Client .v3 := Client.run (MqttClient.new (.obliging true []) (Version.handler .v3 ()) {})
  [⟨.connect, .obliging true [.Connack ⟨false, 0⟩]⟩, ⟨.subscribe "a" .Level1, .obliging true []⟩]

/-- The broker answers with the return code. -/
def answering (return_code : UInt8) : Call .v3 := ⟨.poll, .obliging true [.Suback ⟨.default, [return_code]⟩]⟩

theorem subscribed_reachable : subscribed.Reachable := ⟨_, (), _, _, rfl⟩

theorem agrees_along_iff_subscribed : ∃ ops, Along step Issued (.new 32) ops ∧
    tables (subscribed.run [answering 0]).session_state = tables (run step (.new 32) ops) ∧
    (Along step Preserves (.new 32) ops → Agrees (subscribed.run [answering 0]).session_state) := by
  have size : (subscribed.run [answering 0]).config.max_subscriptions = 32 := by decide +kernel
  have issued := (agrees_along_iff (v := .v3)).2 (subscribed.run [answering 0]) (subscribed_reachable.run _)
  rwa [size] at issued

/-- A filter stays active when its only record is rejected. -/
theorem rejected_active : ¬ ∀ c : Client .v3, c.Reachable → Agrees c.session_state := by
  intro agrees
  let c := subscribed.run [answering 0, answering 128]
  have listed : "a" ∈ c.session_state.active_topics := by decide +kernel
  have inactive : ∀ entry ∈ iter (.same Pid) c.session_state.subscriptions, entry.2.state ≠ .Active := by decide +kernel
  obtain ⟨pid, record, stored, -, active⟩ := (agrees c (subscribed_reachable.run _) "a").mp listed
  exact inactive (pid, record) (mem_iter.mpr stored) active

end

end Masaka.ActiveTopics
