import Masaka.Polling

/-!
The events that report a subscription or its end. They are made from the kind of the
packet alone; as long as the broker answers only what it was asked, and grants it,
every event is true and every request is reported at most once.
-/
namespace Masaka.Confirmed
open Effect Runs MqttProtocolHandler LawfulHandler Sending Polling

/-- The requests that are answered with reason codes. -/
inductive Request where
  | subscribe
  | unsubscribe

namespace Request

/-- The identifier that a packet makes such a request under. -/
def asks : Request → Shape → Option Pid
  | .subscribe, .subscribe pid _ => some pid
  | .unsubscribe, .unsubscribe pid _ => some pid
  | _, _ => none

/-- The identifier that a packet answers such a request under. -/
def answers : Request → Shape → Option Pid
  | .subscribe, .suback pid _ => some pid
  | .unsubscribe, .unsuback pid => some pid
  | _, _ => none

/-- The event that reports the answer. -/
def reports : Request → Pid → ClientEvent
  | .subscribe => .SubscriptionConfirmed
  | .unsubscribe => .UnsubscriptionConfirmed

end Request

/-- A CONNECT, which opens a new connection. -/
def opens : Shape → Bool
  | .connect _ => true
  | _ => false

section
variable {H P E : Type} [MqttProtocolHandler H P E] [LawfulHandler H P E]

/-- How many requests wait for an answer, after one more event. On a new connection none does. -/
def note_open (H : Type) {P E : Type} [MqttProtocolHandler H P E] [LawfulHandler H P E] (kind : Request) (pid : Pid)
    (count : Nat) : Event P → Nat
  | .queued frame => if opens (shape (H := H) frame.packet) then 0 else count
  | .sent frame => if kind.asks (shape (H := H) frame.packet) = some pid then count + 1 else count
  | .received packet => if kind.answers (shape (H := H) packet) = some pid then count - 1 else count
  | _ => count

/-- How many requests under the identifier were sent on this connection and not answered. -/
def waiting_for (H : Type) {P E : Type} [MqttProtocolHandler H P E] [LawfulHandler H P E] (kind : Request) (pid : Pid)
    (log : List (Event P)) : Nat := log.foldl (note_open H kind pid) 0

/-- The identifiers of the requests that were sent. -/
def requests (H : Type) {P E : Type} [MqttProtocolHandler H P E] [LawfulHandler H P E] (kind : Request)
    (log : List (Event P)) : List Pid := log.filterMap fun
  | .sent frame => kind.asks (shape (H := H) frame.packet)
  | _ => none

@[simp] theorem requests_append (kind : Request) (log more : List (Event P)) :
    requests H kind (log ++ more) = requests H kind log ++ requests H kind more := List.filterMap_append

/-- Only a request that is sent will be answered. -/
theorem foldl_open_le (kind : Request) (pid : Pid) (more : List (Event P)) (count : Nat) :
    more.foldl (note_open H kind pid) count ≤ count + (requests H kind more).count pid := by
  induction more generalizing count with
  | nil => exact Nat.le_add_right _ _
  | cons event rest ih =>
    refine (ih _).trans ?_
    have step : note_open H kind pid count event ≤ count + (requests H kind [event]).count pid := by
      cases event with
      | sent frame =>
        simp only [note_open, requests, List.filterMap_cons, List.filterMap_nil]
        split
        · rename_i asked
          rw [asked]
          exact (by simp)
        · exact Nat.le_add_right _ _
      | queued frame | received packet => simp only [note_open]; split <;> omega
      | _ => exact Nat.le_add_right _ _
    rw [show event :: rest = [event] ++ rest from rfl, requests_append, List.count_append]
    omega

theorem open_append_le (kind : Request) (pid : Pid) (log more : List (Event P)) :
    waiting_for H kind pid (log ++ more) + (requests H kind log).count pid ≤
      waiting_for H kind pid log + (requests H kind (log ++ more)).count pid := by
  have later := foldl_open_le (H := H) kind pid more (waiting_for H kind pid log)
  rw [waiting_for, List.foldl_append, requests_append, List.count_append]
  change more.foldl _ (waiting_for H kind pid log) + _ ≤ _
  omega

/-- An answer that arrives is one that was waited for. -/
theorem open_answered {kind : Request} {pid : Pid} {log : List (Event P)} {packet : P}
    (answers : kind.answers (shape (H := H) packet) = some pid) (open_ : 0 < waiting_for H kind pid log) (time : Nat) :
    waiting_for H kind pid (log ++ [.received packet, .clock time]) + 1 = waiting_for H kind pid log := by
  simp only [waiting_for, List.foldl_append, List.foldl_cons, List.foldl_nil, note_open, answers, if_true] at open_ ⊢
  omega

/-- What an event reports is brought by a packet that answers the request. -/
theorem receive_answers {c : MqttClient H P E} {kind : Request} {pid : Pid}
    (returned : (exec MqttClient.receive c).1 = .ok (some (kind.reports pid))) :
    ∃ packet, next_packet c.protocol_engine = some packet ∧ kind.answers (shape (H := H) packet) = some pid ∧
      ∀ codes, shape (H := H) packet = .suback pid codes →
        (SessionState.confirm_subscription pid codes c.session_state).1.isOk = true := by
  obtain ⟨action, arrived, brings⟩ := receive_brings c _ returned
  obtain ⟨packet, next, handled⟩ := received_packet arrived
  refine ⟨packet, next, ?_⟩
  have shaped : action ≠ .None → (shape (H := H) packet).action = some action := fun some =>
    LawfulHandler.handled c.protocol_engine.handler packet action handled some
  cases kind with
  | subscribe =>
    cases brings with
    | @suback pid codes confirmed =>
      have suback : shape (H := H) packet = .suback pid codes := by
        have asked := shaped (by simp)
        cases same : shape (H := H) packet <;> rw [same] at asked <;> cases asked
        rfl
      rw [suback]
      refine ⟨rfl, fun codes' same => ?_⟩
      cases same
      rw [confirmed]
      rfl
  | unsubscribe =>
    cases brings with
    | unsuback pid =>
      have unsuback : shape (H := H) packet = .unsuback pid := by
        have asked := shaped (by simp)
        cases same : shape (H := H) packet <;> rw [same] at asked <;> cases asked
        rfl
      rw [unsuback]
      exact ⟨rfl, fun codes same => by cases same⟩

end

/-! ### Runs -/

section
variable [Codec V3.Packet MqttProtoError] [Codec V5.Packet ErrorV5] {v : Version}

/-- A version 5.0 UNSUBACK all of whose reason codes are failures; version 3.1.1 has none. -/
def refused : (v : Version) → v.Packet → Bool
  | .v3, _ => false
  | .v5, packet => match (packet : V5.Packet) with
    | .Unsuback unsuback => unsuback.topics.all (0x80 ≤ ·)
    | _ => false

/-- The answer grants a part of the request. -/
def grants (v : Version) (packet : v.Packet) : Bool :=
  match shape (H := v.Handler) packet with
  | .suback _ codes => codes.any (· ≤ 2)
  | .unsuback _ => !refused v packet
  | _ => false

/-- The packet answers a request that waits for it, and grants a part of it. -/
def Answered (c : Client v) (packet : v.Packet) (kind : Request) (pid : Pid) : Prop :=
  kind.answers (shape (H := v.Handler) packet) = some pid ∧
    0 < waiting_for v.Handler kind pid c.protocol_engine.log ∧ grants v packet = true

/-- An answer that the session takes is one to a request that waits for it, and grants a part of it. -/
def fits (c : Client v) (packet : v.Packet) : Bool :=
  match shape (H := v.Handler) packet with
  | .suback pid codes => !(SessionState.confirm_subscription pid codes c.session_state).1.isOk ||
      0 < waiting_for v.Handler .subscribe pid c.protocol_engine.log && grants v packet
  | .unsuback pid => 0 < waiting_for v.Handler .unsubscribe pid c.protocol_engine.log && grants v packet
  | _ => true

/-- The broker answers nothing but what it was asked, and grants a part of it. -/
def Honest (c : Client v) (call : Call v) : Prop :=
  ∀ c₁ ∈ c.waiting call, ∀ packet ∈ next_packet c₁.protocol_engine, fits c₁ packet = true

instance (c : Client v) (call : Call v) : Decidable (Honest c call) := inferInstanceAs (Decidable
  (∀ c₁ ∈ c.waiting call, ∀ packet ∈ next_packet c₁.protocol_engine, fits c₁ packet = true))

/-- What the call reports is that a request has been answered which was waiting, and granted in part. -/
def Truthful (c : Client v) (call : Call v) : Prop :=
  ∀ (kind : Request) pid, (c.call call).1 = .ok (.event (some (kind.reports pid))) → ∃ c₁ packet,
    c.waiting call = some c₁ ∧ next_packet c₁.protocol_engine = some packet ∧ Answered c₁ packet kind pid

/-- The identifier of the request that a call reports as answered. -/
def reported : Request → Except (Halt MqttError) Reply → List Pid
  | .subscribe, .ok (.event (some (.SubscriptionConfirmed pid))) => [pid]
  | .unsubscribe, .ok (.event (some (.UnsubscriptionConfirmed pid))) => [pid]
  | _, _ => []

/-- The identifiers of the requests that a run reports as answered. -/
def confirmations (kind : Request) : Client v → List (Call v) → List Pid :=
  gather Client.after fun c call => reported kind (c.call call).1

omit [Codec V3.Packet MqttProtoError] [Codec V5.Packet ErrorV5] in
theorem mem_reported {kind : Request} {r : Except (Halt MqttError) Reply} {pid : Pid} (member : pid ∈ reported kind r) :
    r = .ok (.event (some (kind.reports pid))) := by
  unfold reported at member
  split at member
  · rw [List.mem_singleton.mp member]; rfl
  · rw [List.mem_singleton.mp member]; rfl
  · cases member

theorem fits_answered {c : Client v} {packet : v.Packet} {kind : Request} {pid : Pid}
    (answers : kind.answers (shape (H := v.Handler) packet) = some pid)
    (taken : ∀ codes, shape (H := v.Handler) packet = .suback pid codes →
      (SessionState.confirm_subscription pid codes c.session_state).1.isOk = true) (fits : fits c packet = true) :
    Answered c packet kind pid := by
  refine ⟨answers, ?_⟩
  unfold Confirmed.fits at fits
  cases kind with
  | subscribe =>
    cases shaped : shape (H := v.Handler) packet <;> rw [shaped] at answers <;> cases answers
    rw [shaped] at fits
    simp only [taken _ shaped, Bool.not_true, Bool.false_or, Bool.and_eq_true, decide_eq_true_eq] at fits
    exact fits
  | unsubscribe =>
    cases shaped : shape (H := v.Handler) packet <;> rw [shaped] at answers <;> cases answers
    rw [shaped] at fits
    simp only [Bool.and_eq_true, decide_eq_true_eq] at fits
    exact fits

theorem call_truthful {c : Client v} (reachable : c.Reachable) {call : Call v} (honest : Honest c call) :
    Truthful c call := by
  intro kind pid returned
  obtain ⟨c₁, waits, event⟩ := Client.call_event reachable returned (by cases kind <;> simp [Request.reports])
  obtain ⟨packet, next, answers, taken⟩ := receive_answers event
  exact ⟨c₁, packet, waits, next, fits_answered answers taken (honest c₁ waits packet next)⟩

/-- A call reports no more than what was waited for. -/
theorem call_open {c : Client v} (reachable : c.Reachable) {call : Call v} (honest : Honest c call) (kind : Request)
    (pid : Pid) :
    (reported kind (c.call call).1).count pid + waiting_for v.Handler kind pid (c.after call).protocol_engine.log +
        (requests v.Handler kind c.protocol_engine.log).count pid ≤
      waiting_for v.Handler kind pid c.protocol_engine.log +
        (requests v.Handler kind (c.after call).protocol_engine.log).count pid := by
  by_cases returned : (c.call call).1 = .ok (.event (some (kind.reports pid)))
  · obtain ⟨c₁, packet, waits, next, answers, open_, -⟩ := call_truthful reachable honest kind pid returned
    have once : (reported kind (c.call call).1).count pid = 1 := by
      rw [returned]
      cases kind <;> exact List.count_singleton_self
    obtain ⟨-, -, acts, path⟩ := Client.waiting_follows waits reachable.idle
    have log : c₁.protocol_engine.log = c.protocol_engine.log ++ acts.flatMap Act.events := path.log
    have before := open_append_le (H := v.Handler) kind pid c.protocol_engine.log (acts.flatMap Act.events)
    obtain ⟨more, log'⟩ := receive_log c₁
    have arrived : arrival c₁.protocol_engine = [.received packet, .clock (c₁.protocol_engine.world.now 0)] := by
      rw [arrival, next_packet_iff.mp next]
    rw [arrived] at log'
    have answered := open_answered (H := v.Handler) answers open_ (c₁.protocol_engine.world.now 0)
    have later := open_append_le (H := v.Handler) kind pid
      (c₁.protocol_engine.log ++ [.received packet, .clock (c₁.protocol_engine.world.now 0)]) more
    have same : (requests v.Handler kind (c₁.protocol_engine.log ++
        [.received packet, .clock (c₁.protocol_engine.world.now 0)])).count pid =
          (requests v.Handler kind c₁.protocol_engine.log).count pid := by
      simp [requests]
    have after : c.after call = (exec MqttClient.receive c₁).2 := congrArg Prod.snd (Client.call_waiting waits)
    rw [once, after, log']
    rw [← log] at before
    omega
  · have none : (reported kind (c.call call).1).count pid = 0 :=
      List.count_eq_zero.mpr fun member => returned (mem_reported member)
    rw [none, Nat.zero_add, Client.call_log reachable.idle]
    exact open_append_le kind pid _ _

/-- As long as the broker answers only what it was asked, and grants a part of it, every
    answer that a poll reports is to a request that was waiting and is granted in part, and no
    identifier is reported more often than requests were sent under it. -/
theorem confirmations_truthful (world : World v.Packet v.Error) (setup : v.Setup) (config : ClientConfig)
    {calls : List (Call v)} (honest : Along Client.after Honest (MqttClient.new world (v.handler setup) config) calls) :
    Along Client.after Truthful (MqttClient.new world (v.handler setup) config) calls ∧ ∀ kind pid,
      (confirmations kind (MqttClient.new world (v.handler setup) config) calls).count pid ≤
        (requests v.Handler kind
          (Client.run (MqttClient.new world (v.handler setup) config) calls).protocol_engine.log).count pid := by
  have reachable : Client.Reachable (MqttClient.new world (v.handler setup) config) := ⟨world, setup, config, [], rfl⟩
  refine ⟨along_imp (I := Client.Reachable) (fun c call reachable _ => reachable.after call)
    (fun c call reachable honest => call_truthful reachable honest) reachable honest, fun kind pid => ?_⟩
  have paid : ∀ (c : Client v) call, c.Reachable → Honest c call →
      (reported kind (c.call call).1).count pid + waiting_for v.Handler kind pid (c.after call).protocol_engine.log +
          (requests v.Handler kind c.protocol_engine.log).count pid ≤
        waiting_for v.Handler kind pid c.protocol_engine.log +
          (requests v.Handler kind (c.after call).protocol_engine.log).count pid := fun c call reachable honest =>
    call_open reachable honest kind pid
  exact gather_earned _ (fun c : Client v => waiting_for v.Handler kind pid c.protocol_engine.log)
    (fun c => (requests v.Handler kind c.protocol_engine.log).count pid) (fun c call reachable _ => reachable.after call)
    paid rfl reachable honest

end

/-! ### A subscription that the broker refuses -/

section
local instance : Codec V3.Packet MqttProtoError := Wire.v3Codec
local instance : Codec V5.Packet ErrorV5 := Wire.v5Codec

def fresh : Client .v3 := MqttClient.new (.obliging true []) (Version.handler .v3 ()) {}
def connecting : Call .v3 := ⟨.connect, .obliging true [.Connack ⟨false, 0⟩]⟩
def subscribing : Call .v3 := ⟨.subscribe "a" .Level1, .obliging true []⟩
def answering (code : UInt8) : Call .v3 := ⟨.poll, .obliging true [.Suback ⟨.default, [code]⟩]⟩

theorem confirmations_truthful_once : Along Client.after Truthful fresh [connecting, subscribing, answering 1] ∧
    ∀ kind pid, (confirmations kind fresh [connecting, subscribing, answering 1]).count pid ≤
      (requests V3Handler kind (Client.run fresh [connecting, subscribing, answering 1]).protocol_engine.log).count pid := by
  have honest : Along Client.after Honest fresh [connecting, subscribing, answering 1] := by decide +kernel
  exact confirmations_truthful (v := .v3) (.obliging true []) () {} honest

/-- A subscription that the broker refuses is reported as confirmed. -/
theorem refusal_confirmed : ¬ ∀ (world : World V3.Packet MqttProtoError) (config : ClientConfig)
    (calls : List (Call .v3)), Along Client.after Truthful
      (MqttClient.new world (Version.handler .v3 ()) config : Client .v3) calls := by
  intro truthful
  have along : Along Client.after Truthful fresh [connecting, subscribing, answering 0x80] :=
    truthful (.obliging true []) {} _
  obtain ⟨c₁, packet, waits, next, -, -, granted⟩ := along.2.2.1 .subscribe .default (by decide +kernel)
  have refused : ∀ c₁ ∈ (Client.run fresh [connecting, subscribing]).waiting (answering 0x80),
      ∀ packet ∈ next_packet c₁.protocol_engine, grants .v3 packet = false := by decide +kernel
  cases granted.symm.trans (refused c₁ waits packet next)

end

end Masaka.Confirmed
