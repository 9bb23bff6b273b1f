import Masaka.Party
import Masaka.Reconnect

/-!
The client conducts itself as the protocol asks: the log of every run is one that the
party accepts, the party is connected exactly if the engine is, and it knows of
every handshake that the session holds. Every function of the client is walked
through once; what it does in the log is what the party allows.
-/
namespace Masaka.Conduct
open Effect Tables Monitor MqttProtocolHandler LawfulHandler MqttProtocolEngine Sending
open MqttClient (engine engineSession)

section
variable {H P E α β : Type}

/-- The party is connected if the engine is, and knows what the session holds. -/
structure Fits (q : Party) (e : MqttProtocolEngine H P E) (s : InMemorySession) : Prop where
  link : q.phase = .up ↔ e.connected = true
  idle : e.write_queue = []
  publishes : ∀ pid ∈ s.pending_publishes, pid ∈ q.publishable
  pubrels : ∀ pid ∈ s.pending_pubrels, pid ∈ q.releasable

/-- Both are connected. -/
structure Live (q : Party) (x : MqttProtocolEngine H P E × InMemorySession) : Prop where
  fits : Fits q x.1 x.2
  connected : x.1.connected = true

theorem Live.up {q : Party} {x : MqttProtocolEngine H P E × InMemorySession} (live : Live q x) : q.phase = .up :=
  live.fits.link.mpr live.connected

/-- What changes neither the connection nor the handshakes. -/
theorem Fits.turn {q : Party} {e e' : MqttProtocolEngine H P E} {s s' : InMemorySession} (fits : Fits q e s) (turn : Turn)
    (link : e'.connected = e.connected) (idle : e'.write_queue = [])
    (same : SessionState.handshakes s' = SessionState.handshakes s) : Fits { q with turn := turn } e' s' where
  link := by rw [link]; exact fits.link
  idle := idle
  publishes := by rw [show s'.pending_publishes = _ from congrArg Prod.fst same]; exact fits.publishes
  pubrels := by rw [show s'.pending_pubrels = _ from congrArg Prod.snd same]; exact fits.pubrels

theorem Live.turn {q : Party} {e e' : MqttProtocolEngine H P E} {s s' : InMemorySession} (live : Live q (e, s))
    (turn : Turn) (link : e'.connected = e.connected) (idle : e'.write_queue = [])
    (same : SessionState.handshakes s' = SessionState.handshakes s) : Live { q with turn := turn } (e', s') :=
  ⟨live.fits.turn turn link idle same, link.trans live.connected⟩

/-- The same, where the party stays as it is. -/
theorem Live.still {q : Party} {e e' : MqttProtocolEngine H P E} {s s' : InMemorySession} (live : Live q (e, s))
    (link : e'.connected = e.connected) (idle : e'.write_queue = e.write_queue)
    (same : SessionState.handshakes s' = SessionState.handshakes s) : Live q (e', s') :=
  live.turn q.turn link (idle.trans live.fits.idle) same

/-- A session that holds no more. -/
theorem Live.less {q : Party} {e : MqttProtocolEngine H P E} {s s' : InMemorySession} (live : Live q (e, s))
    (publishes : ∀ pid ∈ s'.pending_publishes, pid ∈ s.pending_publishes)
    (pubrels : ∀ pid ∈ s'.pending_pubrels, pid ∈ s.pending_pubrels) : Live q (e, s') where
  fits := {
    link := live.fits.link
    idle := live.fits.idle
    publishes := fun pid member => live.fits.publishes pid (publishes pid member)
    pubrels := fun pid member => live.fits.pubrels pid (pubrels pid member) }
  connected := live.connected

end

section
variable {H P E α β : Type} [MqttProtocolHandler H P E] [LawfulHandler H P E]

/-- The party goes along with a computation of the engine. -/
abbrev ObeysE (I : Party → MqttProtocolEngine H P E → Prop) (m : EngineM H P E α)
    (Q : α → Party → MqttProtocolEngine H P E → Prop) (F : Party → MqttProtocolEngine H P E → Prop) : Prop :=
  Obeys (Party.step H) MqttProtocolEngine.log I m Q F

/-- The party goes along with a computation of the engine and the session. -/
abbrev ObeysS (I : Party → MqttProtocolEngine H P E × InMemorySession → Prop) (m : SessionM H P E α)
    (Q : α → Party → MqttProtocolEngine H P E × InMemorySession → Prop)
    (F : Party → MqttProtocolEngine H P E × InMemorySession → Prop) : Prop :=
  Obeys (Party.step H) (fun s => s.1.log) I m Q F

/-- The party goes along with a computation of the client. -/
abbrev ObeysC (I : Party → MqttClient H P E → Prop) (m : ClientM H P E α) (Q : α → Party → MqttClient H P E → Prop)
    (F : Party → MqttClient H P E → Prop) : Prop :=
  Obeys (Party.step H) (fun c => c.protocol_engine.log) I m Q F

/-! ### Sending -/

/-- Handing over a packet: the party waits for its last byte, and goes on once that is out. -/
theorem transmission_read {q waiting done : Party} {tape rest : Tape} {flush : Answer Unit} {frame : Frame P}
    {events : List (Event P)} {r : Except (Halt MqttError) Unit}
    (transmission : Transmission tape flush frame events rest r)
    (queued : q.step H (.queued frame) = some waiting) (sent : waiting.step H (.sent frame) = some done) :
    ∃ q', read (Party.step H) q events = some q' ∧ (q' = waiting ∨ q' = done) ∧ (r = .ok () → q' = done) := by
  have written : ∀ {writes : List (Event P)}, (∀ event ∈ writes, ∃ bytes answer, event = wrote bytes answer) →
      read (Party.step H) waiting writes = some waiting := fun only => read_over fun event member => by
    obtain ⟨_, _, rfl⟩ := only event member
    rfl
  cases transmission with
  | complete writes _ =>
    refine ⟨done, ?_, .inr rfl, fun _ => rfl⟩
    rw [List.cons_append, read_cons, queued]
    exact read_join (written writes.only) (by rw [read_cons, sent]; rfl)
  | unflushed writes _ =>
    refine ⟨done, ?_, .inr rfl, fun _ => rfl⟩
    rw [List.cons_append, read_cons, queued]
    exact read_join (written writes.only) (by rw [read_cons, sent]; rfl)
  | broken breaks =>
    refine ⟨waiting, ?_, .inl rfl, fun same => by cases same⟩
    rw [read_cons, queued]
    exact written breaks.only

/-- A packet that may be sent goes out, or a part of it, or nothing. -/
theorem send_packet_spec {packet : P} {q : Party} {e : MqttProtocolEngine H P E} (idle : e.write_queue = [])
    (may : q.MayQueue (shape (H := H) packet)) (other : ∀ clean, shape (H := H) packet ≠ .connect clean) :
    wp (send_packet packet) e fun r e' => ∃ turn, Grows (Party.step H) MqttProtocolEngine.log q e { q with turn := turn } e' ∧
      (r = .ok () → turn = .free) ∧ e'.connected = e.connected ∧ e'.write_queue = [] := by
  refine wp_mono (Sending.send_packet_spec packet idle) fun r e' sent => ?_
  have frame := sent.frame
  have empty := sent.idle idle
  cases sent with
  | unencoded _ => exact ⟨q.turn, .same rfl, (fun same => by cases same), frame.1, empty⟩
  | @encoded bytes _ events _ _ _ _ encodes transmission _ =>
    have queued : q.step H (.queued ⟨packet, bytes⟩) = some { q with turn := .sending (shape (H := H) packet) } := by
      simp only [Party.step, if_pos may, Party.queues]
    have out : Party.step H { q with turn := .sending (shape (H := H) packet) } (.sent ⟨packet, bytes⟩) =
        some { q with turn := .free } := by
      simp only [Party.step, if_true]
    obtain ⟨q', accepted, either, whole⟩ := transmission_read transmission queued out
    refine ⟨q'.turn, ⟨events, rfl, ?_⟩, fun sent => by rw [whole sent], frame.1, empty⟩
    rw [accepted]
    rcases either with rfl | rfl <;> rfl

/-- Sending on a connection, under a condition on the party. -/
theorem sending {packet : P} {K Q : Party → Prop}
    (may : ∀ q, q.phase = .up → K q → q.MayQueue (shape (H := H) packet))
    (other : ∀ clean, shape (H := H) packet ≠ .connect clean) (kept : ∀ q, K q → Q { q with turn := .free }) :
    ObeysS (fun q x => Live q x ∧ K q) (zoom first (send_packet (H := H) packet)) (fun _ q x => Live q x ∧ Q q) Live := by
  rintro q ⟨e, s⟩ ⟨live, holds⟩
  rw [wp_zoom]
  refine wp_mono (send_packet_spec live.fits.idle (may q live.up holds) other) fun r e' ended => ?_
  obtain ⟨turn, grows, sent, link, idle⟩ := ended
  refine ⟨{ q with turn := turn }, grows, ?_⟩
  cases r with
  | ok _ =>
    rw [sent rfl]
    exact ⟨live.turn .free link idle rfl, kept q holds⟩
  | error _ => exact live.turn turn link idle rfl

/-! ### Requests -/

theorem clock {K : Party → Prop} : ObeysS (fun q x => Live (H := H) (P := P) (E := E) q x ∧ K q)
    (zoom first current_timestamp_ms) (fun _ q x => Live q x ∧ K q) Live :=
  Obeys.zoom (fun _ => rfl) fun _ => Obeys.event (g := fun e => .clock (e.world.now 0)) (fun _ => rfl)
    fun q _ holds => ⟨q, rfl, holds.1.still rfl rfl rfl, holds.2⟩

/-- An identifier is handed out. -/
theorem next_pid : ObeysS (fun q x => Live (H := H) (P := P) (E := E) q x) next_pid
    (fun pid q x => Live q x ∧ q.turn = .request pid) Live := by
  refine Obeys.bind (R := fun _ => Live) (Obeys.silent (fun _ => rfl) fun _ _ live => live.still rfl rfl rfl) fun pid => ?_
  refine Obeys.bind (R := fun _ q x => Live q x ∧ q.turn = .request pid) ?_ fun _ => Obeys.pure fun _ _ holds => holds
  refine Obeys.zoom (fun _ => rfl) fun s => Obeys.event (f := fun e => ((.ok ⟨⟩ : Except (Halt MqttError) PUnit),
    record (.handed_out pid) e)) (g := fun _ => .handed_out pid) (fun _ => rfl) fun q e live => ?_
  refine ⟨{ q with turn := .request pid }, ?_, live.turn (.request pid) rfl live.fits.idle rfl, rfl⟩
  simp only [Party.step, if_pos live.up]

theorem publish_pid (qos : QoS) : ObeysS (fun q x => Live (H := H) (P := P) (E := E) q x) (publish_pid qos)
    (fun pid q x => Live q x ∧ ∀ p ∈ pid, q.turn = .request p) Live := by
  cases qos with
  | Level0 => exact Obeys.pure fun _ _ live => ⟨live, by simp⟩
  | Level1 | Level2 =>
    refine next_pid.bind fun pid => Obeys.pure fun _ _ holds => ⟨holds.1, ?_⟩
    simpa using holds.2

/-- The message that goes out next is the one that was accepted. -/
def Ready (pid : Option Pid) (q : Party) : Prop := ∀ p ∈ pid, p ∈ q.publishable ∧ q.turn = .message p

/-- A message is accepted under the identifier handed out before. -/
theorem store_pending (pid : Option Pid) (topic : TopicName) (qos : QoS) (retain : Bool) (payload : Bytes) :
    ObeysS (fun q x => Live (H := H) (P := P) (E := E) q x ∧ ∀ p ∈ pid, q.turn = .request p)
      (store_pending pid topic qos retain payload) (fun _ q x => Live q x ∧ Ready pid q) Live := by
  cases pid with
  | none => exact Obeys.pure fun _ _ holds => ⟨holds.1, by simp [Ready]⟩
  | some pid =>
    refine clock.bind fun timestamp => ?_
    intro q x holds
    obtain ⟨live, turn⟩ := holds
    have turn : q.turn = .request pid := turn pid rfl
    -- Storing and the note in the log are one step: in between the session holds what the party does not know.
    refine ⟨{ q with publishable := insert pid q.publishable, turn := .message pid },
      .event rfl ?_, ?_, ?_⟩
    · simp only [Party.step, if_pos (And.intro live.up turn)]
    · refine ⟨⟨live.fits.link, live.fits.idle, fun p member => ?_, live.fits.pubrels⟩, live.connected⟩
      rcases (AList.mem_insert _).mp member with rfl | before
      · exact Finset.mem_insert_self _ _
      · exact Finset.mem_insert_of_mem (live.fits.publishes p before)
    · rintro p ⟨⟩
      exact ⟨Finset.mem_insert_self _ _, rfl⟩

/-- A message goes out for the first time. -/
theorem sending_first {packet : P} {message : V3.Publish} (shaped : shape (H := H) packet = .publish message)
    (new : message.dup = false) : ObeysS (fun q x => Live q x ∧ Ready message.qos_pid.pid q)
      (zoom first (send_packet (H := H) packet)) (fun _ => Live) Live := by
  refine (sending (K := Ready message.qos_pid.pid) (Q := fun _ => True) (fun q up ready => ?_) (fun clean same => ?_)
    fun _ _ => trivial).mono (fun _ _ holds => holds) (fun _ _ _ holds => holds.1) fun _ _ live => live
  · rw [shaped]
    exact ⟨up, fun _ => new, fun p member => ⟨(ready p member).1, fun _ => (ready p member).2⟩⟩
  · cases shaped.symm.trans same

/-- A packet that may go out on every connection. -/
theorem sending_any {packet : P} (may : ∀ q : Party, q.phase = .up → q.MayQueue (shape (H := H) packet))
    (other : ∀ clean, shape (H := H) packet ≠ .connect clean) :
    ObeysS Live (zoom first (send_packet (H := H) packet)) (fun _ => Live) Live :=
  (sending (K := fun _ => True) (Q := fun _ => True) (fun q up _ => may q up) other fun _ _ => trivial).mono
    (fun _ _ live => ⟨live, trivial⟩) (fun _ _ _ holds => holds.1) fun _ _ live => live

/-- A request under the identifier handed out before. -/
theorem sending_request {packet : P} {pid : Pid} {shaped : Shape} (same : shape (H := H) packet = shaped)
    (may : ∀ q : Party, q.phase = .up → q.turn = .request pid → q.MayQueue shaped)
    (other : ∀ clean, shaped ≠ .connect clean) : ObeysS (fun q x => Live q x ∧ q.turn = .request pid)
      (zoom first (send_packet (H := H) packet)) (fun _ => Live) Live :=
  (sending (K := fun q => q.turn = .request pid) (Q := fun _ => True) (by rw [same]; exact may) (by rw [same]; exact other)
    fun _ _ => trivial).mono (fun _ _ holds => holds) (fun _ _ _ holds => holds.1) fun _ _ live => live

theorem publish (topic : TopicName) (qos : QoS) (retain : Bool) (payload : Bytes) :
    ObeysS Live (publish (H := H) topic qos retain payload) (fun _ => Live) Live := by
  refine Obeys.get_bind fun s => Obeys.ite (fun _ => Obeys.fail fun _ _ holds => holds.1) fun _ => ?_
  refine ((publish_pid qos).mono (fun _ _ holds => holds.1) (fun _ _ _ holds => holds) fun _ _ live => live).bind
    fun pid => Obeys.bind_ofExcept (fun packet created => ?_) fun _ _ holds => holds.1
  obtain ⟨qp, carried, shaped⟩ := LawfulHandler.publish _ _ _ _ _ _ _ _ created
  refine (store_pending pid topic qos retain payload).bind fun _ => ?_
  have same : qp.pid = pid := (qos_pid_level carried).2
  refine Obeys.bind (R := fun _ => Live) ?_ fun _ => Obeys.pure fun _ _ live => live
  rw [← same]
  exact sending_first shaped rfl

/-- A request that takes an identifier and is sent. -/
theorem request {create : Pid → Except E P} {g : Pid → Shape}
    (same : ∀ pid packet, create pid = .ok packet → shape (H := H) packet = g pid)
    (may : ∀ pid (q : Party), q.phase = .up → q.turn = .request pid → q.MayQueue (g pid))
    (other : ∀ pid clean, g pid ≠ .connect clean) :
    ObeysS (H := H) Live (MqttProtocolEngine.next_pid >>= fun pid => ofExcept (into H) (create pid) >>= fun packet =>
      zoom first (send_packet packet) >>= fun _ => pure pid) (fun _ => Live) Live := by
  refine next_pid.bind fun pid => Obeys.bind_ofExcept (fun packet created => ?_) fun _ _ holds => holds.1
  refine (sending_request (same pid packet created) (may pid) (other pid)).bind fun _ => ?_
  exact Obeys.pure fun _ _ live => live

theorem subscribe {subscriptions : List (TopicFilter × QoS)} (some : subscriptions ≠ []) :
    ObeysS Live (subscribe (H := H) subscriptions) (fun _ => Live) Live := by
  refine Obeys.get_bind fun s => Obeys.ite (fun _ => Obeys.fail fun _ _ holds => holds.1) fun _ => ?_
  refine (request (g := fun pid => .subscribe pid subscriptions) (fun pid packet created => ?_)
    (fun pid q up turn => ⟨up, turn, some⟩) fun pid clean same => by cases same).mono (fun _ _ holds => holds.1)
      (fun _ _ _ live => live) fun _ _ live => live
  exact LawfulHandler.subscribe _ _ _ _ created

theorem unsubscribe {topics : List TopicFilter} (some : topics ≠ []) :
    ObeysS Live (unsubscribe (H := H) topics) (fun _ => Live) Live := by
  refine Obeys.get_bind fun s => Obeys.ite (fun _ => Obeys.fail fun _ _ holds => holds.1) fun _ => ?_
  refine (request (g := fun pid => .unsubscribe pid topics) (fun pid packet created => ?_)
    (fun pid q up turn => ⟨up, turn, some⟩) fun pid clean same => by cases same).mono (fun _ _ holds => holds.1)
      (fun _ _ _ live => live) fun _ _ live => live
  exact LawfulHandler.unsubscribe _ _ _ _ created

/-! ### Retransmission -/

/-- The retransmission of a message that the session holds. -/
theorem sending_again {packet : P} {message : V3.Publish} {pid : Pid} (shaped : shape (H := H) packet = .publish message)
    (again : message.dup = true) (carries : message.qos_pid.pid = some pid) :
    ObeysS (fun q x => Live q x ∧ pid ∈ q.publishable) (zoom first (send_packet (H := H) packet)) (fun _ => Live) Live := by
  refine (sending (K := fun q => pid ∈ q.publishable) (Q := fun _ => True) (fun q up held => ?_) (fun clean same => ?_)
    fun _ _ => trivial).mono (fun _ _ holds => holds) (fun _ _ _ holds => holds.1) fun _ _ live => live
  · rw [shaped]
    refine ⟨up, fun none => (by cases carries.symm.trans none), fun p member => ?_⟩
    cases carries.symm.trans member
    exact ⟨held, fun new => by cases again.symm.trans new⟩
  · cases shaped.symm.trans same

theorem retry_publish (current_time : Nat) (pid : Pid) :
    ObeysS Live (retry_publish (H := H) current_time pid) (fun _ => Live) Live := by
  refine Obeys.get_bind fun s => ?_
  dsimp only [SessionState.get_outgoing_publish_mut]
  cases stored : s.2.pending_publishes.lookup pid with
  | none => exact Obeys.pure fun _ _ holds => holds.1
  | some message =>
    have present : pid ∈ s.2.pending_publishes := mem_iff_lookup.mpr ⟨message, stored⟩
    refine Obeys.bind (R := fun _ q x => Live q x ∧ pid ∈ q.publishable) (Obeys.silent (fun _ => rfl) ?_) fun _ => ?_
    · rintro q x ⟨live, rfl⟩
      refine ⟨live.less (fun p member => ?_) fun _ member => member, live.fits.publishes pid present⟩
      exact ((AList.mem_insert _).mp member).elim (fun same => same ▸ present) id
    · refine Obeys.bind_ofExcept (fun packet created => ?_) fun _ _ holds => holds.1
      obtain ⟨qp, carried, shaped⟩ := LawfulHandler.publish _ _ _ _ _ _ _ _ created
      exact sending_again shaped rfl (qos_pid_level carried).2

/-- The PUBREL of a message that the party may release; it releases no other message less. -/
theorem retry_pubrel (current_time : Nat) (pid : Pid) (held : Finset Pid) (member : pid ∈ held) :
    ObeysS (fun q x => Live q x ∧ held ⊆ q.releasable) (retry_pubrel (H := H) current_time pid)
      (fun _ q x => Live q x ∧ held ⊆ q.releasable) Live := by
  refine Obeys.get_bind fun s => Obeys.bind_ofExcept (fun packet created => ?_) fun _ _ holds => holds.1.1
  have shaped : shape (H := H) packet = .pubrel pid := lawful_shape LawfulHandler.pubrel created
  refine Obeys.ite (fun _ => ?_) fun _ => Obeys.pure fun _ _ holds => holds.1
  refine (sending (K := fun q => held ⊆ q.releasable) (Q := fun q => held ⊆ q.releasable) (fun q up known => ?_)
    (fun clean same => ?_) fun _ known => known).mono (fun _ _ holds => holds.1) (fun _ _ _ holds => holds) fun _ _ live => live
  · rw [shaped]
    exact ⟨up, known member⟩
  · cases shaped.symm.trans same

theorem handle_retries (current_time : Nat) :
    ObeysS Live (handle_retries (H := H) current_time) (fun _ => Live) Live := by
  refine Obeys.get_bind fun s => ?_
  refine Obeys.bind (R := fun _ => Live) ((Obeys.forM fun pid _ => ?_).mono (fun _ _ holds => holds.1)
    (fun _ _ _ live => live) fun _ _ live => live) fun _ => ?_
  · refine Obeys.bind (R := fun _ => Live) (Obeys.silent (fun _ => rfl) fun q x live => ?_) fun _ =>
      Obeys.pure fun _ _ live => live
    exact live.less (fun p member => (AList.mem_erase.mp member).2) fun _ member => member
  refine (Obeys.forM fun pid _ => retry_publish current_time pid).bind fun _ => Obeys.get_bind fun s => ?_
  -- The party knows of every PUBREL that was collected, and forgets none while they are sent.
  let held := (((SessionState.pending_outgoing_pubrels s.1.world.order s.2).take 10)).toFinset
  refine (Obeys.forM (I := fun q x => Live q x ∧ held ⊆ q.releasable) fun pid listed => ?_).mono ?_
    (fun _ _ _ holds => holds.1) fun _ _ live => live
  · exact retry_pubrel current_time pid held (List.mem_toFinset.mpr listed)
  · rintro q x ⟨live, rfl⟩
    refine ⟨live, fun pid listed => live.fits.pubrels pid ?_⟩
    obtain ⟨entry, visited, rfl⟩ := List.mem_map.mp (List.mem_of_mem_take (List.mem_toFinset.mp listed))
    exact mem_iff_lookup.mpr ⟨entry.2, mem_iter.mp visited⟩

/-! ### Receiving -/

/-- The packet has been heard, and the session is as it was before. -/
structure Heard (shape : Shape) (q : Party) (x : MqttProtocolEngine H P E × InMemorySession) : Prop where
  before : ∃ old : Party, Live old x ∧ q = old.hears shape

omit [MqttProtocolHandler H P E] [LawfulHandler H P E] in
/-- A packet that concerns no handshake of the client. -/
theorem Heard.other {shape : Shape} {q : Party} {x : MqttProtocolEngine H P E × InMemorySession} (heard : Heard shape q x)
    (publishes : ∀ old : Party, (old.hears shape).publishable = old.publishable)
    (pubrels : ∀ old : Party, (old.hears shape).releasable = old.releasable) : Live q x := by
  obtain ⟨old, live, rfl⟩ := heard.before
  refine ⟨⟨live.fits.link, live.fits.idle, ?_, ?_⟩, live.connected⟩
  · rw [publishes]
    exact live.fits.publishes
  · rw [pubrels]
    exact live.fits.pubrels

/-- A packet that asks nothing of the client, or what the action says. -/
def Asks (shape : Shape) (action : PacketAction) : Prop :=
  shape.action = none ∧ action = .None ∨ shape.action = some action

theorem asks {h : H} {packet : P} {action : PacketAction} (handled : handle_packet h packet = .ok action) :
    Asks (shape (H := H) packet) action := by
  by_cases nothing : action = .None
  · cases asked : (shape (H := H) packet).action with
    | none => exact .inl ⟨asked, nothing⟩
    | some other =>
      cases (handle h packet other asked).symm.trans handled
      exact .inr asked
  · exact .inr (LawfulHandler.handled h packet action handled nothing)

omit [MqttProtocolHandler H P E] [LawfulHandler H P E] in
/-- A packet that asks nothing of the client. -/
theorem Heard.nothing {shape : Shape} {q : Party} {x : MqttProtocolEngine H P E × InMemorySession} (heard : Heard shape q x)
    (nothing : shape.action = none) : Live q x := by
  refine heard.other (fun old => ?_) fun old => ?_
  · cases shape <;> first | rfl | cases nothing
  · cases shape <;> first | rfl | cases nothing

/-- The next packet, on a connection that is up. -/
theorem receive_packet_unlogged : ObeysS Live (zoom first (receive_packet_unlogged (H := H)))
    (fun action q x => ∃ shape, Asks shape action ∧ Heard shape q x) Live := by
  rintro q ⟨e, s⟩ live
  rw [wp_zoom]
  refine wp_mono (receive_packet_unlogged_spec e) fun r e' waited => ?_
  obtain ⟨outcome, log, -, link, queue, -⟩ := waited
  have still : Live q (e', s) := live.still link queue rfl
  cases answer : e.world.read 0 with
  | packet packet =>
    simp only [arrival, answer] at log
    simp only [received, answer] at outcome
    refine ⟨q.hears (shape (H := H) packet), ⟨_, log, ?_⟩, ?_⟩
    · simp [Party.step, live.up]
    have heard : Heard (shape (H := H) packet) (q.hears (shape (H := H) packet)) (e', s) := ⟨q, still, rfl⟩
    cases handled : handle_packet e.handler packet with
    | ok action =>
      rw [handled] at outcome
      rw [outcome]
      exact ⟨_, asks handled, heard⟩
    | error err =>
      rw [handled] at outcome
      rw [outcome]
      refine heard.nothing ?_
      cases asked : (shape (H := H) packet).action with
      | none => rfl
      | some other => cases (handle e.handler packet other asked).symm.trans handled
  | failed consumed err =>
    simp only [arrival, answer, List.append_nil] at log
    simp only [received, answer] at outcome
    rw [outcome]
    exact ⟨q, .same log, still⟩
  | waiting consumed =>
    simp only [arrival, answer, List.append_nil] at log
    simp only [received, answer] at outcome
    rw [outcome]
    exact ⟨q, .same log, still⟩

/-- The answer to the packet received last. -/
theorem replying {f : H → Except E P} {shaped : Shape} (same : ∀ h packet, f h = .ok packet →
    shape (H := H) packet = shaped) (may : ∀ q : Party, q.phase = .up → q.turn = .answer shaped → q.MayQueue shaped)
    (other : ∀ clean, shaped ≠ .connect clean) :
    ObeysS (fun q x => Live q x ∧ q.turn = .answer shaped) (get >>= fun s => ofExcept (into H) (f s.1.handler) >>=
      fun packet => zoom first (send_packet packet) : SessionM H P E Unit) (fun _ => Live) Live := by
  refine Obeys.get_bind fun s => Obeys.bind_ofExcept (fun packet created => ?_) fun _ _ holds => holds.1.1
  refine (sending (K := fun q => q.turn = .answer shaped) (Q := fun _ => True) ?_ ?_ fun _ _ => trivial).mono
    (fun _ _ holds => holds.1) (fun _ _ _ holds => holds.1) fun _ _ live => live
  · rw [same _ packet created]
    exact may
  · rw [same _ packet created]
    exact other

omit [MqttProtocolHandler H P E] [LawfulHandler H P E] in
/-- A PUBACK or a PUBREC has been taken note of in the session. -/
theorem Heard.completed {q : Party} {e : MqttProtocolEngine H P E} {s : InMemorySession} {shape : Shape} {pid : Pid}
    (heard : Heard shape q (e, s)) (ack : shape = .puback pid ∨ shape = .pubrec pid) :
    Live q (e, (SessionState.complete_outgoing_publish pid s).2) := by
  obtain ⟨old, live, rfl⟩ := heard.before
  refine ⟨⟨live.fits.link, live.fits.idle, fun p member => ?_, fun p member => ?_⟩, live.connected⟩
  · obtain ⟨other, held⟩ := AList.mem_erase.mp member
    have known := live.fits.publishes p held
    rcases ack with rfl | rfl <;> exact Finset.mem_erase.mpr ⟨other, known⟩
  · have known := live.fits.pubrels p member
    rcases ack with rfl | rfl
    · exact known
    · simp only [Party.hears]
      split
      · exact Finset.mem_insert_of_mem known
      · exact known

omit [MqttProtocolHandler H P E] [LawfulHandler H P E] in
/-- A PUBCOMP has been taken note of in the session. -/
theorem Heard.finished {q : Party} {e : MqttProtocolEngine H P E} {s : InMemorySession} {pid : Pid}
    (heard : Heard (.pubcomp pid) q (e, s)) : Live q (e, (SessionState.complete_outgoing_pubrel pid
      (SessionState.complete_outgoing_publish pid s).2).2) := by
  obtain ⟨old, live, rfl⟩ := heard.before
  refine ⟨⟨live.fits.link, live.fits.idle, fun p member => ?_, fun p member => ?_⟩, live.connected⟩
  · obtain ⟨other, held⟩ := AList.mem_erase.mp member
    exact Finset.mem_erase.mpr ⟨other, live.fits.publishes p held⟩
  · obtain ⟨other, held⟩ := AList.mem_erase.mp member
    exact Finset.mem_erase.mpr ⟨other, live.fits.pubrels p held⟩

/-- The answer to a PUBREC: the message may be released from here on. -/
theorem releasing (pid : Pid) : ObeysS (fun q x => Heard (.pubrec pid) q x)
    (acknowledge (H := H) (.PublishRec pid)) (fun _ => Live) Live := by
  refine Obeys.bind (R := fun found q x => Live q x ∧ (found.isSome → pid ∈ q.releasable))
    (Obeys.silent (fun _ => rfl) fun q x heard => ⟨heard.completed (.inr rfl), fun found => ?_⟩) fun found => ?_
  · obtain ⟨old, live, rfl⟩ := heard.before
    have present : pid ∈ x.2.pending_publishes := AList.lookup_isSome.mp found
    have known := live.fits.publishes pid present
    simp only [Party.hears, if_pos known]
    exact Finset.mem_insert_self _ _
  cases found with
  | none => exact Obeys.pure fun _ _ holds => holds.1
  | some message =>
    refine Obeys.get_bind fun s => Obeys.bind_ofExcept (fun packet created => ?_) fun _ _ holds => holds.1.1
    have shaped : shape (H := H) packet = .pubrel pid := lawful_shape LawfulHandler.pubrel created
    refine Obeys.bind (R := fun _ q x => Live q x ∧ pid ∈ q.releasable) ?_ fun _ => ?_
    · refine (sending (K := fun q => pid ∈ q.releasable) (Q := fun q => pid ∈ q.releasable) (fun q up held => ?_)
        (fun clean same => ?_) fun _ held => held).mono (fun _ _ holds => ⟨holds.1.1, holds.1.2 rfl⟩)
          (fun _ _ _ holds => holds) fun _ _ live => live
      · rw [shaped]
        exact ⟨up, held⟩
      · cases shaped.symm.trans same
    · refine Obeys.bind (R := fun _ => Live) (Obeys.silent (fun _ => rfl) ?_) fun _ =>
        Obeys.ofExcept (fun _ _ _ live => live) fun _ _ live => live
      rintro q x ⟨live, held⟩
      refine ⟨⟨live.fits.link, live.fits.idle, live.fits.publishes, fun p member => ?_⟩, live.connected⟩
      rcases (AList.mem_insert _).mp member with rfl | before
      · exact held
      · exact live.fits.pubrels p before

/-- A PUBLISH calls for the answer that its level asks for. -/
theorem publish_reply {message : V3.Publish} {pid : Pid} (carries : message.qos_pid.pid = some pid) :
    (message.qos_pid.qos = .Level1 → Party.reply (.publish message) = .answer (.puback pid)) ∧
      (message.qos_pid.qos = .Level2 → Party.reply (.publish message) = .answer (.pubrec pid)) := by
  obtain ⟨dup, qos_pid, retain, topic, payload⟩ := message
  cases qos_pid <;> cases carries <;> simp [Party.reply, QosPid.qos]

/-- Whatever was heard is taken note of, and answered. -/
theorem acknowledge (action : PacketAction) : ObeysS (fun q x => ∃ shape, Asks shape action ∧ Heard shape q x)
    (acknowledge (H := H) action) (fun _ => Live) Live := by
  intro q x holds
  obtain ⟨shape, asked | asked, heard⟩ := holds
  · obtain ⟨nothing, rfl⟩ := asked
    exact ⟨q, .same rfl, heard.nothing nothing⟩
  -- The case of the shape decides the action.
  cases shape with
  | puback pid =>
    cases asked
    exact ⟨q, .same rfl, heard.completed (.inl rfl)⟩
  | pubrec pid =>
    cases asked
    exact releasing pid q x heard
  | pubcomp pid =>
    cases asked
    exact ⟨q, .same rfl, heard.finished⟩
  | pubrel pid =>
    cases asked
    have live : Live q x := heard.other (fun _ => rfl) fun _ => rfl
    obtain ⟨old, -, rfl⟩ := heard.before
    exact replying (f := fun h => create_pubcomp_packet h pid)
      (fun h packet created => lawful_shape LawfulHandler.pubcomp created) (fun _ up turn => ⟨up, turn⟩)
      (fun _ same => by cases same) _ x ⟨live, rfl⟩
  | publish message =>
    cases asked
    have live : Live q x := heard.other (fun _ => rfl) fun _ => rfl
    obtain ⟨old, -, rfl⟩ := heard.before
    cases carries : message.qos_pid.pid with
    | none => cases message.qos_pid.qos <;> exact ⟨_, .same rfl, live⟩
    | some pid =>
      cases level : message.qos_pid.qos with
      | Level0 => exact ⟨_, .same rfl, live⟩
      | Level1 =>
        exact replying (f := fun h => create_puback_packet h pid)
          (fun h packet created => lawful_shape LawfulHandler.puback created) (fun _ up turn => ⟨up, turn⟩)
          (fun _ same => by cases same) _ x ⟨live, (publish_reply carries).1 level⟩
      | Level2 =>
        exact replying (f := fun h => create_pubrec_packet h pid)
          (fun h packet created => lawful_shape LawfulHandler.pubrec created) (fun _ up turn => ⟨up, turn⟩)
          (fun _ same => by cases same) _ x ⟨live, (publish_reply carries).2 level⟩
  | connack | suback | unsuback | pingresp =>
    cases asked
    exact ⟨q, .same rfl, heard.other (fun _ => rfl) fun _ => rfl⟩
  | connect | subscribe | unsubscribe | pingreq | disconnect | auth => cases asked

/-- The packet that ends a handshake on the side of the PUBLISH. -/
def Final (pid : Pid) (action : PacketAction) : Prop := action = .PublishAck pid ∨ action = .PublishComplete pid

/-- After the last acknowledgment the message may not be published again. -/
theorem acknowledge_final {pid : Pid} {action : PacketAction} (final : Final pid action) :
    ObeysS (fun q x => ∃ shape, Asks shape action ∧ Heard shape q x) (MqttProtocolEngine.acknowledge (H := H) action)
      (fun _ q x => Live q x ∧ pid ∉ q.publishable) Live := by
  rintro q x ⟨shape, asked | asked, heard⟩
  · obtain ⟨-, rfl⟩ := asked
    rcases final with other | other <;> cases other
  · obtain ⟨old, -, same⟩ := heard.before
    rcases final with rfl | rfl
    · cases shape <;> cases asked
      refine ⟨q, .same rfl, heard.completed (.inl rfl), ?_⟩
      rw [same]
      exact Finset.notMem_erase pid _
    · cases shape <;> cases asked
      refine ⟨q, .same rfl, heard.finished, ?_⟩
      rw [same]
      exact Finset.notMem_erase pid _

theorem receive_packet : ObeysS Live (receive_packet (H := H))
    (fun action q x => Live q x ∧ ∀ pid, Final pid action → pid ∉ q.publishable) Live := by
  refine receive_packet_unlogged.bind fun action => ?_
  by_cases final : ∃ pid, Final pid action
  · obtain ⟨pid, ends⟩ := final
    refine (acknowledge_final ends).bind fun _ => Obeys.pure fun q x holds => ⟨holds.1, fun other same => ?_⟩
    have only : other = pid := by
      rcases ends with rfl | rfl <;> rcases same with same | same <;> cases same <;> rfl
    rw [only]
    exact holds.2
  · exact (acknowledge action).bind fun _ => Obeys.pure fun q x live =>
      ⟨live, fun pid ends => absurd ⟨pid, ends⟩ final⟩

/-! ### Connecting -/

/-- A party without a connection, in one of the two phases, that knows what another one knows. -/
structure Off (old : Party) (q : Party) : Prop where
  down : q.phase ≠ .up
  publishable : q.publishable = old.publishable
  releasable : q.releasable = old.releasable

omit [MqttProtocolHandler H P E] [LawfulHandler H P E] in
/-- Without a connection everything else may be as it was. -/
theorem Fits.off {old q : Party} {e e' : MqttProtocolEngine H P E} {s : InMemorySession} (fits : Fits old e s)
    (off : Off old q) (link : e'.connected = false) (idle : e'.write_queue = []) : Fits q e' s where
  link := iff_of_false off.down (by rw [link]; decide)
  idle := idle
  publishes := by rw [off.publishable]; exact fits.publishes
  pubrels := by rw [off.releasable]; exact fits.pubrels

/-- A CONNECT that is sent opens the connection. -/
theorem send_connect_spec {packet : P} {clean : Bool} {q : Party} {e : MqttProtocolEngine H P E} (idle : e.write_queue = [])
    (shaped : shape (H := H) packet = .connect clean) (may : q.MayQueue (.connect clean)) :
    wp (send_packet packet) e fun r e' => ∃ q', Grows (Party.step H) MqttProtocolEngine.log q e q' e' ∧ Off q q' ∧
      (r = .ok () → q'.phase = .opening) ∧ e'.connected = e.connected ∧ e'.write_queue = [] := by
  refine wp_mono (Sending.send_packet_spec packet idle) fun r e' sent => ?_
  have frame := sent.frame
  have empty := sent.idle idle
  cases sent with
  | unencoded _ => exact ⟨q, .same rfl, ⟨may.1, rfl, rfl⟩, (fun same => by cases same), frame.1, empty⟩
  | @encoded bytes _ events _ _ _ _ encodes transmission _ =>
    let waiting : Party := { q with phase := .down, turn := .sending (.connect clean) }
    have queued : q.step H (.queued ⟨packet, bytes⟩) = some waiting := by
      simp only [Party.step, shaped, if_pos may]
      rfl
    have out : waiting.step H (.sent ⟨packet, bytes⟩) = some { waiting with phase := .opening, turn := .free } := by
      simp only [Party.step, shaped, waiting, if_true]
    obtain ⟨q', accepted, either, whole⟩ := transmission_read transmission queued out
    refine ⟨q', ⟨events, rfl, accepted⟩, ?_, fun sent => by rw [whole sent], frame.1, empty⟩
    rcases either with rfl | rfl <;> exact ⟨by simp, rfl, rfl⟩

/-- The first packet on a connection decides it. -/
theorem receive_first {old : Party} {s : InMemorySession} : ObeysE (H := H)
    (fun q e => Fits old e s ∧ Off old q ∧ e.connected = false ∧ q.phase = .opening) MqttProtocolEngine.receive_packet_unlogged
    (fun action q e => e.connected = false ∧ e.write_queue = [] ∧ q.publishable = old.publishable ∧
      q.releasable = old.releasable ∧ (q.phase = .up ↔ ∃ session_present, action = .ConnectAck session_present 0))
    fun q e => Fits q e s := by
  rintro q e ⟨fits, off, link, opening⟩
  refine wp_mono (receive_packet_unlogged_spec e) fun r e' waited => ?_
  obtain ⟨outcome, log, -, same, queue, -⟩ := waited
  have link' : e'.connected = false := same.trans link
  have idle : e'.write_queue = [] := queue.trans fits.idle
  cases answer : e.world.read 0 with
  | packet packet =>
    simp only [arrival, answer] at log
    simp only [received, answer] at outcome
    let next : Party := { q with phase := if (shape (H := H) packet).accepts then .up else .down, turn := .free }
    refine ⟨next, ⟨_, log, ?_⟩, ?_⟩
    · simp [Party.step, opening, next]
    cases handled : handle_packet e.handler packet with
    | ok action =>
      rw [handled] at outcome
      rw [outcome]
      refine ⟨link', idle, off.publishable, off.releasable, ?_⟩
      have asked := asks handled
      change (if (shape (H := H) packet).accepts then Phase.up else .down) = .up ↔ _
      rcases asked with ⟨nothing, rfl⟩ | asked
      · cases shaped : shape (H := H) packet <;> simp_all [Shape.action, Shape.accepts]
      · cases shaped : shape (H := H) packet <;> rw [shaped] at asked <;> cases asked <;> simp [Shape.accepts]
    | error err =>
      rw [handled] at outcome
      rw [outcome]
      refine fits.off ⟨?_, off.publishable, off.releasable⟩ link' idle
      have refused : (shape (H := H) packet).accepts = false := by
        cases shaped : shape (H := H) packet with
        | connack session_present code =>
          have accepted := handle e.handler packet (.ConnectAck session_present code) (by rw [shaped]; rfl)
          cases accepted.symm.trans handled
        | _ => rfl
      simp [next, refused]
  | failed consumed err =>
    simp only [arrival, answer, List.append_nil] at log
    simp only [received, answer] at outcome
    rw [outcome]
    exact ⟨q, .same log, fits.off off link' idle⟩
  | waiting consumed =>
    simp only [arrival, answer, List.append_nil] at log
    simp only [received, answer] at outcome
    rw [outcome]
    exact ⟨q, .same log, fits.off off link' idle⟩

/-- A party that may open a clean session holds nothing. -/
def Blank (clean : Bool) (q : Party) : Prop := clean = true → q.publishable = ∅ ∧ q.releasable = ∅

theorem connect_with_will (id : String) (user : Option String) (pass : Option Bytes) (alive : UInt16) (clean : Bool)
    (topic : Option TopicName) (message : Option Bytes) (qos : Option QoS) (retain : Bool) (s : InMemorySession) :
    ObeysE (H := H) (fun q e => Fits q e s ∧ Blank clean q)
      (connect_with_will id user pass alive clean topic message qos retain)
      (fun _ q e => Live q (e, s)) fun q e => Fits q e s := by
  refine Obeys.get_bind fun e₀ => Obeys.ite (fun _ => Obeys.fail fun _ _ holds => holds.1.1) fun unlinked => ?_
  refine Obeys.bind (R := fun _ q e => Fits q e s ∧ Blank clean q ∧ e.connected = false)
    (Obeys.modify (fun _ => rfl) ?_) fun _ => Obeys.bind_ofExcept (fun packet created => ?_) fun _ _ holds => holds.1
  · rintro q e ⟨⟨fits, blank⟩, rfl⟩
    exact ⟨⟨fits.link, fits.idle, fits.publishes, fits.pubrels⟩, blank, Bool.eq_false_iff.mpr unlinked⟩
  have shaped : shape (H := H) packet = .connect clean := by
    split at created
    · exact LawfulHandler.connect_with_will _ _ _ _ _ _ _ _ _ _ _ created
    · exact LawfulHandler.connect _ _ _ _ _ _ _ created
  rintro q e ⟨fits, blank, link⟩
  have down : q.phase ≠ .up := fun up => by rw [fits.link.mp up] at link; cases link
  -- From here on the party is compared with the one that the attempt began with.
  refine (Obeys.bind (I := fun q' e' => q' = q ∧ e' = e) (R := fun _ q' e' => Fits q e' s ∧ Off q q' ∧
    e'.connected = false ∧ q'.phase = .opening) (F := fun q e => Fits q e s) ?_ fun _ => receive_first.bind fun action => ?_)
      q e ⟨rfl, rfl⟩
  · rintro q' e' ⟨rfl, rfl⟩
    refine wp_mono (send_connect_spec fits.idle shaped ⟨down, blank⟩) fun r e' ended => ?_
    obtain ⟨q', grows, off, opened, link', idle⟩ := ended
    have unlinked' : e'.connected = false := link'.trans link
    refine ⟨q', grows, ?_⟩
    cases r with
    | ok _ => exact ⟨fits.off ⟨down, rfl, rfl⟩ unlinked' idle, off, unlinked', opened rfl⟩
    | error _ => exact fits.off off unlinked' idle
  · have refused : ∀ err, (∀ session_present, action ≠ .ConnectAck session_present 0) → ObeysE (H := H) (α := PacketAction)
        (fun q' e => e.connected = false ∧ e.write_queue = [] ∧ q'.publishable = q.publishable ∧
          q'.releasable = q.releasable ∧ (q'.phase = .up ↔ ∃ session_present, action = .ConnectAck session_present 0))
        (fail err) (fun _ q e => Live q (e, s)) fun q e => Fits q e s := by
      refine fun err other => Obeys.fail fun q' e' holds => ?_
      obtain ⟨link', idle, publishable, releasable, up⟩ := holds
      refine fits.off ⟨fun here => ?_, publishable, releasable⟩ link' idle
      obtain ⟨session_present, same⟩ := up.mp here
      exact other session_present same
    cases action with
    | ConnectAck session_present return_code =>
      refine Obeys.ite (fun accepted => ?_) fun other => refused _ fun _ same => by cases same; exact other rfl
      refine Obeys.bind (R := fun _ q e => Live q (e, s)) (Obeys.modify (fun _ => rfl) ?_) fun _ =>
        Obeys.pure fun _ _ live => live
      rintro q' e' ⟨-, idle, publishable, releasable, up⟩
      have phase : q'.phase = .up := up.mpr ⟨session_present, by rw [accepted]⟩
      exact ⟨⟨iff_of_true phase rfl, idle, by rw [publishable]; exact fits.publishes, by
        rw [releasable]; exact fits.pubrels⟩, rfl⟩
    | _ => exact refused _ fun _ same => by cases same

/-! ### The client -/

/-- The party fits the client. -/
abbrev FitsC (q : Party) (c : MqttClient H P E) : Prop := Fits q c.protocol_engine c.session_state
/-- The party and the client are connected. -/
abbrev LiveC (q : Party) (c : MqttClient H P E) : Prop := Live q (c.protocol_engine, c.session_state)

/-- What keeps a connection up keeps the party fitting. -/
theorem ObeysC.live {m : ClientM H P E α} (obeys : ObeysC LiveC m (fun _ => LiveC) LiveC) :
    ObeysC LiveC m (fun _ => FitsC) FitsC :=
  obeys.mono (fun _ _ live => live) (fun _ _ _ live => live.fits) fun _ _ live => live.fits

theorem inSession {m : SessionM H P E α} {I F : Party → MqttProtocolEngine H P E × InMemorySession → Prop}
    {Q : α → Party → MqttProtocolEngine H P E × InMemorySession → Prop} (obeys : ObeysS I m Q F) :
    ObeysC (fun q c => I q (c.protocol_engine, c.session_state)) (zoom engineSession m)
      (fun a q c => Q a q (c.protocol_engine, c.session_state)) fun q c => F q (c.protocol_engine, c.session_state) :=
  Obeys.zoom (l := engineSession) (p := fun s => s.1.log) (fun _ => rfl) fun _ => obeys

/-- What the engine does beside a session that stays. -/
theorem inEngine {m : EngineM H P E α} {I F : Party → MqttProtocolEngine H P E → InMemorySession → Prop}
    {Q : α → Party → MqttProtocolEngine H P E → InMemorySession → Prop}
    (obeys : ∀ s, ObeysE (fun q e => I q e s) m (fun a q e => Q a q e s) fun q e => F q e s) :
    ObeysC (fun q c => I q c.protocol_engine c.session_state) (zoom engine m)
      (fun a q c => Q a q c.protocol_engine c.session_state) fun q c => F q c.protocol_engine c.session_state :=
  Obeys.zoom (l := engine) (p := MqttProtocolEngine.log) (fun _ => rfl) fun c => obeys c.session_state

/-- A change of the connection state. -/
theorem entering {I J F : Party → MqttClient H P E → Prop} (new : ConnectionState)
    (kept : ∀ q c, I q c → J q { c with state := c.state.set_connection_state new }) :
    ObeysC I (MqttClient.set_connection_state new : ClientM H P E Unit) (fun _ => J) F :=
  Obeys.modify (f := fun c : MqttClient H P E => { c with state := c.state.set_connection_state new }) (fun _ => rfl) kept

/-- A refused attempt. -/
theorem refusing {I : Party → MqttClient H P E → Prop} (new : ConnectionState) (err : MqttError)
    (fits : ∀ q c, I q c → FitsC q c) {Q : α → Party → MqttClient H P E → Prop} :
    ObeysC I (do MqttClient.set_connection_state new; fail err : ClientM H P E α) Q FitsC :=
  Obeys.bind (R := fun _ => FitsC) (entering new fits) fun _ => Obeys.fail fun _ _ fits => fits

theorem trySession {f : InMemorySession → Except MqttError α × InMemorySession}
    (same : ∀ s, SessionState.handshakes (f s).2 = SessionState.handshakes s) :
    ObeysC LiveC (MqttClient.trySession f : ClientM H P E α) (fun _ => LiveC) LiveC :=
  inSession (I := Live) (F := Live) (Q := fun _ => Live) <| Obeys.bind (R := fun _ => Live)
    (Obeys.silent (fun _ => rfl) fun _ x live => live.still rfl rfl (same x.2))
    fun _ => Obeys.ofExcept (fun _ _ _ live => live) fun _ _ live => live

theorem resend_pending_messages : ObeysC LiveC (MqttClient.resend_pending_messages (H := H)) (fun _ => LiveC) LiveC := by
  refine Obeys.get_bind fun c => ?_
  -- The party knows of every message that was collected, and forgets none while they are sent.
  let to_resend := SessionState.pending_outgoing_publishes c.protocol_engine.world.order c.session_state
  refine (Obeys.forM (I := fun q c => LiveC q c ∧ ∀ entry ∈ to_resend, entry.1 ∈ q.publishable) fun entry listed => ?_).mono
    ?_ (fun _ _ _ holds => holds.1) fun _ _ live => live
  · refine Obeys.get_bind fun c => Obeys.bind_ofExcept (fun packet created => ?_) fun _ _ holds => holds.1.1
    obtain ⟨qp, carried, shaped⟩ := LawfulHandler.publish _ _ _ _ _ _ _ _ created
    refine (inSession (sending (K := fun q => ∀ entry ∈ to_resend, entry.1 ∈ q.publishable)
      (Q := fun q => ∀ entry ∈ to_resend, entry.1 ∈ q.publishable) (fun q up known => ?_) (fun clean same => ?_)
      fun _ known => known)).mono (fun _ _ holds => holds.1) (fun _ _ _ holds => holds) fun _ _ live => live
    · rw [shaped]
      have carries : qp.pid = some entry.1 := (qos_pid_level carried).2
      refine ⟨up, fun none => (by cases carries.symm.trans none), fun p member => ⟨?_, fun new => by cases new⟩⟩
      cases carries.symm.trans member
      exact known entry listed
    · cases shaped.symm.trans same
  · rintro q c ⟨live, rfl⟩
    exact ⟨live, fun entry listed => live.fits.publishes entry.1 (mem_iff_lookup.mpr ⟨entry.2, mem_iter.mp listed⟩)⟩

/-- The session is cleared, and the party holds nothing either. -/
theorem clear_session (clean : Bool) : ObeysC FitsC (MqttClient.clear_session : ClientM H P E Unit)
    (fun _ q c => FitsC q c ∧ Blank clean q) FitsC := by
  refine Obeys.event (f := fun c : MqttClient H P E => ((.ok ⟨⟩ : Except (Halt MqttError) PUnit), { c with
    session_state := SessionState.clear c.session_state
    protocol_engine := record .cleared c.protocol_engine })) (g := fun _ => .cleared) (fun _ => rfl) fun q c fits => ?_
  refine ⟨_, rfl, ⟨fits.link, fits.idle, ?_, ?_⟩, fun _ => ⟨rfl, rfl⟩⟩
  · exact fun pid member => absurd member (AList.notMem_empty pid)
  · exact fun pid member => absurd member (AList.notMem_empty pid)

theorem connect : ObeysC FitsC (MqttClient.connect (H := H)) (fun _ => LiveC) FitsC := by
  refine Obeys.get_bind fun c => Obeys.bind_ofExcept (fun _ _ => ?_) fun _ _ holds => holds.1
  refine Obeys.bind (R := fun _ => FitsC) (entering .Connecting fun _ _ holds => holds.1) fun _ => ?_
  refine Obeys.bind (R := fun _ q c' => FitsC q c' ∧ Blank c.config.clean_session q) ?_ fun _ => ?_
  · refine Obeys.onlyIf (fun _ => clear_session _) fun kept _ _ fits => ⟨fits, fun clean => absurd clean kept⟩
  refine Obeys.bind (Obeys.attempt (inEngine (I := fun q e s => Fits q e s ∧ Blank c.config.clean_session q)
    (F := Fits) (Q := fun _ q e s => Live q (e, s)) (connect_with_will _ _ _ _ _ _ _ _ _))) fun result => ?_
  rcases result with err | action
  · exact refusing _ _ fun _ _ fits => fits
  cases action with
  | ConnectAck session_present return_code =>
    refine Obeys.ite (fun _ => ?_) fun _ => refusing _ _ fun _ _ live => live.fits
    refine Obeys.bind (R := fun _ => LiveC) (entering .Connected fun _ _ live => live) fun _ => ?_
    refine Obeys.bind (R := fun _ => LiveC) (Obeys.modify (fun _ => rfl) fun _ _ live => live) fun _ => ?_
    exact Obeys.onlyIf (fun _ => resend_pending_messages.mono (fun _ _ live => live) (fun _ _ _ live => live)
      fun _ _ live => live.fits) fun _ _ _ live => live
  | _ => exact refusing _ _ fun _ _ live => live.fits

theorem reconnect : ObeysC FitsC (MqttClient.reconnect (H := H)) (fun _ => LiveC) FitsC := by
  refine Obeys.get_bind fun c => Obeys.ite (fun _ => Obeys.fail fun _ _ holds => holds.1) fun _ => ?_
  refine Obeys.ite (fun _ => Obeys.fail fun _ _ holds => holds.1) fun _ => ?_
  refine Obeys.bind (R := fun _ => FitsC) (Obeys.modify (fun _ => rfl) fun _ _ holds => ?_) fun _ => ?_
  · exact ⟨holds.1.link, holds.1.idle, holds.1.publishes, holds.1.pubrels⟩
  refine Obeys.bind (R := fun _ => FitsC) (inEngine (I := Fits) (F := Fits) (Q := fun _ => Fits) fun s => ?_) fun _ => connect
  refine Obeys.event (g := fun _ => .delay _) (fun _ => rfl) fun q e fits => ⟨q, rfl, ?_⟩
  cases e.world.delay 0 <;> exact ⟨fits.link, fits.idle, fits.publishes, fits.pubrels⟩

/-- The engine gives up its connection before it closes the transport. -/
theorem engine_disconnect (s : InMemorySession) : ObeysE (H := H) (fun q e => Fits q e s) MqttProtocolEngine.disconnect
    (fun _ q e => Fits q e s) fun q e => Fits q e s := by
  refine Obeys.get_bind fun e₀ => Obeys.ite (fun _ => Obeys.pure fun _ _ holds => holds.1) fun linked => ?_
  refine Obeys.bind (R := fun _ q e => Live q (e, s)) ?_ fun _ => ?_
  · rintro q e ⟨fits, rfl⟩
    have live : Live q (e, s) := ⟨fits, by simpa using linked⟩
    have may : q.MayQueue (shape (H := H) (create_disconnect_packet (H := H) (P := P) e.handler)) := by
      rw [LawfulHandler.disconnect]
      exact live.up
    refine wp_mono (send_packet_spec fits.idle may fun clean same => ?_) fun r e' ended => ?_
    · rw [LawfulHandler.disconnect] at same
      cases same
    obtain ⟨turn, grows, -, link, idle⟩ := ended
    have kept : Live { q with turn := turn } (e', s) := live.turn turn link idle rfl
    refine ⟨{ q with turn := turn }, grows, ?_⟩
    cases r with
    | ok _ => exact kept
    | error _ => exact kept.fits
  -- Between the flag and the close the party still counts on the connection.
  refine Obeys.bind (R := fun _ q e => Live q ({ e with connected := true }, s) ∧ e.connected = false)
    (Obeys.modify (fun _ => rfl) fun q e live => ⟨⟨⟨iff_of_true live.up rfl, live.fits.idle, live.fits.publishes,
      live.fits.pubrels⟩, rfl⟩, rfl⟩) fun _ => ?_
  refine Obeys.event (g := fun e => .close (e.world.close 0)) (fun _ => rfl) fun q e holds => ?_
  obtain ⟨live, unlinked⟩ := holds
  refine ⟨{ q with phase := .down, turn := .free }, by simp only [Party.step, if_pos live.up], ?_⟩
  have fits : Fits (H := H) (P := P) (E := E) { q with phase := .down, turn := .free } { e with
      world := { e.world with close := fun n => e.world.close (n + 1) }
      log := e.log ++ [.close (e.world.close 0)] } s :=
    ⟨iff_of_false (by simp) (by simp [unlinked]), live.fits.idle, live.fits.publishes, live.fits.pubrels⟩
  cases answered (e.world.close 0) <;> exact fits

theorem disconnect : ObeysC FitsC (MqttClient.disconnect (H := H)) (fun _ => FitsC) FitsC := by
  refine Obeys.get_bind fun c => Obeys.ite (fun _ => Obeys.pure fun _ _ holds => holds.1) fun _ => ?_
  refine Obeys.bind (R := fun _ => FitsC) (entering .Disconnecting fun _ _ holds => holds.1) fun _ => ?_
  refine Obeys.bind (Obeys.attempt (inEngine (I := Fits) (F := Fits) (Q := fun _ => Fits) engine_disconnect))
    fun result => ?_
  refine Obeys.bind (R := fun _ => FitsC) (entering .Disconnected fun q c ended => ?_) fun _ =>
    Obeys.ofExcept (fun _ _ _ fits => fits) fun _ _ fits => fits
  cases result <;> exact ended

/-! ### Polling -/

theorem engine_ping : ObeysC LiveC (zoom engine (MqttProtocolEngine.ping (H := H))) (fun _ => LiveC) LiveC := by
  have pings : ∀ h : H, shape (H := H) (create_pingreq_packet (H := H) (P := P) h) = .pingreq := LawfulHandler.pingreq
  have pinging : ObeysS Live (zoom first (MqttProtocolEngine.ping (H := H))) (fun _ => Live) Live := by
    rw [MqttProtocolEngine.ping, zoom_bind, zoom_get, bind_assoc]
    refine Obeys.get_bind fun s => ?_
    rw [pure_bind, zoom_ite, zoom_fail]
    refine Obeys.ite (fun _ => Obeys.fail fun _ _ holds => holds.1) fun _ => ?_
    refine (sending_any (fun q up => ?_) fun clean same => ?_).mono (fun _ _ holds => holds.1) (fun _ _ _ live => live)
      fun _ _ live => live
    · rw [pings]
      exact up
    · rw [pings] at same
      cases same
  exact inSession pinging

theorem ping : ObeysC LiveC (MqttClient.ping (H := H)) (fun _ => LiveC) LiveC :=
  Obeys.get_bind fun _ => Obeys.ite (fun _ => Obeys.fail fun _ _ holds => holds.1) fun _ =>
    engine_ping.mono (fun _ _ holds => holds.1) (fun _ _ _ live => live) fun _ _ live => live

/-- A message that is reported as acknowledged may not be published again. -/
def Settled (event : Option ClientEvent) (q : Party) : Prop :=
  ∀ pid, event = some (.MessageAcknowledged pid) → pid ∉ q.publishable

/-- What is returned for a packet, where nothing more happens. -/
theorem returning {m : ClientM H P E α} (obeys : ObeysC LiveC m (fun _ => LiveC) LiveC) {f : α → Option ClientEvent}
    (other : ∀ a pid, f a ≠ some (.MessageAcknowledged pid)) :
    ObeysC LiveC (m >>= fun a => Pure.pure (f a)) (fun event q c => LiveC q c ∧ Settled event q) LiveC :=
  obeys.bind fun a => Obeys.pure fun _ _ live => ⟨live, fun pid same => absurd same (other a pid)⟩

theorem handle_packet_action (action : PacketAction) : ObeysC
    (fun q c => LiveC q c ∧ ∀ pid, Final pid action → pid ∉ q.publishable)
    (MqttClient.handle_packet_action action : ClientM H P E (Option ClientEvent))
    (fun event q c => LiveC q c ∧ Settled event q) LiveC := by
  cases action with
  | PublishAck pid =>
    refine Obeys.pure fun q c holds => ⟨holds.1, fun other same => ?_⟩
    cases same
    exact holds.2 pid (.inl rfl)
  | PublishComplete pid =>
    refine Obeys.pure fun q c holds => ⟨holds.1, fun other same => ?_⟩
    cases same
    exact holds.2 pid (.inr rfl)
  | PublishReceived topic qos retain payload pid =>
    refine Obeys.mono ?_ (fun _ _ holds => holds.1) (fun _ _ _ holds => holds) fun _ _ live => live
    refine Obeys.bind (R := fun _ => LiveC) ((inSession (clock (K := fun _ => True))).mono (fun _ _ live => ⟨live, trivial⟩)
      (fun _ _ _ holds => holds.1) fun _ _ live => live) fun timestamp => ?_
    exact returning (f := fun _ => some (.MessageReceived _)) (Obeys.modify (fun _ => rfl) fun _ _ live => live)
      fun _ _ same => by cases same
  | SubscribeAck pid codes =>
    refine Obeys.mono ?_ (fun _ _ holds => holds.1) (fun _ _ _ holds => holds) fun _ _ live => live
    exact returning (f := fun _ => some (.SubscriptionConfirmed pid)) (trySession fun s =>
      SessionState.handshakes_untouched (SessionState.confirm_subscription_untouched ..)) fun _ _ same => by cases same
  | _ => exact Obeys.pure fun _ _ holds => ⟨holds.1, fun _ same => by cases same⟩

theorem receive : ObeysC LiveC (MqttClient.receive (H := H)) (fun event q c => LiveC q c ∧ Settled event q) LiveC := by
  refine Obeys.bind (Obeys.attempt (inSession receive_packet)) fun result => ?_
  cases result with
  | ok action => exact handle_packet_action action
  | error err =>
    exact Obeys.bind (R := fun _ => LiveC) (entering .Error fun _ _ live => live) fun _ => Obeys.fail fun _ _ live => live

theorem poll_connected :
    ObeysC LiveC (MqttClient.poll_connected (H := H)) (fun event q c => LiveC q c ∧ Settled event q) LiveC := by
  refine Obeys.bind (R := fun _ => LiveC) ((inSession (clock (K := fun _ => True))).mono (fun _ _ live => ⟨live, trivial⟩)
    (fun _ _ _ holds => holds.1) fun _ _ live => live) fun time => ?_
  refine Obeys.get_bind fun c => Obeys.ite (fun _ => ?_) fun _ => ?_
  · exact Obeys.bind (R := fun _ => LiveC) (entering .Error fun _ _ holds => holds.1) fun _ =>
      Obeys.fail fun _ _ live => live
  refine Obeys.bind (R := fun _ => LiveC) (Obeys.onlyIf (fun _ => ping.mono (fun _ _ holds => holds.1)
    (fun _ _ _ live => live) fun _ _ live => live) fun _ _ _ holds => holds.1) fun _ => ?_
  exact Obeys.bind (inSession (handle_retries time)) fun _ => receive

theorem poll : ObeysC FitsC (MqttClient.poll (H := H)) (fun event q c => FitsC q c ∧ Settled event q) FitsC := by
  have up : ObeysC LiveC (MqttClient.poll_connected (H := H)) (fun event q c => FitsC q c ∧ Settled event q) FitsC :=
    poll_connected.mono (fun _ _ live => live) (fun _ _ _ holds => ⟨holds.1.fits, holds.2⟩) fun _ _ live => live.fits
  refine Obeys.get_bind fun c => Obeys.ite (fun _ => Obeys.ite (fun _ => ?_) fun _ => Obeys.ite (fun _ => ?_) fun _ => ?_)
    fun linked => ?_
  · refine (reconnect.attempt.mono (fun _ _ holds => holds.1) (fun _ _ _ holds => holds) fun _ _ fits => fits).bind
      fun result => ?_
    cases result with
    | ok _ => exact up
    | error _ =>
      exact Obeys.bind (R := fun _ => FitsC) (entering .Disconnected fun _ _ fits => fits) fun _ =>
        Obeys.pure fun _ _ fits => ⟨fits, fun _ same => by cases same⟩
  · exact Obeys.bind (R := fun _ => FitsC) (entering .Disconnected fun _ _ holds => holds.1) fun _ =>
      Obeys.pure fun _ _ fits => ⟨fits, fun _ same => by cases same⟩
  · exact Obeys.pure fun _ _ holds => ⟨holds.1, fun _ same => by cases same⟩
  · refine up.mono (fun q c' holds => ?_) (fun _ _ _ holds => holds) fun _ _ fits => fits
    obtain ⟨fits, rfl⟩ := holds
    refine ⟨fits, ?_⟩
    simp only [is_connected, Bool.not_eq_true', Bool.not_eq_false, Bool.and_eq_true] at linked
    exact linked.1

/-! ### The operations -/

/-- A client that says it is connected has a connected engine. -/
def Linked (c : MqttClient H P E) : Prop := c.state.connection_state = .Connected → c.protocol_engine.connected = true

/-- A request of a connected client. -/
theorem whenConnected {request : ClientM H P E Unit} (obeys : ObeysC LiveC request (fun _ => LiveC) LiveC) :
    ObeysC (fun q c => FitsC q c ∧ Linked c) (MqttClient.whenConnected request) (fun _ => FitsC) FitsC := by
  refine Obeys.get_bind fun c => Obeys.ite (fun _ => Obeys.fail fun _ _ holds => holds.1.1) fun here => ?_
  refine obeys.live.mono (fun q c' holds => ?_) (fun _ _ _ fits => fits) fun _ _ fits => fits
  obtain ⟨⟨fits, linked⟩, rfl⟩ := holds
  exact ⟨fits, linked (by simpa using here)⟩

theorem counting : ObeysC LiveC (modify fun c => { c with state := c.state.record_message_sent } : ClientM H P E PUnit)
    (fun _ => LiveC) LiveC := Obeys.modify (fun _ => rfl) fun _ _ live => live

theorem publish_client (topic : TopicName) (payload : Bytes) (config : PublishConfig) :
    ObeysC (fun q c => FitsC q c ∧ Linked c) (MqttClient.publish (H := H) topic payload config) (fun _ => FitsC) FitsC := by
  refine whenConnected (Obeys.get_bind fun c => Obeys.ite (fun _ => Obeys.fail fun _ _ holds => holds.1) fun _ => ?_)
  exact ((inSession (publish topic config.qos config.retain payload)).mono (fun _ _ holds => holds.1)
    (fun _ _ _ live => live) fun _ _ live => live).bind fun _ => counting

theorem add_subscriptions (pid : Pid) (subscriptions : List (TopicFilter × QoS)) :
    ObeysC LiveC (MqttClient.add_subscriptions pid subscriptions : ClientM H P E Unit) (fun _ => LiveC) LiveC :=
  Obeys.forM fun _ _ => trySession fun _ => SessionState.handshakes_untouched (SessionState.add_subscription_untouched ..)

theorem remove_local_subscription (topic_filter : TopicFilter) :
    ObeysC LiveC (MqttClient.remove_local_subscription topic_filter : ClientM H P E Unit) (fun _ => LiveC) LiveC :=
  Obeys.modify (fun _ => rfl) fun _ _ live => live.still rfl rfl
    (SessionState.handshakes_untouched (SessionState.remove_subscription_untouched ..))

end

section
variable [Codec V5.Packet ErrorV5]

theorem publish_v5 (topic : TopicName) (payload : Bytes) (config : PublishConfig) (v5_config : V5PublishConfig) :
    ObeysC (fun q c => FitsC q c ∧ Linked c) (MqttClient.publish_v5 topic payload config v5_config) (fun _ => FitsC)
      FitsC := by
  refine whenConnected (Obeys.get_bind fun c => Obeys.ite (fun _ => Obeys.fail fun _ _ holds => holds.1) fun _ => ?_)
  refine ((inSession (publish_pid (H := V5Handler) config.qos)).mono (fun _ _ holds => holds.1) (fun _ _ _ holds => holds)
    fun _ _ live => live).bind fun pid => ?_
  refine Obeys.bind (R := fun _ q c => LiveC (H := V5Handler) q c ∧ ∀ p ∈ pid, q.turn = .request p)
    (Obeys.modify (fun _ => rfl) fun _ _ holds => ?_) fun _ => Obeys.bind_ofExcept (fun packet created => ?_)
      fun _ _ holds => holds.1
  · exact ⟨holds.1.still rfl rfl rfl, holds.2⟩
  refine Obeys.bind (inSession (store_pending (H := V5Handler) pid topic config.qos config.retain payload)) fun _ => ?_
  obtain ⟨qp, carried, shaped⟩ := Operations.create_publish_with_config_shape created
  have same : qp.pid = pid := (qos_pid_level carried).2
  rw [← same]
  exact (inSession (sending_first (H := V5Handler) shaped rfl)).bind fun _ => counting

theorem subscribe_v5 (subscriptions : List (TopicFilter × QoS)) (v5_config : V5SubscribeConfig) :
    ObeysC (fun q c => FitsC q c ∧ Linked c) (MqttClient.subscribe_v5 subscriptions v5_config) (fun _ => FitsC) FitsC := by
  refine whenConnected (Obeys.ite (fun _ => Obeys.pure fun _ _ live => live) fun some => ?_)
  refine (inSession (next_pid (H := V5Handler))).bind fun pid => Obeys.bind_ofExcept (fun packet created => ?_)
    fun _ _ holds => holds.1
  have same : shape (H := V5Handler) packet = .subscribe pid subscriptions := by
    cases subscriptions with
    | nil => cases created
    | cons first rest =>
      cases created
      simp [shape, V5.Packet.shape, Function.comp_def]
  refine Obeys.bind (inSession (sending_request (H := V5Handler) same (fun q up turn => ⟨up, turn, by simpa using some⟩)
    fun _ other => by cases other)) fun _ => add_subscriptions _ _

end

section
variable [Codec V3.Packet MqttProtoError] [Codec V5.Packet ErrorV5] {v : Version}

/-- What a reply means for the messages. -/
def Told (reply : Reply) (q : Party) (c : Client v) : Prop :=
  FitsC (H := v.Handler) q c ∧ ∀ event, reply = .event event → Settled event q

/-- Every public operation does what the party allows. -/
theorem perform_obeys (op : Op v) :
    ObeysC (H := v.Handler) (fun q c => FitsC q c ∧ Linked c) op.perform Told FitsC := by
  have always : ∀ {α : Type} {m : ClientM v.Handler v.Packet v.Error α} {Q : α → Party → Client v → Prop},
      ObeysC FitsC m Q (FitsC (H := v.Handler)) →
      ObeysC (fun q c => FitsC q c ∧ Linked c) m Q (FitsC (H := v.Handler)) :=
    fun obeys => obeys.mono (fun _ _ holds => holds.1) (fun _ _ _ holds => holds) fun _ _ fits => fits
  -- A request returns nothing that tells of a message.
  have returns : ∀ {m : ClientM v.Handler v.Packet v.Error Unit},
      ObeysC (fun q c => FitsC q c ∧ Linked c) m (fun _ => FitsC (H := v.Handler)) FitsC →
      ObeysC (fun q c => FitsC q c ∧ Linked c) (m >>= fun _ => pure .unit) (Told (v := v)) (FitsC (H := v.Handler)) :=
    fun obeys => obeys.bind fun _ => Obeys.pure fun _ _ fits => ⟨fits, fun _ same => by cases same⟩
  cases op with
  | connect => exact returns (always (connect.mono (fun _ _ fits => fits) (fun _ _ _ live => live.fits) fun _ _ fits => fits))
  | reconnect =>
    exact returns (always (reconnect.mono (fun _ _ fits => fits) (fun _ _ _ live => live.fits) fun _ _ fits => fits))
  | disconnect => exact returns (always disconnect)
  | publish topic payload config => exact returns (publish_client topic payload config)
  | subscribe topic_filter qos =>
    refine returns (whenConnected ((inSession (subscribe (by simp))).bind fun pid => ?_))
    exact trySession fun _ => SessionState.handshakes_untouched (SessionState.add_subscription_untouched ..)
  | subscribe_multiple subscriptions =>
    refine returns (whenConnected (Obeys.ite (fun _ => Obeys.pure fun _ _ live => live) fun some => ?_))
    exact (inSession (subscribe (by simpa using some))).bind fun pid => add_subscriptions pid subscriptions
  | unsubscribe topic_filter =>
    exact returns (whenConnected ((inSession (unsubscribe (by simp))).bind fun _ => remove_local_subscription topic_filter))
  | unsubscribe_multiple topic_filters =>
    refine returns (whenConnected (Obeys.ite (fun _ => Obeys.pure fun _ _ live => live) fun some => ?_))
    exact (inSession (unsubscribe (by simpa using some))).bind fun _ => Obeys.forM fun topic_filter _ =>
      remove_local_subscription topic_filter
  | ping => exact returns (whenConnected engine_ping)
  | poll =>
    refine (always poll).bind fun event => Obeys.pure fun q c holds => ⟨holds.1, fun other same => ?_⟩
    cases same
    exact holds.2
  | next_message =>
    refine always (Obeys.bind (R := fun _ => FitsC) (Obeys.silent (fun _ => rfl) fun _ _ fits => fits) fun message => ?_)
    exact Obeys.pure fun _ _ fits => ⟨fits, fun _ same => by cases same⟩
  | publish_v5 topic payload config v5_config => exact returns (publish_v5 topic payload config v5_config)
  | subscribe_v5 subscriptions v5_config => exact returns (subscribe_v5 subscriptions v5_config)
  | set_v5_config config =>
    refine returns (always (Obeys.modify (fun _ => rfl) fun _ _ fits => ?_))
    exact ⟨fits.link, fits.idle, fits.publishes, fits.pubrels⟩

/-! ### Runs -/

/-- A call takes the party along, and what it returns is true of the party. -/
theorem call_obeys {c : Client v} (reachable : c.Reachable) (call : Call v) {q : Party} (fits : FitsC q c) :
    ∃ q', Grows (Party.step v.Handler) (fun c => c.protocol_engine.log) q c q' (c.after call) ∧ FitsC q' (c.after call) ∧
      ∀ event, (c.call call).1 = .ok (.event event) → Settled event q' := by
  have before : FitsC q (c.withWorld call.world) := ⟨fits.link, fits.idle, fits.publishes, fits.pubrels⟩
  obtain ⟨q', grows, ended⟩ :=
    perform_obeys call.op q _ ⟨before, fun here => Reconnect.connected_linked (c := c) reachable here⟩
  refine ⟨q', grows, ?_⟩
  change FitsC q' (exec call.op.perform (c.withWorld call.world)).2 ∧
    ∀ event, (exec call.op.perform (c.withWorld call.world)).1 = .ok (.event event) → Settled event q'
  cases returned : (exec call.op.perform (c.withWorld call.world)).1 with
  | ok reply =>
    rw [returned] at ended
    exact ⟨ended.1, fun event same => ended.2 event (Except.ok.inj same)⟩
  | error halt =>
    rw [returned] at ended
    exact ⟨ended, fun _ same => by cases same⟩

/-- A run takes the party along. -/
theorem run_obeys {c : Client v} (reachable : c.Reachable) (calls : List (Call v)) {q : Party} (fits : FitsC q c) :
    ∃ q', Grows (Party.step v.Handler) (fun c => c.protocol_engine.log) q c q' (c.run calls) ∧ FitsC q' (c.run calls) := by
  induction calls generalizing c q with
  | nil => exact ⟨q, .same rfl, fits⟩
  | cons call calls ih =>
    obtain ⟨next, first, fits', -⟩ := call_obeys reachable call fits
    obtain ⟨q', later, fits''⟩ := ih (reachable.after call) fits'
    exact ⟨q', first.trans later, fits''⟩

omit [Codec V3.Packet MqttProtoError] [Codec V5.Packet ErrorV5] in
theorem new_fits (world : World v.Packet v.Error) (setup : v.Setup) (config : ClientConfig) :
    FitsC (H := v.Handler) Party.new (MqttClient.new world (v.handler setup) config) where
  link := iff_of_false (by simp [Party.new]) (by simp [MqttClient.new, MqttProtocolEngine.new])
  idle := rfl
  publishes pid member := absurd member (AList.notMem_empty pid)
  pubrels pid member := absurd member (AList.notMem_empty pid)

/-- The party has accepted what a reachable client has logged, and fits it. -/
theorem reachable_fits {c : Client v} (reachable : c.Reachable) :
    ∃ q, read (Party.step v.Handler) .new c.protocol_engine.log = some q ∧ FitsC q c := by
  obtain ⟨world, setup, config, calls, rfl⟩ := reachable
  obtain ⟨q, ⟨events, log, accepted⟩, fits⟩ :=
    run_obeys ⟨world, setup, config, [], rfl⟩ calls (new_fits world setup config)
  exact ⟨q, (congrArg (read _ _) log).trans accepted, fits⟩

/-- In every run, whatever the transport, the broker and the application do and wherever calls are dropped,
    the log is one that the protocol allows; the engine is connected exactly if the party is, and every
    handshake that the session holds is one that the party knows. -/
theorem conducts (world : World v.Packet v.Error) (setup : v.Setup) (config : ClientConfig) (calls : List (Call v)) :
    let c := Client.run (MqttClient.new world (v.handler setup) config) calls
    ∃ q, read (Party.step v.Handler) .new c.protocol_engine.log = some q ∧
      (q.phase = .up ↔ c.protocol_engine.connected = true) ∧
      (∀ pid ∈ c.session_state.pending_publishes, pid ∈ q.publishable) ∧
      ∀ pid ∈ c.session_state.pending_pubrels, pid ∈ q.releasable := by
  intro c
  obtain ⟨q, accepted, fits⟩ := reachable_fits (c := c) ⟨world, setup, config, calls, rfl⟩
  exact ⟨q, accepted, fits.link, fits.publishes, fits.pubrels⟩

/-- In every run, what the session holds is justified by what was logged: a message is pending only if it was accepted,
    and since then neither acknowledged on a connection nor cleared; a PUBREL only if the PUBREC of such a message has
    come, and since then no PUBCOMP. -/
theorem handshakes_justified (world : World v.Packet v.Error) (setup : v.Setup) (config : ClientConfig)
    (calls : List (Call v)) :
    let c := Client.run (MqttClient.new world (v.handler setup) config) calls
    (∀ pid ∈ c.session_state.pending_publishes, Party.Outstanding v.Handler pid c.protocol_engine.log) ∧
      ∀ pid ∈ c.session_state.pending_pubrels, Party.Released v.Handler pid c.protocol_engine.log := by
  intro c
  obtain ⟨q, accepted, fits⟩ := reachable_fits (c := c) ⟨world, setup, config, calls, rfl⟩
  have tells := Party.read_tells accepted
  exact ⟨fun pid member => (tells.publishable pid).mp (fits.publishes pid member),
    fun pid member => (tells.releasable pid).mp (fits.pubrels pid member)⟩

/-- Every packet that a client sends in a run fits what has happened before it. -/
theorem packets_fit {c : Client v} (reachable : c.Reachable) {before after : List (Event v.Packet)} {frame : Frame v.Packet}
    (log : c.protocol_engine.log = before ++ .queued frame :: after) :
    Party.Fits v.Handler before (shape (H := v.Handler) frame.packet) := by
  obtain ⟨q, accepted, -⟩ := reachable_fits reachable
  rw [log] at accepted
  exact Party.read_fits accepted

/-- Once a poll has reported a message as acknowledged, no PUBLISH goes out under its identifier, in whatever run,
    until another message is accepted under it. -/
theorem acknowledged_silent {c : Client v} (reachable : c.Reachable) {call : Call v} {pid : Pid}
    (returned : (c.call call).1 = .ok (.event (some (.MessageAcknowledged pid)))) {calls : List (Call v)}
    {before after : List (Event v.Packet)} {frame : Frame v.Packet} {message : V3.Publish}
    (log : ((c.after call).run calls).protocol_engine.log =
      (c.after call).protocol_engine.log ++ (before ++ .queued frame :: after))
    (publish : shape (H := v.Handler) frame.packet = .publish message) (carries : message.qos_pid.pid = some pid) :
    .accepted pid ∈ before := by
  obtain ⟨q, -, fits⟩ := reachable_fits reachable
  obtain ⟨told, -, fits', settled⟩ := call_obeys reachable call fits
  obtain ⟨q', ⟨events, grown, accepted⟩, -⟩ := run_obeys (reachable.after call) calls fits'
  have same : before ++ .queued frame :: after = events := List.append_cancel_left (log.symm.trans grown)
  rw [← same] at accepted
  obtain ⟨here, next, first, stepped, -⟩ := read_event accepted
  have held : pid ∈ here.publishable := by
    have may := Party.queued_may stepped
    rw [publish] at may
    exact (may.2.2 pid carries).1
  have new : ∃ event ∈ before, event = .accepted pid :=
    read_lost (I := fun q => pid ∉ q.publishable) first (fun here event next stepped other gone held => ?_)
      (settled _ returned pid rfl) (not_not_intro held)
  · obtain ⟨event, member, rfl⟩ := new
    exact member
  exact ((Party.step_publishable stepped pid).mp held).elim other fun kept => gone kept.1

end

section
local instance : Codec V3.Packet MqttProtoError := Wire.v3Codec
local instance : Codec V5.Packet ErrorV5 := Wire.v5Codec

/-- A client that has sent a message of level 2, has received its PUBREC and has sent the PUBREL. -/
def releasing_client : Client .v3 := Client.run (MqttClient.new (.obliging true []) {} {})
  [⟨.connect, .obliging true [.Connack ⟨false, 0⟩]⟩, ⟨.publish "a" [1] ⟨.Level2, false⟩, .obliging true []⟩,
    ⟨.poll, .obliging true [.Pubrec .default]⟩]

def pubrel_frame : Frame V3.Packet := ⟨.Pubrel .default, Wire.v3 (.Pubrel .default)⟩

theorem packets_fit_pubrel : Party.Fits V3Handler (releasing_client.protocol_engine.log.take 19) (.pubrel .default) := by
  have log : releasing_client.protocol_engine.log = releasing_client.protocol_engine.log.take 19 ++
      .queued pubrel_frame :: releasing_client.protocol_engine.log.drop 20 := by decide +kernel
  exact packets_fit (v := .v3) ⟨_, (), _, _, rfl⟩ log

/-- A message of level 1, which is then acknowledged. -/
def publishing_client : Client .v3 := Client.run (MqttClient.new (.obliging true []) {} {})
  [⟨.connect, .obliging true [.Connack ⟨false, 0⟩]⟩, ⟨.publish "a" [1] ⟨.Level1, false⟩, .obliging true []⟩]
def acknowledging : Call .v3 := ⟨.poll, .obliging true [.Puback .default]⟩

/-- A clean session starts with the same identifier again. -/
def renewing : List (Call .v3) :=
  [⟨.disconnect, .obliging true []⟩, ⟨.connect, .obliging true [.Connack ⟨false, 0⟩]⟩,
    ⟨.publish "b" [2] ⟨.Level1, false⟩, .obliging true []⟩]
def renewed_events : List (Event V3.Packet) := ((publishing_client.after acknowledging).run renewing).protocol_engine.log.drop
  (publishing_client.after acknowledging).protocol_engine.log.length
def renewed_frame : Frame V3.Packet :=
  ⟨.Publish ⟨false, .Level1 .default, false, "b", [2]⟩, Wire.v3 (.Publish ⟨false, .Level1 .default, false, "b", [2]⟩)⟩

theorem acknowledged_silent_renewed : Event.accepted Pid.default ∈ renewed_events.take 17 := by
  have returned : (publishing_client.call acknowledging).1 = .ok (.event (some (.MessageAcknowledged .default))) := by
    decide +kernel
  have log : ((publishing_client.after acknowledging).run renewing).protocol_engine.log =
      (publishing_client.after acknowledging).protocol_engine.log ++
        (renewed_events.take 17 ++ .queued renewed_frame :: renewed_events.drop 18) := by decide +kernel
  exact acknowledged_silent (v := .v3) ⟨_, (), _, _, rfl⟩ returned log rfl rfl

end

end Masaka.Conduct
