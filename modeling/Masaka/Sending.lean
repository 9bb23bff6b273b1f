import Masaka.Engine

/-!
What sending a packet does, as the transport's answers decide it: the write loop
hands over the bytes in order, however the transport splits them, and a loop that
is stopped has handed over a proper part. And what waiting for a packet does.
-/
namespace Masaka.Sending
open Effect Tables MqttProtocolHandler MqttProtocolEngine

variable {H P E : Type}

/-- The transport's answers to the writes to come, the next one first. -/
abbrev Tape := Nat → Answer Nat
/-- The answers after the next one. -/
def later (tape : Tape) : Tape := fun n => tape (n + 1)

/-- How an answer ends the write loop: an error, a write of no bytes, or no answer. -/
def refusal : Answer Nat → Option (Halt MqttError)
  | some (.ok 0) => some (.err (.Transport .ConnectionLost))
  | some (.ok _) => none
  | some (.error err) => some (.err (.Transport err))
  | none => some .cut

/-- The event of a write of the bytes. -/
def wrote (bytes : Bytes) (answer : Answer Nat) : Event P := .write bytes (answer.map (Except.map (min bytes.length)))

/-- The writes that hand over all the bytes, and the answers that they leave. -/
inductive Writes : Tape → Bytes → List (Event P) → Tape → Prop where
  | done {tape : Tape} : Writes tape [] [] tape
  | more {tape rest : Tape} {bytes : Bytes} {n : Nat} {events : List (Event P)} : bytes ≠ [] →
      tape 0 = some (.ok (n + 1)) → Writes (later tape) (bytes.drop (n + 1)) events rest →
      Writes tape bytes (wrote bytes (some (.ok (n + 1))) :: events) rest

/-- The writes that hand over a proper part of the bytes before the loop is stopped. -/
inductive Breaks : Tape → Bytes → List (Event P) → Tape → Halt MqttError → Prop where
  | refused {tape : Tape} {bytes : Bytes} {halt : Halt MqttError} : bytes ≠ [] → refusal (tape 0) = some halt →
      Breaks tape bytes [wrote bytes (tape 0)] (later tape) halt
  | more {tape rest : Tape} {bytes : Bytes} {n : Nat} {events : List (Event P)} {halt : Halt MqttError} :
      n + 1 < bytes.length → tape 0 = some (.ok (n + 1)) → Breaks (later tape) (bytes.drop (n + 1)) events rest halt →
      Breaks tape bytes (wrote bytes (some (.ok (n + 1))) :: events) rest halt

/-- The events of sending an encoded packet, the answers that it leaves, and how it ends. -/
inductive Transmission (tape : Tape) (flush : Answer Unit) (frame : Frame P) :
    List (Event P) → Tape → Except (Halt MqttError) Unit → Prop where
  | complete {writes : List (Event P)} {rest : Tape} {now : Nat} : Writes tape frame.bytes writes rest →
      flush = some (.ok ()) →
      Transmission tape flush frame (.queued frame :: writes ++ [.sent frame, .flush flush, .clock now]) rest (.ok ())
  | unflushed {writes : List (Event P)} {rest : Tape} {halt : Halt MqttError} : Writes tape frame.bytes writes rest →
      answered flush = .error halt →
      Transmission tape flush frame (.queued frame :: writes ++ [.sent frame, .flush flush]) rest (.error halt)
  | broken {writes : List (Event P)} {rest : Tape} {halt : Halt MqttError} :
      Breaks tape frame.bytes writes rest halt →
      Transmission tape flush frame (.queued frame :: writes) rest (.error halt)

theorem Writes.only {tape rest : Tape} {bytes : Bytes} {events : List (Event P)} (writes : Writes tape bytes events rest) :
    ∀ event ∈ events, ∃ bytes answer, event = wrote bytes answer := by
  induction writes with
  | done => simp
  | more _ _ _ ih => exact List.forall_mem_cons.mpr ⟨⟨_, _, rfl⟩, ih⟩
theorem Breaks.only {tape rest : Tape} {bytes : Bytes} {events : List (Event P)} {halt : Halt MqttError}
    (breaks : Breaks tape bytes events rest halt) : ∀ event ∈ events, ∃ bytes answer, event = wrote bytes answer := by
  induction breaks with
  | refused _ _ => exact List.forall_mem_cons.mpr ⟨⟨_, _, rfl⟩, by simp⟩
  | more _ _ _ ih => exact List.forall_mem_cons.mpr ⟨⟨_, _, rfl⟩, ih⟩

/-- An event of handing over the bytes of a packet. -/
def HandsOver : Event P → Prop
  | .write _ _ | .sent _ | .flush _ | .clock _ => True
  | _ => False

/-- A transmission starts with its packet on the write queue; the rest only hands it over. -/
theorem Transmission.queued {tape rest : Tape} {flush : Answer Unit} {frame : Frame P} {events : List (Event P)}
    {r : Except (Halt MqttError) Unit} (transmission : Transmission tape flush frame events rest r) :
    ∃ more, events = .queued frame :: more ∧ ∀ event ∈ more, HandsOver event := by
  have writes : ∀ {events : List (Event P)}, (∀ event ∈ events, ∃ bytes answer, event = wrote bytes answer) →
      ∀ event ∈ events, HandsOver event := fun only event member => by
    obtain ⟨_, _, rfl⟩ := only event member
    trivial
  cases transmission with
  | complete all _ => exact ⟨_, rfl, List.forall_mem_append.mpr ⟨writes all.only, by simp [HandsOver]⟩⟩
  | unflushed all _ => exact ⟨_, rfl, List.forall_mem_append.mpr ⟨writes all.only, by simp [HandsOver]⟩⟩
  | broken breaks => exact ⟨_, rfl, writes breaks.only⟩

/-- The packets that were put on the write queue. -/
def packets_queued (events : List (Event P)) : List P := events.filterMap fun
  | .queued frame => some frame.packet
  | _ => none

/-- The packets whose last byte the transport has accepted. -/
def packets_sent (events : List (Event P)) : List P := events.filterMap fun
  | .sent frame => some frame.packet
  | _ => none

/-- Only the packets of the list were written, all of them completely. -/
structure Wrote (packets : List P) (events : List (Event P)) : Prop where
  queued : packets_queued events = packets
  sent : packets_sent events = packets

theorem Wrote.nil : Wrote ([] : List P) [] := ⟨rfl, rfl⟩
theorem Wrote.append {packets more : List P} {events events' : List (Event P)} (first : Wrote packets events)
    (second : Wrote more events') : Wrote (packets ++ more) (events ++ events') :=
  ⟨by rw [packets_queued, List.filterMap_append, ← first.queued, ← second.queued]; rfl,
    by rw [packets_sent, List.filterMap_append, ← first.sent, ← second.sent]; rfl⟩

/-- A transmission puts its packet on the write queue, and no other one. -/
theorem Transmission.packets {tape rest : Tape} {flush : Answer Unit} {frame : Frame P} {events : List (Event P)}
    {r : Except (Halt MqttError) Unit} (transmission : Transmission tape flush frame events rest r) :
    packets_queued events = [frame.packet] := by
  obtain ⟨more, rfl, hands_over⟩ := transmission.queued
  have none : packets_queued more = [] := List.filterMap_eq_nil_iff.mpr fun event member => by
    have := hands_over event member
    cases event <;> first | rfl | exact this.elim
  rw [packets_queued, List.filterMap_cons]
  exact congrArg (frame.packet :: ·) none

/-- A complete transmission writes its packet. -/
theorem transmission_wrote {tape rest : Tape} {flush : Answer Unit} {frame : Frame P} {events : List (Event P)}
    (transmission : Transmission tape flush frame events rest (.ok ())) : Wrote [frame.packet] events := by
  refine ⟨transmission.packets, ?_⟩
  cases transmission with
  | @complete writes _ now all _ =>
    have quiet : packets_sent writes = [] := List.filterMap_eq_nil_iff.mpr fun event member => by
      obtain ⟨_, _, rfl⟩ := all.only event member
      rfl
    rw [packets_sent, List.cons_append, List.filterMap_cons, List.filterMap_append]
    exact congrArg (· ++ [frame.packet]) quiet

/-- The only packet that a transmission hands over is its own. -/
theorem Transmission.sends {tape rest : Tape} {flush : Answer Unit} {frame sent : Frame P} {events : List (Event P)}
    {r : Except (Halt MqttError) Unit} (transmission : Transmission tape flush frame events rest r)
    (member : .sent sent ∈ events) : sent = frame := by
  have written : ∀ {events : List (Event P)}, (∀ event ∈ events, ∃ bytes answer, event = wrote bytes answer) →
      .sent sent ∉ events := fun only member => by
    obtain ⟨_, _, same⟩ := only _ member
    cases same
  cases transmission with
  | complete all _ => simpa [written all.only] using member
  | unflushed all _ => simpa [written all.only] using member
  | broken breaks => simp [written breaks.only] at member

/-- An event that is neither the start of a transmission nor hands anything over. -/
theorem Transmission.unsaid {tape rest : Tape} {flush : Answer Unit} {frame : Frame P} {events : List (Event P)}
    {r : Except (Halt MqttError) Unit} (transmission : Transmission tape flush frame events rest r) {event : Event P}
    (other : ∀ frame, event ≠ .queued frame) (apart : ¬ HandsOver event) : event ∉ events := by
  intro member
  obtain ⟨more, rfl, hands_over⟩ := transmission.queued
  rcases List.mem_cons.mp member with first | later
  · exact other _ first
  · exact apart (hands_over event later)

/-- What holds of the events of a packet that is handed over, and of the clock, holds of all events of
    its transmission. -/
theorem Transmission.all {Q : Event P → Prop} {tape rest : Tape} {flush : Answer Unit} {frame : Frame P}
    {events : List (Event P)} {r : Except (Halt MqttError) Unit}
    (transmission : Transmission tape flush frame events rest r) (queued : Q (.queued frame))
    (write : ∀ bytes answer, Q (.write bytes answer)) (sent : Q (.sent frame)) (flushed : ∀ answer, Q (.flush answer))
    (clock : ∀ now, Q (.clock now)) : ∀ event ∈ events, Q event := by
  intro event member
  obtain ⟨more, rfl, hands_over⟩ := transmission.queued
  rcases List.mem_cons.mp member with rfl | later
  · exact queued
  have handing := hands_over event later
  cases event with
  | write bytes answer => exact write bytes answer
  | sent other =>
    rw [transmission.sends member]
    exact sent
  | flush answer => exact flushed answer
  | clock now => exact clock now
  | _ => exact handing.elim

/-- The transport refuses none of the writes to come. -/
def Taking (tape : Tape) : Prop := ∀ n, refusal (tape n) = none

theorem Writes.taking {tape rest : Tape} {bytes : Bytes} {events : List (Event P)}
    (writes : Writes tape bytes events rest) (taking : Taking tape) : Taking rest := by
  induction writes with
  | done => exact taking
  | more _ _ _ ih => exact ih fun n => taking (n + 1)
theorem Breaks.not_taking {tape rest : Tape} {bytes : Bytes} {events : List (Event P)} {halt : Halt MqttError}
    (breaks : Breaks tape bytes events rest halt) : ¬ Taking tape := by
  induction breaks with
  | refused _ refused => exact fun taking => by cases (taking 0).symm.trans refused
  | more _ _ _ ih => exact fun taking => ih fun n => taking (n + 1)
theorem Transmission.taking {tape rest : Tape} {flush : Answer Unit} {frame : Frame P} {events : List (Event P)}
    {r : Except (Halt MqttError) Unit} (transmission : Transmission tape flush frame events rest r)
    (taking : Taking tape) : Taking rest := by
  cases transmission with
  | complete writes _ => exact writes.taking taking
  | unflushed writes _ => exact writes.taking taking
  | broken breaks => exact absurd taking breaks.not_taking

/-- The transport takes that many bytes. -/
inductive Takes : Tape → Nat → Prop where
  | all {tape : Tape} : Takes tape 0
  | more {tape : Tape} {left n : Nat} : 0 < left → tape 0 = some (.ok (n + 1)) → Takes (later tape) (left - (n + 1)) →
      Takes tape left

/-- The transport fails, or takes no byte, while some of that many bytes are left. -/
inductive Refuses : Tape → Nat → Prop where
  | failed {tape : Tape} {left : Nat} {err : TransportError} : 0 < left → tape 0 = some (.error err) → Refuses tape left
  | nothing {tape : Tape} {left : Nat} : 0 < left → tape 0 = some (.ok 0) → Refuses tape left
  | later {tape : Tape} {left n : Nat} : n + 1 < left → tape 0 = some (.ok (n + 1)) →
      Refuses (later tape) (left - (n + 1)) → Refuses tape left

/-! ### The write loop -/

theorem write_all_skip (bytes : Bytes) (taken : Nat) :
    (write_all bytes taken : EngineM H P E Unit) = write_all (bytes.drop taken) 0 := by
  induction bytes generalizing taken with
  | nil => cases taken <;> rfl
  | cons byte rest ih =>
    cases taken with
    | zero => rfl
    | succ taken => exact ih taken

/-- One round of the loop. -/
theorem write_all_round {bytes : Bytes} (left : bytes ≠ []) :
    (write_all bytes 0 : EngineM H P E Unit) = write bytes >>= fun n =>
      if n = 0 then fail (.Transport .ConnectionLost) else write_all (bytes.drop n) 0 := by
  cases bytes with
  | nil => exact absurd rfl left
  | cons byte rest =>
    simp only [write_all]
    congr 1
    funext n
    cases n with
    | zero => rfl
    | succ n =>
      simp only [Nat.add_one_ne_zero, if_false, Nat.add_one_sub_one, List.drop_succ_cons]
      exact write_all_skip rest n

theorem Writes.takes {tape rest : Tape} {bytes : Bytes} {events : List (Event P)}
    (writes : Writes tape bytes events rest) : Takes tape bytes.length := by
  induction writes with
  | done => exact .all
  | more left answer _ ih =>
    rw [List.length_drop] at ih
    exact .more (List.length_pos_iff.mpr left) answer ih

/-- A transport that refuses bytes ends the loop with an error. -/
theorem Refuses.breaks {tape rest : Tape} {bytes : Bytes} {events : List (Event P)} {halt : Halt MqttError}
    (refuses : Refuses tape bytes.length) (breaks : Breaks tape bytes events rest halt) : ∃ err, halt = .err err := by
  induction breaks with
  | refused left refused =>
    cases refuses with
    | failed _ answer => rw [answer] at refused; exact ⟨_, (Option.some.inj refused).symm⟩
    | nothing _ answer => rw [answer] at refused; exact ⟨_, (Option.some.inj refused).symm⟩
    | later _ answer _ => rw [answer] at refused; cases refused
  | more _ answer _ ih =>
    cases refuses with
    | failed _ answer' => cases answer.symm.trans answer'
    | nothing _ answer' => cases answer.symm.trans answer'
    | later _ answer' rest =>
      cases answer.symm.trans answer'
      rw [← List.length_drop] at rest
      exact ih rest
theorem Breaks.refuses {tape rest : Tape} {bytes : Bytes} {events : List (Event P)} {err : MqttError}
    (breaks : Breaks tape bytes events rest (.err err)) : Refuses tape bytes.length := by
  generalize ended : (Halt.err err : Halt MqttError) = halt at breaks
  induction breaks with
  | @refused tape bytes halt left refused =>
    have some : 0 < bytes.length := List.length_pos_iff.mpr left
    subst ended
    rcases answer : tape 0 with _ | err | _ | n
    · rw [answer] at refused; cases refused
    · exact .failed some answer
    · exact .nothing some answer
    · rw [answer] at refused; cases refused
  | more inside answer _ ih =>
    have rest := ih ended
    rw [List.length_drop] at rest
    exact .later inside answer rest

theorem Refuses.not_taking {tape : Tape} {left : Nat} (refuses : Refuses tape left) : ¬ Taking tape := by
  intro taking
  induction refuses with
  | failed _ answer =>
    have first := taking 0
    rw [answer] at first
    cases first
  | nothing _ answer =>
    have first := taking 0
    rw [answer] at first
    cases first
  | later _ _ _ ih => exact ih fun n => taking (n + 1)

/-- A transport that refuses nothing takes any number of bytes. -/
theorem Taking.takes {tape : Tape} (taking : Taking tape) (left : Nat) : Takes tape left := by
  induction left using Nat.strong_induction_on generalizing tape with
  | _ left ih =>
    cases left with
    | zero => exact .all
    | succ left =>
      have first := taking 0
      rcases answer : tape 0 with _ | err | _ | n
      · rw [answer] at first; cases first
      · rw [answer] at first; cases first
      · rw [answer] at first; cases first
      · exact .more (Nat.succ_pos left) answer (ih _ (by omega) fun m => taking (m + 1))

theorem Takes.not_refuses {tape : Tape} {left : Nat} (takes : Takes tape left) : ¬ Refuses tape left := by
  induction takes with
  | all => intro refuses; cases refuses <;> omega
  | more _ answer _ ih =>
    intro refuses
    cases refuses with
    | failed _ answer' => cases answer.symm.trans answer'
    | nothing _ answer' => cases answer.symm.trans answer'
    | later _ answer' rest => cases answer.symm.trans answer'; exact ih rest
theorem Takes.not_breaks {tape rest : Tape} {bytes : Bytes} {events : List (Event P)} {halt : Halt MqttError}
    (takes : Takes tape bytes.length) (breaks : Breaks tape bytes events rest halt) : False := by
  induction breaks with
  | @refused tape bytes halt left refused =>
    generalize size : bytes.length = length at takes
    cases takes with
    | all => exact left (List.length_eq_zero_iff.mp size)
    | more _ answer _ => rw [answer] at refused; cases refused
  | @more tape rest bytes n events halt inside answer _ ih =>
    generalize size : bytes.length = length at takes
    cases takes with
    | all => omega
    | more _ answer' rest =>
      cases answer.symm.trans answer'
      rw [← size, ← List.length_drop] at rest
      exact ih rest

/-- A transmission hands over its packet if the transport takes all of it, and is stopped before otherwise. -/
theorem Transmission.handed_over {tape rest : Tape} {flush : Answer Unit} {frame : Frame P} {events : List (Event P)}
    {r : Except (Halt MqttError) Unit} (transmission : Transmission tape flush frame events rest r) :
    packets_sent events = [frame.packet] ∧ Takes tape frame.bytes.length ∨
      packets_sent events = [] ∧ ¬ Takes tape frame.bytes.length ∧ r ≠ .ok () := by
  have quiet : ∀ {writes : List (Event P)}, (∀ event ∈ writes, ∃ bytes answer, event = wrote bytes answer) →
      packets_sent writes = [] := fun only => List.filterMap_eq_nil_iff.mpr fun event member => by
    obtain ⟨_, _, rfl⟩ := only event member
    rfl
  cases transmission with
  | complete writes answer => exact .inl ⟨(transmission_wrote (.complete writes answer)).sent, writes.takes⟩
  | unflushed writes _ =>
    left
    rw [packets_sent, List.cons_append, List.filterMap_cons, List.filterMap_append]
    exact ⟨congrArg (· ++ [frame.packet]) (quiet writes.only), writes.takes⟩
  | broken breaks =>
    right
    rw [packets_sent, List.filterMap_cons]
    exact ⟨quiet breaks.only, fun takes => takes.not_breaks breaks, fun ended => by cases ended⟩

/-- The engine after some writes: the events they logged and the answers they left. -/
def after_writes (e : MqttProtocolEngine H P E) (events : List (Event P)) (rest : Tape) : MqttProtocolEngine H P E :=
  { e with world := { e.world with write := rest }, log := e.log ++ events }

/-- The loop writes all the bytes, or stops at the first refusal. -/
theorem write_all_spec (bytes : Bytes) (e : MqttProtocolEngine H P E) :
    wp (write_all bytes 0) e fun r e' => ∃ events rest, e' = after_writes e events rest ∧ match r with
      | .ok _ => Writes e.world.write bytes events rest
      | .error halt => Breaks e.world.write bytes events rest halt := by
  -- The induction is on the number of bytes left; every round takes at least one.
  induction count : bytes.length using Nat.strong_induction_on generalizing bytes e with
  | _ size ih =>
    by_cases empty : bytes = []
    · subst empty
      exact ⟨[], e.world.write, by simp [write_all, exec_pure, after_writes], .done⟩
    rw [write_all_round empty, wp_bind]
    simp only [write, wp_ofExec]
    have positive : 0 < bytes.length := List.length_pos_iff.mpr empty
    -- A refused write is the last one.
    have stopped : ∀ halt, refusal (e.world.write 0) = some halt → ∃ events rest,
        after_writes e [wrote bytes (e.world.write 0)] (later e.world.write) = after_writes e events rest ∧
          Breaks e.world.write bytes events rest halt := fun halt refused => ⟨_, _, rfl, .refused empty refused⟩
    rcases answer : e.world.write 0 with _ | err | _ | n
    · rw [answer] at stopped; exact stopped .cut rfl
    · rw [answer] at stopped; exact stopped (.err (.Transport err)) rfl
    · rw [answer] at stopped
      simp only [Option.map_some, Except.map, answered, Nat.min_zero, if_true, wp_fail]
      have := stopped (.err (.Transport .ConnectionLost)) rfl
      simp only [wrote, Option.map_some, Except.map, Nat.min_zero] at this
      exact this
    · have some_taken : min bytes.length (n + 1) ≠ 0 := by omega
      simp only [Option.map_some, Except.map, answered, some_taken, if_false]
      have shorter : (bytes.drop (min bytes.length (n + 1))).length < size := by rw [List.length_drop]; omega
      have same : bytes.drop (min bytes.length (n + 1)) = bytes.drop (n + 1) := by
        rcases Nat.le_total bytes.length (n + 1) with all | part
        · rw [Nat.min_eq_left all, List.drop_length, List.drop_eq_nil_of_le all]
        · rw [Nat.min_eq_right part]
      refine wp_mono (ih _ shorter _ _ rfl) fun r e' left => ?_
      obtain ⟨events, rest, rfl, ended⟩ := left
      rw [same] at ended
      refine ⟨wrote bytes (some (.ok (n + 1))) :: events, rest, ?_, ?_⟩
      · simp [after_writes, wrote, Except.map]
      cases r with
      | ok _ => exact .more empty answer ended
      | error halt =>
        refine .more ?_ answer ended
        -- Nothing is left to refuse once all the bytes are taken.
        by_contra all
        rw [List.drop_eq_nil_of_le (by omega)] at ended
        cases ended with
        | refused left _ => exact left rfl
        | more inside _ _ => simp at inside

/-! ### Sending a packet -/

variable [MqttProtocolHandler H P E]

/-- What `send_packet` does when nothing is queued: the encoding fails and
    nothing happens, or the packet is transmitted, well or not. -/
inductive Sent (packet : P) (e : MqttProtocolEngine H P E) :
    Except (Halt MqttError) Unit → MqttProtocolEngine H P E → Prop where
  | unencoded {err : E} : encode_packet e.handler packet = .error err →
      Sent packet e (.error (.err (into H err))) e
  | encoded {bytes : VarBytes} {r : Except (Halt MqttError) Unit} {events : List (Event P)} {rest : Tape} {time : Nat}
      {flush : Nat → Answer Unit} {now : Nat → Nat} : encode_packet e.handler packet = .ok bytes →
      Transmission e.world.write (e.world.flush 0) ⟨packet, bytes⟩ events rest r →
      (flush = e.world.flush ∨ flush = fun n => e.world.flush (n + 1)) →
      Sent packet e r { e with
        world := { e.world with write := rest, flush := flush, now := now }
        log := e.log ++ events, write_queue := [], last_packet_sent_time := time }

/-- A transmission, with the time and the answers that it leaves. -/
theorem Sent.transmitted {packet : P} {e : MqttProtocolEngine H P E} {bytes : VarBytes}
    {r : Except (Halt MqttError) Unit} {events : List (Event P)} {rest : Tape} (time : Nat) (flush : Nat → Answer Unit)
    (now : Nat → Nat) (encodes : encode_packet e.handler packet = .ok bytes)
    (transmission : Transmission e.world.write (e.world.flush 0) ⟨packet, bytes⟩ events rest r)
    (taken : flush = e.world.flush ∨ flush = fun n => e.world.flush (n + 1)) : Sent packet e r { e with
      world := { e.world with write := rest, flush := flush, now := now }
      log := e.log ++ events, write_queue := [], last_packet_sent_time := time } :=
  .encoded encodes transmission taken

theorem send_packet_spec (packet : P) {e : MqttProtocolEngine H P E} (idle : e.write_queue = []) :
    wp (send_packet packet) e (Sent packet e) := by
  simp only [send_packet, wp_bind, wp_get, wp_ofExcept]
  cases encoding : encode_packet e.handler packet with
  | error err => exact .unencoded encoding
  | ok bytes =>
    simp only [wp_modify, idle, List.nil_append, flush_write_queue, record, write_frames, wp_bind, wp_get]
    refine wp_mono (write_all_spec bytes _) fun r e' wrote => ?_
    obtain ⟨events, rest, rfl, ended⟩ := wrote
    cases r with
    | error halt =>
      simpa [after_writes] using Sent.transmitted e.last_packet_sent_time e.world.flush e.world.now encoding
        (.broken ended) (.inl rfl)
    | ok _ =>
      simp only [wp_pure, MqttProtocolEngine.flush, wp_ofExec, after_writes]
      have unflushed : ∀ halt, answered (e.world.flush 0) = .error halt → Sent packet e (.error halt) _ := fun halt failed =>
        .transmitted e.last_packet_sent_time (fun n => e.world.flush (n + 1)) e.world.now encoding
          (.unflushed ended failed) (.inr rfl)
      rcases answer : e.world.flush 0 with _ | err | ⟨⟨⟩⟩
      · simpa [answered, answer] using unflushed .cut (by rw [answer]; rfl)
      · simpa [answered, answer] using unflushed (.err (.Transport err)) (by rw [answer]; rfl)
      · have complete : Transmission e.world.write (e.world.flush 0) ⟨packet, bytes⟩ (.queued ⟨packet, bytes⟩ :: events ++
            [.sent ⟨packet, bytes⟩, .flush (e.world.flush 0), .clock (e.world.now 0)]) rest (.ok ()) :=
          .complete ended answer
        simpa [answered, answer, current_timestamp_ms, update_last_sent_time] using
          Sent.transmitted (e.world.now 0) (fun n => e.world.flush (n + 1)) (fun n => e.world.now (n + 1)) encoding
            complete (.inr rfl)

/-- A packet that is sent has used one flush and taken the time; one that is not leaves the time. -/
theorem send_packet_stamps (packet : P) {e : MqttProtocolEngine H P E} (idle : e.write_queue = []) :
    wp (send_packet packet) e fun r e' =>
      (r = .ok () → (e'.world.flush = fun n => e.world.flush (n + 1)) ∧
        e'.last_packet_sent_time = e.world.now 0 ∧ e'.world.now = fun n => e.world.now (n + 1)) ∧
      (r ≠ .ok () → e'.last_packet_sent_time = e.last_packet_sent_time) := by
  simp only [send_packet, wp_bind, wp_get, wp_ofExcept]
  cases encode_packet e.handler packet with
  | error err => exact ⟨fun sent => (by cases sent), fun _ => trivial⟩
  | ok bytes =>
    simp only [wp_modify, idle, List.nil_append, flush_write_queue, record, write_frames, wp_bind, wp_get]
    refine wp_mono (write_all_spec bytes _) fun r e' wrote => ?_
    obtain ⟨events, rest, rfl, -⟩ := wrote
    cases r with
    | error halt => exact ⟨fun sent => (by cases sent), fun _ => rfl⟩
    | ok _ =>
      simp only [wp_pure, MqttProtocolEngine.flush, wp_ofExec, after_writes]
      rcases e.world.flush 0 with _ | err | _
      · exact ⟨fun sent => (by cases sent), fun _ => trivial⟩
      · exact ⟨fun sent => (by cases sent), fun _ => trivial⟩
      · exact ⟨fun _ => ⟨rfl, rfl, rfl⟩, fun unsent => absurd rfl unsent⟩

/-- The packet cannot be sent: it cannot be encoded, or the transport refuses a part
    of it, or fails to flush it. -/
def Unsendable (e : MqttProtocolEngine H P E) (packet : P) : Prop :=
  match encode_packet e.handler packet with
  | .error _ => True
  | .ok bytes => Refuses e.world.write bytes.length ∨
      Takes e.world.write bytes.length ∧ ∃ err, e.world.flush 0 = some (.error err)

/-- A packet that can be encoded can be sent over a transport that refuses nothing. -/
theorem not_unsendable {e : MqttProtocolEngine H P E} {packet : P} {bytes : VarBytes}
    (encodes : encode_packet e.handler packet = .ok bytes) (taking : Taking e.world.write)
    (flushed : e.world.flush 0 = some (.ok ())) : ¬ Unsendable e packet := by
  simp only [Unsendable, encodes]
  rintro (refuses | ⟨-, err, failed⟩)
  · exact refuses.not_taking taking
  · cases flushed.symm.trans failed

/-- Sending fails exactly if the packet cannot be sent. -/
theorem Sent.fails_iff {packet : P} {e e' : MqttProtocolEngine H P E} {r : Except (Halt MqttError) Unit}
    (sent : Sent packet e r e') : (∃ err, r = .error (.err err)) ↔ Unsendable e packet := by
  cases sent with
  | unencoded encoding =>
    simp only [Unsendable, encoding, iff_true]
    exact ⟨_, rfl⟩
  | encoded encoding transmission _ =>
    simp only [Unsendable, encoding]
    constructor
    · rintro ⟨err, rfl⟩
      cases transmission with
      | unflushed writes failed =>
        refine .inr ⟨writes.takes, ?_⟩
        rcases answer : e.world.flush 0 with _ | failure | ⟨⟨⟩⟩ <;> rw [answer] at failed <;> cases failed
        exact ⟨failure, rfl⟩
      | broken breaks => exact .inl breaks.refuses
    · intro unsendable
      cases transmission with
      | complete writes flushed =>
        rcases unsendable with refuses | ⟨-, err, failed⟩
        · exact absurd refuses writes.takes.not_refuses
        · cases flushed.symm.trans failed
      | unflushed writes failed =>
        rcases unsendable with refuses | ⟨-, err, failure⟩
        · exact absurd refuses writes.takes.not_refuses
        · rw [failure] at failed
          cases failed
          exact ⟨_, rfl⟩
      | broken breaks =>
        rcases unsendable with refuses | ⟨takes, -⟩
        · obtain ⟨err, rfl⟩ := refuses.breaks breaks
          exact ⟨err, rfl⟩
        · exact (takes.not_breaks breaks).elim

/-- The packet can be encoded, and the transport takes and flushes all of it. -/
def Sends (e : MqttProtocolEngine H P E) (packet : P) : Prop :=
  ∃ bytes, encode_packet e.handler packet = .ok bytes ∧ Takes e.world.write bytes.length ∧
    e.world.flush 0 = some (.ok ())

/-- Sending succeeds exactly then. -/
theorem Sent.succeeds_iff {packet : P} {e e' : MqttProtocolEngine H P E} {r : Except (Halt MqttError) Unit}
    (sent : Sent packet e r e') : r = .ok () ↔ Sends e packet := by
  cases sent with
  | unencoded failed =>
    refine ⟨fun same => (by cases same), ?_⟩
    rintro ⟨bytes, encodes, -⟩
    cases failed.symm.trans encodes
  | encoded encoding transmission _ =>
    cases transmission with
    | complete writes flushed => exact ⟨fun _ => ⟨_, encoding, writes.takes, flushed⟩, fun _ => rfl⟩
    | unflushed _ failed =>
      refine ⟨fun same => (by cases same), ?_⟩
      rintro ⟨bytes, -, -, flushed⟩
      rw [flushed] at failed
      cases failed
    | broken breaks =>
      refine ⟨fun same => (by cases same), ?_⟩
      rintro ⟨bytes, encodes, takes, -⟩
      cases encoding.symm.trans encodes
      exact (takes.not_breaks breaks).elim

/-- A packet that can be encoded is sent by a transport that refuses nothing. -/
theorem Sent.succeeds {packet : P} {e e' : MqttProtocolEngine H P E} {r : Except (Halt MqttError) Unit}
    (sent : Sent packet e r e') {bytes : VarBytes} (encodes : encode_packet e.handler packet = .ok bytes)
    (taking : Taking e.world.write) (flushed : e.world.flush 0 = some (.ok ())) :
    r = .ok () ∧ ∃ events rest, e'.log = e.log ++ events ∧
      Transmission e.world.write (e.world.flush 0) ⟨packet, bytes⟩ events rest (.ok ()) := by
  cases sent with
  | unencoded failed => cases encodes.symm.trans failed
  | encoded encoding transmission _ =>
    cases encodes.symm.trans encoding
    cases transmission with
    | complete writes answer => exact ⟨rfl, _, _, rfl, .complete writes answer⟩
    | unflushed _ failed => rw [flushed] at failed; cases failed
    | broken breaks => exact absurd taking breaks.not_taking

/-- The packet goes out completely exactly if it can be encoded and the transport takes all of it. -/
theorem Sent.sent_iff {packet : P} {e e' : MqttProtocolEngine H P E} {r : Except (Halt MqttError) Unit}
    (sent : Sent packet e r e') : ∃ events, e'.log = e.log ++ events ∧ ∀ frame, .sent frame ∈ events ↔
      frame.packet = packet ∧ encode_packet e.handler packet = .ok frame.bytes ∧ Takes e.world.write frame.bytes.length := by
  cases sent with
  | unencoded failed =>
    refine ⟨[], (List.append_nil _).symm, fun frame => ⟨fun member => by simp at member, fun out => ?_⟩⟩
    cases failed.symm.trans out.2.1
  | @encoded bytes r events rest time flush now encoding transmission _ =>
    refine ⟨events, rfl, fun frame => ⟨fun member => ?_, fun out => ?_⟩⟩
    · cases transmission.sends member
      refine ⟨rfl, encoding, ?_⟩
      cases transmission with
      | complete writes _ => exact writes.takes
      | unflushed writes _ => exact writes.takes
      | broken breaks =>
        rcases List.mem_cons.mp member with same | later
        · cases same
        · obtain ⟨_, _, same⟩ := breaks.only _ later
          cases same
    · obtain ⟨rfl, encodes, takes⟩ := out
      cases encodes.symm.trans encoding
      cases transmission with
      | complete _ _ => simp
      | unflushed _ _ => simp
      | broken breaks => exact (takes.not_breaks breaks).elim

/-- A packet that can be encoded is put on the write queue. -/
theorem Sent.queued {packet : P} {e e' : MqttProtocolEngine H P E} {r : Except (Halt MqttError) Unit}
    (sent : Sent packet e r e') {bytes : VarBytes} (encodes : encode_packet e.handler packet = .ok bytes) :
    ∃ events, e'.log = e.log ++ .queued ⟨packet, bytes⟩ :: events := by
  cases sent with
  | unencoded failed => cases encodes.symm.trans failed
  | encoded encoded transmission _ =>
    cases encodes.symm.trans encoded
    obtain ⟨more, rfl, -⟩ := transmission.queued
    exact ⟨more, rfl⟩

/-- A packet that cannot be encoded is not sent. -/
theorem Sent.unencoded_same {packet : P} {e e' : MqttProtocolEngine H P E} {r : Except (Halt MqttError) Unit}
    (sent : Sent packet e r e') {err : E} (failed : encode_packet e.handler packet = .error err) :
    r = .error (.err (into H err)) ∧ e' = e := by
  cases sent with
  | unencoded failed' =>
    cases failed.symm.trans failed'
    exact ⟨rfl, rfl⟩
  | encoded encoded _ _ => cases failed.symm.trans encoded

theorem Sent.idle {packet : P} {e e' : MqttProtocolEngine H P E} {r : Except (Halt MqttError) Unit}
    (sent : Sent packet e r e') (idle : e.write_queue = []) : e'.write_queue = [] := by
  cases sent with
  | unencoded _ => exact idle
  | encoded _ _ _ => rfl

/-- Sending leaves the connection flag, the handler and the decoding state alone. -/
theorem Sent.frame {packet : P} {e e' : MqttProtocolEngine H P E} {r : Except (Halt MqttError) Unit}
    (sent : Sent packet e r e') :
    e'.connected = e.connected ∧ e'.handler = e.handler ∧ e'.packet_state = e.packet_state ∧
      e'.world.order = e.world.order ∧ e'.world.read = e.world.read := by
  cases sent <;> exact ⟨rfl, rfl, rfl, rfl, rfl⟩

/-! ### Waiting for a packet -/

/-- What waiting for a packet comes to. -/
def received (e : MqttProtocolEngine H P E) : Except (Halt MqttError) PacketAction :=
  match e.world.read 0 with
  | .packet packet => (handle_packet e.handler packet).mapError fun err => .err (into H err)
  | .failed _ err => .error (.err (into H err))
  | .waiting _ => .error .cut

/-- What the log says of it. -/
def arrival (e : MqttProtocolEngine H P E) : List (Event P) :=
  match e.world.read 0 with
  | .packet packet => [.received packet, .clock (e.world.now 0)]
  | .failed _ _ | .waiting _ => []

/-- Waiting has a result, is logged, and leaves the sending side alone. -/
structure Waited (e : MqttProtocolEngine H P E) (r : Except (Halt MqttError) PacketAction)
    (e' : MqttProtocolEngine H P E) : Prop where
  outcome : r = received e
  log : e'.log = e.log ++ arrival e
  handler : e'.handler = e.handler
  connected : e'.connected = e.connected
  queue : e'.write_queue = e.write_queue
  write : e'.world.write = e.world.write
  flush : e'.world.flush = e.world.flush
  order : e'.world.order = e.world.order

/-- The packet that an action was made from. -/
theorem Waited.arrived {e e' : MqttProtocolEngine H P E} {action : PacketAction} (waited : Waited e (.ok action) e') :
    ∃ packet, e.world.read 0 = .packet packet ∧ handle_packet e.handler packet = .ok action ∧
      e'.log = e.log ++ [.received packet, .clock (e.world.now 0)] := by
  have outcome := waited.outcome
  have log := waited.log
  unfold received at outcome
  unfold arrival at log
  split at outcome
  · rename_i packet answer
    simp only [answer] at log
    refine ⟨packet, answer, ?_, log⟩
    cases handled : handle_packet e.handler packet with
    | error err => rw [handled] at outcome; cases outcome
    | ok action' => rw [handled] at outcome; cases outcome; rfl
  · cases outcome
  · cases outcome

theorem receive_packet_unlogged_spec (e : MqttProtocolEngine H P E) : wp receive_packet_unlogged e (Waited e) := by
  simp only [receive_packet_unlogged, read_from_transport, wp_bind, wp_ofExec]
  cases answer : e.world.read 0 with
  | failed consumed err =>
    exact ⟨by simp [received, answer], by simp [arrival, answer], rfl, rfl, rfl, rfl, rfl, rfl⟩
  | waiting consumed => exact ⟨by simp [received, answer], by simp [arrival, answer], rfl, rfl, rfl, rfl, rfl, rfl⟩
  | packet packet =>
    simp only [current_timestamp_ms, wp_ofExec, wp_modify, wp_get, wp_ofExcept, update_last_received_time, record]
    cases handled : handle_packet e.handler packet <;>
      exact ⟨by simp [received, answer, handled, Except.mapError], by simp [arrival, answer], rfl, rfl, rfl, rfl, rfl, rfl⟩

/-! ### The errors of sending -/

section
variable {A : MqttError → Prop} (transport : ∀ err, A (.Transport err))
include transport

omit [MqttProtocolHandler H P E] in
theorem answered_raises {α : Type} (answer : Answer α) {err : MqttError} (failed : answered answer = .error (.err err)) :
    A err := by
  rcases answer with _ | err | a <;> cases failed
  exact transport _

omit [MqttProtocolHandler H P E] in
theorem raises_write_all (bytes : Bytes) (taken : Nat) : Raises A (write_all bytes taken : EngineM H P E Unit) := by
  induction bytes generalizing taken with
  | nil => exact Raises.pure _
  | cons byte rest ih =>
    cases taken with
    | succ taken => exact ih taken
    | zero =>
      refine Raises.bind (fun e err failed => answered_raises transport _ failed) fun n => Raises.ite ?_ (ih _)
      exact Raises.fail (transport _)

omit [MqttProtocolHandler H P E] in
theorem raises_write_frames (frames : List (Frame P)) : Raises A (write_frames frames : EngineM H P E Unit) := by
  induction frames with
  | nil => exact Raises.pure _
  | cons frame rest ih =>
    refine (Raises.modify _).bind fun _ => (raises_write_all transport frame.bytes 0).bind fun _ => ?_
    exact (Raises.modify _).bind fun _ => ih

/-- The errors of sending are those of the transport and of the handler. -/
theorem raises_send_packet (proper : ∀ err : E, A (into H err)) (packet : P) :
    Raises A (send_packet packet : EngineM H P E Unit) := by
  refine Raises.get.bind fun e => (Raises.ofExcept proper _).bind fun bytes => (Raises.modify _).bind fun _ => ?_
  have flushing : Raises A (flush_write_queue : EngineM H P E Unit) :=
    Raises.get.bind fun e => (raises_write_frames transport _).bind fun _ => fun e err failed =>
      answered_raises transport _ failed
  refine flushing.bind fun _ => Raises.bind (fun e err failed => ?_) fun _ => Raises.modify _
  cases failed

end

end Masaka.Sending
