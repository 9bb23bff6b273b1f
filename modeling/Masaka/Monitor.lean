import Masaka.Effect

/-!
Monitors: deterministic machines that read a log event by event and refuse the
events that they do not allow. A triple (`Obeys`) says of a computation that keeps
a log that the machine goes along with it: started where the machine and the state
are related, it logs what the machine accepts, and ends where they are related again.
-/
namespace Monitor
open Effect

variable {θ κ : Type} {step : θ → κ → Option θ}

/-- The state of the machine after the events, if it refuses none of them. -/
def read (step : θ → κ → Option θ) : θ → List κ → Option θ
  | q, [] => some q
  | q, event :: rest => (step q event).bind fun q' => read step q' rest

@[simp] theorem read_nil (q : θ) : read step q [] = some q := rfl
@[simp] theorem read_cons (q : θ) (event : κ) (rest : List κ) :
    read step q (event :: rest) = (step q event).bind fun q' => read step q' rest := rfl

theorem read_append (q : θ) (events more : List κ) :
    read step q (events ++ more) = (read step q events).bind fun q' => read step q' more := by
  induction events generalizing q with
  | nil => rfl
  | cons event rest ih =>
    rw [List.cons_append, read_cons, read_cons]
    cases step q event with
    | none => rfl
    | some q' => exact ih q'

/-- What comes first is accepted first. -/
theorem read_split {q q' : θ} {events more : List κ} (accepted : read step q (events ++ more) = some q') :
    ∃ middle, read step q events = some middle ∧ read step middle more = some q' := by
  rw [read_append] at accepted
  exact Option.bind_eq_some_iff.mp accepted

theorem read_join {q middle q' : θ} {events more : List κ} (first : read step q events = some middle)
    (second : read step middle more = some q') : read step q (events ++ more) = some q' := by
  rw [read_append, first]
  exact second

/-- An event in the middle was accepted there. -/
theorem read_event {q q' : θ} {before after : List κ} {event : κ}
    (accepted : read step q (before ++ event :: after) = some q') :
    ∃ here next, read step q before = some here ∧ step here event = some next ∧ read step next after = some q' := by
  obtain ⟨here, first, rest⟩ := read_split accepted
  obtain ⟨next, stepped, later⟩ := Option.bind_eq_some_iff.mp rest
  exact ⟨here, next, first, stepped, later⟩

/-- Events that the machine passes over. -/
theorem read_over {q : θ} {events : List κ} (passes : ∀ event ∈ events, step q event = some q) :
    read step q events = some q := by
  induction events with
  | nil => rfl
  | cons event rest ih =>
    rw [read_cons, passes event List.mem_cons_self]
    exact ih fun later member => passes later (List.mem_cons_of_mem _ member)

/-- What relates the start to nothing read, and every step carries on, relates the state to what was read. -/
theorem read_history {I : List κ → θ → Prop} {start q : θ} {events : List κ} (accepted : read step start events = some q)
    (begins : I [] start) (steps : ∀ past here event next, I past here → step here event = some next →
      I (past ++ [event]) next) : I events q := by
  induction events using List.reverseRecOn generalizing q with
  | nil =>
    cases accepted
    exact begins
  | append_singleton past event ih =>
    obtain ⟨here, next, first, stepped, last⟩ := read_event accepted
    cases last
    exact steps past here event _ (ih first) stepped

/-- What every step but those of the second kind preserves is lost only by a step of that kind. -/
theorem read_lost {I : θ → Prop} {breaks : κ → Prop} {q q' : θ} {events : List κ}
    (accepted : read step q events = some q') (keeps : ∀ here event next, step here event = some next →
      ¬ breaks event → I here → I next) (holds : I q) (lost : ¬ I q') : ∃ event ∈ events, breaks event := by
  induction events generalizing q with
  | nil =>
    cases accepted
    exact absurd holds lost
  | cons event rest ih =>
    obtain ⟨next, stepped, later⟩ := Option.bind_eq_some_iff.mp accepted
    by_cases broken : breaks event
    · exact ⟨event, List.mem_cons_self, broken⟩
    · obtain ⟨other, member, found⟩ := ih later (keeps q event next stepped broken holds)
      exact ⟨other, List.mem_cons_of_mem _ member, found⟩

/-! ### Machines that are not alone

Between two events of the log the surroundings of the machine take steps of their own. -/

inductive Exchange (step : θ → κ → Option θ) (Step : θ → θ → Prop) : θ → List κ → θ → Prop where
  | done {q : θ} : Exchange step Step q [] q
  | event {q next q' : θ} {event : κ} {events : List κ} : step q event = some next →
      Exchange step Step next events q' → Exchange step Step q (event :: events) q'
  | step {q next q' : θ} {events : List κ} : Step q next → Exchange step Step next events q' →
      Exchange step Step q events q'

namespace Exchange
variable {Step : θ → θ → Prop}

theorem append {q middle q' : θ} {events more : List κ} (first : Exchange step Step q events middle)
    (second : Exchange step Step middle more q') : Exchange step Step q (events ++ more) q' := by
  induction first with
  | done => exact second
  | event stepped _ ih => exact .event stepped (ih second)
  | step stepped _ ih => exact .step stepped (ih second)

/-- What is read is exchanged with surroundings that rest. -/
theorem of_read {q q' : θ} {events : List κ} (accepted : read step q events = some q') :
    Exchange step Step q events q' := by
  induction events generalizing q with
  | nil =>
    cases accepted
    exact .done
  | cons event rest ih =>
    obtain ⟨next, stepped, later⟩ := Option.bind_eq_some_iff.mp accepted
    exact .event stepped (ih later)

theorem of_possible {q : θ} {events : List κ} (possible : (read step q events).isSome = true) :
    Exchange step Step q events ((read step q events).getD q) := by
  obtain ⟨q', accepted⟩ := Option.isSome_iff_exists.mp possible
  rw [accepted]
  exact of_read accepted

/-- What comes first is exchanged first. -/
theorem split {q q' : θ} {events more : List κ} (exchange : Exchange step Step q (events ++ more) q') :
    ∃ middle, Exchange step Step q events middle ∧ Exchange step Step middle more q' := by
  generalize all : events ++ more = whole at exchange
  induction exchange generalizing events with
  | done =>
    obtain ⟨rfl, rfl⟩ := List.append_eq_nil_iff.mp all
    exact ⟨_, .done, .done⟩
  | @event q next q' event rest stepped later ih =>
    cases events with
    | nil =>
      cases all
      exact ⟨q, .done, .event stepped later⟩
    | cons first events =>
      cases all
      obtain ⟨middle, before, after⟩ := ih rfl
      exact ⟨middle, .event stepped before, after⟩
  | step stepped _ ih =>
    obtain ⟨middle, before, after⟩ := ih all
    exact ⟨middle, .step stepped before, after⟩

/-- What the surroundings and the events preserve. -/
theorem keeps {I : θ → Prop} {q q' : θ} {events : List κ} (exchange : Exchange step Step q events q')
    (around : ∀ q q', Step q q' → I q → I q')
    (steps : ∀ q, ∀ event ∈ events, ∀ q', step q event = some q' → I q → I q') (start : I q) : I q' := by
  induction exchange with
  | done => exact start
  | @event q next q' event rest stepped _ ih =>
    exact ih (fun q later member => steps q later (List.mem_cons_of_mem _ member))
      (steps q event List.mem_cons_self next stepped start)
  | step stepped _ ih => exact ih steps (around _ _ stepped start)

/-- An event in the middle happened there. -/
theorem at_event {q q' : θ} {before after : List κ} {event : κ}
    (exchange : Exchange step Step q (before ++ event :: after) q') : ∃ here next,
      Exchange step Step q before here ∧ step here event = some next ∧ Exchange step Step next after q' := by
  obtain ⟨middle, first, rest⟩ := split exchange
  generalize all : event :: after = events at rest
  clear exchange
  induction rest with
  | done => cases all
  | event stepped later _ =>
    cases all
    exact ⟨_, _, first, stepped, later⟩
  | step stepped _ ih =>
    have later : Exchange step Step q (before ++ []) _ := first.append (.step stepped .done)
    rw [List.append_nil] at later
    exact ih later all

/-- What a part of the machine accepts is known at every step. -/
theorem keeps_read {ω : Type} {f : θ → ω} {observe : ω → κ → Option ω} {I : θ → Prop} {q q' : θ} {w : ω}
    {events : List κ} (exchange : Exchange step Step q events q') (accepted : read observe (f q) events = some w)
    (around : ∀ q q', Step q q' → I q → f q' = f q ∧ I q')
    (steps : ∀ q event q' next, step q event = some q' → observe (f q) event = some next → I q →
      f q' = next ∧ I q') (start : I q) : f q' = w ∧ I q' := by
  induction exchange with
  | done =>
    cases accepted
    exact ⟨rfl, start⟩
  | @event q next q' event rest stepped _ ih =>
    obtain ⟨there, observed, later⟩ := Option.bind_eq_some_iff.mp accepted
    obtain ⟨rfl, holds⟩ := steps q event next there stepped observed start
    exact ih later holds
  | step stepped _ ih =>
    obtain ⟨same, holds⟩ := around _ _ stepped start
    exact ih (same ▸ accepted) holds

end Exchange

/-! ### Formulas about the past

A formula says something about an event and what was logged before it. -/

/-- An event of the first kind has happened, and none of the second kind after it. -/
def Since (began ended : List κ → κ → Prop) (log : List κ) : Prop :=
  ∃ past event rest, log = past ++ event :: rest ∧ began past event ∧
    ∀ mid other late, rest = mid ++ other :: late → ¬ ended (past ++ event :: mid) other

theorem not_since_nil (began ended : List κ → κ → Prop) : ¬ Since began ended [] := by
  rintro ⟨past, event, rest, empty, -⟩
  cases past <;> cases empty

/-- What the last event does to the formula. -/
theorem since_concat {began ended : List κ → κ → Prop} {log : List κ} {event : κ} :
    Since began ended (log ++ [event]) ↔ began log event ∨ Since began ended log ∧ ¬ ended log event := by
  constructor
  · rintro ⟨past, first, rest, split, begins, never⟩
    induction rest using List.reverseRecOn with
    | nil =>
      obtain ⟨rfl, same⟩ := List.append_inj' split rfl
      cases same
      exact .inl begins
    | append_singleton rest last _ =>
      rw [← List.cons_append, ← List.append_assoc] at split
      obtain ⟨rfl, same⟩ := List.append_inj' split rfl
      cases same
      refine .inr ⟨⟨past, first, rest, rfl, begins, fun mid other late here => ?_⟩, never rest event [] rfl⟩
      exact never mid other (late ++ [event]) (by rw [here]; simp)
  · rintro (begins | ⟨⟨past, first, rest, rfl, begins, never⟩, lasts⟩)
    · refine ⟨log, event, [], rfl, begins, fun mid other late none => ?_⟩
      cases mid <;> cases none
    · refine ⟨past, first, rest ++ [event], by simp, begins, fun mid other late split => ?_⟩
      induction late using List.reverseRecOn with
      | nil =>
        obtain ⟨rfl, same⟩ := List.append_inj' split rfl
        cases same
        exact lasts
      | append_singleton late last _ =>
        rw [← List.cons_append, ← List.append_assoc] at split
        exact never mid other late (List.append_inj' split rfl).1

/-! ### Computations under a monitor -/

variable {ε σ τ α β : Type} {log : σ → List κ}

/-- From a state to the next one the log grows by events that take the machine along. -/
def Grows (step : θ → κ → Option θ) (log : σ → List κ) (q : θ) (s : σ) (q' : θ) (t : σ) : Prop :=
  ∃ events, log t = log s ++ events ∧ read step q events = some q'

theorem Grows.same {q : θ} {s t : σ} (same : log t = log s) : Grows step log q s q t :=
  ⟨[], by rw [same, List.append_nil], rfl⟩
theorem Grows.event {q q' : θ} {s t : σ} {event : κ} (logged : log t = log s ++ [event])
    (stepped : step q event = some q') : Grows step log q s q' t :=
  ⟨[event], logged, by rw [read_cons, stepped]; rfl⟩
theorem Grows.trans {q q' q'' : θ} {s t u : σ} (first : Grows step log q s q' t) (second : Grows step log q' t q'' u) :
    Grows step log q s q'' u := by
  obtain ⟨events, logged, accepted⟩ := first
  obtain ⟨more, logged', accepted'⟩ := second
  exact ⟨events ++ more, by rw [logged', logged, List.append_assoc], read_join accepted accepted'⟩

/-- What holds at the end: of a value the one, of an early stop the other. -/
def Ends (Q : α → θ → σ → Prop) (F : θ → σ → Prop) (r : Except (Halt ε) α) (q : θ) (t : σ) : Prop :=
  match r with
  | .ok a => Q a q t
  | .error _ => F q t

/-- Started where the machine and the state are related by `I`, the computation logs what the
    machine accepts; a value leaves them related by `Q`, an early stop by `F`. -/
def Obeys (step : θ → κ → Option θ) (log : σ → List κ) (I : θ → σ → Prop) (m : Eff ε σ α) (Q : α → θ → σ → Prop)
    (F : θ → σ → Prop) : Prop :=
  ∀ q s, I q s → wp m s fun r t => ∃ q', Grows step log q s q' t ∧ Ends Q F r q' t

section
variable {I : θ → σ → Prop} {F : θ → σ → Prop}

theorem Obeys.mono {m : Eff ε σ α} {I' F' : θ → σ → Prop} {Q Q' : α → θ → σ → Prop} (obeys : Obeys step log I m Q F)
    (before : ∀ q s, I' q s → I q s) (after : ∀ a q s, Q a q s → Q' a q s) (stopped : ∀ q s, F q s → F' q s) :
    Obeys step log I' m Q' F' := by
  intro q s holds
  refine wp_mono (obeys q s (before q s holds)) fun r t ended => ?_
  obtain ⟨q', grows, ends⟩ := ended
  cases r with
  | ok a => exact ⟨q', grows, after a q' t ends⟩
  | error h => exact ⟨q', grows, stopped q' t ends⟩

theorem Obeys.pure {a : α} {Q : α → θ → σ → Prop} (ends : ∀ q s, I q s → Q a q s) :
    Obeys step log I (pure a : Eff ε σ α) Q F := fun q s holds => ⟨q, .same rfl, ends q s holds⟩
theorem Obeys.fail {e : ε} {Q : α → θ → σ → Prop} (ends : ∀ q s, I q s → F q s) :
    Obeys step log I (Effect.fail e : Eff ε σ α) Q F := fun q s holds => ⟨q, .same rfl, ends q s holds⟩

/-- The rule of sequencing. -/
theorem Obeys.bind {m : Eff ε σ α} {f : α → Eff ε σ β} {R : α → θ → σ → Prop} {Q : β → θ → σ → Prop}
    (first : Obeys step log I m R F) (next : ∀ a, Obeys step log (R a) (f a) Q F) :
    Obeys step log I (m >>= f) Q F := by
  intro q s holds
  refine wp_seq (first q s holds) (fun a t ended => ?_) fun h t ended => ended
  obtain ⟨q', grows, ends⟩ := ended
  refine wp_mono (next a q' t ends) fun r u ended => ?_
  obtain ⟨q'', grows', ends'⟩ := ended
  exact ⟨q'', grows.trans grows', ends'⟩

/-- What is read of the state is known of it. -/
theorem Obeys.get_bind {f : σ → Eff ε σ β} {Q : β → θ → σ → Prop}
    (next : ∀ s, Obeys step log (fun q t => I q t ∧ t = s) (f s) Q F) : Obeys step log I (get >>= f) Q F := by
  intro q s holds
  rw [wp_bind, wp_get]
  exact next s q s ⟨holds, rfl⟩

theorem Obeys.bind_ofExcept {δ : Type} {into : δ → ε} {x : Except δ α} {f : α → Eff ε σ β} {Q : β → θ → σ → Prop}
    (next : ∀ a, x = .ok a → Obeys step log I (f a) Q F) (stop : ∀ q s, I q s → F q s) :
    Obeys step log I (ofExcept into x >>= f) Q F := by
  cases x with
  | ok a => exact next a rfl
  | error e => exact Obeys.fail stop

theorem Obeys.ofExcept {δ : Type} {into : δ → ε} {x : Except δ α} {Q : α → θ → σ → Prop}
    (ends : ∀ a q s, I q s → Q a q s) (stop : ∀ q s, I q s → F q s) :
    Obeys step log I (Effect.ofExcept into x : Eff ε σ α) Q F := by
  cases x with
  | ok a => exact Obeys.pure (ends a)
  | error e => exact Obeys.fail stop

theorem Obeys.ite {c : Prop} [Decidable c] {m n : Eff ε σ α} {Q : α → θ → σ → Prop}
    (yes : c → Obeys step log I m Q F) (no : ¬ c → Obeys step log I n Q F) :
    Obeys step log I (if c then m else n) Q F := by
  split
  · exact yes ‹_›
  · exact no ‹_›

theorem Obeys.onlyIf {c : Prop} [Decidable c] {m : Eff ε σ PUnit} {Q : PUnit → θ → σ → Prop}
    (yes : c → Obeys step log I m Q F) (no : ¬ c → ∀ q s, I q s → Q ⟨⟩ q s) :
    Obeys step log I (onlyIf c m) Q F := Obeys.ite yes fun other => Obeys.pure (no other)

/-- What is done to the state without a word in the log. -/
theorem Obeys.silent {f : σ → Except (Halt ε) α × σ} {Q : α → θ → σ → Prop} (same : ∀ s, log (f s).2 = log s)
    (ends : ∀ q s, I q s → Ends Q F (f s).1 q (f s).2) : Obeys step log I (ofExec f) Q F := fun q s holds =>
  ⟨q, .same (same s), ends q s holds⟩
theorem Obeys.modify {f : σ → σ} {Q : PUnit → θ → σ → Prop} (same : ∀ s, log (f s) = log s)
    (ends : ∀ q s, I q s → Q ⟨⟩ q (f s)) : Obeys step log I (modify f : Eff ε σ PUnit) Q F :=
  Obeys.silent (f := fun s => ((.ok ⟨⟩ : Except (Halt ε) PUnit), f s)) same ends

/-- One event, with what it makes of the machine. -/
theorem Obeys.event {f : σ → Except (Halt ε) α × σ} {Q : α → θ → σ → Prop} {g : σ → κ}
    (logged : ∀ s, log (f s).2 = log s ++ [g s])
    (ends : ∀ q s, I q s → ∃ q', step q (g s) = some q' ∧ Ends Q F (f s).1 q' (f s).2) :
    Obeys step log I (ofExec f) Q F := by
  intro q s holds
  obtain ⟨q', stepped, ended⟩ := ends q s holds
  exact ⟨q', .event (logged s) stepped, ended⟩

/-- An error is handed to the caller; a computation that is dropped stops. -/
theorem Obeys.attempt {m : Eff ε σ α} {Q : α → θ → σ → Prop} (obeys : Obeys step log I m Q F) :
    Obeys step log I (attempt m) (fun result q t => match result with
      | .ok a => Q a q t
      | .error _ => F q t) F := by
  intro q s holds
  rw [wp_attempt]
  refine wp_mono (obeys q s holds) fun r t ended => ?_
  rcases r with (e | _) | a <;> exact ended

/-- A loop. -/
theorem Obeys.forM {f : β → Eff ε σ PUnit} {l : List β}
    (each : ∀ b ∈ l, Obeys step log I (f b) (fun _ => I) F) : Obeys step log I (l.forM f) (fun _ => I) F := by
  induction l with
  | nil => exact Obeys.pure fun _ _ holds => holds
  | cons b rest ih =>
    exact Obeys.bind (each b List.mem_cons_self) fun _ => ih fun b' member => each b' (List.mem_cons_of_mem _ member)

/-- A computation over the part of the state that has the log; the rest of the state stays. -/
theorem Obeys.zoom {l : Lens σ τ} {p : τ → List κ} (same : ∀ s, log s = p (l.get s)) {m : Eff ε τ α}
    {Q : α → θ → σ → Prop} (obeys : ∀ s, Obeys step p (fun q t => I q (l.set t s)) m
      (fun a q t => Q a q (l.set t s)) fun q t => F q (l.set t s)) : Obeys step log I (zoom l m) Q F := by
  intro q s holds
  rw [wp_zoom]
  refine wp_mono (obeys s q (l.get s) (by dsimp only; rw [Lens.set_get]; exact holds)) fun r t ended => ?_
  obtain ⟨q', ⟨events, logged, accepted⟩, ends⟩ := ended
  refine ⟨q', ⟨events, ?_, accepted⟩, ?_⟩
  · rw [same, same, Lens.get_set]
    exact logged
  · cases r <;> exact ends

end

end Monitor
