import Mathlib

/-!
Computations over a state that may stop early and keep the state they reached:
with an error, or because the caller drops them while they wait. The rules below
say what a computation does from a state (`wp`), which relation holds between the
states before and after it (`Moves`), which errors it returns (`Raises`), which predicate
it preserves (`Keeps`), and which change of the state it does not notice (`Commutes`).
-/
namespace Effect
universe u

/-- How a computation that returned no value ended. -/
inductive Halt (ε : Type) where
  /-- It returned an error. -/
  | err (e : ε)
  /-- It was dropped while it waited. -/
  | cut
  deriving DecidableEq, Repr

/-- Computations over the state `σ` that may stop early. -/
abbrev Eff (ε σ : Type) := ExceptT (Halt ε) (StateM σ)

variable {ε σ τ ρ α β : Type}

/-- The outcome of a computation from a state, and the state it leaves. -/
def exec (m : Eff ε σ α) (s : σ) : Except (Halt ε) α × σ := m.run.run s

/-- The computation with the given outcomes. -/
def ofExec (f : σ → Except (Halt ε) α × σ) : Eff ε σ α := ExceptT.mk fun s => f s

/-- Stops with an error. -/
def fail (e : ε) : Eff ε σ α := throw (.err e)

/-- The value of a fallible pure computation, whose errors are turned by `into`. -/
def ofExcept {δ : Type} (into : δ → ε) : Except δ α → Eff ε σ α
  | .ok a => pure a
  | .error e => fail (into e)

/-- Runs a computation only under the condition. -/
def onlyIf (c : Prop) [Decidable c] (m : Eff ε σ PUnit) : Eff ε σ PUnit := if c then m else pure ⟨⟩

/-- Runs a computation and hands its error to the caller; being dropped is not an error. -/
def attempt (m : Eff ε σ α) : Eff ε σ (Except ε α) := ofExec fun s =>
  match exec m s with
  | (.ok a, t) => (.ok (.ok a), t)
  | (.error (.err e), t) => (.ok (.error e), t)
  | (.error .cut, t) => (.error .cut, t)

/-- A part of a state, with what reading and writing it satisfy. -/
structure Lens (σ τ : Type) where
  get : σ → τ
  set : τ → σ → σ
  get_set : ∀ t s, get (set t s) = t
  set_get : ∀ s, set (get s) s = s
  set_set : ∀ t t' s, set t (set t' s) = set t s

attribute [simp] Lens.get_set Lens.set_get Lens.set_set

/-- A computation over a part of the state. -/
def zoom (l : Lens σ τ) (m : Eff ε τ α) : Eff ε σ α := ofExec fun s =>
  ((exec m (l.get s)).1, l.set (exec m (l.get s)).2 s)

/-- The pair's first component. -/
def first : Lens (σ × τ) σ where
  get := Prod.fst
  set t s := (t, s.2)
  get_set _ _ := rfl
  set_get _ := rfl
  set_set _ _ _ := rfl

@[simp] theorem exec_pure (a : α) (s : σ) : exec (pure a : Eff ε σ α) s = (.ok a, s) := rfl
@[simp] theorem exec_fail (e : ε) (s : σ) : exec (fail e : Eff ε σ α) s = (.error (.err e), s) := rfl
@[simp] theorem exec_get (s : σ) : exec (get : Eff ε σ σ) s = (.ok s, s) := rfl
@[simp] theorem exec_modify (f : σ → σ) (s : σ) : exec (modify f : Eff ε σ PUnit) s = (.ok ⟨⟩, f s) := rfl
@[simp] theorem exec_ofExec (f : σ → Except (Halt ε) α × σ) (s : σ) : exec (ofExec f) s = f s := rfl
@[simp] theorem ofExcept_ok {δ : Type} (into : δ → ε) (a : α) : ofExcept into (.ok a) = (pure a : Eff ε σ α) := rfl
@[simp] theorem ofExcept_error {δ : Type} (into : δ → ε) (e : δ) :
    ofExcept into (.error e) = (fail (into e) : Eff ε σ α) := rfl
theorem exec_bind (m : Eff ε σ α) (f : α → Eff ε σ β) (s : σ) :
    exec (m >>= f) s = match exec m s with
      | (.ok a, t) => exec (f a) t
      | (.error h, t) => (.error h, t) := by
  simp only [exec, ExceptT.run_bind, StateT.run_bind]
  generalize StateT.run (ExceptT.run m) s = ran
  obtain ⟨h | a, t⟩ := ran <;> rfl

theorem exec_attempt_state (m : Eff ε σ α) (s : σ) : (exec (attempt m) s).2 = (exec m s).2 := by
  simp only [attempt, exec_ofExec]
  rcases exec m s with ⟨(e | _) | a, t⟩ <;> rfl
theorem exec_attempt_ok {m : Eff ε σ α} {s : σ} {a : α} (returned : (exec (attempt m) s).1 = .ok (.ok a)) :
    (exec m s).1 = .ok a := by
  simp only [attempt, exec_ofExec] at returned
  rcases ran : exec m s with ⟨(e | _) | b, t⟩ <;> rw [ran] at returned <;> cases returned
  rfl

/-- What is only done with the result leaves the state. -/
theorem exec_result_state (m : Eff ε σ α) (f : α → β) (s : σ) :
    (exec (m >>= fun a => pure (f a)) s).2 = (exec m s).2 := by
  rw [exec_bind]
  rcases exec m s with ⟨h | a, t⟩ <;> rfl

theorem exec_result_value (m : Eff ε σ α) (f : α → β) (s : σ) :
    (exec (m >>= fun a => pure (f a)) s).1 = (exec m s).1.map f := by
  rw [exec_bind]
  rcases exec m s with ⟨h | a, t⟩ <;> rfl

theorem exec_result_ok {m : Eff ε σ α} {f : α → β} {s : σ} {b : β}
    (returned : (exec (m >>= fun a => pure (f a)) s).1 = .ok b) : ∃ a, (exec m s).1 = .ok a ∧ f a = b := by
  rw [exec_bind] at returned
  rcases ran : exec m s with ⟨h | a, t⟩
  · rw [ran] at returned; cases returned
  · rw [ran] at returned; exact ⟨a, rfl, Except.ok.inj returned⟩

theorem map_error {r : Except (Halt ε) α} {h : Halt ε} (stopped : r = .error h) (f : α → β) : r.map f = .error h := by
  rw [stopped]
  rfl

/-- Computations with the same outcomes are the same. -/
theorem exec_ext {m n : Eff ε σ α} (same : ∀ s, exec m s = exec n s) : m = n := funext same

theorem zoom_pure (l : Lens σ τ) (a : α) : zoom l (pure a : Eff ε τ α) = pure a :=
  exec_ext fun s => by simp [zoom]
theorem zoom_fail (l : Lens σ τ) (e : ε) : zoom l (fail e : Eff ε τ α) = fail e :=
  exec_ext fun s => by simp [zoom]
theorem zoom_ofExcept {δ : Type} (l : Lens σ τ) (into : δ → ε) (x : Except δ α) :
    zoom l (ofExcept into x : Eff ε τ α) = ofExcept into x := by
  cases x with
  | ok a => exact zoom_pure l a
  | error e => exact zoom_fail l (into e)
theorem zoom_bind (l : Lens σ τ) (m : Eff ε τ α) (f : α → Eff ε τ β) :
    zoom l (m >>= f) = zoom l m >>= fun a => zoom l (f a) := by
  refine exec_ext fun s => ?_
  simp only [zoom, exec_ofExec, exec_bind]
  rcases exec m (l.get s) with ⟨h | a, t⟩ <;> simp
theorem zoom_get (l : Lens σ τ) : zoom l (get : Eff ε τ τ) = get >>= fun s => pure (l.get s) :=
  exec_ext fun _ => by simp only [zoom, exec_ofExec, exec_bind, exec_get, exec_pure, Lens.set_get]
theorem zoom_forM (l : Lens σ τ) (list : List α) (f : α → Eff ε τ PUnit) :
    zoom l (list.forM f) = list.forM fun a => zoom l (f a) := by
  induction list with
  | nil => exact zoom_pure l _
  | cons a rest ih => exact (zoom_bind l _ _).trans (by rw [ih]; rfl)
theorem zoom_ite (l : Lens σ τ) {c : Prop} [Decidable c] (m n : Eff ε τ α) :
    zoom l (if c then m else n) = if c then zoom l m else zoom l n := by
  split <;> rfl

/-- The computation `m` from the state `s` ends with an outcome and a state that satisfy `Q`. -/
def wp (m : Eff ε σ α) (s : σ) (Q : Except (Halt ε) α → σ → Prop) : Prop := Q (exec m s).1 (exec m s).2

theorem wp_mono {m : Eff ε σ α} {s : σ} {Q R : Except (Halt ε) α → σ → Prop} (holds : wp m s Q)
    (weaker : ∀ r t, Q r t → R r t) : wp m s R :=
  weaker _ _ holds
theorem wp_and {m : Eff ε σ α} {s : σ} {Q R : Except (Halt ε) α → σ → Prop} (left : wp m s Q) (right : wp m s R) :
    wp m s fun r t => Q r t ∧ R r t :=
  ⟨left, right⟩

@[simp] theorem wp_pure (a : α) (s : σ) (Q : Except (Halt ε) α → σ → Prop) :
    wp (pure a) s Q ↔ Q (.ok a) s := Iff.rfl
@[simp] theorem wp_fail (e : ε) (s : σ) (Q : Except (Halt ε) α → σ → Prop) :
    wp (fail e) s Q ↔ Q (.error (.err e)) s := Iff.rfl
@[simp] theorem wp_get (s : σ) (Q : Except (Halt ε) σ → σ → Prop) : wp get s Q ↔ Q (.ok s) s := Iff.rfl
@[simp] theorem wp_modify (f : σ → σ) (s : σ) (Q : Except (Halt ε) PUnit → σ → Prop) :
    wp (modify f) s Q ↔ Q (.ok ⟨⟩) (f s) := Iff.rfl
@[simp] theorem wp_ofExec (f : σ → Except (Halt ε) α × σ) (s : σ) (Q : Except (Halt ε) α → σ → Prop) :
    wp (ofExec f) s Q ↔ Q (f s).1 (f s).2 := Iff.rfl
theorem wp_zoom (l : Lens σ τ) (m : Eff ε τ α) (s : σ) (Q : Except (Halt ε) α → σ → Prop) :
    wp (zoom l m) s Q ↔ wp m (l.get s) fun r t => Q r (l.set t s) := Iff.rfl
theorem wp_attempt (m : Eff ε σ α) (s : σ) (Q : Except (Halt ε) (Except ε α) → σ → Prop) :
    wp (attempt m) s Q ↔ wp m s fun r t => match r with
      | .ok a => Q (.ok (.ok a)) t
      | .error (.err e) => Q (.ok (.error e)) t
      | .error .cut => Q (.error .cut) t := by
  simp only [wp, attempt, exec_ofExec]
  rcases exec m s with ⟨(e | _) | a, t⟩ <;> rfl
theorem wp_bind (m : Eff ε σ α) (f : α → Eff ε σ β) (s : σ) (Q : Except (Halt ε) β → σ → Prop) :
    wp (m >>= f) s Q ↔ wp m s fun r t => match r with
      | .ok a => wp (f a) t Q
      | .error h => Q (.error h) t := by
  simp only [wp, exec_bind]
  rcases exec m s with ⟨h | a, t⟩ <;> rfl
theorem wp_ofExcept {δ : Type} (into : δ → ε) (x : Except δ α) (s : σ) (Q : Except (Halt ε) α → σ → Prop) :
    wp (ofExcept into x) s Q ↔ match x with
      | .ok a => Q (.ok a) s
      | .error e => Q (.error (.err (into e))) s := by
  cases x <;> rfl

theorem wp_ofExcept_bind {δ : Type} {into : δ → ε} {x : Except δ α} {f : α → Eff ε σ β} {s : σ}
    {Q : Except (Halt ε) β → σ → Prop} (next : ∀ a, x = .ok a → wp (f a) s Q)
    (stop : ∀ e, x = .error e → Q (.error (.err (into e))) s) : wp (ofExcept into x >>= f) s Q := by
  cases x with
  | ok a => exact next a rfl
  | error e => exact stop e rfl

/-- The rule of sequencing: the second computation starts where the first one ended. -/
theorem wp_seq {m : Eff ε σ α} {f : α → Eff ε σ β} {s : σ} {R : Except (Halt ε) α → σ → Prop}
    {Q : Except (Halt ε) β → σ → Prop} (first : wp m s R) (next : ∀ a t, R (.ok a) t → wp (f a) t Q)
    (stop : ∀ h t, R (.error h) t → Q (.error h) t) : wp (m >>= f) s Q := by
  rw [wp_bind]
  refine wp_mono first fun r t holds => ?_
  cases r with
  | ok a => exact next a t holds
  | error h => exact stop h t holds

/-- What is only done with the result changes nothing but the outcome. -/
theorem wp_result {m : Eff ε σ α} {f : α → β} {s : σ} {Q : Except (Halt ε) β → σ → Prop}
    (holds : wp m s fun r t => Q (r.map f) t) : wp (m >>= fun a => pure (f a)) s Q :=
  wp_seq holds (fun _ _ holds => holds) fun _ _ holds => holds

/-! ### Relations between the states before and after -/

/-- Whatever its outcome, the computation moves the state along the relation. -/
def Moves (R : σ → σ → Prop) (m : Eff ε σ α) : Prop := ∀ s, R s (exec m s).2

theorem Moves.wp {R : σ → σ → Prop} {m : Eff ε σ α} (moves : Moves R m) (s : σ) : wp m s fun _ t => R s t := moves s
theorem Moves.mono {R S : σ → σ → Prop} {m : Eff ε σ α} (moves : Moves R m) (weaker : ∀ s t, R s t → S s t) :
    Moves S m := fun s => weaker _ _ (moves s)

section
variable {R : σ → σ → Prop}

theorem Moves.pure [Std.Refl R] (a : α) : Moves R (pure a : Eff ε σ α) := fun s => refl_of R s
theorem Moves.fail [Std.Refl R] (e : ε) : Moves R (fail e : Eff ε σ α) := fun s => refl_of R s
theorem Moves.get [Std.Refl R] : Moves R (get : Eff ε σ σ) := fun s => refl_of R s
theorem Moves.modify {f : σ → σ} (moves : ∀ s, R s (f s)) : Moves R (modify f : Eff ε σ PUnit) := moves
theorem Moves.ofExcept [Std.Refl R] {δ : Type} (into : δ → ε) (x : Except δ α) :
    Moves R (ofExcept into x : Eff ε σ α) := by
  cases x <;> exact fun s => refl_of R s
theorem Moves.bind [IsTrans σ R] {m : Eff ε σ α} {f : α → Eff ε σ β} (first : Moves R m) (next : ∀ a, Moves R (f a)) :
    Moves R (m >>= f) := fun s =>
  wp_seq (first.wp s) (fun a t before => wp_mono ((next a).wp t) fun _ _ after => trans_of R before after)
    fun _ _ before => before
theorem Moves.bind_ofExcept [Std.Refl R] {δ : Type} {into : δ → ε} {x : Except δ α} {f : α → Eff ε σ β}
    (next : ∀ a, x = .ok a → Moves R (f a)) : Moves R (Effect.ofExcept into x >>= f) := by
  cases x with
  | error e => exact Moves.fail (into e)
  | ok a => exact next a rfl
theorem Moves.ite {c : Prop} [Decidable c] {m n : Eff ε σ α} (yes : c → Moves R m) (no : ¬ c → Moves R n) :
    Moves R (if c then m else n) := by
  split
  · exact yes ‹_›
  · exact no ‹_›
theorem Moves.onlyIf [Std.Refl R] {c : Prop} [Decidable c] {m : Eff ε σ PUnit} (yes : c → Moves R m) :
    Moves R (onlyIf c m) := Moves.ite yes fun _ => Moves.pure _
theorem Moves.attempt {m : Eff ε σ α} (moves : Moves R m) : Moves R (attempt m) := fun s => by
  rw [exec_attempt_state]
  exact moves s
theorem Moves.zoom {S : τ → τ → Prop} (l : Lens σ τ) {m : Eff ε τ α} (moves : Moves S m)
    (lifts : ∀ s t, S (l.get s) t → R s (l.set t s)) : Moves R (zoom l m) := fun s =>
  lifts s _ (moves (l.get s))
theorem Moves.forM_mem [Std.Refl R] [IsTrans σ R] {f : α → Eff ε σ PUnit} {l : List α} (each : ∀ a ∈ l, Moves R (f a)) :
    Moves R (l.forM f) := by
  induction l with
  | nil => exact Moves.pure _
  | cons a rest ih =>
    exact Moves.bind (each a List.mem_cons_self) fun _ => ih fun b member => each b (List.mem_cons_of_mem _ member)
theorem Moves.forM [Std.Refl R] [IsTrans σ R] {f : α → Eff ε σ PUnit} (each : ∀ a, Moves R (f a)) (l : List α) :
    Moves R (l.forM f) := Moves.forM_mem fun a _ => each a

end

/-! ### What a returned value tells -/

theorem error_ne_ok {η : Type} (h : η) (a : α) : (.error h : Except η α) ≠ .ok a := fun same => by cases same

/-- If the computation returns a value, the value and the state satisfy the predicate. -/
def Ensures (Q : α → σ → Prop) (m : Eff ε σ α) : Prop := ∀ s a, (exec m s).1 = .ok a → Q a (exec m s).2

theorem Ensures.fail {Q : α → σ → Prop} (e : ε) : Ensures Q (fail e : Eff ε σ α) :=
  fun _ _ returned => by cases returned
theorem Ensures.bind {Q : β → σ → Prop} {m : Eff ε σ α} {f : α → Eff ε σ β} (last : ∀ a, Ensures Q (f a)) :
    Ensures Q (m >>= f) := by
  intro s b returned
  rw [exec_bind] at returned ⊢
  rcases ran : exec m s with ⟨h | a, t⟩
  · rw [ran] at returned; cases returned
  · rw [ran] at returned; exact last a t b returned
theorem Ensures.ite {Q : α → σ → Prop} {c : Prop} [Decidable c] {m n : Eff ε σ α} (yes : Ensures Q m)
    (no : Ensures Q n) : Ensures Q (if c then m else n) := by
  split
  · exact yes
  · exact no

/-! ### What an error tells -/

/-- Every error that the computation returns satisfies the predicate. -/
def Raises (A : ε → Prop) (m : Eff ε σ α) : Prop := ∀ s e, (exec m s).1 = .error (.err e) → A e

section
variable {A : ε → Prop}

theorem Raises.pure (a : α) : Raises A (pure a : Eff ε σ α) := fun _ _ raised => by cases raised
theorem Raises.get : Raises A (get : Eff ε σ σ) := fun _ _ raised => by cases raised
theorem Raises.modify (f : σ → σ) : Raises A (modify f : Eff ε σ PUnit) := fun _ _ raised => by cases raised
theorem Raises.fail {e : ε} (allowed : A e) : Raises A (fail e : Eff ε σ α) := by
  intro s e' raised
  cases raised
  exact allowed
theorem Raises.ofExcept {δ : Type} {into : δ → ε} (allowed : ∀ e, A (into e)) (x : Except δ α) :
    Raises A (ofExcept into x : Eff ε σ α) := by
  cases x with
  | ok a => exact Raises.pure a
  | error e => exact Raises.fail (allowed e)
theorem Raises.bind {m : Eff ε σ α} {f : α → Eff ε σ β} (first : Raises A m) (next : ∀ a, Raises A (f a)) :
    Raises A (m >>= f) := by
  intro s e raised
  rw [exec_bind] at raised
  rcases ran : exec m s with ⟨h | a, t⟩
  · rw [ran] at raised
    refine first s e ?_
    rw [ran]
    cases raised
    rfl
  · rw [ran] at raised
    exact next a t e raised
theorem Raises.ite {c : Prop} [Decidable c] {m n : Eff ε σ α} (yes : Raises A m) (no : Raises A n) :
    Raises A (if c then m else n) := by
  split
  · exact yes
  · exact no
theorem Raises.zoom (l : Lens σ τ) {m : Eff ε τ α} (raises : Raises A m) : Raises A (zoom l m) := fun s =>
  raises (l.get s)
theorem Raises.forM {f : α → Eff ε σ PUnit} (each : ∀ a, Raises A (f a)) (l : List α) : Raises A (l.forM f) := by
  induction l with
  | nil => exact Raises.pure _
  | cons a rest ih => exact Raises.bind (each a) fun _ => ih

end

/-! ### Invariants -/

/-- Whatever its outcome, the computation preserves the predicate. -/
def Keeps (I : σ → Prop) (m : Eff ε σ α) : Prop := ∀ s, I s → I (exec m s).2

theorem Keeps.moves {I : σ → Prop} {m : Eff ε σ α} (keeps : Keeps I m) : Moves (fun s t => I s → I t) m := keeps
/-- A relation that carries the predicate along makes every computation that moves along it preserve it. -/
theorem Moves.keeps {R : σ → σ → Prop} {I : σ → Prop} {m : Eff ε σ α} (moves : Moves R m)
    (carries : ∀ s t, R s t → I s → I t) : Keeps I m := fun s holds => carries _ _ (moves s) holds

theorem Keeps.bind {I : σ → Prop} {m : Eff ε σ α} {f : α → Eff ε σ β} (first : Keeps I m) (next : ∀ a, Keeps I (f a)) :
    Keeps I (m >>= f) := fun s holds =>
  wp_seq (R := fun _ t => I t) (Q := fun _ t => I t) (first s holds) (fun a t kept => next a t kept) fun _ _ kept => kept
theorem Keeps.ofExcept {I : σ → Prop} {δ : Type} (into : δ → ε) (x : Except δ α) :
    Keeps I (ofExcept into x : Eff ε σ α) := by
  cases x <;> exact fun _ holds => holds
theorem Keeps.attempt {I : σ → Prop} {m : Eff ε σ α} (keeps : Keeps I m) : Keeps I (attempt m) := fun s holds => by
  rw [exec_attempt_state]
  exact keeps s holds
theorem Keeps.forM {I : σ → Prop} {f : α → Eff ε σ PUnit} (each : ∀ a, Keeps I (f a)) (l : List α) :
    Keeps I (l.forM f) := by
  induction l with
  | nil => exact fun _ holds => holds
  | cons a rest ih => exact Keeps.bind (each a) fun _ => ih

/-- The computation preserves the predicate, and from a state that satisfies it stops early only as allowed. -/
def Safe (I : σ → Prop) (A : Halt ε → Prop) (m : Eff ε σ α) : Prop :=
  ∀ s, I s → I (exec m s).2 ∧ ∀ h, (exec m s).1 = .error h → A h

section
variable {I : σ → Prop} {A : Halt ε → Prop}

theorem Safe.wp {m : Eff ε σ α} (safe : Safe I A m) {s : σ} (holds : I s) :
    wp m s fun r t => I t ∧ ∀ h, r = .error h → A h := safe s holds
theorem Safe.mono {B : Halt ε → Prop} {m : Eff ε σ α} (safe : Safe I A m) (weaker : ∀ h, A h → B h) : Safe I B m :=
  fun s holds => (safe s holds).imp_right fun stops h stopped => weaker h (stops h stopped)
theorem Safe.pure (a : α) : Safe I A (pure a : Eff ε σ α) := fun _ holds => ⟨holds, fun _ stopped => by cases stopped⟩
theorem Safe.get : Safe I A (get : Eff ε σ σ) := fun _ holds => ⟨holds, fun _ stopped => by cases stopped⟩
theorem Safe.fail {e : ε} (allowed : A (.err e)) : Safe I A (fail e : Eff ε σ α) := by
  intro s holds
  refine ⟨holds, fun h stopped => ?_⟩
  cases stopped
  exact allowed
theorem Safe.modify {f : σ → σ} (keeps : ∀ s, I s → I (f s)) : Safe I A (modify f : Eff ε σ PUnit) := fun s holds =>
  ⟨keeps s holds, fun _ stopped => by cases stopped⟩
theorem Safe.bind {m : Eff ε σ α} {f : α → Eff ε σ β} (first : Safe I A m) (next : ∀ a, Safe I A (f a)) :
    Safe I A (m >>= f) := fun s holds =>
  wp_seq (Q := fun r t => I t ∧ ∀ h, r = .error h → A h) (first.wp holds) (fun a t known => next a t known.1)
    fun h t known => ⟨known.1, fun h' stopped => known.2 h' (by cases stopped; rfl)⟩
theorem Safe.bind_ofExcept {δ : Type} {into : δ → ε} {x : Except δ α} {f : α → Eff ε σ β}
    (next : ∀ a, x = .ok a → Safe I A (f a)) (stop : ∀ e, x = .error e → A (.err (into e))) :
    Safe I A (ofExcept into x >>= f) := by
  cases x with
  | ok a => exact next a rfl
  | error e => exact Safe.fail (stop e rfl)
theorem Safe.ite {c : Prop} [Decidable c] {m n : Eff ε σ α} (yes : Safe I A m) (no : Safe I A n) :
    Safe I A (if c then m else n) := by
  split
  · exact yes
  · exact no
theorem Safe.zoom {J : τ → Prop} (l : Lens σ τ) {m : Eff ε τ α} (safe : Safe J A m) (part : ∀ s, I s → J (l.get s))
    (lifts : ∀ s t, I s → J t → I (l.set t s)) : Safe I A (zoom l m) := fun s holds =>
  (safe (l.get s) (part s holds)).imp_left (lifts s _ holds)
theorem Safe.forM {f : α → Eff ε σ PUnit} {l : List α} (each : ∀ a ∈ l, Safe I A (f a)) : Safe I A (l.forM f) := by
  induction l with
  | nil => exact Safe.pure _
  | cons a rest ih =>
    exact Safe.bind (each a List.mem_cons_self) fun _ => ih fun b member => each b (List.mem_cons_of_mem _ member)

end

/-! ### Computations that do the same -/

/-- From every state that satisfies the predicate the computations do the same. -/
def Agrees (I : σ → Prop) (m n : Eff ε σ α) : Prop := ∀ s, I s → exec m s = exec n s

section
variable {I : σ → Prop}

theorem Agrees.refl (m : Eff ε σ α) : Agrees I m m := fun _ _ => rfl
theorem Agrees.bind {m n : Eff ε σ α} {f g : α → Eff ε σ β} (first : Agrees I m n) (keeps : Keeps I n)
    (next : ∀ a, Agrees I (f a) (g a)) : Agrees I (m >>= f) (n >>= g) := by
  intro s holds
  have kept := keeps s holds
  rw [exec_bind, exec_bind, first s holds]
  rcases ran : exec n s with ⟨h | a, t⟩
  · rfl
  · rw [ran] at kept
    exact next a t kept
/-- What follows may depend on the state that is read. -/
theorem Agrees.get_bind {f g : σ → Eff ε σ β} (next : ∀ s, I s → Agrees I (f s) (g s)) :
    Agrees I (get >>= f) (get >>= g) := fun s holds => next s holds s holds
theorem Agrees.ite {c : Prop} [Decidable c] {m m' n n' : Eff ε σ α} (yes : Agrees I m m') (no : Agrees I n n') :
    Agrees I (if c then m else n) (if c then m' else n') := by
  split
  · exact yes
  · exact no
theorem Agrees.attempt {m n : Eff ε σ α} (same : Agrees I m n) : Agrees I (attempt m) (attempt n) := by
  intro s holds
  simp only [Effect.attempt, exec_ofExec, same s holds]
theorem Agrees.zoom {J : τ → Prop} (l : Lens σ τ) {m n : Eff ε τ α} (same : Agrees J m n) (part : ∀ s, I s → J (l.get s)) :
    Agrees I (zoom l m) (zoom l n) := by
  intro s holds
  simp only [Effect.zoom, exec_ofExec, same (l.get s) (part s holds)]
theorem Agrees.forM {f g : α → Eff ε σ PUnit} {l : List α} (same : ∀ a ∈ l, Agrees I (f a) (g a))
    (keeps : ∀ a ∈ l, Keeps I (g a)) : Agrees I (l.forM f) (l.forM g) := by
  induction l with
  | nil => exact Agrees.refl _
  | cons a rest ih =>
    refine Agrees.bind (same a List.mem_cons_self) (keeps a List.mem_cons_self) fun _ => ih ?_ ?_
    · exact fun b member => same b (List.mem_cons_of_mem _ member)
    · exact fun b member => keeps b (List.mem_cons_of_mem _ member)

end

/-! ### Symmetries -/

/-- The computation does the same from a state that is changed, up to the change. -/
def Commutes (g : σ → σ) (m : Eff ε σ α) : Prop := ∀ s, exec m (g s) = ((exec m s).1, g (exec m s).2)

section
variable {g : σ → σ}

theorem Commutes.pure (a : α) : Commutes g (pure a : Eff ε σ α) := fun _ => rfl
theorem Commutes.fail (e : ε) : Commutes g (fail e : Eff ε σ α) := fun _ => rfl
theorem Commutes.modify {f : σ → σ} (same : ∀ s, f (g s) = g (f s)) : Commutes g (modify f : Eff ε σ PUnit) := fun s => by
  rw [exec_modify, exec_modify, same]
theorem Commutes.ofExec {f : σ → Except (Halt ε) α × σ} (same : ∀ s, f (g s) = ((f s).1, g (f s).2)) :
    Commutes g (ofExec f) := same
theorem Commutes.bind {m : Eff ε σ α} {f : α → Eff ε σ β} (first : Commutes g m) (next : ∀ a, Commutes g (f a)) :
    Commutes g (m >>= f) := by
  intro s
  rw [exec_bind, exec_bind, first s]
  rcases exec m s with ⟨h | a, t⟩
  · rfl
  · exact next a t
/-- What is read of the state is read of the changed state as well. -/
theorem Commutes.get_bind {f : σ → Eff ε σ β} (same : ∀ s, f (g s) = f s) (next : ∀ s, Commutes g (f s)) :
    Commutes g (get >>= f) := by
  intro s
  rw [exec_bind, exec_bind, exec_get, exec_get]
  exact (congrArg (exec · (g s)) (same s)).trans (next s s)
theorem Commutes.ofExcept {δ : Type} (into : δ → ε) (x : Except δ α) : Commutes g (ofExcept into x : Eff ε σ α) := by
  cases x <;> exact fun _ => rfl
theorem Commutes.attempt {m : Eff ε σ α} (same : Commutes g m) : Commutes g (attempt m) := by
  intro s
  simp only [Effect.attempt, exec_ofExec, same s]
  rcases exec m s with ⟨(e | _) | a, t⟩ <;> rfl
theorem Commutes.zoom {g' : τ → τ} {l : Lens σ τ} {m : Eff ε τ α} (get : ∀ s, l.get (g s) = g' (l.get s))
    (set : ∀ t s, l.set (g' t) (g s) = g (l.set t s)) (same : Commutes g' m) : Commutes g (zoom l m) := by
  intro s
  simp only [Effect.zoom, exec_ofExec, get, same (l.get s), set]

end

/-! ### Properties of sequences -/

/-- A property of computations that their sequences have; what they read of the state
    may be restricted to what a change leaves. -/
structure Compositional (g : σ → σ) (F : (α : Type) → Eff ε σ α → Prop) : Prop where
  pure : ∀ {α : Type} (a : α), F α (pure a)
  fail : ∀ {α : Type} (e : ε), F α (fail e)
  bind : ∀ {α β : Type} {m : Eff ε σ α} {f : α → Eff ε σ β}, F α m → (∀ a, F β (f a)) → F β (m >>= f)
  get_bind : ∀ {β : Type} {f : σ → Eff ε σ β}, (∀ s, f (g s) = f s) → (∀ s, F β (f s)) → F β (get >>= f)
  attempt : ∀ {α : Type} {m : Eff ε σ α}, F α m → F (Except ε α) (attempt m)

theorem Moves.compositional (R : σ → σ → Prop) [Std.Refl R] [IsTrans σ R] (g : σ → σ) :
    Compositional (ε := ε) g fun _ m => Moves R m where
  pure := Moves.pure
  fail := Moves.fail
  bind := Moves.bind
  get_bind _ next := Moves.get.bind next
  attempt := Moves.attempt

theorem Commutes.compositional (g : σ → σ) : Compositional (ε := ε) g fun _ m => Commutes g m where
  pure := Commutes.pure
  fail := Commutes.fail
  bind := Commutes.bind
  get_bind := Commutes.get_bind
  attempt := Commutes.attempt

/-- What holds of both branches. -/
theorem either {F : Eff ε σ α → Prop} {p : Prop} [Decidable p] {m n : Eff ε σ α} (yes : F m) (no : F n) :
    F (if p then m else n) := by
  split
  · exact yes
  · exact no

namespace Compositional
variable {g : σ → σ} {F : (α : Type) → Eff ε σ α → Prop} (c : Compositional g F)
include c

theorem ofExcept {δ : Type} (into : δ → ε) (x : Except δ α) : F α (Effect.ofExcept into x) := by
  cases x with
  | ok a => exact c.pure a
  | error e => exact c.fail (into e)
theorem bind_ofExcept {δ : Type} {into : δ → ε} {x : Except δ α} {f : α → Eff ε σ β} (next : ∀ a, F β (f a)) :
    F β (Effect.ofExcept into x >>= f) := c.bind (c.ofExcept into x) next
theorem onlyIf {p : Prop} [Decidable p] {m : Eff ε σ PUnit} (yes : F PUnit m) : F PUnit (onlyIf p m) :=
  either yes (c.pure _)
theorem forM {f : α → Eff ε σ PUnit} (each : ∀ a, F PUnit (f a)) (l : List α) : F PUnit (l.forM f) := by
  induction l with
  | nil => exact c.pure _
  | cons a rest ih => exact c.bind (each a) fun _ => ih

end Compositional

end Effect
