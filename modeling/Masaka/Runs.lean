import Mathlib

/-!
Runs of a deterministic system: the states after a list of calls.
-/
namespace Runs

variable {κ σ γ : Type}

/-- The state after the calls. -/
def run (step : σ → κ → σ) (s : σ) (calls : List κ) : σ := calls.foldl step s

@[simp] theorem run_nil (step : σ → κ → σ) (s : σ) : run step s [] = s := rfl
@[simp] theorem run_cons (step : σ → κ → σ) (s : σ) (call : κ) (calls : List κ) :
    run step s (call :: calls) = run step (step s call) calls := rfl
@[simp] theorem run_append (step : σ → κ → σ) (s : σ) (calls more : List κ) :
    run step s (calls ++ more) = run step (run step s calls) more := List.foldl_append

/-- What the calls of a run give, one after another. -/
def gather (step : σ → κ → σ) (give : σ → κ → List γ) : σ → List κ → List γ
  | _, [] => []
  | s, call :: calls => give s call ++ gather step give (step s call) calls

@[simp] theorem gather_nil (step : σ → κ → σ) (give : σ → κ → List γ) (s : σ) : gather step give s [] = [] := rfl
@[simp] theorem gather_cons (step : σ → κ → σ) (give : σ → κ → List γ) (s : σ) (call : κ) (calls : List κ) :
    gather step give s (call :: calls) = give s call ++ gather step give (step s call) calls := rfl

/-- A change of the states and the calls that the steps do not notice is not noticed by a run. -/
theorem run_map {step : σ → κ → σ} {g : σ → σ} {k : κ → κ} (same : ∀ s call, step (g s) (k call) = g (step s call))
    (s : σ) (calls : List κ) : run step (g s) (calls.map k) = g (run step s calls) := by
  induction calls generalizing s with
  | nil => rfl
  | cons call calls ih => rw [List.map_cons, run_cons, run_cons, same, ih]
theorem gather_map {step : σ → κ → σ} {give : σ → κ → List γ} {g : σ → σ} {k : κ → κ}
    (same : ∀ s call, step (g s) (k call) = g (step s call)) (gives : ∀ s call, give (g s) (k call) = give s call) (s : σ)
    (calls : List κ) : gather step give (g s) (calls.map k) = gather step give s calls := by
  induction calls generalizing s with
  | nil => rfl
  | cons call calls ih => rw [List.map_cons, gather_cons, gather_cons, gives, same, ih]

/-- Every call of the run satisfies the condition in the state in which it is made. -/
def Along (step : σ → κ → σ) (condition : σ → κ → Prop) : σ → List κ → Prop
  | _, [] => True
  | s, call :: calls => condition s call ∧ Along step condition (step s call) calls

instance along_decidable (step : σ → κ → σ) (condition : σ → κ → Prop) [∀ s call, Decidable (condition s call)] :
    (s : σ) → (calls : List κ) → Decidable (Along step condition s calls)
  | _, [] => isTrue trivial
  | s, call :: calls =>
    let _ := along_decidable step condition (step s call) calls
    inferInstanceAs (Decidable (condition s call ∧ Along step condition (step s call) calls))

theorem along_forall {step : σ → κ → σ} {condition : κ → Prop} {calls : List κ}
    (all : ∀ call ∈ calls, condition call) (s : σ) : Along step (fun _ call => condition call) s calls := by
  induction calls generalizing s with
  | nil => trivial
  | cons call calls ih =>
    exact ⟨all call List.mem_cons_self, ih (fun later member => all later (List.mem_cons_of_mem _ member)) _⟩
theorem along_true (step : σ → κ → σ) (s : σ) (calls : List κ) : Along step (fun _ _ => True) s calls :=
  along_forall (fun _ _ => trivial) s
theorem along_append {step : σ → κ → σ} {condition : σ → κ → Prop} {s : σ} {calls more : List κ} :
    Along step condition s (calls ++ more) ↔
      Along step condition s calls ∧ Along step condition (run step s calls) more := by
  induction calls generalizing s with
  | nil => simp [Along]
  | cons call calls ih => simp [Along, ih, and_assoc]

theorem along_and {step : σ → κ → σ} {condition property : σ → κ → Prop} {s : σ} {calls : List κ} :
    Along step (fun s call => condition s call ∧ property s call) s calls ↔
      Along step condition s calls ∧ Along step property s calls := by
  induction calls generalizing s with
  | nil => simp [Along]
  | cons call calls ih => simp only [Along, ih, and_and_and_comm]

theorem along_mem {step : σ → κ → σ} {condition : σ → κ → Prop} {s : σ} {calls : List κ}
    (along : Along step condition s calls) {call : κ} (member : call ∈ calls) : ∃ s', condition s' call := by
  induction calls generalizing s with
  | nil => simp at member
  | cons first calls ih =>
    rcases List.mem_cons.mp member with same | later
    · exact ⟨s, same ▸ along.1⟩
    · exact ih along.2 later

/-- A condition that implies a property in every state with the invariant, which it preserves,
    implies it along every run. -/
theorem along_imp {step : σ → κ → σ} {condition property : σ → κ → Prop} {I : σ → Prop}
    (keeps : ∀ s call, I s → condition s call → I (step s call))
    (implies : ∀ s call, I s → condition s call → property s call) {s : σ}
    {calls : List κ} (start : I s) (along : Along step condition s calls) : Along step property s calls := by
  induction calls generalizing s with
  | nil => trivial
  | cons call calls ih => exact ⟨implies s call start along.1, ih (keeps s call start along.1) along.2⟩

theorem along_mono {step : σ → κ → σ} {condition property : σ → κ → Prop}
    (implies : ∀ s call, condition s call → property s call) {s : σ} {calls : List κ}
    (along : Along step condition s calls) : Along step property s calls :=
  along_imp (I := fun _ => True) (fun _ _ _ _ => trivial) (fun s call _ => implies s call) trivial along

/-- If a call preserves the invariant exactly under a condition, then the invariant holds in
    every state of a run exactly if every call of it meets the condition. -/
theorem along_iff {step : σ → κ → σ} {condition : σ → κ → Prop} {I : σ → Prop} {s : σ} (start : I s)
    (each : ∀ s call, I s → (I (step s call) ↔ condition s call)) (calls : List κ) :
    Along step (fun s call => I (step s call)) s calls ↔ Along step condition s calls := by
  induction calls generalizing s with
  | nil => exact Iff.rfl
  | cons call calls ih =>
    constructor
    · rintro ⟨first, later⟩
      exact ⟨(each s call start).mp first, (ih first).mp later⟩
    · rintro ⟨first, later⟩
      have next : I (step s call) := (each s call start).mpr first
      exact ⟨next, (ih next).mpr later⟩

/-- What every call that satisfies the condition preserves holds after every run of such calls. -/
theorem invariant {step : σ → κ → σ} {condition : σ → κ → Prop} {I : σ → Prop}
    (keeps : ∀ s call, I s → condition s call → I (step s call)) {s : σ} {calls : List κ} (start : I s)
    (along : Along step condition s calls) : I (run step s calls) := by
  induction calls generalizing s with
  | nil => exact start
  | cons call calls ih => exact ih (keeps s call start along.1) along.2

/-- If every call is paid for, by what the state holds or by what it gains, then every run is. -/
theorem gather_paid [DecidableEq γ] {step : σ → κ → σ} {condition : σ → κ → Prop} {I : σ → Prop} {g : γ}
    (give : σ → κ → List γ) (held gained : σ → Nat) (keeps : ∀ s call, I s → condition s call → I (step s call))
    (paid : ∀ s call, I s → condition s call →
      (give s call).count g + held (step s call) + gained s ≤ held s + gained (step s call)) {s : σ} {calls : List κ}
    (start : I s) (along : Along step condition s calls) :
    (gather step give s calls).count g + held (run step s calls) + gained s ≤ held s + gained (run step s calls) := by
  induction calls generalizing s with
  | nil => simp
  | cons call calls ih =>
    have first := paid s call start along.1
    have later := ih (keeps s call start along.1) along.2
    rw [gather_cons, List.count_append, run_cons]
    omega

/-- A run that starts with nothing gives no more than it gains. -/
theorem gather_earned [DecidableEq γ] {step : σ → κ → σ} {condition : σ → κ → Prop} {I : σ → Prop} {g : γ}
    (give : σ → κ → List γ) (held gained : σ → Nat) (keeps : ∀ s call, I s → condition s call → I (step s call))
    (paid : ∀ s call, I s → condition s call →
      (give s call).count g + held (step s call) + gained s ≤ held s + gained (step s call)) {s : σ} {calls : List κ}
    (nothing : held s = 0) (start : I s) (along : Along step condition s calls) :
    (gather step give s calls).count g ≤ gained (run step s calls) := by
  have total := gather_paid give held gained keeps paid start along
  omega

theorem map_gather {δ : Type} (f : γ → δ) (step : σ → κ → σ) (give : σ → κ → List γ) (s : σ) (calls : List κ) :
    (gather step give s calls).map f = gather step (fun s call => (give s call).map f) s calls := by
  induction calls generalizing s with
  | nil => rfl
  | cons call calls ih => rw [gather_cons, gather_cons, List.map_append, ih]

/-- If every call takes only from what is stored and given, in that order, then every run does. -/
theorem gather_flow {step : σ → κ → σ} {I : σ → Prop} {give take : σ → κ → List γ} {f : σ → List γ}
    (keeps : ∀ s call, I s → I (step s call))
    (flows : ∀ s call, I s → (take s call ++ f (step s call)).Sublist (f s ++ give s call)) {s : σ} (start : I s)
    (calls : List κ) : (gather step take s calls ++ f (run step s calls)).Sublist (f s ++ gather step give s calls) := by
  induction calls generalizing s with
  | nil => simp
  | cons call calls ih =>
    have first := flows s call start
    have later := ih (keeps s call start)
    rw [gather_cons, gather_cons, run_cons, List.append_assoc, ← List.append_assoc (f s)]
    refine (later.append_left _).trans ?_
    rw [← List.append_assoc]
    exact first.append_right _

/-- If what every call gives is stored after what was stored before, then so is what a run gives. -/
theorem gather_stored {step : σ → κ → σ} {I : σ → Prop} {give : σ → κ → List γ} {f : σ → List γ}
    (keeps : ∀ s call, I s → I (step s call))
    (stored : ∀ s call, I s → (f s ++ give s call).Sublist (f (step s call))) {s : σ} (start : I s)
    (calls : List κ) : (f s ++ gather step give s calls).Sublist (f (run step s calls)) := by
  induction calls generalizing s with
  | nil => simp
  | cons call calls ih =>
    rw [gather_cons, run_cons, ← List.append_assoc]
    exact ((stored s call start).append_right _).trans (ih (keeps s call start))

/-- What every call preserves holds after every run. -/
theorem invariant_all {step : σ → κ → σ} {I : σ → Prop} (keeps : ∀ s call, I s → I (step s call)) {s : σ}
    (start : I s) (calls : List κ) : I (run step s calls) :=
  invariant (fun s call holds _ => keeps s call holds) start (along_true step s calls)

end Runs
