import Masaka.Effect

/-!
Two computations over two kinds of states that run in lockstep, as far as what can be
observed of them agrees. Each state shows what has been observed so far, which only
grows. If the whole observations of two runs are the same then every step has added the
same to them, and related states stay related: a step is told to agree by what is
observed of it and after it (`Lock`). A computation that stops early adds nothing later,
so that one that stops and one that goes on to be observed cannot be confused.
-/
namespace Lockstep
open Effect

variable {ε ε' σ σ' τ τ' α α' β β' ω : Type}

/-- The states that are related, the errors that count as equal, and what has been observed. -/
structure Coupling (ε ε' σ σ' ω : Type) where
  related : σ → σ' → Prop
  alike : ε → ε' → Prop
  left : σ → List ω
  right : σ' → List ω

/-- The same with the sides exchanged. -/
def Coupling.swap (K : Coupling ε ε' σ σ' ω) : Coupling ε' ε σ' σ ω where
  related s' s := K.related s s'
  alike e' e := K.alike e e'
  left := K.right
  right := K.left

/-- The computations ended alike, in related states. -/
inductive Matched (K : Coupling ε ε' σ σ' ω) (V : α → α' → Prop) :
    Except (Halt ε) α × σ → Except (Halt ε') α' × σ' → Prop where
  | ok {a : α} {a' : α'} {t : σ} {t' : σ'} : V a a' → K.related t t' → Matched K V (.ok a, t) (.ok a', t')
  | err {e : ε} {e' : ε'} {t : σ} {t' : σ'} : K.alike e e' → K.related t t' →
      Matched K V (.error (.err e), t) (.error (.err e'), t')
  | cut {t : σ} {t' : σ'} : K.related t t' → Matched K V (.error .cut, t) (.error .cut, t')

theorem Matched.swap {K : Coupling ε ε' σ σ' ω} {V : α → α' → Prop} {x : Except (Halt ε) α × σ}
    {y : Except (Halt ε') α' × σ'} (matched : Matched K V x y) : Matched K.swap (fun a' a => V a a') y x := by
  cases matched with
  | ok same related => exact .ok same related
  | err alike related => exact .err alike related
  | cut related => exact .cut related

/-- The same outcome. -/
theorem Matched.same {K : Coupling ε ε σ σ' ω} (alike : ∀ e, K.alike e e) (r : Except (Halt ε) α) {t : σ} {t' : σ'}
    (related : K.related t t') : Matched K Eq (r, t) (r, t') := by
  rcases r with (e | _) | a
  · exact .err (alike e) related
  · exact .cut related
  · exact .ok rfl related

/-- The computation returned no value. -/
def Stopped (r : Except (Halt ε) α) : Prop := ∃ h, r = .error h

/-- What is observed between two states. -/
def seen (o : σ → List ω) (s t : σ) : List ω := (o t).drop (o s).length

theorem seen_self (o : σ → List ω) (s : σ) : seen o s s = [] := List.drop_length
theorem seen_same {o : σ → List ω} {s t : σ} (same : o t = o s) : seen o s t = [] := by
  rw [seen, same, List.drop_length]
theorem seen_trans {o : σ → List ω} {s t u : σ} (first : o s <+: o t) (second : o t <+: o u) :
    seen o s u = seen o s t ++ seen o t u := by
  obtain ⟨added, first⟩ := first
  obtain ⟨more, second⟩ := second
  rw [seen, seen, seen, ← second, ← first, List.drop_left, List.append_assoc, List.drop_left, ← List.append_assoc,
    List.drop_left]

/-- What one of two computations does: it only adds to what is observed, and it ends as the other might have. -/
def Goes (K : Coupling ε ε' σ σ' ω) (V : α → α' → Prop) (s : σ) (x : Except (Halt ε) α × σ) : Prop :=
  K.left s <+: K.left x.2 ∧ ∃ y, Matched K V x y

/-- From related states, the computations end alike if the same is observed of them and of what comes after
    them. What stops early, or is the last thing to be done, has nothing after it. -/
def Lock (K : Coupling ε ε' σ σ' ω) (last : Prop) (V : α → α' → Prop) (m : Eff ε σ α) (n : Eff ε' σ' α') : Prop :=
  ∀ s s', K.related s s' → Goes K V s (exec m s) ∧ Goes K.swap (fun a' a => V a a') s' (exec n s') ∧
    ∀ after after', (last ∨ Stopped (exec m s).1 → after = []) → (last ∨ Stopped (exec n s').1 → after' = []) →
      seen K.left s (exec m s).2 ++ after = seen K.right s' (exec n s').2 ++ after' →
        seen K.left s (exec m s).2 = seen K.right s' (exec n s').2 ∧ Matched K V (exec m s) (exec n s')

section
variable {K : Coupling ε ε' σ σ' ω} {last : Prop} {V : α → α' → Prop} {U : β → β' → Prop}

/-- Nothing comes after what is last. -/
theorem Lock.final {m : Eff ε σ α} {n : Eff ε' σ' α'} (lock : Lock K False V m n) : Lock K last V m n := by
  intro s s' related
  obtain ⟨left, right, agree⟩ := lock s s' related
  refine ⟨left, right, fun after after' finished finished' => agree after after' ?_ ?_⟩
  · exact fun stopped => finished (.inr (stopped.resolve_left id))
  · exact fun stopped => finished' (.inr (stopped.resolve_left id))

/-- Computations that are not observed agree if they always end alike. -/
theorem Lock.still {m : Eff ε σ α} {n : Eff ε' σ' α'} (same : ∀ s s', K.related s s' →
    K.left (exec m s).2 = K.left s ∧ K.right (exec n s').2 = K.right s' ∧ Matched K V (exec m s) (exec n s')) :
    Lock K last V m n := by
  intro s s' related
  obtain ⟨left, right, matched⟩ := same s s' related
  refine ⟨⟨left ▸ List.prefix_refl _, _, matched⟩, ⟨?_, _, matched.swap⟩, fun _ _ _ _ _ => ⟨?_, matched⟩⟩
  · change K.right s' <+: K.right _
    rw [right]
  · rw [seen_same left, seen_same right]

theorem Lock.pure {a : α} {a' : α'} (same : V a a') : Lock K last V (pure a) (pure a') :=
  .still fun _ _ related => ⟨rfl, rfl, .ok same related⟩
theorem Lock.fail {e : ε} {e' : ε'} (alike : K.alike e e') : Lock K last V (fail e) (fail e') :=
  .still fun _ _ related => ⟨rfl, rfl, .err alike related⟩
/-- What is read are related states. -/
theorem Lock.get : Lock K last K.related (get : Eff ε σ σ) (get : Eff ε' σ' σ') :=
  .still fun _ _ related => ⟨rfl, rfl, .ok related related⟩
theorem Lock.modify {f : σ → σ} {f' : σ' → σ'} (left : ∀ s, K.left (f s) = K.left s)
    (right : ∀ s', K.right (f' s') = K.right s') (keeps : ∀ s s', K.related s s' → K.related (f s) (f' s')) :
    Lock K last Eq (modify f : Eff ε σ PUnit) (modify f' : Eff ε' σ' PUnit) :=
  .still fun s s' related => ⟨left s, right s', .ok rfl (keeps s s' related)⟩
theorem Lock.ofExcept {δ δ' : Type} {into : δ → ε} {into' : δ' → ε'} {x : Except δ α} {x' : Except δ' α'}
    (agree : (∃ a a', x = .ok a ∧ x' = .ok a' ∧ V a a') ∨
      ∃ e e', x = .error e ∧ x' = .error e' ∧ K.alike (into e) (into' e')) :
    Lock K last V (ofExcept into x) (ofExcept into' x') := by
  rcases agree with ⟨a, a', rfl, rfl, same⟩ | ⟨e, e', rfl, rfl, alike⟩
  · exact .pure same
  · exact .fail alike
theorem Lock.ite {c c' : Prop} [Decidable c] [Decidable c'] {m o : Eff ε σ α} {n p : Eff ε' σ' α'} (same : c ↔ c')
    (yes : c → Lock K last V m n) (no : ¬ c → Lock K last V o p) :
    Lock K last V (if c then m else o) (if c' then n else p) := by
  by_cases holds : c
  · rw [if_pos holds, if_pos (same.mp holds)]
    exact yes holds
  · rw [if_neg holds, if_neg fun holds' => holds (same.mpr holds')]
    exact no holds

/-! ### Sequencing -/

theorem exec_attempt_bind (m : Eff ε σ α) (f : Except ε α → Eff ε σ β) (s : σ) :
    exec (attempt m >>= f) s = match exec m s with
      | (.ok a, t) => exec (f (.ok a)) t
      | (.error (.err e), t) => exec (f (.error e)) t
      | (.error .cut, t) => (.error .cut, t) := by
  rw [exec_bind, attempt, exec_ofExec]
  rcases exec m s with ⟨(e | _) | a, t⟩ <;> rfl

/-- The computation adds nothing to what is observed, and is the last thing to be done or stops. -/
def Ends (K : Coupling ε ε' σ σ' ω) (last : Prop) (g : Eff ε σ β) : Prop :=
  ∀ t, K.left (exec g t).2 = K.left t ∧ (last ∨ Stopped (exec g t).1)

theorem Ends.fail (e : ε) : Ends K last (Effect.fail e : Eff ε σ β) := fun _ => ⟨rfl, .inr ⟨_, rfl⟩⟩

/-- One side of a sequence: if its first part stops then nothing more is observed. -/
theorem resumed {m : Eff ε σ α} {f : Except ε α → Eff ε σ β} {s : σ} (goes : Goes K V s (exec m s))
    (ok : ∀ a a' t t', V a a' → K.related t t' → Goes K U t (exec (f (.ok a)) t))
    (err : ∀ e e' t t', K.alike e e' → K.related t t' → Goes K U t (exec (f (.error e)) t))
    (ends : ∀ e, Ends K last (f (.error e))) :
    Goes K U s (exec (attempt m >>= f) s) ∧
      seen K.left s (exec (attempt m >>= f) s).2 =
        seen K.left s (exec m s).2 ++ seen K.left (exec m s).2 (exec (attempt m >>= f) s).2 ∧
      (Stopped (exec m s).1 → seen K.left (exec m s).2 (exec (attempt m >>= f) s).2 = [] ∧
        (last ∨ Stopped (exec (attempt m >>= f) s).1)) := by
  rw [exec_attempt_bind]
  obtain ⟨grows, y, matched⟩ := goes
  rcases ran : exec m s with ⟨(e | _) | a, t⟩ <;> rw [ran] at matched grows
  · cases matched with
    | err alike related =>
      obtain ⟨grows₂, z, matched₂⟩ := err _ _ _ _ alike related
      refine ⟨⟨grows.trans grows₂, z, matched₂⟩, seen_trans grows grows₂, fun _ => ?_⟩
      exact (ends e t).imp_left seen_same
  · cases matched with
    | cut related =>
      refine ⟨⟨grows, _, .cut related⟩, ?_, fun _ => ⟨seen_self _ _, .inr ⟨_, rfl⟩⟩⟩
      rw [seen_self, List.append_nil]
  · cases matched with
    | ok same related =>
      obtain ⟨grows₂, z, matched₂⟩ := ok _ _ _ _ same related
      refine ⟨⟨grows.trans grows₂, z, matched₂⟩, seen_trans grows grows₂, fun stopped => ?_⟩
      obtain ⟨h, same⟩ := stopped
      cases same

/-- Going on with the value, or with the error if that is the end. -/
theorem Lock.attempt_bind {m : Eff ε σ α} {n : Eff ε' σ' α'} {f : Except ε α → Eff ε σ β}
    {f' : Except ε' α' → Eff ε' σ' β'} (first : Lock K False V m n)
    (ok : ∀ a a', V a a' → Lock K last U (f (.ok a)) (f' (.ok a')))
    (err : ∀ e e', K.alike e e' → Lock K last U (f (.error e)) (f' (.error e')))
    (ends : ∀ e, Ends K last (f (.error e))) (ends' : ∀ e', Ends K.swap last (f' (.error e'))) :
    Lock K last U (attempt m >>= f) (attempt n >>= f') := by
  intro s s' related
  obtain ⟨goes, goes', agree⟩ := first s s' related
  obtain ⟨left, split, stops⟩ := resumed goes (fun a a' t t' same related => (ok a a' same t t' related).1)
    (fun e e' t t' alike related => (err e e' alike t t' related).1) ends
  obtain ⟨right, split', stops'⟩ := resumed (K := K.swap) goes'
    (fun a' a t' t same related => (ok a a' same t t' related).2.1)
    (fun e' e t' t alike related => (err e e' alike t t' related).2.1) ends'
  have split' : seen K.right s' (exec (attempt n >>= f') s').2 =
      seen K.right s' (exec n s').2 ++ seen K.right (exec n s').2 (exec (attempt n >>= f') s').2 := split'
  refine ⟨left, right, fun after after' finished finished' same => ?_⟩
  rw [split, split', List.append_assoc, List.append_assoc] at same
  have finishes : False ∨ Stopped (exec m s).1 → seen K.left (exec m s).2 (exec (attempt m >>= f) s).2 ++ after = [] := by
    intro stop
    obtain ⟨none, stopped⟩ := stops (stop.resolve_left id)
    rw [none, finished stopped, List.append_nil]
  have finishes' : False ∨ Stopped (exec n s').1 →
      seen K.right (exec n s').2 (exec (attempt n >>= f') s').2 ++ after' = [] := by
    intro stop
    obtain ⟨none, stopped⟩ := stops' (stop.resolve_left id)
    exact (congrArg₂ (· ++ ·) none (finished' stopped)).trans (List.append_nil _)
  obtain ⟨same₁, matched⟩ := agree _ _ finishes finishes' same
  rw [split, split', same₁]
  rw [same₁] at same
  have rest := List.append_cancel_left same
  refine And.imp_left (congrArg _) ?_
  simp only [exec_attempt_bind] at rest finished finished' ⊢
  generalize exec m s = x at matched rest finished ⊢
  generalize exec n s' = y at matched rest finished' ⊢
  cases matched with
  | ok same related => exact (ok _ _ same _ _ related).2.2 after after' finished finished' rest
  | err alike related => exact (err _ _ alike _ _ related).2.2 after after' finished finished' rest
  | cut related => exact ⟨by rw [seen_self, seen_self], .cut related⟩

/-- Goes on with the value, or with the error. -/
def resume (f : α → Eff ε σ β) (g : ε → Eff ε σ β) : Except ε α → Eff ε σ β
  | .ok a => f a
  | .error e => g e

theorem bind_eq_attempt (m : Eff ε σ α) (f : α → Eff ε σ β) : m >>= f = attempt m >>= resume f fail := by
  refine exec_ext fun s => ?_
  rw [exec_attempt_bind, exec_bind]
  rcases exec m s with ⟨(e | _) | a, t⟩ <;> rfl

theorem Lock.bind {m : Eff ε σ α} {n : Eff ε' σ' α'} {f : α → Eff ε σ β} {f' : α' → Eff ε' σ' β'}
    (first : Lock K False V m n) (next : ∀ a a', V a a' → Lock K last U (f a) (f' a')) :
    Lock K last U (m >>= f) (n >>= f') := by
  rw [bind_eq_attempt m f, bind_eq_attempt n f']
  exact Lock.attempt_bind first next (fun _ _ alike => Lock.fail alike) Ends.fail (Ends.fail (K := K.swap))
/-- Sequencing where the value of the first part is the same, or is not used. -/
theorem Lock.seq {m : Eff ε σ α} {n : Eff ε' σ' α} {f : α → Eff ε σ β} {f' : α → Eff ε' σ' β'}
    (first : Lock K False Eq m n) (next : ∀ a, Lock K last U (f a) (f' a)) : Lock K last U (m >>= f) (n >>= f') :=
  first.bind fun a _ same => same ▸ next a
theorem Lock.onlyIf {c c' : Prop} [Decidable c] [Decidable c'] {m : Eff ε σ PUnit} {n : Eff ε' σ' PUnit}
    (same : c ↔ c') (yes : c → Lock K last Eq m n) : Lock K last Eq (onlyIf c m) (onlyIf c' n) :=
  .ite same yes fun _ => .pure rfl
theorem Lock.forM {f : α → Eff ε σ PUnit} {f' : α → Eff ε' σ' PUnit} {l : List α}
    (each : ∀ a ∈ l, Lock K False Eq (f a) (f' a)) : Lock K False Eq (l.forM f) (l.forM f') := by
  induction l with
  | nil => exact .pure rfl
  | cons a rest ih =>
    exact (each a List.mem_cons_self).seq fun _ => ih fun b member => each b (List.mem_cons_of_mem _ member)

theorem Matched.map {f : α → β} {g : α' → β'} {x : Except (Halt ε) α × σ} {y : Except (Halt ε') α' × σ'}
    (matched : Matched K V x y) (same : ∀ a a', V a a' → U (f a) (g a')) :
    Matched K U (x.1.map f, x.2) (y.1.map g, y.2) := by
  cases matched with
  | ok value related => exact .ok (same _ _ value) related
  | err alike related => exact .err alike related
  | cut related => exact .cut related

theorem stopped_map {f : α → β} {r : Except (Halt ε) α} (stopped : Stopped r) : Stopped (r.map f) := by
  obtain ⟨h, rfl⟩ := stopped
  exact ⟨h, rfl⟩

/-- What is only done with the result. -/
theorem Lock.result {m : Eff ε σ α} {n : Eff ε' σ' α'} {f : α → β} {g : α' → β'} (lock : Lock K last V m n)
    (same : ∀ a a', V a a' → U (f a) (g a')) :
    Lock K last U (m >>= fun a => Pure.pure (f a)) (n >>= fun a' => Pure.pure (g a')) := by
  intro s s' related
  obtain ⟨⟨grows, y, left⟩, ⟨grows', x, right⟩, agree⟩ := lock s s' related
  have ran : exec (m >>= fun a => Pure.pure (f a)) s = ((exec m s).1.map f, (exec m s).2) :=
    Prod.ext (exec_result_value m f s) (exec_result_state m f s)
  have ran' : exec (n >>= fun a' => Pure.pure (g a')) s' = ((exec n s').1.map g, (exec n s').2) :=
    Prod.ext (exec_result_value n g s') (exec_result_state n g s')
  rw [ran, ran']
  refine ⟨⟨grows, _, left.map same⟩, ⟨grows', _, right.map fun a' a => same a a'⟩,
    fun after after' finished finished' total => ?_⟩
  have agreed := agree after after' (fun ended => finished ?_) (fun ended => finished' ?_) total
  · exact agreed.imp_right fun matched => matched.map same
  · exact ended.imp_right stopped_map
  · exact ended.imp_right stopped_map

/-- Computations on a part of the states. -/
theorem Lock.zoom {J : Coupling ε ε' τ τ' ω} {l : Lens σ τ} {l' : Lens σ' τ'} {m : Eff ε τ α} {n : Eff ε' τ' α'}
    (alike : J.alike = K.alike) (part : ∀ s s', K.related s s' → J.related (l.get s) (l'.get s'))
    (lifts : ∀ s s' t t', K.related s s' → J.related t t' → K.related (l.set t s) (l'.set t' s'))
    (left : ∀ s, K.left s = J.left (l.get s)) (right : ∀ s', K.right s' = J.right (l'.get s'))
    (lock : Lock J last V m n) : Lock K last V (zoom l m) (zoom l' n) := by
  intro s s' related
  obtain ⟨⟨grows, y, goes⟩, ⟨grows', x, goes'⟩, agree⟩ := lock _ _ (part s s' related)
  have matched : ∀ {x : Except (Halt ε) α × τ} {y : Except (Halt ε') α' × τ'}, Matched J V x y →
      Matched K V (x.1, l.set x.2 s) (y.1, l'.set y.2 s') := by
    intro x y matched
    cases matched with
    | ok same related' => exact .ok same (lifts _ _ _ _ related related')
    | err alike' related' => exact .err (alike ▸ alike') (lifts _ _ _ _ related related')
    | cut related' => exact .cut (lifts _ _ _ _ related related')
  have observed : ∀ t, K.left (l.set t s) = J.left t := fun t => by rw [left, Lens.get_set]
  have observed' : ∀ t', K.right (l'.set t' s') = J.right t' := fun t' => by rw [right, Lens.get_set]
  have same : seen K.left s (exec (Effect.zoom l m) s).2 = seen J.left (l.get s) (exec m (l.get s)).2 :=
    congrArg₂ (fun now before => now.drop before.length) (observed _) (left s)
  have same' : seen K.right s' (exec (Effect.zoom l' n) s').2 = seen J.right (l'.get s') (exec n (l'.get s')).2 :=
    congrArg₂ (fun now before => now.drop before.length) (observed' _) (right s')
  refine ⟨⟨?_, _, matched goes⟩, ⟨?_, _, (matched goes'.swap).swap⟩, fun after after' finished finished' total => ?_⟩
  · exact (left s) ▸ (observed (exec m (l.get s)).2) ▸ grows
  · change K.right s' <+: K.right _
    exact (right s') ▸ (observed' (exec n (l'.get s')).2) ▸ grows'
  · rw [same, same'] at total ⊢
    exact (agree after after' finished finished' total).imp_right matched

end

end Lockstep
