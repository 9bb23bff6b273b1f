import Mathlib

/-!
A watchdog that is fed by what arrives. Somebody looks at it at most an eighth of a
period apart, and it goes off when he looks one and a half periods after the last
arrival. It does not as long as, once a period has passed since the last arrival, an
answer has been asked for, and answers take at most an eighth of a period.
-/
namespace Watchdog

/-- What the one who looks knows. -/
structure Watch where
  /-- When something last arrived. -/
  arrival : Nat
  /-- When answers were asked for since. -/
  asked : List Nat

/-- The watchdog goes off. -/
def Late (period now : Nat) (w : Watch) : Prop := now - w.arrival ≥ period + period / 2

/-- What holds after a look at the given time: it was less than a period after the last
    arrival, or an answer is due that was asked for soon enough. -/
def Fed (period look : Nat) (w : Watch) : Prop :=
  look < w.arrival + period ∨ ∃ asked ∈ w.asked, 8 * look < 8 * asked + period ∧
    (8 * asked < 8 * w.arrival + 10 * period ∨ 8 * look < 8 * w.arrival + 9 * period)

variable {period look now : Nat} {w w' : Watch}

/-- More requests do no harm. -/
theorem Fed.mono (fed : Fed period look w) (same : w'.arrival = w.arrival) (more : w.asked ⊆ w'.asked) :
    Fed period look w' := by
  rw [Fed, same]
  refine fed.imp_right fun due => ?_
  obtain ⟨asked, member, bounds⟩ := due
  exact ⟨asked, more member, bounds⟩

/-- The watchdog has not gone off at the next look. -/
theorem Fed.in_time (fed : Fed period look w) (positive : 0 < period) (even : 2 ∣ period)
    (soon : 8 * now ≤ 8 * look + period) (past : ∀ asked ∈ w.asked, asked ≤ now) : ¬ Late period now w := by
  intro late
  unfold Late at late
  rcases fed with early | ⟨asked, member, due, bound⟩
  · omega
  · have := past asked member
    omega

/-- Something arrives at or after the look. -/
theorem fed_arrival (positive : 0 < period) (after : now ≤ w.arrival) : Fed period now w := by
  left
  omega

/-- Nothing arrives at the next look, and no answer is overdue. If none has been asked
    for one is when a period has passed. -/
theorem Fed.next (fed : Fed period look w) (positive : 0 < period) (soon : 8 * now ≤ 8 * look + period)
    (past : ∀ asked ∈ w.asked, asked ≤ now) (same : w'.arrival = w.arrival) (more : w.asked ⊆ w'.asked)
    (due : ∀ asked ∈ w.asked, 8 * now < 8 * asked + period)
    (asks : w.asked = [] → w.arrival + period ≤ now → ∃ asked ∈ w'.asked, now ≤ asked) : Fed period now w' := by
  by_cases early : now < w.arrival + period
  · left
    rw [same]
    exact early
  rcases asked : w.asked with _ | ⟨first, rest⟩
  · -- The answer is asked for at this look, which is less than nine eighths of a period after the arrival.
    obtain ⟨request, member, later⟩ := asks asked (by omega)
    refine .inr ⟨request, member, by omega, .inr ?_⟩
    rw [same]
    rcases fed with before | ⟨_, known, -⟩
    · omega
    · rw [asked] at known
      cases known
  · -- An answer is due already.
    have some_request : ∃ request ∈ w.asked, 8 * request < 8 * w.arrival + 10 * period := by
      rcases fed with before | ⟨request, member, -, bound⟩
      · have member : first ∈ w.asked := by rw [asked]; exact List.mem_cons_self
        have := past first member
        exact ⟨first, member, by omega⟩
      · have := past request member
        exact ⟨request, member, by omega⟩
    obtain ⟨request, member, bound⟩ := some_request
    refine .inr ⟨request, more member, due request member, .inl ?_⟩
    rw [same]
    exact bound

end Watchdog
