import Mathlib.Data.Nat.Defs

/-!
# Runs of a transition system

Every concurrent piece of the harness is modelled by a step function
`step : α → σ → Option σ` (a move `a`, enabled or not, from a state); this module packages
what all of them share.

* `runSteps` — a run: the moves in order, `none` as soon as one is not enabled.
* `runSteps_preserves` — a property kept by every allowed move holds after every run of
  allowed moves (the induction over runs, done once).
* `runSteps_length_le`, `exists_terminal_run` — when a measure drops at every move, every
  run is finite, and some run of allowed moves reaches a state where no allowed move is
  enabled; `runSteps_length_add` — when it drops by exactly one, a run's length is the drop.
-/

set_option autoImplicit false

namespace FilecoinHarness

variable {σ α : Type} (step : α → σ → Option σ)

/-- A run: the moves in order, `none` as soon as one is not enabled. -/
def runSteps : List α → σ → Option σ
  | [], s => some s
  | a :: as, s => (step a s).bind (runSteps as)

@[simp] theorem runSteps_nil (s : σ) : runSteps step [] s = some s := rfl

theorem runSteps_cons_eq_some {a : α} {as : List α} {s s' : σ} :
    runSteps step (a :: as) s = some s' ↔ ∃ t, step a s = some t ∧ runSteps step as t = some s' :=
  Option.bind_eq_some

theorem runSteps_append (as bs : List α) (s : σ) :
    runSteps step (as ++ bs) s = (runSteps step as s).bind (runSteps step bs) := by
  induction as generalizing s with
  | nil => rfl
  | cons a as ih => cases h : step a s <;> simp [runSteps, h, ih]

theorem runSteps_trans {as bs : List α} {s t u : σ} (h : runSteps step as s = some t)
    (h' : runSteps step bs t = some u) : runSteps step (as ++ bs) s = some u := by
  rw [runSteps_append, h]
  exact h'

/-- A property kept by every allowed move holds at the end of every run of allowed moves. -/
theorem runSteps_preserves (P : σ → Prop) (allowed : α → Prop)
    (hstep : ∀ a s s', allowed a → P s → step a s = some s' → P s') :
    ∀ {as : List α} {s s' : σ}, (∀ a ∈ as, allowed a) → P s → runSteps step as s = some s' →
      P s'
  | [], _, _, _, hp, h => by cases h; exact hp
  | a :: as, s, s', ha, hp, h => by
    obtain ⟨t, ht, h⟩ := (runSteps_cons_eq_some step).1 h
    exact runSteps_preserves P allowed hstep (fun b hb => ha b (List.mem_cons_of_mem a hb))
      (hstep a s t (ha a (List.mem_cons_self a as)) hp ht) h

/-- With a measure that every move decreases, every run from `s` has at most `measure s`
moves. -/
theorem runSteps_length_le (measure : σ → Nat)
    (hdec : ∀ a s s', step a s = some s' → measure s' < measure s) :
    ∀ {as : List α} {s s' : σ}, runSteps step as s = some s' → as.length ≤ measure s
  | [], _, _, _ => Nat.zero_le _
  | a :: as, s, _, h => by
    obtain ⟨t, ht, h⟩ := (runSteps_cons_eq_some step).1 h
    have := runSteps_length_le measure hdec h
    have := hdec a s t ht
    simp only [List.length_cons]
    omega

/-- When every allowed move from a state satisfying `P` keeps `P` and lowers a measure by
exactly one, every run of allowed moves from such a state ends in one, having made as many
moves as the measure dropped. -/
theorem runSteps_length_add (measure : σ → Nat) (P : σ → Prop) (allowed : α → Prop)
    (hstep : ∀ a s s', allowed a → P s → step a s = some s' → P s' ∧ measure s' + 1 = measure s) :
    ∀ {as : List α} {s s' : σ}, (∀ a ∈ as, allowed a) → P s → runSteps step as s = some s' →
      P s' ∧ as.length + measure s' = measure s
  | [], _, _, _, hp, h => by cases h; exact ⟨hp, by simp⟩
  | a :: as, s, _, ha, hp, h => by
    obtain ⟨t, ht, h⟩ := (runSteps_cons_eq_some step).1 h
    obtain ⟨hpt, hmt⟩ := hstep a s t (ha a (List.mem_cons_self a as)) hp ht
    obtain ⟨hp', hm'⟩ := runSteps_length_add measure P allowed hstep
      (fun b hb => ha b (List.mem_cons_of_mem a hb)) hpt h
    exact ⟨hp', by simp only [List.length_cons]; omega⟩

/-- With a measure that every move decreases, some run of allowed moves from `s` ends in a
state where no allowed move is enabled. -/
theorem exists_terminal_run (measure : σ → Nat)
    (hdec : ∀ a s s', step a s = some s' → measure s' < measure s) (allowed : α → Prop) (s : σ) :
    ∃ as t, (∀ a ∈ as, allowed a) ∧ runSteps step as s = some t ∧
      ∀ a, allowed a → step a t = none := by
  generalize h : measure s = n
  induction n using Nat.strong_induction_on generalizing s with
  | _ n ih =>
    by_cases hs : ∃ a s', allowed a ∧ step a s = some s'
    · obtain ⟨a, s', ha, hs'⟩ := hs
      obtain ⟨as, t, hal, hr, ht⟩ := ih _ (h ▸ hdec a s s' hs') s' rfl
      refine ⟨a :: as, t, ?_, (runSteps_cons_eq_some step).2 ⟨s', hs', hr⟩, ht⟩
      simpa [ha] using hal
    · refine ⟨[], s, by simp, rfl, fun a ha => ?_⟩
      cases hst : step a s with
      | none => rfl
      | some s' => exact absurd ⟨a, s', ha, hst⟩ hs

end FilecoinHarness
