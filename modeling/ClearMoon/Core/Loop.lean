import Mathlib

/-!
# Loops that read a growing input

A `ReadLoop` is a `while` loop whose body either goes on, leaves the loop with a result, or
stops because its input does not yet hold what it needs. The termination measure is a field, so
every loop has a total run. A loop is *resumable* when its turns do not depend on input that has
not arrived: then running it on the first part of an input, appending the rest and running it
again is the same as running it once on the whole. Loop states are compared through a view, so
that the storage of the input may be laid out differently in the two runs.
-/

namespace ClearMoon

/-- One turn of a loop body: go on, leave with a result, or stop for lack of input. -/
inductive Turn (σ ρ : Type*) where
  | again (s : σ)
  | leave (s : σ) (r : ρ)
  | starve (s : σ)

/-- A loop with a measure that every turn that goes on lowers. -/
structure ReadLoop (σ ρ : Type*) where
  /-- The loop body, run once. -/
  body : σ → Turn σ ρ
  /-- The measure that justifies termination. -/
  measure : σ → Nat
  /-- Going on lowers the measure. -/
  lowers : ∀ s t, body s = .again t → measure t < measure s

namespace ReadLoop

variable {σ ρ τ β : Type*}

/-- How a run of the loop ended: with a result, or starved of input. -/
inductive Exit (ρ : Type*) where
  | left (r : ρ)
  | starved
  deriving DecidableEq

/-- Run the loop for at most `fuel` turns. -/
def runFuel (l : ReadLoop σ ρ) : Nat → σ → Option (σ × Exit ρ)
  | 0, _ => none
  | fuel + 1, s =>
    match l.body s with
    | .again t => l.runFuel fuel t
    | .leave t r => some (t, .left r)
    | .starve t => some (t, .starved)

/-- As many turns as the measure allows are enough. -/
theorem runFuel_isSome (l : ReadLoop σ ρ) {fuel : Nat} {s : σ} (h : l.measure s < fuel) :
    (l.runFuel fuel s).isSome := by
  induction fuel generalizing s with
  | zero => omega
  | succ fuel ih =>
    rw [runFuel]
    cases hb : l.body s with
    | again t => exact ih (by have := l.lowers s t hb; omega)
    | leave t r => rfl
    | starve t => rfl

/-- More fuel than enough changes nothing. -/
theorem runFuel_mono (l : ReadLoop σ ρ) {fuel fuel' : Nat} {s : σ} {r : σ × Exit ρ}
    (h : l.runFuel fuel s = some r) (hle : fuel ≤ fuel') : l.runFuel fuel' s = some r := by
  induction fuel generalizing s fuel' with
  | zero => simp [runFuel] at h
  | succ fuel ih =>
    obtain ⟨fuel', rfl⟩ : ∃ n, fuel' = n + 1 := ⟨fuel' - 1, by omega⟩
    rw [runFuel] at h ⊢
    cases hb : l.body s with
    | again t =>
      rw [hb] at h
      exact ih h (by omega)
    | leave t r => rw [hb] at h; exact h
    | starve t => rw [hb] at h; exact h

/-- The total run of the loop: the measure is the fuel. -/
def run (l : ReadLoop σ ρ) (s : σ) : σ × Exit ρ :=
  (l.runFuel (l.measure s + 1) s).get (l.runFuel_isSome (Nat.lt_succ_self _))

/-- Any successful bounded run is the total run. -/
theorem run_eq_of_runFuel (l : ReadLoop σ ρ) (fuel : Nat) {s : σ} {r : σ × Exit ρ}
    (h : l.runFuel fuel s = some r) : l.run s = r := by
  have hrun : l.runFuel (l.measure s + 1) s = some (l.run s) := (Option.some_get _).symm
  have h₁ := l.runFuel_mono h (Nat.le_max_left fuel (l.measure s + 1))
  have h₂ := l.runFuel_mono hrun (Nat.le_max_right fuel (l.measure s + 1))
  exact Option.some.inj (h₂.symm.trans h₁)

/-- A body that says `again` starts the loop over. -/
theorem run_again (l : ReadLoop σ ρ) {s t : σ} (h : l.body s = .again t) : l.run s = l.run t := by
  apply l.run_eq_of_runFuel (l.measure t + 1 + 1)
  rw [runFuel, h]
  exact (Option.some_get _).symm

/-- A body that leaves ends the loop with its result. -/
theorem run_leave (l : ReadLoop σ ρ) {s t : σ} {r : ρ} (h : l.body s = .leave t r) :
    l.run s = (t, .left r) :=
  l.run_eq_of_runFuel 1 (by rw [runFuel, h])

/-- A body that finds too few bytes waits for more. -/
theorem run_starve (l : ReadLoop σ ρ) {s t : σ} (h : l.body s = .starve t) :
    l.run s = (t, .starved) :=
  l.run_eq_of_runFuel 1 (by rw [runFuel, h])

/-- Induction along a run: one case for each kind of turn. -/
theorem run_induction (l : ReadLoop σ ρ) {P : σ → Prop}
    (again : ∀ s t, l.body s = .again t → P t → P s)
    (leave : ∀ s t r, l.body s = .leave t r → P s)
    (starve : ∀ s t, l.body s = .starve t → P s) (s : σ) : P s := by
  induction hn : l.measure s using Nat.strong_induction_on generalizing s with
  | h n ih =>
    cases hb : l.body s with
    | again t => exact again s t hb (ih _ (by have := l.lowers s t hb; omega) t rfl)
    | leave t r => exact leave s t r hb
    | starve t => exact starve s t hb

/-- An invariant of the turns that go on holds wherever the run ends, provided that the turns
that end the loop keep it too. -/
theorem run_invariant (l : ReadLoop σ ρ) {I : σ → Prop}
    (again : ∀ s t, I s → l.body s = .again t → I t)
    (leave : ∀ s t r, I s → l.body s = .leave t r → I t)
    (starve : ∀ s t, I s → l.body s = .starve t → I t) {s : σ} (hs : I s) : I (l.run s).1 := by
  revert hs
  induction s using l.run_induction with
  | again s t hb ih =>
    intro hs
    rw [l.run_again hb]
    exact ih (again s t hs hb)
  | leave s t r hb =>
    intro hs
    rw [l.run_leave hb]
    exact leave s t r hs hb
  | starve s t hb =>
    intro hs
    rw [l.run_starve hb]
    exact starve s t hs hb

/-! ## Resumable loops -/

/-- The turns of the loop do not look past the input they need. `view` is what can be observed of
a state and `extend` appends input to a view. A turn that goes on or leaves does the same with
more input, which it leaves unread behind; a starving turn changes nothing. -/
structure Resumable (l : ReadLoop σ ρ) (view : σ → τ) (extend : τ → List β → τ) : Prop where
  /-- Going on does not depend on input that comes later. -/
  again : ∀ {s s' t : σ} {b : List β}, l.body s = .again s' → view t = extend (view s) b →
    ∃ t', l.body t = .again t' ∧ view t' = extend (view s') b
  /-- Neither does leaving. -/
  leave : ∀ {s s' t : σ} {b : List β} {r : ρ}, l.body s = .leave s' r →
    view t = extend (view s) b → ∃ t', l.body t = .leave t' r ∧ view t' = extend (view s') b
  /-- A starving turn leaves the state as it found it. -/
  starve : ∀ {s s' : σ}, l.body s = .starve s' → view s' = view s
  /-- Starving depends on the view only. -/
  starve_congr : ∀ {s s' t : σ}, l.body s = .starve s' → view t = view s →
    ∃ t', l.body t = .starve t'
  /-- Appending nothing changes nothing. -/
  extend_nil : ∀ v, extend v [] = v

namespace Resumable

variable {l : ReadLoop σ ρ} {view : σ → τ} {extend : τ → List β → τ}

/-- A run that leaves does the same when more input stands behind what it read. -/
theorem run_left (h : Resumable l view extend) {s t s' : σ} {b : List β} {r : ρ}
    (hrun : l.run s = (s', .left r)) (ht : view t = extend (view s) b) :
    ∃ t', l.run t = (t', .left r) ∧ view t' = extend (view s') b := by
  induction s using l.run_induction generalizing t with
  | again s s₁ hb ih =>
    obtain ⟨t₁, hb', hv⟩ := h.again hb ht
    rw [l.run_again hb]at hrun
    rw [l.run_again hb']
    exact ih hrun hv
  | leave s s₁ r' hb =>
    obtain ⟨t₁, hb', hv⟩ := h.leave hb ht
    rw [l.run_leave hb, Prod.mk.injEq, Exit.left.injEq] at hrun
    obtain ⟨rfl, rfl⟩ := hrun
    exact ⟨t₁, l.run_leave hb', hv⟩
  | starve s s₁ hb =>
    rw [l.run_starve hb] at hrun
    simp at hrun

/-- States with the same view run alike. -/
theorem run_congr (h : Resumable l view extend) {s t : σ} (ht : view t = view s) :
    (l.run t).2 = (l.run s).2 ∧ view (l.run t).1 = view (l.run s).1 := by
  induction s using l.run_induction generalizing t with
  | again s s₁ hb ih =>
    obtain ⟨t₁, hb', hv⟩ := h.again (b := []) hb (by rw [ht, h.extend_nil])
    rw [l.run_again hb, l.run_again hb']
    exact ih (by rw [hv, h.extend_nil])
  | leave s s₁ r hb =>
    obtain ⟨t₁, hb', hv⟩ := h.leave (b := []) hb (by rw [ht, h.extend_nil])
    rw [l.run_leave hb, l.run_leave hb']
    exact ⟨rfl, by rw [hv, h.extend_nil]⟩
  | starve s s₁ hb =>
    obtain ⟨t₁, hb'⟩ := h.starve_congr hb ht
    rw [l.run_starve hb, l.run_starve hb']
    exact ⟨rfl, by rw [h.starve hb', h.starve hb, ht]⟩

/-- A starved run, given more input, ends as the run on the whole input does. -/
theorem run_starved (h : Resumable l view extend) {s s' t u : σ} {b : List β}
    (hrun : l.run s = (s', .starved)) (ht : view t = extend (view s) b)
    (hu : view u = extend (view s') b) :
    (l.run t).2 = (l.run u).2 ∧ view (l.run t).1 = view (l.run u).1 := by
  induction s using l.run_induction generalizing t with
  | again s s₁ hb ih =>
    obtain ⟨t₁, hb', hv⟩ := h.again hb ht
    rw [l.run_again hb] at hrun
    rw [l.run_again hb']
    exact ih hrun hv
  | leave s s₁ r hb =>
    rw [l.run_leave hb] at hrun
    simp at hrun
  | starve s s₁ hb =>
    rw [l.run_starve hb, Prod.mk.injEq] at hrun
    obtain ⟨rfl, -⟩ := hrun
    exact h.run_congr (by rw [ht, hu, h.starve hb])

end Resumable

end ReadLoop

end ClearMoon
