import ClearMoon.Core.Machine

/-!
# Refinement of a total specification

A component answers calls: `exec s a` is its answer and its next state, or `none` where an
assertion of it fails. A specification answers every call. A component refines a specification
along a relation of their states when it answers every allowed call, with the answer of the
specification, and the next states are related again. What holds of one call then holds of every
sequence of allowed calls.
-/

namespace ClearMoon

variable {σ τ υ α ρ : Type*}

/-- Where a sequence of calls leads the specification. -/
def specState (spec : τ → α → ρ × τ) (t : τ) (as : List α) : τ :=
  as.foldl (fun t a => (spec t a).2) t

/-- The last operation acts on what those before it have made. -/
@[simp] theorem specState_concat (spec : τ → α → ρ × τ) (t : τ) (as : List α) (a : α) :
    specState spec t (as ++ [a]) = (spec (specState spec t as) a).2 := by
  simp [specState]

/-- `exec` refines `spec` along `R`, for the calls that are allowed. -/
structure Refines (exec : σ → α → Option (ρ × σ)) (allowed : σ → α → Prop)
    (spec : τ → α → ρ × τ) (R : σ → τ → Prop) : Prop where
  call : ∀ {s t a}, R s t → allowed s a →
    ∃ s', exec s a = some ((spec t a).1, s') ∧ R s' (spec t a).2

namespace Refines

variable {exec : σ → α → Option (ρ × σ)} {allowed : σ → α → Prop} {spec : τ → α → ρ × τ}
  {R : σ → τ → Prop}

/-- The states stay related along every run of allowed calls. -/
theorem of_run (h : Refines exec allowed spec R) {s s' : σ} {t : τ} {as : List α}
    (hinit : R s t) (hrun : Run (fun s a => (exec s a).map Prod.snd) allowed s as s') :
    R s' (specState spec t as) := by
  induction hrun with
  | nil => exact hinit
  | snoc _ hallowed hstep ih =>
    obtain ⟨next, hexec, hnext⟩ := h.call ih hallowed
    rw [hexec] at hstep
    obtain rfl := Option.some.inj hstep
    rwa [specState_concat]

/-- A specification may be refined in turn by a map of its states. -/
theorem trans {spec' : υ → α → ρ × υ} {abs : τ → υ} {allowed' : τ → α → Prop}
    (h : Refines exec allowed spec R)
    (hallowed : ∀ {s t a}, R s t → allowed s a → allowed' t a)
    (hspec : ∀ t a, allowed' t a → (spec t a).1 = (spec' (abs t) a).1 ∧
      abs (spec t a).2 = (spec' (abs t) a).2) :
    Refines exec allowed spec' fun s u => ∃ t, R s t ∧ abs t = u where
  call := by
    rintro s u a ⟨t, hR, rfl⟩ ha
    obtain ⟨s', hexec, hR'⟩ := h.call hR ha
    obtain ⟨hanswer, habs⟩ := hspec t a (hallowed hR ha)
    exact ⟨s', by rw [hexec, hanswer], (spec t a).2, hR', habs⟩

end Refines

end ClearMoon
