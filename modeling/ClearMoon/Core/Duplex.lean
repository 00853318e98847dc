import ClearMoon.Core.Simulation

/-!
# Two machines joined by streams

Each of two machines appends to a stream of its own, and takes from the front of the stream of the
other one. What has not been taken is in flight. A machine may be told that the stream towards it
has ended when nothing is in flight and nothing will be added.
-/

namespace ClearMoon

inductive Side where
  | near
  | far
  deriving DecidableEq, Repr

def Side.other : Side → Side
  | .near => .far
  | .far => .near

/-- The other side is another one. -/
@[simp] theorem Side.other_ne (s : Side) : s.other ≠ s := by cases s <;> simp [other]

/-- The other side of the other side is the side itself. -/
@[simp] theorem Side.other_other (s : Side) : s.other.other = s := by cases s <;> rfl

/-- There are two sides. -/
theorem Side.eq_or_eq_other (s t : Side) : t = s ∨ t = s.other := by
  cases s <;> cases t <;> simp [other]

/-- A machine at the end of two streams. -/
structure Endpoint (σ α β : Type*) where
  step : σ → α → Option σ
  /-- All that has been put into the outgoing stream. -/
  sent : σ → List β
  /-- What a step takes from the incoming stream. -/
  takes : σ → α → List β
  /-- The step is told that the incoming stream has ended. -/
  toldEnd : σ → α → Bool
  /-- Nothing more will be put into the outgoing stream. -/
  ended : σ → Bool

/-- The outgoing stream only grows, until it has ended. -/
structure Endpoint.Lawful {σ α β : Type*} (E : Endpoint σ α β) : Prop where
  sent {s a t} : E.step s a = some t → E.sent s <+: E.sent t
  ended {s a t} : E.step s a = some t → E.ended s = true → E.sent t = E.sent s ∧ E.ended t = true

/-- Both machines, and the streams towards either of them. -/
structure Duplex (σ β : Type*) where
  peer : Side → σ
  inFlight : Side → List β := fun _ => []
  /-- All that has been taken. -/
  received : Side → List β := fun _ => []
  sawEnd : Side → Bool := fun _ => false

namespace Duplex

variable {σ α β : Type*}

/-- Neither machine has done anything. -/
def start (peer : Side → σ) : Duplex σ β where
  peer := peer

variable {E : Endpoint σ α β} {d d' : Duplex σ β}

/-- What either machine has put into its stream has been taken by the other one, in order, but for
what is in flight; and a machine that has been told of the end has taken everything. -/
structure Conserved (E : Endpoint σ α β) (d : Duplex σ β) : Prop where
  stream (s : Side) : d.received s ++ d.inFlight s = E.sent (d.peer s.other)
  finished (s : Side) : d.sawEnd s = true → d.inFlight s = [] ∧ E.ended (d.peer s.other) = true

/-- Before the first step nothing has been sent. -/
theorem conserved_start {peer : Side → σ} (h : ∀ s, E.sent (peer s) = []) :
    (start peer : Duplex σ β).Conserved E where
  stream s := (h s.other).symm
  finished s hs := by simp [start] at hs

variable [DecidableEq β]

/-- One of the machines takes a step; the stream towards it allows what the step takes. -/
def step (E : Endpoint σ α β) (d : Duplex σ β) (label : Side × α) : Option (Duplex σ β) :=
  let (s, a) := label
  let input := E.takes (d.peer s) a
  let ends := E.toldEnd (d.peer s) a
  if input <+: d.inFlight s ∧
      (ends = true → d.inFlight s = [] ∧ E.ended (d.peer s.other) = true) then
    (E.step (d.peer s) a).map fun p =>
      let output := (E.sent p).drop (E.sent (d.peer s)).length
      { peer := Function.update d.peer s p
        inFlight := fun t =>
          if t = s then (d.inFlight s).drop input.length else d.inFlight t ++ output
        received := Function.update d.received s (d.received s ++ input)
        sawEnd := Function.update d.sawEnd s (d.sawEnd s || ends) }
  else none

/-! ## The machines on their own -/

/-- The steps of one of the machines. -/
def ofSide (s : Side) (label : Side × α) : List α := if label.1 = s then [label.2] else []

/-- A step of the whole is one of the machine it names, and leaves the other one alone. -/
theorem peer_of_step {s : Side} {a : α} (h : d.step E (s, a) = some d') :
    E.step (d.peer s) a = some (d'.peer s) ∧ d'.peer s.other = d.peer s.other := by
  obtain ⟨-, h⟩ := Option.ite_none_right_eq_some.mp h
  obtain ⟨p, hp, rfl⟩ := Option.map_eq_some_iff.mp h
  simp [hp]

/-- A run of the whole is one of each of the machines. -/
theorem run_peer {guard : Duplex σ β → Side × α → Prop} {g : σ → α → Prop} {s : Side}
    {as : List (Side × α)} (hrun : Run (step E) guard d as d')
    (hguard : ∀ d a, guard d (s, a) → g (d.peer s) a) :
    Run E.step g (d.peer s) (as.flatMap (ofSide s)) (d'.peer s) := by
  refine (hrun.simulate (f := fun d => d.peer s) (I := fun _ => True) trivial ?_).1
  rintro d ⟨t, a⟩ d' - hg hstep
  obtain ⟨hpeer, hother⟩ := peer_of_step hstep
  refine ⟨trivial, ?_⟩
  rcases Side.eq_or_eq_other s t with rfl | rfl
  · rw [ofSide, if_pos rfl]
    exact .single (hguard d a hg) hpeer
  · rw [ofSide, if_neg s.other_ne, ← Side.other_other s, hother]
    exact .nil

/-! ## What is in flight -/

/-- A step of either side moves its bytes along, and drops or makes none. -/
theorem Conserved.step (h : d.Conserved E) (hlaw : E.Lawful) {label : Side × α}
    (hstep : d.step E label = some d') : d'.Conserved E := by
  obtain ⟨s, a⟩ := label
  obtain ⟨⟨htakes, hends⟩, hmap⟩ := Option.ite_none_right_eq_some.mp hstep
  obtain ⟨p, hp, rfl⟩ := Option.map_eq_some_iff.mp hmap
  obtain ⟨rest, hrest⟩ := htakes
  obtain ⟨more, hmore⟩ := hlaw.sent hp
  -- the stream towards the machine loses what was taken, the other one gains what was put into it
  constructor
  · intro t
    rcases Side.eq_or_eq_other s t with rfl | rfl
    · simp only [Function.update_self, if_true, ne_eq, Side.other_ne, not_false_eq_true,
        Function.update_of_ne]
      rw [← h.stream t, ← hrest, List.drop_left, List.append_assoc]
    · simp only [Side.other_other, Function.update_self, ne_eq, Side.other_ne, not_false_eq_true,
        Function.update_of_ne, if_false]
      rw [← hmore, List.drop_left, ← List.append_assoc, h.stream s.other, Side.other_other]
  · intro t ht
    rcases Side.eq_or_eq_other s t with rfl | rfl
    · simp only [Function.update_self, Bool.or_eq_true, if_true, ne_eq, Side.other_ne,
        not_false_eq_true, Function.update_of_ne] at ht ⊢
      obtain ⟨hnone, hended⟩ := ht.elim (h.finished t) hends
      exact ⟨by rw [hnone, List.drop_nil], hended⟩
    · simp only [Side.other_other, Function.update_self, ne_eq, Side.other_ne, not_false_eq_true,
        Function.update_of_ne, if_false] at ht ⊢
      obtain ⟨hnone, hended⟩ := h.finished s.other ht
      rw [Side.other_other] at hended
      obtain ⟨hsame, hended'⟩ := hlaw.ended hp hended
      rw [hsame, List.drop_length, hnone]
      exact ⟨rfl, hended'⟩

/-- What one side has received, with what is under way, is what the other has sent: in every state
of every run. -/
theorem streams_of_run {guard : Duplex σ β → Side × α → Prop} {peer : Side → σ}
    {as : List (Side × α)} (hrun : Run (step E) guard (start peer) as d) (hlaw : E.Lawful)
    (hstart : ∀ s, E.sent (peer s) = []) : d.Conserved E :=
  hrun.invariant (conserved_start hstart) fun _ _ _ hd _ hstep => hd.step hlaw hstep

/-- What a machine has received can be read off its state, if that accounts for what it takes. -/
theorem received_of_run {guard : Duplex σ β → Side × α → Prop} {peer : Side → σ}
    {as : List (Side × α)} {f : σ → List β} (hrun : Run (step E) guard (start peer) as d)
    (hf : ∀ {p a q}, E.step p a = some q → f q = f p ++ E.takes p a)
    (hstart : ∀ s, f (peer s) = []) (s : Side) : d.received s = f (d.peer s) := by
  refine hrun.invariant (I := fun d => d.received s = f (d.peer s)) (hstart s).symm ?_
  rintro d ⟨t, a⟩ d' hd - hstep
  obtain ⟨-, hmap⟩ := Option.ite_none_right_eq_some.mp hstep
  obtain ⟨p, hp, rfl⟩ := Option.map_eq_some_iff.mp hmap
  rcases Side.eq_or_eq_other s t with rfl | rfl
  · simp [hf hp, hd]
  · simp [s.other_ne.symm, hd]

end Duplex

end ClearMoon
