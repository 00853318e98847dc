import ClearMoon.Log.AsyncLogger

/-!
# The rounds of the back thread

A round takes the full buffers and the current one, and gives back at most two of them, as `buffA`
and `buffB`. `buffersToWrite` keeps the others, and the next critical section swaps them into the
vector, where they look like buffers that a user has filled. A run in which no round takes more
than two buffers leaves none behind, and its back thread goes to sleep; once two rounds have left
buffers behind, it does not sleep again.
-/

namespace ClearMoon.Log

open ClearMoon.Net

namespace AsyncLogger

/-- Left to itself, the back thread comes to a wait whose predicate is false. -/
inductive Settles : AsyncLogger → Prop
  | blocked {w} : w.back = .wait → w.wakes = false → Settles w
  | goesOn {w} : (∀ now, (w.backStep now).isSome) →
      (∀ now w', w.backStep now = some w' → Settles w') → Settles w

variable {w w' : AsyncLogger} {now : Date}

/-- What the back thread comes to when it is left to itself. -/
theorem Settles.back (h : ∀ now, ∃ w', w.backStep now = some w' ∧ w'.Settles) : w.Settles := by
  refine .goesOn (fun now => ?_) fun now w' hstep => ?_
  · obtain ⟨w', hstep, -⟩ := h now
    rw [hstep]
    rfl
  · obtain ⟨w'', hstep', hsettles⟩ := h now
    obtain rfl := Option.some.inj (hstep.symm.trans hstep')
    exact hsettles

/-! ## A vector without buffers -/

/-- With nothing taken and nothing pushed the back thread waits. -/
theorem settles_of_empty (hrunning : w.running = true) (hbuffers : w.buffers = [])
    (hback : w.back = .test ∨ w.back = .wait) : w.Settles := by
  have hwait (v : AsyncLogger) (hv : v.back = .wait) (hrunning : v.running = true)
      (hbuffers : v.buffers = []) : v.Settles :=
    .blocked hv (by rw [wakes, hrunning, hbuffers]; rfl)
  rcases hback with htest | hw
  · refine .back fun now => ⟨{ w with back := .wait }, ?_, hwait _ rfl hrunning hbuffers⟩
    rw [backStep, htest]
    dsimp only
    rw [if_pos hrunning]
  · exact hwait w hw hrunning hbuffers

/-- Recycling touches neither `running_` nor the vector. -/
theorem recycle_same (w : AsyncLogger) : w.recycleA.recycleB.running = w.running ∧
    w.recycleA.recycleB.buffers = w.buffers := by
  have hA : w.recycleA.running = w.running ∧ w.recycleA.buffers = w.buffers := by
    rw [recycleA]
    split
    · exact ⟨rfl, rfl⟩
    · split <;> exact ⟨rfl, rfl⟩
  rw [recycleB]
  split
  · exact hA
  · split <;> exact hA

/-- A round ends, however many buffers it has taken, and if nothing is pushed meanwhile the back
thread then sleeps. -/
theorem settles_of_recycle (hrunning : w.running = true) (hbuffers : w.buffers = [])
    (hback : w.back = .recycle) : w.Settles := by
  obtain ⟨hsame, hvector⟩ := w.recycle_same
  refine .back fun now => ⟨{ w.recycleA.recycleB with back := .test }, by rw [backStep, hback], ?_⟩
  exact settles_of_empty (hsame.trans hrunning) (hvector.trans hbuffers) (.inl rfl)

/-- Emptying a buffer pushes none. -/
theorem retrieveBuffer_same (w : AsyncLogger) (i : Nat) (b : BufferPtr) :
    (w.retrieveBuffer i b).running = w.running ∧ (w.retrieveBuffer i b).buffers = w.buffers ∧
      (w.retrieveBuffer i b).buffersToWrite.length = w.buffersToWrite.length := by
  cases b with
  | none => exact ⟨rfl, rfl, rfl⟩
  | some b => exact ⟨rfl, rfl, List.length_set⟩

/-- The loop over the taken buffers comes to its end. -/
theorem settles_of_retrieving {i : Nat} (hrunning : w.running = true) (hbuffers : w.buffers = [])
    (hback : w.back = .retrieving i) : w.Settles := by
  -- the induction is on the buffers that are still to be emptied
  generalize hn : w.buffersToWrite.length - i = n
  induction n generalizing w i with
  | zero =>
    have hnone : w.buffersToWrite[i]? = none := List.getElem?_eq_none_iff.mpr (by omega)
    refine .back fun now => ⟨{ w with back := .recycle }, ?_,
      settles_of_recycle hrunning hbuffers rfl⟩
    rw [backStep, hback]
    dsimp only
    rw [hnone]
  | succ n ih =>
    obtain ⟨b, hb⟩ : ∃ b, w.buffersToWrite[i]? = some b :=
      ⟨_, List.getElem?_eq_getElem (by omega)⟩
    obtain ⟨hsame, hvector, hlength⟩ := w.retrieveBuffer_same i b
    refine .back fun now => ⟨{ w.retrieveBuffer i b with back := .retrieving (i + 1) }, ?_,
      ih (hsame.trans hrunning) (hvector.trans hbuffers) rfl ?_⟩
    · rw [backStep, hback]
      dsimp only
      rw [hb]
    · dsimp only
      omega

/-- Writing a buffer pushes none. -/
theorem writeBuffer_same (w : AsyncLogger) (now : Date) (b : BufferPtr) :
    (w.writeBuffer now b).running = w.running ∧ (w.writeBuffer now b).buffers = w.buffers ∧
      (w.writeBuffer now b).buffersToWrite = w.buffersToWrite := by
  cases b <;> exact ⟨rfl, rfl, rfl⟩

/-- So does the loop that writes them. -/
theorem settles_of_writing {i : Nat} (hrunning : w.running = true) (hbuffers : w.buffers = [])
    (hback : w.back = .writing i) : w.Settles := by
  generalize hn : w.buffersToWrite.length - i = n
  induction n generalizing w i with
  | zero =>
    have hnone : w.buffersToWrite[i]? = none := List.getElem?_eq_none_iff.mpr (by omega)
    refine .back fun now => ⟨{ w with back := .retrieving 0 }, ?_,
      settles_of_retrieving hrunning hbuffers rfl⟩
    rw [backStep, hback]
    dsimp only
    rw [hnone]
  | succ n ih =>
    obtain ⟨b, hb⟩ : ∃ b, w.buffersToWrite[i]? = some b :=
      ⟨_, List.getElem?_eq_getElem (by omega)⟩
    refine .back fun now => ?_
    obtain ⟨hsame, hvector, htoWrite⟩ := w.writeBuffer_same now b
    refine ⟨{ w.writeBuffer now b with back := .writing (i + 1) }, ?_,
      ih (hsame.trans hrunning) (hvector.trans hbuffers) rfl ?_⟩
    · rw [backStep, hback]
      dsimp only
      rw [hb]
    · dsimp only
      rw [htoWrite]
      omega

/-! ## The head of the loop -/

/-- What the critical section does in a reachable state. -/
theorem Inv.critical_eq (h : w.Inv) : w.critical =
    if w.somethingToTake then { w.takeAll with back := .writing 0 }
    else if !w.running then w.exit
    else { w with back := .writing 0 } := by
  rw [AsyncLogger.critical, h.checkCurrent_eq]

/-- The swap leaves in `buffers_` what stood in the vector of the back thread. -/
theorem takeAll_same (w : AsyncLogger) : w.takeAll.running = w.running ∧
    w.takeAll.buffers = w.buffersToWrite ∧
    w.takeAll.buffersToWrite = w.buffers ++ [w.currentBuffer] ∧ w.takeAll.buffA = none := by
  rw [takeAll]
  dsimp only
  split <;> exact ⟨rfl, rfl, rfl, rfl⟩

/-- A buffer that stands in `buffers_` is something to take. -/
theorem somethingToTake_of_ne (h : w.buffers ≠ []) : w.somethingToTake = true := by
  cases hb : w.buffers with
  | nil => contradiction
  | cons b bs => rw [somethingToTake, hb]; rfl

/-- It also wakes the back thread. -/
theorem wakes_of_ne (h : w.buffers ≠ []) : w.wakes = true := by
  cases hb : w.buffers with
  | nil => contradiction
  | cons b bs => rw [wakes, hb]; exact Bool.or_true _

/-- In a critical section with nothing left of the last round the vector becomes empty. -/
theorem Inv.settles_of_locked (h : w.Inv) (hrunning : w.running = true) (hback : w.back = .locked)
    (hbuffers : w.buffers ≠ []) (hleft : w.buffersToWrite = []) : w.Settles := by
  obtain ⟨hsame, hvector, -, -⟩ := w.takeAll_same
  refine .back fun now => ⟨{ w.takeAll with back := .writing 0 }, ?_, ?_⟩
  · rw [AsyncLogger.backStep, hback]
    dsimp only
    rw [h.critical_eq, if_pos (somethingToTake_of_ne hbuffers)]
  · exact settles_of_writing (hsame.trans hrunning) (hvector.trans hleft) rfl

/-- From the head of the loop, with nothing left of the last round, the back thread takes at most
one round before it sleeps. -/
theorem Inv.settles_of_test (h : w.Inv) (hrunning : w.running = true) (hback : w.back = .test)
    (hleft : w.buffersToWrite = []) : w.Settles := by
  by_cases hbuffers : w.buffers = []
  · exact settles_of_empty hrunning hbuffers (.inl hback)
  · have hwait (now : Date) : w.backStep now = some { w with back := .wait } := by
      rw [AsyncLogger.backStep, hback]
      dsimp only
      rw [if_pos hrunning]
    have hlocked (now : Date) : ({ w with back := .wait } : AsyncLogger).backStep now =
        some { w with back := .locked } := by
      rw [AsyncLogger.backStep]
      exact if_pos (wakes_of_ne hbuffers)
    refine .back fun now => ⟨_, hwait now, .back fun now => ⟨_, hlocked now, ?_⟩⟩
    have hinv := (h.backStep (hwait now)).backStep (hlocked now)
    exact hinv.settles_of_locked hrunning rfl hbuffers hleft

/-! ## Rounds that leave nothing behind -/

/-- The buffers that `append` pushes. -/
def pushes (w : AsyncLogger) (data : Bytes) : List BufferPtr :=
  match w.currentBuffer with
  | none => []
  | some b => if b.writeableBytes > data.length then [] else [w.currentBuffer]

/-- The back thread swaps the vectors. -/
def swaps (w : AsyncLogger) : Prop := w.back = .locked ∧ w.somethingToTake = true

instance (w : AsyncLogger) : Decidable w.swaps :=
  inferInstanceAs (Decidable (w.back = .locked ∧ w.somethingToTake = true))

/-- An append pushes the buffer that has no room, and takes the spare one. -/
theorem append_spec (h : w.Inv) (data : Bytes) :
    (w.append data).buffers = w.buffers ++ w.pushes data ∧
      (w.append data).nextBuffer = (if w.pushes data = [] then w.nextBuffer else none) ∧
      (w.append data).buffA = w.buffA ∧ (w.append data).buffB = w.buffB := by
  obtain ⟨b, hb⟩ := Option.isSome_iff_exists.mp h.current
  have hcurrent (w : AsyncLogger) : (w.appendCurrent data).buffers = w.buffers ∧
      (w.appendCurrent data).nextBuffer = w.nextBuffer ∧
      (w.appendCurrent data).buffA = w.buffA ∧ (w.appendCurrent data).buffB = w.buffB := by
    rw [appendCurrent]
    split <;> exact ⟨rfl, rfl, rfl, rfl⟩
  rw [AsyncLogger.append, appendData, pushes, hb]
  dsimp only
  split
  · rw [List.append_nil, if_pos rfl]
    exact hcurrent w
  · obtain ⟨hbuffers, hnext, hA, hB⟩ := hcurrent w.replaceCurrent
    rw [hbuffers, hnext, hA, hB, replaceCurrent, hb]
    dsimp only
    split
    · exact ⟨rfl, rfl, rfl, rfl⟩
    · rename_i hnone
      exact ⟨rfl, by simpa using hnone, rfl, rfl⟩

end AsyncLogger

/-- A logger, and the buffers that users have pushed since the last swap. -/
structure Rounds where
  logger : AsyncLogger
  pushed : List BufferPtr := []

namespace Rounds

open AsyncLogger

def step (r : Rounds) (a : Action) : Option Rounds :=
  (r.logger.step a).map fun logger => {
    logger
    pushed := match a with
      | .append data => r.pushed ++ r.logger.pushes data
      | .back _ => if r.logger.swaps then [] else r.pushed
      | _ => r.pushed }

/-- A round that comes to its end has taken at most two buffers. -/
def TakesTwo (r : Rounds) : Action → Prop
  | .back _ => r.logger.back = .recycle → r.logger.buffersToWrite.length ≤ 2
  | _ => True

instance (r : Rounds) (a : Action) : Decidable (r.TakesTwo a) :=
  match a with
  | .back _ => inferInstanceAs
      (Decidable (r.logger.back = .recycle → r.logger.buffersToWrite.length ≤ 2))
  | .start | .append _ | .stop | .stopReturns => inferInstanceAs (Decidable True)

/-- The log backend goes back to sleep. -/
structure GoesToSleep (r : Rounds) : Prop where
  /-- At the head of the loop nothing is left of the last round. -/
  left : r.logger.back = .test → r.logger.buffersToWrite = []
  /-- The vector holds what has been pushed since the last swap. -/
  pushed : r.logger.buffers = r.pushed
  settles : r.logger.back = .test → r.logger.running = true → r.logger.Settles

/-- Where the buffers are when no round has left one behind. -/
structure Recycled (r : Rounds) : Prop where
  inv : r.logger.Inv
  left : r.logger.back.hasTaken = false → r.logger.buffersToWrite = []
  pushed : r.logger.buffers = r.pushed
  next : r.logger.nextBuffer.isSome ↔ r.logger.buffers = []
  spareB : r.logger.back.usesA = true → r.logger.buffB.isSome
  takenA : r.logger.back.hasTaken = true → r.logger.buffA = none
  takenB : r.logger.back.hasTaken = true →
    if r.logger.buffB.isSome then r.logger.buffersToWrite.length = 1
    else 2 ≤ r.logger.buffersToWrite.length
  locked : r.logger.back = .locked → r.logger.running = true → r.logger.buffers ≠ []

variable {r r' : Rounds}

/-- With nothing left in the vector, the back thread comes to a wait. -/
theorem Recycled.goesToSleep (h : r.Recycled) : r.GoesToSleep where
  left hback := h.left (by rw [hback]; rfl)
  pushed := h.pushed
  settles hback hrunning :=
    h.inv.settles_of_test hrunning hback (h.left (by rw [hback]; rfl))

/-- The back thread goes on, and touches no buffer. -/
theorem Recycled.goOn (h : r.Recycled) {b : Back} (hinv : Inv { r.logger with back := b })
    (hleft : b.hasTaken = false → r.logger.back.hasTaken = false)
    (htaken : b.hasTaken = true → r.logger.back.hasTaken = true)
    (ha : b.usesA = true → r.logger.back.usesA = true)
    (hlocked : b = .locked → r.logger.running = true → r.logger.buffers ≠ []) :
    Recycled { r with logger.back := b } where
  inv := hinv
  left hb := h.left (hleft hb)
  pushed := h.pushed
  next := h.next
  spareB hb := h.spareB (ha hb)
  takenA hb := h.takenA (htaken hb)
  takenB hb := h.takenB (htaken hb)
  locked := hlocked

/-- The swap: the vector is empty, a spare for the next buffer is there, and the round has one
buffer if no spare was used and at least two otherwise. -/
theorem Recycled.takeAll (h : r.Recycled) (hlocked : r.logger.back = .locked)
    (hinv : Inv { r.logger.takeAll with back := .writing 0 }) :
    Recycled ⟨{ r.logger.takeAll with back := .writing 0 }, []⟩ := by
  have hleft : r.logger.buffersToWrite = [] := h.left (by rw [hlocked]; rfl)
  have hB : r.logger.buffB.isSome := h.spareB (by rw [hlocked]; rfl)
  have hnext := h.next
  rw [AsyncLogger.takeAll] at hinv ⊢
  dsimp only at hinv ⊢
  split at hinv
  · rename_i hnone
    have hbuffers : r.logger.buffers ≠ [] := by
      intro hnil
      rw [← hnext, Option.isNone_iff_eq_none.mp hnone] at hnil
      contradiction
    rw [if_pos hnone]
    exact {
      inv := hinv, left := by simp [Back.hasTaken], pushed := hleft, next := by simp [hB, hleft]
      spareB := by simp [Back.usesA]
      takenA := fun _ => rfl
      takenB := fun _ => by
        have := List.length_pos_iff.mpr hbuffers
        simp
        omega
      locked := by simp }
  · rename_i hnone
    have hsome : r.logger.nextBuffer.isSome := by
      rwa [Bool.not_eq_true, Option.isNone_eq_false_iff] at hnone
    rw [if_neg hnone]
    exact {
      inv := hinv, left := by simp [Back.hasTaken], pushed := hleft, next := by simp [hsome, hleft]
      spareB := by simp [Back.usesA]
      takenA := fun _ => rfl
      takenB := fun _ => by simp [hB, hnext.mp hsome]
      locked := by simp }

/-- A back thread that has left keeps no buffer. -/
theorem Recycled.exit (h : r.Recycled) (hinv : r.logger.exit.Inv) :
    Recycled { r with logger := r.logger.exit } where
  inv := hinv
  left _ := rfl
  pushed := h.pushed
  next := h.next
  spareB := by simp [AsyncLogger.exit, Back.usesA]
  takenA := by simp [AsyncLogger.exit, Back.hasTaken]
  takenB := by simp [AsyncLogger.exit, Back.hasTaken]
  locked := by simp [AsyncLogger.exit]

/-- Recycling takes one buffer of the round, and a second one if the spare was used. -/
theorem recycle_toWrite {w : AsyncLogger} (hA : w.buffA = none) (hne : w.buffersToWrite ≠ []) :
    w.recycleA.recycleB.buffersToWrite =
      (if w.buffB.isSome then w.buffersToWrite.dropLast else w.buffersToWrite.dropLast.dropLast) ∧
    w.recycleA.recycleB.nextBuffer = w.nextBuffer := by
  have hrecycled : w.recycleA = { w with
      buffA := w.buffersToWrite.getLast hne, buffersToWrite := w.buffersToWrite.dropLast } := by
    rw [recycleA, hA, if_neg (by simp), List.getLast?_eq_some_getLast hne]
  rw [hrecycled, recycleB]
  dsimp only
  split
  · exact ⟨rfl, rfl⟩
  · cases hlast : w.buffersToWrite.dropLast.getLast? with
    | none =>
      rw [List.getLast?_eq_none_iff] at hlast
      exact ⟨by simp [hlast], rfl⟩
    | some b => exact ⟨rfl, rfl⟩

/-- Of two buffers that were taken, one becomes the second spare. -/
theorem recycle_spareB {w : AsyncLogger} (h : w.Inv) (hback : w.back = .recycle)
    (hA : w.buffA = none) (htwo : w.buffB = none → 2 ≤ w.buffersToWrite.length) :
    w.recycleA.recycleB.buffB.isSome := by
  have hne : w.buffersToWrite ≠ [] := h.taken (by rw [hback]; rfl) hA
  rw [recycleA, hA, if_neg (by simp), List.getLast?_eq_some_getLast hne]
  rw [recycleB]
  dsimp only
  cases hB : w.buffB with
  | some b => rfl
  | none =>
    have hlength := htwo hB
    have hrest : w.buffersToWrite.dropLast ≠ [] := by
      rw [← List.length_pos_iff, List.length_dropLast]
      omega
    rw [if_neg (by simp), List.getLast?_eq_some_getLast hrest]
    exact h.toWrite _ (List.mem_of_mem_dropLast (List.getLast_mem hrest))

/-- With two buffers or fewer, recycling hands all of them back. -/
theorem Recycled.recycle (h : r.Recycled) (hback : r.logger.back = .recycle)
    (hguard : r.logger.buffersToWrite.length ≤ 2)
    (hinv : Inv { r.logger.recycleA.recycleB with back := .test }) :
    Recycled { r with logger := { r.logger.recycleA.recycleB with back := .test } } := by
  have hA : r.logger.buffA = none := h.takenA (by rw [hback]; rfl)
  have hB := h.takenB (by rw [hback]; rfl)
  have hne : r.logger.buffersToWrite ≠ [] := h.inv.taken (by rw [hback]; rfl) hA
  obtain ⟨htoWrite, hnext⟩ := recycle_toWrite hA hne
  have hvector := r.logger.recycle_same.2
  have hspare : r.logger.recycleA.recycleB.buffB.isSome :=
    recycle_spareB h.inv hback hA fun hnone => by simpa [hnone] using hB
  refine ⟨hinv, fun _ => ?_, hvector.trans h.pushed, ?_, fun _ => hspare, ?_, ?_, ?_⟩
  · refine htoWrite.trans (List.eq_nil_of_length_eq_zero ?_)
    split
    · rename_i hsome
      rw [if_pos hsome] at hB
      rw [List.length_dropLast]
      omega
    · rw [List.length_dropLast, List.length_dropLast]
      omega
  · rw [hnext, hvector]
    exact h.next
  · simp [Back.hasTaken]
  · simp [Back.hasTaken]
  · simp

/-- Within a round only the file and the buffers of the round change. -/
theorem Recycled.within (h : r.Recycled) {w : AsyncLogger} {b : Back}
    (hinv : Inv { w with back := b })
    (htaken : r.logger.back.hasTaken = true) (hb : b.hasTaken = true ∧ b.usesA = false)
    (hlength : w.buffersToWrite.length = r.logger.buffersToWrite.length)
    (hsame : (w.buffers, w.nextBuffer, w.buffA, w.buffB) =
      (r.logger.buffers, r.logger.nextBuffer, r.logger.buffA, r.logger.buffB)) :
    Recycled { r with logger := { w with back := b } } := by
  simp only [Prod.mk.injEq] at hsame
  obtain ⟨hbuffers, hnext, hA, hB⟩ := hsame
  refine ⟨hinv, fun hnot => ?_, hbuffers.trans h.pushed, ?_, fun hu => ?_, fun _ => ?_, fun _ => ?_,
    fun hl => ?_⟩
  · rw [show b.hasTaken = false from hnot] at hb
    exact absurd hb.1 (by simp)
  · rw [hnext, hbuffers]
    exact h.next
  · rw [show b.usesA = true from hu] at hb
    exact absurd hb.2 (by simp)
  · exact hA.trans (h.takenA htaken)
  · rw [hB, hlength]
    exact h.takenB htaken
  · rw [show b = .locked from hl] at hb
    exact absurd hb.1 (by simp [Back.hasTaken])

/-- The back thread leaves no buffer behind if the round that ends has taken at most two. -/
theorem Recycled.backStep (h : r.Recycled) {now : Date} {w : AsyncLogger}
    (hguard : r.logger.back = .recycle → r.logger.buffersToWrite.length ≤ 2)
    (hstep : r.logger.backStep now = some w) :
    Recycled { logger := w, pushed := if r.logger.swaps then [] else r.pushed } := by
  have hinv := h.inv.backStep hstep
  have hkept (hback : r.logger.back ≠ .locked) :
      (if r.logger.swaps then [] else r.pushed) = r.pushed := if_neg fun hs => hback hs.1
  rw [AsyncLogger.backStep] at hstep
  cases hback : r.logger.back with
  | absent => simp [hback] at hstep
  | exited => simp [hback] at hstep
  | «begin» =>
    simp only [hback, Option.some.injEq] at hstep
    subst hstep
    rw [hkept (by simp [hback])]
    exact { h with inv := hinv, left := fun _ => rfl, spareB := fun _ => rfl
                   takenA := by simp [Back.hasTaken]
                   takenB := by simp [Back.hasTaken], locked := by simp }
  | test =>
    simp only [hback, Option.some.injEq] at hstep
    rw [hkept (by simp [hback])]
    split at hstep
    · subst hstep
      exact h.goOn hinv (fun _ => by rw [hback]; rfl) (by simp [Back.hasTaken])
        (fun _ => by rw [hback]; rfl) (by simp)
    · subst hstep
      exact h.exit hinv
  | wait =>
    simp only [hback] at hstep
    obtain ⟨hwakes, hw⟩ := Option.ite_none_right_eq_some.mp hstep
    obtain rfl := Option.some.inj hw
    rw [hkept (by simp [hback])]
    refine h.goOn hinv (fun _ => by rw [hback]; rfl) (by simp [Back.hasTaken])
      (fun _ => by rw [hback]; rfl) ?_
    intro _ hrunning hnil
    simp [wakes, hrunning, hnil] at hwakes
  | locked =>
    simp only [hback, Option.some.injEq] at hstep
    rw [h.inv.critical_eq] at hstep
    split at hstep
    · rename_i htake
      subst hstep
      rw [if_pos ⟨hback, htake⟩]
      exact h.takeAll hback hinv
    · rename_i htake
      have hrunning : r.logger.running = false := by
        by_contra hrunning
        exact htake (somethingToTake_of_ne (h.locked hback (by simpa using hrunning)))
      rw [if_pos (by simp [hrunning])] at hstep
      subst hstep
      rw [if_neg fun hs => htake hs.2]
      exact h.exit hinv
  | writing i =>
    have htaken : r.logger.back.hasTaken = true := by rw [hback]; rfl
    simp only [hback] at hstep
    rw [hkept (by simp [hback])]
    split at hstep
    · rename_i b hb
      obtain rfl := Option.some.inj hstep
      refine h.within hinv htaken ⟨rfl, rfl⟩ ?_ ?_ <;> cases b <;> rfl
    · obtain rfl := Option.some.inj hstep
      exact h.within hinv htaken ⟨rfl, rfl⟩ rfl rfl
  | retrieving i =>
    have htaken : r.logger.back.hasTaken = true := by rw [hback]; rfl
    simp only [hback] at hstep
    rw [hkept (by simp [hback])]
    split at hstep
    · rename_i b hb
      obtain rfl := Option.some.inj hstep
      refine h.within hinv htaken ⟨rfl, rfl⟩ (r.logger.retrieveBuffer_same i b).2.2 ?_
      cases b <;> rfl
    · obtain rfl := Option.some.inj hstep
      exact h.within hinv htaken ⟨rfl, rfl⟩ rfl rfl
  | recycle =>
    simp only [hback, Option.some.injEq] at hstep
    subst hstep
    rw [hkept (by simp [hback])]
    exact h.recycle hback (hguard hback) hinv

/-- A round that takes two buffers at most leaves none behind. -/
theorem Recycled.step {a : Action} (h : r.Recycled) (hguard : r.TakesTwo a)
    (hstep : r.step a = some r') : r'.Recycled := by
  obtain ⟨w, hw, rfl⟩ := Option.map_eq_some_iff.mp hstep
  have hinv := h.inv.step hw
  cases a with
  | start =>
    rw [AsyncLogger.step] at hw
    split at hw
    · cases hw
      exact h
    · obtain ⟨⟨hback, -⟩, hw⟩ := Option.ite_none_right_eq_some.mp hw
      cases hw
      exact { h with inv := hinv, left := fun _ => h.left (by rw [hback]; rfl)
                     spareB := by simp [Back.usesA], takenA := by simp [Back.hasTaken]
                     takenB := by simp [Back.hasTaken], locked := by simp }
  | append data =>
    obtain ⟨hback, hw⟩ := Option.ite_none_left_eq_some.mp hw
    cases hw
    obtain ⟨hbuffers, hnext, hA, hB⟩ := append_spec h.inv data
    obtain ⟨-, hsame, htoWrite, -⟩ := r.logger.append_frame data
    refine ⟨hinv, ?_, ?_, ?_, ?_, ?_, ?_, ?_⟩
    · rw [hsame, htoWrite]
      exact h.left
    · rw [hbuffers, h.pushed]
    · rw [hnext, hbuffers, List.append_eq_nil_iff]
      split
      · rename_i hnone
        rw [h.next]
        simp [hnone]
      · rename_i hsome
        simp [hsome]
    · rw [hsame, hB]
      exact h.spareB
    · rw [hsame, hA]
      exact h.takenA
    · rw [hsame, hB, htoWrite]
      exact h.takenB
    · rw [hsame]
      exact fun hlocked => absurd hlocked hback
  | stop =>
    rw [AsyncLogger.step] at hw
    split at hw <;> cases hw
    · exact { h with inv := hinv, locked := by simp }
    · exact { h with inv := hinv }
  | stopReturns =>
    rw [AsyncLogger.step] at hw
    split at hw
    · obtain ⟨hback, hw⟩ := Option.ite_none_right_eq_some.mp hw
      cases hw
      exact { h with inv := hinv, left := fun _ => h.left (by rw [hback]; rfl)
                     spareB := by simp [Back.usesA], takenA := by simp [Back.hasTaken]
                     takenB := by simp [Back.hasTaken], locked := by simp }
    · contradiction
  | back now => exact h.backStep hguard hw

/-- A round that took more than two buffers leaves one behind. -/
theorem Recycled.takesTwo {a : Action} (h : r.Recycled) (hstep : r.step a = some r')
    (hsleeps : r'.GoesToSleep) : r.TakesTwo a := by
  obtain ⟨w, hw, rfl⟩ := Option.map_eq_some_iff.mp hstep
  cases a with
  | back now =>
    intro hback
    have hA : r.logger.buffA = none := h.takenA (by rw [hback]; rfl)
    have hne : r.logger.buffersToWrite ≠ [] := h.inv.taken (by rw [hback]; rfl) hA
    rw [AsyncLogger.step, AsyncLogger.backStep, hback] at hw
    obtain rfl := Option.some.inj hw
    have hleft := (recycle_toWrite hA hne).1.symm.trans (hsleeps.left rfl)
    have hlength := congrArg List.length hleft
    split at hlength
    · rw [List.length_dropLast, List.length_nil] at hlength
      omega
    · rw [List.length_dropLast, List.length_dropLast, List.length_nil] at hlength
      omega
  | _ => exact trivial

/-- A new logger has both its spares. -/
theorem recycled_new {file : LogFile} (hcoherent : file.Coherent) (hbytes : file.bytes = []) :
    Recycled { logger := new file } where
  inv := inv_new hcoherent hbytes
  left _ := rfl
  pushed := rfl
  next := by simp [new]
  spareB := by simp [new, Back.usesA]
  takenA := by simp [new, Back.hasTaken]
  takenB := by simp [new, Back.hasTaken]
  locked := by simp [new]

/-- All along a run nothing is left at the head of the loop, the vector holds what has been pushed
since the last swap, and the back thread left to itself goes to sleep, exactly if every round of
the run that has ended took at most two buffers. -/
theorem goesToSleep_iff_of_run {name : String} {rollSize : Nat} {logDir : String}
    {disk : String → Option Bytes} {sequence hasWritenBytes : Nat} {as : List Action}
    (hrun : Run step anyStep
      { logger := new (.new name rollSize logDir disk sequence hasWritenBytes) } as r) :
    Always step { logger := new (.new name rollSize logDir disk sequence hasWritenBytes) } as
        GoesToSleep ↔
      Run step TakesTwo
        { logger := new (.new name rollSize logDir disk sequence hasWritenBytes) } as r :=
  hrun.always_iff_of_invariant (recycled_new (LogFile.coherent_new _ _ _ _ _ _) rfl)
    (fun _ h => h.goesToSleep) (fun _ _ _ h hguard hstep => h.step hguard hstep)
    (fun _ _ _ h hstep hsleeps => h.takesTwo hstep hsleeps)

theorem goesToSleep_iff_of_run_twoRounds :
    ∃ r, Run step anyStep { logger := new (.new "app" 100 "logs" (fun _ => none) 0 0) }
        twoRounds r ∧
      (Always step { logger := new (.new "app" 100 "logs" (fun _ => none) 0 0) } twoRounds
          GoesToSleep ↔
        Run step TakesTwo { logger := new (.new "app" 100 "logs" (fun _ => none) 0 0) }
          twoRounds r) := by
  obtain ⟨r, hr⟩ := Option.isSome_iff_exists.mp
    (show (replay step anyStep { logger := new (.new "app" 100 "logs" (fun _ => none) 0 0) }
      twoRounds).isSome by decide +kernel)
  exact ⟨r, .of_replay hr, goesToSleep_iff_of_run (.of_replay hr)⟩

end Rounds

/-! ## Rounds for ever -/

namespace AsyncLogger

variable {w w' : AsyncLogger} {now : Date}

/-- Two rounds have left buffers behind, one lot in each vector. -/
structure Spins (w : AsyncLogger) : Prop where
  running : w.running = true
  buffers : w.buffers ≠ []
  next : w.nextBuffer.isSome
  spareB : w.buffB.isSome
  left : w.back.usesA = true → w.buffersToWrite ≠ []
  taken : w.back.hasTaken = true → 2 ≤ w.buffersToWrite.length
  place : w.back.usesA = true ∨ w.back.hasTaken = true

/-- What is left over from one round is swapped into the next one. -/
theorem Spins.critical (h : w.Spins) (hlocked : w.back = .locked) : w.critical.Spins := by
  have hleft := h.left (by rw [hlocked]; rfl)
  have hcheck : w.checkCurrent = w := by
    rw [checkCurrent, if_neg]
    simp [h.buffers]
  have hlength := List.length_pos_iff.mpr h.buffers
  have hnext : ¬w.nextBuffer.isNone = true := by
    rw [Bool.not_eq_true, Option.isNone_eq_false_iff]
    exact h.next
  rw [AsyncLogger.critical, hcheck]
  dsimp only
  rw [if_pos (somethingToTake_of_ne h.buffers), takeAll]
  dsimp only
  rw [if_neg hnext]
  exact {
    running := h.running, buffers := hleft, next := h.next, spareB := h.spareB
    left := by simp [Back.usesA]
    taken := fun _ => by
      rw [List.length_append, List.length_singleton]
      omega
    place := .inr rfl }

/-- Recycling takes at most one buffer of the round, and leaves the others. -/
theorem Spins.recycle (h : w.Spins) (hback : w.back = .recycle) :
    Spins { w.recycleA.recycleB with back := .test } := by
  have htwo := h.taken (by rw [hback]; rfl)
  have hne : w.buffersToWrite ≠ [] := List.length_pos_iff.mp (by omega)
  have hrest : w.buffersToWrite.dropLast ≠ [] := by
    rw [← List.length_pos_iff, List.length_dropLast]
    omega
  have hB : w.recycleA.recycleB = w.recycleA ∧ w.recycleA.buffersToWrite ≠ [] ∧
      (w.recycleA.running, w.recycleA.buffers, w.recycleA.nextBuffer, w.recycleA.buffB) =
        (w.running, w.buffers, w.nextBuffer, w.buffB) := by
    rw [recycleB, recycleA]
    split
    · exact ⟨if_pos h.spareB, hne, rfl⟩
    · rw [List.getLast?_eq_some_getLast hne]
      exact ⟨if_pos h.spareB, hrest, rfl⟩
  obtain ⟨hsame, hleft, hfields⟩ := hB
  simp only [Prod.mk.injEq] at hfields
  obtain ⟨hrunning, hbuffers, hnext, hspare⟩ := hfields
  rw [hsame]
  exact {
    running := hrunning.trans h.running
    buffers := fun hnil => h.buffers (hbuffers.symm.trans hnil)
    next := by rw [hnext]; exact h.next
    spareB := by rw [hspare]; exact h.spareB
    left := fun _ => hleft
    taken := by simp [Back.hasTaken]
    place := .inl rfl }

/-- Within a round the buffers of the round keep their number. -/
theorem Spins.within (h : w.Spins) {b : Back} (htaken : w.back.hasTaken = true)
    (hb : b.hasTaken = true ∧ b.usesA = false)
    (hlength : w'.buffersToWrite.length = w.buffersToWrite.length)
    (hsame : (w'.running, w'.buffers, w'.nextBuffer, w'.buffB) =
      (w.running, w.buffers, w.nextBuffer, w.buffB)) : Spins { w' with back := b } := by
  simp only [Prod.mk.injEq] at hsame
  obtain ⟨hrunning, hbuffers, hnext, hB⟩ := hsame
  refine ⟨hrunning.trans h.running, ?_, ?_, ?_, fun hu => ?_, fun _ => ?_, .inr hb.1⟩
  · rw [hbuffers]
    exact h.buffers
  · rw [hnext]
    exact h.next
  · rw [hB]
    exact h.spareB
  · rw [show b.usesA = true from hu] at hb
    exact absurd hb.2 (by simp)
  · rw [hlength]
    exact h.taken htaken

/-- The back thread goes round without a wait. -/
theorem Spins.backStep (h : w.Spins) (hstep : w.backStep now = some w') : w'.Spins := by
  have hplace := h.place
  rw [AsyncLogger.backStep] at hstep
  cases hback : w.back with
  | absent => simp [hback, Back.usesA, Back.hasTaken] at hplace
  | exited => simp [hback, Back.usesA, Back.hasTaken] at hplace
  | «begin» => simp [hback, Back.usesA, Back.hasTaken] at hplace
  | test =>
    simp only [hback] at hstep
    rw [if_pos h.running] at hstep
    obtain rfl := Option.some.inj hstep
    exact { h with left := fun _ => h.left (by rw [hback]; rfl)
                   taken := by simp [Back.hasTaken], place := .inl rfl }
  | wait =>
    simp only [hback] at hstep
    obtain ⟨-, hw⟩ := Option.ite_none_right_eq_some.mp hstep
    obtain rfl := Option.some.inj hw
    exact { h with left := fun _ => h.left (by rw [hback]; rfl)
                   taken := by simp [Back.hasTaken], place := .inl rfl }
  | locked =>
    simp only [hback, Option.some.injEq] at hstep
    subst hstep
    exact h.critical hback
  | writing i =>
    have htaken : w.back.hasTaken = true := by rw [hback]; rfl
    simp only [hback] at hstep
    split at hstep
    · rename_i b hb
      obtain rfl := Option.some.inj hstep
      refine h.within htaken ⟨rfl, rfl⟩ ?_ ?_ <;> cases b <;> rfl
    · obtain rfl := Option.some.inj hstep
      exact h.within htaken ⟨rfl, rfl⟩ rfl rfl
  | retrieving i =>
    have htaken : w.back.hasTaken = true := by rw [hback]; rfl
    simp only [hback] at hstep
    split at hstep
    · rename_i b hb
      obtain rfl := Option.some.inj hstep
      refine h.within htaken ⟨rfl, rfl⟩ (w.retrieveBuffer_same i b).2.2 ?_
      cases b <;> rfl
    · obtain rfl := Option.some.inj hstep
      exact h.within htaken ⟨rfl, rfl⟩ rfl rfl
  | recycle =>
    simp only [hback, Option.some.injEq] at hstep
    subst hstep
    exact h.recycle hback

/-- The back thread does not sleep again. -/
theorem Spins.not_settles (h : w.Spins) : ¬w.Settles := by
  intro hsettles
  induction hsettles with
  | blocked hback hwakes =>
    rw [wakes_of_ne h.buffers] at hwakes
    contradiction
  | @goesOn w hsome _ ih =>
    obtain ⟨w', hstep⟩ := Option.isSome_iff_exists.mp (hsome ⟨0, 0, 0⟩)
    exact ih _ w' hstep (h.backStep hstep)

/-- Two bursts of two messages, each before a round. -/
def twoBursts : List Action :=
  [.start, .append [1], .append [2]] ++ backSteps 13 ++ [.append [3], .append [4]] ++ backSteps 12

/-- After two bursts everything has been written, buffers are left over, and the back thread does
not sleep again. -/
theorem awake_after_twoBursts :
    ∃ r : Rounds,
      Run Rounds.step anyStep { logger := new (.new "app" 100 "logs" (fun _ => none) 0 0) }
        twoBursts r ∧
      r.logger.back = .test ∧ r.logger.running = true ∧
      r.logger.file.bytes = r.logger.appended ∧ r.logger.buffersToWrite ≠ [] ∧
      ¬r.logger.Settles := by
  obtain ⟨r, hr, hleft⟩ := (Option.any_eq_true _ _).mp
    (show (replay Rounds.step anyStep { logger := new (.new "app" 100 "logs" (fun _ => none) 0 0) }
      twoBursts).any fun r =>
        r.logger.back = .test ∧ r.logger.running = true ∧
        r.logger.file.bytes = r.logger.appended ∧ r.logger.buffersToWrite ≠ [] ∧
        r.logger.buffers ≠ [] ∧ r.logger.nextBuffer.isSome ∧ r.logger.buffB.isSome by
      decide +kernel)
  obtain ⟨hback, hrunning, hwritten, htoWrite, hbuffers, hnext, hspare⟩ := of_decide_eq_true hleft
  have hspins : r.logger.Spins := {
    running := hrunning, buffers := hbuffers, next := hnext, spareB := hspare
    left := fun _ => htoWrite
    taken := fun ht => by rw [hback] at ht; contradiction
    place := .inl (by rw [hback]; rfl) }
  exact ⟨r, .of_replay hr, hback, hrunning, hwritten, htoWrite, hspins.not_settles⟩

end AsyncLogger

end ClearMoon.Log
