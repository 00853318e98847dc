import ClearMoon.Timer.Cancel
import ClearMoon.Tcp.Machine

/-!
# The retransmission delay

`caculate_backoff_jitter` draws a delay between zero and a cap that doubles with every retry up to
a maximum. Here the loop that computes the cap is given over the integers of the machine; it ends
after at most 32 passes, no product overflows, and the cap is the saturated one. The base and the
maximum with which `resetRetransmitTimer` calls it are 1 and 10, and the function counts
milliseconds.
-/

namespace ClearMoon.Tcp

open ClearMoon.Timer

/-! ## The cap over the integers -/

/-- A cap that is past half the maximum reaches the maximum with one more doubling. -/
theorem le_mul_two_pow {cap max_delay_ms retries : Nat} (h : cap > max_delay_ms / 2)
    (hretries : 0 < retries) : max_delay_ms ≤ cap * 2 ^ retries := by
  have hpow : 2 ≤ 2 ^ retries := by
    obtain ⟨r, rfl⟩ := Nat.exists_eq_succ_of_ne_zero hretries.ne'
    rw [pow_succ]
    have := Nat.one_le_two_pow (n := r)
    omega
  calc max_delay_ms ≤ cap * 2 := by omega
    _ ≤ cap * 2 ^ retries := Nat.mul_le_mul_left cap hpow

/-- Cut off at the bound, the loop's delay is the doubled one. -/
theorem backoffLoop_min (max_delay_ms retries cap_ms : Nat) :
    min (backoffLoop max_delay_ms retries cap_ms) max_delay_ms =
      min (cap_ms * 2 ^ retries) max_delay_ms := by
  induction retries generalizing cap_ms with
  | zero => rw [backoffLoop, pow_zero, mul_one]
  | succ retries ih =>
    rw [backoffLoop]
    split
    · rename_i hpast
      rw [Nat.min_self, Nat.min_eq_right (le_mul_two_pow hpast (Nat.succ_pos retries))]
    · rw [ih, pow_succ', mul_assoc]

/-- The delay is drawn up to the saturated cap. -/
theorem caculate_backoff_jitter_eq (base_delay_ms retries max_delay_ms draw : Nat) :
    caculate_backoff_jitter base_delay_ms retries max_delay_ms draw =
      draw % (min (base_delay_ms * 2 ^ retries) max_delay_ms + 1) := by
  rw [caculate_backoff_jitter, backoffLoop_min]

/-! ## The loop over the integers of the machine -/

/-- The loop of `caculate_backoff_jitter` from its pass `i` on: `cap_ms` where it ends, and how
many passes have begun. No result if `cap_ms *= 2` overflows, or if `fuel` does not suffice. -/
def capLoop (retries max_delay_ms : UInt32) (cap_ms : UInt64) (i : Nat) :
    Nat → Option (UInt64 × Nat)
  | 0 => none
  | fuel + 1 =>
    if i < retries.toNat then
      if cap_ms > (max_delay_ms / 2).toUInt64 then some (max_delay_ms.toUInt64, i + 1)
      else if cap_ms.toNat * 2 < 2 ^ 64 then
        capLoop retries max_delay_ms (cap_ms * 2) (i + 1) fuel
      else none
    else some (cap_ms, i)

/-- The cap after the loop and `std::min`. -/
def capMs (base_delay_ms retries max_delay_ms : UInt32) (fuel : Nat) : Option (UInt64 × Nat) :=
  (capLoop retries max_delay_ms base_delay_ms.toUInt64 0 fuel).map fun (cap_ms, passes) =>
    (min cap_ms max_delay_ms.toUInt64, passes)

variable {base_delay_ms retries : UInt32}

/-- Doubling stops before `cap_ms` leaves 32 bits, and it can do so at most 31 times. -/
theorem capLoop_spec (max_delay_ms : UInt32) {cap_ms : UInt64} {i fuel : Nat}
    (hbase : 1 ≤ base_delay_ms.toNat)
    (hcap : cap_ms.toNat = base_delay_ms.toNat * 2 ^ i) (hlt : cap_ms.toNat < 2 ^ 32)
    (hi : i ≤ retries.toNat) (hfuel : 32 < fuel + i) :
    ∃ cap passes, capLoop retries max_delay_ms cap_ms i fuel = some (cap, passes) ∧ passes ≤ 32 ∧
      min cap.toNat max_delay_ms.toNat =
        min (base_delay_ms.toNat * 2 ^ retries.toNat) max_delay_ms.toNat := by
  have hsmall : i < 32 := by
    have hpow : 2 ^ i < 2 ^ 32 := by
      have := Nat.le_mul_of_pos_left (2 ^ i) hbase
      omega
    exact (Nat.pow_lt_pow_iff_right (by decide)).mp hpow
  have hmax := max_delay_ms.toNat_lt
  induction fuel generalizing cap_ms i with
  | zero => omega
  | succ fuel ih =>
    rw [capLoop]
    by_cases hretry : i < retries.toNat
    · rw [if_pos hretry]
      have hrest : base_delay_ms.toNat * 2 ^ retries.toNat =
          cap_ms.toNat * 2 ^ (retries.toNat - i) := by
        rw [hcap, mul_assoc, ← pow_add, Nat.add_sub_cancel' hi]
      by_cases hpast : cap_ms > (max_delay_ms / 2).toUInt64
      · rw [if_pos hpast]
        have hpast : cap_ms.toNat > max_delay_ms.toNat / 2 := by
          have := UInt64.lt_iff_toNat_lt.mp hpast
          simpa using this
        refine ⟨_, _, rfl, hsmall, ?_⟩
        rw [hrest, Nat.min_eq_right (le_mul_two_pow hpast (by omega))]
        simp
      · rw [if_neg hpast]
        have hpast : cap_ms.toNat ≤ max_delay_ms.toNat / 2 := by
          have := UInt64.le_iff_toNat_le.mp (UInt64.not_lt.mp hpast)
          simpa using this
        have hdouble : (cap_ms * 2).toNat = cap_ms.toNat * 2 := by
          rw [UInt64.toNat_mul]
          exact Nat.mod_eq_of_lt (show cap_ms.toNat * 2 < 2 ^ 64 by omega)
        rw [if_pos (by omega)]
        have hnext : (cap_ms * 2).toNat = base_delay_ms.toNat * 2 ^ (i + 1) := by
          rw [hdouble, hcap, pow_succ, mul_assoc]
        have hnextlt : (cap_ms * 2).toNat < 2 ^ 32 := by omega
        have hnextsmall : i + 1 < 32 := by
          have hpow : 2 ^ (i + 1) < 2 ^ 32 := by
            have := Nat.le_mul_of_pos_left (2 ^ (i + 1)) hbase
            omega
          exact (Nat.pow_lt_pow_iff_right (by decide)).mp hpow
        exact ih hnext hnextlt hretry (by omega) hnextsmall
    · rw [if_neg hretry]
      obtain rfl : i = retries.toNat := by omega
      exact ⟨cap_ms, _, rfl, hsmall.le, by rw [hcap]⟩

/-- The lesser of two words is the lesser of their values. -/
theorem toNat_min (a b : UInt64) : (min a b).toNat = min a.toNat b.toNat := by
  change (if a ≤ b then a else b).toNat = _
  split
  · rename_i h
    rw [min_eq_left (UInt64.le_iff_toNat_le.mp h)]
  · rename_i h
    rw [UInt64.le_iff_toNat_le, not_le] at h
    rw [min_eq_right h.le]

/-- The cap in closed form; the loop is over after at most 32 passes. -/
theorem capMs_spec (hbase : 1 ≤ base_delay_ms) (retries max_delay_ms : UInt32) :
    ∃ cap passes, capMs base_delay_ms retries max_delay_ms 33 = some (cap, passes) ∧ passes ≤ 32 ∧
      cap.toNat = min (base_delay_ms.toNat * 2 ^ retries.toNat) max_delay_ms.toNat := by
  have hpos : 1 ≤ base_delay_ms.toNat := UInt32.le_iff_toNat_le.mp hbase
  have hstart : base_delay_ms.toUInt64.toNat = base_delay_ms.toNat * 2 ^ 0 := by simp
  have hlt : base_delay_ms.toUInt64.toNat < 2 ^ 32 := by simpa using base_delay_ms.toNat_lt
  obtain ⟨cap, passes, hloop, hpasses, hmin⟩ :=
    capLoop_spec max_delay_ms hpos hstart hlt (Nat.zero_le retries.toNat)
      (show 32 < 33 + 0 by decide)
  refine ⟨min cap max_delay_ms.toUInt64, passes, by rw [capMs, hloop]; rfl, hpasses, ?_⟩
  rw [toNat_min, ← hmin, UInt32.toNat_toUInt64]

/-- The loop ends within 33 passes with no product overflowing, its cap is the saturated one and
grows with the retries, and no delay is greater than the cap. -/
theorem backoff_saturates (hbase : 1 ≤ base_delay_ms) (retries max_delay_ms : UInt32) :
    ∃ cap passes, capMs base_delay_ms retries max_delay_ms 33 = some (cap, passes) ∧ passes ≤ 33 ∧
      cap.toNat = min (base_delay_ms.toNat * 2 ^ retries.toNat) max_delay_ms.toNat ∧
      (∀ retries' cap' passes', retries ≤ retries' →
        capMs base_delay_ms retries' max_delay_ms 33 = some (cap', passes') → cap ≤ cap') ∧
      ∀ draw, caculate_backoff_jitter base_delay_ms.toNat retries.toNat max_delay_ms.toNat draw ≤
        cap.toNat := by
  obtain ⟨cap, passes, hcap, hpasses, heq⟩ := capMs_spec hbase retries max_delay_ms
  refine ⟨cap, passes, hcap, by omega, heq, ?_, fun draw => ?_⟩
  · intro retries' cap' passes' hle hcap'
    obtain ⟨cap'', passes'', hcap'', -, heq'⟩ := capMs_spec hbase retries' max_delay_ms
    obtain ⟨rfl, -⟩ := Prod.mk.inj (Option.some.inj (hcap'.symm.trans hcap''))
    rw [UInt64.le_iff_toNat_le, heq, heq']
    have hpow : 2 ^ retries.toNat ≤ 2 ^ retries'.toNat :=
      Nat.pow_le_pow_right (by decide) (UInt32.le_iff_toNat_le.mp hle)
    exact min_le_min_right _ (Nat.mul_le_mul_left _ hpow)
  · rw [caculate_backoff_jitter_eq, heq]
    exact Nat.lt_succ_iff.mp (Nat.mod_lt _ (Nat.succ_pos _))

/-- The smallest base, the largest maximum and more retries than there are bits. -/
theorem backoff_saturates_largest :
    (1 : UInt32) ≤ 1 ∧
    ∃ cap passes, capMs 1 40 4294967295 33 = some (cap, passes) ∧ passes ≤ 33 ∧
      cap.toNat = min ((1 : UInt32).toNat * 2 ^ (40 : UInt32).toNat) (4294967295 : UInt32).toNat ∧
      (∀ retries' cap' passes', 40 ≤ retries' →
        capMs 1 retries' 4294967295 33 = some (cap', passes') → cap ≤ cap') ∧
      ∀ draw, caculate_backoff_jitter (1 : UInt32).toNat (40 : UInt32).toNat
        (4294967295 : UInt32).toNat draw ≤ cap.toNat :=
  ⟨by decide, backoff_saturates (by decide) 40 4294967295⟩

/-! ## The delay of a retransmission -/

namespace TcpLoop

variable {w : TcpLoop} {node : RetransmitNode} {env : Env}

/-- The delays, in microseconds, after which a timer set by `resetRetransmitTimer` may expire,
over all states of the generator. -/
def retransmitDelays (w : TcpLoop) (node : RetransmitNode) (env : Env) : Set Int :=
  {micros | ∃ draw t,
    (w.resetRetransmitTimer node { env with draw }).timers.queue.heap.get? env.timer = some t ∧
      t.expiration = w.timers.clock + micros}

/-- Cancelling creates no timer, and takes no time. -/
theorem cancel_free (w : TcpLoop) (id : Option TimerId) {timer : Addr}
    (hfree : w.timers.queue.heap.get? timer = none) :
    (w.cancel id).timers.queue.heap.get? timer = none ∧
      (w.cancel id).timers.clock = w.timers.clock := by
  cases id with
  | none => exact ⟨hfree, rfl⟩
  | some id =>
    refine ⟨?_, rfl⟩
    by_contra hlive
    obtain ⟨t, ht⟩ := Option.ne_none_iff_exists'.mp hlive
    rw [(w.timers.queue.cancelInLoop_frame id).1 timer t ht] at hfree
    contradiction

/-- The timer of `runAfter` expires when the delay is over, and does not repeat. -/
theorem runAfter_get? (micros : Int) (cb : Task) {timer : Addr}
    (hfree : w.timers.queue.heap.get? timer = none) :
    (w.runAfter micros cb timer).2.timers.queue.heap.get? timer =
      some (.create cb (w.timers.clock + micros) .zero w.timers.queue.heap.born) := by
  rw [runAfter, dif_pos hfree]
  dsimp only
  rw [(TimerQueue.addTimerInLoop_frame _ timer w.timers.clock).1, TimerQueue.get?_addTimer,
    if_pos rfl]

/-- A timer set by `resetRetransmitTimer` expires after so many milliseconds as were drawn. -/
theorem mem_retransmitDelays (hfree : w.timers.queue.heap.get? env.timer = none) (micros : Int) :
    micros ∈ w.retransmitDelays node env ↔ ∃ draw : Nat,
      micros = (draw % (min (2 ^ node.entry.retries) 10 + 1) : Nat) * 1000 := by
  have hexpires (draw : Nat) :
      ∃ t, (w.resetRetransmitTimer node { env with draw }).timers.queue.heap.get? env.timer =
        some t ∧ t.expiration = w.timers.clock +
          (draw % (min (2 ^ node.entry.retries) 10 + 1) : Nat) * 1000 := by
    obtain ⟨hfree, hclock⟩ := w.cancel_free node.entry.timerId hfree
    refine ⟨_, runAfter_get? _ _ hfree, ?_⟩
    rw [caculate_backoff_jitter_eq, hclock, show kBaseTimeout = 1 from rfl, one_mul]
    rfl
  constructor
  · rintro ⟨draw, t, ht, hexpiration⟩
    obtain ⟨t', ht', hexpiration'⟩ := hexpires draw
    obtain rfl := Option.some.inj (ht.symm.trans ht')
    exact ⟨draw, by omega⟩
  · rintro ⟨draw, rfl⟩
    obtain ⟨t, ht, hexpiration⟩ := hexpires draw
    exact ⟨draw, t, ht, hexpiration⟩

/-- The greatest delay of a retransmission is the minimum of `2 ^ retries` and 10 milliseconds,
and so never that of `1000 * 2 ^ retries` and 10000 milliseconds. -/
theorem greatest_retransmitDelay (hfree : w.timers.queue.heap.get? env.timer = none) :
    IsGreatest (w.retransmitDelays node env) (min (2 ^ node.entry.retries) 10 * 1000) ∧
      ¬IsGreatest (w.retransmitDelays node env)
        (min (1000 * 2 ^ node.entry.retries) 10000 * 1000) := by
  have hgreatest : IsGreatest (w.retransmitDelays node env)
      (min (2 ^ node.entry.retries) 10 * 1000) := by
    constructor
    · refine (mem_retransmitDelays hfree _).mpr ⟨min (2 ^ node.entry.retries) 10, ?_⟩
      rw [Nat.mod_eq_of_lt (Nat.lt_succ_self _)]
      push_cast
      rfl
    · intro micros hmicros
      obtain ⟨draw, rfl⟩ := (mem_retransmitDelays hfree _).mp hmicros
      have hle : draw % (min (2 ^ node.entry.retries) 10 + 1) ≤ min (2 ^ node.entry.retries) 10 :=
        Nat.lt_succ_iff.mp (Nat.mod_lt _ (Nat.succ_pos _))
      have hcast := Int.ofNat_le.mpr hle
      push_cast at hcast ⊢
      omega
  refine ⟨hgreatest, fun hdocumented => ?_⟩
  have heq := hdocumented.unique hgreatest
  have hpow : (1 : Int) ≤ 2 ^ node.entry.retries := one_le_pow₀ (by decide)
  omega

/-- A new connection, and an entry that has not been sent again. -/
theorem greatest_retransmitDelay_first :
    IsGreatest ((start 5 (fun _ => false) id).retransmitDelays ⟨0, { seq := 1, data := [] }⟩
        { timer := 1 }) (min (2 ^ 0) 10 * 1000) ∧
      ¬IsGreatest ((start 5 (fun _ => false) id).retransmitDelays ⟨0, { seq := 1, data := [] }⟩
        { timer := 1 }) (min (1000 * 2 ^ 0) 10000 * 1000) :=
  greatest_retransmitDelay (by decide +kernel)

/-- The first delay is never a second. -/
theorem no_delay_of_a_second :
    ¬IsGreatest ((start 5 (fun _ => false) id).retransmitDelays ⟨0, { seq := 1, data := [] }⟩
      { timer := 1 }) (min (1000 * 2 ^ 0) 10000 * 1000) := by
  intro hgreatest
  have hfree : (start 5 (fun _ => false) id).timers.queue.heap.get? ({ timer := 1 } : Env).timer =
      none := by decide +kernel
  obtain ⟨draw, hdraw⟩ := (mem_retransmitDelays hfree _).mp hgreatest.1
  have hlt : draw % 2 < 2 := Nat.mod_lt _ (by decide)
  have hcap : min (2 ^ 0) 10 + 1 = 2 := rfl
  rw [hcap] at hdraw
  omega

end TcpLoop

end ClearMoon.Tcp
