import Mathlib.Algebra.Order.Ring.Nat
import Mathlib.Order.Monotone.Basic
import EventJournal.Config
import EventJournal.Error

/-!
# Delays between attempts

After an attempt the journal waits for as long as the policy says: for the base delay, doubled
once for each attempt before, up to thirty-one times, and never for longer than a cap.
`RetryPolicy.baseDelayAfter` works with numbers of any size. In the view of durations as numbers
of nanoseconds it is the smaller of the cap and an exact product: the product stops at the
largest duration, but no cap is longer.

`RetryPolicy.wordDelayAfter` takes the same steps in machine words: attempts and factors have 32
bits, seconds and products 64. A difference, a power or a whole duration that would leave its
word stops at the end of it, and everything else that would is an overflow. There is none, and
the delay is the same.

## Main results

* `Duration.timesWord_eq` — durations multiplied in words.
* `RetryPolicy.wordDelayAfter_eq` — the delay in words is the delay.
* `RetryPolicy.backoff_exact` — the delay is exact, capped, and grows by doubling.
-/

namespace EventJournal

/-! ## Words -/

namespace Word

/-- The difference of two words, or zero. -/
def monus (a b : UInt32) : UInt32 := if b ≤ a then a - b else 0

/-- A power of a word, or the largest word where it is none. -/
def power (base exponent : UInt32) : UInt32 :=
  if base.toNat ^ exponent.toNat < UInt32.size then .ofNat (base.toNat ^ exponent.toNat)
  else .ofNat (UInt32.size - 1)

/-- A number as a word, if it is one. -/
def fit? (n : Nat) : Option UInt64 := if n < UInt64.size then some (.ofNat n) else none

def product? (a b : UInt64) : Option UInt64 := fit? (a.toNat * b.toNat)

def sum? (a b : UInt64) : Option UInt64 := fit? (a.toNat + b.toNat)

theorem toNat_monus (a b : UInt32) : (monus a b).toNat = a.toNat - b.toNat := by
  unfold monus
  split
  · rename_i le
    exact UInt32.toNat_sub_of_le _ _ le
  · rename_i lt
    rw [UInt32.le_iff_toNat_le] at lt
    exact (Nat.sub_eq_zero_of_le (Nat.le_of_not_le lt)).symm

theorem toNat_power {base exponent : UInt32} (fits : base.toNat ^ exponent.toNat < UInt32.size) :
    (power base exponent).toNat = base.toNat ^ exponent.toNat := by
  rw [power, if_pos fits, UInt32.toNat_ofNat_of_lt' fits]

/-- A product and then a sum of words fail where either leaves its word, and so exactly where
the sum does. -/
theorem product?_bind_sum? (a b c : UInt64) :
    ((product? a b).bind fun ab => sum? ab c) = fit? (a.toNat * b.toNat + c.toNat) := by
  unfold product? sum? fit?
  by_cases fits : a.toNat * b.toNat < UInt64.size
  · rw [if_pos fits, Option.bind_some, UInt64.toNat_ofNat_of_lt' fits]
  · have beyond : ¬a.toNat * b.toNat + c.toNat < UInt64.size :=
      fun small => fits (Nat.lt_of_le_of_lt (Nat.le_add_right _ _) small)
    rw [if_neg fits, if_neg beyond, Option.bind_none]

end Word

/-! ## Durations in words -/

namespace Duration

/-- A duration from two words, of which the second must be less than a second. -/
def ofWords (seconds : UInt64) (nanos : UInt32) : Except Abort Duration :=
  if h : nanos.toNat < nanosPerSecond then .ok ⟨seconds, nanos, h⟩ else .error .overflow

theorem ofWords_eq {seconds : UInt64} {nanos : UInt32} (h : nanos.toNat < nanosPerSecond) :
    ofWords seconds nanos = .ok (ofParts seconds.toNat nanos.toNat) := by
  have same : (⟨seconds, nanos, h⟩ : Duration) = ofParts seconds.toNat nanos.toNat := by
    refine Duration.ext UInt64.ofNat_toNat.symm ?_
    calc nanos
        = .ofNat nanos.toNat := UInt32.ofNat_toNat.symm
      _ = .ofNat (nanos.toNat % nanosPerSecond) := by rw [Nat.mod_eq_of_lt h]
  rw [ofWords, dif_pos h, same]

/-- The duration repeated `k` times, in words. The seconds may leave theirs: then the largest
duration stands in. The nanoseconds may not. -/
def timesWord (d : Duration) (k : UInt32) : Except Abort Duration :=
  match Word.product? d.nanos.toUInt64 k.toUInt64 with
  | none => .error .overflow
  | some nanos =>
      let carried := nanos / 1000000000
      match (Word.product? d.seconds k.toUInt64).bind fun seconds => Word.sum? seconds carried with
      | some seconds => ofWords seconds (nanos % 1000000000).toUInt32
      | none => .ok max

/-- Nanoseconds multiplied by a word fit into a wider one. -/
theorem nanos_mul_lt (d : Duration) (k : UInt32) : d.nanos.toNat * k.toNat < UInt64.size :=
  calc d.nanos.toNat * k.toNat
      ≤ nanosPerSecond * UInt32.size :=
        Nat.mul_le_mul (Nat.le_of_lt d.nanos_lt) (Nat.le_of_lt k.toNat_lt)
    _ < UInt64.size := by decide

/-- In words, a duration is repeated as it is in numbers, and there is no overflow. -/
theorem timesWord_eq (d : Duration) (k : UInt32) :
    d.timesWord k = .ok (d.saturatingMul k.toNat) := by
  have small := d.nanos_mul_lt k
  have product : Word.product? d.nanos.toUInt64 k.toUInt64 =
      some (.ofNat (d.nanos.toNat * k.toNat)) := by
    rw [Word.product?, Word.fit?, UInt32.toNat_toUInt64, UInt32.toNat_toUInt64, if_pos small]
  have carried : (UInt64.ofNat (d.nanos.toNat * k.toNat) / 1000000000).toNat =
      d.nanos.toNat * k.toNat / nanosPerSecond := by
    rw [UInt64.toNat_div, UInt64.toNat_ofNat_of_lt' small]
    rfl
  have rest : ((UInt64.ofNat (d.nanos.toNat * k.toNat) % 1000000000).toUInt32).toNat =
      d.nanos.toNat * k.toNat % nanosPerSecond := by
    rw [UInt64.toNat_toUInt32, UInt64.toNat_mod, UInt64.toNat_ofNat_of_lt' small]
    exact Nat.mod_eq_of_lt (Nat.lt_trans (Nat.mod_lt _ (by decide)) (by decide))
  have below : d.nanos.toNat * k.toNat % nanosPerSecond < nanosPerSecond :=
    Nat.mod_lt _ (by decide)
  unfold timesWord saturatingMul
  rw [product]
  dsimp only
  rw [Word.product?_bind_sum?, carried, UInt32.toNat_toUInt64, Word.fit?]
  by_cases fits : d.seconds.toNat * k.toNat + d.nanos.toNat * k.toNat / nanosPerSecond <
      UInt64.size
  · rw [if_pos fits, if_pos fits]
    dsimp only
    rw [ofWords_eq (rest ▸ below), rest, UInt64.toNat_ofNat_of_lt' fits]
  · rw [if_neg fits, if_neg fits]

theorem toNanos_le_iff {a b : Duration} :
    a.toNanos ≤ b.toNanos ↔
      a.seconds < b.seconds ∨ (a.seconds = b.seconds ∧ a.nanos ≤ b.nanos) := by
  have ha := a.nanos_lt
  have hb := b.nanos_lt
  rw [UInt64.lt_iff_toNat_lt, ← UInt64.toNat_inj, UInt32.le_iff_toNat_le]
  unfold toNanos nanosPerSecond
  omega

/-- The shorter of two durations: the one of fewer seconds, or of fewer nanoseconds where they
are as many. -/
def minWord (a b : Duration) : Duration :=
  if a.seconds < b.seconds ∨ (a.seconds = b.seconds ∧ a.nanos ≤ b.nanos) then a else b

theorem minWord_eq (a b : Duration) : a.minWord b = a.min b :=
  if_congr toNanos_le_iff.symm rfl rfl

end Duration

/-! ## Delays -/

namespace RetryPolicy

variable (policy : RetryPolicy)

/-- How often the base delay is doubled after an attempt. -/
def doublings (attempt : UInt32) : UInt32 :=
  let before := Word.monus attempt 1
  if before ≤ 31 then before else 31

/-- The delay after the given attempt, before any jitter, in words. -/
def wordDelayAfter (attempt : UInt32) : Except Abort Duration := do
  let delay ← policy.baseDelay.timesWord (Word.power 2 (doublings attempt))
  pure (delay.minWord policy.maxDelay)

theorem toNat_doublings (attempt : UInt32) :
    (doublings attempt).toNat = min (attempt.toNat - 1) 31 := by
  have before : (Word.monus attempt 1).toNat = attempt.toNat - 1 := Word.toNat_monus attempt 1
  unfold doublings
  dsimp only
  split
  · rename_i le
    rw [UInt32.le_iff_toNat_le, before] at le
    rw [before]
    exact (Nat.min_eq_left le).symm
  · rename_i lt
    rw [UInt32.le_iff_toNat_le, before] at lt
    exact (Nat.min_eq_right (Nat.le_of_not_le lt)).symm

/-- In words, the delay is what it is in numbers. -/
theorem wordDelayAfter_eq (attempt : UInt32) :
    policy.wordDelayAfter attempt = .ok (policy.baseDelayAfter attempt.toNat) := by
  have fits : (2 : UInt32).toNat ^ (doublings attempt).toNat < UInt32.size := by
    rw [toNat_doublings]
    exact Nat.lt_of_le_of_lt (Nat.pow_le_pow_right (by decide) (Nat.min_le_right _ _)) (by decide)
  unfold wordDelayAfter baseDelayAfter
  rw [Duration.timesWord_eq, Word.toNat_power fits, toNat_doublings, ← Duration.minWord_eq]
  rfl

/-- The number of nanoseconds of a delay is exact. -/
theorem toNanos_baseDelayAfter (attempt : Nat) :
    (policy.baseDelayAfter attempt).toNanos =
      min policy.maxDelay.toNanos (policy.baseDelay.toNanos * 2 ^ min (attempt - 1) 31) := by
  have cap := policy.maxDelay.toNanos_le_max
  have power : Nat.pow 2 (min (attempt - 1) 31) = 2 ^ min (attempt - 1) 31 := rfl
  rw [baseDelayAfter, Duration.toNanos_min, Duration.toNanos_saturatingMul, power]
  omega

theorem baseDelayAfter_mono : Monotone fun attempt => (policy.baseDelayAfter attempt).toNanos := by
  intro attempt later le
  have doublings : min (attempt - 1) 31 ≤ min (later - 1) 31 := by omega
  have product : policy.baseDelay.toNanos * 2 ^ min (attempt - 1) 31 ≤
      policy.baseDelay.toNanos * 2 ^ min (later - 1) 31 :=
    Nat.mul_le_mul_left _ (Nat.pow_le_pow_right (by decide) doublings)
  simp only [toNanos_baseDelayAfter]
  omega

/-- From one attempt to the next the delay doubles, up to the cap. -/
theorem toNanos_baseDelayAfter_succ {attempt : Nat} (first : 1 ≤ attempt) (few : attempt < 32) :
    (policy.baseDelayAfter (attempt + 1)).toNanos =
      min policy.maxDelay.toNanos (2 * (policy.baseDelayAfter attempt).toNanos) := by
  have doublings : min (attempt + 1 - 1) 31 = min (attempt - 1) 31 + 1 := by omega
  rw [toNanos_baseDelayAfter, toNanos_baseDelayAfter, doublings, Nat.pow_succ, ← Nat.mul_assoc]
  omega

theorem delay_of_no_jitter {policy : RetryPolicy} (none : policy.jitter ≤ 0.0) (attempt : Nat) :
    policy.delay attempt = .exactly (policy.baseDelayAfter attempt) := by
  unfold delay
  simp only [none, decide_true, Bool.true_or, if_true]

/-- **Delays are exact, and grow by doubling up to the cap.** In words there is no
overflow, and the delay is that in numbers: its nanoseconds are the smaller of those of the cap
and of those of the base delay doubled once for each attempt before, up to thirty-one times. So
it is never longer than the cap, and never shorter than after an earlier attempt; and up to
attempt 32 it is twice the delay before it, unless it is the cap. Without jitter, the journal
waits for exactly that. -/
theorem backoff_exact :
    (∀ attempt : UInt32,
      policy.wordDelayAfter attempt = .ok (policy.baseDelayAfter attempt.toNat)) ∧
    (∀ attempt, (policy.baseDelayAfter attempt).toNanos =
      min policy.maxDelay.toNanos (policy.baseDelay.toNanos * 2 ^ min (attempt - 1) 31)) ∧
    (∀ attempt, (policy.baseDelayAfter attempt).toNanos ≤ policy.maxDelay.toNanos) ∧
    (Monotone fun attempt => (policy.baseDelayAfter attempt).toNanos) ∧
    (∀ attempt, 1 ≤ attempt → attempt < 32 →
      (policy.baseDelayAfter (attempt + 1)).toNanos ≠ policy.maxDelay.toNanos →
      (policy.baseDelayAfter (attempt + 1)).toNanos =
        2 * (policy.baseDelayAfter attempt).toNanos) ∧
    (policy.jitter ≤ 0.0 →
      ∀ attempt, policy.delay attempt = .exactly (policy.baseDelayAfter attempt)) := by
  refine ⟨policy.wordDelayAfter_eq, policy.toNanos_baseDelayAfter, fun attempt => ?_,
    policy.baseDelayAfter_mono, fun attempt first few below => ?_, delay_of_no_jitter⟩
  · rw [toNanos_baseDelayAfter]
    exact Nat.min_le_left _ _
  · have next := policy.toNanos_baseDelayAfter_succ first few
    omega

/-- A base delay that can be doubled once, with a carry from the nanoseconds, and then is longer
than any duration. -/
def almostTooLong : RetryPolicy where
  baseDelay := ⟨4611686018427387904, 999999999, by decide⟩
  maxDelay := .max
  jitter := -1.5

theorem almostTooLong_backoff :
    almostTooLong.jitter ≤ 0.0 ∧
      almostTooLong.wordDelayAfter 2 = .ok ⟨9223372036854775809, 999999998, by decide⟩ ∧
      (almostTooLong.baseDelayAfter 2).toNanos ≠ almostTooLong.maxDelay.toNanos ∧
      (almostTooLong.baseDelayAfter 2).toNanos = 2 * (almostTooLong.baseDelayAfter 1).toNanos ∧
      almostTooLong.wordDelayAfter 4294967295 = .ok .max ∧
      almostTooLong.delay 3 = .exactly .max := by
  obtain ⟨words, -, -, -, doubles, still⟩ := backoff_exact almostTooLong
  have none : almostTooLong.jitter ≤ 0.0 := by decide
  have second : almostTooLong.baseDelayAfter 2 = ⟨9223372036854775809, 999999998, by decide⟩ := by
    decide
  have third : almostTooLong.baseDelayAfter 3 = .max := by decide
  have last : almostTooLong.baseDelayAfter 4294967295 = .max := by decide
  have below : (almostTooLong.baseDelayAfter 2).toNanos ≠ almostTooLong.maxDelay.toNanos := by
    decide
  exact ⟨none, (words 2).trans (congrArg _ second), below,
    doubles 1 (by decide) (by decide) below, (words 4294967295).trans (congrArg _ last),
    (still none 3).trans (congrArg _ third)⟩

end RetryPolicy

end EventJournal
