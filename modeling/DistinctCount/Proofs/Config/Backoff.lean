import Mathlib.Tactic
import DistinctCount.Config.Retry

/-!
The pauses between the calls of the backend, as exact numbers of nanoseconds. Lengths of time are cut at
the largest one, but no pause shows it: what is cut is longer than the longest pause anyway.
-/

namespace DistinctCount

namespace Duration

theorem nanos_toNat_lt (d : Duration) : d.nanos.toNat < 1000000000 :=
  UInt32.lt_iff_toNat_lt.1 d.nanos_lt

theorem toNanos_max : max.toNanos + 1 = UInt64.size * 1000000000 := rfl

theorem toNanos_le_max (d : Duration) : d.toNanos ≤ max.toNanos := by
  have hnanos := d.nanos_toNat_lt
  have hsecs := d.secs.toNat_lt
  have hmax := toNanos_max
  simp only [toNanos, UInt64.size] at hmax ⊢
  omega

theorem toNanos_min (a b : Duration) : (a.min b).toNanos = Min.min a.toNanos b.toNanos := by
  have ha := a.nanos_toNat_lt
  have hb := b.nanos_toNat_lt
  unfold min
  simp only [UInt64.lt_iff_toNat_lt, ← UInt64.toNat_inj, UInt32.le_iff_toNat_le]
  split
  · rename_i hle
    refine (Nat.min_eq_left ?_).symm
    simp only [toNanos]
    omega
  · rename_i hlt
    refine (Nat.min_eq_right ?_).symm
    simp only [toNanos]
    omega

theorem toNanos_ofParts?_getD (secs nanos : Nat) :
    ((ofParts? secs nanos).getD max).toNanos =
      Min.min max.toNanos (secs * 1000000000 + nanos) := by
  have hmax := toNanos_max
  have hcarry : nanos / 1000000000 * 1000000000 + nanos % 1000000000 = nanos :=
    Nat.div_add_mod' nanos 1000000000
  have hrest : nanos % 1000000000 < 1000000000 := Nat.mod_lt _ (by decide)
  unfold ofParts?
  dsimp only
  split
  · rename_i hfits
    have hsecs := UInt64.toNat_ofNat_of_lt' hfits
    have hword : nanos % 1000000000 < UInt32.size := by
      simp only [UInt32.size]
      omega
    have hnanos := UInt32.toNat_ofNat_of_lt' hword
    have hexact : (secs + nanos / 1000000000) * 1000000000 + nanos % 1000000000 =
        secs * 1000000000 + nanos := by
      rw [Nat.add_mul, Nat.add_assoc, hcarry]
    rw [Option.getD_some, toNanos, hsecs, hnanos, hexact]
    refine (Nat.min_eq_right ?_).symm
    simp only [UInt64.size] at hmax hfits
    omega
  · rename_i hlarge
    rw [Option.getD_none]
    refine (Nat.min_eq_left ?_).symm
    simp only [UInt64.size] at hmax hlarge
    omega

theorem toNanos_mulSaturating (d : Duration) (factor : Nat) :
    (d.mulSaturating factor).toNanos = Min.min max.toNanos (d.toNanos * factor) := by
  have hparts : d.secs.toNat * factor * 1000000000 + d.nanos.toNat * factor = d.toNanos * factor := by
    rw [toNanos, Nat.add_mul, Nat.mul_right_comm]
  rw [mulSaturating, toNanos_ofParts?_getD, hparts]

/-- A limit hides that a multiple was cut at the largest length. -/
theorem toNanos_mulSaturating_min (d limit : Duration) (factor : Nat) :
    ((d.mulSaturating factor).min limit).toNanos = Min.min limit.toNanos (d.toNanos * factor) := by
  rw [toNanos_min, toNanos_mulSaturating, Nat.min_comm, ← Nat.min_assoc,
    Nat.min_eq_left limit.toNanos_le_max]

end Duration

namespace RetryPolicy

theorem toNat_doublings (attempt : UInt32) :
    (doublings attempt).toNat = min (max attempt.toNat 1 - 1) 16 := by
  have hone : 1 ≤ max attempt 1 := by
    rw [UInt32.le_iff_toNat_le, UInt32.toNat_max]
    exact Nat.le_max_right _ _
  rw [doublings, UInt32.toNat_min, UInt32.toNat_sub_of_le _ _ hone, UInt32.toNat_max]
  rfl

theorem toNat_factor (attempt : UInt32) :
    (factor attempt).toNat = 2 ^ min (max attempt.toNat 1 - 1) 16 := by
  have hsmall : min (max attempt.toNat 1 - 1) 16 < 32 := by omega
  rw [factor, UInt32.toNat_shiftLeft, toNat_doublings, Nat.mod_eq_of_lt hsmall, UInt32.toNat_one,
    Nat.one_shiftLeft]
  exact Nat.mod_eq_of_lt (Nat.pow_lt_pow_right (by decide) hsmall)

theorem toNanos_backoff (p : RetryPolicy) (attempt : UInt32) :
    (p.backoff attempt).toNanos =
      min p.maxBackoff.toNanos (p.initialBackoff.toNanos * 2 ^ min (max attempt.toNat 1 - 1) 16) := by
  rw [backoff, Duration.toNanos_mulSaturating_min, toNat_factor]

/--
The pause after a failed call is, in exact nanoseconds, the first pause doubled for each failed call before
it, sixteen times at most, and cut at the longest pause. The shift is one of less than 32 places and
loses no bit. Pauses do not get shorter, and stay between the first and the longest pause.
-/
theorem backoff_exact (p : RetryPolicy) (attempt : UInt32) :
    (doublings attempt < 32 ∧ (factor attempt).toNat = 2 ^ (doublings attempt).toNat) ∧
    (p.backoff attempt).toNanos =
      min p.maxBackoff.toNanos (p.initialBackoff.toNanos * 2 ^ min (max attempt.toNat 1 - 1) 16) ∧
    (∀ later, attempt ≤ later → (p.backoff attempt).toNanos ≤ (p.backoff later).toNanos) ∧
    (p.backoff attempt).toNanos ≤ p.maxBackoff.toNanos ∧
    min p.initialBackoff.toNanos p.maxBackoff.toNanos ≤ (p.backoff attempt).toNanos := by
  refine ⟨⟨?_, ?_⟩, p.toNanos_backoff attempt, ?_, ?_, ?_⟩
  · rw [UInt32.lt_iff_toNat_lt, toNat_doublings]
    exact Nat.lt_of_le_of_lt (Nat.min_le_right _ _) (by decide)
  · rw [toNat_factor, toNat_doublings]
  · intro later hle
    rw [UInt32.le_iff_toNat_le] at hle
    have hpow : 2 ^ min (max attempt.toNat 1 - 1) 16 ≤ 2 ^ min (max later.toNat 1 - 1) 16 :=
      Nat.pow_le_pow_right (by decide) (by omega)
    rw [toNanos_backoff, toNanos_backoff]
    exact min_le_min_left _ (Nat.mul_le_mul_left _ hpow)
  · rw [toNanos_backoff]
    exact Nat.min_le_left _ _
  · have hone : p.initialBackoff.toNanos ≤
        p.initialBackoff.toNanos * 2 ^ min (max attempt.toNat 1 - 1) 16 :=
      Nat.le_mul_of_pos_right _ (Nat.two_pow_pos _)
    rw [toNanos_backoff, min_comm]
    exact min_le_min_left _ hone

/-- A first pause of about nine million years, and no limit below the largest length. -/
def patient : RetryPolicy :=
  { initialBackoff :=
      { secs := 0x1000000000000, nanos := 999999999, nanos_lt := Duration.max.nanos_lt }
    maxBackoff := .max }

/-- Fifteen doublings of such a pause are a length, sixteen are not. -/
theorem backoff_exact_patient :
    (16 : UInt32) ≤ 17 ∧ (patient.backoff 16).toNanos = patient.initialBackoff.toNanos * 32768 ∧
      (patient.backoff 16).toNanos ≤ (patient.backoff 17).toNanos ∧
      (patient.backoff 17).toNanos = Duration.max.toNanos := by
  have hle : (16 : UInt32) ≤ 17 := by decide
  obtain ⟨-, hexact, hlater, -⟩ := backoff_exact patient 16
  obtain ⟨-, hlimit, -⟩ := backoff_exact patient 17
  exact ⟨hle, hexact.trans (by decide), hlater 17 hle, hlimit.trans (by decide)⟩

end RetryPolicy

end DistinctCount
