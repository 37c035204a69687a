import ContactReplay.Settings.Basic

/-!
# Waits before steps

With proportional pacing, the wait before a step is the delay of the settings for every unit of the
gap to the step before.  `Duration.Lasts` says of a wait that it is as many milliseconds long as it
should be, or the largest duration if there is no such long one.

The gap is a number of 64 bits, and it is cut to 32 bits before it is multiplied.  So a wait is too
short as soon as the gap is longer and the product is still a duration; `delay_lasts_iff` says when
that is so.
-/

namespace ContactReplay

namespace Duration

/-- A duration is a number of milliseconds long, or the largest one if there are too many. -/
structure Lasts (duration : Duration) (milliseconds : Nat) : Prop where
  exact : milliseconds * 1000000 ≤ largest.nanoseconds →
    duration.nanoseconds = milliseconds * 1000000
  capped : largest.nanoseconds < milliseconds * 1000000 → duration = largest

theorem nanoseconds_largest : largest.nanoseconds = 18446744073709551615999999999 := by decide

theorem lasts_saturating (milliseconds : Nat) :
    (saturating (milliseconds * 1000000)).Lasts milliseconds := by
  have bound : ∀ nanoseconds, nanoseconds < limit ↔ nanoseconds ≤ largest.nanoseconds := fun _ =>
    (Nat.le_sub_one_iff_lt (show 0 < limit by decide)).symm
  refine ⟨fun short => ?_, fun long => ?_⟩
  · rw [saturating, dif_pos ((bound _).mpr short)]
  · rw [saturating, dif_neg (mt (bound _).mp (Nat.not_le.mpr long))]

/-- The largest duration is no whole number of milliseconds, so a duration lasts two different
numbers of them only if there are too many of both. -/
theorem Lasts.lasts_iff {duration : Duration} {milliseconds : Nat}
    (lasts : duration.Lasts milliseconds) (other : Nat) :
    duration.Lasts other ↔ milliseconds = other ∨
      largest.nanoseconds < milliseconds * 1000000 ∧ largest.nanoseconds < other * 1000000 := by
  have whole := nanoseconds_largest
  constructor
  · intro lastsOther
    rcases Nat.lt_or_ge largest.nanoseconds (milliseconds * 1000000) with long | short <;>
      rcases Nat.lt_or_ge largest.nanoseconds (other * 1000000) with otherLong | otherShort
    · exact Or.inr ⟨long, otherLong⟩
    · have exact := lastsOther.exact otherShort
      rw [lasts.capped long] at exact
      omega
    · have exact := lasts.exact short
      rw [lastsOther.capped otherLong] at exact
      omega
    · have exact := (lasts.exact short).symm.trans (lastsOther.exact otherShort)
      exact Or.inl (Nat.eq_of_mul_eq_mul_right (by decide) exact)
  · rintro (rfl | ⟨long, otherLong⟩)
    · exact lasts
    · exact ⟨fun short => absurd short (Nat.not_le.mpr otherLong), fun _ => lasts.capped long⟩

end Duration

namespace Settings

variable {settings : Settings}

/-- A gap counts up to 2^32 - 1. -/
theorem delay_lasts_min (proportional : settings.pacing = .proportional) (gap : UInt64) :
    (settings.delay gap).Lasts (settings.stepDelay.toNat * min gap.toNat (UInt32.size - 1)) := by
  have product : settings.delay gap = .saturating
      (settings.stepDelay.toNat * min gap.toNat (UInt32.size - 1) * 1000000) := by
    rw [delay, proportional]
    dsimp only
    rw [Duration.times, Duration.ofMilliseconds, Nat.mul_right_comm]
  rw [product]
  exact Duration.lasts_saturating _

/-- The wait before a step lasts the delay for every unit of the gap up to 2^32 - 1.  This is the
wait that it should be exactly if the gap is not longer, if there is no delay at all, or if the
delay is so long that the largest duration is reached in any case. -/
theorem delay_lasts_iff (proportional : settings.pacing = .proportional) (gap : UInt64) :
    (settings.delay gap).Lasts (settings.stepDelay.toNat * min gap.toNat (UInt32.size - 1)) ∧
    ((settings.delay gap).Lasts (settings.stepDelay.toNat * gap.toNat) ↔
      gap.toNat < UInt32.size ∨ settings.stepDelay = 0 ∨
        1000 * UInt64.size ≤ settings.stepDelay.toNat * (UInt32.size - 1)) := by
  have lasts := delay_lasts_min proportional gap
  refine ⟨lasts, (lasts.lasts_iff _).trans ?_⟩
  rcases Nat.lt_or_ge gap.toNat UInt32.size with short | long
  · have whole : min gap.toNat (UInt32.size - 1) = gap.toNat :=
      Nat.min_eq_left (Nat.le_sub_one_of_lt short)
    exact iff_of_true (Or.inl (by rw [whole])) (Or.inl short)
  have cut : min gap.toNat (UInt32.size - 1) = UInt32.size - 1 :=
    Nat.min_eq_right (Nat.le_trans (Nat.sub_le _ _) long)
  have shorter : UInt32.size - 1 < gap.toNat := Nat.lt_of_lt_of_le (by decide) long
  have same : settings.stepDelay.toNat * (UInt32.size - 1) =
      settings.stepDelay.toNat * gap.toNat ↔ settings.stepDelay = 0 := by
    constructor
    · intro equal
      rcases Nat.eq_zero_or_pos settings.stepDelay.toNat with none | positive
      · exact UInt64.toNat_inj.mp none
      · exact absurd (Nat.eq_of_mul_eq_mul_left positive equal) (Nat.ne_of_lt shorter)
    · intro none
      rw [none]
      exact (Nat.zero_mul _).trans (Nat.zero_mul _).symm
  have grows : settings.stepDelay.toNat * (UInt32.size - 1) ≤
      settings.stepDelay.toNat * gap.toNat := Nat.mul_le_mul_left _ (Nat.le_of_lt shorter)
  have capped : ∀ milliseconds : Nat,
      Duration.largest.nanoseconds < milliseconds * 1000000 ↔
        1000 * UInt64.size ≤ milliseconds := by
    intro milliseconds
    rw [Duration.nanoseconds_largest]
    simp only [UInt64.size]
    omega
  rw [cut, same, or_iff_right (Nat.not_lt.mpr long), capped, capped,
    and_iff_left_of_imp fun enough => Nat.le_trans enough grows]

/-- The longest gap that counts in full. -/
theorem delay_lasts_iff_longestGap :
    let settings : Settings := { stepDelay := 1, pacing := .proportional }
    settings.pacing = .proportional ∧ (settings.delay 4294967295).Lasts 4294967295 :=
  ⟨rfl, (delay_lasts_iff rfl 4294967295).2.mpr (Or.inl (by decide))⟩

/-- With a delay of a millisecond, a wait of 2^32 milliseconds comes out a millisecond short. -/
theorem exists_delay_not_lasts :
    let settings : Settings := { stepDelay := 1, pacing := .proportional }
    ¬ (settings.delay 4294967296).Lasts
      (settings.stepDelay.toNat * (4294967296 : UInt64).toNat) := by
  intro settings lasts
  have exact := lasts.exact (by decide)
  revert exact
  decide

end Settings

end ContactReplay
