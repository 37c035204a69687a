import ContactReplay.Proofs.Replay.Limiting
import ContactReplay.Proofs.Replay.Reckoning
import ContactReplay.Proofs.Settings.Delay
import Mathlib.Algebra.GroupWithZero.Nat

/-!
# Pauses and trace time

A replay pauses once before every step, for a time that depends on the distance to the step before.
The steps of a graph stream ascend from zero, so these distances are never less than zero and they
add up to the last step (`toNat_add_sum_gaps`).  With proportional pacing the pauses therefore add
up to the time of the trace, wherever the steps between lie (`pauses_add_up`).
-/

namespace ContactReplay

/-! ## Sums of durations -/

namespace Duration

/-- Durations add up to a number of milliseconds, unless no duration is so long. -/
def AddUpTo (durations : List Duration) (milliseconds : Nat) : Prop :=
  milliseconds * 1000000 ≤ largest.nanoseconds →
    ∃ total, sum? durations = some total ∧ total.nanoseconds = milliseconds * 1000000

theorem addUpTo_of_sum {durations : List Duration} {milliseconds : Nat}
    (sum : milliseconds * 1000000 ≤ largest.nanoseconds →
      (durations.map (·.nanoseconds)).sum = milliseconds * 1000000) :
    AddUpTo durations milliseconds := by
  intro fits
  have folded : ∀ start : Nat,
      durations.foldl (fun total duration => total + duration.nanoseconds) start =
        start + (durations.map (·.nanoseconds)).sum := by
    clear sum
    induction durations with
    | nil => exact fun _ => rfl
    | cons duration rest inductionHypothesis =>
        intro start
        rw [List.foldl_cons, inductionHypothesis, List.map_cons, List.sum_cons, Nat.add_assoc]
  have total := (folded 0).trans ((Nat.zero_add _).trans (sum fits))
  have bounded : milliseconds * 1000000 < limit := (Nat.le_sub_one_iff_lt (by decide)).mp fits
  refine ⟨⟨milliseconds * 1000000, bounded⟩, ?_, rfl⟩
  simp only [sum?, total, dif_pos bounded]

end Duration

namespace Conductor

/-! ## Distances between steps -/

/-- The distances between steps add up to the last one. -/
theorem toNat_add_sum_gaps {last : UInt64} {steps : List DocumentStep}
    (ascending : (last :: steps.map (·.step)).Pairwise (· < ·)) :
    last.toNat + ((gaps last steps).map UInt64.toNat).sum =
      ((steps.map (·.step)).getLastD last).toNat := by
  induction steps generalizing last with
  | nil => rfl
  | cons moment rest inductionHypothesis =>
      rw [List.map_cons, List.pairwise_cons] at ascending
      have later : last ≤ moment.step := UInt64.le_of_lt (ascending.1 _ List.mem_cons_self)
      rw [gaps, List.map_cons, List.sum_cons, ← Nat.add_assoc, UInt64.toNat_sub_of_le _ _ later,
        Nat.add_sub_of_le (UInt64.le_iff_toNat_le.mp later), List.map_cons, List.getLastD_cons]
      exact inductionHypothesis ascending.2

end Conductor

/-! ## Sums of waits -/

namespace Settings

variable {settings : Settings} {gaps : List UInt64}

/-- With proportional pacing, the waits for short distances add up to the wait for their sum. -/
theorem sum_delay_of_proportional (proportional : settings.pacing = .proportional)
    (short : ∀ gap ∈ gaps, gap.toNat < UInt32.size)
    (fits : settings.stepDelay.toNat * (gaps.map UInt64.toNat).sum * 1000000 ≤
      Duration.largest.nanoseconds) :
    ((gaps.map settings.delay).map (·.nanoseconds)).sum =
      settings.stepDelay.toNat * (gaps.map UInt64.toNat).sum * 1000000 := by
  induction gaps with
  | nil => exact (Nat.zero_mul 1000000).symm
  | cons gap rest inductionHypothesis =>
      obtain ⟨shortFirst, shortRest⟩ := List.forall_mem_cons.mp short
      rw [List.map_cons, List.sum_cons, Nat.mul_add, Nat.add_mul] at fits
      have lasts := delay_lasts_min proportional gap
      rw [Nat.min_eq_left (Nat.le_sub_one_of_lt shortFirst)] at lasts
      have first := lasts.exact (Nat.le_trans (Nat.le_add_right _ _) fits)
      have others := inductionHypothesis shortRest (Nat.le_trans (Nat.le_add_left _ _) fits)
      simp only [List.map_cons, List.sum_cons, first, others, Nat.mul_add, Nat.add_mul]

theorem sum_delay_of_fixed (fixed : settings.pacing = .fixed) (gaps : List UInt64) :
    ((gaps.map settings.delay).map (·.nanoseconds)).sum =
      settings.stepDelay.toNat * gaps.length * 1000000 := by
  have same : settings.delay = fun _ => .ofMilliseconds settings.stepDelay := by
    funext gap
    rw [delay, fixed]
  have all : (gaps.map settings.delay).map (·.nanoseconds) =
      List.replicate gaps.length (settings.stepDelay.toNat * 1000000) := by
    rw [same, List.map_const', List.map_replicate, Duration.ofMilliseconds]
  rw [all, List.sum_replicate_nat, ← Nat.mul_assoc, Nat.mul_comm gaps.length]

end Settings

/-! ## Pauses of a run -/

theorem GraphStream.Spells.ascending_steps {lines : List Text.Line} {document : Document}
    (spells : Spells lines document) :
    (0 :: document.steps.map (·.step)).Pairwise (· < ·) := by
  cases spells with
  | intro _ _ _ _ _ ascending => exact ascending

namespace Conductor

/-- The steps of a window ascend, like those of the graph stream. -/
theorem ascending_chooseSteps {text : String} {document : Document}
    (read : Document.read text = .ok document) (settings : Settings) :
    (0 :: (chooseSteps settings document).map (·.step)).Pairwise (· < ·) := by
  have ascending := (Document.read_eq_ok_iff.mp read).ascending_steps
  have chosen : chooseSteps settings document <+: document.steps := by
    rw [chooseSteps]
    split
    · exact List.take_prefix _ _
    · exact List.prefix_rfl
  exact ascending.sublist ((chosen.sublist.map (·.step)).cons_cons 0)

/-- A run of a graph stream that ends well, whatever its surroundings answered, has paused once
before every step of its window, and each of these comes after the one before it.  With
proportional pacing and distances below 2^32 the pauses add up to the delay for every unit of the
last step of the window, and with fixed pacing to the delay for every step of the window. -/
theorem pauses_add_up {text : String} {document : Document}
    (read : Document.read text = .ok document) {settings : Settings} {conductor : Conductor}
    (started : start settings = .ok conductor) {exchanges : List Exchange} {report : Report}
    {used : Conductor} (yields : (conductor.script document).Yields exchanges (.ok report, used)) :
    let steps := chooseSteps settings document
    let numbers := steps.map fun moment : DocumentStep => moment.step
    (0 :: numbers).IsChain (· < ·) ∧
    pausesOf exchanges = (gaps 0 steps).map settings.delay ∧
    (pausesOf exchanges).length = steps.length ∧
    (settings.pacing = .proportional → (∀ gap ∈ gaps 0 steps, gap.toNat < UInt32.size) →
      Duration.AddUpTo (pausesOf exchanges)
        (settings.stepDelay.toNat * (numbers.getLastD 0).toNat)) ∧
    (settings.pacing = .fixed →
      Duration.AddUpTo (pausesOf exchanges) (settings.stepDelay.toNat * steps.length)) := by
  intro steps numbers
  obtain ⟨rfl, -⟩ := eq_fresh_of_start started
  have ascending : (0 :: numbers).Pairwise (· < ·) := ascending_chooseSteps read settings
  have pauses : pausesOf exchanges = (gaps 0 steps).map settings.delay := by
    obtain ⟨-, accounted⟩ := (leads_script settings document).of_yields yields
    exact accounted.reckoned.waited.trans (filterMap_wait?_acts settings 0 steps)
  have once : (pausesOf exchanges).length = steps.length := by
    rw [pauses, List.length_map, length_gaps]
  refine ⟨ascending.isChain, pauses, once, fun proportional short => ?_, fun fixed => ?_⟩
  · have reached : ((gaps 0 steps).map UInt64.toNat).sum = (numbers.getLastD 0).toNat :=
      (Nat.zero_add _).symm.trans (toNat_add_sum_gaps ascending)
    rw [← reached, pauses]
    exact Duration.addUpTo_of_sum (Settings.sum_delay_of_proportional proportional short)
  · rw [← length_gaps 0 steps, pauses]
    exact Duration.addUpTo_of_sum fun _ => Settings.sum_delay_of_fixed fixed _

/-- Steps 1 and 3 wait for one and for two delays. -/
theorem pauses_add_up_twoSteps :
    let settings : Settings := { stepDelay := 10, pacing := .proportional }
    ∃ exchanges report used total,
      Document.read Rehearsal.twoStepsText = .ok Rehearsal.twoSteps ∧
      start settings = .ok (fresh settings) ∧
      ((fresh settings).script Rehearsal.twoSteps).Yields exchanges (.ok report, used) ∧
      Duration.sum? (pausesOf exchanges) = some total ∧ total.nanoseconds = 30000000 := by
  intro settings
  have read : Document.read Rehearsal.twoStepsText = .ok Rehearsal.twoSteps := by decide +kernel
  have started : start settings = .ok (fresh settings) := by decide +kernel
  obtain ⟨exchanges, yields, -⟩ :=
    Rehearsal.stocked.exists_yields_logged (fresh settings) Rehearsal.twoSteps
  cases outcome : (Rehearsal.stocked.replay (fresh settings) Rehearsal.twoSteps).1 with
  | error error =>
      have ends : (Rehearsal.stocked.replay (fresh settings) Rehearsal.twoSteps).1.isOk = true := by
        decide +kernel
      rw [outcome] at ends
      cases ends
  | ok report =>
      rw [outcome] at yields
      obtain ⟨-, -, -, proportional, -⟩ := pauses_add_up read started yields
      have short : ∀ gap ∈ gaps 0 Rehearsal.twoSteps.steps, gap.toNat < UInt32.size :=
        List.forall_mem_cons.mpr ⟨by decide, List.forall_mem_singleton.mpr (by decide)⟩
      have adds : Duration.AddUpTo (pausesOf exchanges) 30 := proportional rfl short
      obtain ⟨total, sum, long⟩ := adds (by decide)
      exact ⟨exchanges, report, _, total, read, started, yields, sum, long⟩

end Conductor

end ContactReplay
