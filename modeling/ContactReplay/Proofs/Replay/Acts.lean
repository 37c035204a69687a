import ContactReplay.Proofs.Replay.Keeping

/-!
# Points between the acts of a run

The steps of a run are played in acts: a step begins with a look for a cancellation, a prompt and a
pause, then one line after the other is carried out, and the step is counted.  A run can be looked
at between any two acts: `ComesTo` says of a stand that a run is there after its first acts, with
all that comes before the first step.
-/

namespace ContactReplay.Conductor

/-- A part of the playing of some steps. -/
inductive Act where
  /-- A step begins that follows a step `last`. -/
  | begin (last : UInt64) (moment : DocumentStep)
  | carryOut (step : UInt64) (line : EdgeLine)
  | count
  deriving DecidableEq, Repr

namespace Act

def course (session : SessionId) : Act → Course Unit
  | .begin last moment => do
      Course.stopIfCancelled moment.step
      let settings := (← get).settings
      if settings.interactive then
        Course.confirm (.step moment.step)
      Course.pause (settings.delay (moment.step - last))
  | .carryOut step line => carryOutUnlessCancelled session step line
  | .count => Course.note fun report => { report with stepsRun := report.stepsRun + 1 }

/-- The line that an act carries out. -/
def line? : Act → Option EdgeLine
  | .carryOut _ line => some line
  | _ => none

end Act

/-- The acts of steps that follow a step `last`. -/
def acts (last : UInt64) : List DocumentStep → List Act
  | [] => []
  | moment :: rest =>
      .begin last moment :: (moment.lines.map (.carryOut moment.step) ++
        .count :: acts moment.step rest)

theorem filterMap_line?_acts (last : UInt64) (steps : List DocumentStep) :
    (acts last steps).filterMap Act.line? = steps.flatMap (·.lines) := by
  induction steps generalizing last with
  | nil => rfl
  | cons moment rest inductionHypothesis =>
      have carried : (moment.lines.map (Act.carryOut moment.step)).filterMap Act.line? =
          moment.lines := by
        rw [List.filterMap_map]
        exact List.filterMap_some
      rw [acts, List.filterMap_cons_none rfl, List.filterMap_append, carried,
        List.filterMap_cons_none rfl, inductionHypothesis, List.flatMap_cons]

theorem forM_carryOut (session : SessionId) (step : UInt64) (lines : List EdgeLine) :
    lines.forM (carryOutUnlessCancelled session step) =
      (lines.map (Act.carryOut step)).forM (Act.course session) := by
  induction lines with
  | nil => rfl
  | cons line rest inductionHypothesis =>
      exact congrArg (carryOutUnlessCancelled session step line >>= fun _ => ·) inductionHypothesis

theorem playStep_eq_bind (session : SessionId) (last : UInt64) (moment : DocumentStep) :
    playStep session last moment =
      (Act.begin last moment).course session >>= fun _ =>
        moment.lines.forM (carryOutUnlessCancelled session moment.step) >>= fun _ =>
          Act.count.course session := by
  rw [playStep, Act.course, bind_assoc]
  refine bind_congr fun _ => ?_
  rw [bind_assoc]
  refine bind_congr fun conductor => ?_
  cases interactive : conductor.settings.interactive with
  | true =>
      simp only [interactive, if_true, bind_assoc]
      rfl
  | false =>
      simp only [interactive, Bool.false_eq_true, if_false]
      rfl

/-- Playing steps is going through their acts. -/
theorem playSteps_eq_forM (session : SessionId) (last : UInt64) (steps : List DocumentStep) :
    playSteps session last steps = (acts last steps).forM (Act.course session) := by
  induction steps generalizing last with
  | nil => rfl
  | cons moment rest inductionHypothesis =>
      have opened : ∀ act others, (act :: others : List Act).forM (Act.course session) =
          act.course session >>= fun _ => others.forM (Act.course session) := fun _ _ => rfl
      rw [acts, opened, Course.forM_append, opened, ← inductionHypothesis, ← forM_carryOut,
        playSteps, playStep_eq_bind]
      simp only [bind_assoc]

/-! ## Invariants of lines -/

section Invariant

variable {id : SessionId} {holds : List EdgeLine → Stand → Prop} {stand : Stand}
  (alike : ∀ lines current next, Course.Alike current next → holds lines current →
    holds lines next)
  (noted : ∀ lines current report, holds lines current →
    holds lines { current with conductor := { current.conductor with report } })
  (carries : ∀ lines current step line, holds lines current →
    (Conductor.carryOut id step line).Ensures current fun _ => holds (line :: lines))
include alike noted carries

/-- An act ensures an invariant of the lines that have been carried out, newest first, if carrying
out a line does and the surroundings do not matter otherwise. -/
theorem Act.ensures_course {before : List Act} (now : holds (before.filterMap Act.line?) stand)
    (act : Act) :
    (act.course id).Ensures stand fun _ => holds ((act :: before).filterMap Act.line?) := by
  cases act with
  | begin last moment =>
      have pauses : ∀ duration current, holds (before.filterMap Act.line?) current →
          (Course.pause duration).Ensures current fun _ => holds (before.filterMap Act.line?) :=
        fun duration current held value next performed =>
          alike _ _ _ (Course.ensures_pause duration value next performed) held
      refine Course.ensures_bind (Course.ensures_stopIfCancelled _) fun _ looked same => ?_
      have lookedHolds := alike _ _ _ same now
      refine Course.ensures_bind_of_ok (Course.perform_get looked) ?_
      dsimp only
      split
      · refine Course.ensures_bind (Course.ensures_confirm _) fun _ confirmed agreed => ?_
        exact pauses _ confirmed (alike _ _ _ agreed lookedHolds)
      · exact pauses _ looked lookedHolds
  | carryOut step line =>
      refine Course.ensures_bind (Course.ensures_stopIfCancelled _) fun _ looked same => ?_
      exact carries _ looked step line (alike _ _ _ same now)
  | count =>
      rw [Act.course]
      exact Course.ensures_of_ok (Course.perform_note _ _) (noted _ _ _ now)

/-- Going through acts ensures an invariant of their lines. -/
theorem ensures_forM_course (begins : holds [] stand) (parts : List Act) :
    (parts.forM (Act.course id)).Ensures stand fun _ =>
      holds (parts.filterMap Act.line?).reverse := by
  have ensured := @Course.ensures_forM Act stand parts (Act.course id)
    (fun before => holds (before.filterMap Act.line?))
    (fun _ act _ current => Act.ensures_course alike noted carries current act) [] begins
  rwa [List.append_nil, List.filterMap_reverse] at ensured

end Invariant

/-! ## Points -/

/-- A run up to the end of its first `count` acts. -/
def playFirst (document : Document) (steps : List DocumentStep) (count : Nat) :
    Course SessionId := do
  let session ← prepare document steps
  ((acts 0 steps).take count).forM (Act.course session)
  return session

/-- A run comes to a stand after its first `count` acts. -/
def ComesTo (document : Document) (start : Stand) (count : Nat) (id : SessionId) (stand : Stand) :
    Prop :=
  (playFirst document (chooseSteps start.conductor.settings document) count).perform start =
    (.ok id, stand)

section Points

variable {document : Document} {start stand : Stand} {id : SessionId} {count : Nat}

/-- A run is prepared before it goes through its first acts. -/
theorem comesTo_iff {steps : List DocumentStep}
    (chosen : chooseSteps start.conductor.settings document = steps) :
    ComesTo document start count id stand ↔ ∃ prepared,
      (prepare document steps).perform start = (.ok id, prepared) ∧
      (((acts 0 steps).take count).forM (Act.course id)).perform prepared = (.ok (), stand) := by
  rw [ComesTo, chosen, playFirst, Course.perform_bind_eq_ok_iff]
  constructor
  · rintro ⟨session, prepared, ready, played⟩
    obtain ⟨⟨⟩, last, acted, ended⟩ := Course.perform_bind_eq_ok_iff.mp played
    rw [Course.perform_pure] at ended
    cases ended
    exact ⟨prepared, ready, acted⟩
  · rintro ⟨prepared, ready, acted⟩
    refine ⟨id, prepared, ready, ?_⟩
    rw [Course.perform_bind_ok acted, Course.perform_pure]

/-- A run that comes to a point has come to all points before it. -/
theorem ComesTo.earlier (comes : ComesTo document start count id stand) {earlier : Nat}
    (before : earlier ≤ count) : ∃ current, ComesTo document start earlier id current := by
  obtain ⟨prepared, ready, acted⟩ := (comesTo_iff rfl).mp comes
  have split : ∀ parts : List Act, parts.take count =
      parts.take earlier ++ (parts.take count).drop earlier := by
    intro parts
    conv => lhs; rw [← List.take_append_drop earlier (parts.take count)]
    rw [List.take_take, Nat.min_eq_left before]
  rw [split, Course.forM_append] at acted
  obtain ⟨⟨⟩, current, first, _⟩ := Course.perform_bind_eq_ok_iff.mp acted
  exact ⟨current, (comesTo_iff rfl).mpr ⟨prepared, ready, first⟩⟩

/-- A run is prepared, goes through its acts and comes to its end. -/
theorem perform_run_acts {steps : List DocumentStep}
    (unspent : start.conductor.isSpent = false)
    (chosen : chooseSteps start.conductor.settings document = steps) (count : Nat) :
    (run document).perform start = (prepare document steps >>= fun session =>
      ((acts 0 steps).take count).forM (Act.course session) >>= fun _ =>
        ((acts 0 steps).drop count).forM (Act.course session) >>= fun _ =>
          finish session 0 []).perform start := by
  rw [perform_run unspent, chosen]
  congr 2
  funext session
  have played := playSteps_eq_forM session 0 steps
  rw [← List.take_append_drop count (acts 0 steps), Course.forM_append] at played
  rw [finish, played, bind_assoc]
  rfl

/-- A run goes on from the points that it comes to. -/
theorem ComesTo.goesOn (comes : ComesTo document start count id stand)
    (unspent : start.conductor.isSpent = false) {steps : List DocumentStep}
    (chosen : chooseSteps start.conductor.settings document = steps) :
    (run document).perform start = (((acts 0 steps).drop count).forM (Act.course id) >>= fun _ =>
      finish id 0 []).perform stand := by
  obtain ⟨prepared, ready, acted⟩ := (comesTo_iff chosen).mp comes
  rw [perform_run_acts unspent chosen count, Course.perform_bind_ok ready,
    Course.perform_bind_ok acted]

/-- A run that ends without an error comes to all its points. -/
theorem exists_comesTo_of_ok {report : Report} {final : Stand}
    (unspent : start.conductor.isSpent = false)
    (ended : (run document).perform start = (.ok report, final)) (count : Nat) :
    ∃ id stand, ComesTo document start count id stand := by
  rw [perform_run_acts unspent rfl count] at ended
  obtain ⟨id, prepared, ready, continued⟩ := Course.perform_bind_eq_ok_iff.mp ended
  obtain ⟨⟨⟩, stand, acted, _⟩ := Course.perform_bind_eq_ok_iff.mp continued
  exact ⟨id, stand, (comesTo_iff rfl).mpr ⟨prepared, ready, acted⟩⟩

end Points

end ContactReplay.Conductor
