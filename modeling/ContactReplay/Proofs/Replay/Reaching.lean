import ContactReplay.Proofs.Replay.Running

/-!
# Steps that a run reaches

A run can be looked at after each of its steps: `playThrough` is its beginning up to the end of some
steps, and `Reaches` says of a stand that the beginning of a run ends there and that the run is what
goes on from there.  `exists_reaches` says that a run of a playable document reaches all its steps,
each with the invariant of playing the lines up to it.
-/

namespace ContactReplay.Conductor

/-- A run up to the end of the first `count` steps. -/
def playThrough (document : Document) (steps : List DocumentStep) (count : Nat) :
    Course SessionId := do
  let session ← prepare document steps
  playSteps session 0 (steps.take count)
  return session

theorem playSteps_append (session : SessionId) (last : UInt64) (first : List DocumentStep)
    (moment : DocumentStep) (rest : List DocumentStep) :
    playSteps session last (first ++ moment :: rest) =
      playSteps session last (first ++ [moment]) >>= fun _ =>
        playSteps session moment.step rest := by
  induction first generalizing last with
  | nil => simp only [List.nil_append, playSteps, bind_assoc, pure_bind]
  | cons other others inductionHypothesis =>
      simp only [List.cons_append, playSteps, inductionHypothesis, bind_assoc]

theorem split_at {steps : List DocumentStep} {place : Nat} {moment : DocumentStep}
    (found : steps[place]? = some moment) :
    steps.take (place + 1) = steps.take place ++ [moment] ∧
      steps = steps.take place ++ moment :: steps.drop (place + 1) := by
  obtain ⟨within, rfl⟩ := List.getElem?_eq_some_iff.mp found
  simp

/-- The beginning of a run ends at a stand after the step at a place, and the run goes on from
there. -/
structure Reaches (document : Document) (place : Nat) (start : Stand) (id : SessionId)
    (stand : Stand) : Prop where
  played : (playThrough document (chooseSteps start.conductor.settings document)
    (place + 1)).perform start = (.ok id, stand)
  goesOn : ∀ moment, (chooseSteps start.conductor.settings document)[place]? = some moment →
    (run document).perform start = (finish id moment.step
      ((chooseSteps start.conductor.settings document).drop (place + 1))).perform stand

/-- A run is its beginning and what goes on from there. -/
theorem reaches_of_played {document : Document} {place : Nat} {start stand : Stand}
    {id : SessionId} (unspent : start.conductor.isSpent = false)
    (played : (playThrough document (chooseSteps start.conductor.settings document)
      (place + 1)).perform start = (.ok id, stand)) :
    Reaches document place start id stand where
  played := played
  goesOn moment found := by
    generalize chosen : chooseSteps start.conductor.settings document = steps at played found ⊢
    obtain ⟨beginning, whole⟩ := split_at found
    have parts : ∀ session, finish session 0 steps =
        playSteps session 0 (steps.take (place + 1)) >>= fun _ =>
          finish session moment.step (steps.drop (place + 1)) := by
      intro session
      conv => lhs; rw [whole, finish, playSteps_append, bind_assoc]
      rw [beginning]
      rfl
    have glued : (prepare document steps >>= fun session => finish session 0 steps) =
        playThrough document steps (place + 1) >>= fun session =>
          finish session moment.step (steps.drop (place + 1)) := by
      simp only [playThrough, bind_assoc, pure_bind, parts]
    rw [perform_run unspent, chosen, glued, Course.perform_bind_ok played]

/-- A run of a playable document reaches all its steps. -/
theorem exists_reaches {chosen : Settings} {stand : Stand} {document : Document}
    (calm : stand.rehearsal.Calm) (unused : stand.conductor = fresh chosen)
    (stocked : stand.rehearsal.testbed.serviceFiles.contains (configName chosen) = true)
    (small : chosen.addressing.subnetCapacity.toNat ≤ 256)
    (few : document.nodes.length < UInt32.size - 2) (playable : document.Playable chosen) :
    ∃ id registry addresses,
      registry.Faithful (document.nodes.reverse.filter (takesPart (chooseSteps chosen document))) ∧
      (∀ line ∈ document.chosenLines chosen, Prepared registry addresses line) ∧
      ∀ place, ∃ session next, Reaches document place stand id next ∧
        Playing stand.rehearsal.testbed.serviceFiles id registry addresses
          (((chooseSteps chosen document).take (place + 1)).flatMap (·.lines)).reverse session
          next := by
  obtain ⟨preparable, turns⟩ := playable_iff.mp playable
  obtain ⟨id, prepared, prepareOk, registry, addresses, session, ready⟩ :=
    (decides_prepare calm unused stocked small few).exists_ok preparable
  refine ⟨id, registry, addresses, ready.faithful, ready.prepared, fun place => ?_⟩
  have settings : stand.conductor.settings = chosen := congrArg Conductor.settings unused
  have whole : (chooseSteps chosen document).flatMap (·.lines) =
      ((chooseSteps chosen document).take (place + 1)).flatMap (·.lines) ++
        ((chooseSteps chosen document).drop (place + 1)).flatMap (·.lines) := by
    rw [← List.flatMap_append, List.take_append_drop]
  have possible := ready.succession_iff.mpr turns
  have allPrepared := ready.prepared
  rw [whole] at possible allPrepared
  -- What can be played as a whole can be played up to the place.
  have first := (ready.toPlaying.decides_playSteps 0
    (List.forall_mem_append.mp allPrepared).1).exists_ok ((succession_append _ _ _).mp possible).1
  obtain ⟨_, next, playedOk, played, playing⟩ := first
  rw [List.append_nil] at playing
  refine ⟨played, next, reaches_of_played ?_ ?_, playing⟩
  · rw [unused]
    rfl
  · rw [settings, playThrough, Course.perform_bind_ok prepareOk, Course.perform_bind_ok playedOk]
    rfl

end ContactReplay.Conductor
