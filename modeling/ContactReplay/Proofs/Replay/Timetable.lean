import ContactReplay.Proofs.Replay.Asking

/-!
# The order of questions

When a run has been prepared, its settings and its steps tell what it is going to ask, as far as its
requests are not looked into: `timetable` lists for every step a look for a cancellation, a prompt
if an operator is to confirm the step, a pause, and for every line another look and the change of a
link.  A run goes along its timetable and then tears the session down, unless it ends before
(`exists_asks_run`).  Links are therefore changed right after a look only (`Guarded`).
-/

namespace ContactReplay

/-- What can be told of a question in advance. -/
inductive Cue where
  | prepare
  | look
  | confirm (prompt : Prompt)
  | pause (duration : Duration)
  | change
  | teardown
  deriving DecidableEq, Repr

def Ask.cue : Ask → Cue
  | .request (.order _ (.adjustLink _)) => .change
  | .request (.order _ .teardown) => .teardown
  | .request _ => .prepare
  | .pause duration => .pause duration
  | .confirm prompt => .confirm prompt
  | .isCancelled => .look

/-- What is asked for steps that follow a step `last`, in order. -/
def timetable (settings : Settings) (last : UInt64) : List DocumentStep → List Cue
  | [] => []
  | moment :: rest =>
      [.look] ++ (if settings.interactive then [.confirm (.step moment.step)] else []) ++
        [.pause (settings.delay (moment.step - last))] ++
        moment.lines.flatMap (fun _ => [.look, .change]) ++ timetable settings moment.step rest

example : timetable { interactive := true } 0
      [⟨1, 5, [.add "e0" "a" "b" 6, .delete "e0" 7]⟩, ⟨4, 8, []⟩] =
    [.look, .confirm (.step 1), .pause (.ofMilliseconds 5000), .look, .change, .look, .change,
      .look, .confirm (.step 4), .pause (.ofMilliseconds 5000)] := by
  decide

theorem prepare_not_mem_timetable (settings : Settings) (last : UInt64)
    (steps : List DocumentStep) : .prepare ∉ timetable settings last steps := by
  induction steps generalizing last with
  | nil => exact List.not_mem_nil
  | cons moment rest inductionHypothesis =>
      cases interactive : settings.interactive <;>
        simp [timetable, interactive, inductionHypothesis moment.step]

/-- There are as many looks for a cancellation as steps that they belong to. -/
theorem count_look_timetable (settings : Settings) (last : UInt64) (steps : List DocumentStep) :
    (timetable settings last steps).count .look = (checkpoints steps).length := by
  induction steps generalizing last with
  | nil => rfl
  | cons moment rest inductionHypothesis =>
      have lines : (moment.lines.flatMap fun _ => [Cue.look, Cue.change]).count .look =
          moment.lines.length := by
        induction moment.lines with
        | nil => rfl
        | cons line others inductionHypothesis =>
            rw [List.flatMap_cons, List.count_append, inductionHypothesis, List.length_cons,
              Nat.add_comm]
            rfl
      have later := inductionHypothesis moment.step
      rw [checkpoints, List.flatMap_cons, List.length_append, ← checkpoints, ← later]
      cases interactive : settings.interactive <;>
        simp only [timetable, interactive, lines, Bool.false_eq_true, if_true, if_false,
          List.append_nil, List.count_append, List.count_singleton, List.length_cons,
          List.length_map, beq_self_eq_true, reduceCtorEq, beq_iff_eq] <;>
        omega

namespace Ask

theorem cue_eq_prepare_iff {question : Ask} :
    question.cue = .prepare ↔ question.prepares = true := by
  cases question with
  | request asked =>
      cases asked with
      | createSession => exact iff_of_true rfl rfl
      | order session order => cases order <;> simp [cue, prepares, Order.prepares]
  | _ => simp [cue, prepares]

theorem cue_of_adjusts {question : Ask} (adjusts : question.adjusts = true) :
    question.cue = .change := by
  cases question with
  | request asked =>
      cases asked with
      | createSession => cases adjusts
      | order session order => cases order <;> first | rfl | cases adjusts
  | _ => cases adjusts

theorem eq_isCancelled_of_cue {question : Ask} (looks : question.cue = .look) :
    question = .isCancelled := by
  cases question with
  | isCancelled => rfl
  | request asked =>
      cases asked with
      | createSession => cases looks
      | order session order => cases order <;> cases looks
  | pause duration => cases looks
  | confirm prompt => cases looks

end Ask

/-- What a replay asks: all that belongs to its preparations, and then what is told in advance, in
this order, and the teardown at last.  Only a replay that fails may stop before. -/
structure Scheduled (settings : Settings) (steps : List DocumentStep)
    (outcome : Except Error Report) (preparing playing : List Ask) : Prop where
  prepares : ∀ question ∈ preparing, question.prepares = true ∨ question = .confirm .start
  along : playing.map Ask.cue <+: timetable settings 0 steps ++ [.teardown]
  whole : ∀ report, outcome = .ok report →
    playing.map Ask.cue = timetable settings 0 steps ++ [.teardown]

/-! ## Courses along cues -/

namespace Course

variable {α β : Type} {settings : Settings} {cues others : List Cue}

/-- With some settings a course asks what some cues tell, in their order, and all of it if it ends
without an error. -/
def Follows (settings : Settings) (cues : List Cue) (course : Course α) : Prop :=
  ∀ stand, stand.conductor.settings = settings →
    (course.asks stand).map Ask.cue <+: cues ∧
      course.Ensures stand fun _ _ => (course.asks stand).map Ask.cue = cues

/-- No course of a run changes the settings. -/
theorem faithful_keeps_settings (settings : Settings) :
    Faithful (fun _ => True) fun α =>
      Keeps (α := α) fun stand => stand.conductor.settings = settings where
  silent result akin := by
    intro stand settled value next performed
    obtain ⟨_, rfl⟩ := Prod.mk.inj performed
    exact (akin stand.conductor).settings.trans settled
  bind := keeps_bind
  request request _ := fun _ settled reply next performed =>
    (congrArg Conductor.settings (ensures_request request reply next performed).1).trans settled
  pause duration _ := fun _ settled value next performed =>
    (congrArg Conductor.settings (ensures_pause duration value next performed).conductor).trans
      settled
  confirm prompt _ := fun _ settled value next performed =>
    (congrArg Conductor.settings (ensures_confirm prompt value next performed).conductor).trans
      settled
  look step _ := fun _ settled value next performed =>
    (congrArg Conductor.settings
      (ensures_stopIfCancelled step value next performed).conductor).trans settled

theorem follows_of_silent {course : Course α} (silent : course.AsksOnly fun _ => False) :
    course.Follows settings [] := by
  intro stand _
  rw [silent.asks_eq_nil]
  exact ⟨List.prefix_rfl, fun _ _ _ => rfl⟩

theorem follows_throw (error : Error) : (throw error : Course α).Follows settings cues :=
  fun _ _ => ⟨List.nil_prefix, ensures_of_error (perform_throw _ error)⟩

theorem follows_request (request : Request) :
    (Course.request request).Follows settings [(Ask.request request).cue] :=
  fun _ _ => ⟨List.prefix_rfl, fun _ _ _ => rfl⟩

theorem follows_pause (duration : Duration) :
    (pause duration).Follows settings [.pause duration] :=
  fun _ _ => ⟨List.prefix_rfl, fun _ _ _ => rfl⟩

theorem follows_confirm (prompt : Prompt) :
    (confirm prompt).Follows settings [.confirm prompt] :=
  fun _ _ => ⟨List.prefix_rfl, fun _ _ _ => rfl⟩

theorem follows_stopIfCancelled (step : UInt64) :
    (stopIfCancelled step).Follows settings [.look] :=
  fun _ _ => ⟨List.prefix_rfl, fun _ _ _ => rfl⟩

theorem follows_bind {first : Course α} {rest : α → Course β}
    (keeps : first.Keeps fun stand => stand.conductor.settings = settings)
    (begins : first.Follows settings cues)
    (goesOn : ∀ value, (rest value).Follows settings others) :
    (first >>= rest).Follows settings (cues ++ others) := by
  intro stand settled
  obtain ⟨some, all⟩ := begins stand settled
  rcases performed : first.perform stand with ⟨outcome, next⟩
  cases outcome with
  | error error =>
      rw [asks_bind_of_error performed]
      exact ⟨some.trans (List.prefix_append _ _), ensures_bind_of_error performed⟩
  | ok value =>
      obtain ⟨more, others⟩ := goesOn value next (keeps stand settled value next performed)
      rw [asks_bind_of_ok performed, List.map_append, all value next performed]
      refine ⟨(List.prefix_append_right_inj _).mpr more, ensures_bind_of_ok performed ?_⟩
      intro result last ended
      rw [others result last ended]

theorem follows_bind_silent {first : Course α} {rest : α → Course β}
    (keeps : first.Keeps fun stand => stand.conductor.settings = settings)
    (silent : first.AsksOnly fun _ => False)
    (goesOn : ∀ value, (rest value).Follows settings cues) :
    (first >>= rest).Follows settings cues :=
  follows_bind keeps (follows_of_silent silent) goesOn

theorem follows_bind_of_silent {first : Course α} {rest : α → Course β}
    (keeps : first.Keeps fun stand => stand.conductor.settings = settings)
    (begins : first.Follows settings cues)
    (silent : ∀ value, (rest value).AsksOnly fun _ => False) :
    (first >>= rest).Follows settings cues := by
  rw [← List.append_nil cues]
  exact follows_bind keeps begins fun value => follows_of_silent (silent value)

theorem follows_bind_get {rest : Conductor → Course α}
    (goesOn : ∀ conductor, conductor.settings = settings → (rest conductor).Follows settings cues) :
    (get >>= rest).Follows settings cues := by
  intro stand settled
  rw [asks_bind_of_ok (perform_get stand)]
  obtain ⟨some, all⟩ := goesOn stand.conductor settled stand settled
  exact ⟨some, ensures_bind_of_ok (perform_get stand) all⟩

theorem follows_forM {items : List α} {body : α → Course Unit} {cuesOf : α → List Cue}
    (keeps : ∀ item, (body item).Keeps fun stand => stand.conductor.settings = settings)
    (each : ∀ item, (body item).Follows settings (cuesOf item)) :
    (items.forM body).Follows settings (items.flatMap cuesOf) := by
  induction items with
  | nil => exact follows_of_silent fun _ => trivial
  | cons item rest inductionHypothesis =>
      rw [List.flatMap_cons]
      exact follows_bind (keeps item) (each item) fun _ => inductionHypothesis

end Course

/-! ## Runs along their timetables -/

namespace Conductor

open Course

variable {settings : Settings}

/-- What an act asks. -/
def Act.cues (settings : Settings) : Act → List Cue
  | .begin last moment =>
      [.look] ++ (if settings.interactive then [.confirm (.step moment.step)] else []) ++
        [.pause (settings.delay (moment.step - last))]
  | .carryOut _ _ => [.look, .change]
  | .count => []

theorem flatMap_cues_acts (last : UInt64) (steps : List DocumentStep) :
    (acts last steps).flatMap (Act.cues settings) = timetable settings last steps := by
  induction steps generalizing last with
  | nil => rfl
  | cons moment rest inductionHypothesis =>
      have carried : (moment.lines.map (Act.carryOut moment.step)).flatMap (Act.cues settings) =
          moment.lines.flatMap fun _ => [.look, .change] := by
        rw [List.flatMap_map]
        rfl
      rw [acts, List.flatMap_cons, List.flatMap_append, carried, List.flatMap_cons,
        inductionHypothesis, timetable, List.append_assoc _ (List.flatMap _ _)]
      rfl

theorem follows_setLoss (session : SessionId) (pair : Pair NodeId) (loss : Loss) :
    (setLoss session pair loss).Follows settings [.change] := by
  refine follows_bind_get fun conductor _ => ?_
  cases conductor.addresses.get? pair with
  | none => exact follows_throw _
  | some allotment => exact follows_request (.order session (.adjustLink _))

theorem follows_carryOut (session : SessionId) (step : UInt64) (line : EdgeLine) :
    (carryOut session step line).Follows settings [.change] := by
  have silent := sequential_asksOnly fun _ => False
  have keeps := faithful_keeps_settings settings
  have keepsLoss {pair : Pair NodeId} {loss : Loss} (switches : loss = Loss.up ∨ loss = Loss.down) :
      (setLoss session pair loss).Keeps fun stand => stand.conductor.settings = settings :=
    keeps.setLoss (fun _ _ _ => trivial) pair switches
  cases line with
  | add edge first second number =>
      refine follows_bind_get fun conductor _ => ?_
      split
      · exact follows_throw (.invariant (.edgeAlreadyUp edge number step))
      · refine follows_bind_silent (keeps.resolvePair first second number)
          (silent.resolvePair first second number) fun pair => ?_
        refine follows_bind_of_silent (keepsLoss (Or.inl rfl)) (follows_setLoss session pair _)
          fun _ => ?_
        exact silent.bind (silent.modify _) fun _ => silent.modify _
  | delete edge number =>
      refine follows_bind_get fun conductor _ => ?_
      cases conductor.openEdges.get? edge with
      | none => exact follows_throw _
      | some pair =>
          refine follows_bind_silent (keeps.modify _ fun _ => ⟨rfl, rfl⟩) (silent.modify _)
            fun _ => ?_
          exact follows_bind_of_silent (keepsLoss (Or.inr rfl)) (follows_setLoss session pair _)
            fun _ => silent.modify _

theorem follows_course (session : SessionId) (act : Act) :
    (act.course session).Follows settings (act.cues settings) := by
  have keeps := faithful_keeps_settings settings
  have looks := fun step => keeps.look step trivial
  cases act with
  | begin last moment =>
      rw [Act.cues, List.append_assoc]
      refine follows_bind (looks moment.step) (follows_stopIfCancelled moment.step) fun _ => ?_
      refine follows_bind_get fun conductor settled => ?_
      dsimp only
      rw [settled]
      split
      · exact follows_bind (keeps.confirm _ trivial) (follows_confirm _) fun _ => follows_pause _
      · exact follows_pause _
  | carryOut step line =>
      exact follows_bind (looks step) (follows_stopIfCancelled step) fun _ =>
        follows_carryOut session step line
  | count => exact follows_of_silent ((sequential_asksOnly _).modify _)

theorem follows_conclude (session : SessionId) :
    (conclude session).Follows settings [.teardown] := by
  have silent := sequential_asksOnly fun _ => False
  have keeps := faithful_keeps_settings settings
  refine follows_bind_silent (keeps.modify _ fun _ => ⟨rfl, rfl⟩) (silent.modify _) fun _ => ?_
  exact follows_bind_of_silent (keeps.request _ trivial)
    (follows_request (.order session .teardown)) fun _ =>
      silent.bind silent.get fun _ => silent.faithful.pure _

theorem follows_finish (session : SessionId) (steps : List DocumentStep) :
    (finish session 0 steps).Follows settings (timetable settings 0 steps ++ [.teardown]) := by
  have keeps := faithful_keeps_settings settings
  have keepsActs : ∀ act : Act,
      (act.course session).Keeps fun stand => stand.conductor.settings = settings :=
    keeps.course (fun _ _ => trivial) (fun _ _ _ => trivial) trivial
  rw [finish_eq_bind, ← flatMap_cues_acts]
  exact follows_bind (keeps.forM fun act _ => keepsActs act)
    (follows_forM keepsActs (follows_course session)) fun _ => follows_conclude session

theorem asks_run {stand : Stand} (unspent : stand.conductor.isSpent = false)
    (document : Document) :
    (run document).asks stand =
      (prepare document (chooseSteps stand.conductor.settings document) >>= fun session =>
        finish session 0 (chooseSteps stand.conductor.settings document)).asks stand := by
  rw [run_eq_bind, asks_bind_of_ok (perform_get stand), if_neg (Bool.eq_false_iff.mp unspent),
    asks_bind_of_ok (perform_get stand)]
  rfl

/-- A run asks for its preparations first and then goes along its timetable. -/
theorem exists_scheduled_run (document : Document) (stand : Stand) :
    ∃ preparing playing, (run document).asks stand = preparing ++ playing ∧
      Scheduled stand.conductor.settings
        (chooseSteps stand.conductor.settings document) ((run document).perform stand).1
        preparing playing := by
  cases spent : stand.conductor.isSpent with
  | true =>
      refine ⟨[], [], ?_, nofun, List.nil_prefix, ?_⟩
      · rw [run_eq_bind, asks_bind_of_ok (perform_get stand), if_pos spent]
        rfl
      · rw [run_eq_bind, perform_bind_ok (perform_get stand), if_pos spent]
        nofun
  | false =>
      have prepares : (prepare document (chooseSteps stand.conductor.settings document)).AsksOnly
          fun question => question.prepares = true ∨ question = .confirm .start :=
        (sequential_asksOnly _).prepare (fun _ prepares _ => Or.inl prepares) document _
          (Or.inr rfl)
      have keeps : (prepare document (chooseSteps stand.conductor.settings document)).Keeps
          fun next => next.conductor.settings = stand.conductor.settings :=
        (faithful_keeps_settings _).prepare (fun _ _ _ => trivial)
          (fun _ => keeps_modify fun _ settled => settled) document _ trivial
      rw [asks_run spent, perform_run spent]
      rcases prepared : (prepare document
        (chooseSteps stand.conductor.settings document)).perform stand with ⟨outcome, next⟩
      cases outcome with
      | error error =>
          rw [asks_bind_of_error prepared, perform_bind_error prepared]
          exact ⟨_, [], (List.append_nil _).symm, prepares.of_mem_asks, List.nil_prefix, nofun⟩
      | ok session =>
          obtain ⟨along, whole⟩ := follows_finish session
            (chooseSteps stand.conductor.settings document) next
            (keeps stand rfl session next prepared)
          rw [asks_bind_of_ok prepared, perform_bind_ok prepared]
          refine ⟨_, _, rfl, prepares.of_mem_asks, along, fun report ended => ?_⟩
          exact whole report _ (Prod.ext ended rfl)

end Conductor

/-! ## Links and looks -/

/-- Links are changed right after a look for a cancellation only. -/
def Guarded (cues : List Cue) : Prop :=
  ∀ before after, cues = before ++ .change :: after → ∃ earlier, before = earlier ++ [.look]

theorem guarded_of_not_mem {cues : List Cue} (never : .change ∉ cues) : Guarded cues := by
  rintro before after rfl
  exact absurd (List.mem_append_right before List.mem_cons_self) never

theorem guarded_look_change : Guarded [.look, .change] := by
  intro before after parted
  match before with
  | [] => cases parted
  | [first] =>
      obtain ⟨rfl, _⟩ := List.cons.inj parted
      exact ⟨[], rfl⟩
  | _ :: _ :: rest => simp at parted

theorem Guarded.append {first second : List Cue} (firstGuarded : Guarded first)
    (secondGuarded : Guarded second) : Guarded (first ++ second) := by
  intro before after parted
  rcases List.append_eq_append_iff.mp parted with ⟨more, rfl, rest⟩ | ⟨more, whole, rest⟩
  · obtain ⟨earlier, rfl⟩ := secondGuarded more after rest
    exact ⟨first ++ earlier, (List.append_assoc _ _ _).symm⟩
  · cases more with
    | nil =>
        obtain ⟨earlier, none⟩ := secondGuarded [] after rest.symm
        simp at none
    | cons head others =>
        obtain ⟨rfl, _⟩ := List.cons.inj rest
        exact firstGuarded before others whole

theorem Guarded.of_begins {cues others : List Cue} (guarded : Guarded others)
    (begins : cues <+: others) : Guarded cues := by
  obtain ⟨rest, rfl⟩ := begins
  rintro before after rfl
  exact guarded before (after ++ rest) (by simp)

theorem guarded_timetable (settings : Settings) (last : UInt64) (steps : List DocumentStep) :
    Guarded (timetable settings last steps) := by
  induction steps generalizing last with
  | nil => exact guarded_of_not_mem List.not_mem_nil
  | cons moment rest inductionHypothesis =>
      have lines : Guarded (moment.lines.flatMap fun _ => [.look, .change]) := by
        induction moment.lines with
        | nil => exact guarded_of_not_mem List.not_mem_nil
        | cons line others inductionHypothesis =>
            exact guarded_look_change.append inductionHypothesis
      refine (Guarded.append ?_ lines).append (inductionHypothesis moment.step)
      cases interactive : settings.interactive with
      | true => exact guarded_of_not_mem (by simp)
      | false => exact guarded_of_not_mem (by simp)

namespace Scheduled

variable {settings : Settings} {steps : List DocumentStep} {outcome : Except Error Report}
  {preparing playing : List Ask}

theorem ne_isCancelled (scheduled : Scheduled settings steps outcome preparing playing) :
    ∀ question ∈ preparing, question ≠ .isCancelled := by
  rintro question member rfl
  rcases scheduled.prepares _ member with prepares | starts
  · cases prepares
  · cases starts

/-- All preparations are asked for before what is told in advance. -/
theorem not_prepares (scheduled : Scheduled settings steps outcome preparing playing) :
    ∀ question ∈ playing, question.prepares = false := by
  intro question member
  rw [← Bool.not_eq_true, ← Ask.cue_eq_prepare_iff]
  intro prepares
  have told := scheduled.along.mem (List.mem_map_of_mem member)
  rw [prepares] at told
  rcases List.mem_append.mp told with told | told
  · exact prepare_not_mem_timetable settings 0 steps told
  · simp at told

/-- A replay that succeeds looks for a cancellation at every checkpoint. -/
theorem count_isCancelled (scheduled : Scheduled settings steps outcome preparing playing)
    {report : Report} (succeeds : outcome = .ok report) :
    (preparing ++ playing).count .isCancelled = (checkpoints steps).length := by
  have looks : playing.count .isCancelled = (playing.map Ask.cue).count .look := by
    rw [List.count, List.count, List.countP_map]
    congr 1
    funext question
    exact Bool.eq_iff_iff.mpr ⟨fun same => by rw [eq_of_beq same]; rfl,
      fun same => by rw [Ask.eq_isCancelled_of_cue (eq_of_beq same)]; rfl⟩
  have none : preparing.count .isCancelled = 0 :=
    List.count_eq_zero.mpr fun member => scheduled.ne_isCancelled _ member rfl
  rw [List.count_append, none, Nat.zero_add, looks, scheduled.whole report succeeds,
    List.count_append, count_look_timetable]
  rfl

theorem guarded (scheduled : Scheduled settings steps outcome preparing playing) :
    Guarded ((preparing ++ playing).map Ask.cue) := by
  rw [List.map_append]
  have teardown : Guarded [.teardown] := guarded_of_not_mem (by simp)
  refine Guarded.append (guarded_of_not_mem ?_)
    (((guarded_timetable settings 0 steps).append teardown).of_begins scheduled.along)
  intro member
  obtain ⟨question, questionMember, changes⟩ := List.mem_map.mp member
  rcases scheduled.prepares question questionMember with prepares | rfl
  · rw [Ask.cue_eq_prepare_iff.mpr prepares] at changes
    cases changes
  · cases changes

end Scheduled

end ContactReplay
