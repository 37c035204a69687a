import ContactReplay.Proofs.Replay.Faults

/-!
# What a run asks

Facts about the questions of a run, whatever the answers are:

* a course may ask questions of some kind only (`AsksOnly`), and then it asks no others; a run never
  asks for a link that carries only a part of what it is sent (`switches_run`);
* the looks for a cancellation are those of `checkpoints`, one before each step and one before each
  of its lines, and a look that finds one ends the run with the number of its step (`minds_run`).
-/

namespace ContactReplay

/-! ## Questions of scripts -/

namespace Script

variable {α β : Type} {kind : Ask → Prop}

/-- All questions that a script may ask are of a kind. -/
def AsksOnly (kind : Ask → Prop) : Script α → Prop
  | .done _ => True
  | .ask question next => kind question ∧ ∀ reply, (next reply).AsksOnly kind

theorem AsksOnly.of_mem_asks {script : Script α} (only : script.AsksOnly kind)
    {rehearsal : Rehearsal} : ∀ question ∈ script.asks rehearsal, kind question := by
  induction script generalizing rehearsal with
  | done result => nofun
  | ask question next inductionHypothesis =>
      exact List.forall_mem_cons.mpr ⟨only.1, inductionHypothesis _ (only.2 _)⟩

theorem asksOnly_bind {script : Script α} {next : α → Script β} (first : script.AsksOnly kind)
    (rest : ∀ result, (next result).AsksOnly kind) : (script >>= next).AsksOnly kind := by
  induction script with
  | done result => exact rest result
  | ask question others inductionHypothesis =>
      exact ⟨first.1, fun reply => inductionHypothesis reply (first.2 reply)⟩

theorem asks_bind (script : Script α) (next : α → Script β) (rehearsal : Rehearsal) :
    (script >>= next).asks rehearsal = script.asks rehearsal ++
      (next ((script.play Rehearsal.answer).run rehearsal).1).asks
        ((script.play Rehearsal.answer).run rehearsal).2 := by
  induction script generalizing rehearsal with
  | done result => rfl
  | ask question others inductionHypothesis =>
      rw [run_play_ask]
      exact congrArg (question :: ·) (inductionHypothesis _ _)

/-- The looks for a cancellation belong to some steps, and one that finds a cancellation ends the
script with the number of its step. -/
def Minds : List UInt64 → Script (Except Error α × Conductor) → Prop
  | checks, .done (.ok _, _) => checks = []
  | _, .done (.error _, _) => True
  | checks, .ask .isCancelled next => ∃ step others, checks = step :: others ∧
      (∃ conductor, next true = .done (.error (.cancelled step), conductor)) ∧
      (next false).Minds others
  | checks, .ask (.request _) next => ∀ reply, (next reply).Minds checks
  | checks, .ask (.pause _) next => (next ()).Minds checks
  | checks, .ask (.confirm _) next => ∀ reply, (next reply).Minds checks

theorem minds_of_asksOnly {script : Script (Except Error α × Conductor)}
    (only : script.AsksOnly (· ≠ .isCancelled)) : script.Minds [] := by
  induction script with
  | done ended =>
      rcases ended with ⟨_ | _, _⟩
      · exact trivial
      · exact rfl
  | ask question next inductionHypothesis =>
      cases question with
      | isCancelled => exact absurd rfl only.1
      | request asked => exact fun reply => inductionHypothesis reply (only.2 reply)
      | pause duration => exact inductionHypothesis () (only.2 ())
      | confirm prompt => exact fun reply => inductionHypothesis reply (only.2 reply)

theorem minds_bindCont {script : Script (Except Error α × Conductor)} {rest : α → Course β}
    {checks others : List UInt64} (first : script.Minds checks)
    (second : ∀ value conductor, (rest value conductor).Minds others) :
    Minds (checks ++ others) (script >>= fun ended =>
      (ExceptT.bindCont rest ended.1 : StateT Conductor Script _) ended.2) := by
  induction script generalizing checks with
  | done ended =>
      rcases ended with ⟨outcome, conductor⟩
      cases outcome with
      | ok value =>
          obtain rfl : checks = [] := first
          exact second value conductor
      | error error => exact trivial
  | ask question next inductionHypothesis =>
      cases question with
      | request asked => exact fun reply => inductionHypothesis reply (first reply)
      | pause duration => exact inductionHypothesis () first
      | confirm prompt => exact fun reply => inductionHypothesis reply (first reply)
      | isCancelled =>
          obtain ⟨step, later, rfl, ⟨conductor, stopped⟩, goesOn⟩ := first
          refine ⟨step, later ++ others, rfl, ⟨conductor, ?_⟩, inductionHypothesis false goesOn⟩
          change (next true).andThen _ = _
          rw [stopped]
          rfl

end Script

/-! ## Questions of courses -/

namespace Course

variable {α β : Type}

/-- The questions that a course asks from a stand. -/
def asks (course : Course α) (stand : Stand) : List Ask :=
  (course stand.conductor).asks stand.rehearsal

theorem asks_bind_of_ok {first : Course α} {rest : α → Course β} {stand next : Stand} {value : α}
    (performed : first.perform stand = (.ok value, next)) :
    (first >>= rest).asks stand = first.asks stand ++ (rest value).asks next := by
  obtain ⟨same, rfl⟩ := Prod.mk.inj performed
  have opened := Script.asks_bind (first stand.conductor)
    (fun ended => (ExceptT.bindCont rest ended.1 : StateT Conductor Script _) ended.2)
    stand.rehearsal
  rw [same] at opened
  exact opened

theorem asks_bind_of_error {first : Course α} {rest : α → Course β} {stand next : Stand}
    {error : Error} (performed : first.perform stand = (.error error, next)) :
    (first >>= rest).asks stand = first.asks stand := by
  obtain ⟨same, rfl⟩ := Prod.mk.inj performed
  have opened := Script.asks_bind (first stand.conductor)
    (fun ended => (ExceptT.bindCont rest ended.1 : StateT Conductor Script _) ended.2)
    stand.rehearsal
  rw [same] at opened
  exact opened.trans (List.append_nil _)

/-! ### Kinds of questions -/

/-- All questions that a course may ask are of a kind. -/
def AsksOnly (kind : Ask → Prop) (course : Course α) : Prop :=
  ∀ conductor, (course conductor).AsksOnly kind

theorem sequential_asksOnly (kind : Ask → Prop) :
    Sequential kind fun α => AsksOnly (α := α) kind where
  silent _ := fun _ => trivial
  bind first rest := fun conductor => Script.asksOnly_bind (first conductor) fun ended => by
    rcases ended with ⟨outcome, next⟩
    cases outcome with
    | ok value => exact rest value next
    | error error => exact trivial
  request _ fits := fun _ => ⟨fits, fun _ => trivial⟩
  pause _ fits := fun _ => ⟨fits, fun _ => trivial⟩
  confirm _ fits := fun _ => ⟨fits, fun _ => trivial⟩
  look _ fits := fun _ => ⟨fits, fun _ => trivial⟩

theorem AsksOnly.of_mem_asks {kind : Ask → Prop} {course : Course α} (only : course.AsksOnly kind)
    {stand : Stand} : ∀ question ∈ course.asks stand, kind question :=
  (only stand.conductor).of_mem_asks

theorem AsksOnly.asks_eq_nil {course : Course α} (only : course.AsksOnly fun _ => False)
    (stand : Stand) : course.asks stand = [] :=
  List.eq_nil_iff_forall_not_mem.mpr only.of_mem_asks

/-! ### Looks for a cancellation -/

/-- The looks for a cancellation belong to some steps, whatever the conductor knows. -/
def Minds (checks : List UInt64) (course : Course α) : Prop :=
  ∀ conductor, (course conductor).Minds checks

theorem minds_of_asksOnly {course : Course α} (only : course.AsksOnly (· ≠ .isCancelled)) :
    course.Minds [] :=
  fun conductor => Script.minds_of_asksOnly (only conductor)

theorem minds_bind {first : Course α} {rest : α → Course β} {checks others : List UInt64}
    (begins : first.Minds checks) (goesOn : ∀ value, (rest value).Minds others) :
    (first >>= rest).Minds (checks ++ others) :=
  fun conductor => Script.minds_bindCont (begins conductor) fun value => goesOn value

theorem minds_stopIfCancelled (step : UInt64) : (stopIfCancelled step).Minds [step] :=
  fun conductor => ⟨step, [], rfl, ⟨conductor, rfl⟩, rfl⟩

end Course

/-! ## Questions of a run -/

/-- The steps whose cancellation a run looks for: each step before it begins and before each of its
lines. -/
def checkpoints (steps : List DocumentStep) : List UInt64 :=
  steps.flatMap fun moment => moment.step :: moment.lines.map fun _ => moment.step

namespace Conductor

open Course

theorem prepares_ne_isCancelled {question : Ask} (prepares : question.prepares = true) :
    question ≠ .isCancelled := by
  rintro rfl
  cases prepares

theorem filterMap_step?_acts (last : UInt64) (steps : List DocumentStep) :
    (acts last steps).filterMap Act.step? = checkpoints steps := by
  induction steps generalizing last with
  | nil => rfl
  | cons moment rest inductionHypothesis =>
      have carried : (moment.lines.map (Act.carryOut moment.step)).filterMap Act.step? =
          moment.lines.map fun _ => moment.step := by
        rw [List.filterMap_map]
        exact congrFun List.filterMap_eq_map moment.lines
      have begun : (Act.begin last moment).step? = some moment.step := rfl
      rw [acts, List.filterMap_cons_some begun, List.filterMap_append, carried,
        List.filterMap_cons_none rfl, inductionHypothesis]
      rfl

/-! ### Looks for a cancellation -/

theorem minds_course (session : SessionId) (act : Act) :
    (act.course session).Minds act.step?.toList := by
  have works : (act.work session).Minds [] :=
    minds_of_asksOnly <| (sequential_asksOnly _).work
      (by rintro _ waits rfl; cases waits) (by rintro _ adjusts _ rfl; cases adjusts) session act
  rw [Act.course_eq]
  cases act.step? with
  | none => exact works
  | some step => exact minds_bind (minds_stopIfCancelled step) fun _ => works

theorem minds_forM_course (session : SessionId) (acts : List Act) :
    (acts.forM (Act.course session)).Minds (acts.filterMap Act.step?) := by
  induction acts with
  | nil => exact fun _ => rfl
  | cons act rest inductionHypothesis =>
      have parted : (act :: rest).filterMap Act.step? =
          act.step?.toList ++ rest.filterMap Act.step? := by
        cases checked : act.step? with
        | none => exact List.filterMap_cons_none checked
        | some step => exact List.filterMap_cons_some checked
      rw [parted]
      exact minds_bind (minds_course session act) fun _ => inductionHypothesis

theorem minds_finish (session : SessionId) (steps : List DocumentStep) :
    (finish session 0 steps).Minds (checkpoints steps) := by
  have concludes : (conclude session).AsksOnly (· ≠ .isCancelled) :=
    (sequential_asksOnly _).conclude session nofun
  rw [finish_eq_bind, ← filterMap_step?_acts 0, ← List.append_nil (List.filterMap _ _)]
  exact minds_bind (minds_forM_course session _) fun _ => minds_of_asksOnly concludes

/-- A run looks for a cancellation at its checkpoints and ends where it finds one. -/
theorem minds_run (document : Document) (conductor : Conductor) :
    (run document conductor).Minds (checkpoints (chooseSteps conductor.settings document)) := by
  rw [run_eq_bind]
  change ((if conductor.isSpent then throw (.invariant .conductorSpent) else _ : Course Report)
    conductor).Minds _
  split
  · exact trivial
  · have prepares : (prepare document (chooseSteps conductor.settings document)).AsksOnly
        (· ≠ .isCancelled) :=
      (sequential_asksOnly _).prepare (fun _ prepares _ => prepares_ne_isCancelled prepares)
        document _ nofun
    exact minds_bind (minds_of_asksOnly prepares) (fun session => minds_finish session _) conductor

/-! ### Losses -/

theorem switches_run (document : Document) : (run document).AsksOnly Ask.Switches := by
  refine (sequential_asksOnly _).run (fun _ _ switches => switches) (fun question waits => ?_)
    (fun _ _ switches => switches) trivial (fun _ => trivial) document
  cases question with
  | request asked => cases waits
  | _ => exact trivial

end Conductor

end ContactReplay
