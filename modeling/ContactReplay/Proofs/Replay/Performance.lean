import ContactReplay.Replay.Rehearsal

/-!
# Performing courses

A `Stand` is a conductor together with the surroundings of its replay, and `Course.perform` carries
a course out from a stand.

* `Course.Decides` says that a course ends without an error exactly under a condition, and what
  holds of its value and of the stand after it in that case.
* `decides_bind` puts two courses together, and `decides_forM` does so for a loop: one step of the
  loop keeps an invariant that may look at the items before it, newest first.
-/

namespace ContactReplay

/-- A conductor and the surroundings of its replay. -/
structure Stand where
  conductor : Conductor
  rehearsal : Rehearsal

/-- Each of some items is possible after the past and the items before it, newest first. -/
def Succession {α : Type} (possible : List α → α → Prop) (past : List α) : List α → Prop
  | [] => True
  | item :: rest => possible past item ∧ Succession possible (item :: past) rest

theorem succession_append {α : Type} {possible : List α → α → Prop} (past first second : List α) :
    Succession possible past (first ++ second) ↔
      Succession possible past first ∧ Succession possible (first.reverse ++ past) second := by
  induction first generalizing past with
  | nil => simp [Succession]
  | cons item rest inductionHypothesis =>
      simp [Succession, inductionHypothesis, and_assoc]

theorem succession_of_forall {α : Type} {possible : List α → α → Prop}
    (always : ∀ past item, possible past item) {past items : List α} :
    Succession possible past items := by
  induction items generalizing past with
  | nil => trivial
  | cons item rest inductionHypothesis => exact ⟨always past item, inductionHypothesis⟩

/-! ## Scripts -/

namespace Script

variable {α β : Type}

theorem play_bind {m : Type → Type} [Monad m] [LawfulMonad m]
    (answer : (question : Ask) → m question.Reply) (script : Script α) (next : α → Script β) :
    (script >>= next).play answer = script.play answer >>= fun result => (next result).play answer
    := by
  induction script with
  | done result =>
      rw [play, pure_bind]
      rfl
  | ask question rest inductionHypothesis =>
      rw [play, bind_assoc]
      exact congrArg _ (funext inductionHypothesis)

end Script

namespace Course

variable {α β : Type}

instance : LawfulMonad Course :=
  inferInstanceAs (LawfulMonad (ExceptT Error (StateT Conductor Script)))

/-- Carry a course out. -/
def perform (course : Course α) (stand : Stand) : Except Error α × Stand :=
  let ended := ((course stand.conductor).play Rehearsal.answer).run stand.rehearsal
  (ended.1.1, ⟨ended.1.2, ended.2⟩)

/-! ## Single courses -/

section Single

variable (stand : Stand)

@[simp]
theorem perform_pure (value : α) : (pure value : Course α).perform stand = (.ok value, stand) := rfl

@[simp]
theorem perform_throw (error : Error) :
    (throw error : Course α).perform stand = (.error error, stand) := rfl

@[simp]
theorem perform_get : (get : Course Conductor).perform stand = (.ok stand.conductor, stand) := rfl

@[simp]
theorem perform_modify (change : Conductor → Conductor) :
    (modify change : Course Unit).perform stand =
      (.ok (), { stand with conductor := change stand.conductor }) := rfl

theorem perform_modifyGet (change : Conductor → α × Conductor) :
    (modifyGet change : Course α).perform stand =
      (.ok (change stand.conductor).1,
        { stand with conductor := (change stand.conductor).2 }) := rfl

@[simp]
theorem perform_attempt (outcome : Except Error α) :
    (attempt outcome).perform stand = (outcome, stand) := rfl

@[simp]
theorem perform_note (change : Report → Report) :
    (note change).perform stand =
      (.ok (), { stand with
        conductor := { stand.conductor with report := change stand.conductor.report } }) := rfl

@[simp]
theorem perform_reach (phase : Phase) :
    (reach phase).perform stand =
      (.ok (), { stand with conductor := { stand.conductor with phase } }) := rfl

theorem perform_bind (first : Course α) (rest : α → Course β) :
    (first >>= rest).perform stand =
      match first.perform stand with
      | (.ok value, next) => (rest value).perform next
      | (.error error, next) => (.error error, next) := by
  have opened : (first >>= rest) stand.conductor =
      (first stand.conductor >>= fun ended =>
        (ExceptT.bindCont rest ended.1 : StateT Conductor Script _) ended.2) := rfl
  rw [perform, opened, Script.play_bind, StateT.run_bind, perform]
  rcases ((first stand.conductor).play Rehearsal.answer).run stand.rehearsal with
    ⟨⟨outcome, conductor⟩, rehearsal⟩
  cases outcome with
  | ok value => rfl
  | error error => rfl

theorem perform_bind_ok {first : Course α} {stand next : Stand} {value : α}
    (performed : first.perform stand = (.ok value, next)) (rest : α → Course β) :
    (first >>= rest).perform stand = (rest value).perform next := by
  rw [perform_bind, performed]

theorem perform_bind_error {first : Course α} {stand next : Stand} {error : Error}
    (performed : first.perform stand = (.error error, next)) (rest : α → Course β) :
    (first >>= rest).perform stand = (.error error, next) := by
  rw [perform_bind, performed]

end Single

/-! ## Loops -/

theorem forM_append (first second : List α) (body : α → Course Unit) :
    (first ++ second).forM body = first.forM body >>= fun _ => second.forM body := by
  induction first with
  | nil => exact (pure_bind PUnit.unit fun _ => second.forM body).symm
  | cons item rest inductionHypothesis =>
      have opened : (item :: rest ++ second).forM body =
          body item >>= fun _ => (rest ++ second).forM body := rfl
      have openedRest : (item :: rest).forM body = body item >>= fun _ => rest.forM body := rfl
      rw [opened, openedRest, bind_assoc, inductionHypothesis]

/-- A loop over the parts of items is one loop over all parts. -/
theorem forM_flatMap (items : List α) (parts : α → List β) (body : β → Course Unit) :
    items.forM (fun item => (parts item).forM body) = (items.flatMap parts).forM body := by
  induction items with
  | nil => rfl
  | cons item rest inductionHypothesis =>
      rw [List.flatMap_cons, forM_append, ← inductionHypothesis]
      rfl

/-! ## Deciding conditions -/

/-- A course ends without an error exactly under a condition, and then its value and the stand after
it are as described. -/
def Decides (course : Course α) (stand : Stand) (condition : Prop) (after : α → Stand → Prop) :
    Prop :=
  match course.perform stand with
  | (.ok value, next) => condition ∧ after value next
  | (.error _, _) => ¬condition

section Decides

variable {stand next : Stand} {course : Course α} {condition : Prop} {after : α → Stand → Prop}

theorem decides_of_ok {value : α} (performed : course.perform stand = (.ok value, next))
    (holds : condition) (described : after value next) :
    Decides course stand condition after := by
  rw [Decides, performed]
  exact ⟨holds, described⟩

theorem decides_of_error {error : Error} (performed : course.perform stand = (.error error, next))
    (fails : ¬condition) : Decides course stand condition after := by
  rw [Decides, performed]
  exact fails

/-- A course ends without an error exactly under the condition that it decides. -/
theorem Decides.ok_iff (decides : Decides course stand condition after) :
    (∃ value, (course.perform stand).1 = .ok value) ↔ condition := by
  rw [Decides] at decides
  rcases performed : course.perform stand with ⟨outcome, next⟩
  rw [performed] at decides
  cases outcome with
  | ok value => exact ⟨fun _ => decides.1, fun _ => ⟨value, rfl⟩⟩
  | error error =>
      constructor
      · rintro ⟨value, impossible⟩
        cases impossible
      · exact fun holds => absurd holds decides

theorem Decides.exists_ok (decides : Decides course stand condition after) (holds : condition) :
    ∃ value next, course.perform stand = (.ok value, next) ∧ after value next := by
  rw [Decides] at decides
  rcases performed : course.perform stand with ⟨outcome, next⟩
  rw [performed] at decides
  cases outcome with
  | ok value => exact ⟨value, next, rfl, decides.2⟩
  | error error => exact absurd holds decides

theorem Decides.congr {other : Prop} (decides : Decides course stand condition after)
    (same : condition ↔ other) : Decides course stand other after := by
  rwa [← propext same]

theorem Decides.imp {weaker : α → Stand → Prop} (decides : Decides course stand condition after)
    (weaken : ∀ value next, after value next → weaker value next) :
    Decides course stand condition weaker := by
  rw [Decides] at decides ⊢
  rcases performed : course.perform stand with ⟨outcome, next⟩
  rw [performed] at decides
  cases outcome with
  | ok value => exact ⟨decides.1, weaken value next decides.2⟩
  | error error => exact decides

/-- One course after another decides whether both conditions hold. -/
theorem decides_bind {rest : α → Course β} {restCondition : Prop} {ending : β → Stand → Prop}
    (first : Decides course stand condition after)
    (second : condition → ∀ value next, after value next →
      Decides (rest value) next restCondition ending) :
    Decides (course >>= rest) stand (condition ∧ restCondition) ending := by
  rw [Decides] at first
  rcases performed : course.perform stand with ⟨outcome, next⟩
  rw [performed] at first
  cases outcome with
  | ok value =>
      have continued := second first.1 value next first.2
      rw [Decides] at continued ⊢
      rw [perform_bind_ok performed]
      rcases restPerformed : (rest value).perform next with ⟨restOutcome, final⟩
      rw [restPerformed] at continued
      cases restOutcome with
      | ok _ => exact ⟨⟨first.1, continued.1⟩, continued.2⟩
      | error _ => exact fun both => continued both.2
  | error error =>
      exact decides_of_error (perform_bind_error performed rest) fun both => first both.1

/-- A course that ends without an error leaves the decision to what follows. -/
theorem decides_bind_of_ok {rest : α → Course β} {ending : β → Stand → Prop} {value : α}
    (performed : course.perform stand = (.ok value, next))
    (second : Decides (rest value) next condition ending) :
    Decides (course >>= rest) stand condition ending := by
  rw [Decides] at second ⊢
  rwa [perform_bind_ok performed]

theorem decides_bind_true {rest : α → Course β} {restCondition : Prop}
    {ending : β → Stand → Prop} (first : Decides course stand True after)
    (second : ∀ value next, after value next →
      Decides (rest value) next restCondition ending) :
    Decides (course >>= rest) stand restCondition ending :=
  (decides_bind first fun _ => second).congr (iff_of_eq (true_and restCondition))

theorem decides_bind_of_error {rest : α → Course β} {ending : β → Stand → Prop} {error : Error}
    (performed : course.perform stand = (.error error, next)) (fails : ¬condition) :
    Decides (course >>= rest) stand condition ending :=
  decides_of_error (perform_bind_error performed rest) fails

end Decides

/-- A loop decides whether every item is possible after the past and the items before it, if one
step of it decides that for its item and keeps the invariant. -/
theorem decides_forM_after {items : List α} {body : α → Course Unit}
    {possible : List α → α → Prop} {invariant : List α → Stand → Prop} {before : List α}
    (step : ∀ past item rest, past.reverse ++ item :: rest = before.reverse ++ items →
      item ∈ items → ∀ stand, invariant past stand →
        Decides (body item) stand (possible past item) fun _ next => invariant (item :: past) next)
    {stand : Stand} (begins : invariant before stand) :
    Decides (items.forM body) stand (Succession possible before items) fun _ next =>
      invariant (items.reverse ++ before) next := by
  induction items generalizing before stand with
  | nil => exact decides_of_ok rfl trivial begins
  | cons item rest inductionHypothesis =>
      have opened : (item :: rest).forM body = body item >>= fun _ => rest.forM body := rfl
      have regroup : (item :: rest).reverse ++ before = rest.reverse ++ item :: before := by simp
      rw [opened, regroup]
      refine decides_bind (step before item rest rfl List.mem_cons_self stand begins)
        fun _ _ next nextHolds => ?_
      refine inductionHypothesis (fun past other others parted member => ?_) nextHolds
      exact step past other others (by simpa using parted) (List.mem_cons_of_mem _ member)

theorem decides_forM {items : List α} {body : α → Course Unit} {possible : List α → α → Prop}
    {invariant : List α → Stand → Prop}
    (step : ∀ past item rest, past.reverse ++ item :: rest = items →
      ∀ stand, invariant past stand →
        Decides (body item) stand (possible past item) fun _ next => invariant (item :: past) next)
    {stand : Stand} (begins : invariant [] stand) :
    Decides (items.forM body) stand (Succession possible [] items) fun _ next =>
      invariant items.reverse next := by
  have decides := @decides_forM_after α items body possible invariant []
    (fun past item rest parted _ => step past item rest parted) stand begins
  rwa [List.append_nil] at decides

end Course

end ContactReplay
