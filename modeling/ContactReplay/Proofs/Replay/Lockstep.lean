import ContactReplay.Proofs.Replay.Dedication
import Mathlib.Data.List.Forall2

/-!
# Runs in step

Two scripts are in step if they ask the same questions and, as long as they get the same answers,
come to ends that are tied.  Surroundings then cannot tell them apart, whatever they are
(`Script.InStep.play`, `Script.InStep.exists_yields`).

`Course.InStep` says so of two courses from conductors that are tied, with outcomes that are the
same value or two errors of one kind.  There is one rule for each construct that courses are made
of.
-/

namespace ContactReplay

/-! ## Scripts -/

namespace Script

variable {α β γ δ : Type}

/-- Two scripts ask the same questions and come to ends that are tied. -/
inductive InStep (ends : α → β → Prop) : Script α → Script β → Prop
  | done {left : α} {right : β} (tied : ends left right) : InStep ends (.done left) (.done right)
  | ask {question : Ask} {left : question.Reply → Script α} {right : question.Reply → Script β}
      (each : ∀ reply, InStep ends (left reply) (right reply)) :
      InStep ends (.ask question left) (.ask question right)

namespace InStep

theorem bind {middle : α → β → Prop} {ends : γ → δ → Prop} {left : Script α} {right : Script β}
    {restLeft : α → Script γ} {restRight : β → Script δ} (first : InStep middle left right)
    (second : ∀ one other, middle one other → InStep ends (restLeft one) (restRight other)) :
    InStep ends (left >>= restLeft) (right >>= restRight) := by
  induction first with
  | done tied => exact second _ _ tied
  | ask each inductionHypothesis => exact .ask inductionHypothesis

variable {ends : α → β → Prop} {left : Script α} {right : Script β}

/-- Scripts in step leave the same surroundings behind and come to ends that are tied. -/
theorem play {σ : Type} (inStep : InStep ends left right)
    (answer : (question : Ask) → StateM σ question.Reply) (state : σ) :
    ends ((left.play answer).run state).1 ((right.play answer).run state).1 ∧
      ((left.play answer).run state).2 = ((right.play answer).run state).2 := by
  induction inStep generalizing state with
  | done tied => exact ⟨tied, rfl⟩
  | @ask question left right each inductionHypothesis =>
      exact inductionHypothesis ((answer question).run state).1 ((answer question).run state).2

/-- What one script comes to with some answers, the other one comes to with the same questions and
answers. -/
theorem exists_yields (inStep : InStep ends left right) {exchanges : List Exchange} {one : α}
    (yields : left.Yields exchanges one) :
    ∃ other, right.Yields exchanges other ∧ ends one other := by
  induction inStep generalizing exchanges with
  | done tied =>
      cases yields
      exact ⟨_, .done _, tied⟩
  | ask each inductionHypothesis =>
      cases yields with
      | @ask _ _ reply later _ yields =>
          obtain ⟨other, yieldsOther, tied⟩ := inductionHypothesis reply yields
          exact ⟨other, .ask yieldsOther, tied⟩

end InStep

end Script

/-! ## Courses -/

namespace Course

variable {α β : Type} {tied : Conductor → Conductor → Prop}

/-- Two courses have come to the same value or to errors of one kind, with conductors that are
tied. -/
structure SameEnd (tied : Conductor → Conductor → Prop)
    (left right : Except Error α × Conductor) : Prop where
  outcome : left.1.mapError Error.kind = right.1.mapError Error.kind
  conductors : tied left.2 right.2

/-- From conductors that are tied two courses are in step, and the conductors stay tied. -/
def InStep (tied : Conductor → Conductor → Prop) (left right : Course α) : Prop :=
  ∀ one other, tied one other → Script.InStep (SameEnd tied) (left one) (right other)

namespace InStep

theorem pure (value : α) : InStep tied (Pure.pure value) (Pure.pure value) :=
  fun _ _ now => .done ⟨rfl, now⟩

theorem throw {left right : Error} (kind : left.kind = right.kind) :
    InStep tied (throw left : Course α) (throw right) :=
  fun _ _ now => .done ⟨congrArg Except.error kind, now⟩

theorem attempt {left right : Except Error α}
    (same : left.mapError Error.kind = right.mapError Error.kind) :
    InStep tied (attempt left) (attempt right) :=
  fun _ _ now => .done ⟨same, now⟩

theorem bind {left right : Course α} {restLeft restRight : α → Course β}
    (first : InStep tied left right)
    (second : ∀ value, InStep tied (restLeft value) (restRight value)) :
    InStep tied (left >>= restLeft) (right >>= restRight) := by
  intro one other now
  refine Script.InStep.bind (first one other now) ?_
  rintro ⟨outcome, used⟩ ⟨outcomeOther, usedOther⟩ ⟨same, usedTied⟩
  cases outcome with
  | ok value =>
      cases outcomeOther with
      | ok valueOther =>
          obtain rfl : value = valueOther := Except.ok.inj same
          exact second value used usedOther usedTied
      | error errorOther => cases same
  | error error =>
      cases outcomeOther with
      | ok valueOther => cases same
      | error errorOther =>
          exact .done ⟨congrArg Except.error (Except.error.inj same), usedTied⟩

theorem get {restLeft restRight : Conductor → Course α}
    (each : ∀ one other, tied one other → InStep tied (restLeft one) (restRight other)) :
    InStep tied (get >>= restLeft) (get >>= restRight) :=
  fun one other now => each one other now one other now

theorem modify {changeLeft changeRight : Conductor → Conductor}
    (keeps : ∀ one other, tied one other → tied (changeLeft one) (changeRight other)) :
    InStep tied (modify changeLeft : Course Unit) (modify changeRight) :=
  fun one other now => .done ⟨rfl, keeps one other now⟩

theorem modifyGet {change : Conductor → α × Conductor}
    (same : ∀ one other, tied one other → (change one).1 = (change other).1)
    (keeps : ∀ one other, tied one other → tied (change one).2 (change other).2) :
    InStep tied (modifyGet change : Course α) (modifyGet change) :=
  fun one other now =>
    .done ⟨congrArg Except.ok (same one other now), keeps one other now⟩

theorem request (request : Request) :
    InStep tied (Course.request request) (Course.request request) :=
  fun _ _ now => .ask fun _ => .done ⟨rfl, now⟩

theorem order (session : SessionId) (order : Order) :
    InStep tied (Course.order session order) (Course.order session order) :=
  InStep.request (.order session order)

theorem pause (duration : Duration) : InStep tied (pause duration) (pause duration) :=
  fun _ _ now => .ask fun _ => .done ⟨rfl, now⟩

theorem confirm (prompt : Prompt) : InStep tied (confirm prompt) (confirm prompt) :=
  fun _ _ now => .ask fun _ => .done ⟨rfl, now⟩

theorem stopIfCancelled (step : UInt64) :
    InStep tied (stopIfCancelled step) (stopIfCancelled step) :=
  fun _ _ now => .ask fun _ => .done ⟨rfl, now⟩

/-- Two loops over items that correspond. -/
theorem forM {items : List α} {others : List β} {body : α → Course Unit}
    {bodyOther : β → Course Unit}
    (each : List.Forall₂ (fun item other => InStep tied (body item) (bodyOther other)) items
      others) : InStep tied (items.forM body) (others.forM bodyOther) := by
  induction each with
  | nil => exact InStep.pure ()
  | cons first _ inductionHypothesis => exact InStep.bind first fun _ => inductionHypothesis

end InStep

end Course

end ContactReplay
