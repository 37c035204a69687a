import ContactReplay.Proofs.Replay.Timetable

/-!
# Cancelling a replay

A `Cancellation` says when a replay is cancelled: before it begins, while a request is served, or at
the end of a pause.  Nothing but a look for a cancellation tells the difference
(`answer_cancelling`), so a cancelled replay goes on as if nothing had happened up to the first such
look after the cancellation (`Minds.play_cancelling`).

`Rehearsal.replay_cancelling` says so of whole replays: the look ends the replay with the number of
its step, or there is none any more and the replay ends as it would have.  In either case the
preparations are completed, and no link is changed once the replay is cancelled.
-/

namespace ContactReplay

/-- What a replay can be cancelled during. -/
inductive Occasion where
  | request
  | pause
  deriving DecidableEq, Repr

namespace Occasion

def includes : Occasion → Ask → Bool
  | .request, .request _ => true
  | .pause, .pause _ => true
  | _, _ => false

def count (occasion : Occasion) (asked : List Ask) : Nat := asked.countP occasion.includes

theorem count_concat (occasion : Occasion) (asked : List Ask) (question : Ask) :
    occasion.count (asked ++ [question]) =
      occasion.count asked + if occasion.includes question then 1 else 0 := by
  rw [count, List.countP_append, List.countP_singleton]
  rfl

end Occasion

/-- When a replay is cancelled: before it begins, or during a request or a pause, by its place among
all of them. -/
inductive Cancellation where
  | atOnce
  | during (occasion : Occasion) (place : Nat)
  deriving DecidableEq, Repr

namespace Cancellation

/-- Whether a replay is cancelled by the time that some questions have been answered. -/
def raised : Cancellation → List Ask → Bool
  | .atOnce, _ => true
  | .during occasion place, asked => place ≤ occasion.count asked

/-- The place of a cancellation on some occasion. -/
def place? (cancellation : Cancellation) (occasion : Occasion) : Option Nat :=
  match cancellation with
  | .atOnce => none
  | .during other place => if other = occasion then some place else none

/-- A replay is cancelled during a question if that is its occasion and its turn. -/
theorem raised_concat_of_includes {occasion : Occasion} {question : Ask}
    (included : ∀ other : Occasion, other.includes question = decide (other = occasion))
    (cancellation : Cancellation) (asked : List Ask) :
    cancellation.raised (asked ++ [question]) = (cancellation.raised asked ||
      decide (cancellation.place? occasion = some (occasion.count asked + 1))) := by
  cases cancellation with
  | atOnce => rfl
  | during other place =>
      rw [raised, raised, Occasion.count_concat, included, place?]
      by_cases same : other = occasion
      · subst same
        simp only [decide_true, if_true, Option.some.injEq]
        rw [← Bool.decide_or]
        exact decide_eq_decide.mpr (by omega)
      · simp [same]

/-- No other question cancels a replay. -/
theorem raised_concat_of_excludes {question : Ask}
    (excluded : ∀ occasion : Occasion, occasion.includes question = false)
    (cancellation : Cancellation) (asked : List Ask) :
    cancellation.raised (asked ++ [question]) = cancellation.raised asked := by
  cases cancellation with
  | atOnce => rfl
  | during other place => simp [raised, Occasion.count_concat, excluded]

theorem raised_concat_isCancelled (cancellation : Cancellation) (asked : List Ask) :
    cancellation.raised (asked ++ [.isCancelled]) = cancellation.raised asked :=
  raised_concat_of_excludes (by rintro (_ | _) <;> rfl) cancellation asked

/-- The first look for a cancellation that comes after it, among what is asked after the past. -/
structure FirstSeen (cancellation : Cancellation) (past asks before after : List Ask) : Prop where
  parted : asks = before ++ .isCancelled :: after
  raised : cancellation.raised (past ++ before) = true
  first : ∀ earlier later, before = earlier ++ .isCancelled :: later →
    cancellation.raised (past ++ earlier) = false

/-- No look for a cancellation comes after it. -/
def NeverSeen (cancellation : Cancellation) (past asks : List Ask) : Prop :=
  ∀ before after, asks = before ++ .isCancelled :: after →
    cancellation.raised (past ++ before) = false

section Seen

variable {cancellation : Cancellation} {past asks before after : List Ask} {question : Ask}

theorem FirstSeen.unseen
    (seen : cancellation.FirstSeen past (question :: asks) (question :: before) after)
    (looks : question = .isCancelled) : cancellation.raised past = false := by
  have first := seen.first [] before (by rw [looks]; rfl)
  rwa [List.append_nil] at first

theorem FirstSeen.tail
    (seen : cancellation.FirstSeen past (question :: asks) (question :: before) after) :
    cancellation.FirstSeen (past ++ [question]) asks before after where
  parted := List.tail_eq_of_cons_eq seen.parted
  raised := by rw [List.append_assoc]; exact seen.raised
  first earlier later parted := by
    rw [List.append_assoc]
    exact seen.first (question :: earlier) later (congrArg (question :: ·) parted)

theorem FirstSeen.cons (seen : cancellation.FirstSeen (past ++ [question]) asks before after)
    (unseen : question = .isCancelled → cancellation.raised past = false) :
    cancellation.FirstSeen past (question :: asks) (question :: before) after where
  parted := congrArg (question :: ·) seen.parted
  raised := by rw [List.append_cons]; exact seen.raised
  first earlier later parted := by
    cases earlier with
    | nil =>
        rw [List.append_nil]
        exact unseen (List.head_eq_of_cons_eq parted)
    | cons other others =>
        obtain ⟨rfl, rest⟩ := List.cons.inj parted
        rw [List.append_cons]
        exact seen.first others later rest

theorem NeverSeen.unseen (never : cancellation.NeverSeen past (question :: asks))
    (looks : question = .isCancelled) : cancellation.raised past = false := by
  have first := never [] asks (by rw [looks]; rfl)
  rwa [List.append_nil] at first

theorem NeverSeen.tail (never : cancellation.NeverSeen past (question :: asks)) :
    cancellation.NeverSeen (past ++ [question]) asks := by
  intro before after parted
  rw [List.append_assoc]
  exact never (question :: before) after (congrArg (question :: ·) parted)

theorem NeverSeen.cons (never : cancellation.NeverSeen (past ++ [question]) asks)
    (unseen : question = .isCancelled → cancellation.raised past = false) :
    cancellation.NeverSeen past (question :: asks) := by
  intro before after parted
  cases before with
  | nil =>
      rw [List.append_nil]
      exact unseen (List.head_eq_of_cons_eq parted)
  | cons other others =>
      obtain ⟨rfl, rest⟩ := List.cons.inj parted
      rw [List.append_cons]
      exact never others after rest

/-- A cancellation is either seen by a first look or by none. -/
theorem firstSeen_or_neverSeen (cancellation : Cancellation) (past asks : List Ask) :
    (∃ before after, cancellation.FirstSeen past asks before after) ∨
      cancellation.NeverSeen past asks := by
  induction asks generalizing past with
  | nil => exact Or.inr fun before after parted => by cases before <;> cases parted
  | cons question rest inductionHypothesis =>
      by_cases sees : question = .isCancelled ∧ cancellation.raised past = true
      · obtain ⟨rfl, raised⟩ := sees
        refine Or.inl ⟨[], rest, rfl, (List.append_nil past).symm ▸ raised,
          fun earlier later parted => ?_⟩
        cases earlier <;> cases parted
      · have unseen : question = .isCancelled → cancellation.raised past = false := by
          intro looks
          rw [← Bool.not_eq_true]
          exact fun raised => sees ⟨looks, raised⟩
        rcases inductionHypothesis (past ++ [question]) with ⟨before, after, seen⟩ | never
        · exact Or.inl ⟨question :: before, after, seen.cons unseen⟩
        · exact Or.inr (never.cons unseen)

end Seen

end Cancellation

/-! ## Answers -/

namespace Rehearsal

/-- The same surroundings in which the replay is not cancelled. -/
def continuing (rehearsal : Rehearsal) : Rehearsal :=
  { rehearsal with
    cancelled := false
    faults := { rehearsal.faults with cancellingRequest := none, cancellingPause := none } }

/-- The same surroundings in which the replay is cancelled at some time. -/
def cancelling (rehearsal : Rehearsal) (cancellation : Cancellation) : Rehearsal :=
  { rehearsal with
    cancelled := cancellation.raised rehearsal.asked
    faults := { rehearsal.faults with
      cancellingRequest := cancellation.place? .request
      cancellingPause := cancellation.place? .pause } }

theorem requests_length_eq_count (rehearsal : Rehearsal) :
    rehearsal.requests.length = Occasion.request.count rehearsal.asked := by
  rw [requests, List.length_filterMap_eq_countP, Occasion.count]
  congr 1
  funext question
  cases question <;> rfl

theorem pauses_length_eq_count (rehearsal : Rehearsal) :
    rehearsal.pauses.length = Occasion.pause.count rehearsal.asked := by
  rw [pauses, List.length_filterMap_eq_countP, Occasion.count]
  congr 1
  funext question
  cases question <;> rfl

theorem continuing_answer (question : Ask) (rehearsal : Rehearsal) :
    (answer question rehearsal.continuing).2.continuing =
      (answer question rehearsal.continuing).2 := by
  cases question with
  | request request =>
      simp only [answer, serve]
      split <;> rfl
  | confirm prompt =>
      simp only [answer, confirm]
      split <;> rfl
  | pause duration => rfl
  | isCancelled => rfl

section Answer

variable (rehearsal : Rehearsal) (cancellation : Cancellation)

theorem hear_cancelling_request (request : Request) :
    ((rehearsal.cancelling cancellation).hear (.request request)).cancelIf
        (cancellation.place? .request =
          some ((rehearsal.cancelling cancellation).hear (.request request)).requests.length) =
      (rehearsal.continuing.hear (.request request)).cancelling cancellation := by
  have included : ∀ other : Occasion,
      other.includes (.request request) = decide (other = .request) := by
    rintro (_ | _) <;> rfl
  have raised := cancellation.raised_concat_of_includes included rehearsal.asked
  rw [requests_length_eq_count, hear, Occasion.count_concat]
  simp only [cancelIf, cancelling, continuing, hear, raised]
  rfl

theorem hear_cancelling_pause (duration : Duration) :
    ((rehearsal.cancelling cancellation).hear (.pause duration)).endPause =
      (rehearsal.continuing.hear (.pause duration)).cancelling cancellation := by
  have included : ∀ other : Occasion,
      other.includes (.pause duration) = decide (other = .pause) := by
    rintro (_ | _) <;> rfl
  have raised := cancellation.raised_concat_of_includes included rehearsal.asked
  rw [endPause, pauses_length_eq_count, hear, Occasion.count_concat]
  simp only [cancelIf, cancelling, continuing, hear, raised]
  rfl

theorem hear_cancelling_confirm (prompt : Prompt) :
    (rehearsal.cancelling cancellation).hear (.confirm prompt) =
      (rehearsal.continuing.hear (.confirm prompt)).cancelling cancellation := by
  have excluded : ∀ occasion : Occasion, occasion.includes (.confirm prompt) = false := by
    rintro (_ | _) <;> rfl
  have raised := cancellation.raised_concat_of_excludes excluded rehearsal.asked
  simp only [cancelling, continuing, hear, raised]

theorem answer_isCancelled_cancelling :
    answer .isCancelled (rehearsal.cancelling cancellation) = (cancellation.raised rehearsal.asked,
      (rehearsal.continuing.hear .isCancelled).cancelling cancellation) := by
  have raised := cancellation.raised_concat_isCancelled rehearsal.asked
  simp only [answer, cancelling, continuing, hear, raised]

/-- Only a look that comes after the cancellation is answered otherwise than without it. -/
theorem answer_cancelling {question : Ask}
    (unseen : question = .isCancelled → cancellation.raised rehearsal.asked = false) :
    answer question (rehearsal.cancelling cancellation) =
      ((answer question rehearsal.continuing).1,
        (answer question rehearsal.continuing).2.cancelling cancellation) := by
  cases question with
  | isCancelled =>
      rw [answer_isCancelled_cancelling, unseen rfl]
      rfl
  | pause duration =>
      exact congrArg (((), ·)) (hear_cancelling_pause rehearsal cancellation duration)
  | confirm prompt =>
      have heard := hear_cancelling_confirm rehearsal cancellation prompt
      by_cases failing :
        ((rehearsal.cancelling cancellation).hear (.confirm prompt)).faults.failingPrompt =
          some ((rehearsal.cancelling cancellation).hear (.confirm prompt)).prompts.length
      · have also : (rehearsal.continuing.hear (.confirm prompt)).faults.failingPrompt =
            some (rehearsal.continuing.hear (.confirm prompt)).prompts.length := failing
        rw [answer, answer, confirm, confirm, if_pos failing, if_pos also, heard]
      · have also : (rehearsal.continuing.hear (.confirm prompt)).faults.failingPrompt ≠
            some (rehearsal.continuing.hear (.confirm prompt)).prompts.length := failing
        rw [answer, answer, confirm, confirm, if_neg failing, if_neg also, heard]
  | request request =>
      have heard := hear_cancelling_request rehearsal cancellation request
      by_cases failing :
        ((rehearsal.cancelling cancellation).hear (.request request)).faults.failingRequest =
          some ((rehearsal.cancelling cancellation).hear (.request request)).requests.length
      · have also : (rehearsal.continuing.hear (.request request)).faults.failingRequest =
            some (rehearsal.continuing.hear (.request request)).requests.length := failing
        rw [answer, answer, serve, serve, if_pos failing, if_pos also]
        exact congrArg (Prod.mk _) heard
      · have also : (rehearsal.continuing.hear (.request request)).faults.failingRequest ≠
            some (rehearsal.continuing.hear (.request request)).requests.length := failing
        rw [answer, answer, serve, serve, if_neg failing, if_neg also]
        exact congrArg (fun current : Rehearsal =>
          let served := current.testbed.serve request
          (served.1, { current with testbed := served.2 })) heard

end Answer

end Rehearsal

/-! ## Scripts with a cancellation -/

namespace Script

variable {α : Type}

/-- A script that is not cancelled goes on to the looks that come after its first question. -/
theorem Minds.next_continuing {question : Ask}
    {next : question.Reply → Script (Except Error α × Conductor)} {checks : List UInt64}
    (minds : (ask question next).Minds checks) (rehearsal : Rehearsal) :
    ∃ first others, checks = first ++ others ∧ first.length = [question].count .isCancelled ∧
      (next (Rehearsal.answer question rehearsal.continuing).1).Minds others := by
  cases question with
  | request asked => exact ⟨[], checks, rfl, rfl, minds _⟩
  | pause duration => exact ⟨[], checks, rfl, rfl, minds⟩
  | confirm prompt => exact ⟨[], checks, rfl, rfl, minds _⟩
  | isCancelled =>
      obtain ⟨step, others, rfl, -, goesOn⟩ := minds
      exact ⟨[step], others, rfl, rfl, goesOn⟩

/-- The first look that comes after the cancellation ends a script with the number of its step,
after the same questions as without the cancellation. -/
theorem Minds.play_cancelling_of_firstSeen {script : Script (Except Error α × Conductor)}
    {checks : List UInt64} (minds : script.Minds checks) {rehearsal : Rehearsal}
    {cancellation : Cancellation} {before after : List Ask}
    (seen : cancellation.FirstSeen rehearsal.asked (script.asks rehearsal.continuing) before
      after) :
    ∃ step conductor current, checks[before.count .isCancelled]? = some step ∧
      (script.play Rehearsal.answer).run (rehearsal.cancelling cancellation) =
        ((.error (.cancelled step), conductor), current) ∧
      current.asked = rehearsal.asked ++ before ++ [.isCancelled] ∧
      current.testbed = (script.playFor before.length rehearsal.continuing).testbed := by
  induction script generalizing rehearsal checks before with
  | done result =>
      have parted := seen.parted
      cases before <;> cases parted
  | ask question next inductionHypothesis =>
      cases before with
      | nil =>
          obtain ⟨rfl, -⟩ := List.cons.inj seen.parted
          obtain ⟨step, others, rfl, ⟨conductor, stopped⟩, -⟩ := minds
          have raised := seen.raised
          rw [List.append_nil] at raised
          refine ⟨step, conductor, (rehearsal.continuing.hear .isCancelled).cancelling cancellation,
            rfl, ?_, ?_, rfl⟩
          · rw [run_play_ask, Rehearsal.answer_isCancelled_cancelling, raised, stopped]
            rfl
          · rw [List.append_nil]
            rfl
      | cons first others =>
          obtain ⟨rfl, -⟩ := List.cons.inj seen.parted
          obtain ⟨first, later, rfl, looked, goesOn⟩ := minds.next_continuing rehearsal
          have asked := Rehearsal.asked_answer question rehearsal.continuing
          have rest : cancellation.FirstSeen
              (Rehearsal.answer question rehearsal.continuing).2.asked
              ((next (Rehearsal.answer question rehearsal.continuing).1).asks
                (Rehearsal.answer question rehearsal.continuing).2.continuing) others after := by
            rw [asked, Rehearsal.continuing_answer]
            exact seen.tail
          obtain ⟨step, conductor, current, place, ended, heard, same⟩ :=
            inductionHypothesis _ goesOn rest
          refine ⟨step, conductor, current, ?_, ?_, ?_, ?_⟩
          · have counted : (question :: others).count .isCancelled =
                first.length + others.count .isCancelled := by
              rw [looked, ← List.count_append]
              rfl
            rw [counted, List.getElem?_append_right (Nat.le_add_right _ _), Nat.add_sub_cancel_left]
            exact place
          · rw [run_play_ask, Rehearsal.answer_cancelling _ _ seen.unseen]
            exact ended
          · rw [heard, asked]
            simp [Rehearsal.continuing]
          · rw [same, Rehearsal.continuing_answer]
            rfl

/-- A cancellation that no look sees makes no difference. -/
theorem play_cancelling_of_neverSeen {script : Script α} {rehearsal : Rehearsal}
    {cancellation : Cancellation}
    (never : cancellation.NeverSeen rehearsal.asked (script.asks rehearsal.continuing)) :
    (script.play Rehearsal.answer).run (rehearsal.cancelling cancellation) =
      (((script.play Rehearsal.answer).run rehearsal.continuing).1,
        ((script.play Rehearsal.answer).run rehearsal.continuing).2.cancelling cancellation) := by
  induction script generalizing rehearsal with
  | done result => rfl
  | ask question next inductionHypothesis =>
      have rest : cancellation.NeverSeen (Rehearsal.answer question rehearsal.continuing).2.asked
          ((next (Rehearsal.answer question rehearsal.continuing).1).asks
            (Rehearsal.answer question rehearsal.continuing).2.continuing) := by
        rw [Rehearsal.asked_answer, Rehearsal.continuing_answer]
        exact never.tail
      rw [run_play_ask, run_play_ask, Rehearsal.answer_cancelling _ _ never.unseen,
        inductionHypothesis _ rest, Rehearsal.continuing_answer]

end Script

/-! ## Replays with a cancellation -/

theorem Guarded.exists_look {asks before after : List Ask} {question : Ask}
    (guarded : Guarded (asks.map Ask.cue)) (parted : asks = before ++ question :: after)
    (adjusts : question.adjusts = true) : ∃ earlier, before = earlier ++ [.isCancelled] := by
  obtain ⟨cues, looked⟩ := guarded (before.map Ask.cue) (after.map Ask.cue) (by
    rw [parted, List.map_append, List.map_cons, Ask.cue_of_adjusts adjusts])
  obtain ⟨earlier, last, rfl, -, looks⟩ := List.map_eq_append_iff.mp looked
  obtain ⟨look, rfl, isLook⟩ := List.map_eq_singleton_iff.mp looks
  exact ⟨earlier, by rw [Ask.eq_isCancelled_of_cue isLook]⟩

/-- Once a replay is cancelled it changes no link, if it does so right after a look for a
cancellation only and goes on after none that comes after the cancellation. -/
theorem Guarded.calm_of_raised {cancellation : Cancellation} {past asks : List Ask}
    (guarded : Guarded (asks.map Ask.cue))
    (unseen : ∀ before question after, asks = before ++ .isCancelled :: question :: after →
      cancellation.raised (past ++ before) = false)
    {before after : List Ask} {question : Ask} (parted : asks = before ++ question :: after)
    (raised : cancellation.raised (past ++ before) = true) : question.adjusts = false := by
  rw [← Bool.not_eq_true]
  intro adjusts
  obtain ⟨earlier, rfl⟩ := guarded.exists_look parted adjusts
  rw [List.append_assoc] at parted
  rw [← List.append_assoc, Cancellation.raised_concat_isCancelled,
    unseen earlier question after parted] at raised
  cases raised

namespace Rehearsal

/-- A replay has ended with a look for a cancellation: it has asked what the replay without the
cancellation asks before that look and the look itself, its error names the step of the look, and
the testbed is what it is then. -/
structure StoppedAt (rehearsal : Rehearsal) (conductor : Conductor) (document : Document)
    (before : List Ask) (ended : Except Error Report × Conductor × Rehearsal) : Prop where
  outcome : ∃ step, ended.1 = .error (.cancelled step) ∧
    (checkpoints (Conductor.chooseSteps conductor.settings document))[before.count .isCancelled]? =
      some step
  asked : ended.2.2.asked = rehearsal.asked ++ before ++ [.isCancelled]
  testbed : ended.2.2.testbed =
    (rehearsal.continuing.replayFor conductor document before.length).testbed

/-- What a cancelled replay has asked: all preparations of the replay without the cancellation, and
no change of a link once it is cancelled. -/
structure Complete (cancellation : Cancellation) (past asks cut : List Ask) : Prop where
  prepared : cut.filter Ask.prepares = asks.filter Ask.prepares
  calm : ∀ before question after, cut = before ++ question :: after →
    cancellation.raised (past ++ before) = true → question.adjusts = false

/-- All preparations come before any look for a cancellation. -/
theorem filter_prepares_of_look {preparing playing before after : List Ask}
    (prepared : ∀ question ∈ preparing, question ≠ .isCancelled)
    (played : ∀ question ∈ playing, question.prepares = false)
    (parted : preparing ++ playing = before ++ .isCancelled :: after) :
    List.filter Ask.prepares (before ++ [.isCancelled]) =
      (preparing ++ playing).filter Ask.prepares := by
  have laterAsks : ∀ question ∈ after, question.prepares = false := by
    rcases List.append_eq_append_iff.mp parted with ⟨more, -, rest⟩ | ⟨more, whole, rest⟩
    · intro question member
      exact played question (rest ▸ List.mem_append_right more (List.mem_cons_of_mem _ member))
    · cases more with
      | nil =>
          obtain rfl : .isCancelled :: after = playing := rest
          exact fun question member => played question (List.mem_cons_of_mem _ member)
      | cons first others =>
          obtain ⟨rfl, -⟩ := List.cons.inj rest
          exact absurd rfl (prepared _ (whole ▸ List.mem_append_right before List.mem_cons_self))
  have silent : after.filter Ask.prepares = [] := by
    rw [List.filter_eq_nil_iff]
    exact fun question member => by simp [laterAsks question member]
  rw [parted, List.filter_append, List.filter_append, List.filter_cons, List.filter_cons, silent]
  rfl

/-- A replay asks for its preparations and then for what its settings and steps tell in advance:
before each step it looks for a cancellation, has the step confirmed if it is interactive and
pauses, and before each line it looks again.

A replay that is cancelled at any time goes on with exactly the questions of the replay without the
cancellation up to the first look that comes after it, and ends there with the step of that look; if
there is no such look, the two replays end the same.  In either case all preparations of the replay
are completed, and no link is changed once it is cancelled.  A replay that succeeds looks for a
cancellation at every checkpoint. -/
theorem replay_cancelling (rehearsal : Rehearsal) (conductor : Conductor) (document : Document) :
    let steps := Conductor.chooseSteps conductor.settings document
    ∃ preparing playing,
      (rehearsal.continuing.replay conductor document).2.2.asked =
        rehearsal.asked ++ (preparing ++ playing) ∧
      Scheduled conductor.settings steps (rehearsal.continuing.replay conductor document).1
        preparing playing ∧
      ((∃ report, (rehearsal.continuing.replay conductor document).1 = .ok report) →
        (preparing ++ playing).count .isCancelled = (checkpoints steps).length) ∧
      ∀ cancellation,
        let ended := (rehearsal.cancelling cancellation).replay conductor document
        ((∃ before after,
            cancellation.FirstSeen rehearsal.asked (preparing ++ playing) before after ∧
            StoppedAt rehearsal conductor document before ended) ∨
          (cancellation.NeverSeen rehearsal.asked (preparing ++ playing) ∧
            ended =
              let (outcome, used, after) := rehearsal.continuing.replay conductor document
              (outcome, used, after.cancelling cancellation))) ∧
        ∃ cut, ended.2.2.asked = rehearsal.asked ++ cut ∧
          Complete cancellation rehearsal.asked (preparing ++ playing) cut := by
  intro steps
  obtain ⟨preparing, playing, same, scheduled⟩ :=
    Conductor.exists_scheduled_run document ⟨conductor, rehearsal.continuing⟩
  change (conductor.script document).asks rehearsal.continuing = preparing ++ playing at same
  have asked : (rehearsal.continuing.replay conductor document).2.2.asked =
      rehearsal.asked ++ (conductor.script document).asks rehearsal.continuing :=
    Script.asked_play _ _
  rw [same] at asked
  have minds := Conductor.minds_run document conductor
  refine ⟨preparing, playing, asked, scheduled,
    fun ⟨_, succeeds⟩ => scheduled.count_isCancelled succeeds, fun cancellation => ?_⟩
  rcases cancellation.firstSeen_or_neverSeen rehearsal.asked (preparing ++ playing) with
    ⟨before, after, seen⟩ | never
  · obtain ⟨step, used, current, place, ended, heard, testbed⟩ :=
      minds.play_cancelling_of_firstSeen (same.symm ▸ seen)
    have replayed : (rehearsal.cancelling cancellation).replay conductor document =
        (.error (.cancelled step), used, current) := by
      rw [replay, Conductor.script, ended]
    rw [replayed]
    refine ⟨Or.inl ⟨before, after, seen, ⟨step, rfl, place⟩, heard, testbed⟩,
      before ++ [.isCancelled], heard.trans (List.append_assoc _ _ _), ?_, ?_⟩
    · exact filter_prepares_of_look scheduled.ne_isCancelled scheduled.not_prepares seen.parted
    · have begins : before ++ [.isCancelled] <+: preparing ++ playing :=
        ⟨after, by rw [seen.parted, List.append_assoc]; rfl⟩
      have guarded := scheduled.guarded.of_begins (begins.map Ask.cue)
      intro earlier question later cut raised
      refine guarded.calm_of_raised (fun first other rest look => ?_) cut raised
      have shorter := congrArg List.dropLast look
      rw [List.dropLast_concat, List.dropLast_append_of_ne_nil (List.cons_ne_nil _ _)] at shorter
      exact seen.first first _ shorter
  · have replayed : (rehearsal.cancelling cancellation).replay conductor document =
        ((rehearsal.continuing.replay conductor document).1,
          (rehearsal.continuing.replay conductor document).2.1,
          (rehearsal.continuing.replay conductor document).2.2.cancelling cancellation) := by
      rw [replay, Script.play_cancelling_of_neverSeen (same.symm ▸ never)]
      rfl
    refine ⟨Or.inr ⟨never, replayed⟩, preparing ++ playing, ?_, rfl, ?_⟩
    · rw [replayed]
      exact asked
    · intro before question after parted raised
      exact scheduled.guarded.calm_of_raised (fun first other rest look => never first _ look)
        parted raised

end Rehearsal

end ContactReplay
