import ContactReplay.Proofs.Replay.Counting

/-!
# What a report tells

A report is written while a run goes on, each of its numbers at some distance from the call that it
counts, and the run may end anywhere between.  `Accounted` is the invariant of all of a run: some
acts are done, and the report has been `Reckoned` from the log and the pauses by then, with at most
one node ahead that has no configuration yet.

Each part of a run leads from an accounted conductor to another one, and wherever it fails it leaves
a conductor that is accounted for (`Abandoned`).  So a report counts what happened, whatever the
outcome (`replay_counts`).
-/

namespace ContactReplay

/-- A report counts the lines of a log and some pauses.  A node outside the grid that the settings
name is added before all others or not at all. -/
structure Report.Counts (report : Report) (settings : Settings) (calls : List Call)
    (pauses : List Duration) : Prop where
  linksCreated : report.linksCreated = calls.countP Call.links
  linksActivated : report.linksActivated = calls.countP (Call.sets Loss.up)
  linksDeactivated : report.linksDeactivated = calls.countP (Call.sets Loss.down)
  nodesCreated : report.nodesCreated = calls.countP Call.fetches
  nodesAdded : ∃ others,
    (calls.filterMap Call.addedNode? = settings.controlNodes ++ others ∨
      calls.filterMap Call.addedNode? = [] ∧ others = []) ∧
    (others.length = report.nodesCreated ∨ others.length = report.nodesCreated + 1)
  stepsRun : pauses.length = report.stepsRun ∨ pauses.length = report.stepsRun + 1

namespace Conductor

open Course

/-! ## Courses that change nothing that counts -/

/-- A conductor has the settings, the report and the configurator of another one. -/
structure Tied (conductor next : Conductor) : Prop where
  settings : next.settings = conductor.settings
  report : next.report = conductor.report
  daemons : next.daemons = conductor.daemons

/-- A course asks nothing and changes nothing that counts, whether it fails or not. -/
def Silent {α : Type} (course : Course α) : Prop :=
  ∀ conductor, ∃ outcome next, course conductor = .done (outcome, next) ∧ Tied conductor next

section Silent

variable {α β : Type}

theorem silent_bind {first : Course α} {rest : α → Course β} (firstSilent : Silent first)
    (restSilent : ∀ value, Silent (rest value)) : Silent (first >>= rest) := by
  intro conductor
  obtain ⟨outcome, next, same, tied⟩ := firstSilent conductor
  have opened : (first >>= rest) conductor =
      (first conductor >>= fun ended =>
        (ExceptT.bindCont rest ended.1 : StateT Conductor Script _) ended.2) := rfl
  rw [opened, same]
  cases outcome with
  | error error => exact ⟨.error error, next, rfl, tied⟩
  | ok value =>
      obtain ⟨result, last, goesOn, tiedLast⟩ := restSilent value next
      exact ⟨result, last, goesOn, tiedLast.settings.trans tied.settings,
        tiedLast.report.trans tied.report, tiedLast.daemons.trans tied.daemons⟩

theorem silent_get : Silent get := fun conductor => ⟨_, conductor, rfl, rfl, rfl, rfl⟩

theorem silent_pure (value : α) : Silent (pure value) :=
  fun conductor => ⟨_, conductor, rfl, rfl, rfl, rfl⟩

theorem silent_attempt (outcome : Except Error α) : Silent (attempt outcome) :=
  fun conductor => ⟨outcome, conductor, rfl, rfl, rfl, rfl⟩

theorem silent_modify {change : Conductor → Conductor}
    (tied : ∀ conductor, Tied conductor (change conductor)) : Silent (modify change) :=
  fun conductor => ⟨_, change conductor, rfl, tied conductor⟩

theorem silent_register (name : String) (id : NodeId) : Silent (register name id) := by
  refine silent_bind silent_get fun _ => ?_
  exact silent_bind (silent_attempt _) fun _ => silent_modify fun _ => ⟨rfl, rfl, rfl⟩

theorem silent_resolvePair (first second : String) (line : Nat) :
    Silent (resolvePair first second line) := by
  refine silent_bind silent_get fun _ => ?_
  exact silent_bind (silent_attempt _) fun _ =>
    silent_bind (silent_attempt _) fun _ => silent_pure _

theorem silent_allot (pair : Pair NodeId) : Silent (allot pair) := by
  refine silent_bind silent_get fun _ => ?_
  exact silent_bind (silent_modify fun _ => ⟨rfl, rfl, rfl⟩) fun _ => silent_attempt _

end Silent

theorem Reckoned.served {chosen : Settings} {control : List NodeDescription} {ahead : Nat}
    {declared : List String} {played : List Act} {report : Report} {past : List Exchange}
    {id : SessionId} {order : Order} {reply : order.Reply}
    (reckoned : Reckoned chosen control ahead declared played report
      ((CallTally.ofCalls (callsOf past)).enter (order.call id)) (pausesOf past)) :
    Reckoned chosen control ahead declared played report
      (.ofCalls (callsOf (past ++ [⟨.request (.order id order), .ok reply⟩])))
      (pausesOf (past ++ [⟨.request (.order id order), .ok reply⟩])) := by
  have calls : callsOf (past ++ [⟨.request (.order id order), .ok reply⟩]) =
      callsOf past ++ [order.call id] := callsOf_concat past _
  have pauses : pausesOf (past ++ [⟨.request (.order id order), .ok reply⟩]) = pausesOf past :=
    (pausesOf_concat past _).trans (List.append_nil _)
  rw [calls, pauses, CallTally.ofCalls_concat]
  exact reckoned

/-! ## Runs and their reports -/

/-- Some acts of a run are done, and its report counts what has been exchanged. -/
structure Accounted (chosen : Settings) (steps : List DocumentStep)
    (control : List NodeDescription) (ahead : Nat) (declared : List String) (played : List Act)
    (conductor : Conductor) (past : List Exchange) : Prop where
  settings : conductor.settings = chosen
  reckoned : Reckoned chosen control ahead declared played conductor.report
    (.ofCalls (callsOf past)) (pausesOf past)
  controlled : control = chosen.controlNodes ∨ control = [] ∧ ahead = 0 ∧ declared = []
  few : ahead ≤ 1
  begun : played <+: acts 0 steps

/-- Wherever a run has come to its end, its report counts what has been exchanged. -/
def Abandoned (chosen : Settings) (steps : List DocumentStep) (conductor : Conductor)
    (past : List Exchange) : Prop :=
  ∃ control ahead declared played,
    Accounted chosen steps control ahead declared played conductor past

namespace Accounted

variable {chosen : Settings} {steps : List DocumentStep} {control : List NodeDescription}
  {ahead : Nat} {declared : List String} {played : List Act} {conductor next : Conductor}
  {past : List Exchange} {id : SessionId}

theorem abandoned
    (accounted : Accounted chosen steps control ahead declared played conductor past) :
    Abandoned chosen steps conductor past := ⟨_, _, _, _, accounted⟩

/-- Only the settings and the report of a conductor matter. -/
theorem conducted
    (accounted : Accounted chosen steps control ahead declared played conductor past)
    (settings : next.settings = conductor.settings) (report : next.report = conductor.report) :
    Accounted chosen steps control ahead declared played next past where
  settings := settings.trans accounted.settings
  reckoned := report ▸ accounted.reckoned
  controlled := accounted.controlled
  few := accounted.few
  begun := accounted.begun

/-- An exchange that leaves nothing behind makes no difference. -/
theorem unheard
    (accounted : Accounted chosen steps control ahead declared played conductor past)
    {exchange : Exchange} (unlogged : exchange.call? = none) (unwaited : exchange.pause? = none) :
    Accounted chosen steps control ahead declared played conductor (past ++ [exchange]) := by
  refine { accounted with reckoned := ?_ }
  rw [callsOf_concat, unlogged, pausesOf_concat, unwaited, Option.toList_none, List.append_nil,
    Option.toList_none, List.append_nil]
  exact accounted.reckoned

/-- A request ends the run, or it is served and leaves its line in the log. -/
theorem leads_order
    (accounted : Accounted chosen steps control ahead declared played conductor past)
    (order : Order) :
    (Course.order id order).Leads conductor past
      (fun reply next later =>
        next = conductor ∧ later = past ++ [⟨.request (.order id order), .ok reply⟩])
      (Abandoned chosen steps) :=
  leads_request (fun _ => ⟨rfl, rfl⟩) fun _ => (accounted.unheard rfl rfl).abandoned

/-- A request is not counted if its line in the log is about no number of the report. -/
theorem leads_minor
    (accounted : Accounted chosen steps control ahead declared played conductor past)
    (order : Order) (minor : ∀ tally : CallTally, tally.enter (order.call id) = tally) :
    (Course.order id order).Leads conductor past
      (fun _ next later => next = conductor ∧
        Accounted chosen steps control ahead declared played conductor later)
      (Abandoned chosen steps) := by
  refine leads_request (fun _ => ⟨rfl, ?_⟩) fun _ => (accounted.unheard rfl rfl).abandoned
  refine { accounted with reckoned := Reckoned.served ?_ }
  rw [minor]
  exact accounted.reckoned

theorem leads_confirm
    (accounted : Accounted chosen steps control ahead declared played conductor past)
    (prompt : Prompt) :
    (Course.confirm prompt).Leads conductor past
      (fun _ next later => next = conductor ∧
        Accounted chosen steps control ahead declared played conductor later)
      (Abandoned chosen steps) :=
  Course.leads_confirm ⟨rfl, accounted.unheard rfl rfl⟩
    fun _ => (accounted.unheard rfl rfl).abandoned

theorem leads_stopIfCancelled
    (accounted : Accounted chosen steps control ahead declared played conductor past)
    (step : UInt64) :
    (stopIfCancelled step).Leads conductor past
      (fun _ next later => next = conductor ∧
        Accounted chosen steps control ahead declared played conductor later)
      (Abandoned chosen steps) :=
  Course.leads_stopIfCancelled ⟨rfl, accounted.unheard rfl rfl⟩
    (accounted.unheard rfl rfl).abandoned

theorem leads_silent {α : Type} {course : Course α}
    (accounted : Accounted chosen steps control ahead declared played conductor past)
    (silent : Silent course) :
    course.Leads conductor past
      (fun _ next later => Tied conductor next ∧
        Accounted chosen steps control ahead declared played next later)
      (Abandoned chosen steps) := by
  obtain ⟨outcome, next, same, tied⟩ := silent conductor
  have still := accounted.conducted tied.settings tied.report
  cases outcome with
  | ok value => exact leads_of_ok same ⟨tied, still⟩
  | error error => exact leads_of_error same still.abandoned

/-! ## Setup -/

theorem leads_equip (accounted : Accounted chosen steps [] 0 [] [] conductor past) :
    (equip id).Leads conductor past
      (fun _ next later => Accounted chosen steps [] 0 [] [] next later ∧
        next.nodeIds = conductor.nodeIds ∧ next.daemons = conductor.daemons)
      (Abandoned chosen steps) := by
  have remembered : Accounted chosen steps [] 0 [] [] { conductor with session := some id } past :=
    accounted.conducted rfl rfl
  refine leads_bind_of_ok rfl (leads_bind (remembered.leads_minor _ fun _ => rfl) ?_)
  rintro _ _ past ⟨rfl, configuring⟩
  refine leads_bind_of_ok rfl ?_
  dsimp only
  cases conductor.settings.controlNet with
  | none => exact leads_of_ok rfl ⟨configuring, rfl, rfl⟩
  | some net =>
      refine (configuring.leads_minor (.setOptions _) fun _ => rfl).imp ?_
      rintro _ _ _ ⟨rfl, equipped⟩
      exact ⟨equipped, rfl, rfl⟩

theorem leads_addControlNode (accounted : Accounted chosen steps [] 0 [] [] conductor past)
    (first : conductor.nodeIds.next = 1) :
    (addControlNode id).Leads conductor past
      (fun _ next later => Accounted chosen steps chosen.controlNodes 0 [] [] next later ∧
        next.daemons = conductor.daemons)
      (Abandoned chosen steps) := by
  refine leads_bind_of_ok rfl ?_
  cases control : conductor.settings.controlNode with
  | none =>
      have none : chosen.controlNodes = [] := by
        rw [Settings.controlNodes, ← accounted.settings, control]
        rfl
      exact leads_of_ok rfl ⟨none ▸ accounted, rfl⟩
  | some node =>
      have one : chosen.controlNodes = [⟨1, node.name, node.model, node.position⟩] := by
        rw [Settings.controlNodes, ← accounted.settings, control]
        rfl
      refine leads_bind_of_ok rfl ?_
      have numbered : Accounted chosen steps [] 0 [] []
          { conductor with nodeIds := conductor.nodeIds.advance } past :=
        accounted.conducted rfl rfl
      refine (numbered.leads_order _).imp ?_
      rintro _ _ _ ⟨rfl, rfl⟩
      rw [first, one]
      refine ⟨⟨numbered.settings, ?_, Or.inl one.symm, numbered.few, numbered.begun⟩, rfl⟩
      exact Reckoned.served (numbered.reckoned.addControl _)

theorem enterNode
    (accounted : Accounted chosen steps chosen.controlNodes 0 declared [] conductor past)
    (id : SessionId) (node : NodeDescription) :
    Accounted chosen steps chosen.controlNodes 1 declared [] conductor
      (past ++ [⟨.request (.order id (.addNode node)), .ok ()⟩]) :=
  ⟨accounted.settings, .served (accounted.reckoned.addNode node), Or.inl rfl, Nat.le_refl 1,
    accounted.begun⟩

theorem enterFile
    (accounted : Accounted chosen steps chosen.controlNodes 1 declared [] conductor past)
    (id : SessionId) (node : NodeId) (file : FileName) (text name : String)
    (settings : next.settings = conductor.settings)
    (report : next.report =
      { conductor.report with nodesCreated := conductor.report.nodesCreated + 1 }) :
    Accounted chosen steps chosen.controlNodes 0 (declared ++ [name]) [] next
      (past ++ [⟨.request (.order id (.getFile node file)), .ok text⟩]) :=
  ⟨settings.trans accounted.settings,
    .served (report ▸ accounted.reckoned.getFile node file name), Or.inl rfl, Nat.zero_le 1,
    accounted.begun⟩

/-- A node is added and its configuration is fetched. -/
theorem leads_addNode
    (accounted : Accounted chosen steps chosen.controlNodes 0 declared [] conductor past)
    (name : String) :
    (addNode id name).Leads conductor past
      (fun _ next later =>
        Accounted chosen steps chosen.controlNodes 0 (declared ++ [name]) [] next later ∧
          next.daemons = conductor.daemons)
      (Abandoned chosen steps) := by
  refine leads_bind_of_ok rfl ?_
  have numbered : Accounted chosen steps chosen.controlNodes 0 declared []
      { conductor with nodeIds := conductor.nodeIds.advance } past := accounted.conducted rfl rfl
  refine leads_bind (numbered.leads_silent (silent_register name _)) ?_
  rintro _ bound past ⟨tied, registered⟩
  refine leads_bind_of_ok rfl (leads_bind_of_ok rfl ?_)
  have placed : Accounted chosen steps chosen.controlNodes 0 declared []
      { bound with gridSlots := bound.gridSlots.advance } past := registered.conducted rfl rfl
  refine leads_bind (placed.leads_order _) ?_
  rintro _ _ _ ⟨rfl, rfl⟩
  refine leads_bind ((placed.enterNode id _).leads_order _) ?_
  rintro text _ _ ⟨rfl, rfl⟩
  refine leads_bind_of_ok rfl (leads_of_ok rfl ⟨?_, tied.daemons⟩)
  exact (placed.enterNode id _).enterFile id _ _ text name rfl rfl

theorem leads_declareNode
    (accounted : Accounted chosen steps chosen.controlNodes 0 declared [] conductor past)
    (name : String) :
    (declareNode id steps name).Leads conductor past
      (fun _ next later =>
        Accounted chosen steps chosen.controlNodes 0 (declared ++ [name]) [] next later ∧
          next.daemons = conductor.daemons)
      (Abandoned chosen steps) := by
  rw [declareNode]
  split
  · exact accounted.leads_addNode name
  · refine leads_of_ok rfl ⟨⟨accounted.settings, ?_, Or.inl rfl, Nat.zero_le 1,
      accounted.begun⟩, rfl⟩
    exact accounted.reckoned.skip name

theorem leads_forM_declareNode
    (accounted : Accounted chosen steps chosen.controlNodes 0 [] [] conductor past)
    (pending : conductor.daemons.configured = ∅) (names : List String) :
    (names.forM (declareNode id steps)).Leads conductor past
      (fun _ next later =>
        Accounted chosen steps chosen.controlNodes 0 names [] next later ∧
          next.daemons.configured = ∅)
      (Abandoned chosen steps) := by
  refine @leads_forM String conductor past (Abandoned chosen steps) names _ (fun done next later =>
    Accounted chosen steps chosen.controlNodes 0 done [] next later ∧
      next.daemons.configured = ∅) (fun done name _ _ current past now => ?_) ⟨accounted, pending⟩
  refine (now.1.leads_declareNode name).imp fun _ next later declared => ⟨declared.1, ?_⟩
  rw [declared.2, now.2]

/-! ## Linking -/

/-- The address of a neighbour can be collected as long as no node is configured. -/
theorem exists_meetNeighbour (pending : conductor.daemons.configured = ∅) (node : NodeId)
    (address : Ipv4Address) :
    ∃ next, meetNeighbour node address conductor = .done (.ok (), next) ∧
      next.settings = conductor.settings ∧ next.report = conductor.report ∧
      next.daemons.configured = ∅ := by
  have unconfigured : ¬ conductor.daemons.configured.contains node = true := by
    rw [pending]
    exact Bool.false_ne_true
  have collected : (conductor.daemons.collect node (toString address)).1 = .ok () ∧
      (conductor.daemons.collect node (toString address)).2.configured = ∅ := by
    rw [Configurator.collect, if_neg unconfigured]
    exact ⟨rfl, pending⟩
  refine ⟨{ conductor with daemons := (conductor.daemons.collect node (toString address)).2 }, ?_,
    rfl, rfl, collected.2⟩
  rw [meetNeighbour, Course.bind_of_ok rfl]
  exact congrArg (fun outcome => Script.done (outcome, _)) collected.1

theorem enterLink
    (accounted : Accounted chosen steps control ahead declared played conductor past)
    (id : SessionId) (link : LinkDescription) (settings : next.settings = conductor.settings)
    (report : next.report =
      { conductor.report with linksCreated := conductor.report.linksCreated + 1 }) :
    Accounted chosen steps control ahead declared played next
      (past ++ [⟨.request (.order id (.addLink link)), .ok ()⟩]) :=
  { accounted with
    settings := settings.trans accounted.settings
    reckoned := .served (report ▸ accounted.reckoned.addLink link) }

/-- A link is added and counted.  Nothing in between can fail. -/
theorem leads_addLink
    (accounted : Accounted chosen steps chosen.controlNodes 0 declared [] conductor past)
    (pending : conductor.daemons.configured = ∅) (pair : Pair NodeId) :
    (addLink id pair).Leads conductor past
      (fun _ next later =>
        Accounted chosen steps chosen.controlNodes 0 declared [] next later ∧
          next.daemons.configured = ∅)
      (Abandoned chosen steps) := by
  refine leads_bind (accounted.leads_silent (silent_allot pair)) ?_
  rintro allotment allotted past ⟨tied, booked⟩
  refine leads_bind (booked.leads_order _) ?_
  rintro _ _ _ ⟨rfl, rfl⟩
  obtain ⟨met, firstMet, metSettings, metReport, metPending⟩ := exists_meetNeighbour
    ((congrArg Configurator.configured tied.daemons).trans pending) pair.low allotment.high.ip4
  obtain ⟨both, bothMet, bothSettings, bothReport, bothPending⟩ :=
    exists_meetNeighbour metPending pair.high allotment.low.ip4
  refine leads_bind_of_ok firstMet (leads_bind_of_ok bothMet (leads_of_ok rfl ⟨?_, bothPending⟩))
  exact booked.enterLink id _ (bothSettings.trans metSettings)
    (congrArg (fun report : Report => { report with linksCreated := report.linksCreated + 1 })
      (bothReport.trans metReport))

theorem leads_linkEdge
    (accounted : Accounted chosen steps chosen.controlNodes 0 declared [] conductor past)
    (pending : conductor.daemons.configured = ∅) (line : EdgeLine) :
    (linkEdge id line).Leads conductor past
      (fun _ next later =>
        Accounted chosen steps chosen.controlNodes 0 declared [] next later ∧
          next.daemons.configured = ∅)
      (Abandoned chosen steps) := by
  cases line with
  | delete edge number => exact leads_of_ok rfl ⟨accounted, pending⟩
  | add edge first second number =>
      refine leads_bind (accounted.leads_silent (silent_resolvePair first second number)) ?_
      rintro pair resolved past ⟨tied, known⟩
      have stillPending := (congrArg Configurator.configured tied.daemons).trans pending
      refine leads_bind_of_ok rfl ?_
      split
      · exact known.leads_addLink stillPending pair
      · exact leads_of_ok rfl ⟨known, stillPending⟩

theorem leads_linkAll
    (accounted : Accounted chosen steps chosen.controlNodes 0 declared [] conductor past)
    (pending : conductor.daemons.configured = ∅) :
    (linkAll id steps).Leads conductor past
      (fun _ next later =>
        Accounted chosen steps chosen.controlNodes 0 declared [] next later ∧
          next.daemons.configured = ∅)
      (Abandoned chosen steps) := by
  rw [linkAll, forM_flatMap]
  refine leads_forM_of_keeps (fun line current later now => ?_) ⟨accounted, pending⟩
  exact now.1.leads_linkEdge now.2 line

/-! ## Configuring -/

theorem leads_configureNode
    (accounted : Accounted chosen steps control ahead declared played conductor past)
    (node : NodeId) (template : String) :
    (configureNode id node template).Leads conductor past
      (fun _ next later => Accounted chosen steps control ahead declared played next later)
      (Abandoned chosen steps) := by
  refine leads_bind_of_ok rfl ?_
  dsimp only
  rcases conductor.daemons.configure node template with ⟨outcome, daemons⟩
  have written : Accounted chosen steps control ahead declared played
      { conductor with daemons } past := accounted.conducted rfl rfl
  refine leads_bind_of_ok rfl (leads_bind (written.leads_silent (silent_attempt outcome)) ?_)
  rintro text filled past ⟨-, kept⟩
  refine leads_bind_of_ok rfl (leads_bind (kept.leads_minor (.setFile _ _ _) fun _ => rfl) ?_)
  rintro _ _ _ ⟨rfl, sent⟩
  exact leads_of_ok rfl (sent.conducted rfl rfl)

theorem leads_configureAll
    (accounted : Accounted chosen steps control ahead declared played conductor past) :
    (configureAll id).Leads conductor past
      (fun _ next later => Accounted chosen steps control ahead declared played next later)
      (Abandoned chosen steps) := by
  refine leads_bind_of_ok rfl ?_
  refine leads_forM_of_keeps (fun entry current later now => ?_) accounted
  exact now.leads_configureNode entry.1 entry.2

theorem leads_launch
    (accounted : Accounted chosen steps control ahead declared played conductor past) :
    (launch id).Leads conductor past
      (fun _ next later => Accounted chosen steps control ahead declared played next later)
      (Abandoned chosen steps) := by
  have starts : ∀ later, Accounted chosen steps control ahead declared played conductor later →
      (Course.order id (.setMode .instantiation)).Leads conductor later
        (fun _ next last => Accounted chosen steps control ahead declared played next last)
        (Abandoned chosen steps) := by
    intro later now
    refine (now.leads_minor (.setMode .instantiation) fun _ => rfl).imp ?_
    rintro _ _ _ ⟨rfl, started⟩
    exact started
  refine leads_bind_of_ok rfl ?_
  split
  · refine leads_bind (accounted.leads_confirm .start) ?_
    rintro _ _ later ⟨rfl, now⟩
    exact starts later now
  · exact starts past accounted

/-! ## Running -/

theorem enterChange
    (accounted : Accounted chosen steps control ahead declared played conductor past)
    (id : SessionId) {step : UInt64} {line : EdgeLine}
    (begun : played ++ [.carryOut step line] <+: acts 0 steps) {adjustment : LinkAdjustment}
    (loss : adjustment.loss = line.loss) (settings : next.settings = conductor.settings)
    (report : next.report = conductor.report.change line) :
    Accounted chosen steps control ahead declared (played ++ [.carryOut step line]) next
      (past ++ [⟨.request (.order id (.adjustLink adjustment)), .ok ()⟩]) where
  settings := settings.trans accounted.settings
  reckoned := .served (report ▸ accounted.reckoned.adjustLink step loss)
  controlled := accounted.controlled
  few := accounted.few
  begun := begun

theorem enterPause
    (accounted : Accounted chosen steps control ahead declared played conductor past)
    {last : UInt64} {moment : DocumentStep}
    (begun : played ++ [.begin last moment] <+: acts 0 steps) :
    Accounted chosen steps control ahead declared (played ++ [.begin last moment]) conductor
      (past ++ [⟨.pause (conductor.settings.delay (moment.step - last)), ()⟩]) := by
  refine { accounted with reckoned := ?_, begun := begun }
  have calls : callsOf (past ++
      [⟨.pause (conductor.settings.delay (moment.step - last)), ()⟩]) = callsOf past :=
    (callsOf_concat past _).trans (List.append_nil _)
  rw [calls, pausesOf_concat, accounted.settings]
  exact accounted.reckoned.pause last moment

theorem leads_setLoss
    (accounted : Accounted chosen steps control ahead declared played conductor past)
    (pair : Pair NodeId) (loss : Loss) :
    (setLoss id pair loss).Leads conductor past
      (fun _ next later => next = conductor ∧ ∃ adjustment : LinkAdjustment,
        adjustment.loss = loss ∧
          later = past ++ [⟨.request (.order id (.adjustLink adjustment)), .ok ()⟩])
      (Abandoned chosen steps) := by
  refine leads_bind_of_ok rfl ?_
  split
  · exact leads_of_error rfl accounted.abandoned
  · refine (accounted.leads_order _).imp ?_
    rintro _ _ _ ⟨rfl, rfl⟩
    exact ⟨rfl, _, rfl, rfl⟩

theorem leads_carryOut
    (accounted : Accounted chosen steps control ahead declared played conductor past)
    {step : UInt64} {line : EdgeLine}
    (begun : played ++ [.carryOut step line] <+: acts 0 steps) :
    (carryOut id step line).Leads conductor past
      (fun _ next later => Accounted chosen steps control ahead declared
        (played ++ [.carryOut step line]) next later)
      (Abandoned chosen steps) := by
  cases line with
  | add edge first second number =>
      refine leads_bind_of_ok rfl ?_
      split
      · exact leads_of_error rfl accounted.abandoned
      refine leads_bind (accounted.leads_silent (silent_resolvePair first second number)) ?_
      rintro pair resolved past ⟨-, known⟩
      refine leads_bind (known.leads_setLoss pair Loss.up) ?_
      rintro _ _ _ ⟨rfl, adjustment, loss, rfl⟩
      exact leads_bind_of_ok rfl (leads_of_ok rfl (known.enterChange id begun loss rfl rfl))
  | delete edge number =>
      refine leads_bind_of_ok rfl ?_
      split
      · exact leads_of_error rfl accounted.abandoned
      · rename_i pair opened
        have closed : Accounted chosen steps control ahead declared played
            { conductor with openEdges := conductor.openEdges.erase edge } past :=
          accounted.conducted rfl rfl
        refine leads_bind_of_ok rfl (leads_bind (closed.leads_setLoss pair Loss.down) ?_)
        rintro _ _ _ ⟨rfl, adjustment, loss, rfl⟩
        exact leads_of_ok rfl (closed.enterChange id begun loss rfl rfl)

/-- An act is done, or the run ends there. -/
theorem leads_course
    (accounted : Accounted chosen steps control ahead declared played conductor past) {act : Act}
    (begun : played ++ [act] <+: acts 0 steps) :
    (act.course id).Leads conductor past
      (fun _ next later =>
        Accounted chosen steps control ahead declared (played ++ [act]) next later)
      (Abandoned chosen steps) := by
  cases act with
  | begin last moment =>
      refine leads_bind (accounted.leads_stopIfCancelled moment.step) ?_
      rintro _ _ looked ⟨rfl, now⟩
      refine leads_bind_of_ok rfl ?_
      dsimp only
      split
      · refine leads_bind (now.leads_confirm (.step moment.step)) ?_
        rintro _ _ _ ⟨rfl, confirmed⟩
        exact leads_pause (confirmed.enterPause begun)
      · exact leads_pause (now.enterPause begun)
  | carryOut step line =>
      refine leads_bind (accounted.leads_stopIfCancelled step) ?_
      rintro _ _ _ ⟨rfl, now⟩
      exact now.leads_carryOut begun
  | count =>
      refine leads_of_ok rfl { accounted with reckoned := ?_, begun := begun }
      exact accounted.reckoned.count

theorem leads_forM_course
    (accounted : Accounted chosen steps control ahead declared [] conductor past) :
    ((acts 0 steps).forM (Act.course id)).Leads conductor past
      (fun _ next later =>
        Accounted chosen steps control ahead declared (acts 0 steps) next later)
      (Abandoned chosen steps) := by
  refine @leads_forM Act conductor past (Abandoned chosen steps) (acts 0 steps) _
    (fun played next later => Accounted chosen steps control ahead declared played next later)
    (fun played act rest whole current past now => ?_) accounted
  refine now.leads_course ⟨rest, ?_⟩
  rw [List.append_assoc]
  exact whole

/-! ## Whole runs -/

theorem leads_steer (document : Document)
    (accounted : Accounted chosen steps [] 0 [] [] conductor past)
    (first : conductor.nodeIds.next = 1) (pending : conductor.daemons.configured = ∅) :
    (steer document steps id).Leads conductor past
      (fun _ next later => Accounted chosen steps chosen.controlNodes 0 document.nodes
        (acts 0 steps) next later)
      (Abandoned chosen steps) := by
  refine leads_bind accounted.leads_equip ?_
  rintro _ equipped past ⟨now, sameIds, sameDaemons⟩
  refine leads_bind (now.leads_addControlNode (sameIds ▸ first)) ?_
  rintro _ controlled past ⟨now, stillSame⟩
  have stillPending : controlled.daemons.configured = ∅ := by rw [stillSame, sameDaemons, pending]
  refine leads_bind (now.leads_forM_declareNode stillPending document.nodes) ?_
  rintro _ populated past ⟨now, stillPending⟩
  have linking : Accounted chosen steps chosen.controlNodes 0 document.nodes []
      { populated with phase := .linking } past := now.conducted rfl rfl
  refine leads_bind_of_ok rfl (leads_bind (linking.leads_linkAll stillPending) ?_)
  rintro _ linked past ⟨now, -⟩
  have configuring : Accounted chosen steps chosen.controlNodes 0 document.nodes []
      { linked with phase := .configuring } past := now.conducted rfl rfl
  refine leads_bind_of_ok rfl (leads_bind configuring.leads_configureAll ?_)
  intro _ configured past now
  refine leads_bind now.leads_launch fun _ launched past now => ?_
  have running : Accounted chosen steps chosen.controlNodes 0 document.nodes []
      { launched with phase := .running } past := now.conducted rfl rfl
  exact leads_bind_of_ok rfl running.leads_forM_course

/-- The end of a run asks for nothing that its report counts. -/
theorem leads_conclude
    (accounted : Accounted chosen steps control ahead declared played conductor past) :
    (conclude id).Leads conductor past
      (fun report next later => report = next.report ∧
        Accounted chosen steps control ahead declared played next later)
      (Abandoned chosen steps) := by
  have finished : Accounted chosen steps control ahead declared played
      { conductor with phase := .terminal } past := accounted.conducted rfl rfl
  refine leads_bind_of_ok rfl (leads_bind (finished.leads_minor .teardown fun _ => rfl) ?_)
  rintro _ _ _ ⟨rfl, tornDown⟩
  exact leads_bind_of_ok rfl (leads_of_ok rfl ⟨rfl, tornDown⟩)

end Accounted

theorem accounted_fresh (settings : Settings) (steps : List DocumentStep) :
    Accounted settings steps [] 0 [] [] (fresh settings) [] where
  settings := rfl
  reckoned := Reckoned.nil settings
  controlled := Or.inr ⟨rfl, rfl, rfl⟩
  few := Nat.zero_le 1
  begun := List.nil_prefix

/-- Wherever the answers lead, the report of a new conductor counts what has been exchanged, and a
run that ends well has done everything. -/
theorem leads_script (settings : Settings) (document : Document) :
    ((fresh settings).script document).Leads
      (fun report used past => report = used.report ∧
        Accounted settings (chooseSteps settings document) settings.controlNodes 0 document.nodes
          (acts 0 (chooseSteps settings document)) used past)
      (Abandoned settings (chooseSteps settings document)) [] := by
  have start := accounted_fresh settings (chooseSteps settings document)
  rw [script_of_unspent rfl]
  intro reply
  cases reply with
  | error error => exact (start.unheard rfl rfl).abandoned
  | ok id =>
      have opened : Accounted settings (chooseSteps settings document) [] 0 [] [] (fresh settings)
          [⟨.request .createSession, .ok id⟩] := { start with reckoned := Reckoned.nil settings }
      exact leads_bind (opened.leads_steer document rfl rfl) fun _ _ _ played =>
        played.leads_conclude

/-! ## Reports -/

theorem Reckoned.counts {chosen : Settings} {control : List NodeDescription} {ahead : Nat}
    {declared : List String} {played : List Act} {report : Report} {calls : List Call}
    {waits : List Duration}
    (reckoned : Reckoned chosen control ahead declared played report (.ofCalls calls) waits)
    (controlled : control = chosen.controlNodes ∨ control = [] ∧ ahead = 0 ∧ declared = [])
    (few : ahead ≤ 1) {steps : List DocumentStep} (begun : played <+: acts 0 steps) :
    report.Counts chosen calls waits where
  linksCreated := reckoned.linked.symm
  linksActivated := reckoned.raised.symm
  linksDeactivated := reckoned.lowered.symm
  nodesCreated := reckoned.fetched.symm
  nodesAdded := by
    obtain ⟨others, added, length⟩ := reckoned.added
    refine ⟨others, ?_, ?_⟩
    · rcases controlled with rfl | ⟨rfl, rfl, rfl⟩
      · exact Or.inl added
      · have none : report.nodesCreated = 0 := Nat.eq_zero_of_add_eq_zero_right reckoned.declared
        have empty : others = [] := List.length_eq_zero_iff.mp (length.trans none)
        exact Or.inr ⟨added.trans empty, empty⟩
    · rcases Nat.le_one_iff_eq_zero_or_eq_one.mp few with rfl | rfl
      · exact Or.inl length
      · exact Or.inr length
  stepsRun := by
    rw [reckoned.waited, reckoned.counted]
    exact length_waits_of_prefix begun

/-- However a rehearsed replay of a new conductor ends, its report counts the lines that it has
added to the log and the pauses.  If it ends well, this report is its result; every declared node
has been created or skipped, every step of the window has been run after a pause, and every line of
it has changed a link. -/
theorem replay_counts {settings : Settings} {conductor : Conductor}
    (started : start settings = .ok conductor) (rehearsal : Rehearsal) (document : Document) :
    ∃ calls pauses,
      (rehearsal.replay conductor document).2.2.testbed.calls =
        rehearsal.testbed.calls ++ calls ∧
      (rehearsal.replay conductor document).2.2.pauses = rehearsal.pauses ++ pauses ∧
      (rehearsal.replay conductor document).2.1.report.Counts settings calls pauses ∧
      ∀ report, (rehearsal.replay conductor document).1 = .ok report →
        report = (rehearsal.replay conductor document).2.1.report ∧
        report.nodesCreated + report.nodesSkipped = document.nodes.length ∧
        report.stepsRun = pauses.length ∧
        report.stepsRun = (chooseSteps settings document).length ∧
        report.linksActivated + report.linksDeactivated =
          (document.chosenLines settings).length := by
  obtain ⟨rfl, -⟩ := eq_fresh_of_start started
  obtain ⟨exchanges, yields, calls, pauses⟩ :=
    rehearsal.exists_yields_logged (fresh settings) document
  have described := (leads_script settings document).of_yields yields
  refine ⟨callsOf exchanges, pausesOf exchanges, calls, pauses, ?_⟩
  cases outcome : (rehearsal.replay (fresh settings) document).1 with
  | error error =>
      rw [outcome] at described
      obtain ⟨control, ahead, declared, played, accounted⟩ := described
      exact ⟨accounted.reckoned.counts accounted.controlled accounted.few accounted.begun, nofun⟩
  | ok report =>
      rw [outcome] at described
      obtain ⟨rfl, accounted⟩ := described
      refine ⟨accounted.reckoned.counts accounted.controlled accounted.few accounted.begun, ?_⟩
      rintro _ ⟨⟩
      have counted := accounted.reckoned.counted
      have waited := congrArg List.length accounted.reckoned.waited
      have changed := accounted.reckoned.changed
      rw [countP_counts_acts] at counted
      rw [filterMap_wait?_acts, List.length_map, length_gaps] at waited
      rw [filterMap_line?_acts] at changed
      exact ⟨rfl, accounted.reckoned.declared, counted.trans waited.symm, counted, changed⟩

/-- The configuration of the second node cannot be fetched, so it is added but not counted. -/
theorem replay_counts_interrupted :
    let interrupted : Rehearsal :=
      { Rehearsal.stocked with faults := { failingRequest := some 7 } }
    let document := Rehearsal.singleStep [.add "e0" "a" "b" 9]
    let ended := interrupted.replay (fresh { controlNode := some {} }) document
    start { controlNode := some {} } = .ok (fresh { controlNode := some {} }) ∧
      ended.2.1.report = { nodesCreated := 1 } ∧
      ∃ calls pauses, ended.2.2.testbed.calls = interrupted.testbed.calls ++ calls ∧
        ended.2.2.pauses = interrupted.pauses ++ pauses ∧
        ended.2.1.report.Counts { controlNode := some {} } calls pauses := by
  have started : start { controlNode := some {} } = .ok (fresh { controlNode := some {} }) := by
    decide +kernel
  obtain ⟨calls, pauses, logged, waited, counts, -⟩ := replay_counts started
    { Rehearsal.stocked with faults := { failingRequest := some 7 } }
    (Rehearsal.singleStep [.add "e0" "a" "b" 9])
  exact ⟨started, by decide +kernel, calls, pauses, logged, waited, counts⟩

end Conductor

end ContactReplay
