import ContactReplay.Proofs.Replay.Answering

/-!
# Counting

A `CallTally` holds what a log says about the numbers of a report, and `CallTally.enter` what one
more line of the log changes about it.  `Reckoned` relates a report to the tally of a log and to the
pauses that were made by then.  Each of its steps is one thing that a run does: it adds a line to
the log or a pause, and it changes the report so that the relation holds again.
-/

namespace ContactReplay

/-! ## Counting the lines of a log -/

namespace Call

def addedNode? : Call → Option NodeDescription
  | .addNode _ node => some node
  | _ => none

def fetches : Call → Bool
  | .getFile .. => true
  | _ => false

def links : Call → Bool
  | .addLink .. => true
  | _ => false

def sets (loss : Loss) : Call → Bool
  | .adjustLink _ adjustment => adjustment.loss = loss
  | _ => false

end Call

/-- What a log says about the numbers of a report. -/
structure CallTally where
  added : List NodeDescription
  fetched : Nat
  linked : Nat
  raised : Nat
  lowered : Nat

namespace CallTally

def ofCalls (calls : List Call) : CallTally where
  added := calls.filterMap Call.addedNode?
  fetched := calls.countP Call.fetches
  linked := calls.countP Call.links
  raised := calls.countP (Call.sets Loss.up)
  lowered := calls.countP (Call.sets Loss.down)

/-- The numbers after a further line of the log. -/
def enter (tally : CallTally) : Call → CallTally
  | .addNode _ node => { tally with added := tally.added ++ [node] }
  | .getFile .. => { tally with fetched := tally.fetched + 1 }
  | .addLink .. => { tally with linked := tally.linked + 1 }
  | .adjustLink _ adjustment =>
      { tally with
        raised := if adjustment.loss = Loss.up then tally.raised + 1 else tally.raised
        lowered := if adjustment.loss = Loss.down then tally.lowered + 1 else tally.lowered }
  | _ => tally

theorem ofCalls_concat (calls : List Call) (call : Call) :
    ofCalls (calls ++ [call]) = (ofCalls calls).enter call := by
  have counts : ∀ test : Call → Bool, (calls ++ [call]).countP test =
      if test call then calls.countP test + 1 else calls.countP test := by
    intro test
    rw [List.countP_append, List.countP_singleton]
    split <;> rfl
  have adds : (calls ++ [call]).filterMap Call.addedNode? =
      calls.filterMap Call.addedNode? ++ call.addedNode?.toList := by
    rw [List.filterMap_append, filterMap_cons_eq_append, List.filterMap_nil, List.append_nil]
  rw [ofCalls, counts, counts, counts, counts, adds]
  cases call with
  | addNode session node => rfl
  | adjustLink session adjustment =>
      simp only [enter, ofCalls, Call.addedNode?, Call.fetches, Call.links, Call.sets,
        Option.toList_none, List.append_nil, decide_eq_true_eq, Bool.false_eq_true, if_false]
  | _ => exact congrArg (CallTally.mk · _ _ _ _) (List.append_nil _)

end CallTally

/-! ## Counting acts -/

/-- The node outside the grid as it is added to a session. -/
def Settings.controlNodes (settings : Settings) : List NodeDescription :=
  (settings.controlNode.map fun node => ⟨1, node.name, node.model, node.position⟩).toList

/-- The report with one more link that a line of a step has changed. -/
def Report.change (report : Report) : EdgeLine → Report
  | .add .. => { report with linksActivated := report.linksActivated + 1 }
  | .delete .. => { report with linksDeactivated := report.linksDeactivated + 1 }

namespace Conductor

namespace Act

def counts : Act → Bool
  | .count => true
  | _ => false

/-- How long an act waits. -/
def wait? (settings : Settings) : Act → Option Duration
  | .begin last moment => some (settings.delay (moment.step - last))
  | _ => none

end Act

/-- The distances of steps to the steps before them, the first one to a step `last`. -/
def gaps (last : UInt64) : List DocumentStep → List UInt64
  | [] => []
  | moment :: rest => (moment.step - last) :: gaps moment.step rest

theorem length_gaps (last : UInt64) (steps : List DocumentStep) :
    (gaps last steps).length = steps.length := by
  induction steps generalizing last with
  | nil => rfl
  | cons moment rest inductionHypothesis => exact congrArg (· + 1) (inductionHypothesis moment.step)

section Lines

variable (settings : Settings) (step : UInt64) (lines : List EdgeLine)

/-- The lines of a step neither wait nor count. -/
theorem filterMap_wait?_carryOut :
    (lines.map (Act.carryOut step)).filterMap (Act.wait? settings) = [] := by
  simp [Act.wait?]

theorem countP_counts_carryOut : (lines.map (Act.carryOut step)).countP Act.counts = 0 := by
  simp [Act.counts]

end Lines

theorem filterMap_wait?_acts (settings : Settings) (last : UInt64) (steps : List DocumentStep) :
    (acts last steps).filterMap (Act.wait? settings) = (gaps last steps).map settings.delay := by
  induction steps generalizing last with
  | nil => rfl
  | cons moment rest inductionHypothesis =>
      rw [acts, filterMap_cons_eq_append, List.filterMap_append, filterMap_wait?_carryOut,
        List.nil_append, filterMap_cons_eq_append, inductionHypothesis]
      rfl

theorem countP_counts_acts (last : UInt64) (steps : List DocumentStep) :
    (acts last steps).countP Act.counts = steps.length := by
  induction steps generalizing last with
  | nil => rfl
  | cons moment rest inductionHypothesis =>
      rw [acts, List.countP_cons_of_neg Bool.false_ne_true, List.countP_append,
        countP_counts_carryOut, List.countP_cons_of_pos rfl, inductionHypothesis, Nat.zero_add]
      rfl

/-- There is a pause for each step that has been counted, and perhaps one for a step that has not
come to its end. -/
theorem length_waits_of_prefix {settings : Settings} {last : UInt64} {steps : List DocumentStep}
    {played : List Act} (begun : played <+: acts last steps) :
    (played.filterMap (Act.wait? settings)).length = played.countP Act.counts ∨
      (played.filterMap (Act.wait? settings)).length = played.countP Act.counts + 1 := by
  induction steps generalizing last played with
  | nil =>
      rw [acts, List.prefix_nil] at begun
      rw [begun]
      exact Or.inl rfl
  | cons moment rest inductionHypothesis =>
      cases played with
      | nil => exact Or.inl rfl
      | cons first others =>
          rw [acts, List.cons_prefix_cons, List.prefix_iff_eq_take, List.take_append,
            ← List.map_take] at begun
          obtain ⟨rfl, same⟩ := begun
          rw [same, filterMap_cons_eq_append, List.filterMap_append, filterMap_wait?_carryOut,
            List.nil_append, List.countP_cons_of_neg Bool.false_ne_true, List.countP_append,
            countP_counts_carryOut, Nat.zero_add, List.length_append]
          cases others.length - (moment.lines.map (Act.carryOut moment.step)).length with
          | zero => exact Or.inr rfl
          | succ more =>
              rw [List.take_succ_cons, filterMap_cons_eq_append, List.countP_cons_of_pos rfl]
              have both := inductionHypothesis (List.take_prefix more (acts moment.step rest))
              exact both.imp (fun waits => (Nat.add_comm 1 _).trans (congrArg (· + 1) waits))
                fun waits => (Nat.add_comm 1 _).trans (congrArg (· + 1) waits)

/-- A report counts what a log and some pauses tell: some nodes outside the grid have been added,
then others, of which `ahead` have no configuration yet.  Some declared nodes and some acts are
done. -/
structure Reckoned (chosen : Settings) (control : List NodeDescription) (ahead : Nat)
    (declared : List String) (played : List Act) (report : Report) (tally : CallTally)
    (waits : List Duration) : Prop where
  added : ∃ others, tally.added = control ++ others ∧
    others.length = report.nodesCreated + ahead
  fetched : tally.fetched = report.nodesCreated
  linked : tally.linked = report.linksCreated
  raised : tally.raised = report.linksActivated
  lowered : tally.lowered = report.linksDeactivated
  declared : report.nodesCreated + report.nodesSkipped = declared.length
  changed : report.linksActivated + report.linksDeactivated =
    (played.filterMap Act.line?).length
  counted : report.stepsRun = played.countP Act.counts
  waited : waits = played.filterMap (Act.wait? chosen)

namespace Reckoned

variable {chosen : Settings} {control : List NodeDescription} {ahead : Nat}
  {declared : List String} {played : List Act} {report : Report} {tally : CallTally}
  {waits : List Duration} {id : SessionId}

theorem nil (chosen : Settings) : Reckoned chosen [] 0 [] [] {} (.ofCalls []) [] :=
  ⟨⟨[], rfl, rfl⟩, rfl, rfl, rfl, rfl, rfl, rfl, rfl, rfl⟩

/-- The node outside the grid is added first. -/
theorem addControl (reckoned : Reckoned chosen [] 0 [] [] report tally waits)
    (node : NodeDescription) :
    Reckoned chosen [node] 0 [] [] report (tally.enter (.addNode id node)) waits := by
  obtain ⟨others, added, few⟩ := reckoned.added
  obtain rfl : others = [] :=
    List.length_eq_zero_iff.mp (few.trans (Nat.eq_zero_of_add_eq_zero_right reckoned.declared))
  exact { reckoned with added := ⟨[], congrArg (· ++ [node]) added, few⟩ }

/-- A node is added and has no configuration yet. -/
theorem addNode (reckoned : Reckoned chosen control 0 declared played report tally waits)
    (node : NodeDescription) :
    Reckoned chosen control 1 declared played report (tally.enter (.addNode id node)) waits := by
  obtain ⟨others, added, few⟩ := reckoned.added
  refine { reckoned with added := ⟨others ++ [node], ?_, ?_⟩ }
  · rw [← List.append_assoc, ← added]
    rfl
  · rw [List.length_append, few]
    rfl

/-- The configuration of the node that has been added last is fetched. -/
theorem getFile (reckoned : Reckoned chosen control 1 declared played report tally waits)
    (node : NodeId) (file : FileName) (name : String) :
    Reckoned chosen control 0 (declared ++ [name]) played
      { report with nodesCreated := report.nodesCreated + 1 }
      (tally.enter (.getFile id node file)) waits := by
  refine { reckoned with fetched := congrArg (· + 1) reckoned.fetched, declared := ?_ }
  rw [List.length_append, ← reckoned.declared, Nat.add_right_comm]
  rfl

/-- A node that does not take part is skipped. -/
theorem skip (reckoned : Reckoned chosen control 0 declared played report tally waits)
    (name : String) :
    Reckoned chosen control 0 (declared ++ [name]) played
      { report with nodesSkipped := report.nodesSkipped + 1 } tally waits := by
  refine { reckoned with declared := ?_ }
  rw [List.length_append, ← reckoned.declared, ← Nat.add_assoc]
  rfl

theorem addLink (reckoned : Reckoned chosen control ahead declared played report tally waits)
    (link : LinkDescription) :
    Reckoned chosen control ahead declared played
      { report with linksCreated := report.linksCreated + 1 }
      (tally.enter (.addLink id link)) waits :=
  { reckoned with linked := congrArg (· + 1) reckoned.linked }

/-- A line of a step changes the loss of a link. -/
theorem adjustLink (reckoned : Reckoned chosen control ahead declared played report tally waits)
    (step : UInt64) {line : EdgeLine} {adjustment : LinkAdjustment}
    (loss : adjustment.loss = line.loss) :
    Reckoned chosen control ahead declared (played ++ [.carryOut step line])
      (report.change line) (tally.enter (.adjustLink id adjustment)) waits := by
  have different : Loss.up ≠ Loss.down := by decide +kernel
  have changed : ((played ++ [Act.carryOut step line]).filterMap Act.line?).length =
      (played.filterMap Act.line?).length + 1 := by
    rw [List.filterMap_append, List.length_append]
    rfl
  have counted : (played ++ [Act.carryOut step line]).countP Act.counts =
      played.countP Act.counts := List.countP_append
  have waited : (played ++ [Act.carryOut step line]).filterMap (Act.wait? chosen) =
      played.filterMap (Act.wait? chosen) := List.filterMap_append.trans (List.append_nil _)
  cases line with
  | add edge first second number =>
      refine { reckoned with
        raised := (if_pos loss).trans (congrArg (· + 1) reckoned.raised)
        lowered := (if_neg (loss ▸ different)).trans reckoned.lowered
        changed := ?_, counted := reckoned.counted.trans counted.symm
        waited := reckoned.waited.trans waited.symm }
      rw [changed, ← reckoned.changed]
      exact Nat.add_right_comm _ _ _
  | delete edge number =>
      refine { reckoned with
        raised := (if_neg (loss ▸ different.symm)).trans reckoned.raised
        lowered := (if_pos loss).trans (congrArg (· + 1) reckoned.lowered)
        changed := ?_, counted := reckoned.counted.trans counted.symm
        waited := reckoned.waited.trans waited.symm }
      rw [changed, ← reckoned.changed]
      exact (Nat.add_assoc _ _ _).symm

/-- A step begins with a pause. -/
theorem pause (reckoned : Reckoned chosen control ahead declared played report tally waits)
    (last : UInt64) (moment : DocumentStep) :
    Reckoned chosen control ahead declared (played ++ [.begin last moment]) report tally
      (waits ++ [chosen.delay (moment.step - last)]) := by
  refine { reckoned with changed := ?_, counted := ?_, waited := ?_ }
  · rw [reckoned.changed, List.filterMap_append]
    exact congrArg List.length (List.append_nil _).symm
  · rw [reckoned.counted, List.countP_append]
    rfl
  · rw [reckoned.waited, List.filterMap_append]
    rfl

theorem count (reckoned : Reckoned chosen control ahead declared played report tally waits) :
    Reckoned chosen control ahead declared (played ++ [.count])
      { report with stepsRun := report.stepsRun + 1 } tally waits := by
  refine { reckoned with changed := ?_, counted := ?_, waited := ?_ }
  · rw [List.filterMap_append]
    exact reckoned.changed.trans (congrArg List.length (List.append_nil _).symm)
  · rw [List.countP_append, ← reckoned.counted]
    rfl
  · rw [reckoned.waited, List.filterMap_append]
    exact (List.append_nil _).symm

end Reckoned

end Conductor

end ContactReplay
