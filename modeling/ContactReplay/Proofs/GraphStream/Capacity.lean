import ContactReplay.GraphStream.Writer

/-!
# Writing to a sink that becomes full

A text can be written in pieces: a sink takes as many bytes of it, and fails at the same byte, as if
it were written at once (`Sink.write_append`).  So the lines of a timeline are written like one text
(`Sink.writeLines_eq_write`), and a sink with room for some bytes receives exactly that many of what
a sink with room for any number receives (`Timeline.write_bounded`).
-/

namespace ContactReplay

theorem utf8_append (first second : String) :
    utf8 (first ++ second) = utf8 first ++ utf8 second := by
  simp [utf8]

namespace Sink

theorem write_empty (sink : Sink) : sink.write "" = (.ok (), sink) := by
  have nothing : utf8 "" = [] := rfl
  obtain ⟨room, written⟩ := sink
  cases room <;> simp [write, nothing]

theorem write_of_fits {room : Nat} {text : String} (fits : (utf8 text).length ≤ room)
    (written : List UInt8) :
    (⟨some room, written⟩ : Sink).write text =
      (.ok (), ⟨some (room - (utf8 text).length), written ++ utf8 text⟩) :=
  if_pos fits

theorem write_of_exceeds {room : Nat} {text : String} (exceeds : room < (utf8 text).length)
    (written : List UInt8) :
    (⟨some room, written⟩ : Sink).write text =
      (.error (.device .sinkFull), ⟨some 0, written ++ (utf8 text).take room⟩) :=
  if_neg (Nat.not_le.mpr exceeds)

/-- A text may be written in two pieces, the second one only if the first one was taken. -/
theorem write_append (sink : Sink) (first second : String) :
    sink.write (first ++ second) =
      match sink.write first with
      | (.ok _, next) => next.write second
      | (.error error, full) => (.error error, full) := by
  obtain ⟨room, written⟩ := sink
  cases room with
  | none => simp only [write, utf8_append, List.append_assoc]
  | some room =>
      have length :
          (utf8 (first ++ second)).length = (utf8 first).length + (utf8 second).length := by
        rw [utf8_append, List.length_append]
      rcases Nat.lt_or_ge room (utf8 first).length with firstExceeds | firstFits
      · -- The first piece fills the sink, so nothing of the second one is written.
        have exceeds : room < (utf8 (first ++ second)).length := by omega
        rw [write_of_exceeds firstExceeds, write_of_exceeds exceeds, utf8_append,
          List.take_append_of_le_length (Nat.le_of_lt firstExceeds)]
      rw [write_of_fits firstFits]
      dsimp only
      rcases Nat.lt_or_ge (room - (utf8 first).length) (utf8 second).length with
        secondExceeds | secondFits
      · have exceeds : room < (utf8 (first ++ second)).length := by omega
        rw [write_of_exceeds secondExceeds, write_of_exceeds exceeds, utf8_append, List.take_append,
          List.take_of_length_le firstFits, List.append_assoc]
      · have fits : (utf8 (first ++ second)).length ≤ room := by omega
        rw [write_of_fits secondFits, write_of_fits fits, utf8_append, List.length_append,
          List.append_assoc, Nat.sub_sub]

/-- Lines are written one after the other as if they were one text. -/
theorem writeLines_eq_write (sink : Sink) (lines : List String) :
    sink.writeLines lines = sink.write (String.join (lines.map (· ++ "\n"))) := by
  induction lines generalizing sink with
  | nil =>
      rw [List.map_nil, String.join_nil, write_empty]
      rfl
  | cons line rest inductionHypothesis =>
      rw [writeLines, List.map_cons, String.join_cons, write_append sink (line ++ "\n")]
      rcases sink.write (line ++ "\n") with ⟨error | taken, next⟩
      · rfl
      · exact inductionHypothesis next

end Sink

namespace Timeline

/-- Writing a timeline is writing the text of its manuscript; if all of it is taken, writing ends as
the manuscript says. -/
theorem write_eq (timeline : Timeline) (graphName : String) (sink : Sink) :
    timeline.write graphName sink =
      match sink.write (timeline.manuscript graphName).text with
      | (.ok _, full) => ((timeline.manuscript graphName).outcome, full)
      | (.error error, full) => (.error error, full) := by
  rw [write, Sink.writeLines_eq_write]
  rfl

/-- A sink that never fails receives the whole manuscript. -/
theorem write_unbounded (timeline : Timeline) (graphName : String) (earlier : List UInt8) :
    timeline.write graphName ⟨none, earlier⟩ = ((timeline.manuscript graphName).outcome,
      ⟨none, earlier ++ utf8 (timeline.manuscript graphName).text⟩) := by
  rw [write_eq]
  rfl

/-- Written to a sink with room for a number of bytes, a timeline ends as it does in a sink that
never fails and leaves the same bytes if they fit in; otherwise the sink fails, and what it holds
are exactly the first bytes that there was room for. -/
theorem write_bounded (timeline : Timeline) (graphName : String) (room : Nat) :
    let unbounded := timeline.write graphName { room := none }
    let bytes := unbounded.2.written
    timeline.write graphName { room := some room } =
      if bytes.length ≤ room then
        (unbounded.1, { room := some (room - bytes.length), written := bytes })
      else (.error (.device .sinkFull), { room := some 0, written := bytes.take room }) := by
  intro unbounded bytes
  have outcome : unbounded.1 = (timeline.manuscript graphName).outcome :=
    congrArg Prod.fst (write_unbounded timeline graphName [])
  have written : bytes = utf8 (timeline.manuscript graphName).text :=
    congrArg (fun ended => ended.2.written) (write_unbounded timeline graphName [])
  rw [write_eq, outcome, written]
  rcases Nat.lt_or_ge room (utf8 (timeline.manuscript graphName).text).length with exceeds | fits
  · rw [Sink.write_of_exceeds exceeds, if_neg (Nat.not_le.mpr exceeds), List.nil_append]
  · rw [Sink.write_of_fits fits, if_pos fits, List.nil_append]

/-- The room ends within the two bytes of a letter. -/
example :
    let timeline : Timeline := ⟨Table.ofList [(.text "é", ())], []⟩
    (timeline.write "g" { room := some 22 }).2.written.drop 18 = [0x61, 0x6E, 0x20, 0xC3] := by
  decide +kernel

end Timeline

end ContactReplay
