/-
# ConfigUpkeep.Proofs.Streams -- what programs and people read off the two streams

A run has a stream for its output and one for errors.  How they are used depends on the
format alone, and on no text that a user, a path or a document brings.

*For programs* nothing goes to the stream for errors, and every chunk of the output is one
JSON object on a line of its own (`Json.OnLine`).  The object of a record has no member named
like a part of a payload, so the payload of a failure stands out: it is the last object of a
run that fails, and no other is one (`Report.ForPrograms`).

*For people* the stream for errors holds one chunk if the run fails, its mark and its
message, and none otherwise (`Report.ForPeople`).

A run whose settings are wrong has no context, and shows its failure as its flags ask for.
The flags for JSON are obeyed there too (`Run.format_shown`), so `Run.streams_by_format` is
about every run.
-/
import Mathlib.Data.List.Forall2
import ConfigUpkeep.Proofs.Appearance

namespace ConfigUpkeep

set_option autoImplicit false

/-! ## Objects on lines -/

namespace Json

/-- The text is one object on a line of its own. -/
def OnLine (text : Text) (json : Json) : Prop :=
  ∃ line, text = line ++ "\n" ∧ '\n' ∉ line ∧ read? line = some json ∧
    ∃ fields, json = .members fields

/-- The object is no payload, not even in part. -/
def IsReport (json : Json) : Prop := ∀ name ∈ Failure.memberNames, json.get? name = none

/-- The object is the payload of the failure: its message, its code and the name of the code. -/
structure IsPayload (failure : Failure) (json : Json) : Prop where
  message : json.get? "error" = some (.string failure.message)
  code : (json.get? "code").bind Code.ofJson? = some failure.code
  name : json.get? "name" = some (.string failure.code.name)

theorem exists_members (fields : List (Text × Json)) : ∃ list, object fields = .members list :=
  ⟨_, rfl⟩

/-- A readable object is one line. -/
theorem onLine_object {fields : List (Text × Json)}
    (readable : ∀ field ∈ fields, Readable field.2) :
    OnLine ((object fields).render ++ "\n") (object fields) :=
  ⟨_, rfl, not_mem_render _, read?_render (readable_object readable), exists_members fields⟩

end Json

namespace Failure

/-- The payload of a failure is one line. -/
theorem onLine_payload (failure : Failure) :
    Json.OnLine (failure.payload.render ++ "\n") (.object failure.told) :=
  ⟨_, rfl, Json.not_mem_render _, failure.read?_payload, Json.exists_members _⟩

theorem isPayload_told (failure : Failure) : Json.IsPayload failure (.object failure.told) := by
  rw [told, object_memberNames]
  exact ⟨rfl, failure.code.ofJson?_number, rfl⟩

end Failure

/-! ## Chunks of records -/

namespace Display

variable (display : Display)

/-- The members of a record's object can be read back, and none is a part of a payload. -/
theorem mem_members {record : Record} (noted : record.Noted) :
    ∀ field ∈ display.members record,
      Json.Readable field.2 ∧ field.1 ∉ Failure.memberNames := by
  have known : ∀ name ∈ [timestamp, level, Notes.command, message],
      name ∉ Failure.memberNames := by decide
  intro field member
  simp only [members, List.cons_append, List.mem_cons, List.mem_append] at member
  rcases member with rfl | rfl | command | rfl | note
  · exact ⟨.string _, known timestamp (by decide)⟩
  · exact ⟨.string _, known level (by decide)⟩
  · split at command
    · rw [List.mem_singleton.1 command]
      exact ⟨.string _, known Notes.command (by decide)⟩
    · cases command
  · exact ⟨.string _, known message (by decide)⟩
  · have own := (List.mem_filter.1 note).1
    exact ⟨noted.readable field own, noted.apart field own⟩

/-- The object of a record is one line, and is no payload. -/
theorem onLine_json {record : Record} (noted : record.Noted) :
    Json.OnLine (display.json record) (.object (display.members record)) ∧
      (Json.object (display.members record)).IsReport := by
  have members := display.mem_members noted
  refine ⟨Json.onLine_object fun field member => (members field member).1, fun name part => ?_⟩
  rw [Option.eq_none_iff_forall_ne_some]
  intro json found
  exact (members _ (Json.exists_of_get?_object found)).2 part

/-- For programs each record is a line with an object that is no payload. -/
theorem lines_chunks (programs : display.format = .json) {records : List Record}
    (calm : ∀ record ∈ records, record.isAlarm = false) (noted : ∀ record ∈ records, record.Noted) :
    ∃ objects, List.Forall₂ Json.OnLine (Chunk.on .output (display.chunks records)) objects ∧
      ∀ object ∈ objects, object.IsReport := by
  have lines : ∀ record ∈ records.filter (Record.isShown display.threshold),
      Json.OnLine (display.chunk record).text (.object (display.members record)) ∧
        (Json.object (display.members record)).IsReport := by
    intro record member
    have text : (display.chunk record).text = display.json record := by
      simp only [chunk, programs]
    rw [text]
    exact display.onLine_json (noted record (List.mem_filter.1 member).1)
  have calm_ : ∀ record ∈ records.filter (Record.isShown display.threshold),
      record.isAlarm = false := fun record member => calm record (List.mem_filter.1 member).1
  refine ⟨(records.filter (Record.isShown display.threshold)).map fun record =>
    .object (display.members record), ?_, fun object member => ?_⟩
  · rw [chunks_eq, on_output_map display _ calm_, List.forall₂_map_left_iff,
      List.forall₂_map_right_iff, List.forall₂_same]
    exact fun record member => (lines record member).1
  · obtain ⟨record, listed, rfl⟩ := List.mem_map.1 member
    exact (lines record listed).2

end Display

/-! ## Reports -/

namespace Report

/-- What programs read off a run: nothing on the stream for errors, and objects on the output,
one a line; the last one is the payload of the failure if there is one, and no other is. -/
structure ForPrograms (report : Report) : Prop where
  silent : Chunk.on .alarm report.output = []
  lines : ∃ objects, List.Forall₂ Json.OnLine (Chunk.on .output report.output) objects ∧
    match report.failure with
    | none => ∀ object ∈ objects, object.IsReport
    | some failure => ∃ reports last, objects = reports ++ [last] ∧
        (∀ object ∈ reports, object.IsReport) ∧ last.IsPayload failure

/-- What people read off the stream for errors: the mark and the message of the failure if there
is one, in one chunk, and nothing otherwise. -/
def ForPeople (report : Report) (mark : Text) : Prop :=
  Chunk.on .alarm report.output =
    match report.failure with
    | none => []
    | some failure => [mark ++ " " ++ failure.message ++ "\n"]

end Report

namespace Run

variable (surroundings : Surroundings) (command : Command) (flags : Flags) (document : Text)
  (before : Disk)

/-- A context has the format that the flags and the environment ask for. -/
theorem format_of_ofFlags {context : Context}
    (resolved : Context.ofFlags surroundings flags = .ok context) :
    ∃ environment, context.format = flags.formatOfRun environment := by
  unfold Context.ofFlags at resolved
  split at resolved
  · rename_i environment _
    refine ⟨environment, ?_⟩
    unfold Context.resolve at resolved
    cases found : Context.templatePath surroundings.place.directory surroundings.template
        environment with
    | error failure =>
        rw [found] at resolved
        cases resolved
    | ok template =>
        rw [found] at resolved
        cases resolved
        rfl
  · cases resolved

/-- The format that the flags ask for is the format of the run, with a context or without. -/
theorem format_shown {format : Format} (chosen : flags.chosenFormat = some format) :
    (shown surroundings flags).format = format := by
  unfold shown
  cases resolved : Context.ofFlags surroundings flags with
  | error failure => simp [fallbackDisplay, display, chosen]
  | ok context =>
      obtain ⟨environment, same⟩ := format_of_ofFlags surroundings flags resolved
      simp [display, same, Flags.formatOfRun, preferred, chosen]

/-- Either flag for JSON asks for it. -/
theorem chosenFormat_json (given : flags.json = true ∨ flags.format = some .json) :
    flags.chosenFormat = some .json := by
  unfold Flags.chosenFormat
  rcases given with json | format
  · rw [if_pos json]
  · split
    · rfl
    · exact format

/-- For programs everything is on the output: the lines of what the run says, and behind them
the line of its failure. -/
theorem forPrograms_report (programs : (shown surroundings flags).format = .json) :
    (report surroundings command flags document before).ForPrograms := by
  have calm := isAlarm_of_mem_said surroundings command flags document before
  have noted := noted_of_mem_said surroundings command flags document before
  obtain ⟨objects, lines, reports⟩ := (shown surroundings flags).lines_chunks programs calm noted
  have silent := (shown surroundings flags).on_alarm_chunks _ calm
  have output := output_report surroundings command flags document before
  cases failed : (report surroundings command flags document before).failure with
  | none =>
      simp only [failed, Option.map_none, Option.getD_none, List.append_nil] at output
      refine ⟨by rw [output, silent], objects, by rw [output]; exact lines, ?_⟩
      rw [failed]
      exact reports
  | some failure =>
      have told : (shown surroundings flags).failure failure =
          [⟨.output, failure.payload.render ++ "\n"⟩] := by
        rw [Display.failure_of_mild (rank_threshold_shown surroundings flags), programs]
      simp only [failed, Option.map_some, Option.getD_some, told] at output
      refine ⟨?_, objects ++ [.object failure.told], ?_, ?_⟩
      · rw [output, Chunk.on_append, silent]
        rfl
      · rw [output, Chunk.on_append]
        exact List.rel_append lines (.cons failure.onLine_payload .nil)
      · rw [failed]
        exact ⟨objects, _, rfl, reports, failure.isPayload_told⟩

/-- For people the failure alone is on the stream for errors. -/
theorem forPeople_report (people : (shown surroundings flags).format = .pretty) :
    (report surroundings command flags document before).ForPeople
      ((shown surroundings flags).painted .red "✗") := by
  have calm := isAlarm_of_mem_said surroundings command flags document before
  have silent := (shown surroundings flags).on_alarm_chunks _ calm
  have output := output_report surroundings command flags document before
  rw [Report.ForPeople, output, Chunk.on_append, silent, List.nil_append]
  cases failed : (report surroundings command flags document before).failure with
  | none => rfl
  | some failure =>
      rw [Option.map_some, Option.getD_some,
        Display.failure_of_mild (rank_threshold_shown surroundings flags), people]
      have text : ((shown surroundings flags).chunk (Record.fail failure.message)).text =
          (shown surroundings flags).painted .red "✗" ++ " " ++ failure.message ++ "\n" := by
        simp only [Display.chunk, people]
        rfl
      exact congrArg (fun shown => [shown]) text

/-- **Programs and people can rely on the streams.**  The flags for JSON bring the format for
programs; in that format the output is a line for each object, with the payload of a failure
last, and in the other one a failure is one chunk on the stream for errors. -/
theorem streams_by_format :
    (flags.json = true ∨ flags.format = some .json →
      (shown surroundings flags).format = .json) ∧
    ((shown surroundings flags).format = .json →
      (report surroundings command flags document before).ForPrograms) ∧
    ((shown surroundings flags).format = .pretty →
      (report surroundings command flags document before).ForPeople
        ((shown surroundings flags).painted .red "✗")) :=
  ⟨fun given => format_shown surroundings flags (chosenFormat_json flags given),
    forPrograms_report surroundings command flags document before,
    forPeople_report surroundings command flags document before⟩

end Run

/-! ## A run that finds an undeclared table -/

namespace Streams

open Appearance (plainly shelf)

theorem streams_by_format_undeclared :
    (Run.report plainly (.validate false) { json := true } "c" shelf).ForPrograms ∧
      (Run.report plainly (.validate false) {} "c" shelf).ForPeople "✗" := by
  obtain ⟨chosen, programs, -⟩ :=
    Run.streams_by_format plainly (.validate false) { json := true } "c" shelf
  obtain ⟨-, -, people⟩ := Run.streams_by_format plainly (.validate false) {} "c" shelf
  have unpainted : (Run.shown plainly {}).painted .red "✗" = "✗".toList := by decide +kernel
  rw [unpainted] at people
  exact ⟨programs (chosen (Or.inl rfl)), people (by decide +kernel)⟩

end Streams

end ConfigUpkeep
