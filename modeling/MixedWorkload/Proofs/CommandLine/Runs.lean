import MixedWorkload.Proofs.CommandLine.Arguments
import MixedWorkload.Proofs.CommandLine.Evaluating
import MixedWorkload.Proofs.Files.Contents
import MixedWorkload.Proofs.Finiteness
import MixedWorkload.Proofs.Loading
import MixedWorkload.Proofs.Report.Time
import Mathlib.Data.List.Forall2

/-!
# Runs that leave nothing half done

A run ends in one of three ways. It comes to no evaluation: then nothing has been printed
and nothing was touched. It comes to an evaluation whose report for machines cannot be
written: then the text report has been printed, and at most some directories were made. Or
it gets through to the plots, which cannot fail it any more, and the report for machines is
there to be read.

Time enters a run in one place only, the second line of the report for machines. So runs at
different times can be compared up to that line
(`MixedWorkload.CommandLine.AlikeButTime`), and in particular a run with plots can be
compared with the same run without: what is printed about plots comes behind everything
else, and if there is no series for them, a line is all that is added.

`MixedWorkload.CommandLine.leavesNothingHalfDone_of_read` puts this together for every
store, environment and list of arguments that makes a request.
-/

namespace MixedWorkload.CommandLine

open Store

/-! ### Stores at different times -/

/-- Two stores with the same directories and files, whose contents are the same but for the
times of reports. -/
structure AlikeButTime (time time' : String) (s t : Store) : Prop where
  /-- The directories are the same. -/
  directories_eq : s.directories = t.directories
  /-- The working directory is the same. -/
  working_eq : s.working = t.working
  /-- The files are in the same places, and alike. -/
  files_alike : List.Forall₂ (fun file file' => file.1 = file'.1 ∧
    Report.SameButTime time time' file.2 file'.2) s.files t.files

theorem AlikeButTime.refl (time time' : String) (s : Store) : AlikeButTime time time' s s :=
  ⟨rfl, rfl, List.forall₂_same.mpr fun _ _ => ⟨rfl, .same _⟩⟩

/-- Alike contents at the same place. -/
theorem AlikeButTime.put {time time' : String} {contents contents' : List UInt8}
    (h : Report.SameButTime time time' contents contents') (s : Store) (location : Location) :
    AlikeButTime time time' (s.put location contents) (s.put location contents') where
  directories_eq := rfl
  working_eq := rfl
  files_alike := by
    refine List.rel_append (List.forall₂_same.mpr fun _ _ => ⟨rfl, .same _⟩) ?_
    exact .cons ⟨rfl, h⟩ .nil

/-! ### Writing -/

/-- **A file with the directories above it**: a path either takes no text at all, and then
directories were added at most, or takes any text to the same place. -/
theorem writeWithParents_cases (s : Store) (path : String) :
    (∃ cause t, s.Grows t ∧ ∀ text,
        (writeWithParents path text : ExceptT FileError (StateM Store) Unit) s =
          (.error cause, t)) ∨
      ∃ location t, s.Grows t ∧ ∀ text,
        (writeWithParents path text : ExceptT FileError (StateM Store) Unit) s =
          (.ok (), t.put location (Text.Utf8.encode text)) := by
  have hgrows := onlyGrows_ensureDirectories (Path.above path) s
  have hbind (text : String) := bind_apply (s := s)
    (ensureDirectories (Path.above path) : ExceptT FileError (StateM Store) Unit)
    fun _ => FileSystem.writeFile path (Text.Utf8.encode text)
  rcases hparents : (ensureDirectories (Path.above path) :
    ExceptT FileError (StateM Store) Unit) s with ⟨cause | _, t⟩ <;>
    rw [hparents] at hgrows hbind
  · exact .inl ⟨cause, t, hgrows, hbind⟩
  · rcases writeFile_cases t path with ⟨cause, h⟩ | ⟨location, h⟩
    · exact .inl ⟨cause, t, hgrows, fun text => (hbind text).trans (h _)⟩
    · exact .inr ⟨location, t, hgrows, fun text => (hbind text).trans (h _)⟩

/-- **What is written with the directories above it** can be read at its path. -/
theorem read_of_writeWithParents {s t : Store} {path text : String}
    (h : (writeWithParents path text : ExceptT FileError (StateM Store) Unit) s = (.ok (), t)) :
    t.read path = .ok (Text.Utf8.encode text) := by
  obtain ⟨_, above, -, hwrite⟩ := bind_apply_eq_ok_iff.mp h
  exact read_of_write (writeFile_eq_ok_iff.mp hwrite)

/-- The writing of the report for machines, if a request asks for it: how it ends, and what
the store is afterwards. -/
def Request.documentIn (request : Request) (time : String) (s : Store) (e : Evaluation) :
    Except FileError Unit × Store :=
  match request.json with
  | none => (.ok (), s)
  | some path => (writeWithParents path (e.jsonReport time (some request.input)) :
      ExceptT FileError (StateM Store) Unit) s

/-- **The report for machines at any time**: either it is refused at all times, and then
directories were added at most, or it is written at all times, and alike. -/
theorem documentIn_cases (request : Request) (s : Store) (e : Evaluation) :
    (∃ cause t, s.Grows t ∧ ∀ time, request.documentIn time s e = (.error cause, t)) ∨
      ∃ store : String → Store,
        (∀ time time', AlikeButTime time time' (store time) (store time')) ∧
          ∀ time, request.documentIn time s e = (.ok (), store time) := by
  unfold Request.documentIn
  cases request.json with
  | none => exact .inr ⟨fun _ => s, fun _ _ => .refl _ _ s, fun _ => rfl⟩
  | some path =>
    rcases writeWithParents_cases s path with ⟨cause, t, hgrows, h⟩ | ⟨location, t, -, h⟩
    · exact .inl ⟨cause, t, hgrows, fun _ => h _⟩
    · exact .inr ⟨_, fun _ _ => .put (Report.sameButTime_jsonReport _ _ _ _) t location,
        fun _ => h _⟩

/-! ### Whole runs -/

/-- What is printed before data for plots is written. -/
def plotLine (directory : String) : String :=
  "Writing OLAP latency and throughput plot data to " ++ directory ++ "\n"

section Runs

variable {s t : Store} {env : Environment} {time : String} {request : Request}
  {e : Evaluation}

/-- **Writing the report for machines**, if it is asked for, ends as the writing of its
document does. -/
theorem writeReport_apply : ∃ refuse : FileError → Failure,
    (writeReport (quiet env time) request e).run s =
      ((request.documentIn time s e).1.mapError refuse, (request.documentIn time s e).2) := by
  unfold writeReport Request.documentIn
  cases request.json with
  | none => exact ⟨fun cause => ⟨.writingReport "", .io cause⟩, rfl⟩
  | some path =>
    refine ⟨fun cause => ⟨.writingReport path, .io cause⟩, ?_⟩
    have htime : (quiet env time).time = time := rfl
    dsimp only [ExceptT.run]
    rw [bind_apply, adapt_apply, htime]
    cases ((writeWithParents path (e.jsonReport time (some request.input)) :
      ExceptT FileError (StateM Store) Unit) s).1 <;> rfl

theorem plotOutput_of_not (h : request.plot = false) :
    plotOutput (quiet env time) request e s = ("", s) := by
  unfold plotOutput
  rw [h]
  rfl

/-- Without a series for plotting there is a line about it, and that is all. -/
theorem plotOutput_of_rejected (h : request.plot = true) {cause : Error}
    (hseries : e.log.throughputSeries e.binWidth = .error cause) :
    plotOutput (quiet env time) request e s = (plotLine request.plotDirectory, s) := by
  have hplot : (writePlot request.plotDirectory e : ExceptT Error (StateM Store) _).run s =
      (.error cause, s) := by
    unfold writePlot Evaluation.plotData PlotData.build
    rw [hseries]
    rfl
  unfold plotOutput
  rw [h, if_pos rfl, bind_state_apply, hplot]
  change ("Writing OLAP latency and throughput plot data to " ++ request.plotDirectory ++ "\n" ++
    "", s) = _
  rw [String.append_empty]
  rfl

/-- A request that comes to no evaluation. -/
theorem run_of_unevaluated {failure : Failure}
    (h : request.evaluationIn env s = .error failure) :
    run (quiet env time) request s = (⟨1, "", failure.message⟩, s) := by
  have hevaluate : (evaluate (quiet env time) request).run s = (.error failure, s) := by
    rw [← h]
    exact evaluate_apply
  rw [run, bind_state_apply, hevaluate]
  rfl

/-- A request that comes to an evaluation. -/
theorem run_of_evaluated (time : String) (h : request.evaluationIn env s = .ok e) :
    ∃ complaint : FileError → String, run (quiet env time) request s =
      match request.documentIn time s e with
      | (.error cause, t) => (⟨1, e.report ++ "\n", complaint cause⟩, t)
      | (.ok (), t) => (⟨0, e.report ++ "\n" ++ (plotOutput (quiet env time) request e t).1, ""⟩,
          (plotOutput (quiet env time) request e t).2) := by
  have hevaluate : (evaluate (quiet env time) request).run s = (.ok e, s) := by
    rw [← h]
    exact evaluate_apply
  obtain ⟨refuse, hwrite⟩ : ∃ refuse : FileError → Failure,
    (writeReport (quiet env time) request e).run s = (_, _) := writeReport_apply
  refine ⟨fun cause => (refuse cause).message, ?_⟩
  rw [run, bind_state_apply, hevaluate]
  dsimp only
  rw [bind_state_apply, hwrite]
  rcases request.documentIn time s e with ⟨cause | _, t⟩ <;> rfl

/-- A request whose report for machines cannot be written. -/
theorem run_of_refused (h : request.evaluationIn env s = .ok e) {cause : FileError}
    (hdocument : request.documentIn time s e = (.error cause, t)) :
    ∃ complaint, run (quiet env time) request s = (⟨1, e.report ++ "\n", complaint⟩, t) := by
  obtain ⟨complaint, hrun⟩ := run_of_evaluated time h
  rw [hdocument] at hrun
  exact ⟨complaint cause, hrun⟩

/-- A request whose report for machines is written, or not asked for. -/
theorem run_of_written (h : request.evaluationIn env s = .ok e)
    (hdocument : request.documentIn time s e = (.ok (), t)) :
    run (quiet env time) request s =
      (⟨0, e.report ++ "\n" ++ (plotOutput (quiet env time) request e t).1, ""⟩,
        (plotOutput (quiet env time) request e t).2) := by
  obtain ⟨complaint, hrun⟩ := run_of_evaluated time h
  rwa [hdocument] at hrun

/-- The same without plots. -/
theorem run_of_written_of_not (h : request.evaluationIn env s = .ok e)
    (hdocument : request.documentIn time s e = (.ok (), t)) (hplot : request.plot = false) :
    run (quiet env time) request s = (⟨0, e.report ++ "\n", ""⟩, t) := by
  rw [run_of_written h hdocument, plotOutput_of_not hplot, String.append_empty]

end Runs

/-! ### Runs with plots and without -/

/-- The same request without plots. -/
def Request.bare (request : Request) : Request :=
  { request with plot := false }

/-- A run that differs from another one, made at another time, in a line about plots, which
is printed if the run succeeds. -/
structure AddsPlotLine (directory time time' : String) (run bare : Outcome × Store) :
    Prop where
  /-- Both succeed, or neither. -/
  status_eq : run.1.status = bare.1.status
  /-- The line comes last. -/
  output_eq : run.1.output =
    bare.1.output ++ if run.1.status = 0 then plotLine directory else ""
  /-- The files are the same, but for the time of the report for machines. -/
  alike : AlikeButTime time time' run.2 bare.2

section Plots

variable {s : Store} {env : Environment} {time time' : String} {request : Request}
  {e : Evaluation}

/-- What is evaluated does not depend on plots, -/
theorem evaluationIn_bare : request.bare.evaluationIn env s = request.evaluationIn env s := rfl

/-- and neither does the report for machines. -/
theorem documentIn_bare : request.bare.documentIn time s e = request.documentIn time s e := rfl

/-- **The series is rejected**: the run differs from that without plots in a line. -/
theorem addsPlotLine_run (hplot : request.plot = true) {cause : Error}
    (h : request.evaluationIn env s = .ok e)
    (hseries : e.log.throughputSeries e.binWidth = .error cause) :
    AddsPlotLine request.plotDirectory time time' (run (quiet env time) request s)
      (run (quiet env time') request.bare s) := by
  have hbare : request.bare.evaluationIn env s = .ok e := evaluationIn_bare.trans h
  rcases documentIn_cases request s e with ⟨cause, t, -, hrefused⟩ | ⟨store, halike, hwritten⟩
  · obtain ⟨complaint, hrun⟩ := run_of_refused h (hrefused time)
    obtain ⟨complaint', hrun'⟩ := run_of_refused hbare (documentIn_bare.trans (hrefused time'))
    rw [hrun, hrun']
    exact ⟨rfl, (String.append_empty).symm, .refl _ _ t⟩
  · have hrun' := run_of_written_of_not hbare (documentIn_bare.trans (hwritten time')) rfl
    rw [run_of_written h (hwritten time), plotOutput_of_rejected hplot hseries, hrun']
    exact ⟨rfl, rfl, halike time time'⟩

/-- **Plots come last**: what is printed about them follows what is printed without. -/
theorem exists_output_run :
    ∃ more, (run (quiet env time) request s).1.output =
      (run (quiet env time') request.bare s).1.output ++ more := by
  rcases heval : request.evaluationIn env s with failure | e
  · rw [run_of_unevaluated heval, run_of_unevaluated (evaluationIn_bare.trans heval)]
    exact ⟨"", rfl⟩
  · have hbare : request.bare.evaluationIn env s = .ok e := evaluationIn_bare.trans heval
    rcases documentIn_cases request s e with ⟨cause, t, -, hrefused⟩ | ⟨store, -, hwritten⟩
    · obtain ⟨complaint, hrun⟩ := run_of_refused heval (hrefused time)
      obtain ⟨complaint', hrun'⟩ := run_of_refused hbare (documentIn_bare.trans (hrefused time'))
      rw [hrun, hrun']
      exact ⟨"", (String.append_empty).symm⟩
    · have hrun' := run_of_written_of_not hbare (documentIn_bare.trans (hwritten time')) rfl
      rw [run_of_written heval (hwritten time), hrun']
      exact ⟨_, rfl⟩

end Plots

/-! ### The program -/

/-- What the program comes to on a store, with nobody told about events: its outcome, and
the store that it leaves. -/
def runOn (env : Environment) (time : String) (s : Store) (arguments : List String) :
    Outcome × Store :=
  program (quiet env time) arguments s

/-- **Runs without half results**: what a run on a store prints and leaves behind, if its
arguments make a request. -/
structure LeavesNothingHalfDone (env : Environment) (time : String) (s : Store)
    (arguments : List String) (request : Request) : Prop where
  /-- Without options or without an evaluation the run fails, prints nothing and leaves the
  store as it is. -/
  unevaluated : ∀ failure, request.evaluationIn env s = .error failure →
    runOn env time s arguments = (⟨1, "", failure.message⟩, s)
  /-- With an evaluation the output begins with the whole report. -/
  reported : ∀ e, request.evaluationIn env s = .ok e →
    ∃ more, (runOn env time s arguments).1.output = e.report ++ "\n" ++ more
  /-- If the report for machines cannot be written, the run fails, the text report is all
  that it prints, and at most directories were added, those that the attempt has made. -/
  refused : ∀ e cause, request.evaluationIn env s = .ok e →
    (request.documentIn time s e).1 = .error cause →
      (runOn env time s arguments).1.status = 1 ∧
        (runOn env time s arguments).1.output = e.report ++ "\n" ∧
          (runOn env time s arguments).2 = (request.documentIn time s e).2 ∧
            s.Grows (runOn env time s arguments).2
  /-- If it can be written, the store holds the whole of it at the path that was asked for, and
  without plots that is the store which the run leaves. -/
  written : ∀ e path, request.evaluationIn env s = .ok e → request.json = some path →
    (request.documentIn time s e).1 = .ok () →
      (request.documentIn time s e).2.read path =
          .ok (Text.Utf8.encode (e.jsonReport time (some request.input))) ∧
        (request.plot = false →
          (runOn env time s arguments).2 = (request.documentIn time s e).2)
  /-- If it is written or not asked for, the run succeeds, whatever becomes of the data for
  plots. -/
  succeeds : ∀ e, request.evaluationIn env s = .ok e →
    (request.documentIn time s e).1 = .ok () → (runOn env time s arguments).1.status = 0
  /-- If plots are asked for and there is no series for them, nothing is made besides the
  report for machines, and a line is all that is added to the output of the same run without
  plots, at whatever time this is made. -/
  rejected : ∀ e cause, request.plot = true → request.evaluationIn env s = .ok e →
    e.log.throughputSeries e.binWidth = .error cause →
      (runOn env time s arguments).2 = (request.documentIn time s e).2 ∧
        ∀ time' bare, Request.read env bare = .ok request.bare →
          AddsPlotLine request.plotDirectory time time' (runOn env time s arguments)
            (runOn env time' s bare)
  /-- If plots are asked for, the output begins with that of the same run without plots. -/
  extends_bare : request.plot = true →
    ∀ time' bare, Request.read env bare = .ok request.bare →
      ∃ more, (runOn env time s arguments).1.output =
        (runOn env time' s bare).1.output ++ more
  /-- If plots are not asked for, they are with `--plot` in front. -/
  read_plot : request.plot = false →
    Request.read env ("--plot" :: arguments) = .ok { request with plot := true }

section LeavesNothingHalfDone

variable {s : Store} {env : Environment} {time : String} {request : Request}
  {e : Evaluation} {arguments : List String}

theorem runOn_of_read (h : Request.read env arguments = .ok request) :
    runOn env time s arguments = run (quiet env time) request s := by
  have henv : (quiet env time).environment = env := rfl
  rw [runOn, program, henv, h]

/-- Where a report for machines was written, the store holds it. -/
theorem read_of_documentIn {path : String} (hpath : request.json = some path)
    (h : (request.documentIn time s e).1 = .ok ()) :
    (request.documentIn time s e).2.read path =
      .ok (Text.Utf8.encode (e.jsonReport time (some request.input))) := by
  have hdocument : request.documentIn time s e =
      (writeWithParents path (e.jsonReport time (some request.input)) :
        ExceptT FileError (StateM Store) Unit) s := by
    rw [Request.documentIn, hpath]
  rw [hdocument] at h ⊢
  exact read_of_writeWithParents (Prod.ext h rfl)

/-- Where a report for machines cannot be written, directories were added at most. -/
theorem grows_documentIn {cause : FileError}
    (h : (request.documentIn time s e).1 = .error cause) :
    s.Grows (request.documentIn time s e).2 := by
  rcases documentIn_cases request s e with ⟨cause, t, hgrows, hrefused⟩ | ⟨store, -, hwritten⟩
  · rw [hrefused time]
    exact hgrows
  · rw [hwritten time] at h
    cases h

end LeavesNothingHalfDone

/-- **Nothing is left half done, and no run fails for its plots**: whatever the files, the
environment and the time are, a run whose arguments make a request either stops before
anything is printed or touched, or prints the whole report; then only a report for machines
that cannot be written makes it fail, and plots only ever add to the output. -/
theorem leavesNothingHalfDone_of_read (time : String) (s : Store) {env : Environment}
    {arguments : List String} {request : Request}
    (h : Request.read env arguments = .ok request) :
    LeavesNothingHalfDone env time s arguments request where
  unevaluated failure heval := by
    rw [runOn_of_read h, run_of_unevaluated heval]
  reported e heval := by
    rw [runOn_of_read h]
    rcases hdocument : request.documentIn time s e with ⟨cause | _, t⟩
    · obtain ⟨complaint, hrun⟩ := run_of_refused heval hdocument
      rw [hrun]
      exact ⟨"", (String.append_empty).symm⟩
    · rw [run_of_written heval hdocument]
      exact ⟨_, rfl⟩
  refused e cause heval hrefused := by
    obtain ⟨complaint, hrun⟩ := run_of_refused heval (Prod.ext hrefused rfl)
    rw [runOn_of_read h, hrun]
    exact ⟨rfl, rfl, rfl, grows_documentIn hrefused⟩
  written e path heval hpath hwritten := by
    refine ⟨read_of_documentIn hpath hwritten, fun hplot => ?_⟩
    rw [runOn_of_read h, run_of_written_of_not heval (Prod.ext hwritten rfl) hplot]
  succeeds e heval hwritten := by
    rw [runOn_of_read h, run_of_written heval (Prod.ext hwritten rfl)]
  rejected e cause hplot heval hseries := by
    rw [runOn_of_read h]
    refine ⟨?_, fun time' bare hbare => ?_⟩
    · rcases hdocument : request.documentIn time s e with ⟨cause | _, t⟩
      · obtain ⟨complaint, hrun⟩ := run_of_refused heval hdocument
        rw [hrun]
      · rw [run_of_written heval hdocument, plotOutput_of_rejected hplot hseries]
    · rw [runOn_of_read hbare]
      exact addsPlotLine_run hplot heval hseries
  extends_bare hplot time' bare hbare := by
    rw [runOn_of_read h, runOn_of_read hbare]
    exact exists_output_run
  read_plot hplot := Request.read_plot_cons h hplot

/-! ### A run without a series -/

open Evaluation

/-- A query, and a NewOrder long after it. -/
def outlierLog : TimingLog :=
  ⟨[⟨7, 0.0, 2.0, "a", 0⟩, ⟨2, 9e9, 0.5, "b", 0⟩]⟩

/-- The same as a file. -/
def outlierFile : List UInt8 :=
  asciiBytes "type,start,latency,worker,phase\n7,0,2000000,a,0\n2,9e9,500000,b,0\n"

/-- The same file in the working directory. -/
def outlierStore : Store :=
  ⟨[["work"]], [(["work", "log"], outlierFile)], ["work"]⟩

/-- A request for plots of that log. -/
def outlierRequest : Request :=
  ⟨"log", none, true, "plots", none, none, none, false, 0⟩

theorem read_outlierFile : TimingLog.read outlierFile = .ok outlierLog := by
  rfl

theorem outlierLog_isTypeList :
    (EvaluationOptions.standard.scheme .reference).IsTypeList outlierLog.records [7] := by
  refine ⟨List.pairwise_singleton _ _, fun t => ?_⟩
  rw [List.mem_singleton]
  constructor
  · rintro rfl
    exact ⟨by decide, ⟨7, 0.0, 2.0, "a", 0⟩, List.mem_cons_self, rfl⟩
  · rintro ⟨ht, r, hr, rfl⟩
    simp only [outlierLog, List.mem_cons, List.not_mem_nil, or_false] at hr
    rcases hr with rfl | rfl
    · rfl
    · exact absurd ht (by decide)

theorem standard_accepts : EvaluationOptions.standard.Accepts .reference where
  isValid := Config.standard_isValid
  resolve_eq := rfl

theorem evaluationIn_outlier :
    outlierRequest.evaluationIn (fun _ => none) outlierStore =
      .ok (result Float.pow outlierLog .standard .reference [7]) := by
  have hsplit : "log".splitOn "/" = ["log"] := by cbv
  have hlocate : outlierStore.locate "log" = .ok ["work", "log"] := by
    rw [Store.locate, hsplit]
    rfl
  have hread : outlierStore.read "log" = .ok outlierFile := by
    rw [Store.read, hlocate]
    rfl
  have hoptions : outlierRequest.optionsIn (fun _ => none) outlierStore = .ok .standard := rfl
  have hfile : ofFile outlierFile .standard =
      .ok (result Float.pow outlierLog .standard .reference [7]) := by
    rw [ofFile, read_outlierFile]
    refine ofLogBy_eq_ok standard_accepts outlierLog_isTypeList (List.cons_ne_nil _ _) ?_
    intro hstrict
    cases hstrict
  exact Request.evaluationIn_eq_ok hoptions hread hfile

/-- A run that keeps its report and makes no plots. -/
theorem leavesNothingHalfDone_outlier :
    Request.read (fun _ => none) ["log", "--plot"] = .ok outlierRequest ∧
      Request.read (fun _ => none) ["log"] = .ok outlierRequest.bare ∧
      (∃ e cause, outlierRequest.evaluationIn (fun _ => none) outlierStore = .ok e ∧
        e.log.throughputSeries e.binWidth = .error cause) ∧
      LeavesNothingHalfDone (fun _ => none) "2024-05-01T12:00:00Z" outlierStore
        ["log", "--plot"] outlierRequest :=
  have h : Request.read (fun _ => none) ["log", "--plot"] = .ok outlierRequest := rfl
  ⟨h, rfl, ⟨_, _, evaluationIn_outlier, rfl⟩, leavesNothingHalfDone_of_read _ outlierStore h⟩

end MixedWorkload.CommandLine
