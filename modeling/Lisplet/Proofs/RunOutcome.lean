import Lisplet.CommandLine.Run
import Lisplet.Proofs.DiagnosticOrder

/-!
# How runs end

A run succeeds only if nothing but advice was recorded, up to and including what writing the
listing comes to. A program that is not accepted leaves everything as it was once the requested
stages were printed. Whether advice is shown decides which advice is shown, and nothing else.

All of this holds for any loader of configurations and any operations on files and on the
standard output, whatever state they act on and whichever of them fail.
-/

namespace Lisplet

/-! ### Leaving out advice -/

/-- A configuration that does not ask for advice. -/
def Config.withoutAdvice (config : Config) : Config :=
  { config with showInfo := false }

/-- Configurations that differ in whether they ask for advice agree in everything else. -/
theorem Config.same_of_withoutAdvice {config other : Config}
    (same : config.withoutAdvice = other.withoutAdvice) :
    config.names = other.names ∧ config.maxCallDepth = other.maxCallDepth := by
  have sameNames := congrArg Config.names same
  have sameDepth := congrArg Config.maxCallDepth same
  exact ⟨sameNames, sameDepth⟩

/-- A failure without the advice that is shown with it. -/
def Failure.withoutAdvice : Failure → Failure
  | rejected rejection source => rejected ⟨rejection.errors⟩ source
  | failure => failure

/-- A success without the advice that is shown with it. -/
def Success.withoutAdvice (success : Success) : Success :=
  { success with notes := success.notes.filter fun note => note.severity.isError }

/-- How a run ends, without the advice that is shown. -/
def Ending.withoutAdvice : Ending → Ending
  | success result => .success result.withoutAdvice
  | failure cause => .failure cause.withoutAdvice
  | abort error => .abort error

namespace Compilation

/-- All that is not mere advice is shown, in the order in which it was recorded. -/
theorem filter_isError_shown (compilation : Compilation) (showInfo : Bool) :
    (compilation.shown showInfo).filter (fun diagnostic => diagnostic.severity.isError) =
      compilation.diagnostics.filter fun diagnostic => diagnostic.severity.isError := by
  rw [shown, List.filter_filter]
  refine List.filter_congr fun diagnostic _ => ?_
  cases showInfo <;> simp [Severity.isError]

/-- A finding that is not mere advice makes a compilation fail. -/
theorem failed_record (compilation : Compilation) {diagnostic : Diagnostic}
    (notAdvice : diagnostic.severity ≠ .info) : (compilation.record diagnostic).failed = true := by
  simp [failed, record, Severity.isError_iff.2 notAdvice]

/-- A finding that follows nothing but advice is the only one. -/
theorem errors_record {compilation : Compilation} {diagnostic : Diagnostic}
    (advice : ∀ earlier ∈ compilation.diagnostics, earlier.severity = .info)
    (notAdvice : diagnostic.severity ≠ .info) (showInfo : Bool) :
    (⟨(compilation.record diagnostic).shown showInfo⟩ : Rejection).errors = [diagnostic] := by
  have noneBefore : compilation.diagnostics.filter (fun earlier => earlier.severity.isError) =
      [] := by
    rw [List.filter_eq_nil_iff]
    intro earlier member
    simp [Severity.isError_iff, advice earlier member]
  have recorded : (compilation.record diagnostic).diagnostics =
      compilation.diagnostics ++ [diagnostic] := compilation.log.entries_emit diagnostic
  rw [Rejection.errors, filter_isError_shown, recorded, List.filter_append, noneBefore]
  simp [Severity.isError_iff.2 notAdvice]

end Compilation

/-- Only the names of a configuration have a bearing on what is compiled. -/
theorem compile_congr {config other : Config} (sameNames : config.names = other.names)
    (source : String) (options : CompileOptions) :
    compile config source options = compile other source options := by
  rw [compile_eq, compile_eq, sameNames]
  cases (Module.ofSource source).result <;> simp [closingDiagnostics, sameNames]

namespace Arguments

/-- The command line decides on advice only. -/
theorem withoutAdvice_configured (arguments : Arguments) (config : Config) :
    (arguments.configured config).withoutAdvice = config.withoutAdvice := by
  rw [configured]
  split <;> rfl

/-- A run fails to compile its source exactly if one finding is not mere advice. -/
theorem failed_compiled_iff (arguments : Arguments) (config : Config) (source : String) :
    (arguments.compiled config source).failed = true ↔
      ∃ diagnostic ∈ (arguments.compiled config source).diagnostics,
        diagnostic.severity ≠ .info :=
  failed_compile_iff _ source _

/-- A run accepts its source exactly if all findings are advice. -/
theorem failed_compiled_eq_false_iff (arguments : Arguments) (config : Config)
    (source : String) :
    (arguments.compiled config source).failed = false ↔
      ∀ diagnostic ∈ (arguments.compiled config source).diagnostics,
        diagnostic.severity = .info := by
  rw [← Bool.not_eq_true, failed_compiled_iff]
  simp

end Arguments

/-! ### What the steps of a run do -/

/-- What follows an action goes on from its value and its state. -/
theorem run_bind_of_run {σ α β : Type} {action : StateM σ α} {next : α → StateM σ β}
    {state later : σ} {value : α} (ran : action.run state = (value, later)) :
    (action >>= next).run state = (next value).run later := by
  rw [StateT.run_bind, ran]
  rfl

namespace FileSystem

variable {σ : Type} {files : FileSystem (StateM σ)} {arguments : Arguments} {config : Config}
  {source : String} {compilation : Compilation} {state final : σ}

/-- A listing that is to be written to a file is written, or the diagnostic names the file. -/
theorem run_putListing_of_output {path listing : String} {written : Except FileError Unit}
    (hasOutput : arguments.output = some path)
    (writes : (files.write path listing).run state = (written, final)) :
    (files.putListing arguments listing).run state =
      (written.mapError (unwritableOutput path), final) := by
  rw [putListing, hasOutput]
  exact run_bind_of_run writes

/-- A listing that is to be printed is printed, or the diagnostic says that it cannot be. -/
theorem run_putListing_of_no_output {listing : String} {printed : Except FileError Unit}
    (noOutput : arguments.output = none) (notRun : arguments.run = false)
    (prints : (files.print listing).run state = (printed, final)) :
    (files.putListing arguments listing).run state =
      (printed.mapError unprintableListing, final) := by
  rw [putListing, noOutput, notRun]
  exact run_bind_of_run prints

/-- A diagnostic about a listing is not mere advice. -/
theorem severity_of_putListing {listing : String} {diagnostic : Diagnostic}
    (fails : (files.putListing arguments listing).run state = (.error diagnostic, final)) :
    diagnostic.severity ≠ .info := by
  cases hasOutput : arguments.output with
  | some path =>
    rcases writes : (files.write path listing).run state with ⟨error | ⟨⟩, after⟩
    · rw [run_putListing_of_output hasOutput writes] at fails
      cases fails
      simp [unwritableOutput]
    · rw [run_putListing_of_output hasOutput writes] at fails
      cases fails
  | none =>
    cases runs : arguments.run with
    | true =>
      rw [putListing, hasOutput, runs] at fails
      cases fails
    | false =>
      rcases prints : (files.print listing).run state with ⟨error | ⟨⟩, after⟩
      · rw [run_putListing_of_no_output hasOutput runs prints] at fails
        cases fails
        simp [unprintableListing]
      · rw [run_putListing_of_no_output hasOutput runs prints] at fails
        cases fails

/-- Nothing is done without a listing. -/
theorem emitListing_of_none (noListing : compilation.listing? = none) :
    files.emitListing arguments compilation = pure compilation := by
  rw [emitListing, noListing]

/-- What writing a listing comes to is recorded. -/
theorem run_emitListing {target : Target} {put : Except Diagnostic Unit}
    (accepted : compilation.failed = false) (hasTarget : compilation.target = some target)
    (puts : (files.putListing arguments target.listing).run state = (put, final)) :
    (files.emitListing arguments compilation).run state =
      (match put with
        | .ok () => compilation
        | .error diagnostic => compilation.record diagnostic, final) := by
  have hasListing : compilation.listing? = some target.listing := by
    simp [Compilation.listing?, accepted, hasTarget]
  rw [emitListing, hasListing]
  dsimp only
  rw [run_bind_of_run puts]
  rcases put with diagnostic | ⟨⟩ <;> rfl

/-- If nothing but advice is recorded once the listing is written, nothing was recorded, and
the listing was written if there is one. -/
theorem accepted_of_emitListing {recorded : Compilation}
    (emits : (files.emitListing arguments compilation).run state = (recorded, final))
    (accepted : recorded.failed = false) :
    recorded = compilation ∧ (compilation.target = none → final = state) ∧
      ∀ target, compilation.target = some target →
        (files.putListing arguments target.listing).run state = (.ok (), final) := by
  cases failed : compilation.failed with
  | true =>
    rw [emitListing_of_none (by simp [Compilation.listing?, failed])] at emits
    cases emits
    exact absurd (failed.symm.trans accepted) (by simp)
  | false =>
    cases hasTarget : compilation.target with
    | none =>
      rw [emitListing_of_none (by simp [Compilation.listing?, hasTarget])] at emits
      cases emits
      exact ⟨rfl, fun _ => rfl, by simp⟩
    | some target =>
      rcases puts : (files.putListing arguments target.listing).run state with
        ⟨diagnostic | ⟨⟩, after⟩
      · rw [run_emitListing failed hasTarget puts] at emits
        cases emits
        rw [compilation.failed_record (severity_of_putListing puts)] at accepted
        cases accepted
      · rw [run_emitListing failed hasTarget puts] at emits
        cases emits
        refine ⟨rfl, by simp, ?_⟩
        rintro _ ⟨⟩
        exact puts

/-- What is not accepted is rejected with what is shown of it, and nothing else is done. -/
theorem conclude_of_failed (failed : compilation.failed = true) :
    files.conclude arguments config source compilation =
      pure (.failure (.rejected ⟨compilation.shown config.showInfo⟩ source)) := by
  rw [conclude, if_pos failed]

/-- A run that succeeds has nothing but advice to show, prints no value unless asked to, and has
a status only if a target was run. -/
theorem accepted_of_conclude {success : Success}
    (succeeds : (files.conclude arguments config source compilation).run state =
      (.success success, final)) :
    compilation.failed = false ∧ (arguments.run = false → final = state) ∧
      (success.status ≠ 0 → arguments.run = true ∧ compilation.target.isSome) := by
  rw [conclude] at succeeds
  split at succeeds
  · cases succeeds
  rename_i accepted
  refine ⟨by simpa using accepted, ?_⟩
  split at succeeds
  · rename_i target runs hasTarget
    exact ⟨fun notRun => absurd (runs.symm.trans notRun) (by simp),
      fun _ => ⟨runs, by simp [hasTarget]⟩⟩
  · cases succeeds
    exact ⟨fun _ => rfl, fun nonzero => absurd rfl nonzero⟩

/-- If the requested stages cannot be printed, nothing else is done. -/
theorem process_of_unprinted {error : FileError}
    (unprinted : (files.printAll ((arguments.compiled config source).dumps arguments)).run state =
      (.error error, final)) :
    (files.process arguments config source).run state = (.failure (.file error), final) := by
  rw [process, run_bind_of_run unprinted]
  rfl

/-- Once the requested stages are printed, what writing the listing comes to decides how a run
ends. -/
theorem process_of_printed {recorded : Compilation} {printed emitted : σ}
    (prints : (files.printAll ((arguments.compiled config source).dumps arguments)).run state =
      (.ok (), printed))
    (emits : (files.emitListing arguments (arguments.compiled config source)).run printed =
      (recorded, emitted)) :
    (files.process arguments config source).run state =
      (files.conclude arguments (arguments.configured config) source recorded).run emitted := by
  rw [process, run_bind_of_run prints]
  dsimp only
  rw [run_bind_of_run emits]

end FileSystem

/-! ### Runs on files -/

namespace Arguments

variable {σ : Type} {arguments : Arguments} {load : ConfigLoader (StateM σ)}
  {files : FileSystem (StateM σ)} {state later printed final : σ} {config : Config}
  {source : String}

/-- Whether a run loads a configuration and reads a source, and is then in the given state. -/
def Reads (arguments : Arguments) (load : ConfigLoader (StateM σ))
    (files : FileSystem (StateM σ)) (state : σ) (config : Config) (source : String)
    (later : σ) : Prop :=
  ∃ loaded, (load arguments.config arguments.input).run state = (.ok config, loaded) ∧
    (files.read arguments.input).run loaded = (.ok source, later)

/-- Whether a run then prints all that the requested stages made, and is in the given state. -/
def Prints (arguments : Arguments) (files : FileSystem (StateM σ)) (config : Config)
    (source : String) (later printed : σ) : Prop :=
  (files.printAll ((arguments.compiled config source).dumps arguments)).run later =
    (.ok (), printed)

/-- Once the source is read, a run processes it. -/
theorem execute_of_reads (reads : arguments.Reads load files state config source later) :
    (arguments.execute load files).run state = (files.process arguments config source).run later := by
  obtain ⟨loaded, loads, readsSource⟩ := reads
  rw [execute, run_bind_of_run loads]
  dsimp only
  rw [run_bind_of_run readsSource]

/-- A run that succeeds has read a source and printed the requested stages. -/
theorem reads_of_execute {success : Success}
    (succeeds : (arguments.execute load files).run state = (.success success, final)) :
    ∃ config source later printed, arguments.Reads load files state config source later ∧
      arguments.Prints files config source later printed := by
  rcases loads : (load arguments.config arguments.input).run state with ⟨failure | config, loaded⟩
  · rw [execute, run_bind_of_run loads] at succeeds
    cases succeeds
  rcases readsSource : (files.read arguments.input).run loaded with ⟨error | source, later⟩
  · rw [execute, run_bind_of_run loads] at succeeds
    dsimp only at succeeds
    rw [run_bind_of_run readsSource] at succeeds
    cases succeeds
  have reads : arguments.Reads load files state config source later := ⟨loaded, loads, readsSource⟩
  rcases prints : (files.printAll ((arguments.compiled config source).dumps arguments)).run later
    with ⟨error | ⟨⟩, printed⟩
  · rw [execute_of_reads reads, FileSystem.process_of_unprinted prints] at succeeds
    cases succeeds
  exact ⟨config, source, later, printed, reads, prints⟩

/-- A source that is not accepted is rejected, and nothing is done but to print the requested
stages. -/
theorem execute_of_failed (reads : arguments.Reads load files state config source later)
    (prints : arguments.Prints files config source later printed)
    (failed : (arguments.compiled config source).failed = true) :
    (arguments.execute load files).run state =
      (.failure (.rejected
        ⟨(arguments.compiled config source).shown (arguments.configured config).showInfo⟩
        source), printed) := by
  have emits : (files.emitListing arguments (arguments.compiled config source)).run printed =
      (arguments.compiled config source, printed) := by
    rw [FileSystem.emitListing_of_none (by simp [Compilation.listing?, failed])]
    rfl
  rw [execute_of_reads reads, FileSystem.process_of_printed prints emits,
    FileSystem.conclude_of_failed failed]
  rfl

/-- A run whose listing cannot be written or printed is rejected for that. -/
theorem execute_of_unwritten {target : Target} {diagnostic : Diagnostic}
    (reads : arguments.Reads load files state config source later)
    (prints : arguments.Prints files config source later printed)
    (accepted : (arguments.compiled config source).failed = false)
    (hasTarget : (arguments.compiled config source).target = some target)
    (unwritten : (files.putListing arguments target.listing).run printed =
      (.error diagnostic, final)) :
    ∃ rejection : Rejection, rejection.errors = [diagnostic] ∧
      (arguments.execute load files).run state = (.failure (.rejected rejection source), final) := by
  have emits := FileSystem.run_emitListing accepted hasTarget unwritten
  have notAdvice := FileSystem.severity_of_putListing unwritten
  have advice := (failed_compiled_eq_false_iff arguments config source).1 accepted
  refine ⟨_, Compilation.errors_record advice notAdvice (arguments.configured config).showInfo, ?_⟩
  rw [execute_of_reads reads, FileSystem.process_of_printed prints emits,
    FileSystem.conclude_of_failed (Compilation.failed_record _ notAdvice)]
  rfl

/-- A run that succeeds has read a source that is accepted and has written its listing. -/
theorem accepted_of_execute {success : Success}
    (reads : arguments.Reads load files state config source later)
    (prints : arguments.Prints files config source later printed)
    (succeeds : (arguments.execute load files).run state = (.success success, final)) :
    (arguments.compiled config source).failed = false ∧
      ∃ emitted, ((arguments.compiled config source).target = none → emitted = printed) ∧
        (∀ target, (arguments.compiled config source).target = some target →
          (files.putListing arguments target.listing).run printed = (.ok (), emitted)) ∧
        (arguments.run = false → final = emitted) ∧
        (success.status ≠ 0 →
          arguments.run = true ∧ (arguments.compiled config source).target.isSome) := by
  rcases emits : (files.emitListing arguments (arguments.compiled config source)).run printed with
    ⟨recorded, emitted⟩
  rw [execute_of_reads reads, FileSystem.process_of_printed prints emits] at succeeds
  obtain ⟨accepted, unchanged, status⟩ := FileSystem.accepted_of_conclude succeeds
  obtain ⟨rfl, notWritten, written⟩ := FileSystem.accepted_of_emitListing emits accepted
  exact ⟨accepted, emitted, notWritten, written, unchanged, status⟩

end Arguments

/-! ### Runs that differ in the advice they show -/

section Advice

variable {σ τ α β γ δ : Type} {alike : σ → τ → Prop}

/-- Whether two actions, taken in states that are alike, have results that are alike and
lead to states that are alike. -/
def ActAlike (alike : σ → τ → Prop) (related : α → β → Prop) (action : StateM σ α)
    (other : StateM τ β) : Prop :=
  ∀ state otherState, alike state otherState →
    related (action.run state).1 (other.run otherState).1 ∧
      alike (action.run state).2 (other.run otherState).2

theorem actAlike_pure {related : α → β → Prop} {value : α} {other : β}
    (same : related value other) : ActAlike alike related (pure value) (pure other) :=
  fun _ _ start => ⟨same, start⟩

theorem actAlike_refl (action : StateM σ α) : ActAlike Eq Eq action action := by
  rintro state _ rfl
  exact ⟨rfl, rfl⟩

theorem ActAlike.bind {related : α → β → Prop} {relatedToo : γ → δ → Prop}
    {action : StateM σ α} {other : StateM τ β} {next : α → StateM σ γ} {otherNext : β → StateM τ δ}
    (first : ActAlike alike related action other)
    (second : ∀ value otherValue, related value otherValue →
      ActAlike alike relatedToo (next value) (otherNext otherValue)) :
    ActAlike alike relatedToo (action >>= next) (other >>= otherNext) := by
  intro state otherState start
  obtain ⟨values, states⟩ := first state otherState start
  exact second _ _ values _ _ states

/-- Two actions with equal results go on alike if they do for each result. -/
theorem ActAlike.bind_eq {related : γ → δ → Prop} {action : StateM σ α} {other : StateM τ α}
    {next : α → StateM σ γ} {otherNext : α → StateM τ δ}
    (first : ActAlike alike Eq action other)
    (second : ∀ value, ActAlike alike related (next value) (otherNext value)) :
    ActAlike alike related (action >>= next) (other >>= otherNext) := by
  refine first.bind ?_
  rintro value _ rfl
  exact second value

/-- Whether a loader and files serve a run as others do, but for whether the configuration asks
for advice. -/
structure ServeAlike (arguments : Arguments) (alike : σ → τ → Prop)
    (load : ConfigLoader (StateM σ)) (otherLoad : ConfigLoader (StateM τ))
    (files : FileSystem (StateM σ)) (other : FileSystem (StateM τ)) : Prop where
  config : ActAlike alike
    (fun loaded otherLoaded =>
      loaded.map Config.withoutAdvice = otherLoaded.map Config.withoutAdvice)
    (load arguments.config arguments.input) (otherLoad arguments.config arguments.input)
  input : ActAlike alike Eq (files.read arguments.input) (other.read arguments.input)
  output : ∀ path text, arguments.output = some path →
    ActAlike alike Eq (files.write path text) (other.write path text)
  print : ∀ text, ActAlike alike Eq (files.print text) (other.print text)

/-- Whether two endings differ at most in the advice that is shown. -/
def Ending.SameButAdvice (ending other : Ending) : Prop :=
  ending.withoutAdvice = other.withoutAdvice

namespace ServeAlike

variable {arguments : Arguments} {load : ConfigLoader (StateM σ)}
  {otherLoad : ConfigLoader (StateM τ)} {files : FileSystem (StateM σ)} {other : FileSystem (StateM τ)}

theorem refl (arguments : Arguments) (load : ConfigLoader (StateM σ))
    (files : FileSystem (StateM σ)) : ServeAlike arguments Eq load load files files where
  config := by
    rintro state _ rfl
    exact ⟨rfl, rfl⟩
  input := actAlike_refl _
  output _ _ _ := actAlike_refl _
  print _ := actAlike_refl _

/-- Texts are printed alike one after another. -/
theorem printAll (served : ServeAlike arguments alike load otherLoad files other)
    (texts : List String) : ActAlike alike Eq (files.printAll texts) (other.printAll texts) := by
  induction texts with
  | nil => exact actAlike_pure rfl
  | cons text rest inductionHypothesis =>
    refine (served.print text).bind_eq ?_
    rintro (error | ⟨⟩)
    · exact actAlike_pure rfl
    · exact inductionHypothesis

theorem putListing (served : ServeAlike arguments alike load otherLoad files other) (info : Bool)
    (listing : String) :
    ActAlike alike Eq (files.putListing arguments listing)
      (other.putListing { arguments with info } listing) := by
  unfold FileSystem.putListing
  cases hasOutput : arguments.output with
  | some path =>
    exact (served.output path listing hasOutput).bind_eq fun _ => actAlike_pure rfl
  | none =>
    cases arguments.run with
    | true => exact actAlike_pure rfl
    | false => exact (served.print listing).bind_eq fun _ => actAlike_pure rfl

theorem emitListing (served : ServeAlike arguments alike load otherLoad files other)
    (info : Bool) (compilation : Compilation) :
    ActAlike alike Eq (files.emitListing arguments compilation)
      (other.emitListing { arguments with info } compilation) := by
  unfold FileSystem.emitListing
  cases compilation.listing? with
  | none => exact actAlike_pure rfl
  | some listing =>
    refine (served.putListing info listing).bind_eq ?_
    rintro (diagnostic | ⟨⟩)
    · exact actAlike_pure rfl
    · exact actAlike_pure rfl

/-- Whether advice is shown has no bearing on how a run ends. -/
theorem conclude (served : ServeAlike arguments alike load otherLoad files other)
    {config otherConfig : Config} (sameDepth : config.maxCallDepth = otherConfig.maxCallDepth)
    (info : Bool) (source : String) (compilation : Compilation) :
    ActAlike alike Ending.SameButAdvice (files.conclude arguments config source compilation)
      (other.conclude { arguments with info } otherConfig source compilation) := by
  have sameErrors :
      (compilation.shown config.showInfo).filter (fun diagnostic => diagnostic.severity.isError) =
        (compilation.shown otherConfig.showInfo).filter
          fun diagnostic => diagnostic.severity.isError := by
    rw [compilation.filter_isError_shown, compilation.filter_isError_shown]
  have sameSuccess (status : Int) : Ending.SameButAdvice
      (.success ⟨source, compilation.shown config.showInfo, status⟩)
      (.success ⟨source, compilation.shown otherConfig.showInfo, status⟩) := by
    simp only [Ending.SameButAdvice, Ending.withoutAdvice, Success.withoutAdvice, sameErrors]
  have sameEvaluation : evaluate config = evaluate otherConfig := by
    funext target
    rw [evaluate, evaluate, sameDepth]
  cases failed : compilation.failed with
  | true =>
    rw [FileSystem.conclude_of_failed failed, FileSystem.conclude_of_failed failed]
    refine actAlike_pure ?_
    simp only [Ending.SameButAdvice, Ending.withoutAdvice, Failure.withoutAdvice,
      Rejection.errors, sameErrors]
  | false =>
    simp only [FileSystem.conclude, failed, sameEvaluation, Bool.false_eq_true, if_false]
    cases arguments.run with
    | false => exact actAlike_pure (sameSuccess 0)
    | true =>
      cases compilation.target with
      | none => exact actAlike_pure (sameSuccess 0)
      | some target =>
        dsimp only
        cases evaluate otherConfig target with
        | error failure => exact actAlike_pure rfl
        | ok value =>
          refine (served.print _).bind_eq ?_
          rintro (error | ⟨⟩)
          · exact actAlike_pure rfl
          · exact actAlike_pure (sameSuccess (exitStatus value))

/-- Whether advice is asked for has no bearing on what a run does once the source is read. -/
theorem process (served : ServeAlike arguments alike load otherLoad files other)
    {config otherConfig : Config} (sameConfig : config.withoutAdvice = otherConfig.withoutAdvice)
    (info : Bool) (source : String) :
    ActAlike alike Ending.SameButAdvice (files.process arguments config source)
      (other.process { arguments with info } otherConfig source) := by
  have sameConfigured : (arguments.configured config).withoutAdvice =
      (({ arguments with info } : Arguments).configured otherConfig).withoutAdvice := by
    rw [Arguments.withoutAdvice_configured, Arguments.withoutAdvice_configured, sameConfig]
  obtain ⟨sameNames, sameDepth⟩ := Config.same_of_withoutAdvice sameConfigured
  have sameCompilation : ({ arguments with info } : Arguments).compiled otherConfig source =
      arguments.compiled config source :=
    (compile_congr sameNames source _).symm
  rw [FileSystem.process, FileSystem.process, sameCompilation]
  refine (served.printAll _).bind_eq ?_
  rintro (error | ⟨⟩)
  · exact actAlike_pure rfl
  · exact (served.emitListing info _).bind_eq fun recorded =>
      served.conclude sameDepth info source recorded

/-- Runs that differ in whether advice is asked for end alike. -/
theorem execute (served : ServeAlike arguments alike load otherLoad files other) (info : Bool) :
    ActAlike alike Ending.SameButAdvice (arguments.execute load files)
      (({ arguments with info } : Arguments).execute otherLoad other) := by
  refine served.config.bind ?_
  rintro (failure | config) (otherFailure | otherConfig) sameConfig
  · cases sameConfig
    exact actAlike_pure rfl
  · cases sameConfig
  · cases sameConfig
  · refine served.input.bind_eq ?_
    rintro (error | source)
    · exact actAlike_pure rfl
    · exact served.process (Except.ok.inj sameConfig) info source

end ServeAlike

end Advice

/-- Whatever the command line, the loader and the files are like:

* if the source is not accepted and the requested stages can be printed, the run is rejected
  with all that is not mere advice, in the order in which it was recorded, nothing is evaluated,
  and everything is left as it was once the stages were printed;
* if the requested stages cannot be printed, the run fails for that, whatever the source, and
  nothing else is done;
* if the listing cannot be written or printed, the run is rejected for that;
* a run that succeeds has read a source that is accepted, has printed what it was to print and
  written what it was to write, and a status other than zero comes from a target that was run;
* whether advice is asked for, on the command line or in the configuration, decides which
  advice is shown and nothing else. -/
theorem execute_succeeds_only_without_findings {σ : Type} (arguments : Arguments)
    (load : ConfigLoader (StateM σ)) (files : FileSystem (StateM σ)) (state : σ) :
    (∀ config source later printed, arguments.Reads load files state config source later →
      arguments.Prints files config source later printed →
      (∃ diagnostic ∈ (arguments.compiled config source).diagnostics,
        diagnostic.severity ≠ .info) →
      ∃ rejection : Rejection,
        rejection.errors = (arguments.compiled config source).diagnostics.filter
          (fun diagnostic => !diagnostic.severity.isInfo) ∧
        ∀ run output,
          (({ arguments with run, output } : Arguments).execute load files).run state =
            (.failure (.rejected rejection source), printed)) ∧
    (∀ config source later error final, arguments.Reads load files state config source later →
      (files.printAll ((arguments.compiled config source).dumps arguments)).run later =
        (.error error, final) →
      ∀ run output, (({ arguments with run, output } : Arguments).execute load files).run state =
        (.failure (.file error), final)) ∧
    (∀ config source later printed target error final,
      arguments.Reads load files state config source later →
      arguments.Prints files config source later printed →
      (∀ diagnostic ∈ (arguments.compiled config source).diagnostics,
        diagnostic.severity = .info) →
      (arguments.compiled config source).target = some target →
      (∀ path, arguments.output = some path →
        (files.write path target.listing).run printed = (.error error, final) →
        ∃ rejection : Rejection, rejection.errors = [unwritableOutput path error] ∧
          (arguments.execute load files).run state =
            (.failure (.rejected rejection source), final)) ∧
      (arguments.output = none → arguments.run = false →
        (files.print target.listing).run printed = (.error error, final) →
        ∃ rejection : Rejection, rejection.errors = [unprintableListing error] ∧
          (arguments.execute load files).run state =
            (.failure (.rejected rejection source), final))) ∧
    (∀ success final, (arguments.execute load files).run state = (.success success, final) →
      ∃ config source later printed emitted,
        arguments.Reads load files state config source later ∧
        arguments.Prints files config source later printed ∧
        (∀ diagnostic ∈ (arguments.compiled config source).diagnostics,
          diagnostic.severity = .info) ∧
        ((arguments.compiled config source).target = none → emitted = printed) ∧
        (∀ target, (arguments.compiled config source).target = some target →
          (files.putListing arguments target.listing).run printed = (.ok (), emitted)) ∧
        (arguments.run = false → final = emitted) ∧
        (success.status ≠ 0 →
          arguments.run = true ∧ (arguments.compiled config source).target.isSome)) ∧
    (∀ info, ((arguments.execute load files).run state).1.SameButAdvice
        ((({ arguments with info } : Arguments).execute load files).run state).1 ∧
      ((arguments.execute load files).run state).2 =
        ((({ arguments with info } : Arguments).execute load files).run state).2) ∧
    ∀ (τ : Type) (alike : σ → τ → Prop) (otherLoad : ConfigLoader (StateM τ))
      (other : FileSystem (StateM τ)) (otherState : τ),
      ServeAlike arguments alike load otherLoad files other → alike state otherState →
      ((arguments.execute load files).run state).1.SameButAdvice
          ((arguments.execute otherLoad other).run otherState).1 ∧
        alike ((arguments.execute load files).run state).2
          ((arguments.execute otherLoad other).run otherState).2 := by
  refine ⟨?_, ?_, ?_, ?_, ?_, ?_⟩
  · intro config source later printed reads prints found
    let showInfo := (arguments.configured config).showInfo
    have failed := (arguments.failed_compiled_iff config source).2 found
    refine ⟨⟨(arguments.compiled config source).shown showInfo⟩,
      Compilation.filter_isError_shown _ showInfo, fun run output => ?_⟩
    exact Arguments.execute_of_failed reads prints failed
  · intro config source later error final reads unprinted run output
    have readsAlso : ({ arguments with run, output } : Arguments).Reads load files state config
        source later := reads
    rw [Arguments.execute_of_reads readsAlso]
    exact FileSystem.process_of_unprinted unprinted
  · intro config source later printed target error final reads prints advice hasTarget
    have accepted := (arguments.failed_compiled_eq_false_iff config source).2 advice
    constructor
    · intro path hasOutput unwritten
      exact Arguments.execute_of_unwritten reads prints accepted hasTarget
        (FileSystem.run_putListing_of_output hasOutput unwritten)
    · intro noOutput notRun unprinted
      exact Arguments.execute_of_unwritten reads prints accepted hasTarget
        (FileSystem.run_putListing_of_no_output noOutput notRun unprinted)
  · intro success final succeeds
    obtain ⟨config, source, later, printed, reads, prints⟩ := Arguments.reads_of_execute succeeds
    obtain ⟨accepted, emitted, written⟩ := Arguments.accepted_of_execute reads prints succeeds
    exact ⟨config, source, later, printed, emitted, reads, prints,
      (arguments.failed_compiled_eq_false_iff config source).1 accepted, written⟩
  · intro info
    exact (ServeAlike.refl arguments load files).execute info state state rfl
  · intro τ alike otherLoad other otherState served start
    exact served.execute arguments.info state otherState start

/-- A string that is not closed is the only finding. Nothing is done but to print the requested
stage, and if that cannot be printed the run fails for that. -/
theorem execute_succeeds_only_without_findings_on_unclosed_string :
    let source := "(f \"a)"
    -- The state is what was printed, and what was written at which path.
    let load : ConfigLoader (StateM (List (Option String × String))) := fun _ _ => pure (.ok {})
    let files (full : Bool) : FileSystem (StateM (List (Option String × String))) := {
      pathExists := fun _ => pure true
      read := fun _ => pure (.ok source)
      write := fun path text => do
        modify fun done => done ++ [(some path, text)]
        pure (.ok ())
      print := fun text =>
        if full then pure (.error (.other "No space left on device"))
        else do
          modify fun done => done ++ [(none, text)]
          pure (.ok ()) }
    let arguments : Arguments :=
      { input := "foo.lisp", output := some "foo.ll", dump := [.preproc], run := true }
    (∃ rejection : Rejection, rejection.errors.map Diagnostic.code = [some .unterminatedString] ∧
      (arguments.execute load (files false)).run [] =
        (.failure (.rejected rejection source),
          [(none, ";; preproc\n"), (none, " ( f \"a ) \n")])) ∧
    (arguments.execute load (files true)).run [] =
      (.failure (.file (.other "No space left on device")), []) := by
  intro source load files arguments
  have reads (full : Bool) : arguments.Reads load (files full) [] {} source [] := ⟨[], rfl, rfl⟩
  have dumps : (arguments.compiled {} source).dumps arguments =
      [";; preproc\n", " ( f \"a ) \n"] := by
    decide +kernel
  have codes : ((arguments.compiled {} source).diagnostics.filter fun diagnostic =>
      !diagnostic.severity.isInfo).map Diagnostic.code = [some .unterminatedString] := by
    decide +kernel
  have found : ∃ diagnostic ∈ (arguments.compiled {} source).diagnostics,
      diagnostic.severity ≠ .info := by
    decide +kernel
  have prints : arguments.Prints (files false) {} source []
      [(none, ";; preproc\n"), (none, " ( f \"a ) \n")] := by
    rw [Arguments.Prints, dumps]
    rfl
  have unprinted : ((files true).printAll ((arguments.compiled {} source).dumps arguments)).run [] =
      (.error (.other "No space left on device"), []) := by
    rw [dumps]
    rfl
  constructor
  · obtain ⟨rejection, errors, ends⟩ :=
      (execute_succeeds_only_without_findings arguments load (files false) []).1 {} source [] _
        (reads false) prints found
    exact ⟨rejection, errors ▸ codes, ends true (some "foo.ll")⟩
  · exact (execute_succeeds_only_without_findings arguments load (files true) []).2.1 {} source []
      _ _ (reads true) unprinted true (some "foo.ll")

end Lisplet
