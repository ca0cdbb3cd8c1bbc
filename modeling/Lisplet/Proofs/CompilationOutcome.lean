import Lisplet.Compilation
import Lisplet.Proofs.ModuleLowering

/-!
# What a compilation comes to

A compilation runs the stages one after another, keeps what it is asked to keep and stops
where a stage cannot go on or where it is told to. `compile_eq` gives its outcome in full:
what is kept of the stages, and whatever reading the source as a module comes to, with the
target and the findings of lowering behind it. How the options and the two ways of reading a
source relate is read off from there.
-/

namespace Lisplet

/-- The tokens of a source, if they can be told apart and no paren closes too much. -/
def balancedTokens? (source : String) : Option (List (Located Token)) :=
  match (PaddedText.ofSource source).tokens with
  | .error _ => none
  | .ok tokens =>
    match balance tokens with
    | .error _ => none
    | .ok _ => some tokens

/-- The tree that a source is read as, before it is desugared. -/
def parsedSource? (source : String) : Option Module :=
  (balancedTokens? source).bind fun tokens => (Module.ofTokens tokens).toOption

/-- There are balanced tokens exactly if the source can be scanned and its parens match. -/
theorem balancedTokens?_eq_some_iff {source : String} {tokens : List (Located Token)} :
    balancedTokens? source = some tokens ↔
      (PaddedText.ofSource source).tokens = .ok tokens ∧ ∃ depth, balance tokens = .ok depth := by
  unfold balancedTokens?
  constructor
  · intro found
    split at found
    · cases found
    next scanned =>
      split at found
      · cases found
      next depth balanced =>
        cases found
        exact ⟨scanned, depth, balanced⟩
  · rintro ⟨scanned, depth, balanced⟩
    rw [scanned]
    dsimp only
    rw [balanced]

/-- There is a tree exactly if there are balanced tokens and they can be read. -/
theorem parsedSource?_eq_some_iff {source : String} {parsed : Module} :
    parsedSource? source = some parsed ↔
      ∃ tokens, balancedTokens? source = some tokens ∧ Module.ofTokens tokens = .ok parsed := by
  rw [parsedSource?, Option.bind_eq_some_iff]
  constructor
  · rintro ⟨tokens, balanced, read⟩
    refine ⟨tokens, balanced, ?_⟩
    cases outcome : Module.ofTokens tokens with
    | error fault =>
      rw [outcome] at read
      cases read
    | ok module =>
      rw [outcome] at read
      cases read
      rfl
  · rintro ⟨tokens, balanced, read⟩
    exact ⟨tokens, balanced, by rw [read]; rfl⟩

/-- The diagnostics that follow the advice: the one that ended the work, or the findings of
lowering if the work went so far. -/
def closingDiagnostics (config : Config) (syntaxOnly : Bool) :
    Except Diagnostic Module → List Diagnostic
  | .error fatal => [fatal]
  | .ok module =>
    if syntaxOnly then [] else (module.faults config.names).map LoweringFault.diagnostic

namespace Compilation

/-- Lowering adds a target and its findings. -/
theorem lowerModule_eq (compilation : Compilation) (config : Config) (module : Module) :
    compilation.lowerModule config module =
      { compilation with
        target := some (module.target config.names)
        log := ((module.faults config.names).map LoweringFault.diagnostic).foldl Log.emit
          compilation.log } := by
  rw [lowerModule, module.lower_eq]
  rfl

/-- Going on with a parsed module adds what desugaring and, unless it is left out, lowering
come to. -/
theorem desugarModule_eq (compilation : Compilation) (config : Config) (options : CompileOptions)
    (parsed : Module) (untouched : compilation.desugared = none ∧ compilation.target = none) :
    let result := parsed.desugar.result.mapError DesugarFault.diagnostic
    compilation.desugarModule config options parsed =
      { compilation with
        desugared := result.toOption
        target := if options.syntaxOnly then none
          else result.toOption.map fun module => module.target config.names
        log := (parsed.desugar.notes.map IgnoredOperands.diagnostic ++
          closingDiagnostics config options.syntaxOnly result).foldl Log.emit
            compilation.log } := by
  obtain ⟨padded, tokens, kept, desugared, target, log⟩ := compilation
  obtain ⟨rfl, rfl⟩ := untouched
  unfold desugarModule
  cases swept : parsed.desugar.result with
  | error fault =>
    simp [swept, record, recordAll, Except.mapError, Except.toOption, closingDiagnostics]
  | ok module =>
    cases options.syntaxOnly with
    | true =>
      simp [swept, recordAll, Except.mapError, Except.toOption, closingDiagnostics]
    | false =>
      simp [swept, recordAll, Except.mapError, Except.toOption, closingDiagnostics,
        lowerModule_eq]

end Compilation

section Outcome

variable (config : Config) (source : String) (options : CompileOptions)

/-- The outcome of a compilation in full. -/
theorem compile_eq :
    compile config source options =
      let analysis := Module.ofSource source
      { padded := if options.keepStages then some (PaddedText.ofSource source) else none
        tokens := if options.keepStages then balancedTokens? source else none
        parsed := if options.keepStages then parsedSource? source else none
        desugared := analysis.result.toOption
        target := if options.syntaxOnly then none
          else analysis.result.toOption.map fun module => module.target config.names
        log := (analysis.notes ++
          closingDiagnostics config options.syntaxOnly analysis.result).foldl Log.emit {} } := by
  unfold compile Module.ofSource parsedSource? balancedTokens?
  cases scanned : (PaddedText.ofSource source).tokens with
  | error fault =>
    simp [scanned, Compilation.record, Except.toOption, closingDiagnostics]
  | ok tokens =>
    cases balanced : balance tokens with
    | error fault =>
      simp [scanned, balanced, Compilation.record, Except.toOption, closingDiagnostics]
    | ok depth =>
      cases read : Module.ofTokens tokens with
      | error fault =>
        simp [scanned, balanced, read, Compilation.parseTokens, Compilation.record,
          Except.toOption, closingDiagnostics]
      | ok parsed =>
        simp [scanned, balanced, read, Compilation.parseTokens, Compilation.desugarModule_eq,
          Except.toOption]

/-- A compilation has the notes of the analysis, and then what it ends in. -/
theorem diagnostics_compile :
    (compile config source options).diagnostics = (Module.ofSource source).notes ++
      closingDiagnostics config options.syntaxOnly (Module.ofSource source).result := by
  rw [compile_eq, Compilation.diagnostics, Log.entries_foldl_emit]
  rfl

/-- All diagnostics of a compilation have been added one after another, so its flag is right. -/
theorem flagged_compile : (compile config source options).log.Flagged := by
  rw [compile_eq]
  exact Log.flagged_empty.foldl_emit _

/-- There is a desugared module exactly if the analysis arrives at one. -/
theorem desugared_compile :
    (compile config source options).desugared = (Module.ofSource source).result.toOption := by
  rw [compile_eq]

/-- There is a target exactly if the analysis arrives at a module and the compilation goes on from
there. -/
theorem target_compile :
    (compile config source options).target =
      if options.syntaxOnly then none
      else (Module.ofSource source).result.toOption.map fun module =>
        module.target config.names := by
  rw [compile_eq]

end Outcome

/-- Without target code there are the same closing diagnostics or none. -/
theorem closingDiagnostics_syntaxOnly_prefix (config : Config)
    (result : Except Diagnostic Module) :
    closingDiagnostics config true result <+: closingDiagnostics config false result := by
  cases result with
  | error fatal => exact List.prefix_rfl
  | ok module => exact List.nil_prefix

section SyntaxOnly

variable (config : Config) (source : String) (keepStages : Bool)

/-- A compilation that stops before target code tells a module from its outcome. -/
theorem ofSource_eq_ok_iff (module : Module) :
    let run := compile config source { syntaxOnly := true, keepStages }
    (Module.ofSource source).result = .ok module ↔
      run.desugared = some module ∧ run.target = none ∧
        run.diagnostics = (Module.ofSource source).notes := by
  dsimp only
  rw [desugared_compile, target_compile, diagnostics_compile]
  cases (Module.ofSource source).result with
  | error fatal => simp [Except.toOption]
  | ok other => simp [Except.toOption, closingDiagnostics]

/-- The analysis of a source fails exactly if the compilation of it records a fatal finding. -/
theorem ofSource_eq_error_iff (fatal : Diagnostic) :
    let run := compile config source { syntaxOnly := true, keepStages }
    (Module.ofSource source).result = .error fatal ↔
      run.desugared = none ∧ run.target = none ∧
        run.diagnostics = (Module.ofSource source).notes ++ [fatal] := by
  dsimp only
  rw [desugared_compile, target_compile, diagnostics_compile]
  cases (Module.ofSource source).result with
  | error other => simp [Except.toOption, closingDiagnostics]
  | ok module => simp [Except.toOption]

end SyntaxOnly

/-- Reading a source as a module and compiling it without target code come to the same.
Keeping stages changes nothing but what is kept: the padded text always, the tokens if they
can be told apart and are balanced, and the tree if they can be read as one. Going on to target
code leaves the module as it is and only adds to the diagnostics. -/
theorem compile_agrees_with_ofSource (config : Config) (source : String) :
    let analysis := Module.ofSource source
    let run := fun syntaxOnly keepStages => compile config source { syntaxOnly, keepStages }
    (∀ keepStages,
      (∀ module, analysis.result = .ok module ↔
        (run true keepStages).desugared = some module ∧ (run true keepStages).target = none ∧
          (run true keepStages).diagnostics = analysis.notes) ∧
      (∀ fatal, analysis.result = .error fatal ↔
        (run true keepStages).desugared = none ∧ (run true keepStages).target = none ∧
          (run true keepStages).diagnostics = analysis.notes ++ [fatal])) ∧
    (∀ syntaxOnly,
      (run syntaxOnly true).diagnostics = (run syntaxOnly false).diagnostics ∧
        (run syntaxOnly true).desugared = (run syntaxOnly false).desugared ∧
        (run syntaxOnly true).target = (run syntaxOnly false).target) ∧
    (∀ keepStages,
      (run true keepStages).diagnostics <+: (run false keepStages).diagnostics ∧
        (run true keepStages).desugared = (run false keepStages).desugared) ∧
    (∀ syntaxOnly,
      (run syntaxOnly true).padded = some (PaddedText.ofSource source) ∧
      (∀ tokens, (run syntaxOnly true).tokens = some tokens ↔
        (PaddedText.ofSource source).tokens = .ok tokens ∧ ∃ depth, balance tokens = .ok depth) ∧
      (∀ parsed, (run syntaxOnly true).parsed = some parsed ↔
        ∃ tokens, (PaddedText.ofSource source).tokens = .ok tokens ∧
          (∃ depth, balance tokens = .ok depth) ∧ Module.ofTokens tokens = .ok parsed)) := by
  dsimp only
  refine ⟨fun keepStages => ⟨?_, ?_⟩, fun syntaxOnly => ⟨?_, ?_, ?_⟩, fun keepStages => ⟨?_, ?_⟩,
    fun syntaxOnly => ⟨?_, fun tokens => ?_, fun parsed => ?_⟩⟩
  · exact ofSource_eq_ok_iff config source keepStages
  · exact ofSource_eq_error_iff config source keepStages
  · rw [diagnostics_compile, diagnostics_compile]
  · rw [desugared_compile, desugared_compile]
  · rw [target_compile, target_compile]
  · rw [diagnostics_compile, diagnostics_compile]
    apply List.prefix_append_right_inj _ |>.2
    exact closingDiagnostics_syntaxOnly_prefix config _
  · rw [desugared_compile, desugared_compile]
  · rw [compile_eq]
    rfl
  · rw [compile_eq]
    exact balancedTokens?_eq_some_iff
  · rw [compile_eq]
    refine parsedSource?_eq_some_iff.trans ?_
    simp only [balancedTokens?_eq_some_iff, and_assoc]

end Lisplet
