import Lisplet.Proofs.CompilationOutcome
import Lisplet.Proofs.OpenLists

/-!
# The order of diagnostics

The diagnostics of a compilation come in a fixed order: advice first, then either the one
finding that ended the work or the findings of lowering. Each stage is asked once which
findings it can make, with their severity and number. `ofSource_cases` puts the stages before
lowering together, and `compile_eq` adds lowering.
-/

namespace Lisplet

/-- A diagnostic is catalogued under one of the given numbers. -/
def Diagnostic.IsNumbered (diagnostic : Diagnostic) (numbers : List String) : Prop :=
  ∃ code, diagnostic.code = some code ∧ code.name ∈ numbers

/-- The numbers of what keeps a source from being read as a tree. -/
def syntaxNumbers : List String :=
  ["E001", "E002", "E003", "E100", "E101", "E102"]

/-- The numbers of malformed lists. -/
def malformedNumbers : List String :=
  ["E200", "E201", "E202", "E204"]

/-- The numbers of the findings that lowering goes on after. -/
def loweringNumbers : List String :=
  ["E300", "E301", "E302", "E303", "E304", "E305", "E306", "E307", "E308", "E310"]

/-- The numbers of the findings that no source gives rise to. -/
def unusedNumbers : List String :=
  ["E103", "E309", "E900"]

namespace Diagnostic

variable {diagnostic : Diagnostic} {numbers others : List String}

/-- A diagnostic has one number only. -/
theorem IsNumbered.not_of_disjoint (numbered : diagnostic.IsNumbered numbers)
    (disjoint : ∀ number ∈ numbers, number ∉ others) : ¬ diagnostic.IsNumbered others := by
  obtain ⟨code, coded, own⟩ := numbered
  rintro ⟨other, same, member⟩
  cases coded.symm.trans same
  exact disjoint _ own member

end Diagnostic

/-! ### What each stage can find -/

theorem ScanFault.diagnostic_fatal (fault : ScanFault) :
    fault.diagnostic.severity = .fatal ∧ fault.diagnostic.IsNumbered syntaxNumbers := by
  cases fault <;> exact ⟨rfl, _, rfl, by decide⟩

theorem BalanceFault.diagnostic_fatal (fault : BalanceFault) :
    fault.diagnostic.severity = .fatal ∧ fault.diagnostic.IsNumbered syntaxNumbers :=
  ⟨rfl, _, rfl, by decide⟩

/-- Parsing does not meet a token in place of another, so the finding for that is not made. -/
theorem ParseFault.diagnostic_fatal {tokens : List (Located Token)} {fault : ParseFault}
    (stopped : Module.ofTokens tokens = .error fault) :
    fault.diagnostic.severity = .fatal ∧ fault.diagnostic.IsNumbered syntaxNumbers := by
  cases fault with
  | unexpectedTopLevel kind span => exact ⟨rfl, _, rfl, by decide⟩
  | incompleteInput opening inputEnd => exact ⟨rfl, _, rfl, by decide⟩
  | unexpectedToken expected found span =>
    exact absurd stopped (Module.ofTokens_ne_unexpectedToken tokens expected found span)

theorem DesugarFault.diagnostic_fatal (fault : DesugarFault) :
    fault.diagnostic.severity = .fatal ∧ fault.diagnostic.IsNumbered malformedNumbers ∧
      fault.diagnostic.phase = some .desugaring := by
  cases fault <;> exact ⟨rfl, ⟨_, rfl, by decide⟩, rfl⟩

theorem LoweringFault.diagnostic_error (fault : LoweringFault) :
    fault.diagnostic.severity = .error ∧ fault.diagnostic.IsNumbered loweringNumbers := by
  refine ⟨rfl, fault.code, rfl, ?_⟩
  cases fault <;> simp [code, Code.name, loweringNumbers]

/-! ### The stages before lowering -/

namespace Module

/-- A source is not a tree, for a reason that comes without advice, or it is a tree, and
desugaring decides. -/
theorem ofSource_cases (source : String) :
    (∃ fatal, ofSource source = ⟨[], .error fatal⟩ ∧
      fatal.severity = .fatal ∧ fatal.IsNumbered syntaxNumbers) ∨
    ∃ parsed : Module, ofSource source =
      ⟨parsed.desugar.notes.map IgnoredOperands.diagnostic,
        parsed.desugar.result.mapError DesugarFault.diagnostic⟩ := by
  unfold ofSource
  cases (PaddedText.ofSource source).tokens with
  | error fault => exact .inl ⟨_, rfl, fault.diagnostic_fatal⟩
  | ok tokens =>
    dsimp only
    cases balance tokens with
    | error fault => exact .inl ⟨_, rfl, fault.diagnostic_fatal⟩
    | ok depth =>
      dsimp only
      cases read : ofTokens tokens with
      | error fault => exact .inl ⟨_, rfl, ParseFault.diagnostic_fatal read⟩
      | ok parsed => exact .inr ⟨parsed, rfl⟩

/-- All that is noted on the way to a module is that operands are ignored. -/
theorem notes_ofSource {source : String} {note : Diagnostic}
    (member : note ∈ (ofSource source).notes) :
    note.severity = .info ∧ note.IsNumbered ["E203"] := by
  rcases ofSource_cases source with ⟨fatal, stopped, -⟩ | ⟨parsed, reached⟩
  · rw [stopped] at member
    cases member
  · rw [reached] at member
    obtain ⟨ignored, -, rfl⟩ := List.mem_map.1 member
    exact ⟨rfl, _, rfl, by decide⟩

/-- What keeps a source from being a module is fatal, and no advice comes before it unless
it is found by desugaring. -/
theorem fatal_of_ofSource {source : String} {fatal : Diagnostic}
    (stopped : (ofSource source).result = .error fatal) :
    fatal.severity = .fatal ∧ fatal.IsNumbered (syntaxNumbers ++ malformedNumbers) ∧
      ((ofSource source).notes = [] ∨ fatal.phase = some .desugaring) := by
  rcases ofSource_cases source with ⟨early, found, severe, code, coded, number⟩ | ⟨parsed, reached⟩
  · rw [found] at stopped ⊢
    cases stopped
    exact ⟨severe, ⟨code, coded, List.mem_append_left _ number⟩, .inl rfl⟩
  · rw [reached] at stopped
    cases swept : parsed.desugar.result with
    | ok module =>
      rw [swept] at stopped
      cases stopped
    | error fault =>
      rw [swept] at stopped
      cases stopped
      obtain ⟨severe, ⟨code, coded, number⟩, phase⟩ := fault.diagnostic_fatal
      exact ⟨severe, ⟨code, coded, List.mem_append_right _ number⟩, .inr phase⟩

end Module

/-! ### Whole compilations -/

namespace Compilation

/-- There is a target to hand out exactly if there is one and nothing is wrong. -/
theorem finish_eq_ok_iff (compilation : Compilation) (text : String) (target : Target) :
    compilation.finish text = .ok target ↔
      compilation.failed = false ∧ compilation.target = some target := by
  unfold finish Log.finish failed
  cases compilation.log.hasErrors with
  | true => simp
  | false => cases compilation.target <;> simp

end Compilation

/-- A compilation fails exactly if one of its diagnostics is not mere advice. -/
theorem failed_compile_iff (config : Config) (source : String) (options : CompileOptions) :
    (compile config source options).failed ↔
      ∃ diagnostic ∈ (compile config source options).diagnostics, diagnostic.severity ≠ .info :=
  flagged_compile config source options

section Diagnostics

variable {config : Config} {source : String} {options : CompileOptions} {diagnostic : Diagnostic}

/-- Every diagnostic of a compilation is advice, the end of the work or a finding of
lowering. -/
theorem mem_diagnostics_compile_cases
    (member : diagnostic ∈ (compile config source options).diagnostics) :
    diagnostic ∈ (Module.ofSource source).notes ∨
      (Module.ofSource source).result = .error diagnostic ∨
      ∃ fault : LoweringFault, fault.diagnostic = diagnostic := by
  rw [diagnostics_compile] at member
  rcases List.mem_append.1 member with noted | closing
  · exact .inl noted
  · cases outcome : (Module.ofSource source).result with
    | error fatal =>
      rw [outcome] at closing
      cases List.mem_singleton.1 closing
      exact .inr (.inl rfl)
    | ok module =>
      rw [outcome, closingDiagnostics] at closing
      split at closing
      · cases closing
      · obtain ⟨fault, -, same⟩ := List.mem_map.1 closing
        exact .inr (.inr ⟨fault, same⟩)

/-- A fatal diagnostic is what kept the source from being a module. -/
theorem ofSource_eq_error_of_fatal
    (member : diagnostic ∈ (compile config source options).diagnostics)
    (severe : diagnostic.severity = .fatal) :
    (Module.ofSource source).result = .error diagnostic := by
  rcases mem_diagnostics_compile_cases member with noted | stopped | ⟨fault, rfl⟩
  · rw [(Module.notes_ofSource noted).1] at severe
    cases severe
  · exact stopped
  · rw [fault.diagnostic_error.1] at severe
    cases severe

/-- A fatal diagnostic that is not about a malformed list stands alone. -/
theorem diagnostics_compile_eq_singleton
    (member : diagnostic ∈ (compile config source options).diagnostics)
    (severe : diagnostic.severity = .fatal) (early : diagnostic.phase ≠ some .desugaring) :
    (compile config source options).diagnostics = [diagnostic] := by
  have stopped := ofSource_eq_error_of_fatal member severe
  obtain ⟨-, -, alone⟩ := Module.fatal_of_ofSource stopped
  rw [diagnostics_compile, stopped, alone.resolve_right early]
  rfl

/-- No diagnostic tells of a defect of the compiler, and some numbers are never given. -/
theorem foreseen_of_mem_diagnostics_compile
    (member : diagnostic ∈ (compile config source options).diagnostics) :
    diagnostic.severity ≠ .internalError ∧ ¬ diagnostic.IsNumbered unusedNumbers := by
  rcases mem_diagnostics_compile_cases member with noted | stopped | ⟨fault, rfl⟩
  · obtain ⟨severity, numbered⟩ := Module.notes_ofSource noted
    exact ⟨by simp [severity], numbered.not_of_disjoint (by decide)⟩
  · obtain ⟨severity, numbered, -⟩ := Module.fatal_of_ofSource stopped
    exact ⟨by simp [severity], numbered.not_of_disjoint (by decide)⟩
  · obtain ⟨severity, numbered⟩ := fault.diagnostic_error
    exact ⟨by simp [severity], numbered.not_of_disjoint (by decide)⟩

end Diagnostics

section Built

variable {config : Config} {source : String} {target : Target}

/-- A compilation of a source that stands for a module is accepted if lowering has no findings on
the module. -/
theorem failed_compile_eq_false_iff {module : Module}
    (analysed : (Module.ofSource source).result = .ok module) :
    (compile config source {}).failed = false ↔ module.faults config.names = [] := by
  rw [← Bool.not_eq_true, failed_compile_iff, diagnostics_compile, analysed]
  constructor
  · intro accepted
    refine List.eq_nil_iff_forall_not_mem.2 fun fault member => accepted ?_
    refine ⟨fault.diagnostic, ?_, ?_⟩
    · exact List.mem_append_right _ (List.mem_map_of_mem member)
    · rw [fault.diagnostic_error.1]
      decide
  · rintro clean ⟨diagnostic, member, notAdvice⟩
    rcases List.mem_append.1 member with noted | closing
    · exact notAdvice (Module.notes_ofSource noted).1
    · simp [closingDiagnostics, clean] at closing

/-- A source is built exactly if it stands for a module that lowering has no findings on. The
target is what lowering makes of the module. -/
theorem build_eq_ok_iff :
    build config source = .ok target ↔
      ∃ module, (Module.ofSource source).result = .ok module ∧
        module.faults config.names = [] ∧ module.target config.names = target := by
  rw [build, Compilation.finish_eq_ok_iff, target_compile]
  cases analysed : (Module.ofSource source).result with
  | error fatal => simp [Except.toOption]
  | ok module => simp [failed_compile_eq_false_iff analysed, Except.toOption]

end Built

/-- The diagnostics of a compilation are advice on ignored operands and then either one fatal
finding, and no target, or findings of lowering, and a target unless none is asked for. A
fatal finding of an early phase stands alone. Neither a defect of the compiler nor a number
that is out of use turns up. A compilation fails exactly if it has more than advice to give,
and hands out its target exactly if it does not fail and there is one. -/
theorem diagnostics_compile_in_order (config : Config) (source : String)
    (options : CompileOptions) :
    let run := compile config source options
    (∃ advice closing, run.diagnostics = advice ++ closing ∧
      (∀ note ∈ advice, note.severity = .info ∧ note.IsNumbered ["E203"]) ∧
      ((∃ fatal, closing = [fatal] ∧ fatal.severity = .fatal ∧ run.target = none) ∨
        (∀ finding ∈ closing, finding.severity = .error ∧ finding.IsNumbered loweringNumbers) ∧
          (options.syntaxOnly = false → run.target.isSome) ∧
          (options.syntaxOnly = true → closing = [] ∧ run.target = none))) ∧
    (∀ fatal ∈ run.diagnostics, fatal.severity = .fatal →
      (fatal.phase = some .scanning ∨ fatal.phase = some .balancing ∨
        fatal.phase = some .parsing) → run.diagnostics = [fatal]) ∧
    (∀ diagnostic ∈ run.diagnostics,
      diagnostic.severity ≠ .internalError ∧ ¬ diagnostic.IsNumbered unusedNumbers) ∧
    (run.failed ↔ ∃ diagnostic ∈ run.diagnostics, diagnostic.severity ≠ .info) ∧
    ∀ text target, run.finish text = .ok target ↔
      run.failed = false ∧ run.target = some target := by
  intro run
  refine ⟨⟨_, _, diagnostics_compile config source options, fun _ => Module.notes_ofSource, ?_⟩,
    ?_, fun _ => foreseen_of_mem_diagnostics_compile, failed_compile_iff config source options,
    run.finish_eq_ok_iff⟩
  · dsimp only [run]
    rw [target_compile]
    cases outcome : (Module.ofSource source).result with
    | error fatal =>
      have severe := (Module.fatal_of_ofSource outcome).1
      exact .inl ⟨fatal, rfl, severe, by simp [Except.toOption]⟩
    | ok module =>
      cases options.syntaxOnly with
      | true => simp [closingDiagnostics]
      | false =>
        refine .inr ⟨?_, fun _ => rfl, by simp⟩
        intro finding member
        obtain ⟨fault, -, rfl⟩ := List.mem_map.1 member
        exact fault.diagnostic_error
  · rintro fatal member severe (early | early | early)
    all_goals exact diagnostics_compile_eq_singleton member severe (by simp [early])

end Lisplet
