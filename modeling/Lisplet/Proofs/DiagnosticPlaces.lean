import Lisplet.Proofs.CompilationOutcome
import Lisplet.Proofs.SourceSlices
import Lisplet.Proofs.TreeSpans

/-!
# Where diagnostics are placed

Lowering places its findings where the nodes stand that they are about. With what scanning
marks and what reading and desugaring hand on, everything that a compilation keeps or reports
is placed at a slice of the source.
-/

namespace Lisplet

section Lowering

variable {holds : Span → Prop} {arity? : String → Option Nat}

namespace Expr

open Emission

mutual

/-- Findings on a node are placed where it or a part of it stands. -/
theorem placed_emission (node : Expr) (placed : node.Placed holds) (scopes : Scopes)
    (temps : TempNames) :
    ∀ fault ∈ (node.emission arity? scopes temps).faults, fault.diagnostic.Placed holds := by
  cases node with
  | number span value =>
    rw [emission]
    rintro fault ⟨⟩
  | identifier span name =>
    rw [emission]
    split
    · rintro fault ⟨⟩
    · exact List.forall_mem_singleton.2 (List.forall_mem_singleton.2 placed.span)
    · exact List.forall_mem_singleton.2 (List.forall_mem_singleton.2 placed.span)
  | text span body =>
    rw [emission]
    exact List.forall_mem_singleton.2 (List.forall_mem_singleton.2 placed.span)
  | list span items =>
    rw [emission]
    exact List.forall_mem_singleton.2 (List.forall_mem_singleton.2 placed.span)
  | functionDef span prototype body =>
    rw [emission]
    exact List.forall_mem_singleton.2 (List.forall_mem_singleton.2 placed.span)
  | arithmetic span operator left right =>
    obtain ⟨-, leftPlaced, rightPlaced⟩ := placed_arithmetic.1 placed
    have first := placed_emission left leftPlaced scopes temps
    have second := placed_emission right rightPlaced (left.emission arity? scopes temps).scopes
      (left.emission arity? scopes temps).temps
    rw [emission]
    split
    · exact List.forall_mem_append.2 ⟨first, List.forall_mem_append.2 ⟨second, by rintro _ ⟨⟩⟩⟩
    · exact List.forall_mem_append.2 ⟨first, second⟩
  | variableDef span name initializer =>
    obtain ⟨-, -, initializerPlaced⟩ := placed_variableDef.1 placed
    rw [emission]
    split
    · exact placed_emission initializer initializerPlaced scopes temps
    · exact placed_emission initializer initializerPlaced scopes temps
  | call span callee arguments =>
    obtain ⟨here, calleeHere, argumentsPlaced⟩ := placed_call.1 placed
    rw [emission]
    split
    · exact List.forall_mem_singleton.2 (List.forall_mem_singleton.2 calleeHere)
    split
    · exact List.forall_mem_singleton.2 (List.forall_mem_singleton.2 here)
    have first := placed_argumentEmission callee calleeHere 1 arguments argumentsPlaced scopes temps
    dsimp only
    split
    · exact List.forall_mem_append.2 ⟨first, by rintro _ ⟨⟩⟩
    · exact first

/-- Findings on arguments are placed where one of them or the name of the function stands. -/
theorem placed_argumentEmission (callee : Located String) (calleeHere : holds callee.span)
    (position : Nat) (arguments : List Expr)
    (placed : ∀ argument ∈ arguments, argument.Placed holds) (scopes : Scopes)
    (temps : TempNames) :
    ∀ fault ∈ (argumentEmission arity? callee position arguments scopes temps).faults,
      fault.diagnostic.Placed holds := by
  cases arguments with
  | nil =>
    rw [argumentEmission]
    rintro fault ⟨⟩
  | cons argument others =>
    obtain ⟨argumentPlaced, othersPlaced⟩ := List.forall_mem_cons.1 placed
    have first := placed_emission argument argumentPlaced scopes temps
    rw [argumentEmission]
    dsimp only
    split
    · have labels : (LoweringFault.argumentWithoutValue position argument.span
          callee).diagnostic.Placed holds :=
        List.forall_mem_cons.2 ⟨argumentPlaced.span, List.forall_mem_singleton.2 calleeHere⟩
      exact List.forall_mem_append.2 ⟨first, List.forall_mem_singleton.2 labels⟩
    · exact List.forall_mem_append.2 ⟨first,
        placed_argumentEmission callee calleeHere (position + 1) others othersPlaced _ _⟩

end

end Expr

/-- Whether all places in a definition of a function have a property. -/
def DefinitionPlaced (holds : Span → Prop) (definition : Prototype × Expr) : Prop :=
  holds definition.1.name.span ∧ definition.2.Placed holds

/-- Findings on definitions are placed where one of them or its name stands, or where the
first function of the same name is named. -/
theorem placed_definitions (definitions : List (Prototype × Expr))
    (placed : ∀ definition ∈ definitions, DefinitionPlaced holds definition)
    (defined : List (Located String)) (definedPlaced : ∀ name ∈ defined, holds name.span)
    (scopes : Scopes) (temps : TempNames) :
    ∀ fault ∈ (Lisplet.definitions arity? defined definitions scopes temps).faults,
      fault.diagnostic.Placed holds := by
  induction definitions generalizing defined scopes temps with
  | nil => rintro fault ⟨⟩
  | cons definition rest inductionHypothesis =>
    obtain ⟨prototype, body⟩ := definition
    obtain ⟨⟨nameHere, bodyPlaced⟩, restPlaced⟩ := List.forall_mem_cons.1 placed
    rw [Lisplet.definitions]
    split
    next first found =>
      have firstHere := definedPlaced first (List.mem_of_find?_eq_some found)
      have labels : (LoweringFault.redefinition prototype.name first.span).diagnostic.Placed
          holds :=
        List.forall_mem_cons.2 ⟨nameHere, List.forall_mem_singleton.2 firstHere⟩
      exact List.forall_mem_cons.2 ⟨labels,
        inductionHypothesis restPlaced defined definedPlaced scopes temps⟩
    next =>
      have own : ∀ fault ∈ (bodyEmission arity? prototype body scopes temps).faults,
          fault.diagnostic.Placed holds :=
        body.placed_emission bodyPlaced _ temps
      exact List.forall_mem_append.2 ⟨own, inductionHypothesis restPlaced _
        (List.forall_mem_cons.2 ⟨nameHere, definedPlaced⟩) _ _⟩

/-- Findings on forms are placed where a part of one of them stands. -/
theorem placed_formsEmission (forms : List Expr) (placed : ∀ form ∈ forms, form.Placed holds)
    (last : Option Value) (scopes : Scopes) (temps : TempNames) :
    ∀ fault ∈ (formsEmission arity? last forms scopes temps).faults,
      fault.diagnostic.Placed holds := by
  induction forms generalizing last scopes temps with
  | nil => rintro fault ⟨⟩
  | cons form rest inductionHypothesis =>
    obtain ⟨formPlaced, restPlaced⟩ := List.forall_mem_cons.1 placed
    rw [formsEmission]
    split
    · exact inductionHypothesis restPlaced last scopes temps
    · exact List.forall_mem_append.2 ⟨form.placed_emission formPlaced scopes temps,
        inductionHypothesis restPlaced _ _ _⟩

namespace Module

theorem placed_functionDefs {module : Module} (placed : module.Placed holds) :
    ∀ definition ∈ module.functionDefs, DefinitionPlaced holds definition := by
  intro definition member
  obtain ⟨form, isForm, defines⟩ := List.mem_filterMap.1 member
  have formPlaced := placed form isForm
  cases form <;> cases defines
  obtain ⟨-, prototypeHere, bodyPlaced⟩ := Expr.placed_functionDef.1 formPlaced
  exact ⟨prototypeHere _ (by simp [Prototype.spans]), bodyPlaced⟩

/-- Lowering a module places nothing but what is placed in it. -/
theorem placed_faults {module : Module} (placed : module.Placed holds) (names : TargetNames) :
    ∀ fault ∈ module.faults names, fault.diagnostic.Placed holds := by
  have definitionsPlaced := placed_functionDefs placed
  refine List.forall_mem_append.2 ⟨List.forall_mem_append.2 ⟨?_, ?_⟩, ?_⟩
  · intro fault member
    obtain ⟨definition, reserved, rfl⟩ := List.mem_map.1 member
    exact List.forall_mem_singleton.2 (definitionsPlaced _ (List.mem_of_mem_filter reserved)).1
  · exact placed_definitions _ (fun definition member =>
      definitionsPlaced definition (List.mem_of_mem_filter member)) [] (by simp) _ _
  · exact placed_formsEmission module.forms placed none _ _

end Module

end Lowering

section Source

variable {source : String}

/-- Input ends at a slice: at the end of file, or else right after the last token. -/
theorem isSliceOf_endIn {tokens : List (Located Token)}
    (slices : ∀ token ∈ tokens, token.span.IsSliceOf source) :
    (endIn (Parse.endOf tokens) tokens).IsSliceOf source := by
  rw [endIn]
  split
  next token found => exact slices token (List.mem_of_find?_eq_some found)
  next =>
    rw [Parse.endOf]
    split
    next last isLast =>
      have stops := (slices last (List.mem_of_getLast? isLast)).stopsBetween
      exact Span.isSliceOf_of_isValid stops stops
    next =>
      exact Span.isSliceOf_of_isValid String.Pos.Raw.isValid_zero String.Pos.Raw.isValid_zero

theorem unionClosed_isSliceOf : Span.UnionClosed (Span.IsSliceOf · source) :=
  fun _ _ isLeft isRight => isLeft.union isRight

/-- Tokens that can be read are placed at slices of the source. -/
theorem isSliceOf_of_balancedTokens? {tokens : List (Located Token)}
    (balanced : balancedTokens? source = some tokens) :
    ∀ token ∈ tokens, token.span.IsSliceOf source := by
  have marks := PaddedText.marks_tokens_ofSource source
  rw [(balancedTokens?_eq_some_iff.1 balanced).1] at marks
  exact marks

/-- The tree that a source is read as is placed at slices of the source. -/
theorem placed_of_parsedSource? {parsed : Module} (read : parsedSource? source = some parsed) :
    parsed.Placed (Span.IsSliceOf · source) := by
  obtain ⟨tokens, balanced, isParsed⟩ := parsedSource?_eq_some_iff.1 read
  have slices := isSliceOf_of_balancedTokens? balanced
  have outcome := Module.placed_ofTokens unionClosed_isSliceOf slices (isSliceOf_endIn slices)
  rw [isParsed] at outcome
  exact outcome

/-- Reading a source as a module places the advice, and the module or what ended the work, at
slices of the source. -/
theorem placed_ofSource (source : String) :
    (∀ note ∈ (Module.ofSource source).notes, note.Placed (Span.IsSliceOf · source)) ∧
      match (Module.ofSource source).result with
      | .error fatal => fatal.Placed (Span.IsSliceOf · source)
      | .ok module => module.Placed (Span.IsSliceOf · source) := by
  have marks := PaddedText.marks_tokens_ofSource source
  unfold Module.ofSource
  cases scanned : (PaddedText.ofSource source).tokens with
  | error fault =>
    rw [scanned] at marks
    exact ⟨by rintro note ⟨⟩, marks⟩
  | ok tokens =>
    rw [scanned] at marks
    cases balanced : balance tokens with
    | error fault =>
      dsimp only
      rw [balanced]
      exact ⟨by rintro note ⟨⟩, placed_of_balance marks balanced⟩
    | ok depth =>
      have outcome := Module.placed_ofTokens unionClosed_isSliceOf marks (isSliceOf_endIn marks)
      dsimp only
      rw [balanced]
      cases read : Module.ofTokens tokens with
      | error fault =>
        rw [read] at outcome
        exact ⟨by rintro note ⟨⟩, outcome⟩
      | ok parsed =>
        rw [read] at outcome
        have swept := Module.placed_desugar unionClosed_isSliceOf outcome
        constructor
        · intro note member
          obtain ⟨ignored, isNote, rfl⟩ := List.mem_map.1 member
          exact swept.notes ignored isNote
        · dsimp only
          cases arrived : parsed.desugar.result with
          | error cause => exact swept.fault cause arrived
          | ok module => exact swept.value module arrived

/-- The diagnostics that follow the advice are placed where the module or what ended the work
is. -/
theorem placed_closingDiagnostics {holds : Span → Prop} (config : Config) (syntaxOnly : Bool)
    (result : Except Diagnostic Module)
    (placed : match result with
      | .error fatal => fatal.Placed holds
      | .ok module => module.Placed holds) :
    ∀ diagnostic ∈ closingDiagnostics config syntaxOnly result, diagnostic.Placed holds := by
  cases result with
  | error fatal => exact List.forall_mem_singleton.2 placed
  | ok module =>
    rw [closingDiagnostics]
    split
    · rintro diagnostic ⟨⟩
    · intro diagnostic member
      obtain ⟨fault, isFault, rfl⟩ := List.mem_map.1 member
      exact Module.placed_faults placed config.names fault isFault

/-- Whatever a compilation reports or keeps is placed at slices of the source: the labels of
its diagnostics, its tokens, and the nodes of its trees with the names in them. -/
theorem compile_marks_slices (config : Config) (source : String) (options : CompileOptions) :
    let run := compile config source options
    (∀ diagnostic ∈ run.diagnostics, ∀ label ∈ diagnostic.labels,
      label.span.IsSliceOf source) ∧
    (∀ tokens ∈ run.tokens, ∀ token ∈ tokens, token.span.IsSliceOf source) ∧
    (∀ tree ∈ run.parsed, ∀ span ∈ tree.spans, span.IsSliceOf source) ∧
    (∀ tree ∈ run.desugared, ∀ span ∈ tree.spans, span.IsSliceOf source) := by
  obtain ⟨notes, result⟩ := placed_ofSource source
  dsimp only
  refine ⟨?_, ?_, ?_, ?_⟩
  · rw [diagnostics_compile]
    exact List.forall_mem_append.2 ⟨notes, placed_closingDiagnostics config _ _ result⟩
  · intro tokens kept
    rw [compile_eq] at kept
    obtain ⟨-, balanced⟩ := Option.ite_none_right_eq_some.1 kept
    exact isSliceOf_of_balancedTokens? balanced
  · intro tree kept
    rw [compile_eq] at kept
    obtain ⟨-, read⟩ := Option.ite_none_right_eq_some.1 kept
    exact Module.forall_spans_iff.2 (placed_of_parsedSource? read)
  · intro tree kept
    rw [desugared_compile] at kept
    cases arrived : (Module.ofSource source).result with
    | error fatal =>
      rw [arrived] at kept
      cases kept
    | ok module =>
      rw [arrived] at kept result
      cases kept
      exact Module.forall_spans_iff.2 result

/-- A string with characters of several bytes that ends in a paren and a lone backslash is
never closed; its span ends with the source. -/
theorem compile_marks_slices_of_unclosed_string :
    let source := "(f \"é😀(\\"
    let run := compile {} source {}
    let span : Span := .ofBounds 3 12
    (∃ diagnostic ∈ run.diagnostics, ∃ label ∈ diagnostic.labels, label.span = span) ∧
      span.IsSliceOf source := by
  intro source run span
  have reported : ∃ diagnostic ∈ run.diagnostics, ∃ label ∈ diagnostic.labels,
      label.span = span := by
    decide +kernel
  obtain ⟨diagnostic, member, label, isLabel, same⟩ := reported
  have slices := (compile_marks_slices {} source {}).1
  exact ⟨⟨diagnostic, member, label, isLabel, same⟩, same ▸ slices diagnostic member label isLabel⟩

end Source

end Lisplet
