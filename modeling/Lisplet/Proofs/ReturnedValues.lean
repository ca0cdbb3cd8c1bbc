import Lisplet.Proofs.CleanLowering

/-!
# Values or findings

Nothing fails in silence: a node that is lowered has a value exactly if lowering it
makes no finding. So a module without findings never needs the stand-in for a
missing value. Each of its functions returns what its body was lowered to, and the
entry function returns what the last form was lowered to that defines no function.
-/

namespace Lisplet

namespace Expr

open Emission

variable {arity? : String → Option Nat}

mutual

/-- A node with a value has no findings. -/
theorem faults_eq_nil (node : Expr) {scopes : Scopes} {temps : TempNames} {value : Value}
    (found : (node.emission arity? scopes temps).value = some value) :
    (node.emission arity? scopes temps).faults = [] := by
  cases node with
  | number span literal =>
    rw [emission]
    rfl
  | identifier span name =>
    rw [emission] at found ⊢
    cases resolved : scopes.resolve name with
    | value bound => rfl
    | unbound => simp [resolved, refused] at found
    | foreign owner => simp [resolved, refused] at found
  | text span body =>
    rw [emission] at found
    cases found
  | list span items =>
    rw [emission] at found
    cases found
  | functionDef span prototype body =>
    rw [emission] at found
    cases found
  | arithmetic span operator left right =>
    rw [emission] at found ⊢
    split at found
    · rename_i leftValue rightValue leftFound rightFound
      have leftClean := faults_eq_nil left leftFound
      have rightClean := faults_eq_nil right rightFound
      simp [before, result, leftClean, rightClean]
    · cases found
  | variableDef span name initializer =>
    rw [emission] at found ⊢
    split at found
    · rename_i bound initializerFound
      exact faults_eq_nil initializer initializerFound
    · rename_i missing
      cases missing.symm.trans found
  | call span callee arguments =>
    rw [emission] at found ⊢
    cases declared : arity? callee.value with
    | none => simp [declared, refused] at found
    | some arity =>
      by_cases mismatch : arity ≠ arguments.length
      · simp [declared, mismatch, refused] at found
      simp only [declared, mismatch, if_false] at found ⊢
      split at found
      · rename_i values argumentsFound
        have argumentsClean := argument_faults_eq_nil callee 1 arguments argumentsFound
        simp [before, result, argumentsClean]
      · cases found

/-- Arguments with values have no findings. -/
theorem argument_faults_eq_nil (callee : Located String) (position : Nat) (arguments : List Expr)
    {scopes : Scopes} {temps : TempNames} {values : List Value}
    (found : (argumentEmission arity? callee position arguments scopes temps).value =
      some values) :
    (argumentEmission arity? callee position arguments scopes temps).faults = [] := by
  cases arguments with
  | nil =>
    rw [argumentEmission]
    rfl
  | cons argument others =>
    rw [argumentEmission] at found ⊢
    dsimp only at found ⊢
    split at found
    · cases found
    · rename_i value firstFound
      obtain ⟨otherValues, othersFound, -⟩ := Option.map_eq_some_iff.1 found
      have firstClean := faults_eq_nil argument firstFound
      have othersClean := argument_faults_eq_nil callee (position + 1) others othersFound
      simp [before, firstClean, othersClean]

end

/-- A node has no value exactly if there are findings on it. -/
theorem value_eq_none_iff {node : Expr} {scopes : Scopes} {temps : TempNames} :
    (node.emission arity? scopes temps).value = none ↔
      (node.emission arity? scopes temps).faults ≠ [] := by
  constructor
  · exact faults_ne_nil node
  · intro findings
    by_contra hasValue
    obtain ⟨value, found⟩ := Option.ne_none_iff_exists'.1 hasValue
    exact findings (faults_eq_nil node found)

end Expr

/-- The forms before `rest` are lowered first, and `rest` goes on from there. -/
theorem formsEmission_append (arity? : String → Option Nat) (last : Option Value)
    (forms rest : List Expr) (scopes : Scopes) (temps : TempNames) :
    formsEmission arity? last (forms ++ rest) scopes temps =
      let first := formsEmission arity? last forms scopes temps
      first.before (formsEmission arity? first.value rest first.scopes first.temps) := by
  induction forms generalizing last scopes temps with
  | nil => rfl
  | cons form others inductionHypothesis =>
    rw [List.cons_append, formsEmission, formsEmission]
    cases form.functionDef? with
    | some definition => exact inductionHypothesis last scopes temps
    | none =>
      dsimp only
      rw [inductionHypothesis]
      simp [Emission.before]

/-- Definitions of functions contribute nothing to the entry function. -/
theorem formsEmission_of_definitions (arity? : String → Option Nat) (last : Option Value)
    {forms : List Expr} (definitions : ∀ form ∈ forms, form.functionDef?.isSome)
    (scopes : Scopes) (temps : TempNames) :
    formsEmission arity? last forms scopes temps = ⟨last, [], [], scopes, temps⟩ := by
  induction forms with
  | nil => rfl
  | cons form others inductionHypothesis =>
    obtain ⟨definition, defines⟩ := Option.isSome_iff_exists.1 (definitions form (by simp))
    rw [formsEmission, defines]
    exact inductionHypothesis fun other member => definitions other (by simp [member])

/-- The last form that defines no function is lowered last. -/
theorem formsEmission_last (arity? : String → Option Nat) (earlier : Option Value)
    {last : Expr} {after : List Expr} (isForm : last.functionDef? = none)
    (definitions : ∀ form ∈ after, form.functionDef?.isSome) (scopes : Scopes)
    (temps : TempNames) :
    formsEmission arity? earlier (last :: after) scopes temps =
      let own := last.emission arity? scopes temps
      own.before ⟨own.value.or earlier, [], [], own.scopes, own.temps⟩ := by
  rw [formsEmission, isForm]
  dsimp only
  rw [formsEmission_of_definitions _ _ definitions]

namespace Generator

/-- Whether a function is the one at hand once a node is lowered to a value and this
value is returned. -/
def Returns (generator : Generator) (node : Expr) (function : Function) : Prop :=
  ∃ value lowered unfinished,
    node.lower generator = .ok (some value, lowered) ∧
    lowered.builder.currentFunction? = some unfinished ∧
    function = unfinished.write [.ret value]

/-- In an open builder, a node without findings is lowered to a value that can be
returned. -/
theorem returns_of_clean {generator : Generator} {current : Function} {node : Expr}
    (atHand : generator.builder.currentFunction? = some current) (isOpen : current.IsOpen)
    (clean : (generator.emission node).faults = []) :
    generator.Returns node (current.write ((generator.emission node).code ++
      [.ret ((generator.emission node).value.getD noValue)])) := by
  obtain ⟨value, found⟩ := Expr.exists_value_of_clean clean
  refine ⟨value, generator.after (generator.emission node),
    current.write (generator.emission node).code, ?_, ?_, ?_⟩
  · rw [Expr.lower_eq node ⟨current, atHand, isOpen⟩]
    exact congrArg (fun value => Except.ok (value, _)) found
  · exact Builder.currentFunction?_write atHand _
  · rw [Function.write_append]
    exact congrArg (fun value => Function.write _ [.ret (value.getD noValue)]) found

/-- A body without findings is lowered to what its function returns. -/
theorem returns_atBody {generator : Generator} {prototype : Prototype}
    {earlier later : List Function} {body : Expr}
    (functions : generator.builder.target.functions = earlier ++ prototype.declaration :: later)
    (apart : ∀ other ∈ earlier, other.name ≠ prototype.name.value)
    (clean : (bodyEmission generator.builder.target.arity? prototype body generator.scopes
      generator.temps).faults = []) :
    (generator.atBody prototype earlier later).Returns body
      (.ofEmission prototype.name.value (prototype.params.map Located.value)
        (bodyEmission generator.builder.target.arity? prototype body generator.scopes
          generator.temps)) := by
  have atHand : (generator.atBody prototype earlier later).builder.currentFunction? =
      some (prototype.declaration.appendBlock ⟨entryLabel, []⟩) :=
    Builder.currentFunction?_inside apart
  rw [← emission_atBody functions body] at clean ⊢
  have returns := returns_of_clean atHand (Function.isOpen_appendBlock _ entryLabel) clean
  rw [Function.write_declaration] at returns
  exact returns

/-- Without findings, every function that gets a body returns what the body is lowered
to, in the state that the definitions before it lead to. -/
theorem returns_definitions (defined : List (Located String))
    (definitions : List (Prototype × Expr)) {generator : Generator} {earlier : List Function}
    (functions : generator.builder.target.functions = earlier ++
      (firstDefinitions (defined.map Located.value) definitions).map
        fun definition => definition.1.declaration)
    (named : ∀ function ∈ earlier, function.name ∈ defined.map Located.value)
    (clean : (Lisplet.definitions generator.builder.target.arity? defined definitions
      generator.scopes generator.temps).faults = []) :
    ∀ function ∈ (Lisplet.definitions generator.builder.target.arity? defined definitions
        generator.scopes generator.temps).functions,
      ∃ before prototype body after reached entered,
        definitions = before ++ (prototype, body) :: after ∧
        defineFunctions defined before generator = .ok reached ∧
        reached.beginFunction prototype = .ok entered ∧
        entered.Returns body function := by
  induction definitions generalizing defined generator earlier with
  | nil => simp [Lisplet.definitions]
  | cons definition rest inductionHypothesis =>
    obtain ⟨prototype, body⟩ := definition
    rw [Lisplet.definitions] at clean ⊢
    cases found : defined.find? fun name => name.value == prototype.name.value with
    | some first => simp [found] at clean
    | none =>
      have free := not_mem_of_find?_name found
      rw [firstDefinitions, if_neg free] at functions
      have apart := apart_of_free rest named free
      simp only [found] at clean ⊢
      obtain ⟨ownClean, othersClean⟩ := List.append_eq_nil_iff.1 clean
      intro function member
      rcases List.mem_cons.1 member with rfl | later
      · have returns := returns_atBody functions
          (fun other before => apart other (List.mem_append_left _ before)) ownClean
        exact ⟨[], prototype, body, rest, generator, _, rfl, rfl, beginFunction_eq functions apart,
          returns⟩
      · let declared := (firstDefinitions (prototype.name.value :: defined.map Located.value)
          rest).map fun definition => definition.1.declaration
        let next := generator.withBody prototype (bodyEmission generator.builder.target.arity?
          prototype body generator.scopes generator.temps) earlier declared
        have nextFunctions : next.builder.target.functions = (earlier ++ [_]) ++ declared :=
          List.append_cons _ _ _
        have sameArities : next.builder.target.arity? = generator.builder.target.arity? :=
          arity?_withBody functions _
        have others := inductionHypothesis (prototype.name :: defined) nextFunctions
          (named_append named rfl)
        rw [sameArities] at others
        obtain ⟨before, laterPrototype, laterBody, after, reached, entered, split, reaches,
          begins, returns⟩ := others othersClean function later
        refine ⟨(prototype, body) :: before, laterPrototype, laterBody, after, reached, entered,
          congrArg _ split, ?_, begins, returns⟩
        rw [defineFunctions, found, defineFunction_eq body functions apart]
        exact reaches

end Generator

namespace Module

open Generator

/-- Without findings, every function of a module returns what its body is lowered to. -/
theorem returns_functions {module : Module} {names : TargetNames}
    (clean : (module.definitions names).faults = []) :
    ∀ function ∈ (module.target names).functions,
      ∃ before prototype body after reached entered,
        module.userDefinitions names = before ++ (prototype, body) :: after ∧
        defineFunctions [] before (module.declaring names) = .ok reached ∧
        reached.beginFunction prototype = .ok entered ∧
        entered.Returns body function := by
  have functions : (module.declaring names).builder.target.functions = [] ++
      (firstDefinitions [] (module.userDefinitions names)).map
        fun definition => definition.1.declaration := by
    rw [declaring_eq]
    rfl
  have returns := returns_definitions [] (module.userDefinitions names) functions (by simp)
  rw [declaring_eq] at returns
  rw [declaring_eq]
  exact returns clean

/-- Without findings, the entry function returns what the last form is lowered to that
defines no function. -/
theorem returns_entry {module : Module} {names : TargetNames}
    (clean : (module.entryEmission names).faults = []) {before after : List Expr} {last : Expr}
    (split : module.forms = before ++ last :: after) (isForm : last.functionDef? = none)
    (definitions : ∀ form ∈ after, form.functionDef?.isSome) :
    ∃ value reached,
      lowerForms none before ((module.defined names).beginEntry names.entry) =
        .ok (value, reached) ∧
      reached.Returns last (.ofEmission names.entry [] (module.entryEmission names)) := by
  let start := (module.defined names).beginEntry names.entry
  have startOpen : start.builder.IsOpen := isOpen_beginEntry _ _
  have arities : start.builder.target.arity? = (module.declared names).arity? :=
    module.arity?_defined names
  let first := formsEmission start.builder.target.arity? none before start.scopes start.temps
  let own := (start.after first).emission last
  have emitted : module.entryEmission names = first.before
      (own.before ⟨own.value.or first.value, [], [], own.scopes, own.temps⟩) := by
    rw [entryEmission, split, formsEmission_append, ← arities]
    dsimp only
    rw [formsEmission_last _ _ isForm definitions]
    simp only [own, emission_after]
    rfl
  have ownClean : own.faults = [] := by
    rw [emitted] at clean
    exact (List.append_eq_nil_iff.1 (List.append_eq_nil_iff.1 clean).2).1
  obtain ⟨value, found⟩ : ∃ value, own.value = some value := Expr.exists_value_of_clean ownClean
  have written : (start.after first).builder.currentFunction? =
      some ⟨names.entry, [], [⟨entryLabel, first.code⟩]⟩ := by
    simp only [start, beginEntry, Generator.after, Builder.write_createEntry]
    rfl
  have firstOpen : (start.after first).builder.IsOpen :=
    isOpen_after startOpen (follows_formsEmission _ _ _ _ _)
  obtain ⟨current, atHand, isOpen⟩ := firstOpen
  cases written.symm.trans atHand
  have returns := returns_of_clean atHand isOpen ownClean
  refine ⟨first.value, start.after first, lowerForms_eq none before startOpen, ?_⟩
  have entry : Function.ofEmission names.entry [] (module.entryEmission names) =
      (⟨names.entry, [], [⟨entryLabel, first.code⟩]⟩ : Function).write
        (own.code ++ [.ret (own.value.getD noValue)]) := by
    rw [emitted]
    simp [Function.ofEmission, Emission.before, Function.write, Function.modifyLastBlock,
      Block.write, found]
  rw [entry]
  exact returns

/-- The entry function of a module that only defines functions returns the stand-in for
a missing value. -/
theorem ofEmission_entry_of_definitions {module : Module} {names : TargetNames}
    (definitions : ∀ form ∈ module.forms, form.functionDef?.isSome) :
    Function.ofEmission names.entry [] (module.entryEmission names) =
      ⟨names.entry, [], [⟨entryLabel, [.ret noValue]⟩]⟩ := by
  rw [entryEmission, formsEmission_of_definitions _ _ definitions]
  rfl

end Module

/-- Lowering never fails in silence. In an open builder, a node is lowered to a value
exactly if no finding is added, and findings are errors after those made so far. So in a
module without findings each function returns what its body is lowered to in the state
that the earlier definitions lead to, and the entry function returns what the last form
is lowered to that defines no function; only if there is none, it returns the stand-in for
a missing value. -/
theorem lowering_never_fails_silently :
    (∀ (node : Expr) (generator : Generator), generator.builder.IsOpen →
      ∃ value later findings, node.lower generator = .ok (value, later) ∧
        later.faults = generator.faults ++ findings ∧
        (value = none ↔ findings ≠ []) ∧ (value.isSome ↔ findings = []) ∧
        ∀ finding ∈ findings, finding.diagnostic.severity = .error) ∧
    ∀ (module : Module) (names : TargetNames), ∃ generator, module.lower names = .ok generator ∧
      (generator.faults = [] →
        (∀ function ∈ generator.builder.target.functions,
          ∃ before prototype body after reached entered,
            module.functionDefs = before ++ (prototype, body) :: after ∧
            Generator.defineFunctions [] before (module.declaring names) = .ok reached ∧
            reached.beginFunction prototype = .ok entered ∧
            entered.Returns body function) ∧
        ∃ defined entry,
          Generator.defineFunctions [] module.functionDefs (module.declaring names) =
            .ok defined ∧
          generator.builder.target.entry = some entry ∧
          (∀ before last after, module.forms = before ++ last :: after →
            last.functionDef? = none → (∀ form ∈ after, form.functionDef?.isSome) →
            ∃ value reached,
              Generator.lowerForms none before (defined.beginEntry names.entry) =
                .ok (value, reached) ∧
              reached.Returns last entry) ∧
          ((∀ form ∈ module.forms, form.functionDef?.isSome) →
            entry = ⟨names.entry, [], [⟨Generator.entryLabel, [.ret Generator.noValue]⟩]⟩)) := by
  constructor
  · intro node generator isOpen
    have exactly : (generator.emission node).value = none ↔
        (generator.emission node).faults ≠ [] :=
      Expr.value_eq_none_iff
    refine ⟨_, _, (generator.emission node).faults, Expr.lower_eq node isOpen, rfl, exactly, ?_,
      fun _ _ => rfl⟩
    rw [← Option.ne_none_iff_isSome, ne_eq, exactly, not_ne_iff]
  · intro module names
    refine ⟨_, module.lower_eq names, ?_⟩
    intro clean
    obtain ⟨earlyClean, entryClean⟩ := List.append_eq_nil_iff.1 clean
    obtain ⟨reservedClean, definitionsClean⟩ := List.append_eq_nil_iff.1 earlyClean
    have sameDefinitions := Module.userDefinitions_of_clean reservedClean
    have returns := Module.returns_functions definitionsClean
    have defines := module.defineFunctions_declaring names
    rw [sameDefinitions] at returns defines
    refine ⟨returns, module.defined names, _, defines, rfl, ?_, ?_⟩
    · intro before last after split isForm definitions
      exact Module.returns_entry entryClean split isForm definitions
    · exact Module.ofEmission_entry_of_definitions

/-- A string, which has no value, in an entry function just made; and a module without
findings whose last form that defines no function comes before a definition. -/
theorem lowering_never_fails_silently_on_late_definition :
    let at0 : Span := .point 0
    let name (word : String) : Located String := ⟨word, at0⟩
    let fresh : Generator := ({ builder := .new "module" } : Generator).beginEntry "main"
    let last : Expr := .call at0 (name "double") [.number at0 4]
    let definition : Expr := .functionDef at0 ⟨name "double", [name "x"], at0⟩
      (.arithmetic at0 .sum (.identifier at0 "x") (.identifier at0 "x"))
    let module : Module := ⟨[.number at0 1, last, definition]⟩
    (fresh.builder.IsOpen ∧
      ∃ value later findings, (Expr.text at0 "four").lower fresh = .ok (value, later) ∧
        later.faults = fresh.faults ++ findings ∧
        (value = none ↔ findings ≠ []) ∧ (value.isSome ↔ findings = []) ∧
        ∀ finding ∈ findings, finding.diagnostic.severity = .error) ∧
    (module.faults {} = [] ∧
      ∃ value defined reached entry, (module.target {}).entry = some entry ∧
        Generator.lowerForms none [.number at0 1] (Generator.beginEntry defined "main") =
          .ok (value, reached) ∧
        reached.Returns last entry) := by
  intro at0 name fresh last definition module
  obtain ⟨nodes, modules⟩ := lowering_never_fails_silently
  have freshOpen : fresh.builder.IsOpen := Generator.isOpen_beginEntry _ _
  have clean : module.faults {} = [] := by
    decide +kernel
  obtain ⟨generator, lowered, returns⟩ := modules module {}
  cases lowered.symm.trans (module.lower_eq {})
  obtain ⟨-, defined, entry, -, made, entryReturns, -⟩ := returns clean
  obtain ⟨value, reached, reaches, lastReturns⟩ := entryReturns [.number at0 1] last [definition]
    rfl rfl (by simp [definition, Expr.functionDef?])
  exact ⟨⟨freshOpen, nodes _ fresh freshOpen⟩, clean, value, defined, reached, entry, made,
    reaches, lastReturns⟩

end Lisplet
