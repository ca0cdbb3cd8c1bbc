import Lisplet.Proofs.ModuleLowering
import Lisplet.Proofs.TreeEvaluation

/-!
# Lowering without findings

A node that is lowered without a finding has a value, and so have all its parts.
The lemmas below say for each kind of node what its emission is made of then. The
first use of them is to follow constants: the globals that lowering binds to
constants are those of `Expr.constantAfter`.
-/

namespace Lisplet

namespace Expr

open Emission

variable {arity? : String → Option Nat}

mutual

/-- A node without a value has a finding that says why. -/
theorem faults_ne_nil (node : Expr) {scopes : Scopes} {temps : TempNames}
    (noValue : (node.emission arity? scopes temps).value = none) :
    (node.emission arity? scopes temps).faults ≠ [] := by
  cases node with
  | number span value =>
    rw [emission] at noValue
    cases noValue
  | identifier span name =>
    rw [emission] at noValue ⊢
    split
    · rename_i found
      rw [found] at noValue
      cases noValue
    · exact List.cons_ne_nil _ _
    · exact List.cons_ne_nil _ _
  | text span body =>
    rw [emission]
    exact List.cons_ne_nil _ _
  | list span items =>
    rw [emission]
    exact List.cons_ne_nil _ _
  | functionDef span prototype body =>
    rw [emission]
    exact List.cons_ne_nil _ _
  | arithmetic span operator left right =>
    rw [emission] at noValue ⊢
    split at noValue
    · cases noValue
    · rename_i notBoth
      intro clean
      obtain ⟨leftClean, rightClean⟩ := List.append_eq_nil_iff.1 clean
      obtain ⟨leftValue, leftFound⟩ :=
        Option.ne_none_iff_exists'.1 fun noLeft => faults_ne_nil left noLeft leftClean
      obtain ⟨rightValue, rightFound⟩ :=
        Option.ne_none_iff_exists'.1 fun noRight => faults_ne_nil right noRight rightClean
      exact notBoth _ _ leftFound rightFound
  | variableDef span name initializer =>
    rw [emission] at noValue ⊢
    split
    · rename_i found
      simp [found] at noValue
    · rename_i missing
      exact faults_ne_nil initializer missing
  | call span callee arguments =>
    rw [emission] at noValue ⊢
    split
    · exact List.cons_ne_nil _ _
    rename_i arity declared
    split
    · exact List.cons_ne_nil _ _
    rename_i sameLength
    dsimp only
    split
    · rename_i values found
      simp [declared, sameLength, found, before, result] at noValue
    · rename_i missing
      exact argument_faults_ne_nil callee 1 arguments missing

/-- Arguments without values have a finding that says why. -/
theorem argument_faults_ne_nil (callee : Located String) (position : Nat) (arguments : List Expr)
    {scopes : Scopes} {temps : TempNames}
    (noValue : (argumentEmission arity? callee position arguments scopes temps).value = none) :
    (argumentEmission arity? callee position arguments scopes temps).faults ≠ [] := by
  cases arguments with
  | nil =>
    rw [argumentEmission] at noValue
    cases noValue
  | cons argument others =>
    rw [argumentEmission] at noValue ⊢
    dsimp only at noValue ⊢
    split
    · simp [before, refused]
    · rename_i value found
      rw [found] at noValue
      have missing := Option.map_eq_none_iff.1 noValue
      intro clean
      exact argument_faults_ne_nil callee (position + 1) others missing
        (List.append_eq_nil_iff.1 clean).2

end

variable {scopes : Scopes} {temps : TempNames}

theorem exists_value_of_clean {node : Expr}
    (clean : (node.emission arity? scopes temps).faults = []) :
    ∃ value, (node.emission arity? scopes temps).value = some value :=
  Option.ne_none_iff_exists'.1 fun noValue => faults_ne_nil node noValue clean

theorem emission_identifier_of_clean {span : Span} {name : String}
    (clean : ((identifier span name).emission arity? scopes temps).faults = []) :
    ∃ value, scopes.resolve name = .value value ∧
      (identifier span name).emission arity? scopes temps = .ofValue scopes temps value := by
  rw [emission] at clean ⊢
  cases resolved : scopes.resolve name with
  | value value => exact ⟨value, rfl, rfl⟩
  | unbound => simp [resolved, refused] at clean
  | foreign owner => simp [resolved, refused] at clean

/-- The parts of arithmetic without findings: both operands have a value and
findings on neither. -/
theorem emission_arithmetic_of_clean {span : Span} {operator : Operator} {left right : Expr}
    (clean : ((arithmetic span operator left right).emission arity? scopes temps).faults = []) :
    let first := left.emission arity? scopes temps
    let second := right.emission arity? first.scopes first.temps
    first.faults = [] ∧ second.faults = [] ∧ ∃ leftValue rightValue,
      first.value = some leftValue ∧ second.value = some rightValue ∧
      (arithmetic span operator left right).emission arity? scopes temps =
        first.before (second.before (.result second.scopes second.temps operator.name
          fun dest => .arithmetic operator.opcode dest leftValue rightValue)) := by
  intro first second
  rw [emission] at clean ⊢
  have bothClean : first.faults = [] ∧ second.faults = [] := by
    split at clean <;> simpa [before, withoutValue, result] using clean
  obtain ⟨leftValue, leftFound⟩ := exists_value_of_clean bothClean.1
  obtain ⟨rightValue, rightFound⟩ := exists_value_of_clean bothClean.2
  refine ⟨bothClean.1, bothClean.2, leftValue, rightValue, leftFound, rightFound, ?_⟩
  simp only [first] at rightFound
  simp only [first, second, leftFound, rightFound]

/-- The part of a definition of a variable without findings: the initializer has a
value. -/
theorem emission_variableDef_of_clean {span : Span} {name : Located String} {initializer : Expr}
    (clean : ((variableDef span name initializer).emission arity? scopes temps).faults = []) :
    let first := initializer.emission arity? scopes temps
    first.faults = [] ∧ ∃ value, first.value = some value ∧
      (variableDef span name initializer).emission arity? scopes temps =
        { first with scopes := first.scopes.bindGlobal name.value value } := by
  intro first
  rw [emission] at clean ⊢
  have firstClean : first.faults = [] := by
    split at clean <;> exact clean
  obtain ⟨value, found⟩ := exists_value_of_clean firstClean
  refine ⟨firstClean, value, found, ?_⟩
  simp only [first, found]

/-- The parts of a call without findings: the function is declared for as many
arguments, and all arguments have values. -/
theorem emission_call_of_clean {span : Span} {callee : Located String} {arguments : List Expr}
    (clean : ((call span callee arguments).emission arity? scopes temps).faults = []) :
    let first := argumentEmission arity? callee 1 arguments scopes temps
    arity? callee.value = some arguments.length ∧ first.faults = [] ∧ ∃ values,
      first.value = some values ∧
      (call span callee arguments).emission arity? scopes temps =
        first.before (.result first.scopes first.temps "call"
          fun dest => .call dest callee.value values) := by
  intro first
  rw [emission] at clean ⊢
  cases declared : arity? callee.value with
  | none => simp [declared, refused] at clean
  | some arity =>
    by_cases mismatch : arity ≠ arguments.length
    · simp [declared, mismatch, refused] at clean
    simp only [declared, mismatch, if_false] at clean ⊢
    have firstClean : first.faults = [] := by
      split at clean <;> simpa [before, withoutValue, result] using clean
    obtain ⟨values, found⟩ := Option.ne_none_iff_exists'.1 fun noValue =>
      argument_faults_ne_nil callee 1 arguments noValue firstClean
    refine ⟨by rw [not_ne_iff.1 mismatch], firstClean, values, found, ?_⟩
    simp only [found]
    rfl

/-- The parts of arguments without findings: all of them have values. -/
theorem argumentEmission_cons_of_clean {callee : Located String} {position : Nat}
    {argument : Expr} {others : List Expr}
    (clean : (argumentEmission arity? callee position (argument :: others) scopes temps).faults
      = []) :
    let first := argument.emission arity? scopes temps
    let second := argumentEmission arity? callee (position + 1) others first.scopes first.temps
    first.faults = [] ∧ second.faults = [] ∧ ∃ value values,
      first.value = some value ∧ second.value = some values ∧
      argumentEmission arity? callee position (argument :: others) scopes temps =
        first.before { second with value := some (value :: values) } := by
  intro first second
  rw [argumentEmission] at clean ⊢
  dsimp only at clean ⊢
  split at clean
  · simp [before, refused] at clean
  · rename_i value found
    obtain ⟨firstClean, secondClean⟩ := List.append_eq_nil_iff.1 clean
    obtain ⟨values, foundRest⟩ := Option.ne_none_iff_exists'.1 fun noValue =>
      argument_faults_ne_nil callee (position + 1) others noValue secondClean
    refine ⟨firstClean, secondClean, value, values, found, foundRest, ?_⟩
    simp only [first, second, foundRest, Option.map_some]

end Expr

namespace Scopes

/-- Whether constants are the globals that are bound to constants. -/
def Tracks (scopes : Scopes) (constants : Bindings Float) : Prop :=
  ∀ name, constants.get? name = (scopes.globals.get? name).bind Value.constant?

variable {scopes : Scopes} {constants : Bindings Float}

theorem Tracks.bind_constant (tracks : scopes.Tracks constants) (name : String) {value : Value}
    {number : Float} (isConstant : value.constant? = some number) :
    (scopes.bindGlobal name value).Tracks (constants.bind name number) := by
  intro other
  by_cases same : other = name
  · simp [same, bindGlobal, isConstant]
  · simp [bindGlobal, Bindings.get?_bind_of_ne _ _ same, tracks other]

theorem Tracks.bind_other (tracks : scopes.Tracks constants) (name : String) {value : Value}
    (notConstant : value.constant? = none) :
    (scopes.bindGlobal name value).Tracks (constants.erase name) := by
  intro other
  by_cases same : other = name
  · simp [same, bindGlobal, notConstant]
  · simp [bindGlobal, Bindings.get?_bind_of_ne _ _ same, Bindings.get?_erase_of_ne _ same,
      tracks other]

end Scopes

namespace Expr

open Emission

variable {arity? : String → Option Nat} {params : List String}

/-- What a name stands for is constant exactly if the name is no parameter and among
the constants. -/
theorem constant?_of_resolve {scopes : Scopes} {constants : Bindings Float} {name : String}
    {value : Value} (locals : scopes.locals = Scopes.bindParams 0 params .empty)
    (tracks : scopes.Tracks constants) (resolved : scopes.resolve name = .value value) :
    (if name ∈ params then none else constants.get? name) = value.constant? := by
  cases isLocal : scopes.locals.get? name with
  | some parameter =>
    cases (Scopes.resolve_of_local isLocal).symm.trans resolved
    rw [locals] at isLocal
    obtain ⟨index, rfl, found⟩ := Scopes.param_of_get?_bindParams isLocal
    rw [if_pos (List.mem_of_getElem? found)]
    rfl
  | none =>
    obtain ⟨global, -⟩ := Scopes.global_of_resolve isLocal resolved
    rw [locals] at isLocal
    rw [if_neg (Scopes.get?_bindParams_eq_none_iff.1 isLocal), tracks name, global]
    rfl

mutual

/-- Without findings, lowering a node binds the constants that its tree tells, and
its value is a constant exactly if its tree tells so. -/
theorem tracks_emission (node : Expr) {scopes : Scopes} {temps : TempNames}
    {constants : Bindings Float} (locals : scopes.locals = Scopes.bindParams 0 params .empty)
    (tracks : scopes.Tracks constants)
    (clean : (node.emission arity? scopes temps).faults = []) :
    (node.constantAfter params constants).1 =
        (node.emission arity? scopes temps).value.bind Value.constant? ∧
      (node.emission arity? scopes temps).scopes.Tracks
        (node.constantAfter params constants).2 := by
  cases node with
  | number span value =>
    rw [emission, constantAfter]
    exact ⟨rfl, tracks⟩
  | identifier span name =>
    obtain ⟨value, resolved, emitted⟩ := emission_identifier_of_clean clean
    rw [emitted, constantAfter]
    exact ⟨constant?_of_resolve locals tracks resolved, tracks⟩
  | text span body =>
    rw [emission] at clean
    cases clean
  | list span items =>
    rw [emission] at clean
    cases clean
  | functionDef span prototype body =>
    rw [emission] at clean
    cases clean
  | arithmetic span operator left right =>
    obtain ⟨leftClean, rightClean, leftValue, rightValue, -, -, emitted⟩ :=
      emission_arithmetic_of_clean clean
    have first := tracks_emission left locals tracks leftClean
    have leftLocals := (left.follows_emission arity? scopes temps).grows.locals_eq
    have second := tracks_emission right (leftLocals.trans locals) first.2 rightClean
    rw [emitted, constantAfter]
    exact ⟨rfl, second.2⟩
  | variableDef span name initializer =>
    obtain ⟨firstClean, value, found, emitted⟩ := emission_variableDef_of_clean clean
    have first := tracks_emission initializer locals tracks firstClean
    rw [emitted, constantAfter]
    rw [found] at first ⊢
    obtain ⟨isConstant, firstTracks⟩ := first
    cases noted : initializer.constantAfter params constants with
    | mk constant later =>
      rw [noted] at isConstant firstTracks
      cases constant with
      | some number => exact ⟨isConstant, firstTracks.bind_constant name.value isConstant.symm⟩
      | none => exact ⟨isConstant, firstTracks.bind_other name.value isConstant.symm⟩
  | call span callee arguments =>
    obtain ⟨-, firstClean, values, -, emitted⟩ := emission_call_of_clean clean
    rw [emitted, constantAfter]
    exact ⟨rfl, tracks_argumentEmission callee 1 arguments locals tracks firstClean⟩

/-- Without findings, lowering arguments binds the constants that their trees
tell. -/
theorem tracks_argumentEmission (callee : Located String) (position : Nat)
    (arguments : List Expr) {scopes : Scopes} {temps : TempNames} {constants : Bindings Float}
    (locals : scopes.locals = Scopes.bindParams 0 params .empty)
    (tracks : scopes.Tracks constants)
    (clean : (argumentEmission arity? callee position arguments scopes temps).faults = []) :
    (argumentEmission arity? callee position arguments scopes temps).scopes.Tracks
      (constantsAfter params arguments constants) := by
  cases arguments with
  | nil =>
    rw [argumentEmission, constantsAfter]
    exact tracks
  | cons argument others =>
    obtain ⟨firstClean, othersClean, value, values, -, -, emitted⟩ :=
      argumentEmission_cons_of_clean clean
    have first := tracks_emission argument locals tracks firstClean
    have firstLocals := (argument.follows_emission arity? scopes temps).grows.locals_eq
    rw [emitted, constantsAfter]
    exact tracks_argumentEmission callee (position + 1) others (firstLocals.trans locals) first.2
      othersClean

end

end Expr

end Lisplet
