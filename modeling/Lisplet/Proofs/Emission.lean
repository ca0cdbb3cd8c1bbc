import Lisplet.Lowering.Generator
import Lisplet.Proofs.BuilderWriting
import Lisplet.Proofs.ScopeLaws

/-!
# What lowering a node contributes

Lowering threads a builder through the tree, but all it does to an open builder
is to write instructions. `Expr.emission` says which: it computes the value of a
node, its instructions and its findings from the declared arities, the scopes and
the number of the next result, without any builder. `Expr.lower_eq` states that
lowering writes exactly this, so that every law of the generated code is a law of
emissions.
-/

namespace Lisplet

/-- What lowering contributes: a value, if there is one, the instructions that
compute it, the findings on the way, and the scopes and the number of the next
result afterwards. -/
structure Emission (α : Type) where
  value : Option α
  code : List Instruction
  faults : List LoweringFault
  scopes : Scopes
  temps : TempNames

namespace Emission

/-- A value that takes no code. -/
def ofValue {α : Type} (scopes : Scopes) (temps : TempNames) (value : α) : Emission α :=
  ⟨some value, [], [], scopes, temps⟩

/-- A finding in place of a value. -/
def refused {α : Type} (scopes : Scopes) (temps : TempNames) (fault : LoweringFault) :
    Emission α :=
  ⟨none, [], [fault], scopes, temps⟩

/-- One instruction, whose result is named after the stem. -/
def result (scopes : Scopes) (temps : TempNames) (stem : String)
    (instruction : String → Instruction) : Emission Value :=
  let dest := (temps.next stem).1
  ⟨some (.temp dest), [instruction dest], [], scopes, (temps.next stem).2⟩

/-- One emission and then another. The value is that of the second. -/
def before {α β : Type} (first : Emission α) (second : Emission β) : Emission β :=
  { second with
    code := first.code ++ second.code
    faults := first.faults ++ second.faults }

/-- An emission whose value is not used. -/
def withoutValue {α β : Type} (emission : Emission α) : Emission β :=
  { emission with value := none }

end Emission

namespace Expr

mutual

/-- What lowering a node contributes, if functions are declared with the given
arities. -/
def emission (arity? : String → Option Nat) : Expr → Scopes → TempNames → Emission Value
  | number _ value, scopes, temps =>
    .ofValue scopes temps (.constant (Float.ofInt value.toInt))
  | identifier span name, scopes, temps =>
    match scopes.resolve name with
    | .value value => .ofValue scopes temps value
    | .unbound => .refused scopes temps (.unboundName name span)
    | .foreign owner => .refused scopes temps (.foreignName name owner span)
  | text span _, scopes, temps => .refused scopes temps (.stringValue span)
  | list span _, scopes, temps => .refused scopes temps (.listValue span)
  | functionDef span prototype _, scopes, temps =>
    .refused scopes temps (.nestedFunction prototype.name.value span)
  | arithmetic _ operator left right, scopes, temps =>
    let first := emission arity? left scopes temps
    let second := emission arity? right first.scopes first.temps
    match first.value, second.value with
    | some left, some right =>
      first.before <| second.before <| .result second.scopes second.temps operator.name
        fun dest => .arithmetic operator.opcode dest left right
    | _, _ => first.before second.withoutValue
  | variableDef _ name initializer, scopes, temps =>
    let first := emission arity? initializer scopes temps
    match first.value with
    | some value => { first with scopes := first.scopes.bindGlobal name.value value }
    | none => first
  | call span callee arguments, scopes, temps =>
    match arity? callee.value with
    | none => .refused scopes temps (.unknownFunction callee)
    | some arity =>
      if arity ≠ arguments.length then
        .refused scopes temps (.argumentMismatch callee.value arguments.length arity span)
      else
        let first := argumentEmission arity? callee 1 arguments scopes temps
        match first.value with
        | some values =>
          first.before <| .result first.scopes first.temps "call"
            fun dest => .call dest callee.value values
        | none => first.withoutValue

/-- What lowering arguments contributes. The first of them has the given
position. -/
def argumentEmission (arity? : String → Option Nat) (callee : Located String) (position : Nat) :
    List Expr → Scopes → TempNames → Emission (List Value)
  | [], scopes, temps => .ofValue scopes temps []
  | argument :: others, scopes, temps =>
    let first := emission arity? argument scopes temps
    match first.value with
    | none =>
      first.before <| .refused first.scopes first.temps
        (.argumentWithoutValue position argument.span callee)
    | some value =>
      let second := argumentEmission arity? callee (position + 1) others first.scopes first.temps
      first.before { second with value := second.value.map (value :: ·) }

end

end Expr

/-- All that lowering does in a function, step by step: it binds globals, and it
adds instructions whose results are named by the next number. -/
inductive Emits (scopes : Scopes) (temps : TempNames) :
    List Instruction → Scopes → TempNames → Prop where
  | refl : Emits scopes temps [] scopes temps
  | bind {code : List Instruction} {later : Scopes} {next : TempNames}
      (emitted : Emits scopes temps code later next) (name : String) (value : Value) :
      Emits scopes temps code (later.bindGlobal name value) next
  | arithmetic {code : List Instruction} {later : Scopes} {next : TempNames}
      (emitted : Emits scopes temps code later next) (operator : Operator) (left right : Value) :
      Emits scopes temps
        (code ++ [.arithmetic operator.opcode (next.next operator.name).1 left right])
        later (next.next operator.name).2
  | call {code : List Instruction} {later : Scopes} {next : TempNames}
      (emitted : Emits scopes temps code later next) (callee : String) (arguments : List Value) :
      Emits scopes temps (code ++ [.call (next.next "call").1 callee arguments])
        later (next.next "call").2

namespace Emits

/-- What is emitted in two parts is emitted as a whole. -/
theorem trans {first second third : Scopes} {early middle late : TempNames}
    {earlyCode lateCode : List Instruction} (before : Emits first early earlyCode second middle)
    (after : Emits second middle lateCode third late) :
    Emits first early (earlyCode ++ lateCode) third late := by
  induction after with
  | refl => simpa using before
  | bind _ name value inductionHypothesis => exact inductionHypothesis.bind name value
  | arithmetic _ operator left right inductionHypothesis =>
    rw [← List.append_assoc]
    exact inductionHypothesis.arithmetic operator left right
  | call _ callee arguments inductionHypothesis =>
    rw [← List.append_assoc]
    exact inductionHypothesis.call callee arguments

/-- Nothing is lowered to a return. -/
theorem isTerminator_eq_false {scopes later : Scopes} {temps next : TempNames}
    {code : List Instruction} (emitted : Emits scopes temps code later next) :
    ∀ instruction ∈ code, instruction.isTerminator = false := by
  induction emitted with
  | refl => simp
  | bind _ _ _ inductionHypothesis => exact inductionHypothesis
  | arithmetic _ operator left right inductionHypothesis =>
    intro instruction member
    rcases List.mem_append.1 member with earlier | last
    · exact inductionHypothesis instruction earlier
    · rw [List.mem_singleton.1 last]
      rfl
  | call _ callee arguments inductionHypothesis =>
    intro instruction member
    rcases List.mem_append.1 member with earlier | last
    · exact inductionHypothesis instruction earlier
    · rw [List.mem_singleton.1 last]
      rfl

/-- Scopes only grow. -/
theorem grows {scopes later : Scopes} {temps next : TempNames} {code : List Instruction}
    (emitted : Emits scopes temps code later next) : scopes.Grows later := by
  induction emitted with
  | refl => exact .refl
  | bind _ name value inductionHypothesis => exact inductionHypothesis.bind name value
  | arithmetic _ _ _ _ inductionHypothesis => exact inductionHypothesis
  | call _ _ _ inductionHypothesis => exact inductionHypothesis

end Emits

namespace Emission

/-- Whether an emission is made by steps of lowering. -/
def Follows {α : Type} (emission : Emission α) (scopes : Scopes) (temps : TempNames) : Prop :=
  Emits scopes temps emission.code emission.scopes emission.temps

/-- Emissions that follow one on the other follow as a whole. -/
theorem Follows.before {α β : Type} {first : Emission α} {second : Emission β} {scopes : Scopes}
    {temps : TempNames} (early : first.Follows scopes temps)
    (late : second.Follows first.scopes first.temps) :
    (first.before second).Follows scopes temps :=
  Emits.trans early late

end Emission

namespace Expr

open Emission

mutual

/-- Lowering a node is made of steps. -/
theorem follows_emission (arity? : String → Option Nat) (node : Expr) (scopes : Scopes)
    (temps : TempNames) : (node.emission arity? scopes temps).Follows scopes temps := by
  cases node with
  | number span value =>
    rw [emission]
    exact .refl
  | identifier span name =>
    rw [emission]
    split <;> exact .refl
  | text span body =>
    rw [emission]
    exact .refl
  | list span items =>
    rw [emission]
    exact .refl
  | functionDef span prototype body =>
    rw [emission]
    exact .refl
  | arithmetic span operator left right =>
    have first := follows_emission arity? left scopes temps
    have second := follows_emission arity? right (left.emission arity? scopes temps).scopes
      (left.emission arity? scopes temps).temps
    rw [emission]
    split
    · exact first.before (second.before (Emits.refl.arithmetic operator _ _))
    · exact first.before second
  | variableDef span name initializer =>
    have first := follows_emission arity? initializer scopes temps
    rw [emission]
    split
    · exact first.bind name.value _
    · exact first
  | call span callee arguments =>
    rw [emission]
    split
    · exact .refl
    split
    · exact .refl
    have first := follows_argumentEmission arity? callee 1 arguments scopes temps
    dsimp only
    split
    · exact first.before (Emits.refl.call callee.value _)
    · exact first

/-- Lowering arguments is made of steps. -/
theorem follows_argumentEmission (arity? : String → Option Nat) (callee : Located String)
    (position : Nat) (arguments : List Expr) (scopes : Scopes) (temps : TempNames) :
    (argumentEmission arity? callee position arguments scopes temps).Follows scopes temps := by
  cases arguments with
  | nil =>
    rw [argumentEmission]
    exact .refl
  | cons argument others =>
    have first := follows_emission arity? argument scopes temps
    rw [argumentEmission]
    dsimp only
    split
    · exact first.before .refl
    · exact first.before (follows_argumentEmission arity? callee (position + 1) others _ _)

end

end Expr

namespace Generator

variable {α β : Type}

/-- The state of lowering once an emission is made. -/
def after (generator : Generator) (emission : Emission α) : Generator where
  builder := generator.builder.write emission.code
  scopes := emission.scopes
  temps := emission.temps
  faults := generator.faults ++ emission.faults

/-- What lowering a node contributes from here on. -/
def emission (generator : Generator) (node : Expr) : Emission Value :=
  node.emission generator.builder.target.arity? generator.scopes generator.temps

/-- What lowering arguments contributes from here on. -/
def argumentEmission (generator : Generator) (callee : Located String) (position : Nat)
    (arguments : List Expr) : Emission (List Value) :=
  Expr.argumentEmission generator.builder.target.arity? callee position arguments
    generator.scopes generator.temps

@[simp] theorem arity?_after (generator : Generator) (emission : Emission α) :
    (generator.after emission).builder.target.arity? = generator.builder.target.arity? :=
  generator.builder.arity?_write emission.code

/-- What lowering contributes after an emission depends on its scopes and its
results only. -/
theorem emission_after (generator : Generator) (earlier : Emission α) (node : Expr) :
    (generator.after earlier).emission node =
      node.emission generator.builder.target.arity? earlier.scopes earlier.temps := by
  rw [emission, arity?_after]
  rfl

/-- After an emission, arguments contribute what they do in the scopes and with the names that it
leaves. -/
theorem argumentEmission_after (generator : Generator) (earlier : Emission α)
    (callee : Located String) (position : Nat) (arguments : List Expr) :
    (generator.after earlier).argumentEmission callee position arguments =
      Expr.argumentEmission generator.builder.target.arity? callee position arguments
        earlier.scopes earlier.temps := by
  rw [argumentEmission, arity?_after]
  rfl

/-- Arithmetic contributes its operands from left to right, then its own instruction if both have
values. -/
theorem emission_arithmetic (generator : Generator) (span : Span) (operator : Operator)
    (left right : Expr) :
    generator.emission (.arithmetic span operator left right) =
      let first := generator.emission left
      let second := (generator.after first).emission right
      match first.value, second.value with
      | some left, some right =>
        first.before <| second.before <| .result second.scopes second.temps operator.name
          fun dest => .arithmetic operator.opcode dest left right
      | _, _ => first.before second.withoutValue := by
  simp only [emission_after]
  rw [emission, Expr.emission]
  rfl

/-- A variable contributes its initializer and is bound if that has a value. -/
theorem emission_variableDef (generator : Generator) (span : Span) (name : Located String)
    (initializer : Expr) :
    generator.emission (.variableDef span name initializer) =
      let first := generator.emission initializer
      match first.value with
      | some value => { first with scopes := first.scopes.bindGlobal name.value value }
      | none => first := by
  rw [emission, Expr.emission]
  rfl

/-- A call contributes its arguments, then its own instruction, if the function is known and takes
as many. -/
theorem emission_call (generator : Generator) (span : Span) (callee : Located String)
    (arguments : List Expr) :
    generator.emission (.call span callee arguments) =
      match generator.builder.target.function? callee.value with
      | none => .refused generator.scopes generator.temps (.unknownFunction callee)
      | some function =>
        if function.arity ≠ arguments.length then
          .refused generator.scopes generator.temps
            (.argumentMismatch callee.value arguments.length function.arity span)
        else
          let first := generator.argumentEmission callee 1 arguments
          match first.value with
          | some values =>
            first.before <| .result first.scopes first.temps "call"
              fun dest => .call dest callee.value values
          | none => first.withoutValue := by
  rw [emission, Expr.emission, Target.arity?]
  cases generator.builder.target.function? callee.value <;> rfl

/-- Arguments contribute from left to right, up to one without a value. -/
theorem argumentEmission_cons (generator : Generator) (callee : Located String) (position : Nat)
    (argument : Expr) (others : List Expr) :
    generator.argumentEmission callee position (argument :: others) =
      let first := generator.emission argument
      match first.value with
      | none =>
        first.before <| .refused first.scopes first.temps
          (.argumentWithoutValue position argument.span callee)
      | some value =>
        let second := (generator.after first).argumentEmission callee (position + 1) others
        first.before { second with value := second.value.map (value :: ·) } := by
  simp only [argumentEmission_after]
  rw [argumentEmission, Expr.argumentEmission]
  rfl

/-- To go on after two emissions is to go on after the second where the first has led. -/
theorem after_before (generator : Generator) (first : Emission α) (second : Emission β) :
    generator.after (first.before second) = (generator.after first).after second := by
  simp [after, Emission.before, Builder.write_append]

@[simp] theorem after_ofValue (generator : Generator) (value : α) :
    generator.after (.ofValue generator.scopes generator.temps value) = generator := by
  simp [after, Emission.ofValue]

/-- A refusal is an emission of nothing but its finding. -/
theorem refuse_eq (generator : Generator) (fault : LoweringFault) :
    (generator.refuse fault : Except BuilderFailure (Option α × Generator)) =
      let last := Emission.refused generator.scopes generator.temps fault
      .ok (last.value, generator.after last) := by
  simp [refuse, after, Emission.refused, record]

/-- Lowering may go on after an emission. -/
theorem isOpen_after {generator : Generator} {emission : Emission α}
    (isOpen : generator.builder.IsOpen)
    (follows : emission.Follows generator.scopes generator.temps) :
    (generator.after emission).builder.IsOpen :=
  isOpen.write follows.isTerminator_eq_false

/-- What a node contributes follows the state of the generator. -/
theorem follows_emission (generator : Generator) (node : Expr) :
    (generator.emission node).Follows generator.scopes generator.temps :=
  node.follows_emission _ _ _

/-- What arguments contribute follows the state of the generator. -/
theorem follows_argumentEmission (generator : Generator) (callee : Located String)
    (position : Nat) (arguments : List Expr) :
    (generator.argumentEmission callee position arguments).Follows generator.scopes
      generator.temps :=
  Expr.follows_argumentEmission _ _ _ _ _ _

/-- An instruction that computes a value is added, and the value is named by its result. -/
theorem build_pushValue {generator : Generator} (isOpen : generator.builder.IsOpen) (span : Span)
    (dest : String) (instruction : Instruction) :
    generator.build span (Builder.pushValue dest instruction) =
      .ok (.temp dest, { generator with builder := generator.builder.write [instruction] }) := by
  simp [build, Builder.pushValue, isOpen.carryOut_push, Except.map]

/-- Arithmetic is added under the next name of a result. -/
theorem emitArithmetic_eq {generator : Generator} (isOpen : generator.builder.IsOpen)
    (span : Span) (operator : Operator) (left right : Value) :
    generator.emitArithmetic span operator left right =
      let last := Emission.result generator.scopes generator.temps operator.name
        fun dest => .arithmetic operator.opcode dest left right
      .ok (last.value, generator.after last) := by
  have opened : ({ generator with temps := (generator.temps.next operator.name).2 } :
      Generator).builder.IsOpen := isOpen
  simp only [emitArithmetic, Builder.buildArithmetic, build_pushValue opened, bind, Except.bind]
  simp [Emission.result, after]

/-- A call is added under the next name of a result. -/
theorem emitCall_eq {generator : Generator} (isOpen : generator.builder.IsOpen)
    (span : Span) (callee : String) (arguments : List Value) :
    generator.emitCall span callee arguments =
      let last := Emission.result generator.scopes generator.temps "call"
        fun dest => .call dest callee arguments
      .ok (last.value, generator.after last) := by
  have opened : ({ generator with temps := (generator.temps.next "call").2 } :
      Generator).builder.IsOpen := isOpen
  simp only [emitCall, Builder.buildCall, build_pushValue opened, bind, Except.bind]
  simp [Emission.result, after]

/-- The value of a variable is the one that it is bound to. -/
theorem bindGlobal_eq (generator : Generator) (name : String) (value : Value) :
    generator.bindGlobal name value =
      (some value, { generator with scopes := generator.scopes.bindGlobal name value }) := by
  simp [bindGlobal, Scopes.global?, Scopes.bindGlobal]

end Generator

namespace Expr

open Generator

mutual

/-- In an open builder, lowering a node writes what the node emits. -/
theorem lower_eq (node : Expr) {generator : Generator} (isOpen : generator.builder.IsOpen) :
    node.lower generator =
      .ok ((generator.emission node).value, generator.after (generator.emission node)) := by
  cases node with
  | number span value =>
    rw [lower, Generator.emission, emission, after_ofValue]
    rfl
  | identifier span name =>
    rw [lower, lowerName, Generator.emission, emission]
    cases generator.scopes.resolve name with
    | value value =>
      dsimp only
      rw [after_ofValue]
      rfl
    | unbound => exact refuse_eq generator _
    | foreign owner => exact refuse_eq generator _
  | text span body =>
    rw [lower, Generator.emission, emission]
    exact refuse_eq generator _
  | list span items =>
    rw [lower, Generator.emission, emission]
    exact refuse_eq generator _
  | functionDef span prototype body =>
    rw [lower, Generator.emission, emission]
    exact refuse_eq generator _
  | arithmetic span operator left right =>
    have leftOpen := isOpen_after isOpen (generator.follows_emission left)
    have rightOpen := isOpen_after leftOpen
      ((generator.after (generator.emission left)).follows_emission right)
    rw [lower, lower_eq left isOpen, emission_arithmetic]
    simp only [bind, Except.bind]
    rw [lower_eq right leftOpen]
    generalize generator.emission left = first at rightOpen ⊢
    generalize (generator.after first).emission right = second at rightOpen ⊢
    obtain ⟨_ | leftValue, leftCode, leftFaults, leftScopes, leftTemps⟩ := first
    · simp only [after_before]
      rfl
    obtain ⟨_ | rightValue, rightCode, rightFaults, rightScopes, rightTemps⟩ := second
    · simp only [after_before]
      rfl
    · simp only [after_before]
      exact emitArithmetic_eq rightOpen span operator leftValue rightValue
  | variableDef span name initializer =>
    rw [lower, lower_eq initializer isOpen, emission_variableDef]
    simp only [bind, Except.bind]
    generalize generator.emission initializer = first
    obtain ⟨_ | value, code, faults, scopes, temps⟩ := first
    · rfl
    · simp only [bindGlobal_eq]
      rfl
  | call span callee arguments =>
    rw [lower, emission_call]
    cases generator.builder.target.function? callee.value with
    | none => exact refuse_eq generator _
    | some function =>
      dsimp only
      split
      · exact refuse_eq generator _
      have argumentsOpen := isOpen_after isOpen
        (generator.follows_argumentEmission callee 1 arguments)
      rw [lowerArguments_eq callee 1 arguments isOpen]
      simp only [bind, Except.bind]
      generalize generator.argumentEmission callee 1 arguments = first at argumentsOpen ⊢
      obtain ⟨_ | values, code, faults, scopes, temps⟩ := first
      · rfl
      · simp only [after_before]
        exact emitCall_eq argumentsOpen span callee.value values

/-- In an open builder, lowering arguments writes what the arguments emit. -/
theorem lowerArguments_eq (callee : Located String) (position : Nat) (arguments : List Expr)
    {generator : Generator} (isOpen : generator.builder.IsOpen) :
    lowerArguments callee position arguments generator =
      .ok ((generator.argumentEmission callee position arguments).value,
        generator.after (generator.argumentEmission callee position arguments)) := by
  cases arguments with
  | nil =>
    rw [lowerArguments, Generator.argumentEmission, argumentEmission, after_ofValue]
    rfl
  | cons argument others =>
    have firstOpen := isOpen_after isOpen (generator.follows_emission argument)
    rw [lowerArguments, lower_eq argument isOpen, argumentEmission_cons]
    simp only [bind, Except.bind]
    rw [lowerArguments_eq callee (position + 1) others firstOpen]
    generalize generator.emission argument = first
    obtain ⟨_ | value, code, faults, scopes, temps⟩ := first
    · simp only [after_before]
      exact refuse_eq _ _
    · simp only [after_before]
      rfl

end

end Expr

end Lisplet
