import Lisplet.Proofs.CleanLowering
import Lisplet.Proofs.ResultNames

/-!
# Running code in step with trees

Code that was lowered without findings does what evaluating its tree does. A frame
represents an activation as long as every name that can be used is read to the
number it stands for; lowering a node keeps it that way, whatever code follows. The
names of results are fresh, so that no later result takes the place of an operand
that is still to be read.
-/

namespace Lisplet

namespace Frame

variable {call : String → List Float → Except EvalError Float} {frame middle later : Frame}

/-- Whether all that can be read in a frame is read the same in a later one. -/
def Keeps (frame later : Frame) : Prop :=
  ∀ value number, frame.read value = .ok number → later.read value = .ok number

theorem Keeps.refl (frame : Frame) : frame.Keeps frame :=
  fun _ _ read => read

theorem Keeps.trans (early : frame.Keeps middle) (late : middle.Keeps later) :
    frame.Keeps later :=
  fun value number read => late value number (early value number read)

/-- A result under a new name leaves all others. -/
theorem keeps_set {name : String} (fresh : frame.temps.get? name = none) (number : Float) :
    frame.Keeps (frame.set name number) := by
  intro value found read
  cases value with
  | constant constant => exact read
  | param index param => exact read
  | temp other =>
    have different : other ≠ name := by
      rintro rfl
      simp [Frame.read, fresh] at read
    simpa [Frame.read, Frame.set, Bindings.get?_bind_of_ne _ _ different] using read

/-- Whether running code leads from one frame to another, whatever comes next. -/
def Reaches (call : String → List Float → Except EvalError Float) (frame : Frame)
    (code : List Instruction) (later : Frame) : Prop :=
  ∀ rest, frame.run call (code ++ rest) = later.run call rest

theorem Reaches.refl (frame : Frame) : frame.Reaches call [] frame :=
  fun _ => rfl

/-- Code in two parts is run one part after the other. -/
theorem Reaches.trans {code more : List Instruction} (early : frame.Reaches call code middle)
    (late : middle.Reaches call more later) : frame.Reaches call (code ++ more) later := by
  intro rest
  rw [List.append_assoc, early, late]

/-- What an operator is lowered to computes what the operator makes of two numbers. -/
theorem reaches_arithmetic {left right : Value} {leftNumber rightNumber : Float}
    (leftRead : frame.read left = .ok leftNumber) (rightRead : frame.read right = .ok rightNumber)
    (operator : Operator) (dest : String) :
    frame.Reaches call [.arithmetic operator.opcode dest left right]
      (frame.set dest (operator.combine leftNumber rightNumber)) := by
  have computes : operator.opcode.apply leftNumber rightNumber =
      operator.combine leftNumber rightNumber := by
    cases operator <;> rfl
  intro rest
  simp [Frame.run, leftRead, rightRead, bind, Except.bind, computes]

/-- A call that is made in a frame goes on with its result or fails as it does. -/
theorem run_call {values : List Value} {numbers : List Float}
    (read : frame.readAll values = .ok numbers) (dest callee : String) (rest : List Instruction) :
    frame.run call ([.call dest callee values] ++ rest) =
      (call callee numbers).bind fun number => (frame.set dest number).run call rest := by
  simp [Frame.run, read, bind, Except.bind]

/-- Values are read one by one. -/
theorem readAll_cons {value : Value} {values : List Value} {number : Float} {numbers : List Float}
    (read : frame.read value = .ok number) (readRest : frame.readAll values = .ok numbers) :
    frame.readAll (value :: values) = .ok (number :: numbers) := by
  simp [Frame.readAll, read, readRest, bind, Except.bind, pure, Except.pure]

end Frame

/-- Whether a frame and an activation are at the same point: names that can be used
stand for the same numbers, the same names are parameters, and no result has a name
that is still to be given. -/
structure Represents (scopes : Scopes) (temps : TempNames) (frame : Frame)
    (activation : Activation) : Prop where
  names : ∀ name value, scopes.resolve name = .value value →
    ∃ number, frame.read value = .ok number ∧ activation.lookup? name = some number
  params : ∀ name, scopes.locals.get? name = none ↔ activation.argument? name = none
  fresh : ∀ stem number, TempNames.IsStem stem → temps.counter ≤ number →
    frame.temps.get? (TempNames.nameOf stem number) = none

namespace Represents

variable {scopes : Scopes} {temps : TempNames} {frame : Frame} {activation : Activation}

/-- A variable is bound in the scopes and in the activation at once. -/
theorem bindGlobal (represents : Represents scopes temps frame activation) (name : String)
    {value : Value} {number : Float} (read : frame.read value = .ok number) :
    Represents (scopes.bindGlobal name value) temps frame (activation.bindGlobal name number) := by
  refine ⟨?_, represents.params, represents.fresh⟩
  intro other bound resolved
  by_cases same : other = name
  · subst same
    cases isLocal : scopes.locals.get? other with
    | some parameter =>
      have isParam : activation.argument? other ≠ none := by
        rw [Ne, ← represents.params other, isLocal]
        exact Option.some_ne_none parameter
      have unchanged := (Scopes.resolve_bindGlobal_of_local isLocal value).symm.trans resolved
      rw [Activation.lookup?_bindGlobal_of_argument isParam]
      exact represents.names other bound ((Scopes.resolve_of_local isLocal).trans unchanged)
    | none =>
      cases (Scopes.resolve_bindGlobal_self isLocal value).symm.trans resolved
      have noArgument := (represents.params other).1 isLocal
      exact ⟨number, read, Activation.lookup?_bindGlobal_self noArgument number⟩
  · rw [Scopes.resolve_bindGlobal_of_ne scopes value same] at resolved
    rw [Activation.lookup?_bindGlobal_of_ne activation same]
    exact represents.names other bound resolved

/-- The next name for a result is not in use. -/
theorem fresh_next (represents : Represents scopes temps frame activation) {stem : String}
    (isStem : TempNames.IsStem stem) : frame.temps.get? (temps.next stem).1 = none :=
  represents.fresh stem temps.counter isStem (Nat.le_refl _)

/-- A result takes the next name, and everything else stays. -/
theorem set (represents : Represents scopes temps frame activation) {stem : String}
    (isStem : TempNames.IsStem stem) (number : Float) :
    Represents scopes (temps.next stem).2 (frame.set (temps.next stem).1 number) activation := by
  refine ⟨?_, represents.params, ?_⟩
  · intro name value resolved
    obtain ⟨found, read, looked⟩ := represents.names name value resolved
    exact ⟨found, Frame.keeps_set (represents.fresh_next isStem) number value found read, looked⟩
  · intro otherStem otherNumber otherIsStem later
    have different : TempNames.nameOf otherStem otherNumber ≠ (temps.next stem).1 := by
      intro same
      have numbers := ((TempNames.nameOf_inj otherIsStem isStem).1 same).2
      have bound : temps.counter + 1 ≤ otherNumber := later
      omega
    rw [Frame.set, Bindings.get?_bind_of_ne _ _ different]
    exact represents.fresh otherStem otherNumber otherIsStem (Nat.le_of_succ_le later)

end Represents

namespace Emission

variable {α β γ δ : Type} {call : String → List Float → Except EvalError Float}
  {frame middle : Frame}

/-- Whether the code of an emission leads to a frame in which the value of the
emission is read to a result, and which represents an activation. -/
structure Yields (call : String → List Float → Except EvalError Float)
    (reads : Frame → α → Except EvalError γ) (frame later : Frame) (emission : Emission α)
    (result : γ) (activation : Activation) : Prop where
  value : ∀ value, emission.value = some value → reads later value = .ok result
  reaches : frame.Reaches call emission.code later
  keeps : frame.Keeps later
  represents : Represents emission.scopes emission.temps later activation

/-- Whether running the code of an emission ends as evaluating does: in step with
the activation, or with the same error. -/
def Computes (call : String → List Float → Except EvalError Float)
    (reads : Frame → α → Except EvalError γ) (frame : Frame) (emission : Emission α) :
    Except EvalError (γ × Activation) → Prop
  | .ok (result, activation) => ∃ later, emission.Yields call reads frame later result activation
  | .error error => ∀ rest, frame.run call (emission.code ++ rest) = .error error

/-- The code of two emissions is that of the first and then that of the second. -/
theorem code_before_append (first : Emission α) (second : Emission β) (rest : List Instruction) :
    (first.before second).code ++ rest = first.code ++ (second.code ++ rest) :=
  List.append_assoc _ _ _

/-- An emission that yields a value leaves the outcome to the one that follows it. -/
theorem Yields.before_computes {reads : Frame → α → Except EvalError γ}
    {readsNext : Frame → β → Except EvalError δ} {first : Emission α} {second : Emission β}
    {result : γ} {activation : Activation} {outcome : Except EvalError (δ × Activation)}
    (early : first.Yields call reads frame middle result activation)
    (late : second.Computes call readsNext middle outcome) :
    (first.before second).Computes call readsNext frame outcome := by
  cases outcome with
  | error error =>
    intro rest
    rw [code_before_append, early.reaches]
    exact late rest
  | ok next =>
    obtain ⟨later, yields⟩ := late
    exact ⟨later, yields.value, early.reaches.trans yields.reaches,
      early.keeps.trans yields.keeps, yields.represents⟩

/-- Emissions run one after another as evaluation goes on from one to the other,
and an error in the first is the error of both. -/
theorem Computes.before {reads : Frame → α → Except EvalError γ}
    {readsNext : Frame → β → Except EvalError δ} {first : Emission α} {second : Emission β}
    {outcome : Except EvalError (γ × Activation)}
    {next : γ × Activation → Except EvalError (δ × Activation)}
    (early : first.Computes call reads frame outcome)
    (late : ∀ later result activation, outcome = .ok (result, activation) →
      first.Yields call reads frame later result activation →
      second.Computes call readsNext later (next (result, activation))) :
    (first.before second).Computes call readsNext frame (outcome >>= next) := by
  cases outcome with
  | error error =>
    intro rest
    rw [code_before_append]
    exact early _
  | ok done =>
    obtain ⟨result, activation⟩ := done
    obtain ⟨later, yields⟩ := early
    exact yields.before_computes (late later result activation rfl yields)

variable {scopes : Scopes} {temps : TempNames} {activation : Activation}

/-- A value that can be read is the outcome by itself. -/
theorem computes_ofValue {reads : Frame → α → Except EvalError γ} {value : α} {result : γ}
    (represents : Represents scopes temps frame activation)
    (read : reads frame value = .ok result) :
    (ofValue scopes temps value).Computes call reads frame (.ok (result, activation)) := by
  refine ⟨frame, ?_, .refl frame, .refl frame, represents⟩
  intro other same
  cases same
  exact read

/-- An instruction that leads to a frame with its result yields the result. -/
theorem yields_result (represents : Represents scopes temps frame activation) {stem : String}
    (isStem : TempNames.IsStem stem) {instruction : String → Instruction} {number : Float}
    (reaches : frame.Reaches call [instruction (temps.next stem).1]
      (frame.set (temps.next stem).1 number)) :
    (result scopes temps stem instruction).Yields call Frame.read frame
      (frame.set (temps.next stem).1 number) number activation := by
  refine ⟨?_, reaches, Frame.keeps_set (represents.fresh_next isStem) number,
    represents.set isStem number⟩
  intro value same
  cases same
  simp [Frame.read, Frame.set]

/-- A call computes what the function called does. -/
theorem computes_call (represents : Represents scopes temps frame activation)
    {values : List Value} {numbers : List Float} (read : frame.readAll values = .ok numbers)
    (callee : String) :
    (result scopes temps "call" fun dest => .call dest callee values).Computes call Frame.read
      frame (call callee numbers >>= fun number => .ok (number, activation)) := by
  cases returned : call callee numbers with
  | error error =>
    intro rest
    exact (Frame.run_call read _ callee rest).trans (by rw [returned]; rfl)
  | ok number =>
    refine ⟨_, yields_result represents TempNames.isStem_call ?_⟩
    intro rest
    exact (Frame.run_call read _ callee rest).trans (by rw [returned]; rfl)

end Emission

/-- Whether two ways to make calls have the same outcome on all declared functions
with the right number of arguments. -/
def CallsAgree (arity? : String → Option Nat)
    (invoke call : String → List Float → Except EvalError Float) : Prop :=
  ∀ name arguments, arity? name = some arguments.length →
    invoke name arguments = call name arguments

namespace Expr

open Emission

variable {arity? : String → Option Nat}
  {invoke call : String → List Float → Except EvalError Float} {frame : Frame}

/-- Every argument has a number. -/
theorem length_evaluateArguments {arguments : List Expr} {activation later : Activation}
    {numbers : List Float}
    (evaluated : evaluateArguments invoke arguments activation = .ok (numbers, later)) :
    numbers.length = arguments.length := by
  induction arguments generalizing activation numbers later with
  | nil =>
    rw [evaluateArguments] at evaluated
    cases evaluated
    rfl
  | cons argument others inductionHypothesis =>
    rw [evaluateArguments] at evaluated
    cases first : argument.evaluate invoke activation with
    | error error =>
      rw [first] at evaluated
      cases evaluated
    | ok done =>
      rw [first] at evaluated
      cases rest : evaluateArguments invoke others done.2 with
      | error error => simp [bind, Except.bind, rest] at evaluated
      | ok restDone =>
        have length := inductionHypothesis rest
        simp only [bind, Except.bind, rest] at evaluated
        cases evaluated
        simp [length]

mutual

/-- Code that a node is lowered to without findings computes what evaluating the
node does. -/
theorem computes_emission (agree : CallsAgree arity? invoke call) (node : Expr) {scopes : Scopes}
    {temps : TempNames} {activation : Activation} {frame : Frame}
    (represents : Represents scopes temps frame activation)
    (clean : (node.emission arity? scopes temps).faults = []) :
    (node.emission arity? scopes temps).Computes call Frame.read frame
      (node.evaluate invoke activation) := by
  cases node with
  | number span value =>
    rw [emission, evaluate]
    exact computes_ofValue represents rfl
  | identifier span name =>
    obtain ⟨value, resolved, emitted⟩ := emission_identifier_of_clean clean
    obtain ⟨number, read, looked⟩ := represents.names name value resolved
    rw [emitted, evaluate, looked]
    exact computes_ofValue represents read
  | text span body =>
    rw [emission] at clean
    cases clean
  | list span items =>
    rw [emission] at clean
    cases clean
  | functionDef span prototype body =>
    rw [emission] at clean
    cases clean
  | arithmetic span operator left right =>
    obtain ⟨leftClean, rightClean, leftValue, rightValue, leftFound, rightFound, emitted⟩ :=
      emission_arithmetic_of_clean clean
    rw [emitted, evaluate]
    refine (computes_emission agree left represents leftClean).before ?_
    intro middle leftNumber between _ leftYields
    refine (computes_emission agree right leftYields.represents rightClean).before ?_
    intro later rightNumber after _ rightYields
    -- The left operand was read before the right one was computed.
    have leftRead := rightYields.keeps _ _ (leftYields.value leftValue leftFound)
    have rightRead := rightYields.value rightValue rightFound
    exact ⟨_, yields_result rightYields.represents (TempNames.isStem_operator operator)
      (Frame.reaches_arithmetic leftRead rightRead operator _)⟩
  | variableDef span name initializer =>
    obtain ⟨firstClean, value, found, emitted⟩ := emission_variableDef_of_clean clean
    have first := computes_emission agree initializer represents firstClean
    rw [emitted, evaluate]
    cases evaluated : initializer.evaluate invoke activation with
    | error error =>
      rw [evaluated] at first
      exact first
    | ok done =>
      rw [evaluated] at first
      obtain ⟨later, yields⟩ := first
      exact ⟨later, yields.value, yields.reaches, yields.keeps,
        yields.represents.bindGlobal name.value (yields.value value found)⟩
  | call span callee arguments =>
    obtain ⟨declared, firstClean, values, found, emitted⟩ := emission_call_of_clean clean
    rw [emitted, evaluate]
    refine (computes_argumentEmission agree callee 1 arguments represents firstClean).before ?_
    intro middle numbers between evaluated yields
    have read := yields.value values found
    rw [← length_evaluateArguments evaluated] at declared
    dsimp only
    rw [agree callee.value numbers declared]
    exact computes_call yields.represents read callee.value

/-- Code that arguments are lowered to without findings computes what evaluating the
arguments does. -/
theorem computes_argumentEmission (agree : CallsAgree arity? invoke call)
    (callee : Located String) (position : Nat) (arguments : List Expr) {scopes : Scopes}
    {temps : TempNames} {activation : Activation} {frame : Frame}
    (represents : Represents scopes temps frame activation)
    (clean : (argumentEmission arity? callee position arguments scopes temps).faults = []) :
    (argumentEmission arity? callee position arguments scopes temps).Computes call Frame.readAll
      frame (evaluateArguments invoke arguments activation) := by
  cases arguments with
  | nil =>
    rw [argumentEmission, evaluateArguments]
    exact computes_ofValue represents rfl
  | cons argument others =>
    obtain ⟨firstClean, othersClean, value, values, found, foundRest, emitted⟩ :=
      argumentEmission_cons_of_clean clean
    rw [emitted, evaluateArguments]
    refine (computes_emission agree argument represents firstClean).before ?_
    intro middle number between _ yields
    have rest := computes_argumentEmission agree callee (position + 1) others yields.represents
      othersClean
    dsimp only
    cases evaluated : evaluateArguments invoke others between with
    | error error =>
      rw [evaluated] at rest
      exact rest
    | ok done =>
      rw [evaluated] at rest
      obtain ⟨later, restYields⟩ := rest
      refine ⟨later, ?_, restYields.reaches, restYields.keeps, restYields.represents⟩
      intro all same
      cases same
      exact Frame.readAll_cons (restYields.keeps _ _ (yields.value value found))
        (restYields.value values foundRest)

end

end Expr

end Lisplet
