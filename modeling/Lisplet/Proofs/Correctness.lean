import Lisplet.Proofs.CallDepth
import Lisplet.Proofs.Simulation

/-!
# Running a module is evaluating its tree

Each function of the target implements the procedure of its definition: if calls
agree, so do the function and the procedure. By induction on how many calls may
still nest, calls then agree at every depth, and the entry function computes what
evaluating the forms does.
-/

namespace Lisplet

namespace Activation

/-- A look-up finds the number that belongs to the position found. -/
theorem lookup_map_position (numberAt : Nat → Float) (entries : List (String × Nat))
    (name : String) :
    (entries.map fun entry => (entry.1, numberAt entry.2)).lookup name =
      (entries.lookup name).map numberAt := by
  induction entries with
  | nil => rfl
  | cons entry rest inductionHypothesis =>
    obtain ⟨bound, position⟩ := entry
    by_cases same : name = bound
    · simp [same]
    · have passed : (name == bound) = false := beq_eq_false_iff_ne.2 same
      simp [List.lookup_cons, passed, inductionHypothesis]

/-- The argument for a parameter is the one at its last position. -/
theorem argument?_zip {params : List String} {numbers : List Float}
    (length : numbers.length = params.length) (constants : Bindings Float) (name : String) :
    (⟨params.zip numbers, constants⟩ : Activation).argument? name =
      (params.zipIdx.reverse.lookup name).map fun position => numbers.getD position 0.0 := by
  have positions : params.zip numbers =
      params.zipIdx.map fun entry => (entry.1, numbers.getD entry.2 0.0) := by
    apply List.ext_getElem
    · simp [length]
    · intro position inZip inParams
      have bound : position < numbers.length := by
        simp at inZip
        omega
      simp [bound]
  rw [argument?, positions, ← List.map_reverse]
  exact lookup_map_position (fun position => numbers.getD position 0.0) _ name

end Activation

/-- A function starts with a frame that represents its activation: the arguments of
the call and the constants before it. -/
theorem represents_enterFunction {scopes : Scopes} {constants : Bindings Float}
    {functions : List String} (owned : scopes.OwnedBy functions) (tracks : scopes.Tracks constants)
    {function : String} (isNew : function ∉ functions) (temps : TempNames) {params : List String}
    {numbers : List Float} (length : numbers.length = params.length) :
    Represents (scopes.enterFunction function params) temps { function, arguments := numbers }
      ⟨params.zip numbers, constants⟩ := by
  have locals : ∀ name, (scopes.enterFunction function params).locals.get? name =
      (params.zipIdx.reverse.lookup name).map fun position => Value.param position name :=
    Scopes.get?_locals params
  have sameParams : ∀ name, (scopes.enterFunction function params).locals.get? name = none ↔
      (⟨params.zip numbers, constants⟩ : Activation).argument? name = none := by
    intro name
    rw [locals, Activation.argument?_zip length, Option.map_eq_none_iff, Option.map_eq_none_iff]
  refine ⟨?_, sameParams, fun _ _ _ _ => Bindings.get?_empty _⟩
  intro name value resolved
  cases isLocal : (scopes.enterFunction function params).locals.get? name with
  | some parameter =>
    cases (Scopes.resolve_of_local isLocal).symm.trans resolved
    rw [locals] at isLocal
    obtain ⟨position, looked, rfl⟩ := Option.map_eq_some_iff.1 isLocal
    obtain ⟨bound, -⟩ := List.getElem?_eq_some_iff.1 (Scopes.getElem?_of_lookup looked)
    rw [← length] at bound
    refine ⟨numbers.getD position 0.0, by simp [Frame.read, bound], ?_⟩
    rw [Activation.lookup?, Activation.argument?_zip length, looked]
    rfl
  | none =>
    -- A global that can be used here is a constant, because nobody has owned it yet
    -- under the name of this function.
    obtain ⟨global, own⟩ := Scopes.global_of_resolve isLocal resolved
    have ownership := owned name value global
    have constant := tracks name
    rw [show scopes.globals.get? name = some value from global] at constant
    rw [Activation.lookup?, (sameParams name).1 isLocal, Option.none_or]
    cases owner : scopes.owners.get? name with
    | some other =>
      rw [owner] at ownership
      cases own other owner
      exact absurd ownership isNew
    | none =>
      rw [owner] at ownership
      cases value with
      | constant number => exact ⟨number, rfl, constant⟩
      | param position param => cases ownership
      | temp result => cases ownership

/-- Whether a function of the target computes what a procedure does, if the calls
they make agree. -/
structure Implements (arity? : String → Option Nat) (procedure : Procedure)
    (function : Function) : Prop where
  name : procedure.name = function.name
  params : procedure.params = function.params
  runs : ∀ invoke call, CallsAgree arity? invoke call → ∀ numbers : List Float,
    numbers.length = procedure.params.length →
    procedure.run invoke numbers = Target.runBody call function numbers

/-- The function made of an emission runs its code and returns its value. -/
theorem runBody_ofEmission (call : String → List Float → Except EvalError Float) (name : String)
    (params : List String) (emission : Emission Value) (numbers : List Float) :
    Target.runBody call (.ofEmission name params emission) numbers =
      Frame.run call { function := name, arguments := numbers }
        (emission.code ++ [.ret (emission.value.getD Generator.noValue)]) := by
  simp [Target.runBody, Function.isDeclaration, Function.code, Function.ofEmission]

/-- Returning the value of an emission ends what the emission computes. -/
theorem run_return {call : String → List Float → Except EvalError Float}
    {emission : Emission Value} {frame : Frame} {outcome : Except EvalError (Float × Activation)}
    {value : Value} (found : emission.value = some value)
    (computes : emission.Computes call Frame.read frame outcome) :
    frame.run call (emission.code ++ [.ret (emission.value.getD Generator.noValue)]) =
      outcome.map Prod.fst := by
  cases outcome with
  | error error => exact computes _
  | ok done =>
    obtain ⟨later, yields⟩ := computes
    rw [yields.reaches, found]
    exact yields.value value found

/-- A function implements the procedure of its definition if its body is lowered
without findings. -/
theorem implements_ofDefinition {arity? : String → Option Nat} {scopes : Scopes}
    {constants : Bindings Float} {functions : List String} (owned : scopes.OwnedBy functions)
    (tracks : scopes.Tracks constants) {prototype : Prototype} {body : Expr} {temps : TempNames}
    (isNew : prototype.name.value ∉ functions)
    (clean : (bodyEmission arity? prototype body scopes temps).faults = []) :
    Implements arity? (.ofDefinition (prototype, body) constants)
      (.ofEmission prototype.name.value (prototype.params.map Located.value)
        (bodyEmission arity? prototype body scopes temps)) := by
  refine ⟨rfl, rfl, ?_⟩
  intro invoke call agree numbers length
  obtain ⟨value, found⟩ := Expr.exists_value_of_clean clean
  have represents := represents_enterFunction owned tracks isNew temps length
  rw [runBody_ofEmission]
  exact (run_return found (body.computes_emission agree represents clean)).symm

/-- A function leaves the constants behind that its procedure does. -/
theorem tracks_bodyEmission {arity? : String → Option Nat} {scopes : Scopes}
    {constants : Bindings Float} (tracks : scopes.Tracks constants) {prototype : Prototype}
    {body : Expr} {temps : TempNames}
    (clean : (bodyEmission arity? prototype body scopes temps).faults = []) :
    (bodyEmission arity? prototype body scopes temps).scopes.leaveFunction.Tracks
      (Procedure.ofDefinition (prototype, body) constants).constantsAfter := by
  let params := prototype.params.map Located.value
  have locals : (scopes.enterFunction prototype.name.value params).locals =
      Scopes.bindParams 0 params .empty := rfl
  have entered : (scopes.enterFunction prototype.name.value params).Tracks constants := tracks
  exact (body.tracks_emission locals entered clean).2

/-- The functions that definitions are lowered to without findings implement the
procedures of the definitions, and they leave the same constants behind. -/
theorem implements_definitions {arity? : String → Option Nat} {defined : List (Located String)}
    {definitions : List (Prototype × Expr)} {scopes : Scopes} {temps : TempNames}
    {constants : Bindings Float} (owned : scopes.OwnedBy (defined.map Located.value))
    (tracks : scopes.Tracks constants)
    (clean : (Lisplet.definitions arity? defined definitions scopes temps).faults = []) :
    List.Forall₂ (Implements arity?) (proceduresFrom constants definitions).1
        (Lisplet.definitions arity? defined definitions scopes temps).functions ∧
      (Lisplet.definitions arity? defined definitions scopes temps).scopes.Tracks
        (proceduresFrom constants definitions).2 := by
  induction definitions generalizing defined scopes temps constants with
  | nil => exact ⟨.nil, tracks⟩
  | cons definition rest inductionHypothesis =>
    obtain ⟨prototype, body⟩ := definition
    rw [Lisplet.definitions] at clean ⊢
    cases found : defined.find? fun earlier => earlier.value == prototype.name.value with
    | some first => simp [found] at clean
    | none =>
      simp only [found] at clean ⊢
      obtain ⟨bodyClean, restClean⟩ := List.append_eq_nil_iff.1 clean
      have isNew := not_mem_of_find?_name found
      have others := inductionHypothesis (ownedBy_bodyEmission owned arity? prototype body temps)
        (tracks_bodyEmission tracks bodyClean) restClean
      exact ⟨.cons (implements_ofDefinition owned tracks isNew bodyClean) others.1, others.2⟩

namespace Target

variable {target : Target} {procedures : List Procedure}

/-- The function that a name stands for implements the procedure of the name. -/
theorem implements_of_function? {functions : List Function} {name : String} {function : Function}
    (implemented : List.Forall₂ (Implements target.arity?) procedures functions)
    (found : (functions.find? fun function => function.name == name) = some function) :
    ∃ procedure, (procedures.find? fun procedure => procedure.name == name) = some procedure ∧
      Implements target.arity? procedure function := by
  induction implemented with
  | nil => cases found
  | cons implements others inductionHypothesis =>
    rw [List.find?_cons] at found ⊢
    rw [implements.name]
    split at found
    · cases found
      exact ⟨_, rfl, implements⟩
    · exact inductionHypothesis found

/-- Calls agree if running a function is running the procedure that it
implements, unless the call is too deep. -/
theorem callsAgree_of_execute
    (implemented : List.Forall₂ (Implements target.arity?) procedures target.functions)
    {limit remaining depth : Nat}
    (agree : ∀ procedure function numbers, Implements target.arity? procedure function →
      numbers.length = procedure.params.length →
      (if limit < depth then .error (.callDepthExceeded limit)
        else procedure.run (Procedure.callAt procedures limit (depth + 1)) numbers) =
        target.execute limit remaining function numbers) :
    CallsAgree target.arity? (Procedure.callAt procedures limit depth)
      (target.invokeWith (target.execute limit remaining)) := by
  intro name numbers declared
  obtain ⟨function, found, arity⟩ := Option.map_eq_some_iff.1 declared
  obtain ⟨procedure, isProcedure, implements⟩ := implements_of_function? implemented found
  have length : procedure.params.length = numbers.length := by
    rw [implements.params]
    exact arity
  rw [Procedure.callAt_of_find? isProcedure length, invokeWith_of_function? found arity]
  exact agree procedure function numbers implements length.symm

/-- Calls agree at every depth: as many calls may still nest in the target as the
depth leaves. -/
theorem callsAgree_callAt
    (implemented : List.Forall₂ (Implements target.arity?) procedures target.functions)
    (limit remaining depth : Nat) (level : depth + remaining = limit + 1) :
    CallsAgree target.arity? (Procedure.callAt procedures limit depth)
      (target.invokeWith (target.execute limit remaining)) := by
  induction remaining generalizing depth with
  | zero =>
    apply callsAgree_of_execute implemented
    intro procedure function numbers _ _
    rw [if_pos (by omega)]
    rfl
  | succ remaining inductionHypothesis =>
    apply callsAgree_of_execute implemented
    intro procedure function numbers implements length
    rw [if_neg (by omega)]
    exact implements.runs _ _ (inductionHypothesis (depth + 1) (by omega)) numbers length

end Target

/-- The entry function returns what evaluating the forms does, if they are lowered
without findings. -/
theorem run_formsEmission {arity? : String → Option Nat}
    {invoke call : String → List Float → Except EvalError Float}
    (agree : CallsAgree arity? invoke call) {last : Option Value} {lastNumber : Float}
    {forms : List Expr} {scopes : Scopes} {temps : TempNames} {frame : Frame}
    {activation : Activation} (represents : Represents scopes temps frame activation)
    (lastRead : frame.read (last.getD Generator.noValue) = .ok lastNumber)
    (clean : (formsEmission arity? last forms scopes temps).faults = []) :
    frame.run call ((formsEmission arity? last forms scopes temps).code ++
        [.ret ((formsEmission arity? last forms scopes temps).value.getD Generator.noValue)]) =
      evaluateForms invoke lastNumber (forms.filter fun form => form.functionDef?.isNone)
        activation := by
  induction forms generalizing last lastNumber scopes temps frame activation with
  | nil => exact lastRead
  | cons form rest inductionHypothesis =>
    rw [formsEmission] at clean ⊢
    cases defines : form.functionDef? with
    | some definition =>
      simp only [defines] at clean ⊢
      rw [List.filter_cons_of_neg (by simp [defines])]
      exact inductionHypothesis represents lastRead clean
    | none =>
      simp only [defines] at clean ⊢
      rw [List.filter_cons_of_pos (by simp [defines]), evaluateForms]
      obtain ⟨formClean, restClean⟩ := List.append_eq_nil_iff.1 clean
      obtain ⟨value, found⟩ := Expr.exists_value_of_clean formClean
      have first := form.computes_emission agree represents formClean
      rw [Emission.code_before_append]
      cases evaluated : form.evaluate invoke activation with
      | error error =>
        rw [evaluated] at first
        exact first _
      | ok done =>
        rw [evaluated] at first
        obtain ⟨later, yields⟩ := first
        rw [yields.reaches]
        refine inductionHypothesis yields.represents ?_ restClean
        rw [found, Option.some_or]
        exact yields.value value found

namespace Module

/-- Without findings, the functions of the target implement the procedures of the
module, and they leave the same constants behind. -/
theorem implements_procedures {module : Module} {names : TargetNames}
    (reservedClean : module.reservedFaults names = [])
    (functionsClean : (module.definitions names).faults = []) :
    List.Forall₂ (Implements (module.target names).arity?) module.procedures.1
        (module.target names).functions ∧
      (module.definitions names).scopes.Tracks module.procedures.2 := by
  have emptyTracks : ({} : Scopes).Tracks .empty := fun _ => rfl
  have implemented := implements_definitions (Scopes.ownedBy_empty []) emptyTracks functionsClean
  have sameProcedures :
      proceduresFrom .empty (module.userDefinitions names) = module.procedures := by
    rw [userDefinitions_of_clean reservedClean]
    rfl
  rw [sameProcedures] at implemented
  rw [arity?_target]
  exact implemented

/-- Without findings, running the entry function is evaluating the tree. -/
theorem runEntry_target {module : Module} {names : TargetNames}
    (clean : module.faults names = []) (limit : Nat) :
    (module.target names).runEntry limit = module.evaluate limit := by
  obtain ⟨definedClean, entryClean⟩ := List.append_eq_nil_iff.1 clean
  obtain ⟨reservedClean, functionsClean⟩ := List.append_eq_nil_iff.1 definedClean
  obtain ⟨implemented, tracks⟩ := implements_procedures reservedClean functionsClean
  have noArguments : ([] : List Float).length = ([] : List String).length := rfl
  have represents := represents_enterFunction (module.ownedBy_definitions names) tracks
    (module.entry_not_mem_userDefinitions names) (module.definitions names).temps noArguments
  cases limit with
  | zero => rfl
  | succ remaining =>
    have agree := Target.callsAgree_callAt implemented (remaining + 1) remaining 2 (by omega)
    rw [arity?_target] at agree
    have entryRuns := run_formsEmission agree represents rfl entryClean
    rw [evaluate, if_neg (by omega)]
    exact (runBody_ofEmission _ names.entry [] (module.entryEmission names) []).trans entryRuns

/-- Lowering preserves meaning: if a module has no findings, running the entry
function of its target under any limit ends as evaluating its tree under that limit
does, with the same value or with calls that nest too deep. -/
theorem runEntry_lower_eq_evaluate (module : Module) (names : TargetNames) :
    ∃ generator, module.lower names = .ok generator ∧
      (generator.faults = [] → ∀ limit,
        (∃ value, generator.builder.target.runEntry limit = .ok value ∧
          module.evaluate limit = .ok value) ∨
        (generator.builder.target.runEntry limit = .error (.callDepthExceeded limit) ∧
          module.evaluate limit = .error (.callDepthExceeded limit))) := by
  refine ⟨_, module.lower_eq names, ?_⟩
  intro clean limit
  rw [← runEntry_target clean limit]
  have settles := module.settles_runEntry names limit
  by_cases within : (module.target names).Within limit
      (.ofEmission names.entry [] (module.entryEmission names))
  · obtain ⟨value, returned⟩ := settles.1 within
    exact .inl ⟨value, returned, returned⟩
  · exact .inr ⟨settles.2 within, settles.2 within⟩

/-- Constants that functions leave behind, parameters, calls and variables of the
entry function, in a module that has no findings. One call has to nest in the entry function. -/
theorem runEntry_lower_withoutFindings :
    let at0 : Span := .point 0
    let name (word : String) : Located String := ⟨word, at0⟩
    let module : Module := ⟨[
      .functionDef at0 ⟨name "scale", [name "x"], at0⟩
        (.arithmetic at0 .mul (.variableDef at0 (name "factor") (.number at0 3))
          (.identifier at0 "x")),
      .variableDef at0 (name "y") (.call at0 (name "scale") [.number at0 4]),
      .arithmetic at0 .sum (.identifier at0 "y") (.identifier at0 "factor")]⟩
    module.faults {} = [] ∧
      ((module.target {}).runEntry 2 = .ok 15 ∧ module.evaluate 2 = .ok 15) ∧
      ((module.target {}).runEntry 1 = .error (.callDepthExceeded 1) ∧
        module.evaluate 1 = .error (.callDepthExceeded 1)) := by
  intro at0 name module
  have clean : module.faults {} = [] := by
    decide +kernel
  have returns : (module.target {}).runEntry 2 = .ok 15 := by
    decide +kernel
  have exceeds : (module.target {}).runEntry 1 = .error (.callDepthExceeded 1) := by
    decide +kernel
  obtain ⟨generator, lowered, agrees⟩ := module.runEntry_lower_eq_evaluate {}
  cases lowered.symm.trans (module.lower_eq {})
  refine ⟨clean, ⟨returns, ?_⟩, exceeds, ?_⟩
  · rcases agrees clean 2 with ⟨value, run, evaluated⟩ | ⟨run, -⟩
    · cases returns.symm.trans run
      exact evaluated
    · cases returns.symm.trans run
  · rcases agrees clean 1 with ⟨value, run, -⟩ | ⟨-, evaluated⟩
    · cases exceeds.symm.trans run
    · exact evaluated

end Module

end Lisplet
