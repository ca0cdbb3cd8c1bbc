import Lisplet.Proofs.Emission

/-!
# What lowering a module comes to

Lowering a module never fails. `Module.lower_eq` gives its outcome in full: the
functions made of the definitions that count, in order, the entry function made
of the remaining forms, and the findings of all of them. Everything is said by
the emissions of function bodies and forms, so the laws of generated code need
not look at builders.
-/

namespace Lisplet

namespace Prototype

/-- The function that a prototype declares. -/
def declaration (prototype : Prototype) : Function :=
  ⟨prototype.name.value, prototype.params.map Located.value, []⟩

end Prototype

namespace Function

/-- The function that returns what an emission computes. -/
def ofEmission (name : String) (params : List String) (emission : Emission Value) : Function :=
  ⟨name, params, [⟨Generator.entryLabel,
    emission.code ++ [.ret (emission.value.getD Generator.noValue)]⟩]⟩

end Function

/-- What giving functions their bodies contributes: the functions, the findings,
and the scopes and the number of the next result afterwards. -/
structure Definitions where
  functions : List Function
  faults : List LoweringFault
  scopes : Scopes
  temps : TempNames

/-- What lowering the body of a function contributes. -/
def bodyEmission (arity? : String → Option Nat) (prototype : Prototype) (body : Expr)
    (scopes : Scopes) (temps : TempNames) : Emission Value :=
  body.emission arity?
    (scopes.enterFunction prototype.name.value (prototype.params.map Located.value)) temps

/-- What giving functions their bodies contributes, one after another. -/
def definitions (arity? : String → Option Nat) (defined : List (Located String)) :
    List (Prototype × Expr) → Scopes → TempNames → Definitions
  | [], scopes, temps => ⟨[], [], scopes, temps⟩
  | (prototype, body) :: rest, scopes, temps =>
    match defined.find? fun earlier => earlier.value == prototype.name.value with
    | some first =>
      let others := definitions arity? defined rest scopes temps
      { others with faults := .redefinition prototype.name first.span :: others.faults }
    | none =>
      let own := bodyEmission arity? prototype body scopes temps
      let others := definitions arity? (prototype.name :: defined) rest own.scopes.leaveFunction
        own.temps
      { others with
        functions := .ofEmission prototype.name.value (prototype.params.map Located.value) own ::
          others.functions
        faults := own.faults ++ others.faults }

/-- What lowering the forms that define no function contributes. -/
def formsEmission (arity? : String → Option Nat) (last : Option Value) :
    List Expr → Scopes → TempNames → Emission Value
  | [], scopes, temps => ⟨last, [], [], scopes, temps⟩
  | form :: rest, scopes, temps =>
    match form.functionDef? with
    | some _ => formsEmission arity? last rest scopes temps
    | none =>
      let first := form.emission arity? scopes temps
      first.before (formsEmission arity? (first.value.or last) rest first.scopes first.temps)

/-- The definitions that count: the first of each name that is not taken. -/
def firstDefinitions (taken : List String) : List (Prototype × Expr) → List (Prototype × Expr)
  | [] => []
  | definition :: rest =>
    if definition.1.name.value ∈ taken then
      firstDefinitions taken rest
    else
      definition :: firstDefinitions (definition.1.name.value :: taken) rest

namespace Module

/-- The definitions that do not claim the name of the entry function. -/
def userDefinitions (module : Module) (names : TargetNames) : List (Prototype × Expr) :=
  module.functionDefs.filter fun definition => !(definition.1.name.value == names.entry)

/-- The findings on definitions that claim the name of the entry function. -/
def reservedFaults (module : Module) (names : TargetNames) : List LoweringFault :=
  (module.functionDefs.filter fun definition => definition.1.name.value == names.entry).map
    fun definition => .reservedName definition.1.name

/-- The module of target code in which all functions are declared and none is
defined. -/
def declared (module : Module) (names : TargetNames) : Target where
  name := names.module
  functions := (firstDefinitions [] (module.userDefinitions names)).map
    fun definition => definition.1.declaration

/-- What giving the functions of a module their bodies contributes. -/
def definitions (module : Module) (names : TargetNames) : Definitions :=
  Lisplet.definitions (module.declared names).arity? [] (module.userDefinitions names) {} {}

/-- What lowering the remaining forms of a module contributes. -/
def entryEmission (module : Module) (names : TargetNames) : Emission Value :=
  formsEmission (module.declared names).arity? none module.forms
    ((module.definitions names).scopes.enterFunction names.entry [])
    (module.definitions names).temps

/-- The module of target code that a module is lowered to. -/
def target (module : Module) (names : TargetNames) : Target where
  name := names.module
  functions := (module.definitions names).functions
  entry := some (.ofEmission names.entry [] (module.entryEmission names))

/-- The findings on a module, in the order in which they are made. -/
def faults (module : Module) (names : TargetNames) : List LoweringFault :=
  module.reservedFaults names ++ (module.definitions names).faults ++
    (module.entryEmission names).faults

end Module

/-- Names of definitions that count are not taken. -/
theorem not_mem_taken_of_mem_firstDefinitions {taken : List String}
    {definitions : List (Prototype × Expr)} {definition : Prototype × Expr}
    (member : definition ∈ firstDefinitions taken definitions) :
    definition.1.name.value ∉ taken := by
  induction definitions generalizing taken with
  | nil => cases member
  | cons first rest inductionHypothesis =>
    rw [firstDefinitions] at member
    split at member
    · exact inductionHypothesis member
    · rename_i free
      rcases List.mem_cons.1 member with rfl | later
      · exact free
      · exact fun taken => inductionHypothesis later (List.mem_cons_of_mem _ taken)

/-- Only which names are taken matters, not their order. -/
theorem firstDefinitions_congr {taken other : List String}
    (same : ∀ name, name ∈ taken ↔ name ∈ other) (definitions : List (Prototype × Expr)) :
    firstDefinitions taken definitions = firstDefinitions other definitions := by
  induction definitions generalizing taken other with
  | nil => rfl
  | cons first rest inductionHypothesis =>
    have extended : ∀ name, name ∈ first.1.name.value :: taken ↔
        name ∈ first.1.name.value :: other := by
      simp [same]
    simp only [firstDefinitions, same, inductionHypothesis same, inductionHypothesis extended]

namespace Target

/-- A name that is not among those of the functions has none. -/
theorem function?_eq_none_iff {target : Target} {name : String} :
    target.function? name = none ↔ name ∉ target.functions.map Function.name := by
  simp [function?]

/-- A function that is there already is left as it is. -/
theorem declare_of_mem {target : Target} {name : String}
    (member : name ∈ target.functions.map Function.name) (params : List String) :
    (target.declare name params).2 = target := by
  cases found : target.function? name with
  | none => exact absurd member (function?_eq_none_iff.1 found)
  | some function => simp [declare, found]

/-- A new function comes last, without a body. -/
theorem declare_of_not_mem {target : Target} {name : String}
    (free : name ∉ target.functions.map Function.name) (params : List String) :
    (target.declare name params).2 =
      { target with functions := target.functions ++ [⟨name, params, []⟩] } := by
  simp [declare, function?_eq_none_iff.2 free]

end Target

namespace Generator

/-- Replace the functions of the code made so far. -/
def withFunctions (generator : Generator) (functions : List Function) : Generator :=
  { generator with
    builder := { generator.builder with
      target := { generator.builder.target with functions } } }

/-- Declaring definitions adds a declaration for each that counts. -/
theorem foldl_declare (definitions : List (Prototype × Expr)) (generator : Generator) :
    definitions.foldl (fun generator definition => generator.declare definition.1) generator =
      generator.withFunctions (generator.builder.target.functions ++
        (firstDefinitions (generator.builder.target.functions.map Function.name) definitions).map
          fun definition => definition.1.declaration) := by
  induction definitions generalizing generator with
  | nil => simp [firstDefinitions, withFunctions]
  | cons first rest inductionHypothesis =>
    rw [List.foldl_cons, inductionHypothesis]
    by_cases taken : first.1.name.value ∈ generator.builder.target.functions.map Function.name
    · simp only [declare, Builder.declareFunction, Target.declare_of_mem taken, firstDefinitions,
        if_pos taken]
    · have sameNames : ∀ name,
          name ∈ generator.builder.target.functions.map Function.name ++ [first.1.name.value] ↔
            name ∈ first.1.name.value :: generator.builder.target.functions.map Function.name := by
        simp [or_comm]
      simp only [declare, Builder.declareFunction, Target.declare_of_not_mem taken,
        firstDefinitions, if_neg taken, List.map_append, List.map_cons, List.map_nil,
        firstDefinitions_congr sameNames, withFunctions, List.append_assoc,
        List.singleton_append, Prototype.declaration]

end Generator

/-- A name that is found among the defined ones is taken. -/
theorem mem_of_find?_name {defined : List (Located String)} {first : Located String}
    {name : String} (found : defined.find? (fun earlier => earlier.value == name) = some first) :
    name ∈ defined.map Located.value := by
  have same : first.value = name := by simpa using List.find?_some found
  exact same ▸ List.mem_map_of_mem (List.mem_of_find?_eq_some found)

/-- A name that is not found among the defined ones is free. -/
theorem not_mem_of_find?_name {defined : List (Located String)} {name : String}
    (found : defined.find? (fun earlier => earlier.value == name) = none) :
    name ∉ defined.map Located.value := by
  simpa using found

/-- The name and the parameters of a function. -/
def Function.signature (function : Function) : String × List String :=
  (function.name, function.params)

namespace Target

variable {target : Target} {earlier later : List Function} {function : Function}

/-- A function is found by its name if no earlier one bears it. -/
theorem function?_middle (functions : target.functions = earlier ++ function :: later)
    (apart : ∀ other ∈ earlier, other.name ≠ function.name) :
    target.function? function.name = some function := by
  have passed : earlier.find? (fun other => other.name == function.name) = none := by
    simpa using apart
  simp [function?, functions, passed]

/-- Changing one function by its name leaves the functions around it. -/
theorem modifyFunction_middle (functions : target.functions = earlier ++ function :: later)
    (apart : ∀ other ∈ earlier ++ later, other.name ≠ function.name)
    (change : Function → Function) :
    target.modifyFunction function.name change =
      { target with functions := earlier ++ change function :: later } := by
  have kept : ∀ other ∈ earlier ++ later,
      (if other.name == function.name then change other else other) = id other := by
    intro other member
    simp [apart other member]
  have keptBefore := List.map_congr_left fun other member =>
    kept other (List.mem_append_left later member)
  have keptAfter := List.map_congr_left fun other member =>
    kept other (List.mem_append_right earlier member)
  simp only [modifyFunction, functions, List.map_append, List.map_cons, keptBefore, keptAfter,
    List.map_id, beq_self_eq_true, if_true]

/-- Arities depend on the names and the parameters of functions only. -/
theorem arity?_congr {other : Target}
    (same : target.functions.map Function.signature = other.functions.map Function.signature) :
    target.arity? = other.arity? := by
  have byPrototype : ∀ target : Target, target.arity? = fun name =>
      ((target.functions.map Function.signature).find? fun signature =>
        signature.1 == name).map fun signature => signature.2.length := by
    intro target
    funext name
    simp only [arity?, function?, List.find?_map, Option.map_map]
    rfl
  rw [byPrototype target, byPrototype other, same]

/-- A function may be replaced by one of the same name and parameters. -/
theorem arity?_replace (functions : target.functions = earlier ++ function :: later)
    {replacement : Function} (sameName : replacement.name = function.name)
    (sameParams : replacement.params = function.params) :
    ({ target with functions := earlier ++ replacement :: later } : Target).arity? =
      target.arity? := by
  apply arity?_congr
  simp [functions, Function.signature, sameName, sameParams]

end Target

namespace Function

/-- A new block takes instructions. -/
theorem isOpen_appendBlock (function : Function) (label : String) :
    (function.appendBlock ⟨label, []⟩).IsOpen :=
  ⟨⟨label, []⟩, by simp [appendBlock], rfl⟩

theorem write_declaration (prototype : Prototype) (label : String) (code : List Instruction) :
    (prototype.declaration.appendBlock ⟨label, []⟩).write code =
      ⟨prototype.name.value, prototype.params.map Located.value, [⟨label, code⟩]⟩ := by
  simp [Prototype.declaration, appendBlock, write, modifyLastBlock, Block.write]

end Function

namespace Builder

/-- The builder at work on one function, with the given functions around it. -/
def inside (target : Target) (earlier : List Function) (function : Function)
    (later : List Function) : Builder :=
  ⟨{ target with functions := earlier ++ function :: later }, some (.function function.name)⟩

variable {target : Target} {earlier later : List Function} {function : Function}

theorem currentFunction?_inside (apart : ∀ other ∈ earlier, other.name ≠ function.name) :
    (inside target earlier function later).currentFunction? = some function :=
  Target.function?_middle rfl apart

theorem write_inside (apart : ∀ other ∈ earlier ++ later, other.name ≠ function.name)
    (code : List Instruction) :
    (inside target earlier function later).write code =
      inside target earlier (function.write code) later := by
  have functions : ({ target with functions := earlier ++ function :: later } : Target).functions =
      earlier ++ function :: later := rfl
  have written := Target.modifyFunction_middle functions apart fun found => found.write code
  simp only [write, inside, modifyAt, written, Function.write_name]

/-- A declared function whose name is its own gets a first block. -/
theorem carryOut_appendBlock_eq_inside {builder : Builder}
    (functions : builder.target.functions = earlier ++ function :: later)
    (apart : ∀ other ∈ earlier ++ later, other.name ≠ function.name) (label : String) :
    builder.carryOut (appendBlock function.name label) =
      (.ok (), inside builder.target earlier (function.appendBlock ⟨label, []⟩) later) := by
  have found := Target.function?_middle functions fun other member =>
    apart other (List.mem_append_left later member)
  simp only [carryOut_appendBlock, found, Target.modifyFunction_middle functions apart]
  rfl

theorem write_createEntry (builder : Builder) (name label : String) (code : List Instruction) :
    (builder.createEntry name label).write code =
      ⟨{ builder.target with entry := some ⟨name, [], [⟨label, code⟩]⟩ }, some .entry⟩ := by
  simp [createEntry, write, modifyAt, Function.write, Function.modifyLastBlock, Block.write]

end Builder

namespace Generator

/-- An open builder accepts a return. -/
theorem emitReturn_eq {generator : Generator} (isOpen : generator.builder.IsOpen) (span : Span)
    (value : Value) :
    generator.emitReturn span value =
      .ok { generator with builder := generator.builder.write [.ret value] } := by
  simp [emitReturn, build, Builder.buildReturn, isOpen.carryOut_push, bind, Except.bind]

/-- The state in which the body of a definition is lowered. -/
def atBody (generator : Generator) (prototype : Prototype) (earlier later : List Function) :
    Generator :=
  { generator with
    builder := .inside generator.builder.target earlier
      (prototype.declaration.appendBlock ⟨entryLabel, []⟩) later
    scopes := generator.scopes.enterFunction prototype.name.value
      (prototype.params.map Located.value) }

/-- The state once a function has got its body. -/
def withBody (generator : Generator) (prototype : Prototype) (own : Emission Value)
    (earlier later : List Function) : Generator where
  builder := ⟨{ generator.builder.target with
    functions := earlier ++
      .ofEmission prototype.name.value (prototype.params.map Located.value) own :: later }, none⟩
  scopes := own.scopes.leaveFunction
  temps := own.temps
  faults := generator.faults ++ own.faults

/-- Turn to a declared function and start its first block. -/
def beginFunction (generator : Generator) (prototype : Prototype) :
    Except BuilderFailure Generator := do
  let ((), opened) ← (generator.declare prototype).build prototype.span
    (Builder.appendBlock prototype.name.value entryLabel)
  .ok (opened.enter prototype.name.value)

/-- A function is entered, its body is lowered, and the value is returned. -/
theorem defineFunction_eq_beginFunction (generator : Generator) (prototype : Prototype)
    (body : Expr) :
    generator.defineFunction prototype body = (do
      let entered ← generator.beginFunction prototype
      let (value, lowered) ← body.lower entered
      let returned ← lowered.emitReturn body.span (value.getD noValue)
      .ok returned.leave) := by
  rw [defineFunction, beginFunction]
  dsimp only
  cases (generator.declare prototype).build prototype.span
    (Builder.appendBlock prototype.name.value entryLabel) <;> rfl

section Definition

variable {generator : Generator} {prototype : Prototype} {earlier later : List Function}

theorem isOpen_atBody (apart : ∀ other ∈ earlier, other.name ≠ prototype.name.value) :
    (generator.atBody prototype earlier later).builder.IsOpen :=
  ⟨_, Builder.currentFunction?_inside apart, Function.isOpen_appendBlock _ entryLabel⟩

theorem emission_atBody
    (functions : generator.builder.target.functions = earlier ++ prototype.declaration :: later)
    (body : Expr) :
    (generator.atBody prototype earlier later).emission body =
      bodyEmission generator.builder.target.arity? prototype body generator.scopes
        generator.temps := by
  have sameArities : (generator.atBody prototype earlier later).builder.target.arity? =
      generator.builder.target.arity? :=
    Target.arity?_replace functions rfl rfl
  rw [emission, sameArities]
  rfl

/-- A declared function whose name is its own is entered at the start of its body. -/
theorem beginFunction_eq
    (functions : generator.builder.target.functions = earlier ++ prototype.declaration :: later)
    (apart : ∀ other ∈ earlier ++ later, other.name ≠ prototype.name.value) :
    generator.beginFunction prototype = .ok (generator.atBody prototype earlier later) := by
  have declared : generator.declare prototype = generator := by
    simp [declare, Builder.declareFunction, Target.declare_of_mem, functions,
      Prototype.declaration]
  have current : (Builder.inside generator.builder.target earlier
      (prototype.declaration.appendBlock ⟨entryLabel, []⟩) later).currentFunction? = _ :=
    Builder.currentFunction?_inside fun other member =>
      apart other (List.mem_append_left later member)
  have appended : generator.builder.carryOut
      (Builder.appendBlock prototype.name.value entryLabel) = _ :=
    Builder.carryOut_appendBlock_eq_inside functions apart entryLabel
  rw [beginFunction, declared]
  simp only [build, appended, bind, Except.bind, enter, current]
  rfl

/-- A definition is lowered in the function that it declares. -/
theorem defineFunction_eq_atBody (body : Expr)
    (functions : generator.builder.target.functions = earlier ++ prototype.declaration :: later)
    (apart : ∀ other ∈ earlier ++ later, other.name ≠ prototype.name.value) :
    generator.defineFunction prototype body = (do
      let (value, lowered) ← body.lower (generator.atBody prototype earlier later)
      let returned ← lowered.emitReturn body.span (value.getD noValue)
      .ok returned.leave) := by
  rw [defineFunction_eq_beginFunction, beginFunction_eq functions apart]
  rfl

/-- Once its body is lowered, a function returns its value. -/
theorem leave_atBody (apart : ∀ other ∈ earlier ++ later, other.name ≠ prototype.name.value)
    (own : Emission Value) :
    let lowered := (generator.atBody prototype earlier later).after own
    ({ lowered with
      builder := lowered.builder.write [.ret (own.value.getD noValue)] } : Generator).leave =
      generator.withBody prototype own earlier later := by
  have written : (Builder.inside generator.builder.target earlier
      (prototype.declaration.appendBlock ⟨entryLabel, []⟩) later).write
        (own.code ++ [.ret (own.value.getD noValue)]) = _ :=
    Builder.write_inside apart _
  simp only [Generator.after, atBody, leave, ← Builder.write_append, written,
    Function.write_declaration]
  rfl

/-- A declared function whose name is its own gets the body that its definition
emits. -/
theorem defineFunction_eq (body : Expr)
    (functions : generator.builder.target.functions = earlier ++ prototype.declaration :: later)
    (apart : ∀ other ∈ earlier ++ later, other.name ≠ prototype.name.value) :
    generator.defineFunction prototype body =
      .ok (generator.withBody prototype (bodyEmission generator.builder.target.arity? prototype
        body generator.scopes generator.temps) earlier later) := by
  have bodyOpen : (generator.atBody prototype earlier later).builder.IsOpen :=
    isOpen_atBody fun other member => apart other (List.mem_append_left later member)
  rw [defineFunction_eq_atBody body functions apart, Expr.lower_eq body bodyOpen]
  simp only [bind, Except.bind]
  rw [emitReturn_eq (isOpen_after bodyOpen (follows_emission _ body)),
    emission_atBody functions body]
  simp only [leave_atBody apart]

/-- Giving a declared function its body keeps the arities. -/
theorem arity?_withBody
    (functions : generator.builder.target.functions = earlier ++ prototype.declaration :: later)
    (own : Emission Value) :
    (generator.withBody prototype own earlier later).builder.target.arity? =
      generator.builder.target.arity? :=
  Target.arity?_replace functions rfl rfl

end Definition

/-- The first definition that counts stands apart from the functions defined so
far and from those still declared. -/
theorem apart_of_free {defined : List String} {earlier : List Function} {prototype : Prototype}
    (rest : List (Prototype × Expr)) (named : ∀ function ∈ earlier, function.name ∈ defined)
    (free : prototype.name.value ∉ defined) :
    ∀ other ∈ earlier ++ (firstDefinitions (prototype.name.value :: defined) rest).map
      (fun definition => definition.1.declaration), other.name ≠ prototype.name.value := by
  intro other member same
  rcases List.mem_append.1 member with before | after
  · exact free (same ▸ named other before)
  · obtain ⟨definition, counts, rfl⟩ := List.mem_map.1 after
    have fresh := not_mem_taken_of_mem_firstDefinitions counts
    exact fresh (List.mem_cons.2 (.inl same))

/-- A function that got its body is among the defined ones. -/
theorem named_append {defined : List (Located String)} {earlier : List Function}
    {function : Function} {name : Located String}
    (named : ∀ other ∈ earlier, other.name ∈ defined.map Located.value)
    (same : function.name = name.value) :
    ∀ other ∈ earlier ++ [function], other.name ∈ (name :: defined).map Located.value := by
  intro other member
  rcases List.mem_append.1 member with before | last
  · exact List.mem_cons_of_mem _ (named other before)
  · rw [List.mem_singleton.1 last, same]
    exact List.mem_cons_self

/-- Functions get their bodies one after another. Those defined so far are
`earlier`; the others are declared in the order of the definitions that count. -/
theorem defineFunctions_eq (defined : List (Located String))
    (definitions : List (Prototype × Expr)) {generator : Generator} {earlier : List Function}
    (idle : generator.builder.insertPoint = none)
    (functions : generator.builder.target.functions = earlier ++
      (firstDefinitions (defined.map Located.value) definitions).map
        fun definition => definition.1.declaration)
    (named : ∀ function ∈ earlier, function.name ∈ defined.map Located.value) :
    defineFunctions defined definitions generator =
      let made := Lisplet.definitions generator.builder.target.arity? defined definitions
        generator.scopes generator.temps
      .ok {
        builder := ⟨{ generator.builder.target with
          functions := earlier ++ made.functions }, none⟩
        scopes := made.scopes
        temps := made.temps
        faults := generator.faults ++ made.faults } := by
  induction definitions generalizing defined generator earlier with
  | nil =>
    obtain ⟨⟨⟨name, present, entry⟩, point⟩, scopes, temps, faults⟩ := generator
    cases idle
    cases functions
    simp [defineFunctions, Lisplet.definitions, firstDefinitions]
  | cons definition rest inductionHypothesis =>
    obtain ⟨prototype, body⟩ := definition
    rw [defineFunctions, Lisplet.definitions]
    cases found : defined.find? fun name => name.value == prototype.name.value with
    | some first =>
      rw [firstDefinitions, if_pos (mem_of_find?_name found)] at functions
      let recorded := generator.record (.redefinition prototype.name first.span)
      have others : defineFunctions defined rest recorded = _ :=
        inductionHypothesis defined idle functions named
      dsimp only
      rw [others]
      simp [recorded, record]
    | none =>
      have free := not_mem_of_find?_name found
      rw [firstDefinitions, if_neg free] at functions
      dsimp only
      rw [defineFunction_eq body functions (apart_of_free rest named free)]
      simp only [bind, Except.bind]
      rw [inductionHypothesis (prototype.name :: defined) rfl (List.append_cons _ _ _)
        (named_append named rfl), arity?_withBody functions]
      simp [withBody]

/-- In an open builder, the forms that define no function are lowered to what
they emit. -/
theorem lowerForms_eq (last : Option Value) (forms : List Expr) {generator : Generator}
    (isOpen : generator.builder.IsOpen) :
    lowerForms last forms generator =
      let emitted := formsEmission generator.builder.target.arity? last forms generator.scopes
        generator.temps
      .ok (emitted.value, generator.after emitted) := by
  induction forms generalizing last generator with
  | nil => simp [lowerForms, formsEmission, after]
  | cons form rest inductionHypothesis =>
    rw [lowerForms, formsEmission]
    cases form.functionDef? with
    | some definition => exact inductionHypothesis last isOpen
    | none =>
      have formOpen := isOpen_after isOpen (generator.follows_emission form)
      dsimp only
      rw [Expr.lower_eq form isOpen]
      simp only [bind, Except.bind]
      rw [inductionHypothesis _ formOpen, arity?_after]
      dsimp only
      rw [after_before]
      rfl

/-- Lowering forms is made of steps. -/
theorem follows_formsEmission (arity? : String → Option Nat) (last : Option Value)
    (forms : List Expr) (scopes : Scopes) (temps : TempNames) :
    (formsEmission arity? last forms scopes temps).Follows scopes temps := by
  induction forms generalizing last scopes temps with
  | nil => exact .refl
  | cons form rest inductionHypothesis =>
    rw [formsEmission]
    split
    · exact inductionHypothesis last scopes temps
    · exact (form.follows_emission arity? scopes temps).before (inductionHypothesis _ _ _)

/-- Make the entry function and turn to it. -/
def beginEntry (generator : Generator) (name : String) : Generator :=
  { generator with
    builder := generator.builder.createEntry name entryLabel
    scopes := generator.scopes.enterFunction name [] }

theorem isOpen_beginEntry (generator : Generator) (name : String) :
    (generator.beginEntry name).builder.IsOpen :=
  ⟨⟨name, [], [⟨entryLabel, []⟩]⟩, rfl, ⟨entryLabel, []⟩, rfl, rfl⟩

/-- The entry function returns what the remaining forms emit. -/
theorem defineEntry_eq (generator : Generator) (name : String) (forms : List Expr) :
    generator.defineEntry name forms =
      let emitted := formsEmission generator.builder.target.arity? none forms
        (generator.scopes.enterFunction name []) generator.temps
      .ok {
        builder := ⟨{ generator.builder.target with
          entry := some (.ofEmission name [] emitted) }, none⟩
        scopes := emitted.scopes
        temps := emitted.temps
        faults := generator.faults ++ emitted.faults } := by
  have enteredOpen := generator.isOpen_beginEntry name
  have lowered : lowerForms none forms (generator.beginEntry name) = _ :=
    lowerForms_eq none forms enteredOpen
  rw [defineEntry]
  change (lowerForms none forms (generator.beginEntry name)).bind _ = _
  rw [lowered]
  simp only [bind, Except.bind]
  rw [emitReturn_eq (isOpen_after enteredOpen (follows_formsEmission _ _ _ _ _))]
  simp only [beginEntry, after, Builder.write_createEntry]
  rfl

end Generator

/-- The functions that are defined are those that were declared, in the same
order. -/
theorem signature_definitions (arity? : String → Option Nat) (defined : List (Located String))
    (definitions : List (Prototype × Expr)) (scopes : Scopes) (temps : TempNames) :
    (Lisplet.definitions arity? defined definitions scopes temps).functions.map
        Function.signature =
      (firstDefinitions (defined.map Located.value) definitions).map
        fun definition => definition.1.declaration.signature := by
  induction definitions generalizing defined scopes temps with
  | nil => rfl
  | cons definition rest inductionHypothesis =>
    obtain ⟨prototype, body⟩ := definition
    rw [Lisplet.definitions, firstDefinitions]
    cases found : defined.find? fun name => name.value == prototype.name.value with
    | some first =>
      dsimp only
      rw [if_pos (mem_of_find?_name found)]
      exact inductionHypothesis defined scopes temps
    | none =>
      dsimp only
      rw [if_neg (not_mem_of_find?_name found), List.map_cons, List.map_cons,
        inductionHypothesis]
      rfl

/-- What the body of a function binds belongs to it. -/
theorem ownedBy_bodyEmission {defined : List (Located String)} {scopes : Scopes}
    (owned : scopes.OwnedBy (defined.map Located.value)) (arity? : String → Option Nat)
    (prototype : Prototype) (body : Expr) (temps : TempNames) :
    (bodyEmission arity? prototype body scopes temps).scopes.leaveFunction.OwnedBy
      ((prototype.name :: defined).map Located.value) := by
  let entered := scopes.enterFunction prototype.name.value (prototype.params.map Located.value)
  have enteredOwned : entered.OwnedBy ((prototype.name :: defined).map Located.value) :=
    owned.mono (List.subset_cons_self _ _)
  have bodyOwned := enteredOwned.grows rfl List.mem_cons_self
    (body.follows_emission arity? entered temps).grows
  exact bodyOwned

/-- What functions bind belongs to them. -/
theorem ownedBy_definitions (arity? : String → Option Nat) (defined : List (Located String))
    (definitions : List (Prototype × Expr)) {scopes : Scopes} (temps : TempNames)
    (owned : scopes.OwnedBy (defined.map Located.value)) :
    (Lisplet.definitions arity? defined definitions scopes temps).scopes.OwnedBy
      (definitions.map (fun definition => definition.1.name.value) ++
        defined.map Located.value) := by
  induction definitions generalizing defined scopes temps with
  | nil => exact owned
  | cons definition rest inductionHypothesis =>
    obtain ⟨prototype, body⟩ := definition
    rw [Lisplet.definitions]
    split
    · exact (inductionHypothesis defined temps owned).mono (List.subset_cons_self _ _)
    · have restOwned := inductionHypothesis (prototype.name :: defined)
        (bodyEmission arity? prototype body scopes temps).temps
        (ownedBy_bodyEmission owned arity? prototype body temps)
      refine restOwned.mono ?_
      intro name member
      simp only [List.map_cons, List.mem_append, List.mem_cons] at member ⊢
      tauto

namespace Module

/-- What the functions of a module bind belongs to them. -/
theorem ownedBy_definitions (module : Module) (names : TargetNames) :
    (module.definitions names).scopes.OwnedBy
      ((module.userDefinitions names).map fun definition => definition.1.name.value) := by
  have owned := Lisplet.ownedBy_definitions (module.declared names).arity? []
    (module.userDefinitions names) {} (Scopes.ownedBy_empty [])
  rwa [List.map_nil, List.append_nil] at owned

/-- No function that a module defines claims the name of the entry function. -/
theorem entry_not_mem_userDefinitions (module : Module) (names : TargetNames) :
    names.entry ∉ (module.userDefinitions names).map fun definition =>
      definition.1.name.value := by
  simp [userDefinitions]

/-- Without findings no definition claims the name of the entry function. -/
theorem userDefinitions_of_clean {module : Module} {names : TargetNames}
    (clean : module.reservedFaults names = []) :
    module.userDefinitions names = module.functionDefs := by
  rw [userDefinitions, List.filter_eq_self]
  intro definition member
  have none := List.filter_eq_nil_iff.1 (List.map_eq_nil_iff.1 clean) definition member
  simpa using none

/-- The state in which all functions of a module are declared and none is defined. -/
def declaring (module : Module) (names : TargetNames) : Generator :=
  (module.userDefinitions names).foldl (fun generator definition => generator.declare definition.1)
    { builder := .new names.module, faults := module.reservedFaults names }

theorem declaring_eq (module : Module) (names : TargetNames) :
    module.declaring names =
      { builder := ⟨module.declared names, none⟩, faults := module.reservedFaults names } :=
  Generator.foldl_declare (module.userDefinitions names) _

/-- The state in which all functions of a module are defined and the entry function is
not. -/
def defined (module : Module) (names : TargetNames) : Generator where
  builder := ⟨{ module.declared names with
    functions := (module.definitions names).functions }, none⟩
  scopes := (module.definitions names).scopes
  temps := (module.definitions names).temps
  faults := module.reservedFaults names ++ (module.definitions names).faults

/-- Giving the functions of a module their bodies succeeds. -/
theorem defineFunctions_declaring (module : Module) (names : TargetNames) :
    Generator.defineFunctions [] (module.userDefinitions names) (module.declaring names) =
      .ok (module.defined names) := by
  let declared : Generator :=
    { builder := ⟨module.declared names, none⟩, faults := module.reservedFaults names }
  have functions : declared.builder.target.functions = [] ++
      (firstDefinitions [] (module.userDefinitions names)).map
        fun definition => definition.1.declaration :=
    rfl
  rw [declaring_eq]
  exact Generator.defineFunctions_eq [] (module.userDefinitions names) rfl functions (by simp)

/-- Giving the functions of a module their bodies keeps their arities. -/
theorem arity?_defined (module : Module) (names : TargetNames) :
    (module.defined names).builder.target.arity? = (module.declared names).arity? := by
  apply Target.arity?_congr
  simp only [defined, definitions, signature_definitions, declared, List.map_map]
  rfl

/-- Functions are declared, then defined, and then the entry function is made. -/
theorem lower_eq_defineEntry (module : Module) (names : TargetNames) :
    module.lower names = (module.defined names).defineEntry names.entry module.forms := by
  have parted : (module.functionDefs.partition fun definition =>
      definition.1.name.value == names.entry) = (module.functionDefs.filter fun definition =>
        definition.1.name.value == names.entry, module.userDefinitions names) :=
    List.partition_eq_filter_filter
  rw [lower, parted]
  change ((Generator.defineFunctions [] (module.userDefinitions names)
    (module.declaring names)).bind
      fun generator => generator.defineEntry names.entry module.forms) = _
  rw [defineFunctions_declaring]
  rfl

/-- Lowering succeeds on every module, and this is what it makes of it. -/
theorem lower_eq (module : Module) (names : TargetNames) :
    module.lower names = .ok {
      builder := ⟨module.target names, none⟩
      scopes := (module.entryEmission names).scopes
      temps := (module.entryEmission names).temps
      faults := module.faults names } := by
  rw [lower_eq_defineEntry, Generator.defineEntry_eq, arity?_defined]
  rfl

end Module

end Lisplet
