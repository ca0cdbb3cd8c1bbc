import Lisplet.Compilation
import Lisplet.Proofs.ModuleLowering

/-!
# Generated code is well formed

Whatever a module looks like and whatever is wrong with it, lowering succeeds and
makes well formed code: every operand can be read where it is used, and every
call fits the declaration of its callee. The proof follows what can be used at
each point of a function: constants, its own parameters and the results computed
before. A global that another function computed is never among these, because
scopes tell it by its owner.
-/

namespace Lisplet

namespace Value

/-- Whether an operand can be read in a function with the given parameters once
the given results are computed. -/
def Available (params results : List String) : Value → Prop
  | constant _ => True
  | param index name => params[index]? = some name
  | temp name => name ∈ results

/-- A value stays available when more results are computed. -/
theorem Available.mono {params results more : List String} {value : Value}
    (available : value.Available params results) (included : results ⊆ more) :
    value.Available params more := by
  cases value with
  | constant _ => trivial
  | param index name => exact available
  | temp name => exact included available

end Value

namespace Instruction

/-- Whether a call passes as many arguments as its callee was declared with. -/
def FitsCallee (arity? : String → Option Nat) : Instruction → Prop
  | call _ callee arguments => arity? callee = some arguments.length
  | _ => True

end Instruction

/-- The results that instructions compute, in order. -/
def resultsOf (code : List Instruction) : List String :=
  code.filterMap Instruction.dest?

@[simp] theorem resultsOf_nil : resultsOf [] = [] :=
  rfl

/-- The result of the first instruction comes first. -/
theorem resultsOf_cons (instruction : Instruction) (rest : List Instruction) :
    resultsOf (instruction :: rest) = instruction.dest?.toList ++ resultsOf rest := by
  cases instruction <;> rfl

@[simp] theorem resultsOf_append (first second : List Instruction) :
    resultsOf (first ++ second) = resultsOf first ++ resultsOf second :=
  List.filterMap_append

/-- Whether instructions can be run one after another in a function with the
given parameters once the given results are computed: operands can be read, and
calls fit their callees. -/
def Runnable (arity? : String → Option Nat) (params : List String) :
    List String → List Instruction → Prop
  | _, [] => True
  | results, instruction :: rest =>
    (∀ operand ∈ instruction.operands, operand.Available params results) ∧
      instruction.FitsCallee arity? ∧
      Runnable arity? params (results ++ instruction.dest?.toList) rest

/-- Code can be run exactly if each part of it can be run after the part before. -/
theorem runnable_append {arity? : String → Option Nat} {params results : List String}
    {first second : List Instruction} :
    Runnable arity? params results (first ++ second) ↔
      Runnable arity? params results first ∧
        Runnable arity? params (results ++ resultsOf first) second := by
  induction first generalizing results with
  | nil => simp [Runnable]
  | cons instruction rest inductionHypothesis =>
    simp only [List.cons_append, Runnable, inductionHypothesis, resultsOf_cons,
      List.append_assoc, and_assoc]

namespace Scopes

/-- Whether everything that a name can stand for can be read. -/
def Offers (params results : List String) (scopes : Scopes) : Prop :=
  ∀ name value, scopes.resolve name = .value value → value.Available params results

/-- Scopes offer what can be read when more results are computed. -/
theorem Offers.mono {params results more : List String} {scopes : Scopes}
    (offers : scopes.Offers params results) (included : results ⊆ more) :
    scopes.Offers params more :=
  fun name value resolved => (offers name value resolved).mono included

/-- Scopes still offer what can be read when a value that can be read is bound. -/
theorem Offers.bindGlobal {params results : List String} {scopes : Scopes}
    (offers : scopes.Offers params results) {value : Value}
    (available : value.Available params results) (name : String) :
    (scopes.bindGlobal name value).Offers params results := by
  intro other found resolved
  by_cases same : other = name
  · subst same
    cases isLocal : scopes.locals.get? other with
    | none =>
      rw [resolve_bindGlobal_self isLocal] at resolved
      cases resolved
      exact available
    | some parameter =>
      rw [resolve_bindGlobal_of_local isLocal] at resolved
      exact offers other found ((resolve_of_local isLocal).trans resolved)
  · rw [scopes.resolve_bindGlobal_of_ne value same] at resolved
    exact offers other found resolved

/-- A function that was not entered before can read its parameters and the
constants, and nothing else is offered to it. -/
theorem OwnedBy.offers_enterFunction {functions : List String} {scopes : Scopes}
    (owned : scopes.OwnedBy functions) {function : String} (isNew : function ∉ functions)
    (params : List String) :
    (scopes.enterFunction function params).Offers params [] := by
  intro name value resolved
  simp only [resolve, enterFunction] at resolved
  cases isLocal : (bindParams 0 params .empty).get? name with
  | some parameter =>
    rw [isLocal] at resolved
    cases resolved
    obtain ⟨index, rfl, found⟩ := param_of_get?_bindParams isLocal
    exact found
  | none =>
    rw [isLocal] at resolved
    cases isGlobal : scopes.globals.get? name with
    | none => simp [isGlobal] at resolved
    | some bound =>
      have fact := owned name bound isGlobal
      cases owner : scopes.owners.get? name with
      | none =>
        simp only [isGlobal, owner, Resolution.value.injEq] at resolved fact
        subst resolved
        cases bound with
        | constant _ => trivial
        | param _ _ => cases fact
        | temp _ => cases fact
      | some holder =>
        rw [owner] at fact
        have foreign : function ≠ holder := fun same => isNew (same ▸ fact)
        simp [isGlobal, owner, foreign] at resolved

end Scopes

namespace Emission

variable {α β : Type}

/-- What holds of an emission in a function with the given parameters once the
given results are computed: its code can be run, and afterwards its value and
everything in its scopes can be read. -/
structure Sound (arity? : String → Option Nat) (params : List String)
    (readable : List String → α → Prop) (results : List String) (emission : Emission α) :
    Prop where
  runnable : Runnable arity? params results emission.code
  value : ∀ value ∈ emission.value, readable (results ++ resultsOf emission.code) value
  offers : emission.scopes.Offers params (results ++ resultsOf emission.code)

variable {arity? : String → Option Nat} {params results : List String}

/-- Sound emissions one after the other are sound as a whole. -/
theorem Sound.before {readable : List String → α → Prop} {other : List String → β → Prop}
    {first : Emission α} {second : Emission β}
    (early : first.Sound arity? params readable results)
    (late : second.Sound arity? params other (results ++ resultsOf first.code)) :
    (first.before second).Sound arity? params other results where
  runnable := runnable_append.2 ⟨early.runnable, late.runnable⟩
  value := by simpa [Emission.before] using late.value
  offers := by simpa [Emission.before] using late.offers

/-- A value that can be read is sound by itself. -/
theorem sound_ofValue {readable : List String → α → Prop} {scopes : Scopes}
    (offers : scopes.Offers params results) (temps : TempNames) {value : α}
    (isReadable : readable results value) :
    (ofValue scopes temps value).Sound arity? params readable results where
  runnable := trivial
  value := by simpa [ofValue] using isReadable
  offers := by simpa [ofValue] using offers

/-- A refusal is sound. -/
theorem sound_refused {readable : List String → α → Prop} {scopes : Scopes}
    (offers : scopes.Offers params results) (temps : TempNames) (fault : LoweringFault) :
    (refused scopes temps fault).Sound arity? params readable results where
  runnable := trivial
  value := by simp [refused]
  offers := by simpa [refused] using offers

/-- A further instruction is sound if its operands can be read and it fits its
callee. -/
theorem sound_result {scopes : Scopes} (offers : scopes.Offers params results)
    (temps : TempNames) (stem : String) {instruction : String → Instruction}
    (dest : ∀ name, (instruction name).dest? = some name)
    (operands : ∀ name, ∀ operand ∈ (instruction name).operands,
      operand.Available params results)
    (fits : ∀ name, (instruction name).FitsCallee arity?) :
    (result scopes temps stem instruction).Sound arity? params (Value.Available params)
      results where
  runnable := ⟨operands _, fits _, trivial⟩
  value := by simp [result, resultsOf_cons, dest, Value.Available]
  offers := offers.mono (List.subset_append_left _ _)

end Emission

namespace Expr

open Emission

/-- Whether arguments can be read and are as many as the nodes they come from. -/
def ReadableArguments (params : List String) (arguments : List Expr) (results : List String)
    (values : List Value) : Prop :=
  values.length = arguments.length ∧ ∀ value ∈ values, value.Available params results

mutual

/-- Lowering a node makes sound code if its scopes offer only what can be read. -/
theorem sound_emission (arity? : String → Option Nat) {params results : List String}
    (node : Expr) {scopes : Scopes} (temps : TempNames)
    (offers : scopes.Offers params results) :
    (node.emission arity? scopes temps).Sound arity? params (Value.Available params)
      results := by
  cases node with
  | number span value =>
    rw [emission]
    exact sound_ofValue offers temps trivial
  | identifier span name =>
    rw [emission]
    split
    · rename_i value resolved
      exact sound_ofValue offers temps (offers name value resolved)
    · exact sound_refused offers temps _
    · exact sound_refused offers temps _
  | text span body =>
    rw [emission]
    exact sound_refused offers temps _
  | list span items =>
    rw [emission]
    exact sound_refused offers temps _
  | functionDef span prototype body =>
    rw [emission]
    exact sound_refused offers temps _
  | arithmetic span operator left right =>
    have first := sound_emission arity? left temps offers
    have second := sound_emission arity? right (left.emission arity? scopes temps).temps
      first.offers
    rw [emission]
    split
    · rename_i leftValue rightValue leftFound rightFound
      refine first.before (second.before (sound_result second.offers _ _ (fun _ => rfl) ?_
        fun _ => trivial))
      intro name operand member
      rcases List.mem_cons.1 member with rfl | member
      · exact (first.value _ leftFound).mono (List.subset_append_left _ _)
      · rw [List.mem_singleton.1 member]
        exact second.value _ rightFound
    · exact first.before ⟨second.runnable, by simp [withoutValue], second.offers⟩
  | variableDef span name initializer =>
    have first := sound_emission arity? initializer temps offers
    rw [emission]
    split
    · rename_i value found
      exact ⟨first.runnable, first.value, first.offers.bindGlobal (first.value _ found) name.value⟩
    · exact first
  | call span callee arguments =>
    rw [emission]
    split
    · exact sound_refused offers temps _
    rename_i arity declared
    split
    · exact sound_refused offers temps _
    rename_i sameLength
    have first := sound_argumentEmission arity? callee 1 arguments temps offers
    dsimp only
    split
    · rename_i values found
      obtain ⟨length, readable⟩ := first.value _ found
      refine first.before (sound_result first.offers _ _ (fun _ => rfl) (fun _ => readable) ?_)
      intro dest
      rw [Instruction.FitsCallee, declared, length, not_ne_iff.1 sameLength]
    · exact ⟨first.runnable, by simp [withoutValue], first.offers⟩

/-- Lowering arguments makes sound code if their scopes offer only what can be
read. -/
theorem sound_argumentEmission (arity? : String → Option Nat) {params results : List String}
    (callee : Located String) (position : Nat) (arguments : List Expr) {scopes : Scopes}
    (temps : TempNames) (offers : scopes.Offers params results) :
    (argumentEmission arity? callee position arguments scopes temps).Sound arity? params
      (ReadableArguments params arguments) results := by
  cases arguments with
  | nil =>
    rw [argumentEmission]
    exact sound_ofValue offers temps ⟨rfl, by simp⟩
  | cons argument others =>
    have first := sound_emission arity? argument temps offers
    rw [argumentEmission]
    dsimp only
    split
    · exact first.before (sound_refused first.offers _ _)
    · rename_i value found
      have second := sound_argumentEmission arity? callee (position + 1) others
        (argument.emission arity? scopes temps).temps first.offers
      refine first.before ⟨second.runnable, ?_, second.offers⟩
      intro values isSome
      obtain ⟨rest, restFound, rfl⟩ := Option.map_eq_some_iff.1 isSome
      obtain ⟨length, readable⟩ := second.value rest restFound
      refine ⟨by simp [length], ?_⟩
      intro operand member
      rcases List.mem_cons.1 member with rfl | member
      · exact (first.value _ found).mono (List.subset_append_left _ _)
      · exact readable operand member

end

end Expr

namespace Function

/-- Whether the code of a function is one block that can be run from its start
and that ends in its only return. -/
def IsRunnable (arity? : String → Option Nat) (function : Function) : Prop :=
  ∃ label body value, function.blocks = [⟨label, body ++ [.ret value]⟩] ∧
    (∀ instruction ∈ body, instruction.isTerminator = false) ∧
    Runnable arity? function.params [] (body ++ [.ret value])

/-- What an emission computes can be returned. -/
theorem runnable_ofEmission {arity? : String → Option Nat} {params : List String}
    {emission : Emission Value}
    (sound : emission.Sound arity? params (Value.Available params) []) :
    Runnable arity? params []
      (emission.code ++ [.ret (emission.value.getD Generator.noValue)]) := by
  refine runnable_append.2 ⟨sound.runnable, ?_, trivial, trivial⟩
  intro operand member
  rw [List.mem_singleton.1 member]
  cases found : emission.value with
  | none => trivial
  | some value => exact sound.value value found

/-- A function made of a sound emission can be run. -/
theorem isRunnable_ofEmission {arity? : String → Option Nat} {params : List String}
    {emission : Emission Value} (name : String)
    (sound : emission.Sound arity? params (Value.Available params) [])
    (plain : ∀ instruction ∈ emission.code, instruction.isTerminator = false) :
    (ofEmission name params emission).IsRunnable arity? :=
  ⟨_, _, _, rfl, plain, runnable_ofEmission sound⟩

end Function

/-- Definitions that count are definitions. -/
theorem firstDefinitions_subset {taken : List String} {definitions : List (Prototype × Expr)} :
    firstDefinitions taken definitions ⊆ definitions := by
  induction definitions generalizing taken with
  | nil => exact List.Subset.refl _
  | cons first rest inductionHypothesis =>
    rw [firstDefinitions]
    split
    · exact List.Subset.trans inductionHypothesis (List.subset_cons_self _ _)
    · exact List.cons_subset_cons _ inductionHypothesis

/-- Functions that are defined one after another can be run. -/
theorem isRunnable_definitions (arity? : String → Option Nat) (defined : List (Located String))
    (definitions : List (Prototype × Expr)) {scopes : Scopes} (temps : TempNames)
    (owned : scopes.OwnedBy (defined.map Located.value)) :
    ∀ function ∈ (Lisplet.definitions arity? defined definitions scopes temps).functions,
      function.IsRunnable arity? := by
  induction definitions generalizing defined scopes temps with
  | nil => simp [Lisplet.definitions]
  | cons definition rest inductionHypothesis =>
    obtain ⟨prototype, body⟩ := definition
    rw [Lisplet.definitions]
    split
    · exact inductionHypothesis defined temps owned
    · rename_i found
      have offers := owned.offers_enterFunction (not_mem_of_find?_name found)
        (prototype.params.map Located.value)
      have sound := body.sound_emission arity? temps offers
      have follows := body.follows_emission arity?
        (scopes.enterFunction prototype.name.value (prototype.params.map Located.value)) temps
      intro function member
      rcases List.mem_cons.1 member with rfl | member
      · exact Function.isRunnable_ofEmission _ sound follows.isTerminator_eq_false
      · exact inductionHypothesis (prototype.name :: defined) _
          (ownedBy_bodyEmission owned arity? prototype body temps) function member

/-- Lowering forms makes sound code if their scopes offer only what can be read. -/
theorem sound_formsEmission (arity? : String → Option Nat) {params results : List String}
    {last : Option Value} (forms : List Expr) {scopes : Scopes} (temps : TempNames)
    (offers : scopes.Offers params results)
    (lastAvailable : ∀ value ∈ last, value.Available params results) :
    (formsEmission arity? last forms scopes temps).Sound arity? params (Value.Available params)
      results := by
  induction forms generalizing last results scopes temps with
  | nil =>
    exact ⟨trivial, by simpa [formsEmission] using lastAvailable,
      by simpa [formsEmission] using offers⟩
  | cons form rest inductionHypothesis =>
    rw [formsEmission]
    split
    · exact inductionHypothesis temps offers lastAvailable
    · have first := form.sound_emission arity? temps offers
      refine first.before (inductionHypothesis _ first.offers ?_)
      intro value member
      cases found : (form.emission arity? scopes temps).value with
      | none =>
        rw [found, Option.none_or] at member
        exact (lastAvailable value member).mono (List.subset_append_left _ _)
      | some own =>
        rw [found, Option.some_or] at member
        exact first.value value (found.trans member)

namespace Module

/-- The functions of a target take what was declared for them. -/
theorem arity?_target (module : Module) (names : TargetNames) :
    (module.target names).arity? = (module.declared names).arity? := by
  apply Target.arity?_congr
  simp only [target, definitions, signature_definitions, declared, List.map_map]
  rfl

/-- The functions of a target are named as the definitions that count, in order. -/
theorem names_target (module : Module) (names : TargetNames) :
    (module.target names).functions.map Function.name =
      (firstDefinitions [] (module.userDefinitions names)).map
        fun definition => definition.1.name.value := by
  have signatures := congrArg (List.map Prod.fst)
    (signature_definitions (module.declared names).arity? [] (module.userDefinitions names) {} {})
  rw [List.map_map, List.map_map] at signatures
  exact signatures

/-- No function of a module bears the name of the entry function. -/
theorem entry_not_mem_names_target (module : Module) (names : TargetNames) :
    names.entry ∉ (module.target names).functions.map Function.name := by
  rw [names_target]
  intro member
  obtain ⟨definition, counts, same⟩ := List.mem_map.1 member
  have kept := List.of_mem_filter (firstDefinitions_subset counts)
  simp [same] at kept

/-- The functions of a module can be run. -/
theorem isRunnable_of_mem_target {module : Module} {names : TargetNames} {function : Function}
    (member : function ∈ (module.target names).functions) :
    function.IsRunnable (module.target names).arity? := by
  rw [arity?_target]
  exact isRunnable_definitions (module.declared names).arity? [] (module.userDefinitions names) {}
    (Scopes.ownedBy_empty []) function member

/-- The entry function of a module can be run. -/
theorem isRunnable_entry (module : Module) (names : TargetNames) :
    (Function.ofEmission names.entry [] (module.entryEmission names)).IsRunnable
      (module.target names).arity? := by
  rw [arity?_target]
  have offers := (module.ownedBy_definitions names).offers_enterFunction
    (module.entry_not_mem_userDefinitions names) []
  exact Function.isRunnable_ofEmission _
    (sound_formsEmission _ module.forms _ offers (by simp))
    (Generator.follows_formsEmission _ _ _ _ _).isTerminator_eq_false

end Module

namespace Function

/-- What makes a function of a module well formed. -/
structure WellFormed (target : Target) (function : Function) : Prop where
  /-- There is one block. It ends in a return and holds no other. -/
  oneReturn : ∃ label body value, function.blocks = [⟨label, body ++ [.ret value]⟩] ∧
    ∀ instruction ∈ body, instruction.isTerminator = false
  /-- Results are computed before they are used. -/
  tempsComputed : ∀ before instruction after, function.code = before ++ instruction :: after →
    ∀ name, Value.temp name ∈ instruction.operands → ∃ earlier ∈ before, earlier.dest? = some name
  /-- Parameters are those of the function itself. -/
  paramsOwn : ∀ instruction ∈ function.code, ∀ index name,
    Value.param index name ∈ instruction.operands →
      index < function.arity ∧ function.params[index]? = some name
  /-- Calls pass as many arguments as their callee has parameters. -/
  callsFit : ∀ dest callee arguments, Instruction.call dest callee arguments ∈ function.code →
    ∃ found, target.function? callee = some found ∧ found.arity = arguments.length

end Function

/-- What makes a module of target code well formed. -/
structure Target.WellFormed (target : Target) (entryName : String) : Prop where
  entry : ∃ entry, target.entry = some entry ∧ entry.name = entryName ∧ entry.params = [] ∧
    entry.WellFormed target
  functions : ∀ function ∈ target.functions,
    function.name ≠ entryName ∧ function.isDeclaration = false ∧ function.WellFormed target

/-- What can be run is well formed at each of its instructions. -/
theorem runnable_at {arity? : String → Option Nat} {params results : List String}
    {before after : List Instruction} {instruction : Instruction}
    (runnable : Runnable arity? params results (before ++ instruction :: after)) :
    (∀ operand ∈ instruction.operands, operand.Available params (results ++ resultsOf before)) ∧
      instruction.FitsCallee arity? := by
  obtain ⟨operands, fits, -⟩ := (runnable_append.1 runnable).2
  exact ⟨operands, fits⟩

/-- Functions that can be run are well formed. -/
theorem Function.IsRunnable.wellFormed {target : Target} {function : Function}
    (isRunnable : function.IsRunnable target.arity?) : function.WellFormed target := by
  obtain ⟨label, body, value, blocks, plain, runnable⟩ := isRunnable
  have code : function.code = body ++ [.ret value] := by
    simp [Function.code, blocks]
  rw [← code] at runnable
  refine ⟨⟨label, body, value, blocks, plain⟩, ?_, ?_, ?_⟩
  · intro before instruction after split name used
    rw [split] at runnable
    have computed := (runnable_at runnable).1 _ used
    simpa [Value.Available, resultsOf] using computed
  · intro instruction member index name used
    obtain ⟨before, after, split⟩ := List.append_of_mem member
    rw [split] at runnable
    have own : function.params[index]? = some name := (runnable_at runnable).1 _ used
    exact ⟨(List.getElem?_eq_some_iff.1 own).1, own⟩
  · intro dest callee arguments member
    obtain ⟨before, after, split⟩ := List.append_of_mem member
    rw [split] at runnable
    exact Option.map_eq_some_iff.1 (runnable_at runnable).2

namespace Compilation

/-- Diagnostics are recorded after those that are there. -/
theorem diagnostics_recordAll (compilation : Compilation) (diagnostics : List Diagnostic) :
    (compilation.recordAll diagnostics).diagnostics = compilation.diagnostics ++ diagnostics := by
  rw [recordAll, Compilation.diagnostics, Log.entries_foldl_emit]
  rfl

end Compilation

namespace Module

/-- Lowering succeeds on every module and makes a well formed target, also when
it has findings. Whatever was recorded before stays in front of the findings. -/
theorem wellFormed_lower (module : Module) (config : Config) (earlier : Compilation) :
    ∃ generator, module.lower config.names = .ok generator ∧
      generator.builder.target.WellFormed config.names.entry ∧
      (earlier.lowerModule config module).target = some generator.builder.target ∧
      (earlier.lowerModule config module).diagnostics =
        earlier.diagnostics ++ generator.faults.map LoweringFault.diagnostic := by
  refine ⟨_, module.lower_eq config.names, ⟨⟨_, rfl, rfl, rfl, ?_⟩, ?_⟩, ?_, ?_⟩
  · exact (module.isRunnable_entry config.names).wellFormed
  · intro function member
    have isRunnable := isRunnable_of_mem_target member
    refine ⟨?_, ?_, isRunnable.wellFormed⟩
    · rintro same
      exact module.entry_not_mem_names_target config.names
        (same ▸ List.mem_map_of_mem member)
    · obtain ⟨label, body, value, blocks, -, -⟩ := isRunnable
      simp [Function.isDeclaration, blocks]
  · simp [Compilation.lowerModule, module.lower_eq]
  · simp only [Compilation.lowerModule, module.lower_eq]
    exact earlier.diagnostics_recordAll _

end Module

end Lisplet
