import Lisplet.Proofs.Renumbering
import Mathlib.Data.List.Find

/-!
# The order of definitions

Functions are declared before any of them is defined, so a body may call functions that
are defined after it. If the names of functions are distinct and no body binds variables, a
definition contributes what it would contribute by itself, but for the numbers of its
results. Such definitions may stand in any order: the findings are the same, and so is
what the functions and the entry function return.
-/

namespace Lisplet

namespace Function

/-- Whether two functions have the same name and the same parameters, and return the same
whatever calls come to. -/
structure RunsLike (function other : Function) : Prop where
  name : function.name = other.name
  params : function.params = other.params
  runs : ∀ call arguments, arguments.length = function.arity →
    Target.runBody call function arguments = Target.runBody call other arguments

theorem RunsLike.refl (function : Function) : function.RunsLike function :=
  ⟨rfl, rfl, fun _ _ _ => rfl⟩

theorem RunsLike.arity {function other : Function} (alike : function.RunsLike other) :
    function.arity = other.arity :=
  congrArg List.length alike.params

/-- The numbers of results have no bearing on what a function returns. -/
theorem runsLike_ofEmission {arity? : String → Option Nat} {first second : Nat}
    {params : List String} {scopes : Scopes} {emission other : Emission Value} (name : String)
    (sound : emission.Sound arity? params (Value.Available params) [])
    (same : emission.Renumbered first second (Value.Renumbered first second) scopes other) :
    (ofEmission name params emission).RunsLike (ofEmission name params other) := by
  refine ⟨rfl, rfl, ?_⟩
  intro call arguments length
  have sameReturn : (Instruction.ret (emission.value.getD Generator.noValue)).Renumbered first
      second (.ret (other.value.getD Generator.noValue)) := by
    rcases same.value_cases with ⟨noValue, otherNoValue⟩ |
      ⟨value, otherValue, hasValue, otherHasValue, sameValue⟩
    · rw [noValue, otherNoValue]
      exact .ret (.constant _)
    · rw [hasValue, otherHasValue]
      exact .ret sameValue
  have sameCode := List.rel_append same.code (.cons sameReturn .nil)
  have holds : ({ function := name, arguments } : Frame).Holds params [] := ⟨length, by simp⟩
  have runsAlike := Frame.Renumbered.run call sameCode (runnable_ofEmission sound) holds
    ⟨rfl, rfl, fun _ _ _ => rfl⟩
  simpa [Target.runBody, isDeclaration, code, ofEmission] using runsAlike

end Function

namespace Target

/-- Whether every name stands for functions that run alike, or for none. -/
def RunsLike (target other : Target) : Prop :=
  ∀ name, Option.Rel Function.RunsLike (target.resolve? name) (other.resolve? name)

variable {target other : Target}

/-- Calls come to the same if functions that run alike are run alike. -/
theorem RunsLike.invokeWith (alike : target.RunsLike other)
    {run otherRun : Function → List Float → Except EvalError Float}
    (runAlike : ∀ function otherFunction, function.RunsLike otherFunction →
      ∀ arguments, arguments.length = function.arity →
        run function arguments = otherRun otherFunction arguments) :
    target.invokeWith run = other.invokeWith otherRun := by
  funext name arguments
  have resolved := alike name
  rw [Target.invokeWith, Target.invokeWith]
  generalize target.resolve? name = found at resolved ⊢
  generalize other.resolve? name = otherFound at resolved ⊢
  cases resolved with
  | none => rfl
  | @some function otherFunction functionsAlike =>
    dsimp only
    rw [← functionsAlike.arity]
    by_cases fits : function.arity = arguments.length
    · rw [if_pos fits, if_pos fits, runAlike _ _ functionsAlike arguments fits.symm]
    · rw [if_neg fits, if_neg fits]

/-- Functions that run alike are run alike, however deep calls may nest. -/
theorem RunsLike.execute (alike : target.RunsLike other) (limit remaining : Nat)
    {function otherFunction : Function} (functionsAlike : function.RunsLike otherFunction)
    {arguments : List Float} (length : arguments.length = function.arity) :
    target.execute limit remaining function arguments =
      other.execute limit remaining otherFunction arguments := by
  induction remaining generalizing function otherFunction arguments with
  | zero => rfl
  | succ remaining inductionHypothesis =>
    have sameCalls : target.invokeWith (target.execute limit remaining) =
        other.invokeWith (other.execute limit remaining) :=
      alike.invokeWith fun _ _ calleesAlike _ => inductionHypothesis calleesAlike
    rw [Target.execute, Target.execute, sameCalls]
    exact functionsAlike.runs _ arguments length

theorem RunsLike.call (alike : target.RunsLike other) (limit : Nat) (name : String)
    (arguments : List Float) : target.call limit name arguments = other.call limit name arguments :=
  congrFun₂ (alike.invokeWith fun _ _ functionsAlike _ => alike.execute limit limit functionsAlike)
    name arguments

/-- Targets that run alike and have the same entry function return the same. -/
theorem RunsLike.runEntry (alike : target.RunsLike other) {entry : Function}
    (hasEntry : target.entry = some entry) (otherHasEntry : other.entry = some entry)
    (noParams : entry.params = []) (limit : Nat) :
    target.runEntry limit = other.runEntry limit := by
  rw [Target.runEntry, Target.runEntry, hasEntry, otherHasEntry]
  exact alike.execute limit limit (.refl entry) (by simp [Function.arity, noParams])

end Target

/-- Whether a function is made of a definition before which nothing was bound. -/
def MadeOf (arity? : String → Option Nat) (definition : Prototype × Expr) (function : Function) :
    Prop :=
  ∃ start, function = .ofEmission definition.1.name.value
    (definition.1.params.map Located.value)
    (bodyEmission arity? definition.1 definition.2 {} ⟨start⟩)

/-- Whether definitions contribute what each of them does by itself, but for the numbers of
results. -/
structure Definitions.OneByOne (arity? : String → Option Nat)
    (definitions : List (Prototype × Expr)) (start : Nat) (made : Definitions) : Prop where
  functions : List.Forall₂ (MadeOf arity?) definitions made.functions
  faults : made.faults = definitions.flatMap fun definition =>
    (bodyEmission arity? definition.1 definition.2 {} {}).faults
  scopes : made.scopes = {}
  temps : made.temps = ⟨definitions.foldl (fun number definition =>
    number + (bodyEmission arity? definition.1 definition.2 {} {}).temps.counter) start⟩

section Bodies

variable {arity? : String → Option Nat}

/-- In a function that is entered before anything is bound, only parameters can be read. -/
theorem offers_enterFunction_empty (function : String) (params : List String) :
    (({} : Scopes).enterFunction function params).Offers params [] :=
  (Scopes.ownedBy_empty []).offers_enterFunction (by simp) params

/-- A body that binds nothing is lowered to the same code from any number on. -/
theorem renumbered_bodyEmission (prototype : Prototype) {body : Expr}
    (bindsNothing : body.BindsNothing) (first second : Nat) :
    (bodyEmission arity? prototype body {} ⟨first⟩).Renumbered first second
      (Value.Renumbered first second)
      (({} : Scopes).enterFunction prototype.name.value (prototype.params.map Located.value))
      (bodyEmission arity? prototype body {} ⟨second⟩) :=
  body.renumbered_emission first second (offers_enterFunction_empty _ _) bindsNothing 0

/-- Functions made of one definition run alike. -/
theorem MadeOf.runsLike {definition : Prototype × Expr} {function other : Function}
    (bindsNothing : definition.2.BindsNothing) (made : MadeOf arity? definition function)
    (otherMade : MadeOf arity? definition other) : function.RunsLike other := by
  obtain ⟨first, rfl⟩ := made
  obtain ⟨second, rfl⟩ := otherMade
  exact Function.runsLike_ofEmission _
    (definition.2.sound_emission arity? ⟨first⟩ (offers_enterFunction_empty _ _))
    (renumbered_bodyEmission definition.1 bindsNothing first second)

/-- What is made of one definition, if there is one, runs alike. -/
theorem rel_runsLike_of_madeOf {found : Option (Prototype × Expr)}
    {function other : Option Function}
    (bindsNothing : ∀ definition ∈ found, definition.2.BindsNothing)
    (made : Option.Rel (MadeOf arity?) found function)
    (otherMade : Option.Rel (MadeOf arity?) found other) :
    Option.Rel Function.RunsLike function other := by
  cases made with
  | none =>
    cases otherMade
    exact .none
  | some isMade =>
    cases otherMade with
    | some otherIsMade => exact .some (isMade.runsLike (bindsNothing _ rfl) otherIsMade)

/-- Once the first of distinct names is taken, the others are still free. -/
theorem free_of_nodup {taken : List String} {definition : Prototype × Expr}
    {rest : List (Prototype × Expr)}
    (distinct : ((definition :: rest).map fun definition => definition.1.name.value).Nodup)
    (free : ∀ other ∈ definition :: rest, other.1.name.value ∉ taken) :
    ∀ other ∈ rest, other.1.name.value ∉ definition.1.name.value :: taken := by
  intro other member isTaken
  rcases List.mem_cons.1 isTaken with same | earlier
  · exact (List.nodup_cons.1 distinct).1 (List.mem_map.2 ⟨other, member, same⟩)
  · exact free other (List.mem_cons_of_mem _ member) earlier

/-- Definitions with distinct names whose bodies bind nothing contribute what each of them
does by itself. -/
theorem oneByOne_definitions (defined : List (Located String))
    {definitions : List (Prototype × Expr)}
    (distinct : (definitions.map fun definition => definition.1.name.value).Nodup)
    (free : ∀ definition ∈ definitions, definition.1.name.value ∉ defined.map Located.value)
    (bindNothing : ∀ definition ∈ definitions, definition.2.BindsNothing) (start : Nat) :
    (Lisplet.definitions arity? defined definitions {} ⟨start⟩).OneByOne arity? definitions
      start := by
  induction definitions generalizing defined start with
  | nil => exact ⟨.nil, rfl, rfl, rfl⟩
  | cons definition rest inductionHypothesis =>
    obtain ⟨prototype, body⟩ := definition
    obtain ⟨bindsNothing, restBindNothing⟩ := List.forall_mem_cons.1 bindNothing
    have own : (bodyEmission arity? prototype body {} ⟨start⟩).Renumbered start 0 _ _
        (bodyEmission arity? prototype body {} {}) :=
      renumbered_bodyEmission prototype bindsNothing start 0
    obtain ⟨distance, temps, ownTemps⟩ := own.advances
    have notFound : defined.find? (fun earlier => earlier.value == prototype.name.value) =
        none := by
      simpa using free _ List.mem_cons_self
    have leaves : (bodyEmission arity? prototype body {} ⟨start⟩).scopes.leaveFunction = {} := by
      rw [own.keepsScopes]
      rfl
    have others := inductionHypothesis (prototype.name :: defined) distinct.of_cons
      (free_of_nodup distinct free) restBindNothing (start + distance)
    rw [Lisplet.definitions, notFound]
    simp only [leaves, temps]
    refine ⟨.cons ⟨start, rfl⟩ others.functions, ?_, others.scopes, ?_⟩
    · simp only [List.flatMap_cons, own.faults, others.faults]
    · simp only [others.temps, List.foldl_cons, ownTemps, Nat.zero_add]

/-- The function of a name is made of the definition of that name. -/
theorem find?_madeOf {definitions : List (Prototype × Expr)} {functions : List Function}
    (made : List.Forall₂ (MadeOf arity?) definitions functions) (name : String) :
    Option.Rel (MadeOf arity?)
      (definitions.find? fun definition => definition.1.name.value == name)
      (functions.find? fun function => function.name == name) := by
  induction made with
  | nil => exact .none
  | @cons definition function _ _ madeFirst _ inductionHypothesis =>
    have sameName : function.name = definition.1.name.value := by
      obtain ⟨start, rfl⟩ := madeFirst
      rfl
    rw [List.find?_cons, List.find?_cons, sameName]
    cases definition.1.name.value == name with
    | true => exact .some madeFirst
    | false => exact inductionHypothesis

end Bodies

/-- Distinct definitions all count. -/
theorem firstDefinitions_of_nodup {taken : List String} {definitions : List (Prototype × Expr)}
    (distinct : (definitions.map fun definition => definition.1.name.value).Nodup)
    (free : ∀ definition ∈ definitions, definition.1.name.value ∉ taken) :
    firstDefinitions taken definitions = definitions := by
  induction definitions generalizing taken with
  | nil => rfl
  | cons definition rest inductionHypothesis =>
    rw [firstDefinitions, if_neg (free definition List.mem_cons_self),
      inductionHypothesis distinct.of_cons (free_of_nodup distinct free)]

/-- Distinct definitions are found by their names in any order. -/
theorem find?_definition_of_perm {definitions others : List (Prototype × Expr)}
    (permuted : definitions.Perm others)
    (distinct : (definitions.map fun definition => definition.1.name.value).Nodup)
    (name : String) :
    definitions.find? (fun definition => definition.1.name.value == name) =
      others.find? fun definition => definition.1.name.value == name := by
  refine List.find?_eq_find?_of_perm permuted ?_
  rintro one ⟨member, named⟩ other ⟨otherMember, otherNamed⟩
  exact List.inj_on_of_nodup_map distinct member otherMember
    ((beq_iff_eq.1 named).trans (beq_iff_eq.1 otherNamed).symm)

/-- Only the forms that define no function contribute to the entry function. -/
theorem formsEmission_filter (arity? : String → Option Nat) (last : Option Value)
    (forms : List Expr) (scopes : Scopes) (temps : TempNames) :
    formsEmission arity? last (forms.filter fun form => form.functionDef?.isNone) scopes temps =
      formsEmission arity? last forms scopes temps := by
  induction forms generalizing last scopes temps with
  | nil => rfl
  | cons form rest inductionHypothesis =>
    cases defines : form.functionDef? with
    | some definition =>
      rw [List.filter_cons_of_neg (by simp [defines]), formsEmission, defines]
      exact inductionHypothesis last scopes temps
    | none =>
      rw [List.filter_cons_of_pos (by simp [defines]), formsEmission, formsEmission, defines]
      simp only [inductionHypothesis]

namespace Module

/-- Whether the functions of a module have distinct names and bodies that bind nothing. -/
structure Independent (module : Module) : Prop where
  distinct : (module.functionDefs.map fun definition => definition.1.name.value).Nodup
  bindNothing : ∀ definition ∈ module.functionDefs, definition.2.BindsNothing

variable {module first second : Module}

theorem Independent.distinct_userDefinitions (independent : module.Independent)
    (names : TargetNames) :
    ((module.userDefinitions names).map fun definition => definition.1.name.value).Nodup :=
  independent.distinct.sublist (List.filter_sublist.map _)

theorem Independent.arity?_declared (independent : module.Independent) (names : TargetNames)
    (name : String) :
    (module.declared names).arity? name =
      ((module.userDefinitions names).find? fun definition =>
        definition.1.name.value == name).map fun definition => definition.1.params.length := by
  have allCount : firstDefinitions [] (module.userDefinitions names) =
      module.userDefinitions names :=
    firstDefinitions_of_nodup (independent.distinct_userDefinitions names) (by simp)
  simp only [declared, Target.arity?, Target.function?, allCount, List.find?_map, Option.map_map]
  simp [Function.comp_def, Function.arity, Prototype.declaration]

/-- The functions of a module each contribute what they would by themselves. -/
theorem Independent.oneByOne (independent : module.Independent) (names : TargetNames) :
    (module.definitions names).OneByOne (module.declared names).arity?
      (module.userDefinitions names) 0 :=
  oneByOne_definitions [] (independent.distinct_userDefinitions names) (by simp)
    (fun definition member => independent.bindNothing definition (List.mem_of_mem_filter member)) 0

section Reordering

variable (permuted : first.forms.Perm second.forms) (independent : first.Independent)
include permuted

theorem perm_functionDefs : first.functionDefs.Perm second.functionDefs :=
  permuted.filterMap _

theorem perm_userDefinitions (names : TargetNames) :
    (first.userDefinitions names).Perm (second.userDefinitions names) :=
  (perm_functionDefs permuted).filter _

theorem perm_reservedFaults (names : TargetNames) :
    (first.reservedFaults names).Perm (second.reservedFaults names) :=
  ((perm_functionDefs permuted).filter _).map _

include independent

/-- Independence does not depend on the order. -/
theorem Independent.of_perm : second.Independent where
  distinct := ((perm_functionDefs permuted).map _).nodup_iff.1 independent.distinct
  bindNothing definition member :=
    independent.bindNothing definition ((perm_functionDefs permuted).mem_iff.2 member)

/-- The order of definitions has no bearing on what is declared. -/
theorem arity?_declared_of_perm (names : TargetNames) :
    (first.declared names).arity? = (second.declared names).arity? := by
  funext name
  rw [independent.arity?_declared, (independent.of_perm permuted).arity?_declared,
    find?_definition_of_perm (perm_userDefinitions permuted names)
      (independent.distinct_userDefinitions names)]

/-- The order of definitions has no bearing on the number of results. -/
theorem temps_definitions_of_perm (names : TargetNames) :
    (first.definitions names).temps = (second.definitions names).temps := by
  rw [(independent.oneByOne names).temps, ((independent.of_perm permuted).oneByOne names).temps,
    arity?_declared_of_perm permuted independent,
    (perm_userDefinitions permuted names).foldl_eq' fun _ _ _ _ _ => Nat.add_right_comm _ _ _]

theorem perm_faults_definitions (names : TargetNames) :
    (first.definitions names).faults.Perm (second.definitions names).faults := by
  rw [(independent.oneByOne names).faults, ((independent.of_perm permuted).oneByOne names).faults,
    arity?_declared_of_perm permuted independent]
  exact (perm_userDefinitions permuted names).flatMap_right _

/-- The entry function is the same as long as the other forms keep their order. -/
theorem entryEmission_of_perm
    (sameForms : first.forms.filter (fun form => form.functionDef?.isNone) =
      second.forms.filter fun form => form.functionDef?.isNone) (names : TargetNames) :
    first.entryEmission names = second.entryEmission names := by
  rw [entryEmission, entryEmission, ← formsEmission_filter _ _ first.forms, sameForms,
    formsEmission_filter, (independent.oneByOne names).scopes, ((independent.of_perm permuted).oneByOne names).scopes,
    arity?_declared_of_perm permuted independent, temps_definitions_of_perm permuted independent]

/-- Functions of one name are made of the same definition. -/
theorem function?_of_perm (names : TargetNames) (name : String) :
    Option.Rel Function.RunsLike ((first.target names).function? name)
      ((second.target names).function? name) := by
  have made := find?_madeOf (independent.oneByOne names).functions name
  have otherMade := find?_madeOf ((independent.of_perm permuted).oneByOne names).functions name
  have sameDefinition := find?_definition_of_perm (perm_userDefinitions permuted names)
    (independent.distinct_userDefinitions names) name
  rw [← sameDefinition, ← arity?_declared_of_perm permuted independent] at otherMade
  refine rel_runsLike_of_madeOf ?_ made otherMade
  intro definition found
  exact independent.bindNothing definition
    (List.mem_of_mem_filter (List.mem_of_find?_eq_some found))

/-- The order of definitions has no bearing on what functions return. -/
theorem runsLike_of_perm
    (sameForms : first.forms.filter (fun form => form.functionDef?.isNone) =
      second.forms.filter fun form => form.functionDef?.isNone) (names : TargetNames) :
    (first.target names).RunsLike (second.target names) := by
  intro name
  have sameEntry : (first.target names).entry = (second.target names).entry := by
    simp only [target, entryEmission_of_perm permuted independent sameForms]
  have functions := function?_of_perm permuted independent names name
  rw [Target.resolve?, Target.resolve?, sameEntry]
  generalize (first.target names).function? name = found at functions ⊢
  generalize (second.target names).function? name = otherFound at functions ⊢
  cases functions with
  | some alike => exact .some alike
  | none =>
    cases (second.target names).entry.filter fun entry => entry.name == name with
    | none => exact .none
    | some entry => exact .some (.refl entry)

end Reordering

/-- Functions with distinct names, none of which defines a variable, may be defined in any
order: the findings are the same but for their order, and so is what the entry function
and every other function return. -/
theorem lower_in_any_order {first second : Module} (names : TargetNames)
    (permuted : first.forms.Perm second.forms)
    (sameForms : first.forms.filter (fun form => form.functionDef?.isNone) =
      second.forms.filter fun form => form.functionDef?.isNone)
    (distinct : (first.functionDefs.map fun definition => definition.1.name.value).Nodup)
    (bindNothing : ∀ definition ∈ first.functionDefs, definition.2.BindsNothing) :
    ∃ generator other, first.lower names = .ok generator ∧ second.lower names = .ok other ∧
      (generator.faults.map LoweringFault.diagnostic).Perm
        (other.faults.map LoweringFault.diagnostic) ∧
      ∀ limit, generator.builder.target.runEntry limit = other.builder.target.runEntry limit ∧
        ∀ name arguments, generator.builder.target.call limit name arguments =
          other.builder.target.call limit name arguments := by
  have independent : first.Independent := ⟨distinct, bindNothing⟩
  have alike := runsLike_of_perm permuted independent sameForms names
  have sameEntry := entryEmission_of_perm permuted independent sameForms names
  refine ⟨_, _, first.lower_eq names, second.lower_eq names, List.Perm.map _ ?_, ?_⟩
  · rw [faults, faults, sameEntry]
    exact ((perm_reservedFaults permuted names).append
      (perm_faults_definitions permuted independent names)).append_right _
  · intro limit
    exact ⟨alike.runEntry rfl (by rw [target, sameEntry]) rfl limit, alike.call limit⟩

/-- A function may be defined before a function that it calls and before its use, or after
both. -/
theorem lower_in_any_order_of_caller :
    let place : Span := .point 0
    let name : Expr := .identifier place "x"
    let double : Expr := .functionDef place ⟨⟨"double", place⟩, [⟨"x", place⟩], place⟩
      (.arithmetic place .sum name name)
    let quadruple : Expr := .functionDef place ⟨⟨"quadruple", place⟩, [⟨"x", place⟩], place⟩
      (.call place ⟨"double", place⟩ [.call place ⟨"double", place⟩ [name]])
    let use : Expr := .call place ⟨"quadruple", place⟩ [.number place 3]
    ∃ generator other, (⟨[quadruple, double, use]⟩ : Module).lower {} = .ok generator ∧
      (⟨[use, double, quadruple]⟩ : Module).lower {} = .ok other ∧
      ∀ limit, generator.builder.target.runEntry limit = other.builder.target.runEntry limit := by
  intro place name double quadruple use
  let first : Module := ⟨[quadruple, double, use]⟩
  let second : Module := ⟨[use, double, quadruple]⟩
  have nameBindsNothing : name.BindsNothing :=
    Expr.bindsNothing_iff.2 ⟨by simp [name], by simp [name, Expr.children]⟩
  have doubleBindsNothing : (Expr.arithmetic place .sum name name).BindsNothing :=
    Expr.bindsNothing_iff.2 ⟨by simp, by simp [Expr.children, nameBindsNothing]⟩
  have callBindsNothing : (Expr.call place ⟨"double", place⟩ [name]).BindsNothing :=
    Expr.bindsNothing_iff.2 ⟨by simp, by simp [Expr.children, nameBindsNothing]⟩
  have quadrupleBindsNothing : (Expr.call place ⟨"double", place⟩
      [.call place ⟨"double", place⟩ [name]]).BindsNothing :=
    Expr.bindsNothing_iff.2 ⟨by simp, by simp [Expr.children, callBindsNothing]⟩
  have bindNothing : ∀ definition ∈ first.functionDefs, definition.2.BindsNothing := by
    simp [first, functionDefs, quadruple, double, use, Expr.functionDef?, doubleBindsNothing,
      quadrupleBindsNothing]
  have permuted : first.forms.Perm second.forms := (List.reverse_perm _).symm
  obtain ⟨generator, other, lowered, otherLowered, -, alike⟩ :=
    lower_in_any_order {} permuted rfl (by decide) bindNothing
  exact ⟨generator, other, lowered, otherLowered, fun limit => (alike limit).1⟩

end Module

end Lisplet
