import Lisplet.Proofs.CallDepth
import Lisplet.Proofs.SingleSweep
import Lisplet.Proofs.ResultNames

/-!
# Renumbered results

The number of the first result of a function depends on what was lowered before it. It has
no bearing on what the function computes: code whose results are counted from another number
runs alike, because the results of one function keep their distances, and a name tells
its stem and its number. A body that binds no variables is lowered to the same code, but for
this number, wherever its function is defined.
-/

namespace Lisplet

/-- Whether two results have the same stem and come equally far after two numbers. -/
def SameResult (first second : Nat) (name other : String) : Prop :=
  ∃ stem distance, TempNames.IsStem stem ∧ name = TempNames.nameOf stem (first + distance) ∧
    other = TempNames.nameOf stem (second + distance)

/-- Results that differ on one side differ on the other. -/
theorem SameResult.eq_iff {first second : Nat} {name other further otherFurther : String}
    (same : SameResult first second name other)
    (furtherSame : SameResult first second further otherFurther) :
    name = further ↔ other = otherFurther := by
  obtain ⟨stem, distance, isStem, rfl, rfl⟩ := same
  obtain ⟨otherStem, otherDistance, otherIsStem, rfl, rfl⟩ := furtherSame
  rw [TempNames.nameOf_inj isStem otherIsStem, TempNames.nameOf_inj isStem otherIsStem]
  constructor
  · rintro ⟨rfl, sameNumber⟩
    exact ⟨rfl, by omega⟩
  · rintro ⟨rfl, sameNumber⟩
    exact ⟨rfl, by omega⟩

/-- Operands that differ in the numbers of results only. -/
inductive Value.Renumbered (first second : Nat) : Value → Value → Prop where
  | constant (number : Float) : Renumbered first second (.constant number) (.constant number)
  | param (index : Nat) (name : String) :
      Renumbered first second (.param index name) (.param index name)
  | temp {name other : String} (same : SameResult first second name other) :
      Renumbered first second (.temp name) (.temp other)

/-- Instructions that differ in the numbers of results only. -/
inductive Instruction.Renumbered (first second : Nat) : Instruction → Instruction → Prop where
  | arithmetic {dest other : String} {left right otherLeft otherRight : Value}
      (opcode : Opcode) (same : SameResult first second dest other)
      (sameLeft : left.Renumbered first second otherLeft)
      (sameRight : right.Renumbered first second otherRight) :
      Renumbered first second (.arithmetic opcode dest left right)
        (.arithmetic opcode other otherLeft otherRight)
  | call {dest other : String} {arguments otherArguments : List Value} (callee : String)
      (same : SameResult first second dest other)
      (sameArguments : List.Forall₂ (Value.Renumbered first second) arguments otherArguments) :
      Renumbered first second (.call dest callee arguments) (.call other callee otherArguments)
  | ret {value other : Value} (same : value.Renumbered first second other) :
      Renumbered first second (.ret value) (.ret other)

namespace Frame

/-- Whether two frames differ in the numbers of results only. -/
structure Renumbered (first second : Nat) (frame other : Frame) : Prop where
  function : frame.function = other.function
  arguments : frame.arguments = other.arguments
  temps : ∀ name otherName, SameResult first second name otherName →
    frame.temps.get? name = other.temps.get? otherName

variable {first second : Nat} {frame other : Frame} {params results : List String}

/-- Frames stay renumbered when the same result gets the same number in both. -/
theorem Renumbered.set (renumbered : frame.Renumbered first second other)
    {name otherName : String} (same : SameResult first second name otherName) (number : Float) :
    (frame.set name number).Renumbered first second (other.set otherName number) := by
  refine ⟨renumbered.function, renumbered.arguments, ?_⟩
  intro asked otherAsked sameAsked
  by_cases isName : asked = name
  · have isOther := (sameAsked.eq_iff same).1 isName
    simp [Frame.set, isName, isOther]
  · have notOther := fun isOther => isName ((sameAsked.eq_iff same).2 isOther)
    simp [Frame.set, Bindings.get?_bind_of_ne _ _ isName, Bindings.get?_bind_of_ne _ _ notOther,
      renumbered.temps asked otherAsked sameAsked]

/-- What can be read is read alike. -/
theorem Renumbered.read (renumbered : frame.Renumbered first second other)
    (holds : frame.Holds params results) {value otherValue : Value}
    (same : value.Renumbered first second otherValue)
    (available : value.Available params results) : frame.read value = other.read otherValue := by
  cases same with
  | constant number => rfl
  | param index name => simp only [Frame.read, renumbered.arguments, renumbered.function]
  | temp sameName =>
    obtain ⟨number, found⟩ := holds.temps _ available
    have otherFound := renumbered.temps _ _ sameName
    rw [found] at otherFound
    simp [Frame.read, found, ← otherFound]

/-- Renumbered values are read alike in renumbered frames. -/
theorem Renumbered.readAll (renumbered : frame.Renumbered first second other)
    (holds : frame.Holds params results) {values otherValues : List Value}
    (same : List.Forall₂ (Value.Renumbered first second) values otherValues)
    (available : ∀ value ∈ values, value.Available params results) :
    frame.readAll values = other.readAll otherValues := by
  induction same with
  | nil => rfl
  | cons sameFirst sameRest inductionHypothesis =>
    obtain ⟨firstAvailable, restAvailable⟩ := List.forall_mem_cons.1 available
    rw [Frame.readAll, Frame.readAll, renumbered.read holds sameFirst firstAvailable,
      inductionHypothesis restAvailable]

/-- Code that can be run runs alike with its results renumbered. -/
theorem Renumbered.run {arity? : String → Option Nat}
    (call : String → List Float → Except EvalError Float) {code otherCode : List Instruction}
    (same : List.Forall₂ (Instruction.Renumbered first second) code otherCode)
    (runnable : Runnable arity? params results code) (holds : frame.Holds params results)
    (renumbered : frame.Renumbered first second other) :
    frame.run call code = other.run call otherCode := by
  induction same generalizing frame other results with
  | nil => rw [Frame.run, Frame.run, renumbered.function]
  | cons sameFirst sameRest inductionHypothesis =>
    obtain ⟨operands, -, runnableRest⟩ := runnable
    cases sameFirst with
    | @arithmetic dest _ left right _ _ opcode sameDest sameLeft sameRight =>
      have leftRead := renumbered.read holds sameLeft (operands left (by simp [Instruction.operands]))
      have rightRead :=
        renumbered.read holds sameRight (operands right (by simp [Instruction.operands]))
      rw [Frame.run, Frame.run, leftRead, rightRead]
      refine bind_congr fun leftNumber => bind_congr fun rightNumber => ?_
      exact inductionHypothesis runnableRest (holds.set dest _) (renumbered.set sameDest _)
    | @call dest _ arguments _ callee sameDest sameArguments =>
      have argumentsRead := renumbered.readAll holds sameArguments operands
      rw [Frame.run, Frame.run, argumentsRead]
      refine bind_congr fun numbers => bind_congr fun result => ?_
      exact inductionHypothesis runnableRest (holds.set dest _) (renumbered.set sameDest _)
    | ret sameValue =>
      exact renumbered.read holds sameValue (operands _ List.mem_cons_self)

end Frame

namespace Expr

/-- Whether no node of a tree defines a variable. -/
def BindsNothing (tree : Expr) : Prop :=
  ∀ span name initializer, ¬ Within (variableDef span name initializer) tree

/-- A tree binds nothing if it defines no variable itself and no child binds anything. -/
theorem bindsNothing_iff {tree : Expr} :
    tree.BindsNothing ↔ (∀ span name initializer, tree ≠ variableDef span name initializer) ∧
      ∀ child ∈ tree.children, child.BindsNothing := by
  constructor
  · intro bindsNothing
    refine ⟨?_, ?_⟩
    · rintro span name initializer rfl
      exact bindsNothing span name initializer (.root _)
    · intro child isChild span name initializer within
      exact bindsNothing span name initializer (.under isChild within)
  · rintro ⟨notDefinition, children⟩ span name initializer within
    cases within with
    | root => exact notDefinition span name initializer rfl
    | under isChild within => exact children _ isChild span name initializer within

/-- What is directly below a tree that binds nothing binds nothing. -/
theorem BindsNothing.child {tree child : Expr} (bindsNothing : tree.BindsNothing)
    (isChild : child ∈ tree.children) : child.BindsNothing :=
  (bindsNothing_iff.1 bindsNothing).2 child isChild

end Expr

namespace Emission

variable {α β : Type} {first second : Nat} {scopes : Scopes}

/-- Whether two emissions differ in the numbers of results only, and both leave the given
scopes as they are. -/
structure Renumbered (first second : Nat) (related : α → α → Prop) (scopes : Scopes)
    (emission other : Emission α) : Prop where
  value : Option.Rel related emission.value other.value
  code : List.Forall₂ (Instruction.Renumbered first second) emission.code other.code
  faults : emission.faults = other.faults
  keepsScopes : emission.scopes = scopes
  otherKeepsScopes : other.scopes = scopes
  advances : ∃ distance, emission.temps = ⟨first + distance⟩ ∧ other.temps = ⟨second + distance⟩

/-- Renumbered emissions one after the other are renumbered as a whole. -/
theorem Renumbered.before {related : α → α → Prop} {relatedToo : β → β → Prop}
    {early otherEarly : Emission α} {late otherLate : Emission β}
    (sameEarly : early.Renumbered first second related scopes otherEarly)
    (sameLate : late.Renumbered first second relatedToo scopes otherLate) :
    (early.before late).Renumbered first second relatedToo scopes (otherEarly.before otherLate) where
  value := sameLate.value
  code := List.rel_append sameEarly.code sameLate.code
  faults := by simp only [Emission.before, sameEarly.faults, sameLate.faults]
  keepsScopes := sameLate.keepsScopes
  otherKeepsScopes := sameLate.otherKeepsScopes
  advances := sameLate.advances

/-- Renumbered emissions stay so without their values. -/
theorem Renumbered.withoutValue {related : α → α → Prop} {relatedToo : β → β → Prop}
    {emission other : Emission α} (same : emission.Renumbered first second related scopes other) :
    (emission.withoutValue : Emission β).Renumbered first second relatedToo scopes
      other.withoutValue :=
  ⟨.none, same.code, same.faults, same.keepsScopes, same.otherKeepsScopes, same.advances⟩

/-- Values are there on both sides or on neither. -/
theorem Renumbered.value_cases {related : α → α → Prop} {emission other : Emission α}
    (same : emission.Renumbered first second related scopes other) :
    (emission.value = none ∧ other.value = none) ∨
      ∃ value otherValue, emission.value = some value ∧ other.value = some otherValue ∧
        related value otherValue := by
  obtain ⟨values, -, -, -, -, -⟩ := same
  generalize emission.value = found at values
  generalize other.value = otherFound at values
  cases values with
  | some sameValue => exact .inr ⟨_, _, rfl, rfl, sameValue⟩
  | none => exact .inl ⟨rfl, rfl⟩

/-- Values that are used alike leave emissions alike. -/
theorem Renumbered.map {related : α → α → Prop} {relatedToo : β → β → Prop}
    {emission other : Emission α} (same : emission.Renumbered first second related scopes other)
    {use otherUse : α → β}
    (usedAlike : ∀ value otherValue, related value otherValue →
      relatedToo (use value) (otherUse otherValue)) :
    ({ emission with value := emission.value.map use } : Emission β).Renumbered first second
      relatedToo scopes { other with value := other.value.map otherUse } := by
  refine ⟨?_, same.code, same.faults, same.keepsScopes, same.otherKeepsScopes, same.advances⟩
  rcases same.value_cases with ⟨noValue, otherNoValue⟩ |
    ⟨value, otherValue, hasValue, otherHasValue, sameValue⟩
  · rw [noValue, otherNoValue]
    exact .none
  · rw [hasValue, otherHasValue]
    exact .some (usedAlike value otherValue sameValue)

/-- A value by itself takes no number. -/
theorem renumbered_ofValue {related : α → α → Prop} {value other : α} (distance : Nat)
    (same : related value other) :
    (ofValue scopes ⟨first + distance⟩ value).Renumbered first second related scopes
      (ofValue scopes ⟨second + distance⟩ other) :=
  ⟨.some same, .nil, rfl, rfl, rfl, distance, rfl, rfl⟩

/-- A refusal takes no number. -/
theorem renumbered_refused {related : α → α → Prop} (distance : Nat) (fault : LoweringFault) :
    (refused scopes ⟨first + distance⟩ fault).Renumbered first second related scopes
      (refused scopes ⟨second + distance⟩ fault) :=
  ⟨.none, .nil, rfl, rfl, rfl, distance, rfl, rfl⟩

/-- A further instruction takes the next number on either side. -/
theorem renumbered_result {stem : String} (isStem : TempNames.IsStem stem) (distance : Nat)
    {instruction other : String → Instruction}
    (same : ∀ dest otherDest, SameResult first second dest otherDest →
      (instruction dest).Renumbered first second (other otherDest)) :
    (result scopes ⟨first + distance⟩ stem instruction).Renumbered first second
      (Value.Renumbered first second) scopes (result scopes ⟨second + distance⟩ stem other) := by
  have sameDest : SameResult first second (TempNames.nameOf stem (first + distance))
      (TempNames.nameOf stem (second + distance)) :=
    ⟨stem, distance, isStem, rfl, rfl⟩
  exact ⟨.some (.temp sameDest), .cons (same _ _ sameDest) .nil, rfl, rfl, rfl, distance + 1, rfl,
    rfl⟩

end Emission

namespace Expr

open Emission

variable {arity? : String → Option Nat} {params : List String} {scopes : Scopes}

mutual

/-- A node that binds nothing is lowered to the same code from any number on. -/
theorem renumbered_emission (first second : Nat) (offers : scopes.Offers params [])
    (node : Expr) (bindsNothing : node.BindsNothing) (distance : Nat) :
    (node.emission arity? scopes ⟨first + distance⟩).Renumbered first second
      (Value.Renumbered first second) scopes
      (node.emission arity? scopes ⟨second + distance⟩) := by
  cases node with
  | number span value =>
    rw [emission, emission]
    exact renumbered_ofValue distance (.constant _)
  | identifier span name =>
    rw [emission, emission]
    split
    · rename_i value resolved
      have available := offers name value resolved
      cases value with
      | constant number => exact renumbered_ofValue distance (.constant _)
      | param index name => exact renumbered_ofValue distance (.param _ _)
      | temp name => cases available
    · exact renumbered_refused distance _
    · exact renumbered_refused distance _
  | text span body =>
    rw [emission, emission]
    exact renumbered_refused distance _
  | list span items =>
    rw [emission, emission]
    exact renumbered_refused distance _
  | functionDef span prototype body =>
    rw [emission, emission]
    exact renumbered_refused distance _
  | variableDef span name initializer =>
    exact absurd (.root _) (bindsNothing span name initializer)
  | arithmetic span operator left right =>
    have sameLeft := renumbered_emission first second offers left
      (bindsNothing.child (by simp [children])) distance
    obtain ⟨further, leftTemps, otherLeftTemps⟩ := sameLeft.advances
    have sameRight := renumbered_emission first second offers right
      (bindsNothing.child (by simp [children])) further
    obtain ⟨last, rightTemps, otherRightTemps⟩ := sameRight.advances
    rw [emission, emission]
    simp only [sameLeft.keepsScopes, sameLeft.otherKeepsScopes, leftTemps, otherLeftTemps,
      sameRight.keepsScopes, sameRight.otherKeepsScopes, rightTemps, otherRightTemps]
    rcases sameLeft.value_cases with ⟨noLeft, otherNoLeft⟩ |
      ⟨leftValue, otherLeftValue, hasLeft, otherHasLeft, sameLeftValue⟩
    · simp only [noLeft, otherNoLeft]
      exact sameLeft.before sameRight.withoutValue
    rcases sameRight.value_cases with ⟨noRight, otherNoRight⟩ |
      ⟨rightValue, otherRightValue, hasRight, otherHasRight, sameRightValue⟩
    · simp only [hasLeft, otherHasLeft, noRight, otherNoRight]
      exact sameLeft.before sameRight.withoutValue
    · simp only [hasLeft, otherHasLeft, hasRight, otherHasRight]
      refine sameLeft.before (sameRight.before
        (renumbered_result (TempNames.isStem_operator operator) last ?_))
      intro dest otherDest sameDest
      exact .arithmetic operator.opcode sameDest sameLeftValue sameRightValue
  | call span callee arguments =>
    rw [emission, emission]
    split
    · exact renumbered_refused distance _
    split
    · exact renumbered_refused distance _
    have sameArguments := renumbered_argumentEmission first second offers callee 1 arguments
      (fun argument member => bindsNothing.child member) distance
    obtain ⟨last, temps, otherTemps⟩ := sameArguments.advances
    simp only [sameArguments.keepsScopes, sameArguments.otherKeepsScopes, temps, otherTemps]
    rcases sameArguments.value_cases with ⟨noValues, otherNoValues⟩ |
      ⟨values, otherValues, hasValues, otherHasValues, sameValues⟩
    · simp only [noValues, otherNoValues]
      exact sameArguments.withoutValue
    · simp only [hasValues, otherHasValues]
      refine sameArguments.before (renumbered_result TempNames.isStem_call last ?_)
      intro dest otherDest sameDest
      exact .call callee.value sameDest sameValues

/-- Arguments that bind nothing are lowered to the same code from any number on. -/
theorem renumbered_argumentEmission (first second : Nat) (offers : scopes.Offers params [])
    (callee : Located String) (position : Nat) (arguments : List Expr)
    (bindNothing : ∀ argument ∈ arguments, argument.BindsNothing) (distance : Nat) :
    (argumentEmission arity? callee position arguments scopes ⟨first + distance⟩).Renumbered
      first second (List.Forall₂ (Value.Renumbered first second)) scopes
      (argumentEmission arity? callee position arguments scopes ⟨second + distance⟩) := by
  cases arguments with
  | nil =>
    rw [argumentEmission, argumentEmission]
    exact renumbered_ofValue distance .nil
  | cons argument others =>
    obtain ⟨bindsNothing, othersBindNothing⟩ := List.forall_mem_cons.1 bindNothing
    have sameFirst := renumbered_emission first second offers argument bindsNothing distance
    obtain ⟨further, temps, otherTemps⟩ := sameFirst.advances
    have sameOthers := renumbered_argumentEmission first second offers callee (position + 1) others
      othersBindNothing further
    rw [argumentEmission, argumentEmission]
    simp only [sameFirst.keepsScopes, sameFirst.otherKeepsScopes, temps, otherTemps]
    rcases sameFirst.value_cases with ⟨noValue, otherNoValue⟩ |
      ⟨value, otherValue, hasValue, otherHasValue, sameValue⟩
    · simp only [noValue, otherNoValue]
      exact sameFirst.before (renumbered_refused further _)
    · simp only [hasValue, otherHasValue]
      exact sameFirst.before (sameOthers.map fun values otherValues => .cons sameValue)

end

end Expr

end Lisplet
