import Lisplet.Proofs.ResultNames
import Lisplet.Proofs.WellFormed

/-!
# Results are numbered through

One counter runs through the whole of a module, and it moves on exactly where an instruction
with a result is added. So the results can be counted off in the finished code: read from top
to bottom, the functions in the order of their declarations and the entry function behind
them, each result bears the number of results before it. Findings leave no gap, because a node
takes its number only after all of its operands have got their values.
-/

namespace Lisplet

/-- The result of an instruction: the word that it is named after, and its name. -/
structure NamedResult where
  stem : String
  name : String
deriving DecidableEq, Repr

/-- The result of an instruction that computes one, named after its operation. -/
def Instruction.result? : Instruction → Option NamedResult
  | arithmetic .fadd dest _ _ => some ⟨"sum", dest⟩
  | arithmetic .fmul dest _ _ => some ⟨"mul", dest⟩
  | call dest _ _ => some ⟨"call", dest⟩
  | ret _ => none

/-- The results of some instructions, in order. -/
def namedResults (code : List Instruction) : List NamedResult :=
  code.filterMap Instruction.result?

/-- All instructions of a module from top to bottom: those of its functions, then those of the
entry function. -/
def Target.code (target : Target) : List Instruction :=
  (target.functions ++ target.entry.toList).flatMap Function.code

namespace Text

/-- A numeral of at least two digits. -/
def twoDigits (number : Nat) : String :=
  if number < 10 then "0" ++ Nat.repr number else Nat.repr number

/-- To give a numeral two digits, one zero is put in front of it or none. -/
theorem zeroPadded_two (number : Nat) : zeroPadded 2 number = twoDigits number := by
  have length : (Nat.repr number).length = (Nat.toDigits 10 number).length := by
    rw [← String.length_toList, Nat.toList_repr]
  have somePositive : 0 < (Nat.toDigits 10 number).length := Nat.length_toDigits_pos
  have oneDigit : (Nat.toDigits 10 number).length ≤ 1 ↔ number < 10 :=
    Nat.length_toDigits_le_iff (by decide) (by decide)
  rw [zeroPadded, twoDigits, length]
  split
  next small =>
    have zeros : 2 - (Nat.toDigits 10 number).length = 1 := by omega
    rw [zeros]
    rfl
  next large =>
    have zeros : 2 - (Nat.toDigits 10 number).length = 0 := by omega
    rw [zeros]
    exact String.empty_append

end Text

namespace Instruction

/-- What is computed is named by the result. -/
theorem dest?_eq_map_result? (instruction : Instruction) :
    instruction.dest? = instruction.result?.map NamedResult.name := by
  cases instruction with
  | arithmetic opcode _ _ _ => cases opcode <;> rfl
  | call | ret => rfl

/-- The result of arithmetic is named after the operator that it comes from. -/
theorem result?_arithmetic (operator : Operator) (dest : String) (left right : Value) :
    (arithmetic operator.opcode dest left right).result? = some ⟨operator.name, dest⟩ := by
  cases operator <;> rfl

/-- The word that a result is named after does not end in a digit. -/
theorem isStem_of_result? {instruction : Instruction} {result : NamedResult}
    (computes : instruction.result? = some result) : TempNames.IsStem result.stem := by
  cases instruction with
  | arithmetic opcode dest left right =>
    cases opcode with
    | fadd =>
      cases computes
      exact TempNames.isStem_operator .sum
    | fmul =>
      cases computes
      exact TempNames.isStem_operator .mul
  | call =>
    cases computes
    exact TempNames.isStem_call
  | ret => cases computes

end Instruction

@[simp] theorem namedResults_append (first second : List Instruction) :
    namedResults (first ++ second) = namedResults first ++ namedResults second :=
  List.filterMap_append

/-- Names of results are listed with the results. -/
theorem resultsOf_eq_map_namedResults (code : List Instruction) :
    resultsOf code = (namedResults code).map NamedResult.name := by
  rw [resultsOf, namedResults, List.map_filterMap]
  exact congrArg (List.filterMap · code) (funext Instruction.dest?_eq_map_result?)

/-- The results of some code are numbered from one number up to another, without a gap. -/
structure Numbered (first : Nat) (code : List Instruction) (next : Nat) : Prop where
  names : (namedResults code).map NamedResult.name =
    ((namedResults code).zipIdx first).map fun numbered =>
      TempNames.nameOf numbered.1.stem numbered.2
  next : next = first + (namedResults code).length

namespace Numbered

variable {first middle next : Nat} {code others : List Instruction}

theorem nil (first : Nat) : Numbered first [] first :=
  ⟨rfl, rfl⟩

/-- Code that goes on counting where other code has stopped is numbered with it. -/
theorem append (front : Numbered first code middle) (rest : Numbered middle others next) :
    Numbered first (code ++ others) next := by
  obtain ⟨frontNames, rfl⟩ := front
  obtain ⟨restNames, rfl⟩ := rest
  constructor
  · rw [namedResults_append, List.map_append, frontNames, restNames, List.zipIdx_append,
      List.map_append]
  · rw [namedResults_append, List.length_append, Nat.add_assoc]

/-- A return takes no number. -/
theorem ret (first : Nat) (value : Value) : Numbered first [.ret value] first :=
  ⟨rfl, rfl⟩

/-- An instruction with a result takes the next number. -/
theorem single {instruction : Instruction} {stem : String}
    (computes : instruction.result? = some ⟨stem, TempNames.nameOf stem first⟩) :
    Numbered first [instruction] (first + 1) := by
  have results : namedResults [instruction] = [⟨stem, TempNames.nameOf stem first⟩] := by
    rw [namedResults, List.filterMap_cons_some computes]
    rfl
  constructor
  · rw [results]
    rfl
  · rw [results]
    rfl

/-- Code that is numbered with other code behind it is numbered by itself, and the other code
goes on counting. -/
theorem of_append (numbered : Numbered first (code ++ others) next) :
    Numbered first code (first + (namedResults code).length) ∧
      Numbered (first + (namedResults code).length) others next := by
  obtain ⟨names, rfl⟩ := numbered
  rw [namedResults_append, List.zipIdx_append, List.map_append, List.map_append] at names
  obtain ⟨front, rest⟩ := List.append_inj names (by simp)
  exact ⟨⟨front, rfl⟩, rest, by rw [namedResults_append, List.length_append, Nat.add_assoc]⟩

/-- Results that are numbered through have different names. -/
theorem nodup (numbered : Numbered first code next) : (resultsOf code).Nodup := by
  have areStems : ∀ stem ∈ (namedResults code).map NamedResult.stem, TempNames.IsStem stem := by
    intro stem member
    obtain ⟨result, isResult, rfl⟩ := List.mem_map.1 member
    obtain ⟨instruction, -, computes⟩ := List.mem_filterMap.1 isResult
    exact Instruction.isStem_of_result? computes
  have distinct := TempNames.nodup_numbered areStems first
  rw [List.zipIdx_map, List.map_map] at distinct
  rw [resultsOf_eq_map_namedResults, numbered.names]
  exact distinct

end Numbered

/-- Each step of lowering that adds a result takes the next number, and no other step does. -/
theorem Emits.numbered {scopes later : Scopes} {temps next : TempNames} {code : List Instruction}
    (emitted : Emits scopes temps code later next) :
    Numbered temps.counter code next.counter := by
  induction emitted with
  | refl => exact .nil _
  | bind _ _ _ inductionHypothesis => exact inductionHypothesis
  | arithmetic _ operator left right inductionHypothesis =>
    exact inductionHypothesis.append
      (.single (Instruction.result?_arithmetic operator _ left right))
  | call _ callee arguments inductionHypothesis => exact inductionHypothesis.append (.single rfl)

/-- The function that returns what an emission computes is numbered like the emission. -/
theorem Function.numbered_ofEmission {emission : Emission Value} {scopes : Scopes}
    {temps : TempNames} (follows : emission.Follows scopes temps) (name : String)
    (params : List String) :
    Numbered temps.counter (Function.ofEmission name params emission).code
      emission.temps.counter := by
  have code : (Function.ofEmission name params emission).code =
      emission.code ++ [.ret (emission.value.getD Generator.noValue)] := by
    simp [Function.ofEmission, Function.code]
  rw [code]
  exact follows.numbered.append (.ret _ _)

/-- Functions that get their bodies one after another are numbered through. Those that are
left out take no number. -/
theorem numbered_definitions (arity? : String → Option Nat) (defined : List (Located String))
    (definitions : List (Prototype × Expr)) (scopes : Scopes) (temps : TempNames) :
    let made := Lisplet.definitions arity? defined definitions scopes temps
    Numbered temps.counter (made.functions.flatMap Function.code) made.temps.counter := by
  induction definitions generalizing defined scopes temps with
  | nil => exact .nil _
  | cons definition rest inductionHypothesis =>
    obtain ⟨prototype, body⟩ := definition
    rw [Lisplet.definitions]
    split
    · exact inductionHypothesis defined scopes temps
    · let params := prototype.params.map Located.value
      let entered := scopes.enterFunction prototype.name.value params
      have own := Function.numbered_ofEmission (body.follows_emission arity? entered temps)
        prototype.name.value params
      exact own.append (inductionHypothesis _ _ _)

namespace Module

/-- The results of a module are numbered from zero. -/
theorem numbered_target (module : Module) (names : TargetNames) :
    Numbered 0 (module.target names).code (module.entryEmission names).temps.counter := by
  have functions : Numbered 0 ((module.definitions names).functions.flatMap Function.code)
      (module.definitions names).temps.counter :=
    numbered_definitions _ _ _ _ {}
  have entry := Function.numbered_ofEmission
    (Generator.follows_formsEmission (module.declared names).arity? none module.forms
      ((module.definitions names).scopes.enterFunction names.entry [])
      (module.definitions names).temps) names.entry []
  have code : (module.target names).code =
      (module.definitions names).functions.flatMap Function.code ++
        (Function.ofEmission names.entry [] (module.entryEmission names)).code := by
    simp [Target.code, target]
  rw [code]
  exact functions.append entry

/-- The functions that are declared are those of the definitions that count, in order. -/
theorem names_declaring (module : Module) (names : TargetNames) :
    (module.declaring names).builder.target.functions.map Function.name =
      (firstDefinitions [] (module.userDefinitions names)).map
        fun definition => definition.1.name.value := by
  rw [declaring_eq, declared, List.map_map]
  rfl

/-- Lowering succeeds on every module, also where it has findings. The functions then stand in
the order in which they were declared, and the results of the whole module, counted from top to
bottom, are named after their operations and numbered from zero without a gap. No two of them
share a name. -/
theorem lower_numbers_results (module : Module) (config : Config) :
    ∃ generator, module.lower config.names = .ok generator ∧
      generator.builder.target.functions.map Function.name =
        (module.declaring config.names).builder.target.functions.map Function.name ∧
      (namedResults generator.builder.target.code).map NamedResult.name =
        (namedResults generator.builder.target.code).mapIdx (fun position result =>
          result.stem ++ Text.twoDigits position) ∧
      (resultsOf generator.builder.target.code).Nodup := by
  have numbered := module.numbered_target config.names
  refine ⟨_, module.lower_eq config.names, ?_, ?_, numbered.nodup⟩
  · rw [module.names_declaring]
    exact module.names_target config.names
  · rw [List.mapIdx_eq_zipIdx_map]
    simp only [← Text.zeroPadded_two]
    exact numbered.names

end Module

end Lisplet
