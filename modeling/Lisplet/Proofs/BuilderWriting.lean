import Lisplet.Target.Builder
import Mathlib.Data.List.Basic

/-!
# Writing code at the insertion point

Work on a builder is done step by step. `Builder.carryOut_appendBlock` and
`Builder.carryOut_push` sum up what the steps of adding a block and an instruction
come to, where nothing is changed before the last check is passed.

A builder is open when the last block of the function at hand takes further
instructions. An open builder accepts every instruction, and `Builder.write` says
what a sequence of accepted instructions does: it extends that one block and
leaves everything else as it was.
-/

namespace Lisplet

namespace Block

/-- Add instructions at the end. -/
def write (block : Block) (code : List Instruction) : Block :=
  { block with instructions := block.instructions ++ code }

@[simp] theorem write_nil (block : Block) : block.write [] = block := by
  simp [write]

/-- Code in two parts is written one part after the other. -/
theorem write_append (block : Block) (first second : List Instruction) :
    block.write (first ++ second) = (block.write first).write second := by
  simp [write]

/-- A block that is not terminated stays so as long as no return is added. -/
theorem isTerminated_write {block : Block} {code : List Instruction}
    (running : block.isTerminated = false)
    (plain : ∀ instruction ∈ code, instruction.isTerminator = false) :
    (block.write code).isTerminated = false := by
  simp only [isTerminated, write, List.getLast?_append]
  cases final : code.getLast? with
  | none => simpa [isTerminated] using running
  | some last => simpa using plain last (List.mem_of_getLast? final)

end Block

namespace Function

/-- Whether the function has a last block that takes further instructions. -/
def IsOpen (function : Function) : Prop :=
  ∃ last, function.blocks.getLast? = some last ∧ last.isTerminated = false

/-- Add instructions at the end of the last block. -/
def write (function : Function) (code : List Instruction) : Function :=
  function.modifyLastBlock fun last => last.write code

@[simp] theorem write_name (function : Function) (code : List Instruction) :
    (function.write code).name = function.name := by
  simp only [write, modifyLastBlock]
  split <;> rfl

@[simp] theorem write_params (function : Function) (code : List Instruction) :
    (function.write code).params = function.params := by
  simp only [write, modifyLastBlock]
  split <;> rfl

/-- Writing changes the last block only. -/
theorem write_eq {function : Function} {last : Block}
    (found : function.blocks.getLast? = some last) (code : List Instruction) :
    function.write code =
      { function with blocks := function.blocks.dropLast ++ [last.write code] } := by
  simp only [write, modifyLastBlock, found]

/-- A function without blocks has nowhere to write to. -/
theorem write_of_blocks_eq_nil {function : Function} (empty : function.blocks = [])
    (code : List Instruction) : function.write code = function := by
  simp [write, modifyLastBlock, empty]

/-- Code is written to the last block. -/
theorem getLast?_write {function : Function} {last : Block}
    (found : function.blocks.getLast? = some last) (code : List Instruction) :
    (function.write code).blocks.getLast? = some (last.write code) := by
  simp [write_eq found]

@[simp] theorem write_nil (function : Function) : function.write [] = function := by
  cases found : function.blocks.getLast? with
  | none => exact write_of_blocks_eq_nil (List.getLast?_eq_none_iff.1 found) []
  | some last =>
    have whole : function.blocks.dropLast ++ [last] = function.blocks :=
      List.dropLast_append_getLast? last found
    rw [write_eq found, Block.write_nil, whole]

/-- Code in two parts is written one part after the other. -/
theorem write_append (function : Function) (first second : List Instruction) :
    function.write (first ++ second) = (function.write first).write second := by
  cases found : function.blocks.getLast? with
  | none =>
    have empty := List.getLast?_eq_none_iff.1 found
    simp only [write_of_blocks_eq_nil empty]
  | some last =>
    rw [write_eq (getLast?_write found first), write_eq found, write_eq found]
    simp [Block.write_append]

/-- An open function stays open as long as no return is added. -/
theorem IsOpen.write {function : Function} {code : List Instruction} (isOpen : function.IsOpen)
    (plain : ∀ instruction ∈ code, instruction.isTerminator = false) :
    (function.write code).IsOpen := by
  obtain ⟨last, found, running⟩ := isOpen
  exact ⟨last.write code, getLast?_write found code, Block.isTerminated_write running plain⟩

end Function

namespace Target

/-- The number of parameters that the function of a name was declared with. -/
def arity? (target : Target) (name : String) : Option Nat :=
  (target.function? name).map Function.arity

/-- A change that keeps names is seen by every look-up. -/
theorem function?_modifyFunction (target : Target) (name other : String)
    {change : Function → Function}
    (keepsName : ∀ function, (change function).name = function.name) :
    (target.modifyFunction name change).function? other =
      (target.function? other).map fun function =>
        if function.name == name then change function else function := by
  simp only [function?, modifyFunction, List.find?_map]
  congr 2
  funext function
  simp only [Function.comp_apply]
  split <;> simp [keepsName]

/-- The function of a name bears that name. -/
theorem name_of_function? {target : Target} {name : String} {function : Function}
    (found : target.function? name = some function) : function.name = name := by
  simpa using List.find?_some found

/-- A function that is found by its name is one of the module. -/
theorem mem_of_function? {target : Target} {name : String} {function : Function}
    (found : target.function? name = some function) : function ∈ target.functions :=
  List.mem_of_find?_eq_some found

end Target

namespace Builder

section Work

variable {α β : Type} (builder : Builder)

@[simp] theorem carryOut_pure (value : α) : builder.carryOut (pure value) = (.ok value, builder) :=
  rfl

@[simp] theorem carryOut_throw (error : BuilderError) :
    builder.carryOut (throw error : Building α) = (.error error, builder) :=
  rfl

@[simp] theorem carryOut_get : builder.carryOut get = (.ok builder, builder) :=
  rfl

@[simp] theorem carryOut_modify (change : Builder → Builder) :
    builder.carryOut (modify change) = (.ok (), change builder) :=
  rfl

/-- Work goes on with the builder that was left, unless it was refused. -/
@[simp] theorem carryOut_bind (first : Building α) (next : α → Building β) :
    builder.carryOut (first >>= next) =
      match builder.carryOut first with
      | (.error error, left) => (.error error, left)
      | (.ok value, left) => left.carryOut (next value) := by
  have bound : builder.carryOut (first >>= next) =
      Id.run ((ExceptT.bindCont next (builder.carryOut first).1).run (builder.carryOut first).2) :=
    rfl
  rw [bound]
  rcases builder.carryOut first with ⟨error | value, left⟩ <;> rfl

@[simp] theorem carryOut_map (change : α → β) (work : Building α) :
    builder.carryOut (change <$> work) =
      ((builder.carryOut work).1.map change, (builder.carryOut work).2) := by
  rw [← bind_pure_comp, carryOut_bind]
  rcases builder.carryOut work with ⟨error | value, left⟩ <;> rfl

@[simp] theorem carryOut_required_none (error : BuilderError) :
    builder.carryOut (required error none : Building α) = (.error error, builder) :=
  rfl

@[simp] theorem carryOut_required_some (error : BuilderError) (value : α) :
    builder.carryOut (required error (some value)) = (.ok value, builder) :=
  rfl

/-- A block is added to every declared function, and to no other. -/
theorem carryOut_appendBlock (function label : String) :
    builder.carryOut (appendBlock function label) =
      match builder.target.function? function with
      | none => (.error (.unknownFunction function), builder)
      | some _ => (.ok (), {
          target := builder.target.modifyFunction function fun found =>
            found.appendBlock ⟨label, []⟩
          insertPoint := some (.function function) }) := by
  simp only [appendBlock, carryOut_bind, carryOut_get]
  cases builder.target.function? function with
  | none => rfl
  | some found => rfl

/-- An instruction is added to a block that has not returned, and to no other. -/
theorem carryOut_push (instruction : Instruction) :
    builder.carryOut (push instruction) =
      match builder.insertPoint with
      | none => (.error .noInsertPoint, builder)
      | some point =>
        match builder.currentFunction? with
        | none => (.error (missingFunction point), builder)
        | some function =>
          match function.blocks.getLast? with
          | none => (.error .noInsertPoint, builder)
          | some block =>
            if block.isTerminated then (.error (.blockTerminated block.label), builder)
            else (.ok (), builder.modifyAt point fun found =>
              found.modifyLastBlock fun last => last.push instruction) := by
  simp only [push, carryOut_bind, carryOut_get]
  cases builder.insertPoint with
  | none => rfl
  | some point =>
    cases builder.currentFunction? with
    | none => rfl
    | some function =>
      simp only [carryOut_required_some]
      cases function.blocks.getLast? with
      | none => rfl
      | some block =>
        cases terminated : block.isTerminated <;> simp [terminated]

end Work

/-- Whether the builder has a place that takes further instructions. -/
def IsOpen (builder : Builder) : Prop :=
  ∃ function, builder.currentFunction? = some function ∧ function.IsOpen

/-- Add instructions at the insertion point. -/
def write (builder : Builder) (code : List Instruction) : Builder :=
  match builder.insertPoint with
  | none => builder
  | some point => builder.modifyAt point fun function => function.write code

@[simp] theorem write_nil (builder : Builder) : builder.write [] = builder := by
  obtain ⟨target, _ | point⟩ := builder
  · rfl
  · cases point <;> simp [write, modifyAt, Target.modifyFunction]

/-- Code in two parts is written one part after the other. -/
theorem write_append (builder : Builder) (first second : List Instruction) :
    builder.write (first ++ second) = (builder.write first).write second := by
  obtain ⟨target, _ | point⟩ := builder
  · rfl
  · cases point with
    | entry => simp [write, modifyAt, Function.write_append, Function.comp_def]
    | function name =>
      simp only [write, modifyAt, Target.modifyFunction, List.map_map]
      congr 2
      apply List.map_congr_left
      intro function _
      simp only [Function.comp_apply]
      split <;> rename_i named
      · simp [named, Function.write_append]
      · rfl

/-- Writing leaves the declarations as they are. -/
@[simp] theorem arity?_write (builder : Builder) (code : List Instruction) :
    (builder.write code).target.arity? = builder.target.arity? := by
  funext name
  obtain ⟨target, _ | point⟩ := builder
  · rfl
  · cases point with
    | entry => rfl
    | function current =>
      simp only [write, modifyAt, Target.arity?,
        Target.function?_modifyFunction target current name fun function =>
          function.write_name code, Option.map_map]
      congr 1
      funext function
      simp only [Function.comp_apply, Function.arity]
      split <;> simp

/-- Code is written to the current function. -/
theorem currentFunction?_write {builder : Builder} {function : Function}
    (current : builder.currentFunction? = some function) (code : List Instruction) :
    (builder.write code).currentFunction? = some (function.write code) := by
  obtain ⟨target, _ | point⟩ := builder
  · cases current
  · cases point with
    | entry =>
      have atEntry : target.entry = some function := current
      simp [write, modifyAt, currentFunction?, atEntry]
    | function name =>
      have atName : target.function? name = some function := current
      simp [write, modifyAt, currentFunction?, Target.function?_modifyFunction, atName,
        Target.name_of_function? atName]

/-- An open builder accepts every instruction. -/
theorem IsOpen.carryOut_push {builder : Builder} (isOpen : builder.IsOpen)
    (instruction : Instruction) :
    builder.carryOut (push instruction) = (.ok (), builder.write [instruction]) := by
  obtain ⟨function, current, last, found, running⟩ := isOpen
  obtain ⟨target, _ | point⟩ := builder
  · cases current
  · simp only [Builder.carryOut_push, current, found, running]
    rfl

/-- An open builder stays open as long as no return is added. -/
theorem IsOpen.write {builder : Builder} {code : List Instruction} (isOpen : builder.IsOpen)
    (plain : ∀ instruction ∈ code, instruction.isTerminator = false) :
    (builder.write code).IsOpen := by
  obtain ⟨function, current, functionOpen⟩ := isOpen
  exact ⟨function.write code, currentFunction?_write current code, functionOpen.write plain⟩

end Builder

end Lisplet
