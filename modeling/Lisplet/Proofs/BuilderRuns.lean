import Lisplet.Proofs.ModuleLowering
import Mathlib.Data.List.Induction
import Mathlib.Data.List.Nodup

/-!
# Runs of a builder

A builder may be used in any order: functions are declared again with other parameters,
blocks are added to functions that have returned, the entry function is made anew while
code goes into it. `Builder.Sound` holds of a new builder and every operation keeps it:
names of functions are distinct, nothing follows a return, and an insertion point is the
last block of a function that is there. In a sound builder the outcome of an operation can
be told from the insertion point alone, and an instruction that is accepted changes the one
block that it is added to. An operation that is refused changes nothing, because all of its
checks come before its first change.
-/

namespace Lisplet

namespace Block

/-- Whether a return can only be the last instruction. -/
def ReturnsLast (block : Block) : Prop :=
  ∀ before value after, block.instructions = before ++ .ret value :: after → after = []

theorem returnsLast_empty (label : String) : (⟨label, []⟩ : Block).ReturnsLast := by
  intro before value after split
  simp at split

theorem isTerminated_iff {block : Block} :
    block.isTerminated ↔ ∃ value, block.instructions.getLast? = some (.ret value) := by
  rw [isTerminated]
  cases block.instructions.getLast? with
  | none => simp
  | some last => cases last <;> simp [Instruction.isTerminator]

/-- An instruction may follow as long as the block has not returned. -/
theorem ReturnsLast.push {block : Block} (returnsLast : block.ReturnsLast)
    (running : block.isTerminated = false) (instruction : Instruction) :
    (block.push instruction).ReturnsLast := by
  intro before value after split
  rcases List.eq_nil_or_concat' after with rfl | ⟨middle, last, rfl⟩
  · rfl
  · have front : block.instructions = before ++ .ret value :: middle := by
      have appended : block.instructions ++ [instruction] =
          (before ++ .ret value :: middle) ++ [last] := by
        simpa [Block.push] using split
      exact (List.append_inj' appended rfl).1
    obtain rfl := returnsLast before value middle front
    have terminated : block.isTerminated = true :=
      isTerminated_iff.2 ⟨value, by simp [front]⟩
    simp [running] at terminated

end Block

namespace Function

/-- Whether a return can only be the last instruction of each block. -/
def ReturnsLast (function : Function) : Prop :=
  ∀ block ∈ function.blocks, block.ReturnsLast

theorem ReturnsLast.appendBlock {function : Function} (returnsLast : function.ReturnsLast)
    (label : String) : (function.appendBlock ⟨label, []⟩).ReturnsLast := by
  intro block member
  rcases List.mem_append.1 member with earlier | new
  · exact returnsLast block earlier
  · rw [List.mem_singleton.1 new]
    exact Block.returnsLast_empty label

/-- The last block may be replaced by one in which nothing follows a return. -/
theorem ReturnsLast.replaceLast {function : Function} {front : List Block} {last other : Block}
    (returnsLast : function.ReturnsLast) (blocks : function.blocks = front ++ [last])
    (otherReturnsLast : other.ReturnsLast) :
    ({ function with blocks := front ++ [other] } : Function).ReturnsLast := by
  intro block member
  rcases List.mem_append.1 member with earlier | new
  · exact returnsLast block (by simp [blocks, earlier])
  · rw [List.mem_singleton.1 new]
    exact otherReturnsLast

end Function

namespace Target

/-- A change of functions that keeps their names and parameters is not seen in either. -/
theorem signatures_modifyFunction (target : Target) (name : String)
    {change : Function → Function}
    (keeps : ∀ function, (change function).signature = function.signature) :
    (target.modifyFunction name change).functions.map Function.signature =
      target.functions.map Function.signature := by
  simp only [modifyFunction, List.map_map]
  apply List.map_congr_left
  intro function _
  simp only [Function.comp_apply]
  split
  · exact keeps function
  · rfl

theorem names_eq_of_signatures {target other : Target}
    (same : target.functions.map Function.signature = other.functions.map Function.signature) :
    target.functions.map Function.name = other.functions.map Function.name := by
  have names := congrArg (List.map Prod.fst) same
  simpa [Function.comp_def, Function.signature] using names

/-- Among distinct names, a function stands apart from all others. -/
theorem apart_of_distinct {target : Target} {earlier later : List Function} {function : Function}
    (distinct : (target.functions.map Function.name).Nodup)
    (functions : target.functions = earlier ++ function :: later) :
    ∀ other ∈ earlier ++ later, other.name ≠ function.name := by
  rw [functions, List.map_append, List.map_cons, List.nodup_middle, ← List.map_append] at distinct
  intro other member same
  exact (List.nodup_cons.1 distinct).1 (List.mem_map.2 ⟨other, member, same⟩)

end Target

namespace Builder

/-- What can be done with a builder. -/
inductive Operation where
  | declareFunction (name : String) (params : List String)
  | createEntry (name label : String)
  | appendBlock (function label : String)
  | clearInsertPoint
  | arithmetic (opcode : Opcode) (left right : Value) (dest : String)
  | call (callee : String) (arguments : List Value) (dest : String)
  | ret (value : Value)
deriving DecidableEq, Repr

/-- The instruction that an operation adds. -/
def Operation.instruction? : Operation → Option Instruction
  | arithmetic opcode left right dest => some (.arithmetic opcode dest left right)
  | call callee arguments dest => some (.call dest callee arguments)
  | ret value => some (.ret value)
  | _ => none

/-- What an operation does. It results in an operand if it adds an instruction that computes a
value. -/
def Operation.work : Operation → Building (Option Value)
  | declareFunction name params => do
    modify fun builder => (builder.declareFunction name params).2
    pure none
  | createEntry name label => do
    modify fun builder => builder.createEntry name label
    pure none
  | appendBlock function label => do
    Builder.appendBlock function label
    pure none
  | clearInsertPoint => do
    modify Builder.clearInsertPoint
    pure none
  | arithmetic opcode left right dest => some <$> buildArithmetic opcode left right dest
  | call callee arguments dest => some <$> buildCall callee arguments dest
  | ret value => do
    buildReturn value
    pure none

/-- The outcome of an operation and the builder afterwards. -/
def perform (builder : Builder) (operation : Operation) :
    Except BuilderError (Option Value) × Builder :=
  builder.carryOut operation.work

/-- The builder of a new module after operations, in order, whatever their outcomes. -/
def run (name : String) (operations : List Operation) : Builder :=
  operations.foldl (fun builder operation => (builder.perform operation).2) (.new name)

/-- Whether a builder is another one with one more instruction, at the end of the last block
of the function at hand. -/
inductive Extends (builder : Builder) (instruction : Instruction) : Builder → Prop where
  | function {earlier later : List Function} {function : Function} {front : List Block}
      {last : Block} (here : builder.insertPoint = some (.function function.name))
      (functions : builder.target.functions = earlier ++ function :: later)
      (blocks : function.blocks = front ++ [last]) :
      Extends builder instruction { builder with target := { builder.target with
        functions := earlier ++
          { function with blocks := front ++ [last.push instruction] } :: later } }
  | entry {function : Function} {front : List Block} {last : Block}
      (here : builder.insertPoint = some .entry) (isEntry : builder.target.entry = some function)
      (blocks : function.blocks = front ++ [last]) :
      Extends builder instruction { builder with target := { builder.target with
        entry := some { function with blocks := front ++ [last.push instruction] } } }

/-- Whether names of functions are distinct, nothing follows a return, and the insertion point
is in a function that has a block. -/
structure Sound (builder : Builder) : Prop where
  distinct : (builder.target.functions.map Function.name).Nodup
  functions : ∀ function ∈ builder.target.functions, function.ReturnsLast
  entry : ∀ function ∈ builder.target.entry, function.ReturnsLast
  placed : ∀ point, builder.insertPoint = some point →
    ∃ function, builder.currentFunction? = some function ∧ function.blocks ≠ []

theorem sound_new (name : String) : (new name).Sound where
  distinct := .nil
  functions := by simp [new]
  entry := by simp [new]
  placed := by simp [new]

section Instructions

/-- Writing keeps the names, the parameters and the order of functions. -/
theorem signatures_write (builder : Builder) (code : List Instruction) :
    (builder.write code).target.functions.map Function.signature =
      builder.target.functions.map Function.signature := by
  obtain ⟨target, _ | point⟩ := builder
  · rfl
  · cases point with
    | entry => rfl
    | function name =>
      exact target.signatures_modifyFunction name fun function => by simp [Function.signature]

variable {builder : Builder}

/-- What is written to the function at hand goes to the end of its last block. -/
theorem Sound.extends_write (sound : builder.Sound) {function : Function} {front : List Block}
    {last : Block} (current : builder.currentFunction? = some function)
    (blocks : function.blocks = front ++ [last]) (instruction : Instruction) :
    builder.Extends instruction (builder.write [instruction]) := by
  have written : function.write [instruction] =
      { function with blocks := front ++ [last.push instruction] } := by
    have found : function.blocks.getLast? = some last := by simp [blocks]
    rw [Function.write_eq found]
    simp [blocks, Block.write, Block.push]
  obtain ⟨target, _ | point⟩ := builder
  · cases current
  · cases point with
    | entry =>
      have isEntry : target.entry = some function := current
      have result : (⟨target, some .entry⟩ : Builder).write [instruction] =
          ⟨{ target with entry := some { function with
            blocks := front ++ [last.push instruction] } }, some .entry⟩ := by
        simp [write, modifyAt, isEntry, written]
      rw [result]
      exact .entry rfl isEntry blocks
    | function name =>
      have found : target.function? name = some function := current
      obtain rfl := Target.name_of_function? found
      obtain ⟨earlier, later, functions⟩ := List.append_of_mem (Target.mem_of_function? found)
      have apart := Target.apart_of_distinct sound.distinct functions
      have result : (⟨target, some (.function function.name)⟩ : Builder).write [instruction] =
          ⟨{ target with functions := earlier ++ { function with
            blocks := front ++ [last.push instruction] } :: later },
            some (.function function.name)⟩ := by
        simp only [write, modifyAt, Target.modifyFunction_middle functions apart, written]
      rw [result]
      exact .function rfl functions blocks

/-- The block that takes the next instruction has not returned. -/
theorem IsOpen.running (isOpen : builder.IsOpen) {function : Function} {front : List Block}
    {last : Block} (current : builder.currentFunction? = some function)
    (blocks : function.blocks = front ++ [last]) : last.isTerminated = false := by
  obtain ⟨atHand, isAtHand, final, found, running⟩ := isOpen
  cases current.symm.trans isAtHand
  have same : last = final := by simpa [blocks] using found
  exact same ▸ running

/-- A sound builder stays so with one more instruction in a block that has not returned. -/
theorem Sound.of_extends (sound : builder.Sound) (isOpen : builder.IsOpen)
    {instruction : Instruction} {next : Builder} (extended : builder.Extends instruction next) :
    next.Sound := by
  cases extended with
  | @function earlier later function front last here functions blocks =>
    have apart := Target.apart_of_distinct sound.distinct functions
    have apartEarlier : ∀ other ∈ earlier, other.name ≠ function.name :=
      fun other member => apart other (List.mem_append_left later member)
    have current : builder.currentFunction? = some function := by
      simp only [currentFunction?, here]
      exact Target.function?_middle functions apartEarlier
    have member : function ∈ builder.target.functions := by simp [functions]
    have lastReturnsLast : last.ReturnsLast :=
      sound.functions function member last (by simp [blocks])
    have pushed := lastReturnsLast.push (isOpen.running current blocks) instruction
    refine ⟨by simpa [functions] using sound.distinct, ?_, sound.entry, ?_⟩
    · intro other among
      rcases List.mem_append.1 among with before | among
      · exact sound.functions other (by simp [functions, before])
      rcases List.mem_cons.1 among with rfl | after
      · exact (sound.functions function member).replaceLast blocks pushed
      · exact sound.functions other (by simp [functions, after])
    · intro point _
      let extended : Function := { function with blocks := front ++ [last.push instruction] }
      have found : (inside builder.target earlier extended later).currentFunction? =
          some extended :=
        currentFunction?_inside apartEarlier
      refine ⟨extended, ?_, by simp [extended]⟩
      simp only [currentFunction?, here]
      exact found
  | @entry function front last here isEntry blocks =>
    have current : builder.currentFunction? = some function := by
      simp only [currentFunction?, here, isEntry]
    have lastReturnsLast : last.ReturnsLast :=
      sound.entry function isEntry last (by simp [blocks])
    have pushed := lastReturnsLast.push (isOpen.running current blocks) instruction
    refine ⟨sound.distinct, sound.functions, ?_, ?_⟩
    · rintro other ⟨⟩
      exact (sound.entry function isEntry).replaceLast blocks pushed
    · intro point _
      refine ⟨{ function with blocks := front ++ [last.push instruction] }, ?_, by simp⟩
      simp only [currentFunction?, here]

/-- Whether the last block of the function at hand ends in a return, and which block that is. -/
def ReturnedIn (builder : Builder) (last : Block) : Prop :=
  ∃ function value, builder.currentFunction? = some function ∧
    function.blocks.getLast? = some last ∧ last.instructions.getLast? = some (.ret value)

/-- What becomes of an instruction: there is no place for it, the block has returned, or it
is added there. -/
theorem Sound.push_cases (sound : builder.Sound) (instruction : Instruction) :
    (builder.insertPoint = none ∧
      builder.carryOut (push instruction) = (.error .noInsertPoint, builder)) ∨
    (builder.insertPoint ≠ none ∧ ∃ last, builder.ReturnedIn last ∧
      builder.carryOut (push instruction) = (.error (.blockTerminated last.label), builder)) ∨
    (builder.insertPoint ≠ none ∧ (∀ last, ¬ builder.ReturnedIn last) ∧ builder.IsOpen ∧
      builder.carryOut (push instruction) = (.ok (), builder.write [instruction]) ∧
      builder.Extends instruction (builder.write [instruction])) := by
  cases here : builder.insertPoint with
  | none => exact .inl ⟨rfl, by simp [carryOut_push, here]⟩
  | some point =>
    obtain ⟨function, current, notEmpty⟩ := sound.placed point here
    obtain ⟨front, last, blocks⟩ := (List.eq_nil_or_concat' function.blocks).resolve_left notEmpty
    have isLast : function.blocks.getLast? = some last := by simp [blocks]
    cases terminated : last.isTerminated with
    | true =>
      obtain ⟨value, final⟩ := Block.isTerminated_iff.1 terminated
      exact .inr (.inl ⟨by simp, last, ⟨function, value, current, isLast, final⟩,
        by simp [carryOut_push, here, current, isLast, terminated]⟩)
    | false =>
      have isOpen : builder.IsOpen := ⟨function, current, last, isLast, terminated⟩
      refine .inr (.inr ⟨by simp, ?_, isOpen, isOpen.carryOut_push instruction,
        sound.extends_write current blocks instruction⟩)
      rintro other ⟨_, value, isCurrent, found, final⟩
      cases isCurrent.symm.trans current
      cases found.symm.trans isLast
      have returned := Block.isTerminated_iff.2 ⟨value, final⟩
      simp [terminated] at returned

end Instructions

section Operations

variable {builder : Builder}

/-- A declaration adds at most one function, after all others. -/
theorem Sound.declareFunction (sound : builder.Sound) (name : String) (params : List String) :
    (builder.declareFunction name params).2.Sound := by
  by_cases declared : name ∈ builder.target.functions.map Function.name
  · simp only [Builder.declareFunction, Target.declare_of_mem declared]
    exact sound
  · simp only [Builder.declareFunction, Target.declare_of_not_mem declared]
    refine ⟨?_, ?_, sound.entry, ?_⟩
    · rw [List.map_append]
      refine List.nodup_append.2 ⟨sound.distinct, List.nodup_singleton _, ?_⟩
      intro other member new isNew same
      have isName : new = name := List.mem_singleton.1 isNew
      exact declared (isName ▸ same ▸ member)
    · intro function member
      rcases List.mem_append.1 member with earlier | new
      · exact sound.functions function earlier
      · rw [List.mem_singleton.1 new]
        exact List.forall_mem_nil _
    · intro point here
      obtain ⟨function, current, notEmpty⟩ := sound.placed point here
      refine ⟨function, ?_, notEmpty⟩
      have here : builder.insertPoint = some point := here
      cases point with
      | entry => simpa [currentFunction?, here] using current
      | function name =>
        have found : builder.target.function? name = some function := by
          simpa [currentFunction?, here] using current
        simp only [currentFunction?, here, Target.function?, List.find?_append]
        rw [Target.function?] at found
        rw [found, Option.some_or]

/-- A declaration hands out the function of the name as it then is in the module. -/
theorem function?_declareFunction (builder : Builder) (name : String) (params : List String) :
    (builder.declareFunction name params).2.target.function? name =
      some (builder.declareFunction name params).1 := by
  cases found : builder.target.function? name with
  | some declared => simp [Builder.declareFunction, Target.declare, found]
  | none =>
    rw [Target.function?] at found
    simp [Builder.declareFunction, Target.declare, Target.function?, found]

theorem Sound.createEntry (sound : builder.Sound) (name label : String) :
    (builder.createEntry name label).Sound := by
  refine ⟨sound.distinct, sound.functions, ?_, ?_⟩
  · rintro function ⟨⟩ block member
    rw [List.mem_singleton.1 member]
    exact Block.returnsLast_empty label
  · intro point _
    exact ⟨⟨name, [], [⟨label, []⟩]⟩, rfl, by simp⟩

theorem Sound.clearInsertPoint (sound : builder.Sound) : builder.clearInsertPoint.Sound :=
  ⟨sound.distinct, sound.functions, sound.entry, fun _ here => by cases here⟩

/-- What becomes of a block: its function was never declared, or it is added there. -/
theorem perform_appendBlock_cases (builder : Builder) (name label : String) :
    (builder.target.function? name = none ∧
      builder.perform (.appendBlock name label) = (.error (.unknownFunction name), builder)) ∨
    ∃ function, builder.target.function? name = some function ∧
      builder.perform (.appendBlock name label) = (.ok none, {
        target := builder.target.modifyFunction name fun found => found.appendBlock ⟨label, []⟩
        insertPoint := some (.function name) }) := by
  simp only [perform, Operation.work, carryOut_bind, carryOut_appendBlock]
  cases builder.target.function? name with
  | none => exact .inl ⟨rfl, rfl⟩
  | some function => exact .inr ⟨function, rfl, rfl⟩

theorem Sound.appendBlock (sound : builder.Sound) {name label : String} {function : Function}
    (found : builder.target.function? name = some function) :
    (⟨builder.target.modifyFunction name fun found => found.appendBlock ⟨label, []⟩,
      some (.function name)⟩ : Builder).Sound := by
  have signatures := builder.target.signatures_modifyFunction name
    fun found => (rfl : (found.appendBlock ⟨label, []⟩).signature = found.signature)
  refine ⟨?_, ?_, sound.entry, ?_⟩
  · rw [Target.names_eq_of_signatures signatures]
    exact sound.distinct
  · intro changed member
    obtain ⟨other, among, rfl⟩ := List.mem_map.1 member
    split
    · exact (sound.functions other among).appendBlock label
    · exact sound.functions other among
  · intro point _
    refine ⟨function.appendBlock ⟨label, []⟩, ?_, by simp [Function.appendBlock]⟩
    simp [currentFunction?, Target.function?_modifyFunction, Function.appendBlock, found,
      Target.name_of_function? found]

/-- An operation that adds an instruction comes to no more than that. -/
theorem perform_of_instruction {operation : Operation} {instruction : Instruction}
    (adds : operation.instruction? = some instruction) (builder : Builder) :
    builder.perform operation =
      ((builder.carryOut (push instruction)).1.map fun _ => instruction.dest?.map Value.temp,
        (builder.carryOut (push instruction)).2) := by
  cases operation with
  | declareFunction name params => cases adds
  | createEntry name label => cases adds
  | appendBlock function label => cases adds
  | clearInsertPoint => cases adds
  | arithmetic opcode left right dest =>
    cases adds
    simp only [perform, Operation.work, buildArithmetic, pushValue, carryOut_map, carryOut_bind]
    rcases builder.carryOut (push _) with ⟨error | ⟨⟩, left⟩ <;> rfl
  | call callee arguments dest =>
    cases adds
    simp only [perform, Operation.work, buildCall, pushValue, carryOut_map, carryOut_bind]
    rcases builder.carryOut (push _) with ⟨error | ⟨⟩, left⟩ <;> rfl
  | ret value =>
    cases adds
    simp only [perform, Operation.work, buildReturn, carryOut_bind]
    rcases builder.carryOut (push _) with ⟨error | ⟨⟩, left⟩ <;> rfl

/-- What becomes of an operation that adds an instruction. -/
theorem Sound.perform_cases (sound : builder.Sound) {operation : Operation}
    {instruction : Instruction} (adds : operation.instruction? = some instruction) :
    (builder.insertPoint = none ∧ builder.perform operation = (.error .noInsertPoint, builder)) ∨
    (builder.insertPoint ≠ none ∧ ∃ last, builder.ReturnedIn last ∧
      builder.perform operation = (.error (.blockTerminated last.label), builder)) ∨
    (builder.insertPoint ≠ none ∧ (∀ last, ¬ builder.ReturnedIn last) ∧ builder.IsOpen ∧
      builder.perform operation =
        (.ok (instruction.dest?.map Value.temp), builder.write [instruction]) ∧
      builder.Extends instruction (builder.write [instruction])) := by
  rw [perform_of_instruction adds]
  rcases sound.push_cases instruction with ⟨nowhere, refused⟩ | ⟨here, last, returned, refused⟩ |
    ⟨here, running, isOpen, accepted, extended⟩
  · exact .inl ⟨nowhere, by rw [refused]; rfl⟩
  · exact .inr (.inl ⟨here, last, returned, by rw [refused]; rfl⟩)
  · exact .inr (.inr ⟨here, running, isOpen, by rw [accepted]; rfl, extended⟩)

theorem Sound.perform_of_instruction (sound : builder.Sound) {operation : Operation}
    {instruction : Instruction} (adds : operation.instruction? = some instruction) :
    (builder.perform operation).2.Sound := by
  rcases sound.perform_cases adds with ⟨-, performed⟩ | ⟨-, last, -, performed⟩ |
    ⟨-, -, isOpen, performed, extended⟩ <;> rw [performed]
  · exact sound
  · exact sound
  · exact sound.of_extends isOpen extended

/-- Every operation keeps a builder sound. -/
theorem Sound.perform (sound : builder.Sound) (operation : Operation) :
    (builder.perform operation).2.Sound := by
  cases operation with
  | declareFunction name params => exact sound.declareFunction name params
  | createEntry name label => exact sound.createEntry name label
  | clearInsertPoint => exact sound.clearInsertPoint
  | appendBlock name label =>
    rcases builder.perform_appendBlock_cases name label with
      ⟨-, refused⟩ | ⟨function, found, accepted⟩
    · rw [refused]
      exact sound
    · rw [accepted]
      exact sound.appendBlock found
  | arithmetic opcode left right dest => exact sound.perform_of_instruction rfl
  | call callee arguments dest => exact sound.perform_of_instruction rfl
  | ret value => exact sound.perform_of_instruction rfl

/-- The name and the parameters of the function that an operation adds to a module. -/
def added (builder : Builder) : Operation → List (String × List String)
  | .declareFunction name params =>
    if name ∈ builder.target.functions.map Function.name then [] else [(name, params)]
  | _ => []

theorem Sound.signatures_of_instruction (sound : builder.Sound) {operation : Operation}
    {instruction : Instruction} (adds : operation.instruction? = some instruction) :
    (builder.perform operation).2.target.functions.map Function.signature =
      builder.target.functions.map Function.signature := by
  rcases sound.perform_cases adds with ⟨-, performed⟩ | ⟨-, last, -, performed⟩ |
    ⟨-, -, -, performed, -⟩ <;> rw [performed]
  exact builder.signatures_write [instruction]

/-- Functions keep their names, their parameters and their order, and new ones come last. -/
theorem Sound.signatures_perform (sound : builder.Sound) (operation : Operation) :
    (builder.perform operation).2.target.functions.map Function.signature =
      builder.target.functions.map Function.signature ++ builder.added operation := by
  cases operation with
  | declareFunction name params =>
    have performed : (builder.perform (.declareFunction name params)).2 =
        (builder.declareFunction name params).2 := rfl
    simp only [performed, Builder.declareFunction, added]
    split <;> rename_i declared
    · rw [Target.declare_of_mem declared, List.append_nil]
    · rw [Target.declare_of_not_mem declared, List.map_append]
      rfl
  | createEntry name label => exact (List.append_nil _).symm
  | clearInsertPoint => exact (List.append_nil _).symm
  | appendBlock name label =>
    refine Eq.trans ?_ (List.append_nil _).symm
    rcases builder.perform_appendBlock_cases name label with ⟨-, refused⟩ | ⟨function, -, accepted⟩
    · rw [refused]
    · rw [accepted]
      exact builder.target.signatures_modifyFunction name fun _ => rfl
  | arithmetic opcode left right dest =>
    exact (sound.signatures_of_instruction rfl).trans (List.append_nil _).symm
  | call callee arguments dest =>
    exact (sound.signatures_of_instruction rfl).trans (List.append_nil _).symm
  | ret value => exact (sound.signatures_of_instruction rfl).trans (List.append_nil _).symm

/-- A declaration adds its name to those of the functions, and nothing else does. -/
theorem Sound.mem_names_perform (sound : builder.Sound) {operation : Operation}
    {function : String} :
    function ∈ (builder.perform operation).2.target.functions.map Function.name ↔
      function ∈ builder.target.functions.map Function.name ∨
        ∃ params, operation = .declareFunction function params := by
  have byName : ∀ functions : List Function, functions.map Function.name =
      (functions.map Function.signature).map Prod.fst := by
    simp [Function.signature]
  rw [byName (builder.perform operation).2.target.functions, sound.signatures_perform,
    List.map_append, ← byName, List.mem_append]
  cases operation with
  | declareFunction name params =>
    by_cases declared : name ∈ builder.target.functions.map Function.name
    · simp only [added, declared, if_true, List.map_nil, List.not_mem_nil, or_false]
      constructor
      · exact .inl
      · rintro (member | ⟨_, ⟨⟩⟩)
        · exact member
        · exact declared
    · simp [added, declared, eq_comm]
  | _ => simp [added]

end Operations

section Runs

variable (name : String)

theorem run_concat (operations : List Operation) (operation : Operation) :
    run name (operations ++ [operation]) = ((run name operations).perform operation).2 := by
  simp [run]

/-- A builder is sound after any operations. -/
theorem sound_run (operations : List Operation) : (run name operations).Sound := by
  induction operations using List.reverseRecOn with
  | nil => exact sound_new name
  | append_singleton earlier operation inductionHypothesis =>
    rw [run_concat]
    exact inductionHypothesis.perform operation

/-- The functions of a module are those that were declared. -/
theorem mem_names_run {operations : List Operation} {function : String} :
    function ∈ (run name operations).target.functions.map Function.name ↔
      ∃ params, .declareFunction function params ∈ operations := by
  induction operations using List.reverseRecOn with
  | nil => simp [run, new]
  | append_singleton earlier operation inductionHypothesis =>
    rw [run_concat, (sound_run name earlier).mem_names_perform, inductionHypothesis]
    simp only [List.mem_append, List.mem_singleton, exists_or, eq_comm]

/-- Functions that are declared keep their names, their parameters and their order. -/
theorem signatures_run_append (operations more : List Operation) :
    (run name operations).target.functions.map Function.signature <+:
      (run name (operations ++ more)).target.functions.map Function.signature := by
  induction more using List.reverseRecOn with
  | nil => simp
  | append_singleton earlier operation inductionHypothesis =>
    rw [← List.append_assoc, run_concat]
    rw [(sound_run name (operations ++ earlier)).signatures_perform]
    exact inductionHypothesis.trans (List.prefix_append _ _)

/-- A function that is declared stays at its position, with its name and its parameters. -/
theorem getElem?_functions_run (operations more : List Operation) {position : Nat}
    {function : Function}
    (found : (run name operations).target.functions[position]? = some function) :
    ∃ later, (run name (operations ++ more)).target.functions[position]? = some later ∧
      later.name = function.name ∧ later.params = function.params := by
  obtain ⟨added, signatures⟩ := signatures_run_append name operations more
  have kept := congrArg (fun all => all[position]?) signatures
  obtain ⟨inRange, -⟩ := List.getElem?_eq_some_iff.1 found
  simp only [List.getElem?_map] at kept
  rw [List.getElem?_append_left (by simpa using inRange), List.getElem?_map, found] at kept
  obtain ⟨later, isLater, same⟩ := Option.map_eq_some_iff.1 kept.symm
  exact ⟨later, isLater, congrArg Prod.fst same, congrArg Prod.snd same⟩

end Runs

/-- An instruction that is refused changes nothing: it is added after the last check. -/
theorem carryOut_push_of_error {builder : Builder} {instruction : Instruction}
    {error : BuilderError}
    (refused : (builder.carryOut (push instruction)).1 = .error error) :
    (builder.carryOut (push instruction)).2 = builder := by
  rw [carryOut_push] at refused ⊢
  cases here : builder.insertPoint with
  | none => rfl
  | some point =>
    cases current : builder.currentFunction? with
    | none => rfl
    | some function =>
      cases found : function.blocks.getLast? with
      | none => simp [found]
      | some block =>
        cases terminated : block.isTerminated with
        | true => simp [found, terminated]
        | false => simp [here, current, found, terminated] at refused

/-- A refused operation changes nothing. -/
theorem perform_of_error {builder : Builder} {operation : Operation} {error : BuilderError}
    (refused : (builder.perform operation).1 = .error error) :
    (builder.perform operation).2 = builder := by
  cases adds : operation.instruction? with
  | some instruction =>
    rw [perform_of_instruction adds] at refused ⊢
    cases pushed : (builder.carryOut (push instruction)).1 with
    | error cause => exact carryOut_push_of_error pushed
    | ok done =>
      rw [pushed] at refused
      cases refused
  | none =>
    cases operation with
    | declareFunction name params => cases refused
    | createEntry name label => cases refused
    | clearInsertPoint => cases refused
    | appendBlock name label =>
      rcases builder.perform_appendBlock_cases name label with
        ⟨-, performed⟩ | ⟨function, -, performed⟩
      · rw [performed]
      · rw [performed] at refused
        cases refused
    | arithmetic opcode left right dest => cases adds
    | call callee arguments dest => cases adds
    | ret value => cases adds

/-- A block is refused exactly if the function was never declared. -/
theorem appendBlock_refused_iff (name : String) (operations : List Operation)
    {function label : String} {error : BuilderError} :
    ((run name operations).perform (.appendBlock function label)).1 = .error error ↔
      error = .unknownFunction function ∧
        ∀ params, .declareFunction function params ∉ operations := by
  have undeclared : (run name operations).target.function? function = none ↔
      ∀ params, .declareFunction function params ∉ operations := by
    rw [Target.function?_eq_none_iff, mem_names_run, not_exists]
  rw [← undeclared]
  rcases (run name operations).perform_appendBlock_cases function label with
    ⟨missing, refused⟩ | ⟨found, isFound, accepted⟩
  · simp [refused, missing, eq_comm]
  · simp [accepted, isFound]

/-- Where an instruction goes decides what becomes of it. -/
theorem Sound.outcome_of_instruction {builder : Builder} (sound : builder.Sound)
    {operation : Operation} {instruction : Instruction}
    (adds : operation.instruction? = some instruction) :
    ((builder.perform operation).1 = .error .noInsertPoint ↔ builder.insertPoint = none) ∧
    (∀ label, (builder.perform operation).1 = .error (.blockTerminated label) ↔
      ∃ last, builder.ReturnedIn last ∧ last.label = label) ∧
    (∀ function, (builder.perform operation).1 ≠ .error (.unknownFunction function)) ∧
    (∀ result, (builder.perform operation).1 = .ok result →
      result = instruction.dest?.map Value.temp ∧
        builder.Extends instruction (builder.perform operation).2) := by
  have unique : ∀ last other, builder.ReturnedIn last → builder.ReturnedIn other →
      last = other := by
    rintro last other ⟨_, _, current, found, -⟩ ⟨_, _, isCurrent, isFound, -⟩
    cases current.symm.trans isCurrent
    exact Option.some.inj (found.symm.trans isFound)
  rcases sound.perform_cases adds with ⟨nowhere, performed⟩ | ⟨here, last, returned, performed⟩ |
    ⟨here, running, -, performed, extended⟩
  · have notReturned : ∀ last, ¬ builder.ReturnedIn last := by
      rintro last ⟨_, _, current, -, -⟩
      simp [currentFunction?, nowhere] at current
    simp [performed, nowhere, notReturned]
  · rw [performed]
    refine ⟨by simp [here], ?_, by simp, by simp⟩
    intro label
    constructor
    · intro same
      exact ⟨last, returned, by simpa using same⟩
    · rintro ⟨other, otherReturned, rfl⟩
      rw [unique last other returned otherReturned]
  · simp [performed, here, running, extended]

/-- After any operations on a new module, returns end their blocks, and an insertion point is in
a function that is there and has a block. An instruction is refused exactly if there is no
insertion point or the block has returned, a block exactly if its function was never
declared. What is refused changes nothing, and an instruction that is accepted changes only
the block it is added to. Functions stay as they were declared. -/
theorem operations_sound_and_atomic (name : String) (operations : List Operation) :
    let builder := run name operations
    (∀ function ∈ builder.target.functions ++ builder.target.entry.toList,
      ∀ block ∈ function.blocks, block.ReturnsLast) ∧
    (∀ point, builder.insertPoint = some point →
      ∃ function, builder.currentFunction? = some function ∧ function.blocks ≠ []) ∧
    (∀ operation instruction, operation.instruction? = some instruction →
      ((builder.perform operation).1 = .error .noInsertPoint ↔ builder.insertPoint = none) ∧
      (∀ label, (builder.perform operation).1 = .error (.blockTerminated label) ↔
        ∃ last, builder.ReturnedIn last ∧ last.label = label) ∧
      (∀ function, (builder.perform operation).1 ≠ .error (.unknownFunction function)) ∧
      (∀ result, (builder.perform operation).1 = .ok result →
        result = instruction.dest?.map Value.temp ∧
          builder.Extends instruction (builder.perform operation).2)) ∧
    (∀ function label error,
      (builder.perform (.appendBlock function label)).1 = .error error ↔
        error = .unknownFunction function ∧
          ∀ params, .declareFunction function params ∉ operations) ∧
    (∀ operation error, (builder.perform operation).1 = .error error →
      (builder.perform operation).2 = builder) ∧
    (∀ more (position : Nat) function, builder.target.functions[position]? = some function →
      ∃ later, (run name (operations ++ more)).target.functions[position]? = some later ∧
        later.name = function.name ∧ later.params = function.params) := by
  intro builder
  have sound : builder.Sound := sound_run name operations
  refine ⟨?_, sound.placed, fun _ _ => sound.outcome_of_instruction,
    fun _ _ _ => appendBlock_refused_iff name operations, fun _ _ => perform_of_error,
    fun more _ _ => getElem?_functions_run name operations more⟩
  intro function member
  rcases List.mem_append.1 member with declared | isEntry
  · exact sound.functions function declared
  · exact sound.entry function (Option.mem_toList.1 isEntry)

/-- A function that is declared twice and has returned keeps its parameter and takes no more
instructions, and a function that was not declared takes no block. -/
theorem operations_sound_and_atomic_after_return :
    let operations : List Operation := [.declareFunction "f" ["x"], .declareFunction "f" [],
      .appendBlock "f" "entry", .ret (.param 0 "x")]
    let builder := run "module" operations
    let extended := run "module" (operations ++ [.declareFunction "f" ["y", "z"]])
    builder.perform (.ret (.constant 0)) = (.error (.blockTerminated "entry"), builder) ∧
      builder.perform (.appendBlock "g" "entry") = (.error (.unknownFunction "g"), builder) ∧
      ∃ later, extended.target.functions[0]? = some later ∧ later.name = "f" ∧
        later.params = ["x"] := by
  intro operations builder extended
  obtain ⟨-, -, instructions, blocks, atomic, kept⟩ :=
    operations_sound_and_atomic "module" operations
  let block : Block := ⟨"entry", [.ret (.param 0 "x")]⟩
  have returned : builder.ReturnedIn block := ⟨⟨"f", ["x"], [block]⟩, _, rfl, rfl, rfl⟩
  have refused := ((instructions (.ret (.constant 0)) _ rfl).2.1 "entry").2 ⟨block, returned, rfl⟩
  have noBlock := (blocks "g" "entry" _).2 ⟨rfl, by simp [operations]⟩
  exact ⟨Prod.ext refused (atomic _ _ refused), Prod.ext noBlock (atomic _ _ noBlock),
    kept _ 0 ⟨"f", ["x"], [block]⟩ rfl⟩

end Builder

end Lisplet
