import Lisplet.Proofs.WellFormed
import Mathlib.Data.List.Chain
import Mathlib.Data.List.Nodup
import Mathlib.Data.List.Perm.Subperm
import Mathlib.Logic.Relation

/-!
# How deep generated code calls

Generated code has no branches, so a call makes all the calls in the code of its
function. Whether a run ends with a value is therefore decided by the call graph
alone: `Target.Within` bounds the chains of calls from a function, and a run under
a limit has a value exactly if the chains from its function stay within it. The
only way to fail is to exceed the limit.
-/

namespace Lisplet

namespace Target

/-- Whether one function has an instruction that calls another. -/
def Calls (target : Target) (caller callee : Function) : Prop :=
  ∃ dest name arguments, Instruction.call dest name arguments ∈ caller.code ∧
    target.resolve? name = some callee

/-- Whether every chain of calls that starts at a function has at most the given
number of members. -/
def Within (target : Target) (bound : Nat) (start : Function) : Prop :=
  ∀ rest, (start :: rest).IsChain target.Calls → (start :: rest).length ≤ bound

/-- Whether calls from a function lead to a function that calls itself again,
directly or through others. -/
def ReachesCycle (target : Target) (start : Function) : Prop :=
  ∃ function, Relation.ReflTransGen target.Calls start function ∧
    Relation.TransGen target.Calls function function

/-- A function by itself is a chain. -/
theorem not_within_zero (target : Target) (start : Function) : ¬ target.Within 0 start := by
  intro within
  have bound := within [] (List.isChain_singleton start)
  simp at bound

/-- Chains from a function go through one of its callees. -/
theorem within_succ {target : Target} {bound : Nat} {start : Function} :
    target.Within (bound + 1) start ↔
      ∀ callee, target.Calls start callee → target.Within bound callee := by
  constructor
  · intro within callee calls rest chain
    have longer := within (callee :: rest) (List.isChain_cons_cons.2 ⟨calls, chain⟩)
    simpa using longer
  · intro within rest chain
    cases rest with
    | nil => simp
    | cons callee others =>
      obtain ⟨calls, tail⟩ := List.isChain_cons_cons.1 chain
      have shorter := within callee calls others tail
      simpa using shorter

/-- From a function that leads to a cycle, some callee leads to it too. -/
theorem ReachesCycle.exists_callee {target : Target} {start : Function}
    (reaches : target.ReachesCycle start) :
    ∃ callee, target.Calls start callee ∧ target.ReachesCycle callee := by
  obtain ⟨function, path, cycle⟩ := reaches
  rcases Relation.ReflTransGen.cases_head path with rfl | ⟨callee, calls, rest⟩
  · obtain ⟨callee, calls, rest⟩ := Relation.TransGen.head'_iff.1 cycle
    exact ⟨callee, calls, start, rest, cycle⟩
  · exact ⟨callee, calls, function, rest, cycle⟩

/-- No bound holds for the chains from a function that leads to a cycle. -/
theorem ReachesCycle.not_within {target : Target} {start : Function}
    (reaches : target.ReachesCycle start) (bound : Nat) : ¬ target.Within bound start := by
  induction bound generalizing start with
  | zero => exact target.not_within_zero start
  | succ bound inductionHypothesis =>
    intro within
    obtain ⟨callee, calls, again⟩ := reaches.exists_callee
    exact inductionHypothesis again (within_succ.1 within callee calls)

/-- Calls lead from each member of a chain to all that come after it. -/
theorem pairwise_of_isChain {target : Target} {functions : List Function}
    (chain : functions.IsChain target.Calls) :
    functions.Pairwise (Relation.TransGen target.Calls) :=
  (chain.imp fun _ _ calls => Relation.TransGen.single calls).pairwise

/-- A chain that visits a function twice leads to a cycle. -/
theorem nodup_of_not_reachesCycle {target : Target} {start : Function} {rest : List Function}
    (acyclic : ¬ target.ReachesCycle start) (chain : (start :: rest).IsChain target.Calls) :
    (start :: rest).Nodup := by
  have later := pairwise_of_isChain chain
  rw [List.nodup_iff_sublist]
  intro function twice
  have cycle : Relation.TransGen target.Calls function function := by
    simpa using later.sublist twice
  rcases List.mem_cons.1 (twice.subset List.mem_cons_self) with rfl | member
  · exact acyclic ⟨function, .refl, cycle⟩
  · exact acyclic ⟨function, (List.rel_of_pairwise_cons later member).to_reflTransGen, cycle⟩

/-- Calls lead to functions of the module. -/
theorem mem_of_calls {target : Target} {caller callee : Function}
    (calls : target.Calls caller callee) :
    callee ∈ target.functions ++ target.entry.toList := by
  obtain ⟨dest, name, arguments, -, resolved⟩ := calls
  rcases Option.or_eq_some_iff.1 resolved with found | ⟨-, isEntry⟩
  · exact List.mem_append_left _ (mem_of_function? found)
  · have entry : target.entry = some callee := Option.eq_some_of_filter_eq_some isEntry
    simp [entry]

/-- Chains that lead to no cycle are no longer than the functions allow. -/
theorem within_of_not_reachesCycle {target : Target} {start : Function}
    (member : start ∈ target.functions ++ target.entry.toList)
    (acyclic : ¬ target.ReachesCycle start) :
    target.Within (target.functions.length + 1) start := by
  intro rest chain
  have later := pairwise_of_isChain chain
  have included : start :: rest ⊆ target.functions ++ target.entry.toList := by
    intro function visited
    rcases List.mem_cons.1 visited with rfl | called
    · exact member
    · obtain ⟨caller, -, calls⟩ :=
        Relation.TransGen.tail'_iff.1 (List.rel_of_pairwise_cons later called)
      exact mem_of_calls calls
  have counted := ((nodup_of_not_reachesCycle acyclic chain).subperm included).length_le
  have entryCount : target.entry.toList.length ≤ 1 := by
    cases target.entry <;> simp
  rw [List.length_append] at counted
  omega

theorem Within.mono {target : Target} {bound more : Nat} {start : Function}
    (within : target.Within bound start) (larger : bound ≤ more) : target.Within more start :=
  fun rest chain => Nat.le_trans (within rest chain) larger

/-- What decides an outcome of a run that starts at a function: it has a value or
exceeds the limit, and which of the two depends on the chains of calls. -/
structure DecidedByChains (target : Target) (limit : Nat) (start : Function)
    (outcome : Except EvalError Float) : Prop where
  ok_or_tooDeep : (∃ value, outcome = .ok value) ∨ outcome = .error (.callDepthExceeded limit)
  ok_iff_within : (∃ value, outcome = .ok value) ↔ target.Within limit start
  tooDeep_of_cycle : target.ReachesCycle start → outcome = .error (.callDepthExceeded limit)
  ok_of_acyclic : ¬ target.ReachesCycle start → target.functions.length + 1 ≤ limit →
    ∃ value, outcome = .ok value

end Target

/-- Whether a condition decides between a value and too deep calls. -/
def Settles (limit : Nat) (condition : Prop) (outcome : Except EvalError Float) : Prop :=
  (condition → ∃ value, outcome = .ok value) ∧
    (¬ condition → outcome = .error (.callDepthExceeded limit))

theorem Settles.congr {limit : Nat} {condition other : Prop} {outcome : Except EvalError Float}
    (settles : Settles limit condition outcome) (same : other ↔ condition) :
    Settles limit other outcome := by
  rwa [Settles, same]

namespace Frame

/-- Whether a frame has an argument for each parameter and holds the given
results. -/
structure Holds (params results : List String) (frame : Frame) : Prop where
  arguments : frame.arguments.length = params.length
  temps : ∀ name ∈ results, ∃ number, frame.temps.get? name = some number

variable {params results : List String} {frame : Frame}

/-- What is available can be read. -/
theorem Holds.read (holds : frame.Holds params results) {value : Value}
    (available : value.Available params results) : ∃ number, frame.read value = .ok number := by
  cases value with
  | constant number => exact ⟨number, rfl⟩
  | param index name =>
    obtain ⟨bound, -⟩ := List.getElem?_eq_some_iff.1 available
    have within : index < frame.arguments.length := holds.arguments ▸ bound
    exact ⟨frame.arguments[index], by simp [Frame.read, within]⟩
  | temp name =>
    obtain ⟨number, found⟩ := holds.temps name available
    exact ⟨number, by simp [Frame.read, found]⟩

theorem Holds.readAll (holds : frame.Holds params results) {values : List Value}
    (available : ∀ value ∈ values, value.Available params results) :
    ∃ numbers, frame.readAll values = .ok numbers ∧ numbers.length = values.length := by
  induction values with
  | nil => exact ⟨[], rfl, rfl⟩
  | cons value rest inductionHypothesis =>
    obtain ⟨number, read⟩ := holds.read (available value List.mem_cons_self)
    obtain ⟨numbers, readRest, length⟩ := inductionHypothesis fun other member =>
      available other (List.mem_cons_of_mem _ member)
    exact ⟨number :: numbers, by simp [Frame.readAll, read, readRest, bind, Except.bind, pure,
      Except.pure], by simp [length]⟩

/-- Keeping a result adds it to those that a frame holds. -/
theorem Holds.set (holds : frame.Holds params results) (name : String) (number : Float) :
    (frame.set name number).Holds params (results ++ [name]) := by
  refine ⟨holds.arguments, ?_⟩
  intro other member
  by_cases same : other = name
  · exact ⟨number, by simp [Frame.set, same]⟩
  · have earlier : other ∈ results := by simpa [same] using member
    obtain ⟨found, isFound⟩ := holds.temps other earlier
    exact ⟨found, by simp [Frame.set, Bindings.get?_bind_of_ne _ _ same, isFound]⟩

/-- Code that can be run makes all its calls, and whether it returns a value is
decided by whether they do. -/
theorem settles_run {arity? : String → Option Nat} {limit : Nat} {returns : String → Prop}
    {call : String → List Float → Except EvalError Float} {body : List Instruction} {last : Value}
    (settles : ∀ callee arguments, arity? callee = some arguments.length →
      Settles limit (returns callee) (call callee arguments))
    (holds : frame.Holds params results)
    (plain : ∀ instruction ∈ body, instruction.isTerminator = false)
    (runnable : Runnable arity? params results (body ++ [.ret last])) :
    Settles limit
      (∀ dest callee arguments, Instruction.call dest callee arguments ∈ body → returns callee)
      (frame.run call (body ++ [.ret last])) := by
  induction body generalizing frame results with
  | nil =>
    obtain ⟨number, read⟩ := holds.read (runnable.1 last List.mem_cons_self)
    exact ⟨fun _ => ⟨number, read⟩, fun impossible => absurd (by simp) impossible⟩
  | cons instruction rest inductionHypothesis =>
    have plainRest := fun other member => plain other (List.mem_cons_of_mem _ member)
    obtain ⟨operands, fits, runnableRest⟩ := runnable
    cases instruction with
    | ret value => exact absurd (plain _ List.mem_cons_self) (by simp [Instruction.isTerminator])
    | arithmetic opcode dest left right =>
      obtain ⟨leftNumber, leftRead⟩ := holds.read (operands left (by simp [Instruction.operands]))
      obtain ⟨rightNumber, rightRead⟩ :=
        holds.read (operands right (by simp [Instruction.operands]))
      have after := inductionHypothesis
        (holds.set dest (opcode.apply leftNumber rightNumber)) plainRest runnableRest
      simpa [Frame.run, leftRead, rightRead, bind, Except.bind] using after
    | call dest callee arguments =>
      obtain ⟨numbers, read, length⟩ := holds.readAll operands
      have argumentsRead : frame.readAll arguments = .ok numbers := read
      have fitting : arity? callee = some numbers.length := by
        rw [length]
        exact fits
      have outcome := settles callee numbers fitting
      simp only [List.cons_append, Frame.run, argumentsRead, bind, Except.bind]
      by_cases calleeReturns : returns callee
      · obtain ⟨result, isResult⟩ := outcome.1 calleeReturns
        have after := inductionHypothesis (holds.set dest result) plainRest runnableRest
        rw [isResult]
        refine after.congr ⟨fun all _ _ _ member => all _ _ _ (List.mem_cons_of_mem _ member), ?_⟩
        intro all otherDest otherCallee otherArguments member
        rcases List.mem_cons.1 member with same | later
        · cases same
          exact calleeReturns
        · exact all _ _ _ later
      · rw [outcome.2 calleeReturns]
        exact ⟨fun all => absurd (all _ _ _ List.mem_cons_self) calleeReturns, fun _ => rfl⟩

end Frame

namespace Target

variable {target : Target}

/-- A declared function is found by its name, ahead of the entry function. -/
theorem resolve?_of_function? {name : String} {function : Function}
    (found : target.function? name = some function) : target.resolve? name = some function := by
  simp [resolve?, found]

theorem invokeWith_of_function? {run : Function → List Float → Except EvalError Float}
    {name : String} {function : Function} {arguments : List Float}
    (found : target.function? name = some function)
    (arity : function.arity = arguments.length) :
    target.invokeWith run name arguments = run function arguments := by
  simp [invokeWith, resolve?_of_function? found, arity]

/-- A run of a function that can be run has a value exactly if the chains of calls
from the function stay within the calls that may nest. -/
theorem settles_execute
    (runnable : ∀ function ∈ target.functions, function.IsRunnable target.arity?)
    (limit remaining : Nat) {function : Function} (isRunnable : function.IsRunnable target.arity?)
    {arguments : List Float} (length : arguments.length = function.arity) :
    Settles limit (target.Within remaining function)
      (target.execute limit remaining function arguments) := by
  induction remaining generalizing function arguments with
  | zero =>
    exact ⟨fun within => absurd within (target.not_within_zero function), fun _ => rfl⟩
  | succ remaining inductionHypothesis =>
    obtain ⟨label, body, last, blocks, plain, code⟩ := isRunnable
    have codeEq : function.code = body ++ [.ret last] := by simp [Function.code, blocks]
    -- Whether a callee returns depends on its name only, by the induction hypothesis.
    have settles : ∀ callee numbers, target.arity? callee = some numbers.length →
        Settles limit (∀ found, target.resolve? callee = some found → target.Within remaining found)
          (target.invokeWith (target.execute limit remaining) callee numbers) := by
      intro callee numbers declared
      obtain ⟨found, isFound, arity⟩ := Option.map_eq_some_iff.1 declared
      have resolved := resolve?_of_function? isFound
      have outcome := inductionHypothesis (runnable found (mem_of_function? isFound)) arity.symm
      rw [invokeWith_of_function? isFound arity]
      exact outcome.congr (by simp [resolved])
    have start : ({ function := function.name, arguments } : Frame).Holds function.params [] :=
      ⟨length, by simp⟩
    have outcome := Frame.settles_run settles start plain code
    have hasBody : function.isDeclaration = false := by simp [Function.isDeclaration, blocks]
    simp only [execute, runBody, hasBody, codeEq]
    refine outcome.congr (within_succ.trans ?_)
    constructor
    · intro within dest callee operands member found resolved
      exact within found ⟨dest, callee, operands, by simp [codeEq, member], resolved⟩
    · rintro within found ⟨dest, callee, operands, member, resolved⟩
      exact within dest callee operands (by simpa [codeEq] using member) found resolved

end Target

/-- A settled outcome is decided by the chains of calls. -/
theorem Settles.decidedByChains {target : Target} {limit : Nat} {start : Function}
    {outcome : Except EvalError Float}
    (settles : Settles limit (target.Within limit start) outcome)
    (member : start ∈ target.functions ++ target.entry.toList) :
    target.DecidedByChains limit start outcome where
  ok_or_tooDeep := by
    by_cases within : target.Within limit start
    · exact .inl (settles.1 within)
    · exact .inr (settles.2 within)
  ok_iff_within := by
    refine ⟨?_, settles.1⟩
    rintro ⟨value, isOk⟩
    by_contra outside
    rw [settles.2 outside] at isOk
    cases isOk
  tooDeep_of_cycle reaches := settles.2 (reaches.not_within limit)
  ok_of_acyclic acyclic enough :=
    settles.1 ((Target.within_of_not_reachesCycle member acyclic).mono enough)

namespace Module

/-- A run of the entry function is settled by the chains of calls from it. -/
theorem settles_runEntry (module : Module) (names : TargetNames) (limit : Nat) :
    Settles limit
      ((module.target names).Within limit (.ofEmission names.entry [] (module.entryEmission names)))
      ((module.target names).runEntry limit) := by
  have noArguments : ([] : List Float).length =
      (Function.ofEmission names.entry [] (module.entryEmission names)).arity := rfl
  exact Target.settles_execute (fun _ => isRunnable_of_mem_target) limit limit
    (module.isRunnable_entry names) noArguments

/-- On the target of every module, a run from the entry function or from any
other function is decided by the chains of calls that start there. -/
theorem decidedByChains_lower (module : Module) (names : TargetNames) (limit : Nat) :
    ∃ generator entry, module.lower names = .ok generator ∧
      generator.builder.target.entry = some entry ∧
      generator.builder.target.DecidedByChains limit entry
        (generator.builder.target.runEntry limit) ∧
      ∀ name function arguments, generator.builder.target.function? name = some function →
        arguments.length = function.arity →
        generator.builder.target.DecidedByChains limit function
          (generator.builder.target.call limit name arguments) := by
  refine ⟨_, _, module.lower_eq names, rfl, ?_, ?_⟩
  · exact (module.settles_runEntry names limit).decidedByChains
      (List.mem_append_right _ List.mem_cons_self)
  · intro name function arguments found length
    have member := Target.mem_of_function? found
    rw [Target.call, Target.invokeWith_of_function? found length.symm]
    have settles := Target.settles_execute (fun _ => isRunnable_of_mem_target) limit limit
      (isRunnable_of_mem_target member) length
    exact settles.decidedByChains (List.mem_append_left _ member)

/-- A function that calls itself exceeds the limit. -/
theorem call_selfCalling_tooDeep :
    let name : Located String := ⟨"loop", .point 0⟩
    let selfCalling : Module :=
      ⟨[.functionDef (.point 0) ⟨name, [], .point 0⟩ (.call (.point 0) name [])]⟩
    ∃ generator, selfCalling.lower {} = .ok generator ∧
      generator.builder.target.call 3 "loop" [] = .error (.callDepthExceeded 3) := by
  intro name selfCalling
  obtain ⟨generator, entry, lowered, -, -, decided⟩ := selfCalling.decidedByChains_lower {} 3
  refine ⟨generator, lowered, ?_⟩
  cases lowered.symm.trans (selfCalling.lower_eq {})
  let result := TempNames.nameOf "call" 0
  have outcome := decided "loop"
    ⟨"loop", [], [⟨"entry", [.call result "loop" [], .ret (.temp result)]⟩]⟩ [] rfl rfl
  refine outcome.tooDeep_of_cycle ⟨_, .refl, .single ⟨_, _, _, List.mem_cons_self, ?_⟩⟩
  rfl

end Module

end Lisplet
