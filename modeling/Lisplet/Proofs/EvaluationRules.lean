import Lisplet.Target.Interpreter

/-!
# Rules of evaluation

What running target code comes to, given by rules that only tell how deep calls are nested.
`Target.Evaluates` holds of the evaluations that end. Every evaluation does, whatever the
module: calls nest up to the limit, and between two calls there is less code left. The
interpreter finds the one outcome that the rules give. Since an evaluation only looks at the
limit when a call exceeds it, an outcome of any other kind stays the same under every larger
limit.
-/

namespace Lisplet

namespace Target

/-- What is evaluated: the entry function, a function by its name, a function that is found, or
code in a frame. -/
inductive Task where
  | entry
  | invoke (name : String) (arguments : List Float)
  | execute (function : Function) (arguments : List Float)
  | code (frame : Frame) (instructions : List Instruction)

/-- Whether a task ends with an outcome, if it is evaluated as the call of the given depth. -/
inductive Evaluates (target : Target) (limit : Nat) :
    Nat → Task → Except EvalError Float → Prop where
  | noEntry {depth : Nat} (missing : target.entry = none) :
      Evaluates target limit depth .entry (.error .noEntry)
  | entry {depth : Nat} {function : Function} {outcome : Except EvalError Float}
      (found : target.entry = some function)
      (executed : Evaluates target limit depth (.execute function []) outcome) :
      Evaluates target limit depth .entry outcome
  | unknown {depth : Nat} {name : String} {arguments : List Float}
      (missing : target.resolve? name = none) :
      Evaluates target limit depth (.invoke name arguments) (.error (.unknownFunction name))
  | mismatch {depth : Nat} {name : String} {arguments : List Float} {function : Function}
      (found : target.resolve? name = some function)
      (different : function.arity ≠ arguments.length) :
      Evaluates target limit depth (.invoke name arguments)
        (.error (.arityMismatch name function.arity arguments.length))
  | invoke {depth : Nat} {name : String} {arguments : List Float} {function : Function}
      {outcome : Except EvalError Float} (found : target.resolve? name = some function)
      (fits : function.arity = arguments.length)
      (executed : Evaluates target limit depth (.execute function arguments) outcome) :
      Evaluates target limit depth (.invoke name arguments) outcome
  | tooDeep {depth : Nat} {function : Function} {arguments : List Float} (exceeds : limit < depth) :
      Evaluates target limit depth (.execute function arguments)
        (.error (.callDepthExceeded limit))
  | undefined {depth : Nat} {function : Function} {arguments : List Float}
      (within : depth ≤ limit) (bodiless : function.blocks = []) :
      Evaluates target limit depth (.execute function arguments)
        (.error (.undefinedFunction function.name))
  | execute {depth : Nat} {function : Function} {arguments : List Float}
      {outcome : Except EvalError Float} (within : depth ≤ limit)
      (defined : function.blocks ≠ [])
      (ran : Evaluates target limit depth
        (.code { function := function.name, arguments } function.code) outcome) :
      Evaluates target limit depth (.execute function arguments) outcome
  | missingReturn {depth : Nat} {frame : Frame} :
      Evaluates target limit depth (.code frame []) (.error (.missingReturn frame.function))
  | unread {depth : Nat} {frame : Frame} {instruction : Instruction} {rest : List Instruction}
      {error : EvalError} (unread : frame.readAll instruction.operands = .error error) :
      Evaluates target limit depth (.code frame (instruction :: rest)) (.error error)
  | ret {depth : Nat} {frame : Frame} {value : Value} {rest : List Instruction} {number : Float}
      (read : frame.read value = .ok number) :
      Evaluates target limit depth (.code frame (.ret value :: rest)) (.ok number)
  | fadd {depth : Nat} {frame : Frame} {dest : String} {left right : Value}
      {rest : List Instruction} {first second : Float} {outcome : Except EvalError Float}
      (leftRead : frame.read left = .ok first) (rightRead : frame.read right = .ok second)
      (ran : Evaluates target limit depth (.code (frame.set dest (first + second)) rest)
        outcome) :
      Evaluates target limit depth (.code frame (.arithmetic .fadd dest left right :: rest))
        outcome
  | fmul {depth : Nat} {frame : Frame} {dest : String} {left right : Value}
      {rest : List Instruction} {first second : Float} {outcome : Except EvalError Float}
      (leftRead : frame.read left = .ok first) (rightRead : frame.read right = .ok second)
      (ran : Evaluates target limit depth (.code (frame.set dest (first * second)) rest)
        outcome) :
      Evaluates target limit depth (.code frame (.arithmetic .fmul dest left right :: rest))
        outcome
  | callFailed {depth : Nat} {frame : Frame} {dest callee : String} {operands : List Value}
      {rest : List Instruction} {arguments : List Float} {error : EvalError}
      (read : frame.readAll operands = .ok arguments)
      (called : Evaluates target limit (depth + 1) (.invoke callee arguments) (.error error)) :
      Evaluates target limit depth (.code frame (.call dest callee operands :: rest))
        (.error error)
  | call {depth : Nat} {frame : Frame} {dest callee : String} {operands : List Value}
      {rest : List Instruction} {arguments : List Float} {result : Float}
      {outcome : Except EvalError Float} (read : frame.readAll operands = .ok arguments)
      (called : Evaluates target limit (depth + 1) (.invoke callee arguments) (.ok result))
      (ran : Evaluates target limit depth (.code (frame.set dest result) rest) outcome) :
      Evaluates target limit depth (.code frame (.call dest callee operands :: rest)) outcome

end Target

namespace Frame

/-- Reading an operand makes no call. -/
theorem read_ne_tooDeep (frame : Frame) (value : Value) (depth : Nat) :
    frame.read value ≠ .error (.callDepthExceeded depth) := by
  cases value with
  | constant number => simp [read]
  | param index name => cases found : frame.arguments[index]? <;> simp [read, found]
  | temp name => cases found : frame.temps.get? name <;> simp [read, found]

theorem readAll_ne_tooDeep (frame : Frame) (values : List Value) (depth : Nat) :
    frame.readAll values ≠ .error (.callDepthExceeded depth) := by
  induction values with
  | nil => simp [readAll]
  | cons value rest inductionHypothesis =>
    have first := frame.read_ne_tooDeep value depth
    simp only [readAll, bind, Except.bind]
    cases read : frame.read value with
    | error error => simpa [read] using first
    | ok number =>
      cases readRest : frame.readAll rest with
      | error error => simpa [readRest] using inductionHypothesis
      | ok numbers => simp [pure, Except.pure]

/-- An instruction whose operands cannot be read ends the run. -/
theorem run_of_unread {frame : Frame} {instruction : Instruction} {error : EvalError}
    (call : String → List Float → Except EvalError Float) (rest : List Instruction)
    (unread : frame.readAll instruction.operands = .error error) :
    frame.run call (instruction :: rest) = .error error := by
  cases instruction with
  | arithmetic opcode dest left right =>
    simp only [Instruction.operands, readAll, run, bind, Except.bind] at unread ⊢
    cases leftRead : frame.read left with
    | error cause => simpa [leftRead] using unread
    | ok first =>
      cases rightRead : frame.read right with
      | error cause => simpa [leftRead, rightRead] using unread
      | ok second => simp [leftRead, rightRead, pure, Except.pure] at unread
  | call dest callee operands =>
    have operandsUnread : frame.readAll operands = .error error := unread
    simp [run, operandsUnread, bind, Except.bind]
  | ret value =>
    simp only [Instruction.operands, readAll, run, bind, Except.bind] at unread ⊢
    cases read : frame.read value with
    | error cause => simpa [read] using unread
    | ok number => simp [read, pure, Except.pure] at unread

end Frame

namespace Target

section Limits

variable {target : Target} {limit depth : Nat} {task : Task} {outcome : Except EvalError Float}

/-- The limit that is exceeded is the one that was set. -/
theorem Evaluates.limit_of_tooDeep (evaluates : target.Evaluates limit depth task outcome)
    {exceeded : Nat} (tooDeep : outcome = .error (.callDepthExceeded exceeded)) :
    exceeded = limit := by
  induction evaluates with
  | noEntry => cases tooDeep
  | entry _ _ inductionHypothesis => exact inductionHypothesis tooDeep
  | unknown => cases tooDeep
  | mismatch => cases tooDeep
  | invoke _ _ _ inductionHypothesis => exact inductionHypothesis tooDeep
  | tooDeep =>
    cases tooDeep
    rfl
  | undefined => cases tooDeep
  | execute _ _ _ inductionHypothesis => exact inductionHypothesis tooDeep
  | missingReturn => cases tooDeep
  | unread unread =>
    cases tooDeep
    exact absurd unread (Frame.readAll_ne_tooDeep _ _ _)
  | ret => cases tooDeep
  | fadd _ _ _ inductionHypothesis => exact inductionHypothesis tooDeep
  | fmul _ _ _ inductionHypothesis => exact inductionHypothesis tooDeep
  | callFailed _ _ inductionHypothesis =>
    cases tooDeep
    exact inductionHypothesis rfl
  | call _ _ _ _ inductionHypothesis => exact inductionHypothesis tooDeep

/-- An evaluation that does not exceed its limit is one under every larger limit. -/
theorem Evaluates.mono (evaluates : target.Evaluates limit depth task outcome)
    (notTooDeep : ∀ exceeded, outcome ≠ .error (.callDepthExceeded exceeded)) {more : Nat}
    (larger : limit ≤ more) : target.Evaluates more depth task outcome := by
  induction evaluates with
  | noEntry missing => exact .noEntry missing
  | entry found _ inductionHypothesis => exact .entry found (inductionHypothesis notTooDeep)
  | unknown missing => exact .unknown missing
  | mismatch found different => exact .mismatch found different
  | invoke found fits _ inductionHypothesis =>
    exact .invoke found fits (inductionHypothesis notTooDeep)
  | tooDeep => exact absurd rfl (notTooDeep limit)
  | undefined within bodiless => exact .undefined (Nat.le_trans within larger) bodiless
  | execute within defined _ inductionHypothesis =>
    exact .execute (Nat.le_trans within larger) defined (inductionHypothesis notTooDeep)
  | missingReturn => exact .missingReturn
  | unread unread => exact .unread unread
  | ret read => exact .ret read
  | fadd leftRead rightRead _ inductionHypothesis =>
    exact .fadd leftRead rightRead (inductionHypothesis notTooDeep)
  | fmul leftRead rightRead _ inductionHypothesis =>
    exact .fmul leftRead rightRead (inductionHypothesis notTooDeep)
  | callFailed read _ inductionHypothesis =>
    refine .callFailed read (inductionHypothesis ?_)
    intro exceeded tooDeep
    cases tooDeep
    exact notTooDeep exceeded rfl
  | call read _ _ calledHypothesis inductionHypothesis =>
    exact .call read (calledHypothesis (by simp)) (inductionHypothesis notTooDeep)

end Limits

section Interpreter

variable (target : Target) (limit : Nat)

/-- How the interpreter makes a call of the given depth. -/
def callAtDepth (depth : Nat) : String → List Float → Except EvalError Float :=
  target.invokeWith (target.execute limit (limit + 1 - depth))

/-- What the interpreter makes of a task as the call of the given depth. -/
def interpret (depth : Nat) : Task → Except EvalError Float
  | .entry =>
    match target.entry with
    | none => .error .noEntry
    | some function => target.execute limit (limit + 1 - depth) function []
  | .invoke name arguments => target.callAtDepth limit depth name arguments
  | .execute function arguments => target.execute limit (limit + 1 - depth) function arguments
  | .code frame instructions => frame.run (target.callAtDepth limit (depth + 1)) instructions

/-- A function runs if its depth is within the limit. -/
theorem execute_within {depth : Nat} (within : depth ≤ limit) (function : Function)
    (arguments : List Float) :
    target.execute limit (limit + 1 - depth) function arguments =
      runBody (target.callAtDepth limit (depth + 1)) function arguments := by
  have remaining : limit + 1 - depth = (limit + 1 - (depth + 1)) + 1 := by omega
  rw [remaining, execute]
  rfl

theorem execute_exceeding {depth : Nat} (exceeds : limit < depth) (function : Function)
    (arguments : List Float) :
    target.execute limit (limit + 1 - depth) function arguments =
      .error (.callDepthExceeded limit) := by
  have remaining : limit + 1 - depth = 0 := by omega
  rw [remaining, execute]

variable {target limit}

/-- The interpreter returns what the rules give. -/
theorem Evaluates.interpret_eq {depth : Nat} {task : Task} {outcome : Except EvalError Float}
    (evaluates : target.Evaluates limit depth task outcome) :
    target.interpret limit depth task = outcome := by
  induction evaluates with
  | noEntry missing => simp [interpret, missing]
  | entry found _ inductionHypothesis => simpa [interpret, found] using inductionHypothesis
  | unknown missing => simp [interpret, callAtDepth, invokeWith, missing]
  | mismatch found different => simp [interpret, callAtDepth, invokeWith, found, different]
  | invoke found fits _ inductionHypothesis =>
    simpa [interpret, callAtDepth, invokeWith, found, fits] using inductionHypothesis
  | tooDeep exceeds => exact target.execute_exceeding limit exceeds _ _
  | undefined within bodiless =>
    rw [interpret, target.execute_within limit within]
    simp [runBody, Function.isDeclaration, bodiless]
  | execute within defined _ inductionHypothesis =>
    rw [interpret, target.execute_within limit within]
    simpa [runBody, Function.isDeclaration, defined, interpret] using inductionHypothesis
  | missingReturn => rfl
  | unread unread => exact Frame.run_of_unread _ _ unread
  | ret read => exact read
  | fadd leftRead rightRead _ inductionHypothesis =>
    simpa [interpret, Frame.run, leftRead, rightRead, bind, Except.bind, Opcode.apply] using
      inductionHypothesis
  | fmul leftRead rightRead _ inductionHypothesis =>
    simpa [interpret, Frame.run, leftRead, rightRead, bind, Except.bind, Opcode.apply] using
      inductionHypothesis
  | callFailed read _ inductionHypothesis =>
    simp only [interpret] at inductionHypothesis
    simp [interpret, Frame.run, read, inductionHypothesis, bind, Except.bind]
  | call read _ _ calledHypothesis inductionHypothesis =>
    simp only [interpret] at calledHypothesis
    simpa [interpret, Frame.run, read, calledHypothesis, bind, Except.bind] using
      inductionHypothesis

/-- Code is evaluated to an end if the calls that it makes are. Each instruction leaves less
code. -/
theorem evaluates_code {depth : Nat}
    (calls : ∀ name arguments, target.Evaluates limit (depth + 1) (.invoke name arguments)
      (target.callAtDepth limit (depth + 1) name arguments)) (frame : Frame)
    (instructions : List Instruction) :
    target.Evaluates limit depth (.code frame instructions)
      (frame.run (target.callAtDepth limit (depth + 1)) instructions) := by
  induction instructions generalizing frame with
  | nil => exact .missingReturn
  | cons instruction rest inductionHypothesis =>
    cases read : frame.readAll instruction.operands with
    | error error =>
      rw [Frame.run_of_unread _ rest read]
      exact .unread read
    | ok numbers =>
      cases instruction with
      | arithmetic opcode dest left right =>
        simp only [Instruction.operands, Frame.readAll, bind, Except.bind] at read
        cases leftRead : frame.read left with
        | error error => simp [leftRead] at read
        | ok first =>
          cases rightRead : frame.read right with
          | error error => simp [leftRead, rightRead] at read
          | ok second =>
            simp only [Frame.run, leftRead, rightRead, bind, Except.bind]
            cases opcode with
            | fadd => exact .fadd leftRead rightRead (inductionHypothesis _)
            | fmul => exact .fmul leftRead rightRead (inductionHypothesis _)
      | call dest callee operands =>
        have called := calls callee numbers
        have argumentsRead : frame.readAll operands = .ok numbers := read
        simp only [Frame.run, argumentsRead, bind, Except.bind]
        cases result : target.callAtDepth limit (depth + 1) callee numbers with
        | error error =>
          rw [result] at called
          exact .callFailed argumentsRead called
        | ok number =>
          rw [result] at called
          exact .call argumentsRead called (inductionHypothesis _)
      | ret value =>
        simp only [Instruction.operands, Frame.readAll, bind, Except.bind] at read
        cases valueRead : frame.read value with
        | error error => simp [valueRead] at read
        | ok number =>
          simp only [Frame.run, valueRead]
          exact .ret valueRead

theorem evaluates_invoke {depth : Nat}
    (executes : ∀ function arguments, target.Evaluates limit depth (.execute function arguments)
      (target.execute limit (limit + 1 - depth) function arguments)) (name : String)
    (arguments : List Float) :
    target.Evaluates limit depth (.invoke name arguments)
      (target.callAtDepth limit depth name arguments) := by
  rw [callAtDepth, invokeWith]
  cases found : target.resolve? name with
  | none => exact .unknown found
  | some function =>
    dsimp only
    split
    · rename_i fits
      exact .invoke found fits (executes function arguments)
    · rename_i different
      exact .mismatch found different

/-- A function is evaluated to an end at every depth. With each call there are fewer left up to
the limit. -/
theorem evaluates_execute (remaining : Nat) {depth : Nat} (left : limit + 1 - depth = remaining)
    (function : Function) (arguments : List Float) :
    target.Evaluates limit depth (.execute function arguments)
      (target.execute limit (limit + 1 - depth) function arguments) := by
  induction remaining generalizing depth function arguments with
  | zero =>
    have exceeds : limit < depth := by omega
    rw [target.execute_exceeding limit exceeds]
    exact .tooDeep exceeds
  | succ remaining inductionHypothesis =>
    have within : depth ≤ limit := by omega
    rw [target.execute_within limit within, runBody]
    by_cases bodiless : function.blocks = []
    · rw [if_pos (by simp [Function.isDeclaration, bodiless])]
      exact .undefined within bodiless
    · rw [if_neg (by simp [Function.isDeclaration, bodiless])]
      refine .execute within bodiless (evaluates_code ?_ _ _)
      intro name arguments
      exact evaluates_invoke (inductionHypothesis (by omega)) name arguments

/-- Every task is evaluated to an end. -/
theorem evaluates_interpret (depth : Nat) (task : Task) :
    target.Evaluates limit depth task (target.interpret limit depth task) := by
  have executes : ∀ depth function arguments,
      target.Evaluates limit depth (.execute function arguments)
        (target.execute limit (limit + 1 - depth) function arguments) :=
    fun depth => evaluates_execute (limit + 1 - depth) rfl
  cases task with
  | entry =>
    rw [interpret]
    cases found : target.entry with
    | none => exact .noEntry found
    | some function => exact .entry found (executes depth function [])
  | invoke name arguments => exact evaluates_invoke (executes depth) name arguments
  | execute function arguments => exact executes depth function arguments
  | code frame instructions =>
    exact evaluates_code (evaluates_invoke (executes (depth + 1))) frame instructions

/-- The rules give each task one outcome, which the interpreter returns. -/
theorem evaluates_iff {depth : Nat} {task : Task} {outcome : Except EvalError Float} :
    target.Evaluates limit depth task outcome ↔ target.interpret limit depth task = outcome := by
  constructor
  · exact Evaluates.interpret_eq
  · rintro rfl
    exact evaluates_interpret depth task

/-- An outcome of the interpreter that does not exceed the limit is its outcome under every
larger limit. -/
theorem interpret_mono {depth : Nat} {task : Task}
    (notTooDeep : ∀ exceeded, target.interpret limit depth task ≠
      .error (.callDepthExceeded exceeded)) {more : Nat} (larger : limit ≤ more) :
    target.interpret more depth task = target.interpret limit depth task :=
  ((evaluates_interpret depth task).mono notTooDeep larger).interpret_eq

theorem limit_of_interpret {depth : Nat} {task : Task} {exceeded : Nat}
    (tooDeep : target.interpret limit depth task = .error (.callDepthExceeded exceeded)) :
    exceeded = limit :=
  (evaluates_interpret depth task).limit_of_tooDeep tooDeep

end Interpreter

/-- Every run of every module ends, with the outcome that the rules of evaluation give. A run
that fails because calls nest too deeply names the limit that was set. A run that does not
has the same outcome under every larger limit. -/
theorem runs_end_and_keep_outcomes (target : Target) (limit : Nat) :
    (∀ name arguments outcome, target.Evaluates limit 1 (.invoke name arguments) outcome ↔
      target.call limit name arguments = outcome) ∧
    (∀ outcome, target.Evaluates limit 1 .entry outcome ↔ target.runEntry limit = outcome) ∧
    (∀ name arguments exceeded,
      target.call limit name arguments = .error (.callDepthExceeded exceeded) →
        exceeded = limit) ∧
    (∀ exceeded, target.runEntry limit = .error (.callDepthExceeded exceeded) →
      exceeded = limit) ∧
    ∀ more, limit ≤ more →
      (∀ name arguments, (∀ exceeded, target.call limit name arguments ≠
          .error (.callDepthExceeded exceeded)) →
        target.call more name arguments = target.call limit name arguments) ∧
      ((∀ exceeded, target.runEntry limit ≠ .error (.callDepthExceeded exceeded)) →
        target.runEntry more = target.runEntry limit) := by
  have calls : ∀ limit name arguments,
      target.call limit name arguments = target.interpret limit 1 (.invoke name arguments) :=
    fun _ _ _ => rfl
  have runs : ∀ limit, target.runEntry limit = target.interpret limit 1 .entry := fun _ => rfl
  simp only [calls, runs]
  refine ⟨fun _ _ _ => evaluates_iff, fun _ => evaluates_iff, fun _ _ _ => limit_of_interpret,
    fun _ => limit_of_interpret, ?_⟩
  intro more larger
  exact ⟨fun _ _ notTooDeep => interpret_mono notTooDeep larger,
    fun notTooDeep => interpret_mono notTooDeep larger⟩

/-- A function that calls one without a body fails the same way under the limit two and under
every larger limit, and a function that calls itself exceeds any limit by name. -/
theorem runs_end_and_keep_outcomes_of_unfinished_module :
    let target : Target := {
      name := "module"
      functions := [⟨"outer", [], [⟨"entry", [.call "call00" "inner" []]⟩]⟩, ⟨"inner", [], []⟩,
        ⟨"loop", [], [⟨"entry", [.call "call01" "loop" []]⟩]⟩] }
    (∀ more, 2 ≤ more → target.call more "outer" [] = .error (.undefinedFunction "inner")) ∧
      target.call 3 "loop" [] = .error (.callDepthExceeded 3) ∧
      ∀ exceeded, target.call 3 "loop" [] = .error (.callDepthExceeded exceeded) →
        exceeded = 3 := by
  intro target
  have undefined : target.call 2 "outer" [] = .error (.undefinedFunction "inner") := rfl
  obtain ⟨-, -, -, -, keeps⟩ := runs_end_and_keep_outcomes target 2
  obtain ⟨-, -, named, -, -⟩ := runs_end_and_keep_outcomes target 3
  refine ⟨?_, rfl, named "loop" []⟩
  intro more larger
  rw [← undefined]
  exact (keeps more larger).1 "outer" [] (by simp [undefined])

end Target

end Lisplet
