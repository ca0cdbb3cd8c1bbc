import Lisplet.Diagnostic.Log
import Lisplet.Tree.Desugar

/-!
# One sweep is enough

What a sweep arrives at holds no list that begins with an identifier, and a sweep over
such a tree leaves it as it is. The second sweep of desugaring therefore finds nothing to
replace and has nothing to note: desugaring a module comes to sweeping over it once.
-/

namespace Lisplet

namespace Sweep

variable {α β : Type}

@[simp] theorem pure_bind (value : α) (next : α → Sweep β) :
    (pure value >>= next) = next value := by
  change andThen (unchanged value) next = next value
  simp [andThen, unchanged]

/-- Going on with a sweep that does nothing changes nothing. -/
theorem bind_pure_of_arrived {sweep : Sweep α} {value : α} (arrived : sweep.result = .ok value) :
    (sweep >>= fun _ => pure value) = sweep := by
  obtain ⟨notes, replacements, result⟩ := sweep
  cases arrived
  change andThen _ _ = _
  simp [andThen, pure, unchanged]

/-- A log to which the notes of a sweep have been added. -/
def recordIn (sweep : Sweep α) (log : Log) : Log :=
  (sweep.notes.map IgnoredOperands.diagnostic).foldl Log.emit log

/-- Whatever a sweep arrives at has the property. -/
def Yields (sweep : Sweep α) (holds : α → Prop) : Prop :=
  ∀ value, sweep.result = .ok value → holds value

/-- A sweep that does nothing yields its value. -/
theorem yields_pure {holds : α → Prop} {value : α} (held : holds value) :
    (pure value : Sweep α).Yields holds := by
  intro final arrived
  cases arrived
  exact held

/-- A fault yields no value, so any property holds of all that it yields. -/
theorem yields_fault {holds : α → Prop} {cause : DesugarFault} :
    (fault cause : Sweep α).Yields holds := by
  intro final arrived
  cases arrived

/-- What follows a sweep may rely on the property of the value that the sweep yields. -/
theorem yields_bind {first : Sweep α} {next : α → Sweep β} {holdsFirst : α → Prop}
    {holds : β → Prop} (firstYields : first.Yields holdsFirst)
    (nextYields : ∀ value, holdsFirst value → (next value).Yields holds) :
    (first >>= next).Yields holds := by
  intro final arrived
  obtain ⟨value, firstArrived, nextArrived⟩ := (bind_result_eq_ok_iff first next final).1 arrived
  exact nextYields value (firstYields value firstArrived) final nextArrived

/-- A step that arrives at nothing of interest can be passed over. -/
theorem yields_bind_unit {first : Sweep Unit} {next : Unit → Sweep α} {holds : α → Prop}
    (nextYields : (next ()).Yields holds) : (first >>= next).Yields holds :=
  yields_bind (fun _ _ => trivial) fun _ (_ : True) => nextYields

/-- A property of what a sweep yields can be weakened. -/
theorem Yields.mono {sweep : Sweep α} {holds weaker : α → Prop} (yields : sweep.Yields holds)
    (weaken : ∀ value, holds value → weaker value) : sweep.Yields weaker :=
  fun value arrived => weaken value (yields value arrived)

end Sweep

namespace Expr

/-- A node is a tree itself or stands somewhere below its root. -/
inductive Within : Expr → Expr → Prop where
  | root (tree : Expr) : Within tree tree
  | under {node child tree : Expr} (isChild : child ∈ tree.children) (within : Within node child) :
      Within node tree

/-- No list of a tree begins with an identifier. -/
def Settled (tree : Expr) : Prop :=
  ∀ span items, Within (list span items) tree → items.head?.bind identifierName? = none

/-- A tree is settled if its own items begin with no identifier and all nodes below it are
settled. -/
theorem settled_of_children {tree : Expr}
    (head : ∀ span items, tree = list span items → items.head?.bind identifierName? = none)
    (children : ∀ child ∈ tree.children, child.Settled) : tree.Settled := by
  intro span items within
  cases within with
  | root => exact head span items rfl
  | under isChild within => exact children _ isChild span items within

/-- What is directly below a settled tree is settled. -/
theorem Settled.child {tree child : Expr} (settled : tree.Settled)
    (isChild : child ∈ tree.children) : child.Settled :=
  fun span items within => settled span items (.under isChild within)

/-- A node that is no identifier has neither a name nor a place for one. -/
theorem identifierName?_eq_none_iff {expr : Expr} :
    expr.identifierName? = none ↔ expr.locatedName? = none := by
  cases expr <;> simp [identifierName?, locatedName?]

/-- A node other than a list is settled if all nodes below it are. -/
theorem settled_of_not_list {tree : Expr} (notList : tree.isList = false)
    (children : ∀ child ∈ tree.children, child.Settled) : tree.Settled := by
  refine settled_of_children ?_ children
  rintro span items rfl
  cases notList

/-- What a list that stands for something is replaced by: a settled node that is no
identifier. -/
def Replacing (swept : Expr) : Prop :=
  swept.Settled ∧ swept.locatedName? = none

/-- A node around settled nodes takes the place of a list. -/
theorem yields_wrap {α : Type} {below : Sweep α} {nodes : α → List Expr} {wrap : α → Expr}
    (settled : below.Yields fun value => ∀ node ∈ nodes value, node.Settled)
    (notList : ∀ value, (wrap value).isList = false)
    (notIdentifier : ∀ value, (wrap value).locatedName? = none)
    (children : ∀ value, (wrap value).children = nodes value) :
    (do let value ← below; pure (wrap value)).Yields Replacing := by
  refine Sweep.yields_bind settled fun value nodesSettled => ?_
  refine Sweep.yields_pure ⟨settled_of_not_list (notList value) ?_, notIdentifier value⟩
  rwa [children]

/-- A node for arithmetic on settled operands replaces a list. -/
theorem yields_arithmetic {left right : Sweep Expr} (span : Span) (operator : Operator)
    (leftSettled : left.Yields Settled) (rightSettled : right.Yields Settled) :
    (do let left ← left; let right ← right; pure (arithmetic span operator left right)).Yields
      Replacing := by
  refine Sweep.yields_bind leftSettled fun sweptLeft leftHolds => ?_
  refine Sweep.yields_bind rightSettled fun sweptRight rightHolds => ?_
  refine Sweep.yields_pure ⟨settled_of_not_list rfl ?_, rfl⟩
  simp [children, leftHolds, rightHolds]

/-- A node for a variable with a settled initializer replaces a list. -/
theorem yields_variableDef {below : Sweep Expr} (span : Span) (name : Located String)
    (settled : below.Yields Settled) :
    (do let swept ← below; pure (variableDef span name swept)).Yields Replacing :=
  yields_wrap (settled.mono fun _ holds => List.forall_mem_singleton.2 holds) (fun _ => rfl)
    (fun _ => rfl) fun _ => rfl

/-- A node for a function with a settled body replaces a list. -/
theorem yields_functionDef {below : Sweep Expr} (span : Span) (prototype : Prototype)
    (settled : below.Yields Settled) :
    (do let swept ← below; pure (functionDef span prototype swept)).Yields Replacing :=
  yields_wrap (settled.mono fun _ holds => List.forall_mem_singleton.2 holds) (fun _ => rfl)
    (fun _ => rfl) fun _ => rfl

/-- A node for a call with settled arguments replaces a list. -/
theorem yields_call {below : Sweep (List Expr)} (span : Span) (callee : Located String)
    (settled : below.Yields fun swept => ∀ expr ∈ swept, expr.Settled) :
    (do let swept ← below; pure (call span callee swept)).Yields Replacing :=
  yields_wrap settled (fun _ => rfl) (fun _ => rfl) fun _ => rfl

/-- What a sweep makes of a node: a settled node, and no identifier out of anything else. -/
def SweepsTo (expr swept : Expr) : Prop :=
  swept.Settled ∧ (expr.locatedName? = none → swept.locatedName? = none)

/-- A tree may be swept to a node that replaces a list. -/
theorem yields_sweepsTo {expr : Expr} {sweep : Sweep Expr} (replaced : sweep.Yields Replacing) :
    sweep.Yields expr.SweepsTo :=
  replaced.mono fun _ replacing => ⟨replacing.1, fun _ => replacing.2⟩

/-- Whatever a tree is swept to is settled. -/
theorem yields_settled {expr : Expr} {sweep : Sweep Expr} (swept : sweep.Yields expr.SweepsTo) :
    sweep.Yields Settled :=
  swept.mono fun _ sweepsTo => sweepsTo.1

mutual

/-- A sweep arrives at a settled tree. -/
theorem yields_sweep : (expr : Expr) → expr.sweep.Yields expr.SweepsTo
  | identifier _ _ => Sweep.yields_pure ⟨settled_of_not_list rfl nofun, id⟩
  | number _ _ => Sweep.yields_pure ⟨settled_of_not_list rfl nofun, id⟩
  | text _ _ => Sweep.yields_pure ⟨settled_of_not_list rfl nofun, id⟩
  | list span [] => by
    rw [sweep]
    refine Sweep.yields_pure ⟨settled_of_children ?_ nofun, id⟩
    rintro _ _ ⟨⟩
    rfl
  | list span (first :: operands) => by
    rw [sweep]
    split
    next notIdentifier =>
      refine Sweep.yields_bind (yields_sweep first) ?_
      rintro sweptFirst ⟨firstSettled, firstKept⟩
      refine Sweep.yields_bind (yields_sweepAll operands) fun sweptOperands operandsSettled => ?_
      refine Sweep.yields_pure ⟨settled_of_children ?_ ?_, fun _ => rfl⟩
      · rintro _ _ ⟨⟩
        exact identifierName?_eq_none_iff.2 (firstKept notIdentifier)
      · exact List.forall_mem_cons.2 ⟨firstSettled, operandsSettled⟩
    next head isIdentifier =>
      apply yields_sweepsTo
      split
      · exact yields_sweepArithmetic span _ _ operands
      · exact yields_sweepVariableDef span operands
      · exact yields_sweepFunctionDef span operands
      · exact Sweep.yields_bind_unit (yields_call span head (yields_sweepAll operands))
  | arithmetic span operator left right => by
    rw [sweep]
    exact yields_sweepsTo (yields_arithmetic span operator (yields_settled (yields_sweep left))
      (yields_settled (yields_sweep right)))
  | variableDef span name initializer => by
    rw [sweep]
    exact yields_sweepsTo (yields_variableDef span name (yields_settled (yields_sweep initializer)))
  | functionDef span prototype body => by
    rw [sweep]
    exact yields_sweepsTo (yields_functionDef span prototype (yields_settled (yields_sweep body)))
  | call span callee arguments => by
    rw [sweep]
    exact yields_sweepsTo (yields_call span callee (yields_sweepAll arguments))

/-- A list that announces arithmetic is replaced by a node for it. -/
theorem yields_sweepArithmetic (span : Span) (operator : Operator) (head : String) :
    (operands : List Expr) → (sweepArithmetic span operator head operands).Yields Replacing
  | left :: right :: ignored => by
    rw [sweepArithmetic]
    exact Sweep.yields_bind_unit (Sweep.yields_bind_unit
      (yields_arithmetic span operator (yields_settled (yields_sweep left))
        (yields_settled (yields_sweep right))))
  | [] | [_] => Sweep.yields_fault

/-- A list that announces a variable is replaced by its definition. -/
theorem yields_sweepVariableDef (span : Span) :
    (operands : List Expr) → (sweepVariableDef span operands).Yields Replacing
  | [nameItem, initializer] => by
    rw [sweepVariableDef]
    split
    · exact Sweep.yields_fault
    · exact Sweep.yields_bind_unit
        (yields_variableDef span _ (yields_settled (yields_sweep initializer)))
  | [] | [_] | _ :: _ :: _ :: _ => Sweep.yields_fault

/-- A list that announces a function is replaced by its definition. -/
theorem yields_sweepFunctionDef (span : Span) :
    (operands : List Expr) → (sweepFunctionDef span operands).Yields Replacing
  | [prototypeItem, body] => by
    rw [sweepFunctionDef]
    split
    · exact Sweep.yields_fault
    · exact Sweep.yields_bind_unit (yields_functionDef span _ (yields_settled (yields_sweep body)))
  | [] | [_] | _ :: _ :: _ :: _ => Sweep.yields_fault

/-- Trees that are swept one after another are all settled. -/
theorem yields_sweepAll : (exprs : List Expr) →
      (sweepAll exprs).Yields fun swept => ∀ expr ∈ swept, expr.Settled
  | [] => Sweep.yields_pure nofun
  | first :: others => by
    rw [sweepAll]
    refine Sweep.yields_bind (yields_settled (yields_sweep first)) fun _ firstSettled => ?_
    refine Sweep.yields_bind (yields_sweepAll others) fun _ othersSettled => ?_
    exact Sweep.yields_pure (List.forall_mem_cons.2 ⟨firstSettled, othersSettled⟩)

end

mutual

/-- A sweep over a settled tree leaves it as it is. -/
theorem sweep_of_settled : (expr : Expr) → expr.Settled → expr.sweep = pure expr
  | identifier _ _, _ => rfl
  | number _ _, _ => rfl
  | text _ _, _ => rfl
  | list _ [], _ => rfl
  | list span (first :: operands), settled => by
    have notIdentifier : first.locatedName? = none :=
      identifierName?_eq_none_iff.1 (settled span (first :: operands) (.root _))
    have firstSwept := sweep_of_settled first (settled.child List.mem_cons_self)
    have operandsSwept := sweepAll_of_settled operands fun operand member =>
      settled.child (List.mem_cons_of_mem first member)
    rw [sweep, notIdentifier]
    simp only [firstSwept, operandsSwept, Sweep.pure_bind]
  | arithmetic span operator left right, settled => by
    have leftSwept := sweep_of_settled left (settled.child (by simp [children]))
    have rightSwept := sweep_of_settled right (settled.child (by simp [children]))
    simp only [sweep, leftSwept, rightSwept, Sweep.pure_bind]
  | variableDef span name initializer, settled => by
    have swept := sweep_of_settled initializer (settled.child (by simp [children]))
    simp only [sweep, swept, Sweep.pure_bind]
  | functionDef span prototype body, settled => by
    have swept := sweep_of_settled body (settled.child (by simp [children]))
    simp only [sweep, swept, Sweep.pure_bind]
  | call span callee arguments, settled => by
    have swept := sweepAll_of_settled arguments fun _ member => settled.child member
    simp only [sweep, swept, Sweep.pure_bind]

/-- A sweep over settled trees leaves them as they are. -/
theorem sweepAll_of_settled : (exprs : List Expr) → (∀ expr ∈ exprs, expr.Settled) →
    sweepAll exprs = pure exprs
  | [], _ => rfl
  | first :: others, settled => by
    have firstSwept := sweep_of_settled first (settled first List.mem_cons_self)
    have othersSwept := sweepAll_of_settled others fun other member =>
      settled other (List.mem_cons_of_mem first member)
    simp only [sweepAll, firstSwept, othersSwept, Sweep.pure_bind]

end

end Expr

namespace Module

/-- A sweep over a module arrives at settled forms. -/
theorem settled_of_sweep {module swept : Module} (arrived : module.sweep.result = .ok swept) :
    ∀ form ∈ swept.forms, form.Settled := by
  have yields : module.sweep.Yields fun swept => ∀ form ∈ swept.forms, form.Settled :=
    Sweep.yields_bind (Expr.yields_sweepAll module.forms) fun _ settled => Sweep.yields_pure settled
  exact yields swept arrived

/-- A second sweep leaves everything as it is. -/
theorem sweep_of_sweep {module swept : Module} (arrived : module.sweep.result = .ok swept) :
    swept.sweep = pure swept := by
  rw [sweep, Expr.sweepAll_of_settled swept.forms (settled_of_sweep arrived), Sweep.pure_bind]

/-- Desugaring does nothing where a sweep does nothing. -/
theorem desugar_of_sweep_eq_pure {module : Module} (unchanged : module.sweep = pure module) :
    module.desugar = pure module := by
  rw [desugar]
  split
  next swept =>
    rw [unchanged] at swept
    cases swept
  next swept =>
    rw [unchanged] at swept
    cases swept
    rfl
  next swept =>
    rw [unchanged] at swept
    cases swept

/-- Desugaring a module comes to sweeping over it once. -/
theorem desugar_eq_sweep (module : Module) : module.desugar = module.sweep := by
  rw [desugar]
  split
  next swept => exact swept.symm
  next swept => exact swept.symm
  next notes more next swept =>
    have arrived : module.sweep.result = .ok next := by rw [swept]
    rw [desugar_of_sweep_eq_pure (sweep_of_sweep arrived), swept]
    simp [pure, Sweep.unchanged]

/-- Sweeps over a module, up to one that finds nothing to replace or meets a malformed
list: how many there are, and what they come to together. -/
inductive SweepLoop : Module → Nat → Sweep Module → Prop where
  | fault {module : Module} {cause : DesugarFault} (met : module.sweep.result = .error cause) :
      SweepLoop module 1 module.sweep
  | last {module final : Module} (arrived : module.sweep.result = .ok final)
      (nothing : module.sweep.replacements = 0) : SweepLoop module 1 module.sweep
  | again {module next : Module} {count : Nat} {rest : Sweep Module}
      (arrived : module.sweep.result = .ok next) (replaced : module.sweep.replacements ≠ 0)
      (loop : SweepLoop next count rest) :
      SweepLoop module (count + 1) (module.sweep >>= fun _ => rest)

/-- There are one or two sweeps, and together they come to desugaring. -/
theorem SweepLoop.count_le_two {module : Module} {count : Nat} {outcome : Sweep Module}
    (loop : SweepLoop module count outcome) : count ≤ 2 ∧ outcome = module.desugar := by
  rw [desugar_eq_sweep]
  cases loop with
  | fault met => exact ⟨by omega, rfl⟩
  | last arrived nothing => exact ⟨by omega, rfl⟩
  | @again _ next _ rest arrived replaced loop =>
    have unchanged := sweep_of_sweep arrived
    cases loop with
    | fault met =>
      rw [unchanged] at met
      cases met
    | last =>
      rw [unchanged]
      exact ⟨Nat.le_refl 2, Sweep.bind_pure_of_arrived arrived⟩
    | again _ replacedAgain =>
      rw [unchanged] at replacedAgain
      exact absurd rfl replacedAgain

/-- The sweeps come to an end. -/
theorem exists_sweepLoop (module : Module) : ∃ count, SweepLoop module count module.desugar := by
  have loops : ∃ count outcome, SweepLoop module count outcome := by
    cases arrived : module.sweep.result with
    | error cause => exact ⟨1, _, .fault arrived⟩
    | ok next =>
      by_cases nothing : module.sweep.replacements = 0
      · exact ⟨1, _, .last arrived nothing⟩
      · have unchanged := sweep_of_sweep arrived
        have nextArrived : next.sweep.result = .ok next := by rw [unchanged]; rfl
        have nothingMore : next.sweep.replacements = 0 := by rw [unchanged]; rfl
        exact ⟨2, _, .again arrived nothing (.last nextArrived nothingMore)⟩
  obtain ⟨count, outcome, loop⟩ := loops
  exact ⟨count, loop.count_le_two.2 ▸ loop⟩

/-- One sweep of desugaring suffices. If it arrives at a module, a further sweep over that
module replaces nothing and records nothing; the loop of sweeps ends after at most two,
with that module; desugaring it once more leaves it as it is; and none of its lists, at any
depth, begins with an identifier. -/
theorem desugar_settles_in_one_sweep (module swept : Module) (log : Log)
    (arrived : module.sweep.result = .ok swept) :
    (swept.sweep.result = .ok swept ∧ swept.sweep.replacements = 0 ∧
      swept.sweep.recordIn log = log) ∧
    ((∃ count, SweepLoop module count module.desugar) ∧
      ∀ count outcome, SweepLoop module count outcome → count ≤ 2 ∧ outcome = module.desugar) ∧
    (module.desugar.result = .ok swept ∧
      module.desugar.recordIn log = module.sweep.recordIn log) ∧
    (swept.desugar.result = .ok swept ∧ swept.desugar.recordIn log = log) ∧
    ∀ form ∈ swept.forms, ∀ span items, Expr.Within (.list span items) form →
      items.head?.bind Expr.identifierName? = none := by
  have unchanged := sweep_of_sweep arrived
  have desugared := desugar_of_sweep_eq_pure unchanged
  refine ⟨?_, ?_, ?_, ?_, ?_⟩
  · rw [unchanged]
    exact ⟨rfl, rfl, rfl⟩
  · exact ⟨module.exists_sweepLoop, fun _ _ loop => loop.count_le_two⟩
  · rw [desugar_eq_sweep]
    exact ⟨arrived, rfl⟩
  · rw [desugared]
    exact ⟨rfl, rfl⟩
  · exact settled_of_sweep arrived

/-- A sweep over calls, definitions and arithmetic with an ignored operand. -/
theorem desugar_settles_nested_forms :
    let at0 : Span := .point 0
    let word (name : String) : Expr := .identifier at0 name
    let module : Module := ⟨[.list at0 [word "defun", .list at0 [word "f", word "x"],
      .list at0 [word "+", .list at0 [word "g", word "x"], .number at0 1, .list at0 [word "h"]]]]⟩
    let swept : Module := ⟨[.functionDef at0 ⟨⟨"f", at0⟩, [⟨"x", at0⟩], at0⟩
      (.arithmetic at0 .sum (.call at0 ⟨"g", at0⟩ [word "x"]) (.number at0 1))]⟩
    module.sweep.result = .ok swept ∧ module.desugar.result = .ok swept ∧
      swept.desugar.recordIn {} = {} := by
  intro at0 word module swept
  have arrived : module.sweep.result = .ok swept := rfl
  obtain ⟨-, -, ⟨desugared, -⟩, ⟨-, recorded⟩, -⟩ :=
    module.desugar_settles_in_one_sweep swept {} arrived
  exact ⟨arrived, desugared, recorded⟩

end Module

end Lisplet
