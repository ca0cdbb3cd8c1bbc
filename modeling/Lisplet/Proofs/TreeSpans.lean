import Lisplet.Proofs.OpenLists
import Lisplet.Proofs.Resugaring
import Lisplet.Token.Balance

/-!
# Where trees are placed

Neither reading nor desugaring makes up a place. The spans of a tree, and the labels of what
is found on the way from tokens to a desugared tree, are spans of tokens or unions of such. So
a property of spans that unions keep is handed on from the tokens to all of them.
-/

namespace Lisplet

/-- The smallest span that covers two others has the property if both have it. -/
def Span.UnionClosed (holds : Span → Prop) : Prop :=
  ∀ left right, holds left → holds right → holds (left.union right)

/-- The places of a prototype: its own, that of its name and those of its parameters. -/
def Prototype.spans (prototype : Prototype) : List Span :=
  prototype.span :: prototype.name.span :: prototype.params.map Located.span

namespace Expr

mutual

/-- All places in a tree: those of its nodes, and those of the names in them. -/
def spans : Expr → List Span
  | identifier span _ => [span]
  | number span _ => [span]
  | text span _ => [span]
  | list span items => span :: spansAll items
  | arithmetic span _ left right => span :: (spans left ++ spans right)
  | variableDef span name initializer => span :: name.span :: spans initializer
  | functionDef span prototype body => span :: (prototype.spans ++ spans body)
  | call span callee arguments => span :: callee.span :: spansAll arguments

/-- All places in some trees. -/
def spansAll : List Expr → List Span
  | [] => []
  | first :: others => spans first ++ spansAll others

end

/-- The places of some nodes are collected node by node. -/
theorem spansAll_eq_flatMap (nodes : List Expr) : spansAll nodes = nodes.flatMap spans := by
  induction nodes with
  | nil => rfl
  | cons first others inductionHypothesis =>
    rw [List.flatMap_cons, ← inductionHypothesis]
    rfl

/-- Whether all places in a tree have a property. -/
def Placed (holds : Span → Prop) (expr : Expr) : Prop :=
  ∀ span ∈ expr.spans, holds span

variable {holds : Span → Prop}

/-- All places in some nodes have a property exactly if it holds in each node. -/
theorem forall_spansAll_iff {nodes : List Expr} :
    (∀ span ∈ spansAll nodes, holds span) ↔ ∀ node ∈ nodes, node.Placed holds := by
  rw [spansAll_eq_flatMap]
  constructor
  · intro all node member span isSpan
    exact all span (List.mem_flatMap.2 ⟨node, member, isSpan⟩)
  · intro all span isSpan
    obtain ⟨node, member, isSpan⟩ := List.mem_flatMap.1 isSpan
    exact all node member span isSpan

@[simp] theorem placed_identifier {span : Span} {name : String} :
    (identifier span name).Placed holds ↔ holds span :=
  List.forall_mem_singleton

@[simp] theorem placed_number {span : Span} {value : Int64} :
    (number span value).Placed holds ↔ holds span :=
  List.forall_mem_singleton

@[simp] theorem placed_text {span : Span} {body : String} :
    (text span body).Placed holds ↔ holds span :=
  List.forall_mem_singleton

@[simp] theorem placed_list {span : Span} {items : List Expr} :
    (list span items).Placed holds ↔ holds span ∧ ∀ item ∈ items, item.Placed holds := by
  change (∀ place ∈ span :: spansAll items, holds place) ↔ _
  rw [List.forall_mem_cons, forall_spansAll_iff]

@[simp] theorem placed_arithmetic {span : Span} {operator : Operator} {left right : Expr} :
    (arithmetic span operator left right).Placed holds ↔
      holds span ∧ left.Placed holds ∧ right.Placed holds := by
  change (∀ place ∈ span :: (left.spans ++ right.spans), holds place) ↔ _
  rw [List.forall_mem_cons, List.forall_mem_append]
  rfl

@[simp] theorem placed_variableDef {span : Span} {name : Located String} {initializer : Expr} :
    (variableDef span name initializer).Placed holds ↔
      holds span ∧ holds name.span ∧ initializer.Placed holds := by
  change (∀ place ∈ span :: name.span :: initializer.spans, holds place) ↔ _
  rw [List.forall_mem_cons, List.forall_mem_cons]
  rfl

@[simp] theorem placed_functionDef {span : Span} {prototype : Prototype} {body : Expr} :
    (functionDef span prototype body).Placed holds ↔
      holds span ∧ (∀ span ∈ prototype.spans, holds span) ∧ body.Placed holds := by
  change (∀ place ∈ span :: (prototype.spans ++ body.spans), holds place) ↔ _
  rw [List.forall_mem_cons, List.forall_mem_append]
  rfl

@[simp] theorem placed_call {span : Span} {callee : Located String} {arguments : List Expr} :
    (call span callee arguments).Placed holds ↔
      holds span ∧ holds callee.span ∧ ∀ argument ∈ arguments, argument.Placed holds := by
  change (∀ place ∈ span :: callee.span :: spansAll arguments, holds place) ↔ _
  rw [List.forall_mem_cons, List.forall_mem_cons, forall_spansAll_iff]

/-- The place of a node is a place in its tree. -/
theorem Placed.span {expr : Expr} (placed : expr.Placed holds) : holds expr.span := by
  apply placed
  cases expr <;> exact List.mem_cons_self

end Expr

/-- All places in the forms of a module. -/
def Module.spans (module : Module) : List Span :=
  Expr.spansAll module.forms

/-- Whether all places in a module have a property. -/
def Module.Placed (holds : Span → Prop) (module : Module) : Prop :=
  ∀ form ∈ module.forms, form.Placed holds

/-- All places in a module have a property exactly if it holds in each form. -/
theorem Module.forall_spans_iff {holds : Span → Prop} {module : Module} :
    (∀ span ∈ module.spans, holds span) ↔ module.Placed holds :=
  Expr.forall_spansAll_iff

/-- Whether all labels of a diagnostic have places with a property. -/
def Diagnostic.Placed (holds : Span → Prop) (diagnostic : Diagnostic) : Prop :=
  ∀ label ∈ diagnostic.labels, holds label.span

section Reading

variable {holds : Span → Prop}

/-- A closing paren that is found to match nothing is one of the tokens that were counted. -/
theorem placed_of_foldl_add {tokens : List (Located Token)} {count : ParenCount}
    (placed : ∀ token ∈ tokens, holds token.span)
    (placedBefore : ∀ closing, count.firstUnmatched = some closing → holds closing) {closing : Span}
    (found : (tokens.foldl ParenCount.add count).firstUnmatched = some closing) :
    holds closing := by
  induction tokens generalizing count with
  | nil => exact placedBefore closing found
  | cons token rest inductionHypothesis =>
    have restPlaced := fun other member => placed other (List.mem_cons_of_mem _ member)
    refine inductionHypothesis restPlaced ?_ found
    intro unmatched isUnmatched
    unfold ParenCount.add at isUnmatched
    split at isUnmatched
    · exact placedBefore unmatched isUnmatched
    · exact placedBefore unmatched isUnmatched
    · cases before : count.firstUnmatched with
      | some earlier => exact placedBefore unmatched (by simpa [before] using isUnmatched)
      | none =>
        cases (by simpa [before] using isUnmatched : token.span = unmatched)
        exact placed token List.mem_cons_self
    · exact placedBefore unmatched isUnmatched

/-- The closing paren that matches nothing is one of the tokens. -/
theorem placed_of_balance {tokens : List (Located Token)} {fault : BalanceFault}
    (placed : ∀ token ∈ tokens, holds token.span)
    (unbalanced : balance tokens = .error fault) : fault.diagnostic.Placed holds := by
  rw [balance] at unbalanced
  split at unbalanced
  · rename_i closing found
    cases unbalanced
    exact List.forall_mem_singleton.2 (placed_of_foldl_add placed (by simp) found)
  · cases unbalanced

namespace Reading

/-- Whether all places in what has been read have a property. -/
structure Placed (holds : Span → Prop) (reading : Reading) : Prop where
  openings : ∀ list ∈ reading.stack, holds list.opening
  items : ∀ list ∈ reading.stack, ∀ item ∈ list.items, item.Placed holds
  forms : ∀ form ∈ reading.forms, form.Placed holds

/-- A tree whose places have the property can be added. -/
theorem Placed.add {reading : Reading} (placed : reading.Placed holds) {expr : Expr}
    (isPlaced : expr.Placed holds) : (reading.add expr).Placed holds := by
  obtain ⟨stack, forms⟩ := reading
  cases stack with
  | nil =>
    rw [add_of_outside]
    exact ⟨placed.openings, placed.items, List.forall_mem_cons.2 ⟨isPlaced, placed.forms⟩⟩
  | cons inner outer =>
    obtain ⟨opening, openings⟩ := List.forall_mem_cons.1 placed.openings
    obtain ⟨innerItems, items⟩ := List.forall_mem_cons.1 placed.items
    rw [add_of_inside]
    refine ⟨List.forall_mem_cons.2 ⟨opening, openings⟩, List.forall_mem_cons.2 ⟨?_, items⟩,
      placed.forms⟩
    exact List.forall_mem_cons.2 ⟨isPlaced, innerItems⟩

/-- An atom stands where its token stands. -/
theorem placed_of_ofAtom? {token : Located Token} {atom : Expr}
    (isAtom : Expr.ofAtom? token = some atom) (here : holds token.span) : atom.Placed holds := by
  obtain ⟨value, span⟩ := token
  cases value <;> cases isAtom <;> simpa using here

/-- One more token adds its own place, and the place of a list that it closes. -/
theorem Placed.step (closed : Span.UnionClosed holds) {reading next : Reading}
    {token : Located Token} (placed : reading.Placed holds) (here : holds token.span)
    (stepped : reading.step token = some next) : next.Placed holds := by
  rcases step_cases stepped with ⟨-, rfl⟩ | ⟨-, rfl⟩ | ⟨-, inner, outer, isStack, rfl⟩ |
    ⟨atom, isAtom, -, rfl⟩
  · exact placed
  · exact ⟨List.forall_mem_cons.2 ⟨here, placed.openings⟩,
      List.forall_mem_cons.2 ⟨by simp, placed.items⟩, placed.forms⟩
  · obtain ⟨openings, items, forms⟩ := placed
    rw [isStack] at openings items
    obtain ⟨opening, outerOpenings⟩ := List.forall_mem_cons.1 openings
    obtain ⟨innerItems, outerItems⟩ := List.forall_mem_cons.1 items
    have outside : Placed holds ⟨outer, reading.forms⟩ := ⟨outerOpenings, outerItems, forms⟩
    apply outside.add
    rw [Expr.placed_list]
    exact ⟨closed _ _ opening here, by simpa using innerItems⟩
  · exact placed.add (placed_of_ofAtom? isAtom here)

/-- Reading tokens to the end hands their places on to the module or to the fault. -/
theorem Placed.conclude (closed : Span.UnionClosed holds) {reading : Reading} {inputEnd : Span}
    (atEnd : holds inputEnd) (tokens : List (Located Token))
    (tokensPlaced : ∀ token ∈ tokens, holds token.span) (placed : reading.Placed holds) :
    match reading.conclude inputEnd tokens with
    | .ok module => module.Placed holds
    | .error fault => fault.diagnostic.Placed holds := by
  induction tokens generalizing reading with
  | nil =>
    obtain ⟨stack, forms⟩ := reading
    cases stack with
    | nil =>
      intro form member
      exact placed.forms form (List.mem_reverse.1 member)
    | cons inner outer =>
      have opening := placed.openings inner List.mem_cons_self
      exact List.forall_mem_cons.2 ⟨opening, List.forall_mem_singleton.2 atEnd⟩
  | cons token rest inductionHypothesis =>
    obtain ⟨here, restPlaced⟩ := List.forall_mem_cons.1 tokensPlaced
    cases stepped : reading.step token with
    | some next =>
      rw [conclude_cons_of_step stepped]
      exact inductionHypothesis restPlaced (placed.step closed here stepped)
    | none =>
      rw [conclude_cons_of_refused stepped]
      exact List.forall_mem_singleton.2 here

end Reading

/-- Reading tokens as a module hands their places on to the module or to the fault. -/
theorem Module.placed_ofTokens (closed : Span.UnionClosed holds) {tokens : List (Located Token)}
    (tokensPlaced : ∀ token ∈ tokens, holds token.span)
    (atEnd : holds (endIn (Parse.endOf tokens) tokens)) :
    match Module.ofTokens tokens with
    | .ok module => module.Placed holds
    | .error fault => fault.diagnostic.Placed holds := by
  have nothing : Reading.Placed holds {} := ⟨by simp, by simp, by simp⟩
  rw [Module.ofTokens_eq_conclude]
  apply nothing.conclude closed atEnd
  intro token member
  exact tokensPlaced token ((List.takeWhile_sublist _).subset member)

end Reading

namespace Sweep

variable {α β : Type} {holds : Span → Prop}

/-- Whether all places that a sweep comes to have a property: those of its notes, those of
its fault, and those in what it arrives at, by a property of the value. -/
structure Placed (holds : Span → Prop) (isPlaced : α → Prop) (sweep : Sweep α) : Prop where
  notes : ∀ note ∈ sweep.notes, note.diagnostic.Placed holds
  fault : ∀ cause, sweep.result = .error cause → cause.diagnostic.Placed holds
  value : sweep.Yields isPlaced

/-- A sweep that does nothing has no places but those of its value. -/
theorem placed_pure {isPlaced : α → Prop} {value : α} (placed : isPlaced value) :
    (pure value : Sweep α).Placed holds isPlaced where
  notes := by rintro note ⟨⟩
  fault := by rintro cause ⟨⟩
  value := yields_pure placed

/-- A fault has no places but those of its diagnostic. -/
theorem placed_fault {isPlaced : α → Prop} {cause : DesugarFault}
    (placed : cause.diagnostic.Placed holds) :
    (Sweep.fault cause : Sweep α).Placed holds isPlaced where
  notes := by rintro note ⟨⟩
  fault := by
    rintro other ⟨⟩
    exact placed
  value := yields_fault

/-- What follows a sweep may rely on the places in its value. -/
theorem placed_bind {first : Sweep α} {next : α → Sweep β} {firstPlaced : α → Prop}
    {isPlaced : β → Prop} (early : first.Placed holds firstPlaced)
    (late : ∀ value, firstPlaced value → (next value).Placed holds isPlaced) :
    (first >>= next).Placed holds isPlaced := by
  change (first.andThen next).Placed holds isPlaced
  rw [andThen]
  split
  next cause met =>
    constructor
    · exact early.notes
    · rintro other ⟨⟩
      exact early.fault cause met
    · rintro value ⟨⟩
  next value arrived =>
    have lateHere := late value (early.value value arrived)
    exact ⟨List.forall_mem_append.2 ⟨early.notes, lateHere.notes⟩, lateHere.fault,
      lateHere.value⟩

/-- Counting a replacement places nothing. -/
theorem placed_replacement : replacement.Placed holds fun _ => True where
  notes := by rintro note ⟨⟩
  fault := by rintro cause ⟨⟩
  value := fun _ _ => trivial

end Sweep

section Desugaring

variable {holds : Span → Prop}

/-- The smallest span that covers some nodes has the property. -/
theorem holds_foldl_union (closed : Span.UnionClosed holds) {nodes : List Expr}
    (placed : ∀ node ∈ nodes, node.Placed holds) {span : Span} (here : holds span) :
    holds (nodes.foldl (fun span node => span.union node.span) span) := by
  induction nodes generalizing span with
  | nil => exact here
  | cons node others inductionHypothesis =>
    obtain ⟨nodePlaced, othersPlaced⟩ := List.forall_mem_cons.1 placed
    exact inductionHypothesis othersPlaced (closed _ _ here nodePlaced.span)

/-- Ignored operands are noted where they stand. -/
theorem placed_noteIgnored (closed : Span.UnionClosed holds) (head : String)
    {ignored : List Expr} (placed : ∀ operand ∈ ignored, operand.Placed holds) :
    (noteIgnored head ignored).Placed holds fun _ => True := by
  cases ignored with
  | nil => exact Sweep.placed_pure trivial
  | cons first others =>
    obtain ⟨firstPlaced, othersPlaced⟩ := List.forall_mem_cons.1 placed
    have covered := holds_foldl_union closed othersPlaced firstPlaced.span
    constructor
    · exact List.forall_mem_singleton.2 (List.forall_mem_singleton.2 covered)
    · rintro cause ⟨⟩
    · exact fun _ _ => trivial

/-- The places of a prototype are those of the list that it was read from. -/
theorem Prototype.placed_toExpr_iff {prototype : Prototype} :
    prototype.toExpr.Placed holds ↔ ∀ span ∈ prototype.spans, holds span := by
  simp [Prototype.toExpr, Prototype.spans]

/-- A node that is no prototype is reported where it or one of its items stands. -/
theorem placed_of_ofExpr {expr : Expr} {cause : DesugarFault} (placed : expr.Placed holds)
    (malformed : Prototype.ofExpr expr = .error cause) : cause.diagnostic.Placed holds := by
  unfold Prototype.ofExpr at malformed
  split at malformed
  next span items =>
    obtain ⟨here, itemsPlaced⟩ := Expr.placed_list.1 placed
    split at malformed
    next refused =>
      cases malformed
      rw [Expr.prototypeNames_eq] at refused
      split at refused
      next item found =>
        cases refused
        have itemHere := (itemsPlaced item (List.mem_of_find?_eq_some found)).span
        exact List.forall_mem_cons.2 ⟨itemHere, List.forall_mem_singleton.2 here⟩
      next => cases refused
    next =>
      cases malformed
      exact List.forall_mem_singleton.2 here
    next => cases malformed
  next =>
    cases malformed
    exact List.forall_mem_singleton.2 placed.span

namespace Expr

open Sweep

mutual

/-- A sweep over a node places nothing but what is placed in it. -/
theorem placed_sweep (closed : Span.UnionClosed holds) : (expr : Expr) → expr.Placed holds →
    expr.sweep.Placed holds (Placed holds)
  | identifier _ _, placed => placed_pure placed
  | number _ _, placed => placed_pure placed
  | text _ _, placed => placed_pure placed
  | list _ [], placed => placed_pure placed
  | list span (first :: operands), placed => by
    obtain ⟨here, itemsPlaced⟩ := placed_list.1 placed
    obtain ⟨firstPlaced, operandsPlaced⟩ := List.forall_mem_cons.1 itemsPlaced
    rw [sweep]
    split
    next =>
      refine placed_bind (placed_sweep closed first firstPlaced) fun sweptFirst firstHere => ?_
      refine placed_bind (placed_sweepAll closed operands operandsPlaced)
        fun sweptOperands operandsHere => ?_
      exact placed_pure (placed_list.2 ⟨here, List.forall_mem_cons.2 ⟨firstHere, operandsHere⟩⟩)
    next head isIdentifier =>
      have headHere : holds head.span := by
        rw [eq_identifier_of_locatedName? isIdentifier] at firstPlaced
        exact placed_identifier.1 firstPlaced
      split
      · exact placed_sweepArithmetic closed here _ _ operands operandsPlaced
      · exact placed_sweepVariableDef closed here operands operandsPlaced
      · exact placed_sweepFunctionDef closed here operands operandsPlaced
      · refine placed_bind placed_replacement fun _ _ => ?_
        refine placed_bind (placed_sweepAll closed operands operandsPlaced)
          fun arguments argumentsHere => ?_
        exact placed_pure (placed_call.2 ⟨here, headHere, argumentsHere⟩)
  | arithmetic span operator left right, placed => by
    obtain ⟨here, leftPlaced, rightPlaced⟩ := placed_arithmetic.1 placed
    rw [sweep]
    refine placed_bind (placed_sweep closed left leftPlaced) fun sweptLeft leftHere => ?_
    refine placed_bind (placed_sweep closed right rightPlaced) fun sweptRight rightHere => ?_
    exact placed_pure (placed_arithmetic.2 ⟨here, leftHere, rightHere⟩)
  | variableDef span name initializer, placed => by
    obtain ⟨here, nameHere, initializerPlaced⟩ := placed_variableDef.1 placed
    rw [sweep]
    refine placed_bind (placed_sweep closed initializer initializerPlaced) fun swept below => ?_
    exact placed_pure (placed_variableDef.2 ⟨here, nameHere, below⟩)
  | functionDef span prototype body, placed => by
    obtain ⟨here, prototypeHere, bodyPlaced⟩ := placed_functionDef.1 placed
    rw [sweep]
    refine placed_bind (placed_sweep closed body bodyPlaced) fun swept below => ?_
    exact placed_pure (placed_functionDef.2 ⟨here, prototypeHere, below⟩)
  | call span callee arguments, placed => by
    obtain ⟨here, calleeHere, argumentsPlaced⟩ := placed_call.1 placed
    rw [sweep]
    refine placed_bind (placed_sweepAll closed arguments argumentsPlaced) fun swept below => ?_
    exact placed_pure (placed_call.2 ⟨here, calleeHere, below⟩)

/-- Sweeping arithmetic keeps to the places in the list. -/
theorem placed_sweepArithmetic (closed : Span.UnionClosed holds) {span : Span}
    (here : holds span) (operator : Operator) (head : String) :
    (operands : List Expr) → (∀ operand ∈ operands, operand.Placed holds) →
      (sweepArithmetic span operator head operands).Placed holds (Placed holds)
  | left :: right :: ignored, placed => by
    obtain ⟨leftPlaced, others⟩ := List.forall_mem_cons.1 placed
    obtain ⟨rightPlaced, ignoredPlaced⟩ := List.forall_mem_cons.1 others
    rw [sweepArithmetic]
    refine placed_bind (placed_noteIgnored closed head ignoredPlaced) fun _ _ => ?_
    refine placed_bind placed_replacement fun _ _ => ?_
    refine placed_bind (placed_sweep closed left leftPlaced) fun sweptLeft leftHere => ?_
    refine placed_bind (placed_sweep closed right rightPlaced) fun sweptRight rightHere => ?_
    exact placed_pure (placed_arithmetic.2 ⟨here, leftHere, rightHere⟩)
  | [], _ | [_], _ => placed_fault (List.forall_mem_singleton.2 here)

/-- Sweeping the definition of a variable keeps to the places in the list. -/
theorem placed_sweepVariableDef (closed : Span.UnionClosed holds) {span : Span}
    (here : holds span) : (operands : List Expr) → (∀ operand ∈ operands, operand.Placed holds) →
      (sweepVariableDef span operands).Placed holds (Placed holds)
  | [nameItem, initializer], placed => by
    obtain ⟨namePlaced, others⟩ := List.forall_mem_cons.1 placed
    have initializerPlaced := List.forall_mem_singleton.1 others
    rw [sweepVariableDef]
    split
    next => exact placed_fault (List.forall_mem_singleton.2 namePlaced.span)
    next name isIdentifier =>
      rw [eq_identifier_of_locatedName? isIdentifier] at namePlaced
      refine placed_bind placed_replacement fun _ _ => ?_
      refine placed_bind (placed_sweep closed initializer initializerPlaced) fun swept below => ?_
      exact placed_pure (placed_variableDef.2 ⟨here, placed_identifier.1 namePlaced, below⟩)
  | [], _ | [_], _ | _ :: _ :: _ :: _, _ => placed_fault (List.forall_mem_singleton.2 here)

/-- Sweeping the definition of a function keeps to the places in the list. -/
theorem placed_sweepFunctionDef (closed : Span.UnionClosed holds) {span : Span}
    (here : holds span) : (operands : List Expr) → (∀ operand ∈ operands, operand.Placed holds) →
      (sweepFunctionDef span operands).Placed holds (Placed holds)
  | [prototypeItem, body], placed => by
    obtain ⟨prototypePlaced, others⟩ := List.forall_mem_cons.1 placed
    have bodyPlaced := List.forall_mem_singleton.1 others
    rw [sweepFunctionDef]
    split
    next cause malformed => exact placed_fault (placed_of_ofExpr prototypePlaced malformed)
    next prototype isPrototype =>
      rw [Prototype.eq_toExpr_of_ofExpr isPrototype] at prototypePlaced
      refine placed_bind placed_replacement fun _ _ => ?_
      refine placed_bind (placed_sweep closed body bodyPlaced) fun swept below => ?_
      exact placed_pure (placed_functionDef.2
        ⟨here, Prototype.placed_toExpr_iff.1 prototypePlaced, below⟩)
  | [], _ | [_], _ | _ :: _ :: _ :: _, _ => placed_fault (List.forall_mem_singleton.2 here)

/-- Sweeping trees one after another keeps to their places. -/
theorem placed_sweepAll (closed : Span.UnionClosed holds) : (exprs : List Expr) →
    (∀ expr ∈ exprs, expr.Placed holds) →
      (sweepAll exprs).Placed holds fun swept => ∀ expr ∈ swept, expr.Placed holds
  | [], _ => placed_pure (by simp)
  | first :: others, placed => by
    obtain ⟨firstPlaced, othersPlaced⟩ := List.forall_mem_cons.1 placed
    rw [sweepAll]
    refine placed_bind (placed_sweep closed first firstPlaced) fun sweptFirst firstHere => ?_
    refine placed_bind (placed_sweepAll closed others othersPlaced) fun swept othersHere => ?_
    exact placed_pure (List.forall_mem_cons.2 ⟨firstHere, othersHere⟩)

end

end Expr

/-- Desugaring a module places nothing but what is placed in it. -/
theorem Module.placed_desugar (closed : Span.UnionClosed holds) {module : Module}
    (placed : module.Placed holds) : module.desugar.Placed holds (Module.Placed holds) := by
  rw [Module.desugar_eq_sweep, Module.sweep]
  refine Sweep.placed_bind (Expr.placed_sweepAll closed module.forms placed) fun swept below => ?_
  exact Sweep.placed_pure below

end Desugaring

end Lisplet
