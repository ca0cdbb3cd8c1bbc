import Lisplet.Tree.Sweep

/-!
# Desugaring

Desugaring sweeps over a module until a sweep finds nothing to replace. This
comes to an end because a sweep leaves fewer lists than there were, by at least
the number of lists it replaced: `Module.bounded_sweep`.
-/

namespace Lisplet

namespace Sweep

/-- A sequence of sweeps arrives somewhere exactly if both of its parts do. -/
theorem bind_result_eq_ok_iff {α β : Type} (first : Sweep α) (next : α → Sweep β) (final : β) :
    (first >>= next).result = .ok final ↔
      ∃ value, first.result = .ok value ∧ (next value).result = .ok final := by
  change (first.andThen next).result = _ ↔ _
  unfold andThen
  cases first.result <;> simp

/-- A sequence of sweeps replaces the lists that its parts replace. -/
theorem bind_replacements_of_ok {α β : Type} (first : Sweep α) (next : α → Sweep β) {value : α}
    (arrived : first.result = .ok value) :
    (first >>= next).replacements = first.replacements + (next value).replacements := by
  change (first.andThen next).replacements = _
  unfold andThen
  rw [arrived]

/-- A sweep that replaces lists leaves fewer of them: the number of replaced
lists and the number of those left, counted by `lists`, stay within `bound`. -/
def Bounded {α : Type} (sweep : Sweep α) (lists : α → Nat) (bound : Nat) : Prop :=
  ∀ value, sweep.result = .ok value → sweep.replacements + lists value ≤ bound

/-- A sweep stays within anything larger than what it stays within. -/
theorem Bounded.mono {α : Type} {sweep : Sweep α} {lists : α → Nat} {bound larger : Nat}
    (bounded : sweep.Bounded lists bound) (within : bound ≤ larger) :
    sweep.Bounded lists larger :=
  fun value arrived => Nat.le_trans (bounded value arrived) within

/-- Leaving a value as it is stays within the number of its lists. -/
theorem bounded_pure {α : Type} {lists : α → Nat} {value : α} {bound : Nat}
    (within : lists value ≤ bound) : (pure value : Sweep α).Bounded lists bound := by
  intro final arrived
  cases arrived
  exact Nat.le_trans (Nat.le_of_eq (Nat.zero_add _)) within

/-- Meeting a malformed list stays within any number. -/
theorem bounded_fault {α : Type} {lists : α → Nat} {cause : DesugarFault} {bound : Nat} :
    (fault cause : Sweep α).Bounded lists bound := by
  intro final arrived
  cases arrived

/-- A sequence of sweeps stays within what its parts stay within together. -/
theorem bounded_bind {α β : Type} {first : Sweep α} {next : α → Sweep β}
    {firstLists : α → Nat} {lists : β → Nat} {firstBound whole : Nat} (others : Nat)
    (firstBounded : first.Bounded firstLists firstBound)
    (within : firstBound + others ≤ whole)
    (nextBounded : ∀ value, (next value).Bounded lists (firstLists value + others)) :
    (first >>= next).Bounded lists whole := by
  intro final arrived
  obtain ⟨value, firstArrived, nextArrived⟩ := (bind_result_eq_ok_iff first next final).1 arrived
  rw [bind_replacements_of_ok first next firstArrived]
  have firstWithin := firstBounded value firstArrived
  have nextWithin := nextBounded value final nextArrived
  omega

/-- A sweep after a step that replaces at most `count` lists stays within as
many more. -/
theorem bounded_bind_unit {α : Type} {first : Sweep Unit} {next : Unit → Sweep α}
    {lists : α → Nat} {bound : Nat} (count : Nat) (counted : first.replacements = count)
    (nextBounded : (next ()).Bounded lists bound) :
    (first >>= next).Bounded lists (count + bound) := by
  have firstBounded : first.Bounded (fun _ => 0) count := fun _ _ => Nat.le_of_eq counted
  refine bounded_bind bound firstBounded (Nat.le_refl _) fun _ => ?_
  rwa [Nat.zero_add]

end Sweep

namespace Expr

mutual

/-- The number of lists in a tree. -/
def lists : Expr → Nat
  | list _ items => 1 + listsAll items
  | arithmetic _ _ left right => lists left + lists right
  | variableDef _ _ initializer => lists initializer
  | functionDef _ _ body => lists body
  | call _ _ arguments => listsAll arguments
  | identifier _ _ => 0
  | number _ _ => 0
  | text _ _ => 0

/-- The number of lists in some trees. -/
def listsAll : List Expr → Nat
  | [] => 0
  | first :: others => lists first + listsAll others

end

/-- A note replaces nothing. -/
theorem replacements_noteIgnored (head : String) (ignored : List Expr) :
    (noteIgnored head ignored).replacements = 0 := by
  cases ignored <;> rfl

/-- A replacement, and a sweep over a part of what was replaced, stay within one
list more than the whole has. -/
theorem bounded_replace {α : Type} {below : Sweep α} {belowLists : α → Nat} {wrap : α → Expr}
    {bound whole : Nat} (belowBounded : below.Bounded belowLists bound) (within : bound ≤ whole)
    (wrapped : ∀ value, lists (wrap value) = belowLists value) :
    (do Sweep.replacement; let value ← below; pure (wrap value)).Bounded lists (1 + whole) :=
  Sweep.bounded_bind_unit 1 rfl (Sweep.bounded_bind 0 belowBounded within fun value =>
    Sweep.bounded_pure (Nat.le_of_eq (wrapped value)))

mutual

/-- A sweep over a node stays within the number of its lists. -/
theorem bounded_sweep : (expr : Expr) → expr.sweep.Bounded lists expr.lists
  | identifier _ _ => Sweep.bounded_pure (Nat.le_refl _)
  | number _ _ => Sweep.bounded_pure (Nat.le_refl _)
  | text _ _ => Sweep.bounded_pure (Nat.le_refl _)
  | list _ [] => Sweep.bounded_pure (Nat.le_refl _)
  | list span (first :: operands) => by
    rw [sweep, lists, listsAll]
    have operandsWithin : listsAll operands ≤ lists first + listsAll operands :=
      Nat.le_add_left _ _
    split
    · refine Sweep.bounded_bind (1 + listsAll operands) (bounded_sweep first)
        (Nat.le_of_eq (Nat.add_left_comm _ _ _)) fun swept => ?_
      refine Sweep.bounded_bind (1 + lists swept) (bounded_sweepAll operands) ?_ fun _ => ?_
      · omega
      · refine Sweep.bounded_pure ?_
        rw [lists, listsAll]
        omega
    · split
      · exact (bounded_sweepArithmetic span _ _ operands).mono
          (Nat.add_le_add_left operandsWithin 1)
      · exact (bounded_sweepVariableDef span operands).mono (Nat.add_le_add_left operandsWithin 1)
      · exact (bounded_sweepFunctionDef span operands).mono (Nat.add_le_add_left operandsWithin 1)
      · exact bounded_replace (bounded_sweepAll operands) operandsWithin fun _ => rfl
  | arithmetic span operator left right => by
    rw [sweep, lists]
    exact Sweep.bounded_bind _ (bounded_sweep left) (Nat.le_refl _) fun _ =>
      Sweep.bounded_bind _ (bounded_sweep right) (Nat.le_of_eq (Nat.add_comm _ _)) fun _ =>
        Sweep.bounded_pure (Nat.le_of_eq (Nat.add_comm _ _))
  | variableDef span name initializer => by
    rw [sweep, lists]
    exact Sweep.bounded_bind 0 (bounded_sweep initializer) (Nat.le_refl _) fun _ =>
      Sweep.bounded_pure (Nat.le_refl _)
  | functionDef span prototype body => by
    rw [sweep, lists]
    exact Sweep.bounded_bind 0 (bounded_sweep body) (Nat.le_refl _) fun _ =>
      Sweep.bounded_pure (Nat.le_refl _)
  | call span callee arguments => by
    rw [sweep, lists]
    exact Sweep.bounded_bind 0 (bounded_sweepAll arguments) (Nat.le_refl _) fun _ =>
      Sweep.bounded_pure (Nat.le_refl _)

/-- Replacing a list by arithmetic stays within one list more than its operands
have. -/
theorem bounded_sweepArithmetic (span : Span) (operator : Operator) (head : String) :
    (operands : List Expr) →
      (sweepArithmetic span operator head operands).Bounded lists (1 + listsAll operands)
  | left :: right :: ignored => by
    rw [sweepArithmetic, listsAll, listsAll]
    refine (Sweep.bounded_bind_unit 0 (replacements_noteIgnored head ignored) ?_).mono
      (Nat.le_of_eq (Nat.zero_add _))
    refine Sweep.bounded_bind_unit 1 rfl ?_
    refine Sweep.bounded_bind (lists right) (bounded_sweep left) (by omega) fun swept => ?_
    exact Sweep.bounded_bind (lists swept) (bounded_sweep right) (Nat.le_of_eq (Nat.add_comm _ _))
      fun _ => Sweep.bounded_pure (Nat.le_of_eq (Nat.add_comm _ _))
  | [] => Sweep.bounded_fault
  | [_] => Sweep.bounded_fault

/-- Replacing a list by the definition of a variable stays within one list more
than its operands have. -/
theorem bounded_sweepVariableDef (span : Span) : (operands : List Expr) →
      (sweepVariableDef span operands).Bounded lists (1 + listsAll operands)
  | [nameItem, initializer] => by
    rw [sweepVariableDef, listsAll, listsAll, listsAll]
    split
    · exact Sweep.bounded_fault
    · exact bounded_replace (bounded_sweep initializer) (Nat.le_add_left _ _) fun _ => rfl
  | [] => Sweep.bounded_fault
  | [_] => Sweep.bounded_fault
  | _ :: _ :: _ :: _ => Sweep.bounded_fault

/-- Replacing a list by the definition of a function stays within one list more
than its operands have. -/
theorem bounded_sweepFunctionDef (span : Span) : (operands : List Expr) →
      (sweepFunctionDef span operands).Bounded lists (1 + listsAll operands)
  | [prototypeItem, body] => by
    rw [sweepFunctionDef, listsAll, listsAll, listsAll]
    split
    · exact Sweep.bounded_fault
    · exact bounded_replace (bounded_sweep body) (Nat.le_add_left _ _) fun _ => rfl
  | [] => Sweep.bounded_fault
  | [_] => Sweep.bounded_fault
  | _ :: _ :: _ :: _ => Sweep.bounded_fault

/-- A sweep over some nodes stays within the number of their lists. -/
theorem bounded_sweepAll : (exprs : List Expr) → (sweepAll exprs).Bounded listsAll (listsAll exprs)
  | [] => Sweep.bounded_pure (Nat.le_refl _)
  | first :: others => by
    rw [sweepAll, listsAll]
    exact Sweep.bounded_bind _ (bounded_sweep first) (Nat.le_refl _) fun _ =>
      Sweep.bounded_bind _ (bounded_sweepAll others) (Nat.le_of_eq (Nat.add_comm _ _)) fun _ =>
        Sweep.bounded_pure (Nat.le_of_eq (Nat.add_comm _ _))

end

end Expr

namespace Module

/-- The number of lists in a module. -/
def lists (module : Module) : Nat :=
  Expr.listsAll module.forms

/-- A sweep over a module stays within the number of its lists. -/
theorem bounded_sweep (module : Module) : module.sweep.Bounded lists module.lists :=
  Sweep.bounded_bind 0 (Expr.bounded_sweepAll module.forms) (Nat.le_refl _) fun _ =>
    Sweep.bounded_pure (Nat.le_refl _)

/-- Sweep over a module until a sweep finds nothing to replace. Each sweep that
replaces a list leaves fewer lists to replace. -/
def desugar (module : Module) : Sweep Module :=
  match swept : module.sweep with
  | ⟨notes, replacements, .error cause⟩ => ⟨notes, replacements, .error cause⟩
  | ⟨notes, 0, .ok final⟩ => ⟨notes, 0, .ok final⟩
  | ⟨notes, more + 1, .ok next⟩ =>
    let rest := next.desugar
    ⟨notes ++ rest.notes, more + 1 + rest.replacements, rest.result⟩
termination_by module.lists
decreasing_by
  have within := module.bounded_sweep next (by rw [swept])
  rw [swept] at within
  exact Nat.lt_of_lt_of_le (Nat.lt_add_of_pos_left (Nat.succ_pos more)) within

end Module

end Lisplet
