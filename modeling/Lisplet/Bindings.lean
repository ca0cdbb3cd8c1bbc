/-!
# Bindings

Finite maps from names to values in which a later binding of a name replaces an
earlier one. Every name is bound at most once. What `erase` and `bind` do is said
by the values that `get?` finds afterwards.
-/

namespace Lisplet

/-- Values bound to names, the latest binding first. -/
structure Bindings (α : Type) where
  entries : List (String × α) := []
  /-- No name is bound twice. -/
  distinct : (entries.map Prod.fst).Nodup := by simp
deriving Repr

namespace Bindings

/-- No bindings. -/
def empty {α : Type} : Bindings α :=
  {}

instance {α : Type} : Inhabited (Bindings α) := ⟨empty⟩

/-- Remove the binding of a name. -/
def erase {α : Type} (bindings : Bindings α) (name : String) : Bindings α where
  entries := bindings.entries.filter fun entry => entry.1 != name
  distinct := bindings.distinct.sublist (List.filter_sublist.map Prod.fst)

/-- The names that are left do not include the one whose binding is removed. -/
theorem not_mem_erase {α : Type} (bindings : Bindings α) (name : String) :
    name ∉ (bindings.erase name).entries.map Prod.fst := by
  simp [erase]

/-- Bind a name, in place of an earlier binding. -/
def bind {α : Type} (bindings : Bindings α) (name : String) (value : α) : Bindings α where
  entries := (name, value) :: (bindings.erase name).entries
  distinct := List.nodup_cons.2 ⟨bindings.not_mem_erase name, (bindings.erase name).distinct⟩

/-- The value bound to a name. -/
def get? {α : Type} (bindings : Bindings α) (name : String) : Option α :=
  bindings.entries.lookup name

/-- The number of bound names. -/
def size {α : Type} (bindings : Bindings α) : Nat :=
  bindings.entries.length

/-- Whether no name is bound. -/
def isEmpty {α : Type} (bindings : Bindings α) : Bool :=
  bindings.entries.isEmpty

@[simp] theorem get?_empty {α : Type} (name : String) : (empty : Bindings α).get? name = none :=
  rfl

/-- A look-up passes over the entries of another name. -/
theorem lookup_filter_ne {α : Type} {name other : String} (different : other ≠ name)
    (entries : List (String × α)) :
    (entries.filter fun entry => entry.1 != name).lookup other = entries.lookup other := by
  induction entries with
  | nil => rfl
  | cons entry rest inductionHypothesis =>
    obtain ⟨bound, value⟩ := entry
    by_cases same : bound = name
    · have passed : (other == name) = false := beq_eq_false_iff_ne.2 different
      simp [same, List.lookup_cons, inductionHypothesis, passed]
    · simp [same, List.lookup_cons, inductionHypothesis]

@[simp] theorem get?_erase_self {α : Type} (bindings : Bindings α) (name : String) :
    (bindings.erase name).get? name = none := by
  simp only [get?, List.lookup_eq_none_iff]
  intro entry member
  have kept : (entry.1 != name) = true := (List.mem_filter.1 member).2
  exact bne_iff_ne.2 (Ne.symm (bne_iff_ne.1 kept))

/-- Removing the binding of one name leaves every other name as it was. -/
theorem get?_erase_of_ne {α : Type} (bindings : Bindings α) {name other : String}
    (different : other ≠ name) : (bindings.erase name).get? other = bindings.get? other :=
  lookup_filter_ne different bindings.entries

@[simp] theorem get?_bind_self {α : Type} (bindings : Bindings α) (name : String) (value : α) :
    (bindings.bind name value).get? name = some value := by
  simp [get?, bind]

/-- Binding one name leaves every other name as it was. -/
theorem get?_bind_of_ne {α : Type} (bindings : Bindings α) {name other : String} (value : α)
    (different : other ≠ name) : (bindings.bind name value).get? other = bindings.get? other := by
  have passed : (other == name) = false := beq_eq_false_iff_ne.2 different
  simp only [get?, bind, List.lookup_cons, passed]
  exact bindings.get?_erase_of_ne different

end Bindings

end Lisplet
