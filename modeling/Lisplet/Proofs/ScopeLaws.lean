import Lisplet.Lowering.Scopes

/-!
# Laws of scopes

What a name stands for after each operation on scopes, and the two facts that
keep functions apart: a global without an owner is a constant, and owners are
functions that were entered. `Scopes.Grows` says what lowering can do to scopes
while it stays in one function; whatever a binding keeps, lowering keeps.
-/

namespace Lisplet

namespace Value

/-- The number of a constant. -/
def constant? : Value → Option Float
  | constant value => some value
  | _ => none

end Value

namespace Scopes

/-- A parameter comes before any global of its name. -/
theorem resolve_of_local {scopes : Scopes} {name : String} {value : Value}
    (isLocal : scopes.locals.get? name = some value) : scopes.resolve name = .value value := by
  simp [resolve, isLocal]

/-- A name that is not a parameter stands for a global, which nobody else owns. -/
theorem global_of_resolve {scopes : Scopes} {name : String} {value : Value}
    (notLocal : scopes.locals.get? name = none) (resolved : scopes.resolve name = .value value) :
    scopes.globals.get? name = some value ∧
      ∀ owner, scopes.owners.get? name = some owner → scopes.current = some owner := by
  simp only [resolve, notLocal] at resolved
  cases global : scopes.globals.get? name with
  | none => simp [global] at resolved
  | some bound =>
    cases owned : scopes.owners.get? name with
    | none => simpa [global, owned] using resolved
    | some owner =>
      simp only [global, owned] at resolved
      split at resolved
      · rename_i own
        simpa [own] using resolved
      · cases resolved

/-- A binding leaves the owners of other names as they are. -/
theorem ownersAfter_get?_of_ne (scopes : Scopes) {name other : String} (value : Value)
    (different : other ≠ name) :
    (scopes.ownersAfter name value).get? other = scopes.owners.get? other := by
  cases value <;> cases current : scopes.current <;>
    simp [ownersAfter, current, Bindings.get?_erase_of_ne, Bindings.get?_bind_of_ne, different]

/-- A global that is bound in a function can be used there. -/
theorem ownersAfter_get?_self (scopes : Scopes) (name : String) (value : Value) :
    (scopes.ownersAfter name value).get? name = none ∨
      (scopes.ownersAfter name value).get? name = scopes.current := by
  cases value <;> cases current : scopes.current <;> simp [ownersAfter, current]

/-- After a binding the name stands for the value, unless it is a parameter. -/
theorem resolve_bindGlobal_self {scopes : Scopes} {name : String}
    (notLocal : scopes.locals.get? name = none) (value : Value) :
    (scopes.bindGlobal name value).resolve name = .value value := by
  simp only [resolve, bindGlobal, notLocal, Bindings.get?_bind_self]
  rcases scopes.ownersAfter_get?_self name value with unowned | own
  · simp [unowned]
  · cases owner : (scopes.ownersAfter name value).get? name with
    | none => rfl
    | some function => simp [← own, owner]

/-- A binding does not change what a parameter stands for. -/
theorem resolve_bindGlobal_of_local {scopes : Scopes} {name : String} {parameter : Value}
    (isLocal : scopes.locals.get? name = some parameter) (value : Value) :
    (scopes.bindGlobal name value).resolve name = .value parameter := by
  simp [resolve, bindGlobal, isLocal]

/-- A binding leaves what other names stand for. -/
theorem resolve_bindGlobal_of_ne (scopes : Scopes) {name other : String} (value : Value)
    (different : other ≠ name) :
    (scopes.bindGlobal name value).resolve other = scopes.resolve other := by
  simp only [resolve, bindGlobal, Bindings.get?_bind_of_ne _ _ different,
    ownersAfter_get?_of_ne scopes value different]
  rfl

/-- A name stands for the last parameter of that name, if there is one. -/
theorem get?_bindParams (index : Nat) (params : List String) (locals : Bindings Value)
    (name : String) :
    (bindParams index params locals).get? name =
      (((params.zipIdx index).reverse.lookup name).map fun position =>
        Value.param position name).or (locals.get? name) := by
  induction params generalizing index locals with
  | nil => simp [bindParams]
  | cons param rest inductionHypothesis =>
    rw [bindParams, inductionHypothesis, List.zipIdx_cons, List.reverse_cons, List.lookup_append]
    cases (rest.zipIdx (index + 1)).reverse.lookup name with
    | some position => rfl
    | none =>
      by_cases same : name = param
      · subst same
        simp
      · have passed : (name == param) = false := beq_eq_false_iff_ne.2 same
        simp [Bindings.get?_bind_of_ne _ _ same, List.lookup_cons, passed]

/-- The local names are those of the parameters. Each stands for the last
parameter of its name. -/
theorem get?_locals (params : List String) (name : String) :
    (bindParams 0 params .empty).get? name =
      (params.zipIdx.reverse.lookup name).map fun position => Value.param position name := by
  rw [get?_bindParams, Bindings.get?_empty, Option.or_none]

/-- A position that is looked up is one at which the name stands. -/
theorem getElem?_of_lookup {params : List String} {name : String} {position : Nat}
    (looked : params.zipIdx.reverse.lookup name = some position) :
    params[position]? = some name := by
  obtain ⟨front, back, shape, -⟩ := List.lookup_eq_some_iff.1 looked
  have member : (name, position) ∈ params.zipIdx := by
    rw [← List.mem_reverse, shape]
    simp
  exact List.mem_zipIdx_iff_getElem?.1 member

/-- A parameter stands at the position that its operand tells. -/
theorem param_of_get?_bindParams {params : List String} {name : String} {value : Value}
    (found : (bindParams 0 params .empty).get? name = some value) :
    ∃ position, value = .param position name ∧ params[position]? = some name := by
  rw [get?_locals] at found
  obtain ⟨position, looked, rfl⟩ := Option.map_eq_some_iff.1 found
  exact ⟨position, rfl, getElem?_of_lookup looked⟩

/-- Only parameters are bound as parameters. -/
theorem get?_bindParams_eq_none_iff {params : List String} {name : String} :
    (bindParams 0 params .empty).get? name = none ↔ name ∉ params := by
  rw [get?_locals, Option.map_eq_none_iff, List.lookup_eq_none_iff]
  constructor
  · intro passed member
    obtain ⟨index, found⟩ := List.mem_iff_getElem?.1 member
    have entry : (name, index) ∈ params.zipIdx.reverse :=
      List.mem_reverse.2 (List.mem_zipIdx_iff_getElem?.2 found)
    simpa using passed _ entry
  · rintro absent ⟨other, index⟩ entry
    have member : other ∈ params :=
      List.mem_of_getElem? (List.mem_zipIdx_iff_getElem?.1 (List.mem_reverse.1 entry))
    exact bne_iff_ne.2 fun same => absent (same ▸ member)

/-- What lowering can do to scopes inside of a function: bind globals. -/
inductive Grows (scopes : Scopes) : Scopes → Prop where
  | refl : Grows scopes scopes
  | bind {later : Scopes} (grown : Grows scopes later) (name : String) (value : Value) :
      Grows scopes (later.bindGlobal name value)

/-- Globals that are bound do not change the parameters. -/
theorem Grows.locals_eq {scopes later : Scopes} (grown : scopes.Grows later) :
    later.locals = scopes.locals := by
  induction grown with
  | refl => rfl
  | bind _ _ _ inductionHypothesis => exact inductionHypothesis

/-- Globals that are bound do not change the function they are bound in. -/
theorem Grows.current_eq {scopes later : Scopes} (grown : scopes.Grows later) :
    later.current = scopes.current := by
  induction grown with
  | refl => rfl
  | bind _ _ _ inductionHypothesis => exact inductionHypothesis

/-- Globals without an owner are constants, and all owners are among the given
functions. -/
def OwnedBy (functions : List String) (scopes : Scopes) : Prop :=
  ∀ name value, scopes.globals.get? name = some value →
    match scopes.owners.get? name with
    | none => value.isConstant
    | some owner => owner ∈ functions

/-- Nothing is bound at first. -/
theorem ownedBy_empty (functions : List String) : ({} : Scopes).OwnedBy functions := by
  intro name value found
  cases found

/-- What a function binds belongs to it. -/
theorem OwnedBy.bindGlobal {functions : List String} {scopes : Scopes}
    (owned : scopes.OwnedBy functions) {function : String}
    (current : scopes.current = some function) (member : function ∈ functions) (name : String)
    (value : Value) : (scopes.bindGlobal name value).OwnedBy functions := by
  intro other bound found
  by_cases same : other = name
  · subst same
    have boundEq : value = bound := by simpa [Scopes.bindGlobal] using found
    subst boundEq
    cases value <;> simp [Scopes.bindGlobal, ownersAfter, current, Value.isConstant, member]
  · simp only [Scopes.bindGlobal, Bindings.get?_bind_of_ne _ _ same,
      ownersAfter_get?_of_ne scopes value same] at found ⊢
    exact owned other bound found

/-- Owners stay among the given functions while one of them is lowered. -/
theorem OwnedBy.grows {functions : List String} {scopes later : Scopes}
    (owned : scopes.OwnedBy functions) {function : String}
    (current : scopes.current = some function) (member : function ∈ functions)
    (grown : scopes.Grows later) : later.OwnedBy functions := by
  induction grown with
  | refl => exact owned
  | bind grown name value inductionHypothesis =>
    exact inductionHypothesis.bindGlobal (grown.current_eq.trans current) member name value

/-- What belongs to some functions belongs to more of them. -/
theorem OwnedBy.mono {functions more : List String} {scopes : Scopes}
    (owned : scopes.OwnedBy functions) (included : functions ⊆ more) : scopes.OwnedBy more := by
  intro name value found
  have fact := owned name value found
  cases owner : scopes.owners.get? name with
  | none => simpa [owner] using fact
  | some holder =>
    rw [owner] at fact
    exact included fact

end Scopes

end Lisplet
