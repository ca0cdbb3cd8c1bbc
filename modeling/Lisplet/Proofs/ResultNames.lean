import Lisplet.Lowering.TempNames
import Lisplet.Operator

/-!
# Results have names of their own

The name of a result is a stem followed by a padded numeral. A stem that does
not end in a digit can be read off the name, and so can the number: no two
results of a module share a name, however many digits their numbers have.
-/

namespace Lisplet

namespace Text

theorem toList_replicate (count : Nat) (char : Char) :
    (replicate count char).toList = List.replicate count char := by
  simp [replicate]

/-- The zeros in front of a numeral do not change the number it denotes. -/
theorem ofDigitChars_zeroPadded (width number : Nat) :
    Nat.ofDigitChars 10 (zeroPadded width number).toList 0 = number := by
  simp [zeroPadded, toList_replicate, Nat.ofDigitChars_append, Nat.ofDigitChars_replicate_zero]

/-- A padded numeral is made of digits. -/
theorem isDigit_of_mem_zeroPadded {width number : Nat} {char : Char}
    (member : char ∈ (zeroPadded width number).toList) : char.isDigit := by
  simp only [zeroPadded, String.toList_append, toList_replicate, List.mem_append,
    Nat.toList_repr] at member
  rcases member with padding | digit
  · rw [List.eq_of_mem_replicate padding]
    rfl
  · exact Nat.isDigit_of_mem_toDigits (by decide) (by decide) digit

end Text

namespace TempNames

/-- A stem does not end in a digit, so that a numeral after it stands apart. -/
def IsStem (stem : String) : Prop :=
  ∀ last ∈ stem.toList.getLast?, last.isDigit = false

/-- The names of results do not end in a digit before they are numbered. -/
theorem isStem_operator (operator : Operator) : IsStem operator.name := by
  cases operator <;> simp [IsStem, Operator.name]

theorem isStem_call : IsStem "call" := by
  simp [IsStem]

/-- The digits at the end of a text are those that were put after a stem. -/
theorem takeWhile_isDigit_reverse {stem digits : List Char}
    (apart : ∀ last ∈ stem.getLast?, last.isDigit = false)
    (numeral : ∀ char ∈ digits, char.isDigit) :
    (stem ++ digits).reverse.takeWhile Char.isDigit = digits.reverse := by
  have allDigits : ∀ char ∈ digits.reverse, char.isDigit := by
    intro char member
    exact numeral char (List.mem_reverse.1 member)
  have stemStops : stem.reverse.takeWhile Char.isDigit = [] := by
    rw [← List.head?_reverse] at apart
    cases reversed : stem.reverse with
    | nil => rfl
    | cons last others =>
      rw [reversed] at apart
      exact List.takeWhile_cons_of_neg (by simp [apart last rfl])
  rw [List.reverse_append, List.takeWhile_append_of_pos allDigits, stemStops, List.append_nil]

/-- A name determines its stem and its number. -/
theorem nameOf_inj {stem other : String} {number otherNumber : Nat}
    (isStem : IsStem stem) (otherIsStem : IsStem other) :
    nameOf stem number = nameOf other otherNumber ↔ stem = other ∧ number = otherNumber := by
  constructor
  · intro same
    have lists : stem.toList ++ (Text.zeroPadded 2 number).toList =
        other.toList ++ (Text.zeroPadded 2 otherNumber).toList := by
      simpa [nameOf] using congrArg String.toList same
    have numerals : (Text.zeroPadded 2 number).toList =
        (Text.zeroPadded 2 otherNumber).toList := by
      have ends := congrArg (fun chars => chars.reverse.takeWhile Char.isDigit) lists
      simp only [takeWhile_isDigit_reverse isStem fun _ => Text.isDigit_of_mem_zeroPadded,
        takeWhile_isDigit_reverse otherIsStem fun _ => Text.isDigit_of_mem_zeroPadded] at ends
      exact List.reverse_inj.1 ends
    have numbers : number = otherNumber := by
      rw [← Text.ofDigitChars_zeroPadded 2 number, numerals, Text.ofDigitChars_zeroPadded]
    rw [numerals] at lists
    exact ⟨String.toList_inj.1 (List.append_cancel_right lists), numbers⟩
  · rintro ⟨rfl, rfl⟩
    rfl

/-- Names that are numbered through differ from each other, whatever their stems are. -/
theorem nodup_numbered {stems : List String} (areStems : ∀ stem ∈ stems, IsStem stem)
    (first : Nat) :
    ((stems.zipIdx first).map fun numbered => nameOf numbered.1 numbered.2).Nodup := by
  have numbers : ((stems.zipIdx first).map Prod.snd).Nodup := by
    rw [List.zipIdx_map_snd]
    exact List.nodup_range'
  rw [List.Nodup, List.pairwise_map] at numbers ⊢
  refine numbers.imp_of_mem ?_
  rintro ⟨stem, number⟩ ⟨other, otherNumber⟩ isEarlier isLater different same
  have isStem := areStems stem (List.fst_mem_of_mem_zipIdx isEarlier)
  have otherIsStem := areStems other (List.fst_mem_of_mem_zipIdx isLater)
  exact different ((nameOf_inj isStem otherIsStem).1 same).2

/-- The names that come of asking for one after another, and the state after them. -/
def nextAll (temps : TempNames) : List String → List String × TempNames
  | [] => ([], temps)
  | stem :: rest =>
    let taken := temps.next stem
    let others := taken.2.nextAll rest
    (taken.1 :: others.1, others.2)

/-- Names are numbered in the order in which they are asked for. -/
theorem names_nextAll (temps : TempNames) (stems : List String) :
    (temps.nextAll stems).1 =
      (stems.zipIdx temps.counter).map fun numbered => nameOf numbered.1 numbered.2 := by
  induction stems generalizing temps with
  | nil => rfl
  | cons stem rest inductionHypothesis =>
    rw [nextAll, List.zipIdx_cons, List.map_cons, inductionHypothesis]
    rfl

/-- Whatever stems names are asked for with, as long as none of them ends in a digit, each
request is answered by a name, and no name is given out twice. -/
theorem nextAll_gives_distinct_names (stems : List String)
    (areStems : ∀ stem ∈ stems, IsStem stem) :
    (nextAll {} stems).1.length = stems.length ∧ (nextAll {} stems).1.Nodup := by
  rw [names_nextAll]
  constructor
  · rw [List.length_map, List.length_zipIdx]
  · exact nodup_numbered areStems 0

/-- The hundredth name has two digits and the next one three. A stem may be empty, and it may
end in a character that is a digit of another script. -/
theorem nextAll_gives_distinct_names_past_two_digits :
    let stems := List.replicate 99 "sum" ++ ["mul", "call", "", "٣"]
    (∀ stem ∈ stems, IsStem stem) ∧
      (nextAll {} stems).1.length = 103 ∧ (nextAll {} stems).1.Nodup := by
  intro stems
  have areStems : ∀ stem ∈ stems, IsStem stem := by
    simp [stems, IsStem]
  exact ⟨areStems, nextAll_gives_distinct_names stems areStems⟩

-- A digit at the end of a stem can be taken for a digit of the number.
example : nameOf "sum1" 0 = nameOf "sum" 100 := by
  decide

end TempNames

end Lisplet
