import Mathlib

/-! # `ConsoleWriter`

What is printed is formatted first. Nothing is documented about a format whose conversions ask for
arguments that are not given, or not of their kind: most often the process ends there. -/

namespace IOSDeviceManager

/-- The console of a process. -/
structure Console where
  /-- Whether the process goes on when a format is printed that its arguments do not match. -/
  goesOn : String → Bool

/-- A console that ends the process. -/
def Console.strict : Console :=
  ⟨fun _ => false⟩

namespace ConsoleWriter

/-- The format has a conversion: a `%` that no second one follows. -/
def hasConversion : List Char → Bool
  | [] => false
  | '%' :: '%' :: rest => hasConversion rest
  | '%' :: _ => true
  | _ :: rest => hasConversion rest

/-- A format is printed; `none` when the process ends there. -/
def print (console : Console) (fmt : String) (argumentsMatch : Bool) : Option Unit :=
  if argumentsMatch || console.goesOn fmt then some () else none

/-- `write:` with a format and no arguments. -/
def write (console : Console) (fmt : String) : Option Unit :=
  print console fmt (!hasConversion fmt.toList)

/-- The process goes on if there is no conversion, or by chance. -/
theorem write_eq_none_iff {console : Console} {fmt : String} :
    write console fmt = none ↔ hasConversion fmt.toList = true ∧ console.goesOn fmt = false := by
  unfold write print
  cases hasConversion fmt.toList <;> cases console.goesOn fmt <;> simp

end ConsoleWriter

end IOSDeviceManager
