import CallContract.Descriptor.Basic
import CallContract.Json.Printer

/-!
# Enumerations of values

* `Descriptor.ofValues` is the enumeration of some values, each of which makes its own label.
-/

namespace CallContract

/-- The label that a value makes: strings are their own. -/
def Json.label : Json → String
  | .str s => s
  | v => v.compact

/-- An enumeration whose values are their own labels. -/
def Descriptor.ofValues (name : String) (values : List Json) : Descriptor :=
  .enumeration name (values.map fun v => { label := v.label, value := v })

end CallContract
