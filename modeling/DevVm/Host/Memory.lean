import DevVm.Text.Blank
import DevVm.Text.Decimal
import DevVm.Text.Field
import DevVm.Text.Lines

/-!
# How much memory the host has free

The system lists the sizes of its memory as lines of a name, a colon, a number and the unit
`kB`. What programs can still get is the size named `MemAvailable`.
-/

namespace DevVm

/-- The name of the size that counts. -/
def availableKey : List Char := "MemAvailable".toList

/-- The number of kB in a line about available memory. -/
def availableOfLine? (line : List Char) : Option Nat := do
  let (key, value) ← Text.cutAt ':' line
  if Text.trim key = availableKey then
    let digits := (Text.trim value).takeWhile fun c => (Text.digitValue? c).isSome
    Text.readNat? UInt64.size digits
  else none

/-- The free memory in MB, from the system's list of sizes. Where it is not listed, there is
none. -/
def availableMegabytes (listing : String) : UInt64 :=
  match (Text.lines listing.toList).findSome? availableOfLine? with
  | some size => UInt64.ofNat (size / 1024)
  | none => 0

end DevVm
