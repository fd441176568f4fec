import DevVm.Text.Field
import DevVm.Text.Decimal

/-!
# IPv4 addresses

A dotted quad is four decimal numbers up to 255, separated by single dots, without signs
or leading zeros and with nothing around them.
-/

namespace DevVm.Network

/-- An IPv4 address. -/
structure Ipv4 where
  a : UInt8
  b : UInt8
  c : UInt8
  d : UInt8
deriving DecidableEq, Repr

/-- A number up to 255 in as few digits as it needs. -/
def readOctet? (digits : List Char) : Option UInt8 :=
  match digits with
  | [] => none
  | '0' :: _ :: _ => none
  | _ =>
    if digits.length ≤ 3 then
      ((Text.digitsValue? 0 digits).filter (· < 256)).map UInt8.ofNat
    else none

/-- The address a text spells. -/
def Ipv4.ofText? (text : List Char) : Option Ipv4 :=
  match Text.fields '.' text with
  | [a, b, c, d] => do
    return ⟨← readOctet? a, ← readOctet? b, ← readOctet? c, ← readOctet? d⟩
  | _ => none

/-- The dotted quad of an address. -/
def Ipv4.toText (ip : Ipv4) : String :=
  let octet (n : UInt8) : String := Text.decimal n.toNat
  octet ip.a ++ "." ++ octet ip.b ++ "." ++ octet ip.c ++ "." ++ octet ip.d

/-- The address ending in `.1` in the network of 256 addresses that holds this one. -/
def Ipv4.gateway (ip : Ipv4) : Ipv4 := { ip with d := 1 }

end DevVm.Network
