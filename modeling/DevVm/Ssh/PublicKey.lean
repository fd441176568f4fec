import DevVm.Ssh.KeyData
import DevVm.Text.Base64
import DevVm.Text.Blank
import DevVm.Text.Field

/-!
# Public keys as lines

A public key is written as a line of up to three parts: the algorithm, the key's data in
Base64, and a comment. The data names the algorithm again.
-/

namespace DevVm.Ssh

/-- A public key. -/
structure PublicKey where
  algorithm : String
  octets : Bytes
  comment : String
deriving DecidableEq, Repr

/-- The text up to the first blank, and the text after it. -/
def firstWord (text : List Char) : List Char × List Char := (Text.cutAt ' ' text).getD (text, [])

/-- The key that a line holds. -/
def PublicKey.ofLine? (line : String) : Option PublicKey := do
  let (algorithm, rest) := firstWord (Text.trimEnd line.toList)
  let (data, comment) := firstWord rest
  let octets ← Text.Base64.decode? data
  let algorithm ← keyAlgorithm? (Text.Utf8.encodeChars algorithm)
  if algorithm.isPublicHalf octets then
    return { algorithm := algorithm.name, octets, comment := String.ofList comment }
  none

/-- The line of a file of authorised keys for a key. -/
def PublicKey.line (key : PublicKey) : String :=
  let comment := if key.comment = "" then "" else " " ++ key.comment
  key.algorithm ++ " " ++ String.ofList (Text.Base64.encode key.octets) ++ comment ++ "\n"

end DevVm.Ssh
