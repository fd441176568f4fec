import DevVm.Text.Utf8

/-!
# The data of keys

A key is a sequence of fields, each preceded by its length in four octets. The first field
names the algorithm, and which ones follow it depends on the algorithm: fewer of them in
the public half than in the private one, of whose fields the public half repeats some.
-/

namespace DevVm.Ssh

/-- The first field of a sequence, which has its length in front, and what follows it. -/
def takeField? : Bytes → Option (Bytes × Bytes)
  | a :: b :: c :: d :: rest =>
    let length := ((a.toNat * 256 + b.toNat) * 256 + c.toNat) * 256 + d.toNat
    if rest.length < length then none else some (rest.take length, rest.drop length)
  | _ => none

/-- So many fields off the front of a sequence, and what follows them. -/
def takeFields? : Nat → Bytes → Option (List Bytes × Bytes)
  | 0, octets => some ([], octets)
  | more + 1, octets => do
    let (field, rest) ← takeField? octets
    let (fields, rest) ← takeFields? more rest
    return (field :: fields, rest)

/-- What the field of a key has to look like. -/
inductive FieldShape where
  | text (content : String)
  | sized (length : Nat)
  | point (length : Nat)
  | number
  | any
deriving DecidableEq, Repr

/-- Whether a field looks as it has to. A number has no octet more than it needs, and a
point of a curve is not compressed. -/
def FieldShape.fits (field : Bytes) : FieldShape → Bool
  | text content => field = Text.Utf8.encode content
  | sized length => field.length = length
  | point length => field.length = length && field.head? = some 4
  | number =>
    match field with
    | [0] => false
    | 0 :: next :: _ => 0x80 ≤ next
    | _ => true
  | any => true

/-- Whether fields look as they have to, one by one. -/
def fitAll (fields : List Bytes) (shapes : List FieldShape) : Bool :=
  fields.length = shapes.length && (fields.zip shapes).all fun (field, shape) => shape.fits field

/-- An algorithm of keys: the fields behind its name in both halves of a key. Of an
algorithm whose private half stays in a device, only public halves can be read. -/
structure KeyAlgorithm where
  name : String
  shapes : List FieldShape
  secretShapes : Option (List FieldShape) := none
  /-- The fields of the private half that make up the public one. -/
  shared : List Nat := []
  /-- Whether the last field of the private half ends with the first one. -/
  endsWithFirst : Bool := false
deriving DecidableEq, Repr

/-- The keys on a curve whose points take so many octets. -/
def onCurve (curve : String) (length : Nat) : KeyAlgorithm where
  name := "ecdsa-sha2-" ++ curve
  shapes := [.text curve, .point length]
  secretShapes := some [.text curve, .point length, .any]
  shared := [0, 1]

/-- The algorithms of keys. -/
def keyAlgorithms : List KeyAlgorithm :=
  [⟨"ssh-ed25519", [.sized 32], some [.sized 32, .sized 64], [0], true⟩,
   ⟨"ssh-rsa", [.number, .number], some (List.replicate 6 .number), [1, 0], false⟩,
   ⟨"ssh-dss", List.replicate 4 .number, some (List.replicate 5 .number), [0, 1, 2, 3], false⟩,
   onCurve "nistp256" 65,
   onCurve "nistp384" 97,
   onCurve "nistp521" 133,
   { name := "sk-ssh-ed25519@openssh.com", shapes := [.sized 32, .any] },
   { name := "sk-ecdsa-sha2-nistp256@openssh.com",
     shapes := [.text "nistp256", .point 65, .any] }]

/-- The algorithm of a name. -/
def keyAlgorithm? (name : Bytes) : Option KeyAlgorithm :=
  keyAlgorithms.find? fun algorithm => Text.Utf8.encode algorithm.name = name

/-- Whether some data is the public half of a key of an algorithm. -/
def KeyAlgorithm.isPublicHalf (algorithm : KeyAlgorithm) (octets : Bytes) : Bool :=
  match takeFields? (algorithm.shapes.length + 1) octets with
  | some (name :: fields, []) =>
    name = Text.Utf8.encode algorithm.name && fitAll fields algorithm.shapes
  | _ => false

/-- Whether the fields of a private half agree with one another. -/
def KeyAlgorithm.agrees (algorithm : KeyAlgorithm) (fields : List Bytes) : Bool :=
  !algorithm.endsWithFirst || (fields.headD []).isSuffixOf (fields.getLastD [])

/-- The fields of the public half that belongs to a private half, with the algorithm's
name in front, and what follows the private half. -/
def publicHalfOf? (octets : Bytes) : Option (List Bytes × Bytes) := do
  let (name, rest) ← takeField? octets
  let algorithm ← keyAlgorithm? name
  let shapes ← algorithm.secretShapes
  let (fields, rest) ← takeFields? shapes.length rest
  if fitAll fields shapes && algorithm.agrees fields then
    return (name :: algorithm.shared.filterMap (fields[·]?), rest)
  none

end DevVm.Ssh
