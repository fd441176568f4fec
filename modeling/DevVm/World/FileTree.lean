import DevVm.Files.Private
import DevVm.World.Table

/-!
# A tree of files

Directories and files with their permissions, and a working directory that relative paths
start from. Nothing is refused for want of permission, except that some files of the system's
own keep the permissions they have. A path is followed component by component, and every
component but the last one has to be a directory. Names and paths have a length that they
may not exceed.
-/

namespace DevVm.World

/-- What a path can lead to. -/
inductive Node where
  | directory (mode : Nat)
  | file (mode : Nat) (content : Bytes)
deriving DecidableEq, Repr

/-- A place in the tree: the names on the way from the root. -/
abbrev Place := List String

/-- The files of a host. The root is always there. What lies at a fixed place can be read and
written as its permissions say, but these cannot be changed: so it is with the files in which
a system shows what it knows of its processes. -/
structure FileTree where
  nodes : List (Place × Node) := []
  here : Place := []
  fixed : List Place := []
deriving DecidableEq, Repr

namespace FileTree

/-- The permissions of a new directory. -/
def directoryMode : Nat := 0o755

/-- The permissions of a file that only its owner may use. -/
def privateMode : Nat := 0o600

/-- How many octets a name may have. -/
def nameLimit : Nat := 255

/-- How many octets a path has to stay below. -/
def pathLimit : Nat := 4096

/-- What is at a place. -/
def node? (t : FileTree) (place : Place) : Option Node :=
  if place = [] then some (.directory directoryMode) else Table.get? place t.nodes

/-- What is at a place, if its name is not too long for any place. -/
def lookUp (t : FileTree) (place : Place) : Except Refusal (Option Node) :=
  if place.getLast?.any (nameLimit < ·.utf8ByteSize) then .error .nameTooLong
  else .ok (t.node? place)

/-- The tree with something else at a place. -/
def put (place : Place) (node : Node) (t : FileTree) : FileTree :=
  { t with nodes := Table.put place node t.nodes }

/-- The place a component leads to from a directory. -/
def enter (t : FileTree) (dir : Place) (name : String) : Except Refusal Place :=
  if name = "." then .ok dir
  else if name = ".." then .ok dir.dropLast
  else
    match t.lookUp (dir ++ [name]) with
    | .error refusal => .error refusal
    | .ok none => .error .notFound
    | .ok (some (.file ..)) => .error .notADirectory
    | .ok (some (.directory _)) => .ok (dir ++ [name])

/-- What the last component of a path is about: a directory that is surely there, or the
entry of a name in a directory, which a slash behind it asks to be a directory too. -/
inductive Target where
  | inside (place : Place)
  | entry (place : Place) (slash : Bool)
deriving DecidableEq, Repr

/-- The place a path is about. -/
def Target.place : Target → Place
  | inside place | entry place _ => place

/-- Whether a path asks for a directory. -/
def Target.slash : Target → Bool
  | inside _ => true
  | entry _ slash => slash

/-- The components of a path that name something. -/
def components (path : List Char) : List String :=
  ((Text.fields '/' path).filter (· ≠ [])).map String.ofList

/-- Follows a path up to its last component. -/
def locate (t : FileTree) (path : String) : Except Refusal Target := do
  let text := path.toList
  if text.contains '\x00' then throw .nulInPath
  if pathLimit ≤ path.utf8ByteSize then throw .nameTooLong
  if text = [] then throw .notFound
  let start := if text.head? = some '/' then [] else t.here
  let names := components text
  match names.getLast? with
  | none => return .inside start
  | some last =>
    let dir ← names.dropLast.foldlM t.enter start
    if last = "." ∨ last = ".." then return .inside (← t.enter dir last)
    return .entry (dir ++ [last]) (text.getLast? = some '/')

/-- What a path leads to, with its place. -/
def find (t : FileTree) (path : String) : Except Refusal (Place × Node) := do
  let target ← t.locate path
  match ← t.lookUp target.place with
  | none => throw .notFound
  | some (.file mode content) =>
    if target.slash then throw .notADirectory
    return (target.place, .file mode content)
  | some (.directory mode) => return (target.place, .directory mode)

/-- Whether a path leads to a directory. -/
def isDirectory (t : FileTree) (path : String) : Bool :=
  match t.find path with
  | .ok (_, .directory _) => true
  | _ => false

/-- The permissions of what a path leads to. -/
def mode? (t : FileTree) (path : String) : Option Nat :=
  match t.find path with
  | .ok (_, .directory mode) | .ok (_, .file mode _) => some mode
  | .error _ => none

/-- The content of a file. -/
def read (t : FileTree) (path : String) : Except Refusal Bytes := do
  match ← t.find path with
  | (_, .file _ content) => return content
  | (_, .directory _) => throw .isADirectory

/-- Creates one directory. -/
def createDir (path : String) (t : FileTree) : Except Refusal FileTree := do
  match ← t.locate path with
  | .inside _ => throw .alreadyExists
  | .entry place _ =>
    if (← t.lookUp place).isSome then throw .alreadyExists
    return t.put place (.directory directoryMode)

/-- Creates a directory that may also be there already. -/
def ensureDir (path : String) (t : FileTree) : Except Refusal Unit × FileTree :=
  match t.createDir path with
  | .ok t => (.ok (), t)
  | .error refusal => (if t.isDirectory path then .ok () else .error refusal, t)

/-- Creates the first directory of a chain, and, if one above it is missing, all of the
chain. Directories above stay even if the first one cannot be created. -/
def createChain : List String → FileTree → Except Refusal Unit × FileTree
  | [], t => (.error .notFound, t)
  | path :: above, t =>
    if path = "" then (.ok (), t)
    else
      match t.createDir path with
      -- Only a missing directory above is a reason to look further up.
      | .error .notFound =>
        match createChain above t with
        | (.ok (), t) => t.ensureDir path
        | failed => failed
      | _ => t.ensureDir path

/-- Opens a file for writing and empties it. A new file is its owner's alone, and one that
is there keeps its permissions. -/
def openEmpty (path : String) (t : FileTree) : Except Refusal FileTree := do
  match ← t.locate path with
  | .inside _ | .entry _ true => throw .isADirectory
  | .entry place false =>
    match ← t.lookUp place with
    | some (.directory _) => throw .isADirectory
    | some (.file mode _) => return t.put place (.file mode [])
    | none => return t.put place (.file privateMode [])

/-- Writes to the end of a file. -/
def append (path : String) (octets : Bytes) (t : FileTree) : Except Refusal FileTree := do
  match ← t.find path with
  | (place, .file mode content) => return t.put place (.file mode (content ++ octets))
  | (_, .directory _) => throw .isADirectory

/-- Gives what a path leads to other permissions. -/
def setMode (path : String) (mode : Nat) (t : FileTree) : Except Refusal FileTree := do
  let (place, node) ← t.find path
  if place ∈ t.fixed then throw .notPermitted
  match node with
  | .file _ content => return t.put place (.file mode content)
  | .directory _ => return t.put place (.directory mode)

/-- Writes a file as any program may, with the directories above it. -/
def store (path : String) (mode : Nat) (content : Bytes) (t : FileTree) :
    Except Refusal FileTree := do
  let t := match Path.parent? path with
    | some dir => (createChain (Path.chain dir) t).2
    | none => t
  setMode path mode (← append path content (← openEmpty path t))

/-- What a change comes to: the changed tree, or the tree as it was and the refusal. -/
def settle (change : FileTree → Except Refusal FileTree) (t : FileTree) :
    Except Refusal Unit × FileTree :=
  match change t with
  | .ok t => (.ok (), t)
  | .error refusal => (.error refusal, t)

/-- What a call is answered with. -/
def answer : (c : FileCall) → FileTree → Except Refusal c.Value × FileTree
  | .read path, t => (t.read path, t)
  | .createDirs path, t => createChain (Path.chain path) t
  | .openEmpty path, t => settle (openEmpty path) t
  | .write path octets, t => settle (append path octets) t
  | .flush _, t => (.ok (), t)
  | .restrict path, t => settle (setMode path privateMode) t

/-- A tree as the host of tasks that work with files. -/
def host : Host fileSignature FileTree := ⟨answer⟩

end FileTree

end DevVm.World
