import DevVm.Text.Field

/-!
# Paths

A path is a text whose components are separated by slashes. Empty components and the
component `.` mean nothing, except for a dot that the whole path starts with.
-/

namespace DevVm.Path

/-- A path below a directory. An absolute path stays what it is, and a directory without
a name adds nothing. -/
def join (dir path : String) : String :=
  if path.toList.head? = some '/' ∨ dir = "" then path
  else if dir.toList.getLast? = some '/' then dir ++ path
  else dir ++ "/" ++ path

/-- Whether a component leads nowhere else. -/
def isIdle (component : List Char) : Bool := component = [] || component = ['.']

/-- What a path starts with before its first component: the root, or the dot of the
working directory. -/
def splitLead : List Char → List Char × List Char
  | '/' :: body => (['/'], body)
  | ['.'] => (['.'], [])
  | '.' :: '/' :: body => (['.'], '/' :: body)
  | body => ([], body)

/-- The path without its last component. The empty path and the root have none to lose. -/
def parent? (path : String) : Option String :=
  let (lead, body) := splitLead path.toList
  match (Text.fields '/' body).reverse.dropWhile isIdle with
  | _ :: before =>
    let kept := (before.dropWhile isIdle).reverse
    some (String.ofList (lead ++ Text.joinWith ['/'] kept))
  | [] => if lead = ['.'] then some "" else none

/-- A path and the directories it lies in, from the inside out. -/
def chain (path : String) : List String := go path (path.length + 1)
where
  /-- The chain of a path, of at most so many parts. -/
  go (path : String) : Nat → List String
    | 0 => []
    | parts + 1 =>
      path :: match parent? path with
        | some dir => go dir parts
        | none => []

end DevVm.Path
