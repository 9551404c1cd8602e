import DtdConformance.Text.Search

/-! # Paths

A path is a sequence of names. Empty names and the name of the directory itself are left out, so
different spellings of a path have one form. The name of the directory above is kept, since what
stands before it may not be a directory.
-/
namespace DtdConformance.Files
set_option autoImplicit false

structure Path where
  /-- The slashes at the front. Two of them are not the same as one, but more are. -/
  root : String
  names : List String
  deriving Repr, DecidableEq

namespace Path

def here : String := "."

def above : String := ".."

def rootOf (text : String) : String :=
  match (text.toList.takeWhile (· == '/')).length with
  | 0 => ""
  | 2 => "//"
  | _ => "/"

def ofText (text : String) : Path where
  root := rootOf text
  names := ((Text.splitOn '/' text.toList).map String.ofList).filter fun name =>
    name ≠ "" ∧ name ≠ here

def isAbsolute (path : Path) : Bool := !path.root.isEmpty

def shown (path : Path) : String :=
  if !path.isAbsolute && path.names.isEmpty then here
  else path.root ++ "/".intercalate path.names

/-- The end of the last name from its last full stop on. A full stop at either end of the name
begins no suffix. -/
def suffix (path : Path) : String :=
  let name := (path.names.getLast?.getD "").toList
  let extension := (name.reverse.takeWhile (fun c => c != '.')).reverse
  if extension.isEmpty || name.length ≤ extension.length + 1 then ""
  else String.ofList ('.' :: extension)

end Path

end DtdConformance.Files
