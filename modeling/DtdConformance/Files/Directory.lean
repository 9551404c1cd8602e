import DtdConformance.Files.Path
import DtdConformance.Text.LineEnding
import DtdConformance.Text.Utf8

/-! # Files

What stands under a path, and the text of a file. Files hold UTF-8; the line endings of their text
become line feeds. A directory is known by the paths of the files in it.
-/
namespace DtdConformance.Files
set_option autoImplicit false

inductive Entry where
  | file (bytes : List UInt8)
  | directory
  | absent
  /-- A name on the way to the entry is that of a file. -/
  | belowFile
  deriving Repr, DecidableEq

def Entry.exists : Entry → Bool
  | file _ | directory => true
  | absent | belowFile => false

inductive ReadFault where
  | absent (path : Path)
  | belowFile (path : Path)
  | directory (path : Path)
  | undecodable (fault : Text.Utf8.Fault)
  deriving Repr, DecidableEq

def ReadFault.message : ReadFault → String
  | absent path => s!"[Errno 2] No such file or directory: {Text.quoted path.shown}"
  | belowFile path => s!"[Errno 20] Not a directory: {Text.quoted path.shown}"
  | directory path => s!"[Errno 21] Is a directory: {Text.quoted path.shown}"
  | undecodable fault => fault.message

def Entry.text (path : Path) : Entry → Except ReadFault (List Char)
  | file bytes =>
    match Text.Utf8.decode bytes with
    | .ok cs => .ok (Text.normalizeLineEndings cs)
    | .error fault => .error (.undecodable fault)
  | directory => .error (.directory path)
  | absent => .error (.absent path)
  | belowFile => .error (.belowFile path)

/-- The files below a directory, each under the names that lead to it. -/
structure Directory where
  files : List (List String × List UInt8)
  deriving Repr, DecidableEq

namespace Directory

def write (directory : Directory) (names : List String) (bytes : List UInt8) : Directory :=
  ⟨(names, bytes) :: directory.files.filter fun file => file.1 ≠ names⟩

def delete (directory : Directory) (names : List String) : Directory :=
  ⟨directory.files.filter fun file => file.1 ≠ names⟩

/-- The entry that names lead to, without going up. -/
def entryAt (directory : Directory) (names : List String) : Entry :=
  match directory.files.lookup names with
  | some bytes => .file bytes
  | none =>
    if names.isEmpty || directory.files.any (fun file => names.isPrefixOf file.1) then .directory
    else if directory.files.any (fun file => file.1.isPrefixOf names) then .belowFile
    else .absent

/-- Follows names from a place in the directory, whose own names are given in reverse. Nothing is
known of what stands above the directory. -/
def follow (directory : Directory) (place : List String) : List String → Entry
  | [] => directory.entryAt place.reverse
  | name :: names =>
    match directory.entryAt place.reverse with
    | .directory =>
      if name = Path.above then
        match place with
        | [] => if names.isEmpty then .directory else .absent
        | _ :: place => directory.follow place names
      else directory.follow (name :: place) names
    | .file _ => .belowFile
    | other => other

def entry (directory : Directory) (path : Path) : Entry :=
  if path.isAbsolute then (if path.names.isEmpty then .directory else .absent)
  else directory.follow [] path.names

end Directory

end DtdConformance.Files
