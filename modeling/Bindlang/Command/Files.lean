namespace Bindlang.Command

inductive FileError
  | notFound
  | notDirectory
  | isDirectory
  | nameTooLong
  | other (text : String)
  deriving DecidableEq, Repr

def FileError.message : FileError → String
  | notFound => "No such file or directory (os error 2)"
  | notDirectory => "Not a directory (os error 20)"
  | isDirectory => "Is a directory (os error 21)"
  | nameTooLong => "File name too long (os error 36)"
  | other text => text

abbrev Files := String → Except FileError String

namespace Files

inductive Directory
  | root
  | devices
  | temporary
  | above
  | working
  deriving DecidableEq, Repr

def Directory.parent : Directory → Directory
  | .root | .devices | .temporary => .root
  | .above | .working => .above

inductive Place
  | directory (d : Directory)
  | file (content : String)
  deriving DecidableEq, Repr

/-- Outside the working directory only what every system has is known. -/
def Directory.find? (files : List (String × String)) : Directory → String → Option Place
  | .working, name => (files.lookup name).map .file
  | .root, "dev" => some (.directory .devices)
  | .root, "tmp" => some (.directory .temporary)
  | .devices, "null" => some (.file "")
  | _, _ => none

def Place.follow (files : List (String × String)) (place : Place) (part : List Char) :
    Except FileError Place :=
  match place with
  | .file _ => .error .notDirectory
  | .directory d =>
    if part = [] ∨ part = ['.'] then .ok place
    else if part = ['.', '.'] then .ok (.directory d.parent)
    else if 255 < (String.ofList part).utf8ByteSize then .error .nameTooLong
    else (d.find? files (.ofList part)).elim (.error .notFound) .ok

def start (path : List Char) : Directory :=
  if path.head? = some '/' then .root else .working

def ofDirectory (files : List (String × String)) : Files := fun path =>
  if path = "" then .error .notFound
  else if 4095 < path.utf8ByteSize then .error .nameTooLong
  else do
    let parts := path.toList.splitOn '/'
    match ← parts.foldlM (Place.follow files) (.directory (start path.toList)) with
    | .file content => .ok content
    | .directory _ => .error .isDirectory

end Files

end Bindlang.Command
