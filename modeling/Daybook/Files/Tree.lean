import Daybook.Files.Path

/-!
Files.

A tree holds what stands below the current directory, as a list of paths with the bytes of files.
Reading a path walks along its names. Nothing is known of what lies outside, except that it is made
of directories.
-/

namespace Daybook

/-- Why a file cannot be read. -/
inductive FileError where
  | notFound
  | isDirectory
  | notDirectory
  | nameTooLong
  /-- Some other error of the system, with its number. -/
  | other (number : Nat) (text : String)
  deriving DecidableEq

namespace FileError

/-- The number that the system has for the error. -/
def number : FileError → Nat
  | .notFound => 2
  | .notDirectory => 20
  | .isDirectory => 21
  | .nameTooLong => 36
  | .other number _ => number

/-- The error in words. -/
def text : FileError → String
  | .notFound => "No such file or directory"
  | .notDirectory => "Not a directory"
  | .isDirectory => "Is a directory"
  | .nameTooLong => "File name too long"
  | .other _ text => text

/-- The error with its number and the path that it is about. -/
def message (e : FileError) (quotedPath : String) : String :=
  "[Errno " ++ toString e.number ++ "] " ++ e.text ++ ": " ++ quotedPath

end FileError

/-- What stands at a path. -/
inductive FileEntry where
  | directory
  | file (bytes : ByteArray)

/-- What stands below the current directory, by the names that lead there. -/
abbrev FileTree := List (List String × FileEntry)

namespace FileTree

/-- A place on the way along a path. -/
inductive Place where
  /-- Below the current directory, by the names that lead there. -/
  | inside (names : List String)
  | outside

/-- What stands at the given names. Whatever something stands below is a directory. -/
def entry? (t : FileTree) (names : List String) : Option FileEntry :=
  match t.find? fun entry => entry.1 = names with
  | some (_, e) => some e
  | none => if t.any fun entry => names.isPrefixOf entry.1 then some .directory else
    if names.isEmpty then some .directory else none

/-- What stands at a place. -/
def at? (t : FileTree) : Place → Option FileEntry
  | .inside names => t.entry? names
  | .outside => some .directory

/-- The place that a name leads to. -/
def step (place : Place) (name : String) : Option Place :=
  match place with
  | .inside names =>
    if name = ".." then some (if names.isEmpty then .outside else .inside names.dropLast)
    else some (.inside (names ++ [name]))
  | .outside => if name = ".." then some .outside else none

/-- How many bytes a name may have. -/
def nameLimit : Nat := 255

/-- How many bytes a path may have. -/
def pathLimit : Nat := 4095

/-- What some names lead to from a place. A name is measured once there is a directory to look it up
in. -/
def walk (t : FileTree) (place : Place) : List String → Except FileError FileEntry
  | [] =>
    match t.at? place with
    | some e => .ok e
    | none => .error .notFound
  | name :: names =>
    match t.at? place with
    | some .directory =>
      if name.utf8ByteSize > nameLimit then .error .nameTooLong
      else
        match step place name with
        | some next => walk t next names
        | none => .error .notFound
    | some (.file _) => .error .notDirectory
    | none => .error .notFound

/-- The bytes of the file at a path. -/
def read (t : FileTree) (p : Path) : Except FileError ByteArray :=
  let place := match p.start with
    | .here => .inside []
    | _ => .outside
  if p.text.utf8ByteSize > pathLimit then .error .nameTooLong
  else
    match walk t place p.names with
    | .ok (.file bytes) => .ok bytes
    | .ok .directory => .error .isDirectory
    | .error e => .error e

end FileTree

end Daybook
