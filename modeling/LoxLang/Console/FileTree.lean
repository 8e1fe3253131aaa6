import LoxLang.Console

/-! A tree of files held in memory, with the rules for finding a path in it. A place is the list of
the names that lead to it from the root. -/
namespace LoxLang

abbrev Place := List String

/-- Files with their contents, and the directories. The root is always a directory. -/
structure FileTree where
  files : List (Place × List UInt8) := []
  directories : List Place := []
deriving DecidableEq, Inhabited, Repr

namespace FileTree

inductive Item where
  | file (content : List UInt8)
  | directory
deriving DecidableEq, Inhabited, Repr

def item? (t : FileTree) (place : Place) : Option Item :=
  match t.files.lookup place with
  | some content => some (.file content)
  | none => if place.isEmpty ∨ t.directories.contains place then some .directory else none

/-- Goes from a directory along all names but the last, and gives the place that the last one
leads to. -/
def walk (t : FileTree) (origin : Place) : List String → Except FileCause Place
  | [] => .ok origin
  | name :: rest =>
    match t.item? origin with
    | none => .error .notFound
    | some (.file _) => .error .notDirectory
    | some .directory =>
      if name = "" ∨ name = "." then t.walk origin rest
      else if name = ".." then t.walk origin.dropLast rest
      else t.walk (origin ++ [name]) rest

/-- The place that a path leads to from a directory. A path that ends with a slash leads into a
directory. -/
def locate (t : FileTree) (directory : Place) (path : String) : Except FileCause Place :=
  if path = "" then .error .notFound
  else t.walk (if path.startsWith "/" then [] else directory) (path.splitOn "/")

def read (t : FileTree) (directory : Place) (path : String) : Except FileError (List UInt8) :=
  match t.locate directory path with
  | .error cause => .error { attempt := "open", path, cause }
  | .ok place =>
    match t.item? place with
    | none => .error { attempt := "open", path, cause := .notFound }
    | some .directory => .error { attempt := "read", path, cause := .isDirectory }
    | some (.file content) => .ok content

def isPresent (t : FileTree) (directory : Place) (path : String) : Bool :=
  match t.locate directory path with
  | .error _ => false
  | .ok place => (t.item? place).isSome

/-- The tree with a file at a place, in front if it is new there. -/
def put (t : FileTree) (place : Place) (content : List UInt8) : FileTree :=
  { t with files := (place, content) :: t.files.filter (·.1 ≠ place) }

/-- Writes a file, which may be new but whose directory may not. -/
def write (t : FileTree) (directory : Place) (path : String) (content : List UInt8) :
    Except FileError FileTree :=
  match t.locate directory path with
  | .error cause => .error { attempt := "open", path, cause }
  | .ok place =>
    match t.item? place, t.item? place.dropLast with
    | some .directory, _ => .error { attempt := "open", path, cause := .isDirectory }
    | _, none => .error { attempt := "open", path, cause := .notFound }
    | _, some (.file _) => .error { attempt := "open", path, cause := .notDirectory }
    | _, some .directory => .ok (t.put place content)

def addDirectory (t : FileTree) (place : Place) : FileTree :=
  { t with directories := t.directories ++ (List.range (place.length + 1)).map place.take }

def addFile (t : FileTree) (place : Place) (content : List UInt8) : FileTree :=
  (t.addDirectory place.dropLast).put place content

/-- The files that another tree does not have with the same content. -/
def changedSince (t before : FileTree) : List (Place × List UInt8) :=
  t.files.filter fun (place, content) => before.files.lookup place != some content

end FileTree
end LoxLang
