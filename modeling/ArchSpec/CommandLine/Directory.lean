import ArchSpec.Data.Named

/-!
# Directories in memory

A directory holds files under relative paths and answers as a file system does.
Every name of a path but the last has to lead to a directory.  The name `.`
stays, and `..` leads up, also out of the working directory, where nothing is
known but the directories on the way to the root and the null device, which is
empty and stays so.  Names and paths have limited lengths in bytes.  A path that
ends in a slash denotes a directory, which can be neither read nor written.
-/

namespace ArchSpec.CommandLine

def missing : String := "No such file or directory (os error 2)"

def notDirectory : String := "Not a directory (os error 20)"

def isDirectory : String := "Is a directory (os error 21)"

def nameTooLong : String := "File name too long (os error 36)"

/-- The most bytes that a name can have. -/
def nameLimit : Nat := 255

/-- The number of bytes that a path has to stay below. -/
def pathLimit : Nat := 4096

/-- The names that lead to a place from the working directory.  Names `..` come
first, one for every level that the way leads up; instead of them `/` stands for
the root. -/
abbrev Place := List String

namespace Place

def here : Place := []

def root : Place := ["/"]

/-- The device that takes every text and keeps none. -/
def nullDevice : Place := ["/", "dev", "null"]

/-- Whether a place is the working directory or above it. -/
def isAbove (place : Place) : Bool := place.all (· = "..")

/-- The place one level up; nothing is above the root. -/
def up (place : Place) : Place :=
  if place = root then root
  else if place.isAbove then place ++ [".."]
  else place.dropLast

/-- The place that a name leads to from a directory. -/
def step (place : Place) (name : String) : Place :=
  if name = "." then place
  else if name = ".." then place.up
  else place ++ [name]

/-- The place that a name leads to, if the name is short enough. -/
def step? (place : Place) (name : String) : Except String Place :=
  if name.utf8ByteSize ≤ nameLimit then .ok (place.step name) else .error nameTooLong

end Place

def pathNames (path : String) : List String :=
  (path.splitOn "/").filter (· ≠ "")

def pathStart (path : String) : Place :=
  if path.startsWith "/" then Place.root else Place.here

/-- Files under their places. -/
structure Directory where
  files : List (Place × String)

namespace Directory

def ofFiles (files : Named String) : Directory :=
  ⟨files.map (fun (path, text) => ((pathNames path).foldl Place.step (pathStart path), text)) ++
    [(Place.nullDevice, "")]⟩

/-- The text of the file at a place. -/
def file? (directory : Directory) (place : Place) : Option String :=
  (directory.files.find? fun file => file.1 = place).map Prod.snd

/-- Whether a place is a directory. -/
def holds (directory : Directory) (place : Place) : Bool :=
  place = Place.root || place.isAbove ||
    directory.files.any fun file => place.isPrefixOf file.1 && place ≠ file.1

/-- The directory that a name leads to from another one. -/
def enter (directory : Directory) (place : Place) (name : String) : Except String Place := do
  let place ← place.step? name
  if directory.holds place then .ok place
  else if (directory.file? place).isSome then .error notDirectory
  else .error missing

/-- The directory that a path leads through last, and the last name of the path. -/
def follow (directory : Directory) (path : String) : Except String (Place × String) :=
  let names := pathNames path
  if path.isEmpty then .error missing
  else if pathLimit ≤ path.utf8ByteSize then .error nameTooLong
  else
    (names.dropLast.foldlM directory.enter (pathStart path)).map fun place =>
      (place, names.getLastD ".")

/-- The text of a file. -/
def read (directory : Directory) (path : String) : Except String String := do
  let (place, name) ← directory.follow path
  let place ← place.step? name
  match directory.file? place with
  | some text => if path.endsWith "/" then .error notDirectory else .ok text
  | none => if directory.holds place then .error isDirectory else .error missing

/-- The directory with a text at a place; the null device keeps none. -/
def put (directory : Directory) (place : Place) (text : String) : Directory :=
  if place = Place.nullDevice then directory
  else ⟨(place, text) :: directory.files.filter fun file => file.1 ≠ place⟩

def write (directory : Directory) (path text : String) : Except String Directory := do
  let (place, name) ← directory.follow path
  if path.endsWith "/" then .error isDirectory
  else do
    let place ← place.step? name
    if directory.holds place then .error isDirectory else .ok (directory.put place text)

end Directory

end ArchSpec.CommandLine
