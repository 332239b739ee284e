/-! # Files

What reading a path can come to, and a working directory given by the files in it. A place is a
list of names from the working directory; one outside begins with two points or with the root. -/

namespace Offside

inductive ReadFault where
  | notFound
  | isDirectory
  | notDirectory
  | nameTooLong
  /-- The path has a character in it that ends paths. -/
  | nameBroken
  | notText
  /-- Any other reason, in the system's words. -/
  | system (reason : String)
  deriving DecidableEq

def ReadFault.message : ReadFault → String
  | notFound => "No such file or directory (os error 2)"
  | isDirectory => "Is a directory (os error 21)"
  | notDirectory => "Not a directory (os error 20)"
  | nameTooLong => "File name too long (os error 36)"
  | nameBroken => "file name contained an unexpected NUL byte"
  | notText => "stream did not contain valid UTF-8"
  | system reason => reason

abbrev Files := String → Except ReadFault String

def isSame (name : String) : Bool := name == "" || name == "."

def namesOf (path : String) : List String := (path.splitOn "/").filter fun name => !isSame name

def isAbsolute (path : String) : Bool := path.toList.head? == some '/'

/-- The directory around a path, unless that is where the path begins. -/
def directoryOf? (path : String) : Option String :=
  match (namesOf path).dropLast with
  | [] => none
  | names => some ((if isAbsolute path then "/" else "") ++ String.intercalate "/" names)

def nameLimit : Nat := 255

def pathLimit : Nat := 4095

def pathFault? (path : String) : Option ReadFault :=
  if path.toList.contains '\x00' then some .nameBroken
  else if path.isEmpty then some .notFound
  else if pathLimit < path.utf8ByteSize then some .nameTooLong
  else none

abbrev Place := List String

namespace Place

def workingDirectory : Place := []

def root : Place := ["/"]

def startOf (path : String) : Place := if isAbsolute path then root else workingDirectory

/-- Whether a place is the working directory, one around it, or the root. -/
def isAround (place : Place) : Bool := place == root || place.all (· == "..")

def up (place : Place) : Place :=
  if place == root then root
  else if place.all (· == "..") then place ++ [".."]
  else place.dropLast

end Place

/-- Files with their bytes, and directories that were made beside those of the files. -/
structure Directory where
  files : List (Place × ByteArray)
  made : List Place

namespace Directory

def standard : List Place :=
  ["bin", "boot", "dev", "etc", "home", "lib", "media", "mnt", "opt", "proc", "root", "run", "sbin",
    "srv", "sys", "tmp", "usr", "var"].map (["/", ·])

def nothing : Place × ByteArray := (["/", "dev", "null"], .empty)

def ofList (files : List (String × ByteArray)) : Directory :=
  ⟨nothing :: files.map fun f => (namesOf f.1, f.2), standard⟩

def file? (d : Directory) (place : Place) : Option ByteArray :=
  (d.files.find? fun f => f.1 == place).map Prod.snd

def has (d : Directory) (place : Place) : Bool :=
  place.isAround || d.files.any (fun f => place.isPrefixOf f.1) ||
    d.made.any (place.isPrefixOf ·)

def resolve (d : Directory) (place : Place) : List String → Except ReadFault Place
  | [] => .ok place
  | name :: ahead =>
    if (d.file? place).isSome then .error .notDirectory
    else if isSame name then d.resolve place ahead
    else if name = ".." then d.resolve place.up ahead
    else if nameLimit < name.utf8ByteSize then .error .nameTooLong
    else if d.has (place ++ [name]) then d.resolve (place ++ [name]) ahead
    else .error .notFound

def read (d : Directory) : Files := fun path => do
  if let some fault := pathFault? path then throw fault
  let place ← d.resolve (.startOf path) (path.splitOn "/")
  match d.file? place with
  | none => throw .isDirectory
  | some bytes =>
    match String.fromUTF8? bytes with
    | some text => return text
    | none => throw .notText

def make (d : Directory) (start : Place) (names : List String) (name : String) :
    Except ReadFault Directory :=
  match d.resolve start (names ++ [name, "."]) with
  | .ok _ => .ok d
  | .error .notFound =>
    (d.resolve start (names ++ ["."])).map fun place => { d with made := (place ++ [name]) :: d.made }
  | .error fault => .error fault

/-- Makes a directory and before it those around it that are missing, given by its names, innermost
first. Those that were made stay when it cannot be made. -/
def makeAll (d : Directory) (start : Place) : List String → Except ReadFault Unit × Directory
  | [] => (.ok (), d)
  | name :: around =>
    match d.make start around.reverse name with
    | .ok d => (.ok (), d)
    | .error .notFound =>
      match d.makeAll start around with
      | (.error fault, d) => (.error fault, d)
      | (.ok (), d) =>
        match d.make start around.reverse name with
        | .ok d => (.ok (), d)
        | .error fault => (.error fault, d)
    | .error fault => (.error fault, d)

def makeAround (d : Directory) (path : String) : Directory :=
  match directoryOf? path with
  | none => d
  | some around =>
    if (pathFault? around).isSome then d
    else (d.makeAll (.startOf around) (namesOf around).reverse).2

end Directory

end Offside
