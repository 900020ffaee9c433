import BucketStats.Entries
import BucketStats.Text.Lines
import BucketStats.Value.Printer
import BucketStats.Workbook.Standard
/-!
# Files

What the command asks of the files around it: what stands at a path that it reads, why a path that it
writes cannot be written, and which library stores workbooks there.  A path to read is brought into
its shortest form first: doubled slashes and the parts `.` say nothing, while `..` stays.

A directory with some files in it answers for the paths, and its workbooks are those of the standard
library.  A path is followed part by part until it meets an obstacle.
-/

namespace BucketStats.Command

/-- A path as its parts, after the slashes that make it absolute. -/
structure Path where
  root : String
  parts : List String
deriving DecidableEq

namespace Path

def pieces (s : String) : List String :=
  ((Text.splitOn '/' s.toList).filter fun part ↦ !part.isEmpty).map String.ofList

def rootOf (s : String) : String :=
  match s.toList with
  | '/' :: '/' :: '/' :: _ => "/"
  | '/' :: '/' :: _ => "//"
  | '/' :: _ => "/"
  | _ => ""

def ofText (s : String) : Path :=
  ⟨rootOf s, (pieces s).filter (· != ".")⟩

def text (p : Path) : String :=
  if p.root = "" ∧ p.parts = [] then "." else p.root ++ "/".intercalate p.parts

/-- The last part, if there is one. -/
def name (p : Path) : String :=
  p.parts.getLast?.getD ""

end Path

/-- What stands at a path that is to be read. -/
inductive Found where
  | file (bytes : List UInt8)
  | directory
  | nothing
  | nameTooLong

structure Files where
  lookUp : Path → Found
  refusal : String → Option Fault
  library : Workbook.Library

/-- The files of a directory, by their paths in it. -/
abbrev Directory := Entries (List String) (List UInt8)

/-- Why a path leads nowhere. -/
inductive Obstacle where
  | missing
  | notDirectory
  | nameTooLong
deriving DecidableEq

/-- Where a path has led so far: to a directory within the one whose files are known, to one above
it, to one of the system's, to a file, or nowhere.  A system directory is the root or stands in
it. -/
inductive Place where
  | inside (parts : List String)
  | above
  | system (name : Option String)
  | file (bytes : List UInt8)
  | blocked (obstacle : Obstacle)
deriving DecidableEq

def Place.isDirectory : Place → Bool
  | .inside _ => true
  | .above => true
  | .system _ => true
  | _ => false

/-- The directory that holds a directory.  The root holds itself. -/
def Place.parent : Place → Place
  | .inside parts => if parts.isEmpty then .above else .inside parts.dropLast
  | .system _ => .system none
  | place => place

/-- The directories that stand in the root of every system. -/
def systemDirectories : List String :=
  ["bin", "boot", "dev", "etc", "home", "lib", "media", "mnt", "opt", "proc", "root", "run", "sbin",
    "srv", "sys", "tmp", "usr", "var"]

/-- Names are at most this many bytes long. -/
def nameLimit : Nat :=
  255

/-- Paths are shorter than this many bytes. -/
def pathLimit : Nat :=
  4096

/-- Follows a name from a system directory.  Besides directories, only the device that is always
empty is known. -/
def enterSystem (directory : Option String) (name : String) : Place :=
  match directory with
  | none => if systemDirectories.contains name then .system (some name) else .blocked .missing
  | some directory =>
    if directory = "dev" ∧ name = "null" then .file [] else .blocked .missing

namespace Directory

/-- The directory after files were put into it, one after the other. -/
def ofList (files : List (String × List UInt8)) : Directory :=
  Entries.ofList (files.map fun e ↦ ((Path.ofText e.1).parts, e.2))

/-- What has a name in the directory or below it. -/
def enter (d : Directory) (parts : List String) : Place :=
  match d.find? parts with
  | some bytes => .file bytes
  | none => if d.any fun e ↦ parts.isPrefixOf e.1 then .inside parts else .blocked .missing

/-- Follows a name from a directory. -/
def enterName (d : Directory) (place : Place) (name : String) : Place :=
  if nameLimit < name.utf8ByteSize then .blocked .nameTooLong
  else
    match place with
    | .inside parts => d.enter (parts ++ [name])
    | .system directory => enterSystem directory name
    | _ => .blocked .missing

/-- Follows one part of a path.  A part is looked at only where it is reached. -/
def step (d : Directory) (place : Place) (part : String) : Place :=
  match place with
  | .blocked obstacle => .blocked obstacle
  | .file _ => .blocked .notDirectory
  | _ =>
    if part = "." then place
    else if part = ".." then place.parent
    else d.enterName place part

def start (root : String) : Place :=
  if root = "" then .inside [] else .system none

def walk (d : Directory) (p : Path) : Place :=
  p.parts.foldl d.step (start p.root)

def holdsZero (s : String) : Bool :=
  s.toList.contains (Char.ofNat 0)

def lookUp (d : Directory) (p : Path) : Found :=
  if p.parts.any holdsZero then .nothing
  else if pathLimit ≤ p.text.utf8ByteSize then .nameTooLong
  else
    match d.walk p with
    | .file bytes => .file bytes
    | .blocked .nameTooLong => .nameTooLong
    | .blocked _ => .nothing
    | _ => .directory

def obstacleFault (shown : String) : Obstacle → Fault
  | .missing => .fileNotFound shown
  | .notDirectory => .notDirectory shown
  | .nameTooLong => .nameTooLong shown

/-- Why no file can be made of a name, or at a path that ends in a slash, in a place. -/
def lastRefusal (d : Directory) (shown : String) (slashed : Bool) (place : Place) (name : String) :
    Option Fault :=
  match place with
  | .blocked obstacle => some (obstacleFault shown obstacle)
  | .file _ => some (.notDirectory shown)
  | _ =>
    let target := d.step place name
    if slashed || target.isDirectory then some (.isDirectory shown)
    else if target = .blocked .nameTooLong then some (.nameTooLong shown)
    else none

/-- Why no file can be made at a path, if so. -/
def refusal (d : Directory) (s : String) : Option Fault :=
  let shown := quotedText s
  let p : Path := ⟨Path.rootOf s, Path.pieces s⟩
  if holdsZero s then some .zeroCharacterInPath
  else if pathLimit ≤ s.utf8ByteSize then some (.nameTooLong shown)
  else
    match p.parts.getLast? with
    | none => if p.root = "" then some (.fileNotFound shown) else some (.isDirectory shown)
    | some name =>
      let place := d.walk ⟨p.root, p.parts.dropLast⟩
      d.lastRefusal shown (s.toList.getLast? == some '/') place name

def toFiles (d : Directory) : Files :=
  ⟨d.lookUp, d.refusal, .standard⟩

/-- A file is found where a path leads to it that is no longer than paths may be. -/
theorem lookUp_of_walk {d : Directory} {p : Path} {bytes : List UInt8}
    (hzero : p.parts.any holdsZero = false) (hshort : p.text.utf8ByteSize < pathLimit)
    (hwalk : d.walk p = .file bytes) : d.lookUp p = .file bytes := by
  unfold lookUp
  rw [hzero, hwalk, if_neg Bool.false_ne_true, if_neg (Nat.not_le.2 hshort)]

end Directory

end BucketStats.Command
