import Astra.Assoc
import Astra.Text.Lines
import Astra.Text.Writing

/-!
# Paths and disks

A path names a file: the parts between slashes, in order, and how the path begins. Empty parts and
parts that are a single dot say nothing and are left out.

A disk answers what a path leads to: the bytes of a file, or the reason why there are none.
`Files.disk` is the disk that holds the given files below the current directory and nothing else.
-/

namespace Astra

structure Path where
  /-- The slashes that make a path absolute. -/
  root : List Char
  parts : List (List Char)
  deriving DecidableEq, Repr

namespace Path

/-- The slashes at the front that count: exactly two are kept, any other number counts as one. -/
def rootOf (text : List Char) : List Char :=
  match (text.takeWhile (· = '/')).length with
  | 0 => []
  | 2 => ['/', '/']
  | _ => ['/']

def isSilent (part : List Char) : Bool := part = [] || part = ['.']

def ofText (text : List Char) : Path :=
  ⟨rootOf text, (text.splitOn '/').filter (!isSilent ·)⟩

/-- A path as text; one that says nothing is the current directory. -/
def text (path : Path) : List Char :=
  if path.root = [] ∧ path.parts = [] then ['.']
  else path.root ++ List.intercalate ['/'] path.parts

def parent (path : Path) : Path := { path with parts := path.parts.dropLast }

def child (path : Path) (name : List Char) : Path := { path with parts := path.parts ++ [name] }

end Path

inductive AccessFault where
  | missing
  | denied
  | notDirectory
  | isDirectory
  | nameTooLong
  | nullByte
  deriving DecidableEq, Repr

namespace AccessFault

def words : AccessFault → String
  | missing => "[Errno 2] No such file or directory"
  | denied => "[Errno 13] Permission denied"
  | notDirectory => "[Errno 20] Not a directory"
  | isDirectory => "[Errno 21] Is a directory"
  | nameTooLong => "[Errno 36] File name too long"
  | nullByte => "embedded null byte"

/-- The complaint about a path. A path with a null byte never reaches the system. -/
def message (path : Path) (fault : AccessFault) : List Char :=
  match fault with
  | nullByte => fault.words.toList
  | _ => fault.words.toList ++ ": ".toList ++ Text.quoted path.text

/-- Whether the fault just says that no file is there. -/
def meansAbsent : AccessFault → Bool
  | missing | notDirectory | isDirectory | nullByte => true
  | denied | nameTooLong => false

end AccessFault

abbrev Disk := Path → Except AccessFault (List UInt8)

/-- What stands at a place: a file with its bytes, or a directory. -/
inductive Item where
  | file (bytes : List UInt8)
  | directory
  deriving DecidableEq, Repr

/-- Files and directories by their parts below the current directory. The directories on the way
to one exist. -/
abbrev Files := List (List (List Char) × Item)

/-- A place in a tree of directories: below the current directory, or above it. -/
inductive Place where
  | below (parts : List (List Char))
  | above
  deriving DecidableEq, Repr

namespace Files

def byteCount (text : List Char) : Nat := text.foldl (fun count c => count + c.utf8Size) 0

def maxPartBytes : Nat := 255

def maxPathBytes : Nat := 4095

def item? (files : Files) : Place → Option Item
  | .above => some .directory
  | .below parts =>
    match files.lookup parts with
    | some item => some item
    | none =>
      if parts = [] ∨ files.any (fun entry => parts.isPrefixOf entry.1) then some .directory
      else none

/-- The place that one part of a path leads to from a directory. -/
def move (part : List Char) : Place → Place
  | .above => .above
  | .below parts =>
    if part = "..".toList then if parts = [] then .above else .below parts.dropLast
    else .below (parts ++ [part])

/-- Follows the parts of a path. Nothing is known above the current directory but directories
that lead further up. -/
def walk (files : Files) (place : Place) : List (List Char) → Except AccessFault Item
  | [] => (files.item? place).elim (.error .missing) .ok
  | part :: rest =>
    match files.item? place with
    | none => .error .missing
    | some (.file _) => .error .notDirectory
    | some .directory =>
      if maxPartBytes < byteCount part then .error .nameTooLong
      else if place = .above ∧ part ≠ "..".toList then .error .missing
      else walk files (move part place) rest

def disk (files : Files) : Disk := fun path =>
  if path.text.contains '\x00' then .error .nullByte
  else if maxPathBytes < byteCount path.text then .error .nameTooLong
  else
    match walk files (if path.root = [] then .below [] else .above) path.parts with
    | .ok (.file bytes) => .ok bytes
    | .ok .directory => .error .isDirectory
    | .error fault => .error fault

end Files

end Astra
