import ThemedCss.Path
import ThemedCss.Text.Utf8

/-! Files and directories as data. -/
namespace ThemedCss
open ThemedCss.Text

inductive Entry where
  | file (content : Bytes)
  | directory
deriving DecidableEq, Repr

/-- All files and directories below the root, by their way from it. Relative paths start at `cwd`.
Symbolic links are listed with the place each of them leads to in the end. -/
structure FileTree where
  entries : List (List String × Entry)
  cwd : List String
  links : List (List String × List String)
deriving Repr

inductive FileFault where
  | missing
  | exists
  | notDirectory
  | isDirectory
  | nameTooLong
deriving DecidableEq, Repr

/-- What the system says of a fault, with its number. -/
def FileFault.message (path : Path) (f : FileFault) : String :=
  let text := match f with
    | missing => "[Errno 2] No such file or directory"
    | .exists => "[Errno 17] File exists"
    | notDirectory => "[Errno 20] Not a directory"
    | isDirectory => "[Errno 21] Is a directory"
    | nameTooLong => "[Errno 36] File name too long"
  s!"{text}: {quoted path.toString}"

namespace FileTree

def empty : FileTree :=
  ⟨[], [], []⟩

def entry? (t : FileTree) (parts : List String) : Option Entry :=
  if parts.isEmpty then some .directory else t.entries.lookup parts

def follow (t : FileTree) (place : List String) : List String :=
  (t.links.lookup place).getD place

def step (t : FileTree) (here : List String) (part : String) : List String :=
  if part = ".." then here.dropLast else t.follow (here ++ [part])

/-- The most bytes that a name may have. -/
def nameLimit : Nat :=
  255

/-- The most bytes that a path may have. -/
def pathLimit : Nat :=
  4095

/-- Follow the parts of a path from a directory. Every part before the last has to be a
directory. -/
def walk (t : FileTree) (here : List String) : List String → Except FileFault (List String)
  | [] => .ok here
  | part :: rest =>
    if t.entry? here ≠ some .directory then .error .notDirectory
    else if nameLimit < part.utf8ByteSize then .error .nameTooLong
    else if (t.entry? (t.step here part)).isSome then walk t (t.step here part) rest
    else .error .missing

/-- The directory from which a path starts. -/
def origin (t : FileTree) (p : Path) : List String :=
  if p.rooted then [] else t.cwd

/-- The place of a path whose every part is there. -/
def locate (t : FileTree) (p : Path) : Except FileFault (List String) :=
  if pathLimit < p.toString.utf8ByteSize then .error .nameTooLong else t.walk (t.origin p) p.parts

/-- What is at a path; that nothing is there is no fault. -/
def look (t : FileTree) (p : Path) : Except FileFault (Option Entry) :=
  match t.locate p with
  | .ok parts => .ok (t.entry? parts)
  | .error .missing | .error .notDirectory => .ok none
  | .error f => .error f

/-- The place of the file at a path, as a path from the root. -/
def file? (t : FileTree) (p : Path) : Except FileFault (Option Path) :=
  match t.locate p with
  | .ok parts =>
    match t.entry? parts with
    | some (.file _) => .ok (some ⟨true, parts⟩)
    | _ => .ok none
  | .error .missing | .error .notDirectory => .ok none
  | .error f => .error f

def at? (t : FileTree) (p : Path) : Option Entry :=
  (t.look p).toOption.join

def read (t : FileTree) (p : Path) : Except FileFault Bytes := do
  match t.entry? (← t.locate p) with
  | some (.file content) => return content
  | some .directory => throw .isDirectory
  | none => throw .missing

def read? (t : FileTree) (p : Path) : Option Bytes :=
  (t.read p).toOption

def isDirectory (t : FileTree) (p : Path) : Bool :=
  t.at? p = some .directory

def present (t : FileTree) (p : Path) : Bool :=
  (t.at? p).isSome

/-- The place that a path names, without links and steps back. Parts of it need not be there. -/
def resolve (t : FileTree) (p : Path) : Except PathFault Path :=
  if p.parts.any (·.toList.contains '\x00') then .error .nullCharacter
  else .ok ⟨true, p.parts.foldl t.step (t.origin p)⟩

def put (t : FileTree) (parts : List String) (e : Entry) : FileTree :=
  { t with entries := (parts, e) :: t.entries.filter (·.1 ≠ parts) }

/-- Make the directories on a way that are not there yet. -/
def makeFrom (t : FileTree) (here : List String) : List String → Except FileFault FileTree
  | [] => .ok t
  | part :: rest =>
    let next := t.step here part
    if nameLimit < part.utf8ByteSize then .error .nameTooLong
    else
      match t.entry? next with
      | some .directory => makeFrom t next rest
      | some (.file _) => .error (if rest.isEmpty then .exists else .notDirectory)
      | none =>
        -- where a link leads nowhere, no directory can be made
        if (t.links.lookup (here ++ [part])).isSome then .error .exists
        else makeFrom (t.put next .directory) next rest

/-- Make a directory and those above it; what is there already stays. -/
def makeDirectory (t : FileTree) (p : Path) : Except FileFault FileTree :=
  t.makeFrom (t.origin p) p.parts

/-- Write a file into a directory that is there. -/
def write (t : FileTree) (p : Path) (content : Bytes) : Except FileFault FileTree := do
  let directory ← t.walk (t.origin p) p.parts.dropLast
  let place := match p.parts.getLast? with
    | some name => t.step directory name
    | none => directory
  if t.entry? place = some .directory then throw .isDirectory
  if t.entry? directory ≠ some .directory then throw .notDirectory
  if nameLimit < p.name.utf8ByteSize then throw .nameTooLong
  if t.entry? place.dropLast ≠ some .directory then throw .missing
  return t.put place (.file content)

def delete (t : FileTree) (p : Path) : FileTree :=
  let place := p.parts.dropLast.foldl t.step (t.origin p) ++ p.parts.getLast?.toList
  { t with entries := t.entries.filter (·.1 ≠ place), links := t.links.filter (·.1 ≠ place) }

def size (t : FileTree) : Nat :=
  t.entries.length

end FileTree
end ThemedCss
