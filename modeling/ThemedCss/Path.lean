/-! File paths as lists of names. -/
namespace ThemedCss

/-- A path from the root of the file system if `rooted`, else from some directory. No part is empty
or a single dot. -/
structure Path where
  rooted : Bool
  parts : List String
deriving DecidableEq, Repr, Inhabited

inductive PathFault where
  /-- The home of a named user is not known. -/
  | unknownHome
  /-- No name holds a null character. -/
  | nullCharacter
deriving DecidableEq, Repr

namespace Path

def segments (s : String) : List String :=
  let (first, rest) := s.toList.foldr
    (fun c (word, words) =>
      if c = '/' then ([], String.ofList word :: words) else (c :: word, words))
    ([], [])
  String.ofList first :: rest

/-- Empty parts and single dots mean nothing. -/
def ofString (s : String) : Path :=
  ⟨s.toList.head? == some '/', (segments s).filter fun p => p != "" && p != "."⟩

def root : Path :=
  ⟨true, []⟩

def toString (p : Path) : String :=
  let body := "/".intercalate p.parts
  if p.rooted then "/" ++ body else if p.parts.isEmpty then "." else body

instance : ToString Path := ⟨toString⟩

def name (p : Path) : String :=
  p.parts.getLast?.getD ""

def parent (p : Path) : Path :=
  { p with parts := p.parts.dropLast }

/-- The path as seen from a directory. -/
def under (p directory : Path) : Path :=
  if p.rooted then p else { directory with parts := directory.parts ++ p.parts }

def child (p : Path) (name : String) : Path :=
  { p with parts := p.parts ++ [name] }

/-- Another name in the same place; a path without a name has none. -/
def withName? (p : Path) (name : String) : Option Path :=
  if p.parts.isEmpty then none else some (p.parent.child name)

/-- Split a name before its last dot. A dot at either end does not count. -/
def splitName (name : String) : String × String :=
  let cs := name.toList
  let extension := (cs.reverse.takeWhile (· != '.')).reverse
  let before := cs.take (cs.length - extension.length)
  if extension.isEmpty || before.length ≤ 1 then (name, "")
  else (String.ofList before.dropLast, String.ofList ('.' :: extension))

def suffix (p : Path) : String :=
  (splitName p.name).2

def stem (p : Path) : String :=
  (splitName p.name).1

end Path

/-- Home directories: one's own, and those of all users by name. -/
structure Homes where
  own : Path
  users : List (String × Path)
deriving Repr

/-- The home directory that the first part of a path names, if it names one. -/
def Homes.named? (homes : Homes) (first : String) : Option (Except PathFault Path) :=
  match first.toList with
  | ['~'] => some (.ok homes.own)
  | '~' :: user =>
    match homes.users.lookup (String.ofList user) with
    | some home => some (.ok home)
    | none => some (.error .unknownHome)
  | _ => none

/-- A path that may start at a home directory. -/
def Path.expandHome (homes : Homes) (p : Path) : Except PathFault Path :=
  match p.rooted, p.parts with
  | false, first :: rest =>
    match homes.named? first with
    | some home => home.map fun home => { home with parts := home.parts ++ rest }
    | none => .ok p
  | _, _ => .ok p

end ThemedCss
