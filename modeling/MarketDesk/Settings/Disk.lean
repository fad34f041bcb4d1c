/-!
Folders and files as far as the desk uses them. A disk lists what there is by its place, counted
from a root that is always there. The text of a path is followed folder by folder, either from the
root or from the folder in which the desk works.
-/

namespace MarketDesk

/-- What there is at a place. -/
inductive Entry where
  | folder
  | text (content : String)
  /-- A file whose bytes are no text. -/
  | binary
  /-- A file that is always empty and swallows what is written into it. -/
  | sink
deriving DecidableEq

/-- A place on a disk: the names of the folders on the way to it, and its own name. -/
abbrev Place := List String

namespace Place

/-- The most bytes that a name can have. -/
def longestName : Nat := 255

/-- Where a piece of a path leads from a folder: nowhere, to the folder above, or to what has that
name in the folder. None if nothing can have the name. The root is above itself. -/
def step? (here : Place) (piece : String) : Option Place :=
  if piece == "" || piece == "." then some here
  else if piece == ".." then some here.dropLast
  else if piece.utf8ByteSize ≤ longestName then some (here ++ [piece])
  else none

end Place

namespace Path

/-- What stands between the slashes of a path. -/
def pieces (path : String) : List String := (path.toList.splitOn '/').map String.ofList

/-- The pieces of a path that lead anywhere. -/
def names (path : String) : List String :=
  (pieces path).filter fun s => !(s == "" || s == ".")

/-- The path starts at the root. -/
def isFromRoot (path : String) : Bool := path.startsWith "/"

/-- The last piece is a dot, which stands for the folder before it. -/
def endsInDot (path : String) : Bool := (pieces path).getLast? == some "."

/-- The text holds the one character besides the slash that no name can have. -/
def hasNul (s : String) : Bool := s.toList.contains '\x00'

end Path

/-- The folders and files of a disk. -/
structure Disk where
  /-- The folder in which the desk works. -/
  home : Place := []
  entries : List (Place × Entry) := []
deriving DecidableEq

namespace Disk

def entry? (d : Disk) (p : Place) : Option Entry :=
  if p.isEmpty then some .folder else d.entries.lookup p

def isFolder (d : Disk) (p : Place) : Bool := d.entry? p == some .folder

/-- Puts an entry at its place; what was there is replaced. -/
def put (d : Disk) (p : Place) (e : Entry) : Disk :=
  { d with entries := d.entries.filter (fun x => x.1 != p) ++ [(p, e)] }

/-! ## Paths -/

/-- Where a path starts. -/
def start (d : Disk) (path : String) : Place :=
  if Path.isFromRoot path then [] else d.home

/-- Follows pieces of a path. Each of them needs a folder to start from; what is at the last one may
be missing. -/
def walk? (d : Disk) (here : Place) : List String → Option Place
  | [] => some here
  | piece :: rest =>
    if d.isFolder here then (here.step? piece).bind fun p => walk? d p rest else none

/-- The place that a path leads to; none if it leads nowhere. -/
def place? (d : Disk) (path : String) : Option Place :=
  if path.isEmpty || Path.hasNul path then none
  else d.walk? (d.start path) (Path.pieces path)

/-- What a path leads to. -/
def find? (d : Disk) (path : String) : Option Entry :=
  (d.place? path).bind d.entry?

/-! ## Files -/

/-- The text of a file. -/
def readText? (d : Disk) (path : String) : Option String :=
  match d.find? path with
  | some (.text s) => some s
  | some .sink => some ""
  | _ => none

/-- Writes a file into a folder that is there. None if that cannot be done. -/
def write? (d : Disk) (path : String) (e : Entry) : Option Disk := do
  let p ← d.place? path
  match d.entry? p with
  | some .folder => none
  | some .sink => some d
  | _ => some (d.put p e)

/-- Writes behind the text of a file, which is made if it is not there. None if that cannot be
done. -/
def append? (d : Disk) (path : String) (s : String) : Option Disk :=
  match d.find? path with
  | some .binary => some d
  | _ => d.write? path (.text ((d.readText? path).getD "" ++ s))

/-- Removes a file. None if there is none. -/
def remove? (d : Disk) (path : String) : Option Disk := do
  let p ← d.place? path
  match d.entry? p with
  | some .folder | none => none
  | some _ => some { d with entries := d.entries.filter fun x => x.1 != p }

/-! ## Folders -/

/-- What an attempt to change a disk leaves behind. -/
structure Attempt where
  disk : Disk
  done : Bool
deriving DecidableEq

/-- Makes the folders of a path that are not there yet, one after another from the folder `here`.
Those that have been made before a failure stay. -/
def makeFolders (d : Disk) (here : Place) : List String → Attempt
  | [] => ⟨d, true⟩
  | name :: rest =>
    match here.step? name with
    | none => ⟨d, false⟩
    | some p =>
      match d.entry? p with
      | some .folder => makeFolders d p rest
      | some _ => ⟨d, false⟩
      | none => makeFolders (d.put p .folder) p rest

/-- Makes the folders with the given names on the way of a path. -/
def makeWay (d : Disk) (path : String) (names : List String) : Attempt :=
  if names.any Path.hasNul then ⟨d, false⟩ else d.makeFolders (d.start path) names

/-- A disk with the folder in which the desk works and a sink. -/
def ofHome (home : Place) : Disk :=
  let bare : Disk := { home, entries := [(["dev"], .folder), (["dev", "null"], .sink)] }
  (bare.makeFolders [] home).disk

/-- Makes a folder and those on the way to it. Behind a dot at the end of the path there has to be a
folder already. -/
def makeFolder (d : Disk) (path : String) : Attempt :=
  let names := Path.names path
  if Path.endsInDot path then
    let way := d.makeWay path names.dropLast
    ⟨way.disk, way.done && way.disk.find? path == some .folder⟩
  else d.makeWay path names

/-- Writes a file and makes the folders that it needs. -/
def writeDeep (d : Disk) (path : String) (e : Entry) : Attempt :=
  let way := d.makeWay path (Path.names path).dropLast
  if way.done then
    match way.disk.write? path e with
    | some d => ⟨d, true⟩
    | none => ⟨way.disk, false⟩
  else way

end Disk

end MarketDesk
