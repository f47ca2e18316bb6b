import LineShell.Errno
import LineShell.FileTree
import LineShell.Path
import LineShell.Text.Offset

/-! Where a path leads. The walk takes one part of the path at a time and looks it up in the
directory it stands in, which has to permit that; a symbolic link is replaced by the parts of its
target, up to forty times in one walk. A directory that has been removed can still be stood in: it holds nothing, and `..`
leads to what was its parent. -/

namespace LineShell

/-- A directory or file as a process holds it: a position, and the names of the directories below
it that were removed while the process stood in the last of them. -/
structure Place where
  base : Position
  lost : List Text := []
  deriving Repr, DecidableEq

namespace Place

def root : Place := ⟨[], []⟩

/-- Still part of the tree. -/
def isLive (place : Place) : Bool := place.lost.isEmpty

def parent (place : Place) : Place :=
  if place.lost.isEmpty then { place with base := place.base.dropLast }
  else { place with lost := place.lost.dropLast }

def child (place : Place) (name : Text) : Place := { place with base := place.base ++ [name] }

/-- The path of the place from the root, as long as it is part of the tree. -/
def path? (place : Place) : Option Text :=
  if place.isLive then some (Path.ofNames place.base) else none

/-- The place after everything at `position` and below has been removed. -/
def afterRemoval (position : Position) (place : Place) : Place :=
  if position.isPrefixOf place.base ∧ position ≠ [] then
    ⟨position.dropLast, place.base.drop (position.length - 1) ++ place.lost⟩
  else place

/-- The place after the node at `source` has been moved to `target`. -/
def afterMove (source target : Position) (place : Place) : Place :=
  if source.isPrefixOf place.base then
    { place with base := target ++ place.base.drop source.length }
  else place.afterRemoval target

end Place

/-- The end of a walk: something that exists, or a name that is free in an existing directory. -/
inductive Destination
  | found (place : Place)
  | vacant (directory : Position) (name : Text)
  deriving Repr, DecidableEq

namespace Resolve

/-- What a walk is for: to reach what is there, or to open a file that is made if need be. -/
inductive Purpose
  | reach
  | create
  deriving Repr, DecidableEq

/-- The longest name a directory can hold, and the length from which a path is refused. -/
def nameLimit : Nat := 255
def pathLimit : Nat := 4096

/-- How many links one walk follows. -/
def linkLimit : Nat := 40

/-- The parts of a path for a walk; a slash at the end leaves an empty part, which asks that what
is before it be a directory. -/
def route (path : Text) : List Text :=
  let parts := Path.parts path
  if path.getLast? = some '/' && !parts.isEmpty then parts ++ [[]] else parts

/-- Where a walk along `path` begins. -/
def start (here : Place) (path : Text) : Place := if Path.isAbsolute path then .root else here

/-- The walk between two links. `follow` goes on behind a link, from the directory that holds it. -/
def walk (root : Node) (purpose : Purpose)
    (follow : Place → Text → List Text → Except Errno Destination) :
    Place → List Text → Except Errno Destination
  | place, [] => .ok (.found place)
  | place, part :: rest =>
    if !place.isLive then
      if part = [] ∨ part = ['.'] then walk root purpose follow place rest
      else if part = ['.', '.'] then walk root purpose follow place.parent rest
      else .error .noEntry
    else match root.at? place.base with
      | some (.dir entries attributes) =>
        if part = [] then walk root purpose follow place rest
        else if !attributes.permits .search then .error .accessDenied
        else if part = ['.'] then walk root purpose follow place rest
        else if part = ['.', '.'] then walk root purpose follow place.parent rest
        else if nameLimit < byteSize part then .error .nameTooLong
        else if purpose = .create ∧ rest = [[]] then .error .isDirectory
        else match (Node.dir entries attributes).child? part with
          | some (.link target) => follow place target rest
          | some _ => walk root purpose follow (place.child part) rest
          | none => if rest.isEmpty then .ok (.vacant place.base part) else .error .noEntry
      | some _ => .error .notDirectory
      | none => .error .noEntry

/-- The walk with at most `links` links to follow. -/
def walkLinks (root : Node) (purpose : Purpose) :
    (links : Nat) → Place → List Text → Except Errno Destination
  | 0 => walk root purpose fun _ _ _ => .error .linkLoop
  | links + 1 => walk root purpose fun place target rest =>
    walkLinks root purpose links (start place target) (route target ++ rest)

end Resolve

open Resolve in
/-- Where `path` leads from the directory `here`. -/
def Node.resolve (root : Node) (here : Place) (purpose : Purpose) (path : Text) :
    Except Errno Destination :=
  if path.isEmpty then .error .noEntry
  else if pathLimit ≤ byteSize path then .error .nameTooLong
  else walkLinks root purpose linkLimit (start here path) (route path)

/-- The existing file or directory to which `path` leads. -/
def Node.reach (root : Node) (here : Place) (path : Text) : Except Errno Place :=
  match root.resolve here .reach path with
  | .ok (.found place) => .ok place
  | .ok (.vacant _ _) => .error .noEntry
  | .error e => .error e

/-- The directory to which `path` leads, to stand in it. -/
def Node.reachDir (root : Node) (here : Place) (path : Text) : Except Errno Place := do
  let place ← root.reach here path
  if !place.isLive then return place
  match root.at? place.base with
  | some (.dir _ attributes) => if attributes.permits .search then return place else throw .accessDenied
  | some _ => throw .notDirectory
  | none => throw .noEntry

end LineShell
