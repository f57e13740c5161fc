import Mathlib.Logic.Function.Basic
import StreamDockSdk.Filesystem

namespace StreamDockSdk.Filesystem

/-! # Resolved paths

`Path.resolve` follows the links on a path by itself, one name after the other, as
`os.path.realpath` of CPython 3.11 does on POSIX systems.
-/

namespace Part

variable {Name : Type}

/-- Whether a path begins with two slashes, no more. -/
def isDoubled : List (Part Name) → Bool
  | [.empty, .empty, .empty] => true
  | .empty :: .empty :: .empty :: _ => false
  | .empty :: .empty :: _ :: _ => true
  | _ => false

/-- `os.path.normpath` -/
def normalized : List Name → List (Part Name) → List Name
  | path, [] => path
  | path, .empty :: rest => normalized path rest
  | path, .current :: rest => normalized path rest
  | path, .parent :: rest => normalized path.dropLast rest
  | path, .name other :: rest => normalized (path ++ [other]) rest

end Part

/-- A path from the top.  Two slashes at its front are not taken for one. -/
structure ResolvedPath (Name : Type) where
  doubled : Bool
  names : List Name
deriving DecidableEq, Repr

/-- A path that is given up at a loop of links. -/
structure Unresolved (Name : Type) where
  doubled : Bool
  parts : List (Part Name)

/-- `os.path.join` -/
def Unresolved.join {Name : Type} (path : Unresolved Name) (rest : List (Part Name)) :
    Unresolved Name :=
  if Part.isAbsolute rest then { doubled := Part.isDoubled rest, parts := rest }
  else { path with parts := path.parts ++ rest }

/-- Where the links lead that were met, `none` while one is followed. -/
abbrev Seen (Name : Type) := List Name → Option (Option (List Name))

/-- What `_joinrealpath` returns. -/
inductive Joined (Name : Type) where
  | settled (path : List Name) (seen : Seen Name)
  | loop (path : Unresolved Name)

/-- `os.path.abspath` -/
def Joined.absolute {Name : Type} : Joined Name → ResolvedPath Name
  | .settled path _ => { doubled := false, names := path }
  | .loop path => { doubled := path.doubled, names := Part.normalized [] path.parts }

variable {Name Content : Type} [DecidableEq Name]

namespace Tree

variable (tree : Tree Name Content)

/-- Joins the parts of a path up to a link, which is followed. -/
def joinParts (strict : Bool)
    (follow : List Name → List (Part Name) → Seen Name → Except Failure (Joined Name)) :
    List Name → List (Part Name) → Seen Name → Except Failure (Joined Name)
  | path, [], seen => .ok (.settled path seen)
  | path, .empty :: rest, seen => joinParts strict follow path rest seen
  | path, .current :: rest, seen => joinParts strict follow path rest seen
  | path, .parent :: rest, seen => joinParts strict follow path.dropLast rest seen
  | path, .name name :: rest, seen =>
      let newpath := path ++ [name]
      match tree.lstat newpath with
      | .error failure =>
          if strict || failure = .unencodable then .error failure
          else joinParts strict follow newpath rest seen
      | .ok (.link target) =>
          match seen newpath with
          | some (some path) => joinParts strict follow path rest seen
          | some none =>
              -- here `os.stat(newpath)` raises
              if strict then .error .loop
              else .ok (.loop (Unresolved.join ⟨false, newpath.map .name⟩ rest))
          | none =>
              match follow (Part.start target path) target
                  (Function.update seen newpath (some none)) with
              | .error failure => .error failure
              | .ok (.loop path) => .ok (.loop (path.join rest))
              | .ok (.settled path seen) =>
                  joinParts strict follow path rest
                    (Function.update seen newpath (some (some path)))
      | .ok _ => joinParts strict follow newpath rest seen

/-- `_joinrealpath`, where links nest at most so deep. -/
def joinRealPath (strict : Bool) : Nat → List Name → List (Part Name) → Seen Name →
    Except Failure (Joined Name)
  | 0 => tree.joinParts strict fun _ _ _ => .error .loop
  | depth + 1 => tree.joinParts strict (joinRealPath strict depth)

/-- `_joinrealpath` of a whole path.  No more links than there are nest. -/
def realPath (strict : Bool) (parts : List (Part Name)) : Except Failure (Joined Name) :=
  tree.joinRealPath strict tree.nodes.length [] parts fun _ => none

/-- `Path.resolve` -/
def resolve (strict : Bool) (parts : List (Part Name)) : Except Failure (ResolvedPath Name) :=
  match tree.realPath strict parts with
  | .error failure => .error failure
  | .ok joined =>
      let path := joined.absolute
      if strict then .ok path
      else
        -- `p.stat()` finds out whether the path is in a loop
        match tree.stat path.names with
        | .error .loop => .error .loop
        | .error .unencodable => .error .unencodable
        | _ => .ok path

/-- The parts of the path lead to no loop of links. -/
def Regular (parts : List (Part Name)) : Prop :=
  ∃ path seen, tree.realPath false parts = .ok (.settled path seen)

end Tree

end StreamDockSdk.Filesystem
