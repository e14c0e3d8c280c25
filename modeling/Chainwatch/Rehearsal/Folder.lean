import Chainwatch.Command.Run

/-!
# Folders

A rehearsal of the command has a working folder with some files. Of what is outside it knows only that
there are folders: the root with the usual ones in it, and those above the working folder.
-/

namespace Chainwatch

structure Folder where
  files : List (String × Command.Entry)

namespace Folder

def steps (path : String) : List String :=
  (path.splitOn "/").filter fun step => step != "" && step != "."

def file? (f : Folder) (path : List String) : Option Command.Entry :=
  (f.files.find? fun entry => steps entry.1 == path).map (·.2)

/-- Whether the steps lead to a folder in which there are files. -/
def holds (f : Folder) (path : List String) : Bool :=
  f.files.any fun entry => path.isPrefixOf (steps entry.1) && steps entry.1 != path

/-- A folder that a path leads through. -/
inductive Place where
  | within (path : List String)
  | root
  | outside
  deriving DecidableEq, Repr

def ofRoot : List String :=
  ["bin", "dev", "etc", "home", "lib", "opt", "proc", "root", "run", "sbin", "sys", "tmp", "usr", "var"]

def Place.above : Place → Place
  | within [] | outside => outside
  | within path => within path.dropLast
  | root => root

/-- What the rest of a path leads to from a folder. -/
def walk (f : Folder) : Place → List String → Command.Entry
  | _, [] => .unreadable
  | place, step :: rest =>
    if step = "" ∨ step = "." then walk f place rest
    else if step = ".." then walk f place.above rest
    else
      match place with
      | .outside => .nothing rest.isEmpty
      | .root => if ofRoot.contains step then walk f .outside rest else .nothing rest.isEmpty
      | .within path =>
        match f.file? (path ++ [step]) with
        | some entry => if rest.isEmpty then entry else .nothing false
        | none =>
          if f.holds (path ++ [step]) then walk f (.within (path ++ [step])) rest
          else .nothing rest.isEmpty

def look (f : Folder) (path : String) : Command.Entry :=
  if path = "" then .nothing false
  else walk f (if path.startsWith "/" then .root else .within []) (path.splitOn "/")

end Folder

end Chainwatch
