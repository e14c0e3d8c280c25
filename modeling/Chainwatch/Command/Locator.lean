import Chainwatch.Text.Percent

/-!
# Locators

A database is named by the path of its file, or by a locator: the scheme `sqlite:`, a path in which
bytes may be escaped, and behind a question mark parameters that say how the database is opened. A
path is read as a locator without its scheme. Some names stand for a database in memory, in which
nothing is found and of which nothing is left.
-/

namespace Chainwatch.Command

/-- What the parameters of a locator ask for. -/
structure Manner where
  inMemory : Bool := false
  readOnly : Bool := false
  frozen : Bool := false
  layer : Option String := none
  deriving DecidableEq, Repr

def Manner.set? (m : Manner) : String → String → Option Manner
  | "mode", "ro" => some { m with readOnly := true }
  | "mode", "rw" | "mode", "rwc" => some m
  | "mode", "memory" => some { m with inMemory := true }
  | "cache", "private" | "cache", "shared" => some m
  | "immutable", "true" | "immutable", "1" => some { m with frozen := true }
  | "immutable", "false" | "immutable", "0" => some { m with frozen := false }
  | "vfs", layer => some { m with layer := some layer }
  | _, _ => none

/-- Where a database is found, and how it is opened. -/
structure Locator where
  /-- The path of the file; without one, the database is in memory. -/
  path : Option String
  readOnly : Bool
  frozen : Bool
  deriving DecidableEq, Repr

namespace Locator

def splitAtFirst (mark : Char) (cs : List Char) : List Char × List Char :=
  (cs.takeWhile (· != mark), (cs.dropWhile (· != mark)).drop 1)

/-- The text without any number of one mark before it. -/
def dropMarks (mark : String) (cs : List Char) : List Char :=
  cs.length.repeat (fun cs => if mark.toList.isPrefixOf cs then cs.drop mark.length else cs) cs

def scheme : String := "sqlite:"

/-- The name without its scheme, which may be repeated and followed by two slashes. -/
def withoutScheme (name : String) : List Char :=
  let full := if name.startsWith scheme then name else scheme ++ name
  dropMarks scheme (dropMarks (scheme ++ "//") full.toList)

/-- The parameters between ampersands, each with the value behind its equals sign. A plus sign stands
for a blank. -/
def parameters? (query : List Char) : Option (List (String × String)) :=
  let read (cs : List Char) : Option String :=
    Text.Percent.decode? (String.ofList (cs.map fun c => if c = '+' then ' ' else c))
  (((String.ofList query).splitOn "&").filter (· != "")).mapM fun part => do
    let (key, value) := splitAtFirst '=' part.toList
    return (← read key, ← read value)

/-- The path with the steps that lead nowhere left out, and those that lead back taken. -/
def plainPath (path : String) : String :=
  let isAbsolute := path.startsWith "/"
  let steps := (path.splitOn "/").foldl
    (fun taken step =>
      if step = "" ∨ step = "." then taken
      else if step = ".." ∧ taken.getLast?.any (· != "..") then taken.dropLast
      else if step = ".." ∧ isAbsolute then taken
      else taken ++ [step]) []
  let plain := (if isAbsolute then "/" else "") ++ String.intercalate "/" steps
  if plain = "" then "." else plain

def parent (path : String) : String :=
  plainPath (path ++ "/..")

def ofPath? (manner : Manner) (path : String) : Option Locator := do
  if path.toList.contains '\x00' then none
  let isMemory := manner.inMemory || path = "" || path = ":memory:"
  match manner.layer.getD "unix" with
  | "unix" | "unix-excl" =>
    return ⟨if isMemory then none else some (plainPath path), manner.readOnly, manner.frozen⟩
  | "memdb" => return ⟨none, manner.readOnly, manner.frozen⟩
  | _ => none

/-- The locator that a file URI stands for, given what follows its scheme: no host but the local one,
a path, parameters, of which unknown ones do not matter, and a fragment, which is left out. -/
def ofFileUri? (manner : Manner) (rest : List Char) : Option Locator := do
  let path ←
    match rest with
    | '/' :: '/' :: rest =>
      let host := String.ofList (rest.takeWhile (· != '/'))
      if host = "" ∨ host = "localhost" then some (rest.dropWhile (· != '/')) else none
    | rest => some rest
  let (path, query) := splitAtFirst '?' (splitAtFirst '#' path).1
  let known ← (← parameters? query).foldlM
    (fun (m : Manner) (key, value) =>
      if ["mode", "cache", "immutable", "vfs"].contains key then m.set? key value else some m)
    manner
  let path ← Text.Percent.decode? (String.ofList path)
  ofPath? known (String.ofList (Text.beforeNul path))

/-- The locator that a name stands for, if it is well formed. -/
def ofName? (name : String) : Option Locator := do
  let (path, query) := splitAtFirst '?' (withoutScheme name)
  let manner ← (← parameters? query).foldlM (fun (m : Manner) (key, value) => m.set? key value) {}
  let path ← Text.Percent.decode? (String.ofList path)
  if "file:".toList.isPrefixOf path.toList && !manner.frozen && manner.layer.isNone then
    ofFileUri? manner (path.toList.drop 5)
  else ofPath? manner path

end Locator

end Chainwatch.Command
