import Chainwatch.Command.Arguments
import Chainwatch.Command.Locator
import Chainwatch.Command.Report
import Chainwatch.Store.Snapshot

/-!
# The command

Arguments and the files they name determine what is printed. Nothing is printed before everything
that it needs was read.
-/

namespace Chainwatch.Command

/-- What stands at a path. -/
inductive Entry where
  /-- Nothing; with `room`, a file could be made there. -/
  | nothing (room : Bool)
  | unreadable
  | text (content : String)
  | database (store : RelationalStore)

structure Files where
  look : String → Entry

/-- What the command leaves behind. -/
inductive Outcome where
  | printed (text : String)
  | failed (message : String)
  | misused
  deriving DecidableEq, Repr

def Outcome.exitCode : Outcome → Nat
  | printed _ => 0
  | failed _ => 1
  | misused => 2

def loadPolicy (files : Files) : Option String → Except String Policy
  | none => .ok .builtin
  | some path =>
    match files.look path with
    | .text text =>
      match Policy.ofText? text with
      | none => .error ("parsing " ++ path)
      | some policy => .ok policy
    | _ => .error ("reading " ++ path)

/-- The store that a locator leads to. A database in which nothing was written yet needs to be
written before it can be read. -/
def Files.store? (files : Files) (locator : Locator) : Option RelationalStore :=
  match locator.path with
  | none => if locator.readOnly then none else some .empty
  | some path =>
    let blank := if locator.readOnly || locator.frozen then none else some .empty
    match files.look path with
    | .nothing room => if room then blank else none
    | .unreadable => none
    | .text content =>
      if RelationalStore.isBlank content then blank else RelationalStore.ofSnapshot? content
    | .database store => some store

/-- The store of a database. Its name has to be the path of something, even where it is a locator that
leads elsewhere. -/
def openDatabase (files : Files) (name : String) : Except String RelationalStore :=
  match files.look name with
  | .nothing _ => .error ("database " ++ name ++ " does not exist")
  | _ =>
    match (Locator.ofName? name).bind files.store? with
    | none => .error ("opening " ++ name)
    | some store => .ok store

def answer (files : Files) : Request → Except String String
  | .tiers chain path json => do
    let policy ← loadPolicy files path
    return if json then tierJson policy chain else tierTable policy chain
  | .inspect path chain state limit json => do
    let store ← openDatabase files path
    let summary ← (summarize store chain state limit).mapError TrackError.message
    return if json then summary.json else summary.text
  | .info => .ok infoText
  | .version => .ok versionText
  | .help => .ok helpText

def run (files : Files) (arguments : List String) : Outcome :=
  match readArguments arguments with
  | none => .misused
  | some request =>
    match answer files request with
    | .ok text => .printed text
    | .error message => .failed ("Error: " ++ message)

end Chainwatch.Command
