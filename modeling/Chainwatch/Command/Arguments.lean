import Chainwatch.Block
import Chainwatch.Text.Numeral

/-!
# Arguments

The arguments of the command line are read from left to right, first those of the program and then,
after its name, those of the subcommand. No option is given twice at one level. What asks for help
or for the version is answered where it stands; whatever is wrong before it comes first.
-/

namespace Chainwatch.Command

inductive Request where
  | tiers (chain : Option UInt64) (policy : Option String) (json : Bool)
  | inspect (database : String) (chain : UInt64) (state : Option BlockState) (limit : UInt64)
      (json : Bool)
  | info
  | version
  | help
  deriving DecidableEq, Repr

inductive Subcommand where
  | tiers
  | inspect
  | info
  deriving DecidableEq, Repr

def Subcommand.ofName? : String → Option Subcommand
  | "tiers" => some .tiers
  | "inspect" => some .inspect
  | "info" => some .info
  | _ => none

inductive Key where
  | verbose
  | logJson
  | help
  | version
  | chain
  | policy
  | database
  | state
  | limit
  | json
  deriving DecidableEq, Repr

namespace Key

def name : Key → String
  | verbose => "verbose"
  | logJson => "log-json"
  | help => "help"
  | version => "version"
  | chain => "chain-id"
  | policy => "policy"
  | database => "db"
  | state => "state"
  | limit => "limit"
  | json => "json"

def letter? : Key → Option Char
  | verbose => some 'v'
  | help => some 'h'
  | version => some 'V'
  | _ => none

def takesValue : Key → Bool
  | chain | policy | database | state | limit => true
  | verbose | logJson | help | version | json => false

def ofProgram : List Key := [verbose, logJson, help, version]

def ofSubcommand : Subcommand → List Key
  | .tiers => [chain, policy, json, verbose, logJson, help]
  | .inspect => [database, chain, state, limit, json, verbose, logJson, help]
  | .info => [verbose, logJson, help]

def accepts (key : Key) (value : String) : Bool :=
  match key with
  | chain | limit => (Text.Numeral.read 10 value.toList).toOption.isSome
  | state => (BlockState.parse value).toOption.isSome
  | _ => true

end Key

abbrev Given : Type := List (Key × String)

/-- What reading the options of a level comes to. -/
inductive Reading where
  | invalid
  | answered (request : Request)
  | word (word : String) (rest : List String)
  | complete (given : Given)

/-- Takes an option and its value in, or says why reading ends here. -/
def give (given : Given) (key : Key) (value : String) : Except Reading Given :=
  match key with
  | .help => .error (.answered .help)
  | .version => .error (.answered .version)
  | key =>
    if (given.lookup key).isSome || !key.accepts value then .error .invalid
    else .ok (given ++ [(key, value)])

def giveLetters (keys : List Key) (given : Given) (letters : List Char) : Except Reading Given :=
  letters.foldlM
    (fun given letter =>
      match keys.find? (·.letter? == some letter) with
      | some key => give given key ""
      | none => .error .invalid)
    given

/-- Whether a word could not stand for the value of an option. -/
def looksLikeOption (word : String) : Bool :=
  word.startsWith "-" && word != "-"

/-- The name of an option, and the value written behind it. -/
def splitOption (body : List Char) : String × Option String :=
  let name := body.takeWhile (· != '=')
  (String.ofList name,
    match body.drop name.length with
    | [] => none
    | _ :: value => some (String.ofList value))

def readOptions (keys : List Key) : Given → List String → Reading
  | given, [] => .complete given
  | given, word :: rest =>
    match word.toList with
    | ['-', '-'] => if rest.isEmpty then .complete given else .invalid
    | '-' :: '-' :: body =>
      let (name, value) := splitOption body
      match keys.find? (·.name == name) with
      | none => .invalid
      | some key =>
        match key.takesValue, value, rest with
        | false, none, rest =>
          match give given key "" with
          | .ok given => readOptions keys given rest
          | .error reading => reading
        | true, some value, rest =>
          match give given key value with
          | .ok given => readOptions keys given rest
          | .error reading => reading
        | true, none, value :: rest =>
          if looksLikeOption value then .invalid
          else
            match give given key value with
            | .ok given => readOptions keys given rest
            | .error reading => reading
        | _, _, _ => .invalid
    | '-' :: letter :: letters =>
      match giveLetters keys given (letter :: letters) with
      | .ok given => readOptions keys given rest
      | .error reading => reading
    | _ => .word word rest

def Given.number? (given : Given) (key : Key) : Option UInt64 :=
  (given.lookup key).bind fun value => (Text.Numeral.read 10 value.toList).toOption

def request? (given : Given) : Subcommand → Option Request
  | .tiers =>
    some (.tiers (Given.number? given .chain) (given.lookup .policy) (given.lookup .json).isSome)
  | .inspect => do
    let database ← given.lookup .database
    let chain ← Given.number? given .chain
    let state := (given.lookup .state).bind fun value => (BlockState.parse value).toOption
    let limit := (Given.number? given .limit).getD 20
    return .inspect database chain state limit (given.lookup .json).isSome
  | .info => some .info

def helpRequest? : List String → Option Request
  | [] => some .help
  | [topic] => if topic = "help" ∨ (Subcommand.ofName? topic).isSome then some .help else none
  | _ => none

/-- The request that the arguments make; `none` if they are wrong. -/
def readArguments (arguments : List String) : Option Request :=
  match readOptions Key.ofProgram [] arguments with
  | .answered request => some request
  | .word "help" rest => helpRequest? rest
  | .word word rest => do
    let subcommand ← Subcommand.ofName? word
    match readOptions (Key.ofSubcommand subcommand) [] rest with
    | .answered request => some request
    | .complete given => request? given subcommand
    | .invalid | .word _ _ => none
  | .complete _ | .invalid => none

end Chainwatch.Command
