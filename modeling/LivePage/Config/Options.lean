import LivePage.Number.Text
import LivePage.Text.Cut

/-!
Contract: the options of the command line.

Owns:
- the options with their names, their environment variables and the kind of
  value that each takes;
- reading of arguments and variables, and what can be wrong with them.

Does not own: what the values of the options mean together.
-/

namespace LivePage

/-- Why the arguments do not start a server. -/
inductive UsageError where
  /-- A value is not of the kind that its option takes. -/
  | valueValidation
  /-- A value is missing, or empty where it must not be. -/
  | invalidValue
  | unknownArgument
  /-- An option that takes one value was given twice. -/
  | argumentConflict
  /-- A value was given where none is taken. -/
  | tooManyValues
  /-- Help was asked for. -/
  | displayHelp
  /-- The version was asked for. -/
  | displayVersion
deriving DecidableEq, Repr

def UsageError.name : UsageError → String
  | .valueValidation => "ValueValidation"
  | .invalidValue => "InvalidValue"
  | .unknownArgument => "UnknownArgument"
  | .argumentConflict => "ArgumentConflict"
  | .tooManyValues => "TooManyValues"
  | .displayHelp => "DisplayHelp"
  | .displayVersion => "DisplayVersion"

inductive ServerOption where
  | listenAddress
  | webRoot
  | precompile
  | maxPreambleBytes
  | maxMessageBytes
  | shutdownGraceSecs
  | pageTtlSecs
  | reapIntervalSecs
deriving DecidableEq, Repr

/-- What values an option takes. -/
inductive OptionKind where
  | text
  /-- Text that is not empty. -/
  | path
  /-- A number of the unsigned 64 bit range. -/
  | number
  /-- Texts, separated by commas; the option may be repeated. -/
  | list
deriving DecidableEq, Repr

namespace ServerOption

/-- All options, in the order in which their variables are looked at. -/
def all : List ServerOption :=
  [.listenAddress, .webRoot, .precompile, .maxPreambleBytes, .maxMessageBytes,
    .shutdownGraceSecs, .pageTtlSecs, .reapIntervalSecs]

/-- The name on the command line, behind two dashes. -/
def name : ServerOption → String
  | .listenAddress => "listen-addr"
  | .webRoot => "web-root"
  | .precompile => "precompile"
  | .maxPreambleBytes => "max-preamble-bytes"
  | .maxMessageBytes => "max-message-bytes"
  | .shutdownGraceSecs => "shutdown-grace-secs"
  | .pageTtlSecs => "page-ttl-secs"
  | .reapIntervalSecs => "reap-interval-secs"

/-- The environment variable that stands in for the option. -/
def variableName : ServerOption → String
  | .listenAddress => "FUJION_LISTEN_ADDR"
  | .webRoot => "FUJION_WEB_ROOT"
  | .precompile => "FUJION_PRECOMPILE"
  | .maxPreambleBytes => "FUJION_MAX_PREAMBLE_BYTES"
  | .maxMessageBytes => "FUJION_MAX_MESSAGE_BYTES"
  | .shutdownGraceSecs => "FUJION_SHUTDOWN_GRACE_SECS"
  | .pageTtlSecs => "FUJION_PAGE_TTL_SECS"
  | .reapIntervalSecs => "FUJION_PAGE_REAP_INTERVAL_SECS"

def kind : ServerOption → OptionKind
  | .listenAddress => .text
  | .webRoot => .path
  | .precompile => .list
  | _ => .number

/-- What the option is for. -/
def purpose : ServerOption → String
  | .listenAddress => "Address to bind the HTTP and websocket listener to"
  | .webRoot => "Directory that page keys resolve against"
  | .precompile => "Pages compiled once the server is ready (comma separated)"
  | .maxPreambleBytes => "Largest JSON preamble accepted on a binary frame"
  | .maxMessageBytes => "Largest reassembled inbound message"
  | .shutdownGraceSecs => "Grace period applied during shutdown"
  | .pageTtlSecs => "Seconds a page may wait for its websocket before it is discarded"
  | .reapIntervalSecs => "Seconds between sweeps for unclaimed pages"

def ofName? (name : String) : Option ServerOption :=
  all.find? (fun option => option.name == name)

end ServerOption

/-- Checks one value of a kind. -/
def OptionKind.check : OptionKind → String → Except UsageError Unit
  | .path, value => if value.isEmpty then .error .invalidValue else .ok ()
  | .number, value =>
      if (readNat? greatestNat64 value.toList).isSome then .ok () else .error .valueValidation
  | _, _ => .ok ()

/-- The values that were given to options. -/
structure GivenOptions where
  entries : List (ServerOption × List String)
deriving DecidableEq, Repr, Inhabited

namespace GivenOptions

def values (given : GivenOptions) (option : ServerOption) : List String :=
  (given.entries.filter (fun entry => entry.1 = option)).flatMap Prod.snd

def isGiven (given : GivenOptions) (option : ServerOption) : Bool :=
  given.entries.any (fun entry => entry.1 = option)

/-- Takes the value of an option; only a list may be given more than once. -/
def add (given : GivenOptions) (option : ServerOption) (value : String) :
    Except UsageError GivenOptions :=
  if option.kind = .list then
    .ok ⟨given.entries ++ [(option, Text.splitText ',' value)]⟩
  else if given.isGiven option then .error .argumentConflict
  else
    match option.kind.check value with
    | .ok () => .ok ⟨given.entries ++ [(option, [value])]⟩
    | .error error => .error error

/-- The first value of an option that takes one. -/
def value? (given : GivenOptions) (option : ServerOption) : Option String :=
  (given.values option).head?

/-- The number given to an option, or another one. -/
def numberOr (given : GivenOptions) (option : ServerOption) (default : Nat) : Nat :=
  ((given.value? option).bind (fun value => readNat? greatestNat64 value.toList)).getD default

end GivenOptions

/-- Arguments while they are read. The last option is settled only when the next
one begins, or at the end. -/
structure ArgumentReader where
  given : GivenOptions
  /-- The last option, with its value once there was one. -/
  pending : Option (ServerOption × Option String)
  /-- Only positional arguments follow. -/
  isTrailing : Bool
deriving DecidableEq, Repr, Inhabited

namespace ArgumentReader

def new : ArgumentReader := ⟨⟨[]⟩, none, false⟩

/-- Takes over the last option. -/
def settle (reader : ArgumentReader) : Except UsageError ArgumentReader :=
  match reader.pending with
  | none => .ok reader
  | some (_, none) => .error .invalidValue
  | some (option, some value) =>
      match reader.given.add option value with
      | .ok given => .ok { reader with given := given, pending := none }
      | .error error => .error error

/-- Ends the reading early, unless the last option is faulty. -/
def leave (reader : ArgumentReader) (reason : UsageError) : Except UsageError ArgumentReader :=
  match reader.settle with
  | .ok _ => .error reason
  | .error error => .error error

/-- Help or the version, by a long name. -/
def longRequest? : String → Option UsageError
  | "help" => some .displayHelp
  | "version" => some .displayVersion
  | _ => none

/-- Help or the version, by a letter. -/
def shortRequest? : Char → Option UsageError
  | 'h' => some .displayHelp
  | 'V' => some .displayVersion
  | _ => none

/-- Takes an argument behind two dashes: a name, with or without a value. -/
def takeLong (reader : ArgumentReader) (name : String) (value : Option String) :
    Except UsageError ArgumentReader :=
  match longRequest? name, ServerOption.ofName? name with
  | some request, _ => if value.isSome then .error .tooManyValues else reader.leave request
  | none, some option =>
      match reader.settle with
      | .error error => .error error
      | .ok settled =>
          let next := { settled with pending := some (option, value) }
          if value.isSome then next.settle else .ok next
  | none, none => .error .unknownArgument

/-- Takes an argument that is no option: the value of the last one. -/
def takeValue (reader : ArgumentReader) (value : String) : Except UsageError ArgumentReader :=
  match reader.pending with
  | some (option, none) => .ok { reader with pending := some (option, some value) }
  | _ => .error .unknownArgument

def take (reader : ArgumentReader) (argument : String) : Except UsageError ArgumentReader :=
  if reader.isTrailing then .error .unknownArgument
  else
    match argument.toList with
    | ['-', '-'] => .ok { reader with isTrailing := true }
    | '-' :: '-' :: rest =>
        match Text.cutText? '=' (String.ofList rest) with
        | some (name, value) => reader.takeLong name (some value)
        | none => reader.takeLong (String.ofList rest) none
    | '-' :: letter :: _ =>
        match shortRequest? letter with
        | some request => reader.leave request
        | none => .error .unknownArgument
    | _ => reader.takeValue argument

end ArgumentReader

namespace GivenOptions

/-- The options given by arguments. -/
def ofArguments (arguments : List String) : Except UsageError GivenOptions := do
  let reader ← arguments.foldlM ArgumentReader.take ArgumentReader.new
  return (← reader.settle).given

/-- Adds the options given by environment variables alone. -/
def addVariables (given : GivenOptions) (environment : List (String × String)) :
    Except UsageError GivenOptions :=
  ServerOption.all.foldlM (fun found option =>
    match given.isGiven option, environment.find? (fun entry => entry.1 == option.variableName) with
    | false, some (_, value) => found.add option value
    | _, _ => .ok found) given

/-- The options given by arguments and, where those say nothing, by variables. -/
def read (arguments : List String) (environment : List (String × String)) :
    Except UsageError GivenOptions := do
  (← ofArguments arguments).addVariables environment

end GivenOptions

end LivePage
