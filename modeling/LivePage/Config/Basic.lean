import LivePage.Config.Options
import LivePage.Location.SocketAddress
import LivePage.Text.Blank
import LivePage.Wire.Limits

/-!
Contract: the configuration of a server.

Owns:
- the settings and what each is where nothing is said;
- what settings cannot go together.

Does not own: where the settings come from.
-/

namespace LivePage

structure ServerConfig where
  listenAddress : SocketAddress
  webRoot : String
  /-- The keys of pages to read ahead. -/
  precompile : List String
  limits : MessageLimits
  shutdownGrace : Nat
  pageTtl : Nat
  reapInterval : Nat
deriving DecidableEq, Repr, Inhabited

/-- Why settings make no configuration. -/
inductive ConfigError where
  | invalidListenAddress (text : String)
  | zeroLimit
  | preambleBeyondMessage (preamble message : Nat)
  | zeroReapInterval
deriving DecidableEq, Repr

/-- The message, with that of its cause behind it. -/
def ConfigError.message : ConfigError → String
  | .invalidListenAddress text =>
      "invalid listen address: " ++ text ++ ": invalid socket address syntax"
  | .zeroLimit => "message limits must be greater than zero"
  | .preambleBeyondMessage preamble message =>
      "preamble limit (" ++ toString preamble ++ ") exceeds message limit (" ++
        toString message ++ ")"
  | .zeroReapInterval => "page reap interval must be greater than zero"

namespace ServerConfig

def defaultListenAddress : String := "127.0.0.1:8080"

def defaultWebRoot : String := "web"

def defaultShutdownGrace : Nat := 5

def defaultPageTtl : Nat := 300

def defaultReapInterval : Nat := 30

/-- The keys among texts: trimmed, and without empty ones. -/
def keysOf (texts : List String) : List String :=
  (texts.map Text.trimText).filter (fun key => !key.isEmpty)

/-- The configuration that options describe. -/
def ofOptions (given : GivenOptions) : Except ConfigError ServerConfig :=
  let addressText := (given.value? .listenAddress).getD defaultListenAddress
  let preamble := given.numberOr .maxPreambleBytes MessageLimits.standard.preamble
  let message := given.numberOr .maxMessageBytes MessageLimits.standard.message
  let reapInterval := given.numberOr .reapIntervalSecs defaultReapInterval
  match SocketAddress.read? addressText with
  | none => .error (.invalidListenAddress addressText)
  | some address =>
      if preamble = 0 ∨ message = 0 then .error .zeroLimit
      else if preamble > message then .error (.preambleBeyondMessage preamble message)
      else if reapInterval = 0 then .error .zeroReapInterval
      else
        .ok {
          listenAddress := address
          webRoot := (given.value? .webRoot).getD defaultWebRoot
          precompile := keysOf (given.values .precompile)
          limits := ⟨preamble, message⟩
          shutdownGrace := given.numberOr .shutdownGraceSecs defaultShutdownGrace
          pageTtl := given.numberOr .pageTtlSecs defaultPageTtl
          reapInterval := reapInterval }

end ServerConfig

end LivePage
