import LivePage.Config.Basic
import LivePage.Console.Failure
import LivePage.Json.Access

/-!
Contract: the configuration that arguments and environment variables make.

Owns:
- the report of a configuration, or of what is wrong.

Does not own: the options and their rules.
-/

namespace LivePage.Console

open Json (nat ofFields)

def config (shown : ServerConfig) : Json :=
  ofFields [
    ("listen_addr", .str shown.listenAddress.text),
    ("web_root", .str shown.webRoot),
    ("precompile", Json.strings shown.precompile),
    ("max_preamble_bytes", nat shown.limits.preamble),
    ("max_message_bytes", nat shown.limits.message),
    ("shutdown_grace", nat shown.shutdownGrace),
    ("page_ttl", nat shown.pageTtl),
    ("reap_interval", nat shown.reapInterval)]

def configReport (arguments : List String) (environment : List (String × String)) : Json :=
  match GivenOptions.read arguments environment with
  | .error error => ofFields [("error", .str "Cli"), ("kind", .str error.name)]
  | .ok given =>
      match ServerConfig.ofOptions given with
      | .error error => failure "Config" error.message
      | .ok made => config made

end LivePage.Console
