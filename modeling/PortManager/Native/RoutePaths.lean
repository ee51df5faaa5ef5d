import PortManager.Native.Json

/-!
# Route file paths of the native daemon

Embeds the path builders of `native/agent/portmanager_agent_state.c`: the table of a network, the entry
of an endpoint and the compose claim of a port, all derived from the base route-table path. Every
buffer truncates as the source's does.
-/

namespace PortManager.Native
open CText

/-- C `isalnum` in the C locale. -/
def isalnum (c : UInt8) : Bool := isdigit c || (65 ≤ c && c ≤ 90) || (97 ≤ c && c ≤ 122)

/-- The loop body of C `pm_sanitize_scope`. -/
def sanitizeByte (c : UInt8) : UInt8 :=
  if isalnum c || c == 95 || c == 46 || c == 45 then c else 95

/-- C `pm_sanitize_scope` into a buffer of more than 120 bytes. -/
def sanitizeScope (value : Text) : Text :=
  if value = [] then ascii "network" else (value.take 120).map sanitizeByte

/-- The texts before and after the last `c` (C `strrchr`). -/
def splitLast (c : UInt8) (t : Text) : Option (Text × Text) :=
  if c ∈ t then
    some ((t.reverse.dropWhile (· != c)).tail.reverse, (t.reverse.takeWhile (· != c)).reverse)
  else none

/-- The buffers `dir`, `prefix` and `extension` of the path builders. -/
structure RoutePathParts where
  dir : Text
  stem : Text
  extension : Text
deriving DecidableEq

/-- The name part of a path: its text up to the last dot, and the extension with that dot. -/
def routeNameParts (name : Text) : Text × Text :=
  match splitLast 46 name with
  | some (stem, rest) => (truncate PM_TEXT stem, truncate PM_SMALL (46 :: rest))
  | none => (truncate PM_TEXT name, ascii ".json")

/-- The start of each path builder: a path at its last slash and its name at the last dot. -/
def routePathParts (base : Text) : RoutePathParts :=
  match splitLast 47 base with
  | some (dir, name) => ⟨truncate PM_TEXT dir, (routeNameParts name).1, (routeNameParts name).2⟩
  | none => ⟨ascii ".", (routeNameParts base).1, (routeNameParts base).2⟩

/-- `snprintf(out, out_size, "%s/%s-%s%s", dir, prefix, suffix, extension)` -/
def suffixedRoutePath (base suffix : Text) : Text :=
  truncate PM_TEXT ((routePathParts base).dir ++
    47 :: ((routePathParts base).stem ++ 45 :: (suffix ++ (routePathParts base).extension)))

def scopedRouteTablePath (base networkId : Text) : Text :=
  if networkId = [] then truncate PM_TEXT base else suffixedRoutePath base (sanitizeScope networkId)

def routeEntryPath (base : Text) (logicalPort : Int) (networkId : Text) : Text :=
  suffixedRoutePath (scopedRouteTablePath base networkId) (ascii "port-" ++ decimal logicalPort)

def routeComposeClaimPath (base : Text) (port : Int) : Text :=
  suffixedRoutePath base (ascii "compose-claim-port-" ++ decimal port)

end PortManager.Native
