import ApiContracts.Text.Pieces
import ApiContracts.Text.Numeral

/-!
# Networks

What a machine's network allows: opening a listener at an address, waiting until it accepts, and connecting to it. On an isolated machine listeners open, but nothing reaches them.
-/

namespace ApiContracts

open Text

structure Network where
  /-- Opens a listener on a host. -/
  listen : String → Except String Unit
  /-- Waits for a listener that was just opened. -/
  settle : Except String Unit
  /-- Connects to a listener. -/
  connect : Except String Unit

def isDottedHost (host : String) : Bool :=
  let parts := pieces '.' host.toList
  parts.length == 4 && parts.all fun p => p.all Char.isDigit && (bounded 10 255 p).isSome

/-- A host that is found without asking anyone. -/
def isKnownHost (host : String) : Bool := isDottedHost host || host == "localhost" || host == "::1" || host == "[::1]"

namespace Network

def connected : Network where
  listen _ := .ok ()
  settle := .ok ()
  connect := .ok ()

/-- Listeners open on hosts that need no look-up, and nobody reaches them. -/
def isolated : Network where
  listen host :=
    if isKnownHost host then .ok ()
    else .error "failed to lookup address information: Temporary failure in name resolution"
  settle := .error "timed out"
  connect := .error "network unreachable"

end Network

end ApiContracts
