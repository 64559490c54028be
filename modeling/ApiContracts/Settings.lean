import ApiContracts.Text.Blank
import ApiContracts.Text.Letters
import ApiContracts.Text.Numeral

/-!
# Settings from the environment

Each setting has a variable and a default, which also stands in for a value that cannot be read.
-/

namespace ApiContracts

open Text

abbrev Environment := List (String × String)

structure Settings where
  port : Nat := 3000
  host : String := "0.0.0.0"
  /-- The greatest number of bytes in the body of a request. -/
  bodyLimit : Nat := 5 * 1024 * 1024
  stackSize : Nat := 0x10000
  deriving DecidableEq

/-- A number of bytes, in decimal or behind `0x`. -/
def size? (s : String) : Option Nat :=
  match trim s.toList with
  | '0' :: 'x' :: digits => bounded 16 (twoTo 64 - 1) digits
  | digits => bounded 10 (twoTo 64 - 1) digits

def port? (s : String) : Option Nat := bounded 10 65535 (trim s.toList)

def Settings.ofEnvironment (env : Environment) : Settings where
  port := ((env.lookup "PORT").bind port?).getD 3000
  host := (env.lookup "ABSTRACTAPI_HOST").getD "0.0.0.0"
  bodyLimit := ((env.lookup "ABSTRACTAPI_BODY_LIMIT").bind size?).getD (5 * 1024 * 1024)
  stackSize := ((env.lookup "ABSTRACTAPI_STACK_SIZE").bind size?).getD 0x10000

/-- A switch that is set is on for four words, in any letter case. -/
def isOn (s : String) : Bool := lower s ∈ ["1", "true", "yes", "on"]

end ApiContracts
