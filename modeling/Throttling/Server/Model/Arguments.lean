import Throttling.Common.Decimal
import Mathlib.Data.List.Infix
/-!
# The command line

`ParseArgs` goes through the arguments after the program's name, stores
what the options say, and gives up at the first argument it cannot use.
The two options it has differ in their flag, in the numbers they refuse,
in the text of their error and in what they store. An argument is a
string of characters, one for each byte.
-/

namespace Throttling

open Decimal

structure ServerConfig where
  port : UInt16 := 50051
  /-- In seconds. -/
  heartbeatTimeout : ℤ := 30
deriving DecidableEq

/-- What `ParseArgs` writes. -/
structure Output where
  cout : String := ""
  cerr : String := ""
deriving DecidableEq

/-- An option with a number for its value. -/
structure NumericOption where
  flag : String
  /-- Where in the argument the value begins. -/
  valueAt : ℕ
  /-- The numbers refused, of those that `stoi` reads. -/
  refuses : ℤ → Bool
  error : String
  store : ServerConfig → ℤ → ServerConfig

def portOption : NumericOption where
  flag := "--port="
  valueAt := 7
  refuses port := port ≤ 0 || port > 65535
  error := "Error: Invalid port number: "
  store config port := { config with port := UInt16.ofInt port }

def heartbeatTimeoutOption : NumericOption where
  flag := "--heartbeat-timeout="
  valueAt := 20
  refuses timeout := timeout < 0
  error := "Error: Invalid heartbeat timeout: "
  store config timeout := { config with heartbeatTimeout := timeout }

namespace NumericOption

/-- Whether an argument begins with the flag. -/
def Matches (o : NumericOption) (arg : String) : Prop := o.flag.toList <+: arg.toList

instance (o : NumericOption) (arg : String) : Decidable (o.Matches arg) :=
  inferInstanceAs (Decidable (_ <+: _))

/-- What one argument does to the configuration, or what is written. -/
def parse (o : NumericOption) (config : ServerConfig) (arg : String) :
    Except String ServerConfig :=
  let value := arg.toList.drop o.valueAt
  let message := o.error ++ String.ofList value ++ "\n"
  match stoi value with
  | .ok n => if o.refuses n then .error message else .ok (o.store config n)
  | .error _ => .error message

end NumericOption

def printUsage (programName : String) : String :=
  "Usage: " ++ programName ++ " [OPTIONS]\n" ++
    "\n" ++
    "Options:\n" ++
    "  --port=PORT              Server port (default: 50051)\n" ++
    "  --heartbeat-timeout=SEC  Client heartbeat timeout in seconds (default: 30)\n" ++
    "  --help                   Show this help message\n"

/-- The loop of `ParseArgs`. -/
def parseFrom (programName : String) : ServerConfig → List String → Option ServerConfig × Output
  | config, [] => (some config, {})
  | config, arg :: rest =>
    if arg = "--help" ∨ arg = "-h" then (none, { cout := printUsage programName })
    else if portOption.Matches arg then
      match portOption.parse config arg with
      | .ok config' => parseFrom programName config' rest
      | .error message => (none, { cerr := message })
    else if heartbeatTimeoutOption.Matches arg then
      match heartbeatTimeoutOption.parse config arg with
      | .ok config' => parseFrom programName config' rest
      | .error message => (none, { cerr := message })
    else
      (none, { cout := printUsage programName, cerr := "Error: Unknown argument: " ++ arg ++ "\n" })

/-- `ParseArgs`, of the arguments with the program's name before them. -/
def parseArgs : List String → Option ServerConfig × Output
  | [] => (some {}, {})
  | programName :: args => parseFrom programName {} args

end Throttling
