import OrderDesk.CommandLine.Run
import OrderDesk.Node.Gateway

/-!
# The program

The outer layer: it reads the configuration, runs a command line and writes what that comes to. No
transport is linked in, so a node and an order interface answer as unreachable ones do.
-/

namespace OrderDesk

def usage : String :=
  "usage: orderdesk [-h] [--config CONFIG] [--log-level LOG_LEVEL] " ++
    "\x7bpool,nonce,position,positions,tob-order\x7d ..."

/-- An outside that cannot be reached. Candidates for nonces count up from `seed`. -/
def unreachable (seed : Nat) : Outside where
  node := Gateway.node fun _ => .failed "no transport"
  reply := fun _ _ => .dropped "no transport"
  candidate := fun _ index => seed + index
  choose := fun low _ => low
  patience := 1000

def contents? (path : String) : IO (Option Text) := do
  try
    let contents ← IO.FS.readFile path
    return some contents
  catch _ => return none

def configPath (words : List String) : String :=
  match CommandLine.parse CommandLine.generalOptions CommandLine.commands words with
  | .ok line => (line.general.text? "config").getD CommandLine.usualConfig
  | .error _ => CommandLine.usualConfig

end OrderDesk

open OrderDesk in
def main (words : List String) : IO UInt32 := do
  let document ← contents? (configPath words)
  let environmentKey ← IO.getEnv "ANGSTROM_PRIVATE_KEY"
  let seed := Bytes.toNat (← IO.getRandomBytes 8).toList
  let surroundings : CommandLine.Surroundings := ⟨fun _ => document, environmentKey, 0⟩
  let (result, journal) := (CommandLine.run surroundings words).outcome (unreachable seed) .empty
  for line in journal.printed do IO.println line.string
  match result with
  | .ok (.usage exitCode) =>
    IO.println usage
    return exitCode.toUInt32
  | .ok .misuse =>
    IO.eprintln usage
    return 2
  | .ok (.ran exitCode log) =>
    for line in log do IO.eprintln line.string
    return exitCode.toUInt32
  | .error fault =>
    IO.eprintln fault.message.string
    return 1
