import OrderDesk.CommandLine.Arguments
import OrderDesk.Settings

/-!
# The command line

Commands that look at pools and positions, find nonces, and make orders. A fault of the desk is
reported in one line; other faults are not caught.

* `CommandLine.run` carries out a line.
-/

namespace OrderDesk.CommandLine

def generalOptions : List OptionSpec :=
  [⟨"config", ["--config", "-c"], .text⟩, ⟨"log-level", ["--log-level"], .text⟩]

def blockOption : OptionSpec := ⟨"block", ["--block"], .whole⟩

def commands : List CommandSpec := [
  ⟨"pool", [("token0", .text), ("token1", .text)],
    [blockOption, ⟨"no-ticks", ["--no-ticks"], .flag⟩]⟩,
  ⟨"nonce", [],
    [⟨"user", ["--user"], .text⟩, ⟨"max-attempts", ["--max-attempts"], .whole⟩]⟩,
  ⟨"position", [("token_id", .whole)], []⟩,
  ⟨"positions", [],
    [⟨"owner", ["--owner"], .text⟩, blockOption, ⟨"fees", ["--fees"], .flag⟩]⟩,
  ⟨"tob-order", [("token0", .text), ("token1", .text)], [⟨"send", ["--send"], .flag⟩]⟩]

inductive Ending
  | done
  | complaint (text : String)

/-! ## Commands -/

def poolJson (block : BlockName) (pool : Pool) : Json :=
  .object [("block", block.toJson), ("pool_id", .text (Hex.text pool.id)),
    ("token0", .text pool.token0.text), ("token1", .text pool.token1.text),
    ("tick", .int pool.tick), ("tick_spacing", .int pool.tickSpacing),
    ("sqrt_price_x96", .text (toString pool.sqrtPrice)),
    ("liquidity", .text (toString pool.liquidity)), ("fee_pips", .int pool.feePips),
    ("initialized_ticks", .int pool.ticks.length)]

/-- The tokens of a command. That the second one was left blank shows when the first has been read. -/
def tokenPair (values : Values) : Except Fault (String × String) := do
  let token0 := (values.text? "token0").getD ""
  let token1 := (values.text? "token1").getD ""
  if values.isBlank "token1" then do
    let _ ← readAddress token0
    .error .wrongType
  else return (token0, token1)

def blockOf (values : Values) : Option BlockName :=
  match values.last? "block" with
  | some (.whole number) => some number
  | some .blank => some .blank
  | _ => none

def showPool (client : Client) (values : Values) : Desk Ending := do
  let (token0, token1) ← tokenPair values
  let (block, pool) ←
    client.pools.snapshot token0 token1 (blockOf values) (!values.flag "no-ticks")
  Desk.print (poolJson block pool).pretty
  return .done

def nameOr (client : Client) (given : Option String) : Option String :=
  (given.filter fun name => !name.isEmpty).or (client.sender?.map (·.text))

def findNonce (client : Client) (source : Nat) (values : Values) : Desk Ending := do
  match nameOr client (values.text? "user") with
  | none => return .complaint "--user required when no private key is configured"
  | some user =>
    if values.isBlank "max-attempts" then Desk.fail .wrongType
    else
      let search : Nonce.Search := ⟨values.whole? "max-attempts", source⟩
      let nonce ← search.allocate client.deployment user none
      Desk.print (toString nonce)
      return .done

def showPosition (client : Client) (values : Values) : Desk Ending := do
  let tokenId := (values.whole? "token_id").getD 0
  let position ← Positions.find client.deployment tokenId none
  Desk.print position.toJson.pretty
  return .done

def positionRow (client : Client) (block : BlockName) (withFees : Bool) (position : LiquidityPosition) :
    Desk Json := do
  if withFees then
    let fees ← Positions.feesAt client.deployment position none block
    let earned : Members := [("fees", fees.toJson)]
    return .object (position.members ++ earned)
  else return position.toJson

def showPositions (client : Client) (values : Values) : Desk Ending := do
  match nameOr client (values.text? "owner") with
  | none => return .complaint "--owner required when no private key is configured"
  | some owner =>
    let block ← Desk.pinned (((values.whole? "block").filter (· ≠ 0)).map .number)
    let positions ← client.positionsOf (some owner) (some block)
    let rows ← positions.mapM (positionRow client block (values.flag "fees"))
    Desk.print (Json.object
      [("block", block.toJson), ("owner", .text owner), ("positions", .array rows)]).pretty
    return .done

def makeOrder (client : Client) (values : Values) : Desk Ending := do
  if client.signer.isNone then return .complaint "A private key is required to build orders"
  else if !client.venue.hasOrderApi then Desk.fail .noOrderSource
  else
    let (token0, token1) ← tokenPair values
    let order ← client.generateOrder token0 token1
    Desk.print (← order.document)
    if values.flag "send" then
      let hash ← OrderApi.sendOrder order
      Desk.print hash.plain
    return .done

def perform (client : Client) (source : Nat) (command : String) (values : Values) : Desk Ending :=
  match command with
  | "pool" => showPool client values
  | "nonce" => findNonce client source values
  | "position" => showPosition client values
  | "positions" => showPositions client values
  | _ => makeOrder client values

/-! ## Lines -/

/-- What surrounds a command line: the contents of files, a key from the environment, and the source
of candidates for nonces. -/
structure Surroundings where
  contents : String → Option Text
  environmentKey : Option String
  source : Nat

inductive Report
  /-- The usage is shown, because it was asked for or because there is no command. -/
  | usage (exitCode : Nat)
  | misuse
  /-- A command has run; complaints go to the log. -/
  | ran (exitCode : Nat) (log : List Text)

def usualConfig : String := "angstrom.json"

/-- The file of the configuration. Left blank it is no name. A name that only goes up and down among
folders is that of one, and names of files have at most 255 bytes. -/
def configName (general : Values) : Except Fault String :=
  let name := (general.text? "config").getD usualConfig
  let inner := (name.splitOn "/").filter fun part => part ≠ "" && part ≠ "." && part ≠ ".."
  if general.isBlank "config" then .error .wrongType
  else match inner with
    | [] => .error .isFolder
    | first :: _ =>
      if 255 < first.utf8ByteSize ∨ 4095 < name.utf8ByteSize then .error .nameTooLong
      else .ok name

def runCommand (surroundings : Surroundings) (general : Values) (command : String)
    (values : Values) : Desk Ending := do
  let name ← configName general
  let settings ← Desk.within fun capacity =>
    Settings.load capacity (surroundings.contents name) surroundings.environmentKey
  Settings.checkLogLevel settings (general.text? "log-level")
  let client ← Settings.client settings surroundings.source
  perform client surroundings.source command values

def run (surroundings : Surroundings) (words : List String) : Desk Report := do
  match parse generalOptions commands words with
  | .error .help => return .usage 0
  | .error .misuse => return .misuse
  | .ok ⟨_, none⟩ => return .usage 1
  | .ok ⟨general, some (command, values)⟩ =>
    match ← Desk.attempt (runCommand surroundings general command values) with
    | .ok .done => return .ran 0 []
    | .ok (.complaint text) => return .ran 1 [text]
    | .error fault =>
      match fault.report? with
      | some line => return .ran 1 [line]
      | none => Desk.fail fault

end OrderDesk.CommandLine
