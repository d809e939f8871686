import SyncAudit.CommandLine.Run
import SyncAudit.FileSystem.Description
import SyncAudit.Json.Reader
import SyncAudit.Timestamp.Reader

/-!
# The command

Standard input describes the world of the run as a JSON object: the file system under `tree`, the
environment under `env` and the present moment under `now`. The arguments are those of the command
itself.
-/
namespace SyncAudit.Main

open CommandLine

/-- The directory that relative paths start from. -/
def here : Location :=
  [Text.toBytes "work"]

def nowOf (world : Json) : Timestamp :=
  match world.member? "now" with
  | some (.string s) =>
    match Timestamp.parse s with
    | .ok t => t
    | .error _ => .epoch
  | _ => .epoch

/-- The run in a world that is described in JSON. -/
def outcome (world : Json) (words : List Word) : Outcome :=
  let fs := FileSystem.ofJson here ((world.member? "tree").getD .null)
  let env := Environment.ofJson ((world.member? "env").getD .null)
  run fs env (nowOf world) words

end SyncAudit.Main

open SyncAudit in
def main (args : List String) : IO UInt32 := do
  let input ← (← IO.getStdin).readToEnd
  let world := (Json.parse input).getD .null
  let outcome := Main.outcome world (args.map Text.toBytes)
  let clock : CommandLine.Clock := ⟨(Main.nowOf world).toString, "0.00s"⟩
  IO.print (outcome.stdout clock)
  IO.eprint outcome.stderr
  return UInt32.ofNat outcome.code
