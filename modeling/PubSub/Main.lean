import PubSub.Cli.Tool

/-!
The command line program. The first argument names the tool.
-/

namespace PubSub.Cli

/-- The variables that override settings. -/
def settingVars : List String :=
  [Config.domainVar, Config.matchVar, Config.ackVar, Config.dataVar]

def report (e : Exit) : IO UInt32 := do
  for line in e.lines.publisher ++ e.lines.subscriber do
    IO.println line
  match e.errorLine? with
  | some line => IO.eprintln line
  | none => pure ()
  return e.code.toUInt32

end PubSub.Cli

open PubSub.Cli in
def main (args : List String) : IO UInt32 := do
  match args with
  | name :: rest =>
    match Tool.ofName? name with
    | some t =>
      let env ← settingVars.mapM fun v => do return (v, ← IO.getEnv v)
      report (t.run rest fun v => (env.lookup v).join)
    | none => return 2
  | [] => return 2
