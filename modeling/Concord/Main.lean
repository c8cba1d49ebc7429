import Concord.Wardrobe.Program

/-!
# The command line

Reads the capacity variable and prints the run of the wardrobe program.
-/

open Concord

def main : IO UInt32 := do
  let value ← IO.getEnv Settings.capacityVariable
  let run := Wardrobe.transcript (value.map String.toUTF8)
  for line in run.output do
    IO.println line
  IO.eprint run.errors
  return run.exitCode.toUInt32
