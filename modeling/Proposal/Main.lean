import Proposal.Inspection
import Proposal.Json.Printer

namespace Proposal

structure Arguments where
  config : Option String
  dao : Option String
  now : Option Count
  vestingFactory : Option String
  tokens : List String
  cosmos : Bool
  words : List String

namespace Arguments

def none : Arguments := ⟨.none, .none, .none, .none, [], false, []⟩

/-- Takes the arguments one by one; an option goes with the argument behind it. -/
def collect? (arguments : Arguments) : List String → Option Arguments
  | [] => some arguments
  | "--cosmos" :: rest => collect? { arguments with cosmos := true } rest
  | "--config" :: value :: rest => collect? { arguments with config := value } rest
  | "--dao" :: value :: rest => collect? { arguments with dao := value } rest
  | "--vesting-factory" :: value :: rest =>
    collect? { arguments with vestingFactory := value } rest
  | "--token" :: value :: rest =>
    collect? { arguments with tokens := arguments.tokens ++ [value] } rest
  | "--now" :: value :: rest => do
    let now ← Unsigned.read? 64 value.toList
    collect? { arguments with now := now } rest
  | word :: rest => collect? { arguments with words := arguments.words ++ [word] } rest

/-- The command of the plain words, and the file it is about. -/
def command? (arguments : Arguments) : Option (InspectionCommand × String) :=
  match arguments.words with
  | ["decode", file] => if arguments.cosmos then .none else some (.decode, file)
  | ["encode", file] => some (.encode arguments.cosmos, file)
  | _ => .none

/-- The inspection that complete arguments ask for, with files that are still to be read. -/
def inspection? (arguments : Arguments) : Option Inspection := do
  let (command, input) ← arguments.command?
  return {
    config := ⟨← arguments.config, .none⟩
    dao := ← arguments.dao
    now := ← arguments.now
    vestingFactory := arguments.vestingFactory
    tokens := arguments.tokens
    command := command
    input := ⟨input, .none⟩ }

end Arguments

/-- The file with its content, if it can be read. -/
def SourceFile.load (file : SourceFile) : IO SourceFile := do
  try
    let bytes ← IO.FS.readBinFile file.name
    return { file with content := some ⟨bytes.data.toList⟩ }
  catch _ => return file

def usage : String :=
  "usage: --config FILE --dao ADDRESS --now SECONDS [--vesting-factory ADDRESS] " ++
    "[--token ADDRESS:SYMBOL:DECIMALS]... (decode FILE | encode FILE [--cosmos])"

/-- The program says what it could not read, and leaves it at that. -/
def plainWording : Wording :=
  ⟨fun _ => "ChainConfig: not a chain config", fun encoded => encoded⟩

def inspect (inspection : Inspection) : IO UInt32 := do
  let config ← inspection.config.load
  let input ← inspection.input.load
  let report := Inspection.run plainWording { inspection with config := config, input := input }
  for line in report.log do IO.eprintln line
  match report.output with
  | some output => IO.println (String.ofList (output.json.pretty 0))
  | none => pure ()
  match report.error with
  | some error => IO.eprintln ("Error: " ++ error)
  | none => pure ()
  return UInt32.ofNat report.exitCode

end Proposal

def main (arguments : List String) : IO UInt32 := do
  match (Proposal.Arguments.none.collect? arguments).bind Proposal.Arguments.inspection? with
  | some inspection => Proposal.inspect inspection
  | none =>
    IO.eprintln Proposal.usage
    return 2
