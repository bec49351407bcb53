import LoopLang.CommandLine

def contentOf (file : String) : IO LoopLang.Content := do
  try
    return .ofBytes (← IO.FS.readBinFile file)
  catch e =>
    match e with
    | .noFileOrDirectory .. => return .missing
    | .inappropriateType _ code _ => return if code = 21 then .directory else .notDirectory
    | .permissionDenied .. => return .forbidden
    | other => return .unreadable other.toString

def main (args : List String) : IO UInt32 := do
  let answer ← LoopLang.CommandLine.respond args contentOf
  IO.print answer.output
  IO.eprint answer.errors
  return UInt32.ofNat answer.status
