import LoopLang.Execution
import LoopLang.Report
import LoopLang.Typing

namespace LoopLang

structure Request where
  file : String
  checkOnly : Bool
  coloured : Bool
  deriving DecidableEq, Repr

inductive Content where
  | missing
  | directory
  | notDirectory
  | forbidden
  | notText
  | text (source : String)
  | unreadable (reason : String)
  deriving DecidableEq, Repr

namespace Content

def ofBytes (bytes : ByteArray) : Content :=
  match String.fromUTF8? bytes with
  | some source => text source
  | none => notText

def problem : Content → String
  | missing => "No such file or directory (os error 2)"
  | directory => "Is a directory (os error 21)"
  | notDirectory => "Not a directory (os error 20)"
  | forbidden => "Permission denied (os error 13)"
  | notText => "stream did not contain valid UTF-8"
  | unreadable reason => reason
  | text _ => ""

end Content

structure Answer where
  status : Nat
  output : String
  errors : String
  deriving DecidableEq, Repr

namespace CommandLine

def version : String := "xlang 0.1.0"

def usage : String := "Usage: xlang [OPTIONS] <FILE>"

inductive Wish where
  | run (request : Request)
  | version
  | help
  | nothing
  deriving DecidableEq, Repr

/-- Reads the arguments in order. Each may be given once; after `--` all are files. -/
def wish (file : Option String) (checkOnly plain literally : Bool) : List String → Wish
  | [] =>
    match file with
    | some file => .run ⟨file, checkOnly, !plain⟩
    | none => .nothing
  | arg :: args =>
    if literally || arg = "-" || !arg.startsWith "-" then
      if file.isSome then .nothing else wish (some arg) checkOnly plain literally args
    else if arg = "--" then wish file checkOnly plain true args
    else if arg = "--version" || arg = "-V" then .version
    else if arg = "--help" || arg = "-h" then .help
    else if arg = "--check" && !checkOnly then wish file true plain literally args
    else if arg = "--no-color" && !plain then wish file checkOnly true literally args
    else .nothing

def printed (lines : Array Line) : String :=
  String.join (lines.toList.map fun line => line.text ++ "\n")

def execute (r : Request) (source : String) : Answer :=
  let failed (output : String) (e : Error) : Answer :=
    ⟨e.exitCode, output, e.render r.file source r.coloured⟩
  match Program.compile source with
  | .error e => failed "" e
  | .ok program =>
    if r.checkOnly then ⟨0, "", ""⟩
    else
      let (outcome, lines) := program.run
      match outcome with
      | .failed fault => failed (printed lines) fault.toError
      | _ => ⟨0, printed lines, ""⟩

def answer (r : Request) (content : Content) : Answer :=
  match content with
  | .text source => execute r source
  | other => ⟨1, "", s!"Error: cannot read '{r.file}': {other.problem}\n"⟩

def respond {m : Type → Type} [Monad m] (args : List String) (contentOf : String → m Content) :
    m Answer := do
  match wish none false false false args with
  | .version => return ⟨0, version ++ "\n", ""⟩
  | .help => return ⟨0, usage ++ "\n", ""⟩
  | .nothing => return ⟨2, "", usage ++ "\n"⟩
  | .run r => return answer r (← contentOf r.file)

end CommandLine
end LoopLang
