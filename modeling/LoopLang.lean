import LoopLang.CommandLine
import LoopLang.Main
import LoopLang.Proofs.Execution.Assignment
import LoopLang.Proofs.Execution.Building
import LoopLang.Proofs.Execution.Builtins
import LoopLang.Proofs.Execution.Caller
import LoopLang.Proofs.Execution.Context
import LoopLang.Proofs.Execution.Depth
import LoopLang.Proofs.Execution.Folding
import LoopLang.Proofs.Execution.Looping
import LoopLang.Proofs.Execution.ReadOnly
import LoopLang.Proofs.Execution.Repetition
import LoopLang.Proofs.Execution.Signals
import LoopLang.Proofs.Execution.Termination
import LoopLang.Proofs.Reordering
import LoopLang.Proofs.Report.Places
import LoopLang.Proofs.Scopes.Blocks
import LoopLang.Proofs.Scoping.Agreement
import LoopLang.Proofs.Token.Respelling
import LoopLang.Proofs.Tree.Advance
import LoopLang.Proofs.Tree.Numbering
import LoopLang.Proofs.Tree.RoundTrip
import LoopLang.Proofs.Typing.Assignable
import LoopLang.Proofs.Typing.Nesting
import LoopLang.Proofs.Typing.Verdict.Program
import LoopLang.Proofs.Value.Coherence
import LoopLang.Proofs.Value.Rounding
import LoopLang.Proofs.Value.Widening
