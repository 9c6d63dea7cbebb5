import RiscAssembler.Main
import RiscAssembler.Proofs.Assembly.Blame
import RiscAssembler.Proofs.Assembly.Canonical
import RiscAssembler.Proofs.Assembly.Image
import RiscAssembler.Proofs.Assembly.Layout
import RiscAssembler.Proofs.Assembly.LetterCase
import RiscAssembler.Proofs.Assembly.Radix
import RiscAssembler.Proofs.Assembly.Readback
import RiscAssembler.Proofs.CommandLine.DefaultRun
import RiscAssembler.Proofs.CommandLine.Products
import RiscAssembler.Proofs.Dump.Reading
import RiscAssembler.Proofs.Excerpt.Alignment
import RiscAssembler.Proofs.Instruction.Grammar
import RiscAssembler.Proofs.Machine.UpperFloat
import RiscAssembler.Proofs.Machine.Verdict
import RiscAssembler.Proofs.Positional.Assembly
import RiscAssembler.Proofs.Session.Log
import RiscAssembler.Proofs.Token.Progress
import RiscAssembler.Proofs.Token.Spaced
import RiscAssembler.Proofs.Token.Stepping
import RiscAssembler.Session
