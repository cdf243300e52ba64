import ScriptLint.Main
import ScriptLint.Tree.Places
import ScriptLint.Proofs.Code.Balance
import ScriptLint.Proofs.Code.Contents
import ScriptLint.Proofs.Code.Indentation
import ScriptLint.Proofs.Code.Statements
import ScriptLint.Proofs.Command.Contract
import ScriptLint.Proofs.Engine.Parents
import ScriptLint.Proofs.Engine.Stacks
import ScriptLint.Proofs.Engine.Visits
import ScriptLint.Proofs.Grammar.Faults
import ScriptLint.Proofs.Grammar.Levels
import ScriptLint.Proofs.Grammar.Registration
import ScriptLint.Proofs.Grammar.Templates
import ScriptLint.Proofs.Grammar.Transparency
import ScriptLint.Proofs.Report.Destination
import ScriptLint.Proofs.Report.Markup
import ScriptLint.Proofs.Report.Rows
import ScriptLint.Proofs.Report.ReadBack
import ScriptLint.Proofs.Rules.Independence
import ScriptLint.Proofs.Code.Counters
import ScriptLint.Proofs.Grammar.Height
import ScriptLint.Proofs.Rules.Ownership
import ScriptLint.Proofs.Config.Fields
import ScriptLint.Proofs.Config.Keys
