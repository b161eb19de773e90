import HookLabel.Tree.Number
import HookLabel.Tree.SourceOrder
import HookLabel.Session
import HookLabel.Proofs.Contexts
import HookLabel.Proofs.Wrapping
import HookLabel.Proofs.Labelling
import HookLabel.Proofs.Passes
import HookLabel.Proofs.HelperCalls
import HookLabel.Proofs.Runs
import HookLabel.Proofs.Composition
import HookLabel.Proofs.ImportOrder
import HookLabel.Proofs.Repetition
import HookLabel.Proofs.Accounts
import HookLabel.Proofs.Resolution
import HookLabel.Proofs.Renaming
import HookLabel.Proofs.EventOrder
import HookLabel.Proofs.Reordering
import HookLabel.Proofs.HelperImports
import HookLabel.Proofs.Lowering
import HookLabel.Proofs.NameDepths
import HookLabel.Proofs.JsonStrings
import HookLabel.Proofs.JsonGroups
import HookLabel.Proofs.ConfigTexts
import HookLabel.Proofs.LoweredDeclarations
import HookLabel.Proofs.JsonBeginnings
import HookLabel.Proofs.ConfigBeginnings
import HookLabel.Proofs.ConfigFaults
import HookLabel.Proofs.ImportedNames
import HookLabel.Proofs.WrappedTargets
import HookLabel.Proofs.StableContexts
import HookLabel.Proofs.FieldOrder
import HookLabel.Proofs.Sessions
import HookLabel.Proofs.ShortestDecimals
import HookLabel.Proofs.DecimalNotation
import HookLabel.Proofs.QuotedTexts
