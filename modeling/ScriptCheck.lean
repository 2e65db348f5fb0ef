import ScriptCheck.Proofs.Analysis.Contexts
import ScriptCheck.Proofs.Analysis.FirstDeclaration
import ScriptCheck.Proofs.Analysis.Footprint
import ScriptCheck.Proofs.Analysis.Levels
import ScriptCheck.Proofs.Analysis.Strictness
import ScriptCheck.Proofs.Class.Instances
import ScriptCheck.Proofs.Class.Spelling
import ScriptCheck.Proofs.Class.UnknownConstant
import ScriptCheck.Proofs.Descriptor.Principal
import ScriptCheck.Proofs.Descriptor.Reading
import ScriptCheck.Proofs.Descriptor.Sharing
import ScriptCheck.Proofs.Expression.Arity
import ScriptCheck.Proofs.Expression.Grouping
import ScriptCheck.Proofs.Flow.Contracts
import ScriptCheck.Proofs.Flow.Precision
import ScriptCheck.Proofs.Raises.Calls
import ScriptCheck.Proofs.Recovery.Stmt
import ScriptCheck.Proofs.Report.Caret
import ScriptCheck.Proofs.Report.Placement
import ScriptCheck.Proofs.Statement.Reading
import ScriptCheck.Proofs.Syntax.ArgumentLists
import ScriptCheck.Proofs.Syntax.Passes
import ScriptCheck.Proofs.Token.StringLiterals
import ScriptCheck.Proofs.Unreachable.Exactness
