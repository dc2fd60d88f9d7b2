import CachedCalls.Text.Blank
import CachedCalls.Text.Letters
import CachedCalls.Text.Casing
import CachedCalls.Text.Search
import CachedCalls.Value.Text
import CachedCalls.Value.Read
import CachedCalls.Method.Hierarchy
import CachedCalls.Expr.Query
import CachedCalls.Operation.Draft
import CachedCalls.Key
import CachedCalls.Manager.Step
import CachedCalls.Session.Step
import CachedCalls.Settings.Value
import CachedCalls.Settings.Load
import CachedCalls.Settings.LogLevel
import CachedCalls.Cache.Race
import CachedCalls.Proofs.Association
import CachedCalls.Proofs.Operation.Identity
import CachedCalls.Proofs.Manager.Stable
import CachedCalls.Proofs.Cache.SingleFlight
import CachedCalls.Proofs.Cache.Agreement
import CachedCalls.Proofs.Cache.Leftovers
import CachedCalls.Proofs.Source.Lookups
import CachedCalls.Proofs.Session.FinalStore
import CachedCalls.Proofs.Session.Synchronized
import CachedCalls.Proofs.Execution.Raise
import CachedCalls.Proofs.Execution.Stepwise
import CachedCalls.Proofs.Execution.FailFast
import CachedCalls.Proofs.Execution.Forgiving
import CachedCalls.Proofs.Execution.Unusable
import CachedCalls.Proofs.Execution.Blind
import CachedCalls.Proofs.Session.Binding
import CachedCalls.Proofs.Session.Misconfigured
import CachedCalls.Proofs.Session.Searching
import CachedCalls.Proofs.Session.ReadThrough
import CachedCalls.Proofs.Session.Memos
import CachedCalls.Proofs.Session.Clearing
import CachedCalls.Proofs.Session.Immediate
import CachedCalls.Proofs.Key.Zeros
import CachedCalls.Proofs.Execution.DefaultKey
import CachedCalls.Proofs.Expr.Grammar
import CachedCalls.Proofs.Expr.Accepted
import CachedCalls.Proofs.Expr.Derived
import CachedCalls.Proofs.Cache.Nested
import CachedCalls.Proofs.Cache.Nulls
import CachedCalls.Proofs.Cache.Defaults
import CachedCalls.Proofs.Cache.Interchange
import CachedCalls.Proofs.Source.Fitting
import CachedCalls.Proofs.Source.Precedence
import CachedCalls.Proofs.Expr.Transparent
import CachedCalls.Proofs.Expr.Comparison
import CachedCalls.Proofs.Execution.Varargs
import CachedCalls.Proofs.Source.RootClass
import CachedCalls.Proofs.Expr.Spelling
import CachedCalls.Proofs.Expr.Faults
import CachedCalls.Proofs.Operation.LastSetting
import CachedCalls.Proofs.Operation.Inheritance
import CachedCalls.Proofs.Operation.Blank
import CachedCalls.Proofs.Source.Declarations
import CachedCalls.Proofs.Manager.Configured
import CachedCalls.Proofs.Expr.WatchedEval
