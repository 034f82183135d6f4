import Scaffold.Log
import Scaffold.Main
import Scaffold.Proofs.Session.Journal
import Scaffold.Proofs.Tool.Effects
import Scaffold.Proofs.Engine.Effects
import Scaffold.Proofs.Runner.HoldingBack
import Scaffold.Proofs.Engine.Delivery
import Scaffold.Proofs.Runner.Deferral
import Scaffold.Proofs.Engine.Agreement
import Scaffold.Proofs.Runner.Transparency
import Scaffold.Proofs.Runner.Filling
import Scaffold.Proofs.Runner.Groups
import Scaffold.Proofs.Tree.Places
import Scaffold.Proofs.Pattern.Literal
import Scaffold.Proofs.Splice.Presence
import Scaffold.Proofs.Path.Names
import Scaffold.Proofs.Tool.Files
import Scaffold.Proofs.Tool.Repeats
import Scaffold.Proofs.Engine.Reports
import Scaffold.Proofs.Engine.Repetition
import Scaffold.Proofs.Resolver.Walks
import Scaffold.Proofs.Resolver.Directories
import Scaffold.Proofs.Resolver.Kits
import Scaffold.Proofs.Resolver.Accounts
import Scaffold.Proofs.Cli.Options
import Scaffold.Proofs.Shell.Quoting
import Scaffold.Proofs.Cli.Parameters
import Scaffold.Proofs.Cli.CommandLine
import Scaffold.Proofs.Cli.Rerun
import Scaffold.Proofs.Cli.Rewriting
import Scaffold.Proofs.Resolver.Groups
import Scaffold.Proofs.Engine.Shape
import Scaffold.Proofs.Engine.Containment
import Scaffold.Proofs.Engine.Admission
import Scaffold.Proofs.Runner.Phases
import Scaffold.Proofs.Generation.Limits
import Scaffold.Proofs.Transport.Outcomes
import Scaffold.Proofs.Answers.Handoff
import Scaffold.Proofs.Runner.Questions
import Scaffold.Proofs.Engine.DryRuns
import Scaffold.Proofs.Splice.Endings
import Scaffold.Proofs.Splice.Anchors
import Scaffold.Proofs.Tool.Failures
import Scaffold.Proofs.Engine.Validation
import Scaffold.Proofs.Engine.Scopes
import Scaffold.Proofs.Engine.Overrides
import Scaffold.Proofs.Recipe.Choices
import Scaffold.Proofs.Recipe.Bounds
import Scaffold.Proofs.Recipe.Integers
import Scaffold.Proofs.Answers.Structures
import Scaffold.Proofs.Generation.Wrapping
import Scaffold.Proofs.Runner.Loading
import Scaffold.Proofs.Endpoint.Replies
import Scaffold.Proofs.Check.Fence
import Scaffold.Proofs.Context.Packing
import Scaffold.Proofs.Context.Showing
import Scaffold.Proofs.Generation.Attempts
import Scaffold.Proofs.Check.Brackets
import Scaffold.Proofs.Template.Rendering
import Scaffold.Proofs.Check.Imports
import Scaffold.Proofs.Resolver.Cookbooks
import Scaffold.Proofs.Resolver.Listings
import Scaffold.Proofs.Recipe.Naming
import Scaffold.Proofs.Engine.Parameters
