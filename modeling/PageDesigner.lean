import PageDesigner.Component.Classes
import PageDesigner.Component.Escape
import PageDesigner.Component.Lines
import PageDesigner.Component.Margin
import PageDesigner.Component.Markup
import PageDesigner.Component.Module
import PageDesigner.Component.Name
import PageDesigner.Component.Options
import PageDesigner.Component.Scale
import PageDesigner.Component.Tag
import PageDesigner.Component.View
import PageDesigner.Component.Words
import PageDesigner.Decimal.Positional
import PageDesigner.Decimal.Shortest
import PageDesigner.Document.Layout
import PageDesigner.Document.Node
import PageDesigner.Document.Project
import PageDesigner.Document.Styles
import PageDesigner.Editor.Command
import PageDesigner.Editor.Execution
import PageDesigner.Editor.History
import PageDesigner.Editor.Listeners
import PageDesigner.Editor.Rejection
import PageDesigner.Editor.Session
import PageDesigner.Editor.Subscription
import PageDesigner.Editor.Transition
import PageDesigner.Editor.Workspace
import PageDesigner.Exchange.Command
import PageDesigner.Exchange.Layout
import PageDesigner.Exchange.Node
import PageDesigner.Exchange.Options
import PageDesigner.Exchange.Project
import PageDesigner.Exchange.Schema
import PageDesigner.Exchange.Styles
import PageDesigner.Identity.Source
import PageDesigner.Json.Basic
import PageDesigner.Json.Literal
import PageDesigner.Json.Reader
import PageDesigner.Json.Record
import PageDesigner.Json.Token
import PageDesigner.Proofs.Component.Classes
import PageDesigner.Proofs.Component.Escape
import PageDesigner.Proofs.Component.Identifier
import PageDesigner.Proofs.Component.Lines
import PageDesigner.Proofs.Component.Locality
import PageDesigner.Proofs.Component.Margin
import PageDesigner.Proofs.Component.Markup
import PageDesigner.Proofs.Component.Name
import PageDesigner.Proofs.Component.Scale
import PageDesigner.Proofs.Component.Words
import PageDesigner.Proofs.Decimal.Positional
import PageDesigner.Proofs.Decimal.Reading
import PageDesigner.Proofs.Decimal.Shortest
import PageDesigner.Proofs.Decimal.Text
import PageDesigner.Proofs.Double.Comparison
import PageDesigner.Proofs.Editor.Accounting
import PageDesigner.Proofs.Editor.Addition
import PageDesigner.Proofs.Editor.Atomicity
import PageDesigner.Proofs.Editor.Collaboration
import PageDesigner.Proofs.Editor.Commit
import PageDesigner.Proofs.Editor.Consistency
import PageDesigner.Proofs.Editor.Execution
import PageDesigner.Proofs.Editor.Frame
import PageDesigner.Proofs.Editor.Guards
import PageDesigner.Proofs.Editor.History
import PageDesigner.Proofs.Editor.Isolation
import PageDesigner.Proofs.Editor.Minting
import PageDesigner.Proofs.Editor.NodeCommand
import PageDesigner.Proofs.Editor.Observers
import PageDesigner.Proofs.Editor.Seeds
import PageDesigner.Proofs.Editor.Selection
import PageDesigner.Proofs.Editor.StoredIds
import PageDesigner.Proofs.Editor.UniqueIds
import PageDesigner.Proofs.Exchange.KnownKeys
import PageDesigner.Proofs.Exchange.Layout
import PageDesigner.Proofs.Exchange.Node
import PageDesigner.Proofs.Exchange.RoundTrip
import PageDesigner.Proofs.Exchange.Schema
import PageDesigner.Proofs.Identity.Source
import PageDesigner.Proofs.Json.Agreement
import PageDesigner.Proofs.Json.Record
import PageDesigner.Proofs.Tree.Deletion
import PageDesigner.Proofs.Tree.DistinctIds
import PageDesigner.Proofs.Tree.Edit
import PageDesigner.Proofs.Tree.FirstMatch
import PageDesigner.Proofs.Tree.Independence
import PageDesigner.Proofs.Tree.Insertion
import PageDesigner.Proofs.Tree.Order
import PageDesigner.Proofs.Tree.Place
import PageDesigner.Proofs.Tree.Removal
import PageDesigner.Proofs.Tree.Restyle
import PageDesigner.Proofs.Tree.Sweep
import PageDesigner.Proofs.Tree.Walker
import PageDesigner.Tree.Edit
import PageDesigner.Tree.Lineage
import PageDesigner.Tree.Order
import PageDesigner.Tree.Place
import PageDesigner.Tree.Restyle
import PageDesigner.Tree.Walker
