import BuildPath.Graph.Diagram
import BuildPath.Proofs.Classpath.Algebra
import BuildPath.Proofs.Session.Effective
import BuildPath.Proofs.Session.Room
import BuildPath.Proofs.Session.Freezing
import BuildPath.Proofs.Declaration.Leaves
import BuildPath.Proofs.Graph.Collecting
import BuildPath.Proofs.Session.Parsing
import BuildPath.Proofs.Session.Collecting
import BuildPath.Proofs.Declaration.Grammar
import BuildPath.Proofs.Manifest.Apply
import BuildPath.Proofs.Path.Append
import BuildPath.Proofs.Classpath.Resolving
import BuildPath.Proofs.Graph.Convention
import BuildPath.Proofs.Session.WebArchive
import BuildPath.Proofs.Session.Locality
import BuildPath.Proofs.Session.Rejection
import BuildPath.Proofs.Session.Counting
import BuildPath.Proofs.Manifest.Building
import BuildPath.Proofs.Manifest.Repeating
import BuildPath.Proofs.Declaration.Display
import BuildPath.Proofs.Declaration.Spelling
import BuildPath.Proofs.Session.Nesting
import BuildPath.Proofs.Path.Canonical
import BuildPath.Proofs.Graph.Publishing
import BuildPath.Proofs.Classpath.Repository
import BuildPath.Proofs.Glob.Containment
import BuildPath.Proofs.Lazy.Expression
import BuildPath.Proofs.Session.LinkOrder
import BuildPath.Proofs.Lazy.Missing
import BuildPath.Proofs.Session.Publishing
import BuildPath.Proofs.Session.Convention
import BuildPath.Proofs.Classpath.Placement
import BuildPath.Proofs.Graph.Preorder
import BuildPath.Proofs.Classpath.Fingerprint
