import BuildPath.Classpath.Basic
import BuildPath.Classpath.Resolver
import BuildPath.Glob.Matching
import BuildPath.Lazy.Value

/-!
# Views

A view describes the files of a classpath: those of a configuration, given files, and unions,
differences and selections of other views. It is plain data; composing it gives a lazy classpath,
and nothing is read before that is evaluated.
-/

namespace BuildPath

/-- A description of files. -/
inductive View
  /-- The effective dependencies of a configuration, resolved. -/
  | configuration (name : String)
  | files (set : FileSet)
  | union (views : List View)
  /-- The files of the first view that are not in the second. -/
  | minus (base subtrahend : View)
  | filter (view : View) (keeps : Path → Bool)

instance : Nameable Classpath := ⟨"kasane::composer::Classpath"⟩

namespace View

/-- The union with one more view, which joins the members of a union on the left. -/
def plus : View → View → View
  | .union views, other => .union (views ++ [other])
  | view, other => .union [view, other]

/-- The files of a view whose text matches a pattern. -/
def matching (view : View) (pattern : String) : Outcome View :=
  match Glob.Pattern.parse pattern with
  | .error fault => .error (.pattern fault)
  | .ok parsed => .ok (.filter view fun path => parsed.accepts path.text)

mutual

/-- The text of a view. -/
def display : View → String
  | .configuration name => name
  | .files set => set.display
  | .union views => "(" ++ " + ".intercalate (displayEach views) ++ ")"
  | .minus base subtrahend => "(" ++ base.display ++ " - " ++ subtrahend.display ++ ")"
  | .filter view _ => "filter(" ++ view.display ++ ")"

/-- The texts of the members of a union. -/
def displayEach : List View → List String
  | [] => []
  | view :: views => view.display :: displayEach views

end

/-- How a view is shown. -/
def shown (view : View) : String :=
  Text.variant "ConfigurationView" view.display

/-- The files of a configuration: those of its effective dependencies, normalized, in order. -/
def configurationFiles (resolver : Resolver) (name : String) : Computation (List Path) := do
  let dependencies ← Computation.request (.dependencies name)
  let excludes ← Computation.request (.excludes name)
  let tree ← Computation.request .files
  let resolved ← dependencies.mapM fun dependency => resolver tree dependency excludes
  return Ordered.distinctBy Path.components (resolved.flatten.map Path.normalize)

mutual

/-- The files of a view. Members of a union and both sides of a difference are read in order. -/
def evaluate (settings : Settings) (resolver : Resolver) : View → Computation (List Path)
  | .configuration name => configurationFiles resolver name
  | .files set => do
    let tree ← Computation.request .files
    set.resolve tree settings.projectDirectory
  | .union views => do
    let members ← evaluateEach settings resolver views
    return Ordered.distinctBy Path.components members
  | .minus base subtrahend => do
    let files ← base.evaluate settings resolver
    let removed ← subtrahend.evaluate settings resolver
    let unwanted := removed.map Path.components
    return files.filter fun path => !unwanted.contains path.components
  | .filter view keeps => do
    let files ← view.evaluate settings resolver
    return files.filter keeps

/-- The files of the members of a union, one after the other. -/
def evaluateEach (settings : Settings) (resolver : Resolver) :
    List View → Computation (List Path)
  | [] => return []
  | view :: views => do
    let first ← view.evaluate settings resolver
    let rest ← evaluateEach settings resolver views
    return first ++ rest

end

/-- The classpath of a view. -/
def compose (settings : Settings) (resolver : Resolver) (view : View) : LazyValue Classpath :=
  (LazyValue.ofComputation do return [⟨← view.evaluate settings resolver⟩]).describe
    ("classpath " ++ view.display)

end View

end BuildPath
