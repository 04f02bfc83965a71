import MapStyling.Grammar.Rules
import MapStyling.Number.Literal

/-!
# Scenes

A scene as far as styling goes: its config tree and its functions.

Scalars of a config are kept as they are written. Whether one is a truth word
or a number is decided when it is read, by the grammar, and no scalar is both.

## Main definitions

* `SceneNode`: Config trees.
* `SceneNode.truth?`, `SceneNode.number?`: Readings of a scalar.
* `Scene`: An id, a config and function sources in order.
* `Scene.globals`: The subtree that scripts see.
-/

namespace MapStyling

/-- Config trees. The keys of a mapping are nodes, in the order in which they
    are written. -/
inductive SceneNode
  | null
  | scalar (text : String)
  | sequence (items : List SceneNode)
  | mapping (entries : List (SceneNode × SceneNode))

/-- Name of the config subtree that scripts see, and of the variable that holds
    it. -/
def globalName : String := "global"

namespace SceneNode

def isNull : SceneNode → Bool
  | null => true
  | _ => false

def scalar? : SceneNode → Option String
  | scalar s => some s
  | _ => none

/-- Value of the first entry of a mapping whose key is a given scalar. -/
def get? (n : SceneNode) (key : String) : Option SceneNode :=
  match n with
  | mapping entries => (entries.find? fun e => e.1.scalar? == some key).map Prod.snd
  | _ => none

/-- The truth value that a text spells, with spaces and tabs around it. -/
def truthOf? (s : String) : Option Bool :=
  match Grammar.RuleName.yamlBool.pattern.parse s.toList with
  | .ok (node :: _) => node.children.head?.map fun word => word.name = .trueWord
  | _ => none

/-- The number that a text spells, with spaces and tabs around it. -/
def numberOf? (s : String) : Option Float :=
  match Grammar.RuleName.numberLiteral.pattern.parse s.toList with
  | .ok _ => Literal.spelled? (Text.trim s.toList)
  | .error _ => none

/-- A scalar read as a truth value. -/
def truth? (n : SceneNode) : Option Bool :=
  n.scalar?.bind truthOf?

/-- A scalar read as a number. -/
def number? (n : SceneNode) : Option Float :=
  n.scalar?.bind numberOf?

@[simp] theorem truth?_scalar (s : String) : (scalar s).truth? = truthOf? s := Option.bind_some ..

@[simp] theorem number?_scalar (s : String) : (scalar s).number? = numberOf? s :=
  Option.bind_some ..

end SceneNode

/-- A loaded scene. -/
structure Scene where
  id : Int
  config : SceneNode
  functions : List String

namespace Scene

/-- The config subtree that scripts see. -/
def globals (s : Scene) : Option SceneNode :=
  s.config.get? globalName

/-- A scene under the next free id, and the id after it. -/
def fresh (next : Int) (config : SceneNode) (functions : List String) : Scene × Int :=
  (⟨next, config, functions⟩, next + 1)

end Scene

end MapStyling
