import SymbolAtlas.Atlas.Basic
import SymbolAtlas.Graph.DepthFirst
import SymbolAtlas.Graph.Trail

/-!
# Using relations and resolution of names

A namespace can use other namespaces and single declarations of others. Closing a namespace takes
over what the namespaces it uses use in turn.

A name in a declaration is relative to the scope it is written in. It is looked for in the enclosing
scopes from the inside out, then globally, then in the namespaces that the enclosing ones use.
-/

set_option autoImplicit false

namespace SymbolAtlas.Atlas

/-! ## Using relations -/

/-- Lets a namespace use another one, under its name. A name that is used already and a namespace
that is to use itself are passed over. -/
def useNamespace (a : Atlas) (id target : EntityId) : Except Fault Atlas := do
  let _ ← a.requireNamespace id
  let _ ← a.requireNamespace target
  if id = target then return a
  else
    return a.modifyNamespace id fun n =>
      { n with usingDirectives := n.usingDirectives.insertNew (a.name target) target }

/-- Lets a namespace use a declaration under a name that is not used already. -/
def useDeclaration (a : Atlas) (id : EntityId) (name : String) (target : UsingTarget) :
    Except Fault Atlas := do
  let _ ← a.requireNamespace id
  return a.modifyNamespace id fun n =>
    { n with usingDeclarations := n.usingDeclarations.insertNew name target }

/-- The namespaces that a namespace uses, by name. -/
def directives (a : Atlas) (id : EntityId) : Dict EntityId :=
  ((a.namespace? id).map (·.usingDirectives)).getD .empty

/-- The declarations that a namespace uses, by name. -/
def declarations (a : Atlas) (id : EntityId) : Dict UsingTarget :=
  ((a.namespace? id).map (·.usingDeclarations)).getD .empty

/-- The namespaces that a namespace uses, in the order of their names. -/
def usedNamespaces (a : Atlas) (id : EntityId) : List EntityId :=
  (a.directives id).values

/-- The declarations that a namespace uses, in the order of their names. -/
def usedDeclarations (a : Atlas) (id : EntityId) : List (String × UsingTarget) :=
  (a.declarations id).toList

/-- The graph of used namespaces. -/
def usingGraph (a : Atlas) : Graph EntityId where
  nodes := a.entityNumbers
  next := a.usedNamespaces

/-- Whether an entity is a namespace that has not been closed. -/
def isOpen (a : Atlas) (id : EntityId) : Bool :=
  (a.namespace? id).any fun n => !n.isClosed

/-- The open namespaces that a namespace uses, directly or indirectly, and the namespace itself,
used ones first. -/
def usingOrder (a : Atlas) (id : EntityId) : List EntityId :=
  Graph.finished (a.usingGraph.steps { key := EntityId.slot, admits := a.isOpen } id)

/-- What the used namespaces bring of used namespaces. -/
def broughtDirectives (a : Atlas) (id : EntityId) : List (String × EntityId) :=
  ((a.usedNamespaces id).flatMap fun v => (a.directives v).toList).filter
    fun entry => entry.2 ≠ id

/-- What the used namespaces bring of used declarations. -/
def broughtDeclarations (a : Atlas) (id : EntityId) : List (String × UsingTarget) :=
  (a.usedNamespaces id).flatMap fun v => (a.declarations v).toList

/-- Takes over what the namespaces that a namespace uses use themselves. -/
def absorbUsed (a : Atlas) (id : EntityId) : Atlas :=
  a.modifyNamespace id fun n =>
    { n with
      usingDirectives := (a.broughtDirectives id).foldl
        (fun d (name, target) => d.insertNew name target) n.usingDirectives
      usingDeclarations := (a.broughtDeclarations id).foldl
        (fun d (name, target) => d.insertNew name target) n.usingDeclarations }

/-- Marks a namespace as closed. -/
def markClosed (a : Atlas) (id : EntityId) : Atlas :=
  a.modifyNamespace id fun n => { n with isClosed := true }

/-- Closes a namespace and the open ones that it uses. A closed namespace is left as it is. -/
def closeFrom (a : Atlas) (id : EntityId) : Atlas :=
  if a.isOpen id then
    let order := a.usingOrder id
    order.foldl absorbUsed (order.foldl markClosed a)
  else a

/-- Closes a namespace and the open ones that it uses. -/
def closeUsing (a : Atlas) (id : EntityId) : Except Fault Atlas := do
  let _ ← a.requireNamespace id
  return a.closeFrom id

/-- Closes all namespaces. -/
def closeAllUsing (a : Atlas) : Atlas :=
  a.namespaceIds.foldl closeFrom a

/-! ## Resolution of names -/

/-- The graph that leads from an entity to the scope around it. -/
def scopeGraph (a : Atlas) : Graph EntityId where
  nodes := a.entityNumbers
  next id := ((a.entity? id).bind (·.outer)).toList

/-- A scope and the scopes around it, innermost first. -/
def scopeChain (a : Atlas) (scope : Option EntityId) : List EntityId :=
  match scope with
  | none => []
  | some id => (a.scopeGraph.trail .oldestFirst 0 id).map (·.1)

/-- The entity registered under a name, if it is acceptable. -/
def findAccepted? (a : Atlas) (accept : Entity → Bool) (name : String) : Option EntityId :=
  (a.find? name).filter fun id => (a.entity? id).any accept

/-- The acceptable entity that a name written in a scope refers to. A name that begins with two
colons is global. -/
def resolve? (a : Atlas) (scope : Option EntityId) (name : String) (accept : Entity → Bool) :
    Option EntityId :=
  let name := Text.trimmed name
  let find := a.findAccepted? accept
  let findIn (scope : EntityId) := find (QualifiedName.inScope (a.name scope) name)
  match Text.after? [':', ':'] name.toList with
  | some rest => find (String.ofList rest)
  | none =>
    let chain := a.scopeChain scope
    (chain.findSome? findIn).or
      ((find name).or ((chain.flatMap a.usedNamespaces).findSome? findIn))

end SymbolAtlas.Atlas
