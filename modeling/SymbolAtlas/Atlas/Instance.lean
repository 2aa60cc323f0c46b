import SymbolAtlas.Atlas.Ancestry
import SymbolAtlas.Atlas.Filing
import SymbolAtlas.Signature.Substitution

/-!
# Template instances

An instance of a template is a class of its own, with the members and bases of the template in which
actual arguments stand for the formal parameters. Instances are found again by their arguments in
canonical spacing, and point at a template, never at another instance.
-/

set_option autoImplicit false

namespace SymbolAtlas

/-- What a template and its arguments are replaced by in text. -/
structure Instantiation where
  formals : List Argument
  actuals : List Argument

namespace Instantiation

/-- The text with the formal parameters replaced. -/
def apply (i : Instantiation) (text : String) : String :=
  substitute text i.formals i.actuals

/-- The copy of a member for an instance. The parameters are replaced in its type and arguments, and
in the name of a conversion operator. -/
def copyMember (i : Instantiation) (source : MemberId) (m : Member) : Member :=
  { m with
    typeText := i.apply m.typeText
    argsText := i.apply m.argsText
    signature := { m.signature with
      arguments := m.signature.arguments.map fun a => { a with typeText := i.apply a.typeText } }
    name := if "operator ".toList.isPrefixOf m.name.toList then i.apply m.name else m.name
    templateMaster := some source
    category := none
    categoryRelation := none }

end Instantiation

namespace Atlas

/-- The template that a class is an instance of, or the class itself. -/
def genericOf (a : Atlas) (id : EntityId) : EntityId :=
  ((a.class? id).bind (·.templateMaster)).getD id

/-- Declares the formal parameters of a class. -/
def setFormals (a : Atlas) (id : EntityId) (formals : List String) : Except Fault Atlas := do
  let _ ← a.requireClass id
  return a.modifyClass id fun c =>
    { c with formals := formals.map fun text => Argument.readFormal text.toList }

/-- The instantiation of a template with arguments. -/
def instantiation (a : Atlas) (generic : EntityId) (spec : String) : Instantiation where
  formals := ((a.class? generic).map (·.formals)).getD []
  actuals := (Signature.readTemplateArguments spec).arguments

/-- The members that a class declares itself, in the order of its roster. -/
def ownMembers (a : Atlas) (id : EntityId) : List MemberId :=
  match a.class? id with
  | none => []
  | some c => (c.roster.views.filter fun v => !v.isInherited).map (·.member)

/-- Copies a member of a template into an instance and files the copy. -/
def copyIntoInstance (i : Instantiation) (instanceId : EntityId) (a : Atlas) (source : MemberId) :
    Noted Atlas :=
  match a.member? source with
  | none => pure a
  | some m =>
    let (a, id) := a.addMember (some instanceId) (i.copyMember source m)
    a.fileInClass instanceId id m.protection true

/-- Copies the members that a template declares into an instance. -/
def copyMembers (a : Atlas) (instanceId generic : EntityId) (spec : String) : Noted Atlas :=
  (a.ownMembers generic).foldlM (copyIntoInstance (a.instantiation generic spec) instanceId) a

/-- The atlas with an instance of a template that has neither members nor bases. It stands in the
scope of the template. -/
def withInstance (a : Atlas) (generic : EntityId) (master : Entity) (key : String) : Atlas :=
  let id := EntityId.ofSlot a.entities.size
  let a := (a.allocate (Text.normalized (master.localName ++ key)) master.kind master.location).1
  let a := a.modifyEntity id fun e =>
    { e with
      language := master.language
      outer := master.outer
      flags.isHidden := master.flags.isHidden
      flags.isArtificial := master.flags.isArtificial }
  let a := a.modifyClass id fun c => { c with templateMaster := some generic }
  a.modifyClass generic fun c => { c with instances := c.instances.insert key id }

/-- Adds an instance of a template, without bases. -/
def addInstance (a : Atlas) (generic : EntityId) (master : Entity) (key : String) :
    Noted (Atlas × EntityId) := do
  let id := EntityId.ofSlot a.entities.size
  return (← (a.withInstance generic master key).copyMembers id generic key, id)

/-- The instance of a template with arguments; if there is none, it is added, and `finish` is to
give it its bases. The result also says whether it was added. -/
def instanceWith (finish : Atlas → (instanceId generic : EntityId) → String → Noted Atlas)
    (a : Atlas) (template : EntityId) (spec : String) : Noted (Atlas × EntityId × Bool) := do
  let generic := a.genericOf template
  let key := Text.normalized spec
  match (a.class? generic).bind (·.instances.get? key), a.entity? generic with
  | some id, _ => return (a, id, false)
  | none, none => return (a, generic, false)
  | none, some master =>
    let (a, id) ← a.addInstance generic master key
    return (← finish a id generic key, id, true)

/-- Whether a base is a template, and to be replaced by an instance of it. -/
def isNested (a : Atlas) (i : Instantiation) (edge : BaseEdge) : Bool :=
  i.apply edge.templateSpec != "" && (a.class? edge.target).any (·.isTemplate)

/-- Gives an instance one base of its template. A base that is a template itself is replaced by its
instance, which `nested` finds or adds. -/
def instantiateBase (nested : Atlas → EntityId → String → Noted (Atlas × EntityId × Bool))
    (i : Instantiation) (instanceId : EntityId) (a : Atlas) (edge : BaseEdge) : Noted Atlas := do
  let templateSpec := i.apply edge.templateSpec
  if a.isNested i edge then
    let (a, target, _) ← nested a edge.target templateSpec
    a.linkBase instanceId { edge with target, templateSpec }
  else a.linkBase instanceId { edge with templateSpec }

/-- Gives an instance the bases of its template. -/
def instantiateBases (nested : Atlas → EntityId → String → Noted (Atlas × EntityId × Bool))
    (a : Atlas) (instanceId generic : EntityId) (key : String) : Noted Atlas :=
  (a.bases generic).foldlM (instantiateBase nested (a.instantiation generic key) instanceId) a

/-- The instance of a template with arguments, found or added. Bases that are templates are
instantiated in turn, as many levels deep as are given. -/
def instanceWithin : Nat → Atlas → EntityId → String → Noted (Atlas × EntityId × Bool)
  | 0 => instanceWith fun a id _ _ => do
    .give (.instantiationTooDeep (a.name id))
    return a
  | levels + 1 => instanceWith (instantiateBases (instanceWithin levels))

/-- How many levels deep instances of templates are nested: as deep as inheritance may be, and 256
levels if there is no bound on that. -/
def instantiationLimit (options : Options) : Nat :=
  if options.maxInheritanceDepth = 0 then 256 else options.maxInheritanceDepth

/-- The instance of a template with arguments, and whether it was added. An instance in the place of
the template stands for its own template. -/
def instantiate (a : Atlas) (template : EntityId) (spec : String) :
    Except Fault (Noted (Atlas × EntityId × Bool)) := do
  let _ ← a.requireClass template
  return instanceWithin (instantiationLimit a.options) a template spec

/-- The location given to instances that are made for variables. -/
def codeLocation : Location :=
  { file := "<code>", line := 1, column := 1 }

/-- The atlas with a class for the instance of a variable, which has no members yet. -/
def placeVariable (a : Atlas) (master : Entity) (key : String) : Atlas :=
  (a.allocate (Text.normalized (master.name ++ key)) .classKind codeLocation).1.modifyEntity
    (.ofSlot a.entities.size) fun e => { e with language := master.language }

/-- The atlas with the instance of a variable listed. -/
def listVariable (a : Atlas) (id generic : EntityId) (key : String) : Atlas :=
  (a.modifyClass id fun c => { c with templateMaster := some generic }).modifyClass generic fun c =>
    { c with variableInstances := c.variableInstances.insert key id }

/-- The instance of a template that a variable has as its type, found or added. Such instances are
not listed among the instances of the template and have no bases. -/
def instantiateVariable (a : Atlas) (template : EntityId) (spec : String) :
    Except Fault (Noted (Atlas × EntityId)) := do
  let _ ← a.requireClass template
  let generic := a.genericOf template
  let key := Text.normalized spec
  let c ← a.requireClass generic
  match c.variableInstances.get? key with
  | some id => return pure (a, id)
  | none =>
    let master ← a.requireEntity generic
    let id := EntityId.ofSlot a.entities.size
    return do
      let a ← (a.placeVariable master key).copyMembers id generic key
      return (a.listVariable id generic key, id)

end Atlas

end SymbolAtlas
