import SymbolAtlas.Atlas.Lookup
import SymbolAtlas.Atlas.Naming
import SymbolAtlas.Build.Basic
import SymbolAtlas.Json.Basic

/-!
# Results for other programs

The counters of a build, the roster of a class, its relations and the result of a lookup as JSON.
-/

set_option autoImplicit false

namespace SymbolAtlas.Report

/-- The counters of a merge. -/
def mergeData (m : Atlas.MergeCount) : Json :=
  .record [
    ("classes_merged", .nat m.classesMerged),
    ("inherited_entries", .nat m.inheritedEntries),
    ("ambiguous_entries", .nat m.ambiguousEntries)]

/-- The counters of a build. -/
def summaryData (s : Build.Summary) : Json :=
  .record [
    ("entities", .nat s.entities),
    ("artificial_scopes", .nat s.artificialScopes),
    ("members", .nat s.members),
    ("skipped_members", .nat s.skippedMembers),
    ("skipped_entities", .nat s.skippedEntities),
    ("base_edges", .nat s.baseEdges),
    ("unresolved_bases", .nat s.unresolvedBases),
    ("template_instances", .nat s.templateInstances),
    ("categories_merged", .nat s.categoriesMerged),
    ("unresolved_usings", .nat s.unresolvedUsings),
    ("merge", mergeData s.merge)]

/-- A view in a roster. The scope is given only for ambiguous names. -/
def viewData? (a : Atlas) (name : String) (view : View) : Option Json :=
  (a.member? view.member).map fun m =>
    .record (
      [("name", .str name),
        ("kind", .str m.kind.name),
        ("protection", .str view.protection.name),
        ("virtualness", .str view.virtualness.name),
        ("declared_in", .str ((m.owner.map a.name).getD "")),
        ("inherited", .bool view.isInherited)]
      ++ if view.isAmbiguous then [("ambiguity_scope", .str view.ambiguityScope)] else [])

/-- The roster of a class. -/
def membersData (a : Atlas) (id : EntityId) : Json :=
  match a.roster? id with
  | none => .array []
  | some roster =>
    .array (roster.toList.flatMap fun (name, views) => views.filterMap (viewData? a name))

/-- An edge between a class and one of its relations. -/
def edgeData (a : Atlas) (relation : String) (edge : BaseEdge) : Json :=
  .record [
    ("relation", .str relation),
    ("class", .str (a.name edge.target)),
    ("protection", .str edge.protection.name),
    ("virtualness", .str edge.virtualness.name),
    ("template_spec", .str edge.templateSpec),
    ("linkable", .bool (a.isLinkable edge.target))]

/-- The direct bases of a class and the classes derived from it. -/
def hierarchyData (a : Atlas) (id : EntityId) : Json :=
  .array ((a.bases id).map (edgeData a "base") ++ (a.derived id).map (edgeData a "derived"))

/-- A member that a lookup found. -/
structure Found where
  owner : String
  name : String
  args : String
  protection : Protection
  anchor : String
  anchorFile : String
deriving DecidableEq, Repr

namespace Found

/-- What is told about a member. -/
def ofMember (a : Atlas) (m : Member) (id : MemberId) : Found where
  owner := (m.owner.map a.name).getD ""
  name := m.name
  args := m.argsText
  protection := m.protection
  anchor := a.anchor id
  anchorFile := (m.owner.map fun owner => a.fileBase owner ++ a.options.htmlFileExtension).getD ""

/-- The member for other programs. -/
def data (f : Found) : Json :=
  .record [
    ("owner", .str f.owner),
    ("name", .str f.name),
    ("args", .str f.args),
    ("protection", .str f.protection.name),
    ("anchor", .str f.anchor),
    ("anchorfile", .str f.anchorFile)]

/-- The member for people. -/
def lines (f : Found) : List String :=
  [f.protection.name ++ " " ++ f.owner ++ "::" ++ f.name ++ f.args,
    "  " ++ f.anchorFile ++ "#" ++ f.anchor]

end Found

end SymbolAtlas.Report
