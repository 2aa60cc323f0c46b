import SymbolAtlas.Atlas.Lookup
import SymbolAtlas.Build.Basic
import SymbolAtlas.Report.Grid

/-!
# Tables about an atlas
-/

set_option autoImplicit false

namespace SymbolAtlas.Report

/-- The counters of a build. -/
def summaryTable (s : Build.Summary) : Grid where
  headers := some ["Metric", "Value"]
  rows := [
    ["Entities", toString s.entities],
    ["Artificial scopes", toString s.artificialScopes],
    ["Members", toString s.members],
    ["Base edges", toString s.baseEdges],
    ["Template instances", toString s.templateInstances],
    ["Categories merged", toString s.categoriesMerged],
    ["Classes merged", toString s.merge.classesMerged],
    ["Inherited entries", toString s.merge.inheritedEntries],
    ["Ambiguous entries", toString s.merge.ambiguousEntries],
    ["Unresolved bases", toString s.unresolvedBases],
    ["Unresolved usings", toString s.unresolvedUsings],
    ["Skipped entities", toString s.skippedEntities],
    ["Skipped members", toString s.skippedMembers]]

/-- The row of a view in the table of members. -/
def viewRow? (a : Atlas) (name : String) (view : View) : Option (List String) :=
  (a.member? view.member).map fun m =>
    [name ++ m.argsText, m.kind.name, view.protection.name, view.virtualness.name,
      (m.owner.map a.name).getD "",
      if view.isAmbiguous then view.ambiguityScope ++ name else ""]

/-- The roster of a class. -/
def membersTable (a : Atlas) (id : EntityId) : Grid where
  headers := some ["Member", "Kind", "Protection", "Virtualness", "Declared in", "Ambiguity"]
  rows :=
    match a.roster? id with
    | none => []
    | some roster => roster.toList.flatMap fun (name, views) => views.filterMap (viewRow? a name)

/-- The row of an edge in the table of relations. -/
def edgeRow (a : Atlas) (relation : String) (edge : BaseEdge) : List String :=
  [relation, a.name edge.target, edge.protection.name, edge.virtualness.name, edge.templateSpec]

/-- The direct bases of a class and the classes derived from it. -/
def hierarchyTable (a : Atlas) (id : EntityId) : Grid where
  headers := some ["Relation", "Class", "Protection", "Virtualness", "Template"]
  rows := (a.bases id).map (edgeRow a "base") ++ (a.derived id).map (edgeRow a "derived")

end SymbolAtlas.Report
