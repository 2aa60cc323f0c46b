import Mathlib.Data.List.Perm.Subperm
import SymbolAtlas.Proofs.Atlas.Integrity
import SymbolAtlas.Proofs.Atlas.Sections
import SymbolAtlas.Proofs.Graph.Coverage

/-!
# Publishing from inline namespaces

A member of an inline namespace is also one of the namespace around it, and so on outwards, until a
namespace is not inline or stands in none that is new. The member is posted once in each of these
namespaces, and no other entity is touched.
-/

set_option autoImplicit false

namespace SymbolAtlas

variable {x n : EntityId} {ids : List EntityId}

/-! ## Trails visit nothing twice -/

namespace Graph

variable {α : Type} [DecidableEq α] {g : Graph α} {turn : Turn} {limit : Nat}
variable {waiting : List (α × Nat)} {seen : List α}

theorem nodup_fresh (candidates : List α) : (g.fresh seen candidates).Nodup := by
  induction candidates generalizing seen with
  | nil => exact List.nodup_nil
  | cons x rest ih =>
    unfold fresh
    split
    · exact List.nodup_cons.mpr ⟨fun hx => (mem_fresh_iff.mp hx).2.2 List.mem_cons_self, ih⟩
    · exact ih

theorem nodup_met (node : α) (depth : Nat) : (g.met limit seen node depth).Nodup := by
  unfold met
  split
  · exact List.nodup_nil
  · exact nodup_fresh _

theorem enqueue_perm {β : Type} (turn : Turn) (waiting new : List β) :
    (enqueue turn waiting new).Perm (waiting ++ new) := by
  cases turn with
  | oldestFirst => exact .refl _
  | newestFirst => exact ((List.reverse_perm new).append_right _).trans List.perm_append_comm

theorem mem_waiting_or_notMem_seen {w : α × Nat} (hw : w ∈ g.trailFrom turn limit waiting seen) :
    w ∈ waiting ∨ w.1 ∉ seen := by
  fun_induction g.trailFrom turn limit waiting seen with
  | case1 => exact .inl hw
  | case2 seen node depth waiting new ih =>
    rcases List.mem_cons.mp hw with rfl | hw
    · exact .inl List.mem_cons_self
    · rcases ih hw with hw | hw
      · rcases mem_enqueue.mp hw with hw | hw
        · exact .inl (List.mem_cons_of_mem _ hw)
        · obtain ⟨x, hx, rfl⟩ := List.mem_map.mp hw
          exact .inr (mem_met_iff.mp hx).2.2.2
      · exact .inr fun hseen => hw (List.mem_append_right _ hseen)

theorem nodup_trailFrom (hnodup : (waiting.map (·.1)).Nodup) (hseen : ∀ w ∈ waiting, w.1 ∈ seen) :
    ((g.trailFrom turn limit waiting seen).map (·.1)).Nodup := by
  fun_induction g.trailFrom turn limit waiting seen with
  | case1 => exact hnodup
  | case2 seen node depth waiting new ih =>
    rw [List.map_cons, List.nodup_cons] at hnodup
    rw [List.forall_mem_cons] at hseen
    have hmet (x : α) (hx : x ∈ new) : x ∉ seen := (mem_met_iff.mp hx).2.2.2
    have hqueue : ((enqueue turn waiting (new.map fun x => (x, depth + 1))).map (·.1)).Perm
        (waiting.map (·.1) ++ new) := by
      simpa [Function.comp_def] using
        (enqueue_perm turn waiting (new.map fun x => (x, depth + 1))).map (·.1)
    refine List.nodup_cons.mpr ⟨fun hnode => ?_, ih (hqueue.nodup_iff.mpr ?_) fun w hw => ?_⟩
    · obtain ⟨w, hw, rfl⟩ := List.mem_map.mp hnode
      rcases mem_waiting_or_notMem_seen hw with hw | hw
      · rcases List.mem_append.mp (hqueue.mem_iff.mp (List.mem_map_of_mem hw)) with hw | hw
        · exact hnodup.1 hw
        · exact hmet _ hw hseen.1
      · exact hw (List.mem_append_right _ hseen.1)
    · refine List.nodup_append.mpr ⟨hnodup.2, nodup_met node depth, fun x hx y hy => ?_⟩
      obtain ⟨w, hw, rfl⟩ := List.mem_map.mp hx
      rintro rfl
      exact hmet _ hy (hseen.2 w hw)
    · have hw' := hqueue.mem_iff.mp (List.mem_map_of_mem hw)
      rcases List.mem_append.mp hw' with hw' | hw'
      · obtain ⟨w', hw', heq⟩ := List.mem_map.mp hw'
        exact List.mem_append_right _ (heq ▸ hseen.2 w' hw')
      · exact List.mem_append_left _ (List.mem_reverse.mpr hw')

end Graph

/-! ## Posting a member -/

/-- The sections in which a namespace files members of a kind; none for kinds that it only lists by
name. -/
def MemberKind.namespaceSections (kind : MemberKind) : List Section :=
  match kind.namespaceTopic? with
  | some topic => [.namespaceDecls topic, .namespaceDocs topic]
  | none => []

/-- A namespace before and after a member is posted there. -/
structure Entity.Posts (e : Entity) (m : Member) (id : MemberId) (e' : Entity) : Prop where
  /-- The member comes last under its name; the namespace keeps all else. -/
  listed : ∃ n n', e.namespace? = some n ∧ e'.namespace? = some n' ∧
    (∀ key, n'.members.get? key =
      if key = m.name then some ((n.members.get? key).getD [] ++ [id]) else n.members.get? key) ∧
    { n' with members := n.members } = n
  /-- The member comes last in the sections for its kind, unless it is there already. -/
  filed : ∀ s ∈ m.kind.namespaceSections, e'.sections.get s =
    if id ∈ e.sections.get s then e.sections.get s else e.sections.get s ++ [id]
  unfiled : ∀ s, s ∉ m.kind.namespaceSections → e'.sections.get s = e.sections.get s
  others : { e' with sections := e.sections, body := e.body } = e

namespace Entity

variable (e : Entity) (m : Member) (id : MemberId)

theorem namespace?_posting : (e.posting m id).namespace? =
    e.namespace?.map fun n => { n with members := n.members.append m.name id } := by
  rw [← e.namespace?_modifyNamespace]
  unfold posting
  split <;> rfl

theorem sections_posting : (e.posting m id).sections =
    m.kind.namespaceSections.foldl (fun sections s => sections.file s id) e.sections := by
  have hsections : (e.modifyNamespace fun n =>
      { n with members := n.members.append m.name id }).sections = e.sections := by
    unfold modifyNamespace
    split <;> rfl
  unfold posting MemberKind.namespaceSections
  rw [← hsections]
  cases m.kind.namespaceTopic? <;> rfl

theorem posts_posting {n : NamespaceBody} (h : e.namespace? = some n) :
    e.Posts m id (e.posting m id) where
  listed := by
    refine ⟨n, { n with members := n.members.append m.name id }, h, ?_, fun key => ?_, rfl⟩
    · rw [namespace?_posting, h, Option.map_some]
    · rw [Dict.get?_append]
      by_cases hkey : key = m.name
      · simp [hkey]
      · simp [hkey]
  filed s hs := by
    rw [sections_posting]
    unfold MemberKind.namespaceSections at hs ⊢
    cases htopic : m.kind.namespaceTopic? with
    | none => simp [htopic] at hs
    | some topic =>
      have hs : s = .namespaceDecls topic ∨ s = .namespaceDocs topic := by simpa [htopic] using hs
      rcases hs with rfl | rfl
      · simp [SectionTable.get_file]
      · simp [SectionTable.get_file]
  unfiled s hs := by
    rw [sections_posting]
    unfold MemberKind.namespaceSections at hs ⊢
    cases htopic : m.kind.namespaceTopic? with
    | none => rfl
    | some topic =>
      have hs : s ≠ .namespaceDecls topic ∧ s ≠ .namespaceDocs topic := by simpa [htopic] using hs
      simp [SectionTable.get_file, hs.1, hs.2]
  others := by
    unfold posting modifyNamespace
    split <;> split <;> rfl

end Entity

namespace Atlas

variable {a : Atlas}

/-- Changing entities one after the other leaves the others alone. -/
theorem entity?_foldl_modifyEntity_of_forall_ne (f : Entity → Entity)
    (hne : ∀ id ∈ ids, id.slot ≠ x.slot) :
    (ids.foldl (fun b id => b.modifyEntity id f) a).entity? x = a.entity? x := by
  induction ids generalizing a with
  | nil => rfl
  | cons id ids ih =>
    rw [List.forall_mem_cons] at hne
    rw [List.foldl_cons, ih hne.2, entity?_modifyEntity, if_neg hne.1]

/-- Entities that are changed one after the other are changed once each, if their numbers lead to
different slots. -/
theorem entity?_foldl_modifyEntity_of_mem (f : Entity → Entity)
    (hapart : ids.Pairwise fun id id' => id.slot ≠ id'.slot) (hx : x ∈ ids) :
    (ids.foldl (fun b id => b.modifyEntity id f) a).entity? x = (a.entity? x).map f := by
  induction ids generalizing a with
  | nil => cases hx
  | cons id ids ih =>
    obtain ⟨hfirst, hrest⟩ := List.pairwise_cons.mp hapart
    rw [List.foldl_cons]
    rcases List.mem_cons.mp hx with rfl | hx
    · rw [entity?_foldl_modifyEntity_of_forall_ne f fun id hid => (hfirst id hid).symm,
        entity?_modifyEntity, if_pos rfl]
    · rw [ih hrest hx, entity?_modifyEntity, if_neg (hfirst x hx)]

/-! ## Where a member comes to -/

/-- An inline namespace publishes into the namespace around it. -/
def PublishesInto (a : Atlas) (inner outer : EntityId) : Prop :=
  ∃ e n, a.entity? inner = some e ∧ e.namespace? = some n ∧ n.isInline = true ∧
    e.outer = some outer ∧ (a.namespace? outer).isSome = true

theorem edge_publishingGraph : a.publishingGraph.Edge = a.PublishesInto := by
  funext inner outer
  apply propext
  unfold Graph.Edge publishingGraph
  dsimp only
  constructor
  · intro hnext
    split at hnext
    · cases hnext
    · next e he =>
      split at hnext
      · next n o hn houter =>
        split at hnext
        · next hinto =>
          rw [Bool.and_eq_true] at hinto
          obtain rfl := List.mem_singleton.mp hnext
          exact ⟨e, n, he, hn, hinto.1, houter, hinto.2⟩
        · cases hnext
      · cases hnext
  · rintro ⟨e, n, he, hn, hinline, houter, hinto⟩
    simp [he, hn, houter, hinline, hinto]

theorem mem_trail_publishingGraph_iff :
    x ∈ (a.publishingGraph.trail .oldestFirst 0 n).map (·.1) ↔
      Relation.ReflTransGen a.PublishesInto n x := by
  rw [← edge_publishingGraph, Graph.reflTransGen_edge_iff]
  constructor
  · intro hx
    obtain ⟨visit, hvisit, rfl⟩ := List.mem_map.mp hx
    exact ⟨visit.2, (Graph.walk_of_mem_trail hvisit).1⟩
  · rintro ⟨length, hwalk⟩
    induction hwalk with
    | refl => exact List.mem_map_of_mem Graph.start_mem_trail
    | tail _ hedge ih =>
      obtain ⟨visit, hvisit, rfl⟩ := List.mem_map.mp ih
      have hinto := hedge
      rw [edge_publishingGraph] at hinto
      obtain ⟨-, -, -, -, -, -, hinto⟩ := hinto
      obtain ⟨body, hbody⟩ := Option.isSome_iff_exists.mp hinto
      obtain ⟨e, he, -⟩ := Option.bind_eq_some_iff.mp hbody
      obtain ⟨depth, hmet⟩ :=
        Graph.mem_trail_of_edge hvisit (.inl rfl) hedge (mem_entityNumbers_of_entity? he)
      exact List.mem_map_of_mem hmet

theorem value_fileInNamespace {owner : EntityId} {id : MemberId} {m : Member}
    (hm : a.member? id = some m) (hvisible : m.flags.isHidden = false) :
    (a.fileInNamespace owner id).value =
      ((a.publishingGraph.trail .oldestFirst 0 owner).map (·.1)).foldl
        (fun b x => b.modifyEntity x (·.posting m id)) a := by
  unfold fileInNamespace
  simp only [hm, hvisible, Bool.false_eq_true, ↓reduceIte, Noted.value_foldlM]
  congr 1
  unfold fileInOneNamespace
  dsimp only
  split <;> rfl

theorem holdsNamespace_of_publishes (hscopes : ∀ e ∈ a.entities, e.outer ≠ some ⟨0⟩)
    (hn : a.HoldsNamespace n) (h : Relation.ReflTransGen a.PublishesInto n x) :
    a.HoldsNamespace x := by
  induction h with
  | refl => exact hn
  | @tail _ outer _ hinto _ =>
    obtain ⟨e, -, he, -, -, houter, hnamespace⟩ := hinto
    obtain ⟨body, hbody⟩ := Option.isSome_iff_exists.mp hnamespace
    obtain ⟨e', he', hbody'⟩ := Option.bind_eq_some_iff.mp hbody
    refine ⟨Nat.pos_of_ne_zero fun hzero => ?_, e', he', ?_⟩
    · refine hscopes e (Array.mem_of_getElem? he) (houter.trans ?_)
      exact congrArg (fun k => some (EntityId.mk k)) hzero
    · rw [Entity.isNamespace, hbody']
      rfl

/-- A member that is not hidden is posted once in the namespace it is inserted into and in all that
this one publishes into, directly or through others. Scopes may go round in circles; nothing but
these namespaces changes. -/
theorem insertMember_publishes (a : Atlas) (hscopes : ∀ e ∈ a.entities, e.outer ≠ some ⟨0⟩)
    {n : EntityId} (hn : a.HoldsNamespace n) {id : MemberId} {m : Member}
    (hm : a.member? id = some m) (hvisible : m.flags.isHidden = false) :
    ∃ filed, a.insertMember n id = .ok filed ∧
      (∀ x, Relation.ReflTransGen a.PublishesInto n x → ∃ e e', a.entity? x = some e ∧
        filed.value.entity? x = some e' ∧ e.Posts m id e') ∧
      (∀ x, (∀ y, Relation.ReflTransGen a.PublishesInto n y → y.slot ≠ x.slot) →
        filed.value.entity? x = a.entity? x) ∧
      { filed.value with entities := a.entities } = a := by
  have hinsert : a.insertMember n id = .ok (a.fileInNamespace n id) := by
    obtain ⟨-, e, he, hnamespace⟩ := hn
    have hclass : e.isClass = false := by
      rw [e.isNamespace_eq] at hnamespace
      simpa using hnamespace
    unfold insertMember requireMember requireEntity
    rw [hm, he]
    simp [hclass, bind, Except.bind, pure, Except.pure]
  have hholds (x : EntityId) (hx : x ∈ (a.publishingGraph.trail .oldestFirst 0 n).map (·.1)) :
      a.HoldsNamespace x :=
    holdsNamespace_of_publishes hscopes hn (mem_trail_publishingGraph_iff.mp hx)
  have hapart : ((a.publishingGraph.trail .oldestFirst 0 n).map (·.1)).Pairwise
      fun x y => x.slot ≠ y.slot :=
    (Graph.nodup_trailFrom (by simp) (by simp)).imp_of_mem fun hx hy hne hslot =>
      hne (EntityId.eq_of_slot (hholds _ hx).1 (hholds _ hy).1 hslot)
  refine ⟨_, hinsert, fun x hx => ?_, fun x hx => ?_, ?_⟩ <;> rw [value_fileInNamespace hm hvisible]
  · have hmem := mem_trail_publishingGraph_iff.mpr hx
    obtain ⟨-, e, he, hnamespace⟩ := hholds x hmem
    obtain ⟨body, hbody⟩ := Option.isSome_iff_exists.mp hnamespace
    refine ⟨e, e.posting m id, he, ?_, e.posts_posting m id hbody⟩
    rw [entity?_foldl_modifyEntity_of_mem _ hapart hmem, he, Option.map_some]
  · exact entity?_foldl_modifyEntity_of_forall_ne _ fun y hy =>
      hx y (mem_trail_publishingGraph_iff.mp hy)
  · refine foldl_kept (P := fun b : Atlas => { b with entities := a.entities } = a) ?_ _ rfl
    exact fun _ _ hb => hb

/-- Three inline namespaces, each in the next one and the last in the first, and a fourth around
none of them. -/
def inlineCircle : Atlas :=
  let circling (k : Nat) (name : String) (outer : Nat) : Entity :=
    { Entity.declare ⟨k⟩ name .namespaceKind {} false false with
      outer := some ⟨outer⟩, body := .ofNamespace { isInline := true } }
  { entities := #[circling 1 "a" 2, circling 2 "b" 3, circling 3 "c" 1,
      Entity.declare ⟨4⟩ "d" .namespaceKind {} false false]
    members := #[{ id := ⟨1⟩, name := "f", kind := .function }] }

theorem insertMember_publishes_inlineCircle :
    ∃ filed, inlineCircle.insertMember ⟨2⟩ ⟨1⟩ = .ok filed ∧
      (∀ x, Relation.ReflTransGen inlineCircle.PublishesInto ⟨2⟩ x → ∃ m e e',
        inlineCircle.entity? x = some e ∧ filed.value.entity? x = some e' ∧ e.Posts m ⟨1⟩ e') ∧
      [1, 2, 3, 4].map (fun k => (filed.value.namespace? ⟨k⟩).bind (·.members.get? "f")) =
        [some [⟨1⟩], some [⟨1⟩], some [⟨1⟩], none] := by
  obtain ⟨filed, hfiled, hposts, -⟩ :=
    insertMember_publishes inlineCircle (by decide +kernel) (n := ⟨2⟩)
      ⟨by decide, _, rfl, by decide +kernel⟩ (show inlineCircle.member? ⟨1⟩ = some _ from rfl) rfl
  have hlists : (inlineCircle.insertMember ⟨2⟩ ⟨1⟩).toOption.map (fun filed => [1, 2, 3, 4].map
      fun k => (filed.value.namespace? ⟨k⟩).bind (·.members.get? "f")) =
        some [some [⟨1⟩], some [⟨1⟩], some [⟨1⟩], none] := by
    decide +kernel
  rw [hfiled] at hlists
  exact ⟨filed, hfiled, fun x hx => ⟨_, hposts x hx⟩, Option.some.inj hlists⟩

end Atlas

end SymbolAtlas
