import SymbolAtlas.Proofs.Build.Preparation

/-!
# After names are looked up

What a build does once every base is found or has a placeholder: instances are made, categories are
taken in, using relations are added, members are inherited. No entity is lost by that, no class loses
a base, and there are no more placeholders.
-/

set_option autoImplicit false

namespace SymbolAtlas.Build

open Atlas

variable (progress : Progress)

/-- A build has gone on without looking up another base. -/
structure Progress.Settles (p q : Progress) : Prop where
  atlas : p.atlas.Settles q.atlas
  unresolvedBases : q.summary.unresolvedBases = p.summary.unresolvedBases

namespace Progress.Settles

variable {p q r : Progress}

theorem refl (p : Progress) : p.Settles p :=
  ⟨.refl _, rfl⟩

theorem trans (h : p.Settles q) (h' : q.Settles r) : p.Settles r :=
  ⟨h.atlas.trans h'.atlas, h'.unresolvedBases.trans h.unresolvedBases⟩

theorem foldlM {α : Type} {f : Progress → α → Noted Progress}
    (hf : ∀ (p : Progress) x, p.Settles (f p x).value) (xs : List α) (p : Progress) :
    p.Settles (xs.foldlM f p).value :=
  Noted.foldlM_kept (P := fun q => p.Settles q) (fun q x h => h.trans (hf q x)) xs (.refl p)

end Progress.Settles

theorem settles_addEdge (child : EntityId) (edge : BaseEdge) :
    progress.Settles (addEdge progress child edge).value := by
  unfold addEdge
  split
  · exact .refl progress
  · exact ⟨.linkBase progress.atlas child edge, rfl⟩

theorem settles_addPending (p : PendingInstance) :
    progress.Settles (addPending progress p).value := by
  unfold addPending
  split
  · exact .refl progress
  · next made hmade =>
    have hspawned : progress.Settles { progress with atlas := made.value.1 } :=
      ⟨.of_spawns (.instantiate hmade), rfl⟩
    exact hspawned.trans (settles_addEdge _ p.child _)

theorem settles_mergeCategoryOf (owner : Declared) :
    progress.Settles (mergeCategoryOf progress owner).value :=
  mergeCategoryOf_kept (P := fun q => progress.Settles q)
    (fun _ _ hmerged => ⟨.mergeCategory hmerged, rfl⟩) (.refl progress)

/-! ## Using relations -/

section Using

variable {β : Type} {view : Entity → β}

/-- A step that leaves names and a view of the entities alone. -/
def KeepsView (view : Entity → β) (p q : Progress) : Prop :=
  Agrees view p.atlas q.atlas ∧ q.summary.unresolvedBases = p.summary.unresolvedBases

namespace KeepsView

variable {p q r : Progress}

theorem refl (view : Entity → β) (p : Progress) : KeepsView view p p :=
  ⟨.refl _ _, rfl⟩

theorem trans (h : KeepsView view p q) (h' : KeepsView view q r) : KeepsView view p r :=
  ⟨h.1.trans h'.1, h'.2.trans h.2⟩

theorem foldlM {α : Type} {f : Progress → α → Noted Progress}
    (hf : ∀ p x, KeepsView view p (f p x).value) (xs : List α) (p : Progress) :
    KeepsView view p (xs.foldlM f p).value :=
  Noted.foldlM_kept (P := fun q => KeepsView view p q) (fun q x h => h.trans (hf q x)) xs
    (.refl view p)

theorem settles (h : KeepsView Entity.kin p q) : p.Settles q :=
  ⟨.of_agrees h.1, h.2⟩

end KeepsView

theorem keepsView_addUsings (hview : ∀ e f, view (e.modifyNamespace f) = view e)
    (progress : Progress) (owner : Declared) :
    KeepsView view progress (addUsings progress owner).value :=
  addUsings_kept (P := fun q => KeepsView view progress q) (fun _ hq => ⟨hq.1, hq.2⟩)
    (fun _ id f hq => ⟨hq.1.trans (agrees_modifyNamespace hview _ id f), hq.2⟩) owner
    (.refl view progress)

theorem agrees_finish (hview : ∀ e f, view (e.modifyNamespace f) = view e)
    (hskeleton : ∀ e, view e.skeleton = view e) (progress : Progress) :
    Agrees view progress.atlas (finish progress).value.1 :=
  ((SharesSkeleton.mergeAll progress.atlas).view hskeleton).trans (agrees_closeAllUsing hview _)

end Using

theorem unresolvedBases_finish :
    (finish progress).value.2.unresolvedBases = progress.summary.unresolvedBases :=
  rfl

/-! ## The second part of a build -/

theorem settles_addBases (declared : List Declared) :
    (declared.foldlM addBasesOf (progress, [])).value.1.Settles
      (addBases progress declared).value := by
  exact .foldlM settles_addPending _ _

/-- Once bases are looked up, a build adds no placeholder. -/
theorem settles_run (options : Options) (d : Document) :
    let prepared := (prepare (.empty options) d).value
    let linked := (prepared.2.foldlM addBasesOf (prepared.1, [])).value.1
    linked.atlas.Settles (run options d).value.1 ∧
      (run options d).value.2.unresolvedBases = linked.summary.unresolvedBases := by
  intro prepared linked
  have hsettles : linked.Settles (assemble (.empty options) d).value := by
    exact ((settles_addBases prepared.1 prepared.2).trans (.foldlM settles_mergeCategoryOf _ _)).trans
      (KeepsView.foldlM (keepsView_addUsings Entity.kin_modifyNamespace) _ _).settles
  unfold run
  rw [extend, Noted.value_bind, unresolvedBases_finish]
  have hfinished := agrees_finish Entity.kin_modifyNamespace Entity.kin_skeleton
    (assemble (.empty options) d).value
  exact ⟨hsettles.atlas.trans (.of_agrees hfinished), hsettles.unresolvedBases⟩

end SymbolAtlas.Build
