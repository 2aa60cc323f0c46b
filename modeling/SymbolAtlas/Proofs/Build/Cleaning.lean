import SymbolAtlas.Proofs.Build.Provenance

/-!
# Records that are not understood

A build passes over the records with words that it does not understand: whole entities, single
members and single bases. A document can be cleaned of them beforehand. A build of the clean
document goes through the same states as one of the document itself, but for the two counters of
what was passed over, phase by phase.
-/

set_option autoImplicit false

namespace SymbolAtlas

variable (decl : EntityDecl)

/-! ## Clean documents -/

/-- Whether a word that may be missing has a meaning. -/
def hasMeaning {α : Type} (decode : String → Except Fault α) (word : Option String) : Bool :=
  word.all fun text => (decode text).isOk

/-- Whether protection and virtualness are understood. -/
def BaseDecl.isUnderstood (base : BaseDecl) : Bool :=
  hasMeaning Protection.decode base.protection && hasMeaning Virtualness.decode base.virtualness

/-- Whether kind, protection and virtualness are understood. -/
def MemberDecl.isUnderstood (decl : MemberDecl) : Bool :=
  (MemberKind.decode decl.kind).isOk && hasMeaning Protection.decode decl.protection
    && hasMeaning Virtualness.decode decl.virtualness

namespace EntityDecl

/-- Whether kind and protection are understood. -/
def isUnderstood (decl : EntityDecl) : Bool :=
  (EntityKind.decode decl.kind).isOk && hasMeaning Protection.decode decl.protection

/-- The declaration without the members and bases that are not understood. -/
def clean (decl : EntityDecl) : EntityDecl :=
  { decl with
    members := decl.members.filter (·.isUnderstood)
    bases := decl.bases.filter (·.isUnderstood) }

theorem name_clean : decl.clean.name = decl.name :=
  rfl

end EntityDecl

/-- The document without the entities, members and bases that are not understood. -/
def Document.clean (d : Document) : Document where
  entities := (d.entities.filter (·.isUnderstood)).map (·.clean)

namespace Build

variable (progress : Progress) (owner : Declared) (state : Progress × List Declared)
variable (child : EntityId)

/-- The summary of a build in which nothing was passed over. -/
def Summary.withoutSkips (s : Summary) : Summary :=
  { s with skippedEntities := 0, skippedMembers := 0 }

/-- The progress of a build in which nothing was passed over. -/
def Progress.withoutSkips (p : Progress) : Progress :=
  { p with summary := p.summary.withoutSkips }

theorem Progress.atlas_withoutSkips (p : Progress) : p.withoutSkips.atlas = p.atlas :=
  rfl

/-- An entity with the clean declaration of it. -/
def Declared.clean (owner : Declared) : Declared :=
  (owner.1, owner.2.clean)

theorem Declared.fst_clean : owner.clean.1 = owner.1 :=
  rfl

theorem Declared.snd_clean : owner.clean.2 = owner.2.clean :=
  rfl

/-! ## Words -/

theorem isSome_decodeOr {α : Type} (decode : String → Except Fault α) (missing : α)
    (onFault : Fault → Notice) (word : Option String) :
    (decodeOr decode missing onFault word).value.isSome = hasMeaning decode word := by
  unfold decodeOr hasMeaning
  cases word with
  | none => rfl
  | some text =>
    rw [Option.map_some, Option.all_some]
    cases decode text <;> rfl

theorem isSome_edgeWords (base : BaseDecl) (decl : EntityDecl) :
    (edgeWords base decl).value.isSome = base.isUnderstood := by
  have hprotection := isSome_decodeOr Protection.decode .pub (.skipped base.name) base.protection
  have hvirtualness := isSome_decodeOr Virtualness.decode .normal (.skippedBase base.name decl.name)
    base.virtualness
  unfold edgeWords protectionOf BaseDecl.isUnderstood
  rw [Noted.value_bind, ← hprotection, ← hvirtualness]
  cases (decodeOr Protection.decode .pub (.skipped base.name) base.protection).value with
  | none => rfl
  | some p =>
    rw [Noted.value_bind, Noted.value_pure, Option.isSome_map]
    rfl

theorem isSome_memberOf (owner : EntityDecl) (decl : MemberDecl) :
    (memberOf owner decl).value.isSome = decl.isUnderstood := by
  have hprotection := isSome_decodeOr Protection.decode .pub (.skipped decl.name) decl.protection
  have hvirtualness := isSome_decodeOr Virtualness.decode .normal
    (.skippedMember decl.name owner.name) decl.virtualness
  unfold memberOf protectionOf MemberDecl.isUnderstood
  rw [← hprotection, ← hvirtualness]
  cases MemberKind.decode decl.kind with
  | error fault => rfl
  | ok kind =>
    rw [Noted.value_bind]
    cases (decodeOr Protection.decode .pub (.skipped decl.name) decl.protection).value with
    | none => rfl
    | some p =>
      rw [Noted.value_bind, Noted.value_pure, Option.isSome_map]
      rfl

/-! ## Loops -/

theorem value_foldlM_clean {α β γ σ : Type} (view : β → γ) (clean : α → σ) {f : β → α → Noted β}
    {g : γ → σ → Noted γ} (h : ∀ b x, (g (view b) (clean x)).value = view (f b x).value)
    (xs : List α) (b : β) :
    ((xs.map clean).foldlM g (view b)).value = view (xs.foldlM f b).value := by
  rw [Noted.value_foldlM, Noted.value_foldlM, List.foldl_map]
  exact List.foldl_hom view h

/-- A loop over the records that are understood goes through what a view shows of the loop over all
records, if the others leave the view as it is. -/
theorem value_foldlM_filter {α β γ : Type} (view : β → γ) (keeps : α → Bool) {f : β → α → Noted β}
    {g : γ → α → Noted γ}
    (hkept : ∀ b x, keeps x = true → (g (view b) x).value = view (f b x).value)
    (hskipped : ∀ b x, keeps x = false → view (f b x).value = view b) (xs : List α) (b : β) :
    ((xs.filter keeps).foldlM g (view b)).value = view (xs.foldlM f b).value := by
  rw [Noted.value_foldlM, Noted.value_foldlM, List.foldl_filter]
  refine List.foldl_hom view fun b x => ?_
  cases hx : keeps x with
  | true => exact hkept b x hx
  | false => exact (hskipped b x hx).symm

/-! ## Registering -/

/-- The state of registering in which nothing was passed over. -/
def cleanState (state : Progress × List Declared) : Progress × List Declared :=
  (state.1.withoutSkips, state.2.map Declared.clean)

theorem fst_cleanState : (cleanState state).1 = state.1.withoutSkips :=
  rfl

theorem snd_cleanState : (cleanState state).2 = state.2.map Declared.clean :=
  rfl

theorem isUnderstood_iff :
    decl.isUnderstood = true ↔ ∃ kind p, EntityKind.decode decl.kind = .ok kind ∧
      (protectionOf decl.name decl.protection).value = some p := by
  have hprotection := isSome_decodeOr Protection.decode .pub (.skipped decl.name) decl.protection
  unfold EntityDecl.isUnderstood protectionOf
  rw [← hprotection, Bool.and_eq_true, Option.isSome_iff_exists]
  cases EntityKind.decode decl.kind with
  | error fault => simp [Except.isOk, Except.toBool]
  | ok kind => simp [Except.isOk, Except.toBool]

theorem registerOne_of_words {d : EntityDecl} {kind : EntityKind} {p : Protection}
    (hkind : EntityKind.decode d.kind = .ok kind)
    (hp : (protectionOf d.name d.protection).value = some p) (state : Progress × List Declared) :
    (registerOne state d).value =
      ({ state.1 with atlas := (registerAs state.1.atlas d kind p).value.1 },
        state.2 ++ [((registerAs state.1.atlas d kind p).value.2, d)]) := by
  unfold registerOne
  rw [hkind]
  rw [Noted.value_bind, hp]
  rfl

theorem registerOne_of_not_isUnderstood {decl : EntityDecl} (h : decl.isUnderstood = false)
    (state : Progress × List Declared) :
    (registerOne state decl).value =
      ({ state.1 with summary.skippedEntities := state.1.summary.skippedEntities + 1 },
        state.2) := by
  unfold registerOne
  dsimp only
  split
  · rfl
  · next kind hkind =>
    rw [Noted.value_bind]
    split
    · rfl
    · next p hp =>
      rw [(isUnderstood_iff decl).mpr ⟨kind, p, hkind, hp⟩] at h
      cases h

theorem registerOne_clean {decl : EntityDecl} (h : decl.isUnderstood = true) :
    (registerOne (cleanState state) decl.clean).value =
      cleanState (registerOne state decl).value := by
  obtain ⟨kind, p, hkind, hp⟩ := (isUnderstood_iff decl).mp h
  have hclean := registerOne_of_words (d := decl.clean) hkind hp (cleanState state)
  rw [registerOne_of_words hkind hp, hclean]
  unfold cleanState
  rw [List.map_append]
  rfl

theorem registerAll_clean (d : Document) : (registerAll progress.withoutSkips d.clean).value =
      cleanState (registerAll progress d).value := by
  unfold registerAll Document.clean
  rw [List.foldlM_map]
  refine value_foldlM_filter cleanState EntityDecl.isUnderstood (fun state decl h => ?_)
    (fun state decl h => ?_) d.entities (progress, [])
  · exact registerOne_clean state h
  · rw [registerOne_of_not_isUnderstood h]
    rfl

theorem addScopes_withoutSkips :
    addScopes progress.withoutSkips = (addScopes progress).withoutSkips :=
  List.foldl_hom Progress.withoutSkips fun _ _ =>
    List.foldl_hom Progress.withoutSkips fun _ _ => rfl

theorem linkScopes_withoutSkips :
    linkScopes progress.withoutSkips = (linkScopes progress).withoutSkips :=
  rfl

/-! ## Members -/

/-- The atlas with a member that is filed in its owner. -/
def withMember (a : Atlas) (owner : EntityId) (m : Member) : Atlas :=
  match (a.addMember (some owner) m).1.insertMember owner (a.addMember (some owner) m).2 with
  | .ok filed => filed.value
  | .error _ => (a.addMember (some owner) m).1

theorem addMember_of_some {owner : Declared} {decl : MemberDecl} {m : Member}
    (h : (memberOf owner.2 decl).value = some m) (progress : Progress) :
    (addMember owner progress decl).value =
      { progress with atlas := withMember progress.atlas owner.1 m } := by
  unfold addMember withMember
  rw [Noted.value_bind, h]
  dsimp only
  cases (progress.atlas.addMember (some owner.1) m).1.insertMember owner.1
    (progress.atlas.addMember (some owner.1) m).2 <;> rfl

theorem describeMember_clean (owner : EntityDecl) :
    describeMember owner.clean = describeMember owner :=
  rfl

theorem memberOf_clean (owner : EntityDecl) (decl : MemberDecl) :
    memberOf owner.clean decl = memberOf owner decl := by
  unfold memberOf
  rw [EntityDecl.name_clean, describeMember_clean]

theorem addMembersOf_clean :
    (owner.clean.2.members.foldlM (addMember owner.clean) progress.withoutSkips).value =
      (owner.2.members.foldlM (addMember owner) progress).value.withoutSkips := by
  refine value_foldlM_filter Progress.withoutSkips MemberDecl.isUnderstood (fun p decl hdecl => ?_)
    (fun p decl hdecl => ?_) owner.2.members progress
  · rw [← isSome_memberOf owner.2, Option.isSome_iff_exists] at hdecl
    obtain ⟨m, hm⟩ := hdecl
    have hclean : (memberOf owner.clean.2 decl).value = some m := by
      rw [Declared.snd_clean, memberOf_clean, hm]
    rw [addMember_of_some hm, addMember_of_some hclean]
    rfl
  · rw [← isSome_memberOf owner.2, Option.isSome_eq_false_iff, Option.isNone_iff_eq_none] at hdecl
    rw [addMember, Noted.value_bind, hdecl]
    rfl

theorem addMembers_clean (declared : List Declared) :
    (addMembers progress.withoutSkips (declared.map Declared.clean)).value =
      (addMembers progress declared).value.withoutSkips := by
  exact value_foldlM_clean Progress.withoutSkips Declared.clean addMembersOf_clean declared progress

/-! ## Bases -/

/-- The state of linking bases in which nothing was passed over. -/
def cleanLinking {α : Type} (state : Progress × α) : Progress × α :=
  (state.1.withoutSkips, state.2)

theorem fst_cleanLinking {α : Type} (state : Progress × α) :
    (cleanLinking state).1 = state.1.withoutSkips :=
  rfl

theorem snd_cleanLinking {α : Type} (state : Progress × α) : (cleanLinking state).2 = state.2 :=
  rfl

section

variable (decl : EntityDecl) (scope : Option EntityId) (formals : List String)
  (state : Progress × List PendingInstance)

theorem findBase_clean (name : String) (decl : EntityDecl) :
    (findBase progress.withoutSkips scope name decl.clean).value =
      cleanLinking (findBase progress scope name decl).value := by
  unfold findBase
  rw [Progress.atlas_withoutSkips]
  cases progress.atlas.resolve? scope name (·.isClass) <;> rfl

theorem addEdge_withoutSkips (edge : BaseEdge) : (addEdge progress.withoutSkips child edge).value =
      (addEdge progress child edge).value.withoutSkips := by
  unfold addEdge
  split <;> rfl

theorem edgeWords_clean (base : BaseDecl) (decl : EntityDecl) :
    edgeWords base decl.clean = edgeWords base decl :=
  rfl

theorem addBase_clean {base : BaseDecl} (h : base.isUnderstood = true) :
    (addBase child decl.clean scope formals (cleanLinking state) base).value =
      cleanLinking (addBase child decl scope formals state base).value := by
  rw [← isSome_edgeWords base decl, Option.isSome_iff_exists] at h
  obtain ⟨words, hwords⟩ := h
  unfold addBase
  rw [Noted.value_bind, Noted.value_bind, edgeWords_clean, hwords]
  dsimp only
  rw [Noted.value_bind, Noted.value_bind, fst_cleanLinking, findBase_clean]
  generalize (findBase state.1 scope (QualifiedName.cutTemplateArguments base.name).1 decl).value =
    found
  rw [fst_cleanLinking, snd_cleanLinking, Progress.atlas_withoutSkips]
  split
  · rfl
  · rw [Noted.value_bind, addEdge_withoutSkips]
    rfl

theorem addBase_of_not_isUnderstood {base : BaseDecl} (h : base.isUnderstood = false) :
    (addBase child decl scope formals state base).value = state := by
  rw [← isSome_edgeWords base decl, Option.isSome_eq_false_iff, Option.isNone_iff_eq_none] at h
  unfold addBase
  rw [Noted.value_bind, h]
  rfl

theorem addBasesOf_clean (owner : Declared) :
    (addBasesOf (cleanLinking state) owner.clean).value =
      cleanLinking (addBasesOf state owner).value := by
  unfold addBasesOf
  rw [fst_cleanLinking, Progress.atlas_withoutSkips, Declared.fst_clean]
  cases state.1.atlas.entity? owner.1 with
  | none => rfl
  | some e =>
    cases state.1.atlas.class? owner.1 with
    | none => rfl
    | some c =>
      dsimp only
      generalize c.formals.map (·.name) = formals
      refine value_foldlM_filter cleanLinking BaseDecl.isUnderstood (fun state base h => ?_)
        (fun state base h => ?_) owner.2.bases state
      · exact addBase_clean owner.1 owner.2 e.outer formals state h
      · rw [addBase_of_not_isUnderstood owner.1 owner.2 e.outer formals state h]

end

theorem addPending_withoutSkips (p : PendingInstance) :
    (addPending progress.withoutSkips p).value = (addPending progress p).value.withoutSkips := by
  unfold addPending
  rw [Progress.atlas_withoutSkips]
  split
  · rfl
  · next made _ =>
    exact addEdge_withoutSkips { progress with atlas := made.value.1 } p.child
      { p.edge with target := made.value.2.1 }

theorem addBases_clean (declared : List Declared) :
    (addBases progress.withoutSkips (declared.map Declared.clean)).value =
      (addBases progress declared).value.withoutSkips := by
  have hlinked :
      ((declared.map Declared.clean).foldlM addBasesOf (progress.withoutSkips, [])).value =
        cleanLinking (declared.foldlM addBasesOf (progress, [])).value :=
    value_foldlM_clean cleanLinking Declared.clean addBasesOf_clean declared (progress, [])
  unfold addBases
  rw [Noted.value_bind, Noted.value_bind, hlinked]
  obtain ⟨linked, pending⟩ := (declared.foldlM addBasesOf (progress, [])).value
  rw [Noted.value_foldlM, Noted.value_foldlM]
  exact List.foldl_hom Progress.withoutSkips addPending_withoutSkips

/-! ## Categories and using relations -/

theorem mergeCategoryOf_clean : (mergeCategoryOf progress.withoutSkips owner.clean).value =
      (mergeCategoryOf progress owner).value.withoutSkips := by
  unfold mergeCategoryOf
  rw [Progress.atlas_withoutSkips, Declared.fst_clean, Declared.snd_clean, EntityDecl.name_clean]
  dsimp only
  cases progress.atlas.entity? owner.1 with
  | none => rfl
  | some e =>
    dsimp only
    split
    · rfl
    · cases QualifiedName.categoryParts? owner.2.name with
      | none => rfl
      | some parts =>
        dsimp only
        split
        · rfl
        · split <;> rfl

theorem addUsedNamespace_clean (outer : Option EntityId) (progress : Progress) (target : String) :
    (addUsedNamespace owner.clean outer progress.withoutSkips target).value =
      (addUsedNamespace owner outer progress target).value.withoutSkips := by
  unfold addUsedNamespace
  rw [Progress.atlas_withoutSkips, Declared.fst_clean]
  dsimp only
  split
  · split <;> rfl
  · rfl

theorem addUsedDeclaration_clean (progress : Progress) (name : String) :
    (addUsedDeclaration owner.clean progress.withoutSkips name).value =
      (addUsedDeclaration owner progress name).value.withoutSkips := by
  unfold addUsedDeclaration
  rw [Progress.atlas_withoutSkips, Declared.fst_clean]
  split
  · split <;> rfl
  · rfl

theorem addUsings_clean : (addUsings progress.withoutSkips owner.clean).value =
      (addUsings progress owner).value.withoutSkips := by
  unfold addUsings
  rw [Progress.atlas_withoutSkips, Declared.fst_clean]
  cases progress.atlas.entity? owner.1 with
  | none => rfl
  | some e =>
    dsimp only
    split
    · have hnamespaces := value_foldlM_clean Progress.withoutSkips id
        (addUsedNamespace_clean owner e.outer) owner.2.usingNamespaces progress
      have hdeclarations := value_foldlM_clean Progress.withoutSkips id
        (addUsedDeclaration_clean owner) owner.2.usingDeclarations
      rw [List.map_id] at hnamespaces hdeclarations
      rw [Noted.value_bind, Noted.value_bind, ← hdeclarations, ← hnamespaces]
      rfl
    · rfl

/-! ## The whole build -/

theorem assemble_clean (a : Atlas) (d : Document) :
    (assemble a d.clean).value = (assemble a d).value.withoutSkips := by
  have hregistered : (registerAll { atlas := a } d.clean).value =
      cleanState (registerAll { atlas := a } d).value := registerAll_clean { atlas := a } d
  unfold assemble prepare
  simp only [Noted.value_bind, Noted.value_pure]
  rw [hregistered]
  rw [fst_cleanState, snd_cleanState, addScopes_withoutSkips, linkScopes_withoutSkips,
    addMembers_clean, addBases_clean,
    value_foldlM_clean Progress.withoutSkips Declared.clean mergeCategoryOf_clean,
    value_foldlM_clean Progress.withoutSkips Declared.clean addUsings_clean]

theorem finish_withoutSkips : (finish progress.withoutSkips).value =
      ((finish progress).value.1, (finish progress).value.2.withoutSkips) := by
  unfold finish
  rw [Progress.atlas_withoutSkips]
  rfl

/-- A record that is not understood affects nothing else: the build of a document without such
records ends with the same atlas, and with a summary that differs in nothing but the counters of
what was passed over. -/
theorem run_clean (options : Options) (d : Document) :
    (run options d.clean).value =
      ((run options d).value.1,
        { (run options d).value.2 with skippedEntities := 0, skippedMembers := 0 }) := by
  unfold run
  rw [extend, extend, Noted.value_bind, Noted.value_bind, assemble_clean,
    finish_withoutSkips]
  rfl

end Build

end SymbolAtlas
