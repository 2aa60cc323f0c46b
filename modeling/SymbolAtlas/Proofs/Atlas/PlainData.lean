import SymbolAtlas.Proofs.Atlas.Rosters

/-!
# Plain data

A class may be marked as plain data when it is added. It loses the mark when it is linked to another
class, and when a member is filed in it that plain data cannot have. So the mark says what the class
is like, whatever has been done to the atlas.
-/

set_option autoImplicit false

namespace SymbolAtlas

theorem Text.occursIn_iff {pat cs : List Char} : occursIn pat cs = true ↔ pat <:+: cs := by
  unfold occursIn
  induction cs with
  | nil => simp [cut]
  | cons c rest ih =>
    rw [cut, List.infix_cons_iff, ← List.isPrefixOf_iff_prefix, ← ih]
    split
    · next hstarts => simp [hstarts]
    · next hstarts => simp [hstarts]

/-- The section is for the declarations of classes. -/
def Section.isOfClass : Section → Bool
  | classDocs _ | namespaceDecls _ | namespaceDocs _ => false
  | _ => true

/-- Plain data can have the member in the section: public data that is no pointer to a function, or
a public name of a type that is none of functions. -/
def Section.AdmitsPlain (s : Section) (m : Member) : Prop :=
  s = .attributes .pub ∧ m.flags.isFunctionPointer = false ∨
    s = .typedefs .pub ∧ ¬[')', '('] <:+: m.typeText.toList

section Filing

variable {m : Member} {p : Protection} {options : Options} {placement : Placement}
variable {a b : Atlas} {e : Entity} {id : MemberId}

theorem Placement.keepsSimple_iff (h : ofMember? m p options = some placement) :
    placement.declaration.isOfClass = true ∧
      (∀ s ∈ placement.documentation, s.isOfClass = false) ∧
      (placement.keepsSimple = true ↔ placement.declaration.AdmitsPlain m) := by
  unfold ofMember? at h
  dsimp only at h
  generalize options.shows p = isShown at h
  repeat' split at h
  all_goals cases h
  all_goals
    refine ⟨rfl, ?_, by simp [Section.AdmitsPlain, ← Text.occursIn_iff]⟩
    cases isShown <;> simp [Section.isOfClass]

namespace Atlas

/-- Plain data can have all declarations that are listed. -/
def ListsPlain (a : Atlas) (listed : Section → List MemberId) : Prop :=
  ∀ s, s.isOfClass = true → ∀ id ∈ listed s, ∃ m, a.member? id = some m ∧ s.AdmitsPlain m

/-- What the entity declares are members. If it is a class, it is marked if it is plain data. -/
structure Gauges (a : Atlas) (e : Entity) : Prop where
  filed : ∀ s, s.isOfClass = true → ∀ id ∈ e.sections.get s, (a.member? id).isSome = true
  isSimple : ∀ c, e.class? = some c → (c.isSimple = true ↔
    a.options.inlineSimpleStruct = true ∧ c.isLinked = false ∧ a.ListsPlain e.sections.get)

/-- Every class is marked if it is plain data. -/
def MarksPlain (a : Atlas) : Prop :=
  ∀ id e, a.entity? id = some e → a.Gauges e

/-! ## One entity -/

namespace Gauges

theorem congr {e' : Entity} (h : a.Gauges e) (hclass : e'.class? = e.class?)
    (hsections : ∀ s, s.isOfClass = true → e'.sections.get s = e.sections.get s) :
    a.Gauges e' := by
  have hlists : a.ListsPlain e'.sections.get ↔ a.ListsPlain e.sections.get :=
    forall₂_congr fun s hs => by rw [hsections s hs]
  refine ⟨fun s hs => hsections s hs ▸ h.filed s hs, fun c hc => ?_⟩
  rw [hlists]
  exact h.isSimple c (hclass ▸ hc)

theorem modifyClass (h : a.Gauges e) {f : ClassBody → ClassBody}
    (hf : ∀ c, (f c).isSimple = false ∧ (f c).isLinked = true ∨
      (f c).isSimple = c.isSimple ∧ (f c).isLinked = c.isLinked) : a.Gauges (e.modifyClass f) := by
  have hsections := e.sections_modifyClass f
  refine ⟨hsections ▸ h.filed, fun c' hc' => ?_⟩
  rw [Entity.class?_modifyClass] at hc'
  obtain ⟨c, hc, rfl⟩ := Option.map_eq_some_iff.mp hc'
  rcases hf c with ⟨hsimple, hlinked⟩ | ⟨hsimple, hlinked⟩
  · simp [hsimple, hlinked]
  · rw [hsections, hsimple, hlinked]
    exact h.isSimple c hc

theorem mono (h : a.Gauges e) (hoptions : b.options = a.options)
    (hkept : ∀ id m, a.member? id = some m → ∃ m', b.member? id = some m' ∧
      m'.typeText = m.typeText ∧ m'.flags.isFunctionPointer = m.flags.isFunctionPointer) :
    b.Gauges e := by
  have hsame {s : Section} (hs : s.isOfClass = true) {id : MemberId} (hid : id ∈ e.sections.get s) :
      (b.member? id).isSome = true ∧ ((∃ m, b.member? id = some m ∧ s.AdmitsPlain m) ↔
        ∃ m, a.member? id = some m ∧ s.AdmitsPlain m) := by
    obtain ⟨m, hm⟩ := Option.isSome_iff_exists.mp (h.filed s hs id hid)
    obtain ⟨m', hm', htype, hpointer⟩ := hkept id m hm
    simp [hm, hm', Section.AdmitsPlain, htype, hpointer]
  have hlists : b.ListsPlain e.sections.get ↔ a.ListsPlain e.sections.get :=
    forall₄_congr fun s hs id hid => (hsame hs hid).2
  refine ⟨fun s hs id hid => (hsame hs hid).1, fun c hc => ?_⟩
  rw [hoptions, hlists]
  exact h.isSimple c hc

theorem listsPlain_filed (hm : a.member? id = some m)
    (hplacement : Placement.ofMember? m p a.options = some placement) :
    a.ListsPlain (e.filed placement id).sections.get ↔
      a.ListsPlain e.sections.get ∧ placement.keepsSimple = true := by
  obtain ⟨hclass, hdocumentation, hkeeps⟩ := Placement.keepsSimple_iff hplacement
  have hnames {s : Section} (hs : s.isOfClass = true) :
      placement.Names s ↔ s = placement.declaration := by
    refine or_iff_left fun hsome => ?_
    rw [hdocumentation s hsome] at hs
    cases hs
  rw [hkeeps]
  refine ⟨fun h => ⟨fun s hs id' hid' => ?_, ?_⟩, fun h s hs id' hid' => ?_⟩
  · exact h s hs id' (Entity.mem_sections_filed.mpr (.inl hid'))
  · obtain ⟨m', hm', hadmits⟩ := h _ hclass id
      (Entity.mem_sections_filed.mpr (.inr ⟨(hnames hclass).mpr rfl, rfl⟩))
    exact Option.some.inj (hm.symm.trans hm') ▸ hadmits
  · rcases Entity.mem_sections_filed.mp hid' with hold | ⟨hnew, rfl⟩
    · exact h.1 s hs id' hold
    · exact ⟨m, hm, (hnames hs).mp hnew ▸ h.2⟩

theorem filed_of_placement (h : a.Gauges e) (hm : a.member? id = some m)
    (hplacement : Placement.ofMember? m p a.options = some placement) :
    a.Gauges (e.filed placement id) := by
  refine ⟨fun s hs id' hid' => ?_, fun c' hc' => ?_⟩
  · rcases Entity.mem_sections_filed.mp hid' with hold | ⟨-, rfl⟩
    · exact h.filed s hs id' hold
    · rw [hm]
      rfl
  · rw [listsPlain_filed hm hplacement]
    unfold Entity.filed at hc'
    cases hkeeps : placement.keepsSimple with
    | true =>
      rw [hkeeps] at hc'
      simpa using h.isSimple c' hc'
    | false =>
      rw [hkeeps] at hc'
      have hclass := (Entity.class?_modifyClass _ _).symm.trans hc'
      obtain ⟨c, -, rfl⟩ := Option.map_eq_some_iff.mp hclass
      simp

theorem holding (h : a.Gauges e) (hm : a.member? id = some m) (entry : Option View) :
    a.Gauges (e.holding (Placement.ofMember? m p a.options) m id entry) := by
  have hnoting {e : Entity} (h : a.Gauges e) :
      a.Gauges (e.modifyClass fun c => c.noting m id entry) := by
    refine h.modifyClass fun c => .inr ?_
    unfold ClassBody.noting
    cases entry <;> dsimp only <;> split <;> split <;> exact ⟨rfl, rfl⟩
  unfold Entity.holding
  split
  · next placement hplacement => exact hnoting (h.filed_of_placement hm hplacement)
  · exact hnoting h

theorem posting (h : a.Gauges e) (m : Member) (id : MemberId) : a.Gauges (e.posting m id) := by
  have hsections (f : NamespaceBody → NamespaceBody) :
      (e.modifyNamespace f).sections = e.sections := by
    unfold Entity.modifyNamespace
    split <;> rfl
  unfold Entity.posting
  split
  · refine h.congr (e.class?_modifyNamespace _) fun s hs => ?_
    rw [SectionTable.get_file, if_neg (by rintro rfl; cases hs), SectionTable.get_file,
      if_neg (by rintro rfl; cases hs), hsections]
  · exact h.congr (e.class?_modifyNamespace _) fun s hs => by rw [hsections]

end Gauges

/-! ## An atlas -/

namespace MarksPlain

variable {template category : EntityId} {spec : String} (h : a.MarksPlain)

include h

theorem modifyEntity (id : EntityId) {f : Entity → Entity}
    (hf : ∀ e, a.Gauges e → a.Gauges (f e)) : (a.modifyEntity id f).MarksPlain := by
  have hsame {e : Entity} (he : a.Gauges e) : (a.modifyEntity id f).Gauges e := ⟨he.1, he.2⟩
  intro id' e he
  rw [entity?_modifyEntity] at he
  split at he
  · obtain ⟨e', he', rfl⟩ := Option.map_eq_some_iff.mp he
    exact hsame (hf e' (h id' e' he'))
  · exact hsame (h id' e he)

theorem describe (id : EntityId) {f : Entity → Entity}
    (hf : ∀ e, ((f e).class?, (f e).sections) = (e.class?, e.sections)) :
    (a.modifyEntity id f).MarksPlain := by
  refine h.modifyEntity id fun e he => ?_
  obtain ⟨hclass, hsections⟩ := Prod.mk.inj (hf e)
  exact he.congr hclass fun s _ => congrArg (·.get s) hsections

theorem modifyClass (id : EntityId) (f : ClassBody → ClassBody)
    (hf : ∀ c, (f c).isSimple = c.isSimple ∧ (f c).isLinked = c.isLinked) :
    (a.modifyClass id f).MarksPlain :=
  h.modifyEntity id fun _ he => he.modifyClass fun c => .inr (hf c)

omit h in
theorem keptByLinks : KeptByLinks MarksPlain :=
  fun _ id _ hf hb => hb.modifyEntity id fun _ he => he.modifyClass fun c => (hf c).isSimple

theorem of_relates {touched : List Nat} (hrelates : a.Relates touched b) : b.MarksPlain := by
  intro id e he
  rw [entity?, hrelates.entities] at he
  refine (h id e he).mono hrelates.options fun id m hm => ?_
  obtain ⟨category, relation, hm'⟩ := hrelates.kept id m hm
  exact ⟨_, hm', rfl, rfl⟩

theorem allocate (name : String) (kind : EntityKind) (location : Location) :
    (a.allocate name kind location).1.MarksPlain := by
  intro id e he
  rw [entity?_allocate] at he
  split at he
  · cases he
    refine ⟨by simp [Entity.declare, SectionTable.get], fun c hc => ?_⟩
    unfold Entity.class? Entity.declare at hc
    cases hkind : kind.isNamespaceLike with
    | true => simp [hkind] at hc
    | false =>
      obtain rfl : { isSimple := _, hasSubGrouping := _ } = c := by simpa [hkind] using hc
      simp [ClassBody.isLinked, ListsPlain, Entity.declare, SectionTable.get, Atlas.allocate]
  · exact ⟨(h id e he).1, (h id e he).2⟩

theorem fileInClass (owner : EntityId) (id : MemberId) (p : Protection) (isListed : Bool) :
    (a.fileInClass owner id p isListed).value.MarksPlain := by
  rcases a.fileInClass_cases owner id p isListed with heq | ⟨m, entry, hm, -, -, heq⟩ <;> rw [heq]
  · exact h
  · exact h.modifyEntity owner fun e he => he.holding hm entry

theorem copyMembers (instanceId generic : EntityId) (spec : String) :
    (a.copyMembers instanceId generic spec).value.MarksPlain := by
  refine Noted.foldlM_kept (P := MarksPlain) (fun b source hb => ?_) _ h
  unfold copyIntoInstance
  split
  · exact hb
  · exact (hb.of_relates (.addMember b _ _)).fileInClass _ _ _ _

theorem addInstance (generic : EntityId) (master : Entity) (key : String) :
    (a.addInstance generic master key).value.1.MarksPlain := by
  apply copyMembers
  apply MarksPlain.modifyClass
  · apply MarksPlain.modifyClass
    · exact (h.allocate _ _ _).describe _ fun e => rfl
    · exact fun c => ⟨rfl, rfl⟩
  · exact fun c => ⟨rfl, rfl⟩

theorem instantiateVariable {made : Noted (Atlas × EntityId)}
    (hmade : a.instantiateVariable template spec = .ok made) : made.value.1.MarksPlain := by
  rcases instantiateVariable_cases hmade with heq | ⟨master, -, -, heq⟩ <;> rw [heq]
  · exact h
  · apply MarksPlain.modifyClass
    · apply MarksPlain.modifyClass
      · apply copyMembers
        exact (h.allocate _ _ _).describe _ fun e => rfl
      · exact fun c => ⟨rfl, rfl⟩
    · exact fun c => ⟨rfl, rfl⟩

theorem mergeOne (u : EntityId) : (a.mergeOne u).value.MarksPlain := by
  cases hclass : a.class? u with
  | none => simpa [Atlas.mergeOne, hclass] using h
  | some c =>
    cases hmerged : c.isMerged with
    | true => simpa [Atlas.mergeOne, hclass, hmerged] using h
    | false =>
      obtain ⟨e, he, hbody⟩ := (a.class?_eq_some_iff u c).mp hclass
      rw [a.value_mergeOne_of_unmerged he hbody hmerged]
      refine foldl_kept (fun b entry hb => hb.fileInClass _ _ _ _) _ ?_
      apply MarksPlain.modifyClass
      · apply h.modifyClass
        exact fun c => ⟨rfl, rfl⟩
      · exact fun c => ⟨rfl, rfl⟩

theorem mergeCategory (hreached : a.Upholds .reached) {id : EntityId} {merged : Noted Atlas}
    (hmerged : a.mergeCategory id category = .ok merged) : merged.value.MarksPlain := by
  rcases hreached.mergeCategory_cases hmerged with
    ⟨_, -, -, heq⟩ | ⟨_, c, result, -, -, hadopted, heq⟩
  · rwa [heq]
  · obtain ⟨touched, hrelates⟩ := hadopted.relates
    have hmarked := withCategory_kept keptByLinks (fun _ id hb => hb.describe id fun e => rfl) id
      category c h
    rw [heq, ← foldl_fileInClass]
    refine foldl_kept (fun b entry hb => hb.fileInClass _ _ _ _) _ ?_
    apply MarksPlain.modifyClass
    · refine of_relates (hmarked.modifyClass id _ ?_) hrelates
      exact fun c => ⟨rfl, rfl⟩
    · exact fun c => ⟨rfl, rfl⟩

end MarksPlain

end Atlas

end Filing

/-! ## Operations -/

namespace Operation

variable {a : Atlas}

/-- Classes come about by such operations. -/
def BuildsClasses : Operation → Prop
  | setOuter _ _ | amend _ _ | amendMember _ _ | useNamespace _ _ | useDeclaration _ _ _
  | closeUsing _ | closeAllUsing => False
  | _ => True

theorem BuildsClasses.keepsRosters {operation : Operation} (h : operation.BuildsClasses) :
    operation.KeepsRosters := by
  cases operation with
  | amend _ _ | amendMember _ _ => exact h.elim
  | _ => trivial

/-- The step lemma: the mark of a structure follows what is filed in it. -/
theorem marksPlain_perform {operation : Operation} (h : operation.BuildsClasses)
    (hreached : a.Upholds .reached) (ha : a.MarksPlain) : (operation.perform a).MarksPlain := by
  have hlink (b : Atlas) (child : EntityId) (edge : BaseEdge) (hb : b.MarksPlain) :
      (b.linkBase child edge).value.MarksPlain :=
    Atlas.linkBase_kept Atlas.MarksPlain.keptByLinks child edge hb
  cases operation with
  | register name kind location =>
    have hadded := ha.allocate name kind location
    show (a.register name kind location).1.MarksPlain
    unfold Atlas.register
    split
    · exact ha
    · exact fun id e he => ⟨(hadded id e he).1, (hadded id e he).2⟩
  | setFormals id formals =>
    refine outcome_kept ha fun b hb => ?_
    obtain ⟨c, -, hb⟩ := Except.bind_eq_ok hb
    cases hb
    exact ha.modifyClass id _ fun c => ⟨rfl, rfl⟩
  | addMember owner m => exact ha.of_relates (.addMember a owner m)
  | insertMember owner id =>
    refine outcome_kept ha fun filed hfiled => Atlas.insertMember_kept hfiled (fun p => ?_) ?_
    · exact ha.fileInClass owner id p true
    · exact Atlas.fileInNamespace_kept (P := Atlas.MarksPlain)
        (fun _ owner m hb => hb.modifyEntity owner fun _ he => he.posting m id) owner ha
  | insertBase child parent edge =>
    refine outcome_kept ha fun linked hlinked => ?_
    obtain ⟨c, -, hlinked⟩ := Except.bind_eq_ok hlinked
    obtain ⟨c', -, hlinked⟩ := Except.bind_eq_ok hlinked
    cases hlinked
    exact hlink a _ _ ha
  | instantiate template spec =>
    refine outcome_kept ha fun made hmade => ?_
    exact ((Atlas.InstancesKeep.of_always (fun _ _ _ _ _ hb => hb.addInstance _ _ _)
      hlink).instantiate ha trivial hmade).1.holds
  | instantiateVariable template spec =>
    exact outcome_kept ha fun made hmade => ha.instantiateVariable hmade
  | mergeMembers _ | mergeAll =>
    exact perform_kept_of_isMerge (fun b u hb => hb.mergeOne u) trivial ha
  | mergeCategory id category =>
    exact outcome_kept ha fun merged hmerged => ha.mergeCategory hreached hmerged
  | setOuter _ _ | amend _ _ | amendMember _ _ | useNamespace _ _ | useDeclaration _ _ _
  | closeUsing _ | closeAllUsing => exact h.elim

/-- A class is marked as plain data exactly if the options ask for it, no class is linked to it, and
each entry of its declarations is one that plain data can have. -/
theorem isSimple_iff_plain (options : Options) {operations : List Operation}
    (h : ∀ operation ∈ operations, operation.BuildsClasses) {id : EntityId} {c : ClassBody}
    (hc : (performAll (.empty options) operations).class? id = some c) :
    c.isSimple = true ↔ options.inlineSimpleStruct = true ∧ c.bases = [] ∧ c.derived = [] ∧
      (performAll (.empty options) operations).ListsPlain
        ((performAll (.empty options) operations).sectionMembers id) := by
  have hall : (performAll (.empty options) operations).Upholds .reached ∧
      (performAll (.empty options) operations).MarksPlain := by
    refine List.foldlRecOn (motive := fun b : Atlas => b.Upholds .reached ∧ b.MarksPlain) _ _
      ⟨.empty _ rfl options, by simp [Atlas.MarksPlain, Atlas.entity?, Atlas.empty]⟩
      fun b hb operation hoperation => ?_
    have hbuilds := h operation hoperation
    exact ⟨operation.upholds_perform_of_merges (fun _ => trivial) hbuilds.keepsRosters hb.1,
      marksPlain_perform hbuilds hb.1 hb.2⟩
  have hchanges : Atlas.Changes false (.empty options) (performAll (.empty options) operations) :=
    changes_performAll operations (.empty options) fun hstrict => absurd hstrict Bool.false_ne_true
  obtain ⟨e, he, hclass⟩ := (Atlas.class?_eq_some_iff _ id c).mp hc
  have hoptions : (performAll (.empty options) operations).options = options := hchanges.options
  rw [(hall.2 id e he).isSimple c hclass, hoptions]
  simp [ClassBody.isLinked, Atlas.ListsPlain, Atlas.sectionMembers, he, and_assoc]

/-- A structure with a number, and one with a name of a type of functions. -/
def structures : List Operation :=
  [register "Point" .structKind {}, register "Callbacks" .structKind {},
    addMember (some ⟨1⟩) { name := "x", kind := .variableKind, typeText := "int" },
    addMember (some ⟨2⟩) { name := "Call", kind := .typedef, typeText := "void (*)(int)" },
    insertMember ⟨1⟩ ⟨1⟩, insertMember ⟨2⟩ ⟨2⟩]

theorem isSimple_iff_plain_structures :
    let a := performAll (.empty { inlineSimpleStruct := true }) structures
    (∀ operation ∈ structures, operation.BuildsClasses) ∧
      ∃ c d, a.class? ⟨1⟩ = some c ∧ a.class? ⟨2⟩ = some d ∧
        (c.isSimple = true ∧ a.sectionMembers ⟨1⟩ (.attributes .pub) = [⟨1⟩] ∧
          a.ListsPlain (a.sectionMembers ⟨1⟩)) ∧
        d.isSimple = false ∧ d.bases = [] ∧ d.derived = [] ∧
          ¬a.ListsPlain (a.sectionMembers ⟨2⟩) := by
  intro a
  have h : ∀ operation ∈ structures, operation.BuildsClasses := by
    simp [structures, BuildsClasses]
  have hread : (a.class? ⟨1⟩).map (·.isSimple) = some true ∧
      (a.class? ⟨2⟩).map (fun d => (d.isSimple, d.bases, d.derived)) = some (false, [], []) := by
    decide +kernel
  obtain ⟨c, hc, hsimple⟩ := Option.map_eq_some_iff.mp hread.1
  obtain ⟨d, hd, heq⟩ := Option.map_eq_some_iff.mp hread.2
  simp only [Prod.mk.injEq] at heq
  obtain ⟨hmarked, hbases, hderived⟩ := heq
  refine ⟨h, c, d, hc, hd, ⟨hsimple, by decide +kernel, ?_⟩, hmarked, hbases, hderived, ?_⟩
  · exact ((isSimple_iff_plain _ h hc).mp hsimple).2.2.2
  · intro hplain
    have hd' := (isSimple_iff_plain _ h hd).mpr ⟨rfl, hbases, hderived, hplain⟩
    rw [hmarked] at hd'
    cases hd'

end Operation

end SymbolAtlas
