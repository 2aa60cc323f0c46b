import SymbolAtlas.Proofs.Inheritance.Merging

/-!
# What filing adds to sections

Filing a member in an entity adds it to the sections that its placement names, unless it is there
already, and to no other section. Filing one member after the other adds each of them where it
belongs, whatever the order; no section comes to hold a member twice.
-/

set_option autoImplicit false

namespace SymbolAtlas

/-! ## Tables -/

namespace SectionTable

variable {s s' : Section} {m m' : MemberId}

theorem lookup_fileIn (s s' : Section) (m : MemberId) (sections : List (Section × List MemberId)) :
    ((fileIn s m sections).lookup s').getD [] =
      if s' = s then
        (if m ∈ (sections.lookup s).getD [] then (sections.lookup s).getD []
          else (sections.lookup s).getD [] ++ [m])
      else (sections.lookup s').getD [] := by
  induction sections with
  | nil =>
    rw [fileIn, Dict.lookup_cons_eq_ite]
    by_cases hs : s' = s
    · simp [hs]
    · simp [hs]
  | cons entry rest ih =>
    obtain ⟨t, members⟩ := entry
    unfold fileIn
    by_cases ht : t = s
    · subst ht
      rw [if_pos rfl]
      simp only [Dict.lookup_cons_eq_ite]
      by_cases hs : s' = t
      · simp [hs]
      · simp [hs]
    · rw [if_neg ht]
      simp only [Dict.lookup_cons_eq_ite]
      by_cases hs : s' = t
      · subst hs
        simp [ht]
      · simp only [if_neg hs, if_neg (Ne.symm ht)]
        exact ih

theorem get_file (t : SectionTable) (s s' : Section) (m : MemberId) :
    (t.file s m).get s' =
      if s' = s then (if m ∈ t.get s then t.get s else t.get s ++ [m]) else t.get s' :=
  lookup_fileIn s s' m t.sections

theorem mem_get_file {t : SectionTable} :
    m' ∈ (t.file s m).get s' ↔ m' ∈ t.get s' ∨ s' = s ∧ m' = m := by
  rw [get_file]
  by_cases hs : s' = s
  · subst hs
    by_cases hm : m ∈ t.get s'
    · simp only [if_pos hm, ↓reduceIte, true_and, iff_self_or]
      rintro rfl
      exact hm
    · simp [hm]
  · simp [hs]

theorem nodup_get_file {t : SectionTable} (h : (t.get s').Nodup) : ((t.file s m).get s').Nodup := by
  rw [get_file]
  by_cases hs : s' = s
  · subst hs
    by_cases hm : m ∈ t.get s'
    · simpa [hm] using h
    · simp only [↓reduceIte, if_neg hm]
      exact List.nodup_append.mpr ⟨h, by simp, fun x hx y hy => by
        rintro rfl
        exact hm (List.mem_singleton.mp hy ▸ hx)⟩
  · simpa [hs] using h

end SectionTable

/-! ## Entities -/

/-- A placement puts a member into a section, among the declarations or the documentation. -/
def Placement.Names (placement : Placement) (s : Section) : Prop :=
  s = placement.declaration ∨ placement.documentation = some s

@[simp] theorem Entity.sections_modifyClass (e : Entity) (f : ClassBody → ClassBody) :
    (e.modifyClass f).sections = e.sections := by
  unfold modifyClass
  split <;> rfl

theorem Entity.sections_filed (e : Entity) (placement : Placement) (id : MemberId) :
    (e.filed placement id).sections =
      match placement.documentation with
      | some s => (e.sections.file placement.declaration id).file s id
      | none => e.sections.file placement.declaration id := by
  unfold filed
  dsimp only
  split
  · rfl
  · exact sections_modifyClass _ _

/-- Filing adds one member to the sections of its placement. -/
theorem Entity.mem_sections_filed {e : Entity} {placement : Placement} {id m : MemberId}
    {s : Section} :
    m ∈ (e.filed placement id).sections.get s ↔
      m ∈ e.sections.get s ∨ placement.Names s ∧ m = id := by
  rw [sections_filed, Placement.Names]
  cases placement.documentation with
  | none => simp [SectionTable.mem_get_file]
  | some s' => simp [SectionTable.mem_get_file, or_and_right, or_assoc, eq_comm]

theorem Entity.nodup_sections_filed {e : Entity} {s : Section} (h : (e.sections.get s).Nodup)
    (placement : Placement) (id : MemberId) : ((e.filed placement id).sections.get s).Nodup := by
  rw [sections_filed]
  cases placement.documentation with
  | none => exact SectionTable.nodup_get_file h
  | some s' => exact SectionTable.nodup_get_file (SectionTable.nodup_get_file h)

/-- A member of the atlas that is not hidden goes into a section when it is seen at a protection. -/
def Atlas.FilesUnder (a : Atlas) (entry : MemberId × Protection) (s : Section) : Prop :=
  ∃ m placement, a.member? entry.1 = some m ∧ m.flags.isHidden = false ∧
    Placement.ofMember? m entry.2 a.options = some placement ∧ placement.Names s

namespace Entity

variable {a : Atlas} {e : Entity} {m : MemberId} {s : Section}

theorem mem_sections_inlining {entry : MemberId × Protection} :
    m ∈ (e.inlining a entry).sections.get s ↔
      m ∈ e.sections.get s ∨ a.FilesUnder entry s ∧ m = entry.1 := by
  unfold inlining Atlas.FilesUnder
  cases hm : a.member? entry.1 with
  | none => simp
  | some member =>
    cases hhidden : member.flags.isHidden with
    | true => simp [hhidden]
    | false =>
      cases hplacement : Placement.ofMember? member entry.2 a.options with
      | none => simp [hhidden, hplacement]
      | some placement => simp [hhidden, hplacement, mem_sections_filed]

theorem mem_sections_foldl_inlining {inlined : Inlined} :
    m ∈ (inlined.foldl (inlining a) e).sections.get s ↔
      m ∈ e.sections.get s ∨ ∃ entry ∈ inlined, a.FilesUnder entry s ∧ m = entry.1 := by
  induction inlined generalizing e with
  | nil => simp
  | cons entry rest ih =>
    rw [List.foldl_cons, ih, mem_sections_inlining, or_assoc]
    simp only [List.mem_cons, exists_eq_or_imp]

theorem nodup_sections_foldl_inlining (h : (e.sections.get s).Nodup) (inlined : Inlined) :
    ((inlined.foldl (inlining a) e).sections.get s).Nodup := by
  refine foldl_kept (P := fun e : Entity => (e.sections.get s).Nodup) (fun e entry h => ?_) _ h
  unfold inlining
  split
  · exact h
  · split
    · exact h
    · rw [sections_modifyClass]
      split
      · exact nodup_sections_filed h _ _
      · exact h

end Entity

end SymbolAtlas
