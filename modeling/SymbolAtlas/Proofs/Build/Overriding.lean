import SymbolAtlas.Proofs.Build.Donation
import SymbolAtlas.Proofs.Inheritance.Overriding

/-!
# Overriding in a built atlas

A build never changes the options, files members in the classes that own them and gives out no number
zero. So without a bound on the depth of inheritance, no class of the atlas that it ends with inherits
what one of its own members overrides, whether or not the classes are derived from each other in a
circle.
-/

set_option autoImplicit false

namespace SymbolAtlas.Build

open Atlas

/-! ## Options -/

theorem options_mergeCategoryOf (progress : Progress) (owner : Declared) :
    (mergeCategoryOf progress owner).value.atlas.options = progress.atlas.options := by
  refine mergeCategoryOf_kept (P := fun q => q.atlas.options = progress.atlas.options)
    (fun id merged hmerged => ?_) rfl
  rcases mergeCategory_eq_or hmerged with heq | ⟨_, c, isLocal, -, -, heq⟩ <;> rw [heq]
  exact options_adopt _ id owner.1 c isLocal

theorem options_assemble (options : Options) (d : Document) :
    (assemble (.empty options) d).value.atlas.options = options := by
  have hlinked : (linkAll options d).value.1.atlas.options = options :=
    (changes_linkAll options d).1.options
  unfold linkAll at hlinked
  rw [assemble]
  simp only [Noted.value_bind, Noted.value_pure] at hlinked ⊢
  refine Noted.foldlM_kept (P := fun p : Progress => p.atlas.options = options)
    (fun p owner hp => addUsings_kept (P := fun q => q.atlas.options = options) (fun _ hq => hq)
      (fun _ _ _ hq => hq) owner hp) _ ?_
  exact Noted.foldlM_kept
    (fun p owner hp => (options_mergeCategoryOf p owner).trans hp) _ hlinked

/-! ## The whole build -/

theorem findsOwners_assemble (options : Options) (d : Document)
    (hbound : options.maxInheritanceDepth = 0) :
    (assemble (.empty options) d).value.atlas.FindsOwners := by
  have hsound := isSound_assemble (.empty options) d
  refine findsOwners ?_ hsound.avoidsZero fun mid m hm owner howner => ?_
  · rw [options_assemble]
    exact hbound
  · exact ((hsound.members mid m hm).owner owner howner).1

/-- In the atlas that a build without a bound on the depth of inheritance ends with, no member that a
class inherits has the signature of another one that the class has under the name itself. -/
theorem inherited_run_not_overridden (options : Options) (d : Document)
    (hbound : options.maxInheritanceDepth = 0) (id : EntityId) (name : String) :
    let a := (run options d).value.1
    ∀ own ∈ (a.rosterOf id).under name, ∀ t ∈ (a.rosterOf id).under name,
      own.isInherited = false → t.isInherited = true → t.member ≠ own.member →
      ∃ declared inherited, a.member? own.member = some declared ∧
        a.member? t.member = some inherited ∧
        inherited.signature.isCompatible declared.signature = false ∧
        declared.signature.isCompatible inherited.signature = false := by
  intro a own hown t ht hflag hinherited hne
  let before := (assemble (.empty options) d).value.atlas
  have hlists : before.ListsOwnViews := (isTidy_assemble (.empty .tidy rfl options) d).listsOwnViews
  have hafter : a = before.mergeAll.value.1.closeAllUsing := run_atlas_eq options d
  have hprovenance : HasProvenance before a := by
    rw [hafter]
    exact (hasProvenance_mergeAll hlists).closeAllUsing
  have hguarded : before.IsGuarded a := by
    rw [hafter]
    exact (isGuarded_mergeAll hlists (findsOwners_assemble options d hbound)).closeAllUsing
  -- a view that is not inherited was there before members were inherited
  have hown' : own ∈ (before.rosterOf id).under name := by
    obtain ⟨rest, hrest, hfrom⟩ := hprovenance.rosters id name
    rw [hrest] at hown
    rcases List.mem_append.mp hown with hown | hown
    · exact hown
    · obtain ⟨m, edges, base, hfrom⟩ := hfrom own hown
      rw [hfrom.isInherited] at hflag
      cases hflag
  obtain ⟨declared, hdeclared, -⟩ := (hlists id name own hown').member
  obtain ⟨inherited, -, -, hsource, -⟩ := hprovenance.exists_owner hlists ht
  have hincompatible : inherited.signature.isCompatible declared.signature = false := by
    rw [← Bool.not_eq_true]
    intro hcompatible
    exact (hguarded id name own hown').clear t ht hinherited
      ⟨hne.symm, declared, inherited, hdeclared, hsource, hcompatible⟩
  refine ⟨declared, inherited, ?_, ?_, hincompatible, ?_⟩
  · rw [hprovenance.resembles.member?]
    exact hdeclared
  · rw [hprovenance.resembles.member?]
    exact hsource
  · rw [Signature.isCompatible_comm]
    exact hincompatible

/-- A class that is derived from another one in two ways and overrides one of its two functions. The
other one is derived from it in turn. -/
def loop : Document where
  entities :=
    [{ name := "Top", kind := "class", bases := [.plain "Bottom"],
       members := [{ name := "f", kind := "function", args := "(int x)" },
         { name := "f", kind := "function", args := "(char c)" }] },
     { name := "Left", kind := "class", bases := [.plain "Top"] },
     { name := "Right", kind := "class", bases := [.plain "Top"] },
     { name := "Bottom", kind := "class", bases := [.plain "Left", .plain "Right"],
       members := [{ name := "f", kind := "function", args := "(int y)" }] }]

theorem inherited_run_not_overridden_loop :
    let a := (run { maxInheritanceDepth := 0 } loop).value.1
    ∃ own ∈ (a.rosterOf ⟨4⟩).under "f", ∃ t ∈ (a.rosterOf ⟨4⟩).under "f",
      own.isInherited = false ∧ t.isInherited = true ∧ t.member ≠ own.member ∧
      ∃ declared inherited, a.member? own.member = some declared ∧
        a.member? t.member = some inherited ∧
        inherited.signature.isCompatible declared.signature = false ∧
        declared.signature.isCompatible inherited.signature = false := by
  have hviews : ∃ own ∈ ((run { maxInheritanceDepth := 0 } loop).value.1.rosterOf ⟨4⟩).under "f",
      ∃ t ∈ ((run { maxInheritanceDepth := 0 } loop).value.1.rosterOf ⟨4⟩).under "f",
        own.isInherited = false ∧ t.isInherited = true ∧ t.member ≠ own.member := by
    decide +kernel
  obtain ⟨own, hown, t, ht, hflag, hinherited, hne⟩ := hviews
  exact ⟨own, hown, t, ht, hflag, hinherited, hne,
    inherited_run_not_overridden { maxInheritanceDepth := 0 } loop rfl ⟨4⟩ "f" own hown t ht hflag
      hinherited hne⟩

end SymbolAtlas.Build
