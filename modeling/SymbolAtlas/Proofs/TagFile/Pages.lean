import SymbolAtlas.Proofs.Text.MarkupReader

/-!
# Reading tag files

The elements of a tag file say which pages there are and what is on them. Every list of compounds is
written in such a way that its pages are read back, whatever characters there are in names, types,
arguments and file names.
-/

set_option autoImplicit false

namespace SymbolAtlas

namespace Markup.Element

/-- The value of an attribute. -/
def attribute? (el : Element) (key : String) : Option String :=
  el.attributes.lookup key

/-- The texts of the elements with a name. -/
def texts (el : Element) (name : String) : List String :=
  (el.children.filter (·.name == name)).map (·.text)

/-- The text of the only element with a name. -/
def text? (el : Element) (name : String) : Option String :=
  match el.texts name with
  | [text] => some text
  | _ => none

end Markup.Element

namespace TagFile

open Markup

variable (isThere : Bool) {name : String} (c : Compound)

/-! ## What can be read -/

/-- A base as it is read. -/
structure BaseTag where
  protection : Option String := none
  virtualness : Option String := none
  name : String
deriving DecidableEq, Repr

/-- A member as it is read. -/
structure MemberTag where
  kind : String
  protection : Option String := none
  virtualness : Option String := none
  static : Option String := none
  typeText : Option String
  name : String
  anchorFile : String
  anchor : String
  args : String
deriving DecidableEq, Repr

/-- A page as it is read. -/
structure Page where
  kind : String
  objc : Option String := none
  name : String
  fileName : String
  formals : List String := []
  bases : List BaseTag := []
  inner : List Inner := []
  members : List MemberTag := []
deriving DecidableEq, Repr

/-- Reads a base. -/
def BaseTag.ofElement (el : Element) : BaseTag where
  protection := el.attribute? "protection"
  virtualness := el.attribute? "virtualness"
  name := el.text

/-- Reads an entity inside another one. -/
def Inner.ofElement? (el : Element) : Option Inner :=
  if el.name = "namespace" then some (.ofNamespace el.text)
  else if el.name = "class" then (el.attribute? "kind").map (.ofClass · el.text)
  else none

/-- Reads a member. -/
def MemberTag.ofElement? (el : Element) : Option MemberTag := do
  return {
    kind := ← el.attribute? "kind"
    protection := el.attribute? "protection"
    virtualness := el.attribute? "virtualness"
    static := el.attribute? "static"
    typeText := (el.texts "type").head?
    name := ← el.text? "name"
    anchorFile := ← el.text? "anchorfile"
    anchor := ← el.text? "anchor"
    args := ← el.text? "arglist" }

/-- Reads a page. -/
def Page.ofElement? (el : Element) : Option Page := do
  return {
    kind := ← el.attribute? "kind"
    objc := el.attribute? "objc"
    name := ← el.text? "name"
    fileName := ← el.text? "filename"
    formals := el.texts "templarg"
    bases := (el.children.filter (·.name == "base")).map .ofElement
    inner := el.children.filterMap Inner.ofElement?
    members := ← (el.children.filter (·.name == "member")).mapM MemberTag.ofElement? }

/-- Reads a tag file. -/
def readPages (text : String) : Option (List Page) := do
  let root ← Markup.read text
  if root.name = "tagfile" then root.children.mapM Page.ofElement? else none

/-! ## The elements of a tag file -/

/-- An element with nothing but text. -/
def leaf (name text : String) : Element :=
  { name, attributes := [], text, children := [] }

/-- The element of a base. -/
def Base.toElement (base : Base) : Element :=
  { name := "base", attributes := base.attributes, text := base.name, children := [] }

/-- The element of an entity inside another one. -/
def Inner.toElement : Inner → Element
  | ofNamespace name => leaf "namespace" name
  | ofClass kind name =>
    { name := "class", attributes := [("kind", kind)], text := name, children := [] }

/-- The element of a member. -/
def Entry.toElement (m : Entry) : Element where
  name := "member"
  attributes := m.attributes
  text := ""
  children := m.typeText.toList.map (leaf "type")
    ++ [leaf "name" m.name, leaf "anchorfile" m.anchorFile, leaf "anchor" m.anchor,
      leaf "arglist" m.args]

/-- The element of a namespace or class. -/
def Compound.toElement (c : Compound) : Element where
  name := "compound"
  attributes := c.attributes
  text := ""
  children := [leaf "name" c.name, leaf "filename" c.fileName]
    ++ c.formals.map (fun formal => leaf "templarg" (formalText formal))
    ++ c.bases.map Base.toElement ++ c.inner.map Inner.toElement ++ c.members.map Entry.toElement

/-! ## Elements as they are read -/

theorem yields_line {indent inner : String} {attributes : List (String × String)} {el : Element}
    (hindent : isPlain indent = true) (h : Yields (tagged name attributes inner) [el]) :
    Yields (line indent name attributes inner) [el] :=
  ((yields_plain hindent).append h).append (yields_plain rfl)

theorem yields_element (indent name : String) (hindent : isPlain indent = true)
    (hname : isWord name = true) (text : String) :
    Yields (element indent name text) [leaf name text] :=
  yields_line hindent (yields_leaf hname rfl text)

theorem areReadable_append (attributes attributes' : List (String × String)) :
    Reader.areReadable (attributes ++ attributes') =
      (Reader.areReadable attributes && Reader.areReadable attributes') :=
  List.all_append

theorem areReadable_singleton {key value : String} (hkey : isWord key = true)
    (hvalue : isPlain value = true) : Reader.areReadable [(key, value)] = true := by
  simp [Reader.areReadable, hkey, hvalue]

theorem areReadable_optional {key value : String} (hkey : isWord key = true)
    (hvalue : isPlain value = true) : Reader.areReadable (optional isThere key value) = true := by
  cases isThere with
  | true => exact areReadable_singleton hkey hvalue
  | false => rfl

theorem yields_renderBase (base : Base) : Yields (renderBase base) [base.toElement] := by
  have hreadable : Reader.areReadable base.attributes = true := by
    rw [Base.attributes, areReadable_append, areReadable_append, areReadable_optional _ rfl rfl,
      areReadable_optional _ rfl rfl, areReadable_optional _ rfl rfl]
    rfl
  exact yields_line rfl (yields_leaf rfl hreadable base.name)

/-- The kind can be written as it is. -/
def Inner.isReadable : Inner → Bool
  | ofNamespace _ => true
  | ofClass kind _ => isPlain kind

theorem yields_renderInner {inner : Inner} (h : inner.isReadable = true) :
    Yields (renderInner inner) [inner.toElement] := by
  cases inner with
  | ofNamespace name => exact yields_element "    " "namespace" rfl rfl name
  | ofClass kind name => exact yields_line rfl (yields_leaf rfl (areReadable_singleton rfl h) name)

theorem isPlain_memberKind (isFriend : Bool) (kind : MemberKind) :
    isPlain ((if isFriend then "friend" else "") ++ kind.name) = true := by
  cases isFriend <;> cases kind <;> rfl

theorem isPlain_protection (p : Protection) : isPlain p.name = true := by
  cases p <;> rfl

theorem isPlain_virtualness (v : Virtualness) : isPlain v.name = true := by
  cases v <;> rfl

theorem yields_renderEntry (m : Entry) : Yields (renderEntry m) [m.toElement] := by
  have hreadable : Reader.areReadable m.attributes = true := by
    rw [Entry.attributes, areReadable_append, areReadable_append, areReadable_append,
      areReadable_singleton rfl (isPlain_memberKind _ _),
      areReadable_optional _ rfl (isPlain_protection _),
      areReadable_optional _ rfl (isPlain_virtualness _), areReadable_optional _ rfl rfl]
    rfl
  have htype : Yields (String.join (m.typeText.toList.map (element "      " "type")))
      (m.typeText.toList.map (leaf "type")) :=
    yields_join fun text _ => yields_element "      " "type" rfl rfl text
  have hinside := ((((((yields_plain (s := "\n") rfl).append htype).append
    (yields_element "      " "name" rfl rfl m.name)).append
    (yields_element "      " "anchorfile" rfl rfl m.anchorFile)).append
    (yields_element "      " "anchor" rfl rfl m.anchor)).append
    (yields_element "      " "arglist" rfl rfl m.args)).append (yields_plain (s := "    ") rfl)
  simp only [List.nil_append, List.append_nil, List.append_assoc, List.cons_append] at hinside
  exact yields_line rfl (yields_branch rfl hreadable hinside (by simp))

/-- The kinds of a namespace or class and of what is inside it can be written as they are. -/
def Compound.isReadable (c : Compound) : Bool :=
  isPlain c.kind && c.inner.all Inner.isReadable

/-- What is written for a namespace or class is read as one element. -/
theorem yields_renderCompound {c : Compound} (h : c.isReadable = true) :
    Yields (renderCompound c) [c.toElement] := by
  obtain ⟨hkind, hinner⟩ := Bool.and_eq_true_iff.mp h
  have hreadable : Reader.areReadable c.attributes = true := by
    rw [Compound.attributes, areReadable_append, areReadable_singleton rfl hkind,
      areReadable_optional _ rfl rfl]
    rfl
  have hformals : Yields (String.join (c.formals.map renderFormal))
      (c.formals.map fun formal => leaf "templarg" (formalText formal)) :=
    yields_join fun formal _ => yields_element "    " "templarg" rfl rfl (formalText formal)
  have hbases : Yields (String.join (c.bases.map renderBase)) (c.bases.map Base.toElement) :=
    yields_join fun base _ => yields_renderBase base
  have hinner : Yields (String.join (c.inner.map renderInner)) (c.inner.map Inner.toElement) :=
    yields_join fun inner hmem => yields_renderInner (List.all_eq_true.mp hinner inner hmem)
  have hmembers : Yields (String.join (c.members.map renderEntry))
      (c.members.map Entry.toElement) :=
    yields_join fun m _ => yields_renderEntry m
  have hinside := (((((((yields_plain (s := "\n") rfl).append
    (yields_element "    " "name" rfl rfl c.name)).append
    (yields_element "    " "filename" rfl rfl c.fileName)).append hformals).append hbases).append
    hinner).append hmembers).append (yields_plain (s := "  ") rfl)
  refine yields_line rfl (yields_branch rfl hreadable ?_ rfl)
  simpa only [List.nil_append, List.append_nil, List.append_assoc, List.cons_append] using hinside

/-! ## Pages as they are read -/

/-- The base as it is read. -/
def Base.tag (base : Base) : BaseTag where
  protection :=
    if base.protection = .prot then some "protected"
    else if base.protection = .priv then some "private"
    else none
  virtualness := if base.isVirtual then some "virtual" else none
  name := base.name

/-- The member as it is read. -/
def Entry.tag (m : Entry) : MemberTag where
  kind := (if m.isFriend then "friend" else "") ++ m.kind.name
  protection := if m.protection = .pub then none else some m.protection.name
  virtualness := if m.virtualness.isNormal then none else some m.virtualness.name
  static := if m.isStatic then some "yes" else none
  typeText := m.typeText
  name := m.name
  anchorFile := m.anchorFile
  anchor := m.anchor
  args := m.args

/-- The namespace or class as it is read. -/
def Compound.page (c : Compound) : Page where
  kind := c.kind
  objc := if c.isObjectiveC then some "yes" else none
  name := c.name
  fileName := c.fileName
  formals := c.formals.map formalText
  bases := c.bases.map Base.tag
  inner := c.inner
  members := c.members.map Entry.tag

theorem lookup_optional (key value key' : String) : (optional isThere key value).lookup key' =
      if isThere && key' == key then some value else none := by
  cases isThere with
  | true => cases h : key' == key <;> simp [optional, h]
  | false => rfl

theorem Base.ofElement_toElement (base : Base) : .ofElement base.toElement = base.tag := by
  obtain ⟨protection, isVirtual, name⟩ := base
  cases protection <;> cases isVirtual <;> rfl

theorem Inner.ofElement?_toElement (inner : Inner) : ofElement? inner.toElement = some inner := by
  cases inner <;> rfl

theorem Entry.ofElement?_toElement (m : Entry) :
    MemberTag.ofElement? m.toElement = some m.tag := by
  have hlookup (key : String) : m.toElement.attribute? key = m.attributes.lookup key := rfl
  have hkind : m.toElement.attribute? "kind" = some m.tag.kind := rfl
  have hprotection : m.toElement.attribute? "protection" = m.tag.protection := by
    simp [hlookup, attributes, List.lookup_cons, List.lookup_append, lookup_optional, tag]
  have hvirtualness : m.toElement.attribute? "virtualness" = m.tag.virtualness := by
    cases hnormal : m.virtualness.isNormal <;>
      simp [hlookup, attributes, List.lookup_cons, List.lookup_append, lookup_optional, tag,
        hnormal]
  have hstatic : m.toElement.attribute? "static" = m.tag.static := by
    simp [hlookup, attributes, List.lookup_cons, List.lookup_append, lookup_optional, tag]
  unfold MemberTag.ofElement?
  rw [hprotection, hvirtualness, hstatic]
  obtain ⟨_, _, _, _, _, typeText, _, _, _, _⟩ := m
  cases typeText <;> rfl

theorem filter_map_name {α : Type} {f : α → Element} (h : ∀ x, (f x).name = name) (xs : List α)
    (name' : String) :
    (xs.map f).filter (·.name == name') = if name = name' then xs.map f else [] := by
  split
  · next heq =>
    refine List.filter_eq_self.mpr fun el hel => ?_
    obtain ⟨x, -, rfl⟩ := List.mem_map.mp hel
    exact beq_iff_eq.mpr ((h x).trans heq)
  · next hne =>
    refine List.filter_eq_nil_iff.mpr fun el hel hname => ?_
    obtain ⟨x, -, rfl⟩ := List.mem_map.mp hel
    exact hne ((h x).symm.trans (beq_iff_eq.mp hname))

theorem filter_map_inner (hnamespace : name ≠ "namespace") (hclass : name ≠ "class")
    (inner : List Inner) : (inner.map Inner.toElement).filter (·.name == name) = [] := by
  refine List.filter_eq_nil_iff.mpr fun el hel hname => ?_
  obtain ⟨x, -, rfl⟩ := List.mem_map.mp hel
  cases x with
  | ofNamespace _ => exact hnamespace (beq_iff_eq.mp hname).symm
  | ofClass _ _ => exact hclass (beq_iff_eq.mp hname).symm

theorem Compound.filter_children (hnamespace : name ≠ "namespace") (hclass : name ≠ "class") :
    c.toElement.children.filter (·.name == name) =
      [leaf "name" c.name, leaf "filename" c.fileName].filter (·.name == name)
        ++ (if "templarg" = name then
            c.formals.map fun formal => leaf "templarg" (formalText formal)
          else [])
        ++ (if "base" = name then c.bases.map Base.toElement else [])
        ++ (if "member" = name then c.members.map Entry.toElement else []) := by
  have hformals : (c.formals.map fun formal => leaf "templarg" (formalText formal)).filter
      (·.name == name) = if "templarg" = name then _ else [] :=
    filter_map_name (f := fun formal => leaf "templarg" (formalText formal)) (fun _ => rfl) _ name
  have hbases : (c.bases.map Base.toElement).filter (·.name == name) =
      if "base" = name then _ else [] :=
    filter_map_name (f := Base.toElement) (fun _ => rfl) _ name
  have hmembers : (c.members.map Entry.toElement).filter (·.name == name) =
      if "member" = name then _ else [] :=
    filter_map_name (f := Entry.toElement) (fun _ => rfl) _ name
  unfold toElement
  rw [List.filter_append, List.filter_append, List.filter_append, List.filter_append, hformals,
    hbases, filter_map_inner hnamespace hclass, hmembers, List.append_nil]

theorem mapM_map_eq_some {α β γ : Type} {f : α → β} {g : β → Option γ} {t : α → γ}
    (h : ∀ x, g (f x) = some (t x)) (xs : List α) : (xs.map f).mapM g = some (xs.map t) := by
  induction xs with
  | nil => rfl
  | cons x xs ih =>
    rw [List.map_cons, List.mapM_cons, h, ih]
    rfl

/-- The element of a namespace or class says what is on its page. -/
theorem Compound.ofElement?_toElement : Page.ofElement? c.toElement = some c.page := by
  have hkind : c.toElement.attribute? "kind" = some c.kind := rfl
  have hobjc : c.toElement.attribute? "objc" = c.page.objc := by
    simp [Element.attribute?, toElement, attributes, List.lookup_cons, lookup_optional, page]
  have hname : c.toElement.text? "name" = some c.name := by
    rw [Element.text?, Element.texts, c.filter_children (by decide) (by decide)]
    rfl
  have hfileName : c.toElement.text? "filename" = some c.fileName := by
    rw [Element.text?, Element.texts, c.filter_children (by decide) (by decide)]
    rfl
  have hformals : c.toElement.texts "templarg" = c.formals.map formalText := by
    rw [Element.texts, c.filter_children (by decide) (by decide)]
    simp [leaf]
  have hbases : (c.toElement.children.filter (·.name == "base")).map BaseTag.ofElement =
      c.bases.map Base.tag := by
    rw [c.filter_children (by decide) (by decide)]
    simp [leaf, Base.ofElement_toElement]
  have hmembers : (c.toElement.children.filter (·.name == "member")).mapM MemberTag.ofElement? =
      some (c.members.map Entry.tag) := by
    have hfiltered : c.toElement.children.filter (·.name == "member") =
        c.members.map Entry.toElement := by
      rw [c.filter_children (by decide) (by decide)]
      simp [leaf]
    rw [hfiltered]
    exact mapM_map_eq_some Entry.ofElement?_toElement c.members
  have hinner : c.toElement.children.filterMap Inner.ofElement? = c.inner := by
    have hformals : (c.formals.map fun formal => leaf "templarg" (formalText formal)).filterMap
        Inner.ofElement? = [] := by
      simp [Inner.ofElement?, leaf]
    have hbases : (c.bases.map Base.toElement).filterMap Inner.ofElement? = [] := by
      simp [Inner.ofElement?, Base.toElement]
    have hmembers : (c.members.map Entry.toElement).filterMap Inner.ofElement? = [] := by
      simp [Inner.ofElement?, Entry.toElement]
    have hself : (c.inner.map Inner.toElement).filterMap Inner.ofElement? = c.inner := by
      rw [List.filterMap_map,
        show Inner.ofElement? ∘ Inner.toElement = some from funext Inner.ofElement?_toElement]
      exact List.filterMap_some
    unfold toElement
    rw [List.filterMap_append, List.filterMap_append, List.filterMap_append,
      List.filterMap_append, hformals, hbases, hself, hmembers, List.append_nil]
    rfl
  unfold Page.ofElement?
  rw [hobjc, hname, hfileName, hformals, hbases, hmembers, hinner]
  rfl

/-- Every list of compounds is read back as its pages. -/
theorem readPages_renderCompounds {cs : List Compound} (h : ∀ c ∈ cs, c.isReadable = true) :
    readPages (renderCompounds cs) = some (cs.map Compound.page) := by
  have hcompounds : Yields (String.join (cs.map renderCompound)) (cs.map Compound.toElement) :=
    yields_join fun c hc => yields_renderCompound (h c hc)
  have hinside := (yields_plain (s := "\n") rfl).append hcompounds
  have hname : isWord "tagfile" = true := rfl
  have hattributes : Reader.areReadable [] = true := rfl
  -- A file without compounds has the line break as the text of its root.
  obtain ⟨text, -, hroot⟩ := yields_tagged hname hattributes hinside
  have hprologue : Yields prologue [] := yields_instruction rfl
  have hbreak : Yields "\n" [] := yields_plain rfl
  have hfile : Yields (line "" "tagfile" [] _) _ := yields_line rfl hroot
  have hdocument := (hprologue.append hbreak).append hfile
  unfold readPages
  rw [renderCompounds, read_of_yields hdocument]
  exact mapM_map_eq_some Compound.ofElement?_toElement cs

end TagFile

end SymbolAtlas
