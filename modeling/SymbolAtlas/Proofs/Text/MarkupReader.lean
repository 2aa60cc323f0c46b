import SymbolAtlas.TagFile

/-!
# Reading markup

A reader for elements, attributes and the five entities. It takes one character at a time, and
keeps the elements that have been opened and not been closed. Text that was written with entities
is read as it was, and what stands between two tags ends up in the element of these tags.
-/

set_option autoImplicit false

namespace SymbolAtlas.Markup

variable {s : String} {c : Char}

/-- An element. It has text, or other elements inside. -/
structure Element where
  name : String
  attributes : List (String × String)
  text : String
  children : List Element

/-- A tag of which some attributes have been read. -/
structure Tag where
  name : List Char
  attributes : List (String × String) := []

/-- An attribute of which a part has been read. -/
structure Attribute where
  tag : Tag
  key : List Char
  value : List Char := []

/-- Where in the text the reader is. -/
inductive Mode where
  | content
  /-- After an ampersand between tags. -/
  | entity (name : List Char)
  /-- After an opening angle bracket. -/
  | bracket
  /-- In a processing instruction. -/
  | instruction
  | openingName (name : List Char)
  | openingTag (tag : Tag)
  | key (tag : Tag) (key : List Char)
  /-- After an equals sign. -/
  | equals (tag : Tag) (key : List Char)
  | value (pending : Attribute)
  /-- After an ampersand in the value of an attribute. -/
  | valueEntity (pending : Attribute) (name : List Char)
  | closing (name : List Char)

/-- An element that has not been closed. -/
structure Frame where
  name : String
  attributes : List (String × String) := []
  text : List Char := []
  children : List Element := []

/-- What the reader knows: the innermost open element and those around it. -/
structure Reader where
  mode : Mode
  top : Frame
  below : List Frame

/-- The character that an entity stands for. -/
def entity? : List Char → Option Char
  | ['a', 'm', 'p'] => some '&'
  | ['l', 't'] => some '<'
  | ['g', 't'] => some '>'
  | ['q', 'u', 'o', 't'] => some '"'
  | ['a', 'p', 'o', 's'] => some (Char.ofNat 0x27)
  | _ => none

/-- The element of a frame. What stands between the elements inside it is not kept. -/
def Frame.element (f : Frame) : Element where
  name := f.name
  attributes := f.attributes
  text := if f.children.isEmpty then String.ofList f.text else ""
  children := f.children

namespace Reader

/-- Takes a character into the text of the innermost element. -/
def write (r : Reader) (c : Char) : Reader :=
  { r with mode := .content, top.text := r.top.text ++ [c] }

/-- Goes into an element. -/
def enter (r : Reader) (tag : Tag) : Reader where
  mode := .content
  top := { name := String.ofList tag.name, attributes := tag.attributes }
  below := r.top :: r.below

/-- Leaves the innermost element, if it has the name. -/
def leave? (r : Reader) (name : List Char) : Option Reader :=
  match r.below with
  | [] => none
  | parent :: below =>
    if String.ofList name = r.top.name then
      some {
        mode := .content
        top := { parent with children := parent.children ++ [r.top.element] }
        below }
    else none

/-- Takes a character. -/
def step (r : Reader) (c : Char) : Option Reader :=
  match r.mode with
  | .content =>
    if c = '<' then some { r with mode := .bracket }
    else if c = '&' then some { r with mode := .entity [] }
    else some (r.write c)
  | .entity name =>
    if c = ';' then (entity? name).map r.write
    else some { r with mode := .entity (name ++ [c]) }
  | .bracket =>
    if c = '?' then some { r with mode := .instruction }
    else if c = '/' then some { r with mode := .closing [] }
    else some { r with mode := .openingName [c] }
  | .instruction =>
    if c = '>' then some { r with mode := .content } else some r
  | .openingName name =>
    if c = '>' then some (r.enter { name })
    else if c = ' ' then some { r with mode := .openingTag { name } }
    else some { r with mode := .openingName (name ++ [c]) }
  | .openingTag tag =>
    if c = '>' then some (r.enter tag)
    else if c = ' ' then some r
    else some { r with mode := .key tag [c] }
  | .key tag key =>
    if c = '=' then some { r with mode := .equals tag key }
    else some { r with mode := .key tag (key ++ [c]) }
  | .equals tag key =>
    if c = '"' then some { r with mode := .value { tag, key } } else none
  | .value pending =>
    if c = '"' then
      some { r with mode := .openingTag { pending.tag with
        attributes := pending.tag.attributes
          ++ [(String.ofList pending.key, String.ofList pending.value)] } }
    else if c = '&' then some { r with mode := .valueEntity pending [] }
    else if c = '<' then none
    else some { r with mode := .value { pending with value := pending.value ++ [c] } }
  | .valueEntity pending name =>
    if c = ';' then
      (entity? name).map fun d =>
        { r with mode := .value { pending with value := pending.value ++ [d] } }
    else some { r with mode := .valueEntity pending (name ++ [c]) }
  | .closing name =>
    if c = '>' then r.leave? name else some { r with mode := .closing (name ++ [c]) }

/-- Takes some characters. -/
def run (r : Reader) (cs : List Char) : Option Reader :=
  cs.foldlM step r

/-- The element that has been read, if it is closed and there is no other one. -/
def root? (r : Reader) : Option Element :=
  match r.mode, r.below, r.top.children with
  | .content, [], [root] => some root
  | _, _, _ => none

end Reader

/-- The element that a text consists of. -/
def read (text : String) : Option Element :=
  (Reader.run { mode := .content, top := { name := "" }, below := [] } text.toList).bind
    Reader.root?

/-! ## Words and plain values -/

/-- A name that has only letters. -/
def isWord (s : String) : Bool :=
  s != "" && s.toList.all Char.isAlpha

/-- A value that is written without entities. -/
def isPlain (s : String) : Bool :=
  s.toList.all fun c => c != '<' && c != '&' && c != '"'

namespace Reader

variable {top : Frame} {below : List Frame}

theorem run_append (r : Reader) (cs cs' : List Char) :
    r.run (cs ++ cs') = (r.run cs).bind (·.run cs') :=
  List.foldlM_append

theorem run_append_eq {r r₁ r₂ : Reader} {cs cs' : List Char} (h : r.run cs = some r₁)
    (h' : r₁.run cs' = some r₂) : r.run (cs ++ cs') = some r₂ := by
  rw [run_append, h]
  exact h'

theorem run_cons (r : Reader) (c : Char) (cs : List Char) :
    r.run (c :: cs) = (r.step c).bind (·.run cs) :=
  List.foldlM_cons

theorem run_collect {m : List Char → Mode} {P : Char → Prop}
    (hstep : ∀ cs c, P c → step ⟨m cs, top, below⟩ c = some ⟨m (cs ++ [c]), top, below⟩)
    (done : List Char) {cs : List Char} (h : ∀ c ∈ cs, P c) :
    run ⟨m done, top, below⟩ cs = some ⟨m (done ++ cs), top, below⟩ := by
  induction cs generalizing done with
  | nil =>
    rw [List.append_nil]
    rfl
  | cons c cs ih =>
    rw [run_cons, hstep done c (h c List.mem_cons_self), Option.bind_some,
      ih _ fun d hd => h d (List.mem_cons_of_mem c hd), ← List.append_cons]

theorem ne_of_isAlpha {c d : Char} (h : c.isAlpha = true) (hd : d.isAlpha = false) : c ≠ d := by
  rintro rfl
  rw [h] at hd
  cases hd

theorem step_openingName (name : List Char) (hc : c.isAlpha = true) :
    step ⟨.openingName name, top, below⟩ c = some ⟨.openingName (name ++ [c]), top, below⟩ := by
  simp only [step, if_neg (ne_of_isAlpha hc (d := '>') rfl),
    if_neg (ne_of_isAlpha hc (d := ' ') rfl)]

theorem step_key (tag : Tag) (key : List Char) (hc : c.isAlpha = true) :
    step ⟨.key tag key, top, below⟩ c = some ⟨.key tag (key ++ [c]), top, below⟩ := by
  simp only [step, if_neg (ne_of_isAlpha hc (d := '=') rfl)]

theorem step_closing (name : List Char) (hc : c.isAlpha = true) :
    step ⟨.closing name, top, below⟩ c = some ⟨.closing (name ++ [c]), top, below⟩ := by
  simp only [step, if_neg (ne_of_isAlpha hc (d := '>') rfl)]

theorem step_value (tag : Tag) (key value : List Char)
    (hc : (c != '<' && c != '&' && c != '"') = true) :
    step ⟨.value { tag, key, value }, top, below⟩ c =
      some ⟨.value { tag, key, value := value ++ [c] }, top, below⟩ := by
  simp only [Bool.and_eq_true, bne_iff_ne] at hc
  simp only [step, if_neg hc.1.1, if_neg hc.1.2, if_neg hc.2]

/-! ## Tags -/

theorem exists_of_isWord (h : isWord s = true) :
    ∃ c cs, s.toList = c :: cs ∧ c.isAlpha = true ∧ ∀ d ∈ cs, d.isAlpha = true := by
  unfold isWord at h
  rw [Bool.and_eq_true, List.all_eq_true] at h
  cases hs : s.toList with
  | nil => simp [String.toList_eq_nil_iff.mp hs] at h
  | cons c cs =>
    rw [hs] at h
    exact ⟨c, cs, rfl, h.2 c List.mem_cons_self, fun d hd => h.2 d (List.mem_cons_of_mem c hd)⟩

theorem run_attribute (tag : Tag) {key value : String} (hkey : isWord key = true)
    (hvalue : isPlain value = true) :
    run ⟨.openingTag tag, top, below⟩ (' ' :: key.toList ++ '=' :: '"' :: value.toList ++ ['"']) =
      some ⟨.openingTag { tag with attributes := tag.attributes ++ [(key, value)] }, top,
        below⟩ := by
  obtain ⟨c, cs, hcs, hc, hrest⟩ := exists_of_isWord hkey
  have hfirst : run ⟨.openingTag tag, top, below⟩ [' ', c] = some ⟨.key tag [c], top, below⟩ := by
    simp [run, step, ne_of_isAlpha hc (d := '>') rfl, ne_of_isAlpha hc (d := ' ') rfl]
  have hname : run ⟨.key tag [c], top, below⟩ cs = some ⟨.key tag ([c] ++ cs), top, below⟩ :=
    run_collect (fun key _ => step_key tag key) [c] hrest
  have hequals : run ⟨.key tag (c :: cs), top, below⟩ ['=', '"'] =
      some ⟨.value { tag, key := c :: cs }, top, below⟩ := rfl
  have hvalue : run ⟨.value { tag, key := c :: cs }, top, below⟩ value.toList =
      some ⟨.value { tag, key := c :: cs, value := [] ++ value.toList }, top, below⟩ :=
    run_collect
      (fun value _ => step_value tag (c :: cs) value) [] (List.all_eq_true.mp hvalue)
  have hlast : run ⟨.value { tag, key := c :: cs, value := value.toList }, top, below⟩ ['"'] =
      some ⟨.openingTag { tag with attributes := tag.attributes ++ [(key, value)] }, top,
        below⟩ := by
    simp [run, step, ← hcs]
  have hopened := run_append_eq (run_append_eq hfirst hname) hequals
  rw [hcs]
  simpa using run_append_eq (run_append_eq hopened hvalue) hlast

/-- Attributes that can be read: words with plain values. -/
def areReadable (attributes : List (String × String)) : Bool :=
  attributes.all fun (key, value) => isWord key && isPlain value

theorem toList_renderAttributes_cons (key value : String) (attributes : List (String × String)) :
    (renderAttributes ((key, value) :: attributes)).toList =
      (' ' :: key.toList ++ '=' :: '"' :: value.toList ++ ['"']) ++
        (renderAttributes attributes).toList := by
  simp [renderAttributes, String.toList_join]

theorem run_attributes {attributes : List (String × String)} (h : areReadable attributes = true)
    (tag : Tag) :
    run ⟨.openingTag tag, top, below⟩ (renderAttributes attributes).toList =
      some ⟨.openingTag { tag with attributes := tag.attributes ++ attributes }, top, below⟩ := by
  induction attributes generalizing tag with
  | nil =>
    rw [List.append_nil]
    rfl
  | cons entry attributes ih =>
    simp only [areReadable, List.all_cons, Bool.and_eq_true] at h
    rw [toList_renderAttributes_cons, run_append, run_attribute tag h.1.1 h.1.2, Option.bind_some,
      ih h.2, List.append_assoc, List.singleton_append]

theorem run_startTag {name : String} (hname : isWord name = true)
    {attributes : List (String × String)} (h : areReadable attributes = true) :
    run ⟨.content, top, below⟩ ("<" ++ name ++ renderAttributes attributes ++ ">").toList =
      some ⟨.content, { name, attributes }, top :: below⟩ := by
  obtain ⟨c, cs, hcs, hc, hrest⟩ := exists_of_isWord hname
  have hfirst : run ⟨.content, top, below⟩ ['<', c] = some ⟨.openingName [c], top, below⟩ := by
    simp [run, step, ne_of_isAlpha hc (d := '?') rfl, ne_of_isAlpha hc (d := '/') rfl]
  have hcollected : run ⟨.openingName [c], top, below⟩ cs =
      some ⟨.openingName ([c] ++ cs), top, below⟩ :=
    run_collect (fun name _ => step_openingName name) [c] hrest
  -- With the blank or the bracket behind it, the name is complete.
  have hcomplete :
      run ⟨.openingName (c :: cs), top, below⟩ ((renderAttributes attributes).toList ++ ['>']) =
        run ⟨.openingTag { name := c :: cs }, top, below⟩
          ((renderAttributes attributes).toList ++ ['>']) := by
    cases attributes with
    | nil => rfl
    | cons entry attributes =>
      rw [toList_renderAttributes_cons]
      rfl
  have hlast : run ⟨.openingTag { name := c :: cs, attributes }, top, below⟩ ['>'] =
      some ⟨.content, { name, attributes }, top :: below⟩ := by
    simp [run, step, enter, ← hcs]
  have hrest := hcomplete.trans (run_append_eq (run_attributes h _) hlast)
  simpa [hcs] using run_append_eq (run_append_eq hfirst hcollected) hrest

theorem run_endTag {frame : Frame} (hname : isWord frame.name = true) :
    run ⟨.content, frame, top :: below⟩ ("</" ++ frame.name ++ ">").toList =
      some ⟨.content, { top with children := top.children ++ [frame.element] }, below⟩ := by
  obtain ⟨c, cs, hcs, hc, hrest⟩ := exists_of_isWord hname
  have hcollected : run ⟨.closing [], frame, top :: below⟩ frame.name.toList =
      some ⟨.closing ([] ++ frame.name.toList), frame, top :: below⟩ := by
    refine run_collect (fun name _ => step_closing name) [] ?_
    rw [hcs]
    exact List.forall_mem_cons.mpr ⟨hc, hrest⟩
  have hlast : run ⟨.closing frame.name.toList, frame, top :: below⟩ ['>'] =
      some ⟨.content, { top with children := top.children ++ [frame.element] }, below⟩ := by
    simp [run, step, leave?]
  have hfirst : run ⟨.content, frame, top :: below⟩ ['<', '/'] =
      some ⟨.closing [], frame, top :: below⟩ := rfl
  simpa using run_append_eq (run_append_eq hfirst hcollected) hlast

end Reader

/-! ## Text and elements -/

variable {children children' : List Element} {inner text : String}

/-- Whatever has been read, the text adds some characters and elements to it. -/
def Adds (s text : String) (children : List Element) : Prop :=
  ∀ (top : Frame) (below : List Frame), Reader.run ⟨.content, top, below⟩ s.toList =
    some ⟨.content, { top with
      text := top.text ++ text.toList, children := top.children ++ children }, below⟩

theorem adds_empty : Adds "" "" [] := by
  intro top below
  simp [Reader.run]

theorem Adds.append {s s' text' : String} (h : Adds s text children)
    (h' : Adds s' text' children') : Adds (s ++ s') (text ++ text') (children ++ children') := by
  intro top below
  rw [String.toList_append, Reader.run_append, h, Option.bind_some, h']
  simp

theorem adds_char (hopen : c ≠ '<') (hentity : c ≠ '&') :
    Adds (String.ofList [c]) (String.ofList [c]) [] := by
  intro top below
  simp [Reader.run, Reader.step, Reader.write, hopen, hentity]

theorem adds_entity (name : List Char) (h : entity? name = some c) (hname : ∀ d ∈ name, d ≠ ';') :
    Adds (String.ofList ('&' :: name ++ [';'])) (String.ofList [c]) [] := by
  intro top below
  have hcollected : Reader.run ⟨.entity [], top, below⟩ name =
      some ⟨.entity ([] ++ name), top, below⟩ := by
    refine Reader.run_collect (fun done d hd => ?_) [] hname
    simp only [Reader.step, if_neg hd]
  have hlast : Reader.run ⟨.entity name, top, below⟩ [';'] =
      some ⟨.content, { top with text := top.text ++ [c] }, below⟩ := by
    simp [Reader.run, Reader.step, h, Reader.write]
  have hfirst : Reader.run ⟨.content, top, below⟩ ['&'] = some ⟨.entity [], top, below⟩ := rfl
  simpa using Reader.run_append_eq (Reader.run_append_eq hfirst hcollected) hlast

theorem adds_markupChar (c : Char) :
    Adds (String.ofList (Text.markupChar c)) (String.ofList [c]) [] := by
  unfold Text.markupChar
  split
  · next hc =>
    rw [beq_iff_eq.mp hc]
    exact adds_entity ['a', 'm', 'p'] rfl (by simp)
  split
  · next hc =>
    rw [beq_iff_eq.mp hc]
    exact adds_entity ['l', 't'] rfl (by simp)
  split
  · next hc =>
    rw [beq_iff_eq.mp hc]
    exact adds_entity ['g', 't'] rfl (by simp)
  split
  · next hc =>
    rw [beq_iff_eq.mp hc]
    exact adds_entity ['q', 'u', 'o', 't'] rfl (by simp)
  split
  · next hc =>
    have hquote : c = Char.ofNat 0x27 := by
      rw [← beq_iff_eq.mp hc, Char.ofNat_toNat]
    rw [hquote]
    exact adds_entity ['a', 'p', 'o', 's'] rfl (by simp)
  · next hamp hlt _ _ _ => exact adds_char (by simpa using hlt) (by simpa using hamp)

theorem adds_flatMap (f : Char → List Char) (cs : List Char)
    (h : ∀ c ∈ cs, Adds (String.ofList (f c)) (String.ofList [c]) []) :
    Adds (String.ofList (cs.flatMap f)) (String.ofList cs) [] := by
  induction cs with
  | nil => exact adds_empty
  | cons c cs ih =>
    have hboth := (h c List.mem_cons_self).append (ih fun d hd => h d (List.mem_cons_of_mem c hd))
    rwa [← String.ofList_append, ← String.ofList_append] at hboth

theorem adds_markup (s : String) : Adds (Text.markup s) s [] := by
  have h := adds_flatMap Text.markupChar s.toList fun c _ => adds_markupChar c
  rwa [String.ofList_toList] at h

theorem adds_plain (h : isPlain s = true) : Adds s s [] := by
  have hchars := adds_flatMap (fun c => [c]) s.toList fun c hc => by
    have hplain := List.all_eq_true.mp h c hc
    simp only [Bool.and_eq_true, bne_iff_ne] at hplain
    exact adds_char hplain.1.1 hplain.1.2
  rwa [List.flatMap_singleton', String.ofList_toList] at hchars

/-- What stands between the tags of an element is read into it, the text only if there is nothing
else. -/
theorem adds_element {name : String} (hname : isWord name = true)
    {attributes : List (String × String)} (h : Reader.areReadable attributes = true)
    (hinner : Adds inner text children) :
    Adds (tagged name attributes inner) ""
      [{ name, attributes, text := if children.isEmpty then text else "", children }] := by
  intro top below
  have hclosed : Reader.run ⟨.content, { name, attributes, text := text.toList, children },
      top :: below⟩ ("</" ++ name ++ ">").toList = _ := Reader.run_endTag hname
  rw [tagged, String.toList_append, String.toList_append, Reader.run_append, Reader.run_append,
    Reader.run_startTag hname h, Option.bind_some, hinner]
  simpa [Frame.element] using hclosed

theorem adds_instruction (h : ∀ c ∈ s.toList, c ≠ '>') : Adds ("<?" ++ s ++ ">") "" [] := by
  intro top below
  have hfirst : Reader.run ⟨.content, top, below⟩ ['<', '?'] =
      some ⟨.instruction, top, below⟩ := rfl
  have hpassed : Reader.run ⟨.instruction, top, below⟩ s.toList =
      some ⟨.instruction, top, below⟩ :=
    Reader.run_collect (m := fun _ => .instruction)
      (fun _ c hc => by simp only [Reader.step, if_neg hc]) [] h
  have hlast : Reader.run ⟨.instruction, top, below⟩ ['>'] = some ⟨.content, top, below⟩ := rfl
  simpa using Reader.run_append_eq (Reader.run_append_eq hfirst hpassed) hlast

/-- The text adds some elements, and text of which no use is made. -/
def Yields (s : String) (children : List Element) : Prop :=
  ∃ text, Adds s text children

theorem Yields.append {s s' : String} (h : Yields s children) (h' : Yields s' children') :
    Yields (s ++ s') (children ++ children') := by
  obtain ⟨text, h⟩ := h
  obtain ⟨text', h'⟩ := h'
  exact ⟨text ++ text', h.append h'⟩

theorem yields_plain (h : isPlain s = true) : Yields s [] :=
  ⟨s, adds_plain h⟩

theorem yields_instruction (h : s.toList.all (· != '>') = true) : Yields ("<?" ++ s ++ ">") [] :=
  ⟨"", adds_instruction fun c hc => bne_iff_ne.mp (List.all_eq_true.mp h c hc)⟩

theorem yields_join {α : Type} {f : α → String} {g : α → Element} {xs : List α}
    (h : ∀ x ∈ xs, Yields (f x) [g x]) : Yields (String.join (xs.map f)) (xs.map g) := by
  induction xs with
  | nil => exact yields_plain rfl
  | cons x xs ih =>
    rw [List.map_cons, String.join_cons]
    exact (h x List.mem_cons_self).append (ih fun y hy => h y (List.mem_cons_of_mem x hy))

section

variable {name : String} (hname : isWord name = true) {attributes : List (String × String)}
  (h : Reader.areReadable attributes = true)

include hname h

theorem yields_leaf (text : String) :
    Yields (tagged name attributes (Text.markup text))
      [{ name, attributes, text, children := [] }] :=
  ⟨"", adds_element hname h (adds_markup text)⟩

theorem yields_tagged (hinner : Yields inner children) :
    ∃ text, (children.isEmpty = false → text = "") ∧
      Yields (tagged name attributes inner) [{ name, attributes, text, children }] := by
  obtain ⟨text, hinner⟩ := hinner
  exact ⟨_, fun hsome => by rw [hsome]; rfl, "", adds_element hname h hinner⟩

theorem yields_branch (hinner : Yields inner children) (hsome : children.isEmpty = false) :
    Yields (tagged name attributes inner) [{ name, attributes, text := "", children }] := by
  obtain ⟨text, htext, helement⟩ := yields_tagged hname h hinner
  exact htext hsome ▸ helement

end

theorem read_of_yields {root : Element} (h : Yields s [root]) : read s = some root := by
  obtain ⟨text, h⟩ := h
  unfold read
  rw [h]
  rfl

end SymbolAtlas.Markup
