import SymbolAtlas.Json.Reader
import SymbolAtlas.Proofs.Json.Lexing

/-!
# Values that are written and read

A value in which every text denotes something and every numeral has the digits that its point calls
for is read back from its compact form and from its open form. Either form spells the tokens of the
value, and the tokens of a value are read as that value wherever a value is expected, inside any
arrays and objects that are still open.
-/

set_option autoImplicit false

namespace SymbolAtlas.Json

variable {v : Json} (fields : List (Option String × Json)) (items : List Json)

/-- A property of all values, from the elements of an array and from the values of the fields of an
object. -/
@[elab_as_elim]
theorem nested_induction {P : Json → Prop} (null : P null) (bool : ∀ b, P (bool b))
    (number : ∀ n, P (number n)) (text : ∀ literal, P (text literal))
    (array : ∀ items, (∀ v ∈ items, P v) → P (array items))
    (object : ∀ fields, (∀ f ∈ fields, P f.2) → P (object fields)) : ∀ v, P v
  | .null => null
  | .bool b => bool b
  | .number n => number n
  | .text literal => text literal
  | .array items => array items fun v hv =>
    have := List.sizeOf_lt_of_mem hv
    nested_induction null bool number text array object v
  | .object fields => object fields fun f hf =>
    have := List.sizeOf_lt_of_mem hf
    have : sizeOf f.2 < sizeOf f := by
      cases f
      simp +arith
    nested_induction null bool number text array object f.2
termination_by v => sizeOf v

/-- Every text in a value denotes something, and every numeral has its digits. -/
def isWritten (v : Json) : Bool :=
  v.allLiterals Option.isSome Numeral.isWritten

theorem isWritten_array : (array items).isWritten = items.all isWritten := by
  have hitems : ∀ items, allLiteralsOfItems Option.isSome Numeral.isWritten items =
      items.all isWritten := by
    intro items
    induction items with
    | nil => rfl
    | cons v rest ih => rw [allLiteralsOfItems, ih, List.all_cons, isWritten]
  rw [isWritten, allLiterals, hitems]

theorem isWritten_object :
    (object fields).isWritten = fields.all fun f => f.1.isSome && f.2.isWritten := by
  have hfields : ∀ fields, allLiteralsOfFields Option.isSome Numeral.isWritten fields =
      fields.all fun f => f.1.isSome && f.2.isWritten := by
    intro fields
    induction fields with
    | nil => rfl
    | cons f rest ih =>
      rw [allLiteralsOfFields, ih, List.all_cons, isWritten]
  rw [isWritten, allLiterals, hfields]

/-! ## The tokens of a value -/

/-- The tokens of the elements of an array after the first one. -/
def laterItemTokens (items : List Json) : List Token :=
  items.flatMap fun v => .comma :: toTokens v

/-- The tokens of the fields of an object after the first one. -/
def laterFieldTokens (fields : List (Option String × Json)) : List Token :=
  fields.flatMap fun f => .comma :: .text f.1 :: .colon :: toTokens f.2

theorem itemTokens_cons (v : Json) (rest : List Json) :
    itemTokens (v :: rest) = toTokens v ++ laterItemTokens rest := by
  induction rest generalizing v with
  | nil => simp [itemTokens, laterItemTokens]
  | cons w rest ih =>
    rw [itemTokens, ih w]
    · simp [laterItemTokens]
    · simp

theorem fieldTokens_cons (f : Option String × Json) (rest : List (Option String × Json)) :
    fieldTokens (f :: rest) =
      .text f.1 :: .colon :: toTokens f.2 ++ laterFieldTokens rest := by
  induction rest generalizing f with
  | nil => simp [fieldTokens, laterFieldTokens]
  | cons g rest ih =>
    rw [fieldTokens, ih g]
    · simp [laterFieldTokens]
    · simp

/-! ## Forms of a value

Both forms write the elements of an array and the fields of an object alike, up to the blanks at the
beginning of a line and after a colon.
-/

/-- The elements of an array after the first one, each in the given form. -/
def laterItems (form : Json → List Char) (line : List Char) (items : List Json) : List Char :=
  items.flatMap fun v => ',' :: (line ++ form v)

/-- A field of an object with its value in the given form. -/
def fieldForm (form : Json → List Char) (gap : List Char) (f : Option String × Json) : List Char :=
  quoteLiteral f.1 ++ ':' :: (gap ++ form f.2)

/-- The fields of an object after the first one, with their values in the given form. -/
def laterFields (form : Json → List Char) (line gap : List Char)
    (fields : List (Option String × Json)) : List Char :=
  fields.flatMap fun f => ',' :: (line ++ fieldForm form gap f)

section Forms

variable {form : Json → List Char} {line gap ending : List Char} {β : Type}
  {entry : β → List Char} {tokens : β → List Token}

theorem isCut_blanks {blanks : List Char} (h : blanks.all isSpace = true) : IsCut blanks := by
  cases blanks with
  | nil => exact isCut_nil
  | cons c cs =>
    rw [List.all_cons, Bool.and_eq_true] at h
    simp only [isSpace, Bool.or_eq_true, beq_iff_eq] at h
    rcases h.1 with ((rfl | rfl) | rfl) | rfl <;> exact isCut_cons rfl cs

theorem isCut_later (entries : List β) :
    IsCut (entries.flatMap fun x => ',' :: (line ++ entry x)) := by
  cases entries with
  | nil => exact isCut_nil
  | cons x rest => exact isCut_cons rfl _

theorem spells_later (hline : line.all isSpace = true) {entries : List β}
    (h : ∀ x ∈ entries, Spells (entry x) (tokens x)) :
    Spells (entries.flatMap fun x => ',' :: (line ++ entry x))
      (entries.flatMap fun x => .comma :: tokens x) := by
  induction entries with
  | nil => exact spells_nil
  | cons x rest ih =>
    have hfirst := h x List.mem_cons_self
    have hrest := ih fun y hy => h y (List.mem_cons_of_mem x hy)
    have hentry : Spells (',' :: (line ++ entry x)) (.comma :: tokens x) :=
      (hfirst.blanks hline).cons .comma rfl rfl
    exact hentry.append hrest (isCut_later rest)

/-- What stands between the brackets of an array or object, with the bracket that closes it. -/
theorem spells_enclosed (hline : line.all isSpace = true) (hending : ending.all isSpace = true)
    {x : β} {rest : List β} (h : ∀ y ∈ x :: rest, Spells (entry y) (tokens y))
    {close : List Char} {t : Token} (hclose : Spells close [t]) (hcut : IsCut close) :
    Spells (line ++ (entry x ++
        ((rest.flatMap fun y => ',' :: (line ++ entry y)) ++ (ending ++ close))))
      (tokens x ++ ((rest.flatMap fun y => .comma :: tokens y) ++ [t])) := by
  have hfirst := h x List.mem_cons_self
  have hrest := spells_later hline fun y hy => h y (List.mem_cons_of_mem x hy)
  have hcut := (isCut_blanks hending).append hcut
  have hlater := hrest.append (hclose.blanks hending) hcut
  exact (hfirst.append hlater ((isCut_later rest).append hcut)).blanks hline

theorem spells_fieldForm (hgap : gap.all isSpace = true) {f : Option String × Json}
    (hkey : f.1.isSome = true) (h : Spells (form f.2) (toTokens f.2)) :
    Spells (fieldForm form gap f) (.text f.1 :: .colon :: toTokens f.2) := by
  have hvalue : Spells (':' :: (gap ++ form f.2)) (.colon :: toTokens f.2) :=
    (h.blanks hgap).cons .colon rfl rfl
  exact hvalue.cons (.text f.1) hkey rfl

theorem spells_array (hline : line.all isSpace = true) (hending : ending.all isSpace = true)
    {v : Json} {rest : List Json} (h : ∀ w ∈ v :: rest, Spells (form w) (toTokens w)) :
    Spells ('[' :: (line ++ (form v ++ (laterItems form line rest ++ (ending ++ [']'])))))
      (toTokens (.array (v :: rest))) := by
  have hitems := spells_enclosed hline hending h (spells_render .closeArray rfl) (isCut_cons rfl [])
  rw [toTokens, itemTokens_cons, List.cons_append, List.append_assoc]
  exact hitems.cons .openArray rfl rfl

theorem spells_object (hline : line.all isSpace = true) (hgap : gap.all isSpace = true)
    (hending : ending.all isSpace = true) {f : Option String × Json}
    {rest : List (Option String × Json)} (hkeys : ∀ g ∈ f :: rest, g.1.isSome = true)
    (h : ∀ g ∈ f :: rest, Spells (form g.2) (toTokens g.2)) :
    Spells ('\x7b' :: (line ++ (fieldForm form gap f ++
        (laterFields form line gap rest ++ (ending ++ ['\x7d'])))))
      (toTokens (.object (f :: rest))) := by
  have hfields := spells_enclosed hline hending
    (fun g hg => spells_fieldForm hgap (hkeys g hg) (h g hg)) (spells_render .closeObject rfl)
    (isCut_cons rfl [])
  rw [toTokens, fieldTokens_cons, List.cons_append, List.append_assoc]
  exact hfields.cons .openObject rfl rfl

end Forms

theorem all_isSpace_newLine (level : Nat) : (newLine level).all isSpace = true := by
  simp [newLine, isSpace]

theorem openItems_eq (level : Nat) (items : List Json) :
    openItems level items = laterItems (openForm level) (newLine level) items := by
  induction items with
  | nil => rfl
  | cons v rest ih => simp [openItems, laterItems, ih]

theorem openFields_eq (level : Nat) (fields : List (Option String × Json)) :
    openFields level fields = laterFields (openForm level) (newLine level) [' '] fields := by
  induction fields with
  | nil => rfl
  | cons f rest ih => simp [openFields, laterFields, fieldForm, ih]

/-- Line breaks and indentation stand between the same tokens. -/
theorem spells_openForm (hv : v.isWritten = true) (level : Nat) :
    Spells (openForm level v) (toTokens v) := by
  induction v using nested_induction generalizing level with
  | null => exact spells_render .null rfl
  | bool b => exact spells_render (.bool b) rfl
  | number n => exact spells_render (.number n) hv
  | text literal => exact spells_render (.text literal) hv
  | array items ih =>
    rw [isWritten_array, List.all_eq_true] at hv
    cases items with
    | nil => exact (spells_render .closeArray rfl).cons .openArray rfl rfl
    | cons v rest =>
      have hform := spells_array (all_isSpace_newLine (level + 1)) (all_isSpace_newLine level)
        fun w hw => ih w hw (hv w hw) (level + 1)
      simpa [openForm, openItems_eq] using hform
  | object fields ih =>
    simp only [isWritten_object, List.all_eq_true, Bool.and_eq_true] at hv
    cases fields with
    | nil => exact (spells_render .closeObject rfl).cons .openObject rfl rfl
    | cons f rest =>
      have hgap : [' '].all isSpace = true := by decide
      have hform := spells_object (all_isSpace_newLine (level + 1)) hgap
        (all_isSpace_newLine level) (fun g hg => (hv g hg).1)
        fun g hg => ih g hg (hv g hg).2 (level + 1)
      simpa [openForm, openFields_eq, fieldForm] using hform

/-- The tokens of a value, one after the other without blanks. -/
def compactForm (v : Json) : List Char :=
  (toTokens v).flatMap Token.render

theorem flatMap_laterItemTokens :
    (laterItemTokens items).flatMap Token.render = laterItems compactForm [] items := by
  simp [laterItemTokens, laterItems, compactForm, List.flatMap_assoc, Token.render]

theorem flatMap_laterFieldTokens :
    (laterFieldTokens fields).flatMap Token.render = laterFields compactForm [] [] fields := by
  simp [laterFieldTokens, laterFields, fieldForm, compactForm, List.flatMap_assoc, Token.render]

theorem spells_compactForm (hv : v.isWritten = true) : Spells (compactForm v) (toTokens v) := by
  have hnone : ([] : List Char).all isSpace = true := rfl
  induction v using nested_induction with
  | null => exact spells_render .null rfl
  | bool b =>
    rw [compactForm, toTokens, List.flatMap_singleton]
    exact spells_render (.bool b) rfl
  | number n =>
    rw [compactForm, toTokens, List.flatMap_singleton]
    exact spells_render (.number n) hv
  | text literal =>
    rw [compactForm, toTokens, List.flatMap_singleton]
    exact spells_render (.text literal) hv
  | array items ih =>
    rw [isWritten_array, List.all_eq_true] at hv
    cases items with
    | nil => exact (spells_render .closeArray rfl).cons .openArray rfl rfl
    | cons v rest =>
      have hform := spells_array hnone hnone fun w hw => ih w hw (hv w hw)
      simpa [compactForm, toTokens, itemTokens_cons, flatMap_laterItemTokens, Token.render] using hform
  | object fields ih =>
    simp only [isWritten_object, List.all_eq_true, Bool.and_eq_true] at hv
    cases fields with
    | nil => exact (spells_render .closeObject rfl).cons .openObject rfl rfl
    | cons f rest =>
      have hform := spells_object hnone hnone hnone (fun g hg => (hv g hg).1)
        fun g hg => ih g hg (hv g hg).2
      simpa [compactForm, toTokens, fieldTokens_cons, flatMap_laterFieldTokens, fieldForm,
        Token.render] using hform

/-! ## Reading the tokens of a value -/

theorem ofTokens?_laterItemTokens {items : List Json}
    (h : ∀ v ∈ items, ∀ frames rest,
      ofTokens? .value frames (toTokens v ++ rest) = ofTokens? (.next v) frames rest)
    (v : Json) (done : List Json) (frames : List Frame) (rest : List Token) :
    ofTokens? (.next v) (.array done :: frames)
        (laterItemTokens items ++ .closeArray :: rest) =
      ofTokens? (.next (.array (done.reverse ++ v :: items))) frames rest := by
  induction items generalizing v done with
  | nil => simp [laterItemTokens, ofTokens?]
  | cons w items ih =>
    have hread := h w List.mem_cons_self
    have hitems := ih fun u hu => h u (List.mem_cons_of_mem w hu)
    simp only [laterItemTokens, List.flatMap_cons, List.cons_append, List.append_assoc, ofTokens?]
    rw [hread]
    simpa [laterItemTokens] using hitems w (v :: done)

theorem ofTokens?_laterFieldTokens {fields : List (Option String × Json)}
    (h : ∀ f ∈ fields, ∀ frames rest,
      ofTokens? .value frames (toTokens f.2 ++ rest) = ofTokens? (.next f.2) frames rest)
    (f : Option String × Json) (done : List (Option String × Json)) (frames : List Frame)
    (rest : List Token) :
    ofTokens? (.next f.2) (.object done f.1 :: frames)
        (laterFieldTokens fields ++ .closeObject :: rest) =
      ofTokens? (.next (.object (done.reverse ++ f :: fields))) frames rest := by
  induction fields generalizing f done with
  | nil => simp [laterFieldTokens, ofTokens?]
  | cons g fields ih =>
    have hread := h g List.mem_cons_self
    have hfields := ih fun e he => h e (List.mem_cons_of_mem g he)
    simp only [laterFieldTokens, List.flatMap_cons, List.cons_append, List.append_assoc,
      ofTokens?]
    rw [hread]
    simpa [laterFieldTokens] using hfields g (f :: done)

/-- A value is read from its tokens, whatever it stands in and is followed by. -/
theorem ofTokens?_toTokens (v : Json) (frames : List Frame) (rest : List Token) :
    ofTokens? .value frames (toTokens v ++ rest) = ofTokens? (.next v) frames rest := by
  induction v using nested_induction generalizing frames rest with
  | null => simp only [toTokens, List.cons_append, List.nil_append, ofTokens?]
  | bool b => simp only [toTokens, List.cons_append, List.nil_append, ofTokens?]
  | number n => simp only [toTokens, List.cons_append, List.nil_append, ofTokens?]
  | text literal => simp only [toTokens, List.cons_append, List.nil_append, ofTokens?]
  | array items ih =>
    cases items with
    | nil => simp [toTokens, itemTokens, ofTokens?]
    | cons v items =>
      have hread := ih v List.mem_cons_self
      have hitems := ofTokens?_laterItemTokens fun w hw => ih w (List.mem_cons_of_mem v hw)
      simp only [toTokens, itemTokens_cons, List.cons_append, List.append_assoc, List.nil_append,
        ofTokens?]
      rw [hread, hitems v [] frames rest]
      rfl
  | object fields ih =>
    cases fields with
    | nil => simp [toTokens, fieldTokens, ofTokens?]
    | cons f fields =>
      have hread := ih f List.mem_cons_self
      have hfields := ofTokens?_laterFieldTokens fun g hg => ih g (List.mem_cons_of_mem f hg)
      simp only [toTokens, fieldTokens_cons, List.cons_append, List.append_assoc, List.nil_append,
        ofTokens?]
      rw [hread, hfields f [] frames rest]
      rfl

theorem read?_of_spells {text : List Char} (h : Spells text (toTokens v)) :
    read? (String.ofList text) = some v := by
  have hread := ofTokens?_toTokens v [] []
  rw [List.append_nil] at hread
  rw [read?, String.toList_ofList, tokens?_of_spells h, Option.bind_some, hread, ofTokens?]

theorem read?_render (hv : v.isWritten = true) : read? v.render = some v :=
  read?_of_spells (spells_compactForm hv)

theorem read?_renderOpen (hv : v.isWritten = true) : read? v.renderOpen = some v :=
  read?_of_spells (spells_openForm hv 0)

end SymbolAtlas.Json
