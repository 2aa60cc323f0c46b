import SymbolAtlas.Declaration.Decode
import SymbolAtlas.Declaration.Encode
import SymbolAtlas.Proofs.Json.RoundTrip

/-!
# Declarations that are written and read

A batch of declarations is read back from its text, in the compact form and in the open form, if the
lines and columns in it are in the ranges that the reader accepts. A record is written with each
field once, in the order in which the reader numbers them, so reading by name finds what reading by
position finds.
-/

set_option autoImplicit false

namespace SymbolAtlas

variable {α : Type} {name : String} {position : Nat}

variable (b : BaseDecl)

namespace Json

variable {fields : List (String × Json)}

/-! ## Values that denote something -/

@[simp] theorem isWritten_str (s : String) : (str s).isWritten = true := by
  simp [str, isWritten, allLiterals]

@[simp] theorem isWritten_nat (n : Nat) : (nat n).isWritten = true := by
  simp [nat, isWritten, allLiterals, Numeral.isWritten]

@[simp] theorem isWritten_bool (b : Bool) : (bool b).isWritten = true := by
  simp [isWritten, allLiterals]

@[simp] theorem isWritten_optionalStr (s : Option String) : (optionalStr s).isWritten = true := by
  cases s with
  | none => simp [optionalStr, option, isWritten, allLiterals]
  | some s => exact isWritten_str s

@[simp] theorem isWritten_record (fields : List (String × Json)) :
    (record fields).isWritten = fields.all (·.2.isWritten) := by
  simp [record, isWritten_object, List.all_map, Function.comp_def]

@[simp] theorem isWritten_list (encode : α → Json) (items : List α) :
    (list encode items).isWritten = items.all fun a => (encode a).isWritten := by
  simp [list, isWritten_array, List.all_map, Function.comp_def]

/-! ## Fields -/

@[simp] theorem asText?_str (s : String) : asText? (str s) = some s := rfl

@[simp] theorem asBool?_bool (b : Bool) : asBool? (bool b) = some b := rfl

@[simp] theorem asOptionalText?_optionalStr (s : Option String) :
    asOptionalText? (optionalStr s) = some s := by
  cases s <;> rfl

theorem asNat?_nat {bound n : Nat} (h : n < bound) : asNat? bound (nat n) = some n := by
  simp [asNat?, nat, h]

theorem asList?_list {encode : α → Json} {read : Json → Option α} {items : List α}
    (h : ∀ a ∈ items, read (encode a) = some a) :
    asList? read (list encode items) = some items := by
  rw [list, asList?]
  induction items with
  | nil => rfl
  | cons a rest ih =>
    have hrest := ih fun b hb => h b (List.mem_cons_of_mem a hb)
    rw [List.map_cons, List.mapM_cons, h a List.mem_cons_self, hrest]
    rfl

theorem asList?_str (items : List String) : asList? asText? (list str items) = some items :=
  asList?_list fun s _ => asText?_str s

theorem fieldsNamed_cons (name key : String) (value : Json) (rest : List (Option String × Json)) :
    fieldsNamed name ((some key, value) :: rest) =
      if key = name then value :: fieldsNamed name rest else fieldsNamed name rest := by
  by_cases h : key = name <;> simp [fieldsNamed, h]

theorem fieldsNamed_of_notMem (h : name ∉ fields.map Prod.fst) :
    fieldsNamed name (fields.map fun (key, value) => (some key, value)) = [] := by
  induction fields with
  | nil => rfl
  | cons f rest ih =>
    rw [List.map_cons, List.mem_cons, not_or] at h
    rw [List.map_cons, fieldsNamed_cons, if_neg fun heq => h.1 heq.symm]
    exact ih h.2

theorem fieldsNamed_of_getElem? (hdistinct : (fields.map Prod.fst).Nodup) {f : String × Json}
    (h : fields[position]? = some f) :
    fieldsNamed f.1 (fields.map fun (key, value) => (some key, value)) = [f.2] := by
  induction fields generalizing position with
  | nil => simp at h
  | cons g rest ih =>
    rw [List.map_cons, List.nodup_cons] at hdistinct
    rw [List.map_cons, fieldsNamed_cons]
    cases position with
    | zero =>
      cases h
      rw [if_pos rfl, fieldsNamed_of_notMem hdistinct.1]
    | succ position =>
      have hmem : f.1 ∈ rest.map Prod.fst := List.mem_map_of_mem (List.mem_of_getElem? h)
      have hne : g.1 ≠ f.1 := fun heq => hdistinct.1 (heq ▸ hmem)
      rw [if_neg hne]
      exact ih hdistinct.2 h

/-- The fields of a record, by name. -/
def Fields.ofRecord (fields : List (String × Json)) : Fields :=
  .named (fields.map fun (key, value) => (some key, value))

theorem Fields.ofJson?_record (count : Nat) (fields : List (String × Json)) :
    Fields.ofJson? count (record fields) = some (.ofRecord fields) := by
  simp [Fields.ofJson?, record, ofRecord]

theorem Fields.get?_ofRecord {keys : List String} (hdistinct : keys.Nodup)
    (hkeys : fields.map Prod.fst = keys) (hname : keys[position]? = some name)
    (read : Json → Option α) (missing : α) :
    (Fields.ofRecord fields).get? position name read missing =
      (Fields.ordered (fields.map Prod.snd)).get? position name read missing := by
  rw [← hkeys, List.getElem?_map, Option.map_eq_some_iff] at hname
  obtain ⟨f, hf, rfl⟩ := hname
  have hnamed := fieldsNamed_of_getElem? (hkeys ▸ hdistinct) hf
  simp only [ofRecord, Fields.get?, hnamed, List.getElem?_map, hf, Option.map_some]

end Json

/-! ## Declarations -/

/-- The line of a member is in the range that the reader accepts. -/
def MemberDecl.isInRange (m : MemberDecl) : Bool :=
  m.line < 0x100000000

/-- The lines and the column of an entity are in the ranges that the reader accepts. -/
def EntityDecl.isInRange (e : EntityDecl) : Bool :=
  e.line < 0x100000000 && e.column < 0x10000 && e.members.all MemberDecl.isInRange

/-- All lines and columns are in the ranges that the reader accepts. -/
def Document.isInRange (d : Document) : Bool :=
  d.entities.all EntityDecl.isInRange

theorem MemberDecl.isWritten_toJson (m : MemberDecl) : m.toJson.isWritten = true := by
  simp [toJson]

theorem BaseDecl.isWritten_toJson : b.toJson.isWritten = true := by
  cases b <;> simp [toJson]

theorem EntityDecl.isWritten_toJson (e : EntityDecl) : e.toJson.isWritten = true := by
  simp [toJson, BaseDecl.isWritten_toJson, MemberDecl.isWritten_toJson]

theorem Document.isWritten_toJson (d : Document) : d.toJson.isWritten = true := by
  simp [toJson, EntityDecl.isWritten_toJson]

theorem BaseDecl.isReadable_toJson : isReadable b.toJson = true := by
  cases b with
  | plain name => rfl
  | detailed name protection virtualness => cases protection <;> cases virtualness <;> rfl

theorem BaseDecl.ofJson?_toJson : ofJson? b.toJson = some b := by
  have hreadable := isReadable_toJson b
  cases b with
  | plain name => rfl
  | detailed name protection virtualness =>
    rw [toJson, Json.record] at hreadable
    rw [toJson, Json.record, ofJson?, if_pos hreadable, ← Json.Fields.ofRecord]
    have hdistinct : ["name", "protection", "virtualness"].Nodup := by decide
    simp (disch := simp) only [Option.bind_eq_bind, Json.Fields.get?_ofRecord hdistinct]
    simp [Json.Fields.get?]

theorem MemberDecl.ofJson?_toJson {m : MemberDecl} (hm : m.isInRange = true) :
    ofJson? m.toJson = some m := by
  have hdistinct : ["name", "kind", "protection", "virtualness", "type", "args", "static", "friend",
    "related", "constructor", "destructor", "documented", "hidden", "file", "line"].Nodup := by
    decide
  have hline := Json.asNat?_nat (of_decide_eq_true hm)
  rw [ofJson?, toJson, Json.Fields.ofJson?_record, Option.bind_eq_bind, Option.bind_some]
  simp (disch := simp) only [Json.Fields.get?_ofRecord hdistinct]
  simp [Json.Fields.get?, hline]

theorem EntityDecl.ofJson?_toJson {e : EntityDecl} (he : e.isInRange = true) :
    ofJson? e.toJson = some e := by
  have hdistinct : ["name", "kind", "file", "line", "column", "language", "protection",
    "documented", "hidden", "is_static", "traits", "template_params", "bases", "using_namespaces",
    "using_declarations", "inline", "members"].Nodup := by
    decide
  simp only [isInRange, Bool.and_eq_true, decide_eq_true_eq, List.all_eq_true] at he
  have hline := Json.asNat?_nat he.1.1
  have hcolumn := Json.asNat?_nat he.1.2
  have hbases := Json.asList?_list fun b (_ : b ∈ e.bases) => BaseDecl.ofJson?_toJson b
  have hmembers := Json.asList?_list fun m hm => MemberDecl.ofJson?_toJson (he.2 m hm)
  rw [ofJson?, toJson, Json.Fields.ofJson?_record, Option.bind_eq_bind, Option.bind_some]
  simp (disch := simp) only [Json.Fields.get?_ofRecord hdistinct]
  simp [Json.Fields.get?, Json.asList?_str, hline, hcolumn, hbases, hmembers]

theorem Document.ofJson?_toJson {d : Document} (hd : d.isInRange = true) :
    ofJson? d.toJson = some d := by
  have hdistinct : ["entities"].Nodup := by decide
  rw [isInRange, List.all_eq_true] at hd
  have hentities := Json.asList?_list fun e he => EntityDecl.ofJson?_toJson (hd e he)
  rw [ofJson?, toJson, Json.Fields.ofJson?_record, Option.bind_eq_bind, Option.bind_some]
  simp (disch := simp) only [Json.Fields.get?_ofRecord hdistinct]
  simp [Json.Fields.get?, hentities]

/-- Batches of declarations with lines and columns in range are read back from either form. -/
theorem Document.reads_back (d : Document) (hd : d.isInRange = true) :
    read? d.toJson.render = some d ∧ read? d.toJson.renderOpen = some d := by
  have hdecode := ofJson?_toJson hd
  have hwritten := d.isWritten_toJson
  constructor
  · rw [read?, Json.read?_render hwritten, Option.bind_some, hdecode]
  · rw [read?, Json.read?_renderOpen hwritten, Option.bind_some, hdecode]

/-- A batch with the last line and the last column, with bases of both kinds, and with texts that
hold quotes, backslashes, control characters and characters beyond the basic plane. -/
def Document.ornate : Document where
  entities := [
    { name := "A\"\\<\n\x01\x7f>", kind := "class", file := "dir\\a.h", line := 0xffffffff,
      column := 0xffff, language := some "cpp", isHidden := true, traits := ["", "é𝄞"],
      formals := ["T"],
      bases := [.plain "B\t", .detailed "C\r😀" none (some "virtual"),
        .detailed "" (some "private") none],
      members := [
        { name := "f/\x08\x0c", kind := "function", line := 0xffffffff, isStatic := true },
        { file := some "" }] },
    {}]

theorem Document.reads_back_ornate :
    ornate.isInRange = true ∧ read? ornate.toJson.render = some ornate ∧
      read? ornate.toJson.renderOpen = some ornate := by
  have hrange : ornate.isInRange = true := by decide
  exact ⟨hrange, reads_back ornate hrange⟩

end SymbolAtlas
