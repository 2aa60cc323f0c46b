import Mathlib.Data.List.Chain
import SymbolAtlas.Atlas.Naming
import SymbolAtlas.Proofs.Text.Respacing

/-!
# File names that can be read back

A file name is a sequence of codes: each character of a name has one, and so has the mark of the
first capital. Where it can be told how far each code goes, the sequence can be read back from the
spelling, and names with one file name are one name. Two things stand in the way: the code of a
character beyond ASCII is a number of varying length, which a digit behind it would continue; and a
mark before an `x` looks like the beginning of such a code.
-/

set_option autoImplicit false

namespace SymbolAtlas

namespace Text.FileName

/-! ## Codes -/

/-- The characters with a code of their own. -/
def codedChars : List Char :=
  ['_', ':', '/', '<', '>', '*', '&', '|', '.', '!', ',', ' ', '\x7b', '\x7d', '?', '^', '%', '(',
    ')', '+', '=', '$', '\\', '@', ']', '[', '#']

/-- The digits of the code of a character beyond ASCII. -/
def isCodeDigit (c : Char) : Bool :=
  c.isDigit || ('a' ≤ c && c ≤ 'f')

/-- How a character is spelled, or the mark of the first capital. -/
def tokenCode : Option Char → List Char
  | none => ['_']
  | some c =>
    match fileNameCode? c with
    | some code => code.toList
    | none => if 128 ≤ c.toNat then '_' :: 'x' :: Nat.toDigits 16 c.toNat else [c]

variable {c : Char} {text rest : List Char}

theorem mem_codedChars {code : String} (h : fileNameCode? c = some code) : c ∈ codedChars := by
  unfold fileNameCode? at h
  split at h <;> simp_all [codedChars]

theorem codes_apart {d : Char} (hc : c ∈ codedChars) (hd : d ∈ codedChars)
    (h : tokenCode (some c) <+: tokenCode (some d)) : c = d := by
  have hall : (codedChars.all fun c => codedChars.all fun d =>
      !(tokenCode (some c)).isPrefixOf (tokenCode (some d)) || c == d) = true := by decide +kernel
  have hapart := List.all_eq_true.mp (List.all_eq_true.mp hall c hc) d hd
  simpa [List.isPrefixOf_iff_prefix.mpr h] using hapart

theorem exists_code_eq (hc : c ∈ codedChars) :
    ∃ d tail, tokenCode (some c) = '_' :: d :: tail ∧ d.isLower = false := by
  have hall : (codedChars.all fun c => (tokenCode (some c)).head? == some '_' &&
      (tokenCode (some c)).tail.head?.any (fun d => !d.isLower)) = true := by decide +kernel
  obtain ⟨hfirst, hsecond⟩ := Bool.and_eq_true_iff.mp (List.all_eq_true.mp hall c hc)
  obtain ⟨tail, heq⟩ := List.head?_eq_some_iff.mp (beq_iff_eq.mp hfirst)
  rw [heq] at hsecond
  cases tail with
  | nil => cases hsecond
  | cons d tail => exact ⟨d, tail, heq, by simpa using hsecond⟩

theorem tokenCode_plain (hcode : fileNameCode? c = none) (hascii : c.toNat < 128) :
    tokenCode (some c) = [c] := by
  simp [tokenCode, hcode, Nat.not_le.mpr hascii]

theorem digits_of_code (n : Nat) :
    valueInBase 16 (Nat.toDigits 16 n) = n ∧ ∀ d ∈ Nat.toDigits 16 n, isCodeDigit d = true := by
  have hdigit : ∀ k < 16, (digit? 16 (Nat.digitChar k)).getD 0 = k ∧
      isCodeDigit (Nat.digitChar k) = true := by decide
  induction n using Nat.strongRecOn with
  | ind n ih =>
    by_cases hlt : n < 16
    · rw [Nat.toDigits_of_lt_base hlt]
      simpa [valueInBase] using hdigit n hlt
    · obtain ⟨hvalue, hdigits⟩ := ih (n / 16) (by omega)
      obtain ⟨hlast, hlast'⟩ := hdigit (n % 16) (by omega)
      rw [Nat.toDigits_of_base_le (by decide) (by omega)]
      unfold valueInBase at hvalue ⊢
      rw [List.foldl_append, List.foldl_cons, List.foldl_nil]
      refine ⟨by omega, fun d hd => ?_⟩
      rcases List.mem_append.mp hd with hd | hd
      · exact hdigits d hd
      · rw [List.mem_singleton.mp hd]
        exact hlast'

/-! ## Reading codes -/

/-- What follows a token lets it be told where the token ends: behind a mark stands a letter, and
behind the number of a character no digit. There are no marks where there are such numbers. -/
def EndsBefore (isAscii : Bool) : Option Char → List Char → Prop
  | none, rest => isAscii = true ∧ ∃ d ∈ rest.head?, d.isLower = true
  | some c, rest => 128 ≤ c.toNat → isAscii = false ∧ ∀ d ∈ rest.head?, isCodeDigit d = false

/-- The first token of a spelling. -/
def firstToken (isAscii : Bool) (text : List Char) : Option Char :=
  match text with
  | '_' :: d :: more =>
    if d.isLower then
      if isAscii then none else some (Char.ofNat (valueInBase 16 (more.takeWhile isCodeDigit)))
    else codedChars.find? fun c => (tokenCode (some c)).isPrefixOf text
  | c :: _ => some c
  | [] => none

theorem find?_coded (hc : c ∈ codedChars) (rest : List Char) :
    codedChars.find? (fun d => (tokenCode (some d)).isPrefixOf (tokenCode (some c) ++ rest)) =
      some c := by
  have hsome : (codedChars.find? fun d =>
      (tokenCode (some d)).isPrefixOf (tokenCode (some c) ++ rest)).isSome = true := by
    rw [List.find?_isSome]
    exact ⟨c, hc, List.isPrefixOf_iff_prefix.mpr (List.prefix_append _ _)⟩
  obtain ⟨d, hd⟩ := Option.isSome_iff_exists.mp hsome
  have hmem := List.mem_of_find?_eq_some hd
  have hprefix : tokenCode (some d) <+: tokenCode (some c) ++ rest :=
    List.isPrefixOf_iff_prefix.mp (by simpa using List.find?_some hd)
  rw [hd]
  rcases List.prefix_or_prefix_of_prefix hprefix (List.prefix_append _ rest) with h | h
  · rw [codes_apart hmem hc h]
  · rw [codes_apart hc hmem h]

theorem firstToken_append {isAscii : Bool} {t : Option Char} (hends : EndsBefore isAscii t rest) :
    firstToken isAscii (tokenCode t ++ rest) = t := by
  cases t with
  | none =>
    obtain ⟨hascii, d, hd, hlower⟩ := hends
    cases rest with
    | nil => cases hd
    | cons d' rest =>
      cases hd
      simp [tokenCode, firstToken, hlower, hascii]
  | some c =>
    cases hcode : fileNameCode? c with
    | some code =>
      have hc := mem_codedChars hcode
      obtain ⟨d, tail, heq, hlower⟩ := exists_code_eq hc
      have hfind := find?_coded hc rest
      rw [heq] at hfind ⊢
      simpa [firstToken, hlower] using hfind
    | none =>
      by_cases hbeyond : 128 ≤ c.toNat
      · obtain ⟨hascii, hrest⟩ := hends hbeyond
        have hdigits := (span_append (digits_of_code c.toNat).2 hrest).1
        simp [tokenCode, hcode, hbeyond, firstToken, hascii, hdigits, digits_of_code]
      · have hne : c ≠ '_' := by
          rintro rfl
          cases hcode
        rw [tokenCode_plain hcode (Nat.not_le.mp hbeyond)]
        unfold firstToken
        split
        · simp_all
        · simp_all
        · simp_all

/-! ## Reading spellings -/

def spell (tokens : List (Option Char)) : List Char :=
  tokens.flatMap tokenCode

@[simp]
theorem spell_cons (t : Option Char) (tokens : List (Option Char)) :
    spell (t :: tokens) = tokenCode t ++ spell tokens := rfl

/-- Each token ends where the next one begins. -/
def AreApart (isAscii : Bool) : List (Option Char) → Prop
  | [] => True
  | t :: rest => EndsBefore isAscii t (spell rest) ∧ AreApart isAscii rest

theorem exists_tokenCode_eq (c : Char) :
    ∃ d tail, tokenCode (some c) = d :: tail ∧ isCodeDigit d = isCodeDigit c := by
  have hcoded : (codedChars.all fun c => !isCodeDigit c) = true := by decide
  cases hcode : fileNameCode? c with
  | some code =>
    have hc := mem_codedChars hcode
    obtain ⟨d, tail, heq, -⟩ := exists_code_eq hc
    have hnot : isCodeDigit c = false := by simpa using List.all_eq_true.mp hcoded c hc
    exact ⟨_, _, heq, by rw [hnot]; rfl⟩
  | none =>
    by_cases hbeyond : 128 ≤ c.toNat
    · refine ⟨'_', 'x' :: Nat.toDigits 16 c.toNat, by simp [tokenCode, hcode, hbeyond], ?_⟩
      have hle : ∀ d : Char, d.toNat < 128 → ¬c ≤ d := fun d hd h =>
        absurd (Nat.le_trans hbeyond h) (Nat.not_le.mpr hd)
      have hnine : decide (c.val ≤ '9'.val) = false := decide_eq_false (hle '9' (by decide))
      have hf : decide (c ≤ 'f') = false := decide_eq_false (hle 'f' (by decide))
      simp only [isCodeDigit, Char.isDigit, hnine, hf, Bool.and_false, Bool.or_false]
      rfl
    · exact ⟨c, [], tokenCode_plain hcode (Nat.not_le.mp hbeyond), rfl⟩

theorem tokenCode_ne_nil (t : Option Char) : tokenCode t ≠ [] := by
  cases t with
  | none => simp [tokenCode]
  | some c =>
    obtain ⟨d, tail, heq, -⟩ := exists_tokenCode_eq c
    simp [heq]

theorem eq_of_spell_eq {isAscii : Bool} {xs ys : List (Option Char)} (hx : AreApart isAscii xs)
    (hy : AreApart isAscii ys) (h : spell xs = spell ys) : xs = ys := by
  induction xs generalizing ys with
  | nil =>
    cases ys with
    | nil => rfl
    | cons u ys => exact absurd (List.append_eq_nil_iff.mp h.symm).1 (tokenCode_ne_nil u)
  | cons t xs ih =>
    cases ys with
    | nil => exact absurd (List.append_eq_nil_iff.mp h).1 (tokenCode_ne_nil t)
    | cons u ys =>
      have hfirst : tokenCode t ++ spell xs = tokenCode u ++ spell ys := h
      have heq : t = u := by
        rw [← firstToken_append hx.1, hfirst, firstToken_append hy.1]
      subst heq
      rw [ih hx.2 hy.2 (List.append_cancel_left hfirst)]

/-! ## The tokens of a name -/

/-- The characters of the rest of a name as they are spelled, with the mark before the first
capital. -/
def tokensFrom (caseSensitive marked : Bool) : List Char → List (Option Char)
  | [] => []
  | c :: rest =>
    if c.isUpper && !caseSensitive then
      (if marked then [] else [none]) ++ some c.toLower :: tokensFrom caseSensitive true rest
    else some c :: tokensFrom caseSensitive marked rest

theorem plain_of_isUpper (h : c.isUpper = true) :
    (fileNameCode? c = none ∧ c.toNat < 128) ∧
      fileNameCode? c.toLower = none ∧ c.toLower.toNat < 128 ∧ c.toLower.isLower = true := by
  have hall : ∀ n < 128, (Char.ofNat n).isUpper = true →
      fileNameCode? (Char.ofNat n) = none ∧ fileNameCode? (Char.ofNat n).toLower = none ∧
        (Char.ofNat n).toLower.toNat < 128 ∧ (Char.ofNat n).toLower.isLower = true := by
    decide +kernel
  have hlt : c.toNat < 128 := by
    unfold Char.isUpper at h
    rw [decide_eq_true_eq] at h
    exact Nat.lt_of_le_of_lt h.2 (by decide)
  have hc := hall c.toNat hlt (by rwa [Char.ofNat_toNat])
  rw [Char.ofNat_toNat] at hc
  exact ⟨⟨hc.1, hlt⟩, hc.2⟩

/-- A file name is spelled from tokens, which can be told apart. -/
theorem fileNameFrom_eq_spell (caseSensitive marked : Bool) (chars : List Char) :
    fileNameFrom caseSensitive marked chars = spell (tokensFrom caseSensitive marked chars) := by
  induction chars generalizing marked with
  | nil => rfl
  | cons c chars ih =>
    by_cases hupper : c.isUpper = true ∧ caseSensitive = false
    · obtain ⟨hupper, rfl⟩ := hupper
      obtain ⟨⟨hcode, hascii⟩, hlower, hlowerAscii, -⟩ := plain_of_isUpper hupper
      have htoken := tokenCode_plain hlower hlowerAscii
      have hmark : tokenCode none = ['_'] := rfl
      cases marked <;>
        simp [fileNameFrom, tokensFrom, hcode, Nat.not_le.mpr hascii, hupper, ih, htoken, hmark]
    · have hplain : (c.isUpper && !caseSensitive) = false := by simpa using hupper
      cases hcode : fileNameCode? c with
      | some code => simp [fileNameFrom, tokensFrom, hplain, tokenCode, hcode, ih]
      | none =>
        by_cases hbeyond : 128 ≤ c.toNat <;>
          simp [fileNameFrom, tokensFrom, hplain, tokenCode, hcode, hbeyond, ih]

theorem tokensFrom_sensitive (marked : Bool) (chars : List Char) :
    tokensFrom true marked chars = chars.map some := by
  induction chars with
  | nil => rfl
  | cons c chars ih => simp [tokensFrom, ih]

theorem toLower_of_not_isUpper (h : c.isUpper = false) : c.toLower = c := by
  unfold Char.isUpper at h
  unfold Char.toLower
  rw [dif_neg]
  simpa using h

theorem tokensFrom_marked (chars : List Char) :
    tokensFrom false true chars = (chars.map Char.toLower).map some := by
  induction chars with
  | nil => rfl
  | cons c chars ih =>
    cases hupper : c.isUpper with
    | true => simp [tokensFrom, hupper, ih]
    | false => simp [tokensFrom, hupper, ih, toLower_of_not_isUpper hupper]

/-! ## Where case does not matter -/

theorem tokensFrom_insensitive_eq_iff (xs ys : List Char) :
    tokensFrom false false xs = tokensFrom false false ys ↔
      xs.map Char.toLower = ys.map Char.toLower ∧
        xs.findIdx? Char.isUpper = ys.findIdx? Char.isUpper := by
  have hne : ∀ c cs, tokensFrom false false (c :: cs) ≠ [] := by
    intro c cs
    unfold tokensFrom
    split <;> simp
  induction xs generalizing ys with
  | nil =>
    cases ys with
    | nil => simp
    | cons y ys => exact iff_of_false (hne y ys).symm (by simp)
  | cons x xs ih =>
    cases ys with
    | nil => exact iff_of_false (hne x xs) (by simp)
    | cons y ys =>
      have hsome (us vs : List Char) : us.map some = vs.map some ↔ us = vs :=
        List.map_inj_right fun _ _ => Option.some.inj
      have hsucc (i j : Option Nat) : i.map (· + 1) = j.map (· + 1) ↔ i = j :=
        (Option.map_injective fun _ _ => Nat.succ.inj).eq_iff
      have hzero (i : Option Nat) : some 0 ≠ i.map (· + 1) := by cases i <;> simp
      cases hx : x.isUpper <;> cases hy : y.isUpper
      · simp [tokensFrom, hx, hy, List.findIdx?_cons, ih, hsucc, toLower_of_not_isUpper, and_assoc]
      · simp [tokensFrom, hx, hy, List.findIdx?_cons]
      · simp [tokensFrom, hx, hy, List.findIdx?_cons, hzero]
      · simp [tokensFrom, hx, hy, List.findIdx?_cons, tokensFrom_marked, hsome, -List.map_map]

theorem areApart_ascii (marked : Bool) {chars : List Char} (h : ∀ c ∈ chars, c.toNat < 128) :
    AreApart true (tokensFrom false marked chars) := by
  have hends {d : Char} (hd : d.toNat < 128) (text : List Char) : EndsBefore true (some d) text :=
    fun hbeyond => absurd hd (Nat.not_lt.mpr hbeyond)
  induction chars generalizing marked with
  | nil => trivial
  | cons c chars ih =>
    obtain ⟨hc, hrest⟩ := List.forall_mem_cons.mp h
    cases hupper : c.isUpper with
    | false =>
      rw [tokensFrom, hupper, Bool.false_and]
      exact ⟨hends hc _, ih marked hrest⟩
    | true =>
      obtain ⟨-, hcode, hlower, hletter⟩ := plain_of_isUpper hupper
      have hlowered : AreApart true (some c.toLower :: tokensFrom false true chars) :=
        ⟨hends hlower _, ih true hrest⟩
      cases marked with
      | true => simpa [tokensFrom, hupper] using hlowered
      | false =>
        -- The mark stands before the lowered letter.
        have hmarked : AreApart true (none :: some c.toLower :: tokensFrom false true chars) :=
          ⟨⟨rfl, c.toLower, by simp [tokenCode_plain hcode hlower], hletter⟩, hlowered⟩
        simpa [tokensFrom, hupper] using hmarked

/-- Two names are spelled alike where case does not matter exactly if they have the same letters
and the same place for the first capital. -/
theorem fileName_insensitive_eq_iff {a b : String} (ha : ∀ c ∈ a.toList, c.toNat < 128)
    (hb : ∀ c ∈ b.toList, c.toNat < 128) :
    fileName a false = fileName b false ↔
      asciiLower a = asciiLower b ∧
        a.toList.findIdx? Char.isUpper = b.toList.findIdx? Char.isUpper := by
  have htokens : fileName a false = fileName b false ↔
      tokensFrom false false a.toList = tokensFrom false false b.toList := by
    simp only [fileName, String.ofList_inj, fileNameFrom_eq_spell]
    exact ⟨eq_of_spell_eq (areApart_ascii false ha) (areApart_ascii false hb), congrArg spell⟩
  rw [htokens, tokensFrom_insensitive_eq_iff, asciiLower, asciiLower, String.ofList_inj]

theorem fileName_insensitive_eq_iff_pair :
    (∀ name ∈ ["My_PairBox", "My_pairbOx", "my_PairBox"], ∀ c ∈ name.toList, c.toNat < 128) ∧
      fileName "My_PairBox" false = fileName "My_pairbOx" false ∧
        fileName "My_PairBox" false ≠ fileName "my_PairBox" false := by
  have hall : (["My_PairBox", "My_pairbOx", "my_PairBox"].all fun name =>
      name.toList.all fun c => decide (c.toNat < 128)) = true := by decide
  have hascii : ∀ name ∈ ["My_PairBox", "My_pairbOx", "my_PairBox"], ∀ c ∈ name.toList,
      c.toNat < 128 := fun name hname c hc =>
    of_decide_eq_true (List.all_eq_true.mp (List.all_eq_true.mp hall name hname) c hc)
  have hfirst := hascii "My_PairBox" (by simp)
  refine ⟨hascii, ?_, fun h => ?_⟩
  · exact (fileName_insensitive_eq_iff hfirst (hascii _ (by simp))).mpr (by decide)
  · exact absurd ((fileName_insensitive_eq_iff hfirst (hascii _ (by simp))).mp h) (by decide)

/-! ## Where case matters -/

/-- No character beyond ASCII stands before what could be a digit of its code. -/
def IsReadable (chars : List Char) : Prop :=
  chars.IsChain fun c d => 128 ≤ c.toNat → isCodeDigit d = false

theorem areApart_of_isReadable {chars : List Char} (h : IsReadable chars) :
    AreApart false (chars.map some) := by
  induction chars with
  | nil => trivial
  | cons c chars ih =>
    cases chars with
    | nil => simp [AreApart, EndsBefore, spell]
    | cons d chars =>
      obtain ⟨hnext, hrest⟩ := List.isChain_cons_cons.mp h
      obtain ⟨first, tail, heq, hdigit⟩ := exists_tokenCode_eq d
      exact ⟨fun hbeyond => ⟨rfl, by simpa [heq, hdigit] using hnext hbeyond⟩, ih hrest⟩

theorem eq_of_fileName_eq {x y : String} (hx : IsReadable x.toList) (hy : IsReadable y.toList)
    (h : fileName x true = fileName y true) : x = y := by
  simp only [fileName, String.ofList_inj, fileNameFrom_eq_spell, tokensFrom_sensitive] at h
  have hsome := eq_of_spell_eq (areApart_of_isReadable hx) (areApart_of_isReadable hy) h
  exact String.toList_inj.mp (List.map_injective_iff.mpr (fun _ _ => Option.some.inj) hsome)

end Text.FileName

open Text.FileName

namespace Entity

/-- The words for entities of a kind. -/
def kindWords : EntityKind → List String
  | .classKind => ["class", "enum", "module"]
  | .structKind => ["struct", "type"]
  | .interface => ["interface", "class"]
  | .namespaceKind => ["namespace", "module"]
  | .constantGroup => ["constants", "unknown"]
  | .service => ["service", "unknown"]
  | .singleton => ["singleton", "unknown"]
  | .library => ["library", "unknown"]
  | kind => [kind.name]

theorem kindWord_mem (e : Entity) : e.kindWord ∈ kindWords e.kind := by
  unfold kindWord
  generalize e.class?.any (·.traits.isJavaEnum) = isEnum
  cases e.language == .fortran <;> cases e.language == .objc <;> cases isEnum <;>
    cases e.kind <;> decide

theorem kindWords_apart (kind : EntityKind) : ∀ w ∈ kindWords kind, ∀ w' ∈ kindWords kind,
    w.toList.head? = w'.toList.head? → w = w' := by
  cases kind <;> decide

theorem kindWords_ascii (kind : EntityKind) : ∀ w ∈ kindWords kind, w.toList ≠ [] ∧
    ∀ c ∈ w.toList, c.toNat < 128 := by
  have hall : ((kindWords kind).all fun w =>
      !w.toList.isEmpty && w.toList.all fun c => decide (c.toNat < 128)) = true := by
    cases kind <;> decide
  intro w hw
  obtain ⟨hne, hascii⟩ := Bool.and_eq_true_iff.mp (List.all_eq_true.mp hall w hw)
  exact ⟨by simpa using hne, fun c hc => of_decide_eq_true (List.all_eq_true.mp hascii c hc)⟩

theorem isReadable_kindWord (e : Entity) (h : IsReadable e.name.toList) :
    IsReadable (e.kindWord ++ e.name).toList := by
  have hascii := (kindWords_ascii e.kind _ e.kindWord_mem).2
  rw [String.toList_append]
  generalize e.kindWord.toList = word at hascii ⊢
  induction word with
  | nil => exact h
  | cons c word ih =>
    obtain ⟨hc, hword⟩ := List.forall_mem_cons.mp hascii
    refine List.isChain_cons.mpr ⟨fun _ _ hbeyond => ?_, ih hword⟩
    exact absurd hc (Nat.not_lt.mpr hbeyond)

end Entity

namespace Atlas

theorem fileBase_of_pageOwner {a : Atlas} {id : EntityId} {e : Entity}
    (h : a.entity? (a.pageOwner id) = some e) :
    a.fileBase id = Text.fileName (e.kindWord ++ e.name) a.options.caseSensitiveFileNames := by
  simp [fileBase, h]

/-- Where case matters, names can be read back from file names, and entities of one kind with
different names are on different pages. -/
theorem fileName_eq_and_fileBase_eq (a : Atlas) :
    (∀ x y : String, IsReadable x.toList → IsReadable y.toList →
      Text.fileName x true = Text.fileName y true → x = y) ∧
    (a.options.caseSensitiveFileNames = true → ∀ id id' e e',
      a.entity? (a.pageOwner id) = some e → a.entity? (a.pageOwner id') = some e' →
      e.kind = e'.kind → IsReadable e.name.toList → IsReadable e'.name.toList →
      a.fileBase id = a.fileBase id' → e.name = e'.name) := by
  refine ⟨fun x y => eq_of_fileName_eq,
    fun hcase id id' e e' he he' hkind hname hname' h => ?_⟩
  rw [fileBase_of_pageOwner he, fileBase_of_pageOwner he', hcase] at h
  have heq : e.kindWord ++ e.name = e'.kindWord ++ e'.name :=
    eq_of_fileName_eq (e.isReadable_kindWord hname) (e'.isReadable_kindWord hname') h
  -- The words are not empty, so what is spelled alike begins with their first letters.
  have hhead (e : Entity) : (e.kindWord ++ e.name).toList.head? = e.kindWord.toList.head? := by
    rw [String.toList_append, List.head?_append_of_ne_nil]
    exact (Entity.kindWords_ascii e.kind _ e.kindWord_mem).1
  have hword : e.kindWord = e'.kindWord :=
    Entity.kindWords_apart e.kind _ e.kindWord_mem _ (hkind ▸ e'.kindWord_mem)
      (by rw [← hhead, heq, hhead])
  rw [hword] at heq
  exact (String.append_right_inj _).mp heq

theorem fileName_eq_and_fileBase_eq_oil :
    let first := ((Atlas.empty { caseSensitiveFileNames := true }).register "Öl" .classKind {}).1
    let a := (first.register "öl" .classKind {}).1
    (∀ name ∈ ["Öl", "öl"], IsReadable name.toList) ∧
      Text.fileName "Öl" true ≠ Text.fileName "öl" true ∧ a.fileBase ⟨1⟩ ≠ a.fileBase ⟨2⟩ := by
  intro first a
  have hread : ∀ name ∈ ["Öl", "öl"], IsReadable name.toList := by
    unfold IsReadable
    decide
  have hread₁ := hread "Öl" (by decide)
  have hread₂ := hread "öl" (by decide)
  have hpage₁ : a.pageOwner ⟨1⟩ = ⟨1⟩ := by decide +kernel
  have hpage₂ : a.pageOwner ⟨2⟩ = ⟨2⟩ := by decide +kernel
  refine ⟨hread, fun h => ?_, fun h => ?_⟩
  · exact absurd ((fileName_eq_and_fileBase_eq a).1 _ _ hread₁ hread₂ h) (by decide)
  · exact absurd ((fileName_eq_and_fileBase_eq a).2 rfl ⟨1⟩ ⟨2⟩ _ _
      ((congrArg a.entity? hpage₁).trans rfl) ((congrArg a.entity? hpage₂).trans rfl) rfl
      hread₁ hread₂ h) (by decide)

theorem fileName_collision :
    Text.fileName "é1" true = Text.fileName "\u0e91" true ∧ "é1" ≠ "\u0e91" := by
  decide +kernel

end Atlas

end SymbolAtlas
