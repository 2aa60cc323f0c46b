import SymbolAtlas.Json.Printer
import SymbolAtlas.Proofs.Text.Respacing

/-!
# Tokens that are written and read

A token that is written is read back, whatever follows it, if that cannot be taken for more of the
token: after a number or a word there must be another kind of character. Blanks between tokens do
not matter. Texts may hold any characters; numbers may have signs, fractions and exponents.
-/

set_option autoImplicit false

namespace SymbolAtlas

/-- A numeral has at least one digit after the point, if it has a point. -/
def Numeral.isWritten (n : Numeral) : Bool :=
  n.fraction.all fun digits => !digits.isEmpty && digits.all Char.isDigit

namespace Json

open Text (hexDigit? digitsValue)

variable {c : Char} {cs rest text : List Char} {ts : List Token} (n : Nat)

/-! ## Texts -/

theorem hexDigit?_hexChar : hexDigit? (hexChar n) = some (n % 16) := by
  have hdigits : ∀ d < 16, hexDigit? (Nat.digitChar d) = some d := by decide
  exact hdigits (n % 16) (Nat.mod_lt n (by decide))

theorem scanText_escape {letter : Char} (hletter : escaped? letter = some c) (rest : List Char) :
    scanText ('\\' :: letter :: rest) =
      (scanText rest).map fun (codes, after) => (c.toNat :: codes, after) := by
  have hu : letter ≠ 'u' := by
    rintro rfl
    cases hletter
  rw [scanText]
  · rw [hletter]
    cases scanText rest <;> rfl
  · intro a b c' d rest' heq
    exact absurd heq hu

theorem scanText_quoteChar (c : Char) (rest : List Char) :
    scanText (quoteChar c ++ rest) =
      (scanText rest).map fun (codes, after) => (c.toNat :: codes, after) := by
  unfold quoteChar
  split
  case h_8 hquote hbackslash _ _ _ _ _ =>
    split
    · have hcode : hexCode? '0' '0' (hexChar (c.toNat / 16)) (hexChar c.toNat) = some c.toNat := by
        have hzero : hexDigit? '0' = some 0 := by decide
        simp only [hexCode?, hexDigit?_hexChar, hzero]
        congr 1
        omega
      simp only [List.cons_append, List.nil_append, scanText, hcode]
      cases scanText rest <;> rfl
    · next hcontrol =>
      simp only [List.cons_append, List.nil_append]
      rw [scanText, if_neg hcontrol]
      · exact hquote
      · intro a b c' d rest' heq
        exact absurd heq hbackslash
      · intro c' rest' heq
        exact absurd heq hbackslash
  all_goals exact scanText_escape rfl rest

theorem scanText_quoted (cs rest : List Char) :
    scanText (cs.flatMap quoteChar ++ '"' :: rest) = some (cs.map Char.toNat, rest) := by
  induction cs with
  | nil => rfl
  | cons c cs ih =>
    rw [List.flatMap_cons, List.append_assoc, scanText_quoteChar, ih]
    rfl

theorem not_surrogate (c : Char) :
    isHighSurrogate c.toNat = false ∧ isLowSurrogate c.toNat = false := by
  have hvalid : c.toNat < 0xd800 ∨ 0xdfff < c.toNat ∧ c.toNat < 0x110000 := c.valid
  unfold isHighSurrogate isLowSurrogate
  simp only [Bool.and_eq_false_iff, decide_eq_false_iff_not]
  omega

theorem assemble_toNat (cs : List Char) : assemble (cs.map Char.toNat) = some cs := by
  induction cs with
  | nil => rfl
  | cons c cs ih =>
    obtain ⟨hhigh, hlow⟩ := not_surrogate c
    cases cs with
    | nil => simp [assemble, hhigh, hlow]
    | cons c' cs =>
      rw [List.map_cons, List.map_cons, assemble]
      rw [List.map_cons] at ih
      simp [hhigh, hlow, ih]

/-! ## Numbers -/

theorem isDigit_of_mem_decimal {n : Nat} (h : c ∈ decimal n) : c.isDigit = true :=
  Nat.isDigit_of_mem_toDigits (by decide) (by decide) h

theorem digitsValue_decimal : digitsValue (decimal n) = n := by
  have hsame : digitsValue (decimal n) = Nat.ofDigitChars 10 (decimal n) 0 := by
    unfold digitsValue Nat.ofDigitChars
    congr 1
    funext value digit
    rw [Nat.mul_comm]
    rfl
  rw [hsame]
  exact Nat.ofDigitChars_toDigits (by decide) (by decide)

theorem head?_decimal_ne {n : Nat} (hn : 0 < n) : (decimal n).head? ≠ some '0' := by
  induction n using Nat.strongRecOn with
  | ind n ih =>
    unfold decimal
    by_cases hlt : n < 10
    · have hdigits : ∀ d < 10, 0 < d → [Nat.digitChar d].head? ≠ some '0' := by decide
      rw [Nat.toDigits_of_lt_base hlt]
      exact hdigits n hlt hn
    · have hshorter := ih (n / 10) (by omega) (by omega)
      rw [Nat.toDigits_of_base_le (by decide) (by omega), List.head?_append]
      cases hhead : (Nat.toDigits 10 (n / 10)).head? with
      | none => simp [Nat.toDigits_ne_nil] at hhead
      | some c =>
        rw [decimal, hhead] at hshorter
        exact hshorter

theorem exists_decimal_eq : ∃ c cs, decimal n = c :: cs ∧ c.isDigit = true := by
  cases h : decimal n with
  | nil => exact absurd h Nat.toDigits_ne_nil
  | cons c cs => exact ⟨c, cs, rfl, isDigit_of_mem_decimal (by rw [h]; exact List.mem_cons_self)⟩

theorem all_isDigit_decimal : (!(decimal n).isEmpty && (decimal n).all Char.isDigit) = true := by
  obtain ⟨c, cs, hdecimal, -⟩ := exists_decimal_eq n
  simp only [Bool.and_eq_true, List.all_eq_true]
  exact ⟨by simp [hdecimal], fun c hc => isDigit_of_mem_decimal hc⟩

theorem exponent?_decimal (e : Nat) : exponent? (decimal e) = some (e : Int) := by
  obtain ⟨c, cs, hdecimal, hc⟩ := exists_decimal_eq e
  have hall := all_isDigit_decimal e
  have hvalue := digitsValue_decimal e
  rw [hdecimal] at hall hvalue ⊢
  unfold exponent?
  split
  · next heq =>
    cases heq
    cases hc
  · next heq =>
    cases heq
    cases hc
  · rw [if_pos hall, hvalue]

theorem exponent?_negated (e : Nat) : exponent? ('-' :: decimal (e + 1)) = some (.negSucc e) := by
  rw [exponent?, if_pos (all_isDigit_decimal (e + 1)), digitsValue_decimal]
  rfl

theorem isDigit_head?_exponentText (e : Option Int) :
    ∀ c ∈ (exponentText e).head?, c.isDigit = false := by
  intro c hc
  rcases e with _ | e | e <;> cases hc <;> rfl

theorem numeralTail?_written (isNegative : Bool) (whole : Nat) {fraction : Option (List Char)}
    (hfraction : ∀ digits ∈ fraction, digits ≠ [] ∧ ∀ c ∈ digits, c.isDigit = true)
    (exponent : Option Int) :
    numeralTail? isNegative whole (fractionText fraction ++ exponentText exponent) =
      some { isNegative, whole, fraction, exponent } := by
  cases fraction with
  | none =>
    rcases exponent with _ | e | e
    · rfl
    · simp [numeralTail?, fractionText, exponentText, exponent?_decimal]
    · simp [numeralTail?, fractionText, exponentText, exponent?_negated]
  | some digits =>
    obtain ⟨hne, hdigits⟩ := hfraction digits rfl
    obtain ⟨htake, hdrop⟩ := Text.span_append hdigits (isDigit_head?_exponentText exponent)
    rw [fractionText, List.cons_append, numeralTail?]
    simp only [htake, hdrop]
    rcases exponent with _ | e | e
    · simp [exponentText, hne]
    · simp [exponentText, hne, exponent?_decimal]
    · simp [exponentText, hne, exponent?_negated]

theorem isWhole_decimal :
    ((decimal n).isEmpty || ((decimal n).length != 1 && (decimal n).head? == some '0')) = false := by
  obtain ⟨c, cs, hdecimal, -⟩ := exists_decimal_eq n
  have hempty : (decimal n).isEmpty = false := by simp [hdecimal]
  rw [hempty, Bool.false_or]
  cases n with
  | zero => rfl
  | succ n =>
    have hhead : ((decimal (n + 1)).head? == some '0') = false :=
      beq_eq_false_iff_ne.mpr (head?_decimal_ne (Nat.succ_pos n))
    rw [hhead, Bool.and_false]

/-- A numeral is read back digit by digit. -/
theorem numeral?_renderNumeral {n : Numeral} (h : n.isWritten = true) :
    numeral? (renderNumeral n) = some n := by
  obtain ⟨isNegative, whole, fraction, exponent⟩ := n
  have hfraction : ∀ digits ∈ fraction, digits ≠ [] ∧ ∀ c ∈ digits, c.isDigit = true := by
    intro digits hdigits
    cases hdigits
    simpa [Numeral.isWritten] using h
  have htail := numeralTail?_written isNegative whole hfraction exponent
  have hhead : ∀ c ∈ (fractionText fraction ++ exponentText exponent).head?, c.isDigit = false := by
    cases fraction with
    | none => exact isDigit_head?_exponentText exponent
    | some digits => simp [fractionText]
  have hdigits : ∀ c ∈ decimal whole, c.isDigit = true := fun c hc => isDigit_of_mem_decimal hc
  obtain ⟨htake, hdrop⟩ := Text.span_append hdigits hhead
  have hwhole := isWhole_decimal whole
  rw [renderNumeral]
  cases isNegative with
  | true =>
    simp only [if_true, List.cons_append, List.nil_append, numeral?, htake, hdrop, hwhole,
      digitsValue_decimal, htail]
    rfl
  | false =>
    obtain ⟨c, cs, hdecimal, hc⟩ := exists_decimal_eq whole
    simp only [Bool.false_eq_true, if_false, List.nil_append]
    unfold numeral?
    split
    next heq =>
    split at heq
    · next hsign =>
      rw [hdecimal] at hsign
      cases hsign
      cases hc
    · cases heq
      simp only [htake, hdrop, hwhole, digitsValue_decimal, htail]
      rfl

/-! ## Tokens -/

/-- What follows is neither part of a number nor part of a word. -/
def IsCut (cs : List Char) : Prop :=
  ∀ c ∈ cs.head?, isNumberChar c = false ∧ c.isAlpha = false

/-- A token that denotes something. -/
def Token.isWritten : Token → Bool
  | .text literal => literal.isSome
  | .number n => n.isWritten
  | _ => true

/-- Whether a token is a number or a word, whose end is told only by what follows. -/
def Token.isOpenEnded : Token → Bool
  | .null | .bool _ | .number _ => true
  | _ => false

theorem isNumberChar_of_isDigit (h : c.isDigit = true) : isNumberChar c = true := by
  simp [isNumberChar, h]

theorem isNumberChar_renderNumeral {n : Numeral} (h : n.isWritten = true) :
    ∀ c ∈ renderNumeral n, isNumberChar c = true := by
  have hdecimal (m : Nat) : ∀ c ∈ decimal m, isNumberChar c = true := fun c hc =>
    isNumberChar_of_isDigit (isDigit_of_mem_decimal hc)
  intro c hc
  rw [renderNumeral] at hc
  simp only [List.mem_append] at hc
  rcases hc with hsign | hwhole | hfraction | hexponent
  · cases hn : n.isNegative <;> simp [hn] at hsign
    rw [hsign]
    rfl
  · exact hdecimal n.whole c hwhole
  · cases hn : n.fraction with
    | none => simp [hn, fractionText] at hfraction
    | some digits =>
      simp only [Numeral.isWritten, hn, Option.all_some, Bool.and_eq_true, List.all_eq_true] at h
      rw [hn] at hfraction
      rcases List.mem_cons.mp hfraction with rfl | hdigit
      · rfl
      · exact isNumberChar_of_isDigit (h.2 c hdigit)
  · rcases hn : n.exponent with _ | e | e
    · simp [hn, exponentText] at hexponent
    · rw [hn] at hexponent
      rcases List.mem_cons.mp hexponent with rfl | hdigit
      · rfl
      · exact hdecimal e c hdigit
    · rw [hn] at hexponent
      rcases List.mem_cons.mp hexponent with rfl | hexponent
      · rfl
      · rcases List.mem_cons.mp hexponent with rfl | hdigit
        · rfl
        · exact hdecimal (e + 1) c hdigit

theorem exists_renderNumeral_eq (n : Numeral) :
    ∃ c cs, renderNumeral n = c :: cs ∧ (c.isDigit || c == '-') = true := by
  rw [renderNumeral]
  cases n.isNegative with
  | true => exact ⟨'-', _, rfl, rfl⟩
  | false =>
    obtain ⟨c, cs, hdecimal, hc⟩ := exists_decimal_eq n.whole
    rw [hdecimal]
    exact ⟨c, _, rfl, by simp [hc]⟩

theorem nextToken_number {n : Numeral} (h : n.isWritten = true) (hn : renderNumeral n = c :: cs)
    (hc : (c.isDigit || c == '-') = true) (hrest : IsCut rest) :
    nextToken c (cs ++ rest) = some (.number n, rest) := by
  have hchars : ∀ x ∈ cs, isNumberChar x = true := fun x hx =>
    isNumberChar_renderNumeral h x (by rw [hn]; exact List.mem_cons_of_mem c hx)
  obtain ⟨htake, hdrop⟩ := Text.span_append hchars fun x hx => (hrest x hx).1
  have hread := numeral?_renderNumeral h
  rw [hn] at hread
  unfold nextToken
  split
  case h_8 => rw [if_pos hc, htake, hdrop, hread, Option.map_some]
  all_goals cases hc

theorem nextToken_word {word : List Char} {token : Token} (hc : (c.isDigit || c == '-') = false)
    (halpha : (c :: word).all Char.isAlpha = true) (hword : word? (c :: word) = some token)
    (hrest : IsCut rest) : nextToken c (word ++ rest) = some (token, rest) := by
  rw [List.all_cons, Bool.and_eq_true, List.all_eq_true] at halpha
  obtain ⟨hfirst, hword'⟩ := halpha
  obtain ⟨htake, hdrop⟩ := Text.span_append hword' fun x hx => (hrest x hx).2
  unfold nextToken
  split
  case h_8 =>
    rw [if_neg (by simp [hc]), htake, hdrop, hword, Option.map_some]
  all_goals cases hfirst

theorem nextToken_text (s : String) (rest : List Char) :
    nextToken '"' (s.toList.flatMap quoteChar ++ '"' :: rest) = some (.text (some s), rest) := by
  simp only [nextToken, scanText_quoted, Option.map_some, assemble_toNat, String.ofList_toList]

theorem tokens?_cons {t : Token} (hc : isSpace c = false) (h : nextToken c cs = some (t, rest)) :
    tokens? (c :: cs) = (tokens? rest).map (t :: ·) := by
  rw [tokens?, if_neg (by simp [hc])]
  split
  · next hnone =>
    rw [h] at hnone
    cases hnone
  · next hsome =>
    rw [h] at hsome
    cases hsome
    rfl

theorem tokens?_word {t : Token} {word : List Char} (ht : t.render = c :: word)
    (hword : word? (c :: word) = some t) (hc : (isSpace c || c.isDigit || c == '-') = false)
    (halpha : (c :: word).all Char.isAlpha = true) (hrest : IsCut rest) :
    tokens? (t.render ++ rest) = (tokens? rest).map (t :: ·) := by
  rw [Bool.or_assoc, Bool.or_eq_false_iff] at hc
  rw [ht]
  exact tokens?_cons hc.1 (nextToken_word hc.2 halpha hword hrest)

/-- A token is read back from what it is written as. -/
theorem tokens?_render {t : Token} (ht : t.isWritten = true)
    (hrest : t.isOpenEnded = true → IsCut rest) :
    tokens? (t.render ++ rest) = (tokens? rest).map (t :: ·) := by
  cases t with
  | number n =>
    obtain ⟨c, cs, hn, hc⟩ := exists_renderNumeral_eq n
    have hspace : isSpace c = false := by
      cases hspace : isSpace c with
      | false => rfl
      | true =>
        simp only [isSpace, Bool.or_eq_true, beq_iff_eq] at hspace
        rcases hspace with ((rfl | rfl) | rfl) | rfl <;> cases hc
    have hrender : Token.render (.number n) = c :: cs := hn
    rw [hrender]
    exact tokens?_cons hspace (nextToken_number ht hn hc (hrest rfl))
  | text literal =>
    obtain ⟨s, rfl⟩ := Option.isSome_iff_exists.mp ht
    have hrender : Token.render (.text (some s)) = quote s := rfl
    rw [hrender, quote, List.append_assoc]
    exact tokens?_cons rfl (nextToken_text s rest)
  | null =>
    have hnull : Token.render .null = ['n', 'u', 'l', 'l'] := by decide
    exact tokens?_word hnull (by simp [word?]) rfl rfl (hrest rfl)
  | bool b =>
    cases b with
    | true =>
      have htrue : Token.render (.bool true) = ['t', 'r', 'u', 'e'] := by decide
      exact tokens?_word htrue (by simp [word?]) rfl rfl (hrest rfl)
    | false =>
      have hfalse : Token.render (.bool false) = ['f', 'a', 'l', 's', 'e'] := by decide
      exact tokens?_word hfalse (by simp [word?]) rfl rfl (hrest rfl)
  | openArray => exact tokens?_cons rfl rfl
  | closeArray => exact tokens?_cons rfl rfl
  | openObject => exact tokens?_cons rfl rfl
  | closeObject => exact tokens?_cons rfl rfl
  | comma => exact tokens?_cons rfl rfl
  | colon => exact tokens?_cons rfl rfl

/-! ## Sequences of tokens -/

/-- A text spells the given tokens, whatever cut follows it. -/
def Spells (text : List Char) (ts : List Token) : Prop :=
  ∀ rest, IsCut rest → tokens? (text ++ rest) = (tokens? rest).map (ts ++ ·)

theorem isCut_nil : IsCut [] := by
  intro c hc
  cases hc

theorem isCut_cons (hc : (isNumberChar c || c.isAlpha) = false) (cs : List Char) :
    IsCut (c :: cs) := by
  intro x hx
  cases hx
  exact Bool.or_eq_false_iff.mp hc

theorem IsCut.append (hcs : IsCut cs) (hrest : IsCut rest) : IsCut (cs ++ rest) := by
  cases cs with
  | nil => exact hrest
  | cons c cs => exact hcs

theorem spells_nil : Spells [] [] := by
  intro rest _
  simp

theorem spells_render (t : Token) (ht : t.isWritten = true) : Spells t.render [t] := by
  intro rest hrest
  exact tokens?_render ht fun _ => hrest

theorem Spells.cons (h : Spells text ts) (t : Token) (ht : t.isWritten = true)
    (hclosed : t.isOpenEnded = false) : Spells (t.render ++ text) (t :: ts) := by
  intro rest hrest
  rw [List.append_assoc, tokens?_render ht (by simp [hclosed]), h rest hrest, Option.map_map]
  rfl

theorem Spells.append {text' : List Char} {ts' : List Token} (h : Spells text ts)
    (h' : Spells text' ts') (hcut : IsCut text') : Spells (text ++ text') (ts ++ ts') := by
  intro rest hrest
  rw [List.append_assoc, h _ (hcut.append hrest), h' rest hrest, Option.map_map]
  simp only [Function.comp_def, List.append_assoc]

theorem Spells.blanks {blanks : List Char} (h : Spells text ts)
    (hblanks : blanks.all isSpace = true) : Spells (blanks ++ text) ts := by
  induction blanks with
  | nil => exact h
  | cons c cs ih =>
    rw [List.all_cons, Bool.and_eq_true] at hblanks
    intro rest hrest
    rw [List.cons_append, List.cons_append, tokens?, if_pos hblanks.1]
    exact ih hblanks.2 rest hrest

theorem tokens?_of_spells (h : Spells text ts) : tokens? text = some ts := by
  have hall := h [] isCut_nil
  rw [List.append_nil] at hall
  rw [hall, tokens?]
  simp

end Json

end SymbolAtlas
