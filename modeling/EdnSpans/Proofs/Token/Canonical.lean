/-
**Canonical texts are read back.**

The printer and the lexer know different halves of the same conventions: which characters have
names, which are escaped in a string, how a number is written.  Here the halves are put together.
The text of a scalar, in front of anything that cannot be a part of a name, is read as that scalar,
provided that it is one that the lexer can produce at all: a symbol, for instance, must not look
like a number.

Main definitions:

* `EdnSpans.Scalar.Readable` — a scalar that the lexer can produce, floating-point numbers apart;
* `EdnSpans.Text.Separates` — a text before which a name ends.

Main results:

* `EdnSpans.Radix.natural?_decimalText` — decimal digits denote the number they were written for;
* `EdnSpans.Literal.stringBody_escape` — the escapes of a string are undone;
* `EdnSpans.Scalar.readsAs_text` — **the text of a readable scalar is read as that scalar**;
* `EdnSpans.Scalar.eq_of_kindName_of_text` — a scalar is determined by its kind and its text;
* `EdnSpans.Token.ReadsAs.readable` — conversely, whatever the lexer produces is readable.
-/
import EdnSpans.Proofs.Token.Word

set_option relaxedAutoImplicit false
set_option autoImplicit false

namespace EdnSpans

open Text

/-! ### Numbers -/

namespace Radix

theorem extend?_append (base n : Nat) (s t : Text) :
    extend? base n (s ++ t) = (extend? base n s).bind fun m => extend? base m t := by
  induction s generalizing n with
  | nil => rfl
  | cons c s ih =>
      rw [List.cons_append, extend?, extend?, Option.bind_assoc]
      congr 1
      funext d
      exact ih _

theorem digit?_digitChar {d : Nat} (h : d < 10) : digit? 10 d.digitChar = some d := by
  have hall : ∀ d : Fin 10, digit? 10 (Nat.digitChar d) = some d.val := by decide
  exact hall ⟨d, h⟩

theorem extend?_decimalText (n : Nat) : extend? 10 0 (decimalText n) = some n := by
  induction n using Nat.strongRecOn with
  | ind n ih =>
      rw [decimalText, Nat.toDigits_eq_if (by decide)]
      split
      · next hlt =>
          rw [extend?, digit?_digitChar hlt, Option.bind_some, extend?, Nat.zero_mul, Nat.zero_add]
      · next hge =>
          -- all digits but the last one are those of the quotient
          have hfront := ih (n / 10) (by omega)
          rw [decimalText] at hfront
          rw [extend?_append, hfront, Option.bind_some, extend?,
            digit?_digitChar (Nat.mod_lt n (by decide)), Option.bind_some, extend?]
          congr 1
          omega

/-- Decimal digits **denote the number** they were written for. -/
theorem natural?_decimalText (n : Nat) : natural? 10 (decimalText n) = some n := by
  have hne : decimalText n ≠ [] := List.ne_nil_of_length_pos Nat.length_toDigits_pos
  rw [natural?, if_neg (by simpa using hne)]
  exact extend?_decimalText n

theorem isDigit_of_mem_decimalText {n : Nat} {c : Char} (h : c ∈ decimalText n) : c.isDigit :=
  Nat.isDigit_of_mem_toDigits (by decide) (by decide) h

theorem splitSign_of_isDigit {t : Text} (h : ∀ c ∈ t, c.isDigit) : splitSign t = (false, t) := by
  unfold splitSign
  split
  · exact absurd (h '-' (List.mem_cons_self ..)) (by decide)
  · exact absurd (h '+' (List.mem_cons_self ..)) (by decide)
  · rfl

theorem splitSign_integerText (n : Int) :
    splitSign (integerText n) = (decide (n < 0), decimalText n.natAbs) := by
  rw [integerText]
  split
  · next h => simp [splitSign, h]
  · next h =>
      rw [splitSign_of_isDigit fun c => isDigit_of_mem_decimalText]
      simp [h]

theorem integer?_integerText (n : Int) : integer? 10 (integerText n) = some n := by
  rw [integer?, splitSign_integerText, natural?_decimalText, Option.map_some, signed]
  congr 1
  by_cases h : n < 0
  · simp only [h, decide_true, if_true]
    omega
  · simp only [h, decide_false, Bool.false_eq_true, if_false]
    omega

theorem int64?_toInt (n : Int64) : int64? n.toInt = some n := by
  rw [int64?, if_pos ⟨n.minValue_le_toInt, n.toInt_le⟩, Int64.ofInt_toInt]

end Radix

namespace Literal

theorem hexDigits?_of_isDigit {t : Text} (h : ∀ c ∈ t, c.isDigit) : hexDigits? t = none := by
  unfold hexDigits?
  split
  · exact absurd (h 'x' (by simp)) (by decide)
  · exact absurd (h 'X' (by simp)) (by decide)
  · rfl

/-- The text of a 64-bit integer is the literal of a number, **and of that number**. -/
theorem number?_integerText (n : Int64) :
    number? (Radix.integerText n.toInt) = some (.integer n) := by
  have hdigits : ∀ c ∈ Radix.decimalText n.toInt.natAbs, c.isDigit :=
    fun c => Radix.isDigit_of_mem_decimalText
  have hmark : (Radix.decimalText n.toInt.natAbs).any (fun c => c = '.' || c = 'e' || c = 'E')
      = false := by
    refine List.any_eq_false.2 fun c hc => ?_
    have hd := hdigits c hc
    simp only [Bool.or_eq_true, decide_eq_true_eq, not_or]
    refine ⟨⟨?_, ?_⟩, ?_⟩ <;> rintro rfl <;> exact absurd hd (by decide)
  rw [number?, Radix.splitSign_integerText]
  simp only [hexDigits?_of_isDigit hdigits, hmark, Bool.false_eq_true, if_false,
    Radix.integer?_integerText, Option.bind_some, Radix.int64?_toInt, Option.map_some]

end Literal

/-! ### Strings -/

namespace Literal

/-- What is written for a character in a string **is read as that character**. -/
theorem stringBody_escape_append (c : Char) (t : Text) :
    stringBody (Scalar.escape c ++ t) = (stringBody t).push (Scalar.escape c).length c := by
  rw [Scalar.escape]
  cases hlookup : Scalar.stringEscapes.lookup c with
  | some letter =>
      obtain ⟨before, after, hsplit, -⟩ := List.lookup_eq_some_iff.1 hlookup
      have hmem : (c, letter) ∈ Scalar.stringEscapes := by simp [hsplit]
      -- in particular no letter is the one that announces four digits
      have hall : ∀ p ∈ Scalar.stringEscapes, p.2 ≠ 'u' ∧ unescaped p.2 = p.1 := by decide
      obtain ⟨hletter, hmeant⟩ := hall _ hmem
      rw [List.cons_append, List.cons_append, List.nil_append, stringBody.eq_def]
      simp only [if_neg (show '\\' ≠ '"' by decide), if_true, if_neg hletter, hmeant]
      rfl
  | none =>
      have hne (p : Char × Char) (hp : p ∈ Scalar.stringEscapes) : c ≠ p.1 := by
        simpa using List.lookup_eq_none_iff.1 hlookup p hp
      have hquote : c ≠ '"' := hne ('"', '"') (by decide)
      have hbackslash : c ≠ '\\' := hne ('\\', '\\') (by decide)
      rw [List.cons_append, List.nil_append, stringBody.eq_def]
      simp only [if_neg hquote, if_neg hbackslash]
      rfl

/-- The escapes of a string **are undone**. -/
theorem stringBody_escape (s rest : Text) :
    stringBody (s.flatMap Scalar.escape ++ '"' :: rest)
      = ⟨(s.flatMap Scalar.escape).length + 1, .ok s⟩ := by
  induction s with
  | nil =>
      rw [List.flatMap_nil, List.nil_append, stringBody.eq_def]
      rfl
  | cons c s ih =>
      rw [List.flatMap_cons, List.append_assoc, stringBody_escape_append, ih, List.length_append,
        Nat.add_assoc]
      rfl

end Literal

/-! ### Names -/

namespace Text

/-- A name that stands before the text ends there. -/
def Separates (rest : Text) : Prop := ∀ c ∈ rest.head?, isSymbolic c = false

theorem separates_nil : Separates [] := by simp [Separates]

/-- The text begins like the opener of a set, like a keyword or like a number. -/
def beginsOtherwise : Text → Bool
  | [] => false
  | c :: t =>
      c = '#' || c = ':' || c.isDigit || ((c = '-' || c = '+') && t.head?.any Char.isDigit)

theorem takeWhile_of_separates {p : Char → Bool} (hp : ∀ c, p c → isSymbolic c) {name rest : Text}
    (hname : ∀ c ∈ name, p c) (hrest : Separates rest) : (name ++ rest).takeWhile p = name := by
  have hstop : rest.takeWhile p = [] := by
    cases rest with
    | nil => rfl
    | cons c rest =>
        have hc : ¬p c := fun h => by simpa [hrest c rfl] using hp c h
        rw [List.takeWhile_cons_of_neg hc]
  rw [List.takeWhile_append_of_pos hname, hstop, List.append_nil]

/-- Whether a text begins with a digit is seen in its leading name. -/
theorem any_isDigit_head?_takeWhile (t : Text) :
    (t.takeWhile isSymbolic).head?.any Char.isDigit = t.head?.any Char.isDigit := by
  cases t with
  | nil => rfl
  | cons c t =>
      by_cases hc : isSymbolic c
      · rw [List.takeWhile_cons_of_pos hc]
        rfl
      · have hdigit : c.isDigit = false := Bool.eq_false_iff.2 fun h => hc (isSymbolic_of_isDigit h)
        rw [List.takeWhile_cons_of_neg hc]
        simp [hdigit]

theorem beginsOtherwise_takeWhile {c : Char} (hc : isSymbolic c) (t : Text) :
    beginsOtherwise ((c :: t).takeWhile isSymbolic) = beginsOtherwise (c :: t) := by
  rw [List.takeWhile_cons_of_pos hc, beginsOtherwise, beginsOtherwise, any_isDigit_head?_takeWhile]

end Text

/-- What begins a word: a character of names that does not begin anything else. -/
theorem Lead.of_eq_word_iff {c : Char} {t : Text} :
    Lead.of c t.head? = .word ↔ isSymbolic c ∧ beginsOtherwise (c :: t) = false := by
  constructor
  · intro h
    refine ⟨Lead.isSymbolic_of_word h, ?_⟩
    unfold Lead.of at h
    repeat' split at h
    all_goals first | contradiction | skip
    simp_all [beginsOtherwise]
  · rintro ⟨hc, hother⟩
    -- delimiters, quotes and backslashes are no characters of names
    unfold Lead.of
    split
    all_goals first | exact absurd hc (by decide) | skip
    · simp [beginsOtherwise] at hother
    · simp [beginsOtherwise] at hother
    · simp_all [beginsOtherwise]

theorem Lead.of_isDigit {c : Char} (hc : c.isDigit) (next : Option Char) :
    Lead.of c next = .number := by
  unfold Lead.of
  split
  all_goals first | exact absurd hc (by decide) | skip
  rw [if_pos hc]

/-- The text of an integer begins like a number and is made of characters of names. -/
theorem Lead.of_integerText (n : Int) (rest : Text) :
    ∃ c w, Radix.integerText n = c :: w ∧ Lead.of c (w ++ rest).head? = .number
      ∧ ∀ d ∈ c :: w, isSymbolic d := by
  obtain ⟨d, t, ht⟩ : ∃ d t, Radix.decimalText n.natAbs = d :: t :=
    List.exists_cons_of_length_pos Nat.length_toDigits_pos
  have hdigits : ∀ e ∈ d :: t, e.isDigit := by
    rw [← ht]
    exact fun e => Radix.isDigit_of_mem_decimalText
  have hd : d.isDigit := hdigits d (List.mem_cons_self ..)
  rw [Radix.integerText, ht]
  split
  · refine ⟨'-', d :: t, rfl, ?_, ?_⟩
    · simp [Lead.of, hd]
    · intro e he
      rcases List.mem_cons.1 he with rfl | he
      · decide
      · exact isSymbolic_of_isDigit (hdigits e he)
  · exact ⟨d, t, rfl, Lead.of_isDigit hd _, fun e he => isSymbolic_of_isDigit (hdigits e he)⟩

/-! ### Scalars -/

/-- The words that are read as something else than a symbol. -/
def Scalar.reservedWords : List Text :=
  [['n', 'i', 'l'], ['t', 'r', 'u', 'e'], ['f', 'a', 'l', 's', 'e']]

/-- The scalar is not a floating-point number and, if it has a name, the name can be read: it is
made of characters of names, and that of a symbol does not look like anything else. -/
def Scalar.Readable : Scalar → Prop
  | .float _ => False
  | .keyword name => name ≠ [] ∧ name.all isSymbolic
  | .symbol name => name ≠ [] ∧ name.all isSymbolic ∧ beginsOtherwise name = false
      ∧ name ∉ Scalar.reservedWords
  | _ => True

instance : DecidablePred Scalar.Readable
  | .nil | .bool _ | .integer _ | .char _ | .string _ => inferInstanceAs (Decidable True)
  | .float _ => inferInstanceAs (Decidable False)
  | .keyword _ => inferInstanceAs (Decidable (_ ∧ _))
  | .symbol _ => inferInstanceAs (Decidable (_ ∧ _ ∧ _ ∧ _))

namespace Token.ReadsAs

variable {rest : Text}

/-- A name that begins like nothing else is read as the scalar that it stands for. -/
theorem name {name : Text} (hne : name ≠ []) (hname : name.all isSymbolic)
    (hother : beginsOtherwise name = false) (hrest : Separates rest) :
    ReadsAs name rest (.scalar (Literal.scalarNamed name)) := by
  replace hname := List.all_eq_true.1 hname
  have htake : (name ++ rest).takeWhile isSymbolic = name :=
    takeWhile_of_separates (fun _ => id) hname hrest
  cases name with
  | nil => exact absurd rfl hne
  | cons c w =>
      have hc := hname c (List.mem_cons_self ..)
      rw [← htake, List.cons_append, beginsOtherwise_takeWhile hc] at hother
      exact (ScalarWord.word (Lead.of_eq_word_iff.2 ⟨hc, hother⟩) htake).readsAs

/-- The reserved words are names, too. -/
theorem reserved {name : Text} (h : name ∈ Scalar.reservedWords) (hrest : Separates rest) :
    ReadsAs name rest (.scalar (Literal.scalarNamed name)) := by
  have hall : ∀ w ∈ Scalar.reservedWords, w ≠ [] ∧ w.all isSymbolic
      ∧ beginsOtherwise w = false := by decide +kernel
  obtain ⟨hne, hname, hother⟩ := hall name h
  exact ReadsAs.name hne hname hother hrest

theorem symbol {name : Text} (h : (Scalar.symbol name).Readable) (hrest : Separates rest) :
    ReadsAs name rest (.scalar (.symbol name)) := by
  obtain ⟨hne, hname, hother, hreserved⟩ := h
  have hsymbol : Literal.scalarNamed name = .symbol name := by
    simp only [Scalar.reservedWords, List.mem_cons, List.not_mem_nil, or_false, not_or] at hreserved
    rw [Literal.scalarNamed, if_neg hreserved.1, if_neg hreserved.2.1, if_neg hreserved.2.2]
  rw [← hsymbol]
  exact ReadsAs.name hne hname hother hrest

theorem keyword {name : Text} (h : (Scalar.keyword name).Readable) (hrest : Separates rest) :
    ReadsAs (':' :: name) rest (.scalar (.keyword name)) := by
  obtain ⟨hne, hname⟩ := h
  have htake : (name ++ rest).takeWhile isSymbolic = name :=
    takeWhile_of_separates (fun _ => id) (List.all_eq_true.1 hname) hrest
  exact (ScalarWord.keyword hne htake).readsAs

theorem integer (n : Int64) (hrest : Separates rest) :
    ReadsAs (Radix.integerText n.toInt) rest (.scalar (.integer n)) := by
  obtain ⟨c, w, htext, hlead, hname⟩ := Lead.of_integerText n.toInt rest
  have htake : (c :: w ++ rest).takeWhile isSymbolic = c :: w :=
    takeWhile_of_separates (fun _ => id) hname hrest
  have hvalue : Literal.number? (c :: w) = some (.integer n) := by
    rw [← htext, Literal.number?_integerText]
  rw [htext]
  exact (ScalarWord.number hlead htake hvalue).readsAs

theorem string (t rest : Text) : ReadsAs (Scalar.stringText t) rest (.scalar (.string t)) := by
  refine ScalarWord.readsAs (.string ?_)
  rw [List.append_assoc, List.singleton_append, Literal.stringBody_escape, List.length_append]
  rfl

theorem named {d meant : Char} {name : Text} (hd : isAlphabetic d)
    (hname : ∀ e ∈ name, isAlphanumeric e)
    (hmeant : Literal.characterNamed? (d :: name) = some meant) (hrest : Separates rest) :
    ReadsAs ('\\' :: d :: name) rest (.scalar (.char meant)) := by
  have htake : (name ++ rest).takeWhile isAlphanumeric = name :=
    takeWhile_of_separates (fun _ => isSymbolic_of_isAlphanumeric) hname hrest
  exact (ScalarWord.named hd htake hmeant).readsAs

/-- A character is read back **by its name if it has one**, and by itself otherwise. -/
theorem char (c : Char) (hrest : Separates rest) :
    ReadsAs (Scalar.charText c) rest (.scalar (.char c)) := by
  rw [Scalar.charText]
  cases hlookup : Scalar.charNames.lookup c with
  | some name =>
      obtain ⟨before, after, hsplit, -⟩ := List.lookup_eq_some_iff.1 hlookup
      have hmem : (c, name) ∈ Scalar.charNames := by simp [hsplit]
      have hall : ∀ p ∈ Scalar.charNames, p.2 ≠ [] ∧ p.2.all isAlphabetic
          ∧ Literal.characterNamed? p.2 = some p.1 := by decide +kernel
      obtain ⟨hne, hletters, hmeant⟩ := hall _ hmem
      replace hletters := List.all_eq_true.1 hletters
      cases name with
      | nil => exact absurd rfl hne
      | cons d name =>
          refine named (hletters d (List.mem_cons_self ..)) (fun e he => ?_) hmeant hrest
          simp [isAlphanumeric, hletters e (List.mem_cons_of_mem _ he)]
  | none =>
      by_cases hc : isAlphabetic c
      · exact named hc (by simp) rfl hrest
      · exact (ScalarWord.plain (by simpa using hc)).readsAs

end Token.ReadsAs

/-- The text of a readable scalar, in front of what is not a part of a name, **is read as that
scalar**. -/
theorem Scalar.readsAs_text {s : Scalar} (hs : s.Readable) {rest : Text} (hrest : Separates rest) :
    Token.ReadsAs s.text rest (.scalar s) := by
  cases s with
  | nil => exact .reserved (by decide) hrest
  | bool b =>
      cases b with
      | true => exact .reserved (by decide) hrest
      | false => exact .reserved (by decide) hrest
  | integer n => exact .integer n hrest
  | float x => exact absurd hs id
  | char c => exact .char c hrest
  | string t => exact .string t rest
  | keyword name => exact .keyword hs hrest
  | symbol name => exact .symbol hs hrest

/-- Readable scalars are **determined by their text**. -/
theorem Scalar.eq_of_readable {s t : Scalar} (hs : s.Readable) (ht : t.Readable)
    (h : s.text = t.text) : s = t := by
  have hread := readsAs_text hs separates_nil
  rw [h] at hread
  exact Token.scalar.inj (hread.unique (readsAs_text ht separates_nil))

/-- Only floating-point numbers and scalars with a name can be unreadable. -/
theorem Scalar.readable_of_kindName {s : Scalar}
    (h : s.kindName ∉ ["float", "keyword", "symbol"]) : s.Readable := by
  cases s with
  | float x => simp [kindName] at h
  | keyword name => simp [kindName] at h
  | symbol name => simp [kindName] at h
  | _ => trivial

/-- Scalars are **determined by their kind and their text**, floating-point numbers apart, whether
they are readable or not. -/
theorem Scalar.eq_of_kindName_of_text {s t : Scalar} (hs : ∀ x, s ≠ .float x)
    (hkind : s.kindName = t.kindName) (htext : s.text = t.text) : s = t := by
  by_cases hnamed : s.kindName ∈ ["float", "keyword", "symbol"]
  · cases s with
    | float x => exact absurd rfl (hs x)
    | keyword name =>
        cases t with
        | keyword name' => rw [(List.cons.inj htext).2]
        | _ => simp [kindName] at hkind
    | symbol name =>
        cases t with
        | symbol name' => exact congrArg Scalar.symbol htext
        | _ => simp [kindName] at hkind
    | _ => simp [kindName] at hnamed
  · exact eq_of_readable (readable_of_kindName hnamed) (readable_of_kindName (hkind ▸ hnamed)) htext

/-! ### What the lexer produces -/

theorem Literal.number?_eq_some {literal : Text} {s : Scalar} (h : number? literal = some s) :
    (∃ n, s = .integer n) ∨ ∃ x, s = .float x := by
  simp only [number?] at h
  split at h
  · obtain ⟨n, -, rfl⟩ := Option.map_eq_some_iff.1 h
    exact .inl ⟨n, rfl⟩
  · split at h
    · obtain ⟨x, -, rfl⟩ := Option.map_eq_some_iff.1 h
      exact .inr ⟨x, rfl⟩
    · obtain ⟨n, -, rfl⟩ := Option.map_eq_some_iff.1 h
      exact .inl ⟨n, rfl⟩

theorem Literal.readable_scalarNamed {c : Char} {t : Text} (lead : Lead.of c t.head? = .word) :
    (scalarNamed ((c :: t).takeWhile isSymbolic)).Readable := by
  obtain ⟨hc, hother⟩ := Lead.of_eq_word_iff.1 lead
  rw [← beginsOtherwise_takeWhile hc] at hother
  rw [scalarNamed]
  split
  · trivial
  · split
    · trivial
    · split
      · trivial
      · refine ⟨by simp [hc], List.all_takeWhile, hother, ?_⟩
        simp_all [Scalar.reservedWords]

/-- What the lexer produces, floating-point numbers apart, **is readable**. -/
theorem Token.ReadsAs.readable {word rest : Text} {s : Scalar}
    (h : Token.ReadsAs word rest (.scalar s)) (hs : ∀ x, s ≠ .float x) : s.Readable := by
  obtain ⟨c, w, -, h⟩ := h
  generalize word.length = n at h
  cases h with
  | string lead body => trivial
  | plain lead split alphabetic => trivial
  | named lead split alphabetic named => trivial
  | keyword lead name => exact ⟨name, List.all_takeWhile⟩
  | number lead value =>
      rcases Literal.number?_eq_some value with ⟨n, rfl⟩ | ⟨x, rfl⟩
      · trivial
      · exact absurd rfl (hs x)
  | word lead => exact Literal.readable_scalarNamed lead

end EdnSpans
