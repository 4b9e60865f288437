/-
**The words that tokens are read from.**

A token is read from the characters at the front of a text, and what follows them has a say in where
they end.  A *word* is exactly the characters that were taken; it is a fact about the word and the
text behind it that it is read as some token.

The words of delimiters are fixed.  The word of a scalar is of one of three shapes: a run of
characters of names, a backslash with a character and perhaps more of its name, or a string.  This
is all that a reader who does not care for the value of the scalar has to know.

Main definitions:

* `EdnSpans.Token.ReadsAs` — a word, in front of a text, is read as a token;
* `EdnSpans.Token.ScalarWord` — the ways in which a word is read as a scalar.

Main results:

* `EdnSpans.Token.scan_length_le` — reading takes no more characters than there are;
* `EdnSpans.Token.ReadsAs.unique` — a word is read in one way;
* `EdnSpans.Token.ReadsAs.opening_word`, `EdnSpans.Token.ReadsAs.closing_word` — the words of
  delimiters;
* `EdnSpans.Token.ReadsAs.scalarWord` — a word is read as a scalar in these ways only;
* `EdnSpans.Token.ReadsAs.scalar_word` — **the three shapes of the word of a scalar**.
-/
import EdnSpans.Token.Scan

set_option relaxedAutoImplicit false
set_option autoImplicit false

namespace EdnSpans

open Text

theorem Text.isSymbolic_of_isAlphanumeric {c : Char} (h : isAlphanumeric c) : isSymbolic c := by
  simp [isSymbolic, h]

/-! ### Lengths -/

/-- The outcome of reading a character before a text is a text only if that of the text is. -/
theorem Scan.push_eq_ok {n m : Nat} {c : Char} {s : Text} {scan : Scan Text}
    (h : scan.push m c = ⟨n, .ok s⟩) : ∃ n' s', scan = ⟨n', .ok s'⟩ ∧ n = m + n' ∧ s = c :: s' := by
  obtain ⟨n', outcome⟩ := scan
  cases outcome with
  | error cause => simp [push, Except.map] at h
  | ok s' =>
      obtain ⟨rfl, rfl⟩ : m + n' = n ∧ c :: s' = s := by simpa [push, Except.map] using h
      exact ⟨n', s', rfl, rfl, rfl⟩

namespace Literal

/-- The digits of an escape that fails are characters of the text. -/
theorem escapeFailure_length_le (t : Text) : (escapeFailure t).length ≤ t.length + 2 := by
  have h₁ : ((t.take 4).takeWhile isHexDigit).length ≤ (t.take 4).length :=
    (List.takeWhile_sublist _).length_le
  have h₂ : (t.take 4).length ≤ t.length := (List.take_sublist 4 t).length_le
  simp only [escapeFailure]
  omega

theorem stringBody_length_le (t : Text) : (stringBody t).length ≤ t.length := by
  fun_induction stringBody t with
  | case1 => exact Nat.le_refl 0
  | case2 t => simp
  | case3 h => simp
  | case4 h₁ h₂ h₃ h₄ t meant _ _ ih => simp only [Scan.push, List.length_cons]; omega
  | case5 h₁ h₂ h₃ h₄ t _ _ => exact escapeFailure_length_le (h₁ :: h₂ :: h₃ :: h₄ :: t)
  | case6 t _ _ => exact escapeFailure_length_le t
  | case7 e t _ _ ih => simp only [Scan.push, List.length_cons]; omega
  | case8 c t _ _ ih => simp only [Scan.push, List.length_cons]; omega

theorem character_length_le (t : Text) : (character t).length ≤ t.length + 1 := by
  cases t with
  | nil => exact Nat.le_refl 1
  | cons c t =>
      have h : (t.takeWhile isAlphanumeric).length ≤ t.length :=
        (List.takeWhile_sublist _).length_le
      simp only [character]
      split
      · simp only [List.length_cons]; omega
      · simp

end Literal

/-! ### Leads -/

/-- What has to be true of a character, and of the character after it, for the first to announce
the given kind of token. -/
def Lead.Fits (c : Char) (next : Option Char) : Lead → Prop
  | .opening kind => kind.opener <+: c :: next.toList
  | .closing closer => c = closer.char
  | .string => c = '"'
  | .character => c = '\\'
  | .keyword => c = ':'
  | .number => c.isDigit ∨ ((c = '-' ∨ c = '+') ∧ next.any Char.isDigit)
  | .word =>
      isSymbolic c ∧ c ≠ '#' ∧ c ≠ ':' ∧ ¬c.isDigit
        ∧ ¬((c = '-' ∨ c = '+') ∧ next.any Char.isDigit)
  | .stray => True

/-- A character announces **only what it fits**. -/
theorem Lead.fits_of (c : Char) (next : Option Char) : (Lead.of c next).Fits c next := by
  unfold Lead.of
  split
  · simp [Fits, Kind.opener]
  · rfl
  · simp [Fits, Kind.opener]
  · rfl
  · simp [Fits, Kind.opener]
  · rfl
  · split
    · next h => simp [Fits, Kind.opener, h]
    · trivial
  · rfl
  · rfl
  · rfl
  · next h₁ h₂ h₃ h₄ h₅ h₆ hash h₇ h₈ colon =>
      split
      · next hd => exact .inl hd
      · next hd =>
          split
          · next hs => exact .inr hs
          · next hs =>
              split
              · next hsym =>
                  exact ⟨hsym, hash, colon, hd, hs⟩
              · trivial

theorem Lead.fits {c : Char} {next : Option Char} {lead : Lead} (h : Lead.of c next = lead) :
    lead.Fits c next := by
  rw [← h]
  exact Lead.fits_of c next

/-- The opener of a collection stands at the front of the text that announces it. -/
theorem Lead.opener_at_front {c : Char} {t : Text} {kind : Kind}
    (h : Lead.of c t.head? = .opening kind) : kind.opener <+: c :: t := by
  have hfits := Lead.fits_of c t.head?
  rw [h] at hfits
  refine List.IsPrefix.trans hfits ?_
  cases t <;> simp

namespace Token

/-- Reading takes no more characters than there are. -/
theorem scan_length_le (c : Char) (t : Text) : (scan c t).length ≤ t.length + 1 := by
  have hname (p : Char → Bool) (u : Text) : (u.takeWhile p).length ≤ u.length :=
    (List.takeWhile_sublist p).length_le
  unfold scan
  split
  · next h => exact (Lead.opener_at_front h).length_le
  · exact Nat.succ_le_succ (Nat.zero_le _)
  · have := Literal.stringBody_length_le t
    simp only [Literal.string]
    omega
  · exact Literal.character_length_le t
  · have := hname isSymbolic t
    simp only [Literal.keyword]
    omega
  · exact hname isSymbolic (c :: t)
  · exact hname isSymbolic (c :: t)
  · exact Nat.succ_le_succ (Nat.zero_le _)

/-! ### What can be read -/

/-- `Scanned c t n token` lists the ways in which the first `n` characters of `c :: t` are read as
a token. -/
inductive Scanned (c : Char) (t : Text) : Nat → Token → Prop
  | opening {kind : Kind} (lead : Lead.of c t.head? = .opening kind) :
      Scanned c t kind.opener.length (.opening kind)
  | closing {closer : Closer} (lead : Lead.of c t.head? = .closing closer) :
      Scanned c t 1 (.closing closer)
  | string {n : Nat} {s : Text} (lead : Lead.of c t.head? = .string)
      (body : Literal.stringBody t = ⟨n, .ok s⟩) : Scanned c t (1 + n) (.scalar (.string s))
  | plain {d : Char} {u : Text} (lead : Lead.of c t.head? = .character) (split : t = d :: u)
      (alphabetic : isAlphabetic d = false) : Scanned c t 2 (.scalar (.char d))
  | named {d meant : Char} {u : Text} (lead : Lead.of c t.head? = .character) (split : t = d :: u)
      (alphabetic : isAlphabetic d = true)
      (named : Literal.characterNamed? (d :: u.takeWhile isAlphanumeric) = some meant) :
      Scanned c t (1 + (d :: u.takeWhile isAlphanumeric).length) (.scalar (.char meant))
  | keyword (lead : Lead.of c t.head? = .keyword) (name : t.takeWhile isSymbolic ≠ []) :
      Scanned c t (1 + (t.takeWhile isSymbolic).length)
        (.scalar (.keyword (t.takeWhile isSymbolic)))
  | number {s : Scalar} (lead : Lead.of c t.head? = .number)
      (value : Literal.number? ((c :: t).takeWhile isSymbolic) = some s) :
      Scanned c t ((c :: t).takeWhile isSymbolic).length (.scalar s)
  | word (lead : Lead.of c t.head? = .word) :
      Scanned c t ((c :: t).takeWhile isSymbolic).length
        (.scalar (Literal.scalarNamed ((c :: t).takeWhile isSymbolic)))

/-- The list is complete. -/
theorem scanned_of_scan_eq {c : Char} {t : Text} {n : Nat} {token : Token}
    (h : scan c t = ⟨n, .ok token⟩) : Scanned c t n token := by
  -- one case for each lead, in the order in which they are listed
  unfold scan at h
  split at h
  · next lead =>
      cases h
      exact .opening lead
  · next lead =>
      cases h
      exact .closing lead
  · next lead =>
      rcases hb : Literal.stringBody t with ⟨m, outcome⟩
      cases outcome with
      | error cause => simp [Literal.string, hb, Except.map] at h
      | ok s =>
          simp only [Literal.string, hb, Except.map, Scan.mk.injEq, Except.ok.injEq] at h
          obtain ⟨rfl, rfl⟩ := h
          exact .string lead hb
  · next lead =>
      cases t with
      | nil => simp [Literal.character] at h
      | cons d u =>
          simp only [Literal.character] at h
          split at h
          · next hd =>
              split at h
              · next meant hm =>
                  cases h
                  exact .named lead rfl hd hm
              · simp at h
          · next hd =>
              cases h
              exact .plain lead rfl (by simpa using hd)
  · next lead =>
      simp only [Literal.keyword] at h
      split at h
      · simp at h
      · next hname =>
          cases h
          exact .keyword lead (by simpa using hname)
  · next lead =>
      simp only [Literal.number] at h
      split at h
      · next s hs =>
          cases h
          exact .number lead hs
      · simp at h
  · next lead =>
      cases h
      exact .word lead
  · simp at h

theorem Scanned.scan_eq {c : Char} {t : Text} {n : Nat} {token : Token}
    (h : Scanned c t n token) : scan c t = ⟨n, .ok token⟩ := by
  cases h with
  | opening lead => simp [scan, lead]
  | closing lead => simp [scan, lead]
  | string lead body => simp [scan, lead, Literal.string, body, Except.map]
  | plain lead split alphabetic =>
      subst split
      simp only [scan, lead, Literal.character, alphabetic, Bool.false_eq_true, if_false]
  | named lead split alphabetic named =>
      subst split
      simp only [scan, lead, Literal.character, alphabetic, if_true, named]
  | keyword lead name => simp [scan, lead, Literal.keyword, name]
  | number lead value => simp [scan, lead, Literal.number, value]
  | word lead => simp [scan, lead, Literal.word]

/-- **A token is read in one of these ways and in no other.** -/
theorem scan_eq_ok_iff {c : Char} {t : Text} {n : Nat} {token : Token} :
    scan c t = ⟨n, .ok token⟩ ↔ Scanned c t n token :=
  ⟨scanned_of_scan_eq, Scanned.scan_eq⟩

/-! ### Words -/

/-- The word, **in front of the given text**, is read as the token. -/
def ReadsAs (word rest : Text) (token : Token) : Prop :=
  ∃ c w, word = c :: w ∧ Scanned c (w ++ rest) word.length token

/-- What stands at the front of a text and is as long as a word there is that word. -/
theorem word_eq_taken {taken word rest : Text} (h : taken <+: word ++ rest)
    (hlen : word.length = taken.length) : word = taken := by
  obtain ⟨s, hs⟩ := h
  exact (List.append_inj_left hs hlen.symm).symm

/-- What is taken of a text while a test holds is a word at its front, if it is as long. -/
theorem takeWhile_eq_word {p : Char → Bool} {word rest : Text}
    (h : word.length = ((word ++ rest).takeWhile p).length) :
    (word ++ rest).takeWhile p = word :=
  (word_eq_taken (List.takeWhile_prefix p) h).symm

/-- **The ways in which a word is read as a scalar**, in front of the given text.  A name is the
whole run of its characters, so the text behind it does not go on with one. -/
inductive ScalarWord (rest : Text) : Text → Scalar → Prop
  /-- A string, through its closing quote. -/
  | string {body s : Text} (hbody : Literal.stringBody (body ++ rest) = ⟨body.length, .ok s⟩) :
      ScalarWord rest ('"' :: body) (.string s)
  /-- A character that is no letter. -/
  | plain {c : Char} (hc : isAlphabetic c = false) : ScalarWord rest ['\\', c] (.char c)
  /-- A character by its name. -/
  | named {c meant : Char} {name : Text} (hc : isAlphabetic c = true)
      (hname : (name ++ rest).takeWhile isAlphanumeric = name)
      (hmeant : Literal.characterNamed? (c :: name) = some meant) :
      ScalarWord rest ('\\' :: c :: name) (.char meant)
  /-- A keyword. -/
  | keyword {name : Text} (hne : name ≠ []) (hname : (name ++ rest).takeWhile isSymbolic = name) :
      ScalarWord rest (':' :: name) (.keyword name)
  /-- A number. -/
  | number {c : Char} {w : Text} {s : Scalar} (lead : Lead.of c (w ++ rest).head? = .number)
      (hname : (c :: w ++ rest).takeWhile isSymbolic = c :: w)
      (hvalue : Literal.number? (c :: w) = some s) : ScalarWord rest (c :: w) s
  /-- A symbol or a reserved word. -/
  | word {c : Char} {w : Text} (lead : Lead.of c (w ++ rest).head? = .word)
      (hname : (c :: w ++ rest).takeWhile isSymbolic = c :: w) :
      ScalarWord rest (c :: w) (Literal.scalarNamed (c :: w))

/-- These words are read. -/
theorem ScalarWord.readsAs {word rest : Text} {s : Scalar} (h : ScalarWord rest word s) :
    ReadsAs word rest (.scalar s) := by
  cases h with
  | @string body s hbody =>
      refine ⟨'"', body, rfl, ?_⟩
      rw [List.length_cons, Nat.add_comm]
      exact .string rfl hbody
  | @plain c hc => exact ⟨'\\', [c], rfl, .plain rfl rfl hc⟩
  | @named c meant name hc hname hmeant =>
      have hscanned : Scanned '\\' (c :: (name ++ rest)) _ (.scalar (.char meant)) :=
        .named rfl rfl hc (by rwa [hname])
      rw [hname, Nat.add_comm] at hscanned
      exact ⟨'\\', c :: name, rfl, hscanned⟩
  | @keyword name hne hname =>
      have hscanned : Scanned ':' (name ++ rest) _ _ := .keyword rfl (by rwa [hname])
      rw [hname, Nat.add_comm] at hscanned
      exact ⟨':', name, rfl, hscanned⟩
  | @number c w s lead hname hvalue =>
      rw [← hname] at hvalue
      have hscanned := Scanned.number lead hvalue
      rw [← List.cons_append, hname] at hscanned
      exact ⟨c, w, rfl, hscanned⟩
  | @word c w lead hname =>
      have hscanned := Scanned.word lead
      rw [← List.cons_append, hname] at hscanned
      exact ⟨c, w, rfl, hscanned⟩

namespace ReadsAs

variable {word rest : Text}

/-- No other word is read as a scalar: what was taken stands at the front of the text and is **as
long as the word**. -/
theorem scalarWord {s : Scalar} (h : ReadsAs word rest (.scalar s)) : ScalarWord rest word s := by
  obtain ⟨c, w, rfl, h⟩ := h
  generalize hn : (c :: w).length = n at h
  cases h with
  | @string n s lead body =>
      obtain rfl : c = '"' := Lead.fits lead
      obtain rfl : w.length = n := by simpa [Nat.add_comm] using hn
      exact .string body
  | @plain d u lead split alphabetic =>
      obtain rfl : c = '\\' := Lead.fits lead
      obtain ⟨e, rfl⟩ : ∃ e, w = [e] := List.length_eq_one_iff.1 (by simpa using hn)
      obtain rfl : e = d := (List.cons.inj split).1
      exact .plain alphabetic
  | @named d meant u lead split alphabetic named =>
      obtain rfl : c = '\\' := Lead.fits lead
      cases w with
      | nil => simp at hn
      | cons e name =>
          obtain ⟨rfl, rfl⟩ : e = d ∧ name ++ rest = u := List.cons.inj split
          have hname : (name ++ rest).takeWhile isAlphanumeric = name := by
            simp only [List.length_cons] at hn
            exact takeWhile_eq_word (by omega)
          rw [hname] at named
          exact .named alphabetic hname named
  | keyword lead name =>
      obtain rfl : c = ':' := Lead.fits lead
      have hname : (w ++ rest).takeWhile isSymbolic = w := by
        rw [List.length_cons] at hn
        exact takeWhile_eq_word (by omega)
      rw [hname] at name ⊢
      exact .keyword name hname
  | number lead value =>
      have hname := takeWhile_eq_word hn
      rw [← List.cons_append, hname] at value
      exact .number lead hname value
  | word lead =>
      have hname := takeWhile_eq_word hn
      rw [← List.cons_append, hname]
      exact .word lead hname

/-- A word is read **in one way**. -/
theorem unique {token token' : Token} (h : ReadsAs word rest token)
    (h' : ReadsAs word rest token') : token = token' := by
  obtain ⟨c, w, rfl, h⟩ := h
  obtain ⟨c', w', hword, h'⟩ := h'
  cases hword
  have hscan := h.scan_eq
  rw [h'.scan_eq] at hscan
  cases hscan
  rfl

/-- What opens a collection is written as the opener of its kind. -/
theorem opening_word {kind : Kind} (h : ReadsAs word rest (.opening kind)) :
    word = kind.opener := by
  obtain ⟨c, w, rfl, h⟩ := h
  generalize hn : (c :: w).length = n at h
  cases h with
  | opening lead => exact word_eq_taken (Lead.opener_at_front lead) hn

/-- What closes a collection is written as one character. -/
theorem closing_word {closer : Closer} (h : ReadsAs word rest (.closing closer)) :
    word = [closer.char] := by
  obtain ⟨c, w, rfl, h⟩ := h
  generalize hn : (c :: w).length = n at h
  cases h with
  | closing lead =>
      have hfits := Lead.fits_of c (w ++ rest).head?
      rw [lead] at hfits
      have hc : c = closer.char := hfits
      have htaken : [closer.char] <+: c :: w ++ rest := by rw [hc]; exact ⟨w ++ rest, rfl⟩
      exact word_eq_taken htaken hn

/-- The word of a scalar is a run of characters of names, **or** a backslash with a character and
perhaps more of its name, **or** a string. -/
theorem scalar_word {s : Scalar} (h : ReadsAs word rest (.scalar s)) :
    (∀ c ∈ word, isSymbolic c)
      ∨ (∃ c name, word = '\\' :: c :: name ∧ ∀ d ∈ name, isAlphanumeric d)
      ∨ (∃ body t, word = '"' :: body
          ∧ Literal.stringBody (body ++ rest) = ⟨body.length, .ok t⟩) := by
  have hall {p : Char → Bool} {name : Text} (h : (name ++ rest).takeWhile p = name) :
      ∀ c ∈ name, p c := by
    intro c hc
    rw [← h] at hc
    exact List.all_eq_true.1 List.all_takeWhile c hc
  cases h.scalarWord with
  | @string body t hbody => exact .inr (.inr ⟨body, t, rfl, hbody⟩)
  | @plain c hc => exact .inr (.inl ⟨c, [], rfl, by simp⟩)
  | @named c meant name hc hname hmeant => exact .inr (.inl ⟨c, name, rfl, hall hname⟩)
  | @keyword name hne hname =>
      refine .inl fun c hc => ?_
      rcases List.mem_cons.1 hc with rfl | hc
      · decide
      · exact hall hname c hc
  | number lead hname hvalue => exact .inl (hall hname)
  | word lead hname => exact .inl (hall hname)

end ReadsAs

end Token

/-! ### Delimiters -/

theorem Kind.readsAs_opener (kind : Kind) (rest : Text) :
    Token.ReadsAs kind.opener rest (.opening kind) := by
  cases kind with
  | vector => exact ⟨'[', [], rfl, .opening rfl⟩
  | list => exact ⟨'(', [], rfl, .opening rfl⟩
  | set => exact ⟨'#', ['\x7b'], rfl, .opening rfl⟩
  | map => exact ⟨'\x7b', [], rfl, .opening rfl⟩

theorem Closer.readsAs_char (closer : Closer) (rest : Text) :
    Token.ReadsAs [closer.char] rest (.closing closer) := by
  cases closer with
  | paren => exact ⟨')', [], rfl, .closing rfl⟩
  | bracket => exact ⟨']', [], rfl, .closing rfl⟩
  | brace => exact ⟨'\x7d', [], rfl, .closing rfl⟩

end EdnSpans
