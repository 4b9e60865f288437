/-
**The balancing delimiter is the one that the reader found.**

The scan for the end of a collection knows nothing of lexemes.  It has five modes, one counter for
delimiters of all kinds, and after a backslash it skips a single character whatever the literal is.
The reader, on the other hand, reads strings with their escapes, names of characters, numbers and
comments, and checks that delimiters match.

The two are compared stretch by stretch.  A stretch of text is *crossed* if the scan comes out of it
with the same depth, in a mode that depends on the stretch alone.  Gaps and scalars are crossed in
the mode in which delimiters count, and so is everything that the reader reads as a form: what it
opens it also closes.  Hence the scan, begun inside a collection, crosses its items and stops at its
closing delimiter.

Main definitions:

* `EdnSpans.Crosses` — the scan passes over a stretch and keeps its depth;
* `EdnSpans.Text.fromByte?`, `EdnSpans.balancedEnd?` — the scan from one byte of a text to another.

Main results:

* `EdnSpans.Gap.crosses`, `EdnSpans.Token.ReadsAs.crosses` — gaps and scalars are crossed;
* `EdnSpans.Parse.crosses` — **what is read as a form is crossed**;
* `EdnSpans.Parse.balancedLength?_interior` — inside a collection the scan stops at its end;
* `EdnSpans.scansToEnd_of_readForms` — **the scan agrees with the reader**, in every text that can
  be read and for every collection in it, and also after the text is cut around the collection.
-/
import EdnSpans.Locate.Balance
import EdnSpans.Proofs.Reader.Layout

set_option relaxedAutoImplicit false
set_option autoImplicit false

namespace EdnSpans

open Text

/-! ### One character of the scan -/

theorem balancedLength?_opening {close c : Char} (depth : Nat) (t : Text) (h : isOpening c) :
    balancedLength? close .code depth (c :: t)
      = (balancedLength? close .code (depth + 1) t).map (· + 1) := by
  rw [balancedLength?.eq_def]
  simp [h]

theorem balancedLength?_closing_succ {close c : Char} (depth : Nat) (t : Text) (h : isClosing c)
    (ho : isOpening c = false) :
    balancedLength? close .code (depth + 1) (c :: t)
      = (balancedLength? close .code depth t).map (· + 1) := by
  rw [balancedLength?.eq_def]
  simp [h, ho]

theorem balancedLength?_closing_zero {c : Char} (t : Text) (h : isClosing c)
    (ho : isOpening c = false) : balancedLength? c .code 0 (c :: t) = some 1 := by
  rw [balancedLength?.eq_def]
  simp [h, ho]

theorem balancedLength?_other {close c : Char} {mode : Mode} (depth : Nat) (t : Text)
    (h : mode = .code → isOpening c = false ∧ isClosing c = false) :
    balancedLength? close mode depth (c :: t)
      = (balancedLength? close (mode.next c) depth t).map (· + 1) := by
  have hopen : ¬(mode = .code ∧ isOpening c) := by
    rintro ⟨hm, ho⟩
    simp [(h hm).1] at ho
  have hclose : ¬(mode = .code ∧ isClosing c) := by
    rintro ⟨hm, ho⟩
    simp [(h hm).2] at ho
  rw [balancedLength?.eq_def]
  simp only [if_neg hopen, if_neg hclose]

/-! ### Crossing a stretch -/

/-- The scan, in the first mode before the stretch, is in the second mode behind it, at the same
depth. -/
def Crosses (mode : Mode) (s : Text) (mode' : Mode) : Prop :=
  ∀ (close : Char) (depth : Nat) (t : Text),
    balancedLength? close mode depth (s ++ t)
      = (balancedLength? close mode' depth t).map (· + s.length)

namespace Crosses

theorem nil (mode : Mode) : Crosses mode [] mode := by
  intro close depth t
  simp

theorem append {mode mode' mode'' : Mode} {s s' : Text} (h : Crosses mode s mode')
    (h' : Crosses mode' s' mode'') : Crosses mode (s ++ s') mode'' := by
  intro close depth t
  rw [List.append_assoc, h, h', Option.map_map]
  congr 1
  funext n
  simp only [Function.comp_apply, List.length_append]
  omega

/-- A character that is no delimiter, or stands where delimiters do not count, is crossed. -/
theorem cons {mode mode' : Mode} {c : Char} {s : Text}
    (hc : mode = .code → isOpening c = false ∧ isClosing c = false)
    (h : Crosses (mode.next c) s mode') : Crosses mode (c :: s) mode' := by
  intro close depth t
  rw [List.cons_append, balancedLength?_other depth _ hc, h, Option.map_map]
  congr 1

/-- A collection is crossed if its interior is: the scan goes one level down and up again. -/
theorem enclosed {s : Text} (h : Crosses .code s .code) (kind : Kind) :
    Crosses .code (kind.opener ++ (s ++ [kind.closer.char])) .code := by
  have hbrackets (o c : Char) (ho : isOpening o) (hc : isClosing c) (hco : isOpening c = false) :
      Crosses .code (o :: (s ++ [c])) .code := by
    intro close depth t
    rw [List.cons_append, List.append_assoc, balancedLength?_opening _ _ ho, h,
      List.singleton_append, balancedLength?_closing_succ _ _ hc hco, Option.map_map,
      Option.map_map]
    congr 1
    funext n
    simp only [Function.comp_apply, List.length_cons, List.length_append, List.length_nil]
    omega
  cases kind with
  | vector => exact hbrackets _ _ rfl rfl rfl
  | list => exact hbrackets _ _ rfl rfl rfl
  -- the number sign before the brace is a character like any other
  | set => exact cons (fun _ => ⟨rfl, rfl⟩) (hbrackets _ _ rfl rfl rfl)
  | map => exact hbrackets _ _ rfl rfl rfl

/-- Characters that mean nothing to the scan are crossed. -/
theorem of_plain {s : Text}
    (h : ∀ c ∈ s, isOpening c = false ∧ isClosing c = false ∧ Mode.code.next c = .code) :
    Crosses .code s .code := by
  induction s with
  | nil => exact nil _
  | cons c s ih =>
      obtain ⟨ho, hc, hmode⟩ := h c (List.mem_cons_self ..)
      refine cons (fun _ => ⟨ho, hc⟩) ?_
      rw [hmode]
      exact ih fun d hd => h d (List.mem_cons_of_mem _ hd)

end Crosses

/-! ### Gaps and scalars -/

/-- A character of names means nothing to the scan: it is none of the characters that do. -/
theorem plain_of_isSymbolic {c : Char} (h : isSymbolic c) :
    isOpening c = false ∧ isClosing c = false ∧ Mode.code.next c = .code := by
  have hne (d : Char) (hd : isSymbolic d = false) : c ≠ d := by
    rintro rfl
    simp [hd] at h
  simp [isOpening, isClosing, Mode.next, hne '[' (by decide), hne '(' (by decide),
    hne '{' (by decide), hne ']' (by decide), hne ')' (by decide), hne '}' (by decide),
    hne '"' (by decide), hne '\\' (by decide), hne ';' (by decide)]

theorem plain_of_isBlank {c : Char} (h : isBlank c) :
    isOpening c = false ∧ isClosing c = false ∧ Mode.code.next c = .code := by
  simp only [isBlank, Bool.or_eq_true, decide_eq_true_eq] at h
  rcases h with (((rfl | rfl) | rfl) | rfl) | rfl <;> decide

theorem Gap.crosses {inComment : Bool} {gap : Text} (h : Gap inComment gap) :
    Crosses (if inComment then .comment else .code) gap .code := by
  induction h with
  | nil => exact .nil _
  | blank hc _ ih =>
      obtain ⟨ho, hcl, hmode⟩ := plain_of_isBlank hc
      exact .cons (fun _ => ⟨ho, hcl⟩) (by simpa [hmode] using ih)
  | comment _ ih => exact .cons (fun _ => ⟨rfl, rfl⟩) ih
  | inside hc _ ih => exact .cons (by simp) (by simpa [Mode.next, hc] using ih)
  | lineEnd _ ih => exact .cons (by simp) ih

/-- A digit of an escape neither ends the string nor begins another escape. -/
theorem next_string_of_digit {c : Char} {n : Nat} (h : Radix.digit? 16 c = some n) :
    Mode.string.next c = .string := by
  have hne (d : Char) (hd : Radix.digit? 16 d = none) : c ≠ d := by
    rintro rfl
    simp [hd] at h
  simp [Mode.next, hne '"' (by decide), hne '\\' (by decide)]

theorem next_string_of_extend {n m : Nat} {t : Text} (h : Radix.extend? 16 n t = some m) :
    ∀ c ∈ t, Mode.string.next c = .string := by
  induction t generalizing n with
  | nil => simp
  | cons d t ih =>
      obtain ⟨k, hk, hrest⟩ := Option.bind_eq_some_iff.1 h
      intro c hc
      rcases List.mem_cons.1 hc with rfl | hc
      · exact next_string_of_digit hk
      · exact ih hrest c hc

/-- The digits that name a character in a string are crossed. -/
theorem crosses_hexCharacter {digits : Text} {c : Char}
    (h : Literal.hexCharacter? digits = some c) : Crosses .string digits .string := by
  have hdigits : ∀ d ∈ digits, Mode.string.next d = .string := by
    unfold Literal.hexCharacter? Radix.natural? at h
    split at h
    · obtain ⟨n, hn, -⟩ := Option.bind_eq_some_iff.1 h
      split at hn
      · simp at hn
      · exact next_string_of_extend hn
    · simp at h
  clear h
  induction digits with
  | nil => exact .nil _
  | cons d digits ih =>
      refine .cons (by simp) ?_
      rw [hdigits d (List.mem_cons_self ..)]
      exact ih fun e he => hdigits e (List.mem_cons_of_mem _ he)

/-- The scan leaves a string where the lexer does. -/
theorem crosses_stringBody {t s : Text} {n : Nat} (h : Literal.stringBody t = ⟨n, .ok s⟩) :
    Crosses .string (t.take n) .code := by
  -- what can be read is the closing quote, an escape of six or of two characters, or a plain one
  fun_induction Literal.stringBody t generalizing n s with
  | case1 => simp at h
  | case2 t =>
      obtain ⟨rfl, -⟩ : 1 = n ∧ [] = s := by simpa using h
      exact .cons (by simp) (.nil _)
  | case3 _ => simp at h
  | case4 h₁ h₂ h₃ h₄ t meant hmeant _ ih =>
      obtain ⟨n', s', hbody, rfl, -⟩ := Scan.push_eq_ok h
      have htake : ('\\' :: 'u' :: h₁ :: h₂ :: h₃ :: h₄ :: t).take (6 + n')
          = '\\' :: 'u' :: ([h₁, h₂, h₃, h₄] ++ t.take n') := by
        simp [Nat.add_comm 6 n']
      rw [htake]
      exact .cons (by simp) (.cons (by simp [Mode.next])
        ((crosses_hexCharacter hmeant).append (ih hbody)))
  | case5 => simp [Literal.escapeFailure] at h
  | case6 => simp [Literal.escapeFailure] at h
  | case7 e t _ _ ih =>
      obtain ⟨n', s', hbody, rfl, -⟩ := Scan.push_eq_ok h
      rw [Nat.add_comm, List.take_succ_cons, List.take_succ_cons]
      exact .cons (by simp) (.cons (by simp [Mode.next]) (ih hbody))
  | case8 c t hq hb ih =>
      obtain ⟨n', s', hbody, rfl, -⟩ := Scan.push_eq_ok h
      rw [Nat.add_comm, List.take_succ_cons]
      exact .cons (by simp) (by simpa [Mode.next, hq, hb] using ih hbody)

/-- The word of a scalar is crossed, **whichever of its shapes it has**. -/
theorem Token.ReadsAs.crosses {word rest : Text} {s : Scalar}
    (h : Token.ReadsAs word rest (.scalar s)) : Crosses .code word .code := by
  rcases h.scalar_word with hname | ⟨c, name, rfl, hname⟩ | ⟨body, t, rfl, hbody⟩
  · exact .of_plain fun c hc => plain_of_isSymbolic (hname c hc)
  · refine .cons (fun _ => ⟨rfl, rfl⟩) (.cons (by simp [Mode.next]) ?_)
    exact .of_plain fun d hd => plain_of_isSymbolic (isSymbolic_of_isAlphanumeric (hname d hd))
  · have hstring := crosses_stringBody hbody
    rw [List.take_left] at hstring
    exact .cons (fun _ => ⟨rfl, rfl⟩) hstring

/-! ### Forms -/

theorem crosses_items {ps : List Parse} {k m : Cursor}
    (ih : ∀ p ∈ ps, ∀ {k m : Cursor}, Cursor.Run (Gap false) k p.lexemes m →
      ∃ s, k.rest = s ++ m.rest ∧ m.position = k.position.after s ∧ Crosses .code s .code)
    (h : Cursor.Run (Gap false) k (ps.flatMap Parse.lexemes) m) :
    ∃ s, k.rest = s ++ m.rest ∧ m.position = k.position.after s ∧ Crosses .code s .code := by
  induction ps generalizing k with
  | nil =>
      cases h
      exact ⟨[], rfl, rfl, .nil _⟩
  | cons p ps ihps =>
      rw [List.flatMap_cons] at h
      obtain ⟨k₁, hp, hps⟩ := Cursor.Run.append_iff.1 h
      obtain ⟨s, hrest, hposition, hs⟩ := ih p (List.mem_cons_self ..) hp
      obtain ⟨s', hrest', hposition', hs'⟩ :=
        ihps (fun q hq => ih q (List.mem_cons_of_mem _ hq)) hps
      refine ⟨s ++ s', ?_, ?_, hs.append hs'⟩
      · rw [hrest, hrest', List.append_assoc]
      · rw [hposition', hposition, Position.after_append]

/-- What the lexer passes over for a form **is crossed** by the scan. -/
theorem Parse.crosses {p : Parse} {k m : Cursor} (h : Cursor.Run (Gap false) k p.lexemes m) :
    ∃ s, k.rest = s ++ m.rest ∧ m.position = k.position.after s ∧ Crosses .code s .code := by
  induction p using Parse.induct generalizing k m with
  | leaf s e =>
      obtain ⟨gap, word, hgap, passes⟩ := h.leaf
      refine ⟨gap ++ word, ?_, ?_, hgap.crosses.append passes.reads.crosses⟩
      · rw [passes.rest_eq, List.append_assoc]
      · rw [passes.position_eq, passes.stop_eq, passes.start_eq, Position.after_append]
  | branch kind o items c ih =>
      obtain ⟨gap, gap', k₁, k₂, hgap, hgap', hopen, hitems, hclose⟩ := h.branch
      obtain ⟨s, hrest, hposition, hs⟩ := crosses_items ih hitems
      refine ⟨gap ++ (kind.opener ++ ((s ++ gap') ++ [kind.closer.char])), ?_, ?_, ?_⟩
      · rw [hopen.rest_eq, hrest, hclose.rest_eq]
        simp
      · rw [hclose.position_eq, hclose.stop_eq, hclose.start_eq, hposition, hopen.position_eq,
          hopen.stop_eq, hopen.start_eq]
        simp
      · exact hgap.crosses.append ((hs.append hgap'.crosses).enclosed kind)

/-- **Inside a collection the scan stops at its end.**  What follows the collection is of no
importance. -/
theorem Parse.balancedLength?_interior {sort : Text → Prop}
    (hsort : ∀ gap, sort gap → Gap false gap) {kind : Kind} {o c : Extent} {items : List Parse}
    {k m : Cursor} (h : Cursor.Run sort k (Parse.branch kind o items c).lexemes m) :
    ∃ gap k₁ inside, sort gap
      ∧ k.Passes gap kind.opener (o.lexeme (.opening kind)) k₁
      ∧ k₁.rest = inside ++ m.rest ∧ m.position = k₁.position.after inside
      ∧ m.position = c.stop
      ∧ ∀ t, balancedLength? kind.closer.char .code 0 (inside ++ t) = some inside.length := by
  obtain ⟨gap, gap', k₁, k₂, hgap, hgap', hopen, hitems, hclose⟩ := h.branch
  obtain ⟨s, hrest, hposition, hs⟩ :=
    crosses_items (fun _ _ _ _ => Parse.crosses) (hitems.mono hsort)
  refine ⟨gap, k₁, (s ++ gap') ++ [kind.closer.char], hgap, hopen, ?_, ?_, hclose.position_eq, ?_⟩
  · rw [hrest, hclose.rest_eq]
    simp
  · rw [hclose.position_eq, hclose.stop_eq, hclose.start_eq, hposition]
    simp
  · intro t
    -- behind the items the scan is as deep as before them, so the closer ends it
    have hclosing : isClosing kind.closer.char ∧ isOpening kind.closer.char = false := by
      cases kind <;> decide
    rw [List.append_assoc, hs.append (hsort _ hgap').crosses, List.singleton_append,
      balancedLength?_closing_zero _ hclosing.1 hclosing.2, Option.map_some, Nat.add_comm]
    simp only [List.length_append, List.length_singleton]

/-! ### The scan between bytes -/

/-- What stands in a text from the given byte on, if a character begins there or the text ends. -/
def Text.fromByte? : Text → Nat → Option Text
  | t, 0 => some t
  | [], _ + 1 => none
  | c :: t, n + 1 => if c.utf8Size ≤ n + 1 then fromByte? t (n + 1 - c.utf8Size) else none

theorem Text.fromByte?_append (s t : Text) : fromByte? (s ++ t) (byteSize s) = some t := by
  induction s with
  | nil => cases t <;> rfl
  | cons c s ih =>
      obtain ⟨n, hn⟩ : ∃ n, c.utf8Size + byteSize s = n + 1 :=
        ⟨c.utf8Size + byteSize s - 1, by have := c.utf8Size_pos; omega⟩
      rw [List.cons_append, byteSize_cons, hn, fromByte?, if_pos (by omega), ← hn,
        Nat.add_sub_cancel_left, ih]

/-- The byte just behind the delimiter that balances an opening one that ends at the given byte. -/
def balancedEnd? (t : Text) (start : Nat) (close : Char) : Option Nat :=
  (Text.fromByte? t start).bind fun rest =>
    (balancedLength? close .code 0 rest).map fun n => start + byteSize (rest.take n)

theorem balancedEnd?_append (s t : Text) (close : Char) :
    balancedEnd? (s ++ t) (byteSize s) close
      = (balancedLength? close .code 0 t).map fun n => byteSize s + byteSize (t.take n) := by
  rw [balancedEnd?, Text.fromByte?_append, Option.bind_some]

/-- A text cut before and behind a piece of it. -/
theorem Text.slice_around (s u v : Text) {first last : Nat} (hfirst : first ≤ s.length)
    (hlast : (s ++ u).length ≤ last) :
    slice (s ++ (u ++ v)) first last
      = s.drop first ++ (u ++ v.take (last - (s ++ u).length)) := by
  rw [List.length_append] at hlast
  rw [slice, List.drop_append_of_le_length hfirst, List.take_append, List.take_append,
    List.take_of_length_le (by simp; omega), List.take_of_length_le (by simp; omega)]
  congr 3
  simp
  omega

/-- The scan inside a collection that stands in a text, **cut anywhere** around the collection. -/
theorem Parse.StandsIn.balancedEnd? {t : Text} {firstLine : Nat} {kind : Kind} {o c : Extent}
    {items : List Parse} (h : (Parse.branch kind o items c).StandsIn t firstLine (Gap false))
    {first last : Nat} (hfirst : first ≤ o.stop.offset) (hlast : c.stop.offset ≤ last) :
    EdnSpans.balancedEnd? (slice t first last) (o.stop.byte - byteOffset t first) kind.closer.char
      = some (c.stop.byte - byteOffset t first) := by
  obtain ⟨k, m, hk, -, hrun⟩ := h
  obtain ⟨gap, k₁, inside, hgap, hopen, hrest, hposition, hstop, hscan⟩ :=
    Parse.balancedLength?_interior (fun _ => id) hrun
  obtain ⟨before, ht, hbefore⟩ := hk.run (.cons hgap hopen (.nil k₁))
  have ho : o.stop = (Position.first firstLine).after before := by
    rw [← hbefore, hopen.position_eq]
    rfl
  have hc : c.stop = (Position.first firstLine).after (before ++ inside) := by
    rw [← hstop, hposition, hbefore, Position.after_append]
  have hzero : (Position.first firstLine).offset = 0 ∧ (Position.first firstLine).byte = 0 :=
    ⟨rfl, rfl⟩
  rw [ho, Position.offset_after, hzero.1, Nat.zero_add] at hfirst
  rw [hc, Position.offset_after, hzero.1, Nat.zero_add] at hlast
  -- the cut takes the bytes before `first` away from both ends
  have hbytes : byteSize before = byteOffset t first + byteSize (before.drop first) := by
    rw [ht, byteOffset, List.take_append_of_le_length hfirst, ← byteSize_append,
      List.take_append_drop]
  have hstart : o.stop.byte - byteOffset t first = byteSize (before.drop first) := by
    rw [ho, Position.byte_after, hzero.2]
    omega
  have hend : c.stop.byte - byteOffset t first
      = byteSize (before.drop first) + byteSize inside := by
    rw [hc, Position.byte_after, hzero.2, byteSize_append]
    omega
  rw [hstart, hend, ht, hrest, slice_around before inside m.rest hfirst hlast, balancedEnd?_append,
    hscan, Option.map_some, List.take_left]

/-- Every collection of a form that was read has an opening and a closing lexeme, and the scan from
the end of the first ends at the end of the second: in the whole text, and in what is left of it
after a cut anywhere before the first and behind the second. -/
def Parse.ScansToEnd (t : Text) (p : Parse) : Prop :=
  ∀ path node kind, (p.top t).form.get? path = some node → node.kind? = some kind →
    ∃ opening items closing, p.get? path = some (.branch kind opening items closing)
      ∧ EdnSpans.balancedEnd? t opening.stop.byte kind.closer.char = some closing.stop.byte
      ∧ ∀ first last, first ≤ opening.stop.offset → closing.stop.offset ≤ last →
          EdnSpans.balancedEnd? (slice t first last) (opening.stop.byte - byteOffset t first)
              kind.closer.char
            = some (closing.stop.byte - byteOffset t first)

/-- **The scan agrees with the reader**, in every text that can be read. -/
theorem scansToEnd_of_readForms {t : Text} {firstLine : Nat} {tops : List TopForm}
    (h : readForms t firstLine = .ok tops) :
    ∃ ps, Parses t firstLine ps ∧ tops = ps.map (Parse.top t) ∧ ∀ p ∈ ps, p.ScansToEnd t := by
  obtain ⟨ps, hps, htops⟩ := readForms_eq_ok_iff.1 h
  refine ⟨ps, hps, htops, ?_⟩
  intro p hp path node kind hnode hkind
  obtain ⟨q, hq, hform⟩ := Parse.get?_top hnode
  have hstands := (hps.standsIn hp).get? .nil hq
  cases q with
  | leaf s e => cases node <;> simp [Form.setSpan, Form.kind?] at hform hkind
  | branch kind' opening items closing =>
      obtain rfl : kind = kind' := by cases node <;> simp_all [Form.setSpan, Form.kind?]
      refine ⟨opening, items, closing, hq, ?_, ?_⟩
      · have hwhole := hstands.balancedEnd? (Nat.zero_le _) (Nat.le_max_right t.length _)
        rw [slice_zero, List.take_of_length_le (Nat.le_max_left _ _)] at hwhole
        exact hwhole
      · intro first last hfirst hlast
        exact hstands.balancedEnd? hfirst hlast

/-- A comment, a character literal and a string with an escape, each with a delimiter inside. -/
theorem scansToEnd_hidden_delimiters :
    ∃ t tops,
      t = ['(', ';', ')', '\n', '#', '{', '\\', '(', ' ', '"', '\\', '"', ']', '"', '}', ')']
      ∧ readForms t 1 = .ok tops
      ∧ ∃ ps, Parses t 1 ps ∧ tops = ps.map (Parse.top t) ∧ ∀ p ∈ ps, p.ScansToEnd t := by
  obtain ⟨tops, h⟩ := exists_readForms
    ['(', ';', ')', '\n', '#', '{', '\\', '(', ' ', '"', '\\', '"', ']', '"', '}', ')'] 1
    (by decide +kernel)
  exact ⟨_, tops, rfl, h, scansToEnd_of_readForms h⟩

end EdnSpans
