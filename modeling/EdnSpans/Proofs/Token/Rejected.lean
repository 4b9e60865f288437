/-
**Where rejections are reported.**

A rejection comes with a place, and whoever goes there wants to see what was rejected.  An unclosed
string is reported where it begins, and a bad escape before its digits: there a character of the
rejected word stands.  But everything else is reported where reading stopped, and so is an escape
that has no digits: there the rejected word is over.  The place is one column behind the last
character of the word, and the character there, if there is one, was not even looked at.

It does not matter how many calls of the lexer came before, and what they rejected.

Main definitions:

* `EdnSpans.Text.charAt?` — the character of a text at a line and a column;
* `EdnSpans.Position.PointsInto` — **a place is that of a character of a word**;
* `EdnSpans.Cause.Fits` — what is rejected for a cause;
* `EdnSpans.Cause.isInside` — the causes whose place is that of a rejected character;
* `EdnSpans.Rejection.Reported` — where a rejection is reported.

Main results:

* `EdnSpans.Position.toPlace_after_ne` — no two positions in a text have the same place;
* `EdnSpans.Cursor.refuses_of_next` — a rejection passes over a gap and a word that fits its cause;
* `EdnSpans.rejections_reported` — **where all rejections of a text are reported**;
* `EdnSpans.rejection_reported_outside` — a rejected character that is not where it is reported.
-/
import EdnSpans.Proofs.Token.Progress

set_option relaxedAutoImplicit false
set_option autoImplicit false

namespace EdnSpans

open Text

/-! ### Places in a text -/

namespace Position

/-- On one line every character takes a column. -/
theorem column_after {t : Text} (h : '\n' ∉ t) (p : Position) :
    (p.after t).column = p.column + t.length := by
  induction t generalizing p with
  | nil => rfl
  | cons c t ih =>
      obtain ⟨hc, ht⟩ : '\n' ≠ c ∧ '\n' ∉ t := by simpa using h
      rw [after_cons, ih ht, next, List.length_cons]
      simp only [if_neg (Ne.symm hc)]
      omega

/-- Moving over a text **leads to another place**. -/
theorem toPlace_after_ne {t : Text} (h : t ≠ []) (p : Position) :
    (p.after t).toPlace ≠ p.toPlace := by
  intro hplace
  by_cases hbreak : '\n' ∈ t
  · -- a line break is passed, so the line is another one
    have hpos : 0 < newlines t := List.count_pos_iff.2 hbreak
    have hline := congrArg Place.line hplace
    rw [line_after] at hline
    omega
  · have hpos := List.length_pos_iff.2 h
    have hcolumn := congrArg Place.column hplace
    rw [column_after hbreak] at hcolumn
    omega

/-- The place is that of a character of the word, which begins at the given position. -/
def PointsInto (start : Position) (word : Text) (place : Place) : Prop :=
  ∃ front c more, word = front ++ c :: more ∧ place = (start.after front).toPlace

/-- The place behind a word is that of **none of its characters**. -/
theorem not_pointsInto_after (start : Position) (word : Text) :
    ¬start.PointsInto word (start.after word).toPlace := by
  rintro ⟨front, c, more, rfl, hplace⟩
  rw [after_append] at hplace
  exact toPlace_after_ne (List.cons_ne_nil c more) _ hplace

/-- A character that ends no line is passed on its line. -/
theorem toPlace_after_append_singleton {c : Char} (h : c ≠ '\n') (p : Position) (front : Text) :
    (p.after (front ++ [c])).toPlace = ⟨(p.after front).line, (p.after front).column + 1⟩ := by
  rw [after_append, after_cons, after_nil, next]
  simp [h]

end Position

/-- The character at a line and a column of the text, which begins at the given position. -/
def Text.charAt? (place : Place) (p : Position) : Text → Option Char
  | [] => none
  | c :: t => if p.toPlace = place then some c else charAt? place (p.next c) t

/-- The character at the place of a position **is the one that follows**. -/
theorem Text.charAt?_append (p : Position) (s t : Text) :
    charAt? (p.after s).toPlace p (s ++ t) = t.head? := by
  induction s generalizing p with
  | nil => cases t <;> simp [charAt?]
  | cons c s ih =>
      have hne := Position.toPlace_after_ne (List.cons_ne_nil c s) p
      rw [List.cons_append, charAt?, if_neg (Ne.symm hne), Position.after_cons]
      exact ih (p.next c)

/-! ### Rejected words -/

/-- How a string goes on behind its opening quote that is rejected for the given cause. -/
def Cause.EndsString (body rest : Text) : Cause → Prop
  | .openString => rest = []
  | .badEscape digits => ∃ front, body = front ++ '\\' :: 'u' :: digits
  | _ => False

/-- What is rejected for a cause, in front of the given text. -/
def Cause.Fits (word rest : Text) : Cause → Prop
  | .strayCharacter c => word = [c] ∧ isBlank c = false
  | .openString => ∃ body, word = '"' :: body ∧ Cause.openString.EndsString body rest
  | .badEscape digits => ∃ body, word = '"' :: body ∧ (Cause.badEscape digits).EndsString body rest
  | .missingCharacter => word = ['\\'] ∧ rest = []
  | .unknownCharacter name => word = '\\' :: name ∧ ∀ c ∈ name, isAlphanumeric c
  | .namelessKeyword => word = [':']
  | .badNumber literal => word = literal ∧ literal ≠ [] ∧ ∀ c ∈ literal, isSymbolic c

namespace Cause

variable {cause : Cause} {word body rest : Text}

theorem EndsString.append (front : Text) (h : cause.EndsString body rest) :
    cause.EndsString (front ++ body) rest := by
  cases cause with
  | openString => exact h
  | badEscape digits =>
      obtain ⟨more, rfl⟩ := h
      exact ⟨front ++ more, (List.append_assoc ..).symm⟩
  | _ => exact h

theorem EndsString.fits (h : cause.EndsString body rest) : cause.Fits ('"' :: body) rest := by
  cases cause with
  | openString => exact ⟨body, rfl, h⟩
  | badEscape digits => exact ⟨body, rfl, h⟩
  | _ => exact absurd h id

end Cause

namespace Literal

variable {cause : Cause}

/-- What was pushed in front of the rest of a string **changes nothing** about its end. -/
theorem endsString_push (front : Text) {t : Text} {meant : Char} {s : Scan Text}
    (h : (s.push front.length meant).outcome = .error cause)
    (ih : s.outcome = .error cause → cause.EndsString (t.take s.length) (t.drop s.length)) :
    cause.EndsString ((front ++ t).take (s.push front.length meant).length)
      ((front ++ t).drop (s.push front.length meant).length) := by
  have hs : s.outcome = .error cause := by
    obtain ⟨n, outcome⟩ := s
    cases outcome with
    | ok body => simp [Scan.push, Except.map] at h
    | error cause' => simpa [Scan.push, Except.map] using h
  rw [Scan.push, List.take_length_add_append, List.drop_length_add_append]
  exact (ih hs).append front

/-- The digits of an escape that names no character are the last that is taken. -/
theorem endsString_escapeFailure {t : Text} (h : (escapeFailure t).outcome = .error cause) :
    cause.EndsString (('\\' :: 'u' :: t).take (escapeFailure t).length)
      (('\\' :: 'u' :: t).drop (escapeFailure t).length) := by
  obtain rfl := Except.error.inj h
  have hdigits : (t.take 4).takeWhile isHexDigit <+: t :=
    (List.takeWhile_prefix _).trans (List.take_prefix 4 t)
  refine ⟨[], ?_⟩
  rw [escapeFailure, Nat.add_comm, List.take_succ_cons, List.take_succ_cons,
    ← List.prefix_iff_eq_take.1 hdigits, List.nil_append]

/-- A string that is rejected **ends with the text or with an escape**. -/
theorem endsString_stringBody {t : Text} (h : (stringBody t).outcome = .error cause) :
    cause.EndsString (t.take (stringBody t).length) (t.drop (stringBody t).length) := by
  fun_induction stringBody t with
  | case1 =>
      obtain rfl := Except.error.inj h
      rfl
  | case2 t => cases h
  | case3 _ =>
      obtain rfl := Except.error.inj h
      rfl
  | case4 h₁ h₂ h₃ h₄ t meant _ _ ih =>
      exact endsString_push ['\\', 'u', h₁, h₂, h₃, h₄] h ih
  | case5 h₁ h₂ h₃ h₄ t _ _ => exact endsString_escapeFailure h
  | case6 t _ _ => exact endsString_escapeFailure h
  | case7 e t _ _ ih => exact endsString_push ['\\', e] h ih
  | case8 c t _ _ ih => exact endsString_push [c] h ih

theorem fits_string {t : Text} (h : (string t).outcome = .error cause) :
    cause.Fits (('"' :: t).take (string t).length) (('"' :: t).drop (string t).length) := by
  simp only [string] at h ⊢
  have hbody : (stringBody t).outcome = .error cause := by
    cases houtcome : (stringBody t).outcome with
    | ok s => simp [houtcome, Except.map] at h
    | error cause' => simpa [houtcome, Except.map] using h
  rw [Nat.add_comm, List.take_succ_cons, List.drop_succ_cons]
  exact (endsString_stringBody hbody).fits

/-- What is taken while a test holds is at the front of the text, and the test holds in it. -/
theorem taken (p : Char → Bool) (t : Text) :
    t.take (t.takeWhile p).length = t.takeWhile p ∧ ∀ c ∈ t.takeWhile p, p c :=
  ⟨(List.prefix_iff_eq_take.1 (List.takeWhile_prefix p)).symm,
    fun c hc => List.all_eq_true.1 List.all_takeWhile c hc⟩

theorem fits_character {t : Text} (h : (character t).outcome = .error cause) :
    cause.Fits (('\\' :: t).take (character t).length) (('\\' :: t).drop (character t).length) := by
  cases t with
  | nil =>
      obtain rfl := Except.error.inj h
      exact ⟨rfl, rfl⟩
  | cons c t =>
      simp only [character] at h ⊢
      split at h
      · next halpha =>
          split at h
          · cases h
          · obtain rfl := Except.error.inj h
            obtain ⟨htake, hall⟩ := taken isAlphanumeric t
            rw [if_pos halpha]
            refine ⟨?_, ?_⟩
            · rw [Nat.add_comm, List.take_succ_cons, List.length_cons, List.take_succ_cons, htake]
            · intro d hd
              rcases List.mem_cons.1 hd with rfl | hd
              · simp [isAlphanumeric, halpha]
              · exact hall d hd
      · cases h

theorem fits_keyword {t : Text} (h : (keyword t).outcome = .error cause) :
    cause.Fits ((':' :: t).take (keyword t).length) ((':' :: t).drop (keyword t).length) := by
  simp only [keyword] at h ⊢
  split at h
  · next hempty =>
      obtain rfl := Except.error.inj h
      rw [List.isEmpty_iff.1 hempty]
      rfl
  · cases h

theorem fits_number {c : Char} {t : Text} (hc : isSymbolic c)
    (h : (number (c :: t)).outcome = .error cause) :
    cause.Fits ((c :: t).take (number (c :: t)).length)
      ((c :: t).drop (number (c :: t)).length) := by
  simp only [number] at h ⊢
  split at h
  · cases h
  · obtain rfl := Except.error.inj h
    obtain ⟨htake, hall⟩ := taken isSymbolic (c :: t)
    exact ⟨htake, by simp [hc], hall⟩

end Literal

/-- What is rejected at the front of a text **fits the cause**. -/
theorem Token.fits_of_scan {c : Char} {t : Text} {cause : Cause} (hc : isBlank c = false)
    (h : (scan c t).outcome = .error cause) :
    cause.Fits ((c :: t).take (scan c t).length) ((c :: t).drop (scan c t).length) := by
  have hfits := Lead.fits_of c t.head?
  cases hlead : Lead.of c t.head? with
  | opening kind => simp [scan, hlead] at h
  | closing closer => simp [scan, hlead] at h
  | word => simp [scan, hlead, Literal.word] at h
  | string =>
      rw [hlead] at hfits
      obtain rfl : c = '"' := hfits
      simp only [scan, hlead] at h ⊢
      exact Literal.fits_string h
  | character =>
      rw [hlead] at hfits
      obtain rfl : c = '\\' := hfits
      simp only [scan, hlead] at h ⊢
      exact Literal.fits_character h
  | keyword =>
      rw [hlead] at hfits
      obtain rfl : c = ':' := hfits
      simp only [scan, hlead] at h ⊢
      exact Literal.fits_keyword h
  | number =>
      simp only [scan, hlead] at h ⊢
      exact Literal.fits_number (Lead.isSymbolic_of_number hlead) h
  | stray =>
      simp only [scan, hlead] at h ⊢
      obtain rfl := Except.error.inj h
      exact ⟨rfl, hc⟩

/-! ### One call -/

theorem Cause.offset_le (cause : Cause) (n : Nat) : cause.offset n ≤ n := by
  cases cause <;> simp [offset]

namespace Cursor

/-- From the cursor `k` a gap, and then a word that is rejected, lead to the cursor `m`. -/
structure Refuses (k : Cursor) (gap word : Text) (r : Rejection) (m : Cursor) : Prop where
  /-- The text is the gap, the word, and what is left. -/
  rest_eq : k.rest = gap ++ (word ++ m.rest)
  /-- The word is what the cause says. -/
  fits : r.cause.Fits word m.rest
  /-- Reading goes on behind the word. -/
  position_eq : m.position = (k.position.after gap).after word
  /-- The place is as far in the word as the cause says. -/
  place_eq : r.place
    = ((k.position.after gap).after (word.take (r.cause.offset word.length))).toPlace

/-- A call that rejects something passes over **a gap and a word that fits the cause**. -/
theorem refuses_of_next {k m : Cursor} {r : Rejection} (h : k.next = .rejected r m) :
    ∃ gap word, Gap false gap ∧ k.Refuses gap word r m := by
  simp only [next] at h
  split at h
  · cases h
  · next c t e =>
      obtain ⟨hgap, hblank, -⟩ := gap_of_gapLength e
      simp only [readToken] at h
      split at h
      · cases h
      · next cause hcause =>
          obtain ⟨rfl, rfl⟩ := Step.rejected.inj h
          have hlength : ((c :: t).take (Token.scan c t).length).length
              = (Token.scan c t).length :=
            List.length_take_of_le (Token.scan_length_le c t)
          refine ⟨k.rest.take (gapLength false k.rest), (c :: t).take (Token.scan c t).length,
            hgap, ?_, ?_, ?_, ?_⟩
          · rw [rest_advance, e, List.take_append_drop, ← e]
            exact (List.take_append_drop _ _).symm
          · rw [rest_advance, e]
            exact Token.fits_of_scan hblank hcause
          · rw [position_advance, e]
            rfl
          · rw [hlength, List.take_take, Nat.min_eq_left (cause.offset_le _), position_advance, e]
            rfl

end Cursor

/-! ### Where it is reported -/

/-- The place of a rejection for this cause is that of a rejected character. -/
def Cause.isInside : Cause → Bool
  | .openString => true
  | .badEscape digits => !digits.isEmpty
  | _ => false

namespace Cause

variable {cause : Cause} {word rest : Text}

theorem isInside_iff :
    cause.isInside = true ↔ cause = .openString ∨ ∃ d ds, cause = .badEscape (d :: ds) := by
  cases cause with
  | openString => simp [isInside]
  | badEscape digits => cases digits <;> simp [isInside]
  | _ => simp [isInside]

/-- The other causes are reported **at the end** of what is rejected. -/
theorem offset_of_not_isInside (h : cause.isInside = false) (n : Nat) : cause.offset n = n := by
  cases cause with
  | openString => cases h
  | badEscape digits =>
      obtain rfl : digits = [] := by simpa [isInside] using h
      rfl
  | _ => rfl

/-- What is rejected for them **does not end in a line break**. -/
theorem Fits.exists_last (h : cause.Fits word rest) (hinside : cause.isInside = false) :
    ∃ front c, word = front ++ [c] ∧ c ≠ '\n' := by
  have hlast {w : Text} (hw : w ≠ []) (hbreak : '\n' ∉ w) :
      ∃ front c, w = front ++ [c] ∧ c ≠ '\n' := by
    refine ⟨w.dropLast, w.getLast hw, (List.dropLast_concat_getLast hw).symm, ?_⟩
    intro hc
    exact hbreak (hc ▸ List.getLast_mem hw)
  cases cause with
  | strayCharacter c =>
      obtain ⟨rfl, hblank⟩ := h
      refine ⟨[], c, rfl, ?_⟩
      rintro rfl
      cases hblank
  | openString => cases hinside
  | badEscape digits =>
      obtain rfl : digits = [] := by simpa [isInside] using hinside
      obtain ⟨body, rfl, front, rfl⟩ := h
      exact ⟨'"' :: (front ++ ['\\']), 'u', by simp, by decide⟩
  | missingCharacter =>
      obtain ⟨rfl, -⟩ := h
      exact ⟨[], '\\', rfl, by decide⟩
  | unknownCharacter name =>
      obtain ⟨rfl, hname⟩ := h
      refine hlast (List.cons_ne_nil _ _) ?_
      intro hbreak
      rcases List.mem_cons.1 hbreak with hbreak | hbreak
      · cases hbreak
      · exact absurd (hname _ hbreak) (by decide +kernel)
  | namelessKeyword =>
      obtain rfl := h
      exact ⟨[], ':', rfl, by decide⟩
  | badNumber literal =>
      obtain ⟨rfl, hne, hliteral⟩ := h
      refine hlast hne ?_
      intro hbreak
      exact absurd (hliteral _ hbreak) (by decide +kernel)

end Cause

/-- Where a rejection is reported whose word begins at the given position. -/
structure Rejection.Reported (r : Rejection) (start : Position) (word : Text) : Prop where
  /-- An unclosed string is reported where it begins. -/
  openString : r.cause = .openString → r.place = start.toPlace
  /-- An escape is reported before its digits. -/
  badEscape : ∀ digits, r.cause = .badEscape digits →
    ∃ front, word = front ++ digits ∧ r.place = (start.after front).toPlace
  /-- Everything else is reported where the word is over. -/
  behind : r.cause.isInside = false → r.place = (start.after word).toPlace
  /-- This is one column behind the last character of the word. -/
  column : r.cause.isInside = false → ∃ front c, word = front ++ [c]
    ∧ r.place = ⟨(start.after front).line, (start.after front).column + 1⟩
  /-- So a character of the word stands at the place in the first cases and in no other. -/
  pointsInto_iff : start.PointsInto word r.place ↔ r.cause.isInside = true

/-- The word of a rejection **says where it is reported**. -/
theorem Cursor.Refuses.reported {k m : Cursor} {gap word : Text} {r : Rejection}
    (h : k.Refuses gap word r m) : r.Reported (k.position.after gap) word := by
  obtain ⟨-, hfits, -, hplace⟩ := h
  generalize k.position.after gap = start at hplace
  obtain ⟨cause, place⟩ := r
  simp only at hfits hplace
  have hopen : cause = .openString → place = start.toPlace := by
    rintro rfl
    exact hplace
  have hescape : ∀ digits, cause = .badEscape digits →
      ∃ front, word = front ++ digits ∧ place = (start.after front).toPlace := by
    rintro digits rfl
    obtain ⟨body, rfl, front, rfl⟩ := hfits
    have hword : '"' :: (front ++ '\\' :: 'u' :: digits)
        = ('"' :: (front ++ ['\\', 'u'])) ++ digits := by simp
    refine ⟨'"' :: (front ++ ['\\', 'u']), hword, ?_⟩
    rw [hplace, hword, Cause.offset, List.length_append, Nat.add_sub_cancel, List.take_left]
  have hbehind : cause.isInside = false → place = (start.after word).toPlace := by
    intro hinside
    rw [hplace, Cause.offset_of_not_isInside hinside, List.take_length]
  refine ⟨hopen, hescape, hbehind, ?_, ?_⟩
  · intro hinside
    obtain ⟨front, c, hword, hc⟩ := hfits.exists_last hinside
    refine ⟨front, c, hword, ?_⟩
    rw [hbehind hinside, hword]
    exact Position.toPlace_after_append_singleton hc start front
  · constructor
    · intro hpoints
      refine Bool.of_not_eq_false fun hinside => ?_
      have hplace := hbehind hinside
      subst hplace
      exact start.not_pointsInto_after word hpoints
    · intro hinside
      rcases Cause.isInside_iff.1 hinside with rfl | ⟨d, ds, rfl⟩
      · obtain ⟨body, rfl, -⟩ := hfits
        exact ⟨[], '"', body, rfl, hopen rfl⟩
      · obtain ⟨front, hword, hplace⟩ := hescape _ rfl
        exact ⟨front, d, ds, hword, hplace⟩

/-- **Where all rejections of a text are reported**, whatever calls came before.  A call passes over a
gap and over a word that fits the cause of the rejection.  The place is that of a character of the
word for an unclosed string and for an escape with digits; otherwise it is one column behind the
word.  So a stray character stands one column before the place, and at the place stands whatever
follows it. -/
theorem rejections_reported {t : Text} {firstLine n : Nat} {r : Rejection} {m : Cursor}
    (h : ((Cursor.ofText t firstLine).afterCalls n).next = .rejected r m) :
    ∃ before gap word, t = before ++ (gap ++ (word ++ m.rest))
      ∧ ((Cursor.ofText t firstLine).afterCalls n).position = (Position.first firstLine).after before
      ∧ Gap false gap ∧ r.cause.Fits word m.rest
      ∧ m.position = (Position.first firstLine).after (before ++ (gap ++ word))
      ∧ r.Reported ((Position.first firstLine).after (before ++ gap)) word
      ∧ ∀ c, r.cause = .strayCharacter c →
          charAt? ⟨r.place.line, r.place.column - 1⟩ (.first firstLine) t = some c
            ∧ charAt? r.place (.first firstLine) t = m.rest.head? := by
  obtain ⟨before, ht, hposition⟩ :=
    (Cursor.within_ofText t firstLine).afterCalls n
  obtain ⟨gap, word, hgap, refuses⟩ := Cursor.refuses_of_next h
  have hreported := refuses.reported
  have hafter := refuses.position_eq
  rw [hposition, ← Position.after_append] at hreported hafter
  rw [refuses.rest_eq] at ht
  refine ⟨before, gap, word, ht, hposition, hgap, refuses.fits, ?_, hreported, ?_⟩
  · simpa only [Position.after_append] using hafter
  · intro c hcause
    have hfits := refuses.fits
    have hinside : r.cause.isInside = false := by rw [hcause]; rfl
    rw [hcause] at hfits
    obtain ⟨rfl, -⟩ := hfits
    have hsplit : t = (before ++ gap) ++ (c :: m.rest) := by rw [ht]; simp
    constructor
    · obtain ⟨front, d, hword, hplace⟩ := hreported.column hinside
      obtain ⟨rfl, rfl⟩ : [] = front ∧ c = d := by
        cases front with
        | nil => simpa using hword
        | cons e front => simp at hword
      have hbefore : (⟨r.place.line, r.place.column - 1⟩ : Place)
          = ((Position.first firstLine).after (before ++ gap)).toPlace := by
        rw [hplace]
        rfl
      rw [hbefore, hsplit, charAt?_append]
      rfl
    · have hbehind : r.place
          = ((Position.first firstLine).after (before ++ gap ++ [c])).toPlace := by
        rw [hreported.behind hinside, ← Position.after_append]
      have hsplit' : t = (before ++ gap ++ [c]) ++ m.rest := by rw [hsplit]; simp
      rw [hbehind, hsplit', charAt?_append]

/-- A stray character, and behind a comment an escape with a digit. -/
theorem rejections_reported_in_turn :
    let k := Cursor.ofText ['#', ';', 'c', '\n', '"', 'x', '\\', 'u', '0', 'g', '"'] 1
    (∃ m, k.next = .rejected ⟨.strayCharacter '#', ⟨1, 1⟩⟩ m
        ∧ charAt? ⟨1, 0⟩ (.first 1) k.rest = some '#')
      ∧ ∃ (m : Cursor) (start : Position) (word : Text),
        (k.afterCalls 1).next = .rejected ⟨.badEscape ['0'], ⟨2, 4⟩⟩ m
        ∧ m.position = start.after word ∧ start.PointsInto word ⟨2, 4⟩ := by
  intro k
  obtain ⟨m₀, h₀⟩ : ∃ m, (k.afterCalls 0).next = .rejected ⟨.strayCharacter '#', ⟨1, 1⟩⟩ m :=
    ⟨_, rfl⟩
  obtain ⟨m₁, h₁⟩ : ∃ m, (k.afterCalls 1).next = .rejected ⟨.badEscape ['0'], ⟨2, 4⟩⟩ m :=
    ⟨_, rfl⟩
  obtain ⟨-, -, -, -, -, -, -, -, -, hstray⟩ := rejections_reported h₀
  obtain ⟨before, gap, word, -, -, -, -, hafter, hreported, -⟩ := rejections_reported h₁
  refine ⟨⟨m₀, h₀, (hstray '#' rfl).1⟩, m₁, (Position.first 1).after (before ++ gap), word, h₁, ?_,
    hreported.pointsInto_iff.2 rfl⟩
  simpa only [Position.after_append] using hafter

/-- **A rejected character that is not where it is reported.** -/
theorem rejection_reported_outside :
    let k := Cursor.ofText ['#'] 1
    (∃ m, k.next = .rejected ⟨.strayCharacter '#', ⟨1, 1⟩⟩ m ∧ m.position.toPlace = ⟨1, 1⟩)
      ∧ ¬k.position.PointsInto k.rest ⟨1, 1⟩ ∧ charAt? ⟨1, 1⟩ (.first 1) k.rest = none := by
  intro k
  refine ⟨⟨_, rfl, rfl⟩, ?_, rfl⟩
  exact k.position.not_pointsInto_after k.rest

end EdnSpans
