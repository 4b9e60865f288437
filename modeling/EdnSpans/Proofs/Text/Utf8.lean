/-
**Searching a text by its bytes.**

A search that knows nothing of characters may be carried out on the bytes of a text in UTF-8.  What
it finds is the same: the first byte of a character is never found inside another character, and no
character is encoded as the beginning of another one.  So the bytes of a pattern that is not empty
stand only where the pattern stands, at a byte at which a character begins.

The bytes of the empty pattern stand at every byte, also inside characters; but the first of these
places is the beginning of the text.

Main definitions:

* `EdnSpans.Text.utf8` — the bytes of a text;
* `EdnSpans.Text.OccursAtByte` — the bytes of a pattern stand **at a byte**;
* `EdnSpans.Text.byteMatches` — all such bytes, from left to right.

Main results:

* `EdnSpans.Text.utf8_prefix_iff` — bytes begin with those of a pattern if the text begins with it;
* `EdnSpans.Text.occursAtByte_iff` — **a pattern is found only where it stands**;
* `EdnSpans.Text.find?_byteMatches` — the first place of a pattern that passes a test;
* `EdnSpans.Text.head?_byteMatches` — the first place of a pattern.
-/
import EdnSpans.Text.Occurrence

set_option relaxedAutoImplicit false
set_option autoImplicit false

namespace EdnSpans.Text

/-! ### Bytes -/

/-- The bytes of a text in UTF-8. -/
def utf8 (t : Text) : List UInt8 := t.flatMap String.utf8EncodeChar

@[simp] theorem utf8_nil : utf8 [] = [] := rfl

@[simp] theorem utf8_cons (c : Char) (t : Text) :
    utf8 (c :: t) = String.utf8EncodeChar c ++ utf8 t := List.flatMap_cons

@[simp] theorem utf8_append (s t : Text) : utf8 (s ++ t) = utf8 s ++ utf8 t := List.flatMap_append

/-- The size of a text **is the length of its encoding**. -/
@[simp] theorem length_utf8 (t : Text) : (utf8 t).length = byteSize t := by
  induction t with
  | nil => rfl
  | cons c t ih => simp [ih]

/-- No character is encoded as **the beginning of another one**. -/
theorem utf8EncodeChar_append_inj {c d : Char} {x y : List UInt8}
    (h : String.utf8EncodeChar c ++ x = String.utf8EncodeChar d ++ y) : c = d ∧ x = y := by
  have hdecode := congrArg (fun bytes => bytes.toByteArray.utf8DecodeChar? 0) h
  simp only [List.toByteArray_append, ByteArray.utf8DecodeChar?_utf8EncodeChar_append,
    Option.some.injEq] at hdecode
  subst hdecode
  exact ⟨rfl, List.append_cancel_left h⟩

/-- The bytes of a text begin with those of a pattern only if **the text begins with the pattern**. -/
theorem utf8_prefix_iff {pattern t : Text} : utf8 pattern <+: utf8 t ↔ pattern <+: t := by
  constructor
  · intro h
    induction pattern generalizing t with
    | nil => exact List.nil_prefix
    | cons c pattern ih =>
        cases t with
        | nil => simp [String.utf8EncodeChar_ne_nil] at h
        | cons d t =>
            obtain ⟨rest, hrest⟩ := h
            rw [utf8_cons, utf8_cons, List.append_assoc] at hrest
            obtain ⟨rfl, htail⟩ := utf8EncodeChar_append_inj hrest
            exact List.cons_prefix_cons.2 ⟨rfl, ih ⟨rest, htail⟩⟩
  · rintro ⟨rest, rfl⟩
    rw [utf8_append]
    exact List.prefix_append ..

/-! ### Offsets in bytes -/

theorem byteOffset_add (t : Text) (m n : Nat) :
    byteOffset t (m + n) = byteOffset t m + byteOffset (t.drop m) n := by
  rw [byteOffset, byteOffset, byteOffset, List.take_add, byteSize_append]

theorem byteOffset_cons_succ (c : Char) (t : Text) (n : Nat) :
    byteOffset (c :: t) (n + 1) = c.utf8Size + byteOffset t n := rfl

theorem byteOffset_le (t : Text) (n : Nat) : byteOffset t n ≤ byteSize t := by
  have hsplit := byteSize_append (t.take n) (t.drop n)
  rw [List.take_append_drop] at hsplit
  rw [byteOffset]
  omega

/-- Every character takes at least a byte. -/
theorem le_byteSize (t : Text) : t.length ≤ byteSize t := by
  induction t with
  | nil => exact Nat.le_refl 0
  | cons c t ih =>
      have := c.utf8Size_pos
      rw [List.length_cons, byteSize_cons]
      omega

theorem byteOffset_lt {t : Text} {m n : Nat} (h : m < n) (hn : n ≤ t.length) :
    byteOffset t m < byteOffset t n := by
  obtain ⟨d, rfl⟩ := Nat.exists_eq_add_of_le (Nat.le_of_lt h)
  rw [byteOffset_add]
  have hd : d = ((t.drop m).take d).length := by
    rw [List.length_take, List.length_drop]
    omega
  have hsize := le_byteSize ((t.drop m).take d)
  rw [byteOffset.eq_def (t.drop m)]
  omega

theorem byteOffset_of_occursAt {pattern t : Text} {n : Nat} (h : OccursAt pattern t n) :
    byteOffset t (n + pattern.length) = byteOffset t n + byteSize pattern := by
  rw [byteOffset_add, byteOffset.eq_def (t.drop n), ← List.prefix_iff_eq_take.1 h.2]

/-! ### Places -/

/-- The bytes of the pattern stand among those of the text **from the given byte on**. -/
def OccursAtByte (pattern t : Text) (n : Nat) : Prop :=
  n ≤ byteSize t ∧ utf8 pattern <+: (utf8 t).drop n

instance (pattern t : Text) (n : Nat) : Decidable (OccursAtByte pattern t n) :=
  inferInstanceAs (Decidable (_ ∧ _))

/-- The bytes of a pattern stand at no byte **inside a character**. -/
theorem not_occursAtByte_inside {pattern t : Text} (hpattern : pattern ≠ []) {c : Char} {n : Nat}
    (hpos : 0 < n) (hn : n < c.utf8Size) : ¬OccursAtByte pattern (c :: t) n := by
  rintro ⟨-, hprefix⟩
  obtain ⟨d, pattern, rfl⟩ := List.exists_cons_of_ne_nil hpattern
  have hd : 0 < (String.utf8EncodeChar d).length := by
    rw [String.length_utf8EncodeChar]
    exact d.utf8Size_pos
  have hc : n < (String.utf8EncodeChar c).length := by rwa [String.length_utf8EncodeChar]
  -- the first byte of the pattern would be a byte of `c` that is not its first one
  have hbyte : (String.utf8EncodeChar d)[0] = (String.utf8EncodeChar c)[n] := by
    obtain ⟨rest, hrest⟩ := hprefix
    have hfront := congrArg (·[0]?) hrest
    rw [utf8_cons, utf8_cons, List.append_assoc] at hfront
    simpa only [List.getElem?_drop, Nat.add_zero, List.getElem?_append_left hd,
      List.getElem?_append_left hc, List.getElem?_eq_getElem hd, List.getElem?_eq_getElem hc,
      Option.some.injEq] using hfront
  have hfirst : (String.utf8EncodeChar c)[n].IsUTF8FirstByte := by
    rw [← hbyte, UInt8.isUTF8FirstByte_getElem_utf8EncodeChar]
  rw [UInt8.isUTF8FirstByte_getElem_utf8EncodeChar] at hfirst
  omega

theorem occursAtByte_cons_add {pattern t : Text} {c : Char} {n : Nat} :
    OccursAtByte pattern (c :: t) (c.utf8Size + n) ↔ OccursAtByte pattern t n := by
  rw [OccursAtByte, OccursAtByte, utf8_cons, byteSize_cons, Nat.add_le_add_iff_left,
    ← String.length_utf8EncodeChar c, List.drop_length_add_append]

theorem occursAtByte_zero_iff {pattern t : Text} :
    OccursAtByte pattern t 0 ↔ OccursAt pattern t 0 := by
  rw [OccursAtByte, OccursAt, List.drop_zero, List.drop_zero, utf8_prefix_iff]
  simp

theorem occursAt_cons_succ {pattern t : Text} {c : Char} {n : Nat} :
    OccursAt pattern (c :: t) (n + 1) ↔ OccursAt pattern t n := by
  rw [OccursAt, OccursAt, List.length_cons, Nat.add_le_add_iff_right, List.drop_succ_cons]

/-- A pattern is found **only where it stands**, at a byte at which a character begins. -/
theorem occursAtByte_iff {pattern t : Text} (hpattern : pattern ≠ []) {n : Nat} :
    OccursAtByte pattern t n ↔ ∃ k, OccursAt pattern t k ∧ n = byteOffset t k := by
  induction t generalizing n with
  | nil =>
      have hutf8 : utf8 pattern ≠ [] := by
        rw [Ne, ← List.prefix_nil, ← utf8_nil, utf8_prefix_iff, List.prefix_nil]
        exact hpattern
      simp [OccursAtByte, OccursAt, hutf8, hpattern]
  | cons c t ih =>
      constructor
      · intro h
        rcases Nat.eq_zero_or_pos n with rfl | hpos
        · exact ⟨0, occursAtByte_zero_iff.1 h, rfl⟩
        · by_cases hn : n < c.utf8Size
          · exact absurd h (not_occursAtByte_inside hpattern hpos hn)
          · obtain ⟨m, rfl⟩ := Nat.exists_eq_add_of_le (Nat.le_of_not_lt hn)
            obtain ⟨k, hk, rfl⟩ := ih.1 (occursAtByte_cons_add.1 h)
            exact ⟨k + 1, occursAt_cons_succ.2 hk, rfl⟩
      · rintro ⟨k, hk, rfl⟩
        cases k with
        | zero => exact occursAtByte_zero_iff.2 hk
        | succ k =>
            rw [byteOffset_cons_succ, occursAtByte_cons_add]
            exact ih.2 ⟨k, occursAt_cons_succ.1 hk, rfl⟩

/-! ### The first place -/

/-- The bytes at which the bytes of the pattern stand, from left to right. -/
def byteMatches (pattern t : Text) : List Nat :=
  (List.range (byteSize t + 1)).filter (OccursAtByte pattern t ·)

theorem mem_byteMatches {pattern t : Text} {n : Nat} :
    n ∈ byteMatches pattern t ↔ OccursAtByte pattern t n := by
  rw [byteMatches, List.mem_filter, List.mem_range, decide_eq_true_iff, and_iff_right_iff_imp]
  intro h
  exact Nat.lt_succ_of_le h.1

/-- **The first place that passes a test**, in characters and in bytes. -/
theorem find?_byteMatches {pattern t : Text} (hpattern : pattern ≠ []) {test : Nat → Bool} {k : Nat}
    (hoccurs : OccursAt pattern t k) (htest : test (byteOffset t k))
    (hleast : ∀ j < k, OccursAt pattern t j → test (byteOffset t j) = false) :
    (byteMatches pattern t).find? test = some (byteOffset t k) := by
  rw [byteMatches, List.find?_filter, List.find?_range_eq_some]
  refine ⟨?_, ?_, ?_⟩
  · rw [decide_eq_true_iff, decide_eq_true_iff]
    exact ⟨(occursAtByte_iff hpattern).2 ⟨k, hoccurs, rfl⟩, htest⟩
  · rw [List.mem_range]
    exact Nat.lt_succ_of_le (byteOffset_le t k)
  · intro n hn
    rw [Bool.not_eq_true', decide_eq_false_iff_not, decide_eq_true_iff]
    rintro ⟨hat, hpasses⟩
    obtain ⟨j, hj, rfl⟩ := (occursAtByte_iff hpattern).1 hat
    -- places further right have greater bytes
    have hjk : j < k := by
      rcases Nat.lt_trichotomy j k with hlt | rfl | hlt
      · exact hlt
      · exact absurd hn (Nat.lt_irrefl _)
      · exact absurd hn (Nat.lt_asymm (byteOffset_lt hlt hj.1))
    rw [hleast j hjk hj] at hpasses
    cases hpasses

theorem find?_byteMatches_eq_none {pattern t : Text} (hpattern : pattern ≠ []) {test : Nat → Bool}
    (hfails : ∀ j, OccursAt pattern t j → test (byteOffset t j) = false) :
    (byteMatches pattern t).find? test = none := by
  rw [List.find?_eq_none]
  intro n hn
  obtain ⟨j, hj, rfl⟩ := (occursAtByte_iff hpattern).1 (mem_byteMatches.1 hn)
  rw [hfails j hj]
  exact Bool.false_ne_true

/-- **The first place of a pattern**, in characters and in bytes. -/
theorem head?_byteMatches (pattern t : Text) :
    (byteMatches pattern t).head? = (indexOf? pattern t).map (byteOffset t) := by
  by_cases hpattern : pattern = []
  · -- the empty pattern stands everywhere, and first of all at the front
    subst hpattern
    rw [indexOf?_empty, byteMatches, List.head?_filter, Option.map_some, List.find?_range_eq_some]
    refine ⟨?_, ?_, ?_⟩
    · rw [decide_eq_true_iff]
      exact occursAtByte_zero_iff.2 ⟨Nat.zero_le _, List.nil_prefix⟩
    · rw [List.mem_range]
      exact Nat.succ_pos _
    · intro n hn
      exact absurd hn (Nat.not_lt_zero n)
  · have hhead : (byteMatches pattern t).head? = (byteMatches pattern t).find? fun _ => true := by
      cases byteMatches pattern t <;> rfl
    rw [hhead]
    cases hindex : indexOf? pattern t with
    | some k =>
        refine find?_byteMatches hpattern (occursAt_indexOf? hindex) rfl ?_
        intro j hj hoccurs
        obtain ⟨m, hm, hle⟩ := indexOf?_le hoccurs
        obtain rfl : m = k := Option.some.inj (hm.symm.trans hindex)
        exact absurd hj (Nat.not_lt_of_le hle)
    | none =>
        refine find?_byteMatches_eq_none hpattern ?_
        intro j hoccurs
        obtain ⟨m, hm, -⟩ := indexOf?_le hoccurs
        rw [hindex] at hm
        cases hm

end EdnSpans.Text
