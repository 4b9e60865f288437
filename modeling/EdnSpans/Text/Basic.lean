/-
**Texts and the ways of measuring them.**

A text is a list of characters, so that an offset into it counts characters, cutting it is
`List.take` and `List.drop`, and everything said about it is said by induction on a list.  Two
other measures of a text matter to somebody who points into it: the number of line breaks it
holds, and the number of bytes it takes in UTF-8.

Main definitions:

* `EdnSpans.Text` — a list of characters;
* `EdnSpans.Text.newlines` — the number of line breaks in a text;
* `EdnSpans.Text.slice` — the part of a text between two character offsets;
* `EdnSpans.Text.byteSize`, `EdnSpans.Text.byteOffset` — the size of a text in UTF-8, and the byte
  at which a character begins.

Main results:

* `EdnSpans.Text.newlines_append`, `EdnSpans.Text.byteSize_append` — both measures are additive;
* `EdnSpans.Text.length_slice` — a slice is as long as its bounds allow;
* `EdnSpans.Text.take_append_slice` — **a slice continues the text before it**.
-/

set_option relaxedAutoImplicit false
set_option autoImplicit false

namespace EdnSpans

/-- A text, as the list of its characters. -/
abbrev Text := List Char

namespace Text

/-! ### Line breaks -/

/-- The number of line breaks in a text. -/
def newlines (t : Text) : Nat := t.count '\n'

@[simp] theorem newlines_nil : newlines [] = 0 := rfl

theorem newlines_cons (c : Char) (t : Text) :
    newlines (c :: t) = newlines t + if c = '\n' then 1 else 0 := by
  by_cases h : c = '\n' <;> simp [newlines, h]

@[simp] theorem newlines_append (s t : Text) : newlines (s ++ t) = newlines s + newlines t := by
  simp [newlines]

/-! ### Slices -/

/-- The characters from offset `start` up to, and not including, offset `stop`.  Bounds past the
end of the text stand for its end, and a `stop` before `start` for `start`. -/
def slice (t : Text) (start stop : Nat) : Text := (t.drop start).take (stop - start)

@[simp] theorem slice_zero (t : Text) (n : Nat) : slice t 0 n = t.take n := by simp [slice]

theorem length_slice (t : Text) (start stop : Nat) :
    (slice t start stop).length = min (stop - start) (t.length - start) := by simp [slice]

/-- A slice continues the text before it. -/
theorem take_append_slice (t : Text) {start stop : Nat} (h : start ≤ stop) :
    t.take start ++ slice t start stop = t.take stop := by
  have e : stop = start + (stop - start) := by omega
  rw [slice, e, List.take_add, Nat.add_sub_cancel_left]

theorem slice_drop (t : Text) (n start stop : Nat) :
    slice (t.drop n) start stop = slice t (n + start) (n + stop) := by
  rw [slice, slice, List.drop_drop, Nat.add_sub_add_left]

theorem slice_slice (t : Text) {a b start stop : Nat} (h : a + stop ≤ b) :
    slice (slice t a b) start stop = slice t (a + start) (a + stop) := by
  rw [← slice_drop, slice, slice, slice, List.drop_take, List.take_take]
  congr 1
  omega

/-- What stands in front of a text moves its slices. -/
theorem slice_append_add (front t : Text) (start stop : Nat) :
    slice (front ++ t) (front.length + start) (front.length + stop) = slice t start stop := by
  rw [← slice_drop, List.drop_left]

theorem slice_middle (front t rest : Text) :
    slice (front ++ (t ++ rest)) front.length (front.length + t.length) = t := by
  rw [slice, List.drop_left, Nat.add_sub_cancel_left, List.take_left]

/-! ### Bytes -/

/-- The number of bytes of a text in UTF-8. -/
def byteSize : Text → Nat
  | [] => 0
  | c :: t => c.utf8Size + byteSize t

@[simp] theorem byteSize_nil : byteSize [] = 0 := rfl

@[simp] theorem byteSize_cons (c : Char) (t : Text) :
    byteSize (c :: t) = c.utf8Size + byteSize t := rfl

@[simp] theorem byteSize_append (s t : Text) : byteSize (s ++ t) = byteSize s + byteSize t := by
  induction s with
  | nil => simp
  | cons c s ih => simp [ih, Nat.add_assoc]

/-- The byte at which the character at offset `n` begins; the size of the text when there is no
such character. -/
def byteOffset (t : Text) (n : Nat) : Nat := byteSize (t.take n)

end Text

end EdnSpans
