/-
**Leftmost occurrences.**

The least offset at which one text stands inside another.  The empty text stands everywhere, so
it is found at offset `0`, even in the empty text.

This is also what is assumed of a search engine for patterns that is given a text with all its
characters escaped: it accepts every such pattern, however long, and finds the leftmost occurrence.

Main definitions:

* `EdnSpans.Text.OccursAt` — a pattern stands at an offset;
* `EdnSpans.Text.indexOf?` — the least such offset, by recursion on the searched text.

Main results:

* `EdnSpans.Text.occursAt_indexOf?` — what is found is an occurrence;
* `EdnSpans.Text.indexOf?_le` — **no occurrence is further left**.
-/
import EdnSpans.Text.Basic

set_option relaxedAutoImplicit false
set_option autoImplicit false

namespace EdnSpans.Text

/-- The pattern stands in `t` at offset `n`. -/
def OccursAt (pattern t : Text) (n : Nat) : Prop := n ≤ t.length ∧ pattern <+: t.drop n

instance (pattern t : Text) (n : Nat) : Decidable (OccursAt pattern t n) :=
  inferInstanceAs (Decidable (_ ∧ _))

/-- The least offset at which the pattern stands in the text.  A search engine for patterns is
assumed to find it, and never to refuse the escaped text as a pattern. -/
def indexOf? (pattern : Text) : Text → Option Nat
  | [] => if pattern.isEmpty then some 0 else none
  | c :: t =>
      if pattern.isPrefixOf (c :: t) then some 0 else (indexOf? pattern t).map (· + 1)

@[simp] theorem indexOf?_empty (t : Text) : indexOf? [] t = some 0 := by
  cases t <;> simp [indexOf?]

/-- What is found is an occurrence. -/
theorem occursAt_indexOf? {pattern t : Text} {n : Nat} (h : indexOf? pattern t = some n) :
    OccursAt pattern t n := by
  induction t generalizing n with
  | nil =>
      simp only [indexOf?] at h
      split at h
      · next e => simp_all [OccursAt]
      · simp at h
  | cons c t ih =>
      simp only [indexOf?] at h
      split at h
      · next e =>
          cases h
          exact ⟨Nat.zero_le _, by simpa using e⟩
      · obtain ⟨k, hk, rfl⟩ := Option.map_eq_some_iff.1 h
        obtain ⟨h₁, h₂⟩ := ih hk
        exact ⟨by simpa using h₁, by simpa using h₂⟩

/-- No occurrence is **further left** than the one that is found, and one is found if there is
any. -/
theorem indexOf?_le {pattern t : Text} {m : Nat} (h : OccursAt pattern t m) :
    ∃ n, indexOf? pattern t = some n ∧ n ≤ m := by
  induction t generalizing m with
  | nil =>
      obtain ⟨_, h₂⟩ := h
      have : pattern = [] := by simpa using h₂
      exact ⟨0, by simp [this], Nat.zero_le _⟩
  | cons c t ih =>
      simp only [indexOf?]
      split
      · exact ⟨0, rfl, Nat.zero_le _⟩
      · next e =>
          cases m with
          | zero => exact absurd h.2 (by simpa using e)
          | succ m =>
              obtain ⟨n, hn, hle⟩ := ih (m := m) ⟨by simpa using h.1, by simpa using h.2⟩
              exact ⟨n + 1, by simp [hn], by omega⟩

end EdnSpans.Text
