/-
**The balancing delimiter.**

The end of a collection is found without reading what is inside it: it is enough to know which
characters are delimiters.  Those in strings, in comments and after a backslash are not; the others
are counted, and the first closing delimiter that closes nothing inside is the end, provided it is
of the right kind.

Main definitions:

* `EdnSpans.Mode`, `EdnSpans.Mode.next` — what a character stands in;
* `EdnSpans.balancedLength?` — **the length of a collection's text after its opening delimiter**.

Main results:

* `EdnSpans.balancedLength?_bounds` — the end lies in the text.
-/
import EdnSpans.Form.Kind

set_option relaxedAutoImplicit false
set_option autoImplicit false

namespace EdnSpans

/-- What a character stands in. -/
inductive Mode
  /-- Nothing that hides a delimiter. -/
  | code
  /-- The place after a backslash. -/
  | literal
  /-- A string. -/
  | string
  /-- The place after a backslash in a string. -/
  | stringEscape
  /-- A comment. -/
  | comment
  deriving DecidableEq, Repr

/-- What the next character stands in. -/
def Mode.next (mode : Mode) (c : Char) : Mode :=
  match mode with
  | .code => if c = '"' then .string else if c = '\\' then .literal
      else if c = ';' then .comment else .code
  | .literal => .code
  | .string => if c = '"' then .code else if c = '\\' then .stringEscape else .string
  | .stringEscape => .string
  | .comment => if c = '\n' then .code else .comment

/-- The number of characters through the closing delimiter, at the front of a text whose first
character stands in `mode` and `depth` collections further inside. -/
def balancedLength? (close : Char) (mode : Mode) (depth : Nat) : Text → Option Nat
  | [] => none
  | c :: t =>
      if mode = .code ∧ isOpening c then
        (balancedLength? close .code (depth + 1) t).map (· + 1)
      else if mode = .code ∧ isClosing c then
        match depth with
        | 0 => if c = close then some 1 else none
        | depth + 1 => (balancedLength? close .code depth t).map (· + 1)
      else (balancedLength? close (mode.next c) depth t).map (· + 1)

/-- The end lies in the text, after its first character. -/
theorem balancedLength?_bounds {close : Char} {mode : Mode} {depth n : Nat} {t : Text}
    (h : balancedLength? close mode depth t = some n) : 0 < n ∧ n ≤ t.length := by
  induction t generalizing mode depth n with
  | nil => simp [balancedLength?] at h
  | cons c t ih =>
      have step {mode' : Mode} {depth' : Nat}
          (h' : (balancedLength? close mode' depth' t).map (· + 1) = some n) :
          0 < n ∧ n ≤ (c :: t).length := by
        obtain ⟨m, hm, rfl⟩ := Option.map_eq_some_iff.1 h'
        exact ⟨Nat.succ_pos m, Nat.succ_le_succ (ih hm).2⟩
      unfold balancedLength? at h
      split at h
      · exact step h
      · split at h
        · split at h
          · split at h
            · cases h
              exact ⟨Nat.one_pos, Nat.succ_le_succ (Nat.zero_le _)⟩
            · simp at h
          · exact step h
        · exact step h

end EdnSpans
