/-
**What the search makes of blanked comments.**

A comment without delimiters, quotes and backslashes is quiet.  Blank it, and the scan for the end of
a collection notices nothing, in whatever mode it comes upon the comment: it may take it for a
comment, or for a part of a string, or its semicolon for a character after a backslash.  Nor is the
search for the beginning of a form misled, if what is looked for stands at the same places.

Main definitions:

* `EdnSpans.Muted` — a text and the text with **some quiet comments blanked**;
* `EdnSpans.Form.SeenAlike` — what is looked for stands at the same places in both.

Main results:

* `EdnSpans.Muted.balancedLength?_eq` — the scan goes on alike;
* `EdnSpans.Muted.beginsAt_iff` — a form can begin at the same places;
* `EdnSpans.Muted.locate_eq` — **a form is located at the same place**.
-/
import EdnSpans.Proofs.Locate.Balance
import EdnSpans.Proofs.Locate.Match

set_option relaxedAutoImplicit false
set_option autoImplicit false

namespace EdnSpans

open Text

/-! ### Blanked comments -/

/-- The character is neither a delimiter nor a quote nor a backslash. -/
def isQuiet (c : Char) : Bool := !isOpening c && !isClosing c && c != '"' && c != '\\'

/-- The second text is the first one with **some comments blanked**, in which all characters are
quiet.  The first argument says that both begin inside such a comment. -/
inductive Muted : Bool → Text → Text → Prop
  | nil (inComment : Bool) : Muted inComment [] []
  | keep {c : Char} {t u : Text} : Muted false t u → Muted false (c :: t) (c :: u)
  | comment {t u : Text} : Muted true t u → Muted false (';' :: t) (' ' :: u)
  | inside {c : Char} {t u : Text} :
      c ≠ '\n' → isQuiet c → Muted true t u → Muted true (c :: t) (' ' :: u)
  | lineEnd {t u : Text} : Muted false t u → Muted true ('\n' :: t) ('\n' :: u)

/-- Wherever the second text differs from the first one, the first one has a quiet character. -/
def Text.DiffersQuietly (t u : Text) : Prop := ∀ x ∈ t.zip u, x.1 = x.2 ∨ isQuiet x.1

instance (t u : Text) : Decidable (t.DiffersQuietly u) :=
  inferInstanceAs (Decidable (∀ x ∈ t.zip u, x.1 = x.2 ∨ isQuiet x.1))

namespace Muted

variable {inComment : Bool} {t u : Text}

theorem length_eq (h : Muted inComment t u) : t.length = u.length := by
  induction h with
  | nil => rfl
  | keep _ ih => simp [ih]
  | comment _ ih => simp [ih]
  | inside _ _ _ ih => simp [ih]
  | lineEnd _ ih => simp [ih]

theorem newlines_eq (h : Muted inComment t u) : newlines t = newlines u := by
  induction h with
  | nil => rfl
  | keep _ ih => simp [newlines_cons, ih]
  | comment _ ih => simp [newlines_cons, ih]
  | inside hc _ _ ih => simp [newlines_cons, ih, hc]
  | lineEnd _ ih => simp [newlines_cons, ih]

theorem take (h : Muted inComment t u) (n : Nat) : Muted inComment (t.take n) (u.take n) := by
  induction h generalizing n with
  | nil inComment => simpa using nil inComment
  | keep _ ih =>
      cases n with
      | zero => exact nil _
      | succ n => exact keep (ih n)
  | comment _ ih =>
      cases n with
      | zero => exact nil _
      | succ n => exact comment (ih n)
  | inside hc hquiet _ ih =>
      cases n with
      | zero => exact nil _
      | succ n => exact inside hc hquiet (ih n)
  | lineEnd _ ih =>
      cases n with
      | zero => exact nil _
      | succ n => exact lineEnd (ih n)

theorem drop (h : Muted inComment t u) (n : Nat) :
    ∃ inComment', Muted inComment' (t.drop n) (u.drop n) := by
  induction h generalizing n with
  | nil inComment => exact ⟨inComment, by simpa using nil inComment⟩
  | keep h ih =>
      cases n with
      | zero => exact ⟨_, keep h⟩
      | succ n => exact ih n
  | comment h ih =>
      cases n with
      | zero => exact ⟨_, comment h⟩
      | succ n => exact ih n
  | inside hc hquiet h ih =>
      cases n with
      | zero => exact ⟨_, inside hc hquiet h⟩
      | succ n => exact ih n
  | lineEnd h ih =>
      cases n with
      | zero => exact ⟨_, lineEnd h⟩
      | succ n => exact ih n

theorem append_left (h : Muted false t u) (s : Text) : Muted false (s ++ t) (s ++ u) := by
  induction s with
  | nil => exact h
  | cons c s ih => exact keep ih

theorem slice (h : Muted inComment t u) (start stop : Nat) :
    ∃ inComment', Muted inComment' (slice t start stop) (slice u start stop) := by
  obtain ⟨inComment', hdrop⟩ := h.drop start
  exact ⟨inComment', hdrop.take (stop - start)⟩

/-- A character that is neither a space nor a line break **stands in no comment**, and neither does
the character before it. -/
theorem at_code (h : Muted inComment t u) {n : Nat} {c : Char} {v : Text} (hu : u.drop n = c :: v)
    (hspace : c ≠ ' ') (hbreak : c ≠ '\n') :
    Muted false (t.drop (n + 1)) (u.drop (n + 1)) ∧ (t.take n).getLast? = (u.take n).getLast?
      ∧ (inComment = true → ∃ d, (u.take n).getLast? = some d) := by
  induction h generalizing n with
  | nil => simp at hu
  | keep h ih =>
      cases n with
      | zero => exact ⟨h, rfl, by simp⟩
      | succ n =>
          obtain ⟨hbehind, hlast, -⟩ := ih hu
          refine ⟨hbehind, ?_, by simp⟩
          simp only [List.take_succ_cons, List.getLast?_cons, hlast]
  | comment h ih =>
      cases n with
      | zero => exact absurd (List.cons.inj hu).1.symm hspace
      | succ n =>
          -- the character before is not the semicolon: the line has still to end
          obtain ⟨hbehind, hlast, hsome⟩ := ih hu
          obtain ⟨d, hd⟩ := hsome rfl
          refine ⟨hbehind, ?_, by simp⟩
          simp only [List.take_succ_cons, List.getLast?_cons, hlast, hd, Option.getD_some]
  | inside hc hquiet h ih =>
      cases n with
      | zero => exact absurd (List.cons.inj hu).1.symm hspace
      | succ n =>
          obtain ⟨hbehind, hlast, hsome⟩ := ih hu
          obtain ⟨d, hd⟩ := hsome rfl
          simp only [List.take_succ_cons, List.getLast?_cons, hlast, hd, Option.getD_some]
          exact ⟨hbehind, trivial, fun _ => ⟨d, rfl⟩⟩
  | lineEnd h ih =>
      cases n with
      | zero => exact absurd (List.cons.inj hu).1.symm hbreak
      | succ n =>
          obtain ⟨hbehind, hlast, -⟩ := ih hu
          simp only [List.take_succ_cons, List.getLast?_cons, hlast]
          exact ⟨hbehind, trivial, fun _ => ⟨_, rfl⟩⟩

/-- The scan **goes on alike** in both texts. -/
theorem balancedLength?_eq (h : Muted inComment t u) (close : Char) (depth : Nat) {mode mode' : Mode}
    (hmode : mode = mode' ∨ (inComment = true ∧ mode = .comment ∧ mode' = .code)) :
    balancedLength? close mode depth t = balancedLength? close mode' depth u := by
  induction h generalizing depth mode mode' with
  | nil => rfl
  | keep _ ih =>
      obtain rfl | ⟨hfalse, -⟩ := hmode
      · simp only [balancedLength?, ih _ (.inl rfl)]
      · cases hfalse
  | comment _ ih =>
      obtain rfl | ⟨hfalse, -⟩ := hmode
      · rw [balancedLength?_other depth _ fun _ => ⟨rfl, rfl⟩,
          balancedLength?_other depth _ fun _ => ⟨rfl, rfl⟩]
        congr 1
        refine ih depth ?_
        cases mode <;> simp [Mode.next]
      · cases hfalse
  | @inside c t u hc hquiet _ ih =>
      simp only [isQuiet, Bool.and_eq_true, Bool.not_eq_true', bne_iff_ne] at hquiet
      obtain ⟨⟨⟨hopening, hclosing⟩, hquote⟩, hbackslash⟩ := hquiet
      rw [balancedLength?_other depth _ fun _ => ⟨hopening, hclosing⟩,
        balancedLength?_other depth _ fun _ => ⟨rfl, rfl⟩]
      congr 1
      refine ih depth ?_
      obtain rfl | ⟨-, rfl, rfl⟩ := hmode
      · by_cases hsemi : c = ';'
        · subst hsemi
          cases mode <;> simp [Mode.next]
        · cases mode <;> simp [Mode.next, hc, hquote, hbackslash, hsemi]
      · simp [Mode.next, hc]
  | lineEnd _ ih =>
      rw [balancedLength?_other depth _ fun _ => ⟨rfl, rfl⟩,
        balancedLength?_other depth _ fun _ => ⟨rfl, rfl⟩]
      congr 1
      refine ih depth ?_
      obtain rfl | ⟨-, rfl, rfl⟩ := hmode
      · exact .inl rfl
      · simp [Mode.next]

end Muted

/-! ### Places where a form can begin -/

/-- What is looked for stands **at the same places** in both texts. -/
def Form.SeenAlike (t u : Text) (f : Form) : Prop :=
  ∀ n < t.length, (f.sought <+: t.drop n ↔ f.sought <+: u.drop n)

instance (t u : Text) (f : Form) : Decidable (f.SeenAlike t u) :=
  inferInstanceAs (Decidable (∀ n < _, (_ ↔ _)))

namespace Form.SeenAlike

variable {t u : Text} {f : Form}

theorem drop (h : f.SeenAlike t u) (k : Nat) : f.SeenAlike (t.drop k) (u.drop k) := by
  intro n hn
  rw [List.length_drop] at hn
  rw [List.drop_drop, List.drop_drop]
  exact h (k + n) (by omega)

theorem take (h : f.SeenAlike t u) (k : Nat) : f.SeenAlike (t.take k) (u.take k) := by
  intro n hn
  rw [List.length_take] at hn
  rw [List.drop_take, List.drop_take, List.prefix_take_iff, List.prefix_take_iff, h n (by omega)]

theorem slice (h : f.SeenAlike t u) (start stop : Nat) :
    f.SeenAlike (slice t start stop) (slice u start stop) :=
  (h.drop start).take (stop - start)

end Form.SeenAlike

namespace Muted

variable {inComment : Bool} {t u : Text} {f : Form}

/-- A form **can begin at the same places** in both texts. -/
theorem beginsAt_iff (h : Muted inComment t u) (hf : f.SeenAlike t u) (n : Nat) :
    f.BeginsAt t n ↔ f.BeginsAt u n := by
  have hlength := h.length_eq
  have hsought : f.sought <+: t.drop n ↔ f.sought <+: u.drop n := by
    by_cases hn : n < t.length
    · exact hf n hn
    · rw [List.drop_eq_nil_of_le (by omega), List.drop_eq_nil_of_le (by omega)]
  rw [Form.BeginsAt, Form.BeginsAt, OccursAt, OccursAt, hlength, hsought]
  refine and_congr_right ?_
  rintro ⟨-, hsought⟩
  cases f with
  | atom s m => simp [Form.shadow?]
  | node kind cs m =>
      -- the opener stands in no comment, so the character before it is the same
      obtain ⟨c, w, hcw, hspace, hbreak⟩ :
          ∃ c w, kind.opener = c :: w ∧ c ≠ ' ' ∧ c ≠ '\n' := by
        cases kind <;> exact ⟨_, _, rfl, by decide, by decide⟩
      obtain ⟨v, hv⟩ := hsought
      have hat : u.drop n = c :: (w ++ v) := by
        rw [← hv, Form.sought, hcw, List.cons_append]
      rw [(h.at_code hat hspace hbreak).2.1]

/-- Where a form can begin, **it is as long** in both texts. -/
theorem length?_eq (h : Muted inComment t u) {n : Nat} (hbegins : f.BeginsAt u n) :
    f.length? .sequential (t.drop n) = f.length? .sequential (u.drop n) := by
  cases f with
  | atom s m => rfl
  | node kind cs m =>
      obtain ⟨w, c, hwc, hspace, hbreak⟩ :
          ∃ w c, kind.opener = w ++ [c] ∧ c ≠ ' ' ∧ c ≠ '\n' := by
        cases kind with
        | set => exact ⟨['#'], '\x7b', rfl, by decide, by decide⟩
        | vector => exact ⟨[], _, rfl, by decide, by decide⟩
        | list => exact ⟨[], _, rfl, by decide, by decide⟩
        | map => exact ⟨[], _, rfl, by decide, by decide⟩
      obtain ⟨⟨-, v, hv⟩, -⟩ := hbegins
      have hat : u.drop (n + w.length) = c :: v := by
        rw [← List.drop_drop, ← hv, Form.sought, hwc, List.append_assoc, List.drop_left,
          List.singleton_append]
      have hlength : n + kind.opener.length = n + w.length + 1 := by
        rw [hwc, List.length_append, List.length_singleton, Nat.add_assoc]
      have hinterior := (h.at_code hat hspace hbreak).1
      simp only [Form.length?, closerLength?, List.drop_drop, hlength,
        hinterior.balancedLength?_eq kind.closer.char 0 (.inl rfl)]

/-- A form is located **at the same place** in both texts. -/
theorem locate_eq (h : Muted inComment t u) (hf : f.SeenAlike t u) :
    f.locate .sequential u
      = (f.locate .sequential t).map fun m => .between u m.start m.stop := by
  have hbegin : f.begin? u = f.begin? t := by
    refine Option.ext ?_
    intro n
    simp only [Form.begin?_eq_some_iff, h.beginsAt_iff hf]
  rw [Form.locate_eq, Form.locate_eq, hbegin]
  cases hplace : f.begin? t with
  | none => rfl
  | some n =>
      have hbegins : f.BeginsAt u n := Form.beginsAt_begin? (hbegin.trans hplace)
      rw [Option.bind_some, Option.bind_some, h.length?_eq hbegins, Option.map_map]
      rfl

end Muted

end EdnSpans
