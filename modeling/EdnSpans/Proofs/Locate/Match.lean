/-
**Matches lie in the text that was searched.**

However a form is located, what is found is a piece of the text between two offsets of it.  The
piece of a collection has room for the delimiters of its kind.  And it begins at the first place in
the text at which the search takes the form to begin, whatever else may stand there.

Main definitions:

* `EdnSpans.Form.BeginsAt` — the form can begin at an offset, as far as the search can tell;
* `EdnSpans.Form.begin?`, `EdnSpans.Form.length?` — where it first can begin, and how long it is
  there;
* `EdnSpans.Text.FirstFrom` — the first place of a pattern **from an offset on**.

Main results:

* `EdnSpans.closerLength?_bounds` — a closer is found in the text, behind some character of it;
* `EdnSpans.Form.locate_bounds` — **a match is a piece of the text**;
* `EdnSpans.Form.begin?_eq_some_iff`, `EdnSpans.Form.locate_eq` — **the first place at which the form
  can begin decides**;
* `EdnSpans.Text.firstFrom_of_indexOf?`, `EdnSpans.Text.not_occursAt_of_indexOf?` — to search the
  rest of a text is to search the text from an offset on.
-/
import EdnSpans.Locate.Match

set_option relaxedAutoImplicit false
set_option autoImplicit false

namespace EdnSpans

open Text

theorem Text.OccursAt.add_length_le {pattern t : Text} {n : Nat} (h : OccursAt pattern t n) :
    n + pattern.length ≤ t.length := by
  have hle := h.2.length_le
  rw [List.length_drop] at hle
  have := h.1
  omega

theorem closerLength?_bounds {strategy : Strategy} {kind : Kind} {interior : Text} {n : Nat}
    (h : closerLength? strategy kind interior = some n) : 0 < n ∧ n ≤ interior.length := by
  cases strategy with
  | first =>
      obtain ⟨i, hi, rfl⟩ := Option.map_eq_some_iff.1 h
      exact ⟨Nat.succ_pos i, (Text.occursAt_indexOf? hi).add_length_le⟩
  | sequential => exact balancedLength?_bounds h

/-- **A match is a piece of the text**, and the match of a collection has room for its opener. -/
theorem Form.locate_bounds {strategy : Strategy} {f : Form} {t : Text} {m : Match}
    (h : f.locate strategy t = some m) :
    m = .between t m.start m.stop ∧ m.start ≤ m.stop ∧ m.stop ≤ t.length
      ∧ ∀ kind, f.kind? = some kind → m.start + kind.opener.length ≤ m.stop := by
  cases f with
  | atom s span =>
      obtain ⟨start, hstart, rfl⟩ := Option.map_eq_some_iff.1 h
      exact ⟨rfl, Nat.le_add_right _ _, (Text.occursAt_indexOf? hstart).add_length_le,
        by simp [kind?]⟩
  | node kind children span =>
      obtain ⟨start, -, hend⟩ := Option.bind_eq_some_iff.1 h
      obtain ⟨n, hn, rfl⟩ := Option.map_eq_some_iff.1 hend
      have hbounds := closerLength?_bounds hn
      rw [List.length_drop] at hbounds
      refine ⟨rfl, ?_, ?_, ?_⟩
      · simp only [Match.between]
        omega
      · simp only [Match.between]
        omega
      · rintro kind' ⟨⟩
        simp only [Match.between]
        omega

theorem Text.length_slice_of_le {t : Text} {start stop : Nat} (h : stop ≤ t.length) :
    (slice t start stop).length = stop - start := by
  rw [length_slice]
  omega

theorem Form.length_of_locate {strategy : Strategy} {f : Form} {t : Text} {m : Match}
    (h : f.locate strategy t = some m) : m.text.length = m.stop - m.start := by
  obtain ⟨hbetween, -, hstop, -⟩ := locate_bounds h
  rw [hbetween]
  exact Text.length_slice_of_le hstop

/-! ### The first place decides -/

/-- The opener of the kind stands at the offset, and is not the tail of the opener of another kind;
`before` is the character before the text. -/
def Kind.OpensAt (kind : Kind) (before : Option Char) (t : Text) (n : Nat) : Prop :=
  OccursAt kind.opener t n
    ∧ (kind.shadowedBy = none ∨ (before.toList ++ t.take n).getLast? ≠ kind.shadowedBy)

theorem Kind.opensAt_zero_iff {kind : Kind} {before : Option Char} {t : Text} :
    kind.OpensAt before t 0
      ↔ kind.opener.isPrefixOf t ∧ ¬(before.isSome ∧ before = kind.shadowedBy) := by
  cases before <;> cases kind <;> simp [OpensAt, OccursAt, shadowedBy]

theorem Kind.opensAt_cons_succ {kind : Kind} {before : Option Char} {c : Char} {t : Text} {n : Nat} :
    kind.OpensAt before (c :: t) (n + 1) ↔ kind.OpensAt (some c) t n := by
  cases before <;> simp [OpensAt, OccursAt]

theorem opensAt_openerIndex? {kind : Kind} {before : Option Char} {t : Text} {n : Nat}
    (h : openerIndex? kind before t = some n) : kind.OpensAt before t n := by
  induction t generalizing before n with
  | nil => simp [openerIndex?] at h
  | cons c t ih =>
      rw [openerIndex?] at h
      split at h
      · next hfront =>
          cases h
          exact Kind.opensAt_zero_iff.2 hfront
      · obtain ⟨m, hm, rfl⟩ := Option.map_eq_some_iff.1 h
        exact Kind.opensAt_cons_succ.2 (ih hm)

/-- No opener that counts is **further left** than the one that is found. -/
theorem openerIndex?_le {kind : Kind} {before : Option Char} {t : Text} {m : Nat}
    (h : kind.OpensAt before t m) : ∃ n, openerIndex? kind before t = some n ∧ n ≤ m := by
  induction t generalizing before m with
  | nil =>
      have hnil : kind.opener = [] := by simpa using h.1.2
      exact absurd hnil kind.opener_ne_nil
  | cons c t ih =>
      rw [openerIndex?]
      split
      · exact ⟨0, rfl, Nat.zero_le _⟩
      · next hfront =>
          cases m with
          | zero => exact absurd (Kind.opensAt_zero_iff.1 h) hfront
          | succ m =>
              obtain ⟨n, hn, hle⟩ := ih (Kind.opensAt_cons_succ.1 h)
              exact ⟨n + 1, by simp [hn], Nat.succ_le_succ hle⟩

namespace Form

/-- What is looked for when the place of a form is sought: the text of a scalar, the opener of a
collection. -/
def sought : Form → Text
  | .atom s _ => s.text
  | .node kind _ _ => kind.opener

/-- The character that must not stand directly before what is looked for. -/
def shadow? : Form → Option Char
  | .atom _ _ => none
  | .node kind _ _ => kind.shadowedBy

/-- What is looked for stands at the offset, **as far as the search can tell**. -/
def BeginsAt (f : Form) (t : Text) (n : Nat) : Prop :=
  OccursAt f.sought t n ∧ (f.shadow? = none ∨ (t.take n).getLast? ≠ f.shadow?)

instance (f : Form) (t : Text) (n : Nat) : Decidable (f.BeginsAt t n) :=
  inferInstanceAs (Decidable (_ ∧ (_ ∨ _)))

/-- What stands behind the text has no say, as long as what is looked for ends in the text. -/
theorem beginsAt_append_iff {f : Form} {t : Text} {n : Nat} (after : Text)
    (h : n + f.sought.length ≤ t.length) : f.BeginsAt (t ++ after) n ↔ f.BeginsAt t n := by
  have hn : n ≤ t.length := Nat.le_of_add_right_le h
  have hfits : f.sought.length ≤ (t.drop n).length := by
    rw [List.length_drop]
    omega
  have hsought : f.sought <+: t.drop n ++ after ↔ f.sought <+: t.drop n :=
    ⟨fun h => List.prefix_of_prefix_length_le h (List.prefix_append ..) hfits,
      fun h => h.trans (List.prefix_append ..)⟩
  have hle : n ≤ (t ++ after).length := by
    rw [List.length_append]
    omega
  simp only [BeginsAt, OccursAt, List.drop_append_of_le_length hn, List.take_append_of_le_length hn,
    hsought, hn, hle]

/-- What stands before the text has no say, except on what begins at its front. -/
theorem BeginsAt.append_left {f : Form} {t : Text} {n : Nat} (h : f.BeginsAt t n) (hn : 0 < n)
    (front : Text) : f.BeginsAt (front ++ t) (front.length + n) := by
  obtain ⟨⟨hle, hsought⟩, hshadow⟩ := h
  have hlast : ∃ c, (t.take n).getLast? = some c := by
    refine Option.ne_none_iff_exists'.1 ?_
    rw [Ne, List.getLast?_eq_none_iff, List.take_eq_nil_iff]
    rintro (rfl | rfl)
    · exact Nat.lt_irrefl 0 hn
    · exact absurd hle (Nat.not_le_of_lt hn)
  obtain ⟨c, hc⟩ := hlast
  refine ⟨⟨?_, ?_⟩, ?_⟩
  · rw [List.length_append]
    omega
  · rwa [List.drop_length_add_append]
  · rwa [List.take_length_add_append, List.getLast?_append, hc, Option.some_or, ← hc]

/-- The least offset at which the form can begin. -/
def begin? (f : Form) (t : Text) : Option Nat :=
  match f with
  | .atom s _ => indexOf? s.text t
  | .node kind _ _ => openerIndex? kind none t

/-- The number of characters of the form at the front of a text at which it begins. -/
def length? (strategy : Strategy) (f : Form) (t : Text) : Option Nat :=
  match f with
  | .atom s _ => some s.text.length
  | .node kind _ _ =>
      (closerLength? strategy kind (t.drop kind.opener.length)).map (kind.opener.length + ·)

theorem beginsAt_begin? {f : Form} {t : Text} {n : Nat} (h : f.begin? t = some n) :
    f.BeginsAt t n := by
  cases f with
  | atom s span => exact ⟨occursAt_indexOf? h, .inl rfl⟩
  | node kind cs span => exact opensAt_openerIndex? h

theorem begin?_le {f : Form} {t : Text} {m : Nat} (h : f.BeginsAt t m) :
    ∃ n, f.begin? t = some n ∧ n ≤ m := by
  cases f with
  | atom s span => exact indexOf?_le h.1
  | node kind cs span =>
      have hopens : kind.OpensAt none t m := h
      exact openerIndex?_le hopens

/-- The search looks **at nothing but the places where the form can begin**. -/
theorem begin?_eq_some_iff {f : Form} {t : Text} {n : Nat} :
    f.begin? t = some n ↔ f.BeginsAt t n ∧ ∀ k < n, ¬f.BeginsAt t k := by
  constructor
  · intro h
    refine ⟨beginsAt_begin? h, ?_⟩
    intro k hk hbegins
    obtain ⟨m, hm, hle⟩ := begin?_le hbegins
    obtain rfl : m = n := Option.some.inj (hm.symm.trans h)
    omega
  · rintro ⟨hbegins, hfirst⟩
    obtain ⟨m, hm, hle⟩ := begin?_le hbegins
    obtain rfl | hlt := Nat.eq_or_lt_of_le hle
    · exact hm
    · exact absurd (beginsAt_begin? hm) (hfirst m hlt)

/-- **Where the form first can begin decides**; then its end is sought from there. -/
theorem locate_eq (strategy : Strategy) (f : Form) (t : Text) :
    f.locate strategy t = (f.begin? t).bind fun n =>
      (f.length? strategy (t.drop n)).map fun length => .between t n (n + length) := by
  cases f with
  | atom s span =>
      rw [locate, begin?]
      cases indexOf? s.text t <;> rfl
  | node kind cs span =>
      rw [locate, begin?]
      congr 1
      funext n
      simp only [length?, List.drop_drop, Option.map_map, Function.comp_def, Nat.add_assoc]

end Form

/-! ### First places from an offset on -/

namespace Text

variable {pattern t : Text} {start n : Nat}

theorem OccursAt.slice_eq (h : OccursAt pattern t n) : slice t n (n + pattern.length) = pattern := by
  rw [slice, Nat.add_sub_cancel_left]
  exact (List.prefix_iff_eq_take.1 h.2).symm

theorem isInfix_iff_exists_occursAt : pattern <:+: t ↔ ∃ n, OccursAt pattern t n := by
  constructor
  · rintro ⟨before, after, rfl⟩
    refine ⟨before.length, by simp, ?_⟩
    rw [List.append_assoc, List.drop_left]
    exact List.prefix_append ..
  · rintro ⟨n, -, hprefix⟩
    exact hprefix.isInfix.trans (List.drop_suffix n t).isInfix

/-- The pattern stands at the offset `n`, and at no offset **from `start` on** before that. -/
structure FirstFrom (start : Nat) (pattern t : Text) (n : Nat) : Prop where
  start_le : start ≤ n
  occurs : OccursAt pattern t n
  least : ∀ k, start ≤ k → OccursAt pattern t k → n ≤ k

theorem occursAt_drop_iff (hstart : start ≤ t.length) :
    OccursAt pattern (t.drop start) n ↔ OccursAt pattern t (start + n) := by
  rw [OccursAt, OccursAt, List.length_drop, List.drop_drop]
  refine and_congr_left' ?_
  omega

/-- What is found in the rest of a text is **the first place from there on**. -/
theorem firstFrom_of_indexOf? (hstart : start ≤ t.length)
    (h : indexOf? pattern (t.drop start) = some n) : FirstFrom start pattern t (start + n) := by
  refine ⟨Nat.le_add_right .., (occursAt_drop_iff hstart).1 (occursAt_indexOf? h), ?_⟩
  intro k hk hoccurs
  obtain ⟨j, rfl⟩ := Nat.exists_eq_add_of_le hk
  obtain ⟨m, hm, hle⟩ := indexOf?_le ((occursAt_drop_iff hstart).2 hoccurs)
  obtain rfl : m = n := Option.some.inj (hm.symm.trans h)
  omega

/-- If nothing is found in the rest of a text, the pattern stands **nowhere from there on**. -/
theorem not_occursAt_of_indexOf? (h : indexOf? pattern (t.drop start) = none) {k : Nat}
    (hk : start ≤ k) : ¬OccursAt pattern t k := by
  intro hoccurs
  obtain ⟨j, rfl⟩ := Nat.exists_eq_add_of_le hk
  have hstart : start ≤ t.length := Nat.le_trans hk hoccurs.1
  obtain ⟨m, hm, -⟩ := indexOf?_le ((occursAt_drop_iff hstart).2 hoccurs)
  rw [h] at hm
  cases hm

end Text

end EdnSpans
