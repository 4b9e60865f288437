/-
**What a locator has to do, and what the strategies have in common.**

Where a form stands in a text can be said without a word about searching.  A scalar stands where its
text first stands.  A collection stands where the opener of its kind first stands, and an opener that
is the tail of a longer one does not count; from there it extends through a closer of its kind.  With
the first strategy this is the first closer there is, and if there is none the form is not found,
even if there are more openers further on.

With the other strategy the end is found by counting delimiters, and little can be said of it in a
text that is not balanced.  But the scan can stop only behind a closer of the right kind.  So the
first closer cannot be further on, and the match of the first strategy is always the front of the
other one, or all of it if no closer stands inside.

Main definitions:

* `EdnSpans.Kind.StartsAt`, `EdnSpans.Kind.StartsFirst` — an opener that counts, and the first one;
* `EdnSpans.Strategy.Locates` — **what a locator has to do**.

Main results:

* `EdnSpans.openerIndex?_eq_some_iff`, `EdnSpans.openerIndex?_eq_none_iff` — the first opener that
  counts is found, if there is one;
* `EdnSpans.balancedLength?_splits`, `EdnSpans.closerLength?_splits` — a collection ends behind a
  closer;
* `EdnSpans.Form.locate_node_splits` — the opener, the interior and the closer of a match;
* `EdnSpans.locates_everywhere` — **the locator does what it has to**, and no text is too wide for
  it: searched byte by byte, it gives the same answer;
* `EdnSpans.first_within_sequential` — **the match of the first strategy is the front of the other**.
-/
import EdnSpans.Proofs.Locate.ByBytes

set_option relaxedAutoImplicit false
set_option autoImplicit false

namespace EdnSpans

open Text

/-! ### Openers -/

namespace Kind

/-- The opener of the kind stands at the offset, and that of a map **not directly behind a number
sign**. -/
def StartsAt (kind : Kind) (t : Text) (n : Nat) : Prop :=
  OccursAt kind.opener t n ∧ (kind = .map → ¬['#'] <:+ t.take n)

/-- No opener of the kind that counts is further left. -/
def StartsFirst (kind : Kind) (t : Text) (n : Nat) : Prop :=
  kind.StartsAt t n ∧ ∀ k, kind.StartsAt t k → n ≤ k

theorem startsAt_iff {kind : Kind} {t : Text} {n : Nat} :
    kind.StartsAt t n ↔ kind.OpensAt none t n := by
  rw [opensAt_none_iff, StartsAt]
  cases kind <;> simp [shadowedBy]

end Kind

/-- **The first opener that counts** is found. -/
theorem openerIndex?_eq_some_iff {kind : Kind} {t : Text} {n : Nat} :
    openerIndex? kind none t = some n ↔ kind.StartsFirst t n := by
  constructor
  · intro h
    refine ⟨Kind.startsAt_iff.2 (opensAt_openerIndex? h), ?_⟩
    intro k hk
    obtain ⟨m, hm, hle⟩ := openerIndex?_le (Kind.startsAt_iff.1 hk)
    obtain rfl : m = n := Option.some.inj (hm.symm.trans h)
    exact hle
  · rintro ⟨hstarts, hleast⟩
    obtain ⟨m, hm, hle⟩ := openerIndex?_le (Kind.startsAt_iff.1 hstarts)
    have hge := hleast m (Kind.startsAt_iff.2 (opensAt_openerIndex? hm))
    rw [hm, Nat.le_antisymm hle hge]

theorem openerIndex?_eq_none_iff {kind : Kind} {t : Text} :
    openerIndex? kind none t = none ↔ ¬∃ n, kind.StartsAt t n := by
  constructor
  · rintro h ⟨n, hn⟩
    obtain ⟨m, hm, -⟩ := openerIndex?_le (Kind.startsAt_iff.1 hn)
    rw [h] at hm
    cases hm
  · intro h
    cases hindex : openerIndex? kind none t with
    | none => rfl
    | some n => exact absurd ⟨n, (openerIndex?_eq_some_iff.1 hindex).1⟩ h

/-! ### Closers -/

/-- The scan can stop **only behind a closer of the right kind**. -/
theorem balancedLength?_splits {close : Char} {mode : Mode} {depth n : Nat} {t : Text}
    (h : balancedLength? close mode depth t = some n) :
    ∃ inside rest, t = inside ++ close :: rest ∧ n = inside.length + 1 := by
  induction t generalizing mode depth n with
  | nil => simp [balancedLength?] at h
  | cons c t ih =>
      have step {mode' : Mode} {depth' : Nat}
          (h' : (balancedLength? close mode' depth' t).map (· + 1) = some n) :
          ∃ inside rest, c :: t = inside ++ close :: rest ∧ n = inside.length + 1 := by
        obtain ⟨m, hm, rfl⟩ := Option.map_eq_some_iff.1 h'
        obtain ⟨inside, rest, rfl, rfl⟩ := ih hm
        exact ⟨c :: inside, rest, rfl, rfl⟩
      unfold balancedLength? at h
      split at h
      · exact step h
      · split at h
        · split at h
          · split at h
            · next hclose =>
                cases h
                exact ⟨[], t, by rw [hclose]; rfl, rfl⟩
            · cases h
          · exact step h
        · exact step h

/-- The first closer is the one that **has none before it**. -/
theorem indexOf?_singleton {c : Char} {inside : Text} (h : c ∉ inside) (rest : Text) :
    indexOf? [c] (inside ++ c :: rest) = some inside.length := by
  induction inside with
  | nil => simp [indexOf?]
  | cons d inside ih =>
      obtain ⟨hne, hinside⟩ : c ≠ d ∧ c ∉ inside := by simpa using h
      have hfront : ¬[c].isPrefixOf (d :: (inside ++ c :: rest)) := by
        intro hprefix
        rw [List.isPrefixOf_iff_prefix, List.cons_prefix_cons] at hprefix
        exact hne hprefix.1
      rw [List.cons_append, indexOf?, if_neg hfront, ih hinside]
      rfl

/-- A collection ends **behind a closer**, with either strategy. -/
theorem closerLength?_splits {strategy : Strategy} {kind : Kind} {interior : Text} {n : Nat}
    (h : closerLength? strategy kind interior = some n) :
    ∃ inside rest, interior = inside ++ kind.closer.char :: rest ∧ n = inside.length + 1 := by
  cases strategy with
  | first =>
      obtain ⟨i, hi, rfl⟩ := Option.map_eq_some_iff.1 h
      obtain ⟨hle, rest, hrest⟩ := occursAt_indexOf? hi
      refine ⟨interior.take i, rest, ?_, ?_⟩
      · rw [← List.singleton_append, hrest, List.take_append_drop]
      · rw [List.length_take, Nat.min_eq_left hle]
  | sequential => exact balancedLength?_splits h

/-! ### Matches of collections -/

namespace Form

variable {strategy : Strategy} {kind : Kind} {cs : List Form} {span : Option Span} {t : Text}

theorem locate_node_eq_some {m : Match}
    (h : (Form.node kind cs span).locate strategy t = some m) :
    openerIndex? kind none t = some m.start
      ∧ ∃ n, closerLength? strategy kind (t.drop (m.start + kind.opener.length)) = some n
        ∧ m = .between t m.start (m.start + kind.opener.length + n) := by
  obtain ⟨start, hstart, hend⟩ := Option.bind_eq_some_iff.1 h
  obtain ⟨n, hn, rfl⟩ := Option.map_eq_some_iff.1 hend
  exact ⟨hstart, n, hn, rfl⟩

/-- The match of a collection is **its opener, an interior and its closer**. -/
theorem locate_node_splits {m : Match}
    (h : (Form.node kind cs span).locate strategy t = some m) :
    ∃ inside rest, t.drop (m.start + kind.opener.length) = inside ++ kind.closer.char :: rest
      ∧ m.stop = m.start + kind.opener.length + (inside.length + 1)
      ∧ m.text = kind.opener ++ (inside ++ [kind.closer.char]) := by
  obtain ⟨hstart, n, hn, hm⟩ := locate_node_eq_some h
  obtain ⟨inside, rest, hinterior, rfl⟩ := closerLength?_splits hn
  refine ⟨inside, rest, hinterior, congrArg Match.stop hm, ?_⟩
  have hoccurs := (opensAt_openerIndex? hstart).1
  -- the text from the opener on is the opener and the interior, the closer and what follows it
  obtain ⟨behind, hbehind⟩ := hoccurs.2
  have hdrop : behind = inside ++ kind.closer.char :: rest := by
    rw [← hinterior, ← List.drop_drop, ← hbehind, List.drop_left]
  have htext : m.text = slice t m.start (m.start + kind.opener.length + (inside.length + 1)) :=
    congrArg Match.text hm
  rw [htext, slice, ← hbehind, hdrop, Nat.add_assoc, Nat.add_sub_cancel_left,
    List.take_length_add_append]
  congr 1
  rw [List.take_length_add_append]
  rfl

/-- With the first strategy the end of the match is **behind the first closer there is**. -/
theorem firstFrom_of_locate_node {m : Match}
    (h : (Form.node kind cs span).locate .first t = some m) :
    ∃ k, FirstFrom (m.start + kind.opener.length) [kind.closer.char] t k ∧ m.stop = k + 1 := by
  obtain ⟨hstart, n, hn, hm⟩ := locate_node_eq_some h
  obtain ⟨i, hi, rfl⟩ := Option.map_eq_some_iff.1 hn
  have hbody := (opensAt_openerIndex? hstart).1.add_length_le
  exact ⟨_, firstFrom_of_indexOf? hbody hi, congrArg Match.stop hm⟩

/-- With the first strategy **the first opener decides**: without a closer behind it there is no
match. -/
theorem locate_node_first_eq_none_iff :
    (Form.node kind cs span).locate .first t = none
      ↔ (¬∃ n, kind.StartsAt t n)
        ∨ ∃ n, kind.StartsFirst t n
          ∧ ¬∃ k, n + kind.opener.length ≤ k ∧ OccursAt [kind.closer.char] t k := by
  have hlocate : (Form.node kind cs span).locate .first t = none
      ↔ ∀ n, openerIndex? kind none t = some n →
          indexOf? [kind.closer.char] (t.drop (n + kind.opener.length)) = none := by
    rw [locate, Option.bind_eq_none_iff]
    simp only [closerLength?, Option.map_eq_none_iff]
  rw [hlocate]
  constructor
  · intro hnone
    cases hindex : openerIndex? kind none t with
    | none => exact .inl (openerIndex?_eq_none_iff.1 hindex)
    | some n =>
        refine .inr ⟨n, openerIndex?_eq_some_iff.1 hindex, ?_⟩
        rintro ⟨k, hk, hoccurs⟩
        exact not_occursAt_of_indexOf? (hnone n hindex) hk hoccurs
  · intro hmissed n hindex
    rcases hmissed with hnowhere | ⟨m, hfirst, hnoCloser⟩
    · rw [openerIndex?_eq_none_iff.2 hnowhere] at hindex
      cases hindex
    · obtain rfl : m = n :=
        Option.some.inj ((openerIndex?_eq_some_iff.2 hfirst).symm.trans hindex)
      have hbody := hfirst.1.1.add_length_le
      cases hcloser : indexOf? [kind.closer.char] (t.drop (m + kind.opener.length)) with
      | none => rfl
      | some i =>
          have hplace := firstFrom_of_indexOf? hbody hcloser
          exact absurd ⟨_, hplace.start_le, hplace.occurs⟩ hnoCloser

/-! ### Matches of scalars -/

variable {s : Scalar}

/-- A scalar is found **where its text first stands**, with either strategy. -/
theorem firstFrom_of_locate_atom {m : Match} (h : (Form.atom s span).locate strategy t = some m) :
    m.text = s.text ∧ FirstFrom 0 s.text t m.start := by
  obtain ⟨n, hn, rfl⟩ := Option.map_eq_some_iff.1 h
  have hfirst : FirstFrom 0 s.text t (0 + n) := firstFrom_of_indexOf? (Nat.zero_le _) hn
  rw [Nat.zero_add] at hfirst
  exact ⟨hfirst.occurs.slice_eq, hfirst⟩

theorem locate_atom_eq_none_iff :
    (Form.atom s span).locate strategy t = none ↔ ¬s.text <:+: t := by
  rw [locate, Option.map_eq_none_iff, isInfix_iff_exists_occursAt]
  constructor
  · rintro hnone ⟨n, hoccurs⟩
    obtain ⟨m, hm, -⟩ := indexOf?_le hoccurs
    rw [hnone] at hm
    cases hm
  · intro hnowhere
    cases hindex : indexOf? s.text t with
    | none => rfl
    | some n => exact absurd ⟨n, occursAt_indexOf? hindex⟩ hnowhere

end Form

/-! ### What a locator has to do -/

/-- What a locator of forms has to do in a text. -/
structure Strategy.Locates (strategy : Strategy) (t : Text) (locate : Form → Option Match) :
    Prop where
  /-- A match is a piece of the text. -/
  piece : ∀ f m, locate f = some m →
    m.text = slice t m.start m.stop ∧ m.stop = m.start + m.text.length ∧ m.stop ≤ t.length
  /-- A scalar is found where its text first stands. -/
  scalar : ∀ s span m, locate (.atom s span) = some m →
    m.text = s.text ∧ FirstFrom 0 s.text t m.start
  /-- It is missed only if its text stands nowhere. -/
  scalarMissed : ∀ s span, locate (.atom s span) = none ↔ ¬s.text <:+: t
  /-- A collection begins with the first opener of its kind that counts. -/
  opener : ∀ kind cs span m, locate (.node kind cs span) = some m → kind.StartsFirst t m.start
  /-- It has its delimiters at its ends. -/
  delimited : ∀ kind cs span m, locate (.node kind cs span) = some m →
    ∃ inside, m.text = kind.opener ++ (inside ++ [kind.closer.char])
  /-- With the first strategy it ends with the first closer behind its opener. -/
  closer : strategy = .first → ∀ kind cs span m, locate (.node kind cs span) = some m →
    ∃ k, FirstFrom (m.start + kind.opener.length) [kind.closer.char] t k ∧ m.stop = k + 1
  /-- It is missed then only if there is no opener that counts, or no closer behind the first one. -/
  collectionMissed : strategy = .first → ∀ kind cs span,
    locate (.node kind cs span) = none
      ↔ (¬∃ n, kind.StartsAt t n)
        ∨ ∃ n, kind.StartsFirst t n
          ∧ ¬∃ k, n + kind.opener.length ≤ k ∧ OccursAt [kind.closer.char] t k

/-- **The locator does what it has to**, in every text and with either strategy.  And if the text is
searched and cut by its bytes, no cut is inside a character, whatever characters the text has: the
answer is the same. -/
theorem locates_everywhere (strategy : Strategy) (t : Text) :
    strategy.Locates t (fun f => f.locate strategy t)
      ∧ ∀ f : Form, f.locateByBytes? strategy t = some (f.locate strategy t) := by
  refine ⟨?_, fun f => f.locateByBytes?_eq strategy t⟩
  constructor
  · intro f m hm
    obtain ⟨hbetween, hle, hstop, -⟩ := Form.locate_bounds hm
    have hlength := Form.length_of_locate hm
    refine ⟨congrArg Match.text hbetween, ?_, hstop⟩
    omega
  · intro s span m hm
    exact Form.firstFrom_of_locate_atom hm
  · intro s span
    exact Form.locate_atom_eq_none_iff
  · intro kind cs span m hm
    exact openerIndex?_eq_some_iff.1 (Form.locate_node_eq_some hm).1
  · intro kind cs span m hm
    obtain ⟨inside, -, -, -, htext⟩ := Form.locate_node_splits hm
    exact ⟨inside, htext⟩
  · rintro rfl kind cs span m hm
    exact Form.firstFrom_of_locate_node hm
  · rintro rfl kind cs span
    exact Form.locate_node_first_eq_none_iff

/-! ### The strategies compared -/

/-- The first closer is **not behind any other**, and is that one if none stands before it. -/
theorem closerLength?_first_le {kind : Kind} {inside rest : Text} :
    ∃ n, closerLength? .first kind (inside ++ kind.closer.char :: rest) = some n
      ∧ n ≤ inside.length + 1 ∧ (kind.closer.char ∉ inside → n = inside.length + 1) := by
  by_cases hmem : kind.closer.char ∈ inside
  · obtain ⟨front, back, rfl, hfront⟩ := List.eq_append_cons_of_mem hmem
    refine ⟨front.length + 1, ?_, ?_, fun hnone => absurd hmem hnone⟩
    · rw [closerLength?, List.append_assoc, List.cons_append, indexOf?_singleton hfront,
        Option.map_some]
    · rw [List.length_append]
      omega
  · refine ⟨inside.length + 1, ?_, Nat.le_refl _, fun _ => rfl⟩
    rw [closerLength?, indexOf?_singleton hmem, Option.map_some]

/-- What stands between the delimiters of a match, if it is one of a collection of the kind. -/
def Match.interior (kind : Kind) (m : Match) : Text :=
  slice m.text kind.opener.length (m.text.length - 1)

theorem Match.interior_eq {kind : Kind} {m : Match} {inside : Text}
    (h : m.text = kind.opener ++ (inside ++ [kind.closer.char])) : m.interior kind = inside := by
  have hlength : m.text.length - 1 = kind.opener.length + inside.length := by
    rw [h, List.length_append, List.length_append, List.length_singleton]
    omega
  rw [interior, hlength, h]
  exact slice_middle ..

/-- **The match of the first strategy is the front of the other one**: it begins at the same place
and ends no later, and it is the same if no closer stands between the delimiters.  For scalars the
strategies do not differ. -/
theorem first_within_sequential (t : Text) :
    (∀ kind cs span m, (Form.node kind cs span).locate .sequential t = some m →
        ∃ m', (Form.node kind cs span).locate .first t = some m'
          ∧ m'.start = m.start ∧ m'.stop ≤ m.stop ∧ m'.text <+: m.text
          ∧ (kind.closer.char ∉ m.interior kind → m' = m))
      ∧ ∀ s span, (Form.atom s span).locate .sequential t = (Form.atom s span).locate .first t := by
  refine ⟨?_, fun s span => rfl⟩
  intro kind cs span m hm
  have hstart := (Form.locate_node_eq_some hm).1
  obtain ⟨hbetween, -, -, -⟩ := Form.locate_bounds hm
  obtain ⟨inside, rest, hinterior, hstop, htext⟩ := Form.locate_node_splits hm
  obtain ⟨n, hn, hle, hsame⟩ := @closerLength?_first_le kind inside rest
  refine ⟨.between t m.start (m.start + kind.opener.length + n), ?_, rfl, ?_, ?_, ?_⟩
  · simp only [Form.locate, hstart, Option.bind_some, hinterior, hn, Option.map_some]
  · rw [hstop]
    exact Nat.add_le_add_left hle _
  · have hpiece : m.text = slice t m.start m.stop := congrArg Match.text hbetween
    rw [hpiece, hstop]
    refine List.take_prefix_take_left ?_
    omega
  · intro hnone
    rw [Match.interior_eq htext] at hnone
    rw [hsame hnone, ← hstop, ← hbetween]

/-- A list with another one inside, where the strategies differ, and one in which a closer of another
kind stands, where they do not. -/
theorem first_within_sequential_nested :
    let list : Form := .node .list [] none
    let nested := "(a (b) c)".toList
    let plain := " (a [b])".toList
    (list.locate .sequential nested = some ⟨nested, 0, 9⟩
        ∧ ∃ m', list.locate .first nested = some m' ∧ m'.start = 0 ∧ m'.stop ≤ 9
          ∧ m'.text <+: nested)
      ∧ list.locate .sequential plain = some ⟨"(a [b])".toList, 1, 8⟩
      ∧ list.locate .first plain = some ⟨"(a [b])".toList, 1, 8⟩ := by
  intro list nested plain
  have hnested : list.locate .sequential nested = some ⟨nested, 0, 9⟩ := by decide +kernel
  have hplain : list.locate .sequential plain = some ⟨"(a [b])".toList, 1, 8⟩ := by decide +kernel
  obtain ⟨m', hm', hstart, hstop, hfront, -⟩ :=
    (first_within_sequential nested).1 .list [] none _ hnested
  obtain ⟨m'', hm'', -, -, -, hsame⟩ := (first_within_sequential plain).1 .list [] none _ hplain
  refine ⟨⟨hnested, m', hm', hstart, hstop, hfront⟩, hplain, ?_⟩
  rw [← hsame (by decide +kernel)]
  exact hm''

end EdnSpans
