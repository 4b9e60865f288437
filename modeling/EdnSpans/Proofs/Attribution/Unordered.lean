/-
**Scalars in sets and maps.**

The children of a set or a map need not stand in the order of the text.  Each is searched behind the
furthest end of what was found of the siblings before it, and if it is not there, once more in the
whole interior.  So a scalar is missed only if its text does not stand in the interior at all, and
whether it is found does not depend on its siblings, in whatever order they are.  Where it is found
does depend on them, through that furthest end and nothing else.

Main definitions:

* `EdnSpans.Text.ChosenFrom` — the first place of a pattern **from an offset on, or else the first
  one at all**;
* `EdnSpans.Attributed.furthest?` — the **furthest end** of what was found of the siblings before a
  child.

Main results:

* `EdnSpans.Window.search_atom` — what a search with a second attempt finds of a scalar;
* `EdnSpans.Form.start_add_cursor` — the search for a child begins at the furthest end of what was
  found of its siblings;
* `EdnSpans.scalars_unordered` — **a scalar is found if it stands in the interior**, and where.
-/
import EdnSpans.Proofs.Attribution.Siblings

set_option relaxedAutoImplicit false
set_option autoImplicit false

namespace EdnSpans

open Text

/-! ### The search for a scalar -/

/-- The pattern stands at the offset `n`: it is the first place of the pattern from `start` on, or,
if there is none, the first one at all. -/
def Text.ChosenFrom (start : Nat) (pattern t : Text) (n : Nat) : Prop :=
  FirstFrom start pattern t n
    ∨ (¬∃ k, start ≤ k ∧ OccursAt pattern t k) ∧ FirstFrom 0 pattern t n

theorem Text.ChosenFrom.occurs {start n : Nat} {pattern t : Text}
    (h : ChosenFrom start pattern t n) : OccursAt pattern t n := by
  rcases h with hfirst | ⟨-, hfirst⟩
  · exact hfirst.occurs
  · exact hfirst.occurs

namespace Window

theorem find?_atom (strategy : Strategy) (s : Scalar) (m : Option Span) (w : Window) :
    w.find? strategy (.atom s m) = (indexOf? s.text w.text).map fun n =>
      ⟨w.span.part (w.offset + n) s.text, w.offset + (n + s.text.length)⟩ := by
  rw [find?_eq_part, Form.locate, Option.map_map]
  refine Option.map_congr ?_
  intro n hn
  have hslice := (occursAt_indexOf? hn).slice_eq
  simp only [Function.comp_apply, Match.between, hslice]

/-- A scalar is found **at its first place from the given offset on, or else at its first place in
the window**, or else nowhere. -/
theorem search_atom {w : Window} {offset : Nat} (hle : w.offset ≤ offset)
    (hlength : offset - w.offset ≤ w.text.length) (strategy : Strategy) (s : Scalar)
    (m : Option Span) :
    let behind := offset - w.offset
    let found := (w.search strategy true offset (.atom s m)).found
    (∃ n stop, found = some ⟨w.span.part (w.offset + n) s.text, stop⟩
        ∧ ChosenFrom behind s.text w.text n)
      ∨ found = none ∧ ¬∃ n, OccursAt s.text w.text n := by
  intro behind found
  have htext : Window.text ⟨w.span, offset⟩ = w.text.drop behind := by
    have hoffset : offset = w.offset + behind := by omega
    rw [text, text, List.drop_drop, ← hoffset]
  have hrest := find?_atom strategy s m ⟨w.span, offset⟩
  rw [htext] at hrest
  cases hindex : indexOf? s.text (w.text.drop behind) with
  | some n =>
      have hfound : found = some ⟨w.span.part (w.offset + (behind + n)) s.text,
          offset + (n + s.text.length)⟩ := by
        have hoffset : w.offset + (behind + n) = offset + n := by omega
        simp only [found, search, hrest, hindex, Option.map_some, hoffset]
      exact .inl ⟨behind + n, _, hfound, .inl (firstFrom_of_indexOf? hlength hindex)⟩
  | none =>
      -- nothing is left to be found behind the siblings
      have hbehind : ¬∃ k, behind ≤ k ∧ OccursAt s.text w.text k := by
        rintro ⟨k, hk, hoccurs⟩
        exact not_occursAt_of_indexOf? hindex hk hoccurs
      by_cases hlt : w.offset < offset
      · have hfound : found = w.find? strategy (.atom s m) := by
          simp only [found, search, hrest, hindex, Option.map_none, hlt, and_self, if_true]
        rw [find?_atom] at hfound
        cases hwhole : indexOf? s.text w.text with
        | some n =>
            rw [hwhole] at hfound
            have hfirst : FirstFrom 0 s.text w.text (0 + n) :=
              firstFrom_of_indexOf? (Nat.zero_le _) hwhole
            rw [Nat.zero_add] at hfirst
            exact .inl ⟨n, _, hfound, .inr ⟨hbehind, hfirst⟩⟩
        | none =>
            rw [hwhole] at hfound
            refine .inr ⟨hfound, ?_⟩
            rintro ⟨k, hoccurs⟩
            exact @not_occursAt_of_indexOf? s.text w.text 0 hwhole k (Nat.zero_le k) hoccurs
      · have hzero : behind = 0 := by omega
        refine .inr ⟨?_, ?_⟩
        · simp only [found, search, hrest, hindex, Option.map_none, hlt, and_false, if_false]
        · rintro ⟨k, hoccurs⟩
          exact hbehind ⟨k, by omega, hoccurs⟩

/-! ### The furthest end of the siblings -/

theorem stop_le_max_of_find? {w : Window} {strategy : Strategy} {f : Form} {found : Found}
    (h : w.find? strategy f = some found) :
    found.stop ≤ max w.offset w.span.source.length := by
  obtain ⟨m, hm, rfl⟩ := Option.map_eq_some_iff.1 h
  obtain ⟨-, -, hstop, -⟩ := Form.locate_bounds hm
  rw [text, List.length_drop] at hstop
  simp only [lift]
  omega

/-- The search never leaves the text of the window. -/
theorem cursor_le (o : Options) (unordered : Bool) (w : Window) {offset : Nat} (cs : List Form)
    (hoffset : offset ≤ max w.offset w.span.source.length) :
    w.cursor o unordered offset cs ≤ max w.offset w.span.source.length := by
  induction cs generalizing offset with
  | nil => exact hoffset
  | cons c cs ih =>
      refine ih ?_
      obtain ⟨hsearched, hfound⟩ := w.search_eq o.strategy unordered offset c
      rcases o.advance_eq offset (w.search o.strategy unordered offset c).found with h | ⟨m, hm, h⟩
      · rw [h]
        exact hoffset
      · rw [h]
        rw [hm] at hfound
        have hstop := stop_le_max_of_find? hfound.symm
        rcases hsearched with heq | heq
        · rw [heq] at hstop
          dsimp only at hstop
          omega
        · rwa [heq] at hstop

end Window

namespace Form

variable {o : Options}

theorem traceChildren_take (window : Option Window) (unordered : Bool) (offset : Nat)
    (cs : List Form) (i : Nat) :
    (traceChildren o window unordered offset cs).take i
      = traceChildren o window unordered offset (cs.take i) := by
  induction cs generalizing offset i with
  | nil => simp [traceChildren]
  | cons c cs ih =>
      cases i with
      | zero => simp [traceChildren]
      | succ i =>
          cases window with
          | none =>
              rw [traceChildren, List.take_succ_cons, List.take_succ_cons, traceChildren, ih]
          | some w =>
              rw [traceChildren, List.take_succ_cons, List.take_succ_cons, traceChildren, ih]

/-- The ends of the spans that are on the given nodes. -/
def stops (fs : List Form) : List Nat := fs.filterMap fun f => f.span.map (·.stop)

/-- The search goes on **at the furthest end of what was found**. -/
theorem start_add_cursor (ho : o.strategy = .sequential) (w : Window) (unordered : Bool)
    (offset : Nat) (cs : List Form) :
    w.span.start + w.cursor o unordered offset cs
      = (stops (traceChildren o (some w) unordered offset cs)).foldl max
          (w.span.start + offset) := by
  induction cs generalizing offset with
  | nil => rfl
  | cons c cs ih =>
      rw [Window.cursor, ih, traceChildren, stops, stops]
      cases hfound : (w.search o.strategy unordered offset c).found with
      | none =>
          rw [List.filterMap_cons_none (by rw [span_trace]; rfl), Options.advance_none]
      | some found =>
          have hstop := Window.stop_eq_of_search hfound
          rw [List.filterMap_cons_some (by rw [span_trace]; rfl), List.foldl_cons,
            Options.advance_sequential ho, ← Nat.add_max_add_left, ← hstop]

end Form

/-- The **furthest end** of the spans of the children before a given one, of the node at a path. -/
def Attributed.furthest? (a : Attributed) (path : NodePath) (i : Nat) : Option Nat :=
  ((List.range i).filterMap fun j => (a.spanAt? (path.child j)).map (·.stop)).max?

theorem Form.filterMap_range_stop (ds : List Form) (i : Nat) :
    ((List.range i).filterMap fun j => ((ds[j]?).bind span).map (·.stop)) = stops (ds.take i) := by
  induction i with
  | zero => rfl
  | succ i ih =>
      rw [List.range_succ, List.filterMap_append, ih, List.take_add_one, stops, stops,
        List.filterMap_append]
      cases hd : ds[i]? with
      | none => simp [hd]
      | some d => simp [List.filterMap_cons, hd]

/-- The search for a child begins **at the furthest end of the spans of its siblings**, or at the
front of the window if none of them was found. -/
theorem Form.cursor_eq_furthest? {o : Options} (ho : o.strategy = .sequential) {f g : Form}
    {seed : Span} {path : NodePath} {w : Window} {unordered : Bool} {cs : List Form}
    (h : (f.trace o (some seed) none).get? path = some g)
    (hchildren : g.children = traceChildren o (some w) unordered w.offset cs) (i : Nat) :
    w.cursor o unordered w.offset (cs.take i) - w.offset
      = ((f.attributeFrom o seed).furthest? path i).getD (w.span.start + w.offset)
        - (w.span.start + w.offset) := by
  have hcursor := start_add_cursor ho w unordered w.offset (cs.take i)
  rw [← traceChildren_take, ← hchildren, List.foldl_max, ← filterMap_range_stop] at hcursor
  simp only [Attributed.furthest?, spanAt?_child h]
  omega

/-! ### Attribution -/

/-- What comes of a scalar among children that need not stand in order. -/
theorem Form.span_atom_traceChildren (o : Options) (w : Window) {cs : List Form} {i : Nat}
    {s : Scalar} {m : Option Span} (hc : cs[i]? = some (.atom s m)) :
    let behind := w.cursor o true w.offset (cs.take i) - w.offset
    let own := ((traceChildren o (some w) true w.offset cs)[i]?).bind span
    (∃ n, own = some (w.span.part (w.offset + n) s.text) ∧ ChosenFrom behind s.text w.text n)
      ∨ own = none ∧ ¬∃ n, OccursAt s.text w.text n := by
  intro behind own
  have hown : own = _ := span_getElem?_traceChildren hc
  have hle := w.le_cursor o true w.offset (cs.take i)
  have hlength : behind ≤ w.text.length := by
    have hbound := w.cursor_le o true (cs.take i) (Nat.le_max_left ..)
    rw [Window.text, List.length_drop]
    omega
  rcases Window.search_atom hle hlength o.strategy s m with
    ⟨n, stop, hfound, hchosen⟩ | ⟨hnone, hnot⟩
  · rw [hfound] at hown
    exact .inl ⟨n, hown, hchosen⟩
  · rw [hnone] at hown
    exact .inr ⟨hown, hnot⟩

/-- Whether a scalar is found among children that need not stand in order **depends on the text
alone**. -/
theorem Form.isSome_span_traceChildren_iff (o : Options) (w : Window) {cs : List Form} {i : Nat}
    {s : Scalar} {m : Option Span} (hc : cs[i]? = some (.atom s m)) :
    (((traceChildren o (some w) true w.offset cs)[i]?).bind span).isSome ↔ s.text <:+: w.text := by
  rw [isInfix_iff_exists_occursAt]
  rcases span_atom_traceChildren o w hc with ⟨n, hown, hchosen⟩ | ⟨hnone, hnot⟩
  · rw [hown]
    exact iff_of_true rfl ⟨n, hchosen.occurs⟩
  · rw [hnone]
    exact iff_of_false (by simp) hnot

/-- **A scalar in a set or a map is found if its text stands in the interior**: at its first place
from the furthest end of the siblings found before it, or else at its first place in the interior.
So whether it is found is the same whatever its siblings are, and in whatever order. -/
theorem scalars_unordered (policy : Unmatched) (firstLine : Nat) (f : Form) (seed : Span)
    {path : NodePath} {kind : Kind} {cs : List Form} {m : Option Span} {whole : Span}
    (hnode : f.get? path = some (.node kind cs m)) (hkind : kind = .set ∨ kind = .map)
    (hwhole : (f.attributeFrom ⟨.sequential, policy, firstLine⟩ seed).spanAt? path = some whole)
    {i : Nat} {s : Scalar} {n : Option Span} (hchild : cs[i]? = some (.atom s n)) :
    let o : Options := ⟨.sequential, policy, firstLine⟩
    let out := f.attributeFrom o seed
    let interior := whole.source.drop kind.opener.length
    let front := whole.start + kind.opener.length
    let behind := (out.furthest? path i).getD front - front
    ((out.spanAt? (path.child i)).isSome ↔ s.text <:+: interior)
      ∧ (∀ r, out.spanAt? (path.child i) = some r →
          ∃ k, r = whole.part (kind.opener.length + k) s.text
            ∧ ChosenFrom behind s.text interior k)
      ∧ ∀ (ds : List Form) (j : Nat) (n' : Option Span), ds[j]? = some (.atom s n') →
          let out' := (f.withChildrenAt ds path).attributeFrom o seed
          out'.spanAt? path = some whole
            ∧ ((out'.spanAt? (path.child j)).isSome ↔ (out.spanAt? (path.child i)).isSome) := by
  intro o out interior front behind
  obtain ⟨own, outer, htrace⟩ :=
    Form.exists_trace_withChildrenAt (o := o) hnode (some seed) none
  have hself := htrace cs
  rw [Form.withChildrenAt_self hnode] at hself
  have hown := Form.spanAt?_of_get?_trace hself
  rw [Form.span_trace, hwhole] at hown
  subst hown
  -- whatever its children are, they are searched in the interior
  let w : Window := ⟨whole, kind.opener.length⟩
  have hunordered : kind.isUnordered = true := by
    rcases hkind with rfl | rfl
    · rfl
    · rfl
  have hchildren (ds : List Form) : ((Form.node kind ds m).trace o (some whole) outer).children
      = Form.traceChildren o (some w) true w.offset ds := by
    rw [Form.trace, Form.children, hunordered]
    rfl
  have hspan (ds : List Form) (j : Nat) :
      ((f.withChildrenAt ds path).attributeFrom o seed).spanAt? (path.child j)
        = ((Form.traceChildren o (some w) true w.offset ds)[j]?).bind Form.span := by
    rw [Form.spanAt?_child (htrace ds), hchildren]
  have hspan_self := hspan cs i
  rw [Form.withChildrenAt_self hnode] at hspan_self
  have hiff : (out.spanAt? (path.child i)).isSome ↔ s.text <:+: interior := by
    rw [hspan_self]
    exact Form.isSome_span_traceChildren_iff o w hchild
  refine ⟨hiff, ?_, ?_⟩
  · intro r hr
    have hbehind := Form.cursor_eq_furthest? rfl hself (hchildren cs) i
    rw [hspan_self] at hr
    rcases Form.span_atom_traceChildren o w hchild with ⟨k, hown, hchosen⟩ | ⟨hnone, -⟩
    · rw [hbehind] at hchosen
      exact ⟨k, Option.some.inj (hr.symm.trans hown), hchosen⟩
    · rw [hnone] at hr
      cases hr
  · intro ds j n' hj
    refine ⟨?_, ?_⟩
    · rw [Form.spanAt?_of_get?_trace (htrace ds), Form.span_trace]
    · rw [hiff, hspan]
      exact Form.isSome_span_traceChildren_iff o w hj

/-- The second symbol of a set stands before the first one, and is found in the second attempt; the
third one is not found, whatever the order. -/
theorem scalars_unordered_second_attempt :
    let a : Form := .atom (.symbol ['a']) none
    let b : Form := .atom (.symbol ['b']) none
    let c : Form := .atom (.symbol ['c']) none
    let f : Form := .node .vector [.node .set [a, b, c] none] none
    let seed : Span := Span.seed "[#\x7bb a\x7d]".toList 1 10
    let whole : Span := ⟨"#\x7bb a\x7d".toList, 1, 1, 11, 17⟩
    let interior : Text := "b a\x7d".toList
    let out := f.attributeFrom ⟨.sequential, .stop, 1⟩ seed
    let out' := (f.withChildrenAt [c, b, a] [0]).attributeFrom ⟨.sequential, .stop, 1⟩ seed
    out.spanAt? [0] = some whole ∧ out.furthest? [0] 1 = some 16
      ∧ out.spanAt? [0, 1] = some ⟨['b'], 1, 1, 13, 14⟩ ∧ ['b'] <:+: interior
      ∧ (∃ k, ⟨['b'], 1, 1, 13, 14⟩ = whole.part (2 + k) ['b'] ∧ ChosenFrom 3 ['b'] interior k)
      ∧ (out'.spanAt? [0, 1]).isSome ∧ ¬['c'] <:+: interior ∧ out'.spanAt? [0, 0] = none := by
  intro a b c f seed whole interior out out'
  have hwhole : out.spanAt? [0] = some whole := by decide +kernel
  have hfurthest : out.furthest? [0] 1 = some 16 := by decide +kernel
  have hb : out.spanAt? [0, 1] = some ⟨['b'], 1, 1, 13, 14⟩ := by decide +kernel
  have hc : out.spanAt? [0, 2] = none := by decide +kernel
  have hsecond :=
    @scalars_unordered .stop 1 f seed [0] .set _ _ whole rfl (.inl rfl) hwhole 1 _ _ rfl
  have hthird :=
    @scalars_unordered .stop 1 f seed [0] .set _ _ whole rfl (.inl rfl) hwhole 2 _ _ rfl
  obtain ⟨hfound, hplace, horder⟩ := hsecond
  obtain ⟨hmissing, -, hmissing'⟩ := hthird
  have hb' : (out.spanAt? [0, 1]).isSome := by rw [hb]; rfl
  have hc' : ¬(out.spanAt? [0, 2]).isSome := by rw [hc]; simp
  have hchosen := hplace _ hb
  rw [hfurthest] at hchosen
  refine ⟨hwhole, hfurthest, hb, hfound.1 hb', hchosen, ?_, ?_, ?_⟩
  · exact (horder [c, b, a] 1 none rfl).2.2 hb'
  · intro hinfix
    exact hc' (hmissing.2 hinfix)
  · have hnot := (not_congr (hmissing' [c, b, a] 0 none rfl).2).2 hc'
    exact Option.not_isSome_iff_eq_none.1 hnot

end EdnSpans
