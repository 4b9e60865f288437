/-
**What holds along a trace.**

The spans of a tree are found on the way down and from left to right, and each search takes place in
a window that earlier searches have left behind.  So a property of all spans is proved the way an
invariant is: it is enough to say what is true of the windows, and that a single search in such a
window finds a span with the property and leaves behind windows of the same sort.

The window in which a node is searched is always one of the nearest span above it, however many
nodes without a span lie between.  So the property may also relate a span to that one.

Main definitions:

* `EdnSpans.Form.Everywhere` — something is true of all spans in a tree;
* `EdnSpans.Form.above?`, `EdnSpans.Form.Nested` — the nearest span above a node, and something that
  is true of **every span and the nearest one above it**;
* `EdnSpans.Options.Sustains` — one search finds what it should and **keeps the windows as they
  were**.

Main results:

* `EdnSpans.Window.search_eq` — what the search for a child finds and where it looked;
* `EdnSpans.Options.Sustains.search` — what the search for a child leaves behind;
* `EdnSpans.Form.traceChildren_nested`, `EdnSpans.Form.trace_nested` — what one search sustains is
  true of every span below the root and the nearest one above it;
* `EdnSpans.Form.trace_everywhere` — the same for a property of single spans;
* `EdnSpans.Form.exists_trace_of_get?` — every node of a trace has a trace of its own.
-/
import EdnSpans.Proofs.Attribution.Lookup

set_option relaxedAutoImplicit false
set_option autoImplicit false

namespace EdnSpans

/-! ### All spans of a tree -/

namespace Form

/-- Every span on a node of the tree has the property. -/
def Everywhere (P : Span → Prop) (f : Form) : Prop :=
  f.Throughout fun g => ∀ r, g.span = some r → P r

/-- The nearest span above the node at a path, where the nearest one above the root is `best`. -/
def above? (best : Option Span) (f : Form) : NodePath → Option Span
  | [] => best
  | i :: path => (f.children[i]?).bind fun c => c.above? (f.span.or best) path

/-- Every span on a node of the tree is related to the nearest one above it. -/
def Nested (P : Span → Span → Prop) (best : Option Span) (f : Form) : Prop :=
  ∀ path g r, f.get? path = some g → g.span = some r →
    ∃ outer, f.above? best path = some outer ∧ P outer r

theorem nested_iff {P : Span → Span → Prop} {best : Option Span} {f : Form} :
    f.Nested P best ↔ (∀ r, f.span = some r → ∃ outer, best = some outer ∧ P outer r)
      ∧ ∀ c ∈ f.children, c.Nested P (f.span.or best) := by
  constructor
  · intro h
    refine ⟨fun r hr => h [] f r rfl hr, fun c hc path g r hget hr => ?_⟩
    obtain ⟨i, hi⟩ := List.getElem?_of_mem hc
    have hget' : f.get? (i :: path) = some g := by rw [get?_cons, hi, Option.bind_some, hget]
    obtain ⟨outer, houter, hP⟩ := h (i :: path) g r hget' hr
    rw [above?, hi] at houter
    exact ⟨outer, houter, hP⟩
  · rintro ⟨hroot, hchildren⟩ path g r hget hr
    cases path with
    | nil =>
        cases hget
        exact hroot r hr
    | cons i path =>
        obtain ⟨c, hc, hget⟩ := Option.bind_eq_some_iff.1 hget
        obtain ⟨outer, houter, hP⟩ := hchildren c (List.mem_of_getElem? hc) path g r hget hr
        exact ⟨outer, by rw [above?, hc, Option.bind_some, houter], hP⟩

@[simp] theorem span_trace (o : Options) (own : Option Span) (outer : Option Window) (f : Form) :
    (f.trace o own outer).span = own := by
  cases f with
  | atom s m => rw [trace, span]
  | node k cs m => rw [trace, span]

end Form

/-! ### One search -/

/-- A child is searched behind its siblings or in the whole window, and what is found is found in
the window that was searched last. -/
theorem Window.search_eq (strategy : Strategy) (unordered : Bool) (offset : Nat) (f : Form)
    (w : Window) :
    let finding := w.search strategy unordered offset f
    (finding.searched = ⟨w.span, offset⟩ ∨ finding.searched = w)
      ∧ finding.found = finding.searched.find? strategy f := by
  simp only [search]
  split
  · next found hfound => exact ⟨.inl rfl, hfound.symm⟩
  · next hnone =>
      split
      · exact ⟨.inr rfl, rfl⟩
      · exact ⟨.inl rfl, hnone.symm⟩

theorem Options.advance_eq (o : Options) (offset : Nat) (found : Option Found) :
    o.advance offset found = offset ∨ ∃ m, found = some m ∧ o.advance offset found = m.stop := by
  simp only [advance]
  split
  · next m _ =>
      rcases Nat.le_total offset m.stop with h | h
      · exact .inr ⟨m, rfl, Nat.max_eq_right h⟩
      · exact .inl (Nat.max_eq_left h)
  · exact .inl rfl

/-- A search in a window with the property `I` finds spans that are related by `P` to the window's
span, and the windows it leaves behind, for later siblings and for children, have the property `I`
again. -/
structure Options.Sustains (o : Options) (I : Window → Prop) (P : Span → Span → Prop) : Prop where
  span {w : Window} {f : Form} {found : Found} :
    I w → w.find? o.strategy f = some found → P w.span found.span
  behind {w : Window} {f : Form} {found : Found} :
    I w → w.find? o.strategy f = some found → I ⟨w.span, found.stop⟩
  inside {w : Window} {f : Form} {found : Found} {kind : Kind} :
    I w → w.find? o.strategy f = some found → f.kind? = some kind →
      I ⟨found.span, o.interior kind⟩

theorem Options.Sustains.and {o : Options} {I J : Window → Prop} {P Q : Span → Span → Prop}
    (h : o.Sustains I P) (h' : o.Sustains J Q) :
    o.Sustains (fun w => I w ∧ J w) fun outer r => P outer r ∧ Q outer r where
  span hw hfind := ⟨h.span hw.1 hfind, h'.span hw.2 hfind⟩
  behind hw hfind := ⟨h.behind hw.1 hfind, h'.behind hw.2 hfind⟩
  inside hw hfind hkind := ⟨h.inside hw.1 hfind hkind, h'.inside hw.2 hfind hkind⟩

/-- The search for one child: what is found is related to the window's span, and **the window of its
children and the window of its next sibling** have the property.  The window of its children is one
of the nearest span above them. -/
theorem Options.Sustains.search {o : Options} {I : Window → Prop} {P : Span → Span → Prop}
    (ho : o.Sustains I P) {w : Window} {offset : Nat} (hw : I w) (hrest : I ⟨w.span, offset⟩)
    (unordered : Bool) (c : Form) :
    let finding := w.search o.strategy unordered offset c
    let own := finding.found.map (·.span)
    (∀ r, own = some r → P w.span r)
      ∧ (∀ kind v, c.kind? = some kind → o.inner kind own (some finding.searched) = some v →
          I v ∧ own.or (some w.span) = some v.span)
      ∧ I ⟨w.span, o.advance offset finding.found⟩ := by
  obtain ⟨hsearched, hfound⟩ := w.search_eq o.strategy unordered offset c
  generalize w.search o.strategy unordered offset c = finding at hsearched hfound ⊢
  -- whether or not the search began again, it took place in a window with the property
  have hI : I finding.searched := by
    rcases hsearched with h | h
    · rwa [h]
    · rwa [h]
  have hspan : finding.searched.span = w.span := by
    rcases hsearched with h | h
    · rw [h]
    · rw [h]
  refine ⟨?_, ?_, ?_⟩
  · intro r hr
    obtain ⟨m, hm, rfl⟩ := Option.map_eq_some_iff.1 hr
    exact hspan ▸ ho.span hI (hfound ▸ hm)
  · intro kind v hkind hinner
    cases hm : finding.found with
    | some m =>
        rw [hm] at hinner
        cases hinner
        exact ⟨ho.inside hI (hfound ▸ hm) hkind, rfl⟩
    | none =>
        rw [hm] at hinner
        cases hpolicy : o.unmatched <;> simp [Options.inner, hpolicy] at hinner
        exact hinner ▸ ⟨hI, congrArg some hspan.symm⟩
  · rcases o.advance_eq offset finding.found with h | ⟨m, hm, h⟩
    · rwa [h]
    · rw [h, ← hspan]
      exact ho.behind hI (hfound ▸ hm)

/-! ### The whole trace -/

namespace Form

variable {o : Options} {I : Window → Prop} {P : Span → Span → Prop}

/-- The step from the children to their parent: siblings are traced one after the other, all in
windows of the nearest span above them. -/
theorem traceChildren_nested (ho : o.Sustains I P) {cs : List Form}
    (ih : ∀ c ∈ cs, ∀ own outer best,
      (∀ kind w, c.kind? = some kind → o.inner kind own outer = some w →
        I w ∧ own.or best = some w.span) →
      ∀ d ∈ (c.trace o own outer).children, d.Nested P (own.or best))
    {window : Option Window} {best : Option Span} {unordered : Bool} {offset : Nat}
    (hwindow : ∀ w, window = some w → (I w ∧ best = some w.span) ∧ I ⟨w.span, offset⟩) :
    ∀ d ∈ traceChildren o window unordered offset cs, d.Nested P best := by
  induction cs generalizing offset with
  | nil => simp [traceChildren]
  | cons c cs ihcs =>
      have ihc := ih c (List.mem_cons_self ..)
      replace ihcs := @ihcs fun d hd => ih d (List.mem_cons_of_mem _ hd)
      cases window with
      -- without a window nothing is found, here or further down
      | none =>
          rw [traceChildren]
          have htail := ihcs hwindow
          refine List.forall_mem_cons.2 ⟨nested_iff.2 ⟨by simp, ?_⟩, htail⟩
          rw [span_trace]
          refine ihc none none best ?_
          intro kind w _ hinner
          cases hpolicy : o.unmatched <;> simp [Options.inner, hpolicy] at hinner
      | some w =>
          obtain ⟨⟨hw, rfl⟩, hrest⟩ := hwindow w rfl
          obtain ⟨hfound, hinner, hadvance⟩ := ho.search hw hrest unordered c
          rw [traceChildren]
          refine List.forall_mem_cons.2 ⟨nested_iff.2 ⟨?_, ?_⟩, ihcs ?_⟩
          · intro r hr
            rw [span_trace] at hr
            exact ⟨w.span, rfl, hfound r hr⟩
          · rw [span_trace]
            exact ihc _ _ _ hinner
          · rintro w' ⟨⟩
            exact ⟨⟨hw, rfl⟩, hadvance⟩

/-- **What one search sustains is true of every span below the root and the nearest one above it**,
if the children of the root are searched in a window of the nearest span above them. -/
theorem trace_nested (ho : o.Sustains I P) (f : Form) (own : Option Span)
    (outer : Option Window) (best : Option Span)
    (hinner : ∀ kind w, f.kind? = some kind → o.inner kind own outer = some w →
      I w ∧ own.or best = some w.span) :
    ∀ d ∈ (f.trace o own outer).children, d.Nested P (own.or best) := by
  induction f using Form.induct generalizing own outer best with
  | atom s m => simp [trace, children]
  | node kind cs m ih =>
      rw [trace, children]
      refine traceChildren_nested ho ih ?_
      intro w hw
      have hI := hinner kind w rfl hw
      rw [hw]
      exact ⟨hI, hI.1⟩

/-- What one search sustains is true of **every span below the root**, if it is true of the window
in which the children of the root are searched. -/
theorem trace_everywhere {Q : Span → Prop} (ho : o.Sustains I fun _ => Q) (f : Form)
    (own : Option Span) (outer : Option Window)
    (hinner : ∀ kind w, f.kind? = some kind → o.inner kind own outer = some w → I w) :
    ∀ d ∈ (f.trace o own outer).children, d.Everywhere Q := by
  intro d hd path g hget r hr
  have hbest : ∀ kind w, f.kind? = some kind → o.inner kind own outer = some w →
      I w ∧ own.or (outer.map (·.span)) = some w.span := by
    intro kind w hkind hw
    refine ⟨hinner kind w hkind hw, ?_⟩
    cases own with
    | some span =>
        cases hw
        rfl
    | none =>
        cases hpolicy : o.unmatched <;> simp [Options.inner, hpolicy] at hw
        simp [hw]
  obtain ⟨above, -, hQ⟩ := trace_nested ho f own outer _ hbest d hd path g r hget hr
  exact hQ

/-! ### The nodes of a trace -/

theorem exists_trace_of_mem {cs : List Form} {window : Option Window} {unordered : Bool}
    {offset : Nat} {d : Form} (h : d ∈ traceChildren o window unordered offset cs) :
    ∃ (c : Form) (own : Option Span) (outer : Option Window), d = c.trace o own outer := by
  induction cs generalizing offset with
  | nil => simp [traceChildren] at h
  | cons c cs ih =>
      cases window with
      | none =>
          rw [traceChildren] at h
          rcases List.mem_cons.1 h with rfl | h
          · exact ⟨c, none, none, rfl⟩
          · exact ih h
      | some w =>
          rw [traceChildren] at h
          rcases List.mem_cons.1 h with rfl | h
          · exact ⟨c, _, _, rfl⟩
          · exact ih h

/-- Every node of a trace **has a trace of its own**. -/
theorem exists_trace_of_get? {f g : Form} {own : Option Span} {outer : Option Window}
    {path : NodePath} (h : (f.trace o own outer).get? path = some g) :
    ∃ (f' : Form) (own' : Option Span) (outer' : Option Window), g = f'.trace o own' outer' := by
  induction path generalizing f own outer with
  | nil =>
      cases h
      exact ⟨f, own, outer, rfl⟩
  | cons i path ih =>
      obtain ⟨c, hc, hget⟩ := Option.bind_eq_some_iff.1 h
      have hmem := List.mem_of_getElem? hc
      cases f with
      | atom s m => simp [trace, children] at hmem
      | node kind cs m =>
          rw [trace, children] at hmem
          obtain ⟨c', own', outer', rfl⟩ := exists_trace_of_mem hmem
          exact ih hget

end Form

end EdnSpans
