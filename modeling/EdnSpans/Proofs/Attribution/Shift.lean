/-
**Attribution further on.**

Where a seed stands has no influence on what is found in it: the search looks at the text of the
seed alone, and adds its offset and its line to whatever it finds.  So a form that stands further on
in a longer text is attributed as if it stood alone, and all its spans are further on as well.  Nor
is it of any influence which spans the form carried before.

Main definitions:

* `EdnSpans.Span.shift` — a span further on, by lines and by characters;
* `EdnSpans.Attributed.mapSpans` — a result with all its spans changed;
* `EdnSpans.Options.Mirrors` — one search is **the image of another**, for forms and windows of given
  sorts.

Main results:

* `EdnSpans.Form.trace_mirrors` — if one search is the image of another, the whole trace is;
* `EdnSpans.Form.trace_bare` — the spans that a form carries have no influence;
* `EdnSpans.Form.attributeFrom_shift` — **attribution further on is attribution, further on**.
-/
import EdnSpans.Proofs.Attribution.Lookup
import EdnSpans.Proofs.Attribution.Trace

set_option relaxedAutoImplicit false
set_option autoImplicit false

namespace EdnSpans

/-! ### Spans further on -/

/-- The span further on, by the given numbers of lines and of characters. -/
def Span.shift (lines chars : Nat) (s : Span) : Span where
  source := s.source
  line := s.line + lines
  endLine := s.endLine + lines
  start := s.start + chars
  stop := s.stop + chars

/-- The window in the changed span. -/
def Window.map (φ : Span → Span) (w : Window) : Window := { w with span := φ w.span }

/-- What was found, with its span changed. -/
def Found.map (φ : Span → Span) (found : Found) : Found := { found with span := φ found.span }

/-- What came of a search, with all spans changed. -/
def Finding.map (φ : Span → Span) (finding : Finding) : Finding :=
  ⟨finding.searched.map φ, finding.found.map (Found.map φ)⟩

/-- The result with every span changed, whether a node carries it or not. -/
def Attributed.mapSpans (φ : Span → Span) (a : Attributed) : Attributed :=
  ⟨a.form.mapSpans φ, a.detached.map (Prod.map id φ)⟩

/-! ### One search -/

/-- A search for one of the given forms in a changed window finds the changed span, and in everything
else the options are the same.  This is so for windows of one sort, and all windows that come of
searches in them are of that sort. -/
structure Options.Mirrors (o' o : Options) (φ : Span → Span) (F : Form → Prop) (I : Window → Prop) :
    Prop where
  strategy_eq : o'.strategy = o.strategy
  unmatched_eq : o'.unmatched = o.unmatched
  sustains : ∃ P, o.Sustains I P
  find?_map {f : Form} {w : Window} : F f → I w →
    (w.map φ).find? o.strategy f = (w.find? o.strategy f).map (Found.map φ)

namespace Options.Mirrors

variable {o o' : Options} {φ : Span → Span} {F : Form → Prop} {I : Window → Prop}

theorem search_map (h : o'.Mirrors o φ F I) (unordered : Bool) {offset : Nat} {f : Form} {w : Window}
    (hf : F f) (hw : I w) (hrest : I ⟨w.span, offset⟩) :
    (w.map φ).search o'.strategy unordered offset f
      = (w.search o.strategy unordered offset f).map φ := by
  have hrest : Window.find? o.strategy f { w.map φ with offset := offset }
      = (Window.find? o.strategy f { w with offset := offset }).map (Found.map φ) :=
    h.find?_map hf hrest
  simp only [Window.search, h.strategy_eq, hrest, h.find?_map hf hw]
  cases Window.find? o.strategy f { w with offset := offset } with
  | some found => rfl
  | none =>
      have hoffset : (w.map φ).offset = w.offset := rfl
      rw [Option.map_none, hoffset]
      dsimp only
      split <;> rfl

theorem inner_map (h : o'.Mirrors o φ F I) (kind : Kind) (own : Option Span) (outer : Option Window) :
    o'.inner kind (own.map φ) (outer.map (Window.map φ))
      = (o.inner kind own outer).map (Window.map φ) := by
  cases own with
  | some span => simp [inner, interior, h.strategy_eq, Window.map]
  | none =>
      simp only [inner, Option.map_none, h.unmatched_eq]
      cases o.unmatched <;> rfl

theorem advance_map (h : o'.Mirrors o φ F I) (offset : Nat) (found : Option Found) :
    o'.advance offset (found.map (Found.map φ)) = o.advance offset found := by
  simp only [advance, h.strategy_eq]
  cases o.strategy <;> cases found <;> rfl

end Options.Mirrors

/-! ### The whole trace -/

namespace Form

section

variable {o o' : Options} {φ : Span → Span} {F : Form → Prop} {I : Window → Prop}

/-- The step from the children to their parent: siblings are traced one after the other. -/
theorem traceChildren_mirrors (h : o'.Mirrors o φ F I) {cs : List Form}
    (ih : ∀ c ∈ cs, ∀ own outer,
      (∀ kind w, c.kind? = some kind → o.inner kind own outer = some w → I w) →
        c.trace o' (own.map φ) (outer.map (Window.map φ)) = (c.trace o own outer).mapSpans φ)
    (hF : ∀ c ∈ cs, F c) (window : Option Window) (unordered : Bool) (offset : Nat)
    (hwindow : ∀ w, window = some w → I w ∧ I ⟨w.span, offset⟩) :
    traceChildren o' (window.map (Window.map φ)) unordered offset cs
      = (traceChildren o window unordered offset cs).map (mapSpans φ) := by
  induction cs generalizing offset with
  | nil => simp [traceChildren]
  | cons c cs ihcs =>
      have ihc := ih c (List.mem_cons_self ..)
      replace ihcs := ihcs (fun d hd => ih d (List.mem_cons_of_mem _ hd))
        fun d hd => hF d (List.mem_cons_of_mem _ hd)
      cases window with
      | none =>
          have hc := ihc none none fun kind w _ hw => by
            cases hpolicy : o.unmatched <;> simp [Options.inner, hpolicy] at hw
          have hcs := ihcs offset (by simp)
          simp only [Option.map_none] at hc hcs
          rw [Option.map_none, traceChildren, traceChildren, List.map_cons, hc, hcs]
      | some w =>
          obtain ⟨hw, hrest⟩ := hwindow w rfl
          have hsearch := h.search_map unordered (hF c (List.mem_cons_self ..)) hw hrest
          obtain ⟨P, hsustains⟩ := h.sustains
          obtain ⟨-, hinside, hbehind⟩ := hsustains.search hw hrest unordered c
          have hc := ihc ((w.search o.strategy unordered offset c).found.map (·.span))
            (some (w.search o.strategy unordered offset c).searched)
            fun kind v hkind hv => (hinside kind v hkind hv).1
          have hcs := ihcs (o.advance offset (w.search o.strategy unordered offset c).found)
            fun v hv => by cases hv; exact ⟨hw, hbehind⟩
          rw [Option.map_some, traceChildren, traceChildren, List.map_cons, hsearch, ← hc, ← hcs]
          simp only [Finding.map, h.advance_map, Option.map_map, Option.map_some]
          rfl

/-- If one search is the image of another, **the whole trace is the image of the other**. -/
theorem trace_mirrors (h : o'.Mirrors o φ F I) (f : Form)
    (hF : ∀ path g, f.get? path = some g → F g) (own : Option Span) (outer : Option Window)
    (hinner : ∀ kind w, f.kind? = some kind → o.inner kind own outer = some w → I w) :
    f.trace o' (own.map φ) (outer.map (Window.map φ)) = (f.trace o own outer).mapSpans φ := by
  induction f using Form.induct generalizing own outer with
  | atom s m => rfl
  | node kind cs m ih =>
      have hoffset (window : Option Window) :
          (window.map (Window.map φ)).map (·.offset) = window.map (·.offset) := by
        cases window <;> rfl
      have hchild (c : Form) (hc : c ∈ cs) (path : NodePath) (g : Form)
          (hg : c.get? path = some g) : F g := by
        obtain ⟨i, hi, rfl⟩ := List.getElem_of_mem hc
        refine hF (i :: path) g ?_
        rwa [get?_cons, children, List.getElem?_eq_getElem hi]
      have hchildren := traceChildren_mirrors h (fun c hc => ih c hc (hchild c hc))
        (fun c hc => hchild c hc [] c rfl) (o.inner kind own outer) kind.isUnordered
        (((o.inner kind own outer).map (·.offset)).getD 0) (by
          intro w hw
          rw [hw]
          exact ⟨hinner kind w rfl hw, hinner kind w rfl hw⟩)
      rw [trace, trace, mapSpans_node, h.inner_map, hoffset, hchildren]

end

/-! ### The spans that were there before -/

theorem locate_bare (strategy : Strategy) (f : Form) (t : Text) :
    f.bare.locate strategy t = f.locate strategy t := by
  cases f with
  | atom s m => rfl
  | node kind cs m => rfl

theorem traceChildren_bare {o : Options} {cs : List Form}
    (ih : ∀ c ∈ cs, ∀ own outer, c.bare.trace o own outer = c.trace o own outer)
    (window : Option Window) (unordered : Bool) (offset : Nat) :
    traceChildren o window unordered offset (cs.map bare)
      = traceChildren o window unordered offset cs := by
  induction cs generalizing offset with
  | nil => rfl
  | cons c cs ihcs =>
      have ihc := ih c (List.mem_cons_self ..)
      replace ihcs := ihcs fun d hd => ih d (List.mem_cons_of_mem _ hd)
      cases window with
      | none => rw [List.map_cons, traceChildren, traceChildren, ihc, ihcs]
      | some w =>
          have hsearch : w.search o.strategy unordered offset c.bare
              = w.search o.strategy unordered offset c := by
            simp only [Window.search, Window.find?, locate_bare]
          rw [List.map_cons, traceChildren, traceChildren, hsearch, ihc, ihcs]

/-- The spans that a form carries **have no influence**. -/
theorem trace_bare (o : Options) (f : Form) (own : Option Span) (outer : Option Window) :
    f.bare.trace o own outer = f.trace o own outer := by
  induction f using Form.induct generalizing own outer with
  | atom s m => rfl
  | node kind cs m ih => rw [bare_node, trace, trace, traceChildren_bare ih]

/-! ### Attribution -/

theorem shed_mapSpans (φ : Span → Span) (f : Form) : (f.mapSpans φ).shed = f.shed.mapSpans φ := by
  induction f using Form.induct with
  | atom s m =>
      rw [mapSpans_atom, shed, shed, mapSpans_atom]
      split <;> rfl
  | node kind cs m ih =>
      rw [mapSpans_node, shed, shed, mapSpans_node, shedAll_eq_map, shedAll_eq_map, List.map_map,
        List.map_map]
      congr 1
      exact List.map_congr_left ih

theorem sheddings_mapSpans (φ : Span → Span) (f : Form) :
    (f.mapSpans φ).sheddings = f.sheddings.map (Prod.map id φ) := by
  rw [sheddings, sheddings, nodes_mapSpans, List.filterMap_map, List.map_filterMap]
  congr 1
  funext entry
  obtain ⟨path, g⟩ := entry
  simp only [Function.comp_apply, Prod.map_apply, id, carriesSpan_mapSpans, span_mapSpans]
  split
  · rfl
  · cases g.span <;> rfl

end Form

/-- A search further on finds the same, **further on**. -/
theorem Options.mirrors_shift (o : Options) (firstLine lines chars : Nat) :
    { o with firstLine := firstLine }.Mirrors o (Span.shift lines chars) (fun _ => True)
      fun _ => True where
  strategy_eq := rfl
  unmatched_eq := rfl
  sustains := ⟨fun _ _ => True, fun _ _ => trivial, fun _ _ => trivial, fun _ _ _ => trivial⟩
  find?_map {f w} _ _ := by
    have htext : (w.map (Span.shift lines chars)).text = w.text := rfl
    have hlift (m : Match) : (w.map (Span.shift lines chars)).lift m
        = (w.lift m).map (Span.shift lines chars) := by
      simp only [Window.lift, Window.map, Found.map, Span.shift, Found.mk.injEq, Span.mk.injEq,
        true_and, and_true]
      omega
    rw [Window.find?, Window.find?, htext, Option.map_map]
    congr 1
    funext m
    exact hlift m

/-- **Attribution further on is attribution, further on**: the seed may be shifted by any numbers of
lines and characters, whatever the number of the first line and whatever spans the form carries. -/
theorem Form.attributeFrom_shift (o : Options) (firstLine lines chars : Nat) (φ : Span → Span)
    (f : Form) (seed : Span) :
    (f.mapSpans φ).attributeFrom { o with firstLine := firstLine } (seed.shift lines chars)
      = (f.attributeFrom o seed).mapSpans (Span.shift lines chars) := by
  have htrace := Form.trace_mirrors (o.mirrors_shift firstLine lines chars) f
    (fun _ _ _ => trivial) (some seed) none fun _ _ _ _ => trivial
  simp only [Option.map_some, Option.map_none] at htrace
  rw [attributeFrom, attributeFrom, ← trace_bare, bare_mapSpans, trace_bare, htrace,
    shed_mapSpans, sheddings_mapSpans]
  rfl

end EdnSpans
